import Mathlib.Computability.Language
import Mathlib.Order.CompletePartialOrder
import MailAddress.Token

/-!
# The languages of the grammar

The grammar of a field without an order of trying.  Each production is a language over the kinds of
token: `+` is a choice, `*` is a sequence and `∗` is any number.  A choice may be made either way,
and a repetition may stop anywhere, so nothing here is greedy.

Comments may stand between any two tokens, but not right before the colon of a group.  Commas
between the members of a list are separators like comments, so they are optional.

Some tokens *spell* a language if their kinds, in order, are a word of it.
-/

namespace MailAddress

open scoped Computability

/-! ## Productions -/

namespace Production

/-- A token of one kind. -/
def token (kind : Kind) : Language Kind := {[kind]}

/-- Any number of comments. -/
def comments : Language Kind := (token .comment)∗

/-- Any number of comments and commas. -/
def separators : Language Kind := (token .comment + token .comma)∗

/-- A word. -/
def word : Language Kind := comments * (token .atom + token .quotedString)

/-- A label. -/
def subDomain : Language Kind := comments * (token .atom + token .domainLiteral)

/-- Labels with periods between them. -/
def domain : Language Kind := subDomain * (comments * token .period * subDomain)∗

/-- One domain or more, each behind an at sign. -/
def route : Language Kind :=
  (comments * token .atSign * domain) * (comments * token .atSign * domain)∗ *
    (comments * token .colon)

/-- Words with periods between them. -/
def localPart : Language Kind := word * (comments * token .period * word)∗

/-- A local part and any number of domains. -/
def addrSpec : Language Kind := localPart * (comments * token .atSign * domain)∗

/-- An address specification in angle brackets, with or without a route. -/
def routeAddr : Language Kind :=
  comments * token .lessThan * comments * (1 + route) * addrSpec * (comments * token .greaterThan)

/-- One word or more. -/
def phrase : Language Kind := word * word∗

/-- An address specification in angle brackets, with or without a name. -/
def routeSpec : Language Kind := (1 + phrase) * routeAddr

/-- A mailbox. -/
def mailbox : Language Kind := routeSpec + addrSpec

/-- One mailbox or more. -/
def mailboxes : Language Kind := mailbox * (separators * mailbox)∗

/-- A group, with or without mailboxes. -/
def group : Language Kind :=
  phrase * token .colon * (comments + mailboxes * separators) * token .semicolon

/-- A member of a field. -/
def address : Language Kind := group + mailbox

/-- A whole field. -/
def addresses : Language Kind :=
  address * (separators * address)∗ * separators * token .endOfText

end Production

/-! ## Spelling a language -/

/-- Some tokens spell a language if their kinds are a word of it. -/
def Spells (language : Language Kind) (tokens : List Token) : Prop :=
  tokens.map Token.kind ∈ language

namespace Spells

variable {first second language : Language Kind} {tokens : List Token} {kind : Kind}

theorem mono (le : first ≤ second) (spells : Spells first tokens) : Spells second tokens :=
  le spells

theorem one : Spells 1 tokens ↔ tokens = [] := by
  simp [Spells, Language.mem_one]

theorem add : Spells (first + second) tokens ↔ Spells first tokens ∨ Spells second tokens :=
  Language.mem_add first second _

theorem token : Spells (Production.token kind) tokens ↔
    ∃ token : Token, tokens = [token] ∧ token.kind = kind := by
  have singleton : Spells (Production.token kind) tokens ↔ tokens.map Token.kind = [kind] := Iff.rfl
  rw [singleton, List.map_eq_singleton_iff]

theorem mul : Spells (first * second) tokens ↔
    ∃ left right, tokens = left ++ right ∧ Spells first left ∧ Spells second right := by
  constructor
  · intro spells
    obtain ⟨a, ha, b, hb, append⟩ := Language.mem_mul.1 spells
    obtain ⟨left, right, rfl, rfl, rfl⟩ := List.map_eq_append_iff.1 append.symm
    exact ⟨left, right, rfl, ha, hb⟩
  · rintro ⟨left, right, rfl, ha, hb⟩
    rw [Spells, List.map_append]
    exact Language.append_mem_mul ha hb

theorem append {left right : List Token} (ha : Spells first left) (hb : Spells second right) :
    Spells (first * second) (left ++ right) :=
  mul.2 ⟨left, right, rfl, ha, hb⟩

/-- Tokens that spell a repetition are taken apart from the left. -/
theorem kstar_induction {motive : List Token → Prop} (nil : motive [])
    (append : ∀ left right, Spells language left → Spells language∗ right → motive right →
      motive (left ++ right))
    (spells : Spells language∗ tokens) : motive tokens := by
  obtain ⟨parts, join, all⟩ := Language.mem_kstar.1 spells
  clear spells
  induction parts generalizing tokens with
  | nil =>
      rw [List.flatten_nil, List.map_eq_nil_iff] at join
      rw [join]
      exact nil
  | cons part parts ih =>
      rw [List.flatten_cons] at join
      obtain ⟨left, right, rfl, rfl, rest⟩ := List.map_eq_append_iff.1 join
      have inside : ∀ word ∈ parts, word ∈ language := fun word member =>
        all word (List.mem_cons_of_mem _ member)
      have right_spells : Spells language∗ right := by
        rw [Spells, rest]
        exact Language.join_mem_kstar inside
      exact append left right (all _ List.mem_cons_self) right_spells (ih rest inside)

theorem kstar_nil : Spells language∗ [] := Language.nil_mem_kstar language

theorem kstar_append {left right : List Token} (first : Spells language left)
    (others : Spells language∗ right) : Spells language∗ (left ++ right) :=
  (first.append others).mono mul_kstar_le_kstar

/-- The words over some kinds. -/
theorem kstar_iff_forall {kinds : List Kind}
    (single : ∀ tokens, Spells language tokens ↔ ∃ token, tokens = [token] ∧ token.kind ∈ kinds) :
    Spells language∗ tokens ↔ ∀ token ∈ tokens, token.kind ∈ kinds := by
  constructor
  · intro spells
    refine spells.kstar_induction (motive := fun tokens => ∀ token ∈ tokens, token.kind ∈ kinds)
      (fun _ member => absurd member List.not_mem_nil) ?_
    intro left right spells _ ih token member
    obtain ⟨only, rfl, kind⟩ := (single left).1 spells
    rcases List.mem_cons.1 member with rfl | member
    · exact kind
    · exact ih token member
  · intro all
    induction tokens with
    | nil => exact kstar_nil
    | cons token tokens ih =>
        have first : Spells language [token] :=
          (single _).2 ⟨token, rfl, all token List.mem_cons_self⟩
        exact first.kstar_append (ih fun other member => all other (List.mem_cons_of_mem _ member))

theorem comments : Spells Production.comments tokens ↔ ∀ token ∈ tokens, token.kind = .comment := by
  have single : ∀ tokens : List Token, Spells (Production.token .comment) tokens ↔
      ∃ token, tokens = [token] ∧ token.kind ∈ [Kind.comment] := by
    intro tokens
    rw [token]
    simp only [List.mem_singleton]
  refine (kstar_iff_forall single).trans ?_
  simp only [List.mem_singleton]

theorem separators : Spells Production.separators tokens ↔
    ∀ token ∈ tokens, token.kind = .comment ∨ token.kind = .comma := by
  have either : ∀ tokens : List Token,
      Spells (Production.token .comment + Production.token .comma) tokens ↔
        ∃ token, tokens = [token] ∧ token.kind ∈ [Kind.comment, .comma] := by
    intro tokens
    rw [add, token, token, ← exists_or]
    simp only [← and_or_left, List.mem_cons, List.not_mem_nil, or_false]
  refine (kstar_iff_forall either).trans ?_
  simp only [List.mem_cons, List.not_mem_nil, or_false]

end Spells

/-! ## Properties that the operations keep -/

/-- A property of languages that the operations keep, and that holds where comments, separators and
most tokens stand. -/
structure KeptByGrammar (P : Language Kind → Prop) : Prop where
  /-- It holds of the empty sequence. -/
  one : P 1
  /-- A sequence keeps it. -/
  mul : ∀ {first second : Language Kind}, P first → P second → P (first * second)
  /-- A choice keeps it. -/
  add : ∀ {first second : Language Kind}, P first → P second → P (first + second)
  /-- A repetition keeps it. -/
  kstar : ∀ {language : Language Kind}, P language → P language∗
  /-- It holds of comments. -/
  comments : P Production.comments
  /-- It holds of separators. -/
  separators : P Production.separators
  /-- It holds of each other token, except for at signs and the end of the text. -/
  token : ∀ {kind : Kind}, kind ∉ [Kind.comment, .atSign, .endOfText] → P (Production.token kind)

namespace KeptByGrammar

variable {P : Language Kind → Prop}

theorem word (kept : KeptByGrammar P) : P Production.word :=
  kept.mul kept.comments (kept.add (kept.token (by decide))
    (kept.token (by decide)))

theorem subDomain (kept : KeptByGrammar P) : P Production.subDomain :=
  kept.mul kept.comments (kept.add (kept.token (by decide))
    (kept.token (by decide)))

/-- A token behind comments. -/
theorem behind_comments (kept : KeptByGrammar P) {kind : Kind}
    (other : kind ∉ [Kind.comment, .atSign, .endOfText]) :
    P (Production.comments * Production.token kind) :=
  kept.mul kept.comments (kept.token other)

theorem domain (kept : KeptByGrammar P) : P Production.domain :=
  kept.mul kept.subDomain (kept.kstar (kept.mul (kept.behind_comments (by decide))
    kept.subDomain))

theorem localPart (kept : KeptByGrammar P) : P Production.localPart :=
  kept.mul kept.word (kept.kstar (kept.mul (kept.behind_comments (by decide)) kept.word))

theorem phrase (kept : KeptByGrammar P) : P Production.phrase :=
  kept.mul kept.word (kept.kstar kept.word)

section Hops

variable (kept : KeptByGrammar P)
variable (hop : P (Production.comments * Production.token .atSign * Production.domain))

include kept hop

theorem route : P Production.route :=
  kept.mul (kept.mul hop (kept.kstar hop)) (kept.behind_comments (by decide))

theorem addrSpec : P Production.addrSpec := kept.mul kept.localPart (kept.kstar hop)

theorem routeAddr : P Production.routeAddr :=
  kept.mul (kept.mul (kept.mul (kept.mul (kept.behind_comments (by decide))
    kept.comments) (kept.add kept.one (kept.route hop))) (kept.addrSpec hop))
    (kept.behind_comments (by decide))

theorem routeSpec : P Production.routeSpec :=
  kept.mul (kept.add kept.one kept.phrase) (kept.routeAddr hop)

theorem mailbox : P Production.mailbox := kept.add (kept.routeSpec hop) (kept.addrSpec hop)

theorem mailboxes : P Production.mailboxes :=
  kept.mul (kept.mailbox hop) (kept.kstar (kept.mul kept.separators (kept.mailbox hop)))

theorem group : P Production.group :=
  kept.mul (kept.mul (kept.mul kept.phrase (kept.token (by decide)))
    (kept.add kept.comments (kept.mul (kept.mailboxes hop) kept.separators)))
    (kept.token (by decide))

theorem address : P Production.address := kept.add (kept.group hop) (kept.mailbox hop)

/-- The property holds of fields if it holds of a domain behind an at sign and of the end. -/
theorem addresses (finish : P (Production.token .endOfText)) : P Production.addresses :=
  kept.mul (kept.mul (kept.mul (kept.address hop) (kept.kstar (kept.mul kept.separators
    (kept.address hop)))) kept.separators) finish

end Hops

end KeptByGrammar

end MailAddress
