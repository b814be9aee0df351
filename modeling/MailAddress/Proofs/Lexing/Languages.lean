import Mathlib.Computability.Language
import Mathlib.Order.CompletePartialOrder
import MailAddress.Proofs.Lexing.Lexemes

/-!
# The languages of the lexemes

The lexical grammar as languages over characters: `+` is a choice, `*` is a sequence and `∗` is any
number.

```
quoted-string  = DQUOTE *(quoted-text / pair) DQUOTE
domain-literal = "[" *space *(domain-text / pair) *space "]"
comment        = "(" *(comment-text / pair / comment) ")"
atom           = 1*atom-char
```

All but the comments are regular.  A comment is found by counting parentheses, and
`commentTail_iff` says that the count agrees with the recursion of the grammar.  The lexemes that
the scans find are then the words of these languages (`isLexeme_iff`).
-/

namespace MailAddress

open Character

open scoped Computability

namespace LexicalGrammar

/-! ## Productions -/

/-- A single character of a class. -/
def oneOf (p : Char → Bool) : Language Char := {text | ∃ c, p c = true ∧ text = [c]}

/-- A backslash and any character. -/
def pair : Language Char := {text | ∃ c, text = ['\\', c]}

/-- Any number of spaces. -/
def spaces : Language Char := (oneOf isSpace)∗

/-- An atom. -/
def atom : Language Char := oneOf isAtomChar * (oneOf isAtomChar)∗

/-- A quoted string. -/
def quotedString : Language Char :=
  {['"']} * ((oneOf isQuotedText + pair)∗ * {['"']})

/-- A domain literal. -/
def domainLiteral : Language Char :=
  {['[']} * (spaces * ((oneOf isDomainText + pair)∗ * (spaces * {[']']})))

/-- A character that stands for itself in a comment. -/
def isCommentText (c : Char) : Bool := !(['(', ')', '\\', '\n'].contains c)

/-- What stands between the parentheses of a comment. -/
inductive CommentBody : Text → Prop
  /-- Nothing. -/
  | nil : CommentBody []
  /-- A character of text, and more. -/
  | text {c : Char} {rest : Text} :
      isCommentText c = true → CommentBody rest → CommentBody (c :: rest)
  /-- A pair, and more. -/
  | pair {c : Char} {rest : Text} : CommentBody rest → CommentBody ('\\' :: c :: rest)
  /-- A comment, and more. -/
  | comment {inner rest : Text} :
      CommentBody inner → CommentBody rest → CommentBody ('(' :: (inner ++ ')' :: rest))

/-- The bodies of comments. -/
def commentBody : Language Char := {body | CommentBody body}

/-- A comment. -/
def comment : Language Char := {['(']} * (commentBody * {[')']})

/-- The lexemes of a kind.  A structural kind has one, and the end of the text has none. -/
def lexemes : Kind → Language Char
  | .atom => atom
  | .quotedString => quotedString
  | .domainLiteral => domainLiteral
  | .comment => comment
  | .endOfText => 0
  | kind => {kind.symbol}

/-! ## Repetitions in front of a close -/

section Repetition

variable {items close : Language Char} {text item : Text} {p : Char → Bool} {c : Char}

theorem mem_kstar_mul_of_close (closed : text ∈ close) : text ∈ items∗ * close :=
  Language.append_mem_mul (Language.nil_mem_kstar items) closed

theorem append_mem_kstar_mul (first : item ∈ items) (others : text ∈ items∗ * close) :
    item ++ text ∈ items∗ * close := by
  have all : item ++ text ∈ items * (items∗ * close) := Language.append_mem_mul first others
  rw [← mul_assoc] at all
  exact mul_le_mul_left mul_kstar_le_kstar close all

/-- A repetition and its close are taken apart from the left. -/
theorem kstar_mul_induction {motive : Text → Prop} (closed : ∀ text ∈ close, motive text)
    (append : ∀ item ∈ items, ∀ text, motive text → motive (item ++ text))
    (member : text ∈ items∗ * close) : motive text := by
  obtain ⟨_, repetition, behind, behind_closes, rfl⟩ := Language.mem_mul.1 member
  obtain ⟨parts, rfl, all⟩ := Language.mem_kstar.1 repetition
  clear repetition member
  induction parts with
  | nil => exact closed behind behind_closes
  | cons part parts ih =>
      obtain ⟨first, others⟩ := List.forall_mem_cons.1 all
      rw [List.flatten_cons, List.append_assoc]
      exact append part first _ (ih others)

theorem mem_oneOf : [c] ∈ oneOf p ↔ p c = true := by
  constructor
  · rintro ⟨d, holds, same⟩
    obtain rfl := List.singleton_inj.1 same
    exact holds
  · intro holds
    exact ⟨c, holds, rfl⟩

theorem singleton_mul_iff : text ∈ {[c]} * close ↔ ∃ tail ∈ close, text = c :: tail := by
  rw [Language.mem_mul]
  constructor
  · rintro ⟨_, rfl, tail, closes, rfl⟩
    exact ⟨tail, closes, rfl⟩
  · rintro ⟨tail, closes, rfl⟩
    exact ⟨[c], rfl, tail, closes, rfl⟩

theorem forall_of_mem_kstar_oneOf (member : text ∈ (oneOf p)∗) : ∀ c ∈ text, p c = true := by
  obtain ⟨parts, rfl, all⟩ := Language.mem_kstar.1 member
  intro c inside
  obtain ⟨part, part_inside, within⟩ := List.mem_flatten.1 inside
  obtain ⟨d, holds, rfl⟩ := all part part_inside
  rw [List.mem_singleton.1 within]
  exact holds

theorem mem_kstar_oneOf_iff : text ∈ (oneOf p)∗ ↔ ∀ c ∈ text, p c = true := by
  refine ⟨forall_of_mem_kstar_oneOf, fun all => ?_⟩
  refine Language.mem_kstar.2 ⟨text.map fun c => [c], by simp [← List.flatMap_def], ?_⟩
  intro part inside
  obtain ⟨c, within, rfl⟩ := List.mem_map.1 inside
  exact mem_oneOf.2 (all c within)

theorem mem_spaces_iff : text ∈ spaces ↔ ∀ c ∈ text, isSpace c = true := mem_kstar_oneOf_iff

end Repetition

/-! ## Tails of lexemes -/

variable {tail text : Text}

theorem mem_atom_iff : text ∈ atom ↔ isAtom text = true := by
  rw [atom, Language.mem_mul]
  constructor
  · rintro ⟨_, ⟨c, holds, rfl⟩, rest, others, rfl⟩
    have all := forall_of_mem_kstar_oneOf others
    simp [isAtom, holds, List.all_eq_true.2 all]
  · intro holds
    cases text with
    | nil => cases holds
    | cons c rest =>
        simp only [isAtom, List.all_cons, Bool.and_eq_true, List.all_eq_true] at holds
        exact ⟨[c], mem_oneOf.2 holds.2.1, rest, mem_kstar_oneOf_iff.2 holds.2.2, rfl⟩

theorem quotedTail_iff : QuotedTail tail ↔ tail ∈ (oneOf isQuotedText + pair)∗ * {['"']} := by
  constructor
  · intro form
    induction form with
    | close => exact mem_kstar_mul_of_close rfl
    | @pair c tail _ ih => exact append_mem_kstar_mul (.inr ⟨c, rfl⟩) ih
    | @text c tail plain _ ih => exact append_mem_kstar_mul (.inl ⟨c, plain, rfl⟩) ih
  · refine kstar_mul_induction ?_ ?_
    · rintro _ rfl
      exact .close
    · rintro _ (⟨c, plain, rfl⟩ | ⟨c, rfl⟩) text form
      · exact .text plain form
      · exact .pair form

theorem bracketTail_iff : BracketTail tail ↔ tail ∈ spaces * {[']']} := by
  constructor
  · intro form
    induction form with
    | close => exact mem_kstar_mul_of_close rfl
    | @space c tail space _ ih => exact append_mem_kstar_mul (mem_oneOf.2 space) ih
  · refine kstar_mul_induction ?_ ?_
    · rintro _ rfl
      exact .close
    · rintro _ ⟨c, space, rfl⟩ text form
      exact .space space form

theorem domainTail_iff :
    DomainTail tail ↔ tail ∈ (oneOf isDomainText + pair)∗ * (spaces * {[']']}) := by
  constructor
  · intro form
    induction form with
    | close form => exact mem_kstar_mul_of_close (bracketTail_iff.1 form)
    | @pair c tail _ ih => exact append_mem_kstar_mul (.inr ⟨c, rfl⟩) ih
    | @text c tail plain _ ih => exact append_mem_kstar_mul (.inl ⟨c, plain, rfl⟩) ih
  · refine kstar_mul_induction (motive := DomainTail) ?_ ?_
    · exact fun text closed => .close (bracketTail_iff.2 closed)
    · rintro _ (⟨c, plain, rfl⟩ | ⟨c, rfl⟩) text form
      · exact .text plain form
      · exact .pair form

theorem literalTail_iff :
    LiteralTail tail ↔
      tail ∈ spaces * ((oneOf isDomainText + pair)∗ * (spaces * {[']']})) := by
  constructor
  · intro form
    induction form with
    | text form => exact mem_kstar_mul_of_close (domainTail_iff.1 form)
    | @space c tail space _ ih => exact append_mem_kstar_mul (mem_oneOf.2 space) ih
  · refine kstar_mul_induction (motive := LiteralTail) ?_ ?_
    · exact fun text closed => .text (domainTail_iff.2 closed)
    · rintro _ ⟨c, space, rfl⟩ text form
      exact .space space form

/-! ## Counting parentheses -/

theorem isCommentText_iff {c : Char} :
    isCommentText c = true ↔ c ≠ '(' ∧ c ≠ ')' ∧ c ≠ '\\' ∧ c ≠ '\n' := by
  simp [isCommentText]

/-- In `depth` comments, as many bodies are still to be closed, and one more. -/
theorem exists_bodies_of_commentTail {depth : Nat} (form : CommentTail depth tail) :
    ∃ bodies : List Text, bodies.length = depth + 1 ∧ (∀ body ∈ bodies, CommentBody body) ∧
      tail = bodies.flatMap (· ++ [')']) := by
  -- A character goes to the first body, and an opening parenthesis makes one of the first two.
  induction form with
  | close => exact ⟨[[]], rfl, List.forall_mem_singleton.2 .nil, rfl⟩
  | closing _ ih =>
      obtain ⟨bodies, length, all, rfl⟩ := ih
      exact ⟨[] :: bodies, by rw [List.length_cons, length],
        List.forall_mem_cons.2 ⟨.nil, all⟩, rfl⟩
  | @pair depth c tail _ ih =>
      obtain ⟨bodies, length, all, rfl⟩ := ih
      obtain ⟨body, bodies, rfl⟩ := List.exists_cons_of_length_eq_add_one length
      obtain ⟨first, others⟩ := List.forall_mem_cons.1 all
      exact ⟨('\\' :: c :: body) :: bodies, length,
        List.forall_mem_cons.2 ⟨.pair first, others⟩, rfl⟩
  | @opening depth tail _ ih =>
      obtain ⟨bodies, length, all, rfl⟩ := ih
      obtain ⟨inner, bodies, rfl⟩ := List.exists_cons_of_length_eq_add_one length
      obtain ⟨body, bodies, rfl⟩ := List.exists_cons_of_length_eq_add_one (Nat.succ.inj length)
      obtain ⟨first, second, others⟩ := by
        simpa only [List.forall_mem_cons] using all
      exact ⟨('(' :: (inner ++ ')' :: body)) :: bodies, Nat.succ.inj length,
        List.forall_mem_cons.2 ⟨.comment first second, others⟩, by simp⟩
  | @text depth c tail no_backslash no_opening no_closing no_feed _ ih =>
      obtain ⟨bodies, length, all, rfl⟩ := ih
      obtain ⟨body, bodies, rfl⟩ := List.exists_cons_of_length_eq_add_one length
      obtain ⟨first, others⟩ := List.forall_mem_cons.1 all
      have text := isCommentText_iff.2 ⟨no_opening, no_closing, no_backslash, no_feed⟩
      exact ⟨(c :: body) :: bodies, length, List.forall_mem_cons.2 ⟨.text text first, others⟩, rfl⟩

/-- A body changes no count. -/
theorem CommentBody.commentTail {body : Text} (form : CommentBody body) {depth : Nat}
    (closed : CommentTail depth tail) : CommentTail depth (body ++ tail) := by
  induction form generalizing depth tail with
  | nil => exact closed
  | text text _ ih =>
      obtain ⟨no_opening, no_closing, no_backslash, no_feed⟩ := isCommentText_iff.1 text
      exact .text no_backslash no_opening no_closing no_feed (ih closed)
  | pair _ ih => exact .pair (ih closed)
  | comment _ _ inner_ih rest_ih =>
      rw [List.cons_append, List.append_assoc, List.cons_append]
      exact .opening (inner_ih (.closing (rest_ih closed)))

/-- Behind its opening parenthesis, a comment is a body and the closing one. -/
theorem commentTail_iff : CommentTail 0 tail ↔ tail ∈ commentBody * {[')']} := by
  rw [Language.mem_mul]
  constructor
  · intro form
    obtain ⟨bodies, length, all, rfl⟩ := exists_bodies_of_commentTail form
    obtain ⟨body, rfl⟩ := List.length_eq_one_iff.1 length
    exact ⟨body, all body List.mem_cons_self, [')'], rfl, by simp⟩
  · rintro ⟨body, form, _, rfl, rfl⟩
    exact CommentBody.commentTail form .close

theorem mem_comment_iff {text : Text} :
    text ∈ comment ↔ ∃ body, CommentBody body ∧ text = '(' :: (body ++ [')']) := by
  rw [comment, singleton_mul_iff]
  constructor
  · rintro ⟨_, member, rfl⟩
    obtain ⟨body, form, _, rfl, rfl⟩ := Language.mem_mul.1 member
    exact ⟨body, form, rfl⟩
  · rintro ⟨body, form, rfl⟩
    exact ⟨_, Language.append_mem_mul form rfl, rfl⟩

/-- The bodies of comments are texts, pairs and comments in any number. -/
theorem commentBody_eq : commentBody = (oneOf isCommentText + pair + comment)∗ := by
  ext body
  rw [← mul_one (_ ∗)]
  constructor
  · intro form
    induction form with
    | nil => exact mem_kstar_mul_of_close rfl
    | @text c rest text _ ih => exact append_mem_kstar_mul (.inl (.inl ⟨c, text, rfl⟩)) ih
    | @pair c rest _ ih => exact append_mem_kstar_mul (.inl (.inr ⟨c, rfl⟩)) ih
    | @comment inner rest form _ _ ih =>
        have member : '(' :: (inner ++ [')']) ∈ comment := mem_comment_iff.2 ⟨inner, form, rfl⟩
        have all := append_mem_kstar_mul (.inr member) ih
        simpa using all
  · refine kstar_mul_induction (motive := CommentBody) ?_ ?_
    · rintro _ rfl
      exact .nil
    · rintro item ((⟨c, text, rfl⟩ | ⟨c, rfl⟩) | member) rest form
      · exact .text text form
      · exact .pair form
      · obtain ⟨inner, inner_form, rfl⟩ := mem_comment_iff.1 member
        have nested := CommentBody.comment inner_form form
        simpa using nested

/-! ## Lexemes -/

/-- The lexemes that are found are those of the grammar. -/
theorem isLexeme_iff {kind : Kind} {text : Text} : IsLexeme kind text ↔ text ∈ lexemes kind := by
  constructor
  · intro form
    cases form with
    | @structural kind c found =>
        have symbol := (Kind.symbol_of_ofStructural? found).1
        unfold Kind.ofStructural? at found
        split at found <;> cases found <;> exact symbol
    | atom atom => exact mem_atom_iff.2 atom
    | quotedString form => exact singleton_mul_iff.2 ⟨_, quotedTail_iff.1 form, rfl⟩
    | domainLiteral form => exact singleton_mul_iff.2 ⟨_, literalTail_iff.1 form, rfl⟩
    | comment form => exact singleton_mul_iff.2 ⟨_, commentTail_iff.1 form, rfl⟩
  · intro member
    cases kind with
    | atom => exact .atom (mem_atom_iff.1 member)
    | quotedString =>
        obtain ⟨tail, form, rfl⟩ := singleton_mul_iff.1 member
        exact .quotedString (quotedTail_iff.2 form)
    | domainLiteral =>
        obtain ⟨tail, form, rfl⟩ := singleton_mul_iff.1 member
        exact .domainLiteral (literalTail_iff.2 form)
    | comment =>
        obtain ⟨tail, form, rfl⟩ := singleton_mul_iff.1 member
        exact .comment (commentTail_iff.2 form)
    | endOfText => cases member
    | _ =>
        obtain rfl := Set.mem_singleton_iff.1 member
        exact .structural rfl

end LexicalGrammar

end MailAddress
