import Mathlib.Data.Nat.SuccPred
import MailAddress.Proofs.Matching.Bounds
import MailAddress.Proofs.Matching.Continuations

/-!
# Rules match as much as they can

A rule takes the first alternative that succeeds, and its loops end where an item fails.  Still it
fails only where no prefix of the tokens is in its language, and what it matches is the longest prefix
that is, with comments behind.

A rule *covers* a language if it matches wherever some tokens spell the language, up to their end or
further.  The prefix cannot be longer than what a rule that covers its language matches, and by what
rules read it cannot be shorter, up to comments.

Two rules are left out.  Comments are skipped before a route is tried, and a whole field is matched
without the token of its end.
-/

namespace MailAddress

open MailAddress.Derivation

open scoped Computability

/-! ## Prefixes that spell a language -/

/-- The language of a rule.  Separators stand behind the members of a group, too. -/
def Rule.language : Rule → Language Kind
  | .subDomain => Production.subDomain
  | .domain => Production.domain
  | .route => Production.route
  | .word => Production.word
  | .localPart => Production.localPart
  | .addrSpec => Production.addrSpec
  | .routeAddr => Production.routeAddr
  | .phrase => Production.phrase
  | .routeSpec => Production.routeSpec
  | .mailbox => Production.mailbox
  | .mailboxes => Production.mailboxes * Production.separators
  | .group => Production.group
  | .address => Production.address
  | .addresses => Production.addresses

/-- The lengths of the prefixes that spell a language. -/
def spelledLengths (language : Language Kind) (tokens : List Token) : Set Nat :=
  {length | length ≤ tokens.length ∧ Spells language (tokens.take length)}

theorem length_mem_spelledLengths {language : Language Kind} {front ahead : List Token}
    (spells : Spells language front) : front.length ∈ spelledLengths language (front ++ ahead) := by
  refine ⟨by simp, ?_⟩
  rw [List.take_left]
  exact spells

/-! ## The token of the end -/

/-- What spells a language does not have the end of the text. -/
def LacksEnd (language : Language Kind) : Prop :=
  ∀ tokens, Spells language tokens → ∀ token ∈ tokens, token.kind ≠ .endOfText

namespace LacksEnd

variable {first second language : Language Kind} {kind : Kind}

theorem one : LacksEnd 1 := by
  intro tokens spells token member
  rw [Spells.one.1 spells] at member
  exact absurd member List.not_mem_nil

theorem mul (left : LacksEnd first) (right : LacksEnd second) : LacksEnd (first * second) := by
  intro tokens spells
  obtain ⟨_, _, rfl, first_spells, second_spells⟩ := Spells.mul.1 spells
  exact List.forall_mem_append.2 ⟨left _ first_spells, right _ second_spells⟩

theorem add (left : LacksEnd first) (right : LacksEnd second) : LacksEnd (first + second) := by
  intro tokens spells
  rcases Spells.add.1 spells with spells | spells
  · exact left tokens spells
  · exact right tokens spells

theorem kstar (lacks : LacksEnd language) : LacksEnd language∗ := by
  intro tokens spells
  refine spells.kstar_induction (motive := fun tokens => ∀ token ∈ tokens, token.kind ≠ .endOfText)
    (fun _ member => absurd member List.not_mem_nil) ?_
  exact fun left right first _ others => List.forall_mem_append.2 ⟨lacks left first, others⟩

theorem token (other : kind ≠ .endOfText) : LacksEnd (Production.token kind) := by
  intro tokens spells
  obtain ⟨token, rfl, rfl⟩ := Spells.token.1 spells
  exact List.forall_mem_singleton.2 other

theorem comments : LacksEnd Production.comments := kstar (token (by decide))

theorem keptByGrammar : KeptByGrammar LacksEnd where
  one := one
  mul := mul
  add := add
  kstar := kstar
  comments := comments
  separators := kstar (add (token (by decide)) (token (by decide)))
  token outside := token fun finish => outside (by simp [finish])

/-- Only a whole field has the end of the text. -/
theorem of_rule {rule : Rule} (no_field : rule ≠ .addresses) : LacksEnd rule.language := by
  have kept := keptByGrammar
  have hop : LacksEnd (Production.comments * Production.token .atSign * Production.domain) :=
    mul (mul comments (token (by decide))) kept.domain
  cases rule with
  | subDomain => exact kept.subDomain
  | domain => exact kept.domain
  | route => exact kept.route hop
  | word => exact kept.word
  | localPart => exact kept.localPart
  | addrSpec => exact kept.addrSpec hop
  | routeAddr => exact kept.routeAddr hop
  | phrase => exact kept.phrase
  | routeSpec => exact kept.routeSpec hop
  | mailbox => exact kept.mailbox hop
  | mailboxes => exact mul (kept.mailboxes hop) kept.separators
  | group => exact kept.group hop
  | address => exact kept.address hop
  | addresses => exact absurd rfl no_field

/-- The end of the text stands behind what spells such a language. -/
theorem hasEnd {front ahead : List Token} (lacks : LacksEnd language)
    (spells : Spells language front) (ends : HasEnd (front ++ ahead)) : HasEnd ahead :=
  ends.of_append (lacks front spells)

end LacksEnd

/-! ## Covering a language -/

theorem Derivation.IsWords.append {left right : List Token} {words others : List Word}
    (derived : IsWords left words) (behind : IsWords right others) :
    IsWords (left ++ right) (words ++ others) := by
  induction derived with
  | nil => exact behind
  | cons first _ ih =>
      rw [List.append_assoc]
      exact .cons first ih

namespace Parser

variable {α : Type} {parser : Parser α} {language : Language Kind}
variable {tokens rest ahead : List Token}

/-- Wherever some tokens spell the language, the parser matches up to their end or further. -/
def Covers (parser : Parser α) (language : Language Kind) : Prop :=
  ∀ front ahead, Spells language front → HasEnd ahead →
    parser.PassesAt (ahead.length + 1) (front ++ ahead)

theorem MeetsAt.passesAt {value : α} (meets : parser.MeetsAt value ahead ahead.length tokens)
    (ends : HasEnd ahead) : parser.PassesAt (ahead.length + 1) tokens := by
  rcases meets with matched | passes
  · exact ⟨value, ahead, matched, ends, Nat.lt_succ_self _⟩
  · exact passes.mono (Nat.le_succ _)

theorem passesAt_of_run {value : α} {events : List Event}
    (run : parser false tokens = ⟨.matched value ahead, events⟩) (ends : HasEnd ahead) :
    parser.PassesAt (ahead.length + 1) tokens :=
  MeetsAt.passesAt (.inl (congrArg Run.outcome run)) ends

/-! ### Parts of a member -/

theorem covers_subDomain : subDomain.Covers Production.subDomain := by
  intro front ahead spells ends
  obtain ⟨label, derived⟩ := exists_isLabel spells
  exact passesAt_of_run (run_subDomain derived) ends

theorem covers_word : word.Covers Production.word := by
  intro front ahead spells ends
  obtain ⟨word, derived⟩ := exists_isWord spells
  exact passesAt_of_run (run_word derived) ends

theorem covers_separated {item : Parser (Commented α)} {Item : List Token → α → Prop}
    (matches_item : MatchesItem item Item) (advances : item.Advances)
    (derive : ∀ tokens, Spells language tokens → ∃ value, Item tokens value) :
    (separated .period item).Covers
      (language * (Production.comments * Production.token .period * language)∗) := by
  intro front ahead spells ends
  obtain ⟨values, derived⟩ := exists_isSeries derive Comments.nil spells
  rw [List.append_nil] at derived
  exact (meetsAt_separated matches_item advances derived ends).passesAt ends

theorem covers_domain : domain.Covers Production.domain :=
  covers_separated (fun _ _ _ => run_subDomain) subDomain_advances fun _ => exists_isLabel

theorem covers_localPart : localPart.Covers Production.localPart :=
  covers_separated (fun _ _ _ => run_word) word_advances fun _ => exists_isWord

theorem covers_addrSpec : addrSpec.Covers Production.addrSpec := by
  intro front ahead spells ends
  obtain ⟨spec, derived⟩ := exists_isAddrSpec Comments.nil spells
  rw [List.append_nil] at derived
  exact (meetsAt_addrSpec derived ends).passesAt ends

theorem covers_routeAddr : routeAddr.Covers Production.routeAddr := by
  intro front ahead spells ends
  obtain ⟨spec, derived⟩ := exists_isRouteAddr spells
  exact passesAt_of_run (run_routeAddr derived) ends

/-- A phrase also takes the words that follow. -/
theorem covers_phrase : phrase.Covers Production.phrase := by
  intro front ahead spells ends
  obtain ⟨word, words, derived⟩ := exists_isWords spells
  obtain ⟨name, others, rest, kind, rfl, behind, lead, no_atom, no_quoted⟩ := exists_words ends
  have rest_ends : HasEnd rest := by
    refine ends.of_append fun token member same => ?_
    have kind := behind.kind_of_mem token member
    simp [same] at kind
  have run := run_phrase (derived.append behind) lead no_atom no_quoted
  rw [List.append_assoc] at run
  exact (passesAt_of_run run rest_ends).mono (by simp)

theorem covers_routeSpec : routeSpec.Covers Production.routeSpec := by
  intro front ahead spells ends
  obtain ⟨name, target, rfl, name_spells, target_spells⟩ := Spells.mul.1 spells
  obtain ⟨spec, target_derived⟩ := exists_isRouteAddr target_spells
  rcases Spells.add.1 name_spells with none | name_spells
  · rw [Spells.one.1 none]
    exact passesAt_of_run (run_routeSpec_angle target_derived) ends
  · obtain ⟨word, words, name_derived⟩ := exists_isWords name_spells
    rw [List.append_assoc]
    exact passesAt_of_run (run_routeSpec_named name_derived target_derived) ends

/-! ### Members and lists -/

section Members

variable {member : Parser α} {Member : List Token → List Token → α → Prop}

/-- The end of the text closes a list. -/
theorem exists_finish (ends : HasEnd ahead) :
    ∃ finish : Token, headKind [finish] = some .endOfText := by
  obtain ⟨finish, _, kind⟩ := ends
  exact ⟨finish, congrArg some kind⟩

theorem covers_member (shapes : MemberRules language Member) (rules : MeetsMembers member Member) :
    member.Covers language := by
  intro front ahead spells ends
  obtain ⟨finish, head⟩ := exists_finish ends
  obtain ⟨value, derived⟩ := exists_member shapes head (.inl rfl) spells
  have last : Member front ([] ++ [finish]) value := derived
  exact (rules.meets last ends (.inl rfl)).passesAt ends

theorem covers_members (shapes : MemberRules language Member) (rules : MeetsMembers member Member) :
    (members member).Covers
      (language * (Production.separators * language)∗ * Production.separators) := by
  intro front ahead spells ends
  obtain ⟨finish, head⟩ := exists_finish ends
  obtain ⟨list, derived⟩ := exists_isMembers shapes head (.inl rfl) spells
  exact (meetsAt_members rules derived ends).passesAt ends

end Members

theorem covers_group : group.Covers Production.group := by
  intro front ahead spells ends
  obtain ⟨value, derived⟩ := exists_isGroup spells ahead
  exact passesAt_of_run (run_group derived ends) ends

/-! ## All rules -/

theorem covers_rule {rule : Rule} (no_route : rule ≠ .route) (no_field : rule ≠ .addresses) :
    rule.parser.Covers rule.language := by
  cases rule with
  | subDomain => exact covers_subDomain
  | domain => exact covers_domain
  | route => exact absurd rfl no_route
  | word => exact covers_word
  | localPart => exact covers_localPart
  | addrSpec => exact covers_addrSpec
  | routeAddr => exact covers_routeAddr
  | phrase => exact covers_phrase
  | routeSpec => exact covers_routeSpec
  | mailbox => exact covers_member mailboxRules mailbox_meets
  | mailboxes => exact covers_members mailboxRules mailbox_meets
  | group => exact covers_group
  | address => exact covers_member addressRules address_meets
  | addresses => exact absurd rfl no_field

/-- A parser that takes no comments behind what it reads is one that may. -/
theorem Reads.mul_comments (reads : parser.Reads language) :
    parser.Reads (language * Production.comments) := by
  refine reads.mono ?_
  calc language = language * 1 := (mul_one _).symm
    _ ≤ language * Production.comments := mul_le_mul_right Production.one_le_comments _

theorem reads_rule {rule : Rule} (no_field : rule ≠ .addresses) :
    rule.parser.Reads (rule.language * Production.comments) := by
  cases rule with
  | subDomain => exact reads_subDomain.mul_comments
  | domain => exact reads_domain
  | route => exact reads_route.mul_comments
  | word => exact reads_word.mul_comments
  | localPart => exact reads_localPart
  | addrSpec => exact reads_addrSpec
  | routeAddr => exact reads_routeAddr.mul_comments
  | phrase => exact reads_phrase.mul_comments
  | routeSpec => exact reads_routeSpec.mul_comments
  | mailbox => exact reads_mailbox
  | mailboxes => exact reads_mailboxes.mul_comments
  | group => exact reads_group.mul_comments
  | address => exact reads_address
  | addresses => exact absurd rfl no_field

/-! ## Longest prefixes -/

/-- What covers a language matches any prefix that spells it, or more. -/
theorem Covers.exists_matched {length : Nat} (covers : parser.Covers language)
    (lacks : LacksEnd language) (ends : HasEnd tokens)
    (spelled : length ∈ spelledLengths language tokens) :
    ∃ value rest, (parser false tokens).outcome = .matched value rest ∧
      length + rest.length ≤ tokens.length := by
  obtain ⟨inside, spells⟩ := spelled
  rw [← List.take_append_drop length tokens] at ends
  have passes := covers _ _ spells (lacks.hasEnd spells ends)
  rw [List.take_append_drop] at passes
  obtain ⟨value, rest, matched, -, fewer⟩ := passes
  rw [List.length_drop] at fewer
  exact ⟨value, rest, matched, by omega⟩

/-- Where no prefix spells the language, and only there, the parser fails. -/
theorem Covers.failed_iff (covers : parser.Covers language)
    (reads : parser.Reads (language * Production.comments)) (lacks : LacksEnd language)
    (ends : HasEnd tokens) (inside : (parser false tokens).outcome ≠ .beyond) :
    (parser false tokens).outcome = .failed ↔ spelledLengths language tokens = ∅ := by
  constructor
  · intro failed
    refine Set.eq_empty_iff_forall_notMem.2 fun length spelled => ?_
    obtain ⟨value, rest, matched, -⟩ := covers.exists_matched lacks ends spelled
    rw [failed] at matched
    cases matched
  · intro empty
    cases outcome : (parser false tokens).outcome with
    | beyond => exact absurd outcome inside
    | failed => rfl
    | matched value rest =>
        obtain ⟨read, rfl, spells⟩ := reads tokens value rest outcome
        obtain ⟨front, comments, rfl, front_spells, -⟩ := Spells.mul.1 spells
        rw [List.append_assoc] at empty
        exact absurd empty (Set.nonempty_of_mem (length_mem_spelledLengths front_spells)).ne_empty

/-- What is matched is the longest prefix that spells the language, and comments behind it. -/
theorem Covers.isGreatest {value : α} (covers : parser.Covers language)
    (reads : parser.Reads (language * Production.comments)) (lacks : LacksEnd language)
    (ends : HasEnd tokens) (matched : (parser false tokens).outcome = .matched value rest) :
    ∃ longest comments, tokens = longest ++ comments ++ rest ∧ Comments comments ∧
      IsGreatest (spelledLengths language tokens) longest.length := by
  obtain ⟨read, rfl, spells⟩ := reads tokens value rest matched
  obtain ⟨front, comments, rfl, front_spells, all⟩ := Spells.mul.1 spells
  have bound : (front ++ comments).length ∈
      upperBounds (spelledLengths language (front ++ comments ++ rest)) := by
    intro length spelled
    obtain ⟨_, _, also_matched, le⟩ := covers.exists_matched lacks ends spelled
    rw [matched] at also_matched
    injection also_matched with _ same
    simp only [← same, List.length_append] at le ⊢
    omega
  have spelled : front.length ∈ spelledLengths language (front ++ comments ++ rest) := by
    rw [List.append_assoc]
    exact length_mem_spelledLengths front_spells
  -- The longest prefix may go on into the comments, as it does with the separators of a list.
  obtain ⟨length, greatest⟩ := BddAbove.exists_isGreatest_of_nonempty ⟨_, bound⟩ ⟨_, spelled⟩
  have least : front.length ≤ length := greatest.2 spelled
  have most : length ≤ (front ++ comments).length := bound greatest.1
  refine ⟨(front ++ comments).take length, (front ++ comments).drop length, ?_, ?_, ?_⟩
  · rw [List.take_append_drop]
  · rw [List.drop_append, List.drop_of_length_le least, List.nil_append]
    exact fun token member => Spells.comments.1 all token (List.mem_of_mem_drop member)
  · rwa [List.length_take_of_le most]

end Parser

namespace Session

/-- At an index of a field that has a token, a rule fails if and only if no prefix of the tokens from
there on is in its language.  If it matches, it takes the longest such prefix, and behind it nothing
but comments. -/
theorem call_longest (session : Session) (f : Text → Text) (tracing : Bool) (field : Text)
    (rule : Rule) (index : Nat) (lexed : tokenize field = .ok session.tokens)
    (inside : index < session.tokens.length) (no_route : rule ≠ .route)
    (no_field : rule ≠ .addresses) :
    ((session.call f tracing rule index).2.answer = .failed ↔
      spelledLengths rule.language (session.tokens.drop index) = ∅) ∧
    ∀ position forms, (session.call f tracing rule index).2.answer = .matched position forms →
      ∃ longest comments, (session.tokens.take position).drop index = longest ++ comments ∧
        (∀ token ∈ comments, token.kind = .comment) ∧
        IsGreatest (spelledLengths rule.language (session.tokens.drop index)) longest.length := by
  obtain ⟨body, finish, once⟩ := endsOnce_of_tokenize lexed
  have ends := (once.endsOnly.drop inside).hasEnd
  have covers := Parser.covers_rule no_route no_field
  have reads := Parser.reads_rule no_field
  have lacks := LacksEnd.of_rule no_field
  constructor
  · rw [call_eq_failed_iff]
    refine covers.failed_iff reads lacks ends fun beyond => ?_
    have leaves := (Parser.advances rule).proceeds _ ends
    rw [Parser.ProceedsAt, beyond] at leaves
    exact leaves
  · intro position forms answer
    obtain ⟨value, rest, matched, rfl, -⟩ := call_eq_matched_iff.1 answer
    obtain ⟨longest, comments, eq, all, greatest⟩ := covers.isGreatest reads lacks ends matched
    refine ⟨longest, comments, ?_, all, greatest⟩
    have size := congrArg List.length eq
    have position_eq : session.tokens.length - rest.length - index = (longest ++ comments).length := by
      simp only [List.length_drop, List.length_append] at size ⊢
      omega
    rw [List.drop_take, position_eq, eq, List.take_left]

/-- The tokens of two words in front of an angle bracket that does not close. -/
def restartTokens : List Token :=
  [⟨.atom, ['a'], ⟨0, 1⟩⟩, ⟨.atom, ['b'], ⟨2, 3⟩⟩, ⟨.lessThan, [], ⟨3, 4⟩⟩, ⟨.atom, ['c'], ⟨4, 5⟩⟩,
    ⟨.endOfText, [], ⟨5, 5⟩⟩]

/-- The words are read as a name first, but the mailbox is the first word alone. -/
theorem call_longest_of_restart :
    IsGreatest (spelledLengths Production.mailbox restartTokens) 1 ∧
      spelledLengths Production.routeAddr (restartTokens.drop 2) = ∅ := by
  have answer : (call ⟨restartTokens, 0, 0⟩ id true .mailbox 0).2.answer =
      .matched 1 ⟨"a@".toList, [], "a@\n".toList⟩ := by
    decide +kernel
  have failed : (call ⟨restartTokens, 0, 0⟩ id false .routeAddr 2).2.answer = .failed := by
    decide +kernel
  obtain ⟨-, matched⟩ := call_longest ⟨restartTokens, 0, 0⟩ id true "a b<c".toList .mailbox 0 rfl
    (by decide) (by decide) (by decide)
  obtain ⟨failed_iff, -⟩ := call_longest ⟨restartTokens, 0, 0⟩ id false "a b<c".toList .routeAddr 2
    rfl (by decide) (by decide) (by decide)
  obtain ⟨longest, comments, eq, all, greatest⟩ := matched 1 _ answer
  refine ⟨?_, failed_iff.1 failed⟩
  rcases List.append_eq_singleton_iff.1 eq.symm with ⟨-, rfl⟩ | ⟨rfl, -⟩
  · exact absurd (all _ List.mem_cons_self) (by decide)
  · exact greatest

end Session

end MailAddress
