import MailAddress.Proofs.Lexing.Languages
import MailAddress.Proofs.Lexing.Readers
import MailAddress.Proofs.Lexing.Spans

/-!
# Where a field breaks

A field *breaks* at an offset if what stands in front has tokens, no space comes next, and the rest
starts with no lexeme.  A field without tokens breaks at one offset and at no other, and there its
fault starts.  So a reading never gives up a construct that could have been closed, at whatever
later place, and it goes no further than it has to.

The character at that offset tells what is wrong.  A parenthesis, a bracket or a double quote opens
something that does not close.  Any other character starts no lexeme at all.
-/

namespace MailAddress

open Character LexicalGrammar

/-- What stands in front of this offset has tokens, and what follows is no space and starts with no
lexeme. -/
structure BreaksAt (field : Text) (start : Nat) : Prop where
  /-- What stands in front has tokens. -/
  before : ∃ tokens, tokenize (field.take start) = .ok tokens
  /-- A character comes next that is no space. -/
  solid : ∃ c, field[start]? = some c ∧ isSpace c = false
  /-- No lexeme of any kind comes next. -/
  unfinished : ∀ kind, ∀ lexeme ∈ lexemes kind, ¬ lexeme <+: field.drop start

/-- A message tells by which character a field breaks. -/
structure TellsBreak (c : Char) (message : Text) : Prop where
  /-- A comment opens. -/
  comment : message = "unterminated comment".toList ↔ c = '('
  /-- A domain literal opens. -/
  domainLiteral : message = "unterminated domain-literal".toList ↔ c = '['
  /-- A quoted string opens. -/
  quotedString : message = "unterminated quoted-string".toList ↔ c = '"'
  /-- Any other character is shown.  It closes what is not open, or it is a control. -/
  unexpected : c ≠ '(' → c ≠ '[' → c ≠ '"' →
    message = "unexpected character ".toList ++ Text.literal [c] ∧
      (c = ')' ∨ c = ']' ∨ isControl c = true ∧ isSpace c = false)

/-! ## Messages of causes -/

namespace Cause

variable {cause other : Cause} {c : Char} {text : Text}

/-- The message about a character goes on behind its first words. -/
theorem message_unexpectedCharacter_ne (differs : text.take 21 ≠ "unexpected character ".toList) :
    (unexpectedCharacter c).message ≠ text := by
  rintro rfl
  exact differs (List.take_left' (by decide))

/-- A cause that concerns no character is told by its message. -/
theorem message_eq_iff (plain : ∀ c, other ≠ .unexpectedCharacter c) :
    cause.message = other.message ↔ cause = other := by
  cases other with
  | unexpectedCharacter c => exact absurd rfl (plain c)
  | _ =>
      cases cause with
      | unexpectedCharacter c => exact iff_of_false (message_unexpectedCharacter_ne (by decide)) nofun
      | _ => decide

end Cause

/-! ## The first character of what is broken -/

/-- A character that starts no lexeme closes something or is a control. -/
theorem closes_or_isControl {c : Char} (solid : isSpace c = false) (no_atom : isAtomChar c = false)
    (no_structure : Kind.ofStructural? c = none) (no_comment : c ≠ '(') (no_literal : c ≠ '[')
    (no_string : c ≠ '"') : c = ')' ∨ c = ']' ∨ isControl c = true := by
  by_cases symbol : isSymbol c = true
  · simp only [isSymbol, List.contains_eq_mem, decide_eq_true_eq, List.mem_cons, List.not_mem_nil,
      or_false] at symbol
    rcases symbol with rfl | rfl | rfl | rfl | rfl | rfl | rfl | rfl | rfl | rfl | rfl | rfl | rfl
    all_goals simp_all [Kind.ofStructural?]
  · have control : isControl c = true := by
      simpa [isAtomChar, solid, symbol] using no_atom
    exact .inr (.inr control)

namespace Lexeme

variable {c : Char} {kind : Kind} {cause : Cause} {consumed rest : Text}

/-- The first character tells why no lexeme can be completed. -/
theorem cause_of_broken (solid : isSpace c = false) (broken : read c rest = .broken cause consumed) :
    c = '(' ∧ cause = .unterminatedComment ∨
      c = '[' ∧ cause = .unterminatedDomainLiteral ∨
      c = '"' ∧ cause = .unterminatedQuotedString ∨
      (c ≠ '(' ∧ c ≠ '[' ∧ c ≠ '"') ∧ (c = ')' ∨ c = ']' ∨ isControl c = true) ∧
        cause = .unexpectedCharacter c := by
  unfold read at broken
  split at broken
  next => cases broken
  next no_structure =>
    split at broken
    next parenthesis =>
      obtain ⟨same, -⟩ := prefix_of_ofScan (Scan.comment_staysWithin 0 rest) broken
      exact .inl ⟨parenthesis, same⟩
    next no_comment =>
      split at broken
      next bracket =>
        obtain ⟨same, -⟩ := prefix_of_ofScan (Scan.domainLiteral_staysWithin rest) broken
        exact .inr (.inl ⟨bracket, same⟩)
      next no_literal =>
        split at broken
        next quotes =>
          obtain ⟨same, -⟩ := prefix_of_ofScan (Scan.quotedString_staysWithin rest) broken
          exact .inr (.inr (.inl ⟨quotes, same⟩))
        next no_string =>
          split at broken
          next => cases broken
          next no_atom =>
            cases broken
            have closes := closes_or_isControl solid (Bool.eq_false_iff.2 no_atom) no_structure
              no_comment no_literal no_string
            exact .inr (.inr (.inr ⟨⟨no_comment, no_literal, no_string⟩, closes, rfl⟩))

/-- The message where no lexeme can be completed. -/
theorem tellsBreak_of_broken (solid : isSpace c = false)
    (broken : read c rest = .broken cause consumed) : TellsBreak c cause.message := by
  have comment : cause.message = Cause.unterminatedComment.message ↔ cause = .unterminatedComment :=
    Cause.message_eq_iff nofun
  have literal : cause.message = Cause.unterminatedDomainLiteral.message ↔
      cause = .unterminatedDomainLiteral :=
    Cause.message_eq_iff nofun
  have string : cause.message = Cause.unterminatedQuotedString.message ↔
      cause = .unterminatedQuotedString :=
    Cause.message_eq_iff nofun
  rcases cause_of_broken solid broken with
    ⟨rfl, rfl⟩ | ⟨rfl, rfl⟩ | ⟨rfl, rfl⟩ | ⟨⟨no_comment, no_literal, no_string⟩, closes, rfl⟩
  · exact ⟨comment.trans (by simp), literal.trans (by simp), string.trans (by simp), by simp⟩
  · exact ⟨comment.trans (by simp), literal.trans (by simp), string.trans (by simp), by simp⟩
  · exact ⟨comment.trans (by simp), literal.trans (by simp), string.trans (by simp), by simp⟩
  · refine ⟨comment.trans (by simp [no_comment]), literal.trans (by simp [no_literal]),
      string.trans (by simp [no_string]), fun _ _ _ => ⟨rfl, ?_⟩⟩
    rw [and_iff_left solid]
    exact closes

/-- An atom character starts an atom. -/
theorem exists_read_of_isAtomChar (rest : Text) (first : isAtomChar c = true) :
    ∃ lexeme behind, read c rest = .found .atom lexeme behind := by
  have form : IsLexeme .atom (c :: rest.takeWhile isAtomChar) := .atom (by simp [isAtom, first])
  have ends : EndsAtom (rest.dropWhile isAtomChar) := by
    intro d head
    have stop := List.head?_dropWhile_not isAtomChar rest
    rw [Option.mem_def.1 head] at stop
    exact stop
  have found := read_of_isLexeme form fun _ => ends
  rw [List.takeWhile_append_dropWhile] at found
  exact ⟨_, _, found⟩

/-- No lexeme can be completed if and only if the text starts with none. -/
theorem exists_broken_iff :
    (∃ cause consumed, read c rest = .broken cause consumed) ↔
      ∀ kind, ∀ lexeme ∈ lexemes kind, ¬ lexeme <+: c :: rest := by
  constructor
  · rintro ⟨cause, consumed, broken⟩ kind lexeme member ⟨behind, split⟩
    have form := isLexeme_iff.2 member
    obtain ⟨d, tail, rfl⟩ := List.exists_cons_of_ne_nil form.ne_nil
    rw [List.cons_append] at split
    obtain ⟨rfl, rfl⟩ := List.cons.inj split
    by_cases atom : kind = .atom
    · subst atom
      have starts : isAtomChar d = true := by
        have holds := form.isAtom_of_atom
        simp only [isAtom, List.all_cons, Bool.and_eq_true] at holds
        exact holds.2.1
      obtain ⟨lexeme, rest, found⟩ := exists_read_of_isAtomChar (tail ++ behind) starts
      rw [found] at broken
      cases broken
    · rw [read_of_isLexeme form fun same => absurd same atom] at broken
      cases broken
  · intro none
    cases found : read c rest with
    | broken cause consumed => exact ⟨cause, consumed, rfl⟩
    | found kind lexeme behind =>
        obtain ⟨split, form, -⟩ := isLexeme_of_read found
        exact absurd ⟨behind, split.symm⟩ (none kind lexeme (isLexeme_iff.1 form))

end Lexeme

/-! ## Readings that get stuck -/

namespace Token

variable {offset : Nat} {text : Text} {stuck : Stuck}

/-- A reading gets stuck behind a text that has tokens, where no lexeme can be completed. -/
theorem Sticks.exists_broken (sticks : Sticks offset text stuck) :
    ∃ before c rest tokens, text = before ++ c :: rest ∧ Lexes offset before tokens ∧
      stuck.start = offset + before.length ∧ isSpace c = false ∧
      ∃ consumed, Lexeme.read c rest = .broken stuck.cause consumed := by
  induction sticks with
  | @broken offset c rest consumed cause solid broken =>
      exact ⟨[], c, rest, _, rfl, .finish, rfl, solid, consumed, broken⟩
  | @space offset c rest stuck space _ ih =>
      obtain ⟨before, d, behind, tokens, rfl, lexes, start, solid, broken⟩ := ih
      refine ⟨c :: before, d, behind, tokens, rfl, .space space lexes, ?_, solid, broken⟩
      rw [start, List.length_cons]
      omega
  | @lexeme offset kind lexeme rest stuck form ends _ ih =>
      obtain ⟨before, d, behind, tokens, rfl, lexes, start, solid, broken⟩ := ih
      have before_ends : kind = .atom → EndsAtom before := by
        intro atom
        cases before with
        | nil => exact endsAtom_nil
        | cons first before => exact ends atom
      refine ⟨lexeme ++ before, d, behind, _, ?_, .lexeme form before_ends lexes, ?_, solid, broken⟩
      · rw [List.append_assoc]
      · rw [start, List.length_append]
        omega

end Token

variable {field : Text} {start : Nat} {stuck : Stuck}

/-- A field breaks where its reading gets stuck. -/
theorem breaksAt_of_stuck (lexed : tokenize field = .error stuck) : BreaksAt field stuck.start := by
  obtain ⟨before, c, rest, tokens, rfl, lexes, begins, solid, consumed, broken⟩ :=
    (Token.scan_eq_error_iff.1 lexed).exists_broken
  rw [Nat.zero_add] at begins
  refine ⟨⟨tokens, ?_⟩, ⟨c, ?_, solid⟩, ?_⟩
  · rw [begins, List.take_left]
    exact lexes.scan_eq
  · simp [begins]
  · rw [begins, List.drop_left]
    exact Lexeme.exists_broken_iff.1 ⟨_, consumed, broken⟩

/-- The reading of a field gets stuck where the field breaks. -/
theorem BreaksAt.exists_stuck (breaks : BreaksAt field start) :
    ∃ stuck, tokenize field = .error stuck ∧ stuck.start = start := by
  obtain ⟨⟨tokens, lexed⟩, ⟨c, next, solid⟩, unfinished⟩ := breaks
  obtain ⟨inside, rfl⟩ := List.getElem?_eq_some_iff.1 next
  have split : field = field.take start ++ field[start] :: field.drop (start + 1) := by
    rw [← List.drop_eq_getElem_cons inside, List.take_append_drop]
  rw [List.drop_eq_getElem_cons inside] at unfinished
  obtain ⟨cause, consumed, broken⟩ := Lexeme.exists_broken_iff.2 unfinished
  -- An atom in front cannot reach over the break, since nothing there continues it.
  have ends : EndsAtom (field[start] :: field.drop (start + 1)) := by
    refine endsAtom_cons (Bool.eq_false_iff.2 fun atom => ?_)
    obtain ⟨lexeme, behind, found⟩ := Lexeme.exists_read_of_isAtomChar (field.drop (start + 1)) atom
    rw [found] at broken
    cases broken
  obtain ⟨body, -, scanned⟩ := (Token.scan_eq_ok_iff.1 lexed).scan_append ends
  rw [← split, Token.scan_broken solid broken, List.length_take_of_le (Nat.le_of_lt inside),
    Nat.zero_add] at scanned
  exact ⟨_, scanned, rfl⟩

/-- A field breaks nowhere but where its reading gets stuck. -/
theorem breaksAt_iff (lexed : tokenize field = .error stuck) :
    BreaksAt field start ↔ start = stuck.start := by
  constructor
  · intro breaks
    obtain ⟨other, same, rfl⟩ := breaks.exists_stuck
    rw [lexed] at same
    cases same
    rfl
  · rintro rfl
    exact breaksAt_of_stuck lexed

namespace TokenReader

/-- A field that a fresh reader cannot read leaves it without tokens and with a single fault.  The
field breaks where this fault starts and nowhere else, the fault spans a character of the field at
least, and its message tells by which character the field breaks. -/
theorem exists_fault_of_read_eq_none (field : Text) (stays : (fresh field).read.2 = none) :
    (fresh field).read.1.tokens = [] ∧
      ∃ fault, (fresh field).read.1.faults = [fault] ∧ fault.cause.code = "E100".toList ∧
        fault.span.start < fault.span.stop ∧ fault.span.stop ≤ field.length ∧
        (∀ start, BreaksAt field start ↔ start = fault.span.start) ∧
        ∃ c, field[fault.span.start]? = some c ∧ isSpace c = false ∧
          TellsBreak c fault.cause.message := by
  obtain ⟨stuck, lexed⟩ := read_fresh_eq_none_iff.1 stays
  obtain ⟨lexical, start_lt, stop_le⟩ := fault_within lexed
  obtain ⟨before, c, rest, tokens, rfl, -, begins, solid, consumed, broken⟩ :=
    (Token.scan_eq_error_iff.1 lexed).exists_broken
  rw [Nat.zero_add] at begins
  rw [read_fresh_of_error lexed]
  refine ⟨rfl, stuck.fault, rfl, ?_, start_lt, stop_le, fun _ => breaksAt_iff lexed, c, ?_, solid,
    Lexeme.tellsBreak_of_broken solid broken⟩
  · exact if_pos lexical
  · simp [Stuck.fault, begins]

/-- A domain literal that the end of the field leaves open, behind an atom and a space. -/
theorem exists_fault_of_open_literal :
    (fresh "a [b\\".toList).read.2 = none ∧
      ∃ fault, (fresh "a [b\\".toList).read.1.faults = [fault] ∧ fault.span.start = 2 ∧
        BreaksAt "a [b\\".toList 2 ∧ fault.cause.message = "unterminated domain-literal".toList := by
  have stays : (fresh "a [b\\".toList).read.2 = none := by decide +kernel
  obtain ⟨-, fault, faults, -, -, -, breaks, c, next, -, tells⟩ := exists_fault_of_read_eq_none _ stays
  have same : fault = ⟨.unterminatedDomainLiteral, ⟨2, 4⟩⟩ :=
    List.singleton_inj.1 (faults.symm.trans (by decide +kernel))
  subst same
  exact ⟨stays, _, faults, rfl, (breaks 2).2 rfl, rfl⟩

end TokenReader

end MailAddress
