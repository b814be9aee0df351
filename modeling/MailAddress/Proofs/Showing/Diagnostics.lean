import MailAddress.Diagnostic.Rendering
import MailAddress.Proofs.Forms.Verdicts
import MailAddress.Proofs.Showing.Escapes

/-!
# What is shown of a diagnostic

A message quotes a character of the field, but never as a line feed, so a diagnostic about a field
without line feeds is shown in four lines.  The carets of a fault stand under the characters it
spans, one under each.  A blank field has nothing to point to, and the caret stands behind it.

With colours, the lines hold escape sequences between their parts.  Each of them interrupts what is
in front of it, and what follows one in the line without colours is no letter, bracket or parameter
either.  So lines with and without colours are shown alike on a stream that takes no colours,
whatever sequences their parts begin.
-/

namespace MailAddress

variable {field : Text} {fault : Fault} {diagnostic : Diagnostic}

/-! ## Lines -/

namespace Text

theorem not_mem_hexDigits (width n : Nat) : '\n' ∉ hexDigits width n := by
  induction width generalizing n with
  | zero => exact List.not_mem_nil
  | succ width ih =>
      have digits : ∀ digit < 16, hexDigit digit ≠ '\n' := by decide
      rw [hexDigits, List.mem_append, List.mem_singleton, not_or]
      exact ⟨ih (n / 16), Ne.symm (digits (n % 16) (Nat.mod_lt n (by decide)))⟩

theorem not_mem_escapeChar {delimiter : Char} (other : delimiter ≠ '\n') (c : Char) :
    '\n' ∉ escapeChar delimiter c := by
  unfold escapeChar numberEscape
  split
  next same => rcases same with rfl | rfl <;> simp [Ne.symm other]
  next =>
    have digits := not_mem_hexDigits
    split_ifs <;> simp_all [Ne.symm]

/-- A literal stands on one line. -/
theorem not_mem_literal (text : Text) : '\n' ∉ literal text := by
  have other : delimiter text ≠ '\n' := by
    unfold delimiter
    split <;> decide
  simp [literal, Ne.symm other, not_mem_escapeChar other]

end Text

theorem Cause.not_mem_message (cause : Cause) : '\n' ∉ cause.message := by
  cases cause with
  | unexpectedCharacter c =>
      have front : '\n' ∉ "unexpected character ".toList := by decide
      show '\n' ∉ "unexpected character ".toList ++ Text.literal [c]
      rw [List.mem_append, not_or]
      exact ⟨front, Text.not_mem_literal [c]⟩
  | _ => decide

theorem not_mem_columnText (start : Nat) : '\n' ∉ columnText start := by
  rw [columnText, List.mem_append, not_or]
  refine ⟨by decide, fun digit => ?_⟩
  have decimal : toString ((start : Int) + 1) = (start + 1).repr := rfl
  rw [decimal, Nat.toList_repr] at digit
  have is_digit := Nat.isDigit_of_mem_toDigits (by decide) (by decide) digit
  exact absurd is_digit (by decide)

/-! ## Blank fields -/

theorem not_isBlank_of_stuck {stuck : Stuck} (lexed : tokenize field = .error stuck) :
    ¬ IsBlank field := by
  obtain ⟨before, c, rest, tokens, rfl, -, -, solid, -⟩ :=
    (Token.scan_eq_error_iff.1 lexed).exists_broken
  intro blank
  have space := blank c (List.mem_append_right _ List.mem_cons_self)
  rw [solid] at space
  cases space

/-- A field that is refused is blank if and only if its message says so. -/
theorem message_eq_emptyField_iff (refused : (readField false field).verdict = .error fault) :
    (Diagnostic.ofFault fault).message = Cause.emptyField.message ↔ IsBlank field := by
  have told : (Diagnostic.ofFault fault).message = Cause.emptyField.message ↔
      fault.cause = .emptyField :=
    Cause.message_eq_iff nofun
  cases lexed : tokenize field with
  | ok tokens =>
      exact ((diagnoses_of_refused id false refused).grammatical tokens lexed).blank
  | error stuck =>
      obtain rfl : stuck.fault = fault := by
        rw [readField, lexed] at refused
        cases refused
        rfl
      obtain ⟨lexical, -⟩ := fault_within lexed
      refine iff_of_false (fun empty => ?_) (not_isBlank_of_stuck lexed)
      have cause : stuck.cause = .emptyField := told.1 empty
      rw [cause] at lexical
      cases lexical

namespace Diagnostic

/-- The lines of a fault hold no line feed, if the field holds none. -/
theorem not_mem_lines (free : '\n' ∉ field) (fault : Fault) :
    ∀ line ∈ (ofFault fault).lines false field, '\n' ∉ line := by
  have code : '\n' ∉ fault.cause.code := by
    unfold Cause.code
    split <;> decide
  have message := fault.cause.not_mem_message
  have place := not_mem_columnText fault.span.start
  simp only [lines, List.forall_mem_cons]
  refine ⟨?_, ?_, ?_, ?_, nofun⟩
  · simp [header, styled, style, severity, ofFault, code, message]
  · simpa [margined, styled, style, location, ofFault] using place
  · simpa [margined, styled, style] using free
  · simp [margined, carets, styled, style]

theorem splitOn_render (free : '\n' ∉ field) (fault : Fault) :
    ((ofFault fault).render false field).splitOn '\n' = (ofFault fault).lines false field :=
  List.splitOn_intercalate '\n' (not_mem_lines free fault) (List.cons_ne_nil _ _)

/-! ## Carets -/

/-- A caret stands at as many columns as are to be marked, from the first one on. -/
theorem getElem?_carets_iff (diagnostic : Diagnostic) (column : Nat) :
    (diagnostic.carets false)[column]? = some '^' ↔
      diagnostic.start.toNat ≤ column ∧
        column < diagnostic.start.toNat + diagnostic.caretCount := by
  have plain : diagnostic.carets false =
      List.replicate diagnostic.start.toNat ' ' ++ List.replicate diagnostic.caretCount '^' := by
    simp [carets, styled, style]
  rw [plain, List.getElem?_append, List.length_replicate, List.getElem?_replicate,
    List.getElem?_replicate]
  split
  next before => exact iff_of_false (by simp) fun bounds => absurd before (Nat.not_lt.2 bounds.1)
  next behind =>
    have bound : column - diagnostic.start.toNat < diagnostic.caretCount ↔
        column < diagnostic.start.toNat + diagnostic.caretCount := by
      omega
    rw [and_iff_right (Nat.le_of_not_lt behind), ← bound]
    simp

theorem mem_carets {c : Char} (inside : c ∈ diagnostic.carets false) : c = ' ' ∨ c = '^' := by
  simp only [carets, styled, style, List.mem_append, List.mem_replicate] at inside
  rcases inside with ⟨-, rfl⟩ | (inside | ⟨-, rfl⟩) | inside
  · exact .inl rfl
  · cases inside
  · exact .inr rfl
  · cases inside

/-- Carets under a field point to what a diagnostic concerns. -/
structure Underlines (field : Text) (diagnostic : Diagnostic) (marks : Text) : Prop where
  /-- There are carets and blanks only. -/
  only : ∀ c ∈ marks, c = ' ' ∨ c = '^'
  /-- A caret stands under each character of the span and nowhere else. -/
  exactly : ¬ IsBlank field → ∀ column : Nat,
    marks[column]? = some '^' ↔ diagnostic.start ≤ column ∧ (column : Int) < diagnostic.stop
  /-- There is a caret at least. -/
  exists_caret : ¬ IsBlank field → ∃ column : Nat, marks[column]? = some '^'
  /-- All carets stand under characters of the field. -/
  within : ¬ IsBlank field → ∀ column : Nat, marks[column]? = some '^' → column < field.length
  /-- Of a blank field a single caret marks the end. -/
  atEnd : IsBlank field → ∀ column : Nat, marks[column]? = some '^' ↔ column = field.length

/-- The carets of a span of characters of the field. -/
theorem underlines_of_within (solid : ¬ IsBlank field) (first : 0 ≤ diagnostic.start)
    (positive : diagnostic.start < diagnostic.stop) (last : diagnostic.stop ≤ field.length) :
    Underlines field diagnostic (diagnostic.carets false) := by
  have exactly : ∀ column : Nat, (diagnostic.carets false)[column]? = some '^' ↔
      diagnostic.start ≤ column ∧ (column : Int) < diagnostic.stop := by
    intro column
    rw [getElem?_carets_iff, caretCount]
    omega
  refine ⟨fun _ => mem_carets, fun _ => exactly, fun _ => ?_, fun _ column caret => ?_,
    fun blank => absurd blank solid⟩
  · exact ⟨diagnostic.start.toNat, (exactly _).2 (by omega)⟩
  · have inside := (exactly column).1 caret
    omega

/-- The caret of the end of a blank field. -/
theorem underlines_of_blank (blank : IsBlank field) (start : diagnostic.start = field.length)
    (stop : diagnostic.stop = field.length) :
    Underlines field diagnostic (diagnostic.carets false) := by
  refine ⟨fun _ => mem_carets, absurd blank, absurd blank, absurd blank, fun _ column => ?_⟩
  rw [getElem?_carets_iff, caretCount, start, stop]
  omega

/-- A field that is refused has one diagnostic.  If the field holds no line feed, the diagnostic is
shown in four lines, which are the code and the message, the column, the field, and the carets under
what is at fault. -/
theorem render_underlines (f : Text → Text) (field : Text) (free : '\n' ∉ field)
    (refused : (parseField f field).isAccepted = false) :
    ∃ diagnostic marks, (parseField f field).diagnostics = [diagnostic] ∧
      (diagnostic.render false field).splitOn '\n' =
        ["error[".toList ++ diagnostic.code ++ "]: ".toList ++ diagnostic.message,
          "  --> ".toList ++ diagnostic.location, "  | ".toList ++ field,
          "  | ".toList ++ marks] ∧
      Underlines field diagnostic marks := by
  cases verdict : (readField false field).verdict with
  | ok list =>
      have accepted : (parseField f field).isAccepted = true := by
        rw [parseField, Parse.ofReading, verdict]
        rfl
      rw [accepted] at refused
      cases refused
  | error fault =>
      have rejected : parseField f field = .rejected fault := by
        rw [parseField, Parse.ofReading, verdict]
      have diagnoses := diagnoses_of_refused f false verdict
      refine ⟨ofFault fault, (ofFault fault).carets false, by rw [rejected]; rfl, ?_, ?_⟩
      · rw [splitOn_render free fault]
        simp [lines, header, margined, styled, style, severity]
      · have message := message_eq_emptyField_iff verdict
        by_cases blank : IsBlank field
        · obtain ⟨start, stop⟩ := diagnoses.atEnd (message.2 blank)
          exact underlines_of_blank blank start stop
        · obtain ⟨first, positive, last⟩ := diagnoses.within (mt message.1 blank)
          exact underlines_of_within blank first positive last

/-- A comment that is not closed is marked up to the end, with the pair that looks like its end. -/
theorem render_underlines_of_open_comment :
    ∃ marks, (render false ⟨"E100".toList, "unterminated comment".toList, 2, 6⟩
        "a (b\\)".toList).splitOn '\n' =
      ["error[E100]: unterminated comment".toList, "  --> col 3".toList, "  | a (b\\)".toList,
        "  | ".toList ++ marks] ∧ marks[2]? = some '^' ∧ marks[5]? = some '^' := by
  obtain ⟨diagnostic, marks, single, lines, underlines⟩ :=
    render_underlines id "a (b\\)".toList (by decide) (by decide +kernel)
  have reported : (parseField id "a (b\\)".toList).diagnostics =
      [⟨"E100".toList, "unterminated comment".toList, 2, 6⟩] := by
    decide +kernel
  cases single.symm.trans reported
  have solid : ¬ IsBlank "a (b\\)".toList := fun blank => absurd (blank 'a' (by decide)) (by decide)
  have marked := underlines.exactly solid
  exact ⟨marks, lines, (marked 2).2 (by decide), (marked 5).2 (by decide)⟩

/-! ## Colours -/

section Colours

open Terminal

variable {sequence text behind : Text}

/-- A styled text is shown like the text alone, whether there are colours or not. -/
theorem strip_styled (is_sequence : IsSequence sequence) (color : Bool) (text : Text)
    (interrupts : Interrupts behind) :
    strip (styled color sequence text ++ behind) = strip text ++ strip behind := by
  cases color with
  | false => simpa [styled, style] using strip_append interrupts
  | true =>
      calc strip (sequence ++ text ++ reset ++ behind)
        _ = strip (sequence ++ (text ++ (reset ++ behind))) := by simp only [List.append_assoc]
        _ = strip (text ++ (reset ++ behind)) := is_sequence.strip_append
        _ = strip text ++ strip (reset ++ behind) := strip_append isSequence_reset.interrupts
        _ = strip text ++ strip behind := by rw [isSequence_reset.strip_append]

/-- A styled text interrupts sequences in front of it, if the text itself does. -/
theorem interrupts_styled (is_sequence : IsSequence sequence) (color : Bool)
    (interrupts : Interrupts text) : Interrupts (styled color sequence text) := by
  cases color with
  | false => simpa [styled, style] using interrupts
  | true =>
      rw [styled, style, if_pos rfl, List.append_assoc]
      exact is_sequence.interrupts

theorem strip_header (color : Bool) (diagnostic : Diagnostic) :
    strip (diagnostic.header color) =
      strip (severity ++ '[' :: diagnostic.code ++ [']']) ++
        strip (':' :: ' ' :: diagnostic.message) := by
  have message := strip_styled isSequence_bold color (':' :: ' ' :: diagnostic.message)
    interrupts_nil
  rw [List.append_nil, strip_nil, List.append_nil] at message
  rw [header, strip_styled isSequence_boldRed, message]
  exact interrupts_styled isSequence_bold color (interrupts_cons (by decide))

theorem strip_margined (color : Bool) (margin text : Text) :
    strip (margined color margin text) = ' ' :: ' ' :: (strip margin ++ ' ' :: strip text) := by
  have blank : strip (' ' :: text) = ' ' :: strip text := strip_cons_of_ne (by decide)
  rw [margined, List.cons_append, List.cons_append, strip_cons_of_ne (by decide),
    strip_cons_of_ne (by decide), strip_styled isSequence_boldBlue, blank]
  exact interrupts_cons (by decide)

theorem strip_carets (color : Bool) (diagnostic : Diagnostic) :
    strip (diagnostic.carets color) = strip (List.replicate diagnostic.start.toNat ' ') ++
      strip (List.replicate diagnostic.caretCount '^') := by
  have marks := strip_styled isSequence_boldRed color (List.replicate diagnostic.caretCount '^')
    interrupts_nil
  rw [List.append_nil, strip_nil, List.append_nil] at marks
  rw [carets, strip_append, marks]
  refine interrupts_styled isSequence_boldRed color ?_
  cases diagnostic.caretCount with
  | zero => exact interrupts_nil
  | succ count => exact interrupts_cons (by decide)

/-- A stream that takes no colours shows the same of a diagnostic with colours and without. -/
theorem strip_render (color : Bool) (diagnostic : Diagnostic) (field : Text) :
    strip (diagnostic.render color field) = strip (diagnostic.render false field) := by
  -- A line feed stands in no sequence, so the lines are shown one by one.
  rw [render, render, strip_intercalate (by decide), strip_intercalate (by decide)]
  simp only [lines, List.map_cons, List.map_nil, strip_header, strip_margined, strip_carets]

end Colours

end Diagnostic

end MailAddress
