import MailAddress.Terminal

/-!
# Escape sequences in joined texts

A stream without colours looks for escape sequences from left to right, so what it shows of a text
may depend on what stands in front.  A sequence that begins in one text reaches into the next one
only over a bracket, parameters and a letter.  So where the next text starts with any other
character, both are shown as if each stood alone.

A text is shown as it is if and only if no escape sequence begins anywhere in it.
-/

namespace MailAddress.Terminal

variable {c : Char} {text behind sequence : Text} {length : Nat}

/-! ## Sequences at the start of a text -/

/-- A character that may stand in a sequence behind its first. -/
def mayContinue (c : Char) : Bool := c == '[' || isParameter c || c.isAlpha

/-- No sequence that begins in front of the text reaches into it. -/
def Interrupts (text : Text) : Prop := ∀ c ∈ text.head?, mayContinue c = false

theorem interrupts_nil : Interrupts [] := nofun

theorem interrupts_cons (other : mayContinue c = false) : Interrupts (c :: text) := by
  rintro _ ⟨⟩
  exact other

theorem tailLength_le (found : tailLength text = some length) : length ≤ text.length := by
  induction text generalizing length with
  | nil => cases found
  | cons c text ih =>
      rw [tailLength] at found
      split at found
      next =>
        obtain ⟨shorter, inside, rfl⟩ := Option.map_eq_some_iff.1 found
        exact Nat.succ_le_succ (ih inside)
      next =>
        split at found
        next =>
          cases found
          exact Nat.succ_le_succ (Nat.zero_le _)
        next => cases found

/-- A sequence takes two characters at least, and none beyond the text. -/
theorem sequenceLength_bounds (found : sequenceLength text = some length) :
    0 < length ∧ length ≤ text.length := by
  unfold sequenceLength at found
  split at found
  next c rest =>
    split at found
    next =>
      obtain ⟨shorter, inside, rfl⟩ := Option.map_eq_some_iff.1 found
      exact ⟨Nat.succ_pos _, Nat.add_le_add_right (tailLength_le inside) 2⟩
    next => cases found
  next => cases found

theorem sequenceLength_of_ne (other : c ≠ escape) : sequenceLength (c :: text) = none := by
  unfold sequenceLength
  split
  next same =>
    cases same
    exact if_neg other
  next => rfl

/-- Without a bracket behind its first character, no sequence begins. -/
theorem sequenceLength_of_head (other : text.head? ≠ some '[') :
    sequenceLength (c :: text) = none := by
  unfold sequenceLength
  split
  next same =>
    cases same
    exact absurd rfl other
  next => rfl

theorem tailLength_append (interrupts : Interrupts behind) :
    tailLength (text ++ behind) = tailLength text := by
  induction text with
  | nil =>
      cases behind with
      | nil => rfl
      | cons c behind =>
          have other := interrupts c rfl
          simp only [mayContinue, Bool.or_eq_false_iff] at other
          simp [tailLength, other]
  | cons c text ih => rw [List.cons_append, tailLength, tailLength, ih]

/-- What interrupts sequences takes no part in one that begins in front of it. -/
theorem sequenceLength_append (interrupts : Interrupts behind) :
    sequenceLength (c :: text ++ behind) = sequenceLength (c :: text) := by
  cases text with
  | nil =>
      have alone : sequenceLength [c] = none := sequenceLength_of_head nofun
      rw [alone]
      refine sequenceLength_of_head fun bracket => ?_
      have other := interrupts '[' bracket
      cases other
  | cons second text =>
      by_cases bracket : second = '['
      · subst bracket
        simp only [List.cons_append, sequenceLength, tailLength_append interrupts]
      · have other : (second :: text).head? ≠ some '[' := by simpa using bracket
        rw [sequenceLength_of_head other]
        exact sequenceLength_of_head (by simpa using bracket)

/-! ## What is shown of joined texts -/

/-- A text is read character by character, and a sequence as a whole. -/
theorem strip_induction {motive : Text → Prop} (nil : motive [])
    (kept : ∀ c text, sequenceLength (c :: text) = none → motive text → motive (c :: text))
    (dropped : ∀ text length, sequenceLength text = some length → motive (text.drop length) →
      motive text)
    (text : Text) : motive text := by
  induction size : text.length using Nat.strongRecOn generalizing text with
  | _ size ih =>
    cases text with
    | nil => exact nil
    | cons c text =>
        cases found : sequenceLength (c :: text) with
        | none => exact kept c text found (ih text.length (by simp [← size]) text rfl)
        | some length =>
            have bounds := sequenceLength_bounds found
            refine dropped _ length found (ih _ ?_ _ rfl)
            rw [List.length_drop]
            omega

/-- Two texts are shown as each is alone, if the second interrupts sequences of the first. -/
theorem strip_append (interrupts : Interrupts behind) :
    strip (text ++ behind) = strip text ++ strip behind := by
  induction text using strip_induction with
  | nil => rfl
  | kept c text found ih =>
      have begins := (sequenceLength_append interrupts).trans found
      rw [strip_cons_of_none found, List.cons_append, List.cons_append, ← ih]
      exact strip_cons_of_none begins
  | dropped text length found ih =>
      obtain ⟨positive, fits⟩ := sequenceLength_bounds found
      have begins : sequenceLength (text ++ behind) = some length := by
        cases text with
        | nil => cases found
        | cons c text => exact (sequenceLength_append interrupts).trans found
      rw [strip_of_some begins positive, strip_of_some found positive,
        List.drop_append_of_le_length fits, ih]

theorem strip_cons_of_ne (other : c ≠ escape) : strip (c :: text) = c :: strip text :=
  strip_cons_of_none (sequenceLength_of_ne other)

/-- A character that stands in no sequence. -/
def Separates (c : Char) : Prop := mayContinue c = false ∧ c ≠ escape

instance (c : Char) : Decidable (Separates c) := inferInstanceAs (Decidable (_ ∧ _))

theorem strip_append_cons (separates : Separates c) :
    strip (text ++ c :: behind) = strip text ++ c :: strip behind := by
  rw [strip_append (interrupts_cons separates.1), strip_cons_of_ne separates.2]

/-- Parts with separators between them are shown one by one. -/
theorem strip_intercalate (separates : Separates c) (parts : List Text) :
    strip ([c].intercalate parts) = [c].intercalate (parts.map strip) := by
  induction parts with
  | nil => rfl
  | cons part parts ih =>
      cases parts with
      | nil => simp only [List.map_cons, List.map_nil, List.intercalate_singleton]
      | cons next parts =>
          rw [List.intercalate_cons_cons, List.append_assoc, List.singleton_append,
            strip_append_cons separates, ih]
          simp only [List.map_cons, List.intercalate_cons_cons, List.append_assoc,
            List.singleton_append]

/-- Nothing but an escape sequence. -/
def IsSequence (sequence : Text) : Prop :=
  ∃ inside, sequence = escape :: '[' :: inside ∧ tailLength inside = some inside.length

theorem tailLength_append_of_some (found : tailLength text = some length) :
    tailLength (text ++ behind) = some length := by
  induction text generalizing length with
  | nil => cases found
  | cons c text ih =>
      rw [tailLength] at found
      rw [List.cons_append, tailLength]
      split at found
      next parameter =>
        obtain ⟨shorter, inside, rfl⟩ := Option.map_eq_some_iff.1 found
        rw [if_pos parameter, ih inside]
        rfl
      next parameter => rw [if_neg parameter, found]

/-- A sequence in front of a text is not shown. -/
theorem IsSequence.strip_append (is_sequence : IsSequence sequence) :
    strip (sequence ++ text) = strip text := by
  obtain ⟨inside, rfl, whole⟩ := is_sequence
  have found : sequenceLength (escape :: '[' :: inside ++ text) = some (inside.length + 2) := by
    simp [sequenceLength, tailLength_append_of_some whole]
  rw [strip_of_some found (Nat.succ_pos _)]
  congr 1
  simp

theorem IsSequence.interrupts (is_sequence : IsSequence sequence) :
    Interrupts (sequence ++ text) := by
  obtain ⟨inside, rfl, -⟩ := is_sequence
  exact interrupts_cons (by decide)

theorem isSequence_boldRed : IsSequence boldRed := ⟨_, rfl, rfl⟩

theorem isSequence_bold : IsSequence bold := ⟨_, rfl, rfl⟩

theorem isSequence_boldBlue : IsSequence boldBlue := ⟨_, rfl, rfl⟩

theorem isSequence_reset : IsSequence reset := ⟨_, rfl, rfl⟩

/-! ## Texts that are shown as they are -/

/-- No escape sequence begins anywhere in the text. -/
def IsUncolored (text : Text) : Prop := ∀ rest, rest <:+ text → sequenceLength rest = none

theorem length_strip_le (text : Text) : (strip text).length ≤ text.length := by
  induction text using strip_induction with
  | nil => exact Nat.le_refl _
  | kept c text found ih =>
      rw [strip_cons_of_none found]
      exact Nat.succ_le_succ ih
  | dropped text length found ih =>
      rw [strip_of_some found (sequenceLength_bounds found).1]
      refine Nat.le_trans ih ?_
      rw [List.length_drop]
      exact Nat.sub_le _ _

theorem isUncolored_cons_iff :
    IsUncolored (c :: text) ↔ sequenceLength (c :: text) = none ∧ IsUncolored text := by
  constructor
  · intro uncolored
    exact ⟨uncolored _ List.suffix_rfl,
      fun rest ends => uncolored rest (ends.trans (List.suffix_cons c text))⟩
  · rintro ⟨none, uncolored⟩ rest ends
    rcases List.suffix_cons_iff.1 ends with rfl | ends
    · exact none
    · exact uncolored rest ends

/-- A text is shown as it is if and only if no escape sequence begins in it. -/
theorem strip_eq_self_iff : strip text = text ↔ IsUncolored text := by
  induction text with
  | nil =>
      refine iff_of_true rfl fun rest ends => ?_
      rw [List.suffix_nil.1 ends]
      rfl
  | cons c text ih =>
      rw [isUncolored_cons_iff]
      cases found : sequenceLength (c :: text) with
      | none => rw [strip_cons_of_none found, List.cons_inj_right, ih, and_iff_right rfl]
      | some length =>
          refine iff_of_false (fun same => ?_) nofun
          obtain ⟨positive, fits⟩ := sequenceLength_bounds found
          have shorter := length_strip_le ((c :: text).drop length)
          rw [← strip_of_some found positive, same, List.length_drop] at shorter
          omega

theorem isUncolored_append_iff (interrupts : Interrupts behind) :
    IsUncolored (text ++ behind) ↔ IsUncolored text ∧ IsUncolored behind := by
  rw [← strip_eq_self_iff, ← strip_eq_self_iff, ← strip_eq_self_iff, strip_append interrupts]
  constructor
  · intro same
    have sizes := congrArg List.length same
    rw [List.length_append, List.length_append] at sizes
    have first := length_strip_le text
    have second := length_strip_le behind
    exact List.append_inj same (by omega)
  · rintro ⟨first, second⟩
    rw [first, second]

theorem isUncolored_of_not_mem (free : escape ∉ text) : IsUncolored text := by
  rw [← strip_eq_self_iff]
  induction text with
  | nil => rfl
  | cons c text ih =>
      rw [List.mem_cons, not_or] at free
      rw [strip_cons_of_ne (Ne.symm free.1), ih free.2]

theorem isUncolored_nil : IsUncolored [] := isUncolored_of_not_mem List.not_mem_nil

theorem isUncolored_cons_of_ne (other : c ≠ escape) :
    IsUncolored (c :: text) ↔ IsUncolored text := by
  rw [isUncolored_cons_iff, and_iff_right (sequenceLength_of_ne other)]

/-- Any character may be in front, if no bracket follows it. -/
theorem isUncolored_cons_of_head (other : text.head? ≠ some '[') :
    IsUncolored (c :: text) ↔ IsUncolored text := by
  rw [isUncolored_cons_iff, and_iff_right (sequenceLength_of_head other)]

theorem isUncolored_append_cons_iff (separates : Separates c) :
    IsUncolored (text ++ c :: behind) ↔ IsUncolored text ∧ IsUncolored behind := by
  rw [isUncolored_append_iff (interrupts_cons separates.1), isUncolored_cons_of_ne separates.2]

theorem isUncolored_intercalate_iff (separates : Separates c) (parts : List Text) :
    IsUncolored ([c].intercalate parts) ↔ ∀ part ∈ parts, IsUncolored part := by
  induction parts with
  | nil => simp [isUncolored_nil]
  | cons part parts ih =>
      cases parts with
      | nil => simp
      | cons next parts =>
          rw [List.intercalate_cons_cons, List.append_assoc, List.singleton_append,
            isUncolored_append_cons_iff separates, ih, List.forall_mem_cons (a := part)]

/-- Lines are looked at one by one. -/
theorem isUncolored_flatMap_line_iff {α : Type} (line : α → Text) (items : List α) :
    IsUncolored (items.flatMap fun item => line item ++ ['\n']) ↔
      ∀ item ∈ items, IsUncolored (line item) := by
  induction items with
  | nil => simp [isUncolored_nil]
  | cons item items ih =>
      rw [List.flatMap_cons, List.append_assoc, List.singleton_append,
        isUncolored_append_cons_iff (by decide), ih, List.forall_mem_cons]

/-- A sequence that is begun and not finished stays in front of a line feed. -/
example : strip "\x1b[1\x1b\n\x1b[0ma".toList = "\x1b[1\x1b\na".toList := by decide

end MailAddress.Terminal
