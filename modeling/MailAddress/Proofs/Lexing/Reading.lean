import MailAddress.Proofs.Lexing.Tokens

/-!
# Texts that are read piece by piece

A text is *read to* tokens of some form if these are the tokens of the text in front of whatever
follows, as long as that does not go on with an atom.  Texts of this kind can be put side by side:
the tokens of the whole are those of the parts, unless an atom runs into another.  So what is put
between two parts is a blank or a structural character.
-/

namespace MailAddress

open Character

namespace Token

variable {Derives First Second : List Token → Prop} {text first second : Text} {c : Char}
variable {kind : Kind}

/-- The tokens of a text, in front of what does not go on with an atom, are of some form. -/
def ReadsTo (Derives : List Token → Prop) (text : Text) : Prop :=
  ∀ offset rest, EndsAtom rest → ∃ tokens, Derives tokens ∧
    scan offset (text ++ rest) = (scan (offset + text.length) rest).map (tokens ++ ·)

namespace ReadsTo

theorem mono (reads : ReadsTo First text) (le : ∀ tokens, First tokens → Derives tokens) :
    ReadsTo Derives text := by
  intro offset rest ends
  obtain ⟨tokens, derived, scanned⟩ := reads offset rest ends
  exact ⟨tokens, le tokens derived, scanned⟩

theorem nil (derived : Derives []) : ReadsTo Derives [] := by
  intro offset rest _
  refine ⟨[], derived, ?_⟩
  rw [List.nil_append, List.length_nil, Nat.add_zero]
  cases scan offset rest <;> rfl

/-- A single lexeme. -/
theorem lexeme (form : IsLexeme kind text)
    (derived : ∀ token : Token, token.kind = kind →
      (token.text = if kind.carriesText then text else []) → Derives [token]) :
    ReadsTo Derives text := by
  intro offset rest ends
  refine ⟨[ofLexeme kind text offset], derived _ rfl rfl, ?_⟩
  rw [scan_lexeme form fun _ => ends]
  rfl

/-- Two texts, if the second does not go on with an atom. -/
theorem append (reads : ReadsTo First first) (others : ReadsTo Second second)
    (ends : EndsAtom second)
    (join : ∀ left right, First left → Second right → Derives (left ++ right)) :
    ReadsTo Derives (first ++ second) := by
  intro offset rest rest_ends
  obtain ⟨left, left_derived, left_scanned⟩ :=
    reads offset (second ++ rest) (ends.append rest_ends)
  obtain ⟨right, right_derived, right_scanned⟩ := others (offset + first.length) rest rest_ends
  refine ⟨left ++ right, join left right left_derived right_derived, ?_⟩
  rw [List.append_assoc, left_scanned, right_scanned, List.length_append, ← Nat.add_assoc]
  cases scan (offset + first.length + second.length) rest with
  | error stuck => rfl
  | ok tokens => simp [Except.map]

/-- A structural character in front. -/
theorem structural (found : Kind.ofStructural? c = some kind) (reads : ReadsTo First text)
    (join : ∀ token tokens, token.kind = kind → First tokens → Derives (token :: tokens)) :
    ReadsTo Derives (c :: text) := by
  intro offset rest ends
  obtain ⟨tokens, derived, scanned⟩ := reads (offset + 1) rest ends
  refine ⟨ofLexeme kind [c] offset :: tokens, join _ _ rfl derived, ?_⟩
  rw [List.cons_append, scan_structural found, scanned, List.length_cons,
    Nat.add_assoc offset 1, Nat.add_comm 1]
  cases scan (offset + (text.length + 1)) rest <;> rfl

/-- A blank in front. -/
theorem blank (reads : ReadsTo Derives text) : ReadsTo Derives (' ' :: text) := by
  intro offset rest ends
  obtain ⟨tokens, derived, scanned⟩ := reads (offset + 1) rest ends
  refine ⟨tokens, derived, ?_⟩
  rw [List.cons_append, scan_space (by decide), scanned, List.length_cons,
    Nat.add_assoc offset 1, Nat.add_comm 1]

/-- A whole field. -/
theorem tokenize (reads : ReadsTo Derives text) :
    ∃ tokens finish, tokenize text = .ok (tokens ++ [finish]) ∧ Derives tokens ∧
      finish.kind = .endOfText := by
  obtain ⟨tokens, derived, scanned⟩ := reads 0 [] endsAtom_nil
  refine ⟨tokens, finish (0 + text.length), ?_, derived, rfl⟩
  rw [List.append_nil] at scanned
  exact scanned

end ReadsTo

end Token

end MailAddress
