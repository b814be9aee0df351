import MailAddress.Proofs.Lexing.Tokens

/-!
# Spans within a text

Every token but that of the end spans a character at least, and no token goes beyond the text.  The
same holds of what is at fault where a reading gets stuck, since no scan consumes more than there is.

A text without a lexeme has the token of the end only.
-/

namespace MailAddress

open Character

/-! ## What a stuck scan has consumed -/

namespace Scan

variable {c : Char} {depth : Nat} {text lexeme rest : Text} {scan : Scan}

/-- If the scan gets stuck, the text starts with what was consumed. -/
def StaysWithin (scan : Scan) (text : Text) : Prop :=
  ∀ consumed, scan = .stuck consumed → consumed <+: text

theorem StaysWithin.closed : (Scan.closed lexeme rest).StaysWithin text := nofun

theorem StaysWithin.stuck : (Scan.stuck []).StaysWithin text := by
  intro consumed same
  cases same
  exact List.nil_prefix

theorem StaysWithin.push (within : scan.StaysWithin text) (c : Char) :
    (scan.push c).StaysWithin (c :: text) := by
  intro consumed same
  cases scan with
  | closed lexeme rest => cases same
  | stuck consumed =>
      cases same
      exact List.prefix_cons_inj c |>.2 (within consumed rfl)

theorem comment_staysWithin (depth : Nat) (text : Text) : (comment depth text).StaysWithin text := by
  induction depth, text using Scan.comment.induct with
  | case1 depth => exact .stuck
  | case2 depth c text ih => exact (ih.push c).push '\\'
  | case3 depth text ih =>
      rw [comment]
      exact ih.push '('
  | case4 text => exact .closed
  | case5 depth text ih =>
      rw [comment]
      exact ih.push ')'
  | case6 depth text =>
      rw [comment]
      exact .stuck
  | case7 depth c text no_pair no_opening no_close no_closing no_feed ih =>
      rw [comment]
      · exact ih.push c
      all_goals assumption

theorem quotedString_staysWithin (text : Text) : (quotedString text).StaysWithin text := by
  induction text using Scan.quotedString.induct with
  | case1 => exact .stuck
  | case2 c text ih =>
      rw [quotedString]
      exact (ih.push c).push '\\'
  | case3 text => exact .closed
  | case4 c text no_pair no_quote plain ih =>
      rw [quotedString, if_pos plain]
      · exact ih.push c
      all_goals assumption
  | case5 c text no_pair no_quote plain =>
      rw [quotedString, if_neg plain]
      · exact .stuck
      all_goals assumption

theorem closingBracket_staysWithin (text : Text) : (closingBracket text).StaysWithin text := by
  induction text using Scan.closingBracket.induct with
  | case1 => exact .stuck
  | case2 text => exact .closed
  | case3 c text no_bracket space ih =>
      rw [closingBracket, if_pos space]
      · exact ih.push c
      all_goals assumption
  | case4 c text no_bracket space =>
      rw [closingBracket, if_neg space]
      · exact .stuck
      all_goals assumption

theorem domainText_staysWithin (text : Text) : (domainText text).StaysWithin text := by
  induction text using Scan.domainText.induct with
  | case1 => exact .stuck
  | case2 c text ih =>
      rw [domainText]
      exact (ih.push c).push '\\'
  | case3 c text no_pair plain ih =>
      rw [domainText, if_pos plain]
      · exact ih.push c
      all_goals assumption
  | case4 c text no_pair plain =>
      rw [domainText, if_neg plain]
      · exact closingBracket_staysWithin (c :: text)
      all_goals assumption

theorem domainLiteral_staysWithin (text : Text) : (domainLiteral text).StaysWithin text := by
  induction text using Scan.domainLiteral.induct with
  | case1 => exact .stuck
  | case2 c text space ih =>
      rw [domainLiteral, if_pos space]
      exact ih.push c
  | case3 c text space =>
      rw [domainLiteral, if_neg space]
      exact domainText_staysWithin (c :: text)

end Scan

namespace Lexeme

variable {c : Char} {kind : Kind} {cause other : Cause} {consumed rest text : Text} {scan : Scan}

theorem prefix_of_ofScan (within : scan.StaysWithin rest)
    (broken : ofScan kind cause (scan.push c) = .broken other consumed) :
    other = cause ∧ consumed <+: c :: rest := by
  cases scan with
  | closed lexeme behind => cases broken
  | stuck others =>
      cases broken
      exact ⟨rfl, within.push c _ rfl⟩

/-- Where no lexeme can be completed, the cause is lexical and the text starts with what was
consumed. -/
theorem prefix_of_broken (broken : read c rest = .broken cause consumed) :
    cause.isLexical = true ∧ consumed <+: c :: rest := by
  unfold read at broken
  split at broken
  next => cases broken
  next =>
    split at broken
    next =>
      obtain ⟨rfl, front⟩ := prefix_of_ofScan (Scan.comment_staysWithin 0 rest) broken
      exact ⟨rfl, front⟩
    next =>
      split at broken
      next =>
        obtain ⟨rfl, front⟩ := prefix_of_ofScan (Scan.domainLiteral_staysWithin rest) broken
        exact ⟨rfl, front⟩
      next =>
        split at broken
        next =>
          obtain ⟨rfl, front⟩ := prefix_of_ofScan (Scan.quotedString_staysWithin rest) broken
          exact ⟨rfl, front⟩
        next =>
          split at broken
          next => cases broken
          next =>
            cases broken
            exact ⟨rfl, List.nil_prefix⟩

end Lexeme

/-! ## Readings -/

/-- Nothing but spaces. -/
def IsBlank (text : Text) : Prop := ∀ c ∈ text, isSpace c = true

namespace Token

variable {offset : Nat} {text : Text} {tokens : List Token} {stuck : Stuck}

/-- A reading gets stuck at a character of the text, for a lexical cause, and stands within the
text. -/
theorem Sticks.within (sticks : Sticks offset text stuck) :
    stuck.cause.isLexical = true ∧ stuck.start < offset + text.length ∧
      stuck.cursor ≤ offset + text.length := by
  induction sticks with
  | @broken offset c rest consumed cause solid broken =>
      obtain ⟨lexical, front⟩ := Lexeme.prefix_of_broken broken
      have fewer := front.length_le
      rw [List.length_cons] at fewer ⊢
      exact ⟨lexical, by dsimp only; omega, by dsimp only; omega⟩
  | space _ _ ih =>
      rw [List.length_cons]
      exact ⟨ih.1, by omega, by omega⟩
  | lexeme _ _ _ ih =>
      rw [List.length_append]
      exact ⟨ih.1, by omega, by omega⟩

/-- The token of the end stands at the end, and the others span characters of the text. -/
theorem Lexes.within (lexes : Lexes offset text tokens) :
    ∀ token ∈ tokens,
      (token.kind = .endOfText → token.span = ⟨offset + text.length, offset + text.length⟩) ∧
      (token.kind ≠ .endOfText → token.span.start < token.span.stop ∧
        token.span.stop ≤ offset + text.length) := by
  induction lexes with
  | @finish offset =>
      intro token member
      rw [List.mem_singleton.1 member]
      exact ⟨fun _ => rfl, fun other => absurd rfl other⟩
  | @space offset c rest tokens _ _ ih =>
      rwa [List.length_cons, Nat.add_comm rest.length, ← Nat.add_assoc]
  | @lexeme offset kind lexeme rest tokens form _ _ ih =>
      rw [List.length_append, ← Nat.add_assoc]
      refine List.forall_mem_cons.2 ⟨⟨fun finish => ?_, fun _ => ?_⟩, ih⟩
      · exact absurd finish (IsRead.kind_ne ⟨lexeme, form, rfl⟩)
      · have some := List.length_pos_iff.2 form.ne_nil
        exact ⟨Nat.lt_add_of_pos_right some, Nat.le_add_right _ _⟩

/-- A blank text has the token of the end only.  Otherwise another token comes first. -/
theorem Lexes.blank_or (lexes : Lexes offset text tokens) :
    (IsBlank text ∧ tokens = [Token.finish (offset + text.length)]) ∨
      (¬ IsBlank text ∧ ∃ first others, tokens = first :: others ∧ first.kind ≠ .endOfText) := by
  induction lexes with
  | finish => exact .inl ⟨fun _ member => absurd member List.not_mem_nil, rfl⟩
  | @space offset c rest tokens space _ ih =>
      have same : IsBlank (c :: rest) ↔ IsBlank rest := by
        rw [IsBlank, List.forall_mem_cons, and_iff_right space, IsBlank]
      rwa [same, List.length_cons, Nat.add_comm rest.length, ← Nat.add_assoc]
  | @lexeme offset kind lexeme rest tokens form _ _ _ =>
      obtain ⟨c, tail, rfl⟩ := List.exists_cons_of_ne_nil form.ne_nil
      refine .inr ⟨fun blank => ?_, _, _, rfl, IsRead.kind_ne ⟨c :: tail, form, rfl⟩⟩
      have space := blank c List.mem_cons_self
      rw [form.isSpace_head] at space
      cases space

end Token

/-- The fault of a reading that gets stuck spans characters of the field. -/
theorem fault_within {field : Text} {stuck : Stuck} (lexed : tokenize field = .error stuck) :
    stuck.cause.isLexical = true ∧ stuck.fault.span.start < stuck.fault.span.stop ∧
      stuck.fault.span.stop ≤ field.length := by
  obtain ⟨lexical, start, cursor⟩ := (Token.scan_eq_error_iff.1 lexed).within
  rw [Nat.zero_add] at start cursor
  exact ⟨lexical, Nat.lt_of_lt_of_le (Nat.lt_succ_self _) (Nat.le_max_right _ _),
    Nat.max_le.2 ⟨cursor, start⟩⟩

end MailAddress
