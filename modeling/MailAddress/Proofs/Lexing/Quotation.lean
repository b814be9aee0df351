import Mathlib.Logic.Basic
import MailAddress.Proofs.Lexing.Tokens

/-!
# Quoting as a codec

Any text can be quoted, and unquoting gives it back.  An atom is left as it is.  Any other text gets
longer by its quotes, so a text that quoting does not change is an atom.

A quoted text is a single lexeme, an atom or a quoted string, unless it holds a line feed.  No line
feed stands between double quotes but in a pair, and quoting puts no backslash in front of one.  So
the reading of a quoted string with a line feed gets stuck.
-/

namespace MailAddress

open Character

variable {text content rest : Text} {c : Char}

/-! ## Between double quotes -/

/-- Only symbols need a pair, and a line feed has no place there. -/
theorem isQuotedText_of_not_isSymbol (plain : ¬ isSymbol c = true) (no_feed : c ≠ '\n') :
    isQuotedText c = true := by
  simp only [isQuotedText, List.contains_eq_mem, Bool.not_eq_eq_eq_not, Bool.not_true,
    decide_eq_false_iff_not, List.mem_cons, List.not_mem_nil, or_false, not_or]
  refine ⟨?_, ?_, no_feed⟩ <;> rintro rfl <;> exact plain rfl

/-- Between double quotes, symbols are pairs and all else is quoted text. -/
theorem quotedTail_of_escaped (free : '\n' ∉ content) :
    QuotedTail (content.flatMap escapeSymbol ++ ['"']) := by
  induction content with
  | nil => exact .close
  | cons c content ih =>
      obtain ⟨other, free⟩ := not_or.1 (List.mem_cons.not.1 free)
      rw [List.flatMap_cons, List.append_assoc, escapeSymbol]
      split
      next => exact .pair (ih free)
      next plain => exact .text (isQuotedText_of_not_isSymbol plain (Ne.symm other)) (ih free)

/-- The scan for a closing quote gets stuck at a line feed. -/
theorem exists_stuck_of_escaped (feed : '\n' ∈ content) :
    ∃ consumed, Scan.quotedString (content.flatMap escapeSymbol ++ rest) = .stuck consumed := by
  induction content with
  | nil => cases feed
  | cons c content ih =>
      rw [List.flatMap_cons, List.append_assoc, escapeSymbol]
      by_cases here : c = '\n'
      · subst here
        exact ⟨[], rfl⟩
      · obtain ⟨consumed, stuck⟩ := ih ((List.mem_cons.1 feed).resolve_left (Ne.symm here))
        split
        next => exact ⟨'\\' :: c :: consumed, by simp [Scan.quotedString, stuck, Scan.push]⟩
        next plain =>
          have quoted := isQuotedText_of_not_isSymbol plain here
          refine ⟨c :: consumed, ?_⟩
          rw [List.singleton_append, Scan.quotedString, if_pos quoted, stuck, Scan.push]
          · rintro _ _ rfl _
            exact plain rfl
          · rintro rfl
            exact plain rfl

theorem length_le_escaped (content : Text) :
    content.length ≤ (content.flatMap escapeSymbol).length := by
  induction content with
  | nil => exact Nat.le_refl 0
  | cons c content ih =>
      rw [List.flatMap_cons, List.length_append, escapeSymbol]
      split <;> simp only [List.length_cons, List.length_nil] <;> omega

theorem unquote_of_escaped (content : Text) :
    unquote ('"' :: content.flatMap escapeSymbol ++ ['"']) = content := by
  rw [unquote, stripQuotes_quoted, resolvePairs_flatMap_escapeSymbol]

/-! ## Quoted texts -/

theorem quote_of_isAtom (atom : isAtom text = true) : quote text = text := if_pos atom

theorem quote_of_not_isAtom (other : ¬ isAtom text = true) :
    quote text = '"' :: text.flatMap escapeSymbol ++ ['"'] := if_neg other

/-- An atom stands for itself. -/
theorem unquote_of_isAtom (atom : isAtom text = true) : unquote text = text := by
  have all : text.all isAtomChar = true := by
    rw [isAtom, Bool.and_eq_true] at atom
    exact atom.2
  rw [unquote, stripQuotes_of_isAtom atom, resolvePairs_of_all_isAtomChar all]

/-- Unquoting undoes quoting. -/
theorem unquote_quote (text : Text) : unquote (quote text) = text := by
  by_cases atom : isAtom text = true
  · rw [quote_of_isAtom atom, unquote_of_isAtom atom]
  · rw [quote_of_not_isAtom atom, unquote_of_escaped]

/-- Only atoms are left as they are. -/
theorem quote_eq_self_iff : quote text = text ↔ isAtom text = true := by
  refine ⟨fun same => ?_, quote_of_isAtom⟩
  by_cases atom : isAtom text = true
  · exact atom
  · rw [quote_of_not_isAtom atom] at same
    have longer := congrArg List.length same
    have escaped := length_le_escaped text
    simp only [List.length_append, List.length_cons, List.length_nil] at longer
    omega

/-- A quoted text is a single lexeme. -/
theorem exists_isLexeme_quote (free : '\n' ∉ text) :
    ∃ kind, (kind = .atom ∨ kind = .quotedString) ∧ IsLexeme kind (quote text) := by
  by_cases atom : isAtom text = true
  · rw [quote_of_isAtom atom]
    exact ⟨.atom, .inl rfl, .atom atom⟩
  · rw [quote_of_not_isAtom atom]
    exact ⟨.quotedString, .inr rfl, .quotedString (quotedTail_of_escaped free)⟩

/-! ## The tokens of a quoted text -/

/-- A lexeme on its own is one token. -/
theorem tokenize_of_isLexeme {kind : Kind} {lexeme : Text} (form : IsLexeme kind lexeme) :
    tokenize lexeme = .ok [Token.ofLexeme kind lexeme 0, Token.finish lexeme.length] := by
  have scanned : Token.scan 0 (lexeme ++ []) =
      (Token.scan (0 + lexeme.length) []).map (Token.ofLexeme kind lexeme 0 :: ·) :=
    Token.scan_lexeme form fun _ => endsAtom_nil
  rw [List.append_nil, Nat.zero_add] at scanned
  exact scanned

/-- A text that is read as an atom with the whole text as its value is one. -/
theorem isAtom_of_tokenize {token finish : Token} (lexed : tokenize text = .ok [token, finish])
    (kind : token.kind = .atom) (value : token.text = text) : isAtom text = true := by
  obtain ⟨body, last, once⟩ := endsOnce_of_tokenize lexed
  obtain ⟨rfl, -⟩ : [token] = body ∧ [finish] = [last] := List.append_inj' once.eq rfl
  obtain ⟨lexeme, form, read⟩ := once.read token (List.mem_singleton_self token)
  rw [kind] at form read
  rw [← value, read]
  exact form.isAtom_of_atom

/-- The reading of a quoted line feed gets stuck. -/
theorem exists_stuck_quote (feed : '\n' ∈ text) : ∃ stuck, tokenize (quote text) = .error stuck := by
  have other : ¬ isAtom text = true := fun atom => by
    rw [isAtom, Bool.and_eq_true, List.all_eq_true] at atom
    exact absurd (atom.2 _ feed) (by decide)
  obtain ⟨consumed, stuck⟩ : ∃ consumed,
      Scan.quotedString (text.flatMap escapeSymbol ++ ['"']) = .stuck consumed :=
    exists_stuck_of_escaped feed
  have broken : Lexeme.read '"' (text.flatMap escapeSymbol ++ ['"']) =
      .broken .unterminatedQuotedString ('"' :: consumed) := by
    simp [Lexeme.read, Kind.ofStructural?, stuck, Scan.push, Lexeme.ofScan]
  rw [quote_of_not_isAtom other]
  exact ⟨_, Token.scan_broken rfl broken⟩

/-- Quoting is undone by unquoting.  It leaves exactly those texts as they are that are read as one
atom.  A quoted text has tokens unless it holds a line feed, and then it is one atom or one quoted
string from its start to its end. -/
theorem quote_codec (text : Text) :
    unquote (quote text) = text ∧
    (quote text = text ↔ ∃ token finish, tokenize text = .ok [token, finish] ∧
      token.kind = .atom ∧ token.text = text ∧ finish.kind = .endOfText) ∧
    ((∃ tokens, tokenize (quote text) = .ok tokens) ↔ '\n' ∉ text) ∧
    ('\n' ∉ text ↔ ∃ kind, (kind = .atom ∨ kind = .quotedString) ∧
      tokenize (quote text) =
        .ok [⟨kind, quote text, ⟨0, (quote text).length⟩⟩, Token.finish (quote text).length]) := by
  have free_of_ok : ∀ {tokens}, tokenize (quote text) = .ok tokens → '\n' ∉ text := by
    intro tokens lexed feed
    obtain ⟨stuck, failed⟩ := exists_stuck_quote feed
    rw [failed] at lexed
    cases lexed
  have alone : '\n' ∉ text → ∃ kind, (kind = .atom ∨ kind = .quotedString) ∧
      tokenize (quote text) =
        .ok [⟨kind, quote text, ⟨0, (quote text).length⟩⟩, Token.finish (quote text).length] := by
    intro free
    obtain ⟨kind, either, form⟩ := exists_isLexeme_quote free
    refine ⟨kind, either, (tokenize_of_isLexeme form).trans ?_⟩
    rcases either with rfl | rfl <;> simp [Token.ofLexeme, Kind.carriesText]
  refine ⟨unquote_quote text, quote_eq_self_iff.trans ⟨fun atom => ?_, ?_⟩,
    ⟨fun ⟨_, lexed⟩ => free_of_ok lexed, fun free => ?_⟩, alone, fun ⟨_, _, lexed⟩ => free_of_ok lexed⟩
  · exact ⟨_, _, tokenize_of_isLexeme (.atom atom), rfl, rfl, rfl⟩
  · rintro ⟨token, finish, lexed, kind, value, -⟩
    exact isAtom_of_tokenize lexed kind value
  · obtain ⟨_, _, lexed⟩ := alone free
    exact ⟨_, lexed⟩

end MailAddress
