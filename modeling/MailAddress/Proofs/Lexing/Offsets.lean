import MailAddress.Proofs.Lexing.Tokens

/-!
# Texts side by side

The offset at which a text starts has no say in how it is read.  It only moves the spans of the
tokens, or the place where the reading gets stuck.  And a text that has tokens of its own has the
same ones in front of any text that does not go on with an atom.

So the tokens of two texts side by side are those of the first and those of the second, moved by the
length of the first.
-/

namespace MailAddress

open Character

/-! ## Moved by a number of characters -/

/-- A span further behind. -/
def Span.shift (count : Nat) (span : Span) : Span := ⟨span.start + count, span.stop + count⟩

/-- A token further behind. -/
def Token.shift (count : Nat) (token : Token) : Token :=
  { token with span := token.span.shift count }

/-- A reading that gets stuck further behind. -/
def Stuck.shift (count : Nat) (stuck : Stuck) : Stuck :=
  { stuck with start := stuck.start + count, cursor := stuck.cursor + count }

@[simp] theorem Token.shift_kind (count : Nat) (token : Token) :
    (token.shift count).kind = token.kind := rfl

@[simp] theorem Token.shift_text (count : Nat) (token : Token) :
    (token.shift count).text = token.text := rfl

@[simp] theorem Token.shift_span (count : Nat) (token : Token) :
    (token.shift count).span = token.span.shift count := rfl

/-- What is at fault moves with the reading. -/
theorem Stuck.fault_shift (count : Nat) (stuck : Stuck) :
    (stuck.shift count).fault = ⟨stuck.cause, stuck.fault.span.shift count⟩ := by
  simp only [fault, shift, Span.shift, Fault.mk.injEq, Span.mk.injEq, true_and]
  omega

/-- What is read further behind. -/
def shiftRead (count : Nat) : Except Stuck (List Token) → Except Stuck (List Token)
  | .error stuck => .error (stuck.shift count)
  | .ok tokens => .ok (tokens.map (Token.shift count))

namespace Token

variable {offset : Nat} {c : Char} {text rest : Text} {tokens : List Token}

theorem ofLexeme_shift (kind : Kind) (lexeme : Text) (offset count : Nat) :
    (ofLexeme kind lexeme offset).shift count = ofLexeme kind lexeme (offset + count) := by
  simp only [ofLexeme, shift, Span.shift, Token.mk.injEq, Span.mk.injEq, true_and]
  omega

theorem scanWithin_shift (count : Nat) :
    ∀ bound offset text,
      scanWithin bound (offset + count) text = shiftRead count (scanWithin bound offset text)
  | 0, _, [] | _ + 1, _, [] | 0, _, _ :: _ => rfl
  | bound + 1, offset, c :: rest => by
      rw [scanWithin, scanWithin]
      split
      next space => rw [Nat.add_right_comm, scanWithin_shift count bound]
      next =>
        cases Lexeme.read c rest with
        | broken cause consumed =>
            simp only [shiftRead, Stuck.shift, Except.error.injEq, Stuck.mk.injEq, true_and]
            omega
        | found kind lexeme behind =>
            dsimp only
            rw [Nat.add_right_comm, scanWithin_shift count bound]
            cases scanWithin bound (offset + lexeme.length) behind with
            | error stuck => rfl
            | ok tokens => simp [shiftRead, ofLexeme_shift]

/-- The offset at which a text starts only moves what is read. -/
theorem scan_shift (count offset : Nat) (text : Text) :
    scan (offset + count) text = shiftRead count (scan offset text) :=
  scanWithin_shift count text.length offset text

/-! ## A text in front of another -/

/-- The tokens of a text stay the same in front of what does not go on with an atom. -/
theorem Lexes.scan_append (lexes : Lexes offset text tokens) (ends : EndsAtom rest) :
    ∃ body, tokens = body ++ [Token.finish (offset + text.length)] ∧
      scan offset (text ++ rest) = (scan (offset + text.length) rest).map (body ++ ·) := by
  induction lexes with
  | @finish offset =>
      refine ⟨[], rfl, ?_⟩
      rw [List.nil_append, List.length_nil, Nat.add_zero]
      cases scan offset rest <;> rfl
  | @space offset c text tokens space _ ih =>
      obtain ⟨body, rfl, scanned⟩ := ih
      rw [List.length_cons, Nat.add_comm text.length 1, ← Nat.add_assoc]
      exact ⟨body, rfl, by rw [List.cons_append, scan_space space, scanned]⟩
  | @lexeme offset kind lexeme text tokens form before _ ih =>
      obtain ⟨body, rfl, scanned⟩ := ih
      refine ⟨ofLexeme kind lexeme offset :: body, ?_, ?_⟩
      · rw [List.length_append, ← Nat.add_assoc, List.cons_append]
      · rw [List.append_assoc, scan_lexeme form fun atom => (before atom).append ends, scanned,
          List.length_append, ← Nat.add_assoc]
        cases scan (offset + lexeme.length + text.length) rest <;> rfl

/-- The tokens of a text start with a lexeme that starts with its first character that is no
space. -/
theorem Lexes.exists_first (lexes : Lexes offset text tokens)
    (first : text.find? (!isSpace ·) = some c) :
    ∃ kind tail start others, tokens = ofLexeme kind (c :: tail) start :: others ∧
      IsLexeme kind (c :: tail) := by
  induction lexes with
  | finish => cases first
  | space space _ ih =>
      rw [List.find?_cons_of_neg (by simp [space])] at first
      exact ih first
  | @lexeme offset kind lexeme text tokens form _ _ _ =>
      obtain ⟨d, tail, rfl⟩ := List.exists_cons_of_ne_nil form.ne_nil
      rw [List.cons_append, List.find?_cons_of_pos (by simp [form.isSpace_head])] at first
      cases first
      exact ⟨kind, tail, offset, tokens, rfl, form⟩

end Token

/-! ## Fields with a structural character between them -/

/-- The tokens of two fields with a structural character between them. -/
theorem tokenize_around {first second : Text} {tokens : List Token} {c : Char} {kind : Kind}
    (found : Kind.ofStructural? c = some kind) (lexed : tokenize first = .ok tokens) :
    ∃ body, tokens = body ++ [Token.finish first.length] ∧
      tokenize (first ++ c :: second) =
        (shiftRead (first.length + 1) (tokenize second)).map
          (body ++ Token.ofLexeme kind [c] first.length :: ·) := by
  obtain ⟨body, eq, scanned⟩ :=
    (Token.scan_eq_ok_iff.1 lexed).scan_append (endsAtom_structural found second)
  rw [Nat.zero_add] at eq scanned
  refine ⟨body, eq, ?_⟩
  have single : Token.scan first.length (c :: second) =
      (Token.scan (0 + (first.length + 1)) second).map
        (Token.ofLexeme kind [c] first.length :: ·) := by
    rw [Nat.zero_add]
    exact Token.scan_structural found
  rw [tokenize, scanned, single, Token.scan_shift, tokenize]
  cases shiftRead (first.length + 1) (Token.scan 0 second) with
  | error stuck => rfl
  | ok tokens => rfl

/-- The token of a comma. -/
def commaToken (offset : Nat) : Token := Token.ofLexeme .comma [','] offset

/-- The tokens of two fields with a comma between them. -/
theorem tokenize_joined {first second : Text} {tokens : List Token}
    (lexed : tokenize first = .ok tokens) :
    ∃ body, tokens = body ++ [Token.finish first.length] ∧
      tokenize (first ++ ',' :: second) =
        (shiftRead (first.length + 1) (tokenize second)).map
          (body ++ commaToken first.length :: ·) :=
  tokenize_around rfl lexed

end MailAddress
