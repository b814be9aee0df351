import MailAddress.Lexeme

/-!
# The tokens of a text

A text is read from left to right: spaces are skipped, each lexeme becomes a token, and the token of
the end comes last.  Where no lexeme can be completed the reading is *stuck*, and there are no
tokens at all.  `Token.scan` reads from any offset of a larger text, and `tokenize` a whole field.

A step takes at least one character, so the length of the text bounds the number of steps.

A *token reader* keeps a place in its text, the tokens read so far and the faults met so far.
Reading again continues from its place.  A reading that succeeds adds its tokens, and one that gets
stuck clears them and adds a fault.
-/

namespace MailAddress

open Character

/-- A reading that cannot go on: why, where the construct starts, and where the reading stands. -/
structure Stuck where
  /-- Why the reading cannot go on. -/
  cause : Cause
  /-- The offset at which the construct starts. -/
  start : Nat
  /-- The offset at which the reading stands. -/
  cursor : Nat
deriving DecidableEq, Repr

/-- The fault of a stuck reading spans what was read of the construct, and at least a character. -/
def Stuck.fault (stuck : Stuck) : Fault :=
  ⟨stuck.cause, ⟨stuck.start, max stuck.cursor (stuck.start + 1)⟩⟩

namespace Token

/-- The tokens of a text that starts at an offset, in at most `bound` steps. -/
def scanWithin : (bound offset : Nat) → Text → Except Stuck (List Token)
  | _, offset, [] => .ok [finish offset]
  | 0, offset, _ => .ok [finish offset]
  | bound + 1, offset, c :: rest =>
      if isSpace c then scanWithin bound (offset + 1) rest
      else match Lexeme.read c rest with
        | .broken cause consumed => .error ⟨cause, offset, offset + consumed.length⟩
        | .found kind lexeme rest =>
            match scanWithin bound (offset + lexeme.length) rest with
            | .error stuck => .error stuck
            | .ok tokens => .ok (ofLexeme kind lexeme offset :: tokens)

/-- The tokens of a text that starts at an offset. -/
def scan (offset : Nat) (text : Text) : Except Stuck (List Token) :=
  scanWithin text.length offset text

end Token

/-- The tokens of a field, the token of the end included. -/
def tokenize (field : Text) : Except Stuck (List Token) := Token.scan 0 field

/-! ## Reading in several goes -/

/-- A place in a text, and what was read on the way there. -/
structure TokenReader where
  /-- The text that is read. -/
  source : Text
  /-- The offset from which the next reading starts.  It may lie beyond the end. -/
  cursor : Nat := 0
  /-- The tokens read since the last fault. -/
  tokens : List Token := []
  /-- The faults met, oldest first. -/
  faults : List Fault := []
deriving DecidableEq, Repr

namespace TokenReader

/-- A reader whose next reading starts elsewhere. -/
def seek (reader : TokenReader) (offset : Nat) : TokenReader := { reader with cursor := offset }

/-- A reading from the cursor to the end, with all tokens the reader then holds, or none if the
reading gets stuck. -/
def read (reader : TokenReader) : TokenReader × Option (List Token) :=
  match Token.scan reader.cursor (reader.source.drop reader.cursor) with
  | .ok tokens =>
      let all := reader.tokens ++ tokens
      ({ reader with tokens := all, cursor := max reader.cursor reader.source.length }, some all)
  | .error stuck =>
      ({ reader with
          tokens := []
          cursor := stuck.cursor
          faults := reader.faults ++ [stuck.fault] }, none)

end TokenReader

example : (tokenize "a@b (c)".toList).map (List.map Token.kind) =
    .ok [.atom, .atSign, .atom, .comment, .endOfText] := by
  rfl

example : tokenize "x \"y".toList = .error ⟨.unterminatedQuotedString, 2, 4⟩ := by
  rfl

end MailAddress
