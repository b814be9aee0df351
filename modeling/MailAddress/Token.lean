import MailAddress.Text

/-!
# Tokens

A field is read as a list of *tokens*.  Four kinds carry the text they were read from.  Eight are
a single structural character, which the kind already says, so their text is empty.  The last token
of a field marks the end of the text.  The *span* of a token is where it stands, from its first
offset up to the one after its last.
-/

namespace MailAddress

/-- The kinds of token. -/
inductive Kind where
  /-- A run of atom characters. -/
  | atom
  /-- A text between double quotes. -/
  | quotedString
  /-- A text between square brackets. -/
  | domainLiteral
  /-- A text between parentheses, which may nest. -/
  | comment
  /-- The character `<`. -/
  | lessThan
  /-- The character `>`. -/
  | greaterThan
  /-- The character `@`. -/
  | atSign
  /-- The character `,`. -/
  | comma
  /-- The character `;`. -/
  | semicolon
  /-- The character `:`. -/
  | colon
  /-- A backslash outside all quotes. -/
  | backslash
  /-- The character `.`. -/
  | period
  /-- The end of the text. -/
  | endOfText
deriving DecidableEq, Repr, Inhabited

/-- How a kind is shown where a grammar is spoken of. -/
def Kind.symbol : Kind → Text
  | .atom => "atom".toList
  | .quotedString => "quoted-string".toList
  | .domainLiteral => "domain-literal".toList
  | .comment => "comment".toList
  | .lessThan => ['<']
  | .greaterThan => ['>']
  | .atSign => ['@']
  | .comma => [',']
  | .semicolon => [';']
  | .colon => [':']
  | .backslash => ['\\']
  | .period => ['.']
  | .endOfText => ['$']

/-- The name of a kind in a listing of tokens. -/
def Kind.name : Kind → Text
  | .atom => "ATOM".toList
  | .quotedString => "QUOTED_STRING".toList
  | .domainLiteral => "DOMAIN_LITERAL".toList
  | .comment => "COMMENT".toList
  | .lessThan => "LANGLE".toList
  | .greaterThan => "RANGLE".toList
  | .atSign => "AT".toList
  | .comma => "COMMA".toList
  | .semicolon => "SEMICOLON".toList
  | .colon => "COLON".toList
  | .backslash => "ESCAPE".toList
  | .period => "PERIOD".toList
  | .endOfText => "EOT".toList

/-- Whether the tokens of a kind carry the text they were read from. -/
def Kind.carriesText : Kind → Bool
  | .atom | .quotedString | .domainLiteral | .comment => true
  | _ => false

/-- The kind of a structural character. -/
def Kind.ofStructural? : Char → Option Kind
  | '<' => some .lessThan
  | '>' => some .greaterThan
  | '@' => some .atSign
  | ',' => some .comma
  | ';' => some .semicolon
  | ':' => some .colon
  | '\\' => some .backslash
  | '.' => some .period
  | _ => none

/-- A range of offsets, from `start` up to but not including `stop`. -/
structure Span where
  /-- The first offset. -/
  start : Nat
  /-- The offset after the last. -/
  stop : Nat
deriving DecidableEq, Repr, Inhabited

/-- A token of a field. -/
structure Token where
  /-- Its kind. -/
  kind : Kind
  /-- The text it was read from, empty for a structural character and for the end. -/
  text : Text
  /-- Where it stands. -/
  span : Span
deriving DecidableEq, Repr, Inhabited

namespace Token

/-- The token at the end of a text of the given length. -/
def finish (offset : Nat) : Token := ⟨.endOfText, [], ⟨offset, offset⟩⟩

/-- The token as a message shows it: by its text, or by its kind if it has none. -/
def shown (token : Token) : Text :=
  if token.text.isEmpty then token.kind.symbol else token.text

/-- The line of a token in a listing: the name of its kind, and its text if it has one. -/
def line (token : Token) : Text :=
  if token.text.isEmpty then token.kind.name else token.kind.name ++ ' ' :: token.text

/-- The token read from a lexeme of some kind at some offset. -/
def ofLexeme (kind : Kind) (lexeme : Text) (start : Nat) : Token :=
  ⟨kind, if kind.carriesText then lexeme else [], ⟨start, start + lexeme.length⟩⟩

end Token

/-- A structural character is the symbol of its kind, so its token carries no text. -/
theorem Kind.symbol_of_ofStructural? {c : Char} {kind : Kind} (h : ofStructural? c = some kind) :
    kind.symbol = [c] ∧ kind.carriesText = false := by
  unfold ofStructural? at h
  split at h <;> simp_all <;> subst h <;> exact ⟨rfl, rfl⟩

end MailAddress
