import MailAddress.Fault

/-!
# Lexemes

A *lexeme* is the text of one token.  It is one of five things.

* A structural character.
* A run of atom characters, as long as it can be.
* A quoted string: quoted text and pairs between double quotes.
* A domain literal: domain text and pairs between brackets, with spaces inside either bracket.  The
  spaces may be any, the line feed included, which is not domain text.
* A comment: anything between parentheses but an unescaped line feed.  Comments nest, and a pair
  neither opens nor closes one.

The first character of a lexeme decides which it is.  A scan either finds it closed or gets *stuck*
after the characters that could still belong to it.
-/

namespace MailAddress

open Character

/-- What a scan for the end of a lexeme finds. -/
inductive Scan where
  /-- The lexeme ends, and a rest follows. -/
  | closed (lexeme rest : Text)
  /-- Nothing closes the lexeme after these characters. -/
  | stuck (consumed : Text)
deriving DecidableEq, Repr

namespace Scan

/-- A scan of a text that starts with one character more. -/
def push (c : Char) : Scan → Scan
  | .closed lexeme rest => .closed (c :: lexeme) rest
  | .stuck consumed => .stuck (c :: consumed)

/-- What follows the opening parenthesis of a comment that stands in `depth` others. -/
def comment : (depth : Nat) → Text → Scan
  | _, [] => .stuck []
  | depth, '\\' :: c :: rest => push '\\' (push c (comment depth rest))
  | depth, '(' :: rest => push '(' (comment (depth + 1) rest)
  | 0, ')' :: rest => .closed [')'] rest
  | depth + 1, ')' :: rest => push ')' (comment depth rest)
  | _, '\n' :: _ => .stuck []
  | depth, c :: rest => push c (comment depth rest)

/-- What follows the opening quote of a quoted string. -/
def quotedString : Text → Scan
  | [] => .stuck []
  | '\\' :: c :: rest => push '\\' (push c (quotedString rest))
  | '"' :: rest => .closed ['"'] rest
  | c :: rest => if isQuotedText c then push c (quotedString rest) else .stuck []

/-- The spaces at the end of a domain literal, and its closing bracket. -/
def closingBracket : Text → Scan
  | [] => .stuck []
  | ']' :: rest => .closed [']'] rest
  | c :: rest => if isSpace c then push c (closingBracket rest) else .stuck []

/-- The domain text and the pairs of a domain literal, and its end. -/
def domainText : Text → Scan
  | [] => .stuck []
  | '\\' :: c :: rest => push '\\' (push c (domainText rest))
  | c :: rest =>
      if isDomainText c then push c (domainText rest) else closingBracket (c :: rest)

/-- What follows the opening bracket of a domain literal. -/
def domainLiteral : Text → Scan
  | [] => .stuck []
  | c :: rest => if isSpace c then push c (domainLiteral rest) else domainText (c :: rest)

end Scan

/-- What the start of a text holds, if it holds no space. -/
inductive Lexeme where
  /-- A lexeme of some kind, and the rest of the text. -/
  | found (kind : Kind) (lexeme rest : Text)
  /-- No lexeme, found out after some characters. -/
  | broken (cause : Cause) (consumed : Text)
deriving DecidableEq, Repr

namespace Lexeme

/-- A closed scan is a lexeme of the given kind, and a stuck one has the given cause. -/
def ofScan (kind : Kind) (cause : Cause) : Scan → Lexeme
  | .closed lexeme rest => .found kind lexeme rest
  | .stuck consumed => .broken cause consumed

/-- The lexeme at the start of a text, given its first character and the others. -/
def read (c : Char) (rest : Text) : Lexeme :=
  match Kind.ofStructural? c with
  | some kind => .found kind [c] rest
  | none =>
      if c = '(' then
        ofScan .comment .unterminatedComment (.push c (.comment 0 rest))
      else if c = '[' then
        ofScan .domainLiteral .unterminatedDomainLiteral (.push c (.domainLiteral rest))
      else if c = '"' then
        ofScan .quotedString .unterminatedQuotedString (.push c (.quotedString rest))
      else if isAtomChar c then
        .found .atom (c :: rest.takeWhile isAtomChar) (rest.dropWhile isAtomChar)
      else .broken (.unexpectedCharacter c) []

end Lexeme

end MailAddress
