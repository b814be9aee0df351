import MailAddress.Text.Literal
import MailAddress.Token

/-!
# Faults

A field that is no list of addresses has one *fault*: a cause and the span it concerns.  Four
causes are lexical, so no list of tokens exists, and three are grammatical, so the tokens are not
those of a list of addresses.  Each cause has a code and a message.  A *diagnostic* is what a
reader of messages gets of a fault.  It may come from elsewhere too, so its code, message and
offsets are arbitrary.
-/

namespace MailAddress

/-- Why a field is refused. -/
inductive Cause where
  /-- A comment has no closing parenthesis. -/
  | unterminatedComment
  /-- A domain literal has no closing bracket. -/
  | unterminatedDomainLiteral
  /-- A quoted string has no closing quote. -/
  | unterminatedQuotedString
  /-- No lexeme starts with this character. -/
  | unexpectedCharacter (c : Char)
  /-- The field holds nothing but spaces. -/
  | emptyField
  /-- The field does not start with an address. -/
  | noAddress
  /-- Addresses come first, and then something that continues no list. -/
  | unexpectedInput
deriving DecidableEq, Repr

namespace Cause

/-- A lexical cause leaves a field without tokens. -/
def isLexical : Cause → Bool
  | .unterminatedComment | .unterminatedDomainLiteral | .unterminatedQuotedString => true
  | .unexpectedCharacter _ => true
  | .emptyField | .noAddress | .unexpectedInput => false

/-- The code of a cause, one for the lexical and one for the grammatical ones. -/
def code (cause : Cause) : Text :=
  if cause.isLexical then "E100".toList else "E200".toList

/-- The message of a cause. -/
def message : Cause → Text
  | .unterminatedComment => "unterminated comment".toList
  | .unterminatedDomainLiteral => "unterminated domain-literal".toList
  | .unterminatedQuotedString => "unterminated quoted-string".toList
  | .unexpectedCharacter c => "unexpected character ".toList ++ Text.literal [c]
  | .emptyField => "empty address field".toList
  | .noAddress => "no address could be matched".toList
  | .unexpectedInput => "unexpected input after address list".toList

end Cause

/-- A cause and the span of the field it concerns. -/
structure Fault where
  /-- Why the field is refused. -/
  cause : Cause
  /-- The part of the field that is at fault. -/
  span : Span
deriving DecidableEq, Repr

/-- A message about a field. -/
structure Diagnostic where
  /-- The code of its cause. -/
  code : Text
  /-- What is wrong. -/
  message : Text
  /-- The first offset it concerns. -/
  start : Int
  /-- The offset after the last it concerns. -/
  stop : Int
deriving DecidableEq, Repr

namespace Diagnostic

/-- The diagnostic of a fault. -/
def ofFault (fault : Fault) : Diagnostic :=
  ⟨fault.cause.code, fault.cause.message, fault.span.start, fault.span.stop⟩

/-- How serious a diagnostic is.  All are errors. -/
def severity : Text := "error".toList

end Diagnostic

/-- Columns count from one. -/
def columnText (start : Int) : Text := "col ".toList ++ (toString (start + 1)).toList

/-- Where a diagnostic points. -/
def Diagnostic.location (diagnostic : Diagnostic) : Text := columnText diagnostic.start

end MailAddress
