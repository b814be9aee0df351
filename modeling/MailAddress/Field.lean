import MailAddress.Matching.Session
import MailAddress.Tokenization

/-!
# Fields

A field is *read* by taking its tokens and matching all of them with the rule for a list of
addresses.  The reading has a verdict, which is the list or a fault.

* Without tokens the fault is the lexical one.
* If the tokens are those of spaces only, the field is empty.
* If the first token starts no address, no address could be matched.
* Otherwise the fault lies in the first token after the longest list of addresses.

A canonicalizer has no say in the verdict.  It only enters the written forms.
-/

namespace MailAddress

/-- What the reading of a field gives. -/
structure Reading where
  /-- The addresses, or what is wrong. -/
  verdict : Except Fault AddressList
  /-- The number of tokens, zero if there are none for a lexical fault. -/
  tokenCount : Nat
  /-- What happened while rules were matched. -/
  events : List Event

/-- The fault of tokens that are no list of addresses from an index on. -/
def faultAt (field : Text) (tokens : List Token) (index : Nat) : Fault :=
  let token := tokens.getD index (Token.finish field.length)
  let cause : Cause :=
    if token.kind = .endOfText then .emptyField
    else if index = 0 then .noAddress
    else .unexpectedInput
  ⟨cause, token.span⟩

/-- The reading of a field.  The rule never asks for a token beyond the end of the text, by
`Parser.outcome_ne_beyond`, so a field without addresses is one on which it fails. -/
def readField (tracing : Bool) (field : Text) : Reading :=
  match tokenize field with
  | .error stuck => ⟨.error stuck.fault, 0, []⟩
  | .ok tokens =>
      let run := Parser.addresses tracing tokens
      match run.outcome with
      | .matched list _ => ⟨.ok list, tokens.length, run.events⟩
      | .failed | .beyond =>
          let index := (Trace.stopIndex? tokens.length run.events).getD 0
          ⟨.error (faultAt field tokens index), tokens.length, run.events⟩

namespace Reading

/-- The channel on which faults are logged. -/
def channel : Text := "rfc822addr.address: ".toList

/-- The line that logs a fault of a field. -/
def faultLine (field : Text) (fault : Fault) : Text :=
  if fault.cause.isLexical then
    channel ++ "lexical error in ".toList ++ Text.literal field ++ ": ".toList ++
      fault.cause.message
  else
    channel ++ "grammar error in ".toList ++ Text.literal field ++ ": ".toList ++
      fault.cause.message ++ " at ".toList ++ columnText fault.span.start

/-- The log of a reading that was traced: the trace, and the fault if there is one. -/
def log (f : Text → Text) (field : Text) (reading : Reading) : List Text :=
  (Trace.lines f reading.tokenCount 0 reading.events).map TraceLine.text ++
    match reading.verdict with
    | .ok _ => []
    | .error fault => [faultLine field fault]

end Reading

/-! ## The outcome of a parse -/

/-- The outcome of a parse, with its written forms. -/
inductive Parse where
  /-- The field is a list of addresses with these forms. -/
  | accepted (display canonical : Text)
  /-- The field is refused. -/
  | rejected (fault : Fault)
deriving DecidableEq, Repr

namespace Parse

/-- The outcome of a reading. -/
def ofReading (f : Text → Text) (reading : Reading) : Parse :=
  match reading.verdict with
  | .ok list => .accepted (list.display f) (list.canonical f)
  | .error fault => .rejected fault

/-- Whether the field is a list of addresses. -/
def isAccepted : Parse → Bool
  | .accepted _ _ => true
  | .rejected _ => false

/-- The display form, empty for a refused field. -/
def display : Parse → Text
  | .accepted display _ => display
  | .rejected _ => []

/-- The canonical form, empty for a refused field. -/
def canonical : Parse → Text
  | .accepted _ canonical => canonical
  | .rejected _ => []

/-- What is wrong with the field. -/
def diagnostics : Parse → List Diagnostic
  | .accepted _ _ => []
  | .rejected fault => [.ofFault fault]

/-- The lines of the canonical form, without their ends. -/
def addresses (parse : Parse) : List Text := (parse.canonical.splitOn '\n').dropLast

end Parse

/-- The parse of a field. -/
def parseField (f : Text → Text) (field : Text) : Parse := .ofReading f (readField false field)

/-- The parses of a field, of its display, of the display of that, and so on, at most `times` of
them, up to the first that is refused. -/
def reparse (f : Text → Text) : (times : Nat) → (field : Text) → List Parse
  | 0, _ => []
  | times + 1, field =>
      let parse := parseField f field
      parse :: if parse.isAccepted then reparse f times parse.display else []

/-- A field that was to be a list of addresses. -/
structure Unparseable where
  /-- The field. -/
  field : Text
  /-- What is wrong with it. -/
  diagnostics : List Diagnostic
deriving DecidableEq, Repr

/-- The message about a field that is no list of addresses. -/
def Unparseable.message (error : Unparseable) : Text :=
  "unparseable address field ".toList ++ Text.literal error.field ++ ": ".toList ++
    [';', ' '].intercalate (error.diagnostics.map Diagnostic.message)

/-- The canonical addresses of a field. -/
def canonicalAddresses (f : Text → Text) (field : Text) : Except Unparseable (List Text) :=
  let parse := parseField f field
  if parse.isAccepted then .ok parse.addresses else .error ⟨field, parse.diagnostics⟩

/-! ## Fields of every kind -/

example : parseField id "John Doe <@relay:john@example.com> (work)".toList =
    .accepted "John Doe <john@example.com> (work)".toList "john@example.com\n".toList := by
  decide +kernel

example : parseField id "team: a@b,, c@d@e;".toList =
    .accepted "team: a@b, c@d@e;".toList "a@b\nc@d@e\n".toList := by
  decide +kernel

example : parseField id " \t".toList = .rejected ⟨.emptyField, ⟨2, 2⟩⟩ := by decide +kernel

example : parseField id "a@b, > c".toList = .rejected ⟨.unexpectedInput, ⟨5, 6⟩⟩ := by
  decide +kernel

end MailAddress
