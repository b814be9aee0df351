import MailAddress.Fault
import MailAddress.Terminal

/-!
# Diagnostics as they are shown

A diagnostic is shown in four lines: its code and message, the column it points to, the field, and
carets under the part of the field it concerns.  There is always a caret, even for an empty or a
reversed span.  The carets of a span that starts before the field start under its first character.

With colours, the code and the carets are red, the message is bold and the margin is blue.
-/

namespace MailAddress

namespace Diagnostic

/-- An escape sequence, if there are colours. -/
def style (color : Bool) (sequence : Text) : Text := if color then sequence else []

/-- A text in a style. -/
def styled (color : Bool) (sequence text : Text) : Text :=
  style color sequence ++ text ++ style color Terminal.reset

/-- The line with the code and the message. -/
def header (color : Bool) (diagnostic : Diagnostic) : Text :=
  styled color Terminal.boldRed (severity ++ '[' :: diagnostic.code ++ [']']) ++
    styled color Terminal.bold (':' :: ' ' :: diagnostic.message)

/-- A line with something in the margin. -/
def margined (color : Bool) (margin text : Text) : Text :=
  ' ' :: ' ' :: styled color Terminal.boldBlue margin ++ ' ' :: text

/-- The number of carets. -/
def caretCount (diagnostic : Diagnostic) : Nat :=
  max 1 (diagnostic.stop - diagnostic.start).toNat

/-- The carets, behind the blanks that bring them into place. -/
def carets (color : Bool) (diagnostic : Diagnostic) : Text :=
  List.replicate diagnostic.start.toNat ' ' ++
    styled color Terminal.boldRed (List.replicate diagnostic.caretCount '^')

/-- The lines of a diagnostic about a field. -/
def lines (color : Bool) (diagnostic : Diagnostic) (field : Text) : List Text :=
  [header color diagnostic, margined color "-->".toList diagnostic.location,
    margined color ['|'] field, margined color ['|'] (carets color diagnostic)]

/-- A diagnostic about a field, as it is shown. -/
def render (color : Bool) (diagnostic : Diagnostic) (field : Text) : Text :=
  ['\n'].intercalate (lines color diagnostic field)

end Diagnostic

example : (Diagnostic.ofFault ⟨.unexpectedInput, ⟨4, 5⟩⟩).render false "a@b >".toList =
    ("error[E200]: unexpected input after address list\n".toList ++
      "  --> col 5\n  | a@b >\n  |     ^".toList) := by
  decide

end MailAddress
