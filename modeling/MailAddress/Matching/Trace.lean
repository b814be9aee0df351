import MailAddress.Matching.Parser
import MailAddress.Text.Literal

/-!
# Traces

A trace shows the events of a run line by line.  A rule that is entered gets a line with the token
that comes next, and a rule that is left gets one with its result.  A rule that is left because a
token beyond the last was asked for gets none.  The lines of a rule are indented by its depth, the
number of rules entered and not yet left.  Where a field stops to be a list of addresses, a line
without indent says at which token.
-/

namespace MailAddress

/-- A line of a trace. -/
inductive TraceLine where
  /-- A rule begins, with this token next. -/
  | entry (depth : Nat) (rule : Rule) (token : Token)
  /-- A rule ends, with the forms of its result if it has one. -/
  | result (depth : Nat) (rule : Rule) (forms : Option Forms)
  /-- A field stops to be a list of addresses at the token of this index. -/
  | stopped (index : Nat)
deriving DecidableEq, Repr

namespace TraceLine

/-- The channel on which the lines of a trace appear. -/
def channel : Text := "rfc822addr.grammar: ".toList

/-- Two blanks for each level. -/
def indent (depth : Nat) : Text := List.replicate (2 * depth) ' '

/-- A line as it is shown. -/
def text : TraceLine → Text
  | .entry depth rule token =>
      channel ++ indent depth ++ rule.name ++ ": ".toList ++ Text.literal token.shown ++
        ": ".toList ++ rule.production
  | .result depth rule none => channel ++ indent depth ++ rule.name ++ ": failed".toList
  | .result depth rule (some forms) =>
      channel ++ indent depth ++ rule.name ++ ": succeeded text=".toList ++
        Text.literal forms.display ++ " comment=".toList ++ Text.literal forms.deferred ++
        " addr=".toList ++ Text.literal forms.canonical
  | .stopped index =>
      channel ++ "addresses: rule ended before end of input at token ".toList ++
        (toString index).toList

end TraceLine

namespace Event

/-- The depth after an event. -/
def depthAfter (depth : Nat) : Event → Nat
  | .entered _ _ => depth + 1
  | .left _ _ => depth - 1
  | .finalDomain _ => depth
  | .stopped _ => depth

/-- The line of an event at some depth, if it has one, among `total` tokens. -/
def line? (f : Text → Text) (total depth : Nat) : Event → Option TraceLine
  | .entered rule token => some (.entry depth rule token)
  | .left rule (.matched value _) => some (.result (depth - 1) rule (some (rule.forms f value)))
  | .left rule .failed => some (.result (depth - 1) rule none)
  | .left _ .beyond => none
  | .finalDomain _ => none
  | .stopped rest => some (.stopped (total - rest.length))

/-- The final domain that an event notes. -/
def finalDomain? : Event → Option Text
  | .finalDomain domain => some domain
  | _ => none

/-- The tokens at which an event says that a field stops to be a list of addresses. -/
def stop? : Event → Option (List Token)
  | .stopped rest => some rest
  | _ => none

end Event

namespace Trace

/-- The depth after some events. -/
def depthAfter (depth : Nat) (events : List Event) : Nat := events.foldl Event.depthAfter depth

/-- The lines of some events, the first of them at a given depth, among `total` tokens. -/
def lines (f : Text → Text) (total : Nat) : (depth : Nat) → List Event → List TraceLine
  | _, [] => []
  | depth, event :: events =>
      (event.line? f total depth).toList ++ lines f total (event.depthAfter depth) events

/-- The final domains of the address specifications that were matched, in order. -/
def finalDomains (events : List Event) : List Text := events.filterMap Event.finalDomain?

/-- The tokens at which a field last stopped to be a list of addresses. -/
def lastStop (events : List Event) : Option (List Token) := (events.filterMap Event.stop?).getLast?

/-- The index of the token at which a field last stopped to be a list of addresses, among `total`
tokens. -/
def stopIndex? (total : Nat) (events : List Event) : Option Nat :=
  (lastStop events).map fun rest => total - rest.length

end Trace

end MailAddress
