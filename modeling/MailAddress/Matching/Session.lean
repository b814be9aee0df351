import MailAddress.Matching.Grammar
import MailAddress.Matching.Trace

/-!
# Sessions

A *session* applies rules to one list of tokens, at any index and any number of times.  It remembers
where a field last stopped to be a list of addresses, and how deep the rules are that were entered
and not left.
-/

namespace MailAddress

/-- What a session keeps from one call to the next. -/
structure Session where
  /-- The tokens. -/
  tokens : List Token
  /-- The index of the token at which a field last stopped to be a list of addresses. -/
  stoppedAt : Nat := 0
  /-- The number of rules entered and not yet left. -/
  depth : Nat := 0

/-- How a call ends, in terms of indices. -/
inductive Answer (α : Type) where
  /-- A token after the last one was asked for. -/
  | beyond
  /-- The rule does not match. -/
  | failed
  /-- The rule matches up to an index, with a result. -/
  | matched (index : Nat) (result : α)
deriving Repr, DecidableEq

/-- An outcome in terms of indices, among `total` tokens. -/
def Outcome.answer {α β : Type} (total : Nat) (view : α → β) : Outcome α → Answer β
  | .beyond => .beyond
  | .failed => .failed
  | .matched value rest => .matched (total - rest.length) (view value)

section Answers

variable {α β : Type} {total index : Nat} {view : α → β} {outcome : Outcome α} {result : β}

theorem Outcome.answer_eq_beyond_iff : outcome.answer total view = .beyond ↔ outcome = .beyond := by
  cases outcome <;> simp [answer]

theorem Outcome.answer_eq_failed_iff : outcome.answer total view = .failed ↔ outcome = .failed := by
  cases outcome <;> simp [answer]

theorem Outcome.answer_eq_matched_iff :
    outcome.answer total view = .matched index result ↔
      ∃ value rest, outcome = .matched value rest ∧ index = total - rest.length ∧
        result = view value := by
  cases outcome with
  | beyond => simp [answer]
  | failed => simp [answer]
  | matched value rest =>
      simp only [answer, Answer.matched.injEq, Outcome.matched.injEq]
      constructor
      · rintro ⟨rfl, rfl⟩
        exact ⟨value, rest, ⟨rfl, rfl⟩, rfl, rfl⟩
      · rintro ⟨_, _, ⟨rfl, rfl⟩, rfl, rfl⟩
        exact ⟨rfl, rfl⟩

end Answers

/-- What a call says. -/
structure Reply (α : Type) where
  /-- How the rule went. -/
  answer : Answer α
  /-- The final domains of the address specifications that were matched on the way, in order. -/
  finalDomains : List Text
  /-- The lines of the trace. -/
  trace : List TraceLine

namespace Session

/-- Any parser, applied at an index. -/
def apply {α β : Type} (session : Session) (f : Text → Text) (tracing : Bool) (parser : Parser α)
    (view : α → β) (index : Nat) : Session × Reply β :=
  let total := session.tokens.length
  let run := parser tracing (session.tokens.drop index)
  ({ session with
      stoppedAt := (Trace.stopIndex? total run.events).getD session.stoppedAt
      depth := Trace.depthAfter session.depth run.events },
    { answer := run.outcome.answer total view
      finalDomains := Trace.finalDomains run.events
      trace := if tracing then Trace.lines f total session.depth run.events else [] })

/-- A rule, applied at an index. -/
def call (session : Session) (f : Text → Text) (tracing : Bool) (rule : Rule) (index : Nat) :
    Session × Reply Forms :=
  session.apply f tracing rule.parser (rule.forms f) index

/-- The comments from an index on. -/
def skipComments (session : Session) (f : Text → Text) (tracing : Bool) (index : Nat) :
    Session × Reply Text :=
  session.apply f tracing Parser.skipComments commentText index

end Session

end MailAddress
