import MailAddress.Matching.Trace
import MailAddress.Proofs.Matching.Compositional

/-!
# Tracing adds only the trace

With tracing on, a rule looks at the next token before it does anything else, and the run lists the
rules that were entered and left.  Nothing else changes: a traced run without its trace is the run
without tracing.  The look ahead costs nothing, since every rule starts with one.
-/

namespace MailAddress

/-- Events that are listed whether tracing is on or not. -/
def Event.isNote : Event → Bool
  | .entered _ _ | .left _ _ => false
  | .finalDomain _ | .stopped _ => true

namespace Run

variable {α β : Type}

/-- A run without the rules that were entered and left. -/
def withoutTrace (run : Run α) : Run α := ⟨run.outcome, run.events.filter Event.isNote⟩

theorem withoutTrace_andThen (run : Run α) (next : α → List Token → Run β) :
    (run.andThen next).withoutTrace =
      run.withoutTrace.andThen fun value rest => (next value rest).withoutTrace := by
  obtain ⟨outcome, events⟩ := run
  cases outcome with
  | beyond => rfl
  | failed => rfl
  | matched value rest => simp [andThen, withoutTrace]

end Run

namespace Parser

variable {α β : Type} {parser : Parser α}

/-- Tracing adds nothing but the trace to the runs of this parser. -/
def IgnoresTracing (parser : Parser α) : Prop :=
  ∀ tokens, (parser true tokens).withoutTrace = parser false tokens

theorem IgnoresTracing.bind {onward : α → Parser β} (first : parser.IgnoresTracing)
    (second : ∀ value, (onward value).IgnoresTracing) : (parser >>= onward).IgnoresTracing := by
  intro tokens
  change ((parser true tokens).andThen fun value rest => onward value true rest).withoutTrace =
    (parser false tokens).andThen fun value rest => onward value false rest
  rw [Run.withoutTrace_andThen, first tokens]
  congr 1
  funext value rest
  exact second value rest

theorem IgnoresTracing.attempt (ignores : parser.IgnoresTracing) :
    parser.attempt.IgnoresTracing := by
  intro tokens
  rw [Parser.attempt, Parser.attempt, ← ignores tokens]
  unfold Run.withoutTrace
  cases (parser true tokens).outcome <;> rfl

/-- A rule asks for a token itself, so it may be asked for in advance. -/
theorem IgnoresTracing.traced {rule : Rule} {body : Parser rule.Result} (asks : body.AsksFirst)
    (ignores : body.IgnoresTracing) : (Parser.traced rule body).IgnoresTracing := by
  intro tokens
  cases tokens with
  | nil => exact asks.symm
  | cons token tokens =>
      rw [Parser.traced, Parser.traced, ← ignores (token :: tokens)]
      simp [Run.withoutTrace, Event.isNote]

theorem IgnoresTracing.closed : Compositional IgnoresTracing where
  pure _ _ := rfl
  bind := bind
  attempt := attempt
  fail _ := rfl
  beyond _ := rfl
  stop _ := rfl
  advance tokens := by cases tokens <;> rfl
  peekThen _ ignores tokens := by
    cases tokens with
    | nil => rfl
    | cons token tokens => exact ignores token (token :: tokens)
  skipComments _ := rfl
  skipSeparators _ := rfl
  bounded ignores tokens := ignores tokens.length tokens
  traced := traced

theorem IgnoresTracing.members_address : (Parser.members Parser.address).IgnoresTracing :=
  closed.members (closed.address (closed.addrSpec fun _ _ => rfl))

/-- Every rule ignores tracing. -/
theorem ignoresTracing (rule : Rule) : rule.parser.IgnoresTracing :=
  IgnoresTracing.closed.all (fun _ _ => rfl) rule

theorem IgnoresTracing.addresses : Parser.addresses.IgnoresTracing := ignoresTracing .addresses

/-- A parser that ignores tracing ends in the same way with and without it. -/
theorem IgnoresTracing.outcome_eq (ignores : parser.IgnoresTracing) (tracing : Bool)
    (tokens : List Token) : (parser tracing tokens).outcome = (parser false tokens).outcome := by
  cases tracing with
  | false => rfl
  | true =>
      rw [← ignores tokens]
      rfl

end Parser

/-! ## Where a field stops -/

namespace Trace

theorem stopIndex?_stopped (total : Nat) (events : List Event) (rest : List Token) :
    stopIndex? total (events ++ [Event.stopped rest]) = some (total - rest.length) := by
  have stops : (events ++ [Event.stopped rest]).filterMap Event.stop? =
      events.filterMap Event.stop? ++ [rest] := by
    rw [List.filterMap_append]
    rfl
  rw [stopIndex?, lastStop, stops, List.getLast?_concat, Option.map_some]

theorem stopIndex?_left (total : Nat) (events : List Event) (rule : Rule)
    (outcome : Outcome rule.Result) :
    stopIndex? total (events ++ [.left rule outcome]) = stopIndex? total events := by
  have stops : (events ++ [Event.left rule outcome]).filterMap Event.stop? =
      events.filterMap Event.stop? := by
    rw [List.filterMap_append]
    exact List.append_nil _
  rw [stopIndex?, lastStop, stops, stopIndex?, lastStop]

theorem stopIndex?_filter_isNote (total : Nat) (events : List Event) :
    stopIndex? total (events.filter Event.isNote) = stopIndex? total events := by
  have stops : (events.filter Event.isNote).filterMap Event.stop? = events.filterMap Event.stop? := by
    rw [List.filterMap_filter]
    congr 1
    funext event
    cases event <;> rfl
  rw [stopIndex?, lastStop, stops, stopIndex?, lastStop]

/-- A parser that ignores tracing stops at the same places with and without it. -/
theorem stopIndex?_tracing {α : Type} {parser : Parser α} (ignores : parser.IgnoresTracing)
    (tracing : Bool) (total : Nat) (tokens : List Token) :
    stopIndex? total (parser tracing tokens).events =
      stopIndex? total (parser false tokens).events := by
  cases tracing with
  | false => rfl
  | true =>
      rw [← ignores tokens]
      exact (stopIndex?_filter_isNote total _).symm

end Trace

end MailAddress
