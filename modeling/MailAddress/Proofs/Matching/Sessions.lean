import MailAddress.Proofs.Matching.Abandonment
import MailAddress.Proofs.Matching.Joining
import MailAddress.Proofs.Matching.Traces

/-!
# Tracing does not interfere

A session with tracing goes on like the same session without, call after call.  Its answers are the
same, it notes the same final domains, and it stops a field at the same token.  Every call leaves the
rules that it enters, also one that asks for a token beyond the last.

What tracing adds are the lines of the calls.  Unless a call asks for a token beyond the last, its
lines are bracketed, and they start with the line that begins its rule and end with the one that says
its result.
-/

namespace MailAddress

namespace Parser

variable {α β : Type} {parser : Parser α}

/-! ## Where a field stops, with tracing -/

/-- A parser that notes where a field stops before it fails, and does nothing else in between. -/
def StopsLast (parser : Parser α) : Prop :=
  ∀ tracing tokens, (parser tracing tokens).outcome = .failed →
    ∃ front rest, (parser tracing tokens).events = front ++ [.stopped rest]

theorem StopsLast.stop : (Parser.stop : Parser α).StopsLast := fun _ tokens _ => ⟨[], tokens, rfl⟩

theorem StopsLast.pure (value : α) : (Pure.pure value : Parser α).StopsLast := nofun

theorem StopsLast.bind {onward : α → Parser β} (ignores : parser.IgnoresTracing)
    (never : parser.NeverFails) (second : ∀ value, (onward value).StopsLast) :
    (parser >>= onward).StopsLast := by
  intro tracing tokens
  have first : (parser tracing tokens).outcome ≠ .failed := by
    rw [ignores.outcome_eq tracing]
    exact never tokens
  show ((parser tracing tokens).andThen fun value rest => onward value tracing rest).outcome = .failed →
    ∃ front rest, ((parser tracing tokens).andThen
      fun value rest => onward value tracing rest).events = front ++ [.stopped rest]
  unfold Run.andThen
  cases outcome : (parser tracing tokens).outcome with
  | beyond => nofun
  | failed => exact absurd outcome first
  | matched value rest =>
      intro failed
      obtain ⟨front, last, events⟩ := second value tracing rest failed
      refine ⟨(parser tracing tokens).events ++ front, last, ?_⟩
      show (parser tracing tokens).events ++ (onward value tracing rest).events = _
      rw [events, List.append_assoc]

/-- The rule for a whole field notes where it stops right before it is left. -/
theorem exists_stopped_of_failed {tokens : List Token}
    (failed : (addresses true tokens).outcome = .failed) :
    ∃ front rest, (addresses true tokens).events =
      front ++ [.stopped rest] ++ [.left .addresses .failed] := by
  obtain ⟨body, eq, stops⟩ : ∃ body, addresses = traced .addresses body ∧ body.StopsLast := by
    refine ⟨_, rfl, .bind IgnoresTracing.members_address.attempt .attempt fun found => ?_⟩
    cases found with
    | none => exact .stop
    | some list =>
        refine .bind (IgnoresTracing.closed.nextIs _) (.nextIs _) fun finish => ?_
        cases finish with
        | true => exact .pure list
        | false => exact .stop
  rw [eq] at failed ⊢
  cases tokens with
  | nil => cases failed
  | cons token tokens =>
      have inner : (body true (token :: tokens)).outcome = .failed := failed
      obtain ⟨front, rest, events⟩ := stops true (token :: tokens) inner
      exact ⟨.entered .addresses token :: front, rest, by simp only [traced, inner, events]; rfl⟩

end Parser

namespace Session

/-! ## Calls in turn -/

variable {session : Session} {f : Text → Text} {tracing : Bool} {rule : Rule} {index : Nat}

/-- A session in which rules were applied in turn, each at an index. -/
def after (session : Session) (f : Text → Text) (tracing : Bool) (calls : List (Rule × Nat)) :
    Session :=
  calls.foldl (fun session call => (session.call f tracing call.1 call.2).1) session

/-- A call changes no more than the place where a field stopped, and tracing has no say in it. -/
theorem call_fst (session : Session) (f : Text → Text) (tracing : Bool) (rule : Rule) (index : Nat) :
    (session.call f tracing rule index).1 =
      { session with
        stoppedAt := (Trace.stopIndex? session.tokens.length
          (rule.parser false (session.tokens.drop index)).events).getD session.stoppedAt } := by
  have stops := Trace.stopIndex?_tracing (Parser.ignoresTracing rule) tracing session.tokens.length
    (session.tokens.drop index)
  have keeps := (Parser.nests rule tracing (session.tokens.drop index)).depthAfter session.depth
  rw [← stops]
  show Session.mk session.tokens _ (Trace.depthAfter session.depth _) = _
  rw [keeps]

theorem depth_call (session : Session) (f : Text → Text) (tracing : Bool) (rule : Rule)
    (index : Nat) : (session.call f tracing rule index).1.depth = session.depth := by
  rw [call_fst]

theorem after_tracing (session : Session) (f : Text → Text) (tracing : Bool)
    (calls : List (Rule × Nat)) : session.after f tracing calls = session.after f false calls := by
  induction calls generalizing session with
  | nil => rfl
  | cons call calls ih =>
      show ((session.call f tracing call.1 call.2).1.after f tracing calls) =
        ((session.call f false call.1 call.2).1.after f false calls)
      rw [call_fst, call_fst, ih]

theorem depth_after (session : Session) (f : Text → Text) (tracing : Bool)
    (calls : List (Rule × Nat)) : (session.after f tracing calls).depth = session.depth := by
  induction calls generalizing session with
  | nil => rfl
  | cons call calls ih =>
      show ((session.call f tracing call.1 call.2).1.after f tracing calls).depth = session.depth
      rw [ih, depth_call]

/-! ## The lines of a call -/

/-- What a call with tracing has in common with the same call without, and what it says in its
lines. -/
structure Observes (rule : Rule) (index : Nat) (traced untraced : Session × Reply Forms) : Prop where
  /-- The calls leave the same session behind, with the same place where a field stopped. -/
  session : traced.1 = untraced.1
  /-- The rules that were entered are left. -/
  depth : traced.1.depth = 0
  /-- The rule ends in the same way. -/
  answer : traced.2.answer = untraced.2.answer
  /-- The same final domains are noted. -/
  finalDomains : traced.2.finalDomains = untraced.2.finalDomains
  /-- Without tracing there are no lines. -/
  silent : untraced.2.trace = []
  /-- The lines are bracketed. -/
  bracketed : traced.2.answer ≠ .beyond → Trace.IsBracketed traced.2.trace
  /-- The rule of the call begins first and ends last, with the result that is returned. -/
  outermost : traced.2.answer ≠ .beyond → ∃ token inside,
    traced.1.tokens[index]? = some token ∧
      traced.2.trace = .entry 0 rule token :: (inside ++ [.result 0 rule traced.2.answer.result?]) ∧
      ∀ line ∈ inside, line.isDeeper 0 = true
  /-- A whole field that fails says where it stops, right before it ends. -/
  stopped : rule = .addresses → traced.2.answer = .failed → ∃ front,
    traced.2.trace = front ++ [.stopped traced.1.stoppedAt, .result 0 .addresses none]

/-- The lines of a rule that fails or matches. -/
theorem exists_trace_call (outside : session.depth = 0)
    (ended : (session.call f true rule index).2.answer ≠ .beyond) :
    ∃ token inside, session.tokens[index]? = some token ∧ Trace.Nested 1 inside ∧
      (session.call f true rule index).2.trace =
        .entry 0 rule token ::
          (inside ++ [.result 0 rule (session.call f true rule index).2.answer.result?]) := by
  obtain ⟨body, eq, nests⟩ := Parser.exists_nests rule
  have trace : (session.call f true rule index).2.trace = Trace.lines f session.tokens.length
      session.depth (rule.parser true (session.tokens.drop index)).events := rfl
  have answer : (session.call f true rule index).2.answer =
      (rule.parser true (session.tokens.drop index)).outcome.answer session.tokens.length
        (rule.forms f) := rfl
  rw [answer, ne_eq, Outcome.answer_eq_beyond_iff] at ended
  rw [trace, answer, outside]
  rw [eq] at ended ⊢
  cases tokens : session.tokens.drop index with
  | nil =>
      rw [tokens] at ended
      exact absurd rfl ended
  | cons token rest =>
      rw [tokens] at ended
      obtain ⟨keeps, nested⟩ := nests true (token :: rest)
      have inner : (body true (token :: rest)).outcome ≠ .beyond := ended
      refine ⟨token, _, ?_, nested inner f session.tokens.length 1, ?_⟩
      · rw [← List.head?_drop, tokens, List.head?_cons]
      · exact Trace.lines_rule keeps inner f session.tokens.length 0

/-- A whole field that fails says where it stops, right before it ends. -/
theorem exists_stopped_call (outside : session.depth = 0)
    (failed : (session.call f true .addresses index).2.answer = .failed) :
    ∃ front, (session.call f true .addresses index).2.trace =
      front ++ [.stopped (session.call f true .addresses index).1.stoppedAt,
        .result 0 .addresses none] := by
  have ended : (session.call f true .addresses index).2.answer ≠ .beyond := by simp [failed]
  obtain ⟨token, inside, -, -, lines⟩ := exists_trace_call outside ended
  obtain ⟨front, rest, events⟩ :=
    Parser.exists_stopped_of_failed (Outcome.answer_eq_failed_iff.1 failed)
  have trace : (session.call f true .addresses index).2.trace =
      Trace.lines f session.tokens.length session.depth
        (Parser.addresses true (session.tokens.drop index)).events := rfl
  have stoppedAt : (session.call f true .addresses index).1.stoppedAt =
      (Trace.stopIndex? session.tokens.length
        (Parser.addresses true (session.tokens.drop index)).events).getD session.stoppedAt := rfl
  rw [events, Trace.stopIndex?_left, Trace.stopIndex?_stopped, Option.getD_some] at stoppedAt
  rw [events, Trace.lines_append, Trace.lines_append] at trace
  rw [failed] at lines
  have whole : (session.call f true .addresses index).2.trace =
      .entry 0 .addresses token :: inside ++ [.result 0 .addresses none] := lines
  -- The last line is that of the rule of the call, so its depth is known.
  obtain ⟨-, last⟩ := List.append_inj' (trace.symm.trans whole) rfl
  rw [stoppedAt, trace, last]
  exact ⟨_, List.append_assoc _ _ _⟩

/-- Tracing observes and does not interfere.  After any calls, a call with tracing ends as without,
notes the same final domains, and leaves the same session behind with no rule entered.  Its lines are
bracketed, the outermost rule is that of the call with its result, and a whole field that fails says
where it stops right before it ends. -/
theorem call_observes (tokens : List Token) (f : Text → Text) (calls : List (Rule × Nat))
    (rule : Rule) (index : Nat) :
    Observes rule index ((after ⟨tokens, 0, 0⟩ f true calls).call f true rule index)
      ((after ⟨tokens, 0, 0⟩ f false calls).call f false rule index) := by
  have outside : (after ⟨tokens, 0, 0⟩ f false calls).depth = 0 := depth_after _ f false calls
  rw [after_tracing _ f true]
  generalize after ⟨tokens, 0, 0⟩ f false calls = session at outside
  have ignores := Parser.ignoresTracing rule
  constructor
  · rw [call_fst, call_fst]
  · rw [depth_call, outside]
  · show (rule.parser true _).outcome.answer _ _ = (rule.parser false _).outcome.answer _ _
    rw [ignores.outcome_eq true]
  · show Trace.finalDomains (rule.parser true _).events = Trace.finalDomains (rule.parser false _).events
    rw [← ignores]
    exact (Trace.finalDomains_filter_isNote _).symm
  · rfl
  · intro ended
    obtain ⟨token, inside, -, nested, lines⟩ := exists_trace_call outside ended
    rw [lines]
    exact (Trace.Nested.rule nested).isBracketed
  · intro ended
    obtain ⟨token, inside, next, nested, lines⟩ := exists_trace_call outside ended
    exact ⟨token, inside, next, lines, fun line member => nested.deeper line member 0 Nat.one_pos⟩
  · rintro rfl failed
    exact exists_stopped_call outside failed

/-- A field that stops at its first token is left right after it says so. -/
example : (call ⟨[⟨.greaterThan, [], ⟨0, 1⟩⟩, .finish 1], 0, 0⟩ id true .addresses 0).2.trace.reverse.take
    2 = [.result 0 .addresses none, .stopped 0] := by
  decide +kernel

end Session

end MailAddress
