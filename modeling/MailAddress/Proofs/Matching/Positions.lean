import MailAddress.Proofs.Matching.Following
import MailAddress.Proofs.Matching.Sessions

/-!
# Only the tokens from an index on

A rule at an index looks at no token in front of it, and makes nothing else of an index than to look
for a token there.  So it does what it does at the start of the tokens from there on, at indices that
are larger by as much.
-/

namespace MailAddress

variable {α β : Type}

/-! ## Moving along the tokens -/

/-- An answer with its index moved. -/
def Answer.moveBy (offset : Nat) : Answer α → Answer α
  | .beyond => .beyond
  | .failed => .failed
  | .matched index result => .matched (offset + index) result

/-- A visit with all of its indices moved. -/
def Visit.moveBy (offset : Nat) (visit : Visit α) : Visit α :=
  ⟨visit.answer.moveBy offset, visit.finalDomains, visit.stops.map (offset + ·)⟩

section Moving

variable {tokens rest : List Token} {index : Nat}

/-- Where a place lies among all tokens, by where it lies among those from an index on. -/
theorem length_sub_of_suffix (suffix : rest <:+ tokens.drop index) (inside : index ≤ tokens.length) :
    tokens.length - rest.length = index + ((tokens.drop index).length - rest.length) := by
  have fewer := suffix.length_le
  rw [List.length_drop] at fewer ⊢
  omega

theorem Outcome.answer_moveBy {outcome : Outcome α} {view : α → β}
    (ends : ∀ value rest, outcome = .matched value rest → rest <:+ tokens.drop index)
    (inside : index ≤ tokens.length) :
    outcome.answer tokens.length view =
      (outcome.answer (tokens.drop index).length view).moveBy index := by
  cases outcome with
  | beyond => rfl
  | failed => rfl
  | matched value rest =>
      rw [answer, answer, Answer.moveBy, length_sub_of_suffix (ends value rest rfl) inside]

theorem Visit.ofRun_moveBy {run : Run α} (ends : run.EndsIn (tokens.drop index))
    (inside : index ≤ tokens.length) :
    ofRun tokens.length run = (ofRun (tokens.drop index).length run).moveBy index := by
  rw [ofRun, ofRun, moveBy, Outcome.answer_moveBy ends.rest inside, List.map_map]
  congr 1
  exact List.map_congr_left fun rest stops => length_sub_of_suffix (ends.stops rest stops) inside

/-- A walker at an index does what it does at the start of the tokens from there on. -/
theorem Walker.Follows.eq_moveBy {walker : Walker α} {parser : Parser α}
    (follows : walker.Follows parser) (inside : index ≤ tokens.length) :
    walker tokens index = (walker (tokens.drop index) 0).moveBy index := by
  obtain ⟨whole, ends⟩ := follows tokens index inside
  obtain ⟨part, -⟩ := follows (tokens.drop index) 0 (Nat.zero_le _)
  rw [whole, part, List.drop_zero]
  exact Visit.ofRun_moveBy ends inside

end Moving

/-! ## Calls at an index -/

/-- An answer with another view of its result. -/
def Answer.map (view : α → β) : Answer α → Answer β
  | .beyond => .beyond
  | .failed => .failed
  | .matched index result => .matched index (view result)

theorem Answer.map_moveBy (view : α → β) (offset : Nat) (answer : Answer α) :
    (answer.moveBy offset).map view = (answer.map view).moveBy offset := by
  cases answer <;> rfl

theorem Outcome.answer_map (total : Nat) (view : α → β) (outcome : Outcome α) :
    (outcome.answer total id).map view = outcome.answer total view := by
  cases outcome <;> rfl

namespace Session

/-- What a call says is what the rule by index finds: the forms of the result, the final domains, and
where a field stopped. -/
theorem call_eq_visit (session : Session) (f : Text → Text) (tracing : Bool) (rule : Rule)
    (index : Nat) (inside : index ≤ session.tokens.length) :
    (session.call f tracing rule index).2.answer =
        (rule.walker session.tokens index).answer.map (rule.forms f) ∧
      (session.call f tracing rule index).2.finalDomains =
        (rule.walker session.tokens index).finalDomains ∧
      (session.call f tracing rule index).1.stoppedAt =
        (rule.walker session.tokens index).stops.getLast?.getD session.stoppedAt := by
  have ignores := Parser.ignoresTracing rule
  obtain ⟨visit, -⟩ := Walker.follows rule session.tokens index inside
  rw [visit, call_fst]
  refine ⟨?_, ?_, ?_⟩
  · show (rule.parser tracing _).outcome.answer _ _ = _
    rw [ignores.outcome_eq tracing]
    exact (Outcome.answer_map _ _ _).symm
  · cases tracing with
    | false => rfl
    | true =>
        show Trace.finalDomains (rule.parser true _).events = Trace.finalDomains (rule.parser false _).events
        rw [← ignores]
        exact (Trace.finalDomains_filter_isNote _).symm
  · show Option.getD (Option.map _ (List.getLast? _)) _ = Option.getD (List.getLast? (List.map _ _)) _
    rw [List.getLast?_map]

/-- A call at an index, and one at the start of the tokens from there on. -/
structure MovedBy (offset : Nat) (whole part : Session × Reply α) : Prop where
  /-- The call fails if and only if the other does, and matches up to an index that is larger by the
  offset, with the same result. -/
  answer : whole.2.answer = part.2.answer.moveBy offset
  /-- The same final domains are noted. -/
  finalDomains : whole.2.finalDomains = part.2.finalDomains

/-- A whole field that fails stops somewhere. -/
theorem exists_stop_of_failed {tokens : List Token} {index : Nat} (inside : index ≤ tokens.length)
    (failed : (Walker.addresses tokens index).answer = .failed) :
    ∃ stop, (Walker.addresses tokens index).stops.getLast? = some stop := by
  obtain ⟨visit, -⟩ := Walker.Follows.addresses tokens index inside
  have ignores := Parser.ignoresTracing .addresses
  rw [visit] at failed ⊢
  have traced_failed : (Parser.addresses true (tokens.drop index)).outcome = .failed :=
    (ignores.outcome_eq true _).trans (Outcome.answer_eq_failed_iff.1 failed)
  obtain ⟨front, rest, events⟩ := Parser.exists_stopped_of_failed traced_failed
  have stops := Trace.stopIndex?_tracing ignores true tokens.length (tokens.drop index)
  have listed : (Rule.addresses.parser true (tokens.drop index)).events =
      front ++ [.stopped rest] ++ [.left .addresses .failed] := events
  rw [listed, Trace.stopIndex?_left, Trace.stopIndex?_stopped] at stops
  refine ⟨tokens.length - rest.length, ?_⟩
  rw [Visit.ofRun, List.getLast?_map]
  exact stops.symm

/-- A rule sees only the tokens from its index on.  By index, it does what it does at the start of
those tokens, at indices that are larger by as much.  So a call ends in the same way, with the same
result and the same final domains, at an index that is larger by as much, and so is the index at which
a whole field that fails stops. -/
theorem call_movedBy (session : Session) (f : Text → Text) (tracing : Bool) (rule : Rule)
    (index : Fin session.tokens.length) :
    rule.walker session.tokens index =
        (rule.walker (session.tokens.drop index) 0).moveBy index ∧
      MovedBy index (session.call f tracing rule index)
        (call ⟨session.tokens.drop index, 0, 0⟩ f tracing rule 0) ∧
      MovedBy index (session.skipComments f tracing index)
        (skipComments ⟨session.tokens.drop index, 0, 0⟩ f tracing 0) ∧
      ((session.call f tracing .addresses index).2.answer = .failed →
        (session.call f tracing .addresses index).1.stoppedAt =
          index + (call ⟨session.tokens.drop index, 0, 0⟩ f tracing .addresses 0).1.stoppedAt) := by
  have inside : (index : Nat) ≤ session.tokens.length := Nat.le_of_lt index.isLt
  have moved : ∀ rule : Rule, rule.walker session.tokens index =
      (rule.walker (session.tokens.drop index) 0).moveBy index :=
    fun rule => (Walker.follows rule).eq_moveBy inside
  refine ⟨moved rule, ?_, ?_, fun failed => ?_⟩
  · obtain ⟨answer, domains, -⟩ := call_eq_visit session f tracing rule index inside
    obtain ⟨part_answer, part_domains, -⟩ :=
      call_eq_visit ⟨session.tokens.drop index, 0, 0⟩ f tracing rule 0 (Nat.zero_le _)
    constructor
    · rw [answer, part_answer, moved rule]
      exact Answer.map_moveBy _ _ _
    · rw [domains, part_domains, moved rule]
      rfl
  · obtain ⟨-, ends⟩ := Walker.Follows.skipComments session.tokens index inside
    exact ⟨Outcome.answer_moveBy ends.rest inside, rfl⟩
  · obtain ⟨answer, -, stops⟩ := call_eq_visit session f tracing .addresses index inside
    obtain ⟨-, -, part_stops⟩ :=
      call_eq_visit ⟨session.tokens.drop index, 0, 0⟩ f tracing .addresses 0 (Nat.zero_le _)
    rw [answer, moved .addresses] at failed
    have part_failed : (Rule.addresses.walker (session.tokens.drop index) 0).answer = .failed := by
      cases found : (Rule.addresses.walker (session.tokens.drop index) 0).answer with
      | failed => rfl
      | _ =>
          rw [Visit.moveBy, found] at failed
          cases failed
    obtain ⟨stop, last⟩ := exists_stop_of_failed (Nat.zero_le _) part_failed
    rw [stops, part_stops, moved .addresses, Visit.moveBy, List.getLast?_map]
    show Option.getD (Option.map _ (List.getLast? (Walker.addresses _ _).stops)) _ =
      index + Option.getD (List.getLast? (Walker.addresses _ _).stops) _
    rw [last]
    rfl

/-- Behind a first address, a stray bracket is found at the same distance as without it. -/
theorem call_movedBy_of_stray_bracket :
    (call ⟨[⟨.atom, ['a'], ⟨0, 1⟩⟩, ⟨.comma, [], ⟨1, 2⟩⟩, ⟨.atom, ['b'], ⟨2, 3⟩⟩,
        ⟨.greaterThan, [], ⟨3, 4⟩⟩, ⟨.endOfText, [], ⟨4, 4⟩⟩], 0, 0⟩ id true .addresses 2).1.stoppedAt =
      2 + (call ⟨[⟨.atom, ['b'], ⟨2, 3⟩⟩, ⟨.greaterThan, [], ⟨3, 4⟩⟩, ⟨.endOfText, [], ⟨4, 4⟩⟩], 0, 0⟩
        id true .addresses 0).1.stoppedAt := by
  obtain ⟨-, -, -, stopped⟩ := call_movedBy
    ⟨[⟨.atom, ['a'], ⟨0, 1⟩⟩, ⟨.comma, [], ⟨1, 2⟩⟩, ⟨.atom, ['b'], ⟨2, 3⟩⟩,
      ⟨.greaterThan, [], ⟨3, 4⟩⟩, ⟨.endOfText, [], ⟨4, 4⟩⟩], 0, 0⟩ id true .word ⟨2, by decide⟩
  exact stopped (by decide +kernel)

end Session

end MailAddress
