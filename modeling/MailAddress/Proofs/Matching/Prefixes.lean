import Mathlib.Order.Bounds.Defs
import MailAddress.Proofs.Matching.Continuations

/-!
# Longest accepted prefixes

Where a field stops to be a list of addresses, its longest prefix ends that is one.  The members of
that prefix are those that were matched before.  If no prefix is a list of addresses, the field
stops at its first token.
-/

namespace MailAddress

open MailAddress.Derivation

/-! ## Prefixes that are lists of addresses -/

variable {tokens body rest : List Token} {finish last next : Token} {list : AddressList} {index : Nat}

/-- The members of a list that ends with a token stand in front of it. -/
theorem Derivation.IsAddressList.members (derived : IsAddressList (body ++ [finish]) list) :
    IsMembers IsAddress [finish] body list := by
  generalize eq : body ++ [finish] = tokens at derived
  cases derived with
  | field members =>
      obtain ⟨rfl, same⟩ := List.append_inj' eq rfl
      rwa [List.singleton_inj.1 same]

/-- Members are matched up to the end of a prefix that is a list of addresses, or further. -/
theorem exists_members_of_prefix (ends : HasEnd (tokens.drop index))
    (derived : IsAddressList (tokens.take index ++ [last]) list) :
    ∃ found rest, (Parser.members Parser.address false tokens).outcome = .matched found rest ∧
      rest.length ≤ tokens.length - index := by
  have meets := Parser.meetsAt_members Parser.address_meets derived.members ends
  rw [Parser.MeetsAt, Parser.PassesAt, List.take_append_drop, List.length_drop] at meets
  rcases meets with matched | ⟨found, rest, matched, -, fewer⟩
  · exact ⟨list, _, matched, by rw [List.length_drop]⟩
  · exact ⟨found, rest, matched, Nat.le_of_lt fewer⟩

/-- What members are matched from spells a list of addresses in front of the end, also with
separators behind. -/
theorem spells_of_members {separators : List Token} (kind : last.kind = .endOfText)
    (all : Separators separators)
    (matched : (Parser.members Parser.address false tokens).outcome = .matched list rest) :
    ∃ read, tokens = read ++ rest ∧ Spells Production.addresses (read ++ separators ++ [last]) := by
  obtain ⟨read, rfl, spells⟩ := Parser.reads_members Parser.reads_address tokens list rest matched
  refine ⟨read, rfl, Spells.append ?_ (Spells.token.2 ⟨last, rfl, kind⟩)⟩
  obtain ⟨front, behind, rfl, front_spells, behind_spells⟩ :=
    Spells.mul.1 (spells.mono (Parser.members_le Production.address))
  rw [List.append_assoc]
  refine front_spells.append (Spells.separators.2 (List.forall_mem_append.2 ⟨?_, all⟩))
  exact Spells.separators.1 behind_spells

/-- Members that are matched are a list of addresses in front of the end. -/
theorem isAddressList_of_members (kind : last.kind = .endOfText)
    (ends : HasEnd rest)
    (matched : (Parser.members Parser.address false tokens).outcome = .matched list rest) :
    ∃ read, tokens = read ++ rest ∧ IsAddressList (read ++ [last]) list := by
  obtain ⟨read, rfl, spells⟩ :=
    spells_of_members kind (fun _ member => absurd member List.not_mem_nil) matched
  rw [List.append_nil] at spells
  obtain ⟨other, derived⟩ := exists_isAddressList spells
  refine ⟨read, rfl, ?_⟩
  have meets := Parser.meetsAt_members Parser.address_meets derived.members ends
  rw [Parser.MeetsAt, Parser.PassesAt, matched] at meets
  rcases meets with exactly | ⟨_, _, exactly, -, fewer⟩
  · injection exactly with values
    rwa [values]
  · injection exactly with _ places
    rw [places] at fewer
    exact absurd fewer (Nat.lt_irrefl _)

/-- The lengths of the prefixes that are lists of addresses in front of the end of the text. -/
def acceptedLengths (last : Token) (tokens : List Token) : Set Nat :=
  {index | 1 ≤ index ∧ index < tokens.length ∧
    ∃ list, IsAddressList (tokens.take index ++ [last]) list}

/-- Without a first member there is no prefix. -/
theorem acceptedLengths_of_failed (only : Token.EndsOnly tokens body finish)
    (failed : (Parser.members Parser.address false tokens).outcome = .failed) :
    acceptedLengths last tokens = ∅ := by
  refine Set.eq_empty_iff_forall_notMem.2 fun index => ?_
  rintro ⟨-, inside, list, derived⟩
  obtain ⟨found, rest, matched, -⟩ := exists_members_of_prefix (only.drop inside).hasEnd derived
  rw [failed] at matched
  cases matched

/-- No prefix that is a list of addresses goes beyond the members that are matched. -/
theorem le_of_mem_acceptedLengths (only : Token.EndsOnly tokens body finish) {read : List Token}
    (eq : tokens = read ++ rest)
    (matched : (Parser.members Parser.address false tokens).outcome = .matched list rest)
    (accepted : index ∈ acceptedLengths last tokens) : index ≤ read.length := by
  obtain ⟨-, inside, other, derived⟩ := accepted
  obtain ⟨found, behind, also_matched, le⟩ :=
    exists_members_of_prefix (only.drop inside).hasEnd derived
  rw [matched] at also_matched
  injection also_matched with _ same
  rw [← same, eq, List.length_append] at le
  rw [eq, List.length_append] at inside
  omega

/-- What stands behind the members that are matched is no separator, since a separator would belong
to a longer prefix. -/
theorem no_separator_behind_members (only : Token.EndsOnly tokens body finish)
    (no_finish : next.kind ≠ .endOfText) (ends : HasEnd (next :: rest))
    (matched : (Parser.members Parser.address false tokens).outcome = .matched list (next :: rest)) :
    ¬ (next.kind = .comment ∨ next.kind = .comma) := by
  intro separator
  obtain ⟨read, eq, spells⟩ :=
    spells_of_members only.kind (List.forall_mem_singleton.2 separator) matched
  obtain ⟨other, derived⟩ := exists_isAddressList spells
  obtain ⟨token, behind, rfl⟩ := (Parser.hasEnd_of_cons no_finish ends).exists_cons
  have longer : (read ++ [next]).length ∈ acceptedLengths finish tokens := by
    rw [List.append_cons] at eq
    refine ⟨by simp, by simp [eq], other, ?_⟩
    rw [eq, List.take_left]
    exact derived
  have le := le_of_mem_acceptedLengths only eq matched longer
  rw [List.length_append, List.length_singleton] at le
  omega

/-- The members that are matched make up the longest prefix. -/
theorem isGreatest_of_members (only : Token.EndsOnly tokens body finish)
    (kind : last.kind = .endOfText)
    (matched : (Parser.members Parser.address false tokens).outcome = .matched list rest) :
    ∃ read, tokens = read ++ rest ∧ HasEnd rest ∧ IsAddressList (read ++ [last]) list ∧
      IsGreatest (acceptedLengths last tokens) read.length := by
  have leaves := Parser.address_advances.members tokens only.hasEnd
  rw [Parser.ProceedsAt, matched] at leaves
  obtain ⟨ends, fewer⟩ := leaves
  obtain ⟨read, rfl, derived⟩ := isAddressList_of_members kind ends matched
  obtain ⟨next, behind, rfl⟩ := ends.exists_cons
  have some : 1 ≤ read.length := by
    simp only [List.length_append, List.length_cons] at fewer
    omega
  refine ⟨read, rfl, ends, derived, ⟨some, by simp, list, ?_⟩, fun index accepted => ?_⟩
  · rw [List.take_left]
    exact derived
  · exact le_of_mem_acceptedLengths only rfl matched accepted

/-! ## Where a field stops -/

/-- The lengths of the prefixes that the rule for a whole field matches in front of the end. -/
def Session.matchedLengths (session : Session) (f : Text → Text) (tracing : Bool) (last : Token) :
    Set Nat :=
  {index | 1 ≤ index ∧ index < session.tokens.length ∧ ∃ position forms,
    (call { session with tokens := session.tokens.take index ++ [last] } f tracing .addresses
      0).2.answer = .matched position forms}

theorem Session.matchedLengths_eq {session : Session} {f : Text → Text} {tracing : Bool}
    (only : Token.EndsOnly session.tokens body finish) (kind : last.kind = .endOfText) :
    session.matchedLengths f tracing last = acceptedLengths last session.tokens := by
  ext index
  refine and_congr_right fun _ => and_congr_right fun inside => ?_
  exact exists_answer_iff (only.take kind inside)

/-- The place where a field stops is the one that the run notes last. -/
theorem Session.stoppedAt_eq {session : Session} {f : Text → Text} {tracing : Bool}
    {events : List Event}
    (run : Parser.addresses false session.tokens = ⟨.failed, events ++ [.stopped rest]⟩) :
    (session.call f tracing .addresses 0).1.stoppedAt = session.tokens.length - rest.length := by
  change (Trace.stopIndex? session.tokens.length
    (Parser.addresses tracing session.tokens).events).getD session.stoppedAt = _
  rw [Trace.stopIndex?_tracing Parser.IgnoresTracing.addresses, run, Trace.stopIndex?_stopped,
    Option.getD_some]

/-- A field that is refused stops at the end of its longest prefix that is accepted, or at its first
token if there is none.  The members of that prefix are those that were matched before. -/
theorem Session.call_addresses_stoppedAt (session : Session) (f : Text → Text) (tracing : Bool)
    (field : Text) (last : Token) (stopped : Nat) (lexed : tokenize field = .ok session.tokens)
    (kind : last.kind = .endOfText)
    (refused : (session.call f tracing .addresses 0).2.answer = .failed)
    (stops : (session.call f tracing .addresses 0).1.stoppedAt = stopped) :
    (IsGreatest (session.matchedLengths f tracing last) stopped ∨
      session.matchedLengths f tracing last = ∅ ∧ stopped = 0) ∧
    (0 < stopped → ∃ next list, session.tokens[stopped]? = some next ∧
      next.kind ∉ [Kind.comma, .comment, .endOfText] ∧
      (Parser.members Parser.address tracing session.tokens).outcome =
        .matched list (session.tokens.drop stopped) ∧
      (Parser.addresses tracing (session.tokens.take stopped ++ [last])).outcome =
        .matched list [last]) := by
  obtain ⟨body, finish, once⟩ := endsOnce_of_tokenize lexed
  have only := once.endsOnly
  rw [matchedLengths_eq only kind, Parser.IgnoresTracing.outcome_eq .members_address tracing,
    Parser.IgnoresTracing.outcome_eq .addresses tracing]
  rcases Parser.address_advances.members.failsOrPassesAt only.hasEnd with failed |
    ⟨list, rest, matched, -, -⟩
  · obtain ⟨events, run⟩ := Parser.exists_run_addresses_of_failed failed
    rw [stoppedAt_eq run, Nat.sub_self] at stops
    exact ⟨.inr ⟨acceptedLengths_of_failed only failed, stops.symm⟩, fun some => by omega⟩
  · obtain ⟨read, eq, rest_ends, derived, greatest⟩ := isGreatest_of_members only kind matched
    obtain ⟨next, behind, rfl⟩ := rest_ends.exists_cons
    obtain ⟨events, run⟩ := Parser.exists_run_addresses_of_matched matched
    have no_finish : next.kind ≠ .endOfText := by
      intro same
      rw [if_pos same] at run
      have found : (Parser.addresses tracing session.tokens).outcome =
          .matched list (next :: behind) := by
        rw [Parser.IgnoresTracing.outcome_eq .addresses, run]
      have answer : (session.call f tracing .addresses 0).2.answer = .matched _ _ :=
        answer_eq_matched_iff.2 ⟨list, _, found, rfl, rfl⟩
      rw [refused] at answer
      cases answer
    rw [if_neg no_finish] at run
    rw [stoppedAt_eq run, eq, List.length_append, Nat.add_sub_cancel] at stops
    subst stops
    refine ⟨.inl greatest, fun _ => ⟨next, list, by simp [eq], ?_, ?_, ?_⟩⟩
    · have no_separator := no_separator_behind_members only no_finish rest_ends matched
      simp only [List.mem_cons, List.not_mem_nil, or_false]
      tauto
    · rw [matched, eq, List.drop_left]
    · rw [eq, List.take_left, Parser.run_addresses derived.members kind]

/-- The tokens of two words with a comma between them and an angle bracket that does not close. -/
def unclosedTokens : List Token :=
  [⟨.atom, ['a'], ⟨0, 1⟩⟩, ⟨.comma, [], ⟨1, 2⟩⟩, ⟨.atom, ['b'], ⟨2, 3⟩⟩, ⟨.lessThan, [], ⟨3, 4⟩⟩,
    ⟨.atom, ['c'], ⟨4, 5⟩⟩, ⟨.endOfText, [], ⟨5, 5⟩⟩]

/-- The field stops at the bracket, although the second word is tried as a name up to the end. -/
theorem Session.call_addresses_stoppedAt_of_unclosed :
    IsGreatest (matchedLengths ⟨unclosedTokens, 0, 0⟩ id true ⟨.endOfText, [], ⟨3, 3⟩⟩) 3 ∧
      ∃ list, (Parser.addresses true (unclosedTokens.take 3 ++ [⟨.endOfText, [], ⟨3, 3⟩⟩])).outcome =
        .matched list [⟨.endOfText, [], ⟨3, 3⟩⟩] := by
  have refused : (call ⟨unclosedTokens, 0, 0⟩ id true .addresses 0).2.answer = .failed := by
    decide +kernel
  have stops : (call ⟨unclosedTokens, 0, 0⟩ id true .addresses 0).1.stoppedAt = 3 := by
    decide +kernel
  obtain ⟨longest, behind⟩ := call_addresses_stoppedAt ⟨unclosedTokens, 0, 0⟩ id true "a,b<c".toList
    ⟨.endOfText, [], ⟨3, 3⟩⟩ 3 rfl rfl refused stops
  obtain ⟨next, list, -, -, -, accepted⟩ := behind (Nat.succ_pos 2)
  refine ⟨longest.resolve_right ?_, list, accepted⟩
  rintro ⟨-, zero⟩
  cases zero

end MailAddress
