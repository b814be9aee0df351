import MailAddress.Proofs.Matching.Brackets
import MailAddress.Proofs.Matching.Fields
import MailAddress.Proofs.Matching.Joining

/-!
# Lists in front of other tokens

If some tokens are a list of addresses in front of the end of the text, then in front of other
tokens the same members are matched, or what is matched goes on into those tokens.  A rule *meets* a
place if it does one of the two.

A member goes on behind its tokens where a period or an at sign follows, or where its words turn out
to be a name.  Then the colon or the less-than sign behind the name stands among the other tokens.
-/

namespace MailAddress

open MailAddress.Derivation

namespace Parser

variable {α β : Type} {parser : Parser α} {onward : α → Parser β} {limit : Nat}
variable {tokens rest ahead here there comments : List Token} {next finish : Token}

/-! ## Places that are met -/

/-- The parser matches at these tokens and leaves fewer than so many. -/
def PassesAt (parser : Parser α) (limit : Nat) (tokens : List Token) : Prop :=
  ∃ value rest, (parser false tokens).outcome = .matched value rest ∧ HasEnd rest ∧
    rest.length < limit

/-- The parser matches a value up to a place, or it matches and leaves fewer tokens than so many. -/
def MeetsAt (parser : Parser α) (value : α) (here : List Token) (limit : Nat)
    (tokens : List Token) : Prop :=
  (parser false tokens).outcome = .matched value here ∨ parser.PassesAt limit tokens

/-- The parser fails at these tokens, or it matches and leaves fewer than so many. -/
def FailsOrPassesAt (parser : Parser α) (limit : Nat) (tokens : List Token) : Prop :=
  (parser false tokens).outcome = .failed ∨ parser.PassesAt limit tokens

theorem PassesAt.mono {other : Nat} (passes : parser.PassesAt limit tokens) (le : limit ≤ other) :
    parser.PassesAt other tokens := by
  obtain ⟨value, rest, matched, ends, fewer⟩ := passes
  exact ⟨value, rest, matched, ends, Nat.lt_of_lt_of_le fewer le⟩

theorem PassesAt.bind (first : parser.PassesAt limit tokens)
    (second : ∀ value rest, HasEnd rest → rest.length < limit → (onward value).PassesAt limit rest) :
    (parser >>= onward).PassesAt limit tokens := by
  obtain ⟨value, rest, matched, ends, fewer⟩ := first
  obtain ⟨result, behind, onward_matched, behind_ends, less⟩ := second value rest ends fewer
  refine ⟨result, behind, ?_, behind_ends, less⟩
  rw [run_bind, Run.outcome_andThen, matched]
  exact onward_matched

theorem MeetsAt.bind {value : α} {result : β} (first : parser.MeetsAt value here limit tokens)
    (exactly : (onward value).MeetsAt result there limit here)
    (passes : ∀ value rest, HasEnd rest → rest.length < limit →
      (onward value).PassesAt limit rest) :
    (parser >>= onward).MeetsAt result there limit tokens := by
  rcases first with matched | passed
  · have same : ((parser >>= onward) false tokens).outcome = (onward value false here).outcome := by
      rw [run_bind, Run.outcome_andThen, matched]
    rcases exactly with found | ⟨result, rest, found, more⟩
    · exact .inl (same.trans found)
    · exact .inr ⟨result, rest, same.trans found, more⟩
  · exact .inr (passed.bind passes)

theorem PassesAt.pure (value : α) (ends : HasEnd tokens) (fewer : tokens.length < limit) :
    (Pure.pure value : Parser α).PassesAt limit tokens :=
  ⟨value, tokens, rfl, ends, fewer⟩

theorem PassesAt.map {result : α → β} (first : parser.PassesAt limit tokens) :
    (parser >>= fun value => Pure.pure (result value)).PassesAt limit tokens :=
  first.bind fun _ _ ends fewer => .pure _ ends fewer

theorem MeetsAt.map {value : α} {result : α → β} (first : parser.MeetsAt value here limit tokens) :
    (parser >>= fun value => Pure.pure (result value)).MeetsAt (result value) here limit tokens :=
  first.bind (.inl rfl) fun _ _ ends fewer => .pure _ ends fewer

theorem NeverFails.passesAt (never : parser.NeverFails)
    (proceeds : parser.ProceedsAt tokens.length tokens) (fewer : tokens.length < limit) :
    parser.PassesAt limit tokens := by
  rw [ProceedsAt] at proceeds
  cases outcome : (parser false tokens).outcome with
  | beyond =>
      rw [outcome] at proceeds
      exact proceeds.elim
  | failed => exact absurd outcome (never tokens)
  | matched value rest =>
      rw [outcome] at proceeds
      exact ⟨value, rest, outcome, proceeds.1, Nat.lt_of_le_of_lt proceeds.2 fewer⟩

/-! ## Sequences -/

section Sequences

variable {separator : Kind} {item : Parser (Commented α)} {Item : List Token → α → Prop}
variable {bound : Nat}

theorem neverFails_followersWithin : (followersWithin separator item bound).NeverFails := by
  induction bound with
  | zero => exact fun _ failed => by cases failed
  | succ bound ih =>
      refine .bind .skipComments fun before => .bind (.nextIs separator) fun same => ?_
      cases same with
      | false => exact .pure _
      | true =>
          refine .bind .attempt fun found => ?_
          cases found with
          | none => exact .pure _
          | some found => exact ih.bind fun others => .pure _

theorem passesAt_followersWithin (other : separator ≠ .endOfText) (advances : item.Advances)
    (ends : HasEnd tokens) (enough : tokens.length ≤ bound) (fewer : tokens.length < limit) :
    (followersWithin separator item bound).PassesAt limit tokens :=
  neverFails_followersWithin.passesAt (followersWithin_proceeds other advances bound tokens ends enough)
    fewer

/-- An item behind comments and a separator is taken, and the sequence goes on behind it. -/
theorem outcome_followersWithin_of_matched (all : Comments comments)
    (no_comment : next.kind ≠ .comment) (same : next.kind = separator) {found : Commented α}
    (matched : (item false tokens).outcome = .matched found rest) :
    (followersWithin separator item (bound + 1) false (comments ++ next :: tokens)).outcome =
      ((do
        let others ← followersWithin separator item bound
        return ⟨found.body :: others.body, commentsOf comments ++ found.comments ++ others.comments⟩ :
          Parser (Commented (List α))) false rest).outcome := by
  have skip : skipComments false (comments ++ next :: tokens) =
      ⟨.matched (commentsOf comments) (next :: tokens), []⟩ :=
    run_skipComments false all no_comment
  simp [followersWithin, skip, same, Run.outcome_andThen, outcome_attempt, matched]

/-- Behind the last comment a sequence ends, or takes an item of what follows. -/
theorem meetsAt_followersWithin_next (other : separator ≠ .endOfText) (advances : item.Advances)
    (all : Comments comments) (no_comment : next.kind ≠ .comment) (ends : HasEnd (next :: rest))
    (enough : (comments ++ next :: rest).length ≤ bound) :
    (followersWithin separator item bound).MeetsAt ⟨[], commentsOf comments⟩ (next :: rest)
      (next :: rest).length (comments ++ next :: rest) := by
  obtain ⟨bound, rfl⟩ := HasEnd.exists_bound (ends.append comments) enough
  have skip : skipComments false (comments ++ next :: rest) =
      ⟨.matched (commentsOf comments) (next :: rest), []⟩ :=
    run_skipComments false all no_comment
  by_cases same : next.kind = separator
  · have tried := advances rest (hasEnd_of_cons (same ▸ other) ends)
    rw [ProceedsAt] at tried
    cases outcome : (item false rest).outcome with
    | beyond =>
        rw [outcome] at tried
        exact tried.elim
    | failed =>
        left
        simp [followersWithin, skip, same, Run.outcome_andThen, outcome_attempt, outcome]
    | matched found behind =>
        rw [outcome] at tried
        obtain ⟨found_ends, fewer⟩ := tried
        simp only [List.length_append, List.length_cons] at enough
        have others : (followersWithin separator item bound).PassesAt (next :: rest).length behind :=
          passesAt_followersWithin other advances found_ends (by omega)
            (by rw [List.length_cons]; omega)
        rw [MeetsAt, PassesAt, outcome_followersWithin_of_matched all no_comment same outcome]
        exact .inr others.map
  · left
    simp [followersWithin, skip, same]

/-- Where only comments of a sequence are left, it ends or takes tokens of what follows. -/
theorem meetsAt_followersWithin_stop (other : separator ≠ .endOfText) (advances : item.Advances)
    (all : Comments comments) (ends : HasEnd ahead) (enough : (comments ++ ahead).length ≤ bound) :
    (followersWithin separator item bound).MeetsAt ⟨[], commentsOf comments⟩ ahead ahead.length
      (comments ++ ahead) := by
  obtain ⟨kind, lead⟩ := ends.exists_lead
  obtain ⟨more, next, rest, rfl, more_comments, rfl, no_comment⟩ := exists_of_leadKind lead
  have next_ends := more_comments.separators.hasEnd ends
  rw [← List.append_assoc] at enough ⊢
  have meets := meetsAt_followersWithin_next other advances (all.append more_comments) no_comment
    next_ends enough
  cases more with
  | nil => simpa using meets
  | cons comment more =>
      right
      rcases meets with matched | passed
      · exact ⟨_, _, matched, next_ends, by simp only [List.length_append, List.length_cons]; omega⟩
      · exact passed.mono (by simp only [List.length_append, List.length_cons]; omega)

theorem passesAt_followers (other : separator ≠ .endOfText) (advances : item.Advances)
    (ends : HasEnd tokens) (fewer : tokens.length < limit) :
    (followers separator item).PassesAt limit tokens :=
  passesAt_followersWithin other advances ends (Nat.le_refl _) fewer

/-- Where an item is derived, it is taken, and the sequence meets what it meets behind it. -/
theorem meetsAt_followersWithin_cons (other : separator ≠ .endOfText) (advances : item.Advances)
    (all : Comments comments) (no_comment : next.kind ≠ .comment) (same : next.kind = separator)
    {found : Commented α} {others : Commented (List α)} (enough : limit ≤ bound)
    (first : item.MeetsAt found there limit tokens)
    (loop : (followersWithin separator item bound).MeetsAt others here limit there) :
    (followersWithin separator item (bound + 1)).MeetsAt
      ⟨found.body :: others.body, commentsOf comments ++ found.comments ++ others.comments⟩ here limit
      (comments ++ next :: tokens) := by
  rcases first with matched | ⟨value, rest, matched, ends, fewer⟩
  · rw [MeetsAt, PassesAt, outcome_followersWithin_of_matched all no_comment same matched]
    exact loop.map
  · rw [MeetsAt, PassesAt, outcome_followersWithin_of_matched all no_comment same matched]
    exact .inr (passesAt_followersWithin other advances ends (by omega) fewer).map

theorem meetsAt_followersWithin (matches_item : MatchesItem item Item) (advances : item.Advances)
    {tail : List Token} {values : List α} (derived : IsTail Item tail values) (ends : HasEnd ahead)
    (enough : (tail ++ ahead).length ≤ bound) :
    (followersWithin .period item bound).MeetsAt ⟨values, commentsOf tail⟩ ahead ahead.length
      (tail ++ ahead) := by
  induction derived generalizing bound with
  | stop all => exact meetsAt_followersWithin_stop (by decide) advances all ends enough
  | @next comments tokens tail period value values all kind derived _ ih =>
      obtain ⟨bound, rfl⟩ := HasEnd.exists_bound (ends.append _) enough
      simp only [List.length_append, List.length_cons] at enough
      have no_comment : period.kind ≠ .comment := by simp [kind]
      have first : item.MeetsAt ⟨value, commentsOf tokens⟩ (tail ++ ahead) ahead.length
          (tokens ++ (tail ++ ahead)) :=
        .inl (congrArg Run.outcome (matches_item tokens value _ derived))
      have loop : (followersWithin .period item bound).MeetsAt ⟨values, commentsOf tail⟩ ahead
          ahead.length (tail ++ ahead) :=
        ih (by rw [List.length_append]; omega)
      have step := meetsAt_followersWithin_cons (by decide) advances all no_comment kind (by omega)
        first loop
      simpa [commentsOf_cons_of_ne no_comment] using step

/-- A series ends where it is derived to end, or takes tokens of what follows. -/
theorem meetsAt_separated (matches_item : MatchesItem item Item) (advances : item.Advances)
    {series : List Token} {values : List α} (derived : IsSeries Item series values)
    (ends : HasEnd ahead) :
    (separated .period item).MeetsAt ⟨values, commentsOf series⟩ ahead ahead.length
      (series ++ ahead) := by
  cases derived with
  | @items tokens tail value values derived others =>
      rw [List.append_assoc, commentsOf_append]
      have first : item.MeetsAt ⟨value, commentsOf tokens⟩ (tail ++ ahead) ahead.length
          (tokens ++ (tail ++ ahead)) :=
        .inl (congrArg Run.outcome (matches_item tokens value _ derived))
      have loop : (followers .period item).MeetsAt ⟨values, commentsOf tail⟩ ahead ahead.length
          (tail ++ ahead) :=
        meetsAt_followersWithin matches_item advances others ends (Nat.le_refl _)
      exact first.bind loop.map fun _ _ ends fewer =>
        (passesAt_followers (by decide) advances ends fewer).map

/-- In front of domains a series ends, and without any it meets what follows. -/
theorem meetsAt_separated_hops (matches_item : MatchesItem item Item) (advances : item.Advances)
    {series hops : List Token} {values : List α} {domains : List Domain}
    (derived : IsSeries Item series values) (behind : IsHops hops domains) (ends : HasEnd ahead) :
    (separated .period item).MeetsAt ⟨values, commentsOf series⟩ (hops ++ ahead) ahead.length
      (series ++ (hops ++ ahead)) := by
  cases behind with
  | nil => exact meetsAt_separated matches_item advances derived ends
  | @cons labels hops sign _ _ kind =>
      have no_comment : sign.kind ≠ .comment := by simp [kind]
      have no_period : sign.kind ≠ .period := by simp [kind]
      exact .inl (congrArg Run.outcome (run_separated matches_item derived no_comment no_period))

end Sequences

/-! ## Address specifications -/

theorem meetsAt_hops {hops : List Token} {domains : List Domain} {bound : Nat}
    (derived : IsHops hops domains) (ends : HasEnd ahead) (enough : (hops ++ ahead).length ≤ bound) :
    (followersWithin .atSign domain bound).MeetsAt ⟨domains, commentsOf hops⟩ ahead ahead.length
      (hops ++ ahead) := by
  induction derived generalizing bound with
  | nil =>
      exact meetsAt_followersWithin_stop (by decide) domain_advances Comments.nil ends enough
  | @cons labels hops sign value domains kind series others ih =>
      obtain ⟨bound, rfl⟩ := HasEnd.exists_bound (ends.append _) enough
      simp only [List.length_append, List.length_cons] at enough
      have no_comment : sign.kind ≠ .comment := by simp [kind]
      have first : domain.MeetsAt ⟨value, commentsOf labels⟩ (hops ++ ahead) ahead.length
          (labels ++ (hops ++ ahead)) :=
        meetsAt_separated_hops (fun _ _ _ => run_subDomain) subDomain_advances series others ends
      have loop : (followersWithin .atSign domain bound).MeetsAt ⟨domains, commentsOf hops⟩ ahead
          ahead.length (hops ++ ahead) :=
        ih (by rw [List.length_append]; omega)
      have step := meetsAt_followersWithin_cons (by decide) domain_advances Comments.nil no_comment
        kind (by omega) first loop
      simpa [commentsOf_cons_of_ne no_comment] using step

/-- An address specification ends where it is derived to end, or takes tokens of what follows. -/
theorem meetsAt_addrSpec {spec : AddrSpec} (derived : IsAddrSpec tokens spec) (ends : HasEnd ahead) :
    addrSpec.MeetsAt ⟨spec, commentsOf tokens⟩ ahead ahead.length (tokens ++ ahead) := by
  cases derived with
  | @parts words hops words_value domains series derived =>
      rw [List.append_assoc, commentsOf_append]
      have first : localPart.MeetsAt ⟨words_value, commentsOf words⟩ (hops ++ ahead) ahead.length
          (words ++ (hops ++ ahead)) :=
        meetsAt_separated_hops (fun _ _ _ => run_word) word_advances series derived ends
      have loop : (followers .atSign domain).MeetsAt ⟨domains, commentsOf hops⟩ ahead ahead.length
          (hops ++ ahead) :=
        meetsAt_hops derived ends (Nat.le_refl _)
      refine first.bind (loop.bind (.inl rfl) ?_) ?_
      · intro found rest ends fewer
        exact ⟨_, rest, rfl, ends, fewer⟩
      · intro found rest ends fewer
        refine (passesAt_followers (by decide) domain_advances ends fewer).bind ?_
        intro others rest ends fewer
        exact ⟨_, rest, rfl, ends, fewer⟩

/-! ## Alternatives that are tried first -/

/-- What a rule reads up to some token and beyond ends in front of other tokens, or leaves fewer
than those. -/
theorem exists_front_or_shorter {front before behind : List Token}
    (eq : front ++ ahead = before ++ next :: (behind ++ rest)) :
    (∃ middle, front = before ++ next :: middle) ∨ rest.length < ahead.length := by
  rcases List.append_eq_append_iff.1 eq with ⟨middle, rfl, rfl⟩ | ⟨_ | ⟨token, middle⟩, rfl, same⟩
  · refine .inr ?_
    simp only [List.length_append, List.length_cons]
    omega
  · obtain rfl : next :: (behind ++ rest) = ahead := same
    refine .inr ?_
    simp only [List.length_append, List.length_cons]
    omega
  · obtain ⟨rfl, -⟩ := List.cons.inj same
    exact .inl ⟨middle, rfl⟩

/-- A rule that is tried fails, or it matches and takes a token at least. -/
theorem Advances.failsOrPassesAt (advances : parser.Advances) (ends : HasEnd tokens) :
    parser.FailsOrPassesAt tokens.length tokens := by
  obtain ⟨token, others, rfl⟩ := ends.exists_cons
  have proceeds := advances (token :: others) ends
  rw [ProceedsAt] at proceeds
  cases outcome : (parser false (token :: others)).outcome with
  | beyond =>
      rw [outcome] at proceeds
      exact proceeds.elim
  | failed => exact .inl outcome
  | matched value rest =>
      rw [outcome] at proceeds
      exact .inr ⟨value, rest, outcome, proceeds.1, Nat.lt_succ_of_le proceeds.2⟩

/-- Words that are no name make a group only with a colon further behind. -/
theorem group_failsOrPassesAt {front : List Token} (ends : HasEnd ahead)
    (no_name : ¬ NameAhead (front ++ [finish])) :
    group.FailsOrPassesAt ahead.length (front ++ ahead) := by
  refine (group_advances.failsOrPassesAt (ends.append front)).imp id ?_
  rintro ⟨value, rest, matched, rest_ends, -⟩
  obtain ⟨read, eq, spells⟩ := reads_group (front ++ ahead) value rest matched
  obtain ⟨_, derived⟩ := exists_isGroup spells rest
  obtain ⟨name, word, words, colon, body, semicolon, rfl, name_derived, kind, -⟩ :=
    derived.exists_body
  rw [List.append_assoc, List.cons_append] at eq
  rcases exists_front_or_shorter eq with ⟨middle, rfl⟩ | fewer
  · refine absurd ⟨name, colon :: (middle ++ [finish]), word, words, ?_, name_derived, .inl ?_⟩ no_name
    · simp
    · rw [headKind_cons, kind]
  · exact ⟨value, rest, matched, rest_ends, fewer⟩

/-- Words that are no name have an angle bracket only further behind. -/
theorem routeSpec_failsOrPassesAt {front : List Token} {kind : Kind} (ends : HasEnd ahead)
    (lead : leadKind front = some kind) (no_angle : kind ≠ .lessThan)
    (no_name : ¬ NameAhead (front ++ [finish])) :
    routeSpec.FailsOrPassesAt ahead.length (front ++ ahead) := by
  refine (routeSpec_advances.failsOrPassesAt (ends.append front)).imp id ?_
  rintro ⟨value, rest, matched, rest_ends, -⟩
  obtain ⟨read, eq, spells⟩ := reads_routeSpec (front ++ ahead) value rest matched
  obtain ⟨name, target, rfl, name_spells, target_spells⟩ := Spells.mul.1 spells
  obtain ⟨_, derived⟩ := exists_isRouteAddr target_spells
  obtain ⟨before, less, inside, greater, rfl, all, less_kind, -, -⟩ := derived.exists_brackets
  have layout : name ++ (before ++ less :: (inside ++ [greater])) ++ rest =
      (name ++ before) ++ less :: (inside ++ [greater] ++ rest) := by simp
  rw [layout] at eq
  rcases exists_front_or_shorter eq with ⟨middle, rfl⟩ | fewer
  · have less_other : less.kind ≠ .comment := by simp [less_kind]
    have less_leads : ∀ more, leadKind (before ++ less :: more) = some .lessThan := fun more => by
      rw [all.leadKind_append, leadKind_cons_of_ne less_other, less_kind]
    rcases Spells.add.1 name_spells with none_spells | name_spells
    · rw [Spells.one.1 none_spells, List.nil_append, less_leads] at lead
      exact absurd (Option.some.inj lead).symm no_angle
    · obtain ⟨word, words, name_derived⟩ := exists_isWords name_spells
      refine absurd ⟨name, before ++ less :: (middle ++ [finish]), word, words, ?_, name_derived,
        .inr (less_leads _)⟩ no_name
      simp
  · exact ⟨value, rest, matched, rest_ends, fewer⟩

/-! ## Members -/

theorem outcome_orElse (first second : Parser α) (tokens : List Token) :
    (first.orElse second false tokens).outcome =
      match (first false tokens).outcome with
      | .beyond => .beyond
      | .failed => (second false tokens).outcome
      | .matched value rest => .matched value rest := by
  rw [orElse, run_bind, Run.outcome_andThen, outcome_attempt]
  cases (first false tokens).outcome <;> rfl

theorem MeetsAt.orElse_of_first {first second : Parser α} {value : α}
    (meets : first.MeetsAt value here limit tokens) :
    (first.orElse second).MeetsAt value here limit tokens := by
  rcases meets with matched | ⟨found, rest, matched, more⟩
  · exact .inl (by rw [outcome_orElse, matched])
  · exact .inr ⟨found, rest, by rw [outcome_orElse, matched], more⟩

/-- An alternative that fails or passes leaves it to the next one. -/
theorem MeetsAt.orElse {first second : Parser α} {value : α}
    (tried : first.FailsOrPassesAt limit tokens)
    (meets : second.MeetsAt value here limit tokens) :
    (first.orElse second).MeetsAt value here limit tokens := by
  rcases tried with failed | passes
  · rw [MeetsAt, PassesAt, outcome_orElse, failed]
    exact meets
  · exact .orElse_of_first (.inr passes)

theorem FailsOrPassesAt.map {result : α → β} (tried : parser.FailsOrPassesAt limit tokens) :
    (parser >>= fun value => Pure.pure (result value)).FailsOrPassesAt limit tokens := by
  rcases tried with failed | passes
  · refine .inl ?_
    rw [run_bind, Run.outcome_andThen, failed]
  · exact .inr passes.map

variable {behind : List Token}

/-- An address specification ends in front of what follows it in a list.  Behind the last one it may
take tokens from what stands there. -/
theorem meetsAt_addrSpec_behind {spec : AddrSpec} (derived : IsAddrSpec tokens spec)
    (no_comment : headKind (behind ++ [finish]) ≠ some .comment) (ends : HasEnd ahead)
    (follows : behind = [] ∨ MayFollow (behind ++ ahead)) :
    addrSpec.MeetsAt ⟨spec, commentsOf tokens⟩ (behind ++ ahead) ahead.length
      (tokens ++ (behind ++ ahead)) := by
  cases behind with
  | nil => exact meetsAt_addrSpec derived ends
  | cons token behind =>
      have may := follows.resolve_left (List.cons_ne_nil _ _)
      have other : token.kind ≠ .comment := fun same => no_comment (congrArg some same)
      have no_period : token.kind ≠ .period := fun same => may.no_period (congrArg some same)
      have no_sign : token.kind ≠ .atSign := fun same => may.no_sign (congrArg some same)
      exact .inl (congrArg Run.outcome (run_addrSpec derived other no_period no_sign))

theorem meetsAt_mailbox {value : Mailbox} (derived : IsMailbox tokens (behind ++ [finish]) value)
    (ends : HasEnd ahead) (follows : behind = [] ∨ MayFollow (behind ++ ahead)) :
    mailbox.MeetsAt value (behind ++ ahead) ahead.length (tokens ++ (behind ++ ahead)) := by
  cases derived with
  | plain spec no_comment no_name =>
      have meets : (do return .plain (← addrSpec) : Parser Mailbox).MeetsAt
          (.plain ⟨_, commentsOf tokens⟩) (behind ++ ahead) ahead.length
          (tokens ++ (behind ++ ahead)) :=
        (meetsAt_addrSpec_behind spec no_comment ends follows).map
      rw [← List.append_assoc] at no_name meets ⊢
      rcases spec.leadKind behind with lead | lead
      · exact .orElse (routeSpec_failsOrPassesAt ends lead (by decide) no_name) meets
      · exact .orElse (routeSpec_failsOrPassesAt ends lead (by decide) no_name) meets
  | angle target => exact .inl (congrArg Run.outcome (run_mailbox_angle target))
  | named name target =>
      rw [List.append_assoc]
      exact .inl (congrArg Run.outcome (run_mailbox_named name target))

theorem group_of_mailbox {value : Mailbox} (derived : IsMailbox tokens (behind ++ [finish]) value)
    (ends : HasEnd ahead) : group.FailsOrPassesAt ahead.length (tokens ++ (behind ++ ahead)) := by
  cases derived with
  | plain _ _ no_name =>
      rw [← List.append_assoc] at no_name ⊢
      exact group_failsOrPassesAt ends no_name
  | angle target =>
      have lead := target.leadKind (behind ++ ahead)
      exact .inl (congrArg Run.outcome (run_group_of_lead lead (by decide) (by decide)))
  | named name target =>
      rw [List.append_assoc]
      exact .inl (congrArg Run.outcome (run_group_of_named name target))

/-- A member of a list is matched in front of other tokens, or what is matched goes on into them. -/
theorem meetsAt_address {value : Address} (derived : IsAddress tokens (behind ++ [finish]) value)
    (ends : HasEnd ahead) (follows : behind = [] ∨ MayFollow (behind ++ ahead)) :
    address.MeetsAt value (behind ++ ahead) ahead.length (tokens ++ (behind ++ ahead)) := by
  cases derived with
  | @group part derived =>
      have run := run_group (derived.in_front_of (behind ++ ahead)) (ends.append behind)
      have meets : group.MeetsAt part (behind ++ ahead) ahead.length (tokens ++ (behind ++ ahead)) :=
        .inl (congrArg Run.outcome run)
      exact .orElse_of_first meets.map
  | mailbox derived =>
      exact .orElse (group_of_mailbox derived ends).map
        (meetsAt_mailbox derived ends follows).map

/-! ## Lists -/

/-- In front of other tokens, the parser matches the members of a list or goes on into those
tokens. -/
structure MeetsMembers (member : Parser α) (Member : List Token → List Token → α → Prop) :
    Prop where
  /-- It takes a token at least. -/
  advances : member.Advances
  /-- Members begin like mailboxes. -/
  begins : BeginsAsMailbox Member
  /-- Behind a member it ends, or it takes tokens of what follows the last one. -/
  meets : ∀ {tokens behind ahead : List Token} {finish : Token} {value : α},
    Member tokens (behind ++ [finish]) value → HasEnd ahead →
    behind = [] ∨ MayFollow (behind ++ ahead) →
    member.MeetsAt value (behind ++ ahead) ahead.length (tokens ++ (behind ++ ahead))

theorem mailbox_meets : MeetsMembers mailbox IsMailbox where
  advances := mailbox_advances
  begins _ _ _ rest derived := derived.leadKind rest
  meets := meetsAt_mailbox

theorem address_meets : MeetsMembers address IsAddress where
  advances := address_advances
  begins _ _ _ rest derived := derived.leadKind rest
  meets := meetsAt_address

/-- The loop over the members behind the first. -/
def membersBehind (member : Parser α) (first : α) : Parser (List (Commented α)) :=
  fun tracing tokens => membersWithin member tokens.length first tracing tokens

section Lists

variable {member : Parser α} {Member : List Token → List Token → α → Prop}

theorem passesAt_membersBehind (advances : member.Advances) (first : α) (ends : HasEnd tokens)
    (fewer : tokens.length < limit) : (membersBehind member first).PassesAt limit tokens :=
  NeverFails.passesAt (fun tokens => NeverFails.membersWithin tokens.length first tokens)
    ((membersWithin_proceeds advances first).bounded tokens ends) fewer

theorem outcome_membersBehind (advances : member.Advances) {separators : List Token}
    (all : Separators separators) (value : α) (no_comment : next.kind ≠ .comment)
    (no_comma : next.kind ≠ .comma) (no_finish : next.kind ≠ .endOfText)
    (ends : HasEnd (next :: rest)) :
    (membersBehind member value false (separators ++ next :: rest)).outcome =
      (members member false (next :: rest)).outcome.behind [⟨value, commentsOf separators⟩]
        (next :: rest) := by
  obtain ⟨bound, size, enough⟩ := exists_length_eq_succ separators next rest
  rw [membersBehind, size]
  exact outcome_membersWithin_behind advances no_comment no_comma no_finish ends all value enough

/-- Some token that is no separator leads. -/
theorem exists_behind_separators (ends : HasEnd tokens) :
    ∃ separators next rest, tokens = separators ++ next :: rest ∧ Separators separators ∧
      next.kind ≠ .comment ∧ next.kind ≠ .comma ∧ HasEnd (next :: rest) := by
  induction tokens with
  | nil => exact absurd ends.exists_cons (by simp)
  | cons token tokens ih =>
      by_cases separator : token.kind = .comment ∨ token.kind = .comma
      · have other : token.kind ≠ .endOfText := by rcases separator with kind | kind <;> simp [kind]
        obtain ⟨separators, next, rest, rfl, all, leads⟩ := ih (hasEnd_of_cons other ends)
        exact ⟨token :: separators, next, rest, rfl, List.forall_mem_cons.2 ⟨separator, all⟩, leads⟩
      · rw [not_or] at separator
        exact ⟨[], token, tokens, rfl, fun _ member => absurd member List.not_mem_nil, separator.1,
          separator.2, ends⟩

/-- In front of a token that is no separator a list ends, or it takes members from there on. -/
theorem meetsAt_membersBehind_next (advances : member.Advances) {separators : List Token}
    (all : Separators separators) (value : α) (no_comment : next.kind ≠ .comment)
    (no_comma : next.kind ≠ .comma) (ends : HasEnd (next :: rest)) :
    (membersBehind member value).MeetsAt [⟨value, commentsOf separators⟩] (next :: rest)
      (next :: rest).length (separators ++ next :: rest) := by
  by_cases finish : next.kind = .endOfText
  · have skip : skipSeparators false (separators ++ next :: rest) =
        ⟨.matched (commentsOf separators) (next :: rest), []⟩ :=
      run_skipSeparators false all no_comment no_comma
    obtain ⟨bound, size, -⟩ := exists_length_eq_succ separators next rest
    left
    rw [membersBehind, size]
    simp [membersWithin, skip, finish]
  · rw [MeetsAt, PassesAt,
      outcome_membersBehind advances all value no_comment no_comma finish ends]
    rcases advances.members.failsOrPassesAt ends with failed | ⟨others, behind, matched, more⟩
    · rw [failed]
      exact .inl rfl
    · rw [matched]
      exact .inr ⟨_, behind, rfl, more⟩

/-- Behind the last member a list ends, or takes members of what follows. -/
theorem meetsAt_membersBehind_last (advances : member.Advances) {separators : List Token}
    (all : Separators separators) (value : α) (ends : HasEnd ahead) :
    (membersBehind member value).MeetsAt [⟨value, commentsOf separators⟩] ahead ahead.length
      (separators ++ ahead) := by
  obtain ⟨more, next, rest, rfl, all_more, no_comment, no_comma, next_ends⟩ :=
    exists_behind_separators ends
  have meets := meetsAt_membersBehind_next advances (all.append all_more) value no_comment no_comma
    next_ends
  rw [List.append_assoc] at meets
  cases more with
  | nil => simpa using meets
  | cons separator more =>
      have fewer : (next :: rest).length < (separator :: more ++ next :: rest).length := by
        simp only [List.length_append, List.length_cons]
        omega
      rcases meets with matched | passes
      · exact .inr ⟨_, _, matched, next_ends, fewer⟩
      · exact .inr (passes.mono (Nat.le_of_lt fewer))

/-- Behind another member a list goes on as it would start. -/
theorem meetsAt_membersBehind_cons (rules : MeetsMembers member Member)
    {separators others : List Token} {values : List (Commented α)} (all : Separators separators)
    (value : α) (derived : IsMembers Member [finish] others values)
    (no_comment : headKind others ≠ some .comment) (ends : HasEnd ahead)
    (meets : (members member).MeetsAt values ahead limit (others ++ ahead)) :
    (membersBehind member value).MeetsAt (⟨value, commentsOf separators⟩ :: values) ahead limit
      (separators ++ (others ++ ahead)) := by
  obtain ⟨token, behind, rfl, other, no_comma, no_finish⟩ :=
    exists_head_of_isMembers rules.begins derived no_comment
  have others_ends := ends.append (token :: behind)
  rw [MeetsAt, PassesAt]
  rw [List.cons_append] at meets others_ends ⊢
  rw [outcome_membersBehind rules.advances all value other no_comma no_finish others_ends]
  rcases meets with matched | ⟨found, rest, matched, more⟩
  · rw [matched]
    exact .inl rfl
  · rw [matched]
    exact .inr ⟨_, rest, rfl, more⟩

/-- The members of a list are matched in front of other tokens, or what is matched goes on into
them. -/
theorem meetsAt_members (rules : MeetsMembers member Member) {list : List (Commented α)}
    (derived : IsMembers Member [finish] tokens list) (ends : HasEnd ahead) :
    (members member).MeetsAt list ahead ahead.length (tokens ++ ahead) := by
  induction derived with
  | @last first separators value derived all =>
      rw [List.append_assoc]
      have follows : separators = [] ∨ MayFollow (separators ++ ahead) := by
        cases separators with
        | nil => exact .inl rfl
        | cons token separators =>
            refine .inr ⟨ends.append _, ?_, ?_⟩ <;>
              rcases all token List.mem_cons_self with kind | kind <;> simp [kind]
      have loop := meetsAt_membersBehind_last rules.advances all value ends
      exact (rules.meets derived ends follows).bind loop fun found rest ends fewer =>
        passesAt_membersBehind rules.advances found ends fewer
  | @cons first separators others value values derived all no_comment derived_others ih =>
      obtain ⟨kind, lead, begins⟩ := derived_others.leadKind rules.begins ahead
      have follows := (MayFollow.of_lead (ends.append others) lead begins).behind all
      rw [← List.append_assoc] at derived follows
      have meets := rules.meets derived ends (.inr follows)
      have loop := meetsAt_membersBehind_cons rules all value derived_others no_comment ends ih
      rw [List.append_assoc] at meets
      rw [List.append_assoc, List.append_assoc]
      exact meets.bind loop fun found rest ends fewer =>
        passesAt_membersBehind rules.advances found ends fewer

end Lists

end Parser

end MailAddress
