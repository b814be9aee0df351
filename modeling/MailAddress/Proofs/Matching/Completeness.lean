import MailAddress.Matching.Grammar
import MailAddress.Proofs.Matching.Derivation

/-!
# Derivations are matched

A parser runs over the tokens of a derivation and stops right behind them, with the part that the
derivation gives and one final domain noted for each address specification.  The lemmas are
equations for the run of a parser without tracing, so that the run of a rule follows from the runs
of the rules it is made of.

A rule fails without a note where its first token is missing, or where the words in front lead to
no name.  So no alternative that is tried before the right one notes a final domain.
-/

namespace MailAddress

namespace Run

variable {α β : Type}

@[simp] theorem andThen_failed (events : List Event) (next : α → List Token → Run β) :
    (⟨.failed, events⟩ : Run α).andThen next = ⟨.failed, events⟩ := rfl

@[simp] theorem andThen_matched (value : α) (rest : List Token) (events : List Event)
    (next : α → List Token → Run β) :
    (⟨.matched value rest, events⟩ : Run α).andThen next =
      ⟨(next value rest).outcome, events ++ (next value rest).events⟩ := rfl

end Run

namespace Parser

open MailAddress.Derivation

variable {α β : Type} {tokens rest comments : List Token} {next : Token} {kind : Kind}

@[simp] theorem run_bind (parser : Parser α) (onward : α → Parser β) (tracing : Bool) :
    (parser >>= onward) tracing tokens =
      (parser tracing tokens).andThen fun value rest => onward value tracing rest := rfl

@[simp] theorem run_pure (value : α) (tracing : Bool) :
    (pure value : Parser α) tracing tokens = ⟨.matched value tokens, []⟩ := rfl

@[simp] theorem run_traced (rule : Rule) (body : Parser rule.Result) :
    traced rule body false tokens = body false tokens := rfl

@[simp] theorem run_fail (tracing : Bool) : (fail : Parser α) tracing tokens = ⟨.failed, []⟩ := rfl

@[simp] theorem run_peek (tracing : Bool) :
    peek tracing (next :: rest) = ⟨.matched next (next :: rest), []⟩ := rfl

@[simp] theorem run_advance (tracing : Bool) :
    advance tracing (next :: rest) = ⟨.matched () rest, []⟩ := rfl

@[simp] theorem run_nextIs (tracing : Bool) :
    nextIs kind tracing (next :: rest) = ⟨.matched (next.kind == kind) (next :: rest), []⟩ := rfl

theorem run_expect (tracing : Bool) (same : next.kind = kind) :
    expect kind tracing (next :: rest) = ⟨.matched () rest, []⟩ := by
  simp [expect, same]

theorem run_expect_of_ne (tracing : Bool) (other : next.kind ≠ kind) :
    expect kind tracing (next :: rest) = ⟨.failed, []⟩ := by
  simp [expect, other]

theorem run_attempt_of_matched {parser : Parser α} {tracing : Bool} {value : α}
    {events : List Event} (run : parser tracing tokens = ⟨.matched value rest, events⟩) :
    parser.attempt tracing tokens = ⟨.matched (some value) rest, events⟩ := by
  simp [attempt, run]

theorem run_attempt_of_failed {parser : Parser α} {tracing : Bool} {events : List Event}
    (run : parser tracing tokens = ⟨.failed, events⟩) :
    parser.attempt tracing tokens = ⟨.matched none tokens, events⟩ := by
  simp [attempt, run]

/-! ## Comments and separators -/

theorem leadingComments_append (all : Comments comments) (other : next.kind ≠ .comment) :
    leadingComments (comments ++ next :: rest) =
      .matched (commentsOf comments) (next :: rest) := by
  rw [all.commentsOf_eq]
  induction comments with
  | nil => simp [leadingComments, other]
  | cons comment comments ih =>
      have first : comment.kind = .comment := all comment List.mem_cons_self
      have others : Comments comments := fun token member => all token (.tail _ member)
      simp [leadingComments, first, ih others]

theorem leadingSeparators_append {separators : List Token} (all : Separators separators)
    (no_comment : next.kind ≠ .comment) (no_comma : next.kind ≠ .comma) :
    leadingSeparators (separators ++ next :: rest) =
      .matched (commentsOf separators) (next :: rest) := by
  induction separators with
  | nil => simp [leadingSeparators, no_comment, no_comma]
  | cons token separators ih =>
      have others : Separators separators := fun token member => all token (.tail _ member)
      rcases all token List.mem_cons_self with comment | comma
      · simp [leadingSeparators, commentsOf, comment, ih others]
      · simp [leadingSeparators, comma, ih others, commentsOf_cons_of_ne]

theorem run_skipComments (tracing : Bool) (all : Comments comments) (other : next.kind ≠ .comment) :
    skipComments tracing (comments ++ next :: rest) =
      ⟨.matched (commentsOf comments) (next :: rest), []⟩ := by
  rw [skipComments, leadingComments_append all other]

theorem run_skipSeparators {separators : List Token} (tracing : Bool) (all : Separators separators)
    (no_comment : next.kind ≠ .comment) (no_comma : next.kind ≠ .comma) :
    skipSeparators tracing (separators ++ next :: rest) =
      ⟨.matched (commentsOf separators) (next :: rest), []⟩ := by
  rw [skipSeparators, leadingSeparators_append all no_comment no_comma]

/-! ## Words and labels -/

theorem run_word {item : List Token} {value : Word} (derived : IsWord item value) :
    word false (item ++ rest) = ⟨.matched ⟨value, commentsOf item⟩ rest, []⟩ := by
  cases derived with
  | @atom comments token all kind =>
      have other : token.kind ≠ .comment := by rw [kind]; decide
      simp [word, run_skipComments false all other, kind, commentsOf_cons_of_ne other]
  | @quoted comments token all kind =>
      have other : token.kind ≠ .comment := by rw [kind]; decide
      simp [word, run_skipComments false all other, kind, commentsOf_cons_of_ne other]

theorem run_word_of_lead (lead : leadKind tokens = some kind) (no_atom : kind ≠ .atom)
    (no_quoted : kind ≠ .quotedString) : word false tokens = ⟨.failed, []⟩ := by
  obtain ⟨comments, token, rest, rfl, all, rfl, other⟩ := exists_of_leadKind lead
  simp [word, run_skipComments false all other, no_atom, no_quoted]

theorem run_subDomain {item : List Token} {label : Text} (derived : IsLabel item label) :
    subDomain false (item ++ rest) = ⟨.matched ⟨label, commentsOf item⟩ rest, []⟩ := by
  cases derived with
  | @label comments token all kind =>
      have other : token.kind ≠ .comment := by rcases kind with kind | kind <;> rw [kind] <;> decide
      simp [subDomain, run_skipComments false all other, kind, commentsOf_cons_of_ne other]

/-! ## Sequences -/

/-- A parser that stops right behind the tokens of an item. -/
def MatchesItem (parser : Parser (Commented α)) (Item : List Token → α → Prop) : Prop :=
  ∀ item value rest, Item item value →
    parser false (item ++ rest) = ⟨.matched ⟨value, commentsOf item⟩ rest, []⟩

theorem run_followersWithin {parser : Parser (Commented α)} {Item : List Token → α → Prop}
    (item : MatchesItem parser Item) {tail : List Token} {values : List α}
    (derived : IsTail Item tail values) (no_comment : next.kind ≠ .comment)
    (no_period : next.kind ≠ .period) :
    ∀ bound, tail.length < bound →
      followersWithin .period parser bound false (tail ++ next :: rest) =
        ⟨.matched ⟨values, commentsOf tail⟩ (next :: rest), []⟩ := by
  induction derived with
  | stop all =>
      intro bound enough
      obtain ⟨bound, rfl⟩ : ∃ b, bound = b + 1 := ⟨bound - 1, by omega⟩
      simp [followersWithin, run_skipComments false all no_comment, no_period]
  | @next comments tokens tail period value values all kind derived _ ih =>
      intro bound enough
      obtain ⟨bound, rfl⟩ : ∃ b, bound = b + 1 := ⟨bound - 1, by omega⟩
      have other : period.kind ≠ .comment := by rw [kind]; decide
      have fits : tail.length < bound := by
        simp only [List.length_append, List.length_cons] at enough
        omega
      have found : (do advance; parser : Parser (Commented α)).attempt false
          (period :: (tokens ++ (tail ++ next :: rest))) =
            ⟨.matched (some ⟨value, commentsOf tokens⟩) (tail ++ next :: rest), []⟩ := by
        refine run_attempt_of_matched ?_
        simp [item tokens value (tail ++ next :: rest) derived]
      simp [followersWithin, run_skipComments false all other, kind, found, ih bound fits,
        commentsOf_cons_of_ne other]

theorem run_separated {parser : Parser (Commented α)} {Item : List Token → α → Prop}
    (item : MatchesItem parser Item) {series : List Token} {values : List α}
    (derived : IsSeries Item series values) (no_comment : next.kind ≠ .comment)
    (no_period : next.kind ≠ .period) :
    separated .period parser false (series ++ next :: rest) =
      ⟨.matched ⟨values, commentsOf series⟩ (next :: rest), []⟩ := by
  cases derived with
  | @items tokens tail value values derived others =>
      have loop : followers .period parser false (tail ++ next :: rest) =
          ⟨.matched ⟨values, commentsOf tail⟩ (next :: rest), []⟩ :=
        run_followersWithin item others no_comment no_period _ (by simp)
      simp [separated, item tokens value _ derived, loop]

theorem run_domain {labels : List Token} {value : Domain} (derived : IsSeries IsLabel labels value)
    (no_comment : next.kind ≠ .comment) (no_period : next.kind ≠ .period) :
    domain false (labels ++ next :: rest) =
      ⟨.matched ⟨value, commentsOf labels⟩ (next :: rest), []⟩ :=
  run_separated (fun _ _ _ => run_subDomain) derived no_comment no_period

theorem run_localPart {words : List Token} {value : List Word}
    (derived : IsSeries IsWord words value) (no_comment : next.kind ≠ .comment)
    (no_period : next.kind ≠ .period) :
    localPart false (words ++ next :: rest) =
      ⟨.matched ⟨value, commentsOf words⟩ (next :: rest), []⟩ :=
  run_separated (fun _ _ _ => run_word) derived no_comment no_period

/-! ## Address specifications -/

theorem run_skipComments_of_ne (tracing : Bool) (other : next.kind ≠ .comment) :
    skipComments tracing (next :: rest) = ⟨.matched [] (next :: rest), []⟩ :=
  run_skipComments tracing Comments.nil other

/-- Behind a domain comes the next at sign or what follows all domains. -/
theorem exists_behind_domain {hops : List Token} {domains : List Domain} (rest : List Token)
    (derived : IsHops hops domains) (no_comment : next.kind ≠ .comment)
    (no_period : next.kind ≠ .period) :
    ∃ token behind, hops ++ next :: rest = token :: behind ∧ token.kind ≠ .comment ∧
      token.kind ≠ .period := by
  cases derived with
  | nil => exact ⟨next, rest, rfl, no_comment, no_period⟩
  | @cons labels hops sign domain domains kind first others =>
      refine ⟨sign, labels ++ hops ++ next :: rest, rfl, ?_, ?_⟩ <;> rw [kind] <;> decide

theorem run_hopFollowersWithin {hops : List Token} {domains : List Domain}
    (derived : IsHops hops domains) (no_comment : next.kind ≠ .comment)
    (no_period : next.kind ≠ .period) (no_sign : next.kind ≠ .atSign) :
    ∀ bound, hops.length < bound →
      followersWithin .atSign domain bound false (hops ++ next :: rest) =
        ⟨.matched ⟨domains, commentsOf hops⟩ (next :: rest), []⟩ := by
  induction derived with
  | nil =>
      intro bound enough
      obtain ⟨bound, rfl⟩ : ∃ b, bound = b + 1 := ⟨bound - 1, by omega⟩
      simp [followersWithin, run_skipComments_of_ne false no_comment, no_sign]
  | @cons labels hops sign value domains kind first others ih =>
      intro bound enough
      obtain ⟨bound, rfl⟩ : ∃ b, bound = b + 1 := ⟨bound - 1, by omega⟩
      have other : sign.kind ≠ .comment := by rw [kind]; decide
      have fits : hops.length < bound := by
        simp only [List.length_append, List.length_cons] at enough
        omega
      have found : (do advance; domain : Parser (Commented Domain)).attempt false
          (sign :: (labels ++ (hops ++ next :: rest))) =
            ⟨.matched (some ⟨value, commentsOf labels⟩) (hops ++ next :: rest), []⟩ := by
        obtain ⟨token, behind, eq, no_comment, no_period⟩ :=
          exists_behind_domain rest others no_comment no_period
        refine run_attempt_of_matched ?_
        rw [eq]
        simp [run_domain first no_comment no_period]
      simp [followersWithin, run_skipComments_of_ne false other, kind, found, ih bound fits,
        commentsOf_cons_of_ne other]

theorem run_addrSpec {spec : List Token} {value : AddrSpec} (derived : IsAddrSpec spec value)
    (no_comment : next.kind ≠ .comment) (no_period : next.kind ≠ .period)
    (no_sign : next.kind ≠ .atSign) :
    addrSpec false (spec ++ next :: rest) =
      ⟨.matched ⟨value, commentsOf spec⟩ (next :: rest), [.finalDomain value.finalDomain]⟩ := by
  cases derived with
  | @parts words hops localPart domains series derived =>
      have loop : followers .atSign domain false (hops ++ next :: rest) =
          ⟨.matched ⟨domains, commentsOf hops⟩ (next :: rest), []⟩ :=
        run_hopFollowersWithin derived no_comment no_period no_sign _ (by simp)
      obtain ⟨token, behind, eq, no_comment, no_period⟩ :=
        exists_behind_domain rest derived no_comment no_period
      rw [eq] at loop
      simp [addrSpec, List.append_assoc, eq, run_localPart series no_comment no_period, loop,
        noteFinalDomain]

theorem run_addrSpec_of_lead (lead : leadKind tokens = some kind) (no_atom : kind ≠ .atom)
    (no_quoted : kind ≠ .quotedString) : addrSpec false tokens = ⟨.failed, []⟩ := by
  simp [addrSpec, localPart, separated, run_word_of_lead lead no_atom no_quoted]

/-! ## Angle brackets -/

theorem run_hopsWithin {hops : List Token} {domains : List Domain} (derived : IsHops hops domains)
    (no_comment : next.kind ≠ .comment) (no_period : next.kind ≠ .period)
    (no_sign : next.kind ≠ .atSign) :
    ∀ bound, hops.length < bound →
      hopsWithin .atSign domain bound false (hops ++ next :: rest) =
        ⟨.matched ⟨domains, commentsOf hops⟩ (next :: rest), []⟩ := by
  induction derived with
  | nil =>
      intro bound enough
      obtain ⟨bound, rfl⟩ : ∃ b, bound = b + 1 := ⟨bound - 1, by omega⟩
      simp [hopsWithin, no_sign]
  | @cons labels hops sign value domains kind first others ih =>
      intro bound enough
      obtain ⟨bound, rfl⟩ : ∃ b, bound = b + 1 := ⟨bound - 1, by omega⟩
      have other : sign.kind ≠ .comment := by rw [kind]; decide
      have fits : hops.length < bound := by
        simp only [List.length_append, List.length_cons] at enough
        omega
      have loop := ih bound fits
      obtain ⟨token, behind, eq, no_comment, no_period⟩ :=
        exists_behind_domain rest others no_comment no_period
      rw [eq] at loop
      simp [hopsWithin, kind, eq, run_domain first no_comment no_period, loop,
        commentsOf_cons_of_ne other]

theorem run_route {hops : List Token} {domains : List Domain} {colon : Token}
    (derived : IsHops hops domains) (some : domains ≠ []) (kind : colon.kind = .colon) :
    route false (hops ++ colon :: rest) = ⟨.matched ⟨domains, commentsOf hops⟩ rest, []⟩ := by
  have no_comment : colon.kind ≠ .comment := by rw [kind]; decide
  have no_period : colon.kind ≠ .period := by rw [kind]; decide
  have no_sign : colon.kind ≠ .atSign := by rw [kind]; decide
  have loop : Parser.hops .atSign domain false (hops ++ colon :: rest) =
      ⟨.matched ⟨domains, commentsOf hops⟩ (colon :: rest), []⟩ :=
    run_hopsWithin derived no_comment no_period no_sign _ (by simp)
  simp [route, loop, some, run_skipComments_of_ne false no_comment, run_expect false kind]

theorem run_route_of_ne (no_sign : next.kind ≠ .atSign) :
    route false (next :: rest) = ⟨.failed, []⟩ := by
  simp [route, hops, hopsWithin, no_sign]

/-- Within the brackets come comments, a route if there is one, and the specification.  Without a
route, the comments in front of the specification are taken before the route is tried. -/
theorem exists_run_inside {inside relays words : List Token} {spec : AddrSpec} (rest : List Token)
    (all : Comments inside) (route_derived : IsRelays relays) (derived : IsAddrSpec words spec)
    (no_comment : next.kind ≠ .comment) (no_period : next.kind ≠ .period)
    (no_sign : next.kind ≠ .atSign) :
    ∃ before found after target behind,
      skipComments false (inside ++ (relays ++ (words ++ next :: rest))) =
        ⟨.matched before target, []⟩ ∧
      route.attempt false target = ⟨.matched found behind, []⟩ ∧
      addrSpec false behind =
        ⟨.matched ⟨spec, after⟩ (next :: rest), [.finalDomain spec.finalDomain]⟩ ∧
      before ++ ((found.map Commented.comments).getD [] ++ after) =
        commentsOf inside ++ (commentsOf relays ++ commentsOf words) := by
  cases route_derived with
  | none =>
      obtain ⟨comments, token, words, rfl, all_comments, word, derived⟩ := derived.strip
      have other : token.kind ≠ .comment := by rcases word with kind | kind <;> rw [kind] <;> decide
      have no_route : token.kind ≠ .atSign := by rcases word with kind | kind <;> rw [kind] <;> decide
      have skip : skipComments false
          (inside ++ ([] ++ (comments ++ token :: words ++ next :: rest))) =
            ⟨.matched (commentsOf (inside ++ comments)) (token :: (words ++ next :: rest)), []⟩ := by
        have layout : inside ++ ([] ++ (comments ++ token :: words ++ next :: rest)) =
            inside ++ comments ++ token :: (words ++ next :: rest) := by simp
        rw [layout]
        exact run_skipComments false (all.append all_comments) other
      exact ⟨_, none, commentsOf (token :: words), _, _, skip,
        run_attempt_of_failed (run_route_of_ne no_route),
        run_addrSpec derived no_comment no_period no_sign, by simp⟩
  | @some hops colon domains hop_derived some kind =>
      have colon_kind : colon.kind ≠ .comment := by rw [kind]; decide
      obtain ⟨sign, behind, rfl, sign_kind⟩ : ∃ sign behind, hops = sign :: behind ∧
          sign.kind = .atSign := by
        cases hop_derived with
        | nil => exact absurd rfl some
        | cons kind => exact ⟨_, _, rfl, kind⟩
      have other : sign.kind ≠ .comment := by rw [sign_kind]; decide
      have layout : sign :: behind ++ [colon] ++ (words ++ next :: rest) =
          sign :: (behind ++ colon :: (words ++ next :: rest)) := by simp
      rw [layout]
      exact ⟨commentsOf inside, .some ⟨domains, commentsOf (sign :: behind)⟩, commentsOf words, _, _,
        run_skipComments false all other, run_attempt_of_matched (run_route hop_derived some kind),
        run_addrSpec derived no_comment no_period no_sign,
        by simp [commentsOf_cons_of_ne other, commentsOf_cons_of_ne colon_kind]⟩

theorem run_routeAddr {angle : List Token} {spec : AddrSpec} (derived : IsRouteAddr angle spec) :
    routeAddr false (angle ++ rest) =
      ⟨.matched ⟨spec, commentsOf angle⟩ rest, [.finalDomain spec.finalDomain]⟩ := by
  cases derived with
  | @brackets before inside relays words less greater _ all less_kind all_inside route derived
      greater_kind =>
      have no_comment : less.kind ≠ .comment := by rw [less_kind]; decide
      have closes : greater.kind ≠ .comment := by rw [greater_kind]; decide
      have no_period : greater.kind ≠ .period := by rw [greater_kind]; decide
      have no_sign : greater.kind ≠ .atSign := by rw [greater_kind]; decide
      obtain ⟨front, found, after, target, behind, skip, relayed, spec_run, same⟩ :=
        exists_run_inside rest all_inside route derived closes no_period no_sign
      simp [routeAddr, run_skipComments false all no_comment, run_expect false less_kind, skip,
        relayed, spec_run, run_skipComments_of_ne false closes, run_expect false greater_kind,
        commentsOf_cons_of_ne no_comment, commentsOf_cons_of_ne closes, same]

theorem run_routeAddr_of_lead (lead : leadKind tokens = some kind) (other : kind ≠ .lessThan) :
    routeAddr false tokens = ⟨.failed, []⟩ := by
  obtain ⟨comments, token, rest, rfl, all, rfl, no_comment⟩ := exists_of_leadKind lead
  simp [routeAddr, run_skipComments false all no_comment, run_expect_of_ne false other]

end Parser

end MailAddress
