import MailAddress.Proofs.Matching.Abandonment
import MailAddress.Proofs.Matching.Walkers

/-!
# Walkers follow parsers

The tokens from an index on are what a parser is given.  So a walker at an index is compared with the
parser on these tokens.  It ends in the same way and notes the same final domains, and where tokens
remain for the parser, it comes to the index from which on they stand.

The tokens that remain always end those that were there, which is what makes an index of them.  Both
are shown together, for single tokens, for what walkers are put together by, and then rule by rule.
-/

namespace MailAddress

variable {α β : Type}

/-! ## Runs in terms of indices -/

/-- What follows a match ends the tokens, and so does what a field stops at. -/
structure Run.EndsIn (tokens : List Token) (run : Run α) : Prop where
  /-- What follows a match. -/
  rest : ∀ value rest, run.outcome = .matched value rest → rest <:+ tokens
  /-- Where a field stops. -/
  stops : ∀ rest ∈ run.events.filterMap Event.stop?, rest <:+ tokens

/-- A run in terms of indices, among `total` tokens. -/
def Visit.ofRun (total : Nat) (run : Run α) : Visit α :=
  ⟨run.outcome.answer total id, Trace.finalDomains run.events,
    (run.events.filterMap Event.stop?).map fun rest => total - rest.length⟩

/-- The walker at an index goes as the parser on the tokens from there on. -/
def Walker.FollowsAt (walker : Walker α) (parser : Parser α) (tokens : List Token) (index : Nat) :
    Prop :=
  walker tokens index = .ofRun tokens.length (parser false (tokens.drop index)) ∧
    (parser false (tokens.drop index)).EndsIn (tokens.drop index)

/-- The walker goes as the parser at every index. -/
def Walker.Follows (walker : Walker α) (parser : Parser α) : Prop :=
  ∀ tokens index, index ≤ tokens.length → walker.FollowsAt parser tokens index

theorem Run.EndsIn.silent {tokens : List Token} {outcome : Outcome α}
    (ends : ∀ value rest, outcome = .matched value rest → rest <:+ tokens) :
    Run.EndsIn tokens ⟨outcome, []⟩ :=
  ⟨ends, nofun⟩

namespace Walker

variable {walker : Walker α} {parser : Parser α} {tokens : List Token} {index bound : Nat}

/-! ## Single tokens -/

theorem run_peek {onward : Token → Walker α} {token : Token} (next : tokens[index]? = some token) :
    (peek >>= onward) tokens index = onward token tokens index := by
  show Visit.andThen (peek tokens index) _ = _
  rw [peek, next]
  rfl

theorem run_advance {onward : Unit → Walker α} {token : Token} (next : tokens[index]? = some token) :
    (advance >>= onward) tokens index = onward () tokens (index + 1) := by
  show Visit.andThen (advance tokens index) _ = _
  rw [advance, next]
  rfl

/-- At an index there is a token and those behind it, or none. -/
theorem drop_cases (tokens : List Token) (index : Nat) :
    tokens.drop index = [] ∧ tokens[index]? = none ∨
      ∃ token, tokens.drop index = token :: tokens.drop (index + 1) ∧
        tokens[index]? = some token ∧ index < tokens.length := by
  by_cases inside : index < tokens.length
  · exact .inr ⟨tokens[index], List.drop_eq_getElem_cons inside, List.getElem?_eq_getElem inside,
      inside⟩
  · have past := Nat.le_of_not_lt inside
    exact .inl ⟨List.drop_of_length_le past, List.getElem?_eq_none past⟩

/-- The tokens from an index within them on tell the index. -/
theorem length_sub_length_drop (inside : index ≤ tokens.length) :
    tokens.length - (tokens.drop index).length = index := by
  rw [List.length_drop]
  omega

namespace Follows

theorem pure (value : α) : (Pure.pure value : Walker α).Follows (Pure.pure value) := by
  intro tokens index inside
  refine ⟨?_, .silent ?_⟩
  · show Visit.mk (.matched index value) [] [] =
      ⟨.matched (tokens.length - (tokens.drop index).length) value, [], []⟩
    rw [length_sub_length_drop inside]
  · rintro _ _ ⟨rfl, rfl⟩
    exact List.suffix_rfl

theorem fail : (Walker.fail : Walker α).Follows Parser.fail :=
  fun _ _ _ => ⟨rfl, .silent nofun⟩

theorem beyond : (Walker.beyond : Walker α).Follows Parser.beyond :=
  fun _ _ _ => ⟨rfl, .silent nofun⟩

theorem stop : (Walker.stop : Walker α).Follows Parser.stop := by
  intro tokens index inside
  refine ⟨?_, nofun, ?_⟩
  · show Visit.mk .failed [] [index] = ⟨.failed, [], [tokens.length - (tokens.drop index).length]⟩
    rw [length_sub_length_drop inside]
  · exact List.forall_mem_singleton.2 List.suffix_rfl

theorem noteFinalDomain (domain : Text) :
    (Walker.noteFinalDomain domain).Follows (Parser.noteFinalDomain domain) := by
  intro tokens index inside
  refine ⟨?_, ?_, nofun⟩
  · show Visit.mk (.matched index ()) [domain] [] =
      ⟨.matched (tokens.length - (tokens.drop index).length) (), [domain], []⟩
    rw [length_sub_length_drop inside]
  · rintro _ _ ⟨rfl, rfl⟩
    exact List.suffix_rfl

theorem peek : Walker.peek.Follows Parser.peek := by
  intro tokens index inside
  have left := length_sub_length_drop inside
  unfold FollowsAt Walker.peek Parser.peek
  rcases drop_cases tokens index with ⟨none, next⟩ | ⟨token, cons, next, -⟩
  · rw [none, next]
    exact ⟨rfl, .silent nofun⟩
  · rw [cons] at left ⊢
    rw [next]
    refine ⟨?_, .silent ?_⟩
    · show Visit.mk (.matched index token) [] [] = ⟨.matched (tokens.length - _) token, [], []⟩
      rw [left]
    · rintro _ _ ⟨rfl, rfl⟩
      exact List.suffix_rfl

theorem advance : Walker.advance.Follows Parser.advance := by
  intro tokens index inside
  unfold FollowsAt Walker.advance Parser.advance
  rcases drop_cases tokens index with ⟨none, next⟩ | ⟨token, cons, next, strict⟩
  · rw [none, next]
    exact ⟨rfl, .silent nofun⟩
  · have left := length_sub_length_drop (Nat.succ_le_of_lt strict)
    rw [cons, next]
    refine ⟨?_, .silent ?_⟩
    · show Visit.mk (.matched (index + 1) ()) [] [] = ⟨.matched (tokens.length - _) (), [], []⟩
      rw [left]
    · rintro _ _ ⟨rfl, rfl⟩
      exact List.suffix_cons _ _

/-! ## One after the other -/

theorem bind {onward : α → Walker β} {continued : α → Parser β} (first : walker.Follows parser)
    (second : ∀ value, (onward value).Follows (continued value)) :
    (walker >>= onward).Follows (parser >>= continued) := by
  intro tokens index inside
  obtain ⟨same, ends⟩ := first tokens index inside
  show (walker tokens index).andThen _ = .ofRun _ ((parser false (tokens.drop index)).andThen _) ∧
    ((parser false (tokens.drop index)).andThen _).EndsIn _
  rw [same]
  generalize parser false (tokens.drop index) = run at ends
  obtain ⟨outcome, events⟩ := run
  cases outcome with
  | beyond => exact ⟨rfl, nofun, ends.stops⟩
  | failed => exact ⟨rfl, nofun, ends.stops⟩
  | matched value rest =>
      have suffix := ends.rest value rest rfl
      have place : rest = tokens.drop (tokens.length - rest.length) :=
        List.suffix_iff_eq_drop.1 (suffix.trans (List.drop_suffix index tokens))
      obtain ⟨onward_same, onward_ends⟩ :=
        second value tokens (tokens.length - rest.length) (Nat.sub_le _ _)
      rw [← place] at onward_same onward_ends
      refine ⟨?_, ⟨fun last final found => (onward_ends.rest last final found).trans suffix, ?_⟩⟩
      · simp only [Visit.andThen, Visit.ofRun, Outcome.answer, id_eq, onward_same, Run.andThen,
          Trace.finalDomains_append, List.filterMap_append, List.map_append]
      · intro final stops
        simp only [Run.andThen, List.filterMap_append, List.mem_append] at stops
        rcases stops with stops | stops
        · exact ends.stops final stops
        · exact (onward_ends.stops final stops).trans suffix

theorem attempt (follows : walker.Follows parser) : walker.attempt.Follows parser.attempt := by
  intro tokens index inside
  obtain ⟨same, ends⟩ := follows tokens index inside
  have left := length_sub_length_drop inside
  unfold FollowsAt Walker.attempt Parser.attempt
  rw [same]
  generalize parser false (tokens.drop index) = run at ends
  obtain ⟨outcome, events⟩ := run
  cases outcome with
  | beyond => exact ⟨rfl, nofun, ends.stops⟩
  | failed =>
      refine ⟨?_, ?_, ends.stops⟩
      · simp only [Visit.ofRun, Outcome.answer, left, id_eq]
      · rintro _ _ ⟨rfl, rfl⟩
        exact List.suffix_rfl
  | matched value rest =>
      refine ⟨rfl, ?_, ends.stops⟩
      rintro _ _ ⟨rfl, rfl⟩
      exact ends.rest value rest rfl

theorem ite {other : Walker α} {alternative : Parser α} {p : Prop} [Decidable p]
    (first : walker.Follows parser) (second : other.Follows alternative) :
    (if p then walker else other).Follows (if p then parser else alternative) := by
  split
  · exact first
  · exact second

theorem orElse {other : Walker α} {alternative : Parser α} (first : walker.Follows parser)
    (second : other.Follows alternative) :
    (walker.orElse other).Follows (parser.orElse alternative) := by
  refine first.attempt.bind fun found => ?_
  cases found with
  | none => exact second
  | some value => exact .pure value

theorem nextIs (kind : Kind) : (Walker.nextIs kind).Follows (Parser.nextIs kind) :=
  peek.bind fun _ => .pure _

theorem expect (kind : Kind) : (Walker.expect kind).Follows (Parser.expect kind) :=
  (nextIs kind).bind fun _ => .ite advance fail

/-! ## Loops -/

theorem bounded {within : Nat → Walker α} {parsers : Nat → Parser α}
    (follows : ∀ bound, (within bound).Follows (parsers bound)) :
    (Walker.bounded within).Follows fun tracing tokens => parsers tokens.length tracing tokens := by
  intro tokens index inside
  have here := follows (tokens.drop index).length tokens index inside
  show within (tokens.length - index) tokens index = _ ∧ _
  rw [← List.length_drop]
  exact here

/-- What both kinds of skipping have in common: at the next token they take a comment, step over a
comma if commas are separators, or come to their end. -/
theorem skipWithin {commas : Bool} {lead : List Token → Outcome (List Text)}
    (nil : lead [] = .beyond)
    (cons : ∀ token rest, lead (token :: rest) =
      if token.kind = .comment then
        match lead rest with
        | .matched comments rest => .matched (token.text :: comments) rest
        | outcome => outcome
      else if commas && token.kind == .comma then lead rest
      else .matched [] (token :: rest))
    (enough : tokens.length - index ≤ bound) (inside : index ≤ tokens.length) :
    Walker.skipWithin commas bound tokens index =
        .ofRun tokens.length ⟨lead (tokens.drop index), []⟩ ∧
      Run.EndsIn (tokens.drop index) ⟨lead (tokens.drop index), []⟩ := by
  induction bound generalizing index with
  | zero =>
      have finished : tokens.drop index = [] := List.drop_of_length_le (by omega)
      rw [finished, nil]
      exact ⟨rfl, .silent nofun⟩
  | succ bound ih =>
      have left := length_sub_length_drop inside
      rcases drop_cases tokens index with ⟨none, next⟩ | ⟨token, here, next, strict⟩
      · rw [none, nil]
        refine ⟨?_, .silent nofun⟩
        show Visit.andThen (Walker.peek tokens index) _ = _
        rw [Walker.peek, next]
        rfl
      · obtain ⟨same, ends⟩ := ih (show tokens.length - (index + 1) ≤ bound by omega) strict
        rw [here] at left ⊢
        rw [Walker.skipWithin, run_peek next, cons]
        generalize tokens.drop (index + 1) = rest at same ends left
        by_cases comment : token.kind = .comment
        · rw [if_pos comment, if_pos comment, run_advance next]
          show Visit.andThen (Walker.skipWithin commas bound tokens (index + 1)) _ = _ ∧ _
          rw [same]
          generalize lead rest = outcome at ends
          cases outcome with
          | beyond => exact ⟨rfl, .silent nofun⟩
          | failed => exact ⟨rfl, .silent nofun⟩
          | matched comments behind =>
              refine ⟨rfl, .silent ?_⟩
              rintro _ _ ⟨rfl, rfl⟩
              exact (ends.rest comments behind rfl).trans (List.suffix_cons token rest)
        · rw [if_neg comment, if_neg comment]
          by_cases comma : (commas && token.kind == .comma) = true
          · rw [if_pos comma, if_pos comma, run_advance next]
            refine ⟨same, .silent fun comments behind found => ?_⟩
            exact (ends.rest comments behind found).trans (List.suffix_cons token rest)
          · rw [if_neg comma, if_neg comma]
            refine ⟨?_, .silent ?_⟩
            · show Visit.mk (.matched index []) [] [] = ⟨.matched (tokens.length - _) [], [], []⟩
              rw [left]
            · rintro _ _ ⟨rfl, rfl⟩
              exact List.suffix_rfl

theorem skipComments : Walker.skipComments.Follows Parser.skipComments :=
  fun _ _ inside => skipWithin rfl (fun _ _ => rfl) (Nat.le_refl _) inside

theorem skipSeparators : Walker.skipSeparators.Follows Parser.skipSeparators := by
  intro tokens index inside
  refine skipWithin rfl (fun token rest => ?_) (Nat.le_refl _) inside
  simp only [Bool.true_and, beq_iff_eq]
  rfl

section Items

variable {separator : Kind} {item : Walker (Commented α)} {read : Parser (Commented α)}

theorem followersWithin (each : item.Follows read) :
    ∀ bound, (Walker.followersWithin separator item bound).Follows
      (Parser.followersWithin separator read bound)
  | 0 => beyond
  | bound + 1 => by
      refine skipComments.bind fun before => (nextIs separator).bind fun same => .ite ?_ (.pure _)
      refine (advance.bind fun _ => each).attempt.bind fun found => ?_
      cases found with
      | none => exact .pure _
      | some found => exact (followersWithin each bound).bind fun _ => .pure _

theorem followers (each : item.Follows read) :
    (Walker.bounded (Walker.followersWithin separator item)).Follows
      (Parser.followers separator read) :=
  bounded (followersWithin each)

theorem separated (each : item.Follows read) :
    (Walker.separated separator item).Follows (Parser.separated separator read) :=
  each.bind fun _ => (followers each).bind fun _ => .pure _

theorem hopsWithin (each : item.Follows read) :
    ∀ bound, (Walker.hopsWithin separator item bound).Follows
      (Parser.hopsWithin separator read bound)
  | 0 => beyond
  | bound + 1 => (nextIs separator).bind fun _ => .ite
      (advance.bind fun _ => each.bind fun _ => (hopsWithin each bound).bind fun _ => .pure _)
      (.pure _)

theorem repeatedWithin (each : item.Follows read) :
    ∀ bound, (Walker.repeatedWithin item bound).Follows (Parser.repeatedWithin read bound)
  | 0 => beyond
  | bound + 1 => by
      refine each.attempt.bind fun found => ?_
      cases found with
      | none => exact .pure _
      | some found => exact (repeatedWithin each bound).bind fun _ => .pure _

theorem membersWithin (each : walker.Follows parser) :
    ∀ bound first, (Walker.membersWithin walker first bound).Follows
      (Parser.membersWithin parser bound first)
  | 0, _ => beyond
  | bound + 1, first => by
      refine skipSeparators.bind fun after => (nextIs .endOfText).bind fun finish =>
        .ite (.pure _) ?_
      refine each.attempt.bind fun found => ?_
      cases found with
      | none => exact .pure _
      | some second => exact (membersWithin each bound second).bind fun _ => .pure _

theorem members (each : walker.Follows parser) :
    (Walker.members walker).Follows (Parser.members parser) :=
  each.bind fun first => bounded fun bound => membersWithin each bound first

end Items

/-! ## Rules -/

/-- Without tracing, a rule is what it is made of. -/
theorem traced (rule : Rule) {walker : Walker rule.Result} {body : Parser rule.Result}
    (follows : walker.Follows body) : walker.Follows (Parser.traced rule body) :=
  follows

theorem subDomain : Walker.subDomain.Follows Parser.subDomain :=
  traced .subDomain <| skipComments.bind fun _ => peek.bind fun _ =>
    .ite (advance.bind fun _ => .pure _) fail

theorem domain : Walker.domain.Follows Parser.domain := traced .domain subDomain.separated

theorem route : Walker.route.Follows Parser.route :=
  traced .route <| (bounded (hopsWithin domain)).bind fun _ => .ite fail <|
    skipComments.bind fun _ => (expect .colon).bind fun _ => .pure _

theorem word : Walker.word.Follows Parser.word :=
  traced .word <| skipComments.bind fun _ => peek.bind fun _ =>
    .ite (advance.bind fun _ => .pure _) <| .ite (advance.bind fun _ => .pure _) fail

theorem localPart : Walker.localPart.Follows Parser.localPart := traced .localPart word.separated

theorem addrSpec : Walker.addrSpec.Follows Parser.addrSpec :=
  traced .addrSpec <| localPart.bind fun _ => (followers domain).bind fun _ =>
    (noteFinalDomain _).bind fun _ => .pure _

theorem routeAddr : Walker.routeAddr.Follows Parser.routeAddr :=
  traced .routeAddr <| skipComments.bind fun _ => (expect .lessThan).bind fun _ => skipComments.bind fun _ =>
    route.attempt.bind fun _ => addrSpec.bind fun _ => skipComments.bind fun _ =>
      (expect .greaterThan).bind fun _ => .pure _

theorem phrase : Walker.phrase.Follows Parser.phrase :=
  traced .phrase <| word.bind fun _ => (bounded (repeatedWithin word)).bind fun _ => .pure _

theorem routeSpec : Walker.routeSpec.Follows Parser.routeSpec :=
  traced .routeSpec <| phrase.attempt.bind fun _ => routeAddr.bind fun _ => .pure _

theorem mailbox : Walker.mailbox.Follows Parser.mailbox :=
  traced .mailbox <| routeSpec.orElse (addrSpec.bind fun _ => .pure _)

theorem mailboxes : (Walker.members .mailbox).Follows Parser.mailboxes :=
  traced .mailboxes mailbox.members

theorem group : Walker.group.Follows Parser.group :=
  traced .group <| phrase.bind fun _ => (expect .colon).bind fun _ => mailboxes.attempt.bind fun _ =>
    skipComments.bind fun _ => (expect .semicolon).bind fun _ => .pure _

theorem address : Walker.address.Follows Parser.address :=
  traced .address <| .orElse (group.bind fun _ => .pure _) (mailbox.bind fun _ => .pure _)

theorem addresses : Walker.addresses.Follows Parser.addresses := by
  refine traced .addresses (address.members.attempt.bind fun found => ?_)
  cases found with
  | none => exact stop
  | some list => exact (nextIs .endOfText).bind fun _ => .ite (.pure list) stop

end Follows

/-- Every rule by index goes as the rule on the tokens that remain. -/
theorem follows (rule : Rule) : rule.walker.Follows rule.parser := by
  cases rule with
  | subDomain => exact .subDomain
  | domain => exact .domain
  | route => exact .route
  | word => exact .word
  | localPart => exact .localPart
  | addrSpec => exact .addrSpec
  | routeAddr => exact .routeAddr
  | phrase => exact .phrase
  | routeSpec => exact .routeSpec
  | mailbox => exact .mailbox
  | mailboxes => exact .mailboxes
  | group => exact .group
  | address => exact .address
  | addresses => exact .addresses

end Walker

end MailAddress
