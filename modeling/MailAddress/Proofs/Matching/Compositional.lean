import MailAddress.Matching.Grammar

/-!
# Properties of all rules

The rules of the grammar are put together from single tokens, comments and separators by a few
combinators.  A property of parsers that all of these keep is a property of every rule.
-/

namespace MailAddress

namespace Parser

/-- Without tokens, this parser asks for one at once. -/
def AsksFirst {α : Type} (parser : Parser α) : Prop := parser false [] = ⟨.beyond, []⟩

/-- The parser goes on in the same way with any two tokens of the same kind and text. -/
def GoesByContent {α : Type} (next : Token → Parser α) : Prop :=
  ∀ token other, token.kind = other.kind → token.text = other.text → next token = next other

/-- A property of parsers that is kept by all that rules are made of, apart from the notes of final
domains. -/
structure Compositional (holds : {α : Type} → Parser α → Prop) : Prop where
  /-- A value and no tokens. -/
  pure {α : Type} (value : α) : holds (Pure.pure value : Parser α)
  /-- One parser after the other. -/
  bind {α β : Type} {parser : Parser α} {onward : α → Parser β} :
    holds parser → (∀ value, holds (onward value)) → holds (parser >>= onward)
  /-- A parser that may fail. -/
  attempt {α : Type} {parser : Parser α} : holds parser → holds parser.attempt
  /-- No match. -/
  fail {α : Type} : holds (Parser.fail : Parser α)
  /-- A look beyond the last token. -/
  beyond {α : Type} : holds (Parser.beyond : Parser α)
  /-- A failure with a note. -/
  stop {α : Type} : holds (Parser.stop : Parser α)
  /-- A step over a token. -/
  advance : holds Parser.advance
  /-- A choice by the next token. -/
  peekThen {α : Type} {next : Token → Parser α} :
    GoesByContent next → (∀ token, holds (next token)) → holds (peek >>= next)
  /-- Any comments. -/
  skipComments : holds Parser.skipComments
  /-- Any comments and commas. -/
  skipSeparators : holds Parser.skipSeparators
  /-- A repetition that the number of tokens bounds. -/
  bounded {α : Type} {within : Nat → Parser α} :
    (∀ bound, holds (within bound)) →
      holds (fun tracing tokens => within tokens.length tracing tokens : Parser α)
  /-- A rule, which asks for a token before all else. -/
  traced {rule : Rule} {body : Parser rule.Result} :
    body.AsksFirst → holds body → holds (Parser.traced rule body)

/-- The parser of a rule, made of a parser with the property that asks for a token before all else. -/
def Wraps (holds : {α : Type} → Parser α → Prop) (rule : Rule) (parser : Parser rule.Result) : Prop :=
  ∃ body, parser = Parser.traced rule body ∧ body.AsksFirst ∧ holds body

namespace Compositional

variable {α : Type} {parser other : Parser α} {holds : {α : Type} → Parser α → Prop}

theorem ite (first : holds parser) (second : holds other) {p : Prop} [Decidable p] :
    holds (if p then parser else other) := by
  split
  · exact first
  · exact second

variable (kept : Compositional holds)

include kept

theorem orElse (first : holds parser) (second : holds other) : holds (parser.orElse other) := by
  refine kept.bind (kept.attempt first) fun found => ?_
  cases found with
  | none => exact second
  | some value => exact kept.pure value

theorem nextIs (kind : Kind) : holds (Parser.nextIs kind) :=
  kept.peekThen (fun token other same _ => by rw [same]) fun _ => kept.pure _

theorem expect (kind : Kind) : holds (Parser.expect kind) :=
  kept.bind (kept.nextIs kind) fun _ => ite kept.advance kept.fail

/-! ## Repetition -/

variable {separator : Kind} {item : Parser (Commented α)}

theorem followersWithin (each : holds item) :
    ∀ bound, holds (Parser.followersWithin separator item bound)
  | 0 => kept.beyond
  | bound + 1 => by
      refine kept.bind kept.skipComments fun before => kept.bind (kept.nextIs separator) fun same =>
        ite ?_ (kept.pure _)
      refine kept.bind (kept.attempt (kept.bind kept.advance fun _ => each)) fun found => ?_
      cases found with
      | none => exact kept.pure _
      | some found => exact kept.bind (followersWithin each bound) fun _ => kept.pure _

theorem followers (each : holds item) : holds (Parser.followers separator item) :=
  kept.bounded (kept.followersWithin each)

theorem separated (each : holds item) : holds (Parser.separated separator item) :=
  kept.bind each fun _ => kept.bind (kept.followers each) fun _ => kept.pure _

theorem hopsWithin (each : holds item) : ∀ bound, holds (Parser.hopsWithin separator item bound)
  | 0 => kept.beyond
  | bound + 1 => by
      refine kept.bind (kept.nextIs separator) fun same => ite ?_ (kept.pure _)
      exact kept.bind kept.advance fun _ => kept.bind each fun _ =>
        kept.bind (hopsWithin each bound) fun _ => kept.pure _

theorem hops (each : holds item) : holds (Parser.hops separator item) :=
  kept.bounded (kept.hopsWithin each)

theorem repeatedWithin (each : holds item) : ∀ bound, holds (Parser.repeatedWithin item bound)
  | 0 => kept.beyond
  | bound + 1 => by
      refine kept.bind (kept.attempt each) fun found => ?_
      cases found with
      | none => exact kept.pure _
      | some found => exact kept.bind (repeatedWithin each bound) fun _ => kept.pure _

theorem repeated (each : holds item) : holds (Parser.repeated item) :=
  kept.bounded (kept.repeatedWithin each)

theorem membersWithin (each : holds parser) :
    ∀ bound first, holds (Parser.membersWithin parser bound first)
  | 0, _ => kept.beyond
  | bound + 1, first => by
      refine kept.bind kept.skipSeparators fun after => kept.bind (kept.nextIs .endOfText)
        fun finish => ite (kept.pure _) ?_
      refine kept.bind (kept.attempt each) fun found => ?_
      cases found with
      | none => exact kept.pure _
      | some second => exact kept.bind (membersWithin each bound second) fun _ => kept.pure _

theorem members (each : holds parser) : holds (Parser.members parser) :=
  kept.bind each fun first => kept.bounded fun bound => kept.membersWithin each bound first

/-! ## Rules within an address specification -/

theorem of_wraps {rule : Rule} {parser : Parser rule.Result} (wraps : Wraps holds rule parser) :
    holds parser := by
  obtain ⟨body, rfl, asks, inside⟩ := wraps
  exact kept.traced asks inside

theorem wraps_subDomain : Wraps holds .subDomain Parser.subDomain := by
  refine ⟨_, rfl, rfl, kept.bind kept.skipComments fun comments =>
    kept.peekThen (fun token other kind text => ?_) fun token => ?_⟩
  · rw [kind, text]
  · exact ite (kept.bind kept.advance fun _ => kept.pure _) kept.fail

theorem subDomain : holds Parser.subDomain := kept.of_wraps kept.wraps_subDomain

theorem wraps_domain : Wraps holds .domain Parser.domain :=
  ⟨_, rfl, rfl, kept.separated kept.subDomain⟩

theorem domain : holds Parser.domain := kept.of_wraps kept.wraps_domain

theorem wraps_route : Wraps holds .route Parser.route :=
  ⟨_, rfl, rfl, kept.bind (kept.hops kept.domain) fun _ => ite kept.fail
    (kept.bind kept.skipComments fun _ => kept.bind (kept.expect .colon) fun _ => kept.pure _)⟩

theorem route : holds Parser.route := kept.of_wraps kept.wraps_route

theorem wraps_word : Wraps holds .word Parser.word := by
  refine ⟨_, rfl, rfl, kept.bind kept.skipComments fun comments =>
    kept.peekThen (fun token other kind text => ?_) fun token => ?_⟩
  · rw [kind, text]
  · exact ite (kept.bind kept.advance fun _ => kept.pure _)
      (ite (kept.bind kept.advance fun _ => kept.pure _) kept.fail)

theorem word : holds Parser.word := kept.of_wraps kept.wraps_word

theorem wraps_localPart : Wraps holds .localPart Parser.localPart :=
  ⟨_, rfl, rfl, kept.separated kept.word⟩

theorem localPart : holds Parser.localPart := kept.of_wraps kept.wraps_localPart

theorem wraps_phrase : Wraps holds .phrase Parser.phrase :=
  ⟨_, rfl, rfl, kept.bind kept.word fun _ => kept.bind (kept.repeated kept.word) fun _ =>
    kept.pure _⟩

theorem phrase : holds Parser.phrase := kept.of_wraps kept.wraps_phrase

theorem wraps_addrSpec (note : ∀ domain, holds (noteFinalDomain domain)) :
    Wraps holds .addrSpec Parser.addrSpec :=
  ⟨_, rfl, rfl, kept.bind kept.localPart fun _ => kept.bind (kept.followers kept.domain) fun _ =>
    kept.bind (note _) fun _ => kept.pure _⟩

theorem addrSpec (note : ∀ domain, holds (noteFinalDomain domain)) : holds Parser.addrSpec :=
  kept.of_wraps (kept.wraps_addrSpec note)

/-! ## Rules around an address specification -/

variable (spec : holds Parser.addrSpec)

include spec

theorem wraps_routeAddr : Wraps holds .routeAddr Parser.routeAddr :=
  ⟨_, rfl, rfl, kept.bind kept.skipComments fun _ => kept.bind (kept.expect .lessThan) fun _ =>
    kept.bind kept.skipComments fun _ => kept.bind (kept.attempt kept.route) fun _ =>
      kept.bind spec fun _ => kept.bind kept.skipComments fun _ =>
        kept.bind (kept.expect .greaterThan) fun _ => kept.pure _⟩

theorem routeAddr : holds Parser.routeAddr := kept.of_wraps (kept.wraps_routeAddr spec)

theorem wraps_routeSpec : Wraps holds .routeSpec Parser.routeSpec :=
  ⟨_, rfl, rfl, kept.bind (kept.attempt kept.phrase) fun _ =>
    kept.bind (kept.routeAddr spec) fun _ => kept.pure _⟩

theorem routeSpec : holds Parser.routeSpec := kept.of_wraps (kept.wraps_routeSpec spec)

theorem wraps_mailbox : Wraps holds .mailbox Parser.mailbox :=
  ⟨_, rfl, rfl, kept.orElse (kept.routeSpec spec) (kept.bind spec fun _ => kept.pure _)⟩

theorem mailbox : holds Parser.mailbox := kept.of_wraps (kept.wraps_mailbox spec)

theorem wraps_mailboxes : Wraps holds .mailboxes Parser.mailboxes :=
  ⟨_, rfl, rfl, kept.members (kept.mailbox spec)⟩

theorem mailboxes : holds Parser.mailboxes := kept.of_wraps (kept.wraps_mailboxes spec)

theorem wraps_group : Wraps holds .group Parser.group :=
  ⟨_, rfl, rfl, kept.bind kept.phrase fun _ => kept.bind (kept.expect .colon) fun _ =>
    kept.bind (kept.attempt (kept.mailboxes spec)) fun _ => kept.bind kept.skipComments fun _ =>
      kept.bind (kept.expect .semicolon) fun _ => kept.pure _⟩

theorem group : holds Parser.group := kept.of_wraps (kept.wraps_group spec)

theorem wraps_address : Wraps holds .address Parser.address :=
  ⟨_, rfl, rfl, kept.orElse (kept.bind (kept.group spec) fun _ => kept.pure _)
    (kept.bind (kept.mailbox spec) fun _ => kept.pure _)⟩

theorem address : holds Parser.address := kept.of_wraps (kept.wraps_address spec)

theorem wraps_addresses : Wraps holds .addresses Parser.addresses := by
  refine ⟨_, rfl, rfl, kept.bind (kept.attempt (kept.members (kept.address spec))) fun found => ?_⟩
  cases found with
  | none => exact kept.stop
  | some list => exact kept.bind (kept.nextIs .endOfText) fun _ => ite (kept.pure list) kept.stop

theorem addresses : holds Parser.addresses := kept.of_wraps (kept.wraps_addresses spec)

omit spec in
/-- A property that the combinators keep is one of what every rule is made of, if the notes of final
domains have it. -/
theorem wraps (note : ∀ domain, holds (noteFinalDomain domain)) (rule : Rule) :
    Wraps holds rule rule.parser := by
  have spec := kept.addrSpec note
  cases rule with
  | subDomain => exact kept.wraps_subDomain
  | domain => exact kept.wraps_domain
  | route => exact kept.wraps_route
  | word => exact kept.wraps_word
  | localPart => exact kept.wraps_localPart
  | addrSpec => exact kept.wraps_addrSpec note
  | routeAddr => exact kept.wraps_routeAddr spec
  | phrase => exact kept.wraps_phrase
  | routeSpec => exact kept.wraps_routeSpec spec
  | mailbox => exact kept.wraps_mailbox spec
  | mailboxes => exact kept.wraps_mailboxes spec
  | group => exact kept.wraps_group spec
  | address => exact kept.wraps_address spec
  | addresses => exact kept.wraps_addresses spec

omit spec in
/-- A property that the combinators keep is one of every rule, if the notes of final domains have
it. -/
theorem all (note : ∀ domain, holds (noteFinalDomain domain)) (rule : Rule) : holds rule.parser :=
  kept.of_wraps (kept.wraps note rule)

end Compositional

end Parser

end MailAddress
