import MailAddress.Matching.Session

/-!
# Rules by index

A parser is given the tokens that remain.  A *walker* is given all tokens and the index of the next
one.  It counts the index up itself, hands it on from loop to loop, and goes back to it where an
alternative fails.

The rules of this module are those of the grammar as walkers.  What they find is the same, and
they say at which index they come to their end, and at which indices a field stopped.
-/

namespace MailAddress

variable {α β : Type}

/-! ## Reading at an index -/

/-- How a rule at an index goes. -/
structure Visit (α : Type) where
  /-- How it ends. -/
  answer : Answer α
  /-- The final domains of the address specifications that were matched on the way, in order. -/
  finalDomains : List Text
  /-- The indices at which a field stopped to be a list of addresses, in order. -/
  stops : List Nat

/-- A rule that is given all tokens and the index of the next one. -/
def Walker (α : Type) : Type := (tokens : List Token) → (index : Nat) → Visit α

/-- A visit continued with the value it found and the index it came to. -/
def Visit.andThen (visit : Visit α) (next : α → Nat → Visit β) : Visit β :=
  match visit.answer with
  | .beyond => ⟨.beyond, visit.finalDomains, visit.stops⟩
  | .failed => ⟨.failed, visit.finalDomains, visit.stops⟩
  | .matched index value =>
      let second := next value index
      ⟨second.answer, visit.finalDomains ++ second.finalDomains, visit.stops ++ second.stops⟩

/-- One walker after the other.  The second starts at the index to which the first comes. -/
instance : Monad Walker where
  pure value := fun _ index => ⟨.matched index value, [], []⟩
  bind first next := fun tokens index =>
    (first tokens index).andThen fun value index => next value tokens index

namespace Walker

/-- No match. -/
def fail : Walker α := fun _ _ => ⟨.failed, [], []⟩

/-- A look beyond the last token. -/
def beyond : Walker α := fun _ _ => ⟨.beyond, [], []⟩

/-- The token at the index, which stays. -/
def peek : Walker Token := fun tokens index =>
  match tokens[index]? with
  | none => ⟨.beyond, [], []⟩
  | some token => ⟨.matched index token, [], []⟩

/-- A step to the next index. -/
def advance : Walker Unit := fun tokens index =>
  match tokens[index]? with
  | none => ⟨.beyond, [], []⟩
  | some _ => ⟨.matched (index + 1) (), [], []⟩

/-- Whether the token at the index is of a kind. -/
def nextIs (kind : Kind) : Walker Bool := do
  return (← peek).kind == kind

/-- A step over a token of a kind. -/
def expect (kind : Kind) : Walker Unit := do
  if ← nextIs kind then advance else fail

/-- A walker that may fail, which leaves the index as it was. -/
def attempt (walker : Walker α) : Walker (Option α) := fun tokens index =>
  let visit := walker tokens index
  match visit.answer with
  | .beyond => ⟨.beyond, visit.finalDomains, visit.stops⟩
  | .failed => ⟨.matched index none, visit.finalDomains, visit.stops⟩
  | .matched index value => ⟨.matched index (some value), visit.finalDomains, visit.stops⟩

/-- A walker whose failure makes way for another, from the same index. -/
def orElse (first second : Walker α) : Walker α := do
  match ← attempt first with
  | some value => return value
  | none => second

/-- A note that an address specification with this final domain is matched. -/
def noteFinalDomain (domain : Text) : Walker Unit := fun _ index =>
  ⟨.matched index (), [domain], []⟩

/-- A failure, with a note that a field stops here to be a list of addresses. -/
def stop : Walker α := fun _ index => ⟨.failed, [], [index]⟩

/-- A loop that goes on as often as there are tokens from the index on. -/
def bounded (within : Nat → Walker α) : Walker α := fun tokens index =>
  within (tokens.length - index) tokens index

/-! ## Loops -/

/-- At most `bound` comments, and commas as well if they are separators. -/
def skipWithin (commas : Bool) : (bound : Nat) → Walker (List Text)
  | 0 => beyond
  | bound + 1 => do
      let token ← peek
      if token.kind = .comment then
        advance
        return token.text :: (← skipWithin commas bound)
      else if commas && token.kind == .comma then
        advance
        skipWithin commas bound
      else return []

/-- Any number of comments. -/
def skipComments : Walker (List Text) := bounded (skipWithin false)

/-- Any number of comments and commas. -/
def skipSeparators : Walker (List Text) := bounded (skipWithin true)

/-- At most `bound` items, each after a separator, with comments between them. -/
def followersWithin (separator : Kind) (item : Walker (Commented α)) :
    (bound : Nat) → Walker (Commented (List α))
  | 0 => beyond
  | bound + 1 => do
      let before ← skipComments
      if ← nextIs separator then
        match ← attempt (do advance; item) with
        | none => return ⟨[], before⟩
        | some found =>
            let others ← followersWithin separator item bound
            return ⟨found.body :: others.body, before ++ found.comments ++ others.comments⟩
      else return ⟨[], before⟩

/-- An item, and more of its kind, each after a separator. -/
def separated (separator : Kind) (item : Walker (Commented α)) : Walker (Commented (List α)) := do
  let first ← item
  let others ← bounded (followersWithin separator item)
  return ⟨first.body :: others.body, first.comments ++ others.comments⟩

/-- At most `bound` items, each after a separator, with nothing between them. -/
def hopsWithin (separator : Kind) (item : Walker (Commented α)) :
    (bound : Nat) → Walker (Commented (List α))
  | 0 => beyond
  | bound + 1 => do
      if ← nextIs separator then
        advance
        let found ← item
        let others ← hopsWithin separator item bound
        return ⟨found.body :: others.body, found.comments ++ others.comments⟩
      else return ⟨[], []⟩

/-- At most `bound` items. -/
def repeatedWithin (item : Walker (Commented α)) : (bound : Nat) → Walker (Commented (List α))
  | 0 => beyond
  | bound + 1 => do
      match ← attempt item with
      | none => return ⟨[], []⟩
      | some found =>
          let others ← repeatedWithin item bound
          return ⟨found.body :: others.body, found.comments ++ others.comments⟩

/-- A list that starts with a given member and has at most `bound` others. -/
def membersWithin (member : Walker α) (first : α) : (bound : Nat) → Walker (List (Commented α))
  | 0 => beyond
  | bound + 1 => do
      let after ← skipSeparators
      if ← nextIs .endOfText then return [⟨first, after⟩]
      else
        match ← attempt member with
        | none => return [⟨first, after⟩]
        | some second =>
            let others ← membersWithin member second bound
            return ⟨first, after⟩ :: others

/-- A list of one member or more, with any separators between and behind them. -/
def members (member : Walker α) : Walker (List (Commented α)) := do
  bounded (membersWithin member (← member))

/-! ## The rules -/

/-- A label. -/
def subDomain : Walker (Commented Text) := do
  let comments ← skipComments
  let token ← peek
  if token.kind = .atom ∨ token.kind = .domainLiteral then
    advance
    return ⟨token.text, comments⟩
  else fail

/-- A domain. -/
def domain : Walker (Commented Domain) := separated .period subDomain

/-- The relays in front of an address specification in angle brackets. -/
def route : Walker (Commented (List Domain)) := do
  let relays ← bounded (hopsWithin .atSign domain)
  if relays.body.isEmpty then fail
  else
    let comments ← skipComments
    expect .colon
    return ⟨relays.body, relays.comments ++ comments⟩

/-- A word. -/
def word : Walker (Commented Word) := do
  let comments ← skipComments
  let token ← peek
  if token.kind = .atom then
    advance
    return ⟨.atom token.text, comments⟩
  else if token.kind = .quotedString then
    advance
    return ⟨.quoted (unquote token.text), comments⟩
  else fail

/-- A local part. -/
def localPart : Walker (Commented (List Word)) := separated .period word

/-- An address specification. -/
def addrSpec : Walker (Commented AddrSpec) := do
  let first ← localPart
  let domains ← bounded (followersWithin .atSign domain)
  let spec : AddrSpec := ⟨first.body, domains.body⟩
  noteFinalDomain spec.finalDomain
  return ⟨spec, first.comments ++ domains.comments⟩

/-- An address specification in angle brackets. -/
def routeAddr : Walker (Commented AddrSpec) := do
  let before ← skipComments
  expect .lessThan
  let inside ← skipComments
  let relays ← attempt route
  let spec ← addrSpec
  let after ← skipComments
  expect .greaterThan
  let relayComments := (relays.map Commented.comments).getD []
  return ⟨spec.body, before ++ inside ++ relayComments ++ spec.comments ++ after⟩

/-- A phrase. -/
def phrase : Walker (Commented (List Word)) := do
  let first ← word
  let others ← bounded (repeatedWithin word)
  return ⟨first.body :: others.body, first.comments ++ others.comments⟩

/-- An address specification in angle brackets, with or without a name. -/
def routeSpec : Walker Mailbox := do
  let name ← attempt phrase
  return .angle name (← routeAddr)

/-- A mailbox. -/
def mailbox : Walker Mailbox := routeSpec.orElse do return .plain (← addrSpec)

/-- A group. -/
def group : Walker Group := do
  let name ← phrase
  expect .colon
  let list ← attempt (members mailbox)
  let comments ← skipComments
  expect .semicolon
  return ⟨name, list.getD [], comments⟩

/-- A member of a field. -/
def address : Walker Address :=
  orElse (do return .group (← group)) (do return .mailbox (← mailbox))

/-- A whole field. -/
def addresses : Walker AddressList := do
  match ← attempt (members address) with
  | none => stop
  | some list => if ← nextIs .endOfText then return list else stop

end Walker

/-- A rule by index. -/
def Rule.walker : (rule : Rule) → Walker rule.Result
  | .subDomain => .subDomain
  | .domain => .domain
  | .route => .route
  | .word => .word
  | .localPart => .localPart
  | .addrSpec => .addrSpec
  | .routeAddr => .routeAddr
  | .phrase => .phrase
  | .routeSpec => .routeSpec
  | .mailbox => .mailbox
  | .mailboxes => .members .mailbox
  | .group => .group
  | .address => .address
  | .addresses => .addresses

end MailAddress
