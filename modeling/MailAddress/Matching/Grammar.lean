import MailAddress.Matching.Parser

/-!
# The grammar

Each rule as a parser.  Alternatives are tried in order and the first that succeeds wins.
Repetitions take as much as they can.

```
word        = atom / quoted-string
sub-domain  = atom / domain-literal
domain      = sub-domain *("." sub-domain)
route       = 1*("@" domain) ":"
local-part  = word *("." word)
addr-spec   = local-part *("@" domain)
route-addr  = "<" [route] addr-spec ">"
phrase      = 1*word
mailbox     = [phrase] route-addr / addr-spec
group       = phrase ":" [mailbox *(*"," mailbox)] ";"
address     = group / mailbox
addresses   = address *(*"," address)
```

Comments may stand between any two tokens, but not right before the colon of a group.
-/

namespace MailAddress

namespace Parser

/-- A label: a token of one of two kinds. -/
def subDomain : Parser (Commented Text) :=
  traced .subDomain do
    let comments ← skipComments
    let token ← peek
    if token.kind = .atom ∨ token.kind = .domainLiteral then
      advance
      return ⟨token.text, comments⟩
    else fail

/-- Labels with periods between them. -/
def domain : Parser (Commented Domain) :=
  traced .domain (separated .period subDomain)

/-- The relays of an address specification in angle brackets, up to the colon behind them. -/
def route : Parser (Commented (List Domain)) :=
  traced .route do
    let relays ← hops .atSign domain
    if relays.body.isEmpty then fail
    else
      let comments ← skipComments
      expect .colon
      return ⟨relays.body, relays.comments ++ comments⟩

/-- A word.  The text of a quoted string is the one it stands for. -/
def word : Parser (Commented Word) :=
  traced .word do
    let comments ← skipComments
    let token ← peek
    if token.kind = .atom then
      advance
      return ⟨.atom token.text, comments⟩
    else if token.kind = .quotedString then
      advance
      return ⟨.quoted (unquote token.text), comments⟩
    else fail

/-- Words with periods between them. -/
def localPart : Parser (Commented (List Word)) :=
  traced .localPart (separated .period word)

/-- A local part and its domains. -/
def addrSpec : Parser (Commented AddrSpec) :=
  traced .addrSpec do
    let first ← localPart
    let domains ← followers .atSign domain
    let spec : AddrSpec := ⟨first.body, domains.body⟩
    noteFinalDomain spec.finalDomain
    return ⟨spec, first.comments ++ domains.comments⟩

/-- An address specification in angle brackets.  The relays of a route are dropped, and its comments
are kept. -/
def routeAddr : Parser (Commented AddrSpec) :=
  traced .routeAddr do
    let before ← skipComments
    expect .lessThan
    let inside ← skipComments
    let relays ← attempt route
    let spec ← addrSpec
    let after ← skipComments
    expect .greaterThan
    let relayComments := (relays.map Commented.comments).getD []
    return ⟨spec.body, before ++ inside ++ relayComments ++ spec.comments ++ after⟩

/-- Words side by side. -/
def phrase : Parser (Commented (List Word)) :=
  traced .phrase do
    let first ← word
    let others ← repeated word
    return ⟨first.body :: others.body, first.comments ++ others.comments⟩

/-- An address specification in angle brackets, with a name in front if there is one. -/
def routeSpec : Parser Mailbox :=
  traced .routeSpec do
    let name ← attempt phrase
    let target ← routeAddr
    return .angle name target

/-- A mailbox. -/
def mailbox : Parser Mailbox :=
  traced .mailbox (routeSpec.orElse do return .plain (← addrSpec))

/-- The mailboxes of a group. -/
def mailboxes : Parser (List (Commented Mailbox)) :=
  traced .mailboxes (members mailbox)

/-- A group. -/
def group : Parser Group :=
  traced .group do
    let name ← phrase
    expect .colon
    let list ← attempt mailboxes
    let comments ← skipComments
    expect .semicolon
    return ⟨name, list.getD [], comments⟩

/-- A member of a field. -/
def address : Parser Address :=
  traced .address
    (orElse (do return .group (← group)) (do return .mailbox (← mailbox)))

/-- A list of addresses up to the end of the text. -/
def addresses : Parser AddressList :=
  traced .addresses do
    match ← attempt (members address) with
    | none => stop
    | some list => if ← nextIs .endOfText then return list else stop

end Parser

/-- The parser of a rule. -/
def Rule.parser : (rule : Rule) → Parser rule.Result
  | .subDomain => .subDomain
  | .domain => .domain
  | .route => .route
  | .word => .word
  | .localPart => .localPart
  | .addrSpec => .addrSpec
  | .routeAddr => .routeAddr
  | .phrase => .phrase
  | .routeSpec => .routeSpec
  | .mailbox => .mailbox
  | .mailboxes => .mailboxes
  | .group => .group
  | .address => .address
  | .addresses => .addresses

end MailAddress
