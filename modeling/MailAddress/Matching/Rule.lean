import MailAddress.Address
import MailAddress.Token

/-!
# The rules of the grammar

The grammar of a field has fourteen rules.  Each has a name, a production as it is shown in a trace,
and a kind of result.  Every result has three forms: what is displayed, the comments that move
behind the construct, and what is canonical.
-/

namespace MailAddress

/-- The rules of the grammar. -/
inductive Rule where
  /-- A label of a domain. -/
  | subDomain
  /-- A domain. -/
  | domain
  /-- The relays in front of an address specification in angle brackets. -/
  | route
  /-- A word. -/
  | word
  /-- A local part. -/
  | localPart
  /-- An address specification. -/
  | addrSpec
  /-- An address specification in angle brackets. -/
  | routeAddr
  /-- A phrase. -/
  | phrase
  /-- An address specification in angle brackets, with or without a name. -/
  | routeSpec
  /-- A mailbox. -/
  | mailbox
  /-- The members of a group. -/
  | mailboxes
  /-- A group. -/
  | group
  /-- A member of a field. -/
  | address
  /-- A whole field. -/
  | addresses
deriving DecidableEq, Repr, Inhabited

/-- What is shown of a result: its display, the comments that move behind it, and its canonical
form. -/
structure Forms where
  /-- The display form. -/
  display : Text
  /-- The comments to be written behind the construct. -/
  deferred : Text
  /-- The canonical form. -/
  canonical : Text
deriving DecidableEq, Repr

namespace Rule

/-- The name of a rule in a trace. -/
def name : Rule → Text
  | .subDomain => "sub_domain".toList
  | .domain => "domain".toList
  | .route => "route".toList
  | .word => "word".toList
  | .localPart => "local_part".toList
  | .addrSpec => "addr_spec".toList
  | .routeAddr => "route_addr".toList
  | .phrase => "phrase".toList
  | .routeSpec => "route_spec".toList
  | .mailbox => "mailbox".toList
  | .mailboxes => "mailboxes".toList
  | .group => "group".toList
  | .address => "address".toList
  | .addresses => "addresses".toList

/-- The production of a rule in a trace. -/
def production : Rule → Text
  | .subDomain => "atom / domain-literal".toList
  | .domain => "sub-domain *(PERIOD sub-domain)".toList
  | .route => "1#(AT domain) COLON".toList
  | .word => "atom / quoted-string".toList
  | .localPart => "word *(PERIOD word)".toList
  | .addrSpec => "local-part *(AT domain)".toList
  | .routeAddr => "LANGLE [route] addr-spec RANGLE".toList
  | .phrase => "word *word".toList
  | .routeSpec => "[phrase] route-addr".toList
  | .mailbox => "route-spec / addr-spec".toList
  | .mailboxes => "mailbox *(*(COMMA) mailbox)".toList
  | .group => "phrase COLON [#mailboxes] SEMICOLON".toList
  | .address => "group / mailbox".toList
  | .addresses => "address *(*(COMMA) address) EOT".toList

/-- All rules, in the order in which they build on each other. -/
def all : List Rule :=
  [.subDomain, .domain, .route, .word, .localPart, .addrSpec, .routeAddr, .phrase, .routeSpec,
    .mailbox, .mailboxes, .group, .address, .addresses]

/-- The rule of a name. -/
def ofName? (name : Text) : Option Rule := all.find? fun rule => rule.name == name

/-- What a rule makes of the tokens it matches. -/
abbrev Result : Rule → Type
  | .subDomain => Commented Text
  | .domain => Commented Domain
  | .route => Commented (List Domain)
  | .word => Commented Word
  | .localPart => Commented (List Word)
  | .addrSpec => Commented AddrSpec
  | .routeAddr => Commented AddrSpec
  | .phrase => Commented (List Word)
  | .routeSpec => Mailbox
  | .mailbox => Mailbox
  | .mailboxes => List (Commented Mailbox)
  | .group => Group
  | .address => Address
  | .addresses => AddressList

/-- The three forms of a result, with a function for the final domains. -/
def forms (f : Text → Text) : (rule : Rule) → rule.Result → Forms
  | .subDomain, part => ⟨part.body, commentText part.comments, part.body⟩
  | .domain, part => ⟨part.body.text, commentText part.comments, part.body.text⟩
  | .route, part => ⟨routeText part.body, commentText part.comments, []⟩
  | .word, part => ⟨part.body.display, commentText part.comments, part.body.content⟩
  | .localPart, part =>
      ⟨['.'].intercalate (part.body.map Word.display), commentText part.comments,
        ['.'].intercalate (part.body.map Word.content)⟩
  | .addrSpec, part => ⟨part.body.display f, commentText part.comments, part.body.line f⟩
  | .routeAddr, part => ⟨part.display (AddrSpec.displayAngle f), [], part.body.line f⟩
  | .phrase, part => ⟨displayPhrase part.body, commentText part.comments, []⟩
  | .routeSpec, part => ⟨part.display f, commentText part.deferred, part.canonical f⟩
  | .mailbox, part => ⟨part.display f, commentText part.deferred, part.canonical f⟩
  | .mailboxes, members =>
      ⟨displayMembers (Mailbox.written f) members, [],
        members.flatMap fun member => member.body.canonical f⟩
  | .group, part => ⟨part.display f, [], part.canonical f⟩
  | .address, part => ⟨part.display f, commentText part.deferred, part.canonical f⟩
  | .addresses, members => ⟨members.display f, [], members.canonical f⟩

theorem mem_all (rule : Rule) : rule ∈ all := by
  cases rule <;> decide

/-- A rule is found by its name. -/
theorem ofName?_name (rule : Rule) : ofName? rule.name = some rule := by
  cases rule <;> rfl

end Rule

end MailAddress
