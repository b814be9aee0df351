import MailAddress.Quoting

/-!
# Addresses

What a field says, once its grammar is known.

* A *word* is an atom or a quoted string.  A *phrase* is a sequence of words, and so is the local
  part of an address, where periods stand between them.
* A *domain* is a sequence of labels with periods between them.
* An *address specification* is a local part and domains.  All domains but the last name relays, and
  the last, or the empty text if there is none, is the final domain.
* A *mailbox* is an address specification, plain or in angle brackets.  In brackets it may have a
  name.
* A *group* is a name and a list of mailboxes.  An *address* is a mailbox or a group.

Comments may stand nearly everywhere.  Each part keeps the comments met within it, in order.

Every part has two written forms.  The *display* form is the part as a field shows it, with the
words quoted as needed and the comments moved behind the part.  The *canonical* form is the list of
addresses, one line for each mailbox, with the words as they are meant.  Both apply a function to
the final domain of each address specification, and to nothing else.
-/

namespace MailAddress

/-! ## The parts of a field -/

/-- A part of a field, with comments that belong to it. -/
structure Commented (α : Type) where
  /-- The part. -/
  body : α
  /-- The comments, in the order in which they stand in the field. -/
  comments : List Text
deriving DecidableEq, Repr

/-- A word. -/
inductive Word where
  /-- A word that needs no quotes. -/
  | atom (text : Text)
  /-- The text that a quoted string stands for. -/
  | quoted (content : Text)
deriving DecidableEq, Repr

/-- The labels of a domain. -/
abbrev Domain := List Text

/-- A local part and the domains that follow it, each after an at sign. -/
structure AddrSpec where
  /-- The words of the local part. -/
  localPart : List Word
  /-- The domains, the relays first. -/
  domains : List Domain
deriving DecidableEq, Repr

/-- A mailbox. -/
inductive Mailbox where
  /-- An address specification that stands alone. -/
  | plain (spec : Commented AddrSpec)
  /-- An address specification in angle brackets, with a name in front if it has one. -/
  | angle (name : Option (Commented (List Word))) (spec : Commented AddrSpec)
deriving DecidableEq, Repr

/-- A named list of mailboxes. -/
structure Group where
  /-- The name. -/
  name : Commented (List Word)
  /-- The mailboxes, each with the comments that follow it. -/
  members : List (Commented Mailbox)
  /-- The comments of a group without mailboxes. -/
  comments : List Text
deriving DecidableEq, Repr

/-- A member of a field. -/
inductive Address where
  /-- A group of mailboxes. -/
  | group (group : Group)
  /-- A single mailbox. -/
  | mailbox (mailbox : Mailbox)
deriving DecidableEq, Repr

/-- The members of a field, each with the comments that follow it. -/
abbrev AddressList := List (Commented Address)

/-! ## Comments -/

/-- Comments as they are written behind a part, each after a blank. -/
def commentText (comments : List Text) : Text := comments.flatMap (' ' :: ·)

/-- The display of a part with its comments behind it. -/
def Commented.display {α : Type} (body : α → Text) (part : Commented α) : Text :=
  body part.body ++ commentText part.comments

/-- The display of a list of members, with a comma and a blank between them. -/
def displayMembers {α : Type} (body : α → Text) (members : List (Commented α)) : Text :=
  [',', ' '].intercalate (members.map (Commented.display body))

theorem displayMembers_singleton {α : Type} (body : α → Text) (member : Commented α) :
    displayMembers body [member] = member.display body := by
  simp [displayMembers, List.intercalate]

theorem displayMembers_cons_cons {α : Type} (body : α → Text) (member next : Commented α)
    (members : List (Commented α)) :
    displayMembers body (member :: next :: members) =
      member.display body ++ ',' :: ' ' :: displayMembers body (next :: members) := by
  simp [displayMembers, List.intercalate]

/-! ## Words and domains -/

/-- A word as it is written. -/
def Word.display : Word → Text
  | .atom text => text
  | .quoted content => quote content

/-- A word as it is meant. -/
def Word.content : Word → Text
  | .atom text => text
  | .quoted content => content

/-- The words of a phrase as they are written, with blanks between them. -/
def displayPhrase (words : List Word) : Text := [' '].intercalate (words.map Word.display)

/-- The labels of a domain, with periods between them. -/
def Domain.text (labels : Domain) : Text := ['.'].intercalate labels

/-- Domains as they are written, each behind an at sign. -/
def routeText (domains : List Domain) : Text := domains.flatMap fun labels => '@' :: labels.text

/-! ## Address specifications -/

namespace AddrSpec

/-- The last domain, or the empty text if there is none. -/
def finalDomain (spec : AddrSpec) : Text := (spec.domains.getLast?.map Domain.text).getD []

/-- The words, each written in one way, then the relays, then what a function makes of the final
domain. -/
def write (f : Text → Text) (word : Word → Text) (spec : AddrSpec) : Text :=
  ['.'].intercalate (spec.localPart.map word) ++ routeText spec.domains.dropLast ++
    '@' :: f spec.finalDomain

/-- The specification as a field shows it. -/
def display (f : Text → Text) : AddrSpec → Text := write f Word.display

/-- The specification as an address on a line of its own. -/
def line (f : Text → Text) (spec : AddrSpec) : Text := write f Word.content spec ++ ['\n']

/-- The specification in angle brackets. -/
def displayAngle (f : Text → Text) (spec : AddrSpec) : Text := '<' :: spec.display f ++ ['>']

end AddrSpec

/-! ## Mailboxes -/

namespace Mailbox

/-- The address specification of a mailbox. -/
def spec : Mailbox → AddrSpec
  | .plain spec => spec.body
  | .angle _ spec => spec.body

/-- The mailbox as a field shows it, without the comments that may still move. -/
def display (f : Text → Text) : Mailbox → Text
  | .plain spec => spec.body.display f
  | .angle none spec => spec.display (AddrSpec.displayAngle f)
  | .angle (some name) spec =>
      name.display displayPhrase ++ ' ' :: spec.display (AddrSpec.displayAngle f)

/-- The comments that are written behind all else that belongs to the mailbox. -/
def deferred : Mailbox → List Text
  | .plain spec => spec.comments
  | .angle _ _ => []

/-- The mailbox as a field shows it. -/
def written (f : Text → Text) (mailbox : Mailbox) : Text :=
  mailbox.display f ++ commentText mailbox.deferred

/-- The line of a mailbox. -/
def canonical (f : Text → Text) (mailbox : Mailbox) : Text := mailbox.spec.line f

end Mailbox

/-! ## Groups and lists -/

/-- A group as a field shows it.  The comments of its name are left out. -/
def Group.display (f : Text → Text) (group : Group) : Text :=
  displayPhrase group.name.body ++ ':' :: ' ' :: displayMembers (Mailbox.written f) group.members ++
    commentText group.comments ++ [';']

/-- The lines of the mailboxes of a group. -/
def Group.canonical (f : Text → Text) (group : Group) : Text :=
  group.members.flatMap fun member => member.body.canonical f

namespace Address

/-- The mailboxes of an address, in order. -/
def mailboxes : Address → List Mailbox
  | .group part => part.members.map Commented.body
  | .mailbox part => [part]

/-- The address as a field shows it, without the comments that may still move. -/
def display (f : Text → Text) : Address → Text
  | .group part => part.display f
  | .mailbox part => part.display f

/-- The comments that are written behind all else that belongs to the address. -/
def deferred : Address → List Text
  | .group _ => []
  | .mailbox part => part.deferred

/-- The address as a field shows it. -/
def written (f : Text → Text) (address : Address) : Text :=
  address.display f ++ commentText address.deferred

/-- The lines of the mailboxes of an address. -/
def canonical (f : Text → Text) : Address → Text
  | .group part => part.canonical f
  | .mailbox part => part.canonical f

end Address

namespace AddressList

/-- The mailboxes of a field, in order. -/
def mailboxes (members : AddressList) : List Mailbox :=
  members.flatMap fun member => member.body.mailboxes

/-- The display form of a field. -/
def display (f : Text → Text) (members : AddressList) : Text :=
  displayMembers (Address.written f) members

/-- The canonical form of a field, a line for each mailbox. -/
def canonical (f : Text → Text) (members : AddressList) : Text :=
  members.flatMap fun member => member.body.canonical f

end AddressList

/-! ## One line for each mailbox -/

theorem Address.canonical_eq_flatMap (f : Text → Text) (address : Address) :
    address.canonical f = address.mailboxes.flatMap (Mailbox.canonical f) := by
  cases address with
  | group part => simp [canonical, mailboxes, Group.canonical, List.flatMap_map]
  | mailbox part => simp [canonical, mailboxes]

theorem AddressList.canonical_eq_flatMap (f : Text → Text) (members : AddressList) :
    members.canonical f = members.mailboxes.flatMap (Mailbox.canonical f) := by
  simp [canonical, mailboxes, Address.canonical_eq_flatMap, List.flatMap_assoc]

example : AddrSpec.line id ⟨[.quoted "a b".toList], [["x".toList], ["y".toList, "z".toList]]⟩ =
    "a b@x@y.z\n".toList := by
  decide

end MailAddress
