import MailAddress.Proofs.Forms.Lines
import MailAddress.Proofs.Forms.Stability
import MailAddress.Proofs.Lexing.Languages

/-!
# Composed fields

Whoever writes a field has words, domains, mailboxes and groups in mind.  A word may be any text on
one line, with symbols, quotes and backslashes in it, or empty.  Written down with `quote`, with
periods, at signs, brackets, commas and colons between the parts, the field is read as what it was
written for.  It is its own display, and it has the addresses that were meant and no others.

```
spec    = words with "." between, and "@" domain for each domain
mailbox = spec / "<" spec ">" / words with " " between, " <" spec ">"
group   = words with " " between, ": ", mailboxes with ", " between, ";"
field   = entries with ", " between
```
-/

namespace MailAddress

open MailAddress.Derivation

namespace Draft

/-! ## What a field is composed of -/

/-- A text on one line. -/
abbrev OneLine := { text : Text // '\n' ∉ text }

/-- A label of a domain. -/
structure Label where
  /-- Its text. -/
  text : Text
  /-- It is an atom or a domain literal. -/
  form : text ∈ LexicalGrammar.atom ∨ text ∈ LexicalGrammar.domainLiteral
  /-- It is on one line. -/
  free : '\n' ∉ text

/-- A mailbox to be written. -/
structure Recipient where
  /-- The words of its name, if it has one. -/
  name : List OneLine
  /-- Whether its address stands in brackets if it has no name. -/
  brackets : Bool
  /-- The words of the local part. -/
  words : List OneLine
  /-- There is a word. -/
  words_ne : words ≠ []
  /-- The domains, the relays first. -/
  domains : List (List Label)
  /-- There is a domain. -/
  domains_ne : domains ≠ []
  /-- There is a label in each. -/
  labels_ne : ∀ labels ∈ domains, labels ≠ []

/-- A member of a field to be written. -/
inductive Entry where
  /-- A mailbox. -/
  | mailbox (recipient : Recipient)
  /-- A name and mailboxes. -/
  | group (name : List OneLine) (name_ne : name ≠ []) (members : List Recipient)

/-! ## Written forms -/

/-- A word as it is written. -/
def printWord (word : OneLine) : Text := quote word.val

/-- Words with blanks between them. -/
def printPhrase (words : List OneLine) : Text := [' '].intercalate (words.map printWord)

/-- A domain as it is written. -/
def printDomain (labels : List Label) : Text := ['.'].intercalate (labels.map Label.text)

namespace Recipient

/-- The domains, each behind an at sign. -/
def printDomains (recipient : Recipient) : Text :=
  recipient.domains.flatMap fun labels => '@' :: printDomain labels

/-- The address specification as it is written. -/
def printSpec (recipient : Recipient) : Text :=
  ['.'].intercalate (recipient.words.map printWord) ++ recipient.printDomains

/-- The address specification in brackets. -/
def printAngle (recipient : Recipient) : Text := '<' :: recipient.printSpec ++ ['>']

/-- The mailbox as it is written. -/
def print (recipient : Recipient) : Text :=
  match recipient.name, recipient.brackets with
  | [], false => recipient.printSpec
  | [], true => recipient.printAngle
  | word :: words, _ => printPhrase (word :: words) ++ ' ' :: recipient.printAngle

/-- The address that is meant, with the words as they are. -/
def address (recipient : Recipient) : Text :=
  ['.'].intercalate (recipient.words.map Subtype.val) ++ recipient.printDomains

end Recipient

namespace Entry

/-- The entry as it is written. -/
def print : Entry → Text
  | .mailbox recipient => recipient.print
  | .group name _ members =>
      printPhrase name ++ ':' :: ' ' ::
        [',', ' '].intercalate (members.map Recipient.print) ++ [';']

/-- The mailboxes of an entry. -/
def recipients : Entry → List Recipient
  | .mailbox recipient => [recipient]
  | .group _ _ members => members

/-- The addresses that are meant. -/
def addresses (entry : Entry) : List Text := entry.recipients.map Recipient.address

end Entry

/-- A field as it is written. -/
def print (entries : List Entry) : Text := [',', ' '].intercalate (entries.map Entry.print)

/-! ## Composed parts -/

/-- The part that a word is written for. -/
def asWord (word : OneLine) : Word := .quoted word.val

namespace Recipient

/-- The specification that is written. -/
def asSpec (recipient : Recipient) : AddrSpec :=
  ⟨recipient.words.map asWord, recipient.domains.map (List.map Label.text)⟩

/-- The mailbox that is written. -/
def asMailbox (recipient : Recipient) : Mailbox :=
  match recipient.name, recipient.brackets with
  | [], false => .plain ⟨recipient.asSpec, []⟩
  | [], true => .angle none ⟨recipient.asSpec, []⟩
  | word :: words, _ => .angle (some ⟨(word :: words).map asWord, []⟩) ⟨recipient.asSpec, []⟩

/-- The mailbox, with no comments behind it. -/
def asMember (recipient : Recipient) : Commented Mailbox := ⟨recipient.asMailbox, []⟩

end Recipient

/-- The address that is written. -/
def Entry.asAddress : Entry → Address
  | .mailbox recipient => .mailbox recipient.asMailbox
  | .group name _ members => .group ⟨⟨name.map asWord, []⟩, members.map Recipient.asMember, []⟩

/-- The list that is written. -/
def asList (entries : List Entry) : AddressList := entries.map fun entry => ⟨entry.asAddress, []⟩

variable (recipient : Recipient) (entry : Entry) (entries : List Entry)

theorem Recipient.spec_asMailbox : recipient.asMailbox.spec = recipient.asSpec := by
  unfold asMailbox
  split <;> rfl

theorem Entry.mailboxes_asAddress :
    entry.asAddress.mailboxes = entry.recipients.map Recipient.asMailbox := by
  cases entry with
  | mailbox recipient => rfl
  | group name _ members =>
      rw [asAddress, Address.mailboxes, List.map_map]
      rfl

theorem mailboxes_asList :
    (asList entries).mailboxes =
      (entries.flatMap Entry.recipients).map Recipient.asMailbox := by
  simp only [AddressList.mailboxes, asList, List.flatMap_map, Entry.mailboxes_asAddress,
    List.map_flatMap]

/-! ## Written forms are displays -/

/-- With a domain, a specification is written with all its domains behind the words. -/
theorem write_id {spec : AddrSpec} (some : spec.domains ≠ []) (word : Word → Text) :
    spec.write id word =
      ['.'].intercalate (spec.localPart.map word) ++ routeText spec.domains := by
  obtain ⟨relays, final, eq⟩ := (List.eq_nil_or_concat spec.domains).resolve_left some
  simp [AddrSpec.write, AddrSpec.finalDomain, eq, routeText]

theorem Recipient.domains_asSpec_ne_nil : recipient.asSpec.domains ≠ [] := by
  simpa [asSpec] using recipient.domains_ne

theorem Recipient.routeText_asSpec :
    routeText recipient.asSpec.domains = recipient.printDomains := by
  simp only [routeText, asSpec, List.flatMap_map]
  rfl

theorem Recipient.display_asSpec : recipient.asSpec.display id = recipient.printSpec := by
  rw [AddrSpec.display, write_id recipient.domains_asSpec_ne_nil, recipient.routeText_asSpec,
    printSpec, asSpec, List.map_map]
  rfl

theorem Recipient.displayAngle_asSpec :
    recipient.asSpec.displayAngle id = recipient.printAngle := by
  rw [AddrSpec.displayAngle, recipient.display_asSpec, printAngle]

theorem displayPhrase_asWord (words : List OneLine) :
    displayPhrase (words.map asWord) = printPhrase words := by
  rw [displayPhrase, List.map_map, printPhrase]
  rfl

theorem Recipient.display_asMember :
    Commented.display (Mailbox.written id) recipient.asMember = recipient.print := by
  have none : commentText [] = [] := rfl
  unfold asMember asMailbox print
  split
  · rw [Mailbox.display_plain, recipient.display_asSpec, List.append_nil, none, List.append_nil]
  · rw [Mailbox.display_angle, recipient.displayAngle_asSpec, List.append_nil, none,
      List.append_nil]
  · rw [Mailbox.display_named, displayPhrase_asWord, recipient.displayAngle_asSpec,
      List.append_nil, none, List.append_nil, List.nil_append]

theorem Entry.display_asAddress :
    Commented.display (Address.written id) ⟨entry.asAddress, []⟩ = entry.print := by
  cases entry with
  | mailbox recipient => exact recipient.display_asMember
  | group name _ members =>
      have none : commentText [] = [] := rfl
      have body : displayMembers (Mailbox.written id) (members.map Recipient.asMember) =
          [',', ' '].intercalate (members.map Recipient.print) := by
        rw [displayMembers, List.map_map]
        congr 1
        exact List.map_congr_left fun member _ => member.display_asMember
      rw [asAddress, Address.display_group, displayPhrase_asWord, body, none, List.append_nil,
        print]
      simp

theorem display_asList : (asList entries).display id = print entries := by
  rw [AddressList.display, displayMembers, asList, List.map_map, print]
  congr 1
  exact List.map_congr_left fun entry _ => entry.display_asAddress

theorem Recipient.entry_asSpec : Derivation.entry id recipient.asSpec = recipient.address := by
  have line := line_eq id recipient.asSpec
  rw [AddrSpec.line, Derivation.line] at line
  rw [← List.append_cancel_right line, write_id recipient.domains_asSpec_ne_nil,
    recipient.routeText_asSpec, address, asSpec, List.map_map]
  rfl

/-! ## Composed parts are well-formed -/

theorem isFormed_asWord (word : OneLine) : (asWord word).IsFormed ('\n' ∉ ·) := word.property

theorem areWords_asWord {words : List OneLine} (some : words ≠ []) :
    AreWords ('\n' ∉ ·) (words.map asWord) :=
  ⟨by simpa using some, List.forall_mem_map.2 fun word _ => isFormed_asWord word⟩

theorem Label.isLabelText (label : Label) : IsLabelText ('\n' ∉ ·) label.text := by
  refine ⟨label.form.imp LexicalGrammar.mem_atom_iff.1 fun literal => ?_, label.free⟩
  exact LexicalGrammar.isLexeme_iff.2 literal

theorem Recipient.isFormed_asSpec : recipient.asSpec.IsFormed ('\n' ∉ ·) := by
  refine ⟨areWords_asWord recipient.words_ne, List.forall_mem_map.2 fun labels inside => ?_⟩
  have some : labels.map Label.text ≠ [] := by simpa using recipient.labels_ne labels inside
  exact ⟨some, List.forall_mem_map.2 fun label _ => label.isLabelText⟩

theorem Recipient.isFormed_asMailbox : recipient.asMailbox.IsFormed ('\n' ∉ ·) := by
  unfold asMailbox
  split
  · exact ⟨recipient.isFormed_asSpec, .nil⟩
  · exact ⟨recipient.isFormed_asSpec, .nil⟩
  · exact ⟨⟨areWords_asWord (List.cons_ne_nil _ _), .nil⟩, recipient.isFormed_asSpec, .nil⟩

theorem Entry.isFormed_asAddress : entry.asAddress.IsFormed ('\n' ∉ ·) := by
  cases entry with
  | mailbox recipient => exact recipient.isFormed_asMailbox
  | group name name_ne members =>
      refine ⟨areWords_asWord name_ne, List.forall_mem_map.2 fun member _ => ?_, .nil, .inr rfl⟩
      exact ⟨member.isFormed_asMailbox, .nil⟩

theorem isFormed_asList (some : entries ≠ []) : (asList entries).IsFormed ('\n' ∉ ·) := by
  refine ⟨by simpa [asList] using some, List.forall_mem_map.2 fun entry _ => ?_⟩
  exact ⟨entry.isFormed_asAddress, .nil⟩

theorem Recipient.isSettled_asMailbox : recipient.asMailbox.IsSettled := by
  unfold asMailbox
  split <;> trivial

theorem domains_ne_nil_of_mem {mailbox : Mailbox} (inside : mailbox ∈ (asList entries).mailboxes) :
    mailbox.spec.domains ≠ [] := by
  rw [mailboxes_asList] at inside
  obtain ⟨recipient, _, rfl⟩ := List.mem_map.1 inside
  rw [recipient.spec_asMailbox]
  exact recipient.domains_asSpec_ne_nil

theorem isSettled_of_mem {mailbox : Mailbox} (inside : mailbox ∈ (asList entries).mailboxes) :
    mailbox.IsSettled := by
  rw [mailboxes_asList] at inside
  obtain ⟨recipient, _, rfl⟩ := List.mem_map.1 inside
  exact recipient.isSettled_asMailbox

end Draft

open Draft

/-! ## Written fields are read back -/

namespace Draft

/-- There is no line feed in what is meant, so none gets into an address. -/
theorem Recipient.not_mem_address (recipient : Recipient) : '\n' ∉ recipient.address := by
  have formed : recipient.asMailbox.spec.IsFormed ('\n' ∉ ·) := by
    rw [recipient.spec_asMailbox]
    exact recipient.isFormed_asSpec
  have unbroken : recipient.asMailbox.IsUnbroken :=
    ⟨fun content inside => formed.words.2 _ inside, fun labels inside label within =>
      ((formed.domains labels inside).2 label within).2⟩
  have free := (Mailbox.IsFormed.isUnbroken_iff formed).2 unbroken
  rwa [recipient.spec_asMailbox, recipient.entry_asSpec] at free

theorem canonical_asList (entries : List Entry) :
    (asList entries).canonical id = (entries.flatMap Entry.addresses).flatMap (· ++ ['\n']) := by
  have addresses : entries.flatMap Entry.addresses =
      (entries.flatMap Entry.recipients).map Recipient.address := by
    rw [List.map_flatMap]
    rfl
  rw [canonical_eq_lines, mailboxes_asList, addresses, List.flatMap_map, List.flatMap_map]
  refine List.flatMap_congr fun recipient _ => ?_
  rw [Derivation.line, recipient.spec_asMailbox, recipient.entry_asSpec]

/-- The lines of the addresses that were meant are these addresses. -/
theorem splitOn_addresses (entries : List Entry) :
    (entries.flatMap Entry.addresses).flatMap (·.splitOn '\n') =
      entries.flatMap Entry.addresses := by
  have whole : ∀ address ∈ entries.flatMap Entry.addresses, address.splitOn '\n' = [address] := by
    intro address inside
    obtain ⟨entry, _, within⟩ := List.mem_flatMap.1 inside
    obtain ⟨recipient, _, rfl⟩ := List.mem_map.1 within
    exact List.splitOn_eq_singleton recipient.not_mem_address
  rw [List.flatMap_congr whole, List.flatMap_singleton']

end Draft

/-- A composed field is accepted.  It is its own display, and its addresses are those that were
meant, in order. -/
theorem parseField_print (entries : List Entry) (some : entries ≠ []) :
    (parseField id (print entries)).isAccepted = true ∧
      (parseField id (print entries)).display = print entries ∧
      (parseField id (print entries)).addresses = entries.flatMap Entry.addresses := by
  have pass : parseField (orHost []) ((asList entries).display (orHost [])) = .accepted
      (((asList entries).settle []).display (orHost [])) ((asList entries).canonical (orHost [])) :=
    parseField_display (isFormed_asList entries some) fun mailbox inside none =>
      absurd none (domains_ne_nil_of_mem entries inside)
  have settled : ((asList entries).settle []).display (orHost []) = print entries := by
    rw [AddressList.display_settle fun mailbox => isSettled_of_mem entries, orHost_nil,
      display_asList]
  rw [settled, orHost_nil, display_asList] at pass
  refine ⟨by rw [pass]; rfl, by rw [pass]; rfl, ?_⟩
  rw [pass, Parse.addresses, Parse.canonical, canonical_asList, splitOn_flatMap,
    List.dropLast_concat, splitOn_addresses]

/-- An atom as a label. -/
def Draft.Label.ofAtom (text : Text) (atom : isAtom text = true) (free : '\n' ∉ text) :
    Label :=
  ⟨text, .inl (LexicalGrammar.mem_atom_iff.2 atom), free⟩

/-- A literal as a label. -/
def Draft.Label.ofLiteral {tail : Text} (form : LiteralTail tail)
    (free : '\n' ∉ '[' :: tail) : Label :=
  ⟨'[' :: tail, .inr (LexicalGrammar.isLexeme_iff.1 (.domainLiteral form)), free⟩

/-- A group of two named mailboxes and behind it a mailbox with an empty word and a relay, with
symbols in the words. -/
def oddEntries : List Entry :=
  [.group [⟨"a;b".toList, by decide⟩] (by decide)
      [⟨[⟨"<x>,".toList, by decide⟩, ⟨['y'], by decide⟩], false, [⟨['"'], by decide⟩], by decide,
          [[.ofAtom ['h'] (by decide) (by decide),
            .ofLiteral (.text (.text rfl (.close .close)) : LiteralTail ['1', ']']) (by decide)]],
          by simp, by simp⟩,
        ⟨[⟨['z'], by decide⟩], true, [⟨['c'], by decide⟩], by decide,
          [[.ofAtom ['h'] (by decide) (by decide)]], by simp, by simp⟩],
    .mailbox ⟨[], true, [⟨[], by decide⟩, ⟨['\\'], by decide⟩], by decide,
      [[.ofAtom ['r'] (by decide) (by decide)], [.ofAtom ['h'] (by decide) (by decide)]],
      by simp, by simp⟩]

/-- The text of these entries. -/
def oddText : Text :=
  "\"a\\;b\": \"\\<x\\>\\,\" y <\"\\\"\"@h.[1]>, z <c@h>;, <\"\".\"\\\\\"@r@h>".toList

theorem parseField_print_of_oddEntries :
    (parseField id oddText).isAccepted = true ∧ (parseField id oddText).display = oddText ∧
      (parseField id oddText).addresses = ["\"@h.[1]".toList, "c@h".toList, ".\\@r@h".toList] := by
  have written : print oddEntries = oddText := by decide
  have meant : oddEntries.flatMap Entry.addresses =
    ["\"@h.[1]".toList, "c@h".toList, ".\\@r@h".toList] := by decide
  have read := parseField_print oddEntries (by simp [oddEntries])
  rwa [written, meant] at read

end MailAddress
