import MailAddress.Canonicalization
import MailAddress.Proofs.Forms.Parts

/-!
# What a display says

The display of a field is not the field.  Words are quoted only if they have to be, a missing domain
is the default host, routes are gone, and comments have moved behind the part they were in.  This is
the list that a display is the display of.  Comments behind a mailbox without brackets are its own,
and those behind brackets are not.  Those between a name and its brackets stand within the brackets,
so that they move once more in the next display.

What a list *settles* to has the same canonical form.  It has the same display too, if no name of a
mailbox has comments, which holds of every list that has settled.
-/

namespace MailAddress

open MailAddress.Derivation

variable {allowed : Text → Prop} {host : Domain}

/-! ## Settling -/

/-- A word that needs no quotes is an atom. -/
def Word.settle : Word → Word
  | .atom text => .atom text
  | .quoted content => if isAtom content then .atom content else .quoted content

/-- A specification without a domain gets the host. -/
def AddrSpec.settle (host : Domain) (spec : AddrSpec) : AddrSpec :=
  ⟨spec.localPart.map Word.settle, if spec.domains = [] then [host] else spec.domains⟩

/-- A mailbox and the comments behind it. -/
def Mailbox.settle (host : Domain) (member : Commented Mailbox) : Commented Mailbox :=
  match member.body with
  | .plain spec => ⟨.plain ⟨spec.body.settle host, spec.comments ++ member.comments⟩, []⟩
  | .angle none spec => ⟨.angle none ⟨spec.body.settle host, []⟩, spec.comments ++ member.comments⟩
  | .angle (some name) spec =>
      ⟨.angle (some ⟨name.body.map Word.settle, []⟩) ⟨spec.body.settle host, name.comments⟩,
        spec.comments ++ member.comments⟩

/-- A group, whose name loses its comments. -/
def Group.settle (host : Domain) (group : Group) : Group :=
  ⟨⟨group.name.body.map Word.settle, []⟩, group.members.map (Mailbox.settle host), group.comments⟩

/-- A member of a field and the comments behind it. -/
def Address.settle (host : Domain) (member : Commented Address) : Commented Address :=
  match member.body with
  | .group part => ⟨.group (part.settle host), member.comments⟩
  | .mailbox part =>
      let settled := Mailbox.settle host ⟨part, member.comments⟩
      ⟨.mailbox settled.body, settled.comments⟩

/-- The list that the display of a list is read as. -/
def AddressList.settle (host : Domain) (list : AddressList) : AddressList :=
  list.map (Address.settle host)

/-! ## Canonical forms stay -/

/-- The function that puts the host where no domain is. -/
abbrev orHost (host : Domain) : Text → Text := (Canonicalization.defaultHost host.text).apply

theorem orHost_of_ne_nil {text : Text} (some : text ≠ []) : orHost host text = text := by
  cases text with
  | nil => exact absurd rfl some
  | cons c text => rfl

theorem orHost_text : orHost host host.text = host.text := by
  cases empty : host.text with
  | nil => simp [Canonicalization.apply, empty]
  | cons c text => rfl

/-- Without a host, a missing domain stays missing. -/
theorem orHost_nil : orHost [] = id := by
  funext domain
  cases domain <;> rfl

@[simp] theorem Word.content_settle (word : Word) : word.settle.content = word.content := by
  cases word with
  | atom text => rfl
  | quoted content =>
      rw [settle]
      split <;> rfl

@[simp] theorem Word.display_settle (word : Word) : word.settle.display = word.display := by
  cases word with
  | atom text => rfl
  | quoted content =>
      rw [settle]
      split
      next atom => simp [display, quote, atom]
      next => rfl

/-- The final domain, with the host in place of none, and the relays stay. -/
theorem AddrSpec.write_settle (word : Word → Text) (same : ∀ w, word w.settle = word w)
    (spec : AddrSpec) :
    (spec.settle host).write (orHost host) word = spec.write (orHost host) word := by
  have words : (spec.settle host).localPart.map word = spec.localPart.map word := by
    simp [settle, same]
  rw [write, write, words]
  by_cases none : spec.domains = []
  · simp [settle, none, finalDomain, routeText, orHost_text, Canonicalization.apply]
  · simp [settle, none, finalDomain]

theorem AddrSpec.line_settle (spec : AddrSpec) :
    (spec.settle host).line (orHost host) = spec.line (orHost host) := by
  rw [line, line, write_settle Word.content Word.content_settle]

theorem AddrSpec.display_settle (spec : AddrSpec) :
    (spec.settle host).display (orHost host) = spec.display (orHost host) :=
  write_settle Word.display Word.display_settle spec

theorem AddrSpec.displayAngle_settle (spec : AddrSpec) :
    (spec.settle host).displayAngle (orHost host) = spec.displayAngle (orHost host) := by
  rw [displayAngle, displayAngle, display_settle]

theorem Mailbox.canonical_settle (member : Commented Mailbox) :
    (settle host member).body.canonical (orHost host) = member.body.canonical (orHost host) := by
  obtain ⟨mailbox, comments⟩ := member
  cases mailbox with
  | plain spec => exact spec.body.line_settle
  | angle name spec => cases name <;> exact spec.body.line_settle

theorem Address.canonical_settle (member : Commented Address) :
    (settle host member).body.canonical (orHost host) = member.body.canonical (orHost host) := by
  obtain ⟨address, comments⟩ := member
  cases address with
  | group part =>
      simp only [settle, canonical, Group.canonical, Group.settle, List.flatMap_map,
        Mailbox.canonical_settle]
  | mailbox part => exact Mailbox.canonical_settle ⟨part, comments⟩

/-- Settling changes no line. -/
theorem AddressList.canonical_settle (list : AddressList) :
    (list.settle host).canonical (orHost host) = list.canonical (orHost host) := by
  simp only [canonical, settle, List.flatMap_map, Address.canonical_settle]

/-! ## Members as they are written -/

section Written

variable (f : Text → Text) (comments : List Text)

theorem commentText_append (first second : List Text) :
    commentText (first ++ second) = commentText first ++ commentText second :=
  List.flatMap_append

theorem Mailbox.display_plain (spec : Commented AddrSpec) :
    Commented.display (written f) ⟨.plain spec, comments⟩ =
      spec.body.display f ++ commentText (spec.comments ++ comments) := by
  simp [Commented.display, written, display, deferred, commentText_append]

theorem Mailbox.display_angle (spec : Commented AddrSpec) :
    Commented.display (written f) ⟨.angle none spec, comments⟩ =
      spec.body.displayAngle f ++ commentText (spec.comments ++ comments) := by
  simp [Commented.display, written, display, deferred, commentText]

theorem Mailbox.display_named (name : Commented (List Word)) (spec : Commented AddrSpec) :
    Commented.display (written f) ⟨.angle (some name) spec, comments⟩ =
      displayPhrase name.body ++ (commentText name.comments ++ ' ' ::
        (spec.body.displayAngle f ++ commentText (spec.comments ++ comments))) := by
  simp [Commented.display, written, display, deferred, commentText]

theorem Address.display_group (group : Group) :
    Commented.display (written f) ⟨.group group, comments⟩ =
      displayPhrase group.name.body ++ ':' :: ' ' ::
        (displayMembers (Mailbox.written f) group.members ++ commentText group.comments ++
          ';' :: commentText comments) := by
  simp [Commented.display, written, display, deferred, Group.display, commentText]

end Written

/-! ## Displays stay once comments have moved -/

/-- A mailbox whose name has no comments. -/
def Mailbox.IsSettled : Mailbox → Prop
  | .plain _ => True
  | .angle none _ => True
  | .angle (some name) _ => name.comments = []

theorem displayPhrase_settle (words : List Word) :
    displayPhrase (words.map Word.settle) = displayPhrase words := by
  have same : Word.display ∘ Word.settle = Word.display := funext Word.display_settle
  rw [displayPhrase, displayPhrase, List.map_map, same]

theorem Mailbox.isSettled_settle (member : Commented Mailbox) :
    (settle host member).body.IsSettled := by
  obtain ⟨mailbox, comments⟩ := member
  cases mailbox with
  | plain spec => trivial
  | angle name spec =>
      cases name with
      | none => trivial
      | some name => rfl

theorem Mailbox.display_settle (member : Commented Mailbox) (settled : member.body.IsSettled) :
    Commented.display (written (orHost host)) (settle host member) =
      Commented.display (written (orHost host)) member := by
  obtain ⟨mailbox, comments⟩ := member
  cases mailbox with
  | plain spec =>
      rw [settle, display_plain, display_plain, AddrSpec.display_settle, List.append_nil]
  | angle name spec =>
      cases name with
      | none =>
          rw [settle, display_angle, display_angle, AddrSpec.displayAngle_settle, List.nil_append]
      | some name =>
          have no_comments : name.comments = [] := settled
          rw [settle, display_named, display_named, AddrSpec.displayAngle_settle,
            displayPhrase_settle, no_comments, List.nil_append]

theorem Group.display_settle {group : Group}
    (settled : ∀ member ∈ group.members, member.body.IsSettled) :
    (group.settle host).display (orHost host) = group.display (orHost host) := by
  have members : (group.members.map (Mailbox.settle host)).map
      (Commented.display (Mailbox.written (orHost host))) =
        group.members.map (Commented.display (Mailbox.written (orHost host))) := by
    rw [List.map_map]
    exact List.map_congr_left fun member inside =>
      Mailbox.display_settle member (settled member inside)
  simp only [display, settle, displayPhrase_settle, displayMembers, members]

theorem Address.display_settle {member : Commented Address}
    (settled : ∀ mailbox ∈ member.body.mailboxes, mailbox.IsSettled) :
    Commented.display (written (orHost host)) (settle host member) =
      Commented.display (written (orHost host)) member := by
  obtain ⟨address, comments⟩ := member
  cases address with
  | group part =>
      have same : (part.settle host).display (orHost host) = part.display (orHost host) :=
        Group.display_settle fun member inside =>
          settled member.body (List.mem_map_of_mem inside)
      simp only [Commented.display, written, settle, display, deferred, same]
  | mailbox part =>
      exact Mailbox.display_settle ⟨part, comments⟩ (settled part List.mem_cons_self)

/-- The mailboxes of a settled list are settled ones. -/
theorem AddressList.exists_settle {list : AddressList} {mailbox : Mailbox}
    (inside : mailbox ∈ (list.settle host).mailboxes) :
    ∃ member, mailbox = (Mailbox.settle host member).body := by
  rw [mailboxes, settle, List.flatMap_map, List.mem_flatMap] at inside
  obtain ⟨⟨address, comments⟩, _, within⟩ := inside
  cases address with
  | group part =>
      simp only [Address.settle, Address.mailboxes, Group.settle, List.map_map, List.mem_map]
        at within
      obtain ⟨member, _, rfl⟩ := within
      exact ⟨member, rfl⟩
  | mailbox part => exact ⟨⟨part, comments⟩, List.mem_singleton.1 within⟩

theorem AddressList.isSettled_settle (list : AddressList) :
    ∀ mailbox ∈ (list.settle host).mailboxes, mailbox.IsSettled := by
  intro mailbox inside
  obtain ⟨member, rfl⟩ := exists_settle inside
  exact Mailbox.isSettled_settle member

/-- No settled specification is without a domain. -/
theorem AddrSpec.domains_settle_ne_nil (spec : AddrSpec) : (spec.settle host).domains ≠ [] := by
  rw [settle]
  split
  next => exact List.cons_ne_nil _ _
  next some => exact some

theorem AddressList.domains_settle_ne_nil (list : AddressList) :
    ∀ mailbox ∈ (list.settle host).mailboxes, mailbox.spec.domains ≠ [] := by
  intro mailbox inside
  obtain ⟨⟨mailbox, comments⟩, rfl⟩ := exists_settle inside
  cases mailbox with
  | plain spec => exact spec.body.domains_settle_ne_nil
  | angle name spec => cases name <;> exact spec.body.domains_settle_ne_nil

/-- A list without comments in the names of its mailboxes keeps its display. -/
theorem AddressList.display_settle {list : AddressList}
    (settled : ∀ mailbox ∈ list.mailboxes, mailbox.IsSettled) :
    (list.settle host).display (orHost host) = list.display (orHost host) := by
  rw [display, display, displayMembers, displayMembers, settle, List.map_map]
  congr 1
  refine List.map_congr_left fun member inside => Address.display_settle fun mailbox within => ?_
  exact settled mailbox (List.mem_flatMap.2 ⟨member, inside, within⟩)

/-! ## Well-formed parts stay so -/

theorem Word.IsFormed.settle {word : Word} (formed : word.IsFormed allowed) :
    word.settle.IsFormed allowed := by
  cases word with
  | atom text => exact formed
  | quoted content =>
      rw [Word.settle]
      split
      next atom => exact atom
      next => exact formed

theorem AreWords.settle {words : List Word} (formed : AreWords allowed words) :
    AreWords allowed (words.map Word.settle) := by
  refine ⟨by simpa using formed.1, List.forall_mem_map.2 fun word member => ?_⟩
  exact (formed.2 word member).settle

theorem AreComments.append {first second : List Text} (formed : AreComments first)
    (others : AreComments second) : AreComments (first ++ second) :=
  List.forall_mem_append.2 ⟨formed, others⟩

theorem AreComments.nil : AreComments [] := fun _ member => absurd member List.not_mem_nil

theorem AddrSpec.IsFormed.settle {spec : AddrSpec} (formed : spec.IsFormed allowed)
    (domain : spec.domains = [] → host.IsFormed allowed) : (spec.settle host).IsFormed allowed := by
  refine ⟨formed.words.settle, ?_⟩
  by_cases none : spec.domains = []
  · simpa [AddrSpec.settle, none] using domain none
  · simpa [AddrSpec.settle, none] using formed.domains

theorem Mailbox.IsFormed.settle (member : Commented Mailbox)
    (formed : member.body.IsFormed allowed ∧ AreComments member.comments)
    (domain : member.body.spec.domains = [] → host.IsFormed allowed) :
    (Mailbox.settle host member).body.IsFormed allowed ∧
      AreComments (Mailbox.settle host member).comments := by
  obtain ⟨mailbox, comments⟩ := member
  obtain ⟨formed, after⟩ := formed
  cases mailbox with
  | plain spec =>
      obtain ⟨spec_formed, inside⟩ := formed
      exact ⟨⟨spec_formed.settle domain, inside.append after⟩, .nil⟩
  | angle name spec =>
      cases name with
      | none =>
          obtain ⟨spec_formed, inside⟩ := formed
          exact ⟨⟨spec_formed.settle domain, .nil⟩, inside.append after⟩
      | some name =>
          obtain ⟨⟨words, before⟩, spec_formed, inside⟩ := formed
          exact ⟨⟨⟨words.settle, .nil⟩, spec_formed.settle domain, before⟩, inside.append after⟩

theorem Group.IsFormed.settle {group : Group} (formed : group.IsFormed allowed)
    (domain : ∀ member ∈ group.members, member.body.spec.domains = [] → host.IsFormed allowed) :
    (group.settle host).IsFormed allowed := by
  refine ⟨formed.name.settle, ?_, formed.comments, ?_⟩
  · refine List.forall_mem_map.2 fun member inside => ?_
    exact Mailbox.IsFormed.settle member (formed.members member inside) (domain member inside)
  · rcases formed.apart with none | none
    · exact .inl (by simp [Group.settle, none])
    · exact .inr none

theorem Address.IsFormed.settle {member : Commented Address}
    (formed : member.body.IsFormed allowed ∧ AreComments member.comments)
    (domain : ∀ mailbox ∈ member.body.mailboxes, mailbox.spec.domains = [] →
      host.IsFormed allowed) :
    (Address.settle host member).body.IsFormed allowed ∧
      AreComments (Address.settle host member).comments := by
  obtain ⟨address, comments⟩ := member
  cases address with
  | group part =>
      refine ⟨Group.IsFormed.settle formed.1 fun member inside => ?_, formed.2⟩
      exact domain member.body (List.mem_map_of_mem inside)
  | mailbox part =>
      exact Mailbox.IsFormed.settle ⟨part, comments⟩ formed (domain part List.mem_cons_self)

theorem AddressList.IsFormed.settle {list : AddressList} (formed : list.IsFormed allowed)
    (domain : ∀ mailbox ∈ list.mailboxes, mailbox.spec.domains = [] → host.IsFormed allowed) :
    (list.settle host).IsFormed allowed := by
  have some : list.settle host ≠ [] := by simpa [AddressList.settle] using formed.1
  refine ⟨some, List.forall_mem_map.2 fun member inside => ?_⟩
  refine Address.IsFormed.settle (formed.2 member inside) fun mailbox within => ?_
  exact domain mailbox (List.mem_flatMap.2 ⟨member, inside, within⟩)

end MailAddress
