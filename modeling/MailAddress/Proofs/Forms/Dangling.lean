import MailAddress.Proofs.Forms.Display
import MailAddress.Proofs.Matching.AtSigns
import MailAddress.Proofs.Matching.Fields

/-!
# Displays with a missing domain

A specification without a domain is shown with an at sign all the same.  Without a host to stand
there, the sign *dangles*: over comments, a structural character follows it, or nothing.  A text with
such a sign is no list of addresses, whatever stands around the sign.
-/

namespace MailAddress

open MailAddress.Derivation Token

variable {α : Type} {text first rest : Text}

/-- A structural character comes first, or nothing. -/
def Halts (text : Text) : Prop := ∀ c ∈ text.head?, ∃ kind, Kind.ofStructural? c = some kind

/-- Tokens can be read up to an at sign that no label follows. -/
def Dangles (text : Text) : Prop :=
  ∃ before comments rest, text = before ++ '@' :: (commentText comments ++ rest) ∧
    ReadsTo (fun _ => True) before ∧ AreComments comments ∧ Halts rest

theorem halts_nil : Halts [] := by
  intro c head
  cases head

theorem halts_cons {c : Char} {kind : Kind} (found : Kind.ofStructural? c = some kind) :
    Halts (c :: text) := by
  intro d head
  cases head
  exact ⟨kind, found⟩

theorem Halts.append (halts : Halts first) (others : Halts rest) : Halts (first ++ rest) := by
  cases first with
  | nil => exact others
  | cons c first => exact halts

theorem Halts.endsAtom (halts : Halts text) : EndsAtom text := by
  cases text with
  | nil => exact endsAtom_nil
  | cons c text =>
      obtain ⟨kind, found⟩ := halts c rfl
      exact endsAtom_structural found text

namespace Dangles

theorem append (dangles : Dangles text) (halts : Halts rest) : Dangles (text ++ rest) := by
  obtain ⟨before, comments, behind, rfl, reads, formed, behind_halts⟩ := dangles
  exact ⟨before, comments, behind ++ rest, by simp, reads, formed, behind_halts.append halts⟩

theorem prepend (reads : ReadsTo (fun _ => True) first) (dangles : Dangles text)
    (ends : EndsAtom text) : Dangles (first ++ text) := by
  obtain ⟨before, comments, behind, rfl, before_reads, formed, halts⟩ := dangles
  have before_ends : EndsAtom before := by
    cases before with
    | nil => exact endsAtom_nil
    | cons c before => exact ends
  exact ⟨first ++ before, comments, behind, by simp,
    reads.append before_reads before_ends fun _ _ _ _ => trivial, formed, halts⟩

theorem structural {c : Char} {kind : Kind} (found : Kind.ofStructural? c = some kind)
    (dangles : Dangles text) : Dangles (c :: text) := by
  obtain ⟨before, comments, behind, rfl, reads, formed, halts⟩ := dangles
  exact ⟨c :: before, comments, behind, rfl, reads.structural found fun _ _ _ _ => trivial, formed,
    halts⟩

theorem blank (dangles : Dangles text) : Dangles (' ' :: text) := by
  obtain ⟨before, comments, behind, rfl, reads, formed, halts⟩ := dangles
  exact ⟨' ' :: before, comments, behind, rfl, reads.blank, formed, halts⟩

/-- What halts is read to the end of the text, or to a token that is no label. -/
theorem exists_lead_of_halts {offset : Nat} {tokens : List Token} (halts : Halts rest)
    (scanned : scan offset rest = .ok tokens) :
    ∃ kind, leadKind tokens = some kind ∧ kind ≠ .atom ∧ kind ≠ .domainLiteral := by
  cases rest with
  | nil =>
      cases scanned
      exact ⟨.endOfText, rfl, by decide, by decide⟩
  | cons c rest =>
      obtain ⟨kind, found⟩ := halts c rfl
      have carries := (Kind.symbol_of_ofStructural? found).2
      have other : kind ≠ .atom ∧ kind ≠ .domainLiteral ∧ kind ≠ .comment := by
        refine ⟨?_, ?_, ?_⟩ <;> rintro rfl <;> cases carries
      rw [scan_structural found] at scanned
      cases others : scan (offset + 1) rest with
      | error stuck =>
          rw [others] at scanned
          cases scanned
      | ok tokens =>
          rw [others] at scanned
          cases scanned
          exact ⟨kind, leadKind_cons_of_ne other.2.2, other.1, other.2.1⟩

/-- A text with a dangling sign is no list of addresses. -/
theorem not_isAddressList (dangles : Dangles text) {tokens : List Token}
    (lexed : tokenize text = .ok tokens) (list : AddressList) : ¬ IsAddressList tokens list := by
  intro derived
  obtain ⟨_, _, once⟩ := endsOnce_of_tokenize lexed
  obtain ⟨finish, run⟩ := derived.run
  have answered : Answered tokens :=
    Answers.addresses tokens (once.spells_of_matched (congrArg Run.outcome run))
  obtain ⟨before, comments, behind, rfl, reads, formed, halts⟩ := dangles
  have sign : ReadsTo (fun tokens => ∃ sign comments, tokens = sign :: comments ∧
      sign.kind = .atSign ∧ Comments comments) ('@' :: commentText comments) :=
    (reads_commentText formed).structural rfl fun sign tokens kind all =>
      ⟨sign, tokens, rfl, kind, all.1⟩
  have upTo : ReadsTo (fun tokens => ∃ front sign comments, tokens = front ++ sign :: comments ∧
      sign.kind = .atSign ∧ Comments comments) (before ++ '@' :: commentText comments) := by
    refine reads.append sign (endsAtom_cons (by decide)) ?_
    rintro front _ _ ⟨sign, comments, rfl, kind, all⟩
    exact ⟨front, sign, comments, rfl, kind, all⟩
  -- The tokens up to the sign do not depend on what follows it.
  obtain ⟨_, ⟨front, sign, between, rfl, kind, all⟩, scanned⟩ := upTo 0 behind halts.endsAtom
  have layout : before ++ '@' :: (commentText comments ++ behind) =
      before ++ '@' :: commentText comments ++ behind := by
    simp
  rw [layout, MailAddress.tokenize, scanned] at lexed
  cases others : scan (0 + (before ++ '@' :: commentText comments).length) behind with
  | error stuck =>
      rw [others] at lexed
      cases lexed
  | ok more =>
      rw [others] at lexed
      cases lexed
      obtain ⟨lead, lead_eq, no_atom, no_literal⟩ := exists_lead_of_halts halts others
      have eq : front ++ sign :: between ++ more = front ++ sign :: (between ++ more) := by simp
      rcases answered front sign (between ++ more) eq kind with found | found
      · rw [all.leadKind_append, lead_eq] at found
        exact no_atom (Option.some.inj found)
      · rw [all.leadKind_append, lead_eq] at found
        exact no_literal (Option.some.inj found)

end Dangles

/-! ## Displays without a host -/

/-- Without a host, a specification without a domain ends with its at sign. -/
theorem AddrSpec.display_of_no_domain {spec : AddrSpec} (none : spec.domains = []) :
    spec.display (orHost []) = ['.'].intercalate (spec.localPart.map Word.display) ++ ['@'] := by
  simp [AddrSpec.display, AddrSpec.write, none, AddrSpec.finalDomain, routeText,
    Canonicalization.apply, Domain.text, List.intercalate]

theorem dangles_plain {spec : Commented AddrSpec} {comments : List Text}
    (formed : spec.body.IsFormed ('\n' ∉ ·)) (inside : AreComments spec.comments)
    (after : AreComments comments) (none : spec.body.domains = []) :
    Dangles (Commented.display (Mailbox.written (orHost [])) ⟨.plain spec, comments⟩) := by
  rw [Mailbox.display_plain, AddrSpec.display_of_no_domain none]
  refine ⟨['.'].intercalate (spec.body.localPart.map Word.display), spec.comments ++ comments, [],
    by simp, (reads_localPart formed.words).mono fun _ _ => trivial, inside.append after, halts_nil⟩

/-- A closing bracket halts, whatever follows it. -/
theorem dangles_brackets {spec : AddrSpec} (formed : spec.IsFormed ('\n' ∉ ·))
    (none : spec.domains = []) (rest : Text) :
    Dangles (spec.displayAngle (orHost []) ++ rest) := by
  have inside : Dangles
      (['.'].intercalate (spec.localPart.map Word.display) ++ '@' :: '>' :: rest) :=
    ⟨_, [], '>' :: rest, rfl, (reads_localPart formed.words).mono fun _ _ => trivial, .nil,
      halts_cons rfl⟩
  have layout : spec.displayAngle (orHost []) ++ rest =
      '<' :: (['.'].intercalate (spec.localPart.map Word.display) ++ '@' :: '>' :: rest) := by
    simp [AddrSpec.displayAngle, AddrSpec.display_of_no_domain none]
  rw [layout]
  exact inside.structural rfl

theorem dangles_mailbox (member : Commented Mailbox)
    (formed : member.body.IsFormed ('\n' ∉ ·) ∧ AreComments member.comments)
    (none : member.body.spec.domains = []) :
    Dangles (Commented.display (Mailbox.written (orHost [])) member) := by
  obtain ⟨mailbox, comments⟩ := member
  obtain ⟨formed, after⟩ := formed
  cases mailbox with
  | plain spec => exact dangles_plain formed.1 formed.2 after none
  | angle name spec =>
      cases name with
      | none =>
          rw [Mailbox.display_angle]
          exact dangles_brackets formed.1 none _
      | some name =>
          obtain ⟨⟨words, before⟩, spec_formed, _⟩ := formed
          have target := (dangles_brackets spec_formed none
            (commentText (spec.comments ++ comments))).blank.prepend
              ((reads_commentText before).mono fun _ _ => trivial) (endsAtom_cons (by decide))
          rw [Mailbox.display_named]
          exact target.prepend ((reads_displayPhrase words.2).mono fun _ _ => trivial)
            ((endsAtom_commentText name.comments).append (endsAtom_cons (by decide)))

/-- Among members, those in front of the first that dangles are read. -/
theorem dangles_displayMembers {write : α → Text} (Good : Commented α → Prop)
    (members : List (Commented α))
    (reads : ∀ member ∈ members, Good member →
      ReadsTo (fun _ => True) (Commented.display write member))
    (dangles : ∀ member ∈ members, ¬ Good member → Dangles (Commented.display write member))
    (bad : ∃ member ∈ members, ¬ Good member) : Dangles (displayMembers write members) := by
  induction members with
  | nil =>
      obtain ⟨_, member, _⟩ := bad
      cases member
  | cons member members ih =>
      have tail : members = [] ∨ displayMembers write (member :: members) =
          Commented.display write member ++ ',' :: ' ' :: displayMembers write members := by
        cases members with
        | nil => exact .inl rfl
        | cons next members => exact .inr (displayMembers_cons_cons write member next members)
      by_cases good : Good member
      · obtain ⟨other, inside, other_bad⟩ := bad
        rcases List.mem_cons.1 inside with rfl | inside
        · exact absurd good other_bad
        · have others := ih (fun next within => reads next (.tail _ within))
            (fun next within => dangles next (.tail _ within)) ⟨other, inside, other_bad⟩
          rcases tail with rfl | layout
          · cases inside
          · rw [layout]
            exact (others.blank.structural rfl).prepend (reads member List.mem_cons_self good)
              (endsAtom_cons (by decide))
      · have first := dangles member List.mem_cons_self good
        rcases tail with rfl | layout
        · rw [displayMembers_singleton]
          exact first
        · rw [layout]
          exact first.append (halts_cons rfl)

theorem dangles_group {group : Group} {comments : List Text} (formed : group.IsFormed ('\n' ∉ ·))
    (bad : ∃ member ∈ group.members, ¬ member.body.spec.domains ≠ []) :
    Dangles (Commented.display (Address.written (orHost [])) ⟨.group group, comments⟩) := by
  have alone : group.comments = [] := by
    obtain ⟨member, inside, _⟩ := bad
    refine formed.apart.resolve_left fun none => ?_
    rw [none] at inside
    cases inside
  have no_comments : commentText [] = [] := rfl
  have body : Dangles (displayMembers (Mailbox.written (orHost [])) group.members) := by
    refine dangles_displayMembers (fun member => member.body.spec.domains ≠ []) group.members
      (fun member inside good => ?_) (fun member inside missing => ?_) bad
    · exact (reads_mailbox member (formed.members member inside)
        fun none => absurd none good).mono fun _ _ => trivial
    · exact dangles_mailbox member (formed.members member inside) (not_not.1 missing)
  rw [Address.display_group, alone, no_comments, List.append_nil]
  exact ((body.append (halts_cons rfl)).blank.structural rfl).prepend
    ((reads_displayPhrase formed.name.2).mono fun _ _ => trivial) (endsAtom_cons (by decide))

/-- Without a host, a display dangles if a mailbox has no domain. -/
theorem dangles_display {list : AddressList} (formed : list.IsFormed ('\n' ∉ ·))
    (bad : ∃ mailbox ∈ list.mailboxes, mailbox.spec.domains = []) :
    Dangles (list.display (orHost [])) := by
  obtain ⟨mailbox, inside, none⟩ := bad
  obtain ⟨member, member_inside, within⟩ := List.mem_flatMap.1 inside
  refine dangles_displayMembers
    (fun member => ∀ mailbox ∈ member.body.mailboxes, mailbox.spec.domains ≠ []) list ?_ ?_
    ⟨member, member_inside, fun good => good mailbox within none⟩
  · intro member inside good
    exact (reads_address member (formed.2 member inside) fun mailbox within none =>
      absurd none (good mailbox within)).mono fun _ _ => trivial
  · rintro ⟨address, comments⟩ inside missing
    obtain ⟨member_formed, after⟩ := formed.2 _ inside
    simp only [not_forall, not_not] at missing
    obtain ⟨mailbox, within, none⟩ := missing
    cases address with
    | group part =>
        obtain ⟨member, member_inside, rfl⟩ := List.mem_map.1 within
        exact dangles_group member_formed ⟨member, member_inside, not_not.2 none⟩
    | mailbox part =>
        rw [List.mem_singleton.1 within] at none
        exact dangles_mailbox ⟨part, comments⟩ ⟨member_formed, after⟩ none

end MailAddress
