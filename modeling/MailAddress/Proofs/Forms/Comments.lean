import Mathlib.Data.List.Flatten
import MailAddress.Proofs.Forms.Dangling
import MailAddress.Proofs.Forms.Stability

/-!
# Comments of a display

The comments of a field come back in its display, each as it was written and in the order of the
field, wherever they stood.  Only those in the name of a group do not: a group is shown without
them.  So the display of a field has all its comments if and only if no group has comments in its
name.

A display can be read even where it is no list of addresses.  Without a domain an address
specification ends with its at sign, and the comments behind the sign are still comments.
-/

namespace MailAddress

open MailAddress.Derivation Token

/-! ## The comments of a part -/

/-- The comments in the members of a list and behind each. -/
def memberComments {α : Type} (inside : α → List Text) (members : List (Commented α)) : List Text :=
  members.flatMap fun member => inside member.body ++ member.comments

theorem memberComments_cons {α : Type} (inside : α → List Text) (member : Commented α)
    (members : List (Commented α)) :
    memberComments inside (member :: members) =
      inside member.body ++ member.comments ++ memberComments inside members :=
  List.flatMap_cons

/-- The comments in a mailbox. -/
def Mailbox.allComments : Mailbox → List Text
  | .plain spec => spec.comments
  | .angle none spec => spec.comments
  | .angle (some name) spec => name.comments ++ spec.comments

/-- The comments in a group behind the colon. -/
def Group.innerComments (group : Group) : List Text :=
  memberComments Mailbox.allComments group.members ++ group.comments

namespace Address

/-- The comments in a member of a field. -/
def allComments : Address → List Text
  | .group part => part.name.comments ++ part.innerComments
  | .mailbox part => part.allComments

/-- The comments in a member of a field but for those in the name of a group. -/
def shownComments : Address → List Text
  | .group part => part.innerComments
  | .mailbox part => part.allComments

/-- A member of a field that is no group with comments in its name. -/
def IsBareNamed : Address → Prop
  | .group part => part.name.comments = []
  | .mailbox _ => True

theorem shownComments_sublist (address : Address) :
    address.shownComments.Sublist address.allComments := by
  cases address with
  | group part => exact List.sublist_append_right _ _
  | mailbox part => exact List.Sublist.refl _

theorem shownComments_eq_iff (address : Address) :
    address.shownComments = address.allComments ↔ address.IsBareNamed := by
  cases address with
  | group part => exact List.self_eq_append_left
  | mailbox part => exact iff_of_true rfl trivial

end Address

namespace AddressList

/-- The comments of a field, in order. -/
def allComments (list : AddressList) : List Text := memberComments Address.allComments list

/-- The comments of a field but for those in the names of groups, in order. -/
def shownComments (list : AddressList) : List Text := memberComments Address.shownComments list

end AddressList

/-! ## A derived part has the comments of its tokens -/

namespace Derivation

variable {α : Type} {tokens following close : List Token}

theorem IsMailbox.commentsOf_eq {value : Mailbox} (derived : IsMailbox tokens following value) :
    commentsOf tokens = value.allComments := by
  cases derived with
  | plain => rfl
  | angle => rfl
  | named => exact commentsOf_append

theorem IsMembers.commentsOf_eq {Member : List Token → List Token → α → Prop}
    {inside : α → List Text} {list : List (Commented α)}
    (each : ∀ tokens following value, Member tokens following value →
      commentsOf tokens = inside value)
    (derived : IsMembers Member close tokens list) :
    commentsOf tokens = memberComments inside list := by
  induction derived with
  | last member =>
      rw [commentsOf_append, each _ _ _ member, memberComments_cons]
      exact (List.append_nil _).symm
  | cons member _ _ _ ih =>
      rw [commentsOf_append, commentsOf_append, each _ _ _ member, ih, memberComments_cons,
        List.append_assoc]

theorem IsGroup.commentsOf_eq {value : Group} (derived : IsGroup tokens following value) :
    commentsOf tokens = value.name.comments ++ value.innerComments := by
  cases derived with
  | empty name colon_kind _ kind =>
      rw [commentsOf_append, commentsOf_cons_of_ne (by simp [colon_kind]), commentsOf_append,
        commentsOf_cons_of_ne (by simp [kind])]
      simp [Group.innerComments, memberComments]
  | full name colon_kind members kind =>
      rw [commentsOf_append, commentsOf_cons_of_ne (by simp [colon_kind]), commentsOf_append,
        commentsOf_cons_of_ne (by simp [kind]),
        members.commentsOf_eq fun _ _ _ mailbox => mailbox.commentsOf_eq]
      simp [Group.innerComments]

theorem IsAddress.commentsOf_eq {value : Address} (derived : IsAddress tokens following value) :
    commentsOf tokens = value.allComments := by
  cases derived with
  | group part => exact part.commentsOf_eq
  | mailbox part => exact part.commentsOf_eq

/-- The comments of a field are those among its tokens. -/
theorem IsAddressList.commentsOf_eq {list : AddressList} (derived : IsAddressList tokens list) :
    commentsOf tokens = list.allComments := by
  cases derived with
  | field members kind =>
      rw [commentsOf_append, members.commentsOf_eq fun _ _ _ address => address.commentsOf_eq,
        commentsOf_cons_of_ne (by simp [kind]), commentsOf_nil, List.append_nil]
      rfl

end Derivation

/-! ## What is shown has the comments of the part -/

/-- A text in which these are the comments, in front of what does not go on with an atom. -/
abbrev ShowsComments (comments : List Text) (text : Text) : Prop :=
  ReadsTo (fun tokens => commentsOf tokens = comments) text

namespace ShowsComments

variable {comments others : List Text} {text second : Text} {c : Char} {kind : Kind}

theorem append (shows_first : ShowsComments comments text)
    (shows_second : ShowsComments others second) (ends : EndsAtom second) :
    ShowsComments (comments ++ others) (text ++ second) :=
  ReadsTo.append shows_first shows_second ends fun left right first behind => by
    rw [commentsOf_append, first, behind]

/-- A structural character in front is no comment. -/
theorem structural (found : Kind.ofStructural? c = some kind)
    (shows_text : ShowsComments comments text) : ShowsComments comments (c :: text) := by
  refine ReadsTo.structural found shows_text fun token tokens same all => ?_
  have other : token.kind ≠ .comment := by
    intro comment
    obtain rfl : kind = .comment := same.symm.trans comment
    exact absurd (Kind.symbol_of_ofStructural? found).2 (by decide)
  rw [commentsOf_cons_of_ne other, all]

theorem commentText (formed : AreComments comments) :
    ShowsComments comments (commentText comments) :=
  (reads_commentText formed).mono fun _ read => read.2

theorem phrase {words : List Word} (formed : ∀ word ∈ words, word.IsFormed ('\n' ∉ ·)) :
    ShowsComments [] (displayPhrase words) :=
  (reads_displayPhrase formed).mono fun _ read => read.2

/-- A missing domain leaves an at sign behind the local part. -/
theorem addrSpec {spec : AddrSpec} (formed : spec.IsFormed ('\n' ∉ ·)) :
    ShowsComments [] (spec.display id) := by
  rw [← orHost_nil]
  by_cases none : spec.domains = []
  · have local_part : ShowsComments [] (['.'].intercalate (spec.localPart.map Word.display)) :=
      (reads_localPart formed.words).mono fun _ read => read.2
    have sign : ShowsComments [] ['@'] := ShowsComments.structural rfl (ReadsTo.nil rfl)
    rw [AddrSpec.display_of_no_domain none]
    exact local_part.append sign (endsAtom_cons (by decide))
  · exact (reads_addrSpec formed fun missing => absurd missing none).mono fun _ read => read.2

theorem displayAngle {spec : AddrSpec} (formed : spec.IsFormed ('\n' ∉ ·)) :
    ShowsComments [] (spec.displayAngle id) := by
  have close : ShowsComments [] ['>'] := ShowsComments.structural rfl (ReadsTo.nil rfl)
  exact ((addrSpec formed).append close (endsAtom_cons (by decide))).structural rfl

/-- A mailbox and the comments behind it. -/
theorem mailbox (member : Commented Mailbox)
    (formed : member.body.IsFormed ('\n' ∉ ·) ∧ AreComments member.comments) :
    ShowsComments (member.body.allComments ++ member.comments)
      (Commented.display (Mailbox.written id) member) := by
  obtain ⟨mailbox, after⟩ := member
  obtain ⟨formed, after_formed⟩ := formed
  cases mailbox with
  | plain spec =>
      rw [Mailbox.display_plain]
      exact (addrSpec formed.1).append (commentText (formed.2.append after_formed))
        (endsAtom_commentText _)
  | angle name spec =>
      cases name with
      | none =>
          rw [Mailbox.display_angle]
          exact (displayAngle formed.1).append (commentText (formed.2.append after_formed))
            (endsAtom_commentText _)
      | some name =>
          obtain ⟨⟨words, before⟩, spec_formed, inside⟩ := formed
          have brackets : ShowsComments (spec.comments ++ after)
              (spec.body.displayAngle id ++ MailAddress.commentText (spec.comments ++ after)) :=
            (displayAngle spec_formed).append (commentText (inside.append after_formed))
              (endsAtom_commentText _)
          have target := (commentText before).append (ReadsTo.blank brackets)
            (endsAtom_cons (by decide))
          rw [Mailbox.display_named, Mailbox.allComments, List.append_assoc]
          exact (phrase words.2).append target
            ((endsAtom_commentText _).append (endsAtom_cons (by decide)))

/-- Members with a comma and a blank between them. -/
theorem displayMembers {α : Type} {inside : α → List Text} {write : α → Text}
    (members : List (Commented α))
    (each : ∀ member ∈ members,
      ShowsComments (inside member.body ++ member.comments) (Commented.display write member)) :
    ShowsComments (memberComments inside members) (displayMembers write members) := by
  induction members with
  | nil => exact ReadsTo.nil rfl
  | cons member members ih =>
      have first := each member List.mem_cons_self
      have rest := ih fun other within => each other (List.mem_cons_of_mem _ within)
      cases members with
      | nil => simpa [memberComments, displayMembers_singleton] using first
      | cons next members =>
          have tail : ShowsComments (memberComments inside (next :: members))
              (',' :: ' ' :: MailAddress.displayMembers write (next :: members)) :=
            ShowsComments.structural rfl (ReadsTo.blank rest)
          rw [displayMembers_cons_cons]
          exact first.append tail (endsAtom_cons (by decide))

/-- A group and the comments behind it, without those of its name. -/
theorem group {group : Group} {after : List Text} (formed : group.IsFormed ('\n' ∉ ·))
    (after_formed : AreComments after) :
    ShowsComments (group.innerComments ++ after)
      (Commented.display (Address.written id) ⟨.group group, after⟩) := by
  have members : ShowsComments (memberComments Mailbox.allComments group.members)
      (MailAddress.displayMembers (Mailbox.written id) group.members) :=
    displayMembers group.members fun member within => mailbox member (formed.members member within)
  have close : ShowsComments after (';' :: MailAddress.commentText after) :=
    ShowsComments.structural rfl (commentText after_formed)
  have body := (members.append (commentText formed.comments) (endsAtom_commentText _)).append close
    (endsAtom_cons (by decide))
  rw [Address.display_group]
  exact (phrase formed.name.2).append (ShowsComments.structural rfl (ReadsTo.blank body))
    (endsAtom_cons (by decide))

theorem address (member : Commented Address)
    (formed : member.body.IsFormed ('\n' ∉ ·) ∧ AreComments member.comments) :
    ShowsComments (member.body.shownComments ++ member.comments)
      (Commented.display (Address.written id) member) := by
  obtain ⟨address, after⟩ := member
  cases address with
  | group part => exact group formed.1 formed.2
  | mailbox part => exact mailbox ⟨part, after⟩ formed

end ShowsComments

/-! ## The display of a field -/

namespace AddressList

/-- What is shown of the members is part of what there is, in the same order. -/
theorem shownComments_sublist (list : AddressList) :
    list.shownComments.Sublist list.allComments := by
  refine List.Sublist.flatMap_right list fun member _ => ?_
  exact member.body.shownComments_sublist.append_right member.comments

/-- All comments are shown if and only if those of each member are. -/
theorem shownComments_eq_iff (list : AddressList) :
    list.shownComments = list.allComments ↔ ∀ member ∈ list, member.body.IsBareNamed := by
  induction list with
  | nil => exact iff_of_true rfl fun _ within => absurd within List.not_mem_nil
  | cons member list ih =>
      have first := member.body.shownComments_sublist
      have others := shownComments_sublist list
      rw [List.forall_mem_cons, ← ih, ← Address.shownComments_eq_iff]
      simp only [shownComments, allComments, memberComments_cons] at others ⊢
      constructor
      · -- Nothing is added, so with equal lengths nothing is left out on either side.
        intro same
        have lengths := congrArg List.length same
        have first_le := first.length_le
        have others_le := others.length_le
        simp only [List.length_append] at lengths
        exact ⟨first.eq_of_length (by omega), others.eq_of_length (by omega)⟩
      · rintro ⟨same, others_same⟩
        rw [same, others_same]

end AddressList

/-- The display of a field without line feeds can be read.  Its comments are those of the field but
for the ones in names of groups, in the same order, so that nothing is changed or repeated.  They
are all comments of the field if and only if no group has comments in its name. -/
theorem commentsOf_display (field : Text) (list : AddressList) (free : '\n' ∉ field)
    (accepted : (readField false field).verdict = .ok list) :
    ∃ tokens shown, tokenize field = .ok tokens ∧
      tokenize (parseField id field).display = .ok shown ∧
      commentsOf tokens = list.allComments ∧ commentsOf shown = list.shownComments ∧
      (commentsOf shown).Sublist (commentsOf tokens) ∧
      (commentsOf shown = commentsOf tokens ↔ ∀ member ∈ list, member.body.IsBareNamed) := by
  obtain ⟨tokens, lexed, derived⟩ := verdict_eq_ok_iff.1 accepted
  have formed : list.IsFormed ('\n' ∉ ·) :=
    isFormed_of_isAddressList lexed derived (isAllowed_of_not_mem lexed free)
  have shows_list : ShowsComments list.shownComments (list.display id) :=
    ShowsComments.displayMembers list fun member within =>
      ShowsComments.address member (formed.2 member within)
  obtain ⟨shown, finish, shown_lexed, same, kind⟩ := shows_list.tokenize
  have read : commentsOf (shown ++ [finish]) = list.shownComments := by
    rw [commentsOf_append, same, commentsOf_cons_of_ne (by simp [kind]), commentsOf_nil,
      List.append_nil]
  refine ⟨tokens, shown ++ [finish], lexed, ?_, derived.commentsOf_eq, read, ?_, ?_⟩
  · rw [parseField_eq_accepted accepted]
    exact shown_lexed
  · rw [read, derived.commentsOf_eq]
    exact list.shownComments_sublist
  · rw [read, derived.commentsOf_eq]
    exact list.shownComments_eq_iff

/-- The comment in the name of a group is not in the display. -/
theorem commentsOf_display_of_group_name :
    (tokenize "A (x) B: a@b;".toList).map commentsOf = .ok ["(x)".toList] ∧
      parseField id "A (x) B: a@b;".toList =
        .accepted "A B: a@b;".toList "a@b\n".toList ∧
      (tokenize "A B: a@b;".toList).map commentsOf = .ok [] := by
  decide +kernel

/-- Comments in a name, in a route, within and behind brackets, and in and behind a group. -/
theorem commentsOf_display_of_scattered :
    ∃ tokens shown, tokenize "(a)n(b)<@r(c):u(d)@h>(e),g:(f)x@y(g),;(h)".toList = .ok tokens ∧
      tokenize "n (a) <u@h> (b) (c) (d) (e), g: x@y (f) (g); (h)".toList = .ok shown ∧
      commentsOf shown = commentsOf tokens := by
  have accepted : (readField false "(a)n(b)<@r(c):u(d)@h>(e),g:(f)x@y(g),;(h)".toList).verdict = .ok
      [⟨.mailbox (.angle (some ⟨[.atom ['n']], ["(a)".toList]⟩)
          ⟨⟨[.atom ['u']], [[['h']]]⟩, ["(b)".toList, "(c)".toList, "(d)".toList]⟩),
          ["(e)".toList]⟩,
        ⟨.group ⟨⟨[.atom ['g']], []⟩,
          [⟨.plain ⟨⟨[.atom ['x']], [[['y']]]⟩, ["(f)".toList, "(g)".toList]⟩, []⟩], []⟩,
          ["(h)".toList]⟩] := by
    decide +kernel
  have display : (parseField id "(a)n(b)<@r(c):u(d)@h>(e),g:(f)x@y(g),;(h)".toList).display =
      "n (a) <u@h> (b) (c) (d) (e), g: x@y (f) (g); (h)".toList := by
    decide +kernel
  obtain ⟨tokens, shown, lexed, shown_lexed, -, -, -, iff⟩ :=
    commentsOf_display _ _ (by decide) accepted
  rw [display] at shown_lexed
  refine ⟨tokens, shown, lexed, shown_lexed, iff.2 ?_⟩
  exact List.forall_mem_cons.2 ⟨trivial, List.forall_mem_singleton.2 rfl⟩

end MailAddress
