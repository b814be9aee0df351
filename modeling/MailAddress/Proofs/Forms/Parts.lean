import MailAddress.Proofs.Lexing.Tokens
import MailAddress.Proofs.Matching.Derivation

/-!
# Well-formed parts

A part that was derived from the tokens of a field is well-formed.  An atom holds atom characters
only, a label is an atom or a domain literal, and a comment is one lexeme.  There is a word at least
in every name and local part, and a label in every domain.  A group has comments of its own only if
it has no mailboxes.

What a quoted string stands for may be any text, and a label may hold any character.  Which of these
texts are allowed is a parameter.
-/

namespace MailAddress

variable {allowed : Text → Prop}

/-! ## Forms -/

/-- An atom, or the text of a quoted string. -/
def Word.IsFormed (allowed : Text → Prop) : Word → Prop
  | .atom text => isAtom text = true
  | .quoted content => allowed content

/-- An atom or a domain literal. -/
def IsLabelText (allowed : Text → Prop) (label : Text) : Prop :=
  (isAtom label = true ∨ IsLexeme .domainLiteral label) ∧ allowed label

/-- Comments, each one lexeme. -/
def AreComments (comments : List Text) : Prop := ∀ comment ∈ comments, IsLexeme .comment comment

/-- One word or more. -/
def AreWords (allowed : Text → Prop) (words : List Word) : Prop :=
  words ≠ [] ∧ ∀ word ∈ words, word.IsFormed allowed

/-- One label or more. -/
def Domain.IsFormed (allowed : Text → Prop) (labels : Domain) : Prop :=
  labels ≠ [] ∧ ∀ label ∈ labels, IsLabelText allowed label

/-- A well-formed address specification. -/
structure AddrSpec.IsFormed (allowed : Text → Prop) (spec : AddrSpec) : Prop where
  words : AreWords allowed spec.localPart
  domains : ∀ domain ∈ spec.domains, domain.IsFormed allowed

/-- A well-formed mailbox. -/
def Mailbox.IsFormed (allowed : Text → Prop) : Mailbox → Prop
  | .plain spec => spec.body.IsFormed allowed ∧ AreComments spec.comments
  | .angle none spec => spec.body.IsFormed allowed ∧ AreComments spec.comments
  | .angle (some name) spec =>
      (AreWords allowed name.body ∧ AreComments name.comments) ∧
        spec.body.IsFormed allowed ∧ AreComments spec.comments

/-- Well-formed members and the comments behind each. -/
def AreMembers {α : Type} (Formed : α → Prop) (members : List (Commented α)) : Prop :=
  ∀ member ∈ members, Formed member.body ∧ AreComments member.comments

/-- A well-formed group. -/
structure Group.IsFormed (allowed : Text → Prop) (group : Group) : Prop where
  name : AreWords allowed group.name.body
  members : AreMembers (Mailbox.IsFormed allowed) group.members
  comments : AreComments group.comments
  apart : group.members = [] ∨ group.comments = []

/-- A well-formed member of a field. -/
def Address.IsFormed (allowed : Text → Prop) : Address → Prop
  | .group part => part.IsFormed allowed
  | .mailbox part => part.IsFormed allowed

/-- A well-formed field. -/
def AddressList.IsFormed (allowed : Text → Prop) (list : AddressList) : Prop :=
  list ≠ [] ∧ AreMembers (Address.IsFormed allowed) list

theorem Mailbox.IsFormed.spec {mailbox : Mailbox} (formed : mailbox.IsFormed allowed) :
    mailbox.spec.IsFormed allowed := by
  cases mailbox with
  | plain spec => exact formed.1
  | angle name spec =>
      cases name with
      | none => exact formed.1
      | some name => exact formed.2.1

theorem Address.IsFormed.mailboxes {address : Address} (formed : address.IsFormed allowed) :
    ∀ mailbox ∈ address.mailboxes, mailbox.IsFormed allowed := by
  cases address with
  | group part =>
      intro mailbox member
      rw [Address.mailboxes, List.mem_map] at member
      obtain ⟨member, inside, rfl⟩ := member
      exact (Group.IsFormed.members formed member inside).1
  | mailbox part => exact List.forall_mem_singleton.2 formed

theorem AddressList.IsFormed.mailboxes {list : AddressList} (formed : list.IsFormed allowed) :
    ∀ mailbox ∈ list.mailboxes, mailbox.IsFormed allowed := by
  intro mailbox inside
  rw [AddressList.mailboxes, List.mem_flatMap] at inside
  obtain ⟨member, member_inside, inside⟩ := inside
  exact (formed.2 member member_inside).1.mailboxes mailbox inside

/-! ## Derived parts -/

namespace Token

/-- What a token stands for as a word or a label is allowed. -/
def IsAllowed (allowed : Text → Prop) (token : Token) : Prop :=
  (token.kind = .quotedString → allowed (unquote token.text)) ∧
    (token.kind = .atom ∨ token.kind = .domainLiteral → allowed token.text)

/-- A token read from a lexeme that is allowed. -/
def MayFeed (allowed : Text → Prop) (token : Token) : Prop := token.IsRead ∧ token.IsAllowed allowed

variable {token : Token}

theorem IsRead.isLexeme (read : token.IsRead) (carries : token.kind.carriesText = true) :
    IsLexeme token.kind token.text := by
  obtain ⟨lexeme, form, text⟩ := read
  rw [text, if_pos carries]
  exact form

end Token

namespace Derivation

variable {tokens following close : List Token}

/-- All of these tokens may feed a part. -/
def Feeds (allowed : Text → Prop) (tokens : List Token) : Prop :=
  ∀ token ∈ tokens, token.MayFeed allowed

theorem feeds_append {left right : List Token} :
    Feeds allowed (left ++ right) ↔ Feeds allowed left ∧ Feeds allowed right :=
  List.forall_mem_append

theorem feeds_cons {token : Token} :
    Feeds allowed (token :: tokens) ↔ token.MayFeed allowed ∧ Feeds allowed tokens :=
  List.forall_mem_cons

theorem Feeds.areComments (feeds : Feeds allowed tokens) : AreComments (commentsOf tokens) := by
  intro comment member
  rw [commentsOf, List.mem_map] at member
  obtain ⟨token, member, rfl⟩ := member
  rw [List.mem_filter, beq_iff_eq] at member
  have form := (feeds token member.1).1.isLexeme (by rw [member.2]; rfl)
  rwa [member.2] at form

theorem IsWord.isFormed {word : Word} (derived : IsWord tokens word)
    (feeds : Feeds allowed tokens) : word.IsFormed allowed := by
  cases derived with
  | @atom comments token _ kind =>
      have read := (feeds token (List.mem_append_right _ List.mem_cons_self)).1
      have form := read.isLexeme (by rw [kind]; rfl)
      rw [kind] at form
      exact form.isAtom_of_atom
  | @quoted comments token _ kind =>
      exact (feeds token (List.mem_append_right _ List.mem_cons_self)).2.1 kind

theorem IsLabel.isLabelText {label : Text} (derived : IsLabel tokens label)
    (feeds : Feeds allowed tokens) : IsLabelText allowed label := by
  cases derived with
  | @label comments token _ kind =>
      obtain ⟨read, _, label_allowed⟩ := feeds token (List.mem_append_right _ List.mem_cons_self)
      refine ⟨?_, label_allowed kind⟩
      rcases kind with kind | kind
      · have form := read.isLexeme (by rw [kind]; rfl)
        rw [kind] at form
        exact .inl form.isAtom_of_atom
      · have form := read.isLexeme (by rw [kind]; rfl)
        rw [kind] at form
        exact .inr form

theorem IsTail.forall_mem {α : Type} {Item : List Token → α → Prop} {Formed : α → Prop}
    (formed : ∀ tokens value, Item tokens value → Feeds allowed tokens → Formed value)
    {values : List α} (derived : IsTail Item tokens values) (feeds : Feeds allowed tokens) :
    ∀ value ∈ values, Formed value := by
  induction derived with
  | stop => exact fun _ member => absurd member List.not_mem_nil
  | next _ _ item _ ih =>
      simp only [feeds_append, feeds_cons] at feeds
      obtain ⟨-, -, first, others⟩ := feeds
      exact List.forall_mem_cons.2 ⟨formed _ _ item first, ih others⟩

theorem IsSeries.forall_mem {α : Type} {Item : List Token → α → Prop} {Formed : α → Prop}
    (formed : ∀ tokens value, Item tokens value → Feeds allowed tokens → Formed value)
    {values : List α} (derived : IsSeries Item tokens values) (feeds : Feeds allowed tokens) :
    values ≠ [] ∧ ∀ value ∈ values, Formed value := by
  cases derived with
  | items item tail =>
      obtain ⟨first, others⟩ := feeds_append.1 feeds
      refine ⟨List.cons_ne_nil _ _, List.forall_mem_cons.2 ⟨formed _ _ item first, ?_⟩⟩
      exact tail.forall_mem formed others

theorem IsHops.forall_mem {domains : List Domain} (derived : IsHops tokens domains)
    (feeds : Feeds allowed tokens) : ∀ domain ∈ domains, domain.IsFormed allowed := by
  induction derived with
  | nil => exact fun _ member => absurd member List.not_mem_nil
  | cons _ labels _ ih =>
      simp only [feeds_append, feeds_cons] at feeds
      obtain ⟨-, first, others⟩ := feeds
      refine List.forall_mem_cons.2 ⟨?_, ih others⟩
      exact labels.forall_mem (fun _ _ label => label.isLabelText) first

theorem IsAddrSpec.isFormed {spec : AddrSpec} (derived : IsAddrSpec tokens spec)
    (feeds : Feeds allowed tokens) : spec.IsFormed allowed := by
  cases derived with
  | parts words hops =>
      obtain ⟨first, others⟩ := feeds_append.1 feeds
      exact ⟨words.forall_mem (fun _ _ word => word.isFormed) first, hops.forall_mem others⟩

theorem IsRouteAddr.isFormed {spec : AddrSpec} (derived : IsRouteAddr tokens spec)
    (feeds : Feeds allowed tokens) : spec.IsFormed allowed := by
  cases derived with
  | brackets _ _ _ _ spec _ =>
      simp only [feeds_append, feeds_cons] at feeds
      obtain ⟨-, -, -, -, inside, -⟩ := feeds
      exact spec.isFormed inside

theorem IsWords.forall_mem {words : List Word} (derived : IsWords tokens words)
    (feeds : Feeds allowed tokens) : ∀ word ∈ words, word.IsFormed allowed := by
  induction derived with
  | nil => exact fun _ member => absurd member List.not_mem_nil
  | cons item _ ih =>
      obtain ⟨first, others⟩ := feeds_append.1 feeds
      exact List.forall_mem_cons.2 ⟨item.isFormed first, ih others⟩

theorem IsMailbox.isFormed {value : Mailbox} (derived : IsMailbox tokens following value)
    (feeds : Feeds allowed tokens) : value.IsFormed allowed := by
  cases derived with
  | plain spec => exact ⟨spec.isFormed feeds, feeds.areComments⟩
  | angle spec => exact ⟨spec.isFormed feeds, feeds.areComments⟩
  | named name spec =>
      obtain ⟨first, others⟩ := feeds_append.1 feeds
      exact ⟨⟨⟨List.cons_ne_nil _ _, name.forall_mem first⟩, first.areComments⟩,
        spec.isFormed others, others.areComments⟩

theorem IsMembers.areMembers {α : Type} {Member : List Token → List Token → α → Prop}
    {Formed : α → Prop}
    (formed : ∀ tokens following value, Member tokens following value → Feeds allowed tokens →
      Formed value)
    {members : List (Commented α)} (derived : IsMembers Member close tokens members)
    (feeds : Feeds allowed tokens) : members ≠ [] ∧ AreMembers Formed members := by
  induction derived with
  | last member _ =>
      obtain ⟨first, separators⟩ := feeds_append.1 feeds
      refine ⟨List.cons_ne_nil _ _, List.forall_mem_singleton.2 ?_⟩
      exact ⟨formed _ _ _ member first, separators.areComments⟩
  | cons member _ _ _ ih =>
      simp only [feeds_append] at feeds
      obtain ⟨first, separators, others⟩ := feeds
      refine ⟨List.cons_ne_nil _ _, List.forall_mem_cons.2 ⟨?_, (ih others).2⟩⟩
      exact ⟨formed _ _ _ member first, separators.areComments⟩

theorem IsGroup.isFormed {value : Group} (derived : IsGroup tokens following value)
    (feeds : Feeds allowed tokens) : value.IsFormed allowed := by
  cases derived with
  | empty name =>
      simp only [feeds_append, feeds_cons] at feeds
      obtain ⟨first, -, comments, -⟩ := feeds
      refine ⟨⟨List.cons_ne_nil _ _, name.forall_mem first⟩, ?_, comments.areComments, .inl rfl⟩
      exact fun _ member => absurd member List.not_mem_nil
  | full name _ members =>
      simp only [feeds_append, feeds_cons] at feeds
      obtain ⟨first, -, body, -⟩ := feeds
      refine ⟨⟨List.cons_ne_nil _ _, name.forall_mem first⟩, ?_, ?_, .inr rfl⟩
      · exact (members.areMembers (fun _ _ _ mailbox => mailbox.isFormed) body).2
      · exact fun _ member => absurd member List.not_mem_nil

theorem IsAddress.isFormed {value : Address} (derived : IsAddress tokens following value)
    (feeds : Feeds allowed tokens) : value.IsFormed allowed := by
  cases derived with
  | group part => exact part.isFormed feeds
  | mailbox part => exact part.isFormed feeds

end Derivation

/-! ## Fields -/

theorem mem_of_mem_resolvePairs {text : Text} {c : Char} (inside : c ∈ resolvePairs text) :
    c ∈ text := by
  induction text using resolvePairs.induct with
  | case1 d rest ih =>
      rw [resolvePairs_pair] at inside
      rcases List.mem_cons.1 inside with rfl | inside
      · exact List.mem_cons_of_mem _ List.mem_cons_self
      · exact List.mem_cons_of_mem _ (List.mem_cons_of_mem _ (ih inside))
  | case2 d rest no_pair ih =>
      rw [resolvePairs] at inside
      · rcases List.mem_cons.1 inside with rfl | inside
        · exact List.mem_cons_self
        · exact List.mem_cons_of_mem _ (ih inside)
      · exact no_pair
  | case3 => exact inside

/-- Unquoting takes characters away and brings none in. -/
theorem mem_of_mem_unquote {text : Text} {c : Char} (inside : c ∈ unquote text) : c ∈ text := by
  have stripped := mem_of_mem_resolvePairs inside
  unfold stripQuotes at stripped
  split at stripped
  next => exact List.mem_of_mem_tail ((List.dropLast_sublist _).subset stripped)
  next => exact stripped

open MailAddress.Derivation in
/-- The parts of an accepted field are well-formed. -/
theorem isFormed_of_isAddressList {field : Text} {tokens : List Token} {list : AddressList}
    (lexed : tokenize field = .ok tokens) (derived : IsAddressList tokens list)
    (all_allowed : ∀ token ∈ tokens, token.IsAllowed allowed) : list.IsFormed allowed := by
  obtain ⟨body, finish, once⟩ := endsOnce_of_tokenize lexed
  cases derived with
  | @field members last _ members_derived _ =>
      obtain ⟨rfl, _⟩ := List.append_inj' once.eq rfl
      have feeds : Feeds allowed members := fun token member =>
        ⟨once.read token member, all_allowed token (List.mem_append_left _ member)⟩
      exact members_derived.areMembers (fun _ _ _ address => address.isFormed) feeds

/-- A character that is not in the field is not in what its tokens stand for. -/
theorem isAllowed_of_not_mem {field : Text} {tokens : List Token} {c : Char}
    (lexed : tokenize field = .ok tokens) (free : c ∉ field) :
    ∀ token ∈ tokens, token.IsAllowed (c ∉ ·) := by
  intro token member
  have text_free : c ∉ token.text := fun inside =>
    free ((Token.scan_eq_ok_iff.1 lexed).mem_of_mem_text token member _ inside)
  exact ⟨fun _ inside => text_free (mem_of_mem_unquote inside), fun _ => text_free⟩

end MailAddress
