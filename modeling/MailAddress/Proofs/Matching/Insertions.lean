import MailAddress.Proofs.Matching.Brackets
import MailAddress.Proofs.Matching.Fields

/-!
# Inserted comments

A comment may be inserted between any two tokens of a list of addresses, and at the front.  Then the
list is one still, and the address specifications in it are the same.  Each part takes the comment
at most of its places.  At the end of a part, either the part takes it or what follows does.  Only in
front of the colon of a group nothing takes it, and the list is none any more.

Conversely a comment may be taken away.  Words that lead up to no name may then do so, but only if
the comment stood in front of a colon.
-/

namespace MailAddress

open scoped Computability

namespace Derivation

variable {α : Type} {comment : Token} {tokens following close left right comments : List Token}

/-! ## Places in joined tokens -/

/-- A place in joined tokens lies within the first of them or not before their end. -/
theorem split_append {first second : List Token} (eq : first ++ second = left ++ right) :
    (∃ middle, middle ≠ [] ∧ first = left ++ middle ∧ right = middle ++ second) ∨
      ∃ middle, left = first ++ middle ∧ second = middle ++ right := by
  rcases List.append_eq_append_iff.1 eq with ⟨middle, rfl, rest⟩ | ⟨middle, rfl, rest⟩
  · exact .inr ⟨middle, rfl, rest⟩
  · cases middle with
    | nil => exact .inr ⟨[], by simp, rest.symm⟩
    | cons token middle => exact .inl ⟨token :: middle, List.cons_ne_nil _ _, rfl, rest⟩

/-- A place in front of a last token lies among the tokens before it or at their end. -/
theorem split_concat {first : List Token} {last : Token} (eq : first ++ [last] = left ++ right)
    (inside : right ≠ []) : ∃ middle, first = left ++ middle ∧ right = middle ++ [last] := by
  obtain ⟨between, other, rfl⟩ := (List.eq_nil_or_concat right).resolve_left inside
  rw [List.concat_eq_append, ← List.append_assoc] at eq
  obtain ⟨rfl, same⟩ := List.append_inj' eq rfl
  exact ⟨between, rfl, by rw [List.concat_eq_append, same]⟩

theorem subset_insert : left ++ right ⊆ left ++ comment :: right :=
  ((List.sublist_cons_self comment right).append_left left).subset

/-! ## Comments within parts -/

theorem Comments.insert (is_comment : comment.kind = .comment) (all : Comments (left ++ right)) :
    Comments (left ++ comment :: right) := by
  obtain ⟨first, others⟩ := List.forall_mem_append.1 all
  exact List.forall_mem_append.2 ⟨first, List.forall_mem_cons.2 ⟨is_comment, others⟩⟩

theorem Comments.concat (is_comment : comment.kind = .comment) (all : Comments comments) :
    Comments (comments ++ [comment]) :=
  all.append (List.forall_mem_singleton.2 is_comment)

theorem Separators.insert (is_comment : comment.kind = .comment) (all : Separators (left ++ right)) :
    Separators (left ++ comment :: right) := by
  obtain ⟨first, others⟩ := List.forall_mem_append.1 all
  exact List.forall_mem_append.2 ⟨first, List.forall_mem_cons.2 ⟨.inl is_comment, others⟩⟩

/-- An item takes a comment anywhere but at its end. -/
def TakesComments (Item : List Token → α → Prop) : Prop :=
  ∀ left right comment value, comment.kind = .comment → right ≠ [] → Item (left ++ right) value →
    Item (left ++ comment :: right) value

theorem takesComments_isWord : TakesComments IsWord := by
  intro left right comment word is_comment inside derived
  obtain ⟨comments, token, eq, all, -, alone⟩ := derived.strip
  obtain ⟨between, rfl, rfl⟩ := split_concat eq.symm inside
  have padded := alone.pad (all.insert is_comment)
  simpa using padded

theorem takesComments_isLabel : TakesComments IsLabel := by
  intro left right comment label is_comment inside derived
  generalize eq : left ++ right = tokens at derived
  cases derived with
  | label all kind =>
      obtain ⟨between, rfl, rfl⟩ := split_concat eq.symm inside
      have padded := IsLabel.label (all.insert is_comment) kind
      simpa using padded

/-- What follows an item takes a comment anywhere. -/
theorem IsTail.insert {Item : List Token → α → Prop} {values : List α} (takes : TakesComments Item)
    (is_comment : comment.kind = .comment) (derived : IsTail Item tokens values)
    (eq : tokens = left ++ right) : IsTail Item (left ++ comment :: right) values := by
  induction derived generalizing left with
  | stop all =>
      subst eq
      exact .stop (all.insert is_comment)
  | @next comments item tail period value values all kind derived others ih =>
      rcases split_append eq with ⟨middle, -, rfl, rfl⟩ | ⟨_ | ⟨first, middle⟩, rfl, rest⟩
      · have padded := IsTail.next (all.insert is_comment) kind derived others
        simpa using padded
      · obtain rfl : _ = right := rest
        have padded := IsTail.next (all.concat is_comment) kind derived others
        simpa using padded
      · obtain ⟨rfl, behind⟩ := List.cons.inj rest
        rcases split_append behind with ⟨between, inside, rfl, rfl⟩ | ⟨between, rfl, rfl⟩
        · have padded := takes _ _ _ _ is_comment inside derived
          simpa using IsTail.next all kind padded others
        · simpa using IsTail.next all kind derived (ih rfl)

/-- A series takes a comment anywhere. -/
theorem IsSeries.insert {Item : List Token → α → Prop} {values : List α}
    (takes : TakesComments Item) (is_comment : comment.kind = .comment)
    (derived : IsSeries Item (left ++ right) values) :
    IsSeries Item (left ++ comment :: right) values := by
  generalize eq : left ++ right = tokens at derived
  cases derived with
  | @items item tail value values derived others =>
      rcases split_append eq.symm with ⟨between, inside, rfl, rfl⟩ | ⟨between, rfl, rfl⟩
      · have padded := takes _ _ _ _ is_comment inside derived
        simpa using IsSeries.items padded others
      · rw [List.append_assoc]
        exact .items derived (others.insert takes is_comment rfl)

/-- Domains take a comment anywhere behind the first at sign. -/
theorem IsHops.insert {domains : List Domain} (is_comment : comment.kind = .comment)
    (derived : IsHops tokens domains) (eq : tokens = left ++ right) (behind : left ≠ []) :
    IsHops (left ++ comment :: right) domains := by
  induction derived generalizing left with
  | nil => exact absurd (List.append_eq_nil_iff.1 eq.symm).1 behind
  | @cons labels hops sign domain domains kind series others ih =>
      obtain ⟨first, left, rfl⟩ := List.exists_cons_of_ne_nil behind
      obtain ⟨rfl, rest⟩ := List.cons.inj eq
      rcases split_append rest with ⟨between, -, rfl, rfl⟩ | ⟨_ | ⟨token, between⟩, rfl, rfl⟩
      · have padded := series.insert takesComments_isLabel is_comment
        simpa using IsHops.cons kind padded others
      · have padded := series.append_comments (List.forall_mem_singleton.2 is_comment)
        simpa using IsHops.cons kind padded others
      · simpa using IsHops.cons kind series (ih rfl (List.cons_ne_nil _ _))

/-- An address specification takes a comment anywhere. -/
theorem IsAddrSpec.insert {spec : AddrSpec} (is_comment : comment.kind = .comment)
    (derived : IsAddrSpec (left ++ right) spec) : IsAddrSpec (left ++ comment :: right) spec := by
  generalize eq : left ++ right = tokens at derived
  cases derived with
  | @parts words hops localPart domains series derived =>
      rcases split_append eq.symm with ⟨between, -, rfl, rfl⟩ | ⟨_ | ⟨token, between⟩, rfl, rfl⟩
      · have padded := series.insert takesComments_isWord is_comment
        simpa using IsAddrSpec.parts padded derived
      · have padded := series.append_comments (List.forall_mem_singleton.2 is_comment)
        simpa using IsAddrSpec.parts padded derived
      · have padded := derived.insert is_comment rfl (List.cons_ne_nil _ _)
        simpa using IsAddrSpec.parts series padded

/-- A route takes a comment between two of its tokens. -/
theorem IsRelays.insert (is_comment : comment.kind = .comment) (derived : IsRelays (left ++ right))
    (behind : left ≠ []) (inside : right ≠ []) : IsRelays (left ++ comment :: right) := by
  generalize eq : left ++ right = tokens at derived
  cases derived with
  | none => exact absurd (List.append_eq_nil_iff.1 eq).1 behind
  | some hops nonempty kind =>
      obtain ⟨between, rfl, rfl⟩ := split_concat eq.symm inside
      have padded := hops.insert is_comment rfl behind
      simpa using IsRelays.some padded nonempty kind

/-- Angle brackets take a comment anywhere but behind them. -/
theorem takesComments_isRouteAddr : TakesComments IsRouteAddr := by
  intro left right comment spec is_comment inside derived
  generalize eq : left ++ right = tokens at derived
  cases derived with
  | @brackets before within relays words less greater _ all less_kind all_within route derived kind =>
      rcases split_append eq.symm with ⟨middle, -, rfl, rfl⟩ | ⟨_ | ⟨first, middle⟩, rfl, rest⟩
      · have padded := IsRouteAddr.brackets (all.insert is_comment) less_kind all_within route
          derived kind
        simpa using padded
      · obtain rfl : _ = right := rest
        have padded := IsRouteAddr.brackets (all.concat is_comment) less_kind all_within route
          derived kind
        simpa using padded
      obtain ⟨rfl, in_brackets⟩ := List.cons.inj rest
      rcases split_append in_brackets with ⟨next, -, rfl, rfl⟩ | ⟨between, rfl, behind⟩
      · have padded := IsRouteAddr.brackets all less_kind (all_within.insert is_comment) route
          derived kind
        simpa using padded
      rcases split_append behind with ⟨next, more, rfl, rfl⟩ | ⟨front, rfl, in_spec⟩
      · cases between with
        | nil =>
            have padded := IsRouteAddr.brackets all less_kind (all_within.concat is_comment) route
              derived kind
            simpa using padded
        | cons token between =>
            have padded := route.insert is_comment (List.cons_ne_nil _ _) more
            simpa using IsRouteAddr.brackets all less_kind all_within padded derived kind
      · obtain ⟨last, rfl, rfl⟩ := split_concat in_spec inside
        have padded := derived.insert is_comment
        simpa using IsRouteAddr.brackets all less_kind all_within route padded kind

/-! ## Names -/

/-- Words take a comment anywhere but at their end. -/
theorem IsWords.insert {words : List Word} (is_comment : comment.kind = .comment)
    (inside : right ≠ []) (derived : IsWords tokens words) (eq : tokens = left ++ right) :
    IsWords (left ++ comment :: right) words := by
  induction derived generalizing left with
  | nil => exact absurd (List.append_eq_nil_iff.1 eq.symm).2 inside
  | @cons item rest word words first others ih =>
      rcases split_append eq with ⟨between, more, rfl, rfl⟩ | ⟨between, rfl, same⟩
      · have padded := takesComments_isWord _ _ _ _ is_comment more first
        simpa using IsWords.cons padded others
      · simpa using IsWords.cons first (ih same)

theorem IsWord.erase {word : Word} (is_comment : comment.kind = .comment)
    (derived : IsWord (left ++ comment :: right) word) : IsWord (left ++ right) word := by
  obtain ⟨comments, token, eq, all, kind, alone⟩ := derived.strip
  rcases List.eq_nil_or_concat right with rfl | ⟨between, last, rfl⟩
  · obtain ⟨-, same⟩ := List.append_inj' eq rfl
    rw [← List.singleton_inj.1 same, is_comment] at kind
    simp at kind
  · have parts : left ++ comment :: between ++ [last] = comments ++ [token] := by simpa using eq
    obtain ⟨rfl, same⟩ := List.append_inj' parts rfl
    have fewer : Comments (left ++ between) := fun other member => all other (subset_insert member)
    rw [List.concat_eq_append, ← List.append_assoc, same]
    exact alone.pad fewer

theorem IsWords.erase {words : List Word} (is_comment : comment.kind = .comment)
    (derived : IsWords tokens words) (eq : tokens = left ++ comment :: right) :
    IsWords (left ++ right) words := by
  induction derived generalizing left with
  | nil => exact absurd (List.append_eq_nil_iff.1 eq.symm).2 (List.cons_ne_nil _ _)
  | @cons item rest word words first others ih =>
      rcases split_append eq with ⟨_ | ⟨token, between⟩, more, rfl, same⟩ | ⟨between, rfl, same⟩
      · exact absurd rfl more
      · obtain ⟨rfl, rfl⟩ := List.cons.inj same
        simpa using IsWords.cons (first.erase is_comment) others
      · simpa using IsWords.cons first (ih same)

theorem leadKind_insert (is_comment : comment.kind = .comment) :
    leadKind (left ++ comment :: right) = leadKind (left ++ right) := by
  simp [leadKind, List.find?_append, is_comment]

/-- A comment makes no name of the words around it. -/
theorem NameAhead.erase (is_comment : comment.kind = .comment)
    (ahead : NameAhead (left ++ comment :: right)) : NameAhead (left ++ right) := by
  obtain ⟨name, rest, word, words, eq, derived, closed⟩ := ahead
  rcases split_append eq.symm with ⟨_ | ⟨token, between⟩, more, rfl, same⟩ | ⟨between, rfl, rfl⟩
  · exact absurd rfl more
  · obtain ⟨rfl, rfl⟩ := List.cons.inj same
    exact ⟨left ++ between, rest, word, words, by simp, derived.erase is_comment rfl, closed⟩
  · refine ⟨name, between ++ right, word, words, by simp, derived, closed.imp ?_ ?_⟩
    · intro colon
      cases between with
      | nil => simp [is_comment] at colon
      | cons token between => exact colon
    · intro angle
      rwa [leadKind_insert is_comment] at angle

/-! ## Members -/

/-- What the members of a list have in common as to comments that are inserted. -/
structure TakesInserted (Member : List Token → List Token → α → Prop)
    (specs : α → List AddrSpec) : Prop where
  /-- A member takes a comment anywhere but at its end and in front of the colon of a group. -/
  within : ∀ left right following value comment, comment.kind = .comment → right ≠ [] →
    ¬ AtGroupColon left right → Member (left ++ right) following value →
    ∃ other, Member (left ++ comment :: right) following other ∧ specs other = specs value
  /-- It stays one if a comment is inserted behind the token that follows. -/
  behind : ∀ tokens left right value comment, comment.kind = .comment → left ≠ [] →
    Member tokens (left ++ right) value → Member tokens (left ++ comment :: right) value
  /-- It takes a comment at its end, or stays one in front of it. -/
  last : ∀ tokens following value comment, comment.kind = .comment →
    Member tokens following value → Member tokens (comment :: following) value ∨
      ∃ other, Member (tokens ++ [comment]) following other ∧ specs other = specs value

theorem AtGroupColon.append {rest : List Token} (colon : AtGroupColon left right) :
    AtGroupColon left (right ++ rest) := by
  cases right with
  | nil => cases colon.1
  | cons => exact colon

theorem AtGroupColon.behind {first : List Token} (colon : AtGroupColon left right)
    (closed : IsClosed first) : AtGroupColon (first ++ left) right :=
  ⟨colon.1, closed.append colon.2⟩

section Lists

variable {Member : List Token → List Token → α → Prop} {specs : α → List AddrSpec}
variable {list : List (Commented α)}

/-- The address specifications in a list of members. -/
def specsOf (specs : α → List AddrSpec) (list : List (Commented α)) : List AddrSpec :=
  list.flatMap fun member => specs member.body

@[simp] theorem specsOf_cons (member : Commented α) :
    specsOf specs (member :: list) = specs member.body ++ specsOf specs list := rfl

theorem IsMembers.insert_close (takes : TakesInserted Member specs)
    (is_comment : comment.kind = .comment) (nonempty : left ≠ [])
    (derived : IsMembers Member (left ++ right) tokens list) :
    IsMembers Member (left ++ comment :: right) tokens list := by
  induction derived with
  | @last member separators value derived all =>
      rw [← List.append_assoc] at derived
      have padded := takes.behind _ _ _ _ _ is_comment (by simp [nonempty]) derived
      rw [List.append_assoc] at padded
      exact .last padded all
  | @cons member separators rest value values derived all no_comment _ ih =>
      rw [← List.append_assoc rest, ← List.append_assoc] at derived
      have padded := takes.behind _ _ _ _ _ is_comment (by simp [nonempty]) derived
      rw [List.append_assoc, List.append_assoc] at padded
      exact .cons padded all no_comment ih

/-- A comment among the separators behind a member is one of them, or the member takes it. -/
theorem TakesInserted.insert_separators (takes : TakesInserted Member specs) {value : α}
    {ahead : List Token} (is_comment : comment.kind = .comment)
    (derived : Member tokens (left ++ right ++ ahead) value) (all : Separators (left ++ right)) :
    ∃ front separators other, tokens ++ (left ++ comment :: right) = front ++ separators ∧
      Member front (separators ++ ahead) other ∧ Separators separators ∧
      specs other = specs value := by
  have kept := all.insert is_comment
  cases left with
  | nil =>
      rcases takes.last _ _ _ _ is_comment derived with apart | ⟨other, taken, same⟩
      · exact ⟨tokens, comment :: right, value, rfl, apart, kept, rfl⟩
      · exact ⟨tokens ++ [comment], right, other, by simp, taken, all, same⟩
  | cons token left =>
      rw [List.append_assoc] at derived
      have apart := takes.behind _ _ _ _ _ is_comment (List.cons_ne_nil _ _) derived
      exact ⟨tokens, token :: left ++ comment :: right, value, rfl, by simpa using apart, kept, rfl⟩

/-- A list takes a comment anywhere but in front of the colon of a group. -/
theorem IsMembers.insert (takes : TakesInserted Member specs) (rules : SettlesColons Member)
    (is_comment : comment.kind = .comment) (derived : IsMembers Member close tokens list)
    (eq : tokens = left ++ right) (no_colon : ¬ AtGroupColon left right) :
    ∃ other, IsMembers Member close (left ++ comment :: right) other ∧
      specsOf specs other = specsOf specs list := by
  induction derived generalizing left with
  | @last member separators value derived all =>
      rcases split_append eq with ⟨between, more, rfl, rfl⟩ | ⟨before, rfl, rfl⟩
      · obtain ⟨other, padded, same⟩ := takes.within _ _ _ _ _ is_comment more
          (fun colon => no_colon colon.append) derived
        exact ⟨_, by simpa using IsMembers.last padded all, by simp [same]⟩
      · obtain ⟨front, apart, other, split, padded, kept, same⟩ :=
          takes.insert_separators is_comment derived all
        rw [List.append_assoc, split]
        exact ⟨_, .last padded kept, by simp [same]⟩
  | @cons member separators rest value values derived all no_comment others ih =>
      rcases split_append eq with ⟨between, more, rfl, rfl⟩ | ⟨behind, rfl, in_rest⟩
      · obtain ⟨other, padded, same⟩ := takes.within _ _ _ _ _ is_comment more
          (fun colon => no_colon colon.append) derived
        exact ⟨_, by simpa using IsMembers.cons padded all no_comment others,
          by simp [same]⟩
      rw [List.append_assoc]
      rcases split_append in_rest.symm with ⟨before, nonempty, rfl, rfl⟩ | ⟨before, rfl, rfl⟩
      · have closed := (rules.closed _ _ _ derived).append all.isBracketFree.isClosed
        rw [← List.append_assoc] at no_colon
        obtain ⟨other, padded, same⟩ := ih rfl fun colon => no_colon (colon.behind closed)
        have apart := takes.behind member (separators ++ before) (right ++ close) value comment
          is_comment (by simp [nonempty]) (by simpa using derived)
        have head : headKind (before ++ comment :: right) ≠ some .comment := by
          obtain ⟨token, before, rfl⟩ := List.exists_cons_of_ne_nil nonempty
          exact no_comment
        rw [List.append_assoc]
        exact ⟨_, .cons (by simpa using apart) all head padded, by simp [same]⟩
      · obtain ⟨front, apart, other, split, padded, kept, same⟩ :=
          takes.insert_separators is_comment derived all
        have layout : member ++ (behind ++ comment :: (before ++ rest)) = front ++ (apart ++ rest) := by
          rw [← List.append_assoc front, ← split]
          simp
        rw [layout]
        exact ⟨_, .cons padded kept no_comment others, by simp [same]⟩

end Lists

/-! ## Mailboxes and groups -/

theorem IsMailbox.insert {value : Mailbox} (is_comment : comment.kind = .comment)
    (inside : right ≠ []) (derived : IsMailbox (left ++ right) following value) :
    ∃ other, IsMailbox (left ++ comment :: right) following other ∧ other.spec = value.spec := by
  generalize eq : left ++ right = tokens at derived
  cases derived with
  | plain spec no_comment no_name =>
      subst eq
      have padded := spec.insert is_comment
      refine ⟨_, .plain padded no_comment fun name => no_name ?_, rfl⟩
      rw [List.append_assoc] at name ⊢
      exact NameAhead.erase is_comment name
  | angle target =>
      subst eq
      exact ⟨_, .angle (takesComments_isRouteAddr _ _ _ _ is_comment inside target), rfl⟩
  | @named name target _ word words spec words_derived derived =>
      rcases split_append eq.symm with ⟨between, more, rfl, rfl⟩ | ⟨between, rfl, rfl⟩
      · have padded := words_derived.insert is_comment more rfl
        have built : IsMailbox _ following _ := .named padded derived
        simp only [List.append_assoc, List.cons_append] at built
        exact ⟨_, built, rfl⟩
      · have padded := takesComments_isRouteAddr _ _ _ _ is_comment inside derived
        rw [List.append_assoc]
        exact ⟨_, .named words_derived padded, rfl⟩

theorem IsMailbox.insert_behind {value : Mailbox} (is_comment : comment.kind = .comment)
    (nonempty : left ≠ []) (derived : IsMailbox tokens (left ++ right) value) :
    IsMailbox tokens (left ++ comment :: right) value := by
  cases derived with
  | plain spec no_comment no_name =>
      refine .plain spec ?_ fun name => no_name ?_
      · obtain ⟨token, left, rfl⟩ := List.exists_cons_of_ne_nil nonempty
        exact no_comment
      · rw [← List.append_assoc] at name ⊢
        exact name.erase is_comment
  | angle target => exact .angle target
  | named name target => exact .named name target

theorem IsMailbox.insert_last {value : Mailbox} (is_comment : comment.kind = .comment)
    (derived : IsMailbox tokens following value) :
    IsMailbox tokens (comment :: following) value ∨
      ∃ other, IsMailbox (tokens ++ [comment]) following other ∧ other.spec = value.spec := by
  cases derived with
  | plain spec no_comment no_name =>
      have padded := spec.append_comments (List.forall_mem_singleton.2 is_comment)
      refine .inr ⟨_, .plain padded no_comment fun name => no_name ?_, rfl⟩
      rw [List.append_assoc] at name
      exact NameAhead.erase is_comment name
  | angle target => exact .inl (.angle target)
  | named name target => exact .inl (.named name target)

/-- The address specification of a mailbox. -/
def mailboxSpecs (value : Mailbox) : List AddrSpec := [value.spec]

theorem takesInserted_isMailbox : TakesInserted IsMailbox mailboxSpecs where
  within := fun _ _ _ _ _ is_comment inside _ derived => by
    obtain ⟨other, padded, same⟩ := derived.insert is_comment inside
    exact ⟨other, padded, congrArg List.singleton same⟩
  behind := fun _ _ _ _ _ is_comment nonempty derived => derived.insert_behind is_comment nonempty
  last := fun _ _ _ _ is_comment derived => by
    rcases derived.insert_last is_comment with apart | ⟨other, padded, same⟩
    · exact .inl apart
    · exact .inr ⟨other, padded, congrArg List.singleton same⟩

/-- The address specifications of an address. -/
def addressSpecs (value : Address) : List AddrSpec := value.mailboxes.map Mailbox.spec

theorem addressSpecs_group (value : Group) :
    addressSpecs (.group value) = specsOf mailboxSpecs value.members := by
  simp [addressSpecs, Address.mailboxes, specsOf, mailboxSpecs, List.map_eq_flatMap,
    List.flatMap_assoc]

/-- A place in a group that is not in front of the colon lies in the name or behind the colon. -/
theorem split_group {name body : List Token} {colon semicolon : Token} {words : List Word}
    (derived : IsWords name words) (colon_kind : colon.kind = .colon) (inside : right ≠ [])
    (no_colon : ¬ AtGroupColon left right)
    (eq : name ++ colon :: (body ++ [semicolon]) = left ++ right) :
    (∃ between, between ≠ [] ∧ name = left ++ between ∧
      right = between ++ colon :: (body ++ [semicolon])) ∨
      ∃ before after, left = name ++ colon :: before ∧ body = before ++ after ∧
        right = after ++ [semicolon] := by
  rcases split_append eq with in_name | ⟨_ | ⟨first, before⟩, rfl, rest⟩
  · exact .inl in_name
  · obtain rfl : _ = right := rest
    rw [List.append_nil] at no_colon
    exact absurd ⟨congrArg some colon_kind, derived.isBracketFree.isClosed⟩ no_colon
  · obtain ⟨rfl, in_body⟩ := List.cons.inj rest
    obtain ⟨after, rfl, rfl⟩ := split_concat in_body inside
    exact .inr ⟨before, after, rfl, rfl, rfl⟩

/-- A group takes a comment between any two tokens but its name and the colon. -/
theorem IsGroup.insert {value : Group} (is_comment : comment.kind = .comment) (inside : right ≠ [])
    (no_colon : ¬ AtGroupColon left right) (derived : IsGroup (left ++ right) following value) :
    ∃ other, IsGroup (left ++ comment :: right) following other ∧
      addressSpecs (.group other) = addressSpecs (.group value) := by
  generalize eq : left ++ right = tokens at derived
  cases derived with
  | empty derived colon_kind all kind =>
      rcases split_group derived colon_kind inside no_colon eq.symm with
        ⟨between, more, rfl, rfl⟩ | ⟨before, after, rfl, rfl, rfl⟩
      · have padded : IsGroup _ following _ :=
          .empty (derived.insert is_comment more rfl) colon_kind all kind
        simp only [List.append_assoc, List.cons_append] at padded
        exact ⟨_, padded, rfl⟩
      · have padded : IsGroup _ following _ :=
          .empty derived colon_kind (all.insert is_comment) kind
        simp only [List.append_assoc, List.cons_append] at padded ⊢
        exact ⟨_, padded, rfl⟩
  | @full name _ _ colon _ _ _ _ derived colon_kind list kind =>
      rcases split_group derived colon_kind inside no_colon eq.symm with
        ⟨between, more, rfl, rfl⟩ | ⟨before, after, rfl, rfl, rfl⟩
      · have padded : IsGroup _ following _ :=
          .full (derived.insert is_comment more rfl) colon_kind list kind
        simp only [List.append_assoc, List.cons_append] at padded
        exact ⟨_, padded, rfl⟩
      · have colon_free : IsBracketFree [colon] := List.forall_mem_singleton.2 (by simp [colon_kind])
        have closed := derived.isBracketFree.isClosed.append colon_free.isClosed
        rw [List.append_cons] at no_colon
        obtain ⟨other, padded, same⟩ := list.insert takesInserted_isMailbox settlesColons_isMailbox
          is_comment rfl fun colon => no_colon (colon.append.behind closed)
        have built : IsGroup _ following _ := .full derived colon_kind padded kind
        simp only [List.append_assoc, List.cons_append] at built ⊢
        refine ⟨_, built, ?_⟩
        rw [addressSpecs_group, addressSpecs_group, same]

theorem IsGroup.insert_behind {value : Group} (is_comment : comment.kind = .comment)
    (derived : IsGroup tokens (left ++ right) value) :
    IsGroup tokens (left ++ comment :: right) value := by
  cases derived with
  | empty name colon all semicolon => exact .empty name colon all semicolon
  | full name colon list semicolon =>
      have padded := IsMembers.insert_close takesInserted_isMailbox is_comment
        (List.cons_ne_nil _ _) (by simpa using list)
      exact .full name colon padded semicolon

theorem takesInserted_isAddress : TakesInserted IsAddress addressSpecs where
  within := fun _ _ _ _ _ is_comment inside no_colon derived => by
    cases derived with
    | group part =>
        obtain ⟨other, padded, same⟩ := part.insert is_comment inside no_colon
        exact ⟨.group other, .group padded, same⟩
    | mailbox part =>
        obtain ⟨other, padded, same⟩ := part.insert is_comment inside
        exact ⟨.mailbox other, .mailbox padded, congrArg List.singleton same⟩
  behind := fun _ _ _ _ _ is_comment nonempty derived => by
    cases derived with
    | group part => exact .group (part.insert_behind is_comment)
    | mailbox part => exact .mailbox (part.insert_behind is_comment nonempty)
  last := fun tokens following _ comment is_comment derived => by
    cases derived with
    | group part =>
        have in_front : IsGroup tokens ([] ++ following) _ := part
        exact .inl (.group (in_front.insert_behind is_comment))
    | mailbox part =>
        rcases part.insert_last is_comment with apart | ⟨other, padded, same⟩
        · exact .inl (.mailbox apart)
        · exact .inr ⟨.mailbox other, .mailbox padded, congrArg List.singleton same⟩

/-- A list of addresses takes a comment anywhere but in front of the colon of a group, and its
address specifications stay the same. -/
theorem IsAddressList.insert {list : AddressList} (is_comment : comment.kind = .comment)
    (inside : right ≠ []) (no_colon : ¬ AtGroupColon left right)
    (derived : IsAddressList (left ++ right) list) :
    ∃ other, IsAddressList (left ++ comment :: right) other ∧
      other.mailboxes.map Mailbox.spec = list.mailboxes.map Mailbox.spec := by
  generalize eq : left ++ right = tokens at derived
  cases derived with
  | @field body finish _ members kind =>
      obtain ⟨between, rfl, rfl⟩ := split_concat eq.symm inside
      obtain ⟨other, padded, same⟩ := members.insert takesInserted_isAddress
        settlesColons_isAddress is_comment rfl fun colon => no_colon colon.append
      have built := IsAddressList.field padded kind
      simp only [List.append_assoc, List.cons_append] at built
      refine ⟨other, built, ?_⟩
      simp only [AddressList.mailboxes, List.map_flatMap]
      exact same

end Derivation

end MailAddress
