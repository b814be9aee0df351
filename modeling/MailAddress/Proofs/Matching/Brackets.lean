import MailAddress.Proofs.Matching.Members

/-!
# Angle brackets and colons

In a derived list of addresses the angle brackets are closed, and a pair of them holds no other
bracket.  A colon between brackets ends a route.  A colon outside of them belongs to a group, and
the name of the group stands right in front of it, so no comment does.
-/

namespace MailAddress

namespace Derivation

variable {α : Type} {tokens following close left right comments : List Token} {kind : Kind}

/-! ## Closed brackets -/

/-- As many angle brackets are opened as are closed. -/
def IsClosed (tokens : List Token) : Prop :=
  (tokens.countP fun token => token.kind == .lessThan) =
    tokens.countP fun token => token.kind == .greaterThan

/-- No token is an angle bracket. -/
def IsBracketFree (tokens : List Token) : Prop :=
  ∀ token ∈ tokens, token.kind ≠ .lessThan ∧ token.kind ≠ .greaterThan

/-- The next token is a colon outside of angle brackets, as one that belongs to a group is. -/
def AtGroupColon (before behind : List Token) : Prop :=
  headKind behind = some .colon ∧ IsClosed before

theorem IsClosed.append_iff (closed : IsClosed left) :
    IsClosed (left ++ right) ↔ IsClosed right := by
  unfold IsClosed at closed ⊢
  rw [List.countP_append, List.countP_append, closed, Nat.add_left_cancel_iff]

theorem IsClosed.append (closed : IsClosed left) (others : IsClosed right) :
    IsClosed (left ++ right) :=
  closed.append_iff.2 others

theorem IsBracketFree.append (free : IsBracketFree left) (others : IsBracketFree right) :
    IsBracketFree (left ++ right) :=
  List.forall_mem_append.2 ⟨free, others⟩

theorem IsBracketFree.count (free : IsBracketFree tokens) :
    (tokens.countP fun token => token.kind == .lessThan) = 0 ∧
      (tokens.countP fun token => token.kind == .greaterThan) = 0 := by
  simp only [List.countP_eq_zero, beq_iff_eq]
  exact ⟨fun token member => (free token member).1, fun token member => (free token member).2⟩

theorem IsBracketFree.isClosed (free : IsBracketFree tokens) : IsClosed tokens :=
  free.count.1.trans free.count.2.symm

/-! ## The tokens of parts without brackets -/

theorem isBracketFree_of_kinds {kinds : List Kind}
    (inside : ∀ token ∈ tokens, token.kind ∈ kinds) (no_less : .lessThan ∉ kinds)
    (no_greater : .greaterThan ∉ kinds) : IsBracketFree tokens := by
  intro token member
  have listed := inside token member
  exact ⟨fun same => no_less (same ▸ listed), fun same => no_greater (same ▸ listed)⟩

/-- The kinds of token in an address specification. -/
def specKinds : List Kind := [.comment, .atom, .quotedString, .domainLiteral, .period, .atSign]

theorem Comments.kind_mem_specKinds (all : Comments comments) :
    ∀ token ∈ comments, token.kind ∈ specKinds := by
  intro token member
  rw [all token member]
  decide

theorem IsWord.kind_mem_specKinds {word : Word} (derived : IsWord tokens word) :
    ∀ token ∈ tokens, token.kind ∈ specKinds := by
  obtain ⟨comments, token, rfl, all, kind, -⟩ := derived.strip
  refine List.forall_mem_append.2 ⟨all.kind_mem_specKinds, List.forall_mem_singleton.2 ?_⟩
  rcases kind with kind | kind <;> simp [kind, specKinds]

theorem IsLabel.kind_mem_specKinds {label : Text} (derived : IsLabel tokens label) :
    ∀ token ∈ tokens, token.kind ∈ specKinds := by
  cases derived with
  | label all kind =>
      refine List.forall_mem_append.2 ⟨all.kind_mem_specKinds, List.forall_mem_singleton.2 ?_⟩
      rcases kind with kind | kind <;> simp [kind, specKinds]

theorem IsTail.kind_mem_specKinds {Item : List Token → α → Prop} {values : List α}
    (each : ∀ tokens value, Item tokens value → ∀ token ∈ tokens, token.kind ∈ specKinds)
    (derived : IsTail Item tokens values) : ∀ token ∈ tokens, token.kind ∈ specKinds := by
  induction derived with
  | stop all => exact all.kind_mem_specKinds
  | next all kind item _ ih =>
      have period := List.forall_mem_append.2 ⟨each _ _ item, ih⟩
      exact List.forall_mem_append.2 ⟨all.kind_mem_specKinds,
        List.forall_mem_cons.2 ⟨by simp [kind, specKinds], period⟩⟩

theorem IsSeries.kind_mem_specKinds {Item : List Token → α → Prop} {values : List α}
    (each : ∀ tokens value, Item tokens value → ∀ token ∈ tokens, token.kind ∈ specKinds)
    (derived : IsSeries Item tokens values) : ∀ token ∈ tokens, token.kind ∈ specKinds := by
  cases derived with
  | items item tail =>
      exact List.forall_mem_append.2 ⟨each _ _ item, tail.kind_mem_specKinds each⟩

theorem IsHops.kind_mem_specKinds {domains : List Domain} (derived : IsHops tokens domains) :
    ∀ token ∈ tokens, token.kind ∈ specKinds := by
  induction derived with
  | nil => exact fun _ member => absurd member List.not_mem_nil
  | cons kind labels _ ih =>
      have domain := labels.kind_mem_specKinds fun _ _ label => label.kind_mem_specKinds
      exact List.forall_mem_cons.2 ⟨by simp [kind, specKinds], List.forall_mem_append.2 ⟨domain, ih⟩⟩

theorem IsAddrSpec.kind_mem_specKinds {spec : AddrSpec} (derived : IsAddrSpec tokens spec) :
    ∀ token ∈ tokens, token.kind ∈ specKinds := by
  cases derived with
  | parts words hops =>
      exact List.forall_mem_append.2 ⟨words.kind_mem_specKinds fun _ _ word =>
        word.kind_mem_specKinds, hops.kind_mem_specKinds⟩

theorem IsAddrSpec.isBracketFree {spec : AddrSpec} (derived : IsAddrSpec tokens spec) :
    IsBracketFree tokens :=
  isBracketFree_of_kinds derived.kind_mem_specKinds (by decide) (by decide)

theorem IsRelays.isBracketFree (derived : IsRelays tokens) : IsBracketFree tokens := by
  cases derived with
  | none => exact fun _ member => absurd member List.not_mem_nil
  | some hops _ kind =>
      have free := isBracketFree_of_kinds hops.kind_mem_specKinds (by decide) (by decide)
      exact free.append (List.forall_mem_singleton.2 (by simp [kind]))

theorem IsWords.isBracketFree {words : List Word} (derived : IsWords tokens words) :
    IsBracketFree tokens :=
  isBracketFree_of_kinds derived.kind_of_mem (by decide) (by decide)

theorem Separators.isBracketFree (all : Separators tokens) : IsBracketFree tokens := by
  intro token member
  rcases all token member with kind | kind <;> simp [kind]

theorem Comments.isBracketFree (all : Comments comments) : IsBracketFree comments :=
  all.separators.isBracketFree

/-! ## Comments in front of colons -/

/-- No comment stands right in front of a colon outside of angle brackets. -/
def KeepsNames (tokens : List Token) : Prop :=
  ∀ left comment right, tokens = left ++ comment :: right → comment.kind = .comment →
    ¬ AtGroupColon left right

theorem keepsNames_of_no_colon (free : ∀ token ∈ tokens, token.kind ≠ .colon) :
    KeepsNames tokens := by
  rintro left comment right rfl - ⟨head, -⟩
  cases right with
  | nil => cases head
  | cons token right => exact free token (by simp) (Option.some.inj head)

theorem KeepsNames.append (closed : IsClosed left) (keeps : KeepsNames left)
    (others : KeepsNames right) (no_colon : headKind right ≠ some .colon) :
    KeepsNames (left ++ right) := by
  rintro before comment behind eq is_comment ⟨head, before_closed⟩
  rcases List.append_eq_append_iff.1 eq with ⟨middle, rfl, rfl⟩ | ⟨middle, rfl, rest⟩
  · exact others middle comment behind rfl is_comment ⟨head, closed.append_iff.1 before_closed⟩
  · cases middle with
    | nil =>
        exact others [] comment behind rest.symm is_comment ⟨head, rfl⟩
    | cons token middle =>
        obtain ⟨rfl, rfl⟩ := List.cons.inj rest
        refine keeps before comment middle rfl is_comment ⟨?_, before_closed⟩
        cases middle with
        | nil => exact absurd head no_colon
        | cons => exact head

theorem IsAddrSpec.keepsNames {spec : AddrSpec} (derived : IsAddrSpec tokens spec) :
    KeepsNames tokens := by
  refine keepsNames_of_no_colon fun token member colon => ?_
  have listed := derived.kind_mem_specKinds token member
  rw [colon] at listed
  exact absurd listed (by decide)

theorem IsWords.keepsNames {words : List Word} (derived : IsWords tokens words) :
    KeepsNames tokens := by
  refine keepsNames_of_no_colon fun token member colon => ?_
  have listed := derived.kind_of_mem token member
  rw [colon] at listed
  exact absurd listed (by decide)

theorem Separators.keepsNames (all : Separators tokens) : KeepsNames tokens := by
  refine keepsNames_of_no_colon fun token member colon => ?_
  rcases all token member with kind | kind <;> simp [kind] at colon

/-! ## Members -/

/-- What a pair of angle brackets and its surroundings are made of. -/
theorem IsRouteAddr.exists_brackets {spec : AddrSpec} (derived : IsRouteAddr tokens spec) :
    ∃ before less inside greater, tokens = before ++ less :: (inside ++ [greater]) ∧
      Comments before ∧ less.kind = .lessThan ∧ IsBracketFree inside ∧
      greater.kind = .greaterThan := by
  cases derived with
  | @brackets before inside relays spec less greater _ all less_kind inside_all relays_derived
      spec_derived kind =>
      have free := (inside_all.isBracketFree.append relays_derived.isBracketFree).append
        spec_derived.isBracketFree
      exact ⟨before, less, inside ++ relays ++ spec, greater, by simp, all, less_kind, free, kind⟩

theorem IsRouteAddr.isClosed {spec : AddrSpec} (derived : IsRouteAddr tokens spec) :
    IsClosed tokens := by
  obtain ⟨before, less, inside, greater, rfl, all, less_kind, free, kind⟩ := derived.exists_brackets
  rw [all.isBracketFree.isClosed.append_iff]
  simp [IsClosed, less_kind, kind, free.count]

/-- A colon in angle brackets stands behind the one that opens them. -/
theorem IsRouteAddr.keepsNames {spec : AddrSpec} (derived : IsRouteAddr tokens spec) :
    KeepsNames tokens := by
  obtain ⟨before, less, inside, greater, rfl, all, less_kind, free, kind⟩ := derived.exists_brackets
  refine KeepsNames.append all.isBracketFree.isClosed all.separators.keepsNames ?_ (by simp [less_kind])
  rintro left comment right eq is_comment ⟨head, closed⟩
  cases left with
  | nil =>
      have same : less = comment := (List.cons.inj eq).1
      rw [← same, less_kind] at is_comment
      cases is_comment
  | cons first left =>
      obtain ⟨rfl, rest⟩ := List.cons.inj eq
      -- The closing bracket is the last token, and a colon comes after `left`.
      obtain ⟨middle, rfl⟩ : ∃ middle, inside = left ++ middle := by
        rcases List.append_eq_append_iff.1 rest with ⟨behind, rfl, last⟩ | ⟨behind, rfl, -⟩
        · have length := congrArg List.length last
          cases right with
          | nil => cases head
          | cons token right =>
              simp only [List.length_cons, List.length_append, List.length_nil] at length
              omega
        · exact ⟨behind, rfl⟩
      have left_free : IsBracketFree left := fun token member =>
        free token (List.mem_append_left _ member)
      simp [IsClosed, less_kind, left_free.count] at closed

/-- A name ends with the token of its last word. -/
theorem IsWords.exists_last {word : Word} {words : List Word}
    (derived : IsWords tokens (word :: words)) :
    ∃ front last, tokens = front ++ [last] ∧ last.kind ≠ .comment := by
  generalize eq : word :: words = all at derived
  induction derived generalizing word words with
  | nil => cases eq
  | @cons item rest _ _ first others ih =>
      obtain ⟨comments, token, rfl, -, kind, -⟩ := first.strip
      cases others with
      | nil =>
          refine ⟨comments, token, List.append_nil _, fun comment => ?_⟩
          simp [comment] at kind
      | cons second others =>
          obtain ⟨front, last, same, other⟩ := ih rfl
          exact ⟨comments ++ [token] ++ front, last, by simp [same], other⟩

/-- No comment stands between the name of a group and the colon. -/
theorem IsWords.keepsNames_colon {word : Word} {words : List Word} {colon : Token}
    (derived : IsWords tokens (word :: words)) : KeepsNames (tokens ++ [colon]) := by
  rintro left comment right eq is_comment ⟨head, -⟩
  rcases List.eq_nil_or_concat right with rfl | ⟨between, last, rfl⟩
  · cases head
  · have parts : tokens ++ [colon] = left ++ comment :: between ++ [last] := by simpa using eq
    obtain ⟨rfl, -⟩ := List.append_inj' parts rfl
    cases between with
    | nil =>
        obtain ⟨front, token, same, other⟩ := derived.exists_last
        obtain ⟨-, ends⟩ := List.append_inj' same rfl
        obtain rfl : comment = token := List.singleton_inj.1 ends
        exact other is_comment
    | cons token between =>
        have inside := derived.kind_of_mem token (by simp)
        rw [Option.some.inj head] at inside
        exact absurd inside (by decide)

/-- What the members of a list have in common as to brackets and colons. -/
structure SettlesColons (Member : List Token → List Token → α → Prop) : Prop where
  /-- A member begins like a mailbox. -/
  begins : BeginsAsMailbox Member
  /-- Its brackets are closed. -/
  closed : ∀ tokens following value, Member tokens following value → IsClosed tokens
  /-- No comment in it stands in front of the colon of a group. -/
  keeps : ∀ tokens following value, Member tokens following value → KeepsNames tokens

theorem IsMembers.isClosed {Member : List Token → List Token → α → Prop}
    {list : List (Commented α)} (rules : SettlesColons Member)
    (derived : IsMembers Member close tokens list) : IsClosed tokens := by
  induction derived with
  | last member all => exact (rules.closed _ _ _ member).append all.isBracketFree.isClosed
  | cons member all _ _ ih =>
      exact (rules.closed _ _ _ member).append (all.isBracketFree.isClosed.append ih)

theorem headKind_ne_colon_of_leads (lead : leadKind tokens = some kind) (leads : LeadsMailbox kind) :
    headKind tokens ≠ some .colon := by
  intro head
  rw [leadKind_of_headKind head (by decide)] at lead
  obtain rfl : Kind.colon = kind := Option.some.inj lead
  simp [LeadsMailbox] at leads

theorem Separators.headKind_ne_colon (all : Separators tokens)
    (others : headKind right ≠ some .colon) : headKind (tokens ++ right) ≠ some .colon := by
  cases tokens with
  | nil => exact others
  | cons token tokens =>
      intro head
      rcases all token List.mem_cons_self with kind | kind <;>
        simp [kind] at head

theorem IsMembers.keepsNames {Member : List Token → List Token → α → Prop}
    {list : List (Commented α)} (rules : SettlesColons Member)
    (derived : IsMembers Member close tokens list) : KeepsNames tokens := by
  induction derived with
  | last member all =>
      have no_colon : headKind (_ ++ []) ≠ some .colon := all.headKind_ne_colon (by simp)
      rw [List.append_nil] at no_colon
      exact KeepsNames.append (rules.closed _ _ _ member) (rules.keeps _ _ _ member) all.keepsNames
        no_colon
  | @cons member separators rest _ _ derived all _ others ih =>
      obtain ⟨kind, lead, leads⟩ := others.leadKind rules.begins []
      rw [List.append_nil] at lead
      have no_colon := headKind_ne_colon_of_leads lead leads
      have behind : KeepsNames (separators ++ rest) :=
        KeepsNames.append all.isBracketFree.isClosed all.keepsNames ih no_colon
      exact KeepsNames.append (rules.closed _ _ _ derived) (rules.keeps _ _ _ derived) behind
        (all.headKind_ne_colon no_colon)

theorem IsMailbox.isClosed {value : Mailbox} (derived : IsMailbox tokens following value) :
    IsClosed tokens := by
  cases derived with
  | plain spec => exact spec.isBracketFree.isClosed
  | angle target => exact target.isClosed
  | named name target => exact name.isBracketFree.isClosed.append target.isClosed

theorem IsMailbox.keepsNames {value : Mailbox} (derived : IsMailbox tokens following value) :
    KeepsNames tokens := by
  cases derived with
  | plain spec => exact spec.keepsNames
  | angle target => exact target.keepsNames
  | named name target =>
      have lead := target.leadKind []
      rw [List.append_nil] at lead
      exact KeepsNames.append name.isBracketFree.isClosed name.keepsNames target.keepsNames
        (headKind_ne_colon_of_leads lead (.inr (.inr rfl)))

theorem settlesColons_isMailbox : SettlesColons IsMailbox where
  begins := fun _ _ _ rest mailbox => mailbox.leadKind rest
  closed := fun _ _ _ mailbox => mailbox.isClosed
  keeps := fun _ _ _ mailbox => mailbox.keepsNames

/-- What stands between the colon and the semicolon of a group. -/
theorem IsGroup.exists_body {value : Group} (derived : IsGroup tokens following value) :
    ∃ name word words colon body semicolon, tokens = name ++ colon :: (body ++ [semicolon]) ∧
      IsWords name (word :: words) ∧ colon.kind = .colon ∧ semicolon.kind = .semicolon ∧
      IsClosed body ∧ KeepsNames body ∧ headKind (body ++ [semicolon]) ≠ some .colon := by
  cases derived with
  | @empty name comments _ colon semicolon word words derived colon_kind all kind =>
      exact ⟨name, word, words, colon, comments, semicolon, rfl, derived, colon_kind, kind,
        all.isBracketFree.isClosed, all.separators.keepsNames,
        all.separators.headKind_ne_colon (by simp [kind])⟩
  | @full name body _ colon semicolon word words members derived colon_kind list kind =>
      obtain ⟨lead_kind, lead, leads⟩ := list.leadKind settlesColons_isMailbox.begins [semicolon]
      exact ⟨name, word, words, colon, body, semicolon, rfl, derived, colon_kind, kind,
        list.isClosed settlesColons_isMailbox, list.keepsNames settlesColons_isMailbox,
        headKind_ne_colon_of_leads lead leads⟩

theorem IsGroup.isClosed {value : Group} (derived : IsGroup tokens following value) :
    IsClosed tokens := by
  obtain ⟨name, word, words, colon, body, semicolon, rfl, name_derived, colon_kind, kind, closed, -⟩ :=
    derived.exists_body
  have colon_free : IsBracketFree [colon] := List.forall_mem_singleton.2 (by simp [colon_kind])
  have semicolon_free : IsBracketFree [semicolon] := List.forall_mem_singleton.2 (by simp [kind])
  exact name_derived.isBracketFree.isClosed.append
    (colon_free.isClosed.append (closed.append semicolon_free.isClosed))

theorem IsGroup.keepsNames {value : Group} (derived : IsGroup tokens following value) :
    KeepsNames tokens := by
  obtain ⟨name, word, words, colon, body, semicolon, rfl, name_derived, colon_kind, kind, closed,
    keeps, no_colon⟩ := derived.exists_body
  have colon_free : IsBracketFree [colon] := List.forall_mem_singleton.2 (by simp [colon_kind])
  have end_keeps : KeepsNames [semicolon] :=
    keepsNames_of_no_colon (List.forall_mem_singleton.2 (by simp [kind]))
  have behind : KeepsNames (body ++ [semicolon]) :=
    KeepsNames.append closed keeps end_keeps (by simp [kind])
  have front : KeepsNames (name ++ [colon]) := name_derived.keepsNames_colon
  rw [← List.singleton_append, ← List.append_assoc]
  exact KeepsNames.append (name_derived.isBracketFree.isClosed.append colon_free.isClosed) front behind
    no_colon

theorem settlesColons_isAddress : SettlesColons IsAddress where
  begins := fun _ _ _ rest address => address.leadKind rest
  closed := fun _ _ _ address => by
    cases address with
    | group part => exact part.isClosed
    | mailbox part => exact part.isClosed
  keeps := fun _ _ _ address => by
    cases address with
    | group part => exact part.keepsNames
    | mailbox part => exact part.keepsNames

/-- No comment stands in front of the colon of a group in a list of addresses. -/
theorem IsAddressList.keepsNames {list : AddressList} (derived : IsAddressList tokens list) :
    KeepsNames tokens := by
  cases derived with
  | @field body finish _ members kind =>
      have end_keeps : KeepsNames [finish] :=
        keepsNames_of_no_colon (List.forall_mem_singleton.2 (by simp [kind]))
      exact KeepsNames.append (members.isClosed settlesColons_isAddress)
        (members.keepsNames settlesColons_isAddress) end_keeps (by simp [kind])

end Derivation

end MailAddress
