import MailAddress.Proofs.Matching.Completeness

/-!
# Derived fields are matched

The runs of the rules that choose between alternatives.  A mailbox is tried as a name and angle
brackets first, and a member of a field as a group before that.  An alternative that is not the
derived one fails behind the words in front, since these are no name, and has noted no final domain
by then.

All words in front are read before anything is decided, so a token that is no word must come at last.
In a field this is the token of the end.
-/

namespace MailAddress

namespace Derivation

variable {tokens rest following comments name : List Token} {kind : Kind}

/-! ## Words up to the end of the text -/

/-- The end of the text is among these tokens. -/
def HasEnd (tokens : List Token) : Prop := ∃ token ∈ tokens, token.kind = .endOfText

theorem HasEnd.append (before : List Token) (ends : HasEnd rest) : HasEnd (before ++ rest) := by
  obtain ⟨token, member, kind⟩ := ends
  exact ⟨token, List.mem_append_right before member, kind⟩

theorem HasEnd.exists_cons (ends : HasEnd tokens) : ∃ next rest, tokens = next :: rest := by
  obtain ⟨token, member, _⟩ := ends
  exact List.exists_cons_of_ne_nil (List.ne_nil_of_mem member)

/-- Some token leads, since the end of the text is no comment. -/
theorem HasEnd.exists_lead (ends : HasEnd tokens) : ∃ kind, leadKind tokens = some kind := by
  obtain ⟨token, member, kind⟩ := ends
  have found : (tokens.find? fun token => token.kind != .comment).isSome := by
    rw [List.find?_isSome]
    exact ⟨token, member, by simp [kind]⟩
  obtain ⟨lead, eq⟩ := Option.isSome_iff_exists.1 found
  exact ⟨lead.kind, by simp [leadKind, eq]⟩

/-- The end of the text stands behind the tokens that are not it. -/
theorem HasEnd.of_append {front : List Token} (others : ∀ token ∈ front, token.kind ≠ .endOfText)
    (ends : HasEnd (front ++ rest)) : HasEnd rest := by
  obtain ⟨last, member, kind⟩ := ends
  rcases List.mem_append.1 member with inside | member
  · exact absurd kind (others last inside)
  · exact ⟨last, member, kind⟩

/-- The end of the text is not among comments and what starts a word. -/
theorem HasEnd.of_cons {token : Token} (all : Comments comments) (other : token.kind ≠ .endOfText)
    (ends : HasEnd (comments ++ token :: rest)) : HasEnd rest := by
  rw [List.append_cons] at ends
  refine ends.of_append (List.forall_mem_append.2 ⟨fun comment member => ?_, ?_⟩)
  · simp [all comment member]
  · exact List.forall_mem_singleton.2 other

/-- The end of the text is not among separators. -/
theorem Separators.hasEnd {separators : List Token} (all : Separators separators)
    (ends : HasEnd (separators ++ rest)) : HasEnd rest := by
  refine ends.of_append fun token member => ?_
  rcases all token member with other | other <;> simp [other]

/-- A token that a word is read from. -/
theorem IsWord.exists_of_kind {token : Token} (all : Comments comments)
    (kind : token.kind = .atom ∨ token.kind = .quotedString) :
    ∃ word, IsWord (comments ++ [token]) word := by
  rcases kind with kind | kind
  · exact ⟨_, .atom all kind⟩
  · exact ⟨_, .quoted all kind⟩

/-- As many words as there are stand in front of a token of another kind. -/
theorem exists_words (ends : HasEnd tokens) :
    ∃ name words rest kind, tokens = name ++ rest ∧ IsWords name words ∧
      leadKind rest = some kind ∧ kind ≠ .atom ∧ kind ≠ .quotedString := by
  induction length : tokens.length using Nat.strongRecOn generalizing tokens with
  | _ size ih =>
      obtain ⟨kind, lead⟩ := ends.exists_lead
      by_cases word : kind = .atom ∨ kind = .quotedString
      · obtain ⟨comments, token, rest, rfl, all, rfl, _⟩ := exists_of_leadKind lead
        have other : token.kind ≠ .endOfText := by
          rcases word with kind | kind <;> rw [kind] <;> decide
        have shorter : rest.length < size := by
          simp only [List.length_append, List.length_cons] at length
          omega
        obtain ⟨name, words, behind, kind, rfl, derived, lead, no_word⟩ :=
          ih rest.length shorter (ends.of_cons all other) rfl
        obtain ⟨first, item⟩ := IsWord.exists_of_kind all word
        exact ⟨comments ++ [token] ++ name, first :: words, behind, kind, by simp,
          .cons item derived, lead, no_word⟩
      · rw [not_or] at word
        exact ⟨[], [], tokens, kind, rfl, .nil, lead, word⟩

/-! ## How parts begin -/

/-- A kind of token that leads a mailbox. -/
def LeadsMailbox (kind : Kind) : Prop :=
  kind = .atom ∨ kind = .quotedString ∨ kind = .lessThan

theorem IsWord.leadKind {word : Word} (derived : IsWord tokens word) (rest : List Token) :
    leadKind (tokens ++ rest) = some .atom ∨ leadKind (tokens ++ rest) = some .quotedString := by
  obtain ⟨comments, token, rfl, all, kind, _⟩ := derived.strip
  have other : token.kind ≠ .comment := by rcases kind with kind | kind <;> rw [kind] <;> decide
  rw [List.append_assoc, List.singleton_append, all.leadKind_append, leadKind_cons_of_ne other]
  rcases kind with kind | kind <;> simp [kind]

theorem IsAddrSpec.leadKind {spec : AddrSpec} (derived : IsAddrSpec tokens spec)
    (rest : List Token) :
    leadKind (tokens ++ rest) = some .atom ∨ leadKind (tokens ++ rest) = some .quotedString := by
  cases derived with
  | parts series =>
      cases series with
      | items first =>
          rw [List.append_assoc, List.append_assoc]
          exact first.leadKind _

theorem IsRouteAddr.leadKind {spec : AddrSpec} (derived : IsRouteAddr tokens spec)
    (rest : List Token) : leadKind (tokens ++ rest) = some .lessThan := by
  cases derived with
  | @brackets before inside relays words less greater _ all kind =>
      have other : less.kind ≠ .comment := by rw [kind]; decide
      rw [List.append_assoc, all.leadKind_append, List.cons_append, leadKind_cons_of_ne other, kind]

theorem IsWords.leadKind {word : Word} {words : List Word} (derived : IsWords tokens (word :: words))
    (rest : List Token) :
    leadKind (tokens ++ rest) = some .atom ∨ leadKind (tokens ++ rest) = some .quotedString := by
  cases derived with
  | cons first =>
      rw [List.append_assoc]
      exact first.leadKind _

theorem IsMailbox.leadKind {value : Mailbox} (derived : IsMailbox tokens following value)
    (rest : List Token) : ∃ kind, leadKind (tokens ++ rest) = some kind ∧ LeadsMailbox kind := by
  cases derived with
  | plain spec =>
      rcases spec.leadKind rest with lead | lead
      · exact ⟨_, lead, .inl rfl⟩
      · exact ⟨_, lead, .inr (.inl rfl)⟩
  | angle spec => exact ⟨_, spec.leadKind rest, .inr (.inr rfl)⟩
  | named name =>
      rw [List.append_assoc]
      rcases name.leadKind _ with lead | lead
      · exact ⟨_, lead, .inl rfl⟩
      · exact ⟨_, lead, .inr (.inl rfl)⟩

theorem IsAddress.leadKind {value : Address} (derived : IsAddress tokens following value)
    (rest : List Token) : ∃ kind, leadKind (tokens ++ rest) = some kind ∧ LeadsMailbox kind := by
  cases derived with
  | group part =>
      cases part with
      | empty name | full name =>
          rw [List.append_assoc]
          rcases name.leadKind _ with lead | lead
          · exact ⟨_, lead, .inl rfl⟩
          · exact ⟨_, lead, .inr (.inl rfl)⟩
  | mailbox part => exact part.leadKind rest

/-- Members begin like mailboxes. -/
def BeginsAsMailbox {α : Type} (Member : List Token → List Token → α → Prop) : Prop :=
  ∀ tokens following value rest, Member tokens following value →
    ∃ kind, leadKind (tokens ++ rest) = some kind ∧ LeadsMailbox kind

/-- A list begins with a member. -/
theorem IsMembers.leadKind {α : Type} {Member : List Token → List Token → α → Prop}
    {close : List Token} {list : List (Commented α)} (begins : BeginsAsMailbox Member)
    (derived : IsMembers Member close tokens list) (rest : List Token) :
    ∃ kind, leadKind (tokens ++ rest) = some kind ∧ LeadsMailbox kind := by
  cases derived with
  | last first =>
      rw [List.append_assoc]
      exact begins _ _ _ _ first
  | cons first =>
      rw [List.append_assoc]
      exact begins _ _ _ _ first

end Derivation

namespace Parser

open MailAddress.Derivation

variable {α : Type} {tokens rest following name : List Token} {kind : Kind}

/-! ## Names -/

theorem run_repeatedWithin {words : List Word} (derived : IsWords name words)
    (lead : leadKind rest = some kind) (no_atom : kind ≠ .atom) (no_quoted : kind ≠ .quotedString) :
    ∀ bound, name.length < bound → repeatedWithin word bound false (name ++ rest) =
      ⟨.matched ⟨words, commentsOf name⟩ rest, []⟩ := by
  induction derived with
  | nil =>
      intro bound enough
      obtain ⟨bound, rfl⟩ : ∃ b, bound = b + 1 := ⟨bound - 1, by omega⟩
      have missing := run_attempt_of_failed (run_word_of_lead lead no_atom no_quoted)
      simp [repeatedWithin, missing]
  | @cons item others value values first _ ih =>
      intro bound enough
      obtain ⟨bound, rfl⟩ : ∃ b, bound = b + 1 := ⟨bound - 1, by omega⟩
      have some : item.length ≠ 0 := by
        obtain ⟨comments, token, rfl, _⟩ := first.strip
        simp
      have fits : others.length < bound := by
        rw [List.length_append] at enough
        omega
      have read : word false (item ++ (others ++ rest)) =
          ⟨.matched ⟨value, commentsOf item⟩ (others ++ rest), []⟩ := run_word first
      have found := run_attempt_of_matched read
      simp [repeatedWithin, found, ih bound fits]

theorem run_phrase {value : Word} {words : List Word} (derived : IsWords name (value :: words))
    (lead : leadKind rest = some kind) (no_atom : kind ≠ .atom) (no_quoted : kind ≠ .quotedString) :
    phrase false (name ++ rest) = ⟨.matched ⟨value :: words, commentsOf name⟩ rest, []⟩ := by
  cases derived with
  | @cons item others _ _ first derived =>
      have fits : others.length < (others ++ rest).length := by
        obtain ⟨comments, token, behind, rfl, _⟩ := exists_of_leadKind lead
        simp only [List.length_append, List.length_cons]
        omega
      have loop : repeated word false (others ++ rest) =
          ⟨.matched ⟨words, commentsOf others⟩ rest, []⟩ :=
        run_repeatedWithin derived lead no_atom no_quoted _ fits
      simp [phrase, run_word first, loop]

theorem run_phrase_of_lead (lead : leadKind tokens = some kind) (no_atom : kind ≠ .atom)
    (no_quoted : kind ≠ .quotedString) : phrase false tokens = ⟨.failed, []⟩ := by
  simp [phrase, run_word_of_lead lead no_atom no_quoted]

/-! ## Alternatives that fail -/

/-- Words that are no name are followed by no angle bracket. -/
theorem run_routeSpec_of_not_nameAhead (ends : HasEnd tokens)
    (lead : leadKind tokens = some kind) (no_angle : kind ≠ .lessThan)
    (no_name : ¬ NameAhead tokens) : routeSpec false tokens = ⟨.failed, []⟩ := by
  obtain ⟨name, words, rest, behind, rfl, derived, behind_lead, no_atom, no_quoted⟩ :=
    exists_words ends
  cases words with
  | nil =>
      cases derived
      have no_phrase := run_attempt_of_failed (run_phrase_of_lead behind_lead no_atom no_quoted)
      rw [List.nil_append] at lead
      simp [routeSpec, no_phrase, run_routeAddr_of_lead lead no_angle]
  | cons word words =>
      have found := run_attempt_of_matched (run_phrase derived behind_lead no_atom no_quoted)
      have other : behind ≠ .lessThan := fun same =>
        no_name ⟨name, rest, word, words, rfl, derived, .inr (same ▸ behind_lead)⟩
      simp [routeSpec, found, run_routeAddr_of_lead behind_lead other]

/-- Words that are no name of a group are followed by no colon. -/
theorem run_group_of_headKind {value : Word} {words : List Word}
    (derived : IsWords name (value :: words)) (lead : leadKind rest = some kind)
    (no_atom : kind ≠ .atom) (no_quoted : kind ≠ .quotedString)
    (no_colon : headKind rest ≠ some .colon) : group false (name ++ rest) = ⟨.failed, []⟩ := by
  cases rest with
  | nil => cases lead
  | cons next rest =>
      have other : next.kind ≠ .colon := fun same => no_colon (by rw [headKind_cons, same])
      simp [group, run_phrase derived lead no_atom no_quoted, run_expect_of_ne false other]

theorem run_group_of_lead (lead : leadKind tokens = some kind) (no_atom : kind ≠ .atom)
    (no_quoted : kind ≠ .quotedString) : group false tokens = ⟨.failed, []⟩ := by
  simp [group, run_phrase_of_lead lead no_atom no_quoted]

/-- Behind words in front of an angle bracket comes no colon. -/
theorem run_group_of_named {word : Word} {words : List Word} {spec : AddrSpec}
    (derived : IsWords name (word :: words)) (target : IsRouteAddr tokens spec) :
    group false (name ++ (tokens ++ rest)) = ⟨.failed, []⟩ := by
  have lead := target.leadKind rest
  have no_colon : headKind (tokens ++ rest) ≠ some .colon := fun head => by
    rw [leadKind_of_headKind head (by decide)] at lead
    cases lead
  exact run_group_of_headKind derived lead (by decide) (by decide) no_colon

theorem run_group_of_not_nameAhead (ends : HasEnd tokens) (no_name : ¬ NameAhead tokens) :
    group false tokens = ⟨.failed, []⟩ := by
  obtain ⟨name, words, rest, behind, rfl, derived, lead, no_atom, no_quoted⟩ := exists_words ends
  cases words with
  | nil =>
      cases derived
      exact run_group_of_lead lead no_atom no_quoted
  | cons word words =>
      have no_colon : headKind rest ≠ some .colon := fun colon =>
        no_name ⟨name, rest, word, words, rfl, derived, .inl colon⟩
      exact run_group_of_headKind derived lead no_atom no_quoted no_colon

theorem run_mailbox_of_lead (lead : leadKind tokens = some kind) (other : ¬ LeadsMailbox kind) :
    mailbox false tokens = ⟨.failed, []⟩ := by
  obtain ⟨no_atom, no_quoted, no_angle⟩ : kind ≠ .atom ∧ kind ≠ .quotedString ∧ kind ≠ .lessThan := by
    simpa [LeadsMailbox] using other
  have no_phrase := run_attempt_of_failed (run_phrase_of_lead lead no_atom no_quoted)
  have no_route : routeSpec false tokens = ⟨.failed, []⟩ := by
    simp [routeSpec, no_phrase, run_routeAddr_of_lead lead no_angle]
  simp [mailbox, orElse, run_attempt_of_failed no_route, run_addrSpec_of_lead lead no_atom no_quoted]

/-! ## Mailboxes and lists -/

/-- What stands behind a member lets it end: more follows, and that continues no sequence. -/
structure MayFollow (following : List Token) : Prop where
  /-- The end of the text comes at last. -/
  ends : HasEnd following
  /-- No word and no label continues a sequence. -/
  no_period : headKind following ≠ some .period
  /-- No domain comes. -/
  no_sign : headKind following ≠ some .atSign

/-- What a mailbox notes while it is matched. -/
def mailboxEvents (mailbox : Mailbox) : List Event := [.finalDomain mailbox.spec.finalDomain]

theorem run_routeSpec_angle {spec : AddrSpec} (derived : IsRouteAddr tokens spec) :
    routeSpec false (tokens ++ rest) =
      ⟨.matched (.angle none ⟨spec, commentsOf tokens⟩) rest, [.finalDomain spec.finalDomain]⟩ := by
  have lead := derived.leadKind rest
  have no_phrase := run_attempt_of_failed (run_phrase_of_lead lead (by decide) (by decide))
  simp [routeSpec, no_phrase, run_routeAddr derived]

theorem run_routeSpec_named {word : Word} {words : List Word} {spec : AddrSpec}
    (derived : IsWords name (word :: words)) (target : IsRouteAddr tokens spec) :
    routeSpec false (name ++ (tokens ++ rest)) =
      ⟨.matched (.angle (some ⟨word :: words, commentsOf name⟩) ⟨spec, commentsOf tokens⟩) rest,
        [.finalDomain spec.finalDomain]⟩ := by
  have lead := target.leadKind rest
  have name_found := run_attempt_of_matched (run_phrase derived lead (by decide) (by decide))
  simp [routeSpec, name_found, run_routeAddr target]

theorem run_mailbox_angle {spec : AddrSpec} (derived : IsRouteAddr tokens spec) :
    mailbox false (tokens ++ rest) =
      ⟨.matched (.angle none ⟨spec, commentsOf tokens⟩) rest, [.finalDomain spec.finalDomain]⟩ := by
  simp [mailbox, orElse, run_attempt_of_matched (run_routeSpec_angle derived)]

theorem run_mailbox_named {word : Word} {words : List Word} {spec : AddrSpec}
    (derived : IsWords name (word :: words)) (target : IsRouteAddr tokens spec) :
    mailbox false (name ++ (tokens ++ rest)) =
      ⟨.matched (.angle (some ⟨word :: words, commentsOf name⟩) ⟨spec, commentsOf tokens⟩) rest,
        [.finalDomain spec.finalDomain]⟩ := by
  simp [mailbox, orElse, run_attempt_of_matched (run_routeSpec_named derived target)]

theorem run_mailbox {value : Mailbox} (derived : IsMailbox tokens following value)
    (follows : MayFollow following) :
    mailbox false (tokens ++ following) = ⟨.matched value following, mailboxEvents value⟩ := by
  obtain ⟨next, rest, rfl⟩ := follows.ends.exists_cons
  have no_period : next.kind ≠ .period := fun same => follows.no_period (congrArg some same)
  have no_sign : next.kind ≠ .atSign := fun same => follows.no_sign (congrArg some same)
  cases derived with
  | @plain _ _ spec derived no_comment no_name =>
      have other : next.kind ≠ .comment := fun same => no_comment (congrArg some same)
      have no_route : routeSpec false (tokens ++ next :: rest) = ⟨.failed, []⟩ := by
        have ends := follows.ends.append tokens
        rcases derived.leadKind (next :: rest) with lead | lead
        · exact run_routeSpec_of_not_nameAhead ends lead (by decide) no_name
        · exact run_routeSpec_of_not_nameAhead ends lead (by decide) no_name
      simp [mailbox, orElse, run_attempt_of_failed no_route,
        run_addrSpec derived other no_period no_sign, mailboxEvents, Mailbox.spec]
  | angle derived => exact run_mailbox_angle derived
  | named derived target =>
      rw [List.append_assoc]
      exact run_mailbox_named derived target

/-- A parser of members stops right behind each of them. -/
def MatchesMember (parser : Parser α) (Member : List Token → List Token → α → Prop)
    (notes : α → List Event) : Prop :=
  ∀ tokens following value, Member tokens following value → MayFollow following →
    parser false (tokens ++ following) = ⟨.matched value following, notes value⟩

/-- A token that closes a list: it continues nothing, and either it ends the text or no member
starts there. -/
structure Closes (parser : Parser α) (next : Token) (rest : List Token) : Prop where
  /-- The list may end in front of it. -/
  follows : MayFollow (next :: rest)
  /-- It is no separator. -/
  no_comment : next.kind ≠ .comment
  /-- It is no separator. -/
  no_comma : next.kind ≠ .comma
  /-- No member is tried, or none is found. -/
  stops : next.kind = .endOfText ∨ parser false (next :: rest) = ⟨.failed, []⟩

theorem MayFollow.of_lead (ends : HasEnd tokens) (lead : leadKind tokens = some kind)
    (begins : LeadsMailbox kind) : MayFollow tokens := by
  refine ⟨ends, fun head => ?_, fun head => ?_⟩
  · rw [leadKind_of_headKind head (by decide)] at lead
    cases lead
    simp [LeadsMailbox] at begins
  · rw [leadKind_of_headKind head (by decide)] at lead
    cases lead
    simp [LeadsMailbox] at begins

theorem MayFollow.behind {separators : List Token} (all : Separators separators)
    (follows : MayFollow following) : MayFollow (separators ++ following) := by
  cases separators with
  | nil => exact follows
  | cons token separators =>
      have kind := all token List.mem_cons_self
      refine ⟨follows.ends.append _, ?_, ?_⟩
      · rcases kind with kind | kind <;> simp [kind]
      · rcases kind with kind | kind <;> simp [kind]

/-- A member has a token. -/
theorem length_lt_of_begins {Member : List Token → List Token → α → Prop} {value : α}
    (begins : BeginsAsMailbox Member) (derived : Member tokens following value) :
    following.length < (tokens ++ following).length := by
  obtain ⟨kind, lead, _⟩ := begins tokens following value [] derived
  obtain ⟨comments, token, behind, eq, _⟩ := exists_of_leadKind lead
  have length := congrArg List.length eq
  simp only [List.length_append, List.length_nil, List.length_cons] at length ⊢
  omega

/-- Members start with a token that neither separates them nor ends the text. -/
theorem exists_head_of_isMembers {Member : List Token → List Token → α → Prop}
    (begins : BeginsAsMailbox Member) {close : List Token} {list : List (Commented α)}
    (derived : IsMembers Member close tokens list) (no_comment : headKind tokens ≠ some .comment) :
    ∃ token behind, tokens = token :: behind ∧ token.kind ≠ .comment ∧ token.kind ≠ .comma ∧
      token.kind ≠ .endOfText := by
  obtain ⟨kind, lead, begins_kind⟩ := derived.leadKind begins []
  rw [List.append_nil] at lead
  cases tokens with
  | nil => cases lead
  | cons token tokens =>
      have other : token.kind ≠ .comment := fun kind => no_comment (congrArg some kind)
      rw [leadKind_cons_of_ne other] at lead
      obtain rfl := Option.some.inj lead
      refine ⟨token, tokens, rfl, other, fun comma => ?_, fun finish => ?_⟩
      · rw [comma] at begins_kind
        simp [LeadsMailbox] at begins_kind
      · rw [finish] at begins_kind
        simp [LeadsMailbox] at begins_kind

/-- Behind the last member the list ends. -/
theorem run_membersWithin_last {parser : Parser α} {next : Token} (closes : Closes parser next rest)
    {separators : List Token} (all : Separators separators) (value : α) (bound : Nat) :
    membersWithin parser (bound + 1) value false (separators ++ next :: rest) =
      ⟨.matched [⟨value, commentsOf separators⟩] (next :: rest), []⟩ := by
  have skip : skipSeparators false (separators ++ next :: rest) =
      ⟨.matched (commentsOf separators) (next :: rest), []⟩ :=
    run_skipSeparators false all closes.no_comment closes.no_comma
  rcases closes.stops with finish | missing
  · simp [membersWithin, skip, finish]
  · by_cases finish : next.kind = .endOfText
    · simp [membersWithin, skip, finish]
    · simp [membersWithin, skip, finish, run_attempt_of_failed missing]

/-- The members behind the first are matched one by one. -/
theorem run_membersWithin {parser : Parser α} {Member : List Token → List Token → α → Prop}
    {notes : α → List Event} (matches_member : MatchesMember parser Member notes)
    (begins : BeginsAsMailbox Member) {next : Token} (closes : Closes parser next rest)
    {list : List (Commented α)} (derived : IsMembers Member (next :: rest) tokens list) :
    ∃ first following events,
      parser false (tokens ++ next :: rest) = ⟨.matched first following, notes first⟩ ∧
      following.length < (tokens ++ next :: rest).length ∧
      (∀ bound, following.length ≤ bound → membersWithin parser bound first false following =
        ⟨.matched list (next :: rest), events⟩) ∧
      notes first ++ events = list.flatMap fun member => notes member.body := by
  -- The loop is entered with a member that has been matched, so the first member is apart from the
  -- rest of the run, for each tail of the list.
  induction derived with
  | @last member separators value derived all =>
      refine ⟨value, separators ++ next :: rest, [], ?_, ?_, ?_, by simp⟩
      · rw [List.append_assoc]
        exact matches_member member _ value derived (closes.follows.behind all)
      · rw [List.append_assoc]
        exact length_lt_of_begins begins derived
      · intro bound enough
        obtain ⟨bound, rfl⟩ : ∃ b, bound = b + 1 := by
          refine ⟨bound - 1, ?_⟩
          simp only [List.length_append, List.length_cons] at enough
          omega
        exact run_membersWithin_last closes all value bound
  | @cons member separators others value values derived all no_comment derived_others ih =>
      obtain ⟨second, following, events, found, fewer, loop, same⟩ := ih
      obtain ⟨kind, lead, begins_kind⟩ := derived_others.leadKind begins (next :: rest)
      have follows := MayFollow.of_lead (closes.follows.ends.append others) lead begins_kind
      obtain ⟨token, behind, eq, other, no_comma, no_finish⟩ :=
        exists_head_of_isMembers begins derived_others no_comment
      refine ⟨value, separators ++ (others ++ next :: rest), notes second ++ events, ?_, ?_, ?_, ?_⟩
      · simp only [List.append_assoc]
        exact matches_member member _ value derived (follows.behind all)
      · simp only [List.append_assoc]
        exact length_lt_of_begins begins derived
      · intro bound enough
        obtain ⟨bound, rfl⟩ : ∃ b, bound = b + 1 := by
          refine ⟨bound - 1, ?_⟩
          simp only [List.length_append, List.length_cons] at enough
          omega
        have fits : following.length ≤ bound := by
          rw [List.length_append] at enough
          omega
        rw [eq, List.cons_append] at found ⊢
        simp [membersWithin, run_skipSeparators false all other no_comma, no_finish,
          run_attempt_of_matched found, loop bound fits]
      · rw [List.flatMap_cons, same]

theorem run_members {parser : Parser α} {Member : List Token → List Token → α → Prop}
    {notes : α → List Event} (matches_member : MatchesMember parser Member notes)
    (begins : BeginsAsMailbox Member) {next : Token} (closes : Closes parser next rest)
    {list : List (Commented α)} (derived : IsMembers Member (next :: rest) tokens list) :
    members parser false (tokens ++ next :: rest) =
      ⟨.matched list (next :: rest), list.flatMap fun member => notes member.body⟩ := by
  obtain ⟨first, following, events, found, _, loop, same⟩ :=
    run_membersWithin matches_member begins closes derived
  have others := loop following.length (Nat.le_refl _)
  change (parser false (tokens ++ next :: rest)).andThen
    (fun first following => membersWithin parser following.length first false following) = _
  rw [found, Run.andThen_matched, others, same]

theorem run_members_of_failed {parser : Parser α} (run : parser false tokens = ⟨.failed, []⟩) :
    members parser false tokens = ⟨.failed, []⟩ := by
  change (parser false tokens).andThen
    (fun first following => membersWithin parser following.length first false following) = _
  rw [run, Run.andThen_failed]

/-! ## Groups and fields -/

theorem closes_semicolon {semicolon : Token} (kind : semicolon.kind = .semicolon)
    (ends : HasEnd following) : Closes mailbox semicolon following := by
  have no_comment : semicolon.kind ≠ .comment := by rw [kind]; decide
  have lead : leadKind (semicolon :: following) = some .semicolon := by
    rw [leadKind_cons_of_ne no_comment, kind]
  refine ⟨⟨ends.append [semicolon], ?_, ?_⟩, no_comment, ?_, .inr ?_⟩
  · simp [kind]
  · simp [kind]
  · simp [kind]
  · exact run_mailbox_of_lead lead (by simp [LeadsMailbox])

theorem run_group {value : Group} (derived : IsGroup tokens following value)
    (ends : HasEnd following) :
    group false (tokens ++ following) =
      ⟨.matched value following, value.members.flatMap fun member => mailboxEvents member.body⟩ := by
  cases derived with
  | @empty name comments _ colon semicolon word words derived colon_kind all kind =>
      have no_comment : semicolon.kind ≠ .comment := by rw [kind]; decide
      have colon_other : colon.kind ≠ .comment := by rw [colon_kind]; decide
      have lead : leadKind (colon :: (comments ++ semicolon :: following)) = some .colon := by
        rw [leadKind_cons_of_ne colon_other, colon_kind]
      have inner : leadKind (comments ++ semicolon :: following) = some .semicolon := by
        rw [all.leadKind_append, leadKind_cons_of_ne no_comment, kind]
      have none_found : mailboxes false (comments ++ semicolon :: following) = ⟨.failed, []⟩ := by
        exact run_members_of_failed (run_mailbox_of_lead inner (by simp [LeadsMailbox]))
      simp [group, List.append_assoc, run_phrase derived lead (by decide) (by decide),
        run_expect false colon_kind, run_attempt_of_failed none_found,
        run_skipComments false all no_comment, run_expect false kind, all.commentsOf_eq]
  | @full name body _ colon semicolon word words list derived colon_kind list_derived kind =>
      have closes := closes_semicolon kind ends
      have colon_other : colon.kind ≠ .comment := by rw [colon_kind]; decide
      have lead : leadKind (colon :: (body ++ semicolon :: following)) = some .colon := by
        rw [leadKind_cons_of_ne colon_other, colon_kind]
      have found : mailboxes false (body ++ semicolon :: following) =
          ⟨.matched list (semicolon :: following),
            list.flatMap fun member => mailboxEvents member.body⟩ :=
        run_members (fun _ _ _ => run_mailbox) (fun _ _ _ rest mailbox => mailbox.leadKind rest)
          closes list_derived
      simp [group, List.append_assoc, run_phrase derived lead (by decide) (by decide),
        run_expect false colon_kind, run_attempt_of_matched found,
        run_skipComments_of_ne false closes.no_comment, run_expect false kind]

/-- What a member of a field notes while it is matched. -/
def addressEvents (address : Address) : List Event := address.mailboxes.flatMap mailboxEvents

theorem run_address {value : Address} (derived : IsAddress tokens following value)
    (follows : MayFollow following) :
    address false (tokens ++ following) = ⟨.matched value following, addressEvents value⟩ := by
  cases derived with
  | @group part derived =>
      have found : (do return .group (← group) : Parser Address) false (tokens ++ following) =
          ⟨.matched (.group part) following,
            part.members.flatMap fun member => mailboxEvents member.body⟩ := by
        simp [run_group derived follows.ends]
      simp [address, orElse, run_attempt_of_matched found, addressEvents, Address.mailboxes,
        List.flatMap_map]
  | @mailbox part derived =>
      have no_group : group false (tokens ++ following) = ⟨.failed, []⟩ := by
        have derived_mailbox := derived
        cases derived with
        | plain _ _ no_name => exact run_group_of_not_nameAhead (follows.ends.append tokens) no_name
        | angle derived =>
            exact run_group_of_lead (derived.leadKind following) (by decide) (by decide)
        | named derived target =>
            rw [List.append_assoc]
            exact run_group_of_named derived target
      have missing : (do return .group (← group) : Parser Address) false (tokens ++ following) =
          ⟨.failed, []⟩ := by
        simp [no_group]
      simp [address, orElse, run_attempt_of_failed missing, run_mailbox derived follows,
        addressEvents, Address.mailboxes]

/-- A derived field is matched, up to the token of the end. -/
theorem run_addresses {list : AddressList} {finish : Token}
    (derived : IsMembers IsAddress [finish] tokens list) (kind : finish.kind = .endOfText) :
    addresses false (tokens ++ [finish]) =
      ⟨.matched list [finish], list.mailboxes.flatMap mailboxEvents⟩ := by
  have ends : HasEnd [finish] := ⟨finish, List.mem_singleton_self finish, kind⟩
  have closes : Closes address finish [] := by
    refine ⟨⟨ends, ?_, ?_⟩, ?_, ?_, .inl kind⟩ <;> simp [kind]
  have found : members address false (tokens ++ [finish]) =
      ⟨.matched list [finish], list.flatMap fun member => addressEvents member.body⟩ :=
    run_members (fun _ _ _ => run_address) (fun _ _ _ rest member => member.leadKind rest)
      closes derived
  simp [addresses, run_attempt_of_matched found, kind, AddressList.mailboxes, addressEvents,
    List.flatMap_assoc]

/-! ## Where a field stops -/

/-- Without a first member a field stops at once. -/
theorem exists_run_addresses_of_failed (failed : (members address false tokens).outcome = .failed) :
    ∃ events, addresses false tokens = ⟨.failed, events ++ [.stopped tokens]⟩ := by
  obtain ⟨events, run⟩ : ∃ events, members address false tokens = ⟨.failed, events⟩ :=
    ⟨_, by rw [← failed]⟩
  exact ⟨events, by simp [addresses, run_attempt_of_failed run, stop]⟩

/-- Behind its members a field ends or stops. -/
theorem exists_run_addresses_of_matched {list : AddressList} {next : Token}
    (matched : (members address false tokens).outcome = .matched list (next :: rest)) :
    ∃ events, addresses false tokens =
      if next.kind = .endOfText then ⟨.matched list (next :: rest), events⟩
      else ⟨.failed, events ++ [.stopped (next :: rest)]⟩ := by
  obtain ⟨events, run⟩ : ∃ events, members address false tokens =
      ⟨.matched list (next :: rest), events⟩ := ⟨_, by rw [← matched]⟩
  refine ⟨events, ?_⟩
  by_cases finish : next.kind = .endOfText
  · simp [addresses, run_attempt_of_matched run, finish]
  · simp [addresses, run_attempt_of_matched run, finish, stop]

end Parser

end MailAddress
