import MailAddress.Proofs.Matching.Members
import MailAddress.Proofs.Matching.Productions

/-!
# Every spelled field can be derived with the longest phrases

Tokens that spell a list of addresses may do so in many ways.  The parts of a member have a
derivation by their shape.  A list is derived from the right: a member is put in front of members
that are derived already.  If its words lead up to a name, the member is a single word, and the first
of the others takes this word into its own name.  Otherwise it stands as it is, and the comments
behind it are shared out.
-/

namespace MailAddress

open scoped Computability

namespace Derivation

variable {α : Type} {item : Language Kind} {tokens rest behind comments left right name : List Token}

/-! ## Parts of a member -/

theorem exists_isWord (spells : Spells Production.word tokens) : ∃ word, IsWord tokens word := by
  obtain ⟨comments, last, rfl, all, last_spells⟩ := Spells.mul.1 spells
  have all := Spells.comments.1 all
  rcases Spells.add.1 last_spells with last_spells | last_spells
  · obtain ⟨token, rfl, kind⟩ := Spells.token.1 last_spells
    exact ⟨_, .atom all kind⟩
  · obtain ⟨token, rfl, kind⟩ := Spells.token.1 last_spells
    exact ⟨_, .quoted all kind⟩

theorem exists_isLabel (spells : Spells Production.subDomain tokens) :
    ∃ label, IsLabel tokens label := by
  obtain ⟨comments, last, rfl, all, last_spells⟩ := Spells.mul.1 spells
  have all := Spells.comments.1 all
  rcases Spells.add.1 last_spells with last_spells | last_spells
  · obtain ⟨token, rfl, kind⟩ := Spells.token.1 last_spells
    exact ⟨_, .label all (.inl kind)⟩
  · obtain ⟨token, rfl, kind⟩ := Spells.token.1 last_spells
    exact ⟨_, .label all (.inr kind)⟩

theorem exists_isTail {Item : List Token → α → Prop}
    (derive : ∀ tokens, Spells item tokens → ∃ value, Item tokens value) (all : Comments behind)
    (spells : Spells (Production.comments * Production.token .period * item)∗ tokens) :
    ∃ values, IsTail Item (tokens ++ behind) values := by
  refine spells.kstar_induction
    (motive := fun tokens => ∃ values, IsTail Item (tokens ++ behind) values)
    ⟨[], .stop all⟩ ?_
  rintro left right spells _ ⟨values, others⟩
  obtain ⟨front, tokens, rfl, front_spells, item_spells⟩ := Spells.mul.1 spells
  obtain ⟨comments, last, rfl, comment_spells, last_spells⟩ := Spells.mul.1 front_spells
  obtain ⟨period, rfl, kind⟩ := Spells.token.1 last_spells
  obtain ⟨value, derived⟩ := derive tokens item_spells
  have joined := IsTail.next (Spells.comments.1 comment_spells) kind derived others
  refine ⟨value :: values, ?_⟩
  simpa using joined

theorem exists_isSeries {Item : List Token → α → Prop}
    (derive : ∀ tokens, Spells item tokens → ∃ value, Item tokens value) (all : Comments behind)
    (spells : Spells (item * (Production.comments * Production.token .period * item)∗) tokens) :
    ∃ values, IsSeries Item (tokens ++ behind) values := by
  obtain ⟨first, others, rfl, first_spells, spells⟩ := Spells.mul.1 spells
  obtain ⟨value, derived⟩ := derive first first_spells
  obtain ⟨values, tail⟩ := exists_isTail derive all spells
  refine ⟨value :: values, ?_⟩
  rw [List.append_assoc]
  exact .items derived tail

/-- A hop may take the comments behind it. -/
theorem exists_isHops_cons {hops : List Token} {domains : List Domain}
    (spells : Spells (Production.comments * Production.token .atSign * Production.domain) tokens)
    (all : Comments behind) (derived : IsHops hops domains) :
    ∃ comments hop domain, tokens ++ behind = comments ++ hop ∧ Comments comments ∧
      IsHops (hop ++ hops) (domain :: domains) := by
  obtain ⟨front, labels, rfl, front_spells, domain_spells⟩ := Spells.mul.1 spells
  obtain ⟨comments, last, rfl, comment_spells, last_spells⟩ := Spells.mul.1 front_spells
  obtain ⟨sign, rfl, kind⟩ := Spells.token.1 last_spells
  obtain ⟨domain, series⟩ := exists_isSeries (fun _ => exists_isLabel) all domain_spells
  refine ⟨comments, sign :: (labels ++ behind), domain, by simp, Spells.comments.1 comment_spells, ?_⟩
  exact .cons kind series derived

/-- All comments in front of an at sign go to what stands before them. -/
theorem exists_isHops (all : Comments behind)
    (spells : Spells (Production.comments * Production.token .atSign * Production.domain)∗ tokens) :
    ∃ comments hops domains, tokens ++ behind = comments ++ hops ∧ Comments comments ∧
      IsHops hops domains := by
  refine spells.kstar_induction (motive := fun tokens => ∃ comments hops domains,
    tokens ++ behind = comments ++ hops ∧ Comments comments ∧ IsHops hops domains)
    ⟨behind, [], [], by simp, all, .nil⟩ ?_
  rintro left right spells _ ⟨between, hops, domains, eq, all, derived⟩
  obtain ⟨comments, hop, domain, eq_hop, all, derived⟩ := exists_isHops_cons spells all derived
  refine ⟨comments, hop ++ hops, domain :: domains, ?_, all, derived⟩
  rw [List.append_assoc, eq, ← List.append_assoc, eq_hop, List.append_assoc]

theorem exists_isAddrSpec (all : Comments behind) (spells : Spells Production.addrSpec tokens) :
    ∃ spec, IsAddrSpec (tokens ++ behind) spec := by
  obtain ⟨words, others, rfl, word_spells, spells⟩ := Spells.mul.1 spells
  obtain ⟨comments, hops, domains, eq, all, derived⟩ := exists_isHops all spells
  obtain ⟨localPart, series⟩ := exists_isSeries (fun _ => exists_isWord) all word_spells
  refine ⟨⟨localPart, domains⟩, ?_⟩
  rw [List.append_assoc, eq, ← List.append_assoc]
  exact .parts series derived

theorem exists_isRelays (spells : Spells (1 + Production.route) tokens) :
    ∃ comments relays, tokens = comments ++ relays ∧ Comments comments ∧ IsRelays relays := by
  rcases Spells.add.1 spells with spells | spells
  · rw [Spells.one.1 spells]
    exact ⟨[], [], rfl, .nil, .none⟩
  · obtain ⟨front, close, rfl, front_spells, close_spells⟩ := Spells.mul.1 spells
    obtain ⟨first, others, rfl, first_spells, others_spells⟩ := Spells.mul.1 front_spells
    obtain ⟨before, last, rfl, before_spells, last_spells⟩ := Spells.mul.1 close_spells
    obtain ⟨colon, rfl, kind⟩ := Spells.token.1 last_spells
    obtain ⟨between, hops, domains, eq, all, derived⟩ :=
      exists_isHops (Spells.comments.1 before_spells) others_spells
    obtain ⟨comments, hop, domain, eq_hop, all, derived⟩ :=
      exists_isHops_cons first_spells all derived
    refine ⟨comments, hop ++ hops ++ [colon], ?_, all,
      .some derived (List.cons_ne_nil _ _) kind⟩
    calc first ++ others ++ (before ++ [colon])
        = first ++ (others ++ before) ++ [colon] := by simp
      _ = first ++ between ++ hops ++ [colon] := by rw [eq]; simp
      _ = comments ++ (hop ++ hops ++ [colon]) := by rw [eq_hop]; simp

theorem exists_isRouteAddr (spells : Spells Production.routeAddr tokens) :
    ∃ spec, IsRouteAddr tokens spec := by
  obtain ⟨front, close, rfl, spells, close_spells⟩ := Spells.mul.1 spells
  obtain ⟨front, target, rfl, spells, target_spells⟩ := Spells.mul.1 spells
  obtain ⟨front, route, rfl, spells, route_spells⟩ := Spells.mul.1 spells
  obtain ⟨front, inside, rfl, spells, inside_spells⟩ := Spells.mul.1 spells
  obtain ⟨before, less, rfl, before_spells, less_spells⟩ := Spells.mul.1 spells
  obtain ⟨after, greater, rfl, after_spells, greater_spells⟩ := Spells.mul.1 close_spells
  obtain ⟨less, rfl, less_kind⟩ := Spells.token.1 less_spells
  obtain ⟨greater, rfl, greater_kind⟩ := Spells.token.1 greater_spells
  obtain ⟨comments, relays, rfl, all, relays_derived⟩ := exists_isRelays route_spells
  obtain ⟨spec, derived⟩ := exists_isAddrSpec (Spells.comments.1 after_spells) target_spells
  have inside_all := Comments.append (Spells.comments.1 inside_spells) all
  have brackets := IsRouteAddr.brackets (Spells.comments.1 before_spells) less_kind inside_all
    relays_derived derived greater_kind
  refine ⟨spec, ?_⟩
  simpa using brackets

theorem exists_isWords (spells : Spells Production.phrase tokens) :
    ∃ word words, IsWords tokens (word :: words) := by
  obtain ⟨first, others, rfl, first_spells, spells⟩ := Spells.mul.1 spells
  obtain ⟨word, derived⟩ := exists_isWord first_spells
  obtain ⟨words, others_derived⟩ : ∃ words, IsWords others words := by
    refine spells.kstar_induction (motive := fun tokens => ∃ words, IsWords tokens words)
      ⟨[], .nil⟩ ?_
    rintro left right spells _ ⟨words, derived⟩
    obtain ⟨word, first⟩ := exists_isWord spells
    exact ⟨word :: words, .cons first derived⟩
  exact ⟨word, words, .cons derived others_derived⟩

/-! ## Names ahead -/

/-- Comments up to some other token are all the comments there. -/
theorem Comments.append_cons_inj {first second : Token} (all_left : Comments left)
    (all_right : Comments right) (first_other : first.kind ≠ .comment)
    (second_other : second.kind ≠ .comment)
    (eq : left ++ first :: rest = right ++ second :: behind) :
    left = right ∧ first = second ∧ rest = behind := by
  induction left generalizing right with
  | nil =>
      cases right with
      | nil => simpa using eq
      | cons comment right =>
          obtain ⟨rfl, _⟩ := List.cons.inj eq
          exact absurd (all_right _ List.mem_cons_self) first_other
  | cons comment left ih =>
      cases right with
      | nil =>
          obtain ⟨rfl, _⟩ := List.cons.inj eq
          exact absurd (all_left _ List.mem_cons_self) second_other
      | cons other right =>
          obtain ⟨rfl, tails⟩ := List.cons.inj eq
          obtain ⟨rfl, same⟩ := ih (fun token member => all_left token (.tail _ member))
            (fun token member => all_right token (.tail _ member)) tails
          exact ⟨rfl, same⟩

theorem IsWord.pad {word : Word} (all : Comments comments) (derived : IsWord tokens word) :
    IsWord (comments ++ tokens) word := by
  cases derived with
  | atom others kind =>
      rw [← List.append_assoc]
      exact .atom (all.append others) kind
  | quoted others kind =>
      rw [← List.append_assoc]
      exact .quoted (all.append others) kind

theorem IsWords.pad {word : Word} {words : List Word} (all : Comments comments)
    (derived : IsWords tokens (word :: words)) : IsWords (comments ++ tokens) (word :: words) := by
  cases derived with
  | cons first others =>
      rw [← List.append_assoc]
      exact .cons (first.pad all) others

theorem IsRouteAddr.pad {spec : AddrSpec} (all : Comments comments)
    (derived : IsRouteAddr tokens spec) : IsRouteAddr (comments ++ tokens) spec := by
  cases derived with
  | brackets before less inside relays target greater =>
      rw [← List.append_assoc]
      exact .brackets (all.append before) less inside relays target greater

/-- Behind a word, a name ends or goes on. -/
theorem NameAhead.behind_word {word : Word} (derived : IsWord tokens word)
    (ahead : NameAhead (tokens ++ rest)) :
    headKind rest = some .colon ∨ leadKind rest = some .lessThan ∨ NameAhead rest := by
  obtain ⟨name, behind, _, words, eq, name_derived, closed⟩ := ahead
  cases name_derived with
  | @cons item others _ _ first others_derived =>
      obtain ⟨left, token, rfl, all_left, kind, _⟩ := derived.strip
      obtain ⟨right, second, rfl, all_right, second_kind, _⟩ := first.strip
      have other : token.kind ≠ .comment := by rcases kind with kind | kind <;> rw [kind] <;> decide
      have second_other : second.kind ≠ .comment := by
        rcases second_kind with kind | kind <;> rw [kind] <;> decide
      simp only [List.append_assoc, List.singleton_append] at eq
      obtain ⟨rfl, rfl, rfl⟩ := all_left.append_cons_inj all_right other second_other eq
      cases others_derived with
      | nil =>
          rcases closed with colon | angle
          · exact .inl colon
          · exact .inr (.inl angle)
      | @cons item tail word words second others =>
          exact .inr (.inr ⟨item ++ tail, behind, word, words, rfl, .cons second others, closed⟩)

theorem NameAhead.leadKind (ahead : NameAhead tokens) :
    leadKind tokens = some .atom ∨ leadKind tokens = some .quotedString := by
  obtain ⟨name, rest, word, words, rfl, derived, _⟩ := ahead
  exact derived.leadKind rest

/-- Behind the first word of a name a colon leads, or what may lead a mailbox. -/
theorem NameAhead.leadKind_behind {word : Word} (derived : IsWord tokens word)
    (ahead : NameAhead (tokens ++ rest)) :
    ∃ kind, Derivation.leadKind rest = some kind ∧ (kind = .colon ∨ LeadsMailbox kind) := by
  rcases ahead.behind_word derived with head | angle | ahead
  · exact ⟨.colon, leadKind_of_headKind head (by decide), .inl rfl⟩
  · exact ⟨.lessThan, angle, .inr (.inr (.inr rfl))⟩
  · rcases ahead.leadKind with lead | lead
    · exact ⟨.atom, lead, .inr (.inl rfl)⟩
    · exact ⟨.quotedString, lead, .inr (.inr (.inl rfl))⟩

/-- Comments in front of a name are comments of its first word. -/
theorem nameAhead_append_iff (all : Comments comments) :
    NameAhead (comments ++ tokens) ↔ NameAhead tokens := by
  constructor
  · intro ahead
    have lead := ahead.leadKind
    rw [all.leadKind_append] at lead
    obtain ⟨name, rest, word, words, eq, derived, closed⟩ := ahead
    cases derived with
    | @cons item others _ _ first others_derived =>
        obtain ⟨right, second, rfl, all_right, second_kind, alone⟩ := first.strip
        have second_other : second.kind ≠ .comment := by
          rcases second_kind with kind | kind <;> rw [kind] <;> decide
        obtain ⟨kind, lead⟩ : ∃ kind, Derivation.leadKind tokens = some kind := by
          rcases lead with lead | lead <;> exact ⟨_, lead⟩
        obtain ⟨between, token, behind, rfl, all_between, rfl, other⟩ := exists_of_leadKind lead
        simp only [List.append_assoc, List.singleton_append] at eq
        rw [← List.append_assoc] at eq
        obtain ⟨_, rfl, rfl⟩ :=
          (all.append all_between).append_cons_inj all_right other second_other eq
        refine ⟨between ++ (token :: others), rest, word, words, by simp, ?_, closed⟩
        exact IsWords.pad all_between (.cons alone others_derived)
  · rintro ⟨name, rest, word, words, rfl, derived, closed⟩
    exact ⟨comments ++ name, rest, word, words, by simp, derived.pad all, closed⟩

/-- The words of an address specification lead up to a name only if they are one word, and only
comments stand behind it. -/
theorem IsAddrSpec.exists_word {spec : AddrSpec} (derived : IsAddrSpec tokens spec)
    (ahead : NameAhead (tokens ++ rest)) :
    ∃ item comments word, tokens = item ++ comments ∧ IsWord item word ∧ Comments comments ∧
      spec = ⟨[word], []⟩ := by
  cases derived with
  | @parts words hops localPart domains series hops_derived =>
      cases series with
      | @items item tail word values first others =>
          rw [List.append_assoc, List.append_assoc] at ahead
          obtain ⟨kind, lead, expected⟩ := ahead.leadKind_behind first
          cases others with
          | stop all =>
              cases hops_derived with
              | nil => exact ⟨item, tail, word, by simp, first, all, rfl⟩
              | @cons labels hops sign _ _ sign_kind =>
                  have other : sign.kind ≠ .comment := by rw [sign_kind]; decide
                  rw [all.leadKind_append, List.cons_append, leadKind_cons_of_ne other,
                    sign_kind] at lead
                  cases lead
                  simp [LeadsMailbox] at expected
          | @next between _ _ period _ _ all period_kind =>
              have other : period.kind ≠ .comment := by rw [period_kind]; decide
              rw [List.append_assoc, all.leadKind_append, List.cons_append,
                leadKind_cons_of_ne other, period_kind] at lead
              cases lead
              simp [LeadsMailbox] at expected

/-! ## Lists of members -/

/-- What the members of a list have in common with mailboxes. -/
structure MemberRules (language : Language Kind) (Member : List Token → List Token → α → Prop) :
    Prop where
  /-- A member begins like a mailbox. -/
  begins : BeginsAsMailbox Member
  /-- A member is derived by its shape, unless it is an address specification alone. -/
  derive : ∀ tokens, Spells language tokens →
    (∀ following, ∃ value, Member tokens following value) ∨ Spells Production.addrSpec tokens
  /-- An address specification is a member if it does not begin a name. -/
  plain : ∀ tokens following spec, IsAddrSpec tokens spec → headKind following ≠ some .comment →
    ¬ NameAhead (tokens ++ following) → ∃ value, Member tokens following value
  /-- A member may lose the comments in front of it. -/
  strip : ∀ tokens following value, Member tokens following value →
    ∃ comments stripped value, tokens = comments ++ stripped ∧ Comments comments ∧
      headKind stripped ≠ some .comment ∧ Member stripped following value
  /-- A member takes a word in front of it into its name. -/
  absorb : ∀ item word comments tokens following value, IsWord item word → Comments comments →
    Member tokens following value → NameAhead (item ++ (comments ++ (tokens ++ following))) →
    ∃ value, Member (item ++ (comments ++ tokens)) following value

section Lists

variable {language : Language Kind} {Member : List Token → List Token → α → Prop}
variable {close separators first : List Token} {kind : Kind} {list : List (Commented α)}

theorem headKind_append_ne (front : headKind tokens ≠ some kind) (back : headKind rest ≠ some kind) :
    headKind (tokens ++ rest) ≠ some kind := by
  cases tokens with
  | nil => exact back
  | cons token tokens => exact front

/-- Separators are comments and then a comma, if there is one. -/
theorem Separators.split (all : Separators separators) :
    ∃ comments others, separators = comments ++ others ∧ Comments comments ∧ Separators others ∧
      headKind others ≠ some .comment ∧ (others = [] ∨ headKind others = some .comma) := by
  induction separators with
  | nil => exact ⟨[], [], rfl, .nil, all, by simp, .inl rfl⟩
  | cons token separators ih =>
      have rest : Separators separators := fun other member => all other (.tail _ member)
      rcases all token List.mem_cons_self with comment | comma
      · obtain ⟨comments, others, rfl, all_comments, shape⟩ := ih rest
        exact ⟨token :: comments, others, rfl, List.forall_mem_cons.2 ⟨comment, all_comments⟩, shape⟩
      · exact ⟨[], token :: separators, rfl, .nil, all, by simp [comma], .inr (by simp [comma])⟩

theorem IsMembers.strip (rules : MemberRules language Member)
    (derived : IsMembers Member close tokens list) :
    ∃ comments stripped list, tokens = comments ++ stripped ∧ Comments comments ∧
      headKind (stripped ++ close) ≠ some .comment ∧ headKind stripped ≠ some .comment ∧
      IsMembers Member close stripped list := by
  have nonempty : ∀ {stripped following value} (others : List Token),
      Member stripped following value → headKind stripped ≠ some .comment →
        headKind (stripped ++ others) ≠ some .comment := by
    intro stripped following value others member no_comment
    obtain ⟨kind, lead, _⟩ := rules.begins _ _ _ [] member
    cases stripped with
    | nil => cases lead
    | cons token stripped => exact no_comment
  cases derived with
  | last member all =>
      obtain ⟨comments, stripped, value, rfl, all_comments, no_comment, member⟩ :=
        rules.strip _ _ _ member
      refine ⟨comments, _, _, List.append_assoc _ _ _, all_comments, ?_, ?_, .last member all⟩
      · rw [List.append_assoc]
        exact nonempty _ member no_comment
      · exact nonempty _ member no_comment
  | cons member all head others =>
      obtain ⟨comments, stripped, value, rfl, all_comments, no_comment, member⟩ :=
        rules.strip _ _ _ member
      refine ⟨comments, _, _, List.append_assoc _ _ _, all_comments, ?_, ?_,
        .cons member all head others⟩
      · rw [List.append_assoc]
        exact nonempty _ member no_comment
      · exact nonempty _ member no_comment

theorem IsMembers.absorb (rules : MemberRules language Member) {item : List Token} {word : Word}
    (derived_word : IsWord item word) (all_comments : Comments comments)
    (derived : IsMembers Member close tokens list)
    (ahead : NameAhead (item ++ (comments ++ (tokens ++ close)))) :
    ∃ list, IsMembers Member close (item ++ (comments ++ tokens)) list := by
  cases derived with
  | @last member separators value derived all =>
      simp only [List.append_assoc] at ahead
      obtain ⟨value, member⟩ :=
        rules.absorb item word comments _ _ _ derived_word all_comments derived ahead
      have list := IsMembers.last member all
      simp only [List.append_assoc] at list
      exact ⟨_, list⟩
  | @cons member separators rest value values derived all head others =>
      simp only [List.append_assoc] at ahead
      obtain ⟨value, member⟩ :=
        rules.absorb item word comments _ _ _ derived_word all_comments derived ahead
      have list := IsMembers.cons member all head others
      simp only [List.append_assoc] at list
      exact ⟨_, list⟩

/-- A word that begins a name has no comma behind it. -/
theorem NameAhead.eq_nil_of_separators {item others : List Token} {word : Word}
    (derived : IsWord item word) (all : Comments comments)
    (shape : others = [] ∨ headKind others = some .comma)
    (ahead : NameAhead (item ++ (comments ++ (others ++ rest)))) : others = [] := by
  rcases shape with empty | comma
  · exact empty
  · obtain ⟨kind, lead, expected⟩ := ahead.leadKind_behind derived
    cases others with
    | nil => rfl
    | cons token others =>
        have token_kind : token.kind = .comma := Option.some.inj comma
        have other : token.kind ≠ .comment := by rw [token_kind]; decide
        rw [all.leadKind_append, List.cons_append, leadKind_cons_of_ne other, token_kind] at lead
        cases lead
        simp [LeadsMailbox] at expected

/-- In front of what closes a list, no address specification begins a name. -/
theorem IsAddrSpec.not_nameAhead {others : List Token} {spec : AddrSpec}
    (derived : IsAddrSpec tokens spec) (shape : others = [] ∨ headKind others = some .comma)
    (head : headKind close = some kind) (closing : kind = .endOfText ∨ kind = .semicolon) :
    ¬ NameAhead (tokens ++ (others ++ close)) := by
  intro ahead
  have no_comment : kind ≠ .comment := by rcases closing with rfl | rfl <;> decide
  obtain ⟨item, inside, word, rfl, derived_word, all_inside, _⟩ := derived.exists_word ahead
  rw [List.append_assoc] at ahead
  have empty := ahead.eq_nil_of_separators derived_word all_inside shape
  obtain ⟨found, lead, expected⟩ := ahead.leadKind_behind derived_word
  rw [empty, List.nil_append, all_inside.leadKind_append, leadKind_of_headKind head no_comment] at lead
  obtain rfl := Option.some.inj lead
  rcases closing with rfl | rfl <;> simp [LeadsMailbox] at expected

theorem headKind_ne_of_closing (head : headKind close = some kind)
    (closing : kind = .endOfText ∨ kind = .semicolon) : headKind close ≠ some .comment := by
  rw [head]
  rcases closing with rfl | rfl <;> decide

/-- What spells a member is one in front of what closes a list. -/
theorem exists_member (rules : MemberRules language Member) (head : headKind close = some kind)
    (closing : kind = .endOfText ∨ kind = .semicolon) (spells : Spells language first) :
    ∃ value, Member first close value := by
  rcases rules.derive first spells with derivable | spec
  · exact derivable close
  · obtain ⟨value, derived⟩ := exists_isAddrSpec Comments.nil spec
    rw [List.append_nil] at derived
    exact rules.plain _ _ _ derived (headKind_ne_of_closing head closing)
      (derived.not_nameAhead (.inl rfl) head closing)

theorem exists_isMembers_last (rules : MemberRules language Member)
    (head : headKind close = some kind) (closing : kind = .endOfText ∨ kind = .semicolon)
    (spells : Spells language first) (all : Separators separators) :
    ∃ list, IsMembers Member close (first ++ separators) list := by
  rcases rules.derive first spells with derivable | spec
  · obtain ⟨value, member⟩ := derivable (separators ++ close)
    exact ⟨_, .last member all⟩
  · obtain ⟨before, others, rfl, all_before, all_others, others_head, shape⟩ := all.split
    obtain ⟨value, derived⟩ := exists_isAddrSpec all_before spec
    obtain ⟨value, member⟩ := rules.plain _ _ _ derived
      (headKind_append_ne others_head (headKind_ne_of_closing head closing))
      (derived.not_nameAhead shape head closing)
    rw [← List.append_assoc]
    exact ⟨_, .last member all_others⟩

/-- A member is put in front of others. -/
theorem exists_isMembers_cons (rules : MemberRules language Member) (spells : Spells language first)
    (all : Separators separators) (derived : IsMembers Member close rest list) :
    ∃ list, IsMembers Member close (first ++ (separators ++ rest)) list := by
  obtain ⟨comments, stripped, list, rfl, all_comments, no_comment, stripped_head, derived⟩ :=
    derived.strip rules
  have all_between := all.append all_comments.separators
  rw [← List.append_assoc separators]
  rcases rules.derive first spells with derivable | spec
  · obtain ⟨value, member⟩ := derivable (separators ++ comments ++ (stripped ++ close))
    exact ⟨_, .cons member all_between stripped_head derived⟩
  · obtain ⟨before, others, eq_between, all_before, all_others, others_head, shape⟩ :=
      all_between.split
    rw [eq_between]
    obtain ⟨value, derived_spec⟩ := exists_isAddrSpec all_before spec
    -- A specification that is a single word may begin the name of the member behind it.
    by_cases ahead : NameAhead (first ++ before ++ (others ++ (stripped ++ close)))
    · obtain ⟨item, inside, word, eq, derived_word, all_inside, _⟩ :=
        derived_spec.exists_word ahead
      rw [eq, List.append_assoc] at ahead
      obtain rfl := ahead.eq_nil_of_separators derived_word all_inside shape
      rw [List.append_nil, ← List.append_assoc, eq, List.append_assoc]
      exact derived.absorb rules derived_word all_inside ahead
    · obtain ⟨value, member⟩ := rules.plain _ _ _ derived_spec
        (headKind_append_ne others_head no_comment) ahead
      rw [List.append_assoc, ← List.append_assoc]
      exact ⟨_, .cons member all_others stripped_head derived⟩

/-- Every spelled list can be derived, whichever way it was spelled. -/
theorem exists_isMembers (rules : MemberRules language Member) (head : headKind close = some kind)
    (closing : kind = .endOfText ∨ kind = .semicolon)
    (spells : Spells (language * (Production.separators * language)∗ * Production.separators)
      tokens) : ∃ list, IsMembers Member close tokens list := by
  obtain ⟨members, separators, rfl, members_spells, all⟩ := Spells.mul.1 spells
  obtain ⟨first, others, rfl, first_spells, others_spells⟩ := Spells.mul.1 members_spells
  have all := Spells.separators.1 all
  suffices derive : ∀ first, Spells language first →
      ∃ list, IsMembers Member close (first ++ others ++ separators) list from
    derive first first_spells
  refine others_spells.kstar_induction (motive := fun others => ∀ first, Spells language first →
    ∃ list, IsMembers Member close (first ++ others ++ separators) list) ?_ ?_
  · intro first spells
    rw [List.append_nil]
    exact exists_isMembers_last rules head closing spells all
  · intro left right spells _ ih first first_spells
    obtain ⟨between, second, rfl, between_spells, second_spells⟩ := Spells.mul.1 spells
    obtain ⟨list, derived⟩ := ih second second_spells
    obtain ⟨list, joined⟩ :=
      exists_isMembers_cons rules first_spells (Spells.separators.1 between_spells) derived
    refine ⟨list, ?_⟩
    simpa only [List.append_assoc] using joined

end Lists

/-! ## Mailboxes, groups and fields -/

theorem IsRouteAddr.strip {spec : AddrSpec} (derived : IsRouteAddr tokens spec) :
    ∃ comments stripped, tokens = comments ++ stripped ∧ Comments comments ∧
      headKind stripped ≠ some .comment ∧ IsRouteAddr stripped spec := by
  cases derived with
  | @brackets before inside relays target less greater _ all kind inside_all route derived closed =>
      refine ⟨before, _, rfl, all, ?_, .brackets .nil kind inside_all route derived closed⟩
      simp [kind]

theorem IsWords.strip {word : Word} {words : List Word} (derived : IsWords tokens (word :: words)) :
    ∃ comments stripped, tokens = comments ++ stripped ∧ Comments comments ∧
      (∀ rest, headKind (stripped ++ rest) ≠ some .comment) ∧ IsWords stripped (word :: words) := by
  cases derived with
  | @cons item others _ _ first derived =>
      obtain ⟨comments, token, rfl, all, kind, alone⟩ := first.strip
      refine ⟨comments, [token] ++ others, by simp, all, fun rest => ?_, .cons alone derived⟩
      rcases kind with kind | kind <;> simp [kind]

theorem mailboxRules : MemberRules Production.mailbox IsMailbox where
  begins _ _ _ rest derived := derived.leadKind rest
  derive := by
    intro tokens spells
    rcases Spells.add.1 spells with spells | spells
    · obtain ⟨name, target, rfl, name_spells, target_spells⟩ := Spells.mul.1 spells
      obtain ⟨spec, target⟩ := exists_isRouteAddr target_spells
      rcases Spells.add.1 name_spells with spells | spells
      · rw [Spells.one.1 spells]
        exact .inl fun following => ⟨_, .angle target⟩
      · obtain ⟨word, words, name⟩ := exists_isWords spells
        exact .inl fun following => ⟨_, .named name target⟩
    · exact .inr spells
  plain _ _ _ derived no_comment no_name := ⟨_, .plain derived no_comment no_name⟩
  strip := by
    intro tokens following value derived
    cases derived with
    | plain derived no_comment no_name =>
        obtain ⟨comments, token, rest, rfl, all, kind, alone⟩ := derived.strip
        rw [List.append_assoc, nameAhead_append_iff all] at no_name
        refine ⟨comments, token :: rest, _, rfl, all, ?_, .plain alone no_comment no_name⟩
        rcases kind with kind | kind <;> simp [kind]
    | angle derived =>
        obtain ⟨comments, stripped, rfl, all, no_comment, derived⟩ := derived.strip
        exact ⟨comments, stripped, _, rfl, all, no_comment, .angle derived⟩
    | named name target =>
        obtain ⟨comments, stripped, rfl, all, no_comment, name⟩ := name.strip
        exact ⟨comments, _, _, List.append_assoc _ _ _, all, no_comment _, .named name target⟩
  absorb := by
    intro item word comments tokens following value first all derived ahead
    cases derived with
    | plain derived no_comment no_name =>
        have lead := derived.leadKind following
        rcases ahead.behind_word first with head | angle | ahead
        · have colon := leadKind_of_headKind head (by decide)
          rw [all.leadKind_append] at colon
          rcases lead with lead | lead <;> rw [colon] at lead <;> cases lead
        · rw [all.leadKind_append] at angle
          rcases lead with lead | lead <;> rw [angle] at lead <;> cases lead
        · exact absurd ((nameAhead_append_iff all).1 ahead) no_name
    | angle derived =>
        have name := IsWords.cons first .nil
        rw [List.append_nil] at name
        exact ⟨_, .named name (derived.pad all)⟩
    | named name target =>
        rw [← List.append_assoc comments, ← List.append_assoc item]
        exact ⟨_, .named (.cons first (name.pad all)) target⟩

theorem exists_isGroup (spells : Spells Production.group tokens) (following : List Token) :
    ∃ value, IsGroup tokens following value := by
  obtain ⟨front, last, rfl, front_spells, last_spells⟩ := Spells.mul.1 spells
  obtain ⟨front, body, rfl, head_spells, body_spells⟩ := Spells.mul.1 front_spells
  obtain ⟨name, middle, rfl, name_spells, colon_spells⟩ := Spells.mul.1 head_spells
  obtain ⟨semicolon, rfl, kind⟩ := Spells.token.1 last_spells
  obtain ⟨colon, rfl, colon_kind⟩ := Spells.token.1 colon_spells
  obtain ⟨word, words, name_derived⟩ := exists_isWords name_spells
  have layout : name ++ [colon] ++ body ++ [semicolon] = name ++ colon :: (body ++ [semicolon]) := by
    simp
  rw [layout]
  rcases Spells.add.1 body_spells with comments | list
  · exact ⟨_, .empty name_derived colon_kind (Spells.comments.1 comments) kind⟩
  · have head : headKind (semicolon :: following) = some semicolon.kind := headKind_cons
    obtain ⟨members, derived⟩ := exists_isMembers mailboxRules head (.inr kind) list
    exact ⟨_, .full name_derived colon_kind derived kind⟩

theorem addressRules : MemberRules Production.address IsAddress where
  begins _ _ _ rest derived := derived.leadKind rest
  derive := by
    intro tokens spells
    rcases Spells.add.1 spells with spells | spells
    · refine .inl fun following => ?_
      obtain ⟨value, derived⟩ := exists_isGroup spells following
      exact ⟨_, .group derived⟩
    · rcases mailboxRules.derive tokens spells with derivable | spec
      · refine .inl fun following => ?_
        obtain ⟨value, derived⟩ := derivable following
        exact ⟨_, .mailbox derived⟩
      · exact .inr spec
  plain _ _ _ derived no_comment no_name := ⟨_, .mailbox (.plain derived no_comment no_name)⟩
  strip := by
    intro tokens following value derived
    cases derived with
    | group derived =>
        cases derived with
        | empty name colon all kind =>
            obtain ⟨comments, stripped, rfl, all_comments, no_comment, name⟩ := name.strip
            exact ⟨comments, _, _, List.append_assoc _ _ _, all_comments, no_comment _,
              .group (.empty name colon all kind)⟩
        | full name colon list kind =>
            obtain ⟨comments, stripped, rfl, all_comments, no_comment, name⟩ := name.strip
            exact ⟨comments, _, _, List.append_assoc _ _ _, all_comments, no_comment _,
              .group (.full name colon list kind)⟩
    | mailbox derived =>
        obtain ⟨comments, stripped, value, rfl, all, no_comment, derived⟩ :=
          mailboxRules.strip _ _ _ derived
        exact ⟨comments, stripped, _, rfl, all, no_comment, .mailbox derived⟩
  absorb := by
    intro item word comments tokens following value first all derived ahead
    cases derived with
    | group derived =>
        cases derived with
        | empty name colon inside kind =>
            rw [← List.append_assoc comments, ← List.append_assoc item]
            exact ⟨_, .group (.empty (.cons first (name.pad all)) colon inside kind)⟩
        | full name colon list kind =>
            rw [← List.append_assoc comments, ← List.append_assoc item]
            exact ⟨_, .group (.full (.cons first (name.pad all)) colon list kind)⟩
    | mailbox derived =>
        obtain ⟨value, derived⟩ :=
          mailboxRules.absorb item word comments tokens following _ first all derived ahead
        exact ⟨_, .mailbox derived⟩

/-- Every spelled field can be derived with the longest phrases. -/
theorem exists_isAddressList (spells : Spells Production.addresses tokens) :
    ∃ list, IsAddressList tokens list := by
  obtain ⟨body, last, rfl, body_spells, last_spells⟩ := Spells.mul.1 spells
  obtain ⟨finish, rfl, kind⟩ := Spells.token.1 last_spells
  have head : headKind [finish] = some finish.kind := headKind_cons
  obtain ⟨list, derived⟩ := exists_isMembers addressRules head (.inl kind) body_spells
  exact ⟨list, .field derived kind⟩

end Derivation

end MailAddress
