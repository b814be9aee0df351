import MailAddress.Proofs.Forms.Joined
import MailAddress.Proofs.Matching.Nesting
import MailAddress.Proofs.Matching.Prefixes

/-!
# Fields as groups

A field that is accepted becomes a group if a name and a colon are put in front of it and a semicolon
behind it, unless one of its members is a group already.  The group has the addresses of the field,
and it is shown by the words of the name and the members of the field.
-/

namespace MailAddress

open MailAddress.Derivation

variable {tokens body close : List Token} {list : AddressList} {name members : Text}

/-! ## Names -/

/-- A token of a name as a field shows it. -/
def Token.displayWord (token : Token) : Text :=
  if token.kind = .quotedString then quote (unquote token.text) else token.text

/-- An atom or a quoted string. -/
def Token.IsWordToken (token : Token) : Prop := token.kind = .atom ∨ token.kind = .quotedString

theorem Token.IsWordToken.exists_isWord {token : Token} (word : token.IsWordToken) :
    ∃ value, IsWord [token] value ∧ value.display = token.displayWord := by
  rcases word with atom | quoted
  · exact ⟨_, .atom .nil atom, by simp [displayWord, atom, Word.display]⟩
  · exact ⟨_, .quoted .nil quoted, by simp [displayWord, quoted, Word.display]⟩

theorem exists_isWords_of_wordTokens (all : ∀ token ∈ tokens, token.IsWordToken) :
    ∃ words, IsWords tokens words ∧ words.map Word.display = tokens.map Token.displayWord := by
  induction tokens with
  | nil => exact ⟨[], .nil, rfl⟩
  | cons token tokens ih =>
      obtain ⟨word, derived, shown⟩ := (all token List.mem_cons_self).exists_isWord
      obtain ⟨words, others, rest⟩ := ih fun other member => all other (List.mem_cons_of_mem _ member)
      exact ⟨word :: words, .cons derived others, by rw [List.map_cons, List.map_cons, shown, rest]⟩

/-! ## Members that are mailboxes -/

/-- A member of a group as a member of a field. -/
def Commented.ofMailbox (member : Commented Mailbox) : Commented Address :=
  ⟨.mailbox member.body, member.comments⟩

theorem displayMembers_ofMailbox (f : Text → Text) (mailboxes : List (Commented Mailbox)) :
    displayMembers (Mailbox.written f) mailboxes =
      AddressList.display f (mailboxes.map Commented.ofMailbox) := by
  rw [AddressList.display, displayMembers, displayMembers, List.map_map]
  rfl

theorem canonical_ofMailbox (f : Text → Text) (mailboxes : List (Commented Mailbox)) :
    AddressList.canonical f (mailboxes.map Commented.ofMailbox) =
      mailboxes.flatMap fun member => member.body.canonical f := by
  rw [AddressList.canonical, List.flatMap_map]
  rfl

/-- Members without a group are mailboxes of a group. -/
theorem Derivation.IsMembers.exists_ofMailbox (derived : IsMembers IsAddress close tokens list)
    (alone : ∀ member ∈ list, ∃ mailbox, member.body = .mailbox mailbox) :
    ∃ mailboxes, IsMembers IsMailbox close tokens mailboxes ∧
      list = mailboxes.map Commented.ofMailbox := by
  induction derived with
  | @last tokens separators value derived all =>
      obtain ⟨mailbox, rfl⟩ := alone _ List.mem_cons_self
      cases derived with
      | mailbox derived => exact ⟨[⟨mailbox, _⟩], .last derived all, rfl⟩
  | @cons tokens separators rest value values derived all no_comment _ ih =>
      obtain ⟨mailbox, rfl⟩ := alone _ List.mem_cons_self
      obtain ⟨mailboxes, others, rfl⟩ := ih fun member inside =>
        alone member (List.mem_cons_of_mem _ inside)
      cases derived with
      | mailbox derived => exact ⟨⟨mailbox, _⟩ :: mailboxes, .cons derived all no_comment others, rfl⟩

/-! ## Tokens further behind -/

theorem Token.EndsOnly.shift {finish : Token} (only : Token.EndsOnly tokens body finish)
    (count : Nat) : Token.EndsOnly (tokens.map (Token.shift count))
      (body.map (Token.shift count)) (finish.shift count) := by
  refine ⟨by rw [only.eq, List.map_append, List.map_singleton], only.kind, fun token member => ?_⟩
  obtain ⟨other, inside, rfl⟩ := List.mem_map.1 member
  exact only.others other inside

/-- The tokens of a field are the same list of addresses further behind. -/
theorem Derivation.IsAddressList.shift (derived : IsAddressList tokens list)
    (lexed : tokenize members = .ok tokens) (count : Nat) :
    IsAddressList (tokens.map (Token.shift count)) list := by
  obtain ⟨body, finish, once⟩ := endsOnce_of_tokenize lexed
  obtain ⟨last, run⟩ := derived.run
  have ignores : Parser.addresses.IgnoresSpans :=
    Parser.IgnoresSpans.closed.addresses (Parser.IgnoresSpans.closed.addrSpec fun _ _ _ _ => rfl)
  have same := ignores _ (keepsContent_shift count) tokens
  rw [run] at same
  exact (once.endsOnly.shift count).isAddressList_of_matched same

/-- A name, a colon, a field and a semicolon. -/
def groupField (name members : Text) : Text := name ++ ':' :: (members ++ [';'])

/-- The tokens of a group are those of its name, a colon, those of its members and a semicolon. -/
theorem exists_tokens_groupField {finish : Token}
    (lexed : tokenize name = .ok (tokens ++ [finish]))
    (accepted : (readField false members).verdict = .ok list) :
    ∃ body last colon semicolon finish,
      tokenize (groupField name members) =
        .ok (tokens ++ colon :: (body ++ [semicolon, finish])) ∧
      IsMembers IsAddress [last] body list ∧ colon.kind = .colon ∧
      semicolon.kind = .semicolon ∧ finish.kind = .endOfText := by
  obtain ⟨inside, members_lexed, derived⟩ := verdict_eq_ok_iff.1 accepted
  have shifted := derived.shift members_lexed (name.length + 1)
  obtain ⟨body, rfl, closed⟩ : ∃ body, inside = body ++ [Token.finish members.length] ∧
      tokenize (members ++ [';']) = _ := tokenize_around rfl members_lexed
  obtain ⟨front, same, opened⟩ : ∃ front, tokens ++ [finish] = front ++ [Token.finish name.length] ∧
      tokenize (groupField name members) = _ := tokenize_around rfl lexed
  obtain ⟨rfl, -⟩ := List.append_inj' same rfl
  have nothing : tokenize [] = .ok [Token.finish 0] := rfl
  rw [closed, nothing] at opened
  rw [List.map_append] at shifted
  refine ⟨body.map (Token.shift (name.length + 1)), _, Token.ofLexeme .colon [':'] name.length,
    (Token.ofLexeme .semicolon [';'] members.length).shift (name.length + 1),
    ((Token.finish 0).shift (members.length + 1)).shift (name.length + 1), ?_, shifted.members, rfl,
    rfl, rfl⟩
  rw [opened]
  simp [shiftRead, Except.map]

/-! ## A group of the members of a field -/

/-- A field of one group. -/
def groupOf (words : List Word) (comments : List Text) (mailboxes : List (Commented Mailbox)) :
    AddressList :=
  [⟨.group ⟨⟨words, comments⟩, mailboxes, []⟩, []⟩]

theorem display_groupOf (f : Text → Text) (words : List Word) (comments : List Text)
    (mailboxes : List (Commented Mailbox)) :
    (groupOf words comments mailboxes).display f =
      displayPhrase words ++ ": ".toList ++
        AddressList.display f (mailboxes.map Commented.ofMailbox) ++ [';'] := by
  rw [groupOf, AddressList.display, displayMembers_singleton, ← displayMembers_ofMailbox]
  simp [Commented.display, Address.written, Address.display, Address.deferred, Group.display,
    commentText]

theorem canonical_groupOf (f : Text → Text) (words : List Word) (comments : List Text)
    (mailboxes : List (Commented Mailbox)) :
    (groupOf words comments mailboxes).canonical f =
      AddressList.canonical f (mailboxes.map Commented.ofMailbox) := by
  rw [groupOf, canonical_ofMailbox, AddressList.canonical, List.flatMap_singleton]
  rfl

/-- Mailboxes up to the end are a group behind a name and a colon, if a semicolon comes first. -/
theorem Derivation.isAddressList_groupOf {words : List Word} {name : List Token}
    {colon semicolon finish last : Token} {mailboxes : List (Commented Mailbox)}
    (derived : IsWords name words) (some : words ≠ []) (colon_kind : colon.kind = .colon)
    (members : IsMembers IsMailbox [last] body mailboxes) (kind : semicolon.kind = .semicolon)
    (finish_kind : finish.kind = .endOfText) :
    IsAddressList (name ++ colon :: (body ++ [semicolon, finish]))
      (groupOf words (commentsOf name) mailboxes) := by
  obtain ⟨word, others, rfl⟩ := List.exists_cons_of_ne_nil some
  have breaks : BreaksName semicolon := by simp [BreaksName, kind]
  have inside : IsMembers IsMailbox ([] ++ semicolon :: [finish]) body mailboxes :=
    IsMembers.replace (fun _ _ _ mailbox => mailbox.replace breaks) members
  have single : IsMembers IsAddress [finish] (name ++ colon :: (body ++ [semicolon]) ++ []) _ :=
    .last (.group (.full derived colon_kind inside kind)) fun _ member =>
      absurd member List.not_mem_nil
  have whole := IsAddressList.field single finish_kind
  simpa [groupOf] using whole

/-- A group that is accepted has no group among its members. -/
theorem alone_of_verdict_groupField {finish : Token} {words : List Word} {whole : AddressList}
    (lexed : tokenize name = .ok (tokens ++ [finish])) (derived : IsWords tokens words)
    (accepted : (readField false members).verdict = .ok list)
    (grouped : (readField false (groupField name members)).verdict = .ok whole) :
    ∀ member ∈ list, ∃ mailbox, member.body = .mailbox mailbox := by
  obtain ⟨body, last, colon, semicolon, finish, both, inside, colon_kind, -, -⟩ :=
    exists_tokens_groupField lexed accepted
  obtain ⟨others, also, field⟩ := verdict_eq_ok_iff.1 grouped
  rw [both] at also
  cases also
  rintro ⟨address, comments⟩ member
  cases address with
  | mailbox mailbox => exact ⟨mailbox, rfl⟩
  | group part =>
      exact absurd (inside.after?_grouped member rfl)
        (field.after?_grouped_ne_none derived.stays colon_kind)

/-- A field without a group is accepted as a group. -/
theorem exists_verdict_groupField {finish : Token} {words : List Word}
    (lexed : tokenize name = .ok (tokens ++ [finish])) (derived : IsWords tokens words)
    (some : words ≠ []) (accepted : (readField false members).verdict = .ok list)
    (alone : ∀ member ∈ list, ∃ mailbox, member.body = .mailbox mailbox) :
    ∃ mailboxes, list = mailboxes.map Commented.ofMailbox ∧
      (readField false (groupField name members)).verdict =
        .ok (groupOf words (commentsOf tokens) mailboxes) := by
  obtain ⟨body, last, colon, semicolon, finish, both, inside, colon_kind, kind, finish_kind⟩ :=
    exists_tokens_groupField lexed accepted
  obtain ⟨mailboxes, there, same⟩ := inside.exists_ofMailbox alone
  have field := isAddressList_groupOf derived some colon_kind there kind finish_kind
  exact ⟨mailboxes, same, verdict_eq_ok_iff.2 ⟨_, both, field⟩⟩

/-- A field that is accepted is accepted as a group under a name if and only if none of its members is
a group.  The group has the addresses of the field.  It is shown by the words of its name and by its
members. -/
theorem parseField_groupField (f : Text → Text) (name members : Text) (tokens : List Token)
    (finish : Token) (list : AddressList) (lexed : tokenize name = .ok (tokens ++ [finish]))
    (some : tokens ≠ []) (words : ∀ token ∈ tokens, token.kind = .atom ∨ token.kind = .quotedString)
    (accepted : (readField false members).verdict = .ok list) :
    ((parseField f (groupField name members)).isAccepted = true ↔
      ∀ member ∈ list, ∃ mailbox, member.body = .mailbox mailbox) ∧
    ((parseField f (groupField name members)).isAccepted = true →
      (parseField f (groupField name members)).canonical = (parseField f members).canonical ∧
      (parseField f (groupField name members)).display =
        [' '].intercalate (tokens.map Token.displayWord) ++ ": ".toList ++
          (parseField f members).display ++ [';']) := by
  obtain ⟨phrase, derived, shown⟩ := exists_isWords_of_wordTokens words
  have some_words : phrase ≠ [] := by
    rintro rfl
    exact some (List.map_eq_nil_iff.1 shown.symm)
  have own : parseField f members = .accepted (list.display f) (list.canonical f) := by
    rw [parseField, Parse.ofReading, accepted]
  cases verdict : (readField false (groupField name members)).verdict with
  | error fault =>
      have refused : parseField f (groupField name members) = .rejected fault := by
        rw [parseField, Parse.ofReading, verdict]
      rw [refused]
      refine ⟨iff_of_false Bool.false_ne_true fun alone => ?_, fun also =>
        absurd also Bool.false_ne_true⟩
      obtain ⟨mailboxes, -, grouped⟩ :=
        exists_verdict_groupField lexed derived some_words accepted alone
      rw [verdict] at grouped
      cases grouped
  | ok whole =>
      have alone := alone_of_verdict_groupField lexed derived accepted verdict
      obtain ⟨mailboxes, rfl, grouped⟩ :=
        exists_verdict_groupField lexed derived some_words accepted alone
      rw [verdict] at grouped
      cases grouped
      rw [own, parseField, Parse.ofReading, verdict]
      refine ⟨iff_of_true rfl alone, fun _ => ⟨canonical_groupOf f _ _ _, ?_⟩⟩
      have display := display_groupOf f phrase (commentsOf tokens) mailboxes
      rwa [displayPhrase, shown] at display

/-- Two mailboxes and a comment are the members of a group, and another group is not. -/
theorem parseField_groupField_of_mailboxes :
    (parseField id (groupField "A \"\\B\"".toList "x@y,, z (c)".toList)).display =
        "A B: x@y, z@ (c);".toList ∧
      (parseField id (groupField "A \"\\B\"".toList "x@y,, z (c)".toList)).canonical =
        "x@y\nz@\n".toList ∧
      (parseField id (groupField ['g'] "a, h:;".toList)).isAccepted = false := by
  have name : tokenize "A \"\\B\"".toList = .ok ([⟨.atom, ['A'], ⟨0, 1⟩⟩,
      ⟨.quotedString, "\"\\B\"".toList, ⟨2, 6⟩⟩] ++ [.finish 6]) := by rfl
  have mailboxes := parseField_groupField id "A \"\\B\"".toList "x@y,, z (c)".toList _ _
    [⟨.mailbox (.plain ⟨⟨[.atom ['x']], [[['y']]]⟩, []⟩), []⟩,
      ⟨.mailbox (.plain ⟨⟨[.atom ['z']], []⟩, ["(c)".toList]⟩), []⟩] name (by simp) (by simp)
    (by decide +kernel)
  have nested := parseField_groupField id ['g'] "a, h:;".toList [⟨.atom, ['g'], ⟨0, 1⟩⟩] (.finish 1)
    [⟨.mailbox (.plain ⟨⟨[.atom ['a']], []⟩, []⟩), []⟩, ⟨.group ⟨⟨[.atom ['h']], []⟩, [], []⟩, []⟩]
    rfl (by simp) (by simp) (by decide +kernel)
  obtain ⟨canonical, display⟩ := mailboxes.2 (mailboxes.1.2 (by simp))
  have own : parseField id "x@y,, z (c)".toList =
      .accepted "x@y, z@ (c)".toList "x@y\nz@\n".toList := by decide +kernel
  rw [own] at canonical display
  refine ⟨display, canonical, ?_⟩
  rw [Bool.eq_false_iff, ne_eq, nested.1]
  simp

end MailAddress
