import MailAddress.Proofs.Matching.Progress

/-!
# Members in front of more

A derivation looks ahead only to see whether the words in front of it lead up to a colon or a
less-than sign.  It stops looking at the first token that is none of these, no word and no comment.
So members that a field ends with are members as well if a comma and any other tokens follow instead
of the end.

There the loop over the members goes on.  It ends with the members of the first list and those that
it finds behind the comma, and where it would have ended if it had started there.
-/

namespace MailAddress

namespace Derivation

variable {tokens rest other ahead close : List Token} {stop next : Token}

/-! ## What stands behind is replaced -/

/-- A token that is no part of a name and makes no name of the words in front of it. -/
def BreaksName (token : Token) : Prop :=
  token.kind ∉ [Kind.comment, .atom, .quotedString, .colon, .lessThan]

/-- A name in front of a token that breaks it stays one whatever stands there. -/
theorem NameAhead.replace (breaks : BreaksName stop) (ahead : NameAhead (tokens ++ stop :: rest)) :
    NameAhead (tokens ++ next :: other) := by
  obtain ⟨name, behind, word, words, eq, derived, closed⟩ := ahead
  simp only [BreaksName, List.mem_cons, List.not_mem_nil, or_false, not_or] at breaks
  obtain ⟨no_comment, no_atom, no_quoted, no_colon, no_angle⟩ := breaks
  -- The token is not in the name, so the name ends in front of it.
  obtain ⟨between, rfl, rfl⟩ : ∃ between, tokens = name ++ between ∧
      behind = between ++ stop :: rest := by
    rcases List.append_eq_append_iff.1 eq with ⟨more, rfl, same⟩ | ⟨between, rfl, same⟩
    · cases more with
      | nil => exact ⟨[], by simp, by simpa using same.symm⟩
      | cons token more =>
          obtain ⟨rfl, _⟩ := List.cons.inj same
          have inside := derived.kind_of_mem stop (by simp)
          simp [no_comment, no_atom, no_quoted] at inside
    · exact ⟨between, rfl, same⟩
  refine ⟨name, between ++ next :: other, word, words, List.append_assoc _ _ _, derived, ?_⟩
  rcases closed with colon | angle
  · cases between with
    | nil => exact absurd (Option.some.inj colon) no_colon
    | cons token between => exact .inl colon
  · refine .inr ?_
    rw [Derivation.leadKind, List.find?_append] at angle ⊢
    cases found : between.find? fun token => token.kind != .comment with
    | some token => rwa [found] at angle
    | none =>
        rw [found, Option.none_or, List.find?_cons_of_pos (by simp [no_comment])] at angle
        exact absurd (Option.some.inj angle) no_angle

theorem IsMailbox.replace {value : Mailbox} (breaks : BreaksName next)
    (derived : IsMailbox tokens (ahead ++ stop :: rest) value) :
    IsMailbox tokens (ahead ++ next :: other) value := by
  cases derived with
  | plain spec no_comment no_name =>
      refine .plain spec ?_ fun name => no_name ?_
      · cases ahead with
        | nil =>
            intro head
            exact breaks (by simp [Option.some.inj head])
        | cons token ahead => exact no_comment
      · rw [← List.append_assoc] at name ⊢
        exact name.replace breaks
  | angle spec => exact .angle spec
  | named name spec => exact .named name spec

theorem IsMembers.replace {α : Type} {Member : List Token → List Token → α → Prop}
    {list : List (Commented α)}
    (replaces : ∀ tokens ahead value, Member tokens (ahead ++ stop :: rest) value →
      Member tokens (ahead ++ next :: other) value)
    (derived : IsMembers Member (close ++ stop :: rest) tokens list) :
    IsMembers Member (close ++ next :: other) tokens list := by
  induction derived with
  | @last member separators value derived all =>
      rw [← List.append_assoc] at derived
      have replaced := replaces member _ value derived
      rw [List.append_assoc] at replaced
      exact .last replaced all
  | @cons member separators others value values derived all no_comment _ ih =>
      rw [← List.append_assoc others, ← List.append_assoc] at derived
      have replaced := replaces member _ value derived
      rw [List.append_assoc, List.append_assoc] at replaced
      exact .cons replaced all no_comment ih

theorem IsGroup.replace {value : Group} (breaks : BreaksName next)
    (derived : IsGroup tokens (ahead ++ stop :: rest) value) :
    IsGroup tokens (ahead ++ next :: other) value := by
  cases derived with
  | empty name colon all semicolon => exact .empty name colon all semicolon
  | @full name body _ colon semicolon _ _ members words colon_kind list kind =>
      have replaced : IsMembers IsMailbox (semicolon :: ahead ++ next :: other) body members :=
        IsMembers.replace (fun _ _ _ mailbox => mailbox.replace breaks) list
      exact .full words colon_kind replaced kind

/-- A group ends with its semicolon, whatever follows. -/
theorem IsGroup.in_front_of {following : List Token} {value : Group}
    (derived : IsGroup tokens following value) (other : List Token) : IsGroup tokens other value := by
  cases derived with
  | empty name colon all semicolon => exact .empty name colon all semicolon
  | @full name body _ colon semicolon _ _ members words colon_kind list kind =>
      have breaks : BreaksName semicolon := by simp [BreaksName, kind]
      have list_there : IsMembers IsMailbox ([] ++ semicolon :: other) body members :=
        IsMembers.replace (fun _ _ _ mailbox => mailbox.replace breaks) list
      exact .full words colon_kind list_there kind

theorem IsAddress.replace {value : Address} (breaks : BreaksName next)
    (derived : IsAddress tokens (ahead ++ stop :: rest) value) :
    IsAddress tokens (ahead ++ next :: other) value := by
  cases derived with
  | group part => exact .group (part.replace breaks)
  | mailbox part => exact .mailbox (part.replace breaks)

end Derivation

/-! ## Lists behind lists -/

/-- The outcome of a list behind some members, if it would start with these tokens. -/
def Outcome.behind {α : Type} (list : List (Commented α)) (second : List Token) :
    Outcome (List (Commented α)) → Outcome (List (Commented α))
  | .beyond => .beyond
  | .failed => .matched list second
  | .matched others rest => .matched (list ++ others) rest

namespace Parser

open MailAddress.Derivation

variable {α β : Type} {parser : Parser α} {Member : List Token → List Token → α → Prop}
variable {notes : α → List Event} {tokens rest second : List Token} {comma next : Token}
variable {list : List (Commented α)}

/-! ## Parsers that never fail -/

/-- The parser matches whatever the tokens are, if it does not look beyond the last. -/
def NeverFails (parser : Parser α) : Prop := ∀ tokens, (parser false tokens).outcome ≠ .failed

namespace NeverFails

theorem pure (value : α) : (Pure.pure value : Parser α).NeverFails := fun _ failed => by cases failed

theorem bind {onward : α → Parser β} (first : parser.NeverFails)
    (second : ∀ value, (onward value).NeverFails) : (parser >>= onward).NeverFails := by
  intro tokens
  rw [run_bind, Run.outcome_andThen]
  cases outcome : (parser false tokens).outcome with
  | beyond => simp
  | failed => exact absurd outcome (first tokens)
  | matched value rest => exact second value rest

theorem attempt : parser.attempt.NeverFails := by
  intro tokens
  rw [outcome_attempt]
  cases (parser false tokens).outcome <;> simp

theorem nextIs (kind : Kind) : (Parser.nextIs kind).NeverFails := by
  intro tokens
  cases tokens with
  | nil => exact fun failed => by cases failed
  | cons token tokens => simp

theorem skipComments : Parser.skipComments.NeverFails := by
  intro tokens
  change leadingComments tokens ≠ .failed
  induction tokens with
  | nil => simp [leadingComments]
  | cons token tokens ih =>
      rw [leadingComments]
      split
      next =>
        cases outcome : leadingComments tokens with
        | failed => exact absurd outcome ih
        | _ => simp
      next => simp

theorem skipSeparators : Parser.skipSeparators.NeverFails := by
  intro tokens
  change leadingSeparators tokens ≠ .failed
  induction tokens with
  | nil => simp [leadingSeparators]
  | cons token tokens ih =>
      rw [leadingSeparators]
      split
      next =>
        cases outcome : leadingSeparators tokens with
        | failed => exact absurd outcome ih
        | _ => simp
      next =>
        split
        next => exact ih
        next => simp

/-- Behind its first member a list cannot fail. -/
theorem membersWithin : ∀ bound first, (Parser.membersWithin parser bound first).NeverFails
  | 0, _ => fun _ failed => by cases failed
  | bound + 1, first => by
      refine skipSeparators.bind fun after => (nextIs .endOfText).bind fun finish => ?_
      cases finish with
      | true => exact .pure _
      | false =>
          refine attempt.bind fun found => ?_
          cases found with
          | none => exact .pure _
          | some second => exact (membersWithin bound second).bind fun others => .pure _

end NeverFails

/-! ## The loop goes on -/

theorem outcome_members (parser : Parser α) (tokens : List Token) :
    (members parser false tokens).outcome =
      match (parser false tokens).outcome with
      | .beyond => .beyond
      | .failed => .failed
      | .matched first rest => (membersWithin parser rest.length first false rest).outcome :=
  Run.outcome_andThen _ _

/-- The tokens from the first on are a bound for the loop, with enough left for those behind it. -/
theorem exists_length_eq_succ (separators : List Token) (next : Token) (rest : List Token) :
    ∃ bound, (separators ++ next :: rest).length = bound + 1 ∧ rest.length ≤ bound :=
  ⟨separators.length + rest.length, by rw [List.length_append, List.length_cons]; rfl,
    Nat.le_add_left _ _⟩

/-- Behind a member and separators, the loop goes on as a list would start. -/
theorem outcome_membersWithin_behind (advances : parser.Advances) (no_comment : next.kind ≠ .comment)
    (no_comma : next.kind ≠ .comma) (no_finish : next.kind ≠ .endOfText)
    (ends : HasEnd (next :: rest)) {separators : List Token} (all : Separators separators)
    (value : α) {bound : Nat} (enough : rest.length ≤ bound) :
    (membersWithin parser (bound + 1) value false (separators ++ next :: rest)).outcome =
      (members parser false (next :: rest)).outcome.behind [⟨value, commentsOf separators⟩]
        (next :: rest) := by
  have skip : skipSeparators false (separators ++ next :: rest) =
      ⟨.matched (commentsOf separators) (next :: rest), []⟩ :=
    run_skipSeparators false all no_comment no_comma
  have tried := advances (next :: rest) ends
  rw [ProceedsAt] at tried
  rw [outcome_members]
  simp only [membersWithin, run_bind, skip, Run.outcome_andThen, run_nextIs, beq_iff_eq,
    no_finish, if_false, outcome_attempt]
  cases found : (parser false (next :: rest)).outcome with
  | beyond => rfl
  | failed => rfl
  | matched second behind =>
      rw [found] at tried
      have fewer : behind.length ≤ rest.length := tried.2
      have loop : (membersWithin parser bound second false behind).outcome =
          (membersWithin parser behind.length second false behind).outcome :=
        outcome_membersWithin advances second tried.1 (by omega) (Nat.le_refl _)
      simp only [run_bind, Run.outcome_andThen, loop]
      cases others : (membersWithin parser behind.length second false behind).outcome with
      | failed => exact absurd others (NeverFails.membersWithin _ _ _)
      | _ => rfl

/-- Tokens behind a comma where a member is tried. -/
structure Tries (comma next : Token) : Prop where
  /-- It is a comma. -/
  comma : comma.kind = .comma
  /-- The next token does not separate members. -/
  no_comment : next.kind ≠ .comment
  /-- The next token does not separate members. -/
  no_comma : next.kind ≠ .comma
  /-- The next token does not end the text. -/
  no_finish : next.kind ≠ .endOfText

theorem Tries.mayFollow (tries : Tries comma next) (ends : HasEnd (next :: rest)) :
    MayFollow (comma :: next :: rest) := by
  refine ⟨ends.append [comma], ?_, ?_⟩ <;> simp [tries.comma]

/-- Behind the last member and the comma, the loop goes on as a list would start. -/
theorem outcome_membersWithin_last (advances : parser.Advances) (tries : Tries comma next)
    (ends : HasEnd (next :: rest)) {separators : List Token} (all : Separators separators)
    (value : α) {bound : Nat} (enough : rest.length ≤ bound) :
    (membersWithin parser (bound + 1) value false (separators ++ comma :: next :: rest)).outcome =
      (members parser false (next :: rest)).outcome.behind [⟨value, commentsOf separators⟩]
        (next :: rest) := by
  have other : comma.kind ≠ .comment := by simp [tries.comma]
  have all_comma : Separators (separators ++ [comma]) :=
    all.append fun token member => .inr (by rw [List.mem_singleton.1 member, tries.comma])
  have loop := outcome_membersWithin_behind advances tries.no_comment tries.no_comma
    tries.no_finish ends all_comma value enough
  rwa [List.append_assoc, List.singleton_append, commentsOf_append, commentsOf_cons_of_ne other,
    commentsOf_nil, List.append_nil] at loop

/-- A list in front of a comma and other tokens is matched, and the list that is matched behind the
comma follows it. -/
theorem outcome_members_joined (matches_member : MatchesMember parser Member notes)
    (begins : BeginsAsMailbox Member) (advances : parser.Advances) (tries : Tries comma next)
    (ends : HasEnd (next :: rest))
    (derived : IsMembers Member (comma :: next :: rest) tokens list) :
    (members parser false (tokens ++ comma :: next :: rest)).outcome =
      (members parser false (next :: rest)).outcome.behind list (next :: rest) := by
  have follows := tries.mayFollow ends
  have other : comma.kind ≠ .comment := by simp [tries.comma]
  induction derived with
  | @last member separators value derived all =>
      obtain ⟨bound, size, enough⟩ := exists_length_eq_succ separators comma (next :: rest)
      rw [outcome_members, List.append_assoc,
        matches_member member _ value derived (follows.behind all)]
      dsimp only
      rw [size]
      exact outcome_membersWithin_last advances tries ends all value (Nat.le_of_succ_le enough)
  | @cons member separators others value values derived all no_comment derived_others ih =>
      obtain ⟨kind, lead, begins_kind⟩ := derived_others.leadKind begins (comma :: next :: rest)
      have others_follow := MayFollow.of_lead (follows.ends.append others) lead begins_kind
      obtain ⟨token, behind, rfl, token_other, no_comma, no_finish⟩ :=
        exists_head_of_isMembers begins derived_others no_comment
      have others_ends := follows.ends.append (token :: behind)
      obtain ⟨bound, size, enough⟩ :=
        exists_length_eq_succ separators token (behind ++ comma :: next :: rest)
      rw [outcome_members, List.append_assoc, List.append_assoc,
        matches_member member _ value derived (others_follow.behind all)]
      dsimp only
      rw [List.cons_append] at ih others_ends ⊢
      rw [size, outcome_membersWithin_behind advances token_other no_comma no_finish others_ends all
        value enough, ih]
      cases (members parser false (next :: rest)).outcome <;> rfl

/-- The members of a field stay the same if a comma and more follow instead of the end. -/
theorem outcome_addresses_joined {finish : Token} {list : AddressList}
    (derived : IsMembers IsAddress [finish] tokens list) (tries : Tries comma next)
    (ends : HasEnd (next :: rest)) :
    (members address false (tokens ++ comma :: next :: rest)).outcome =
      (members address false (next :: rest)).outcome.behind list (next :: rest) := by
  have breaks : BreaksName comma := by simp [BreaksName, tries.comma]
  have replaced : IsMembers IsAddress ([] ++ comma :: next :: rest) tokens list :=
    IsMembers.replace (fun _ _ _ member => member.replace breaks) derived
  exact outcome_members_joined (fun _ _ _ => run_address) (fun _ _ _ rest member =>
    member.leadKind rest) address_advances tries ends replaced

end Parser

end MailAddress
