import MailAddress.Address
import MailAddress.Token

/-!
# Derivations with the longest phrases

The grammar of a field is ambiguous.  Commas are optional, so a word may be an address of its own or
begin the name that stands behind it, and a comment may belong to what is in front of it or to what
follows.  A derivation of this module makes every such choice in one way.

* A phrase is as long as it can be.  A word begins an address specification only if the words there
  do not lead up to a colon, nor, over comments, to a less-than sign (`NameAhead`).
* The comments right behind an address specification without brackets belong to it.
* All other comments between two members belong to the separators between them.

Each relation says which tokens a part is derived from and what the part is.  A member of a list is
derived with a view to the tokens that follow it.
-/

namespace MailAddress

namespace Derivation

/-! ## Comments and the tokens behind them -/

/-- Nothing but comments. -/
def Comments (tokens : List Token) : Prop := ∀ token ∈ tokens, token.kind = .comment

/-- Nothing but comments and commas. -/
def Separators (tokens : List Token) : Prop :=
  ∀ token ∈ tokens, token.kind = .comment ∨ token.kind = .comma

/-- The comments among some tokens, as they are written. -/
def commentsOf (tokens : List Token) : List Text :=
  (tokens.filter fun token => token.kind == .comment).map Token.text

/-- The kind of the first token. -/
def headKind (tokens : List Token) : Option Kind := tokens.head?.map Token.kind

/-- The kind of the first token that is no comment. -/
def leadKind (tokens : List Token) : Option Kind :=
  (tokens.find? fun token => token.kind != .comment).map Token.kind

/-! ## Words, labels and sequences of them -/

/-- A word with comments in front. -/
inductive IsWord : List Token → Word → Prop
  /-- An atom stands for itself. -/
  | atom {comments : List Token} {token : Token} :
      Comments comments → token.kind = .atom → IsWord (comments ++ [token]) (.atom token.text)
  /-- A quoted string stands for the text it quotes. -/
  | quoted {comments : List Token} {token : Token} :
      Comments comments → token.kind = .quotedString →
      IsWord (comments ++ [token]) (.quoted (unquote token.text))

/-- A label with comments in front. -/
inductive IsLabel : List Token → Text → Prop
  /-- A label is an atom or a domain literal. -/
  | label {comments : List Token} {token : Token} :
      Comments comments → token.kind = .atom ∨ token.kind = .domainLiteral →
      IsLabel (comments ++ [token]) token.text

section Sequences

variable {α : Type}

/-- What follows the first item of a sequence with periods between the items. -/
inductive IsTail (Item : List Token → α → Prop) : List Token → List α → Prop
  /-- Only comments follow. -/
  | stop {comments : List Token} : Comments comments → IsTail Item comments []
  /-- A period follows, and another item. -/
  | next {comments item tail : List Token} {period : Token} {value : α} {values : List α} :
      Comments comments → period.kind = .period → Item item value → IsTail Item tail values →
      IsTail Item (comments ++ period :: (item ++ tail)) (value :: values)

/-- Items with periods between them, and the comments behind. -/
inductive IsSeries (Item : List Token → α → Prop) : List Token → List α → Prop
  /-- A first item and what follows it. -/
  | items {item tail : List Token} {value : α} {values : List α} :
      Item item value → IsTail Item tail values →
      IsSeries Item (item ++ tail) (value :: values)

end Sequences

/-- Domains, each behind an at sign, with the comments behind them. -/
inductive IsHops : List Token → List Domain → Prop
  /-- No domain. -/
  | nil : IsHops [] []
  /-- A domain and more. -/
  | cons {labels hops : List Token} {sign : Token} {domain : Domain} {domains : List Domain} :
      sign.kind = .atSign → IsSeries IsLabel labels domain → IsHops hops domains →
      IsHops (sign :: (labels ++ hops)) (domain :: domains)

/-- An address specification and the comments behind it. -/
inductive IsAddrSpec : List Token → AddrSpec → Prop
  /-- A local part and domains. -/
  | parts {words hops : List Token} {localPart : List Word} {domains : List Domain} :
      IsSeries IsWord words localPart → IsHops hops domains →
      IsAddrSpec (words ++ hops) ⟨localPart, domains⟩

/-- A route, or nothing. -/
inductive IsRelays : List Token → Prop
  /-- Nothing. -/
  | none : IsRelays []
  /-- A domain or more, and a colon. -/
  | some {hops : List Token} {colon : Token} {domains : List Domain} :
      IsHops hops domains → domains ≠ [] → colon.kind = .colon → IsRelays (hops ++ [colon])

/-- An address specification in angle brackets. -/
inductive IsRouteAddr : List Token → AddrSpec → Prop
  /-- The brackets, a route if there is one, and the specification. -/
  | brackets {before inside relays spec : List Token} {less greater : Token}
      {addrSpec : AddrSpec} :
      Comments before → less.kind = .lessThan → Comments inside → IsRelays relays →
      IsAddrSpec spec addrSpec → greater.kind = .greaterThan →
      IsRouteAddr (before ++ less :: (inside ++ (relays ++ (spec ++ [greater])))) addrSpec

/-- Words side by side. -/
inductive IsWords : List Token → List Word → Prop
  /-- No word. -/
  | nil : IsWords [] []
  /-- A word and more. -/
  | cons {item rest : List Token} {word : Word} {words : List Word} :
      IsWord item word → IsWords rest words → IsWords (item ++ rest) (word :: words)

/-! ## Members of lists -/

/-- The words at the start of these tokens, one or more, are a name: a colon stands right behind
them, or a less-than sign behind them and comments. -/
def NameAhead (tokens : List Token) : Prop :=
  ∃ name rest word words, tokens = name ++ rest ∧ IsWords name (word :: words) ∧
    (headKind rest = some .colon ∨ leadKind rest = some .lessThan)

/-- A mailbox, in front of these tokens. -/
inductive IsMailbox : List Token → List Token → Mailbox → Prop
  /-- An address specification alone, if it does not begin a name. -/
  | plain {tokens following : List Token} {spec : AddrSpec} :
      IsAddrSpec tokens spec → headKind following ≠ some .comment →
      ¬ NameAhead (tokens ++ following) →
      IsMailbox tokens following (.plain ⟨spec, commentsOf tokens⟩)
  /-- An address specification in angle brackets. -/
  | angle {tokens following : List Token} {spec : AddrSpec} :
      IsRouteAddr tokens spec →
      IsMailbox tokens following (.angle none ⟨spec, commentsOf tokens⟩)
  /-- An address specification in angle brackets behind a name. -/
  | named {name tokens following : List Token} {word : Word} {words : List Word}
      {spec : AddrSpec} :
      IsWords name (word :: words) → IsRouteAddr tokens spec →
      IsMailbox (name ++ tokens) following
        (.angle (some ⟨word :: words, commentsOf name⟩) ⟨spec, commentsOf tokens⟩)

/-- Members with separators between and behind them, in front of the tokens that close the list. -/
inductive IsMembers {α : Type} (Member : List Token → List Token → α → Prop)
    (close : List Token) : List Token → List (Commented α) → Prop
  /-- The last member. -/
  | last {member separators : List Token} {value : α} :
      Member member (separators ++ close) value → Separators separators →
      IsMembers Member close (member ++ separators) [⟨value, commentsOf separators⟩]
  /-- A member in front of others, which do not start with a comment. -/
  | cons {member separators rest : List Token} {value : α} {values : List (Commented α)} :
      Member member (separators ++ (rest ++ close)) value → Separators separators →
      headKind rest ≠ some .comment → IsMembers Member close rest values →
      IsMembers Member close (member ++ (separators ++ rest))
        (⟨value, commentsOf separators⟩ :: values)

/-- A group, in front of these tokens. -/
inductive IsGroup : List Token → List Token → Group → Prop
  /-- A group without mailboxes. -/
  | empty {name comments following : List Token} {colon semicolon : Token} {word : Word}
      {words : List Word} :
      IsWords name (word :: words) → colon.kind = .colon → Comments comments →
      semicolon.kind = .semicolon →
      IsGroup (name ++ colon :: (comments ++ [semicolon])) following
        ⟨⟨word :: words, commentsOf name⟩, [], commentsOf comments⟩
  /-- A group of mailboxes. -/
  | full {name body following : List Token} {colon semicolon : Token} {word : Word}
      {words : List Word} {members : List (Commented Mailbox)} :
      IsWords name (word :: words) → colon.kind = .colon →
      IsMembers IsMailbox (semicolon :: following) body members → semicolon.kind = .semicolon →
      IsGroup (name ++ colon :: (body ++ [semicolon])) following
        ⟨⟨word :: words, commentsOf name⟩, members, []⟩

/-- A member of a field, in front of these tokens. -/
inductive IsAddress : List Token → List Token → Address → Prop
  /-- A group. -/
  | group {tokens following : List Token} {part : Group} :
      IsGroup tokens following part → IsAddress tokens following (.group part)
  /-- A mailbox. -/
  | mailbox {tokens following : List Token} {part : Mailbox} :
      IsMailbox tokens following part → IsAddress tokens following (.mailbox part)

/-- A whole field: members up to the token of the end. -/
inductive IsAddressList : List Token → AddressList → Prop
  /-- The members and the end. -/
  | field {body : List Token} {finish : Token} {list : AddressList} :
      IsMembers IsAddress [finish] body list → finish.kind = .endOfText →
      IsAddressList (body ++ [finish]) list

/-! ## Comments and lead tokens of joined tokens -/

variable {tokens left right rest comments : List Token} {token : Token} {kind : Kind}

@[simp] theorem commentsOf_nil : commentsOf [] = [] := rfl

@[simp] theorem commentsOf_append :
    commentsOf (left ++ right) = commentsOf left ++ commentsOf right := by
  simp [commentsOf]

theorem commentsOf_cons_of_ne (other : token.kind ≠ .comment) :
    commentsOf (token :: tokens) = commentsOf tokens := by
  simp [commentsOf, other]

theorem Comments.commentsOf_eq (all : Comments comments) :
    commentsOf comments = comments.map Token.text := by
  rw [commentsOf, List.filter_eq_self.2]
  intro token member
  rw [all token member]
  rfl

theorem Comments.nil : Comments [] := fun _ member => absurd member List.not_mem_nil

theorem Comments.append (first : Comments left) (second : Comments right) :
    Comments (left ++ right) :=
  List.forall_mem_append.2 ⟨first, second⟩

theorem Comments.separators (all : Comments comments) : Separators comments :=
  fun token member => .inl (all token member)

theorem Separators.append (first : Separators left) (second : Separators right) :
    Separators (left ++ right) :=
  List.forall_mem_append.2 ⟨first, second⟩

@[simp] theorem headKind_nil : headKind [] = none := rfl

@[simp] theorem headKind_cons : headKind (token :: tokens) = some token.kind := rfl

theorem leadKind_cons_of_ne (other : token.kind ≠ .comment) :
    leadKind (token :: tokens) = some token.kind := by
  simp [leadKind, other]

theorem leadKind_of_headKind (head : headKind tokens = some kind) (other : kind ≠ .comment) :
    leadKind tokens = some kind := by
  cases tokens with
  | nil => cases head
  | cons token tokens =>
      cases head
      exact leadKind_cons_of_ne other

/-- Comments in front do not change which token leads. -/
theorem Comments.leadKind_append (all : Comments comments) :
    leadKind (comments ++ tokens) = leadKind tokens := by
  rw [leadKind, List.find?_append, List.find?_eq_none.2, Option.none_or, leadKind]
  intro token member
  simp [all token member]

/-- The tokens up to the one that leads are comments. -/
theorem exists_of_leadKind (lead : leadKind tokens = some kind) :
    ∃ comments token rest, tokens = comments ++ token :: rest ∧ Comments comments ∧
      token.kind = kind ∧ kind ≠ .comment := by
  rw [leadKind, Option.map_eq_some_iff] at lead
  obtain ⟨token, found, same⟩ := lead
  obtain ⟨other, comments, rest, rfl, before⟩ := List.find?_eq_some_iff_append.1 found
  refine ⟨comments, token, rest, rfl, fun before_token member => ?_, same, ?_⟩
  · simpa using before before_token member
  · simpa [same] using other

/-! ## Comments in front of a part may go -/

/-- A word may lose the comments in front of it. -/
theorem IsWord.strip {word : Word} (derived : IsWord tokens word) :
    ∃ comments token, tokens = comments ++ [token] ∧ Comments comments ∧
      (token.kind = .atom ∨ token.kind = .quotedString) ∧ IsWord [token] word := by
  cases derived with
  | @atom comments token all kind =>
      exact ⟨comments, token, rfl, all, .inl kind, .atom .nil kind⟩
  | @quoted comments token all kind =>
      exact ⟨comments, token, rfl, all, .inr kind, .quoted .nil kind⟩

/-- An address specification may lose the comments in front of it. -/
theorem IsAddrSpec.strip {spec : AddrSpec} (derived : IsAddrSpec tokens spec) :
    ∃ comments token rest, tokens = comments ++ token :: rest ∧ Comments comments ∧
      (token.kind = .atom ∨ token.kind = .quotedString) ∧ IsAddrSpec (token :: rest) spec := by
  cases derived with
  | @parts words hops localPart domains series derived =>
      cases series with
      | @items item tail value values first others =>
          obtain ⟨comments, token, rfl, all, kind, alone⟩ := first.strip
          refine ⟨comments, token, tail ++ hops, by simp, all, kind, ?_⟩
          exact .parts (.items alone others) derived

/-! ## The kinds of tokens in a name -/

theorem IsWords.kind_of_mem {words : List Word} (derived : IsWords tokens words) :
    ∀ token ∈ tokens, token.kind ∈ [Kind.comment, .atom, .quotedString] := by
  induction derived with
  | nil => exact fun _ member => absurd member List.not_mem_nil
  | cons first _ ih =>
      obtain ⟨comments, token, rfl, all, kind, _⟩ := first.strip
      intro token member
      simp only [List.mem_append, List.mem_singleton] at member
      rcases member with (inside | rfl) | member
      · simp [all token inside]
      · rcases kind with kind | kind <;> simp [kind]
      · exact ih token member

/-! ## Comments behind a part may come -/

theorem IsTail.append_comments {α : Type} {Item : List Token → α → Prop} {values : List α}
    (derived : IsTail Item tokens values) (all : Comments comments) :
    IsTail Item (tokens ++ comments) values := by
  induction derived with
  | stop others => exact .stop (others.append all)
  | next before kind item _ ih =>
      rw [List.append_assoc, List.cons_append, List.append_assoc]
      exact .next before kind item ih

theorem IsSeries.append_comments {α : Type} {Item : List Token → α → Prop} {values : List α}
    (derived : IsSeries Item tokens values) (all : Comments comments) :
    IsSeries Item (tokens ++ comments) values := by
  cases derived with
  | items item tail =>
      rw [List.append_assoc]
      exact .items item (tail.append_comments all)

/-- Comments behind domains belong to the last of them. -/
theorem IsHops.append_comments {domains : List Domain} (derived : IsHops tokens domains)
    (some : domains ≠ []) (all : Comments comments) : IsHops (tokens ++ comments) domains := by
  induction derived with
  | nil => exact absurd rfl some
  | @cons labels hops sign domain domains kind series others ih =>
      rw [List.cons_append, List.append_assoc]
      cases others with
      | nil =>
          rw [List.nil_append, ← List.append_nil (labels ++ comments)]
          exact .cons kind (series.append_comments all) .nil
      | cons => exact .cons kind series (ih (List.cons_ne_nil _ _))

/-- An address specification may take the comments behind it. -/
theorem IsAddrSpec.append_comments {spec : AddrSpec} (derived : IsAddrSpec tokens spec)
    (all : Comments comments) : IsAddrSpec (tokens ++ comments) spec := by
  cases derived with
  | @parts words hops localPart domains series derived =>
      rw [List.append_assoc]
      cases derived with
      | nil =>
          have joined := IsAddrSpec.parts (series.append_comments all) .nil
          rwa [List.append_nil] at joined
      | cons kind labels others =>
          have hops := IsHops.cons kind labels others
          exact .parts series (hops.append_comments (List.cons_ne_nil _ _) all)

end Derivation

end MailAddress
