import MailAddress.Field
import MailAddress.Proofs.Lexing.Tokens
import MailAddress.Proofs.Matching.LongestPhrases
import MailAddress.Proofs.Matching.Soundness
import MailAddress.Proofs.Matching.Tracing

/-!
# Fields and their derivations

The tokens of a field are a list of addresses if they spell one, in whatever way.  The list that is
matched is the one derived with the longest phrases, and there is no other.  This holds with and
without tracing.

So a field is accepted if its tokens are in the language of the grammar, and its canonical form can
be read off the derivation.
-/

namespace MailAddress

open MailAddress.Derivation

variable {tokens body rest : List Token} {finish : Token} {list : AddressList}

/-! ## The list that is matched -/

theorem Derivation.IsAddressList.run (derived : IsAddressList tokens list) :
    ∃ finish, Parser.addresses false tokens =
      ⟨.matched list [finish], list.mailboxes.flatMap Parser.mailboxEvents⟩ := by
  cases derived with
  | field members kind => exact ⟨_, Parser.run_addresses members kind⟩

/-- Tokens are derived in one way only. -/
theorem Derivation.IsAddressList.unique {other : AddressList} (derived : IsAddressList tokens list)
    (also_derived : IsAddressList tokens other) : other = list := by
  obtain ⟨finish, run⟩ := derived.run
  obtain ⟨_, also_run⟩ := also_derived.run
  rw [run] at also_run
  injection also_run with outcome
  injection outcome with same
  exact same.symm

/-- What is derived spells a list of addresses. -/
theorem Derivation.IsAddressList.spells (derived : IsAddressList tokens list) :
    Spells Production.addresses tokens := by
  obtain ⟨finish, run⟩ := derived.run
  obtain ⟨read, last, behind, rfl, ends, spells⟩ :=
    Parser.reads_addresses (congrArg Run.outcome run)
  rw [(List.cons.inj ends).1]
  exact spells

/-- What spells a list of addresses ends with the end of the text. -/
theorem exists_finish_of_spells (spells : Spells Production.addresses tokens) :
    ∃ body finish, tokens = body ++ [finish] ∧ finish.kind = .endOfText := by
  obtain ⟨body, last, rfl, _, last_spells⟩ := Spells.mul.1 spells
  obtain ⟨finish, rfl, kind⟩ := Spells.token.1 last_spells
  exact ⟨body, finish, rfl, kind⟩

/-- Only the last of these tokens is the end of a text. -/
structure Token.EndsOnly (tokens body : List Token) (finish : Token) : Prop where
  /-- The token of the end comes last. -/
  eq : tokens = body ++ [finish]
  /-- It is the token of the end. -/
  kind : finish.kind = .endOfText
  /-- No other is. -/
  others : ∀ token ∈ body, token.kind ≠ .endOfText

theorem Token.EndsOnce.endsOnly (once : Token.EndsOnce tokens body finish) :
    Token.EndsOnly tokens body finish :=
  ⟨once.eq, once.kind, fun token member => (once.read token member).kind_ne⟩

namespace Token.EndsOnly

variable {index : Nat} {last : Token}

theorem hasEnd (only : Token.EndsOnly tokens body finish) : HasEnd tokens :=
  ⟨finish, by simp [only.eq], only.kind⟩

theorem le_length_body (only : Token.EndsOnly tokens body finish) (inside : index < tokens.length) :
    index ≤ body.length := by
  have size := congrArg List.length only.eq
  rw [List.length_append, List.length_singleton] at size
  omega

/-- Some first tokens and the token of the end. -/
theorem take (only : Token.EndsOnly tokens body finish) (kind : last.kind = .endOfText)
    (inside : index < tokens.length) :
    Token.EndsOnly (tokens.take index ++ [last]) (tokens.take index) last := by
  refine ⟨rfl, kind, fun token member => only.others token ?_⟩
  rw [only.eq, List.take_append_of_le_length (only.le_length_body inside)] at member
  exact List.mem_of_mem_take member

/-- The tokens from some index on. -/
theorem drop (only : Token.EndsOnly tokens body finish) (inside : index < tokens.length) :
    Token.EndsOnly (tokens.drop index) (body.drop index) finish := by
  refine ⟨?_, only.kind, fun token member => only.others token (List.mem_of_mem_drop member)⟩
  rw [only.eq, List.drop_append_of_le_length (only.le_length_body inside)]

/-- Only the last token may end the list that is matched. -/
theorem spells_of_matched (only : Token.EndsOnly tokens body finish)
    (matched : (Parser.addresses false tokens).outcome = .matched list rest) :
    Spells Production.addresses tokens := by
  obtain ⟨read, last, behind, eq, rfl, spells⟩ := Parser.reads_addresses matched
  obtain ⟨_, _, last_eq, last_kind⟩ := exists_finish_of_spells spells
  obtain ⟨rfl, rfl⟩ := List.append_inj' last_eq rfl |>.imp id List.singleton_inj.1
  have same : read ++ last :: behind = body ++ [finish] := eq.symm.trans only.eq
  rcases List.eq_nil_or_concat behind with rfl | ⟨others, final, rfl⟩
  · rw [eq]
    exact spells
  · have member : last ∈ body := by
      have parts : read ++ last :: others ++ [final] = body ++ [finish] := by simpa using same
      rw [← (List.append_inj' parts rfl).1]
      simp
    exact absurd last_kind (only.others last member)

theorem isAddressList_of_matched (only : Token.EndsOnly tokens body finish)
    (matched : (Parser.addresses false tokens).outcome = .matched list rest) :
    IsAddressList tokens list := by
  obtain ⟨other, derived⟩ := exists_isAddressList (only.spells_of_matched matched)
  obtain ⟨_, run⟩ := derived.run
  rw [run] at matched
  injection matched with same
  rw [← same]
  exact derived

/-- A list is matched if it is the one that is derived. -/
theorem matched_iff (only : Token.EndsOnly tokens body finish) (tracing : Bool) :
    (∃ rest, (Parser.addresses tracing tokens).outcome = .matched list rest) ↔
      IsAddressList tokens list := by
  simp only [Parser.IgnoresTracing.addresses.outcome_eq tracing]
  constructor
  · rintro ⟨rest, matched⟩
    exact only.isAddressList_of_matched matched
  · intro derived
    obtain ⟨finish, run⟩ := derived.run
    exact ⟨[finish], by rw [run]⟩

end Token.EndsOnly

theorem Token.EndsOnce.spells_of_matched (once : Token.EndsOnce tokens body finish)
    (matched : (Parser.addresses false tokens).outcome = .matched list rest) :
    Spells Production.addresses tokens :=
  once.endsOnly.spells_of_matched matched

/-- The tokens of a field are matched with the list that is derived from them. -/
theorem Token.EndsOnce.matched_iff (once : Token.EndsOnce tokens body finish) (tracing : Bool) :
    (∃ rest, (Parser.addresses tracing tokens).outcome = .matched list rest) ↔
      IsAddressList tokens list :=
  once.endsOnly.matched_iff tracing

/-- A field is accepted with the list that is derived from its tokens. -/
theorem verdict_eq_ok_iff {tracing : Bool} {field : Text} :
    (readField tracing field).verdict = .ok list ↔
      ∃ tokens, tokenize field = .ok tokens ∧ IsAddressList tokens list := by
  unfold readField
  cases lexed : tokenize field with
  | error stuck => simp
  | ok tokens =>
      obtain ⟨body, finish, once⟩ := endsOnce_of_tokenize lexed
      simp only [Except.ok.injEq, exists_eq_left', ← once.matched_iff tracing]
      cases (Parser.addresses tracing tokens).outcome <;> simp

/-! ## Acceptance -/

theorem Session.answer_eq_matched_iff {session : Session} {f : Text → Text} {tracing : Bool}
    {index : Nat} {forms : Forms} :
    (session.call f tracing .addresses 0).2.answer = .matched index forms ↔
      ∃ list rest, (Parser.addresses tracing session.tokens).outcome = .matched list rest ∧
        index = session.tokens.length - rest.length ∧ forms = Rule.addresses.forms f list :=
  Outcome.answer_eq_matched_iff

/-- The rule for a whole field matches if the tokens are a list of addresses. -/
theorem Session.exists_answer_iff {session : Session} {f : Text → Text} {tracing : Bool}
    {body : List Token} {finish : Token} (only : Token.EndsOnly session.tokens body finish) :
    (∃ position forms, (session.call f tracing .addresses 0).2.answer = .matched position forms) ↔
      ∃ list, IsAddressList session.tokens list := by
  constructor
  · rintro ⟨position, forms, answer⟩
    obtain ⟨list, rest, matched, -, -⟩ := answer_eq_matched_iff.1 answer
    exact ⟨list, (only.matched_iff tracing).1 ⟨rest, matched⟩⟩
  · rintro ⟨list, derived⟩
    obtain ⟨rest, matched⟩ := (only.matched_iff tracing).2 derived
    exact ⟨_, _, answer_eq_matched_iff.2 ⟨list, rest, matched, rfl, rfl⟩⟩

/-- The tokens of a field match as a list of addresses if and only if the grammar derives them,
whichever alternatives and repetitions a derivation takes. -/
theorem Session.call_addresses_matched_iff (session : Session) (f : Text → Text) (tracing : Bool)
    (field : Text) (lexed : tokenize field = .ok session.tokens) :
    (∃ index forms, (session.call f tracing .addresses 0).2.answer = .matched index forms) ↔
      session.tokens.map Token.kind ∈ Production.addresses := by
  obtain ⟨body, finish, once⟩ := endsOnce_of_tokenize lexed
  constructor
  · rintro ⟨index, forms, answer⟩
    obtain ⟨list, rest, matched, -, -⟩ := answer_eq_matched_iff.1 answer
    rw [Parser.IgnoresTracing.addresses.outcome_eq tracing] at matched
    exact once.spells_of_matched matched
  · intro spells
    obtain ⟨list, derived⟩ := exists_isAddressList spells
    obtain ⟨rest, matched⟩ := (once.matched_iff tracing).2 derived
    exact ⟨_, _, answer_eq_matched_iff.2 ⟨list, rest, matched, rfl, rfl⟩⟩

/-- A name in front of angle brackets is derived, and a bracket that does not close is not. -/
theorem Session.call_addresses_matched_iff_of_brackets :
    [.atom, .lessThan, .atom, .greaterThan, .endOfText] ∈ Production.addresses ∧
      [.atom, .lessThan, .atom, .endOfText] ∉ Production.addresses := by
  have closed := call_addresses_matched_iff
    ⟨[⟨.atom, ['a'], ⟨0, 1⟩⟩, ⟨.lessThan, [], ⟨1, 2⟩⟩, ⟨.atom, ['b'], ⟨2, 3⟩⟩,
      ⟨.greaterThan, [], ⟨3, 4⟩⟩, ⟨.endOfText, [], ⟨4, 4⟩⟩], 0, 0⟩ id false
    "a<b>".toList rfl
  have unclosed := call_addresses_matched_iff
    ⟨[⟨.atom, ['a'], ⟨0, 1⟩⟩, ⟨.lessThan, [], ⟨1, 2⟩⟩, ⟨.atom, ['b'], ⟨2, 3⟩⟩,
      ⟨.endOfText, [], ⟨3, 3⟩⟩], 0, 0⟩ id true "a<b".toList rfl
  constructor
  · exact closed.1 ⟨4, ⟨"a <b@>".toList, [], "b@\n".toList⟩, by decide +kernel⟩
  · intro derived
    obtain ⟨index, forms, answer⟩ := unclosed.2 derived
    have failed : (call ⟨[⟨.atom, ['a'], ⟨0, 1⟩⟩, ⟨.lessThan, [], ⟨1, 2⟩⟩, ⟨.atom, ['b'], ⟨2, 3⟩⟩,
        ⟨.endOfText, [], ⟨3, 3⟩⟩], 0, 0⟩ id true .addresses 0).2.answer = .failed := by
      decide +kernel
    rw [failed] at answer
    cases answer

/-! ## Canonical lines -/

namespace Derivation

/-- The words of a local part as they are meant, with periods between them. -/
def wordsLine : List Word → Text
  | [] => []
  | [word] => word.content
  | word :: next :: words => word.content ++ '.' :: wordsLine (next :: words)

/-- Domains, each behind an at sign, the last one, or the empty text if there is none, as a function
makes it. -/
def domainsLine (f : Text → Text) : List Domain → Text
  | [] => '@' :: f []
  | [domain] => '@' :: f domain.text
  | domain :: next :: domains => '@' :: domain.text ++ domainsLine f (next :: domains)

/-- What an address specification is as an address. -/
def entry (f : Text → Text) (spec : AddrSpec) : Text :=
  wordsLine spec.localPart ++ domainsLine f spec.domains

/-- The line of an address specification. -/
def line (f : Text → Text) (spec : AddrSpec) : Text := entry f spec ++ ['\n']

theorem wordsLine_eq (words : List Word) :
    wordsLine words = ['.'].intercalate (words.map Word.content) := by
  induction words with
  | nil => rfl
  | cons word words ih =>
      cases words with
      | nil => simp [wordsLine]
      | cons next words => simp [wordsLine, ih, List.intercalate]

theorem domainsLine_eq (f : Text → Text) (domains : List Domain) :
    domainsLine f domains =
      routeText domains.dropLast ++ '@' :: f ((domains.getLast?.map Domain.text).getD []) := by
  induction domains with
  | nil => rfl
  | cons domain domains ih =>
      cases domains with
      | nil => rfl
      | cons next domains => simp [domainsLine, ih, routeText]

/-- The line of an address specification is the one of its derivation. -/
theorem line_eq (f : Text → Text) (spec : AddrSpec) : spec.line f = line f spec := by
  rw [line, entry, wordsLine_eq, domainsLine_eq, AddrSpec.line, AddrSpec.write, AddrSpec.finalDomain]
  simp only [List.append_assoc, List.cons_append]

theorem canonical_eq_lines (f : Text → Text) (list : AddressList) :
    list.canonical f = list.mailboxes.flatMap fun mailbox => line f mailbox.spec := by
  rw [AddressList.canonical_eq_flatMap]
  congr 1
  funext mailbox
  exact line_eq f mailbox.spec

end Derivation

/-- A matched field has one derivation with the longest phrases, and its canonical form is the lines
of the mailboxes there, in order. -/
theorem Session.call_addresses_canonical (session : Session) (f : Text → Text) (tracing : Bool)
    (field : Text) {index : Nat} {forms : Forms} (lexed : tokenize field = .ok session.tokens)
    (answer : (session.call f tracing .addresses 0).2.answer = .matched index forms) :
    ∃ list, IsAddressList session.tokens list ∧
      (∀ other, IsAddressList session.tokens other → other = list) ∧
      forms.canonical = list.mailboxes.flatMap fun mailbox => line f mailbox.spec := by
  obtain ⟨body, finish, once⟩ := endsOnce_of_tokenize lexed
  obtain ⟨list, rest, matched, -, rfl⟩ := answer_eq_matched_iff.1 answer
  have derived := (once.matched_iff tracing).1 ⟨rest, matched⟩
  refine ⟨list, derived, fun other => derived.unique, ?_⟩
  exact canonical_eq_lines f list

/-- The tokens of a group of a named mailbox and one with a relay. -/
def groupTokens : List Token :=
  [⟨.atom, ['g'], ⟨0, 1⟩⟩, ⟨.colon, [], ⟨1, 2⟩⟩, ⟨.quotedString, "\"x\"".toList, ⟨2, 5⟩⟩,
    ⟨.lessThan, [], ⟨5, 6⟩⟩, ⟨.atom, ['b'], ⟨6, 7⟩⟩, ⟨.greaterThan, [], ⟨7, 8⟩⟩,
    ⟨.quotedString, "\"y\"".toList, ⟨8, 11⟩⟩, ⟨.atSign, [], ⟨11, 12⟩⟩, ⟨.atom, ['d'], ⟨12, 13⟩⟩,
    ⟨.atSign, [], ⟨13, 14⟩⟩, ⟨.atom, ['e'], ⟨14, 15⟩⟩, ⟨.semicolon, [], ⟨15, 16⟩⟩,
    ⟨.endOfText, [], ⟨16, 16⟩⟩]

theorem Session.call_addresses_canonical_of_group :
    ∃ list, IsAddressList groupTokens list ∧
      (∀ other, IsAddressList groupTokens other → other = list) ∧
      "b@\ny@d@e\n".toList = list.mailboxes.flatMap fun mailbox => line id mailbox.spec := by
  have answer : (call ⟨groupTokens, 0, 0⟩ id false .addresses 0).2.answer =
      .matched 12 ⟨"g: x <b@>, y@d@e;".toList, [], "b@\ny@d@e\n".toList⟩ := by
    decide +kernel
  exact call_addresses_canonical ⟨groupTokens, 0, 0⟩ id false "g:\"x\"<b>\"y\"@d@e;".toList rfl answer

end MailAddress
