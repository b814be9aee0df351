import MailAddress.Proofs.Matching.Fields
import MailAddress.Proofs.Matching.Joining

/-!
# Rules stay within the tokens

At any index of a field that has a token, a rule comes to an end without asking for a token beyond
the last, and beyond the last index it asks for one at once.  A repetition that ran out of its bound
would ask for a token beyond the last too, so none does: the loops of a rule end by themselves.

A rule that matches takes a token at least, and never the token of the end.  The rule for a whole
field takes all others.
-/

namespace MailAddress

open MailAddress.Derivation

variable {tokens body : List Token} {finish : Token} {f : Text → Text} {tracing : Bool} {index : Nat}

/-! ## All rules -/

namespace Parser

/-- The members are matched as in any list, and the rule goes on to look at a token only. -/
theorem addresses_advances : addresses.Advances := by
  intro tokens ends
  refine (address_advances.members tokens ends).attemptThen trivial fun list rest ends fewer => ?_
  exact .ifNext ends (fun _ _ _ _ => .pure list ends fewer) trivial

/-- Every rule that matches takes a token and leaves the end of the text. -/
theorem advances (rule : Rule) : rule.parser.Advances := by
  cases rule with
  | subDomain => exact subDomain_advances
  | domain => exact domain_advances
  | route => exact route_advances
  | word => exact word_advances
  | localPart => exact localPart_advances
  | addrSpec => exact addrSpec_advances
  | routeAddr => exact routeAddr_advances
  | phrase => exact phrase_advances
  | routeSpec => exact routeSpec_advances
  | mailbox => exact mailbox_advances
  | mailboxes => exact mailboxes_advances
  | group => exact group_advances
  | address => exact address_advances
  | addresses => exact addresses_advances

/-- Every rule asks for a token. -/
theorem asksFirst (rule : Rule) : rule.parser.AsksFirst := by
  cases rule <;> rfl

/-- No rule asks beyond the tokens of a field, traced or not.  So a field that is read is refused only
if the rule for a whole field fails. -/
theorem outcome_ne_beyond {field : Text} (rule : Rule) (tracing : Bool)
    (lexed : tokenize field = .ok tokens) : (rule.parser tracing tokens).outcome ≠ .beyond := by
  obtain ⟨body, finish, once⟩ := endsOnce_of_tokenize lexed
  have leaves := (advances rule).proceeds tokens once.endsOnly.hasEnd
  rw [(ignoresTracing rule).outcome_eq tracing]
  intro beyond
  rw [ProceedsAt, beyond] at leaves
  exact leaves

end Parser

/-! ## Calls at an index -/

namespace Session

variable {α β : Type} {parser : Parser α} {view : α → β} {session : Session} {rule : Rule}

/-- A rule fails at an index if and only if it does so without tracing. -/
theorem call_eq_failed_iff : (session.call f tracing rule index).2.answer = .failed ↔
    (rule.parser false (session.tokens.drop index)).outcome = .failed := by
  refine Outcome.answer_eq_failed_iff.trans ?_
  rw [(Parser.ignoresTracing rule).outcome_eq tracing]

/-- A rule matches at an index what it matches without tracing. -/
theorem call_eq_matched_iff {position : Nat} {forms : Forms} :
    (session.call f tracing rule index).2.answer = .matched position forms ↔
      ∃ value rest, (rule.parser false (session.tokens.drop index)).outcome = .matched value rest ∧
        position = session.tokens.length - rest.length ∧ forms = rule.forms f value := by
  refine Outcome.answer_eq_matched_iff.trans ?_
  rw [(Parser.ignoresTracing rule).outcome_eq tracing]

theorem exists_call_eq_matched_iff :
    (∃ position forms, (session.call f tracing rule index).2.answer = .matched position forms) ↔
      ∃ value rest, (rule.parser false (session.tokens.drop index)).outcome =
        .matched value rest := by
  constructor
  · rintro ⟨position, forms, answer⟩
    obtain ⟨value, rest, matched, -⟩ := call_eq_matched_iff.1 answer
    exact ⟨value, rest, matched⟩
  · rintro ⟨value, rest, matched⟩
    exact ⟨_, _, call_eq_matched_iff.2 ⟨value, rest, matched, rfl, rfl⟩⟩

/-- A parser that asks for a token and leaves the end of the text looks beyond the last token only
if it starts there. -/
theorem apply_beyond_iff (only : Token.EndsOnly session.tokens body finish)
    (ignores : parser.IgnoresTracing) (asks : parser.AsksFirst) (proceeds : parser.Proceeds) :
    (session.apply f tracing parser view index).2.answer = .beyond ↔
      session.tokens.length ≤ index := by
  refine Outcome.answer_eq_beyond_iff.trans ?_
  rw [ignores.outcome_eq]
  constructor
  · intro beyond
    refine Nat.le_of_not_lt fun inside => ?_
    have leaves := proceeds _ (only.drop inside).hasEnd
    rw [Parser.ProceedsAt, beyond] at leaves
    exact leaves
  · intro past
    rw [List.drop_of_length_le past, asks]

/-- A parser that takes a token and leaves the end of the text moves on and stays in front of the
end. -/
theorem apply_matched {position : Nat} {result : β} (only : Token.EndsOnly session.tokens body finish)
    (ignores : parser.IgnoresTracing) (asks : parser.AsksFirst) (advances : parser.Advances)
    (answer : (session.apply f tracing parser view index).2.answer = .matched position result) :
    index < position ∧ position ≤ body.length := by
  have inside : index < session.tokens.length := by
    refine Nat.lt_of_not_le fun past => ?_
    rw [(apply_beyond_iff only ignores asks advances.proceeds).2 past] at answer
    cases answer
  obtain ⟨value, rest, matched, rfl, -⟩ := Outcome.answer_eq_matched_iff.1 answer
  have leaves := advances _ (only.drop inside).hasEnd
  rw [ignores.outcome_eq] at matched
  rw [Parser.ProceedsAt, matched, List.length_drop] at leaves
  obtain ⟨ends, fewer⟩ := leaves
  obtain ⟨next, behind, rfl⟩ := ends.exists_cons
  have size := congrArg List.length only.eq
  simp only [List.length_append, List.length_cons, List.length_nil] at size fewer ⊢
  omega

/-- The rule for a whole field leaves the token of the end alone. -/
theorem position_of_addresses {position : Nat} {forms : Forms}
    (only : Token.EndsOnly session.tokens body finish) (inside : index < session.tokens.length)
    (answer : (session.call f tracing .addresses index).2.answer = .matched position forms) :
    position = session.tokens.length - 1 := by
  obtain ⟨list, rest, matched, rfl, -⟩ := call_eq_matched_iff.1 answer
  have derived := ((only.drop inside).matched_iff false).1 ⟨rest, matched⟩
  obtain ⟨last, run⟩ := derived.run
  have same := (congrArg Run.outcome run).symm.trans matched
  cases same
  rfl

/-- No rule asks for a token beyond the last unless it starts there, and none runs out of bounds: at
an index within the tokens it fails or matches.  If it matches, it moves on by a token at least and
stays in front of the end of the text, and for a whole field it moves up to there. -/
theorem call_within (session : Session) (f : Text → Text) (tracing : Bool) (field : Text)
    (rule : Rule) (index : Nat) (lexed : tokenize field = .ok session.tokens) :
    ((session.call f tracing rule index).2.answer = .beyond ↔ session.tokens.length ≤ index) ∧
    ((session.skipComments f tracing index).2.answer = .beyond ↔ session.tokens.length ≤ index) ∧
    (session.skipComments f tracing index).2.answer ≠ .failed ∧
    ∀ position forms, (session.call f tracing rule index).2.answer = .matched position forms →
      index < position ∧ position ≤ session.tokens.length - 1 ∧
      (∀ token ∈ (session.tokens.take position).drop index, token.kind ≠ .endOfText) ∧
      (rule = .addresses → position = session.tokens.length - 1) := by
  obtain ⟨body, finish, once⟩ := endsOnce_of_tokenize lexed
  have only := once.endsOnly
  have size : session.tokens.length = body.length + 1 := by
    rw [only.eq, List.length_append, List.length_singleton]
  have beyond_iff : (session.call f tracing rule index).2.answer = .beyond ↔
      session.tokens.length ≤ index :=
    apply_beyond_iff only (Parser.ignoresTracing rule) (Parser.asksFirst rule)
      (Parser.advances rule).proceeds
  refine ⟨beyond_iff, apply_beyond_iff only (fun _ => rfl) rfl .skipComments, ?_, ?_⟩
  · rw [skipComments, ne_eq, apply, Outcome.answer_eq_failed_iff]
    exact Parser.NeverFails.skipComments _
  · intro position forms answer
    obtain ⟨forward, before⟩ := apply_matched only (Parser.ignoresTracing rule)
      (Parser.asksFirst rule) (Parser.advances rule) answer
    refine ⟨forward, by omega, fun token member => only.others token ?_, ?_⟩
    · rw [only.eq, List.take_append_of_le_length before] at member
      exact List.mem_of_mem_take (List.mem_of_mem_drop member)
    · rintro rfl
      exact position_of_addresses only (by omega) answer

/-- The tokens of an address specification behind which another at sign and a comment stand. -/
def danglingTokens : List Token :=
  [⟨.atom, ['a'], ⟨0, 1⟩⟩, ⟨.atSign, [], ⟨1, 2⟩⟩, ⟨.atom, ['b'], ⟨2, 3⟩⟩, ⟨.atSign, [], ⟨3, 4⟩⟩,
    ⟨.comment, "(c)".toList, ⟨5, 8⟩⟩, ⟨.endOfText, [], ⟨8, 8⟩⟩]

/-- A domain is tried at the comment up to the end of the text, and the specification ends in front
of the last at sign. -/
theorem call_within_of_dangling_sign :
    (0 < 3 ∧ 3 ≤ danglingTokens.length - 1 ∧
      ∀ token ∈ (danglingTokens.take 3).drop 0, token.kind ≠ .endOfText) ∧
    (call ⟨danglingTokens, 0, 0⟩ id true .domain 6).2.answer = .beyond := by
  have answer : (call ⟨danglingTokens, 0, 0⟩ id true .addrSpec 0).2.answer =
      .matched 3 ⟨"a@b".toList, [], "a@b\n".toList⟩ := by
    decide +kernel
  obtain ⟨-, -, -, matched⟩ :=
    call_within ⟨danglingTokens, 0, 0⟩ id true "a@b@ (c)".toList .addrSpec 0 rfl
  obtain ⟨forward, before, no_end, -⟩ := matched 3 _ answer
  obtain ⟨beyond_iff, -⟩ :=
    call_within ⟨danglingTokens, 0, 0⟩ id true "a@b@ (c)".toList .domain 6 rfl
  exact ⟨⟨forward, before, no_end⟩, beyond_iff.2 (Nat.le_refl 6)⟩

end Session

end MailAddress
