import MailAddress.Proofs.Forms.Joined
import MailAddress.Proofs.Lexing.Breaks
import MailAddress.Proofs.Matching.Bounds
import MailAddress.Proofs.Matching.Prefixes

/-!
# Verdicts about fields

Every field is accepted without a diagnostic, or refused with one and with empty forms.  The
diagnostic tells whether there are tokens, and if there are, how far the rules get with them.  It
spans the token at which the field stops, or what a reading that got stuck had read of a lexeme.

The cause of a refusal is found afterwards, by the token at which the field stopped.  That token is
the one of the end only if there is no other, since where members are matched up to the end the field
is accepted.
-/

namespace MailAddress

open MailAddress.Derivation

variable {field : Text} {tokens behind : List Token} {token : Token} {fault : Fault}

/-! ## Codes of causes -/

theorem Cause.code_eq_lexical_iff {cause : Cause} :
    cause.code = "E100".toList ↔ cause.isLexical = true := by
  unfold code
  cases cause.isLexical <;> decide

/-! ## Where the tokens of a field stop -/

namespace Parser

/-- A list of members fails if and only if its first member does. -/
theorem outcome_members_eq_failed_iff {α : Type} {parser : Parser α} :
    (members parser false tokens).outcome = .failed ↔ (parser false tokens).outcome = .failed := by
  rw [outcome_members]
  cases (parser false tokens).outcome with
  | beyond => simp
  | failed => simp
  | matched first rest => simp [NeverFails.membersWithin rest.length first rest]

theorem exists_matched_of_members {α : Type} {parser : Parser α} {list : List (Commented α)}
    {rest : List Token} (matched : (members parser false tokens).outcome = .matched list rest) :
    ∃ first following, (parser false tokens).outcome = .matched first following := by
  rw [outcome_members] at matched
  cases outcome : (parser false tokens).outcome with
  | beyond => simp [outcome] at matched
  | failed => simp [outcome] at matched
  | matched first following => exact ⟨first, following, rfl⟩

end Parser

/-- The tokens of a field stop to be a list of addresses at this token: at the first one if there is
no address, and otherwise behind an address or more and in front of the end. -/
structure StopsAt (tokens before : List Token) (token : Token) (behind : List Token) : Prop where
  /-- The token is one of them. -/
  eq : tokens = before ++ token :: behind
  /-- The run notes this place last. -/
  run : ∃ events, Parser.addresses false tokens = ⟨.failed, events ++ [.stopped (token :: behind)]⟩
  /-- An address was matched, unless it is the first token. -/
  address : before = [] ∧ (Parser.address false tokens).outcome = .failed ∨
    before ≠ [] ∧ token.kind ≠ .endOfText ∧
      ∃ value rest, (Parser.address false tokens).outcome = .matched value rest

/-- A field that has tokens and is refused stops at one of them, which is at fault. -/
theorem exists_stopsAt (lexed : tokenize field = .ok tokens)
    (refused : (readField false field).verdict = .error fault) :
    ∃ before token behind, StopsAt tokens before token behind ∧
      fault = faultAt field tokens before.length := by
  obtain ⟨body, finish, once⟩ := endsOnce_of_tokenize lexed
  have ends := once.endsOnly.hasEnd
  rcases Parser.address_advances.members.failsOrPassesAt ends with failed |
    ⟨list, rest, matched, rest_ends, fewer⟩
  · obtain ⟨token, behind, rfl⟩ := ends.exists_cons
    have verdict := verdict_of_failed lexed failed
    rw [refused] at verdict
    cases verdict
    have stopped := Parser.exists_run_addresses_of_failed failed
    have no_address := Parser.outcome_members_eq_failed_iff.1 failed
    exact ⟨[], token, behind, ⟨rfl, stopped, .inl ⟨rfl, no_address⟩⟩, rfl⟩
  · obtain ⟨token, behind, rfl⟩ := rest_ends.exists_cons
    obtain ⟨before, rfl, -⟩ := Parser.reads_members Parser.reads_address tokens list _ matched
    have verdict := verdict_of_matched lexed matched
    obtain ⟨events, run⟩ := Parser.exists_run_addresses_of_matched matched
    have no_finish : token.kind ≠ .endOfText := by
      intro finish
      rw [if_pos finish, refused] at verdict
      cases verdict
    rw [if_neg no_finish] at verdict run
    rw [refused] at verdict
    cases verdict
    have some : before ≠ [] := by
      rintro rfl
      exact absurd fewer (Nat.lt_irrefl _)
    exact ⟨before, token, behind,
      ⟨rfl, ⟨events, run⟩, .inr ⟨some, no_finish, Parser.exists_matched_of_members matched⟩⟩, rfl⟩

/-! ## Diagnostics -/

/-- What a diagnostic says about the tokens of a field, in terms of the rules. -/
structure DiagnosesTokens (f : Text → Text) (tracing : Bool) (field : Text) (tokens : List Token)
    (diagnostic : Diagnostic) : Prop where
  /-- It has the code of grammatical faults. -/
  code : diagnostic.code = "E200".toList
  /-- The field is blank. -/
  blank : diagnostic.message = "empty address field".toList ↔ IsBlank field
  /-- The field is not blank, and no address is matched. -/
  noAddress : diagnostic.message = "no address could be matched".toList ↔
    ¬ IsBlank field ∧
      (Session.call ⟨tokens, 0, 0⟩ f tracing .address 0).2.answer = .failed
  /-- An address is matched, but no list of addresses. -/
  unexpected : diagnostic.message = "unexpected input after address list".toList ↔
    (∃ position forms,
      (Session.call ⟨tokens, 0, 0⟩ f tracing .address 0).2.answer = .matched position forms) ∧
      (Session.call ⟨tokens, 0, 0⟩ f tracing .addresses 0).2.answer = .failed
  /-- It concerns the token at which the field stops. -/
  span : ∃ token,
    tokens[(Session.call ⟨tokens, 0, 0⟩ f tracing .addresses 0).1.stoppedAt]? = some token ∧
      diagnostic.start = token.span.start ∧ diagnostic.stop = token.span.stop

/-- What a diagnostic says about a field that is refused. -/
structure Diagnoses (f : Text → Text) (tracing : Bool) (field : Text) (diagnostic : Diagnostic) :
    Prop where
  /-- The code of lexical faults tells that there are no tokens. -/
  lexical : diagnostic.code = "E100".toList ↔ ∃ stuck, tokenize field = .error stuck
  /-- If there are tokens, it tells how far the rules get with them. -/
  grammatical : ∀ tokens, tokenize field = .ok tokens →
    DiagnosesTokens f tracing field tokens diagnostic
  /-- It spans a character at least, and none beyond the field. -/
  within : diagnostic.message ≠ "empty address field".toList →
    0 ≤ diagnostic.start ∧ diagnostic.start < diagnostic.stop ∧ diagnostic.stop ≤ field.length
  /-- Of a blank field it concerns the end. -/
  atEnd : diagnostic.message = "empty address field".toList →
    diagnostic.start = field.length ∧ diagnostic.stop = field.length

namespace StopsAt

variable {f : Text → Text} {tracing : Bool} {before : List Token}

theorem answer_eq_failed (stops : StopsAt tokens before token behind) :
    (Session.call ⟨tokens, 0, 0⟩ f tracing .addresses 0).2.answer = .failed := by
  obtain ⟨events, run⟩ := stops.run
  refine Session.call_eq_failed_iff.2 ?_
  change (Parser.addresses false tokens).outcome = .failed
  rw [run]

theorem getElem?_stoppedAt (stops : StopsAt tokens before token behind) :
    tokens[(Session.call ⟨tokens, 0, 0⟩ f tracing .addresses 0).1.stoppedAt]? = some token := by
  obtain ⟨events, run⟩ := stops.run
  have stopped : (Session.call ⟨tokens, 0, 0⟩ f tracing .addresses 0).1.stoppedAt =
      tokens.length - (token :: behind).length :=
    Session.stoppedAt_eq (show Parser.addresses false (Session.tokens ⟨tokens, 0, 0⟩) = _ from run)
  have place : tokens.length - (token :: behind).length = before.length := by
    rw [stops.eq, List.length_append, Nat.add_sub_cancel]
  rw [stopped, place, stops.eq]
  simp

theorem span_faultAt_eq (stops : StopsAt tokens before token behind) :
    (faultAt field tokens before.length).span = token.span := by
  rw [stops.eq, span_faultAt]

theorem cause_faultAt_eq (stops : StopsAt tokens before token behind) :
    (faultAt field tokens before.length).cause =
      if token.kind = .endOfText then .emptyField
      else if before = [] then .noAddress
      else .unexpectedInput := by
  rw [stops.eq]
  simp [faultAt]

/-- The three causes exclude each other, and each says how far the rules get. -/
theorem cause_cases (lexed : tokenize field = .ok tokens)
    (stops : StopsAt tokens before token behind) :
    (faultAt field tokens before.length).cause = .emptyField ∧ IsBlank field ∧
        (Parser.address false tokens).outcome = .failed ∨
      (faultAt field tokens before.length).cause = .noAddress ∧
        ¬ IsBlank field ∧ (Parser.address false tokens).outcome = .failed ∨
      (faultAt field tokens before.length).cause = .unexpectedInput ∧
        ¬ IsBlank field ∧
        ∃ value rest, (Parser.address false tokens).outcome = .matched value rest := by
  rw [stops.cause_faultAt_eq]
  rcases (Token.scan_eq_ok_iff.1 lexed).blank_or with
    ⟨blank, single⟩ | ⟨solid, first, others, cons, no_finish⟩
  · have alone := stops.eq.symm.trans single
    rcases stops.address with ⟨rfl, failed⟩ | ⟨some, -⟩
    · obtain ⟨rfl, -⟩ := List.cons.inj alone
      exact .inl ⟨rfl, blank, failed⟩
    · have size := congrArg List.length alone
      have positive := List.length_pos_iff.2 some
      simp only [List.length_append, List.length_cons, List.length_nil] at size
      omega
  · rcases stops.address with ⟨rfl, failed⟩ | ⟨some, other, matched⟩
    · obtain ⟨rfl, -⟩ := List.cons.inj (stops.eq.symm.trans cons)
      exact .inr (.inl ⟨by rw [if_neg no_finish, if_pos rfl], solid, failed⟩)
    · exact .inr (.inr ⟨by rw [if_neg other, if_neg some], solid, matched⟩)

theorem cause_eq_emptyField_iff (lexed : tokenize field = .ok tokens)
    (stops : StopsAt tokens before token behind) :
    (faultAt field tokens before.length).cause = .emptyField ↔ IsBlank field := by
  rcases stops.cause_cases lexed with ⟨cause, blank, -⟩ | ⟨cause, solid, -⟩ | ⟨cause, solid, -⟩
  · exact iff_of_true cause blank
  · exact iff_of_false (by simp [cause]) solid
  · exact iff_of_false (by simp [cause]) solid

theorem cause_eq_noAddress_iff (lexed : tokenize field = .ok tokens)
    (stops : StopsAt tokens before token behind) :
    (faultAt field tokens before.length).cause = .noAddress ↔
      ¬ IsBlank field ∧ (Parser.address false tokens).outcome = .failed := by
  rcases stops.cause_cases lexed with
    ⟨cause, blank, -⟩ | ⟨cause, solid, failed⟩ | ⟨cause, -, value, rest, matched⟩
  · exact iff_of_false (by simp [cause]) fun both => both.1 blank
  · exact iff_of_true cause ⟨solid, failed⟩
  · exact iff_of_false (by simp [cause]) (by simp [matched])

theorem cause_eq_unexpectedInput_iff (lexed : tokenize field = .ok tokens)
    (stops : StopsAt tokens before token behind) :
    (faultAt field tokens before.length).cause = .unexpectedInput ↔
      ∃ value rest, (Parser.address false tokens).outcome = .matched value rest := by
  rcases stops.cause_cases lexed with
    ⟨cause, -, failed⟩ | ⟨cause, -, failed⟩ | ⟨cause, -, matched⟩
  · exact iff_of_false (by simp [cause]) (by simp [failed])
  · exact iff_of_false (by simp [cause]) (by simp [failed])
  · exact iff_of_true cause matched

theorem diagnosesTokens (lexed : tokenize field = .ok tokens)
    (stops : StopsAt tokens before token behind) :
    DiagnosesTokens f tracing field tokens (.ofFault (faultAt field tokens before.length)) := by
  have told : ∀ cause : Cause, (∀ c, cause ≠ .unexpectedCharacter c) →
      ((Diagnostic.ofFault (faultAt field tokens before.length)).message = cause.message ↔
        (faultAt field tokens before.length).cause = cause) :=
    fun cause plain => Cause.message_eq_iff plain
  have failed : (Session.call ⟨tokens, 0, 0⟩ f tracing .address 0).2.answer = .failed ↔
      (Parser.address false tokens).outcome = .failed :=
    Session.call_eq_failed_iff
  have matched : (∃ position forms,
      (Session.call ⟨tokens, 0, 0⟩ f tracing .address 0).2.answer = .matched position forms) ↔
      ∃ value rest, (Parser.address false tokens).outcome = .matched value rest :=
    Session.exists_call_eq_matched_iff
  refine ⟨code_faultAt _ _ _, ?_, ?_, ?_, token, stops.getElem?_stoppedAt, ?_, ?_⟩
  · exact (told .emptyField nofun).trans (stops.cause_eq_emptyField_iff lexed)
  · rw [failed]
    exact (told .noAddress nofun).trans (stops.cause_eq_noAddress_iff lexed)
  · rw [matched, and_iff_left stops.answer_eq_failed]
    exact (told .unexpectedInput nofun).trans (stops.cause_eq_unexpectedInput_iff lexed)
  · exact congrArg (fun span : Span => (span.start : Int)) stops.span_faultAt_eq
  · exact congrArg (fun span : Span => (span.stop : Int)) stops.span_faultAt_eq

/-- The token at fault spans characters of the field, unless it is that of the end. -/
theorem span_within (lexed : tokenize field = .ok tokens)
    (stops : StopsAt tokens before token behind) :
    ((faultAt field tokens before.length).cause = .emptyField →
        (faultAt field tokens before.length).span = ⟨field.length, field.length⟩) ∧
      ((faultAt field tokens before.length).cause ≠ .emptyField →
        (faultAt field tokens before.length).span.start <
            (faultAt field tokens before.length).span.stop ∧
          (faultAt field tokens before.length).span.stop ≤ field.length) := by
  have member : token ∈ tokens := by
    rw [stops.eq]
    exact List.mem_append_right _ List.mem_cons_self
  have within := (Token.scan_eq_ok_iff.1 lexed).within token member
  rw [Nat.zero_add] at within
  have blames : (faultAt field tokens before.length).cause = .emptyField ↔
      token.kind = .endOfText := by
    rw [stops.cause_faultAt_eq]
    by_cases finish : token.kind = .endOfText <;> by_cases first : before = [] <;>
      simp [finish, first]
  rw [ne_eq, blames, stops.span_faultAt_eq]
  exact within

end StopsAt

/-! ## Verdicts -/

/-- A field that is refused has a diagnostic that says why. -/
theorem diagnoses_of_refused (f : Text → Text) (tracing : Bool)
    (refused : (readField false field).verdict = .error fault) :
    Diagnoses f tracing field (.ofFault fault) := by
  have lexical : (Diagnostic.ofFault fault).code = "E100".toList ↔ fault.cause.isLexical = true :=
    Cause.code_eq_lexical_iff
  have empty : (Diagnostic.ofFault fault).message = Cause.emptyField.message ↔
      fault.cause = .emptyField :=
    Cause.message_eq_iff nofun
  cases lexed : tokenize field with
  | error stuck =>
      obtain rfl : stuck.fault = fault := by
        rw [readField, lexed] at refused
        cases refused
        rfl
      obtain ⟨is_lexical, start, stop⟩ := fault_within lexed
      refine ⟨iff_of_true (lexical.2 is_lexical) ⟨stuck, lexed⟩, ?_, fun _ => ?_, fun blank => ?_⟩
      · intro tokens found
        rw [lexed] at found
        cases found
      · exact ⟨Int.natCast_nonneg _, Int.ofNat_lt.2 start, Int.ofNat_le.2 stop⟩
      · have cause : stuck.cause = .emptyField := empty.1 blank
        rw [cause] at is_lexical
        cases is_lexical
  | ok tokens =>
      obtain ⟨before, token, behind, stops, rfl⟩ := exists_stopsAt lexed refused
      obtain ⟨at_end, within⟩ := stops.span_within lexed
      refine ⟨?_, ?_, fun other => ?_, fun blank => ?_⟩
      · refine iff_of_false ?_ ?_
        · have code : (Diagnostic.ofFault (faultAt field tokens before.length)).code = "E200".toList :=
            code_faultAt _ _ _
          rw [code]
          decide
        · rintro ⟨stuck, found⟩
          rw [lexed] at found
          cases found
      · intro others found
        rw [lexed] at found
        cases found
        exact stops.diagnosesTokens lexed
      · obtain ⟨start, stop⟩ := within (mt empty.2 other)
        exact ⟨Int.natCast_nonneg _, Int.ofNat_lt.2 start, Int.ofNat_le.2 stop⟩
      · rw [Diagnostic.ofFault, at_end (empty.1 blank)]
        exact ⟨rfl, rfl⟩

/-- A field is accepted if and only if it has tokens that the rule for a whole field matches, and then
it has no diagnostic.  Otherwise it has empty forms and a single diagnostic, whose code, message and
span say why it is refused and where. -/
theorem parseField_diagnosis (f : Text → Text) (tracing : Bool) (field : Text) :
    ((parseField f field).isAccepted = true ↔ ∃ tokens, tokenize field = .ok tokens ∧
      ∃ position forms,
        (Session.call ⟨tokens, 0, 0⟩ f tracing .addresses 0).2.answer = .matched position forms) ∧
    ((parseField f field).isAccepted = true ∧ (parseField f field).diagnostics = [] ∨
      (parseField f field).isAccepted = false ∧ (parseField f field).display = [] ∧
        (parseField f field).canonical = [] ∧
        ∃ diagnostic, (parseField f field).diagnostics = [diagnostic] ∧
          Diagnoses f tracing field diagnostic) := by
  cases verdict : (readField false field).verdict with
  | ok list =>
      have accepted : parseField f field = .accepted (list.display f) (list.canonical f) := by
        rw [parseField, Parse.ofReading, verdict]
      rw [accepted]
      refine ⟨iff_of_true rfl ?_, .inl ⟨rfl, rfl⟩⟩
      obtain ⟨tokens, lexed, derived⟩ := verdict_eq_ok_iff.1 verdict
      obtain ⟨body, finish, once⟩ := endsOnce_of_tokenize lexed
      exact ⟨tokens, lexed, (Session.exists_answer_iff once.endsOnly).2 ⟨list, derived⟩⟩
  | error fault =>
      have rejected : parseField f field = .rejected fault := by
        rw [parseField, Parse.ofReading, verdict]
      rw [rejected]
      refine ⟨iff_of_false Bool.false_ne_true ?_,
        .inr ⟨rfl, rfl, rfl, _, rfl, diagnoses_of_refused f tracing verdict⟩⟩
      rintro ⟨tokens, lexed, position, forms, answer⟩
      obtain ⟨before, token, behind, stops, -⟩ := exists_stopsAt lexed verdict
      rw [stops.answer_eq_failed] at answer
      cases answer

/-- The token of the end is at fault only if there is no other. -/
example : (parseField id "a@b:(c)".toList).diagnostics =
    [⟨"E200".toList, "unexpected input after address list".toList, 3, 4⟩] := by
  decide +kernel

end MailAddress
