import MailAddress.Proofs.Lexing.Offsets
import MailAddress.Proofs.Matching.Fields
import MailAddress.Proofs.Matching.Joining

/-!
# Joined fields

Two fields with a comma between them are one field.  If the first is accepted, and the second starts
neither with a comma nor with a comment, then the whole is read as the first and the second are read
on their own.  It is accepted if the second is.  Then its forms are those of the first and those of
the second.  Otherwise the whole is refused, where the second is refused and with the code of its
fault.
-/

namespace MailAddress

open MailAddress.Derivation Character

variable {field first second : Text} {tokens rest behind : List Token} {token next : Token}
variable {list : AddressList} {c : Char}

/-! ## Verdicts -/

/-- Where no member is matched, the first token is at fault. -/
theorem verdict_of_failed (lexed : tokenize field = .ok tokens)
    (failed : (Parser.members Parser.address false tokens).outcome = .failed) :
    (readField false field).verdict = .error (faultAt field tokens 0) := by
  obtain ⟨events, stopped⟩ := Parser.exists_run_addresses_of_failed failed
  unfold readField
  simp only [lexed, stopped, Trace.stopIndex?_stopped, Nat.sub_self, Option.getD_some]

/-- Where members are matched, the text ends behind them, or the next token is at fault. -/
theorem verdict_of_matched (lexed : tokenize field = .ok (before ++ next :: behind))
    (matched : (Parser.members Parser.address false (before ++ next :: behind)).outcome =
      .matched list (next :: behind)) :
    (readField false field).verdict = if next.kind = .endOfText then .ok list
      else .error (faultAt field (before ++ next :: behind) before.length) := by
  obtain ⟨events, run⟩ := Parser.exists_run_addresses_of_matched matched
  unfold readField
  by_cases finish : next.kind = .endOfText
  · simp only [lexed, run, finish, if_true]
  · have index : (before ++ next :: behind).length - (next :: behind).length = before.length := by
      rw [List.length_append, Nat.add_sub_cancel]
    simp only [lexed, run, Trace.stopIndex?_stopped, index, Option.getD_some, finish, if_false]

theorem span_faultAt (field : Text) (before : List Token) (next : Token) (behind : List Token) :
    (faultAt field (before ++ next :: behind) before.length).span = next.span := by
  simp [faultAt]

/-- All grammatical faults have the same code. -/
theorem code_faultAt (field : Text) (tokens : List Token) (index : Nat) :
    (faultAt field tokens index).cause.code = "E200".toList := by
  unfold faultAt
  dsimp only
  split
  · rfl
  · split <;> rfl

/-! ## The verdict about two fields with a comma between them -/

/-- How the verdict about the second of two fields goes over to that about both. -/
def Joins (count : Nat) (list : AddressList) : (own joined : Except Fault AddressList) → Prop
  | .ok others, joined => joined = .ok (list ++ others)
  | .error fault, joined =>
      ∃ cause, cause.code = fault.cause.code ∧ joined = .error ⟨cause, fault.span.shift count⟩

/-- Grammatical faults at a token and at the same token further behind. -/
theorem joins_faultAt (own joined : Text) (before others : List Token) (next : Token)
    (behind : List Token) (count : Nat) :
    Joins count list (.error (faultAt own (before ++ next :: behind) before.length))
      (.error (faultAt joined (others ++ next.shift count :: behind.map (Token.shift count))
        others.length)) := by
  have code : (faultAt joined (others ++ next.shift count :: behind.map (Token.shift count))
      others.length).cause.code =
      (faultAt own (before ++ next :: behind) before.length).cause.code := by
    rw [code_faultAt, code_faultAt]
  have span : (faultAt joined (others ++ next.shift count :: behind.map (Token.shift count))
      others.length).span =
        (faultAt own (before ++ next :: behind) before.length).span.shift count := by
    rw [span_faultAt, span_faultAt, Token.shift_span]
  exact ⟨_, code, by rw [← span]⟩

theorem keepsContent_shift (count : Nat) : KeepsContent (Token.shift count) := fun _ => ⟨rfl, rfl⟩

theorem joins_of_tokens {body : List Token} {comma finish : Token} {count : Nat}
    (derived : IsMembers IsAddress [finish] body list) (tries : Parser.Tries comma next)
    (lexed : tokenize second = .ok (next :: rest))
    (joined : tokenize field = .ok (body ++ comma :: (next :: rest).map (Token.shift count))) :
    Joins count list (readField false second).verdict (readField false field).verdict := by
  have ends : HasEnd (next :: rest) := by
    obtain ⟨inside, last, once⟩ := endsOnce_of_tokenize lexed
    exact ⟨last, by simp [once.eq], once.kind⟩
  have shifted_ends : HasEnd (next.shift count :: rest.map (Token.shift count)) := by
    obtain ⟨last, member, kind⟩ := ends
    exact ⟨last.shift count, List.mem_map_of_mem (f := Token.shift count) member, kind⟩
  have shifted_tries : Parser.Tries comma (next.shift count) :=
    ⟨tries.comma, tries.no_comment, tries.no_comma, tries.no_finish⟩
  have shifted := Parser.IgnoresSpans.members_address _ (keepsContent_shift count) (next :: rest)
  have outcome := Parser.outcome_addresses_joined derived shifted_tries shifted_ends
  rw [List.map_cons] at shifted joined
  rw [shifted] at outcome
  have proceeds := Parser.address_advances.members (next :: rest) ends
  rw [Parser.ProceedsAt] at proceeds
  cases own : (Parser.members Parser.address false (next :: rest)).outcome with
  | beyond =>
      rw [own] at proceeds
      exact proceeds.elim
  | failed =>
      have layout : body ++ comma :: next.shift count :: rest.map (Token.shift count) =
          body ++ [comma] ++ next.shift count :: rest.map (Token.shift count) := by simp
      rw [own, layout] at outcome
      rw [layout] at joined
      rw [verdict_of_failed lexed own, verdict_of_matched joined outcome,
        if_neg shifted_tries.no_finish]
      exact joins_faultAt second field [] (body ++ [comma]) next rest count
  | matched others last =>
      rw [own] at proceeds outcome
      obtain ⟨token, behind, rfl⟩ := proceeds.1.exists_cons
      obtain ⟨read, split, _⟩ :=
        Parser.reads_members Parser.reads_address (next :: rest) others _ own
      have layout : body ++ comma :: next.shift count :: rest.map (Token.shift count) =
          body ++ comma :: read.map (Token.shift count) ++
            token.shift count :: behind.map (Token.shift count) := by
        rw [← List.map_cons, split]
        simp
      rw [split] at lexed own
      rw [layout] at outcome joined
      rw [verdict_of_matched lexed own, verdict_of_matched joined outcome]
      by_cases finish : token.kind = .endOfText
      · rw [if_pos finish, Token.shift_kind, if_pos finish, Joins]
      · rw [if_neg finish, Token.shift_kind, if_neg finish]
        exact joins_faultAt second field read _ token behind count

/-- A lexeme that starts neither with a comma nor with a parenthesis neither is a separator. -/
theorem tries_of_isLexeme {kind : Kind} {tail : Text} {start offset : Nat}
    (form : IsLexeme kind (c :: tail)) (no_comma : c ≠ ',') (no_comment : c ≠ '(') :
    Parser.Tries (commaToken offset) (Token.ofLexeme kind (c :: tail) start) := by
  refine ⟨rfl, fun comment => no_comment ?_, fun comma => no_comma ?_, ?_⟩
  · obtain rfl : kind = .comment := comment
    cases form with
    | structural found => exact absurd (Kind.symbol_of_ofStructural? found).2 (by decide)
    | comment => rfl
  · obtain rfl : kind = .comma := comma
    cases form with
    | structural found => exact (List.cons.inj (Kind.symbol_of_ofStructural? found).1).1.symm
  · exact Token.IsRead.kind_ne ⟨c :: tail, form, rfl⟩

/-- The verdict about the second field goes over to the two fields with a comma between them. -/
theorem joins_verdict (accepted : (readField false first).verdict = .ok list)
    (starts : second.find? (!isSpace ·) = some c) (no_comma : c ≠ ',') (no_comment : c ≠ '(') :
    Joins (first.length + 1) list (readField false second).verdict
      (readField false (first ++ ',' :: second)).verdict := by
  obtain ⟨tokens, lexed, derived⟩ := verdict_eq_ok_iff.1 accepted
  obtain ⟨body, rfl, joined⟩ : ∃ body, tokens = body ++ [Token.finish first.length] ∧
      tokenize (first ++ ',' :: second) = _ := tokenize_joined lexed
  generalize last : body ++ [Token.finish first.length] = tokens at derived
  cases derived with
  | @field inside finish _ members kind =>
      obtain ⟨rfl, _⟩ := List.append_inj' last rfl
      cases own : tokenize second with
      | error stuck =>
          rw [own] at joined
          have own_verdict : (readField false second).verdict = .error stuck.fault := by
            rw [readField, own]
          have verdict : (readField false (first ++ ',' :: second)).verdict =
              .error (stuck.shift (first.length + 1)).fault := by
            rw [readField, joined]
            rfl
          rw [own_verdict, verdict, Stuck.fault_shift]
          exact ⟨stuck.cause, rfl, rfl⟩
      | ok tokens =>
          rw [own] at joined
          obtain ⟨kind, tail, start, rest, rfl, form⟩ :=
            (Token.scan_eq_ok_iff.1 own).exists_first starts
          exact joins_of_tokens members (tries_of_isLexeme form no_comma no_comment) own joined

/-! ## Forms of joined fields -/

theorem intercalate_append {α : Type} (separator : List α) {parts others : List (List α)}
    (some : parts ≠ []) (more : others ≠ []) :
    separator.intercalate (parts ++ others) =
      separator.intercalate parts ++ (separator ++ separator.intercalate others) := by
  induction parts with
  | nil => exact absurd rfl some
  | cons part parts ih =>
      cases parts with
      | nil =>
          obtain ⟨other, others, rfl⟩ := List.exists_cons_of_ne_nil more
          simp [List.intercalate]
      | cons next parts =>
          have rest := ih (List.cons_ne_nil _ _)
          simp only [List.intercalate, List.cons_append] at rest ⊢
          simp [rest]

/-- A list of addresses has a member. -/
theorem Derivation.IsAddressList.ne_nil (derived : IsAddressList tokens list) : list ≠ [] := by
  cases derived with
  | field members _ => cases members <;> exact List.cons_ne_nil _ _

theorem ne_nil_of_verdict (accepted : (readField false field).verdict = .ok list) : list ≠ [] := by
  obtain ⟨tokens, _, derived⟩ := verdict_eq_ok_iff.1 accepted
  exact derived.ne_nil

theorem AddressList.display_append (f : Text → Text) {others : AddressList} (some : list ≠ [])
    (more : others ≠ []) :
    AddressList.display f (list ++ others) = list.display f ++ ", ".toList ++ others.display f := by
  have parts : list.map (Commented.display (Address.written f)) ≠ [] := by simpa using some
  have other_parts : others.map (Commented.display (Address.written f)) ≠ [] := by simpa using more
  rw [display, displayMembers, List.map_append, intercalate_append _ parts other_parts,
    List.append_assoc]
  rfl

theorem AddressList.canonical_append (f : Text → Text) (others : AddressList) :
    AddressList.canonical f (list ++ others) = list.canonical f ++ others.canonical f :=
  List.flatMap_append

/-- Two fields with a comma between them are accepted if the second is, with the forms of both.
Otherwise the whole is refused with one diagnostic, of the same code as the one of the second field
and at the same place of it.  The first field is accepted, and the second starts with something that
is neither a comma nor a comment. -/
theorem parseField_joined (f : Text → Text) (first second : Text) (c : Char)
    (accepted : (parseField f first).isAccepted = true)
    (starts : second.find? (!isSpace ·) = some c) (no_comma : c ≠ ',') (no_comment : c ≠ '(') :
    (parseField f (first ++ ',' :: second)).isAccepted = (parseField f second).isAccepted ∧
      ((parseField f second).isAccepted = true →
        (parseField f (first ++ ',' :: second)).canonical =
            (parseField f first).canonical ++ (parseField f second).canonical ∧
          (parseField f (first ++ ',' :: second)).display =
            (parseField f first).display ++ ", ".toList ++ (parseField f second).display) ∧
      ((parseField f second).isAccepted = false →
        (parseField f (first ++ ',' :: second)).display = [] ∧
          (parseField f (first ++ ',' :: second)).canonical = [] ∧
          ∃ own joined, (parseField f second).diagnostics = [own] ∧
            (parseField f (first ++ ',' :: second)).diagnostics = [joined] ∧
            joined.code = own.code ∧ joined.start = own.start + (first.length + 1) ∧
            joined.stop = own.stop + (first.length + 1)) := by
  cases first_verdict : (readField false first).verdict with
  | error fault =>
      rw [parseField, Parse.ofReading, first_verdict] at accepted
      cases accepted
  | ok list =>
      have joins := joins_verdict first_verdict starts no_comma no_comment
      cases own : (readField false second).verdict with
      | ok others =>
          rw [own, Joins] at joins
          simp only [parseField, Parse.ofReading, first_verdict, own, joins, Parse.isAccepted,
            Parse.canonical, Parse.display]
          refine ⟨trivial, fun _ => ⟨?_, ?_⟩, nofun⟩
          · exact AddressList.canonical_append f others
          · exact AddressList.display_append f (ne_nil_of_verdict first_verdict)
              (ne_nil_of_verdict own)
      | error fault =>
          rw [own] at joins
          obtain ⟨cause, code, joined⟩ := joins
          simp only [parseField, Parse.ofReading, own, joined, Parse.isAccepted, Parse.canonical,
            Parse.display, Parse.diagnostics]
          refine ⟨trivial, nofun, fun _ => ⟨trivial, trivial, _, _, rfl, rfl, code, ?_, ?_⟩⟩
          · simp [Diagnostic.ofFault, Span.shift]
          · simp [Diagnostic.ofFault, Span.shift]

/-- Behind a group with a comment comes an address, or an address that a bracket follows. -/
theorem parseField_joined_of_group :
    (parseField id ("g:a@b;(c)".toList ++ ',' :: " d@e".toList)).display =
        "g: a@b; (c), d@e".toList ∧
      ∃ joined, (parseField id ("g:a@b;(c)".toList ++ ',' :: " d@e>".toList)).diagnostics =
        [joined] ∧ joined.code = "E200".toList ∧ joined.start = 14 ∧ joined.stop = 15 := by
  have group : parseField id "g:a@b;(c)".toList =
      .accepted "g: a@b; (c)".toList "a@b\n".toList := by decide +kernel
  have address : parseField id " d@e".toList = .accepted "d@e".toList "d@e\n".toList := by
    decide +kernel
  have refused : parseField id " d@e>".toList = .rejected ⟨.unexpectedInput, ⟨4, 5⟩⟩ := by
    decide +kernel
  have accepted : (parseField id "g:a@b;(c)".toList).isAccepted = true := by rw [group]; rfl
  obtain ⟨_, forms, _⟩ := parseField_joined id "g:a@b;(c)".toList " d@e".toList 'd' accepted rfl
    (by decide) (by decide)
  obtain ⟨_, _, diagnostics⟩ := parseField_joined id "g:a@b;(c)".toList " d@e>".toList 'd' accepted
    rfl (by decide) (by decide)
  rw [address, group] at forms
  rw [refused] at diagnostics
  refine ⟨(forms rfl).2, ?_⟩
  obtain ⟨_, _, own, joined, same, single, code, start, stop⟩ := diagnostics rfl
  obtain rfl := List.singleton_inj.1 same
  exact ⟨joined, single, code, start, stop⟩

/-- A comment behind the comma would belong to the first field. -/
example : (parseField id "a@b,(c)d@e".toList).display = "a@b (c), d@e".toList := by decide +kernel

end MailAddress
