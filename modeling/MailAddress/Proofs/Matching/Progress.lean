import MailAddress.Proofs.Matching.Members
import MailAddress.Proofs.Matching.Spans

/-!
# Progress

In front of the end of the text no parser of the grammar asks for a token beyond the last, since all
of them stop at the token of the end.  A rule that matches leaves that token and takes another one
at least.  So a repetition never runs out of its bound, and any bound that is large enough gives the
same outcome.
-/

namespace MailAddress

open MailAddress.Derivation

namespace Outcome

/-- No token beyond the last was asked for.  If there is a match, at most so many tokens follow, and
the end of the text is among them. -/
def Leaves {α : Type} (limit : Nat) : Outcome α → Prop
  | .beyond => False
  | .failed => True
  | .matched _ rest => HasEnd rest ∧ rest.length ≤ limit

theorem Leaves.mono {α : Type} {outcome : Outcome α} {limit other : Nat}
    (leaves : outcome.Leaves limit) (le : limit ≤ other) : outcome.Leaves other := by
  cases outcome with
  | beyond => exact leaves
  | failed => trivial
  | matched value rest => exact ⟨leaves.1, Nat.le_trans leaves.2 le⟩

end Outcome

namespace Parser

variable {α β : Type} {parser : Parser α} {onward : α → Parser β} {limit other : Nat}
variable {tokens rest : List Token} {token : Token} {kind : Kind}

/-! ## Parsers at some tokens -/

/-- At these tokens, the parser leaves at most so many. -/
def ProceedsAt (parser : Parser α) (limit : Nat) (tokens : List Token) : Prop :=
  (parser false tokens).outcome.Leaves limit

namespace ProceedsAt

theorem pure (value : α) (ends : HasEnd tokens) (le : tokens.length ≤ limit) :
    (Pure.pure value : Parser α).ProceedsAt limit tokens :=
  ⟨ends, le⟩

theorem bind (first : parser.ProceedsAt limit tokens)
    (second : ∀ value rest, HasEnd rest → rest.length ≤ limit →
      (onward value).ProceedsAt other rest) :
    (parser >>= onward).ProceedsAt other tokens := by
  rw [ProceedsAt, run_bind, Run.outcome_andThen]
  rw [ProceedsAt] at first
  cases outcome : (parser false tokens).outcome with
  | beyond =>
      rw [outcome] at first
      exact first
  | failed => trivial
  | matched value rest =>
      rw [outcome] at first
      exact second value rest first.1 first.2

/-- A parser that is tried takes no token if it fails. -/
theorem attemptThen {onward : Option α → Parser β} (first : parser.ProceedsAt limit tokens)
    (missing : (onward none).ProceedsAt other tokens)
    (found : ∀ value rest, HasEnd rest → rest.length ≤ limit →
      (onward (some value)).ProceedsAt other rest) :
    (parser.attempt >>= onward).ProceedsAt other tokens := by
  rw [ProceedsAt, run_bind, Run.outcome_andThen, outcome_attempt]
  rw [ProceedsAt] at first
  cases outcome : (parser false tokens).outcome with
  | beyond =>
      rw [outcome] at first
      exact first
  | failed => exact missing
  | matched value rest =>
      rw [outcome] at first
      exact found value rest first.1 first.2

/-- A parser that looks at the kind of the next token and goes on either way. -/
theorem ifNext {yes no : Parser α} (ends : HasEnd tokens)
    (holds : ∀ token rest, tokens = token :: rest → token.kind = kind →
      yes.ProceedsAt limit tokens)
    (fails : no.ProceedsAt limit tokens) :
    (do if ← nextIs kind then yes else no : Parser α).ProceedsAt limit tokens := by
  obtain ⟨token, rest, rfl⟩ := ends.exists_cons
  rw [ProceedsAt, run_bind, run_nextIs, Run.andThen_matched]
  split
  next same => exact holds token rest rfl (beq_iff_eq.1 same)
  next => exact fails

end ProceedsAt

/-- The end of the text is not stepped over. -/
theorem hasEnd_of_cons (other : token.kind ≠ .endOfText) (ends : HasEnd (token :: rest)) :
    HasEnd rest :=
  HasEnd.of_cons .nil other ends

/-! ## Parsers at all tokens -/

/-- In front of the end of the text, the parser leaves it. -/
def Proceeds (parser : Parser α) : Prop :=
  ∀ tokens, HasEnd tokens → parser.ProceedsAt tokens.length tokens

/-- In front of the end of the text, the parser leaves it and takes a token at least if it
matches. -/
def Advances (parser : Parser α) : Prop :=
  ∀ tokens, HasEnd tokens → parser.ProceedsAt (tokens.length - 1) tokens

theorem Advances.proceeds (advances : parser.Advances) : parser.Proceeds :=
  fun tokens ends => (advances tokens ends).mono (Nat.sub_le _ _)

namespace Proceeds

theorem pure (value : α) : (Pure.pure value : Parser α).Proceeds :=
  fun _ ends => .pure value ends (Nat.le_refl _)

theorem bind (first : parser.Proceeds) (second : ∀ value, (onward value).Proceeds) :
    (parser >>= onward).Proceeds :=
  fun tokens ends => (first tokens ends).bind fun value rest ends le =>
    (second value rest ends).mono le

theorem attempt (proceeds : parser.Proceeds) : parser.attempt.Proceeds := by
  intro tokens ends
  have step := proceeds tokens ends
  rw [ProceedsAt] at step ⊢
  rw [outcome_attempt]
  cases outcome : (parser false tokens).outcome with
  | failed => exact ⟨ends, Nat.le_refl _⟩
  | _ =>
      rw [outcome] at step
      exact step

theorem skipComments : Parser.skipComments.Proceeds := by
  intro tokens ends
  change (leadingComments tokens).Leaves tokens.length
  induction tokens with
  | nil => exact absurd ends.exists_cons (by simp)
  | cons token tokens ih =>
      rw [leadingComments]
      split
      next comment =>
        have step := ih (hasEnd_of_cons (by simp [comment]) ends)
        cases outcome : leadingComments tokens <;> rw [outcome] at step
        · exact step
        · exact step
        · exact step.mono (Nat.le_succ _)
      next => exact ⟨ends, Nat.le_refl _⟩

theorem skipSeparators : Parser.skipSeparators.Proceeds := by
  intro tokens ends
  change (leadingSeparators tokens).Leaves tokens.length
  induction tokens with
  | nil => exact absurd ends.exists_cons (by simp)
  | cons token tokens ih =>
      rw [leadingSeparators]
      split
      next comment =>
        have step := ih (hasEnd_of_cons (by simp [comment]) ends)
        cases outcome : leadingSeparators tokens <;> rw [outcome] at step
        · exact step
        · exact step
        · exact step.mono (Nat.le_succ _)
      next =>
        split
        next comma => exact (ih (hasEnd_of_cons (by simp [comma]) ends)).mono (Nat.le_succ _)
        next => exact ⟨ends, Nat.le_refl _⟩

theorem noteFinalDomain (domain : Text) : (Parser.noteFinalDomain domain).Proceeds :=
  fun _ ends => ⟨ends, Nat.le_refl _⟩

end Proceeds

namespace Advances

theorem bind (first : parser.Advances) (second : ∀ value, (onward value).Proceeds) :
    (parser >>= onward).Advances :=
  fun tokens ends => (first tokens ends).bind fun value rest ends le =>
    (second value rest ends).mono le

theorem behind (first : parser.Proceeds) (second : ∀ value, (onward value).Advances) :
    (parser >>= onward).Advances :=
  fun tokens ends => (first tokens ends).bind fun value rest ends le =>
    (second value rest ends).mono (Nat.sub_le_sub_right le 1)

theorem map {result : α → β} (advances : parser.Advances) :
    (parser >>= fun value => Pure.pure (result value)).Advances :=
  advances.bind fun _ => .pure _

theorem orElse {other : Parser α} (first : parser.Advances) (second : other.Advances) :
    (parser.orElse other).Advances :=
  fun tokens ends => (first tokens ends).attemptThen (second tokens ends) fun value _ ends le =>
    .pure value ends le

theorem fail : (Parser.fail : Parser α).Advances := fun _ _ => trivial

theorem ite {other : Parser α} {p : Prop} [Decidable p] (first : parser.Advances)
    (second : other.Advances) : (if p then parser else other).Advances := by
  split
  · exact first
  · exact second

/-- A step over a token that does not end the text. -/
theorem afterAdvance (proceeds : parser.Proceeds) (other : token.kind ≠ .endOfText)
    (ends : HasEnd (token :: rest)) :
    (do advance; parser : Parser α).ProceedsAt rest.length (token :: rest) :=
  proceeds rest (hasEnd_of_cons other ends)

/-- A parser that goes on by the next token. -/
theorem peekThen {next : Token → Parser α}
    (advances : ∀ token rest, HasEnd (token :: rest) →
      (next token).ProceedsAt rest.length (token :: rest)) :
    (do let token ← peek; next token : Parser α).Advances := by
  intro tokens ends
  obtain ⟨token, rest, rfl⟩ := ends.exists_cons
  exact advances token rest ends

theorem expect (other : kind ≠ .endOfText) : (Parser.expect kind).Advances := by
  intro tokens ends
  refine .ifNext ends ?_ trivial
  rintro token rest rfl rfl
  exact ⟨hasEnd_of_cons other ends, Nat.le_refl _⟩

end Advances

/-! ## Repetition -/

section Repetition

variable {separator : Kind} {item : Parser (Commented α)}

/-- A repetition proceeds if its bound is large enough for the tokens. -/
def ProceedsWithin (within : Nat → Parser α) : Prop :=
  ∀ bound tokens, HasEnd tokens → tokens.length ≤ bound →
    (within bound).ProceedsAt tokens.length tokens

theorem ProceedsWithin.bounded {within : Nat → Parser α} (proceeds : ProceedsWithin within) :
    Proceeds fun tracing tokens => within tokens.length tracing tokens :=
  fun tokens ends => proceeds tokens.length tokens ends (Nat.le_refl _)

/-- Without room there is no token, and so no end of the text. -/
theorem HasEnd.exists_bound {bound : Nat} (ends : HasEnd tokens) (enough : tokens.length ≤ bound) :
    ∃ less, bound = less + 1 := by
  obtain ⟨token, rest, rfl⟩ := ends.exists_cons
  exact ⟨bound - 1, by simp only [List.length_cons] at enough; omega⟩

theorem followersWithin_proceeds (other : separator ≠ .endOfText) (advances : item.Advances) :
    ProceedsWithin (followersWithin separator item) := by
  intro bound tokens ends enough
  induction bound generalizing tokens with
  | zero => exact absurd (HasEnd.exists_bound ends enough) (by simp)
  | succ bound ih =>
      refine (Proceeds.skipComments tokens ends).bind fun before middle ends le => ?_
      refine .ifNext ends ?_ (.pure _ ends le)
      rintro token rest rfl rfl
      simp only [List.length_cons] at le
      have step : (do advance; item : Parser (Commented α)).ProceedsAt rest.length
          (token :: rest) :=
        Advances.afterAdvance advances.proceeds other ends
      refine step.attemptThen (.pure _ ends le) fun found behind ends fewer => ?_
      refine (ih behind ends (by omega)).bind fun others last ends fewer => .pure _ ends ?_
      omega

theorem hopsWithin_proceeds (other : separator ≠ .endOfText) (advances : item.Advances) :
    ProceedsWithin (hopsWithin separator item) := by
  intro bound tokens ends enough
  induction bound generalizing tokens with
  | zero => exact absurd (HasEnd.exists_bound ends enough) (by simp)
  | succ bound ih =>
      refine .ifNext ends ?_ (.pure _ ends (Nat.le_refl _))
      rintro token rest rfl rfl
      simp only [List.length_cons] at enough ⊢
      have proceeds : (do
          let found ← item
          let others ← hopsWithin token.kind item bound
          return (⟨found.body :: others.body, found.comments ++ others.comments⟩ :
            Commented (List α)) : Parser (Commented (List α))).ProceedsAt rest.length rest := by
        refine (advances.proceeds rest (hasEnd_of_cons other ends)).bind
          fun found behind ends fewer => ?_
        refine (ih behind ends (by omega)).bind fun others last ends fewer => .pure _ ends ?_
        omega
      exact proceeds.mono (Nat.le_succ _)

theorem repeatedWithin_proceeds (advances : item.Advances) :
    ProceedsWithin (repeatedWithin item) := by
  intro bound tokens ends enough
  induction bound generalizing tokens with
  | zero => exact absurd (HasEnd.exists_bound ends enough) (by simp)
  | succ bound ih =>
      refine (advances tokens ends).attemptThen (.pure _ ends (Nat.le_refl _))
        fun found behind ends fewer => ?_
      refine (ih behind ends (by omega)).bind fun others last ends fewer => .pure _ ends ?_
      omega

theorem membersWithin_proceeds (advances : parser.Advances) (first : α) :
    ProceedsWithin fun bound => membersWithin parser bound first := by
  intro bound tokens ends enough
  induction bound generalizing tokens first with
  | zero => exact absurd (HasEnd.exists_bound ends enough) (by simp)
  | succ bound ih =>
      refine (Proceeds.skipSeparators tokens ends).bind fun after middle ends le => ?_
      refine .ifNext ends (fun _ _ _ _ => .pure _ ends le) ?_
      refine (advances middle ends).attemptThen (.pure _ ends le) fun second behind ends fewer => ?_
      refine (ih second behind ends (by omega)).bind fun others last ends fewer => .pure _ ends ?_
      omega

theorem Advances.members (advances : parser.Advances) : (members parser).Advances :=
  advances.bind fun first => (membersWithin_proceeds advances first).bounded

end Repetition

/-! ## Rules -/

theorem Advances.traced {rule : Rule} {body : Parser rule.Result} (advances : body.Advances) :
    (Parser.traced rule body).Advances :=
  advances

theorem Advances.separated {separator : Kind} {item : Parser (Commented α)}
    (other : separator ≠ .endOfText) (advances : item.Advances) :
    (Parser.separated separator item).Advances :=
  advances.bind fun _ => (followersWithin_proceeds other advances).bounded.bind fun _ => .pure _

theorem subDomain_advances : subDomain.Advances := by
  refine .traced (.behind .skipComments fun comments => .peekThen fun token rest ends => ?_)
  split
  next label =>
    have other : token.kind ≠ .endOfText := by rcases label with kind | kind <;> simp [kind]
    exact Advances.afterAdvance (.pure _) other ends
  next => trivial

theorem domain_advances : domain.Advances :=
  .traced (.separated (by decide) subDomain_advances)

theorem route_advances : route.Advances :=
  .traced <| .behind (hopsWithin_proceeds (by decide) domain_advances).bounded fun _ =>
    .ite .fail <| .behind .skipComments fun _ => (Advances.expect (by decide)).map

theorem word_advances : word.Advances := by
  refine .traced (.behind .skipComments fun comments => .peekThen fun token rest ends => ?_)
  split
  next kind => exact Advances.afterAdvance (.pure _) (by simp [kind]) ends
  next =>
    split
    next kind => exact Advances.afterAdvance (.pure _) (by simp [kind]) ends
    next => trivial

theorem localPart_advances : localPart.Advances :=
  .traced (.separated (by decide) word_advances)

theorem addrSpec_advances : addrSpec.Advances :=
  .traced <| localPart_advances.bind fun _ =>
    (followersWithin_proceeds (by decide) domain_advances).bounded.bind fun _ =>
      (Proceeds.noteFinalDomain _).bind fun _ => .pure _

theorem routeAddr_advances : routeAddr.Advances :=
  .traced <| .behind .skipComments fun _ => (Advances.expect (by decide)).bind fun _ =>
    Proceeds.skipComments.bind fun _ => route_advances.proceeds.attempt.bind fun _ =>
      addrSpec_advances.proceeds.bind fun _ => Proceeds.skipComments.bind fun _ =>
        (Advances.expect (by decide)).map.proceeds

theorem phrase_advances : phrase.Advances :=
  .traced <| word_advances.bind fun _ =>
    (repeatedWithin_proceeds word_advances).bounded.bind fun _ => .pure _

theorem routeSpec_advances : routeSpec.Advances :=
  .traced <| .behind phrase_advances.proceeds.attempt fun _ => routeAddr_advances.map

theorem mailbox_advances : mailbox.Advances :=
  .traced (routeSpec_advances.orElse addrSpec_advances.map)

theorem mailboxes_advances : mailboxes.Advances := .traced mailbox_advances.members

theorem group_advances : group.Advances :=
  .traced <| phrase_advances.bind fun _ => (Advances.expect (by decide)).proceeds.bind fun _ =>
    mailboxes_advances.proceeds.attempt.bind fun _ => Proceeds.skipComments.bind fun _ =>
      (Advances.expect (by decide)).map.proceeds

theorem address_advances : address.Advances :=
  .traced (group_advances.map.orElse mailbox_advances.map)

/-! ## Bounds -/

/-- Two bounds that are large enough give the same list. -/
theorem outcome_membersWithin (advances : parser.Advances) {bound other : Nat} (first : α)
    (ends : HasEnd tokens) (enough : tokens.length ≤ bound) (also_enough : tokens.length ≤ other) :
    (membersWithin parser bound first false tokens).outcome =
      (membersWithin parser other first false tokens).outcome := by
  induction bound generalizing other first tokens with
  | zero => exact absurd (HasEnd.exists_bound ends enough) (by simp)
  | succ bound ih =>
      obtain ⟨other, rfl⟩ := HasEnd.exists_bound ends also_enough
      have skipped := Proceeds.skipSeparators tokens ends
      rw [ProceedsAt] at skipped
      simp only [membersWithin, run_bind, Run.outcome_andThen]
      cases skip : (skipSeparators false tokens).outcome with
      | beyond => rfl
      | failed => rfl
      | matched after middle =>
          rw [skip] at skipped
          obtain ⟨middle_ends, le⟩ := skipped
          obtain ⟨token, rest, rfl⟩ := middle_ends.exists_cons
          dsimp only
          rw [run_nextIs]
          dsimp only
          split
          next => rfl
          next =>
            have tried := advances (token :: rest) middle_ends
            rw [ProceedsAt] at tried
            rw [run_bind, run_bind, Run.outcome_andThen, Run.outcome_andThen, outcome_attempt]
            cases found : (parser false (token :: rest)).outcome with
            | beyond => rfl
            | failed => rfl
            | matched second behind =>
                rw [found] at tried
                obtain ⟨behind_ends, fewer⟩ := tried
                have others : (membersWithin parser bound second false behind).outcome =
                    (membersWithin parser other second false behind).outcome :=
                  ih second behind_ends (by omega) (by omega)
                simp only [run_bind, Run.outcome_andThen, others]

end Parser

end MailAddress
