import Mathlib.Algebra.Order.Kleene
import Mathlib.Algebra.Order.Monoid.Unbundled.Basic
import MailAddress.Matching.Grammar
import MailAddress.Proofs.Matching.Productions

/-!
# What parsers match

A parser *reads* a language if the tokens it consumes spell that language, whatever the tokens are.
The combinators follow the operations on languages: one parser after the other reads the product,
an alternative reads the sum, and a repetition reads a star.  So the language of a rule is read off
its parser, up to an inequality of languages.

Most rules also consume the comments behind their construct.  `reads_domain`, `reads_localPart` and
`reads_addrSpec` say so.  The main statement is `reads_addresses`.
-/

namespace MailAddress

open scoped Computability

/-! ## Inequalities of repetitions -/

section Inequalities

variable {K : Type*} [KleeneAlgebra K] {c m x y : K}

/-- A loop that skips, then maybe takes an item and maybe goes on. -/
theorem skip_loop_le (idem : c * c = c) (one_le : 1 ≤ c) :
    c * ((1 + m) * (1 + (c * m)∗ * c)) ≤ (c * m)∗ * c := by
  have skip_le : c ≤ (c * m)∗ * c := by
    simpa using mul_le_mul_left (one_le_kstar (a := c * m)) c
  have item_le : c * m ≤ (c * m)∗ * c :=
    calc c * m = c * m * 1 := (mul_one _).symm
      _ ≤ (c * m)∗ * c := mul_le_mul' le_kstar one_le
  have again_le : c * m * ((c * m)∗ * c) ≤ (c * m)∗ * c := by
    rw [← mul_assoc]
    exact mul_le_mul_left mul_kstar_le_kstar c
  have skip_again_le : c * ((c * m)∗ * c) ≤ (c * m)∗ * c := by
    nth_rewrite 1 [← one_add_mul_kstar (a := c * m)]
    rw [add_mul, one_mul, mul_add, idem, ← mul_assoc, ← mul_assoc, ← mul_assoc, idem, mul_assoc]
    refine add_le skip_le ?_
    rw [← mul_assoc] at again_le
    simpa only [mul_assoc] using again_le
  rw [add_mul, one_mul, mul_add, mul_add, mul_add, mul_one, mul_one, mul_add c m, ← mul_assoc c m]
  exact add_le (add_le skip_le skip_again_le) (add_le item_le again_le)

/-- Skipping behind each item comes to skipping in front of each and behind all. -/
theorem skip_behind_le (idem : c * c = c) (one_le : 1 ≤ c) :
    c * ((c * (x * c))∗ * c) ≤ (c * x)∗ * c := by
  have skip_le : c ≤ (c * x)∗ * c := by
    simpa using mul_le_mul_left (one_le_kstar (a := c * x)) c
  have absorb : c * ((c * x)∗ * c) ≤ (c * x)∗ * c := by
    refine le_trans ?_ (skip_loop_le (m := x) idem one_le)
    refine mul_le_mul_right ?_ c
    calc (c * x)∗ * c = 1 * (0 + (c * x)∗ * c) := by rw [one_mul, zero_add]
      _ ≤ (1 + x) * (1 + (c * x)∗ * c) :=
        mul_le_mul' (le_add_right le_rfl) (add_le_add_left zero_le _)
  have loop : (c * (x * c))∗ * c ≤ (c * x)∗ * c := by
    refine kstar_mul_le skip_le ?_
    calc c * (x * c) * ((c * x)∗ * c) = c * x * (c * ((c * x)∗ * c)) := by simp only [mul_assoc]
      _ ≤ c * x * ((c * x)∗ * c) := mul_le_mul_right absorb _
      _ = c * x * (c * x)∗ * c := (mul_assoc _ _ _).symm
      _ ≤ (c * x)∗ * c := mul_le_mul_left mul_kstar_le_kstar c
  exact le_trans (mul_le_mul_right loop c) absorb

/-- Items with skipping behind each, one or more. -/
theorem items_behind_le : x * c * (x * c)∗ ≤ x * (c * x)∗ * c := by
  have one_le : (1 : K) ≤ (c * x)∗ := one_le_kstar
  refine mul_kstar_le ?_ ?_
  · calc x * c = x * 1 * c := by rw [mul_one]
      _ ≤ x * (c * x)∗ * c := mul_le_mul_left (mul_le_mul_right one_le x) c
  · calc x * (c * x)∗ * c * (x * c) = x * ((c * x)∗ * (c * x)) * c := by simp only [mul_assoc]
      _ ≤ x * (c * x)∗ * c := mul_le_mul_left (mul_le_mul_right kstar_mul_le_kstar x) c

end Inequalities

/-! ## Comments and separators as languages -/

namespace Production

theorem comments_mul_comments : comments * comments = comments := kstar_mul_kstar _

theorem one_le_comments : 1 ≤ comments := one_le_kstar

theorem separators_mul_separators : separators * separators = separators := kstar_mul_kstar _

theorem one_le_separators : 1 ≤ separators := one_le_kstar

end Production

namespace Parser

variable {α β : Type} {language first second : Language Kind}

/-! ## Reading a language -/

/-- What the parser matches at the start of these tokens spells the language. -/
def ReadsAt (parser : Parser α) (language : Language Kind) (tokens : List Token) : Prop :=
  ∀ value rest, (parser false tokens).outcome = .matched value rest →
    ∃ read, tokens = read ++ rest ∧ Spells language read

/-- What the parser matches spells the language. -/
def Reads (parser : Parser α) (language : Language Kind) : Prop :=
  ∀ tokens, parser.ReadsAt language tokens

theorem ReadsAt.mono {parser : Parser α} {tokens : List Token} (le : first ≤ second)
    (reads : parser.ReadsAt first tokens) : parser.ReadsAt second tokens := by
  intro value rest matched
  obtain ⟨read, eq, spells⟩ := reads value rest matched
  exact ⟨read, eq, spells.mono le⟩

theorem Reads.mono {parser : Parser α} (le : first ≤ second) (reads : parser.Reads first) :
    parser.Reads second :=
  fun tokens => (reads tokens).mono le

theorem reads_pure (value : α) : (pure value : Parser α).Reads 1 := by
  intro tokens result rest matched
  cases matched
  exact ⟨[], rfl, Spells.one.2 rfl⟩

theorem reads_fail : (fail : Parser α).Reads language := by
  intro tokens value rest matched
  cases matched

theorem reads_beyond : (beyond : Parser α).Reads language := by
  intro tokens value rest matched
  cases matched

theorem ReadsAt.bind {parser : Parser α} {next : α → Parser β} {tokens : List Token}
    (reads : parser.ReadsAt first tokens) (continues : ∀ value, (next value).Reads second) :
    (parser >>= next).ReadsAt (first * second) tokens := by
  intro value rest matched
  change ((parser false tokens).andThen fun value rest => next value false rest).outcome = _
    at matched
  unfold Run.andThen at matched
  cases outcome : (parser false tokens).outcome with
  | beyond => rw [outcome] at matched; cases matched
  | failed => rw [outcome] at matched; cases matched
  | matched found middle =>
      rw [outcome] at matched
      obtain ⟨left, rfl, spells_left⟩ := reads found middle outcome
      obtain ⟨right, rfl, spells_right⟩ := continues found middle value rest matched
      exact ⟨left ++ right, (List.append_assoc _ _ _).symm, spells_left.append spells_right⟩

theorem Reads.bind {parser : Parser α} {next : α → Parser β} (reads : parser.Reads first)
    (continues : ∀ value, (next value).Reads second) : (parser >>= next).Reads (first * second) :=
  fun tokens => (reads tokens).bind continues

/-- A value made of what was matched adds nothing to the language. -/
theorem Reads.map {parser : Parser α} {f : α → β} (reads : parser.Reads language) :
    (parser >>= fun value => pure (f value)).Reads language := by
  have bound := reads.bind fun value => reads_pure (f value)
  rwa [mul_one] at bound

theorem ReadsAt.attempt {parser : Parser α} {tokens : List Token}
    (reads : parser.ReadsAt language tokens) : parser.attempt.ReadsAt (1 + language) tokens := by
  intro value rest matched
  unfold Parser.attempt at matched
  cases outcome : (parser false tokens).outcome with
  | beyond => simp only [outcome] at matched; cases matched
  | failed =>
      simp only [outcome] at matched
      cases matched
      exact ⟨[], rfl, Spells.add.2 (.inl (Spells.one.2 rfl))⟩
  | matched found middle =>
      obtain ⟨read, eq, spells⟩ := reads found middle outcome
      simp only [outcome] at matched
      cases matched
      exact ⟨read, eq, Spells.add.2 (.inr spells)⟩

theorem Reads.attempt {parser : Parser α} (reads : parser.Reads language) :
    parser.attempt.Reads (1 + language) :=
  fun tokens => (reads tokens).attempt

theorem Reads.traced {rule : Rule} {body : Parser rule.Result} (reads : body.Reads language) :
    (traced rule body).Reads language :=
  reads

theorem Reads.orElse {one other : Parser α} (reads_one : one.Reads first)
    (reads_other : other.Reads second) : (one.orElse other).Reads (first + second) := by
  intro tokens value rest matched
  change ((one.attempt false tokens).andThen _).outcome = _ at matched
  unfold Parser.attempt Run.andThen at matched
  cases outcome : (one false tokens).outcome with
  | beyond => simp only [outcome] at matched; cases matched
  | failed =>
      simp only [outcome] at matched
      obtain ⟨read, eq, spells⟩ := reads_other tokens value rest matched
      exact ⟨read, eq, Spells.add.2 (.inr spells)⟩
  | matched found middle =>
      obtain ⟨read, eq, spells⟩ := reads_one tokens found middle outcome
      simp only [outcome] at matched
      cases matched
      exact ⟨read, eq, Spells.add.2 (.inl spells)⟩

/-! ## Single tokens -/

theorem reads_noteFinalDomain (domain : Text) : (noteFinalDomain domain).Reads 1 := by
  intro tokens value rest matched
  cases matched
  exact ⟨[], rfl, Spells.one.2 rfl⟩

/-- A parser behind a step over the next token. -/
theorem Reads.afterAdvance {parser : Parser α} (reads : parser.Reads language) (token : Token)
    (rest : List Token) :
    (do advance; parser : Parser α).ReadsAt (Production.token token.kind * language)
      (token :: rest) := by
  intro value remaining matched
  obtain ⟨read, rfl, spells⟩ := reads rest value remaining matched
  have single : Spells (Production.token token.kind) [token] := Spells.token.2 ⟨token, rfl, rfl⟩
  exact ⟨token :: read, rfl, single.append spells⟩

/-- A parser that looks at the kind of the next token and goes on either way. -/
theorem ReadsAt.ifNext {kind : Kind} {yes no : Parser α} {tokens : List Token}
    (reads_yes : ∀ token rest, tokens = token :: rest → token.kind = kind →
      yes.ReadsAt language tokens)
    (reads_no : no.ReadsAt language tokens) :
    (do if ← nextIs kind then yes else no : Parser α).ReadsAt language tokens := by
  intro value rest matched
  cases tokens with
  | nil => cases matched
  | cons token tokens =>
      change ((if (token.kind == kind) = true then yes else no) false (token :: tokens)).outcome = _
        at matched
      split at matched
      next same => exact reads_yes token tokens rfl (beq_iff_eq.1 same) value rest matched
      next => exact reads_no value rest matched

theorem reads_expect (kind : Kind) : (expect kind).Reads (Production.token kind) := by
  intro tokens
  refine ReadsAt.ifNext ?_ (reads_fail tokens)
  rintro token rest rfl rfl
  have step := Reads.afterAdvance (reads_pure ()) token rest
  rwa [mul_one] at step

/-! ## Comments and separators -/

theorem reads_skipComments : skipComments.Reads Production.comments := by
  intro tokens
  induction tokens with
  | nil =>
      intro value rest matched
      cases matched
  | cons token tokens ih =>
      intro value rest matched
      change leadingComments (token :: tokens) = _ at matched
      rw [leadingComments] at matched
      split at matched
      next comment =>
        cases outcome : leadingComments tokens with
        | beyond => rw [outcome] at matched; cases matched
        | failed => rw [outcome] at matched; cases matched
        | matched comments middle =>
            obtain ⟨read, rfl, spells⟩ := ih comments middle outcome
            rw [outcome] at matched
            cases matched
            rw [Spells.comments] at spells
            refine ⟨token :: read, rfl, Spells.comments.2 ?_⟩
            exact List.forall_mem_cons.2 ⟨comment, spells⟩
      next =>
        cases matched
        exact ⟨[], rfl, Spells.comments.2 (by simp)⟩

theorem reads_skipSeparators : skipSeparators.Reads Production.separators := by
  intro tokens
  induction tokens with
  | nil =>
      intro value rest matched
      cases matched
  | cons token tokens ih =>
      intro value rest matched
      change leadingSeparators (token :: tokens) = _ at matched
      rw [leadingSeparators] at matched
      split at matched
      next comment =>
        cases outcome : leadingSeparators tokens with
        | beyond => rw [outcome] at matched; cases matched
        | failed => rw [outcome] at matched; cases matched
        | matched comments middle =>
            obtain ⟨read, rfl, spells⟩ := ih comments middle outcome
            rw [outcome] at matched
            cases matched
            rw [Spells.separators] at spells
            refine ⟨token :: read, rfl, Spells.separators.2 ?_⟩
            exact List.forall_mem_cons.2 ⟨.inl comment, spells⟩
      next =>
        split at matched
        next comma =>
          obtain ⟨read, rfl, spells⟩ := ih value rest matched
          rw [Spells.separators] at spells
          refine ⟨token :: read, rfl, Spells.separators.2 ?_⟩
          exact List.forall_mem_cons.2 ⟨.inr comma, spells⟩
        next =>
          cases matched
          exact ⟨[], rfl, Spells.separators.2 (by simp)⟩

/-! ## Repetitions -/

theorem reads_followers {separator : Kind} {item : Parser (Commented α)}
    (reads : item.Reads language) :
    (followers separator item).Reads
      ((Production.comments * (Production.token separator * language))∗ * Production.comments) := by
  have within : ∀ bound, (followersWithin separator item bound).Reads
      ((Production.comments * (Production.token separator * language))∗ * Production.comments) := by
    intro bound
    induction bound with
    | zero => exact reads_beyond
    | succ bound ih =>
        refine Reads.mono (skip_loop_le Production.comments_mul_comments
          Production.one_le_comments) ?_
        refine reads_skipComments.bind fun before tokens => ?_
        refine ReadsAt.ifNext ?_ ?_
        · rintro token rest rfl rfl
          refine (reads.afterAdvance token rest).attempt.bind fun found => ?_
          cases found with
          | none => exact (reads_pure _).mono (le_add_right le_rfl)
          | some found => exact ih.map.mono (le_add_left le_rfl)
        · refine ((reads_pure _).mono ?_) tokens
          calc (1 : Language Kind) = 1 * 1 := (one_mul 1).symm
            _ ≤ _ := mul_le_mul' (le_add_right le_rfl) (le_add_right le_rfl)
  exact fun tokens => within tokens.length tokens

theorem reads_repeated {item : Parser (Commented α)} (reads : item.Reads language) :
    (repeated item).Reads language∗ := by
  have within : ∀ bound, (repeatedWithin item bound).Reads language∗ := by
    intro bound
    induction bound with
    | zero => exact reads_beyond
    | succ bound ih =>
        have loop := skip_loop_le (c := (1 : Language Kind)) (m := language) (one_mul 1) le_rfl
        rw [one_mul, one_mul, mul_one] at loop
        refine Reads.mono loop ?_
        refine reads.attempt.bind fun found => ?_
        cases found with
        | none => exact (reads_pure _).mono (le_add_right le_rfl)
        | some found => exact ih.map.mono (le_add_left le_rfl)
  exact fun tokens => within tokens.length tokens

theorem reads_members {member : Parser α} (reads : member.Reads language) :
    (members member).Reads
      (language * ((Production.separators * language)∗ * Production.separators)) := by
  have within : ∀ bound first, (membersWithin member bound first).Reads
      ((Production.separators * language)∗ * Production.separators) := by
    intro bound
    induction bound with
    | zero => exact fun _ => reads_beyond
    | succ bound ih =>
        intro first
        refine Reads.mono (skip_loop_le Production.separators_mul_separators
          Production.one_le_separators) ?_
        refine reads_skipSeparators.bind fun after tokens => ?_
        refine ReadsAt.ifNext ?_ ?_
        · rintro token rest rfl -
          refine ((reads_pure _).mono ?_) _
          calc (1 : Language Kind) = 1 * 1 := (one_mul 1).symm
            _ ≤ _ := mul_le_mul' (le_add_right le_rfl) (le_add_right le_rfl)
        · refine (reads.attempt.bind fun found => ?_) tokens
          cases found with
          | none => exact (reads_pure _).mono (le_add_right le_rfl)
          | some second => exact (ih second).map.mono (le_add_left le_rfl)
  exact reads.bind fun first tokens => within tokens.length first tokens

/-- Hops spell what their number says: nothing if there is none. -/
theorem reads_hops {separator : Kind} {item : Parser (Commented α)} (reads : item.Reads language)
    {tokens rest : List Token} {found : Commented (List α)}
    (matched : (hops separator item false tokens).outcome = .matched found rest) :
    ∃ read, tokens = read ++ rest ∧
      Spells (Production.token separator * language)∗ read ∧
      (found.body ≠ [] → Spells (Production.token separator * language *
        (Production.token separator * language)∗) read) := by
  have within : ∀ bound tokens rest found,
      (hopsWithin separator item bound false tokens).outcome = .matched found rest →
        ∃ read, tokens = read ++ rest ∧
          Spells (Production.token separator * language)∗ read ∧
          (found.body ≠ [] → Spells (Production.token separator * language *
            (Production.token separator * language)∗) read) := by
    intro bound
    induction bound with
    | zero => intro tokens rest found matched; cases matched
    | succ bound ih =>
        intro tokens rest found matched
        cases tokens with
        | nil => cases matched
        | cons token tokens =>
            rw [hopsWithin] at matched
            by_cases same : token.kind = separator
            · have step : (do
                  let found ← item
                  let others ← hopsWithin separator item bound
                  return (⟨found.body :: others.body, found.comments ++ others.comments⟩ :
                    Commented (List α)) : Parser (Commented (List α))).ReadsAt
                    (language * (Production.token separator * language)∗) tokens := by
                refine (reads tokens).bind fun found => Reads.map ?_
                intro tokens found rest matched
                obtain ⟨read, eq, spells, -⟩ := ih tokens rest found matched
                exact ⟨read, eq, spells⟩
              change ((if (token.kind == separator) = true then _ else _ :
                Parser (Commented (List α))) false (token :: tokens)).outcome = _ at matched
              rw [if_pos (beq_iff_eq.2 same)] at matched
              obtain ⟨read, rfl, spells⟩ := step found rest matched
              have first : Spells (Production.token separator) [token] :=
                Spells.token.2 ⟨token, rfl, same⟩
              have all := first.append spells
              rw [← mul_assoc] at all
              exact ⟨token :: read, rfl, all.mono mul_kstar_le_kstar, fun _ => all⟩
            · change ((if (token.kind == separator) = true then _ else _ :
                Parser (Commented (List α))) false (token :: tokens)).outcome = _ at matched
              rw [if_neg (mt beq_iff_eq.1 same)] at matched
              cases matched
              exact ⟨[], rfl, Spells.kstar_nil, fun some => absurd rfl some⟩
  exact within tokens.length tokens rest found matched

/-! ## Rules -/

/-- A parser that goes on by the next token. -/
theorem Reads.peekThen {next : Token → Parser α}
    (reads : ∀ token rest, (next token).ReadsAt language (token :: rest)) :
    (do let token ← peek; next token : Parser α).Reads language := by
  intro tokens value rest matched
  cases tokens with
  | nil => cases matched
  | cons token tokens => exact reads token tokens value rest matched

theorem reads_subDomain : subDomain.Reads Production.subDomain := by
  refine Reads.traced (reads_skipComments.bind fun comments => Reads.peekThen fun token rest => ?_)
  split
  next label =>
    have step := (reads_pure (⟨token.text, comments⟩ : Commented Text)).afterAdvance token rest
    rw [mul_one] at step
    rcases label with kind | kind <;> rw [kind] at step
    · exact step.mono (le_add_right le_rfl)
    · exact step.mono (le_add_left le_rfl)
  next => exact reads_fail _

theorem reads_word : word.Reads Production.word := by
  refine Reads.traced (reads_skipComments.bind fun comments => Reads.peekThen fun token rest => ?_)
  split
  next kind =>
    have step := (reads_pure (⟨.atom token.text, comments⟩ : Commented Word)).afterAdvance token rest
    rw [mul_one, kind] at step
    exact step.mono (le_add_right le_rfl)
  next =>
    split
    next kind =>
      have step :=
        (reads_pure (⟨.quoted (unquote token.text), comments⟩ : Commented Word)).afterAdvance token
          rest
      rw [mul_one, kind] at step
      exact step.mono (le_add_left le_rfl)
    next => exact reads_fail _

theorem reads_separated {separator : Kind} {item : Parser (Commented α)}
    (reads : item.Reads language) :
    (separated separator item).Reads (language *
      ((Production.comments * (Production.token separator * language))∗ * Production.comments)) :=
  reads.bind fun _ => (reads_followers reads).map

theorem reads_domain : domain.Reads (Production.domain * Production.comments) := by
  refine Reads.traced ((reads_separated reads_subDomain).mono (le_of_eq ?_))
  simp only [Production.domain, mul_assoc]

theorem reads_localPart : localPart.Reads (Production.localPart * Production.comments) := by
  refine Reads.traced ((reads_separated reads_word).mono (le_of_eq ?_))
  simp only [Production.localPart, mul_assoc]

/-- Domains that take the comments behind them leave none to the colon. -/
theorem route_le :
    Production.token .atSign * (Production.domain * Production.comments) *
        (Production.token .atSign * (Production.domain * Production.comments))∗ *
        (Production.comments * Production.token .colon) ≤ Production.route := by
  have behind := items_behind_le (c := Production.comments)
    (x := Production.token .atSign * Production.domain)
  have one_le := Production.one_le_comments
  rw [mul_assoc (Production.token .atSign) Production.domain] at behind
  calc _ ≤ _ := mul_le_mul_left behind _
    _ = 1 * (Production.token .atSign * Production.domain) *
          (Production.comments * (Production.token .atSign * Production.domain))∗ *
          (Production.comments * Production.comments * Production.token .colon) := by
      rw [one_mul]; simp only [mul_assoc]
    _ ≤ Production.comments * (Production.token .atSign * Production.domain) *
          (Production.comments * (Production.token .atSign * Production.domain))∗ *
          (Production.comments * Production.token .colon) := by
      rw [Production.comments_mul_comments]
      exact mul_le_mul_left (mul_le_mul_left (mul_le_mul_left one_le _) _) _
    _ = Production.route := by simp only [Production.route, mul_assoc]

theorem reads_route : route.Reads Production.route := by
  refine Reads.traced fun tokens value rest matched => ?_
  change ((hops .atSign domain false tokens).andThen _).outcome = _ at matched
  unfold Run.andThen at matched
  cases outcome : (hops .atSign domain false tokens).outcome with
  | beyond => rw [outcome] at matched; cases matched
  | failed => rw [outcome] at matched; cases matched
  | matched relays middle =>
      rw [outcome] at matched
      obtain ⟨read, rfl, -, nonempty⟩ := reads_hops reads_domain outcome
      cases body : relays.body with
      | nil => simp only [body, List.isEmpty_nil, if_true] at matched; cases matched
      | cons first others =>
          simp only [body, List.isEmpty_cons] at matched
          have close : (do
              let comments ← skipComments
              expect .colon
              return (⟨first :: others, relays.comments ++ comments⟩ : Commented (List Domain)) :
                Parser (Commented (List Domain))).Reads
                (Production.comments * Production.token .colon) :=
            reads_skipComments.bind fun comments => Reads.map (reads_expect .colon)
          obtain ⟨colon, rfl, spells⟩ := close middle value rest matched
          have hops := nonempty (by rw [body]; exact List.cons_ne_nil first others)
          refine ⟨read ++ colon, (List.append_assoc _ _ _).symm, (hops.append spells).mono ?_⟩
          exact route_le

theorem reads_addrSpec : addrSpec.Reads (Production.addrSpec * Production.comments) := by
  have parts : addrSpec.Reads ((Production.localPart * Production.comments) *
      ((Production.comments * (Production.token .atSign * (Production.domain *
        Production.comments)))∗ * Production.comments * 1)) :=
    Reads.traced (reads_localPart.bind fun _ => (reads_followers reads_domain).bind fun _ =>
      (reads_noteFinalDomain _).map)
  refine parts.mono ?_
  have behind := skip_behind_le (x := Production.token .atSign * Production.domain)
    Production.comments_mul_comments Production.one_le_comments
  calc _ = Production.localPart * (Production.comments * ((Production.comments *
          (Production.token .atSign * Production.domain * Production.comments))∗ *
          Production.comments)) := by simp only [mul_assoc, mul_one]
    _ ≤ Production.localPart * ((Production.comments * (Production.token .atSign *
          Production.domain))∗ * Production.comments) := mul_le_mul_right behind _
    _ = Production.addrSpec * Production.comments := by
      simp only [Production.addrSpec, mul_assoc]

theorem reads_routeAddr : routeAddr.Reads Production.routeAddr := by
  have parts : routeAddr.Reads (Production.comments * (Production.token .lessThan *
      (Production.comments * ((1 + Production.route) * ((Production.addrSpec *
        Production.comments) * (Production.comments * Production.token .greaterThan)))))) :=
    Reads.traced (reads_skipComments.bind fun _ => (reads_expect .lessThan).bind fun _ =>
      reads_skipComments.bind fun _ => reads_route.attempt.bind fun _ => reads_addrSpec.bind fun _ =>
        reads_skipComments.bind fun _ => (reads_expect .greaterThan).map)
  refine parts.mono (le_of_eq ?_)
  have behind : Production.comments * (Production.comments * Production.token .greaterThan) =
      Production.comments * Production.token .greaterThan := by
    rw [← mul_assoc, Production.comments_mul_comments]
  simp only [Production.routeAddr, mul_assoc, behind]

theorem reads_phrase : phrase.Reads Production.phrase :=
  Reads.traced (reads_word.bind fun _ => (reads_repeated reads_word).map)

theorem reads_routeSpec : routeSpec.Reads Production.routeSpec :=
  Reads.traced (reads_phrase.attempt.bind fun _ => reads_routeAddr.map)

/-- A mailbox takes the comments behind it if it has no brackets. -/
theorem reads_mailbox : mailbox.Reads (Production.mailbox * Production.comments) := by
  refine Reads.traced ((reads_routeSpec.orElse reads_addrSpec.map).mono ?_)
  rw [Production.mailbox, add_mul]
  refine add_le_add_left ?_ _
  calc Production.routeSpec = Production.routeSpec * 1 := (mul_one _).symm
    _ ≤ Production.routeSpec * Production.comments := mul_le_mul_right Production.one_le_comments _

/-- The comments behind members are among the separators behind them. -/
theorem members_le (x : Language Kind) :
    x * Production.comments * ((Production.separators * (x * Production.comments))∗ *
      Production.separators) ≤ x * (Production.separators * x)∗ * Production.separators := by
  have comments_le : Production.comments ≤ Production.separators :=
    kstar_mono (le_add_right le_rfl)
  have behind := skip_behind_le (x := x) Production.separators_mul_separators
    Production.one_le_separators
  calc _ ≤ x * Production.separators * ((Production.separators * (x * Production.separators))∗ *
          Production.separators) := by
        have item_le : x * Production.comments ≤ x * Production.separators :=
          mul_le_mul_right comments_le x
        exact mul_le_mul' item_le (mul_le_mul_left (kstar_mono (mul_le_mul_right item_le _)) _)
    _ = x * (Production.separators * ((Production.separators * (x * Production.separators))∗ *
          Production.separators)) := by simp only [mul_assoc]
    _ ≤ x * ((Production.separators * x)∗ * Production.separators) := mul_le_mul_right behind x
    _ = _ := (mul_assoc _ _ _).symm

theorem reads_mailboxes : mailboxes.Reads (Production.mailboxes * Production.separators) :=
  Reads.traced ((reads_members reads_mailbox).mono (members_le Production.mailbox))

theorem reads_group : group.Reads Production.group := by
  have parts : group.Reads (Production.phrase * (Production.token .colon *
      ((1 + Production.mailboxes * Production.separators) * (Production.comments *
        Production.token .semicolon)))) :=
    Reads.traced (reads_phrase.bind fun _ => (reads_expect .colon).bind fun _ =>
      reads_mailboxes.attempt.bind fun _ => reads_skipComments.bind fun _ =>
        (reads_expect .semicolon).map)
  refine parts.mono ?_
  have inside : (1 + Production.mailboxes * Production.separators) * Production.comments ≤
      Production.comments + Production.mailboxes * Production.separators := by
    have comments_le : Production.comments ≤ Production.separators :=
      kstar_mono (le_add_right le_rfl)
    rw [add_mul, one_mul, mul_assoc]
    refine add_le_add_right (mul_le_mul_right ?_ _) _
    calc _ ≤ Production.separators * Production.separators := mul_le_mul_right comments_le _
      _ = Production.separators := Production.separators_mul_separators
  calc _ = Production.phrase * Production.token .colon *
          ((1 + Production.mailboxes * Production.separators) * Production.comments) *
          Production.token .semicolon := by simp only [mul_assoc]
    _ ≤ Production.group := mul_le_mul_left (mul_le_mul_right inside _) _

theorem reads_address : address.Reads (Production.address * Production.comments) := by
  refine Reads.traced ((reads_group.map.orElse reads_mailbox.map).mono ?_)
  rw [Production.address, add_mul]
  refine add_le_add_left ?_ _
  calc Production.group = Production.group * 1 := (mul_one _).symm
    _ ≤ Production.group * Production.comments := mul_le_mul_right Production.one_le_comments _

/-- A matched field spells a list of addresses up to the token at which it ends, which stays. -/
theorem reads_addresses {tokens rest : List Token} {list : AddressList}
    (matched : (addresses false tokens).outcome = .matched list rest) :
    ∃ read finish behind, tokens = read ++ rest ∧ rest = finish :: behind ∧
      Spells Production.addresses (read ++ [finish]) := by
  change ((members address).attempt false tokens |>.andThen _).outcome = _ at matched
  unfold Parser.attempt Run.andThen at matched
  cases outcome : (members address false tokens).outcome with
  | beyond => simp only [outcome] at matched; cases matched
  | failed => simp only [outcome] at matched; cases matched
  | matched found middle =>
      simp only [outcome] at matched
      obtain ⟨read, rfl, spells⟩ := (reads_members reads_address) tokens found middle outcome
      cases middle with
      | nil => cases matched
      | cons finish behind =>
          change ((if (finish.kind == .endOfText) = true then pure found else stop :
            Parser AddressList) false (finish :: behind)).outcome = _ at matched
          split at matched
          next same =>
            cases matched
            have last : Spells (Production.token .endOfText) [finish] :=
              Spells.token.2 ⟨finish, rfl, beq_iff_eq.1 same⟩
            have list := spells.mono (members_le Production.address)
            exact ⟨read, finish, behind, rfl, rfl, list.append last⟩
          next => cases matched

end Parser

end MailAddress
