import Mathlib.Logic.ExistsUnique
import MailAddress.Matching.Session
import MailAddress.Proofs.Matching.Compositional

/-!
# Traces are bracketed

A rule that is entered is left later, at the same depth.  All that happens in between is deeper.  So
the lines of a rule that comes to an end are *nested*: what a rule does stands between its first line
and its last, and rules that do not stand in each other follow one another.

Which last line belongs to a first one can be read off the lines alone.  It is the next one that is
not deeper.
-/

namespace MailAddress

/-- The result of a rule that matches. -/
def Answer.result? {α : Type} : Answer α → Option α
  | .matched _ result => some result
  | _ => none

/-- Whether a line is one of a rule deeper than that.  The line that says where a field stops has no
depth, so it may stand anywhere. -/
def TraceLine.isDeeper (depth : Nat) : TraceLine → Bool
  | .entry own _ _ => depth < own
  | .result own _ _ => depth < own
  | .stopped _ => true

namespace Trace

variable {depth total : Nat} {rule : Rule} {token : Token} {forms : Option Forms}
variable {lines left right before behind inside other : List TraceLine}

/-! ## Brackets -/

/-- Some lines up to the one that ends a rule, all of them deeper than it. -/
def Closes (depth : Nat) (rule : Rule) (behind inside : List TraceLine) : Prop :=
  (∃ forms after, behind = inside ++ .result depth rule forms :: after) ∧
    ∀ line ∈ inside, line.isDeeper depth = true

/-- Some lines back to the one that begins a rule, all of them deeper than it. -/
def Opens (depth : Nat) (rule : Rule) (before inside : List TraceLine) : Prop :=
  (∃ front token, before = front ++ .entry depth rule token :: inside) ∧
    ∀ line ∈ inside, line.isDeeper depth = true

/-- Every line that begins a rule is closed by exactly one line that ends it, and every line that
ends a rule closes exactly one. -/
structure IsBracketed (lines : List TraceLine) : Prop where
  /-- Behind a line that begins a rule stands the one that ends it. -/
  closes : ∀ before depth rule token behind, lines = before ++ .entry depth rule token :: behind →
    ∃! inside, Closes depth rule behind inside
  /-- In front of a line that ends a rule stands the one that begins it. -/
  opens : ∀ before depth rule forms behind, lines = before ++ .result depth rule forms :: behind →
    ∃! inside, Opens depth rule before inside

/-- Some deeper lines, up to the first that is not. -/
theorem takeWhile_deeper {line : TraceLine} (deeper : ∀ line ∈ inside, line.isDeeper depth = true)
    (other : line.isDeeper depth = false) (after : List TraceLine) :
    (inside ++ line :: after).takeWhile (TraceLine.isDeeper depth) = inside := by
  rw [List.takeWhile_append_of_pos deeper, List.takeWhile_cons_of_neg (by simp [other]),
    List.append_nil]

theorem Closes.takeWhile_eq (closes : Closes depth rule behind inside) :
    behind.takeWhile (TraceLine.isDeeper depth) = inside := by
  obtain ⟨⟨forms, after, rfl⟩, deeper⟩ := closes
  exact takeWhile_deeper deeper (by simp [TraceLine.isDeeper]) after

theorem Opens.takeWhile_eq (opens : Opens depth rule before inside) :
    before.reverse.takeWhile (TraceLine.isDeeper depth) = inside.reverse := by
  obtain ⟨⟨front, token, rfl⟩, deeper⟩ := opens
  have reversed : ∀ line ∈ inside.reverse, line.isDeeper depth = true := fun line member =>
    deeper line (List.mem_reverse.1 member)
  rw [List.reverse_append, List.reverse_cons, List.append_assoc, List.singleton_append]
  exact takeWhile_deeper reversed (by simp [TraceLine.isDeeper]) _

theorem Closes.unique (closes : Closes depth rule behind inside)
    (others : Closes depth rule behind other) : other = inside :=
  others.takeWhile_eq.symm.trans closes.takeWhile_eq

theorem Opens.unique (opens : Opens depth rule before inside)
    (others : Opens depth rule before other) : other = inside :=
  List.reverse_inj.1 (others.takeWhile_eq.symm.trans opens.takeWhile_eq)

/-! ## Nested lines -/

/-- Lines in which all that a rule does stands between its first line and its last, one level
deeper. -/
inductive Nested : Nat → List TraceLine → Prop
  /-- No line. -/
  | nil {depth : Nat} : Nested depth []
  /-- A field stops to be a list of addresses. -/
  | stopped {depth index : Nat} : Nested depth [.stopped index]
  /-- A rule begins and ends. -/
  | rule {depth : Nat} {rule : Rule} {token : Token} {forms : Option Forms}
      {inside : List TraceLine} :
      Nested (depth + 1) inside →
      Nested depth (.entry depth rule token :: (inside ++ [.result depth rule forms]))
  /-- One thing after the other. -/
  | append {depth : Nat} {left right : List TraceLine} :
      Nested depth left → Nested depth right → Nested depth (left ++ right)

theorem Nested.deeper (nested : Nested total lines) :
    ∀ line ∈ lines, ∀ depth < total, line.isDeeper depth = true := by
  induction nested with
  | nil => simp
  | stopped => simp [TraceLine.isDeeper]
  | rule _ ih =>
      intro line member depth less
      simp only [List.mem_cons, List.mem_append, List.not_mem_nil, or_false] at member
      rcases member with rfl | member | rfl
      · exact decide_eq_true less
      · exact ih line member depth (Nat.lt_succ_of_lt less)
      · exact decide_eq_true less
  | append _ _ first second =>
      intro line member
      exact (List.mem_append.1 member).elim (first line) (second line)

/-- Every line that begins a rule is closed. -/
def EntriesClose (lines : List TraceLine) : Prop :=
  ∀ before depth rule token behind, lines = before ++ .entry depth rule token :: behind →
    ∃ inside, Closes depth rule behind inside

/-- Every line that ends a rule closes one that begins it. -/
def ResultsOpen (lines : List TraceLine) : Prop :=
  ∀ before depth rule forms behind, lines = before ++ .result depth rule forms :: behind →
    ∃ inside, Opens depth rule before inside

theorem EntriesClose.append (first : EntriesClose left) (second : EntriesClose right) :
    EntriesClose (left ++ right) := by
  intro before depth rule token behind eq
  rcases List.append_eq_append_iff.1 eq with ⟨more, rfl, rest⟩ | ⟨more, rfl, rest⟩
  · exact second more depth rule token behind rest
  · cases more with
    | nil => exact second [] depth rule token behind rest.symm
    | cons line more =>
        obtain ⟨rfl, rfl⟩ := List.cons.inj rest
        obtain ⟨inside, ⟨forms, after, rfl⟩, deeper⟩ := first before depth rule token more rfl
        exact ⟨inside, ⟨forms, after ++ right, List.append_assoc _ _ _⟩, deeper⟩

theorem ResultsOpen.append (first : ResultsOpen left) (second : ResultsOpen right) :
    ResultsOpen (left ++ right) := by
  intro before depth rule forms behind eq
  rcases List.append_eq_append_iff.1 eq with ⟨more, rfl, rest⟩ | ⟨more, rfl, rest⟩
  · obtain ⟨inside, ⟨front, token, rfl⟩, deeper⟩ := second more depth rule forms behind rest
    exact ⟨inside, ⟨left ++ front, token, by rw [List.append_assoc]⟩, deeper⟩
  · cases more with
    | nil =>
        obtain ⟨inside, ⟨front, token, eq⟩, -⟩ := second [] depth rule forms behind rest.symm
        simp at eq
    | cons line more =>
        obtain ⟨rfl, rfl⟩ := List.cons.inj rest
        exact first before depth rule forms more rfl

theorem entriesClose_nil : EntriesClose [] := by
  intro before depth rule token behind eq
  simp at eq

theorem resultsOpen_nil : ResultsOpen [] := by
  intro before depth rule forms behind eq
  simp at eq

theorem entriesClose_singleton {line : TraceLine}
    (other : ∀ depth rule token, line ≠ .entry depth rule token) : EntriesClose [line] := by
  intro before depth rule token behind eq
  have member : .entry depth rule token ∈ [line] := by simp [eq]
  exact absurd (List.mem_singleton.1 member).symm (other depth rule token)

theorem resultsOpen_singleton {line : TraceLine}
    (other : ∀ depth rule forms, line ≠ .result depth rule forms) : ResultsOpen [line] := by
  intro before depth rule forms behind eq
  have member : .result depth rule forms ∈ [line] := by simp [eq]
  exact absurd (List.mem_singleton.1 member).symm (other depth rule forms)

theorem Nested.entriesClose (nested : Nested depth lines) : EntriesClose lines := by
  induction nested with
  | nil => exact entriesClose_nil
  | stopped => exact entriesClose_singleton nofun
  | append _ _ first second => exact first.append second
  | @rule depth rule token forms inside nested ih =>
      intro before other_depth other other_token behind eq
      cases before with
      | nil =>
          cases eq
          exact ⟨inside, ⟨forms, [], rfl⟩, fun line member =>
            nested.deeper line member depth (Nat.lt_succ_self depth)⟩
      | cons line before =>
          obtain ⟨-, rest⟩ := List.cons.inj eq
          have last : EntriesClose [.result depth rule forms] := entriesClose_singleton nofun
          exact ih.append last before other_depth other other_token behind rest

theorem Nested.resultsOpen (nested : Nested depth lines) : ResultsOpen lines := by
  induction nested with
  | nil => exact resultsOpen_nil
  | stopped => exact resultsOpen_singleton nofun
  | append _ _ first second => exact first.append second
  | @rule depth rule token forms inside nested ih =>
      intro before other_depth other other_forms behind eq
      have first : ResultsOpen [.entry depth rule token] := resultsOpen_singleton nofun
      rcases List.eq_nil_or_concat behind with rfl | ⟨front, line, rfl⟩
      · have parts : .entry depth rule token :: inside ++ [.result depth rule forms] =
            before ++ [.result other_depth other other_forms] := eq
        obtain ⟨rfl, same⟩ := List.append_inj' parts rfl
        cases same
        exact ⟨inside, ⟨[], token, rfl⟩, fun line member =>
          nested.deeper line member depth (Nat.lt_succ_self depth)⟩
      · have parts : [.entry depth rule token] ++ inside ++ [.result depth rule forms] =
            before ++ .result other_depth other other_forms :: front ++ [line] := by simpa using eq
        obtain ⟨eq, -⟩ := List.append_inj' parts rfl
        exact first.append ih before other_depth other other_forms front eq

/-- Nested lines are bracketed. -/
theorem Nested.isBracketed (nested : Nested depth lines) : IsBracketed lines where
  closes before depth rule token behind eq := by
    obtain ⟨inside, closes⟩ := nested.entriesClose before depth rule token behind eq
    exact ⟨inside, closes, fun other others => closes.unique others⟩
  opens before depth rule forms behind eq := by
    obtain ⟨inside, opens⟩ := nested.resultsOpen before depth rule forms behind eq
    exact ⟨inside, opens, fun other others => opens.unique others⟩

/-! ## Lines and depth of joined events -/

section Events

variable {events others : List Event} {f : Text → Text}

theorem depthAfter_append (depth : Nat) (events others : List Event) :
    depthAfter depth (events ++ others) = depthAfter (depthAfter depth events) others :=
  List.foldl_append

theorem lines_append (f : Text → Text) (total depth : Nat) (events others : List Event) :
    Trace.lines f total depth (events ++ others) =
      Trace.lines f total depth events ++ Trace.lines f total (depthAfter depth events) others := by
  induction events generalizing depth with
  | nil => rfl
  | cons event events ih =>
      simp only [List.cons_append, Trace.lines, ih, List.append_assoc]
      rfl

/-- The events of a rule lead back to the depth at which it begins. -/
theorem depthAfter_rule {outcome : Outcome rule.Result}
    (keeps : ∀ depth, depthAfter depth events = depth) (depth : Nat) :
    depthAfter depth (.entered rule token :: events ++ [.left rule outcome]) = depth := by
  have inner : depthAfter depth (.entered rule token :: events) = depth + 1 := keeps (depth + 1)
  rw [depthAfter_append, inner]
  rfl

/-- The lines of a rule that fails or matches. -/
theorem lines_rule {outcome : Outcome rule.Result}
    (keeps : ∀ depth, depthAfter depth events = depth) (ended : outcome ≠ .beyond)
    (f : Text → Text) (total depth : Nat) :
    Trace.lines f total depth (.entered rule token :: events ++ [.left rule outcome]) =
      .entry depth rule token :: (Trace.lines f total (depth + 1) events ++
        [.result depth rule (outcome.answer total (rule.forms f)).result?]) := by
  have inner : depthAfter depth (.entered rule token :: events) = depth + 1 := keeps (depth + 1)
  rw [lines_append, inner]
  cases outcome with
  | beyond => exact absurd rfl ended
  | failed => rfl
  | matched value rest => rfl

end Events

end Trace

/-! ## Runs -/

/-- A run leads back to the depth at which it starts, and its lines are nested unless it asked for a
token beyond the last. -/
structure Run.Nests {α : Type} (run : Run α) : Prop where
  /-- It leaves every rule that it enters. -/
  depthAfter : ∀ depth, Trace.depthAfter depth run.events = depth
  /-- All that a rule does stands between its first line and its last. -/
  nested : run.outcome ≠ .beyond → ∀ f total depth,
    Trace.Nested depth (Trace.lines f total depth run.events)

namespace Parser

variable {α β : Type} {parser : Parser α}

/-- All runs of the parser are nested. -/
def Nests (parser : Parser α) : Prop := ∀ tracing tokens, (parser tracing tokens).Nests

namespace Nests

theorem silent {run : Run α} (nothing : run.events = []) : run.Nests := by
  obtain ⟨outcome, events⟩ := run
  cases nothing
  exact ⟨fun _ => rfl, fun _ _ _ _ => .nil⟩

theorem bind {onward : α → Parser β} (first : parser.Nests)
    (second : ∀ value, (onward value).Nests) : (parser >>= onward).Nests := by
  intro tracing tokens
  change ((parser tracing tokens).andThen fun value rest => onward value tracing rest).Nests
  have own := first tracing tokens
  unfold Run.andThen
  cases outcome : (parser tracing tokens).outcome with
  | beyond => exact ⟨own.depthAfter, fun inside => absurd rfl inside⟩
  | failed => exact ⟨own.depthAfter, fun _ => own.nested (by simp [outcome])⟩
  | matched value rest =>
      have others := second value tracing rest
      constructor
      · intro depth
        rw [Trace.depthAfter_append, own.depthAfter, others.depthAfter]
      · intro inside f total depth
        rw [Trace.lines_append, own.depthAfter]
        exact .append (own.nested (by simp [outcome]) f total depth)
          (others.nested inside f total depth)

theorem attempt (nests : parser.Nests) : parser.attempt.Nests := by
  intro tracing tokens
  obtain ⟨keeps, nested⟩ := nests tracing tokens
  rw [Parser.attempt]
  rcases run : parser tracing tokens with ⟨_ | _ | ⟨value, rest⟩, events⟩ <;> rw [run] at keeps nested
  · exact ⟨keeps, fun ended => absurd rfl ended⟩
  · exact ⟨keeps, fun _ => nested nofun⟩
  · exact ⟨keeps, fun _ => nested nofun⟩

theorem peek : Parser.peek.Nests := by
  intro tracing tokens
  cases tokens <;> exact silent rfl

/-- A rule that is traced puts a line in front of what it does and another one behind. -/
theorem traced {rule : Rule} {body : Parser rule.Result} (nests : body.Nests) :
    (Parser.traced rule body).Nests := by
  intro tracing tokens
  cases tracing with
  | false => exact nests false tokens
  | true =>
      cases tokens with
      | nil => exact silent rfl
      | cons token tokens =>
          obtain ⟨keeps, nested⟩ := nests true (token :: tokens)
          refine ⟨Trace.depthAfter_rule keeps, fun ended f total depth => ?_⟩
          have inside : (body true (token :: tokens)).outcome ≠ .beyond := ended
          show Trace.Nested depth (Trace.lines f total depth (.entered rule token ::
            (body true (token :: tokens)).events ++ [.left rule (body true (token :: tokens)).outcome]))
          rw [Trace.lines_rule keeps inside]
          exact .rule (nested inside f total (depth + 1))

theorem closed : Compositional Nests where
  pure _ _ _ := silent rfl
  bind := bind
  attempt := attempt
  fail _ _ := silent rfl
  beyond _ _ := silent rfl
  stop _ _ := ⟨fun _ => rfl, fun _ _ _ _ => .stopped⟩
  advance _ tokens := by cases tokens <;> exact silent rfl
  peekThen _ each := peek.bind each
  skipComments _ _ := silent rfl
  skipSeparators _ _ := silent rfl
  bounded each tracing tokens := each tokens.length tracing tokens
  traced _ := traced

theorem noteFinalDomain (domain : Text) : (Parser.noteFinalDomain domain).Nests :=
  fun _ _ => ⟨fun _ => rfl, fun _ _ _ _ => .nil⟩

end Nests

theorem nests (rule : Rule) : rule.parser.Nests := Nests.closed.all Nests.noteFinalDomain rule

/-- What a rule is made of nests as well. -/
theorem exists_nests (rule : Rule) : ∃ body, rule.parser = traced rule body ∧ body.Nests := by
  obtain ⟨body, eq, -, inside⟩ := Nests.closed.wraps Nests.noteFinalDomain rule
  exact ⟨body, eq, inside⟩

end Parser

end MailAddress
