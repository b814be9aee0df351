import MailAddress.Proofs.Matching.Completeness
import MailAddress.Proofs.Matching.Compositional

/-!
# Where tokens stand does not matter

A parser looks at the kinds and the texts of tokens, and never at their spans.  So if each token is
replaced by one of the same kind and text, the parser ends as before, and where it matches, what
follows is replaced in the same way.
-/

namespace MailAddress

/-- Each token is replaced by one of its kind and text. -/
def KeepsContent (g : Token → Token) : Prop :=
  ∀ token, (g token).kind = token.kind ∧ (g token).text = token.text

namespace Outcome

/-- The outcome with the tokens that follow replaced. -/
def mapRest {α : Type} (g : Token → Token) : Outcome α → Outcome α
  | .beyond => .beyond
  | .failed => .failed
  | .matched value rest => .matched value (rest.map g)

end Outcome

namespace Run

variable {α β : Type}

theorem outcome_andThen (run : Run α) (next : α → List Token → Run β) :
    (run.andThen next).outcome =
      match run.outcome with
      | .beyond => .beyond
      | .failed => .failed
      | .matched value rest => (next value rest).outcome := by
  unfold andThen
  cases run.outcome <;> rfl

end Run

namespace Parser

variable {α β : Type} {parser : Parser α}

theorem outcome_attempt (parser : Parser α) (tracing : Bool) (tokens : List Token) :
    (parser.attempt tracing tokens).outcome =
      match (parser tracing tokens).outcome with
      | .beyond => .beyond
      | .failed => .matched none tokens
      | .matched value rest => .matched (some value) rest := by
  unfold attempt
  dsimp only
  cases (parser tracing tokens).outcome <;> rfl

/-- With the spans of its tokens replaced, this parser ends in the same way. -/
def IgnoresSpans (parser : Parser α) : Prop :=
  ∀ g, KeepsContent g → ∀ tokens,
    (parser false (tokens.map g)).outcome = (parser false tokens).outcome.mapRest g

namespace IgnoresSpans

theorem bind {onward : α → Parser β} (first : parser.IgnoresSpans)
    (second : ∀ value, (onward value).IgnoresSpans) : (parser >>= onward).IgnoresSpans := by
  intro g keeps tokens
  rw [run_bind, run_bind, Run.outcome_andThen, Run.outcome_andThen, first g keeps tokens]
  cases (parser false tokens).outcome with
  | beyond => rfl
  | failed => rfl
  | matched value rest => exact second value g keeps rest

theorem attempt (ignores : parser.IgnoresSpans) : parser.attempt.IgnoresSpans := by
  intro g keeps tokens
  rw [outcome_attempt, outcome_attempt, ignores g keeps tokens]
  cases (parser false tokens).outcome <;> rfl

/-- A parser that goes on by the kind and the text of the next token. -/
theorem peekThen {next : Token → Parser α} (same : GoesByContent next)
    (ignores : ∀ token, (next token).IgnoresSpans) : (peek >>= next).IgnoresSpans := by
  intro g keeps tokens
  cases tokens with
  | nil => rfl
  | cons token tokens =>
      have step := ignores token g keeps (token :: tokens)
      simpa [same (g token) token (keeps token).1 (keeps token).2] using step

theorem skipComments : Parser.skipComments.IgnoresSpans := by
  intro g keeps tokens
  change leadingComments (tokens.map g) = (leadingComments tokens).mapRest g
  induction tokens with
  | nil => rfl
  | cons token tokens ih =>
      obtain ⟨kind, text⟩ := keeps token
      rw [List.map_cons, leadingComments, leadingComments, kind, text, ih]
      split
      next => cases leadingComments tokens <;> rfl
      next => rfl

theorem skipSeparators : Parser.skipSeparators.IgnoresSpans := by
  intro g keeps tokens
  change leadingSeparators (tokens.map g) = (leadingSeparators tokens).mapRest g
  induction tokens with
  | nil => rfl
  | cons token tokens ih =>
      obtain ⟨kind, text⟩ := keeps token
      rw [List.map_cons, leadingSeparators, leadingSeparators, kind, text, ih]
      split
      next => cases leadingSeparators tokens <;> rfl
      next =>
        split
        next => rfl
        next => rfl

/-- A repetition that the number of tokens bounds. -/
theorem bounded {within : Nat → Parser α} (ignores : ∀ bound, (within bound).IgnoresSpans) :
    IgnoresSpans fun tracing tokens => within tokens.length tracing tokens := by
  intro g keeps tokens
  change (within (tokens.map g).length false (tokens.map g)).outcome = _
  rw [List.length_map]
  exact ignores tokens.length g keeps tokens

theorem closed : Compositional IgnoresSpans where
  pure _ _ _ _ := rfl
  bind := bind
  attempt := attempt
  fail _ _ _ := rfl
  beyond _ _ _ := rfl
  stop _ _ _ := rfl
  advance _ _ tokens := by cases tokens <;> rfl
  peekThen := peekThen
  skipComments := skipComments
  skipSeparators := skipSeparators
  bounded := bounded
  traced _ ignores := ignores

theorem members_address : (Parser.members Parser.address).IgnoresSpans :=
  closed.members (closed.address (closed.addrSpec fun _ _ _ _ => rfl))

end IgnoresSpans

end Parser

end MailAddress
