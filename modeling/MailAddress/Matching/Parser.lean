import MailAddress.Matching.Rule

/-!
# Parsers over tokens

A parser looks at the tokens from some position on.  It matches some of them and returns a value and
the tokens that follow, or it fails.  It may also read *beyond* the last token.  That is an outcome
of its own, which no alternative recovers from.

A run also lists *events*, in order: the final domain of every address specification that was
matched, kept or not, and the place at which a field stopped to be a list of addresses.  If tracing
is on, it also lists every rule that was entered and left.

A parser that fails moves nobody: `attempt` goes on at the tokens where the failed parser started,
and keeps its events.
-/

namespace MailAddress

/-- How a parser ends. -/
inductive Outcome (α : Type) where
  /-- A token after the last one was asked for. -/
  | beyond
  /-- The tokens are not of the wanted form. -/
  | failed
  /-- A value was read, and these tokens follow. -/
  | matched (value : α) (rest : List Token)
deriving Repr

/-- What happens while a parser runs. -/
inductive Event where
  /-- A rule begins, with this token next. -/
  | entered (rule : Rule) (token : Token)
  /-- A rule ends. -/
  | left (rule : Rule) (outcome : Outcome rule.Result)
  /-- An address specification with this final domain is matched. -/
  | finalDomain (domain : Text)
  /-- A field stops to be a list of addresses at the first of these tokens. -/
  | stopped (rest : List Token)

/-- An outcome and the events on the way to it. -/
structure Run (α : Type) where
  /-- How the parser ended. -/
  outcome : Outcome α
  /-- What happened, oldest first. -/
  events : List Event

/-- A parser, which may trace its rules. -/
def Parser (α : Type) : Type := (tracing : Bool) → List Token → Run α

namespace Run

variable {α β : Type}

/-- A run continued with the value it matched and the tokens that follow. -/
def andThen (run : Run α) (next : α → List Token → Run β) : Run β :=
  match run.outcome with
  | .beyond => ⟨.beyond, run.events⟩
  | .failed => ⟨.failed, run.events⟩
  | .matched value rest =>
      let second := next value rest
      ⟨second.outcome, run.events ++ second.events⟩

end Run

namespace Parser

variable {α β : Type}

/-- One parser after the other.  The second starts where the first ends. -/
instance : Monad Parser where
  pure value := fun _ tokens => ⟨.matched value tokens, []⟩
  bind first next := fun tracing tokens =>
    (first tracing tokens).andThen fun value rest => next value tracing rest

/-! ## Single tokens -/

/-- No match. -/
def fail : Parser α := fun _ _ => ⟨.failed, []⟩

/-- A look beyond the last token. -/
def beyond : Parser α := fun _ _ => ⟨.beyond, []⟩

/-- The next token, which stays. -/
def peek : Parser Token := fun _ tokens =>
  match tokens with
  | [] => ⟨.beyond, []⟩
  | token :: rest => ⟨.matched token (token :: rest), []⟩

/-- A step over the next token. -/
def advance : Parser Unit := fun _ tokens =>
  match tokens with
  | [] => ⟨.beyond, []⟩
  | _ :: rest => ⟨.matched () rest, []⟩

/-- Whether the next token is of a kind. -/
def nextIs (kind : Kind) : Parser Bool := do
  return (← peek).kind == kind

/-- A step over a token of a kind. -/
def expect (kind : Kind) : Parser Unit := do
  if ← nextIs kind then advance else fail

/-! ## Comments and separators -/

/-- The comments at the start of some tokens, and the tokens after them. -/
def leadingComments : List Token → Outcome (List Text)
  | [] => .beyond
  | token :: rest =>
      if token.kind = .comment then
        match leadingComments rest with
        | .matched comments rest => .matched (token.text :: comments) rest
        | outcome => outcome
      else .matched [] (token :: rest)

/-- The comments among the comments and commas at the start of some tokens, and the tokens after
them. -/
def leadingSeparators : List Token → Outcome (List Text)
  | [] => .beyond
  | token :: rest =>
      if token.kind = .comment then
        match leadingSeparators rest with
        | .matched comments rest => .matched (token.text :: comments) rest
        | outcome => outcome
      else if token.kind = .comma then leadingSeparators rest
      else .matched [] (token :: rest)

/-- Any number of comments. -/
def skipComments : Parser (List Text) := fun _ tokens => ⟨leadingComments tokens, []⟩

/-- Any number of comments and commas. -/
def skipSeparators : Parser (List Text) := fun _ tokens => ⟨leadingSeparators tokens, []⟩

/-! ## Alternatives and events -/

/-- A parser that may fail.  If it does, nothing is consumed. -/
def attempt (parser : Parser α) : Parser (Option α) := fun tracing tokens =>
  let run := parser tracing tokens
  match run.outcome with
  | .beyond => ⟨.beyond, run.events⟩
  | .failed => ⟨.matched none tokens, run.events⟩
  | .matched value rest => ⟨.matched (some value) rest, run.events⟩

/-- A parser whose failure makes way for another, from the same tokens. -/
def orElse (first second : Parser α) : Parser α := do
  match ← attempt first with
  | some value => return value
  | none => second

/-- A note that an address specification with this final domain is matched. -/
def noteFinalDomain (domain : Text) : Parser Unit := fun _ tokens =>
  ⟨.matched () tokens, [.finalDomain domain]⟩

/-- A failure, with a note that a field stops here to be a list of addresses. -/
def stop : Parser α := fun _ tokens => ⟨.failed, [.stopped tokens]⟩

/-- A rule.  If tracing is on, the next token is read first, and the run of the rule stands between
two events. -/
def traced (rule : Rule) (body : Parser rule.Result) : Parser rule.Result
  | false, tokens => body false tokens
  | true, [] => ⟨.beyond, []⟩
  | true, token :: rest =>
      let run := body true (token :: rest)
      ⟨run.outcome, .entered rule token :: run.events ++ [.left rule run.outcome]⟩

/-! ## Repetition

Each repetition consumes a token or more, so the number of tokens bounds it.  Without tokens the
next thing to look at lies beyond the last. -/

/-- At most `bound` items, each after a separator, with comments between them.  An item that fails
ends the repetition before its separator. -/
def followersWithin (separator : Kind) (item : Parser (Commented α)) :
    (bound : Nat) → Parser (Commented (List α))
  | 0 => beyond
  | bound + 1 => do
      let before ← skipComments
      if ← nextIs separator then
        match ← attempt (do advance; item) with
        | none => return ⟨[], before⟩
        | some found =>
            let others ← followersWithin separator item bound
            return ⟨found.body :: others.body, before ++ found.comments ++ others.comments⟩
      else return ⟨[], before⟩

/-- Any number of items, each after a separator, with comments between and behind them. -/
def followers (separator : Kind) (item : Parser (Commented α)) : Parser (Commented (List α)) :=
  fun tracing tokens => followersWithin separator item tokens.length tracing tokens

/-- An item, and more of its kind, each after a separator. -/
def separated (separator : Kind) (item : Parser (Commented α)) : Parser (Commented (List α)) := do
  let first ← item
  let others ← followers separator item
  return ⟨first.body :: others.body, first.comments ++ others.comments⟩

/-- At most `bound` items, each after a separator, with nothing between them.  After a separator the
item must succeed. -/
def hopsWithin (separator : Kind) (item : Parser (Commented α)) :
    (bound : Nat) → Parser (Commented (List α))
  | 0 => beyond
  | bound + 1 => do
      if ← nextIs separator then
        advance
        let found ← item
        let others ← hopsWithin separator item bound
        return ⟨found.body :: others.body, found.comments ++ others.comments⟩
      else return ⟨[], []⟩

/-- Any number of items, each after a separator, with nothing between them. -/
def hops (separator : Kind) (item : Parser (Commented α)) : Parser (Commented (List α)) :=
  fun tracing tokens => hopsWithin separator item tokens.length tracing tokens

/-- At most `bound` items. -/
def repeatedWithin (item : Parser (Commented α)) : (bound : Nat) → Parser (Commented (List α))
  | 0 => beyond
  | bound + 1 => do
      match ← attempt item with
      | none => return ⟨[], []⟩
      | some found =>
          let others ← repeatedWithin item bound
          return ⟨found.body :: others.body, found.comments ++ others.comments⟩

/-- Any number of items. -/
def repeated (item : Parser (Commented α)) : Parser (Commented (List α)) :=
  fun tracing tokens => repeatedWithin item tokens.length tracing tokens

/-- A list that starts with a given member and has at most `bound` others, with any separators
between and behind them.  Nothing is tried at the end of the text. -/
def membersWithin (member : Parser α) : (bound : Nat) → α → Parser (List (Commented α))
  | 0, _ => beyond
  | bound + 1, first => do
      let after ← skipSeparators
      if ← nextIs .endOfText then return [⟨first, after⟩]
      else
        match ← attempt member with
        | none => return [⟨first, after⟩]
        | some second =>
            let others ← membersWithin member bound second
            return ⟨first, after⟩ :: others

/-- A list of one member or more, with any separators between and behind them. -/
def members (member : Parser α) : Parser (List (Commented α)) := do
  let first ← member
  fun tracing tokens => membersWithin member tokens.length first tracing tokens

end Parser

end MailAddress
