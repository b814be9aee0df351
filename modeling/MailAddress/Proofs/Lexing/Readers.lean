import MailAddress.Proofs.Lexing.Offsets

/-!
# Readers that start over

A reading depends on nothing but what stands behind the cursor.  It goes as a fresh reader goes with
that text alone, moved by the cursor.  What was read and what was at fault before has no say in it,
and neither has a cursor beyond the end.

A reading that succeeds leaves the cursor at the end or beyond it, so the next one finds nothing but
the end.
-/

namespace MailAddress

/-- A fault further behind. -/
def Fault.shift (count : Nat) (fault : Fault) : Fault :=
  { fault with span := fault.span.shift count }

namespace TokenReader

variable {reader after : TokenReader} {field : Text} {tokens : List Token} {stuck : Stuck}

/-- A fresh reader of a text. -/
def fresh (text : Text) : TokenReader := { source := text }

/-- What a reader has still to read. -/
def rest (reader : TokenReader) : Text := reader.source.drop reader.cursor

/-- What is done with a reader. -/
inductive Action where
  /-- It reads to the end. -/
  | read
  /-- It is moved to another place. -/
  | seek (offset : Nat)
deriving DecidableEq, Repr

/-- A reader with which something was done. -/
def perform (reader : TokenReader) : Action → TokenReader
  | .read => reader.read.1
  | .seek offset => reader.seek offset

/-- A reader with which several things were done in turn. -/
def performAll (reader : TokenReader) (actions : List Action) : TokenReader :=
  actions.foldl perform reader

/-! ## A reading by its scan -/

theorem read_of_ok (lexed : Token.scan reader.cursor reader.rest = .ok tokens) :
    reader.read =
      ({ reader with
          tokens := reader.tokens ++ tokens
          cursor := max reader.cursor reader.source.length },
        some (reader.tokens ++ tokens)) := by
  rw [rest] at lexed
  rw [read, lexed]

theorem read_of_error (lexed : Token.scan reader.cursor reader.rest = .error stuck) :
    reader.read =
      ({ reader with
          tokens := []
          cursor := stuck.cursor
          faults := reader.faults ++ [stuck.fault] },
        none) := by
  rw [rest] at lexed
  rw [read, lexed]

theorem read_fresh_of_ok (lexed : tokenize field = .ok tokens) :
    (fresh field).read = (⟨field, field.length, tokens, []⟩, some tokens) := by
  have scanned : Token.scan (fresh field).cursor (fresh field).rest = .ok tokens := lexed
  rw [read_of_ok scanned, fresh, Nat.zero_max]
  rfl

theorem read_fresh_of_error (lexed : tokenize field = .error stuck) :
    (fresh field).read = (⟨field, stuck.cursor, [], [stuck.fault]⟩, none) := by
  have scanned : Token.scan (fresh field).cursor (fresh field).rest = .error stuck := lexed
  exact read_of_error scanned

theorem read_fresh_eq_some_iff : (fresh field).read.2 = some tokens ↔ tokenize field = .ok tokens := by
  cases lexed : tokenize field with
  | error stuck => simp [read_fresh_of_error lexed]
  | ok others => simp [read_fresh_of_ok lexed]

theorem read_fresh_eq_none_iff :
    (fresh field).read.2 = none ↔ ∃ stuck, tokenize field = .error stuck := by
  cases lexed : tokenize field with
  | error stuck => simp [read_fresh_of_error lexed]
  | ok tokens => simp [read_fresh_of_ok lexed]

/-! ## What comes next -/

/-- What comes next is read as a fresh reader reads it. -/
theorem scan_rest (reader : TokenReader) :
    Token.scan reader.cursor reader.rest = shiftRead reader.cursor (tokenize reader.rest) := by
  have moved := Token.scan_shift reader.cursor 0 reader.rest
  rwa [Nat.zero_add] at moved

/-- If a fresh reader succeeds with the rest, its tokens are added. -/
theorem read_of_some (succeeds : (fresh reader.rest).read.2 = some tokens) :
    reader.read =
      ({ reader with
          tokens := reader.tokens ++ tokens.map (Token.shift reader.cursor)
          cursor := max reader.cursor reader.source.length },
        some (reader.tokens ++ tokens.map (Token.shift reader.cursor))) := by
  have lexed := reader.scan_rest
  rw [read_fresh_eq_some_iff.1 succeeds, shiftRead] at lexed
  exact read_of_ok lexed

/-- If a fresh reader gets stuck in the rest, the tokens are cleared and its fault is added. -/
theorem read_of_none (fails : (fresh reader.rest).read.2 = none) :
    ∃ fault, (fresh reader.rest).read.1.faults = [fault] ∧
      reader.read =
        ({ reader with
            tokens := []
            cursor := reader.cursor + (fresh reader.rest).read.1.cursor
            faults := reader.faults ++ [fault.shift reader.cursor] },
          none) := by
  obtain ⟨stuck, stays⟩ := read_fresh_eq_none_iff.1 fails
  have lexed := reader.scan_rest
  rw [stays, shiftRead] at lexed
  rw [read_fresh_of_error stays]
  refine ⟨stuck.fault, rfl, ?_⟩
  rw [read_of_error lexed, Stuck.fault_shift, Nat.add_comm reader.cursor]
  rfl

/-- A reading that succeeds leaves the reader with its tokens, at the end or beyond it. -/
theorem atEnd_of_read (succeeds : reader.read = (after, some tokens)) :
    after.tokens = tokens ∧ after.source.length ≤ after.cursor := by
  cases lexed : Token.scan reader.cursor reader.rest with
  | error stuck =>
      rw [read_of_error lexed] at succeeds
      cases succeeds
  | ok others =>
      rw [read_of_ok lexed] at succeeds
      cases succeeds
      exact ⟨rfl, Nat.le_max_right _ _⟩

/-- At the end and beyond it there is the token of the end only. -/
theorem read_of_le (beyond : reader.source.length ≤ reader.cursor) :
    reader.read =
      ({ reader with tokens := reader.tokens ++ [Token.finish reader.cursor] },
        some (reader.tokens ++ [Token.finish reader.cursor])) := by
  have lexed : Token.scan reader.cursor reader.rest = .ok [Token.finish reader.cursor] := by
    rw [rest, List.drop_eq_nil_of_le beyond]
    rfl
  rw [read_of_ok lexed, Nat.max_eq_left beyond]

/-- A reader goes on as a fresh reader of the rest would go, moved by its cursor, whatever it holds
and wherever it stands.  New tokens come behind those it holds, and a fault behind those met.
Whatever was done with a reader before, a reading behind one that succeeds adds the token of the end
and changes nothing else. -/
theorem read_startsOver (reader : TokenReader) (actions : List Action) :
    (∀ tokens, (fresh reader.rest).read.2 = some tokens →
      reader.read =
        ({ reader with
            tokens := reader.tokens ++ tokens.map (Token.shift reader.cursor)
            cursor := max reader.cursor reader.source.length },
          some (reader.tokens ++ tokens.map (Token.shift reader.cursor)))) ∧
    ((fresh reader.rest).read.2 = none →
      ∃ fault, (fresh reader.rest).read.1.faults = [fault] ∧
        reader.read =
          ({ reader with
              tokens := []
              cursor := reader.cursor + (fresh reader.rest).read.1.cursor
              faults := reader.faults ++ [fault.shift reader.cursor] },
            none)) ∧
    (∀ after tokens, (reader.performAll actions).read = (after, some tokens) →
      after.tokens = tokens ∧
        after.read =
          ({ after with tokens := tokens ++ [Token.finish after.cursor] },
            some (tokens ++ [Token.finish after.cursor]))) := by
  refine ⟨fun tokens => read_of_some, read_of_none, fun after tokens succeeds => ?_⟩
  obtain ⟨rfl, beyond⟩ := atEnd_of_read succeeds
  exact ⟨rfl, read_of_le beyond⟩

/-- Behind the first character of `a b`, the rest has tokens.  Behind that of `a "`, it gets stuck.
And behind a reading of `a`, there is the token of the end once more. -/
theorem read_startsOver_of_seek :
    (⟨"a b".toList, 1, [], []⟩ : TokenReader).read =
        (⟨"a b".toList, 3, [⟨.atom, ['b'], ⟨2, 3⟩⟩, .finish 3], []⟩,
          some [⟨.atom, ['b'], ⟨2, 3⟩⟩, .finish 3]) ∧
      (⟨"a \"".toList, 1, [.finish 0], []⟩ : TokenReader).read =
        (⟨"a \"".toList, 3, [], [⟨.unterminatedQuotedString, ⟨2, 3⟩⟩]⟩, none) ∧
      (⟨['a'], 1, [⟨.atom, ['a'], ⟨0, 1⟩⟩, .finish 1], []⟩ : TokenReader).read =
        (⟨['a'], 1, [⟨.atom, ['a'], ⟨0, 1⟩⟩, .finish 1, .finish 1], []⟩,
          some [⟨.atom, ['a'], ⟨0, 1⟩⟩, .finish 1, .finish 1]) := by
  refine ⟨(read_startsOver _ []).1 [⟨.atom, ['b'], ⟨1, 2⟩⟩, .finish 2] (by decide +kernel), ?_, ?_⟩
  · obtain ⟨fault, faults, read⟩ :=
      (read_startsOver ⟨"a \"".toList, 1, [.finish 0], []⟩ []).2.1 (by decide +kernel)
    have same : fault = ⟨.unterminatedQuotedString, ⟨1, 2⟩⟩ :=
      List.singleton_inj.1 (faults.symm.trans (by decide +kernel))
    rw [read, same]
    decide +kernel
  · have first : (performAll ⟨['a'], 7, [], []⟩ [.seek 0]).read =
        (⟨['a'], 1, [⟨.atom, ['a'], ⟨0, 1⟩⟩, .finish 1], []⟩,
          some [⟨.atom, ['a'], ⟨0, 1⟩⟩, .finish 1]) := by
      decide +kernel
    exact ((read_startsOver ⟨['a'], 7, [], []⟩ [.seek 0]).2.2 _ _ first).2

end TokenReader

end MailAddress
