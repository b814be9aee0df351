import MailAddress.Text

/-!
# Terminal colours

A colour is switched on and off by an *escape sequence*: the escape character, an opening bracket,
parameters, and a letter.  Parameters are digits, semicolons and question marks.

A stream that shows no colours gets a text without its escape sequences.  They are found from left
to right, and what remains is not searched again.  So a sequence that only arises from a deletion
stays.
-/

namespace MailAddress.Terminal

/-- The character that starts an escape sequence. -/
def escape : Char := '\x1b'

/-- The sequence that switches to bold red. -/
def boldRed : Text := escape :: "[1;31m".toList

/-- The sequence that switches to bold. -/
def bold : Text := escape :: "[1m".toList

/-- The sequence that switches to bold blue. -/
def boldBlue : Text := escape :: "[1;34m".toList

/-- The sequence that switches everything off. -/
def reset : Text := escape :: "[0m".toList

/-- A parameter character of an escape sequence. -/
def isParameter (c : Char) : Bool := c == ';' || c == '?' || c.isDigit

/-- The length of what ends an escape sequence, its parameters and its letter, at the start of a
text. -/
def tailLength : Text → Option Nat
  | [] => none
  | c :: rest =>
      if isParameter c then (tailLength rest).map (· + 1)
      else if c.isAlpha then some 1
      else none

/-- The length of an escape sequence at the start of a text. -/
def sequenceLength : Text → Option Nat
  | c :: '[' :: rest => if c = escape then (tailLength rest).map (· + 2) else none
  | _ => none

/-- A text without its escape sequences, its first `skip` characters being part of one. -/
def stripFrom : (skip : Nat) → Text → Text
  | _, [] => []
  | skip + 1, _ :: rest => stripFrom skip rest
  | 0, c :: rest =>
      match sequenceLength (c :: rest) with
      | some length => stripFrom (length - 1) rest
      | none => c :: stripFrom 0 rest

/-- A text without its escape sequences. -/
def strip (text : Text) : Text := stripFrom 0 text

/-- What a stream shows of a text, depending on whether it takes colours. -/
def shown (colored : Bool) (text : Text) : Text := if colored then text else strip text

/-! ## Stripping, character by character -/

@[simp] theorem strip_nil : strip [] = [] := rfl

/-- Where no sequence starts, the character stays. -/
theorem strip_cons_of_none {c : Char} {rest : Text} (h : sequenceLength (c :: rest) = none) :
    strip (c :: rest) = c :: strip rest := by
  simp [strip, stripFrom, h]

/-- Skipping characters is dropping them. -/
theorem stripFrom_eq_strip_drop (skip : Nat) (text : Text) :
    stripFrom skip text = strip (text.drop skip) := by
  induction skip generalizing text with
  | zero => rfl
  | succ skip ih =>
    cases text with
    | nil => rfl
    | cons c rest => exact ih rest

/-- Where a sequence starts, all of it goes. -/
theorem strip_of_some {text : Text} {length : Nat} (h : sequenceLength text = some length)
    (pos : 0 < length) : strip text = strip (text.drop length) := by
  cases text with
  | nil => simp [sequenceLength] at h
  | cons c rest =>
    obtain ⟨n, rfl⟩ := Nat.exists_eq_succ_of_ne_zero (Nat.ne_of_gt pos)
    rw [strip, stripFrom, h]
    exact stripFrom_eq_strip_drop n rest

example : strip (boldRed ++ "error".toList ++ reset) = "error".toList := by decide

example : strip "a\x1b[\x1b[1mb".toList = "a\x1b[b".toList := by decide

end MailAddress.Terminal
