import MailAddress.Text

/-!
# Quoting

A word of an address is a text of any kind.  Written down, it is an atom if it can be one, and a
quoted string otherwise: every symbol gets a backslash, and the whole stands between double quotes.
Reading it back takes the outer quotes off and lets every pair stand for its second character.
-/

namespace MailAddress

open Character

/-- A text that can stand as an atom: not empty, and of atom characters only. -/
def isAtom (text : Text) : Bool :=
  !text.isEmpty && text.all isAtomChar

/-- A character as it is written between double quotes. -/
def escapeSymbol (c : Char) : Text :=
  if isSymbol c then ['\\', c] else [c]

/-- A text as a word: itself if it can be an atom, else a quoted string. -/
def quote (text : Text) : Text :=
  if isAtom text then text else '"' :: text.flatMap escapeSymbol ++ ['"']

/-- A text without its outer double quotes, if it has both. -/
def stripQuotes (text : Text) : Text :=
  if 2 ≤ text.length ∧ text.head? = some '"' ∧ text.getLast? = some '"' then
    text.tail.dropLast
  else text

/-- Every pair replaced by its second character.  A backslash at the very end stands for itself. -/
def resolvePairs : Text → Text
  | '\\' :: c :: rest => c :: resolvePairs rest
  | c :: rest => c :: resolvePairs rest
  | [] => []

/-- The text that a word stands for. -/
def unquote (text : Text) : Text :=
  resolvePairs (stripQuotes text)

/-! ## Quoting is undone by unquoting -/

theorem resolvePairs_pair (c : Char) (rest : Text) :
    resolvePairs ('\\' :: c :: rest) = c :: resolvePairs rest := by
  simp [resolvePairs]

/-- A character that is no backslash stands for itself. -/
theorem resolvePairs_cons {c : Char} (h : c ≠ '\\') (rest : Text) :
    resolvePairs (c :: rest) = c :: resolvePairs rest := by
  cases rest <;> simp_all [resolvePairs]

theorem resolvePairs_flatMap_escapeSymbol (text : Text) :
    resolvePairs (text.flatMap escapeSymbol) = text := by
  induction text with
  | nil => rfl
  | cons c rest ih =>
    by_cases h : isSymbol c = true
    · simp [escapeSymbol, h, resolvePairs_pair, ih]
    · have hc : c ≠ '\\' := by rintro rfl; exact h rfl
      simp [escapeSymbol, h, resolvePairs_cons hc, ih]

/-- A text without backslashes holds no pair. -/
theorem resolvePairs_of_all_isAtomChar {text : Text} (h : text.all isAtomChar = true) :
    resolvePairs text = text := by
  induction text with
  | nil => rfl
  | cons c rest ih =>
    simp only [List.all_cons, Bool.and_eq_true] at h
    have hc : c ≠ '\\' := by rintro rfl; exact absurd h.1 (by decide)
    rw [resolvePairs_cons hc, ih h.2]

theorem stripQuotes_quoted (text : Text) : stripQuotes ('"' :: text ++ ['"']) = text := by
  have last : ('"' :: (text ++ ['"'])).getLast? = some '"' := by
    rw [← List.cons_append, List.getLast?_concat]
  simp [stripQuotes, last]

/-- An atom starts with no quote, so nothing is taken off it. -/
theorem stripQuotes_of_isAtom {text : Text} (h : isAtom text = true) : stripQuotes text = text := by
  cases text with
  | nil => rfl
  | cons c rest =>
    simp only [isAtom, List.all_cons, Bool.and_eq_true] at h
    have hc : c ≠ '"' := by rintro rfl; exact absurd h.2.1 (by decide)
    simp [stripQuotes, hc]

example : quote "John Doe".toList = "\"John Doe\"".toList := by decide

example : unquote "\"a\\\"b".toList = "\"a\"b".toList := by decide

end MailAddress
