/-!
# Texts and character classes

A *text* is a list of characters.  Every offset, length and column of this library counts
characters, so the rest of a text from offset `i` is `text.drop i`.

The lexical grammar of an address field is built from six classes of characters.

* *Spaces* separate lexemes: the blank and the five controls from the tab to the carriage return.
* *Symbols* have a meaning of their own and never stand in an atom.
* *Controls* are the characters below the blank, and delete.
* *Atom characters* are all others.  Every character outside ASCII is one.
* *Quoted text* and *domain text* are what stands unescaped in a quoted string and in a domain
  literal.  A line feed is in neither.

A backslash followed by any character at all is a *pair*, which stands for that character.
-/

namespace MailAddress

/-- A text, character by character. -/
abbrev Text := List Char

namespace Character

/-- A blank, or one of the five white controls from the tab to the carriage return. -/
def isSpace (c : Char) : Bool :=
  [' ', '\t', '\n', '\r', '\x0b', '\x0c'].contains c

/-- A character that the grammar of a field gives a meaning of its own. -/
def isSymbol (c : Char) : Bool :=
  ['(', ')', '<', '>', '[', ']', '@', ',', ';', ':', '\\', '.', '"'].contains c

/-- A control character of ASCII. -/
def isControl (c : Char) : Bool :=
  decide (c.toNat ≤ 31) || c.toNat == 127

/-- A character an atom may hold. -/
def isAtomChar (c : Char) : Bool :=
  !(isSpace c || isSymbol c || isControl c)

/-- A character that stands for itself between double quotes. -/
def isQuotedText (c : Char) : Bool :=
  !(['"', '\\', '\n'].contains c)

/-- A character that stands for itself between square brackets. -/
def isDomainText (c : Char) : Bool :=
  !(['[', ']', '\\', '\n'].contains c)

/-- The letters of the classes that hold a character, in a fixed order. -/
def classes (c : Char) : Text :=
  [(isSpace, 's'), (isSymbol, 'y'), (isControl, 'c'), (isAtomChar, 'a'), (isQuotedText, 'q'),
    (isDomainText, 'd')].filterMap fun (holds, letter) => if holds c then some letter else none

end Character

namespace Text

/-- A text starts with a pair if a backslash comes first and something follows it. -/
def startsPair : Text → Bool
  | '\\' :: _ :: _ => true
  | _ => false

/-- The offsets at which a pair stands, each judged on its own. -/
def pairOffsets (text : Text) : List Nat :=
  (List.range (text.length + 1)).filter fun i => startsPair (text.drop i)

end Text

/-! ## The classes exclude each other -/

namespace Character

theorem isSpace_of_isAtomChar {c : Char} (h : isAtomChar c = true) : isSpace c = false := by
  simp_all [isAtomChar]

theorem isSymbol_of_isAtomChar {c : Char} (h : isAtomChar c = true) : isSymbol c = false := by
  simp_all [isAtomChar]

/-- No symbol is a space. -/
theorem isSpace_of_isSymbol {c : Char} (h : isSymbol c = true) : isSpace c = false := by
  simp only [isSymbol, List.contains_eq_mem, decide_eq_true_eq] at h
  simp only [List.mem_cons, List.not_mem_nil, or_false] at h
  rcases h with h | h | h | h | h | h | h | h | h | h | h | h | h <;> subst h <;> decide

example : "a (\t\\".toList.map classes = ["aqd", "sqd", "yqd", "scqd", "y"].map String.toList := by
  decide

end Character

example : Text.pairOffsets "\\\\a\\".toList = [0, 1] := by decide

end MailAddress
