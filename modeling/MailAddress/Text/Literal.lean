import MailAddress.Text.Printable

/-!
# Literals

The *literal* of a text shows it between quotes on one line of printable characters, so that a
message can quote any input.

* The quotes are single, unless the text holds a single quote and no double quote.
* A backslash is written twice, and a single quote that is the delimiter gets a backslash.
* The tab, the line feed and the carriage return are `\t`, `\n` and `\r`.
* Any other character that is not printable is `\x`, `\u` or `\U` and its number in two, four or
  eight hexadecimal digits, whichever is the first that holds it.
-/

namespace MailAddress.Text

/-- The hexadecimal digit of a number below sixteen, in lower case. -/
def hexDigit (n : Nat) : Char :=
  if n < 10 then Char.ofNat ('0'.toNat + n) else Char.ofNat ('a'.toNat + (n - 10))

/-- The last `width` hexadecimal digits of a number. -/
def hexDigits : Nat → Nat → Text
  | 0, _ => []
  | width + 1, n => hexDigits width (n / 16) ++ [hexDigit (n % 16)]

/-- The number of a character behind a backslash, as short as its size allows. -/
def numberEscape (c : Char) : Text :=
  if c.toNat < 0x100 then '\\' :: 'x' :: hexDigits 2 c.toNat
  else if c.toNat < 0x10000 then '\\' :: 'u' :: hexDigits 4 c.toNat
  else '\\' :: 'U' :: hexDigits 8 c.toNat

/-- A character as a literal with the given delimiter shows it. -/
def escapeChar (delimiter c : Char) : Text :=
  if c = delimiter ∨ c = '\\' then ['\\', c]
  else if c = '\t' then ['\\', 't']
  else if c = '\n' then ['\\', 'n']
  else if c = '\r' then ['\\', 'r']
  else if isPrintable c then [c]
  else numberEscape c

/-- The quote that delimits the literal of a text. -/
def delimiter (text : Text) : Char :=
  if text.contains '\'' && !text.contains '"' then '"' else '\''

/-- The literal of a text: its characters, escaped, between quotes. -/
def literal (text : Text) : Text :=
  delimiter text :: text.flatMap (escapeChar (delimiter text)) ++ [delimiter text]

example : literal "it's".toList = "\"it's\"".toList := by decide +kernel

example : literal "'\"\\\n".toList = "'\\'\"\\\\\\n'".toList := by decide +kernel

example : literal "\x00é\u200b".toList = "'\\x00é\\u200b'".toList := by decide +kernel

end MailAddress.Text
