import MailAddress.Toml.Value

/-!
# Reading keys and values

The configuration format TOML.  A reader takes what it wants from the start of a text.  It fails if
the text does not start with what it wants, and says no more.

* A *key* is one part or more with periods between them.  A part is bare, of letters, digits,
  hyphens and underscores, or a string on one line.
* A *string* stands between double quotes, with escapes, or between single quotes, without.  Three
  quotes on either side make it run over lines.  A line end right after the opening quotes is
  dropped, and one or two quotes right before the closing ones belong to the string.
* An *integer* is decimal with an optional sign, or has a base mark and no sign.  Single underscores
  may stand between digits.  A decimal one is not read if it is very long.
* A *floating-point number* is a decimal integer with a fraction, an exponent or both.  `inf` and `nan`
  with an optional sign are such numbers too.
* A *date* is of the form `1979-05-27`, a *time of day* of the form `07:32:00`, maybe with a fraction of
  which six digits count.  A time may follow a date behind a `T` or a blank, and its offset the time: `Z`
  for none, or hours and minutes with a sign.
* An *array* may run over lines, hold comments and end in a comma.  An *inline table* may not.

No control character may stand in a comment or a string, except the tab, and in a string over lines
the line feed.  A line ends with a line feed or with a carriage return and a line feed.
-/

namespace MailAddress.Toml

/-- A reader of a text. -/
abbrev Reader := StateT Text Option

namespace Reader

/-! ## Characters -/

/-- A blank within a line. -/
def isBlank (c : Char) : Bool := c == ' ' || c == '\t'

/-- A control character that may stand nowhere within a line. -/
def isForbidden (c : Char) : Bool :=
  decide (c.toNat < 32) && c != '\t' || c.toNat == 127

/-- A character that may not stand in a string. -/
def isForbiddenInString (overLines : Bool) (c : Char) : Bool :=
  isForbidden c && !(overLines && c == '\n')

/-- A character of a bare key. -/
def isBareKeyChar (c : Char) : Bool := c.isAlphanum || c == '-' || c == '_'

/-- The number that a hexadecimal digit of either case stands for. -/
def hexValue (c : Char) : Nat :=
  if c.isDigit then c.toNat - '0'.toNat
  else if c.isLower then c.toNat - 'a'.toNat + 10
  else c.toNat - 'A'.toNat + 10

/-- A digit in a base up to sixteen. -/
def isDigitOf (base : Nat) (c : Char) : Bool :=
  let isHex := c.isDigit || ('a' ≤ c && c ≤ 'f') || ('A' ≤ c && c ≤ 'F')
  isHex && decide (hexValue c < base)

/-- The number that digits stand for. -/
def ofDigits (base : Nat) (digits : Text) : Nat :=
  digits.foldl (fun n c => base * n + hexValue c) 0

/-! ## Basic readers -/

/-- The next character, which stays. -/
def peek? : Reader (Option Char) := return (← get).head?

/-- Drops the characters of a class. -/
def skipWhile (isSkipped : Char → Bool) : Reader Unit := modify (List.dropWhile isSkipped)

/-- Takes a word if the text starts with it. -/
def accept (word : Text) : Reader Bool := do
  if word.isPrefixOf (← get) then
    modify (List.drop word.length)
    return true
  else return false

/-- Takes a word the text must start with. -/
def expect (word : Text) : Reader Unit := do
  if ← accept word then return () else failure

/-- Takes one of some characters. -/
def expectOneOf (allowed : Text) : Reader Char := do
  match ← get with
  | [] => failure
  | c :: rest =>
      if allowed.contains c then
        set rest
        return c
      else failure

/-- What a reader finds, or nothing, and then the text stays. -/
def attempt {α : Type} (reader : Reader α) : Reader (Option α) := fun text =>
  match reader text with
  | some (found, rest) => some (some found, rest)
  | none => some (none, text)

/-! ## Comments and line ends -/

/-- The text after a comment, if there is one, up to its line feed. -/
def skipComment : Reader Unit := do
  if ← accept ['#'] then
    let comment := (← get).takeWhile (· != '\n')
    if comment.any isForbidden then failure else modify (List.drop comment.length)

/-- The text after blanks, line feeds and comments, starting within a comment or not. -/
def afterFiller : (inComment : Bool) → Text → Option Text
  | _, [] => some []
  | false, c :: rest =>
      if isBlank c || c == '\n' then afterFiller false rest
      else if c == '#' then afterFiller true rest
      else some (c :: rest)
  | true, c :: rest =>
      if c == '\n' then afterFiller false rest
      else if isForbidden c then none
      else afterFiller true rest

/-- Drops blanks, line feeds and comments. -/
def skipFiller : Reader Unit := do
  match afterFiller false (← get) with
  | some rest => set rest
  | none => failure

/-! ## Strings -/

/-- A character given by a number of hexadecimal digits.  Only numbers of characters are allowed. -/
def hexEscape (digits : Nat) : Reader Text := do
  let number := (← get).take digits
  let n := ofDigits 16 number
  if number.length = digits ∧ number.all (isDigitOf 16) ∧ n.isValidChar then
    modify (List.drop digits)
    return [Char.ofNat n]
  else failure

/-- The end of a line after a backslash, with all blanks and line feeds that follow. -/
def lineContinuation : Reader Text := do
  skipWhile isBlank
  match ← get with
  | [] => return []
  | '\n' :: rest =>
      set (rest.dropWhile fun c => isBlank c || c == '\n')
      return []
  | _ => failure

/-- What an escape stands for, after its backslash. -/
def escape (overLines : Bool) : Reader Text := do
  match ← get with
  | [] => failure
  | c :: rest =>
      if overLines && (isBlank c || c == '\n') then lineContinuation
      else
        set rest
        match c with
        | 'b' => return ['\x08']
        | 't' => return ['\t']
        | 'n' => return ['\n']
        | 'f' => return ['\x0c']
        | 'r' => return ['\r']
        | '"' => return ['"']
        | '\\' => return ['\\']
        | 'u' => hexEscape 4
        | 'U' => hexEscape 8
        | _ => failure

/-- The rest of a string with escapes, of at most `bound` steps, and its closing quotes. -/
def escapedWithin (overLines : Bool) : (bound : Nat) → Reader Text
  | 0 => failure
  | bound + 1 => do
      match ← get with
      | [] => failure
      | '"' :: rest =>
          if !overLines then
            set rest
            return []
          else if ['"', '"'].isPrefixOf rest then
            set (rest.drop 2)
            return []
          else
            set rest
            return '"' :: (← escapedWithin overLines bound)
      | '\\' :: rest =>
          set rest
          return (← escape overLines) ++ (← escapedWithin overLines bound)
      | c :: rest =>
          if isForbiddenInString overLines c then failure
          else
            set rest
            return c :: (← escapedWithin overLines bound)

/-- The rest of a string with escapes, and its closing quotes. -/
def escaped (overLines : Bool) : Reader Text := do
  escapedWithin overLines (← get).length

/-- The text before the first occurrence of a mark, and the text after it. -/
def splitAtMark (mark : Text) : Text → Option (Text × Text)
  | [] => none
  | c :: rest =>
      if mark.isPrefixOf (c :: rest) then some ([], (c :: rest).drop mark.length)
      else (splitAtMark mark rest).map fun (before, behind) => (c :: before, behind)

/-- The rest of a string without escapes, up to the closing mark. -/
def verbatim (overLines : Bool) (mark : Text) : Reader Text := do
  match splitAtMark mark (← get) with
  | some (text, rest) =>
      if text.any (isForbiddenInString overLines) then failure
      else
        set rest
        return text
  | none => failure

/-- Quotes that belong to a string although they follow its closing ones, two at most. -/
def extraQuotes (quote : Char) : Reader Text := do
  if ← accept [quote, quote] then return [quote, quote]
  else if ← accept [quote] then return [quote]
  else return []

/-- A string on one line. -/
def lineString : Reader Text := do
  if ← accept ['\''] then verbatim false ['\'']
  else
    expect ['"']
    escaped false

/-- A string over lines, if three quotes come first, or on one line. -/
def string : Reader Text := do
  if ← accept ['"', '"', '"'] then
    let _ ← accept ['\n']
    let text ← escaped true
    return text ++ (← extraQuotes '"')
  else if ← accept ['\'', '\'', '\''] then
    let _ ← accept ['\n']
    let text ← verbatim true ['\'', '\'', '\'']
    return text ++ (← extraQuotes '\'')
  else lineString

/-! ## Keys -/

/-- A part of a key. -/
def keyPart : Reader Text := do
  let text ← get
  let bare := text.takeWhile isBareKeyChar
  if bare.isEmpty then lineString
  else
    set (text.drop bare.length)
    return bare

/-- The parts of a key, at most `bound`, and the blanks behind each. -/
def keyWithin : (bound : Nat) → Reader Path
  | 0 => failure
  | bound + 1 => do
      let part ← keyPart
      skipWhile isBlank
      if ← accept ['.'] then
        skipWhile isBlank
        return part :: (← keyWithin bound)
      else return [part]

/-- A key and the blanks behind it. -/
def key : Reader Path := do
  keyWithin ((← get).length + 1)

/-! ## Numbers -/

/-- Digits, with single underscores between them, and the rest. -/
def moreDigits (base : Nat) : Text → Text × Text
  | '_' :: c :: rest =>
      if isDigitOf base c then
        let (digits, rest) := moreDigits base rest
        (c :: digits, rest)
      else ([], '_' :: c :: rest)
  | c :: rest =>
      if isDigitOf base c then
        let (digits, rest) := moreDigits base rest
        (c :: digits, rest)
      else ([], c :: rest)
  | [] => ([], [])

/-- Digits in some base, one at least. -/
def digits (base : Nat) : Reader Text := do
  match ← get with
  | c :: rest =>
      if isDigitOf base c then
        let (digits, rest) := moreDigits base rest
        set rest
        return c :: digits
      else failure
  | [] => failure

/-- A number in some base. -/
def natural (base : Nat) : Reader Nat := return ofDigits base (← digits base)

/-- Whether there is a minus.  A plus says that there is none. -/
def sign : Reader Bool := do
  if ← accept ['-'] then return true
  else
    let _ ← accept ['+']
    return false

/-- A number with its sign. -/
def signed (negative : Bool) (n : Nat) : Int := if negative then -n else n

/-- The digits of a decimal number.  One that starts with a zero is zero. -/
def decimalDigits : Reader Text := do
  if ← accept ['0'] then return ['0'] else digits 10

/-- The digits of a fraction, and the point in front of them. -/
def fraction : Reader Text := do
  expect ['.']
  digits 10

/-- An exponent, and its mark. -/
def exponent : Reader Int := do
  let _ ← expectOneOf ['e', 'E']
  let negative ← sign
  return signed negative (← natural 10)

/-- The number of digits that a decimal integer may have at most. -/
def integerWidth : Nat := 4300

/-- A decimal number.  With a fraction or an exponent it is a floating-point number. -/
def decimal (negative : Bool) : Reader Value := do
  let whole ← decimalDigits
  match ← attempt fraction, ← attempt exponent with
  | none, none =>
      if integerWidth < whole.length then failure
      else return .integer (signed negative (ofDigits 10 whole))
  | behind, power =>
      let behind := behind.getD []
      return .float (Decimal.read negative
        ⟨ofDigits 10 (whole ++ behind), power.getD 0 - behind.length⟩)

/-- A number. -/
def number : Reader Value := do
  if ← accept ['0', 'x'] then return .integer (← natural 16)
  else if ← accept ['0', 'o'] then return .integer (← natural 8)
  else if ← accept ['0', 'b'] then return .integer (← natural 2)
  else
    let negative ← sign
    if ← accept ['i', 'n', 'f'] then return .float (.infinite negative)
    else if ← accept ['n', 'a', 'n'] then return .float .nan
    else decimal negative

/-! ## Dates and times -/

/-- A number of just so many decimal digits. -/
def numberOfWidth (width : Nat) : Reader Nat := do
  let number := (← get).take width
  if number.length = width ∧ number.all Char.isDigit then
    modify (List.drop width)
    return ofDigits 10 number
  else failure

/-- A number of two digits below a bound. -/
def twoDigits (bound : Nat) : Reader (Fin bound) := do
  let n ← numberOfWidth 2
  if below : n < bound then return ⟨n, below⟩ else failure

/-- A date. -/
def date : Reader Date := do
  let year ← numberOfWidth 4
  expect ['-']
  let month ← numberOfWidth 2
  expect ['-']
  let day ← numberOfWidth 2
  if is_date : IsDate year month day then return ⟨year, month, day, is_date⟩ else failure

/-- Microseconds behind a point, if there is one.  Digits beyond the sixth do not count. -/
def microseconds : Reader (Fin 1000000) := do
  let digits ← attempt do
    expect ['.']
    let digits := (← get).takeWhile Char.isDigit
    modify (List.drop digits.length)
    if digits.isEmpty then failure else return digits
  let number := ofDigits 10 ((digits.getD [] ++ List.replicate 6 '0').take 6)
  if below : number < 1000000 then return ⟨number, below⟩ else failure

/-- A time of day. -/
def time : Reader Time := do
  let hour ← twoDigits 24
  expect [':']
  let minute ← twoDigits 60
  expect [':']
  let second ← twoDigits 60
  return ⟨hour, minute, second, ← microseconds⟩

/-- A time of day behind a date, and the mark between them. -/
def timeBehind : Reader Time := do
  let _ ← expectOneOf ['T', 't', ' ']
  time

/-- An offset from universal time. -/
def offset : Reader Offset := do
  let mark ← expectOneOf ['Z', 'z', '+', '-']
  if mark.toUpper == 'Z' then return .none
  else
    let hours ← twoDigits 24
    expect [':']
    return ⟨mark == '-', hours, ← twoDigits 60⟩

/-- A moment. -/
def moment : Reader Moment := do
  match ← attempt date with
  | none => return .time (← time)
  | some date =>
      match ← attempt timeBehind with
      | none => return .date date
      | some time => return .dateTime date time (← attempt offset)

/-! ## Values -/

/-- What an inline table holds so far, and the paths of the containers that are closed within it. -/
structure Inline where
  /-- The entries. -/
  table : Table := []
  /-- The paths whose values may no longer change. -/
  closed : List Path := []

/-- An inline table with one more entry. -/
def Inline.add (inline : Inline) (path : Path) (value : Value) : Option Inline := do
  if inline.closed.any fun other => other.isPrefixOf path then failure
  let name ← path.getLast?
  let table ← inline.table.changeAt false (fun table => table.insertNew name value) path.dropLast
  return { inline with table }

/-- An inline table whose entry at a path may change no more if it holds other values. -/
def Inline.close (inline : Inline) (path : Path) (value : Value) : Inline :=
  if value.isContainer then { inline with closed := path :: inline.closed } else inline

mutual

/-- A value, in at most `bound` steps. -/
def valueWithin : (bound : Nat) → Reader Value
  | 0 => failure
  | bound + 1 => do
      match ← peek? with
      | some '"' | some '\'' => return .string (← string)
      | some 't' =>
          expect "true".toList
          return .boolean true
      | some 'f' =>
          expect "false".toList
          return .boolean false
      | some '[' =>
          expect ['[']
          skipFiller
          if ← accept [']'] then return .array [] else return .array (← itemsWithin bound)
      | some '\x7b' =>
          expect ['\x7b']
          skipWhile isBlank
          if ← accept ['\x7d'] then return .table [] else return .table (← entriesWithin bound {})
      | _ =>
          -- A number never reads all of what looks like a moment and is none.
          match ← attempt moment with
          | some found => return .moment found
          | none => number

/-- The items of an array, at least one, and the closing bracket. -/
def itemsWithin : (bound : Nat) → Reader (List Value)
  | 0 => failure
  | bound + 1 => do
      let item ← valueWithin bound
      skipFiller
      if ← accept [']'] then return [item]
      else
        expect [',']
        skipFiller
        if ← accept [']'] then return [item] else return item :: (← itemsWithin bound)

/-- The entries of an inline table, at least one more, and the closing brace. -/
def entriesWithin : (bound : Nat) → Inline → Reader Table
  | 0, _ => failure
  | bound + 1, inline => do
      let path ← key
      expect ['=']
      skipWhile isBlank
      let value ← valueWithin bound
      let added ← (inline.add path value : Option Inline)
      skipWhile isBlank
      if ← accept ['\x7d'] then return added.table
      else
        expect [',']
        skipWhile isBlank
        entriesWithin bound (added.close path value)

end

/-- A value.  Each step of the reading takes a character, or hands the text on to a step that
does. -/
def value : Reader Value := do
  valueWithin (2 * (← get).length)

/-- A key, an equals sign and a value. -/
def entry : Reader (Path × Value) := do
  let path ← key
  expect ['=']
  skipWhile isBlank
  return (path, ← value)

end Reader

end MailAddress.Toml
