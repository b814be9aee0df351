import MailAddress.Text.Literal
import MailAddress.Toml.Binary64
import MailAddress.Toml.Moment

/-!
# Values of a configuration

A configuration is a table: values under keys, in the order in which the keys were first set.  A
value is a string, an integer, a floating-point number, a boolean, a moment, an array or a table.

A value that is no string can still be put where a text is wanted.  It is then shown as it would be
written within an array, with its strings as literals.
-/

namespace MailAddress.Toml

/-- A value of a configuration. -/
inductive Value where
  /-- A string. -/
  | string (text : Text)
  /-- An integer of any size. -/
  | integer (n : Int)
  /-- A floating-point number. -/
  | float (x : Binary64)
  /-- A boolean. -/
  | boolean (b : Bool)
  /-- A date, a time of day or both. -/
  | moment (m : Moment)
  /-- An array. -/
  | array (items : List Value)
  /-- A table, by its keys and values. -/
  | table (entries : List (Text × Value))
deriving Repr, Inhabited

/-- Values under keys, in the order of the keys. -/
abbrev Table := List (Text × Value)

/-- The names of tables and values from the root down. -/
abbrev Path := List Text

/-! ## Values as texts -/

mutual

/-- A value as it is shown within another. -/
def Value.literal : Value → Text
  | .string text => Text.literal text
  | .integer n => (toString n).toList
  | .float x => x.text
  | .boolean true => "True".toList
  | .boolean false => "False".toList
  | .moment m => m.literal
  | .array items => '[' :: [',', ' '].intercalate (itemLiterals items) ++ [']']
  | .table entries => '\x7b' :: [',', ' '].intercalate (entryLiterals entries) ++ ['\x7d']

/-- The items of an array as they are shown. -/
def itemLiterals : List Value → List Text
  | [] => []
  | item :: items => item.literal :: itemLiterals items

/-- The entries of a table as they are shown. -/
def entryLiterals : List (Text × Value) → List Text
  | [] => []
  | (key, value) :: entries =>
      (Text.literal key ++ ':' :: ' ' :: value.literal) :: entryLiterals entries

end

namespace Value

/-- A value as a text: a string as it is, a moment by its numbers, and all else as it is shown. -/
def text : Value → Text
  | .string text => text
  | .moment m => m.text
  | value => value.literal

/-- A value that counts as set: not zero, not false and not empty. -/
def isSet : Value → Bool
  | .string text => !text.isEmpty
  | .integer n => n != 0
  | .float x => !x.isZero
  | .boolean b => b
  | .moment _ => true
  | .array items => !items.isEmpty
  | .table entries => !entries.isEmpty

/-- Whether a value holds others. -/
def isContainer : Value → Bool
  | .array _ | .table _ => true
  | _ => false

/-- The name of a value's type in messages. -/
def typeName : Value → Text
  | .string _ => "str".toList
  | .integer _ => "int".toList
  | .float _ => "float".toList
  | .boolean _ => "bool".toList
  | .moment m => m.typeName
  | .array _ => "list".toList
  | .table _ => "dict".toList

end Value

/-! ## Changing tables -/

namespace Table

/-- A table with another value under a key.  A new key comes last. -/
def set (table : Table) (key : Text) (value : Value) : Table :=
  match table with
  | [] => [(key, value)]
  | (other, old) :: entries =>
      if other = key then (key, value) :: entries else (other, old) :: set entries key value

/-- A table with one more entry, if the key is new. -/
def insertNew (table : Table) (key : Text) (value : Value) : Option Table :=
  match table.lookup key with
  | none => some (table.set key value)
  | some _ => none

/-- A table with the table at some path changed.  Missing tables on the way are made.  An array on
the way stands for the last of its items if `throughArrays`. -/
def changeAt (throughArrays : Bool) (change : Table → Option Table) :
    Path → Table → Option Table
  | [], table => change table
  | key :: path, table =>
      match table.lookup key with
      | none => return table.set key (.table (← changeAt throughArrays change path []))
      | some (.table inner) =>
          return table.set key (.table (← changeAt throughArrays change path inner))
      | some (.array items) =>
          match throughArrays, items.getLast? with
          | true, some (.table inner) => do
              let changed ← changeAt throughArrays change path inner
              return table.set key (.array (items.dropLast ++ [.table changed]))
          | _, _ => none
      | some _ => none

/-- A table with an empty table added to the array under a key, which is made if it is missing. -/
def appendTable (key : Text) (table : Table) : Option Table :=
  match table.lookup key with
  | none => some (table.set key (.array [.table []]))
  | some (.array items) => some (table.set key (.array (items ++ [.table []])))
  | some _ => none

end Table

example : (Value.array [.integer 1, .string ['a'], .boolean true]).text =
    "[1, 'a', True]".toList := by
  decide +kernel

end MailAddress.Toml
