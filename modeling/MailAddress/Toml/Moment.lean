import MailAddress.Text

/-!
# Dates and times

A *moment* is a date, a time of day, or both with or without an offset from universal time.  Dates
are those of the Gregorian calendar, from the year 1 to the year 9999.  A time is exact to the
microsecond.  An offset is less than a day in either direction.

A moment is shown in two ways: as a *text* of its numbers, and as a *literal* that names its type.
-/

namespace MailAddress.Toml

/-! ## The calendar -/

/-- A year with a day more. -/
def isLeapYear (year : Nat) : Bool := year % 4 = 0 && (year % 100 ≠ 0 || year % 400 = 0)

/-- The days of a month. -/
def daysOfMonth (year month : Nat) : Nat :=
  if month = 2 then if isLeapYear year then 29 else 28
  else if month ∈ [4, 6, 9, 11] then 30
  else 31

/-- A year, a month and a day that make a date. -/
structure IsDate (year month day : Nat) : Prop where
  year_bounds : 1 ≤ year ∧ year ≤ 9999
  month_bounds : 1 ≤ month ∧ month ≤ 12
  day_bounds : 1 ≤ day ∧ day ≤ daysOfMonth year month

instance (year month day : Nat) : Decidable (IsDate year month day) :=
  decidable_of_iff
    ((1 ≤ year ∧ year ≤ 9999) ∧ (1 ≤ month ∧ month ≤ 12) ∧ 1 ≤ day ∧ day ≤ daysOfMonth year month)
    ⟨fun ⟨year, month, day⟩ => ⟨year, month, day⟩, fun ⟨year, month, day⟩ => ⟨year, month, day⟩⟩

/-- A date. -/
structure Date where
  /-- The year. -/
  year : Nat
  /-- The month, from one on. -/
  month : Nat
  /-- The day of the month, from one on. -/
  day : Nat
  /-- There is such a date. -/
  is_date : IsDate year month day
deriving Repr

/-- A time of day. -/
structure Time where
  /-- The full hours since midnight. -/
  hour : Fin 24
  /-- The full minutes since then. -/
  minute : Fin 60
  /-- The full seconds since then. -/
  second : Fin 60
  /-- The microseconds since then. -/
  microsecond : Fin 1000000
deriving Repr

/-- By how much a time is ahead of universal time. -/
structure Offset where
  /-- Whether it is behind. -/
  negative : Bool
  /-- The full hours. -/
  hours : Fin 24
  /-- The minutes beyond them. -/
  minutes : Fin 60
deriving Repr

/-- A date, a time or both. -/
inductive Moment where
  /-- A date. -/
  | date (date : Date)
  /-- A time of day. -/
  | time (time : Time)
  /-- A time on a date, maybe with its offset. -/
  | dateTime (date : Date) (time : Time) (offset : Option Offset)
deriving Repr

/-! ## Texts -/

/-- The last `width` decimal digits of a number. -/
def padded : (width : Nat) → Nat → Text
  | 0, _ => []
  | width + 1, n => padded width (n / 10) ++ [Char.ofNat ('0'.toNat + n % 10)]

/-- A date as a text. -/
def Date.text (date : Date) : Text :=
  padded 4 date.year ++ '-' :: padded 2 date.month ++ '-' :: padded 2 date.day

/-- A time as a text.  Microseconds are left out if there are none. -/
def Time.text (time : Time) : Text :=
  padded 2 time.hour ++ ':' :: padded 2 time.minute ++ ':' :: padded 2 time.second ++
    if time.microsecond.val = 0 then [] else '.' :: padded 6 time.microsecond

namespace Offset

/-- Universal time itself. -/
def none : Offset := ⟨false, ⟨0, by decide⟩, ⟨0, by decide⟩⟩

/-- Whether an offset is none at all. -/
def isZero (offset : Offset) : Bool := offset.hours.val = 0 && offset.minutes.val = 0

/-- An offset as a text.  No offset has a plus. -/
def text (offset : Offset) : Text :=
  (if offset.negative && !offset.isZero then '-' else '+') ::
    padded 2 offset.hours ++ ':' :: padded 2 offset.minutes

end Offset

/-- A moment as a text. -/
def Moment.text : Moment → Text
  | .date d => d.text
  | .time t => t.text
  | .dateTime d t offset => d.text ++ ' ' :: t.text ++ offset.elim [] Offset.text

/-! ## Literals -/

/-- A call of a function with numbers and other arguments. -/
def callLiteral (name : Text) (numbers : List Nat) (others : List Text) : Text :=
  let arguments := numbers.map (fun n => (toString n).toList) ++ others
  name ++ '(' :: [',', ' '].intercalate arguments ++ [')']

/-- The numbers of a date. -/
def Date.numbers (date : Date) : List Nat := [date.year, date.month, date.day]

/-- The numbers of a time.  Seconds and microseconds are left out at the end if they are zero. -/
def Time.numbers (time : Time) : List Nat :=
  if time.microsecond.val ≠ 0 then [time.hour, time.minute, time.second, time.microsecond]
  else if time.second.val ≠ 0 then [time.hour, time.minute, time.second]
  else [time.hour, time.minute]

/-- An offset as a literal: days, and seconds from there on. -/
def Offset.literal (offset : Offset) : Text :=
  let seconds := 60 * (60 * offset.hours.val + offset.minutes.val)
  let amount : Text :=
    if offset.negative then "days=-1, seconds=".toList ++ (toString (86400 - seconds)).toList
    else "seconds=".toList ++ (toString seconds).toList
  if offset.isZero then "datetime.timezone.utc".toList
  else "datetime.timezone(datetime.timedelta(".toList ++ amount ++ "))".toList

namespace Moment

/-- The name of a moment's type. -/
def typeName : Moment → Text
  | .date _ => "datetime.date".toList
  | .time _ => "datetime.time".toList
  | .dateTime .. => "datetime.datetime".toList

/-- A moment as a literal. -/
def literal (moment : Moment) : Text :=
  match moment with
  | .date d => callLiteral moment.typeName d.numbers []
  | .time t => callLiteral moment.typeName t.numbers []
  | .dateTime d t offset =>
      callLiteral moment.typeName (d.numbers ++ t.numbers)
        (offset.toList.map fun offset => "tzinfo=".toList ++ offset.literal)

end Moment

example : isLeapYear 1900 = false ∧ daysOfMonth 2000 2 = 29 := by decide

example : (Moment.time ⟨7, 32, 0, 5⟩).text = "07:32:00.000005".toList := by
  decide +kernel

end MailAddress.Toml
