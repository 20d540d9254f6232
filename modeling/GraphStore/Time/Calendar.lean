/-!
# Days of the calendar

Days counted from the first of January 1970 in the Gregorian calendar, extended over all years.
-/

set_option autoImplicit false

namespace GraphStore.Time

/-- A day by year, month and day of the month. -/
structure Date where
  year : Int
  month : Nat
  day : Nat
deriving Repr, DecidableEq, Inhabited

def isLeapYear (year : Int) : Bool := year % 4 = 0 && (year % 100 ≠ 0 || year % 400 = 0)

def daysInMonth (year : Int) (month : Nat) : Nat :=
  match month with
  | 1 | 3 | 5 | 7 | 8 | 10 | 12 => 31
  | 4 | 6 | 9 | 11 => 30
  | 2 => if isLeapYear year then 29 else 28
  | _ => 0

namespace Date

def isValid (date : Date) : Bool := 1 ≤ date.day && date.day ≤ daysInMonth date.year date.month

/-- The number of days since the first of January 1970. Years are counted from March here, so that
a leap day is the last of its year. -/
def toDays (date : Date) : Int :=
  let year := if date.month ≤ 2 then date.year - 1 else date.year
  let month := (date.month + 9) % 12
  let dayOfYear : Int := (153 * month + 2) / 5 + date.day - 1
  let era := year.fdiv 400
  let yearOfEra := year.fmod 400
  era * 146097 + yearOfEra * 365 + yearOfEra / 4 - yearOfEra / 100 + dayOfYear - 719468

/-- The day that lies a number of days behind the first of January 1970. -/
def ofDays (days : Int) : Date :=
  let shifted := days + 719468
  let era := shifted.fdiv 146097
  let dayOfEra := (shifted.fmod 146097).toNat
  let yearOfEra := (dayOfEra - dayOfEra / 1460 + dayOfEra / 36524 - dayOfEra / 146096) / 365
  let dayOfYear := dayOfEra - (365 * yearOfEra + yearOfEra / 4 - yearOfEra / 100)
  let month := (5 * dayOfYear + 2) / 153
  let day := dayOfYear - (153 * month + 2) / 5 + 1
  let year := era * 400 + yearOfEra
  if month < 10 then ⟨year, month + 3, day⟩ else ⟨year + 1, month - 9, day⟩

end Date

end GraphStore.Time
