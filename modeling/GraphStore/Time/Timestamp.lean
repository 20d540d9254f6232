import GraphStore.Text.Blank
import GraphStore.Text.Reader
import GraphStore.Time.Calendar

/-!
# Timestamps

Points in time in the format of RFC 3339. They are written in universal time; other offsets and
some freedom in blanks are understood when reading.
-/

set_option autoImplicit false

namespace GraphStore

open Text Time

/-- A point in time. -/
structure Timestamp where
  /-- Seconds since the start of 1970 in universal time. -/
  seconds : Int
  /-- Billionths of a second. A value of a full second or more falls into a leap second. -/
  nanoseconds : Nat
deriving Repr, DecidableEq, Inhabited

namespace Timestamp

/-- The fraction of a second with as many groups of three digits as it needs. -/
def fractionText (nanoseconds : Nat) : String :=
  if nanoseconds = 0 then ""
  else if nanoseconds % 1000000 = 0 then "." ++ paddedDigits 3 (nanoseconds / 1000000)
  else if nanoseconds % 1000 = 0 then "." ++ paddedDigits 6 (nanoseconds / 1000)
  else "." ++ paddedDigits 9 nanoseconds

/-- A year of up to four digits without, any other year with its sign. -/
def yearText (year : Int) : String :=
  if year < 0 then "-" ++ paddedDigits 4 year.natAbs
  else if 9999 < year then "+" ++ paddedDigits 4 year.natAbs
  else paddedDigits 4 year.natAbs

def text (timestamp : Timestamp) : String :=
  let date := Date.ofDays (timestamp.seconds.fdiv 86400)
  let second := (timestamp.seconds.fmod 86400).toNat
  let leap := timestamp.nanoseconds / 1000000000
  yearText date.year ++ "-" ++ paddedDigits 2 date.month ++ "-" ++ paddedDigits 2 date.day ++ "T" ++
    paddedDigits 2 (second / 3600) ++ ":" ++ paddedDigits 2 (second / 60 % 60) ++ ":" ++
    paddedDigits 2 (second % 60 + leap) ++ fractionText (timestamp.nanoseconds % 1000000000) ++ "Z"

/-!
## Reading
-/

def blanks : Reader Unit := Reader.skip isBlank

/-- Reads a number of up to two digits behind blanks, between the given bounds. -/
def field (least greatest : Nat) : Reader Nat := do
  blanks
  let value := digitsValue (← Reader.digits 2)
  if least ≤ value && value ≤ greatest then return value else failure

def isCovered (year : Int) : Bool := -262143 ≤ year && year ≤ 262142

/-- Reads a year: up to four digits, or any number of them behind a sign. -/
def year : Reader Int := do
  blanks
  let negative ← Reader.perhaps (Reader.sign '-')
  let positive ← Reader.perhaps (Reader.sign '+')
  if negative.isSome && positive.isSome then failure
  let digits ←
    if negative.isSome || positive.isSome then Reader.takeSome Char.isDigit else Reader.digits 4
  let value : Int := digitsValue digits
  let value := if negative.isSome then -value else value
  if isCovered value then return value else failure

/-- Reads the billionths of a second behind a point, if there is one. Digits beyond the ninth are
passed over. -/
def fraction : Reader Nat := do
  match ← Reader.perhaps (Reader.sign '.') with
  | none => return 0
  | some () => do
      let found ← Reader.digits 9
      Reader.skip Char.isDigit
      return digitsValue found * Nat.pow 10 (9 - found.length)

def offset : Reader Int := do
  let rest ← get
  if (rest.take 3).map Char.toUpper = ['U', 'T', 'C'] then
    set (rest.drop 3)
    return 0
  let first ← Reader.any
  if first = 'Z' || first = 'z' then return 0
  else if first ≠ '+' && first ≠ '-' && first ≠ '\u2212' then failure
  else
    let hours ← Reader.exactly 2
    Reader.skip fun c => c = ':' || isBlank c
    let minutes ← Reader.exactly 2
    if 60 ≤ minutes || 24 ≤ hours then failure
    let seconds : Int := hours * 3600 + minutes * 60
    return if first = '+' then seconds else -seconds

def reader : Reader Timestamp := do
  let year ← year
  blanks
  Reader.sign '-'
  let month ← field 1 12
  blanks
  Reader.sign '-'
  let day ← field 1 31
  let separator ← Reader.any
  if separator ≠ 'T' && separator ≠ 't' && separator ≠ ' ' then failure
  let hour ← field 0 23
  blanks
  Reader.sign ':'
  let minute ← field 0 59
  blanks
  Reader.sign ':'
  let second ← field 0 60
  let nanoseconds ← fraction
  blanks
  let offset ← offset
  blanks
  let date : Date := ⟨year, month, day⟩
  if !date.isValid then failure
  let ofDay : Int := hour * 3600 + minute * 60 + min second 59
  let seconds := date.toDays * 86400 + ofDay - offset
  if !isCovered (Date.ofDays (seconds.fdiv 86400)).year then failure
  return { seconds, nanoseconds := nanoseconds + (if second = 60 then 1000000000 else 0) }

def parse? (text : String) : Option Timestamp := reader.readAll? text.toList

end Timestamp

end GraphStore
