/-!
# Numerals

Whole numbers written to base 10 or 16.
-/

set_option autoImplicit false

namespace GraphStore.Text

def digitsValue (digits : List Char) : Nat :=
  digits.foldl (fun value digit => value * 10 + (digit.toNat - 48)) 0

/-- The number that a text spells with at least one digit and nothing else. -/
def parseDigits? (characters : List Char) : Option Nat :=
  if characters.isEmpty || characters.any (!·.isDigit) then none else some (digitsValue characters)

/-- The number without sign that a text spells. A plus sign may stand in front. -/
def parseNat? (text : String) : Option Nat :=
  match text.toList with
  | '+' :: digits => parseDigits? digits
  | digits => parseDigits? digits

/-- The number that a text spells. A sign may stand in front. -/
def parseInt? (text : String) : Option Int :=
  match text.toList with
  | '+' :: digits => (parseDigits? digits).map Int.ofNat
  | '-' :: digits => (parseDigits? digits).map fun value => -Int.ofNat value
  | digits => (parseDigits? digits).map Int.ofNat

/-- A number, if it lies below a bound. -/
def below? (bound value : Nat) : Option Nat := if value < bound then some value else none

/-- An integer, if it fits into 64 bits in two's complement. -/
def int64? (value : Int) : Option Int64 :=
  if -0x8000000000000000 ≤ value && value < 0x8000000000000000 then some (.ofInt value) else none

theorem int64?_toInt (value : Int64) : int64? value.toInt = some value := by
  have least := value.le_toInt
  have greatest := value.toInt_lt
  rw [int64?, if_pos (by simp only [Bool.and_eq_true, decide_eq_true_eq]; omega), Int64.ofInt_toInt]

/-- The digits of a number, filled up with zeros on the left to at least `width`. -/
def paddedDigits (width n : Nat) : String :=
  let digits := Nat.toDigits 10 n
  String.ofList (List.replicate (width - digits.length) '0' ++ digits)

/-!
## Base 16
-/

def isHexDigit (c : Char) : Bool :=
  c.isDigit || ('a' ≤ c && c ≤ 'f') || ('A' ≤ c && c ≤ 'F')

def hexDigitValue (c : Char) : Nat :=
  if c.isDigit then c.toNat - 48 else if 'a' ≤ c then c.toNat - 87 else c.toNat - 55

def hexValue (digits : List Char) : Nat :=
  digits.foldl (fun value digit => value * 16 + hexDigitValue digit) 0

end GraphStore.Text
