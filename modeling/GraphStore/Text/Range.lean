/-!
# The range of floating-point numbers

Which decimal numerals spell a number that is infinite once it is rounded to 53 binary digits. Two
rules are given: one for readers that round the number that is spelled, and one for readers that
round its digits and its power of ten and multiply them.
-/

set_option autoImplicit false

namespace GraphStore.Text

/-- The least number that is infinite when it is rounded: half a step above the greatest finite
one. -/
def infiniteFrom : Nat := 1 <<< 1024 - 1 <<< 970

/-- Whether `mantissa` times a power of ten is infinite when it is rounded. A finite one has at most
309 digits before the point. -/
def isInfinite (mantissa : Nat) (exponent : Int) : Bool :=
  let places : Int := (Nat.toDigits 10 mantissa).length + exponent
  if mantissa = 0 || places < 309 then false
  else if 309 < places then true
  else if exponent < 0 then infiniteFrom * Nat.pow 10 exponent.natAbs ≤ mantissa
  else infiniteFrom ≤ mantissa * Nat.pow 10 exponent.natAbs

/-- The nearest number with at most 53 binary digits before its zeros. A half goes to the even
neighbour. -/
def rounded (n : Nat) : Nat :=
  let step := 1 <<< (n.log2 + 1 - 53)
  let down := n / step
  let beyond := 2 * (n % step)
  (if step < beyond || (beyond = step && down % 2 = 1) then down + 1 else down) * step

/-- The greatest power of ten by which a number is multiplied in one step. -/
def greatestPower : Nat := 308

/-- Whether the product of `mantissa` and a power of ten is infinite, when both are rounded before
they are multiplied. -/
def isInfiniteProduct (mantissa : Nat) (exponent : Int) : Bool :=
  mantissa != 0 && 0 ≤ exponent &&
    (greatestPower < exponent ||
      infiniteFrom ≤ rounded mantissa * rounded (Nat.pow 10 exponent.natAbs))

/-- The value of the leading digits, as many as give a number below `limit` together with what is
read already, and the digits that are left. -/
def leadingDigits (limit read : Nat) : List Char → Nat × List Char
  | [] => (read, [])
  | digit :: rest =>
      let longer := read * 10 + (digit.toNat - 48)
      if longer < limit then leadingDigits limit longer rest else (read, digit :: rest)

end GraphStore.Text
