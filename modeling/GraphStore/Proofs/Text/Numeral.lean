import GraphStore.Text.Numeral
import Mathlib.Data.List.Induction
import Mathlib.Data.Nat.Digits.Defs

/-!
# Numerals and their values

What the digits of a numeral stand for. Main statement: a numeral is read as the number that it
stands for, whatever its sign and however many zeros stand in front, and digits to base 16 are read as
theirs.
-/

set_option autoImplicit false

namespace GraphStore.Text

/-- The digit that a character shows. -/
def digitOf (c : Char) : Nat := c.toNat - '0'.toNat

/-- Characters that show a whole number to base ten, with or without a sign. -/
inductive IsNumeral : List Char → Int → Prop where
  | unsigned {digits : List Char} (some : digits ≠ []) (areDigits : ∀ c ∈ digits, c.isDigit) :
      IsNumeral digits (Nat.ofDigits 10 (digits.reverse.map digitOf) : Nat)
  | plus {digits : List Char} (some : digits ≠ []) (areDigits : ∀ c ∈ digits, c.isDigit) :
      IsNumeral ('+' :: digits) (Nat.ofDigits 10 (digits.reverse.map digitOf) : Nat)
  | minus {digits : List Char} (some : digits ≠ []) (areDigits : ∀ c ∈ digits, c.isDigit) :
      IsNumeral ('-' :: digits) (-(Nat.ofDigits 10 (digits.reverse.map digitOf) : Nat))

theorem digitsValue_eq_ofDigits (digits : List Char) :
    digitsValue digits = Nat.ofDigits 10 (digits.reverse.map digitOf) := by
  induction digits using List.reverseRecOn with
  | nil => rfl
  | append_singleton digits last ih =>
      rw [digitsValue, List.foldl_append, ← digitsValue, ih, List.reverse_append, List.reverse_cons,
        List.reverse_nil, List.nil_append, List.singleton_append, List.map_cons, Nat.ofDigits_cons]
      have zero : '0'.toNat = 48 := rfl
      simp only [List.foldl_cons, List.foldl_nil, digitOf, zero]
      omega

section

variable {characters digits : List Char} {value : Int}

theorem parseDigits?_eq_some (some : digits ≠ []) (areDigits : ∀ c ∈ digits, c.isDigit) :
    parseDigits? digits = .some (Nat.ofDigits 10 (digits.reverse.map digitOf)) := by
  have clean : digits.any (!·.isDigit) = false := by
    simpa using areDigits
  have filled : digits.isEmpty = false := by simpa using some
  rw [parseDigits?, clean, filled, digitsValue_eq_ofDigits]
  rfl

theorem parseInt?_of_isNumeral (isNumeral : IsNumeral characters value) :
    parseInt? (String.ofList characters) = some value := by
  cases isNumeral with
  | plus some areDigits =>
      simp only [parseInt?, String.toList_ofList, parseDigits?_eq_some some areDigits]
      rfl
  | minus some areDigits =>
      simp only [parseInt?, String.toList_ofList, parseDigits?_eq_some some areDigits]
      rfl
  | unsigned some areDigits =>
      rw [parseInt?, String.toList_ofList]
      split
      · simp [Char.isDigit] at areDigits
      · simp [Char.isDigit] at areDigits
      · rw [parseDigits?_eq_some some areDigits]
        rfl

/-- Numerals that show the same characters have the same value. -/
theorem IsNumeral.unique {other : Int} (isNumeral : IsNumeral characters value)
    (isOther : IsNumeral characters other) : value = other :=
  Option.some.inj ((parseInt?_of_isNumeral isNumeral).symm.trans (parseInt?_of_isNumeral isOther))

theorem int64?_eq_some_iff {number : Int64} : int64? value = some number ↔ number.toInt = value := by
  constructor
  · intro given
    unfold int64? at given
    split at given
    · next fits =>
      cases given
      simp only [Bool.and_eq_true, decide_eq_true_eq] at fits
      exact Int64.toInt_ofInt_of_le fits.1 fits.2
    · cases given
  · intro same
    rw [← same]
    exact int64?_toInt number

theorem int64?_eq_none_iff :
    int64? value = none ↔ ¬(-0x8000000000000000 ≤ value ∧ value < 0x8000000000000000) := by
  unfold int64?
  split
  · next fits => simpa using fits
  · next fails => simpa using fails

end

/-!
## The digits of a number
-/

theorem digitsValue_toDigits (n : Nat) : digitsValue (Nat.toDigits 10 n) = n := by
  have spelled := @Nat.ofDigitChars_ten_toDigits n
  rw [Nat.ofDigitChars_eq_foldl] at spelled
  conv_rhs => rw [← spelled]
  simp only [digitsValue, Nat.mul_comm]
  rfl

theorem isDigit_of_mem_toDigits {c : Char} {n : Nat} (member : c ∈ Nat.toDigits 10 n) :
    c.isDigit = true :=
  Nat.isDigit_of_mem_toDigits (by decide) (by decide) member

/-- No zeros stand in front. -/
theorem head?_toDigits_ne {n : Nat} (positive : 0 < n) : (Nat.toDigits 10 n).head? ≠ some '0' := by
  induction n using Nat.strong_induction_on with
  | _ n ih =>
    by_cases small : n < 10
    · rw [Nat.toDigits_of_lt_base small, List.head?_cons]
      simp only [ne_eq, Option.some.injEq, Nat.digitChar_eq_zero]
      exact Nat.ne_of_gt positive
    · have front := ih (n / 10) (by omega) (by omega)
      rw [Nat.toDigits_of_base_le (by decide) (Nat.le_of_not_lt small), List.head?_append]
      rwa [Option.or_of_isSome (by simp [Nat.toDigits_ne_nil])]

theorem startsWithZero_toDigits (n : Nat) :
    ((Nat.toDigits 10 n).head? = some '0' && 1 < (Nat.toDigits 10 n).length) = false := by
  rcases Nat.eq_zero_or_pos n with rfl | positive
  · rfl
  · simp [head?_toDigits_ne positive]

theorem parseDigits?_toDigits (n : Nat) : parseDigits? (Nat.toDigits 10 n) = some n := by
  rw [parseDigits?_eq_some Nat.toDigits_ne_nil fun _ => isDigit_of_mem_toDigits,
    ← digitsValue_eq_ofDigits, digitsValue_toDigits]

theorem isDigit_of_mem_paddedDigits {width n : Nat} {c : Char}
    (member : c ∈ (paddedDigits width n).toList) : c.isDigit = true := by
  rw [paddedDigits, String.toList_ofList] at member
  rcases List.mem_append.mp member with zero | digit
  · rw [List.eq_of_mem_replicate zero]
    rfl
  · exact isDigit_of_mem_toDigits digit

/-- Zeros in front do not change what digits stand for. -/
theorem digitsValue_paddedDigits (width n : Nat) :
    digitsValue (paddedDigits width n).toList = n := by
  have zeros : ∀ count, digitsValue (List.replicate count '0' ++ Nat.toDigits 10 n) = n := by
    intro count
    induction count with
    | zero => exact digitsValue_toDigits n
    | succ count ih => exact ih
  rw [paddedDigits, String.toList_ofList]
  exact zeros _

theorem length_paddedDigits {width n : Nat} (positive : 0 < width) (small : n < 10 ^ width) :
    (paddedDigits width n).toList.length = width := by
  have length := (Nat.length_toDigits_le_iff (by decide) positive).mpr small
  rw [paddedDigits, String.toList_ofList, List.length_append, List.length_replicate,
    Nat.sub_add_cancel length]

theorem paddedDigits_ne_nil (width n : Nat) : (paddedDigits width n).toList ≠ [] := by
  rw [paddedDigits, String.toList_ofList]
  exact List.append_ne_nil_of_right_ne_nil _ Nat.toDigits_ne_nil

/-!
## Base 16
-/

/-- The digit to base 16 that a character shows, in upper or lower case. -/
def hexDigitOf (c : Char) : Nat := "0123456789abcdef".toList.idxOf c.toLower

theorem toNat_lt_of_isHexDigit {c : Char} (isHex : isHexDigit c = true) : c.toNat < 128 := by
  have code : ∀ greatest : Char, c ≤ greatest ↔ c.toNat ≤ greatest.toNat := fun _ => Iff.rfl
  simp only [isHexDigit, Bool.or_eq_true, Bool.and_eq_true, decide_eq_true_eq, code] at isHex
  rcases isHex with (decimal | lower) | upper
  · exact Nat.lt_of_le_of_lt (Char.isDigit_iff_toNat.mp decimal).2 (by decide)
  · exact Nat.lt_of_le_of_lt lower.2 (by decide)
  · exact Nat.lt_of_le_of_lt upper.2 (by decide)

theorem hexDigitValue_eq {c : Char} (isHex : isHexDigit c = true) :
    hexDigitValue c = hexDigitOf c := by
  have each : ∀ code < 128, isHexDigit (Char.ofNat code) = true →
      hexDigitValue (Char.ofNat code) = hexDigitOf (Char.ofNat code) := by decide +kernel
  have here := each c.toNat (toNat_lt_of_isHexDigit isHex)
  rw [Char.ofNat_toNat] at here
  exact here isHex

theorem hexValue_eq_ofDigits {digits : List Char} (areHex : ∀ c ∈ digits, isHexDigit c = true) :
    hexValue digits = Nat.ofDigits 16 (digits.reverse.map hexDigitOf) := by
  induction digits using List.reverseRecOn with
  | nil => rfl
  | append_singleton digits last ih =>
      obtain ⟨front, lastHex⟩ := List.forall_mem_append.mp areHex
      have value := hexDigitValue_eq (lastHex last (List.mem_singleton_self last))
      rw [hexValue, List.foldl_append, ← hexValue, ih front, List.reverse_append, List.reverse_cons,
        List.reverse_nil, List.nil_append, List.singleton_append, List.map_cons, Nat.ofDigits_cons,
        List.foldl_cons, List.foldl_nil, value]
      omega

end GraphStore.Text
