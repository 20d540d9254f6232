import GraphStore.Json.Reader
import GraphStore.Proofs.Text.Numeral
import Mathlib.Data.List.TakeWhile

/-!
# Texts and numbers in JSON

Texts are written with as few escapes as possible. Main statements: every text is read as itself, and
so is every number that is in range.
-/

set_option autoImplicit false

namespace GraphStore

open Text

/-!
## Texts
-/

namespace JsonText

/-- The code of a control character, as it is written behind a backslash and a letter. -/
theorem paddedHexDigits_eq {code : Nat} (small : code < 0x20) :
    (paddedHexDigits 4 code).toList =
        ['0', '0', Nat.digitChar (code / 16), Nat.digitChar (code % 16)] ∧
      unit? '0' '0' (Nat.digitChar (code / 16)) (Nat.digitChar (code % 16)) = some code := by
  have all : ∀ code < 0x20, (paddedHexDigits 4 code).toList =
        ['0', '0', Nat.digitChar (code / 16), Nat.digitChar (code % 16)] ∧
      unit? '0' '0' (Nat.digitChar (code / 16)) (Nat.digitChar (code % 16)) = some code := by
    decide
  exact all code small

/-- The ways in which a character is written. -/
inductive IsEscaped (c : Char) : List Char → Prop where
  | plain (notQuote : c ≠ '"') (notBackslash : c ≠ '\\') (printed : 0x20 ≤ c.toNat) :
      IsEscaped c [c]
  | short {letter : Char} (stands : shortEscape? letter = some c) : IsEscaped c ['\\', letter]
  | code {first second third fourth : Char} (small : c.toNat < 0x20)
      (stands : unit? first second third fourth = some c.toNat) :
      IsEscaped c ['\\', 'u', first, second, third, fourth]

theorem isEscaped_escaped (c : Char) : IsEscaped c (escaped c) := by
  unfold escaped
  split
  next same => subst same; exact .short rfl
  split
  next same => subst same; exact .short rfl
  split
  next same => subst same; exact .short rfl
  split
  next same => subst same; exact .short rfl
  split
  next same => subst same; exact .short rfl
  split
  next same => subst same; exact .short rfl
  split
  next same => subst same; exact .short rfl
  split
  next small =>
    obtain ⟨digits, stands⟩ := paddedHexDigits_eq small
    rw [digits]
    exact .code small stands
  next notQuote notBackslash _ _ _ _ _ large =>
    exact .plain notQuote notBackslash (Nat.le_of_not_lt large)

variable {c letter : Char} {written : List Char}

theorem ne_of_shortEscape? (stands : shortEscape? letter = some c) : letter ≠ 'u' := by
  rintro rfl
  cases stands

theorem IsEscaped.unescape? (isEscaped : IsEscaped c written) (rest : List Char) :
    JsonText.unescape? (written ++ rest) = (JsonText.unescape? rest).map (c :: ·) := by
  cases isEscaped with
  | plain notQuote notBackslash _ =>
      rw [List.singleton_append, JsonText.unescape?]
      · exact fun _ _ _ _ _ same _ => notBackslash same
      · exact fun _ _ same _ => notBackslash same
  | short stands =>
      rw [List.cons_append, List.cons_append, List.nil_append, JsonText.unescape?, stands]
      exact fun _ _ _ _ _ same _ => ne_of_shortEscape? stands same
  | code small stands =>
      have low : isLowHalf c.toNat = false := by simp [isLowHalf]; omega
      have high : isHighHalf c.toNat = false := by simp [isHighHalf]; omega
      simp [JsonText.unescape?, stands, low, high]

theorem isPrinted_of_isHexDigit {digit : Char} (isHex : isHexDigit digit = true) :
    0x20 ≤ digit.toNat := by
  have code : ∀ least : Char, least ≤ digit ↔ least.toNat ≤ digit.toNat := fun _ => Iff.rfl
  simp only [isHexDigit, Bool.or_eq_true, Bool.and_eq_true, decide_eq_true_eq, code] at isHex
  rcases isHex with (decimal | lower) | upper
  · exact Nat.le_trans (by decide) (Char.isDigit_iff_toNat.mp decimal).1
  · exact Nat.le_trans (by decide) lower.1
  · exact Nat.le_trans (by decide) upper.1

/-- No character is written with a control character. -/
theorem IsEscaped.isPrinted (isEscaped : IsEscaped c written) : ∀ x ∈ written, 0x20 ≤ x.toNat := by
  cases isEscaped with
  | plain _ _ printed => simpa using printed
  | @short letter stands =>
      have printed : 0x20 ≤ letter.toNat := by
        unfold shortEscape? at stands
        split at stands <;> first | decide | cases stands
      simpa using printed
  | code _ stands =>
      unfold unit? at stands
      split at stands
      next areHex =>
        simp only [List.all_cons, List.all_nil, Bool.and_true, Bool.and_eq_true] at areHex
        obtain ⟨first, second, third, fourth⟩ := areHex
        simp [isPrinted_of_isHexDigit first, isPrinted_of_isHexDigit second,
          isPrinted_of_isHexDigit third, isPrinted_of_isHexDigit fourth]
      · cases stands

theorem isPrinted_ofString (text : String) : ∀ x ∈ (ofString text).written, 0x20 ≤ x.toNat := by
  intro x member
  obtain ⟨c, -, member⟩ := List.mem_flatMap.mp member
  exact (isEscaped_escaped c).isPrinted x member

/-- Every text is read as itself. -/
theorem value?_ofString (text : String) : (ofString text).value? = some text := by
  have all : ∀ characters : List Char,
      JsonText.unescape? (characters.flatMap escaped) = some characters := by
    intro characters
    induction characters with
    | nil => rfl
    | cons c rest ih =>
        rw [List.flatMap_cons, (isEscaped_escaped c).unescape?, ih, Option.map_some]
  rw [value?, ofString, all, Option.map_some, String.ofList_toList]

theorem IsEscaped.textLength (isEscaped : IsEscaped c written) (read : Nat) (rest : List Char) :
    Json.textLength read (written ++ rest) = Json.textLength (read + written.length) rest := by
  cases isEscaped with
  | plain notQuote notBackslash printed =>
      rw [List.singleton_append, Json.textLength, if_neg (Nat.not_lt.mpr printed)]
      · rfl
      · exact notQuote
      · exact fun _ _ _ _ _ same _ => notBackslash same
      · exact fun _ _ same _ => notBackslash same
  | short stands =>
      rw [List.cons_append, List.cons_append, List.nil_append, Json.textLength, stands]
      · rfl
      · exact fun _ _ _ _ _ same _ => ne_of_shortEscape? stands same
  | code small stands => simp [Json.textLength, stands]

/-- The end of a text is where it was written. -/
theorem textLength_ofString (text : String) (rest : List Char) :
    Json.textLength 0 ((ofString text).written ++ '"' :: rest) =
      some (ofString text).written.length := by
  have all : ∀ (characters : List Char) (read : Nat),
      Json.textLength read (characters.flatMap escaped ++ '"' :: rest) =
        some (read + (characters.flatMap escaped).length) := by
    intro characters
    induction characters with
    | nil => exact fun _ => rfl
    | cons c later ih =>
        intro read
        rw [List.flatMap_cons, List.append_assoc, (isEscaped_escaped c).textLength, ih,
          List.length_append, Nat.add_assoc]
  rw [ofString, all, Nat.zero_add]

theorem escaped_of_isDigit {c : Char} (isDigit : c.isDigit = true) : escaped c = [c] := by
  have notSign : ∀ other : Char, other.isDigit = false → c ≠ other := by
    rintro other notDigit rfl
    rw [isDigit] at notDigit
    cases notDigit
  have printed : ¬c.toNat < 0x20 :=
    Nat.not_lt.mpr (Nat.le_trans (by decide) (Char.isDigit_iff_toNat.mp isDigit).1)
  simp [escaped, notSign '"' rfl, notSign '\\' rfl, notSign '\x08' rfl, notSign '\x0c' rfl,
    notSign '\n' rfl, notSign '\r' rfl, notSign '\t' rfl, printed]

theorem written_ofString_toString (n : Nat) :
    (ofString (toString n)).written = Nat.toDigits 10 n := by
  have all : ∀ digits : List Char, (∀ c ∈ digits, c.isDigit = true) →
      digits.flatMap escaped = digits := by
    intro digits areDigits
    induction digits with
    | nil => rfl
    | cons c rest ih =>
        obtain ⟨here, behind⟩ := List.forall_mem_cons.mp areDigits
        rw [List.flatMap_cons, escaped_of_isDigit here, ih behind, List.singleton_append]
  rw [ofString, Nat.toString_eq_ofList_toDigits, String.toList_ofList]
  exact all _ fun _ => isDigit_of_mem_toDigits

end JsonText

/-!
## Numbers
-/

namespace Text

section

variable {limit read value : Nat} {digits : List Char}

private theorem le_foldl_digits (digits : List Char) (read : Nat) :
    read ≤ digits.foldl (fun value digit => value * 10 + (digit.toNat - 48)) read := by
  induction digits generalizing read with
  | nil => exact Nat.le_refl _
  | cons digit rest ih => exact Nat.le_trans (by dsimp only; omega) (ih _)

/-- A number that is within the limit is read to its end. -/
theorem leadingDigits_eq
    (fits : digits.foldl (fun value digit => value * 10 + (digit.toNat - 48)) read < limit) :
    leadingDigits limit read digits =
      (digits.foldl (fun value digit => value * 10 + (digit.toNat - 48)) read, []) := by
  induction digits generalizing read with
  | nil => rfl
  | cons digit rest ih =>
      have here := Nat.lt_of_le_of_lt (le_foldl_digits rest _) fits
      rw [leadingDigits, if_pos here]
      exact ih fits

theorem rounded_le (n : Nat) : rounded n ≤ 2 * n := by
  rcases Nat.eq_zero_or_pos n with rfl | positive
  · decide
  have small : 1 <<< (n.log2 + 1 - 53) ≤ n := by
    rw [Nat.one_shiftLeft]
    exact Nat.le_trans (Nat.pow_le_pow_right (by decide) (by omega))
      (Nat.log2_self_le (Nat.ne_of_gt positive))
  have down := Nat.div_mul_le_self n (1 <<< (n.log2 + 1 - 53))
  simp only [rounded]
  split
  · rw [Nat.add_mul]
    omega
  · omega

theorem isInfiniteProduct_of_small (small : value < 2 ^ 64) : isInfiniteProduct value 0 = false := by
  have bound := rounded_le value
  have one : rounded (Nat.pow 10 (0 : Int).natAbs) = 1 := by decide
  have least : 2 ^ 65 < infiniteFrom := by decide
  rw [isInfiniteProduct, one, Nat.mul_one]
  have finite : ¬infiniteFrom ≤ rounded value := by omega
  simp [finite, greatestPower]

end

end Text

namespace Json

variable {value : Int}

theorem isExcessive_of_small {digits : List Char} (small : digitsValue digits < 2 ^ 64) :
    isExcessive digits [] 0 = false := by
  have read : leadingDigits 0x10000000000000000 0 digits = (digitsValue digits, []) :=
    leadingDigits_eq small
  rw [isExcessive, read]
  exact isInfiniteProduct_of_small small

theorem number?_toDigits {n : Nat} (small : n < 2 ^ 64) :
    number? (Nat.toDigits 10 n) = some (.integer n) ∧
      (0 < n → number? ('-' :: Nat.toDigits 10 n) = some (.integer (-n))) := by
  have areDigits : ∀ c ∈ Nat.toDigits 10 n, c.isDigit = true := fun _ => isDigit_of_mem_toDigits
  have whole : (Nat.toDigits 10 n).takeWhile Char.isDigit = Nat.toDigits 10 n :=
    List.takeWhile_eq_self_iff.mpr areDigits
  have tail : (Nat.toDigits 10 n).dropWhile Char.isDigit = [] := List.dropWhile_eq_nil_iff.mpr areDigits
  have unsigned : (Nat.toDigits 10 n).head? ≠ some '-' := by
    intro minus
    have digit := areDigits '-' (List.mem_of_head? minus)
    revert digit
    decide
  have plain := startsWithZero_toDigits n
  have finite : isExcessive (Nat.toDigits 10 n) [] 0 = false :=
    isExcessive_of_small (by rwa [digitsValue_toDigits])
  constructor
  · simp [number?, unsigned, whole, tail, plain, fraction?, exponent?, finite, digitsValue_toDigits,
      Nat.toDigits_ne_nil]
  · intro positive
    simp [number?, whole, tail, plain, fraction?, exponent?, finite, digitsValue_toDigits,
      Nat.toDigits_ne_nil, Nat.ne_of_gt positive]

theorem toString_cases (value : Int) :
    (∃ n : Nat, value = n ∧ (toString value).toList = Nat.toDigits 10 n) ∨
      ∃ n : Nat, 0 < n ∧ value = -n ∧ (toString value).toList = '-' :: Nat.toDigits 10 n := by
  cases value with
  | ofNat n =>
      refine .inl ⟨n, rfl, ?_⟩
      change (toString n).toList = _
      rw [Nat.toString_eq_ofList_toDigits, String.toList_ofList]
  | negSucc n =>
      refine .inr ⟨n + 1, Nat.succ_pos n, rfl, ?_⟩
      change ("-" ++ toString (n + 1)).toList = _
      simp

theorem number?_toString (small : value.natAbs < 2 ^ 64) :
    number? (toString value).toList = some (.integer value) := by
  rcases toString_cases value with ⟨n, rfl, written⟩ | ⟨n, positive, rfl, written⟩
  · rw [written]
    exact (number?_toDigits (by simpa using small)).1
  · rw [written]
    exact (number?_toDigits (by simpa using small)).2 positive

theorem scalar?_toString (small : value.natAbs < 2 ^ 64) :
    scalar? (toString value).toList = some (.integer value) := by
  have isNumber := number?_toString small
  unfold scalar?
  split
  next word => rw [word] at isNumber; cases isNumber
  next word => rw [word] at isNumber; cases isNumber
  next word => rw [word] at isNumber; cases isNumber
  · exact isNumber

end Json

end GraphStore
