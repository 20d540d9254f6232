import GraphStore.Proofs.Text.Reader
import GraphStore.Proofs.Time.Calendar
import GraphStore.Time.Timestamp

/-!
# Reading points in time

A point in time is read from the text that was written for it, as long as its year can be read at all
and a second is only counted twice where a minute ends.
-/

set_option autoImplicit false

namespace GraphStore.Timestamp

open Text Text.Reader Time

variable {c : Char} {rest : List Char}

theorem isBlank_of_isDigit (isDigit : c.isDigit = true) : isBlank c = false := by
  obtain ⟨least, greatest⟩ := Char.isDigit_iff_toNat.mp isDigit
  have zero : '0'.toNat = 48 := rfl
  have nine : '9'.toNat = 57 := rfl
  simp [isBlank]
  omega

/-- A padded number begins with a digit. -/
theorem exists_cons_paddedDigits (width n : Nat) :
    ∃ c more, (paddedDigits width n).toList = c :: more ∧ c.isDigit = true := by
  obtain ⟨c, more, shape⟩ := List.exists_cons_of_ne_nil (paddedDigits_ne_nil width n)
  exact ⟨c, more, shape, isDigit_of_mem_paddedDigits (shape ▸ List.mem_cons_self)⟩

theorem ends_paddedDigits (width n : Nat) (rest : List Char) :
    Ends isBlank ((paddedDigits width n).toList ++ rest) := by
  obtain ⟨c, more, shape, isDigit⟩ := exists_cons_paddedDigits width n
  rw [shape]
  exact ends_cons (isBlank_of_isDigit isDigit) _

theorem reads_blanks_sign (notBlank : isBlank c = false) (rest : List Char) :
    Reads blanks (c :: rest) () (c :: rest) := reads_skip_nothing (ends_cons notBlank rest)

theorem reads_field {least greatest n : Nat} (atLeast : least ≤ n) (atMost : n ≤ greatest)
    (small : n < 100) (rest : List Char) :
    Reads (field least greatest) ((paddedDigits 2 n).toList ++ rest) n rest := by
  refine (reads_skip_nothing (ends_paddedDigits 2 n rest)).bind ?_
  refine (reads_digits (paddedDigits_ne_nil 2 n) (fun _ => isDigit_of_mem_paddedDigits)
    (.inl (length_paddedDigits (by decide) small))).bind ?_
  simp only [digitsValue_paddedDigits]
  rw [if_pos (by simp [atLeast, atMost])]
  exact reads_pure _ _

theorem sign_paddedDigits_eq_none {expected : Char} (notDigit : expected.isDigit = false)
    (width n : Nat) (rest : List Char) :
    sign expected ((paddedDigits width n).toList ++ rest) = none := by
  obtain ⟨c, more, shape, isDigit⟩ := exists_cons_paddedDigits width n
  rw [shape]
  refine sign_eq_none ?_ _
  rintro rfl
  rw [isDigit] at notDigit
  cases notDigit

theorem reads_year {value : Int} (covered : isCovered value = true) (rest : List Char) :
    Reads year ((yearText value).toList ++ '-' :: rest) value ('-' :: rest) := by
  have digits : ∀ c ∈ (paddedDigits 4 value.natAbs).toList, c.isDigit = true :=
    fun _ => isDigit_of_mem_paddedDigits
  have some := paddedDigits_ne_nil 4 value.natAbs
  have ends : Ends Char.isDigit ('-' :: rest) := ends_cons rfl rest
  have plain : sign '+' ((paddedDigits 4 value.natAbs).toList ++ '-' :: rest) = none :=
    sign_paddedDigits_eq_none rfl _ _ _
  -- `perhaps` decides on the sign before a digit is read, so that each way to write a year has its own
  -- sequence of readers.
  rw [yearText]
  split
  next negative =>
    have same : -((value.natAbs : Nat) : Int) = value := by omega
    rw [String.toList_append]
    refine (reads_blanks_sign rfl _).bind ?_
    refine (reads_perhaps (reads_sign '-' _)).bind ?_
    refine (reads_perhaps_none plain).bind ?_
    refine (reads_takeSome some digits ends).bind ?_
    simp only [digitsValue_paddedDigits, Option.isSome_some, if_true, same, covered]
    exact reads_pure _ _
  next notNegative =>
  have same : ((value.natAbs : Nat) : Int) = value := by omega
  split
  next long =>
    rw [String.toList_append]
    refine (reads_blanks_sign rfl _).bind ?_
    refine (reads_perhaps_none (sign_eq_none (by decide) _)).bind ?_
    refine (reads_perhaps (reads_sign '+' _)).bind ?_
    refine (reads_takeSome some digits ends).bind ?_
    simp only [digitsValue_paddedDigits, Option.isSome_none, Bool.false_eq_true, if_false, same,
      covered, if_true]
    exact reads_pure _ _
  next short =>
    refine (reads_skip_nothing (ends_paddedDigits 4 _ _)).bind ?_
    refine (reads_perhaps_none (sign_paddedDigits_eq_none rfl 4 _ _)).bind ?_
    refine (reads_perhaps_none plain).bind ?_
    refine (reads_digits some digits (.inl (length_paddedDigits (by decide) (by omega)))).bind ?_
    simp only [digitsValue_paddedDigits, Option.isSome_none, Bool.false_eq_true, if_false, same,
      covered, if_true]
    exact reads_pure _ _

/-- Digits behind the point are read as billionths. -/
theorem reads_fraction_of_digits {width n : Nat} (positive : 0 < width) (atMost : width ≤ 9)
    (small : n < 10 ^ width) (rest : List Char) :
    Reads fraction ('.' :: ((paddedDigits width n).toList ++ 'Z' :: rest)) (n * 10 ^ (9 - width))
      ('Z' :: rest) := by
  have length := length_paddedDigits positive small
  have ends : Ends Char.isDigit ('Z' :: rest) := ends_cons rfl rest
  refine (reads_perhaps (reads_sign '.' _)).bind ?_
  refine (reads_digits (paddedDigits_ne_nil width n) (fun _ => isDigit_of_mem_paddedDigits)
    (.inr ⟨by omega, ends⟩)).bind ?_
  refine (reads_skip_nothing ends).bind ?_
  rw [digitsValue_paddedDigits, length]
  exact reads_pure _ _

theorem reads_fraction {nanoseconds : Nat} (small : nanoseconds < 1000000000) (rest : List Char) :
    Reads fraction ((fractionText nanoseconds).toList ++ 'Z' :: rest) nanoseconds ('Z' :: rest) := by
  have grouped : ∀ {width n : Nat}, 0 < width → width ≤ 9 → n < 10 ^ width →
      n * 10 ^ (9 - width) = nanoseconds →
      Reads fraction (("." ++ paddedDigits width n).toList ++ 'Z' :: rest) nanoseconds
        ('Z' :: rest) := by
    rintro width n positive atMost fits rfl
    rw [String.toList_append]
    exact reads_fraction_of_digits positive atMost fits rest
  rw [fractionText]
  split
  next none =>
    subst none
    exact (reads_perhaps_none (sign_eq_none (by decide) rest)).bind (reads_pure _ _)
  split
  · exact grouped (by decide) (by decide) (by omega) (by omega)
  split
  · exact grouped (by decide) (by decide) (by omega) (by omega)
  · exact grouped (by decide) (by decide) (by omega) (by omega)

/-- Whether the year of a point in time can be read, and whether a second of more than a billion
billionths is the last of its minute. -/
structure IsProper (timestamp : Timestamp) : Prop where
  covered : isCovered (Date.ofDays (timestamp.seconds.fdiv 86400)).year = true
  nanoseconds : timestamp.nanoseconds < 1000000000 ∨
    timestamp.nanoseconds < 2000000000 ∧ timestamp.seconds % 60 = 59

/-- A point in time is read from its text. -/
theorem IsProper.parse?_text {timestamp : Timestamp} (proper : timestamp.IsProper) :
    parse? timestamp.text = some timestamp := by
  obtain ⟨seconds, nanoseconds⟩ := timestamp
  obtain ⟨days, second, inDay, rfl⟩ : ∃ (days : Int) (second : Nat),
      second < 86400 ∧ seconds = days * 86400 + second :=
    ⟨seconds / 86400, (seconds % 86400).toNat, by omega, by omega⟩
  have quotient : (days * 86400 + second).fdiv 86400 = days := by
    rw [Int.fdiv_eq_ediv_of_nonneg _ (by decide)]
    omega
  have remainder : (days * 86400 + second).fmod 86400 = second := by
    rw [Int.fmod_eq_emod_of_nonneg _ (by decide)]
    omega
  obtain ⟨covered, inSecond⟩ := proper
  dsimp only at covered inSecond
  rw [quotient] at covered
  obtain ⟨monthLeast, monthGreatest⟩ := Date.month_ofDays days
  obtain ⟨dayLeast, dayGreatest⟩ := Date.day_ofDays days
  obtain ⟨leap, leapEq, leapCases⟩ : ∃ leap, nanoseconds / 1000000000 = leap ∧
      (leap = 0 ∧ nanoseconds % 1000000000 = nanoseconds ∨
        leap = 1 ∧ nanoseconds % 1000000000 + 1000000000 = nanoseconds ∧ second % 60 = 59) :=
    ⟨_, rfl, by omega⟩
  have minus : "-".toList = ['-'] := rfl
  have letter : "T".toList = ['T'] ∧ "Z".toList = ['Z'] := ⟨rfl, rfl⟩
  have colon : ":".toList = [':'] := rfl
  rw [parse?, text]
  refine Reads.readAll? ?_
  simp only [quotient, remainder, Int.toNat_natCast, leapEq, String.toList_append, minus, letter,
    colon, List.append_assoc, List.cons_append, List.nil_append]
  refine (reads_year covered _).bind ?_
  refine (reads_blanks_sign rfl _).bind ?_
  refine (reads_sign '-' _).bind ?_
  refine (reads_field monthLeast monthGreatest (by omega) _).bind ?_
  refine (reads_blanks_sign rfl _).bind ?_
  refine (reads_sign '-' _).bind ?_
  refine (reads_field dayLeast dayGreatest (by omega) _).bind ?_
  refine (reads_any 'T' _).bind ?_
  refine (reads_field (Nat.zero_le _) (by omega : second / 3600 ≤ 23) (by omega) _).bind ?_
  refine (reads_blanks_sign rfl _).bind ?_
  refine (reads_sign ':' _).bind ?_
  refine (reads_field (Nat.zero_le _) (by omega : second / 60 % 60 ≤ 59) (by omega) _).bind ?_
  refine (reads_blanks_sign rfl _).bind ?_
  refine (reads_sign ':' _).bind ?_
  refine (reads_field (Nat.zero_le _) (by omega : second % 60 + leap ≤ 60) (by omega) _).bind ?_
  refine (reads_fraction (by omega) _).bind ?_
  refine (reads_blanks_sign rfl _).bind ?_
  refine (show Reads offset ['Z'] 0 [] from rfl).bind ?_
  have nothing : Ends isBlank [] := fun _ given => by cases given
  refine (reads_skip_nothing nothing).bind ?_
  have sameDate : Date.mk (Date.ofDays days).year (Date.ofDays days).month (Date.ofDays days).day =
      Date.ofDays days := rfl
  have sameSeconds : days * 86400 + (((second / 3600 : Nat) : Int) * 3600 +
      ((second / 60 % 60 : Nat) : Int) * 60 + (min (second % 60 + leap) 59 : Nat)) - 0 =
      days * 86400 + second := by omega
  have sameNanoseconds : nanoseconds % 1000000000 +
      (if second % 60 + leap = 60 then 1000000000 else 0) = nanoseconds := by
    split <;> omega
  simp only [sameDate, Date.isValid_ofDays, Date.toDays_ofDays, sameSeconds, quotient, covered,
    sameNanoseconds]
  exact reads_pure _ _

end GraphStore.Timestamp
