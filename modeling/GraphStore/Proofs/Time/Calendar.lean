import GraphStore.Time.Calendar
import Mathlib.Tactic.IntervalCases

/-!
# Days and their dates

The calendar repeats every 400 years. Main statements: every day has a date that is in the calendar,
and is found again from it.
-/

set_option autoImplicit false

namespace GraphStore.Time

/-!
## Days of an era
-/

/-- The parts of a day in a cycle of 400 years: full centuries, cycles of four years in the last
century, years in the last cycle, and days in the last year, which begins in March. -/
structure EraParts (day century cycle year dayOfYear : Nat) : Prop where
  sum : day = 36524 * century + 1461 * cycle + 365 * year + dayOfYear
  century_le : century ≤ 3
  cycle_le : cycle ≤ 24
  year_le : year ≤ 3
  dayOfYear_le : dayOfYear ≤ 365
  /-- The last year of a cycle has one day more, -/
  leap : dayOfYear = 365 → year = 3
  /-- but not in the last cycle of a century that is not the last. -/
  short : century < 3 → 1461 * cycle + 365 * year + dayOfYear < 36524

theorem exists_eraParts {day : Nat} (inEra : day < 146097) :
    ∃ century cycle year dayOfYear, EraParts day century cycle year dayOfYear := by
  obtain ⟨century, last, sum, centuryLe, lastLt, short⟩ : ∃ century last,
      day = 36524 * century + last ∧ century ≤ 3 ∧ last < 36525 ∧ (century < 3 → last < 36524) := by
    by_cases isLast : 36524 * 3 ≤ day
    · exact ⟨3, day - 36524 * 3, by omega⟩
    · exact ⟨day / 36524, day % 36524, by omega⟩
  obtain ⟨year, dayOfYear, sumYear, yearLe, dayLe, leap⟩ : ∃ year dayOfYear,
      last % 1461 = 365 * year + dayOfYear ∧ year ≤ 3 ∧ dayOfYear ≤ 365 ∧
        (dayOfYear = 365 → year = 3) := by
    by_cases isLast : 365 * 3 ≤ last % 1461
    · exact ⟨3, last % 1461 - 365 * 3, by omega⟩
    · exact ⟨last % 1461 / 365, last % 1461 % 365, by omega⟩
  exact ⟨century, last / 1461, year, dayOfYear, by omega, centuryLe, by omega, yearLe, dayLe, leap,
    by omega⟩

variable {day century cycle year dayOfYear : Nat}

namespace EraParts

/-- Every century has one leap day less than it has cycles, except the last. -/
theorem centuries (parts : EraParts day century cycle year dayOfYear) :
    day / 36524 = century + day / 146096 := by
  obtain ⟨sum, centuryLe, cycleLe, yearLe, dayLe, -, short⟩ := parts
  by_cases isLast : day = 146096
  · have century : century = 3 := by
      by_contra other
      have inside := short (by omega)
      omega
    rw [century, isLast]
  · have before : 36524 * century ≤ day ∧ day < 36524 * (century + 1) := by
      rcases Nat.lt_or_eq_of_le centuryLe with before | rfl
      · have inside := short before
        omega
      · omega
    rw [Nat.div_eq_of_lt (by omega : day < 146096)]
    exact Nat.div_eq_of_lt_le (by omega) (by omega)

theorem cycles (parts : EraParts day century cycle year dayOfYear) :
    ∃ more, day / 1460 = 25 * century + cycle + more ∧ more ≤ dayOfYear ∧
      dayOfYear ≤ 364 + more := by
  obtain ⟨sum, centuryLe, cycleLe, yearLe, dayLe, leap, -⟩ := parts
  by_cases early : 24 * century + cycle + 365 * year + dayOfYear < 1460
  · have notLast : dayOfYear ≤ 364 := by
      by_contra last
      have isLast := leap (by omega)
      omega
    exact ⟨0, Nat.div_eq_of_lt_le (by omega) (by omega), Nat.zero_le _, notLast⟩
  · exact ⟨1, Nat.div_eq_of_lt_le (by omega) (by omega), by omega, dayLe⟩

theorem yearOfEra (parts : EraParts day century cycle year dayOfYear) :
    (day - day / 1460 + day / 36524 - day / 146096) / 365 = 100 * century + 4 * cycle + year := by
  obtain ⟨more, cycles, least, greatest⟩ := parts.cycles
  rw [cycles, parts.centuries]
  have sum := parts.sum
  exact Nat.div_eq_of_lt_le (by omega) (by omega)

theorem daysBefore (parts : EraParts day century cycle year dayOfYear) :
    365 * (100 * century + 4 * cycle + year) + (100 * century + 4 * cycle + year) / 4 -
      (100 * century + 4 * cycle + year) / 100 + dayOfYear = day := by
  obtain ⟨sum, -, cycleLe, yearLe, -, -, -⟩ := parts
  have cycles : (100 * century + 4 * cycle + year) / 4 = 25 * century + cycle :=
    Nat.div_eq_of_lt_le (by omega) (by omega)
  have centuries : (100 * century + 4 * cycle + year) / 100 = century :=
    Nat.div_eq_of_lt_le (by omega) (by omega)
  rw [cycles, centuries]
  omega

theorem isLeapYear (parts : EraParts day century cycle year dayOfYear) (last : dayOfYear = 365)
    (era : Int) :
    Time.isLeapYear (era * 400 + (100 * century + 4 * cycle + year : Nat) + 1) = true := by
  obtain ⟨sum, centuryLe, cycleLe, yearLe, -, leap, short⟩ := parts
  have isThird := leap last
  have notShort : century = 3 ∨ cycle < 24 := by
    by_contra neither
    have inside := short (by omega)
    omega
  simp only [Time.isLeapYear, Bool.and_eq_true, Bool.or_eq_true, decide_eq_true_eq]
  omega

end EraParts

/-!
## Dates
-/

namespace Date

/-- The date of a day in a year that begins in March. -/
def ofMarch (year : Int) (dayOfYear : Nat) : Date :=
  let month := (5 * dayOfYear + 2) / 153
  let day := dayOfYear - (153 * month + 2) / 5 + 1
  if month < 10 then ⟨year, month + 3, day⟩ else ⟨year + 1, month - 9, day⟩

theorem exists_ofMarch (days : Int) : ∃ (era : Int) (day century cycle year dayOfYear : Nat),
    EraParts day century cycle year dayOfYear ∧ days + 719468 = era * 146097 + day ∧
      ofDays days = ofMarch (era * 400 + (100 * century + 4 * cycle + year : Nat)) dayOfYear := by
  have sum := Int.mul_fdiv_add_fmod (days + 719468) 146097
  have least := Int.fmod_nonneg_of_pos (days + 719468) (by decide : (0 : Int) < 146097)
  have greatest := Int.fmod_lt_of_pos (days + 719468) (by decide : (0 : Int) < 146097)
  obtain ⟨century, cycle, year, dayOfYear, parts⟩ :=
    exists_eraParts (by omega : ((days + 719468).fmod 146097).toNat < 146097)
  refine ⟨(days + 719468).fdiv 146097, _, century, cycle, year, dayOfYear, parts, by omega, ?_⟩
  have before := parts.daysBefore
  rw [ofDays, ofMarch]
  simp only [parts.yearOfEra]
  rw [(by omega : _ - _ = dayOfYear)]

theorem toDays_ofMarch (era : Int) {year dayOfYear : Nat} (inEra : year < 400)
    (inYear : dayOfYear ≤ 365) :
    (ofMarch (era * 400 + year) dayOfYear).toDays =
      era * 146097 + (365 * year + year / 4 - year / 100 + dayOfYear : Nat) - 719468 := by
  have quotient : (era * 400 + year).fdiv 400 = era := by
    rw [Int.fdiv_eq_ediv_of_nonneg _ (by decide)]
    omega
  have rest : (era * 400 + year).fmod 400 = year := by
    rw [Int.fmod_eq_emod_of_nonneg _ (by decide)]
    omega
  have atMost : (5 * dayOfYear + 2) / 153 ≤ 11 := by omega
  have least : (153 * ((5 * dayOfYear + 2) / 153) + 2) / 5 ≤ dayOfYear := by omega
  rw [ofMarch]
  generalize (5 * dayOfYear + 2) / 153 = month at atMost least
  split
  next early =>
    have fromMarch : (month + 3 + 9) % 12 = month := by omega
    simp only [toDays]
    rw [if_neg (by omega), quotient, rest, fromMarch]
    omega
  next late =>
    have fromMarch : (month - 9 + 9) % 12 = month := by omega
    simp only [toDays]
    rw [if_pos (by omega), Int.add_sub_cancel, quotient, rest, fromMarch]
    omega

/-- A day is found again from its date. -/
theorem toDays_ofDays (days : Int) : (ofDays days).toDays = days := by
  obtain ⟨era, day, century, cycle, year, dayOfYear, parts, sum, same⟩ := exists_ofMarch days
  have inEra : 100 * century + 4 * cycle + year < 400 := by
    have := parts.century_le
    have := parts.cycle_le
    have := parts.year_le
    omega
  rw [same, toDays_ofMarch era inEra parts.dayOfYear_le, parts.daysBefore]
  omega

theorem isValid_ofMarch {year : Int} {dayOfYear : Nat} (inYear : dayOfYear ≤ 365)
    (leap : dayOfYear = 365 → isLeapYear (year + 1) = true) :
    (ofMarch year dayOfYear).isValid = true := by
  have atMost : (5 * dayOfYear + 2) / 153 ≤ 11 := by omega
  have least : (153 * ((5 * dayOfYear + 2) / 153) + 2) / 5 ≤ dayOfYear := by omega
  have greatest : dayOfYear < (153 * ((5 * dayOfYear + 2) / 153 + 1) + 2) / 5 := by omega
  rw [ofMarch]
  generalize (5 * dayOfYear + 2) / 153 = month at atMost least greatest ⊢
  rcases Nat.lt_or_eq_of_le atMost with before | rfl
  · interval_cases month <;> simp [isValid, daysInMonth] <;> omega
  · by_cases last : dayOfYear = 365
    · simp [isValid, daysInMonth, leap last]
      omega
    · have days : 28 ≤ if isLeapYear (year + 1) = true then 29 else 28 := by split <;> decide
      simp [isValid, daysInMonth]
      omega

theorem isValid_ofDays (days : Int) : (ofDays days).isValid = true := by
  obtain ⟨era, day, century, cycle, year, dayOfYear, parts, -, same⟩ := exists_ofMarch days
  rw [same]
  exact isValid_ofMarch parts.dayOfYear_le fun last => parts.isLeapYear last era

theorem daysInMonth_le (year : Int) (month : Nat) : daysInMonth year month ≤ 31 := by
  unfold daysInMonth
  split
  all_goals first | omega | (split <;> omega)

theorem day_ofDays (days : Int) : 1 ≤ (ofDays days).day ∧ (ofDays days).day ≤ 31 := by
  have isValid := isValid_ofDays days
  rw [Date.isValid, Bool.and_eq_true, decide_eq_true_eq, decide_eq_true_eq] at isValid
  exact ⟨isValid.1, Nat.le_trans isValid.2 (daysInMonth_le _ _)⟩

theorem month_ofDays (days : Int) : 1 ≤ (ofDays days).month ∧ (ofDays days).month ≤ 12 := by
  obtain ⟨era, day, century, cycle, year, dayOfYear, parts, -, same⟩ := exists_ofMarch days
  have inYear := parts.dayOfYear_le
  rw [same, ofMarch]
  split
  · dsimp only
    omega
  · dsimp only
    omega

end Date

end GraphStore.Time
