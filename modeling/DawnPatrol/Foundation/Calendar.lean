import Mathlib.Data.Int.Basic
import Mathlib.Tactic.IntervalCases

/-!
# Days and dates of the Gregorian calendar

Days are counted from the first of January of year 1, before which the
calendar is extended with the same rules. `dayNumber` gives the number of a
date, and `civilDate` reads a date from a number by cutting off cycles of 400,
100 and 4 years, then years, then months.

The two are inverse: every number is the number of its date
(`dayNumber_civilDate`), and every date that exists is the date of its number
(`civilDate_dayNumber`). The date of a number exists (`civilDate_exists`).
-/

set_option autoImplicit false

namespace DawnPatrol.Foundation.Calendar

/-- A leap year has a 29th of February. -/
def isLeap (year : ℤ) : Bool := year % 4 == 0 && (year % 100 != 0 || year % 400 == 0)

theorem isLeap_iff (year : ℤ) :
    isLeap year = true ↔ year % 4 = 0 ∧ (year % 100 ≠ 0 ∨ year % 400 = 0) := by
  simp [isLeap]

/-- Days of a common year before the first of the month with this index, where
January has index 0 and 12 stands for the end of the year. -/
def daysBefore : ℕ → ℤ
  | 0 => 0
  | 1 => 31
  | 2 => 59
  | 3 => 90
  | 4 => 120
  | 5 => 151
  | 6 => 181
  | 7 => 212
  | 8 => 243
  | 9 => 273
  | 10 => 304
  | 11 => 334
  | _ => 365

/-- A date of the calendar. -/
structure CivilDate where
  year : ℤ
  month : ℕ
  day : ℤ
  deriving DecidableEq, Repr

/-- Days of a month. -/
def daysIn (year : ℤ) (month : ℕ) : ℤ :=
  if month = 2 ∧ isLeap year then 29 else daysBefore month - daysBefore (month - 1)

/-- The dates that exist. -/
def CivilDate.Exists (date : CivilDate) : Prop :=
  1 ≤ date.month ∧ date.month ≤ 12 ∧ 1 ≤ date.day ∧ date.day ≤ daysIn date.year date.month

/-- The day number of the first of January. -/
def daysBeforeYear (year : ℤ) : ℤ :=
  365 * (year - 1) + (year - 1) / 4 - (year - 1) / 100 + (year - 1) / 400

/-- The day of the year on which a month starts, counting from 0. -/
def monthStart (year : ℤ) (month : ℕ) : ℤ :=
  daysBefore (month - 1) + if isLeap year ∧ 3 ≤ month then 1 else 0

/-- The number of a date. The day may lie outside its month. -/
def dayNumber (year : ℤ) (month : ℕ) (day : ℤ) : ℤ :=
  daysBeforeYear year + monthStart year month + (day - 1)

/-- The year of a day number, and the day within that year, counting from 0. -/
def yearAndDay (number : ℤ) : ℤ × ℤ :=
  let n400 := number / 146097
  let d400 := number % 146097
  -- the last cycle of 100 years has one leap day more, and 36524 would go into it four times
  let n100 := d400 / 36524 - d400 / 36524 / 4
  let d100 := d400 - 36524 * n100
  let n4 := d100 / 1461
  let d4 := d100 % 1461
  -- likewise the last year of a cycle of 4
  let n1 := d4 / 365 - d4 / 365 / 4
  (400 * n400 + 100 * n100 + 4 * n4 + n1 + 1, d4 - 365 * n1)

/-- The month and the day of the month of a day of a common year. Thirty-one
days to a month is at most one month too few. -/
def monthAndDay (day : ℤ) : ℕ × ℤ :=
  let month := (day / 31).toNat
  if day < daysBefore (month + 1) then (month + 1, day - daysBefore month + 1)
  else (month + 2, day - daysBefore (month + 1) + 1)

/-- The date with a day number. -/
def civilDate (number : ℤ) : CivilDate :=
  let (year, day) := yearAndDay number
  if isLeap year then
    if day = 59 then ⟨year, 2, 29⟩
    else
      let (month, dayOfMonth) := monthAndDay (if 59 < day then day - 1 else day)
      ⟨year, month, dayOfMonth⟩
  else
    let (month, dayOfMonth) := monthAndDay day
    ⟨year, month, dayOfMonth⟩

/-! ## Years -/

/-- The length of a year. -/
def yearLength (year : ℤ) : ℤ := if isLeap year then 366 else 365

/-- The parts of a year number: cycles of 400, 100 and 4 years, and a rest. -/
theorem daysBeforeYear_of_parts (a : ℤ) {b c e : ℤ} (hb : 0 ≤ b) (hb' : b ≤ 3) (hc : 0 ≤ c)
    (hc' : c ≤ 24) (he : 0 ≤ e) (he' : e ≤ 3) :
    daysBeforeYear (400 * a + 100 * b + 4 * c + e + 1) =
      146097 * a + 36524 * b + 1461 * c + 365 * e := by
  have by4 : (400 * a + 100 * b + 4 * c + e) / 4 = 100 * a + 25 * b + c := by omega
  have by100 : (400 * a + 100 * b + 4 * c + e) / 100 = 4 * a + b := by omega
  have by400 : (400 * a + 100 * b + 4 * c + e) / 400 = a := by omega
  simp only [daysBeforeYear, add_sub_cancel_right, by4, by100, by400]
  omega

theorem isLeap_of_parts (a : ℤ) {b c e : ℤ} (hb : 0 ≤ b) (hb' : b ≤ 3) (hc : 0 ≤ c) (hc' : c ≤ 24)
    (he : 0 ≤ e) (he' : e ≤ 3) :
    isLeap (400 * a + 100 * b + 4 * c + e + 1) = true ↔ e = 3 ∧ (c ≠ 24 ∨ b = 3) := by
  rw [isLeap_iff]
  omega

/-- The year of a day number starts on or before the day, and is long enough. -/
theorem yearAndDay_spec (number : ℤ) :
    daysBeforeYear (yearAndDay number).1 + (yearAndDay number).2 = number ∧
      0 ≤ (yearAndDay number).2 ∧
        (yearAndDay number).2 < yearLength (yearAndDay number).1 := by
  set n400 := number / 146097 with n400_eq
  set d400 := number % 146097 with d400_eq
  have d400_range : 0 ≤ d400 ∧ d400 < 146097 := by omega
  set n100 := d400 / 36524 - d400 / 36524 / 4 with n100_eq
  set d100 := d400 - 36524 * n100 with d100_eq
  have n100_range : 0 ≤ n100 ∧ n100 ≤ 3 := by omega
  have d100_range : 0 ≤ d100 ∧ (d100 < 36524 ∨ (n100 = 3 ∧ d100 = 36524)) := by omega
  set n4 := d100 / 1461 with n4_eq
  set d4 := d100 % 1461 with d4_eq
  have n4_range : 0 ≤ n4 ∧ n4 ≤ 24 := by omega
  have d4_range : 0 ≤ d4 ∧ d4 < 1461 := by omega
  set n1 := d4 / 365 - d4 / 365 / 4 with n1_eq
  have n1_range : 0 ≤ n1 ∧ n1 ≤ 3 := by omega
  have value : yearAndDay number =
      (400 * n400 + 100 * n100 + 4 * n4 + n1 + 1, d4 - 365 * n1) := rfl
  have start := daysBeforeYear_of_parts n400 n100_range.1 n100_range.2 n4_range.1
    n4_range.2 n1_range.1 n1_range.2
  have leap := isLeap_of_parts n400 n100_range.1 n100_range.2 n4_range.1 n4_range.2
    n1_range.1 n1_range.2
  rw [value]
  refine ⟨by simp only [start]; omega, by simp only; omega, ?_⟩
  simp only [yearLength]
  split
  · omega
  · rename_i common
    rw [leap] at common
    omega

/-- Years follow each other without a gap. -/
theorem daysBeforeYear_succ (year : ℤ) :
    daysBeforeYear (year + 1) = daysBeforeYear year + yearLength year := by
  simp only [daysBeforeYear, yearLength]
  split
  · rename_i leap
    rw [isLeap_iff] at leap
    omega
  · rename_i common
    rw [isLeap_iff] at common
    omega

theorem daysBeforeYear_mono {first second : ℤ} (le : first ≤ second) :
    daysBeforeYear first ≤ daysBeforeYear second := by
  simp only [daysBeforeYear]
  omega

/-- A day number lies in one year only. -/
theorem yearAndDay_unique (number : ℤ) {year day : ℤ} (sum : daysBeforeYear year + day = number)
    (nonneg : 0 ≤ day) (short : day < yearLength year) : yearAndDay number = (year, day) := by
  obtain ⟨total, least, most⟩ := yearAndDay_spec number
  have same : (yearAndDay number).1 = year := by
    rcases lt_trichotomy (yearAndDay number).1 year with less | same | more
    · have later := daysBeforeYear_mono (show (yearAndDay number).1 + 1 ≤ year by omega)
      rw [daysBeforeYear_succ] at later
      omega
    · exact same
    · have later := daysBeforeYear_mono (show year + 1 ≤ (yearAndDay number).1 by omega)
      rw [daysBeforeYear_succ] at later
      omega
  have day_eq : (yearAndDay number).2 = day := by rw [same] at total; omega
  exact Prod.ext same day_eq

/-! ## Months -/

/-- Months of a common year follow each other without a gap. -/
theorem daysBefore_lt {first second : ℕ} (lt : first < second) (le : second ≤ 12) :
    daysBefore first < daysBefore second := by
  have bound : first ≤ 11 := by omega
  interval_cases second <;> interval_cases first <;> decide

theorem daysBefore_mono {first second : ℕ} (le : first ≤ second) (bound : second ≤ 12) :
    daysBefore first ≤ daysBefore second := by
  rcases Nat.eq_or_lt_of_le le with rfl | lt
  · exact le_refl _
  · exact (daysBefore_lt lt bound).le

/-- Counting 31 days to a month finds the month of a day or the one before it. -/
theorem daysBefore_estimate {month : ℕ} (le : month ≤ 11) :
    daysBefore month ≤ 31 * (month : ℤ) ∧
      (month ≤ 10 → 31 * (month : ℤ) + 31 ≤ daysBefore (month + 2)) := by
  interval_cases month <;> decide

/-- The month of a day of a common year contains it. -/
theorem monthAndDay_spec (day : ℤ) (nonneg : 0 ≤ day) (short : day < 365) :
    1 ≤ (monthAndDay day).1 ∧ (monthAndDay day).1 ≤ 12 ∧
      daysBefore ((monthAndDay day).1 - 1) + ((monthAndDay day).2 - 1) = day ∧
        daysBefore ((monthAndDay day).1 - 1) ≤ day ∧ day < daysBefore (monthAndDay day).1 := by
  have month_le : (day / 31).toNat ≤ 11 := by omega
  have month_eq : ((day / 31).toNat : ℤ) = day / 31 := by omega
  obtain ⟨low, high⟩ := daysBefore_estimate month_le
  simp only [monthAndDay]
  split
  · rename_i inside
    simp only [Nat.add_sub_cancel]
    omega
  · rename_i outside
    have month_le' : (day / 31).toNat ≤ 10 := by
      by_contra beyond
      have last : (day / 31).toNat = 11 := by omega
      rw [last] at outside
      exact outside (by simpa [daysBefore] using short)
    have above := high month_le'
    have reduce : (day / 31).toNat + 2 - 1 = (day / 31).toNat + 1 := rfl
    simp only [reduce]
    omega

/-- A day of a common year lies in one month only. -/
theorem monthAndDay_unique {month : ℕ} {day : ℤ} (first : 1 ≤ month) (last : month ≤ 12)
    (least : 1 ≤ day) (most : day ≤ daysBefore month - daysBefore (month - 1)) :
    monthAndDay (daysBefore (month - 1) + (day - 1)) = (month, day) := by
  have start : 0 ≤ daysBefore (month - 1) := daysBefore_mono (Nat.zero_le _) (by omega)
  have finish : daysBefore month ≤ 365 := daysBefore_mono last le_rfl
  obtain ⟨first', last', sum, low, high⟩ :=
    monthAndDay_spec (daysBefore (month - 1) + (day - 1)) (by omega) (by omega)
  generalize monthAndDay (daysBefore (month - 1) + (day - 1)) = found at *
  obtain ⟨foundMonth, foundDay⟩ := found
  simp only at first' last' sum low high
  have same : foundMonth = month := by
    rcases Nat.lt_trichotomy foundMonth month with less | same | more
    · have := daysBefore_mono (show foundMonth ≤ month - 1 by omega) (by omega)
      omega
    · exact same
    · have := daysBefore_mono (show month ≤ foundMonth - 1 by omega) (by omega)
      omega
  subst same
  have day_eq : foundDay = day := by omega
  rw [day_eq]

/-! ## Dates -/

/-- The months of a day of the year in a leap year, other than the 29th of
February. After that day the year is one day ahead of a common year. -/
theorem monthAndDay_leap {day : ℤ} (nonneg : 0 ≤ day) (short : day < 366) (other : day ≠ 59) :
    let found := monthAndDay (if 59 < day then day - 1 else day)
    1 ≤ found.1 ∧ found.1 ≤ 12 ∧ 1 ≤ found.2 ∧
      found.2 ≤ daysBefore found.1 - daysBefore (found.1 - 1) ∧
        daysBefore (found.1 - 1) + (if 3 ≤ found.1 then 1 else 0) + (found.2 - 1) = day := by
  intro found
  obtain ⟨first, last, sum, low, high⟩ :=
    monthAndDay_spec (if 59 < day then day - 1 else day) (by split <;> omega)
      (by split <;> omega)
  change daysBefore (found.1 - 1) + (found.2 - 1) = _ at sum
  change daysBefore (found.1 - 1) ≤ _ at low
  change _ < daysBefore found.1 at high
  change 1 ≤ found.1 at first
  change found.1 ≤ 12 at last
  generalize found = place at *
  obtain ⟨month, dayOfMonth⟩ := place
  simp only at first last sum low high ⊢
  have after : 3 ≤ month ↔ 59 < day := by
    constructor
    · intro march
      have start : (59 : ℤ) ≤ daysBefore (month - 1) :=
        daysBefore_mono (show 2 ≤ month - 1 by omega) (by omega)
      split at low <;> omega
    · intro late
      by_contra early
      have finish : daysBefore month ≤ 59 := daysBefore_mono (show month ≤ 2 by omega) (by omega)
      rw [if_pos late] at high
      omega
  refine ⟨first, last, by omega, by omega, ?_⟩
  by_cases late : 59 < day
  · rw [if_pos (after.mpr late)]
    rw [if_pos late] at sum
    omega
  · rw [if_neg (fun march => late (after.mp march))]
    rw [if_neg late] at sum
    omega

/-- The three shapes of the date of a number: the 29th of February, another day
of a leap year, and a day of a common year. -/
theorem civilDate_spec (number : ℤ) :
    (civilDate number).Exists ∧
      dayNumber (civilDate number).year (civilDate number).month (civilDate number).day =
        number := by
  obtain ⟨total, least, most⟩ := yearAndDay_spec number
  simp only [civilDate]
  generalize yearAndDay number = found at *
  obtain ⟨year, day⟩ := found
  simp only [yearLength] at total least most ⊢
  by_cases leap : isLeap year = true
  · simp only [leap, ↓reduceIte] at most ⊢
    by_cases leapDay : day = 59
    · simp only [leapDay, ↓reduceIte]
      refine ⟨⟨by simp, by simp, by simp, by simp [daysIn, leap]⟩, ?_⟩
      simp only [dayNumber, monthStart, daysBefore, leap]
      norm_num
      omega
    · simp only [leapDay, ↓reduceIte]
      obtain ⟨first, last, one, inMonth, sum⟩ := monthAndDay_leap least most leapDay
      generalize monthAndDay (if 59 < day then day - 1 else day) = place at *
      obtain ⟨month, dayOfMonth⟩ := place
      simp only at first last one inMonth sum ⊢
      refine ⟨⟨first, last, one, ?_⟩, ?_⟩
      · simp only [daysIn, leap, and_true]
        split
        · rename_i february
          subst february
          exact inMonth.trans (by decide)
        · exact inMonth
      · simp only [dayNumber, monthStart, leap, true_and]
        omega
  · have common : isLeap year = false := by simpa using leap
    simp only [common, Bool.false_eq_true, ↓reduceIte] at most ⊢
    obtain ⟨first, last, sum, low, high⟩ := monthAndDay_spec _ least most
    generalize monthAndDay day = place at *
    obtain ⟨month, dayOfMonth⟩ := place
    simp only at first last sum low high ⊢
    refine ⟨⟨first, last, by simp only; omega, ?_⟩, ?_⟩
    · simp only [daysIn, common]
      simp
      omega
    · simp only [dayNumber, monthStart, common]
      simp
      omega

/-- **Numbering the date of a number gives the number back.** -/
theorem dayNumber_civilDate (number : ℤ) :
    dayNumber (civilDate number).year (civilDate number).month (civilDate number).day =
      number :=
  (civilDate_spec number).2

theorem civilDate_exists (number : ℤ) : (civilDate number).Exists := (civilDate_spec number).1

/-- A month has at most 31 days. -/
theorem daysIn_le (year : ℤ) {month : ℕ} (last : month ≤ 12) : daysIn year month ≤ 31 := by
  have common : daysBefore month - daysBefore (month - 1) ≤ 31 := by
    interval_cases month <;> decide
  simp only [daysIn]
  split <;> omega

/-- The day of the year of a date that exists lies in its year. -/
theorem monthStart_range {date : CivilDate} (real : date.Exists) :
    0 ≤ monthStart date.year date.month + (date.day - 1) ∧
      monthStart date.year date.month + (date.day - 1) < yearLength date.year := by
  obtain ⟨first, last, one, inMonth⟩ := real
  have start : 0 ≤ daysBefore (date.month - 1) := daysBefore_mono (Nat.zero_le _) (by omega)
  have finish : daysBefore date.month ≤ 365 := daysBefore_mono last le_rfl
  simp only [daysIn] at inMonth
  simp only [monthStart, yearLength]
  by_cases leap : isLeap date.year = true
  · simp only [leap, and_true, true_and, ↓reduceIte] at inMonth ⊢
    by_cases february : date.month = 2
    · simp only [february, ↓reduceIte] at inMonth
      simp only [february, daysBefore]
      norm_num
      omega
    · simp only [february, ↓reduceIte] at inMonth
      split <;> omega
  · have common : isLeap date.year = false := by simpa using leap
    simp only [common, Bool.false_eq_true, and_false, false_and, ↓reduceIte] at inMonth ⊢
    omega

/-- **Every date that exists is the date of its number.** -/
theorem civilDate_dayNumber {date : CivilDate} (real : date.Exists) :
    civilDate (dayNumber date.year date.month date.day) = date := by
  obtain ⟨low, high⟩ := monthStart_range real
  have split_year := yearAndDay_unique
    (dayNumber date.year date.month date.day) (by simp only [dayNumber]; omega) low high
  obtain ⟨first, last, one, inMonth⟩ := real
  obtain ⟨year, month, day⟩ := date
  simp only at *
  simp only [civilDate, split_year]
  simp only [daysIn] at inMonth
  by_cases leap : isLeap year = true
  · simp only [leap, and_true, ↓reduceIte, monthStart, true_and] at inMonth ⊢
    by_cases march : 3 ≤ month
    · have start : (59 : ℤ) ≤ daysBefore (month - 1) :=
        daysBefore_mono (show 2 ≤ month - 1 by omega) (by omega)
      have notFebruary : month ≠ 2 := by omega
      simp only [notFebruary, ↓reduceIte] at inMonth
      simp only [march, ↓reduceIte]
      rw [if_neg (by omega), if_pos (by omega)]
      have shifted : daysBefore (month - 1) + 1 + (day - 1) - 1 =
          daysBefore (month - 1) + (day - 1) := by omega
      rw [shifted, monthAndDay_unique first last one inMonth]
    · simp only [march, ↓reduceIte, add_zero]
      by_cases leapDay : month = 2 ∧ day = 29
      · obtain ⟨rfl, rfl⟩ := leapDay
        rfl
      · have short : day ≤ daysBefore month - daysBefore (month - 1) := by
          by_cases february : month = 2
          · subst february
            simp only [↓reduceIte] at inMonth
            have notLast : day ≠ 29 := fun last => leapDay ⟨rfl, last⟩
            simp only [daysBefore]
            omega
          · simpa only [february, ↓reduceIte] using inMonth
        have early : daysBefore month ≤ 59 := daysBefore_mono (show month ≤ 2 by omega) (by omega)
        rw [if_neg (by omega), if_neg (by omega), monthAndDay_unique first last one short]
  · have common : isLeap year = false := by simpa using leap
    simp only [common, Bool.false_eq_true, and_false, ↓reduceIte] at inMonth
    simp only [common, Bool.false_eq_true, ↓reduceIte, monthStart, false_and, add_zero]
    rw [monthAndDay_unique first last one inMonth]

end DawnPatrol.Foundation.Calendar
