import Mathlib.Data.Int.Notation
import Mathlib.Tactic.IntervalCases

/-! The calendar of ECMAScript time values: milliseconds since the beginning of 1970 in UTC, in the
years and months of the Gregorian calendar, which goes on in both directions. Months are counted from
zero, days of a month from one. -/
namespace Linea.Calendar

def msPerDay : ℤ := 86400000

def day (t : ℤ) : ℤ := t / msPerDay

def timeWithinDay (t : ℤ) : ℤ := t % msPerDay

/-- The day on which a year begins. -/
def dayFromYear (y : ℤ) : ℤ :=
  365 * (y - 1970) + (y - 1969) / 4 - (y - 1901) / 100 + (y - 1601) / 400

/-- The days that a year has beyond 365. -/
def inLeapYear (y : ℤ) : ℤ := if y % 4 = 0 ∧ (y % 100 ≠ 0 ∨ y % 400 = 0) then 1 else 0

/-- The largest year that does not begin after the day, one off the mean of 146097 days in 400 years
at most. -/
def yearFromDay (d : ℤ) : ℤ :=
  let guess := 1970 + 400 * d / 146097
  if d < dayFromYear guess then guess - 1
  else if dayFromYear (guess + 1) ≤ d then guess + 1
  else guess

/-- The days of a year before one of its months. -/
def daysBefore (leap month : ℤ) : ℤ :=
  if month < 1 then 0
  else if month < 2 then 31
  else if month < 3 then 59 + leap
  else if month < 4 then 90 + leap
  else if month < 5 then 120 + leap
  else if month < 6 then 151 + leap
  else if month < 7 then 181 + leap
  else if month < 8 then 212 + leap
  else if month < 9 then 243 + leap
  else if month < 10 then 273 + leap
  else if month < 11 then 304 + leap
  else if month < 12 then 334 + leap
  else 365 + leap

/-- The month of a day of the year. -/
def monthFromDay (leap dayWithinYear : ℤ) : ℤ :=
  if dayWithinYear < 31 then 0
  else if dayWithinYear < 59 + leap then 1
  else if dayWithinYear < 90 + leap then 2
  else if dayWithinYear < 120 + leap then 3
  else if dayWithinYear < 151 + leap then 4
  else if dayWithinYear < 181 + leap then 5
  else if dayWithinYear < 212 + leap then 6
  else if dayWithinYear < 243 + leap then 7
  else if dayWithinYear < 273 + leap then 8
  else if dayWithinYear < 304 + leap then 9
  else if dayWithinYear < 334 + leap then 10
  else 11

def yearFromTime (t : ℤ) : ℤ := yearFromDay (day t)

def dayWithinYear (t : ℤ) : ℤ := day t - dayFromYear (yearFromTime t)

def monthFromTime (t : ℤ) : ℤ := monthFromDay (inLeapYear (yearFromTime t)) (dayWithinYear t)

def dateFromTime (t : ℤ) : ℤ :=
  dayWithinYear t - daysBefore (inLeapYear (yearFromTime t)) (monthFromTime t) + 1

/-- The day of a year, a month counted from the beginning of that year, and a day counted from the
beginning of that month. -/
def makeDay (year month date : ℤ) : ℤ :=
  let ym := year + month / 12
  let mn := month % 12
  dayFromYear ym + daysBefore (inLeapYear ym) mn + date - 1

def makeDate (day time : ℤ) : ℤ := day * msPerDay + time

/-- Time values are within a hundred million days of 1970. -/
def timeClip (t : ℤ) : Option ℤ := if |t| ≤ 8640000000000000 then some t else none

/-! ## Years -/

lemma inLeapYear_cases (y : ℤ) : inLeapYear y = 0 ∨ inLeapYear y = 1 := by
  unfold inLeapYear
  split
  · exact .inr rfl
  · exact .inl rfl

lemma dayFromYear_succ (y : ℤ) : dayFromYear (y + 1) = dayFromYear y + 365 + inLeapYear y := by
  unfold dayFromYear inLeapYear
  split <;> omega

lemma dayFromYear_le {y z : ℤ} (h : y ≤ z) : dayFromYear y ≤ dayFromYear z := by
  unfold dayFromYear
  omega

lemma yearFromDay_spec (d : ℤ) :
    dayFromYear (yearFromDay d) ≤ d ∧ d < dayFromYear (yearFromDay d + 1) := by
  unfold yearFromDay
  dsimp only
  split_ifs with hbefore hafter
  · refine ⟨?_,by rwa [Int.sub_add_cancel]⟩
    unfold dayFromYear at hbefore ⊢
    omega
  · refine ⟨hafter,?_⟩
    unfold dayFromYear at hafter ⊢
    omega
  · exact ⟨not_lt.mp hbefore,not_le.mp hafter⟩

lemma yearFromDay_eq {y d : ℤ} (hfrom : dayFromYear y ≤ d) (hto : d < dayFromYear (y + 1)) :
    yearFromDay d = y := by
  obtain ⟨hfrom',hto'⟩ := yearFromDay_spec d
  by_contra hne
  rcases lt_or_gt_of_ne hne with hlt | hgt
  · have := dayFromYear_le (show yearFromDay d + 1 ≤ y by omega)
    omega
  · have := dayFromYear_le (show y + 1 ≤ yearFromDay d by omega)
    omega

/-! ## Months

Months are numbered through from the beginning of the year 0, so that every one has a next one. -/

/-- The day on which a month begins. -/
def startOfMonth (k : ℤ) : ℤ := dayFromYear (k / 12) + daysBefore (inLeapYear (k / 12)) (k % 12)

def monthLength (k : ℤ) : ℤ := startOfMonth (k + 1) - startOfMonth k

/-- The number of the month that a time is in. -/
def monthOf (t : ℤ) : ℤ := 12 * yearFromTime t + monthFromTime t

lemma makeDay_eq (year month date : ℤ) :
    makeDay year month date = startOfMonth (12 * year + month) + date - 1 := by
  unfold makeDay startOfMonth
  have hyear : (12 * year + month) / 12 = year + month / 12 := by omega
  have hmonth : (12 * year + month) % 12 = month % 12 := by omega
  rw [hyear,hmonth]

lemma startOfMonth_eq (y : ℤ) {m : ℤ} (hfrom : 0 ≤ m) (hto : m < 12) :
    startOfMonth (12 * y + m) = dayFromYear y + daysBefore (inLeapYear y) m := by
  have hyear : (12 * y + m) / 12 = y := by omega
  have hmonth : (12 * y + m) % 12 = m := by omega
  rw [startOfMonth,hyear,hmonth]

/-- A month ends where the next one begins, in the next year if it is the last one. -/
lemma startOfMonth_succ (y : ℤ) {m : ℤ} (hfrom : 0 ≤ m) (hto : m < 12) :
    startOfMonth (12 * y + m + 1) = dayFromYear y + daysBefore (inLeapYear y) (m + 1) := by
  rcases Int.lt_or_le m 11 with hlt | hle
  · rw [Int.add_assoc,startOfMonth_eq y (by omega) (by omega)]
  · obtain rfl : m = 11 := by omega
    have hnext : 12 * y + 11 + 1 = 12 * (y + 1) + 0 := by omega
    have hall : daysBefore (inLeapYear y) (11 + 1) = 365 + inLeapYear y := rfl
    have hnone : daysBefore (inLeapYear (y + 1)) 0 = 0 := rfl
    rw [hnext,startOfMonth_eq (y + 1) (le_refl 0) (by decide),dayFromYear_succ,hall,hnone]
    omega

lemma daysBefore_succ {leap m : ℤ} (hleap : leap = 0 ∨ leap = 1) (hfrom : 0 ≤ m) (hto : m < 12) :
    28 ≤ daysBefore leap (m + 1) - daysBefore leap m ∧
      daysBefore leap (m + 1) - daysBefore leap m ≤ 31 := by
  rcases hleap with rfl | rfl <;> interval_cases m <;> decide

lemma monthLength_bounds (k : ℤ) : 28 ≤ monthLength k ∧ monthLength k ≤ 31 := by
  have hfrom : 0 ≤ k % 12 := by omega
  have hto : k % 12 < 12 := by omega
  have hlength := daysBefore_succ (inLeapYear_cases (k / 12)) hfrom hto
  have hk : k = 12 * (k / 12) + k % 12 := by omega
  rw [monthLength,hk,startOfMonth_succ _ hfrom hto,startOfMonth_eq _ hfrom hto]
  omega

lemma startOfMonth_lt {k l : ℤ} (h : k < l) : startOfMonth k < startOfMonth l := by
  obtain ⟨n,rfl⟩ : ∃ n : ℕ, l = k + 1 + n := ⟨(l - k - 1).toNat,by omega⟩
  clear h
  induction n with
  | zero =>
    have hlength := (monthLength_bounds k).1
    unfold monthLength at hlength
    rw [Nat.cast_zero,Int.add_zero]
    omega
  | succ n ih =>
    have hlength := (monthLength_bounds (k + 1 + n)).1
    unfold monthLength at hlength
    rw [Nat.cast_succ,← Int.add_assoc]
    omega

lemma startOfMonth_le {k l : ℤ} (h : k ≤ l) : startOfMonth k ≤ startOfMonth l := by
  rcases h.lt_or_eq with h | rfl
  · exact (startOfMonth_lt h).le
  · exact le_refl _

/-- The month of a day has begun and has not ended. -/
lemma monthFromDay_spec {leap d m : ℤ} (hfrom : 0 ≤ d) (hto : d < 365 + leap)
    (hm : monthFromDay leap d = m) :
    0 ≤ m ∧ m < 12 ∧ daysBefore leap m ≤ d ∧ d < daysBefore leap (m + 1) := by
  unfold monthFromDay at hm
  -- A month that has ended before the day is where the next one begins.
  iterate 11
    rcases ite_eq_iff.mp hm with ⟨hends,rfl⟩ | ⟨hends,hm⟩
    · exact ⟨by decide,by decide,hfrom,hends⟩
    replace hfrom := not_lt.mp hends
  subst hm
  exact ⟨by decide,by decide,hfrom,hto⟩

lemma dayWithinYear_bounds (t : ℤ) :
    0 ≤ dayWithinYear t ∧ dayWithinYear t < 365 + inLeapYear (yearFromTime t) := by
  obtain ⟨hfrom,hto⟩ := yearFromDay_spec (day t)
  rw [dayFromYear_succ] at hto
  unfold dayWithinYear yearFromTime
  omega

lemma monthFromTime_spec (t : ℤ) : 0 ≤ monthFromTime t ∧ monthFromTime t < 12 ∧
    daysBefore (inLeapYear (yearFromTime t)) (monthFromTime t) ≤ dayWithinYear t ∧
    dayWithinYear t < daysBefore (inLeapYear (yearFromTime t)) (monthFromTime t + 1) := by
  obtain ⟨hfrom,hto⟩ := dayWithinYear_bounds t
  exact monthFromDay_spec hfrom hto rfl

lemma monthOf_ediv (t : ℤ) : monthOf t / 12 = yearFromTime t := by
  have hmonth := monthFromTime_spec t
  unfold monthOf
  omega

lemma monthOf_emod (t : ℤ) : monthOf t % 12 = monthFromTime t := by
  have hmonth := monthFromTime_spec t
  unfold monthOf
  omega

lemma startOfMonth_monthOf (t : ℤ) : startOfMonth (monthOf t) =
    dayFromYear (yearFromTime t) + daysBefore (inLeapYear (yearFromTime t)) (monthFromTime t) := by
  have hmonth := monthFromTime_spec t
  exact startOfMonth_eq _ hmonth.1 hmonth.2.1

lemma startOfMonth_next (t : ℤ) : startOfMonth (monthOf t + 1) =
    dayFromYear (yearFromTime t) + daysBefore (inLeapYear (yearFromTime t)) (monthFromTime t + 1) := by
  have hmonth := monthFromTime_spec t
  exact startOfMonth_succ _ hmonth.1 hmonth.2.1

/-- A time is in the month that has begun and has not ended. -/
lemma monthOf_spec (t : ℤ) :
    startOfMonth (monthOf t) ≤ day t ∧ day t < startOfMonth (monthOf t + 1) := by
  obtain ⟨-,-,hbegun,hends⟩ := monthFromTime_spec t
  rw [startOfMonth_monthOf,startOfMonth_next]
  unfold dayWithinYear at hbegun hends
  omega

lemma monthOf_eq {t k : ℤ} (hfrom : startOfMonth k ≤ day t) (hto : day t < startOfMonth (k + 1)) :
    monthOf t = k := by
  obtain ⟨hfrom',hto'⟩ := monthOf_spec t
  by_contra hne
  rcases lt_or_gt_of_ne hne with hlt | hgt
  · have hle := startOfMonth_le (show monthOf t + 1 ≤ k by omega)
    omega
  · have hle := startOfMonth_le (show k + 1 ≤ monthOf t by omega)
    omega

lemma dateFromTime_eq (t : ℤ) : dateFromTime t = day t - startOfMonth (monthOf t) + 1 := by
  rw [startOfMonth_monthOf,dateFromTime,dayWithinYear]
  omega

lemma dateFromTime_bounds (t : ℤ) : 1 ≤ dateFromTime t ∧ dateFromTime t ≤ monthLength (monthOf t) := by
  have hspec := monthOf_spec t
  rw [dateFromTime_eq,monthLength]
  omega

@[simp] lemma day_makeDate (d t : ℤ) : day (makeDate d (timeWithinDay t)) = d := by
  unfold day makeDate timeWithinDay msPerDay
  omega

@[simp] lemma timeWithinDay_makeDate (d t : ℤ) :
    timeWithinDay (makeDate d (timeWithinDay t)) = timeWithinDay t := by
  unfold makeDate timeWithinDay msPerDay
  omega

lemma makeDate_day (t : ℤ) : makeDate (day t) (timeWithinDay t) = t := by
  unfold day makeDate timeWithinDay msPerDay
  omega

/-- The fields of a time make its day. -/
lemma makeDay_fields (t : ℤ) :
    makeDay (yearFromTime t) (monthFromTime t) (dateFromTime t) = day t := by
  rw [makeDay_eq,dateFromTime_eq,monthOf]
  omega

end Linea.Calendar
