import Linea.IsoTimes

/-! The arithmetic of the datetime node. Seconds to weeks are lengths of time; months and years are
added to the fields of a date in UTC, and a day that the month does not have goes over into the next
month. Sums of times stay within the integers that a number of the language holds exactly. -/
namespace Linea.DatetimeNode
open Linea.Calendar Linea.IsoTimes

/-- A valid `Date`: a hundred million days around 1970. -/
structure Date where
  time : ℤ
  clipped : |time| ≤ 8640000000000000
  deriving DecidableEq

/-- `new Date(time)`, without an invalid one. -/
def newDate (time : ℤ) : Option Date :=
  if clipped : |time| ≤ 8640000000000000 then some { time, clipped } else none

inductive DatetimeUnit
  | seconds
  | minutes
  | hours
  | days
  | weeks
  | months
  | years
  deriving DecidableEq, Repr

def DatetimeUnit.name : DatetimeUnit → String
  | .seconds => "seconds"
  | .minutes => "minutes"
  | .hours => "hours"
  | .days => "days"
  | .weeks => "weeks"
  | .months => "months"
  | .years => "years"

/-- `MS_PER_UNIT` -/
def msPerUnit : DatetimeUnit → Option ℤ
  | .seconds => some 1000
  | .minutes => some 60000
  | .hours => some 3600000
  | .days => some 86400000
  | .weeks => some 604800000
  | .months => none
  | .years => none

def unknownUnit (unit : DatetimeUnit) : String :=
  let name := unit.name
  s!"Datetime node: unknown unit \"{name}\""

/-- `Date.prototype.setUTCMonth` -/
def setUTCMonth (date : Date) (month : ℤ) : Option Date :=
  newDate (makeDate (makeDay (yearFromTime date.time) month (dateFromTime date.time))
    (timeWithinDay date.time))

/-- `Date.prototype.setUTCFullYear` -/
def setUTCFullYear (date : Date) (year : ℤ) : Option Date :=
  newDate (makeDate (makeDay year (monthFromTime date.time) (dateFromTime date.time))
    (timeWithinDay date.time))

/-- Of the invalid date, `none`. -/
def addToDate (date : Date) (unit : DatetimeUnit) (amount : ℤ) : Except String (Option Date) :=
  if unit = .months then .ok (setUTCMonth date (monthFromTime date.time + amount))
  else if unit = .years then .ok (setUTCFullYear date (yearFromTime date.time + amount))
  else
    match msPerUnit unit with
    | none => .error (unknownUnit unit)
    | some msPerUnit => .ok (newDate (date.time + amount * msPerUnit))

/-- Months and years do not look at the day of the month. -/
def diffInUnit (startMs endMs : ℤ) (unit : DatetimeUnit) : Except String ℤ :=
  if unit = .months ∨ unit = .years then
    let totalMonths := (yearFromTime endMs - yearFromTime startMs) * 12 +
      (monthFromTime endMs - monthFromTime startMs)
    .ok (if unit = .years then totalMonths.tdiv 12 else totalMonths)
  else
    match msPerUnit unit with
    | none => .error (unknownUnit unit)
    | some msPerUnit => .ok ((endMs - startMs).tdiv msPerUnit)

inductive DatetimePart
  | year
  | month
  | day
  | hour
  | minute
  | second
  | dayOfWeek
  | dayOfYear
  deriving DecidableEq, Repr

/-- `Date.UTC(year, month, date)`, which takes a year below 100 for one of the twentieth century; `none`
is `NaN`. -/
def dateUTC (year month date : ℤ) : Option ℤ :=
  timeClip (makeDate (makeDay (if 0 ≤ year ∧ year ≤ 99 then 1900 + year else year) month date) 0)

def extractDatePart (date : Date) : DatetimePart → Option ℤ
  | .year => some (yearFromTime date.time)
  | .month => some (monthFromTime date.time + 1)
  | .day => some (dateFromTime date.time)
  | .hour => some (hourFromTime date.time)
  | .minute => some (minFromTime date.time)
  | .second => some (secFromTime date.time)
  | .dayOfWeek => some ((Calendar.day date.time + 4) % 7)
  | .dayOfYear => (dateUTC (yearFromTime date.time) 0 1).map fun start =>
      (date.time - start) / 86400000 + 1

/-! ## The node -/

section Node
variable (parse : String → Option Date)

/-- `parse` is what `new Date` makes of a text. -/
def parseDate (value : Option String) (label : String) : Except String Date :=
  match value with
  | none => .error s!"Datetime node is missing \"{label}\""
  | some text =>
    if text = "" then .error s!"Datetime node is missing \"{label}\""
    else
      match parse text with
      | none => .error s!"Datetime node could not parse \"{label}\": \"{text}\""
      | some date => .ok date

/-- The operations that calculate; those that only format a date are left out. -/
inductive Operation
  | add
  | subtract
  | extractPart
  | difference
  deriving DecidableEq, Repr

structure DatetimeInput where
  operation : Operation
  date : Option String := none
  startDate : Option String := none
  endDate : Option String := none
  unit : Option DatetimeUnit := none
  amount : Option ℤ := none
  part : Option DatetimePart := none

inductive Output
  | text (result : List Char)
  | number (result : ℤ)
  deriving DecidableEq, Repr

/-- An upstream text is taken for the date when none is configured. -/
def primaryDate (parsed : DatetimeInput) (input : Option String) : Option String :=
  if parsed.date.getD "" = "" then input else parsed.date

/-- The schema of the output refuses `NaN`. -/
def execute (parsed : DatetimeInput) (input : Option String) : Except String Output :=
  match parsed.operation with
  | .add | .subtract => do
    let date ← parseDate parse (primaryDate parsed input) "date"
    match parsed.unit, parsed.amount with
    | none, _ => throw "Datetime node is missing \"unit\""
    | some _, none => throw "Datetime node is missing \"amount\""
    | some unit, some amount =>
      let result ← addToDate date unit (if parsed.operation = .subtract then -amount else amount)
      match result with
      | none => throw "Invalid time value"
      | some result => return .text (toISOString result.time)
  | .extractPart => do
    let date ← parseDate parse (primaryDate parsed input) "date"
    match parsed.part with
    | none => throw "Datetime node is missing \"part\""
    | some part =>
      match extractDatePart date part with
      | none => throw "Invalid input: expected number, received NaN"
      | some result => return .number result
  | .difference => do
    let start ← parseDate parse parsed.startDate "startDate"
    let last ← parseDate parse parsed.endDate "endDate"
    match parsed.unit with
    | none => throw "Datetime node is missing \"unit\""
    | some unit => return .number (← diffInUnit start.time last.time unit)

end Node

/-! ## Adding months and years -/

/-- What an amount of months or years is in months. -/
def monthsOf (unit : DatetimeUnit) (amount : ℤ) : Option ℤ :=
  match unit with
  | .months => some amount
  | .years => some (12 * amount)
  | _ => none

/-- The month that the amount leads to has the day of the month of the date. -/
def DayExists (unit : DatetimeUnit) (amount : ℤ) (date : Date) : Prop :=
  ∀ months ∈ monthsOf unit amount,
    dateFromTime date.time ≤ monthLength (monthOf date.time + months)

/-- The result is in the month that the amount leads to. -/
def Lands (unit : DatetimeUnit) (amount : ℤ) (date result : Date) : Prop :=
  match unit with
  | .months => monthOf result.time = monthOf date.time + amount
  | .years => yearFromTime result.time = yearFromTime date.time + amount ∧
      monthFromTime result.time = monthFromTime date.time
  | _ => True

lemma newDate_eq_some {t : ℤ} {date : Date} : newDate t = some date ↔ date.time = t := by
  unfold newDate
  constructor
  · intro h
    split at h
    · rw [← Option.some.inj h]
    · cases h
  · rintro rfl
    rw [dif_pos date.clipped]

/-- The time in the given month, at the day of the month and the time of day of another time. -/
def inMonth (t k : ℤ) : ℤ := makeDate (startOfMonth k + dateFromTime t - 1) (timeWithinDay t)

lemma inMonth_self (t : ℤ) : inMonth t (monthOf t) = t := by
  have hday : startOfMonth (monthOf t) + dateFromTime t - 1 = day t := by
    rw [dateFromTime_eq]
    omega
  rw [inMonth,hday,makeDate_day]

/-- Where the month has the day, that day of it. -/
lemma inMonth_exists {t k : ℤ} (h : dateFromTime t ≤ monthLength k) :
    monthOf (inMonth t k) = k ∧ dateFromTime (inMonth t k) = dateFromTime t := by
  have hdate := dateFromTime_bounds t
  have hday : day (inMonth t k) = startOfMonth k + dateFromTime t - 1 := day_makeDate _ _
  have hmonth : monthOf (inMonth t k) = k := by
    unfold monthLength at h
    refine monthOf_eq ?_ ?_ <;> omega
  refine ⟨hmonth,?_⟩
  rw [dateFromTime_eq,hmonth,hday]
  omega

lemma inMonth_again {t k : ℤ} (h : dateFromTime (inMonth t k) = dateFromTime t) (l : ℤ) :
    inMonth (inMonth t k) l = inMonth t l := by
  have htime : timeWithinDay (inMonth t k) = timeWithinDay t := timeWithinDay_makeDate _ _
  rw [inMonth,h,htime]
  rfl

/-- Where it does not, one of the first days of the next month. -/
lemma inMonth_overflow {t k : ℤ} (h : ¬ dateFromTime t ≤ monthLength k) :
    monthOf (inMonth t k) = k + 1 ∧ dateFromTime (inMonth t k) = dateFromTime t - monthLength k := by
  have hdate := dateFromTime_le t
  have hlength := monthLength_bounds k
  have hlength' := monthLength_bounds (k + 1)
  have hday : day (inMonth t k) = startOfMonth k + dateFromTime t - 1 := day_makeDate _ _
  have hmonth : monthOf (inMonth t k) = k + 1 := by
    unfold monthLength at h hlength hlength'
    refine monthOf_eq ?_ ?_ <;> omega
  refine ⟨hmonth,?_⟩
  rw [dateFromTime_eq,hmonth,hday]
  unfold monthLength
  omega

lemma addToDate_months {unit : DatetimeUnit} {amount months : ℤ}
    (h : monthsOf unit amount = some months) (date : Date) :
    addToDate date unit amount = .ok (newDate (inMonth date.time (monthOf date.time + months))) := by
  unfold monthsOf at h
  split at h
  · cases h
    have hmonth : 12 * yearFromTime date.time + (monthFromTime date.time + amount) =
        monthOf date.time + amount := by
      unfold monthOf
      omega
    rw [addToDate,if_pos rfl,setUTCMonth,makeDay_eq,hmonth]
    rfl
  · cases h
    have hmonth : 12 * (yearFromTime date.time + amount) + monthFromTime date.time =
        monthOf date.time + 12 * amount := by
      unfold monthOf
      omega
    rw [addToDate,if_neg (by decide),if_pos rfl,setUTCFullYear,makeDay_eq,hmonth]
    rfl
  · cases h

lemma addToDate_fixed {unit : DatetimeUnit} {amount : ℤ} (h : monthsOf unit amount = none) :
    ∃ ms, 0 < ms ∧ msPerUnit unit = some ms ∧ unit ≠ .months ∧ unit ≠ .years := by
  cases unit with
  | seconds => exact ⟨1000,by decide,rfl,by decide,by decide⟩
  | minutes => exact ⟨60000,by decide,rfl,by decide,by decide⟩
  | hours => exact ⟨3600000,by decide,rfl,by decide,by decide⟩
  | days => exact ⟨86400000,by decide,rfl,by decide,by decide⟩
  | weeks => exact ⟨604800000,by decide,rfl,by decide,by decide⟩
  | months => cases h
  | years => cases h

/-- The difference in months and years only looks at the months. -/
lemma diffInUnit_months {s t : ℤ} : diffInUnit s t .months = .ok (monthOf t - monthOf s) ∧
    diffInUnit s t .years = .ok ((monthOf t - monthOf s).tdiv 12) := by
  have htotal : (yearFromTime t - yearFromTime s) * 12 + (monthFromTime t - monthFromTime s) =
      monthOf t - monthOf s := by
    unfold monthOf
    omega
  constructor
  · rw [diffInUnit,if_pos (.inl rfl)]
    simp only [htotal]
    rfl
  · rw [diffInUnit,if_pos (.inr rfl)]
    simp only [htotal]
    rfl

lemma lands_iff {unit : DatetimeUnit} {amount months : ℤ} (h : monthsOf unit amount = some months)
    (date result : Date) :
    Lands unit amount date result ↔ monthOf result.time = monthOf date.time + months := by
  unfold monthsOf at h
  split at h
  · cases h
    rfl
  · cases h
    have hdate := monthFromTime_spec date.time
    have hresult := monthFromTime_spec result.time
    unfold Lands monthOf
    dsimp only
    omega
  · cases h

lemma monthsOf_neg {unit : DatetimeUnit} {amount months : ℤ} (h : monthsOf unit amount = some months) :
    monthsOf unit (-amount) = some (-months) := by
  unfold monthsOf at h ⊢
  split at h
  · cases h
    rfl
  · cases h
    exact congrArg some (by omega)
  · cases h

/-- The years of a difference in months, which are cut off towards zero. -/
lemma tdiv_overflow {amount : ℤ} : (12 * amount + 1).tdiv 12 = amount ↔ 0 ≤ amount := by
  rcases Int.lt_or_le amount 0 with h | h
  · have hneg : (12 * amount + 1).tdiv 12 = amount + 1 := by
      have heq : 12 * amount + 1 = -(12 * (-amount - 1) + 11) := by omega
      rw [heq,Int.neg_tdiv,Int.tdiv_eq_ediv_of_nonneg (by omega)]
      omega
    omega
  · rw [Int.tdiv_eq_ediv_of_nonneg (by omega)]
    omega

section Adding
variable {unit : DatetimeUnit} {amount : ℤ} {date result : Date}

/-- Where a day exists is where adding the amount and taking it away again comes back. -/
lemma returns_iff {months : ℤ} (hmonths : monthsOf unit amount = some months)
    (h : addToDate date unit amount = .ok (some result)) :
    addToDate result unit (-amount) = .ok (some date) ↔ DayExists unit amount date := by
  rw [addToDate_months hmonths,Except.ok.injEq,newDate_eq_some] at h
  have hexists : DayExists unit amount date ↔
      dateFromTime date.time ≤ monthLength (monthOf date.time + months) := by
    simp [DayExists,hmonths]
  rw [addToDate_months (monthsOf_neg hmonths),Except.ok.injEq,newDate_eq_some,hexists,h]
  by_cases hday : dateFromTime date.time ≤ monthLength (monthOf date.time + months)
  · obtain ⟨hmonth,hdate⟩ := inMonth_exists hday
    refine iff_of_true ?_ hday
    have hback : monthOf date.time + months + -months = monthOf date.time := by omega
    rw [hmonth,hback,inMonth_again hdate,inMonth_self]
  · obtain ⟨hmonth,hdate⟩ := inMonth_overflow hday
    refine iff_of_false (fun hback => ?_) hday
    have hlong := monthLength_bounds (monthOf date.time + months)
    have hlong' := monthLength_bounds (monthOf date.time + 1)
    have hle := dateFromTime_le date.time
    have hnext : monthOf date.time + months + 1 + -months = monthOf date.time + 1 := by omega
    rw [hmonth,hnext] at hback
    have hthere : dateFromTime (inMonth date.time (monthOf date.time + months)) ≤
        monthLength (monthOf date.time + 1) := by omega
    have hmonth' := (inMonth_exists hthere).1
    rw [← hback] at hmonth'
    omega

/-- Adding an amount to a date and what the difference says of it, where months are added. -/
lemma months_added {months : ℤ} (hmonths : monthsOf unit amount = some months)
    (h : addToDate date unit amount = .ok (some result)) :
    (DayExists unit amount date → monthOf result.time = monthOf date.time + months ∧
      dateFromTime result.time = dateFromTime date.time) ∧
    (¬ DayExists unit amount date → monthOf result.time = monthOf date.time + months + 1 ∧
      dateFromTime result.time =
        dateFromTime date.time - monthLength (monthOf date.time + months)) := by
  rw [addToDate_months hmonths,Except.ok.injEq,newDate_eq_some] at h
  have hexists : DayExists unit amount date ↔
      dateFromTime date.time ≤ monthLength (monthOf date.time + months) := by
    simp [DayExists,hmonths]
  rw [hexists,h]
  exact ⟨inMonth_exists,inMonth_overflow⟩

lemma diffInUnit_iff {months : ℤ} (hmonths : monthsOf unit amount = some months)
    (h : addToDate date unit amount = .ok (some result)) :
    diffInUnit date.time result.time unit = .ok amount ↔
      DayExists unit amount date ∨ (unit = .years ∧ 0 < amount) := by
  obtain ⟨hexists,hoverflow⟩ := months_added hmonths h
  have hown : amount = 0 → DayExists unit amount date := by
    rintro rfl months' hmonths'
    have hzero : months' = 0 := by
      unfold monthsOf at hmonths'
      split at hmonths'
      · exact (Option.some.inj hmonths').symm
      · exact (Option.some.inj hmonths').symm
      · cases hmonths'
    rw [hzero,Int.add_zero]
    exact (dateFromTime_bounds date.time).2
  unfold monthsOf at hmonths
  split at hmonths
  · cases hmonths
    rw [diffInUnit_months.1,Except.ok.injEq]
    by_cases hday : DayExists .months amount date
    · have hmonth := (hexists hday).1
      simp only [hday,true_or,iff_true]
      omega
    · have hmonth := (hoverflow hday).1
      simp only [hday,false_or,reduceCtorEq,false_and,iff_false]
      omega
  · cases hmonths
    rw [diffInUnit_months.2,Except.ok.injEq]
    by_cases hday : DayExists .years amount date
    · have hmonth := (hexists hday).1
      have htotal : monthOf result.time - monthOf date.time = 12 * amount := by omega
      rw [htotal,Int.mul_tdiv_cancel_left amount (by decide)]
      simp [hday]
    · have hmonth := (hoverflow hday).1
      have htotal : monthOf result.time - monthOf date.time = 12 * amount + 1 := by omega
      have hne : amount ≠ 0 := fun hzero => hday (hown hzero)
      rw [htotal,tdiv_overflow]
      simp only [hday,false_or,true_and]
      omega
  · cases hmonths

/-- Lengths of time are added and taken away as they are. -/
lemma fixed_added (hnone : monthsOf unit amount = none)
    (h : addToDate date unit amount = .ok (some result)) :
    diffInUnit date.time result.time unit = .ok amount ∧
      addToDate result unit (-amount) = .ok (some date) := by
  obtain ⟨ms,hpos,hms,hmonths,hyears⟩ := addToDate_fixed hnone
  rw [addToDate,if_neg hmonths,if_neg hyears,hms] at h
  rw [diffInUnit,if_neg (by simp [hmonths,hyears]),addToDate,if_neg hmonths,if_neg hyears,hms]
  simp only [Except.ok.injEq,newDate_eq_some] at h ⊢
  have hlength : result.time - date.time = amount * ms := by omega
  rw [hlength]
  exact ⟨Int.mul_tdiv_cancel amount hpos.ne',by rw [h,Int.neg_mul]; omega⟩

/-- What adding an amount of a unit to a date comes to. Where the month that the amount leads to does
not have the day of the month, the result is in the month after it. -/
theorem calendar_arithmetic (h : addToDate date unit amount = .ok (some result)) :
    (diffInUnit date.time result.time unit = .ok amount ↔
      DayExists unit amount date ∨ (unit = .years ∧ 0 < amount)) ∧
    (Lands unit amount date result ↔ DayExists unit amount date) ∧
    (addToDate result unit (-amount) = .ok (some date) ↔ DayExists unit amount date) ∧
    (¬ DayExists unit amount date → ∀ months ∈ monthsOf unit amount,
      monthOf result.time = monthOf date.time + months + 1 ∧ dateFromTime result.time =
        dateFromTime date.time - monthLength (monthOf date.time + months)) := by
  cases hmonths : monthsOf unit amount with
  | none =>
    have hexists : DayExists unit amount date := by simp [DayExists,hmonths]
    have hlands : Lands unit amount date result := by
      cases unit with
      | months => cases hmonths
      | years => cases hmonths
      | _ => trivial
    obtain ⟨hdiff,hback⟩ := fixed_added hmonths h
    exact ⟨iff_of_true hdiff (.inl hexists),iff_of_true hlands hexists,iff_of_true hback hexists,
      fun hnot => absurd hexists hnot⟩
  | some months =>
    obtain ⟨hexists,hoverflow⟩ := months_added hmonths h
    refine ⟨diffInUnit_iff hmonths h,?_,returns_iff hmonths h,?_⟩
    · rw [lands_iff hmonths]
      constructor
      · intro hlands
        by_contra hnot
        have hnext := (hoverflow hnot).1
        omega
      · intro hday
        exact (hexists hday).1
    · intro hnot months' hmonths'
      obtain rfl := Option.some.inj hmonths'
      exact hoverflow hnot

end Adding

/-- 31 January and 3 March 2026, 29 February 2020 and 1 March 2019. -/
def january31 : Date := { time := 1769817600000, clipped := by decide }
def march3 : Date := { time := 1772496000000, clipped := by decide }
def february29 : Date := { time := 1582934400000, clipped := by decide }
def march1 : Date := { time := 1551398400000, clipped := by decide }

/-- A month after 31 January is in March, and is two months away; the year before 29 February begins
a day later, and is no year away. -/
theorem calendar_overflows :
    addToDate january31 .months 1 = .ok (some march3) ∧
    diffInUnit january31.time march3.time .months = .ok 2 ∧
    ¬ Lands .months 1 january31 march3 ∧
    addToDate february29 .years (-1) = .ok (some march1) ∧
    diffInUnit february29.time march1.time .years = .ok 0 ∧
    ¬ Lands .years (-1) february29 march1 := by
  refine ⟨rfl,rfl,?_,rfl,rfl,?_⟩ <;> unfold Lands <;> decide

/-- 15 January and 15 February 2026. -/
theorem calendar_arithmetic_january :
    diffInUnit 1768435200000 1771113600000 .months = .ok 1 := by
  have hadd : addToDate { time := 1768435200000, clipped := by decide } .months 1 =
      .ok (some { time := 1771113600000, clipped := by decide }) := rfl
  refine (calendar_arithmetic hadd).1.mpr (.inl ?_)
  rintro _ ⟨⟩
  decide

/-! ## Parts of a date -/

/-- The parts that a date is put together from. -/
def dateParts : List DatetimePart := [.year,.month,.day,.hour,.minute,.second]

/-- The parts of a date say which second it is of, and the day of the year is counted from the first
of January as well as through the months before it. -/
structure PartsConsistent (date : Date) : Prop where
  determined : ∀ other : Date,
    (∀ part ∈ dateParts, extractDatePart other part = extractDatePart date part) →
      other.time / 1000 = date.time / 1000
  dayOfYear : ∃ n, extractDatePart date .dayOfYear = some n ∧
    n = Calendar.day date.time - dayFromYear (yearFromTime date.time) + 1 ∧ 1 ≤ n ∧ n ≤ 366 ∧
    n = ((List.range (monthFromTime date.time).toNat).map fun month : ℕ =>
      monthLength (12 * yearFromTime date.time + month)).sum + dateFromTime date.time

lemma parts_determined {date other : Date}
    (h : ∀ part ∈ dateParts, extractDatePart other part = extractDatePart date part) :
    other.time / 1000 = date.time / 1000 := by
  have hseconds : ∀ t : ℤ, t / 1000 =
      Calendar.day t * 86400 + hourFromTime t * 3600 + minFromTime t * 60 + secFromTime t := by
    intro t
    unfold Calendar.day hourFromTime minFromTime secFromTime msPerDay
    omega
  have hyear := Option.some.inj (h .year (by decide))
  have hmonth := Option.some.inj (h .month (by decide))
  have hdate := Option.some.inj (h .day (by decide))
  have hhour := Option.some.inj (h .hour (by decide))
  have hminute := Option.some.inj (h .minute (by decide))
  have hsecond := Option.some.inj (h .second (by decide))
  have hday : Calendar.day other.time = Calendar.day date.time := by
    have hindex : monthOf other.time = monthOf date.time := by
      unfold monthOf
      omega
    rw [dateFromTime_eq,dateFromTime_eq,hindex] at hdate
    omega
  rw [hseconds,hseconds,hday,hhour,hminute,hsecond]

lemma startOfMonth_year (y : ℤ) : startOfMonth (12 * y) = dayFromYear y := by
  have hstart := startOfMonth_eq y (le_refl 0) (by decide)
  rw [Int.add_zero] at hstart
  rw [hstart]
  exact Int.add_zero _

/-- The months before one take the days up to where it begins. -/
lemma sum_monthLength (k : ℤ) (n : ℕ) :
    ((List.range n).map fun month : ℕ => monthLength (k + month)).sum =
      startOfMonth (k + n) - startOfMonth k := by
  induction n with
  | zero => simp
  | succ n ih =>
    rw [List.range_succ,List.map_append,List.sum_append,ih]
    simp only [List.map_cons,List.map_nil,List.sum_singleton,monthLength]
    push_cast
    rw [← Int.add_assoc]
    omega

lemma dateUTC_eq (y : ℤ) : dateUTC y 0 1 =
    timeClip (dayFromYear (if 0 ≤ y ∧ y ≤ 99 then 1900 + y else y) * 86400000) := by
  rw [dateUTC,makeDay_eq,Int.add_zero,startOfMonth_year,makeDate,msPerDay]
  congr 1
  omega

/-- The parts of a date are consistent exactly if its year is no year of the first century, which
`Date.UTC` takes for one of the twentieth, and has all of its days among the dates. -/
theorem date_parts_iff (date : Date) : PartsConsistent date ↔
    ¬ (0 ≤ yearFromTime date.time ∧ yearFromTime date.time ≤ 99) ∧
      yearFromTime date.time ≠ -271821 := by
  obtain ⟨hfrom,hto⟩ := yearFromDay_spec (Calendar.day date.time)
  have hclipped := abs_le.mp date.clipped
  have hbounds := dayWithinYear_bounds date.time
  have hleap := inLeapYear_cases (yearFromTime date.time)
  rw [← yearFromTime] at hfrom hto
  have hdays : Calendar.day date.time = date.time / 86400000 := rfl
  constructor
  · rintro ⟨-,n,hn,-,hone,-,-⟩
    rw [extractDatePart,dateUTC_eq] at hn
    refine ⟨fun hcentury => ?_,fun hyear => ?_⟩
    · -- The year before 1900 is over before the year of the twentieth century begins.
      rw [if_pos hcentury] at hn
      obtain ⟨start,hstart,hvalue⟩ := Option.map_eq_some_iff.mp hn
      unfold timeClip at hstart
      split at hstart
      · have hlater := dayFromYear_le (show yearFromTime date.time + 1 ≤
          1900 + yearFromTime date.time by omega)
        have hends := Option.some.inj hstart
        omega
      · cases hstart
    · rw [if_neg (by omega),hyear] at hn
      have hearly : timeClip (dayFromYear (-271821) * 86400000) = none := by decide
      rw [hearly] at hn
      cases hn
  · rintro ⟨hcentury,hyear⟩
    have hfirst : -271821 ≤ yearFromTime date.time := by
      by_contra hlt
      have hle := dayFromYear_le (show yearFromTime date.time + 1 ≤ -271821 by omega)
      have hvalue : dayFromYear (-271821) = -100000109 := by decide
      omega
    have hbegin : -100000000 ≤ dayFromYear (yearFromTime date.time) := by
      have hle := dayFromYear_le (show -271820 ≤ yearFromTime date.time by omega)
      have hvalue : dayFromYear (-271820) = -99999744 := by decide
      omega
    have hstart : dateUTC (yearFromTime date.time) 0 1 =
        some (dayFromYear (yearFromTime date.time) * 86400000) := by
      rw [dateUTC_eq,if_neg hcentury,timeClip,if_pos (abs_le.mpr ⟨by omega,by omega⟩)]
    refine ⟨fun other => parts_determined,dayWithinYear date.time + 1,?_,rfl,?_,?_,?_⟩
    · rw [extractDatePart,hstart,Option.map_some]
      unfold dayWithinYear
      congr 1
      omega
    · omega
    · omega
    · have hmonth := monthFromTime_spec date.time
      rw [sum_monthLength,startOfMonth_year,Int.toNat_of_nonneg hmonth.1,dateFromTime_eq]
      unfold dayWithinYear
      have hindex : 12 * yearFromTime date.time + monthFromTime date.time = monthOf date.time := rfl
      rw [hindex]
      omega

/-- 1 January of the year 50, and 20 April of the year -271821. -/
def year50 : Date := { time := -60589296000000, clipped := by decide }
def firstDay : Date := { time := -8640000000000000, clipped := by decide }

/-- The one is day -693959 of its year, the other has no day of the year. -/
theorem date_parts_inconsistent :
    extractDatePart year50 .year = some 50 ∧
    extractDatePart year50 .dayOfYear = some (-693959) ∧
    extractDatePart firstDay .year = some (-271821) ∧ extractDatePart firstDay .dayOfYear = none ∧
    ¬ PartsConsistent year50 ∧ ¬ PartsConsistent firstDay := by
  refine ⟨by decide,by decide,by decide,by decide,?_,?_⟩
  · rintro ⟨-,n,hn,-,hone,-,-⟩
    have hvalue : extractDatePart year50 .dayOfYear = some (-693959) := by decide
    have hsame := Option.some.inj (hvalue.symm.trans hn)
    omega
  · rintro ⟨-,n,hn,-⟩
    have hvalue : extractDatePart firstDay .dayOfYear = none := by decide
    rw [hvalue] at hn
    cases hn

end Linea.DatetimeNode
