import Linea.Calendar
import Linea.FixedTexts

/-! Times as texts: what `Date.prototype.toISOString` writes, what `z.iso.datetime({ offset: true })`
accepts, and the date that `new Date` makes of it. -/
namespace Linea.IsoTimes
open Linea.Calendar Linea.FixedTexts

def hourFromTime (t : ℤ) : ℤ := t / 3600000 % 24

def minFromTime (t : ℤ) : ℤ := t / 60000 % 60

def secFromTime (t : ℤ) : ℤ := t / 1000 % 60

def msFromTime (t : ℤ) : ℤ := t % 1000

/-- Years out of four digits have a sign and six digits. -/
def isoYear (year : ℤ) : List Char :=
  if 0 ≤ year ∧ year ≤ 9999 then pad 10 4 year.toNat
  else (if year < 0 then '-' else '+') :: pad 10 6 year.natAbs

/-- `YYYY-MM-DDTHH:mm:ss.sssZ` -/
def toISOString (t : ℤ) : List Char :=
  isoYear (yearFromTime t) ++
    '-' :: (pad 10 2 (monthFromTime t + 1).toNat ++ '-' :: (pad 10 2 (dateFromTime t).toNat ++
      'T' :: (pad 10 2 (hourFromTime t).toNat ++ ':' :: (pad 10 2 (minFromTime t).toNat ++
        ':' :: (pad 10 2 (secFromTime t).toNat ++ '.' :: (pad 10 3 (msFromTime t).toNat ++ ['Z']))))))

/-! ## Reading -/

structure DateTime where
  year : ℕ
  month : ℕ
  date : ℕ
  hour : ℕ
  minute : ℕ
  second : ℕ := 0
  millisecond : ℕ := 0
  /-- Minutes ahead of UTC. -/
  offset : ℤ
  deriving DecidableEq, Repr

def readSign (sign : Char) : List Char → Option (List Char)
  | [] => none
  | c :: text => if c = sign then some text else none

/-- `([01]\d|2[0-3]):[0-5]\d` -/
def readHourMinute (text : List Char) : Option (ℕ × ℕ × List Char) := do
  let (hour,text) ← readNumber 2 0 text
  let text ← readSign ':' text
  let (minute,text) ← readNumber 2 0 text
  if hour < 24 ∧ minute < 60 then some (hour,minute,text) else none

/-- `(:[0-5]\d(\.\d+)?)?`, of the fraction its first three digits. -/
def readSeconds (text : List Char) : Option (ℕ × ℕ × List Char) :=
  match text with
  | ':' :: text => do
    let (second,text) ← readNumber 2 0 text
    if second < 60 then
      match text with
      | '.' :: text =>
        let fraction := text.takeWhile Char.isDigit
        if fraction = [] then none
        else do
          let (millisecond,_) ← readNumber 3 0 ((fraction ++ ['0','0']).take 3)
          some (second,millisecond,text.dropWhile Char.isDigit)
      | text => some (second,0,text)
    else none
  | text => some (0,0,text)

/-- `Z|[+-]([01]\d|2[0-3]):[0-5]\d` up to the end of the text. -/
def readZone : List Char → Option ℤ
  | ['Z'] => some 0
  | sign :: text =>
    if sign = '+' ∨ sign = '-' then
      match readHourMinute text with
      | some (hour,minute,[]) =>
        some (if sign = '-' then -(60 * hour + minute : ℤ) else 60 * hour + minute)
      | _ => none
    else none
  | [] => none

/-- The regular expression of `z.iso.datetime({ offset: true })`, which knows the lengths of months. -/
def readDateTime (text : List Char) : Option DateTime := do
  let (year,text) ← readNumber 4 0 text
  let text ← readSign '-' text
  let (month,text) ← readNumber 2 0 text
  let text ← readSign '-' text
  let (date,text) ← readNumber 2 0 text
  if 1 ≤ month ∧ month ≤ 12 ∧ 1 ≤ date ∧ date ≤ monthLength (12 * year + month - 1) then
    let text ← readSign 'T' text
    let (hour,minute,text) ← readHourMinute text
    let (second,millisecond,text) ← readSeconds text
    let offset ← readZone text
    some { year, month, date, hour, minute, second, millisecond, offset }
  else none

def timestampSchema (text : List Char) : Bool := (readDateTime text).isSome

def DateTime.time (d : DateTime) : ℤ :=
  makeDate (makeDay d.year (d.month - 1) d.date)
    (3600000 * d.hour + 60000 * d.minute + 1000 * d.second + d.millisecond) - 60000 * d.offset

/-- `new Date(text)` of a text that the schema accepts. -/
def newDate (text : List Char) : Option ℤ := (readDateTime text).map DateTime.time

/-- A time whose year is written in four digits. -/
def FourDigitYear (t : ℤ) : Prop := 0 ≤ yearFromTime t ∧ yearFromTime t ≤ 9999

instance (t : ℤ) : Decidable (FourDigitYear t) := inferInstanceAs (Decidable (_ ∧ _))

/-! ## Reading back -/

/-- The fields of a time, in UTC. -/
def fields (t : ℤ) : DateTime :=
  { year := (yearFromTime t).toNat
    month := (monthFromTime t + 1).toNat
    date := (dateFromTime t).toNat
    hour := (hourFromTime t).toNat
    minute := (minFromTime t).toNat
    second := (secFromTime t).toNat
    millisecond := (msFromTime t).toNat
    offset := 0 }

variable {t : ℤ}

lemma dateFromTime_le (t : ℤ) : dateFromTime t ≤ 31 :=
  (dateFromTime_bounds t).2.trans (monthLength_bounds _).2

lemma fields_time (h : FourDigitYear t) : (fields t).time = t := by
  obtain ⟨hyear,-⟩ := h
  have hmonth := monthFromTime_spec t
  have hdate := dateFromTime_bounds t
  have hday : makeDay (fields t).year ((fields t).month - 1) (fields t).date = day t := by
    have hy : ((yearFromTime t).toNat : ℤ) = yearFromTime t := Int.toNat_of_nonneg hyear
    have hm : (((monthFromTime t + 1).toNat : ℤ) - 1) = monthFromTime t := by omega
    have hd : ((dateFromTime t).toNat : ℤ) = dateFromTime t := by omega
    change makeDay ((yearFromTime t).toNat : ℤ) (((monthFromTime t + 1).toNat : ℤ) - 1)
      ((dateFromTime t).toNat : ℤ) = day t
    rw [hy,hm,hd,makeDay_fields]
  rw [DateTime.time,hday]
  change makeDate (day t) (3600000 * ((t / 3600000 % 24).toNat : ℤ) +
    60000 * ((t / 60000 % 60).toNat : ℤ) + 1000 * ((t / 1000 % 60).toNat : ℤ) +
      ((t % 1000).toNat : ℤ)) - 60000 * 0 = t
  unfold makeDate day msPerDay
  omega

lemma readSign_cons (c : Char) (text : List Char) : readSign c (c :: text) = some text := if_pos rfl

/-- The fields of a time with a year of four digits are within their widths. -/
lemma field_bounds (h : FourDigitYear t) :
    (yearFromTime t).toNat < 10 ^ 4 ∧ (monthFromTime t + 1).toNat < 10 ^ 2 ∧
      (dateFromTime t).toNat < 10 ^ 2 ∧ (hourFromTime t).toNat < 24 ∧ (minFromTime t).toNat < 60 ∧
      (secFromTime t).toNat < 60 ∧ (msFromTime t).toNat < 10 ^ 3 := by
  have hmonth := monthFromTime_spec t
  have hdate := dateFromTime_le t
  obtain ⟨hfrom,hto⟩ := h
  unfold hourFromTime minFromTime secFromTime msFromTime
  refine ⟨?_,?_,?_,?_,?_,?_,?_⟩ <;> omega

lemma readHourMinute_pad {hour minute : ℕ} (hhour : hour < 24) (hminute : minute < 60)
    (text : List Char) :
    readHourMinute (pad 10 2 hour ++ ':' :: (pad 10 2 minute ++ text)) = some (hour,minute,text) := by
  have hhour' : hour < 10 ^ 2 := by omega
  have hminute' : minute < 10 ^ 2 := by omega
  simp [readHourMinute,readNumber_pad hhour',readNumber_pad hminute',readSign_cons,hhour,hminute]

lemma readSeconds_pad {second millisecond : ℕ} (hsecond : second < 60)
    (hmillisecond : millisecond < 10 ^ 3) :
    readSeconds (':' :: (pad 10 2 second ++ '.' :: (pad 10 3 millisecond ++ ['Z']))) =
      some (second,millisecond,['Z']) := by
  have hsecond' : second < 10 ^ 2 := by omega
  have hdigits : ∀ c ∈ pad 10 3 millisecond, c.isDigit = true := pad_digits
  have htake : (pad 10 3 millisecond ++ ['Z']).takeWhile Char.isDigit = pad 10 3 millisecond := by
    rw [List.takeWhile_append_of_pos hdigits]
    simp
  have hdrop : (pad 10 3 millisecond ++ ['Z']).dropWhile Char.isDigit = ['Z'] := by
    rw [List.dropWhile_append_of_pos hdigits]
    rfl
  have hlength : (pad 10 3 millisecond).length = 3 := length_pad 10 3 millisecond
  have hsome : pad 10 3 millisecond ≠ [] := by
    intro hnone
    rw [hnone] at hlength
    cases hlength
  have hread := readNumber_pad hmillisecond []
  rw [List.append_nil] at hread
  have hthree : (pad 10 3 millisecond ++ ['0','0']).take 3 = pad 10 3 millisecond := by
    rw [List.take_append_of_le_length hlength.ge,List.take_of_length_le hlength.le]
  simp only [readSeconds,readNumber_pad hsecond',Option.bind_eq_bind,Option.bind_some,
    if_pos hsecond,htake,hdrop,if_neg hsome,hthree,hread]

/-- A time whose year has four digits is read back from its text. -/
lemma readDateTime_toISOString (h : FourDigitYear t) :
    readDateTime (toISOString t) = some (fields t) := by
  obtain ⟨hyear,hmonth,hdate,hhour,hminute,hsecond,hmillisecond⟩ := field_bounds h
  have hmonths := monthFromTime_spec t
  have hdates := dateFromTime_bounds t
  have hvalid : 1 ≤ (monthFromTime t + 1).toNat ∧ (monthFromTime t + 1).toNat ≤ 12 ∧
      1 ≤ (dateFromTime t).toNat ∧ ((dateFromTime t).toNat : ℤ) ≤
        monthLength (12 * ((yearFromTime t).toNat : ℤ) + ((monthFromTime t + 1).toNat : ℤ) - 1) := by
    obtain ⟨hfrom,-⟩ := h
    have hindex : 12 * ((yearFromTime t).toNat : ℤ) + ((monthFromTime t + 1).toNat : ℤ) - 1 =
        monthOf t := by
      unfold monthOf
      omega
    rw [hindex]
    omega
  have hiso : isoYear (yearFromTime t) = pad 10 4 (yearFromTime t).toNat := if_pos h
  unfold readDateTime toISOString
  rw [hiso,readNumber_pad hyear]
  simp only [Option.bind_eq_bind,Option.bind_some,readSign_cons]
  rw [readNumber_pad hmonth]
  simp only [Option.bind_some,readSign_cons]
  rw [readNumber_pad hdate]
  simp only [Option.bind_some,if_pos hvalid,readSign_cons]
  rw [readHourMinute_pad hhour hminute]
  simp only [Option.bind_some]
  rw [readSeconds_pad hsecond hmillisecond]
  rfl

lemma newDate_toISOString (h : FourDigitYear t) : newDate (toISOString t) = some t := by
  rw [newDate,readDateTime_toISOString h,Option.map_some,fields_time h]

/-- The schema refuses the text of any other year. -/
lemma timestampSchema_iff : timestampSchema (toISOString t) = true ↔ FourDigitYear t := by
  constructor
  · intro h
    by_contra hyear
    have hiso : isoYear (yearFromTime t) =
        (if yearFromTime t < 0 then '-' else '+') :: pad 10 6 (yearFromTime t).natAbs := if_neg hyear
    unfold timestampSchema readDateTime toISOString at h
    rw [hiso] at h
    split at h <;> exact Bool.false_ne_true h
  · intro h
    rw [timestampSchema,readDateTime_toISOString h]
    rfl

/-! ## Order -/

lemma lt_iff_divMod {k : ℤ} (hk : 0 < k) (s t : ℤ) :
    s < t ↔ s / k < t / k ∨ s / k = t / k ∧ s % k < t % k := by
  have hs := Int.mul_ediv_add_emod s k
  have ht := Int.mul_ediv_add_emod t k
  have hmod := Int.emod_lt_of_pos s hk
  have hmod' := Int.emod_lt_of_pos t hk
  have hpos := Int.emod_nonneg s hk.ne'
  have hpos' := Int.emod_nonneg t hk.ne'
  rcases lt_trichotomy (s / k) (t / k) with h | h | h
  · have hmul := Int.mul_le_mul_of_nonneg_left (Int.add_one_le_of_lt h) hk.le
    rw [Int.mul_add,Int.mul_one] at hmul
    exact ⟨fun _ => .inl h,fun _ => by omega⟩
  · rw [h] at hs
    exact ⟨fun hlt => .inr ⟨h,by omega⟩,fun hor => by omega⟩
  · have hmul := Int.mul_le_mul_of_nonneg_left (Int.add_one_le_of_lt h) hk.le
    rw [Int.mul_add,Int.mul_one] at hmul
    exact ⟨fun hlt => by omega,fun hor => by omega⟩

lemma timeWithinDay_lt_iff (s t : ℤ) : timeWithinDay s < timeWithinDay t ↔
    hourFromTime s < hourFromTime t ∨ hourFromTime s = hourFromTime t ∧
    (minFromTime s < minFromTime t ∨ minFromTime s = minFromTime t ∧
    (secFromTime s < secFromTime t ∨ secFromTime s = secFromTime t ∧
      msFromTime s < msFromTime t)) := by
  have hhour : ∀ u, hourFromTime u = timeWithinDay u / 3600000 := by
    intro u
    unfold hourFromTime timeWithinDay msPerDay
    omega
  have hmin : ∀ u, minFromTime u = timeWithinDay u % 3600000 / 60000 := by
    intro u
    unfold minFromTime timeWithinDay msPerDay
    omega
  have hsec : ∀ u, secFromTime u = timeWithinDay u % 3600000 % 60000 / 1000 := by
    intro u
    unfold secFromTime timeWithinDay msPerDay
    omega
  have hms : ∀ u, msFromTime u = timeWithinDay u % 3600000 % 60000 % 1000 := by
    intro u
    unfold msFromTime timeWithinDay msPerDay
    omega
  simp only [hhour,hmin,hsec,hms]
  rw [lt_iff_divMod (show (0 : ℤ) < 3600000 by decide),
    lt_iff_divMod (show (0 : ℤ) < 60000 by decide) (timeWithinDay s % 3600000),
    lt_iff_divMod (show (0 : ℤ) < 1000 by decide) (timeWithinDay s % 3600000 % 60000)]

lemma monthOf_lt_iff (s t : ℤ) : monthOf s < monthOf t ↔ yearFromTime s < yearFromTime t ∨
    yearFromTime s = yearFromTime t ∧ monthFromTime s < monthFromTime t := by
  have hs := monthFromTime_spec s
  have ht := monthFromTime_spec t
  unfold monthOf
  omega

lemma day_lt_iff (s t : ℤ) : day s < day t ↔
    monthOf s < monthOf t ∨ monthOf s = monthOf t ∧ dateFromTime s < dateFromTime t := by
  have hs := monthOf_spec s
  have ht := monthOf_spec t
  rw [dateFromTime_eq,dateFromTime_eq]
  rcases lt_trichotomy (monthOf s) (monthOf t) with h | h | h
  · have hle := startOfMonth_le (show monthOf s + 1 ≤ monthOf t by omega)
    omega
  · rw [h]
    omega
  · have hle := startOfMonth_le (show monthOf t + 1 ≤ monthOf s by omega)
    omega

lemma lt_iff_fields (s t : ℤ) : s < t ↔
    yearFromTime s < yearFromTime t ∨ yearFromTime s = yearFromTime t ∧
    (monthFromTime s < monthFromTime t ∨ monthFromTime s = monthFromTime t ∧
    (dateFromTime s < dateFromTime t ∨ dateFromTime s = dateFromTime t ∧
      timeWithinDay s < timeWithinDay t)) := by
  have hdays : s < t ↔ day s < day t ∨ day s = day t ∧ timeWithinDay s < timeWithinDay t :=
    lt_iff_divMod (by decide) s t
  have hmonth : monthOf s = monthOf t ↔
      yearFromTime s = yearFromTime t ∧ monthFromTime s = monthFromTime t := by
    have hs := monthFromTime_spec s
    have ht := monthFromTime_spec t
    unfold monthOf
    omega
  have hday : day s = day t ↔ monthOf s = monthOf t ∧ dateFromTime s = dateFromTime t := by
    rw [dateFromTime_eq,dateFromTime_eq]
    constructor
    · intro h
      have hsame : monthOf s = monthOf t := by
        simp only [monthOf,yearFromTime,monthFromTime,dayWithinYear,h]
      rw [hsame,h]
      exact ⟨rfl,rfl⟩
    · rintro ⟨hsame,hdate⟩
      rw [hsame] at hdate
      omega
  rw [hdays,day_lt_iff,monthOf_lt_iff,hday,hmonth]
  simp only [and_or_left,or_assoc,and_assoc]

/-- Texts with a field in the same place are in the order of the field, and of the rest. -/
lemma field_lt_iff {width : ℕ} {a b : ℤ} {rest rest' : List Char} (ha : 0 ≤ a) (hb : 0 ≤ b)
    (hawide : a.toNat < 10 ^ width) (hbwide : b.toNat < 10 ^ width) :
    (pad 10 width a.toNat ++ rest).map primary < (pad 10 width b.toNat ++ rest').map primary ↔
      a < b ∨ a = b ∧ rest.map primary < rest'.map primary := by
  have hlt : a.toNat < b.toNat ↔ a < b := by omega
  have heq : a.toNat = b.toNat ↔ a = b := by omega
  rw [number_lt_iff (by decide) (by decide) hawide hbwide,hlt,heq]

lemma field_nonneg (t : ℤ) : 0 ≤ monthFromTime t + 1 ∧ 0 ≤ dateFromTime t ∧ 0 ≤ hourFromTime t ∧
    0 ≤ minFromTime t ∧ 0 ≤ secFromTime t ∧ 0 ≤ msFromTime t := by
  have hmonth := monthFromTime_spec t
  have hdate := dateFromTime_bounds t
  exact ⟨by omega,by omega,Int.emod_nonneg _ (by decide),Int.emod_nonneg _ (by decide),
    Int.emod_nonneg _ (by decide),Int.emod_nonneg _ (by decide)⟩

/-- Texts of years with four digits are in the order of the times. -/
lemma toISOString_lt_iff {s t : ℤ} (hs : FourDigitYear s) (ht : FourDigitYear t) :
    (toISOString s).map primary < (toISOString t).map primary ↔ s < t := by
  obtain ⟨hy,hm,hd,hh,hmi,hsec,hms⟩ := field_bounds hs
  obtain ⟨hy',hm',hd',hh',hmi',hsec',hms'⟩ := field_bounds ht
  obtain ⟨hm0,hd0,hh0,hmi0,hsec0,hms0⟩ := field_nonneg s
  obtain ⟨hm0',hd0',hh0',hmi0',hsec0',hms0'⟩ := field_nonneg t
  have hisos : isoYear (yearFromTime s) = pad 10 4 (yearFromTime s).toNat := if_pos hs
  have hisot : isoYear (yearFromTime t) = pad 10 4 (yearFromTime t).toNat := if_pos ht
  have hmonths : monthFromTime s + 1 < monthFromTime t + 1 ↔ monthFromTime s < monthFromTime t := by
    omega
  have hmonths' : monthFromTime s + 1 = monthFromTime t + 1 ↔ monthFromTime s = monthFromTime t := by
    omega
  unfold toISOString
  rw [hisos,hisot,field_lt_iff hs.1 ht.1 hy hy',sign_lt_iff,field_lt_iff hm0 hm0' hm hm',
    sign_lt_iff,field_lt_iff hd0 hd0' hd hd',sign_lt_iff,
    field_lt_iff hh0 hh0' (by omega) (by omega),sign_lt_iff,
    field_lt_iff hmi0 hmi0' (by omega) (by omega),sign_lt_iff,
    field_lt_iff hsec0 hsec0' (by omega) (by omega),sign_lt_iff,
    field_lt_iff hms0 hms0' hms hms',lt_iff_fields s t,timeWithinDay_lt_iff,hmonths,hmonths']
  simp only [lt_irrefl,and_false,or_false]

lemma localeCompare_toISOString {s t : ℤ} (hs : FourDigitYear s) (ht : FourDigitYear t) :
    localeCompare (toISOString s) (toISOString t) = cmp s t :=
  localeCompare_eq (toISOString_lt_iff hs ht) (toISOString_lt_iff ht hs)

lemma toISOString_eq_iff {s t : ℤ} (hs : FourDigitYear s) (ht : FourDigitYear t) :
    toISOString s = toISOString t ↔ s = t := by
  constructor
  · intro h
    have hread := newDate_toISOString hs
    rw [h,newDate_toISOString ht] at hread
    exact (Option.some.inj hread).symm
  · rintro rfl
    rfl

end Linea.IsoTimes
