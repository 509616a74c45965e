import Mathlib.Algebra.Order.Round
import Mathlib.Data.Int.Log
import Mathlib.Data.Rat.Floor
import Mathlib.Tactic.Linarith

/-! The numbers of IEEE-754 in 64 bits: rounding to the nearest of them, and addition. -/
namespace Linea.Doubles

/-- The nearest integer, the even one of two. -/
def roundEven (q : ℚ) : ℤ :=
  if Int.fract q < 1 / 2 then ⌊q⌋
  else if 1 / 2 < Int.fract q then ⌊q⌋ + 1
  else if ⌊q⌋ % 2 = 0 then ⌊q⌋ else ⌊q⌋ + 1

/-- The exponent of the last of the 53 places of a number of this size; tiny ones have fewer places. -/
def place (q : ℚ) : ℤ := max (Int.log 2 |q| - 52) (-1074)

/-- The nearest number of 53 places, whatever its size. -/
def nearest (q : ℚ) : ℚ := roundEven (q / 2 ^ place q) * 2 ^ place q

section Rounding

lemma pow_pos (e : ℤ) : (0 : ℚ) < 2 ^ e := zpow_pos (by norm_num) e

lemma roundEven_intCast (n : ℤ) : roundEven n = n := by
  simp [roundEven]

lemma roundEven_bounds (q : ℚ) : ⌊q⌋ ≤ roundEven q ∧ roundEven q ≤ ⌊q⌋ + 1 := by
  unfold roundEven
  split_ifs <;> omega

lemma abs_roundEven_le {q : ℚ} {n : ℤ} (h : |q| < n) : |roundEven q| ≤ n := by
  obtain ⟨hlow,hhigh⟩ := abs_lt.mp h
  obtain ⟨hfloor,hceil⟩ := roundEven_bounds q
  have hlt : ⌊q⌋ < n := Int.floor_lt.mpr hhigh
  have hle : -n ≤ ⌊q⌋ := Int.le_floor.mpr (by push_cast; exact hlow.le)
  rw [abs_le]
  omega

lemma place_ge (q : ℚ) : -1074 ≤ place q := le_max_right _ _

lemma abs_lt_place (q : ℚ) : |q| < 2 ^ (place q + 53) := by
  have hlog := Int.lt_zpow_succ_log_self (b := 2) (by norm_num) |q|
  refine hlog.trans_le (zpow_le_zpow_right₀ (by norm_num) ?_)
  have : Int.log 2 |q| - 52 ≤ place q := le_max_left _ _
  omega

/-- A number that ends at its last place is not rounded. -/
lemma nearest_of_mul {q : ℚ} {m : ℤ} (h : q = m * 2 ^ place q) : nearest q = q := by
  have hpos : (2 : ℚ) ^ place q ≠ 0 := (pow_pos _).ne'
  have hdiv : q / 2 ^ place q = m := by rw [div_eq_iff hpos]; exact h
  rw [nearest,hdiv,roundEven_intCast]
  exact h.symm

lemma nearest_zero : nearest 0 = 0 := nearest_of_mul (m := 0) (by simp)

/-- Fifty-three places are enough for a number that ends before them. -/
lemma nearest_mul {m e : ℤ} (hm : |m| ≤ 2 ^ 53) (he : -1074 ≤ e) :
    nearest (m * 2 ^ e) = m * 2 ^ e := by
  by_cases hzero : m = 0
  · simp [hzero,nearest_zero]
  have hpos : (0 : ℚ) < |(m : ℚ) * 2 ^ e| := by
    rw [abs_pos]
    exact mul_ne_zero (by exact_mod_cast hzero) (pow_pos e).ne'
  have habs : |(m : ℚ) * 2 ^ e| = (|m| : ℤ) * 2 ^ e := by
    rw [abs_mul,abs_of_pos (pow_pos e),Int.cast_abs]
  obtain hlt | heq := hm.lt_or_eq
  · -- The last place is not above the one of the multiple.
    have hlog : Int.log 2 |(m : ℚ) * 2 ^ e| < e + 53 := by
      rw [← Int.lt_zpow_iff_log_lt (by norm_num) hpos,habs,add_comm,zpow_add₀ (by norm_num)]
      push_cast
      refine mul_lt_mul_of_pos_right ?_ (pow_pos e)
      exact_mod_cast hlt
    have hplace : place (m * 2 ^ e) ≤ e := by
      rw [place]
      omega
    refine nearest_of_mul (m := m * 2 ^ (e - place (m * 2 ^ e)).toNat) ?_
    push_cast
    rw [mul_assoc,← zpow_natCast,← zpow_add₀ (by norm_num)]
    congr 2
    omega
  · -- The one number of 54 places ends one place earlier.
    have hlog : Int.log 2 |(m : ℚ) * 2 ^ e| = e + 53 := by
      have hpow : |(m : ℚ) * 2 ^ e| = ((2 : ℕ) : ℚ) ^ (e + 53) := by
        rw [habs,heq,add_comm e,zpow_add₀ (by norm_num)]
        norm_num
      rw [hpow]
      exact Int.log_zpow (by norm_num) _
    have hplace : place (m * 2 ^ e) = e + 1 := by
      rw [place,hlog]
      omega
    obtain ⟨n,rfl⟩ : ∃ n, m = n * 2 := by
      obtain h | h := abs_eq (by norm_num) |>.mp heq
      · exact ⟨2 ^ 52,by omega⟩
      · exact ⟨-2 ^ 52,by omega⟩
    refine nearest_of_mul (m := n) ?_
    rw [hplace,add_comm e,zpow_add₀ (by norm_num)]
    push_cast
    ring

theorem nearest_nearest (q : ℚ) : nearest (nearest q) = nearest q := by
  refine nearest_mul ?_ (place_ge q)
  refine abs_roundEven_le ?_
  have hpos : (0 : ℚ) < 2 ^ place q := pow_pos _
  rw [abs_div,abs_of_pos hpos,div_lt_iff₀ hpos]
  refine (abs_lt_place q).trans_eq ?_
  rw [add_comm,zpow_add₀ (by norm_num)]
  norm_num

/-- Whole numbers up to 2^53 are among them. -/
lemma nearest_intCast {n : ℤ} (h : |n| ≤ 2 ^ 53) : nearest n = n := by
  simpa using nearest_mul (e := 0) h (by norm_num)

end Rounding

/-- A number, the two zeros being one. -/
inductive Double
  | nan
  | infinite (negative : Bool)
  | finite (value : ℚ) (h : nearest value = value ∧ |value| < 2 ^ 1024)
  deriving DecidableEq

namespace Double

/-- The number nearest to a rational; beyond the largest it is infinite. -/
def ofRat (q : ℚ) : Double :=
  if h : |nearest q| < 2 ^ 1024 then .finite (nearest q) ⟨nearest_nearest q,h⟩
  else .infinite (q < 0)

/-- A bit pattern: sign, eleven bits of exponent, 52 of the significand. -/
def ofBits (bits : UInt64) : Double :=
  let negative : Bool := bits.toNat / 2 ^ 63 = 1
  let exponent : ℕ := bits.toNat / 2 ^ 52 % 2 ^ 11
  let fraction : ℕ := bits.toNat % 2 ^ 52
  if exponent = 2 ^ 11 - 1 then
    if fraction = 0 then .infinite negative else .nan
  else
    let magnitude : ℚ :=
      if exponent = 0 then fraction * 2 ^ (-1074 : ℤ)
      else (2 ^ 52 + fraction) * 2 ^ ((exponent : ℤ) - 1075)
    ofRat (if negative then -magnitude else magnitude)

/-- The value of a number that is finite. -/
def toRat : Double → Option ℚ
  | .finite value _ => some value
  | _ => none

instance : Zero Double := ⟨.finite 0 ⟨nearest_zero,by simp⟩⟩

instance : Add Double where
  add
    | .finite a _, .finite b _ => ofRat (a + b)
    | .infinite a, .infinite b => if a = b then .infinite a else .nan
    | .nan, _ => .nan
    | _, .nan => .nan
    | .infinite a, .finite _ _ => .infinite a
    | .finite _ _, .infinite b => .infinite b

section Sums

lemma ofRat_finite {q : ℚ} (h : nearest q = q ∧ |q| < 2 ^ 1024) : ofRat q = .finite q h := by
  simp [ofRat,h.1,h.2]

/-- A number to which nothing is added stays as it is. -/
@[simp] lemma add_zero (a : Double) : a + 0 = a := by
  cases a with
  | nan | infinite => rfl
  | finite value h =>
    change ofRat (value + 0) = _
    rw [Rat.add_zero]
    exact ofRat_finite h

/-- What a number adds where it is finite. -/
def value (a : Double) : ℚ := a.toRat.getD 0

lemma toRat_whole {n : ℤ} (h : |n| ≤ 2 ^ 53) : (ofRat n).toRat = some (n : ℚ) := by
  have hlt : |(n : ℚ)| < 2 ^ 1024 := by
    have hcast : |(n : ℚ)| ≤ 2 ^ 53 := by exact_mod_cast h
    exact hcast.trans_lt (pow_lt_pow_right₀ (by norm_num) (by norm_num))
  rw [ofRat_finite ⟨nearest_intCast h,hlt⟩]
  rfl

lemma add_eq_ofRat {a b : Double} {p q : ℚ} (ha : a.toRat = some p) (hb : b.toRat = some q) :
    a + b = ofRat (p + q) := by
  cases a with
  | nan | infinite => cases ha
  | finite => cases b with
    | nan | infinite => cases hb
    | finite =>
      cases ha
      cases hb
      rfl

lemma whole_add {a b : ℤ} (ha : |a| ≤ 2 ^ 53) (hb : |b| ≤ 2 ^ 53) :
    ofRat a + ofRat b = ofRat (a + b : ℤ) := by
  rw [add_eq_ofRat (toRat_whole ha) (toRat_whole hb)]
  push_cast
  rfl

end Sums

end Double
end Linea.Doubles
