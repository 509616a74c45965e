import Linea.JsonValues
import Mathlib.Data.Nat.Log

/-! The integers that doubles hold without loss: those below `2 ^ 53` in absolute value, as bit patterns
and back. -/
namespace Linea.SafeIntegers

open JsonText (isFinite isZero)

/-- The exponent of `2` that a pattern has, with its bias. -/
def exponent (bits : UInt64) : ℕ := bits.toNat / 2 ^ 52 % 2 ^ 11

/-- The significand of a normal number, as an integer. -/
def significand (bits : UInt64) : ℕ := bits.toNat % 2 ^ 52 + 2 ^ 52

def signed (negative : Bool) (n : ℕ) : ℤ := if negative then -n else n

/-- The integer that a number is; none for a number that is not a safe integer. -/
def safeInteger (bits : UInt64) : Option ℤ :=
  if isZero bits then some 0
  else if 1023 ≤ exponent bits ∧ exponent bits ≤ 1075 ∧
      2 ^ (1075 - exponent bits) ∣ significand bits then
    some (signed (2 ^ 63 ≤ bits.toNat) (significand bits / 2 ^ (1075 - exponent bits)))
  else none

/-- The pattern of `n` without its sign. -/
def magnitude (n : ℕ) : ℕ := (1022 + n.log2) * 2 ^ 52 + n * 2 ^ (52 - n.log2)

def ofInt (n : ℤ) : UInt64 :=
  if n = 0 then 0 else .ofNat ((if n < 0 then 2 ^ 63 else 0) + magnitude n.natAbs)

/-- A significand and an exponent make up the pattern. -/
lemma magnitude_parts {n : ℕ} (hpos : n ≠ 0) (hlt : n < 2 ^ 53) : ∃ k m, k ≤ 52 ∧ m < 2 ^ 52 ∧
    n * 2 ^ (52 - k) = m + 2 ^ 52 ∧ magnitude n = (1023 + k) * 2 ^ 52 + m := by
  have hlog : n.log2 ≤ 52 := Nat.lt_succ_iff.mp ((Nat.log2_lt hpos).mpr hlt)
  have hlow : 2 ^ n.log2 * 2 ^ (52 - n.log2) ≤ n * 2 ^ (52 - n.log2) :=
    Nat.mul_le_mul_right _ (Nat.log2_self_le hpos)
  have hhigh : n * 2 ^ (52 - n.log2) < 2 ^ (n.log2 + 1) * 2 ^ (52 - n.log2) :=
    Nat.mul_lt_mul_of_pos_right Nat.lt_log2_self (Nat.two_pow_pos _)
  have hlow' : 2 ^ n.log2 * 2 ^ (52 - n.log2) = 2 ^ 52 := by
    rw [← Nat.pow_add,Nat.add_sub_of_le hlog]
  have hhigh' : 2 ^ (n.log2 + 1) * 2 ^ (52 - n.log2) = 2 ^ 53 := by
    rw [← Nat.pow_add,Nat.add_right_comm,Nat.add_sub_of_le hlog]
  refine ⟨n.log2,n * 2 ^ (52 - n.log2) - 2 ^ 52,hlog,?_,?_,?_⟩
  · omega
  · omega
  · rw [magnitude]
    omega

/-- The number of a pattern that is put together of sign, exponent and significand. -/
lemma safeInteger_parts {n k m : ℕ} (negative : Bool) (hk : k ≤ 52) (hm : m < 2 ^ 52)
    (hn : n * 2 ^ (52 - k) = m + 2 ^ 52) :
    safeInteger (.ofNat ((if negative then 2 ^ 63 else 0) + ((1023 + k) * 2 ^ 52 + m))) =
      some (signed negative n) := by
  have hlt : (if negative then 2 ^ 63 else 0) + ((1023 + k) * 2 ^ 52 + m) < 2 ^ 64 := by
    split <;> omega
  have hbits := UInt64.toNat_ofNat_of_lt' hlt
  generalize UInt64.ofNat _ = bits at hbits ⊢
  have hzero : isZero bits = false := by
    rw [isZero,hbits]
    apply decide_eq_false
    split <;> omega
  have hexponent : exponent bits = 1023 + k := by
    rw [exponent,hbits]
    split <;> omega
  have hsignificand : significand bits = n * 2 ^ (52 - k) := by
    rw [significand,hbits]
    split <;> omega
  have hsign : decide (2 ^ 63 ≤ bits.toNat) = negative := by
    rw [hbits]
    cases negative with
    | true => exact decide_eq_true (by simp)
    | false => exact decide_eq_false (by simp; omega)
  have hshift : 1075 - (1023 + k) = 52 - k := by omega
  rw [safeInteger,hzero,if_neg Bool.false_ne_true,hexponent,hsignificand,hshift,hsign,
    if_pos ⟨by omega,by omega,Nat.dvd_mul_left _ n⟩,Nat.mul_div_cancel _ (Nat.two_pow_pos _)]

theorem safeInteger_ofInt {n : ℤ} (h : n.natAbs < 2 ^ 53) : safeInteger (ofInt n) = some n := by
  by_cases hzero : n = 0
  · subst hzero
    rfl
  obtain ⟨k,m,hk,hm,hn,hmagnitude⟩ := magnitude_parts (Int.natAbs_ne_zero.mpr hzero) h
  have hparts := safeInteger_parts (decide (n < 0)) hk hm hn
  rw [ofInt,if_neg hzero,hmagnitude]
  simp only [decide_eq_true_eq] at hparts
  rw [hparts,signed]
  split
  · next hneg =>
    simp only [decide_eq_true_eq] at hneg
    exact congrArg some (by omega)
  · next hneg =>
    simp only [decide_eq_true_eq] at hneg
    exact congrArg some (by omega)

lemma safeInteger_finite {bits : UInt64} {n : ℤ} (h : safeInteger bits = some n) :
    isFinite bits = true := by
  rw [safeInteger] at h
  apply decide_eq_true
  split at h
  · next hzero =>
    rw [isZero,decide_eq_true_eq] at hzero
    omega
  · split at h
    · next hbounds =>
      have hexponent := hbounds.2.1
      rw [exponent] at hexponent
      omega
    · exact absurd h.symm (Option.some_ne_none n)

/-- No integer has the pattern of `-0`. -/
lemma ofInt_ne_minusZero {n : ℤ} (h : n.natAbs < 2 ^ 53) : ofInt n ≠ 0x8000000000000000 := by
  intro heq
  have hsafe := safeInteger_ofInt h
  rw [heq] at hsafe
  obtain rfl : 0 = n := Option.some.inj hsafe
  exact absurd heq (by decide)

end Linea.SafeIntegers
