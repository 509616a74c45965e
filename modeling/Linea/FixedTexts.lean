import Mathlib.Data.List.Lex
import Mathlib.Order.Compare
import Mathlib.Tactic.IntervalCases

/-! Numbers written in a fixed number of digits, and the order in which `localeCompare` puts texts
that are made of them: with the same width and the same signs between them, texts are in the order of
their numbers. -/
namespace Linea.FixedTexts

/-- `n` in `width` digits, the most significant one first. -/
def pad (base : ℕ) : ℕ → ℕ → List Char
  | 0, _ => []
  | width + 1, n => pad base width (n / base) ++ [(n % base).digitChar]

/-- The number that the next `width` digits add to `number`, and the text behind them. -/
def readNumber : ℕ → ℕ → List Char → Option (ℕ × List Char)
  | 0, number, text => some (number,text)
  | _ + 1, _, [] => none
  | width + 1, number, c :: text =>
    if c.isDigit then readNumber width (10 * number + (c.toNat - 48)) text else none

/-- Printable ASCII other than digits and letters, in the order of the root collation. -/
def signs : String := " _-,;:!?.'\"()[]\x7b\x7d@*/\\&#%\x60^+<=>|~$"

/-- The place of a printable ASCII character in the root collation: first signs, then digits, then
letters. -/
def primary (c : Char) : ℕ :=
  if c.isDigit then 100 + (c.toNat - 48)
  else if c.isAlpha then 110 + (c.toLower.toNat - 97)
  else signs.toList.idxOf c

/-- Lower case comes before upper case. -/
def tertiary (c : Char) : ℕ := if c.isUpper then 1 else 0

/-- `localeCompare` of printable ASCII texts: cases only count when nothing else differs. -/
def localeCompare (left right : List Char) : Ordering :=
  if left.map primary < right.map primary then .lt
  else if right.map primary < left.map primary then .gt
  else if left.map tertiary < right.map tertiary then .lt
  else if right.map tertiary < left.map tertiary then .gt
  else .eq

section Order
variable {base width n m : ℕ} {rest rest' : List Char}

lemma append_lt_iff {a b c d : List ℕ} (h : a.length = c.length) :
    a ++ b < c ++ d ↔ a < c ∨ a = c ∧ b < d := by
  induction a generalizing c with
  | nil =>
    obtain rfl := List.length_eq_zero_iff.mp h.symm
    simp
  | cons x a ih =>
    obtain ⟨y,c,rfl⟩ := List.exists_cons_of_length_eq_add_one h.symm
    have hrest := ih (Nat.succ.inj h)
    simp only [List.cons_append,List.cons_lt_cons_iff,hrest,List.cons.injEq]
    tauto

lemma primary_digitChar {d : ℕ} (hd : d < 16) : primary d.digitChar = 100 + d := by
  interval_cases d <;> rfl

lemma length_pad (base width n : ℕ) : (pad base width n).length = width := by
  induction width generalizing n with
  | zero => rfl
  | succ width ih => rw [pad,List.length_append,ih,List.length_singleton]

lemma pad_lt_iff (hbase : 0 < base) (hhex : base ≤ 16) (hn : n < base ^ width)
    (hm : m < base ^ width) :
    (pad base width n).map primary < (pad base width m).map primary ↔ n < m := by
  induction width generalizing n m with
  | zero =>
    rw [pow_zero,Nat.lt_one_iff] at hn hm
    simp [pad,hn,hm]
  | succ width ih =>
    have hn' : n / base < base ^ width := Nat.div_lt_of_lt_mul (by rwa [← pow_succ'])
    have hm' : m / base < base ^ width := Nat.div_lt_of_lt_mul (by rwa [← pow_succ'])
    have hequal : (pad base width (n / base)).map primary = (pad base width (m / base)).map primary ↔
        n / base = m / base := by
      constructor
      · intro h
        have hnot : ¬ n / base < m / base := fun hlt => ne_of_lt ((ih hn' hm').mpr hlt) h
        have hnot' : ¬ m / base < n / base := fun hlt => ne_of_gt ((ih hm' hn').mpr hlt) h
        omega
      · intro h
        rw [h]
    have hlast : ∀ k, primary (k % base).digitChar = 100 + k % base := fun k =>
      primary_digitChar ((Nat.mod_lt k hbase).trans_le hhex)
    simp only [pad,List.map_append,List.map_singleton]
    rw [append_lt_iff (by simp [length_pad]),ih hn' hm',hequal,hlast,hlast,List.cons_lt_cons_iff]
    simp only [List.not_lt_nil,and_false,or_false]
    have hdivn := Nat.div_add_mod n base
    have hdivm := Nat.div_add_mod m base
    have hmodn := Nat.mod_lt n hbase
    have hmodm := Nat.mod_lt m hbase
    constructor
    · rintro (hlt | ⟨heq,hlt⟩)
      · have hmul := Nat.mul_le_mul_left base (Nat.succ_le_of_lt hlt)
        rw [Nat.mul_succ] at hmul
        omega
      · rw [heq] at hdivn
        omega
    · intro hlt
      rcases Nat.lt_or_eq_of_le (Nat.div_le_div_right (c := base) hlt.le) with h | h
      · exact .inl h
      · rw [h] at hdivn
        exact .inr ⟨h,by omega⟩

lemma pad_eq_iff (hbase : 0 < base) (hhex : base ≤ 16) (hn : n < base ^ width)
    (hm : m < base ^ width) :
    (pad base width n).map primary = (pad base width m).map primary ↔ n = m := by
  constructor
  · intro h
    have hnot : ¬ n < m := fun hlt => ne_of_lt ((pad_lt_iff hbase hhex hn hm).mpr hlt) h
    have hnot' : ¬ m < n := fun hlt => ne_of_gt ((pad_lt_iff hbase hhex hm hn).mpr hlt) h
    omega
  · rintro rfl
    rfl

/-- Texts that begin with a number of the same width are in the order of these, and of the rest. -/
lemma number_lt_iff (hbase : 0 < base) (hhex : base ≤ 16) (hn : n < base ^ width)
    (hm : m < base ^ width) :
    (pad base width n ++ rest).map primary < (pad base width m ++ rest').map primary ↔
      n < m ∨ n = m ∧ rest.map primary < rest'.map primary := by
  rw [List.map_append,List.map_append,append_lt_iff (by simp [length_pad]),
    pad_lt_iff hbase hhex hn hm,pad_eq_iff hbase hhex hn hm]

lemma sign_lt_iff {c : Char} :
    (c :: rest).map primary < (c :: rest').map primary ↔ rest.map primary < rest'.map primary := by
  rw [List.map_cons,List.map_cons,List.cons_lt_cons_self]

/-- Texts that differ only where their order tells are compared in this order. -/
lemma localeCompare_eq {α : Type*} [LinearOrder α] {write : α → List Char} {a b : α}
    (hlt : (write a).map primary < (write b).map primary ↔ a < b)
    (hgt : (write b).map primary < (write a).map primary ↔ b < a) :
    localeCompare (write a) (write b) = cmp a b := by
  rcases lt_trichotomy a b with h | rfl | h
  · rw [localeCompare,if_pos (hlt.mpr h),(cmp_eq_lt_iff _ _).mpr h]
  · rw [localeCompare,if_neg (lt_irrefl _),if_neg (lt_irrefl _),if_neg (lt_irrefl _),
      if_neg (lt_irrefl _),cmp_self_eq_eq]
  · rw [localeCompare,if_neg (lt_asymm (hgt.mpr h)),if_pos (hgt.mpr h),(cmp_eq_gt_iff _ _).mpr h]

end Order

/-! ## Reading numbers back -/

lemma readNumber_append {digits : List Char} (hdigits : ∀ c ∈ digits, c.isDigit = true)
    (number : ℕ) (rest : List Char) :
    readNumber digits.length number (digits ++ rest) =
      some (digits.foldl (fun number c => 10 * number + (c.toNat - 48)) number,rest) := by
  induction digits generalizing number with
  | nil => rfl
  | cons c digits ih =>
    rw [List.length_cons,List.cons_append,readNumber,if_pos (hdigits c List.mem_cons_self),
      ih fun c' hc' => hdigits c' (List.mem_cons_of_mem c hc')]
    rfl

lemma isDigit_digitChar {d : ℕ} (hd : d < 10) :
    d.digitChar.isDigit = true ∧ d.digitChar.toNat - 48 = d := by
  interval_cases d <;> exact ⟨rfl,rfl⟩

lemma pad_digits {width n : ℕ} : ∀ c ∈ pad 10 width n, c.isDigit = true := by
  induction width generalizing n with
  | zero => exact fun c hc => absurd hc List.not_mem_nil
  | succ width ih =>
    intro c hc
    rcases List.mem_append.mp hc with hc | hc
    · exact ih c hc
    · rw [List.mem_singleton.mp hc]
      exact (isDigit_digitChar (Nat.mod_lt n (by decide))).1

lemma foldl_pad {width n : ℕ} (hn : n < 10 ^ width) :
    (pad 10 width n).foldl (fun number c => 10 * number + (c.toNat - 48)) 0 = n := by
  induction width generalizing n with
  | zero =>
    rw [pow_zero,Nat.lt_one_iff] at hn
    rw [hn]
    rfl
  | succ width ih =>
    rw [pad,List.foldl_append,ih (Nat.div_lt_of_lt_mul (by rwa [← pow_succ']))]
    simp only [List.foldl_cons,List.foldl_nil]
    rw [(isDigit_digitChar (Nat.mod_lt n (by decide))).2]
    omega

lemma readNumber_pad {width n : ℕ} (hn : n < 10 ^ width) (rest : List Char) :
    readNumber width 0 (pad 10 width n ++ rest) = some (n,rest) := by
  have hdigits : ∀ c ∈ pad 10 width n, c.isDigit = true := pad_digits
  have hread := readNumber_append hdigits 0 rest
  rw [length_pad,foldl_pad hn] at hread
  exact hread

end Linea.FixedTexts
