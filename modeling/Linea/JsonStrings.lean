import Mathlib.Data.List.Basic
import Mathlib.Tactic.Common

/-! Strings as UTF-16 code units, and how `JSON.stringify` quotes them: control characters, the quote,
the backslash and surrogates that stand alone are escaped. -/
namespace Linea.JsonText

abbrev Text := List UInt16

def isHigh (u : UInt16) : Bool := 0xD800 ≤ u && u < 0xDC00

def isLow (u : UInt16) : Bool := 0xDC00 ≤ u && u < 0xE000

/-- A surrogate that is not half of a pair. -/
def hasLoneSurrogate : Text → Bool
  | [] => false
  | [u] => isHigh u || isLow u
  | u :: l :: rest =>
    if isHigh u && isLow l then hasLoneSurrogate rest
    else isHigh u || isLow u || hasLoneSurrogate (l :: rest)

/-- Lower case. -/
def hexDigit (n : ℕ) : UInt16 := .ofNat (if n < 10 then 48 + n else 87 + n)

def hexValue (d : UInt16) : ℕ := if d.toNat < 58 then d.toNat - 48 else d.toNat - 87

def unicodeEscape (u : UInt16) : Text :=
  [92,117,hexDigit (u.toNat / 4096),hexDigit (u.toNat / 256 % 16),hexDigit (u.toNat / 16 % 16),
    hexDigit (u.toNat % 16)]

/-- The letters of the two-character escapes. -/
def escapeLetter (u : UInt16) : Option UInt16 :=
  if u = 34 ∨ u = 92 then some u
  else if u = 8 then some 98
  else if u = 9 then some 116
  else if u = 10 then some 110
  else if u = 12 then some 102
  else if u = 13 then some 114
  else none

def escapeUnit (u : UInt16) : Text :=
  match escapeLetter u with
  | some letter => [92,letter]
  | none => if u < 32 || isHigh u || isLow u then unicodeEscape u else [u]

def quoteBody : Text → Text
  | [] => []
  | [u] => escapeUnit u
  | u :: l :: rest =>
    if isHigh u && isLow l then u :: l :: quoteBody rest
    else escapeUnit u ++ quoteBody (l :: rest)

def quote (s : Text) : Text := 34 :: (quoteBody s ++ [34])

/-! ## Reading a quoted string -/

def unescapeLetter (c : UInt16) : UInt16 :=
  if c = 98 then 8 else if c = 116 then 9 else if c = 110 then 10 else if c = 102 then 12
  else if c = 114 then 13 else c

/-- One code unit of a string, and what follows it; `none` at the closing quote. -/
def readUnit : Text → Option (UInt16 × Text)
  | [] => none
  | u :: rest =>
    if u = 34 then none
    else if u = 92 then
      match rest with
      | [] => none
      | c :: rest =>
        if c = 117 then
          match rest with
          | d₃ :: d₂ :: d₁ :: d₀ :: rest => some (.ofNat
              (hexValue d₃ * 4096 + hexValue d₂ * 256 + hexValue d₁ * 16 + hexValue d₀),rest)
          | _ => none
        else some (unescapeLetter c,rest)
    else some (u,rest)

lemma hexValue_hexDigit {n : ℕ} (h : n < 16) : hexValue (hexDigit n) = n := by
  revert n
  decide

lemma readUnit_unicodeEscape (u : UInt16) (x : Text) :
    readUnit (unicodeEscape u ++ x) = some (u,x) := by
  have hu := u.toNat_lt
  have hdigits : u.toNat / 4096 * 4096 + u.toNat / 256 % 16 * 256 + u.toNat / 16 % 16 * 16 +
      u.toNat % 16 = u.toNat := by omega
  have hread : readUnit (unicodeEscape u ++ x) = some (.ofNat
      (hexValue (hexDigit (u.toNat / 4096)) * 4096 + hexValue (hexDigit (u.toNat / 256 % 16)) * 256 +
        hexValue (hexDigit (u.toNat / 16 % 16)) * 16 + hexValue (hexDigit (u.toNat % 16))),x) := rfl
  rw [hread,hexValue_hexDigit (by omega),hexValue_hexDigit (by omega),hexValue_hexDigit (by omega),
    hexValue_hexDigit (by omega),hdigits,UInt16.ofNat_toNat]

lemma readUnit_raw {u : UInt16} (h : u ≠ 34) (h' : u ≠ 92) (x : Text) :
    readUnit (u :: x) = some (u,x) := by
  simp [readUnit,h,h']

lemma escapeLetter_unescape {u letter : UInt16} (h : escapeLetter u = some letter) :
    letter ≠ 117 ∧ unescapeLetter letter = u := by
  unfold escapeLetter at h
  split_ifs at h with h₁ h₂ h₃ h₄ h₅ h₆ <;> obtain rfl := Option.some.inj h
  · rcases h₁ with rfl | rfl <;> decide
  all_goals subst_vars; decide

lemma escapeLetter_none {u : UInt16} (h : escapeLetter u = none) : u ≠ 34 ∧ u ≠ 92 := by
  unfold escapeLetter at h
  split_ifs at h with h₁
  exact not_or.mp h₁

lemma readUnit_escapeUnit (u : UInt16) (x : Text) : readUnit (escapeUnit u ++ x) = some (u,x) := by
  unfold escapeUnit
  cases h : escapeLetter u with
  | some letter =>
    obtain ⟨hletter,hu⟩ := escapeLetter_unescape h
    simp [readUnit,hletter,hu]
  | none =>
    obtain ⟨hquote,hslash⟩ := escapeLetter_none h
    dsimp only
    split
    · exact readUnit_unicodeEscape u x
    · exact readUnit_raw hquote hslash x

lemma surrogate_raw {u : UInt16} (h : isHigh u = true ∨ isLow u = true) : u ≠ 34 ∧ u ≠ 92 := by
  constructor <;> rintro rfl <;> revert h <;> decide

/-- `x` spells the code units of a string. -/
inductive Spells : Text → Text → Prop
  | nil : Spells [] []
  | cons (chunk : Text) {x s : Text} {u : UInt16} (hu : ∀ y, readUnit (chunk ++ y) = some (u,y))
    (h : Spells x s) : Spells (chunk ++ x) (u :: s)

lemma spells_quoteBody (s : Text) : Spells (quoteBody s) s := by
  induction s using quoteBody.induct with
  | case1 => exact .nil
  | case2 u =>
    have := Spells.cons _ (readUnit_escapeUnit u) .nil
    rwa [List.append_nil] at this
  | case3 u l rest h ih =>
    rw [quoteBody,if_pos h]
    rw [Bool.and_eq_true] at h
    have hu := surrogate_raw (.inl h.1)
    have hl := surrogate_raw (.inr h.2)
    exact .cons [u] (readUnit_raw hu.1 hu.2) (.cons [l] (readUnit_raw hl.1 hl.2) ih)
  | case4 u l rest h ih =>
    rw [quoteBody,if_neg h]
    exact .cons _ (readUnit_escapeUnit u) ih

/-- Up to the closing quote, a spelling determines the string. -/
lemma Spells.unique {a b s t x y : Text} (ha : Spells a s) (hb : Spells b t)
    (h : a ++ 34 :: x = b ++ 34 :: y) : s = t ∧ x = y := by
  induction ha generalizing b t with
  | nil =>
    cases hb with
    | nil => exact ⟨rfl,by simpa using h⟩
    | @cons chunk b t u hu _ =>
      have hread := hu (b ++ 34 :: y)
      rw [← List.append_assoc,← h] at hread
      cases hread
  | @cons chunk a s u hu ha ih =>
    cases hb with
    | nil =>
      have hread := hu (a ++ 34 :: x)
      rw [← List.append_assoc,h] at hread
      cases hread
    | @cons chunk' b t v hv hb =>
      rw [List.append_assoc,List.append_assoc] at h
      have hread := hu (a ++ 34 :: x)
      rw [h,hv,Option.some.injEq,Prod.mk.injEq] at hread
      obtain ⟨rfl,hrest⟩ := hread
      obtain ⟨rfl,rfl⟩ := ih hb hrest.symm
      exact ⟨rfl,rfl⟩

/-- What follows a quoted string, and the string, can be told from the text. -/
theorem quote_append_inj {s t x y : Text} (h : quote s ++ x = quote t ++ y) : s = t ∧ x = y := by
  have h' : quoteBody s ++ 34 :: x = quoteBody t ++ 34 :: y := by
    simpa [quote] using h
  exact (spells_quoteBody s).unique (spells_quoteBody t) h'

theorem quote_injective : Function.Injective quote := fun _ _ h =>
  (quote_append_inj (x := []) (y := []) (congrArg (· ++ []) h)).1

/-! ## Surrogates of what is written -/

/-- Nothing that could pair with what stands around it. -/
def Plain (s : Text) : Prop := ∀ u ∈ s, isHigh u = false ∧ isLow u = false

lemma hasLoneSurrogate_append {s t : Text} (h : hasLoneSurrogate s = false) :
    hasLoneSurrogate (s ++ t) = hasLoneSurrogate t := by
  induction s using hasLoneSurrogate.induct with
  | case1 => rfl
  | case2 u =>
    simp only [hasLoneSurrogate,Bool.or_eq_false_iff] at h
    cases t with
    | nil => simp [hasLoneSurrogate,h]
    | cons l rest => simp [hasLoneSurrogate,h]
  | case3 u l rest hpair ih =>
    rw [hasLoneSurrogate,if_pos hpair] at h
    rw [List.cons_append,List.cons_append,hasLoneSurrogate,if_pos hpair]
    exact ih h
  | case4 u l rest hpair ih =>
    rw [hasLoneSurrogate,if_neg hpair,Bool.or_eq_false_iff] at h
    rw [List.cons_append,List.cons_append,hasLoneSurrogate,if_neg hpair,h.1,Bool.false_or]
    exact ih h.2

lemma Plain.hasLoneSurrogate {s : Text} (h : Plain s) : hasLoneSurrogate s = false := by
  induction s with
  | nil => rfl
  | cons u s ih =>
    have hu := h u (by simp)
    have hone : JsonText.hasLoneSurrogate [u] = false := by simp [JsonText.hasLoneSurrogate,hu]
    exact (hasLoneSurrogate_append hone).trans (ih fun v hv => h v (by simp [hv]))

lemma hexDigit_plain {n : ℕ} (h : n < 16) : isHigh (hexDigit n) = false ∧ isLow (hexDigit n) = false := by
  revert n
  decide

lemma escapeUnit_plain (u : UInt16) : Plain (escapeUnit u) := by
  have hu := u.toNat_lt
  unfold escapeUnit
  cases hl : escapeLetter u with
  | some letter =>
    have hletter : isHigh letter = false ∧ isLow letter = false := by
      unfold escapeLetter at hl
      split_ifs at hl with hself <;> obtain rfl := Option.some.inj hl
      · rcases hself with rfl | rfl <;> decide
      all_goals decide
    intro c hc
    simp only [List.mem_cons,List.not_mem_nil,or_false] at hc
    rcases hc with rfl | rfl
    · decide
    · exact hletter
  | none =>
    dsimp only
    split
    · intro c hc
      simp only [unicodeEscape,List.mem_cons,List.not_mem_nil,or_false] at hc
      rcases hc with rfl | rfl | rfl | rfl | rfl | rfl
      · decide
      · decide
      all_goals exact hexDigit_plain (by omega)
    · next hself =>
      simp only [Bool.or_eq_true,not_or,Bool.not_eq_true] at hself
      intro c hc
      obtain rfl := List.mem_singleton.mp hc
      exact ⟨hself.1.2,hself.2⟩

lemma quoteBody_paired (s : Text) : hasLoneSurrogate (quoteBody s) = false := by
  induction s using quoteBody.induct with
  | case1 => rfl
  | case2 u => exact (escapeUnit_plain u).hasLoneSurrogate
  | case3 u l rest hpair ih =>
    rw [quoteBody,if_pos hpair,hasLoneSurrogate,if_pos hpair]
    exact ih
  | case4 u l rest hpair ih =>
    rw [quoteBody,if_neg hpair,hasLoneSurrogate_append (escapeUnit_plain u).hasLoneSurrogate]
    exact ih

/-- No surrogate stands alone in a quoted string. -/
theorem quote_paired (s : Text) : hasLoneSurrogate (quote s) = false := by
  have hquote : Plain [34] := by
    intro c hc
    obtain rfl := List.mem_singleton.mp hc
    decide
  have hopen := hasLoneSurrogate_append (t := quoteBody s ++ [34]) hquote.hasLoneSurrogate
  rw [quote]
  exact hopen.trans ((hasLoneSurrogate_append (quoteBody_paired s)).trans hquote.hasLoneSurrogate)

end Linea.JsonText
