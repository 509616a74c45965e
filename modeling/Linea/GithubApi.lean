import Linea.TextEdits

/-! The names the GitHub operations take, and the schemas that check them. -/
namespace Linea.GithubApi

open JsonText (Text)
open TextEdits (toLowerCase)

/-- What a schema makes of a value it accepts. -/
def accept {α : Type} (valid : Bool) (value : α) : Option α := if valid then some value else none

@[simp] lemma accept_eq_some {α : Type} {valid : Bool} {value result : α} :
    accept valid value = some result ↔ valid = true ∧ value = result := by
  cases valid <;> simp [accept]

def sized {α : Type} (least most : ℕ) (s : List α) : Bool := least ≤ s.length && s.length ≤ most

def isAlphanumeric (u : UInt16) : Bool :=
  48 ≤ u && u ≤ 57 || 65 ≤ u && u ≤ 90 || 97 ≤ u && u ≤ 122

/-- Letters, digits, `_`, `.` and `-`. -/
def isNameUnit (u : UInt16) : Bool := isAlphanumeric u || u == 95 || u == 46 || u == 45

/-- The same and `/`. -/
def isBranchUnit (u : UInt16) : Bool :=
  isAlphanumeric u || u == 46 || u == 95 || u == 47 || u == 45

/-- The sixteen digits of a commit id, in either case. -/
def isShaUnit (u : UInt16) : Bool := 48 ≤ u && u ≤ 57 || 65 ≤ u && u ≤ 70 || 97 ≤ u && u ≤ 102

def githubOwnerSchema (s : Text) : Option Text := accept (sized 1 100 s && s.all isNameUnit) s

def githubRepositorySchema (s : Text) : Option Text := accept (sized 1 100 s && s.all isNameUnit) s

def githubBranchSchema (s : Text) : Option Text := accept (sized 1 255 s && s.all isBranchUnit) s

def githubShaSchema (s : Text) : Option Text :=
  accept (sized 40 40 s && s.all isShaUnit) (toLowerCase s)

lemma toNat_lower {u : UInt16} (h : 65 ≤ u ∧ u ≤ 90) : (u + 32).toNat = u.toNat + 32 := by
  have hle : u.toNat ≤ 90 := UInt16.le_iff_toNat_le.mp h.2
  rw [UInt16.toNat_add]
  exact Nat.mod_eq_of_lt (by simp; omega)

/-- A class of units that has the small letter of every capital. -/
def Caseless (p : UInt16 → Bool) : Prop := ∀ u, 65 ≤ u → u ≤ 90 → p u = true → p (u + 32) = true

lemma Caseless.all {p : UInt16 → Bool} (hp : Caseless p) {s : Text} (h : s.all p = true) :
    (toLowerCase s).all p = true := by
  rw [toLowerCase,List.all_map,List.all_eq_true]
  intro u hu
  have hpu := List.all_eq_true.mp h u hu
  simp only [Function.comp_apply,Bool.and_eq_true,decide_eq_true_eq]
  split
  · next hcapital => exact hp u hcapital.1 hcapital.2 hpu
  · exact hpu

lemma caseless_nameUnit : Caseless isNameUnit := by
  intro u hlow hhigh _
  have hnat := toNat_lower ⟨hlow,hhigh⟩
  rw [UInt16.le_iff_toNat_le] at hlow hhigh
  simp only [isNameUnit,isAlphanumeric,Bool.or_eq_true,Bool.and_eq_true,decide_eq_true_eq,
    UInt16.le_iff_toNat_le,hnat]
  exact .inl (.inl (.inl (.inr ⟨by simp at *; omega,by simp at *; omega⟩)))

lemma caseless_shaUnit : Caseless isShaUnit := by
  intro u hlow hhigh hu
  have hnat := toNat_lower ⟨hlow,hhigh⟩
  rw [UInt16.le_iff_toNat_le] at hlow hhigh
  simp only [isShaUnit,Bool.or_eq_true,Bool.and_eq_true,decide_eq_true_eq,UInt16.le_iff_toNat_le,
    hnat] at hu ⊢
  simp at *
  omega

lemma toLowerCase_toLowerCase (s : Text) : toLowerCase (toLowerCase s) = toLowerCase s := by
  rw [toLowerCase,toLowerCase,List.map_map]
  refine List.map_congr_left fun u _ => ?_
  simp only [Function.comp_apply,Bool.and_eq_true,decide_eq_true_eq]
  by_cases hu : 65 ≤ u ∧ u ≤ 90
  · have hnat := toNat_lower hu
    have hlow := UInt16.le_iff_toNat_le.mp hu.1
    rw [if_pos hu,if_neg]
    rintro ⟨_,hhigh⟩
    rw [UInt16.le_iff_toNat_le,hnat] at hhigh
    simp at hlow hhigh
    omega
  · rw [if_neg hu,if_neg hu]

lemma toLowerCase_length (s : Text) : (toLowerCase s).length = s.length := List.length_map _

/-- A name stays a name in lower case. -/
lemma name_lower {s : Text} (h : (sized 1 100 s && s.all isNameUnit) = true) :
    (sized 1 100 (toLowerCase s) && (toLowerCase s).all isNameUnit) = true := by
  rw [Bool.and_eq_true] at h ⊢
  rw [sized,toLowerCase_length]
  exact ⟨h.1,caseless_nameUnit.all h.2⟩

lemma slash_notMem {s : Text} (h : s.all isNameUnit = true) : 47 ∉ s := fun hmem =>
  absurd (List.all_eq_true.mp h 47 hmem) (by decide)

end Linea.GithubApi
