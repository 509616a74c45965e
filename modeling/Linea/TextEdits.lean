import Linea.JsonValues
import Linea.Separators
import Mathlib.Data.List.Induction

/-! What JavaScript does to strings and to lists of strings before a request is kept: trimming, lower
case, and lists without repetitions in the order of their code units. -/
namespace Linea.TextEdits

open JsonText (Text UnitsLE UnitsLE.antisymm)

/-- The white space and line terminators that `String.prototype.trim` removes. -/
def isWhiteSpace (u : UInt16) : Bool :=
  9 ≤ u && u ≤ 13 || u == 32 || u == 0xA0 || u == 0x1680 || 0x2000 ≤ u && u ≤ 0x200A ||
    u == 0x2028 || u == 0x2029 || u == 0x202F || u == 0x205F || u == 0x3000 || u == 0xFEFF

def trimStart (s : Text) : Text := s.dropWhile isWhiteSpace

def trimEnd (s : Text) : Text := (s.reverse.dropWhile isWhiteSpace).reverse

def trim (s : Text) : Text := trimEnd (trimStart s)

lemma dropWhile_dropWhile (p : UInt16 → Bool) (s : Text) :
    (s.dropWhile p).dropWhile p = s.dropWhile p := by
  induction s with
  | nil => rfl
  | cons u s ih =>
    by_cases hu : p u = true
    · rw [List.dropWhile_cons_of_pos hu,ih]
    · rw [List.dropWhile_cons_of_neg hu,List.dropWhile_cons_of_neg hu]

/-- What is left at the start after the end has been trimmed is no white space either. -/
lemma trimStart_trimEnd {s : Text} (h : trimStart s = s) : trimStart (trimEnd s) = trimEnd s := by
  cases s with
  | nil => rfl
  | cons u s =>
    have hu : isWhiteSpace u ≠ true := by
      intro hu
      rw [trimStart,List.dropWhile_cons_of_pos hu] at h
      have hlen := (List.dropWhile_suffix isWhiteSpace (l := s)).length_le
      rw [h,List.length_cons] at hlen
      omega
    obtain ⟨t,ht⟩ : ∃ t, trimEnd (u :: s) = u :: t := by
      refine ⟨(s.reverse.dropWhile isWhiteSpace).reverse,?_⟩
      rw [trimEnd,List.reverse_cons,List.dropWhile_append]
      split
      · next hempty =>
        rw [List.isEmpty_iff] at hempty
        rw [hempty,List.dropWhile_cons_of_neg hu]
        rfl
      · simp
    rw [ht,trimStart,List.dropWhile_cons_of_neg hu]

lemma trim_trim (s : Text) : trim (trim s) = trim s := by
  have hstart : trimStart (trim s) = trim s :=
    trimStart_trimEnd (dropWhile_dropWhile isWhiteSpace s)
  rw [trim,hstart,trim,trimEnd,trimEnd,List.reverse_reverse,dropWhile_dropWhile]

/-- `toLowerCase` where the string is ASCII. -/
def toLowerCase (s : Text) : Text := s.map fun u => if 65 ≤ u && u ≤ 90 then u + 32 else u

/-- The members of a set built from a list, in the order they came in. -/
def newSet (items : List Text) : List Text :=
  items.foldl (fun seen item => if item ∈ seen then seen else seen ++ [item]) []

lemma newSet_append (items : List Text) (item : Text) :
    newSet (items ++ [item]) =
      if item ∈ newSet items then newSet items else newSet items ++ [item] := by
  rw [newSet,List.foldl_append]
  rfl

lemma mem_newSet {items : List Text} {item : Text} : item ∈ newSet items ↔ item ∈ items := by
  induction items using List.reverseRecOn with
  | nil => exact Iff.rfl
  | append_singleton items last ih =>
    rw [newSet_append]
    split
    · next hmem =>
      rw [List.mem_append,List.mem_singleton,ih]
      exact ⟨.inl,fun h => h.elim id fun heq => heq ▸ ih.mp (heq ▸ hmem)⟩
    · rw [List.mem_append,List.mem_append,ih]

lemma newSet_nodup (items : List Text) : (newSet items).Nodup := by
  induction items using List.reverseRecOn with
  | nil => exact List.nodup_nil
  | append_singleton items last ih =>
    rw [newSet_append]
    split
    · exact ih
    · next hmem =>
      refine List.nodup_append.mpr ⟨ih,List.nodup_singleton _,?_⟩
      rintro item hitem other hother rfl
      exact hmem (List.mem_singleton.mp hother ▸ hitem)

lemma newSet_of_nodup {items : List Text} (h : items.Nodup) : newSet items = items := by
  induction items using List.reverseRecOn with
  | nil => rfl
  | append_singleton items last ih =>
    obtain ⟨hinit,_,hdisjoint⟩ := List.nodup_append.mp h
    rw [newSet_append,ih hinit,if_neg fun hmem => hdisjoint _ hmem _ (by simp) rfl]

lemma newSet_length_le (items : List Text) : (newSet items).length ≤ items.length := by
  induction items using List.reverseRecOn with
  | nil => exact le_refl _
  | append_singleton items last ih =>
    rw [newSet_append]
    split
    · simp
      omega
    · simpa using ih

instance : Std.Total UnitsLE where
  total s t := le_total (s.map UInt16.toNat) (t.map UInt16.toNat)

instance : IsTrans Text UnitsLE where
  trans s _ _ := le_trans (a := s.map UInt16.toNat)

/-- `[...new Set(items)].sort(compareUtf16CodeUnits)`. -/
def distinctSorted (items : List Text) : List Text := (newSet items).insertionSort UnitsLE

lemma distinctSorted_perm (items : List Text) : (distinctSorted items).Perm (newSet items) :=
  List.perm_insertionSort _ _

lemma mem_distinctSorted {items : List Text} {item : Text} :
    item ∈ distinctSorted items ↔ item ∈ items :=
  (distinctSorted_perm items).mem_iff.trans mem_newSet

lemma distinctSorted_length_le (items : List Text) :
    (distinctSorted items).length ≤ items.length :=
  (distinctSorted_perm items).length_eq.trans_le (newSet_length_le items)

lemma distinctSorted_distinctSorted (items : List Text) :
    distinctSorted (distinctSorted items) = distinctSorted items := by
  have hnodup : (distinctSorted items).Nodup :=
    (distinctSorted_perm items).nodup_iff.mpr (newSet_nodup items)
  have hsorted : (distinctSorted items).Pairwise UnitsLE := List.pairwise_insertionSort _ _
  rw [distinctSorted,newSet_of_nodup hnodup]
  exact hsorted.insertionSort_eq

end Linea.TextEdits
