import Mathlib

/-! Finite maps that iterate in insertion order. Writing a present key keeps its place,
writing a new key appends it; the entry list never repeats a key. -/
namespace Linea

structure OrderedMap (κ ν : Type*) where
  entries : List (κ × ν)
  nodup : (entries.map Prod.fst).Nodup

namespace OrderedMap
variable {κ ν : Type*} [DecidableEq κ]

def empty : OrderedMap κ ν := ⟨[], List.nodup_nil⟩

def keys (m : OrderedMap κ ν) : List κ := m.entries.map Prod.fst

def size (m : OrderedMap κ ν) : ℕ := m.entries.length

def get? (m : OrderedMap κ ν) (k : κ) : Option ν :=
  (m.entries.find? fun p => p.1 = k).map Prod.snd

def has (m : OrderedMap κ ν) (k : κ) : Bool := decide (k ∈ m.keys)

/-- Overwrite the value of `k` wherever it stands. -/
def overwrite (k : κ) (v : ν) (l : List (κ × ν)) : List (κ × ν) :=
  l.map fun p => if p.1 = k then (k, v) else p

omit [DecidableEq κ] in
@[ext]
theorem ext {m n : OrderedMap κ ν} (h : m.entries = n.entries) : m = n := by
  cases m
  cases n
  simp_all

theorem overwrite_keys (k : κ) (v : ν) (l : List (κ × ν)) :
    (overwrite k v l).map Prod.fst = l.map Prod.fst := by
  simp only [overwrite, List.map_map]
  apply List.map_congr_left
  intro p _
  by_cases h : p.1 = k <;> simp [h]

def set (m : OrderedMap κ ν) (k : κ) (v : ν) : OrderedMap κ ν :=
  if h : k ∈ m.keys then
    ⟨overwrite k v m.entries, by rw [overwrite_keys]; exact m.nodup⟩
  else
    ⟨m.entries ++ [(k, v)], by
      rw [List.map_append, List.nodup_append']
      exact ⟨m.nodup, by simp, by simpa [keys] using h⟩⟩

/-- Rewrite the values in place. -/
def mapValues (f : κ → ν → ν) (m : OrderedMap κ ν) : OrderedMap κ ν where
  entries := m.entries.map fun p => (p.1, f p.1 p.2)
  nodup := by
    rw [List.map_map]
    exact m.nodup

/-- A map built from a list of pairs: a later pair for a key wins, the first one fixes its place. -/
def ofList (l : List (κ × ν)) : OrderedMap κ ν := l.foldl (fun m p => m.set p.1 p.2) empty

@[simp] theorem has_iff {m : OrderedMap κ ν} {k : κ} : m.has k = true ↔ k ∈ m.keys := by
  simp [has]

omit [DecidableEq κ] in
@[simp] theorem keys_empty : (empty : OrderedMap κ ν).keys = [] := rfl

@[simp] theorem get?_empty (k : κ) : (empty : OrderedMap κ ν).get? k = none := rfl

omit [DecidableEq κ] in
theorem keys_nodup (m : OrderedMap κ ν) : m.keys.Nodup := m.nodup

omit [DecidableEq κ] in
theorem size_eq_length (m : OrderedMap κ ν) : m.size = m.keys.length := by
  simp [size, keys]

theorem mem_of_get? {m : OrderedMap κ ν} {k : κ} {v : ν} (h : m.get? k = some v) :
    (k, v) ∈ m.entries := by
  obtain ⟨p, hp, rfl⟩ := Option.map_eq_some_iff.mp h
  have hk : p.1 = k := by simpa using List.find?_some hp
  subst hk
  exact List.mem_of_find?_eq_some hp

omit [DecidableEq κ] in
theorem entry_unique {m : OrderedMap κ ν} {k : κ} {v w : ν}
    (hv : (k, v) ∈ m.entries) (hw : (k, w) ∈ m.entries) : v = w := by
  have := List.inj_on_of_nodup_map m.nodup hv hw rfl
  exact (Prod.mk.inj this).2

theorem get?_iff_mem {m : OrderedMap κ ν} {k : κ} {v : ν} :
    m.get? k = some v ↔ (k, v) ∈ m.entries := by
  refine ⟨mem_of_get?, fun h => ?_⟩
  cases hf : m.get? k with
  | none =>
    simp only [get?, Option.map_eq_none_iff, List.find?_eq_none] at hf
    exact absurd (hf _ h) (by simp)
  | some w => rw [entry_unique (mem_of_get? hf) h]

theorem get?_eq_none_iff {m : OrderedMap κ ν} {k : κ} : m.get? k = none ↔ k ∉ m.keys := by
  constructor
  · intro h hk
    obtain ⟨p, hp, rfl⟩ := List.mem_map.mp hk
    rw [get?_iff_mem.mpr hp] at h
    cases h
  · intro h
    cases hf : m.get? k with
    | none => rfl
    | some v => exact absurd (List.mem_map_of_mem (mem_of_get? hf)) h

theorem mem_keys_iff {m : OrderedMap κ ν} {k : κ} : k ∈ m.keys ↔ ∃ v, m.get? k = some v := by
  rw [← not_iff_not, ← get?_eq_none_iff]
  cases m.get? k <;> simp

theorem entries_set_of_notMem {m : OrderedMap κ ν} {k : κ} (h : k ∉ m.keys) (v : ν) :
    (m.set k v).entries = m.entries ++ [(k, v)] := by simp [set, h]

theorem keys_set_of_notMem {m : OrderedMap κ ν} {k : κ} (h : k ∉ m.keys) (v : ν) :
    (m.set k v).keys = m.keys ++ [k] := by simp [keys, entries_set_of_notMem h]

theorem keys_set_of_mem {m : OrderedMap κ ν} {k : κ} (h : k ∈ m.keys) (v : ν) :
    (m.set k v).keys = m.keys := by
  rw [set, dif_pos h]
  exact overwrite_keys k v m.entries

@[simp] theorem mem_keys_set {m : OrderedMap κ ν} {k j : κ} {v : ν} :
    j ∈ (m.set k v).keys ↔ j = k ∨ j ∈ m.keys := by
  by_cases h : k ∈ m.keys
  · rw [keys_set_of_mem h]
    constructor
    · exact Or.inr
    · rintro (rfl | hj)
      · exact h
      · exact hj
  · rw [keys_set_of_notMem h]
    simp [or_comm]

theorem size_set_of_notMem {m : OrderedMap κ ν} {k : κ} (h : k ∉ m.keys) (v : ν) :
    (m.set k v).size = m.size + 1 := by simp [size, entries_set_of_notMem h]

omit [DecidableEq κ] in
@[simp] theorem keys_mapValues (f : κ → ν → ν) (m : OrderedMap κ ν) :
    (m.mapValues f).keys = m.keys := by
  simp [mapValues, keys, Function.comp_def]

theorem get?_mapValues (f : κ → ν → ν) (m : OrderedMap κ ν) (k : κ) :
    (m.mapValues f).get? k = (m.get? k).map (f k) := by
  cases h : m.get? k with
  | none =>
    rw [get?_eq_none_iff] at h
    simpa [get?_eq_none_iff] using h
  | some v =>
    rw [get?_iff_mem] at h
    rw [Option.map_some, get?_iff_mem]
    exact List.mem_map.mpr ⟨(k, v), h, rfl⟩

@[simp] theorem get?_set_self (m : OrderedMap κ ν) (k : κ) (v : ν) :
    (m.set k v).get? k = some v := by
  rw [get?_iff_mem]
  by_cases h : k ∈ m.keys
  · simp only [set, h, dite_true, overwrite, List.mem_map]
    obtain ⟨p, hp, he⟩ := List.mem_map.mp h
    exact ⟨p, hp, by simp [he]⟩
  · simp [entries_set_of_notMem h]

theorem get?_set_of_ne (m : OrderedMap κ ν) {k j : κ} (hne : j ≠ k) (v : ν) :
    (m.set k v).get? j = m.get? j := by
  apply Option.ext
  intro w
  rw [get?_iff_mem, get?_iff_mem]
  by_cases h : k ∈ m.keys
  · simp only [set, h, dite_true, overwrite, List.mem_map]
    constructor
    · rintro ⟨p, hp, he⟩
      by_cases hk : p.1 = k
      · simp [hk, hne.symm] at he
      · simp only [hk, if_false] at he
        exact he ▸ hp
    · intro hp
      exact ⟨(j, w), hp, by simp [hne]⟩
  · simp [entries_set_of_notMem h, hne]

theorem get?_set (m : OrderedMap κ ν) (k j : κ) (v : ν) :
    (m.set k v).get? j = if j = k then some v else m.get? j := by
  by_cases h : j = k
  · subst h; simp
  · simp [h, get?_set_of_ne m h]

/-- A list without repeated keys is the entry list of the map it builds. -/
theorem entries_ofList {l : List (κ × ν)} (h : (l.map Prod.fst).Nodup) :
    (ofList l).entries = l := by
  induction l using List.reverseRecOn with
  | nil => rfl
  | append_singleton l p ih =>
    rw [List.map_append, List.nodup_append'] at h
    have hl := ih h.1
    have hk : p.1 ∉ (ofList l).keys := by
      intro hm
      rw [keys, hl] at hm
      exact h.2.2 hm (by simp)
    have hs : ofList (l ++ [p]) = (ofList l).set p.1 p.2 := by simp [ofList, List.foldl_append]
    rw [hs, entries_set_of_notMem hk, hl]

theorem ofList_entries (m : OrderedMap κ ν) : ofList m.entries = m :=
  ext (entries_ofList m.nodup)

/-- Every binding of the first map is a binding of the second. -/
def Extends (m n : OrderedMap κ ν) : Prop := ∀ k v, m.get? k = some v → n.get? k = some v

theorem Extends.refl (m : OrderedMap κ ν) : Extends m m := fun _ _ h => h

theorem Extends.trans {m n p : OrderedMap κ ν} (h : Extends m n) (g : Extends n p) :
    Extends m p := fun k v hm => g k v (h k v hm)

theorem Extends.keys {m n : OrderedMap κ ν} (h : Extends m n) {k : κ} (hk : k ∈ m.keys) :
    k ∈ n.keys := by
  obtain ⟨v, hv⟩ := mem_keys_iff.mp hk
  exact mem_keys_iff.mpr ⟨v, h k v hv⟩

theorem extends_set {m : OrderedMap κ ν} {k : κ} (h : k ∉ m.keys) (v : ν) :
    Extends m (m.set k v) := by
  intro j w hj
  rw [get?_set_of_ne]
  · exact hj
  · rintro rfl
    exact h (mem_keys_iff.mpr ⟨w, hj⟩)

theorem extends_empty (m : OrderedMap κ ν) : Extends empty m := by
  intro k v h
  simp at h

end OrderedMap
end Linea
