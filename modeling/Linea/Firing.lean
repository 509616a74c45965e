import Linea.OrderedMap

/-! Monotone firing systems. A key is given a value once, when a rule allows it in the map
built so far; a rule that holds keeps holding as the map grows. Runs of such a system only
extend the map, and when the rule is single-valued all runs that cannot be continued end in
the same map, whatever the order of the firings. -/
namespace Linea

open OrderedMap

variable {κ ν : Type*} [DecidableEq κ]

/-- A firing rule: in map `m`, key `k` may be given value `v`. -/
abbrev FiringRule (κ ν : Type*) := OrderedMap κ ν → κ → ν → Prop

namespace FiringRule

def Monotone (fires : FiringRule κ ν) : Prop :=
  ∀ m n k v, Extends m n → fires m k v → fires n k v

def SingleValued (fires : FiringRule κ ν) : Prop :=
  ∀ m k v w, fires m k v → fires m k w → v = w

/-- No key outside the map can fire. -/
def Saturated (fires : FiringRule κ ν) (m : OrderedMap κ ν) : Prop :=
  ∀ k v, fires m k v → k ∈ m.keys

/-- A sequence of firings of new keys. -/
inductive Fired (fires : FiringRule κ ν) :
    OrderedMap κ ν → List (κ × ν) → OrderedMap κ ν → Prop
  | nil (m) : Fired fires m [] m
  | cons {m k v l m'} (new : k ∉ m.keys) (rule : fires m k v)
      (rest : Fired fires (m.set k v) l m') : Fired fires m ((k, v) :: l) m'

/-- Every binding of `s` was there in `m` or is one the rule still justifies. -/
def Supported (fires : FiringRule κ ν) (m s : OrderedMap κ ν) : Prop :=
  ∀ k v, s.get? k = some v → m.get? k = some v ∨ fires s k v

variable {fires : FiringRule κ ν} {m m' s s' : OrderedMap κ ν} {l l' : List (κ × ν)}

theorem Fired.extends (h : Fired fires m l m') : Extends m m' := by
  induction h with
  | nil m => exact Extends.refl m
  | cons new _ _ ih => exact (extends_set new _).trans ih

theorem Fired.entries (h : Fired fires m l m') : m'.entries = m.entries ++ l := by
  induction h with
  | nil m => simp
  | cons new _ _ ih => rw [ih, entries_set_of_notMem new]; simp

theorem Fired.keys (h : Fired fires m l m') : m'.keys = m.keys ++ l.map Prod.fst := by
  simp [OrderedMap.keys, h.entries]

theorem Fired.snoc {k : κ} {v : ν} (h : Fired fires m l m') (new : k ∉ m'.keys)
    (rule : fires m' k v) : Fired fires m (l ++ [(k, v)]) (m'.set k v) := by
  induction h with
  | nil m => exact .cons new rule (.nil _)
  | cons hn hr _ ih => exact .cons hn hr (ih new rule)

theorem Fired.trans (h : Fired fires m l m') (g : Fired fires m' l' s) :
    Fired fires m (l ++ l') s := by
  induction h with
  | nil => exact g
  | cons hn hr _ ih => exact .cons hn hr (ih g)

/-- A run splits at every position. -/
theorem Fired.split (h : Fired fires m (l ++ l') s) :
    ∃ m', Fired fires m l m' ∧ Fired fires m' l' s := by
  induction l generalizing m with
  | nil => exact ⟨m, .nil m, h⟩
  | cons p l ih =>
    cases h with
    | cons hn hr rest =>
      obtain ⟨m', h1, h2⟩ := ih rest
      exact ⟨m', .cons hn hr h1, h2⟩

/-- Stopping a run after `i` firings and going on from the map reached there. -/
theorem Fired.at_take (h : Fired fires m l m') (i : ℕ) :
    ∃ s, Fired fires m (l.take i) s ∧ Fired fires s (l.drop i) m' :=
  Fired.split (by rw [List.take_append_drop]; exact h)

theorem Fired.mono {rule : FiringRule κ ν} (h : Fired fires m l m')
    (hle : ∀ m k v, fires m k v → rule m k v) : Fired rule m l m' := by
  induction h with
  | nil m => exact .nil m
  | cons new hr _ ih => exact .cons new (hle _ _ _ hr) ih

/-- The keys fired in a run are new and pairwise distinct. -/
theorem Fired.keys_nodup (h : Fired fires m l m') :
    (l.map Prod.fst).Nodup ∧ ∀ k ∈ l.map Prod.fst, k ∉ m.keys := by
  have hn := m'.keys_nodup
  rw [h.keys, List.nodup_append'] at hn
  exact ⟨hn.2.1, fun k hk hm => hn.2.2 hm hk⟩

theorem Fired.get? (h : Fired fires m l m') {k : κ} {v : ν} :
    m'.get? k = some v ↔ m.get? k = some v ∨ (k, v) ∈ l := by
  simp [get?_iff_mem, h.entries]

/-- Each firing of a run is still justified in the final map. -/
theorem Fired.justified (hm : Monotone fires) (h : Fired fires m l m') :
    ∀ p ∈ l, fires m' p.1 p.2 := by
  induction h with
  | nil => simp
  | cons new hr rest ih =>
    rintro p (_ | ⟨_, hp⟩)
    · exact hm _ _ _ _ ((extends_set new _).trans rest.extends) hr
    · exact ih p hp

theorem Fired.supported (hm : Monotone fires) (h : Fired fires m l m') :
    Supported fires m m' := by
  intro k v hk
  rcases h.get?.mp hk with hk | hk
  · exact Or.inl hk
  · exact Or.inr (h.justified hm _ hk)

/-- A run that starts inside a saturated, supported map never leaves it. -/
theorem Fired.absorbed (hm : Monotone fires) (hs : SingleValued fires)
    (h : Fired fires m l m') (sat : Saturated fires s) {base : OrderedMap κ ν}
    (sup : Supported fires base s) (hb : Extends base m) (hi : Extends m s) :
    Extends m' s := by
  induction h with
  | nil => exact hi
  | @cons m k v l m' new hr rest ih =>
    have hf : fires s k v := hm _ _ _ _ hi hr
    obtain ⟨w, hw⟩ := mem_keys_iff.mp (sat k v hf)
    have hv : w = v := by
      rcases sup k w hw with hbase | hjust
      · exact absurd (mem_keys_iff.mpr ⟨w, hb k w hbase⟩) new
      · exact hs _ _ _ _ hjust hf
    subst hv
    refine ih (hb.trans (extends_set new _)) fun j u hj => ?_
    rw [get?_set] at hj
    split_ifs at hj with he
    · cases hj; subst he; exact hw
    · exact hi j u hj

/-- Confluence: runs from one map that cannot be continued end with the same bindings. -/
theorem Fired.confluent (hm : Monotone fires) (hs : SingleValued fires)
    (h : Fired fires m l s) (g : Fired fires m l' s')
    (sat : Saturated fires s) (sat' : Saturated fires s') (k : κ) : s.get? k = s'.get? k := by
  have h1 := h.absorbed hm hs sat' (g.supported hm) (Extends.refl m) g.extends
  have h2 := g.absorbed hm hs sat (h.supported hm) (Extends.refl m) h.extends
  apply Option.ext
  exact fun v => ⟨h1 k v, h2 k v⟩

/-- Two runs from one map with the same final bindings fire the same pairs. -/
theorem Fired.perm_of_get?_eq (h : Fired fires m l s) (g : Fired fires m l' s')
    (heq : ∀ k, s.get? k = s'.get? k) : l.Perm l' := by
  have hl : l.Nodup := h.keys_nodup.1.of_map _
  have hl' : l'.Nodup := g.keys_nodup.1.of_map _
  rw [List.perm_ext_iff_of_nodup hl hl']
  rintro ⟨k, v⟩
  have hk : ∀ {l : List (κ × ν)} {s}, Fired fires m l s → (k, v) ∈ l →
      m.get? k = none := fun hf hmem =>
    get?_eq_none_iff.mpr (hf.keys_nodup.2 k (List.mem_map_of_mem hmem))
  constructor
  · intro hmem
    have := (heq k).symm.trans (h.get?.mpr (Or.inr hmem))
    rcases g.get?.mp this with hm | hm
    · rw [hk h hmem] at hm; cases hm
    · exact hm
  · intro hmem
    have := (heq k).trans (g.get?.mpr (Or.inr hmem))
    rcases h.get?.mp this with hm | hm
    · rw [hk g hmem] at hm; cases hm
    · exact hm

end FiringRule
end Linea
