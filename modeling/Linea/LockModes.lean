import Linea.TransactionRules

/-! Share and exclusive row locks. Among `n` clients a row has one slot for each of them: a share
lock is the client's own slot, an exclusive lock all slots, so that shares do not conflict and
anything else does. A statement with a condition finds rows in its snapshot, waits for their locks
and looks at them again. -/
namespace Linea.LockModes

variable {ρ σ ι α β : Type}

abbrev Slot (ρ : Type) := ρ × ℕ

def share (c : ℕ) (row : ρ) : List (Slot ρ) := [(row,c)]

def exclusive (n : ℕ) (row : ρ) : List (Slot ρ) := (List.range n).map (row,·)

/-- A client that holds the row at least in share mode. -/
def Shares (n c : ℕ) (held : Set (Slot ρ)) (row : ρ) : Prop := c < n ∧ (row,c) ∈ held

def Excludes (n : ℕ) (held : Set (Slot ρ)) (row : ρ) : Prop := ∀ i < n,(row,i) ∈ held

section Modes

variable {n c d : ℕ} {held held' : Set (Slot ρ)} {row : ρ}

lemma Shares.mono (h : Shares n c held row) (hsub : held ⊆ held') : Shares n c held' row :=
  ⟨h.1,hsub h.2⟩

lemma Excludes.mono (h : Excludes n held row) (hsub : held ⊆ held') : Excludes n held' row :=
  fun _ hi => hsub (h _ hi)

lemma Excludes.shares (h : Excludes n held row) (hc : c < n) : Shares n c held row := ⟨hc,h c hc⟩

lemma shares_of_mem (hc : c < n) (h : ∀ k ∈ share c row,k ∈ held) : Shares n c held row :=
  ⟨hc,h _ (List.mem_singleton_self _)⟩

lemma excludes_of_mem (h : ∀ k ∈ exclusive n row,k ∈ held) : Excludes n held row :=
  fun _ hi => h _ (List.mem_map_of_mem (List.mem_range.mpr hi))

lemma Shares.not_excludes (h : Shares n c held row) (hdisjoint : Disjoint held' held) :
    ¬Excludes n held' row :=
  fun hall => Set.disjoint_left.mp hdisjoint (hall c h.1) h.2

lemma Excludes.not_shares (h : Excludes n held row) (hdisjoint : Disjoint held' held) :
    ¬Shares n d held' row :=
  fun hother => Set.disjoint_left.mp hdisjoint hother.2 (h d hother.1)

/-- Shares of a row are compatible, and an exclusive lock is compatible with nothing. -/
theorem modes_conflict (hc : c < n) (hne : c ≠ d) :
    Disjoint {k | k ∈ share c row} {k | k ∈ share d row} ∧
      ¬Disjoint {k | k ∈ share c row} {k | k ∈ exclusive n row} ∧
      ¬Disjoint {k | k ∈ exclusive n row} {k | k ∈ exclusive n row} := by
  have hall : (row,c) ∈ exclusive n row := List.mem_map_of_mem (List.mem_range.mpr hc)
  refine ⟨Set.disjoint_left.mpr fun k hk hk' => ?_,fun h => ?_,fun h => ?_⟩
  · rw [Set.mem_ofPred_eq,share,List.mem_singleton] at hk hk'
    exact hne (Prod.mk.inj (hk.symm.trans hk')).2
  · exact Set.disjoint_left.mp h (List.mem_singleton_self (row,c)) hall
  · exact Set.disjoint_left.mp h hall hall

end Modes

section Statements

/-- One row: `found` is what the snapshot shows, and `again` what is left of it with the lock. -/
def lockWhere (locks : α → List (Slot ρ)) (found : σ → Option α) (again : α → σ → Option β) :
    Tx σ (Slot ρ) ι (Option β) := do
  match ← Tx.select found with
  | none => pure none
  | some a => Tx.selectForUpdate (fun _ => locks a) (again a)

/-- All rows that the snapshot shows. -/
def lockAll (locks : α → List (Slot ρ)) (found : σ → List α) : Tx σ (Slot ρ) ι (List α) := do
  let rows ← Tx.select found
  Tx.selectForUpdate (fun _ => rows.flatMap locks) fun _ => rows

variable {χ γ : Type} {D : Discipline σ (Slot ρ) χ} {c : χ} {held : Set (Slot ρ)} {pending : σ → σ}
  {known : σ → Prop} {post : Set (Slot ρ) → (σ → σ) → (σ → Prop) → γ → Prop}

open Discipline

lemma wp_lockWhere_bind {locks : α → List (Slot ρ)} {found : σ → Option α}
    {again : α → σ → Option β}
    {next : Option β → Tx σ (Slot ρ) ι γ} (hnone : ∀ known', (∀ t, known' t → known t) →
      D.wp c (next none) held pending known' post)
    (hsome : ∀ s₀ a s held' known', D.inv s₀ → known s₀ → found (pending s₀) = some a → D.inv s →
      known s → D.Rely c held s₀ s → held ⊆ held' → (∀ k ∈ locks a,k ∈ held') →
      (∀ t, known' t → known t ∧ D.Rely c held' s t) →
      D.wp c (next (again a (pending s))) held' pending known' post) :
    D.wp c (lockWhere locks found again >>= next) held pending known post := by
  refine wp_bind.mpr (wp_select_bind fun s₀ known₀ hinv₀ hs₀ hknown₀ => ?_)
  cases hfound : found (pending s₀) with
  | none => exact hnone known₀ fun t ht => (hknown₀ t ht).1
  | some a =>
    refine wp_selectForUpdate fun s hinv hs => ?_
    exact hsome s₀ a s _ _ hinv₀ hs₀ hfound hinv (hknown₀ s hs).1 (hknown₀ s hs).2
      Set.subset_union_left (fun k hk => Set.mem_union_right _ hk)
      fun t ht => ⟨(hknown₀ t ht.1).1,ht.2⟩

/-- The same, with one case for a row that is not there or no longer meets the condition. -/
lemma wp_lockWhere_cases {locks : α → List (Slot ρ)} {found : σ → Option α}
    {again : α → σ → Option β} {next : Option β → Tx σ (Slot ρ) ι γ}
    (hnone : ∀ held' known', held ⊆ held' → (∀ t, known' t → known t) →
      D.wp c (next none) held' pending known' post)
    (hsome : ∀ a b s held' known', D.inv s → known s → again a (pending s) = some b →
      held ⊆ held' → (∀ k ∈ locks a,k ∈ held') →
      (∀ t, known' t → known t ∧ D.Rely c held' s t) →
      D.wp c (next (some b)) held' pending known' post) :
    D.wp c (lockWhere locks found again >>= next) held pending known post := by
  refine wp_lockWhere_bind (hnone _ · subset_rfl) ?_
  intro s₀ a s held' known' _ _ _ hinv hs _ hsub hlocks hknown
  cases hagain : again a (pending s) with
  | none => exact hnone held' known' hsub fun t ht => (hknown t ht).1
  | some b => exact hsome a b s held' known' hinv hs hagain hsub hlocks hknown

lemma wp_lockAll_bind {locks : α → List (Slot ρ)} {found : σ → List α}
    {next : List α → Tx σ (Slot ρ) ι γ}
    (h : ∀ s₀ rows held' known', D.inv s₀ → known s₀ → found (pending s₀) = rows → held ⊆ held' →
      (∀ a ∈ rows,∀ k ∈ locks a,k ∈ held') → (∀ t, known' t → known t ∧ D.Rely c held s₀ t) →
      D.wp c (next rows) held' pending known' post) :
    D.wp c (lockAll locks found >>= next) held pending known post := by
  refine wp_bind.mpr (wp_select_bind fun s₀ known₀ hinv₀ hs₀ hknown₀ => ?_)
  refine wp_selectForUpdate fun s hinv hs => ?_
  refine h s₀ _ _ _ hinv₀ hs₀ rfl Set.subset_union_left
    (fun a ha k hk => Set.mem_union_right _ (List.mem_flatMap.mpr ⟨a,ha,hk⟩)) ?_
  exact fun t ht => hknown₀ t ht.1

end Statements
end Linea.LockModes
