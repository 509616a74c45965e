import Linea.TransactionRules

/-! Programs that leave alone what a discipline is about. A `Frame` relates two stores that agree
on it; a program all of whose commits stay within the relation keeps to the discipline whatever the
other clients do, and needs no locks for it. -/
namespace Linea

namespace Tx
variable {σ κ ι α β : Type}

/-- What a program of reads returns when nobody writes in between. -/
def reads (s : σ) : Tx σ κ ι α → Option α
  | .pure a => some a
  | .lock _ next => (next s).reads s
  | .halt _ | .write _ _ | .commit _ | .receive _ => none

/-- Every write is among the `allowed` ones. -/
def Writes (allowed : (σ → σ) → Prop) : Tx σ κ ι α → Prop
  | .pure _ => True
  | .halt _ => True
  | .lock _ next => ∀ s, (next s).Writes allowed
  | .write change next => allowed change ∧ next.Writes allowed
  | .commit next => next.Writes allowed
  | .receive next => ∀ reply, (next reply).Writes allowed

/-- No write and no commit. -/
abbrev ReadOnly (program : Tx σ κ ι α) : Prop := program.Confined (fun _ => False) fun _ => True

end Tx

namespace Discipline
variable {σ κ χ ι α β : Type}

/-- Reads leave the uncommitted writes as they are, and nothing is forgotten. -/
theorem wp_readOnly {D : Discipline σ κ χ} {c : χ} {held : Set κ} {pending : σ → σ}
    {known : σ → Prop} {program : Tx σ κ ι α} {post : Set κ → (σ → σ) → (σ → Prop) → α → Prop}
    (hpermits : ∀ message, D.permits message) (h : program.ReadOnly)
    (hpost : ∀ a held' known', held ⊆ held' → (∀ t, known' t → known t) →
      post held' pending known' a) : D.wp c program held pending known post := by
  induction program generalizing held known with
  | pure a => exact hpost a held known subset_rfl fun _ ht => ht
  | halt message => exact hpermits message
  | lock rows next ih =>
    intro s _ _
    refine ih _ (h _) fun a held' known' hsub hknown => ?_
    exact hpost a held' known' (Set.subset_union_left.trans hsub) fun t ht => (hknown t ht).1
  | write change next ih => exact h.1.elim
  | commit next ih => exact h.elim
  | receive next ih => exact fun reply => ih reply (h reply) hpost

structure Frame (D : Discipline σ κ χ) where
  kept : σ → σ → Prop
  refl : ∀ s, kept s s
  trans : ∀ {s t u}, kept s t → kept t u → kept s u
  move : ∀ {c held s s'}, D.inv s → kept s s' → D.move c held s s'
  permits : ∀ message, D.permits message

namespace Frame
variable {D : Discipline σ κ χ} (F : Frame D)

/-- Uncommitted writes that stay within the frame. -/
def Quiet (known : σ → Prop) (pending : σ → σ) : Prop :=
  ∀ s, D.inv s → known s → F.kept s (pending s)

/-- Whatever the program commits stays within the frame. -/
structure Calm (program : Tx σ κ ι α) : Prop where
  quiet : ∀ {c held pending known}, F.Quiet known pending →
    D.wp c program held pending known fun _ pending known _ => F.Quiet known pending

variable {F} {c : χ} {held : Set κ} {pending : σ → σ} {known known' : σ → Prop}
  {program : Tx σ κ ι α} {next : α → Tx σ κ ι β}
  {post : Set κ → (σ → σ) → (σ → Prop) → β → Prop}

theorem quiet_id : F.Quiet known id := fun s _ _ => F.refl s

theorem Quiet.mono (h : F.Quiet known pending) (hknown : ∀ s, known' s → known s) :
    F.Quiet known' pending :=
  fun s hinv hs => h s hinv (hknown s hs)

theorem Quiet.update (h : F.Quiet known pending) {change : σ → σ}
    (hchange : ∀ s, D.inv s → known s → F.kept (pending s) (change (pending s))) :
    F.Quiet known fun s => change (pending s) :=
  fun s hinv hs => F.trans (h s hinv hs) (hchange s hinv hs)

theorem Calm.pure {a : α} : F.Calm (Pure.pure a : Tx σ κ ι α) := ⟨fun h => h⟩

theorem Calm.halt {message : String} : F.Calm (.halt message : Tx σ κ ι α) :=
  ⟨fun _ => F.permits message⟩

theorem Calm.selectForUpdate {rows : σ → List κ} {view : σ → α} :
    F.Calm (Tx.selectForUpdate rows view : Tx σ κ ι α) :=
  ⟨fun h => wp_selectForUpdate fun _ _ _ => h.mono fun _ ht => ht.1⟩

theorem Calm.select {view : σ → α} : F.Calm (Tx.select view : Tx σ κ ι α) :=
  ⟨fun h => wp_select fun _ _ _ => h.mono fun _ ht => ht.1⟩

theorem Calm.receiving {view : ι → α} : F.Calm (Tx.receiving view : Tx σ κ ι α) :=
  ⟨fun h => wp_receiving fun _ => h⟩

theorem Calm.update {change : σ → σ} (hchange : ∀ s, F.kept s (change s)) :
    F.Calm (Tx.update change : Tx σ κ ι Unit) :=
  ⟨fun h => wp_update.mpr (h.update fun _ _ _ => hchange _)⟩

theorem Calm.bind (h : F.Calm program) (hnext : ∀ a, F.Calm (next a)) :
    F.Calm (program >>= next) := by
  refine ⟨fun hquiet => wp_bind.mpr (wp_mono (h.quiet hquiet) (fun _ hs => hs) ?_)⟩
  intro held pending known known' a hknown hquiet
  exact (hnext a).quiet (hquiet.mono hknown)

theorem Calm.transaction (h : F.Calm program) : F.Calm program.transaction := by
  refine ⟨fun hquiet => wp_transaction.mpr (wp_mono (h.quiet hquiet) (fun _ hs => hs) ?_)⟩
  intro held pending known known' a hknown hquiet s hinv hs
  exact ⟨F.move hinv (hquiet s hinv (hknown s hs)), quiet_id⟩

/-- The rest of a program after a calm one; a permanent fact stays known. -/
theorem Calm.bind_of {fact : σ → Prop} (h : F.Calm program) (hfact : D.Permanent fact)
    (hquiet : F.Quiet known pending) (hknown : ∀ s, known s → fact s)
    (hnext : ∀ a held' pending' known', F.Quiet known' pending' → (∀ s, known' s → fact s) →
      D.wp c (next a) held' pending' known' post) :
    D.wp c (program >>= next) held pending known post := by
  refine wp_bind.mpr (wp_mono (wp_frame hfact (h.quiet hquiet)) (fun s hs => ⟨hs, hknown s hs⟩) ?_)
  rintro held pending known known' a hsub ⟨known'', hquiet, himp⟩
  refine hnext a held pending known' (hquiet.mono fun s hs => (himp s (hsub s hs)).1) fun s hs => ?_
  exact (himp s (hsub s hs)).2

/-- A program is calm when each of its writes stays within the frame. -/
theorem calm_of_writes (h : program.Writes fun change => ∀ s, F.kept s (change s)) :
    F.Calm program := by
  induction program with
  | pure a => exact Calm.pure
  | halt message => exact Calm.halt
  | lock rows next ih =>
    refine ⟨fun hquiet s hinv hs => ?_⟩
    exact (ih _ (h _)).quiet (hquiet.mono fun _ ht => ht.1)
  | write change next ih =>
    exact ⟨fun hquiet => (ih h.2).quiet (hquiet.update fun s _ _ => h.1 _)⟩
  | commit next ih =>
    refine ⟨fun hquiet s hinv hs => ?_⟩
    exact ⟨F.move hinv (hquiet s hinv hs), (ih h).quiet quiet_id⟩
  | receive next ih => exact ⟨fun hquiet reply => (ih reply (h reply)).quiet hquiet⟩

theorem Calm.keeps {program : Tx σ κ ι Unit} (h : F.Calm program) :
    D.wp c program ∅ id (fun _ => True) fun _ _ _ _ => True :=
  wp_mono (h.quiet quiet_id) (fun _ hs => hs) fun _ _ _ _ _ _ _ => trivial

end Frame
end Discipline
end Linea
