import Linea.Transactions

/-! Rules for single statements, which hand on what is known as `known'`: it implies what was known
before and how the store has moved since the statement looked at it. A program on a part of the
store runs on the whole store with `Tx.within`. -/
namespace Linea

namespace Tx
variable {σ τ κ κ' ι ι' α β : Type}

/-- `select ... where id = ... for update`: a row that is not there is not locked. -/
def lockRow (lock : κ) (view : σ → Option α) : Tx σ κ ι (Option α) :=
  selectForUpdate (fun s => if (view s).isSome then [lock] else []) view

/-- An insert takes its place in a unique index unless a row is there. -/
def lockSlot (lock : κ) (view : σ → Option α) : Tx σ κ ι (Option α) :=
  selectForUpdate (fun s => if (view s).isSome then [] else [lock]) view

/-- A part of a store, read by `get` and written by `put`, and what its programs are called in the
whole: the locks they take, the replies they receive. -/
structure Part (σ τ κ κ' ι ι' : Type) where
  get : σ → τ
  put : τ → σ → σ
  lock : κ' → κ
  reply : ι → ι'

variable (part : Part σ τ κ κ' ι ι')

/-- A change of the part, as a change of the whole. -/
def Part.lift (change : τ → τ) (s : σ) : σ := part.put (change (part.get s)) s

/-- A program on a part of the store. -/
def within : Tx τ κ' ι' α → Tx σ κ ι α
  | .pure a => .pure a
  | .halt message => .halt message
  | .lock rows next => .lock (fun s => (rows (part.get s)).map part.lock) fun s =>
      within (next (part.get s))
  | .write change next => .write (part.lift change) (within next)
  | .commit next => .commit (within next)
  | .receive next => .receive fun reply => within (next (part.reply reply))

@[simp] theorem within_pure (a : α) :
    within part (pure a : Tx τ κ' ι' α) = (pure a : Tx σ κ ι α) := rfl

@[simp] theorem within_halt (message : String) :
    within part (.halt message : Tx τ κ' ι' α) = (.halt message : Tx σ κ ι α) := rfl

@[simp] theorem within_bind (program : Tx τ κ' ι' α) (next : α → Tx τ κ' ι' β) :
    within part (program >>= next) = within part program >>= fun a => within part (next a) := by
  change within part (program.bind next) = (within part program).bind fun a => within part (next a)
  induction program with
  | pure a => rfl
  | halt message => rfl
  | lock rows _ ih => simp only [bind, within, ih]
  | write change _ ih => simp only [bind, within, ih]
  | commit _ ih => simp only [bind, within, ih]
  | receive _ ih => simp only [bind, within, ih]

/-- Statements only: every write is among the `allowed` ones, and so is every message to halt with.
What it returns may be anything. -/
def Confined (allowed : (τ → τ) → Prop) (messages : String → Prop) : Tx τ κ' ι' α → Prop
  | .pure _ => True
  | .halt message => messages message
  | .lock _ next => ∀ s, Confined allowed messages (next s)
  | .write change next => allowed change ∧ Confined allowed messages next
  | .commit _ => False
  | .receive next => ∀ reply, Confined allowed messages (next reply)

section Confined
variable {allowed : (τ → τ) → Prop} {messages : String → Prop}

theorem Confined.bind {program : Tx τ κ' ι' α} {next : α → Tx τ κ' ι' β}
    (h : program.Confined allowed messages) (hnext : ∀ a, (next a).Confined allowed messages) :
    (program >>= next).Confined allowed messages := by
  change (program.bind next).Confined allowed messages
  induction program with
  | pure a => exact hnext a
  | halt message => exact h
  | lock rows _ ih => exact fun s => ih s (h s)
  | write change _ ih => exact ⟨h.1, ih h.2⟩
  | commit _ _ => exact h.elim
  | receive _ ih => exact fun reply => ih reply (h reply)

theorem Confined.pure {a : α} : (pure a : Tx τ κ' ι' α).Confined allowed messages := trivial

theorem Confined.halt {message : String} (h : messages message) :
    (.halt message : Tx τ κ' ι' α).Confined allowed messages := h

theorem Confined.selectForUpdate {rows : τ → List κ'} {view : τ → α} :
    (Tx.selectForUpdate rows view : Tx τ κ' ι' α).Confined allowed messages := fun _ => trivial

theorem Confined.select {view : τ → α} :
    (Tx.select view : Tx τ κ' ι' α).Confined allowed messages := fun _ => trivial

theorem Confined.update {change : τ → τ} (h : allowed change) :
    (Tx.update change : Tx τ κ' ι' Unit).Confined allowed messages := ⟨h, trivial⟩

end Confined

end Tx

namespace Discipline
variable {σ τ κ κ' χ ι ι' α β : Type} {D : Discipline σ κ χ} {c : χ} {held : Set κ}
  {pending : σ → σ} {known : σ → Prop} {next : α → Tx σ κ ι β}
  {post : Set κ → (σ → σ) → (σ → Prop) → β → Prop}

theorem wp_select_bind {view : σ → α}
    (h : ∀ s known', D.inv s → known s → (∀ t, known' t → known t ∧ D.Rely c held s t) →
      D.wp c (next (view (pending s))) held pending known' post) :
    D.wp c (Tx.select view >>= next) held pending known post :=
  wp_bind.mpr (wp_select fun s hinv hs => h s _ hinv hs fun _ ht => ht)

theorem wp_receiving_bind {view : ι → α}
    (h : ∀ reply, D.wp c (next (view reply)) held pending known post) :
    D.wp c (Tx.receiving view >>= next) held pending known post :=
  wp_bind.mpr (wp_receiving h)

theorem wp_update_bind {next : Unit → Tx σ κ ι β} {change : σ → σ}
    (h : D.wp c (next ()) held (fun s => change (pending s)) known post) :
    D.wp c (Tx.update change >>= next) held pending known post :=
  wp_bind.mpr (wp_update.mpr h)

/-- The locks of a statement, whatever it finds: more is held, as much is known. -/
theorem wp_lock_bind {rows : σ → List κ} {view : σ → α}
    (h : ∀ s held' known', D.inv s → known s → held ⊆ held' →
      (∀ k ∈ rows (pending s), k ∈ held') →
      (∀ t, known' t → known t ∧ D.Rely c held' s t) →
      D.wp c (next (view (pending s))) held' pending known' post) :
    D.wp c (Tx.selectForUpdate rows view >>= next) held pending known post := by
  refine wp_bind.mpr (wp_selectForUpdate fun s hinv hs => ?_)
  exact h s _ _ hinv hs Set.subset_union_left (fun k hk => Set.mem_union_right _ hk)
    fun _ ht => ht

theorem wp_lockRow_bind {lock : κ} {view : σ → Option α} {next : Option α → Tx σ κ ι β}
    (h : ∀ s held' known', D.inv s → known s → held ⊆ held' →
      (∀ x, view (pending s) = some x → lock ∈ held') →
      (∀ t, known' t → known t ∧ D.Rely c held' s t) →
      D.wp c (next (view (pending s))) held' pending known' post) :
    D.wp c (Tx.lockRow lock view >>= next) held pending known post := by
  refine wp_lock_bind fun s held' known' hinv hs hsub hlocked hknown => ?_
  refine h s held' known' hinv hs hsub (fun x hx => hlocked lock ?_) hknown
  rw [hx]
  exact List.mem_singleton_self lock

theorem wp_lockSlot_bind {lock : κ} {view : σ → Option α} {next : Option α → Tx σ κ ι β}
    (h : ∀ s held' known', D.inv s → known s → held ⊆ held' →
      (view (pending s) = none → lock ∈ held') →
      (∀ t, known' t → known t ∧ D.Rely c held' s t) →
      D.wp c (next (view (pending s))) held' pending known' post) :
    D.wp c (Tx.lockSlot lock view >>= next) held pending known post := by
  refine wp_lock_bind fun s held' known' hinv hs hsub hlocked hknown => ?_
  refine h s held' known' hinv hs hsub (fun hnone => hlocked lock ?_) hknown
  rw [hnone]
  exact List.mem_singleton_self lock

theorem wp_halt_bind {message : String} (h : D.permits message) :
    D.wp c ((.halt message : Tx σ κ ι α) >>= next) held pending known post := h

/-- A confined program on a part: nothing is learnt of what it returns, and its writes together
are a change of the part among the `allowed` ones. -/
theorem wp_within_bind {part : Tx.Part σ τ κ κ' ι ι'} {allowed : (τ → τ) → Prop}
    {program : Tx τ κ' ι' α} (hprogram : program.Confined allowed D.permits)
    (htrans : ∀ {f g : τ → τ}, allowed f → allowed g → allowed fun s => g (f s))
    (hput : ∀ t s, part.get (part.put t s) = t) (hputput : ∀ t t' s,
      part.put t (part.put t' s) = part.put t s) {before : τ → τ} (hbefore : allowed before)
    {base : σ → σ} (hpending : pending = fun s => part.lift before (base s))
    (h : ∀ a held' known' change, allowed change → held ⊆ held' → (∀ t, known' t → known t) →
      D.wp c (next a) held' (fun s => part.lift change (base s)) known' post) :
    D.wp c (Tx.within part program >>= next) held pending known post := by
  induction program generalizing held pending known before with
  | pure a =>
    subst hpending
    exact h a held known before hbefore subset_rfl fun _ ht => ht
  | halt message => exact hprogram
  | lock rows _ ih =>
    intro s _ _
    refine ih _ (hprogram _) hbefore hpending fun a held' known' change hchange hsub hknown => ?_
    exact h a held' known' change hchange (Set.subset_union_left.trans hsub)
      fun t ht => (hknown t ht).1
  | write change _ ih =>
    refine ih hprogram.2 (htrans hbefore hprogram.1) ?_ h
    subst hpending
    funext s
    simp only [Tx.Part.lift, hput, hputput]
  | commit _ _ => exact hprogram.elim
  | receive _ ih =>
    intro reply
    exact ih _ (hprogram _) hbefore hpending h

end Discipline
end Linea
