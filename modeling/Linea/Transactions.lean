import Mathlib

/-! Clients that run transactions against one store under read-committed isolation. A statement
sees the committed store with the client's own uncommitted writes on top; a row lock is held until
the transaction ends; the writes of a transaction reach the store together, when it commits.

`Discipline` is what a store's clients agree on: an invariant, and the changes a client may commit
while it holds given locks. `Discipline.wp` is the precondition under which a program keeps to the
agreement whatever the other clients do between its statements. -/
namespace Linea

/-- A client's program. `lock` is one statement: it takes row locks and sees the store. Replies from
outside the store (clock readings, generated ids, answers of other services) are received. -/
inductive Tx (σ κ ι α : Type)
  | pure (a : α)
  | halt (message : String)
  | lock (rows : σ → List κ) (next : σ → Tx σ κ ι α)
  | write (change : σ → σ) (next : Tx σ κ ι α)
  | commit (next : Tx σ κ ι α)
  | receive (next : ι → Tx σ κ ι α)

namespace Tx
variable {σ κ ι α β : Type}

def bind : Tx σ κ ι α → (α → Tx σ κ ι β) → Tx σ κ ι β
  | .pure a, f => f a
  | .halt message, _ => .halt message
  | .lock rows next, f => .lock rows fun s => (next s).bind f
  | .write change next, f => .write change (next.bind f)
  | .commit next, f => .commit (next.bind f)
  | .receive next, f => .receive fun reply => (next reply).bind f

instance : Monad (Tx σ κ ι) where
  pure := .pure
  bind := .bind

/-- A plain read. -/
def select (view : σ → α) : Tx σ κ ι α := .lock (fun _ => []) fun s => .pure (view s)

/-- A read that locks the rows it finds. -/
def selectForUpdate (rows : σ → List κ) (view : σ → α) : Tx σ κ ι α :=
  .lock rows fun s => .pure (view s)

def update (change : σ → σ) : Tx σ κ ι Unit := .write change (.pure ())

def receiving (view : ι → α) : Tx σ κ ι α := .receive fun reply => .pure (view reply)

/-- A body that commits when it returns. -/
def transaction (body : Tx σ κ ι α) : Tx σ κ ι α :=
  body.bind fun a => .commit (.pure a)

end Tx

/-- A client's program at its current statement, and its uncommitted writes. -/
structure Thread (σ κ ι : Type) where
  program : Tx σ κ ι Unit
  pending : σ → σ

structure System (σ κ χ ι : Type) where
  store : σ
  holder : κ → Option χ
  threads : χ → Option (Thread σ κ ι)

/-- What the scheduler may do next. -/
inductive Act (σ κ χ ι : Type)
  | start (c : χ) (program : Tx σ κ ι Unit)
  | advance (c : χ) (reply : ι)
  | crash (c : χ)

namespace System
variable {σ κ χ ι : Type} [DecidableEq κ] [DecidableEq χ]

def release (sys : System σ κ χ ι) (c : χ) : κ → Option χ :=
  fun k => if sys.holder k = some c then none else sys.holder k

/-- A lock request is granted when nobody else holds one of its rows. -/
def grantable (sys : System σ κ χ ι) (c : χ) (rows : List κ) : Bool :=
  rows.all fun k => sys.holder k = none ∨ sys.holder k = some c

def acquire (sys : System σ κ χ ι) (c : χ) (rows : List κ) : κ → Option χ :=
  fun k => if k ∈ rows then some c else sys.holder k

def resume (sys : System σ κ χ ι) (c : χ) (thread : Thread σ κ ι) : System σ κ χ ι :=
  { sys with threads := Function.update sys.threads c (some thread) }

/-- One statement of a client. A halted client has its transaction rolled back. -/
def advance (sys : System σ κ χ ι) (c : χ) (reply : ι) (thread : Thread σ κ ι) :
    Option (System σ κ χ ι) :=
  match thread.program with
  | .pure _ => none
  | .halt message => some { sys.resume c ⟨.halt message, id⟩ with holder := sys.release c }
  | .lock rows next =>
    if sys.grantable c (rows (thread.pending sys.store)) then
      some { sys.resume c ⟨next (thread.pending sys.store), thread.pending⟩ with
        holder := sys.acquire c (rows (thread.pending sys.store)) }
    else none
  | .write change next => some (sys.resume c ⟨next, fun s => change (thread.pending s)⟩)
  | .commit next =>
    some { sys.resume c ⟨next, id⟩ with
      store := thread.pending sys.store
      holder := sys.release c }
  | .receive next => some (sys.resume c ⟨next reply, thread.pending⟩)

/-- `none` when the act is not possible. A client's name is used once. -/
def step (sys : System σ κ χ ι) : Act σ κ χ ι → Option (System σ κ χ ι)
  | .start c program => if sys.threads c = none then some (sys.resume c ⟨program, id⟩) else none
  | .advance c reply => (sys.threads c).bind (sys.advance c reply)
  | .crash c =>
    if sys.threads c = none then none
    else some { sys.resume c ⟨.pure (), id⟩ with holder := sys.release c }

def run (sys : System σ κ χ ι) : List (Act σ κ χ ι) → Option (System σ κ χ ι)
  | [] => some sys
  | act :: acts => (sys.step act).bind fun next => next.run acts

/-- Nothing runs and nothing is locked. -/
def idle (store : σ) : System σ κ χ ι := ⟨store, fun _ => none, fun _ => none⟩

end System

/-- The acts whose programs are among the admitted ones. -/
def Act.Admitted {σ κ χ ι : Type} (admits : χ → Tx σ κ ι Unit → Prop) : Act σ κ χ ι → Prop
  | .start c program => admits c program
  | .advance _ _ => True
  | .crash _ => True

namespace System
variable {σ κ χ ι : Type} [DecidableEq κ] [DecidableEq χ] {admits : χ → Tx σ κ ι Unit → Prop}
  {sys sys' : System σ κ χ ι} {store : σ}

/-- The systems that any schedule of admitted programs leads to. -/
inductive Reachable (admits : χ → Tx σ κ ι Unit → Prop) (store : σ) : System σ κ χ ι → Prop
  | start : Reachable admits store (idle store)
  | step {sys sys' : System σ κ χ ι} {act : Act σ κ χ ι} (h : Reachable admits store sys)
    (hact : act.Admitted admits) (hstep : sys.step act = some sys') : Reachable admits store sys'

theorem Reachable.run {acts : List (Act σ κ χ ι)} (h : Reachable admits store sys)
    (hacts : ∀ act ∈ acts, act.Admitted admits) (hrun : sys.run acts = some sys') :
    Reachable admits store sys' := by
  induction acts generalizing sys with
  | nil =>
    simp only [System.run, Option.some.injEq] at hrun
    exact hrun ▸ h
  | cons act acts ih =>
    simp only [System.run, Option.bind_eq_some_iff] at hrun
    obtain ⟨next, hnext, hrun⟩ := hrun
    have hact := hacts act (by simp)
    exact ih (h.step hact hnext) (fun a ha => hacts a (by simp [ha])) hrun

/-- The locks of a client. -/
def held (sys : System σ κ χ ι) (c : χ) : Set κ := {k | sys.holder k = some c}

omit [DecidableEq κ] [DecidableEq χ] in
theorem disjoint_held {c d : χ} (h : c ≠ d) : Disjoint (sys.held c) (sys.held d) := by
  rw [Set.disjoint_left]
  intro k hc hd
  rw [held, Set.mem_ofPred_eq] at hc hd
  rw [hc, Option.some.injEq] at hd
  exact h hd

end System

/-- What the clients of a store agree on. `permits` says which messages a client may halt with. -/
structure Discipline (σ κ χ : Type) where
  inv : σ → Prop
  move : χ → Set κ → σ → σ → Prop
  permits : String → Prop
  inv_move : ∀ {c held s s'}, inv s → move c held s s' → inv s'

namespace Discipline
variable {σ κ χ ι α β : Type} (D : Discipline σ κ χ)

/-- A commit of somebody else, seen by a client that holds locks. -/
def Interferes (c : χ) (held : Set κ) (s s' : σ) : Prop :=
  ∃ d held', d ≠ c ∧ Disjoint held' held ∧ D.inv s ∧ D.move d held' s s'

/-- What can happen to the store while a client is between two statements. -/
def Rely (c : χ) (held : Set κ) : σ → σ → Prop := Relation.ReflTransGen (D.Interferes c held)

def Stable (c : χ) (held : Set κ) (known : σ → Prop) : Prop :=
  ∀ s s', known s → D.Interferes c held s s' → known s'

/-- The precondition of a program of client `c` that holds the locks `held`, has the writes `pending`
and knows `known` of the store. What a statement saw stays known up to the interference that the
locks allow. -/
def wp (c : χ) : Tx σ κ ι α → Set κ → (σ → σ) → (σ → Prop) →
    (Set κ → (σ → σ) → (σ → Prop) → α → Prop) → Prop
  | .pure a, held, pending, known, post => post held pending known a
  | .halt message, _, _, _, _ => D.permits message
  | .lock rows next, held, pending, known, post =>
    ∀ s, D.inv s → known s → wp c (next (pending s)) (held ∪ {k | k ∈ rows (pending s)}) pending
      (fun t => known t ∧ D.Rely c (held ∪ {k | k ∈ rows (pending s)}) s t) post
  | .write change next, held, pending, known, post =>
    wp c next held (fun s => change (pending s)) known post
  | .commit next, held, pending, known, post =>
    ∀ s, D.inv s → known s → D.move c held s (pending s) ∧
      wp c next ∅ id (D.Rely c ∅ (pending s)) post
  | .receive next, held, pending, known, post =>
    ∀ reply, wp c (next reply) held pending known post

variable {D} {c : χ} {held : Set κ} {pending : σ → σ} {known known' : σ → Prop}
  {post post' : Set κ → (σ → σ) → (σ → Prop) → α → Prop} {program : Tx σ κ ι α}

/-- Knowing more, and asking for less afterwards. -/
theorem wp_mono (h : D.wp c program held pending known post) (hknown : ∀ s, known' s → known s)
    (hpost : ∀ held pending known known' a, (∀ s, known' s → known s) →
      post held pending known a → post' held pending known' a) :
    D.wp c program held pending known' post' := by
  induction program generalizing held pending known known' with
  | pure a => exact hpost _ _ _ _ _ hknown h
  | halt message => exact h
  | lock rows next ih =>
    intro s hinv hs
    exact ih _ (h s hinv (hknown s hs)) (fun t ht => ⟨hknown t ht.1, ht.2⟩)
  | write change next ih => exact ih h hknown
  | commit next ih =>
    intro s hinv hs
    obtain ⟨hmove, hnext⟩ := h s hinv (hknown s hs)
    exact ⟨hmove, ih hnext (fun _ ht => ht)⟩
  | receive next ih =>
    intro reply
    exact ih reply (h reply) hknown

theorem wp_bind {next : α → Tx σ κ ι β} {post : Set κ → (σ → σ) → (σ → Prop) → β → Prop} :
    D.wp c (program >>= next) held pending known post ↔
      D.wp c program held pending known fun held pending known a =>
        D.wp c (next a) held pending known post := by
  change D.wp c (program.bind next) held pending known post ↔ _
  induction program generalizing held pending known with
  | pure a => rfl
  | halt message => rfl
  | lock rows _ ih =>
    simp only [Tx.bind, wp]
    exact forall_congr' fun s => forall_congr' fun _ => forall_congr' fun _ => ih _
  | write change _ ih => exact ih
  | commit _ ih =>
    simp only [Tx.bind, wp]
    exact forall_congr' fun s => forall_congr' fun _ => forall_congr' fun _ =>
      and_congr_right fun _ => ih
  | receive _ ih =>
    simp only [Tx.bind, wp]
    exact forall_congr' fun reply => ih reply

theorem wp_pure {a : α} : D.wp c (pure a : Tx σ κ ι α) held pending known post ↔
    post held pending known a := Iff.rfl

theorem wp_halt {message : String} :
    D.wp c (.halt message : Tx σ κ ι α) held pending known post ↔ D.permits message := Iff.rfl

theorem wp_receiving {view : ι → α} (h : ∀ reply, post held pending known (view reply)) :
    D.wp c (Tx.receiving view) held pending known post := h

theorem wp_update {change : σ → σ} {post : Set κ → (σ → σ) → (σ → Prop) → Unit → Prop} :
    D.wp c (Tx.update change : Tx σ κ ι Unit) held pending known post ↔
      post held (fun s => change (pending s)) known () := Iff.rfl

theorem Rely.mono {held' : Set κ} {s t : σ} (hsub : held ⊆ held') (h : D.Rely c held' s t) :
    D.Rely c held s t := by
  refine Relation.ReflTransGen.mono ?_ _ _ h
  rintro s t ⟨d, held'', hd, hdisjoint, hinv, hmove⟩
  exact ⟨d, held'', hd, hdisjoint.mono_right hsub, hinv, hmove⟩

theorem Rely.inv {s t : σ} (h : D.Rely c held s t) (hs : D.inv s) : D.inv t := by
  induction h with
  | refl => exact hs
  | tail _ hstep ih =>
    obtain ⟨d, held', _, _, _, hmove⟩ := hstep
    exact D.inv_move ih hmove

/-- What no single interference changes stays as it is. -/
theorem Stable.rely {s t : σ} (hstable : D.Stable c held known) (h : D.Rely c held s t)
    (hs : known s) : known t := by
  induction h with
  | refl => exact hs
  | tail _ hstep ih => exact hstable _ _ ih hstep

theorem Stable.and_rely {held' : Set κ} {s : σ} (hstable : D.Stable c held known)
    (hsub : held ⊆ held') : D.Stable c held' fun t => known t ∧ D.Rely c held' s t := by
  rintro t t' ⟨ht, hrely⟩ hstep
  obtain ⟨d, held'', hd, hdisjoint, hinv, hmove⟩ := hstep
  have hweak : D.Interferes c held t t' :=
    ⟨d, held'', hd, hdisjoint.mono_right hsub, hinv, hmove⟩
  exact ⟨hstable t t' ht hweak, hrely.tail ⟨d, held'', hd, hdisjoint, hinv, hmove⟩⟩

theorem stable_rely {s : σ} : D.Stable c held (D.Rely c held s) :=
  fun _ _ ht hstep => ht.tail hstep

/-- A read learns whatever survives the interference that its locks allow. -/
theorem wp_selectForUpdate {rows : σ → List κ} {view : σ → α}
    (h : ∀ s, D.inv s → known s →
      post (held ∪ {k | k ∈ rows (pending s)}) pending
        (fun t => known t ∧ D.Rely c (held ∪ {k | k ∈ rows (pending s)}) s t)
        (view (pending s))) :
    D.wp c (Tx.selectForUpdate rows view : Tx σ κ ι α) held pending known post := h

theorem wp_select {view : σ → α}
    (h : ∀ s, D.inv s → known s →
      post held pending (fun t => known t ∧ D.Rely c held s t) (view (pending s))) :
    D.wp c (Tx.select view : Tx σ κ ι α) held pending known post := by
  intro s hinv hs
  have hempty : held ∪ {k | k ∈ (fun _ : σ => ([] : List κ)) (pending s)} = held := by simp
  rw [hempty]
  exact h s hinv hs

theorem wp_transaction {body : Tx σ κ ι α} :
    D.wp c body.transaction held pending known post ↔
      D.wp c body held pending known fun held pending known a =>
        ∀ s, D.inv s → known s → D.move c held s (pending s) ∧
          post ∅ id (D.Rely c ∅ (pending s)) a :=
  wp_bind

section Triples

/-- The end of a transaction's body: the commit is allowed, and `post` holds of every later store. -/
def Commits (D : Discipline σ κ χ) (c : χ) (post : α → σ → Prop) (held : Set κ) (pending : σ → σ)
    (known : σ → Prop) (a : α) : Prop :=
  ∀ s, D.inv s → known s → D.move c held s (pending s) ∧
    ∀ t, D.Rely c ∅ (pending s) t → post a t

/-- A program that starts and ends between transactions. Its pre- and postcondition have to survive
interference: they hold whenever the next statement looks. -/
def Triple (D : Discipline σ κ χ) (c : χ) (pre : σ → Prop) (program : Tx σ κ ι α)
    (post : α → σ → Prop) : Prop :=
  D.wp c program ∅ id pre fun held pending known a =>
    held = ∅ ∧ pending = id ∧ ∀ s, known s → post a s

variable {pre pre' : σ → Prop} {mid : α → σ → Prop} {after after' : α → σ → Prop}

theorem Triple.mono (h : D.Triple c pre program after) (hpre : ∀ s, pre' s → pre s)
    (hafter : ∀ a s, after a s → after' a s) : D.Triple c pre' program after' := by
  refine wp_mono h hpre ?_
  rintro held pending known known' a hknown ⟨hheld, hpending, hpost⟩
  exact ⟨hheld, hpending, fun s hs => hafter a s (hpost s (hknown s hs))⟩

theorem Triple.pure {a : α} (h : ∀ s, pre s → after a s) :
    D.Triple c pre (Pure.pure a : Tx σ κ ι α) after := ⟨rfl, rfl, h⟩

theorem Triple.halt {message : String} (h : D.permits message) :
    D.Triple c pre (.halt message : Tx σ κ ι α) after := h

theorem Triple.bind {next : α → Tx σ κ ι β} {post : β → σ → Prop}
    (h : D.Triple c pre program mid) (hnext : ∀ a, D.Triple c (mid a) (next a) post) :
    D.Triple c pre (program >>= next) post := by
  refine wp_bind.mpr (wp_mono h (fun _ hs => hs) ?_)
  rintro held pending known known' a hknown ⟨rfl, rfl, hmid⟩
  exact (hnext a).mono (fun s hs => hmid s (hknown s hs)) fun _ _ h => h

theorem Triple.receiving {view : ι → α} (h : ∀ reply s, pre s → after (view reply) s) :
    D.Triple c pre (Tx.receiving view) after := fun reply => ⟨rfl, rfl, h reply⟩

theorem Triple.select {view : σ → α}
    (h : ∀ s t, D.inv s → pre s → D.Rely c ∅ s t → pre t → after (view s) t) :
    D.Triple c pre (Tx.select view : Tx σ κ ι α) after := by
  refine wp_select fun s hinv hs => ⟨rfl, rfl, ?_⟩
  rintro t ⟨ht, hrely⟩
  exact h s t hinv hs hrely ht

theorem Triple.transaction {body : Tx σ κ ι α}
    (h : D.wp c body ∅ id pre (D.Commits c after)) : D.Triple c pre body.transaction after := by
  refine wp_transaction.mpr (wp_mono h (fun _ hs => hs) ?_)
  intro held pending known known' a hknown hcommits s hinv hs
  obtain ⟨hmove, hpost⟩ := hcommits s hinv (hknown s hs)
  exact ⟨hmove, rfl, rfl, hpost⟩

theorem Triple.keeps {program : Tx σ κ ι Unit} {after : Unit → σ → Prop}
    (h : D.Triple c pre program after) :
    D.wp c program ∅ id pre fun _ _ _ _ => True :=
  wp_mono h (fun _ hs => hs) fun _ _ _ _ _ _ _ => trivial

/-- A fact about the store that every commit keeps. -/
def Permanent (D : Discipline σ κ χ) (fact : σ → Prop) : Prop :=
  ∀ {d held s s'}, D.inv s → fact s → D.move d held s s' → fact s'

theorem Permanent.rely {fact : σ → Prop} {s t : σ} (h : D.Permanent fact)
    (hrely : D.Rely c held s t) (hs : fact s) : fact t := by
  refine Stable.rely ?_ hrely hs
  rintro s s' hfact ⟨d, held', _, _, hinv, hmove⟩
  exact h hinv hfact hmove

theorem wp_frame {fact : σ → Prop} (hfact : D.Permanent fact)
    (h : D.wp c program held pending known post) :
    D.wp c program held pending (fun s => known s ∧ fact s) fun held pending known a =>
      ∃ known', post held pending known' a ∧ ∀ s, known s → known' s ∧ fact s := by
  induction program generalizing held pending known with
  | pure a => exact ⟨known, h, fun _ hs => hs⟩
  | halt message => exact h
  | lock rows next ih =>
    intro s hinv hs
    refine wp_mono (ih _ (h s hinv hs.1)) ?_ ?_
    · rintro t ⟨ht, hrely⟩
      exact ⟨⟨ht.1, hrely⟩, ht.2⟩
    · rintro held pending known known' a hknown ⟨known'', hpost, himp⟩
      exact ⟨known'', hpost, fun t ht => himp t (hknown t ht)⟩
  | write change next ih => exact ih h
  | commit next ih =>
    intro s hinv hs
    obtain ⟨hmove, hnext⟩ := h s hinv hs.1
    refine ⟨hmove, wp_mono (ih hnext) ?_ ?_⟩
    · intro t hrely
      exact ⟨hrely, hfact.rely hrely (hfact hinv hs.2 hmove)⟩
    · rintro held pending known known' a hknown ⟨known'', hpost, himp⟩
      exact ⟨known'', hpost, fun t ht => himp t (hknown t ht)⟩
  | receive next ih =>
    intro reply
    exact ih reply (h reply)

theorem Triple.frame {fact : σ → Prop} (hfact : D.Permanent fact)
    (h : D.Triple c pre program after) :
    D.Triple c (fun s => pre s ∧ fact s) program fun a s => after a s ∧ fact s := by
  refine wp_mono (wp_frame hfact h) (fun _ hs => hs) ?_
  rintro held pending known known' a hknown ⟨known'', ⟨hheld, hpending, hpost⟩, himp⟩
  refine ⟨hheld, hpending, fun s hs => ?_⟩
  obtain ⟨hknown'', hs⟩ := himp s (hknown s hs)
  exact ⟨hpost s hknown'', hs⟩

end Triples

/-- Every client is at a point of its program from which it keeps to the agreement. -/
structure Sound (D : Discipline σ κ χ) (sys : System σ κ χ ι) : Prop where
  inv : D.inv sys.store
  owned : ∀ c, sys.threads c = none → sys.held c = ∅
  keeps : ∀ c thread, sys.threads c = some thread →
    ∃ known, known sys.store ∧ D.Stable c (sys.held c) known ∧
      D.wp c thread.program (sys.held c) thread.pending known fun _ _ _ _ => True

section Soundness
variable [DecidableEq κ] [DecidableEq χ] {sys sys' : System σ κ χ ι} {thread : Thread σ κ ι}
  {reply : ι}

omit [DecidableEq κ] in
theorem held_release {d : χ} (h : d ≠ c) (sys' : System σ κ χ ι)
    (hholder : sys'.holder = sys.release c) : sys'.held d = sys.held d := by
  ext k
  simp only [System.held, Set.mem_ofPred_eq, hholder, System.release]
  split
  · rename_i hk
    simp [hk, h.symm]
  · rfl

omit [DecidableEq κ] in
theorem held_release_self (sys' : System σ κ χ ι) (hholder : sys'.holder = sys.release c) :
    sys'.held c = ∅ := by
  ext k
  simp only [System.held, Set.mem_ofPred_eq, hholder, System.release, Set.mem_empty_iff_false,
    iff_false]
  split
  · simp
  · assumption

theorem held_acquire {d : χ} (h : d ≠ c) {rows : List κ} (hrows : sys.grantable c rows = true)
    (sys' : System σ κ χ ι) (hholder : sys'.holder = sys.acquire c rows) :
    sys'.held d = sys.held d := by
  ext k
  simp only [System.held, Set.mem_ofPred_eq, hholder, System.acquire]
  split
  · rename_i hk
    have hfree := List.all_eq_true.mp hrows k hk
    simp only [decide_eq_true_eq] at hfree
    rcases hfree with hfree | hfree
    · simp [hfree, h.symm]
    · simp [hfree]
  · rfl

omit [DecidableEq χ] in
theorem held_acquire_self {rows : List κ} (sys' : System σ κ χ ι)
    (hholder : sys'.holder = sys.acquire c rows) :
    sys'.held c = sys.held c ∪ {k | k ∈ rows} := by
  ext k
  simp only [System.held, Set.mem_ofPred_eq, hholder, System.acquire, Set.mem_union]
  split
  · simp_all
  · simp_all

omit [DecidableEq κ] [DecidableEq χ] in
/-- Another client's step leaves a client's precondition standing: its locks are the same, and the
store changed at most by an interference. -/
theorem Sound.other {d : χ} (h : Sound D sys) (hheld : sys'.held d = sys.held d)
    (hstore : sys'.store = sys.store ∨ D.Interferes d (sys.held d) sys.store sys'.store)
    (hthread : sys.threads d = some thread) :
    ∃ known, known sys'.store ∧ D.Stable d (sys'.held d) known ∧
      D.wp d thread.program (sys'.held d) thread.pending known fun _ _ _ _ => True := by
  obtain ⟨known, hknown, hstable, hwp⟩ := h.keeps d thread hthread
  rw [hheld]
  refine ⟨known, ?_, hstable, hwp⟩
  rcases hstore with hstore | hstore
  · rw [hstore]
    exact hknown
  · exact hstable _ _ hknown hstore

omit [DecidableEq κ] in
/-- A step of client `c` that leaves it sound and keeps the locks of the others. -/
theorem Sound.resume (h : Sound D sys) (hinv : D.inv sys'.store)
    (hthreads : sys'.threads = Function.update sys.threads c (some thread))
    (hheld : ∀ d, d ≠ c → sys'.held d = sys.held d)
    (hstore : ∀ d, d ≠ c → sys'.store = sys.store ∨
      D.Interferes d (sys.held d) sys.store sys'.store)
    (hself : ∃ known, known sys'.store ∧ D.Stable c (sys'.held c) known ∧
      D.wp c thread.program (sys'.held c) thread.pending known fun _ _ _ _ => True) :
    Sound D sys' := by
  refine ⟨hinv, fun d hd => ?_, fun d thread' hd => ?_⟩
  · rw [hthreads] at hd
    by_cases hdc : d = c
    · subst hdc
      simp at hd
    · rw [Function.update_of_ne hdc] at hd
      rw [hheld d hdc]
      exact h.owned d hd
  · rw [hthreads] at hd
    by_cases hdc : d = c
    · subst hdc
      rw [Function.update_self, Option.some.injEq] at hd
      subst hd
      exact hself
    · rw [Function.update_of_ne hdc] at hd
      exact h.other (hheld d hdc) (hstore d hdc) hd

omit [DecidableEq κ] [DecidableEq χ] in
theorem stable_true : D.Stable c held fun _ => True := fun _ _ _ _ => trivial

/-- The store changes only when a client commits, and then as the client may change it. -/
theorem advance_store (h : Sound D sys) (hthread : sys.threads c = some thread)
    (hstep : sys.advance c reply thread = some sys') :
    sys'.store = sys.store ∨ D.move c (sys.held c) sys.store sys'.store := by
  obtain ⟨known, hknown, _, hwp⟩ := h.keeps c thread hthread
  obtain ⟨program, pending⟩ := thread
  cases program with
  | pure a => cases hstep
  | halt message =>
    cases hstep
    exact .inl rfl
  | lock rows next =>
    simp only [System.advance] at hstep
    split at hstep
    · cases hstep
      exact .inl rfl
    · cases hstep
  | write change next =>
    cases hstep
    exact .inl rfl
  | commit next =>
    cases hstep
    exact .inr (hwp sys.store h.inv hknown).1
  | receive next =>
    cases hstep
    exact .inl rfl

theorem Sound.advance (h : Sound D sys) (hthread : sys.threads c = some thread)
    (hstep : sys.advance c reply thread = some sys') : Sound D sys' := by
  have hstore := advance_store h hthread hstep
  have hinv : D.inv sys'.store := by
    rcases hstore with hstore | hstore
    · rw [hstore]
      exact h.inv
    · exact D.inv_move h.inv hstore
  have hothers : ∀ d, d ≠ c → sys'.store = sys.store ∨
      D.Interferes d (sys.held d) sys.store sys'.store := fun d hd =>
    hstore.imp id fun hmove => ⟨c, sys.held c, hd.symm, System.disjoint_held hd.symm, h.inv, hmove⟩
  obtain ⟨known, hknown, hstable, hwp⟩ := h.keeps c thread hthread
  obtain ⟨program, pending⟩ := thread
  cases program with
  | pure a => cases hstep
  | halt message =>
    cases hstep
    refine h.resume hinv rfl (fun d hd => held_release hd _ rfl) hothers ?_
    exact ⟨fun _ => True, trivial, stable_true, hwp⟩
  | lock rows next =>
    simp only [System.advance] at hstep
    split at hstep
    · rename_i hrows
      cases hstep
      refine h.resume hinv rfl (fun d hd => held_acquire hd hrows _ rfl) hothers ?_
      rw [held_acquire_self _ rfl]
      exact ⟨_, ⟨hknown, Relation.ReflTransGen.refl⟩, hstable.and_rely Set.subset_union_left,
        hwp sys.store h.inv hknown⟩
    · cases hstep
  | write change next =>
    cases hstep
    exact h.resume hinv rfl (fun d _ => rfl) hothers ⟨known, hknown, hstable, hwp⟩
  | commit next =>
    cases hstep
    refine h.resume hinv rfl (fun d hd => held_release hd _ rfl) hothers ?_
    rw [held_release_self _ rfl]
    exact ⟨_, Relation.ReflTransGen.refl, stable_rely, (hwp sys.store h.inv hknown).2⟩
  | receive next =>
    cases hstep
    exact h.resume hinv rfl (fun d _ => rfl) hothers ⟨known, hknown, hstable, hwp reply⟩

/-- The programs of a discipline: those that keep to it from a point where nothing is known. -/
def Keeps (D : Discipline σ κ χ) (admits : χ → Tx σ κ ι Unit → Prop) : Prop :=
  ∀ c program, admits c program → D.wp c program ∅ id (fun _ => True) fun _ _ _ _ => True

variable {admits : χ → Tx σ κ ι Unit → Prop} {act : Act σ κ χ ι} {store : σ}

omit [DecidableEq κ] [DecidableEq χ] in
theorem sound_idle (h : D.inv store) : Sound D (System.idle store : System σ κ χ ι) := by
  refine ⟨h, fun c _ => ?_, fun c thread hthread => by cases hthread⟩
  ext k
  simp [System.held, System.idle]

theorem Sound.step (hkeeps : D.Keeps admits) (h : Sound D sys) (hact : act.Admitted admits)
    (hstep : sys.step act = some sys') : Sound D sys' := by
  cases act with
  | start c program =>
    simp only [System.step] at hstep
    split at hstep
    · rename_i hnew
      cases hstep
      refine h.resume h.inv rfl (fun d _ => rfl) (fun d _ => .inl rfl) ?_
      have hheld : sys.held c = ∅ := h.owned c hnew
      change ∃ known, known sys.store ∧ D.Stable c (sys.held c) known ∧
        D.wp c program (sys.held c) id known fun _ _ _ _ => True
      rw [hheld]
      exact ⟨fun _ => True, trivial, stable_true, hkeeps c program hact⟩
    · cases hstep
  | advance c reply =>
    simp only [System.step, Option.bind_eq_some_iff] at hstep
    obtain ⟨thread, hthread, hstep⟩ := hstep
    exact h.advance hthread hstep
  | crash c =>
    simp only [System.step] at hstep
    split at hstep
    · cases hstep
    · cases hstep
      refine h.resume h.inv rfl (fun d hd => held_release hd _ rfl) (fun d _ => .inl rfl) ?_
      exact ⟨fun _ => True, trivial, stable_true, trivial⟩

theorem step_store (h : Sound D sys) (hstep : sys.step act = some sys') :
    sys'.store = sys.store ∨ ∃ c, D.move c (sys.held c) sys.store sys'.store := by
  cases act with
  | start c program =>
    simp only [System.step] at hstep
    split at hstep
    · cases hstep
      exact .inl rfl
    · cases hstep
  | advance c reply =>
    simp only [System.step, Option.bind_eq_some_iff] at hstep
    obtain ⟨thread, hthread, hstep⟩ := hstep
    exact (advance_store h hthread hstep).imp id fun hmove => ⟨c, hmove⟩
  | crash c =>
    simp only [System.step] at hstep
    split at hstep
    · cases hstep
    · cases hstep
      exact .inl rfl

/-- Soundness of the preconditions: programs that keep to a discipline one by one keep to it under
every schedule, with crashes anywhere. -/
theorem sound_of_reachable (hkeeps : D.Keeps admits) (hstore : D.inv store)
    (h : System.Reachable admits store sys) : Sound D sys := by
  induction h with
  | start => exact sound_idle hstore
  | step _ hact hstep ih => exact ih.step hkeeps hact hstep

/-- A relation that every commit respects holds between a reachable store and each later one. -/
theorem rel_of_reachable {rel : σ → σ → Prop} (hrefl : ∀ s, rel s s)
    (htrans : ∀ {s t u}, rel s t → rel t u → rel s u)
    (hmove : ∀ {c held s s'}, D.inv s → D.move c held s s' → rel s s')
    (hkeeps : D.Keeps admits) (h : Sound D sys) {acts : List (Act σ κ χ ι)}
    (hacts : ∀ act ∈ acts, act.Admitted admits) (hrun : sys.run acts = some sys') :
    rel sys.store sys'.store := by
  induction acts generalizing sys with
  | nil =>
    cases hrun
    exact hrefl _
  | cons act acts ih =>
    simp only [System.run, Option.bind_eq_some_iff] at hrun
    obtain ⟨next, hnext, hrun⟩ := hrun
    have hact := hacts act (by simp)
    have hlater := ih (h.step hkeeps hact hnext) (fun a ha => hacts a (by simp [ha])) hrun
    rcases step_store h hnext with hstore | ⟨c, hcommit⟩
    · rw [hstore] at hlater
      exact hlater
    · exact htrans (hmove h.inv hcommit) hlater

omit [DecidableEq κ] [DecidableEq χ] in
theorem Sound.permits {message : String} (h : Sound D sys) (hthread : sys.threads c = some thread)
    (hhalt : thread.program = .halt message) : D.permits message := by
  obtain ⟨known, _, _, hwp⟩ := h.keeps c thread hthread
  rw [hhalt] at hwp
  exact hwp

end Soundness
end Discipline
end Linea
