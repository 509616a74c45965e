import Mathlib

/-! One client's transaction with savepoints. A statement that fails aborts the transaction back to
its innermost savepoint: until it is rolled back to that savepoint every further statement fails, and
a commit of an aborted transaction rolls it back without an error. -/
namespace Linea

/-- An open transaction: the store with its writes, the stores at its savepoints, the innermost
first, and whether a statement has failed since. -/
structure Session (σ : Type) where
  store : σ
  savepoints : List σ
  aborted : Bool

/-- Statements of a client whose errors are raised as exceptions. What was written before an
exception stays written until it is rolled back. -/
def Sql (σ α : Type) : Type := Session σ → Except String α × Session σ

namespace Sql
variable {σ α β : Type}

instance : Monad (Sql σ) where
  pure a := fun s => (.ok a, s)
  bind x f := fun s =>
    match x s with
    | (.ok a, s) => f a s
    | (.error e, s) => (.error e, s)

/-- `x.catch(handler)`. -/
def catching (x : Sql σ α) (handler : String → Sql σ α) : Sql σ α := fun s =>
  match x s with
  | (.ok a, s) => (.ok a, s)
  | (.error e, s) => handler e s

def raise (e : String) : Sql σ α := fun s => (.error e, s)

def abortedMessage : String :=
  "current transaction is aborted, commands ignored until end of transaction block"

/-- One statement. `fails` holds when the server answers it with an error. -/
def statement (fails : Bool) (run : σ → α × σ) : Sql σ α := fun s =>
  if s.aborted then (.error abortedMessage, s)
  else if fails then (.error "database error", { s with aborted := true })
  else (.ok (run s.store).1, { s with store := (run s.store).2 })

def savepoint (fails : Bool) : Sql σ Unit := fun s =>
  if s.aborted then (.error abortedMessage, s)
  else if fails then (.error "database error", { s with aborted := true })
  else (.ok (), { s with savepoints := s.store :: s.savepoints })

def releaseSavepoint (fails : Bool) : Sql σ Unit := fun s =>
  if s.aborted then (.error abortedMessage, s)
  else if fails then (.error "database error", { s with aborted := true })
  else (.ok (), { s with savepoints := s.savepoints.tail })

/-- The savepoint itself stays in place. -/
def rollbackToSavepoint : Sql σ Unit := fun s =>
  match s.savepoints with
  | [] => (.error abortedMessage, s)
  | store :: _ => (.ok (), { s with store := store, aborted := false })

/-- A transaction within a transaction. -/
def nested (opening closing : Bool) (body : Sql σ α) : Sql σ α := do
  savepoint opening
  catching (do
    let a ← body
    releaseSavepoint closing
    pure a) fun e => do
      rollbackToSavepoint
      raise e

/-- A transaction of its own on the committed store. -/
def transaction (body : Sql σ α) (committed : σ) : Except String α × σ :=
  match body ⟨committed, [], false⟩ with
  | (.ok a, s) => (.ok a, if s.aborted then committed else s.store)
  | (.error e, _) => (.error e, committed)

variable {s s' : Session σ} {x : Sql σ α} {f : α → Sql σ β} {a : α} {e : String}

@[simp] theorem pure_run : (pure a : Sql σ α) s = (.ok a, s) := rfl

theorem bind_of_ok (h : x s = (.ok a, s')) : (x >>= f) s = f a s' := by
  change (match x s with | (.ok a, s) => f a s | (.error e, s) => (.error e, s)) = f a s'
  rw [h]

theorem bind_of_error (h : x s = (.error e, s')) : (x >>= f) s = (.error e, s') := by
  change (match x s with | (.ok a, s) => f a s | (.error e, s) => (.error e, s)) = _
  rw [h]

theorem catching_of_ok {handler : String → Sql σ α} (h : x s = (.ok a, s')) :
    catching x handler s = (.ok a, s') := by
  rw [catching, h]

theorem catching_of_error {handler : String → Sql σ α} (h : x s = (.error e, s')) :
    catching x handler s = handler e s' := by
  rw [catching, h]


theorem statement_run {run : σ → α × σ} (h : s.aborted = false) :
    statement false run s = (.ok (run s.store).1, { s with store := (run s.store).2 }) := by
  simp [statement, h]

theorem statement_fails {run : σ → α × σ} (h : s.aborted = false) :
    statement true run s = (.error "database error", { s with aborted := true }) := by
  simp [statement, h]

theorem savepoint_aborted {fails : Bool} (h : s.aborted = true) :
    savepoint fails s = (.error abortedMessage, s) := by
  simp [savepoint, h]

theorem nested_aborted {opening closing : Bool} (h : s.aborted = true) :
    nested opening closing x s = (.error abortedMessage, s) :=
  bind_of_error (savepoint_aborted h)

theorem nested_opening {closing : Bool} (h : s.aborted = false) :
    nested true closing x s = (.error "database error", { s with aborted := true }) := by
  refine bind_of_error ?_
  simp [savepoint, h]

/-- A body that returns with its savepoint innermost again. -/
theorem nested_ok (h : s.aborted = false) (haborted : s'.aborted = false)
    (hsavepoints : s'.savepoints.tail = s.savepoints)
    (hx : x { s with savepoints := s.store :: s.savepoints } = (.ok a, s')) :
    nested false false x s = (.ok a, { s' with savepoints := s.savepoints }) := by
  have hopen : savepoint false s = (.ok (), { s with savepoints := s.store :: s.savepoints }) := by
    simp [savepoint, h]
  have hclose : releaseSavepoint false s' = (.ok (), { s' with savepoints := s.savepoints }) := by
    simp [releaseSavepoint, haborted, hsavepoints]
  refine (bind_of_ok hopen).trans (catching_of_ok ?_)
  exact (bind_of_ok hx).trans (bind_of_ok hclose)

/-- An error in the body, or at its end, undoes the body and leaves the outer transaction usable. -/
theorem nested_error {closing : Bool} {rest : List σ} (h : s.aborted = false)
    (hbody : ((do
      let a ← x
      releaseSavepoint closing
      pure a) : Sql σ α) { s with savepoints := s.store :: s.savepoints } = (.error e, s'))
    (hsavepoints : s'.savepoints = s.store :: rest) :
    nested false closing x s = (.error e, { s' with store := s.store, aborted := false }) := by
  have hopen : savepoint false s = (.ok (), { s with savepoints := s.store :: s.savepoints }) := by
    simp [savepoint, h]
  refine (bind_of_ok hopen).trans ((catching_of_error hbody).trans ?_)
  have hback : rollbackToSavepoint s' = (.ok (), { s' with store := s.store, aborted := false }) := by
    rw [rollbackToSavepoint, hsavepoints]
  exact bind_of_ok hback

/-! ## Bodies that stay within their savepoint -/

/-- Whatever happens the savepoints are in place afterwards, and when it returns the transaction is
usable and the store has changed as `rel` says. -/
def Contained (rel : σ → σ → Prop) (x : Sql σ α) : Prop :=
  ∀ s : Session σ, s.aborted = false → (x s).2.savepoints = s.savepoints ∧
    ∀ a, (x s).1 = .ok a → (x s).2.aborted = false ∧ rel s.store (x s).2.store

section Contained
variable {rel : σ → σ → Prop}

theorem Contained.pure (hrefl : ∀ store, rel store store) : Contained rel (pure a : Sql σ α) :=
  fun s h => ⟨rfl, fun _ _ => ⟨h, hrefl s.store⟩⟩

theorem Contained.statement {fails : Bool} {run : σ → α × σ}
    (hrun : ∀ store, rel store (run store).2) : Contained rel (Sql.statement fails run) := by
  intro s h
  cases fails with
  | false =>
    rw [statement_run h]
    exact ⟨rfl, fun _ _ => ⟨h, hrun s.store⟩⟩
  | true =>
    rw [statement_fails h]
    exact ⟨rfl, nofun⟩

theorem Contained.bind (htrans : ∀ {s t u}, rel s t → rel t u → rel s u) (h : Contained rel x)
    (hf : ∀ a, Contained rel (f a)) : Contained rel (x >>= f) := by
  intro s hs
  obtain ⟨hsavepoints, hok⟩ := h s hs
  rcases hx : x s with ⟨r, s'⟩
  rw [hx] at hsavepoints hok
  cases r with
  | error e =>
    rw [bind_of_error hx]
    exact ⟨hsavepoints, nofun⟩
  | ok a =>
    rw [bind_of_ok hx]
    obtain ⟨haborted, hrel⟩ := hok a rfl
    obtain ⟨hsavepoints', hok'⟩ := hf a s' haborted
    refine ⟨hsavepoints'.trans hsavepoints, fun b hb => ?_⟩
    obtain ⟨haborted', hrel'⟩ := hok' b hb
    exact ⟨haborted', htrans hrel hrel'⟩

/-- A nested transaction leaves the outer one usable, whether it returns or not. -/
theorem Contained.nested {closing : Bool} (hrefl : ∀ store, rel store store) (h : Contained rel x)
    (hs : s.aborted = false) :
    (Sql.nested false closing x s).2.aborted = false ∧
      rel s.store (Sql.nested false closing x s).2.store := by
  set inner : Session σ := { s with savepoints := s.store :: s.savepoints } with hinner
  obtain ⟨hsavepoints, hok⟩ := h inner hs
  rcases hx : x inner with ⟨r, s'⟩
  rw [hx] at hsavepoints hok
  cases r with
  | error e =>
    rw [nested_error hs (bind_of_error hx) hsavepoints]
    exact ⟨rfl, hrefl s.store⟩
  | ok a =>
    obtain ⟨haborted, hrel⟩ := hok a rfl
    dsimp only at haborted hrel
    cases closing with
    | false =>
      rw [nested_ok hs haborted (by rw [hsavepoints]; rfl) hx]
      exact ⟨haborted, hrel⟩
    | true =>
      have hclose : releaseSavepoint true s' =
          (.error "database error", { s' with aborted := true }) := by
        simp [releaseSavepoint, haborted]
      rw [nested_error hs ((bind_of_ok hx).trans (bind_of_error hclose)) hsavepoints]
      exact ⟨rfl, hrefl s.store⟩

end Contained

end Sql
end Linea
