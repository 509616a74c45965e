import Mathlib
import Linea.Runs

/-! Flags and the signals they are grouped into. A signal is resolved by hand and goes back to
regressed with the next flag. `recordSignalOccurrence` reads the signal, locking it if it is there,
and then upserts it; a regression is announced by what was read. The second part runs any number of
transactions on one signal key, statement by statement: a lock is held until the transaction ends,
and the upsert waits for another transaction that has written the key. -/
namespace Linea.Signals

inductive FlagType
  | retryStorm
  | branchNeverTaken
  | costJump
  | excessResumes
  | toolError
  | emptyResponse
  | refusal
  | repeatedReplay
  | userFrustration
  | hallucinationSuspected
  | repetitionLoop
  | inappropriateRefusal
  deriving DecidableEq, Repr

def FlagType.text : FlagType → String
  | .retryStorm => "retry_storm"
  | .branchNeverTaken => "branch_never_taken"
  | .costJump => "cost_jump"
  | .excessResumes => "excess_resumes"
  | .toolError => "tool_error"
  | .emptyResponse => "empty_response"
  | .refusal => "refusal"
  | .repeatedReplay => "repeated_replay"
  | .userFrustration => "user_frustration"
  | .hallucinationSuspected => "hallucination_suspected"
  | .repetitionLoop => "repetition_loop"
  | .inappropriateRefusal => "inappropriate_refusal"

structure Flag where
  id : String
  workspaceId : String
  workflowId : Option String
  executionId : Option String
  nodeId : Option String
  flagType : FlagType
  dedupeKey : String
  signalId : Option String
  conversationFindingId : Option String
  createdAt : ℤ
  deriving DecidableEq, Repr

structure Signal where
  id : String
  workspaceId : String
  workflowId : Option String
  nodeId : Option String
  flagType : FlagType
  signalKey : String
  resolvedAt : Option ℤ
  regressedAt : Option ℤ
  deriving DecidableEq, Repr

inductive SignalStatus
  | isOpen
  | resolved
  | regressed
  deriving DecidableEq, Repr

def deriveSignalStatus (signal : Signal) : SignalStatus :=
  if signal.resolvedAt.isSome then .resolved
  else if signal.regressedAt.isSome then .regressed
  else .isOpen

/-- A text counts as missing when it is empty. -/
def given (text : Option String) : Option String := text.filter (· ≠ "")

/-- `executions` are the workflow ids of the executions. -/
def resolveWorkflowId (executions : List (String × String)) (flag : Flag) : Option String :=
  match given flag.workflowId with
  | some workflowId => some workflowId
  | none =>
    (given flag.executionId).bind fun executionId =>
      (executions.find? fun row => row.1 = executionId).map Prod.snd

def signalKey (flagType : FlagType) (workflowId nodeId : Option String) : String :=
  flagType.text ++ ":" ++ workflowId.getD "none" ++ ":" ++ nodeId.getD "none"

/-- The row an occurrence inserts; `id` is the one the database generates. -/
def newSignal (id : String) (flag : Flag) (workflowId : Option String) : Signal :=
  { id, workspaceId := flag.workspaceId, workflowId, nodeId := flag.nodeId
    flagType := flag.flagType, signalKey := signalKey flag.flagType workflowId flag.nodeId
    resolvedAt := none, regressedAt := none }

/-- `onConflictDoUpdate`: the columns of the row that is there decide. -/
def recur (flag : Flag) (signal : Signal) : Signal :=
  { signal with
    regressedAt := if signal.resolvedAt.isSome then some flag.createdAt else signal.regressedAt
    resolvedAt := if signal.resolvedAt.isSome then none else signal.resolvedAt }

def upsertSignal (id : String) (flag : Flag) (workflowId : Option String) :
    Option Signal → Signal
  | none => newSignal id flag workflowId
  | some signal => recur flag signal

def resolveSignal (now : ℤ) (signal : Signal) : Signal :=
  { signal with resolvedAt := some now, regressedAt := none }

/-- `existing?.resolvedAt != null`. -/
def justRegressed (existing : Option Signal) : Bool :=
  existing.any fun signal => signal.resolvedAt.isSome

theorem upsertSignal_resolvedAt (id : String) (flag : Flag) (workflowId : Option String)
    (before : Option Signal) : (upsertSignal id flag workflowId before).resolvedAt = none := by
  cases before with
  | none => rfl
  | some signal =>
    simp only [upsertSignal, recur]
    split
    · rfl
    · rename_i h
      simpa using h

/-! ## One signal key -/

/-- An upsert: the row it met, the row it wrote, and what `recordSignalOccurrence` returned. -/
structure Occurrence where
  before : Option Signal
  after : Signal
  justRegressed : Bool
  deriving DecidableEq, Repr

/-- The upsert moved the signal from resolved to regressed. -/
def Occurrence.moved (occurrence : Occurrence) : Bool :=
  occurrence.before.any (fun signal => deriveSignalStatus signal = .resolved) &&
    deriveSignalStatus occurrence.after = .regressed

/-- Where a transaction is in `recordSignalOccurrence`. -/
inductive Phase
  | between
  | looked (existing : Option Signal)
  deriving DecidableEq

structure Transaction where
  phase : Phase
  written : Option Signal
  done : List Occurrence

structure State where
  committed : Option Signal
  holder : Option ℕ
  transactions : ℕ → Option Transaction

inductive Act
  | begin (tx : ℕ)
  | lookup (tx : ℕ)
  | upsert (tx : ℕ) (id : String) (flag : Flag) (workflowId : Option String)
  | commit (tx : ℕ)
  | rollback (tx : ℕ)
  | resolveSignal (workspaceId signalId : String) (now : ℤ)

namespace State

def put (s : State) (tx : ℕ) (transaction : Transaction) : ℕ → Option Transaction :=
  Function.update s.transactions tx (some transaction)

/-- What a statement of the transaction sees of the row. -/
def visible (s : State) (transaction : Transaction) : Option Signal :=
  transaction.written.or s.committed

/-- The lock is free, or the transaction's own. -/
def lockable (s : State) (tx : ℕ) : Bool := s.holder = none || s.holder = some tx

def release (s : State) (tx : ℕ) : Option ℕ := if s.holder = some tx then none else s.holder

/-- `none` when the act is not possible, or has to wait. -/
def step (s : State) : Act → Option State
  | .begin tx =>
    if s.transactions tx = none then
      some { s with transactions := s.put tx ⟨.between, none, []⟩ }
    else none
  | .lookup tx =>
    match s.transactions tx with
    | some ⟨.between, written, done⟩ =>
      match s.visible ⟨.between, written, done⟩ with
      | none => some { s with transactions := s.put tx ⟨.looked none, written, done⟩ }
      | some row =>
        if s.lockable tx then
          some { s with
            holder := some tx
            transactions := s.put tx ⟨.looked (some row), written, done⟩ }
        else none
    | _ => none
  | .upsert tx id flag workflowId =>
    match s.transactions tx with
    | some ⟨.looked existing, written, done⟩ =>
      if s.lockable tx then
        let before := s.visible ⟨.looked existing, written, done⟩
        let after := upsertSignal id flag workflowId before
        some { s with
          holder := some tx
          transactions := s.put tx
            ⟨.between, some after, done ++ [⟨before, after, justRegressed existing⟩]⟩ }
      else none
    | _ => none
  | .commit tx =>
    match s.transactions tx with
    | some ⟨.between, written, done⟩ =>
      some ⟨s.visible ⟨.between, written, done⟩, s.release tx,
        Function.update s.transactions tx none⟩
    | _ => none
  | .rollback tx =>
    if s.transactions tx = none then none
    else some { s with
      holder := s.release tx
      transactions := Function.update s.transactions tx none }
  | .resolveSignal workspaceId signalId now =>
    match s.committed with
    | some signal =>
      if signal.id = signalId ∧ signal.workspaceId = workspaceId then
        if s.holder = none then some { s with committed := some (resolveSignal now signal) }
        else none
      else some s
    | none => some s

end State

/-- An occurrence that found no signal does not meet a resolved one when it upserts. -/
def Undisturbed (s : State) : Act → Prop
  | .upsert tx _ _ _ => ∀ transaction row, s.transactions tx = some transaction →
      transaction.phase = .looked none → s.visible transaction = some row → row.resolvedAt = none
  | _ => True

/-- What is known of an open transaction: it holds the lock once it has found or written the row,
and of its upserts only the first one can have met a resolved signal. -/
structure Sound (s : State) (tx : ℕ) (transaction : Transaction) : Prop where
  locked : transaction.written.isSome → s.holder = some tx
  found : ∀ row, transaction.phase = .looked (some row) →
    s.holder = some tx ∧ s.visible transaction = some row
  unresolved : ∀ row, transaction.written = some row → row.resolvedAt = none
  regressed : ∀ row, transaction.written = some row →
    s.committed.any (fun signal => signal.resolvedAt.isSome) → row.regressedAt.isSome
  fresh : transaction.written = none → transaction.done = []
  faithful : ∀ occurrence ∈ transaction.done, occurrence.justRegressed = occurrence.moved
  moves : (transaction.done.filter Occurrence.moved).length =
    if transaction.written.isSome ∧ s.committed.any (fun signal => signal.resolvedAt.isSome)
    then 1 else 0

def Inv (s : State) : Prop :=
  ∀ tx transaction, s.transactions tx = some transaction → Sound s tx transaction

theorem deriveSignalStatus_eq_resolved {signal : Signal} :
    deriveSignalStatus signal = .resolved ↔ signal.resolvedAt.isSome := by
  unfold deriveSignalStatus
  split
  · simp [*]
  · split
    · simp [*]
    · simp [*]

/-- An upsert moves the signal exactly when it meets a resolved one. -/
theorem moved_upsertSignal (id : String) (flag : Flag) (workflowId : Option String)
    (before : Option Signal) (announced : Bool) :
    (Occurrence.mk before (upsertSignal id flag workflowId before) announced).moved =
      before.any fun signal => signal.resolvedAt.isSome := by
  cases before with
  | none => rfl
  | some signal =>
    simp only [Occurrence.moved, Option.any_some, deriveSignalStatus_eq_resolved, upsertSignal]
    cases hresolved : signal.resolvedAt with
    | none => simp
    | some at_ => simp [recur, hresolved, deriveSignalStatus]

/-- Other transactions are not affected by a step that leaves the committed row alone and takes no
lock of theirs. -/
theorem Sound.other {s s' : State} {tx : ℕ} {transaction : Transaction} (h : Sound s tx transaction)
    (hcommitted : s'.committed = s.committed)
    (hholder : s.holder = some tx → s'.holder = some tx) : Sound s' tx transaction := by
  refine ⟨fun hw => hholder (h.locked hw), fun row hrow => ?_, h.unresolved, ?_, h.fresh,
    h.faithful, ?_⟩
  · obtain ⟨hlock, hvisible⟩ := h.found row hrow
    refine ⟨hholder hlock, ?_⟩
    rw [State.visible, hcommitted]
    exact hvisible
  · rw [hcommitted]
    exact h.regressed
  · rw [hcommitted]
    exact h.moves

/-- A transaction that does not hold the lock has written nothing, so that the committed row may
change under it. -/
theorem Sound.unlocked {s s' : State} {tx : ℕ} {transaction : Transaction}
    (h : Sound s tx transaction) (hlock : s.holder ≠ some tx) : Sound s' tx transaction := by
  have hnone : transaction.written = none := by
    cases hw : transaction.written with
    | none => rfl
    | some row => exact absurd (h.locked (by rw [hw]; rfl)) hlock
  refine ⟨fun hw => ?_, fun row hrow => absurd (h.found row hrow).1 hlock, h.unresolved,
    fun row hrow => ?_, h.fresh, h.faithful, ?_⟩
  · rw [hnone] at hw
    cases hw
  · rw [hnone] at hrow
    cases hrow
  · rw [h.fresh hnone, hnone]
    simp

/-- A step of one transaction. -/
theorem Inv.put {s s' : State} (h : Inv s) (tx : ℕ) (transaction : Transaction)
    (htransactions : s'.transactions = s.put tx transaction) (hself : Sound s' tx transaction)
    (hcommitted : s'.committed = s.committed)
    (hholder : ∀ other, other ≠ tx → s.holder = some other → s'.holder = some other) : Inv s' := by
  intro other transaction' hother
  rw [htransactions, State.put] at hother
  by_cases heq : other = tx
  · subst heq
    rw [Function.update_self] at hother
    cases hother
    exact hself
  · rw [Function.update_of_ne heq] at hother
    exact (h other transaction' hother).other hcommitted (hholder other heq)

/-- The end of a transaction. -/
theorem Inv.finish {s s' : State} {tx : ℕ} (h : Inv s)
    (htransactions : s'.transactions = Function.update s.transactions tx none)
    (hholder : s'.holder = s.release tx)
    (hcommitted : s'.committed = s.committed ∨ s.holder = some tx) : Inv s' := by
  intro other transaction hother
  rw [htransactions] at hother
  have hne : other ≠ tx := by
    rintro rfl
    rw [Function.update_self] at hother
    cases hother
  rw [Function.update_of_ne hne] at hother
  have hsound := h other transaction hother
  rcases hcommitted with hcommitted | hlock
  · refine hsound.other hcommitted fun hlock => ?_
    rw [hholder, State.release, hlock, if_neg]
    simpa using hne
  · refine hsound.unlocked fun hlock' => hne ?_
    rw [hlock] at hlock'
    exact (Option.some.inj hlock').symm

theorem holder_of_lockable {s : State} {tx other : ℕ} (h : s.lockable tx = true)
    (hne : other ≠ tx) : s.holder ≠ some other := by
  intro hother
  simp only [State.lockable, hother, Bool.or_eq_true, decide_eq_true_eq, reduceCtorEq, false_or,
    Option.some.injEq] at h
  exact hne h

theorem Inv.upsert {s s' : State} {tx : ℕ} {id : String} {flag : Flag} {workflowId : Option String}
    (h : Inv s) (hok : Undisturbed s (.upsert tx id flag workflowId))
    (hstep : s.step (.upsert tx id flag workflowId) = some s') : Inv s' := by
  simp only [State.step] at hstep
  split at hstep
  · rename_i existing written done htx
    split at hstep
    · rename_i hlockable
      cases hstep
      have hsound := h tx _ htx
      set before := s.visible ⟨.looked existing, written, done⟩ with hbefore
      refine h.put tx _ rfl ?_ rfl fun other hne hother =>
        absurd hother (holder_of_lockable hlockable hne)
      -- what was read is what the upsert meets, unless nothing was read
      have hread : justRegressed existing = before.any fun signal => signal.resolvedAt.isSome := by
        cases existing with
        | some row =>
          have hrow : before = some row := (hsound.found row rfl).2
          rw [hrow]
          rfl
        | none =>
          cases hrow : before with
          | none => rfl
          | some row =>
            have hnone := hok _ row htx rfl (hbefore ▸ hrow)
            simp [justRegressed, hnone]
      refine ⟨fun _ => rfl, fun _ h => (by cases h), fun row hrow => ?_, fun row hrow hresolved => ?_,
        fun h => (by cases h),
        fun occurrence hoccurrence => ?_, ?_⟩
      · cases hrow
        exact upsertSignal_resolvedAt id flag workflowId before
      · cases hrow
        cases written with
        | some own =>
          have hown : before = some own := rfl
          rw [hown]
          have hunresolved : own.resolvedAt = none := hsound.unresolved own rfl
          simp only [upsertSignal, recur, hunresolved, Option.isSome_none, Bool.false_eq_true,
            if_false]
          exact hsound.regressed own rfl hresolved
        | none =>
          have hcommitted : before = s.committed := rfl
          rw [hcommitted]
          obtain ⟨row, hrow, hsome⟩ := (Option.any_eq_true _ _).mp hresolved
          have hrow' : s.committed = some row := hrow
          rw [hrow']
          simp [upsertSignal, recur, hsome]
      · rcases List.mem_append.mp hoccurrence with hold | hnew
        · exact hsound.faithful occurrence hold
        · rw [List.mem_singleton] at hnew
          subst hnew
          rw [moved_upsertSignal]
          exact hread
      · rw [List.filter_append, List.length_append, List.filter_singleton, moved_upsertSignal]
        have hmoves := hsound.moves
        cases written with
        | some own =>
          -- its own row is not resolved any more
          have hown : before = some own := rfl
          have hunresolved : own.resolvedAt = none := hsound.unresolved own rfl
          simp only [Option.isSome_some, true_and] at hmoves ⊢
          rw [hmoves, hown]
          simp [hunresolved]
        | none =>
          have hcommitted : before = s.committed := rfl
          have hdone : done = [] := hsound.fresh rfl
          rw [hdone, hcommitted]
          cases s.committed with
          | none => simp
          | some row => cases hresolved : row.resolvedAt <;> simp [hresolved]
    · cases hstep
  · cases hstep

theorem Inv.step {s s' : State} {act : Act} (h : Inv s) (hok : Undisturbed s act)
    (hstep : s.step act = some s') : Inv s' := by
  cases act with
  | begin tx =>
    simp only [State.step] at hstep
    split at hstep
    · cases hstep
      refine h.put tx ⟨.between, none, []⟩ rfl ?_ rfl fun _ _ hother => hother
      exact ⟨fun h => (by cases h), fun _ h => (by cases h), fun _ h => (by cases h),
        fun _ h => (by cases h), fun _ => rfl, by simp, by simp⟩
    · cases hstep
  | lookup tx =>
    simp only [State.step] at hstep
    split at hstep
    · rename_i written done htx
      have hsound := h tx _ htx
      split at hstep
      · cases hstep
        refine h.put tx ⟨.looked none, written, done⟩ rfl ?_ rfl fun _ _ hother => hother
        exact ⟨hsound.locked, fun _ h => (by cases h), hsound.unresolved, hsound.regressed, hsound.fresh,
          hsound.faithful, hsound.moves⟩
      · rename_i row hrow
        split at hstep
        · rename_i hlockable
          cases hstep
          refine h.put tx ⟨.looked (some row), written, done⟩ rfl ?_ rfl fun other hne hother =>
            absurd hother (holder_of_lockable hlockable hne)
          refine ⟨fun _ => rfl, fun row' hrow' => ?_, hsound.unresolved, hsound.regressed,
            hsound.fresh, hsound.faithful, hsound.moves⟩
          cases hrow'
          exact ⟨rfl, hrow⟩
        · cases hstep
    · cases hstep
  | upsert tx id flag workflowId => exact h.upsert hok hstep
  | commit tx =>
    simp only [State.step] at hstep
    split at hstep
    · rename_i written done htx
      cases hstep
      refine h.finish rfl rfl ?_
      cases written with
      | none => exact .inl rfl
      | some row => exact .inr ((h tx _ htx).locked rfl)
    · cases hstep
  | rollback tx =>
    simp only [State.step] at hstep
    split at hstep
    · cases hstep
    · cases hstep
      exact h.finish rfl rfl (.inl rfl)
  | resolveSignal workspaceId signalId now =>
    simp only [State.step] at hstep
    split at hstep
    · split at hstep
      · split at hstep
        · rename_i hholder
          cases hstep
          intro tx transaction htx
          exact (h tx transaction htx).unlocked (by rw [hholder]; simp)
        · cases hstep
      · cases hstep
        exact h
    · cases hstep
      exact h

/-- The signal goes from resolved to regressed. -/
def Regresses (s s' : State) : Prop :=
  s.committed.any (fun signal => deriveSignalStatus signal = .resolved) ∧
    s'.committed.any fun signal => deriveSignalStatus signal = .regressed

/-- The announcements of the transaction that a step commits. -/
def announcements (s : State) : Act → List Occurrence
  | .commit tx => ((s.transactions tx).elim [] Transaction.done).filter Occurrence.justRegressed
  | _ => []

def initial (committed : Option Signal) : State := ⟨committed, none, fun _ => none⟩

theorem inv_initial (committed : Option Signal) : Inv (initial committed) := by
  intro tx transaction htx
  cases htx

theorem not_regresses_of_committed {s s' : State} (h : s'.committed = s.committed) :
    ¬Regresses s s' := by
  rintro ⟨hbefore, hafter⟩
  rw [h] at hafter
  obtain ⟨row, hrow, hresolved⟩ := (Option.any_eq_true _ _).mp hbefore
  obtain ⟨row', hrow', hregressed⟩ := (Option.any_eq_true _ _).mp hafter
  rw [hrow] at hrow'
  cases hrow'
  simp only [decide_eq_true_eq] at hresolved hregressed
  rw [hresolved] at hregressed
  cases hregressed

theorem deriveSignalStatus_of_unresolved {signal : Signal} (h : signal.resolvedAt = none) :
    deriveSignalStatus signal = .regressed ↔ signal.regressedAt.isSome := by
  unfold deriveSignalStatus
  rw [h]
  cases signal.regressedAt with
  | none => simp
  | some at_ => simp

/-- A transaction announces a regression when it has written over a resolved signal. -/
theorem Inv.announcements_length {s : State} {tx : ℕ} {transaction : Transaction} (h : Inv s)
    (htx : s.transactions tx = some transaction) :
    (announcements s (.commit tx)).length =
      if transaction.written.isSome ∧ s.committed.any (fun signal => signal.resolvedAt.isSome)
      then 1 else 0 := by
  have hsound := h tx transaction htx
  rw [← hsound.moves]
  simp only [announcements, htx, Option.elim_some]
  congr 1
  exact List.filter_congr fun occurrence hmem => hsound.faithful occurrence hmem

/-- A transaction announces as many regressions as its commit makes, none or one. -/
theorem Inv.announcements_commit {s s' : State} {tx : ℕ} (h : Inv s)
    (hstep : s.step (.commit tx) = some s') :
    Regresses s s' ↔ (announcements s (.commit tx)).length = 1 := by
  simp only [State.step] at hstep
  split at hstep
  · rename_i written done htx
    cases hstep
    have hsound := h tx _ htx
    rw [h.announcements_length htx]
    cases written with
    | none =>
      have hnot : ¬Regresses s ⟨s.visible ⟨.between, none, done⟩, s.release tx,
          Function.update s.transactions tx none⟩ := not_regresses_of_committed rfl
      simp [hnot]
    | some row =>
      have hunresolved : row.resolvedAt = none := hsound.unresolved row rfl
      have hregressed := hsound.regressed row rfl
      simp only [Regresses, State.visible, Option.some_or, Option.any_some,
        deriveSignalStatus_eq_resolved, decide_eq_true_eq,
        deriveSignalStatus_of_unresolved hunresolved, Option.isSome_some, true_and]
      by_cases hresolved : s.committed.any (fun signal => signal.resolvedAt.isSome) = true
      · simp [hresolved, hregressed hresolved]
      · simp [hresolved]
  · cases hstep

theorem Inv.announcements_le {s : State} (h : Inv s) (act : Act) :
    (announcements s act).length ≤ 1 := by
  cases act with
  | commit tx =>
    cases htx : s.transactions tx with
    | none => simp [announcements, htx]
    | some transaction =>
      rw [h.announcements_length htx]
      split
      · rfl
      · exact Nat.zero_le 1
  | begin _ => exact Nat.zero_le 1
  | lookup _ => exact Nat.zero_le 1
  | upsert _ _ _ _ => exact Nat.zero_le 1
  | rollback _ => exact Nat.zero_le 1
  | resolveSignal _ _ _ => exact Nat.zero_le 1

theorem Inv.regresses_iff {s s' : State} {act : Act} (h : Inv s) (hstep : s.step act = some s') :
    Regresses s s' ↔ (announcements s act).length = 1 := by
  cases act with
  | commit tx => exact h.announcements_commit hstep
  | begin tx =>
    simp only [State.step] at hstep
    split at hstep
    · cases hstep
      exact iff_of_false (not_regresses_of_committed rfl) (by simp [announcements])
    · cases hstep
  | lookup tx =>
    simp only [State.step] at hstep
    split at hstep
    · split at hstep
      · cases hstep
        exact iff_of_false (not_regresses_of_committed rfl) (by simp [announcements])
      · split at hstep
        · cases hstep
          exact iff_of_false (not_regresses_of_committed rfl) (by simp [announcements])
        · cases hstep
    · cases hstep
  | upsert tx id flag workflowId =>
    simp only [State.step] at hstep
    split at hstep
    · split at hstep
      · cases hstep
        exact iff_of_false (not_regresses_of_committed rfl) (by simp [announcements])
      · cases hstep
    · cases hstep
  | rollback tx =>
    simp only [State.step] at hstep
    split at hstep
    · cases hstep
    · cases hstep
      exact iff_of_false (not_regresses_of_committed rfl) (by simp [announcements])
  | resolveSignal workspaceId signalId now =>
    refine iff_of_false ?_ (by simp [announcements])
    simp only [State.step] at hstep
    split at hstep
    · split at hstep
      · split at hstep
        · cases hstep
          rintro ⟨_, hafter⟩
          simp [resolveSignal, deriveSignalStatus] at hafter
        · cases hstep
      · cases hstep
        exact not_regresses_of_committed rfl
    · cases hstep
      exact not_regresses_of_committed rfl

/-- In every run in which no occurrence that found no signal meets a resolved one: an occurrence
reports a regression exactly when its upsert moved the signal from resolved to regressed, and a step
that moves the committed signal so comes with one announcement, every other step with none. -/
theorem regressions_announced_once {committed : Option Signal} {acts : List Act} {s : State}
    (h : Run State.step Undisturbed (initial committed) acts s) :
    (∀ tx transaction, s.transactions tx = some transaction →
      ∀ occurrence ∈ transaction.done, occurrence.justRegressed = true ↔ occurrence.moved = true) ∧
    ∀ act s', s.step act = some s' →
      (Regresses s s' → (announcements s act).length = 1) ∧
      (¬Regresses s s' → announcements s act = []) := by
  have hinv : Inv s := h.invariant (fun hs hok hstep => hs.step hok hstep) (inv_initial committed)
  refine ⟨fun tx transaction htx occurrence hmem => ?_, fun act s' hstep => ⟨?_, ?_⟩⟩
  · rw [(hinv tx transaction htx).faithful occurrence hmem]
  · exact (hinv.regresses_iff hstep).mp
  · intro hnot
    have hne : (announcements s act).length ≠ 1 := fun heq => hnot ((hinv.regresses_iff hstep).mpr heq)
    have hle := hinv.announcements_le act
    exact List.eq_nil_of_length_eq_zero (by omega)

namespace Sample

def flag : Flag :=
  ⟨"f", "w", some "wf", none, none, .costJump, "cost_jump:1", none, none, 7⟩

/-- A signal that was resolved. -/
def signal : Signal := resolveSignal 3 (newSignal "s" flag (some "wf"))

/-- Two transactions flag the resolved signal, one after the other. -/
def serial : List Act :=
  [.begin 0, .begin 1, .lookup 0, .upsert 0 "s0" flag (some "wf"), .commit 0, .lookup 1,
    .upsert 1 "s1" flag (some "wf")]

/-- The first transaction looks before the signal is there; a second one creates it, and it is
resolved before the first one upserts. -/
def overlapping : List Act :=
  [.begin 0, .lookup 0, .begin 1, .lookup 1, .upsert 1 "s" flag (some "wf"), .commit 1,
    .resolveSignal "w" "s" 3, .upsert 0 "t" flag (some "wf")]

end Sample

theorem regressions_announced_once_serial : ∃ s,
    Run State.step Undisturbed (initial (some Sample.signal)) Sample.serial s ∧
    ∀ act s', s.step act = some s' →
      (Regresses s s' → (announcements s act).length = 1) ∧
      (¬Regresses s s' → announcements s act = []) := by
  have hrun : ∃ s, Run State.step Undisturbed (initial (some Sample.signal)) Sample.serial s := by
    refine ⟨_, .cons trivial rfl (.cons trivial rfl (.cons trivial rfl (.cons ?_ rfl
      (.cons trivial rfl (.cons trivial rfl (.cons ?_ rfl (.nil _)))))))⟩
    · intro transaction row htx hphase
      cases htx
      cases hphase
    · intro transaction row htx hphase
      cases htx
      cases hphase
  obtain ⟨s, hrun⟩ := hrun
  exact ⟨s, hrun, (regressions_announced_once hrun).2⟩

/-- The first occurrence moves the signal from resolved to regressed, and nobody hears of it. -/
theorem regression_not_announced : ∃ s s' transaction occurrence,
    Run State.step (fun _ _ => True) (initial none) Sample.overlapping s ∧
    s.transactions 0 = some transaction ∧ occurrence ∈ transaction.done ∧
    occurrence.moved = true ∧ occurrence.justRegressed = false ∧
    s.step (.commit 0) = some s' ∧ Regresses s s' ∧ announcements s (.commit 0) = [] := by
  refine ⟨_, _, _, _, Run.of_foldlM rfl, rfl, List.mem_singleton_self _, ?_, rfl, rfl, ?_, rfl⟩
  · decide
  · exact ⟨by decide, by decide⟩

end Linea.Signals
