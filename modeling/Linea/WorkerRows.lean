import Linea.WorkerRuns

/-! What a step of the worker system does to the execution row: it stays, or one of the
statements of `execution.repository.ts` changes it. And whose phase it moves. -/
namespace Linea.Worker
open Walker ExecutionRecord

variable {g : WorkflowGraph} {payload : Value} {s s' : System} {act : Act} {e e' : Execution}
  {now : ℕ} {a : String}

inductive RowStep (now : ℕ) (e : Execution) : Act → Execution → Prop
  | kept (act : Act) : RowStep now e act e
  | requeued {e' : Execution} (h : e.requeue = some e') : RowStep now e .requeue e'
  | cancelled {e' : Execution} {environmentId : String}
      (h : e.cancelExecution environmentId now = some e') :
      RowStep now e (.cancel environmentId) e'
  | claimed {e' : Execution} {a : String} {leaseExpiresAt : ℕ}
      (h : e.startExecution now a leaseExpiresAt = some e') :
      RowStep now e (.claim a leaseExpiresAt) e'
  | renewed {e' : Execution} {a : String} {leaseExpiresAt : ℕ}
      (h : e.renewLease now a leaseExpiresAt = some e') :
      RowStep now e (.renew a leaseExpiresAt) e'
  | paused {e' : Execution} {a : String} (h : e.pauseExecution now a = some e') :
      RowStep now e (.pause a .pending) e'
  | completed {e' : Execution} {a : String} {input : CompleteExecutionInput}
      {event : Option PublicEvent}
      (h : e.completeExecution now true a input = some (e', event)) {act : Act}
      (call : act = .complete a false ∨ ∃ message, act = .abort a message) :
      RowStep now e act e'

theorem tryComplete_row {input : CompleteExecutionInput} (ph : Phase)
    (call : act = .complete a false ∨ ∃ message, act = .abort a message) :
    RowStep s.clock s.record.execution act
      ((tryComplete s a input).withPhase a ph).record.execution := by
  unfold tryComplete
  cases h : s.record.execution.completeExecution s.clock true a input with
  | none => exact .kept act
  | some result => exact .completed h call

/-- A terminal row never changes. -/
theorem RowStep.terminal (h : RowStep now e act e') (ht : e.status ∈ terminalStatuses) :
    e' = e := by
  cases h with
  | kept => rfl
  | requeued h =>
    obtain ⟨hs, _⟩ := Execution.requeue_some h
    simp [hs, terminalStatuses] at ht
  | cancelled h =>
    obtain ⟨⟨_, hs⟩, _⟩ := Execution.cancelExecution_some h
    simp only [List.mem_cons, List.not_mem_nil, or_false] at hs
    rcases hs with hs | hs | hs <;> simp [hs, terminalStatuses] at ht
  | claimed h =>
    obtain ⟨hs, _⟩ := Execution.startExecution_some h
    rcases hs with hs | ⟨hs, _⟩ <;> simp [hs, terminalStatuses] at ht
  | renewed h =>
    obtain ⟨⟨hs, _⟩, _⟩ := Execution.renewLease_some h
    simp [hs, terminalStatuses] at ht
  | paused h => exact absurd ht (Execution.pauseExecution_some h).1.2
  | completed h _ => exact absurd ht (Execution.completeExecution_some h).1.2

theorem RowStep.ids (h : RowStep now e act e') :
    e'.id = e.id ∧ e'.workspaceId = e.workspaceId := by
  cases h with
  | kept => exact ⟨rfl, rfl⟩
  | requeued h =>
    obtain ⟨_, rfl⟩ := Execution.requeue_some h
    exact ⟨rfl, rfl⟩
  | cancelled h =>
    obtain ⟨_, rfl⟩ := Execution.cancelExecution_some h
    exact ⟨rfl, rfl⟩
  | claimed h =>
    obtain ⟨_, rfl⟩ := Execution.startExecution_some h
    exact ⟨rfl, rfl⟩
  | renewed h =>
    obtain ⟨_, rfl⟩ := Execution.renewLease_some h
    exact ⟨rfl, rfl⟩
  | paused h =>
    obtain ⟨_, rfl⟩ := Execution.pauseExecution_some h
    exact ⟨rfl, rfl⟩
  | completed h _ =>
    obtain ⟨_, rfl, _⟩ := Execution.completeExecution_some h
    exact ⟨rfl, rfl⟩

/-- An execution that runs after a step ran before it under the same lease, or was claimed. -/
theorem RowStep.running (h : RowStep now e act e') (hr : e'.status = .running) :
    (e.status = .running ∧ e'.leasedBy = e.leasedBy) ∨
      ∃ a leaseExpiresAt, act = .claim a leaseExpiresAt ∧
        e.startExecution now a leaseExpiresAt = some e' := by
  cases h with
  | kept => exact Or.inl ⟨hr, rfl⟩
  | requeued h =>
    obtain ⟨_, rfl⟩ := Execution.requeue_some h
    cases hr
  | cancelled h =>
    obtain ⟨_, rfl⟩ := Execution.cancelExecution_some h
    cases hr
  | @claimed e' a leaseExpiresAt h => exact Or.inr ⟨a, leaseExpiresAt, rfl, h⟩
  | renewed h =>
    obtain ⟨⟨hs, _⟩, rfl⟩ := Execution.renewLease_some h
    exact Or.inl ⟨hs, rfl⟩
  | paused h =>
    obtain ⟨_, rfl⟩ := Execution.pauseExecution_some h
    cases hr
  | @completed e' a input event h =>
    obtain ⟨_, rfl, _⟩ := Execution.completeExecution_some h
    have hterminal := input.allowed
    simp only at hr
    rw [hr] at hterminal
    simp [terminalStatuses] at hterminal

/-- The attempt that takes the step. -/
def attemptOf : Act → Option String
  | .tick _ => none
  | .requeue => none
  | .cancel _ => none
  | .renew _ _ => none
  | .claim a _ => some a
  | .readState a => some a
  | .readVariables a => some a
  | .begin a => some a
  | .checkLease a => some a
  | .invoke a _ => some a
  | .writeStep a _ => some a
  | .writeFailure a _ => some a
  | .pause a _ => some a
  | .complete a _ => some a
  | .abort a _ => some a
  | .throw a => some a
  | .crash a => some a

theorem tryComplete_phase (s : System) (a : String) (input : CompleteExecutionInput) :
    (tryComplete s a input).phase = s.phase := by
  unfold tryComplete
  split <;> rfl

variable [Columns]

theorem step_row (h : step g payload s act = some s') :
    RowStep s.clock s.record.execution act s'.record.execution := by
  cases act with
  | requeue =>
    obtain ⟨e, he, rfl⟩ := Option.map_eq_some_iff.mp h
    exact .requeued he
  | cancel environmentId =>
    obtain ⟨e, he, rfl⟩ := Option.map_eq_some_iff.mp h
    exact .cancelled he
  | renew a leaseExpiresAt =>
    obtain ⟨e, he, rfl⟩ := Option.map_eq_some_iff.mp h
    exact .renewed he
  | claim a leaseExpiresAt =>
    simp only [step] at h
    split at h
    · split at h
      · rename_i e he
        cases h
        exact .claimed he
      · cases h
        exact .kept _
    · cases h
  | pause a answer =>
    simp only [step] at h
    split at h
    · split at h
      · split at h
        · rename_i e he
          cases h
          exact .paused he
        · cases h
          exact .kept _
      · cases h
        exact .kept _
      · cases h
        exact .kept _
    · cases h
  | complete a threw =>
    simp only [step] at h
    split at h
    · split_ifs at h with ht
      · cases h
        exact .kept _
      · cases h
        simp only [Bool.not_eq_true] at ht
        subst ht
        exact tryComplete_row _ (Or.inl rfl)
    · cases h
  | abort a message =>
    simp only [step] at h
    split at h
    · cases h
      exact tryComplete_row _ (Or.inr ⟨message, rfl⟩)
    · cases h
  | begin a =>
    simp only [step] at h
    split at h
    · split_ifs at h
      · split at h
        · rename_i record hw
          cases h
          obtain ⟨_, _, _, rfl⟩ := recordResumeEvent_written hw
          exact .kept _
        · cases h
          exact .kept _
      · cases h
        exact .kept _
    · cases h
  | writeStep a dbError =>
    simp only [step] at h
    split at h
    · split at h
      · cases h
        exact .kept _
      · split at h
        · rename_i record hw
          cases h
          obtain ⟨_, _, _, _, _, _, rfl⟩ := writeStepAndCheckpoint_written hw
          exact .kept _
        · cases h
          exact .kept _
        · cases h
          exact .kept _
        · cases h
          exact .kept _
    · cases h
  | writeFailure a dbError =>
    simp only [step] at h
    split at h
    · split at h
      · cases h
        exact .kept _
      · split at h
        · rename_i record hw
          cases h
          obtain ⟨_, _, _, _, _, _, rfl⟩ := writeStepAndCheckpoint_written hw
          exact .kept _
        · cases h
          exact .kept _
    · cases h
  | throw a =>
    simp only [step] at h
    split at h
    · cases h
    · cases h
    · cases h
      exact .kept _
  | crash a =>
    cases h
    exact .kept _
  | tick elapsed =>
    cases h
    exact .kept _
  | readState a =>
    simp only [step] at h
    split at h
    · cases h
      exact .kept _
    · cases h
  | readVariables a =>
    simp only [step] at h
    split at h
    · cases h
      exact .kept _
    · cases h
  | checkLease a =>
    simp only [step] at h
    split at h
    · split_ifs at h
      · cases h
        exact .kept _
      · cases h
        exact .kept _
    · cases h
  | invoke a outcome =>
    simp only [step] at h
    split at h
    · cases h
      exact .kept _
    · cases h

/-- A step moves the attempt that takes it, and no other. -/
theorem phase_of_ne {b : String} (h : step g payload s act = some s')
    (hne : attemptOf act ≠ some b) : s'.phase b = s.phase b := by
  have moved : ∀ {t : System} {ph : Phase} {c : String}, attemptOf act = some c →
      t.phase = s.phase → (t.withPhase c ph).phase b = s.phase b := by
    intro t ph c hc ht
    have hbc : b ≠ c := by
      rintro rfl
      exact hne hc
    rw [withPhase_of_ne _ hbc, ht]
  cases act with
  | tick elapsed =>
    cases h
    rfl
  | requeue =>
    obtain ⟨e, _, rfl⟩ := Option.map_eq_some_iff.mp h
    rfl
  | cancel environmentId =>
    obtain ⟨e, _, rfl⟩ := Option.map_eq_some_iff.mp h
    rfl
  | renew a leaseExpiresAt =>
    obtain ⟨e, _, rfl⟩ := Option.map_eq_some_iff.mp h
    rfl
  | claim a leaseExpiresAt =>
    simp only [step] at h
    split at h
    · split at h <;> cases h <;> exact moved rfl rfl
    · cases h
  | readState a =>
    simp only [step] at h
    split at h
    · cases h
      exact moved rfl rfl
    · cases h
  | readVariables a =>
    simp only [step] at h
    split at h
    · cases h
      exact moved rfl rfl
    · cases h
  | begin a =>
    simp only [step] at h
    split at h
    · split_ifs at h
      · split at h <;> cases h <;> exact moved rfl rfl
      · cases h
        exact moved rfl rfl
    · cases h
  | checkLease a =>
    simp only [step] at h
    split at h
    · split_ifs at h <;> cases h <;> exact moved rfl rfl
    · cases h
  | invoke a outcome =>
    simp only [step] at h
    split at h
    · cases h
      exact moved rfl rfl
    · cases h
  | writeStep a dbError =>
    simp only [step] at h
    split at h
    · split at h
      · cases h
        exact moved rfl rfl
      · split at h <;> cases h <;> exact moved rfl rfl
    · cases h
  | writeFailure a dbError =>
    simp only [step] at h
    split at h
    · split at h
      · cases h
        exact moved rfl rfl
      · split at h <;> cases h <;> exact moved rfl rfl
    · cases h
  | pause a answer =>
    simp only [step] at h
    split at h
    · split at h
      · split at h <;> cases h <;> exact moved rfl rfl
      · cases h
        exact moved rfl rfl
      · cases h
        exact moved rfl rfl
    · cases h
  | complete a threw =>
    simp only [step] at h
    split at h
    · split_ifs at h
      · cases h
        exact moved rfl rfl
      · cases h
        exact moved rfl (tryComplete_phase _ _ _)
    · cases h
  | abort a message =>
    simp only [step] at h
    split at h
    · cases h
      exact moved rfl (tryComplete_phase _ _ _)
    · cases h
  | throw a =>
    simp only [step] at h
    split at h
    · cases h
    · cases h
    · cases h
      exact moved rfl rfl
  | crash a =>
    cases h
    exact moved rfl rfl

end Linea.Worker
