import Linea.WorkerLog

/-! What a step of the system can do, said once: move the clock, change the execution row,
claim, move an attempt on without a write, or make one of the writes to the tables. Invariants of
runs are proved from this list. -/
namespace Linea.Worker
open Walker OrderedMap ExecutionRecord RecordStepInput WorkflowGraph

variable {g : WorkflowGraph} {payload : Value} {s s' : System} {act : Act}

/-- The attempt has claimed the execution and has not stopped. -/
def Phase.live : Phase → Prop
  | .idle | .done => False
  | _ => True

theorem Phase.live_of_ne {ph : Phase} (hi : ph ≠ .idle) (hd : ph ≠ .done) : ph.live := by
  cases ph with
  | idle => exact hi rfl
  | done => exact hd rfl
  | _ => trivial

/-- Moves of an attempt that write nothing. -/
inductive Quiet (g : WorkflowGraph) (payload : Value) (s : System) (a : String) :
    Act → Phase → Phase → Prop
  | stop {act : Act} {ph : Phase} (live : ph.live) : Quiet g payload s a act ph .aborting
  | finish {act : Act} {ph : Phase} : Quiet g payload s a act ph .done
  | readState : Quiet g payload s a (.readState a) .claimed (.stateRead s.record.getResumeState)
  | readVariables (resumeFrom : CompletedMap) : Quiet g payload s a (.readVariables a)
      (.stateRead resumeFrom) (.loaded ⟨resumeFrom, s.record.getResumeVariables⟩)
  | begin {l : Loaded} (empty : l.resumeFrom.size = 0) :
      Quiet g payload s a (.begin a) (.loaded l) (startPass g payload l)
  | checkLease {l : Loaded} {p : Pass} (valid : s.record.execution.isLeaseValid s.clock a = true) :
      Quiet g payload s a (.checkLease a) (.checking l p) (.invoking l p)
  | invoke (l : Loaded) (p : Pass) (outcome : HandlerOutcome) :
      Quiet g payload s a (.invoke a outcome) (.invoking l p) (afterInvoke l p outcome)
  | notWritten {l : Loaded} {p : Pass} {output vars : Value} (dbError : Option String)
      (message : String) : Quiet g payload s a (.writeStep a dbError) (.recording l p output vars)
        (.failing l p message (some (output, vars)))
  | decided (l : Loaded) (p : Pass) :
      Quiet g payload s a (.pause a .alreadyDecided) (.pausing l p) (startPass g payload l)

/-- The execution row changes, and nobody gains the lease. -/
structure RowChange (e e' : Execution) : Prop where
  id : e'.id = e.id
  lease : e'.leasedBy = none ∨ e'.leasedBy = e.leasedBy

/-- The same for a change made by nobody's attempt. -/
structure OuterChange (e e' : Execution) : Prop extends RowChange e e' where
  status : e'.status = e.status ∨ e'.status = .cancelled ∨
    e.status = .paused ∧ e'.status = .queued

@[simp] theorem withPhase_record (s : System) (a : String) (ph : Phase) :
    (s.withPhase a ph).record = s.record := rfl

@[simp] theorem withPhase_clock (s : System) (a : String) (ph : Phase) :
    (s.withPhase a ph).clock = s.clock := rfl

@[simp] theorem withPhase_self (s : System) (a : String) (ph : Phase) :
    (s.withPhase a ph).phase a = ph := by simp [System.withPhase]

theorem withPhase_of_ne (s : System) {a b : String} (h : b ≠ a) (ph : Phase) :
    (s.withPhase a ph).phase b = s.phase b := by simp [System.withPhase, h]

@[simp] theorem withPhase_withPhase (s : System) (a : String) (ph ph' : Phase) :
    (s.withPhase a ph).withPhase a ph' = s.withPhase a ph' := by
  simp only [System.withPhase]
  congr 1
  funext b
  split_ifs <;> rfl

@[simp] theorem withRecord_record (s : System) (r : ExecutionRecord) :
    (s.withRecord r).record = r := rfl

@[simp] theorem withRecord_phase (s : System) (r : ExecutionRecord) :
    (s.withRecord r).phase = s.phase := rfl

@[simp] theorem withRecord_clock (s : System) (r : ExecutionRecord) :
    (s.withRecord r).clock = s.clock := rfl

@[simp] theorem withExecution_phase (s : System) (e : Execution) :
    (s.withExecution e).phase = s.phase := rfl

@[simp] theorem withExecution_execution (s : System) (e : Execution) :
    (s.withExecution e).record.execution = e := rfl

/-- What `completeExecution` does to a record: the tables, the id and the lease stay. -/
structure Completion (now : ℕ) (a : String) (input : CompleteExecutionInput)
    (r r' : ExecutionRecord) : Prop where
  steps : r'.steps = r.steps
  checkpoints : r'.checkpoints = r.checkpoints
  id : r'.execution.id = r.execution.id
  lease : r'.execution.leasedBy = r.execution.leasedBy
  expiry : r'.execution.leaseExpiresAt = r.execution.leaseExpiresAt
  status : r'.execution.status =
    if r.execution.isLeaseValid now a = true ∧ r.execution.status ∉ terminalStatuses then
      input.status else r.execution.status

theorem tryComplete_spec (s : System) (a : String) (input : CompleteExecutionInput) :
    ∃ record, tryComplete s a input = s.withRecord record ∧
      Completion s.clock a input s.record record := by
  unfold tryComplete
  cases h : s.record.execution.completeExecution s.clock true a input with
  | none =>
    have hg : ¬ (s.record.execution.isLeaseValid s.clock a = true ∧
        s.record.execution.status ∉ terminalStatuses) := by
      intro hg
      simp [Execution.completeExecution, hg] at h
    exact ⟨s.record, rfl, rfl, rfl, rfl, rfl, rfl, by rw [if_neg hg]⟩
  | some result =>
    obtain ⟨e, event⟩ := result
    obtain ⟨hg, rfl, _⟩ := Execution.completeExecution_some h
    exact ⟨_, rfl, rfl, rfl, rfl, rfl, rfl, by rw [if_pos hg]⟩

variable [Columns]

inductive Effect (g : WorkflowGraph) (payload : Value) (s : System) : Act → System → Prop
  | clock (elapsed : ℕ) : Effect g payload s (.tick elapsed) { s with clock := s.clock + elapsed }
  | row {act : Act} {e : Execution} (change : OuterChange s.record.execution e) :
      Effect g payload s act (s.withExecution e)
  | claim {a : String} {leaseExpiresAt : ℕ} {e : Execution} (idle : s.phase a = .idle)
      (granted : s.record.execution.startExecution s.clock a leaseExpiresAt = some e) :
      Effect g payload s (.claim a leaseExpiresAt) ((s.withExecution e).withPhase a .claimed)
  | quiet {act : Act} {a : String} {ph : Phase} (move : Quiet g payload s a act (s.phase a) ph) :
      Effect g payload s act (s.withPhase a ph)
  | finished {act : Act} {a : String} {record : ExecutionRecord} (live : (s.phase a).live)
      (steps : record.steps = s.record.steps) (checkpoints : record.checkpoints = s.record.checkpoints)
      (change : RowChange s.record.execution record.execution) :
      Effect g payload s act ((s.withRecord record).withPhase a .done)
  | marker {a : String} {l : Loaded} {record : ExecutionRecord} (loaded : s.phase a = .loaded l)
      (written : s.record.recordResumeEvent s.clock a = .written record) :
      Effect g payload s (.begin a) ((s.withRecord record).withPhase a (startPass g payload l))
  | success {a : String} {l : Loaded} {p : Pass} {output vars : Value} {record : ExecutionRecord}
      (recording : s.phase a = .recording l p output vars)
      (written : recordStep s.clock s.record a
        (successInput s.record.execution.id p output vars) = .written record) :
      Effect g payload s (.writeStep a none) ((s.withRecord record).withPhase a
        (enter l vars (resume g payload p.node p.walker (.output output))))
  | failure {a : String} {l : Loaded} {p : Pass} {message : String}
      {entered : Option (Value × Value)} {record : ExecutionRecord}
      (failing : s.phase a = .failing l p message entered)
      (written : recordStep s.clock s.record a
        (failureInput s.record.execution.id p message entered) = .written record) :
      Effect g payload s (.writeFailure a none) ((s.withRecord record).withPhase a
        (.completing (.failed p.node.id message)))

theorem tryComplete_effect (act : Act) {a : String} (live : (s.phase a).live)
    (input : CompleteExecutionInput) :
    Effect g payload s act ((tryComplete s a input).withPhase a .done) := by
  obtain ⟨record, h, hc⟩ := tryComplete_spec s a input
  rw [h]
  exact .finished live hc.steps hc.checkpoints ⟨hc.id, Or.inr hc.lease⟩

/-- Every step has one of the listed effects. -/
theorem step_effect (h : step g payload s act = some s') : Effect g payload s act s' := by
  cases act with
  | tick elapsed =>
    cases h
    exact .clock elapsed
  | requeue =>
    obtain ⟨e, he, rfl⟩ := Option.map_eq_some_iff.mp h
    obtain ⟨hp, rfl⟩ := Execution.requeue_some he
    exact .row ⟨⟨rfl, Or.inr rfl⟩, Or.inr (Or.inr ⟨hp, rfl⟩)⟩
  | cancel environmentId =>
    obtain ⟨e, he, rfl⟩ := Option.map_eq_some_iff.mp h
    obtain ⟨_, rfl⟩ := Execution.cancelExecution_some he
    exact .row ⟨⟨rfl, Or.inl rfl⟩, Or.inr (Or.inl rfl)⟩
  | renew a leaseExpiresAt =>
    obtain ⟨e, he, rfl⟩ := Option.map_eq_some_iff.mp h
    obtain ⟨_, rfl⟩ := Execution.renewLease_some he
    exact .row ⟨⟨rfl, Or.inr rfl⟩, Or.inl rfl⟩
  | claim a leaseExpiresAt =>
    simp only [step] at h
    split at h
    · rename_i hidle
      split at h
      · rename_i e he
        cases h
        exact .claim hidle he
      · cases h
        exact .quiet .finish
    · cases h
  | readState a =>
    simp only [step] at h
    split at h
    · rename_i hph
      cases h
      exact .quiet (hph ▸ .readState)
    · cases h
  | readVariables a =>
    simp only [step] at h
    split at h
    · rename_i resumeFrom hph
      cases h
      exact .quiet (hph ▸ .readVariables resumeFrom)
    · cases h
  | begin a =>
    simp only [step] at h
    split at h
    · rename_i l hph
      split_ifs at h with hsize
      · split at h
        · rename_i record hw
          cases h
          exact .marker hph hw
        · cases h
          exact .quiet (.stop (hph ▸ trivial))
      · cases h
        exact .quiet (hph ▸ .begin (by omega))
    · cases h
  | checkLease a =>
    simp only [step] at h
    split at h
    · rename_i l p hph
      split_ifs at h with hl
      · cases h
        exact .quiet (hph ▸ .checkLease hl)
      · cases h
        exact .quiet (.stop (hph ▸ trivial))
    · cases h
  | invoke a outcome =>
    simp only [step] at h
    split at h
    · rename_i l p hph
      cases h
      exact .quiet (hph ▸ .invoke l p outcome)
    · cases h
  | writeStep a dbError =>
    simp only [step] at h
    split at h
    · rename_i l p output vars hph
      split at h
      · rename_i message
        cases h
        exact .quiet (hph ▸ .notWritten _ message)
      · split at h
        · rename_i record hw
          cases h
          exact .success hph hw
        · cases h
          exact .quiet (.stop (hph ▸ trivial))
        · cases h
          exact .quiet (hph ▸ .notWritten _ _)
        · cases h
          exact .quiet (hph ▸ .notWritten _ _)
    · cases h
  | writeFailure a dbError =>
    simp only [step] at h
    split at h
    · rename_i l p message entered hph
      split at h
      · cases h
        exact .quiet (.stop (hph ▸ trivial))
      · split at h
        · rename_i record hw
          cases h
          exact .failure hph hw
        · cases h
          exact .quiet (.stop (hph ▸ trivial))
    · cases h
  | pause a answer =>
    simp only [step] at h
    split at h
    · rename_i l p hph
      split at h
      · split at h
        · rename_i e he
          cases h
          obtain ⟨_, rfl⟩ := Execution.pauseExecution_some he
          exact .finished (hph ▸ trivial) rfl rfl ⟨rfl, Or.inl rfl⟩
        · cases h
          exact .quiet (.stop (hph ▸ trivial))
      · cases h
        exact .quiet (hph ▸ .decided l p)
      · cases h
        exact .quiet (.stop (hph ▸ trivial))
    · cases h
  | complete a threw =>
    simp only [step] at h
    split at h
    · rename_i result hph
      split_ifs at h
      · cases h
        exact .quiet (.stop (hph ▸ trivial))
      · cases h
        exact tryComplete_effect _ (hph ▸ trivial) _
    · cases h
  | abort a message =>
    simp only [step] at h
    split at h
    · rename_i hph
      cases h
      exact tryComplete_effect _ (hph ▸ trivial) _
    · cases h
  | throw a =>
    simp only [step] at h
    split at h
    · cases h
    · cases h
    · rename_i hidle hdone
      cases h
      exact .quiet (.stop (Phase.live_of_ne hidle hdone))
  | crash a =>
    cases h
    exact .quiet .finish

end Linea.Worker
