import Linea.WorkerSync

/-! Runs of the whole system: any number of attempts that may stop anywhere, renewals, requeues,
cancellations and the passing of time, in any order. -/
namespace Linea.Worker
open Walker OrderedMap ExecutionRecord RecordStepInput WorkflowGraph

variable {g : WorkflowGraph} {payload : Value} {s s' : System} {act : Act} {r : ExecutionRecord}

/-- The system when the execution is created. -/
def initial (clock : ℕ) (id workspaceId : String)
    (environmentId externalSubjectRecordId conversationId : Option String) : System where
  clock := clock
  record := created id workspaceId environmentId externalSubjectRecordId conversationId
  phase := fun _ => .idle

variable [Columns]

/-- States reached by runs all of whose steps are allowed. -/
inductive Reachable (g : WorkflowGraph) (payload : Value) (allowed : System → Act → Prop) :
    System → Prop
  | start (clock : ℕ) (id workspaceId : String)
      (environmentId externalSubjectRecordId conversationId : Option String) :
      Reachable g payload allowed
        (initial clock id workspaceId environmentId externalSubjectRecordId conversationId)
  | step {s s' : System} {act : Act} (before : Reachable g payload allowed s)
      (ok : allowed s act) (taken : step g payload s act = some s') :
      Reachable g payload allowed s'

theorem Reachable.mono {allowed allowed' : System → Act → Prop}
    (h : Reachable g payload allowed s) (himp : ∀ t act, allowed t act → allowed' t act) :
    Reachable g payload allowed' s := by
  induction h with
  | start => exact .start _ _ _ _ _ _
  | step _ ok taken ih => exact .step ih (himp _ _ ok) taken

theorem initial_tracks {leeway : Leeway} {tracked : String → Prop} (clock : ℕ)
    (id workspaceId : String)
    (environmentId externalSubjectRecordId conversationId : Option String) :
    Tracks g payload leeway tracked
      (initial clock id workspaceId environmentId externalSubjectRecordId conversationId)
      OrderedMap.empty (.object []) false :=
  ⟨.start, fun _ _ => trivial, fun he => by cases he⟩

/-- The attempt holds the lease, which may have run out. -/
def Owner (s : System) (a : String) : Prop := s.record.execution.leasedBy = some a

/-- The lease goes to nobody but an attempt that claims. -/
theorem Effect.owner (h : Effect g payload s act s') {a : String} (ho : Owner s' a) :
    TrackedNext (Owner s) s s' a := by
  have hrow : ∀ {e : Execution}, RowChange s.record.execution e → e.leasedBy = some a →
      Owner s a := by
    intro e change he
    rcases change.lease with hn | hs
    · rw [he] at hn
      cases hn
    · exact hs.symm.trans he
  cases h with
  | clock _ => exact Or.inl ho
  | row change => exact Or.inl (hrow change.toRowChange ho)
  | @claim b t e idle granted =>
    obtain ⟨_, rfl⟩ := Execution.startExecution_some granted
    obtain rfl : b = a := Option.some.inj ho
    exact Or.inr ⟨idle, withPhase_self _ _ _⟩
  | quiet _ => exact Or.inl ho
  | finished _ _ _ change => exact Or.inl (hrow change ho)
  | marker _ written =>
    obtain ⟨_, _, _, rfl⟩ := recordResumeEvent_written written
    exact Or.inl ho
  | success _ written =>
    obtain ⟨_, _, _, _, _, _, rfl⟩ := writeStepAndCheckpoint_written written
    exact Or.inl ho
  | failure _ written =>
    obtain ⟨_, _, _, _, _, _, rfl⟩ := writeStepAndCheckpoint_written written
    exact Or.inl ho

omit [Columns] in
theorem Owner.unique {a b : String} (ha : Owner s a) (hb : Owner s b) : a = b :=
  Option.some.inj (ha.symm.trans hb)

/-- In every run the tables are a log, and the owner of the lease is in step with it. -/
theorem reachable_tracks {leeway : Leeway} (h : Reachable g payload leeway.Allows s) :
    ∃ c vars ended, Tracks g payload leeway (Owner s) s c vars ended := by
  induction h with
  | start => exact ⟨_, _, _, initial_tracks _ _ _ _ _ _⟩
  | step _ ok taken ih =>
    obtain ⟨c, vars, ended, tracks⟩ := ih
    have heff := step_effect taken
    obtain ⟨c', vars', ended', tracks'⟩ := heff.tracks tracks (fun _ ho _ => ho)
      (fun _ _ => Owner.unique) ok
    exact ⟨c', vars', ended', tracks'.mono fun _ => heff.owner⟩

omit [Columns] in
/-- The marker of a resume has no key, so only the lease can refuse it. -/
theorem recordResumeEvent_eq_written {now : ℕ} {a : String}
    (hl : r.execution.isLeaseValid now a = true) :
    ∃ record, r.recordResumeEvent now a = .written record := by
  have hs : ∃ t, r.steps.insert r.resumeRow = some t :=
    ⟨_, dif_pos fun key hk => by cases hk⟩
  obtain ⟨steps, hs⟩ := hs
  exact ⟨_, by rw [recordResumeEvent, if_pos hl, hs]⟩

/-- Where the columns take the rows, nothing is taken and the lease holds, a write goes through. -/
theorem recordStep_eq_written {a : String} {now : ℕ} {input : RecordStepInput}
    (own : input.executionId = r.execution.id) (hl : r.execution.isLeaseValid now a = true)
    (accepted : input.accepted = true)
    (hkey : ¬ Taken r input.step.nodeId) (hseq : input.sequence ∉ r.checkpoints.sequences) :
    ∃ record, recordStep now r a input = .written record := by
  have hs : ∃ t, r.steps.insert input.stepRow.stored = some t := by
    refine ⟨_, dif_pos fun key hk => ?_⟩
    obtain rfl : idempotencyKey input.executionId input.step.nodeId = key := by
      simpa [StepRow.stored, stepRow] using hk
    rw [own]
    exact hkey
  have hc : ∃ t, r.checkpoints.insert input.checkpointRow.stored = some t := ⟨_, dif_pos hseq⟩
  obtain ⟨steps, hs⟩ := hs
  obtain ⟨checkpoints, hc⟩ := hc
  have htakes : (input.stepRow.accepted && input.checkpointRow.accepted) = true := accepted
  exact ⟨_, by rw [recordStep, writeStepAndCheckpoint, if_pos hl, if_pos htakes, hs, hc]⟩

theorem recordStep_eq_refused {a : String} {now : ℕ} {input : RecordStepInput}
    (hl : r.execution.isLeaseValid now a = true) (refused : input.accepted = false) :
    recordStep now r a input = .refused := by
  have hrefuses : ¬ (input.stepRow.accepted && input.checkpointRow.accepted) = true :=
    Bool.eq_false_iff.mp refused
  rw [recordStep, writeStepAndCheckpoint, if_pos hl, if_neg hrefuses]

/-- The state after a run; steps that are not possible are skipped. -/
def run (g : WorkflowGraph) (payload : Value) (s : System) (acts : List Act) : System :=
  acts.foldl (fun s act => (step g payload s act).getD s) s

theorem run_cons {act : Act} (h : step g payload s act = some s') (acts : List Act) :
    run g payload s (act :: acts) = run g payload s' acts := by
  rw [run, List.foldl_cons, h]
  rfl

/-- Every step of the run is allowed where it is taken. -/
def RunAllowed (g : WorkflowGraph) (payload : Value) (allowed : System → Act → Prop) :
    System → List Act → Prop
  | _, [] => True
  | s, act :: acts =>
    allowed s act ∧ RunAllowed g payload allowed ((step g payload s act).getD s) acts

theorem runAllowed_of_forall {allowed : System → Act → Prop} {acts : List Act}
    (h : ∀ act ∈ acts, ∀ t, allowed t act) : RunAllowed g payload allowed s acts := by
  induction acts generalizing s with
  | nil => trivial
  | cons act acts ih =>
    exact ⟨h act List.mem_cons_self s, ih fun b hb => h b (List.mem_cons_of_mem act hb)⟩

theorem Reachable.run {allowed : System → Act → Prop} (h : Reachable g payload allowed s)
    {acts : List Act} (ok : RunAllowed g payload allowed s acts) :
    Reachable g payload allowed (Worker.run g payload s acts) := by
  induction acts generalizing s with
  | nil => exact h
  | cons act acts ih =>
    refine ih (s := (Worker.step g payload s act).getD s) ?_ ok.2
    cases hs : Worker.step g payload s act with
    | none => exact h
    | some s' => exact h.step ok.1 hs

/-- One node and nothing else. -/
def singleGraph : WorkflowGraph where
  entryNodeId := "start"
  nodes := [⟨"start", .start, []⟩]
  edges := []

def queued : System := initial 0 "e" "w" (some "env") none none

theorem reachable_queued {allowed : System → Act → Prop} : Reachable g payload allowed queued :=
  .start 0 "e" "w" (some "env") none none

/-- An attempt claims, loads, and calls the handler of the first node. -/
def firstCall (a : String) (outcome : HandlerOutcome) : List Act :=
  [.claim a 30, .readState a, .readVariables a, .begin a, .checkLease a, .invoke a outcome]

end Linea.Worker
