import Linea.WorkerRuns

/-! The latest checkpoint against the step table. They agree as long as no failure is written
for a step whose output the interpreter has already entered in its completed map, and a write of
that kind makes them disagree at once. -/
namespace Linea.Worker
open Walker OrderedMap ExecutionRecord RecordStepInput WorkflowGraph Columns

variable {g : WorkflowGraph} {payload : Value} {c : CompletedMap} {vars : Value} {ended : Bool}
  {refusals : Prop} {executionId : String} {steps : List StepRow}
  {checkpoints : List CheckpointRow} {r : ExecutionRecord} {s s' : System}

/-- The latest checkpoint is the one committed last, it lists exactly the steps that succeeded
with their outputs, and none of them is recorded as failed. -/
structure Consistent (r : ExecutionRecord) : Prop where
  latest : r.getLatestCheckpoint = r.checkpoints.rows.getLast?
  none : r.getLatestCheckpoint = none → completedSteps r.steps.rows = []
  ids : ∀ checkpoint, r.getLatestCheckpoint = some checkpoint →
    checkpoint.completedStepIds = (completedSteps r.steps.rows).map StepRow.nodeId
  context : ∀ checkpoint, r.getLatestCheckpoint = some checkpoint →
    ∀ row ∈ completedSteps r.steps.rows, Value.field checkpoint.context row.nodeId = row.output
  failed : ∀ checkpoint, r.getLatestCheckpoint = some checkpoint →
    ∀ row ∈ r.steps.rows, row.status = .failed → row.nodeId ∉ checkpoint.completedStepIds

section Runs
variable [Columns]

/-- The completed map lists the steps that succeeded, in the order they were committed. -/
theorem Log.entries (h : Log False executionId c vars ended steps checkpoints) :
    c.entries = (completedSteps steps).map fun row => (row.nodeId, row.output) := by
  induction h with
  | start => rfl
  | @marker _ _ _ _ _ row _ system _ _ ih =>
    rw [completedSteps_append, ih]
    simp [completedSteps, system]
  | @succeeded c _ _ _ input _ _ status _ fresh completed ih =>
    have hrow : completedSteps [input.stepRow.stored] = [input.stepRow.stored] := by
      have hsystem : input.stepRow.stored.isSystemEvent = false := rfl
      simp [completedSteps, stepRow_succeeded status, hsystem]
    rw [completedSteps_append, List.map_append, ← ih, hrow, completed, entries_set_of_notMem fresh]
    rfl
  | @failed _ _ _ _ input _ _ status _ _ ih =>
    have hrow : completedSteps [input.stepRow.stored] = [] := by
      simp [completedSteps, stepRow_failed status]
    rw [completedSteps_append, hrow, List.append_nil, ih]
  | refused admitted => exact admitted.elim

theorem Log.no_failed (h : Log refusals executionId c vars ended steps checkpoints)
    (hended : ended = false) : ∀ row ∈ steps, row.status ≠ .failed := by
  induction h with
  | start => simp
  | marker _ _ status _ ih =>
    intro row hrow
    rcases List.mem_append.mp hrow with hrow | hrow
    · exact ih hended row hrow
    · rw [List.mem_singleton.mp hrow, status]
      decide
  | succeeded _ _ status _ _ _ ih =>
    intro row hrow
    rcases List.mem_append.mp hrow with hrow | hrow
    · exact ih hended row hrow
    · rw [List.mem_singleton.mp hrow, stepRow_succeeded status]
      decide
  | failed => cases hended
  | refused => cases hended

theorem Log.failed_notMem (h : Log False executionId c vars ended steps checkpoints) :
    ∀ row ∈ steps, row.status = .failed → row.nodeId ∉ c.keys := by
  induction h with
  | start => simp
  | marker _ _ status _ ih =>
    intro row hrow hf
    rcases List.mem_append.mp hrow with hrow | hrow
    · exact ih row hrow hf
    · rw [List.mem_singleton.mp hrow, status] at hf
      cases hf
  | succeeded before own status text fresh completed =>
    intro row hrow hf
    exact absurd hf ((Log.succeeded before own status text fresh completed).no_failed rfl row hrow)
  | failed before _ _ fresh _ _ =>
    intro row hrow hf
    rcases List.mem_append.mp hrow with hrow | hrow
    · exact absurd hf (before.no_failed rfl row hrow)
    · rw [List.mem_singleton.mp hrow]
      exact fresh
  | refused admitted => exact admitted.elim

theorem Log.mono {refusals' : Prop} (h : Log refusals executionId c vars ended steps checkpoints)
    (himp : refusals → refusals') : Log refusals' executionId c vars ended steps checkpoints := by
  induction h with
  | start => exact .start
  | marker _ system status key ih => exact .marker ih system status key
  | succeeded _ own status text fresh completed ih =>
    exact .succeeded ih own status text fresh completed
  | failed _ own status fresh completed ih => exact .failed ih own status fresh completed
  | refused admitted _ own status text fresh completed ih =>
    exact .refused (himp admitted) ih own status text fresh completed

theorem Logged.consistent (h : Logged False r c vars ended) : Consistent r := by
  have hread : ∀ checkpoint, r.getLatestCheckpoint = some checkpoint →
      checkpoint.completedStepIds = c.keys ∧ checkpoint.context = c.entries := by
    intro checkpoint hcp
    rw [h.latest] at hcp
    obtain ⟨_, hids, hctx, _⟩ := h.top.last checkpoint hcp
    exact ⟨hids, hctx⟩
  refine ⟨h.latest, fun hn => ?_, fun cp hcp => ?_, fun cp hcp row hrow => ?_,
    fun cp hcp row hrow hf => ?_⟩
  · rw [h.latest] at hn
    have hc := (h.top.empty (by simpa using hn)).1
    have := h.entries
    rw [hc] at this
    exact (List.map_eq_nil_iff.mp this.symm)
  · rw [(hread cp hcp).1, OrderedMap.keys, h.entries, List.map_map]
    rfl
  · have hmem : (row.nodeId, row.output) ∈ c.entries := by
      rw [h.entries]
      exact List.mem_map.mpr ⟨row, hrow, rfl⟩
    have hget : c.get? row.nodeId = some row.output := get?_iff_mem.mpr hmem
    obtain ⟨q, hq, hout⟩ := Option.map_eq_some_iff.mp hget
    rw [(hread cp hcp).2, Value.field, hq]
    exact hout
  · rw [(hread cp hcp).1]
    exact h.failed_notMem row hrow hf

/-- A failure written for a step that the checkpoint lists as completed. -/
theorem Logged.refused_inconsistent (h : Logged refusals r c vars ended) {row : StepRow}
    (hrow : row ∈ r.steps.rows) (hf : row.status = .failed) (hc : row.nodeId ∈ c.keys) :
    ¬ Consistent r := by
  intro hcons
  cases hlast : r.checkpoints.rows.getLast? with
  | none =>
    have := (h.top.empty (by simpa using hlast)).1
    rw [this] at hc
    cases hc
  | some cp =>
    have hcp : r.getLatestCheckpoint = some cp := by rw [h.latest, hlast]
    have hids := (h.top.last cp hlast).2.1
    exact hcons.failed cp hcp row hrow hf (hids ▸ hc)

/-- Runs in which failures may be reclaimed and passes replayed, but no failure is written for a
step already entered in the completed map. -/
def noRefusals : Leeway := ⟨False, True, True⟩

theorem reachable_noRefusals (h : Reachable g payload NoRefusal s) :
    Reachable g payload noRefusals.Allows s :=
  h.mono fun _ _ ok => ⟨Or.inr ok, Or.inl trivial, Or.inl trivial⟩

/-- A failure written for a step already entered in the completed map breaks consistency. -/
theorem refusal_inconsistent (tracks : Tracks g payload noRefusals (Owner s) s c vars ended)
    {a : String} {l : Loaded} {p : Pass} {message : String} {pair : Value × Value}
    (failing : s.phase a = .failing l p message (some pair)) {record : ExecutionRecord}
    (written : recordStep s.clock s.record a
      (failureInput s.record.execution.id p message (some pair)) = .written record) :
    ¬ Consistent record := by
  have howner : Owner s a := Execution.isLeaseValid_leasedBy (recordStep_lease written)
  have hcur := current_of_written written rfl rfl (failing ▸ tracks.sync a howner)
  have hcomp : stored (failureInput s.record.execution.id p message (some pair)).completed =
      c.set p.step.nodeId (reads pair.1) := by
    rw [← hcur.same]
    exact stored_set (hcur.yields.nodeId ▸ hcur.yields.fresh) pair.1
  have hlog : Logged True s.record c vars ended := tracks.log.mono False.elim
  have hrefused := hlog.write_refused trivial rfl rfl hcur.fresh hcomp written
  obtain ⟨_, hrows, _⟩ := recordStep_written written
  have hrow : (failureInput s.record.execution.id p message (some pair)).stepRow.stored ∈
      record.steps.rows := by
    rw [hrows]
    simp
  refine hrefused.refused_inconsistent hrow rfl ?_
  · rw [hcomp]
    simp [StepRow.stored, stepRow, failureInput]

/-- Checkpoint consistency over every run of any number of attempts, with writes that fail
because the lease is lost, because the columns refuse a row or for any other reason: it holds in
every state reached, as long as no failure write goes through for a step already entered in the
completed map, and it is lost with the first that does. -/
theorem checkpoint_consistent (g : WorkflowGraph) (payload : Value) (s : System)
    (reached : Reachable g payload NoRefusal s) :
    Consistent s.record ∧ ∀ act s', step g payload s act = some s' →
      (Consistent s'.record ↔ NoRefusal s act) := by
  have hall : ∀ t, Reachable g payload NoRefusal t → Consistent t.record := by
    intro t ht
    obtain ⟨c, vars, ended, tracks⟩ := reachable_tracks (reachable_noRefusals ht)
    exact Logged.consistent tracks.log
  refine ⟨hall s reached, fun act s' hstep => ⟨fun hcons => ?_, fun hno => ?_⟩⟩
  · obtain ⟨c, vars, ended, tracks⟩ := reachable_tracks (reachable_noRefusals reached)
    cases act with
    | writeFailure a dbError =>
      cases dbError with
      | some message => trivial
      | none =>
        intro l p message pair failing valid accepted
        by_contra hfree
        rw [not_or] at hfree
        obtain ⟨record, written⟩ := recordStep_eq_written rfl valid accepted hfree.1 hfree.2
        simp only [step, failing, written, Option.some.injEq] at hstep
        rw [← hstep] at hcons
        exact refusal_inconsistent tracks failing written hcons
    | _ => trivial
  · exact hall s' (reached.step hno hstep)

end Runs

open scoped Unchanged

theorem checkpoint_consistent_written : Consistent
    (run singleGraph .null queued (firstCall "a" (.output .null) ++ [.writeStep "a" none])).record :=
  (checkpoint_consistent singleGraph .null _
    (reachable_queued.run (runAllowed_of_forall (by simp [firstCall, NoRefusal])))).1

/-- The write of a step that succeeded is refused by the database, and the failure is written
with a checkpoint that counts the step as completed. -/
theorem refused_write_breaks_checkpoint : ∃ s,
    Reachable singleGraph .null (fun _ _ => True) s ∧
    (s.record.steps.rows.map fun row => (row.nodeId, row.status)) = [("start", .failed)] ∧
    (s.record.getLatestCheckpoint.map CheckpointRow.completedStepIds) = some ["start"] ∧
    ¬ Consistent s.record := by
  refine ⟨run singleGraph .null queued (firstCall "a" (.output .null) ++
    [.writeStep "a" (some "connection reset"), .writeFailure "a" none]),
    reachable_queued.run (runAllowed_of_forall fun _ _ _ => trivial), rfl, rfl, ?_⟩
  intro hcons
  exact hcons.failed _ rfl _ List.mem_cons_self rfl (List.mem_cons_self)

end Linea.Worker
