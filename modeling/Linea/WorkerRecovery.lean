import Linea.WalkerMeaning
import Linea.WorkerFinish

/-! Recovery. Unless an execution is reclaimed with a failed step on record or a pass is
replayed, every row the owner of the lease inserts is fresh, and an attempt whose handlers
succeed, with outputs that the columns take, brings the execution to its end. -/
namespace Linea.Worker
open Walker OrderedMap ExecutionRecord RecordStepInput WorkflowGraph Validate Columns

variable {g : WorkflowGraph} {payload : Value} {c : CompletedMap} {vars : Value} {ended : Bool}
  {refusals : Prop} {r record : ExecutionRecord} {s s' : System} {a : String} {l : Loaded} {p : Pass}

/-- Outputs of branch nodes are objects, as `BranchNode` returns them. -/
def ReadableOutput (g : WorkflowGraph) (node : WorkflowNode) (output : Value) : Prop :=
  node.type = .branch → g.outgoingEdges node.id ≠ [] → ∃ branch, output.prop "branch" = some branch

section Runs
variable [Columns]

/-- The outputs that are committed can be read again. -/
def BranchesReadable (g : WorkflowGraph) (s : System) : Act → Prop
  | .writeStep a none => ∀ l p output vars, s.phase a = .recording l p output vars →
      ReadableOutput g p.node (reads output)
  | .writeFailure a none => ∀ l p message pair, s.phase a = .failing l p message (some pair) →
      ReadableOutput g p.node (reads pair.1)
  | _ => True

/-- Steps that leave the step log recoverable. -/
structure Recoverable (g : WorkflowGraph) (s : System) (act : Act) : Prop where
  reclaim : NoReclaim s act
  replay : NoReplay s act
  readable : BranchesReadable g s act

/-- Runs without replays and without reclaims of a failed execution. -/
def noReclaims : Leeway := ⟨True, False, False⟩

theorem reachable_noReclaims (h : Reachable g payload (Recoverable g) s) :
    Reachable g payload noReclaims.Allows s :=
  h.mono fun _ _ ok => ⟨Or.inl trivial, Or.inr ok.replay, Or.inr ok.reclaim⟩

/-- The walker behind a pass has every ready node in its queue. -/
structure SoundPass (g : WorkflowGraph) (payload : Value) (l : Loaded) (p : Pass) : Prop where
  loaded : Readable g l.resumeFrom
  readable : Readable g p.completed
  standing : Standing g payload p.completed (.yielded p.step p.node p.walker)

def SoundPhase (g : WorkflowGraph) (payload : Value) : Phase → Prop
  | .stateRead resumeFrom => Readable g resumeFrom
  | .loaded l => Readable g l.resumeFrom
  | .checking l p => SoundPass g payload l p
  | .invoking l p => SoundPass g payload l p
  | .recording l p _ _ => SoundPass g payload l p
  | .failing l p _ _ => SoundPass g payload l p
  | .pausing l p => SoundPass g payload l p
  | _ => True

omit [Columns] in
theorem enter_sound (hl : Readable g l.resumeFrom) (hr : Readable g c) {progress : Progress}
    (hst : Standing g payload c progress) :
    SoundPhase g payload (enter l vars (.ok progress)) := by
  cases hst with
  | done _ => trivial
  | waiting mem queue full clean => exact ⟨hl, hr, .waiting mem queue full clean⟩

omit [Columns] in
theorem startPass_sound (hw : WellFormed g) (hl : Readable g l.resumeFrom) :
    SoundPhase g payload (startPass g payload l) := by
  obtain ⟨progress, hwalk, hst⟩ := walk_standing hw payload hl
  rw [startPass, hwalk]
  exact enter_sound hl hl hst

omit [Columns] in
theorem SoundPass.next (hw : WellFormed g) (h : SoundPass g payload l p) (output vars' : Value) :
    SoundPhase g payload (enter l vars' (resume g payload p.node p.walker (.output output))) := by
  by_cases hm : Matches g p.node output
  · obtain ⟨progress, hres, hst, _⟩ := resume_standing hw h.readable h.standing hm
    have hfound := findNode_of_mem hw.ids (standing_node h.standing).1
    rw [hres]
    exact enter_sound h.loaded (h.readable.set hfound hm) hst
  · obtain ⟨error, herr⟩ := resume_unmatched payload hm
    rw [herr]
    trivial

omit [Columns] in
theorem Quiet.sound {act : Act} {ph : Phase} (hw : WellFormed g)
    (h : Quiet g payload s a act (s.phase a) ph) (hs : SoundPhase g payload (s.phase a))
    (hr : Readable g s.record.getResumeState) : SoundPhase g payload ph := by
  generalize s.phase a = old at h hs
  cases h with
  | stop _ => trivial
  | finish => trivial
  | readState => exact hr
  | readVariables _ => exact hs
  | begin _ => exact startPass_sound hw hs
  | checkLease _ => exact hs
  | invoke l p outcome =>
    cases outcome with
    | output value =>
      simp only [afterInvoke]
      split <;> exact hs
    | leaseLost => trivial
    | _ => exact hs
  | notWritten _ _ => exact hs
  | decided l p => exact startPass_sound hw (SoundPass.loaded hs)

/-- What has been committed can be read, and every walk stands where it should. -/
structure SoundRun (g : WorkflowGraph) (payload : Value) (s : System) : Prop where
  state : Readable g s.record.getResumeState
  phases : ∀ a, SoundPhase g payload (s.phase a)

omit [Columns] in
theorem SoundRun.moved (h : SoundRun g payload s) {a : String}
    (hstate : Readable g s'.record.getResumeState) (hother : ∀ b, b ≠ a → s'.phase b = s.phase b)
    (hself : SoundPhase g payload (s'.phase a)) : SoundRun g payload s' := by
  refine ⟨hstate, fun b => ?_⟩
  by_cases hb : b = a
  · rw [hb]
    exact hself
  · rw [hother b hb]
    exact h.phases b

omit [Columns] in
theorem getResumeState_congr (h : record.checkpoints = r.checkpoints) :
    record.getResumeState = r.getResumeState := by
  simp only [getResumeState, getLatestCheckpoint, h]

theorem reachable_sound (hw : WellFormed g) (h : Reachable g payload (Recoverable g) s) :
    SoundRun g payload s := by
  induction h with
  | start => exact ⟨readable_empty, fun _ => trivial⟩
  | @step s s' act before ok taken ih =>
    obtain ⟨c, vars, ended, tracks⟩ := reachable_tracks (reachable_noReclaims before)
    have hc : s.record.getResumeState = c := tracks.log.resume.1
    cases step_effect taken with
    | clock _ => exact ⟨ih.state, ih.phases⟩
    | row _ => exact ⟨ih.state, ih.phases⟩
    | @claim a _ _ _ _ =>
      exact ih.moved (a := a) ih.state (fun b hb => withPhase_of_ne _ hb _)
        (by rw [withPhase_self]; trivial)
    | @quiet _ a _ move =>
      refine ih.moved (a := a) ih.state (fun b hb => withPhase_of_ne _ hb _) ?_
      rw [withPhase_self]
      exact move.sound hw (ih.phases a) ih.state
    | @finished _ a record _ _ hcps _ =>
      refine ih.moved (a := a) ?_ (fun b hb => withPhase_of_ne _ hb _)
        (by rw [withPhase_self]; trivial)
      rw [withPhase_record, withRecord_record, getResumeState_congr hcps]
      exact ih.state
    | @marker a l record loaded written =>
      obtain ⟨_, _, _, rfl⟩ := recordResumeEvent_written written
      refine ih.moved (a := a) ih.state (fun b hb => withPhase_of_ne _ hb _) ?_
      have hl := ih.phases a
      rw [loaded] at hl
      rw [withPhase_self]
      exact startPass_sound hw hl
    | @success a l p output vars' record recording written =>
      have howner : Owner s a := Execution.isLeaseValid_leasedBy (recordStep_lease written)
      have hcur := current_of_written written rfl rfl (recording ▸ tracks.sync a howner)
      have hpass := ih.phases a
      rw [recording] at hpass
      refine ih.moved (a := a) ?_ (fun b hb => withPhase_of_ne _ hb _) ?_
      · rw [withPhase_record, withRecord_record,
          (success_log (hcur.same.symm ▸ tracks.log) hcur.yields written).resume.1,
          stored_set hcur.yields.fresh, hcur.same]
        exact (hc ▸ ih.state).set_of_prop hcur.yields.found
          (ok.readable l p output vars' recording)
      · rw [withPhase_self]
        exact SoundPass.next hw hpass output vars'
    | @failure a l p message entered record failing written =>
      have howner : Owner s a := Execution.isLeaseValid_leasedBy (recordStep_lease written)
      have hcur := current_of_written written rfl rfl (failing ▸ tracks.sync a howner)
      refine ih.moved (a := a) ?_ (fun b hb => withPhase_of_ne _ hb _)
        (by rw [withPhase_self]; trivial)
      rw [withPhase_record, withRecord_record, (failure_log (hcur.same.symm ▸ tracks.log)
        hcur.yields (fun _ => trivial) written).resume.1]
      cases entered with
      | none =>
        rw [afterFailure, hcur.same]
        exact hc ▸ ih.state
      | some pair =>
        rw [afterFailure, stored_set hcur.yields.fresh, hcur.same]
        exact (hc ▸ ih.state).set_of_prop hcur.yields.found
          (ok.readable l p message pair failing)

/-- The graph and the payload come out of `jsonb` columns themselves. -/
structure FromColumns (g : WorkflowGraph) (payload : Value) : Prop where
  ids : ∀ node ∈ g.nodes, isText node.id = true
  conditions : ∀ edge ∈ g.edges, ∀ condition, edge.condition = some condition →
    isText condition = true
  payload : takes payload = true

/-- The output is one the interpreter can go on with: a branch node's output selects an edge,
and the variables can be read off the output of a node that sets them. And it is one that the
columns take, with the variables and the token counts. -/
structure Succeeds (g : WorkflowGraph) (p : Pass) (output : Value) : Prop where
  branch : Matches g p.node output
  adopted : ∃ vars, adoptVars p.node output p.vars = some vars ∧
    (takesVariables p.vars = true → takesVariables vars = true)
  takes : takes output = true
  counts : ∀ usage, extractTokenUsage output = some usage →
    takesInteger usage.1 = true ∧ takesInteger usage.2 = true

theorem Storable.lookup (h : Storable c vars) (id : String) : takes (lookup c id) = true := by
  unfold Walker.lookup
  cases hget : c.get? id with
  | none => exact takes_undefined
  | some output => exact (h.context _ (get?_iff_mem.mp hget)).2

theorem Storable.input (h : Storable c vars) (columns : FromColumns g payload)
    (node : WorkflowNode) : takes (inputOf g payload c node) = true := by
  unfold inputOf
  split_ifs
  · exact columns.payload
  · refine takes_array fun v hv => ?_
    obtain ⟨edge, _, rfl⟩ := List.mem_map.mp hv
    exact h.lookup edge.source
  · cases (g.incomingEdges node.id).head? with
    | none => exact takes_undefined
    | some edge => exact h.lookup edge.source

/-- The rows of a step that succeeded are taken with its output and the variables after it. -/
theorem Storable.accepted (h : Storable c vars) (columns : FromColumns g payload)
    {step : StepToExecute} {node : WorkflowNode} {w : WalkState} {output vars' : Value}
    (hst : Standing g payload c (.yielded step node w)) (htakes : takes output = true)
    (counts : ∀ usage, extractTokenUsage output = some usage →
      takesInteger usage.1 = true ∧ takesInteger usage.2 = true)
    (hvars : takesVariables vars' = true) (executionId : String) :
    (successInput executionId ⟨step, node, w, vars⟩ output vars').accepted = true := by
  obtain ⟨hmem, hfresh⟩ := standing_node hst
  have hset := h.set hfresh (columns.ids node hmem) htakes hvars
  have husage : ((extractTokenUsage output).all fun usage =>
      takesInteger usage.1 && takesInteger usage.2) = true := by
    cases hu : extractTokenUsage output with
    | none => rfl
    | some usage => simpa using counts usage hu
  cases hst with
  | waiting =>
    simp only [RecordStepInput.accepted, StepRow.accepted, CheckpointRow.accepted, stepRow,
      checkpointRow, successInput, stepAt, Pass.completed, Option.all_none, Bool.and_true,
      columns.ids node hmem, h.input columns node, htakes, husage, takes_object hset.context, hvars]

/-- Handlers that succeed wherever a walk comes bring it to its end. -/
theorem finishes_succeeded (hw : WellFormed g) (columns : FromColumns g payload)
    {answer : Pass → StepResult} {base : CompletedMap}
    (hans : ∀ p : Pass, p.node ∈ g.nodes → Extends base p.completed →
      p.step = stepAt g payload p.completed p.node →
      ∃ output, answer p = .output output ∧ Succeeds g p output)
    (executionId : String) (vars : Value) {progress : Progress} (hext : Extends base c)
    (hr : Readable g c) (hold : Storable c vars) (hst : Standing g payload c progress) :
    ∃ final, Finishes g payload answer executionId c vars (.ok progress) final ∧
      final.status = .succeeded := by
  induction hn : remaining g c using Nat.strong_induction_on generalizing c vars progress with
  | _ n ih =>
    cases progress with
    | returned result =>
      cases hst
      exact ⟨_, .completed, rfl⟩
    | yielded step' node w =>
      obtain ⟨hmem, hfresh⟩ := standing_node hst
      obtain ⟨hstep, hw'⟩ := standing_pass hst
      obtain ⟨output, hout, hsucc⟩ := hans ⟨step', node, w, vars⟩ hmem
        (by rwa [Pass.completed, hw']) (by rwa [Pass.completed, hw'])
      obtain ⟨vars', hvars, htakes⟩ := hsucc.adopted
      have haccepted := hold.accepted columns hst hsucc.takes hsucc.counts (htakes hold.vars)
        executionId
      obtain ⟨progress', hres, hst', _⟩ := resume_standing hw hr hst hsucc.branch
      have hlt := remaining_set (List.mem_map_of_mem hmem) hfresh output
      obtain ⟨final, hf, hs⟩ := ih _ (hn ▸ hlt) vars' (hext.trans (extends_set hfresh output))
        (hr.set (findNode_of_mem hw.ids hmem) hsucc.branch)
        (hold.set hfresh (columns.ids node hmem) hsucc.takes (htakes hold.vars)) hst' rfl
      exact ⟨final, .committed hout hvars haccepted (by rw [hres]; exact hf), hs⟩

/-- While the owner of the lease is at work, no failed step is on record and its pass goes on
from the latest checkpoint. -/
theorem Tracks.not_ended {leeway : Leeway} {tracked : String → Prop}
    (h : Tracks g payload leeway tracked s c vars ended) (hr : ¬ leeway.reclaims)
    (ht : tracked a) (hwork : (s.phase a).working) : ended = false := by
  refine Bool.eq_false_iff.mpr fun he => ?_
  exact (h.halted he).resolve_left hr a ht hwork

end Runs

open scoped Unchanged

end Linea.Worker
