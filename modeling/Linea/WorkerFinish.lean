import Linea.WalkerRun
import Linea.WorkerRuns

/-! One attempt left to itself: its handlers answer, its database calls go through and its lease
holds. How it ends is determined by the completed map, the variables and the point at which its
walk stands; `Finishes` says how, and the attempt carries it out step by step. -/
namespace Linea.Worker
open Walker OrderedMap ExecutionRecord RecordStepInput WorkflowGraph Validate Columns

variable {g : WorkflowGraph} {payload : Value} {c : CompletedMap} {vars : Value}
  {refusals : Prop} {r : ExecutionRecord} {s s' : System} {a : String} {l : Loaded} {p : Pass}

/-- The node at which a walker stands. -/
theorem standing_node {step : StepToExecute} {node : WorkflowNode} {w : WalkState}
    (h : Standing g payload c (.yielded step node w)) : node ∈ g.nodes ∧ node.id ∉ c.keys := by
  cases h with
  | waiting mem queue _ _ => exact ⟨mem, queue.fresh _ (by simp)⟩

theorem standing_ready {step : StepToExecute} {node : WorkflowNode} {w : WalkState}
    (h : Standing g payload c (.yielded step node w)) : ReadyIn g c node.id := by
  cases h with
  | waiting _ queue _ _ => exact queue.ready _ (by simp)

theorem standing_yields (hw : WellFormed g) {step : StepToExecute} {node : WorkflowNode}
    {w : WalkState} (h : Standing g payload c (.yielded step node w)) : Yields g c step node w := by
  cases h with
  | waiting mem queue _ _ =>
    exact ⟨rfl, rfl, findNode_of_mem hw.ids mem, queue.fresh _ (by simp)⟩

/-- The locals of a generator at a step. -/
theorem standing_pass {step : StepToExecute} {node : WorkflowNode} {w : WalkState}
    (h : Standing g payload c (.yielded step node w)) :
    step = stepAt g payload c node ∧ w.completed = c := by
  cases h with
  | waiting => exact ⟨rfl, rfl⟩

/-- An output that selects no edge makes the walker throw. -/
theorem resume_unmatched (payload : Value) {node : WorkflowNode} {output : Value}
    (hm : ¬ Matches g node output) :
    ∃ error, ∀ w, resume g payload node w (.output output) = .error error := by
  rcases nextNodeIds_unmatched hm with ⟨_, h⟩ | ⟨_, _, h⟩ <;>
    exact ⟨_, fun w => by rw [resume, h]; rfl⟩

/-- Neither the key nor the sequence number of the rows is taken. -/
def Insertable (r : ExecutionRecord) (input : RecordStepInput) : Prop :=
  idempotencyKey input.executionId input.step.nodeId ∉ r.steps.keys ∧
    input.sequence ∉ r.checkpoints.sequences

def outcomeOf : StepResult → HandlerOutcome
  | .output value => .output value
  | .error message => .error message

/-- The next step of an attempt left to itself. -/
def nextAct (answer : Pass → StepResult) (a : String) : Phase → Option Act
  | .idle => none
  | .claimed => some (.readState a)
  | .stateRead _ => some (.readVariables a)
  | .loaded _ => some (.begin a)
  | .checking _ _ => some (.checkLease a)
  | .invoking _ p => some (.invoke a (outcomeOf (answer p)))
  | .recording _ _ _ _ => some (.writeStep a none)
  | .failing _ _ _ _ => some (.writeFailure a none)
  | .pausing _ _ => some (.pause a .pending)
  | .completing _ => some (.complete a false)
  | .aborting => some (.abort a "aborted")
  | .done => none

/-- How an execution ends: its status, and the completed map and the variables that the latest
checkpoint gives back. -/
structure Final where
  status : ExecutionStatus
  completed : CompletedMap
  vars : Value

variable [Columns]

/-- With no failed step on record the keys of uncompleted nodes are free, and so are the numbers
after that of the latest checkpoint. -/
theorem Logged.insertable (h : Logged refusals r c vars false) {input : RecordStepInput}
    (own : input.executionId = r.execution.id) (fresh : input.step.nodeId ∉ c.keys)
    (hseq : c.size < input.sequence) : Insertable r input := by
  refine ⟨fun hk => ?_, fun hmem => ?_⟩
  · obtain ⟨n, hn, hc⟩ := h.key_taken hk
    rw [own] at hn
    rw [idempotencyKey_inj hn] at fresh
    exact fresh (hc.resolve_right (by simp))
  · obtain ⟨row, hrow, heq⟩ := List.mem_map.mp hmem
    have hle := h.top.bound row hrow
    simp only [topSequence, Bool.false_eq_true, if_false] at hle
    omega

theorem Yields.success_insertable (h : Yields g p.completed p.step p.node p.walker)
    (log : Logged refusals r (stored p.completed) vars false) (output vars' : Value) :
    Insertable r (successInput r.execution.id p output vars') := by
  have hfresh : p.step.nodeId ∉ p.completed.keys := h.nodeId ▸ h.fresh
  refine log.insertable rfl (by rwa [keys_stored]) ?_
  rw [sequence_succeeded rfl]
  simp only [successInput, size_stored, size_set_of_notMem hfresh]
  omega

theorem Yields.failure_insertable (h : Yields g p.completed p.step p.node p.walker)
    (log : Logged refusals r (stored p.completed) vars false) (message : String)
    (entered : Option (Value × Value)) :
    Insertable r (failureInput r.execution.id p message entered) := by
  have hfresh : p.step.nodeId ∉ p.completed.keys := h.nodeId ▸ h.fresh
  refine log.insertable rfl (by rwa [keys_stored]) ?_
  rw [sequence_failed rfl]
  cases entered with
  | none =>
    simp only [failureInput, size_stored]
    omega
  | some pair =>
    simp only [failureInput, size_stored, size_set_of_notMem hfresh]
    omega

/-- At most `n` steps of one attempt, while the clock stands still. -/
def attempt (g : WorkflowGraph) (payload : Value) (answer : Pass → StepResult) (a : String) :
    ℕ → System → System
  | 0, s => s
  | n + 1, s =>
    match nextAct answer a (s.phase a) with
    | none => s
    | some act => attempt g payload answer a n ((step g payload s act).getD s)

/-- How an attempt ends whose step fails. The failure is written only if the columns take its rows,
which hold the output as well if the step had been entered in the completed map. -/
def leftBehind (executionId : String) (p : Pass) (message : String)
    (entered : Option (Value × Value)) : Final :=
  let input := failureInput executionId p message entered
  if input.accepted then ⟨.failed, stored (afterFailure p entered), readsVariables input.vars⟩
  else ⟨.failed, stored p.completed, readsVariables p.vars⟩

/-- A handler's error changes nothing that the next attempt resumes with. -/
theorem leftBehind_none (executionId : String) (p : Pass) (message : String) :
    leftBehind executionId p message none =
      ⟨.failed, stored p.completed, readsVariables p.vars⟩ := by
  simp only [leftBehind]
  split_ifs <;> rfl

theorem leftBehind_keys (executionId : String) (p : Pass) (message : String)
    (entered : Option (Value × Value)) {id : String} (hid : id ∈ p.completed.keys) :
    id ∈ (leftBehind executionId p message entered).completed.keys := by
  simp only [leftBehind]
  split_ifs
  · cases entered with
    | none => simpa [afterFailure] using hid
    | some pair => simpa [afterFailure] using Or.inr hid
  · simpa using hid

/-- How an attempt ends that holds `c` and `vars` and whose walk stands at the given point. -/
inductive Finishes (g : WorkflowGraph) (payload : Value) (answer : Pass → StepResult)
    (executionId : String) : CompletedMap → Value → Except WalkError Progress → Final → Prop
  | threw {c : CompletedMap} {vars : Value} {e : WalkError} :
      Finishes g payload answer executionId c vars (.error e)
        ⟨.failed, stored c, readsVariables vars⟩
  | completed {c : CompletedMap} {vars : Value} :
      Finishes g payload answer executionId c vars (.ok (.returned .completed))
        ⟨.succeeded, stored c, readsVariables vars⟩
  | failed {c : CompletedMap} {vars : Value} {step : StepToExecute} {node : WorkflowNode}
      {w : WalkState} {message : String} (answered : answer ⟨step, node, w, vars⟩ = .error message) :
      Finishes g payload answer executionId c vars (.ok (.yielded step node w))
        (leftBehind executionId ⟨step, node, w, vars⟩ message none)
  | broken {c : CompletedMap} {vars : Value} {step : StepToExecute} {node : WorkflowNode}
      {w : WalkState} {output : Value} (answered : answer ⟨step, node, w, vars⟩ = .output output)
      (unreadable : adoptVars node output vars = none) :
      Finishes g payload answer executionId c vars (.ok (.yielded step node w))
        (leftBehind executionId ⟨step, node, w, vars⟩
          "Cannot read properties of null (reading 'variables')" (some (output, vars)))
  | refused {c : CompletedMap} {vars vars' : Value} {step : StepToExecute} {node : WorkflowNode}
      {w : WalkState} {output : Value} (answered : answer ⟨step, node, w, vars⟩ = .output output)
      (adopted : adoptVars node output vars = some vars')
      (refused : (successInput executionId ⟨step, node, w, vars⟩ output vars').accepted = false) :
      Finishes g payload answer executionId c vars (.ok (.yielded step node w))
        (leftBehind executionId ⟨step, node, w, vars⟩ refusal (some (output, vars')))
  | committed {c : CompletedMap} {vars vars' : Value} {step : StepToExecute} {node : WorkflowNode}
      {w : WalkState} {output : Value} {final : Final}
      (answered : answer ⟨step, node, w, vars⟩ = .output output)
      (adopted : adoptVars node output vars = some vars')
      (accepted : (successInput executionId ⟨step, node, w, vars⟩ output vars').accepted = true)
      (rest : Finishes g payload answer executionId (c.set node.id output) vars'
        (resume g payload node w (.output output)) final) :
      Finishes g payload answer executionId c vars (.ok (.yielded step node w)) final

/-- The attempt comes to its end and leaves this behind. -/
def Ends (g : WorkflowGraph) (payload : Value) (answer : Pass → StepResult) (a : String)
    (s : System) (final : Final) : Prop :=
  ∃ n, (attempt g payload answer a n s).phase a = .done ∧
    (attempt g payload answer a n s).record.execution.status = final.status ∧
    (attempt g payload answer a n s).record.getResumeState = final.completed ∧
    (attempt g payload answer a n s).record.getResumeVariables = final.vars

section Attempt
variable {answer : Pass → StepResult} {final : Final}

theorem attempt_succ {act : Act} (n : ℕ) (hact : nextAct answer a (s.phase a) = some act)
    (hstep : step g payload s act = some s') :
    attempt g payload answer a (n + 1) s = attempt g payload answer a n s' := by
  rw [attempt, hact]
  simp only [hstep, Option.getD_some]

theorem attempt_done (h : s.phase a = .done) (n : ℕ) : attempt g payload answer a n s = s := by
  cases n with
  | zero => rfl
  | succ n =>
    rw [attempt, h]
    rfl

theorem attempt_add (n m : ℕ) (s : System) : attempt g payload answer a (n + m) s =
    attempt g payload answer a m (attempt g payload answer a n s) := by
  induction n generalizing s with
  | zero => rw [Nat.zero_add, attempt]
  | succ n ih =>
    rw [Nat.succ_add, attempt, attempt]
    cases hact : nextAct answer a (s.phase a) with
    | none =>
      cases m with
      | zero => rfl
      | succ m =>
        rw [attempt, hact]
    | some act => exact ih _

theorem Ends.unique {final' : Final} (h : Ends g payload answer a s final)
    (h' : Ends g payload answer a s final') : final = final' := by
  obtain ⟨n, hn, hs, hc, hv⟩ := h
  obtain ⟨m, hm, hs', hc', hv'⟩ := h'
  have hsame : attempt g payload answer a n s = attempt g payload answer a m s := by
    rcases Nat.le_total n m with hle | hle
    · obtain ⟨k, rfl⟩ := Nat.exists_eq_add_of_le hle
      rw [attempt_add, attempt_done hn]
    · obtain ⟨k, rfl⟩ := Nat.exists_eq_add_of_le hle
      rw [attempt_add, attempt_done hm]
  obtain ⟨status, completed, vars⟩ := final
  obtain ⟨status', completed', vars'⟩ := final'
  rw [hsame] at hs hc hv
  exact congr (congrArg₂ Final.mk (hs.symm.trans hs') (hc.symm.trans hc')) (hv.symm.trans hv')

theorem Ends.step {act : Act} (hact : nextAct answer a (s.phase a) = some act)
    (hstep : step g payload s act = some s') (h : Ends g payload answer a s' final) :
    Ends g payload answer a s final := by
  obtain ⟨n, hn⟩ := h
  exact ⟨n + 1, by rw [attempt_succ n hact hstep]; exact hn⟩

/-- The attempt holds a valid lease on a running execution, nothing is recorded as failed, and
its walk stands at `progress`. -/
structure Ahead (g : WorkflowGraph) (a : String) (s : System) (c : CompletedMap) (vars : Value)
    (progress : Except WalkError Progress) : Prop where
  log : Logged True s.record (stored c) (readsVariables vars) false
  lease : s.record.execution.isLeaseValid s.clock a = true
  status : s.record.execution.status = .running
  yields : ∀ step node w, progress = .ok (.yielded step node w) → Yields g c step node w
  phase : ∃ l, s.phase a = enter l vars progress

/-- The last step of an attempt: the status is set and the tables stay. -/
theorem ends_of_complete {act : Act} {input : CompleteExecutionInput} {ended : Bool}
    (hact : nextAct answer a (s.phase a) = some act)
    (hstep : step g payload s act = some ((tryComplete s a input).withPhase a .done))
    (log : Logged True s.record c vars ended)
    (lease : s.record.execution.isLeaseValid s.clock a = true)
    (status : s.record.execution.status = .running) :
    Ends g payload answer a s ⟨input.status, c, vars⟩ := by
  obtain ⟨record, hrec, hc⟩ := tryComplete_spec s a input
  refine Ends.step hact hstep ⟨0, withPhase_self _ _ _, ?_, ?_⟩
  · rw [attempt, withPhase_record, hrec, withRecord_record, hc.status,
      if_pos ⟨lease, by rw [status]; decide⟩]
  · rw [attempt, withPhase_record, hrec, withRecord_record]
    exact (log.congr hc.id hc.steps hc.checkpoints).resume

/-- From a failed step to the end. -/
theorem ends_of_failing {message : String} {entered : Option (Value × Value)}
    (hph : s.phase a = .failing l p message entered)
    (log : Logged True s.record (stored p.completed) (readsVariables p.vars) false)
    (lease : s.record.execution.isLeaseValid s.clock a = true)
    (status : s.record.execution.status = .running)
    (yields : Yields g p.completed p.step p.node p.walker) :
    Ends g payload answer a s (leftBehind s.record.execution.id p message entered) := by
  cases haccepted : (failureInput s.record.execution.id p message entered).accepted with
  | false =>
    -- the attempt throws, and what was committed before stays
    simp only [leftBehind, haccepted, Bool.false_eq_true, if_false]
    let s₁ := s.withPhase a .aborting
    have hrefused := recordStep_eq_refused lease haccepted
    have hstep : step g payload s (.writeFailure a none) = some s₁ := by
      simp only [step, hph, hrefused, s₁]
    have habort : s₁.phase a = .aborting := withPhase_self _ _ _
    have hlog : Logged True s₁.record (stored p.completed) (readsVariables p.vars) false := log
    exact Ends.step (by rw [hph]; rfl) hstep (ends_of_complete (by rw [habort]; rfl)
      (by simp only [step, habort]; rfl) hlog lease status)
  | true =>
    simp only [leftBehind, haccepted, if_true]
    have hins := yields.failure_insertable log message entered
    obtain ⟨record, hwritten⟩ := recordStep_eq_written rfl lease haccepted hins.1 hins.2
    obtain ⟨hexec, _⟩ := recordStep_written hwritten
    let s₁ := (s.withRecord record).withPhase a (.completing (.failed p.node.id message))
    have hstep : step g payload s (.writeFailure a none) = some s₁ := by
      simp only [step, hph, hwritten, s₁]
      rfl
    have hdone : s₁.phase a = .completing (.failed p.node.id message) := withPhase_self _ _ _
    refine Ends.step (by rw [hph]; rfl) hstep (ends_of_complete (by rw [hdone]; rfl)
      (by simp only [step, hdone, Bool.false_eq_true, if_false]; rfl)
      (failure_log log yields (fun _ => trivial) hwritten) ?_ ?_)
    · show record.execution.isLeaseValid s.clock a = true
      rw [hexec]
      exact lease
    · show record.execution.status = .running
      rw [hexec]
      exact status

/-- From a lease check to the answer of the handler. -/
theorem ends_of_answer (hph : s.phase a = .checking l p)
    (lease : s.record.execution.isLeaseValid s.clock a = true)
    (h : Ends g payload answer a (s.withPhase a (afterInvoke l p (outcomeOf (answer p)))) final) :
    Ends g payload answer a s final := by
  let s₁ := s.withPhase a (.invoking l p)
  have hinv : s₁.phase a = .invoking l p := withPhase_self _ _ _
  have hstep₁ : step g payload s (.checkLease a) = some s₁ := by
    simp only [step, hph, lease, if_true, s₁]
  have hstep₂ : step g payload s₁ (.invoke a (outcomeOf (answer p))) =
      some (s.withPhase a (afterInvoke l p (outcomeOf (answer p)))) := by
    simp only [step, hinv, s₁, withPhase_withPhase]
  exact Ends.step (by rw [hph]; rfl) hstep₁ (Ends.step (by rw [hinv]; rfl) hstep₂ h)

/-- The attempt carries out what `Finishes` says. -/
theorem Finishes.ends {progress : Except WalkError Progress} {executionId : String}
    (h : Finishes g payload answer executionId c vars progress final)
    (own : s.record.execution.id = executionId) (ahead : Ahead g a s c vars progress) :
    Ends g payload answer a s final := by
  induction h generalizing s with
  | threw =>
    obtain ⟨l, hph⟩ := ahead.phase
    have hph : s.phase a = .aborting := hph
    exact ends_of_complete (by rw [hph]; rfl) (by simp only [step, hph]; rfl)
      ahead.log ahead.lease ahead.status
  | completed =>
    obtain ⟨l, hph⟩ := ahead.phase
    have hph : s.phase a = .completing .completed := hph
    exact ends_of_complete (by rw [hph]; rfl)
      (by simp only [step, hph, Bool.false_eq_true, if_false]; rfl)
      ahead.log ahead.lease ahead.status
  | @failed c vars step' node w message answered =>
    obtain ⟨l, hph⟩ := ahead.phase
    obtain rfl : w.completed = c := (ahead.yields _ _ _ rfl).completed
    refine ends_of_answer hph ahead.lease ?_
    rw [answered, ← own]
    exact ends_of_failing (p := ⟨step', node, w, vars⟩) (withPhase_self _ _ _) ahead.log ahead.lease
      ahead.status (ahead.yields _ _ _ rfl)
  | @broken c vars step' node w output answered unreadable =>
    obtain ⟨l, hph⟩ := ahead.phase
    obtain rfl : w.completed = c := (ahead.yields _ _ _ rfl).completed
    refine ends_of_answer hph ahead.lease ?_
    have hnext : afterInvoke l ⟨step', node, w, vars⟩ (outcomeOf (answer ⟨step', node, w, vars⟩)) =
        .failing l ⟨step', node, w, vars⟩ "Cannot read properties of null (reading 'variables')"
          (some (output, vars)) := by
      rw [answered]
      simp only [outcomeOf, afterInvoke, unreadable]
    rw [hnext, ← own]
    exact ends_of_failing (p := ⟨step', node, w, vars⟩) (withPhase_self _ _ _) ahead.log ahead.lease
      ahead.status (ahead.yields _ _ _ rfl)
  | @refused c vars vars' step' node w output answered adopted refused =>
    obtain ⟨l, hph⟩ := ahead.phase
    obtain rfl : w.completed = c := (ahead.yields _ _ _ rfl).completed
    let p : Pass := ⟨step', node, w, vars⟩
    refine ends_of_answer hph ahead.lease ?_
    have hnext : afterInvoke l p (outcomeOf (answer p)) = .recording l p output vars' := by
      rw [answered]
      simp only [outcomeOf, afterInvoke, p, adopted]
    let s₂ := s.withPhase a (.recording l p output vars')
    let s₃ := s₂.withPhase a (.failing l p refusal (some (output, vars')))
    have hrec : s₂.phase a = .recording l p output vars' := withPhase_self _ _ _
    have hstep₃ : step g payload s₂ (.writeStep a none) = some s₃ := by
      have : recordStep s₂.clock s₂.record a
          (successInput s₂.record.execution.id p output vars') = .refused :=
        recordStep_eq_refused ahead.lease (own ▸ refused)
      simp only [step, hrec, this, s₃]
    rw [hnext, ← own]
    exact Ends.step (by rw [hrec]; rfl) hstep₃ (ends_of_failing (p := p) (withPhase_self _ _ _)
      ahead.log ahead.lease ahead.status (ahead.yields _ _ _ rfl))
  | @committed c vars vars' step' node w output final answered adopted accepted _ ih =>
    obtain ⟨l, hph⟩ := ahead.phase
    obtain rfl : w.completed = c := (ahead.yields _ _ _ rfl).completed
    let p : Pass := ⟨step', node, w, vars⟩
    have hy : Yields g p.completed p.step p.node p.walker := ahead.yields _ _ _ rfl
    have hins := hy.success_insertable ahead.log output vars'
    obtain ⟨record, hwritten⟩ := recordStep_eq_written rfl ahead.lease (own ▸ accepted)
      hins.1 hins.2
    obtain ⟨hexec, _⟩ := recordStep_written hwritten
    refine ends_of_answer hph ahead.lease ?_
    have hnext : afterInvoke l p (outcomeOf (answer p)) = .recording l p output vars' := by
      rw [answered]
      simp only [outcomeOf, afterInvoke, p, adopted]
    let s₂ := s.withPhase a (.recording l p output vars')
    let s₃ := (s₂.withRecord record).withPhase a
      (enter l vars' (resume g payload node w (.output output)))
    have hrec : s₂.phase a = .recording l p output vars' := withPhase_self _ _ _
    have hstep₃ : step g payload s₂ (.writeStep a none) = some s₃ := by
      have : recordStep s₂.clock s₂.record a
          (successInput s₂.record.execution.id p output vars') = .written record := hwritten
      simp only [step, hrec, this, s₃, p]
    rw [hnext]
    refine Ends.step (by rw [hrec]; rfl) hstep₃ (ih ((congrArg Execution.id hexec).trans own)
      ⟨success_log ahead.log hy hwritten, ?_, ?_, fun _ _ _ => resume_yields, l,
        withPhase_self _ _ _⟩)
    · show record.execution.isLeaseValid s.clock a = true
      rw [hexec]
      exact ahead.lease
    · show record.execution.status = .running
      rw [hexec]
      exact ahead.status

/-- From the claim to the first step of the walk. -/
theorem ends_of_claimed (hph : s.phase a = .claimed) (log : Logged True s.record c vars false)
    (lease : s.record.execution.isLeaseValid s.clock a = true)
    (status : s.record.execution.status = .running)
    (h : Finishes g payload answer s.record.execution.id c vars (walk g c payload) final) :
    Ends g payload answer a s final := by
  obtain ⟨hstate, hvars⟩ := log.resume
  obtain ⟨hfixed, hfixedVars⟩ := log.fixed
  let l : Loaded := ⟨c, vars⟩
  let s₁ := s.withPhase a (.stateRead c)
  let s₂ := s₁.withPhase a (.loaded l)
  have hph₁ : s₁.phase a = .stateRead c := withPhase_self _ _ _
  have hph₂ : s₂.phase a = .loaded l := withPhase_self _ _ _
  have hstep₁ : step g payload s (.readState a) = some s₁ := by
    simp only [step, hph, hstate, s₁]
  have hstep₂ : step g payload s₁ (.readVariables a) = some s₂ := by
    have hv : s₁.record.getResumeVariables = vars := hvars
    simp only [step, hph₁, hv, s₂, l]
  obtain ⟨record, hbegin, hlog, hexec⟩ : ∃ record,
      step g payload s₂ (.begin a) =
        some ((s₂.withRecord record).withPhase a (startPass g payload l)) ∧
      Logged True record c vars false ∧ record.execution = s.record.execution := by
    by_cases hsize : 0 < c.size
    · obtain ⟨record, hwritten⟩ := recordResumeEvent_eq_written lease
      obtain ⟨hlog, _, hexec⟩ := log.write_marker hwritten
      refine ⟨record, ?_, hlog, hexec⟩
      have : s₂.record.recordResumeEvent s₂.clock a = .written record := hwritten
      simp only [step, hph₂, l, hsize, if_true, this]
    · refine ⟨s.record, ?_, log, rfl⟩
      simp only [step, hph₂, l, hsize, if_false]
      rfl
  refine Ends.step (by rw [hph]; rfl) hstep₁ (Ends.step (by rw [hph₁]; rfl) hstep₂
    (Ends.step (by rw [hph₂]; rfl) hbegin (h.ends (congrArg Execution.id hexec)
      ⟨?_, ?_, ?_, fun _ _ _ => walk_yields, l, withPhase_self _ _ _⟩)))
  · rw [hfixed, hfixedVars]
    exact hlog
  · show record.execution.isLeaseValid s.clock a = true
    rw [hexec]
    exact lease
  · show record.execution.status = .running
    rw [hexec]
    exact status

end Attempt

/-- Every walk of an accepted graph finishes, whatever the handlers answer. -/
theorem finishes_exists (hw : WellFormed g) (answer : Pass → StepResult) (executionId : String)
    (vars : Value) {progress : Progress}
    (hr : Readable g c) (hst : Standing g payload c progress) :
    ∃ final, Finishes g payload answer executionId c vars (.ok progress) final := by
  induction hn : remaining g c using Nat.strong_induction_on generalizing c vars progress with
  | _ n ih =>
    cases progress with
    | returned result =>
      cases hst
      exact ⟨_, .completed⟩
    | yielded step' node w =>
      obtain ⟨hmem, hfresh⟩ := standing_node hst
      cases hans : answer ⟨step', node, w, vars⟩ with
      | error message => exact ⟨_, .failed hans⟩
      | output output =>
        cases hvars : adoptVars node output vars with
        | none => exact ⟨_, .broken hans hvars⟩
        | some vars' =>
          cases haccepted :
              (successInput executionId ⟨step', node, w, vars⟩ output vars').accepted with
          | false => exact ⟨_, .refused hans hvars haccepted⟩
          | true =>
            by_cases hm : Matches g node output
            · obtain ⟨progress', hres, hst', _⟩ := resume_standing hw hr hst hm
              have hlt := remaining_set (List.mem_map_of_mem hmem) hfresh output
              obtain ⟨final, hf⟩ := ih _ (hn ▸ hlt) vars'
                (hr.set (findNode_of_mem hw.ids hmem) hm) hst' rfl
              exact ⟨final, .committed hans hvars haccepted (by rw [hres]; exact hf)⟩
            · obtain ⟨error, herr⟩ := resume_unmatched payload hm
              exact ⟨_, .committed hans hvars haccepted (by rw [herr]; exact .threw)⟩

end Linea.Worker
