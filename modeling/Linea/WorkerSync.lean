import Linea.ExceptLaws
import Linea.WorkerSteps

/-! An attempt that may write is in step with the tables: the latest checkpoint is what it holds in
memory as the columns give it back, and the node it is at has not been completed. The exception is a
replay.
An attempt told that its pause is decided already walks again from what it loaded at first, and
if it has committed steps since, the first node it comes to is one whose key is taken, so that
pass can never commit anything. -/
namespace Linea.Worker
open Walker OrderedMap ExecutionRecord RecordStepInput WorkflowGraph ExceptLaws Columns

variable {g : WorkflowGraph} {payload : Value} {c : CompletedMap} {vars : Value} {ended : Bool}
  {s s' : System} {act : Act}

theorem enqueue_completed {w t : WalkState} {id : String} (h : enqueue g w id = .ok t) :
    t.completed = w.completed := by
  unfold enqueue at h
  split_ifs at h
  · cases h
    rfl
  · obtain ⟨ready, _, h⟩ := bind_ok_iff.mp h
    cases ready <;> cases h <;> rfl

theorem enqueueAll_completed {w t : WalkState} {ids : List String}
    (h : enqueueAll g w ids = .ok t) : t.completed = w.completed := by
  induction ids generalizing w with
  | nil =>
    cases h
    rfl
  | cons id ids ih =>
    rw [enqueueAll, List.foldlM_cons] at h
    obtain ⟨u, hu, h⟩ := bind_ok_iff.mp h
    exact (ih h).trans (enqueue_completed hu)

/-- A yielded step is for a node that is not completed yet. -/
structure Yields (g : WorkflowGraph) (c : CompletedMap) (step : StepToExecute)
    (node : WorkflowNode) (w : WalkState) : Prop where
  completed : w.completed = c
  nodeId : step.nodeId = node.id
  found : g.findNode node.id = some node
  fresh : node.id ∉ c.keys

theorem advance_yields {ready : List String} {queued : Finset String} {step : StepToExecute}
    {node : WorkflowNode} {w : WalkState}
    (h : advance g payload c ready queued = .ok (.yielded step node w)) :
    Yields g c step node w := by
  induction ready generalizing queued with
  | nil => cases h
  | cons id ready ih =>
    rw [advance] at h
    split_ifs at h with hc
    · exact ih h
    · obtain ⟨n, hn, h⟩ := bind_ok_iff.mp h
      obtain ⟨input, _, h⟩ := bind_ok_iff.mp h
      cases h
      unfold getNode at hn
      split at hn
      · rename_i m hm
        cases hn
        obtain ⟨_, rfl⟩ := findNode_some hm
        exact ⟨rfl, rfl, hm, by simpa using hc⟩
      · cases hn

theorem walk_yields {step : StepToExecute} {node : WorkflowNode} {w : WalkState}
    (h : walk g c payload = .ok (.yielded step node w)) : Yields g c step node w := by
  obtain ⟨t, ht, h⟩ := bind_ok_iff.mp h
  have := advance_yields h
  rwa [enqueueAll_completed ht] at this

theorem resume_yields {node n : WorkflowNode} {w w' : WalkState} {output : Value}
    {step : StepToExecute}
    (h : resume g payload node w (.output output) = .ok (.yielded step n w')) :
    Yields g (w.completed.set node.id output) step n w' := by
  obtain ⟨next, _, h⟩ := bind_ok_iff.mp h
  obtain ⟨t, ht, h⟩ := bind_ok_iff.mp h
  have := advance_yields h
  rwa [enqueueAll_completed ht] at this

/-- The idempotency key of the node is in the step table. -/
def Taken (r : ExecutionRecord) (nodeId : String) : Prop :=
  idempotencyKey r.execution.id nodeId ∈ r.steps.keys

section Passes
variable (g : WorkflowGraph) (payload : Value) (taken : String → Prop)

/-- A walk from what was loaded first comes to a node whose key is taken. -/
def FirstTaken (l : Loaded) : Prop :=
  ∀ step node w, walk g l.resumeFrom payload = .ok (.yielded step node w) → taken step.nodeId

variable [Columns]

/-- The pass goes on from the latest checkpoint: it is the first step of a walk from there, or
the attempt has committed steps since it loaded. -/
structure Current (c : CompletedMap) (vars : Value) (l : Loaded) (p : Pass) : Prop where
  yields : Yields g p.completed p.step p.node p.walker
  same : stored p.completed = c
  sameVars : readsVariables p.vars = vars
  storable : Storable p.completed p.vars
  origin : l = ⟨c, vars⟩ ∧ walk g c payload = .ok (.yielded p.step p.node p.walker) ∨
    l.resumeFrom.size < c.size ∧ FirstTaken g payload taken l

/-- A replayed pass. -/
structure Replayed (l : Loaded) (p : Pass) : Prop where
  node : taken p.step.nodeId
  first : FirstTaken g payload taken l

/-- What an attempt holds agrees with the latest checkpoint; `replays` admits replayed passes. -/
def InSync (replays : Prop) (c : CompletedMap) (vars : Value) : Phase → Prop
  | .stateRead resumeFrom => resumeFrom = c
  | .loaded l => l = ⟨c, vars⟩
  | .checking l p => Current g payload taken c vars l p ∨ replays ∧ Replayed g payload taken l p
  | .invoking l p => Current g payload taken c vars l p ∨ replays ∧ Replayed g payload taken l p
  | .recording l p _ _ =>
    Current g payload taken c vars l p ∨ replays ∧ Replayed g payload taken l p
  | .failing l p _ _ =>
    Current g payload taken c vars l p ∨ replays ∧ Replayed g payload taken l p
  | .pausing l p => Current g payload taken c vars l p ∨ replays ∧ Replayed g payload taken l p
  | _ => True

end Passes

variable {taken taken' : String → Prop} {replays refusals : Prop} {l : Loaded} {p : Pass}

theorem FirstTaken.mono (h : FirstTaken g payload taken l) (hsub : ∀ n, taken n → taken' n) :
    FirstTaken g payload taken' l := fun step node w hw => hsub _ (h step node w hw)

/-- An attempt told that its pause is decided already has committed nothing since it loaded. -/
def NoReplay (s : System) : Act → Prop
  | .pause a .alreadyDecided => ∀ l p, s.phase a = .pausing l p → p.completed = l.resumeFrom
  | _ => True

/-- No attempt gets the execution while a failed step is on record. -/
def NoReclaim (s : System) : Act → Prop
  | .claim a leaseExpiresAt =>
    (s.record.execution.startExecution s.clock a leaseExpiresAt).isSome →
      ∀ row ∈ s.record.steps.rows, row.status ≠ .failed
  | _ => True

/-- What the steps of a run may do against these conditions. -/
structure Leeway where
  refusals : Prop
  replays : Prop
  reclaims : Prop

variable [Columns]

theorem Current.fresh (h : Current g payload taken c vars l p) : p.step.nodeId ∉ c.keys := by
  rw [← h.same, keys_stored, h.yields.nodeId]
  exact h.yields.fresh

/-- A first pass from the latest checkpoint. -/
theorem startPass_current {r : ExecutionRecord} (log : Logged refusals r c vars ended) :
    InSync g payload taken replays c vars (startPass g payload ⟨c, vars⟩) := by
  unfold startPass
  cases h : walk g c payload with
  | error e => trivial
  | ok progress =>
    cases progress with
    | returned result => trivial
    | yielded step node w =>
      have hy := walk_yields h
      have hold := log.storable
      refine Or.inl ⟨?_, ?_, log.fixed.2, ?_, Or.inl ⟨rfl, h⟩⟩
      · rwa [← hy.completed] at hy
      · exact (congrArg stored hy.completed).trans log.fixed.1
      · rwa [← hy.completed] at hold

theorem startPass_replayed (hr : replays) (hf : FirstTaken g payload taken l) :
    InSync g payload taken replays c vars (startPass g payload l) := by
  unfold startPass
  cases h : walk g l.resumeFrom payload with
  | error e => trivial
  | ok progress =>
    cases progress with
    | returned result => trivial
    | yielded step node w => exact Or.inr ⟨hr, hf step node w h, hf⟩

/-- Walking again from what was loaded is sound if nothing has been committed since. -/
theorem Current.unchanged (h : Current g payload taken c vars l p)
    (hsame : p.completed = l.resumeFrom) : l = ⟨c, vars⟩ := by
  rcases h.origin with ⟨hl, _⟩ | ⟨hlt, _⟩
  · exact hl
  · rw [← h.same, hsame, size_stored] at hlt
    exact absurd hlt (lt_irrefl _)

theorem Current.first (h : Current g payload taken c vars l p) (hne : l ≠ ⟨c, vars⟩) :
    FirstTaken g payload taken l := by
  rcases h.origin with ⟨hl, _⟩ | ⟨_, hf⟩
  · exact absurd hl hne
  · exact hf

/-- No failure write goes through for a step already entered in the completed map: the lease is
gone, the columns refuse the rows, or the key or the sequence number is taken. -/
def NoRefusal (s : System) : Act → Prop
  | .writeFailure a none => ∀ l p message pair, s.phase a = .failing l p message (some pair) →
      s.record.execution.isLeaseValid s.clock a = true →
      (failureInput s.record.execution.id p message (some pair)).accepted = true →
      Taken s.record p.step.nodeId ∨
        (failureInput s.record.execution.id p message (some pair)).sequence ∈
          s.record.checkpoints.sequences
  | _ => True

structure Leeway.Allows (leeway : Leeway) (s : System) (act : Act) : Prop where
  refusal : leeway.refusals ∨ NoRefusal s act
  replay : leeway.replays ∨ NoReplay s act
  reclaim : leeway.reclaims ∨ NoReclaim s act

theorem Quiet.inSync {a : String} {ph : Phase} (h : Quiet g payload s a act (s.phase a) ph)
    (log : Logged refusals s.record c vars ended)
    (sync : InSync g payload taken replays c vars (s.phase a)) (allowed : replays ∨ NoReplay s act) :
    InSync g payload taken replays c vars ph := by
  generalize hph : s.phase a = old at h sync
  cases h with
  | stop _ => trivial
  | finish => trivial
  | readState => exact log.resume.1
  | readVariables resumeFrom =>
    obtain rfl : resumeFrom = c := sync
    exact congrArg (Loaded.mk resumeFrom) log.resume.2
  | @begin l _ =>
    obtain rfl : l = ⟨c, vars⟩ := sync
    exact startPass_current log
  | checkLease _ => exact sync
  | invoke l p outcome =>
    cases outcome with
    | output value =>
      simp only [afterInvoke]
      split <;> exact sync
    | error message => exact sync
    | retry => exact sync
    | pause => exact sync
    | leaseLost => trivial
  | notWritten _ _ => exact sync
  | decided l p =>
    rcases sync with hcur | ⟨hr, hrep⟩
    · by_cases hl : l = ⟨c, vars⟩
      · subst hl
        exact startPass_current log
      · rcases allowed with hr | hsame
        · exact startPass_replayed hr (hcur.first hl)
        · exact absurd (hcur.unchanged (hsame l p hph)) hl
    · exact startPass_replayed hr hrep.first

theorem recordStep_lease {a : String} {now : ℕ} {r record : ExecutionRecord}
    {input : RecordStepInput} (hw : recordStep now r a input = .written record) :
    r.execution.isLeaseValid now a = true := (writeStepAndCheckpoint_written hw).1

/-- The pass behind a write that went through is not a replay. -/
theorem current_of_written {a : String} {input : RecordStepInput} {record : ExecutionRecord}
    (hw : recordStep s.clock s.record a input = .written record)
    (own : input.executionId = s.record.execution.id) (hstep : input.step = p.step)
    (sync : Current g payload (Taken s.record) c vars l p ∨
      replays ∧ Replayed g payload (Taken s.record) l p) :
    Current g payload (Taken s.record) c vars l p := by
  rcases sync with hcur | ⟨_, hrep⟩
  · exact hcur
  · obtain ⟨_, _, _, hkey, _⟩ := recordStep_written hw
    rw [own, hstep] at hkey
    exact absurd hrep.node hkey

/-- Keys stay taken, and a write takes the key of its own step. -/
theorem taken_written {a : String} {now : ℕ} {r record : ExecutionRecord} {input : RecordStepInput}
    (hw : recordStep now r a input = .written record) (own : input.executionId = r.execution.id) :
    Taken record input.step.nodeId ∧ ∀ n, Taken r n → Taken record n := by
  obtain ⟨hexec, hrows, _⟩ := recordStep_written hw
  constructor
  · simp [Taken, StepTable.keys, hexec, hrows, StepRow.stored, stepRow, own]
  · intro n hn
    simp only [Taken, StepTable.keys, hexec, hrows, List.filterMap_append, List.mem_append]
    exact Or.inl hn

/-- The log after the write of a step that succeeded. -/
theorem success_log {a : String} {output vars' : Value} {record : ExecutionRecord}
    (log : Logged refusals s.record (stored p.completed) vars ended)
    (yields : Yields g p.completed p.step p.node p.walker)
    (hw : recordStep s.clock s.record a
      (successInput s.record.execution.id p output vars') = .written record) :
    Logged refusals record (stored (p.completed.set p.node.id output)) (readsVariables vars')
      false := by
  have hfresh : p.step.nodeId ∉ p.completed.keys := yields.nodeId ▸ yields.fresh
  have hlog := (log.write_success rfl rfl (by rwa [keys_stored]) (stored_set hfresh output) hw).2
  rwa [← yields.nodeId]

/-- A committed step that succeeded takes the latest checkpoint and the attempt on together. -/
theorem success_sync {a : String} {output vars' : Value} {record : ExecutionRecord}
    (log : Logged refusals s.record c vars ended)
    (sync : InSync g payload (Taken s.record) replays c vars (.recording l p output vars'))
    (hw : recordStep s.clock s.record a
      (successInput s.record.execution.id p output vars') = .written record) :
    Logged refusals record (stored (p.completed.set p.node.id output)) (readsVariables vars')
        false ∧
      InSync g payload (Taken record) replays (stored (p.completed.set p.node.id output))
        (readsVariables vars') (enter l vars' (resume g payload p.node p.walker (.output output))) := by
  have hcur := current_of_written hw rfl rfl sync
  refine ⟨success_log (hcur.same.symm ▸ log) hcur.yields hw, ?_⟩
  obtain ⟨hown, hgrow⟩ := taken_written hw rfl
  -- the first walk from what was loaded now comes to a node whose key is taken
  have hfirst : l.resumeFrom.size < (stored (p.completed.set p.node.id output)).size ∧
      FirstTaken g payload (Taken record) l := by
    have hsize : p.completed.size = c.size := by rw [← hcur.same, size_stored]
    rw [size_stored, size_set_of_notMem hcur.yields.fresh, hsize]
    rcases hcur.origin with ⟨rfl, hwalk⟩ | ⟨hlt, hf⟩
    · refine ⟨Nat.lt_succ_self _, fun step node w hw' => ?_⟩
      rw [hwalk] at hw'
      cases hw'
      exact hown
    · exact ⟨hlt.trans (Nat.lt_succ_self _), hf.mono hgrow⟩
  cases hres : resume g payload p.node p.walker (.output output) with
  | error e => trivial
  | ok progress =>
    cases progress with
    | returned result => trivial
    | yielded step node w =>
      have hy := resume_yields hres
      have hsame : stored w.completed = stored (p.completed.set p.node.id output) :=
        congrArg stored hy.completed
      obtain ⟨htext, houtput, hvars⟩ := success_accepted (recordStep_accepted hw)
      have hold : Storable (p.walker.completed.set p.node.id output) vars' :=
        hcur.storable.set hcur.yields.fresh (hcur.yields.nodeId ▸ htext) houtput hvars
      refine Or.inl ⟨?_, hsame, rfl, ?_, Or.inr hfirst⟩
      · rwa [← hy.completed] at hy
      · rwa [← hy.completed] at hold

/-- The completed map after a failed step, which may have been entered in it. -/
def afterFailure (p : Pass) : Option (Value × Value) → CompletedMap
  | some (output, _) => p.completed.set p.node.id output
  | none => p.completed

/-- The log after the write of a failed step. -/
theorem failure_log {a message : String} {entered : Option (Value × Value)}
    {record : ExecutionRecord} (log : Logged refusals s.record (stored p.completed) vars ended)
    (yields : Yields g p.completed p.step p.node p.walker) (admitted : entered ≠ none → refusals)
    (hw : recordStep s.clock s.record a
      (failureInput s.record.execution.id p message entered) = .written record) :
    Logged refusals record (stored (afterFailure p entered))
      (readsVariables (failureInput s.record.execution.id p message entered).vars) true := by
  have hfresh : p.step.nodeId ∉ p.completed.keys := yields.nodeId ▸ yields.fresh
  have hfresh' : p.step.nodeId ∉ (stored p.completed).keys := by rwa [keys_stored]
  cases entered with
  | none => exact (log.write_failure rfl rfl hfresh' rfl hw).2
  | some pair =>
    have hlog := log.write_refused (admitted (by simp)) rfl rfl hfresh' (stored_set hfresh pair.1) hw
    rwa [afterFailure, ← yields.nodeId]

/-- A failure written for a step already entered in the completed map is one that is allowed. -/
theorem refusal_admitted {a message : String} {entered : Option (Value × Value)}
    {record : ExecutionRecord} (allowed : refusals ∨ NoRefusal s (.writeFailure a none))
    (failing : s.phase a = .failing l p message entered)
    (hw : recordStep s.clock s.record a
      (failureInput s.record.execution.id p message entered) = .written record) :
    entered ≠ none → refusals := by
  intro hne
  obtain ⟨pair, rfl⟩ := Option.ne_none_iff_exists'.mp hne
  obtain ⟨_, _, _, hkey, hseq, _⟩ := recordStep_written hw
  exact allowed.resolve_right fun hno => (hno l p message pair failing (recordStep_lease hw)
    (recordStep_accepted hw)).elim hkey hseq

/-- The phases before an attempt knows how its walk ends. -/
def Phase.working : Phase → Prop
  | .idle | .completing _ | .aborting | .done => False
  | _ => True

/-- The tables are a log, and the tracked attempts are in step with it. Unless reclaims are
allowed, none of them is still working once a step has failed. -/
structure Tracks (g : WorkflowGraph) (payload : Value) (leeway : Leeway) (tracked : String → Prop)
    (s : System) (c : CompletedMap) (vars : Value) (ended : Bool) : Prop where
  log : Logged leeway.refusals s.record c vars ended
  sync : ∀ a, tracked a → InSync g payload (Taken s.record) leeway.replays c vars (s.phase a)
  halted : ended = true → leeway.reclaims ∨ ∀ a, tracked a → ¬ (s.phase a).working

omit [Columns] in
theorem Quiet.working {a : String} {ph ph' : Phase} (h : Quiet g payload s a act ph ph')
    (hw : ph'.working) : ph.working := by
  cases h with
  | stop _ => cases hw
  | finish => cases hw
  | _ => trivial

omit [Columns] in
theorem taken_congr {r r' : ExecutionRecord} (hid : r'.execution.id = r.execution.id)
    (hkeys : r'.steps.keys = r.steps.keys) : Taken r' = Taken r := by
  funext n
  simp [Taken, hid, hkeys]

theorem Logged.congr {r r' : ExecutionRecord} (h : Logged refusals r c vars ended)
    (hid : r'.execution.id = r.execution.id) (hsteps : r'.steps = r.steps)
    (hcps : r'.checkpoints = r.checkpoints) : Logged refusals r' c vars ended := by
  rw [Logged, hid, hsteps, hcps]
  exact h

section Step
variable {leeway : Leeway} {tracked : String → Prop}

/-- What is tracked after a step: what was before, and an attempt that has just claimed. -/
def TrackedNext (tracked : String → Prop) (s s' : System) (a : String) : Prop :=
  tracked a ∨ s.phase a = .idle ∧ s'.phase a = .claimed

/-- The log has not moved and one attempt has. -/
theorem Tracks.moved (h : Tracks g payload leeway tracked s c vars ended) {a : String}
    (log : Logged leeway.refusals s'.record c vars ended) (htaken : Taken s'.record = Taken s.record)
    (hother : ∀ b, b ≠ a → s'.phase b = s.phase b)
    (hsync : TrackedNext tracked s s' a →
      InSync g payload (Taken s.record) leeway.replays c vars (s'.phase a))
    (hhalted : TrackedNext tracked s s' a → (s'.phase a).working →
      (s.phase a).working ∧ tracked a ∨ ended = false ∨ leeway.reclaims) :
    Tracks g payload leeway (TrackedNext tracked s s') s' c vars ended := by
  have hold : ∀ b, b ≠ a → TrackedNext tracked s s' b → tracked b := by
    rintro b hne (ht | ⟨hidle, hclaimed⟩)
    · exact ht
    · rw [hother b hne, hidle] at hclaimed
      cases hclaimed
  refine ⟨log, fun b hb => ?_, fun he => ?_⟩
  · rw [htaken]
    by_cases hne : b = a
    · subst hne
      exact hsync hb
    · rw [hother b hne]
      exact h.sync b (hold b hne hb)
  · by_cases hr : leeway.reclaims
    · exact Or.inl hr
    · have hquiet := (h.halted he).resolve_left hr
      refine Or.inr fun b hb hw => ?_
      by_cases hne : b = a
      · subst hne
        rcases hhalted hb hw with ⟨hw', ht⟩ | hf | hrec
        · exact hquiet b ht hw'
        · rw [hf] at he
          cases he
        · exact hr hrec
      · rw [hother b hne] at hw
        exact hquiet b (hold b hne hb) hw

/-- One step of a run. -/
theorem Effect.tracks (h : Effect g payload s act s')
    (tracks : Tracks g payload leeway tracked s c vars ended)
    (writer : ∀ a, s.record.execution.leasedBy = some a → (s.phase a).working → tracked a)
    (alone : ∀ a b, tracked a → tracked b → a = b) (allowed : leeway.Allows s act) :
    ∃ c' vars' ended', Tracks g payload leeway (TrackedNext tracked s s') s' c' vars' ended' := by
  have unmoved : ∀ {t : System}, t.phase = s.phase → t.record.execution.id = s.record.execution.id →
      t.record.steps = s.record.steps → t.record.checkpoints = s.record.checkpoints →
      Tracks g payload leeway (TrackedNext tracked s t) t c vars ended := by
    intro t hp hid hs hc
    have hold : ∀ b, TrackedNext tracked s t b → tracked b := by
      rintro b (ht | ⟨hidle, hclaimed⟩)
      · exact ht
      · rw [hp, hidle] at hclaimed
        cases hclaimed
    refine ⟨tracks.log.congr hid hs hc, fun b hb => ?_, fun he => ?_⟩
    · rw [taken_congr hid (by rw [hs]), hp]
      exact tracks.sync b (hold b hb)
    · rw [hp]
      exact (tracks.halted he).imp_right fun hq b hb => hq b (hold b hb)
  cases h with
  | clock elapsed => exact ⟨c, vars, ended, unmoved rfl rfl rfl rfl⟩
  | row change => exact ⟨c, vars, ended, unmoved rfl change.id rfl rfl⟩
  | @claim a leaseExpiresAt e idle granted =>
    have hid : e.id = s.record.execution.id := by
      obtain ⟨_, rfl⟩ := Execution.startExecution_some granted
      rfl
    refine ⟨c, vars, ended, tracks.moved (a := a) (tracks.log.congr hid rfl rfl)
      (taken_congr hid rfl) (fun b hb => withPhase_of_ne _ hb _) (fun _ => ?_) fun _ _ => ?_⟩
    · rw [withPhase_self]
      trivial
    · rcases allowed.reclaim with hr | hno
      · exact Or.inr (Or.inr hr)
      · refine Or.inr (Or.inl (Bool.eq_false_iff.mpr fun he => ?_))
        obtain ⟨row, hrow, hfailed⟩ := tracks.log.failed_row he
        exact hno (by rw [granted]; rfl) row hrow hfailed
  | @quiet act a ph move =>
    have hnext : TrackedNext tracked s (s.withPhase a ph) a → tracked a := by
      rintro (ht | ⟨hidle, hclaimed⟩)
      · exact ht
      · rw [withPhase_self] at hclaimed
        rw [hidle, hclaimed] at move
        cases move
    refine ⟨c, vars, ended, tracks.moved (a := a) tracks.log rfl
      (fun b hb => withPhase_of_ne _ hb _) (fun ht => ?_) fun ht hw => ?_⟩
    · rw [withPhase_self]
      exact move.inSync tracks.log (tracks.sync a (hnext ht)) allowed.replay
    · rw [withPhase_self] at hw
      exact Or.inl ⟨move.working hw, hnext ht⟩
  | @finished act a record _ hsteps hcps change =>
    refine ⟨c, vars, ended, tracks.moved (a := a) (tracks.log.congr change.id hsteps hcps)
      (taken_congr change.id (by rw [withPhase_record, withRecord_record, hsteps]))
      (fun b hb => withPhase_of_ne _ hb _) (fun _ => ?_) fun _ hw => ?_⟩
    · rw [withPhase_self]
      trivial
    · rw [withPhase_self] at hw
      cases hw
  | @marker a l record loaded written =>
    obtain ⟨hlog, hkeys, hexec⟩ := tracks.log.write_marker written
    have hlease := Execution.isLeaseValid_leasedBy (recordResumeEvent_written written).1
    have hwork : (s.phase a).working := by rw [loaded]; trivial
    have ht := writer a hlease hwork
    have hl : l = ⟨c, vars⟩ := by
      have := tracks.sync a ht
      rwa [loaded] at this
    refine ⟨c, vars, ended, tracks.moved (a := a) hlog (taken_congr (by rw [← hexec]; rfl) hkeys)
      (fun b hb => withPhase_of_ne _ hb _) (fun _ => ?_) fun _ _ => Or.inl ⟨hwork, ht⟩⟩
    rw [withPhase_self, hl]
    exact startPass_current tracks.log
  | @success a l p output vars' record recording written =>
    have hlease := Execution.isLeaseValid_leasedBy (recordStep_lease written)
    have ht := writer a hlease (by rw [recording]; trivial)
    obtain ⟨hlog, hsync⟩ := success_sync tracks.log (recording ▸ tracks.sync a ht) written
    refine ⟨_, _, false, hlog, fun b hb => ?_, fun he => by cases he⟩
    obtain rfl : b = a := by
      rcases hb with hb | ⟨hidle, hclaimed⟩
      · exact alone b a hb ht
      · by_contra hne
        rw [withPhase_of_ne _ hne, withRecord_phase, hidle] at hclaimed
        cases hclaimed
    rw [withPhase_self]
    exact hsync
  | @failure a l p message entered record failing written =>
    have hlease := Execution.isLeaseValid_leasedBy (recordStep_lease written)
    have ht := writer a hlease (by rw [failing]; trivial)
    have hcur := current_of_written written rfl rfl (failing ▸ tracks.sync a ht)
    have hlog := failure_log (hcur.same.symm ▸ tracks.log) hcur.yields
      (refusal_admitted allowed.refusal failing written) written
    have honly : ∀ b, TrackedNext tracked s ((s.withRecord record).withPhase a
        (.completing (.failed p.node.id message))) b → b = a := by
      rintro b (hb | ⟨hidle, hclaimed⟩)
      · exact alone b a hb ht
      · by_contra hne
        rw [withPhase_of_ne _ hne, withRecord_phase, hidle] at hclaimed
        cases hclaimed
    refine ⟨_, _, true, hlog, fun b hb => ?_, fun _ => Or.inr fun b hb => ?_⟩
    · rw [honly b hb, withPhase_self]
      trivial
    · rw [honly b hb, withPhase_self]
      exact id

end Step

theorem Tracks.mono {leeway : Leeway} {tracked tracked' : String → Prop}
    (h : Tracks g payload leeway tracked s c vars ended) (hsub : ∀ a, tracked' a → tracked a) :
    Tracks g payload leeway tracked' s c vars ended :=
  ⟨h.log, fun a ha => h.sync a (hsub a ha),
    fun he => (h.halted he).imp_right fun hq a ha => hq a (hsub a ha)⟩

end Linea.Worker
