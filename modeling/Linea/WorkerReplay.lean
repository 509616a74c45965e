import Linea.WalkerMeaning
import Linea.WorkerRuns

/-! No node is executed twice. In runs whose attempts do not overlap, a handler is called only
for a node without a committed success, and an attempt told that its pause is decided already goes
on exactly as a fresh attempt would after the pause, as long as the attempt has committed nothing
since it loaded its state. -/
namespace Linea.Worker
open Walker OrderedMap ExecutionRecord RecordStepInput WorkflowGraph Validate

variable {g : WorkflowGraph} {payload : Value} {c : CompletedMap} {vars : Value} {ended : Bool}
  {s s' t : System} {action : Act} {a b : String} {l : Loaded} {p : Pass}

section Runs
variable [Columns]

/-- A running execution is claimed again only when no attempt is at work on it. -/
def NoOverlap (s : System) : Act → Prop
  | .claim _ _ => s.record.execution.status = .running → ∀ b, ¬ (s.phase b).live
  | _ => True

structure Interleaved (s : System) (act : Act) : Prop where
  overlap : NoOverlap s act
  replay : NoReplay s act

/-- At most one attempt is at work, and not on an execution that waits. -/
structure Sole (s : System) : Prop where
  unique : ∀ a b, (s.phase a).live → (s.phase b).live → a = b
  status : ∀ a, (s.phase a).live → s.record.execution.status ≠ .queued ∧
    s.record.execution.status ≠ .paused

omit [Columns] in
theorem Quiet.live {ph ph' : Phase} (h : Quiet g payload s a action ph ph') (hl : ph'.live) :
    ph.live := by
  cases h with
  | stop live => exact live
  | finish => cases hl
  | _ => trivial

/-- Nobody but an attempt that claims comes to life. -/
theorem Effect.live (h : Effect g payload s action s') {b : String} (hl : (s'.phase b).live) :
    TrackedNext (fun a => (s.phase a).live) s s' b := by
  have hold : ∀ {u : System} {a : String} {ph : Phase}, (ph.live → (s.phase a).live) →
      u.phase = s.phase → ((u.withPhase a ph).phase b).live → (s.phase b).live := by
    intro u a ph hself hu hl
    by_cases hb : b = a
    · subst hb
      rw [withPhase_self] at hl
      exact hself hl
    · rwa [withPhase_of_ne _ hb, hu] at hl
  cases h with
  | clock _ => exact Or.inl hl
  | row _ => exact Or.inl hl
  | @claim a _ e idle _ =>
    by_cases hb : b = a
    · subst hb
      exact Or.inr ⟨idle, withPhase_self _ _ _⟩
    · rw [withPhase_of_ne _ hb] at hl
      exact Or.inl hl
  | quiet move => exact Or.inl (hold move.live rfl hl)
  | finished live _ _ _ => exact Or.inl (hold (fun _ => live) rfl hl)
  | marker loaded _ => exact Or.inl (hold (fun _ => loaded ▸ trivial) rfl hl)
  | success recording _ => exact Or.inl (hold (fun _ => recording ▸ trivial) rfl hl)
  | failure failing _ => exact Or.inl (hold (fun _ => failing ▸ trivial) rfl hl)

/-- The row of the execution after a step, as far as attempts at work are concerned. -/
theorem Effect.waits (h : Effect g payload s action s') (hb : (s'.phase b).live)
    (hold : (s.phase b).live) (sole : Sole s) :
    s'.record.execution.status ≠ .queued ∧ s'.record.execution.status ≠ .paused := by
  have hs := sole.status b hold
  cases h with
  | clock _ => exact hs
  | row change =>
    rcases change.status with he | he | ⟨hp, _⟩
    · exact he.symm ▸ hs
    · rw [withExecution_execution, he]
      decide
    · exact absurd hp hs.2
  | claim _ granted =>
    obtain ⟨_, rfl⟩ := Execution.startExecution_some granted
    exact ⟨by simp, by simp⟩
  | quiet _ => exact hs
  | @finished _ a _ live _ _ _ =>
    obtain rfl := sole.unique a b live hold
    rw [withPhase_self] at hb
    cases hb
  | marker _ written =>
    obtain ⟨_, _, _, rfl⟩ := recordResumeEvent_written written
    exact hs
  | success _ written =>
    obtain ⟨_, _, _, _, _, _, rfl⟩ := writeStepAndCheckpoint_written written
    exact hs
  | failure _ written =>
    obtain ⟨_, _, _, _, _, _, rfl⟩ := writeStepAndCheckpoint_written written
    exact hs

/-- An attempt that comes to life finds no other at work, and sets the status to running. -/
theorem Effect.claims (h : Effect g payload s action s') (hidle : s.phase a = .idle)
    (hclaimed : s'.phase a = .claimed) (sole : Sole s) (ok : NoOverlap s action) :
    (∃ leaseExpiresAt, action = .claim a leaseExpiresAt) ∧ (∀ b, ¬ (s.phase b).live) ∧
      s'.record.execution.status = .running := by
  have hself : ∀ {u : System} {x : String} {ph : Phase}, u.phase = s.phase →
      (u.withPhase x ph).phase a = .claimed → x = a ∧ ph = .claimed := by
    intro u x ph hu hc
    by_cases hx : a = x
    · subst hx
      rw [withPhase_self] at hc
      exact ⟨rfl, hc⟩
    · rw [withPhase_of_ne _ hx, hu, hidle] at hc
      cases hc
  cases h with
  | clock _ => exact absurd (hidle.symm.trans hclaimed) (by simp)
  | row _ => exact absurd (hidle.symm.trans hclaimed) (by simp)
  | claim _ granted =>
    obtain ⟨rfl, _⟩ := hself rfl hclaimed
    obtain ⟨hguard, rfl⟩ := Execution.startExecution_some granted
    refine ⟨⟨_, rfl⟩, fun b hb => ?_, rfl⟩
    rcases hguard with hq | ⟨hr, _⟩
    · exact (sole.status b hb).1 hq
    · exact ok hr b hb
  | quiet move =>
    obtain ⟨rfl, rfl⟩ := hself rfl hclaimed
    rw [hidle] at move
    cases move
  | finished _ _ _ _ => cases (hself rfl hclaimed).2
  | marker loaded _ =>
    obtain ⟨rfl, _⟩ := hself rfl hclaimed
    rw [hidle] at loaded
    cases loaded
  | success recording _ =>
    obtain ⟨rfl, _⟩ := hself rfl hclaimed
    rw [hidle] at recording
    cases recording
  | failure _ _ => cases (hself rfl hclaimed).2

theorem Effect.sole (h : Effect g payload s action s') (sole : Sole s) (ok : NoOverlap s action) :
    Sole s' := by
  refine ⟨fun x y hx hy => ?_, fun x hx => ?_⟩
  · rcases h.live hx with hxo | ⟨hxi, hxc⟩
    · rcases h.live hy with hyo | ⟨hyi, hyc⟩
      · exact sole.unique x y hxo hyo
      · exact absurd hxo ((h.claims hyi hyc sole ok).2.1 x)
    · rcases h.live hy with hyo | ⟨hyi, hyc⟩
      · exact absurd hyo ((h.claims hxi hxc sole ok).2.1 y)
      · obtain ⟨_, hax⟩ := (h.claims hxi hxc sole ok).1
        obtain ⟨_, hay⟩ := (h.claims hyi hyc sole ok).1
        rw [hax] at hay
        cases hay
        rfl
  · rcases h.live hx with hxo | ⟨hxi, hxc⟩
    · exact h.waits hx hxo sole
    · rw [(h.claims hxi hxc sole ok).2.2]
      decide

/-- Runs without replays. -/
def noReplays : Leeway := ⟨True, False, True⟩

/-- The attempt at work is in step with the tables, lease or not. -/
theorem interleaved_tracks (h : Reachable g payload Interleaved s) : Sole s ∧
    ∃ c vars ended, Tracks g payload noReplays (fun a => (s.phase a).live) s c vars ended := by
  induction h with
  | start => exact ⟨⟨fun _ _ h => h.elim, fun _ h => h.elim⟩, _, _, _, initial_tracks _ _ _ _ _ _⟩
  | @step s s' act _ ok taken ih =>
    obtain ⟨sole, c, vars, ended, tracks⟩ := ih
    have heff := step_effect taken
    have hlive : ∀ {ph : Phase}, ph.working → ph.live := by
      intro ph hw
      cases ph with
      | idle => exact hw
      | done => exact hw
      | _ => trivial
    obtain ⟨c', vars', ended', tracks'⟩ := heff.tracks tracks (fun _ _ hw => hlive hw) sole.unique
      ⟨Or.inl trivial, Or.inr ok.replay, Or.inl trivial⟩
    exact ⟨heff.sole sole ok.overlap, c', vars', ended', tracks'.mono fun _ => heff.live⟩

/-- What an attempt may do after its first pass has begun. -/
inductive Move
  | checkLease
  | invoke (outcome : HandlerOutcome)
  | writeStep (dbError : Option String)
  | writeFailure (dbError : Option String)
  | pause (answer : PauseAnswer)
  | complete (threw : Bool)
  | abort (message : String)
  | throw
  | crash

def Move.act (a : String) : Move → Act
  | .checkLease => .checkLease a
  | .invoke outcome => .invoke a outcome
  | .writeStep dbError => .writeStep a dbError
  | .writeFailure dbError => .writeFailure a dbError
  | .pause answer => .pause a answer
  | .complete threw => .complete a threw
  | .abort message => .abort a message
  | .throw => .throw a
  | .crash => .crash a

/-- Attempt `a` in `s` and attempt `b` in `t` see the same. -/
structure Alike (s : System) (a : String) (t : System) (b : String) : Prop where
  clock : t.clock = s.clock
  phase : t.phase b = s.phase a
  id : t.record.execution.id = s.record.execution.id
  status : t.record.execution.status = s.record.execution.status
  lease : t.record.execution.isLeaseValid t.clock b = s.record.execution.isLeaseValid s.clock a
  keys : t.record.steps.keys = s.record.steps.keys
  checkpoints : t.record.checkpoints = s.record.checkpoints

omit [Columns] in
/-- Both attempts go to the same phase, and the records stay. -/
theorem Alike.withPhase (h : Alike s a t b) (ph : Phase) :
    Alike (s.withPhase a ph) a (t.withPhase b ph) b :=
  ⟨h.clock, by simp, h.id, h.status, h.lease, h.keys, h.checkpoints⟩

/-- The tables answer a write of either attempt in the same way. -/
inductive AlikeWrite (s : System) (a : String) (t : System) (b : String) :
    WriteResult ExecutionRecord → WriteResult ExecutionRecord → Prop
  | leaseLost : AlikeWrite s a t b .leaseLost .leaseLost
  | refused : AlikeWrite s a t b .refused .refused
  | conflict : AlikeWrite s a t b .conflict .conflict
  | written {r r' : ExecutionRecord} (alike : Alike (s.withRecord r) a (t.withRecord r') b) :
      AlikeWrite s a t b (.written r) (.written r')

omit [Columns] in
theorem insert_alike {x y : StepTable} (h : y.keys = x.keys) (row : StepRow) :
    x.insert row = none ∧ y.insert row = none ∨ ∃ x' y', x.insert row = some x' ∧
      y.insert row = some y' ∧ y'.keys = x'.keys := by
  by_cases hk : ∀ key, row.idempotencyKey = some key → key ∉ x.keys
  · have hk' : ∀ key, row.idempotencyKey = some key → key ∉ y.keys := h.symm ▸ hk
    refine Or.inr ⟨_, _, dif_pos hk, dif_pos hk', ?_⟩
    simp only [StepTable.keys, List.filterMap_append] at h ⊢
    rw [h]
  · have hk' : ¬ ∀ key, row.idempotencyKey = some key → key ∉ y.keys := h.symm ▸ hk
    exact Or.inl ⟨dif_neg hk, dif_neg hk'⟩

theorem Alike.write (h : Alike s a t b) (input : RecordStepInput) :
    AlikeWrite s a t b (recordStep s.clock s.record a input)
      (recordStep t.clock t.record b input) := by
  unfold recordStep writeStepAndCheckpoint
  rw [h.lease, h.checkpoints]
  split_ifs with hl haccepted
  · rcases insert_alike h.keys input.stepRow.stored with ⟨hx, hy⟩ | ⟨x, y, hx, hy, hkeys⟩
    · rw [hx, hy]
      exact .conflict
    · rw [hx, hy]
      cases s.record.checkpoints.insert input.checkpointRow.stored with
      | none => exact .conflict
      | some checkpoints =>
        exact .written ⟨h.clock, h.phase, h.id, h.status, h.lease, hkeys, rfl⟩
  · exact .refused
  · exact .leaseLost

omit [Columns] in
theorem Completion.lease_eq {now : ℕ} {input : CompleteExecutionInput} {r r' : ExecutionRecord}
    (h : Completion now a input r r') (x : String) :
    r'.execution.isLeaseValid now x = r.execution.isLeaseValid now x := by
  simp only [Execution.isLeaseValid, h.lease, h.expiry]

omit [Columns] in
theorem Alike.complete (h : Alike s a t b) (input : CompleteExecutionInput) :
    Alike (tryComplete s a input) a (tryComplete t b input) b := by
  obtain ⟨r, hs, hr⟩ := tryComplete_spec s a input
  obtain ⟨r', ht, hr'⟩ := tryComplete_spec t b input
  rw [hs, ht]
  refine ⟨h.clock, h.phase, ?_, ?_, ?_, ?_, ?_⟩
  · exact hr'.id.trans (h.id.trans hr.id.symm)
  · rw [withRecord_record, withRecord_record, hr.status, hr'.status, h.lease, h.status]
  · exact (hr'.lease_eq b).trans (h.lease.trans (hr.lease_eq a).symm)
  · rw [withRecord_record, withRecord_record, hr.steps, hr'.steps]
    exact h.keys
  · exact hr'.checkpoints.trans (h.checkpoints.trans hr.checkpoints.symm)

omit [Columns] in
/-- A paused execution is nobody's. -/
theorem Alike.pause (h : Alike s a t b) :
    s.record.execution.pauseExecution s.clock a = none ∧
        t.record.execution.pauseExecution t.clock b = none ∨
      ∃ e e', s.record.execution.pauseExecution s.clock a = some e ∧
        t.record.execution.pauseExecution t.clock b = some e' ∧
        Alike (s.withExecution e) a (t.withExecution e') b := by
  by_cases hg : s.record.execution.isLeaseValid s.clock a = true ∧
      s.record.execution.status ∉ terminalStatuses
  · have hg' : t.record.execution.isLeaseValid t.clock b = true ∧
        t.record.execution.status ∉ terminalStatuses := by
      rw [h.lease, h.status]
      exact hg
    refine Or.inr ⟨_, _, if_pos hg, if_pos hg', h.clock, h.phase, h.id, rfl, ?_, h.keys,
      h.checkpoints⟩
    simp [Execution.isLeaseValid]
  · have hg' : ¬ (t.record.execution.isLeaseValid t.clock b = true ∧
        t.record.execution.status ∉ terminalStatuses) := by
      rw [h.lease, h.status]
      exact hg
    exact Or.inl ⟨if_neg hg, if_neg hg'⟩

/-- One move, taken where it is possible. -/
theorem Alike.move (h : Alike s a t b) (move : Move) :
    Alike ((step g payload s (move.act a)).getD s) a ((step g payload t (move.act b)).getD t) b := by
  cases move with
  | checkLease =>
    simp only [Move.act, step, h.phase, h.lease]
    split
    · split_ifs
      · exact h.withPhase _
      · exact h.withPhase _
    · exact h
  | invoke outcome =>
    simp only [Move.act, step, h.phase]
    split
    · exact h.withPhase _
    · exact h
  | writeStep dbError =>
    simp only [Move.act, step, h.phase]
    split
    · rename_i l p output vars _
      cases dbError with
      | some message => exact h.withPhase _
      | none =>
        have hw := h.write (successInput s.record.execution.id p output vars)
        rw [h.id]
        generalize recordStep s.clock s.record a _ = x at hw ⊢
        generalize recordStep t.clock t.record b _ = y at hw ⊢
        cases hw with
        | leaseLost => exact h.withPhase _
        | refused => exact h.withPhase _
        | conflict => exact h.withPhase _
        | written alike => exact alike.withPhase _
    · exact h
  | writeFailure dbError =>
    simp only [Move.act, step, h.phase]
    split
    · rename_i l p message entered _
      cases dbError with
      | some message => exact h.withPhase _
      | none =>
        have hw := h.write (failureInput s.record.execution.id p message entered)
        rw [h.id]
        generalize recordStep s.clock s.record a _ = x at hw ⊢
        generalize recordStep t.clock t.record b _ = y at hw ⊢
        cases hw with
        | leaseLost => exact h.withPhase _
        | refused => exact h.withPhase _
        | conflict => exact h.withPhase _
        | written alike => exact alike.withPhase _
    · exact h
  | pause answer =>
    simp only [Move.act, step, h.phase]
    split
    · cases answer with
      | pending =>
        rcases h.pause with ⟨hs, ht⟩ | ⟨e, e', hs, ht, halike⟩
        · simp only [hs, ht]
          exact h.withPhase _
        · simp only [hs, ht]
          exact halike.withPhase _
      | alreadyDecided => exact h.withPhase _
      | threw => exact h.withPhase _
    · exact h
  | complete threw =>
    simp only [Move.act, step, h.phase]
    split
    · split_ifs
      · exact h.withPhase _
      · exact (h.complete _).withPhase _
    · exact h
  | abort message =>
    simp only [Move.act, step, h.phase]
    split
    · exact (h.complete _).withPhase _
    · exact h
  | throw =>
    simp only [Move.act, step, h.phase]
    split
    · exact h
    · exact h
    · exact h.withPhase _
  | crash => exact h.withPhase _

theorem Alike.moves (h : Alike s a t b) (g : WorkflowGraph) (payload : Value)
    (moves : List Move) :
    Alike (run g payload s (moves.map (Move.act a))) a
      (run g payload t (moves.map (Move.act b))) b := by
  induction moves generalizing s t with
  | nil => exact h
  | cons move moves ih => exact ih (h.move move)

/-- A decision that comes after the pause was recorded, and the attempt that it puts to work. -/
def lateDecision (a b : String) (leaseExpiresAt : ℕ) : List Act :=
  [.pause a .pending, .requeue, .claim b leaseExpiresAt, .readState b, .readVariables b, .begin b]

/-- What the attempt has loaded is what a fresh attempt would load after the pause. -/
theorem late_alike {refusals : Prop} {leaseExpiresAt : ℕ} (hph : s.phase a = .pausing l p)
    (hb : s.phase b = .idle) (status : s.record.execution.status = .running)
    (valid : s.record.execution.isLeaseValid s.clock a = true) (later : s.clock < leaseExpiresAt)
    (log : Logged refusals s.record l.resumeFrom l.resumeVars ended) :
    Alike (s.withPhase a (startPass g payload l)) a
      (run g payload s (lateDecision a b leaseExpiresAt)) b := by
  have hne : b ≠ a := by
    rintro rfl
    rw [hph] at hb
    cases hb
  let e₁ : Execution := { s.record.execution with
    status := .paused, leasedBy := none, leaseExpiresAt := none }
  let s₁ := (s.withExecution e₁).withPhase a .done
  let s₂ := s₁.withExecution { e₁ with status := .queued }
  let e₃ : Execution := { e₁ with
    status := .running, leasedBy := some b, leaseExpiresAt := some leaseExpiresAt,
    startedAt := some s.clock }
  let s₃ := (s₂.withExecution e₃).withPhase b .claimed
  let s₄ := s₃.withPhase b (.stateRead l.resumeFrom)
  let s₅ := s₄.withPhase b (.loaded l)
  have hpause : s.record.execution.pauseExecution s.clock a = some e₁ :=
    if_pos ⟨valid, by rw [status]; decide⟩
  have hstep₁ : step g payload s (.pause a .pending) = some s₁ := by
    simp only [step, hph, hpause, s₁]
  have hstep₂ : step g payload s₁ .requeue = some s₂ := rfl
  have hidle : s₂.phase b = .idle := (withPhase_of_ne _ hne _).trans hb
  have hstart : s₂.record.execution.startExecution s₂.clock b leaseExpiresAt = some e₃ := rfl
  have hstep₃ : step g payload s₂ (.claim b leaseExpiresAt) = some s₃ := by
    simp only [step, hidle, hstart, s₃]
  have hlog : Logged refusals s₃.record l.resumeFrom l.resumeVars ended := log
  obtain ⟨hstate, hvars⟩ := hlog.resume
  have hstep₄ : step g payload s₃ (.readState b) = some s₄ := by
    have : s₃.phase b = .claimed := withPhase_self _ _ _
    simp only [step, this, hstate, s₄]
  have hstep₅ : step g payload s₄ (.readVariables b) = some s₅ := by
    have : s₄.phase b = .stateRead l.resumeFrom := withPhase_self _ _ _
    have hv : s₄.record.getResumeVariables = l.resumeVars := hvars
    simp only [step, this, hv, s₅]
  have hvalid : s₅.record.execution.isLeaseValid s₅.clock b = true := by
    show e₃.isLeaseValid s.clock b = true
    simpa [Execution.isLeaseValid, e₃] using later
  have hloaded : s₅.phase b = .loaded l := withPhase_self _ _ _
  rw [lateDecision, run_cons hstep₁, run_cons hstep₂, run_cons hstep₃, run_cons hstep₄,
    run_cons hstep₅]
  obtain ⟨record, hbegin, hexec, hkeys, hcps⟩ : ∃ record,
      step g payload s₅ (.begin b) =
        some ((s₅.withRecord record).withPhase b (startPass g payload l)) ∧
      record.execution = e₃ ∧ record.steps.keys = s.record.steps.keys ∧
      record.checkpoints = s.record.checkpoints := by
    by_cases hsize : 0 < l.resumeFrom.size
    · obtain ⟨record, hwritten⟩ := recordResumeEvent_eq_written hvalid
      obtain ⟨_, hkeys, hexec⟩ := hlog.write_marker hwritten
      obtain ⟨_, _, _, rfl⟩ := recordResumeEvent_written hwritten
      exact ⟨_, by simp only [step, hloaded, hsize, if_true, hwritten], hexec, hkeys, rfl⟩
    · exact ⟨s₅.record, by simp only [step, hloaded, hsize, if_false]; rfl, rfl, rfl, rfl⟩
  rw [run_cons hbegin]
  refine ⟨rfl, ?_, ?_, ?_, ?_, hkeys, hcps⟩
  · rw [run, List.foldl_nil, withPhase_self, withPhase_self]
  · show record.execution.id = s.record.execution.id
    rw [hexec]
  · exact (congrArg Execution.status hexec).trans status.symm
  · show record.execution.isLeaseValid s.clock b = s.record.execution.isLeaseValid s.clock a
    rw [hexec, valid]
    exact hvalid

/-- No node is executed twice. In every run in which attempts do not overlap and a pause is
answered as decided already only to an attempt that has committed nothing since it loaded: no
attempt calls the handler of a node whose success is on record, and after such an answer the
execution goes on, whatever the handlers and the database answer, to the status it has when the
pause is recorded first and a fresh attempt goes on after the decision. -/
theorem no_reexecution (g : WorkflowGraph) (payload : Value) (s : System)
    (reached : Reachable g payload Interleaved s) :
    (∀ a l p, s.phase a = .invoking l p →
      ∀ row ∈ completedSteps s.record.steps.rows, row.nodeId ≠ p.node.id) ∧
    ∀ a l p b leaseExpiresAt, ∀ moves : List Move, s.phase a = .pausing l p →
      NoReplay s (.pause a .alreadyDecided) →
      (s.record.execution.pauseExecution s.clock a).isSome → s.phase b = .idle →
      s.clock < leaseExpiresAt →
      let early := run g payload s
        (.pause a .alreadyDecided :: moves.map (Move.act a))
      let late := run g payload s
        (lateDecision a b leaseExpiresAt ++ moves.map (Move.act b))
      early.record.execution.status = late.record.execution.status ∧
        early.phase a = late.phase b := by
  obtain ⟨sole, c, vars, ended, tracks⟩ := interleaved_tracks reached
  constructor
  · intro a l p hph row hrow heq
    have hsync := tracks.sync a (by rw [hph]; trivial)
    rw [hph] at hsync
    have hcur := hsync.resolve_right fun h => h.1
    have hmem := tracks.log.completed_mem row hrow
    rw [heq, ← hcur.yields.nodeId] at hmem
    exact hcur.fresh hmem
  · intro a l p b leaseExpiresAt moves hph spared hpause hb later
    have hlive : (s.phase a).live := by rw [hph]; trivial
    have hsync := tracks.sync a hlive
    rw [hph] at hsync
    have hcur := hsync.resolve_right fun h => h.1
    obtain rfl := hcur.unchanged (spared l p hph)
    obtain ⟨e, he⟩ := Option.isSome_iff_exists.mp hpause
    obtain ⟨⟨valid, hterm⟩, _⟩ := Execution.pauseExecution_some he
    have status : s.record.execution.status = .running := by
      have hwait := sole.status a hlive
      cases hs : s.record.execution.status <;> simp_all [terminalStatuses]
    have halike : Alike (s.withPhase a (startPass g payload ⟨c, vars⟩)) a
        (run g payload s (lateDecision a b leaseExpiresAt)) b :=
      late_alike hph hb status valid later tracks.log
    have hstep : step g payload s (.pause a .alreadyDecided) =
        some (s.withPhase a (startPass g payload ⟨c, vars⟩)) := by
      simp only [step, hph]
    intro early late
    have hmoves := halike.moves g payload moves
    have hearly : early = run g payload (s.withPhase a (startPass g payload ⟨c, vars⟩))
        (moves.map (Move.act a)) := run_cons hstep _
    have hlate : late = run g payload (run g payload s (lateDecision a b leaseExpiresAt))
        (moves.map (Move.act b)) := List.foldl_append
    rw [hearly, hlate]
    exact ⟨hmoves.status.symm, hmoves.phase.symm⟩

end Runs

open scoped Unchanged

/-- The approval comes after a node that commits a step. -/
def approvalGraph : WorkflowGraph where
  entryNodeId := "start"
  nodes := [⟨"start", .start, []⟩, ⟨"approve", .approval, []⟩]
  edges := [⟨"start", "approve", none⟩]

/-- The handler of the first node is called, its step is committed, and the approval is next. -/
def calledApproval (a : String) : List Act :=
  firstCall a (.output .null) ++ [.writeStep a none, .checkLease a]

/-- The pause is recorded, and the attempt after it pauses at the approval as well. -/
def pausedAgain : List Act :=
  calledApproval "a" ++ .invoke "a" .pause :: (lateDecision "a" "b" 90 ++
    [.checkLease "b", .invoke "b" .pause])

theorem calledApproval_interleaved : Reachable approvalGraph .null Interleaved
    (run approvalGraph .null queued (calledApproval "a")) :=
  reachable_queued.run
    ⟨⟨fun h => (by cases h), trivial⟩, ⟨trivial, trivial⟩, ⟨trivial, trivial⟩, ⟨trivial, trivial⟩,
      ⟨trivial, trivial⟩, ⟨trivial, trivial⟩, ⟨trivial, trivial⟩, ⟨trivial, trivial⟩, trivial⟩

theorem pausedAgain_interleaved : Reachable approvalGraph .null Interleaved
    (run approvalGraph .null queued pausedAgain) :=
  reachable_queued.run
    ⟨⟨fun h => (by cases h), trivial⟩, ⟨trivial, trivial⟩, ⟨trivial, trivial⟩, ⟨trivial, trivial⟩,
      ⟨trivial, trivial⟩, ⟨trivial, trivial⟩, ⟨trivial, trivial⟩, ⟨trivial, trivial⟩,
      ⟨trivial, trivial⟩, ⟨trivial, trivial⟩, ⟨trivial, trivial⟩,
      ⟨fun h => (by cases h), trivial⟩, ⟨trivial, trivial⟩, ⟨trivial, trivial⟩,
      ⟨trivial, trivial⟩, ⟨trivial, trivial⟩, ⟨trivial, trivial⟩, trivial⟩

theorem no_reexecution_approvalGraph :
    (∀ row ∈ completedSteps (run approvalGraph .null queued
      (calledApproval "a")).record.steps.rows, row.nodeId ≠ "approve") ∧
    (run approvalGraph .null (run approvalGraph .null queued pausedAgain)
      (.pause "b" .alreadyDecided :: [Move.checkLease, .invoke (.output .null), .writeStep none,
        .complete false].map (Move.act "b"))).record.execution.status =
    (run approvalGraph .null (run approvalGraph .null queued pausedAgain)
      (lateDecision "b" "c" 90 ++ [Move.checkLease, .invoke (.output .null), .writeStep none,
        .complete false].map (Move.act "c"))).record.execution.status :=
  ⟨(no_reexecution approvalGraph .null _ calledApproval_interleaved).1 "a" _ _ rfl,
    ((no_reexecution approvalGraph .null _ pausedAgain_interleaved).2 "b" _ _ "c" 90 _ rfl
      (fun _ _ h => by cases h; rfl) rfl rfl (by decide)).1⟩

/-- The decision comes just before the pause is recorded: the attempt walks again from what it
loaded, calls the handler of the first node again, and fails on the key of its step. -/
theorem decided_pause_reexecutes : ∃ s, Reachable approvalGraph .null NoOverlap s ∧
    validateGraphStructure acceptAll approvalGraph = .ok () ∧
    (∃ l p, s.phase "a" = .invoking l p ∧ p.node.id = "start") ∧
    ((completedSteps s.record.steps.rows).map StepRow.nodeId) = ["start"] ∧
    (run approvalGraph .null s [.invoke "a" (.output .null), .writeStep "a" none,
      .writeFailure "a" none, .abort "a" "duplicate key"]).record.execution.status = .failed := by
  refine ⟨run approvalGraph .null queued (calledApproval "a" ++
    [.invoke "a" .pause, .pause "a" .alreadyDecided, .checkLease "a"]), reachable_queued.run ?_, rfl,
    ⟨_, _, rfl, rfl⟩, rfl, rfl⟩
  exact ⟨fun h => (by cases h), trivial, trivial, trivial, trivial, trivial, trivial, trivial,
    trivial, trivial, trivial, trivial⟩

end Linea.Worker
