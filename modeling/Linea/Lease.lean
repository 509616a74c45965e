import Linea.StepLog

/-! Any number of worker attempts, decisions, timers and cancellations on one execution, in any
order. Every write of an attempt is fenced by the lease: it commits only while the attempt
holds the lease, and the lease of an attempt never comes back once it is gone. -/
namespace Linea.Lease
open ExecutionRecord

/-- The transactions that read or change the execution, and the passing of time. -/
inductive Op
  | tick (elapsed : ℕ)
  | startExecution (attemptId : String) (leaseExpiresAt : ℕ)
  | renewLease (attemptId : String) (leaseExpiresAt : ℕ)
  | writeStepAndCheckpoint (attemptId : String) (step : StepRow) (checkpoint : CheckpointRow)
  | recordResumeEvent (attemptId : String)
  | pauseExecution (attemptId : String)
  | completeExecution (attemptId : String) (audienceExists : Bool) (input : CompleteExecutionInput)
  | requeue
  | cancelExecutionWithPendingApproval (environmentId : String)
      (pendingRequests executingIntents : ℕ)

structure World where
  clock : ℕ
  record : ExecutionRecord

namespace World

def status (w : World) : ExecutionStatus := w.record.execution.status

def leasedBy (w : World) : Option String := w.record.execution.leasedBy

def withExecution (w : World) (e : Execution) : World :=
  { w with record := { w.record with execution := e } }

variable [Columns]

/-- The state after a transaction, `none` if it changes nothing or is rolled back. -/
def commit (w : World) : Op → Option World
  | .tick elapsed => some { w with clock := w.clock + elapsed }
  | .startExecution attemptId leaseExpiresAt =>
    (w.record.execution.startExecution w.clock attemptId leaseExpiresAt).map w.withExecution
  | .renewLease attemptId leaseExpiresAt =>
    (w.record.execution.renewLease w.clock attemptId leaseExpiresAt).map w.withExecution
  | .writeStepAndCheckpoint attemptId step checkpoint =>
    match w.record.writeStepAndCheckpoint w.clock attemptId step checkpoint with
    | .written record => some { w with record := record }
    | _ => none
  | .recordResumeEvent attemptId =>
    match w.record.recordResumeEvent w.clock attemptId with
    | .written record => some { w with record := record }
    | _ => none
  | .pauseExecution attemptId =>
    (w.record.execution.pauseExecution w.clock attemptId).map w.withExecution
  | .completeExecution attemptId audienceExists input =>
    match w.record.execution.completeExecution w.clock audienceExists attemptId input with
    | some (e, event) => some { w with record :=
        { w.record with execution := e, events := w.record.events ++ event.toList } }
    | none => none
  | .requeue => w.record.execution.requeue.map w.withExecution
  | .cancelExecutionWithPendingApproval environmentId pendingRequests executingIntents =>
    -- several pending requests throw, an intent that is being executed is left to finish
    if pendingRequests ≤ 1 ∧ executingIntents = 0 then
      (w.record.execution.cancelExecution environmentId w.clock).map w.withExecution
    else none

def apply (w : World) (op : Op) : World := (w.commit op).getD w

def run (w : World) (ops : List Op) : World := ops.foldl apply w

end World

namespace Op

/-- The attempt writes a step with its checkpoint, or a resume marker: neither looks at the status. -/
def recordsFor (a : String) : Op → Prop
  | .writeStepAndCheckpoint b _ _ => b = a
  | .recordResumeEvent b => b = a
  | _ => False

def pausesFor (a : String) : Op → Prop
  | .pauseExecution b => b = a
  | _ => False

def completesFor (a : String) : Op → Prop
  | .completeExecution b _ _ => b = a
  | _ => False

def startsFor (a : String) : Op → Prop
  | .startExecution b _ => b = a
  | _ => False

/-- After such a transaction of anyone, earlier attempts are fenced off. -/
def fences : Op → Prop
  | .startExecution .. => True
  | .pauseExecution _ => True
  | .completeExecution .. => True
  | .cancelExecutionWithPendingApproval .. => True
  | _ => False

/-- Attempt ids are distinct: each is used for one claim. -/
def DistinctAttempts (earlier later : Op) : Prop := ∀ a, earlier.startsFor a → ¬ later.startsFor a

end Op

variable {w w' : World} {op : Op} {a : String}

/-- The committed transactions, each with the condition it commits under. -/
inductive Committed (w : World) : Op → World → Prop
  | tick (elapsed : ℕ) : Committed w (.tick elapsed) { w with clock := w.clock + elapsed }
  | started {a : String} {expiry : ℕ} (claimable : w.status = .queued ∨ w.status = .running) :
      Committed w (.startExecution a expiry) (w.withExecution
        { w.record.execution with
          status := .running, leasedBy := some a, leaseExpiresAt := some expiry,
          startedAt := some w.clock })
  | renewed {a : String} {expiry : ℕ} : Committed w (.renewLease a expiry)
      (w.withExecution { w.record.execution with leaseExpiresAt := some expiry })
  | wrote {a : String} {step : StepRow} {checkpoint : CheckpointRow} {steps : StepTable}
      {checkpoints : CheckpointTable} (owner : w.leasedBy = some a) :
      Committed w (.writeStepAndCheckpoint a step checkpoint)
        { w with record := { w.record with steps := steps, checkpoints := checkpoints } }
  | marked {a : String} {steps : StepTable} (owner : w.leasedBy = some a) :
      Committed w (.recordResumeEvent a) { w with record := { w.record with steps := steps } }
  | paused {a : String} (owner : w.leasedBy = some a) (live : w.status ∉ terminalStatuses) :
      Committed w (.pauseExecution a) (w.withExecution
        { w.record.execution with status := .paused, leasedBy := none, leaseExpiresAt := none })
  | completed {a : String} {audienceExists : Bool} {input : CompleteExecutionInput}
      {e : Execution} (owner : w.leasedBy = some a) (live : w.status ∉ terminalStatuses)
      (row : e = { w.record.execution with status := input.status, error := input.error,
                                           completedAt := some w.clock }) :
      Committed w (.completeExecution a audienceExists input)
        { w with
          record := { w.record with
            execution := e, events := w.record.events ++ e.completionEvent.toList } }
  | requeued (waiting : w.status = .paused) : Committed w .requeue
      (w.withExecution { w.record.execution with status := .queued })
  | cancelled {environmentId : String} {pending executing : ℕ}
      (live : w.status ∈ [.queued, .running, .paused]) :
      Committed w (.cancelExecutionWithPendingApproval environmentId pending executing)
        (w.withExecution { w.record.execution with
          status := .cancelled, completedAt := some w.clock, leasedBy := none,
          leaseExpiresAt := none })

/-- The lease of an attempt comes from its claim only. -/
theorem Committed.leasedBy (h : Committed w op w') (ha : w.leasedBy ≠ some a)
    (hs : ¬ op.startsFor a) : w'.leasedBy ≠ some a := by
  cases h with
  | started => exact fun he => hs (Option.some.inj he)
  | completed _ _ row =>
    subst row
    exact ha
  | paused => simp [World.leasedBy, World.withExecution]
  | cancelled => simp [World.leasedBy, World.withExecution]
  | _ => exact ha

/-- A terminal status is never left. -/
theorem Committed.terminal (h : Committed w op w') (ht : w.status ∈ terminalStatuses) :
    w'.status = w.status := by
  have hne : w.status ≠ .queued ∧ w.status ≠ .running ∧ w.status ≠ .paused := by
    refine ⟨?_, ?_, ?_⟩ <;> intro he <;> rw [he] at ht <;> exact absurd ht (by decide)
  cases h with
  | started claimable => exact absurd claimable (by simp [hne])
  | paused _ live => exact absurd ht live
  | completed _ live _ => exact absurd ht live
  | requeued waiting => exact absurd waiting hne.2.2
  | cancelled live => exact absurd live (by simp [hne])
  | _ => rfl

/-- The events published so far are those of the execution's present status. -/
def Published (w : World) : Prop :=
  w.record.events = w.record.execution.completionEvent.toList

theorem completionEvent_live {e : Execution} (h : e.status ∉ terminalStatuses) :
    e.completionEvent = none :=
  Execution.completionEvent_none (fun he => h (by simp [he, terminalStatuses]))
    fun he => h (by simp [he, terminalStatuses])

/-- Published events while the execution is not over, before and after. -/
theorem published_live {e : Execution} (hp : Published w) (hw : w.status ∉ terminalStatuses)
    (he : e.status ∉ terminalStatuses) : Published (w.withExecution e) := by
  rw [Published, completionEvent_live hw] at hp
  rw [Published, World.withExecution, completionEvent_live he]
  exact hp

theorem Committed.published (h : Committed w op w') (hp : Published w) : Published w' := by
  cases h with
  | tick => exact hp
  | started claimable =>
    refine published_live hp ?_ (by simp [terminalStatuses])
    rcases claimable with h | h <;> simp [h, terminalStatuses]
  | renewed => exact hp
  | wrote => exact hp
  | marked => exact hp
  | paused _ live => exact published_live hp live (by simp [terminalStatuses])
  | completed _ live _ =>
    rw [Published, completionEvent_live live] at hp
    simp [Published, hp]
  | requeued waiting =>
    exact published_live hp (by simp [waiting, terminalStatuses]) (by simp [terminalStatuses])
  | cancelled live =>
    have hw : w.status ∉ terminalStatuses := by
      simp only [List.mem_cons, List.not_mem_nil, or_false] at live
      rcases live with h | h | h <;> simp [h, terminalStatuses]
    rw [Published, completionEvent_live hw] at hp
    rw [Published, World.withExecution, Execution.completionEvent_none (by simp) (by simp)]
    exact hp

/-- What a committed write of an attempt tells about the state before it. -/
theorem Committed.owner (h : Committed w op w')
    (ho : op.recordsFor a ∨ op.pausesFor a ∨ op.completesFor a) :
    w.leasedBy = some a ∧ (¬ op.recordsFor a → w.status ∉ terminalStatuses) := by
  cases h with
  | wrote owner =>
    obtain rfl : _ = a := by simpa [Op.recordsFor, Op.pausesFor, Op.completesFor] using ho
    exact ⟨owner, fun hc => absurd rfl hc⟩
  | marked owner =>
    obtain rfl : _ = a := by simpa [Op.recordsFor, Op.pausesFor, Op.completesFor] using ho
    exact ⟨owner, fun hc => absurd rfl hc⟩
  | paused owner live =>
    obtain rfl : _ = a := by simpa [Op.recordsFor, Op.pausesFor, Op.completesFor] using ho
    exact ⟨owner, fun _ => live⟩
  | completed owner live =>
    obtain rfl : _ = a := by simpa [Op.recordsFor, Op.pausesFor, Op.completesFor] using ho
    exact ⟨owner, fun _ => live⟩
  | _ => simp [Op.recordsFor, Op.pausesFor, Op.completesFor] at ho

/-- After a claim by another attempt, a pause or a cancellation the lease is not `a`'s; after a
completion it is not, or the execution is over by the hand of `a`. -/
theorem Committed.fenced (h : Committed w op w') (hf : op.fences) (hs : ¬ op.startsFor a) :
    w'.leasedBy ≠ some a ∨ op.completesFor a ∧ w'.status ∈ terminalStatuses := by
  cases h with
  | started => exact Or.inl fun he => hs (Option.some.inj he)
  | paused => exact Or.inl (by simp [World.leasedBy, World.withExecution])
  | cancelled => exact Or.inl (by simp [World.leasedBy, World.withExecution])
  | @completed b _ input _ owner live row =>
    subst row
    by_cases hb : b = a
    · exact Or.inr ⟨hb, input.allowed⟩
    · refine Or.inl fun he => hb (Option.some.inj (owner.symm.trans he))
  | _ => simp [Op.fences] at hf

theorem Committed.environmentId (h : Committed w op w') :
    w'.record.execution.environmentId = w.record.execution.environmentId := by
  cases h with
  | completed _ _ row => rw [row]
  | _ => rfl

section Runs
variable [Columns]

theorem commit_cases (h : w.commit op = some w') : Committed w op w' := by
  cases op with
  | tick elapsed =>
    obtain rfl := Option.some.inj h
    exact .tick elapsed
  | startExecution a expiry =>
    obtain ⟨e, he, rfl⟩ := Option.map_eq_some_iff.mp h
    obtain ⟨hg, rfl⟩ := Execution.startExecution_some he
    exact .started (hg.imp_right And.left)
  | renewLease a expiry =>
    obtain ⟨e, he, rfl⟩ := Option.map_eq_some_iff.mp h
    obtain ⟨_, rfl⟩ := Execution.renewLease_some he
    exact .renewed
  | writeStepAndCheckpoint a step checkpoint =>
    simp only [World.commit] at h
    split at h
    · rename_i r hr
      obtain ⟨hl, _, steps, checkpoints, _, _, rfl⟩ := writeStepAndCheckpoint_written hr
      obtain rfl := Option.some.inj h
      exact .wrote (Execution.isLeaseValid_leasedBy hl)
    · cases h
  | recordResumeEvent a =>
    simp only [World.commit] at h
    split at h
    · rename_i r hr
      obtain ⟨hl, steps, _, rfl⟩ := recordResumeEvent_written hr
      obtain rfl := Option.some.inj h
      exact .marked (Execution.isLeaseValid_leasedBy hl)
    · cases h
  | pauseExecution a =>
    obtain ⟨e, he, rfl⟩ := Option.map_eq_some_iff.mp h
    obtain ⟨⟨hl, hs⟩, rfl⟩ := Execution.pauseExecution_some he
    exact .paused (Execution.isLeaseValid_leasedBy hl) hs
  | completeExecution a audienceExists input =>
    simp only [World.commit] at h
    split at h
    · rename_i e event he
      obtain ⟨⟨hl, hs⟩, hrow, rfl⟩ := Execution.completeExecution_some he
      obtain rfl := Option.some.inj h
      exact .completed (Execution.isLeaseValid_leasedBy hl) hs hrow
    · cases h
  | requeue =>
    obtain ⟨e, he, rfl⟩ := Option.map_eq_some_iff.mp h
    obtain ⟨hs, rfl⟩ := Execution.requeue_some he
    exact .requeued hs
  | cancelExecutionWithPendingApproval environmentId pending executing =>
    simp only [World.commit] at h
    split_ifs at h
    obtain ⟨e, he, rfl⟩ := Option.map_eq_some_iff.mp h
    obtain ⟨⟨_, hs⟩, rfl⟩ := Execution.cancelExecution_some he
    exact .cancelled hs

/-- An invariant kept by every committed transaction holds after any run. -/
theorem run_invariant {P : World → Prop} (step : ∀ w op w', P w → Committed w op w' → P w')
    {ops : List Op} (start : P w) : P (w.run ops) := by
  induction ops generalizing w with
  | nil => exact start
  | cons op ops ih =>
    refine ih (w := w.apply op) ?_
    unfold World.apply
    cases h : w.commit op with
    | none => exact start
    | some w' => exact step w op w' start (commit_cases h)

theorem run_append (w : World) (xs ys : List Op) : w.run (xs ++ ys) = (w.run xs).run ys := by
  simp [World.run, List.foldl_append]

theorem run_cons (w : World) (op : Op) (ops : List Op) :
    w.run (op :: ops) = (w.apply op).run ops := rfl

theorem run_leasedBy {ops : List Op} (ha : w.leasedBy ≠ some a)
    (hs : ∀ op ∈ ops, ¬ op.startsFor a) : (w.run ops).leasedBy ≠ some a := by
  induction ops generalizing w with
  | nil => exact ha
  | cons op ops ih =>
    refine ih (w := w.apply op) ?_ fun o ho => hs o (List.mem_cons_of_mem op ho)
    unfold World.apply
    cases h : w.commit op with
    | none => exact ha
    | some w' => exact (commit_cases h).leasedBy ha (hs op List.mem_cons_self)

theorem run_terminal {ops : List Op} (ht : w.status ∈ terminalStatuses) :
    (w.run ops).status = w.status := by
  refine run_invariant (P := fun v => v.status = w.status) ?_ rfl
  intro v op v' hv hc
  exact (hc.terminal (hv ▸ ht)).trans hv

/-- One fenced-off write: nothing that comes after the fence commits for `a`, but for a record after
its own completion. -/
theorem late_write_fails {pre mid post : List Op} {fence late : Op}
    (order : (pre ++ fence :: (mid ++ late :: post)).Pairwise Op.DistinctAttempts)
    (started : ∃ op ∈ pre, op.startsFor a) (hf : fence.fences)
    (hc : ((w.run pre).commit fence).isSome)
    (hl : late.recordsFor a ∨ late.pausesFor a ∨ late.completesFor a)
    (hown : ¬ (fence.completesFor a ∧ late.recordsFor a)) :
    (w.run (pre ++ fence :: mid)).commit late = none := by
  obtain ⟨_, _, hcross⟩ := List.pairwise_append.mp order
  obtain ⟨first, hfirst, hfs⟩ := started
  have hnostart : ∀ op ∈ fence :: (mid ++ late :: post), ¬ op.startsFor a := fun op hop =>
    hcross first hfirst op hop a hfs
  obtain ⟨v, hv⟩ := Option.isSome_iff_exists.mp hc
  have hrun : w.run (pre ++ fence :: mid) = v.run mid := by
    rw [run_append, run_cons, World.apply, hv]
    rfl
  rw [hrun]
  cases hcommit : (v.run mid).commit late with
  | none => rfl
  | some v' =>
    obtain ⟨howner, hlive⟩ := (commit_cases hcommit).owner hl
    rcases (commit_cases hv).fenced hf (hnostart fence List.mem_cons_self) with hne | ⟨hdone, ht⟩
    · refine absurd howner (run_leasedBy hne fun op hop => hnostart op ?_)
      exact List.mem_cons_of_mem _ (List.mem_append_left _ hop)
    · have hlive := hlive fun hrecords => hown ⟨hdone, hrecords⟩
      rw [run_terminal ht] at hlive
      exact absurd ht hlive

/-- Lease fencing, over every interleaving of attempts, decisions, timers and cancellations.
Once anyone has claimed, paused, cancelled or completed the execution, no attempt that started
before ever commits a step, a checkpoint, a resume marker, a pause or a completion, but for the
steps and markers of the attempt that has itself completed it; a terminal status is final; and
exactly one event tells of a completion in an environment. -/
theorem lease_fencing (id workspaceId : String)
    (environmentId externalSubjectRecordId conversationId : Option String) (clock : ℕ)
    (ops : List Op) (order : ops.Pairwise Op.DistinctAttempts) :
    let start : World :=
      ⟨clock, created id workspaceId environmentId externalSubjectRecordId conversationId⟩
    (∀ pre fence mid late post a, ops = pre ++ fence :: (mid ++ late :: post) →
      (∃ op ∈ pre, op.startsFor a) → fence.fences → ((start.run pre).commit fence).isSome →
      (late.recordsFor a ∨ late.pausesFor a ∨ late.completesFor a) →
      ¬ (fence.completesFor a ∧ late.recordsFor a) →
      (start.run (pre ++ fence :: mid)).commit late = none) ∧
    (∀ pre post, ops = pre ++ post → (start.run pre).status ∈ terminalStatuses →
      (start.run ops).status = (start.run pre).status) ∧
    ((start.run ops).status = .succeeded → environmentId.isSome →
      ∃ event, (start.run ops).record.events = [event] ∧ event.eventType = .executionCompleted) ∧
    ((start.run ops).status = .failed → environmentId.isSome →
      ∃ event, (start.run ops).record.events = [event] ∧ event.eventType = .executionFailed) ∧
    ((start.run ops).status = .cancelled → (start.run ops).record.events = []) := by
  intro start
  have hstart : Published start := by
    simp [Published, start, created, Execution.completionEvent_none]
  have hpub : Published (start.run ops) :=
    run_invariant (P := Published) (fun _ _ _ hp hc => hc.published hp) hstart
  have henv : (start.run ops).record.execution.environmentId = environmentId :=
    run_invariant (P := fun v => v.record.execution.environmentId = environmentId)
      (fun _ _ _ hp hc => hc.environmentId.trans hp) rfl
  rw [Published] at hpub
  refine ⟨?_, ?_, fun hs he => ?_, fun hs he => ?_, fun hs => ?_⟩
  · rintro pre fence mid late post a rfl started hf hc hl hown
    exact late_write_fails order started hf hc hl hown
  · rintro pre post rfl ht
    rw [run_append, run_terminal ht]
  · obtain ⟨event, hev, htype⟩ := Execution.completionEvent_succeeded (henv ▸ he) hs
    exact ⟨event, by simp [hpub, hev], htype⟩
  · obtain ⟨event, hev, htype⟩ := Execution.completionEvent_failed (henv ▸ he) hs
    exact ⟨event, by simp [hpub, hev], htype⟩
  · have hs : (start.run ops).record.execution.status = .cancelled := hs
    rw [hpub, Execution.completionEvent_none (by simp [hs]) (by simp [hs])]
    rfl

end Runs

open scoped Unchanged

/-- Two attempts: the second claims after the lease of the first ran out, and completes. -/
def takeover : List Op :=
  [.startExecution "first" 30, .tick 31, .startExecution "second" 61,
    .completeExecution "first" true ⟨.succeeded, none, succeeded_terminal⟩,
    .completeExecution "second" true ⟨.failed, some ⟨"no handler", none⟩, failed_terminal⟩]

theorem takeover_order : takeover.Pairwise Op.DistinctAttempts := by
  simp [takeover, Op.DistinctAttempts, Op.startsFor]

theorem lease_fencing_takeover :
    let start : World := ⟨0, created "e" "w" (some "env") none none⟩
    (start.run (takeover.take 3)).commit
        (.completeExecution "first" true ⟨.succeeded, none, succeeded_terminal⟩) = none ∧
      (start.run takeover).status = .failed ∧
      ∃ event, (start.run takeover).record.events = [event] ∧
        event.eventType = .executionFailed := by
  have h := lease_fencing "e" "w" (some "env") none none 0 takeover takeover_order
  refine ⟨?_, rfl, h.2.2.2.1 rfl rfl⟩
  exact h.1 [.startExecution "first" 30, .tick 31] (.startExecution "second" 61) []
    (.completeExecution "first" true ⟨.succeeded, none, succeeded_terminal⟩) _ "first" rfl
    ⟨_, List.mem_cons_self, rfl⟩ trivial rfl (.inr (.inr rfl)) fun hown => hown.1

/-- An attempt that completes the execution and goes on to record a step. -/
def recordedAfterwards : List Op :=
  [.startExecution "first" 30,
    .completeExecution "first" true ⟨.succeeded, none, succeeded_terminal⟩]

/-- The step and its checkpoint commit: the write looks at owner and expiry only. -/
theorem completed_attempt_records :
    let start : World := ⟨0, created "e" "w" (some "env") none none⟩
    let late : Op := .writeStepAndCheckpoint "first"
      { name := "node", status := .succeeded, nodeId := "node", sequence := 1, attempt := 1,
        input := .null, output := .null, error := none, usage := none, idempotencyKey := none,
        isSystemEvent := false }
      { sequence := 1, completedStepIds := [], context := [], vars := .object [] }
    (recordedAfterwards ++ [late]).Pairwise Op.DistinctAttempts ∧
      (start.run recordedAfterwards).status = .succeeded ∧
      ((start.run recordedAfterwards).commit late).isSome = true := by
  refine ⟨?_, rfl, rfl⟩
  simp [recordedAfterwards, Op.DistinctAttempts, Op.startsFor]

end Linea.Lease
