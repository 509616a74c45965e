import Linea.Graph

/-! The row of an execution and the statements of `execution.repository.ts` that change its
status and its lease. Usage totals are not modelled. Each function takes the reading of the
clock its statement compares with, and answers `none` when it changes nothing. -/
namespace Linea

inductive ExecutionStatus
  | queued
  | running
  | paused
  | succeeded
  | failed
  | cancelled
  deriving DecidableEq, Repr

def terminalStatuses : List ExecutionStatus := [.succeeded, .failed, .cancelled]

lemma succeeded_terminal : .succeeded ∈ terminalStatuses := List.mem_cons_self

lemma failed_terminal : .failed ∈ terminalStatuses := List.mem_cons_of_mem _ List.mem_cons_self

structure ExecutionError where
  message : String
  stepId : Option String
  deriving DecidableEq, Repr

structure Execution where
  id : String
  workspaceId : String
  environmentId : Option String
  externalSubjectRecordId : Option String
  conversationId : Option String
  status : ExecutionStatus
  leasedBy : Option String
  leaseExpiresAt : Option ℕ
  startedAt : Option ℕ
  completedAt : Option ℕ
  error : Option ExecutionError
  deriving DecidableEq, Repr

inductive EventType
  | executionCompleted
  | executionFailed
  deriving DecidableEq, Repr

def EventType.name : EventType → String
  | .executionCompleted => "execution.completed"
  | .executionFailed => "execution.failed"

/-- A public event about an execution, as it is written to the outbox. -/
structure PublicEvent where
  workspaceId : String
  environmentId : String
  externalSubjectId : Option String
  eventType : EventType
  executionId : String
  status : ExecutionStatus
  conversationId : Option String
  deriving DecidableEq, Repr

structure CompleteExecutionInput where
  status : ExecutionStatus
  error : Option ExecutionError
  allowed : status ∈ terminalStatuses

namespace Execution

/-- `leaseExpiresAt < now`; a null expiry compares as false. -/
def leaseExpired (now : ℕ) (e : Execution) : Bool :=
  match e.leaseExpiresAt with
  | some t => t < now
  | none => false

/-- `isLeaseValid`: the lease is the caller's and has not run out. -/
def isLeaseValid (now : ℕ) (e : Execution) (leasedBy : String) : Bool :=
  e.leasedBy = some leasedBy ∧
    (match e.leaseExpiresAt with
      | some t => decide (now < t)
      | none => false) = true

/-- Claims a queued execution, or a running one whose lease ran out. -/
def startExecution (now : ℕ) (e : Execution) (leasedBy : String) (leaseExpiresAt : ℕ) :
    Option Execution :=
  if e.status = .queued ∨ e.status = .running ∧ e.leaseExpired now then
    some { e with status := .running, leasedBy := some leasedBy,
                  leaseExpiresAt := some leaseExpiresAt, startedAt := some now }
  else none

def renewLease (now : ℕ) (e : Execution) (leasedBy : String) (leaseExpiresAt : ℕ) :
    Option Execution :=
  if e.status = .running ∧ e.isLeaseValid now leasedBy then
    some { e with leaseExpiresAt := some leaseExpiresAt }
  else none

/-- The event that goes out with a completion, if the execution has an environment. -/
def completionEvent (e : Execution) : Option PublicEvent :=
  match e.environmentId, e.status with
  | some environmentId, .succeeded =>
    some ⟨e.workspaceId, environmentId, e.externalSubjectRecordId, .executionCompleted, e.id,
      e.status, e.conversationId⟩
  | some environmentId, .failed =>
    some ⟨e.workspaceId, environmentId, e.externalSubjectRecordId, .executionFailed, e.id,
      e.status, e.conversationId⟩
  | _, _ => none

/-- One transaction: without the audience row of its external subject the event cannot be
written, and the completion is rolled back with it. -/
def completeExecution (now : ℕ) (audienceExists : Bool) (e : Execution) (leasedBy : String)
    (input : CompleteExecutionInput) : Option (Execution × Option PublicEvent) :=
  if e.isLeaseValid now leasedBy ∧ e.status ∉ terminalStatuses then
    let completed := { e with status := input.status, error := input.error,
                              completedAt := some now }
    let event := completed.completionEvent
    if event.isSome ∧ e.externalSubjectRecordId.isSome ∧ ¬ audienceExists then none
    else some (completed, event)
  else none

/-- Releases the lease and leaves the execution resumable. -/
def pauseExecution (now : ℕ) (e : Execution) (leasedBy : String) : Option Execution :=
  if e.isLeaseValid now leasedBy ∧ e.status ∉ terminalStatuses then
    some { e with status := .paused, leasedBy := none, leaseExpiresAt := none }
  else none

/-- The update that `resumeDecisionExecution` and `claimAndResolveDueWaitTimer` share. -/
def requeue (e : Execution) : Option Execution :=
  if e.status = .paused then some { e with status := .queued } else none

/-- The execution's part of `cancelExecutionWithPendingApproval`. -/
def cancelExecution (e : Execution) (environmentId : String) (cancelledAt : ℕ) :
    Option Execution :=
  if e.environmentId = some environmentId ∧ e.status ∈ [.queued, .running, .paused] then
    some { e with status := .cancelled, completedAt := some cancelledAt, leasedBy := none,
                  leaseExpiresAt := none }
  else none

variable {now : ℕ} {e e' : Execution} {a : String}

theorem isLeaseValid_leasedBy (h : e.isLeaseValid now a = true) : e.leasedBy = some a := by
  simp only [isLeaseValid, decide_eq_true_eq] at h
  exact h.1

theorem startExecution_some {expiry : ℕ} (h : e.startExecution now a expiry = some e') :
    (e.status = .queued ∨ e.status = .running ∧ e.leaseExpired now = true) ∧
      e' = { e with status := .running, leasedBy := some a, leaseExpiresAt := some expiry,
                    startedAt := some now } := by
  unfold startExecution at h
  split_ifs at h with hg
  exact ⟨hg, (Option.some.inj h).symm⟩

theorem renewLease_some {expiry : ℕ} (h : e.renewLease now a expiry = some e') :
    (e.status = .running ∧ e.isLeaseValid now a = true) ∧
      e' = { e with leaseExpiresAt := some expiry } := by
  unfold renewLease at h
  split_ifs at h with hg
  exact ⟨hg, (Option.some.inj h).symm⟩

theorem completeExecution_some {audienceExists : Bool} {input : CompleteExecutionInput}
    {event : Option PublicEvent}
    (h : e.completeExecution now audienceExists a input = some (e', event)) :
    (e.isLeaseValid now a = true ∧ e.status ∉ terminalStatuses) ∧
      e' = { e with status := input.status, error := input.error, completedAt := some now } ∧
      event = e'.completionEvent := by
  unfold completeExecution at h
  split_ifs at h with hg
  simp only at h
  split_ifs at h
  obtain ⟨rfl, rfl⟩ := Prod.mk.inj (Option.some.inj h)
  exact ⟨hg, rfl, rfl⟩

theorem pauseExecution_some (h : e.pauseExecution now a = some e') :
    (e.isLeaseValid now a = true ∧ e.status ∉ terminalStatuses) ∧
      e' = { e with status := .paused, leasedBy := none, leaseExpiresAt := none } := by
  unfold pauseExecution at h
  split_ifs at h with hg
  exact ⟨hg, (Option.some.inj h).symm⟩

theorem requeue_some (h : e.requeue = some e') :
    e.status = .paused ∧ e' = { e with status := .queued } := by
  unfold requeue at h
  split_ifs at h with hg
  exact ⟨hg, (Option.some.inj h).symm⟩

theorem cancelExecution_some {environmentId : String} {cancelledAt : ℕ}
    (h : e.cancelExecution environmentId cancelledAt = some e') :
    (e.environmentId = some environmentId ∧ e.status ∈ [.queued, .running, .paused]) ∧
      e' = { e with status := .cancelled, completedAt := some cancelledAt, leasedBy := none,
                    leaseExpiresAt := none } := by
  unfold cancelExecution at h
  split_ifs at h with hg
  exact ⟨hg, (Option.some.inj h).symm⟩

/-- Only completed and failed executions have a completion event. -/
theorem completionEvent_none (h : e.status ≠ .succeeded) (h' : e.status ≠ .failed) :
    e.completionEvent = none := by
  unfold completionEvent
  split
  · contradiction
  · contradiction
  · rfl

theorem completionEvent_succeeded (he : e.environmentId.isSome) (hs : e.status = .succeeded) :
    ∃ event, e.completionEvent = some event ∧ event.eventType = .executionCompleted := by
  obtain ⟨env, henv⟩ := Option.isSome_iff_exists.mp he
  simp [completionEvent, henv, hs]

theorem completionEvent_failed (he : e.environmentId.isSome) (hs : e.status = .failed) :
    ∃ event, e.completionEvent = some event ∧ event.eventType = .executionFailed := by
  obtain ⟨env, henv⟩ := Option.isSome_iff_exists.mp he
  simp [completionEvent, henv, hs]

end Execution
end Linea
