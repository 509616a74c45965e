import Linea.WorkerRows
import Linea.Wakeup

/-! What a walk waits for. The worker's system together with the Approval Requests, Action Intents
and wait timers of its execution: the handlers of approval, connector and wait nodes look for
their row, create it outside the lease, and end with `PauseExecutionError`; decisions, timers,
revocations and cancellations run beside them. -/
namespace Linea.Worker.Pauses
open Walker

/-- `missing` marks the attempts whose handler has looked for its row and found none. `cancelling`
is a cancellation between the lock on the pending requests of its workspace and the rest. -/
structure World where
  worker : System
  approvalRequests : OrderedMap String ApprovalRequest
  actionIntents : OrderedMap String ActionIntent
  waitTimers : OrderedMap String WaitTimer
  missing : String → Bool
  cancelling : Option (String × List (String × ApprovalRequest))

inductive PauseAct
  | work (act : Act)
  | lookUp (attemptId : String) (retried : Bool)
  | createRequest (attemptId requestId : String)
      (timeout : Option (ℕ × ApprovalTimeoutAction)) (retried : Bool)
  | createTimer (attemptId timerId : String) (resumeAt : ℕ) (retried : Bool)
  | createIntent (attemptId : String) (admitted : Bool) (grantId : Option String)
      (requestId intentId connectionId canonicalDigest : String) (expiresAt : ℕ)
  | advanceIntent (intentId : String) (status : ActionIntentStatus)
  | claimPause (attemptId : String)
  | decideRequest (admitted : Bool) (requestId : String)
  | timeOutRequest (requestId : String)
  | fireTimer (timerId : String)
  | revoke (workspaceId : String) (scope : CancellationScope)
  | beginCancel (workspaceId : String)
  | finishCancel (environmentId : String)

namespace World

def execution (w : World) : Execution := w.worker.record.execution

def database (w : World) : Database :=
  ⟨w.worker.clock, OrderedMap.empty.set w.execution.id w.execution, w.approvalRequests,
    w.actionIntents, w.waitTimers⟩

def withTables (w : World) (db : Database) : World :=
  { w with approvalRequests := db.approvalRequests, actionIntents := db.actionIntents,
           waitTimers := db.waitTimers }

def withDatabase (w : World) (db : Database) : World :=
  { w.withTables db with
    worker := w.worker.withExecution
      ((db.executions.get? w.execution.id).getD w.execution) }

/-- Whether the row of a pausing node is still waited for, if it has one. -/
def rowAt (w : World) (node : WorkflowNode) : Option Bool :=
  if node.type = .wait then
    (w.database.findTimer w.execution.id node.id).map fun p => !p.2.fired
  else
    (w.database.findRequest w.execution.id node.id).map fun p => p.2.status = .pending

/-- A pausing node has an output only when its row is decided or has fired. -/
def mayOutput (w : World) (node : WorkflowNode) : Bool :=
  match node.type with
  | .approval =>
    (w.database.findRequest w.execution.id node.id).any fun p => p.2.status = .decided
  | .wait => (w.database.findTimer w.execution.id node.id).any fun p => p.2.fired
  | .connector => w.rowAt node ≠ some true
  | _ => true

/-- Steps of the worker that do not go through the tables of this module. -/
def workEnabled (w : World) : Act → Bool
  | .requeue => false
  | .cancel _ => false
  | .pause _ .pending => false
  | .pause _ .alreadyDecided => false
  | .invoke _ .pause => false
  | .invoke a (.output _) =>
    match w.worker.phase a with
    | .invoking _ p => w.mayOutput p.node
    | _ => false
  | _ => true

/-- The attempt whose handler call ends. -/
def handlerEnds : Act → Option String
  | .invoke a _ => some a
  | .throw a => some a
  | .crash a => some a
  | _ => none

/-- The handler throws `PauseExecutionError`, which a retry policy may catch. -/
def handlerPauses (w : World) (a : String) (l : Loaded) (p : Pass) (retried : Bool) : World :=
  { w with
    worker := w.worker.withPhase a (afterInvoke l p (if retried then .retry else .pause))
    missing := fun b => b ≠ a && w.missing b }

def nodeRequest (w : World) (node : WorkflowNode)
    (timeout : Option (ℕ × ApprovalTimeoutAction)) : ApprovalRequest where
  workspaceId := w.execution.workspaceId
  executionId := w.execution.id
  nodeId := node.id
  audience := .workspace
  status := .pending
  expiresAt := timeout.map Prod.fst
  timeoutAction := timeout.map Prod.snd
  actionIntentDigest := none

def nodeTimer (w : World) (node : WorkflowNode) (resumeAt : ℕ) : WaitTimer where
  workspaceId := w.execution.workspaceId
  executionId := w.execution.id
  nodeId := node.id
  resumeAt := resumeAt
  fired := false

def nodeIntent (w : World) (node : WorkflowNode) (connectionId canonicalDigest : String)
    (expiresAt : ℕ) : Database.CreateActionIntentInput where
  workspaceId := w.execution.workspaceId
  executionId := w.execution.id
  nodeId := node.id
  connectionId := connectionId
  invocationIdempotencyKey := RecordStepInput.idempotencyKey w.execution.id node.id
  canonicalDigest := canonicalDigest
  expiresAt := some expiresAt

/-- A cancellation holds the lock on the request. -/
def locked (w : World) (requestId : String) : Bool :=
  w.cancelling.any fun c => c.2.any fun p => p.1 = requestId

def lockedAt (w : World) (node : WorkflowNode) : Bool :=
  w.cancelling.any fun c => c.2.any fun p => node.type ≠ .wait ∧ p.2.nodeId = node.id

def commit (w : World) (db : Option Database) : Option World := db.map w.withDatabase

end World

/-- `cancelExecutionWithPendingApproval` after its lock on the pending requests. -/
def cancelLocked (db : Database) (pending : List (String × ApprovalRequest))
    (workspaceId environmentId executionId : String) : Option Database :=
  match db.executions.get? executionId with
  | none => none
  | some e =>
    if pending.length ≤ 1 ∧ e.workspaceId = workspaceId then
      match e.cancelExecution environmentId db.clock with
      | none => none
      | some cancelled =>
        let result := db.cancelNonExecutingActionIntents workspaceId (.execution executionId)
        if result.executing then none
        else
          let db := { result.db with executions := result.db.executions.set executionId cancelled }
          match result.cancelled, pending.head? with
          | false, some (id, _) =>
            match db.approvalRequests.get? id with
            | some request =>
              if request.status = .pending then
                some { db with approvalRequests :=
                  db.approvalRequests.set id { request with status := .cancelled } }
              -- the locked request changed state
              else none
            | none => none
          | _, _ => some db
    else none

theorem cancelNonExecuting_unchanged {db : Database} {workspaceId : String}
    {scope : CancellationScope}
    (h : (db.cancelNonExecutingActionIntents workspaceId scope).cancelled = false) :
    (db.cancelNonExecutingActionIntents workspaceId scope).db = db := by
  revert h
  simp only [Database.cancelNonExecutingActionIntents]
  split_ifs
  · exact fun _ => rfl
  · exact fun h => (by cases h)
  · exact fun _ => rfl

/-- Run in one piece it is the transaction of `Database`. -/
theorem cancelLocked_pendingRequests (db : Database)
    (workspaceId environmentId executionId : String) :
    cancelLocked db (db.pendingRequests workspaceId executionId) workspaceId environmentId
      executionId =
    db.cancelExecutionWithPendingApproval workspaceId environmentId executionId := by
  unfold cancelLocked Database.cancelExecutionWithPendingApproval
  cases he : db.executions.get? executionId with
  | none => rfl
  | some e =>
    simp only
    split_ifs
    · rfl
    · cases e.cancelExecution environmentId db.clock with
      | none => rfl
      | some cancelled =>
        cases hnone : (db.cancelNonExecutingActionIntents workspaceId
            (.execution executionId)).cancelled with
        | true => rfl
        | false =>
          cases hhead : (db.pendingRequests workspaceId executionId).head? with
          | none => rfl
          | some p =>
            have hmem := List.mem_of_mem_head? hhead
            simp only [Database.pendingRequests, List.mem_filter, decide_eq_true_eq] at hmem
            have hget : db.approvalRequests.get? p.1 = some p.2 :=
              OrderedMap.get?_iff_mem.mpr hmem.1
            simp only [cancelNonExecuting_unchanged hnone, hget, hmem.2.2.2, if_true]
    · rfl

section Steps
variable [Columns] (g : WorkflowGraph) (payload : Value)

def pauseStep (w : World) : PauseAct → Option World
  | .work act =>
    if w.workEnabled act then
      (step g payload w.worker act).map fun worker =>
        { w with worker := worker
                 missing := fun b => World.handlerEnds act ≠ some b && w.missing b }
    else none
  | .lookUp a retried =>
    match w.worker.phase a with
    | .invoking l p =>
      if p.node.type = .approval ∨ p.node.type = .connector ∨ p.node.type = .wait then
        match w.rowAt p.node with
        | none => some { w with missing := fun b => b = a || w.missing b }
        | some true => some (w.handlerPauses a l p retried)
        -- decided, fired or cancelled: the call ends with an output or an error
        | some false => none
      else none
    | _ => none
  | .createRequest a id timeout retried =>
    match w.worker.phase a with
    | .invoking l p =>
      let request := w.nodeRequest p.node timeout
      if p.node.type = .approval ∧ w.missing a ∧ id ∉ w.approvalRequests.keys ∧
          Database.expiryCheck w.worker.clock request then
        -- a request that is there by now is kept, and the handler pauses all the same
        let db := (w.database.createApprovalRequest id request).getD w.database
        some ((w.withTables db).handlerPauses a l p retried)
      else none
    | _ => none
  | .createTimer a id resumeAt retried =>
    match w.worker.phase a with
    | .invoking l p =>
      if p.node.type = .wait ∧ w.missing a ∧ id ∉ w.waitTimers.keys then
        let db := (w.database.createWaitTimer id (w.nodeTimer p.node resumeAt)).getD w.database
        some ((w.withTables db).handlerPauses a l p retried)
      else none
    | _ => none
  | .createIntent a admitted grantId requestId intentId connectionId canonicalDigest expiresAt =>
    match w.worker.phase a with
    | .invoking _ p =>
      -- cancellations and creations of intents take the same advisory lock
      if p.node.type = .connector ∧ w.cancelling = none then
        (w.database.createActionIntent admitted grantId requestId intentId
          (w.nodeIntent p.node connectionId canonicalDigest expiresAt)).map w.withTables
      else none
    | _ => none
  | .advanceIntent id status =>
    (Wakeup.advanceActionIntent w.database id status).map w.withTables
  | .claimPause a =>
    match w.worker.phase a with
    | .pausing _ p =>
      if w.lockedAt p.node then none
      else
        let answer : PauseAnswer := if w.rowAt p.node = some true then .pending else .alreadyDecided
        (step g payload w.worker (.pause a answer)).map fun worker => { w with worker := worker }
    | _ => none
  | .decideRequest admitted id =>
    if w.locked id then none else w.commit (w.database.decideApprovalRequest admitted id)
  | .timeOutRequest id =>
    if w.locked id then none
    else w.commit (w.database.claimAndDecideTimedOutApprovalRequest id)
  | .fireTimer id => w.commit (w.database.claimAndResolveDueWaitTimer id)
  | .revoke workspaceId scope =>
    if (w.database.scopedRequestIds workspaceId scope).any w.locked then none
    else some (w.withTables (w.database.revoke workspaceId scope))
  | .beginCancel workspaceId =>
    let pending := w.database.pendingRequests workspaceId w.execution.id
    if w.cancelling.isSome then none else some { w with cancelling := some (workspaceId, pending) }
  | .finishCancel environmentId =>
    match w.cancelling with
    | none => none
    | some (workspaceId, pending) =>
      let released := { w with cancelling := none }
      match cancelLocked w.database pending workspaceId environmentId w.execution.id with
      | some db => some (released.withDatabase db)
      | none => some released

/-- An execution that has just been created has nothing to wait for. -/
def created (s : System) : World :=
  ⟨s, OrderedMap.empty, OrderedMap.empty, OrderedMap.empty, fun _ => false, none⟩

/-- States reached by runs all of whose steps are allowed. -/
inductive PauseReachable (allowed : World → PauseAct → Prop) : World → Prop
  | start (clock : ℕ) (id workspaceId : String)
      (environmentId externalSubjectRecordId conversationId : Option String) :
      PauseReachable allowed (created
        (initial clock id workspaceId environmentId externalSubjectRecordId conversationId))
  | step {w w' : World} {act : PauseAct} (before : PauseReachable allowed w) (ok : allowed w act)
      (taken : pauseStep g payload w act = some w') : PauseReachable allowed w'

def pauseRun (w : World) (acts : List PauseAct) : World :=
  acts.foldl (fun w act => (pauseStep g payload w act).getD w) w

/-- Every step of the run is allowed where it is taken. -/
def PauseAllowed (allowed : World → PauseAct → Prop) : World → List PauseAct → Prop
  | _, [] => True
  | w, act :: acts =>
    allowed w act ∧ PauseAllowed allowed ((pauseStep g payload w act).getD w) acts

end Steps

theorem PauseReachable.run [Columns] {g : WorkflowGraph} {payload : Value}
    {allowed : World → PauseAct → Prop} {w : World} {acts : List PauseAct}
    (h : PauseReachable g payload allowed w) (ok : PauseAllowed g payload allowed w acts) :
    PauseReachable g payload allowed (pauseRun g payload w acts) := by
  induction acts generalizing w with
  | nil => exact h
  | cons act acts ih =>
    obtain ⟨hact, hrest⟩ := ok
    rw [pauseRun, List.foldl_cons]
    cases hs : pauseStep g payload w act with
    | none =>
      rw [hs] at hrest
      exact ih h hrest
    | some w' =>
      rw [hs] at hrest
      exact ih (.step h hact hs) hrest

end Linea.Worker.Pauses
