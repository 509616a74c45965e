import Linea.Execution

/-! Approval Requests, Action Intents and wait timers of all executions, and the transactions
that move executions in and out of the paused status. The tables are keyed by id. Checks that
read other tables (sessions, reviewers, connection and subject status) are the `admitted`
arguments: a transaction that is not admitted changes nothing. -/
namespace Linea

inductive ApprovalRequestStatus
  | pending
  | decided
  | cancelled
  deriving DecidableEq, Repr

inductive ApprovalTimeoutAction
  | autoReject
  | autoApprove
  deriving DecidableEq, Repr

inductive ApprovalAudience
  | workspace
  | externalSubject
  deriving DecidableEq, Repr

structure ApprovalRequest where
  workspaceId : String
  executionId : String
  nodeId : String
  audience : ApprovalAudience
  status : ApprovalRequestStatus
  expiresAt : Option ℕ
  timeoutAction : Option ApprovalTimeoutAction
  actionIntentDigest : Option String
  deriving DecidableEq, Repr

inductive ActionIntentStatus
  | awaitingConsent
  | ready
  | executing
  | succeeded
  | failed
  | stale
  | rejected
  | cancelled
  | outcomeUnknown
  deriving DecidableEq, Repr

structure ActionIntent where
  workspaceId : String
  executionId : String
  nodeId : String
  approvalRequestId : String
  connectionId : String
  connectionAccessGrantId : Option String
  externalSubjectId : String
  invocationIdempotencyKey : String
  canonicalDigest : String
  status : ActionIntentStatus
  deriving DecidableEq, Repr

structure WaitTimer where
  workspaceId : String
  executionId : String
  nodeId : String
  resumeAt : ℕ
  fired : Bool
  deriving DecidableEq, Repr

structure Database where
  clock : ℕ
  executions : OrderedMap String Execution
  approvalRequests : OrderedMap String ApprovalRequest
  actionIntents : OrderedMap String ActionIntent
  waitTimers : OrderedMap String WaitTimer

/-- Whose intents a cancellation covers. -/
inductive CancellationScope
  | connection (id : String)
  | connectionAccessGrant (id : String)
  | execution (id : String)
  | externalSubject (id : String)
  deriving DecidableEq, Repr

namespace Database

/-- `cancellationScopePredicate` within the workspace. -/
def inScope (workspaceId : String) (scope : CancellationScope) (intent : ActionIntent) : Bool :=
  intent.workspaceId = workspaceId &&
    match scope with
    | .connection id => intent.connectionId = id
    | .connectionAccessGrant id => intent.connectionAccessGrantId = some id
    | .execution id => intent.executionId = id
    | .externalSubject id => intent.externalSubjectId = id

def cancellable (intent : ActionIntent) : Bool :=
  intent.status = .awaitingConsent ∨ intent.status = .ready

def scopedIntents (db : Database) (workspaceId : String) (scope : CancellationScope) :
    List ActionIntent :=
  (db.actionIntents.entries.map Prod.snd).filter (inScope workspaceId scope)

/-- The requests of the intents in scope, whatever the status of the intent. -/
def scopedRequestIds (db : Database) (workspaceId : String) (scope : CancellationScope) :
    List String :=
  (db.scopedIntents workspaceId scope).map ActionIntent.approvalRequestId

/-- Cancel the cancellable intents in scope and every pending request of an intent in scope. -/
def cancelScoped (db : Database) (workspaceId : String) (scope : CancellationScope) : Database :=
  { db with
    actionIntents := db.actionIntents.mapValues fun _ intent =>
      if inScope workspaceId scope intent ∧ cancellable intent then
        { intent with status := .cancelled }
      else intent
    approvalRequests := db.approvalRequests.mapValues fun id request =>
      if id ∈ db.scopedRequestIds workspaceId scope ∧ request.status = .pending then
        { request with status := .cancelled }
      else request }

structure CancellationResult where
  db : Database
  cancelled : Bool
  executing : Bool

def cancelNonExecutingActionIntents (db : Database) (workspaceId : String)
    (scope : CancellationScope) : CancellationResult :=
  let locked := db.scopedIntents workspaceId scope
  let executing := locked.any fun intent => intent.status = .executing
  -- an execution is not cancelled under an intent that is being executed
  if (match scope with | .execution _ => executing | _ => false) then ⟨db, false, executing⟩
  else if locked.any cancellable then ⟨db.cancelScoped workspaceId scope, true, executing⟩
  else ⟨db, false, executing⟩

/-- `update executions set ... where id = executionId`, when the statement matches the row. -/
def updateExecution (db : Database) (executionId : String) (f : Execution → Option Execution) :
    Option Database :=
  match db.executions.get? executionId with
  | none => none
  | some e => (f e).map fun e' => { db with executions := db.executions.set executionId e' }

def findRequest (db : Database) (executionId nodeId : String) :
    Option (String × ApprovalRequest) :=
  db.approvalRequests.entries.find? fun p => p.2.executionId = executionId ∧ p.2.nodeId = nodeId

def findTimer (db : Database) (executionId nodeId : String) : Option (String × WaitTimer) :=
  db.waitTimers.entries.find? fun p => p.2.executionId = executionId ∧ p.2.nodeId = nodeId

/-- `approval_requests_expiry_check`: a request has both an expiry and a timeout action or none. -/
def expiryCheck (now : ℕ) (request : ApprovalRequest) : Bool :=
  match request.expiresAt, request.timeoutAction with
  | none, none => true
  | some t, some _ => now < t
  | _, _ => false

/-- Insert under a fresh id, pending by default; a second request for the node is dropped. -/
def createApprovalRequest (db : Database) (id : String) (request : ApprovalRequest) :
    Option Database :=
  if id ∈ db.approvalRequests.keys ∨ (db.findRequest request.executionId request.nodeId).isSome ∨
      expiryCheck db.clock request = false then none
  else
    some { db with
      approvalRequests := db.approvalRequests.set id { request with status := .pending } }

def createWaitTimer (db : Database) (id : String) (timer : WaitTimer) : Option Database :=
  if id ∈ db.waitTimers.keys ∨ (db.findTimer timer.executionId timer.nodeId).isSome then none
  else some { db with waitTimers := db.waitTimers.set id { timer with fired := false } }

structure CreateActionIntentInput where
  workspaceId : String
  executionId : String
  nodeId : String
  connectionId : String
  invocationIdempotencyKey : String
  canonicalDigest : String
  expiresAt : Option ℕ

def findInvokedActionIntent (db : Database) (input : CreateActionIntentInput) :
    Option (String × ActionIntent) :=
  db.actionIntents.entries.find? fun p => p.2.executionId = input.executionId ∧
    p.2.nodeId = input.nodeId ∧ p.2.invocationIdempotencyKey = input.invocationIdempotencyKey

/-- The request of the intent: a new one, or the node's own if it asks for the same action. -/
def intentRequest (db : Database) (requestId : String) (input : CreateActionIntentInput) :
    Option (String × Database) :=
  match db.findRequest input.executionId input.nodeId with
  | some (id, request) =>
    if request.audience = .externalSubject ∧ request.timeoutAction = some .autoReject ∧
        request.actionIntentDigest = some input.canonicalDigest then some (id, db)
    else none
  | none =>
    (db.createApprovalRequest requestId
      { workspaceId := input.workspaceId, executionId := input.executionId,
        nodeId := input.nodeId, audience := .externalSubject, status := .pending,
        expiresAt := input.expiresAt, timeoutAction := some .autoReject,
        actionIntentDigest := some input.canonicalDigest }).map fun db => (requestId, db)

/-- `createActionIntent`; `admitted` stands for the authority of connection, environment and
subject, `grantId` for the requester's grant. -/
def createActionIntent (db : Database) (admitted : Bool) (grantId : Option String)
    (requestId intentId : String) (input : CreateActionIntentInput) : Option Database :=
  if (db.findInvokedActionIntent input).isSome then none
  else
    match db.executions.get? input.executionId with
    | none => none
    | some execution =>
      match execution.environmentId, execution.externalSubjectRecordId with
      | some _, some subject =>
        if execution.workspaceId = input.workspaceId ∧ admitted ∧ execution.status = .running then
          match db.intentRequest requestId input with
          | none => none
          | some (requestId, db) =>
            -- ids and requests are unique among intents; a violation rolls everything back
            if intentId ∈ db.actionIntents.keys ∨
                requestId ∈ db.actionIntents.entries.map fun p => p.2.approvalRequestId then none
            else
              some { db with
                actionIntents := db.actionIntents.set intentId
                  { workspaceId := input.workspaceId, executionId := input.executionId,
                    nodeId := input.nodeId, approvalRequestId := requestId,
                    connectionId := input.connectionId, connectionAccessGrantId := grantId,
                    externalSubjectId := subject,
                    invocationIdempotencyKey := input.invocationIdempotencyKey,
                    canonicalDigest := input.canonicalDigest, status := .awaitingConsent } }
        else none
      | _, _ => none

/-- The request and the pause are one transaction. -/
def claimPauseForPendingApprovalRequest (db : Database)
    (workspaceId executionId nodeId leasedBy : String) : Option Database :=
  match db.findRequest executionId nodeId with
  | some (_, request) =>
    if request.workspaceId = workspaceId ∧ request.status = .pending then
      db.updateExecution executionId fun e => e.pauseExecution db.clock leasedBy
    else none
  | none => none

def claimPauseForPendingWait (db : Database) (workspaceId executionId nodeId leasedBy : String) :
    Option Database :=
  match db.findTimer executionId nodeId with
  | some (_, timer) =>
    if timer.workspaceId = workspaceId ∧ timer.fired = false then
      db.updateExecution executionId fun e => e.pauseExecution db.clock leasedBy
    else none
  | none => none

/-- `resumeDecisionExecution`: only a paused execution is put back into the queue. -/
def resumeExecution (db : Database) (executionId : String) : Database :=
  (db.updateExecution executionId Execution.requeue).getD db

/-- `recordDecision` on a locked, pending request. -/
def recordDecision (db : Database) (id : String) (request : ApprovalRequest) : Database :=
  let decided := { db with
    approvalRequests := db.approvalRequests.set id { request with status := .decided } }
  decided.resumeExecution request.executionId

def expired (now : ℕ) (request : ApprovalRequest) : Bool :=
  match request.expiresAt with
  | some t => t ≤ now
  | none => false

/-- A decision by a workspace member or an external subject. On an expired request it becomes the
timeout decision, which throws without a timeout action. -/
def decideApprovalRequest (db : Database) (admitted : Bool) (id : String) : Option Database :=
  match db.approvalRequests.get? id with
  | none => none
  | some request =>
    if admitted ∧ request.status = .pending ∧
        (expired db.clock request → request.timeoutAction.isSome) then
      some (db.recordDecision id request)
    else none

def claimAndDecideTimedOutApprovalRequest (db : Database) (id : String) : Option Database :=
  match db.approvalRequests.get? id with
  | none => none
  | some request =>
    if request.status = .pending ∧ expired db.clock request ∧ request.timeoutAction.isSome then
      some (db.recordDecision id request)
    else none

def claimAndResolveDueWaitTimer (db : Database) (id : String) : Option Database :=
  match db.waitTimers.get? id with
  | none => none
  | some timer =>
    if timer.fired = false ∧ timer.resumeAt ≤ db.clock then
      let fired := { db with waitTimers := db.waitTimers.set id { timer with fired := true } }
      some (fired.resumeExecution timer.executionId)
    else none

/-- Pending requests of the execution, with their ids. -/
def pendingRequests (db : Database) (workspaceId executionId : String) :
    List (String × ApprovalRequest) :=
  db.approvalRequests.entries.filter fun p =>
    p.2.workspaceId = workspaceId ∧ p.2.executionId = executionId ∧ p.2.status = .pending

def cancelExecutionWithPendingApproval (db : Database)
    (workspaceId environmentId executionId : String) : Option Database :=
  let pending := db.pendingRequests workspaceId executionId
  match db.executions.get? executionId with
  | none => none
  | some e =>
    if pending.length ≤ 1 ∧ e.workspaceId = workspaceId then
      match e.cancelExecution environmentId db.clock with
      | none => none
      | some cancelled =>
        let result := db.cancelNonExecutingActionIntents workspaceId (.execution executionId)
        if result.executing then none
        else
          let db := { result.db with executions := result.db.executions.set executionId cancelled }
          match result.cancelled, pending.head? with
          | false, some (id, request) =>
            some { db with
              approvalRequests := db.approvalRequests.set id { request with status := .cancelled } }
          | _, _ => some db
    else none

/-- The revocations of a connection, a grant or a subject, as far as these tables go. -/
def revoke (db : Database) (workspaceId : String) (scope : CancellationScope) : Database :=
  (db.cancelNonExecutingActionIntents workspaceId scope).db

theorem updateExecution_some {db db' : Database} {id : String} {f : Execution → Option Execution}
    (h : db.updateExecution id f = some db') : ∃ e e', db.executions.get? id = some e ∧
      f e = some e' ∧ db' = { db with executions := db.executions.set id e' } := by
  unfold updateExecution at h
  cases he : db.executions.get? id with
  | none => simp [he] at h
  | some e =>
    simp only [he] at h
    obtain ⟨e', hf, rfl⟩ := Option.map_eq_some_iff.mp h
    exact ⟨e, e', rfl, hf, rfl⟩

theorem createApprovalRequest_some {db db' : Database} {id : String} {request : ApprovalRequest}
    (h : db.createApprovalRequest id request = some db') :
    id ∉ db.approvalRequests.keys ∧
      (request.expiresAt.isSome → request.timeoutAction.isSome) ∧
      db' = { db with
        approvalRequests := db.approvalRequests.set id { request with status := .pending } } := by
  unfold createApprovalRequest at h
  split_ifs at h with hg
  obtain rfl := Option.some.inj h
  simp only [not_or] at hg
  refine ⟨hg.1, fun hx => ?_, rfl⟩
  have hcheck := hg.2.2
  unfold expiryCheck at hcheck
  cases ht : request.timeoutAction with
  | some _ => rfl
  | none =>
    obtain ⟨t, hx⟩ := Option.isSome_iff_exists.mp hx
    simp [hx, ht] at hcheck

theorem findRequest_some {db : Database} {executionId nodeId id : String}
    {request : ApprovalRequest} (h : db.findRequest executionId nodeId = some (id, request)) :
    db.approvalRequests.get? id = some request ∧ request.executionId = executionId := by
  refine ⟨OrderedMap.get?_iff_mem.mpr (List.mem_of_find?_eq_some h), ?_⟩
  have := List.find?_some h
  simp only [decide_eq_true_eq] at this
  exact this.1

theorem findTimer_some {db : Database} {executionId nodeId id : String} {timer : WaitTimer}
    (h : db.findTimer executionId nodeId = some (id, timer)) :
    db.waitTimers.get? id = some timer ∧ timer.executionId = executionId := by
  refine ⟨OrderedMap.get?_iff_mem.mpr (List.mem_of_find?_eq_some h), ?_⟩
  have := List.find?_some h
  simp only [decide_eq_true_eq] at this
  exact this.1

/-- A new intent belongs to a request of its own execution, which is found or created for it. -/
theorem createActionIntent_some {db db' : Database} {admitted : Bool} {grantId : Option String}
    {requestId intentId : String} {input : CreateActionIntentInput}
    (h : db.createActionIntent admitted grantId requestId intentId input = some db') :
    ∃ db1 request intent, db1.approvalRequests.get? intent.approvalRequestId = some request ∧
      request.executionId = intent.executionId ∧
      (db1 = db ∨ ∃ request, db.createApprovalRequest requestId request = some db1) ∧
      db' = { db1 with actionIntents := db1.actionIntents.set intentId intent } := by
  unfold createActionIntent at h
  split_ifs at h
  split at h
  · cases h
  · split at h
    · rename_i execution _ _ subject _ _
      split_ifs at h
      split at h
      · cases h
      · rename_i id db1 hreq
        split_ifs at h
        obtain rfl := (Option.some.inj h).symm
        unfold intentRequest at hreq
        split at hreq
        · rename_i id' request hfind
          split_ifs at hreq
          obtain ⟨rfl, rfl⟩ := Prod.mk.inj (Option.some.inj hreq)
          obtain ⟨hget, hex⟩ := findRequest_some hfind
          exact ⟨db, request, _, hget, hex, Or.inl rfl, rfl⟩
        · obtain ⟨db2, hcreate, hpair⟩ := Option.map_eq_some_iff.mp hreq
          obtain ⟨rfl, rfl⟩ := Prod.mk.inj hpair
          obtain ⟨_, _, rfl⟩ := createApprovalRequest_some hcreate
          exact ⟨_, _, _, OrderedMap.get?_set_self _ _ _, rfl, Or.inr ⟨_, hcreate⟩, rfl⟩
    · cases h

/-- What a cancellation of an execution leaves: its row is cancelled, its intents are, and its
pending request is, whether it came with an intent or not. -/
theorem cancelExecutionWithPendingApproval_some {db db' : Database}
    {workspaceId environmentId executionId : String}
    (h : db.cancelExecutionWithPendingApproval workspaceId environmentId executionId = some db') :
    ∃ cancelled, cancelled.status = .cancelled ∧
      let result := db.cancelNonExecutingActionIntents workspaceId (.execution executionId)
      let rest := { result.db with executions := result.db.executions.set executionId cancelled }
      db' = rest ∨ result.cancelled = false ∧
        ∃ id request, db.approvalRequests.get? id = some request ∧
          request.executionId = executionId ∧
          db' = { rest with
            approvalRequests :=
              rest.approvalRequests.set id { request with status := .cancelled } } := by
  unfold cancelExecutionWithPendingApproval at h
  cases he : db.executions.get? executionId with
  | none => simp [he] at h
  | some e =>
    simp only [he] at h
    split_ifs at h with hg hx
    · cases hcancel : e.cancelExecution environmentId db.clock <;> simp [hcancel] at h
    · cases hcancel : e.cancelExecution environmentId db.clock with
      | none => simp [hcancel] at h
      | some cancelled =>
        simp only [hcancel] at h
        refine ⟨cancelled, ?_, ?_⟩
        · obtain ⟨_, rfl⟩ := Execution.cancelExecution_some hcancel
          rfl
        · split at h
          · rename_i id request hflag hhead
            obtain rfl := Option.some.inj h
            obtain ⟨hmem, hp⟩ := List.mem_filter.mp (List.mem_of_head? hhead)
            simp only [decide_eq_true_eq] at hp
            exact Or.inr ⟨hflag, id, request, OrderedMap.get?_iff_mem.mpr hmem, hp.2.1, rfl⟩
          · exact Or.inl (Option.some.inj h).symm

end Database
end Linea
