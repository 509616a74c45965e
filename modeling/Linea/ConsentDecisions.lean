import Linea.ConsentRequests

/-! Decisions on Approval Requests by members, by external subjects and by time-out, and the
cancellation of requests and intents (`approval-request.repository.ts`,
`action-intent-cancellation.repository.ts`, `public-idempotency.repository.ts`). -/
namespace Linea.Consent

section Cancellation

/-- `cancellationScopePredicate` within the workspace. -/
def inScope (workspaceId : String) (scope : CancellationScope) (intent : ActionIntent) : Bool :=
  intent.workspaceId = workspaceId &&
    match scope with
    | .connection id => intent.connectionId = id
    | .connectionAccessGrant id => intent.connectionAccessGrantId = some id
    | .execution id => intent.executionId = id
    | .externalSubject id => intent.externalSubjectId = id

def Store.scopedIntents (workspaceId : String) (scope : CancellationScope) (s : Store) :
    List (String × ActionIntent) :=
  (s.intents.entries.map fun p => (p.1, p.2.row)).filter fun p => inScope workspaceId scope p.2

def cancellable (intent : ActionIntent) : Bool :=
  intent.status = .awaitingConsent ∨ intent.status = .ready

def IntentRecord.cancel (now : ℕ) (record : IntentRecord) : IntentRecord :=
  record.withRow fun row => { row with status := .cancelled, updatedAt := now }

def Store.cancelIntents (ids : List String) (now : ℕ) (s : Store) : Store :=
  { s with intents := s.intents.mapValues fun id record =>
      if id ∈ ids then record.cancel now else record }

def RequestRecord.cancel (now : ℕ) (record : RequestRecord) : RequestRecord :=
  { record with row := { record.row with
      status := .cancelled, cancelledAt := some now, version := record.row.version + 1 } }

def Store.cancelRequests (ids : List String) (now : ℕ) (s : Store) : Store :=
  { s with requests := s.requests.mapValues fun id record =>
      if id ∈ ids ∧ record.row.status = .pending then record.cancel now else record }

/-- The facts of cancelled intents, one after the other. -/
def recordCancellations (now : ℕ) : List (String × ActionIntent) → Program Unit
  | [] => pure ()
  | (id, intent) :: rest => do
    recordActionIntentFact id intent ⟨.cancelled, now, none, none⟩
    recordCancellations now rest

/-- A request without environment and subject has no event. -/
def recordApprovalCancellation (request : ApprovalRequest) : Program Unit :=
  match request.environmentId, request.externalSubjectId with
  | some environmentId, some externalSubjectId =>
    lockAudience request.workspaceId environmentId externalSubjectId
  | _, _ => pure ()

def recordApprovalCancellations : List ApprovalRequest → Program Unit
  | [] => pure ()
  | request :: rest => do
    recordApprovalCancellation request
    recordApprovalCancellations rest

structure CancellationResult where
  cancelled : List String
  executing : Bool

def CancellationScope.ofExecution : CancellationScope → Bool
  | .execution _ => true
  | _ => false

def presentRequests (ids : List String) (s : Store) : List String :=
  ids.filter fun id => (s.request id).isSome

def lockScopedIntents (workspaceId : String) (scope : CancellationScope) :
    Program (List (String × ActionIntent)) := do
  let found ← Tx.select (Store.scopedIntents workspaceId scope)
  Tx.selectForUpdate (fun _ => found.map fun p => .intent p.1) fun s =>
    (s.scopedIntents workspaceId scope).filter fun p => p.1 ∈ found.map Prod.fst

def cancelNonExecutingActionIntents (workspaceId : String) (scope : CancellationScope)
    (cancelledAt : ℕ) : Program CancellationResult := do
  let snapshots ← Tx.select (Store.scopedIntents workspaceId scope)
  if snapshots.isEmpty then return ⟨[], false⟩
  let requestIds := snapshots.map fun p => p.2.approvalRequestId
  Tx.selectForUpdate (fun s => (presentRequests requestIds s).map .request) fun _ => ()
  let locked ← lockScopedIntents workspaceId scope
  let cancellables := locked.filter fun p => cancellable p.2
  let executing := locked.any fun p => p.2.status = .executing
  -- an execution is not cancelled under an intent that is being executed
  if CancellationScope.ofExecution scope ∧ executing then return ⟨[], true⟩
  if cancellables.isEmpty then return ⟨[], executing⟩
  Tx.update (Store.cancelIntents (cancellables.map Prod.fst) cancelledAt)
  recordCancellations cancelledAt cancellables
  let requests ← Tx.selectForUpdate
    (fun s => ((presentRequests requestIds s).filter fun id =>
      (s.requestRow id).map ApprovalRequest.status = some .pending).map .request)
    fun s => (requestIds.filterMap fun id => (s.requestRow id).map fun row => (id, row)).filter
      fun p => p.2.status = .pending
  Tx.update (Store.cancelRequests (requests.map Prod.fst) cancelledAt)
  recordApprovalCancellations (requests.map Prod.snd)
  pure ⟨cancellables.map Prod.fst, executing⟩

def Store.pendingRequests (workspaceId executionId : String) (s : Store) :
    List (String × ApprovalRequest) :=
  (s.requests.entries.map fun p => (p.1, p.2.row)).filter fun p =>
    p.2.workspaceId = workspaceId ∧ p.2.executionId = executionId ∧ p.2.status = .pending

def ExecutionRecord.withRow (f : Execution → Execution) (record : ExecutionRecord) :
    ExecutionRecord :=
  { record with row := f record.row }

def cancelExecutionWithPendingApproval (workspaceId environmentId executionId : String)
    (cancelledAt : ℕ) : Program (Option Execution) := do
  Tx.selectForUpdate (fun _ => [.advisory executionId]) fun _ => ()
  let found ← Tx.select (Store.pendingRequests workspaceId executionId)
  let pending ← Tx.selectForUpdate (fun _ => found.map fun p => .request p.1) fun s =>
    (s.pendingRequests workspaceId executionId).filter fun p => p.1 ∈ found.map Prod.fst
  if pending.length > 1 then .halt "Execution has multiple pending Approval Requests"
  else do
    let cancellation := fun e : Execution => if e.workspaceId = workspaceId then
      e.cancelExecution environmentId cancelledAt else none
    let execution ← lockRow (.execution executionId) fun s =>
      (s.execution executionId).bind cancellation
    match execution with
    | none => pure none
    | some execution =>
      let intents ← cancelNonExecutingActionIntents workspaceId (.execution executionId) cancelledAt
      if intents.executing then return none
      Tx.update (Store.setExecution executionId (.withRow fun _ => execution))
      match intents.cancelled, pending with
      | [], (requestId, _) :: _ =>
        let cancelled ← lockRow (.request requestId) fun s =>
          (s.requestRow requestId).filter fun r => r.status = .pending
        match cancelled with
        | none => .halt "Locked Approval Request changed state"
        | some request => do
          Tx.update (Store.cancelRequests [requestId] cancelledAt)
          publishRequestEvent request.toQuestion
          pure (some execution)
      | _, _ => pure (some execution)

end Cancellation

section Decision

structure RecordDecisionInput where
  outcome : DecisionOutcome
  actor : DecisionActor
  reason : DecisionReason
  comment : Option String
  idempotencyKey : Option String
  decidedAt : ℕ
  reviewerAssignmentId : Option String

def recordActionIntentDecisionFact (requestId : String) (request : ApprovalRequest)
    (decision : ApprovalDecision) : Program Unit := do
  if request.actionIntentDigest = none then return
  let intent ← Tx.select (Store.intentOfRequest requestId)
  match intent with
  | none => pure ()
  | some (id, intent) =>
    recordActionIntentFact id intent
      ⟨if decision.outcome = .approved then .consentApproved else .consentRejected,
        decision.decidedAt, some decision.id, none⟩

def resumeDecisionExecution (executionId : String) : Program Unit := do
  let paused ← lockRow (.execution executionId) fun s =>
    (s.execution executionId).bind Execution.requeue
  match paused with
  | none => pure ()
  | some execution => Tx.update (Store.setExecution executionId (.withRow fun _ => execution))

def RequestRecord.withDecision (decision : ApprovalDecision) (record : RequestRecord) :
    RequestRecord :=
  { record with decisions := record.decisions ++ [decision] }

def RequestRecord.markDecided (record : RequestRecord) : RequestRecord :=
  { record with row := { record.row with status := .decided, version := record.row.version + 1 } }

def recordDecision (requestId : String) (request : ApprovalRequest) (input : RecordDecisionInput) :
    Program ApprovalDecision := do
  let id ← Tx.receiving Reply.id
  let decision : ApprovalDecision :=
    { id := id
      outcome := input.outcome
      actor := input.actor
      reviewerAssignmentId := input.reviewerAssignmentId
      reason := input.reason
      comment := input.comment
      idempotencyKey := input.idempotencyKey
      decidedAt := input.decidedAt }
  let existing ← Tx.select fun s => (s.decisions requestId).head?
  if existing.isSome then .halt "duplicate key value violates approval_decisions_request_uidx"
  else do
    Tx.update (Store.setRequest requestId (.withDecision decision))
    let pending ← lockRow (.request requestId) fun s =>
      (s.requestRow requestId).filter fun r => r.status = .pending
    match pending with
    | none => .halt "Locked Approval Request changed state"
    | some _ => do
      Tx.update (Store.setRequest requestId .markDecided)
      recordActionIntentDecisionFact requestId request decision
      resumeDecisionExecution request.executionId
      publishRequestEvent request.toQuestion
      pure decision

def recordTimeoutDecision (requestId : String) (request : ApprovalRequest) (now : ℕ) :
    Program ApprovalDecision :=
  match request.timeoutAction with
  | none => .halt "Expired Approval Request is missing its timeout action"
  | some action => recordDecision requestId request
      { outcome := if action = .autoApprove then .approved else .rejected
        actor := .system
        reason := .timeout
        comment := none
        idempotencyKey := none
        decidedAt := now
        reviewerAssignmentId := none }

/-- `expiresAt && expiresAt <= now`. -/
def ApprovalRequest.expired (now : ℕ) (request : ApprovalRequest) : Bool :=
  match request.expiresAt with
  | some t => t ≤ now
  | none => false

def eligibleForWorkspaceMember (member : Bool) (actorEmail : String) (request : ApprovalRequest) :
    Bool :=
  request.audience = .workspace && member &&
    match request.approverEmails with
    | none => true
    | some emails => emails = [] ∨ actorEmail.toLower ∈ emails

structure WorkspaceDecisionInput where
  outcome : DecisionOutcome
  actorUserId : String
  actorEmail : String
  comment : Option String

def Store.readClock (reading : Reading) (s : Store) : Store :=
  { s with readings := s.readings ++ [reading] }

/-- The clock is read for the expiry check and again for the Decision. -/
def decideWorkspaceApprovalRequest (workspaceId approvalRequestId : String)
    (input : WorkspaceDecisionInput) : Program (Option ApprovalDecision) := Tx.transaction do
  let member ← Tx.receiving Reply.member
  let request ← lockRow (.request approvalRequestId) fun s =>
    (s.requestRow approvalRequestId).filter fun r => r.workspaceId = workspaceId ∧
      r.status = .pending ∧ eligibleForWorkspaceMember member input.actorEmail r
  match request with
  | none => pure none
  | some request => do
    let checkedAt ← Tx.receiving Reply.now
    let decidedAt ← Tx.receiving Reply.now
    Tx.update (Store.readClock ⟨approvalRequestId, checkedAt, decidedAt⟩)
    if request.expired checkedAt then
      return some (← recordTimeoutDecision approvalRequestId request decidedAt)
    return some (← recordDecision approvalRequestId request
      { outcome := input.outcome
        actor := .workspaceMember input.actorUserId
        reason := .human
        comment := input.comment
        idempotencyKey := none
        decidedAt := decidedAt
        reviewerAssignmentId := none })

def claimAndDecideTimedOutApprovalRequest : Program (Option ApprovalDecision) := Tx.transaction do
  let now ← Tx.receiving Reply.now
  -- which of the due requests that are not locked the query returns is not determined
  let id ← Tx.receiving Reply.due
  let due ← lockRow (.request id) fun s =>
    (s.requestRow id).filter fun r => r.status = .pending ∧ r.expired now
  match due with
  | none => pure none
  | some request => return some (← recordTimeoutDecision id request now)

end Decision

section External

def getApprovalReviewerAuthority (requestId : String) (request : ApprovalRequest)
    (externalSubjectId : String) : Program (Option (Option String)) := do
  let linked ← Tx.select fun s => (s.intentOfRequest requestId).bind fun p =>
    (s.connections p.2.connectionId).map fun c => (p.2.connectionId, c)
  match linked with
  | some (connectionId, connection) =>
    Tx.select fun s => getConnectionReviewerAuthority s connectionId connection externalSubjectId
  | none => pure (if request.externalSubjectId = some externalSubjectId then some none else none)

def isExternalRequestOwner (request : Option ApprovalRequest) (input : ExternalDecisionInput) :
    Program Bool :=
  match request with
  | none => pure false
  | some r => do
    if r.audience ≠ .externalSubject ∨ r.workspaceId ≠ input.workspaceId ∨
        r.environmentId ≠ some input.environmentId then return false
    let authority ← getApprovalReviewerAuthority input.approvalRequestId r input.externalSubjectId
    pure authority.isSome

def isIdenticalRetry (decision : ApprovalDecision) (input : ExternalDecisionInput) : Bool :=
  decision.idempotencyKey = some input.idempotencyKey ∧
    decision.actorExternalSubjectId = some input.externalSubjectId ∧
    decision.outcome = input.outcome ∧ decision.comment = input.comment

/-- The session's row, in an enabled environment, of a verified subject, not revoked or expired. -/
def liveSession (input : ExternalDecisionInput) (s : Store) : Bool :=
  match s.sessions input.endUserSessionId, s.environments input.environmentId,
      s.subjects input.externalSubjectId with
  | some session, some environment, some subject =>
    session.workspaceId = input.workspaceId ∧ session.environmentId = input.environmentId ∧
      session.externalSubjectId = input.externalSubjectId ∧ session.revokedAt = none ∧
      input.now < session.expiresAt ∧ environment.workspaceId = input.workspaceId ∧
      environment.enabled ∧ subject.workspaceId = input.workspaceId ∧ subject.status = .verified
  | _, _, _ => false

def resolveExistingExternalDecision (decision : Option ApprovalDecision)
    (input : ExternalDecisionInput) : Program ExternalDecisionResult :=
  match decision with
  | none => .halt "Decided Approval Request has no Decision"
  | some decision =>
    if decision.reason = .timeout then pure (.expired decision)
    else if decision.idempotencyKey ≠ some input.idempotencyKey then pure .alreadyDecided
    else if isIdenticalRetry decision input then pure (.replay decision)
    else pure .decisionConflict

inductive Reservation
  | reserved
  | replay
  | conflict
  deriving DecidableEq, Repr

def Store.insertDecisionKey (key : String × String) (record : IdempotencyRecord) (s : Store) :
    Store :=
  { s with decisionKeys := Function.update s.decisionKeys key (some record) }

def reservePublicRequest (endUserSessionId idempotencyKey requestHash : String) :
    Program Reservation := do
  let existing ← lockSlot (.decisionSlot endUserSessionId idempotencyKey) fun s =>
    s.decisionKeys (endUserSessionId, idempotencyKey)
  match existing with
  | none => do
    Tx.update (Store.insertDecisionKey (endUserSessionId, idempotencyKey) ⟨requestHash, none⟩)
    pure .reserved
  | some record =>
    if record.requestHash ≠ requestHash then return .conflict
    if record.resourceId = none then .halt "Idempotency result was not finalized"
    else pure .replay

def finalizePublicRequest (endUserSessionId idempotencyKey requestHash resourceId : String) :
    Program Unit :=
  Tx.update (Store.insertDecisionKey (endUserSessionId, idempotencyKey)
    ⟨requestHash, some resourceId⟩)

def decisionExists : String := "Idempotent Decision exists for a pending request"

def decidePendingExternalRequest (hashing : Hashing) (request : ApprovalRequest)
    (input : ExternalDecisionInput) : Program ExternalDecisionResult := do
  let requestHash :=
    hashing.hashPublicRequest input.approvalRequestId input.outcome input.comment
  let reservation ← reservePublicRequest input.endUserSessionId input.idempotencyKey requestHash
  match reservation with
  | .conflict => pure .decisionConflict
  | .replay => .halt decisionExists
  | .reserved => do
    let authority ← getApprovalReviewerAuthority input.approvalRequestId request
      input.externalSubjectId
    let decision ← recordDecision input.approvalRequestId request
      { outcome := input.outcome
        actor := .externalSubject input.externalSubjectId input.endUserSessionId
        reason := .human
        comment := input.comment
        idempotencyKey := some input.idempotencyKey
        decidedAt := input.now
        reviewerAssignmentId := authority.join }
    finalizePublicRequest input.endUserSessionId input.idempotencyKey requestHash decision.id
    pure (.decided decision)

/-- The rows it locks `for share` are read without a lock here: what is shown does not rest on
those locks. -/
def answerExternalDecision (hashing : Hashing) (input : ExternalDecisionInput) :
    Program ExternalDecisionResult := do
  let snapshot ← Tx.select (Store.requestRow input.approvalRequestId)
  let owner ← isExternalRequestOwner snapshot input
  if owner = false then return .wrongSubject
  let session ← Tx.select (liveSession input)
  if session = false then return .sessionInvalid
  let request ← lockRow (.request input.approvalRequestId)
    (Store.requestRow input.approvalRequestId)
  let owner ← isExternalRequestOwner request input
  match request with
  | none => pure .wrongSubject
  | some request =>
    if owner = false then return .wrongSubject
    match request.status with
    | .cancelled => pure .cancelled
    | .decided => do
      let decision ← Tx.select fun s => (s.decisions input.approvalRequestId).head?
      resolveExistingExternalDecision decision input
    | .pending =>
      if request.expired input.now then
        return .expired (← recordTimeoutDecision input.approvalRequestId request input.now)
      decidePendingExternalRequest hashing request input

def Store.answered (input : ExternalDecisionInput) (result : ExternalDecisionResult) (s : Store) :
    Store :=
  { s with answers := s.answers ++ [⟨input, result, s.decisions input.approvalRequestId⟩] }

def decideExternalApprovalRequest (hashing : Hashing) (input : ExternalDecisionInput) :
    Program ExternalDecisionResult := Tx.transaction do
  let result ← answerExternalDecision hashing input
  Tx.update (Store.answered input result)
  pure result

end External
end Linea.Consent
