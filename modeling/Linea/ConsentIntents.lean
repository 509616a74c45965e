import Linea.ConsentStatements

/-! The transactions of `action-intent.repository.ts` that claim, dispatch and end an Action Intent.
`client` is the caller, for the record of who did what. -/
namespace Linea.Consent

def terminalActionIntent (intent : ActionIntent) : Bool :=
  intent.status ∈ [.succeeded, .failed, .stale, .rejected, .cancelled, .outcomeUnknown]

def activeExecutionClaim (execution : Option Execution) (input : ClaimInput) : Bool :=
  match execution with
  | none => false
  | some e => e.status = .running ∧ e.isLeaseValid input.now input.executionClaimId

section Authority

def readRequesterAuthority (connectionId : String) (connection : Option Connection)
    (externalSubjectId : String) : Program (Option (Option String)) :=
  match connection with
  | some c => Tx.select fun s => getConnectionRequesterAuthority s connectionId c externalSubjectId
  | none => pure none

def readReviewerAuthority (connectionId : String) (connection : Option Connection)
    (decision : Option ApprovalDecision) : Program (Option (Option String)) :=
  match connection, decision.bind ApprovalDecision.actorExternalSubjectId with
  | some c, some actor => Tx.select fun s => getConnectionReviewerAuthority s connectionId c actor
  | _, _ => pure none

def currentIntentAuthority (intent : ActionIntent) (connection : Option Connection)
    (environment : Option Environment) (subject : Option ExternalSubject) (input : ClaimInput) :
    Program Bool := do
  let requesterAuthority ← readRequesterAuthority intent.connectionId connection
    intent.externalSubjectId
  pure (requesterAuthority = some intent.connectionAccessGrantId ∧
    subject.map ExternalSubject.status = some .verified ∧
    connectionAuthorityBoundary connection environment
      { workspaceId := intent.workspaceId
        environmentId := intent.environmentId
        externalSubjectId := intent.externalSubjectId
        provider := input.provider
        actionFamily := input.actionFamily
        requiredScopes := input.requiredScopes } = .authorized)

def currentIntentApproval (connection : Option Connection) (intent : ActionIntent)
    (request : Option ApprovalRequest) (decision : Option ApprovalDecision) : Program Bool := do
  let reviewerAuthority ← readReviewerAuthority intent.connectionId connection decision
  match decision with
  | none => pure false
  | some d => pure (reviewerAuthority = some d.reviewerAssignmentId ∧
      request.map ApprovalRequest.status = some .decided ∧
      request.bind (fun r => r.actionIntentDigest) = some intent.canonicalDigest ∧
      d.outcome = .approved ∧ d.actorExternalSubjectId.isSome ∧ d.reason = .human)

/-- `lockActiveActionIntentExecution`. The join reads the intent as it was when the statement began;
only the execution is locked and looked at again. -/
def lockActiveActionIntentExecution (actionIntentId executionClaimId : String) (now : ℕ) :
    Program Bool := do
  let claimed ← Tx.select fun s => (s.intentRow actionIntentId).filter fun intent =>
    intent.status = .executing ∧ intent.executionClaimId = some executionClaimId
  match claimed with
  | none => pure false
  | some intent =>
    let execution ← lockRow (.execution intent.executionId) fun s =>
      (s.execution intent.executionId).filter fun e =>
        e.status = .running ∧ e.isLeaseValid now executionClaimId
    pure execution.isSome

end Authority

inductive ClaimResult
  | claimed (intent : ActionIntent) (connection : Connection)
  | recovered (intent : ActionIntent) (connection : Connection)
  | cancelled
  | inProgress
  | notReady
  | terminal (intent : ActionIntent)

def unreconciled : ConnectorError :=
  ⟨"outcome_unknown", "Connector provider outcome could not be reconciled", true⟩

def authorityUnavailable : ConnectorError :=
  ⟨"authorization_revoked", "Connector authority became unavailable", false⟩

def failRecoveredActionIntent (intent : ActionIntent) (input : ClaimInput) (priorClaimId : String) :
    Program ClaimResult := do
  let outcomeUnknown := intent.dispatchStartedAt.isSome
  let error := if outcomeUnknown then unreconciled else authorityUnavailable
  let failed ← updateIntent input.actionIntentId
    (fun row => row.status = .executing ∧ row.executionClaimId = some priorClaimId)
    (.withRow fun row =>
      { row with status := if outcomeUnknown then .outcomeUnknown else .failed
                 executionClaimId := some input.executionClaimId
                 normalizedError := some error
                 updatedAt := input.now })
  match failed with
  | none => pure .inProgress
  | some failed => do
    createIntentEvent input.actionIntentId failed .failed
    recordActionIntentFact input.actionIntentId failed
      ⟨if outcomeUnknown then .outcomeUnknown else .failed, input.now, none, some error.code⟩
    pure (.terminal failed)

/-- What `claimApprovedActionIntent` has locked. -/
structure LockedAuthority where
  intent : ActionIntent
  connection : Option Connection
  environment : Option Environment
  subject : Option ExternalSubject
  request : Option ApprovalRequest
  decision : Option ApprovalDecision
  execution : Option Execution

def IntentRecord.claim (client : Client) (executionClaimId : String) (now : ℕ)
    (record : IntentRecord) : IntentRecord :=
  { record with
    row := { record.row with status := .executing
                             executionClaimId := some executionClaimId
                             updatedAt := now }
    claims := record.claims ++ [(executionClaimId, client)] }

/-- The authority and the approval, in the order of the source; the second is read only when the
first holds. -/
def currentConsent (authority : LockedAuthority) (input : ClaimInput) : Program Bool := do
  let authorized ← currentIntentAuthority authority.intent authority.connection
    authority.environment authority.subject input
  if authorized then
    currentIntentApproval authority.connection authority.intent authority.request authority.decision
  else pure false

def recoverExecutingActionIntent (client : Client) (authority : LockedAuthority)
    (input : ClaimInput) : Program ClaimResult := do
  if authority.intent.executionClaimId = some input.executionClaimId then return .inProgress
  if activeExecutionClaim authority.execution input = false then return .inProgress
  let authorityValid ← currentConsent authority input
  match authority.intent.executionClaimId with
  | none => .halt "Executing Action Intent has no execution claim"
  | some priorClaimId =>
    if authorityValid = false then
      return ← failRecoveredActionIntent authority.intent input priorClaimId
    let recovered ← updateIntent input.actionIntentId
      (fun row => row.status = .executing ∧ row.executionClaimId = some priorClaimId)
      (.claim client input.executionClaimId input.now)
    match recovered, authority.connection with
    | some intent, some connection => pure (.recovered intent connection)
    | _, _ => pure .inProgress

def cancelUnauthorizedActionIntent (id : String) (now : ℕ) : Program ClaimResult := do
  let cancelled ← updateIntent id (fun row => row.status = .awaitingConsent ∨ row.status = .ready)
    (.withRow fun row => { row with status := .cancelled, updatedAt := now })
  match cancelled with
  | some intent => recordActionIntentFact id intent ⟨.cancelled, now, none, none⟩
  | none => pure ()
  pure .cancelled

/-- The first update is guarded by the id alone. -/
def markReady (id : String) (intent : ActionIntent) (now : ℕ) : Program Unit := do
  if intent.status = .awaitingConsent then
    let ready ← updateIntent id (fun _ => true)
      (.withRow fun row => { row with status := .ready, updatedAt := now })
    match ready with
    | some intent => recordActionIntentFact id intent ⟨.ready, now, none, none⟩
    | none => pure ()
  else pure ()

def claimReadyActionIntent (client : Client) (intent : ActionIntent) (connection : Connection)
    (input : ClaimInput) : Program ClaimResult := do
  markReady input.actionIntentId intent input.now
  let claimed ← updateIntent input.actionIntentId (fun row => row.status = .ready)
    (.claim client input.executionClaimId input.now)
  match claimed with
  | none => pure .inProgress
  | some claimed => do
    recordActionIntentFact input.actionIntentId claimed ⟨.executing, input.now, none, none⟩
    pure (.claimed claimed connection)

/-- The subjects of the intent and of the Decision, locked by one statement. -/
def lockSubjects (intent : ActionIntent) (decision : Option ApprovalDecision) :
    Program (Option ExternalSubject) :=
  Tx.selectForUpdate
    (fun s => ((intent.externalSubjectId ::
        (decision.bind ApprovalDecision.actorExternalSubjectId).toList).filter
      fun id => (s.subjects id).isSome).map Lock.subject)
    fun s => s.subjects intent.externalSubjectId

def claimApprovedActionIntent (client : Client) (input : ClaimInput) :
    Program (Option ClaimResult) := Tx.transaction do
  let snapshot ← Tx.select (Store.intentRow input.actionIntentId)
  match snapshot with
  | none => pure none
  | some snapshot =>
    if terminalActionIntent snapshot then
      return some (if snapshot.status = .cancelled then .cancelled else .terminal snapshot)
    let decisionSnapshot ← Tx.select fun s => (s.decisions snapshot.approvalRequestId).head?
    if decisionSnapshot = none then return some .notReady
    let subject ← lockSubjects snapshot decisionSnapshot
    let environment ← lockRow (.environment snapshot.environmentId) fun s =>
      s.environments snapshot.environmentId
    let connection ← lockRow (.connection snapshot.connectionId) fun s =>
      s.connections snapshot.connectionId
    let request ← lockRow (.request snapshot.approvalRequestId)
      (Store.requestRow snapshot.approvalRequestId)
    let execution ← lockRow (.execution snapshot.executionId) (Store.execution snapshot.executionId)
    let decision ← Tx.select fun s => (s.decisions snapshot.approvalRequestId).head?
    let intent ← lockRow (.intent input.actionIntentId) (Store.intentRow input.actionIntentId)
    match intent with
    | none => pure none
    | some intent =>
      let authority : LockedAuthority :=
        ⟨intent, connection, environment, subject, request, decision, execution⟩
      if terminalActionIntent intent then
        return some (if intent.status = .cancelled then .cancelled else .terminal intent)
      if intent.status = .executing then
        return some (← recoverExecutingActionIntent client authority input)
      if decision.map ApprovalDecision.outcome ≠ some .approved then return some .notReady
      let consent ← currentConsent authority input
      if consent = false ∨ activeExecutionClaim execution input = false then
        return some (← cancelUnauthorizedActionIntent input.actionIntentId input.now)
      match connection with
      | none => .halt "Authorized Action Intent has no Connection"
      | some connection => return some (← claimReadyActionIntent client intent connection input)

/-- `coalesce(dispatchStartedAt, now)` and one more attempt. -/
def IntentRecord.dispatch (client : Client) (input : ClaimInput) (record : IntentRecord) :
    IntentRecord :=
  { record with
    row := { record.row with
      dispatchStartedAt := some (record.row.dispatchStartedAt.getD input.now)
      providerAttemptCount := record.row.providerAttemptCount + 1
      updatedAt := input.now }
    dispatches := record.dispatches ++ [⟨client, record.row.providerAttemptCount + 1, input⟩] }

def beginActionIntentDispatch (client : Client) (input : ClaimInput) :
    Program (Option ActionIntent) := Tx.transaction do
  let snapshot ← Tx.select (Store.intentRow input.actionIntentId)
  match snapshot with
  | none => pure none
  | some snapshot =>
    if snapshot.status ≠ .executing ∨ snapshot.executionClaimId ≠ some input.executionClaimId then
      return none
    let decisionSnapshot ← Tx.select fun s => (s.decisions snapshot.approvalRequestId).head?
    let subject ← lockSubjects snapshot decisionSnapshot
    let environment ← lockRow (.environment snapshot.environmentId) fun s =>
      s.environments snapshot.environmentId
    let connection ← lockRow (.connection snapshot.connectionId) fun s =>
      s.connections snapshot.connectionId
    let request ← lockRow (.request snapshot.approvalRequestId)
      (Store.requestRow snapshot.approvalRequestId)
    let decision ← Tx.select fun s => (s.decisions snapshot.approvalRequestId).head?
    let active ← lockActiveActionIntentExecution input.actionIntentId input.executionClaimId input.now
    if active = false then return none
    let consent ← currentConsent
      ⟨snapshot, connection, environment, subject, request, decision, none⟩ input
    if consent = false then
      let _ ← failRecoveredActionIntent snapshot input input.executionClaimId
      return none
    updateIntent input.actionIntentId
      (fun row => row.status = .executing ∧ row.executionClaimId = some input.executionClaimId)
      (.dispatch client input)

/-- What `completeActionIntent` and `failActionIntent` write. -/
structure Settlement where
  set : ActionIntent → ActionIntent
  event : IntentEvent
  factType : FactType
  failureClass : Option String

/-- The transaction that `completeActionIntent` and `failActionIntent` share. -/
def settleActionIntent (actionIntentId executionClaimId : String) (now : ℕ)
    (settlement : Settlement) : Program (Option ActionIntent) := Tx.transaction do
  let active ← lockActiveActionIntentExecution actionIntentId executionClaimId now
  if active = false then return none
  let settled ← updateIntent actionIntentId
    (fun row => row.status = .executing ∧ row.executionClaimId = some executionClaimId)
    (.withRow settlement.set)
  match settled with
  | none => pure none
  | some intent => do
    createIntentEvent actionIntentId intent settlement.event
    recordActionIntentFact actionIntentId intent
      ⟨settlement.factType, now, none, settlement.failureClass⟩
    pure (some intent)

def completeActionIntent (actionIntentId executionClaimId : String) (result : Value)
    (completedAt : ℕ) : Program (Option ActionIntent) :=
  settleActionIntent actionIntentId executionClaimId completedAt
    { set := fun row => { row with status := .succeeded
                                   normalizedResult := some result
                                   updatedAt := completedAt }
      event := .executed
      factType := .succeeded
      failureClass := none }

inductive FailureStatus
  | failed
  | stale
  | outcomeUnknown
  deriving DecidableEq, Repr

def FailureStatus.status : FailureStatus → ActionIntentStatus
  | .failed => .failed
  | .stale => .stale
  | .outcomeUnknown => .outcomeUnknown

def FailureStatus.factType : FailureStatus → FactType
  | .failed => .failed
  | .stale => .stale
  | .outcomeUnknown => .outcomeUnknown

def failActionIntent (actionIntentId executionClaimId : String) (error : ConnectorError)
    (status : FailureStatus) (failedAt : ℕ) : Program (Option ActionIntent) :=
  settleActionIntent actionIntentId executionClaimId failedAt
    { set := fun row => { row with status := status.status
                                   normalizedError := some error
                                   updatedAt := failedAt }
      event := .failed
      factType := status.factType
      failureClass := some error.code }

def rejectActionIntent (id : String) : Program (Option ActionIntent) := Tx.transaction do
  let now ← Tx.receiving Reply.now
  let rejected ← updateIntent id (fun row => row.status = .awaitingConsent)
    (.withRow fun row => { row with status := .rejected, updatedAt := now })
  match rejected with
  | none => pure none
  | some intent => do
    let decision ← Tx.select fun s => (s.decisions intent.approvalRequestId).head?
    recordActionIntentFact id intent ⟨.rejected, now, decision.map ApprovalDecision.id, none⟩
    pure (some intent)

end Linea.Consent
