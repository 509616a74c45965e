import Linea.ConsentDecisions

/-! `ConnectorGateway.execute` for a side effect (`connector-gateway.ts`): an attempt creates the
intent or finds it, and once it is approved claims it, dispatches it and calls the provider. What
resolving a credential, the provider's precondition check and the provider's answer come to is
received; a thrown error ends the attempt. -/
namespace Linea.Consent

inductive RetrySafety
  | none
  | providerIdempotency
  deriving DecidableEq, Repr

structure NormalizedSideEffect where
  target : Value
  parameters : Value
  providerPreconditions : Value

/-- A registered operation. `normalize` parses the input first; `displayable` says that a safe
display of the envelope can be made. The schemas of the registered operations trim, sort and fill in
defaults: what they return, they accept and return again. -/
structure SideEffectOperation where
  id : String
  revision : String
  provider : String
  actionFamily : String
  requiredScopes : List String
  installationPermissions : Option (List (String × String))
  retrySafety : RetrySafety
  normalize : Value → Option NormalizedSideEffect
  parametersSchema : Value → Option Value
  preconditionsSchema : Value → Option Value
  displayable : ActionIntentEnvelope → Bool
  parametersSchema_again : ∀ {v w}, parametersSchema v = some w → parametersSchema w = some w

abbrev Registry := String → Option SideEffectOperation

def registeredSideEffectOperation (registry : Registry) (operationId : String) :
    Option SideEffectOperation :=
  (registry operationId).filter fun operation => operation.id = operationId

structure SideEffectInput where
  executionId : String
  workspaceId : String
  nodeId : String
  connectionId : String
  operationInput : Value
  invocationIdempotencyKey : String
  executionClaimId : String

inductive SideEffectResult
  | completed (result : Option Value)
  | awaitingConsent (actionIntentId : String)
  | rejected (actionIntentId : String) (reason : DecisionReason)

/-- `none` when the operation does not support an installation. -/
def requiredConnectionScopes (operation : SideEffectOperation) (kind : AuthorizationKind) :
    Option (List String) :=
  match kind with
  | .delegatedUser => some operation.requiredScopes
  | .githubAppInstallation => operation.installationPermissions.map fun permissions =>
      permissions.map fun p => p.1 ++ ":" ++ p.2

structure PreparedSideEffect where
  envelope : ActionIntentEnvelope
  canonicalDigest : String

def prepareSideEffect (hashing : Hashing) (operation : SideEffectOperation) (connectionId : String)
    (operationInput : Value) : Option PreparedSideEffect := do
  let normalized ← operation.normalize operationInput
  let parameters ← operation.parametersSchema normalized.parameters
  let providerPreconditions ← operation.preconditionsSchema normalized.providerPreconditions
  let envelope : ActionIntentEnvelope :=
    { operationRevision := operation.revision
      connectionId := connectionId
      connector := operation.provider
      operation := operation.id
      target := normalized.target
      parameters := parameters
      providerPreconditions := providerPreconditions }
  let canonicalDigest ← hashing.digestActionIntent envelope
  if operation.displayable envelope then some ⟨envelope, canonicalDigest⟩ else none

/-- A `ConnectorGatewayError` as it is thrown, with its name. Its message may be a provider's. -/
def connectorGatewayError (message : String) : String := "ConnectorGatewayError: " ++ message

structure ActionIntentConsent where
  id : String
  intent : ActionIntent
  request : ApprovalRequest
  decision : Option ApprovalDecision

def getActionIntentConsent (input : SideEffectInput) (s : Store) : Option ActionIntentConsent := do
  let (id, intent) ← (s.findIntent input.executionId input.nodeId
    input.invocationIdempotencyKey).filter fun p => p.2.workspaceId = input.workspaceId
  let record ← s.request intent.approvalRequestId
  some ⟨id, intent, record.row, record.decisions.head?⟩

/-- The connection that `getConnectorReadAuthority` finds for the execution. -/
def getConnectorReadAuthority (input : SideEffectInput) (s : Store) : Option Connection := do
  let execution ← (s.execution input.executionId).filter fun e => e.workspaceId = input.workspaceId
  let environmentId ← execution.environmentId
  let externalSubjectId ← execution.externalSubjectRecordId
  let environment ← (s.environments environmentId).filter fun e =>
    e.workspaceId = input.workspaceId ∧ e.enabled
  let connection ← (s.connections input.connectionId).filter fun c =>
    c.workspaceId = input.workspaceId ∧ c.environmentId = environmentId ∧
      (c.externalSubjectId = some externalSubjectId ∨ c.ownership = .environment ∧
        (currentAuthorization (s.grants (environmentId, externalSubjectId)) input.connectionId
          input.workspaceId).isSome)
  if verifiedMember s input.workspaceId environmentId externalSubjectId ∧
      (providerPolicy (some environment) connection.provider).isSome then some connection else none

section Invocation
variable {α : Type}

/-- Always throws: the normalized error, or that the failure could not be recorded. -/
def failSideEffect (actionIntentId executionClaimId : String) (error : ConnectorError)
    (status : FailureStatus) : Program α := do
  let failedAt ← Tx.receiving Reply.now
  let failed ← failActionIntent actionIntentId executionClaimId error status failedAt
  match failed with
  | none => .halt "Action Intent failure was lost"
  | some _ => .halt (connectorGatewayError error.message)

def providerFailureStatus (error : ConnectorError) : FailureStatus :=
  if error.outcomeUnknown then .outcomeUnknown
  else if error.code = "precondition_failed" then .stale else .failed

def IntentRecord.withCall (call : ProviderCall) (record : IntentRecord) : IntentRecord :=
  { record with calls := record.calls ++ [call] }

/-- The call itself, outside any transaction of the caller. -/
def callProvider (actionIntentId : String) (call : ProviderCall) :
    Program (Except (Option ConnectorError) Value) := do
  Tx.transaction (Tx.update (Store.setIntent actionIntentId (.withCall call)))
  Tx.receiving Reply.provider

/-- `retryProviderRequest`, but for the count of attempts. -/
def retryProviderRequest (operation : SideEffectOperation) (error : ConnectorError)
    (aborted : Bool) : Bool :=
  error.outcomeUnknown ∧ operation.retrySafety = .providerIdempotency ∧ aborted = false

/-- What the attempts of one `invokeSideEffect` share. -/
structure SideEffectCall where
  client : Client
  operation : SideEffectOperation
  actionIntentId : String
  claimed : ActionIntent
  parameters : Value
  requiredScopes : List String
  executionClaimId : String

/-- One pass of the loop of `invokeSideEffect`; `failed` is what follows a provider error. -/
def dispatchAttempt (call : SideEffectCall) (failed : ConnectorError → Bool → Program Value) :
    Program Value := do
  let now ← Tx.receiving Reply.now
  let dispatch ← beginActionIntentDispatch call.client
    ⟨call.actionIntentId, call.executionClaimId, call.operation.provider,
      call.operation.actionFamily, call.requiredScopes, now⟩
  match dispatch with
  | none => .halt (connectorGatewayError "Action Intent execution claim was lost")
  | some intent => do
    let answer ← callProvider call.actionIntentId
      ⟨call.client, intent.providerAttemptCount, call.parameters,
        call.claimed.invocationIdempotencyKey⟩
    match answer with
    | .error none => .halt "Provider error could not be normalized"
    | .error (some error) => do
      let aborted ← Tx.receiving Reply.aborted
      failed error aborted
    | .ok result => do
      let completedAt ← Tx.receiving Reply.now
      let completed ← completeActionIntent call.actionIntentId call.executionClaimId result
        completedAt
      match completed with
      | none => .halt "Action Intent completion was lost"
      | some _ => pure result

/-- The loop, with the number of retries that are left. -/
def dispatchLoop (call : SideEffectCall) : ℕ → Program Value
  | 0 => dispatchAttempt call fun error _ =>
      failSideEffect call.actionIntentId call.executionClaimId error (providerFailureStatus error)
  | retries + 1 => dispatchAttempt call fun error aborted =>
      if retryProviderRequest call.operation error aborted then dispatchLoop call retries
      else
        failSideEffect call.actionIntentId call.executionClaimId error (providerFailureStatus error)

def requireCurrentProviderPreconditions (actionIntentId executionClaimId : String) :
    Program Unit := do
  let valid ← Tx.receiving Reply.preconditions
  match valid with
  | none =>
    failSideEffect actionIntentId executionClaimId
      ⟨"provider_failed", "Connector provider precondition check failed", false⟩ .failed
  | some true => pure ()
  | some false =>
    failSideEffect actionIntentId executionClaimId
      ⟨"precondition_failed", "Connector target changed before execution", false⟩ .stale

/-- The provider's target is looked at again before the first dispatch only. -/
def checkPreconditions (claimed : ActionIntent) (actionIntentId executionClaimId : String) :
    Program Unit :=
  if claimed.dispatchStartedAt = none then
    requireCurrentProviderPreconditions actionIntentId executionClaimId
  else pure ()

/-- `maximumAttempts - 1`. -/
def maximumRetries (operation : SideEffectOperation) : ℕ :=
  if operation.retrySafety = .providerIdempotency then 1 else 0

def invokeSideEffect (client : Client) (operation : SideEffectOperation) (actionIntentId : String)
    (claimed : ActionIntent) (installationId : Option String) (executionClaimId : String) :
    Program Value :=
  match operation.parametersSchema claimed.canonicalEnvelope.parameters,
      operation.preconditionsSchema claimed.canonicalEnvelope.providerPreconditions with
  | some parameters, some _ => do
    checkPreconditions claimed actionIntentId executionClaimId
    match requiredConnectionScopes operation
        (if installationId.isSome then .githubAppInstallation else .delegatedUser) with
    | none => .halt "Operation does not support GitHub installation authority"
    | some requiredScopes =>
      dispatchLoop ⟨client, operation, actionIntentId, claimed, parameters, requiredScopes,
        executionClaimId⟩ (maximumRetries operation)
  | _, _ => .halt "Action Intent envelope does not parse"

def credentialUnavailable : ConnectorError :=
  ⟨"provider_failed", "Connector credential became unavailable", false⟩

/-- `recovered` says that the claim was taken over from another attempt. -/
def dispatchClaimedSideEffect (client : Client) (operation : SideEffectOperation)
    (actionIntentId : String) (claimed : ActionIntent) (recovered : Bool)
    (executionClaimId : String) : Program SideEffectResult := do
  if recovered ∧ claimed.dispatchStartedAt.isSome ∧ operation.retrySafety = .none then
    failSideEffect actionIntentId executionClaimId unreconciled .outcomeUnknown
  else do
    let credential ← Tx.receiving Reply.credential
    match credential with
    | none =>
      if claimed.dispatchStartedAt.isSome then
        failSideEffect actionIntentId executionClaimId unreconciled .outcomeUnknown
      else failSideEffect actionIntentId executionClaimId credentialUnavailable .failed
    | some installationId =>
      if claimed.status ≠ .executing then .halt (connectorGatewayError "Action Intent is not executable")
      else do
        let result ← invokeSideEffect client operation actionIntentId claimed installationId
          executionClaimId
        pure (.completed (some result))

end Invocation

section Execution

def resolveTerminalActionIntent (intent : ActionIntent) (consent : ActionIntentConsent) :
    Program SideEffectResult :=
  match intent.status with
  | .succeeded => pure (.completed intent.normalizedResult)
  | .rejected => match consent.decision with
    | none => .halt "Action Intent Approval Request has no Decision"
    | some decision => pure (.rejected consent.id decision.reason)
  | .failed | .stale | .outcomeUnknown => match intent.normalizedError with
    | none => .halt "Terminal Action Intent is missing its error"
    | some error => .halt (connectorGatewayError error.message)
  | _ => .halt (connectorGatewayError "Action Intent is not executable")

def grantKind (intent : ActionIntent) : AuthorizationKind :=
  if intent.connectionAccessGrantId.isSome then .githubAppInstallation else .delegatedUser

def executeApprovedSideEffect (client : Client) (operation : SideEffectOperation)
    (input : SideEffectInput) (consent : ActionIntentConsent) : Program SideEffectResult :=
  match requiredConnectionScopes operation (grantKind consent.intent) with
  | none => .halt "Operation does not support GitHub installation authority"
  | some requiredScopes => do
    let now ← Tx.receiving Reply.now
    let claimed ← claimApprovedActionIntent client
      ⟨consent.id, input.executionClaimId, operation.provider, operation.actionFamily,
        requiredScopes, now⟩
    match claimed with
    | none => .halt "Action Intent was not claimable"
    | some .cancelled => .halt (connectorGatewayError "Action Intent was cancelled")
    | some .inProgress => .halt (connectorGatewayError "Action Intent execution is already in progress")
    | some .notReady => .halt (connectorGatewayError "Action Intent is not executable")
    | some (.terminal intent) => resolveTerminalActionIntent intent consent
    | some (.claimed intent _) =>
      dispatchClaimedSideEffect client operation consent.id intent false input.executionClaimId
    | some (.recovered intent _) =>
      dispatchClaimedSideEffect client operation consent.id intent true input.executionClaimId

def verifyConsentDigest (hashing : Hashing) (operation : SideEffectOperation)
    (consent : ActionIntentConsent) : Bool :=
  consent.intent.operationRevision = operation.revision ∧
    consent.intent.digestVersion = ACTION_INTENT_DIGEST_VERSION ∧
    hashing.digestActionIntent consent.intent.canonicalEnvelope =
      some consent.intent.canonicalDigest ∧
    consent.request.actionIntentDigest = some consent.intent.canonicalDigest

def resolveSideEffectConsent (hashing : Hashing) (client : Client)
    (operation : SideEffectOperation) (input : SideEffectInput) (consent : ActionIntentConsent) :
    Program SideEffectResult :=
  match consent.request.status, consent.decision with
  | .pending, _ => pure (.awaitingConsent consent.id)
  | .cancelled, _ => .halt (connectorGatewayError "Action Intent was cancelled")
  | .decided, none => .halt "Action Intent Approval Request has no Decision"
  | .decided, some decision =>
    if decision.outcome = .rejected then do
      let _ ← rejectActionIntent consent.id
      pure (.rejected consent.id decision.reason)
    else if verifyConsentDigest hashing operation consent then
      executeApprovedSideEffect client operation input consent
    else .halt (connectorGatewayError "Action Intent digest verification failed")

/-- Creates the intent, or has it replayed, and goes on with what the store then shows. -/
def createAndResolve (hashing : Hashing) (client : Client) (operation : SideEffectOperation)
    (input : SideEffectInput) (prepared : PreparedSideEffect) (kind : AuthorizationKind) :
    Program SideEffectResult :=
  match requiredConnectionScopes operation kind with
  | none => .halt "Operation does not support GitHub installation authority"
  | some requiredScopes => do
    let now ← Tx.receiving Reply.now
    let created ← createActionIntent
      { workspaceId := input.workspaceId
        executionId := input.executionId
        nodeId := input.nodeId
        connectionId := input.connectionId
        connector := operation.provider
        actionFamily := operation.actionFamily
        requiredScopes := requiredScopes
        operationId := operation.id
        operationRevision := operation.revision
        digestVersion := ACTION_INTENT_DIGEST_VERSION
        canonicalDigest := prepared.canonicalDigest
        canonicalEnvelope := prepared.envelope
        invocationIdempotencyKey := input.invocationIdempotencyKey
        expiresAt := now + 15 * 60000 }
    match created with
    | .idempotencyConflict => .halt (connectorGatewayError "Connector invocation idempotency conflict")
    | .authorityInvalid => .halt (connectorGatewayError "Connector operation rejected")
    | .connectionReauthorizationRequired => .halt (connectorGatewayError "Connection requires reauthorization")
    | .connectionScopeInsufficient => .halt (connectorGatewayError "Connection needs additional scopes")
    | .created _ | .replay _ => do
      let consent ← Tx.select (getActionIntentConsent input)
      match consent with
      | none => .halt "Created Action Intent was not found"
      | some consent => resolveSideEffectConsent hashing client operation input consent

def executeSideEffect (hashing : Hashing) (client : Client) (operation : SideEffectOperation)
    (input : SideEffectInput) : Program SideEffectResult :=
  match prepareSideEffect hashing operation input.connectionId input.operationInput with
  | none => .halt (connectorGatewayError "Connector input is invalid")
  | some prepared => do
    let existing ← Tx.select (getActionIntentConsent input)
    match existing with
    | some consent =>
      if consent.intent.canonicalDigest ≠ prepared.canonicalDigest ∨
          consent.intent.connectionId ≠ input.connectionId then
        .halt (connectorGatewayError "Connector invocation idempotency conflict")
      else if consent.intent.status ≠ .awaitingConsent ∧ consent.intent.status ≠ .ready then
        resolveSideEffectConsent hashing client operation input consent
      else createAndResolve hashing client operation input prepared (grantKind consent.intent)
    | none => do
      let authority ← Tx.select (getConnectorReadAuthority input)
      match authority with
      | none => .halt (connectorGatewayError "Connector operation rejected")
      | some connection =>
        createAndResolve hashing client operation input prepared connection.authorizationKind

/-- One attempt of a worker at the side effect `operationId`. -/
def execute (registry : Registry) (hashing : Hashing) (client : Client) (operationId : String)
    (input : SideEffectInput) : Program Unit :=
  match registeredSideEffectOperation registry operationId with
  | none => .halt (connectorGatewayError "Connector operation rejected")
  | some operation => do
    let _ ← executeSideEffect hashing client operation input
    pure ()

end Execution
end Linea.Consent
