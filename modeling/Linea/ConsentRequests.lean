import Linea.ConsentIntents

/-! The transactions that create, decide and cancel Approval Requests, and the creation and
cancellation of Action Intents together with their requests. Audit log rows, the events about
requests and the message that resumes a paused execution are left out; the rows these statements
lock, and what makes them fail, are not. -/
namespace Linea.Consent

section Hashing

/-- The two hash functions, SHA-256 of canonical JSON, taken to be free of collisions as far as the
code depends on it. `digestActionIntent` throws on values that are not I-JSON. -/
structure Hashing where
  digestActionIntent : ActionIntentEnvelope → Option String
  hashPublicRequest : String → DecisionOutcome → Option String → String
  digest_operation : ∀ {e e' digest}, digestActionIntent e = some digest →
    digestActionIntent e' = some digest → e.operation = e'.operation
  hash_request : ∀ {id id' outcome outcome' comment comment'},
    hashPublicRequest id outcome comment = hashPublicRequest id' outcome' comment' → id = id'

end Hashing

section Creation

def Store.findRequest (executionId nodeId : String) (s : Store) : Option (String × ApprovalRequest) :=
  (s.requests.entries.find? fun p => p.2.row.executionId = executionId ∧ p.2.row.nodeId = nodeId).map
    fun p => (p.1, p.2.row)

def Store.insertRequest (id : String) (row : ApprovalRequest) (s : Store) : Store :=
  { s with requests := s.requests.set id ⟨row, []⟩ }

/-- The checks of the table on the columns an insert sets. -/
def requestCheck (requestedAt : ℕ) (question : Question) : Bool :=
  match question.expiresAt, question.timeoutAction with
  | none, none => true
  | some t, some _ => requestedAt < t
  | _, _ => false

/-- The owner of a request to an external subject has to be a verified member. -/
def requireRequestOwner (question : Question) : Program Unit :=
  match question.audience, question.environmentId, question.externalSubjectId with
  | .workspace, _, _ => pure ()
  | .externalSubject, some environmentId, some externalSubjectId => do
    let owner ← Tx.select fun s =>
      verifiedMember s question.workspaceId environmentId externalSubjectId
    if owner then pure ()
    else .halt "External-subject Approval Requests require a verified owner in the Environment"
  | .externalSubject, _, _ =>
    .halt "External-subject Approval Requests require an Environment and External Subject"

def publishRequestEvent (question : Question) : Program Unit :=
  match question.audience, question.environmentId, question.externalSubjectId with
  | .workspace, _, _ => pure ()
  | .externalSubject, some environmentId, some externalSubjectId =>
    lockAudience question.workspaceId environmentId externalSubjectId
  | .externalSubject, _, _ => .halt "External Approval Request is missing its audience"

/-- `none` when the execution has a request for the node already. -/
def createApprovalRequest (question : Question) : Program (Option (String × ApprovalRequest)) := do
  requireRequestOwner question
  let id ← Tx.receiving Reply.id
  let requestedAt ← Tx.receiving Reply.now
  let stored := { question with
    approverEmails := question.approverEmails.map fun emails => emails.map String.toLower }
  let row : ApprovalRequest := ⟨stored, .pending, 1, none⟩
  if requestCheck requestedAt question = false then
    .halt "new row violates check constraint approval_requests_expiry_check"
  else do
    let taken ← lockSlot (.requestSlot question.executionId question.nodeId)
      (Store.findRequest question.executionId question.nodeId)
    if taken.isSome then return none
    let used ← lockSlot (.request id) (Store.request id)
    if used.isSome then .halt "duplicate key value violates approval_requests_pkey"
    else do
      Tx.update (Store.insertRequest id row)
      publishRequestEvent stored
      pure (some (id, row))

structure CreateActionIntentInput where
  workspaceId : String
  executionId : String
  nodeId : String
  connectionId : String
  connector : String
  actionFamily : String
  requiredScopes : List String
  operationId : String
  operationRevision : String
  digestVersion : String
  canonicalDigest : String
  canonicalEnvelope : ActionIntentEnvelope
  invocationIdempotencyKey : String
  expiresAt : ℕ

inductive CreateActionIntentResult
  | created (id : String)
  | replay (id : String)
  | idempotencyConflict
  | connectionReauthorizationRequired
  | connectionScopeInsufficient
  | authorityInvalid
  deriving DecidableEq, Repr

def sameInvocation (intent : ActionIntent) (input : CreateActionIntentInput) : Bool :=
  intent.canonicalDigest = input.canonicalDigest ∧ intent.digestVersion = input.digestVersion

def Store.findIntent (executionId nodeId invocationIdempotencyKey : String) (s : Store) :
    Option (String × ActionIntent) :=
  (s.intents.entries.find? fun p => p.2.row.executionId = executionId ∧ p.2.row.nodeId = nodeId ∧
    p.2.row.invocationIdempotencyKey = invocationIdempotencyKey).map fun p => (p.1, p.2.row)

def findInvokedActionIntent (input : CreateActionIntentInput) (s : Store) :
    Option (String × ActionIntent) :=
  s.findIntent input.executionId input.nodeId input.invocationIdempotencyKey

/-- An intent that has not been executed is replayed only while its connection can be used. -/
def replayBoundary (intent : ActionIntent) (input : CreateActionIntentInput) :
    Program AuthorityBoundary := do
  if intent.status ≠ .awaitingConsent ∧ intent.status ≠ .ready then return .authorized
  let connection ← Tx.select fun s => (s.connections intent.connectionId).filter fun c =>
    c.workspaceId = intent.workspaceId ∧ c.environmentId = intent.environmentId ∧
      c.provider = input.connector
  let environment ← Tx.select fun s => (s.environments intent.environmentId).filter fun e =>
    e.workspaceId = intent.workspaceId
  pure (connectionAuthorityBoundary connection environment
    { workspaceId := intent.workspaceId
      environmentId := intent.environmentId
      externalSubjectId := intent.externalSubjectId
      provider := input.connector
      actionFamily := input.actionFamily
      requiredScopes := input.requiredScopes })

def storedApprovalRequest (intent : ActionIntent)
    (approvalRequest : Option (String × ApprovalRequest)) : Program (Option ApprovalRequest) :=
  match approvalRequest with
  | some request => pure (some request.2)
  | none => Tx.select (Store.requestRow intent.approvalRequestId)

def replayActionIntent (id : String) (intent : ActionIntent)
    (approvalRequest : Option (String × ApprovalRequest)) (input : CreateActionIntentInput) :
    Program CreateActionIntentResult := do
  if sameInvocation intent input = false then return .idempotencyConflict
  let boundary ← replayBoundary intent input
  if boundary = .reauthorizationRequired then return .connectionReauthorizationRequired
  if boundary = .scopeInsufficient then return .connectionScopeInsufficient
  let stored ← storedApprovalRequest intent approvalRequest
  match stored with
  | none => .halt "Action Intent is missing its Approval Request"
  | some _ => pure (.replay id)

def Store.intentOfRequest (approvalRequestId : String) (s : Store) :
    Option (String × ActionIntent) :=
  (s.intents.entries.find? fun p => p.2.row.approvalRequestId = approvalRequestId).map fun p =>
    (p.1, p.2.row)

def Store.insertIntent (id : String) (row : ActionIntent) (s : Store) : Store :=
  { s with intents := s.intents.set id ⟨row, [], [], [], [], []⟩ }

def ACTION_INTENT_DIGEST_VERSION : String := "jcs-sha256-v1"

/-- The checks of the table on the digest and on the envelope. -/
def intentCheck (input : CreateActionIntentInput) : Bool :=
  input.digestVersion = ACTION_INTENT_DIGEST_VERSION ∧
    input.canonicalEnvelope.connectionId = input.connectionId ∧
    input.canonicalEnvelope.connector = input.connector ∧
    input.canonicalEnvelope.operation = input.operationId ∧
    input.canonicalEnvelope.operationRevision = input.operationRevision

/-- The insert of the intent: `none` when the invocation has one. -/
def insertActionIntent (input : CreateActionIntentInput) (row : ActionIntent) :
    Program (Option String) := do
  let id ← Tx.receiving Reply.id
  if intentCheck input = false then .halt "new row violates a check constraint of action_intents"
  else do
    let taken ← lockSlot
      (.intentSlot input.executionId input.nodeId input.invocationIdempotencyKey)
      (findInvokedActionIntent input)
    if taken.isSome then return none
    let paired ← lockSlot (.intentRequestSlot row.approvalRequestId)
      (Store.intentOfRequest row.approvalRequestId)
    if paired.isSome then
      .halt "duplicate key value violates action_intents_approval_request_uidx"
    else do
      let used ← lockSlot (.intent id) (Store.intent id)
      if used.isSome then .halt "duplicate key value violates action_intents_pkey"
      else do
        Tx.update (Store.insertIntent id row)
        pure (some id)

def foundApprovalRequest (created : Option (String × ApprovalRequest))
    (input : CreateActionIntentInput) : Program (Option (String × ApprovalRequest)) :=
  match created with
  | some request => pure (some request)
  | none => Tx.select (Store.findRequest input.executionId input.nodeId)

def createActionIntent (input : CreateActionIntentInput) : Program CreateActionIntentResult :=
  Tx.transaction do
  Tx.selectForUpdate (fun _ => [.advisory input.executionId]) fun _ => ()
  let existing ← Tx.select (findInvokedActionIntent input)
  match existing with
  | some (id, intent) => replayActionIntent id intent none input
  | none =>
    let snapshot ← Tx.select fun s => (s.execution input.executionId).filter fun e =>
      e.workspaceId = input.workspaceId
    match snapshot.bind Execution.environmentId, snapshot.bind Execution.externalSubjectRecordId with
    | some environmentId, some externalSubjectId =>
      let subject ← lockRow (.subject externalSubjectId) (Store.subject externalSubjectId)
      let environment ← lockRow (.environment environmentId) fun s => s.environments environmentId
      let connection ← lockRow (.connection input.connectionId) fun s =>
        s.connections input.connectionId
      let execution ← lockRow (.execution input.executionId) (Store.execution input.executionId)
      let requesterAuthority ← readRequesterAuthority input.connectionId connection
        externalSubjectId
      let authority := connectionAuthorityBoundary connection environment
        { workspaceId := input.workspaceId
          environmentId := environmentId
          externalSubjectId := externalSubjectId
          provider := input.connector
          actionFamily := input.actionFamily
          requiredScopes := input.requiredScopes }
      if authority = .reauthorizationRequired then return .connectionReauthorizationRequired
      if authority = .scopeInsufficient then return .connectionScopeInsufficient
      match requesterAuthority, execution.bind Execution.environmentId,
          execution.bind Execution.externalSubjectRecordId with
      | some grantId, some environmentId, some externalSubjectId =>
        if authority ≠ .authorized ∨ execution.map Execution.status ≠ some .running ∨
            subject.map ExternalSubject.status ≠ some .verified then
          return .authorityInvalid
        let created ← createApprovalRequest
          { workspaceId := input.workspaceId
            environmentId := some environmentId
            executionId := input.executionId
            nodeId := input.nodeId
            audience := .externalSubject
            externalSubjectId := some externalSubjectId
            approverEmails := none
            expiresAt := some input.expiresAt
            timeoutAction := some .autoReject
            actionIntentDigest := some input.canonicalDigest }
        let approvalRequest ← foundApprovalRequest created input
        let usable := approvalRequest.filter fun request =>
          request.2.audience = .externalSubject ∧ request.2.timeoutAction = some .autoReject ∧
            request.2.actionIntentDigest = some input.canonicalDigest
        match usable with
        | none =>
          let conflicting ← Tx.select (findInvokedActionIntent input)
          match conflicting with
          | none => pure .idempotencyConflict
          | some (id, intent) => replayActionIntent id intent approvalRequest input
        | some (approvalRequestId, _) =>
          let createdAt ← Tx.receiving Reply.now
          let row : ActionIntent :=
            { workspaceId := input.workspaceId
              environmentId := environmentId
              externalSubjectId := externalSubjectId
              connectionId := input.connectionId
              connectionAccessGrantId := grantId
              executionId := input.executionId
              nodeId := input.nodeId
              approvalRequestId := approvalRequestId
              connector := input.connector
              operationId := input.operationId
              operationRevision := input.operationRevision
              digestVersion := input.digestVersion
              canonicalDigest := input.canonicalDigest
              canonicalEnvelope := input.canonicalEnvelope
              invocationIdempotencyKey := input.invocationIdempotencyKey
              status := .awaitingConsent
              executionClaimId := none
              dispatchStartedAt := none
              providerAttemptCount := 0
              normalizedResult := none
              normalizedError := none
              updatedAt := createdAt }
          let inserted ← insertActionIntent input row
          match inserted with
          | some id => do
            recordActionIntentFact id row ⟨.created, createdAt, none, none⟩
            pure (.created id)
          | none =>
            let raced ← Tx.select (findInvokedActionIntent input)
            match raced with
            | none => .halt "Action Intent conflict did not resolve"
            | some (id, intent) => replayActionIntent id intent approvalRequest input
      | _, _, _ => pure .authorityInvalid
    | _, _ => pure .authorityInvalid

end Creation
end Linea.Consent
