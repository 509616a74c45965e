import Linea.ConsentStore
import Mathlib.Data.List.Sort

/-! The OAuth connections of external subjects: authorization requests, the connections they end
in, and the revocation deliveries that hold a credential until the provider has been told to
forget it. Every operation is one transaction on the tables, taken as one step; what a
transaction writes before it throws is rolled back. -/
namespace Linea.Connections
open Linea.Consent (SubjectStatus ProviderPolicy ConnectionStatus)

/-- `context` of `encryptCredential`, the associated data that a ciphertext is bound to. -/
structure CredentialContext where
  workspaceId : String
  environmentId : String
  externalSubjectId : Option String
  recordId : String
  provider : String
  deriving DecidableEq, Repr

/-- What `encryptCredential` returns: the text can only be read in the same context. -/
structure Ciphertext where
  plaintext : String
  context : CredentialContext
  deriving DecidableEq, Repr

def encryptCredential (plaintext : String) (context : CredentialContext) : Ciphertext :=
  ⟨plaintext, context⟩

structure Environment where
  id : String
  workspaceId : String
  enabled : Bool
  connectorAccessPolicy : List ProviderPolicy
  contentRetentionDays : ℕ
  deriving DecidableEq, Repr

structure ExternalSubject where
  id : String
  workspaceId : String
  status : SubjectStatus
  auditReference : String
  deriving DecidableEq, Repr

structure ConnectionOwner where
  workspaceId : String
  environmentId : String
  externalSubjectId : String
  deriving DecidableEq, Repr

structure EndUserSession extends ConnectionOwner where
  id : String
  expiresAt : ℕ
  revokedAt : Option ℕ
  deriving DecidableEq, Repr

inductive AuthorizationOutcome
  | succeeded
  | failed
  deriving DecidableEq, Repr

structure AuthorizationRequest extends ConnectionOwner where
  id : String
  endUserSessionId : Option String
  provider : String
  scopes : List String
  stateHash : String
  codeVerifierEncrypted : Option String
  targetConnectionId : Option String
  resultConnectionId : Option String
  outcome : Option AuthorizationOutcome
  expiresAt : ℕ
  claimedAt : Option ℕ
  completedAt : Option ℕ
  createdAt : ℕ
  deriving DecidableEq, Repr

/-- A connection of an environment has no external subject. -/
structure Connection where
  id : String
  workspaceId : String
  environmentId : String
  externalSubjectId : Option String
  provider : String
  providerAccountId : String
  accountLabel : String
  status : ConnectionStatus
  scopes : List String
  credentialEncrypted : Option Ciphertext
  credentialVersion : ℕ
  createdAt : ℕ
  updatedAt : ℕ
  revokedAt : Option ℕ
  deriving DecidableEq, Repr

structure RevocationDelivery extends ConnectionOwner where
  id : String
  connectionId : Option String
  provider : String
  providerAccountId : Option String
  credentialEncrypted : Option Ciphertext
  expiresAt : ℕ
  availableAt : ℕ
  attemptCount : ℕ
  lastAttemptAt : Option ℕ
  lastFailureClass : Option String
  claimedBy : Option String
  claimExpiresAt : Option ℕ
  deliveredAt : Option ℕ
  createdAt : ℕ
  deriving DecidableEq, Repr

inductive ConnectionFactType
  | created
  | refreshed
  | credentialRotated
  | reauthorizationRequired
  | revoked
  | revocationPayloadDestroyed
  deriving DecidableEq, Repr

/-- `content` is the account label. -/
structure ConnectorAuditFact where
  workspaceId : String
  environmentId : String
  externalSubjectId : Option String
  subjectReference : Option String
  connectionId : String
  factType : ConnectionFactType
  provider : String
  outcome : Option String
  failureClass : Option String
  content : Option String
  contentExpiresAt : ℕ
  auditExpiresAt : ℕ
  occurredAt : ℕ
  deriving DecidableEq, Repr

/-- `memberships` are the rows of `external_subject_environments`. -/
structure Store where
  environments : List Environment
  subjects : List ExternalSubject
  memberships : List ConnectionOwner
  sessions : List EndUserSession
  requests : List AuthorizationRequest
  connections : List Connection
  deliveries : List RevocationDelivery
  facts : List ConnectorAuditFact
  deriving DecidableEq, Repr

/-! ## Audit facts -/

def dayMs : ℕ := 24 * 60 * 60 * 1000

/-- The year, counted from March, of a time in milliseconds since 1970. -/
def marchYear (time : ℕ) : ℕ :=
  let day := time / dayMs + 719468
  let era := day / 146097
  let dayOfEra := day % 146097
  era * 400 + (dayOfEra - dayOfEra / 1460 + dayOfEra / 36524 - dayOfEra / 146096) / 365

def isLeapYear (year : ℕ) : Bool := year % 4 = 0 && (year % 100 ≠ 0 || year % 400 = 0)

/-- The same day and time a year on; the 29th of February becomes the 1st of March. -/
def auditExpiry (occurredAt : ℕ) : ℕ :=
  -- from March on the year that follows holds the leap day, before March the current one
  occurredAt + (if isLeapYear (marchYear occurredAt + 1) then 366 else 365) * dayMs

example : auditExpiry 1709208000000 = 1740830400000 := by decide

structure RetentionContext where
  contentRetentionDays : ℕ
  subjectReference : Option String
  deriving DecidableEq, Repr

def retentionContext (s : Store) (environmentId : String) (externalSubjectId : Option String) :
    Except String RetentionContext :=
  match externalSubjectId with
  | none =>
    match s.environments.find? (·.id = environmentId) with
    | some environment => .ok ⟨environment.contentRetentionDays, none⟩
    | none => .error "Connector audit Environment is missing"
  | some externalSubjectId =>
    match s.environments.find? (·.id = environmentId) with
    | none => .error "Connector audit retention context is missing"
    | some environment =>
      match s.subjects.find? fun subject =>
          subject.workspaceId = environment.workspaceId ∧ subject.id = externalSubjectId with
      | some subject => .ok ⟨environment.contentRetentionDays, some subject.auditReference⟩
      | none => .error "Connector audit retention context is missing"

structure FactInput where
  connection : Connection
  factType : ConnectionFactType
  occurredAt : ℕ
  outcome : Option String
  failureClass : Option String := none
  content : Option String := none
  deriving DecidableEq, Repr

def connectionFact (input : FactInput) (context : RetentionContext) : ConnectorAuditFact :=
  let auditExpiresAt := auditExpiry input.occurredAt
  { workspaceId := input.connection.workspaceId
    environmentId := input.connection.environmentId
    externalSubjectId := input.connection.externalSubjectId
    subjectReference := context.subjectReference
    connectionId := input.connection.id
    factType := input.factType
    provider := input.connection.provider
    outcome := input.outcome
    failureClass := input.failureClass
    content := input.content
    contentExpiresAt := min (input.occurredAt + context.contentRetentionDays * dayMs) auditExpiresAt
    auditExpiresAt
    occurredAt := input.occurredAt }

def recordConnectionFact (s : Store) (input : FactInput) : Except String Store :=
  match retentionContext s input.connection.environmentId input.connection.externalSubjectId with
  | .ok context => .ok { s with facts := s.facts ++ [connectionFact input context] }
  | .error message => .error message

def recordConnectionFacts (s : Store) : List FactInput → Except String Store
  | [] => .ok s
  | input :: inputs =>
    match recordConnectionFact s input with
    | .ok s' => recordConnectionFacts s' inputs
    | .error message => .error message

/-! ## Authorizations -/

structure ClaimAuthorizationInput where
  provider : String
  stateHash : String
  now : ℕ
  deriving DecidableEq, Repr

def claimable (input : ClaimAuthorizationInput) (request : AuthorizationRequest) : Bool :=
  request.provider = input.provider && request.stateHash = input.stateHash &&
    request.claimedAt.isNone && request.completedAt.isNone && input.now < request.expiresAt

/-- `none` is the outcome `invalid`. -/
def claimConnectionAuthorizationRequest (s : Store) (input : ClaimAuthorizationInput) :
    Option AuthorizationRequest × Store :=
  let claim (request : AuthorizationRequest) := { request with claimedAt := some input.now }
  ((s.requests.find? (claimable input)).map claim,
    { s with requests := s.requests.map fun request =>
        if claimable input request then claim request else request })

/-- The deliveries whose payload may end the grant of the account. -/
def grantDelivery (request : AuthorizationRequest) (providerAccountId : String)
    (delivery : RevocationDelivery) : Bool :=
  delivery.provider = request.provider &&
    (delivery.providerAccountId = some providerAccountId ||
      (delivery.providerAccountId.isNone &&
        delivery.toConnectionOwner = request.toConnectionOwner))

/-- The delivery is being sent, or was sent after the request was made. -/
def blocksGrant (request : AuthorizationRequest) (delivery : RevocationDelivery) : Bool :=
  -- an empty claimant counts as none
  delivery.claimedBy.getD "" ≠ "" ||
    match delivery.deliveredAt with
    | some deliveredAt => request.createdAt ≤ deliveredAt
    | none => delivery.lastAttemptAt.any (request.createdAt ≤ ·)

/-- The facts that the payloads of the given deliveries were destroyed; a delivery that belongs to
no connection leaves none. -/
def destroyedFacts (s : Store) (deliveries : List RevocationDelivery) (occurredAt : ℕ)
    (outcome : String) (failureClass : RevocationDelivery → Option String) : List FactInput :=
  deliveries.filterMap fun delivery => do
    let connectionId ← delivery.connectionId
    let connection ← s.connections.find? (·.id = connectionId)
    pure { connection, factType := .revocationPayloadDestroyed, occurredAt,
           outcome := some outcome, failureClass := failureClass delivery }

def fenceGoogleRevocations (s : Store) (request : AuthorizationRequest)
    (providerAccountId currentDeliveryId : String) (now : ℕ) : Except String (Bool × Store) :=
  if request.provider ≠ "google" then .ok (true, s)
  else
    let deliveries := s.deliveries.filter (grantDelivery request providerAccountId)
    if deliveries.any fun delivery => delivery.id ≠ currentDeliveryId && blocksGrant request delivery
    then .ok (false, s)
    else
      let pending := deliveries.filter fun delivery =>
        delivery.id ≠ currentDeliveryId && delivery.deliveredAt.isNone
      match recordConnectionFacts s (destroyedFacts s pending now "superseded" fun _ => none) with
      | .ok s' => .ok (true, { s' with
          deliveries := s'.deliveries.filter (·.id ∉ pending.map (·.id)) })
      | .error message => .error message

structure CompleteAuthorizationInput where
  authorizationRequestId : String
  claimedAt : ℕ
  connectionId : String
  providerAccountId : String
  accountLabel : String
  grantedScopes : List String
  actionFamilies : List String
  requiredScopes : List String
  credentialPlaintext : String
  revocationDeliveryId : String
  now : ℕ
  deriving DecidableEq, Repr

inductive CompleteAuthorizationResult
  | completed (connection : Connection)
  | invalid
  deriving DecidableEq, Repr

/-- The request of a completion, and none when it is not the one that the caller has claimed. -/
def claimedRequest (s : Store) (input : CompleteAuthorizationInput) : Option AuthorizationRequest :=
  (s.requests.find? (·.id = input.authorizationRequestId)).filter fun request =>
    request.claimedAt = some input.claimedAt && request.completedAt.isNone &&
      request.endUserSessionId.isSome

structure Authority where
  enabled : Bool
  connectorAccessPolicy : List ProviderPolicy
  subjectStatus : SubjectStatus
  sessionExpiresAt : ℕ
  sessionRevokedAt : Option ℕ
  deriving DecidableEq, Repr

def authority (s : Store) (request : AuthorizationRequest) : Option Authority := do
  let environment ← s.environments.find? fun environment =>
    environment.id = request.environmentId && environment.workspaceId = request.workspaceId
  let _ ← s.memberships.find? (· = request.toConnectionOwner)
  let subject ← s.subjects.find? fun subject =>
    subject.id = request.externalSubjectId && subject.workspaceId = request.workspaceId
  let session ← s.sessions.find? fun session =>
    some session.id = request.endUserSessionId &&
      session.toConnectionOwner = request.toConnectionOwner
  pure ⟨environment.enabled, environment.connectorAccessPolicy, subject.status,
    session.expiresAt, session.revokedAt⟩

section Locale
-- the collation of the process
variable (localeCompare : String → String → ℤ)

def sortLocale (values : List String) : List String :=
  values.insertionSort fun left right => localeCompare left right ≤ 0

def sameValues (left right : List String) : Bool :=
  sortLocale localeCompare left = sortLocale localeCompare right

/-- The checks of a completion that come before the pending revocations are looked at. -/
def authorizes (s : Store) (request : AuthorizationRequest) (input : CompleteAuthorizationInput) :
    Bool :=
  let grantedScopes := sortLocale localeCompare input.grantedScopes.eraseDups
  match authority s request with
  | none => false
  | some authority =>
    match authority.connectorAccessPolicy.find? (·.provider = request.provider) with
    | none => false
    | some providerPolicy =>
      authority.enabled && authority.subjectStatus = .verified &&
        authority.sessionRevokedAt.isNone && input.now < authority.sessionExpiresAt &&
        sameValues localeCompare providerPolicy.actionFamilies input.actionFamilies &&
        request.scopes = input.requiredScopes &&
        request.scopes.all (· ∈ providerPolicy.maxScopes) &&
        input.requiredScopes = grantedScopes &&
        grantedScopes.all (· ∈ providerPolicy.maxScopes)

/-- The connections of the request's owner and provider that are not revoked. -/
def liveConnection (request : AuthorizationRequest) (connection : Connection) : Bool :=
  connection.workspaceId = request.workspaceId &&
    connection.environmentId = request.environmentId &&
    connection.externalSubjectId = some request.externalSubjectId &&
    connection.provider = request.provider && connection.status ≠ .revoked

def accountConnection (s : Store) (request : AuthorizationRequest) (providerAccountId : String) :
    Option Connection :=
  s.connections.find? fun connection =>
    liveConnection request connection && connection.providerAccountId = providerAccountId

def targetConnection (s : Store) (request : AuthorizationRequest) : Option Connection := do
  let targetConnectionId ← request.targetConnectionId
  s.connections.find? fun connection =>
    connection.id = targetConnectionId && liveConnection request connection

def existingConnection (s : Store) (request : AuthorizationRequest)
    (input : CompleteAuthorizationInput) : Option Connection :=
  targetConnection s request <|> accountConnection s request input.providerAccountId

/-- The checks of a completion that come after the pending revocations were superseded: a target
that is gone or has another account, and an active connection with a scope not granted again. -/
def refuses (s : Store) (request : AuthorizationRequest) (input : CompleteAuthorizationInput) :
    Bool :=
  (request.targetConnectionId.isSome &&
      (targetConnection s request).map (·.providerAccountId) ≠ some input.providerAccountId) ||
    (existingConnection s request input).any fun existing =>
      existing.status = .active && existing.scopes.any (· ∉ input.grantedScopes)

def connectionCredential (request : AuthorizationRequest) (input : CompleteAuthorizationInput)
    (connectionId : String) : Ciphertext :=
  encryptCredential input.credentialPlaintext
    { workspaceId := request.workspaceId
      environmentId := request.environmentId
      externalSubjectId := some request.externalSubjectId
      recordId := connectionId
      provider := request.provider }

def refreshedConnection (request : AuthorizationRequest) (input : CompleteAuthorizationInput)
    (existing : Connection) : Connection :=
  { existing with
    accountLabel := input.accountLabel
    status := .active
    scopes := input.grantedScopes
    credentialEncrypted := some (connectionCredential request input existing.id)
    credentialVersion := existing.credentialVersion + 1
    updatedAt := input.now }

def createdConnection (request : AuthorizationRequest) (input : CompleteAuthorizationInput) :
    Connection :=
  { id := input.connectionId
    workspaceId := request.workspaceId
    environmentId := request.environmentId
    externalSubjectId := some request.externalSubjectId
    provider := request.provider
    providerAccountId := input.providerAccountId
    accountLabel := input.accountLabel
    status := .active
    scopes := input.grantedScopes
    credentialEncrypted := some (connectionCredential request input input.connectionId)
    credentialVersion := 1
    createdAt := input.now
    updatedAt := input.now
    revokedAt := none }

/-- An insert that meets the primary key or the unique index of owners fails. -/
def insertConnection (s : Store) (connection : Connection) : Except String Store :=
  if s.connections.any (·.id = connection.id) then
    .error "duplicate key value violates unique constraint"
  else if s.connections.any fun other =>
      other.workspaceId = connection.workspaceId &&
        other.environmentId = connection.environmentId &&
        other.externalSubjectId.isSome && other.externalSubjectId = connection.externalSubjectId &&
        other.provider = connection.provider &&
        other.providerAccountId = connection.providerAccountId && other.status ≠ .revoked then
    .error "duplicate key value violates unique constraint"
  else .ok { s with connections := s.connections ++ [connection] }

/-- The connection that a completion writes. -/
def writeConnection (s : Store) (request : AuthorizationRequest)
    (input : CompleteAuthorizationInput) : Except String (Connection × Store) :=
  match existingConnection s request input with
  | some existing =>
    let connection := refreshedConnection request input existing
    .ok (connection, { s with connections := s.connections.map fun row =>
      if row.id = existing.id then refreshedConnection request input row else row })
  | none =>
    match insertConnection s (createdConnection request input) with
    | .ok s' => .ok (createdConnection request input, s')
    | .error message => .error message

def succeededRequest (request : AuthorizationRequest) (connectionId : String) (now : ℕ) :
    AuthorizationRequest :=
  { request with
    completedAt := some now
    outcome := some .succeeded
    resultConnectionId := some connectionId
    codeVerifierEncrypted := none
    endUserSessionId := none }

/-- The staged revocation of the credential that is being installed. -/
def stagedDelivery (request : AuthorizationRequest) (revocationDeliveryId : String)
    (delivery : RevocationDelivery) : Bool :=
  delivery.id = revocationDeliveryId && delivery.toConnectionOwner = request.toConnectionOwner &&
    delivery.provider = request.provider && delivery.connectionId.isNone &&
    delivery.claimedBy.isNone && delivery.deliveredAt.isNone

def installConnection (s : Store) (request : AuthorizationRequest)
    (input : CompleteAuthorizationInput) : Except String (CompleteAuthorizationResult × Store) := do
  let (connection, written) ← writeConnection s request input
  let requests := written.requests.map fun row =>
    if row.id = request.id then succeededRequest row connection.id input.now else row
  let staged := stagedDelivery request input.revocationDeliveryId
  if written.deliveries.any staged then
    let recorded ← recordConnectionFact
      { written with requests, deliveries := written.deliveries.filter fun row => !staged row }
      { connection
        factType := if (existingConnection s request input).isSome then .refreshed else .created
        occurredAt := input.now
        outcome := some "active"
        content := some connection.accountLabel }
    pure (.completed connection, recorded)
  else throw "Authorization credential cleanup was already claimed"

def completeConnectionAuthorizationRequest (s : Store) (input : CompleteAuthorizationInput) :
    Except String (CompleteAuthorizationResult × Store) :=
  match claimedRequest s input with
  | none => .ok (.invalid, s)
  | some request =>
    if !authorizes localeCompare s request input then .ok (.invalid, s)
    else
      match fenceGoogleRevocations s request input.providerAccountId input.revocationDeliveryId
          input.now with
      | .error message => .error message
      | .ok (false, fenced) => .ok (.invalid, fenced)
      | .ok (true, fenced) =>
        if refuses fenced request input then .ok (.invalid, fenced)
        else installConnection fenced request input

end Locale

structure FailAuthorizationInput where
  authorizationRequestId : String
  claimedAt : ℕ
  completedAt : ℕ
  deriving DecidableEq, Repr

def failConnectionAuthorizationRequest (s : Store) (input : FailAuthorizationInput) : Bool × Store :=
  let unfinished (request : AuthorizationRequest) : Bool :=
    request.id = input.authorizationRequestId && request.claimedAt = some input.claimedAt &&
      request.completedAt.isNone
  (s.requests.any unfinished,
    { s with requests := s.requests.map fun request =>
        if unfinished request then
          { request with
            completedAt := some input.completedAt
            outcome := some .failed
            codeVerifierEncrypted := none
            endUserSessionId := none }
        else request })

def deleteExpiredConnectionAuthorizationRequests (s : Store) (now : ℕ) : ℕ × Store :=
  ((s.requests.filter (·.expiresAt ≤ now)).length,
    { s with requests := s.requests.filter (now < ·.expiresAt) })

/-! ## Connections -/

def ownedConnection (owner : ConnectionOwner) (connectionId : String) (connection : Connection) :
    Bool :=
  connection.workspaceId = owner.workspaceId && connection.environmentId = owner.environmentId &&
    connection.externalSubjectId = some owner.externalSubjectId && connection.id = connectionId

def getConnection (s : Store) (owner : ConnectionOwner) (connectionId : String) :
    Option Connection :=
  s.connections.find? (ownedConnection owner connectionId)

/-- One guarded update of a connection with the fact it records; `none` when no row meets the
guard. -/
def updateConnection (s : Store) (guard : Connection → Bool) (change : Connection → Connection)
    (fact : Connection → FactInput) : Except String (Option Connection × Store) :=
  match s.connections.find? guard with
  | none => .ok (none, s)
  | some connection => do
    let recorded ← recordConnectionFact
      { s with connections := s.connections.map fun row => if guard row then change row else row }
      (fact (change connection))
    pure (some (change connection), recorded)

def rotateConnectionCredential (s : Store) (owner : ConnectionOwner) (connectionId : String)
    (expectedCredentialVersion : ℕ) (credentialEncrypted : Ciphertext) (now : ℕ) :
    Except String (Option Connection × Store) :=
  updateConnection s
    (fun connection => ownedConnection owner connectionId connection &&
      connection.status = .active && connection.credentialVersion = expectedCredentialVersion)
    (fun connection => { connection with
      credentialEncrypted := some credentialEncrypted
      credentialVersion := connection.credentialVersion + 1
      updatedAt := now })
    (fun connection => { connection, factType := .credentialRotated, occurredAt := now,
                         outcome := some "active" })

def requireConnectionReauthorization (s : Store) (owner : ConnectionOwner) (connectionId : String)
    (expectedCredentialVersion now : ℕ) : Except String (Option Connection × Store) :=
  updateConnection s
    (fun connection => ownedConnection owner connectionId connection &&
      connection.status = .active && connection.credentialVersion = expectedCredentialVersion)
    (fun connection => { connection with
      status := .reauthorizationRequired
      credentialEncrypted := none
      credentialVersion := connection.credentialVersion + 1
      updatedAt := now })
    (fun connection => { connection, factType := .reauthorizationRequired, occurredAt := now,
                         outcome := some "reauthorization_required" })

structure RevokeInput where
  expectedCredentialVersion : ℕ
  deliveryId : Option String
  revocationCredentialEncrypted : Option Ciphertext
  expiresAt : ℕ
  now : ℕ
  deriving DecidableEq, Repr

inductive RevokeResult
  | revoked (connection : Connection) (deliveryId : Option String)
  | notFound
  | conflict
  deriving DecidableEq, Repr

def insertDelivery (s : Store) (delivery : RevocationDelivery) : Except String Store :=
  if s.deliveries.any (·.id = delivery.id) then
    .error "duplicate key value violates unique constraint"
  else .ok { s with deliveries := s.deliveries ++ [delivery] }

def revocationDelivery (owner : ConnectionOwner) (connection : Connection) (id : String)
    (credentialEncrypted : Ciphertext) (expiresAt now : ℕ) : RevocationDelivery :=
  { toConnectionOwner := owner
    id
    connectionId := some connection.id
    provider := connection.provider
    providerAccountId := some connection.providerAccountId
    credentialEncrypted := some credentialEncrypted
    expiresAt
    availableAt := now
    attemptCount := 0
    lastAttemptAt := none
    lastFailureClass := none
    claimedBy := none
    claimExpiresAt := none
    deliveredAt := none
    createdAt := now }

/-- The Action Intents that a revocation cancels and the event it publishes are rows of other
tables. -/
def revokeConnection (s : Store) (owner : ConnectionOwner) (connectionId : String)
    (input : RevokeInput) : Except String (RevokeResult × Store) := do
  let (connection, revoked) ← updateConnection s
    (fun connection => ownedConnection owner connectionId connection &&
      connection.status ≠ .revoked &&
      connection.credentialVersion = input.expectedCredentialVersion)
    (fun connection => { connection with
      status := .revoked
      credentialEncrypted := none
      revokedAt := some input.now
      updatedAt := input.now })
    (fun connection => { connection, factType := .revoked, occurredAt := input.now,
                         outcome := some "revoked", content := some connection.accountLabel })
  match connection with
  | none => pure (if (getConnection s owner connectionId).isSome then .conflict else .notFound, s)
  | some connection =>
    match input.deliveryId, input.revocationCredentialEncrypted with
    | some deliveryId, some credential =>
      let staged ← insertDelivery revoked
        (revocationDelivery owner connection deliveryId credential input.expiresAt input.now)
      pure (.revoked connection input.deliveryId, staged)
    | _, _ => pure (.revoked connection input.deliveryId, revoked)

/-! ## Revocation deliveries -/

structure StageInput extends ConnectionOwner where
  id : String
  provider : String
  providerAccountId : String
  credentialEncrypted : Ciphertext
  availableAt : ℕ
  expiresAt : ℕ
  now : ℕ
  deriving DecidableEq, Repr

def stageAuthorizationCredentialRevocation (s : Store) (input : StageInput) : Except String Store :=
  insertDelivery s
    { toConnectionOwner := input.toConnectionOwner
      id := input.id
      connectionId := none
      provider := input.provider
      providerAccountId := some input.providerAccountId
      credentialEncrypted := some input.credentialEncrypted
      expiresAt := input.expiresAt
      availableAt := input.availableAt
      attemptCount := 0
      lastAttemptAt := none
      lastFailureClass := none
      claimedBy := none
      claimExpiresAt := none
      deliveredAt := none
      createdAt := input.now }

structure ClaimDeliveryInput where
  claimedBy : String
  now : ℕ
  claimExpiresAt : ℕ
  deriving DecidableEq, Repr

def deliverable (now : ℕ) (delivery : RevocationDelivery) : Bool :=
  delivery.deliveredAt.isNone && delivery.availableAt ≤ now && now < delivery.expiresAt &&
    (delivery.claimedBy.isNone || delivery.claimExpiresAt.any (· ≤ now))

/-- The order `availableAt, id`. -/
def dueBefore (first second : RevocationDelivery) : Bool :=
  first.availableAt < second.availableAt ||
    (first.availableAt = second.availableAt && first.id ≤ second.id)

/-- The first row that another transaction has not locked; `locked` are the rows passed over. -/
def claimRevocationDelivery (s : Store) (input : ClaimDeliveryInput) (locked : List String) :
    Option RevocationDelivery × Store :=
  let candidates := s.deliveries.filter fun delivery =>
    deliverable input.now delivery && delivery.id ∉ locked
  match candidates.insertionSort (fun first second => dueBefore first second = true) with
  | [] => (none, s)
  | candidate :: _ =>
    let claim (delivery : RevocationDelivery) : RevocationDelivery :=
      { delivery with
        attemptCount := delivery.attemptCount + 1
        lastAttemptAt := some input.now
        claimedBy := some input.claimedBy
        claimExpiresAt := some input.claimExpiresAt }
    (some (claim candidate), { s with deliveries := s.deliveries.map fun delivery =>
      if delivery.id = candidate.id then claim delivery else delivery })

/-- The guard of the three updates that a claimant makes. -/
def heldBy (deliveryId claimedBy : String) (delivery : RevocationDelivery) : Bool :=
  delivery.id = deliveryId && delivery.claimedBy = some claimedBy && delivery.deliveredAt.isNone

def updateDelivery (s : Store) (deliveryId claimedBy : String)
    (change : RevocationDelivery → RevocationDelivery) : Bool × Store :=
  (s.deliveries.any (heldBy deliveryId claimedBy),
    { s with deliveries := s.deliveries.map fun delivery =>
        if heldBy deliveryId claimedBy delivery then change delivery else delivery })

def completeRevocationDelivery (s : Store) (deliveryId claimedBy : String) (deliveredAt : ℕ) :
    Except String (Bool × Store) :=
  match s.deliveries.find? (heldBy deliveryId claimedBy) with
  | none => .ok (false, s)
  | some delivery =>
    let delivered := (updateDelivery s deliveryId claimedBy fun delivery => { delivery with
      deliveredAt := some deliveredAt
      credentialEncrypted := none
      claimedBy := none
      claimExpiresAt := none }).2
    match delivery.connectionId with
    | none => .ok (true, delivered)
    | some connectionId =>
      match s.connections.find? (·.id = connectionId) with
      | none => .error "Revocation Connection is missing"
      | some connection => do
        let recorded ← recordConnectionFact delivered
          { connection, factType := .revocationPayloadDestroyed, occurredAt := deliveredAt,
            outcome := some "delivered" }
        pure (true, recorded)

def recordRevocationDeliveryFailure (s : Store) (deliveryId claimedBy : String) (retryAt : ℕ)
    (failureClass : String) : Bool × Store :=
  updateDelivery s deliveryId claimedBy fun delivery => { delivery with
    availableAt := retryAt
    lastFailureClass := some failureClass
    claimedBy := none
    claimExpiresAt := none }

def renewRevocationDeliveryClaim (s : Store) (deliveryId claimedBy : String) (claimExpiresAt : ℕ) :
    Bool × Store :=
  updateDelivery s deliveryId claimedBy fun delivery => { delivery with
    claimExpiresAt := some claimExpiresAt }

def deleteExpiredRevocationDeliveries (s : Store) (now : ℕ) : Except String (ℕ × Store) := do
  let expired := s.deliveries.filter fun delivery =>
    delivery.deliveredAt.isNone && delivery.expiresAt ≤ now
  let recorded ← recordConnectionFacts s (destroyedFacts s expired now "expired" fun delivery =>
    some (delivery.lastFailureClass.getD "not_delivered"))
  pure (expired.length, { recorded with
    deliveries := recorded.deliveries.filter (·.id ∉ expired.map (·.id)) })

/-! ## Erasure -/

def erasedConnection (auditReference : String) (now : ℕ) (connection : Connection) : Connection :=
  let erased := { connection with
    providerAccountId := "erased:" ++ auditReference ++ ":" ++ connection.id
    accountLabel := "Erased subject"
    credentialEncrypted := none
    updatedAt := now }
  if connection.status = .revoked then erased
  else { erased with status := .revoked, revokedAt := some now }

def ofSubject (workspaceId externalSubjectId : String) (connection : Connection) : Bool :=
  connection.workspaceId = workspaceId && connection.externalSubjectId = some externalSubjectId

/-- The part of an erasure that is about connections. It also revokes grants and reviewer
assignments, cancels Action Intents and publishes events, which are rows of other tables. -/
def eraseExternalSubject (s : Store) (workspaceId externalSubjectId auditReference : String)
    (now : ℕ) : Except String (Option ExternalSubject × Store) :=
  match s.subjects.find? fun subject =>
      subject.workspaceId = workspaceId && subject.id = externalSubjectId with
  | none => .ok (none, s)
  | some existing =>
    if existing.status = .erased then .ok (some existing, s)
    else do
      let connections := s.connections.map fun connection =>
        if ofSubject workspaceId existing.id connection then
          erasedConnection auditReference now connection
        else connection
      let pendingPayloads := s.deliveries.filter fun delivery =>
        delivery.workspaceId = workspaceId && delivery.externalSubjectId = existing.id &&
          delivery.credentialEncrypted.isSome
      if pendingPayloads.any fun payload => payload.connectionId.any fun connectionId =>
          connections.all fun connection =>
            !(ofSubject workspaceId existing.id connection && connection.id = connectionId) then
        throw "Revocation Connection is missing"
      let destroyed ← recordConnectionFacts { s with connections }
        (destroyedFacts { s with connections } pendingPayloads now "subject_erased" fun _ =>
          some "subject_erased")
      let revoked ← recordConnectionFacts
        { destroyed with
          deliveries := destroyed.deliveries.filter (·.id ∉ pendingPayloads.map (·.id)) }
        ((s.connections.filter fun connection =>
            ofSubject workspaceId existing.id connection && connection.status ≠ .revoked).map
          fun connection =>
            { connection := erasedConnection auditReference now connection
              factType := .revoked, occurredAt := now, outcome := some "subject_erased" })
      let subject := { existing with status := .erased, auditReference }
      pure (some subject, { revoked with
        subjects := revoked.subjects.map fun row => if row.id = existing.id then subject else row
        sessions := revoked.sessions.map fun session =>
          if session.externalSubjectId = subject.id && session.revokedAt.isNone then
            { session with revokedAt := some now }
          else session
        facts := revoked.facts.map fun fact =>
          if fact.externalSubjectId = some existing.id then
            { fact with
              externalSubjectId := none
              subjectReference := some auditReference
              content := none }
          else fact })

end Linea.Connections
