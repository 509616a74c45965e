import Linea.ConsentDecisions

/-! The transactions that decide who has authority: external subjects and their environments
(`external-subject.repository.ts`, `end-user-authorization.repository.ts`), shared connections with
their requesters and reviewers (`shared-connection.repository.ts`), and the connections of a subject
(`connection.repository.ts`). Rows that are locked `for share`, or matched by the predicate of an
update, are not locked here; audit rows, deliveries and events are left out. -/
namespace Linea.Consent

section Subjects

def Store.setSubjectStatus (id : String) (status : SubjectStatus) (s : Store) : Store :=
  { s with subjects := fun u =>
      if u = id then (s.subjects u).map fun subject => { subject with status := status }
      else s.subjects u }

/-- `insert into external_subject_environments ... on conflict do nothing`. -/
def Store.joinEnvironment (workspaceId environmentId id : String) (s : Store) : Store :=
  { s with memberships := fun key =>
      if key = (environmentId, id) ∧ (s.memberships key).isNone then some workspaceId
      else s.memberships key }

/-- A subject is found by its identity or created, and becomes a member of the environment. The row
that the identity has, or gets, is received. `admitted` says what becomes of the status of a
subject that was there. -/
def enrolExternalSubject (workspaceId environmentId : String) (status : SubjectStatus)
    (admitted : SubjectStatus → Option SubjectStatus) : Program Unit := Tx.transaction do
  let environment ← Tx.select fun s => (s.environments environmentId).filter fun e =>
    e.workspaceId = workspaceId ∧ e.enabled
  if environment.isNone then return ()
  let id ← Tx.receiving Reply.id
  let found ← Tx.selectForUpdate (fun _ => [.subject id]) (Store.subject id)
  match found with
  | none => do
    Tx.update fun s => { s with
      subjects := Function.update s.subjects id (some ⟨workspaceId, status⟩) }
    Tx.update (Store.joinEnvironment workspaceId environmentId id)
  | some subject =>
    if subject.workspaceId ≠ workspaceId then
      .halt "duplicate key value violates external_subjects_pkey"
    else match admitted subject.status with
      | none => pure ()
      | some status => do
        Tx.update (Store.setSubjectStatus id status)
        Tx.update (Store.joinEnvironment workspaceId environmentId id)

def provisionExternalSubject (workspaceId environmentId : String) : Program Unit :=
  enrolExternalSubject workspaceId environmentId .provisioned fun status =>
    if status = .disabled then none else some status

/-- The end of a verified sign-in. -/
def completeEndUserAuthorization (workspaceId environmentId : String) : Program Unit :=
  enrolExternalSubject workspaceId environmentId .verified fun status => match status with
    | .disabled => none
    | .provisioned => some .verified
    | other => some other

/-- The subject of a conversation in the builder. -/
def createBuilderConversation (workspaceId environmentId : String) : Program Unit :=
  enrolExternalSubject workspaceId environmentId .verified some

def Store.revokeSessions (externalSubjectId : String) (now : ℕ) (s : Store) : Store :=
  { s with sessions := fun id => (s.sessions id).map fun session =>
      if session.externalSubjectId = externalSubjectId ∧ session.revokedAt = none then
        { session with revokedAt := some now }
      else session }

def ownSubject (workspaceId externalSubjectId : String) (s : Store) : Option ExternalSubject :=
  (s.subjects externalSubjectId).filter fun subject => subject.workspaceId = workspaceId

def disableExternalSubject (workspaceId externalSubjectId : String) : Program Unit :=
  Tx.transaction do
  let existing ← lockRow (.subject externalSubjectId) (ownSubject workspaceId externalSubjectId)
  match existing.map ExternalSubject.status with
  | none | some .erased | some .disabled => pure ()
  | some _ => do
    let now ← Tx.receiving Reply.now
    let _ ← cancelNonExecutingActionIntents workspaceId (.externalSubject externalSubjectId) now
    Tx.update (Store.setSubjectStatus externalSubjectId .disabled)
    Tx.update (Store.revokeSessions externalSubjectId now)

def Authorization.revoke (now : ℕ) (authorization : Authorization) : Authorization :=
  if authorization.revokedAt = none then { authorization with revokedAt := some now }
  else authorization

/-- The current authorizations of the subject in the workspace are revoked. -/
def revokeAuthorizations (workspaceId externalSubjectId : String) (now : ℕ)
    (authorizations : String × String → List Authorization) : String × String → List Authorization :=
  fun key => (authorizations key).map fun authorization =>
    if key.2 = externalSubjectId ∧ authorization.workspaceId = workspaceId then
      authorization.revoke now
    else authorization

def Connection.erase (connection : Connection) : Connection :=
  { connection with status := .revoked, credentialEncrypted := none }

def Store.eraseConnections (workspaceId externalSubjectId : String) (s : Store) : Store :=
  { s with connections := fun id => (s.connections id).map fun connection =>
      if connection.workspaceId = workspaceId ∧
          connection.externalSubjectId = some externalSubjectId then connection.erase
      else connection }

def eraseExternalSubject (workspaceId externalSubjectId : String) : Program Unit :=
  Tx.transaction do
  let existing ← lockRow (.subject externalSubjectId) (ownSubject workspaceId externalSubjectId)
  match existing.map ExternalSubject.status with
  | none | some .erased => pure ()
  | some _ => do
    let now ← Tx.receiving Reply.now
    Tx.update fun s => { s with
      grants := revokeAuthorizations workspaceId externalSubjectId now s.grants }
    Tx.update fun s => { s with
      reviewers := revokeAuthorizations workspaceId externalSubjectId now s.reviewers }
    let _ ← cancelNonExecutingActionIntents workspaceId (.externalSubject externalSubjectId) now
    Tx.update (Store.eraseConnections workspaceId externalSubjectId)
    Tx.update (Store.setSubjectStatus externalSubjectId .erased)
    Tx.update (Store.revokeSessions externalSubjectId now)

end Subjects

section SharedConnections

/-- `EnvironmentConnectionOwner` with the connection. -/
structure SharedConnection where
  workspaceId : String
  environmentId : String
  connectionId : String
  deriving DecidableEq, Repr

def getSharedEnvironmentConnection (shared : SharedConnection) (s : Store) : Option Connection :=
  (s.connections shared.connectionId).filter fun connection =>
    connection.workspaceId = shared.workspaceId ∧
      connection.environmentId = shared.environmentId ∧ connection.ownership = .environment

def ownEnvironment (workspaceId environmentId : String) (s : Store) : Option Environment :=
  (s.environments environmentId).filter fun e => e.workspaceId = workspaceId

/-- The place of the new row is taken; `none` when its id is in use. -/
def insertConnection (id : String) (connection : Connection) : Program (Option Connection) := do
  let used ← lockSlot (.connection id) fun s => s.connections id
  if used.isSome then return none
  Tx.update fun s => { s with connections := Function.update s.connections id (some connection) }
  pure (some connection)

def createSharedEnvironmentConnection (shared : SharedConnection) (scopes : List String)
    (credentialEncrypted : String) : Program Unit := Tx.transaction do
  let environment ← lockRow (.environment shared.environmentId)
    (ownEnvironment shared.workspaceId shared.environmentId)
  if environment.map Environment.enabled ≠ some true ∨
      policyAllowsScopes (providerPolicy environment "github") scopes = false ∨
      (providerPolicy environment "github").isNone then
    .halt "Environment GitHub policy does not authorize these installation permissions"
  else do
    let created ← insertConnection shared.connectionId
      { workspaceId := shared.workspaceId
        environmentId := shared.environmentId
        externalSubjectId := none
        ownership := .environment
        authorizationKind := .githubAppInstallation
        provider := "github"
        status := .active
        scopes := scopes
        credentialEncrypted := some credentialEncrypted }
    if created.isNone then .halt "GitHub installation is already connected in this Environment"
    else pure ()

inductive SubjectAuthorizationKind
  | requester
  | reviewer
  deriving DecidableEq, Repr

/-- `authorizationTables`. -/
def Store.authorizations (kind : SubjectAuthorizationKind) (s : Store) :
    String × String → List Authorization :=
  match kind with
  | .requester => s.grants
  | .reviewer => s.reviewers

def Store.setAuthorizations (kind : SubjectAuthorizationKind) (key : String × String)
    (f : List Authorization → List Authorization) (s : Store) : Store :=
  match kind with
  | .requester => { s with grants := Function.update s.grants key (f (s.grants key)) }
  | .reviewer => { s with reviewers := Function.update s.reviewers key (f (s.reviewers key)) }

/-- A member of the environment that is neither disabled nor erased. -/
def availableSubject (workspaceId environmentId externalSubjectId : String) (s : Store) : Bool :=
  (ownSubject workspaceId externalSubjectId s).any (fun subject =>
    subject.status ≠ .disabled ∧ subject.status ≠ .erased) &&
    s.memberships (environmentId, externalSubjectId) = some workspaceId

def setConnectionSubjectAuthorization (shared : SharedConnection) (externalSubjectId : String)
    (kind : SubjectAuthorizationKind) : Program Unit := Tx.transaction do
  let environment ← lockRow (.environment shared.environmentId)
    (ownEnvironment shared.workspaceId shared.environmentId)
  let connection ← Tx.select (getSharedEnvironmentConnection shared)
  let subject ← Tx.select
    (availableSubject shared.workspaceId shared.environmentId externalSubjectId)
  if environment.map Environment.enabled ≠ some true ∨
      connection.map Connection.status ≠ some .active ∨ subject = false then
    .halt "Shared Connection or Environment Subject is unavailable"
  else do
    let id ← Tx.receiving Reply.id
    let existing ← Tx.select fun s =>
      (s.authorizations kind (shared.environmentId, externalSubjectId)).find? fun a =>
        a.connectionId = shared.connectionId ∧ a.revokedAt = none
    if existing.isSome then return ()
    Tx.update (Store.setAuthorizations kind (shared.environmentId, externalSubjectId)
      fun rows => rows ++ [⟨id, shared.workspaceId, shared.connectionId, none⟩])

/-- `externalSubjectId` is the subject of the authorization's row. -/
def revokeConnectionSubjectAuthorization (shared : SharedConnection)
    (authorizationId externalSubjectId : String) (kind : SubjectAuthorizationKind) :
    Program Unit := Tx.transaction do
  let _ ← lockRow (.environment shared.environmentId)
    (ownEnvironment shared.workspaceId shared.environmentId)
  let connection ← Tx.select (getSharedEnvironmentConnection shared)
  if connection.isNone then .halt "Shared Connection not found"
  else do
    let existing ← Tx.select fun s =>
      (s.authorizations kind (shared.environmentId, externalSubjectId)).find? fun a =>
        a.id = authorizationId ∧ a.connectionId = shared.connectionId
    match existing with
    | none => .halt "Connection authorization not found"
    | some existing => do
      if existing.revokedAt.isSome then return ()
      let now ← Tx.receiving Reply.now
      Tx.update (Store.setAuthorizations kind (shared.environmentId, externalSubjectId)
        fun rows => rows.map fun a => if a.id = existing.id then a.revoke now else a)
      if kind = .requester then do
        let _ ← cancelNonExecutingActionIntents shared.workspaceId
          (.connectionAccessGrant existing.id) now
        pure ()
      else pure ()

def Store.setConnection (id : String) (f : Connection → Connection) (s : Store) : Store :=
  { s with connections := fun k =>
      if k = id then (s.connections k).map f else s.connections k }

def revokeSharedEnvironmentConnection (shared : SharedConnection) : Program Unit :=
  Tx.transaction do
  let _ ← lockRow (.environment shared.environmentId)
    (ownEnvironment shared.workspaceId shared.environmentId)
  let connection ← Tx.select (getSharedEnvironmentConnection shared)
  match connection.map Connection.status with
  | none => .halt "Shared Connection not found"
  | some .revoked => pure ()
  | some _ => do
    let now ← Tx.receiving Reply.now
    let _ ← cancelNonExecutingActionIntents shared.workspaceId (.connection shared.connectionId) now
    Tx.update (Store.setConnection shared.connectionId .erase)

end SharedConnections

section PersonalConnections

/-- The owner of a personal connection. -/
structure ConnectionOwner where
  workspaceId : String
  environmentId : String
  externalSubjectId : String
  deriving DecidableEq, Repr

def ownedConnection (owner : ConnectionOwner) (connection : Connection) : Bool :=
  connection.workspaceId = owner.workspaceId ∧ connection.environmentId = owner.environmentId ∧
    connection.externalSubjectId = some owner.externalSubjectId ∧ connection.status ≠ .revoked

/-- The connection that a completed authorization refreshes or creates. The row of the account, when
there is one, is received, as is the id of a new row. -/
def completeConnectionAuthorizationRequest (owner : ConnectionOwner) (provider : String)
    (scopes : List String) (credentialEncrypted : String) : Program Unit := Tx.transaction do
  let authority ← Tx.select fun s =>
    verifiedMember s owner.workspaceId owner.environmentId owner.externalSubjectId &&
      (ownEnvironment owner.workspaceId owner.environmentId s).any Environment.enabled
  if authority = false then return ()
  let account ← Tx.receiving Reply.due
  let existing ← lockRow (.connection account) fun s =>
    (s.connections account).filter fun c => ownedConnection owner c ∧ c.provider = provider
  match existing with
  | some _ => Tx.update (Store.setConnection account fun connection =>
      { connection with
        status := .active, scopes := scopes, credentialEncrypted := some credentialEncrypted })
  | none => do
    let id ← Tx.receiving Reply.id
    let created ← insertConnection id
      { workspaceId := owner.workspaceId
        environmentId := owner.environmentId
        externalSubjectId := some owner.externalSubjectId
        ownership := .personal
        authorizationKind := .delegatedUser
        provider := provider
        status := .active
        scopes := scopes
        credentialEncrypted := some credentialEncrypted }
    if created.isNone then .halt "duplicate key value violates connections_pkey" else pure ()

def revokeConnection (owner : ConnectionOwner) (connectionId : String) (now : ℕ) : Program Unit :=
  Tx.transaction do
  let connection ← lockRow (.connection connectionId) fun s =>
    (s.connections connectionId).filter fun c => ownedConnection owner c
  match connection with
  | none => pure ()
  | some _ => do
    Tx.update (Store.setConnection connectionId .erase)
    let _ ← cancelNonExecutingActionIntents owner.workspaceId (.connection connectionId) now
    pure ()

end PersonalConnections

section Executions

/-- The insert of an execution by whatever starts it. -/
def createExecution (id : String) (row : Execution) : Program Unit := Tx.transaction do
  let used ← lockSlot (.execution id) (Store.execution id)
  if used.isSome then .halt "duplicate key value violates executions_pkey"
  else Tx.update fun s => { s with executions := Function.update s.executions id (some ⟨row, []⟩) }

/-- The request of an approval node (`approval.node.ts`). -/
def createWorkspaceApprovalRequest (workspaceId executionId nodeId : String)
    (approverEmails : Option (List String))
    (timeout : Option (ℕ × ApprovalTimeoutAction)) : Program Unit := do
  let existing ← Tx.select fun s => (s.findRequest executionId nodeId).filter fun request =>
    request.2.workspaceId = workspaceId
  if existing.isSome then return ()
  let execution ← Tx.select (Store.execution executionId)
  match execution.filter fun e => e.workspaceId = workspaceId with
  | none => .halt "Approval node execution was not found"
  | some execution => do
    let _ ← Tx.transaction (createApprovalRequest
      { workspaceId := workspaceId
        environmentId := execution.environmentId
        executionId := executionId
        nodeId := nodeId
        audience := .workspace
        externalSubjectId := none
        approverEmails := approverEmails
        expiresAt := timeout.map Prod.fst
        timeoutAction := timeout.map Prod.snd
        actionIntentDigest := none })
    pure ()

end Executions
end Linea.Consent
