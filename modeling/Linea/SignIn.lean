import Linea.LockModes

/-! Sign-in of end users: authorization requests, identity exchanges, sessions and their proofs,
with the transactions that use them up, revoke them or clean them up. -/
namespace Linea.SignIn
open LockModes

section Rows

/-- The `oidc` columns, of which a check constraint allows all or none. -/
structure Trust where
  oidcIssuer : String
  oidcClientId : String
  oidcAudience : String
  oidcJwksUrl : String
  oidcSubjectClaim : String
deriving DecidableEq

structure Environment where
  workspaceId : String
  enabled : Bool
  allowedBrowserOrigins : List String
  allowedRedirectOrigins : List String
  trust : Option Trust

inductive SubjectStatus
  | provisioned
  | verified
  | disabled
  | erased
deriving DecidableEq

structure ExternalSubject where
  workspaceId : String
  issuer : String
  issuerSubject : Option String
  status : SubjectStatus

/-- `generation`, here and below, is a record for the properties: the number of replacements and
disablings of the environment at the time the authorization request was made. -/
structure AuthorizationRequest where
  workspaceId : String
  environmentId : String
  stateHash : String
  nonceHash : String
  codeChallenge : String
  redirectUri : String
  authorizationCodeHash : Option String
  codeVerifierHash : Option String
  externalSubjectId : Option String
  expiresAt : ℤ
  claimedAt : Option ℤ
  completedAt : Option ℤ
  generation : ℕ

structure IdentityExchange where
  workspaceId : String
  environmentId : String
  externalSubjectId : String
  tokenHash : String
  dpopNonceHash : Option String
  expiresAt : ℤ
  consumedAt : Option ℤ
  generation : ℕ

structure EndUserSession where
  workspaceId : String
  environmentId : String
  externalSubjectId : String
  tokenHash : String
  proofJkt : String
  nonceHash : String
  expiresAt : ℤ
  revokedAt : Option ℤ
  lastUsedAt : Option ℤ
  generation : ℕ

/-- What has been committed, in its order: `changed` is a replacement of the trust configuration or
a disabling. `current` is the generation of the environment at that time, `session` the row. -/
inductive Fact
  | changed (environmentId : String)
  | claimed (requestId authorizationCodeHash codeVerifierHash : String)
  | completed (requestId authorizationCodeHash codeVerifierHash exchangeId issuer : String)
      (verifiedBy : Trust)
  | consumed (exchangeId : String)
  | opened (sessionId exchangeId : String) (generation current : ℕ)
  | proved (sessionId jtiHash : String) (now : ℤ) (session : EndUserSession) (current : ℕ)

def generation (environmentId : String) (facts : List Fact) : ℕ :=
  facts.countP fun
    | .changed id => id = environmentId
    | _ => false

/-- `issued` are the ids that rows have been given. -/
structure Store where
  environments : String → Option Environment
  externalSubjects : String → Option ExternalSubject
  requests : String → Option AuthorizationRequest
  exchanges : String → Option IdentityExchange
  sessions : String → Option EndUserSession
  proofs : List (String × String)
  issued : List String
  facts : List Fact

/-- What is locked: a row, a key that is being inserted, or a place in the unique index of subject
identities. -/
inductive Row
  | environment (id : String)
  | subject (id : String)
  | request (id : String)
  | exchange (id : String)
  | session (id : String)
  | key (id : String)
  | identity (workspaceId issuer issuerSubject : String)
deriving DecidableEq

/-- The identity provider's answer to an authorization code. -/
inductive ProviderAnswer
  | verified (issuerSubject : String)
  | unavailable
  | rejected

/-- A clock reading, a generated id or token hash, an answer of the provider. -/
structure Reply where
  now : ℤ
  id : String
  hash : String
  provider : ProviderAnswer

abbrev Program := Tx Store (Slot Row) Reply

end Rows

namespace Store

def record (fact : Fact) (s : Store) : Store := { s with facts := s.facts ++ [fact] }

def setEnvironment (id : String) (row : Environment) (s : Store) : Store :=
  { s with environments := Function.update s.environments id (some row) }

def setSubject (id : String) (row : ExternalSubject) (s : Store) : Store :=
  { s with externalSubjects := Function.update s.externalSubjects id (some row) }

def setRequest (id : String) (row : Option AuthorizationRequest) (s : Store) : Store :=
  { s with requests := Function.update s.requests id row }

def setExchange (id : String) (row : Option IdentityExchange) (s : Store) : Store :=
  { s with exchanges := Function.update s.exchanges id row }

def setSession (id : String) (row : Option EndUserSession) (s : Store) : Store :=
  { s with sessions := Function.update s.sessions id row }

def issue (id : String) (s : Store) : Store := { s with issued := s.issued ++ [id] }

/-- `update end_user_sessions set revoked_at` on the rows that the statement has locked. -/
def revokeSessions (ids : List String) (now : ℤ) (s : Store) : Store :=
  { s with
    sessions := fun id =>
      if id ∈ ids then
        (s.sessions id).map fun session =>
          if session.revokedAt.isSome then session else { session with revokedAt := some now }
      else s.sessions id }

/-- The proofs of a session go with it. -/
def deleteSessions (ids : List String) (s : Store) : Store :=
  { s with
    sessions := fun id => if id ∈ ids then none else s.sessions id
    proofs := s.proofs.filter fun proof => proof.1 ∉ ids }

def deleteRequests (ids : List String) (s : Store) : Store :=
  { s with requests := fun id => if id ∈ ids then none else s.requests id }

def deleteExchanges (ids : List String) (s : Store) : Store :=
  { s with exchanges := fun id => if id ∈ ids then none else s.exchanges id }

/-- The ids of the rows of a table that meet a condition. -/
def idsWhere {α : Type} (table : Store → String → Option α) (meets : α → Bool) (s : Store) :
    List String :=
  s.issued.filter fun id => (table s id).any meets

/-- `exists (select .. from environments ..)` of the guarded statements. -/
def environmentEnabled (s : Store) (environmentId workspaceId : String) : Bool :=
  (s.environments environmentId).any fun row => row.workspaceId = workspaceId && row.enabled

def subjectVerified (s : Store) (externalSubjectId workspaceId : String) : Bool :=
  (s.externalSubjects externalSubjectId).any fun row =>
    row.workspaceId = workspaceId && row.status = .verified

end Store

section Statements

variable (n c : ℕ)

/-- `select .. from environments where .. for share`. -/
def shareEnvironment (id : String) (meets : Environment → Bool) : Program (Option Environment) :=
  lockWhere (fun _ => share c (.environment id)) (fun s => (s.environments id).filter meets)
    fun _ s => (s.environments id).filter meets

/-- The key of an inserted row. A generated key that has been given out does not come again; it
waits for a transaction that inserts the same. -/
def newKey : Program String := do
  let id ← Tx.receiving (·.id)
  let taken ← Tx.selectForUpdate (fun _ => exclusive n (.key id)) fun s => decide (id ∈ s.issued)
  if taken then .halt "duplicate key value violates unique constraint" else pure id

end Statements

section Authorization

variable (n c : ℕ)

structure CreateAuthorizationRequestInput where
  environmentId : String
  redirectUri : String
  redirectOrigin : String
  browserOrigin : Option String
  stateHash : String
  nonceHash : String
  codeChallenge : String
  expiresAt : ℤ

inductive CreateAuthorizationRequestResult
  | created (requestId : String) (trust : Trust)
  | environmentNotFound
  | originDenied

def createAuthorizationRequest (input : CreateAuthorizationRequestInput) :
    Program CreateAuthorizationRequestResult := Tx.transaction do
  match ← shareEnvironment c input.environmentId (·.enabled) with
  | none => pure .environmentNotFound
  | some environment =>
    match environment.trust with
    | none => pure .environmentNotFound
    | some trust =>
      if input.redirectOrigin ∉ environment.allowedRedirectOrigins ∨
          ∃ origin ∈ input.browserOrigin, origin ∉ environment.allowedBrowserOrigins then
        pure .originDenied
      else do
        let id ← newKey n
        Tx.update fun s => (s.setRequest id (some ⟨environment.workspaceId,input.environmentId,
          input.stateHash,input.nonceHash,input.codeChallenge,input.redirectUri,none,none,none,
          input.expiresAt,none,none,generation input.environmentId s.facts⟩)).issue id
        pure (.created id trust)

structure ExchangeInput where
  environmentId : String
  redirectUri : String
  browserOrigin : Option String
  stateHash : String
  codeChallenge : String
  authorizationCodeHash : String
  codeVerifierHash : String
  now : ℤ

/-- The condition of the claim: not completed, not expired, and free or claimed too long ago for the
same code and verifier. -/
def claimable (input : ExchangeInput) (request : AuthorizationRequest) : Bool :=
  request.environmentId = input.environmentId && request.stateHash = input.stateHash &&
  request.redirectUri = input.redirectUri && request.codeChallenge = input.codeChallenge &&
  request.completedAt.isNone && input.now < request.expiresAt &&
  (request.authorizationCodeHash.isNone && request.codeVerifierHash.isNone &&
      request.claimedAt.isNone ||
    request.authorizationCodeHash = some input.authorizationCodeHash &&
    request.codeVerifierHash = some input.codeVerifierHash &&
    request.claimedAt.all (· < input.now - 30000))

structure Consumed where
  requestId : String
  request : AuthorizationRequest
  trust : Trust

def consumeAuthorizationRequest (input : ExchangeInput) : Program (Option Consumed) :=
  Tx.transaction do
    match ← shareEnvironment c input.environmentId (·.enabled) with
    | none => pure none
    | some environment =>
      match environment.trust with
      | none => pure none
      | some trust =>
        if ∃ origin ∈ input.browserOrigin, origin ∉ environment.allowedBrowserOrigins then pure none
        else do
          match ← lockWhere (fun id => exclusive n (.request id))
              (fun s => s.issued.find? fun id => (s.requests id).any (claimable input))
              fun id s => ((s.requests id).filter (claimable input)).map (id,·) with
          | none => pure none
          | some (id,request) =>
            let claimed := { request with
              authorizationCodeHash := some input.authorizationCodeHash
              codeVerifierHash := some input.codeVerifierHash
              claimedAt := some input.now }
            Tx.update fun s => (s.setRequest id (some claimed)).record
              (.claimed id input.authorizationCodeHash input.codeVerifierHash)
            pure (some ⟨id,claimed,trust⟩)

def releaseAuthorizationRequestClaim (requestId : String) (claimedAt : ℤ) : Program Unit :=
  Tx.transaction do
    let mine (request : AuthorizationRequest) : Bool :=
      request.claimedAt = some claimedAt && request.completedAt.isNone
    match ← lockWhere (fun _ => exclusive n (.request requestId))
        (fun s => (s.requests requestId).filter mine)
        fun _ s => (s.requests requestId).filter mine with
    | none => pure ()
    | some request => Tx.update (·.setRequest requestId (some { request with claimedAt := none }))

structure CompleteInput where
  authorizationRequestId : String
  issuerSubject : String
  exchangeTokenHash : String
  dpopNonceHash : String
  exchangeExpiresAt : ℤ
  now : ℤ
  claimedAt : ℤ

inductive CompleteResult
  | completed (exchangeId externalSubjectId : String)
  | invalid
  | externalSubjectDisabled

/-- The subject of an identity. -/
def findSubject (workspaceId issuer issuerSubject : String) (s : Store) : Option String :=
  s.issued.find? fun id => (s.externalSubjects id).any fun row =>
    row.workspaceId = workspaceId && row.issuer = issuer && row.issuerSubject = some issuerSubject

/-- `insert into external_subjects .. on conflict do nothing`, and the row for update if there is
one: the id, with the row unless it is created. -/
def upsertSubject (workspaceId issuer issuerSubject : String) :
    Program (String × Option ExternalSubject) := do
  let found ← Tx.selectForUpdate
    (fun s => if (findSubject workspaceId issuer issuerSubject s).isSome then []
      else exclusive n (.identity workspaceId issuer issuerSubject))
    (findSubject workspaceId issuer issuerSubject)
  match found with
  | none =>
    let id ← newKey n
    Tx.update fun s =>
      (s.setSubject id ⟨workspaceId,issuer,some issuerSubject,.verified⟩).issue id
    pure (id,none)
  | some _ =>
    match ← lockWhere (fun id => exclusive n (.subject id))
        (findSubject workspaceId issuer issuerSubject)
        fun id s => ((s.externalSubjects id).filter fun row =>
          row.workspaceId = workspaceId && row.issuer = issuer &&
          row.issuerSubject = some issuerSubject).map (id,·) with
    | none => .halt "Verified External Subject disappeared"
    | some (id,subject) => pure (id,some subject)

def verifySubject (id : String) : Option ExternalSubject → Program Unit
  | some subject =>
    if subject.status = .provisioned then
      Tx.update (·.setSubject id { subject with status := .verified })
    else pure ()
  | none => pure ()

/-- `code`, `verifier` and `verifiedBy` say on whose behalf; they are recorded only. -/
def completeAuthorizationRequest (code verifier : String) (verifiedBy : Trust)
    (input : CompleteInput) : Program CompleteResult := Tx.transaction do
  let requestId := input.authorizationRequestId
  match ← lockWhere (fun _ => exclusive n (.request requestId)) (fun s => s.requests requestId)
      fun _ s => s.requests requestId with
  | none => pure .invalid
  | some request =>
    if request.claimedAt ≠ some input.claimedAt ∨ request.completedAt.isSome then pure .invalid
    else do
      match ← shareEnvironment c request.environmentId fun row =>
          row.workspaceId = request.workspaceId && row.enabled with
      | none => pure .invalid
      | some environment =>
        match environment.trust with
        | none => pure .invalid
        | some trust =>
          let (subjectId,existing) ← upsertSubject n environment.workspaceId trust.oidcIssuer
            input.issuerSubject
          if existing.any (·.status = .disabled) then pure .externalSubjectDisabled
          else do
            verifySubject subjectId existing
            let exchangeId ← newKey n
            Tx.update fun s => (s.setExchange exchangeId (some ⟨environment.workspaceId,
              request.environmentId,subjectId,input.exchangeTokenHash,some input.dpopNonceHash,
              input.exchangeExpiresAt,none,request.generation⟩)).issue exchangeId
            Tx.update (·.setRequest requestId (some { request with
              externalSubjectId := some subjectId, completedAt := some input.now }))
            Tx.update fun s => s.record (.completed requestId code verifier exchangeId
              (((s.externalSubjects subjectId).map (·.issuer)).getD "") verifiedBy)
            pure (.completed exchangeId subjectId)

/-- `EndUserAuthorizationService.exchange`: the claim, the provider's answer under the configuration
that was read with it, and the completion. -/
def exchange (input : ExchangeInput) : Program Unit := do
  match ← consumeAuthorizationRequest n c input with
  | none => pure ()
  | some consumed =>
    match ← Tx.receiving (·.provider) with
    | .unavailable => releaseAuthorizationRequestClaim n consumed.requestId input.now
    | .rejected => pure ()
    | .verified issuerSubject =>
      let exchangeTokenHash ← Tx.receiving (·.hash)
      let dpopNonceHash ← Tx.receiving (·.hash)
      let issuedAt ← Tx.receiving (·.now)
      let now ← Tx.receiving (·.now)
      let _ ← completeAuthorizationRequest n c input.authorizationCodeHash input.codeVerifierHash
        consumed.trust ⟨consumed.requestId,issuerSubject,exchangeTokenHash,dpopNonceHash,
          issuedAt + 120000,now,input.now⟩
      pure ()

end Authorization

section Sessions

variable (n c : ℕ)

/-- The part of the guards on an exchange that concerns its own row. -/
def unconsumed (now : ℤ) (exchange : IdentityExchange) : Bool :=
  exchange.consumedAt.isNone && now < exchange.expiresAt

/-- The guards on other tables, as the statement's snapshot shows them. -/
def usable (s : Store) (environmentId externalSubjectId workspaceId : String) : Bool :=
  s.environmentEnabled environmentId workspaceId && s.subjectVerified externalSubjectId workspaceId

def consumeIdentityExchange (tokenHash : String) (now : ℤ) :
    Program (Option (String × IdentityExchange)) := Tx.transaction do
  let meets (exchange : IdentityExchange) : Bool :=
    exchange.tokenHash = tokenHash && unconsumed now exchange
  match ← lockWhere (fun id => exclusive n (.exchange id))
      (fun s => s.issued.find? fun id => (s.exchanges id).any fun exchange => meets exchange &&
        usable s exchange.environmentId exchange.externalSubjectId exchange.workspaceId)
      fun id s => ((s.exchanges id).filter meets).map (id,·) with
  | none => pure none
  | some (id,exchange) =>
    Tx.update fun s =>
      (s.setExchange id (some { exchange with consumedAt := some now })).record (.consumed id)
    pure (some (id,exchange))

structure CreateEndUserSessionInput where
  exchangeId : String
  exchangeTokenHash : String
  workspaceId : String
  environmentId : String
  externalSubjectId : String
  tokenHash : String
  proofJkt : String
  nonceHash : String
  expiresAt : ℤ
  now : ℤ

def createEndUserSession (input : CreateEndUserSessionInput) : Program (Option String) :=
  Tx.transaction do
    match ← shareEnvironment c input.environmentId fun row =>
        row.workspaceId = input.workspaceId && row.enabled with
    | none => pure none
    | some _ =>
      let verified (row : ExternalSubject) : Bool :=
        row.workspaceId = input.workspaceId && row.status = .verified
      match ← lockWhere (fun _ => share c (.subject input.externalSubjectId))
          (fun s => (s.externalSubjects input.externalSubjectId).filter verified)
          fun _ s => (s.externalSubjects input.externalSubjectId).filter verified with
      | none => pure none
      | some _ =>
        let meets (exchange : IdentityExchange) : Bool :=
          exchange.tokenHash = input.exchangeTokenHash &&
          exchange.workspaceId = input.workspaceId &&
          exchange.environmentId = input.environmentId &&
          exchange.externalSubjectId = input.externalSubjectId && unconsumed input.now exchange
        match ← lockWhere (fun _ => exclusive n (.exchange input.exchangeId))
            (fun s => (s.exchanges input.exchangeId).filter fun exchange => meets exchange &&
              usable s exchange.environmentId exchange.externalSubjectId exchange.workspaceId)
            fun _ s => (s.exchanges input.exchangeId).filter meets with
        | none => pure none
        | some exchange => do
          Tx.update fun s => (s.setExchange input.exchangeId (some { exchange with
            consumedAt := some input.now })).record (.consumed input.exchangeId)
          let id ← newKey n
          Tx.update fun s => (s.setSession id (some ⟨exchange.workspaceId,exchange.environmentId,
            exchange.externalSubjectId,input.tokenHash,input.proofJkt,input.nonceHash,
            input.expiresAt,none,none,exchange.generation⟩)).issue id
          Tx.update fun s => s.record (.opened id input.exchangeId exchange.generation
            (generation exchange.environmentId s.facts))
          pure (some id)

def recordEndUserSessionProof (sessionId jtiHash : String) (now : ℤ) : Program Bool :=
  Tx.transaction do
    match ← lockWhere (fun _ => exclusive n (.session sessionId))
        (fun s => (s.sessions sessionId).filter fun session =>
          usable s session.environmentId session.externalSubjectId session.workspaceId)
        fun _ s => s.sessions sessionId with
    | none => pure false
    | some session =>
      if session.revokedAt.isSome ∨ session.expiresAt ≤ now then pure false
      else do
        let conflict ← Tx.select fun s => decide ((sessionId,jtiHash) ∈ s.proofs)
        if conflict then pure false
        else do
          Tx.update fun s => { s with proofs := s.proofs ++ [(sessionId,jtiHash)] }
          Tx.update (·.setSession sessionId (some { session with lastUsedAt := some now }))
          Tx.update fun s => match s.sessions sessionId with
            | some row => s.record
                (.proved sessionId jtiHash now row (generation row.environmentId s.facts))
            | none => s
          pure true

def revokeEndUserSession (sessionId : String) (now : ℤ) : Program Unit := Tx.transaction do
  match ← lockWhere (fun _ => exclusive n (.session sessionId))
      (fun s => (s.sessions sessionId).filter (·.revokedAt.isNone))
      fun _ s => (s.sessions sessionId).filter (·.revokedAt.isNone) with
  | none => pure ()
  | some _ => Tx.update (·.revokeSessions [sessionId] now)

def deleteExpiredEndUserSessions (before : ℤ) : Program Unit := Tx.transaction do
  let ids ← lockAll (fun id => exclusive n (.session id))
    (Store.idsWhere Store.sessions fun session => session.expiresAt < before)
  Tx.update (·.deleteSessions ids)

def deleteExpiredEndUserAuthorizationArtifacts (before : ℤ) : Program Unit := Tx.transaction do
  let exchanges ← lockAll (fun id => exclusive n (.exchange id))
    (Store.idsWhere Store.exchanges fun exchange => exchange.expiresAt < before)
  Tx.update (·.deleteExchanges exchanges)
  let requests ← lockAll (fun id => exclusive n (.request id))
    (Store.idsWhere Store.requests fun request => request.expiresAt < before)
  Tx.update (·.deleteRequests requests)

end Sessions

section Authorities

variable (n c : ℕ)

/-- `update end_user_sessions set revoked_at .. where .. and revoked_at is null`. -/
def revokeSessionsOf (meets : EndUserSession → Bool) (now : ℤ) : Program Unit := do
  let ids ← lockAll (fun id => exclusive n (.session id))
    (Store.idsWhere Store.sessions fun session => meets session && session.revokedAt.isNone)
  Tx.update (·.revokeSessions ids now)

def disableExternalSubject (workspaceId externalSubjectId : String) : Program Unit :=
  Tx.transaction do
    match ← lockWhere (fun _ => exclusive n (.subject externalSubjectId))
        (fun s => (s.externalSubjects externalSubjectId).filter (·.workspaceId = workspaceId))
        fun _ s => (s.externalSubjects externalSubjectId).filter (·.workspaceId = workspaceId) with
    | none => pure ()
    | some existing =>
      if existing.status = .erased ∨ existing.status = .disabled then pure ()
      else do
        let now ← Tx.receiving (·.now)
        Tx.update (·.setSubject externalSubjectId { existing with status := .disabled })
        revokeSessionsOf n (·.externalSubjectId = externalSubjectId) now

/-- The lock is `for no key update`, which conflicts with `for share` as `for update` does. -/
def eraseExternalSubject (workspaceId externalSubjectId : String) : Program Unit :=
  Tx.transaction do
    match ← lockWhere (fun _ => exclusive n (.subject externalSubjectId))
        (fun s => (s.externalSubjects externalSubjectId).filter (·.workspaceId = workspaceId))
        fun _ s => (s.externalSubjects externalSubjectId).filter (·.workspaceId = workspaceId) with
    | none => pure ()
    | some existing =>
      if existing.status = .erased then pure ()
      else do
        let now ← Tx.receiving (·.now)
        Tx.update (·.setSubject externalSubjectId
          { existing with issuerSubject := none, status := .erased })
        revokeSessionsOf n (·.externalSubjectId = externalSubjectId) now

structure EnvironmentTrustConfiguration where
  allowedBrowserOrigins : List String
  allowedRedirectOrigins : List String
  trust : Trust

def replaceEnvironmentTrustConfiguration (workspaceId id : String)
    (input : EnvironmentTrustConfiguration) : Program Unit := Tx.transaction do
  let now ← Tx.receiving (·.now)
  match ← lockWhere (fun _ => exclusive n (.environment id))
      (fun s => (s.environments id).filter (·.workspaceId = workspaceId))
      fun _ s => (s.environments id).filter (·.workspaceId = workspaceId) with
  | none => pure ()
  | some environment => do
    Tx.update (·.setEnvironment id { environment with
      allowedBrowserOrigins := input.allowedBrowserOrigins
      allowedRedirectOrigins := input.allowedRedirectOrigins
      trust := some input.trust })
    revokeSessionsOf n (·.environmentId = id) now
    let exchanges ← lockAll (fun id => exclusive n (.exchange id))
      (Store.idsWhere Store.exchanges fun exchange => exchange.environmentId = id)
    Tx.update (·.deleteExchanges exchanges)
    let requests ← lockAll (fun id => exclusive n (.request id))
      (Store.idsWhere Store.requests fun request => request.environmentId = id)
    Tx.update (·.deleteRequests requests)
    Tx.update (·.record (.changed id))

def disableEnvironment (workspaceId id : String) : Program Unit := Tx.transaction do
  match ← lockWhere (fun _ => exclusive n (.environment id))
      (fun s => (s.environments id).filter (·.workspaceId = workspaceId))
      fun _ s => (s.environments id).filter (·.workspaceId = workspaceId) with
  | none => pure ()
  | some existing =>
    if existing.enabled then do
      let now ← Tx.receiving (·.now)
      Tx.update (·.setEnvironment id { existing with enabled := false })
      revokeSessionsOf n (·.environmentId = id) now
      Tx.update (·.record (.changed id))
    else pure ()

end Authorities

section Clients

/-- What a client may run. -/
inductive Call
  | createAuthorizationRequest (input : CreateAuthorizationRequestInput)
  | exchange (input : ExchangeInput)
  | consumeIdentityExchange (tokenHash : String) (now : ℤ)
  | createEndUserSession (input : CreateEndUserSessionInput)
  | recordEndUserSessionProof (sessionId jtiHash : String) (now : ℤ)
  | revokeEndUserSession (sessionId : String) (now : ℤ)
  | deleteExpiredEndUserSessions (before : ℤ)
  | deleteExpiredEndUserAuthorizationArtifacts (before : ℤ)
  | disableExternalSubject (workspaceId externalSubjectId : String)
  | eraseExternalSubject (workspaceId externalSubjectId : String)
  | replaceEnvironmentTrustConfiguration (workspaceId id : String)
      (input : EnvironmentTrustConfiguration)
  | disableEnvironment (workspaceId id : String)

def Call.program (n c : ℕ) : Call → Program Unit
  | .createAuthorizationRequest input => do
    let _ ← SignIn.createAuthorizationRequest n c input
    pure ()
  | .exchange input => SignIn.exchange n c input
  | .consumeIdentityExchange tokenHash now => do
    let _ ← SignIn.consumeIdentityExchange n tokenHash now
    pure ()
  | .createEndUserSession input => do
    let _ ← SignIn.createEndUserSession n c input
    pure ()
  | .recordEndUserSessionProof sessionId jtiHash now => do
    let _ ← SignIn.recordEndUserSessionProof n sessionId jtiHash now
    pure ()
  | .revokeEndUserSession sessionId now => SignIn.revokeEndUserSession n sessionId now
  | .deleteExpiredEndUserSessions before => SignIn.deleteExpiredEndUserSessions n before
  | .deleteExpiredEndUserAuthorizationArtifacts before =>
    SignIn.deleteExpiredEndUserAuthorizationArtifacts n before
  | .disableExternalSubject workspaceId id => SignIn.disableExternalSubject n workspaceId id
  | .eraseExternalSubject workspaceId id => SignIn.eraseExternalSubject n workspaceId id
  | .replaceEnvironmentTrustConfiguration workspaceId id input =>
    SignIn.replaceEnvironmentTrustConfiguration n workspaceId id input
  | .disableEnvironment workspaceId id => SignIn.disableEnvironment n workspaceId id

/-- Any number `n` of clients, each of which makes one call. -/
def Admits (n c : ℕ) (program : Program Unit) : Prop :=
  c < n ∧ ∃ call : Call, program = call.program n c

/-- Environments and subjects, and nothing of any sign-in yet. -/
def Store.start (environments : String → Option Environment)
    (subjects : List (String × ExternalSubject)) : Store where
  environments := environments
  externalSubjects id := (subjects.find? fun row => row.1 = id).map Prod.snd
  requests _ := none
  exchanges _ := none
  sessions _ := none
  proofs := []
  issued := subjects.map Prod.fst
  facts := []

end Clients
end Linea.SignIn
