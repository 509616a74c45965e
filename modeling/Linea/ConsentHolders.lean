import Linea.ConsentAuthorities
import Linea.ConsentDeciding
import Linea.ConsentIssuing

/-! The transactions that decide who has authority, and those that lease an execution, keep to the
discipline. Three of them are said again in `Locking`, with the row locks that their updates take;
the transactions of `connection.repository.ts` and `environment.repository.ts` that change a single
row are added. -/
namespace Linea.Consent

section Updates

/-- `update connections set ... where guard`, whose scan finds the rows `ids`. -/
def updateConnections (ids : List String) (guard : Connection → Bool)
    (set : Connection → Connection) : Program (List String) := do
  let found ← Tx.selectForUpdate
    (fun s => (ids.filter fun id => (s.connections id).any guard).map .connection)
    fun s => ids.filter fun id => (s.connections id).any guard
  Tx.update fun s => { s with connections := fun id =>
    if id ∈ found then (s.connections id).map set else s.connections id }
  pure found

/-- `update environments set ... where id = ... and "workspaceId" = ...`. -/
def updateEnvironment (workspaceId environmentId : String) (set : Environment → Environment) :
    Program (Option Environment) := do
  let found ← lockRow (.environment environmentId) (ownEnvironment workspaceId environmentId)
  match found with
  | none => pure none
  | some environment => do
    Tx.update fun s => { s with
      environments := Function.update s.environments environmentId (some (set environment)) }
    pure (some (set environment))

/-- The sessions of the environment that are not revoked yet. -/
def Store.revokeEnvironmentSessions (environmentId : String) (now : ℕ) (s : Store) : Store :=
  { s with sessions := fun id => (s.sessions id).map fun session =>
      if session.environmentId = environmentId ∧ session.revokedAt = none then
        { session with revokedAt := some now }
      else session }

def disableEnvironment (workspaceId environmentId : String) : Program Unit := Tx.transaction do
  let existing ← lockRow (.environment environmentId) (ownEnvironment workspaceId environmentId)
  if existing.map Environment.enabled ≠ some true then return ()
  let now ← Tx.receiving Reply.now
  let _ ← updateEnvironment workspaceId environmentId fun e => { e with enabled := false }
  Tx.update (Store.revokeEnvironmentSessions environmentId now)

def replaceConnectorAccessPolicy (workspaceId environmentId : String)
    (providers : List ProviderPolicy) : Program (Option Environment) :=
  Tx.transaction (updateEnvironment workspaceId environmentId fun e =>
    { e with providers := providers })

/-- The trust configuration itself is read by no modelled function. -/
def replaceEnvironmentTrustConfiguration (workspaceId environmentId : String) : Program Unit :=
  Tx.transaction do
  let now ← Tx.receiving Reply.now
  let environment ← updateEnvironment workspaceId environmentId id
  if environment.isNone then return ()
  Tx.update (Store.revokeEnvironmentSessions environmentId now)

/-- `matched` says that the version of the credential is the expected one. -/
def rotateConnectionCredential (owner : ConnectionOwner) (connectionId : String)
    (matched : Connection → Bool) (credentialEncrypted : String) : Program (List String) :=
  Tx.transaction (updateConnections [connectionId]
    (fun c => ownedConnection owner c ∧ c.status = .active ∧ matched c)
    fun c => { c with credentialEncrypted := some credentialEncrypted })

def requireConnectionReauthorization (owner : ConnectionOwner) (connectionId : String)
    (matched : Connection → Bool) : Program (List String) :=
  Tx.transaction (updateConnections [connectionId]
    (fun c => ownedConnection owner c ∧ c.status = .active ∧ matched c)
    fun c => { c with status := .reauthorizationRequired, credentialEncrypted := none })

/-- Whether the identity exchange is found, and used up, is received. -/
def createEndUserSession (row : EndUserSession) : Program (Option String) := Tx.transaction do
  let environment ← Tx.select fun s =>
    (ownEnvironment row.workspaceId row.environmentId s).any Environment.enabled
  if environment = false then return none
  let subject ← Tx.select fun s => (ownSubject row.workspaceId row.externalSubjectId s).any
    fun subject => subject.status = .verified
  if subject = false then return none
  let exchange ← Tx.receiving Reply.member
  if exchange = false then return none
  let id ← Tx.receiving Reply.id
  let used ← lockSlot (.session id) fun s => s.sessions id
  if used.isSome then .halt "duplicate key value violates end_user_sessions_pkey"
  else do
    Tx.update fun s => { s with
      sessions := Function.update s.sessions id (some { row with revokedAt := none }) }
    pure (some id)

def revokeEndUserSession (sessionId : String) (now : ℕ) : Program Unit :=
  Tx.transaction (Tx.update fun s => { s with
    sessions := fun id =>
      if id = sessionId then (s.sessions id).map fun session =>
        { session with revokedAt := some (session.revokedAt.getD now) }
      else s.sessions id })

def deleteExpiredEndUserSessions (before : ℕ) : Program Unit :=
  Tx.transaction (Tx.update fun s => { s with
    sessions := fun id => (s.sessions id).filter fun session => ¬ session.expiresAt < before })

/-- An update of one execution, whose guard and columns are `change`. -/
def updateExecution (executionId : String) (change : Execution → Option Execution) :
    Program (Option Execution) := Tx.transaction do
  let row ← lockRow (.execution executionId) fun s => (s.execution executionId).bind change
  match row with
  | none => pure none
  | some row => do
    Tx.update (Store.setExecution executionId (.withRow fun _ => row))
    pure (some row)

def ExecutionRecord.lease (attempt : String) (row : Execution) (record : ExecutionRecord) :
    ExecutionRecord :=
  ⟨row, record.attempts ++ [attempt]⟩

/-- The id of an attempt is generated (`runs.service.ts`): no earlier attempt has had it. -/
def startExecution (executionId : String) (leaseExpiresAt : ℕ) : Program (Option Execution) :=
  Tx.transaction do
  let attempt ← Tx.receiving Reply.id
  let now ← Tx.receiving Reply.now
  let row ← lockRow (.execution executionId) fun s =>
    (s.executions executionId).bind fun record =>
      if attempt ∈ record.attempts then none
      else record.row.startExecution now attempt leaseExpiresAt
  match row with
  | none => pure none
  | some row => do
    Tx.update (Store.setExecution executionId (.lease attempt row))
    pure (some row)

def renewLease (executionId leasedBy : String) (leaseExpiresAt : ℕ) :
    Program (Option Execution) := do
  let now ← Tx.receiving Reply.now
  updateExecution executionId fun e => e.renewLease now leasedBy leaseExpiresAt

def pauseExecution (executionId leasedBy : String) : Program (Option Execution) := do
  let now ← Tx.receiving Reply.now
  updateExecution executionId fun e => e.pauseExecution now leasedBy

def failQueuedExecution (executionId : String) (error : ExecutionError) :
    Program (Option Execution) := do
  let now ← Tx.receiving Reply.now
  updateExecution executionId fun e =>
    if e.status = .queued then
      some { e with status := .failed, error := some error, completedAt := some now }
    else none

/-- The execution's part of `claimAndResolveDueWaitTimer`. -/
def resumeWaitingExecution (executionId : String) : Program (Option Execution) :=
  updateExecution executionId Execution.requeue

/-- The audience of the completion's event is looked for by `audienceExists`. -/
def completeExecution (executionId leasedBy : String) (audienceExists : Bool)
    (input : CompleteExecutionInput) : Program (Option Execution) := do
  let now ← Tx.receiving Reply.now
  updateExecution executionId fun e =>
    (e.completeExecution now audienceExists leasedBy input).map Prod.fst

end Updates

namespace Locking

/-- The insert that `createEnvironment` and the creation of an application make. -/
def createEnvironment (environmentId : String) (row : Environment) : Program Unit :=
  Tx.transaction do
  let used ← lockSlot (.environment environmentId) fun s => s.environments environmentId
  if used.isSome then .halt "duplicate key value violates environments_pkey"
  else Tx.update fun s => { s with
    environments := Function.update s.environments environmentId (some row) }

/-- The connections of the subject are those of `owned`. The updates of those that are revoked and
of those that are not come to the same columns. -/
def eraseExternalSubject (workspaceId externalSubjectId : String) (owned : List String) :
    Program Unit := Tx.transaction do
  let existing ← lockRow (.subject externalSubjectId) (ownSubject workspaceId externalSubjectId)
  match existing.map ExternalSubject.status with
  | none | some .erased => pure ()
  | some _ => do
    let now ← Tx.receiving Reply.now
    Tx.update fun s => { s with
      grants := revokeAuthorizations workspaceId externalSubjectId now s.grants }
    Tx.update fun s => { s with
      reviewers := revokeAuthorizations workspaceId externalSubjectId now s.reviewers }
    let _ ← cancelNonExecutingActionIntents workspaceId (.externalSubject externalSubjectId) now
    let _ ← updateConnections owned
      (fun c => c.workspaceId = workspaceId ∧ c.externalSubjectId = some externalSubjectId)
      Connection.erase
    Tx.update (Store.setSubjectStatus externalSubjectId .erased)
    Tx.update (Store.revokeSessions externalSubjectId now)

/-- The row of a connection's environment is there: the connection refers to it. -/
def revokeConnectionSubjectAuthorization (shared : SharedConnection)
    (authorizationId externalSubjectId : String) (kind : SubjectAuthorizationKind) :
    Program Unit := Tx.transaction do
  let environment ← lockRow (.environment shared.environmentId)
    (ownEnvironment shared.workspaceId shared.environmentId)
  let connection ← Tx.select (getSharedEnvironmentConnection shared)
  if environment.isNone ∨ connection.isNone then .halt "Shared Connection not found"
  else do
    let existing ← Tx.select fun s =>
      (s.authorizations kind (shared.environmentId, externalSubjectId)).find? fun a =>
        a.id = authorizationId ∧ a.connectionId = shared.connectionId
    match existing with
    | none => .halt "Connection authorization not found"
    | some existing => do
      if existing.revokedAt.isSome then return ()
      let now ← Tx.receiving Reply.now
      Tx.update (Store.setAuthorizations kind (shared.environmentId, externalSubjectId)
        fun rows => rows.map fun a => if a.id = existing.id then a.revoke now else a)
      if kind = .requester then do
        let _ ← cancelNonExecutingActionIntents shared.workspaceId
          (.connectionAccessGrant existing.id) now
        pure ()
      else pure ()

def revokeSharedEnvironmentConnection (shared : SharedConnection) : Program Unit :=
  Tx.transaction do
  let _ ← lockRow (.environment shared.environmentId)
    (ownEnvironment shared.workspaceId shared.environmentId)
  let connection ← Tx.select (getSharedEnvironmentConnection shared)
  match connection.map Connection.status with
  | none => .halt "Shared Connection not found"
  | some .revoked => pure ()
  | some _ => do
    let now ← Tx.receiving Reply.now
    let _ ← cancelNonExecutingActionIntents shared.workspaceId (.connection shared.connectionId) now
    let _ ← updateConnections [shared.connectionId] (fun _ => true) Connection.erase
    pure ()

end Locking

variable {setting : Setting} {c : Client} {held held' : Set Lock} {known known' : Store → Prop}
  {pending : Store → Store} {α β : Type}
  {post : Set Lock → (Store → Store) → (Store → Prop) → β → Prop} {s t u : Store}

section Moves

/-- A change of the rows that give authority, under the locks that guard them. -/
structure AuthorityMove (held : Set Lock) (s t : Store) : Prop where
  subjects : ∀ x, .subject x ∉ held → t.subjects x = s.subjects x
  present : ∀ x, (s.subjects x).isSome → (t.subjects x).isSome
  environments : ∀ e, .environment e ∉ held → t.environments e = s.environments e
  connections : ∀ k, .connection k ∉ held → t.connections k = s.connections k
  memberships : ∀ k w, s.memberships k = some w → t.memberships k = some w
  grants : ∀ e x, .environment e ∉ held → .subject x ∉ held → t.grants (e, x) = s.grants (e, x)
  reviewers : ∀ e x, .environment e ∉ held → .subject x ∉ held →
    t.reviewers (e, x) = s.reviewers (e, x)
  rest : t.executions = s.executions ∧ t.decisionKeys = s.decisionKeys ∧ t.answers = s.answers ∧
    t.readings = s.readings

theorem AuthorityMove.refl : AuthorityMove held s s where
  subjects := fun _ _ => rfl
  present := fun _ h => h
  environments := fun _ _ => rfl
  connections := fun _ _ => rfl
  memberships := fun _ _ h => h
  grants := fun _ _ _ _ => rfl
  reviewers := fun _ _ _ _ => rfl
  rest := ⟨rfl, rfl, rfl, rfl⟩

theorem AuthorityMove.trans (h : AuthorityMove held s t) (h' : AuthorityMove held t u) :
    AuthorityMove held s u where
  subjects := fun x hx => (h'.subjects x hx).trans (h.subjects x hx)
  present := fun x hx => h'.present x (h.present x hx)
  environments := fun e he => (h'.environments e he).trans (h.environments e he)
  connections := fun k hk => (h'.connections k hk).trans (h.connections k hk)
  memberships := fun k w hw => h'.memberships k w (h.memberships k w hw)
  grants := fun e x he hx => (h'.grants e x he hx).trans (h.grants e x he hx)
  reviewers := fun e x he hx => (h'.reviewers e x he hx).trans (h.reviewers e x he hx)
  rest := ⟨h'.rest.1.trans h.rest.1, h'.rest.2.1.trans h.rest.2.1,
    h'.rest.2.2.1.trans h.rest.2.2.1, h'.rest.2.2.2.trans h.rest.2.2.2⟩

/-- Authority may change in the commit that cancels what rested on it. -/
theorem Cancelled.andAuthority {intents : OrderedMap String IntentRecord}
    {requests : OrderedMap String RequestRecord} (h : Cancelled setting c held s intents requests)
    (hauthority : AuthorityMove held s t) :
    Move setting c held s { t with intents := intents, requests := requests } where
  subjects := hauthority.subjects
  present := hauthority.present
  environments := hauthority.environments
  connections := hauthority.connections
  memberships := hauthority.memberships
  grants := hauthority.grants
  reviewers := hauthority.reviewers
  executions := fun e => by
    rw [show ({ t with intents := intents, requests := requests } : Store).executions e =
      s.executions e from congrFun hauthority.rest.1 e]
    exact .keep
  requests := fun r => (h.keeps r).move
  intents := h.moves
  single := fun i j r r' hi _ hr _ => by
    rw [show Store.intent i { t with intents := intents, requests := requests } = none from
      h.absent i hi] at hr
    cases hr
  decisionKeys := fun key record hrecord => .inl (by
    rw [← hauthority.rest.2.1]
    exact hrecord)
  slots := fun session key _ => congrFun hauthority.rest.2.1 (session, key)
  kept := fun key hkey => by
    rw [show ({ t with intents := intents, requests := requests } : Store).decisionKeys key =
      s.decisionKeys key from congrFun hauthority.rest.2.1 key]
    exact hkey
  answers := .inl hauthority.rest.2.2.1
  decided := fun r q q' d hq hq' hd hnew => by
    obtain ⟨q₀, hq₀, hsame⟩ := (h.keeps r).decisions hq'
    rw [hq, Option.some.injEq] at hq₀
    subst hq₀
    exact absurd (hsame ▸ hd) hnew
  readings := fun reading hin => by
    rw [show ({ t with intents := intents, requests := requests } : Store).readings = s.readings
      from hauthority.rest.2.2.2]
    exact hin
  read := fun reading hin => .inl (by
    rw [← hauthority.rest.2.2.2]
    exact hin)

theorem AuthorityMove.move (h : AuthorityMove held s t)
    (hapart : t.intents = s.intents ∧ t.requests = s.requests) : Move setting c held s t := by
  have hmove := @Cancelled.andAuthority setting c held s t _ _ Cancelled.refl h
  rw [← hapart.1, ← hapart.2] at hmove
  exact hmove

end Moves
section Tables
variable {id workspaceId environmentId externalSubjectId : String}

theorem ne_of_held {lock : String → Lock} {x : String} (hx : lock x ∉ held) (hlock : lock id ∈ held) :
    x ≠ id :=
  fun h => hx (h ▸ hlock)

theorem authority_subject {subject : ExternalSubject} (hlock : .subject id ∈ held) :
    AuthorityMove held s
      { s with subjects := Function.update s.subjects id (some subject) } where
  subjects := fun x hx => Function.update_of_ne (ne_of_held hx hlock) _ _
  present := fun x hx => by
    by_cases h : x = id
    · subst h
      simp
    · simpa [Function.update_of_ne h] using hx
  environments := fun _ _ => rfl
  connections := fun _ _ => rfl
  memberships := fun _ _ h => h
  grants := fun _ _ _ _ => rfl
  reviewers := fun _ _ _ _ => rfl
  rest := ⟨rfl, rfl, rfl, rfl⟩

theorem authority_status {status : SubjectStatus} (hlock : .subject id ∈ held) :
    AuthorityMove held s (s.setSubjectStatus id status) where
  subjects := fun x hx => if_neg (ne_of_held hx hlock)
  present := fun x hx => by
    simp only [Store.setSubjectStatus]
    split
    · rw [Option.isSome_map]
      exact hx
    · exact hx
  environments := fun _ _ => rfl
  connections := fun _ _ => rfl
  memberships := fun _ _ h => h
  grants := fun _ _ _ _ => rfl
  reviewers := fun _ _ _ _ => rfl
  rest := ⟨rfl, rfl, rfl, rfl⟩

theorem authority_join : AuthorityMove held s (s.joinEnvironment workspaceId environmentId id) where
  subjects := fun _ _ => rfl
  present := fun _ h => h
  environments := fun _ _ => rfl
  connections := fun _ _ => rfl
  memberships := fun k w hw => by
    simp only [Store.joinEnvironment, hw, Option.isNone_some, Bool.false_eq_true, and_false,
      if_false]
  grants := fun _ _ _ _ => rfl
  reviewers := fun _ _ _ _ => rfl
  rest := ⟨rfl, rfl, rfl, rfl⟩

theorem authority_environment {environment : Environment}
    (hlock : .environment environmentId ∈ held) :
    AuthorityMove held s { s with
      environments := Function.update s.environments environmentId (some environment) } where
  subjects := fun _ _ => rfl
  present := fun _ h => h
  environments := fun _ he => Function.update_of_ne (ne_of_held he hlock) _ _
  connections := fun _ _ => rfl
  memberships := fun _ _ h => h
  grants := fun _ _ _ _ => rfl
  reviewers := fun _ _ _ _ => rfl
  rest := ⟨rfl, rfl, rfl, rfl⟩

theorem authority_connections {connections : String → Option Connection}
    (h : ∀ k, .connection k ∉ held → connections k = s.connections k) :
    AuthorityMove held s { s with connections := connections } where
  subjects := fun _ _ => rfl
  present := fun _ h => h
  environments := fun _ _ => rfl
  connections := h
  memberships := fun _ _ h => h
  grants := fun _ _ _ _ => rfl
  reviewers := fun _ _ _ _ => rfl
  rest := ⟨rfl, rfl, rfl, rfl⟩

theorem authority_setConnection {f : Connection → Connection} (hlock : .connection id ∈ held) :
    AuthorityMove held s (s.setConnection id f) :=
  authority_connections fun _ hk => if_neg (ne_of_held hk hlock)

theorem authority_insertConnection {connection : Connection} (hlock : .connection id ∈ held) :
    AuthorityMove held s
      { s with connections := Function.update s.connections id (some connection) } :=
  authority_connections fun _ hk => Function.update_of_ne (ne_of_held hk hlock) _ _

theorem authority_sessions {sessions : String → Option EndUserSession} :
    AuthorityMove held s { s with sessions := sessions } :=
  { @AuthorityMove.refl held s with }

theorem authority_grants {grants : String × String → List Authorization}
    (h : ∀ e x, .environment e ∉ held → .subject x ∉ held → grants (e, x) = s.grants (e, x)) :
    AuthorityMove held s { s with grants := grants } :=
  { @AuthorityMove.refl held s with grants := h }

theorem authority_reviewers {reviewers : String × String → List Authorization}
    (h : ∀ e x, .environment e ∉ held → .subject x ∉ held →
      reviewers (e, x) = s.reviewers (e, x)) :
    AuthorityMove held s { s with reviewers := reviewers } :=
  { @AuthorityMove.refl held s with reviewers := h }

theorem authority_set {kind : SubjectAuthorizationKind}
    {f : List Authorization → List Authorization} (hlock : .environment environmentId ∈ held) :
    AuthorityMove held s (s.setAuthorizations kind (environmentId, externalSubjectId) f) := by
  have hother : ∀ e x, .environment e ∉ held → (e, x) ≠ (environmentId, externalSubjectId) :=
    fun e x he h => he ((Prod.mk.inj h).1 ▸ hlock)
  cases kind with
  | requester =>
    exact authority_grants fun e x he _ => Function.update_of_ne (hother e x he) _ _
  | reviewer =>
    exact authority_reviewers fun e x he _ => Function.update_of_ne (hother e x he) _ _

theorem revokeAuthorizations_other {now : ℕ} {e x : String}
    {authorizations : String × String → List Authorization} (h : x ≠ externalSubjectId) :
    revokeAuthorizations workspaceId externalSubjectId now authorizations (e, x) =
      authorizations (e, x) := by
  simp [revokeAuthorizations, h]

theorem authority_revoke {now : ℕ} (hlock : .subject externalSubjectId ∈ held) :
    AuthorityMove held s { s with
      grants := revokeAuthorizations workspaceId externalSubjectId now s.grants
      reviewers := revokeAuthorizations workspaceId externalSubjectId now s.reviewers } := by
  have hother : ∀ x, .subject x ∉ held → x ≠ externalSubjectId := fun x hx h => hx (h ▸ hlock)
  exact
    { @AuthorityMove.refl held s with
      grants := fun e x _ hx => revokeAuthorizations_other (hother x hx)
      reviewers := fun e x _ hx => revokeAuthorizations_other (hother x hx) }

end Tables

section Rules

theorem updateConnections_bind {ids : List String} {guard : Connection → Bool}
    {f : Connection → Connection} {next : List String → Program β}
    (h : ∀ found held' known', held ⊆ held' → (∀ id ∈ found, .connection id ∈ held') →
      (∀ t, known' t → known t) →
      Wp setting c (next found) held'
        (fun s => { pending s with
          connections := fun id =>
            if id ∈ found then ((pending s).connections id).map f else (pending s).connections id })
        known' post) :
    Wp setting c (updateConnections ids guard f >>= next) held pending known post := by
  refine bind_assoc_iff.mpr (selectForUpdate_bind fun s₀ known₀ _ _ hknown₀ => ?_)
  refine bind_assoc_iff.mpr (update_bind (pure_bind_iff.mpr ?_))
  refine h _ _ known₀ Set.subset_union_left (fun id hid => Set.mem_union_right _ ?_)
    fun t ht => (hknown₀ t ht).1
  exact List.mem_map.mpr ⟨id, hid, rfl⟩

theorem updateEnvironment_bind {workspaceId environmentId : String}
    {set : Environment → Environment} {next : Option Environment → Program β}
    (hnone : ∀ known', (∀ t, known' t → known t) →
      Wp setting c (next none) held pending known' post)
    (hsome : ∀ e known', (∀ t, known' t → known t) →
      Wp setting c (next (some e)) (held ∪ {.environment environmentId})
        (fun s => { pending s with
          environments := Function.update (pending s).environments environmentId (some e) })
        known' post) :
    Wp setting c (updateEnvironment workspaceId environmentId set >>= next) held pending known
      post := by
  refine bind_assoc_iff.mpr (lockRow_bind ?_ ?_)
  · intro s₀ known₀ _ _ _ hknown₀
    exact pure_bind_iff.mpr (hnone known₀ fun t ht => (hknown₀ t ht).1)
  · intro s₀ e known₀ _ _ _ hknown₀
    refine bind_assoc_iff.mpr (update_bind (pure_bind_iff.mpr ?_))
    exact hsome (set e) known₀ fun t ht => (hknown₀ t ht).1

theorem insertConnection_bind {id : String} {connection : Connection}
    {next : Option Connection → Program β}
    (hnone : ∀ known', (∀ t, known' t → known t) →
      Wp setting c (next none) held pending known' post)
    (hsome : ∀ known', (∀ t, known' t → known t) →
      Wp setting c (next (some connection)) (held ∪ {.connection id})
        (fun s => { pending s with
          connections := Function.update (pending s).connections id (some connection) })
        known' post) :
    Wp setting c (insertConnection id connection >>= next) held pending known post := by
  refine bind_assoc_iff.mpr (lockSlot_bind ?_ ?_)
  · intro s₀ known₀ _ _ _ hknown₀
    refine bind_assoc_iff.mpr (update_bind (pure_bind_iff.mpr ?_))
    exact hsome known₀ fun t ht => (hknown₀ t ht).1
  · intro s₀ used known₀ _ _ _ hknown₀
    exact pure_bind_iff.mpr (hnone known₀ fun t ht => (hknown₀ t ht).1)

/-- The commit of writes to the authority rows. -/
theorem authority_commits {b : β} (h : ∀ s, AuthorityMove held s (pending s))
    (hapart : Apart pending) :
    Wp setting c (pure b) held pending known (CommitsAny setting c) :=
  pure_commits fun s _ => (h s).move (hapart s)

/-- The commit of writes to the authority rows with a cancellation between them. -/
theorem Cancels.commits {before : Store → Store} (h : Cancels setting c held known before pending)
    (after : Store → Store) (hshape : ∀ s intents requests,
      after { before s with intents := intents, requests := requests } =
        { after (before s) with intents := intents, requests := requests })
    (hauthority : ∀ s, AuthorityMove held s (after (before s))) (b : β) :
    Wp setting c (pure b) held (fun s => after (pending s)) known (CommitsAny setting c) := by
  intro s hinv hs
  obtain ⟨intents, requests, hpending, hcancelled⟩ := h s hinv hs
  refine ⟨?_, fun _ _ => trivial⟩
  change Move setting c held s (after (pending s))
  rw [hpending, hshape]
  exact hcancelled.andAuthority (hauthority s)

theorem Cancels.mono {before : Store → Store} (h : Cancels setting c held known before pending)
    (hsub : held ⊆ held') (hknown : ∀ s, known' s → known s) :
    Cancels setting c held' known' before pending := by
  intro s hinv hs
  obtain ⟨intents, requests, hpending, hcancelled⟩ := h s hinv (hknown s hs)
  exact ⟨intents, requests, hpending, hcancelled.mono hsub⟩

end Rules

section Subjects
variable {pre : Store → Prop} {workspaceId environmentId externalSubjectId : String}

theorem enrolExternalSubject_triple {status : SubjectStatus}
    {admitted : SubjectStatus → Option SubjectStatus} :
    Triple setting c pre (enrolExternalSubject workspaceId environmentId status admitted)
      fun _ _ => True := by
  refine Discipline.Triple.transaction (select_bind fun s₀ known₀ _ _ _ => ?_)
  split
  · exact pure_commits fun s _ => Move.refl
  refine receiving_bind fun key => selectForUpdate_bind fun s₁ known₁ _ _ _ => ?_
  have hlock : .subject key.id ∈ (∅ : Set Lock) ∪ {k | k ∈ [Lock.subject key.id]} := by simp
  split
  · refine update_bind (pure_commits fun s _ => AuthorityMove.move ?_ ⟨rfl, rfl⟩)
    exact (authority_subject hlock).trans authority_join
  split
  · exact wp_halt_of (by decide)
  split
  · exact pure_commits fun s _ => Move.refl
  · refine update_bind (pure_commits fun s _ => AuthorityMove.move ?_ ⟨rfl, rfl⟩)
    exact (authority_status hlock).trans authority_join

theorem disableExternalSubject_triple :
    Triple setting c pre (disableExternalSubject workspaceId externalSubjectId)
      fun _ _ => True := by
  refine Discipline.Triple.transaction (lockRow_bind ?_ ?_)
  · intro s₀ known₀ _ _ _ _
    exact pure_commits fun s _ => Move.refl
  intro s₀ subject known₀ _ _ _ _
  rw [Option.map_some]
  split
  · contradiction
  · exact pure_commits fun s _ => Move.refl
  · exact pure_commits fun s _ => Move.refl
  refine receiving_bind fun clock => cancelNonExecutingActionIntents_bind apart_id
    fun result held₁ pending₁ known₁ hsub _ hcancels => ?_
  refine update_bind (hcancels.commits (fun s => (s.setSubjectStatus externalSubjectId
    .disabled).revokeSessions externalSubjectId clock.now) (fun _ _ _ => rfl) (fun s => ?_) ())
  exact (authority_status (hsub (Set.mem_union_right _ rfl))).trans authority_sessions

theorem eraseExternalSubject_triple {owned : List String} :
    Triple setting c pre (Locking.eraseExternalSubject workspaceId externalSubjectId owned)
      fun _ _ => True := by
  refine Discipline.Triple.transaction (lockRow_bind ?_ ?_)
  · intro s₀ known₀ _ _ _ _
    exact pure_commits fun s _ => Move.refl
  intro s₀ subject known₀ _ _ _ _
  rw [Option.map_some]
  split
  · contradiction
  · exact pure_commits fun s _ => Move.refl
  refine receiving_bind fun clock => update_bind (update_bind ?_)
  refine cancelNonExecutingActionIntents_bind (fun _ => ⟨rfl, rfl⟩)
    fun result held₁ pending₁ known₁ hsub₁ _ hcancels => ?_
  refine updateConnections_bind fun found held₂ known₂ hsub₂ hfound hknown₂ => ?_
  have hlock : .subject externalSubjectId ∈ held₂ := hsub₂ (hsub₁ (Set.mem_union_right _ rfl))
  refine update_bind ((hcancels.mono hsub₂ hknown₂).commits
    (fun s => (Store.setSubjectStatus externalSubjectId .erased { s with
      connections := fun id =>
        if id ∈ found then (s.connections id).map .erase else s.connections id }).revokeSessions
      externalSubjectId clock.now) (fun _ _ _ => rfl) (fun s => ?_) ())
  have hconnections : ∀ t, AuthorityMove held₂ t { t with
      connections := fun id =>
        if id ∈ found then (t.connections id).map .erase else t.connections id } :=
    fun t => authority_connections fun k hk => if_neg fun hin => hk (hfound k hin)
  exact ((authority_revoke hlock).trans (hconnections _)).trans
    ((authority_status hlock).trans authority_sessions)

end Subjects

section SharedConnections
variable {pre : Store → Prop} {shared : SharedConnection} {externalSubjectId : String}
  {kind : SubjectAuthorizationKind}

theorem createSharedEnvironmentConnection_triple {scopes : List String}
    {credentialEncrypted : String} :
    Triple setting c pre (createSharedEnvironmentConnection shared scopes credentialEncrypted)
      fun _ _ => True := by
  refine Discipline.Triple.transaction (lockRow_any fun s₀ held₀ known₀ _ _ _ _ _ => ?_)
  split
  · exact wp_halt_of (by decide)
  refine insertConnection_bind (fun _ _ => wp_halt_of (by decide)) fun known₁ _ => ?_
  exact authority_commits (fun s => authority_insertConnection (Set.mem_union_right _ rfl))
    fun _ => ⟨rfl, rfl⟩

theorem setConnectionSubjectAuthorization_triple :
    Triple setting c pre (setConnectionSubjectAuthorization shared externalSubjectId kind)
      fun _ _ => True := by
  refine Discipline.Triple.transaction (lockRow_any fun s₀ held₀ known₀ _ _ _ hlocked _ => ?_)
  refine select_bind fun s₁ known₁ _ _ _ => select_bind fun s₂ known₂ _ _ _ => ?_
  split
  · exact wp_halt_of (by decide)
  rename_i hallowed
  simp only [not_or, not_not] at hallowed
  obtain ⟨environment, henvironment, _⟩ := Option.map_eq_some_iff.mp hallowed.1
  have hlock := hlocked environment henvironment
  refine receiving_bind fun key => select_bind fun s₃ known₃ _ _ _ => ?_
  split
  · exact pure_commits fun s _ => Move.refl
  · intro s _ _
    refine ⟨(authority_set hlock).move ?_, fun _ _ => trivial⟩
    cases kind <;> exact ⟨rfl, rfl⟩

theorem setAuthorizations_apart {key : String × String}
    {f : List Authorization → List Authorization} : Apart (Store.setAuthorizations kind key f) := by
  intro s
  cases kind <;> exact ⟨rfl, rfl⟩

theorem revokeConnectionSubjectAuthorization_triple {authorizationId : String} :
    Triple setting c pre
      (Locking.revokeConnectionSubjectAuthorization shared authorizationId externalSubjectId kind)
      fun _ _ => True := by
  refine Discipline.Triple.transaction (lockRow_any fun s₀ held₀ known₀ _ _ _ hlocked _ => ?_)
  refine select_bind fun s₁ known₁ _ _ _ => ?_
  split
  · exact wp_halt_of (by decide)
  rename_i hpresent
  rw [not_or, Bool.not_eq_true, Option.isNone_eq_false_iff] at hpresent
  obtain ⟨environment, henvironment⟩ := Option.isSome_iff_exists.mp hpresent.1
  have hlock := hlocked environment henvironment
  refine select_bind fun s₂ known₂ _ _ _ => ?_
  split
  · exact wp_halt_of (by decide)
  split
  · exact pure_commits fun s _ => Move.refl
  refine receiving_bind fun clock => update_bind ?_
  split
  · refine cancelNonExecutingActionIntents_bind setAuthorizations_apart
      fun result held₃ pending₃ known₃ hsub₃ _ hcancels => ?_
    exact hcancels.commits id (fun _ _ _ => rfl) (fun s => authority_set (hsub₃ hlock)) ()
  · exact authority_commits (fun s => authority_set hlock) setAuthorizations_apart

theorem revokeSharedEnvironmentConnection_triple :
    Triple setting c pre (Locking.revokeSharedEnvironmentConnection shared) fun _ _ => True := by
  refine Discipline.Triple.transaction (lockRow_any fun s₀ held₀ known₀ _ _ _ _ _ => ?_)
  refine select_bind fun s₁ known₁ _ _ _ => ?_
  split
  · exact wp_halt_of (by decide)
  · exact pure_commits fun s _ => Move.refl
  refine receiving_bind fun clock => cancelNonExecutingActionIntents_bind apart_id
    fun result held₂ pending₂ known₂ _ _ hcancels => ?_
  refine updateConnections_bind fun found held₃ known₃ hsub₃ hfound hknown₃ => ?_
  refine (hcancels.mono hsub₃ hknown₃).commits (fun s => { s with
    connections := fun id => if id ∈ found then (s.connections id).map .erase else s.connections id })
    (fun _ _ _ => rfl) (fun s => ?_) ()
  exact authority_connections fun k hk => if_neg fun hin => hk (hfound k hin)

end SharedConnections

section PersonalConnections
variable {pre : Store → Prop} {owner : ConnectionOwner} {connectionId : String}

theorem completeConnectionAuthorizationRequest_triple {provider credentialEncrypted : String}
    {scopes : List String} :
    Triple setting c pre
      (completeConnectionAuthorizationRequest owner provider scopes credentialEncrypted)
      fun _ _ => True := by
  refine Discipline.Triple.transaction (select_bind fun s₀ known₀ _ _ _ => ?_)
  split
  · exact pure_commits fun s _ => Move.refl
  refine receiving_bind fun account => lockRow_bind ?_ ?_
  · intro s₁ known₁ _ _ _ _
    refine receiving_bind fun key => insertConnection_bind ?_ fun known₂ _ => ?_
    · intro known₂ _
      exact wp_halt_of (by decide)
    · exact authority_commits (fun s => authority_insertConnection (Set.mem_union_right _ rfl))
        fun _ => ⟨rfl, rfl⟩
  · intro s₁ existing known₁ _ _ _ _ s _ _
    have hlock : .connection account.due ∈ (∅ : Set Lock) ∪ {.connection account.due} :=
      Set.mem_union_right _ rfl
    exact ⟨(authority_setConnection hlock).move ⟨rfl, rfl⟩, fun _ _ => trivial⟩

theorem revokeConnection_triple {now : ℕ} :
    Triple setting c pre (revokeConnection owner connectionId now) fun _ _ => True := by
  refine Discipline.Triple.transaction (lockRow_bind ?_ ?_)
  · intro s₀ known₀ _ _ _ _
    exact pure_commits fun s _ => Move.refl
  intro s₀ connection known₀ _ _ _ _
  refine update_bind (cancelNonExecutingActionIntents_bind (fun _ => ⟨rfl, rfl⟩)
    fun result held₁ pending₁ known₁ hsub₁ _ hcancels => ?_)
  exact hcancels.commits id (fun _ _ _ => rfl)
    (fun s => authority_setConnection (hsub₁ (Set.mem_union_right _ rfl))) ()

theorem updateConnections_triple {ids : List String} {guard : Connection → Bool}
    {f : Connection → Connection} :
    Triple setting c pre (Tx.transaction (updateConnections ids guard f)) fun _ _ => True := by
  refine Discipline.Triple.transaction (of_bind_pure (updateConnections_bind
    fun found held₁ known₁ _ hfound _ => ?_))
  refine authority_commits (fun s => authority_connections fun k hk => ?_) fun _ => ⟨rfl, rfl⟩
  exact if_neg fun hin => hk (hfound k hin)

end PersonalConnections

section Environments
variable {pre : Store → Prop} {workspaceId environmentId : String}

theorem disableEnvironment_triple :
    Triple setting c pre (disableEnvironment workspaceId environmentId) fun _ _ => True := by
  refine Discipline.Triple.transaction (lockRow_any fun s₀ held₀ known₀ _ _ _ _ _ => ?_)
  split
  · exact pure_commits fun s _ => Move.refl
  refine receiving_bind fun clock => updateEnvironment_bind ?_ ?_
  · intro known₁ _ s _ _
    exact ⟨authority_sessions.move ⟨rfl, rfl⟩, fun _ _ => trivial⟩
  · intro e known₁ _ s _ _
    refine ⟨AuthorityMove.move ?_ ⟨rfl, rfl⟩, fun _ _ => trivial⟩
    exact (authority_environment (Set.mem_union_right _ (Set.mem_singleton _))).trans
      authority_sessions

theorem createEnvironment_triple {row : Environment} :
    Triple setting c pre (Locking.createEnvironment environmentId row) fun _ _ => True := by
  refine Discipline.Triple.transaction (lockSlot_bind ?_ ?_)
  · intro s₀ known₀ _ _ _ _ s _ _
    have hlock : .environment environmentId ∈ (∅ : Set Lock) ∪ {.environment environmentId} :=
      Set.mem_union_right _ rfl
    exact ⟨(authority_environment hlock).move ⟨rfl, rfl⟩, fun _ _ => trivial⟩
  · intro s₀ used known₀ _ _ _ _
    exact wp_halt_of (by decide)

theorem replaceConnectorAccessPolicy_triple {providers : List ProviderPolicy} :
    Triple setting c pre (replaceConnectorAccessPolicy workspaceId environmentId providers)
      fun _ _ => True := by
  refine Discipline.Triple.transaction (of_bind_pure (updateEnvironment_bind ?_ ?_))
  · intro known₁ _
    exact pure_commits fun s _ => Move.refl
  · intro e known₁ _
    exact authority_commits (fun s => authority_environment (Set.mem_union_right _ rfl))
      fun _ => ⟨rfl, rfl⟩

theorem replaceEnvironmentTrustConfiguration_triple :
    Triple setting c pre (replaceEnvironmentTrustConfiguration workspaceId environmentId)
      fun _ _ => True := by
  refine Discipline.Triple.transaction (receiving_bind fun clock => updateEnvironment_bind ?_ ?_)
  · intro known₁ _
    exact pure_commits fun s _ => Move.refl
  · intro e known₁ _ s _ _
    refine ⟨AuthorityMove.move ?_ ⟨rfl, rfl⟩, fun _ _ => trivial⟩
    exact (authority_environment (Set.mem_union_right _ (Set.mem_singleton _))).trans
      authority_sessions

theorem createEndUserSession_triple {row : EndUserSession} :
    Triple setting c pre (createEndUserSession row) fun _ _ => True := by
  refine Discipline.Triple.transaction (select_bind fun s₀ known₀ _ _ _ => ?_)
  split
  · exact pure_commits fun s _ => Move.refl
  refine select_bind fun s₁ known₁ _ _ _ => ?_
  split
  · exact pure_commits fun s _ => Move.refl
  refine receiving_bind fun exchange => ?_
  split
  · exact pure_commits fun s _ => Move.refl
  refine receiving_bind fun key => lockSlot_bind ?_ ?_
  · intro s₂ known₂ _ _ _ _
    exact update_bind (authority_commits (fun _ => authority_sessions) fun _ => ⟨rfl, rfl⟩)
  · intro s₂ used known₂ _ _ _ _
    exact wp_halt_of (by decide)

theorem updateSessions_triple {f : Store → String → Option EndUserSession} :
    Triple setting c pre (Tx.transaction (Tx.update fun s => { s with sessions := f s }))
      fun _ _ => True :=
  Discipline.Triple.transaction fun _ _ _ =>
    ⟨authority_sessions.move ⟨rfl, rfl⟩, fun _ _ => trivial⟩

end Environments

section Executions
variable {pre : Store → Prop} {executionId : String}

theorem Move.ofExecutions {executions : String → Option ExecutionRecord}
    (h : ∀ e, ExecutionMove held e (s.executions e) (executions e)) :
    Move setting c held s { s with executions := executions } :=
  Cancelled.refl.move h

theorem createExecution_triple {row : Execution} (hrow : row.leasedBy = none) :
    Triple setting c pre (createExecution executionId row) fun _ _ => True := by
  refine Discipline.Triple.transaction (lockSlot_bind ?_ ?_)
  · intro s₀ known₀ _ _ hfree hknown₀ s _ hs
    refine ⟨Move.ofExecutions fun e => ?_, fun _ _ => trivial⟩
    by_cases he : e = executionId
    · subst he
      have hnone : s.executions e = none := by
        rw [(hknown₀ s hs).2.execution (Set.mem_union_right _ rfl)]
        exact Option.map_eq_none_iff.mp hfree
      rw [hnone, Function.update_self]
      exact .create _ (Set.mem_union_right _ rfl) hrow
    · rw [Function.update_of_ne he]
      exact .keep
  · intro s₀ used known₀ _ _ _ _
    exact wp_halt_of (by decide)

theorem updateExecution_triple {change : Execution → Option Execution}
    (hchange : ∀ e e', change e = some e' → e'.leasedBy = none ∨ e'.leasedBy = e.leasedBy) :
    Triple setting c pre (updateExecution executionId change) fun _ _ => True := by
  refine Discipline.Triple.transaction (lockRow_bind ?_ ?_)
  · intro s₀ known₀ _ _ _ _
    exact pure_commits fun s _ => Move.refl
  intro s₀ row known₀ _ _ hrow hknown₀
  obtain ⟨before, hbefore, hchanged⟩ := Option.bind_eq_some_iff.mp hrow
  refine update_bind (pure_commits fun s hs => Move.ofExecutions ?_)
  have hlock : .execution executionId ∈ (∅ : Set Lock) ∪ {.execution executionId} :=
    Set.mem_union_right _ rfl
  exact setExecution_move hlock ((hknown₀ s hs).2.execution_row hlock hbefore)
    (hchange before row hchanged)

theorem startExecution_triple {leaseExpiresAt : ℕ} :
    Triple setting c pre (startExecution executionId leaseExpiresAt) fun _ _ => True := by
  refine Discipline.Triple.transaction (receiving_bind fun key => receiving_bind fun clock =>
    lockRow_bind ?_ ?_)
  · intro s₀ known₀ _ _ _ _
    exact pure_commits fun s _ => Move.refl
  intro s₀ row known₀ _ _ hrow hknown₀
  obtain ⟨record, hrecord, hstarted⟩ := Option.bind_eq_some_iff.mp hrow
  split at hstarted
  · cases hstarted
  rename_i hnew
  obtain ⟨_, rfl⟩ := Execution.startExecution_some hstarted
  refine update_bind (pure_commits fun s hs => Move.ofExecutions fun e => ?_)
  split
  · rename_i he
    subst he
    have hlock : .execution e ∈ (∅ : Set Lock) ∪ {.execution e} := Set.mem_union_right _ rfl
    simp only [id_eq]
    rw [(hknown₀ s hs).2.execution hlock, show s₀.executions e = some record from hrecord]
    exact .lease _ key.id hlock hnew rfl
  · exact .keep

theorem renewLease_triple {leasedBy : String} {leaseExpiresAt : ℕ} :
    Triple setting c pre (renewLease executionId leasedBy leaseExpiresAt) fun _ _ => True := by
  refine receiving_bind fun clock => updateExecution_triple fun e e' h => .inr ?_
  rw [(Execution.renewLease_some h).2]

theorem pauseExecution_triple {leasedBy : String} :
    Triple setting c pre (pauseExecution executionId leasedBy) fun _ _ => True := by
  refine receiving_bind fun clock => updateExecution_triple fun e e' h => .inl ?_
  rw [(Execution.pauseExecution_some h).2]

theorem failQueuedExecution_triple {error : ExecutionError} :
    Triple setting c pre (failQueuedExecution executionId error) fun _ _ => True := by
  refine receiving_bind fun clock => updateExecution_triple fun e e' h => .inr ?_
  split at h
  · cases h
    rfl
  · cases h

theorem resumeWaitingExecution_triple :
    Triple setting c pre (resumeWaitingExecution executionId) fun _ _ => True := by
  refine updateExecution_triple fun e e' h => .inr ?_
  rw [(Execution.requeue_some h).2]

theorem completeExecution_triple {leasedBy : String} {audienceExists : Bool}
    {input : CompleteExecutionInput} :
    Triple setting c pre (completeExecution executionId leasedBy audienceExists input)
      fun _ _ => True := by
  refine receiving_bind fun clock => updateExecution_triple fun e e' h => .inr ?_
  obtain ⟨⟨_, event⟩, hcompleted, rfl⟩ := Option.map_eq_some_iff.mp h
  rw [(Execution.completeExecution_some hcompleted).2.1]

theorem createApprovalRequest_triple {question : Question} :
    Triple setting c pre (Tx.transaction (createApprovalRequest question)) fun _ _ => True := by
  refine Discipline.Triple.transaction (of_bind_pure (createApprovalRequest_bind ?_ ?_))
  · intro known₁ _
    exact pure_commits fun s _ => Move.refl
  · intro rid row held₁ known₁ hasked _ hlock hknown₁
    exact pure_commits fun s hs =>
      (asks_insertRequest hasked hlock fun s hs => (hknown₁ s hs).2).move_only hs

theorem createWorkspaceApprovalRequest_triple {workspaceId nodeId : String}
    {approverEmails : Option (List String)} {timeout : Option (ℕ × ApprovalTimeoutAction)} :
    Triple setting c pre
      (createWorkspaceApprovalRequest workspaceId executionId nodeId approverEmails timeout)
      fun _ _ => True := by
  refine select_bind fun s₀ known₀ _ _ _ => ?_
  split
  · exact ⟨rfl, rfl, fun _ _ => trivial⟩
  refine select_bind fun s₁ known₁ _ _ _ => ?_
  split
  · exact wp_halt_of (by decide)
  exact Discipline.Triple.bind createApprovalRequest_triple fun _ =>
    ⟨rfl, rfl, fun _ _ => trivial⟩

end Executions
end Linea.Consent
