import Linea.UserStates
import Mathlib.Data.Int.Notation

/-! One client of the user SDK: its operations between their awaits, the queue of its mutations, the
promise of its state, the storage and the store of its proof keys. Storage and key store may fail
without effect. -/
namespace Linea.UserClient
open UserStates

/-- The key of the session in a stored state. -/
def sessionKey (state : StoredUserState) : Option String := state.session.map (·.proofKeyId)

/-- A request with a session. `begun` is the session of its first attempt and `revokes` the session whose
revocation it is. -/
structure Request where
  begun : Option String
  revokes : Option String
  retryNetwork : Bool
  nonceRetried : Bool
  networkRetried : Bool
  deriving DecidableEq, Repr

/-- An answer with its nonce header; `code` is that of a well-formed error. -/
structure Reply where
  dpopNonce : Option String
  status : ℕ
  code : Option String
  deriving DecidableEq, Repr

def Reply.ok (reply : Reply) : Bool := 200 ≤ reply.status ∧ reply.status ≤ 299

def isTerminalSessionCode (code : String) : Bool := code = "session_expired" ∨ code = "session_revoked"

/-- What waits for the stored state outside the queue. -/
inductive Reader where
  | complete (state : String)
  | session
  | revoke
  | request (r : Request)
  deriving DecidableEq, Repr

/-- Where an operation stands. A completion exchanges its code, creates a key, signs and sends its proof,
and stores its session or drops the key; a request is sent and may set a nonce; `clearing` waits for a
`clearSession`, with the session it was begun for and the revocation that is to follow. -/
inductive Job where
  | await (reader : Reader)
  | took (reader : Reader) (state : StoredUserState)
  | exchanging (authorization : AuthorizationState)
  | creating (authorization : AuthorizationState) (externalSubjectId : String)
  | signing (authorization : AuthorizationState) (externalSubjectId proofKeyId : String)
    (publicJwk : List (String × JwkMember))
  | storing (authorization : AuthorizationState) (session : StoredUserSession)
  | dropping (proofKeyId : String)
  | authorizing (authorization : AuthorizationState)
  | sending (r : Request) (session : StoredUserSession)
  | noncing (r : Request) (session : StoredUserSession) (reply : Reply)
  | clearing (proofKeyId begun : String) (next : Option String)

/-- `result` is that of the mutation the operation waits for. -/
structure Operation where
  job : Job
  result : Option Bool

inductive Mutation where
  | authorize (authorization : AuthorizationState)
  | save (session : StoredUserSession)
  | updateNonce (dpopNonce proofKeyId : String)
  | clearSession (proofKeyId : String)

/-- Where the first mutation of the queue stands. What is stored is acknowledged later. -/
inductive Stage where
  | waiting
  | reading
  | saving (state : StoredUserState)
  | saved (state : StoredUserState)
  | removing

inductive StatePromise where
  | unset
  | loading
  | loaded (state : StoredUserState)
  | failed

/-- `issued` records the ids of all keys, `published` those of the sessions that have been stored, and
`removalFailed` that the removal of a key has failed. -/
structure Client where
  stored : StoredUserState
  proofKeys : List String
  statePromise : StatePromise
  stateMutation : List (ℕ × Mutation)
  stage : Stage
  ops : ℕ → Option Operation
  nextOp : ℕ
  issued : List String
  published : List String
  removalFailed : Bool

namespace Client

/-- A new client over a storage whose session has the only key. -/
def create (stored : StoredUserState) : Client :=
  let keys := (sessionKey stored).toList
  ⟨stored,keys,.unset,[],.waiting,fun _ => none,0,keys,keys,false⟩

/-- `state()`: the promise is made once. -/
def demand (s : Client) : Client :=
  { s with statePromise := match s.statePromise with
    | .unset => .loading
    | promise => promise }

def setOp (i : ℕ) (op : Option Operation) (s : Client) : Client :=
  { s with ops := fun j => if j = i then op else s.ops j }

def goOn (i : ℕ) (job : Job) (s : Client) : Client := s.setOp i (some ⟨job,none⟩)

def endOp (i : ℕ) (s : Client) : Client := s.setOp i none

/-- A new operation. -/
def start (job : Job) (s : Client) : Client :=
  { s.goOn s.nextOp job with nextOp := s.nextOp + 1 }

/-- `mutateState`: the operation waits for its mutation. -/
def mutateState (i : ℕ) (job : Job) (mutation : Mutation) (s : Client) : Client :=
  { s.goOn i job with stateMutation := s.stateMutation ++ [(i,mutation)] }

def clearSession (i : ℕ) (proofKeyId begun : String) (next : Option String) (s : Client) : Client :=
  s.mutateState i (.clearing proofKeyId begun next) (.clearSession proofKeyId)

/-- The end of a request, with the `finally` of a revocation. -/
def endRequest (i : ℕ) (r : Request) (s : Client) : Client :=
  match r.revokes with
  | some proofKeyId => s.clearSession i proofKeyId proofKeyId none
  | none => s.endOp i

def tryAgain (i : ℕ) (r : Request) (s : Client) : Client := (s.goOn i (.await (.request r))).demand

def retriesNonce (r : Request) (session : StoredUserSession) (reply : Reply) : Bool :=
  reply.dpopNonce ≠ none ∧ reply.dpopNonce ≠ some session.dpopNonce ∧ reply.status = 401 ∧
    r.nonceRetried = false

/-- What a request does with its answer once the nonce is set. -/
def afterNonce (i : ℕ) (r : Request) (session : StoredUserSession) (reply : Reply) (s : Client) :
    Client :=
  if retriesNonce r session reply then s.tryAgain i { r with nonceRetried := true }
  else if reply.ok then s.endRequest i r
  else
    match reply.code with
    | some code =>
      if isTerminalSessionCode code then
        s.clearSession i session.proofKeyId (r.begun.getD session.proofKeyId) r.revokes
      else s.endRequest i r
    | none => s.endRequest i r

/-- An answer; an empty nonce is not set. -/
def reply (i : ℕ) (r : Request) (session : StoredUserSession) (reply : Reply) (s : Client) : Client :=
  match reply.dpopNonce with
  | some dpopNonce =>
    if dpopNonce ≠ "" ∧ dpopNonce ≠ session.dpopNonce then
      s.mutateState i (.noncing r session reply) (.updateNonce dpopNonce session.proofKeyId)
    else s.afterNonce i r session reply
  | none => s.afterNonce i r session reply

/-- `requireSession` in a request. -/
def attempt (i : ℕ) (r : Request) (expired : StoredUserSession → Bool) (state : StoredUserState)
    (s : Client) : Client :=
  match state.session with
  | none => s.endRequest i r
  | some session =>
    let begun := r.begun.getD session.proofKeyId
    if expired session then s.clearSession i session.proofKeyId begun r.revokes
    else s.goOn i (.sending { r with begun := some begun } session)

/-- What an operation does with the state it has waited for. -/
def resume (i : ℕ) (reader : Reader) (expired : StoredUserSession → Bool) (state : StoredUserState)
    (s : Client) : Client :=
  match reader with
  | .complete input =>
    match state.authorization with
    | some authorization =>
      if authorization.state = input then s.goOn i (.exchanging authorization) else s.endOp i
    | none => s.endOp i
  | .session =>
    match state.session with
    | some session =>
      if expired session then s.clearSession i session.proofKeyId session.proofKeyId none
      else s.endOp i
    | none => s.endOp i
  | .revoke =>
    match state.session with
    | some session =>
      if expired session then s.clearSession i session.proofKeyId session.proofKeyId none
      else s.tryAgain i ⟨some session.proofKeyId,some session.proofKeyId,false,false,false⟩
    | none => s.endOp i
  | .request r => s.attempt i r expired state

/-- The state could not be loaded. -/
def throw (i : ℕ) (reader : Reader) (s : Client) : Client :=
  match reader with
  | .request r => s.endRequest i r
  | _ => s.endOp i

/-- A key is created. -/
def created (i : ℕ) (authorization : AuthorizationState) (externalSubjectId proofKeyId : String)
    (publicJwk : List (String × JwkMember)) (s : Client) : Client :=
  goOn i (.signing authorization externalSubjectId proofKeyId publicJwk)
    { s with proofKeys := s.proofKeys ++ [proofKeyId], issued := s.issued ++ [proofKeyId] }

def removeKey (proofKeyId : String) (s : Client) : Client :=
  { s with proofKeys := s.proofKeys.filter (· ≠ proofKeyId) }

/-- What an operation does with the result of its mutation. -/
def settled (i : ℕ) (job : Job) (ok : Bool) (s : Client) : Option Client :=
  match job with
  | .authorizing _ => some (s.endOp i)
  | .storing _ session => some (if ok then s.endOp i else s.goOn i (.dropping session.proofKeyId))
  | .noncing r session reply =>
    some (if ok then s.afterNonce i r session reply else s.endRequest i r)
  | .clearing _ _ next =>
    some (match next with
      | some proofKeyId => s.clearSession i proofKeyId proofKeyId none
      | none => s.endOp i)
  | _ => none

/-- An operation that waits for the network or the key store throws. -/
def fails (i : ℕ) (job : Job) (network : Bool) (s : Client) : Option Client :=
  match job with
  | .exchanging _ | .creating _ _ => some (s.endOp i)
  | .signing _ _ proofKeyId _ => some (s.goOn i (.dropping proofKeyId))
  | .sending r _ =>
    some (if r.retryNetwork ∧ r.networkRetried = false ∧ network then
      s.tryAgain i { r with networkRetried := true } else s.endRequest i r)
  | _ => none

/-! ### The queue -/

/-- The first mutation has ended. -/
def finish (i : ℕ) (ok : Bool) (s : Client) : Client :=
  { s with
    stateMutation := s.stateMutation.tail
    stage := .waiting
    ops := fun j => if j = i then (s.ops i).map fun op => ⟨op.job,some ok⟩ else s.ops j }

/-- What a mutation writes over the state it has read. -/
def change (state : StoredUserState) : Mutation → Option StoredUserState
  | .authorize authorization => some { state with authorization := some authorization }
  | .save session => some ⟨none,some session⟩
  | .updateNonce dpopNonce proofKeyId =>
    match state.session with
    | some session =>
      if session.proofKeyId = proofKeyId then
        some { state with session := some { session with dpopNonce := dpopNonce } }
      else none
    | none => none
  | .clearSession proofKeyId =>
    if sessionKey state = some proofKeyId then some { state with session := none } else none

/-- A mutation goes on with the state: it saves a change, removes a key, or has nothing to do. -/
def proceed (i : ℕ) (mutation : Mutation) (state : StoredUserState) (s : Client) : Client :=
  match change state mutation, mutation with
  | some next, _ => { s with stage := .saving next }
  | none, .clearSession _ => { s with stage := .removing }
  | none, _ => s.finish i true

/-- The first mutation begins; a `save` does not read the state. -/
def enter (mutation : Mutation) (s : Client) : Client :=
  match mutation with
  | .save session => { s with stage := .saving ⟨none,some session⟩ }
  | _ => { s.demand with stage := .reading }

def read (i : ℕ) (mutation : Mutation) (s : Client) : Option Client :=
  match s.statePromise with
  | .loaded state => some (s.proceed i mutation state)
  | .failed => some (s.finish i false)
  | _ => none

def store (state : StoredUserState) (s : Client) : Client :=
  { s with
    stored := state
    stage := .saved state
    published := s.published ++ (sessionKey state).toList }

/-- The reply of the storage. -/
def acknowledge (i : ℕ) (mutation : Mutation) (state : StoredUserState) (s : Client) : Client :=
  match mutation with
  | .clearSession _ => { s with statePromise := .loaded state, stage := .removing }
  | _ => finish i true { s with statePromise := .loaded state }

end Client

/-- Calls, the moves of the operations and those of the queue. `startAuthorization` is the answer of its
request; what comes before it touches no state. -/
inductive Act where
  | startAuthorization (authorization : AuthorizationState)
  | completeAuthorization (state : String)
  | session
  | revoke
  | request (retryNetwork : Bool)
  | load
  | loadFails
  | take (op : ℕ)
  | resume (op : ℕ) (now : ℤ)
  | exchanged (op : ℕ) (externalSubjectId : String)
  | created (op : ℕ) (proofKeyId : String) (publicJwk : List (String × JwkMember))
  | credential (op : ℕ) (accessToken dpopNonce expiresAt : String)
  | fails (op : ℕ) (network : Bool)
  | dropped (op : ℕ) (ok : Bool)
  | replied (op : ℕ) (reply : Reply)
  | settled (op : ℕ)
  | enter
  | read
  | store
  | storeFails
  | acknowledge
  | remove
  | removeFails

variable (dateParse : String → ℤ)

/-- `Date.parse(session.expiresAt) <= Date.now()` -/
def expiredAt (now : ℤ) (session : StoredUserSession) : Bool := dateParse session.expiresAt ≤ now

/-- `none` when the act is not possible. -/
def step (s : Client) : Act → Option Client
  | .startAuthorization authorization =>
    some ((s.start (.authorizing authorization)).mutateState s.nextOp (.authorizing authorization)
      (.authorize authorization))
  | .completeAuthorization state => some (s.start (.await (.complete state))).demand
  | .session => some (s.start (.await .session)).demand
  | .revoke => some (s.start (.await .revoke)).demand
  | .request retryNetwork =>
    some (s.start (.await (.request ⟨none,none,retryNetwork,false,false⟩))).demand
  | .load =>
    match s.statePromise with
    | .loading => some { s with statePromise := .loaded s.stored }
    | _ => none
  | .loadFails =>
    match s.statePromise with
    | .loading => some { s with statePromise := .failed }
    | _ => none
  | .take i =>
    match s.ops i, s.statePromise with
    | some ⟨.await reader,none⟩, .loaded state => some (s.goOn i (.took reader state))
    | some ⟨.await reader,none⟩, .failed => some (s.throw i reader)
    | _, _ => none
  | .resume i now =>
    match s.ops i with
    | some ⟨.took reader state,none⟩ => some (s.resume i reader (expiredAt dateParse now) state)
    | _ => none
  | .exchanged i externalSubjectId =>
    match s.ops i with
    | some ⟨.exchanging authorization,none⟩ =>
      some (s.goOn i (.creating authorization externalSubjectId))
    | _ => none
  | .created i proofKeyId publicJwk =>
    match s.ops i with
    | some ⟨.creating authorization externalSubjectId,none⟩ =>
      if proofKeyId ∈ s.issued then none
      else some (s.created i authorization externalSubjectId proofKeyId publicJwk)
    | _ => none
  | .credential i accessToken dpopNonce expiresAt =>
    match s.ops i with
    | some ⟨.signing authorization externalSubjectId proofKeyId publicJwk,none⟩ =>
      let session := ⟨accessToken,dpopNonce,expiresAt,externalSubjectId,proofKeyId,publicJwk⟩
      some (s.mutateState i (.storing authorization session) (.save session))
    | _ => none
  | .fails i network =>
    match s.ops i with
    | some ⟨job,none⟩ => s.fails i job network
    | _ => none
  | .dropped i ok =>
    match s.ops i with
    | some ⟨.dropping proofKeyId,none⟩ =>
      some (if ok then (s.removeKey proofKeyId).endOp i
        else { s.endOp i with removalFailed := true })
    | _ => none
  | .replied i reply =>
    match s.ops i with
    | some ⟨.sending r session,none⟩ => some (s.reply i r session reply)
    | _ => none
  | .settled i =>
    match s.ops i with
    | some ⟨job,some ok⟩ => s.settled i job ok
    | _ => none
  | .enter =>
    match s.stateMutation, s.stage with
    | (_,mutation) :: _, .waiting => some (s.enter mutation)
    | _, _ => none
  | .read =>
    match s.stateMutation, s.stage with
    | (i,mutation) :: _, .reading => s.read i mutation
    | _, _ => none
  | .store =>
    match s.stage with
    | .saving state => some (s.store state)
    | _ => none
  | .storeFails =>
    match s.stateMutation, s.stage with
    | (i,_) :: _, .saving _ => some (s.finish i false)
    | _, _ => none
  | .acknowledge =>
    match s.stateMutation, s.stage with
    | (i,mutation) :: _, .saved state => some (s.acknowledge i mutation state)
    | _, _ => none
  | .remove =>
    match s.stateMutation, s.stage with
    | (i,.clearSession proofKeyId) :: _, .removing => some ((s.removeKey proofKeyId).finish i true)
    | _, _ => none
  | .removeFails =>
    match s.stateMutation, s.stage with
    | (i,.clearSession _) :: _, .removing => some { s.finish i false with removalFailed := true }
    | _, _ => none

end Linea.UserClient
