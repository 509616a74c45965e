import Linea.Runs
import Mathlib.Data.List.Dedup
import Mathlib.Data.List.Sort

/-! Refreshing the credential of a delegated connection: callers in the platform API and in the
connector gateway, each with its reads, its token request and its conditional write. -/
namespace Linea.CredentialRefresh

inductive Provider
  | google
  | github
deriving DecidableEq

inductive ConnectionStatus
  | active
  | reauthorizationRequired
  | revoked
deriving DecidableEq

structure Credential where
  accountId : String
  accessToken : String
  refreshToken : Option String
  expiresAt : Option ℤ
  grantedScopes : List String
deriving DecidableEq

/-- The row; `credential` is what `credentialEncrypted` holds. -/
structure Connection where
  provider : Provider
  status : ConnectionStatus
  credential : Option Credential
  credentialVersion : ℕ
  scopes : List String
deriving DecidableEq

section Rows

/-- The update finds the row active and at the version that the caller has read, or does nothing. -/
def Connection.rotateConnectionCredential (expectedCredentialVersion : ℕ) (credential : Credential)
    (row : Connection) : Option Connection :=
  if row.status = .active ∧ row.credentialVersion = expectedCredentialVersion then
    some { row with
      credential := some credential
      credentialVersion := row.credentialVersion + 1 }
  else none

def Connection.requireConnectionReauthorization (expectedCredentialVersion : ℕ)
    (row : Connection) : Option Connection :=
  if row.status = .active ∧ row.credentialVersion = expectedCredentialVersion then
    some { row with
      status := .reauthorizationRequired
      credential := none
      credentialVersion := row.credentialVersion + 1 }
  else none

end Rows

section Adapters

/-- `scope` is split already. -/
structure Token where
  accessToken : String
  refreshToken : Option String
  expiresIn : Option ℤ
  scope : Option (List String)
deriving DecidableEq

/-- JSON of the shapes that the adapters tell apart. -/
inductive Body
  | token (token : Token)
  | error (code : String)
  | other
deriving DecidableEq

/-- `body` is there when it can be read as JSON. -/
structure Response where
  ok : Bool
  body : Option Body
deriving DecidableEq

/-- What a call of `refreshCredential` comes to: it returns, throws a
`ConnectionProviderInvalidGrantError` (`GoogleRefreshInvalidGrantError`), or throws another
error. -/
inductive Refreshed
  | credential (credential : Credential)
  | invalidGrant
  | failed

def normalized (scopes : List String) : List String :=
  scopes.dedup.insertionSort (· ≤ ·)

/-- `tokenResponseSchema` of the Google adapters. -/
def googleToken : Body → Option Token
  | .token token =>
    if token.expiresIn.any fun seconds => 0 < seconds && seconds ≤ 86400 then some token else none
  | _ => none

/-- `GoogleOAuthProvider.refreshCredential`, and `refreshGoogleCredential` of the gateway. `answer`
is `none` when the request times out or the connection breaks. -/
def refreshGoogleCredential (current : Credential) (answer : Option Response) (now : ℤ) :
    Refreshed :=
  match answer.bind fun response => response.body.map (response.ok,·) with
  | none => .failed
  | some (false,body) => if body = .error "invalid_grant" then .invalidGrant else .failed
  | some (true,body) =>
    match googleToken body with
    | none => .failed
    | some token => .credential { current with
        accessToken := token.accessToken
        refreshToken := token.refreshToken.orElse fun _ => current.refreshToken
        expiresAt := token.expiresIn.map fun seconds => now + seconds * 1000
        grantedScopes := (token.scope.map normalized).getD current.grantedScopes }

/-- `tokenResponseSchema` of the GitHub adapter. -/
def githubToken : Body → Option Token
  | .token token => if token.scope.isSome then some token else none
  | _ => none

/-- `tokenRequest` of the GitHub adapter; where it gives no token it throws a
`ConnectionProviderInvalidGrantError`. -/
def tokenRequest (answer : Option Response) : Option Token :=
  answer.bind fun response => if response.ok then response.body.bind githubToken else none

def requireScopes (granted requested : List String) : Bool :=
  normalized granted = normalized requested

/-- The end of the GitHub adapter's `refreshCredential`, with the account that `githubAccount` has
found. -/
def identified (current : Credential) (token : Token) (now : ℤ) : Option String → Refreshed
  | none => .failed
  | some accountId =>
    if accountId ≠ current.accountId then .invalidGrant
    else .credential { current with
      accessToken := token.accessToken
      refreshToken := token.refreshToken.orElse fun _ => current.refreshToken
      expiresAt := token.expiresIn.map fun seconds => now + seconds * 1000
      grantedScopes := normalized (token.scope.getD []) }

end Adapters

section Callers

/-- `ConnectionCredentialsService.resolve` or the gateway's `resolveCredential`. -/
inductive Via
  | resolve
  | gateway
deriving DecidableEq

/-- What the provider's answer says, for the record: it has granted what was asked for, or less than
that or nothing for a refresh token that was the newest or not; or the request has failed otherwise.
`missing` and `superseded` are refusals without a request. -/
inductive Cause
  | granted
  | narrowed (newest : Bool)
  | refused (newest : Bool)
  | transient
  | missing
  | superseded
deriving DecidableEq

/-- A caller between two of its statements, with the row that it has read. -/
inductive Phase
  | idle
  | asking (via : Via) (read : Connection) (current : Credential) (refreshToken : String)
  | discovering (via : Via) (read : Connection) (current : Credential) (token : Token)
      (cause : Cause)
  | settling (via : Via) (read : Connection) (outcome : Refreshed) (cause : Cause)
  | reloading (via : Via) (read : Connection)
  | ended (credential : Option Credential)

/-- A change of the row, recorded with its cause. -/
inductive Change
  | rotated (credential : Credential) (cause : Cause)
  | gaveUp (cause : Cause)

/-- `newest` is the refresh token that the provider has issued last. -/
structure World where
  connection : Connection
  newest : String
  callers : ℕ → Phase
  changes : List Change

/-- `token` comes with what the provider issues, which the answer may or may not carry. -/
inductive Act
  | read (caller : ℕ) (via : Via) (now : ℤ)
  | token (caller : ℕ) (issued : Option Token) (answer : Option Response) (now : ℤ)
  | account (caller : ℕ) (accountId : Option String) (now : ℤ)
  | settle (caller : ℕ)
  | reload (caller : ℕ) (now : ℤ)

def refreshMargin : Via → Provider → ℤ
  | .gateway,.github => 0
  | _,_ => 60000

/-- A caller looks at a row that it has loaded: it returns the credential, throws, or refreshes. -/
def look (via : Via) (now : ℤ) (row : Connection) : Phase :=
  match row.credential with
  | none => .ended none
  | some current =>
    if row.status ≠ .active then .ended none
    else if current.expiresAt.all fun at' => now + refreshMargin via row.provider < at' then
      .ended (some current)
    else match via,row.provider,current.refreshToken with
      | .gateway,.github,_ => .ended none
      | .gateway,.google,none => .ended none
      | .resolve,_,none => .settling .resolve row .invalidGrant .missing
      | _,_,some refreshToken => .asking via row current refreshToken

/-- The provider's word that a refresh token is not valid any more. GitHub has a code of its own for
it, with a successful status. -/
def Response.refuses (response : Response) : Provider → Bool
  | .google => response.ok = false && response.body = some (.error "invalid_grant")
  | .github => response.body = some (.error "invalid_grant") ||
      response.body = some (.error "bad_refresh_token")

def refuses (answer : Option Response) (provider : Provider) : Bool :=
  answer.any (·.refuses provider)

/-- The token that an adapter takes from an answer. -/
def accepted (answer : Option Response) : Provider → Option Token
  | .google => answer.bind fun response =>
    if response.ok then response.body.bind googleToken else none
  | .github => tokenRequest answer

/-- The scopes that a refresh has to grant again. -/
def expectedScopes (read : Connection) (current : Credential) : List String :=
  match read.provider with
  | .google => read.scopes
  | .github => current.grantedScopes ++ read.scopes

def grantedBy (current : Credential) (token : Token) : List String :=
  token.scope.getD current.grantedScopes

/-- The answer grants less than what was asked for. -/
def narrows (read : Connection) (current : Credential) (answer : Option Response) : Bool :=
  (accepted answer read.provider).any fun token =>
    (expectedScopes read current).any (· ∉ grantedBy current token)

def causeOf (newest : Bool) (read : Connection) (current : Credential)
    (answer : Option Response) : Cause :=
  if refuses answer read.provider then .refused newest
  else if narrows read current answer then .narrowed newest
  else if (accepted answer read.provider).isSome then .granted
  else .transient

/-- The caller after its token request. -/
def answered (via : Via) (read : Connection) (current : Credential) (answer : Option Response)
    (now : ℤ) (cause : Cause) : Phase :=
  match read.provider with
  | .google => .settling via read (refreshGoogleCredential current answer now) cause
  | .github =>
    match tokenRequest answer with
    | none => .settling via read .invalidGrant cause
    | some token =>
      if requireScopes (token.scope.getD []) current.grantedScopes then
        .discovering via read current token cause
      else .settling via read .invalidGrant cause

namespace World

def become (caller : ℕ) (phase : Phase) (w : World) : World :=
  { w with callers := Function.update w.callers caller phase }

/-- The caller requires reauthorization, unless the row has moved on, and throws. -/
def giveUp (caller : ℕ) (read : Connection) (cause : Cause) (w : World) : World :=
  match w.connection.requireConnectionReauthorization read.credentialVersion with
  | none => w.become caller (.ended none)
  | some row => { w.become caller (.ended none) with
      connection := row
      changes := w.changes ++ [.gaveUp cause] }

def settle (caller : ℕ) (via : Via) (read : Connection) (cause : Cause) (w : World) :
    Refreshed → World
  | .failed => w.become caller (.ended none)
  | .invalidGrant => w.giveUp caller read cause
  | .credential refreshed =>
    if read.scopes.any (· ∉ refreshed.grantedScopes) then w.giveUp caller read cause
    else match w.connection.rotateConnectionCredential read.credentialVersion refreshed with
      | none => w.become caller (.reloading via read)
      | some row => { w.become caller (.ended (some refreshed)) with
          connection := row
          changes := w.changes ++ [.rotated refreshed cause] }

/-- The row after a rotation that has come too late. The gateway starts again with it. -/
def reload (caller : ℕ) (read : Connection) (now : ℤ) (w : World) : Via → World
  | .gateway => w.become caller (look .gateway now w.connection)
  | .resolve =>
    match w.connection.credential with
    | none => w.become caller (.settling .resolve read .invalidGrant .superseded)
    | some credential =>
      if w.connection.status ≠ .active then
        w.become caller (.settling .resolve read .invalidGrant .superseded)
      else w.become caller (.ended (some credential))

/-- `none` when the act is not possible. -/
def step (w : World) : Act → Option World
  | .read caller via now =>
    match w.callers caller with
    | .idle => some (w.become caller (look via now w.connection))
    | _ => none
  | .token caller issued answer now =>
    match w.callers caller with
    | .asking via read current refreshToken =>
      let cause := causeOf (decide (refreshToken = w.newest)) read current answer
      some { w.become caller (answered via read current answer now cause) with
        newest := (issued.bind (·.refreshToken)).getD w.newest }
    | _ => none
  | .account caller accountId now =>
    match w.callers caller with
    | .discovering via read current token cause =>
      some (w.become caller (.settling via read (identified current token now accountId) cause))
    | _ => none
  | .settle caller =>
    match w.callers caller with
    | .settling via read outcome cause => some (w.settle caller via read cause outcome)
    | _ => none
  | .reload caller now =>
    match w.callers caller with
    | .reloading via read => some (w.reload caller read now via)
    | _ => none

/-- An active connection whose credential is the newest, and callers that have not begun. -/
structure Fresh (w : World) : Prop where
  active : w.connection.status = .active
  credential : ∃ credential, w.connection.credential = some credential ∧
    credential.refreshToken = some w.newest
  idle : ∀ caller, w.callers caller = .idle
  changes : w.changes = []

end World

/-- What a provider answers as documented: a token that arrives has been issued, a refusal issues
none, a refresh adds no scope, and a token is for the account of the refresh token. -/
def Act.genuine (w : World) : Act → Bool
  | .token caller issued answer _ =>
    match w.callers caller with
    | .asking _ row current _ =>
      (!refuses answer row.provider || issued.isNone) &&
        (accepted answer row.provider).all fun token => issued = some token &&
          (grantedBy current token).all (· ∈ current.grantedScopes)
    | _ => true
  | .account caller accountId _ =>
    match w.callers caller with
    | .discovering _ _ current _ _ => accountId.all (· = current.accountId)
    | _ => true
  | _ => true

end Callers
end Linea.CredentialRefresh
