import Mathlib.Algebra.Group.Nat.Defs
import Mathlib.Data.List.Basic
import Mathlib.Data.Nat.Notation

/-! Webhook deliveries: the rows, the endpoints they go to, and the queue job that sends a delivery
in at most six attempts. The world holds one job with every attempt it has begun; a worker that
stalls loses the job to another one, so that attempts may overlap. Retention, which deletes rows
after thirty days, is left out. -/
namespace Linea.Webhooks

inductive DeliveryStatus
  | pending
  | delivering
  | retrying
  | succeeded
  | failed
  deriving DecidableEq, Repr

inductive SecretVersion
  | current
  | previous
  deriving DecidableEq, Repr

structure WebhookDelivery where
  id : String
  webhookId : String
  eventId : String
  url : String
  body : String
  secretVersion : SecretVersion
  status : DeliveryStatus
  attempts : ℕ
  responseStatus : Option ℕ
  responseBody : Option String
  lastError : Option String
  nextAttemptAt : Option ℕ
  deliveredAt : Option ℕ
  failedAt : Option ℕ
  updatedAt : ℕ
  deriving DecidableEq, Repr

structure WebhookEndpoint where
  id : String
  url : String
  currentSecretEncrypted : String
  previousSecretEncrypted : Option String
  previousSecretExpiresAt : Option ℕ
  disabledAt : Option ℕ
  deriving DecidableEq, Repr

structure Store where
  deliveries : List WebhookDelivery
  endpoints : List WebhookEndpoint
  deriving DecidableEq, Repr

/-! ## The tables -/

/-- The statuses from which a delivery is begun, and that a disabled endpoint ends. -/
def unfinished (delivery : WebhookDelivery) : Bool :=
  delivery.status = .pending || delivery.status = .retrying || delivery.status = .delivering

def terminal (delivery : WebhookDelivery) : Bool :=
  delivery.status = .succeeded || delivery.status = .failed

def beginDelivery (now : ℕ) (delivery : WebhookDelivery) : WebhookDelivery :=
  { delivery with
    status := .delivering
    attempts := delivery.attempts + 1
    nextAttemptAt := none
    failedAt := none
    updatedAt := now }

def enabledEndpoint (s : Store) (webhookId : String) : Option WebhookEndpoint :=
  s.endpoints.find? fun endpoint => endpoint.id = webhookId && endpoint.disabledAt.isNone

/-- The row is written before the endpoint is looked at, and stays written when there is none. -/
def beginWebhookDelivery (s : Store) (deliveryId : String) (now : ℕ) :
    Option (WebhookDelivery × WebhookEndpoint) × Store :=
  match s.deliveries.find? fun delivery => delivery.id = deliveryId && unfinished delivery with
  | none => (none,s)
  | some delivery =>
    let begun := { s with deliveries := s.deliveries.map fun row =>
      if row.id = deliveryId && unfinished row then beginDelivery now row else row }
    ((enabledEndpoint begun delivery.webhookId).map (beginDelivery now delivery,·),begun)

/-- The guard under which an attempt writes its outcome. -/
def current (deliveryId : String) (attempt : ℕ) (delivery : WebhookDelivery) : Bool :=
  delivery.id = deliveryId && delivery.status = .delivering && delivery.attempts = attempt

def updateCurrent (s : Store) (deliveryId : String) (attempt : ℕ)
    (change : WebhookDelivery → WebhookDelivery) : Store :=
  { s with deliveries := s.deliveries.map fun delivery =>
      if current deliveryId attempt delivery then change delivery else delivery }

structure WebhookResponse where
  status : ℕ
  body : String
  deriving DecidableEq, Repr

/-- A `text` column refuses a text with U+0000, whatever row the statement is about. -/
def storable (text : String) : Bool := !text.toList.contains '\x00'

/-- Nothing comes back when the statement throws. -/
def completeWebhookDelivery (s : Store) (deliveryId : String) (attempt deliveredAt : ℕ)
    (response : WebhookResponse) : Option Store :=
  if storable response.body then
    some (updateCurrent s deliveryId attempt fun delivery => { delivery with
      status := .succeeded
      responseStatus := some response.status
      responseBody := some response.body
      lastError := none
      nextAttemptAt := none
      deliveredAt := some deliveredAt
      failedAt := none
      updatedAt := deliveredAt })
  else none

def failWebhookDelivery (s : Store) (deliveryId : String) (attempt failedAt : ℕ) (error : String)
    (response : Option WebhookResponse) (retryAt : Option ℕ) : Option Store :=
  if storable error && response.all (storable ·.body) then
    some (updateCurrent s deliveryId attempt fun delivery => { delivery with
      status := if retryAt.isSome then .retrying else .failed
      responseStatus := response.map (·.status)
      responseBody := response.map (·.body)
      lastError := some error
      nextAttemptAt := retryAt
      deliveredAt := none
      failedAt := if retryAt.isSome then none else some failedAt
      updatedAt := failedAt })
  else none

def updateWebhookEndpoint (s : Store) (webhookId url : String) : Store :=
  { s with endpoints := s.endpoints.map fun endpoint =>
      if endpoint.id = webhookId && endpoint.disabledAt.isNone then { endpoint with url }
      else endpoint }

def rotateWebhookSecret (s : Store) (webhookId currentSecretEncrypted : String)
    (previousSecretExpiresAt now : ℕ) : Store :=
  match enabledEndpoint s webhookId with
  | none => s
  | some existing =>
    if existing.previousSecretExpiresAt.any (now < ·) then s
    else
      { deliveries := s.deliveries.map fun delivery =>
          if delivery.webhookId = existing.id && delivery.secretVersion = .current &&
              unfinished delivery then
            { delivery with secretVersion := .previous, updatedAt := now }
          else delivery
        endpoints := s.endpoints.map fun endpoint =>
          if endpoint.id = existing.id then
            { endpoint with
              currentSecretEncrypted
              previousSecretEncrypted := some existing.currentSecretEncrypted
              previousSecretExpiresAt := some previousSecretExpiresAt }
          else endpoint }

def disableWebhookEndpoint (s : Store) (webhookId : String) (now : ℕ) : Store :=
  match enabledEndpoint s webhookId with
  | none => s
  | some webhook =>
    { deliveries := s.deliveries.map fun delivery =>
        if delivery.webhookId = webhook.id && unfinished delivery then
          { delivery with
            status := .failed
            failedAt := some now
            deliveredAt := none
            nextAttemptAt := none
            lastError := some "Webhook endpoint was disabled"
            updatedAt := now }
        else delivery
      endpoints := s.endpoints.map fun endpoint =>
        if endpoint.id = webhookId && endpoint.disabledAt.isNone then
          { endpoint with disabledAt := some now }
        else endpoint }

/-! ## One attempt -/

def webhookDeliveryAttempts : ℕ := 6
def webhookRetryBaseDelayMs : ℕ := 1000
def maximumRetryDelayMs : ℕ := 60000
def maximumErrorLength : ℕ := 4096

/-- The secret that a delivery is signed with. -/
def encryptedSecret (delivery : WebhookDelivery) (endpoint : WebhookEndpoint) (now : ℕ) : String :=
  match endpoint.previousSecretEncrypted, endpoint.previousSecretExpiresAt with
  | some secret, some expiresAt =>
    -- an empty text counts as none
    if delivery.secretVersion = .previous && secret ≠ "" && now < expiresAt then secret
    else endpoint.currentSecretEncrypted
  | _, _ => endpoint.currentSecretEncrypted

/-- The request that `deliverWebhook` sends. -/
structure WebhookRequest where
  url : String
  body : String
  eventId : String
  timestamp : ℕ
  signature : String
  deriving DecidableEq, Repr

/-- What `deliverWebhook` comes back with; a permanent error is a `PermanentWebhookError`. -/
inductive Outcome
  | response (response : WebhookResponse)
  | networkError (message : String)
  | permanentError (message : String)
  deriving DecidableEq, Repr

/-- The first `limit` code units of a text; half of a surrogate pair is stored as the replacement
character. -/
def sliceUnits : List Char → ℕ → List Char
  | [], _ => []
  | _ :: _, 0 => []
  | char :: chars, limit + 1 =>
    if char.toNat < 0x10000 then char :: sliceUnits chars limit
    else match limit with
      | 0 => ['\uFFFD']
      | limit + 1 => char :: sliceUnits chars limit

def slice (text : String) (limit : ℕ) : String := String.ofList (sliceUnits text.toList limit)

/-- An attempt that has been begun: the row that `beginWebhookDelivery` returned, the secret, the
time and the number of attempts that the queue had counted before it. -/
structure Attempt where
  delivery : WebhookDelivery
  secret : String
  now : ℕ
  attemptsMade : ℕ
  deriving DecidableEq, Repr

def httpError (status : ℕ) : String := "Webhook returned HTTP " ++ toString status

def retryable (status : ℕ) : Bool :=
  status = 408 || status = 425 || status = 429 || 500 ≤ status

/-- What the database says of a text it refuses. -/
def refusedText : String := "invalid byte sequence for encoding \"UTF8\": 0x00"

/-- The `catch` of `processDelivery`: whether it throws on, and the row it writes. -/
def catchError (s : Store) (attempt : Attempt) (message : String)
    (response : Option WebhookResponse) (permanent : Bool) (now : ℕ) : Bool × Store :=
  let finalAttempt : Bool := webhookDeliveryAttempts ≤ attempt.attemptsMade + 1
  let retryAt := if permanent || finalAttempt then none
    else some (now + min (webhookRetryBaseDelayMs * 2 ^ attempt.attemptsMade) maximumRetryDelayMs)
  match failWebhookDelivery s attempt.delivery.id attempt.delivery.attempts now
      (slice message maximumErrorLength) response retryAt with
  | some store => (retryAt.isSome,store)
  | none => (true,s)

/-- What an attempt does with the outcome of its request. -/
def finishAttempt (s : Store) (attempt : Attempt) (outcome : Outcome) (now : ℕ) : Bool × Store :=
  match outcome with
  | .response response =>
    if 200 ≤ response.status && response.status < 300 then
      match completeWebhookDelivery s attempt.delivery.id attempt.delivery.attempts now response with
      | some store => (false,store)
      | none => catchError s attempt refusedText (some response) false now
    else if !retryable response.status then
      match failWebhookDelivery s attempt.delivery.id attempt.delivery.attempts now
          (slice (httpError response.status) maximumErrorLength) (some response) none with
      | some store => (false,store)
      | none => catchError s attempt refusedText (some response) false now
    else catchError s attempt (httpError response.status) (some response) false now
  | .networkError message => catchError s attempt message none false now
  | .permanentError message => catchError s attempt message none true now

/-! ## The job -/

inductive AttemptPhase
  | ready
  | answered (outcome : Outcome)
  | finished
  deriving DecidableEq, Repr

/-- A job that is active belongs to the attempt with the given number in the list of the world. -/
inductive JobState
  | waiting
  | active (attempt : ℕ)
  | completed
  | failed
  deriving DecidableEq, Repr

structure World where
  store : Store
  deliveryId : String
  attemptsMade : ℕ
  job : JobState
  attempts : List (Attempt × AttemptPhase)
  sent : List (ℕ × WebhookRequest)
  deriving DecidableEq, Repr

/-- The queue counts an attempt that threw, and gives up after the last. -/
def World.threw (w : World) : World :=
  { w with
    attemptsMade := w.attemptsMade + 1
    job := if w.attemptsMade + 1 < webhookDeliveryAttempts then .waiting else .failed }

inductive Action
  | start (now : ℕ)
  | send (attempt : ℕ) (outcome : Outcome)
  | finish (attempt : ℕ) (now : ℕ)
  | updateEndpoint (webhookId url : String)
  | rotateSecret (webhookId currentSecretEncrypted : String) (previousSecretExpiresAt now : ℕ)
  | disableEndpoint (webhookId : String) (now : ℕ)
  deriving DecidableEq, Repr

section Step
variable (decryptSecret : String → Except String String)
  (signWebhook : String → ℕ → String → String → String)

/-- The request of an attempt. -/
def Attempt.request (attempt : Attempt) : WebhookRequest :=
  { url := attempt.delivery.url
    body := attempt.delivery.body
    eventId := attempt.delivery.eventId
    timestamp := attempt.now / 1000
    signature := signWebhook attempt.secret (attempt.now / 1000) attempt.delivery.eventId
      attempt.delivery.body }

/-- A worker takes the job: it begins the delivery and reads the secret. -/
def World.start (w : World) (now : ℕ) : World :=
  match beginWebhookDelivery w.store w.deliveryId now with
  | (none,store) => { w with store, job := .completed }
  | (some (delivery,endpoint),store) =>
    match decryptSecret (encryptedSecret delivery endpoint now) with
    | .error _ => { w with store }.threw
    | .ok secret =>
      { w with
        store
        job := .active w.attempts.length
        attempts := w.attempts ++ [(⟨delivery,secret,now,w.attemptsMade⟩,.ready)] }

/-- An attempt ends; the queue listens only to the one that has the job. -/
def World.finish (w : World) (i : ℕ) (attempt : Attempt) (outcome : Outcome) (now : ℕ) : World :=
  let finished := finishAttempt w.store attempt outcome now
  let ended := { w with store := finished.2, attempts := w.attempts.set i (attempt,.finished) }
  if w.job = .active i then
    if finished.1 then ended.threw else { ended with job := .completed }
  else ended

def World.step (w : World) : Action → Option World
  | .start now =>
    match w.job with
    | .completed | .failed => none
    | .waiting | .active _ => some (w.start decryptSecret now)
  | .send i outcome =>
    match w.attempts[i]? with
    | some (attempt,.ready) => some { w with
        attempts := w.attempts.set i (attempt,.answered outcome)
        sent := w.sent ++ [(i,attempt.request signWebhook)] }
    | _ => none
  | .finish i now =>
    match w.attempts[i]? with
    | some (attempt,.answered outcome) => some (w.finish i attempt outcome now)
    | _ => none
  | .updateEndpoint webhookId url =>
    some { w with store := updateWebhookEndpoint w.store webhookId url }
  | .rotateSecret webhookId secret expiresAt now =>
    some { w with store := rotateWebhookSecret w.store webhookId secret expiresAt now }
  | .disableEndpoint webhookId now =>
    some { w with store := disableWebhookEndpoint w.store webhookId now }

def World.run : World → List Action → Option World
  | w, [] => some w
  | w, action :: actions =>
    (w.step decryptSecret signWebhook action).bind (World.run · actions)

end Step

end Linea.Webhooks
