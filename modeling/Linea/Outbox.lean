import Linea.Delivery
import Linea.Webhooks

/-! The outbox: messages written with the rows they announce, and the dispatchers that claim them,
hand them to a queue and mark them published. Claim, hand-over, mark and failure are transactions
of their own, so that a claim can expire and be taken over between any two of them. Columns are in
microseconds, the dates of a caller in milliseconds. -/
namespace Linea.Outbox
open Linea.Delivery (OutboxMessageStatus)

inductive OutboxMessageKind
  | workflowExecution
  | publicEvent
  deriving DecidableEq, Repr

structure OutboxMessage where
  id : String
  kind : OutboxMessageKind
  payload : List (String × Value)
  status : OutboxMessageStatus
  attempts : ℕ
  availableAt : ℕ
  claimedAt : Option ℕ
  claimExpiresAt : Option ℕ
  claimedBy : Option String
  publishedAt : Option ℕ
  failedAt : Option ℕ
  lastError : Option String

/-- A date as a column holds it. -/
def column (date : ℕ) : ℕ := date * 1000

/-- A message as it is inserted. -/
def createMessage (id : String) (kind : OutboxMessageKind) (payload : List (String × Value))
    (availableAt : ℕ) : OutboxMessage :=
  { id, kind, payload, status := .pending, attempts := 0, availableAt, claimedAt := none
    claimExpiresAt := none, claimedBy := none, publishedAt := none, failedAt := none
    lastError := none }

/-- The execution id of a payload; a text that is empty counts as none. -/
def executionId (payload : List (String × Value)) : Option String :=
  match Value.field payload "executionId" with
  | .string executionId => if executionId = "" then none else some executionId
  | _ => none

/-! ## The table -/

structure ClaimInput where
  claimedBy : String
  now : ℕ
  claimExpiresAt : ℕ
  deriving DecidableEq, Repr

/-- The availability is compared to the millisecond, the end of a claim as it is. -/
def claimable (kind : OutboxMessageKind) (now : ℕ) (message : OutboxMessage) : Bool :=
  message.kind = kind &&
    ((message.status = .pending && message.availableAt / 1000 ≤ now) ||
      (message.status = .publishing && message.claimExpiresAt.any (· ≤ column now)))

/-- The order `availableAt, id`. -/
def dueBefore (first second : OutboxMessage) : Bool :=
  first.availableAt < second.availableAt ||
    (first.availableAt = second.availableAt && first.id ≤ second.id)

def claimed (input : ClaimInput) (message : OutboxMessage) : OutboxMessage :=
  { message with
    status := .publishing
    attempts := message.attempts + 1
    claimedAt := some (column input.now)
    claimExpiresAt := some (column input.claimExpiresAt)
    claimedBy := some input.claimedBy
    publishedAt := none
    failedAt := none }

/-- The first claimable message that no other transaction has locked; `locked` are the rows passed
over. -/
def claimMessage (kind : OutboxMessageKind) (messages : List OutboxMessage) (input : ClaimInput)
    (locked : List String) : Option OutboxMessage × List OutboxMessage :=
  let candidates := messages.filter fun message =>
    claimable kind input.now message && message.id ∉ locked
  match candidates.insertionSort (fun first second => dueBefore first second = true) with
  | [] => (none,messages)
  | candidate :: _ => (some (claimed input candidate),messages.map fun message =>
      if message.id = candidate.id then claimed input message else message)

def claimWorkflowExecutionMessage :
    List OutboxMessage → ClaimInput → List String → Option OutboxMessage × List OutboxMessage :=
  claimMessage .workflowExecution

def claimPublicEventMessage :
    List OutboxMessage → ClaimInput → List String → Option OutboxMessage × List OutboxMessage :=
  claimMessage .publicEvent

/-- The guard under which a claimant writes. -/
def heldBy (messageId claimedBy : String) (message : OutboxMessage) : Bool :=
  message.id = messageId && message.status = .publishing && message.claimedBy = some claimedBy

/-- Whether a row met the guard, and the table after the update. -/
def updateHeld (messages : List OutboxMessage) (messageId claimedBy : String)
    (change : OutboxMessage → OutboxMessage) : Bool × List OutboxMessage :=
  (messages.any (heldBy messageId claimedBy),messages.map fun message =>
    if heldBy messageId claimedBy message then change message else message)

def published (publishedAt : ℕ) (message : OutboxMessage) : OutboxMessage :=
  { message with
    status := .published
    claimedAt := none
    claimExpiresAt := none
    claimedBy := none
    publishedAt := some (column publishedAt)
    lastError := none }

def markOutboxMessagePublished (messages : List OutboxMessage) (messageId claimedBy : String)
    (publishedAt : ℕ) : Bool × List OutboxMessage :=
  updateHeld messages messageId claimedBy (published publishedAt)

structure FailureInput where
  messageId : String
  claimedBy : String
  error : String
  failedAt : ℕ
  retryAt : ℕ
  terminal : Bool
  deriving DecidableEq, Repr

def failed (input : FailureInput) (message : OutboxMessage) : OutboxMessage :=
  { message with
    status := if input.terminal then .failed else .pending
    availableAt := column (if input.terminal then input.failedAt else input.retryAt)
    claimedAt := none
    claimExpiresAt := none
    claimedBy := none
    failedAt := if input.terminal then some (column input.failedAt) else none
    lastError := some input.error }

def recordOutboxMessageFailure (messages : List OutboxMessage) (input : FailureInput) :
    Bool × List OutboxMessage :=
  updateHeld messages input.messageId input.claimedBy (failed input)

/-! ## The dispatchers -/

def claimLeaseMs : ℕ := 30000
def maximumErrorLength : ℕ := 4096

/-- Where a dispatcher stands between two statements. The message is the row as it was claimed. -/
inductive Work
  | idle
  | second (input : ClaimInput) (kind : OutboxMessageKind)
  | claimed (message : OutboxMessage)
  | handedOver (message : OutboxMessage)
  | failing (message : OutboxMessage) (error : String) (invalidEvent : Bool)

structure Dispatcher where
  claimPublicEventNext : Bool
  work : Work

/-- `jobs` are the jobs that were ever added to the workflow queue, by execution and message. -/
structure World where
  messages : List OutboxMessage
  dispatchers : String → Option Dispatcher
  jobs : List (String × String)

def World.empty : World := ⟨[],fun _ => none,[]⟩

/-- What a queue answers. A call can fail although the job is added late. -/
inductive QueueAnswer
  | added
  | refused (error : String)
  | late (error : String)
  deriving DecidableEq, Repr

/-- How `prepareWebhookDeliveries` and the webhook queue end for a public event. -/
inductive EventAnswer
  | enqueued
  | invalidEvent (error : String)
  | refused (error : String)
  deriving DecidableEq, Repr

inductive Action
  | insert (id : String) (kind : OutboxMessageKind) (payload : List (String × Value))
      (availableAt : ℕ)
  | boot (dispatcher : String)
  | crash (dispatcher : String)
  | claimFirst (dispatcher : String) (now : ℕ) (locked : List String)
  | claimSecond (dispatcher : String) (locked : List String)
  | enqueue (dispatcher : String) (answer : QueueAnswer)
  | prepare (dispatcher : String) (answer : EventAnswer)
  | markPublished (dispatcher : String) (publishedAt : ℕ)
  | recordFailure (dispatcher : String) (failedAt : ℕ)
  | claimLost (dispatcher : String) (now : ℕ) (locked : List String)
  | markLost (dispatcher : String) (error : String) (publishedAt : Option ℕ)
  | recordLost (dispatcher : String) (failedAt : Option ℕ)

def World.setWork (w : World) (dispatcher : String) (state : Dispatcher) (work : Work) : World :=
  { w with dispatchers := Function.update w.dispatchers dispatcher (some { state with work }) }

lemma World.setWork_self (w : World) (dispatcher : String) (state : Dispatcher) (work : Work) :
    (w.setWork dispatcher state work).dispatchers dispatcher = some { state with work } :=
  Function.update_self ..

lemma World.setWork_other (w : World) {dispatcher other : String} (h : other ≠ dispatcher)
    (state : Dispatcher) (work : Work) :
    (w.setWork dispatcher state work).dispatchers other = w.dispatchers other :=
  Function.update_of_ne h ..

def otherKind : OutboxMessageKind → OutboxMessageKind
  | .workflowExecution => .publicEvent
  | .publicEvent => .workflowExecution

def firstKind (state : Dispatcher) : OutboxMessageKind :=
  if state.claimPublicEventNext then .publicEvent else .workflowExecution

/-- What recording a failure is called with. -/
def failureInput (dispatcher : String) (message : OutboxMessage) (error : String)
    (invalidEvent : Bool) (failedAt : ℕ) : FailureInput :=
  { messageId := message.id
    claimedBy := dispatcher
    error := Webhooks.slice error maximumErrorLength
    failedAt
    retryAt := failedAt + Delivery.retryDelay message.attempts
    terminal := (message.kind = .workflowExecution && (executionId message.payload).isNone) ||
      (message.kind = .publicEvent && invalidEvent) }

/-- The statements of `poll`, `claim` and `dispatch`. The actions that end in `Lost` are statements
whose connection is lost, for the caller an exception, whether or not the server has run them. -/
def World.step (w : World) : Action → Option World
  | .insert id kind payload availableAt =>
    if w.messages.any (·.id = id) then none
    else some { w with messages := w.messages ++ [createMessage id kind payload availableAt] }
  | .boot dispatcher =>
    match w.dispatchers dispatcher with
    | some _ => none
    | none => some { w with
        dispatchers := Function.update w.dispatchers dispatcher (some ⟨false,.idle⟩) }
  | .crash dispatcher =>
    some { w with dispatchers := Function.update w.dispatchers dispatcher none }
  | .claimFirst dispatcher now locked =>
    match w.dispatchers dispatcher with
    | some ⟨next,.idle⟩ =>
      let input : ClaimInput := ⟨dispatcher,now,now + claimLeaseMs⟩
      let kind := firstKind ⟨next,.idle⟩
      match claimMessage kind w.messages input locked with
      | (some message,messages) =>
        some ({ w with messages }.setWork dispatcher ⟨!next,.idle⟩ (.claimed message))
      | (none,_) => some (w.setWork dispatcher ⟨!next,.idle⟩ (.second input (otherKind kind)))
    | _ => none
  | .claimSecond dispatcher locked =>
    match w.dispatchers dispatcher with
    | some ⟨next,.second input kind⟩ =>
      match claimMessage kind w.messages input locked with
      | (some message,messages) =>
        some ({ w with messages }.setWork dispatcher ⟨next,.idle⟩ (.claimed message))
      | (none,_) => some (w.setWork dispatcher ⟨next,.idle⟩ .idle)
    | _ => none
  | .enqueue dispatcher answer =>
    match w.dispatchers dispatcher with
    | some ⟨next,.claimed message⟩ =>
      if message.kind ≠ .workflowExecution then none
      else match executionId message.payload with
        | none => some (w.setWork dispatcher ⟨next,.idle⟩
            (.failing message "Workflow execution outbox payload has no executionId" false))
        | some executionId =>
          match answer with
          | .added => some ({ w with jobs := w.jobs ++ [(executionId,message.id)] }.setWork
              dispatcher ⟨next,.idle⟩ (.handedOver message))
          | .refused error => some (w.setWork dispatcher ⟨next,.idle⟩ (.failing message error false))
          | .late error => some ({ w with jobs := w.jobs ++ [(executionId,message.id)] }.setWork
              dispatcher ⟨next,.idle⟩ (.failing message error false))
    | _ => none
  | .prepare dispatcher answer =>
    match w.dispatchers dispatcher with
    | some ⟨next,.claimed message⟩ =>
      if message.kind ≠ .publicEvent then none
      else match answer with
        | .enqueued => some (w.setWork dispatcher ⟨next,.idle⟩ (.handedOver message))
        | .invalidEvent error => some (w.setWork dispatcher ⟨next,.idle⟩ (.failing message error true))
        | .refused error => some (w.setWork dispatcher ⟨next,.idle⟩ (.failing message error false))
    | _ => none
  | .markPublished dispatcher publishedAt =>
    match w.dispatchers dispatcher with
    | some ⟨next,.handedOver message⟩ =>
      let marked := markOutboxMessagePublished w.messages message.id dispatcher publishedAt
      some ({ w with messages := marked.2 }.setWork dispatcher ⟨next,.idle⟩
        (if marked.1 then .idle
          else .failing message "Outbox claim was lost after publication" false))
    | _ => none
  | .recordFailure dispatcher failedAt =>
    match w.dispatchers dispatcher with
    | some ⟨next,.failing message error invalidEvent⟩ =>
      some ({ w with messages := (recordOutboxMessageFailure w.messages
        (failureInput dispatcher message error invalidEvent failedAt)).2 }.setWork dispatcher
          ⟨next,.idle⟩ .idle)
    | _ => none
  | .claimLost dispatcher now locked =>
    match w.dispatchers dispatcher with
    | some ⟨next,.idle⟩ =>
      some ({ w with messages := (claimMessage (firstKind ⟨next,.idle⟩) w.messages
        ⟨dispatcher,now,now + claimLeaseMs⟩ locked).2 }.setWork dispatcher ⟨!next,.idle⟩ .idle)
    | some ⟨next,.second input kind⟩ =>
      some ({ w with messages := (claimMessage kind w.messages input locked).2 }.setWork dispatcher
        ⟨next,.idle⟩ .idle)
    | _ => none
  | .markLost dispatcher error publishedAt =>
    match w.dispatchers dispatcher with
    | some ⟨next,.handedOver message⟩ =>
      some ({ w with messages := match publishedAt with
        | some publishedAt =>
          (markOutboxMessagePublished w.messages message.id dispatcher publishedAt).2
        | none => w.messages }.setWork dispatcher ⟨next,.idle⟩ (.failing message error false))
    | _ => none
  | .recordLost dispatcher failedAt =>
    match w.dispatchers dispatcher with
    | some ⟨next,.failing message error invalidEvent⟩ =>
      some ({ w with messages := match failedAt with
        | some failedAt => (recordOutboxMessageFailure w.messages
            (failureInput dispatcher message error invalidEvent failedAt)).2
        | none => w.messages }.setWork dispatcher ⟨next,.idle⟩ .idle)
    | _ => none

def World.run : World → List Action → Option World
  | w, [] => some w
  | w, action :: actions => (w.step action).bind (World.run · actions)

end Linea.Outbox
