import Linea.Graph

/-! Push notifications: devices register, every eligible notification gets a delivery for each device
of its user, and pollers claim deliveries, send them and check their receipts. A claim goes stale
after a minute. The outcome of an attempt is written where the id matches, whatever has happened to
the delivery since it was claimed. Dates are in milliseconds. -/
namespace Linea.Push

inductive NotificationType
  | accountLoginDetected
  | accountNewDevice
  | accountEmailVerified
  | accountPasswordChanged
  | workspaceInvitation
  | workspaceInvitationAccepted
  | workspaceMemberJoined
  | workspaceMemberRemoved
  | workspaceRoleChanged
  | workspaceTransferred
  | workflowPublished
  | workflowArchived
  | workflowDeleted
  | executionStarted
  | executionCompleted
  | executionFailed
  | executionApprovalRequested
  | systemInfo
  | systemWarning
  | systemMaintenance
  deriving DecidableEq, Repr

structure Notification where
  id : String
  userId : String
  workspaceId : Option String
  type : NotificationType
  title : String
  body : String
  metadata : List (String × Value)

structure PushDeviceRegistration where
  id : String
  userId : String
  token : String
  deriving DecidableEq, Repr

inductive PushDeliveryStatus
  | pending
  | sending
  | receiptPending
  | receiptChecking
  | retry
  | delivered
  | failed
  deriving DecidableEq, Repr

structure PushDelivery where
  id : String
  notificationId : String
  deviceRegistrationId : Option String
  status : PushDeliveryStatus
  attempts : ℕ
  receiptAttempts : ℕ
  ticketId : Option String
  lastError : Option String
  nextAttemptAt : ℤ
  claimedAt : Option ℤ
  deliveredAt : Option ℤ
  failedAt : Option ℤ
  deriving DecidableEq, Repr

structure Store where
  notifications : List Notification
  devices : List PushDeviceRegistration
  deliveries : List PushDelivery

def maxAttempts : ℕ := 3

def claimTimeoutMs : ℤ := 60000

/-- A text in the metadata. -/
def Notification.text (notification : Notification) (key : String) : Option String :=
  match Value.field notification.metadata key with
  | .string text => some text
  | _ => none

def isPushEligible (notification : Notification) : Bool :=
  match notification.type with
  | .executionFailed => true
  | .executionApprovalRequested => true
  | .systemWarning => (notification.text "signalId").isSome
  | _ => false

/-- A delivery as it is inserted. -/
def newDelivery (id notificationId deviceRegistrationId : String) (now : ℤ) : PushDelivery :=
  { id, notificationId, deviceRegistrationId := some deviceRegistrationId, status := .pending
    attempts := 0, receiptAttempts := 0, ticketId := none, lastError := none, nextAttemptAt := now
    claimedAt := none, deliveredAt := none, failedAt := none }

/-- `onConflictDoNothing` without a target: a row that meets one of the unique keys is not inserted. -/
def insertDelivery (deliveries : List PushDelivery) (row : PushDelivery) : List PushDelivery :=
  if deliveries.any fun other => other.id = row.id ||
      (other.notificationId = row.notificationId &&
        other.deviceRegistrationId = row.deviceRegistrationId) then deliveries
  else deliveries ++ [row]

/-- The rows to insert; `newId` is the id the database generates for each. -/
def deliveryValues (newId : String → String → String) (now : ℤ) (eligible : List Notification)
    (devices : List PushDeviceRegistration) : List PushDelivery :=
  eligible.flatMap fun notification =>
    (devices.filter fun device => device.userId = notification.userId).map fun device =>
      newDelivery (newId notification.id device.id) notification.id device.id now

def createPushDeliveries (newId : String → String → String) (now : ℤ) (created : List Notification)
    (store : Store) : Store :=
  { store with
    deliveries := (deliveryValues newId now (created.filter isPushEligible) store.devices).foldl
      insertDelivery store.deliveries }

/-! ## Devices -/

/-- The deletion of devices sets the references to them to null. -/
def deleteDevices (gone : PushDeviceRegistration → Bool) (store : Store) : Store :=
  { store with
    devices := store.devices.filter fun device => !gone device
    deliveries := store.deliveries.map fun delivery =>
      if store.devices.any fun device => gone device && delivery.deviceRegistrationId = some device.id
      then { delivery with deviceRegistrationId := none } else delivery }

/-- A token that another user had registered is taken from that user first. -/
def registerPushDevice (id userId token : String) (store : Store) : Store :=
  let store := deleteDevices (fun device => device.token = token && device.userId ≠ userId) store
  if store.devices.any fun device => device.token = token then store
  else { store with devices := store.devices ++ [⟨id, userId, token⟩] }

def unregisterPushDevice (userId token : String) (store : Store) : Store :=
  deleteDevices (fun device => device.userId = userId && device.token = token) store

/-! ## The queue -/

/-- `update ... where id = ...`. -/
def updateDelivery (id : String) (set : PushDelivery → PushDelivery) (store : Store) : Store :=
  { store with
    deliveries := store.deliveries.map fun delivery =>
      if delivery.id = id then set delivery else delivery }

/-- The claim is older than the time-out; a null compares as neither. -/
def stale (now : ℤ) (delivery : PushDelivery) : Bool :=
  delivery.claimedAt.any (· ≤ now - claimTimeoutMs)

def claimableDelivery (now : ℤ) (delivery : PushDelivery) : Bool :=
  delivery.nextAttemptAt ≤ now &&
    (delivery.status = .pending || delivery.status = .retry ||
      (delivery.status = .sending && stale now delivery))

def claimableReceipt (now : ℤ) (delivery : PushDelivery) : Bool :=
  delivery.nextAttemptAt ≤ now &&
    (delivery.status = .receiptPending ||
      (delivery.status = .receiptChecking && stale now delivery))

def claimedDelivery (now : ℤ) (delivery : PushDelivery) : PushDelivery :=
  { delivery with status := .sending, attempts := delivery.attempts + 1, claimedAt := some now }

def claimedReceipt (now : ℤ) (delivery : PushDelivery) : PushDelivery :=
  { delivery with
    status := .receiptChecking
    receiptAttempts := delivery.receiptAttempts + 1
    claimedAt := some now }

structure ClaimedPushDelivery where
  delivery : PushDelivery
  notification : Notification
  token : String

/-- The joins on the notification and on the device. -/
def joined (store : Store) (delivery : PushDelivery) : Option (Notification × String) := do
  let notification ← store.notifications.find? fun row => row.id = delivery.notificationId
  let deviceId ← delivery.deviceRegistrationId
  let device ← store.devices.find? fun row => row.id = deviceId
  pure (notification, device.token)

/-- `candidate` is the row the query returns: any claimable one that nobody has locked. -/
def claimPushDelivery (now : ℤ) (candidate : PushDelivery) (store : Store) :
    Store × Option ClaimedPushDelivery :=
  match joined store candidate with
  | some (notification, token) =>
    (updateDelivery candidate.id (fun _ => claimedDelivery now candidate) store,
      some ⟨claimedDelivery now candidate, notification, token⟩)
  | none =>
    (updateDelivery candidate.id (fun _ =>
      { claimedDelivery now candidate with
        status := .failed
        lastError := some "Device registration was removed"
        failedAt := some now
        claimedAt := none }) store, none)

def claimPushReceipt (now : ℤ) (candidate : PushDelivery) (store : Store) : Store × PushDelivery :=
  (updateDelivery candidate.id (fun _ => claimedReceipt now candidate) store,
    claimedReceipt now candidate)

/-! ## Outcomes -/

def recordPushTicket (deliveryId ticketId : String) (receiptAt : ℤ) : Store → Store :=
  updateDelivery deliveryId fun delivery =>
    { delivery with
      status := .receiptPending
      ticketId := some ticketId
      nextAttemptAt := receiptAt
      claimedAt := none
      lastError := none }

def completePushDelivery (deliveryId : String) (deliveredAt : ℤ) : Store → Store :=
  updateDelivery deliveryId fun delivery =>
    { delivery with
      status := .delivered
      deliveredAt := some deliveredAt
      claimedAt := none
      lastError := none }

/-- The write after a transient failure. The count it is decided by is the caller's. -/
def retryAs (again : PushDeliveryStatus) (count : ℕ) (deliveryId error : String) (retryAt now : ℤ) :
    Store → Store :=
  updateDelivery deliveryId fun delivery =>
    { delivery with
      status := if maxAttempts ≤ count then .failed else again
      lastError := some error
      nextAttemptAt := retryAt
      failedAt := if maxAttempts ≤ count then some now else none
      claimedAt := none }

def retryPushDelivery (delivery : PushDelivery) (error : String) (retryAt now : ℤ) : Store → Store :=
  retryAs .retry delivery.attempts delivery.id error retryAt now

def retryPushReceipt (delivery : PushDelivery) (error : String) (retryAt now : ℤ) : Store → Store :=
  retryAs .receiptPending delivery.receiptAttempts delivery.id error retryAt now

def permanentlyFailPushDelivery (delivery : PushDelivery) (error : String) (removeDevice : Bool)
    (now : ℤ) (store : Store) : Store :=
  let failed := updateDelivery delivery.id (fun row =>
    { row with
      status := .failed
      lastError := some error
      failedAt := some now
      claimedAt := none }) store
  match delivery.deviceRegistrationId with
  | some deviceId =>
    if removeDevice then deleteDevices (fun device => device.id = deviceId) failed else failed
  | none => failed

/-! ## The service -/

def receiptDelayMs : ℤ := 15 * 60000

def retryBaseDelayMs : ℤ := 5000

/-- Attempts count from one. -/
def retryAt (now : ℤ) (attempts : ℕ) : ℤ := now + retryBaseDelayMs * 2 ^ (attempts - 1)

def isTransientExpoCode (code : Option String) : Bool := code = some "MessageRateExceeded"

def invalidatesDevice (code : Option String) : Bool := code = some "DeviceNotRegistered"

/-- An answer of the push service, or what is thrown instead. Everything but a transport error that
is not transient leads to a retry. -/
inductive ExpoResult (α : Type)
  | ok (answer : α)
  | error (message : String) (code : Option String)
  | refused (message : String)
  | thrown (message : String)

/-- An empty code is not written. -/
def errorText (message : String) (code : Option String) : String :=
  match code with
  | some code => if code = "" then message else code ++ ": " ++ message
  | none => message

structure PushPayload where
  title : String
  body : String
  data : List (String × String)
  deriving DecidableEq, Repr

def identifiers (notification : Notification) (requiredId : String) :
    Option (List (String × String)) :=
  match notification.workspaceId, notification.text requiredId with
  | some workspaceId, some resourceId =>
    if workspaceId = "" then none
    else some [("workspaceId", workspaceId), (requiredId, resourceId)]
  | _, _ => none

def payloadFor (notification : Notification) (title body screen requiredId : String) :
    Option PushPayload :=
  (identifiers notification requiredId).map fun data => ⟨title, body, ("screen", screen) :: data⟩

def buildPushPayload (notification : Notification) : Option PushPayload :=
  match notification.type with
  | .executionFailed => payloadFor notification "Execution failed"
      "A workflow execution needs attention." "execution" "executionId"
  | .executionApprovalRequested => payloadFor notification "Approval requested"
      "A workflow execution needs your approval." "approval" "approvalId"
  | .systemWarning => payloadFor notification "Signal regressed"
      "A resolved signal was detected again." "signal" "signalId"
  | _ => none

/-- What `send` writes after the request. -/
def handleTicket (delivery : PushDelivery) (now : ℤ) : ExpoResult String → Store → Store
  | .ok ticketId => recordPushTicket delivery.id ticketId (now + receiptDelayMs)
  | .error message code =>
    if isTransientExpoCode code then
      retryPushDelivery delivery (errorText message code) (retryAt now delivery.attempts) now
    else permanentlyFailPushDelivery delivery (errorText message code) (invalidatesDevice code) now
  | .refused message => permanentlyFailPushDelivery delivery message false now
  | .thrown message => retryPushDelivery delivery message (retryAt now delivery.attempts) now

/-- What `checkReceipt` writes after the request. A receipt that is not there yet is `none`. -/
def handleReceipt (delivery : PushDelivery) (now : ℤ) :
    ExpoResult (Option Unit) → Store → Store
  | .ok (some ()) => completePushDelivery delivery.id now
  | .ok none =>
    retryPushReceipt delivery "Expo receipt is not available yet"
      (retryAt now delivery.receiptAttempts) now
  | .error message code =>
    if isTransientExpoCode code then
      retryPushReceipt delivery (errorText message code) (retryAt now delivery.receiptAttempts) now
    else permanentlyFailPushDelivery delivery (errorText message code) (invalidatesDevice code) now
  | .refused message => permanentlyFailPushDelivery delivery message false now
  | .thrown message => retryPushReceipt delivery message (retryAt now delivery.receiptAttempts) now

/-- A receipt is only asked for with a ticket. -/
def checkReceipt (delivery : PushDelivery) (now : ℤ) (result : ExpoResult (Option Unit)) :
    Store → Store :=
  if delivery.ticketId.all (· = "") then
    permanentlyFailPushDelivery delivery "Receipt delivery has no Expo ticket ID" false now
  else handleReceipt delivery now result

end Linea.Push
