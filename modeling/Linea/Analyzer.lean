import Linea.Savepoints
import Linea.Signals
import Linea.Push

/-! The write of a conversation analysis. One transaction reaffirms the claim, inserts the analysis
and its findings, and raises a flag for some of them. `createFlagIfNew` runs on the open transaction:
its own transaction is a savepoint there, and the notification of a regression, which follows it,
runs on the outer transaction. A call of `notifySignalRegressed` may fail at any of its statements;
the error is caught. -/
namespace Linea.Analyzer
open Linea.Signals
open Linea.Push (Notification)

structure ConversationAnalysisClaim where
  workspaceId : String
  workflowId : String
  conversationId : String
  claimedAt : ℤ
  attemptCount : ℕ
  deriving DecidableEq, Repr

structure ConversationAnalysis where
  id : String
  workspaceId : String
  workflowId : String
  conversationId : String
  externalSubjectId : Option String
  analyzedThroughSequence : ℕ
  analyzerVersion : String
  model : Option String
  provider : Option String
  tokensInput : ℕ
  tokensOutput : ℕ
  costMicros : ℕ
  createdAt : ℤ
  deriving DecidableEq, Repr

structure ConversationFinding where
  id : String
  analysisId : String
  workspaceId : String
  axis : String
  category : String
  confidence : ℚ
  evidenceMessageId : String
  rationale : String
  deriving DecidableEq, Repr

structure Workflow where
  id : String
  workspaceId : String
  name : String
  deriving DecidableEq, Repr

structure Store where
  claims : List ConversationAnalysisClaim
  analyses : List ConversationAnalysis
  findings : List ConversationFinding
  flags : List Flag
  signals : List Signal
  executions : List (String × String)
  workflows : List Workflow
  members : List (String × String)
  push : Push.Store

/-! ## Notifications -/

/-- The statements of `notifySignalRegressed`, in their order. -/
inductive NotifyStatement
  | getWorkflowById
  | listMemberUserIds
  | savepoint
  | insertNotifications
  | selectDevices
  | insertPushDeliveries
  | releaseSavepoint
  deriving DecidableEq, Repr

/-- What is generated for a call, and the statement at which the call fails, if it does. -/
structure Call where
  signalId : String
  notificationId : String → String
  deliveryId : String → String → String
  now : ℤ
  fault : Option NotifyStatement

def Call.fails (call : Call) (statement : NotifyStatement) : Bool := call.fault = some statement

def getWorkflowById (fails : Bool) (workspaceId id : String) : Sql Store (Option Workflow) :=
  .statement fails fun store =>
    (store.workflows.find? fun workflow => workflow.workspaceId = workspaceId ∧ workflow.id = id,
      store)

def listMemberUserIds (fails : Bool) (organizationId : String) : Sql Store (List String) :=
  .statement fails fun store =>
    ((store.members.filter fun member => member.1 = organizationId).map Prod.snd, store)

def createPushDeliveries (call : Call) (created : List Notification) : Sql Store Unit :=
  if created.filter Push.isPushEligible = [] then pure ()
  else do
    let devices ← .statement (call.fails .selectDevices) fun store =>
      (store.push.devices.filter fun device =>
        ((created.filter Push.isPushEligible).map Notification.userId).contains device.userId, store)
    let values := Push.deliveryValues call.deliveryId call.now (created.filter Push.isPushEligible)
      devices
    if values = [] then pure ()
    else .statement (call.fails .insertPushDeliveries) fun store =>
      ((), { store with
        push := { store.push with
          deliveries := values.foldl Push.insertDelivery store.push.deliveries } })

def createNotificationsForUsers (call : Call) (userIds : List String)
    (input : String → Notification) : Sql Store Unit :=
  if userIds = [] then pure ()
  else .nested (call.fails .savepoint) (call.fails .releaseSavepoint) do
    let created ← .statement (call.fails .insertNotifications) fun store =>
      (userIds.map input, { store with
        push := { store.push with
          notifications := store.push.notifications ++ userIds.map input } })
    createPushDeliveries call created

/-- `replace(/_/g, " ")`. -/
def spaced (text : String) : String := text.map fun c => if c = '_' then ' ' else c

def regressedNotification (call : Call) (workflow : Option Workflow) (flag : Flag)
    (signalId userId : String) : Notification :=
  { id := call.notificationId userId
    userId
    workspaceId := some flag.workspaceId
    type := .systemWarning
    title := (workflow.elim "A workflow" Workflow.name) ++ " regressed: " ++
      spaced flag.flagType.text
    body := "An issue that was previously marked resolved was flagged again."
    metadata :=
      [("workflowId", flag.workflowId.elim .undefined .string),
        ("workspaceId", .string flag.workspaceId), ("signalId", .string signalId)] }

/-- The workflow is only read when the flag names one. -/
def flagWorkflow (call : Call) (flag : Flag) : Sql Store (Option Workflow) :=
  match given flag.workflowId with
  | some workflowId => getWorkflowById (call.fails .getWorkflowById) flag.workspaceId workflowId
  | none => pure none

def notifySignalRegressed (call : Call) (flag : Flag) (signalId : String) : Sql Store Unit := do
  let workflow ← flagWorkflow call flag
  let memberUserIds ← listMemberUserIds (call.fails .listMemberUserIds) flag.workspaceId
  createNotificationsForUsers call memberUserIds (regressedNotification call workflow flag signalId)

/-! ## Flags -/

/-- A row to insert. A flag type that is not one of the enumeration is refused by the database. -/
structure NewFlag where
  id : String
  workspaceId : String
  workflowId : Option String
  flagType : Option FlagType
  conversationFindingId : Option String
  dedupeKey : String
  createdAt : ℤ
  deriving DecidableEq, Repr

def NewFlag.row (input : NewFlag) (flagType : FlagType) : Flag :=
  { id := input.id, workspaceId := input.workspaceId, workflowId := input.workflowId
    executionId := none, nodeId := none, flagType, dedupeKey := input.dedupeKey, signalId := none
    conversationFindingId := input.conversationFindingId, createdAt := input.createdAt }

/-- `onConflictDoNothing` on the dedupe key. -/
def insertFlag (input : NewFlag) : Sql Store (Option Flag) :=
  .statement input.flagType.isNone fun store =>
    match input.flagType with
    | none => (none, store)
    | some flagType =>
      if store.flags.any fun flag => flag.dedupeKey = input.dedupeKey then (none, store)
      else (some (input.row flagType), { store with flags := store.flags ++ [input.row flagType] })

def findSignal (store : Store) (key : String) : Option Signal :=
  store.signals.find? fun signal => signal.signalKey = key

/-- The rows after the upsert. -/
def upserted (signalId : String) (flag : Flag) (workflowId : Option String) (store : Store) :
    List Signal :=
  match findSignal store (signalKey flag.flagType workflowId flag.nodeId) with
  | none => store.signals ++ [newSignal signalId flag workflowId]
  | some _ => store.signals.map fun signal =>
      if signal.signalKey = signalKey flag.flagType workflowId flag.nodeId then recur flag signal
      else signal

def linked (flag : Flag) (signalId : String) (store : Store) : Store :=
  { store with
    flags := store.flags.map fun row =>
      if row.id = flag.id then { row with signalId := some signalId } else row }

def recordSignalOccurrence (signalId : String) (flag : Flag) : Sql Store (Signal × Bool) := do
  let workflowId ← .statement false fun store => (resolveWorkflowId store.executions flag, store)
  let existing ← .statement false fun store =>
    (findSignal store (signalKey flag.flagType workflowId flag.nodeId), store)
  let signal ← .statement false fun store =>
    (upsertSignal signalId flag workflowId
      (findSignal store (signalKey flag.flagType workflowId flag.nodeId)),
      { store with signals := upserted signalId flag workflowId store })
  .statement false fun store => ((), linked flag signal.id store)
  pure (signal, justRegressed existing)

/-- The rest of the nested transaction, for a flag that was inserted. -/
def linkFlag (call : Call) : Option Flag → Sql Store (Option (Flag × Signal × Bool))
  | none => pure none
  | some flag => do
    let occurrence ← recordSignalOccurrence call.signalId flag
    pure (some (flag, occurrence.1, occurrence.2))

/-- What follows the nested transaction. An error is logged and dropped. -/
def announce (call : Call) : Option (Flag × Signal × Bool) → Sql Store Unit
  | some (flag, signal, true) =>
    .catching (notifySignalRegressed call flag signal.id) fun _ => pure ()
  | some (_, _, false) => pure ()
  | none => pure ()

def createFlagIfNew (call : Call) (input : NewFlag) : Sql Store (Option Flag) := do
  let result ← .nested false false (do
    let flag ← insertFlag input
    linkFlag call flag)
  announce call result
  pure (result.map Prod.fst)

/-! ## The analysis -/

structure ConversationDueForAnalysis where
  workspaceId : String
  environmentId : String
  workflowId : String
  conversationId : String
  maxSequence : ℕ
  externalSubjectId : Option String
  deriving DecidableEq, Repr

def ConversationAnalysisClaim.of (conversation : ConversationDueForAnalysis)
    (claim : ConversationAnalysisClaim) : Bool :=
  claim.workspaceId = conversation.workspaceId && claim.workflowId = conversation.workflowId &&
    claim.conversationId = conversation.conversationId

/-- The claim is still the caller's. -/
def owned (store : Store) (conversation : ConversationDueForAnalysis) (attemptCount : ℕ) : Bool :=
  store.claims.any fun claim => claim.of conversation && claim.attemptCount = attemptCount

def renewed (conversation : ConversationDueForAnalysis) (attemptCount : ℕ) (now : ℤ) (store : Store) :
    Store :=
  { store with
    claims := store.claims.map fun claim =>
      if claim.of conversation ∧ claim.attemptCount = attemptCount then
        { claim with claimedAt := now }
      else claim }

def renewClaimIfOwned (conversation : ConversationDueForAnalysis) (attemptCount : ℕ) (now : ℤ) :
    Sql Store Bool :=
  .statement false fun store =>
    (owned store conversation attemptCount, renewed conversation attemptCount now store)

def createConversationAnalysis (analysis : ConversationAnalysis) : Sql Store Unit :=
  .statement false fun store => ((), { store with analyses := store.analyses ++ [analysis] })

def insertConversationFindings (rows : List ConversationFinding) : Sql Store Unit :=
  if rows = [] then pure ()
  else .statement false fun store => ((), { store with findings := store.findings ++ rows })

/-- The names that every object inherits: looked up in `FLAGGABLE_CATEGORIES` they give a value that
is no flag type. -/
def inheritedNames : List String :=
  ["constructor", "__defineGetter__", "__defineSetter__", "hasOwnProperty", "__lookupGetter__",
    "__lookupSetter__", "isPrototypeOf", "propertyIsEnumerable", "toString", "valueOf", "__proto__",
    "toLocaleString"]

/-- `FLAGGABLE_CATEGORIES[category]`: nothing, or a value that may be no flag type. -/
def flaggableCategory (category : String) : Option (Option FlagType) :=
  if category = "frustrated" then some (some .userFrustration)
  else if category = "hallucination_suspected" then some (some .hallucinationSuspected)
  else if category = "repetition_loop" then some (some .repetitionLoop)
  else if category = "inappropriate_refusal" then some (some .inappropriateRefusal)
  else if category ∈ inheritedNames then some none
  else none

/-- A finding as it is persisted, with what is generated for its flag. -/
structure Reported where
  finding : ConversationFinding
  flagId : String
  createdAt : ℤ
  call : Call

/-- The flag of a finding. The text of a value that is no flag type does not matter. -/
def Reported.newFlag (reported : Reported) (conversation : ConversationDueForAnalysis)
    (flagType : Option FlagType) : NewFlag :=
  { id := reported.flagId
    workspaceId := conversation.workspaceId
    workflowId := some conversation.workflowId
    flagType
    conversationFindingId := some reported.finding.id
    dedupeKey := (flagType.elim "" FlagType.text) ++ ":" ++ conversation.conversationId ++ ":" ++
      reported.finding.id
    createdAt := reported.createdAt }

/-- The calls of `createFlagIfNew`, in their order. -/
def flagged (conversation : ConversationDueForAnalysis) (findings : List Reported) :
    List (Call × NewFlag) :=
  findings.filterMap fun reported =>
    (flaggableCategory reported.finding.category).map fun flagType =>
      (reported.call, reported.newFlag conversation flagType)

def raiseFlags : List (Call × NewFlag) → Sql Store Unit
  | [] => pure ()
  | (call, input) :: rest => do
    let _ ← createFlagIfNew call input
    raiseFlags rest

inductive ConversationAnalysisOutcome
  | claimLost
  | processed (analysisId : String)
  deriving DecidableEq, Repr

/-- What is written: the analysis, the findings as they are persisted, and the clock of the claim's
renewal. -/
structure Write where
  conversation : ConversationDueForAnalysis
  attemptCount : ℕ
  now : ℤ
  analysis : ConversationAnalysis
  findings : List Reported

/-- What follows the check of the claim; `none` when it is lost. -/
def Write.records (write : Write) : Bool → Sql Store (Option String)
  | true => do
    createConversationAnalysis write.analysis
    insertConversationFindings (write.findings.map Reported.finding)
    raiseFlags (flagged write.conversation write.findings)
    pure (some write.analysis.id)
  | false => pure none

/-- The body of the transaction. -/
def Write.body (write : Write) : Sql Store (Option String) := do
  let claimStillOwned ← renewClaimIfOwned write.conversation write.attemptCount write.now
  write.records claimStillOwned

/-- The end of `analyzeConversation`: the transaction and the answer. -/
def analyzeConversation (write : Write) (store : Store) :
    Except String ConversationAnalysisOutcome × Store :=
  match Sql.transaction write.body store with
  | (.ok (some analysisId), store) => (.ok (.processed analysisId), store)
  | (.ok none, store) => (.ok .claimLost, store)
  | (.error e, store) => (.error e, store)

end Linea.Analyzer
