import Linea.OrderedMap
import Linea.Firing
import Linea.Graph
import Linea.Walker
import Linea.ExceptLaws
import Linea.Validate
import Linea.ValidateStructure
import Linea.ValidateSearch
import Linea.ValidateChoices
import Linea.ValidateExact
import Linea.ConnectionValidation
import Linea.WalkerReady
import Linea.WalkerRun
import Linea.WalkerMeaning
import Linea.WalkerChoices
import Linea.WalkerResume
import Linea.WalkerFailure
import Linea.Execution
import Linea.StepLog
import Linea.Approvals
import Linea.Wakeup
import Linea.Worker
import Linea.WorkerLog
import Linea.Lease
import Linea.WorkerSteps
import Linea.WorkerSync
import Linea.WorkerRuns
import Linea.WorkerCheckpoints
import Linea.WorkerRecovery
import Linea.WorkerFinish
import Linea.WorkerReplay
import Linea.WorkerReload
import Linea.WorkerHandlers
import Linea.WorkerVariables
import Linea.WorkerRows
import Linea.ChatReply
import Linea.Doubles
import Linea.Usage
import Linea.RunUsage
import Linea.Delivery
import Linea.Pauses
import Linea.PausesWaits
import Linea.PausesOrphans
import Linea.ConsentDispatch
import Linea.EventStreamCuts
import Linea.ConnectionsPlaces
import Linea.WebhooksEnd
import Linea.OutboxClaims
import Linea.ListingsPages
import Linea.AnalyzerWrites
import Linea.PushPollers
import Linea.Runs
import Linea.Signals
import Linea.AnalyzerClaims
import Linea.ReplayClaims
import Linea.PublicRuntimeCalls
import Linea.TransactionFrames
import Linea.ConsentReviewers
import Linea.ConsentRuns
import Linea.NodeSteps
import Linea.ConnectionsLedger
import Linea.StepCost
import Linea.SchedulePollers
import Linea.DraftSaves
import Linea.SignInSessions
import Linea.CredentialRaces
import Linea.FrozenConversations
import Linea.IntentDigests
import Linea.WorkflowHash
import Linea.BranchNode
import Linea.MergeNode
import Linea.IpAddresses
import Linea.WebhookAddresses
import Linea.WebhookRedirects
import Linea.Calendar
import Linea.FixedTexts
import Linea.IsoTimes
import Linea.KeysetMerge
import Linea.ConnectionUses
import Linea.DatetimeNode
import Linea.AutoLayout
import Linea.FilterNode
import Linea.RegressionRuns
import Linea.KeyValueEditor
import Linea.Base64
import Linea.SafeIntegers
import Linea.TextBytes
import Linea.JsonReading
import Linea.RequestProofs
import Linea.UserStates
import Linea.UserClient
import Linea.UserClientStates
import Linea.ConversationCreation
import Linea.GithubDisplays
import Linea.UrlPaths
import Linea.ApprovalList
import Linea.ApprovedTargets
import Linea.ConversationView
