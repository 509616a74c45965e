import Linea.Execution

/-! How an execution reaches a worker: the outbox message written with it, the dispatcher that
turns messages into jobs, and BullMQ, which hands a job to a processor again once the lock of the
last one has run out, drops it when the processor returns, and retries it when the processor
throws. -/
namespace Linea.Delivery

def claimLeaseMs : ℕ := 30000
def maximumRetryDelayMs : ℕ := 60000
def executionRetryAttempts : ℕ := 3

inductive OutboxMessageStatus
  | pending
  | publishing
  | published
  | failed
  deriving DecidableEq, Repr

/-- A message of kind `workflow_execution` for the execution. -/
structure OutboxMessage where
  status : OutboxMessageStatus
  attempts : ℕ
  availableAt : ℕ
  claimedBy : Option String
  claimExpiresAt : Option ℕ
  deriving DecidableEq, Repr

def OutboxMessage.left (m : OutboxMessage) : Bool := m.status = .pending ∨ m.status = .publishing

def createWorkflowExecutionMessage (now : ℕ) : OutboxMessage := ⟨.pending, 0, now, none, none⟩

def OutboxMessage.claim (m : OutboxMessage) (now : ℕ) (claimedBy : String) : OutboxMessage :=
  { m with status := .publishing, attempts := m.attempts + 1, claimedBy := some claimedBy,
           claimExpiresAt := some (now + claimLeaseMs) }

/-- `markOutboxMessagePublished`: nothing happens when the claim is another dispatcher's by now. -/
def OutboxMessage.markPublished (m : OutboxMessage) (claimedBy : String) : OutboxMessage :=
  if m.status = .publishing ∧ m.claimedBy = some claimedBy then
    { m with status := .published, claimedBy := none, claimExpiresAt := none }
  else m

def retryDelay (attempts : ℕ) : ℕ :=
  min (2 ^ min (attempts - 1) 16 * 1000) maximumRetryDelayMs

/-- `recordOutboxMessageFailure`; a message with an execution id never fails for good. -/
def OutboxMessage.recordFailure (m : OutboxMessage) (failedAt : ℕ) (claimedBy : String) :
    OutboxMessage :=
  if m.status = .publishing ∧ m.claimedBy = some claimedBy then
    { m with status := .pending, claimedBy := none, claimExpiresAt := none,
             availableAt := failedAt + retryDelay m.attempts }
  else m

/-- A job in the queue, and the worker that has its lock; without one the job waits. -/
structure Job where
  attemptsMade : ℕ
  worker : Option String
  deriving DecidableEq, Repr

def Job.lastAttempt (job : Job) : Bool := executionRetryAttempts ≤ job.attemptsMade + 1

/-- The job after its processor threw. -/
def Job.retried (job : Job) : Option Job :=
  if job.lastAttempt then none else some ⟨job.attemptsMade + 1, none⟩

/-- A call of `RunsService.execute` for a job: under its claim, about to return, about to throw,
or dead with its process. -/
inductive WorkerState
  | unstarted
  | working (jobId : String)
  | returning (jobId : String)
  | throwing (jobId : String)
  | dead
  | gone
  deriving DecidableEq, Repr

/-- `dispatch` between its claim and its last statement. -/
inductive DispatcherState
  | polling
  | claimed (messageId : String)
  | enqueued (messageId : String)
  deriving DecidableEq, Repr

/-- `added` holds every job id the queue has seen: adding one again does nothing. -/
structure World where
  clock : ℕ
  execution : Execution
  messages : OrderedMap String OutboxMessage
  added : List String
  jobs : String → Option Job
  workers : String → WorkerState
  dispatchers : String → DispatcherState

inductive Act
  | tick (elapsed : ℕ)
  | requeue (messageId : String)
  | cancel (environmentId : String)
  | claimMessage (dispatcherId messageId : String)
  | enqueue (dispatcherId : String)
  | markPublished (dispatcherId : String)
  | recordFailure (dispatcherId : String)
  | stopDispatcher (dispatcherId : String)
  | stall (jobId : String)
  | deliver (jobId attemptId : String) (leaseExpiresAt : ℕ) (threw : Bool)
  | renew (attemptId : String) (leaseExpiresAt : ℕ)
  | pause (attemptId : String)
  | complete (attemptId : String) (input : CompleteExecutionInput)
  | fail (attemptId : String) (message : String) (recorded : Bool)
  | finish (attemptId : String)
  | crash (attemptId : String)

namespace World

def setWorker (w : World) (a : String) (state : WorkerState) : World :=
  { w with workers := fun b => if b = a then state else w.workers b }

def setDispatcher (w : World) (d : String) (state : DispatcherState) : World :=
  { w with dispatchers := fun b => if b = d then state else w.dispatchers b }

def setJob (w : World) (j : String) (job : Option Job) : World :=
  { w with jobs := fun i => if i = j then job else w.jobs i }

/-- `claimWorkflowExecutionMessage` can pick the message. -/
def claimable (w : World) (m : OutboxMessage) : Bool :=
  m.status = .pending ∧ m.availableAt ≤ w.clock ∨
    m.status = .publishing ∧ (m.claimExpiresAt.any fun t => t ≤ w.clock)

def updateMessage (w : World) (m : String) (f : OutboxMessage → OutboxMessage) : World :=
  match w.messages.get? m with
  | some message => { w with messages := w.messages.set m (f message) }
  | none => w

def tryComplete (w : World) (a : String) (input : CompleteExecutionInput) : World :=
  match w.execution.completeExecution w.clock true a input with
  | some (e, _) => { w with execution := e }
  | none => w

/-- `queue.add` with the message's id as job id. -/
def enqueueWorkflowExecution (w : World) (m : String) : World :=
  if m ∈ w.added then w else ({ w with added := m :: w.added }).setJob m (some ⟨0, none⟩)

/-- The processor of a job that is handed over: `startExecution`, which may throw. -/
def process (w : World) (j a : String) (leaseExpiresAt : ℕ) (threw : Bool) : World :=
  if threw then w.setWorker a (.throwing j)
  else
    match w.execution.startExecution w.clock a leaseExpiresAt with
    | some e => ({ w with execution := e }).setWorker a (.working j)
    -- not claimable: skipped
    | none => w.setWorker a (.returning j)

/-- What the queue does with the job of a call that ended: nothing, once the call lost the lock. -/
def release (w : World) (a j : String) (next : Job → Option Job) : World :=
  match w.jobs j with
  | some job => if job.worker = some a then w.setJob j (next job) else w
  | none => w

def step (w : World) : Act → Option World
  | .tick elapsed => some { w with clock := w.clock + elapsed }
  | .requeue m =>
    -- a decision or a due timer: the status and the message change together
    if m ∈ w.messages.keys then none
    else w.execution.requeue.map fun e => { w with
      execution := e, messages := w.messages.set m (createWorkflowExecutionMessage w.clock) }
  | .cancel environmentId =>
    (w.execution.cancelExecution environmentId w.clock).map fun e => { w with execution := e }
  | .claimMessage d m =>
    match w.dispatchers d, w.messages.get? m with
    | .polling, some message =>
      if w.claimable message then
        some ((w.updateMessage m fun old => old.claim w.clock d).setDispatcher d (.claimed m))
      else none
    | _, _ => none
  | .enqueue d =>
    match w.dispatchers d with
    | .claimed m => some ((w.enqueueWorkflowExecution m).setDispatcher d (.enqueued m))
    | _ => none
  | .markPublished d =>
    match w.dispatchers d with
    | .enqueued m =>
      some ((w.updateMessage m fun old => old.markPublished d).setDispatcher d .polling)
    | _ => none
  | .recordFailure d =>
    match w.dispatchers d with
    | .polling => none
    | .claimed m | .enqueued m =>
      some ((w.updateMessage m fun old => old.recordFailure w.clock d).setDispatcher d .polling)
  | .stopDispatcher d => some (w.setDispatcher d .polling)
  | .stall j =>
    -- the lock ran out: the worker died, or it lives and did not renew it in time
    (w.jobs j).map fun job => w.setJob j (some { job with worker := none })
  | .deliver j a leaseExpiresAt threw =>
    match w.jobs j, w.workers a with
    | some job, .unstarted =>
      if job.worker = none then
        some ((w.setJob j (some { job with worker := some a })).process j a leaseExpiresAt threw)
      else none
    | _, _ => none
  | .renew a leaseExpiresAt =>
    (w.execution.renewLease w.clock a leaseExpiresAt).map fun e => { w with execution := e }
  | .pause a =>
    match w.workers a with
    | .working j =>
      match w.execution.pauseExecution w.clock a with
      | some e => some (({ w with execution := e }).setWorker a (.returning j))
      | none => some (w.setWorker a (.throwing j))
    | _ => none
  | .complete a input =>
    match w.workers a with
    | .working j => some ((w.tryComplete a input).setWorker a (.returning j))
    | _ => none
  | .fail a message recorded =>
    match w.workers a with
    | .working j =>
      -- the completion of the catch block may itself throw
      let w' := if recorded then w.tryComplete a ⟨.failed, some ⟨message, none⟩, failed_terminal⟩ else w
      some (w'.setWorker a (.throwing j))
    | _ => none
  | .finish a =>
    match w.workers a with
    | .returning j => some ((w.release a j fun _ => none).setWorker a .gone)
    | .throwing j => some ((w.release a j Job.retried).setWorker a .gone)
    | _ => none
  | .crash a =>
    match w.workers a with
    | .unstarted => none
    | .gone => none
    | _ => some (w.setWorker a .dead)

/-- An execution that waits to be run or is being run. -/
def unfinished (w : World) : Prop :=
  w.execution.status = .queued ∨ w.execution.status = .running

/-- The attempt's process is alive and in `RunsService.execute`. -/
def live (w : World) (a : String) : Prop :=
  match w.workers a with
  | .working _ => True
  | .returning _ => True
  | .throwing _ => True
  | _ => False

/-- Nothing will run the execution: no live worker holds its lease, and neither a message nor a
job is left for it. -/
def Orphaned (w : World) : Prop :=
  w.unfinished ∧ (∀ a, w.live a → w.execution.isLeaseValid w.clock a = false) ∧
    (∀ m message, w.messages.get? m = some message → message.left = false) ∧
    ∀ j, w.jobs j = none

end World

/-- The attempt's call still has the lock of the job it walks for. -/
def World.locks (w : World) (a : String) (job : Job) : Prop :=
  ∃ j, w.workers a = .working j ∧ w.jobs j = some job ∧ job.worker = some a

/-- What a step must not do. A job may meet a lease that has not run out only while its holder
walks for another job; and a call that has its job's lock may end only under its lease, or with a
throw that leaves the job another attempt. -/
def World.Sound (w : World) : Act → Prop
  | .deliver j _ _ true => w.unfinished → ∀ job, w.jobs j = some job → job.lastAttempt = false
  | .deliver j _ _ false =>
    w.execution.status = .running → w.execution.leaseExpired w.clock = false →
      ∃ b i, i ≠ j ∧ w.workers b = .working i ∧ w.execution.leasedBy = some b
  | .pause a =>
    w.unfinished → ∀ job, w.locks a job → job.lastAttempt = true →
      w.execution.isLeaseValid w.clock a = true
  | .complete a _ =>
    w.unfinished → ∀ job, w.locks a job → w.execution.isLeaseValid w.clock a = true
  | .fail a _ recorded =>
    w.unfinished → ∀ job, w.locks a job → job.lastAttempt = true →
      recorded = true ∧ w.execution.isLeaseValid w.clock a = true
  | _ => True

/-- `createExecution` wrote the row and its message together; nothing has happened since. -/
structure Created (w : World) : Prop where
  queued : w.execution.status = .queued
  message : ∃ m now, w.messages = OrderedMap.empty.set m (createWorkflowExecutionMessage now)
  added : w.added = []
  jobs : ∀ j, w.jobs j = none
  workers : ∀ a, w.workers a = .unstarted
  dispatchers : ∀ d, w.dispatchers d = .polling

inductive Reachable (allowed : World → Act → Prop) : World → Prop
  | created {w : World} (h : Created w) : Reachable allowed w
  | step {w w' : World} {act : Act} (h : Reachable allowed w) (hok : allowed w act)
      (hs : w.step act = some w') : Reachable allowed w'

namespace World

/-- The job will claim the execution again or its walk goes on: it waits, its worker died, its
worker walks, or it throws and has attempts left. -/
def Useful (w : World) (j : String) : Prop :=
  ∃ job, w.jobs j = some job ∧ ∀ a, job.worker = some a →
    w.workers a = .dead ∨ w.workers a = .working j ∨
      w.workers a = .throwing j ∧ job.lastAttempt = false

/-- The attempt walks for the job and the running execution is leased to it. -/
def Holds (w : World) (a j : String) : Prop :=
  w.execution.status = .running ∧ w.execution.leasedBy = some a ∧ w.workers a = .working j

/-- The message has not become a job yet. -/
def Undispatched (w : World) (m : String) : Prop :=
  m ∉ w.added ∧ ∃ message, w.messages.get? m = some message ∧ message.left = true

structure Invariant (w : World) : Prop where
  started : ∀ j job a, w.jobs j = some job → job.worker = some a → w.workers a ≠ .unstarted
  jobs_added : ∀ j job, w.jobs j = some job → j ∈ w.added
  added_message : ∀ j ∈ w.added, j ∈ w.messages.keys
  claimed_message : ∀ d m, w.dispatchers d = .claimed m → m ∈ w.messages.keys
  enqueued_added : ∀ d m, w.dispatchers d = .enqueued m → m ∈ w.added
  held : ∀ a j, w.Holds a j → w.Useful j
  left : w.unfinished → (∃ m, w.Undispatched m) ∨ ∃ j, w.Useful j

variable {w w' : World} {a b d j m : String}

@[simp] theorem setWorker_self (w : World) (a : String) (state : WorkerState) :
    (w.setWorker a state).workers a = state := by simp [setWorker]

theorem setWorker_of_ne (w : World) (hne : b ≠ a) (state : WorkerState) :
    (w.setWorker a state).workers b = w.workers b := by simp [setWorker, hne]

@[simp] theorem setJob_self (w : World) (j : String) (job : Option Job) :
    (w.setJob j job).jobs j = job := by simp [setJob]

theorem setJob_of_ne (w : World) {i : String} (hne : i ≠ j) (job : Option Job) :
    (w.setJob j job).jobs i = w.jobs i := by simp [setJob, hne]

/-- A step that starts no run and takes no job's use. -/
theorem Invariant.keep (h : w.Invariant) (hmessages : w'.messages = w.messages)
    (hadded : w'.added = w.added) (hdispatchers : w'.dispatchers = w.dispatchers)
    (hjobs : ∀ j job, w'.jobs j = some job → (∃ old, w.jobs j = some old) ∧
      ∀ a, job.worker = some a → w'.workers a ≠ .unstarted)
    (hrow : w'.unfinished → w.unfinished) (hheld : ∀ a j, w'.Holds a j → w.Holds a j)
    (huseful : w'.unfinished → ∀ j, w.Useful j → w'.Useful j) : w'.Invariant where
  started j job a hj := (hjobs j job hj).2 a
  jobs_added j job hj := by
    obtain ⟨old, hold⟩ := (hjobs j job hj).1
    rw [hadded]
    exact h.jobs_added j old hold
  added_message := by
    rw [hadded, hmessages]
    exact h.added_message
  claimed_message := by
    rw [hdispatchers, hmessages]
    exact h.claimed_message
  enqueued_added := by
    rw [hdispatchers, hadded]
    exact h.enqueued_added
  held a j ha := huseful (Or.inr ha.1) j (h.held a j (hheld a j ha))
  left hu := by
    rcases h.left (hrow hu) with ⟨m, hm, hleft⟩ | ⟨j, hj⟩
    · refine Or.inl ⟨m, ?_, ?_⟩
      · rw [hadded]; exact hm
      · rw [hmessages]; exact hleft
    · exact Or.inr ⟨j, huseful hu j hj⟩

/-- A change of the row and the clock that starts no new run. -/
theorem Invariant.row (h : w.Invariant) (e : Execution) (now : ℕ)
    (hrow : e.status = .queued ∨ e.status = .running → w.unfinished)
    (hheld : e.status = .running →
      w.execution.status = .running ∧ e.leasedBy = w.execution.leasedBy) :
    Invariant { w with execution := e, clock := now } := by
  refine h.keep rfl rfl rfl (fun j job hj => ⟨⟨job, hj⟩, fun a => h.started j job a hj⟩) hrow ?_ ?_
  · rintro a j ⟨hr, ha, hw⟩
    obtain ⟨hr', heq⟩ := hheld hr
    exact ⟨hr', heq ▸ ha, hw⟩
  · exact fun _ j hj => hj

theorem keys_updateMessage (w : World) (m : String) (f : OutboxMessage → OutboxMessage) :
    ∀ i, i ∈ (w.updateMessage m f).messages.keys ↔ i ∈ w.messages.keys := by
  intro i
  unfold updateMessage
  split
  · rename_i message hm
    have hmem : m ∈ w.messages.keys := OrderedMap.mem_keys_iff.mpr ⟨_, hm⟩
    simp only [OrderedMap.mem_keys_set]
    constructor
    · rintro (rfl | hi)
      · exact hmem
      · exact hi
    · exact Or.inr
  · rfl

theorem updateMessage_eq (w : World) (m : String) (f : OutboxMessage → OutboxMessage) :
    w.updateMessage m f = { w with messages := (w.updateMessage m f).messages } := by
  unfold updateMessage
  split <;> rfl

theorem Undispatched.updateMessage {i : String} {f : OutboxMessage → OutboxMessage}
    (hf : m ∉ w.added → ∀ old : OutboxMessage, old.left = true → (f old).left = true)
    (h : w.Undispatched i) : (w.updateMessage m f).Undispatched i := by
  obtain ⟨hadded, message, hi, hleft⟩ := h
  by_cases him : i = m
  · subst him
    simp only [World.updateMessage, hi]
    exact ⟨hadded, f message, by simp, hf hadded message hleft⟩
  · unfold World.updateMessage
    split
    · exact ⟨hadded, message, by simpa [OrderedMap.get?_set_of_ne _ him] using hi, hleft⟩
    · exact ⟨hadded, message, hi, hleft⟩

theorem Invariant.updateMessage {f : OutboxMessage → OutboxMessage} (h : w.Invariant)
    (hf : m ∉ w.added → ∀ old : OutboxMessage, old.left = true → (f old).left = true) :
    (w.updateMessage m f).Invariant := by
  have heq := updateMessage_eq w m f
  have hkeys := keys_updateMessage w m f
  constructor
  · rw [heq]; exact h.started
  · rw [heq]; exact h.jobs_added
  · intro i hi
    rw [heq] at hi
    exact (hkeys i).mpr (h.added_message i hi)
  · intro d i hd
    rw [heq] at hd
    exact (hkeys i).mpr (h.claimed_message d i hd)
  · rw [heq]; exact h.enqueued_added
  · rw [heq]; exact h.held
  · intro hu
    rw [heq] at hu
    rcases h.left hu with ⟨i, hi⟩ | ⟨i, hi⟩
    · exact Or.inl ⟨i, hi.updateMessage hf⟩
    · rw [heq]; exact Or.inr ⟨i, hi⟩

theorem Invariant.setDispatcher {state : DispatcherState} (h : w.Invariant)
    (hclaimed : ∀ m, state = .claimed m → m ∈ w.messages.keys)
    (henqueued : ∀ m, state = .enqueued m → m ∈ w.added) :
    (w.setDispatcher d state).Invariant where
  started := h.started
  jobs_added := h.jobs_added
  added_message := h.added_message
  claimed_message e m he := by
    by_cases hed : e = d
    · exact hclaimed m (by simpa [World.setDispatcher, hed] using he)
    · exact h.claimed_message e m (by simpa [World.setDispatcher, hed] using he)
  enqueued_added e m he := by
    by_cases hed : e = d
    · exact henqueued m (by simpa [World.setDispatcher, hed] using he)
    · exact h.enqueued_added e m (by simpa [World.setDispatcher, hed] using he)
  held := h.held
  left := h.left

theorem enqueueWorkflowExecution_of_mem (h : m ∈ w.added) : w.enqueueWorkflowExecution m = w := by
  simp [enqueueWorkflowExecution, h]

theorem mem_added_enqueue (w : World) (m : String) :
    m ∈ (w.enqueueWorkflowExecution m).added := by
  unfold enqueueWorkflowExecution
  split_ifs with hm
  · exact hm
  · simp [setJob]

/-- A job that waits is useful, and the others are as they were. -/
theorem Useful.setJob {i : String} {job : Job} (h : w.Useful i)
    (hself : i = j → ∀ a, job.worker = some a → w.workers a = .dead ∨ w.workers a = .working j ∨
      w.workers a = .throwing j ∧ job.lastAttempt = false) :
    (w.setJob j (some job)).Useful i := by
  by_cases hij : i = j
  · subst hij
    exact ⟨job, setJob_self w i _, hself rfl⟩
  · obtain ⟨old, hi, huse⟩ := h
    exact ⟨old, (setJob_of_ne w hij _).trans hi, huse⟩

theorem Useful.setWorker {i : String} {state : WorkerState} (h : w.Useful i)
    (hself : ∀ job, w.jobs i = some job → job.worker = some a →
      state = .dead ∨ state = .working i ∨ state = .throwing i ∧ job.lastAttempt = false) :
    (w.setWorker a state).Useful i := by
  obtain ⟨job, hi, huse⟩ := h
  refine ⟨job, hi, ?_⟩
  intro b hb
  by_cases hba : b = a
  · subst hba
    rw [setWorker_self]
    exact hself job hi hb
  · rw [setWorker_of_ne _ hba]
    exact huse b hb

theorem Useful.of_worker {i : String} {job : Job} (h : w.Useful i) (hi : w.jobs i = some job)
    (ha : job.worker = some a) :
    w.workers a = .dead ∨ w.workers a = .working i ∨
      w.workers a = .throwing i ∧ job.lastAttempt = false := by
  obtain ⟨job', hi', huse⟩ := h
  rw [hi] at hi'
  cases hi'
  exact huse a ha

/-- A message becomes a job that waits. -/
theorem Invariant.enqueue (h : w.Invariant) (hm : m ∈ w.messages.keys) :
    (w.enqueueWorkflowExecution m).Invariant := by
  by_cases hadded : m ∈ w.added
  · rw [enqueueWorkflowExecution_of_mem hadded]
    exact h
  rw [enqueueWorkflowExecution, if_neg hadded]
  constructor
  · intro i job a hi ha
    by_cases him : i = m
    · subst him
      cases (setJob_self _ _ _).symm.trans hi
      cases ha
    · exact h.started i job a ((setJob_of_ne _ him _).symm.trans hi) ha
  · intro i job hi
    by_cases him : i = m
    · simp [him, setJob]
    · rw [setJob_of_ne _ him] at hi
      exact List.mem_cons_of_mem _ (h.jobs_added i job hi)
  · intro i hi
    rcases List.mem_cons.mp hi with rfl | hi
    · exact hm
    · exact h.added_message i hi
  · exact h.claimed_message
  · intro d i hd
    exact List.mem_cons_of_mem _ (h.enqueued_added d i hd)
  · intro a i ha
    have huse : ({ w with added := m :: w.added } : World).Useful i := h.held a i ha
    exact huse.setJob (by rintro - b ⟨⟩)
  · intro _
    exact Or.inr ⟨m, ⟨0, none⟩, setJob_self _ _ _, by simp⟩

/-- A call that walked goes on to its end, and its job stays useful if that matters. -/
theorem Invariant.move {state : WorkerState} (h : w.Invariant) (ha : w.workers a = .working j)
    (hstate : state = .returning j ∨ state = .throwing j)
    (hleft : w.unfinished → ∀ job, w.locks a job →
      state = .throwing j ∧ job.lastAttempt = false) :
    (w.setWorker a state).Invariant := by
  refine h.keep rfl rfl rfl ?_ id ?_ ?_
  · intro i job hi
    refine ⟨⟨job, hi⟩, ?_⟩
    intro b hb
    by_cases hba : b = a
    · subst hba
      rw [setWorker_self]
      rcases hstate with rfl | rfl <;> simp
    · rw [setWorker_of_ne _ hba]
      exact h.started i job b hi hb
  · rintro b i ⟨hr, hb, hw⟩
    by_cases hba : b = a
    · subst hba
      rw [setWorker_self] at hw
      rcases hstate with rfl | rfl <;> cases hw
    · rw [setWorker_of_ne _ hba] at hw
      exact ⟨hr, hb, hw⟩
  · intro hu i huse
    refine huse.setWorker ?_
    intro job hi hwa
    have hij : i = j := by
      rcases huse.of_worker hi hwa with hs | hs | ⟨hs, _⟩ <;> rw [ha] at hs <;> cases hs
      rfl
    subst hij
    exact Or.inr (Or.inr (hleft hu job ⟨i, ha, hi, hwa⟩))

/-- A process that dies leaves its job to the next one. -/
theorem Invariant.crash (h : w.Invariant) : (w.setWorker a .dead).Invariant := by
  refine h.keep rfl rfl rfl ?_ id ?_ ?_
  · intro i job hi
    refine ⟨⟨job, hi⟩, ?_⟩
    intro b hb
    by_cases hba : b = a
    · simp [hba]
    · rw [setWorker_of_ne _ hba]
      exact h.started i job b hi hb
  · rintro b i ⟨hr, hb, hw⟩
    by_cases hba : b = a
    · simp [hba] at hw
    · rw [setWorker_of_ne _ hba] at hw
      exact ⟨hr, hb, hw⟩
  · exact fun _ i huse => huse.setWorker fun _ _ _ => Or.inl rfl

/-- The lock of a job runs out, whatever its worker does. -/
theorem Invariant.stall {job : Job} (h : w.Invariant) (hj : w.jobs j = some job) :
    (w.setJob j (some { job with worker := none })).Invariant := by
  refine h.keep rfl rfl rfl ?_ id (fun _ _ ha => ha) ?_
  · intro i job' hi
    by_cases hij : i = j
    · subst hij
      cases (setJob_self _ _ _).symm.trans hi
      exact ⟨⟨job, hj⟩, by rintro a ⟨⟩⟩
    · rw [setJob_of_ne _ hij] at hi
      exact ⟨⟨job', hi⟩, fun b => h.started i job' b hi⟩
  · exact fun _ i huse => huse.setJob (by rintro - a ⟨⟩)

/-- The queue drops the job of a call that ended, or lets it wait for its next attempt. -/
theorem Invariant.release {next : Job → Option Job} (h : w.Invariant)
    (ha : w.workers a = .returning j ∨ w.workers a = .throwing j)
    (hnext : ∀ job job', next job = some job' → job'.worker = none)
    (hdrop : ∀ job, next job = none → w.workers a = .throwing j → job.lastAttempt = true) :
    ((w.release a j next).setWorker a .gone).Invariant := by
  -- only a call that throws with attempts left has a useful job
  have hthrowing : ∀ i job, w.Useful i → w.jobs i = some job → job.worker = some a →
      i = j ∧ w.workers a = .throwing j ∧ job.lastAttempt = false := by
    intro i job huse hi hwa
    rcases huse.of_worker hi hwa with hs | hs | ⟨hs, hlast⟩
    · rcases ha with ha | ha <;> rw [hs] at ha <;> cases ha
    · rcases ha with ha | ha <;> rw [hs] at ha <;> cases ha
    · rcases ha with ha | ha
      · rw [hs] at ha; cases ha
      · rw [hs] at ha
        cases ha
        exact ⟨rfl, hs, hlast⟩
  have hworkers : (w.release a j next).workers = w.workers := by
    unfold World.release
    split
    · split_ifs <;> rfl
    · rfl
  have hrest : ∃ jobs, w.release a j next = { w with jobs := jobs } := by
    unfold World.release
    split
    · split_ifs
      · exact ⟨_, rfl⟩
      · exact ⟨w.jobs, rfl⟩
    · exact ⟨w.jobs, rfl⟩
  obtain ⟨jobs, hrest⟩ := hrest
  have hjobs : ∀ i job, jobs i = some job → (∃ old, w.jobs i = some old) ∧
      ∀ b, job.worker = some b → b ≠ a → w.workers b ≠ .unstarted := by
    intro i job hi
    have hi' : (w.release a j next).jobs i = some job := by rw [hrest]; exact hi
    unfold World.release at hi'
    split at hi'
    · rename_i old hold
      split_ifs at hi' with hlock
      · by_cases hij : i = j
        · subst hij
          rw [setJob_self] at hi'
          refine ⟨⟨old, hold⟩, ?_⟩
          intro b hb
          rw [hnext old job hi'] at hb
          cases hb
        · rw [setJob_of_ne _ hij] at hi'
          exact ⟨⟨job, hi'⟩, fun b hb _ => h.started i job b hi' hb⟩
      · exact ⟨⟨job, hi'⟩, fun b hb _ => h.started i job b hi' hb⟩
    · exact ⟨⟨job, hi'⟩, fun b hb _ => h.started i job b hi' hb⟩
  refine h.keep (by rw [hrest]; rfl) (by rw [hrest]; rfl) (by rw [hrest]; rfl) ?_
    (by rw [hrest]; exact id) ?_ ?_
  · intro i job hi
    rw [hrest] at hi
    obtain ⟨hold, hstarted⟩ := hjobs i job hi
    refine ⟨hold, ?_⟩
    intro b hb
    by_cases hba : b = a
    · simp [hba]
    · rw [setWorker_of_ne _ hba, hworkers]
      exact hstarted b hb hba
  · rintro b i ⟨hr, hb, hw⟩
    by_cases hba : b = a
    · simp [hba] at hw
    · rw [setWorker_of_ne _ hba, hworkers] at hw
      rw [hrest] at hr hb
      exact ⟨hr, hb, hw⟩
  · intro _ i huse
    unfold World.release
    split
    · rename_i job hj
      split_ifs with hlock
      · by_cases hij : i = j
        · subst hij
          obtain ⟨_, hthrows, hlast⟩ := hthrowing i job huse hj hlock
          cases hn : next job with
          | none =>
            rw [hdrop job hn hthrows] at hlast
            cases hlast
          | some job' =>
            refine ⟨job', setJob_self w i _, ?_⟩
            intro b hb
            rw [hnext job job' hn] at hb
            cases hb
        · obtain ⟨job', hi, huse'⟩ := huse
          have hother : job'.worker ≠ some a := by
            intro hwa
            exact hij (hthrowing i job' ⟨job', hi, huse'⟩ hi hwa).1
          refine ⟨job', (setJob_of_ne w hij _).trans hi, ?_⟩
          intro b hb
          have hba : b ≠ a := by
            rintro rfl
            exact hother hb
          rw [setWorker_of_ne _ hba]
          exact huse' b hb
      · refine huse.setWorker ?_
        intro job' hi hwa
        obtain ⟨rfl, _⟩ := hthrowing i job' huse hi hwa
        rw [hj] at hi
        cases hi
        exact absurd hwa hlock
    · rename_i hj
      refine huse.setWorker ?_
      intro job' hi hwa
      obtain ⟨rfl, _⟩ := hthrowing i job' huse hi hwa
      rw [hj] at hi
      cases hi

/-- A job that waits goes to a new call. -/
theorem Invariant.hand {job : Job} {e : Execution} {state : WorkerState} (h : w.Invariant)
    (hj : w.jobs j = some job) (hstate : state ≠ .unstarted)
    (hheld : ∀ b i, (({ w.setJob j (some { job with worker := some a }) with
      execution := e }).setWorker a state).Holds b i → (({ w.setJob j (some { job with
        worker := some a }) with execution := e }).setWorker a state).Useful i)
    (hleft : e.status = .queued ∨ e.status = .running →
      ∃ i, (({ w.setJob j (some { job with worker := some a }) with execution := e }).setWorker a
        state).Useful i) :
    (({ w.setJob j (some { job with worker := some a }) with execution := e }).setWorker a
      state).Invariant where
  started i job' b hi hb := by
    by_cases hba : b = a
    · rw [hba, setWorker_self]
      exact hstate
    · rw [setWorker_of_ne _ hba]
      by_cases hij : i = j
      · subst hij
        cases (setJob_self w i _).symm.trans hi
        exact absurd (Option.some.inj hb).symm hba
      · exact h.started i job' b ((setJob_of_ne w hij _).symm.trans hi) hb
  jobs_added i job' hi := by
    by_cases hij : i = j
    · subst hij
      exact h.jobs_added i job hj
    · exact h.jobs_added i job' ((setJob_of_ne w hij _).symm.trans hi)
  added_message := h.added_message
  claimed_message := h.claimed_message
  enqueued_added := h.enqueued_added
  held := hheld
  left hu := Or.inr (hleft hu)

/-- A new call takes no use from the other jobs. -/
theorem Useful.hand {i : String} {job : Job} {e : Execution} {state : WorkerState}
    (hinv : w.Invariant) (h : w.Useful i) (hij : i ≠ j) (ha : w.workers a = .unstarted) :
    (({ w.setJob j (some { job with worker := some a }) with execution := e }).setWorker a
      state).Useful i := by
  obtain ⟨job', hi, huse⟩ := h
  refine ⟨job', (setJob_of_ne w hij _).trans hi, ?_⟩
  intro b hb
  have hba : b ≠ a := by
    rintro rfl
    exact hinv.started i job' b hi hb ha
  rw [setWorker_of_ne _ hba]
  exact huse b hb

/-- A delivered job claims the execution, throws, or is skipped because the holder walks for
another one. -/
theorem Invariant.deliver {job : Job} {leaseExpiresAt : ℕ} {threw : Bool} (h : w.Invariant)
    (hok : w.Sound (.deliver j a leaseExpiresAt threw)) (hj : w.jobs j = some job)
    (ha : w.workers a = .unstarted) :
    ((w.setJob j (some { job with worker := some a })).process j a leaseExpiresAt
      threw).Invariant := by
  unfold process
  cases threw with
  | true =>
    have huse : w.unfinished → ((w.setJob j (some { job with worker := some a })).setWorker a
        (.throwing j)).Useful j := by
      intro hu
      refine ⟨_, setJob_self w j _, ?_⟩
      rintro b ⟨rfl⟩
      exact Or.inr (Or.inr ⟨setWorker_self _ _ _, hok hu job hj⟩)
    refine h.hand (e := w.execution) hj (by simp) ?_ (fun hu => ⟨j, huse hu⟩)
    rintro b i ⟨hr, hb, hw⟩
    by_cases hij : i = j
    · subst hij
      exact huse (Or.inr hr)
    · have hba : b ≠ a := by
        rintro rfl
        rw [setWorker_self] at hw
        cases hw
      rw [setWorker_of_ne _ hba] at hw
      exact Useful.hand h (h.held b i ⟨hr, hb, hw⟩) hij ha
  | false =>
    simp only [Bool.false_eq_true, if_false]
    split
    · rename_i e he
      obtain ⟨_, rfl⟩ := Execution.startExecution_some he
      have huse : (({ w.setJob j (some { job with worker := some a }) with
          execution := { w.execution with
            status := .running, leasedBy := some a, leaseExpiresAt := some leaseExpiresAt,
            startedAt := some w.clock } }).setWorker a (.working j)).Useful j := by
        refine ⟨_, setJob_self w j _, ?_⟩
        rintro b ⟨rfl⟩
        exact Or.inr (Or.inl (setWorker_self _ _ _))
      refine h.hand hj (by simp) ?_ (fun _ => ⟨j, huse⟩)
      rintro b i ⟨_, hb, hw⟩
      cases hb
      cases (setWorker_self _ _ _).symm.trans hw
      exact huse
    · rename_i he
      -- a queued execution is claimable, so this one runs under a lease that has not run out
      have hskipped : w.unfinished → w.execution.status = .running ∧
          w.execution.leaseExpired w.clock = false := by
        intro hu
        have hno : ¬ (w.execution.status = .queued ∨
            w.execution.status = .running ∧ w.execution.leaseExpired w.clock = true) := by
          intro hyes
          have : w.execution.startExecution w.clock a leaseExpiresAt = none := he
          rw [Execution.startExecution, if_pos hyes] at this
          cases this
        rcases hu with hq | hr
        · exact absurd (Or.inl hq) hno
        · refine ⟨hr, Bool.eq_false_iff.mpr ?_⟩
          intro hx
          exact hno (Or.inr ⟨hr, hx⟩)
      refine h.hand (e := w.execution) hj (by simp) ?_ ?_
      · rintro b i ⟨hr, hb, hw⟩
        have hba : b ≠ a := by
          rintro rfl
          rw [setWorker_self] at hw
          cases hw
        rw [setWorker_of_ne _ hba] at hw
        obtain ⟨c, k, hkj, hc, hholder⟩ := hok hr (hskipped (Or.inr hr)).2
        have hbc : c = b := Option.some.inj (hholder.symm.trans hb)
        subst hbc
        have hik : i = k := by
          have heq : WorkerState.working i = .working k := hw.symm.trans hc
          cases heq
          rfl
        exact Useful.hand h (h.held c i ⟨hr, hb, hw⟩) (hik ▸ hkj) ha
      · intro hu
        obtain ⟨hr, hx⟩ := hskipped hu
        obtain ⟨c, k, hkj, hc, hholder⟩ := hok hr hx
        exact ⟨k, Useful.hand h (h.held c k ⟨hr, hholder, hc⟩) hkj ha⟩

theorem not_terminal_of_unfinished (h : w.unfinished) : w.execution.status ∉ terminalStatuses := by
  rcases h with h | h <;> rw [h] <;> decide

/-- A completion under the lease ends the execution. -/
theorem tryComplete_finished (w : World) (a : String) (input : CompleteExecutionInput)
    (h : w.unfinished → w.execution.isLeaseValid w.clock a = true) :
    ¬ (w.tryComplete a input).unfinished := by
  intro hu
  unfold tryComplete at hu
  split at hu
  · rename_i e event he
    obtain ⟨_, rfl, _⟩ := Execution.completeExecution_some he
    have hterminal := input.allowed
    rcases hu with hu | hu <;> simp only at hu <;> rw [hu] at hterminal <;>
      exact absurd hterminal (by decide)
  · rename_i he
    have := h hu
    simp [Execution.completeExecution, this, not_terminal_of_unfinished hu] at he

theorem tryComplete_eq (w : World) (a : String) (input : CompleteExecutionInput) :
    w.tryComplete a input = { w with execution := (w.tryComplete a input).execution } := by
  unfold tryComplete
  split <;> rfl

theorem tryComplete_of_unfinished {input : CompleteExecutionInput}
    (h : (w.tryComplete a input).unfinished) : w.tryComplete a input = w := by
  unfold tryComplete at h ⊢
  split at h
  · rename_i e event he
    obtain ⟨_, rfl, _⟩ := Execution.completeExecution_some he
    have hterminal := input.allowed
    rcases h with h | h <;> simp only at h <;> rw [h] at hterminal <;>
      exact absurd hterminal (by decide)
  · rfl

theorem Invariant.tryComplete {input : CompleteExecutionInput} (h : w.Invariant) :
    (w.tryComplete a input).Invariant := by
  rw [tryComplete_eq]
  refine h.row _ w.clock ?_ ?_
  · intro hu
    have heq : w.tryComplete a input = w := tryComplete_of_unfinished hu
    rw [heq] at hu
    exact hu
  · intro hr
    have heq : w.tryComplete a input = w := tryComplete_of_unfinished (Or.inr hr)
    rw [heq] at hr ⊢
    exact ⟨hr, rfl⟩

theorem left_recordFailure (old : OutboxMessage) (now : ℕ) (h : old.left = true) :
    (old.recordFailure now d).left = true := by
  unfold OutboxMessage.recordFailure
  split_ifs
  · simp [OutboxMessage.left]
  · exact h

theorem Invariant.step {act : Act} (h : w.Invariant) (hok : w.Sound act)
    (hs : w.step act = some w') : w'.Invariant := by
  cases act with
  | tick elapsed =>
    cases hs
    exact h.row _ _ id fun hr => ⟨hr, rfl⟩
  | requeue m =>
    simp only [World.step] at hs
    split_ifs at hs with hm
    obtain ⟨e, he, rfl⟩ := Option.map_eq_some_iff.mp hs
    have hfresh : m ∉ w.added := fun hadded => hm (h.added_message m hadded)
    have hqueued := Execution.requeue_some he
    refine ⟨h.started, h.jobs_added, ?_, ?_, h.enqueued_added, ?_, ?_⟩
    · intro i hi
      exact OrderedMap.mem_keys_set.mpr (Or.inr (h.added_message i hi))
    · intro d i hd
      exact OrderedMap.mem_keys_set.mpr (Or.inr (h.claimed_message d i hd))
    · rintro b i ⟨hr, _⟩
      obtain ⟨_, rfl⟩ := hqueued
      cases hr
    · intro _
      exact Or.inl ⟨m, hfresh, _, OrderedMap.get?_set_self _ _ _, rfl⟩
  | cancel environmentId =>
    obtain ⟨e, he, rfl⟩ := Option.map_eq_some_iff.mp hs
    obtain ⟨_, rfl⟩ := Execution.cancelExecution_some he
    refine h.row _ w.clock ?_ ?_
    · rintro (hu | hu) <;> cases hu
    · rintro ⟨⟩
  | claimMessage d m =>
    simp only [World.step] at hs
    split at hs
    · rename_i message hd hm
      split_ifs at hs
      cases hs
      refine Invariant.setDispatcher (h.updateMessage ?_) ?_ ?_
      · intro _ old _
        rfl
      · intro i hi
        cases hi
        exact (keys_updateMessage w m _ m).mpr (OrderedMap.mem_keys_iff.mpr ⟨_, hm⟩)
      · intro i hi
        cases hi
    · cases hs
  | enqueue d =>
    simp only [World.step] at hs
    split at hs
    · rename_i m hd
      cases hs
      refine Invariant.setDispatcher (h.enqueue (h.claimed_message d m hd)) ?_ ?_
      · intro i hi
        cases hi
      · intro i hi
        cases hi
        exact mem_added_enqueue w m
    · cases hs
  | markPublished d =>
    simp only [World.step] at hs
    split at hs
    · rename_i m hd
      cases hs
      refine Invariant.setDispatcher (h.updateMessage ?_) ?_ ?_
      · intro hm
        exact absurd (h.enqueued_added d m hd) hm
      · intro i hi
        cases hi
      · intro i hi
        cases hi
    · cases hs
  | recordFailure d =>
    have hfailed : ∀ m, ((w.updateMessage m fun old => old.recordFailure w.clock d).setDispatcher d
        .polling).Invariant := by
      intro m
      refine Invariant.setDispatcher (h.updateMessage ?_) ?_ ?_
      · intro _ old hold
        exact left_recordFailure old w.clock hold
      · intro i hi
        cases hi
      · intro i hi
        cases hi
    simp only [World.step] at hs
    split at hs
    · cases hs
    · cases hs
      exact hfailed _
    · cases hs
      exact hfailed _
  | stopDispatcher d =>
    cases hs
    refine h.setDispatcher ?_ ?_ <;> intro i hi <;> cases hi
  | stall j =>
    obtain ⟨job, hj, rfl⟩ := Option.map_eq_some_iff.mp hs
    exact h.stall hj
  | deliver j a leaseExpiresAt threw =>
    simp only [World.step] at hs
    split at hs
    · rename_i job hj ha
      split_ifs at hs with hd
      cases hs
      exact h.deliver hok hj ha
    · cases hs
  | renew a leaseExpiresAt =>
    obtain ⟨e, he, rfl⟩ := Option.map_eq_some_iff.mp hs
    obtain ⟨⟨hr, _⟩, rfl⟩ := Execution.renewLease_some he
    exact h.row _ w.clock (fun _ => Or.inr hr) fun _ => ⟨hr, rfl⟩
  | pause a =>
    simp only [World.step] at hs
    split at hs
    · rename_i j ha
      split at hs
      · rename_i e he
        cases hs
        obtain ⟨_, rfl⟩ := Execution.pauseExecution_some he
        refine Invariant.move (h.row _ w.clock ?_ ?_) ha (Or.inl rfl) ?_
        · rintro (hu | hu) <;> cases hu
        · rintro ⟨⟩
        · rintro (hu | hu) <;> cases hu
      · rename_i he
        cases hs
        refine h.move ha (Or.inr rfl) ?_
        intro hu job hlocks
        refine ⟨rfl, Bool.eq_false_iff.mpr ?_⟩
        intro hlast
        -- under its lease the pause would have been recorded
        have hvalid := hok hu job hlocks hlast
        simp [Execution.pauseExecution, hvalid, not_terminal_of_unfinished hu] at he
    · cases hs
  | complete a input =>
    simp only [World.step] at hs
    split at hs
    · rename_i j ha
      cases hs
      refine h.tryComplete.move (by rw [tryComplete_eq]; exact ha) (Or.inl rfl) ?_
      intro hu job hlocks
      have heq := tryComplete_of_unfinished hu
      rw [heq] at hlocks
      refine absurd hu (tryComplete_finished w a input ?_)
      intro hu'
      exact hok hu' job hlocks
    · cases hs
  | fail a message recorded =>
    simp only [World.step] at hs
    split at hs
    · rename_i j ha
      cases hs
      cases recorded with
      | true =>
        refine h.tryComplete.move (by rw [tryComplete_eq]; exact ha) (Or.inr rfl) ?_
        intro hu job hlocks
        have heq := tryComplete_of_unfinished hu
        rw [heq] at hlocks
        refine ⟨rfl, Bool.eq_false_iff.mpr ?_⟩
        intro hlast
        refine tryComplete_finished w a _ ?_ hu
        intro hu'
        exact (hok hu' job hlocks hlast).2
      | false =>
        refine h.move ha (Or.inr rfl) ?_
        intro hu job hlocks
        refine ⟨rfl, Bool.eq_false_iff.mpr ?_⟩
        intro hlast
        cases (hok hu job hlocks hlast).1
    · cases hs
  | finish a =>
    simp only [World.step] at hs
    split at hs
    · rename_i j ha
      cases hs
      refine h.release (Or.inl ha) ?_ ?_
      · rintro job job' ⟨⟩
      · intro job _ hthrows
        rw [ha] at hthrows
        cases hthrows
    · rename_i j ha
      cases hs
      refine h.release (Or.inr ha) ?_ ?_
      · intro job job' hnext
        unfold Job.retried at hnext
        split_ifs at hnext
        cases hnext
        rfl
      · intro job hnext _
        unfold Job.retried at hnext
        split_ifs at hnext with hlast
        exact hlast
    · cases hs
  | crash a =>
    simp only [World.step] at hs
    split at hs
    · cases hs
    · cases hs
    · cases hs
      exact h.crash

theorem invariant_of_created (h : Created w) : w.Invariant := by
  obtain ⟨m, now, hm⟩ := h.message
  refine ⟨?_, ?_, ?_, ?_, ?_, ?_, ?_⟩
  · intro j job a hj
    rw [h.jobs] at hj
    cases hj
  · intro j job hj
    rw [h.jobs] at hj
    cases hj
  · simp [h.added]
  · intro d i hd
    rw [h.dispatchers] at hd
    cases hd
  · intro d i hd
    rw [h.dispatchers] at hd
    cases hd
  · rintro a j ⟨_, _, ha⟩
    rw [h.workers] at ha
    cases ha
  · intro _
    refine Or.inl ⟨m, by simp [h.added], createWorkflowExecutionMessage now, ?_, rfl⟩
    rw [hm, OrderedMap.get?_set_self]

theorem Invariant.not_orphaned (h : w.Invariant) : ¬ w.Orphaned := by
  rintro ⟨hu, _, hmessages, hjobs⟩
  rcases h.left hu with ⟨m, _, message, hm, hleft⟩ | ⟨j, job, hj, _⟩
  · rw [hmessages m message hm] at hleft
    cases hleft
  · rw [hjobs] at hj
    cases hj

end World

/-- While every step is sound, no reachable state has an execution that nothing will run. -/
theorem execution_not_orphaned {w : World} (h : Reachable World.Sound w) : ¬ w.Orphaned := by
  have hinv : w.Invariant := by
    induction h with
    | created h => exact World.invariant_of_created h
    | step _ hok hs ih => exact ih.step hok hs
  exact hinv.not_orphaned

/-- Steps that cannot be taken are left out. -/
def World.run (w : World) (acts : List Act) : World :=
  acts.foldl (fun w act => (w.step act).getD w) w

def AllowedRun (allowed : World → Act → Prop) : World → List Act → Prop
  | _, [] => True
  | w, act :: acts => allowed w act ∧ AllowedRun allowed ((w.step act).getD w) acts

theorem Reachable.run {allowed : World → Act → Prop} {w : World} {acts : List Act}
    (h : Reachable allowed w) (hok : AllowedRun allowed w acts) :
    Reachable allowed (w.run acts) := by
  induction acts generalizing w with
  | nil => exact h
  | cons act acts ih =>
    obtain ⟨hact, hrest⟩ := hok
    rw [World.run, List.foldl_cons]
    cases hs : w.step act with
    | none =>
      rw [hs] at hrest
      exact ih h hrest
    | some w' =>
      rw [hs] at hrest
      exact ih (.step h hact hs) hrest

def createdExecution : Execution :=
  ⟨"e", "w", some "env", none, none, .queued, none, none, none, none, none⟩

def createdWorld : World :=
  ⟨0, createdExecution, OrderedMap.empty.set "m" (createWorkflowExecutionMessage 0), [],
    fun _ => none, fun _ => .unstarted, fun _ => .polling⟩

theorem created_createdWorld : Created createdWorld :=
  ⟨rfl, ⟨"m", 0, rfl⟩, rfl, fun _ => rfl, fun _ => rfl, fun _ => rfl⟩

def dispatched : List Act := [.claimMessage "d" "m", .enqueue "d", .markPublished "d"]

/-- The lock of a living worker runs out with its lease, and the job comes back after it; the first
worker's return then drops nothing. -/
def redeliveredLate : List Act :=
  dispatched ++ [.deliver "m" "a" 30 false, .stall "m", .tick 40, .deliver "m" "b" 70 false,
    .fail "a" "lease lost" false, .finish "a"]

theorem execution_not_orphaned_redeliveredLate :
    (createdWorld.run redeliveredLate).execution.leasedBy = some "b" ∧
      ¬ (createdWorld.run redeliveredLate).Orphaned := by
  refine ⟨rfl, execution_not_orphaned ((Reachable.created created_createdWorld).run ?_)⟩
  refine ⟨trivial, trivial, trivial, ?_, trivial, trivial, ?_, ?_, trivial, trivial⟩
  · intro hr
    cases hr
  · intro _ hx
    exact absurd hx (by decide)
  · rintro _ job ⟨j, hw, hj, hlock⟩
    cases hw
    cases hj
    exact absurd hlock (by decide)

/-- The job comes back before the dead worker's lease ran out: it is skipped, and nothing is left
that would claim the execution once the lease has run out. -/
def redeliveredEarly : List Act :=
  dispatched ++ [.deliver "m" "a" 30 false, .crash "a", .stall "m", .deliver "m" "b" 60 false,
    .finish "b", .tick 40]

theorem execution_orphaned_redeliveredEarly : ∃ w, Reachable (fun _ _ => True) w ∧ w.Orphaned := by
  refine ⟨createdWorld.run redeliveredEarly, (Reachable.created created_createdWorld).run ?_,
    Or.inr rfl, ?_, ?_, ?_⟩
  · exact ⟨trivial, trivial, trivial, trivial, trivial, trivial, trivial, trivial, trivial, trivial⟩
  · intro a _
    have hexpiry : (createdWorld.run redeliveredEarly).execution.leaseExpiresAt = some 30 := rfl
    have hclock : (createdWorld.run redeliveredEarly).clock = 40 := rfl
    simp [Execution.isLeaseValid, hexpiry, hclock]
  · intro m message hm
    have hmessages : (createdWorld.run redeliveredEarly).messages.entries =
        [("m", ⟨.published, 1, 0, none, none⟩)] := rfl
    have hmem := OrderedMap.mem_of_get? hm
    rw [hmessages] at hmem
    simp only [List.mem_singleton, Prod.mk.injEq] at hmem
    rw [hmem.2]
    rfl
  · intro j
    by_cases hj : j = "m"
    · subst hj
      rfl
    · -- the job was written by the enqueue, the two deliveries, the stall and the second call's end
      change (if j = "m" then none else if j = "m" then some _ else if j = "m" then some _ else
        if j = "m" then some _ else if j = "m" then some _ else none) = none
      simp only [if_neg hj]

end Linea.Delivery
