import Linea.WorkerRows

/-! The reply of a chat turn. After a walk that completed, `RunsService.execute` calls
`completeExecution` and then stores the assistant's message, whatever that call answered. The
system is the worker's, with the attempts that still have to store a reply. -/
namespace Linea.Worker.Chat
open Walker

inductive ChatMessageRole
  | user
  | assistant
  deriving DecidableEq, Repr

structure ChatMessage where
  workspaceId : String
  conversationId : String
  executionId : String
  respondsToMessageId : String
  role : ChatMessageRole
  content : String
  deriving DecidableEq, Repr

/-- A string field of the trigger payload; `""` is as good as none. -/
def payloadString (key : String) (payload : Value) : Option String :=
  match payload with
  | .object fields =>
    match Value.field fields key with
    | .string s => if s = "" then none else some s
    | _ => none
  | _ => none

def extractConversationId : Value → Option String := payloadString "conversationId"

def extractChatMessageId : Value → Option String := payloadString "chatMessageId"

/-- The text of the `ai` node that completed last, and has one. -/
def extractAssistantReply (completed : CompletedMap) (g : WorkflowGraph) : Option String :=
  let aiNodeIds := (g.nodes.filter fun node => node.type = .ai).map WorkflowNode.id
  completed.entries.reverse.findSome? fun entry =>
    if entry.1 ∈ aiNodeIds then
      match entry.2 with
      | .object fields =>
        match Value.field fields "text" with
        | .string text => some text
        | _ => none
      | _ => none
    else none

/-- A stored message with the attempt that stored it. -/
structure Reply where
  attemptId : String
  message : ChatMessage
  deriving DecidableEq, Repr

/-- `outcome` is what an attempt's walk has returned, `due` marks the attempts between their call
of `completeExecution` and the reply, and `succeededBy` the attempt that set the status. -/
structure Turn where
  worker : System
  outcome : String → CompletedMap
  due : String → Bool
  succeededBy : Option String
  replies : List Reply

inductive TurnAct
  | work (act : Act)
  | reply (attemptId : String) (stored : Bool)

/-- The completed map with which the walk returns when it does so from this phase. -/
def returnedMap : Phase → Option CompletedMap
  | .loaded l => some l.resumeFrom
  | .pausing l _ => some l.resumeFrom
  | .recording _ p output _ => some (p.completed.set p.step.nodeId output)
  | _ => none

/-- The attempt that calls `completeExecution` for a completed walk. -/
def completes (s : System) : Act → Option String
  | .complete a false =>
    match s.phase a with
    | .completing .completed => some a
    | _ => none
  | _ => none

def crashes : Act → Option String
  | .crash a => some a
  | _ => none

section Turns
variable [Columns] (g : WorkflowGraph) (payload : Value) (userMessages : String → List String)

/-- The message to store, if the turn it answers is a user's turn of the conversation. -/
def assistantMessage (e : Execution) (completed : CompletedMap) : Option ChatMessage :=
  match extractConversationId payload with
  | none => none
  | some conversationId =>
    match extractAssistantReply completed g, extractChatMessageId payload with
    | some reply, some chatMessageId =>
      if reply ≠ "" ∧ chatMessageId ∈ userMessages conversationId then
        some ⟨e.workspaceId, conversationId, e.id, chatMessageId, .assistant, reply⟩
      else none
    | _, _ => none

def afterWork (t : Turn) (act : Act) (w : System) : Turn where
  worker := w
  outcome := fun a =>
    match w.phase a, returnedMap (t.worker.phase a) with
    | .completing _, some completed => completed
    | _, _ => t.outcome a
  due := fun a => completes t.worker act = some a || t.due a && crashes act ≠ some a
  succeededBy :=
    if t.worker.record.execution.status ≠ .succeeded ∧ w.record.execution.status = .succeeded then
      completes t.worker act
    else t.succeededBy
  replies := t.replies

/-- The insert may fail; the failure is only logged. -/
def storedReply (t : Turn) (a : String) (stored : Bool) : Option Reply :=
  if stored then
    (assistantMessage g payload userMessages t.worker.record.execution (t.outcome a)).map
      fun message => ⟨a, message⟩
  else none

def turnStep (t : Turn) : TurnAct → Option Turn
  | .work act => (step g payload t.worker act).map (afterWork t act)
  | .reply a stored =>
    if t.due a then
      some { t with
        due := fun b => b ≠ a && t.due b
        replies := t.replies ++ (storedReply g payload userMessages t a stored).toList }
    else none

def opened (s : System) : Turn := ⟨s, fun _ => OrderedMap.empty, fun _ => false, none, []⟩

/-- States reached by runs all of whose steps are allowed. -/
inductive TurnReachable (allowed : Turn → TurnAct → Prop) : Turn → Prop
  | start (clock : ℕ) (id workspaceId : String)
      (environmentId externalSubjectRecordId conversationId : Option String) :
      TurnReachable allowed (opened
        (initial clock id workspaceId environmentId externalSubjectRecordId conversationId))
  | step {t t' : Turn} {act : TurnAct} (before : TurnReachable allowed t) (ok : allowed t act)
      (taken : turnStep g payload userMessages t act = some t') : TurnReachable allowed t'

def turnRun (t : Turn) (acts : List TurnAct) : Turn :=
  acts.foldl (fun t act => (turnStep g payload userMessages t act).getD t) t

/-- Every step of the run is allowed where it is taken. -/
def TurnAllowed (allowed : Turn → TurnAct → Prop) : Turn → List TurnAct → Prop
  | _, [] => True
  | t, act :: acts =>
    allowed t act ∧ TurnAllowed allowed ((turnStep g payload userMessages t act).getD t) acts

end Turns

/-- One reply at most, stored by the attempt through which the execution succeeded. -/
def OneReply (t : Turn) : Prop :=
  t.replies.length ≤ 1 ∧ ∀ r ∈ t.replies,
    t.worker.record.execution.status = .succeeded ∧ t.succeededBy = some r.attemptId

/-- Whoever reports a completed walk holds a lease that has not run out, on an execution that has
not ended. -/
def CompletionCounts (t : Turn) : TurnAct → Prop
  | .work act => ∀ a, completes t.worker act = some a →
      t.worker.record.execution.isLeaseValid t.worker.clock a = true ∧
        t.worker.record.execution.status ∉ terminalStatuses
  | .reply _ _ => True

variable {g : WorkflowGraph} {payload : Value} {userMessages : String → List String} {t t' : Turn}
  {act : TurnAct}

structure TurnInv (t : Turn) : Prop where
  due : ∀ a, t.due a = true → t.succeededBy = some a ∧ t.replies = []
  replies : ∀ r ∈ t.replies, t.succeededBy = some r.attemptId
  one : t.replies.length ≤ 1
  succeeded : t.succeededBy.isSome → t.worker.record.execution.status = .succeeded

/-- A completion that counts sets the status. -/
theorem complete_succeeds [Columns] {s s' : System} {act : Act} {a : String}
    (hc : completes s act = some a) (h : step g payload s act = some s')
    (hl : s.record.execution.isLeaseValid s.clock a = true)
    (ht : s.record.execution.status ∉ terminalStatuses) :
    s'.record.execution.status = .succeeded := by
  unfold completes at hc
  split at hc
  · rename_i b
    split at hc
    · rename_i hph
      obtain rfl := Option.some.inj hc
      simp only [step, hph, Bool.false_eq_true, if_false, Option.some.injEq] at h
      obtain ⟨record, hrec, done⟩ := tryComplete_spec s b (completionInput .completed)
      rw [hrec] at h
      subst h
      have := done.status
      rw [if_pos ⟨hl, ht⟩] at this
      exact this
    · cases hc
  · cases hc

theorem TurnInv.work [Columns] {w : System} {act : Act} (inv : TurnInv t)
    (ok : CompletionCounts t (.work act)) (h : step g payload t.worker act = some w) :
    TurnInv (afterWork t act w) := by
  by_cases hold : t.worker.record.execution.status = .succeeded
  · -- the row is final: nobody else completes, and what is due stays due
    have hrow : w.record.execution = t.worker.record.execution :=
      (step_row h).terminal (by rw [hold]; decide)
    have hnone : ∀ a, completes t.worker act ≠ some a := fun a hc =>
      (ok a hc).2 (by rw [hold]; decide)
    have hby : (afterWork t act w).succeededBy = t.succeededBy :=
      if_neg fun h => h.1 hold
    refine ⟨fun a ha => ?_, ?_, inv.one, fun _ => ?_⟩
    · have hd : t.due a = true := by
        simp only [afterWork, hnone, decide_false, Bool.false_or, Bool.and_eq_true] at ha
        exact ha.1
      rw [hby]
      exact inv.due a hd
    · rw [hby]
      exact inv.replies
    · change w.record.execution.status = _
      rw [hrow, hold]
  · have hnobody : t.succeededBy = none := by
      cases hs : t.succeededBy with
      | none => rfl
      | some a => exact absurd (inv.succeeded (by rw [hs]; rfl)) hold
    have hnil : t.replies = [] := by
      refine List.eq_nil_iff_forall_not_mem.mpr fun r hr => ?_
      have := inv.replies r hr
      rw [hnobody] at this
      cases this
    have hidle : ∀ a, t.due a ≠ true := fun a ha => by
      have := (inv.due a ha).1
      rw [hnobody] at this
      cases this
    have hnew : ∀ a, completes t.worker act = some a →
        (afterWork t act w).succeededBy = some a := by
      intro a hc
      have hw := complete_succeeds hc h (ok a hc).1 (ok a hc).2
      exact (if_pos ⟨hold, hw⟩).trans hc
    refine ⟨fun a ha => ?_, fun r hr => ?_, ?_, fun hsome => ?_⟩
    · simp only [afterWork, hidle, Bool.false_and, Bool.or_false, decide_eq_true_eq] at ha
      exact ⟨hnew a ha, hnil⟩
    · change r ∈ t.replies at hr
      rw [hnil] at hr
      cases hr
    · change t.replies.length ≤ 1
      rw [hnil]
      exact Nat.zero_le 1
    · by_cases hw : w.record.execution.status = .succeeded
      · exact hw
      · have : (afterWork t act w).succeededBy = t.succeededBy := if_neg fun h => hw h.2
        rw [this, hnobody] at hsome
        cases hsome

theorem storedReply_attemptId {a : String} {stored : Bool} {r : Reply}
    (h : storedReply g payload userMessages t a stored = some r) : r.attemptId = a := by
  unfold storedReply at h
  split_ifs at h
  obtain ⟨message, _, rfl⟩ := Option.map_eq_some_iff.mp h
  rfl

theorem TurnInv.reply [Columns] {a : String} {stored : Bool} (inv : TurnInv t)
    (h : turnStep g payload userMessages t (.reply a stored) = some t') : TurnInv t' := by
  simp only [turnStep] at h
  split_ifs at h with hd
  obtain ⟨hby, hnil⟩ := inv.due a hd
  obtain rfl := Option.some.inj h
  have hrest : ∀ b, (b ≠ a && t.due b) = true → False := by
    intro b hb
    simp only [ne_eq, Bool.and_eq_true, decide_eq_true_eq] at hb
    exact hb.1 (Option.some.inj ((inv.due b hb.2).1.symm.trans hby))
  refine ⟨fun b hb => (hrest b hb).elim, fun r hr => ?_, ?_, inv.succeeded⟩
  · simp only [hnil, List.nil_append, Option.mem_toList] at hr
    rw [storedReply_attemptId hr]
    exact hby
  · simp only [hnil, List.nil_append]
    cases storedReply g payload userMessages t a stored <;> simp

theorem turnInv_reachable [Columns] (h : TurnReachable g payload userMessages CompletionCounts t) :
    TurnInv t := by
  induction h with
  | start =>
    exact ⟨fun _ h => (by cases h), fun _ h => (by cases h), Nat.zero_le 1, fun h => (by cases h)⟩
  | @step t t' act _ ok taken ih =>
    cases act with
    | work act =>
      obtain ⟨w, hw, rfl⟩ := Option.map_eq_some_iff.mp taken
      exact ih.work ok hw
    | reply a stored => exact ih.reply taken

/-- In every run whose completions count, a turn gets one reply at most, and gets it from the
attempt through which its execution succeeded. -/
theorem one_reply_per_turn [Columns] (g : WorkflowGraph) (payload : Value)
    (userMessages : String → List String) (t : Turn)
    (reached : TurnReachable g payload userMessages CompletionCounts t) : OneReply t := by
  have inv := turnInv_reachable reached
  refine ⟨inv.one, fun r hr => ⟨inv.succeeded ?_, inv.replies r hr⟩⟩
  rw [inv.replies r hr]
  rfl

theorem TurnReachable.run [Columns] {allowed : Turn → TurnAct → Prop}
    (h : TurnReachable g payload userMessages allowed t) {acts : List TurnAct}
    (ok : TurnAllowed g payload userMessages allowed t acts) :
    TurnReachable g payload userMessages allowed (turnRun g payload userMessages t acts) := by
  induction acts generalizing t with
  | nil => exact h
  | cons act acts ih =>
    obtain ⟨hact, hrest⟩ := ok
    rw [turnRun, List.foldl_cons]
    cases ht : turnStep g payload userMessages t act with
    | none =>
      rw [ht] at hrest
      exact ih h hrest
    | some t' =>
      rw [ht] at hrest
      exact ih (.step h hact ht) hrest

open scoped Unchanged

/-- One model call, started by a user's message. -/
def chatGraph : WorkflowGraph where
  entryNodeId := "reply"
  nodes := [⟨"reply", .ai, []⟩]
  edges := []

def chatPayload : Value :=
  .object [("conversationId", .string "c"), ("chatMessageId", .string "m")]

def userTurns : String → List String := fun _ => ["m"]

/-- An attempt claims, answers, and has its step recorded. -/
def answered (a : String) : List TurnAct :=
  (firstCall a (.output (.object [("text", .string "hi")])) ++
    [Act.writeStep a none]).map .work

def replied (a : String) : List TurnAct := [.work (.complete a false), .reply a true]

theorem one_reply_per_turn_chatGraph :
    (turnRun chatGraph chatPayload userTurns (opened queued)
      (answered "a" ++ replied "a")).replies.length = 1 ∧
    OneReply (turnRun chatGraph chatPayload userTurns (opened queued)
      (answered "a" ++ replied "a")) := by
  refine ⟨rfl, one_reply_per_turn chatGraph chatPayload userTurns _ ?_⟩
  refine (TurnReachable.start 0 "e" "w" (some "env") none none).run ?_
  refine ⟨fun _ h => (by cases h), fun _ h => (by cases h), fun _ h => (by cases h),
    fun _ h => (by cases h), fun _ h => (by cases h), fun _ h => (by cases h),
    fun _ h => (by cases h), fun b h => ?_, trivial, trivial⟩
  obtain rfl : "a" = b := Option.some.inj h
  exact ⟨rfl, by decide⟩

/-- The lease runs out between the walk and the completion. Another attempt takes over and
replies, and the first one replies as well. -/
theorem overtaken_turn_replies_twice : ∃ t,
    TurnReachable chatGraph chatPayload userTurns (fun _ _ => True) t ∧
    t.replies.map Reply.attemptId = ["b", "a"] ∧ t.succeededBy = some "b" := by
  refine ⟨turnRun chatGraph chatPayload userTurns (opened queued)
    (answered "a" ++ [.work (.tick 40)] ++
      [.work (.claim "b" 90), .work (.readState "b"), .work (.readVariables "b"),
        .work (.begin "b")] ++ replied "b" ++ replied "a"),
    (TurnReachable.start 0 "e" "w" (some "env") none none).run ?_, rfl, rfl⟩
  exact ⟨trivial, trivial, trivial, trivial, trivial, trivial, trivial, trivial, trivial, trivial,
    trivial, trivial, trivial, trivial, trivial, trivial, trivial⟩

end Linea.Worker.Chat
