import Linea.AgentDialogue
import Linea.Usage

/-! Conversation-level regression cases: what a snapshot of a conversation freezes, and what running it
sends, grades and stores. -/
namespace Linea.Replays
open Spending


variable {V : Type}

structure RegressionAssertion where
  type : String
  config : List (String × Value)

structure ConversationInput (V : Type) where
  turns : List (ConversationTurn V)
  finalPrompt : String
  externalSubjectId : Option String

/-- A case of type `conversation`. -/
structure RegressionCase (V : Type) where
  workspaceId : String
  workflowId : String
  input : ConversationInput V
  assertions : List RegressionAssertion
  sourceFindingId : Option String
  sourceSignalId : Option String

structure ConversationSnapshotSource where
  workspaceId : String
  workflowId : String
  evidenceMessageId : Option String
  category : String
  rationale : Option String
  externalSubjectId : Option String

structure ConversationSnapshotProvenance where
  sourceFindingId : Option String
  sourceSignalId : Option String

/-- The message itself if it is the user's, and otherwise the one that it answers. -/
def ownTurn (messages : List ChatMessage) (m : ChatMessage) : Option ChatMessage :=
  if m.role = .user then some m
  else m.respondsToMessageId.bind fun id => messages.find? fun q => q.id = id

def lastUserMessage (messages : List ChatMessage) : Option ChatMessage :=
  messages.reverse.find? fun m => m.role = .user

def boundary (messages : List ChatMessage) (evidenceMessageId : Option String) :
    Option ChatMessage :=
  let evidence := evidenceMessageId.bind fun id => messages.find? fun m => m.id = id
  (evidence.bind (ownTurn messages)).or (lastUserMessage messages)

def judge (category rationale : String) : RegressionAssertion where
  type := "llm_judge"
  config := [("rubric",.string
    s!"Check whether the replayed conversation still exhibits \"{category}\": {rationale}")]

def buildConversationRegressionCase (rows : List ChatMessage) (source : ConversationSnapshotSource)
    (provenance : ConversationSnapshotProvenance)
    (assertionsOverride : Option (List RegressionAssertion)) : Option (RegressionCase V) :=
  let messages := listChatMessages rows
  (boundary messages source.evidenceMessageId).map fun last =>
    let turnsBefore := messages.take (messages.findIdx fun m => m.id = last.id)
    { workspaceId := source.workspaceId
      workflowId := source.workflowId
      input :=
        ⟨turnsBefore.map ChatMessage.turn,last.content,source.externalSubjectId⟩
      assertions := assertionsOverride.getD
        (((source.rationale.filter (· ≠ "")).map (judge source.category)).toList)
      sourceFindingId := provenance.sourceFindingId
      sourceSignalId := provenance.sourceSignalId }

inductive GraphNode
  | ai (node : AgentNode)
  | other

def agentNodes (nodes : List GraphNode) : List AgentNode :=
  nodes.filterMap fun
    | .ai node => some node
    | .other => none

inductive CaseStatus
  | passed
  | failed
  | errored

inductive CaseOutput (V : Type)
  | message (text : String)
  | error (text : String)
  | sequence (turns : List (ConversationTurn V))

structure CaseOutcome (V : Type) where
  status : CaseStatus
  output : CaseOutput V
  score : Option ℕ
  costMicros : ℤ

structure Graded where
  status : CaseStatus
  score : Option ℕ
  costMicros : ℤ

/-- `gradeOutput` in one environment. -/
abbrev Grader (V : Type) := List (ConversationTurn V) → List RegressionAssertion → Graded

def gradedOutcome (gradeOutput : Grader V) (assertions : List RegressionAssertion)
    (runCostMicros : ℤ) (sequence : List (ConversationTurn V)) : CaseOutcome V :=
  let graded := gradeOutput sequence assertions
  ⟨graded.status,.sequence sequence,graded.score,runCostMicros + graded.costMicros⟩

def frozenContext (input : ConversationInput V) : NodeContext V where
  workflowId := none
  conversationId := none
  chatMessageId := none
  regressionConversation := some ⟨input.turns,input.finalPrompt⟩

def costOf (node : AgentNode) (tokens : TokenUsage) : ℤ :=
  (Usage.calculateCostMicros node.model ⟨tokens.1,tokens.2⟩).getD 0

/-- The outcome, and the case as the run leaves it: its turns are the array the handler pushes to. -/
def executeConversationCase (gradeOutput : Grader V) (nodes : List GraphNode) (answers : Answers V)
    (recalled : Option String) (regressionCase : RegressionCase V) :
    CaseOutcome V × RegressionCase V :=
  match agentNodes nodes with
  | [node] =>
    let run := execute node answers recalled [] (frozenContext regressionCase.input)
    let input := { regressionCase.input with turns := run.conversation }
    let outcome :=
      match run.result with
      | .error error => ⟨.errored,.error (error.message ""),none,0⟩
      | .ok (text,tokens) =>
        let fullSequence := input.turns ++
          [.message "user" input.finalPrompt,.message "assistant" text]
        gradedOutcome gradeOutput regressionCase.assertions (costOf node tokens) fullSequence
    (outcome,{ regressionCase with input := input })
  | [] => (⟨.errored,.message "No Agent node in this workflow version",none,0⟩,regressionCase)
  | _ => (⟨.errored,.message
      ("Multiple Agent nodes — conversation-level regression cases need exactly one to be " ++
        "unambiguous"),none,0⟩,regressionCase)

/-! ## What a case is for -/

/-- The user's message that the evidence is or answers, or the last one not after it. -/
def endingMessage (messages : List ChatMessage) (evidence : ChatMessage) : Option ChatMessage :=
  (ownTurn messages evidence).or (lastUserMessage (messages.takeWhile (· ≠ evidence)))

/-- The execution of the chat turn `chatMessageId`. -/
def chatContext (workflowId conversationId chatMessageId : String) : NodeContext V where
  workflowId := some workflowId
  conversationId := some conversationId
  chatMessageId := some chatMessageId
  regressionConversation := none

/-- A case ends with the right message, its run opens as the execution of that message does once the
messages before it are stored, what is graded is the case and the reply, and the case stays as it is. -/
def Faithful (gradeOutput : Grader V) (node : AgentNode) (nodes : List GraphNode)
    (answers : Answers V) (recalled : Option String) (conversation : Conversation)
    (evidence : ChatMessage) (regressionCase : RegressionCase V) : Prop :=
  let run := execute node answers recalled [] (frozenContext regressionCase.input)
  let ran := executeConversationCase gradeOutput nodes answers recalled regressionCase
  ∃ last, endingMessage (listChatMessages conversation.rows) evidence = some last ∧
    regressionCase.input.finalPrompt = last.content ∧
    (∀ (earlier : Conversation) (workflowId conversationId : String) (liveAnswers : Answers V),
      conversation.StartedAfter earlier last →
        run.requests.head? = (execute node liveAnswers recalled earlier.rows
          (chatContext workflowId conversationId last.id)).requests.head?) ∧
    (∀ reply tokens, run.result = .ok (reply,tokens) →
      ran.1 = gradedOutcome gradeOutput regressionCase.assertions (costOf node tokens)
        (regressionCase.input.turns ++ [.message "user" regressionCase.input.finalPrompt,
          .message "assistant" reply])) ∧
    ran.2 = regressionCase

/-- The evidence is the user's or answers a recorded message, or nothing of the user comes after. -/
def EndsRight (conversation : Conversation) (evidence : ChatMessage) : Prop :=
  evidence.role = .user ∨ evidence.respondsToMessageId ≠ none ∨
    ∀ m ∈ conversation.rows, m.role = .user → m.sequence < evidence.sequence

/-- Every message of the user before the one a case should end with has a reply. -/
def AllAnswered (conversation : Conversation) (evidence : ChatMessage) : Prop :=
  ∀ last, endingMessage (listChatMessages conversation.rows) evidence = some last →
    ∀ m ∈ conversation.rows, m.role = .user → m.sequence < last.sequence →
      ∃ r ∈ conversation.rows, r.respondsToMessageId = some m.id


section Ending

variable {conversation earlier : Conversation} {evidence m r last : ChatMessage}
  {before after : List ChatMessage}

lemma ownTurn_user {messages : List ChatMessage} (hsub : ∀ m ∈ messages, m ∈ conversation.rows)
    (hm : m ∈ conversation.rows) (h : ownTurn messages m = some last) :
    last.role = .user ∧ last ∈ conversation.rows := by
  unfold ownTurn at h
  split_ifs at h with hu
  · obtain rfl := Option.some.inj h
    exact ⟨hu,hm⟩
  · obtain ⟨id,hl,hf⟩ := Option.bind_eq_some_iff.mp h
    obtain ⟨_,q,hq,hid,hqu⟩ := conversation.links m hm id hl
    have hin := hsub last (List.mem_of_find?_eq_some hf)
    have hlast := List.find?_some hf
    rw [Conversation.eq_of_id hin hq (by simpa [hid] using hlast)]
    exact ⟨hqu,hq⟩

lemma lastUserMessage_spec {messages : List ChatMessage} :
    lastUserMessage messages = some last ↔ last.role = .user ∧ ∃ before after,
      messages = before ++ last :: after ∧ ∀ m ∈ after, m.role ≠ .user := by
  rw [lastUserMessage,List.find?_eq_some_iff_append]
  simp only [decide_eq_true_eq,List.reverse_eq_append_iff,List.reverse_cons,
    List.append_assoc,List.singleton_append,Bool.not_eq_eq_eq_not,Bool.not_true,
    decide_eq_false_iff_not]
  refine and_congr_right fun _ => ⟨?_,?_⟩
  · rintro ⟨as,bs,hl,has⟩
    exact ⟨bs.reverse,as.reverse,hl,fun m hm => has m (List.mem_reverse.mp hm)⟩
  · rintro ⟨before,after,hl,hafter⟩
    exact ⟨after.reverse,before.reverse,by simpa using hl,
      fun m hm => hafter m (List.mem_reverse.mp hm)⟩

lemma mem_listed {conversation : Conversation} :
    ∀ m ∈ listChatMessages conversation.rows, m ∈ conversation.rows :=
  fun _ => mem_listChatMessages.mp

lemma endingMessage_user (he : evidence ∈ conversation.rows)
    (h : endingMessage (listChatMessages conversation.rows) evidence = some last) :
    last.role = .user ∧ last ∈ conversation.rows := by
  rcases Option.or_eq_some_iff.mp h with hown | ⟨_,hlast⟩
  · exact ownTurn_user mem_listed he hown
  · obtain ⟨hu,before,after,hl,_⟩ := lastUserMessage_spec.mp hlast
    refine ⟨hu,mem_listed _ ((List.takeWhile_sublist (· ≠ evidence)).subset ?_)⟩
    rw [hl]
    simp

/-- The place of a message in the list. -/
lemma take_findIdx (hl : listChatMessages conversation.rows = before ++ last :: after) :
    (listChatMessages conversation.rows).take
      ((listChatMessages conversation.rows).findIdx fun m => m.id = last.id) = before ∧
    (listChatMessages conversation.rows).findIdx? (fun m => m.id = last.id) =
      some before.length := by
  have hd := conversation.listed_nodup
  have hbefore : ∀ m ∈ before, m.id ≠ last.id := fun m hm hid => by
    rw [hl] at hd
    have hin {q : ChatMessage} (hq : q ∈ before ++ last :: after) : q ∈ conversation.rows :=
      mem_listed q (hl ▸ hq)
    exact (List.nodup_append.mp hd).2.2 m hm last (by simp)
      (Conversation.eq_of_id (hin (by simp [hm])) (hin (by simp)) hid)
  have hidx : (before ++ last :: after).findIdx (fun m => m.id = last.id) = before.length := by
    rw [List.findIdx_append,if_neg (by simpa [List.findIdx_lt_length] using hbefore),
      List.findIdx_cons]
    simp
  rw [hl]
  refine ⟨by rw [hidx,List.take_left],?_⟩
  rw [List.findIdx?_eq_some_iff_findIdx_eq]
  exact ⟨by simp,hidx⟩

end Ending

section Runs

variable {conversation earlier : Conversation} {evidence m r last : ChatMessage}
  {before after : List ChatMessage} {node : AgentNode} {nodes : List GraphNode}
  {answers : Answers V} {recalled : Option String} {gradeOutput : Grader V}
  {regressionCase : RegressionCase V}

/-- What a case's turns look like before it is run. -/
lemma pending_turns (messages : List ChatMessage) :
    pendingToolCalls (messages.map ChatMessage.turn : List (ConversationTurn V)) = [] := by
  unfold pendingToolCalls
  rw [List.getLast?_map]
  cases messages.getLast? <;> rfl

lemma execute_turns {context : NodeContext V} {rows messages : List ChatMessage} {prompt : String}
    (h : selectTurn rows node context = .ok (messages.map ChatMessage.turn,prompt)) :
    execute node answers recalled rows context =
      aiDialogue node.config answers.refusal node.config.iterations answers.turns
        (messages.map ChatMessage.turn) (some (withMemories recalled prompt)) 0 := by
  simp only [execute,h,pending_turns,resolveToolCalls,pushedOutputs,List.append_nil]

/-- An execution of a chat turn takes the answered messages before it for its history. -/
lemma selectTurn_chat {workflowId conversationId : String}
    (hl : listChatMessages earlier.rows = before ++ last :: after) (hu : last.role = .user) :
    selectTurn earlier.rows node (chatContext workflowId conversationId last.id : NodeContext V) =
      .ok ((repliedMessages before).map ChatMessage.turn,last.content) := by
  have hidx := (take_findIdx hl).2
  obtain ⟨id,link,sequence,role,content⟩ := last
  cases hu
  simp only [selectTurn,chatContext,Option.isNone_some,Bool.false_eq_true,if_false]
  rw [hidx,hl]
  simp

lemma opening (hconfig : 0 < node.config.iterations) {context : NodeContext V}
    {rows messages : List ChatMessage} {prompt : String}
    (h : selectTurn rows node context = .ok (messages.map ChatMessage.turn,prompt)) :
    (execute node answers recalled rows context).requests.head? =
      some ⟨some (withMemories recalled prompt),sentHistory (messages.map ChatMessage.turn)⟩ := by
  rw [execute_turns h]
  obtain ⟨remaining,hr⟩ := Nat.exists_eq_succ_of_ne_zero hconfig.ne'
  rw [hr]
  exact aiDialogue_opening ..

/-- Without a completion the array stays as it was, and with one it does not. -/
lemma conversation_unchanged (hconfig : 0 < node.config.iterations) {context : NodeContext V}
    {rows messages : List ChatMessage} {prompt : String}
    (h : selectTurn rows node context = .ok (messages.map ChatMessage.turn,prompt)) :
    (execute node answers recalled rows context).conversation = messages.map ChatMessage.turn ↔
      answers.turns = [] := by
  rw [execute_turns h]
  obtain ⟨remaining,hr⟩ := Nat.exists_eq_succ_of_ne_zero hconfig.ne'
  rw [hr]
  cases hturns : answers.turns with
  | nil => exact iff_of_true rfl rfl
  | cons turn turns =>
    refine iff_of_false (fun hsame => ?_) (List.cons_ne_nil _ _)
    have hasked : messages.map ChatMessage.turn ++
        [.message "user" (withMemories recalled prompt)] <+: (aiDialogue node.config
          answers.refusal (remaining + 1) (turn :: turns) (messages.map ChatMessage.turn)
          (some (withMemories recalled prompt)) 0).conversation := aiDialogue_asked ..
    have hlen := hasked.length_le
    rw [hsame,List.length_append] at hlen
    simp at hlen

lemma turn_length {messages messages' : List ChatMessage}
    (h : (messages.map ChatMessage.turn : List (ConversationTurn V)) =
      messages'.map ChatMessage.turn) : messages.length = messages'.length := by
  simpa using congrArg List.length h

/-- What comes before a message is answered throughout when nothing of it is left out. -/
lemma repliedMessages_eq_iff (hl : listChatMessages conversation.rows = before ++ last :: after)
    (hu : last.role = .user) :
    ((repliedMessages before).map ChatMessage.turn : List (ConversationTurn V)) =
      before.map ChatMessage.turn ↔
    ∀ m ∈ conversation.rows, m.role = .user → m.sequence < last.sequence →
      ∃ r ∈ conversation.rows, r.respondsToMessageId = some m.id := by
  have hin {q : ChatMessage} (hq : q ∈ before ++ last :: after) : q ∈ conversation.rows :=
    mem_listed q (hl ▸ hq)
  have hlast : last ∈ conversation.rows := hin (by simp)
  have hpos := Conversation.position_user hlast hu
  have hmem {m : ChatMessage} (hm : m ∈ conversation.rows) (hmu : m.role = .user) :
      m ∈ before ↔ m.sequence < last.sequence :=
    Conversation.mem_before_iff hl hpos hm (Conversation.position_user hm hmu)
  constructor
  · intro hsame m hm hmu hlt
    have hall := List.filter_eq_self.mp
      ((List.filter_sublist (l := before)).eq_of_length (turn_length hsame))
    have := hall m ((hmem hm hmu).mpr hlt)
    simp only [hmu,ne_eq,not_true_eq_false,false_or,List.mem_map,List.mem_filter,
      decide_eq_true_eq] at this
    obtain ⟨r,⟨hr,_⟩,hlink⟩ := this
    exact ⟨r,hin (by simp [hr]),hlink⟩
  · intro hanswered
    refine congrArg _ (List.filter_eq_self.mpr fun m hm => ?_)
    simp only [ne_eq,List.mem_map,List.mem_filter,decide_eq_true_eq]
    by_cases hmu : m.role = .user
    · have hmr := hin (show m ∈ before ++ last :: after by simp [hm])
      have hlt := (hmem hmr hmu).mp hm
      obtain ⟨r,hr,hlink⟩ := hanswered m hmr hmu hlt
      refine .inr ⟨r,⟨Conversation.mem_before hl hr ?_,(conversation.links r hr _ hlink).1⟩,hlink⟩
      -- a reply stands at the number of what it answers
      unfold Precedes
      rw [hpos,Conversation.position_reply hmr hlink]
      omega
    · exact .inl hmu

end Runs

section Cases

variable {conversation earlier : Conversation} {evidence m r last : ChatMessage}
  {before after : List ChatMessage} {node : AgentNode} {nodes : List GraphNode}
  {answers : Answers V} {recalled : Option String} {gradeOutput : Grader V}
  {source : ConversationSnapshotSource} {provenance : ConversationSnapshotProvenance}
  {assertionsOverride : Option (List RegressionAssertion)} {regressionCase : RegressionCase V}

lemma boundary_evidence (he : evidence ∈ conversation.rows) :
    boundary (listChatMessages conversation.rows) (some evidence.id) =
      (ownTurn (listChatMessages conversation.rows) evidence).or
        (lastUserMessage (listChatMessages conversation.rows)) := by
  rw [boundary,Option.bind_some,
    Conversation.find_id he mem_listed (mem_listChatMessages.mpr he),Option.bind_some]

lemma boundary_user (he : evidence ∈ conversation.rows)
    (h : boundary (listChatMessages conversation.rows) (some evidence.id) = some last) :
    last.role = .user ∧ last ∈ conversation.rows := by
  rw [boundary_evidence he] at h
  rcases Option.or_eq_some_iff.mp h with hown | ⟨_,hlast⟩
  · exact ownTurn_user mem_listed he hown
  · obtain ⟨hu,before,after,hl,_⟩ := lastUserMessage_spec.mp hlast
    exact ⟨hu,mem_listed _ (by simp [hl])⟩

lemma ownTurn_none (he : evidence ∈ conversation.rows)
    (h : ownTurn (listChatMessages conversation.rows) evidence = none) :
    evidence.role ≠ .user ∧ evidence.respondsToMessageId = none := by
  unfold ownTurn at h
  split_ifs at h with hu
  refine ⟨hu,?_⟩
  cases hl : evidence.respondsToMessageId with
  | none => rfl
  | some id =>
    obtain ⟨_,q,hq,rfl,_⟩ := conversation.links evidence he id hl
    rw [hl,Option.bind_some,
      Conversation.find_id hq mem_listed (mem_listChatMessages.mpr hq)] at h
    cases h

/-- The evidence among the messages, and what `takeWhile` leaves before it. -/
lemma split_evidence (he : evidence ∈ conversation.rows) : ∃ before after,
    listChatMessages conversation.rows = before ++ evidence :: after ∧
      (listChatMessages conversation.rows).takeWhile (· ≠ evidence) = before := by
  obtain ⟨before,after,hl⟩ := List.append_of_mem (mem_listChatMessages.mpr he)
  refine ⟨before,after,hl,?_⟩
  have hd := conversation.listed_nodup
  rw [hl,List.nodup_append] at hd
  have hbefore : ∀ m ∈ before, m ≠ evidence := fun m hm => hd.2.2 m hm evidence (by simp)
  rw [hl,List.takeWhile_append_of_pos (by simpa using hbefore)]
  simp

/-- Where the evidence is as it should be, the snapshot ends where it should. -/
lemma boundary_eq_ending (he : evidence ∈ conversation.rows)
    (hends : EndsRight conversation evidence) :
    boundary (listChatMessages conversation.rows) (some evidence.id) =
      endingMessage (listChatMessages conversation.rows) evidence := by
  rw [boundary_evidence he,endingMessage]
  cases hown : ownTurn (listChatMessages conversation.rows) evidence with
  | some q => rfl
  | none =>
    obtain ⟨hrole,hlink⟩ := ownTurn_none he hown
    obtain ⟨before,after,hl,htake⟩ := split_evidence he
    have hlater := (hends.resolve_left hrole).resolve_left (not_not_intro hlink)
    have hnone : ∀ m ∈ evidence :: after, m.role ≠ .user := by
      intro m hm hmu
      have hmr : m ∈ conversation.rows := mem_listed m (by simp [hl,List.mem_cons.mp hm])
      have hbefore := (Conversation.mem_before_iff hl (Conversation.position_unlinked hlink) hmr
        (Conversation.position_user hmr hmu)).mpr (hlater m hmr hmu)
      have hd := conversation.listed_nodup
      rw [hl] at hd
      exact (List.nodup_append.mp hd).2.2 m hbefore m hm rfl
    rw [htake,Option.none_or,Option.none_or,lastUserMessage,lastUserMessage,hl,List.reverse_append,
      List.find?_append]
    have hfind : (evidence :: after).reverse.find? (fun m => m.role = .user) = none := by
      simpa [and_comm] using hnone
    rw [hfind,Option.none_or]

/-- A snapshot no longer than it should be ends where it should. -/
lemma ends_of_length (he : evidence ∈ conversation.rows) {last' : ChatMessage}
    (hboundary : boundary (listChatMessages conversation.rows) (some evidence.id) = some last')
    (hending : endingMessage (listChatMessages conversation.rows) evidence = some last)
    (hlen : ∀ {before after before' after' : List ChatMessage},
      listChatMessages conversation.rows = before' ++ last' :: after' →
      listChatMessages conversation.rows = before ++ last :: after →
        before'.length ≤ before.length) : EndsRight conversation evidence := by
  rw [boundary_evidence he] at hboundary
  unfold endingMessage at hending
  cases hown : ownTurn (listChatMessages conversation.rows) evidence with
  | some q =>
    by_contra hends
    unfold EndsRight at hends
    push Not at hends
    simp [ownTurn,hends.1,hends.2.1] at hown
  | none =>
    obtain ⟨hrole,hlink⟩ := ownTurn_none he hown
    rw [hown,Option.none_or] at hboundary hending
    obtain ⟨upTo,rest,hl,htake⟩ := split_evidence he
    rw [htake] at hending
    obtain ⟨hu,before,between,rfl,_⟩ := lastUserMessage_spec.mp hending
    obtain ⟨_,before',after',hl',hafter'⟩ := lastUserMessage_spec.mp hboundary
    have hl₂ : listChatMessages conversation.rows =
        before ++ last :: (between ++ evidence :: rest) := by
      rw [hl]
      simp
    -- the last message of the user in all is not after the last one up to the evidence
    have hafter : between ++ evidence :: rest = after' := by
      have hsplit := hl'.symm.trans hl₂
      rcases List.append_eq_append_iff.mp hsplit with ⟨more,hbefore,htail⟩ | ⟨more,hbefore,htail⟩
      · cases more with
        | nil =>
          rw [List.nil_append,List.cons.injEq] at htail
          exact htail.2.symm
        | cons q more =>
          rw [List.cons_append,List.cons.injEq] at htail
          exact absurd hu (hafter' last (by simp [htail.2]))
      · have := hlen hl' hl₂
        cases more with
        | nil =>
          rw [List.nil_append,List.cons.injEq] at htail
          exact htail.2
        | cons q more =>
          simp [hbefore] at this
    refine .inr (.inr fun m hm hmu => ?_)
    refine (Conversation.mem_before_iff hl (Conversation.position_unlinked hlink) hm
      (Conversation.position_user hm hmu)).mp ?_
    have hmem : m ∈ before ++ last :: (between ++ evidence :: rest) :=
      hl₂ ▸ mem_listChatMessages.mpr hm
    simp only [List.mem_append,List.mem_cons] at hmem ⊢
    rcases hmem with h | h | h
    · exact .inl h
    · exact .inr (.inl h)
    · exact absurd hmu (hafter' m (hafter ▸ by simpa using h))

lemma selectTurn_frozen {input : ConversationInput V} {messages : List ChatMessage} {prompt : String}
    {externalSubjectId : Option String}
    (h : input = ⟨messages.map ChatMessage.turn,prompt,externalSubjectId⟩) :
    selectTurn [] node (frozenContext input) =
      .ok (messages.map ChatMessage.turn,input.finalPrompt) := by
  rw [h]
  rfl

lemma built_input (h : buildConversationRegressionCase conversation.rows source provenance
    assertionsOverride = some regressionCase) : ∃ last,
    boundary (listChatMessages conversation.rows) source.evidenceMessageId = some last ∧
      regressionCase.input = ⟨((listChatMessages conversation.rows).take
        ((listChatMessages conversation.rows).findIdx fun m => m.id = last.id)).map
          ChatMessage.turn,last.content,source.externalSubjectId⟩ := by
  obtain ⟨last,hlast,rfl⟩ := Option.map_eq_some_iff.mp h
  exact ⟨last,hlast,rfl⟩

/-- The opening requests of a run and of the executions it is compared with agree in their
histories. -/
lemma same_requests_iff (hconfig : 0 < node.config.iterations)
    (hl : listChatMessages conversation.rows = before ++ last :: after) (hu : last.role = .user)
    {context : NodeContext V} {messages : List ChatMessage} {prompt : String}
    (hselect : selectTurn [] node context = .ok (messages.map ChatMessage.turn,prompt))
    (hprompt : prompt = last.content) :
    (∀ (earlier : Conversation) (workflowId conversationId : String) (liveAnswers : Answers V),
      conversation.StartedAfter earlier last →
        (execute node answers recalled [] context).requests.head? =
          (execute node liveAnswers recalled earlier.rows
            (chatContext workflowId conversationId last.id)).requests.head?) ↔
      (messages.map ChatMessage.turn : List (ConversationTurn V)) =
        (repliedMessages before).map ChatMessage.turn := by
  subst hprompt
  have hin : last ∈ conversation.rows := mem_listed last (by simp [hl])
  constructor
  · intro h
    have := h conversation "" "" answers (.refl hin)
    rw [opening hconfig hselect,opening hconfig (selectTurn_chat hl hu),Option.some.injEq,
      ProviderRequest.mk.injEq] at this
    exact sentHistory_injective this.2
  · intro h earlier workflowId conversationId liveAnswers hstarted
    obtain ⟨after',hl'⟩ := hstarted.listed hl
    rw [opening hconfig hselect,opening hconfig (selectTurn_chat hl' hu),h]

/-- The case stays as it is when its array does. -/
lemma unchanged_iff (hconfig : 0 < node.config.iterations) (hnodes : agentNodes nodes = [node])
    {messages : List ChatMessage} {frozen : RegressionCase V}
    (hselect : selectTurn [] node (frozenContext frozen.input) =
      .ok (messages.map ChatMessage.turn,frozen.input.finalPrompt)) :
    (executeConversationCase gradeOutput nodes answers recalled frozen).2 = frozen ↔
      answers.turns = [] := by
  have hturns : frozen.input.turns = messages.map ChatMessage.turn :=
    congrArg Prod.fst (Except.ok.inj hselect)
  have hsame : (execute node answers recalled [] (frozenContext frozen.input)).conversation =
      messages.map ChatMessage.turn ↔ answers.turns = [] := conversation_unchanged hconfig hselect
  rw [← hsame,← hturns]
  obtain ⟨workspaceId,workflowId,⟨turns,finalPrompt,externalSubjectId⟩,_,_,_⟩ := frozen
  simp [executeConversationCase,hnodes]

lemma no_reply (hconfig : 0 < node.config.iterations) {context : NodeContext V}
    {rows messages : List ChatMessage} {prompt reply : String} {tokens : TokenUsage}
    (hselect : selectTurn rows node context = .ok (messages.map ChatMessage.turn,prompt))
    (hturns : answers.turns = []) :
    (execute node answers recalled rows context).result ≠ .ok (reply,tokens) := by
  rw [execute_turns hselect,hturns]
  obtain ⟨remaining,hr⟩ := Nat.exists_eq_succ_of_ne_zero hconfig.ne'
  rw [hr,aiDialogue]
  intro h
  cases h

/-- A message stands at one place. -/
lemma listed_unique {before' after' : List ChatMessage}
    (hl : listChatMessages conversation.rows = before ++ last :: after)
    (hl' : listChatMessages conversation.rows = before' ++ last :: after') : before = before' :=
  (take_findIdx hl).1.symm.trans (take_findIdx hl').1

/-- A case is faithful if and only if it ends where it should, no message of the user before that is
unanswered, and its run gets no answer from the provider. -/
theorem faithful_iff (gradeOutput : Grader V) (node : AgentNode) (nodes : List GraphNode)
    (answers : Answers V) (recalled : Option String) (conversation : Conversation)
    (evidence : ChatMessage) (source : ConversationSnapshotSource)
    (provenance : ConversationSnapshotProvenance)
    (assertionsOverride : Option (List RegressionAssertion)) (regressionCase : RegressionCase V)
    (hconfig : 0 < node.config.iterations) (hnodes : agentNodes nodes = [node])
    (he : evidence ∈ conversation.rows) (hsource : source.evidenceMessageId = some evidence.id)
    (hbuilt : buildConversationRegressionCase conversation.rows source provenance
      assertionsOverride = some regressionCase) :
    Faithful gradeOutput node nodes answers recalled conversation evidence regressionCase ↔
      EndsRight conversation evidence ∧ AllAnswered conversation evidence ∧
        answers.turns = [] := by
  obtain ⟨last',hboundary,hinput⟩ := built_input hbuilt
  rw [hsource] at hboundary
  obtain ⟨hu',hin'⟩ := boundary_user he hboundary
  obtain ⟨before',after',hl'⟩ := List.append_of_mem (mem_listChatMessages.mpr hin')
  rw [(take_findIdx hl').1] at hinput
  have hprompt' : regressionCase.input.finalPrompt = last'.content := by rw [hinput]
  have hselect : selectTurn [] node (frozenContext regressionCase.input) = _ :=
    selectTurn_frozen hinput
  constructor
  · rintro ⟨last,hending,hprompt,hrequests,_,hran⟩
    obtain ⟨hu,hin⟩ := endingMessage_user he hending
    have hhistory {before after : List ChatMessage}
        (hl : listChatMessages conversation.rows = before ++ last :: after) :
        (before'.map ChatMessage.turn : List (ConversationTurn V)) =
          (repliedMessages before).map ChatMessage.turn :=
      (same_requests_iff hconfig hl hu hselect hprompt).mp hrequests
    have hends : EndsRight conversation evidence := by
      refine ends_of_length he hboundary hending fun {before after before₁ after₁} h h₁ => ?_
      rw [listed_unique h hl',turn_length (hhistory h₁)]
      exact List.length_filter_le ..
    rw [boundary_eq_ending he hends,hending,Option.some.injEq] at hboundary
    subst hboundary
    refine ⟨hends,fun last₁ hlast₁ => ?_,?_⟩
    · obtain rfl := Option.some.inj (hending.symm.trans hlast₁)
      exact (repliedMessages_eq_iff hl' hu).mp (hhistory hl').symm
    · exact (unchanged_iff hconfig hnodes hselect).mp hran
  · rintro ⟨hends,hanswered,hturns⟩
    have hending := (boundary_eq_ending he hends).symm.trans hboundary
    refine ⟨last',hending,hprompt',?_,fun reply tokens hreply => ?_,
      (unchanged_iff hconfig hnodes hselect).mpr hturns⟩
    · exact (same_requests_iff hconfig hl' hu' hselect hprompt').mpr
        ((repliedMessages_eq_iff hl' hu').mpr (hanswered last' hending)).symm
    · exact absurd hreply (no_reply hconfig hselect hturns)

end Cases

/-! ## One conversation, frozen at three of its messages -/

/-- The first message has no reply, and one reply answers nothing that is recorded. -/
def talk : Conversation where
  rows := [⟨"a",none,0,.user,"Hello?"⟩,⟨"b",none,1,.user,"Where is my order?"⟩,
    ⟨"r",some "b",2,.assistant,"On its way."⟩,⟨"n",none,3,.assistant,"Anything else?"⟩,
    ⟨"c",none,4,.user,"Thanks."⟩]
  ids := by decide
  sequences := by decide
  links := by
    simp only [List.mem_cons,List.not_mem_nil,or_false]
    rintro r (rfl | rfl | rfl | rfl | rfl) id h <;> simp_all

def flagAt (id : String) : ConversationSnapshotSource :=
  ⟨"w","f",some id,"evasive",none,none⟩

def agent : AgentNode := ⟨"n","gpt-5","",⟨[],none⟩⟩

def refusing : Answers String := ⟨fun _ => .ok (),[],"overloaded"⟩

def answering : Answers String :=
  ⟨fun _ => .ok (),[⟨⟨"Hi.",[],0⟩,false,.ok true,fun _ => .ok ()⟩],"overloaded"⟩

def lenient : Grader String := fun _ _ => ⟨.passed,none,0⟩

lemma talk_listed : listChatMessages talk.rows = talk.rows := by decide

def FaithfulAt (conversation : Conversation) (answers : Answers String) (evidence : ChatMessage) :
    Prop :=
  ∃ regressionCase : RegressionCase String,
    buildConversationRegressionCase conversation.rows (flagAt evidence.id) ⟨none,none⟩ none =
      some regressionCase ∧
    Faithful lenient agent [.ai agent] answers none conversation evidence regressionCase

/-- Two messages, each with its reply. -/
def exchange : Conversation where
  rows := [⟨"a",none,0,.user,"Hello?"⟩,⟨"q",some "a",1,.assistant,"Yes?"⟩,
    ⟨"b",none,2,.user,"Where is my order?"⟩,⟨"r",some "b",3,.assistant,"On its way."⟩]
  ids := by decide
  sequences := by decide
  links := by
    simp only [List.mem_cons,List.not_mem_nil,or_false]
    rintro r (rfl | rfl | rfl | rfl) id h <;> simp_all

/-- Frozen at its second reply it is faithful as long as the provider fails, and no longer when it
answers. -/
theorem faithful_refused :
    FaithfulAt exchange refusing ⟨"r",some "b",3,.assistant,"On its way."⟩ ∧
      ¬FaithfulAt exchange answering ⟨"r",some "b",3,.assistant,"On its way."⟩ := by
  have hlisted : listChatMessages exchange.rows = exchange.rows := by decide
  have hending : endingMessage (listChatMessages exchange.rows)
      ⟨"r",some "b",3,.assistant,"On its way."⟩ = some ⟨"b",none,2,.user,"Where is my order?"⟩ := by
    rw [hlisted]
    decide
  constructor
  · obtain ⟨regressionCase,hbuilt⟩ := Option.isSome_iff_exists.mp
      (show (buildConversationRegressionCase exchange.rows (flagAt "r") ⟨none,none⟩ none :
        Option (RegressionCase String)).isSome = true by
          rw [buildConversationRegressionCase,Option.isSome_map,hlisted]
          decide)
    refine ⟨_,hbuilt,(faithful_iff lenient agent [.ai agent] refusing none exchange _ (flagAt "r")
      ⟨none,none⟩ none _ (by decide) rfl (by decide) rfl hbuilt).mpr
      ⟨.inr (.inl (by decide)),fun last hlast m hm hmu hlt => ?_,rfl⟩⟩
    obtain rfl := Option.some.inj (hending.symm.trans hlast)
    -- The one message of the user before it is the first.
    refine ⟨⟨"q",some "a",1,.assistant,"Yes?"⟩,by decide,?_⟩
    fin_cases hm <;> simp_all
  · rintro ⟨regressionCase,hbuilt,hfaithful⟩
    have hturns := ((faithful_iff lenient agent [.ai agent] answering none exchange _ (flagAt "r")
      ⟨none,none⟩ none _ (by decide) rfl (by decide) rfl hbuilt).mp hfaithful).2.2
    exact List.cons_ne_nil _ _ hturns

/-- With an answer the case is changed, an unanswered message is replayed, and a reply to nothing that
is recorded freezes what came after it. -/
theorem frozen_otherwise : ¬FaithfulAt talk answering ⟨"a",none,0,.user,"Hello?"⟩ ∧
    ¬FaithfulAt talk refusing ⟨"r",some "b",2,.assistant,"On its way."⟩ ∧
    ¬FaithfulAt talk refusing ⟨"n",none,3,.assistant,"Anything else?"⟩ := by
  refine ⟨?_,?_,?_⟩
  · rintro ⟨regressionCase,hbuilt,last,_,_,_,_,hran⟩
    obtain ⟨last',_,hinput⟩ := built_input hbuilt
    exact List.cons_ne_nil _ _ ((unchanged_iff (by decide) rfl (selectTurn_frozen hinput)).mp hran)
  · rintro ⟨regressionCase,hbuilt,last,hending,hprompt,hrequests,_⟩
    obtain ⟨last',hboundary,hinput⟩ := built_input hbuilt
    rw [talk_listed] at hending hboundary hinput
    obtain rfl : _ = last := Option.some.inj ((show endingMessage talk.rows
      ⟨"r",some "b",2,.assistant,"On its way."⟩ = some ⟨"b",none,1,.user,"Where is my order?"⟩ by
        decide).symm.trans hending)
    obtain rfl : _ = last' := Option.some.inj ((show boundary talk.rows (some "r") =
      some ⟨"b",none,1,.user,"Where is my order?"⟩ by decide).symm.trans hboundary)
    have hl : listChatMessages talk.rows = [⟨"a",none,0,.user,"Hello?"⟩] ++
      ⟨"b",none,1,.user,"Where is my order?"⟩ :: _ := talk_listed
    have hhistory := (same_requests_iff (by decide) hl rfl (selectTurn_frozen hinput) hprompt).mp
      hrequests
    exact absurd (turn_length hhistory) (by decide)
  · rintro ⟨regressionCase,hbuilt,last,hending,hprompt,_⟩
    obtain ⟨last',hboundary,hinput⟩ := built_input hbuilt
    rw [talk_listed] at hending hboundary
    obtain rfl : _ = last := Option.some.inj ((show endingMessage talk.rows
      ⟨"n",none,3,.assistant,"Anything else?"⟩ = some ⟨"b",none,1,.user,"Where is my order?"⟩ by
        decide).symm.trans hending)
    obtain rfl : _ = last' := Option.some.inj ((show boundary talk.rows (some "n") =
      some ⟨"c",none,4,.user,"Thanks."⟩ by decide).symm.trans hboundary)
    rw [hinput] at hprompt
    exact absurd hprompt (by decide)

end Linea.Replays
