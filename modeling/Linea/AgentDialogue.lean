import Linea.ChatLog
import Linea.ModelNodes

/-! What a fresh execution of an `ai` node sends to its provider. The configuration has been parsed
and the provider's key found; the requests, and the array in which the handler keeps the conversation,
are recorded beside the result. -/
namespace Linea.Replays
open Spending Metering

variable {V : Type}

/-- An `ai` node; `tools` and `maxIterations` are its `config`. -/
structure AgentNode where
  id : String
  model : String
  prompt : String
  config : AiConfig

structure RegressionConversation (V : Type) where
  turns : List (ConversationTurn V)
  finalPrompt : String

structure NodeContext (V : Type) where
  workflowId : Option String
  conversationId : Option String
  chatMessageId : Option String
  regressionConversation : Option (RegressionConversation V)

/-- What the tools of a resumed run and the provider answer, as in `AiAttempt`. -/
structure Answers (V : Type) where
  pending : ℕ → Except String Unit
  turns : List (AiTurn V)
  refusal : String

/-- The prompt and the history of a request; the model, the system prompt and the tools are those of
the configuration in every one. -/
structure ProviderRequest (V : Type) where
  prompt : Option String
  history : Option (List (ConversationTurn V))

/-- `conversation` is the array as the handler leaves it. -/
structure Dialogue (V : Type) where
  requests : List (ProviderRequest V)
  conversation : List (ConversationTurn V)
  result : Except NodeError (String × TokenUsage)

def ChatMessageRole.text : ChatMessageRole → String
  | .user => "user"
  | .assistant => "assistant"

def ChatMessage.turn (m : ChatMessage) : ConversationTurn V := .message m.role.text m.content

/-- An earlier turn of the user that nothing answers is left out. -/
def repliedMessages (priorMessages : List ChatMessage) : List ChatMessage :=
  let repliedToIds :=
    (priorMessages.filter fun m => m.role = .assistant).map ChatMessage.respondsToMessageId
  priorMessages.filter fun m => m.role ≠ .user ∨ some m.id ∈ repliedToIds

/-- The history and the prompt of a fresh run. -/
def selectTurn (rows : List ChatMessage) (node : AgentNode) (context : NodeContext V) :
    Except String (List (ConversationTurn V) × String) :=
  match context.regressionConversation,context.conversationId with
  | some frozen,_ => .ok (frozen.turns,frozen.finalPrompt)
  | none,none => .ok ([],node.prompt)
  | none,some conversationId =>
    if context.workflowId.isNone then
      .error s!"Chat execution for conversation {conversationId} is missing workflowId"
    else
      let messages := listChatMessages rows
      let ownIndex :=
        match context.chatMessageId with
        | some id => messages.findIdx? fun (m : ChatMessage) => m.id = id
        | none => if messages.isEmpty then none else some (messages.length - 1)
      match ownIndex.bind fun i => messages[i]?.map fun own => (i,own) with
      | some (i,⟨_,_,_,.user,content⟩) =>
        .ok ((repliedMessages (messages.take i)).map ChatMessage.turn,content)
      | _ => .error ("Chat execution's chatMessageId did not resolve to a user turn in conversation " ++
          conversationId)

/-- The block of recalled memories goes before the prompt. -/
def withMemories (recalled : Option String) (prompt : String) : String :=
  match recalled with
  | some memoryBlock => memoryBlock ++ "\n\n" ++ prompt
  | none => prompt

/-- What is pushed for the calls that are answered before one fails. -/
def pushedOutputs (config : AiConfig) (calls : ℕ → Except String Unit) :
    List (ToolCall V) → List (ConversationTurn V)
  | [] => []
  | call :: rest =>
    match if call.name ∈ config.tools then calls 0 else .ok () with
    | .error _ => []
    | .ok () => .tool call.id :: pushedOutputs config (fun position => calls (position + 1)) rest

/-- An empty history is not sent. -/
def sentHistory (conversation : List (ConversationTurn V)) : Option (List (ConversationTurn V)) :=
  if conversation.isEmpty then none else some conversation

/-- The loop, with the passes that `maxIterations` leaves. -/
def aiDialogue (config : AiConfig) (refusal : String) :
    ℕ → List (AiTurn V) → List (ConversationTurn V) → Option String → TokenUsage → Dialogue V
  | 0, _, conversation, _, _ =>
    ⟨[],conversation,.error (.plain
      s!"AI node exceeded maxIterations ({config.iterations}) without a final answer")⟩
  | _ + 1, [], conversation, nextPrompt, _ =>
    ⟨[⟨nextPrompt,sentHistory conversation⟩],conversation,.error (.plain refusal)⟩
  | remaining + 1, turn :: turns, conversation, nextPrompt, tokens =>
    let request := ⟨nextPrompt,sentHistory conversation⟩
    let total := tokens + turn.completion.tokens
    let asked := conversation ++ (nextPrompt.map (.message "user")).toList
    if turn.completion.toolCalls.isEmpty then
      ⟨[request],asked,.ok (turn.completion.text,total)⟩
    else
      let called := asked ++ .assistant turn.completion.toolCalls ::
        pushedOutputs config turn.calls turn.completion.toolCalls
      match resolveToolCalls config turn.calls turn.completion.toolCalls with
      | .error message => ⟨[request],called,.error (.plain message)⟩
      | .ok _ =>
        let rest := aiDialogue config refusal remaining turns called none total
        { rest with requests := request :: rest.requests }

/-- `AiNode.execute` of a run without saved progress. A frozen conversation's array of turns is the
one that the handler pushes to. -/
def execute (node : AgentNode) (answers : Answers V) (recalled : Option String)
    (rows : List ChatMessage) (context : NodeContext V) : Dialogue V :=
  match selectTurn rows node context with
  | .error message => ⟨[],[],.error (.plain message)⟩
  | .ok (history,prompt) =>
    let conversation :=
      history ++ pushedOutputs node.config answers.pending (pendingToolCalls history)
    match resolveToolCalls node.config answers.pending (pendingToolCalls history) with
    | .error message => ⟨[],conversation,.error (.plain message)⟩
    | .ok _ =>
      aiDialogue node.config answers.refusal node.config.iterations answers.turns conversation
        (some (withMemories recalled prompt)) 0

lemma pushedOutputs_of_ok {config : AiConfig} {calls : ℕ → Except String Unit}
    {toolCalls : List (ToolCall V)} {outputs : List (ConversationTurn V)}
    (h : resolveToolCalls config calls toolCalls = .ok outputs) :
    pushedOutputs config calls toolCalls = outputs := by
  induction toolCalls generalizing calls outputs with
  | nil =>
    cases h
    rfl
  | cons call rest ih =>
    rw [resolveToolCalls] at h
    rw [pushedOutputs]
    cases hcall : if call.name ∈ config.tools then calls 0 else .ok () with
    | error message => simp [hcall] at h
    | ok =>
      cases hrest : resolveToolCalls config (fun position => calls (position + 1)) rest with
      | error message => simp [hcall,hrest,Except.map] at h
      | ok tail =>
        simp only [hcall,hrest,Except.map,Except.ok.injEq] at h
        simp only [ih hrest,h]

/-- The result is that of the handler as `Metering` accounts for it, where the writes of the progress
answer. -/
lemma aiDialogue_result (config : AiConfig) (refusal : String) {remaining iteration : ℕ}
    {turns : List (AiTurn V)} {conversation : List (ConversationTurn V)}
    {nextPrompt : Option String} {tokens : TokenUsage} {saved : Option (AiProgress V)}
    (hkeeps : ∀ turn ∈ turns, turn.keeps.isOk) :
    (aiLoop config refusal remaining turns iteration conversation nextPrompt tokens saved).result =
      (aiDialogue config refusal remaining turns conversation nextPrompt tokens).result.map
        Prod.snd := by
  induction remaining generalizing turns iteration conversation nextPrompt tokens saved with
  | zero => rfl
  | succ remaining ih =>
    cases turns with
    | nil => rfl
    | cons turn turns =>
      simp only [aiLoop,aiDialogue,Ending.after]
      obtain ⟨hturn,hrest⟩ := List.forall_mem_cons.mp hkeeps
      split
      · rfl
      cases hkept : turn.keeps with
      | error message =>
        rw [hkept] at hturn
        cases hturn
      | ok kept =>
        cases hresolved : resolveToolCalls config turn.calls turn.completion.toolCalls with
        | error message => rfl
        | ok outputs =>
          rw [pushedOutputs_of_ok hresolved]
          exact (ih hrest).trans (by simp)

theorem execute_result (node : AgentNode) (answers : Answers V) (recalled : Option String)
    (rows : List ChatMessage) (context : NodeContext V)
    (hkeeps : ∀ turn ∈ answers.turns, turn.keeps.isOk) :
    (AiNode.execute node.config ⟨.ok (),(selectTurn rows node context).map fun (history,prompt) =>
        (history,withMemories recalled prompt),answers.pending,answers.turns,answers.refusal⟩
      none).result =
      (execute node answers recalled rows context).result.map Prod.snd := by
  unfold AiNode.execute execute
  cases selectTurn rows node context with
  | error message => rfl
  | ok selected =>
    obtain ⟨history,prompt⟩ := selected
    simp only [AiAttempt.start,Except.map]
    cases hresolved : resolveToolCalls node.config answers.pending (pendingToolCalls history) with
    | error message => rfl
    | ok outputs =>
      rw [pushedOutputs_of_ok hresolved]
      exact aiDialogue_result node.config answers.refusal hkeeps

lemma sentHistory_injective :
    Function.Injective (sentHistory : List (ConversationTurn V) → _) := by
  intro l l' h
  unfold sentHistory at h
  split_ifs at h with hl hl' hl'
  · rw [List.isEmpty_iff.mp hl,List.isEmpty_iff.mp hl']
  · exact Option.some.inj h

/-- The handler only adds to the array. -/
lemma aiDialogue_extends (config : AiConfig) (refusal : String) {remaining : ℕ}
    {turns : List (AiTurn V)} {conversation : List (ConversationTurn V)}
    {nextPrompt : Option String} {tokens : TokenUsage} :
    conversation <+:
      (aiDialogue config refusal remaining turns conversation nextPrompt tokens).conversation := by
  induction remaining generalizing turns conversation nextPrompt tokens with
  | zero => exact List.prefix_rfl
  | succ remaining ih =>
    cases turns with
    | nil => exact List.prefix_rfl
    | cons turn turns =>
      rw [aiDialogue]
      split
      · exact List.prefix_append ..
      split
      · simp only [List.append_assoc]
        exact List.prefix_append ..
      · refine List.IsPrefix.trans ?_ ih
        simp only [List.append_assoc]
        exact List.prefix_append ..

/-- With a completion, the prompt becomes a turn of the array. -/
lemma aiDialogue_asked (config : AiConfig) (refusal : String) {remaining : ℕ}
    {turn : AiTurn V} {turns : List (AiTurn V)} {conversation : List (ConversationTurn V)}
    {prompt : String} {tokens : TokenUsage} :
    conversation ++ [.message "user" prompt] <+: (aiDialogue config refusal (remaining + 1)
      (turn :: turns) conversation (some prompt) tokens).conversation := by
  rw [aiDialogue]
  split
  · exact List.prefix_rfl
  split
  · exact List.prefix_append ..
  · exact (List.prefix_append ..).trans (aiDialogue_extends ..)

lemma aiDialogue_opening (config : AiConfig) (refusal : String) {remaining : ℕ}
    {turns : List (AiTurn V)} {conversation : List (ConversationTurn V)}
    {nextPrompt : Option String} {tokens : TokenUsage} :
    (aiDialogue config refusal (remaining + 1) turns conversation nextPrompt tokens).requests.head? =
      some ⟨nextPrompt,sentHistory conversation⟩ := by
  cases turns with
  | nil => rfl
  | cons turn turns =>
    rw [aiDialogue]
    split
    · rfl
    split <;> rfl

end Linea.Replays
