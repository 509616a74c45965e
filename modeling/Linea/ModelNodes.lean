import Linea.Metering
import Mathlib.Algebra.Group.Prod
import Mathlib.Algebra.GroupWithZero.Nat
import Mathlib.Algebra.Order.Group.Nat
import Mathlib.Algebra.Order.Monoid.Prod
import Mathlib.Data.Rat.Defs
import Mathlib.Data.List.Infix

/-! The node handlers that call a model provider: ai, extract and evaluator. One execution of a
handler is an `Ending`: the progress row that is left, the completions and the writes of that row in
their order, and the output's usage or the error thrown. What the provider, the tools, the lease and
the clocks do in an execution is an argument. -/
namespace Linea.Spending
open Metering

/-- `tokensInput` and `tokensOutput`. -/
abbrev TokenUsage := ℕ × ℕ

/-- The errors a handler throws, by their class. `usage` is `UsageError`, which is also a
`NonRetryableError`. -/
inductive NodeError
  | leaseLost
  | plain (message : String)
  | nonRetryable (message : String)
  | usage (message : String) (tokens : TokenUsage)
  | retryableUsage (message : String) (tokens : TokenUsage)
deriving DecidableEq

def NodeError.message (executionId : String) : NodeError → String
  | .leaseLost => s!"Lost the lease for execution {executionId} to another worker"
  | .plain message | .nonRetryable message | .usage message _ | .retryableUsage message _ => message

def NodeError.isNonRetryable : NodeError → Bool
  | .nonRetryable _ | .usage _ _ => true
  | .leaseLost | .plain _ | .retryableUsage _ _ => false

def getErrorTokenUsage : NodeError → Option TokenUsage
  | .usage _ tokens | .retryableUsage _ tokens => some tokens
  | .leaseLost | .plain _ | .nonRetryable _ => none

/-- The usage that a step can record of a handler's result: the output's, or the error's. -/
def usageOf : Except NodeError TokenUsage → Option TokenUsage
  | .ok tokens => some tokens
  | .error error => getErrorTokenUsage error

/-- What a step records of an error; a lost lease records no step. -/
def told : NodeError → Option TokenUsage
  | .leaseLost => none
  | error => some ((getErrorTokenUsage error).getD 0)

lemma told_of_usage {error : NodeError} {tokens : TokenUsage}
    (h : getErrorTokenUsage error = some tokens) : told error = some tokens := by
  cases error <;> simp_all [told,getErrorTokenUsage]

abbrev Execution (P : Type) := Ending (Option P) TokenUsage (Except NodeError TokenUsage)

structure ToolCall (V : Type) where
  id : String
  name : String
  arguments : V

/-- What `provider.complete` returns. -/
structure Completion (V : Type) where
  text : String
  toolCalls : List (ToolCall V)
  tokens : TokenUsage

section Ai

variable {V : Type}

/-- The content of a tool's answer goes to the provider only. -/
inductive ConversationTurn (V : Type)
  | message (role content : String)
  | assistant (toolCalls : List (ToolCall V))
  | tool (toolCallId : String)

structure AiProgress (V : Type) where
  conversation : List (ConversationTurn V)
  iteration : ℕ
  tokens : TokenUsage

structure AiConfig where
  tools : List String
  maxIterations : Option ℕ

def DEFAULT_MAX_ITERATIONS : ℕ := 10

def AiConfig.iterations (config : AiConfig) : ℕ :=
  config.maxIterations.getD DEFAULT_MAX_ITERATIONS

/-- One pass of the loop that the provider answers: the completion, whether the signal has been
aborted when the progress is due, what writing it gives (whether the lease is still held, or what the
database throws), and what calling each of its tools gives. -/
structure AiTurn (V : Type) where
  completion : Completion V
  aborted : Bool
  saving : Except String Bool
  calls : ℕ → Except String Unit

/-- One execution of the handler: `setup` is the parsing and the provider's key, `prompt` the history
and the prompt of a fresh run, `pending` the tools a resumed run still has to call, `turns` the
completions the provider returns in order, after which it throws `refusal`. -/
structure AiAttempt (V : Type) where
  setup : Except String Unit
  prompt : Except String (List (ConversationTurn V) × String)
  pending : ℕ → Except String Unit
  turns : List (AiTurn V)
  refusal : String

/-- `resolveToolCallTurn` of each call in order; an unknown tool is answered without a call. -/
def resolveToolCalls (config : AiConfig) (calls : ℕ → Except String Unit) :
    List (ToolCall V) → Except String (List (ConversationTurn V))
  | [] => .ok []
  | call :: rest =>
    match if call.name ∈ config.tools then calls 0 else .ok () with
    | .error message => .error message
    | .ok () =>
      (resolveToolCalls config (fun position => calls (position + 1)) rest).map
        (.tool call.id :: ·)

def ConversationTurn.toolCalls : ConversationTurn V → List (ToolCall V)
  | .assistant toolCalls => toolCalls
  | .message _ _ | .tool _ => []

/-- The calls of a conversation that ends in an assistant's turn. -/
def pendingToolCalls (conversation : List (ConversationTurn V)) : List (ToolCall V) :=
  (conversation.getLast?.map ConversationTurn.toolCalls).getD []

/-- Whether the progress is kept. -/
def AiTurn.keeps (turn : AiTurn V) : Except String Bool :=
  if turn.aborted then .ok false else turn.saving

/-- The loop, with the passes that `maxIterations` leaves. The row is written only under the lease,
and that it is not written without one is not noticed. -/
def aiLoop (config : AiConfig) (refusal : String) :
    ℕ → List (AiTurn V) → ℕ → List (ConversationTurn V) → Option String → TokenUsage →
      Option (AiProgress V) → Execution (AiProgress V)
  | 0, _, _, _, _, _, saved =>
    ⟨saved,[],.error (.plain
      s!"AI node exceeded maxIterations ({config.iterations}) without a final answer")⟩
  | _ + 1, [], _, _, _, _, saved => ⟨saved,[],.error (.plain refusal)⟩
  | remaining + 1, turn :: turns, iteration, conversation, nextPrompt, tokens, saved =>
    let total := tokens + turn.completion.tokens
    let asked := conversation ++ (nextPrompt.map (.message "user")).toList
    Ending.after [.spent turn.completion.tokens] <|
      if turn.completion.toolCalls.isEmpty then ⟨saved,[],.ok total⟩
      else
        let called := asked ++ [.assistant turn.completion.toolCalls]
        match turn.keeps with
        | .error message => ⟨saved,[],.error (.plain message)⟩
        | .ok kept =>
          let row := if kept then some ⟨called,iteration + 1,total⟩ else saved
          Ending.after (if kept then [.saved] else []) <|
            match resolveToolCalls config turn.calls turn.completion.toolCalls with
            | .error message => ⟨row,[],.error (.plain message)⟩
            | .ok outputs =>
              aiLoop config refusal remaining turns (iteration + 1) (called ++ outputs) none total row

structure AiStart (V : Type) where
  conversation : List (ConversationTurn V)
  nextPrompt : Option String
  iteration : ℕ
  tokens : TokenUsage

/-- A saved conversation is picked up instead of the prompt. -/
def AiAttempt.start (a : AiAttempt V) : Option (AiProgress V) → Except String (AiStart V)
  | some progress => .ok ⟨progress.conversation,none,progress.iteration,progress.tokens⟩
  | none => a.prompt.map fun (history,prompt) => ⟨history,some prompt,0,0⟩

def AiNode.execute (config : AiConfig) (a : AiAttempt V) (saved : Option (AiProgress V)) :
    Execution (AiProgress V) :=
  match a.setup with
  | .error message => ⟨saved,[],.error (.plain message)⟩
  | .ok () =>
    match a.start saved with
    | .error message => ⟨saved,[],.error (.plain message)⟩
    | .ok start =>
      match resolveToolCalls config a.pending (pendingToolCalls start.conversation) with
      | .error message => ⟨saved,[],.error (.plain message)⟩
      | .ok outputs =>
        aiLoop config a.refusal (config.iterations - start.iteration) a.turns start.iteration
          (start.conversation ++ outputs) start.nextPrompt start.tokens saved

def AiProgress.amount (saved : Option (AiProgress V)) : TokenUsage :=
  (saved.map AiProgress.tokens).getD 0

/-- Within the passes left the provider gives an answer; before it, every write of the progress and
every tool called answers. -/
def answers (config : AiConfig) : ℕ → List (AiTurn V) → Bool
  | 0, _ | _ + 1, [] => false
  | remaining + 1, turn :: turns =>
    turn.completion.toolCalls.isEmpty ||
      turn.keeps.isOk && (resolveToolCalls config turn.calls turn.completion.toolCalls).isOk &&
        answers config remaining turns

def AiAttempt.answered (config : AiConfig) (a : AiAttempt V) (saved : Option (AiProgress V)) : Bool :=
  match a.setup,a.start saved with
  | .ok (),.ok start =>
    (resolveToolCalls config a.pending (pendingToolCalls start.conversation)).isOk &&
      answers config (config.iterations - start.iteration) a.turns
  | _,_ => false

lemma isOk_error {ε α : Type} (error : ε) : (.error error : Except ε α).isOk = false := rfl

lemma isOk_ok {ε α : Type} (value : α) : (.ok value : Except ε α).isOk = true := rfl

lemma aiLoop_accounts (config : AiConfig) (refusal : String) {remaining : ℕ}
    {turns : List (AiTurn V)} {iteration : ℕ} {conversation : List (ConversationTurn V)}
    {nextPrompt : Option String} {tokens carried : TokenUsage} {saved : Option (AiProgress V)}
    (h : AiProgress.amount saved + carried = tokens) :
    Accounts AiProgress.amount told id (answers config remaining turns) tokens carried
      (aiLoop config refusal remaining turns iteration conversation nextPrompt tokens saved) := by
  induction remaining generalizing turns iteration conversation nextPrompt tokens carried saved with
  | zero => exact .told_zero h rfl (by simp [answers])
  | succ remaining ih =>
    cases turns with
    | nil => exact .told_zero h rfl (by simp [answers])
    | cons turn turns =>
      simp only [aiLoop,answers]
      refine .spend ?_
      have hheld : AiProgress.amount saved + (carried + turn.completion.tokens) =
          tokens + turn.completion.tokens := by rw [← add_assoc,h]
      cases hcalls : turn.completion.toolCalls.isEmpty
      swap
      · exact .ok hheld rfl rfl
      have hsaved (row : AiProgress V) (hrow : row.tokens = tokens + turn.completion.tokens) :
          AiProgress.amount (some row) + 0 = tokens + turn.completion.tokens := by
        rw [add_zero]
        exact hrow
      cases hkeeps : turn.keeps with
      | error message => exact .told_zero hheld rfl (by simp [isOk_error])
      | ok kept =>
        cases hresolved : resolveToolCalls config turn.calls turn.completion.toolCalls with
        | error message =>
          cases kept with
          | true => exact .save (.told_zero (hsaved _ rfl) rfl (by simp [isOk_error]))
          | false => exact .told_zero hheld rfl (by simp [isOk_error])
        | ok outputs =>
          cases kept with
          | true => exact .save (ih (hsaved _ rfl))
          | false => exact ih hheld

theorem AiNode.execute_accounts (config : AiConfig) (a : AiAttempt V)
    (saved : Option (AiProgress V)) :
    Accounts AiProgress.amount told id (a.answered config saved) (AiProgress.amount saved) 0
      (execute config a saved) := by
  have hstop (message : String) : Accounts AiProgress.amount told id False
      (AiProgress.amount saved) 0
      (⟨saved,[],.error (.plain message)⟩ : Execution (AiProgress V)) :=
    .told_zero (add_zero _) rfl not_false
  unfold execute AiAttempt.answered
  cases a.setup with
  | error message => exact (hstop message).of_iff (by simp)
  | ok =>
    cases hstart : a.start saved with
    | error message => exact (hstop message).of_iff (by simp)
    | ok start =>
      cases hresolved : resolveToolCalls config a.pending (pendingToolCalls start.conversation) with
      | error message =>
        simp only [hresolved]
        exact (hstop message).of_iff (by simp [isOk_error])
      | ok outputs =>
        have htokens : AiProgress.amount saved = start.tokens := by
          cases saved with
          | some progress =>
            cases hstart
            rfl
          | none =>
            cases hprompt : a.prompt with
            | error message => simp [AiAttempt.start,hprompt,Except.map] at hstart
            | ok prompt =>
              simp only [AiAttempt.start,hprompt,Except.map,Except.ok.injEq] at hstart
              rw [← hstart]
              rfl
        simp only [hresolved,isOk_ok,Bool.true_and]
        rw [htokens]
        exact aiLoop_accounts config a.refusal (by rw [add_zero,htokens])

end Ai

section Readers

variable {V : Type}

/-- How a value is read: `getPath`, text itself, what `JSON.stringify` gives, the regular expressions,
the arguments of the reporting tools and the checks of an extraction. Reading a property of arguments
that are null or undefined throws. -/
structure Readers (V : Type) where
  getPath : V → String → Option V
  asText : V → Option String
  stringify : V → Option String
  isSafeEvaluationRegex : String → Bool
  test : String → Option String → String → Bool
  evaluationSteps : V → Except String (Option (List String))
  evaluation : V → Except String (Option (ℚ × String))
  validated : V → Except String V
  isObject : V → Bool
  outputSchema : V → Except String Unit

def Completion.call (name : String) (completion : Completion V) : Option (ToolCall V) :=
  completion.toolCalls.find? fun call => call.name = name

/-- What a reporting tool is called with: `none` without a call, as without fields of the right kind. -/
def Completion.report {α : Type} (name : String) (read : V → Except String (Option α))
    (completion : Completion V) : Except String (Option α) :=
  match completion.call name with
  | none => .ok none
  | some call => read call.arguments

/-- One execution of the extract handler: `config` and `setup` are what parsing the configuration,
and the schema and the provider's key, give. -/
structure ExtractAttempt (V : Type) where
  config : Except String Unit
  input : V
  setup : Except String Unit
  completion : Except String (Completion V)

def resolveSource (read : Readers V) (input : V) (sourcePath : Option String) :
    Except NodeError String :=
  match sourcePath.filter (· ≠ "") with
  | some path =>
    match (read.getPath input path).bind read.asText with
    | some text => .ok text
    | none => .error (.nonRetryable s!"Extract node source path \"{path}\" must resolve to text")
  | none =>
    match read.asText input with
    | some text => .ok text
    | none =>
      .error (.nonRetryable "Extract node input must be text when source path is empty")

/-- What becomes of a completion; every refusal carries its tokens. -/
def extraction (read : Readers V) (completion : Completion V) : Except NodeError TokenUsage :=
  match completion.call "report_extraction" with
  | none => .error (.usage "Extract model did not return an extraction" completion.tokens)
  | some call =>
    match read.validated call.arguments with
    | .error message =>
      .error (.usage
        s!"Extract model returned data that does not match the schema: {message}" completion.tokens)
    | .ok data =>
      if read.isObject data then
        match read.outputSchema data with
        | .error message =>
          .error (.usage s!"Extract model returned invalid data: {message}" completion.tokens)
        | .ok () => .ok completion.tokens
      else .error (.usage "Extract model returned a non-object extraction" completion.tokens)

/-- The extract handler keeps no progress: `Unit` is never saved. -/
def ExtractNode.execute (read : Readers V) (sourcePath : Option String) (a : ExtractAttempt V)
    (saved : Option Unit) : Execution Unit :=
  match a.config with
  | .error message =>
    ⟨saved,[],.error (.nonRetryable s!"Extract node has invalid configuration: {message}")⟩
  | .ok () =>
    match resolveSource read a.input sourcePath with
    | .error error => ⟨saved,[],.error error⟩
    | .ok _ =>
      match a.setup with
      | .error message => ⟨saved,[],.error (.plain message)⟩
      | .ok () =>
        match a.completion with
        | .error message => ⟨saved,[],.error (.plain message)⟩
        | .ok completion => ⟨saved,[.spent completion.tokens],extraction read completion⟩

def noAmount (_ : Option Unit) : TokenUsage := 0

lemma extraction_usage (read : Readers V) (completion : Completion V) :
    usageOf (extraction read completion) = some completion.tokens := by
  unfold extraction
  split
  · rfl
  split
  · rfl
  split
  · split <;> rfl
  · rfl

lemma extraction_nonRetryable {read : Readers V} {completion : Completion V} {error : NodeError}
    (h : extraction read completion = .error error) : error.isNonRetryable = true := by
  unfold extraction at h
  split at h
  · cases h
    rfl
  split at h
  · cases h
    rfl
  split at h
  · split at h <;> cases h
    rfl
  · cases h
    rfl

lemma resolveSource_told (read : Readers V) {input : V} {sourcePath : Option String}
    {error : NodeError} (h : resolveSource read input sourcePath = .error error) :
    told error = some 0 := by
  unfold resolveSource at h
  split at h <;> split at h <;> cases h <;> rfl

/-- A completion of the extract handler is its last step and is always reported. -/
theorem ExtractNode.execute_cases (read : Readers V) (sourcePath : Option String)
    (a : ExtractAttempt V) (saved : Option Unit) :
    (∃ error, execute read sourcePath a saved = ⟨saved,[],.error error⟩ ∧ told error = some 0) ∨
    ∃ completion, execute read sourcePath a saved =
      ⟨saved,[.spent completion.tokens],extraction read completion⟩ := by
  unfold execute
  split
  · exact .inl ⟨_,rfl,rfl⟩
  split
  · rename_i error herror
    exact .inl ⟨error,rfl,resolveSource_told read herror⟩
  split
  · exact .inl ⟨_,rfl,rfl⟩
  split
  · exact .inl ⟨_,rfl,rfl⟩
  · exact .inr ⟨_,rfl⟩

theorem ExtractNode.execute_accounts (read : Readers V) (sourcePath : Option String)
    (a : ExtractAttempt V) (saved : Option Unit) :
    Accounts noAmount told id True (noAmount saved) 0 (execute read sourcePath a saved) := by
  obtain ⟨error,heq,herror⟩ | ⟨completion,heq⟩ := execute_cases read sourcePath a saved
  · rw [heq]
    exact .told_all (add_zero _) herror trivial
  · rw [heq]
    have hheld : noAmount saved + (0 + completion.tokens) = noAmount saved + completion.tokens := by
      rw [zero_add]
    have husage := extraction_usage read completion
    have hstop : Accounts noAmount told id True (noAmount saved + completion.tokens)
        (0 + completion.tokens) (⟨saved,[],extraction read completion⟩ : Execution Unit) := by
      cases hresult : extraction read completion with
      | ok tokens =>
        rw [hresult] at husage
        cases husage
        exact .ok hheld (zero_add _).symm trivial
      | error error =>
        rw [hresult] at husage
        exact .told_all hheld ((told_of_usage husage).trans (by simp [noAmount])) trivial
    exact hstop.spend

end Readers

section Evaluator

variable {V : Type}

inductive EvaluationParameter
  | input
  | actualOutput
  | expectedOutput
  | context
  | retrievalContext
deriving DecidableEq

def EvaluationParameter.name : EvaluationParameter → String
  | .input => "input"
  | .actualOutput => "actualOutput"
  | .expectedOutput => "expectedOutput"
  | .context => "context"
  | .retrievalContext => "retrievalContext"

structure SampleBindings where
  inputPath : Option String
  actualOutputPath : Option String
  expectedOutputPath : Option String
  contextPath : Option String
  retrievalContextPath : Option String

/-- `undefined` is `none`; the actual output is always there. -/
structure EvaluationSample (V : Type) where
  input : Option V
  actualOutput : V
  expectedOutput : Option V
  context : Option V
  retrievalContext : Option V

def EvaluationSample.get (sample : EvaluationSample V) : EvaluationParameter → Option V
  | .input => sample.input
  | .actualOutput => some sample.actualOutput
  | .expectedOutput => sample.expectedOutput
  | .context => sample.context
  | .retrievalContext => sample.retrievalContext

structure GEvalMetric where
  id : String
  revision : ℕ
  name : String
  threshold : ℚ
  criteria : Option String
  evaluationSteps : Option (List String)
  evaluationParams : List EvaluationParameter

inductive RuleMetric
  | contains (value : String)
  | notContains (value : String)
  | regex (pattern : String) (flags : Option String)

inductive EvaluationMetric
  | gEval (metric : GEvalMetric)
  | rule (name : String) (metric : RuleMetric)

/-- A configuration that the input schema accepts names a judge when a metric needs one. -/
structure EvaluatorConfig where
  sample : SampleBindings
  metrics : List EvaluationMetric
  model : Option String
  judged : ∀ metric, .gEval metric ∈ metrics → model.isSome

def resolvePath (read : Readers V) (input : V) (field : String) (path : Option String) :
    Except String (Option V) :=
  match path with
  | none => .ok none
  | some path =>
    match read.getPath input path with
    | some value => .ok (some value)
    | none => .error s!"{field} path \"{path}\" did not resolve to a value"

def buildEvaluationSample (read : Readers V) (input : V) (bindings : SampleBindings) :
    Except String (EvaluationSample V) := do
  let actualOutput ← resolvePath read input "actualOutput" bindings.actualOutputPath
  let bound ← resolvePath read input "input" bindings.inputPath
  let expectedOutput ← resolvePath read input "expectedOutput" bindings.expectedOutputPath
  let context ← resolvePath read input "context" bindings.contextPath
  let retrievalContext ← resolvePath read input "retrievalContext" bindings.retrievalContextPath
  return ⟨bound,actualOutput.getD input,expectedOutput,context,retrievalContext⟩

def validateEvaluationParameters (sample : EvaluationSample V)
    (parameters : List EvaluationParameter) : Except String Unit :=
  match parameters.find? fun parameter => (sample.get parameter).isNone with
  | some parameter =>
    .error s!"Metric requires {parameter.name}, but its sample binding is not configured"
  | none => .ok ()

def textValue (read : Readers V) (value : V) : Except String String :=
  match read.asText value,read.stringify value with
  | some text,_ | none,some text => .ok text
  | none,none => .error "actualOutput could not be serialized for rule evaluation"

def MAX_REGEX_INPUT_LENGTH : ℕ := 100000

def utf16Length (text : String) : ℕ :=
  (text.toList.map fun c => if c.toNat < 0x10000 then 1 else 2).sum

def includes (text value : String) : Bool :=
  decide (value.toList <:+: text.toList)

def RuleMetric.matched (read : Readers V) (text : String) : RuleMetric → Except String Bool
  | .contains value => .ok (includes text value)
  | .notContains value => .ok !includes text value
  | .regex pattern flags =>
    if !read.isSafeEvaluationRegex pattern then .error "Evaluator regex is unsafe"
    else if MAX_REGEX_INPUT_LENGTH < utf16Length text then
      .error s!"Evaluator regex input exceeds {MAX_REGEX_INPUT_LENGTH} characters"
    else .ok (read.test pattern flags text)

/-- Whether the rule passes; its result spends nothing. -/
def evaluateRuleMetric (read : Readers V) (sample : EvaluationSample V) (metric : RuleMetric) :
    Except String Bool :=
  match textValue read sample.actualOutput with
  | .error message => .error message
  | .ok text => metric.matched read text

structure MetricResult where
  score : ℚ
  passed : Bool
  reason : String
  evaluationSteps : List String
  tokens : TokenUsage

structure MetricProgress where
  revision : ℕ
  steps : Option (List String)
  tokens : TokenUsage
  result : Option MetricResult

/-- The row of the node and, during an execution, the state it is written from. -/
structure EvaluatorProgress where
  metrics : String → Option MetricProgress
  tokens : TokenUsage

def EvaluatorProgress.amount (saved : Option EvaluatorProgress) : TokenUsage :=
  (saved.map EvaluatorProgress.tokens).getD 0

def EvaluatorProgress.put (progress : EvaluatorProgress) (metric : GEvalMetric)
    (entry : MetricProgress) : EvaluatorProgress :=
  { progress with metrics := Function.update progress.metrics metric.id (some entry) }

/-- The entry of the metric's own revision, or a new one. -/
def EvaluatorProgress.entry (progress : EvaluatorProgress) (metric : GEvalMetric) : MetricProgress :=
  ((progress.metrics metric.id).filter fun entry => entry.revision = metric.revision).getD
    ⟨metric.revision,none,0,none⟩

/-- What the judge's metric meets: the provider's key, the steps cached for the metric (when it has a
cache key), the two completions, what storing steps in the cache gives, and what each write of the row
gives, as in `AiTurn`. -/
structure JudgeTurn (V : Type) where
  judge : Except String Unit
  cacheKey : Bool
  cached : Option (List String)
  generated : Except String (Completion V)
  stored : List String → Except String (List String)
  savingSteps : Except String Bool
  scored : Except String (Completion V)
  savingScore : Except String Bool

/-- What is thrown inside the metric's `try`; `response` is `EvaluationResponseError`. -/
inductive JudgeError
  | leaseLost
  | response (message : String) (tokens : TokenUsage)
  | other (message : String)

/-- The `catch` of the metric, with the tokens counted when it is entered. -/
def JudgeError.rethrow (tokens : TokenUsage) : JudgeError → NodeError
  | .response message spent => .usage message (tokens + spent)
  | .leaseLost => .leaseLost
  | .other message =>
    if 0 < tokens.1 ∨ 0 < tokens.2 then .retryableUsage message tokens else .plain message

/-- The state within the `try`: the entry of the metric, the progress and the steps. -/
structure Judging where
  entry : MetricProgress
  progress : EvaluatorProgress
  steps : List String

def Judging.tokens (judging : Judging) : TokenUsage := judging.progress.tokens

/-- `saveProgress`. -/
def saveProgress {α : Type} (saving : Except String Bool) (saved : Option EvaluatorProgress)
    (progress : EvaluatorProgress) (value : α) :
    Ending (Option EvaluatorProgress) TokenUsage (Except NodeError α) :=
  match saving with
  | .error message => ⟨saved,[],.error (JudgeError.rethrow progress.tokens (.other message))⟩
  | .ok true => ⟨some progress,[.saved],.ok value⟩
  | .ok false => ⟨saved,[],.error (JudgeError.rethrow progress.tokens .leaseLost)⟩

/-- The steps that need not be generated: authored, saved or cached. -/
def knownSteps (turn : JudgeTurn V) (metric : GEvalMetric) (progress : EvaluatorProgress) :
    Option (List String) :=
  let cached := if turn.cacheKey then turn.cached else none
  (metric.evaluationSteps.or (progress.entry metric).steps).or cached

def resolveSteps (read : Readers V) (turn : JudgeTurn V) (metric : GEvalMetric)
    (progress : EvaluatorProgress) (saved : Option EvaluatorProgress) :
    Ending (Option EvaluatorProgress) TokenUsage (Except NodeError Judging) :=
  let entry := progress.entry metric
  match knownSteps turn metric progress with
  | some steps => ⟨saved,[],.ok ⟨entry,progress,steps⟩⟩
  | none =>
    match turn.generated with
    | .error message => ⟨saved,[],.error (JudgeError.rethrow progress.tokens (.other message))⟩
    | .ok completion =>
      Ending.after [.spent completion.tokens] <|
        match completion.report "report_evaluation_steps" read.evaluationSteps with
        -- Thrown before the tokens of the completion are counted.
        | .error message => ⟨saved,[],.error (JudgeError.rethrow progress.tokens (.other message))⟩
        | .ok none =>
          ⟨saved,[],.error (JudgeError.rethrow progress.tokens
            (.response "Judge model did not return valid evaluation steps" completion.tokens))⟩
        | .ok (some steps) =>
          let counted : EvaluatorProgress :=
            { progress with tokens := progress.tokens + completion.tokens }
          match if turn.cacheKey then turn.stored steps else .ok steps with
          | .error message =>
            ⟨saved,[],.error (JudgeError.rethrow counted.tokens (.other message))⟩
          | .ok steps =>
            ⟨saved,[],.ok
              ⟨{ entry with tokens := entry.tokens + completion.tokens },counted,steps⟩⟩

/-- Steps that the metric does not author are saved with its entry. -/
def keepSteps (turn : JudgeTurn V) (metric : GEvalMetric) (saved : Option EvaluatorProgress)
    (judging : Judging) :
    Ending (Option EvaluatorProgress) TokenUsage (Except NodeError Judging) :=
  if metric.evaluationSteps.isNone && judging.entry.steps.isNone then
    let entry := { judging.entry with steps := some judging.steps }
    let progress := judging.progress.put metric entry
    saveProgress turn.savingSteps saved progress ⟨entry,progress,judging.steps⟩
  else ⟨saved,[],.ok judging⟩

def scoreMetric (read : Readers V) (turn : JudgeTurn V) (metric : GEvalMetric)
    (saved : Option EvaluatorProgress) (judging : Judging) :
    Ending (Option EvaluatorProgress) TokenUsage (Except NodeError EvaluatorProgress) :=
  match turn.scored with
  | .error message =>
    ⟨saved,[],.error (JudgeError.rethrow judging.progress.tokens (.other message))⟩
  | .ok completion =>
    Ending.after [.spent completion.tokens] <|
      match completion.report "report_evaluation" read.evaluation with
      | .error message =>
        ⟨saved,[],.error (JudgeError.rethrow judging.progress.tokens (.other message))⟩
      | .ok none =>
        ⟨saved,[],.error (JudgeError.rethrow judging.progress.tokens (.response
          "Judge model did not return a valid score and reason" completion.tokens))⟩
      | .ok (some (score,reason)) =>
        let tokens := judging.entry.tokens + completion.tokens
        let result : MetricResult :=
          ⟨score,decide (metric.threshold ≤ score),reason,judging.steps,tokens⟩
        let counted : EvaluatorProgress :=
          { judging.progress with tokens := judging.progress.tokens + completion.tokens }
        let progress :=
          counted.put metric { judging.entry with tokens := tokens, result := some result }
        saveProgress turn.savingScore saved progress progress

/-- `getJudge` looks for the key once, at the first metric that needs it. -/
def judgeMetric (read : Readers V) (turn : JudgeTurn V) (metric : GEvalMetric) (resolved : Bool)
    (progress : EvaluatorProgress) (saved : Option EvaluatorProgress) :
    Ending (Option EvaluatorProgress) TokenUsage (Except NodeError EvaluatorProgress) :=
  match if resolved then .ok () else turn.judge with
  | .error message => ⟨saved,[],.error (JudgeError.rethrow progress.tokens (.other message))⟩
  | .ok () =>
    ((resolveSteps read turn metric progress saved).andThen
      (keepSteps turn metric)).andThen (scoreMetric read turn metric)

def metricLoop (read : Readers V) (sample : EvaluationSample V) :
    List EvaluationMetric → (ℕ → JudgeTurn V) → Bool → EvaluatorProgress →
      Option EvaluatorProgress → Execution EvaluatorProgress
  | [], _, _, progress, saved => ⟨saved,[],.ok progress.tokens⟩
  | .rule name metric :: metrics, turns, resolved, progress, saved =>
    match evaluateRuleMetric read sample metric with
    | .error message =>
      ⟨saved,[],.error (.nonRetryable s!"Evaluator node metric \"{name}\" failed: {message}")⟩
    | .ok _ =>
      metricLoop read sample metrics (fun position => turns (position + 1)) resolved progress saved
  | .gEval metric :: metrics, turns, resolved, progress, saved =>
    match validateEvaluationParameters sample metric.evaluationParams with
    | .error message =>
      ⟨saved,[],.error (.nonRetryable
        s!"Evaluator node metric \"{metric.name}\" has invalid sample bindings: {message}")⟩
    | .ok () =>
      if (progress.entry metric).result.isSome then
        metricLoop read sample metrics (fun position => turns (position + 1)) resolved progress saved
      else
        (judgeMetric read (turns 0) metric resolved progress saved).andThen fun saved progress =>
          metricLoop read sample metrics (fun position => turns (position + 1)) true progress saved

/-- One execution of the evaluator: `parsed` is whether the schema accepts the configuration. -/
structure EvaluatorAttempt (V : Type) where
  parsed : Except String Unit
  input : V
  turns : ℕ → JudgeTurn V

def EvaluatorNode.execute (read : Readers V) (config : EvaluatorConfig) (a : EvaluatorAttempt V)
    (saved : Option EvaluatorProgress) : Execution EvaluatorProgress :=
  match a.parsed with
  | .error message =>
    ⟨saved,[],.error (.nonRetryable s!"Evaluator node has invalid configuration: {message}")⟩
  | .ok () =>
    match buildEvaluationSample read a.input config.sample with
    | .error message =>
      ⟨saved,[],.error (.nonRetryable s!"Evaluator node has invalid sample bindings: {message}")⟩
    | .ok sample =>
      metricLoop read sample config.metrics a.turns false (saved.getD ⟨fun _ => none,0⟩) saved

lemma told_rethrow_other (tokens : TokenUsage) (message : String) :
    told (JudgeError.rethrow tokens (.other message)) = some tokens := by
  simp only [JudgeError.rethrow]
  split
  · rfl
  · rename_i h
    have hzero : tokens = 0 := by
      apply Prod.ext <;> simp only [Prod.fst_zero,Prod.snd_zero] <;> omega
    rw [hzero]
    rfl

/-- A completion whose report can be read, or that cost nothing. -/
def Completion.readable {α : Type} (name : String) (read : V → Except String (Option α))
    (completion : Completion V) : Prop :=
  completion.tokens = 0 ∨ (completion.report name read).isOk

/-- Steps that have to be generated come in a report that can be read. -/
def stepsRead (read : Readers V) (turn : JudgeTurn V) (metric : GEvalMetric)
    (progress : EvaluatorProgress) : Prop :=
  knownSteps turn metric progress = none → ∀ completion, turn.generated = .ok completion →
    completion.readable "report_evaluation_steps" read.evaluationSteps

def scoreRead (read : Readers V) (turn : JudgeTurn V) : Prop :=
  ∀ completion, turn.scored = .ok completion →
    completion.readable "report_evaluation" read.evaluation

lemma saveProgress_accounts {α : Type} {f : α → TokenUsage} (saving : Except String Bool)
    {tokens carried : TokenUsage} {saved : Option EvaluatorProgress} {progress : EvaluatorProgress}
    {value : α} (hheld : EvaluatorProgress.amount saved + carried = tokens)
    (hprogress : progress.tokens = tokens) (hvalue : f value = tokens) :
    Accounts EvaluatorProgress.amount told f True tokens carried
      (saveProgress saving saved progress value) := by
  unfold saveProgress
  split
  · exact .told_all hheld (by rw [told_rethrow_other,hprogress]) trivial
  · have hok : Accounts EvaluatorProgress.amount told f True tokens 0
        ⟨some progress,[],.ok value⟩ :=
      .ok (by simp [EvaluatorProgress.amount,hprogress]) hvalue trivial
    exact hok.save
  · exact .untold hheld rfl

lemma resolveSteps_accounts (read : Readers V) (turn : JudgeTurn V) (metric : GEvalMetric)
    {progress : EvaluatorProgress} {saved : Option EvaluatorProgress} {carried : TokenUsage}
    (h : EvaluatorProgress.amount saved + carried = progress.tokens) :
    Accounts EvaluatorProgress.amount told Judging.tokens (stepsRead read turn metric progress)
      progress.tokens carried (resolveSteps read turn metric progress saved) := by
  unfold resolveSteps stepsRead
  cases knownSteps turn metric progress with
  | some steps => exact .ok h rfl (by simp)
  | none =>
    cases turn.generated with
    | error message => exact .told_all h (told_rethrow_other _ _) (by simp)
    | ok completion =>
      have hheld : EvaluatorProgress.amount saved + (carried + completion.tokens) =
          progress.tokens + completion.tokens := by rw [← add_assoc,h]
      simp only [Completion.readable,Except.ok.injEq,forall_eq',true_implies]
      cases completion.report "report_evaluation_steps" read.evaluationSteps with
      | error message => exact .told_before h (told_rethrow_other _ _) (by simp [isOk_error])
      | ok report =>
        have hreads : completion.tokens = 0 ∨
            (.ok report : Except String (Option (List String))).isOk = true := .inr rfl
        refine .spend ?_
        cases report with
        | none => exact .told_all hheld rfl hreads
        | some steps =>
          dsimp only
          split
          · exact .told_all hheld (told_rethrow_other _ _) hreads
          · exact .ok hheld rfl hreads

lemma keepSteps_accounts (turn : JudgeTurn V) (metric : GEvalMetric)
    {saved : Option EvaluatorProgress} {judging : Judging} {carried : TokenUsage}
    (h : EvaluatorProgress.amount saved + carried = judging.tokens) :
    Accounts EvaluatorProgress.amount told Judging.tokens True judging.tokens carried
      (keepSteps turn metric saved judging) := by
  unfold keepSteps
  split
  · exact saveProgress_accounts turn.savingSteps h rfl rfl
  · exact .ok h rfl trivial

lemma scoreMetric_accounts (read : Readers V) (turn : JudgeTurn V) (metric : GEvalMetric)
    {saved : Option EvaluatorProgress} {judging : Judging} {carried : TokenUsage}
    (h : EvaluatorProgress.amount saved + carried = judging.tokens) :
    Accounts EvaluatorProgress.amount told EvaluatorProgress.tokens (scoreRead read turn)
      judging.tokens carried (scoreMetric read turn metric saved judging) := by
  unfold scoreMetric scoreRead
  cases turn.scored with
  | error message => exact .told_all h (told_rethrow_other _ _) (by simp)
  | ok completion =>
    have hheld : EvaluatorProgress.amount saved + (carried + completion.tokens) =
        judging.tokens + completion.tokens := by rw [← add_assoc,h]
    simp only [Completion.readable,Except.ok.injEq,forall_eq']
    cases completion.report "report_evaluation" read.evaluation with
    | error message => exact .told_before h (told_rethrow_other _ _) (by simp [isOk_error])
    | ok report =>
      refine .spend ?_
      cases report with
      | none => exact .told_all hheld rfl (.inr rfl)
      | some scored =>
        refine Accounts.of_iff ?_ (iff_true_intro (.inr rfl))
        exact saveProgress_accounts turn.savingScore hheld rfl rfl

/-- The reports that a metric's judge is asked for can be read. -/
def judgeRead (read : Readers V) (turn : JudgeTurn V) (metric : GEvalMetric) (resolved : Bool)
    (progress : EvaluatorProgress) (saved : Option EvaluatorProgress) : Prop :=
  (resolved = true ∨ turn.judge = .ok ()) →
    stepsRead read turn metric progress ∧
      ∀ judging, ((resolveSteps read turn metric progress saved).andThen
        (keepSteps turn metric)).result = .ok judging → scoreRead read turn

lemma judgeMetric_accounts (read : Readers V) (turn : JudgeTurn V) (metric : GEvalMetric)
    (resolved : Bool) {progress : EvaluatorProgress} {saved : Option EvaluatorProgress}
    {carried : TokenUsage} (h : EvaluatorProgress.amount saved + carried = progress.tokens) :
    Accounts EvaluatorProgress.amount told EvaluatorProgress.tokens
      (judgeRead read turn metric resolved progress saved) progress.tokens carried
      (judgeMetric read turn metric resolved progress saved) := by
  have hkept : Accounts EvaluatorProgress.amount told Judging.tokens
      (stepsRead read turn metric progress) progress.tokens carried
      ((resolveSteps read turn metric progress saved).andThen (keepSteps turn metric)) :=
    ((resolveSteps_accounts read turn metric h).andThen
      fun judging _ hheld => keepSteps_accounts turn metric hheld).of_iff (by simp)
  have hscored := hkept.andThen fun judging _ hheld => scoreMetric_accounts read turn metric hheld
  unfold judgeMetric judgeRead
  cases resolved with
  | true => simpa using hscored
  | false =>
    cases turn.judge with
    | error message => exact .told_all h (told_rethrow_other _ _) (by simp)
    | ok => simpa using hscored

/-- Every metric that the loop reaches can be evaluated on the sample: the rules apply to it, the
judges' parameters are bound and their reports can be read. -/
def metricsBound (read : Readers V) (sample : EvaluationSample V) :
    List EvaluationMetric → (ℕ → JudgeTurn V) → Bool → EvaluatorProgress →
      Option EvaluatorProgress → Prop
  | [], _, _, _, _ => True
  | .rule _ metric :: metrics, turns, resolved, progress, saved =>
    (evaluateRuleMetric read sample metric).isOk ∧
      metricsBound read sample metrics (fun position => turns (position + 1)) resolved progress saved
  | .gEval metric :: metrics, turns, resolved, progress, saved =>
    (validateEvaluationParameters sample metric.evaluationParams).isOk ∧
      if (progress.entry metric).result.isSome then
        metricsBound read sample metrics (fun position => turns (position + 1)) resolved progress saved
      else
        let judged := judgeMetric read (turns 0) metric resolved progress saved
        judgeRead read (turns 0) metric resolved progress saved ∧
          ∀ next, judged.result = .ok next →
            metricsBound read sample metrics (fun position => turns (position + 1)) true next
              judged.progress

lemma metricLoop_accounts (read : Readers V) (sample : EvaluationSample V)
    {metrics : List EvaluationMetric} {turns : ℕ → JudgeTurn V} {resolved : Bool}
    {progress : EvaluatorProgress} {saved : Option EvaluatorProgress} {carried : TokenUsage}
    (h : EvaluatorProgress.amount saved + carried = progress.tokens) :
    Accounts EvaluatorProgress.amount told id
      (metricsBound read sample metrics turns resolved progress saved) progress.tokens carried
      (metricLoop read sample metrics turns resolved progress saved) := by
  induction metrics generalizing turns resolved progress saved carried with
  | nil => exact .ok h rfl trivial
  | cons metric metrics ih =>
    cases metric with
    | rule name metric =>
      unfold metricLoop metricsBound
      cases evaluateRuleMetric read sample metric with
      | error message => exact .told_zero h rfl (by simp [isOk_error])
      | ok passed => exact (ih h).of_iff (by simp [isOk_ok])
    | gEval metric =>
      unfold metricLoop metricsBound
      cases validateEvaluationParameters sample metric.evaluationParams with
      | error message => exact .told_zero h rfl (by simp [isOk_error])
      | ok =>
        cases (progress.entry metric).result.isSome with
        | true => exact (ih h).of_iff (by simp [isOk_ok])
        | false =>
          simp only [isOk_ok,true_and,Bool.false_eq_true,if_false]
          refine (judgeMetric_accounts read (turns 0) metric resolved h).andThen ?_
          exact fun next _ hheld => ih hheld

/-- The configuration parses, the sample can be built and every metric reached can be evaluated. -/
def EvaluatorAttempt.bound (read : Readers V) (config : EvaluatorConfig) (a : EvaluatorAttempt V)
    (saved : Option EvaluatorProgress) : Prop :=
  match a.parsed,buildEvaluationSample read a.input config.sample with
  | .ok (),.ok sample =>
    metricsBound read sample config.metrics a.turns false (saved.getD ⟨fun _ => none,0⟩) saved
  | _,_ => False

lemma amount_getD (saved : Option EvaluatorProgress) :
    EvaluatorProgress.amount saved = (saved.getD ⟨fun _ => none,0⟩).tokens := by
  cases saved <;> rfl

theorem EvaluatorNode.execute_accounts (read : Readers V) (config : EvaluatorConfig)
    (a : EvaluatorAttempt V) (saved : Option EvaluatorProgress) :
    Accounts EvaluatorProgress.amount told id (a.bound read config saved)
      (EvaluatorProgress.amount saved) 0 (execute read config a saved) := by
  unfold execute EvaluatorAttempt.bound
  cases a.parsed with
  | error message => exact .told_zero (add_zero _) rfl not_false
  | ok =>
    cases buildEvaluationSample read a.input config.sample with
    | error message => exact .told_zero (add_zero _) rfl not_false
    | ok sample =>
      rw [amount_getD]
      exact metricLoop_accounts read sample (by rw [add_zero,amount_getD])

end Evaluator

end Linea.Spending
