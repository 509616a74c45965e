import Linea.ModelNodes
import Linea.Usage

/-! Regression runs: `regression-execution.service.ts` and `regression-grading.ts`. The calls of the
nodes, of the agent and of the judges have outcomes of their own; what they cost is counted beside what
the run records. Scores, which are floating-point means, are left out. -/
namespace Linea.Regressions
open Spending (Completion)
open Usage (resolveNodeModel calculateCostMicros)

/-- Whole counts, as providers give them. -/
abbrev TokenUsage := Usage.TokenUsage ℤ

/-- What the code holds as `unknown`: beside the values there are the functions that objects inherit. -/
inductive Unknown
  | undefined
  | null
  | bool (b : Bool)
  | number (bits : UInt64)
  | string (s : String)
  | array (items : List Unknown)
  | object (fields : List (String × Unknown))
  | function

mutual
/-- Every part of a value passes, leaves as well as keys. -/
def Unknown.every (leaf : Unknown → Bool) (key : String → Bool) : Unknown → Bool
  | .array items => everyItem leaf key items
  | .object fields => everyField leaf key fields
  | v => leaf v

def everyItem (leaf : Unknown → Bool) (key : String → Bool) : List Unknown → Bool
  | [] => true
  | v :: items => v.every leaf key && everyItem leaf key items

def everyField (leaf : Unknown → Bool) (key : String → Bool) : List (String × Unknown) → Bool
  | [] => true
  | (k,v) :: fields => key k && v.every leaf key && everyField leaf key fields
end

/-- `jsonValueSchema`: no function, no `undefined` and no number that is not finite. -/
def isJson : Unknown → Bool :=
  Unknown.every (fun
    | .undefined | .function => false
    | .number bits => bits.toNat / 2 ^ 52 % 2 ^ 11 ≠ 2 ^ 11 - 1
    | _ => true) fun _ => true

/-- A `jsonb` column refuses texts with U+0000. -/
def storable : Unknown → Bool :=
  Unknown.every (fun
    | .string s => !s.toList.contains '\x00'
    | _ => true) fun key => !key.toList.contains '\x00'

/-- How values and texts are read: `getPath`, which finds inherited functions too, `JSON.stringify`,
which gives `undefined` for some values, regular expressions (the constructor throws on some), and the
message of `jsonValueSchema`. -/
structure Readers where
  getPath : Unknown → String → Unknown
  stringify : Unknown → Option String
  isSafeEvaluationRegex : String → Bool
  test : String → Option String → String → Except String Bool
  schemaMessage : Unknown → String

structure Assertion where
  type : String
  config : List (String × Value)

/-- What one judge meets: the keys of the environment, and the answer of the provider. -/
structure JudgeCall where
  apiKey : String → Except String Unit
  complete : String → String → Except String (Completion Value)

structure AssertionResult where
  type : String
  passed : Bool
  detail : Option String
  costMicros : ℤ

def text (config : List (String × Value)) (key : String) : Option String :=
  match Value.field config key with
  | .string s => some s
  | _ => none

/-- The tokens of a completion as they are priced, an unknown model at nothing. -/
def cost (model : String) (usage : TokenUsage) : ℤ := (calculateCostMicros model usage).getD 0

/-! ### Grading -/

section Grading
variable (read : Readers)

/-- `stringTarget`, `none` where the target does not resolve; an empty target is none. What resolves
may be without a text, which is then `undefined`. -/
def stringTarget (output : Unknown) (config : List (String × Value)) : Option (Option String) :=
  let value := match (text config "target").filter (· ≠ "") with
    | some target => read.getPath output target
    | none => output
  match value with
  | .undefined => none
  | .string s => some (some s)
  | value => some (read.stringify value)

/-- `textValue` of a text, or of `undefined`. -/
def textValue : Option String → Except String String
  | some text => .ok text
  | none => .error "actualOutput could not be serialized for rule evaluation"

def evaluateContains (target : Option String) (config : List (String × Value)) (negate : Bool) :
    Except String Bool := do
  let target ← textValue target
  let found := Spending.includes target ((text config "value").getD "")
  return if negate then !found else found

/-- What cannot be read, a pattern that is malformed or unsafe, and a text that is too long fail the
assertion. -/
def evaluateRegex (target : Option String) (config : List (String × Value)) : Bool :=
  let pattern := (text config "pattern").getD ""
  match textValue target with
  | .error _ => false
  | .ok target =>
    if !read.isSafeEvaluationRegex pattern then false
    else if Spending.MAX_REGEX_INPUT_LENGTH < Spending.utf16Length target then false
    else match read.test pattern (text config "flags") target with
      | .ok matched => matched
      | .error _ => false

def DEFAULT_JUDGE_MODEL_CANDIDATES : List String :=
  ["claude-haiku-4-5-20251001","gpt-5-mini","openai/gpt-oss-20b","grok-4.5"]

def candidates (config : List (String × Value)) : List String :=
  match (text config "model").filter (· ≠ "") with
  | some model => [model]
  | none => DEFAULT_JUDGE_MODEL_CANDIDATES

/-- The first candidate that has a key. -/
def resolveJudgeModel (call : JudgeCall) (config : List (String × Value)) : Except String String :=
  match (candidates config).find? fun model => (call.apiKey model).isOk with
  | some model => .ok model
  | none =>
    let errors := (candidates config).filterMap fun model =>
      match call.apiKey model with
      | .error message => some message
      | .ok () => none
    .error ("No usable judge model — tried " ++ ", ".intercalate (candidates config) ++ ": " ++
      "; ".intercalate errors)

def judgePrompt (content : String) (config : List (String × Value)) : String :=
  "Rubric: " ++ (text config "rubric").getD "Judge whether the content is acceptable." ++
    "\n\nContent:\n" ++ content

structure Judgement where
  passed : Bool
  detail : String
  costMicros : ℤ

/-- The completion of a judge, with the model that it is priced by. -/
def judged (call : JudgeCall) (content : String) (config : List (String × Value)) :
    Except String (String × Completion Value) := do
  let model ← resolveJudgeModel call config
  let result ← call.complete model (judgePrompt content config)
  return (model,result)

def completionCost (model : String) (result : Completion Value) : ℤ :=
  cost model ⟨result.tokens.1,result.tokens.2⟩

/-- The receiver that a TypeError names. -/
def receiver : Value → String
  | .undefined => "undefined"
  | _ => "null"

/-- `evaluateLlmJudge`. Arguments of which no property can be read are thrown on, after the provider
has been paid. -/
def evaluateLlmJudge (call : JudgeCall) (content : String) (config : List (String × Value)) :
    Except String Judgement := do
  let (model,result) ← judged call content config
  match result.call "report_judgment" with
  | none =>
    return ⟨false,"Judge model did not return a judgment",completionCost model result⟩
  | some toolCall =>
    match toolCall.arguments.prop "passed",toolCall.arguments.prop "rationale" with
    | some passed,some rationale =>
      let passed := match passed with
        | .bool b => b
        | _ => false
      let detail := match rationale with
        | .string s => s
        | _ => ""
      return ⟨passed,detail,completionCost model result⟩
    | _,_ => throw s!"Cannot read properties of {receiver toolCall.arguments} (reading 'passed')"

/-- The content of a judge is put into its prompt as a template literal does. -/
def evaluateAssertion (call : JudgeCall) (output : Unknown) (assertion : Assertion) :
    Except String AssertionResult :=
  match stringTarget read output assertion.config with
  | none => .ok ⟨assertion.type,false,some "Target did not resolve to any value",0⟩
  | some target =>
    if assertion.type = "llm_judge" then
      match evaluateLlmJudge call (target.getD "undefined") assertion.config with
      | .ok judgement =>
        .ok ⟨assertion.type,judgement.passed,some judgement.detail,judgement.costMicros⟩
      | .error message => .ok ⟨assertion.type,false,some message,0⟩
    else if assertion.type = "contains" then do
      let passed ← evaluateContains target assertion.config false
      return ⟨assertion.type,passed,none,0⟩
    else if assertion.type = "not_contains" then do
      let passed ← evaluateContains target assertion.config true
      return ⟨assertion.type,passed,none,0⟩
    else if assertion.type = "regex" then
      .ok ⟨assertion.type,evaluateRegex read target assertion.config,none,0⟩
    else .ok ⟨assertion.type,false,some s!"Unknown assertion type \"{assertion.type}\"",0⟩

inductive Status
  | passed
  | failed
  | errored
  deriving DecidableEq, Repr

structure GradeOutcome where
  status : Status
  costMicros : ℤ
  details : List AssertionResult

/-- The results of the assertions, each with the judge of its own place. All are evaluated, and one
that throws makes the whole throw. -/
def details (judges : ℕ → JudgeCall) (output : Unknown) (assertions : List Assertion) :
    Except String (List AssertionResult) :=
  assertions.zipIdx.mapM fun p => evaluateAssertion read (judges p.2) output p.1

/-- `gradeOutput`: without assertions there is nothing to disprove. -/
def gradeOutput (judges : ℕ → JudgeCall) (output : Unknown) (assertions : List Assertion) :
    Except String GradeOutcome :=
  if assertions.length = 0 then .ok ⟨.passed,0,[]⟩
  else do
    let results ← details read judges output assertions
    return ⟨if results.all AssertionResult.passed then .passed else .failed,
      (results.map AssertionResult.costMicros).sum,results⟩

end Grading

/-! ### Cases -/

/-- An error that a call throws; `usage` is what `getErrorTokenUsage` reads of it. -/
structure CallError where
  message : String
  usage : Option TokenUsage

/-- What `executeNode` returns. -/
structure NodeResult where
  output : Unknown
  usage : Option TokenUsage

/-- What `AiNode.execute` returns, and the turns of the case as it leaves them. -/
structure AgentReply where
  turns : List Unknown
  text : String
  usage : TokenUsage

/-- The outcomes of the calls of one case. -/
structure Calls where
  node : Except CallError NodeResult
  agent : Except CallError AgentReply
  judges : ℕ → JudgeCall

inductive CaseType
  | node
  | conversation
  deriving DecidableEq, Repr

structure RegressionCase where
  id : String
  caseType : CaseType
  nodeId : Option String
  finalPrompt : String
  assertions : List Assertion

structure CaseOutcome where
  status : Status
  output : Unknown
  costMicros : ℤ

/-- The charge of a step, none without a usage or without a model. -/
def charge (node : WorkflowNode) (usage : Option TokenUsage) : ℤ :=
  match usage,resolveNodeModel node with
  | some usage,some model => cost model usage
  | _,_ => 0

def errored (key message : String) (costMicros : ℤ) : CaseOutcome :=
  ⟨.errored,.object [(key,.string message)],costMicros⟩

def turn (role content : String) : Unknown :=
  .object [("role",.string role),("content",.string content)]

def nodeMissing (regressionCase : RegressionCase) : String :=
  let nodeId := regressionCase.nodeId.getD "null"
  s!"Node \"{nodeId}\" not found in this workflow version"

def agentMissing (agents : List WorkflowNode) : String :=
  if agents.length = 0 then "No Agent node in this workflow version"
  else "Multiple Agent nodes — conversation-level regression cases need exactly one to be " ++
    "unambiguous"

section Cases
variable (read : Readers) (nodes : List WorkflowNode)

/-- What a step's output comes to: its grade, and its cost with that of the judges. -/
def graded (judges : ℕ → JudgeCall) (node : WorkflowNode) (output : Unknown)
    (usage : Option TokenUsage) (assertions : List Assertion) : Except String CaseOutcome := do
  let runCostMicros := charge node usage
  let graded ← gradeOutput read judges output assertions
  return ⟨graded.status,output,runCostMicros + graded.costMicros⟩

def executeNodeCase (calls : Calls) (regressionCase : RegressionCase) : Except String CaseOutcome :=
  match nodes.find? fun node => some node.id = regressionCase.nodeId with
  | none => .ok (errored "message" (nodeMissing regressionCase) 0)
  | some node =>
    match calls.node with
    | .error error => .ok (errored "error" error.message (charge node error.usage))
    | .ok result => graded read calls.judges node result.output result.usage regressionCase.assertions

def fullSequence (reply : AgentReply) (regressionCase : RegressionCase) : Unknown :=
  .array (reply.turns ++ [turn "user" regressionCase.finalPrompt,turn "assistant" reply.text])

/-- `executeConversationCase`: what an agent that fails has used is not asked for. -/
def executeConversationCase (calls : Calls) (regressionCase : RegressionCase) :
    Except String CaseOutcome :=
  match nodes.filter fun node => node.type = .ai with
  | [node] =>
    match calls.agent with
    | .error error => .ok (errored "error" error.message 0)
    | .ok reply =>
      graded read calls.judges node (fullSequence reply regressionCase) (some reply.usage)
        regressionCase.assertions
  | agents => .ok (errored "message" (agentMissing agents) 0)

def executeCase (calls : Calls) (regressionCase : RegressionCase) : Except String CaseOutcome :=
  if regressionCase.caseType = .node then executeNodeCase read nodes calls regressionCase
  else executeConversationCase read nodes calls regressionCase

/-- One case of the loop: grading that throws, and an output that is no JSON, make it errored, and
free. -/
def outcome (calls : Calls) (regressionCase : RegressionCase) : CaseOutcome :=
  match executeCase read nodes calls regressionCase with
  | .error message => errored "error" message 0
  | .ok executed =>
    if isJson executed.output then executed
    else errored "error" (read.schemaMessage executed.output) 0

structure Result where
  caseId : String
  status : Status
  output : Unknown
  costMicros : ℤ

/-- The variables of the loop over the cases. -/
structure Tally where
  passed : ℕ
  failed : ℕ
  totalCostMicros : ℤ
  results : List Result

def record (tally : Tally) (regressionCase : RegressionCase) (outcome : CaseOutcome) : Tally :=
  { passed := if outcome.status = .passed then tally.passed + 1 else tally.passed
    failed := if outcome.status = .passed then tally.failed else tally.failed + 1
    totalCostMicros := tally.totalCostMicros + outcome.costMicros
    results := tally.results ++
      [⟨regressionCase.id,outcome.status,outcome.output,outcome.costMicros⟩] }

structure Run where
  passed : ℕ
  failed : ℕ
  total : ℕ
  costMicros : ℤ
  results : List Result

end Cases

/-! ## What was paid, and what is recorded -/

section Paid
variable (read : Readers) (nodes : List WorkflowNode)

/-- The charge of a completion that a judge has made. -/
def paid : Except String (String × Completion Value) → ℤ
  | .ok (model,result) => completionCost model result
  | .error _ => 0

/-- A judgement is reported with arguments of which no property can be read. -/
def unreadable (result : Completion Value) : Bool :=
  match result.call "report_judgment" with
  | some toolCall => (toolCall.arguments.prop "passed").isNone
  | none => false

/-- What is paid for a judgement that cannot be read. -/
def unread : Except String (String × Completion Value) → ℤ
  | .ok (model,result) => if unreadable result then completionCost model result else 0
  | .error _ => 0

/-- A charge of the completion of a judge, for an assertion that asks one. -/
def judging (f : Except String (String × Completion Value) → ℤ) (call : JudgeCall)
    (output : Unknown) (assertion : Assertion) : ℤ :=
  match stringTarget read output assertion.config with
  | some target =>
    if assertion.type = "llm_judge" then f (judged call (target.getD "undefined") assertion.config)
    else 0
  | none => 0

/-- These charges of all assertions of a case. -/
def judgements (f : Except String (String × Completion Value) → ℤ) (judges : ℕ → JudgeCall)
    (output : Unknown) (assertions : List Assertion) : ℤ :=
  (assertions.zipIdx.map fun p => judging read f (judges p.2) output p.1).sum

/-- The step that a case executes, with what it gives to grade and the usage that is known of it; the
message of a case for which the version has no such step. -/
def attempt (calls : Calls) (regressionCase : RegressionCase) :
    Except String (WorkflowNode × Except CallError (Unknown × Option TokenUsage)) :=
  if regressionCase.caseType = .node then
    match nodes.find? fun node => some node.id = regressionCase.nodeId with
    | some node => .ok (node,calls.node.map fun result => (result.output,result.usage))
    | none => .error (nodeMissing regressionCase)
  else
    match nodes.filter fun node => node.type = .ai with
    | [node] =>
      .ok (node,calls.agent.map fun reply => (fullSequence reply regressionCase,some reply.usage))
    | agents => .error (agentMissing agents)

/-- What the step and the judgements of a case are charged. -/
def spent (calls : Calls) (regressionCase : RegressionCase) : ℤ :=
  match attempt nodes calls regressionCase with
  | .ok (node,.ok (output,usage)) =>
    charge node usage + judgements read paid calls.judges output regressionCase.assertions
  | .ok (node,.error error) => charge node error.usage
  | .error _ => 0

/-- The step gives an output of which all assertions hold. -/
def holds (calls : Calls) (regressionCase : RegressionCase) : Bool :=
  match attempt nodes calls regressionCase with
  | .ok (_,.ok (output,_)) =>
    match details read calls.judges output regressionCase.assertions with
    | .ok results => results.all AssertionResult.passed
    | .error _ => false
  | _ => false

/-- An assertion looks for a text in a target that has none. -/
def textless (output : Unknown) (assertion : Assertion) : Bool :=
  (assertion.type = "contains" || assertion.type = "not_contains") &&
    stringTarget read output assertion.config = some none

/-- Why an output that the step gives is not recorded: a target without a text, or no JSON. -/
def dropped (calls : Calls) (regressionCase : RegressionCase) : Option String :=
  match attempt nodes calls regressionCase with
  | .ok (_,.ok (output,_)) =>
    if regressionCase.assertions.any (textless read output) then
      some "actualOutput could not be serialized for rule evaluation"
    else if isJson output then none
    else some (read.schemaMessage output)
  | _ => none

/-- The charges that nothing records: all those of a case whose output is dropped, that of an agent
that fails in a conversation, and those of judgements that cannot be read. -/
def lost (calls : Calls) (regressionCase : RegressionCase) : ℤ :=
  match attempt nodes calls regressionCase with
  | .ok (_,.ok (output,_)) =>
    if (dropped read nodes calls regressionCase).isSome then spent read nodes calls regressionCase
    else judgements read unread calls.judges output regressionCase.assertions
  | .ok (node,.error error) =>
    if regressionCase.caseType = .conversation then charge node error.usage else 0
  | .error _ => 0

/-- The results column takes what a case leaves: its output, or the message of what went wrong. -/
def kept (calls : Calls) (regressionCase : RegressionCase) : Bool :=
  match attempt nodes calls regressionCase,dropped read nodes calls regressionCase with
  | .ok (_,.ok (output,_)),none => storable output
  | .ok (_,.ok _),some message => storable (.string message)
  | .ok (_,.error error),_ => storable (.string error.message)
  | .error message,_ => storable (.string message)

end Paid

section Cases
variable {read : Readers} {nodes : List WorkflowNode} {calls : Calls} {regressionCase : RegressionCase}

/-- What an assertion records of its judge. -/
def recorded : Except String Judgement → ℤ
  | .ok judgement => judgement.costMicros
  | .error _ => 0

end Cases

/-! ## Whole runs -/

section Runs
variable (read : Readers) (nodes : List WorkflowNode)

end Runs

def noJudge : JudgeCall := ⟨fun _ => .error "no key",fun _ _ => .error "no answer"⟩

def agent : WorkflowNode := ⟨"agent",.ai,[("model",.string "gpt-5")]⟩

/-- A node that was paid and answers, and an assertion about its property `constructor`. -/
def inherited : RegressionCase × Calls :=
  (⟨"case",.node,some "agent","",
      [⟨"contains",[("target",.string "constructor"),("value",.string "x")]⟩]⟩,
    ⟨.ok ⟨.object [("text",.string "hi")],some ⟨1000,1000⟩⟩,.error ⟨"",none⟩,fun _ => noJudge⟩)

end Linea.Regressions
