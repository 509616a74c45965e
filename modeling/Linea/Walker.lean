import Linea.Graph

/-! The graph walk of `interpreter/walker.ts`. The generator is a state machine: `walk` runs
it up to its first `yield`, `resume` feeds a step's result back and runs it to the next one.
`driveWalk` is the caller's loop for an executor that may look at everything done so far. -/
namespace Linea.Walker

abbrev CompletedMap := OrderedMap String Value

inductive WalkError
  | unknownNode (id : String)
  | incomingCount (nodeId : String) (count : ℕ)
  | unmatchedBranch (nodeId : String) (branch : Value)
  | typeError (receiver : Value) (property : String)

/-- The message of the thrown error, given how a value is converted to a string. -/
def WalkError.message (text : Value → String) : WalkError → String
  | .unknownNode id => "Unknown node id: \"" ++ id ++ "\""
  | .incomingCount nodeId count =>
      "Node \"" ++ nodeId ++ "\" must have exactly one incoming edge, has " ++ toString count
  | .unmatchedBranch nodeId branch =>
      "Branch node \"" ++ nodeId ++ "\" produced unmatched branch \"" ++ text branch ++ "\""
  | .typeError receiver property =>
      "Cannot read properties of " ++ text receiver ++ " (reading '" ++ property ++ "')"

structure StepToExecute where
  nodeId : String
  nodeType : NodeType
  input : Value

inductive StepResult
  | output (value : Value)
  | error (message : String)

inductive WalkResult
  | completed
  | failed (nodeId : String) (error : String)
  deriving DecidableEq

def getNode (g : WorkflowGraph) (id : String) : Except WalkError WorkflowNode :=
  match g.findNode id with
  | some node => .ok node
  | none => .error (.unknownNode id)

/-- `Map.get`: an absent key reads as `undefined`. -/
def lookup (completed : CompletedMap) (id : String) : Value :=
  (completed.get? id).getD .undefined

/-- A completed branch node activates only the edges whose condition is its output; any
other completed source activates all of its edges. -/
def isEdgeActivated (g : WorkflowGraph) (completed : CompletedMap) (edge : WorkflowEdge) :
    Except WalkError Bool :=
  if completed.has edge.source then do
    let source ← getNode g edge.source
    if source.type = .branch then
      let output := lookup completed edge.source
      match output.prop "branch" with
      | none => .error (.typeError output "branch")
      | some branch => .ok (branch.strictEq edge.condition)
    else .ok true
  else .ok false

def isReady (g : WorkflowGraph) (completed : CompletedMap) (nodeId : String) :
    Except WalkError Bool :=
  (g.incomingEdges nodeId).allM (isEdgeActivated g completed)

def resolveInput (g : WorkflowGraph) (node : WorkflowNode) (completed : CompletedMap)
    (triggerPayload : Value) : Except WalkError Value :=
  if node.id = g.entryNodeId then .ok triggerPayload
  else if node.type = .merge then
    -- edge-declaration order, not completion order
    .ok (.array ((g.incomingEdges node.id).map fun edge => lookup completed edge.source))
  else
    match g.incomingEdges node.id with
    | [edge] => .ok (lookup completed edge.source)
    | incoming => .error (.incomingCount node.id incoming.length)

def nextNodeIds (g : WorkflowGraph) (node : WorkflowNode) (output : Value) :
    Except WalkError (List String) :=
  let outgoing := g.outgoingEdges node.id
  if outgoing.length = 0 then .ok []
  else if node.type = .branch then
    match output.prop "branch" with
    | none => .error (.typeError output "branch")
    | some branch =>
      match outgoing.find? fun edge => branch.strictEq edge.condition with
      | none => .error (.unmatchedBranch node.id branch)
      | some edge => .ok [edge.target]
  else .ok (outgoing.map WorkflowEdge.target)

/-- The generator's locals. -/
structure WalkState where
  completed : CompletedMap
  queued : Finset String
  ready : List String

def enqueue (g : WorkflowGraph) (s : WalkState) (nodeId : String) : Except WalkError WalkState :=
  if s.completed.has nodeId ∨ nodeId ∈ s.queued then .ok s
  else do
    if ← isReady g s.completed nodeId then
      .ok { s with queued := insert nodeId s.queued, ready := s.ready ++ [nodeId] }
    else .ok s

def enqueueAll (g : WorkflowGraph) (s : WalkState) (ids : List String) :
    Except WalkError WalkState :=
  ids.foldlM (enqueue g) s

/-- Where the generator stands after a call of `next`. -/
inductive Progress
  | yielded (step : StepToExecute) (node : WorkflowNode) (state : WalkState)
  | returned (result : WalkResult)

/-- The `while` loop up to its next `yield`. -/
def advance (g : WorkflowGraph) (triggerPayload : Value) (completed : CompletedMap) :
    List String → Finset String → Except WalkError Progress
  | [], _ => .ok (.returned .completed)
  | nodeId :: ready, queued =>
    if completed.has nodeId then advance g triggerPayload completed ready (queued.erase nodeId)
    else do
      let node ← getNode g nodeId
      let input ← resolveInput g node completed triggerPayload
      .ok (.yielded ⟨node.id, node.type, input⟩ node ⟨completed, queued.erase nodeId, ready⟩)

def walk (g : WorkflowGraph) (completed : CompletedMap) (triggerPayload : Value) :
    Except WalkError Progress := do
  -- a full scan, so that a resumed walk finds every node that is ready, not only one path
  let s ← enqueueAll g ⟨completed, ∅, []⟩ g.nodeIds
  advance g triggerPayload s.completed s.ready s.queued

/-- Feeding a result back through `next(result)`. -/
def resume (g : WorkflowGraph) (triggerPayload : Value) (node : WorkflowNode) (s : WalkState) :
    StepResult → Except WalkError Progress
  | .error message => .ok (.returned (.failed node.id message))
  | .output output => do
    let next ← nextNodeIds g node output
    let s ← enqueueAll g { s with completed := s.completed.set node.id output } next
    advance g triggerPayload s.completed s.ready s.queued

abbrev History := List (StepToExecute × StepResult)

/-- The answer to a step may depend on every earlier step and answer. -/
abbrev Executor := History → StepToExecute → StepResult

inductive Outcome
  | returned (result : WalkResult)
  | threw (error : WalkError)
  | unfinished

def drive (g : WorkflowGraph) (triggerPayload : Value) (execute : Executor) :
    ℕ → History → Except WalkError Progress → History × Outcome
  | _, history, .error e => (history, .threw e)
  | _, history, .ok (.returned result) => (history, .returned result)
  | 0, history, .ok (.yielded ..) => (history, .unfinished)
  | fuel + 1, history, .ok (.yielded step node s) =>
    let result := execute history step
    drive g triggerPayload execute fuel (history ++ [(step, result)])
      (resume g triggerPayload node s result)

/-- Run a walk to its end. No walk yields more steps than the graph has nodes. -/
def driveWalk (g : WorkflowGraph) (completed : CompletedMap) (triggerPayload : Value)
    (execute : Executor) : History × Outcome :=
  drive g triggerPayload execute g.nodes.length [] (walk g completed triggerPayload)

end Linea.Walker
