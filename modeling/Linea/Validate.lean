import Linea.Graph

/-! `validateGraphStructure` of `workflow-json/validate-graph.ts`, check by check and in the
source's order. The node-configuration schemas are a parameter; the two recursions carry a
fuel bound that `ValidateSearch` and `ValidateChoices` prove large enough. -/
namespace Linea.Validate

inductive GraphError
  | duplicateIds
  | unknownEntry (entryNodeId : String)
  | unknownEdgeNode (nodeId : String)
  | entryHasIncoming (nodeId : String)
  | incomingCount (nodeId : String) (expected count : ℕ)
  | mergeSameSource (nodeId source : String)
  | endHasOutgoing (nodeId : String)
  | strayCondition (nodeId target : String)
  | retryPolicy (nodeId message : String)
  | nodeConfig (kind nodeId message : String)
  | missingCondition (nodeId : String)
  | duplicateCondition (nodeId : String)
  | cycle (nodeId : String)
  | unreachable (nodeId : String)
  | mergeConflict (mergeNodeId branchId existing condition : String)
  | noIncomingEdge (nodeId : String)
  | outOfFuel
  deriving DecidableEq

def GraphError.message : GraphError → String
  | .duplicateIds => "Node ids must be unique"
  | .unknownEntry id => "entryNodeId \"" ++ id ++ "\" is not a node in this graph"
  | .unknownEdgeNode id => "Edge references unknown node \"" ++ id ++ "\""
  | .entryHasIncoming id => "Entry node \"" ++ id ++ "\" cannot have incoming edges"
  | .incomingCount id expected count =>
      "Node \"" ++ id ++ "\" must have exactly " ++ toString expected ++ " incoming edge" ++
        (if expected = 1 then "" else "s") ++ ", has " ++ toString count
  | .mergeSameSource id source =>
      "Merge node \"" ++ id ++ "\" has two incoming edges from the same source \"" ++ source ++ "\""
  | .endHasOutgoing id => "End node \"" ++ id ++ "\" cannot have outgoing edges"
  | .strayCondition id target =>
      "Node \"" ++ id ++ "\" is not a branch node but has a conditioned outgoing edge to \"" ++
        target ++ "\""
  | .retryPolicy id message => "Node \"" ++ id ++ "\" has an invalid retryPolicy: " ++ message
  | .nodeConfig kind id message =>
      kind ++ " node \"" ++ id ++ "\" has invalid configuration: " ++ message
  | .missingCondition id => "Branch node \"" ++ id ++ "\" has an outgoing edge with no condition"
  | .duplicateCondition id =>
      "Branch node \"" ++ id ++ "\" has two outgoing edges with the same condition"
  | .cycle id => "Cycle detected at node \"" ++ id ++ "\""
  | .unreachable id => "Node \"" ++ id ++ "\" is not reachable from the entry node"
  | .mergeConflict mergeNodeId branchId existing condition =>
      "Merge node \"" ++ mergeNodeId ++ "\" combines two inputs that can never both occur in the " ++
        "same execution — one requires branch \"" ++ branchId ++ "\" to take \"" ++ existing ++
        "\", the other requires \"" ++ condition ++ "\""
  | .noIncomingEdge _ => "Cannot read properties of undefined (reading 'from')"
  | .outOfFuel => "Maximum call stack size exceeded"

/-- The schemas of `nodes/`: the message of a failed `safeParse`, if it fails. -/
structure ConfigSchemas where
  retryPolicy : Value → Option String
  extract : List (String × Value) → Option String
  connector : List (String × Value) → Option String
  evaluator : List (String × Value) → Option String

/-- Throw when a test fails. -/
def ensure (test : Bool) (error : GraphError) : Except GraphError Unit :=
  if test then .ok () else .error error

def checkEdgeEnds (g : WorkflowGraph) (edge : WorkflowEdge) : Except GraphError Unit := do
  ensure (edge.source ∈ g.nodeIds) (.unknownEdgeNode edge.source)
  ensure (edge.target ∈ g.nodeIds) (.unknownEdgeNode edge.target)

def checkMergeSources (g : WorkflowGraph) (node : WorkflowNode) : Except GraphError Unit :=
  if node.type = .merge then
    let sources := (g.incomingEdges node.id).map WorkflowEdge.source
    ensure (sources.toFinset.card = sources.length)
      (.mergeSameSource node.id (sources.head?.getD ""))
  else .ok ()

def checkIncoming (g : WorkflowGraph) (node : WorkflowNode) : Except GraphError Unit :=
  let count := (g.incomingEdges node.id).length
  if node.id = g.entryNodeId then
    ensure (count = 0) (.entryHasIncoming node.id)
  else do
    -- only a merge node fans in
    let expected := if node.type = .merge then 2 else 1
    ensure (count = expected) (.incomingCount node.id expected count)
    checkMergeSources g node

def checkDegrees (g : WorkflowGraph) (node : WorkflowNode) : Except GraphError Unit := do
  checkIncoming g node
  ensure (node.type ≠ .endNode ∨ g.outgoingEdges node.id = []) (.endHasOutgoing node.id)

def checkStrayCondition (g : WorkflowGraph) (node : WorkflowNode) : Except GraphError Unit :=
  if node.type = .branch then .ok ()
  else
    match (g.outgoingEdges node.id).find? fun edge => edge.condition ≠ none with
    | some stray => .error (.strayCondition node.id stray.target)
    | none => .ok ()

def checkRetryPolicy (schemas : ConfigSchemas) (node : WorkflowNode) : Except GraphError Unit :=
  match Value.field node.config "retryPolicy" with
  | .undefined => .ok ()
  | policy =>
    match schemas.retryPolicy policy with
    | some message => .error (.retryPolicy node.id message)
    | none => .ok ()

/-- The configuration check of one node type. -/
def checkConfig (type : NodeType) (kind : String) (schema : List (String × Value) → Option String)
    (node : WorkflowNode) : Except GraphError Unit :=
  if node.type = type then
    match schema node.config with
    | some message => .error (.nodeConfig kind node.id message)
    | none => .ok ()
  else .ok ()

def checkConditions (g : WorkflowGraph) (node : WorkflowNode) : Except GraphError Unit :=
  if node.type = .branch then do
    let conditions := (g.outgoingEdges node.id).map WorkflowEdge.condition
    ensure (!conditions.contains none) (.missingCondition node.id)
    ensure (conditions.toFinset.card = conditions.length) (.duplicateCondition node.id)
  else .ok ()

/-- Depth-first search colours; the latest finished node stands first in `visited`. -/
structure Marks where
  visiting : Finset String
  visited : List String

def visit (g : WorkflowGraph) : ℕ → Marks → String → Except GraphError Marks
  | 0, _, _ => .error .outOfFuel
  | fuel + 1, marks, nodeId =>
    if nodeId ∈ marks.visited then .ok marks
    else if nodeId ∈ marks.visiting then .error (.cycle nodeId)
    else do
      let marks ← (g.outgoingEdges nodeId).foldlM (fun m edge => visit g fuel m edge.target)
        { marks with visiting := insert nodeId marks.visiting }
      .ok ⟨marks.visiting.erase nodeId, nodeId :: marks.visited⟩

/-- The branch outputs a node needs, by branch node id. -/
abbrev BranchChoices := OrderedMap String String

abbrev ChoicesCache := OrderedMap String BranchChoices

def withEdge (g : WorkflowGraph) (choices : BranchChoices) (edge : WorkflowEdge) : BranchChoices :=
  match g.findNode edge.source, edge.condition with
  | some source, some condition =>
    if source.type = .branch then choices.set edge.source condition else choices
  | _, _ => choices

def combineStep (mergeNodeId : String) (combined : BranchChoices) (entry : String × String) :
    Except GraphError BranchChoices :=
  match combined.get? entry.1 with
  | some existing =>
    if existing = entry.2 then .ok (combined.set entry.1 entry.2)
    else .error (.mergeConflict mergeNodeId entry.1 existing entry.2)
  | none => .ok (combined.set entry.1 entry.2)

def combineChoices (a b : BranchChoices) (mergeNodeId : String) : Except GraphError BranchChoices :=
  b.entries.foldlM (combineStep mergeNodeId) a

/-- `requiredChoices` with its memo table. -/
def requiredChoices (g : WorkflowGraph) :
    ℕ → ChoicesCache → String → Except GraphError (BranchChoices × ChoicesCache)
  | 0, _, _ => .error .outOfFuel
  | fuel + 1, cache, nodeId =>
    match cache.get? nodeId with
    | some cached => .ok (cached, cache)
    | none =>
      if nodeId = g.entryNodeId then
        .ok (OrderedMap.empty, cache.set nodeId OrderedMap.empty)
      else
        match g.incomingEdges nodeId with
        | [] => .error (.noIncomingEdge nodeId)
        | [first] => do
          let (a, cache) ← requiredChoices g fuel cache first.source
          let result := withEdge g a first
          .ok (result, cache.set nodeId result)
        | first :: second :: _ => do
          let (a, cache) ← requiredChoices g fuel cache first.source
          let (b, cache) ← requiredChoices g fuel cache second.source
          let result ← combineChoices (withEdge g a first) (withEdge g b second) nodeId
          .ok (result, cache.set nodeId result)

/-- Every check before the merge check. -/
def validateBeforeMerges (schemas : ConfigSchemas) (g : WorkflowGraph) :
    Except GraphError Unit := do
  ensure (g.nodeIds.toFinset.card = g.nodes.length) .duplicateIds
  ensure (g.entryNodeId ∈ g.nodeIds) (.unknownEntry g.entryNodeId)
  g.edges.forM (checkEdgeEnds g)
  g.nodes.forM (checkDegrees g)
  g.nodes.forM (checkStrayCondition g)
  g.nodes.forM (checkRetryPolicy schemas)
  g.nodes.forM (checkConfig .extract "Extract" schemas.extract)
  g.nodes.forM (checkConfig .connector "Connector" schemas.connector)
  g.nodes.forM (checkConfig .evaluator "Evaluator" schemas.evaluator)
  g.nodes.forM (checkConditions g)
  let marks ← visit g (g.nodes.length + 1) ⟨∅, []⟩ g.entryNodeId
  g.nodes.forM fun node => ensure (node.id ∈ marks.visited) (.unreachable node.id)

/-- The merge check: no node may need two outputs of one branch. -/
def validateMerges (g : WorkflowGraph) : Except GraphError Unit := do
  let _ ← g.nodes.foldlM (fun cache node => do
    let (_, cache) ← requiredChoices g (g.nodes.length + 1) cache node.id
    .ok cache) OrderedMap.empty
  .ok ()

def validateGraphStructure (schemas : ConfigSchemas) (g : WorkflowGraph) :
    Except GraphError Unit := do
  validateBeforeMerges schemas g
  validateMerges g

end Linea.Validate
