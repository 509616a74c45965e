import Linea.OrderedMap

/-! Workflow graphs as `workflow-json/schema.ts` parses them, and the untyped values that
nodes exchange. Canvas positions, the format version and the trigger are not read by the
runtime and are left out. -/
namespace Linea

/-- A JavaScript value of type `unknown`; a number is its IEEE-754 bit pattern. -/
inductive Value
  | undefined
  | null
  | bool (b : Bool)
  | number (bits : UInt64)
  | string (s : String)
  | array (items : List Value)
  | object (fields : List (String × Value))

namespace Value

/-- Own property of an object's field list; absent keys read as `undefined`. -/
def field (fields : List (String × Value)) (key : String) : Value :=
  match fields.find? fun p => p.1 = key with
  | some p => p.2
  | none => undefined

/-- `value.key`; reading a property of `undefined` or `null` is a TypeError, modelled by `none`. -/
def prop (v : Value) (key : String) : Option Value :=
  match v with
  | undefined => none
  | null => none
  | object fields => some (field fields key)
  | _ => some undefined

/-- `value === text` for an optional string. -/
def strictEq (v : Value) (text : Option String) : Bool :=
  match v, text with
  | string s, some t => s = t
  | undefined, none => true
  | _, _ => false

theorem strictEq_some {v : Value} {t : String} : v.strictEq (some t) = true ↔ v = string t := by
  cases v <;> simp [strictEq]

end Value

inductive NodeType
  | start
  | endNode
  | http
  | connector
  | transform
  | branch
  | ai
  | extract
  | evaluator
  | approval
  | memory
  | wait
  | datetime
  | filter
  | merge
  | variables
  deriving DecidableEq, Repr

structure WorkflowNode where
  id : String
  type : NodeType
  config : List (String × Value)

structure WorkflowEdge where
  source : String
  target : String
  condition : Option String
  deriving DecidableEq, Repr

structure WorkflowGraph where
  entryNodeId : String
  nodes : List WorkflowNode
  edges : List WorkflowEdge

namespace WorkflowGraph

def nodeIds (g : WorkflowGraph) : List String := g.nodes.map WorkflowNode.id

def incomingEdges (g : WorkflowGraph) (nodeId : String) : List WorkflowEdge :=
  g.edges.filter fun edge => edge.target = nodeId

def outgoingEdges (g : WorkflowGraph) (nodeId : String) : List WorkflowEdge :=
  g.edges.filter fun edge => edge.source = nodeId

def findNode (g : WorkflowGraph) (id : String) : Option WorkflowNode :=
  g.nodes.find? fun n => n.id = id

@[simp] theorem mem_incomingEdges {g : WorkflowGraph} {n : String} {e : WorkflowEdge} :
    e ∈ g.incomingEdges n ↔ e ∈ g.edges ∧ e.target = n := by
  simp [incomingEdges]

@[simp] theorem mem_outgoingEdges {g : WorkflowGraph} {n : String} {e : WorkflowEdge} :
    e ∈ g.outgoingEdges n ↔ e ∈ g.edges ∧ e.source = n := by
  simp [outgoingEdges]

theorem findNode_some {g : WorkflowGraph} {id : String} {n : WorkflowNode}
    (h : g.findNode id = some n) : n ∈ g.nodes ∧ n.id = id :=
  ⟨List.mem_of_find?_eq_some h, by simpa using List.find?_some h⟩

theorem findNode_exists {g : WorkflowGraph} {id : String} (h : id ∈ g.nodeIds) :
    ∃ n, g.findNode id = some n := by
  cases hf : g.findNode id with
  | some n => exact ⟨n, rfl⟩
  | none =>
    obtain ⟨n, hn, rfl⟩ := List.mem_map.mp h
    exact absurd (List.find?_eq_none.mp hf n hn) (by simp)

/-- With unique ids a lookup returns the node it is given. -/
theorem findNode_of_mem {g : WorkflowGraph} (hu : g.nodeIds.Nodup) {n : WorkflowNode}
    (hn : n ∈ g.nodes) : g.findNode n.id = some n := by
  obtain ⟨m, hm⟩ := findNode_exists (List.mem_map_of_mem hn)
  obtain ⟨hmem, hid⟩ := findNode_some hm
  rw [hm, List.inj_on_of_nodup_map hu hmem hn hid]

end WorkflowGraph
end Linea
