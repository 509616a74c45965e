import Linea.Runs
import Mathlib.Algebra.Order.Group.Nat

/-! Saving drafts in the builder: the refs of the canvas between renders, passive effects, the
debounce timer and the promises of the saves. -/
namespace Linea.Drafts

variable {G : Type}

/-- A graph with the local edits it has seen, how many of them a collaborator's graph has replaced
and how many such graphs it has seen. -/
structure Draft (G : Type) where
  graph : G
  edits : ℕ
  discarded : ℕ
  applied : ℕ

/-- A queued update of `nodes` and `edges`. -/
inductive Update (G : Type)
  | edit (change : G → G)
  | remote (graph : G)

def Update.apply (canvas : Draft G) : Update G → Draft G
  | .edit change => { canvas with graph := change canvas.graph, edits := canvas.edits + 1 }
  | .remote graph => ⟨graph,canvas.edits,canvas.edits,canvas.applied + 1⟩

def editsIn (queue : List (Update G)) : ℕ :=
  queue.countP fun
    | .edit _ => true
    | .remote _ => false

def remotesIn (queue : List (Update G)) : ℕ :=
  queue.countP fun
    | .edit _ => false
    | .remote _ => true

/-- A draft on its way to the server, or a timer that will build it, with its generation. -/
structure Job (G : Type) where
  graph : Draft G
  generation : ℕ

/-- `canvas` is what the last render has shown and `queue` what the next one applies to it.
`saveTimeout` is the timer with what its closure holds, `saveCleanup` says that the last effect has
returned a clean-up. `applied`, `discarded`, `sent` and `saved` record what has happened: graphs of
collaborators that have been applied, edits made before, saves sent with the number of graphs
applied by then, and drafts saved. -/
structure Canvas (G : Type) where
  canvas : Draft G
  queue : List (Update G)
  draftSaveInFlight : Bool
  requests : List (Job G)
  pendingDraftGraph : Option (Draft G)
  pendingDraftGeneration : ℕ
  dirty : Bool
  editGeneration : ℕ
  scheduledGeneration : ℕ
  suppressNextSave : Bool
  saveTimeout : Option (Job G)
  saveCleanup : Bool
  effectDue : Bool
  pendingRemoteUpdate : Option G
  applied : ℕ
  discarded : ℕ
  sent : List (Job G × ℕ)
  saved : List (Draft G)

namespace Canvas

/-- The canvas as it is mounted. -/
def mount (graph : G) : Canvas G :=
  ⟨⟨graph,0,0,0⟩,[],false,[],none,0,false,0,0,false,none,false,false,none,0,0,[],[]⟩

/-- `flushDraftSave` up to its `await`. -/
def flushDraftSave (graph : Draft G) (generation : ℕ) (s : Canvas G) : Canvas G :=
  if s.draftSaveInFlight then
    { s with pendingDraftGraph := some graph, pendingDraftGeneration := generation }
  else
    { s with
      draftSaveInFlight := true
      requests := s.requests ++ [⟨graph,generation⟩]
      sent := s.sent ++ [(⟨graph,generation⟩,s.applied)] }

/-- Its `finally`. -/
def afterSave (s : Canvas G) : Canvas G :=
  match s.pendingDraftGraph with
  | some next =>
    flushDraftSave next s.pendingDraftGeneration
      { s with draftSaveInFlight := false, pendingDraftGraph := none }
  | none => { s with draftSaveInFlight := false }

def applyRemoteGraph (graph : G) (s : Canvas G) : Canvas G :=
  { s with
    suppressNextSave := true
    queue := s.queue ++ [.remote graph]
    dirty := false
    pendingRemoteUpdate := none
    applied := s.applied + 1
    discarded := s.canvas.edits + editsIn s.queue }

/-- All queued updates are applied in one render, which detects the edit unless it is suppressed. -/
def render (s : Canvas G) : Canvas G :=
  let shown := { s with
    canvas := s.queue.foldl Update.apply s.canvas, queue := [], effectDue := true }
  if s.suppressNextSave then { shown with suppressNextSave := false }
  else { shown with dirty := true, editGeneration := s.editGeneration + 1 }

/-- The passive effect, after the clean-up of the one before. -/
def effect (s : Canvas G) : Canvas G :=
  let cleaned := { s with
    effectDue := false, saveTimeout := if s.saveCleanup then none else s.saveTimeout }
  if s.editGeneration = s.scheduledGeneration then { cleaned with saveCleanup := false }
  else { cleaned with
    scheduledGeneration := s.editGeneration
    saveTimeout := some ⟨s.canvas,s.editGeneration⟩
    saveCleanup := true }

inductive Act (G : Type)
  | edit (change : G → G)
  | render
  | effect
  | fire
  | save (request : ℕ) (succeeds : Bool)
  | receive (graph : G) (own : Bool)
  | reload
  | dismiss

/-- `none` when the act is not possible. A render first runs the effects that are due. -/
def step (s : Canvas G) : Act G → Option (Canvas G)
  | .edit change => some { s with queue := s.queue ++ [.edit change] }
  | .render => if s.queue = [] ∨ s.effectDue then none else some s.render
  | .effect => if s.effectDue then some s.effect else none
  | .fire =>
    match s.saveTimeout with
    | some timer => some (flushDraftSave timer.graph timer.generation { s with saveTimeout := none })
    | none => none
  | .save request succeeds =>
    match s.requests[request]? with
    | some job =>
      let settled := { s with requests := s.requests.eraseIdx request }
      some (afterSave
        (if succeeds then { settled with
          saved := s.saved ++ [job.graph]
          dirty := s.dirty && s.editGeneration ≠ job.generation }
        else settled))
    | none => none
  | .receive graph own =>
    if own then some s
    else if s.dirty then some { s with pendingRemoteUpdate := some graph }
    else some (s.applyRemoteGraph graph)
  | .reload => s.pendingRemoteUpdate.map fun graph => s.applyRemoteGraph graph
  | .dismiss => some { s with pendingRemoteUpdate := none }

end Canvas
end Linea.Drafts
