import Linea.Execution
import Linea.Walker

/-! The step and checkpoint tables of one execution with their unique indexes and what their
columns make of the values written to them, and the transactions of `checkpoint.repository.ts`. -/
namespace Linea
open Walker

/-- A text that a column takes. -/
def isText (s : String) : Bool := !s.toList.contains '\x00'

/-- The database behind the two tables. A `jsonb` column takes a value or refuses it, and gives it
back as `reads` says: without members that are `undefined`, with `null` for a number that is not
finite, and with members in an order of its own. `reads` is of no account where a value is refused,
and `undefined` stands for an absent one. -/
class Columns where
  takes : Value → Bool
  reads : Value → Value
  /-- Whether an `integer` column takes the number. -/
  takesInteger : UInt64 → Bool
  /-- The message of the error with which a row is refused. -/
  refusal : String
  takes_undefined : takes .undefined = true
  takes_string {s : String} : isText s = true → takes (.string s) = true
  takes_array {items : List Value} : (∀ v ∈ items, takes v = true) → takes (.array items) = true
  takes_object {fields : List (String × Value)} :
    (∀ p ∈ fields, isText p.1 = true ∧ takes p.2 = true) → takes (.object fields) = true
  takes_member {fields : List (String × Value)} :
    takes (.object fields) = true → ∀ p ∈ fields, takes p.2 = true
  takes_reads (v : Value) : takes (reads v) = true
  reads_reads (v : Value) : reads (reads v) = reads v
  reads_undefined {v : Value} : reads v = .undefined ↔ v = .undefined
  reads_empty : reads (.object []) = .object []
  /-- A member that is a text stays, and no other member becomes one. -/
  reads_text {v : Value} {key text : String} : takes v = true →
    ((reads v).prop key = some (.string text) ↔ v.prop key = some (.string text))

namespace Unchanged

/-- A database that takes every value and gives it back as it was. -/
scoped instance : Columns where
  takes := fun _ => true
  reads := id
  takesInteger := fun _ => true
  refusal := "refused"
  takes_undefined := rfl
  takes_string := fun _ => rfl
  takes_array := fun _ => rfl
  takes_object := fun _ => rfl
  takes_member := fun _ _ _ => rfl
  takes_reads := fun _ => rfl
  reads_reads := fun _ => rfl
  reads_undefined := Iff.rfl
  reads_empty := rfl
  reads_text := fun _ => Iff.rfl

end Unchanged

/-- `vars ?? {}`. -/
def orEmpty : Value → Value
  | .undefined => .object []
  | .null => .object []
  | vars => vars

theorem orEmpty_of_ne {vars : Value} (hu : vars ≠ .undefined) (hn : vars ≠ .null) :
    orEmpty vars = vars := by
  cases vars with
  | undefined => exact absurd rfl hu
  | null => exact absurd rfl hn
  | _ => rfl

namespace Columns
variable [Columns]

/-- `checkpoints.variables` is not nullable, and has a default. -/
def takesVariables : Value → Bool
  | .null => false
  | vars => takes vars

def storedVariables : Value → Value
  | .undefined => .object []
  | vars => reads vars

/-- The variables as an attempt resumes with them. -/
def readsVariables (vars : Value) : Value := orEmpty (storedVariables vars)

/-- A completed map as it comes back out of the `context` column. -/
def stored (c : CompletedMap) : CompletedMap := c.mapValues fun _ output => reads output

theorem storedVariables_of_ne {vars : Value} (h : vars ≠ .undefined) :
    storedVariables vars = reads vars := by
  cases vars with
  | undefined => exact absurd rfl h
  | _ => rfl

/-- The columns give a value, or the empty object. -/
theorem readsVariables_cases (vars : Value) : readsVariables vars = .object [] ∨
    readsVariables vars = reads vars ∧ reads vars ≠ .undefined ∧ reads vars ≠ .null := by
  by_cases h : vars = .undefined
  · rw [h]
    exact Or.inl rfl
  · have hread : reads vars ≠ .undefined := fun he => h (reads_undefined.mp he)
    rw [readsVariables, storedVariables_of_ne h]
    cases hr : reads vars with
    | undefined => exact absurd hr hread
    | null => exact Or.inl rfl
    | _ => exact Or.inr ⟨rfl, by simp, by simp⟩

@[simp] theorem readsVariables_empty : readsVariables (.object []) = .object [] := by
  simp [readsVariables, storedVariables, reads_empty, orEmpty]

@[simp] theorem readsVariables_readsVariables (vars : Value) :
    readsVariables (readsVariables vars) = readsVariables vars := by
  obtain h | ⟨h, hu, hn⟩ := readsVariables_cases vars
  · rw [h, readsVariables_empty]
  · rw [h, readsVariables, storedVariables_of_ne hu, reads_reads, orEmpty_of_ne hu hn]

theorem takesVariables_readsVariables (vars : Value) : takesVariables (readsVariables vars) = true := by
  obtain h | ⟨h, _, hn⟩ := readsVariables_cases vars
  · rw [h]
    exact takes_object (by simp)
  · rw [h]
    have := takes_reads vars
    cases hr : reads vars with
    | null => exact absurd hr hn
    | _ => rwa [hr] at this

@[simp] theorem keys_stored (c : CompletedMap) : (stored c).keys = c.keys :=
  OrderedMap.keys_mapValues _ c

@[simp] theorem size_stored (c : CompletedMap) : (stored c).size = c.size := by
  simp [stored, OrderedMap.mapValues, OrderedMap.size]

@[simp] theorem stored_stored (c : CompletedMap) : stored (stored c) = stored c := by
  simp [stored, OrderedMap.mapValues, reads_reads]

@[simp] theorem stored_empty : stored OrderedMap.empty = OrderedMap.empty := rfl

theorem get?_stored (c : CompletedMap) (id : String) :
    (stored c).get? id = (c.get? id).map reads :=
  OrderedMap.get?_mapValues _ c id

theorem stored_set {c : CompletedMap} {id : String} (fresh : id ∉ c.keys) (output : Value) :
    stored (c.set id output) = (stored c).set id (reads output) := by
  have hfresh : id ∉ (stored c).keys := by rwa [keys_stored]
  apply OrderedMap.ext
  rw [OrderedMap.entries_set_of_notMem hfresh]
  simp [stored, OrderedMap.mapValues, OrderedMap.entries_set_of_notMem fresh]

end Columns

inductive StepStatus
  | succeeded
  | failed
  deriving DecidableEq, Repr

/-- A row of `execution_steps`; an absent output reads as `undefined`. `usage` is `tokensInput` and
`tokensOutput`, which are 0 when there is none. -/
structure StepRow where
  name : String
  status : StepStatus
  nodeId : String
  sequence : ℤ
  attempt : ℕ
  input : Value
  output : Value
  error : Option String
  usage : Option (UInt64 × UInt64)
  idempotencyKey : Option String
  isSystemEvent : Bool

structure CheckpointRow where
  sequence : ℕ
  completedStepIds : List String
  context : List (String × Value)
  vars : Value

section Rows
variable [Columns]
open Columns

def StepRow.accepted (row : StepRow) : Bool :=
  isText row.nodeId && takes row.input && takes row.output &&
    row.error.all (fun message => takes (.string message)) &&
    row.usage.all fun usage => takesInteger usage.1 && takesInteger usage.2

def CheckpointRow.accepted (row : CheckpointRow) : Bool :=
  takes (.object row.context) && takesVariables row.vars

/-- The row as it is read later. -/
def StepRow.stored (row : StepRow) : StepRow :=
  { row with input := reads row.input, output := reads row.output }

def CheckpointRow.stored (row : CheckpointRow) : CheckpointRow :=
  { row with
    context := row.context.map fun p => (p.1, reads p.2)
    vars := storedVariables row.vars }

end Rows

/-- Rows in insertion order; `execution_steps_idempotency_uidx` covers the rows with a key. -/
structure StepTable where
  rows : List StepRow
  unique : (rows.filterMap StepRow.idempotencyKey).Nodup

/-- Rows in insertion order under `checkpoints_execution_sequence_uidx`. -/
structure CheckpointTable where
  rows : List CheckpointRow
  unique : (rows.map CheckpointRow.sequence).Nodup

def StepTable.keys (t : StepTable) : List String := t.rows.filterMap StepRow.idempotencyKey

def CheckpointTable.sequences (t : CheckpointTable) : List ℕ :=
  t.rows.map CheckpointRow.sequence

/-- `insert`; `none` is a unique violation. -/
def StepTable.insert (t : StepTable) (row : StepRow) : Option StepTable :=
  if h : ∀ key, row.idempotencyKey = some key → key ∉ t.keys then
    some ⟨t.rows ++ [row], by
      cases hk : row.idempotencyKey with
      | none => simpa [hk] using t.unique
      | some key =>
        rw [List.filterMap_append, List.filterMap_cons_some hk, List.filterMap_nil]
        exact t.unique.append (List.nodup_singleton key) (by simpa [StepTable.keys] using h key hk)⟩
  else none

def CheckpointTable.insert (t : CheckpointTable) (row : CheckpointRow) : Option CheckpointTable :=
  if h : row.sequence ∉ t.sequences then
    some ⟨t.rows ++ [row], by
      rw [List.map_append]
      exact t.unique.append (by simp) (by simpa [CheckpointTable.sequences] using h)⟩
  else none

theorem StepTable.insert_some {t t' : StepTable} {row : StepRow} (h : t.insert row = some t') :
    (∀ key, row.idempotencyKey = some key → key ∉ t.keys) ∧ t'.rows = t.rows ++ [row] := by
  unfold StepTable.insert at h
  split_ifs at h with hk
  obtain rfl := Option.some.inj h
  exact ⟨hk, rfl⟩

theorem CheckpointTable.insert_some {t t' : CheckpointTable} {row : CheckpointRow}
    (h : t.insert row = some t') : row.sequence ∉ t.sequences ∧ t'.rows = t.rows ++ [row] := by
  unfold CheckpointTable.insert at h
  split_ifs at h with hs
  obtain rfl := Option.some.inj h
  exact ⟨hs, rfl⟩

/-- Everything the database holds about one execution. -/
structure ExecutionRecord where
  execution : Execution
  steps : StepTable
  checkpoints : CheckpointTable
  events : List PublicEvent

inductive WriteResult (α : Type)
  | leaseLost
  | refused
  | conflict
  | written (value : α)

namespace ExecutionRecord

/-- The record of an execution when it is created. -/
def created (id workspaceId : String)
    (environmentId externalSubjectRecordId conversationId : Option String) : ExecutionRecord where
  execution := ⟨id, workspaceId, environmentId, externalSubjectRecordId, conversationId, .queued,
    none, none, none, none, none⟩
  steps := ⟨[], List.nodup_nil⟩
  checkpoints := ⟨[], List.nodup_nil⟩
  events := []

/-- The lease check and the two inserts are one transaction. -/
def writeStepAndCheckpoint [Columns] (now : ℕ) (r : ExecutionRecord) (leasedBy : String)
    (step : StepRow) (checkpoint : CheckpointRow) : WriteResult ExecutionRecord :=
  if r.execution.isLeaseValid now leasedBy then
    if step.accepted && checkpoint.accepted then
      match r.steps.insert step.stored, r.checkpoints.insert checkpoint.stored with
      | some steps, some checkpoints =>
        .written { r with steps := steps, checkpoints := checkpoints }
      | _, _ => .conflict
    else .refused
  else .leaseLost

def resumeEventNodeId : String := "__resumed__"

/-- The marker row of the next resume; system rows carry no idempotency key. -/
def resumeRow (r : ExecutionRecord) : StepRow :=
  let priorResumes := (r.steps.rows.filter StepRow.isSystemEvent).length
  { name := "resumed", status := .succeeded, nodeId := resumeEventNodeId,
    sequence := -(priorResumes + 1 : ℤ), attempt := priorResumes + 2, input := .null,
    output := .undefined, error := none, usage := none, idempotencyKey := none,
    isSystemEvent := true }

def recordResumeEvent (now : ℕ) (r : ExecutionRecord) (leasedBy : String) :
    WriteResult ExecutionRecord :=
  if r.execution.isLeaseValid now leasedBy then
    match r.steps.insert r.resumeRow with
    | some steps => .written { r with steps := steps }
    | none => .conflict
  else .leaseLost

/-- The checkpoint with the greatest sequence. -/
def getLatestCheckpoint (r : ExecutionRecord) : Option CheckpointRow :=
  r.checkpoints.rows.foldl (fun best row =>
    match best with
    | some b => if b.sequence < row.sequence then some row else some b
    | none => some row) none

/-- The walker's completed map, in the order of `completedStepIds`. -/
def getResumeState (r : ExecutionRecord) : CompletedMap :=
  match r.getLatestCheckpoint with
  | some checkpoint => OrderedMap.ofList
      (checkpoint.completedStepIds.map fun id => (id, Value.field checkpoint.context id))
  | none => OrderedMap.empty

def getResumeVariables (r : ExecutionRecord) : Value :=
  match r.getLatestCheckpoint with
  | some checkpoint => orEmpty checkpoint.vars
  | none => .object []

theorem writeStepAndCheckpoint_written [Columns] {now : ℕ} {r r' : ExecutionRecord} {a : String}
    {step : StepRow} {checkpoint : CheckpointRow}
    (h : r.writeStepAndCheckpoint now a step checkpoint = .written r') :
    r.execution.isLeaseValid now a = true ∧ (step.accepted && checkpoint.accepted) = true ∧
      ∃ steps checkpoints, r.steps.insert step.stored = some steps ∧
      r.checkpoints.insert checkpoint.stored = some checkpoints ∧
      r' = { r with steps := steps, checkpoints := checkpoints } := by
  unfold writeStepAndCheckpoint at h
  split_ifs at h with hl ha
  refine ⟨hl, ha, ?_⟩
  cases hs : r.steps.insert step.stored with
  | none => simp [hs] at h
  | some steps =>
    cases hc : r.checkpoints.insert checkpoint.stored with
    | none => simp [hs, hc] at h
    | some checkpoints =>
      simp only [hs, hc, WriteResult.written.injEq] at h
      exact ⟨steps, checkpoints, rfl, rfl, h.symm⟩

theorem recordResumeEvent_written {now : ℕ} {r r' : ExecutionRecord} {a : String}
    (h : r.recordResumeEvent now a = .written r') :
    r.execution.isLeaseValid now a = true ∧ ∃ steps, r.steps.insert r.resumeRow = some steps ∧
      r' = { r with steps := steps } := by
  unfold recordResumeEvent at h
  split_ifs at h with hl
  refine ⟨hl, ?_⟩
  cases hs : r.steps.insert r.resumeRow with
  | none => simp [hs] at h
  | some steps =>
    simp only [hs, WriteResult.written.injEq] at h
    exact ⟨steps, rfl, h.symm⟩

end ExecutionRecord
end Linea
