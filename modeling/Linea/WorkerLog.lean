import Linea.Worker

/-! What the step and checkpoint tables can look like. `Log` builds them up write by write; the
latest checkpoint is then the last one written, and it reads back as the columns give back the
completed map it was made from. A step that succeeded needs the sequence number a failed step takes,
so nothing but a write for a step already entered in the map can follow a failed step. -/
namespace Linea.Worker
open Walker OrderedMap ExecutionRecord RecordStepInput Columns

/-- The sequence of the latest checkpoint. -/
def topSequence (c : CompletedMap) (ended : Bool) : ℕ := if ended then c.size + 1 else c.size

/-- The choice `getLatestCheckpoint` makes between two rows. -/
def later (best : Option CheckpointRow) (row : CheckpointRow) : Option CheckpointRow :=
  match best with
  | some b => if b.sequence < row.sequence then some row else some b
  | none => some row

variable {refusals : Prop} {executionId : String} {c : CompletedMap} {vars : Value} {ended : Bool}
  {steps : List StepRow} {checkpoints : List CheckpointRow}

theorem sequence_succeeded {input : RecordStepInput} (h : input.error = none) :
    input.sequence = input.completed.size := by
  simp [RecordStepInput.sequence, RecordStepInput.status, h]

theorem sequence_failed {input : RecordStepInput} (h : input.error.isSome) :
    input.sequence = input.completed.size + 1 := by
  simp [RecordStepInput.sequence, RecordStepInput.status, h]

/-- The rows of steps that succeeded, without the markers of resumes. -/
def completedSteps (rows : List StepRow) : List StepRow :=
  rows.filter fun row => row.status = .succeeded ∧ row.isSystemEvent = false

theorem completedSteps_append (rows rows' : List StepRow) :
    completedSteps (rows ++ rows') = completedSteps rows ++ completedSteps rows' :=
  List.filter_append rows rows'

/-- The latest checkpoint is the last one, it holds the map and the variables, and no other row
has its sequence or a greater one. -/
structure LogTop (c : CompletedMap) (vars : Value) (ended : Bool)
    (checkpoints : List CheckpointRow) : Prop where
  bound : ∀ row ∈ checkpoints, row.sequence ≤ topSequence c ended
  latest : checkpoints.foldl later none = checkpoints.getLast?
  empty : checkpoints = [] → c = OrderedMap.empty ∧ vars = .object [] ∧ ended = false
  last : ∀ row, checkpoints.getLast? = some row → row.sequence = topSequence c ended ∧
    row.completedStepIds = c.keys ∧ row.context = c.entries ∧ orEmpty row.vars = vars

/-- A row with a greater sequence becomes the latest one. -/
theorem LogTop.snoc (h : LogTop c vars ended checkpoints) {row : CheckpointRow}
    {c' : CompletedMap} {vars' : Value} {ended' : Bool}
    (hgt : topSequence c ended < row.sequence) (hseq : row.sequence = topSequence c' ended')
    (hids : row.completedStepIds = c'.keys) (hctx : row.context = c'.entries)
    (hvars : orEmpty row.vars = vars') : LogTop c' vars' ended' (checkpoints ++ [row]) := by
  refine ⟨fun r hr => ?_, ?_, by simp, fun r hr => ?_⟩
  · rcases List.mem_append.mp hr with hr | hr
    · have := h.bound r hr
      omega
    · rw [List.mem_singleton.mp hr, hseq]
  · rw [List.foldl_append, h.latest, List.getLast?_concat]
    cases hlast : checkpoints.getLast? with
    | none => rfl
    | some b =>
      have := (h.last b hlast).1
      simp only [List.foldl_cons, List.foldl_nil, later]
      rw [if_pos (by omega)]
  · rw [List.getLast?_concat] at hr
    cases hr
    exact ⟨hseq, hids, hctx, hvars⟩

/-- Reading the context by id gives the entries back. -/
theorem map_field_keys (c : CompletedMap) :
    c.keys.map (fun id => (id, Value.field c.entries id)) = c.entries := by
  rw [OrderedMap.keys, List.map_map]
  conv_rhs => rw [← List.map_id c.entries]
  apply List.map_congr_left
  rintro ⟨k, v⟩ hmem
  have hget : c.get? k = some v := get?_iff_mem.mpr hmem
  unfold OrderedMap.get? at hget
  obtain ⟨p, hp, rfl⟩ := Option.map_eq_some_iff.mp hget
  simp [Value.field, hp]

theorem idempotencyKey_inj {n m : String}
    (h : idempotencyKey executionId n = idempotencyKey executionId m) : n = m := by
  simpa [idempotencyKey] using h

variable [Columns]

/-- Tables written for execution `executionId`, with the completed map and the variables that the
latest checkpoint gives back and whether it is that of a failed step. `refusals` says whether
failure writes are admitted for steps already entered in the completed map. -/
inductive Log (refusals : Prop) (executionId : String) :
    CompletedMap → Value → Bool → List StepRow → List CheckpointRow → Prop
  | start : Log refusals executionId OrderedMap.empty (.object []) false [] []
  | marker {c : CompletedMap} {vars : Value} {ended : Bool} {steps : List StepRow}
      {checkpoints : List CheckpointRow} {row : StepRow}
      (before : Log refusals executionId c vars ended steps checkpoints)
      (system : row.isSystemEvent = true) (status : row.status = .succeeded)
      (key : row.idempotencyKey = none) :
      Log refusals executionId c vars ended (steps ++ [row]) checkpoints
  | succeeded {c : CompletedMap} {vars : Value} {steps : List StepRow}
      {checkpoints : List CheckpointRow} {input : RecordStepInput}
      (before : Log refusals executionId c vars false steps checkpoints)
      (own : input.executionId = executionId) (status : input.error = none)
      (text : isText input.step.nodeId = true) (fresh : input.step.nodeId ∉ c.keys)
      (completed : stored input.completed = c.set input.step.nodeId (reads input.output)) :
      Log refusals executionId (stored input.completed) (readsVariables input.vars) false
        (steps ++ [input.stepRow.stored]) (checkpoints ++ [input.checkpointRow.stored])
  | failed {c : CompletedMap} {vars : Value} {steps : List StepRow}
      {checkpoints : List CheckpointRow} {input : RecordStepInput}
      (before : Log refusals executionId c vars false steps checkpoints)
      (own : input.executionId = executionId) (status : input.error.isSome)
      (fresh : input.step.nodeId ∉ c.keys) (completed : stored input.completed = c) :
      Log refusals executionId c (readsVariables input.vars) true (steps ++ [input.stepRow.stored])
        (checkpoints ++ [input.checkpointRow.stored])
  | refused {c : CompletedMap} {vars output : Value} {ended : Bool} {steps : List StepRow}
      {checkpoints : List CheckpointRow} {input : RecordStepInput} (admitted : refusals)
      (before : Log refusals executionId c vars ended steps checkpoints)
      (own : input.executionId = executionId) (status : input.error.isSome)
      (text : isText input.step.nodeId = true) (fresh : input.step.nodeId ∉ c.keys)
      (completed : stored input.completed = c.set input.step.nodeId output) :
      Log refusals executionId (stored input.completed) (readsVariables input.vars) true
        (steps ++ [input.stepRow.stored]) (checkpoints ++ [input.checkpointRow.stored])

theorem stepRow_failed {input : RecordStepInput} (h : input.error.isSome) :
    input.stepRow.stored.status = .failed := by
  simp [StepRow.stored, stepRow, RecordStepInput.status, h]

theorem stepRow_succeeded {input : RecordStepInput} (h : input.error = none) :
    input.stepRow.stored.status = .succeeded := by
  simp [StepRow.stored, stepRow, RecordStepInput.status, h]

theorem Log.top (h : Log refusals executionId c vars ended steps checkpoints) :
    LogTop c vars ended checkpoints := by
  induction h with
  | start => exact ⟨by simp, rfl, fun _ => ⟨rfl, rfl, rfl⟩, by simp⟩
  | marker _ _ _ _ ih => exact ih
  | @succeeded c vars steps checkpoints input _ _ status _ fresh completed ih =>
    have hsize : input.completed.size = c.size + 1 := by
      rw [← size_stored, completed, size_set_of_notMem fresh]
    refine ih.snoc ?_ ?_ (keys_stored _).symm rfl rfl
    · show topSequence c false < input.sequence
      rw [sequence_succeeded status, hsize]
      simp [topSequence]
    · show input.sequence = _
      rw [sequence_succeeded status, topSequence, size_stored]
      rfl
  | @failed c vars steps checkpoints input _ _ status _ completed ih =>
    have hsize : input.completed.size = c.size := by rw [← size_stored, completed]
    refine ih.snoc ?_ ?_ (completed ▸ (keys_stored _).symm) (completed ▸ rfl) rfl
    · show topSequence c false < input.sequence
      rw [sequence_failed status, hsize]
      simp [topSequence]
    · show input.sequence = _
      rw [sequence_failed status, hsize]
      rfl
  | @refused c vars output ended steps checkpoints input _ _ _ status _ fresh completed ih =>
    have hsize : input.completed.size = c.size + 1 := by
      rw [← size_stored, completed, size_set_of_notMem fresh]
    refine ih.snoc ?_ ?_ (keys_stored _).symm rfl rfl
    · show topSequence c ended < input.sequence
      rw [sequence_failed status, hsize]
      unfold topSequence
      split_ifs <;> omega
    · show input.sequence = _
      rw [sequence_failed status, topSequence, size_stored]
      rfl

/-- What the latest checkpoint gives back is stored again as it is. -/
theorem Log.fixed (h : Log refusals executionId c vars ended steps checkpoints) :
    stored c = c ∧ readsVariables vars = vars := by
  induction h with
  | start => simp
  | marker _ _ _ _ ih => exact ih
  | succeeded => simp
  | failed _ _ _ _ completed ih => exact ⟨ih.1, by simp⟩
  | refused => simp

/-- Keys are taken for completed nodes, and for others only by a failed step. -/
theorem Log.key_taken (h : Log refusals executionId c vars ended steps checkpoints) {key : String}
    (hk : key ∈ steps.filterMap StepRow.idempotencyKey) :
    ∃ n, key = idempotencyKey executionId n ∧ (n ∈ c.keys ∨ ended = true) := by
  induction h with
  | start => simp at hk
  | marker _ _ _ hkey ih => exact ih (by simpa [hkey] using hk)
  | @succeeded c vars steps checkpoints input _ own _ _ _ completed ih =>
    rw [List.filterMap_append, List.mem_append] at hk
    rcases hk with hk | hk
    · obtain ⟨n, hn, hc⟩ := ih hk
      exact ⟨n, hn, Or.inl (by simpa [completed] using Or.inr (hc.resolve_right (by simp)))⟩
    · obtain rfl : key = idempotencyKey input.executionId input.step.nodeId := by
        simpa [StepRow.stored, stepRow] using hk
      exact ⟨_, by rw [own], Or.inl (by simp [completed])⟩
  | failed _ own _ _ _ ih =>
    rw [List.filterMap_append, List.mem_append] at hk
    rcases hk with hk | hk
    · obtain ⟨n, hn, _⟩ := ih hk
      exact ⟨n, hn, Or.inr rfl⟩
    · exact ⟨_, by simpa [StepRow.stored, stepRow, own] using hk, Or.inr rfl⟩
  | refused _ _ own _ _ _ _ ih =>
    rw [List.filterMap_append, List.mem_append] at hk
    rcases hk with hk | hk
    · obtain ⟨n, hn, _⟩ := ih hk
      exact ⟨n, hn, Or.inr rfl⟩
    · exact ⟨_, by simpa [StepRow.stored, stepRow, own] using hk, Or.inr rfl⟩

theorem Log.text (h : Log refusals executionId c vars ended steps checkpoints) :
    ∀ id ∈ c.keys, isText id = true := by
  induction h with
  | start => simp [OrderedMap.empty, OrderedMap.keys]
  | marker _ _ _ _ ih => exact ih
  | succeeded _ _ _ text _ completed ih =>
    intro id hid
    rw [completed, mem_keys_set] at hid
    rcases hid with rfl | hid
    · exact text
    · exact ih id hid
  | failed _ _ _ _ _ ih => exact ih
  | refused _ _ _ _ text _ completed ih =>
    intro id hid
    rw [completed, mem_keys_set] at hid
    rcases hid with rfl | hid
    · exact text
    · exact ih id hid

/-- After a failed step its sequence number is taken. -/
theorem Log.sequence_taken (h : Log refusals executionId c vars true steps checkpoints) :
    c.size + 1 ∈ checkpoints.map CheckpointRow.sequence := by
  have htop := h.top
  cases hlast : checkpoints.getLast? with
  | none =>
    have := (htop.empty (by simpa using hlast)).2.2
    cases this
  | some row =>
    have hseq := (htop.last row hlast).1
    exact List.mem_map.mpr ⟨row, List.mem_of_getLast? hlast, hseq⟩

/-- Steps that succeeded are completed. -/
theorem Log.completed_mem (h : Log refusals executionId c vars ended steps checkpoints) :
    ∀ row ∈ completedSteps steps, row.nodeId ∈ c.keys := by
  induction h with
  | start => simp [completedSteps]
  | marker _ system _ _ ih =>
    intro row hrow
    rw [completedSteps_append, List.mem_append] at hrow
    rcases hrow with hrow | hrow
    · exact ih row hrow
    · simp [completedSteps, system] at hrow
  | succeeded _ _ _ _ _ completed ih =>
    intro row hrow
    rw [completedSteps_append, List.mem_append] at hrow
    rw [completed, mem_keys_set]
    rcases hrow with hrow | hrow
    · exact Or.inr (ih row hrow)
    · rw [List.mem_singleton.mp (List.mem_of_mem_filter hrow)]
      exact Or.inl rfl
  | failed _ _ status _ _ ih =>
    intro row hrow
    rw [completedSteps_append, List.mem_append] at hrow
    rcases hrow with hrow | hrow
    · exact ih row hrow
    · simp [completedSteps, stepRow_failed status] at hrow
  | refused _ _ _ status _ _ completed ih =>
    intro row hrow
    rw [completedSteps_append, List.mem_append] at hrow
    rw [completed, mem_keys_set]
    rcases hrow with hrow | hrow
    · exact Or.inr (ih row hrow)
    · simp [completedSteps, stepRow_failed status] at hrow

theorem Log.failed_row (h : Log refusals executionId c vars ended steps checkpoints)
    (hended : ended = true) : ∃ row ∈ steps, row.status = .failed := by
  induction h with
  | start => cases hended
  | marker _ _ _ _ ih =>
    obtain ⟨row, hrow, hs⟩ := ih hended
    exact ⟨row, List.mem_append_left _ hrow, hs⟩
  | succeeded => cases hended
  | @failed _ _ _ _ input _ _ status =>
    exact ⟨input.stepRow.stored, by simp, stepRow_failed status⟩
  | @refused _ _ _ _ _ _ input _ _ _ status =>
    exact ⟨input.stepRow.stored, by simp, stepRow_failed status⟩

/-- The tables of a record are a log. -/
def Logged (refusals : Prop) (r : ExecutionRecord) (c : CompletedMap) (vars : Value)
    (ended : Bool) : Prop :=
  Log refusals r.execution.id c vars ended r.steps.rows r.checkpoints.rows

section Records
variable {r r' : ExecutionRecord} {now : ℕ} {a : String}

theorem Logged.latest (h : Logged refusals r c vars ended) :
    r.getLatestCheckpoint = r.checkpoints.rows.getLast? := h.top.latest

/-- The latest checkpoint reads back as the map and the variables it was written from. -/
theorem Logged.resume (h : Logged refusals r c vars ended) :
    r.getResumeState = c ∧ r.getResumeVariables = vars := by
  unfold getResumeState getResumeVariables
  rw [h.latest]
  cases hlast : r.checkpoints.rows.getLast? with
  | none =>
    obtain ⟨hc, hv, _⟩ := h.top.empty (by simpa using hlast)
    exact ⟨hc.symm, hv.symm⟩
  | some row =>
    obtain ⟨_, hids, hctx, hvars⟩ := h.top.last row hlast
    refine ⟨?_, hvars⟩
    simp only [hids, hctx, map_field_keys]
    exact ofList_entries c

theorem recordStep_written {input : RecordStepInput} (h : recordStep now r a input = .written r') :
    r'.execution = r.execution ∧ r'.steps.rows = r.steps.rows ++ [input.stepRow.stored] ∧
      r'.checkpoints.rows = r.checkpoints.rows ++ [input.checkpointRow.stored] ∧
      idempotencyKey input.executionId input.step.nodeId ∉ r.steps.keys ∧
      input.sequence ∉ r.checkpoints.sequences ∧ r.execution.leasedBy = some a := by
  obtain ⟨hl, _, steps, checkpoints, hs, hc, rfl⟩ := writeStepAndCheckpoint_written h
  obtain ⟨hkey, hrows⟩ := StepTable.insert_some hs
  obtain ⟨hseq, hcps⟩ := CheckpointTable.insert_some hc
  exact ⟨rfl, hrows, hcps, hkey _ rfl, hseq, Execution.isLeaseValid_leasedBy hl⟩

theorem accepted_parts {input : RecordStepInput} (h : input.accepted = true) :
    isText input.step.nodeId = true ∧ takes input.output = true ∧
      takesVariables input.vars = true := by
  simp only [accepted, StepRow.accepted, CheckpointRow.accepted, stepRow, checkpointRow,
    Bool.and_eq_true] at h
  exact ⟨h.1.1.1.1.1, h.1.1.1.2, h.2.2⟩

theorem success_accepted {p : Pass} {output vars' : Value}
    (h : (successInput executionId p output vars').accepted = true) :
    isText p.step.nodeId = true ∧ takes output = true ∧ takesVariables vars' = true :=
  accepted_parts h

/-- The columns have taken the rows. -/
theorem recordStep_accepted {input : RecordStepInput}
    (h : recordStep now r a input = .written r') : input.accepted = true :=
  (writeStepAndCheckpoint_written h).2.1

/-- The columns take what an attempt holds. -/
structure Storable (c : CompletedMap) (vars : Value) : Prop where
  context : ∀ p ∈ c.entries, isText p.1 = true ∧ takes p.2 = true
  vars : takesVariables vars = true

/-- What the columns have given back they take again. -/
theorem Logged.storable (h : Logged refusals r c vars ended) : Storable c vars := by
  obtain ⟨hc, hvars⟩ := h.fixed
  refine ⟨fun p hp => ⟨h.text p.1 (List.mem_map_of_mem hp), ?_⟩, hvars ▸ takesVariables_readsVariables _⟩
  rw [← hc] at hp
  obtain ⟨q, _, rfl⟩ := List.mem_map.mp hp
  exact takes_reads q.2

theorem Storable.set (h : Storable c vars) {id : String} {output vars' : Value}
    (fresh : id ∉ c.keys) (text : isText id = true) (htakes : takes output = true)
    (hvars : takesVariables vars' = true) : Storable (c.set id output) vars' := by
  refine ⟨fun p hp => ?_, hvars⟩
  rw [entries_set_of_notMem fresh, List.mem_append] at hp
  rcases hp with hp | hp
  · exact h.context p hp
  · rw [List.mem_singleton.mp hp]
    exact ⟨text, htakes⟩

/-- A step that succeeded is written only while no failed step stands in the log. -/
theorem Logged.write_success (h : Logged refusals r c vars ended) {input : RecordStepInput}
    (own : input.executionId = r.execution.id) (status : input.error = none)
    (fresh : input.step.nodeId ∉ c.keys)
    (completed : stored input.completed = c.set input.step.nodeId (reads input.output))
    (hw : recordStep now r a input = .written r') :
    ended = false ∧
      Logged refusals r' (stored input.completed) (readsVariables input.vars) false := by
  obtain ⟨hexec, hsteps, hcps, _, hseq, _⟩ := recordStep_written hw
  have hended : ended = false := by
    cases ended with
    | false => rfl
    | true =>
      refine absurd h.sequence_taken ?_
      rwa [sequence_succeeded status, ← size_stored, completed, size_set_of_notMem fresh] at hseq
  subst hended
  refine ⟨rfl, ?_⟩
  rw [Logged, hexec, hsteps, hcps]
  exact .succeeded h own status (accepted_parts (recordStep_accepted hw)).1 fresh completed

theorem Logged.write_failure (h : Logged refusals r c vars ended) {input : RecordStepInput}
    (own : input.executionId = r.execution.id) (status : input.error.isSome)
    (fresh : input.step.nodeId ∉ c.keys) (completed : stored input.completed = c)
    (hw : recordStep now r a input = .written r') :
    ended = false ∧ Logged refusals r' c (readsVariables input.vars) true := by
  obtain ⟨hexec, hsteps, hcps, _, hseq, _⟩ := recordStep_written hw
  have hended : ended = false := by
    cases ended with
    | false => rfl
    | true =>
      refine absurd h.sequence_taken ?_
      rwa [sequence_failed status, ← size_stored, completed] at hseq
  subst hended
  refine ⟨rfl, ?_⟩
  rw [Logged, hexec, hsteps, hcps]
  exact .failed h own status fresh completed

theorem Logged.write_refused (h : Logged refusals r c vars ended) (admitted : refusals)
    {input : RecordStepInput} {output : Value} (own : input.executionId = r.execution.id)
    (status : input.error.isSome) (fresh : input.step.nodeId ∉ c.keys)
    (completed : stored input.completed = c.set input.step.nodeId output)
    (hw : recordStep now r a input = .written r') :
    Logged refusals r' (stored input.completed) (readsVariables input.vars) true := by
  obtain ⟨hexec, hsteps, hcps, _⟩ := recordStep_written hw
  rw [Logged, hexec, hsteps, hcps]
  exact .refused admitted h own status (accepted_parts (recordStep_accepted hw)).1 fresh completed

theorem Logged.write_marker (h : Logged refusals r c vars ended)
    (hw : r.recordResumeEvent now a = .written r') :
    Logged refusals r' c vars ended ∧ r'.steps.keys = r.steps.keys ∧
      r'.execution = r.execution := by
  obtain ⟨_, steps, hs, rfl⟩ := recordResumeEvent_written hw
  obtain ⟨_, hrows⟩ := StepTable.insert_some hs
  refine ⟨?_, ?_, rfl⟩
  · simp only [Logged, hrows]
    exact .marker h rfl rfl rfl
  · simp [StepTable.keys, hrows, resumeRow]

end Records
end Linea.Worker
