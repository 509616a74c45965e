import Linea.WorkerHandlers

/-! Workflow variables and the order of a resumed walk. A walk that goes on takes the ready nodes
in the order in which they became ready, a resumed one in the order of the node list. A resumed
walk also goes on from what the columns give back. The two walks agree, for all handlers, exactly
when at the crash the queue stands in the order of the node list and the columns give back the
variables and the outputs that are still to be read. -/
namespace Linea.Worker
open Walker OrderedMap ExecutionRecord RecordStepInput WorkflowGraph Validate Columns

namespace VariablesNode

/-- The characters `String.prototype.trim` removes. -/
def isSpace (ch : Char) : Bool :=
  ch.toNat ∈ [0x09, 0x0A, 0x0B, 0x0C, 0x0D, 0x20, 0xA0, 0x1680, 0x2028, 0x2029, 0x202F, 0x205F,
    0x3000, 0xFEFF] ∨ 0x2000 ≤ ch.toNat ∧ ch.toNat ≤ 0x200A

/-- Own enumerable properties of an object or an array. -/
def ownFields : Value → List (String × Value)
  | .object fields => fields
  | .array items => items.zipIdx.map fun p => (toString p.2, p.1)
  | _ => []

/-- `{ ...fields, ...entries }`. -/
def merge (fields entries : List (String × Value)) : List (String × Value) :=
  entries.foldl (fun fields p =>
    if p.1 ∈ fields.map Prod.fst then overwrite p.1 p.2 fields else fields ++ [p]) fields

/-- `VariablesNode.execute`; the input of the node is not looked at. -/
def execute (config : List (String × Value)) (vars : Value) : StepResult :=
  let current := ownFields vars
  let operation := Value.field config "operation"
  if operation.strictEq (some "get") then
    let key := match Value.field config "key" with
      | .string key => key
      | _ => ""
    if key.toList.all isSpace then
      .output (.object [("found", .bool true), ("value", .object current)])
    else
      let value := match Value.field current key with
        | .undefined => .null
        | value => value
      .output (.object [("found", .bool (key ∈ current.map Prod.fst)), ("value", value)])
  else if operation.strictEq (some "set") then
    let entries := ownFields (Value.field config "entries")
    .output (.object [("variables", .object (merge current entries))])
  else .error "Variables node requires operation to be \"set\" or \"get\""

end VariablesNode

variable {g : WorkflowGraph} {payload : Value} {c : CompletedMap} {vars : Value} {s : System}
  {a b : String} {l : Loaded} {p : Pass}

/-- The nodes in the queue stand in the order of the node list. -/
def InOrder (g : WorkflowGraph) (p : Pass) : Prop :=
  (p.node.id :: p.walker.ready).Sublist g.nodeIds

/-- A standing generator is determined by its queue. -/
theorem standing_ext (hu : g.nodeIds.Nodup) {x y : Progress} (hx : Standing g payload c x)
    (hy : Standing g payload c y) (h : queueOf x = queueOf y) : x = y := by
  cases hx with
  | done _ =>
    cases hy with
    | done _ => rfl
    | waiting => cases h
  | @waiting node queued ready hmem hq _ hclean =>
    cases hy with
    | done _ => cases h
    | @waiting node' queued' ready' hmem' hq' _ hclean' =>
      obtain ⟨hid, rfl⟩ := List.cons.inj h
      obtain rfl : node = node' := List.inj_on_of_nodup_map hu hmem hmem' hid
      have hins : insert node.id queued = insert node.id queued' := by
        ext id
        exact (hq.queued id).trans (hq'.queued id).symm
      have hqueued : queued = queued' := by
        rw [← Finset.erase_insert hclean, hins, Finset.erase_insert hclean']
      rw [hqueued]

open scoped Classical in
/-- A walk that starts takes the ready nodes in the order of the node list. -/
theorem walk_scan (hw : WellFormed g) (payload : Value) (hr : Readable g c) :
    ∃ progress, walk g c payload = .ok progress ∧ Standing g payload c progress ∧
      queueOf progress = g.nodeIds.filter fun id => id ∉ c.keys ∧ ReadyIn g c id := by
  have hq : QueueInv g ⟨c, ∅, []⟩ := ⟨by simp, by simp, by simp, by simp, by simp⟩
  obtain ⟨t, ht, htc, htq, hready⟩ :=
    enqueueAll_scan hw hr hq (fun id h => h) hw.ids (by simp)
  have hf : Full g t := by
    intro id hid hrd
    rw [htc] at hrd ⊢
    by_cases hk : id ∈ c.keys
    · exact Or.inl hk
    · rw [hready]
      exact Or.inr (by simp [hid, hk, hrd])
  obtain ⟨progress, hp, hst, hqueue⟩ := advance_standing hw payload htq hf
  rw [htc] at hst
  exact ⟨progress, by rw [walk, ht, ExceptLaws.ok_bind, hp], hst, by rw [hqueue, hready]; rfl⟩

theorem sublist_eq_filter {α : Type*} {l l' : List α} (hs : l'.Sublist l) (hn : l.Nodup)
    (P : α → Bool) (hP : ∀ x, x ∈ l' ↔ x ∈ l ∧ P x = true) : l' = l.filter P := by
  have hsub : l'.Sublist (l.filter P) := by
    have := hs.filter P
    rwa [List.filter_eq_self.mpr fun x hx => ((hP x).mp hx).2] at this
  have hperm : l'.Perm (l.filter P) :=
    (List.perm_ext_iff_of_nodup (hn.sublist hs) (hn.filter P)).mpr fun x => by
      rw [hP, List.mem_filter]
  exact hsub.eq_of_length hperm.length_eq

/-- In order, a resumed walk stands where the walk before the crash stood. -/
theorem inOrder_iff (hw : WellFormed g) (sound : SoundPass g payload l p) :
    InOrder g p ↔ walk g p.completed payload = .ok (.yielded p.step p.node p.walker) := by
  classical
  obtain ⟨progress, hwalk, hst, hqueue⟩ := walk_scan hw payload sound.readable
  have hmem := (standing_queue sound.standing).2
  rw [hwalk]
  constructor
  · intro horder
    have heq := sublist_eq_filter horder hw.ids
      (fun id => decide (id ∉ p.completed.keys ∧ ReadyIn g p.completed id)) fun id => by
        rw [decide_eq_true_iff]
        exact hmem id
    exact congrArg Except.ok (standing_ext hw.ids hst sound.standing (hqueue.trans heq.symm))
  · intro h
    have hsame : progress = .yielded p.step p.node p.walker := Except.ok.inj h
    have hq : queueOf progress = p.node.id :: p.walker.ready := by rw [hsame]; rfl
    rw [InOrder, ← hq, hqueue]
    exact List.filter_sublist

/-- The attempt stops, its lease runs out, and another attempt claims the execution. -/
def crashAndReclaim (a b : String) (elapsed leaseExpiresAt : ℕ) : List Act :=
  [.crash a, .tick elapsed, .claim b leaseExpiresAt]

section Runs
variable [Columns]

/-- The columns give back the variables, and every output that a node still to come is given. -/
structure Kept (g : WorkflowGraph) (p : Pass) : Prop where
  vars : readsVariables p.vars = p.vars
  outputs : ∀ edge ∈ g.edges, MayCome g p.completed edge.target →
    ∀ output, p.completed.get? edge.source = some output → reads output = output

theorem Kept.agree (h : Kept g p) : Agree g p.completed (stored p.completed) := by
  intro edge he hcome
  rw [get?_stored]
  cases hget : p.completed.get? edge.source with
  | none => rfl
  | some output => rw [Option.map_some, h.outputs edge he hcome output hget]

/-- The execution ends in the same way with the crash and without it. -/
def CrashTransparent (g : WorkflowGraph) (payload : Value) (handlers : Handlers) (s : System)
    (a b : String) (elapsed leaseExpiresAt : ℕ) : Prop :=
  ∃ u v, Ends g payload (answerOf handlers) a s u ∧
    Ends g payload (answerOf handlers) b
      (run g payload s (crashAndReclaim a b elapsed leaseExpiresAt)) v ∧ SameEnd u v

/-- The attempt is at step `p` and has not committed it: before the lease check, before the
handler's answer, or with the answer at hand. -/
def Underway (handlers : Handlers) (l : Loaded) (p : Pass) (ph : Phase) : Prop :=
  ph = .checking l p ∨ ph = .invoking l p ∨
    ph = afterInvoke l p (outcomeOf (answerOf handlers p))

omit [Columns] in
theorem withPhase_eq_self {ph : Phase} (h : s.phase a = ph) : s.withPhase a ph = s := by
  obtain ⟨clock, record, phase⟩ := s
  simp only [System.withPhase, System.mk.injEq, true_and]
  funext x
  split_ifs with hx
  · rw [hx, ← h]
  · rfl

section Ends
variable {answer : Pass → StepResult} {final : Final} {s' : System}

/-- The end of an attempt is the end of what is left of it after a step. -/
theorem Ends.of_step {act : Act} (hact : nextAct answer a (s.phase a) = some act)
    (hstep : Worker.step g payload s act = some s') (h : Ends g payload answer a s final) :
    Ends g payload answer a s' final := by
  obtain ⟨n, hdone, hn⟩ := h
  cases n with
  | zero =>
    rw [attempt] at hdone
    rw [hdone] at hact
    cases hact
  | succ n =>
    rw [attempt_succ n hact hstep] at hdone hn
    exact ⟨n, hdone, hn⟩

theorem ends_of_done (n : ℕ) (h : (attempt g payload answer a n s).phase a = .done) :
    Ends g payload answer a s
      ⟨(attempt g payload answer a n s).record.execution.status,
        (attempt g payload answer a n s).record.getResumeState,
        (attempt g payload answer a n s).record.getResumeVariables⟩ :=
  ⟨n, h, rfl, rfl, rfl⟩

end Ends

theorem Underway.ends {handlers : Handlers} {final : Final}
    (h : Underway handlers l p (s.phase a))
    (lease : s.record.execution.isLeaseValid s.clock a = true)
    (hends : Ends g payload (answerOf handlers) a (s.withPhase a (.checking l p)) final) :
    Ends g payload (answerOf handlers) a s final := by
  have hcheck : (s.withPhase a (.checking l p)).phase a = .checking l p := withPhase_self _ _ _
  have hinv : (s.withPhase a (.invoking l p)).phase a = .invoking l p := withPhase_self _ _ _
  have hends₁ : Ends g payload (answerOf handlers) a (s.withPhase a (.invoking l p)) final := by
    have hstep : step g payload (s.withPhase a (.checking l p)) (.checkLease a) =
        some (s.withPhase a (.invoking l p)) := by
      simp only [step, hcheck, withPhase_record, withPhase_clock, lease, if_true,
        withPhase_withPhase]
    exact hends.of_step (by rw [hcheck]; rfl) hstep
  rcases h with h | h | h
  · rwa [withPhase_eq_self h] at hends
  · rwa [withPhase_eq_self h] at hends₁
  · have hstep : step g payload (s.withPhase a (.invoking l p))
        (.invoke a (outcomeOf (answerOf handlers p))) =
        some (s.withPhase a (afterInvoke l p (outcomeOf (answerOf handlers p)))) := by
      simp only [step, hinv, withPhase_withPhase]
    have hends₂ := hends₁.of_step (by rw [hinv]; rfl) hstep
    rwa [withPhase_eq_self h] at hends₂

/-- An attempt that reclaims finishes from the latest checkpoint. -/
theorem reclaimed_ends {answer : Pass → StepResult} {final : Final} {elapsed leaseExpiresAt : ℕ}
    (hb : s.phase b = .idle) (hne : b ≠ a) (log : Logged True s.record c vars false)
    (status : s.record.execution.status = .running)
    (expired : s.record.execution.leaseExpired (s.clock + elapsed) = true)
    (later : s.clock + elapsed < leaseExpiresAt)
    (h : Finishes g payload answer s.record.execution.id c vars (walk g c payload) final) :
    Ends g payload answer b (run g payload s (crashAndReclaim a b elapsed leaseExpiresAt))
      final := by
  let s₁ := s.withPhase a .done
  let s₂ : System := { s₁ with clock := s.clock + elapsed }
  let e : Execution := { s.record.execution with
    status := .running, leasedBy := some b, leaseExpiresAt := some leaseExpiresAt,
    startedAt := some (s.clock + elapsed) }
  let s₃ := (s₂.withExecution e).withPhase b .claimed
  have hidle : s₂.phase b = .idle := (withPhase_of_ne _ hne _).trans hb
  have hstart : s₂.record.execution.startExecution s₂.clock b leaseExpiresAt = some e :=
    if_pos (Or.inr ⟨status, expired⟩)
  have hstep₃ : step g payload s₂ (.claim b leaseExpiresAt) = some s₃ := by
    simp only [step, hidle, hstart, s₃]
  have hrun : run g payload s (crashAndReclaim a b elapsed leaseExpiresAt) = s₃ := by
    have hstep₁ : step g payload s (.crash a) = some s₁ := rfl
    have hstep₂ : step g payload s₁ (.tick elapsed) = some s₂ := rfl
    rw [crashAndReclaim, run_cons hstep₁, run_cons hstep₂, run_cons hstep₃]
    rfl
  rw [hrun]
  refine ends_of_claimed (withPhase_self _ _ _) log ?_ rfl h
  show e.isLeaseValid (s.clock + elapsed) b = true
  simpa [Execution.isLeaseValid, e] using later

omit [Columns] in
theorem Underway.working {handlers : Handlers} {ph : Phase} (h : Underway handlers l p ph) :
    ph.working := by
  rcases h with rfl | rfl | rfl
  · trivial
  · trivial
  · cases answerOf handlers p with
    | error message => trivial
    | output value =>
      simp only [outcomeOf, afterInvoke]
      split <;> trivial

theorem Underway.spec {handlers : Handlers} {ph : Phase} {taken : String → Prop}
    (h : Underway handlers l p ph) (sync : InSync g payload taken False c vars ph)
    (sound : SoundPhase g payload ph) :
    Current g payload taken c vars l p ∧ SoundPass g payload l p := by
  rcases h with rfl | rfl | rfl
  · exact ⟨sync.resolve_right fun h => h.1, sound⟩
  · exact ⟨sync.resolve_right fun h => h.1, sound⟩
  · cases hans : answerOf handlers p with
    | error message =>
      rw [hans] at sync sound
      exact ⟨sync.resolve_right fun h => h.1, sound⟩
    | output value =>
      rw [hans] at sync sound
      simp only [outcomeOf, afterInvoke] at sync sound ⊢
      cases hv : adoptVars p.node value p.vars with
      | none =>
        rw [hv] at sync sound
        exact ⟨sync.resolve_right fun h => h.1, sound⟩
      | some vars' =>
        rw [hv] at sync sound
        exact ⟨sync.resolve_right fun h => h.1, sound⟩

/-- What is known of an attempt between two committed steps: the latest checkpoint is what it holds
as the columns give it back, and it is at a step of a walk from there. -/
structure AtStep (g : WorkflowGraph) (payload : Value) (s : System) (a : String) (l : Loaded)
    (p : Pass) : Prop where
  sound : SoundPass g payload l p
  storable : Storable p.completed p.vars
  readable : Readable g (stored p.completed)
  log : Logged True s.record (stored p.completed) (readsVariables p.vars) false
  ahead : Ahead g a (s.withPhase a (.checking l p)) p.completed p.vars
    (.ok (.yielded p.step p.node p.walker))

theorem Underway.atStep {handlers : Handlers} (hw : WellFormed g)
    (reached : Reachable g payload (Recoverable g) s)
    (lease : s.record.execution.isLeaseValid s.clock a = true)
    (status : s.record.execution.status = .running)
    (h : Underway handlers l p (s.phase a)) : AtStep g payload s a l p := by
  obtain ⟨c, vars, ended, tracks⟩ := reachable_tracks (reachable_noReclaims reached)
  have howner : Owner s a := Execution.isLeaseValid_leasedBy lease
  have soundRun := reachable_sound hw reached
  obtain ⟨hcur, sound⟩ := h.spec (tracks.sync a howner) (soundRun.phases a)
  obtain rfl := tracks.not_ended id howner h.working
  have log : Logged True s.record (stored p.completed) (readsVariables p.vars) false := by
    rw [hcur.same, hcur.sameVars]
    exact tracks.log
  refine ⟨sound, hcur.storable, log.resume.1 ▸ soundRun.state, log,
    ⟨log, lease, status, fun step' node w hstep => ?_, l, withPhase_self _ _ _⟩⟩
  cases hstep
  exact hcur.yields

theorem AtStep.alike (h : AtStep g payload s a l p) (kept : readsVariables p.vars = p.vars) :
    Reloaded g p.completed (stored p.completed) p.vars where
  same := stored_stored _
  storable := h.storable
  storable' := kept ▸ h.log.storable
  readable := h.sound.readable
  readable' := h.readable

/-- Crash transparency. At every point of every recoverable run at which an attempt is between
two committed steps: if its queue stands in the order of the node list and the columns give back
the variables and the outputs that are still to be read, then for all handlers the execution ends
with the same status, variables and outputs whether or not the attempt crashes there and another one
resumes from the latest checkpoint; and if that holds for all handlers, the queue stands in that
order and these values come back. -/
theorem crash_transparent (schemas : ConfigSchemas) (g : WorkflowGraph)
    (accepted : validateGraphStructure schemas g = .ok ()) (payload : Value) (s : System)
    (reached : Reachable g payload (Recoverable g) s) (a b : String) (l : Loaded) (p : Pass)
    (lease : s.record.execution.isLeaseValid s.clock a = true)
    (status : s.record.execution.status = .running) (idle : s.phase b = .idle)
    (elapsed leaseExpiresAt : ℕ)
    (expired : s.record.execution.leaseExpired (s.clock + elapsed) = true)
    (later : s.clock + elapsed < leaseExpiresAt) :
    (∀ handlers, Underway handlers l p (s.phase a) → Kept g p → InOrder g p →
      CrashTransparent g payload handlers s a b elapsed leaseExpiresAt) ∧
    (s.phase a = .checking l p ∨ s.phase a = .invoking l p → FromColumns g payload →
      (∀ handlers, CrashTransparent g payload handlers s a b elapsed leaseExpiresAt) →
      Kept g p ∧ InOrder g p) := by
  have hw := (validateBeforeMerges_ok_iff.mp (validateGraphStructure_ok_iff.mp accepted).1).1
  constructor
  · intro handlers hunder kept horder
    have here := hunder.atStep hw reached lease status
    have hne : b ≠ a := by
      rintro rfl
      rw [idle] at hunder
      exact hunder.working
    obtain ⟨final, hf⟩ := finishes_exists hw (answerOf handlers) s.record.execution.id p.vars
      here.sound.readable here.sound.standing
    have alike := here.alike kept.vars
    have hresumed := hf.reload hw here.sound.standing alike kept.agree
    have hwalk := walk_reload hw payload (alike.sameNodes hw)
    rw [(inOrder_iff hw here.sound).mp horder, Except.map] at hwalk
    rw [← hwalk] at hresumed
    have log := here.log
    rw [kept.vars] at log
    exact ⟨final, final, hunder.ends lease (hf.ends rfl here.ahead),
      reclaimed_ends idle hne log status expired later hresumed, rfl, rfl, fun _ => rfl⟩
  · intro hph columns hall
    have hunder : ∀ handlers, Underway handlers l p (s.phase a) := fun _ =>
      hph.elim Or.inl fun h => Or.inr (Or.inl h)
    have here := (hunder (failingAt g "")).atStep hw reached lease status
    have hne : b ≠ a := by
      rintro rfl
      rw [idle] at hph
      rcases hph with h | h <;> cases h
    obtain ⟨progress, hwalk, hst⟩ := walk_standing hw payload here.readable
    -- handlers under which the two runs end differently are a contradiction
    have hsame : ∀ handlers u v, Finishes g payload (answerOf handlers) s.record.execution.id
        p.completed p.vars (.ok (.yielded p.step p.node p.walker)) u →
        Finishes g payload (answerOf handlers) s.record.execution.id (stored p.completed)
          (readsVariables p.vars) (.ok progress) v → SameEnd u v := by
      intro handlers u v hu hv
      obtain ⟨u', v', hu', hv', hsame⟩ := hall handlers
      have hends : Ends g payload (answerOf handlers) a s u :=
        (hunder handlers).ends lease (hu.ends rfl here.ahead)
      have hends' := reclaimed_ends idle hne here.log status expired later (hwalk ▸ hv)
      rwa [← hends.unique hu', ← hends'.unique hv'] at hsame
    have hvars : readsVariables p.vars = p.vars := by
      by_contra hno
      obtain ⟨v, hv, hnew⟩ := failingWith_finishes hw columns s.record.execution.id hno
        here.readable here.log.storable hst
      have hanswer : answerOf (failingWith g p.vars) p = .error "failed" := if_pos rfl
      have hend := hsame _ _ v (.failed hanswer) hv
      rw [leftBehind_none] at hend
      obtain ⟨id, hid, hfresh⟩ := hnew hend.status
      obtain ⟨value, hvalue⟩ := mem_keys_iff.mp hid
      rw [hend.outputs] at hvalue
      exact hfresh (mem_keys_iff.mpr ⟨value, hvalue⟩)
    have alike := here.alike hvars
    rw [hvars] at hsame
    refine ⟨⟨hvars, fun edge he hcome output hget => ?_⟩, ?_⟩
    · by_contra hno
      have hchanged : (stored p.completed).get? edge.source ≠ some output := by
        rw [get?_stored, hget, Option.map_some]
        exact fun h => hno (Option.some.inj h)
      obtain ⟨handlers, u, v, hu, hv, hdiff⟩ := noticed hw columns s.record.execution.id alike
        here.sound.standing hst he hcome hget hchanged
      exact hdiff (hsame handlers u v hu hv)
    · by_contra hno
      have hqueue : queueOf (.yielded p.step p.node p.walker) ≠ queueOf progress := by
        intro heq
        obtain ⟨start, hstart, hstanding⟩ := walk_standing hw payload here.sound.readable
        have hreload := walk_reload hw payload (alike.sameNodes hw)
        rw [hwalk, hstart] at hreload
        obtain rfl := Except.ok.inj hreload
        rw [queueOf_reload] at heq
        exact hno ((inOrder_iff hw here.sound).mpr
          (by rw [hstart, standing_ext hw.ids here.sound.standing hstanding heq]))
      obtain ⟨handlers, u, v, hu, hv, hdiff⟩ := distinguished hw columns s.record.execution.id
        alike here.sound.standing hst hqueue
      exact hdiff (hsame handlers u v hu hv)

end Runs

open scoped Unchanged

/-- Two nodes set the same variable on parallel paths; the node list names them the other way
round than the edges do. -/
def fanOutGraph : WorkflowGraph where
  entryNodeId := "start"
  nodes := [⟨"start", .start, []⟩,
    ⟨"second", .variables, [("operation", .string "set"), ("entries", .object [("x", .string "2")])]⟩,
    ⟨"first", .variables, [("operation", .string "set"), ("entries", .object [("x", .string "1")])]⟩]
  edges := [⟨"start", "first", none⟩, ⟨"start", "second", none⟩]

/-- Every other node passes its input on. -/
def variablesHandlers : Handlers := fun node input vars =>
  if node.type = .variables then VariablesNode.execute node.config vars else .output input

/-- An attempt claims, loads, and comes to its first step. -/
def firstStep (a : String) : List Act := [.claim a 30, .readState a, .readVariables a, .begin a]

theorem firstStep_recoverable : Reachable fanOutGraph .null (Recoverable fanOutGraph)
    (run fanOutGraph .null queued (firstStep "a")) :=
  reachable_queued.run ⟨⟨fun _ row hrow => (by cases hrow), trivial, trivial⟩,
    ⟨trivial, trivial, trivial⟩, ⟨trivial, trivial, trivial⟩, ⟨trivial, trivial, trivial⟩, trivial⟩

theorem crash_transparent_fanOutGraph :
    CrashTransparent fanOutGraph .null variablesHandlers
      (run fanOutGraph .null queued (firstStep "a")) "a" "b" 31 90 :=
  (crash_transparent acceptAll fanOutGraph rfl .null _ firstStep_recoverable "a" "b" _ _ rfl rfl rfl
    31 90 rfl (by decide)).1 variablesHandlers (Or.inl rfl) ⟨rfl, fun _ _ _ _ _ => rfl⟩
    (.cons_cons "start" (List.nil_sublist ["second", "first"]))

/-- The crash comes when both nodes are ready: the attempt that resumes takes them the other way
round, and the variable ends with the other value. -/
theorem resumed_variables_differ : ∃ s, Reachable fanOutGraph .null (fun _ _ => True) s ∧
    validateGraphStructure acceptAll fanOutGraph = .ok () ∧
    (∃ l p, s.phase "a" = .checking l p) ∧
    (attempt fanOutGraph .null (answerOf variablesHandlers) "a" 9 s).record.getResumeVariables =
      .object [("x", .string "2")] ∧
    (attempt fanOutGraph .null (answerOf variablesHandlers) "b" 12
      (run fanOutGraph .null s (crashAndReclaim "a" "b" 31 90))).record.getResumeVariables =
      .object [("x", .string "1")] ∧
    ¬ CrashTransparent fanOutGraph .null variablesHandlers s "a" "b" 31 90 := by
  refine ⟨run fanOutGraph .null queued
    (firstCall "a" (.output .null) ++ [.writeStep "a" none]),
    reachable_queued.run (runAllowed_of_forall fun _ _ _ => trivial), rfl, ⟨_, _, rfl⟩, rfl, rfl, ?_⟩
  rintro ⟨u, v, hu, hv, hsame⟩
  have hvars : u.vars = .object [("x", .string "2")] :=
    congrArg Final.vars (hu.unique (ends_of_done 9 rfl))
  have hvars' : v.vars = .object [("x", .string "1")] :=
    congrArg Final.vars (hv.unique (ends_of_done 12 rfl))
  rw [hsame.vars, hvars] at hvars'
  simp at hvars'

end Linea.Worker
