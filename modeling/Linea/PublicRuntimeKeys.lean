import Linea.PublicRuntime

/-! What the clients of the public API agree on: a record, once it is committed, names a resource
that stays, and only the transaction that holds a key commits a record under it. -/
namespace Linea.PublicRuntime
open Linea.Consent (IdempotencyRecord Reply)

/-- No execution, conversation or message is lost, and none changes hands. -/
structure Kept (s s' : Store) : Prop where
  execution : ∀ {id row}, s.consent.execution id = some row →
    ∃ row', s'.consent.execution id = some row' ∧ row'.workspaceId = row.workspaceId ∧
      row'.environmentId = row.environmentId ∧
      row'.externalSubjectRecordId = row.externalSubjectRecordId
  conversation : ∀ {id row}, s.conversations.get? id = some row →
    ∃ row', s'.conversations.get? id = some row' ∧
      row'.toConversationIdentity = row.toConversationIdentity
  message : ∀ {id row}, s.messages.get? id = some row →
    ∃ row', s'.messages.get? id = some row' ∧ row'.workspaceId = row.workspaceId ∧
      row'.conversationId = row.conversationId

/-- A row is inserted under the lock of its id. -/
structure Inserts (held : Set Lock) (s s' : Store) : Prop where
  execution : ∀ {id}, s.consent.execution id = none → s'.consent.execution id ≠ none →
    Lock.consent (.execution id) ∈ held
  conversation : ∀ {id}, s.conversations.get? id = none → s'.conversations.get? id ≠ none →
    Lock.conversation id ∈ held
  message : ∀ {id}, s.messages.get? id = none → s'.messages.get? id ≠ none →
    Lock.message id ∈ held

section Kept
variable {s s' s'' : Store} {held held' : Set Lock}

lemma Kept.refl : Kept s s :=
  ⟨fun h => ⟨_, h, rfl, rfl, rfl⟩, fun h => ⟨_, h, rfl⟩, fun h => ⟨_, h, rfl, rfl⟩⟩

lemma Kept.trans (h : Kept s s') (h' : Kept s' s'') : Kept s s'' := by
  refine ⟨fun hrow => ?_, fun hrow => ?_, fun hrow => ?_⟩
  · obtain ⟨row', hrow', hworkspace, henvironment, hsubject⟩ := h.execution hrow
    obtain ⟨row'', hrow'', hworkspace', henvironment', hsubject'⟩ := h'.execution hrow'
    exact ⟨row'', hrow'', hworkspace'.trans hworkspace, henvironment'.trans henvironment,
      hsubject'.trans hsubject⟩
  · obtain ⟨row', hrow', hidentity⟩ := h.conversation hrow
    obtain ⟨row'', hrow'', hidentity'⟩ := h'.conversation hrow'
    exact ⟨row'', hrow'', hidentity'.trans hidentity⟩
  · obtain ⟨row', hrow', hworkspace, hconversation⟩ := h.message hrow
    obtain ⟨row'', hrow'', hworkspace', hconversation'⟩ := h'.message hrow'
    exact ⟨row'', hrow'', hworkspace'.trans hworkspace, hconversation'.trans hconversation⟩

/-- Tables that are the same keep their rows. -/
lemma Kept.of_eq (hconsent : s'.consent.executions = s.consent.executions)
    (hconversations : s'.conversations = s.conversations) (hmessages : s'.messages = s.messages) :
    Kept s s' := by
  have hexecution : ∀ id, s'.consent.execution id = s.consent.execution id := by
    intro id
    simp only [Consent.Store.execution, hconsent]
  refine ⟨fun hrow => ⟨_, (hexecution _).trans hrow, rfl, rfl, rfl⟩, fun hrow => ?_, fun hrow => ?_⟩
  · rw [hconversations]
    exact ⟨_, hrow, rfl⟩
  · rw [hmessages]
    exact ⟨_, hrow, rfl, rfl⟩

lemma Inserts.refl : Inserts held s s :=
  ⟨fun h h' => absurd h h', fun h h' => absurd h h', fun h h' => absurd h h'⟩

lemma Inserts.of_eq (hconsent : s'.consent.executions = s.consent.executions)
    (hconversations : s'.conversations = s.conversations) (hmessages : s'.messages = s.messages) :
    Inserts held s s' := by
  refine ⟨fun h h' => absurd ?_ h', fun h h' => absurd ?_ h', fun h h' => absurd ?_ h'⟩
  · simpa only [Consent.Store.execution, hconsent] using h
  · rw [hconversations]
    exact h
  · rw [hmessages]
    exact h

lemma Inserts.mono (h : Inserts held s s') (hsub : held ⊆ held') : Inserts held' s s' :=
  ⟨fun hnone hsome => hsub (h.execution hnone hsome),
    fun hnone hsome => hsub (h.conversation hnone hsome),
    fun hnone hsome => hsub (h.message hnone hsome)⟩

lemma Inserts.trans (h : Inserts held s s') (h' : Inserts held s' s'') : Inserts held s s'' := by
  refine ⟨fun {id} hnone hsome => ?_, fun {id} hnone hsome => ?_, fun {id} hnone hsome => ?_⟩
  · by_cases hmid : s'.consent.execution id = none
    · exact h'.execution hmid hsome
    · exact h.execution hnone hmid
  · by_cases hmid : s'.conversations.get? id = none
    · exact h'.conversation hmid hsome
    · exact h.conversation hnone hmid
  · by_cases hmid : s'.messages.get? id = none
    · exact h'.message hmid hsome
    · exact h.message hnone hmid

end Kept

/-! ## The agreement -/

section Agreement
variable (setting : Setting) (calls : Set Call)

/-- A replay of the call finds the resource. -/
def Found (s : Store) (call : Call) (resourceId : String) : Prop :=
  let principal := setting.principal call.actor
  match call.request with
  | .createConversation externalSubjectId _ _ _ _ =>
    (getPublicConversation principal.workspaceId principal.environmentId (some externalSubjectId)
      resourceId s).isSome
  | .startExecution externalSubjectId _ _ _ =>
    (getPublicExecution principal.workspaceId principal.environmentId (some externalSubjectId)
      resourceId s).isSome
  | .cancelExecution _ =>
    (getPublicExecution principal.workspaceId principal.environmentId none resourceId s).isSome
  | .createMessage conversationId _ =>
    (getPublicMessage principal.workspaceId conversationId resourceId s).isSome

/-- How an answer stands to the record under its key. -/
structure Answered (s : Store) (answer : Answer) : Prop where
  resource : ∀ resourceId, answer.outcome.resource = some resourceId →
    s.records answer.call.slot =
      some ⟨setting.hashPublicRequest answer.call.request, some resourceId⟩
  conflict : answer.outcome = .idempotencyConflict → ∃ record,
    s.records answer.call.slot = some record ∧
      record.requestHash ≠ setting.hashPublicRequest answer.call.request
  rejected : ∀ reason, answer.outcome = .rejected reason → answer.record = none

/-- What an answer with a resource means for the later answers under its key. -/
def Binds (first later : Answer) : Prop :=
  ∀ resourceId, first.call.slot = later.call.slot → first.outcome.resource = some resourceId →
    (setting.hashPublicRequest later.call.request = setting.hashPublicRequest first.call.request ∧
      later.outcome.resource = some resourceId) ∨
    (setting.hashPublicRequest later.call.request ≠ setting.hashPublicRequest first.call.request ∧
      later.outcome = .idempotencyConflict)

structure Inv (s : Store) : Prop where
  record : ∀ {slot record}, s.records slot = some record → ∃ call ∈ calls, ∃ resourceId,
    call.slot = slot ∧
      record = ⟨setting.hashPublicRequest call.request, some resourceId⟩ ∧
      Found setting s call resourceId
  answer : ∀ answer ∈ s.answers, Answered setting s answer
  order : s.answers.Pairwise (Binds setting)
  start : ∀ {id start}, s.starts id = some start →
    ∃ requestHash, s.records start.slot = some ⟨requestHash, some id⟩
  queued : ∀ message ∈ s.queue,
    ∃ requestHash, s.records message.slot = some ⟨requestHash, some message.executionId⟩
  queue : (s.queue.map QueuedExecution.slot).Nodup

/-- What a transaction may commit while it holds locks. -/
structure Move (held : Set Lock) (s s' : Store) : Prop where
  kept : Kept s s'
  inserts : Inserts held s s'
  record : ∀ slot, s'.records slot = s.records slot ∨
    (s.records slot = none ∧ Lock.slot slot ∈ held)
  inv : Inv setting calls s'

/-- Errors that a call is never answered with. -/
def impossible : List String :=
  [recordDisappeared, notFinalized, alreadyFinalized, "Idempotent Conversation disappeared",
    "Idempotent Execution disappeared", "Idempotent Message disappeared"]

abbrev Client := ℕ

def discipline : Discipline Store Lock Client where
  inv := Inv setting calls
  move _ := Move setting calls
  permits message := message ∉ impossible
  inv_move _ hmove := hmove.inv

/-- A transaction of another part of the program, which holds `locks` and makes the change `f`. -/
structure Foreign (locks : List Lock) (f : Store → Store) : Prop where
  kept : ∀ s, Kept s (f s)
  inserts : ∀ s, Inserts {k | k ∈ locks} s (f s)
  records : ∀ s, (f s).records = s.records
  answers : ∀ s, (f s).answers = s.answers
  starts : ∀ s, (f s).starts = s.starts
  queue : ∀ s, (f s).queue = s.queue

def foreignProgram (locks : List Lock) (f : Store → Store) : Program Unit := Tx.transaction do
  Tx.selectForUpdate (fun _ => locks) fun _ => ()
  Tx.update f

def admits (_ : Client) (program : Program Unit) : Prop :=
  (∃ call ∈ calls, program = call.transact setting) ∨
    ∃ locks f, Foreign locks f ∧ program = foreignProgram locks f

end Agreement

section Interference
variable {setting : Setting} {calls : Set Call} {c : Client} {held : Set Lock} {s t : Store}

abbrev Rely (setting : Setting) (calls : Set Call) (c : Client) (held : Set Lock) :=
  (discipline setting calls).Rely c held

lemma getPublicConversation_isSome {workspaceId environmentId conversationId : String}
    {externalSubjectId : Option String} :
    (getPublicConversation workspaceId environmentId externalSubjectId conversationId s).isSome ↔
      ∃ row, s.conversations.get? conversationId = some row ∧ row.workspaceId = workspaceId ∧
        row.environmentId = environmentId ∧
        externalSubjectId.all (row.externalSubjectId = ·) := by
  simp only [getPublicConversation, Option.isSome_iff_exists, Option.filter_eq_some_iff,
    decide_eq_true_eq]

lemma getPublicExecution_isSome {workspaceId environmentId executionId : String}
    {externalSubjectId : Option String} :
    (getPublicExecution workspaceId environmentId externalSubjectId executionId s).isSome ↔
      ∃ row, s.consent.execution executionId = some row ∧ row.workspaceId = workspaceId ∧
        row.environmentId = some environmentId ∧
        externalSubjectId.all (row.externalSubjectRecordId = some ·) := by
  simp only [getPublicExecution, Option.isSome_iff_exists, Option.filter_eq_some_iff,
    decide_eq_true_eq]

lemma getPublicMessage_isSome {workspaceId conversationId messageId : String} :
    (getPublicMessage workspaceId conversationId messageId s).isSome ↔
      ∃ row, s.messages.get? messageId = some row ∧ row.workspaceId = workspaceId ∧
        row.conversationId = conversationId := by
  simp only [getPublicMessage, Option.isSome_iff_exists, Option.filter_eq_some_iff,
    decide_eq_true_eq]

lemma Kept.getPublicExecution (hkept : Kept s t) {workspaceId environmentId executionId : String}
    {externalSubjectId : Option String}
    (h : (getPublicExecution workspaceId environmentId externalSubjectId executionId s).isSome) :
    (PublicRuntime.getPublicExecution workspaceId environmentId externalSubjectId executionId
      t).isSome := by
  obtain ⟨row, hrow, hworkspace, henvironment, hsubject⟩ := getPublicExecution_isSome.mp h
  obtain ⟨row', hrow', hworkspace', henvironment', hsubject'⟩ := hkept.execution hrow
  refine getPublicExecution_isSome.mpr ⟨row', hrow', hworkspace'.trans hworkspace,
    henvironment'.trans henvironment, ?_⟩
  rw [hsubject']
  exact hsubject

/-- A replay goes on finding what it found. -/
lemma Found.kept {call : Call} {resourceId : String} (h : Found setting s call resourceId)
    (hkept : Kept s t) : Found setting t call resourceId := by
  obtain ⟨actor, idempotencyKey, request⟩ := call
  cases request with
  | createConversation externalSubjectId _ _ _ _ =>
    obtain ⟨row, hrow, hworkspace, henvironment, hsubject⟩ := getPublicConversation_isSome.mp h
    obtain ⟨row', hrow', hidentity⟩ := hkept.conversation hrow
    refine getPublicConversation_isSome.mpr ⟨row', hrow', ?_⟩
    rw [hidentity]
    exact ⟨hworkspace, henvironment, hsubject⟩
  | startExecution externalSubjectId _ _ _ => exact hkept.getPublicExecution h
  | cancelExecution _ => exact hkept.getPublicExecution h
  | createMessage conversationId _ =>
    obtain ⟨row, hrow, hworkspace, hconversation⟩ := getPublicMessage_isSome.mp h
    obtain ⟨row', hrow', hworkspace', hconversation'⟩ := hkept.message hrow
    exact getPublicMessage_isSome.mpr
      ⟨row', hrow', hworkspace'.trans hworkspace, hconversation'.trans hconversation⟩

lemma Rely.keeps (h : Rely setting calls c held s t) : Kept s t := by
  induction h with
  | refl => exact Kept.refl
  | tail _ hstep ih =>
    obtain ⟨d, held', -, -, -, hmove⟩ := hstep
    exact ih.trans hmove.kept

/-- A committed record stays. -/
lemma Rely.record (h : Rely setting calls c held s t) {slot : Slot} {record : IdempotencyRecord}
    (hrecord : s.records slot = some record) : t.records slot = some record := by
  induction h with
  | refl => exact hrecord
  | tail _ hstep ih =>
    obtain ⟨d, held', -, -, -, hmove⟩ := hstep
    rcases hmove.record slot with heq | ⟨hnone, -⟩
    · rw [heq]
      exact ih
    · rw [ih] at hnone
      cases hnone

lemma notMem_of_disjoint {held' : Set Lock} {k : Lock} (hdisjoint : Disjoint held' held)
    (hk : k ∈ held) : k ∉ held' := fun hk' => Set.disjoint_left.mp hdisjoint hk' hk

/-- A key that is held stays free for the others. -/
lemma Rely.noRecord (h : Rely setting calls c held s t) {slot : Slot} (hheld : Lock.slot slot ∈ held)
    (hnone : s.records slot = none) : t.records slot = none := by
  induction h with
  | refl => exact hnone
  | tail _ hstep ih =>
    obtain ⟨d, held', -, hdisjoint, -, hmove⟩ := hstep
    rcases hmove.record slot with heq | ⟨-, hlock⟩
    · rw [heq]
      exact ih
    · exact absurd hlock (notMem_of_disjoint hdisjoint hheld)

lemma Rely.noExecution (h : Rely setting calls c held s t) {id : String}
    (hheld : Lock.consent (.execution id) ∈ held) (hnone : s.consent.execution id = none) :
    t.consent.execution id = none := by
  induction h with
  | refl => exact hnone
  | tail _ hstep ih =>
    obtain ⟨d, held', -, hdisjoint, -, hmove⟩ := hstep
    by_contra hsome
    exact notMem_of_disjoint hdisjoint hheld (hmove.inserts.execution ih hsome)

lemma Rely.noConversation (h : Rely setting calls c held s t) {id : String}
    (hheld : Lock.conversation id ∈ held) (hnone : s.conversations.get? id = none) :
    t.conversations.get? id = none := by
  induction h with
  | refl => exact hnone
  | tail _ hstep ih =>
    obtain ⟨d, held', -, hdisjoint, -, hmove⟩ := hstep
    by_contra hsome
    exact notMem_of_disjoint hdisjoint hheld (hmove.inserts.conversation ih hsome)

lemma Rely.noMessage (h : Rely setting calls c held s t) {id : String}
    (hheld : Lock.message id ∈ held) (hnone : s.messages.get? id = none) :
    t.messages.get? id = none := by
  induction h with
  | refl => exact hnone
  | tail _ hstep ih =>
    obtain ⟨d, held', -, hdisjoint, -, hmove⟩ := hstep
    by_contra hsome
    exact notMem_of_disjoint hdisjoint hheld (hmove.inserts.message ih hsome)

end Interference

/-! ## Commits -/

section Commit
variable {setting : Setting} {calls : Set Call} {held held' : Set Lock} {s s' s'' : Store}
  {slot : Slot} {record : Option IdempotencyRecord} {started : Option String}

/-- The uncommitted writes `s'` of a transaction that has reserved `slot`: its record, the execution
it has started if any, and rows under locks that it holds. -/
structure Draft (held : Set Lock) (slot : Slot) (record : Option IdempotencyRecord)
    (started : Option String) (s s' : Store) : Prop where
  kept : Kept s s'
  inserts : Inserts held s s'
  records : s'.records = Function.update s.records slot record
  answers : s'.answers = s.answers
  starts : ∀ {id start}, s'.starts id = some start →
    s.starts id = some start ∨ (start.slot = slot ∧ started = some id)
  queue : s'.queue = s.queue ∨ ∃ message, s'.queue = s.queue ++ [message] ∧
    message.slot = slot ∧ started = some message.executionId

/-- Further writes to the rows of the other tables. -/
lemma Draft.write (h : Draft held slot record started s s') (hsub : held ⊆ held')
    (hkept : Kept s' s'') (hinserts : Inserts held' s' s'') (hrecords : s''.records = s'.records)
    (hanswers : s''.answers = s'.answers) (hstarts : s''.starts = s'.starts)
    (hqueue : s''.queue = s'.queue) : Draft held' slot record started s s'' := by
  refine ⟨h.kept.trans hkept, (h.inserts.mono hsub).trans hinserts, ?_, ?_, ?_, ?_⟩
  · rw [hrecords]
    exact h.records
  · rw [hanswers]
    exact h.answers
  · intro id start
    rw [hstarts]
    exact h.starts
  · rw [hqueue]
    exact h.queue

lemma Answered.mono {answer : Answer} (h : Answered setting s answer)
    (hrecord : ∀ {slot record}, s.records slot = some record → s'.records slot = some record) :
    Answered setting s' answer := by
  refine ⟨fun resourceId hresource => hrecord (h.resource resourceId hresource), fun hconflict => ?_,
    h.rejected⟩
  obtain ⟨record, hexisting, hne⟩ := h.conflict hconflict
  exact ⟨record, hrecord hexisting, hne⟩

lemma Outcome.resource_none {outcome : Outcome} (h : outcome.resource = none) :
    outcome = .idempotencyConflict ∨ ∃ reason, outcome = .rejected reason := by
  cases outcome with
  | created resourceId => cases h
  | replay resourceId => cases h
  | cancelled resourceId => cases h
  | rejected reason => exact .inr ⟨reason, rfl⟩
  | idempotencyConflict => exact .inl rfl

/-- The new answer of a key that has a resource. -/
lemma binds_answered {first later : Answer} (hfirst : Answered setting s first)
    (hlater : Answered setting s later)
    (hrejected : ∀ reason, later.outcome = .rejected reason → s.records later.call.slot = none) :
    Binds setting first later := by
  intro resourceId hslot hresource
  have hrecord := hfirst.resource resourceId hresource
  rw [hslot] at hrecord
  cases hnamed : later.outcome.resource with
  | some resourceId' =>
    have hsame := hlater.resource resourceId' hnamed
    rw [hrecord, Option.some.injEq, IdempotencyRecord.mk.injEq] at hsame
    exact .inl ⟨hsame.1.symm, hsame.2.symm⟩
  | none =>
    rcases Outcome.resource_none hnamed with hconflict | ⟨reason, hreason⟩
    · obtain ⟨record, hexisting, hne⟩ := hlater.conflict hconflict
      rw [hrecord, Option.some.injEq] at hexisting
      rw [← hexisting] at hne
      exact .inr ⟨hne.symm, hconflict⟩
    · rw [hrejected reason hreason] at hrecord
      cases hrecord

/-- The commit of a call: what it leaves of the records, of the started executions and of the
queue, and how its answer stands to that. -/
lemma Inv.commit (call : Call) (outcome : Outcome) (hinv : Inv setting calls s) (hkept : Kept s s')
    (hrecord : ∀ {slot record}, s.records slot = some record → s'.records slot = some record)
    (hnew : ∀ {slot record}, s'.records slot = some record → s.records slot = some record ∨
      ∃ call ∈ calls, ∃ resourceId, call.slot = slot ∧
        record = ⟨setting.hashPublicRequest call.request, some resourceId⟩ ∧
        Found setting s' call resourceId)
    (hstarts : ∀ {id start}, s'.starts id = some start → s.starts id = some start ∨
      ∃ requestHash, s'.records start.slot = some ⟨requestHash, some id⟩)
    (hqueue : s'.queue = s.queue ∨ ∃ message, s'.queue = s.queue ++ [message] ∧
      s.records message.slot = none ∧
      ∃ requestHash, s'.records message.slot = some ⟨requestHash, some message.executionId⟩)
    (hanswers : s'.answers = s.answers ++ [⟨call, outcome, s'.records call.slot⟩])
    (hanswered : Answered setting s' ⟨call, outcome, s'.records call.slot⟩) :
    Inv setting calls s' := by
  refine ⟨fun hslot => ?_, ?_, ?_, fun hstart => ?_, ?_, ?_⟩
  · rcases hnew hslot with hold | hnew
    · obtain ⟨call, hcall, resourceId, hkey, hvalue, hfound⟩ := hinv.record hold
      exact ⟨call, hcall, resourceId, hkey, hvalue, hfound.kept hkept⟩
    · exact hnew
  · rw [hanswers]
    intro answer hanswer
    rcases List.mem_append.mp hanswer with hold | hlast
    · exact (hinv.answer answer hold).mono hrecord
    · rw [List.mem_singleton.mp hlast]
      exact hanswered
  · rw [hanswers, List.pairwise_append]
    refine ⟨hinv.order, List.pairwise_singleton _ _, ?_⟩
    intro first hfirst later hlater
    rw [List.mem_singleton.mp hlater]
    exact binds_answered ((hinv.answer first hfirst).mono hrecord) hanswered hanswered.rejected
  · rcases hstarts hstart with hold | hnew
    · obtain ⟨requestHash, hexisting⟩ := hinv.start hold
      exact ⟨requestHash, hrecord hexisting⟩
    · exact hnew
  · intro message hmessage
    rcases hqueue with hsame | ⟨last, hlast, -, hnamed⟩
    · rw [hsame] at hmessage
      obtain ⟨requestHash, hexisting⟩ := hinv.queued message hmessage
      exact ⟨requestHash, hrecord hexisting⟩
    · rw [hlast] at hmessage
      rcases List.mem_append.mp hmessage with hold | hmessage
      · obtain ⟨requestHash, hexisting⟩ := hinv.queued message hold
        exact ⟨requestHash, hrecord hexisting⟩
      · rw [List.mem_singleton.mp hmessage]
        exact hnamed
  · rcases hqueue with hsame | ⟨last, hlast, hfree, -⟩
    · rw [hsame]
      exact hinv.queue
    · rw [hlast, List.map_append, List.nodup_append]
      refine ⟨hinv.queue, List.nodup_singleton _, ?_⟩
      intro key hkey key' hkey' heq
      obtain ⟨message, hmessage, rfl⟩ := List.mem_map.mp hkey
      obtain ⟨requestHash, hexisting⟩ := hinv.queued message hmessage
      rw [List.map_singleton, List.mem_singleton] at hkey'
      rw [heq, hkey', hfree] at hexisting
      cases hexisting

end Commit

end Linea.PublicRuntime
