import Linea.ConsentAuthorities
import Linea.ConsentGateway
import Linea.TransactionFrames

/-! How the rows of the consent store refer to each other. The columns that they do it by are set
by an insert and never after it, so only the programs that insert rows have anything to show: an
intent and its request name one environment, the owner of a personal connection is the subject of
the request, and a reviewer belongs to the workspace of the assignment. -/
namespace Linea.Consent

section Columns

/-- The columns of a connection that no statement sets after the insert. -/
structure ConnectionIdentity where
  workspaceId : String
  environmentId : String
  externalSubjectId : Option String
  ownership : Ownership

def Connection.identity (c : Connection) : ConnectionIdentity :=
  ⟨c.workspaceId, c.environmentId, c.externalSubjectId, c.ownership⟩

/-- The columns of an execution that a request to its external subject refers to. -/
structure ExecutionOwner where
  workspaceId : String
  environmentId : Option String
  externalSubjectId : Option String

def ownerOf (e : Execution) : ExecutionOwner :=
  ⟨e.workspaceId, e.environmentId, e.externalSubjectRecordId⟩

namespace Store

def subjectWorkspace (id : String) (s : Store) : Option String :=
  (s.subjects id).map ExternalSubject.workspaceId

def connectionIdentity (id : String) (s : Store) : Option ConnectionIdentity :=
  (s.connections id).map Connection.identity

def executionOwner (id : String) (s : Store) : Option ExecutionOwner := (s.execution id).map ownerOf

def question (id : String) (s : Store) : Option Question :=
  (s.requestRow id).map ApprovalRequest.toQuestion

def invocation (id : String) (s : Store) : Option Invocation :=
  (s.intentRow id).map ActionIntent.toInvocation

end Store

/-- Two stores that agree on the columns rows refer to each other by. -/
structure SameColumns (s s' : Store) : Prop where
  subjects : ∀ u, s'.subjectWorkspace u = s.subjectWorkspace u
  connections : ∀ k, s'.connectionIdentity k = s.connectionIdentity k
  executions : ∀ e, s'.executionOwner e = s.executionOwner e
  questions : ∀ r, s'.question r = s.question r
  invocations : ∀ i, s'.invocation i = s.invocation i
  reviewers : ∀ key, ∀ a ∈ s'.reviewers key, ∃ b ∈ s.reviewers key, b.workspaceId = a.workspaceId

theorem SameColumns.refl (s : Store) : SameColumns s s :=
  ⟨fun _ => rfl, fun _ => rfl, fun _ => rfl, fun _ => rfl, fun _ => rfl,
    fun _ a ha => ⟨a, ha, rfl⟩⟩

theorem SameColumns.trans {s t u : Store} (h : SameColumns s t) (g : SameColumns t u) :
    SameColumns s u := by
  refine ⟨fun x => (g.subjects x).trans (h.subjects x),
    fun x => (g.connections x).trans (h.connections x),
    fun x => (g.executions x).trans (h.executions x),
    fun x => (g.questions x).trans (h.questions x),
    fun x => (g.invocations x).trans (h.invocations x), fun key a ha => ?_⟩
  obtain ⟨b, hb, hba⟩ := g.reviewers key a ha
  obtain ⟨c, hc, hcb⟩ := h.reviewers key b hb
  exact ⟨c, hc, hcb.trans hba⟩

end Columns

section Links

/-- An intent's request and connection: one workspace, one environment, and a personal connection
of the request's subject. -/
structure IntentLink (s : Store) (invocation : Invocation) (question : Question)
    (connection : ConnectionIdentity) : Prop where
  asks : s.question invocation.approvalRequestId = some question
  uses : s.connectionIdentity invocation.connectionId = some connection
  workspaceId : connection.workspaceId = question.workspaceId
  environmentId : question.environmentId = some connection.environmentId
  owner : connection.ownership = .personal →
    connection.externalSubjectId = question.externalSubjectId

/-- A request made for an intent names the environment and the subject of its execution. -/
def Asked (s : Store) (question : Question) : Prop :=
  question.actionIntentDigest.isSome → s.executionOwner question.executionId =
    some ⟨question.workspaceId, question.environmentId, question.externalSubjectId⟩

structure Linked (s : Store) : Prop where
  asked : ∀ r question, s.question r = some question → Asked s question
  intents : ∀ i invocation, s.invocation i = some invocation →
    ∃ question connection, IntentLink s invocation question connection
  single : ∀ i j invocation invocation', s.invocation i = some invocation →
    s.invocation j = some invocation' →
    invocation.approvalRequestId = invocation'.approvalRequestId → i = j
  reviewers : ∀ key, ∀ a ∈ s.reviewers key, s.subjectWorkspace key.2 = some a.workspaceId

/-- A row is new in a table where it was not, under the lock of its place. -/
structure Inserted {α : Type} (lock : Lock) (held : Set Lock) (old : Option α) : Prop where
  absent : old = none
  held : lock ∈ held

structure NewIntent (held : Set Lock) (s s' : Store) (invocation : Invocation) : Prop where
  link : ∃ question connection, IntentLink s' invocation question connection
  slot : .intentRequestSlot invocation.approvalRequestId ∈ held
  free : ∀ j other, s.invocation j = some other →
    other.approvalRequestId ≠ invocation.approvalRequestId

/-- What a commit may do to the columns. -/
structure ColumnsMove (held : Set Lock) (s s' : Store) : Prop where
  subjects : ∀ u, s'.subjectWorkspace u = s.subjectWorkspace u ∨
    Inserted (.subject u) held (s.subjectWorkspace u)
  connections : ∀ k, s'.connectionIdentity k = s.connectionIdentity k ∨
    Inserted (.connection k) held (s.connectionIdentity k)
  executions : ∀ e, s'.executionOwner e = s.executionOwner e ∨
    Inserted (.execution e) held (s.executionOwner e)
  questions : ∀ r, s'.question r = s.question r ∨
    Inserted (.request r) held (s.question r) ∧
      ∀ question, s'.question r = some question → Asked s' question
  invocations : ∀ i, s'.invocation i = s.invocation i ∨
    Inserted (.intent i) held (s.invocation i) ∧
      ∀ invocation, s'.invocation i = some invocation → NewIntent held s s' invocation
  single : ∀ i j, s.invocation i = none → s.invocation j = none → (s'.invocation i).isSome →
    (s'.invocation j).isSome → i = j
  reviewers : ∀ key, ∀ a ∈ s'.reviewers key, (∃ b ∈ s.reviewers key, b.workspaceId = a.workspaceId) ∨
    s'.subjectWorkspace key.2 = some a.workspaceId

variable {held : Set Lock} {s s' : Store}

/-- A value that a table shows of a row stays when rows are only inserted. -/
theorem stays {α : Type} {lock : Lock} {old new : Option α} {x : α}
    (h : new = old ∨ Inserted lock held old) (hx : old = some x) : new = some x := by
  rcases h with h | h
  · rw [h, hx]
  · rw [h.absent] at hx
    cases hx

theorem stays_absent {α : Type} {lock : Lock} {old new : Option α} {held' : Set Lock}
    (h : new = old ∨ Inserted lock held old) (hheld : lock ∈ held') (hdisjoint : Disjoint held held')
    (hx : old = none) : new = none := by
  rcases h with h | h
  · rw [h, hx]
  · exact absurd hheld (Set.disjoint_left.mp hdisjoint h.held)

namespace ColumnsMove
variable (h : ColumnsMove held s s')
include h

theorem question_stays {r : String} {question : Question} (hr : s.question r = some question) :
    s'.question r = some question :=
  stays ((h.questions r).imp id And.left) hr

theorem connection_stays {k : String} {x : ConnectionIdentity}
    (hk : s.connectionIdentity k = some x) : s'.connectionIdentity k = some x :=
  stays (h.connections k) hk

theorem execution_stays {e : String} {x : ExecutionOwner} (he : s.executionOwner e = some x) :
    s'.executionOwner e = some x :=
  stays (h.executions e) he

theorem invocation_stays {i : String} {x : Invocation} (hi : s.invocation i = some x) :
    s'.invocation i = some x :=
  stays ((h.invocations i).imp id And.left) hi

theorem link_stays {invocation : Invocation} {question : Question} {connection : ConnectionIdentity}
    (hlink : IntentLink s invocation question connection) :
    IntentLink s' invocation question connection :=
  ⟨h.question_stays hlink.asks, h.connection_stays hlink.uses, hlink.workspaceId,
    hlink.environmentId, hlink.owner⟩

/-- An intent of the new store was there, or is the new one. -/
theorem invocation_cases {i : String} {x : Invocation} (hi : s'.invocation i = some x) :
    s.invocation i = some x ∨ s.invocation i = none ∧ NewIntent held s s' x := by
  rcases h.invocations i with heq | ⟨hnew, hlink⟩
  · exact .inl (heq ▸ hi)
  · exact .inr ⟨hnew.absent, hlink x hi⟩

theorem linked (hs : Linked s) : Linked s' where
  asked r question hr hdigest := by
    rcases h.questions r with heq | ⟨_, hasked⟩
    · exact h.execution_stays (hs.asked r question (heq ▸ hr) hdigest)
    · exact hasked question hr hdigest
  intents i invocation hi := by
    rcases h.invocation_cases hi with hold | ⟨_, hnew⟩
    · obtain ⟨question, connection, hlink⟩ := hs.intents i invocation hold
      exact ⟨question, connection, h.link_stays hlink⟩
    · exact hnew.link
  single i j invocation invocation' hi hj hsame := by
    rcases h.invocation_cases hi with hold | ⟨hnone, hnew⟩ <;>
      rcases h.invocation_cases hj with hold' | ⟨hnone', hnew'⟩
    · exact hs.single i j _ _ hold hold' hsame
    · exact absurd hsame (hnew'.free i _ hold)
    · exact absurd hsame.symm (hnew.free j _ hold')
    · exact h.single i j hnone hnone' (by simp [hi]) (by simp [hj])
  reviewers key a ha := by
    rcases h.reviewers key a ha with ⟨b, hb, hba⟩ | hsubject
    · rw [← hba]
      exact stays (h.subjects key.2) (hs.reviewers key b hb)
    · exact hsubject

end ColumnsMove

def columns : Discipline Store Lock Client where
  inv := Linked
  move _ held s s' := ColumnsMove held s s'
  permits _ := True
  inv_move hs h := h.linked hs

theorem SameColumns.move (h : SameColumns s s') : ColumnsMove held s s' where
  subjects u := .inl (h.subjects u)
  connections k := .inl (h.connections k)
  executions e := .inl (h.executions e)
  questions r := .inl (h.questions r)
  invocations i := .inl (h.invocations i)
  single i j hi _ hi' _ := by
    rw [h.invocations i, hi] at hi'
    cases hi'
  reviewers key a ha := .inl (h.reviewers key a ha)

def columnsFrame : columns.Frame where
  kept := SameColumns
  refl := .refl
  trans := .trans
  move _ h := h.move
  permits _ := trivial

end Links

section Writes
variable {s : Store}

theorem subjectWorkspace_setSubjectStatus (id u : String) (status : SubjectStatus) :
    (s.setSubjectStatus id status).subjectWorkspace u = s.subjectWorkspace u := by
  simp only [Store.subjectWorkspace, Store.setSubjectStatus]
  split
  · rw [Option.map_map]
    rfl
  · rfl

theorem SameColumns.setSubjectStatus (id : String) (status : SubjectStatus) :
    SameColumns s (s.setSubjectStatus id status) :=
  { SameColumns.refl s with subjects := fun u => subjectWorkspace_setSubjectStatus id u status }

theorem SameColumns.setIntent {id : String} {f : IntentRecord → IntentRecord}
    (hf : ∀ r, (f r).row.toInvocation = r.row.toInvocation) : SameColumns s (s.setIntent id f) := by
  refine { SameColumns.refl s with invocations := fun i => ?_ }
  simp only [Store.invocation, Store.intentRow, Store.intent, Store.setIntent,
    OrderedMap.get?_mapValues, Option.map_map]
  refine Option.map_congr fun r _ => ?_
  simp only [Function.comp_apply]
  split
  · exact hf r
  · rfl

theorem SameColumns.cancelIntents (ids : List String) (now : ℕ) :
    SameColumns s (s.cancelIntents ids now) := by
  refine { SameColumns.refl s with invocations := fun i => ?_ }
  simp only [Store.invocation, Store.intentRow, Store.intent, Store.cancelIntents,
    OrderedMap.get?_mapValues, Option.map_map]
  refine Option.map_congr fun r _ => ?_
  simp only [Function.comp_apply]
  split <;> rfl

theorem SameColumns.setRequest {id : String} {f : RequestRecord → RequestRecord}
    (hf : ∀ r, (f r).row.toQuestion = r.row.toQuestion) : SameColumns s (s.setRequest id f) := by
  refine { SameColumns.refl s with questions := fun r => ?_ }
  simp only [Store.question, Store.requestRow, Store.request, Store.setRequest,
    OrderedMap.get?_mapValues, Option.map_map]
  refine Option.map_congr fun r _ => ?_
  simp only [Function.comp_apply]
  split
  · exact hf r
  · rfl

theorem SameColumns.cancelRequests (ids : List String) (now : ℕ) :
    SameColumns s (s.cancelRequests ids now) := by
  refine { SameColumns.refl s with questions := fun r => ?_ }
  simp only [Store.question, Store.requestRow, Store.request, Store.cancelRequests,
    OrderedMap.get?_mapValues, Option.map_map]
  refine Option.map_congr fun r _ => ?_
  simp only [Function.comp_apply]
  split <;> rfl

/-- The row of an execution is replaced by one of the same owner. -/
theorem SameColumns.setExecution {id : String} {row : Execution}
    (hrow : s.executionOwner id = some (ownerOf row)) :
    SameColumns s (s.setExecution id (.withRow fun _ => row)) := by
  refine { SameColumns.refl s with executions := fun e => ?_ }
  simp only [Store.executionOwner, Store.execution, Store.setExecution]
  split
  · rename_i heq
    subst heq
    simp only [Store.executionOwner, Store.execution, Option.map_map] at hrow ⊢
    rw [hrow]
    obtain ⟨record, hrecord, _⟩ := Option.map_eq_some_iff.mp hrow
    rw [hrecord]
    rfl
  · rfl

theorem SameColumns.mapConnections {f : String → Connection → Connection}
    (hf : ∀ k c, (f k c).identity = c.identity) :
    SameColumns s { s with connections := fun k => (s.connections k).map (f k) } := by
  refine { SameColumns.refl s with connections := fun k => ?_ }
  simp only [Store.connectionIdentity, Option.map_map]
  exact Option.map_congr fun c _ => hf k c

theorem SameColumns.setConnection {id : String} {f : Connection → Connection}
    (hf : ∀ c, (f c).identity = c.identity) : SameColumns s (s.setConnection id f) := by
  refine { SameColumns.refl s with connections := fun k => ?_ }
  simp only [Store.connectionIdentity, Store.setConnection]
  split
  · rw [Option.map_map]
    exact Option.map_congr fun c _ => hf c
  · rfl

theorem SameColumns.eraseConnections (workspaceId externalSubjectId : String) :
    SameColumns s (s.eraseConnections workspaceId externalSubjectId) := by
  refine SameColumns.mapConnections fun k c => ?_
  split <;> rfl

theorem Authorization.revoke_workspaceId (a : Authorization) (now : ℕ) :
    (a.revoke now).workspaceId = a.workspaceId := by
  unfold Authorization.revoke
  split <;> rfl

/-- Assignments are changed in place, within their workspaces. -/
theorem SameColumns.mapReviewers {f : String × String → Authorization → Authorization}
    (hf : ∀ key a, (f key a).workspaceId = a.workspaceId) :
    SameColumns s { s with reviewers := fun key => (s.reviewers key).map (f key) } := by
  refine { SameColumns.refl s with reviewers := fun key a ha => ?_ }
  obtain ⟨b, hb, rfl⟩ := List.mem_map.mp ha
  exact ⟨b, hb, (hf key b).symm⟩

theorem SameColumns.revokeReviewers (workspaceId externalSubjectId : String) (now : ℕ) :
    SameColumns s { s with
      reviewers := revokeAuthorizations workspaceId externalSubjectId now s.reviewers } := by
  refine SameColumns.mapReviewers fun key a => ?_
  split
  · exact a.revoke_workspaceId now
  · rfl

theorem SameColumns.setAuthorizations {kind : SubjectAuthorizationKind} {key : String × String}
    {f : Authorization → Authorization} (hf : ∀ a, (f a).workspaceId = a.workspaceId) :
    SameColumns s (s.setAuthorizations kind key fun rows => rows.map f) := by
  cases kind with
  | requester => exact { SameColumns.refl s with }
  | reviewer =>
    refine { SameColumns.refl s with reviewers := fun key' a ha => ?_ }
    simp only [Store.setAuthorizations] at ha
    by_cases hkey : key' = key
    · subst hkey
      rw [Function.update_self] at ha
      obtain ⟨b, hb, rfl⟩ := List.mem_map.mp ha
      exact ⟨b, hb, (hf b).symm⟩
    · rw [Function.update_of_ne hkey] at ha
      exact ⟨a, ha, rfl⟩

end Writes

end Linea.Consent
