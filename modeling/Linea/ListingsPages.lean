import Linea.Listings

/-! What the paged lists return. A cursor that is cut to milliseconds cannot tell the rows of its
millisecond apart, so a page that ends inside one loses the rows after it unless they stand at the
whole millisecond. Only the list of Approval Requests orders its rows by the same cut time. -/
namespace Linea.Listings
open Linea.Keyset

section Keys
variable {α : Type} (time : α → Timestamp) (id : α → Uuid)

def keyAt (row : α) : ℤ ×ₗ ℕ := orderKey (time row) (id row)

def cursorAt (row : α) : Cursor := { date := toDate (time row), id := id row }

def cursorKey (cursor : Cursor) : ℤ ×ₗ ℕ := orderKey (fromDate cursor.date) cursor.id

/-- Where a page ends, the later rows of the same millisecond stand at the whole millisecond and
have smaller ids. -/
def SharpEnds (limit : ℕ) (rows : List α) : Prop :=
  ∀ last ∈ rows, ∀ row ∈ rows, limit ∣ rank (keyAt time id) rows last →
    keyAt time id row < keyAt time id last → toDate (time row) = toDate (time last) →
      time row = truncMilliseconds (time row) ∧ id row < id last

end Keys

lemma orderKey_lt {time time' : ℤ} {id id' : ℕ} :
    orderKey time id < orderKey time' id' ↔ time < time' ∨ (time = time' ∧ id < id') :=
  Prod.Lex.toLex_lt_toLex

lemma below_iff {time : Timestamp} {id : Uuid} {cursor : Cursor} :
    below time id cursor = decide (orderKey time id < cursorKey cursor) := by
  rw [Bool.eq_iff_iff,decide_eq_true_iff,cursorKey,orderKey_lt]
  simp [below]

lemma above_iff {time : Timestamp} {id : Uuid} {cursor : Cursor} :
    above time id cursor = decide (cursorKey cursor < orderKey time id) := by
  rw [Bool.eq_iff_iff,decide_eq_true_iff,cursorKey,orderKey_lt]
  simp only [above,gt_iff_lt,Bool.or_eq_true,decide_eq_true_eq,Bool.and_eq_true]
  rw [eq_comm (b := time)]

lemma trunc_le (time : ℤ) : truncMilliseconds time ≤ time := by
  change time / 1000 * 1000 ≤ time
  omega

lemma toDate_trunc (time : ℤ) : toDate (truncMilliseconds time) = toDate time := by
  change (time / 1000 * 1000 / 1000 : ℤ) = time / 1000
  omega

/-- A row stays below the cursor of an earlier one in its millisecond only at the whole
millisecond. -/
lemma lt_cursor_iff {time time' : ℤ} {id id' : ℕ} (h : orderKey time id < orderKey time' id') :
    orderKey time id < orderKey (truncMilliseconds time') id' ↔
      (toDate time = toDate time' → time = truncMilliseconds time ∧ id < id') := by
  rw [orderKey_lt] at h ⊢
  change (time < time' / 1000 * 1000 ∨ time = time' / 1000 * 1000 ∧ id < id') ↔
    ((time / 1000 : ℤ) = time' / 1000 → (time : ℤ) = time / 1000 * 1000 ∧ id < id')
  constructor
  · intro hlt hsame
    omega
  · intro hsame
    by_cases heq : time / 1000 = time' / 1000
    · have hwhole := hsame heq
      omega
    · omega

section Lists
variable {α : Type} {time : α → Timestamp} {id : α → Uuid} {limit : ℕ} {rows : List α}

lemma cursorKey_cursorAt (row : α) :
    cursorKey (cursorAt time id row) = orderKey (truncMilliseconds (time row)) (id row) := rfl

lemma resolved_iff_sharpEnds :
    Resolved (keyAt time id) cursorKey (cursorAt time id) limit rows ↔
      SharpEnds time id limit rows := by
  constructor
  · intro h last hlast row hrow hdvd hlt
    exact (lt_cursor_iff hlt).mp (h last hlast row hrow hdvd hlt)
  · intro h last hlast row hrow hdvd hlt
    exact (lt_cursor_iff hlt).mpr (h last hlast row hrow hdvd hlt)

lemma cursor_le (row : α) : cursorKey (cursorAt time id row) ≤ keyAt time id row := by
  rw [cursorKey_cursorAt,keyAt,← not_lt,orderKey_lt]
  rintro (hlt | ⟨-,hlt⟩)
  · exact absurd hlt (not_lt.mpr (trunc_le (time row)))
  · exact lt_irrefl _ hlt

lemma keys_nodup (hids : (rows.map id).Nodup) : (rows.map (keyAt time id)).Nodup := by
  refine List.Nodup.of_map (fun key : ℤ ×ₗ ℕ => (ofLex key).2) ?_
  rw [List.map_map]
  exact hids

/-- A query with a cursor reads the rows that are left of the matching ones. -/
lemma query_eq {p : α → Bool} {cursor : Option Cursor} :
    orderBy (keyAt time id) (rows.filter fun row => p row && cursor.all (below (time row) (id row))) =
      remaining (keyAt time id) cursorKey (rows.filter p) cursor := by
  unfold remaining
  rw [List.filter_filter]
  refine congrArg _ (List.filter_congr fun row _ => ?_)
  rw [Bool.and_comm]
  cases cursor with
  | none => rfl
  | some c => rw [Option.all_some,Option.all_some,below_iff,keyAt]

lemma list_returns_iff (hids : (rows.map id).Nodup) (hlimit : 0 < limit)
    {request : ℕ → Option Cursor → Page α Cursor}
    (hrequest : ∀ number cursor, request number cursor = paginate limit (cursorAt time id)
      ((remaining (keyAt time id) cursorKey rows cursor).take (limit + 1))) :
    ∃ data, Follows request data ∧
      (Returned (keyAt time id) rows data ↔ SharpEnds time id limit rows) := by
  rw [← resolved_iff_sharpEnds]
  exact follow_returns_iff (keys_nodup hids) (fun row _ => cursor_le row) hlimit hrequest

end Lists

/-! ## Rows of a join -/

section Join
variable {α β ι : Type}

/-- Rows that are joined with at most one row each keep their ids apart. -/
lemma nodup_join {rows : List α} {join : α → List β} {id : α → ι} {idOf : β → ι}
    (hids : (rows.map id).Nodup) (hone : ∀ row ∈ rows, (join row).length ≤ 1)
    (hid : ∀ row ∈ rows, ∀ joined ∈ join row, idOf joined = id row) :
    ((rows.flatMap join).map idOf).Nodup := by
  induction rows with
  | nil => exact List.nodup_nil
  | cons row rows ih =>
    rw [List.map_cons,List.nodup_cons] at hids
    rw [List.flatMap_cons,List.map_append,List.nodup_append]
    refine ⟨?_,ih hids.2 (fun r hr => hone r (List.mem_cons_of_mem _ hr))
      (fun r hr => hid r (List.mem_cons_of_mem _ hr)),?_⟩
    · have hlength : ((join row).map idOf).length ≤ 1 := by
        rw [List.length_map]
        exact hone row List.mem_cons_self
      match hjoined : (join row).map idOf,hlength with
      | [],_ => exact List.nodup_nil
      | [_],_ => exact List.nodup_singleton _
    · intro key hkey key' hkey' heq
      obtain ⟨joined,hjoined,rfl⟩ := List.mem_map.mp hkey
      obtain ⟨joined',hjoined',rfl⟩ := List.mem_map.mp hkey'
      obtain ⟨other,hother,hmem⟩ := List.mem_flatMap.mp hjoined'
      rw [hid row List.mem_cons_self joined hjoined,
        hid other (List.mem_cons_of_mem _ hother) joined' hmem] at heq
      exact hids.1 (heq ▸ List.mem_map_of_mem hother)

/-- Under a unique key at most one row has a given value. -/
lemma length_filter_key {rows : List α} {key : α → ι} {p : α → Bool} (value : ι)
    (hkeys : (rows.map key).Nodup) (hp : ∀ row ∈ rows, p row → key row = value) :
    (rows.filter p).length ≤ 1 := by
  have hnodup : ((rows.filter p).map key).Nodup := hkeys.sublist (List.filter_sublist.map key)
  have hsame : ∀ k ∈ (rows.filter p).map key, k = value := by
    intro k hk
    obtain ⟨row,hrow,rfl⟩ := List.mem_map.mp hk
    exact hp row (List.mem_filter.mp hrow).1 (List.mem_filter.mp hrow).2
  rw [List.eq_replicate_of_mem hsame,List.nodup_replicate,List.length_map] at hnodup
  exact hnodup

end Join

/-! ## The matching rows -/

def matchingExecutions (db : Database) (filters : WorkspaceExecutionFilters) :
    List ExecutionWithWorkflow :=
  (db.executions.flatMap (withWorkflow db)).filter fun row => filters.matches row.toExecution

def matchingIntents (db : Database) (principal : EndUserPrincipal) (now : Date) :
    List PendingActionIntent :=
  (db.actionIntents.flatMap (withRequest db)).filter (pendingFor db principal now)

def matchingConversations (db : Database) (workspaceId environmentId : Uuid)
    (externalSubjectId : Option Uuid) : List Conversation :=
  db.conversations.filter (listedConversation workspaceId environmentId externalSubjectId)

def matchingDeliveries (db : Database) (workspaceId environmentId : Uuid) (now : Date) :
    List WebhookDelivery :=
  db.webhookDeliveries.filter (listedDelivery workspaceId environmentId (now - retentionMs))

def matchingRequests (db : Database) (principal : EndUserPrincipal) (conversationId : Option Uuid) :
    List ExternalApprovalRequestView :=
  (db.approvalRequests.flatMap (externalViews db principal)).filter fun row =>
    (ExternalApprovalRequestFilter.pending conversationId none).matches row.request

lemma nodup_filter {α ι : Type} {rows : List α} {id : α → ι} (p : α → Bool)
    (hids : (rows.map id).Nodup) : ((rows.filter p).map id).Nodup :=
  hids.sublist (List.filter_sublist.map id)

lemma matchingExecutions_ids (db : Database) (filters : WorkspaceExecutionFilters) :
    ((matchingExecutions db filters).map (·.id)).Nodup := by
  refine nodup_filter _ (nodup_join db.execution_ids (fun execution _ => ?_) ?_)
  · rw [withWorkflow,List.length_map]
    exact length_filter_key _ db.workflow_ids fun workflow _ h => (of_decide_eq_true h).symm
  · intro execution _ row hrow
    obtain ⟨workflow,-,rfl⟩ := List.mem_map.mp hrow
    rfl

lemma matchingIntents_ids (db : Database) (principal : EndUserPrincipal) (now : Date) :
    ((matchingIntents db principal now).map (·.intent.id)).Nodup := by
  refine nodup_filter _ (nodup_join db.intent_ids (fun intent _ => ?_) ?_)
  · rw [withRequest,List.length_map]
    exact length_filter_key _ db.request_ids fun request _ h => of_decide_eq_true h
  · intro intent _ row hrow
    obtain ⟨request,-,rfl⟩ := List.mem_map.mp hrow
    rfl

lemma externalViews_request {db : Database} {principal : EndUserPrincipal}
    {request : ApprovalRequest} {row : ExternalApprovalRequestView}
    (hrow : row ∈ externalViews db principal request) : row.request = request := by
  obtain ⟨-,-,hview⟩ := List.mem_flatMap.mp hrow
  split at hview
  · rw [List.mem_singleton.mp hview]
  · obtain ⟨decision,-,rfl⟩ := List.mem_map.mp hview
    rfl

lemma length_externalViews (db : Database) (principal : EndUserPrincipal)
    (request : ApprovalRequest) : (externalViews db principal request).length ≤ 1 := by
  have hdecisions : (db.approvalDecisions.filter fun decision =>
      decision.approvalRequestId = request.id).length ≤ 1 :=
    length_filter_key _ db.decision_requests fun decision _ h => of_decide_eq_true h
  have hsubjects : (db.externalSubjects.filter fun subject =>
      request.externalSubjectId = some subject.id &&
        subject.workspaceId = request.workspaceId).length ≤ 1 := by
    refine length_filter_key (request.externalSubjectId.getD 0) db.subject_ids ?_
    intro subject _ h
    simp only [Bool.and_eq_true,decide_eq_true_eq] at h
    rw [h.1,Option.getD_some]
  have henvironments : (db.environments.filter fun environment =>
      environment.id = request.environmentId &&
        environment.workspaceId = request.workspaceId).length ≤ 1 := by
    refine length_filter_key request.environmentId db.environment_ids ?_
    intro environment _ h
    simp only [Bool.and_eq_true,decide_eq_true_eq] at h
    exact h.1
  unfold externalViews
  simp only [List.length_flatMap,List.map_const',List.sum_replicate,smul_eq_mul]
  have howners := (List.length_filter_le (fun owner : ExternalSubject × Environment =>
    externalApprovalRequestOwner db principal request owner.1 owner.2) _).trans
      ((List.length_product _ _).le.trans (Nat.mul_le_mul hsubjects henvironments))
  refine le_trans (Nat.mul_le_mul howners (?_ : _ ≤ 1)) (le_refl 1)
  split
  · exact le_refl 1
  · rw [List.length_map]
    exact hdecisions

lemma matchingRequests_ids (db : Database) (principal : EndUserPrincipal)
    (conversationId : Option Uuid) :
    ((matchingRequests db principal conversationId).map (·.request.id)).Nodup := by
  refine nodup_filter _ (nodup_join db.request_ids
    (fun request _ => length_externalViews db principal request) ?_)
  intro request _ row hrow
  rw [externalViews_request hrow]

/-! ## The lists -/

section Pages
variable {db : Database} {limit : ℕ}

lemma executionsPage_eq (filters : WorkspaceExecutionFilters) (cursor : Option Cursor) :
    executionsPage db filters (some limit) cursor = paginate limit (cursorAt (·.createdAt) (·.id))
      ((remaining (keyAt (·.createdAt) (·.id)) cursorKey (matchingExecutions db filters)
        cursor).take (limit + 1)) := by
  have hquery : orderBy (fun row : ExecutionWithWorkflow => orderKey row.createdAt row.id)
      ((db.executions.flatMap (withWorkflow db)).filter fun row =>
        filters.matches row.toExecution && cursor.all (below row.createdAt row.id)) =
      remaining (keyAt (·.createdAt) (·.id)) cursorKey (matchingExecutions db filters) cursor :=
    query_eq
  unfold executionsPage listWorkspaceExecutions paginate
  simp only [Option.getD_some,hquery]
  by_cases hmore : ((remaining (keyAt (·.createdAt) (·.id)) cursorKey (matchingExecutions db filters)
      cursor).take (limit + 1)).length > limit
  · simp only [hmore,if_true,decide_true]
    rfl
  · simp only [hmore,if_false,decide_false,Bool.false_eq_true]
    rw [List.take_of_length_le (not_lt.mp hmore)]

lemma listPendingActionIntents_eq (principal : EndUserPrincipal) (now : Date)
    (cursor : Option Cursor) :
    listPendingActionIntents db principal now limit cursor =
      paginate limit (cursorAt (·.intent.createdAt) (·.intent.id))
        ((remaining (keyAt (·.intent.createdAt) (·.intent.id)) cursorKey
          (matchingIntents db principal now) cursor).take (limit + 1)) := by
  unfold listPendingActionIntents findPendingActionIntents
  exact congrArg (fun rows => paginate limit _ (rows.take (limit + 1))) query_eq

lemma listConversations_eq (workspaceId environmentId : Uuid) (externalSubjectId : Option Uuid)
    (cursor : Option Cursor) :
    listConversations db workspaceId environmentId externalSubjectId limit cursor =
      paginate limit (cursorAt (·.lastActivityAt) (·.id))
        ((remaining (keyAt (·.lastActivityAt) (·.id)) cursorKey
          (matchingConversations db workspaceId environmentId externalSubjectId)
          cursor).take (limit + 1)) := by
  unfold listConversations listPublicConversations
  exact congrArg (fun rows => paginate limit _ (rows.take (limit + 1))) query_eq

lemma listDeliveries_eq (workspaceId environmentId : Uuid) (now : Date) (cursor : Option Cursor) :
    listDeliveries db workspaceId environmentId now limit cursor =
      paginate limit (cursorAt (·.createdAt) (·.id))
        ((remaining (keyAt (·.createdAt) (·.id)) cursorKey
          (matchingDeliveries db workspaceId environmentId now) cursor).take (limit + 1)) := by
  unfold listDeliveries listWebhookDeliveries
  exact congrArg (fun rows => paginate limit _ (rows.take (limit + 1))) query_eq

lemma listEndUserApprovalRequests_eq (principal : EndUserPrincipal) (conversationId : Option Uuid)
    (cursor : Option Cursor) :
    listEndUserApprovalRequests db principal conversationId limit cursor =
      paginate limit
        (cursorAt (fun row => truncMilliseconds row.request.requestedAt) (·.request.id))
        ((remaining requestedKey cursorKey (matchingRequests db principal conversationId)
          cursor).take (limit + 1)) := by
  have hcursor : (fun row : ExternalApprovalRequestView => encodeApprovalRequestCursor row.request) =
      cursorAt (fun row => truncMilliseconds row.request.requestedAt) (·.request.id) := by
    funext row
    simp only [encodeApprovalRequestCursor,cursorAt,toDate_trunc]
  unfold listEndUserApprovalRequests findExternalApprovalRequests
  rw [hcursor]
  exact congrArg (fun rows => paginate limit _ (rows.take (limit + 1))) query_eq

/-- Times that are whole milliseconds lose nothing to a cursor. -/
lemma sharpEnds_whole {α : Type} {time : α → Timestamp} {id : α → Uuid} {rows : List α}
    (hwhole : ∀ row, time row = truncMilliseconds (time row)) : SharpEnds time id limit rows := by
  intro last _ row _ _ hlt hsame
  have htime : time row = time last := by
    rw [hwhole row,hwhole last,truncMilliseconds,truncMilliseconds,hsame]
  rw [keyAt,keyAt,orderKey_lt] at hlt
  rcases hlt with hlt | ⟨-,hlt⟩
  · exact absurd hlt (by rw [htime]; exact lt_irrefl _)
  · exact ⟨hwhole row,hlt⟩

end Pages

/-! ## New executions -/

/-- No matching row at or after `since` shares its millisecond, except at the whole millisecond and
with an id up to that of `since`. -/
def SharpSince (since : Execution) (rows : List Execution) : Prop :=
  ∀ row ∈ rows, ¬ orderKey since.createdAt since.id < orderKey row.createdAt row.id →
    toDate row.createdAt = toDate since.createdAt →
      row.createdAt = truncMilliseconds row.createdAt ∧ row.id ≤ since.id

/-- A row at or after `since` is not counted only if it is out of the millisecond of `since`, or at
its beginning. -/
lemma not_above_iff {time time' : ℤ} {id id' : ℕ} (h : ¬ orderKey time' id' < orderKey time id) :
    ¬ orderKey (truncMilliseconds time') id' < orderKey time id ↔
      (toDate time = toDate time' → time = truncMilliseconds time ∧ id ≤ id') := by
  rw [orderKey_lt] at h ⊢
  change ¬ (time' / 1000 * 1000 < time ∨ time' / 1000 * 1000 = time ∧ id' < id) ↔
    ((time / 1000 : ℤ) = time' / 1000 → (time : ℤ) = time / 1000 * 1000 ∧ id ≤ id')
  constructor
  · intro hnot hsame
    omega
  · intro hsame
    by_cases heq : time / 1000 = time' / 1000
    · have hwhole := hsame heq
      omega
    · omega

lemma length_above_eq_iff {since : Execution} {rows : List Execution} :
    (rows.filter fun row => orderKey (truncMilliseconds since.createdAt) since.id <
        orderKey row.createdAt row.id).length =
      (rows.filter fun row => orderKey since.createdAt since.id <
        orderKey row.createdAt row.id).length ↔ SharpSince since rows := by
  -- Whatever is before `since` is counted, so the numbers agree if nothing else is.
  have hnew : (rows.filter fun row => orderKey since.createdAt since.id <
      orderKey row.createdAt row.id) =
      (rows.filter fun row => orderKey (truncMilliseconds since.createdAt) since.id <
        orderKey row.createdAt row.id).filter fun row =>
          orderKey since.createdAt since.id < orderKey row.createdAt row.id := by
    rw [List.filter_filter]
    refine List.filter_congr fun row _ => ?_
    rw [Bool.eq_iff_iff,Bool.and_eq_true,decide_eq_true_iff,decide_eq_true_iff]
    have hle : cursorKey (cursorAt Execution.createdAt Execution.id since) ≤
        keyAt Execution.createdAt Execution.id since := cursor_le since
    exact ⟨fun h => ⟨h,lt_of_le_of_lt hle h⟩,And.left⟩
  rw [hnew,eq_comm,List.length_filter_eq_length_iff]
  constructor
  · intro h row hrow hnot
    refine (not_above_iff hnot).mp fun habove => hnot ?_
    exact of_decide_eq_true (h row (List.mem_filter.mpr ⟨hrow,decide_eq_true habove⟩))
  · intro h row hrow
    obtain ⟨hrow,habove⟩ := List.mem_filter.mp hrow
    by_contra hnot
    have hnot' : ¬ orderKey since.createdAt since.id < orderKey row.createdAt row.id :=
      fun hlt => hnot (decide_eq_true hlt)
    exact (not_above_iff hnot').mpr (h row hrow hnot') (of_decide_eq_true habove)

lemma countNew_eq (db : Database) (filters : WorkspaceExecutionFilters) (since : Execution) :
    countNewWorkspaceExecutions db filters (encodeExecutionCursor since) =
      ((db.executions.filter filters.matches).filter fun row =>
        orderKey (truncMilliseconds since.createdAt) since.id <
          orderKey row.createdAt row.id).length := by
  unfold countNewWorkspaceExecutions
  rw [List.filter_filter]
  refine congrArg _ (List.filter_congr fun row _ => ?_)
  rw [above_iff,Bool.and_comm]
  rfl

/-- Following the cursors of a list returns every matching row once and in order exactly if no page
ends inside a millisecond whose later rows are past its beginning. The list of Approval Requests
always does. The count of new executions is the number of rows before the one it was asked from
exactly if no later row of its millisecond is past its beginning. -/
theorem listings_complete_iff (db : Database) (limit : ℕ) (hlimit : 0 < limit) (clock : ℕ → Date)
    (filters : WorkspaceExecutionFilters) (since : Execution) (principal : EndUserPrincipal)
    (externalSubjectId conversationId : Option Uuid)
    (hintents : ∀ number,
      matchingIntents db principal (clock number) = matchingIntents db principal (clock 0))
    (hdeliveries : ∀ number,
      matchingDeliveries db principal.workspaceId principal.environmentId (clock number) =
        matchingDeliveries db principal.workspaceId principal.environmentId (clock 0)) :
    (∃ data, Follows (fun _ => executionsPage db filters (some limit)) data ∧
      (Returned (keyAt (·.createdAt) (·.id)) (matchingExecutions db filters) data ↔
        SharpEnds (·.createdAt) (·.id) limit (matchingExecutions db filters))) ∧
    (∃ data, Follows (fun number => listPendingActionIntents db principal (clock number) limit) data ∧
      (Returned (keyAt (·.intent.createdAt) (·.intent.id))
          (matchingIntents db principal (clock 0)) data ↔
        SharpEnds (·.intent.createdAt) (·.intent.id) limit
          (matchingIntents db principal (clock 0)))) ∧
    (∃ data, Follows (fun _ => listConversations db principal.workspaceId principal.environmentId
        externalSubjectId limit) data ∧
      (Returned (keyAt (·.lastActivityAt) (·.id)) (matchingConversations db principal.workspaceId
          principal.environmentId externalSubjectId) data ↔
        SharpEnds (·.lastActivityAt) (·.id) limit (matchingConversations db principal.workspaceId
          principal.environmentId externalSubjectId))) ∧
    (∃ data, Follows (fun number => listDeliveries db principal.workspaceId principal.environmentId
        (clock number) limit) data ∧
      (Returned (keyAt (·.createdAt) (·.id)) (matchingDeliveries db principal.workspaceId
          principal.environmentId (clock 0)) data ↔
        SharpEnds (·.createdAt) (·.id) limit (matchingDeliveries db principal.workspaceId
          principal.environmentId (clock 0)))) ∧
    (∃ data, Follows (fun _ => listEndUserApprovalRequests db principal conversationId limit) data ∧
      Returned requestedKey (matchingRequests db principal conversationId) data) ∧
    (countNewWorkspaceExecutions db filters (encodeExecutionCursor since) =
        ((db.executions.filter filters.matches).filter fun row =>
          orderKey since.createdAt since.id < orderKey row.createdAt row.id).length ↔
      SharpSince since (db.executions.filter filters.matches)) := by
  refine ⟨?_,?_,?_,?_,?_,?_⟩
  · exact list_returns_iff (matchingExecutions_ids db filters) hlimit
      fun _ cursor => executionsPage_eq filters cursor
  · refine list_returns_iff (matchingIntents_ids db principal (clock 0)) hlimit fun number cursor => ?_
    rw [listPendingActionIntents_eq,hintents]
  · exact list_returns_iff (nodup_filter _ db.conversation_ids) hlimit
      fun _ cursor => listConversations_eq _ _ _ cursor
  · refine list_returns_iff (nodup_filter _ db.delivery_ids) hlimit fun number cursor => ?_
    rw [listDeliveries_eq,hdeliveries]
    rfl
  · obtain ⟨data,hdata,hiff⟩ := list_returns_iff (matchingRequests_ids db principal conversationId)
      hlimit fun _ cursor => listEndUserApprovalRequests_eq principal conversationId cursor
    refine ⟨data,hdata,hiff.mpr (sharpEnds_whole fun row => ?_)⟩
    exact congrArg fromDate (toDate_trunc row.request.requestedAt).symm
  · rw [countNew_eq]
    exact length_above_eq_iff

def conversationAt (id : Uuid) (lastActivityAt : Timestamp) : Conversation :=
  { id, workspaceId := 1, environmentId := 1, externalSubjectId := 1, lastActivityAt }

def executionAt (createdAt : Timestamp) : Execution :=
  { id := 1, workspaceId := 1, workflowId := 1, status := .queued, trigger := .manual, createdAt }

/-- An execution and two conversations of one millisecond. -/
def sameMillisecond : Database :=
  { executions := [executionAt 123900]
    conversations := [conversationAt 2 123900,conversationAt 1 123100] }

/-- The page after the newer conversation is empty, and an execution counts as newer than itself. -/
theorem listings_lose_rows :
    (¬ ∃ data, Follows (fun _ => listConversations sameMillisecond 1 1 none 1) data ∧
      Returned (keyAt (·.lastActivityAt) (·.id)) (matchingConversations sameMillisecond 1 1 none)
        data) ∧
    countNewWorkspaceExecutions sameMillisecond { workspaceId := 1 }
      (encodeExecutionCursor (executionAt 123900)) = 1 ∧
    (sameMillisecond.executions.filter fun row =>
      orderKey 123900 1 < orderKey row.createdAt row.id) = [] := by
  refine ⟨?_,by decide,by decide⟩
  rintro ⟨data,⟨pages,hdata⟩,hperm,-⟩
  have hfollow : follow (fun _ => listConversations sameMillisecond 1 1 none 1) (pages + 2) 0 none =
      some [conversationAt 2 123900] := rfl
  rw [hdata (pages + 2) (by omega)] at hfollow
  obtain rfl := Option.some.inj hfollow
  exact absurd hperm.length_eq (by decide)

/-- Two conversations of different milliseconds. -/
def spreadOut : Database :=
  { executions := [executionAt 123000]
    conversations := [conversationAt 2 124900,conversationAt 1 123100] }

theorem listings_complete_spreadOut :
    ∃ data, Follows (fun _ => listConversations spreadOut 1 1 none 1) data ∧
      Returned (keyAt (·.lastActivityAt) (·.id)) (matchingConversations spreadOut 1 1 none) data := by
  have hintents : ∀ principal now, matchingIntents spreadOut principal now = [] := fun _ _ => rfl
  have hdeliveries : ∀ now, matchingDeliveries spreadOut 1 1 now = [] := fun _ => rfl
  obtain ⟨-,-,⟨data,hdata,hiff⟩,-⟩ := listings_complete_iff spreadOut 1 (by decide)
    (fun number => number) { workspaceId := 1 } (executionAt 123000)
    { workspaceId := 1, environmentId := 1, externalSubjectId := 1 } none none
    (fun _ => by rw [hintents,hintents]) (fun _ => by rw [hdeliveries,hdeliveries])
  refine ⟨data,hdata,hiff.mpr ?_⟩
  have hrows : matchingConversations spreadOut 1 1 none =
      [conversationAt 2 124900,conversationAt 1 123100] := rfl
  rw [hrows]
  unfold SharpEnds
  decide

end Linea.Listings
