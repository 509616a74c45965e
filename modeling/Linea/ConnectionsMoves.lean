import Linea.ConnectionsLife

/-! What each transaction may do to a row of the three tables. -/
namespace Linea.Connections
open Linea.Tables
open Linea.Consent (ConnectionStatus)

/-- The columns of the unique index over connections that are not revoked. -/
structure SameSlot (connection other : Connection) : Prop where
  workspaceId : connection.workspaceId = other.workspaceId
  environmentId : connection.environmentId = other.environmentId
  externalSubjectId : connection.externalSubjectId = other.externalSubjectId
  personal : connection.externalSubjectId.isSome
  provider : connection.provider = other.provider
  providerAccountId : connection.providerAccountId = other.providerAccountId

def HoldsWhileActive (connection : Connection) : Prop :=
  connection.credentialEncrypted.isSome ↔ connection.status = .active

structure ConnectionMoves (before after : Connection) : Prop where
  workspaceId : after.workspaceId = before.workspaceId
  environmentId : after.environmentId = before.environmentId
  externalSubjectId : after.externalSubjectId = before.externalSubjectId
  provider : after.provider = before.provider
  revoked : before.status = .revoked → after.status = .revoked
  providerAccountId : after.status ≠ .revoked → after.providerAccountId = before.providerAccountId
  holds : HoldsWhileActive before → HoldsWhileActive after
  version : before.credentialVersion ≤ after.credentialVersion
  credential : after.status = .active → after.credentialVersion = before.credentialVersion →
    after.credentialEncrypted = before.credentialEncrypted

/-- A connection may be inserted active, where no live one has its place. -/
structure NewConnection (s : Store) (connection : Connection) : Prop where
  active : connection.status = .active
  holds : connection.credentialEncrypted.isSome
  slot : ∀ other ∈ s.connections, other.status ≠ .revoked → ¬ SameSlot other connection

structure RequestMoves (before after : AuthorizationRequest) : Prop where
  claimedAt : before.claimedAt.isSome → after.claimedAt = before.claimedAt
  completedAt : before.completedAt.isSome → after.completedAt = before.completedAt
  outcome : before.completedAt.isSome → after.outcome = before.outcome
  resultConnectionId : before.completedAt.isSome →
    after.resultConnectionId = before.resultConnectionId

def PayloadUntilDelivered (delivery : RevocationDelivery) : Prop :=
  delivery.credentialEncrypted.isSome ↔ delivery.deliveredAt.isNone

structure DeliveryMoves (before after : RevocationDelivery) : Prop where
  deliveredAt : before.deliveredAt.isSome → after.deliveredAt = before.deliveredAt
  payload : PayloadUntilDelivered before → PayloadUntilDelivered after
  credential : after.deliveredAt.isNone → after.credentialEncrypted = before.credentialEncrypted

def Undelivered (delivery : RevocationDelivery) : Prop := delivery.deliveredAt.isNone

/-- What a transaction that makes no request may do to the tables; `gone` are the deliveries that
it may delete. -/
structure StoreEvolves (gone newDelivery : RevocationDelivery → Prop) (s s' : Store) : Prop where
  connections : Evolves Connection.id ConnectionMoves (fun _ => False) (NewConnection s)
    s.connections s'.connections
  requests : Evolves AuthorizationRequest.id RequestMoves (fun _ => True) (fun _ => False)
    s.requests s'.requests
  deliveries : Evolves RevocationDelivery.id DeliveryMoves gone newDelivery
    s.deliveries s'.deliveries

lemma ConnectionMoves.refl (connection : Connection) : ConnectionMoves connection connection :=
  ⟨rfl,rfl,rfl,rfl,id,fun _ => rfl,id,le_rfl,fun _ _ => rfl⟩

lemma RequestMoves.refl (request : AuthorizationRequest) : RequestMoves request request :=
  ⟨fun _ => rfl,fun _ => rfl,fun _ => rfl,fun _ => rfl⟩

lemma DeliveryMoves.refl (delivery : RevocationDelivery) : DeliveryMoves delivery delivery :=
  ⟨fun _ => rfl,id,fun _ => rfl⟩

lemma DeliveryMoves.undelivered {before after : RevocationDelivery}
    (h : DeliveryMoves before after) (hafter : Undelivered after) : Undelivered before := by
  unfold Undelivered at *
  cases hbefore : before.deliveredAt with
  | none => rfl
  | some deliveredAt =>
    rw [h.deliveredAt (by simp [hbefore]),hbefore] at hafter
    cases hafter

lemma DeliveryMoves.trans {first second third : RevocationDelivery}
    (h : DeliveryMoves first second) (h' : DeliveryMoves second third) :
    DeliveryMoves first third := by
  refine ⟨?_,fun hpayload => h'.payload (h.payload hpayload),?_⟩
  · intro hsome
    have hsecond := h.deliveredAt hsome
    rw [h'.deliveredAt (by rw [hsecond]; exact hsome),hsecond]
  · intro hnone
    rw [h'.credential hnone]
    exact h.credential (h'.undelivered hnone)

section Store
variable {gone newDelivery : RevocationDelivery → Prop} {s s' : Store}

lemma StoreEvolves.refl : StoreEvolves gone newDelivery s s :=
  ⟨.refl .refl,.refl .refl,.refl .refl⟩

/-- A transaction that only touches other tables. -/
lemma StoreEvolves.of_eq (hconnections : s'.connections = s.connections)
    (hrequests : s'.requests = s.requests) (hdeliveries : s'.deliveries = s.deliveries) :
    StoreEvolves gone newDelivery s s' := by
  constructor
  · rw [hconnections]
    exact .refl .refl
  · rw [hrequests]
    exact .refl .refl
  · rw [hdeliveries]
    exact .refl .refl

lemma StoreEvolves.connectionsOnly (hconnections : Evolves Connection.id ConnectionMoves
    (fun _ => False) (NewConnection s) s.connections s'.connections)
    (hrequests : s'.requests = s.requests) (hdeliveries : s'.deliveries = s.deliveries) :
    StoreEvolves gone newDelivery s s' := by
  refine ⟨hconnections,?_,?_⟩
  · rw [hrequests]
    exact .refl .refl
  · rw [hdeliveries]
    exact .refl .refl

lemma StoreEvolves.requestsOnly (hrequests : Evolves AuthorizationRequest.id RequestMoves
    (fun _ => True) (fun _ => False) s.requests s'.requests)
    (hconnections : s'.connections = s.connections) (hdeliveries : s'.deliveries = s.deliveries) :
    StoreEvolves gone newDelivery s s' := by
  refine ⟨?_,hrequests,?_⟩
  · rw [hconnections]
    exact .refl .refl
  · rw [hdeliveries]
    exact .refl .refl

lemma StoreEvolves.deliveriesOnly (hdeliveries : Evolves RevocationDelivery.id DeliveryMoves
    gone newDelivery s.deliveries s'.deliveries)
    (hconnections : s'.connections = s.connections) (hrequests : s'.requests = s.requests) :
    StoreEvolves gone newDelivery s s' := by
  refine ⟨?_,?_,hdeliveries⟩
  · rw [hconnections]
    exact .refl .refl
  · rw [hrequests]
    exact .refl .refl

/-- A guarded update of one table in place. -/
lemma evolves_guarded {α κ : Type} {key : α → κ} {moves : α → α → Prop} {gone new : α → Prop}
    {rows : List α} {guard : α → Bool} {change : α → α} (hrefl : ∀ row, moves row row)
    (hkey : ∀ row, key (change row) = key row)
    (hmoves : ∀ row, guard row = true → moves row (change row)) :
    Evolves key moves gone new rows
      (rows.map fun row => if guard row then change row else row) := by
  refine .update (fun row _ => ?_) fun row _ => ?_
  · split
    · exact hkey row
    · rfl
  · split
    case isTrue hguard => exact hmoves row hguard
    case isFalse => exact hrefl row

/-! ## Requests -/

lemma claim_evolves (input : ClaimAuthorizationInput) :
    StoreEvolves gone newDelivery s (claimConnectionAuthorizationRequest s input).2 := by
  refine .requestsOnly (evolves_guarded .refl (fun _ => rfl) fun request hguard => ?_) rfl rfl
  simp only [claimable,Bool.and_eq_true,decide_eq_true_eq] at hguard
  refine ⟨fun hsome => ?_,fun _ => rfl,fun _ => rfl,fun _ => rfl⟩
  simp [Option.isNone_iff_eq_none.mp hguard.1.1.2] at hsome

lemma fail_evolves (input : FailAuthorizationInput) :
    StoreEvolves gone newDelivery s (failConnectionAuthorizationRequest s input).2 := by
  refine .requestsOnly (evolves_guarded .refl (fun _ => rfl) fun request hguard => ?_) rfl rfl
  simp only [Bool.and_eq_true,decide_eq_true_eq] at hguard
  have hopen : request.completedAt = none := Option.isNone_iff_eq_none.mp hguard.2
  exact ⟨fun _ => rfl,by simp [hopen],by simp [hopen],by simp [hopen]⟩

lemma expireRequests_evolves (now : ℕ) :
    StoreEvolves gone newDelivery s (deleteExpiredConnectionAuthorizationRequests s now).2 :=
  .requestsOnly (.delete .refl fun _ _ _ => trivial) rfl rfl

/-! ## Connections -/

lemma recordConnectionFact_evolves {input : FactInput} (h : recordConnectionFact s input = .ok s') :
    s'.connections = s.connections ∧ s'.requests = s.requests ∧ s'.deliveries = s.deliveries := by
  obtain ⟨fact,rfl⟩ := recordConnectionFact_ok h
  exact ⟨rfl,rfl,rfl⟩

lemma updateConnection_none {guard : Connection → Bool} {change : Connection → Connection}
    {fact : Connection → FactInput} (h : ∀ connection ∈ s.connections, guard connection = false) :
    updateConnection s guard change fact = .ok (none,s) := by
  have hnone : s.connections.find? guard = none := by
    rw [List.find?_eq_none]
    exact fun connection hmem => by simp [h connection hmem]
  simp only [updateConnection,hnone]

lemma updateConnection_ok {guard : Connection → Bool} {change : Connection → Connection}
    {fact : Connection → FactInput} {result : Option Connection}
    (h : updateConnection s guard change fact = .ok (result,s')) :
    (result = none ∧ s' = s) ∨
    (result.isSome ∧ s'.connections = s.connections.map
        (fun row => if guard row then change row else row) ∧
      s'.requests = s.requests ∧ s'.deliveries = s.deliveries) := by
  unfold updateConnection at h
  split at h
  case h_1 =>
    cases h
    exact .inl ⟨rfl,rfl⟩
  case h_2 connection hfind =>
    simp only [bind,Except.bind,pure,Except.pure] at h
    split at h
    case h_1 => cases h
    case h_2 recorded hrecorded =>
      cases h
      exact .inr ⟨rfl,recordConnectionFact_evolves hrecorded⟩

lemma updateConnection_evolves {guard : Connection → Bool} {change : Connection → Connection}
    {fact : Connection → FactInput} {result : Option Connection}
    (h : updateConnection s guard change fact = .ok (result,s'))
    (hkey : ∀ row, (change row).id = row.id)
    (hmoves : ∀ row, guard row = true → ConnectionMoves row (change row)) :
    StoreEvolves gone newDelivery s s' := by
  obtain ⟨-,rfl⟩ | ⟨-,hconnections,hrequests,hdeliveries⟩ := updateConnection_ok h
  · exact .refl
  · refine .connectionsOnly ?_ hrequests hdeliveries
    rw [hconnections]
    exact evolves_guarded .refl hkey hmoves

lemma rotate_evolves {owner : ConnectionOwner} {connectionId : String} {expected now : ℕ}
    {credential : Ciphertext} {result : Option Connection}
    (h : rotateConnectionCredential s owner connectionId expected credential now
      = .ok (result,s')) : StoreEvolves gone newDelivery s s' := by
  refine updateConnection_evolves h (fun _ => rfl) fun row hguard => ?_
  simp only [Bool.and_eq_true,decide_eq_true_eq] at hguard
  refine ⟨rfl,rfl,rfl,rfl,id,fun _ => rfl,fun _ => ?_,Nat.le_succ _,?_⟩
  · simp [HoldsWhileActive,hguard.1.2]
  · intro _ hversion
    exact absurd hversion (Nat.succ_ne_self _)

lemma requireReauthorization_evolves {owner : ConnectionOwner} {connectionId : String}
    {expected now : ℕ} {result : Option Connection}
    (h : requireConnectionReauthorization s owner connectionId expected now = .ok (result,s')) :
    StoreEvolves gone newDelivery s s' := by
  refine updateConnection_evolves h (fun _ => rfl) fun row hguard => ?_
  simp only [Bool.and_eq_true,decide_eq_true_eq] at hguard
  refine ⟨rfl,rfl,rfl,rfl,?_,fun _ => rfl,fun _ => ?_,Nat.le_succ _,?_⟩
  · intro hrevoked
    rw [hguard.1.2] at hrevoked
    cases hrevoked
  · simp [HoldsWhileActive]
  · intro hactive
    cases hactive

lemma insertDelivery_ok {delivery : RevocationDelivery} (h : insertDelivery s delivery = .ok s') :
    delivery.id ∉ s.deliveries.map (·.id) ∧
      s' = { s with deliveries := s.deliveries ++ [delivery] } := by
  unfold insertDelivery at h
  split at h
  case isTrue => cases h
  case isFalse hkey =>
    cases h
    refine ⟨fun hmem => hkey ?_,rfl⟩
    obtain ⟨other,hother,hid⟩ := List.mem_map.mp hmem
    exact List.any_eq_true.mpr ⟨other,hother,by simpa using hid⟩

/-- The deliveries that a revocation may insert. -/
def RevokedDelivery (deliveryId : Option String) (delivery : RevocationDelivery) : Prop :=
  deliveryId = some delivery.id ∧ PayloadUntilDelivered delivery

lemma revoke_evolves {owner : ConnectionOwner} {connectionId : String} {input : RevokeInput}
    {result : RevokeResult} (h : revokeConnection s owner connectionId input = .ok (result,s')) :
    StoreEvolves gone (RevokedDelivery input.deliveryId) s s' := by
  simp only [revokeConnection,bind,Except.bind,pure,Except.pure] at h
  split at h
  case h_1 => cases h
  case h_2 updated hupdated =>
    obtain ⟨connection,revoked⟩ := updated
    have hrevoked : StoreEvolves gone (RevokedDelivery input.deliveryId) s revoked := by
      refine updateConnection_evolves hupdated (fun _ => rfl) fun row _ => ?_
      refine ⟨rfl,rfl,rfl,rfl,fun _ => rfl,fun _ => rfl,fun _ => ?_,le_rfl,?_⟩
      · simp [HoldsWhileActive]
      · intro hactive
        cases hactive
    simp only at h
    split at h
    case h_1 =>
      cases h
      exact .refl
    case h_2 connection =>
      split at h
      case h_2 =>
        cases h
        exact hrevoked
      case h_1 deliveryId credential hid hcredential =>
        split at h
        case h_1 => cases h
        case h_2 staged hstaged =>
          cases h
          obtain ⟨hkey,rfl⟩ := insertDelivery_ok hstaged
          obtain ⟨hnone,-⟩ | ⟨-,-,-,hdeliveries⟩ := updateConnection_ok hupdated
          · cases hnone
          · refine ⟨hrevoked.connections,hrevoked.requests,?_⟩
            rw [hdeliveries] at hkey ⊢
            exact .insert .refl hkey ⟨hid,by simp [PayloadUntilDelivered,revocationDelivery]⟩

/-! ## Deliveries -/

lemma claimDelivery_evolves (input : ClaimDeliveryInput) (locked : List String) :
    StoreEvolves gone newDelivery s (claimRevocationDelivery s input locked).2 := by
  simp only [claimRevocationDelivery]
  split
  · exact .refl
  · refine .deliveriesOnly (.update (fun row _ => ?_) fun row _ => ?_) rfl rfl
    · split <;> rfl
    · split
      · exact ⟨fun _ => rfl,id,fun _ => rfl⟩
      · exact .refl row

lemma updateDelivery_evolves {deliveryId claimedBy : String}
    {change : RevocationDelivery → RevocationDelivery} (hkey : ∀ row, (change row).id = row.id)
    (hmoves : ∀ row, row.deliveredAt = none → DeliveryMoves row (change row)) :
    StoreEvolves gone newDelivery s (updateDelivery s deliveryId claimedBy change).2 := by
  refine .deliveriesOnly (evolves_guarded .refl hkey fun row hguard => hmoves row ?_) rfl rfl
  simp only [heldBy,Bool.and_eq_true] at hguard
  exact Option.isNone_iff_eq_none.mp hguard.2

lemma renewDelivery_evolves (deliveryId claimedBy : String) (claimExpiresAt : ℕ) :
    StoreEvolves gone newDelivery s
      (renewRevocationDeliveryClaim s deliveryId claimedBy claimExpiresAt).2 :=
  updateDelivery_evolves (fun _ => rfl) fun _ _ => ⟨fun _ => rfl,id,fun _ => rfl⟩

lemma failDelivery_evolves (deliveryId claimedBy : String) (retryAt : ℕ) (failureClass : String) :
    StoreEvolves gone newDelivery s
      (recordRevocationDeliveryFailure s deliveryId claimedBy retryAt failureClass).2 :=
  updateDelivery_evolves (fun _ => rfl) fun _ _ => ⟨fun _ => rfl,id,fun _ => rfl⟩

lemma completeDelivery_evolves {deliveryId claimedBy : String} {deliveredAt : ℕ} {result : Bool}
    (h : completeRevocationDelivery s deliveryId claimedBy deliveredAt = .ok (result,s')) :
    StoreEvolves gone newDelivery s s' := by
  -- the delivered row has neither a payload nor a way back
  have hdelivered : StoreEvolves gone newDelivery s (updateDelivery s deliveryId claimedBy
      fun delivery => { delivery with
        deliveredAt := some deliveredAt
        credentialEncrypted := none
        claimedBy := none
        claimExpiresAt := none }).2 := by
    refine updateDelivery_evolves (fun _ => rfl) fun row hrow => ⟨?_,?_,?_⟩
    · simp [hrow]
    · simp [PayloadUntilDelivered]
    · simp
  unfold completeRevocationDelivery at h
  split at h
  case h_1 =>
    cases h
    exact .refl
  case h_2 delivery _ =>
    simp only at h
    split at h
    case h_1 =>
      cases h
      exact hdelivered
    case h_2 connectionId _ =>
      split at h
      case h_1 => cases h
      case h_2 connection _ =>
        simp only [bind,Except.bind,pure,Except.pure] at h
        split at h
        case h_1 => cases h
        case h_2 recorded hrecorded =>
          cases h
          obtain ⟨fact,rfl⟩ := recordConnectionFact_ok hrecorded
          exact ⟨hdelivered.connections,hdelivered.requests,hdelivered.deliveries⟩

/-- Rows that are picked by a filter and then deleted by their identifiers. -/
lemma evolves_deleted {rows : List RevocationDelivery} {pick : RevocationDelivery → Bool}
    (hpick : ∀ row ∈ rows, pick row = true → Undelivered row) (hkey : (rows.map (·.id)).Nodup) :
    Evolves RevocationDelivery.id DeliveryMoves Undelivered newDelivery rows
      (rows.filter (·.id ∉ (rows.filter pick).map (·.id))) := by
  refine .delete .refl fun row hrow hgone => ?_
  simp only [decide_eq_false_iff_not,not_not] at hgone
  obtain ⟨other,hother,hid⟩ := List.mem_map.mp hgone
  obtain ⟨hmem,hpicked⟩ := List.mem_filter.mp hother
  rw [← List.inj_on_of_nodup_map hkey hmem hrow hid]
  exact hpick other hmem hpicked

lemma expireDeliveries_evolves {now count : ℕ} (hkey : (s.deliveries.map (·.id)).Nodup)
    (h : deleteExpiredRevocationDeliveries s now = .ok (count,s')) :
    StoreEvolves Undelivered newDelivery s s' := by
  simp only [deleteExpiredRevocationDeliveries,bind,Except.bind,pure,Except.pure] at h
  split at h
  case h_1 => cases h
  case h_2 recorded hrecorded =>
    cases h
    obtain ⟨facts,rfl,-⟩ := recordConnectionFacts_ok hrecorded
    refine .deliveriesOnly (evolves_deleted (fun row _ hrow => ?_) hkey) rfl rfl
    simp only [Bool.and_eq_true] at hrow
    exact hrow.1

/-! ## Erasure -/

lemma erasedConnection_moves (auditReference : String) (now : ℕ) (connection : Connection) :
    ConnectionMoves connection (erasedConnection auditReference now connection) := by
  have hstatus : (erasedConnection auditReference now connection).status = .revoked := by
    unfold erasedConnection
    split
    case isTrue hrevoked => exact hrevoked
    case isFalse => rfl
  have hcredential : (erasedConnection auditReference now connection).credentialEncrypted = none := by
    unfold erasedConnection
    split <;> rfl
  constructor
  case revoked => exact fun _ => hstatus
  case providerAccountId => exact fun hlive => absurd hstatus hlive
  case holds => simp [HoldsWhileActive,hstatus,hcredential]
  case credential =>
    intro hactive
    rw [hstatus] at hactive
    cases hactive
  case version => unfold erasedConnection; split <;> exact le_rfl
  all_goals unfold erasedConnection; split <;> rfl

lemma erase_evolves {workspaceId externalSubjectId auditReference : String} {now : ℕ}
    {result : Option ExternalSubject} (hkey : (s.deliveries.map (·.id)).Nodup)
    (hpayload : ∀ delivery ∈ s.deliveries, PayloadUntilDelivered delivery)
    (h : eraseExternalSubject s workspaceId externalSubjectId auditReference now
      = .ok (result,s')) : StoreEvolves Undelivered newDelivery s s' := by
  unfold eraseExternalSubject at h
  split at h
  case h_1 =>
    cases h
    exact .refl
  case h_2 existing _ =>
    split at h
    case isTrue =>
      cases h
      exact .refl
    case isFalse =>
      simp only [bind,Except.bind,pure,Except.pure,throw,throwThe,MonadExceptOf.throw] at h
      split at h
      case isTrue => cases h
      case isFalse =>
        split at h
        case h_1 => cases h
        case h_2 destroyed hdestroyed =>
          obtain ⟨facts,rfl,-⟩ := recordConnectionFacts_ok hdestroyed
          split at h
          case h_1 => cases h
          case h_2 revoked hrevoked =>
            obtain ⟨facts',rfl,-⟩ := recordConnectionFacts_ok hrevoked
            cases h
            refine ⟨?_,.refl .refl,evolves_deleted (fun row hrow hpicked => ?_) hkey⟩
            · refine evolves_guarded .refl (fun row => ?_) fun row _ => erasedConnection_moves ..
              unfold erasedConnection
              split <;> rfl
            · simp only [Bool.and_eq_true] at hpicked
              exact (hpayload row hrow).mp hpicked.2

/-! ## Completion -/

section Completion
variable {request : AuthorizationRequest} {input : CompleteAuthorizationInput}

lemma existingConnection_live {existing : Connection}
    (h : existingConnection s request input = some existing) :
    existing ∈ s.connections ∧ existing.status ≠ .revoked := by
  have hlive : existing ∈ s.connections ∧ liveConnection request existing = true := by
    cases htarget : targetConnection s request with
    | some target =>
      have heq : target = existing := by simpa [existingConnection,htarget] using h
      simp only [targetConnection,bind,Option.bind_eq_some_iff] at htarget
      obtain ⟨targetConnectionId,-,hfind⟩ := htarget
      have hfound := List.find?_some hfind
      simp only [Bool.and_eq_true] at hfound
      exact heq ▸ ⟨List.mem_of_find?_eq_some hfind,hfound.2⟩
    | none =>
      have haccount : accountConnection s request input.providerAccountId = some existing := by
        simpa [existingConnection,htarget] using h
      have hfound := List.find?_some haccount
      simp only [Bool.and_eq_true] at hfound
      exact ⟨List.mem_of_find?_eq_some haccount,hfound.1⟩
  obtain ⟨hmem,hlive⟩ := hlive
  simp only [liveConnection,Bool.and_eq_true,decide_eq_true_eq] at hlive
  exact ⟨hmem,hlive.2⟩

lemma refreshedConnection_moves {existing : Connection} (hlive : existing.status ≠ .revoked) :
    ConnectionMoves existing (refreshedConnection request input existing) := by
  refine ⟨rfl,rfl,rfl,rfl,fun hrevoked => absurd hrevoked hlive,fun _ => rfl,fun _ => ?_,
    Nat.le_succ _,?_⟩
  · simp [HoldsWhileActive,refreshedConnection]
  · intro _ hversion
    exact absurd hversion (Nat.succ_ne_self _)

lemma insertConnection_ok {connection : Connection} (h : insertConnection s connection = .ok s') :
    connection.id ∉ s.connections.map (·.id) ∧
      (∀ other ∈ s.connections, other.status ≠ .revoked → ¬ SameSlot other connection) ∧
      s' = { s with connections := s.connections ++ [connection] } := by
  unfold insertConnection at h
  split at h
  case isTrue => cases h
  case isFalse hkey =>
    split at h
    case isTrue => cases h
    case isFalse hslot =>
      cases h
      refine ⟨fun hmem => hkey ?_,fun other hother hlive hsame => hslot ?_,rfl⟩
      · obtain ⟨other,hother,hid⟩ := List.mem_map.mp hmem
        exact List.any_eq_true.mpr ⟨other,hother,by simpa using hid⟩
      · refine List.any_eq_true.mpr ⟨other,hother,?_⟩
        simp only [Bool.and_eq_true,decide_eq_true_eq]
        exact ⟨⟨⟨⟨⟨⟨hsame.workspaceId,hsame.environmentId⟩,hsame.personal⟩,
          hsame.externalSubjectId⟩,hsame.provider⟩,hsame.providerAccountId⟩,hlive⟩

lemma writeConnection_ok {connection : Connection}
    (hkey : (s.connections.map (·.id)).Nodup)
    (h : writeConnection s request input = .ok (connection,s')) :
    StoreEvolves gone newDelivery s s' ∧ s'.requests = s.requests ∧ s'.deliveries = s.deliveries ∧
      connection ∈ s'.connections ∧
      connection.credentialEncrypted.map (·.plaintext) = some input.credentialPlaintext := by
  unfold writeConnection at h
  split at h
  case h_1 existing hexisting =>
    cases h
    obtain ⟨hmem,hlive⟩ := existingConnection_live hexisting
    refine ⟨.connectionsOnly (.update (fun row _ => ?_) fun row hrow => ?_) rfl rfl,rfl,rfl,?_,rfl⟩
    · split <;> rfl
    · split
      case isTrue hid =>
        rw [List.inj_on_of_nodup_map hkey hrow hmem hid]
        exact refreshedConnection_moves hlive
      case isFalse => exact .refl row
    · exact List.mem_map.mpr ⟨existing,hmem,by rw [if_pos rfl]⟩
  case h_2 =>
    split at h
    case h_2 => cases h
    case h_1 inserted hinserted =>
      cases h
      obtain ⟨hid,hslot,rfl⟩ := insertConnection_ok hinserted
      exact ⟨.connectionsOnly (.insert .refl hid ⟨rfl,rfl,hslot⟩) rfl rfl,rfl,rfl,
        List.mem_append_right _ (by simp),rfl⟩

/-- What a completion has done when it answers with a connection. -/
structure Completed (s s' : Store) (input : CompleteAuthorizationInput) (connection : Connection) :
    Prop where
  evolves : StoreEvolves Undelivered (fun _ => False) s s'
  installed : connection ∈ s'.connections
  credential : connection.credentialEncrypted.map (·.plaintext) = some input.credentialPlaintext
  staged : input.revocationDeliveryId ∈ s.deliveries.map (·.id)
  cancelled : input.revocationDeliveryId ∉ s'.deliveries.map (·.id)
  claimed : ∃ request ∈ s.requests, request.id = input.authorizationRequestId ∧
    request.completedAt = none
  completed : ∀ request ∈ s'.requests, request.id = input.authorizationRequestId →
    request.completedAt.isSome

lemma installConnection_ok {connection : Connection} (hkey : (s.connections.map (·.id)).Nodup)
    (hdkey : (s.deliveries.map (·.id)).Nodup) (hrkey : (s.requests.map (·.id)).Nodup)
    (hrequest : claimedRequest s input = some request)
    (h : installConnection s request input = .ok (.completed connection,s')) :
    Completed s s' input connection := by
  have hclaimed : request ∈ s.requests ∧ request.id = input.authorizationRequestId ∧
      request.completedAt = none := by
    obtain ⟨hfind,hguard⟩ := Option.filter_eq_some_iff.mp hrequest
    simp only [Bool.and_eq_true] at hguard
    exact ⟨List.mem_of_find?_eq_some hfind,by simpa using List.find?_some hfind,
      Option.isNone_iff_eq_none.mp hguard.1.2⟩
  obtain ⟨hmem,hid,hopen⟩ := hclaimed
  simp only [installConnection,bind,Except.bind,pure,Except.pure,throw,throwThe,
    MonadExceptOf.throw] at h
  split at h
  case h_1 => cases h
  case h_2 written hwritten =>
    obtain ⟨connection',written⟩ := written
    obtain ⟨(hevolves : StoreEvolves Undelivered (fun _ => False) s written),hrequests,hdeliveries,hinstalled,
      hcredential⟩ := writeConnection_ok hkey hwritten
    simp only at h
    split at h
    case isFalse => cases h
    case isTrue hany =>
      split at h
      case h_1 => cases h
      case h_2 recorded hrecorded =>
        cases h
        obtain ⟨fact,rfl⟩ := recordConnectionFact_ok hrecorded
        obtain ⟨delivery,hdelivery,hstaged⟩ := List.any_eq_true.mp hany
        have hown : delivery.id = input.revocationDeliveryId ∧ Undelivered delivery := by
          simp only [stagedDelivery,Bool.and_eq_true,decide_eq_true_eq] at hstaged
          exact ⟨hstaged.1.1.1.1.1,hstaged.2⟩
        rw [hdeliveries] at hdelivery
        refine ⟨⟨hevolves.connections,?_,?_⟩,hinstalled,hcredential,?_,?_,⟨request,hmem,hid,hopen⟩,?_⟩
        · simp only [hrequests]
          refine .update (fun row _ => ?_) fun row hrow => ?_
          · split <;> rfl
          · split
            case isTrue hsame =>
              have heq : row = request := List.inj_on_of_nodup_map hrkey hrow hmem hsame
              exact ⟨fun _ => rfl,by simp [heq,hopen],by simp [heq,hopen],by simp [heq,hopen]⟩
            case isFalse => exact .refl row
        · simp only [hdeliveries]
          refine .delete .refl fun row _ hgone => ?_
          simp only [Bool.not_eq_false',stagedDelivery,Bool.and_eq_true] at hgone
          exact hgone.2
        · exact List.mem_map.mpr ⟨delivery,hdelivery,hown.1⟩
        · intro hkept
          simp only [hdeliveries] at hkept
          obtain ⟨row,hrow,hrowid⟩ := List.mem_map.mp hkept
          obtain ⟨hrowmem,hnot⟩ := List.mem_filter.mp hrow
          rw [List.inj_on_of_nodup_map hdkey hrowmem hdelivery (hrowid.trans hown.1.symm)] at hnot
          simp [hstaged] at hnot
        · intro row hrow hrowid
          simp only [hrequests] at hrow
          obtain ⟨before,-,rfl⟩ := List.mem_map.mp hrow
          by_cases hsame : before.id = request.id
          · simp [hsame,succeededRequest]
          · rw [if_neg hsame] at hrowid
            exact absurd (hrowid.trans hid.symm) hsame

lemma fenceGoogleRevocations_ok {answer : Bool}
    (h : fenceGoogleRevocations s request input.providerAccountId input.revocationDeliveryId
      input.now = .ok (answer,s')) : s' = s ∨ ∃ facts, s' = supersede s request input facts := by
  obtain ⟨-,-,hs⟩ | ⟨-,-,-,hs⟩ | ⟨-,-,-,facts,hs,-⟩ := fenceGoogleRevocations_cases h
  · exact .inl hs
  · exact .inl hs
  · exact .inr ⟨facts,hs⟩

lemma supersede_evolves {facts : List ConnectorAuditFact}
    (hdkey : (s.deliveries.map (·.id)).Nodup) :
    StoreEvolves Undelivered newDelivery s (supersede s request input facts) := by
  refine .deliveriesOnly (evolves_deleted (fun row _ hrow => ?_) hdkey) rfl rfl
  simp only [superseded,Bool.and_eq_true] at hrow
  exact hrow.2

lemma Completed.supersede {facts : List ConnectorAuditFact} {connection : Connection}
    (hdkey : (s.deliveries.map (·.id)).Nodup)
    (h : Completed (supersede s request input facts) s' input connection) :
    Completed s s' input connection := by
  refine ⟨⟨?_,h.evolves.requests,?_⟩,h.installed,h.credential,?_,h.cancelled,h.claimed,h.completed⟩
  · exact h.evolves.connections.mono (fun _ _ => id) (fun _ => id)
      fun _ hnew => ⟨hnew.active,hnew.holds,hnew.slot⟩
  · have hfence : StoreEvolves Undelivered (fun _ => False) s (Connections.supersede s request input facts) :=
      supersede_evolves hdkey
    exact hfence.deliveries.trans h.evolves.deliveries (fun _ _ _ => .trans)
      fun _ _ hmoves => hmoves.undelivered
  · obtain ⟨row,hrow,hid⟩ := List.mem_map.mp h.staged
    exact List.mem_map.mpr ⟨row,List.mem_of_mem_filter hrow,hid⟩

variable {localeCompare : String → String → ℤ}

lemma complete_completed {connection : Connection} (hkey : (s.connections.map (·.id)).Nodup)
    (hdkey : (s.deliveries.map (·.id)).Nodup) (hrkey : (s.requests.map (·.id)).Nodup)
    (h : completeConnectionAuthorizationRequest localeCompare s input
      = .ok (.completed connection,s')) : Completed s s' input connection := by
  unfold completeConnectionAuthorizationRequest at h
  split at h
  case h_1 => cases h
  case h_2 request hrequest =>
    split at h
    case isTrue => cases h
    case isFalse =>
      split at h
      case h_1 => cases h
      case h_2 => cases h
      case h_3 fenced hfenced =>
        split at h
        case isTrue => cases h
        case isFalse =>
          obtain rfl | ⟨facts,rfl⟩ := fenceGoogleRevocations_ok hfenced
          · exact installConnection_ok hkey hdkey hrkey hrequest h
          · exact .supersede hdkey (installConnection_ok hkey
              (hdkey.sublist (List.filter_sublist.map _)) hrkey hrequest h)

lemma fence_evolves {answer : Bool} (hdkey : (s.deliveries.map (·.id)).Nodup)
    (h : fenceGoogleRevocations s request input.providerAccountId input.revocationDeliveryId
      input.now = .ok (answer,s')) : StoreEvolves Undelivered newDelivery s s' := by
  obtain rfl | ⟨facts,rfl⟩ := fenceGoogleRevocations_ok h
  · exact .refl
  · exact supersede_evolves hdkey

lemma complete_invalid_evolves (hdkey : (s.deliveries.map (·.id)).Nodup)
    (h : completeConnectionAuthorizationRequest localeCompare s input = .ok (.invalid,s')) :
    StoreEvolves Undelivered newDelivery s s' := by
  unfold completeConnectionAuthorizationRequest at h
  split at h
  case h_1 =>
    cases h
    exact .refl
  case h_2 request hrequest =>
    split at h
    case isTrue =>
      cases h
      exact .refl
    case isFalse =>
      split at h
      case h_1 => cases h
      case h_2 fenced hfenced =>
        cases h
        exact fence_evolves hdkey hfenced
      case h_3 fenced hfenced =>
        split at h
        case isFalse => exact absurd rfl (installConnection_completed h)
        case isTrue =>
          cases h
          exact fence_evolves hdkey hfenced

end Completion

end Store

end Linea.Connections
