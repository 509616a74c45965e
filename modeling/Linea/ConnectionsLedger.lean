import Linea.ConnectionsPlaces

/-! What becomes of the credentials of revoked connections. A delivery that belongs to a connection
loses its payload in one transaction, which records one fact about it; the facts that payloads were
destroyed are the ledger of the payloads that are gone. -/
namespace Linea.Connections
open Linea.Tables
open Linea.Consent (ConnectionStatus)

/-- The ledger: the connection and the outcome of every fact that a payload was destroyed. -/
def destructions (facts : List ConnectorAuditFact) : List (String × Option String) :=
  (facts.filter (·.factType = .revocationPayloadDestroyed)).map fun fact =>
    (fact.connectionId,fact.outcome)

def holdsPayload (s : Store) (deliveryId : String) : Bool :=
  s.deliveries.any fun delivery => delivery.id = deliveryId && delivery.credentialEncrypted.isSome

/-- The deliveries whose payload a transaction destroys, in the order of the table. -/
def losing (s s' : Store) : List RevocationDelivery :=
  s.deliveries.filter fun delivery =>
    delivery.credentialEncrypted.isSome && !holdsPayload s' delivery.id

/-- The connections of the payloads that a transaction destroys. -/
def lost (s s' : Store) : List String := (losing s s').filterMap (·.connectionId)

/-- The outcome under which an action destroys payloads. -/
def Action.outcome : Action → Option String
  | .complete .. => some "superseded"
  | .completeDelivery .. => some "delivered"
  | .expireDeliveries .. => some "expired"
  | .erase .. => some "subject_erased"
  | _ => none

/-- The delivery that an action claims, and the worker that it is claimed for. -/
def World.claim (w : World) : Action → Option (String × String)
  | .claimDelivery input locked =>
    (claimRevocationDelivery w.store input locked).1.map fun delivery =>
      (delivery.id,input.claimedBy)
  | _ => none

/-- The connection of a delivery is in the table and belongs to the delivery's subject. -/
def LinkedTo (s : Store) (delivery : RevocationDelivery) : Prop :=
  ∀ connectionId, delivery.connectionId = some connectionId →
    ∃ connection ∈ s.connections, connection.id = connectionId ∧
      ofSubject delivery.workspaceId delivery.externalSubjectId connection = true

def Linked (s : Store) : Prop := ∀ delivery ∈ s.deliveries, LinkedTo s delivery

/-- What no transaction changes in a delivery, and who may be named in it as its claimant. -/
structure RowKeeps (claim : Option (String × String)) (before after : RevocationDelivery) :
    Prop where
  owner : after.toConnectionOwner = before.toConnectionOwner
  connectionId : after.connectionId = before.connectionId
  claimedBy : ∀ worker, after.claimedBy = some worker →
    before.claimedBy = some worker ∨ claim = some (before.id,worker)
  deliveredAt : after.deliveredAt = none → before.deliveredAt = none

lemma RowKeeps.refl {claim : Option (String × String)} (delivery : RevocationDelivery) :
    RowKeeps claim delivery delivery :=
  ⟨rfl,rfl,fun _ => .inl,id⟩

/-- A new delivery is unclaimed, and the connection it belongs to is that of its owner. -/
structure NewRow (s : Store) (delivery : RevocationDelivery) : Prop where
  unclaimed : delivery.claimedBy = none
  linked : LinkedTo s delivery

/-- What a transaction does to the deliveries and to the ledger. -/
structure Accounts (claim : Option (String × String)) (outcome : Option String) (s s' : Store) :
    Prop where
  rows : Evolves RevocationDelivery.id (RowKeeps claim) (fun _ => True) (NewRow s)
    s.deliveries s'.deliveries
  ledger : destructions s'.facts = destructions s.facts ++ (lost s s').map (·,outcome)
  quiet : outcome = none → lost s s' = []

section Ledger
variable {s s' : Store}

lemma destructions_append (facts more : List ConnectorAuditFact) :
    destructions (facts ++ more) = destructions facts ++ destructions more := by
  simp [destructions]

/-- Erasing the subject of a fact leaves the ledger as it was. -/
lemma destructions_map {f : ConnectorAuditFact → ConnectorAuditFact}
    (h : ∀ fact, (f fact).factType = fact.factType ∧ (f fact).connectionId = fact.connectionId ∧
      (f fact).outcome = fact.outcome) (facts : List ConnectorAuditFact) :
    destructions (facts.map f) = destructions facts := by
  simp only [destructions,List.filter_map,List.map_map]
  have hfilter : ((fun fact : ConnectorAuditFact =>
      decide (fact.factType = .revocationPayloadDestroyed)) ∘ f) =
      fun fact => decide (fact.factType = .revocationPayloadDestroyed) := by
    funext fact
    simp [(h fact).1]
  rw [hfilter]
  refine List.map_congr_left fun fact _ => ?_
  simp [(h fact).2.1,(h fact).2.2]

lemma recordConnectionFact_eq {input : FactInput} (h : recordConnectionFact s input = .ok s') :
    ∃ context, s' = { s with facts := s.facts ++ [connectionFact input context] } := by
  unfold recordConnectionFact at h
  split at h
  · cases h
    exact ⟨_,rfl⟩
  · cases h

/-- Facts are recorded one for each input, in order. -/
lemma recordConnectionFacts_destructions {inputs : List FactInput} {s s' : Store}
    (h : recordConnectionFacts s inputs = .ok s') :
    ∃ facts, s' = { s with facts := s.facts ++ facts } ∧
      destructions facts = (inputs.filter (·.factType = .revocationPayloadDestroyed)).map
        fun input => (input.connection.id,input.outcome) := by
  induction inputs generalizing s s' with
  | nil =>
    cases h
    exact ⟨[],by simp,rfl⟩
  | cons input inputs ih =>
    simp only [recordConnectionFacts] at h
    split at h
    case h_2 => cases h
    case h_1 next hnext =>
      obtain ⟨context,rfl⟩ := recordConnectionFact_eq hnext
      obtain ⟨facts,rfl,hfacts⟩ := ih h
      refine ⟨connectionFact input context :: facts,by simp,?_⟩
      have hhead : destructions [connectionFact input context] =
          ([input].filter (·.factType = .revocationPayloadDestroyed)).map
            fun input => (input.connection.id,input.outcome) := by
        by_cases htype : input.factType = .revocationPayloadDestroyed <;>
          simp [destructions,connectionFact,htype]
      rw [← List.singleton_append,destructions_append,hhead,hfacts,← List.map_append,
        ← List.filter_append,List.singleton_append]

/-- The facts about the payloads of linked deliveries, one for each that belongs to a connection. -/
lemma destroyedFacts_eq {deliveries : List RevocationDelivery} {occurredAt : ℕ} {outcome : String}
    {failureClass : RevocationDelivery → Option String}
    (h : ∀ delivery ∈ deliveries, ∀ connectionId, delivery.connectionId = some connectionId →
      ∃ connection ∈ s.connections, connection.id = connectionId) :
    ((destroyedFacts s deliveries occurredAt outcome failureClass).filter
      (·.factType = .revocationPayloadDestroyed)).map
        (fun input => (input.connection.id,input.outcome)) =
      (deliveries.filterMap (·.connectionId)).map (·,some outcome) := by
  induction deliveries with
  | nil => rfl
  | cons delivery deliveries ih =>
    have htail := ih fun other hother => h other (List.mem_cons_of_mem _ hother)
    cases hid : delivery.connectionId with
    | none =>
      have hnone : destroyedFacts s (delivery :: deliveries) occurredAt outcome failureClass =
          destroyedFacts s deliveries occurredAt outcome failureClass := by
        simp [destroyedFacts,hid]
      rw [hnone,htail,List.filterMap_cons_none hid]
    | some connectionId =>
      obtain ⟨connection,hmem,hconnection⟩ := h delivery (by simp) connectionId hid
      obtain ⟨found,hfound⟩ : ∃ found, s.connections.find? (·.id = connectionId) = some found := by
        rw [← Option.isSome_iff_exists,List.find?_isSome]
        exact ⟨connection,hmem,by simpa using hconnection⟩
      have hfoundId : found.id = connectionId := by simpa using List.find?_some hfound
      have hcons : destroyedFacts s (delivery :: deliveries) occurredAt outcome failureClass =
          { connection := found, factType := .revocationPayloadDestroyed, occurredAt,
            outcome := some outcome, failureClass := failureClass delivery } ::
          destroyedFacts s deliveries occurredAt outcome failureClass := by
        simp [destroyedFacts,hid,hfound]
      rw [hcons,List.filter_cons_of_pos (by simp),List.map_cons,htail,List.filterMap_cons_some hid,
        List.map_cons,hfoundId]

lemma holdsPayload_of_mem {delivery : RevocationDelivery} (h : delivery ∈ s.deliveries)
    (hpayload : delivery.credentialEncrypted.isSome) : holdsPayload s delivery.id = true :=
  List.any_eq_true.mpr ⟨delivery,h,by simp [hpayload]⟩

lemma lost_eq_nil (h : ∀ delivery ∈ s.deliveries, delivery.credentialEncrypted.isSome →
    holdsPayload s' delivery.id = true) : lost s s' = [] := by
  have hnone : losing s s' = [] := by
    rw [losing,List.filter_eq_nil_iff]
    intro delivery hmem hgone
    simp only [Bool.and_eq_true,Bool.not_eq_true'] at hgone
    rw [h delivery hmem hgone.1] at hgone
    cases hgone.2
  rw [lost,hnone]
  rfl

/-- Exactly the payloads of the rows that a predicate picks are lost. -/
lemma lost_eq_pick {pick : RevocationDelivery → Bool}
    (h : ∀ delivery ∈ s.deliveries, delivery.credentialEncrypted.isSome →
      holdsPayload s' delivery.id = !pick delivery)
    (hpick : ∀ delivery ∈ s.deliveries, pick delivery = true → delivery.credentialEncrypted.isSome) :
    lost s s' = (s.deliveries.filter pick).filterMap (·.connectionId) := by
  unfold lost losing
  congr 1
  refine List.filter_congr fun delivery hmem => ?_
  cases hpayload : delivery.credentialEncrypted.isSome with
  | false =>
    cases hpicked : pick delivery with
    | false => rfl
    | true =>
      rw [hpick delivery hmem hpicked] at hpayload
      cases hpayload
  | true => rw [h delivery hmem hpayload,Bool.not_not,Bool.true_and]

/-- Rows that are picked and then deleted by their identifiers. -/
lemma filter_deleted {rows : List RevocationDelivery} (hkey : (rows.map (·.id)).Nodup)
    (pick : RevocationDelivery → Bool) :
    rows.filter (·.id ∉ (rows.filter pick).map (·.id)) = rows.filter fun row => !pick row := by
  refine List.filter_congr fun row hrow => ?_
  have hmem : row.id ∈ (rows.filter pick).map (·.id) ↔ pick row = true := by
    constructor
    · intro hgone
      obtain ⟨other,hother,hid⟩ := List.mem_map.mp hgone
      obtain ⟨hother,hpicked⟩ := List.mem_filter.mp hother
      rwa [List.inj_on_of_nodup_map hkey hother hrow hid] at hpicked
    · exact fun hpicked => List.mem_map_of_mem (List.mem_filter.mpr ⟨hrow,hpicked⟩)
  cases hpicked : pick row with
  | true =>
    rw [decide_eq_false (not_not.mpr (hmem.mpr hpicked))]
    rfl
  | false =>
    have hkept : row.id ∉ (rows.filter pick).map (·.id) := fun hgone => by
      rw [hmem.mp hgone] at hpicked
      cases hpicked
    rw [decide_eq_true hkept]
    rfl

lemma holdsPayload_filter {pick : RevocationDelivery → Bool}
    (hkey : (s.deliveries.map (·.id)).Nodup)
    (hs' : s'.deliveries = s.deliveries.filter fun row => !pick row)
    {delivery : RevocationDelivery} (hmem : delivery ∈ s.deliveries)
    (hpayload : delivery.credentialEncrypted.isSome) :
    holdsPayload s' delivery.id = !pick delivery := by
  cases hpicked : pick delivery with
  | false =>
    refine holdsPayload_of_mem ?_ hpayload
    rw [hs']
    exact List.mem_filter.mpr ⟨hmem,by simp [hpicked]⟩
  | true =>
    simp only [holdsPayload,hs',Bool.not_true,List.any_eq_false,Bool.and_eq_true,decide_eq_true_eq]
    rintro row hrow ⟨hid,-⟩
    obtain ⟨hrow,hkept⟩ := List.mem_filter.mp hrow
    rw [List.inj_on_of_nodup_map hkey hrow hmem hid,hpicked] at hkept
    cases hkept

/-- The rows that a predicate on an identifier picks are at most one. -/
lemma filter_unique {rows : List RevocationDelivery} (hkey : (rows.map (·.id)).Nodup)
    {pick : RevocationDelivery → Bool} {id : String}
    (h : ∀ row, pick row = true → row.id = id) {row : RevocationDelivery} (hmem : row ∈ rows)
    (hpicked : pick row = true) : rows.filter pick = [row] := by
  have hsame : ∀ other ∈ rows.filter pick, other = row := by
    intro other hother
    obtain ⟨hother,hpicked'⟩ := List.mem_filter.mp hother
    exact List.inj_on_of_nodup_map hkey hother hmem ((h other hpicked').trans (h row hpicked).symm)
  have hnodup : (rows.filter pick).Nodup := hkey.of_map.filter _
  cases hrows : rows.filter pick with
  | nil =>
    have hrow := List.mem_filter.mpr ⟨hmem,hpicked⟩
    rw [hrows] at hrow
    cases hrow
  | cons first rest =>
    rw [hrows] at hsame hnodup
    cases rest with
    | nil => rw [hsame first (by simp)]
    | cons second rest =>
      rw [hsame first (by simp),hsame second (by simp)] at hnodup
      simp at hnodup

/-- Rows that lose their payload in place. -/
lemma holdsPayload_map {pick : RevocationDelivery → Bool}
    {change : RevocationDelivery → RevocationDelivery} (hkey : (s.deliveries.map (·.id)).Nodup)
    (hs' : s'.deliveries = s.deliveries.map fun row => if pick row then change row else row)
    (hid : ∀ row, (change row).id = row.id) (hnone : ∀ row, (change row).credentialEncrypted = none)
    {delivery : RevocationDelivery} (hmem : delivery ∈ s.deliveries)
    (hpayload : delivery.credentialEncrypted.isSome) :
    holdsPayload s' delivery.id = !pick delivery := by
  cases hpicked : pick delivery with
  | false =>
    refine holdsPayload_of_mem ?_ hpayload
    rw [hs']
    exact List.mem_map.mpr ⟨delivery,hmem,by simp [hpicked]⟩
  | true =>
    simp only [holdsPayload,hs',Bool.not_true,List.any_eq_false,Bool.and_eq_true,decide_eq_true_eq]
    rintro row hrow ⟨hrowId,hsome⟩
    obtain ⟨before,hbefore,rfl⟩ := List.mem_map.mp hrow
    have hsame : before = delivery := by
      refine List.inj_on_of_nodup_map hkey hbefore hmem ?_
      split at hrowId
      · exact (hid before).symm.trans hrowId
      · exact hrowId
    rw [hsame,if_pos hpicked,hnone] at hsome
    cases hsome

end Ledger

section Operations
variable {claim : Option (String × String)} {outcome : Option String} {s s' : Store}

/-- A transaction after which every payload is where it was. -/
lemma Accounts.quietly
    (hrows : Evolves RevocationDelivery.id (RowKeeps claim) (fun _ => True) (NewRow s)
      s.deliveries s'.deliveries)
    (hfacts : destructions s'.facts = destructions s.facts)
    (hpayload : ∀ delivery ∈ s.deliveries, delivery.credentialEncrypted.isSome →
      holdsPayload s' delivery.id = true) : Accounts claim outcome s s' := by
  have hnil := lost_eq_nil hpayload
  exact ⟨hrows,by simp [hnil,hfacts],fun _ => hnil⟩

lemma Accounts.same (hdeliveries : s'.deliveries = s.deliveries)
    (hfacts : destructions s'.facts = destructions s.facts) : Accounts claim outcome s s' := by
  refine .quietly ?_ hfacts fun delivery hmem hpayload => holdsPayload_of_mem ?_ hpayload
  · rw [hdeliveries]
    exact .refl .refl
  · rw [hdeliveries]
    exact hmem

lemma Accounts.refl : Accounts claim outcome s s := .same rfl rfl

/-- Payloads that are picked and deleted, each of a connection with its fact. -/
lemma Accounts.deleted (pick : RevocationDelivery → Bool) {outcome : String}
    (hkey : (s.deliveries.map (·.id)).Nodup)
    (hs' : s'.deliveries = s.deliveries.filter fun row => !pick row)
    (hpick : ∀ delivery ∈ s.deliveries, pick delivery = true → delivery.credentialEncrypted.isSome)
    (hfacts : destructions s'.facts = destructions s.facts ++
      ((s.deliveries.filter pick).filterMap (·.connectionId)).map (·,some outcome)) :
    Accounts claim (some outcome) s s' := by
  refine ⟨?_,?_,fun h => by cases h⟩
  · rw [hs']
    exact .delete .refl fun _ _ _ => trivial
  · rw [hfacts,lost_eq_pick (fun _ hmem => holdsPayload_filter hkey hs' hmem) hpick]

/-- A guarded update of the deliveries that leaves the payloads. -/
lemma Accounts.updated (guard : RevocationDelivery → Bool)
    (change : RevocationDelivery → RevocationDelivery)
    (hs' : s'.deliveries = s.deliveries.map fun row => if guard row then change row else row)
    (hfacts : s'.facts = s.facts) (hkey : ∀ row, (change row).id = row.id)
    (hkeeps : ∀ row, guard row = true → RowKeeps claim row (change row))
    (hpayload : ∀ row, (change row).credentialEncrypted = row.credentialEncrypted) :
    Accounts claim outcome s s' := by
  refine .quietly ?_ (by rw [hfacts]) fun delivery hmem hsome => ?_
  · rw [hs']
    exact evolves_guarded .refl hkey hkeeps
  · refine List.any_eq_true.mpr ⟨if guard delivery then change delivery else delivery,?_,?_⟩
    · rw [hs']
      exact List.mem_map_of_mem hmem
    · split
      · simp [hkey,hpayload,hsome]
      · simp [hsome]

lemma Accounts.inserted (delivery : RevocationDelivery)
    (hs' : s'.deliveries = s.deliveries ++ [delivery])
    (hfacts : destructions s'.facts = destructions s.facts)
    (hid : delivery.id ∉ s.deliveries.map (·.id)) (hnew : NewRow s delivery) :
    Accounts claim outcome s s' := by
  refine .quietly ?_ hfacts fun other hmem hpayload => holdsPayload_of_mem ?_ hpayload
  · rw [hs']
    exact .insert .refl hid hnew
  · rw [hs']
    exact List.mem_append_left _ hmem

lemma updateConnection_accounts {guard : Connection → Bool} {change : Connection → Connection}
    {fact : Connection → FactInput} {result : Option Connection}
    (h : updateConnection s guard change fact = .ok (result,s'))
    (hfact : ∀ row, (fact row).factType ≠ .revocationPayloadDestroyed) :
    (result = none ∧ s' = s) ∨ ∃ connection ∈ s.connections, guard connection = true ∧
      result = some (change connection) ∧ s'.deliveries = s.deliveries ∧
      destructions s'.facts = destructions s.facts := by
  unfold updateConnection at h
  split at h
  case h_1 =>
    cases h
    exact .inl ⟨rfl,rfl⟩
  case h_2 connection hfind =>
    simp only [bind,Except.bind,pure,Except.pure] at h
    split at h
    case h_1 => cases h
    case h_2 recorded hrecorded =>
      cases h
      obtain ⟨context,rfl⟩ := recordConnectionFact_eq hrecorded
      refine .inr ⟨connection,List.mem_of_find?_eq_some hfind,List.find?_some hfind,rfl,rfl,?_⟩
      have hnone : destructions [connectionFact (fact (change connection)) context] = [] := by
        simp [destructions,connectionFact,hfact]
      rw [destructions_append,hnone,List.append_nil]

lemma updated_accounts {guard : Connection → Bool} {change : Connection → Connection}
    {fact : Connection → FactInput} {result : Option Connection}
    (h : updateConnection s guard change fact = .ok (result,s'))
    (hfact : ∀ row, (fact row).factType ≠ .revocationPayloadDestroyed) :
    Accounts claim outcome s s' := by
  obtain ⟨-,rfl⟩ | ⟨-,-,-,-,hdeliveries,hfacts⟩ := updateConnection_accounts h hfact
  · exact .refl
  · exact .same hdeliveries hfacts

lemma revoke_accounts {owner : ConnectionOwner} {connectionId : String} {input : RevokeInput}
    {result : RevokeResult} (h : revokeConnection s owner connectionId input = .ok (result,s')) :
    Accounts claim outcome s s' := by
  simp only [revokeConnection,bind,Except.bind,pure,Except.pure] at h
  split at h
  case h_1 => cases h
  case h_2 updated hupdated =>
    obtain ⟨connection,revoked⟩ := updated
    have hquiet : Accounts claim outcome s revoked := updated_accounts hupdated (by simp)
    simp only at h
    split at h
    case h_1 =>
      cases h
      exact .refl
    case h_2 connection =>
      split at h
      case h_2 =>
        cases h
        exact hquiet
      case h_1 deliveryId credential hid hcredential =>
        split at h
        case h_1 => cases h
        case h_2 staged hstaged =>
          cases h
          obtain ⟨hkey,rfl⟩ := insertDelivery_ok hstaged
          obtain ⟨hnone,-⟩ | ⟨current,hmem,hguard,hconnection,hdeliveries,hfacts⟩ :=
            updateConnection_accounts hupdated (by simp)
          · cases hnone
          · simp only [Bool.and_eq_true,ownedConnection,decide_eq_true_eq] at hguard
            refine .inserted (revocationDelivery owner connection deliveryId credential
              input.expiresAt input.now) (by rw [hdeliveries]) hfacts (hdeliveries ▸ hkey) ⟨rfl,?_⟩
            intro id hid'
            cases hid'
            refine ⟨current,hmem,?_,?_⟩
            · rw [Option.some.inj hconnection]
            · simp [ofSubject,revocationDelivery,hguard]

lemma stage_accounts {input : StageInput}
    (h : stageAuthorizationCredentialRevocation s input = .ok s') :
    Accounts claim outcome s s' := by
  obtain ⟨hkey,rfl⟩ := insertDelivery_ok h
  exact .inserted _ rfl rfl hkey ⟨rfl,fun id hid => by cases hid⟩

lemma updateDelivery_accounts {deliveryId claimedBy : String}
    {change : RevocationDelivery → RevocationDelivery} (hkey : ∀ row, (change row).id = row.id)
    (hkeeps : ∀ row, RowKeeps claim row (change row))
    (hpayload : ∀ row, (change row).credentialEncrypted = row.credentialEncrypted) :
    Accounts claim outcome s (updateDelivery s deliveryId claimedBy change).2 :=
  .updated _ change rfl rfl hkey (fun row _ => hkeeps row) hpayload

lemma claimDelivery_accounts (input : ClaimDeliveryInput) (locked : List String) :
    Accounts ((claimRevocationDelivery s input locked).1.map fun delivery =>
      (delivery.id,input.claimedBy)) outcome s (claimRevocationDelivery s input locked).2 := by
  simp only [claimRevocationDelivery]
  split
  · exact .refl
  · rename_i candidate _ _
    refine .updated (fun row => decide (row.id = candidate.id)) (fun row =>
      { row with
        attemptCount := row.attemptCount + 1
        lastAttemptAt := some input.now
        claimedBy := some input.claimedBy
        claimExpiresAt := some input.claimExpiresAt }) ?_ rfl (fun _ => rfl)
      (fun row hguard => ?_) fun _ => rfl
    · simp
    · refine ⟨rfl,rfl,fun worker hworker => .inr ?_,id⟩
      rw [of_decide_eq_true hguard,← Option.some.inj hworker]
      rfl

/-- The row that its claimant delivers is the one that loses its payload. -/
lemma completeDelivery_accounts {deliveryId claimedBy : String} {deliveredAt : ℕ} {result : Bool}
    (hkey : (s.deliveries.map (·.id)).Nodup)
    (hpayload : ∀ delivery ∈ s.deliveries, PayloadUntilDelivered delivery)
    (h : completeRevocationDelivery s deliveryId claimedBy deliveredAt = .ok (result,s')) :
    Accounts claim (some "delivered") s s' := by
  unfold completeRevocationDelivery at h
  split at h
  case h_1 =>
    cases h
    exact .refl
  case h_2 delivery hfind =>
    have hheld := List.find?_some hfind
    have hmem := List.mem_of_find?_eq_some hfind
    have hid : ∀ row, heldBy deliveryId claimedBy row = true → row.id = deliveryId := by
      intro row hrow
      simp only [heldBy,Bool.and_eq_true,decide_eq_true_eq] at hrow
      exact hrow.1.1
    have hpick : ∀ row ∈ s.deliveries, heldBy deliveryId claimedBy row = true →
        row.credentialEncrypted.isSome := by
      intro row hrow hheld
      simp only [heldBy,Bool.and_eq_true] at hheld
      exact (hpayload row hrow).mpr hheld.2
    let change (row : RevocationDelivery) : RevocationDelivery := { row with
      deliveredAt := some deliveredAt
      credentialEncrypted := none
      claimedBy := none
      claimExpiresAt := none }
    have hdelivered : s'.deliveries = s.deliveries.map (fun row =>
          if heldBy deliveryId claimedBy row then change row else row) ∧
        destructions s'.facts = destructions s.facts ++
          (delivery.connectionId.toList).map (·,some "delivered") := by
      simp only at h
      split at h
      case h_1 hnone =>
        cases h
        exact ⟨rfl,by simp [updateDelivery,hnone]⟩
      case h_2 connectionId hsome =>
        split at h
        case h_1 => cases h
        case h_2 connection hconnection =>
          simp only [bind,Except.bind,pure,Except.pure] at h
          split at h
          case h_1 => cases h
          case h_2 recorded hrecorded =>
            cases h
            obtain ⟨context,rfl⟩ := recordConnectionFact_eq hrecorded
            have hconnectionId : connection.id = connectionId := by
              simpa using List.find?_some hconnection
            refine ⟨rfl,?_⟩
            rw [destructions_append]
            simp [updateDelivery,destructions,connectionFact,hsome,hconnectionId]
    obtain ⟨hdeliveries,hfacts⟩ := hdelivered
    refine ⟨?_,?_,fun hnone => by cases hnone⟩
    · rw [hdeliveries]
      refine evolves_guarded .refl (fun _ => rfl) fun row hrow => ⟨rfl,rfl,?_,?_⟩
      · exact fun worker hworker => by cases hworker
      · exact fun hnone => by cases hnone
    · rw [hfacts,lost_eq_pick (fun _ hrow => holdsPayload_map hkey hdeliveries (fun _ => rfl)
        (fun _ => rfl) hrow) hpick,filter_unique hkey hid hmem hheld]
      cases hconnection : delivery.connectionId <;> simp [hconnection]

lemma expireDeliveries_accounts {now count : ℕ} (hkey : (s.deliveries.map (·.id)).Nodup)
    (hpayload : ∀ delivery ∈ s.deliveries, PayloadUntilDelivered delivery) (hlinked : Linked s)
    (h : deleteExpiredRevocationDeliveries s now = .ok (count,s')) :
    Accounts claim (some "expired") s s' := by
  simp only [deleteExpiredRevocationDeliveries,bind,Except.bind,pure,Except.pure] at h
  split at h
  case h_1 => cases h
  case h_2 recorded hrecorded =>
    cases h
    obtain ⟨facts,rfl,hfacts⟩ := recordConnectionFacts_destructions hrecorded
    refine .deleted _ hkey (filter_deleted hkey _) (fun delivery hmem hpicked => ?_) ?_
    · simp only [Bool.and_eq_true] at hpicked
      exact (hpayload delivery hmem).mpr hpicked.1
    · rw [destructions_append,hfacts,destroyedFacts_eq]
      intro delivery hmem connectionId hid
      obtain ⟨connection,hconnection,hid,-⟩ :=
        hlinked delivery (List.mem_of_mem_filter hmem) connectionId hid
      exact ⟨connection,hconnection,hid⟩

lemma erasedConnection_id (auditReference : String) (now : ℕ) (connection : Connection) :
    (erasedConnection auditReference now connection).id = connection.id := by
  unfold erasedConnection
  split <;> rfl

lemma erase_accounts {workspaceId externalSubjectId auditReference : String} {now : ℕ}
    {result : Option ExternalSubject} (hkey : (s.deliveries.map (·.id)).Nodup)
    (hlinked : Linked s)
    (h : eraseExternalSubject s workspaceId externalSubjectId auditReference now
      = .ok (result,s')) : Accounts claim (some "subject_erased") s s' := by
  unfold eraseExternalSubject at h
  split at h
  case h_1 =>
    cases h
    exact .refl
  case h_2 existing _ =>
    split at h
    case isTrue =>
      cases h
      exact .refl
    case isFalse =>
      simp only [bind,Except.bind,pure,Except.pure,throw,throwThe,MonadExceptOf.throw] at h
      split at h
      case isTrue => cases h
      case isFalse =>
        split at h
        case h_1 => cases h
        case h_2 destroyed hdestroyed =>
          obtain ⟨facts,rfl,hfacts⟩ := recordConnectionFacts_destructions hdestroyed
          split at h
          case h_1 => cases h
          case h_2 revoked hrevoked =>
            obtain ⟨facts',rfl,hfacts'⟩ := recordConnectionFacts_destructions hrevoked
            cases h
            refine .deleted _ hkey (filter_deleted hkey _) (fun delivery hmem hpicked => ?_) ?_
            · simp only [Bool.and_eq_true] at hpicked
              exact hpicked.2
            · rw [destructions_map (fun fact => by split <;> exact ⟨rfl,rfl,rfl⟩),
                destructions_append,destructions_append,hfacts,hfacts',destroyedFacts_eq]
              · simp [List.filter_map]
              · intro delivery hmem connectionId hid
                obtain ⟨connection,hconnection,hid,-⟩ :=
                  hlinked delivery (List.mem_of_mem_filter hmem) connectionId hid
                refine ⟨_,List.mem_map_of_mem hconnection,?_⟩
                split
                · rw [erasedConnection_id,hid]
                · exact hid

section Completion
variable {request : AuthorizationRequest} {input : CompleteAuthorizationInput}

/-- The fence leaves the deliveries that it supersedes out, each of a connection with its fact. -/
lemma fence_destructions {answer : Bool} (hkey : (s.deliveries.map (·.id)).Nodup)
    (hlinked : Linked s)
    (h : fenceGoogleRevocations s request input.providerAccountId input.revocationDeliveryId
      input.now = .ok (answer,s')) :
    ∃ pick : RevocationDelivery → Bool, (∀ delivery, pick delivery = true →
        delivery.deliveredAt.isNone) ∧
      s'.deliveries = s.deliveries.filter (fun row => !pick row) ∧
      destructions s'.facts = destructions s.facts ++
        ((s.deliveries.filter pick).filterMap (·.connectionId)).map (·,some "superseded") := by
  have hsame (heq : s' = s) : ∃ pick : RevocationDelivery → Bool,
      (∀ delivery, pick delivery = true → delivery.deliveredAt.isNone) ∧
      s'.deliveries = s.deliveries.filter (fun row => !pick row) ∧
      destructions s'.facts = destructions s.facts ++
        ((s.deliveries.filter pick).filterMap (·.connectionId)).map (·,some "superseded") :=
    ⟨fun _ => false,fun _ h => absurd h Bool.false_ne_true,by simp [heq],by simp [heq]⟩
  by_cases hgoogle : request.provider = "google"
  · rw [fenceGoogleRevocations_eq hgoogle] at h
    split at h
    · cases h
      exact hsame rfl
    · cases hrecord : recordConnectionFacts s (destroyedFacts s
          (s.deliveries.filter (superseded request input)) input.now "superseded"
            fun _ => none) with
      | error message =>
        rw [hrecord] at h
        cases h
      | ok recorded =>
        rw [hrecord] at h
        cases h
        obtain ⟨facts,rfl,hfacts⟩ := recordConnectionFacts_destructions hrecord
        refine ⟨superseded request input,fun delivery hpick => ?_,filter_deleted hkey _,?_⟩
        · simp only [superseded,Bool.and_eq_true] at hpick
          exact hpick.2
        · rw [destructions_append,hfacts,destroyedFacts_eq]
          intro delivery hmem connectionId hid
          obtain ⟨connection,hconnection,hid,-⟩ :=
            hlinked delivery (List.mem_of_mem_filter hmem) connectionId hid
          exact ⟨connection,hconnection,hid⟩
  · simp only [fenceGoogleRevocations,ne_eq,hgoogle,not_false_eq_true,if_true] at h
    cases h
    exact hsame rfl

lemma installConnection_destructions {result : CompleteAuthorizationResult}
    (h : installConnection s request input = .ok (result,s')) :
    s'.deliveries = s.deliveries.filter
        (fun row => !stagedDelivery request input.revocationDeliveryId row) ∧
      destructions s'.facts = destructions s.facts := by
  simp only [installConnection,bind,Except.bind,pure,Except.pure,throw,throwThe,
    MonadExceptOf.throw] at h
  split at h
  case h_1 => cases h
  case h_2 written hwritten =>
    have htables : written.2.deliveries = s.deliveries ∧ written.2.facts = s.facts := by
      unfold writeConnection at hwritten
      split at hwritten
      case h_1 =>
        cases hwritten
        exact ⟨rfl,rfl⟩
      case h_2 =>
        split at hwritten
        case h_2 => cases hwritten
        case h_1 inserted hinserted =>
          cases hwritten
          obtain ⟨-,-,rfl⟩ := insertConnection_ok hinserted
          exact ⟨rfl,rfl⟩
    split at h
    case isFalse => cases h
    case isTrue =>
      split at h
      case h_1 => cases h
      case h_2 recorded hrecorded =>
        cases h
        obtain ⟨context,rfl⟩ := recordConnectionFact_eq hrecorded
        refine ⟨by rw [htables.1],?_⟩
        rw [destructions_append,htables.2]
        have hnone (fact : FactInput) (hfact : fact.factType ≠ .revocationPayloadDestroyed) :
            destructions [connectionFact fact context] = [] := by
          simp [destructions,connectionFact,hfact]
        rw [hnone _ (by split <;> simp),List.append_nil]

/-- The staged delivery of the completion belongs to no connection. -/
lemma staged_connectionId {delivery : RevocationDelivery} {revocationDeliveryId : String}
    (h : stagedDelivery request revocationDeliveryId delivery = true) :
    delivery.connectionId = none ∧ delivery.deliveredAt.isNone := by
  simp only [stagedDelivery,Bool.and_eq_true] at h
  exact ⟨Option.isNone_iff_eq_none.mp h.1.1.2,h.2⟩

lemma filterMap_or {rows : List RevocationDelivery} {pick other : RevocationDelivery → Bool}
    (h : ∀ row, other row = true → row.connectionId = none) :
    (rows.filter fun row => pick row || other row).filterMap (·.connectionId) =
      (rows.filter pick).filterMap (·.connectionId) := by
  induction rows with
  | nil => rfl
  | cons row rows ih =>
    cases hpick : pick row with
    | true =>
      rw [List.filter_cons_of_pos (by simp [hpick]),List.filter_cons_of_pos hpick,
        List.filterMap_cons,List.filterMap_cons,ih]
    | false =>
      cases hother : other row with
      | true => simp [hpick,hother,h row hother,ih]
      | false => simp [hpick,hother,ih]

lemma complete_accounts {localeCompare : String → String → ℤ} {result : CompleteAuthorizationResult}
    (hkey : (s.deliveries.map (·.id)).Nodup)
    (hpayload : ∀ delivery ∈ s.deliveries, PayloadUntilDelivered delivery) (hlinked : Linked s)
    (h : completeConnectionAuthorizationRequest localeCompare s input = .ok (result,s')) :
    Accounts claim (some "superseded") s s' := by
  have hfenced : ∀ {request answer s'}, fenceGoogleRevocations s request input.providerAccountId
      input.revocationDeliveryId input.now = .ok (answer,s') →
      Accounts claim (some "superseded") s s' := by
    intro request answer s' hfence
    obtain ⟨pick,hpick,hdeliveries,hfacts⟩ := fence_destructions hkey hlinked hfence
    exact .deleted pick hkey hdeliveries (fun row hrow hpicked => (hpayload row hrow).mpr
      (hpick row hpicked)) hfacts
  unfold completeConnectionAuthorizationRequest at h
  split at h
  case h_1 =>
    cases h
    exact .refl
  case h_2 request hrequest =>
    split at h
    case isTrue =>
      cases h
      exact .refl
    case isFalse =>
      split at h
      case h_1 => cases h
      case h_2 fenced hfence =>
        cases h
        exact hfenced hfence
      case h_3 fenced hfence =>
        split at h
        case isTrue =>
          cases h
          exact hfenced hfence
        case isFalse =>
          obtain ⟨pick,hpick,hdeliveries,hfacts⟩ := fence_destructions hkey hlinked hfence
          obtain ⟨hdeliveries',hfacts'⟩ := installConnection_destructions h
          refine .deleted (fun row =>
            pick row || stagedDelivery request input.revocationDeliveryId row) hkey ?_ ?_ ?_
          · rw [hdeliveries',hdeliveries,List.filter_filter]
            refine List.filter_congr fun row _ => ?_
            rw [Bool.not_or,Bool.and_comm]
          · intro row hrow hpicked
            refine (hpayload row hrow).mpr ?_
            rcases Bool.or_eq_true_iff.mp hpicked with hpicked | hstaged
            · exact hpick row hpicked
            · exact (staged_connectionId hstaged).2
          · rw [hfacts',hfacts,filterMap_or fun row hstaged => (staged_connectionId hstaged).1]

end Completion

end Operations

/-! ## Runs -/

section Runs
variable {localeCompare : String → String → ℤ} {w w' : World} {action : Action}

lemma committed_accounts {α : Type} {claim : Option (String × String)}
    {outcome : Option String} {s : Store} {r : Except String (α × Store)}
    (h : ∀ result s', r = .ok (result,s') → Accounts claim outcome s s') :
    Accounts claim outcome s (committed s r) := by
  cases r with
  | ok result => exact h result.1 result.2 rfl
  | error message => exact .refl

lemma step_accounts (h : Sound w) (hlinked : Linked w.store)
    (hstep : w.step localeCompare action = some w') :
    Accounts (w.claim action) action.outcome w.store w'.store := by
  have hkey := h.schema.deliveryKey
  have hpayload := h.schema.payload
  cases action with
  | createRequest request =>
    simp only [World.step] at hstep
    split at hstep
    case isTrue => cases hstep
    case isFalse =>
      cases hstep
      exact .same rfl rfl
  | claim input =>
    simp only [World.step] at hstep
    split at hstep
    case h_1 =>
      cases hstep
      exact .refl
    case h_2 request store hclaim =>
      cases hstep
      obtain rfl : (claimConnectionAuthorizationRequest w.store input).2 = store := by rw [hclaim]
      exact .same rfl rfl
  | stage i credential deliveryId now =>
    simp only [World.step] at hstep
    split at hstep
    case h_2 => cases hstep
    case h_1 =>
      split at hstep
      case isTrue => cases hstep
      case isFalse =>
        split at hstep
        case h_1 store hstage =>
          cases hstep
          exact stage_accounts hstage
        case h_2 =>
          cases hstep
          exact .refl
  | complete i connectionId actionFamilies requiredScopes now =>
    simp only [World.step] at hstep
    split at hstep
    case h_2 => cases hstep
    case h_1 request claimedAt deliveryId credential _ =>
      cases hstep
      simp only [World.complete]
      split
      case h_1 hcomplete => exact complete_accounts hkey hpayload hlinked hcomplete
      case h_2 hcomplete => exact complete_accounts hkey hpayload hlinked hcomplete
      case h_3 => exact .refl
  | fail i completedAt =>
    simp only [World.step] at hstep
    split at hstep
    case h_2 => cases hstep
    case h_1 =>
      cases hstep
      exact .same rfl rfl
  | crash i =>
    cases hstep
    exact .refl
  | expireRequests now =>
    cases hstep
    exact .same rfl rfl
  | rotate owner connectionId expected credential now =>
    cases hstep
    exact committed_accounts fun _ _ hrotate => updated_accounts hrotate (by simp)
  | requireReauthorization owner connectionId expected now =>
    cases hstep
    exact committed_accounts fun _ _ hrequire => updated_accounts hrequire (by simp)
  | revoke owner connectionId input =>
    simp only [World.step] at hstep
    split at hstep
    case isTrue => cases hstep
    case isFalse =>
      cases hstep
      exact committed_accounts fun _ _ => revoke_accounts
  | claimDelivery input locked =>
    cases hstep
    exact claimDelivery_accounts input locked
  | renewDelivery deliveryId claimedBy claimExpiresAt =>
    cases hstep
    exact updateDelivery_accounts (fun _ => rfl) (fun _ => ⟨rfl,rfl,fun _ => .inl,id⟩) fun _ => rfl
  | completeDelivery deliveryId claimedBy deliveredAt =>
    cases hstep
    exact committed_accounts fun _ _ => completeDelivery_accounts hkey hpayload
  | failDelivery deliveryId claimedBy retryAt failureClass =>
    cases hstep
    refine updateDelivery_accounts (fun _ => rfl) (fun _ => ⟨rfl,rfl,?_,id⟩) fun _ => rfl
    exact fun worker hworker => by cases hworker
  | expireDeliveries now =>
    cases hstep
    exact committed_accounts fun _ _ => expireDeliveries_accounts hkey hpayload hlinked
  | erase workspaceId externalSubjectId auditReference now =>
    cases hstep
    exact committed_accounts fun _ _ => erase_accounts hkey hlinked
  | changeAuthority environments subjects memberships sessions =>
    cases hstep
    exact .same rfl rfl

/-- Connections stay in the table with their owner, and deliveries with theirs. -/
lemma Accounts.linked {claim : Option (String × String)} {outcome : Option String} (he : Effect w w')
    (ha : Accounts claim outcome w.store w'.store) (h : Linked w.store) : Linked w'.store := by
  have hkept : ∀ row : RevocationDelivery, LinkedTo w.store row → LinkedTo w'.store row := by
    intro row hrow connectionId hid
    obtain ⟨connection,hmem,hconnection,howner⟩ := hrow connectionId hid
    obtain ⟨after,hafter,hafterId,hmoves⟩ := (he.connections.kept connection hmem).resolve_right id
    refine ⟨after,hafter,hafterId.trans hconnection,?_⟩
    simp only [ofSubject,Bool.and_eq_true,decide_eq_true_eq] at howner ⊢
    rw [hmoves.workspaceId,hmoves.externalSubjectId]
    exact howner
  intro row hrow
  rcases ha.rows.row row hrow with ⟨before,hbefore,-,hkeeps⟩ | ⟨-,hnew⟩
  · refine hkept row ?_
    have hlinked := h before hbefore
    unfold LinkedTo at hlinked ⊢
    rwa [hkeeps.connectionId,hkeeps.owner]
  · exact hkept row hnew.linked

/-- Nobody but a worker that claims the delivery anew comes to hold it. -/
lemma Accounts.unheld {claim : Option (String × String)} {outcome : Option String} {s s' : Store}
    (h : Accounts claim outcome s s') {deliveryId worker : String}
    (hclaim : claim ≠ some (deliveryId,worker))
    (hunheld : ∀ row ∈ s.deliveries, heldBy deliveryId worker row = false) :
    ∀ row ∈ s'.deliveries, heldBy deliveryId worker row = false := by
  intro row hrow
  by_contra hheld
  simp only [Bool.not_eq_false,heldBy,Bool.and_eq_true,decide_eq_true_eq] at hheld
  obtain ⟨⟨rfl,hworker⟩,hopen⟩ := hheld
  rcases h.rows.row row hrow with ⟨before,hbefore,hkey,hkeeps⟩ | ⟨-,hnew⟩
  · have hclaimed := (hkeeps.claimedBy worker hworker).resolve_right (hkey ▸ hclaim)
    have hopen' := hkeeps.deliveredAt (Option.isNone_iff_eq_none.mp hopen)
    have hbeforeHeld : heldBy row.id worker before = true := by
      simp [heldBy,hkey,hclaimed,hopen']
    rw [hunheld before hbefore] at hbeforeHeld
    cases hbeforeHeld
  · rw [hnew.unclaimed] at hworker
    cases hworker

/-- The invariant of the ledger: that of the life cycle, and where the deliveries belong. -/
structure Kept (w : World) : Prop where
  sound : Sound w
  linked : Linked w.store

lemma Kept.step (h : Kept w) (hstep : w.step localeCompare action = some w') : Kept w' :=
  have he := step_effect h.sound hstep
  ⟨he.sound h.sound,(step_accounts h.sound h.linked hstep).linked he h.linked⟩

lemma kept_run {actions : List Action} : ∀ {w : World}, Kept w →
    World.run localeCompare w actions = some w' → Kept w' := by
  induction actions with
  | nil =>
    intro w h hrun
    cases hrun
    exact h
  | cons action actions ih =>
    intro w h hrun
    obtain ⟨next,hstep,hrest⟩ := Option.bind_eq_some_iff.mp hrun
    exact ih (h.step hstep) hrest

/-- A delivery that was made and holds no payload. -/
def Spent (w : World) (deliveryId : String) : Prop :=
  deliveryId ∈ w.used ∧ holdsPayload w.store deliveryId = false

/-- No payload comes back: what a delivery holds it has held since it was made. -/
lemma Spent.step {deliveryId : String} (hspent : Spent w deliveryId) (h : Kept w)
    (hstep : w.step localeCompare action = some w') : Spent w' deliveryId := by
  have he := step_effect h.sound hstep
  obtain ⟨hused,hgone⟩ := hspent
  refine ⟨he.used _ hused,?_⟩
  by_contra hholds
  obtain ⟨row,hrow,hheld⟩ := List.any_eq_true.mp (Bool.of_not_eq_false hholds)
  simp only [Bool.and_eq_true,decide_eq_true_eq] at hheld
  obtain ⟨hid,hpayload⟩ := hheld
  rcases he.deliveries.row row hrow with ⟨before,hbefore,hkey,hmoves⟩ | ⟨-,hnew,-⟩
  · have hopen := ((he.sound h.sound).schema.payload row hrow).mp hpayload
    rw [hmoves.credential hopen] at hpayload
    have hbeforeHolds := holdsPayload_of_mem hbefore hpayload
    rw [← hkey,hid,hgone] at hbeforeHolds
    cases hbeforeHolds
  · exact hnew.1 (hid ▸ hused)

/-- The deliveries that lose their payload in a run, in the order in which they lose it. -/
def World.losses (localeCompare : String → String → ℤ) : World → List Action → List String
  | _, [] => []
  | w, action :: actions =>
    match w.step localeCompare action with
    | none => []
    | some w' =>
      (losing w.store w'.store).map (·.id) ++ World.losses localeCompare w' actions

lemma losing_spent (h : Kept w) (hstep : w.step localeCompare action = some w')
    {deliveryId : String} (hlost : deliveryId ∈ (losing w.store w'.store).map (·.id)) :
    ¬ Spent w deliveryId ∧ Spent w' deliveryId := by
  obtain ⟨delivery,hdelivery,rfl⟩ := List.mem_map.mp hlost
  obtain ⟨hmem,hgone⟩ := List.mem_filter.mp hdelivery
  simp only [Bool.and_eq_true,Bool.not_eq_true'] at hgone
  have hholds := holdsPayload_of_mem hmem hgone.1
  refine ⟨fun hspent => ?_,?_,hgone.2⟩
  · rw [hspent.2] at hholds
    cases hholds
  · exact (step_effect h.sound hstep).used _ (h.sound.deliveryUsed delivery hmem)

/-- A delivery without a payload is not among those that lose one. -/
lemma losses_spent {actions : List Action} : ∀ {w : World}, Kept w → ∀ {deliveryId : String},
    Spent w deliveryId → deliveryId ∉ World.losses localeCompare w actions := by
  induction actions with
  | nil => exact fun _ _ _ => List.not_mem_nil
  | cons action actions ih =>
    intro w h deliveryId hspent
    unfold World.losses
    split
    · exact List.not_mem_nil
    · rename_i w' hstep
      intro hlost
      rcases List.mem_append.mp hlost with hnow | hlater
      · exact (losing_spent h hstep hnow).1 hspent
      · exact ih (h.step hstep) (hspent.step h hstep) hlater

lemma losses_nodup {actions : List Action} : ∀ {w : World}, Kept w →
    (World.losses localeCompare w actions).Nodup := by
  induction actions with
  | nil => exact fun _ => List.nodup_nil
  | cons action actions ih =>
    intro w h
    unfold World.losses
    split
    · exact List.nodup_nil
    · rename_i w' hstep
      refine List.nodup_append.mpr ⟨?_,ih (h.step hstep),?_⟩
      · exact h.sound.schema.deliveryKey.sublist (List.filter_sublist.map _)
      · rintro id hnow _ hlater rfl
        exact losses_spent (h.step hstep) (losing_spent h hstep hnow).2 hlater

/-- A worker that holds a delivery after a run and did not before has claimed it in between. -/
lemma held_run {deliveryId worker : String} {actions : List Action} : ∀ {w : World}, Kept w →
    World.run localeCompare w actions = some w' →
    (∀ row ∈ w.store.deliveries, heldBy deliveryId worker row = false) →
    (∃ row ∈ w'.store.deliveries, heldBy deliveryId worker row = true) →
    ∃ before action after between, actions = before ++ action :: after ∧
      World.run localeCompare w before = some between ∧
      between.claim action = some (deliveryId,worker) := by
  induction actions with
  | nil =>
    rintro w - hrun hunheld ⟨row,hrow,hheld⟩
    cases hrun
    rw [hunheld row hrow] at hheld
    cases hheld
  | cons action actions ih =>
    intro w h hrun hunheld hheld
    obtain ⟨next,hstep,hrest⟩ := Option.bind_eq_some_iff.mp hrun
    by_cases hclaim : w.claim action = some (deliveryId,worker)
    · exact ⟨[],action,actions,w,rfl,rfl,hclaim⟩
    · have hunheld' := (step_accounts h.sound h.linked hstep).unheld hclaim hunheld
      obtain ⟨before,other,after,between,rfl,hbefore,hclaimed⟩ :=
        ih (h.step hstep) hrest hunheld' hheld
      refine ⟨action :: before,other,after,between,rfl,?_,hclaimed⟩
      simp only [World.run,hstep,Option.bind_some]
      exact hbefore

end Runs

/-! ## Workers that lost their claim, and connections that are not missing -/

section Branches
variable {s : Store}

lemma updateDelivery_unheld {deliveryId worker : String}
    {change : RevocationDelivery → RevocationDelivery}
    (h : ∀ row ∈ s.deliveries, heldBy deliveryId worker row = false) :
    updateDelivery s deliveryId worker change = (false,s) := by
  have hnone : s.deliveries.any (heldBy deliveryId worker) = false :=
    List.any_eq_false.mpr fun row hrow => by simp [h row hrow]
  have hsame : s.deliveries.map (fun delivery =>
      if heldBy deliveryId worker delivery then change delivery else delivery) =
      s.deliveries.map id :=
    List.map_congr_left fun row hrow => if_neg (by simp [h row hrow])
  rw [updateDelivery,hnone,hsame,List.map_id]

lemma completeDelivery_unheld {deliveryId worker : String} {deliveredAt : ℕ}
    (h : ∀ row ∈ s.deliveries, heldBy deliveryId worker row = false) :
    completeRevocationDelivery s deliveryId worker deliveredAt = .ok (false,s) := by
  have hnone : s.deliveries.find? (heldBy deliveryId worker) = none :=
    List.find?_eq_none.mpr fun row hrow => by simp [h row hrow]
  rw [completeRevocationDelivery,hnone]

/-- A delivery that a worker has claimed is held by no other. -/
lemma claimDelivery_unheld {input : ClaimDeliveryInput} {locked : List String} {s' : Store}
    {delivery : RevocationDelivery}
    (h : claimRevocationDelivery s input locked = (some delivery,s')) {worker : String}
    (hworker : worker ≠ input.claimedBy) :
    ∀ row ∈ s'.deliveries, heldBy delivery.id worker row = false := by
  simp only [claimRevocationDelivery] at h
  split at h
  · cases h
  · rename_i candidate _ _
    cases h
    intro row hrow
    obtain ⟨before,-,rfl⟩ := List.mem_map.mp hrow
    by_cases hid : before.id = candidate.id
    · simp [heldBy,hid,hworker.symm]
    · simp [heldBy,hid]

/-- A delivery whose row is gone is held by nobody. -/
lemma removed_unheld {deliveryId : String} (h : deliveryId ∉ s.deliveries.map (·.id))
    (worker : String) : ∀ row ∈ s.deliveries, heldBy deliveryId worker row = false := by
  intro row hrow
  have hid : row.id ≠ deliveryId := fun hid => h (List.mem_map.mpr ⟨row,hrow,hid⟩)
  simp [heldBy,hid]

def connectionMissing : String := "Revocation Connection is missing"

lemma recordConnectionFact_error {input : FactInput} {message : String}
    (h : recordConnectionFact s input = .error message) : message ≠ connectionMissing := by
  unfold recordConnectionFact at h
  split at h
  case h_1 => cases h
  case h_2 text hcontext =>
    cases h
    unfold retentionContext at hcontext
    split at hcontext
    · split at hcontext
      · cases hcontext
      · cases hcontext
        decide
    · split at hcontext
      · cases hcontext
        decide
      · split at hcontext
        · cases hcontext
        · cases hcontext
          decide

lemma recordConnectionFacts_error {inputs : List FactInput} {message : String} :
    ∀ {s : Store}, recordConnectionFacts s inputs = .error message →
      message ≠ connectionMissing := by
  induction inputs with
  | nil => exact fun h => nomatch h
  | cons input inputs ih =>
    intro s h
    unfold recordConnectionFacts at h
    split at h
    case h_1 => exact ih h
    case h_2 hrecord =>
      cases h
      exact recordConnectionFact_error hrecord

lemma completeDelivery_present (h : Linked s) (deliveryId worker : String) (deliveredAt : ℕ) :
    completeRevocationDelivery s deliveryId worker deliveredAt ≠ .error connectionMissing := by
  intro hmissing
  unfold completeRevocationDelivery at hmissing
  split at hmissing
  case h_1 => cases hmissing
  case h_2 delivery hfind =>
    simp only at hmissing
    split at hmissing
    case h_1 => cases hmissing
    case h_2 connectionId hid =>
      obtain ⟨connection,hmem,hconnection,-⟩ :=
        h delivery (List.mem_of_find?_eq_some hfind) connectionId hid
      split at hmissing
      case h_1 hnone =>
        exact absurd hconnection (by simpa using List.find?_eq_none.mp hnone connection hmem)
      case h_2 =>
        simp only [bind,Except.bind,pure,Except.pure] at hmissing
        split at hmissing
        case h_1 hrecord =>
          cases hmissing
          exact recordConnectionFact_error hrecord rfl
        case h_2 => cases hmissing

lemma erase_present (h : Linked s) (workspaceId externalSubjectId auditReference : String)
    (now : ℕ) : eraseExternalSubject s workspaceId externalSubjectId auditReference now ≠
      .error connectionMissing := by
  intro hmissing
  unfold eraseExternalSubject at hmissing
  split at hmissing
  case h_1 => cases hmissing
  case h_2 existing hfind =>
    split at hmissing
    case isTrue => cases hmissing
    case isFalse =>
      simp only [bind,Except.bind,pure,Except.pure,throw,throwThe,MonadExceptOf.throw]
        at hmissing
      split at hmissing
      case isTrue hlacks =>
        obtain ⟨payload,hpayload,hid⟩ := List.any_eq_true.mp hlacks
        obtain ⟨hmem,hpending⟩ := List.mem_filter.mp hpayload
        simp only [Bool.and_eq_true,decide_eq_true_eq] at hpending
        obtain ⟨connectionId,hconnectionId,hall⟩ := (Option.any_eq_true _ _).mp hid
        obtain ⟨connection,hconnection,rfl,howner⟩ := h payload hmem connectionId hconnectionId
        rw [hpending.1.1,hpending.1.2] at howner
        have hthere := List.all_eq_true.mp hall _ (List.mem_map_of_mem hconnection)
        rw [if_pos howner] at hthere
        have howner' : ofSubject workspaceId existing.id
            (erasedConnection auditReference now connection) = true := by
          unfold erasedConnection
          split <;> exact howner
        simp [howner',erasedConnection_id] at hthere
      case isFalse =>
        split at hmissing
        case h_1 hrecord =>
          cases hmissing
          exact recordConnectionFacts_error hrecord rfl
        case h_2 =>
          split at hmissing
          case h_1 hrecord =>
            cases hmissing
            exact recordConnectionFacts_error hrecord rfl
          case h_2 => cases hmissing

end Branches

lemma Action.outcome_mem {action : Action} {s s' : Store} {claim : Option (String × String)}
    (h : Accounts claim action.outcome s s') (hlost : lost s s' ≠ []) : action.outcome ∈
      [some "delivered",some "expired",some "superseded",some "subject_erased"] := by
  cases hsome : action.outcome with
  | none => exact absurd (h.quiet hsome) hlost
  | some outcome => cases action <;> simp [Action.outcome] at hsome <;> simp [← hsome]

/-- The payloads of the deliveries, over every run from a store that the schema admits. -/
theorem payload_destroyed_once {localeCompare : String → String → ℤ} {s : Store} (hs : Schema s)
    (hlinked : Linked s) {actions : List Action} {w : World}
    (hrun : World.run localeCompare (start s) actions = some w) :
    (∀ action w', w.step localeCompare action = some w' →
      destructions w'.store.facts = destructions w.store.facts ++
        (lost w.store w'.store).map (·,action.outcome) ∧
      (lost w.store w'.store ≠ [] → action.outcome ∈
        [some "delivered",some "expired",some "superseded",some "subject_erased"])) ∧
    (World.losses localeCompare (start s) actions).Nodup ∧
    (∀ deliveryId worker, (∀ row ∈ w.store.deliveries, heldBy deliveryId worker row = false) →
      (∀ now, completeRevocationDelivery w.store deliveryId worker now = .ok (false,w.store)) ∧
      (∀ now failureClass, recordRevocationDeliveryFailure w.store deliveryId worker now
        failureClass = (false,w.store)) ∧
      (∀ now, renewRevocationDeliveryClaim w.store deliveryId worker now = (false,w.store)) ∧
      ∀ later w', World.run localeCompare w later = some w' →
        (∃ row ∈ w'.store.deliveries, heldBy deliveryId worker row = true) →
        ∃ before action after between, later = before ++ action :: after ∧
          World.run localeCompare w before = some between ∧
          between.claim action = some (deliveryId,worker)) ∧
    (∀ deliveryId, deliveryId ∉ w.store.deliveries.map (·.id) → ∀ worker,
      ∀ row ∈ w.store.deliveries, heldBy deliveryId worker row = false) ∧
    (∀ input locked delivery store,
      claimRevocationDelivery w.store input locked = (some delivery,store) →
      ∀ worker ≠ input.claimedBy, ∀ row ∈ store.deliveries,
        heldBy delivery.id worker row = false) ∧
    (∀ deliveryId worker now,
      completeRevocationDelivery w.store deliveryId worker now ≠ .error connectionMissing) ∧
    ∀ workspaceId externalSubjectId auditReference now,
      eraseExternalSubject w.store workspaceId externalSubjectId auditReference now ≠
        .error connectionMissing := by
  have hstart : Kept (start s) := ⟨sound_start hs,hlinked⟩
  have h := kept_run hstart hrun
  refine ⟨?_,losses_nodup hstart,?_,fun _ => removed_unheld,fun _ _ _ _ hclaim _ =>
    claimDelivery_unheld hclaim,completeDelivery_present h.linked,erase_present h.linked⟩
  · intro action w' hstep
    have ha := step_accounts h.sound h.linked hstep
    exact ⟨ha.ledger,Action.outcome_mem ha⟩
  · intro deliveryId worker hunheld
    exact ⟨fun _ => completeDelivery_unheld hunheld,fun _ _ => updateDelivery_unheld hunheld,
      fun _ => updateDelivery_unheld hunheld,fun _ _ hlater => held_run h hlater hunheld⟩

/-- The connection of `ann` is authorized and revoked, and a worker has claimed the revocation. -/
def annRevoked : List Action :=
  annRun ++ [.revoke annOwner "new" ⟨1,some "revocation",some (encryptCredential "token"
      ⟨"w","e",some "u","revocation","google:revocation"⟩),800,70⟩,
    .claimDelivery ⟨"worker",80,90⟩ []]

/-- The delivery of the revocation destroys its payload, with the one fact about it. -/
theorem payload_destroyed_delivered : ∃ w w',
    World.run compareText (start freshRequest) annRevoked = some w ∧
    w.step compareText (.completeDelivery "revocation" "worker" 85) = some w' ∧
    destructions w.store.facts = [] ∧
    destructions w'.store.facts = [("new",some "delivered")] ∧
    World.losses compareText (start freshRequest) annRevoked = ["staged"] := by
  have hrun : World.run compareText (start freshRequest) annRevoked = some _ := rfl
  have hlinked : Linked (start freshRequest).store := fun _ hmem => by cases hmem
  have hledger := (payload_destroyed_once freshRequest_schema hlinked hrun).1
    (.completeDelivery "revocation" "worker" 85) _ rfl
  exact ⟨_,_,hrun,rfl,rfl,hledger.1,rfl⟩

end Linea.Connections
