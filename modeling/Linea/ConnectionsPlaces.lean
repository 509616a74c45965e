import Linea.ConnectionsMoves

/-! Where a staged credential is. One invariant of the world carries the whole life cycle; each
action is reduced to what it may do (`Effect`), and the invariant and the facts about runs are
derived from that alone. -/
namespace Linea.Connections
open Linea.Tables
open Linea.Consent (ConnectionStatus)

/-- The checks and unique indexes of the schema. -/
structure Schema (s : Store) : Prop where
  connectionKey : (s.connections.map (·.id)).Nodup
  holds : ∀ connection ∈ s.connections, HoldsWhileActive connection
  slot : ∀ connection ∈ s.connections, ∀ other ∈ s.connections, connection.status ≠ .revoked →
    other.status ≠ .revoked → SameSlot connection other → connection.id = other.id
  requestKey : (s.requests.map (·.id)).Nodup
  deliveryKey : (s.deliveries.map (·.id)).Nodup
  payload : ∀ delivery ∈ s.deliveries, PayloadUntilDelivered delivery

/-- A credential that was staged with the text `plaintext` is where its delivery says. -/
structure Placed (w : World) (id plaintext : String) : Prop where
  used : id ∈ w.used
  somewhere : id ∈ w.store.deliveries.map (·.id) ∨ (w.ending id).isSome
  pending : ∀ delivery ∈ w.store.deliveries, delivery.id = id → Undelivered delivery →
    delivery.credentialEncrypted.map (·.plaintext) = some plaintext
  installed : ∀ connectionId version, w.ending id = some (.installed connectionId version) →
    ∃ connection ∈ w.store.connections, connection.id = connectionId ∧
      version ≤ connection.credentialVersion ∧
      (connection.status = .active → connection.credentialVersion = version →
        connection.credentialEncrypted.map (·.plaintext) = some plaintext)

structure Sound (w : World) : Prop where
  schema : Schema w.store
  requestUsed : ∀ request ∈ w.store.requests, request.id ∈ w.used
  deliveryUsed : ∀ delivery ∈ w.store.deliveries, delivery.id ∈ w.used
  claimedOnce : w.claimed.Nodup
  claimed : ∀ id ∈ w.claimed, id ∈ w.used ∧
    ∀ request ∈ w.store.requests, request.id = id → request.claimedAt.isSome
  endedOnce : w.ended.Nodup
  ended : ∀ id ∈ w.ended, id ∈ w.used ∧
    ∀ request ∈ w.store.requests, request.id = id → request.completedAt.isSome
  present : ∀ delivery ∈ w.store.deliveries, w.ending delivery.id = none
  endingUsed : ∀ id, (w.ending id).isSome → id ∈ w.used
  placed : ∀ id plaintext, w.staged id = some plaintext → Placed w id plaintext
  attempts : ∀ attempt ∈ w.attempts, ∀ id credential, attempt.phase = .staged id credential →
    w.staged id = some credential.plaintext

/-- A delivery whose row was deleted by the step. -/
def Deleted (w w' : World) (id : String) : Prop :=
  id ∈ w.store.deliveries.map (·.id) ∧ id ∉ w'.store.deliveries.map (·.id)

structure Effect (w w' : World) : Prop where
  connections : Evolves Connection.id ConnectionMoves (fun _ => False) (NewConnection w.store)
    w.store.connections w'.store.connections
  requests : Evolves AuthorizationRequest.id RequestMoves (fun _ => True)
    (fun request => request.id ∉ w.used ∧ request.id ∈ w'.used) w.store.requests w'.store.requests
  deliveries : Evolves RevocationDelivery.id DeliveryMoves Undelivered
    (fun delivery => (delivery.id ∉ w.used ∧ delivery.id ∈ w'.used) ∧ PayloadUntilDelivered delivery)
    w.store.deliveries w'.store.deliveries
  used : ∀ id ∈ w.used, id ∈ w'.used
  claimed : w'.claimed = w.claimed ∨ ∃ request ∈ w.store.requests,
    w'.claimed = w.claimed ++ [request.id] ∧ request.claimedAt = none ∧
      ∀ after ∈ w'.store.requests, after.id = request.id → after.claimedAt.isSome
  ended : w'.ended = w.ended ∨ ∃ request ∈ w.store.requests,
    w'.ended = w.ended ++ [request.id] ∧ request.completedAt = none ∧
      ∀ after ∈ w'.store.requests, after.id = request.id → after.completedAt.isSome
  staged : ∀ id, w'.staged id = w.staged id ∨
    (id ∉ w.used ∧ ∃ delivery ∈ w'.store.deliveries, delivery.id = id ∧
      w'.staged id = delivery.credentialEncrypted.map (·.plaintext))
  kept : ∀ id, ¬ Deleted w w' id → w'.ending id = w.ending id
  deleted : ∀ id, Deleted w w' id → (w'.ending id).isSome
  installed : ∀ id, Deleted w w' id → ∀ connectionId version plaintext,
    w'.ending id = some (.installed connectionId version) → w.staged id = some plaintext →
      ∃ connection ∈ w'.store.connections, connection.id = connectionId ∧
        connection.credentialVersion = version ∧
        connection.credentialEncrypted.map (·.plaintext) = some plaintext
  attempts : ∀ attempt ∈ w'.attempts, ∀ id credential, attempt.phase = .staged id credential →
    (∃ before ∈ w.attempts, before.phase = .staged id credential) ∨
      w'.staged id = some credential.plaintext

section Effect
variable {w w' : World}

lemma SameSlot.before {connection other connection' other' : Connection}
    (h : SameSlot connection' other') (hmoves : ConnectionMoves connection connection')
    (hmoves' : ConnectionMoves other other') (hlive : connection'.status ≠ .revoked)
    (hlive' : other'.status ≠ .revoked) : SameSlot connection other := by
  refine ⟨?_,?_,?_,?_,?_,?_⟩
  · rw [← hmoves.workspaceId,← hmoves'.workspaceId]
    exact h.workspaceId
  · rw [← hmoves.environmentId,← hmoves'.environmentId]
    exact h.environmentId
  · rw [← hmoves.externalSubjectId,← hmoves'.externalSubjectId]
    exact h.externalSubjectId
  · rw [← hmoves.externalSubjectId]
    exact h.personal
  · rw [← hmoves.provider,← hmoves'.provider]
    exact h.provider
  · rw [← hmoves.providerAccountId hlive,← hmoves'.providerAccountId hlive']
    exact h.providerAccountId

lemma SameSlot.symm {connection other : Connection} (h : SameSlot connection other) :
    SameSlot other connection :=
  ⟨h.workspaceId.symm,h.environmentId.symm,h.externalSubjectId.symm,
    h.externalSubjectId ▸ h.personal,h.provider.symm,h.providerAccountId.symm⟩

/-- A new connection takes a place that no live one had. -/
lemma SameSlot.new {connection other other' : Connection} {s : Store}
    (hnew : NewConnection s connection) (hother : other ∈ s.connections)
    (hmoves : ConnectionMoves other other') (hlive : other'.status ≠ .revoked) :
    ¬ SameSlot other' connection := by
  intro hslot
  have hbefore : other.status ≠ .revoked := fun hrevoked => hlive (hmoves.revoked hrevoked)
  have hconnection : connection.status ≠ .revoked := by
    rw [hnew.active]
    exact ConnectionStatus.noConfusion
  exact hnew.slot other hother hbefore
    (hslot.before hmoves (.refl connection) hlive hconnection)

lemma Effect.schema (he : Effect w w') (h : Schema w.store) : Schema w'.store where
  connectionKey := he.connections.nodup h.connectionKey
  requestKey := he.requests.nodup h.requestKey
  deliveryKey := he.deliveries.nodup h.deliveryKey
  holds := by
    intro connection hconnection
    rcases he.connections.row connection hconnection with ⟨before,hbefore,-,hmoves⟩ | ⟨-,hnew⟩
    · exact hmoves.holds (h.holds before hbefore)
    · exact iff_of_true hnew.holds hnew.active
  payload := by
    intro delivery hdelivery
    rcases he.deliveries.row delivery hdelivery with ⟨before,hbefore,-,hmoves⟩ | ⟨-,hnew⟩
    · exact hmoves.payload (h.payload before hbefore)
    · exact hnew.2
  slot := by
    intro connection hconnection other hother hlive hlive' hslot
    rcases he.connections.row connection hconnection with ⟨before,hbefore,hid,hmoves⟩ | ⟨hfresh,hnew⟩
    · rcases he.connections.row other hother with ⟨before',hbefore',hid',hmoves'⟩ | ⟨hfresh',hnew'⟩
      · rw [hid,hid']
        exact h.slot before hbefore before' hbefore'
          (fun hrevoked => hlive (hmoves.revoked hrevoked))
          (fun hrevoked => hlive' (hmoves'.revoked hrevoked))
          (hslot.before hmoves hmoves' hlive hlive')
      · exact absurd hslot (SameSlot.new hnew' hbefore hmoves hlive)
    · rcases he.connections.row other hother with ⟨before',hbefore',hid',hmoves'⟩ | ⟨hfresh',hnew'⟩
      · exact absurd hslot.symm (SameSlot.new hnew hbefore' hmoves' hlive')
      · rw [he.connections.single connection hconnection other hother hfresh hfresh']

/-- A log that grows by the identifier of a request that was still open and then is done for good
never holds an identifier twice. -/
lemma Effect.once (he : Effect w w') (h : Sound w) (done : AuthorizationRequest → Option ℕ)
    (hdone : ∀ before after, RequestMoves before after → (done before).isSome → (done after).isSome)
    {log log' : List String} (hnodup : log.Nodup)
    (hlog : ∀ id ∈ log, id ∈ w.used ∧
      ∀ request ∈ w.store.requests, request.id = id → (done request).isSome)
    (hgrows : log' = log ∨ ∃ request ∈ w.store.requests, log' = log ++ [request.id] ∧
      done request = none ∧
      ∀ after ∈ w'.store.requests, after.id = request.id → (done after).isSome) :
    log'.Nodup ∧ ∀ id ∈ log', id ∈ w'.used ∧
      ∀ request ∈ w'.store.requests, request.id = id → (done request).isSome := by
  have hold : ∀ id ∈ log, id ∈ w'.used ∧
      ∀ request ∈ w'.store.requests, request.id = id → (done request).isSome := by
    intro id hid
    obtain ⟨hused,hrows⟩ := hlog id hid
    refine ⟨he.used id hused,fun request hrequest hrid => ?_⟩
    rcases he.requests.row request hrequest with ⟨before,hbefore,hkey,hmoves⟩ | ⟨-,hfresh,-⟩
    · exact hdone before request hmoves (hrows before hbefore (hkey.symm.trans hrid))
    · exact absurd (hrid ▸ hused) hfresh
  rcases hgrows with rfl | ⟨request,hrequest,rfl,hopen,hafter⟩
  · exact ⟨hnodup,hold⟩
  · refine ⟨?_,?_⟩
    · refine List.nodup_append.mpr ⟨hnodup,List.nodup_singleton _,?_⟩
      intro id hid id' hid' heq
      rw [List.mem_singleton] at hid'
      have hsome := (hlog id hid).2 request hrequest (by rw [heq,hid'])
      simp [hopen] at hsome
    · intro id hid
      rcases List.mem_append.mp hid with hid | hid
      · exact hold id hid
      · rw [List.mem_singleton.mp hid]
        exact ⟨he.used _ (h.requestUsed request hrequest),hafter⟩

lemma Effect.deliveryUsed (he : Effect w w') (h : Sound w) :
    ∀ delivery ∈ w'.store.deliveries, delivery.id ∈ w'.used := by
  intro delivery hdelivery
  rcases he.deliveries.row delivery hdelivery with ⟨before,hbefore,hid,-⟩ | ⟨-,hnew,-⟩
  · rw [hid]
    exact he.used _ (h.deliveryUsed before hbefore)
  · exact hnew.2

lemma not_deleted {id : String} (h : id ∈ w'.store.deliveries.map (·.id)) : ¬ Deleted w w' id :=
  fun hdeleted => hdeleted.2 h

/-- A delivery that is still in the table has not ended. -/
lemma Effect.present (he : Effect w w') (h : Sound w) :
    ∀ delivery ∈ w'.store.deliveries, w'.ending delivery.id = none := by
  intro delivery hdelivery
  rw [he.kept _ (not_deleted (List.mem_map_of_mem hdelivery))]
  rcases he.deliveries.row delivery hdelivery with ⟨before,hbefore,hid,-⟩ | ⟨-,hnew,-⟩
  · rw [hid]
    exact h.present before hbefore
  · by_contra hsome
    exact hnew.1 (h.endingUsed _ (Option.isSome_iff_ne_none.mpr hsome))

/-- A credential that was installed stays in its connection until it is replaced there. -/
lemma Effect.keepsInstalled (he : Effect w w') (h : Sound w) {connection : Connection}
    {version : ℕ} {plaintext : String} (hconnection : connection ∈ w.store.connections)
    (hversion : version ≤ connection.credentialVersion)
    (hcredential : connection.status = .active → connection.credentialVersion = version →
      connection.credentialEncrypted.map (·.plaintext) = some plaintext) :
    ∃ after ∈ w'.store.connections, after.id = connection.id ∧
      version ≤ after.credentialVersion ∧
      (after.status = .active → after.credentialVersion = version →
        after.credentialEncrypted.map (·.plaintext) = some plaintext) := by
  obtain ⟨after,hafter,hid,hmoves⟩ := (he.connections.kept connection hconnection).resolve_right id
  refine ⟨after,hafter,hid,hversion.trans hmoves.version,fun hactive hsame => ?_⟩
  have hunchanged : connection.credentialVersion = version :=
    le_antisymm (hsame ▸ hmoves.version) hversion
  have hkept := hmoves.credential hactive (hsame.trans hunchanged.symm)
  have hbefore : connection.status = .active := by
    refine (h.schema.holds connection hconnection).mp ?_
    rw [← hkept]
    exact (hmoves.holds (h.schema.holds connection hconnection)).mpr hactive
  rw [hkept]
  exact hcredential hbefore hunchanged

lemma Effect.placedBefore (he : Effect w w') (h : Sound w) {id plaintext : String}
    (hstaged : w.staged id = some plaintext) : Placed w' id plaintext := by
  obtain ⟨hused,hsomewhere,hpending,hinstalled⟩ := h.placed id plaintext hstaged
  refine ⟨he.used id hused,?_,?_,?_⟩
  · by_cases hpresent : id ∈ w'.store.deliveries.map (·.id)
    · exact .inl hpresent
    · right
      by_cases hbefore : id ∈ w.store.deliveries.map (·.id)
      · exact he.deleted id ⟨hbefore,hpresent⟩
      · rw [he.kept id fun hdeleted => hbefore hdeleted.1]
        exact hsomewhere.resolve_left hbefore
  · intro delivery hdelivery hid hundelivered
    rcases he.deliveries.row delivery hdelivery with ⟨before,hbefore,hkey,hmoves⟩ | ⟨-,hnew,-⟩
    · rw [hmoves.credential hundelivered]
      exact hpending before hbefore (hkey.symm.trans hid) (hmoves.undelivered hundelivered)
    · exact absurd (hid ▸ hused) hnew.1
  · intro connectionId version hending
    by_cases hdeleted : Deleted w w' id
    · obtain ⟨connection,hmem,hid,hversion,hcredential⟩ :=
        he.installed id hdeleted connectionId version plaintext hending hstaged
      exact ⟨connection,hmem,hid,hversion.ge,fun _ _ => hcredential⟩
    · rw [he.kept id hdeleted] at hending
      obtain ⟨connection,hmem,rfl,hversion,hcredential⟩ := hinstalled connectionId version hending
      exact he.keepsInstalled h hmem hversion hcredential

lemma Effect.placedNow (he : Effect w w') (h : Sound w) {id plaintext : String}
    {delivery : RevocationDelivery} (hfresh : id ∉ w.used)
    (hdelivery : delivery ∈ w'.store.deliveries) (hid : delivery.id = id)
    (hcredential : delivery.credentialEncrypted.map (·.plaintext) = some plaintext) :
    Placed w' id plaintext := by
  have hpresent : id ∈ w'.store.deliveries.map (·.id) := List.mem_map.mpr ⟨delivery,hdelivery,hid⟩
  refine ⟨hid ▸ he.deliveryUsed h delivery hdelivery,.inl hpresent,?_,?_⟩
  · intro other hother hid' _
    rw [List.inj_on_of_nodup_map (he.schema h.schema).deliveryKey hother hdelivery
      (hid'.trans hid.symm)]
    exact hcredential
  · intro connectionId version hending
    rw [he.kept id (not_deleted hpresent)] at hending
    exact absurd (h.endingUsed id (by simp [hending])) hfresh

/-- Whatever an action may do keeps the invariant. -/
lemma Effect.sound (he : Effect w w') (h : Sound w) : Sound w' := by
  obtain ⟨hclaimedOnce,hclaimed⟩ := he.once h (·.claimedAt)
    (fun _ _ hmoves hsome => by rw [hmoves.claimedAt hsome]; exact hsome)
    h.claimedOnce h.claimed he.claimed
  obtain ⟨hendedOnce,hended⟩ := he.once h (·.completedAt)
    (fun _ _ hmoves hsome => by rw [hmoves.completedAt hsome]; exact hsome)
    h.endedOnce h.ended he.ended
  refine ⟨he.schema h.schema,?_,he.deliveryUsed h,hclaimedOnce,hclaimed,hendedOnce,hended,
    he.present h,?_,?_,?_⟩
  · intro request hrequest
    rcases he.requests.row request hrequest with ⟨before,hbefore,hid,-⟩ | ⟨-,-,hused⟩
    · rw [hid]
      exact he.used _ (h.requestUsed before hbefore)
    · exact hused
  · intro id hsome
    by_cases hdeleted : Deleted w w' id
    · obtain ⟨delivery,hdelivery,rfl⟩ := List.mem_map.mp hdeleted.1
      exact he.used _ (h.deliveryUsed delivery hdelivery)
    · rw [he.kept id hdeleted] at hsome
      exact he.used _ (h.endingUsed id hsome)
  · intro id plaintext hstaged
    rcases he.staged id with hsame | ⟨hfresh,delivery,hdelivery,hid,hnow⟩
    · exact he.placedBefore h (hsame ▸ hstaged)
    · exact he.placedNow h hfresh hdelivery hid (hnow ▸ hstaged)
  · intro attempt hattempt id credential hphase
    rcases he.attempts attempt hattempt id credential hphase with ⟨before,hbefore,hphase'⟩ | hnow
    · have hstaged := h.attempts before hbefore id credential hphase'
      rcases he.staged id with hsame | ⟨hfresh,-⟩
      · rw [hsame,hstaged]
      · exact absurd (h.placed id _ hstaged).used hfresh
    · exact hnow

/-- An action that deletes no delivery. -/
lemma Effect.keeping
    (hstore : StoreEvolves (fun _ => False) (fun delivery =>
      (delivery.id ∉ w.used ∧ delivery.id ∈ w'.used) ∧ PayloadUntilDelivered delivery)
        w.store w'.store)
    (hused : ∀ id ∈ w.used, id ∈ w'.used)
    (hclaimed : w'.claimed = w.claimed ∨ ∃ request ∈ w.store.requests,
      w'.claimed = w.claimed ++ [request.id] ∧ request.claimedAt = none ∧
        ∀ after ∈ w'.store.requests, after.id = request.id → after.claimedAt.isSome)
    (hended : w'.ended = w.ended ∨ ∃ request ∈ w.store.requests,
      w'.ended = w.ended ++ [request.id] ∧ request.completedAt = none ∧
        ∀ after ∈ w'.store.requests, after.id = request.id → after.completedAt.isSome)
    (hstaged : ∀ id, w'.staged id = w.staged id ∨
      (id ∉ w.used ∧ ∃ delivery ∈ w'.store.deliveries, delivery.id = id ∧
        w'.staged id = delivery.credentialEncrypted.map (·.plaintext)))
    (hending : w'.ending = w.ending)
    (hattempts : ∀ attempt ∈ w'.attempts, ∀ id credential, attempt.phase = .staged id credential →
      (∃ before ∈ w.attempts, before.phase = .staged id credential) ∨
        w'.staged id = some credential.plaintext) : Effect w w' := by
  have hkept : ∀ id, ¬ Deleted w w' id := by
    rintro id ⟨hbefore,hafter⟩
    obtain ⟨delivery,hdelivery,rfl⟩ := List.mem_map.mp hbefore
    obtain ⟨after,hmem,hid,-⟩ := (hstore.deliveries.kept delivery hdelivery).resolve_right id
    exact hafter (List.mem_map.mpr ⟨after,hmem,hid⟩)
  exact
    { connections := hstore.connections
      requests := hstore.requests.mono (fun _ _ => id) (fun _ => id) fun _ => False.elim
      deliveries := hstore.deliveries.mono (fun _ _ => id) (fun _ => False.elim) fun _ => id
      used := hused
      claimed := hclaimed
      ended := hended
      staged := hstaged
      kept := fun id _ => by rw [hending]
      deleted := fun id hdeleted => absurd hdeleted (hkept id)
      installed := fun id hdeleted => absurd hdeleted (hkept id)
      attempts := hattempts }

/-- An action that deletes deliveries and inserts none. -/
lemma Effect.settling {store : Store} {ending : String → Ending}
    (hstore : StoreEvolves Undelivered (fun _ => False) w.store store)
    (hw' : w'.store = store) (hending : w'.ending = (w.settle store ending).ending)
    (hused : w'.used = w.used) (hclaimed : w'.claimed = w.claimed) (hstaged : w'.staged = w.staged)
    (hended : w'.ended = w.ended ∨ ∃ request ∈ w.store.requests,
      w'.ended = w.ended ++ [request.id] ∧ request.completedAt = none ∧
        ∀ after ∈ store.requests, after.id = request.id → after.completedAt.isSome)
    (hinstalled : ∀ id, Deleted w w' id → ∀ connectionId version plaintext,
      ending id = .installed connectionId version → w.staged id = some plaintext →
        ∃ connection ∈ store.connections, connection.id = connectionId ∧
          connection.credentialVersion = version ∧
          connection.credentialEncrypted.map (·.plaintext) = some plaintext)
    (hattempts : ∀ attempt ∈ w'.attempts, ∀ id credential, attempt.phase = .staged id credential →
      ∃ before ∈ w.attempts, before.phase = .staged id credential) : Effect w w' := by
  subst hw'
  have hdeleted : ∀ id, Deleted w w' id → w'.ending id = some (ending id) := by
    intro id hdeleted
    rw [hending]
    exact if_pos hdeleted
  exact
    { connections := hstore.connections
      requests := hstore.requests.mono (fun _ _ => id) (fun _ => id) fun _ => False.elim
      deliveries := hstore.deliveries.mono (fun _ _ => id) (fun _ => id) fun _ => False.elim
      used := fun id hid => hused ▸ hid
      claimed := .inl hclaimed
      ended := hended
      staged := fun id => .inl (by rw [hstaged])
      kept := fun id hkept => by
        rw [hending]
        exact if_neg hkept
      deleted := fun id h => by simp [hdeleted id h]
      installed := fun id h connectionId version plaintext hinst => by
        rw [hdeleted id h,Option.some.injEq] at hinst
        exact hinstalled id h connectionId version plaintext hinst
      attempts := fun attempt hattempt id credential hphase =>
        .inl (hattempts attempt hattempt id credential hphase) }

/-- An action on the tables only. -/
lemma Effect.ofStore {store : Store}
    (hstore : StoreEvolves (fun _ => False) (fun _ => False) w.store store) :
    Effect w { w with store } := by
  refine .keeping ⟨hstore.connections,hstore.requests,?_⟩ (fun _ => id) (.inl rfl) (.inl rfl)
    (fun _ => .inl rfl) rfl fun attempt hattempt _ _ hphase => .inl ⟨attempt,hattempt,hphase⟩
  exact hstore.deliveries.mono (fun _ _ => id) (fun _ => id) fun _ => False.elim

lemma committed_evolves {α : Type} {gone newDelivery : RevocationDelivery → Prop} {s : Store}
    {answer : Except String (α × Store)}
    (h : ∀ result s', answer = .ok (result,s') → StoreEvolves gone newDelivery s s') :
    StoreEvolves gone newDelivery s (committed s answer) := by
  cases answer with
  | error => exact .refl
  | ok result => exact h result.1 result.2 rfl

/-! ## One action at a time -/

lemma createRequest_effect {request : AuthorizationRequest} (h : Sound w)
    (hfresh : request.id ∉ w.used) :
    Effect w { w with
      store := { w.store with requests := w.store.requests ++ [request] }
      used := request.id :: w.used } where
  connections := .refl .refl
  requests := by
    refine .insert .refl (fun hmem => hfresh ?_) ⟨hfresh,List.mem_cons_self⟩
    obtain ⟨other,hother,hid⟩ := List.mem_map.mp hmem
    exact hid ▸ h.requestUsed other hother
  deliveries := .refl .refl
  used := fun _ => List.mem_cons_of_mem _
  claimed := .inl rfl
  ended := .inl rfl
  staged := fun _ => .inl rfl
  kept := fun _ _ => rfl
  deleted := fun _ hdeleted => absurd hdeleted.1 hdeleted.2
  installed := fun _ hdeleted => absurd hdeleted.1 hdeleted.2
  attempts := fun attempt hattempt _ _ hphase => .inl ⟨attempt,hattempt,hphase⟩

lemma claim_effect {input : ClaimAuthorizationInput} {request : AuthorizationRequest}
    {store : Store} (h : Sound w)
    (hclaim : claimConnectionAuthorizationRequest w.store input = (some request,store)) :
    Effect w { w with
      store
      attempts := w.attempts ++ [⟨request,input.now,.exchanging⟩]
      claimed := w.claimed ++ [request.id] } := by
  have hstore : store = (claimConnectionAuthorizationRequest w.store input).2 := by rw [hclaim]
  have hfound : ∃ row, w.store.requests.find? (claimable input) = some row ∧ row.id = request.id := by
    simp only [claimConnectionAuthorizationRequest,Prod.mk.injEq,Option.map_eq_some_iff] at hclaim
    obtain ⟨⟨row,hrow,rfl⟩,-⟩ := hclaim
    exact ⟨row,hrow,rfl⟩
  obtain ⟨row,hrow,hid⟩ := hfound
  have hguard := List.find?_some hrow
  have hopen : row.claimedAt = none := by
    simp only [claimable,Bool.and_eq_true] at hguard
    exact Option.isNone_iff_eq_none.mp hguard.1.1.2
  subst hstore
  refine .keeping (claim_evolves input) (fun _ => id) (.inr ⟨row,List.mem_of_find?_eq_some hrow,?_⟩)
    (.inl rfl) (fun _ => .inl rfl) rfl ?_
  · refine ⟨by rw [hid],hopen,fun after hafter hsame => ?_⟩
    obtain ⟨before,hbefore,rfl⟩ := List.mem_map.mp hafter
    have heq : before = row := by
      refine List.inj_on_of_nodup_map h.schema.requestKey hbefore (List.mem_of_find?_eq_some hrow) ?_
      split at hsame <;> exact hsame
    rw [heq,if_pos hguard]
    rfl
  · intro attempt hattempt id credential hphase
    rcases List.mem_append.mp hattempt with hattempt | hattempt
    · exact .inl ⟨attempt,hattempt,hphase⟩
    · rw [List.mem_singleton.mp hattempt] at hphase
      cases hphase

lemma stage_effect (input : StageInput) {store : Store} {i : ℕ} {request : AuthorizationRequest}
    {claimedAt : ℕ} {credential : ProviderCredential}
    (hfresh : input.id ∉ w.used)
    (hplain : input.credentialEncrypted.plaintext = credential.plaintext)
    (hstage : stageAuthorizationCredentialRevocation w.store input = .ok store) :
    Effect w { w with
      store
      attempts := w.attempts.set i ⟨request,claimedAt,.staged input.id credential⟩
      used := input.id :: w.used
      staged := Function.update w.staged input.id (some credential.plaintext) } := by
  obtain ⟨hkey,rfl⟩ := insertDelivery_ok hstage
  refine .keeping ⟨.refl .refl,.refl .refl,.insert .refl hkey
      ⟨⟨hfresh,List.mem_cons_self⟩,by simp [PayloadUntilDelivered]⟩⟩
    (fun _ => List.mem_cons_of_mem _) (.inl rfl) (.inl rfl) ?_ rfl ?_
  · intro id
    by_cases hid : id = input.id
    · subst hid
      refine .inr ⟨hfresh,_,List.mem_append_right _ List.mem_cons_self,rfl,?_⟩
      simp [hplain]
    · exact .inl (Function.update_of_ne hid ..)
  · intro attempt hattempt id other hphase
    rcases List.mem_or_eq_of_mem_set hattempt with hattempt | rfl
    · exact .inl ⟨attempt,hattempt,hphase⟩
    · cases hphase
      exact .inr (Function.update_self ..)

lemma fail_effect {i completedAt : ℕ} {attempt : Attempt} (h : Sound w) :
    Effect w { w with
      store := (failConnectionAuthorizationRequest w.store
        ⟨attempt.request.id,attempt.claimedAt,completedAt⟩).2
      attempts := w.attempts.eraseIdx i
      ended := if (failConnectionAuthorizationRequest w.store
        ⟨attempt.request.id,attempt.claimedAt,completedAt⟩).1 then w.ended ++ [attempt.request.id]
        else w.ended } := by
  refine .keeping (fail_evolves _) (fun _ => id) (.inl rfl) ?_ (fun _ => .inl rfl) rfl
    fun attempt hattempt _ _ hphase => .inl ⟨attempt,List.mem_of_mem_eraseIdx hattempt,hphase⟩
  cases hany : (failConnectionAuthorizationRequest w.store
      ⟨attempt.request.id,attempt.claimedAt,completedAt⟩).1 with
  | false => exact .inl rfl
  | true =>
    obtain ⟨row,hrow,hguard⟩ := List.any_eq_true.mp hany
    have hopen : row.id = attempt.request.id ∧ row.completedAt = none := by
      simp only [Bool.and_eq_true,decide_eq_true_eq] at hguard
      exact ⟨hguard.1.1,Option.isNone_iff_eq_none.mp hguard.2⟩
    refine .inr ⟨row,hrow,by simp [hopen.1],hopen.2,fun after hafter hsame => ?_⟩
    obtain ⟨before,hbefore,rfl⟩ := List.mem_map.mp hafter
    have heq : before = row := by
      refine List.inj_on_of_nodup_map h.schema.requestKey hbefore hrow ?_
      split at hsame <;> exact hsame
    rw [heq,if_pos hguard]
    rfl

lemma failing_attempts {i : ℕ} {attempt : Attempt} {id : String} {credential : ProviderCredential}
    {other : Attempt} (hother : other ∈ (w.failing i attempt).attempts)
    (hphase : other.phase = .staged id credential) :
    ∃ before ∈ w.attempts, before.phase = .staged id credential := by
  rcases List.mem_or_eq_of_mem_set hother with hother | rfl
  · exact ⟨other,hother,hphase⟩
  · cases hphase

/-- A completion has cancelled the delivery of the credential that it installed. -/
lemma installed_ending {store : Store} {input : CompleteAuthorizationInput} {connection : Connection}
    (h : Completed w.store store input connection) :
    ((w.settle store fun _ => .superseded).installed input.revocationDeliveryId connection).ending
      = (w.settle store fun id => if id = input.revocationDeliveryId then
          .installed connection.id connection.credentialVersion else .superseded).ending := by
  funext id
  by_cases hid : id = input.revocationDeliveryId
  · subst hid
    simp only [World.installed,World.settle,Function.update_self,if_true]
    rw [if_pos ⟨h.staged,h.cancelled⟩]
  · simp only [World.installed,World.settle,Function.update_of_ne hid,if_neg hid]

lemma complete_effect {localeCompare : String → String → ℤ} {i : ℕ} {attempt : Attempt}
    {credential : ProviderCredential} (input : CompleteAuthorizationInput) (h : Sound w)
    (hattempt : attempt ∈ w.attempts)
    (hphase : attempt.phase = .staged input.revocationDeliveryId credential)
    (hrequest : input.authorizationRequestId = attempt.request.id)
    (hplain : input.credentialPlaintext = credential.plaintext) :
    Effect w (w.complete localeCompare i attempt input.revocationDeliveryId input) := by
  unfold World.complete
  split
  case h_1 connection store hcomplete =>
    have hdone := complete_completed h.schema.connectionKey h.schema.deliveryKey
      h.schema.requestKey hcomplete
    refine .settling hdone.evolves rfl (installed_ending hdone) rfl rfl rfl ?_ ?_ ?_
    · obtain ⟨request,hmem,hid,hopen⟩ := hdone.claimed
      rw [← hrequest]
      refine .inr ⟨request,hmem,by rw [hid],hopen,?_⟩
      rw [hid]
      exact hdone.completed
    · intro id _ connectionId version plaintext hending hstaged
      split at hending
      case isFalse => cases hending
      case isTrue hown =>
        cases hending
        have hsame := h.attempts attempt hattempt _ credential hphase
        rw [← hown,hstaged,Option.some.injEq] at hsame
        exact ⟨connection,hdone.installed,rfl,rfl,by rw [hdone.credential,hplain,hsame]⟩
    · intro other hother id credential' hphase'
      exact ⟨other,List.mem_of_mem_eraseIdx hother,hphase'⟩
  case h_2 store hcomplete =>
    refine .settling (complete_invalid_evolves h.schema.deliveryKey hcomplete) rfl rfl rfl rfl rfl
      (.inl rfl) ?_ fun other hother id credential' hphase' => failing_attempts hother hphase'
    intro id _ connectionId version plaintext hending
    cases hending
  case h_3 =>
    exact .keeping .refl (fun _ => id) (.inl rfl) (.inl rfl) (fun _ => .inl rfl) rfl
      fun other hother id credential' hphase' => .inl (failing_attempts hother hphase')

/-- The effect of deleting deliveries with one and the same ending, which is not an installation. -/
lemma settle_effect {store : Store} {ending : Ending}
    (hstore : StoreEvolves Undelivered (fun _ => False) w.store store)
    (hending : ∀ connectionId version, ending ≠ .installed connectionId version) :
    Effect w (w.settle store fun _ => ending) :=
  .settling hstore rfl rfl rfl rfl rfl (.inl rfl)
    (fun _ _ connectionId version _ hinstalled => absurd hinstalled (hending connectionId version))
    fun attempt hattempt _ _ hphase => ⟨attempt,hattempt,hphase⟩

lemma revoke_effect {owner : ConnectionOwner} {connectionId : String} {input : RevokeInput}
    (hfresh : ∀ id, input.deliveryId = some id → id ∉ w.used) :
    Effect w { w with
      store := committed w.store (revokeConnection w.store owner connectionId input)
      used := input.deliveryId.toList ++ w.used } := by
  have hstore : StoreEvolves (fun _ => False) (RevokedDelivery input.deliveryId) w.store
      (committed w.store (revokeConnection w.store owner connectionId input)) :=
    committed_evolves fun _ _ => revoke_evolves
  refine .keeping ⟨hstore.connections,hstore.requests,?_⟩
    (fun _ hid => List.mem_append_right _ hid) (.inl rfl) (.inl rfl) (fun _ => .inl rfl) rfl
    fun attempt hattempt _ _ hphase => .inl ⟨attempt,hattempt,hphase⟩
  refine hstore.deliveries.mono (fun _ _ => id) (fun _ => id) fun delivery hnew => ?_
  exact ⟨⟨hfresh _ hnew.1,List.mem_append_left _ (by simp [hnew.1])⟩,hnew.2⟩

/-- Every action does no more than an effect. -/
lemma step_effect {localeCompare : String → String → ℤ} {action : Action} (h : Sound w)
    (hstep : w.step localeCompare action = some w') : Effect w w' := by
  cases action with
  | createRequest request =>
    simp only [World.step] at hstep
    split at hstep
    case isTrue => cases hstep
    case isFalse hfresh =>
      cases hstep
      exact createRequest_effect h fun hused => hfresh (.inl hused)
  | claim input =>
    simp only [World.step] at hstep
    split at hstep
    case h_1 =>
      cases hstep
      exact .ofStore .refl
    case h_2 request store hclaim =>
      cases hstep
      exact claim_effect h hclaim
  | stage i credential deliveryId now =>
    simp only [World.step] at hstep
    split at hstep
    case h_2 => cases hstep
    case h_1 request claimedAt hattempt =>
      split at hstep
      case isTrue => cases hstep
      case isFalse hfresh =>
        split at hstep
        case h_1 store hstage =>
          cases hstep
          exact stage_effect (stageInput request credential deliveryId now) hfresh rfl hstage
        case h_2 =>
          cases hstep
          exact .ofStore .refl
  | complete i connectionId actionFamilies requiredScopes now =>
    simp only [World.step] at hstep
    split at hstep
    case h_2 => cases hstep
    case h_1 request claimedAt deliveryId credential hattempt =>
      cases hstep
      exact complete_effect (completeInput _ deliveryId credential _ _ _ _) h
        (List.mem_of_getElem? hattempt) rfl rfl rfl
  | fail i completedAt =>
    simp only [World.step] at hstep
    split at hstep
    case h_2 => cases hstep
    case h_1 attempt hattempt =>
      cases hstep
      exact fail_effect h
  | crash i =>
    cases hstep
    exact .keeping .refl (fun _ => id) (.inl rfl) (.inl rfl) (fun _ => .inl rfl) rfl
      fun attempt hattempt _ _ hphase => .inl ⟨attempt,List.mem_of_mem_eraseIdx hattempt,hphase⟩
  | expireRequests now =>
    cases hstep
    exact .ofStore (expireRequests_evolves now)
  | rotate owner connectionId expected credential now =>
    cases hstep
    exact .ofStore (committed_evolves fun _ _ => rotate_evolves)
  | requireReauthorization owner connectionId expected now =>
    cases hstep
    exact .ofStore (committed_evolves fun _ _ => requireReauthorization_evolves)
  | revoke owner connectionId input =>
    simp only [World.step] at hstep
    split at hstep
    case isTrue => cases hstep
    case isFalse hfresh =>
      cases hstep
      refine revoke_effect fun id hid hused => hfresh ?_
      simp [hid,hused]
  | claimDelivery input locked =>
    cases hstep
    exact .ofStore (claimDelivery_evolves input locked)
  | renewDelivery deliveryId claimedBy claimExpiresAt =>
    cases hstep
    exact .ofStore (renewDelivery_evolves ..)
  | completeDelivery deliveryId claimedBy deliveredAt =>
    cases hstep
    exact .ofStore (committed_evolves fun _ _ => completeDelivery_evolves)
  | failDelivery deliveryId claimedBy retryAt failureClass =>
    cases hstep
    exact .ofStore (failDelivery_evolves ..)
  | expireDeliveries now =>
    cases hstep
    exact settle_effect (committed_evolves fun _ _ => expireDeliveries_evolves h.schema.deliveryKey)
      fun _ _ => Ending.noConfusion
  | erase workspaceId externalSubjectId auditReference now =>
    cases hstep
    exact settle_effect (committed_evolves fun _ _ =>
        erase_evolves h.schema.deliveryKey h.schema.payload) fun _ _ => Ending.noConfusion
  | changeAuthority environments subjects memberships sessions =>
    cases hstep
    exact .ofStore (.of_eq rfl rfl rfl)

end Effect

/-! ## Runs -/

section Run
variable {localeCompare : String → String → ℤ} {w w' : World}

def World.run (localeCompare : String → String → ℤ) : World → List Action → Option World
  | w, [] => some w
  | w, action :: actions => (w.step localeCompare action).bind (World.run localeCompare · actions)

/-- What every action keeps and what it relates are kept and related by every run. -/
lemma run_induction (rel : World → World → Prop) (hrefl : ∀ w, rel w w)
    (htrans : ∀ w₁ w₂ w₃, rel w₁ w₂ → rel w₂ w₃ → rel w₁ w₃)
    (heffect : ∀ w₁ w₂, Effect w₁ w₂ → rel w₁ w₂) {actions : List Action} :
    ∀ {w : World}, Sound w → World.run localeCompare w actions = some w' →
      Sound w' ∧ rel w w' := by
  induction actions with
  | nil =>
    intro w h hrun
    cases hrun
    exact ⟨h,hrefl _⟩
  | cons action actions ih =>
    intro w h hrun
    obtain ⟨next,hstep,hrest⟩ := Option.bind_eq_some_iff.mp hrun
    have heff := step_effect h hstep
    obtain ⟨hsound,hrel⟩ := ih (heff.sound h) hrest
    exact ⟨hsound,htrans _ _ _ (heffect _ _ heff) hrel⟩

lemma sound_start {s : Store} (h : Schema s) : Sound (start s) where
  schema := h
  requestUsed := fun request hrequest => List.mem_append_left _ (List.mem_map_of_mem hrequest)
  deliveryUsed := fun delivery hdelivery => List.mem_append_right _ (List.mem_map_of_mem hdelivery)
  claimedOnce := List.nodup_nil
  claimed := by simp [start]
  endedOnce := List.nodup_nil
  ended := by simp [start]
  present := fun _ _ => rfl
  endingUsed := by simp [start]
  placed := by simp [start]
  attempts := by simp [start]

lemma sound_run {actions : List Action} (h : Sound w)
    (hrun : World.run localeCompare w actions = some w') : Sound w' :=
  (run_induction (fun _ _ => True) (fun _ => trivial) (fun _ _ _ _ _ => trivial)
    (fun _ _ _ => trivial) h hrun).1

/-- A revoked connection stays where it is, revoked. -/
lemma revoked_run {actions : List Action} (h : Sound w)
    (hrun : World.run localeCompare w actions = some w') {connection : Connection}
    (hconnection : connection ∈ w.store.connections) (hrevoked : connection.status = .revoked) :
    ∃ after ∈ w'.store.connections, after.id = connection.id ∧ after.status = .revoked := by
  let revoked (w : World) (id : String) : Prop :=
    ∃ row ∈ w.store.connections, row.id = id ∧ row.status = .revoked
  have hstep : ∀ w₁ w₂, Effect w₁ w₂ → ∀ id, revoked w₁ id → revoked w₂ id := by
    rintro w₁ w₂ he id ⟨before,hbefore,rfl,hstatus⟩
    obtain ⟨after,hafter,hid,hmoves⟩ := (he.connections.kept before hbefore).resolve_right id
    exact ⟨after,hafter,hid,hmoves.revoked hstatus⟩
  obtain ⟨-,hrel⟩ := run_induction (fun w₁ w₂ => ∀ id, revoked w₁ id → revoked w₂ id)
    (fun _ _ => id) (fun _ _ _ h₁ h₂ id hid => h₂ id (h₁ id hid)) hstep h hrun
  exact hrel connection.id ⟨connection,hconnection,rfl,hrevoked⟩

end Run

/-- The places of a staged credential. -/
inductive Place
  | pending
  | revoked
  | ended (ending : Ending)
  deriving DecidableEq, Repr

/-- The credential staged under the delivery `id` is in an undelivered delivery, or has been
revoked by it, or the delivery has ended. One that was installed is in its connection until the
connection is given another credential or none. -/
def At (w : World) (id plaintext : String) : Place → Prop
  | .pending => ∃ delivery ∈ w.store.deliveries, delivery.id = id ∧ delivery.deliveredAt = none ∧
      delivery.credentialEncrypted.map (·.plaintext) = some plaintext
  | .revoked => ∃ delivery ∈ w.store.deliveries, delivery.id = id ∧
      delivery.deliveredAt.isSome ∧ delivery.credentialEncrypted = none
  | .ended (.installed connectionId version) =>
      w.ending id = some (.installed connectionId version) ∧
      ∃ connection ∈ w.store.connections, connection.id = connectionId ∧
        version ≤ connection.credentialVersion ∧
        (connection.status = .active → connection.credentialVersion = version →
          connection.credentialEncrypted.map (·.plaintext) = some plaintext)
  | .ended ending => w.ending id = some ending

section Places
variable {w : World} {id plaintext : String}

lemma At.ending {ending : Ending} (h : At w id plaintext (.ended ending)) :
    w.ending id = some ending := by
  cases ending with
  | installed => exact h.1
  | _ => exact h

lemma at_ended {ending : Ending} (h : Placed w id plaintext) (hending : w.ending id = some ending) :
    At w id plaintext (.ended ending) := by
  cases ending with
  | installed connectionId version => exact ⟨hending,h.installed connectionId version hending⟩
  | _ => exact hending

lemma exists_at (h : Sound w) (hstaged : w.staged id = some plaintext) :
    ∃ place, At w id plaintext place := by
  have hplaced := h.placed id plaintext hstaged
  rcases hplaced.somewhere with hpresent | hended
  · obtain ⟨delivery,hdelivery,hid⟩ := List.mem_map.mp hpresent
    cases hdelivered : delivery.deliveredAt with
    | none =>
      exact ⟨.pending,delivery,hdelivery,hid,hdelivered,
        hplaced.pending delivery hdelivery hid (by simp [Undelivered,hdelivered])⟩
    | some deliveredAt =>
      refine ⟨.revoked,delivery,hdelivery,hid,by simp [hdelivered],?_⟩
      have hpayload := h.schema.payload delivery hdelivery
      simpa [PayloadUntilDelivered,hdelivered] using hpayload
  · obtain ⟨ending,hending⟩ := Option.isSome_iff_exists.mp hended
    exact ⟨.ended ending,at_ended hplaced hending⟩

/-- A place where the delivery is still in the table says whether it was delivered; the other
places say that it has ended, which a delivery in the table has not. -/
lemma at_unique (h : Sound w) {place place' : Place} (hat : At w id plaintext place)
    (hat' : At w id plaintext place') : place = place' := by
  have hended : ∀ {ending : Ending} {delivery : RevocationDelivery},
      delivery ∈ w.store.deliveries → delivery.id = id →
      ¬ At w id plaintext (.ended ending) := by
    intro ending delivery hdelivery hid hat
    have hnone := h.present delivery hdelivery
    rw [hid,hat.ending] at hnone
    cases hnone
  have hapart : At w id plaintext .pending → ¬ At w id plaintext .revoked := by
    rintro ⟨delivery,hdelivery,hid,hnone,-⟩ ⟨other,hother,hid',hsome,-⟩
    rw [List.inj_on_of_nodup_map h.schema.deliveryKey hother hdelivery (hid'.trans hid.symm),
      hnone] at hsome
    cases hsome
  cases place with
  | pending =>
    cases place' with
    | pending => rfl
    | revoked => exact absurd hat' (hapart hat)
    | ended ending =>
      obtain ⟨delivery,hdelivery,hid,-⟩ := hat
      exact absurd hat' (hended hdelivery hid)
  | revoked =>
    cases place' with
    | pending => exact absurd hat (hapart hat')
    | revoked => rfl
    | ended ending =>
      obtain ⟨delivery,hdelivery,hid,-⟩ := hat
      exact absurd hat' (hended hdelivery hid)
  | ended ending =>
    cases place' with
    | pending =>
      obtain ⟨delivery,hdelivery,hid,-⟩ := hat'
      exact absurd hat (hended hdelivery hid)
    | revoked =>
      obtain ⟨delivery,hdelivery,hid,-⟩ := hat'
      exact absurd hat (hended hdelivery hid)
    | ended ending' =>
      have hsame := hat.ending
      rw [hat'.ending,Option.some.injEq] at hsame
      rw [hsame]

end Places

/-- No connection with this identifier has the version that the caller has read. -/
def Outdated (s : Store) (connectionId : String) (expectedCredentialVersion : ℕ) : Prop :=
  ∀ connection ∈ s.connections, connection.id = connectionId →
    connection.credentialVersion ≠ expectedCredentialVersion

section Outdated
variable {s : Store} {connectionId : String} {expected : ℕ}

lemma Outdated.guard (h : Outdated s connectionId expected) {owner : ConnectionOwner}
    {status : Connection → Bool} : ∀ connection ∈ s.connections,
      (ownedConnection owner connectionId connection && status connection &&
        connection.credentialVersion = expected) = false := by
  intro connection hconnection
  by_contra hguard
  simp only [Bool.not_eq_false,ownedConnection,Bool.and_eq_true,decide_eq_true_eq] at hguard
  exact h connection hconnection hguard.1.1.2 hguard.2

lemma rotate_outdated (h : Outdated s connectionId expected) (owner : ConnectionOwner)
    (credential : Ciphertext) (now : ℕ) :
    rotateConnectionCredential s owner connectionId expected credential now = .ok (none,s) :=
  updateConnection_none h.guard

lemma requireReauthorization_outdated (h : Outdated s connectionId expected)
    (owner : ConnectionOwner) (now : ℕ) :
    requireConnectionReauthorization s owner connectionId expected now = .ok (none,s) :=
  updateConnection_none h.guard

lemma revoke_outdated {input : RevokeInput}
    (h : Outdated s connectionId input.expectedCredentialVersion) (owner : ConnectionOwner) :
    ∃ result, revokeConnection s owner connectionId input = .ok (result,s) ∧
      (result = .conflict ∨ result = .notFound) := by
  refine ⟨if (getConnection s owner connectionId).isSome then .conflict else .notFound,?_,?_⟩
  · simp only [revokeConnection]
    rw [updateConnection_none h.guard]
    rfl
  · split
    · exact .inl rfl
    · exact .inr rfl

end Outdated

/-- The life cycle of connection credentials, from any store that the schema admits and over every
run: among the rest, a credential that a completion has installed has no delivery left that would
revoke it. -/
theorem connection_lifecycle {localeCompare : String → String → ℤ} {s : Store} (hs : Schema s)
    {actions : List Action} {w : World}
    (hrun : World.run localeCompare (start s) actions = some w) :
    (∀ connection ∈ w.store.connections,
      connection.credentialEncrypted.isSome ↔ connection.status = .active) ∧
    (∀ connection ∈ w.store.connections, ∀ other ∈ w.store.connections,
      connection.status ≠ .revoked → other.status ≠ .revoked → SameSlot connection other →
        connection = other) ∧
    (∀ later w', World.run localeCompare w later = some w' →
      ∀ connection ∈ w.store.connections, connection.status = .revoked →
        ∃ after ∈ w'.store.connections, after.id = connection.id ∧ after.status = .revoked) ∧
    w.claimed.Nodup ∧ w.ended.Nodup ∧
    (∀ connectionId expected, Outdated w.store connectionId expected →
      (∀ owner credential now, rotateConnectionCredential w.store owner connectionId expected
        credential now = .ok (none,w.store)) ∧
      (∀ owner now, requireConnectionReauthorization w.store owner connectionId expected now
        = .ok (none,w.store)) ∧
      ∀ owner input, input.expectedCredentialVersion = expected →
        ∃ result, revokeConnection w.store owner connectionId input = .ok (result,w.store) ∧
          (result = .conflict ∨ result = .notFound)) ∧
    (∀ id plaintext, w.staged id = some plaintext → ∃! place, At w id plaintext place) ∧
    ∀ id connectionId version, w.ending id = some (.installed connectionId version) →
      id ∉ w.store.deliveries.map (·.id) := by
  have h := sound_run (sound_start hs) hrun
  refine ⟨h.schema.holds,?_,?_,h.claimedOnce,h.endedOnce,?_,?_,?_⟩
  · intro connection hconnection other hother hlive hlive' hslot
    exact List.inj_on_of_nodup_map h.schema.connectionKey hconnection hother
      (h.schema.slot connection hconnection other hother hlive hlive' hslot)
  · intro later w' hlater connection hconnection hrevoked
    exact revoked_run h hlater hconnection hrevoked
  · intro connectionId expected houtdated
    refine ⟨rotate_outdated houtdated,requireReauthorization_outdated houtdated,?_⟩
    rintro owner input rfl
    exact revoke_outdated houtdated owner
  · intro id plaintext hstaged
    obtain ⟨place,hat⟩ := exists_at h hstaged
    exact ⟨place,hat,fun place' hat' => at_unique h hat' hat⟩
  · intro id connectionId version hinstalled hpresent
    obtain ⟨delivery,hdelivery,rfl⟩ := List.mem_map.mp hpresent
    rw [h.present delivery hdelivery] at hinstalled
    cases hinstalled

/-- An unclaimed request of the subject for the account `ann`, and nothing else. -/
def freshRequest : Store :=
  { switchedAccount [] with
    requests := [
      { toConnectionOwner := annOwner, id := "request", endUserSessionId := some "session"
        provider := "google", scopes := ["mail"], stateHash := "state"
        codeVerifierEncrypted := some "verifier", targetConnectionId := none
        resultConnectionId := none, outcome := none, expiresAt := 900, claimedAt := none
        completedAt := none, createdAt := 40 }]
    connections := []
    deliveries := [] }

def annCredential : ProviderCredential := ⟨"ann","ann",["mail"],"token"⟩

lemma freshRequest_schema : Schema freshRequest := by
  constructor <;> simp [freshRequest]

/-- The credential of `ann` is staged and installed. -/
def annRun : List Action :=
  [.claim ⟨"google","state",50⟩,.stage 0 annCredential "staged" 55,
    .complete 0 "new" ["send"] ["mail"] 60]

theorem connection_lifecycle_installed : ∃ w,
    World.run compareText (start freshRequest) annRun = some w ∧
    w.ending "staged" = some (.installed "new" 1) ∧
    w.store.connections.map (fun row => (row.id,row.status)) = [("new",.active)] ∧
    ∃! place, At w "staged" "token" place := by
  refine ⟨_,rfl,rfl,rfl,?_⟩
  have hrun : World.run compareText (start freshRequest) annRun = some _ := rfl
  exact (connection_lifecycle freshRequest_schema hrun).2.2.2.2.2.2.1 "staged" "token" rfl

end Linea.Connections
