import Linea.Push
import Linea.Runs

/-! Pollers of the push queue under every schedule. A poller claims a delivery, sends it and reports
the result, or claims a receipt and reports it; between any two of its steps others may take theirs,
and it may crash. -/
namespace Linea.Push

inductive Poller
  | idle
  | claimed (claim : ClaimedPushDelivery)
  | sent (claim : ClaimedPushDelivery)
  | checking (delivery : PushDelivery)

/-- `sends` is what has left the system: the delivery and the number of the attempt. -/
structure State where
  store : Store
  pollers : ℕ → Poller
  sends : List (String × ℕ)

inductive Act
  | create (newId : String → String → String) (now : ℤ) (created : List Notification)
  | register (id userId token : String)
  | unregister (userId token : String)
  | claim (poller : ℕ) (deliveryId : String) (now : ℤ)
  | send (poller : ℕ)
  | refuse (poller : ℕ) (now : ℤ)
  | ticket (poller : ℕ) (result : ExpoResult String) (now : ℤ)
  | claimReceipt (poller : ℕ) (deliveryId : String) (now : ℤ)
  | receipt (poller : ℕ) (result : ExpoResult (Option Unit)) (now : ℤ)
  | crash (poller : ℕ)

/-- The row of an id. -/
def look (store : Store) (id : String) : Option PushDelivery :=
  store.deliveries.find? fun delivery => delivery.id = id

namespace State

def become (s : State) (poller : ℕ) (phase : Poller) (store : Store) : State :=
  { s with store := store, pollers := Function.update s.pollers poller phase }

/-- The outcome of `claimPushDelivery` for its poller. -/
def claimAs (s : State) (poller : ℕ) : Store × Option ClaimedPushDelivery → State
  | (store, some claim) => s.become poller (.claimed claim) store
  | (store, none) => s.become poller .idle store

/-- `none` when the act is not possible. -/
def step (s : State) : Act → Option State
  | .create newId now created =>
    some { s with
      store := createPushDeliveries newId now created
        { s.store with notifications := s.store.notifications ++ created } }
  | .register id userId token =>
    some { s with store := registerPushDevice id userId token s.store }
  | .unregister userId token =>
    some { s with store := unregisterPushDevice userId token s.store }
  | .claim poller deliveryId now =>
    match s.pollers poller, look s.store deliveryId with
    | .idle, some candidate =>
      if claimableDelivery now candidate then
        some (s.claimAs poller (claimPushDelivery now candidate s.store))
      else none
    | _, _ => none
  | .send poller =>
    match s.pollers poller with
    | .claimed claim =>
      if (buildPushPayload claim.notification).isSome then
        some { s.become poller (.sent claim) s.store with
          sends := s.sends ++ [(claim.delivery.id, claim.delivery.attempts)] }
      else none
    | _ => none
  | .refuse poller now =>
    match s.pollers poller with
    | .claimed claim =>
      if (buildPushPayload claim.notification).isNone then
        some (s.become poller .idle (permanentlyFailPushDelivery claim.delivery
          "Notification is missing safe deep-link identifiers" false now s.store))
      else none
    | _ => none
  | .ticket poller result now =>
    match s.pollers poller with
    | .sent claim => some (s.become poller .idle (handleTicket claim.delivery now result s.store))
    | _ => none
  | .claimReceipt poller deliveryId now =>
    match s.pollers poller, look s.store deliveryId with
    | .idle, some candidate =>
      if claimableReceipt now candidate then
        some (s.become poller (.checking (claimPushReceipt now candidate s.store).2)
          (claimPushReceipt now candidate s.store).1)
      else none
    | _, _ => none
  | .receipt poller result now =>
    match s.pollers poller with
    | .checking delivery => some (s.become poller .idle (checkReceipt delivery now result s.store))
    | _ => none
  | .crash poller => some (s.become poller .idle s.store)

end State

/-- The delivery a poller is at work on, as it claimed it. -/
def Poller.held : Poller → Option PushDelivery
  | .idle => none
  | .claimed claim => some claim.delivery
  | .sent claim => some claim.delivery
  | .checking delivery => some delivery

/-! ## What a statement does to a row -/

/-- The same row up to its device, which may have been removed. -/
def Same (row row' : PushDelivery) : Prop :=
  ∃ device, row' = { row with deviceRegistrationId := device }

theorem Same.refl (row : PushDelivery) : Same row row := ⟨row.deviceRegistrationId, rfl⟩

theorem Same.trans {row row' row'' : PushDelivery} (h : Same row row') (h' : Same row' row'') :
    Same row row'' := by
  obtain ⟨_, rfl⟩ := h
  obtain ⟨device, rfl⟩ := h'
  exact ⟨device, rfl⟩

/-- Rows other than `touched` stay the same, and new ones have not been attempted. -/
structure Quiet (touched : Option String) (store store' : Store) : Prop where
  kept : ∀ id row, touched ≠ some id → look store id = some row →
    ∃ row', look store' id = some row' ∧ Same row row'
  back : ∀ id row', touched ≠ some id → look store' id = some row' →
    (∃ row, look store id = some row ∧ Same row row') ∨
      look store id = none ∧ row'.attempts = 0

theorem Quiet.refl {touched : Option String} {store : Store} : Quiet touched store store :=
  ⟨fun _ row _ h => ⟨row, h, .refl row⟩, fun _ row _ h => .inl ⟨row, h, .refl row⟩⟩

theorem Quiet.trans {touched : Option String} {store store' store'' : Store}
    (h : Quiet touched store store') (h' : Quiet touched store' store'') :
    Quiet touched store store'' := by
  refine ⟨fun id row hid hrow => ?_, fun id row'' hid hrow'' => ?_⟩
  · obtain ⟨row', hrow', hsame⟩ := h.kept id row hid hrow
    obtain ⟨row'', hrow'', hsame'⟩ := h'.kept id row' hid hrow'
    exact ⟨row'', hrow'', hsame.trans hsame'⟩
  · rcases h'.back id row'' hid hrow'' with ⟨row', hrow', hsame'⟩ | ⟨hnone, hattempts⟩
    · rcases h.back id row' hid hrow' with ⟨row, hrow, hsame⟩ | ⟨hnone, hattempts⟩
      · exact .inl ⟨row, hrow, hsame.trans hsame'⟩
      · obtain ⟨_, rfl⟩ := hsame'
        exact .inr ⟨hnone, hattempts⟩
    · refine .inr ⟨?_, hattempts⟩
      cases hrow : look store id with
      | none => rfl
      | some row =>
        obtain ⟨row', hrow', _⟩ := h.kept id row hid hrow
        rw [hnone] at hrow'
        cases hrow'

theorem Quiet.weaken {touched : Option String} {store store' : Store} (h : Quiet none store store') :
    Quiet touched store store' :=
  ⟨fun id row _ => h.kept id row (by simp), fun id row _ => h.back id row (by simp)⟩

/-- An update that keeps the ids, as the look-up sees it. -/
theorem find?_map_id {rows : List PushDelivery} {f : PushDelivery → PushDelivery} {id : String}
    (hid : ∀ row, (f row).id = row.id) :
    (rows.map f).find? (fun row => row.id = id) =
      (rows.find? fun row => row.id = id).map f := by
  rw [List.find?_map]
  congr 2
  funext row
  simp [hid]

theorem look_updateDelivery {store : Store} {id k : String} {set : PushDelivery → PushDelivery}
    (hid : ∀ row, row.id = id → (set row).id = id) :
    look (updateDelivery id set store) k =
      if k = id then (look store k).map set else look store k := by
  have hkeep : ∀ row : PushDelivery, (if row.id = id then set row else row).id = row.id := by
    intro row
    split
    · rename_i h
      rw [hid row h, h]
    · rfl
  rw [look, updateDelivery, find?_map_id hkeep]
  change (look store k).map _ = _
  cases hrow : look store k with
  | none => simp
  | some row =>
    have hk : row.id = k := by simpa [look] using List.find?_some hrow
    by_cases h : k = id
    · simp [h, hk]
    · simp [h, hk]

theorem quiet_updateDelivery {store : Store} {id : String} {set : PushDelivery → PushDelivery}
    (hid : ∀ row, row.id = id → (set row).id = id) :
    Quiet (some id) store (updateDelivery id set store) := by
  have hlook : ∀ k, some id ≠ some k → look (updateDelivery id set store) k = look store k := by
    intro k hk
    have hne : k ≠ id := fun h => hk (by rw [h])
    rw [look_updateDelivery hid, if_neg hne]
  refine ⟨fun k row hk hrow => ⟨row, ?_, .refl row⟩, fun k row hk hrow => .inl ⟨row, ?_, .refl row⟩⟩
  · rw [hlook k hk]
    exact hrow
  · rw [← hlook k hk]
    exact hrow

theorem look_deleteDevices (gone : PushDeviceRegistration → Bool) (store : Store) (id : String) :
    ∃ clear : PushDelivery → PushDelivery, (∀ row, Same row (clear row)) ∧
      look (deleteDevices gone store) id = (look store id).map clear := by
  refine ⟨fun delivery => if store.devices.any fun device =>
    gone device && delivery.deviceRegistrationId = some device.id
    then { delivery with deviceRegistrationId := none } else delivery, fun row => ?_, ?_⟩
  · dsimp only
    split
    · exact ⟨none, rfl⟩
    · exact .refl row
  · refine find?_map_id fun row => ?_
    split
    · rfl
    · rfl

theorem quiet_deleteDevices {gone : PushDeviceRegistration → Bool} {store : Store} :
    Quiet none store (deleteDevices gone store) := by
  refine ⟨fun id row _ hrow => ?_, fun id row' _ hrow' => ?_⟩
  · obtain ⟨clear, hsame, hlook⟩ := look_deleteDevices gone store id
    exact ⟨clear row, by rw [hlook, hrow, Option.map_some], hsame row⟩
  · obtain ⟨clear, hsame, hlook⟩ := look_deleteDevices gone store id
    rw [hlook, Option.map_eq_some_iff] at hrow'
    obtain ⟨row, hrow, rfl⟩ := hrow'
    exact .inl ⟨row, hrow, hsame row⟩

theorem quiet_of_deliveries {store store' : Store} (h : store'.deliveries = store.deliveries) :
    Quiet none store store' := by
  have hlook : ∀ id, look store' id = look store id := fun id => by rw [look, look, h]
  refine ⟨fun id row _ hrow => ⟨row, ?_, .refl row⟩, fun id row _ hrow => .inl ⟨row, ?_, .refl row⟩⟩
  · rw [hlook]
    exact hrow
  · rw [← hlook]
    exact hrow

/-- An insert never meets a row that is there. -/
theorem quiet_insertDelivery (store : Store) {row : PushDelivery} (h : row.attempts = 0) :
    Quiet none store { store with deliveries := insertDelivery store.deliveries row } := by
  by_cases hany : store.deliveries.any fun other => other.id = row.id ||
      (other.notificationId = row.notificationId &&
        other.deviceRegistrationId = row.deviceRegistrationId)
  · exact quiet_of_deliveries (by simp only [insertDelivery, hany, if_true])
  · have hlook : ∀ id, look { store with deliveries := insertDelivery store.deliveries row } id =
        (look store id).or (if row.id = id then some row else none) := by
      intro id
      simp only [look, insertDelivery, hany, Bool.false_eq_true, if_false, List.find?_append,
        List.find?_singleton, decide_eq_true_eq]
    refine ⟨fun id row' _ hrow' => ⟨row', ?_, .refl row'⟩, fun id row' _ hrow' => ?_⟩
    · rw [hlook, hrow', Option.some_or]
    · rw [hlook] at hrow'
      cases hrow : look store id with
      | some old =>
        rw [hrow, Option.some_or, Option.some.injEq] at hrow'
        exact .inl ⟨old, rfl, hrow' ▸ .refl old⟩
      | none =>
        rw [hrow, Option.none_or] at hrow'
        split at hrow'
        · cases hrow'
          exact .inr ⟨rfl, h⟩
        · cases hrow'

theorem quiet_createPushDeliveries {newId : String → String → String} {now : ℤ}
    {created : List Notification} {store : Store} :
    Quiet none store (createPushDeliveries newId now created store) := by
  have hvalues : ∀ row ∈ deliveryValues newId now (created.filter isPushEligible) store.devices,
      row.attempts = 0 := by
    intro row hrow
    simp only [deliveryValues, List.mem_flatMap, List.mem_map] at hrow
    obtain ⟨_, _, _, _, rfl⟩ := hrow
    rfl
  -- the rows are inserted one after the other
  suffices hfold : ∀ (rows : List PushDelivery) (old : List PushDelivery),
      (∀ row ∈ rows, row.attempts = 0) →
      Quiet none { store with deliveries := old }
        { store with deliveries := rows.foldl insertDelivery old } by
    exact hfold _ store.deliveries hvalues
  intro rows
  induction rows with
  | nil => exact fun _ _ => .refl
  | cons row rows ih =>
    intro old hrows
    have hfirst : Quiet none { store with deliveries := old }
        { store with deliveries := insertDelivery old row } :=
      quiet_insertDelivery { store with deliveries := old } (hrows row (by simp))
    exact hfirst.trans (ih _ fun r hr => hrows r (by simp [hr]))

/-- A report of an attempt at `delivery`: of all rows only its own changes, and not in its attempts. -/
structure Reports (delivery : PushDelivery) (store store' : Store) : Prop where
  quiet : Quiet (some delivery.id) store store'
  kept : ∀ row, look store delivery.id = some row →
    ∃ row', look store' delivery.id = some row' ∧ row'.attempts = row.attempts ∧ row'.claimedAt = none
  back : ∀ row', look store' delivery.id = some row' →
    ∃ row, look store delivery.id = some row ∧ row'.attempts = row.attempts

theorem reports_updateDelivery {delivery : PushDelivery} {store : Store}
    {set : PushDelivery → PushDelivery} (hid : ∀ row, (set row).id = row.id)
    (hattempts : ∀ row, (set row).attempts = row.attempts)
    (hclaimedAt : ∀ row, (set row).claimedAt = none) :
    Reports delivery store (updateDelivery delivery.id set store) := by
  have hset : ∀ row : PushDelivery, row.id = delivery.id → (set row).id = delivery.id :=
    fun row h => (hid row).trans h
  have hlook : look (updateDelivery delivery.id set store) delivery.id =
      (look store delivery.id).map set := by
    rw [look_updateDelivery hset, if_pos rfl]
  refine ⟨quiet_updateDelivery hset, fun row hrow => ?_, fun row' hrow' => ?_⟩
  · exact ⟨set row, by rw [hlook, hrow, Option.map_some], hattempts row, hclaimedAt row⟩
  · rw [hlook, Option.map_eq_some_iff] at hrow'
    obtain ⟨row, hrow, rfl⟩ := hrow'
    exact ⟨row, hrow, hattempts row⟩

theorem Reports.deleteDevices {delivery : PushDelivery} {store store' : Store}
    {gone : PushDeviceRegistration → Bool} (h : Reports delivery store store') :
    Reports delivery store (deleteDevices gone store') := by
  obtain ⟨clear, hsame, hlook⟩ := look_deleteDevices gone store' delivery.id
  refine ⟨h.quiet.trans quiet_deleteDevices.weaken, fun row hrow => ?_, fun row' hrow' => ?_⟩
  · obtain ⟨row', hrow', hattempts, hclaimedAt⟩ := h.kept row hrow
    obtain ⟨device, hclear⟩ := hsame row'
    refine ⟨clear row', by rw [hlook, hrow', Option.map_some], ?_, ?_⟩
    · rw [hclear]
      exact hattempts
    · rw [hclear]
      exact hclaimedAt
  · rw [hlook, Option.map_eq_some_iff] at hrow'
    obtain ⟨middle, hmiddle, rfl⟩ := hrow'
    obtain ⟨row, hrow, hattempts⟩ := h.back middle hmiddle
    obtain ⟨device, hclear⟩ := hsame middle
    refine ⟨row, hrow, ?_⟩
    rw [hclear]
    exact hattempts

theorem reports_retryAs {delivery : PushDelivery} {store : Store} {again : PushDeliveryStatus}
    {count : ℕ} {error : String} {retryAt now : ℤ} :
    Reports delivery store (retryAs again count delivery.id error retryAt now store) :=
  reports_updateDelivery (fun _ => rfl) (fun _ => rfl) fun _ => rfl

theorem reports_permanentlyFailPushDelivery {delivery : PushDelivery} {store : Store}
    {error : String} {removeDevice : Bool} {now : ℤ} :
    Reports delivery store (permanentlyFailPushDelivery delivery error removeDevice now store) := by
  have hfailed : Reports delivery store (updateDelivery delivery.id (fun row =>
      { row with
        status := .failed
        lastError := some error
        failedAt := some now
        claimedAt := none }) store) :=
    reports_updateDelivery (fun _ => rfl) (fun _ => rfl) fun _ => rfl
  unfold permanentlyFailPushDelivery
  dsimp only
  split
  · split
    · exact hfailed.deleteDevices
    · exact hfailed
  · exact hfailed

theorem reports_handleTicket {delivery : PushDelivery} {store : Store} {now : ℤ}
    {result : ExpoResult String} : Reports delivery store (handleTicket delivery now result store) := by
  cases result with
  | ok ticketId => exact reports_updateDelivery (fun _ => rfl) (fun _ => rfl) fun _ => rfl
  | error message code =>
    simp only [handleTicket]
    split
    · exact reports_retryAs
    · exact reports_permanentlyFailPushDelivery
  | refused message => exact reports_permanentlyFailPushDelivery
  | thrown message => exact reports_retryAs

theorem reports_checkReceipt {delivery : PushDelivery} {store : Store} {now : ℤ}
    {result : ExpoResult (Option Unit)} :
    Reports delivery store (checkReceipt delivery now result store) := by
  unfold checkReceipt
  split
  · exact reports_permanentlyFailPushDelivery
  · cases result with
    | ok answer =>
      cases answer with
      | none => exact reports_retryAs
      | some _ => exact reports_updateDelivery (fun _ => rfl) (fun _ => rfl) fun _ => rfl
    | error message code =>
      simp only [handleReceipt]
      split
      · exact reports_retryAs
      · exact reports_permanentlyFailPushDelivery
    | refused message => exact reports_permanentlyFailPushDelivery
    | thrown message => exact reports_retryAs

/-! ## Steps -/

/-- Nobody is at work on the delivery. -/
def Free (s : State) (id : String) : Prop :=
  ∀ poller delivery, (s.pollers poller).held = some delivery → delivery.id ≠ id

/-- A claim is taken over only when the poller that made it has stopped, and a delivery that has
been attempted three times is not claimed again. -/
def Orderly (s : State) : Act → Prop
  | .claim _ deliveryId _ => Free s deliveryId ∧
      ∀ row, look s.store deliveryId = some row → row.attempts < maxAttempts
  | .claimReceipt _ deliveryId _ => Free s deliveryId
  | _ => True

def Final (row : PushDelivery) : Prop := row.status = .delivered ∨ row.status = .failed

def AtWork (row : PushDelivery) : Prop := row.status = .sending ∨ row.status = .receiptChecking

/-- What an orderly step does. -/
inductive Effect (s s' : State) : Prop
  | quiet (hquiet : Quiet none s.store s'.store)
    (hpollers : ∀ p, s'.pollers p = s.pollers p ∨ (s'.pollers p).held = none)
    (hsends : s'.sends = s.sends)
  | claim (poller : ℕ) (row row' : PushDelivery) (phase : Poller) (hfree : Free s row.id)
    (hrow : look s.store row.id = some row) (hopen : ¬Final row)
    (hquiet : Quiet (some row.id) s.store s'.store) (hrow' : look s'.store row.id = some row')
    (hattempts : row'.attempts = row.attempts + 1 ∧ row.attempts < maxAttempts ∨
      row'.attempts = row.attempts ∧ ∀ claim, phase ≠ .claimed claim)
    (hphase : phase.held = none ∨ phase.held = some row' ∧ row'.id = row.id ∧ AtWork row')
    (hpollers : s'.pollers = Function.update s.pollers poller phase) (hsends : s'.sends = s.sends)
  | send (poller : ℕ) (claim : ClaimedPushDelivery) (hclaimed : s.pollers poller = .claimed claim)
    (hstore : s'.store = s.store)
    (hpollers : s'.pollers = Function.update s.pollers poller (.sent claim))
    (hsends : s'.sends = s.sends ++ [(claim.delivery.id, claim.delivery.attempts)])
  | report (poller : ℕ) (delivery : PushDelivery) (hheld : (s.pollers poller).held = some delivery)
    (hreports : Reports delivery s.store s'.store)
    (hpollers : s'.pollers = Function.update s.pollers poller .idle) (hsends : s'.sends = s.sends)

theorem not_final_of_claimableDelivery {now : ℤ} {row : PushDelivery}
    (h : claimableDelivery now row = true) : ¬Final row := by
  rintro (hstatus | hstatus)
  · simp [claimableDelivery, hstatus] at h
  · simp [claimableDelivery, hstatus] at h

theorem not_final_of_claimableReceipt {now : ℤ} {row : PushDelivery}
    (h : claimableReceipt now row = true) : ¬Final row := by
  rintro (hstatus | hstatus)
  · simp [claimableReceipt, hstatus] at h
  · simp [claimableReceipt, hstatus] at h

theorem look_claimed {store : Store} {row row' : PushDelivery} (hrow : look store row.id = some row)
    (hid : row'.id = row.id) :
    look (updateDelivery row.id (fun _ => row') store) row.id = some row' := by
  rw [look_updateDelivery fun _ _ => hid, if_pos rfl, hrow, Option.map_some]

theorem id_of_look {store : Store} {id : String} {row : PushDelivery}
    (h : look store id = some row) : row.id = id := by
  simpa [look] using List.find?_some h

theorem effect_claimAs {s : State} {poller : ℕ} {row : PushDelivery} {now : ℤ}
    (hrow : look s.store row.id = some row)
    (hclaimable : claimableDelivery now row = true) (hfree : Free s row.id)
    (hattempts : row.attempts < maxAttempts) :
    Effect s (s.claimAs poller (claimPushDelivery now row s.store)) := by
  unfold claimPushDelivery
  split
  · rename_i notification token _
    exact .claim poller row (claimedDelivery now row)
      (.claimed ⟨claimedDelivery now row, notification, token⟩) hfree hrow
      (not_final_of_claimableDelivery hclaimable) (quiet_updateDelivery fun _ _ => rfl)
      (look_claimed hrow rfl) (.inl ⟨rfl, hattempts⟩) (.inr ⟨rfl, rfl, .inl rfl⟩) rfl rfl
  · exact .claim poller row _ .idle hfree hrow (not_final_of_claimableDelivery hclaimable)
      (quiet_updateDelivery fun _ _ => rfl) (look_claimed hrow rfl) (.inl ⟨rfl, hattempts⟩)
      (.inl rfl) rfl rfl

theorem effect_of_step {s s' : State} {act : Act} (hok : Orderly s act)
    (h : s.step act = some s') : Effect s s' := by
  cases act with
  | create newId now created =>
    cases h
    have hadded : Quiet none s.store
        { s.store with notifications := s.store.notifications ++ created } := quiet_of_deliveries rfl
    exact .quiet (hadded.trans quiet_createPushDeliveries) (fun _ => .inl rfl) rfl
  | register id userId token =>
    cases h
    refine .quiet ?_ (fun _ => .inl rfl) rfl
    change Quiet none s.store (registerPushDevice id userId token s.store)
    unfold registerPushDevice
    dsimp only
    split
    · exact quiet_deleteDevices
    · exact quiet_deleteDevices.trans (quiet_of_deliveries rfl)
  | unregister userId token =>
    cases h
    exact .quiet quiet_deleteDevices (fun _ => .inl rfl) rfl
  | claim poller deliveryId now =>
    simp only [State.step] at h
    split at h
    · rename_i row _ hrow
      split at h
      · rename_i hclaimable
        cases h
        have hid := id_of_look hrow
        subst hid
        exact effect_claimAs hrow hclaimable hok.1 (hok.2 row hrow)
      · cases h
    · cases h
  | send poller =>
    simp only [State.step] at h
    split at h
    · rename_i claim hclaimed
      split at h
      · cases h
        exact .send poller claim hclaimed rfl rfl rfl
      · cases h
    · cases h
  | refuse poller now =>
    simp only [State.step] at h
    split at h
    · rename_i claim hclaimed
      split at h
      · cases h
        exact .report poller claim.delivery (by rw [hclaimed]; rfl)
          reports_permanentlyFailPushDelivery rfl rfl
      · cases h
    · cases h
  | ticket poller result now =>
    simp only [State.step] at h
    split at h
    · rename_i claim hsent
      cases h
      exact .report poller claim.delivery (by rw [hsent]; rfl) reports_handleTicket rfl rfl
    · cases h
  | claimReceipt poller deliveryId now =>
    simp only [State.step] at h
    split at h
    · rename_i row _ hrow
      split at h
      · rename_i hclaimable
        cases h
        have hid := id_of_look hrow
        subst hid
        exact .claim poller row (claimedReceipt now row) (.checking (claimedReceipt now row)) hok
          hrow (not_final_of_claimableReceipt hclaimable) (quiet_updateDelivery fun _ _ => rfl)
          (look_claimed hrow rfl) (.inr ⟨rfl, by simp⟩) (.inr ⟨rfl, rfl, .inr rfl⟩) rfl rfl
      · cases h
    · cases h
  | receipt poller result now =>
    simp only [State.step] at h
    split at h
    · rename_i delivery hchecking
      cases h
      exact .report poller delivery (by rw [hchecking]; rfl) reports_checkReceipt rfl rfl
    · cases h
  | crash poller =>
    cases h
    refine .quiet .refl (fun p => ?_) rfl
    by_cases hp : p = poller
    · right
      rw [hp]
      simp [State.become, Poller.held]
    · left
      simp [State.become, hp]

/-! ## Runs -/

/-- The delivery is as the attempt claimed it, up to its device. -/
def Owns (store : Store) (delivery : PushDelivery) : Prop :=
  ∃ row, look store delivery.id = some row ∧ Same delivery row

structure Inv (s : State) : Prop where
  owns : ∀ p delivery, (s.pollers p).held = some delivery → Owns s.store delivery ∧ AtWork delivery
  single : ∀ p q delivery other, (s.pollers p).held = some delivery →
    (s.pollers q).held = some other → delivery.id = other.id → p = q
  unsent : ∀ p claim, s.pollers p = .claimed claim → 1 ≤ claim.delivery.attempts ∧
    (claim.delivery.id, claim.delivery.attempts) ∉ s.sends
  counted : ∀ id row, look s.store id = some row → row.attempts ≤ maxAttempts
  sent : ∀ send ∈ s.sends, 1 ≤ send.2 ∧ ∃ row, look s.store send.1 = some row ∧ send.2 ≤ row.attempts
  once : s.sends.Nodup

theorem Owns.quiet {touched : Option String} {store store' : Store} {delivery : PushDelivery}
    (h : Owns store delivery) (hquiet : Quiet touched store store')
    (htouched : touched ≠ some delivery.id) : Owns store' delivery := by
  obtain ⟨row, hrow, hsame⟩ := h
  obtain ⟨row', hrow', hsame'⟩ := hquiet.kept delivery.id row htouched hrow
  exact ⟨row', hrow', hsame.trans hsame'⟩

theorem Quiet.counted {touched : Option String} {store store' : Store}
    (h : Quiet touched store store')
    (hcounted : ∀ id row, look store id = some row → row.attempts ≤ maxAttempts) (id : String)
    (row' : PushDelivery) (hid : touched ≠ some id) (hrow' : look store' id = some row') :
    row'.attempts ≤ maxAttempts := by
  rcases h.back id row' hid hrow' with ⟨row, hrow, _, rfl⟩ | ⟨_, hattempts⟩
  · exact hcounted id row hrow
  · omega

/-- A send stays counted while the attempts of no row go down. -/
theorem Quiet.sent {touched : Option String} {store store' : Store} {send : String × ℕ}
    (h : Quiet touched store store')
    (hgrows : ∀ id row, touched = some id → look store id = some row →
      ∃ row', look store' id = some row' ∧ row.attempts ≤ row'.attempts)
    (hsent : ∃ row, look store send.1 = some row ∧ send.2 ≤ row.attempts) :
    ∃ row, look store' send.1 = some row ∧ send.2 ≤ row.attempts := by
  obtain ⟨row, hrow, hle⟩ := hsent
  by_cases hid : touched = some send.1
  · obtain ⟨row', hrow', hgrow⟩ := hgrows send.1 row hid hrow
    exact ⟨row', hrow', hle.trans hgrow⟩
  · obtain ⟨_, hrow', _, rfl⟩ := h.kept send.1 row hid hrow
    exact ⟨_, hrow', hle⟩

theorem held_of_update {s : State} {poller p : ℕ} {phase : Poller} {delivery : PushDelivery}
    (h : (Function.update s.pollers poller phase p).held = some delivery) :
    p = poller ∧ phase.held = some delivery ∨
      p ≠ poller ∧ (s.pollers p).held = some delivery := by
  by_cases hp : p = poller
  · subst hp
    rw [Function.update_self] at h
    exact .inl ⟨rfl, h⟩
  · rw [Function.update_of_ne hp] at h
    exact .inr ⟨hp, h⟩

theorem Inv.quiet {s s' : State} (h : Inv s) (hquiet : Quiet none s.store s'.store)
    (hpollers : ∀ p, s'.pollers p = s.pollers p ∨ (s'.pollers p).held = none)
    (hsends : s'.sends = s.sends) : Inv s' := by
  have hheld : ∀ p delivery, (s'.pollers p).held = some delivery →
      (s.pollers p).held = some delivery := by
    intro p delivery hp
    rcases hpollers p with hsame | hnone
    · rw [← hsame]
      exact hp
    · rw [hnone] at hp
      cases hp
  refine ⟨fun p delivery hp => ?_, fun p q delivery other hp hq => ?_, fun p claim hp => ?_,
    fun id row => hquiet.counted h.counted id row (by simp), fun send hsend => ?_, ?_⟩
  · obtain ⟨howns, hwork⟩ := h.owns p delivery (hheld p delivery hp)
    exact ⟨howns.quiet hquiet (by simp), hwork⟩
  · exact h.single p q delivery other (hheld p delivery hp) (hheld q other hq)
  · rw [hsends]
    rcases hpollers p with hsame | hnone
    · exact h.unsent p claim (hsame ▸ hp)
    · rw [hp] at hnone
      cases hnone
  · rw [hsends] at hsend
    obtain ⟨hpos, hsent⟩ := h.sent send hsend
    exact ⟨hpos, hquiet.sent (by simp) hsent⟩
  · rw [hsends]
    exact h.once

theorem Inv.claim {s s' : State} {poller : ℕ} {row row' : PushDelivery} {phase : Poller}
    (h : Inv s) (hfree : Free s row.id) (hrow : look s.store row.id = some row)
    (hquiet : Quiet (some row.id) s.store s'.store) (hrow' : look s'.store row.id = some row')
    (hattempts : row'.attempts = row.attempts + 1 ∧ row.attempts < maxAttempts ∨
      row'.attempts = row.attempts ∧ ∀ claim, phase ≠ .claimed claim)
    (hphase : phase.held = none ∨ phase.held = some row' ∧ row'.id = row.id ∧ AtWork row')
    (hpollers : s'.pollers = Function.update s.pollers poller phase)
    (hsends : s'.sends = s.sends) : Inv s' := by
  have hcase : ∀ p delivery, (s'.pollers p).held = some delivery →
      p = poller ∧ delivery = row' ∧ row'.id = row.id ∧ AtWork row' ∨
        p ≠ poller ∧ (s.pollers p).held = some delivery := by
    intro p delivery hp
    rw [hpollers] at hp
    rcases held_of_update hp with ⟨hpoller, hheld⟩ | hother
    · rcases hphase with hnone | ⟨hsome, hid, hwork⟩
      · rw [hnone] at hheld
        cases hheld
      · rw [hsome] at hheld
        cases hheld
        exact .inl ⟨hpoller, rfl, hid, hwork⟩
    · exact .inr hother
  have hgrow : row.attempts ≤ row'.attempts := by
    rcases hattempts with ⟨hup, _⟩ | ⟨hsame, _⟩
    · omega
    · omega
  refine ⟨fun p delivery hp => ?_, fun p q delivery other hp hq hids => ?_, fun p claim hp => ?_,
    fun id row'' hrow'' => ?_, fun send hsend => ?_, ?_⟩
  · rcases hcase p delivery hp with ⟨_, rfl, hid, hwork⟩ | ⟨_, hheld⟩
    · exact ⟨⟨delivery, hid ▸ hrow', .refl delivery⟩, hwork⟩
    · obtain ⟨howns, hwork⟩ := h.owns p delivery hheld
      refine ⟨howns.quiet hquiet ?_, hwork⟩
      rw [Ne, Option.some.injEq]
      exact fun hid => hfree p delivery hheld hid.symm
  · -- nobody else is at work on the claimed delivery
    rcases hcase p delivery hp with ⟨hp, rfl, hid, _⟩ | ⟨_, hheld⟩
    · rcases hcase q other hq with ⟨hq, _⟩ | ⟨_, hother⟩
      · rw [hp, hq]
      · exact absurd (hids.symm.trans hid) (hfree q other hother)
    · rcases hcase q other hq with ⟨_, rfl, hid, _⟩ | ⟨_, hother⟩
      · exact absurd (hids.trans hid) (hfree p delivery hheld)
      · exact h.single p q delivery other hheld hother hids
  · rw [hsends]
    by_cases hpp : p = poller
    · subst hpp
      rw [hpollers, Function.update_self] at hp
      subst hp
      rcases hattempts with ⟨hup, _⟩ | ⟨_, hnot⟩
      · rcases hphase with hnone | ⟨hsome, hid, _⟩
        · cases hnone
        · have hdelivery : claim.delivery = row' := Option.some.inj hsome
          rw [hdelivery]
          refine ⟨by omega, fun hsend => ?_⟩
          obtain ⟨_, old, hold, hle⟩ := h.sent _ hsend
          dsimp only at hold hle
          rw [hid, hrow] at hold
          cases hold
          omega
      · exact absurd rfl (hnot claim)
    · rw [hpollers, Function.update_of_ne hpp] at hp
      exact h.unsent p claim hp
  · by_cases hid : id = row.id
    · rw [hid, hrow'] at hrow''
      cases hrow''
      have hle := h.counted row.id row hrow
      rcases hattempts with ⟨hup, hlt⟩ | ⟨hsame, _⟩
      · omega
      · omega
    · exact hquiet.counted h.counted id row'' (by simpa using Ne.symm hid) hrow''
  · rw [hsends] at hsend
    obtain ⟨hpos, hsent⟩ := h.sent send hsend
    refine ⟨hpos, hquiet.sent (fun id old hid hold => ?_) hsent⟩
    cases hid
    rw [hrow] at hold
    cases hold
    exact ⟨row', hrow', hgrow⟩
  · rw [hsends]
    exact h.once

theorem Inv.send {s s' : State} {poller : ℕ} {claim : ClaimedPushDelivery} (h : Inv s)
    (hclaimed : s.pollers poller = .claimed claim) (hstore : s'.store = s.store)
    (hpollers : s'.pollers = Function.update s.pollers poller (.sent claim))
    (hsends : s'.sends = s.sends ++ [(claim.delivery.id, claim.delivery.attempts)]) : Inv s' := by
  have hself : (s.pollers poller).held = some claim.delivery := by rw [hclaimed]; rfl
  have hheld : ∀ p delivery, (s'.pollers p).held = some delivery →
      (s.pollers p).held = some delivery := by
    intro p delivery hp
    rw [hpollers] at hp
    rcases held_of_update hp with ⟨rfl, hsent⟩ | ⟨_, hother⟩
    · cases hsent
      exact hself
    · exact hother
  obtain ⟨hpos, hunsent⟩ := h.unsent poller claim hclaimed
  refine ⟨fun p delivery hp => ?_, fun p q delivery other hp hq => ?_, fun p other hp => ?_,
    fun id row => ?_, fun send hsend => ?_, ?_⟩
  · rw [hstore]
    exact h.owns p delivery (hheld p delivery hp)
  · exact h.single p q delivery other (hheld p delivery hp) (hheld q other hq)
  · have hne : p ≠ poller := by
      rintro rfl
      rw [hpollers, Function.update_self] at hp
      cases hp
    rw [hpollers, Function.update_of_ne hne] at hp
    obtain ⟨hpos, hunsent⟩ := h.unsent p other hp
    refine ⟨hpos, ?_⟩
    rw [hsends, List.mem_append, List.mem_singleton]
    rintro (hsend | hsend)
    · exact hunsent hsend
    · have hother : (s.pollers p).held = some other.delivery := by rw [hp]; rfl
      exact hne (h.single p poller _ _ hother hself (congrArg Prod.fst hsend))
  · rw [hstore]
    exact h.counted id row
  · rw [hsends, List.mem_append, List.mem_singleton] at hsend
    rw [hstore]
    rcases hsend with hsend | rfl
    · exact h.sent send hsend
    · obtain ⟨⟨row, hrow, _, rfl⟩, _⟩ := h.owns poller claim.delivery hself
      exact ⟨hpos, _, hrow, le_rfl⟩
  · rw [hsends]
    exact h.once.append (List.nodup_singleton _) (by simpa using hunsent)

theorem Inv.report {s s' : State} {poller : ℕ} {delivery : PushDelivery} (h : Inv s)
    (hheld : (s.pollers poller).held = some delivery)
    (hreports : Reports delivery s.store s'.store)
    (hpollers : s'.pollers = Function.update s.pollers poller .idle)
    (hsends : s'.sends = s.sends) : Inv s' := by
  have hcase : ∀ p other, (s'.pollers p).held = some other →
      p ≠ poller ∧ (s.pollers p).held = some other := by
    intro p other hp
    rw [hpollers] at hp
    rcases held_of_update hp with ⟨_, hidle⟩ | hother
    · cases hidle
    · exact hother
  refine ⟨fun p other hp => ?_, fun p q first second hp hq => ?_, fun p claim hp => ?_,
    fun id row' hrow' => ?_, fun send hsend => ?_, ?_⟩
  · obtain ⟨hne, hother⟩ := hcase p other hp
    obtain ⟨howns, hwork⟩ := h.owns p other hother
    refine ⟨howns.quiet hreports.quiet ?_, hwork⟩
    rw [Ne, Option.some.injEq]
    exact fun hid => hne (h.single p poller other delivery hother hheld hid.symm)
  · exact h.single p q first second (hcase p first hp).2 (hcase q second hq).2
  · have hne := (hcase p claim.delivery (by rw [hp]; rfl)).1
    rw [hpollers, Function.update_of_ne hne] at hp
    rw [hsends]
    exact h.unsent p claim hp
  · by_cases hid : id = delivery.id
    · rw [hid] at hrow'
      obtain ⟨row, hrow, hattempts⟩ := hreports.back row' hrow'
      rw [hattempts]
      exact h.counted _ row hrow
    · exact hreports.quiet.counted h.counted id row' (by simpa using Ne.symm hid) hrow'
  · rw [hsends] at hsend
    obtain ⟨hpos, hsent⟩ := h.sent send hsend
    refine ⟨hpos, hreports.quiet.sent (fun id row hid hrow => ?_) hsent⟩
    cases hid
    obtain ⟨row', hrow', hattempts, _⟩ := hreports.kept row hrow
    exact ⟨row', hrow', hattempts.ge⟩
  · rw [hsends]
    exact h.once

theorem Inv.step {s s' : State} {act : Act} (h : Inv s) (hok : Orderly s act)
    (hstep : s.step act = some s') : Inv s' := by
  cases effect_of_step hok hstep with
  | quiet hquiet hpollers hsends => exact h.quiet hquiet hpollers hsends
  | claim poller row row' phase hfree hrow _ hquiet hrow' hattempts hphase hpollers hsends =>
    exact h.claim hfree hrow hquiet hrow' hattempts hphase hpollers hsends
  | send poller claim hclaimed hstore hpollers hsends =>
    exact h.send hclaimed hstore hpollers hsends
  | report poller delivery hheld hreports hpollers hsends =>
    exact h.report hheld hreports hpollers hsends

theorem Inv.sends_le {s : State} (h : Inv s) (id : String) :
    (s.sends.filter fun send => send.1 = id).length ≤ maxAttempts := by
  have hmem : ∀ send ∈ s.sends.filter (fun send => send.1 = id), send ∈ s.sends ∧ send.1 = id := by
    intro send hsend
    simpa using hsend
  -- the numbers of the attempts that sent it are different ones from one to three
  have hnodup : ((s.sends.filter fun send => send.1 = id).map Prod.snd).Nodup := by
    refine (h.once.filter _).map_on fun first hfirst second hsecond hsnd => ?_
    exact Prod.ext ((hmem first hfirst).2.trans (hmem second hsecond).2.symm) hsnd
  have hsub : ((s.sends.filter fun send => send.1 = id).map Prod.snd).toFinset ⊆
      Finset.Icc 1 maxAttempts := by
    intro n hn
    simp only [List.mem_toFinset, List.mem_map] at hn
    obtain ⟨send, hsend, rfl⟩ := hn
    obtain ⟨hpos, row, hrow, hle⟩ := h.sent send (hmem send hsend).1
    exact Finset.mem_Icc.mpr ⟨hpos, hle.trans (h.counted _ row hrow)⟩
  have hcard := Finset.card_le_card hsub
  rw [List.toFinset_card_of_nodup hnodup, List.length_map, Nat.card_Icc] at hcard
  omega

/-- A final row is touched by no claim, and by no report of an attempt at work. -/
theorem Inv.final {s s' : State} {act : Act} {id : String} {row : PushDelivery} (h : Inv s)
    (hok : Orderly s act) (hstep : s.step act = some s') (hrow : look s.store id = some row)
    (hfinal : Final row) : ∃ row', look s'.store id = some row' ∧ Same row row' := by
  cases effect_of_step hok hstep with
  | quiet hquiet _ _ => exact hquiet.kept id row (by simp) hrow
  | claim poller old new phase _ hold hopen hquiet _ _ _ _ _ =>
    refine hquiet.kept id row (fun hid => hopen ?_) hrow
    rw [Option.some.inj hid, hrow] at hold
    exact Option.some.inj hold ▸ hfinal
  | send poller claim _ hstore _ _ => exact ⟨row, by rw [hstore]; exact hrow, .refl row⟩
  | report poller delivery hheld hreports _ _ =>
    refine hreports.quiet.kept id row (fun hid => ?_) hrow
    obtain ⟨⟨held, hlook, _, rfl⟩, hwork⟩ := h.owns poller delivery hheld
    rw [Option.some.inj hid, hrow] at hlook
    cases hlook
    rcases hwork with hwork | hwork
    · rcases hfinal with hfinal | hfinal
      · exact absurd (hwork.symm.trans hfinal) (by decide)
      · exact absurd (hwork.symm.trans hfinal) (by decide)
    · rcases hfinal with hfinal | hfinal
      · exact absurd (hwork.symm.trans hfinal) (by decide)
      · exact absurd (hwork.symm.trans hfinal) (by decide)

/-- Final rows stay as they are. -/
def FinalKept (s t : State) : Prop :=
  ∀ id row, look s.store id = some row → Final row →
    ∃ row', look t.store id = some row' ∧ Same row row'

theorem FinalKept.trans {s t u : State} (h : FinalKept s t) (h' : FinalKept t u) :
    FinalKept s u := by
  intro id row hrow hfinal
  obtain ⟨row', hrow', hsame⟩ := h id row hrow hfinal
  have hfinal' : Final row' := by
    obtain ⟨_, rfl⟩ := hsame
    exact hfinal
  obtain ⟨row'', hrow'', hsame'⟩ := h' id row' hrow' hfinal'
  exact ⟨row'', hrow'', hsame.trans hsame'⟩

/-! ## Devices -/

/-- The poller that writes the outcome of its attempt. -/
def Act.reporter : Act → Option ℕ
  | .refuse poller _ => some poller
  | .ticket poller _ _ => some poller
  | .receipt poller _ _ => some poller
  | _ => none

/-- A user registers or unregisters a device. -/
def Act.byUser : Act → Prop
  | .register _ _ _ => True
  | .unregister _ _ => True
  | _ => False

@[simp] theorem updateDelivery_devices (id : String) (set : PushDelivery → PushDelivery)
    (store : Store) : (updateDelivery id set store).devices = store.devices := rfl

theorem permanentlyFailPushDelivery_devices {delivery : PushDelivery} {error : String}
    {removeDevice : Bool} {now : ℤ} {store : Store} {device : PushDeviceRegistration}
    (hmem : device ∈ store.devices) (hgone : device ∉
      (permanentlyFailPushDelivery delivery error removeDevice now store).devices) :
    delivery.deviceRegistrationId = some device.id := by
  unfold permanentlyFailPushDelivery at hgone
  dsimp only at hgone
  split at hgone
  · rename_i deviceId hdevice
    split at hgone
    · rw [hdevice]
      by_contra hne
      refine hgone (List.mem_filter.mpr ⟨hmem, ?_⟩)
      have hid : device.id ≠ deviceId := fun h => hne (by rw [h])
      simp [hid]
    · exact absurd hmem hgone
  · exact absurd hmem hgone

theorem retryAs_devices {again : PushDeliveryStatus} {count : ℕ} {deliveryId error : String}
    {retryAt now : ℤ} {store : Store} :
    (retryAs again count deliveryId error retryAt now store).devices = store.devices := rfl

theorem handleTicket_devices {delivery : PushDelivery} {now : ℤ} {result : ExpoResult String}
    {store : Store} {device : PushDeviceRegistration} (hmem : device ∈ store.devices)
    (hgone : device ∉ (handleTicket delivery now result store).devices) :
    delivery.deviceRegistrationId = some device.id := by
  cases result with
  | ok ticketId => exact absurd hmem hgone
  | error message code =>
    simp only [handleTicket] at hgone
    split at hgone
    · exact absurd hmem hgone
    · exact permanentlyFailPushDelivery_devices hmem hgone
  | refused message => exact permanentlyFailPushDelivery_devices hmem hgone
  | thrown message => exact absurd hmem hgone

theorem checkReceipt_devices {delivery : PushDelivery} {now : ℤ}
    {result : ExpoResult (Option Unit)} {store : Store} {device : PushDeviceRegistration}
    (hmem : device ∈ store.devices)
    (hgone : device ∉ (checkReceipt delivery now result store).devices) :
    delivery.deviceRegistrationId = some device.id := by
  unfold checkReceipt at hgone
  split at hgone
  · exact permanentlyFailPushDelivery_devices hmem hgone
  · cases result with
    | ok answer =>
      cases answer with
      | none => exact absurd hmem hgone
      | some _ => exact absurd hmem hgone
    | error message code =>
      simp only [handleReceipt] at hgone
      split at hgone
      · exact absurd hmem hgone
      · exact permanentlyFailPushDelivery_devices hmem hgone
    | refused message => exact permanentlyFailPushDelivery_devices hmem hgone
    | thrown message => exact absurd hmem hgone

/-- A device goes by its user, or by a report of an attempt to deliver to it. -/
theorem device_removed {s s' : State} {act : Act} {device : PushDeviceRegistration}
    (hstep : s.step act = some s') (hmem : device ∈ s.store.devices)
    (hgone : device ∉ s'.store.devices) :
    act.byUser ∨ ∃ poller delivery, act.reporter = some poller ∧
      (s.pollers poller).held = some delivery ∧ delivery.deviceRegistrationId = some device.id := by
  cases act with
  | create newId now created =>
    cases hstep
    exact absurd hmem hgone
  | register id userId token => exact .inl trivial
  | unregister userId token => exact .inl trivial
  | claim poller deliveryId now =>
    simp only [State.step] at hstep
    split at hstep
    · split at hstep
      · cases hstep
        unfold claimPushDelivery at hgone
        split at hgone
        · exact absurd hmem hgone
        · exact absurd hmem hgone
      · cases hstep
    · cases hstep
  | send poller =>
    simp only [State.step] at hstep
    split at hstep
    · split at hstep
      · cases hstep
        exact absurd hmem hgone
      · cases hstep
    · cases hstep
  | refuse poller now =>
    simp only [State.step] at hstep
    split at hstep
    · rename_i claim hclaimed
      split at hstep
      · cases hstep
        exact .inr ⟨poller, claim.delivery, rfl, by rw [hclaimed]; rfl,
          permanentlyFailPushDelivery_devices hmem hgone⟩
      · cases hstep
    · cases hstep
  | ticket poller result now =>
    simp only [State.step] at hstep
    split at hstep
    · rename_i claim hsent
      cases hstep
      exact .inr ⟨poller, claim.delivery, rfl, by rw [hsent]; rfl, handleTicket_devices hmem hgone⟩
    · cases hstep
  | claimReceipt poller deliveryId now =>
    simp only [State.step] at hstep
    split at hstep
    · split at hstep
      · cases hstep
        exact absurd hmem hgone
      · cases hstep
    · cases hstep
  | receipt poller result now =>
    simp only [State.step] at hstep
    split at hstep
    · rename_i delivery hchecking
      cases hstep
      exact .inr ⟨poller, delivery, rfl, by rw [hchecking]; rfl, checkReceipt_devices hmem hgone⟩
    · cases hstep
  | crash poller =>
    cases hstep
    exact absurd hmem hgone

/-! ## All schedules -/

/-- No deliveries yet, and nobody at work. -/
def initial (store : Store) : State := ⟨{ store with deliveries := [] }, fun _ => .idle, []⟩

theorem inv_initial (store : Store) : Inv (initial store) := by
  refine ⟨?_, ?_, ?_, ?_, ?_, List.nodup_nil⟩
  · intro p delivery hp
    cases hp
  · intro p q delivery other hp
    cases hp
  · intro p claim hp
    cases hp
  · intro id row hrow
    cases hrow
  · intro send hsend
    cases hsend

/-- In every orderly run: a delivered or failed delivery stays as it is; every attempt that reports
owns its delivery; no delivery is sent more than three times; and a device goes only by its user or
by a report of the attempt that owns the delivery to it. -/
theorem deliveries_of_orderly {store : Store} {acts later : List Act} {s t : State}
    (h : Run State.step Orderly (initial store) acts s) (hlater : Run State.step Orderly s later t) :
    FinalKept s t ∧
    (∀ poller delivery, (s.pollers poller).held = some delivery → Owns s.store delivery) ∧
    (∀ id, (s.sends.filter fun send => send.1 = id).length ≤ maxAttempts) ∧
    ∀ act s', s.step act = some s' → ∀ device ∈ s.store.devices, device ∉ s'.store.devices →
      act.byUser ∨ ∃ poller delivery, act.reporter = some poller ∧
        (s.pollers poller).held = some delivery ∧ Owns s.store delivery ∧
        delivery.deviceRegistrationId = some device.id := by
  have hinv : Inv s := h.invariant (fun hs hok hstep => hs.step hok hstep) (inv_initial store)
  have howns : ∀ poller delivery, (s.pollers poller).held = some delivery →
      Owns s.store delivery := fun poller delivery hheld => (hinv.owns poller delivery hheld).1
  refine ⟨?_, howns, hinv.sends_le, ?_⟩
  · exact hlater.relates (fun s id row hrow _ => ⟨row, hrow, .refl row⟩)
      (fun h h' => FinalKept.trans h h') (fun hs hok hstep => hs.step hok hstep)
      (fun hs hok hstep id row hrow hfinal => hs.final hok hstep hrow hfinal) hinv
  · intro act s' hstep device hmem hgone
    refine (device_removed hstep hmem hgone).imp id ?_
    rintro ⟨poller, delivery, hreporter, hheld, hdevice⟩
    exact ⟨poller, delivery, hreporter, hheld, howns poller delivery hheld, hdevice⟩

theorem State.claimAs_pollers {s : State} {poller p : ℕ}
    {claim : Store × Option ClaimedPushDelivery} (h : p ≠ poller) :
    (s.claimAs poller claim).pollers p = s.pollers p := by
  obtain ⟨store, claim⟩ := claim
  cases claim with
  | none => exact Function.update_of_ne h _ _
  | some claim => exact Function.update_of_ne h _ _

theorem free_of_idle {s : State} {id : String} (h : ∀ poller, (s.pollers poller).held = none) :
    Free s id := by
  intro poller delivery hheld
  rw [h poller] at hheld
  cases hheld

namespace Sample

def notification : Notification :=
  ⟨"n", "u", some "w", .executionFailed, "", "", [("executionId", .string "e")]⟩

def store : Store := ⟨[], [⟨"d", "u", "token"⟩], []⟩

/-- One poller delivers. -/
def delivering : List Act :=
  [.create (fun _ _ => "p") 0 [notification], .claim 0 "p" 0, .send 0, .ticket 0 (.ok "t") 1000,
    .claimReceipt 0 "p" 901000, .receipt 0 (.ok (some ())) 902000]

end Sample

theorem delivering_orderly : ∃ s t,
    Run State.step Orderly (initial Sample.store) Sample.delivering s ∧
    Run State.step Orderly s [.unregister "u" "token"] t ∧
    (look s.store "p").map PushDelivery.status = some .delivered ∧
    FinalKept s t ∧ (s.sends.filter fun send => send.1 = "p").length ≤ maxAttempts := by
  have hrun : ∃ s, Run State.step Orderly (initial Sample.store) Sample.delivering s ∧
      (look s.store "p").map PushDelivery.status = some .delivered := by
    refine ⟨_, .cons trivial rfl (.cons ⟨free_of_idle fun _ => rfl, ?_⟩ rfl (.cons trivial rfl
      (.cons trivial rfl (.cons (free_of_idle ?_) rfl (.cons trivial rfl (.nil _)))))), ?_⟩
    · intro row hrow
      cases hrow
      decide
    · intro poller
      by_cases hp : poller = 0
      · subst hp
        rfl
      · simp only [State.become, Function.update_of_ne hp]
        rw [State.claimAs_pollers hp]
        rfl
    · rfl
  obtain ⟨s, hrun, hdelivered⟩ := hrun
  have hlater : Run State.step Orderly s [.unregister "u" "token"]
      { s with store := unregisterPushDevice "u" "token" s.store } := .cons trivial rfl (.nil _)
  have hresult := deliveries_of_orderly hrun hlater
  exact ⟨s, _, hrun, hlater, hdelivered, hresult.1, hresult.2.2.1 "p"⟩

/-- The first poller is slow: the claim is taken over, the successor delivers, and then the first
one reports that its request has failed. -/
def Sample.overtaken : List Act :=
  [.create (fun _ _ => "p") 0 [Sample.notification], .claim 0 "p" 0, .send 0, .claim 1 "p" 60000,
    .send 1, .ticket 1 (.ok "t") 61000, .claimReceipt 1 "p" 961000,
    .receipt 1 (.ok (some ())) 962000]

/-- Pollers that crash after sending. -/
def Sample.crashing : List Act :=
  [.create (fun _ _ => "p") 0 [Sample.notification], .claim 0 "p" 0, .send 0, .crash 0,
    .claim 0 "p" 60000, .send 0, .crash 0, .claim 0 "p" 120000, .send 0, .crash 0,
    .claim 0 "p" 180000, .send 0]

/-- A delivered delivery goes back to `retry` on the report of an attempt that was taken over, and
a delivery is sent four times. -/
theorem delivered_undone_and_sent_again :
    (∃ s t, Run State.step (fun _ _ => True) (initial Sample.store) Sample.overtaken s ∧
      s.step (.ticket 0 (.thrown "timeout") 963000) = some t ∧
      (look s.store "p").map PushDelivery.status = some .delivered ∧
      (look t.store "p").map PushDelivery.status = some .retry) ∧
    ∃ s, Run State.step (fun _ _ => True) (initial Sample.store) Sample.crashing s ∧
      maxAttempts < (s.sends.filter fun send => send.1 = "p").length := by
  refine ⟨⟨_, _, Run.of_foldlM rfl, rfl, rfl, rfl⟩, ⟨_, Run.of_foldlM rfl, by decide⟩⟩

end Linea.Push
