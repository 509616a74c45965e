import Linea.Analyzer

/-! What a failed notification does to the transaction of an analysis. The notifications themselves
are written in a savepoint of their own, so that an error there is undone; the reads before it are
statements of the analysis's transaction, and an error there aborts it. -/
namespace Linea.Analyzer
open Linea.Signals

/-- The same store up to notifications and their deliveries. -/
def Alike (store store' : Store) : Prop := ∃ push, store' = { store with push := push }

theorem Alike.refl (store : Store) : Alike store store := ⟨store.push, rfl⟩

theorem Alike.trans {store store' store'' : Store} (h : Alike store store')
    (h' : Alike store' store'') : Alike store store'' := by
  obtain ⟨_, rfl⟩ := h
  obtain ⟨push, rfl⟩ := h'
  exact ⟨push, rfl⟩

/-! ## The notification -/

theorem contained_createPushDeliveries {call : Call} {created : List Push.Notification} :
    Sql.Contained Alike (createPushDeliveries call created) := by
  unfold createPushDeliveries
  split
  · exact .pure .refl
  · refine .bind Alike.trans (.statement .refl) fun devices => ?_
    dsimp only
    split
    · exact .pure .refl
    · exact .statement fun store => ⟨_, rfl⟩

/-- A call fails outside its savepoint. -/
def Poisons (store : Store) (call : Call) (workspaceId : String) (workflowId : Option String) : Prop :=
  call.fault = some .getWorkflowById ∧ (given workflowId).isSome ∨
    call.fault = some .listMemberUserIds ∨
    call.fault = some .savepoint ∧ ∃ member ∈ store.members, member.1 = workspaceId

/-- The users to notify. -/
def memberIds (store : Store) (organizationId : String) : List String :=
  (store.members.filter fun member => member.1 = organizationId).map Prod.snd

theorem memberIds_eq_nil {store : Store} {organizationId : String} :
    memberIds store organizationId = [] ↔ ¬∃ member ∈ store.members, member.1 = organizationId := by
  rw [memberIds, List.map_eq_nil_iff, List.filter_eq_nil_iff]
  simp only [decide_eq_true_eq, not_exists, not_and]

theorem createNotificationsForUsers_isolated {s : Session Store} {call : Call}
    {userIds : List String} {input : String → Push.Notification} (hs : s.aborted = false)
    (hcall : call.fails .savepoint = false) :
    (createNotificationsForUsers call userIds input s).2.aborted = false ∧
      Alike s.store (createNotificationsForUsers call userIds input s).2.store := by
  unfold createNotificationsForUsers
  split
  · exact ⟨hs, .refl _⟩
  · rw [hcall]
    refine Sql.Contained.nested .refl ?_ hs
    exact .bind Alike.trans (.statement fun store => ⟨_, rfl⟩) fun _ => contained_createPushDeliveries

theorem flagWorkflow_run {s : Session Store} (call : Call) (flag : Flag) (hs : s.aborted = false)
    (h : call.fails .getWorkflowById = true → given flag.workflowId = none) :
    ∃ workflow, flagWorkflow call flag s = (.ok workflow, s) := by
  unfold flagWorkflow
  cases hgiven : given flag.workflowId with
  | none => exact ⟨none, rfl⟩
  | some workflowId =>
    have hfails : call.fails .getWorkflowById = false := by
      cases hcall : call.fails .getWorkflowById with
      | false => rfl
      | true =>
        rw [h hcall] at hgiven
        cases hgiven
    rw [hfails]
    exact ⟨_, Sql.statement_run hs⟩

/-- The notification up to the write of the rows, when its reads succeed. -/
theorem notifySignalRegressed_reads {s : Session Store} (call : Call) (flag : Flag)
    (signalId : String) (hs : s.aborted = false)
    (hworkflow : call.fails .getWorkflowById = true → given flag.workflowId = none)
    (hmembers : call.fails .listMemberUserIds = false) :
    ∃ input, notifySignalRegressed call flag signalId s =
      createNotificationsForUsers call (memberIds s.store flag.workspaceId) input s := by
  obtain ⟨workflow, hread⟩ := flagWorkflow_run call flag hs hworkflow
  refine ⟨regressedNotification call workflow flag signalId, ?_⟩
  refine (Sql.bind_of_ok hread).trans ?_
  rw [hmembers]
  exact Sql.bind_of_ok (Sql.statement_run hs)

theorem notifySignalRegressed_poisoned {s : Session Store} {call : Call} {flag : Flag}
    (signalId : String) (hs : s.aborted = false)
    (h : Poisons s.store call flag.workspaceId flag.workflowId) :
    ∃ e, notifySignalRegressed call flag signalId s = (.error e, { s with aborted := true }) := by
  rcases h with ⟨hfault, hgiven⟩ | hfault | ⟨hfault, hmember⟩
  · obtain ⟨workflowId, hgiven⟩ := Option.isSome_iff_exists.mp hgiven
    have hread : flagWorkflow call flag s = (.error "database error", { s with aborted := true }) := by
      simp only [flagWorkflow, hgiven, Call.fails, hfault, decide_true]
      exact Sql.statement_fails hs
    exact ⟨_, Sql.bind_of_error hread⟩
  · -- the first read succeeds, the second does not
    obtain ⟨workflow, hread⟩ := flagWorkflow_run call flag hs
      (by simp [Call.fails, hfault])
    have hfails : call.fails .listMemberUserIds = true := by simp [Call.fails, hfault]
    refine ⟨"database error", (Sql.bind_of_ok hread).trans ?_⟩
    rw [hfails]
    exact Sql.bind_of_error (Sql.statement_fails hs)
  · obtain ⟨input, hreads⟩ := notifySignalRegressed_reads call flag signalId hs
      (by simp [Call.fails, hfault]) (by simp [Call.fails, hfault])
    refine ⟨"database error", hreads.trans ?_⟩
    have hne : memberIds s.store flag.workspaceId ≠ [] := fun hnil => memberIds_eq_nil.mp hnil hmember
    rw [createNotificationsForUsers, if_neg hne]
    have hfails : call.fails .savepoint = true := by simp [Call.fails, hfault]
    rw [hfails]
    exact Sql.nested_opening hs

theorem notifySignalRegressed_isolated {s : Session Store} {call : Call} {flag : Flag}
    (signalId : String) (hs : s.aborted = false)
    (h : ¬Poisons s.store call flag.workspaceId flag.workflowId) :
    (notifySignalRegressed call flag signalId s).2.aborted = false ∧
      Alike s.store (notifySignalRegressed call flag signalId s).2.store := by
  simp only [Poisons, not_or, not_and] at h
  obtain ⟨hworkflow, hmembers, hsavepoint⟩ := h
  obtain ⟨input, hreads⟩ := notifySignalRegressed_reads call flag signalId hs
    (fun hcall => by simpa using hworkflow (by simpa [Call.fails] using hcall))
    (by simpa [Call.fails] using hmembers)
  rw [hreads]
  by_cases hcall : call.fault = some .savepoint
  · -- there is nobody to notify
    have hnil := memberIds_eq_nil.mpr (hsavepoint hcall)
    rw [createNotificationsForUsers, if_pos hnil]
    exact ⟨hs, .refl _⟩
  · exact createNotificationsForUsers_isolated hs (by simpa [Call.fails] using hcall)

/-! ## One flag -/

/-- The signal and the link that an occurrence leaves. -/
def occurred (signalId : String) (flag : Flag) (store : Store) : Store :=
  linked flag (upsertSignal signalId flag (resolveWorkflowId store.executions flag)
    (findSignal store (signalKey flag.flagType (resolveWorkflowId store.executions flag)
      flag.nodeId))).id
    { store with signals := upserted signalId flag (resolveWorkflowId store.executions flag) store }

theorem recordSignalOccurrence_run {s : Session Store} (signalId : String) (flag : Flag)
    (hs : s.aborted = false) :
    ∃ signal, recordSignalOccurrence signalId flag s =
      (.ok (signal, justRegressed (findSignal s.store (signalKey flag.flagType
        (resolveWorkflowId s.store.executions flag) flag.nodeId))),
        { s with store := occurred signalId flag s.store }) := by
  refine ⟨upsertSignal signalId flag (resolveWorkflowId s.store.executions flag)
    (findSignal s.store (signalKey flag.flagType (resolveWorkflowId s.store.executions flag)
      flag.nodeId)), ?_⟩
  refine (Sql.bind_of_ok (Sql.statement_run hs)).trans ?_
  refine (Sql.bind_of_ok (Sql.statement_run hs)).trans ?_
  refine (Sql.bind_of_ok (Sql.statement_run hs)).trans ?_
  exact Sql.bind_of_ok (Sql.statement_run hs)

/-- The flag is there already. -/
def duplicate (store : Store) (input : NewFlag) : Bool :=
  store.flags.any fun flag => flag.dedupeKey = input.dedupeKey

/-- The signal key of a flag that the analyzer raises. -/
def NewFlag.key (input : NewFlag) (flagType : FlagType) : String :=
  signalKey flagType (given input.workflowId) none

def withFlag (store : Store) (flag : Flag) : Store := { store with flags := store.flags ++ [flag] }

/-- What a call of `createFlagIfNew` leaves, notifications apart. -/
def raised (store : Store) (raise : Call × NewFlag) : Store :=
  match raise.2.flagType with
  | none => store
  | some flagType =>
    if duplicate store raise.2 then store
    else occurred raise.1.signalId (raise.2.row flagType) (withFlag store (raise.2.row flagType))

/-- The call finds a resolved signal. -/
def regresses (store : Store) (input : NewFlag) : Bool :=
  match input.flagType with
  | none => false
  | some flagType =>
    !duplicate store input && justRegressed (findSignal store (input.key flagType))

theorem resolveWorkflowId_row (executions : List (String × String)) (input : NewFlag)
    (flagType : FlagType) :
    resolveWorkflowId executions (input.row flagType) = given input.workflowId := by
  have hrow : (input.row flagType).workflowId = input.workflowId := rfl
  rw [resolveWorkflowId, hrow]
  cases given input.workflowId with
  | none => rfl
  | some workflowId => rfl

theorem insertFlag_duplicate {s : Session Store} {input : NewFlag} {flagType : FlagType}
    (hs : s.aborted = false) (htype : input.flagType = some flagType)
    (hduplicate : duplicate s.store input = true) : insertFlag input s = (.ok none, s) := by
  unfold insertFlag
  rw [htype]
  refine (Sql.statement_run hs).trans ?_
  rw [duplicate] at hduplicate
  simp only [hduplicate, if_true]

theorem insertFlag_new {s : Session Store} {input : NewFlag} {flagType : FlagType}
    (hs : s.aborted = false) (htype : input.flagType = some flagType)
    (hduplicate : duplicate s.store input = false) :
    insertFlag input s = (.ok (some (input.row flagType)),
      { s with store := withFlag s.store (input.row flagType) }) := by
  unfold insertFlag
  rw [htype]
  refine (Sql.statement_run hs).trans ?_
  rw [duplicate] at hduplicate
  simp only [hduplicate, Bool.false_eq_true, if_false]
  rfl

theorem insertFlag_refused {s : Session Store} {input : NewFlag} (hs : s.aborted = false)
    (htype : input.flagType = none) :
    insertFlag input s = (.error "database error", { s with aborted := true }) := by
  unfold insertFlag
  rw [htype]
  exact Sql.statement_fails hs

/-- The transaction of a flag. -/
def flagTransaction (call : Call) (input : NewFlag) : Sql Store (Option (Flag × Signal × Bool)) :=
  .nested false false (do
    let flag ← insertFlag input
    linkFlag call flag)

theorem flagTransaction_refused {s : Session Store} (call : Call) {input : NewFlag}
    (hs : s.aborted = false) (htype : input.flagType = none) :
    ∃ s', flagTransaction call input s = (.error "database error", s') := by
  have hinsert := Sql.bind_of_error (f := linkFlag call)
    (insertFlag_refused (s := { s with savepoints := s.store :: s.savepoints }) hs htype)
  exact ⟨_, Sql.nested_error hs (Sql.bind_of_error hinsert) rfl⟩

theorem flagTransaction_run {s : Session Store} (call : Call) (input : NewFlag)
    (hs : s.aborted = false) (htype : input.flagType.isSome) :
    ∃ result, flagTransaction call input s =
        (.ok result, { s with store := raised s.store (call, input) }) ∧
      (∀ flag signal announced, result = some (flag, signal, announced) →
        flag.workspaceId = input.workspaceId ∧ flag.workflowId = input.workflowId) ∧
      ((∃ flag signal, result = some (flag, signal, true)) ↔ regresses s.store input = true) := by
  obtain ⟨flagType, htype⟩ := Option.isSome_iff_exists.mp htype
  cases hduplicate : duplicate s.store input with
  | true =>
    have hinsert := insertFlag_duplicate (s := { s with savepoints := s.store :: s.savepoints }) hs
      htype hduplicate
    have hbody : (insertFlag input >>= linkFlag call)
        { s with savepoints := s.store :: s.savepoints } =
          (.ok none, { s with savepoints := s.store :: s.savepoints }) := Sql.bind_of_ok hinsert
    refine ⟨none, (Sql.nested_ok hs (by exact hs) rfl hbody).trans ?_, by simp, ?_⟩
    · simp [raised, htype, hduplicate]
    · simp [regresses, htype, hduplicate]
  | false =>
    have hinsert := insertFlag_new (s := { s with savepoints := s.store :: s.savepoints }) hs htype
      hduplicate
    obtain ⟨signal, hrecord⟩ := recordSignalOccurrence_run
      (s := ⟨withFlag s.store (input.row flagType), s.store :: s.savepoints, s.aborted⟩)
      call.signalId (input.row flagType) hs
    rw [resolveWorkflowId_row] at hrecord
    have hlink : linkFlag call (some (input.row flagType))
        ⟨withFlag s.store (input.row flagType), s.store :: s.savepoints, s.aborted⟩ =
        (.ok (some (input.row flagType, signal,
          justRegressed (findSignal s.store (input.key flagType)))),
          ⟨occurred call.signalId (input.row flagType) (withFlag s.store (input.row flagType)),
            s.store :: s.savepoints, s.aborted⟩) := Sql.bind_of_ok hrecord
    have hbody := (Sql.bind_of_ok (f := linkFlag call) hinsert).trans hlink
    refine ⟨some (input.row flagType, signal,
      justRegressed (findSignal s.store (input.key flagType))),
      (Sql.nested_ok hs (by exact hs) rfl hbody).trans ?_, ?_, ?_⟩
    · simp [raised, htype, hduplicate]
    · rintro flag signal' announced heq
      cases heq
      exact ⟨rfl, rfl⟩
    · simp [regresses, htype, hduplicate]

theorem announce_poisoned {s : Session Store} {call : Call} {flag : Flag} {signal : Signal}
    (hs : s.aborted = false) (h : Poisons s.store call flag.workspaceId flag.workflowId) :
    announce call (some (flag, signal, true)) s = (.ok (), { s with aborted := true }) := by
  obtain ⟨e, hnotify⟩ := notifySignalRegressed_poisoned signal.id hs h
  exact Sql.catching_of_error hnotify

theorem announce_isolated {s : Session Store} {call : Call} {flag : Flag} (signal : Signal)
    (hs : s.aborted = false) (h : ¬Poisons s.store call flag.workspaceId flag.workflowId) :
    ∃ s', announce call (some (flag, signal, true)) s = (.ok (), s') ∧ s'.aborted = false ∧
      Alike s.store s'.store := by
  obtain ⟨haborted, halike⟩ := notifySignalRegressed_isolated signal.id hs h
  rcases hnotify : notifySignalRegressed call flag signal.id s with ⟨r, s'⟩
  rw [hnotify] at haborted halike
  refine ⟨s', ?_, haborted, halike⟩
  cases r with
  | ok u => exact Sql.catching_of_ok hnotify
  | error e => exact Sql.catching_of_error hnotify

/-- The calls that abort the analysis's transaction. -/
def Fatal (store : Store) (raise : Call × NewFlag) : Prop :=
  regresses store raise.2 = true ∧
    Poisons store raise.1 raise.2.workspaceId raise.2.workflowId

theorem raised_members (store : Store) (raise : Call × NewFlag) :
    (raised store raise).members = store.members := by
  unfold raised
  split
  · rfl
  · split
    · rfl
    · rfl

theorem createFlagIfNew_refused {s : Session Store} (call : Call) {input : NewFlag}
    (hs : s.aborted = false) (htype : input.flagType = none) :
    ∃ e s', createFlagIfNew call input s = (.error e, s') := by
  obtain ⟨s', hrun⟩ := flagTransaction_refused call hs htype
  exact ⟨_, s', Sql.bind_of_error hrun⟩

theorem createFlagIfNew_fatal {s : Session Store} {call : Call} {input : NewFlag}
    (hs : s.aborted = false) (htype : input.flagType.isSome) (h : Fatal s.store (call, input)) :
    ∃ flag s', createFlagIfNew call input s = (.ok flag, s') ∧ s'.aborted = true := by
  obtain ⟨result, hrun, hflag, hresult⟩ := flagTransaction_run call input hs htype
  obtain ⟨flag, signal, rfl⟩ := hresult.mpr h.1
  obtain ⟨hworkspace, hworkflow⟩ := hflag flag signal true rfl
  have hpoisons : Poisons (raised s.store (call, input)) call flag.workspaceId flag.workflowId := by
    rw [hworkspace, hworkflow, Poisons, raised_members]
    exact h.2
  refine ⟨_, _, (Sql.bind_of_ok hrun).trans (Sql.bind_of_ok (announce_poisoned ?_ hpoisons)), rfl⟩
  exact hs

theorem createFlagIfNew_run {s : Session Store} {call : Call} {input : NewFlag}
    (hs : s.aborted = false) (htype : input.flagType.isSome) (h : ¬Fatal s.store (call, input)) :
    ∃ flag s', createFlagIfNew call input s = (.ok flag, s') ∧ s'.aborted = false ∧
      Alike (raised s.store (call, input)) s'.store := by
  obtain ⟨result, hrun, hflag, hresult⟩ := flagTransaction_run call input hs htype
  cases result with
  | none => exact ⟨none, _, (Sql.bind_of_ok hrun).trans (Sql.bind_of_ok rfl), hs, .refl _⟩
  | some occurrence =>
    obtain ⟨flag, signal, announced⟩ := occurrence
    cases announced with
    | false => exact ⟨_, _, (Sql.bind_of_ok hrun).trans (Sql.bind_of_ok rfl), hs, .refl _⟩
    | true =>
      obtain ⟨hworkspace, hworkflow⟩ := hflag flag signal true rfl
      have hpoisons : ¬Poisons (raised s.store (call, input)) call flag.workspaceId
          flag.workflowId := by
        rw [hworkspace, hworkflow, Poisons, raised_members]
        exact fun hpoisons => h ⟨hresult.mp ⟨flag, signal, rfl⟩, hpoisons⟩
      obtain ⟨s', hannounce, haborted, halike⟩ := announce_isolated signal
        (s := { s with store := raised s.store (call, input) }) hs hpoisons
      exact ⟨_, s', (Sql.bind_of_ok hrun).trans (Sql.bind_of_ok hannounce), haborted, halike⟩

/-! ## All flags of an analysis -/

theorem raised_alike {store store' : Store} (raise : Call × NewFlag) (h : Alike store store') :
    Alike (raised store raise) (raised store' raise) := by
  obtain ⟨push, rfl⟩ := h
  refine ⟨push, ?_⟩
  unfold raised
  cases raise.2.flagType with
  | none => rfl
  | some flagType =>
    dsimp only
    change (if duplicate store raise.2 then _ else _) = _
    split
    · rfl
    · rfl

theorem foldl_raised_alike {store store' : Store} (raises : List (Call × NewFlag))
    (h : Alike store store') : Alike (raises.foldl raised store) (raises.foldl raised store') := by
  induction raises generalizing store store' with
  | nil => exact h
  | cons raise raises ih => exact ih (raised_alike raise h)

/-- The calls that find a resolved signal: those whose dedupe key is new and whose signal is
resolved and was not met by an earlier one of them. -/
def announcing (known resolved : String → Bool) : List (Call × NewFlag) → List (Call × NewFlag)
  | [] => []
  | (call, input) :: rest =>
    match input.flagType with
    | none => announcing known resolved rest
    | some flagType =>
      if known input.dedupeKey then announcing known resolved rest
      else (if resolved (input.key flagType) then [(call, input)] else []) ++
        announcing (Function.update known input.dedupeKey true)
          (Function.update resolved (input.key flagType) false) rest

def dedupeKeys (store : Store) (key : String) : Bool :=
  store.flags.any fun flag => flag.dedupeKey = key

def resolvedKeys (store : Store) (key : String) : Bool := justRegressed (findSignal store key)

theorem dedupeKeys_occurred (signalId : String) (flag : Flag) (store : Store) :
    dedupeKeys (occurred signalId flag (withFlag store flag)) =
      Function.update (dedupeKeys store) flag.dedupeKey true := by
  funext key
  have hany : dedupeKeys (occurred signalId flag (withFlag store flag)) key =
      dedupeKeys (withFlag store flag) key := by
    simp only [dedupeKeys, occurred, linked, List.any_map]
    congr 1
    funext row
    simp only [Function.comp]
    split
    · rfl
    · rfl
  rw [hany]
  by_cases hkey : key = flag.dedupeKey
  · rw [hkey, Function.update_self]
    simp [dedupeKeys, withFlag]
  · rw [Function.update_of_ne hkey]
    simp [dedupeKeys, withFlag, Ne.symm hkey]

theorem justRegressed_recur (flag : Flag) (signal : Signal) :
    justRegressed (some (recur flag signal)) = false := by
  have hresolved := upsertSignal_resolvedAt "" flag none (some signal)
  rw [upsertSignal] at hresolved
  simp [justRegressed, hresolved]

theorem resolvedKeys_occurred (signalId : String) (flag : Flag) (store : Store) :
    resolvedKeys (occurred signalId flag store) = Function.update (resolvedKeys store)
      (signalKey flag.flagType (resolveWorkflowId store.executions flag) flag.nodeId) false := by
  funext key
  change justRegressed ((upserted signalId flag (resolveWorkflowId store.executions flag)
    store).find? fun signal => signal.signalKey = key) = _
  set flagKey := signalKey flag.flagType (resolveWorkflowId store.executions flag) flag.nodeId
    with hflagKey
  unfold upserted
  rw [← hflagKey]
  cases hfind : findSignal store flagKey with
  | none =>
    dsimp only
    rw [List.find?_append, List.find?_singleton]
    by_cases hkey : key = flagKey
    · rw [hkey, Function.update_self]
      change justRegressed ((findSignal store flagKey).or _) = false
      rw [hfind, Option.none_or]
      split
      · rfl
      · rfl
    · rw [Function.update_of_ne hkey]
      have hnew : (newSignal signalId flag (resolveWorkflowId store.executions flag)).signalKey ≠
          key := fun heq => hkey heq.symm
      simp only [hnew, decide_false, Bool.false_eq_true, if_false, Option.or_none]
      rfl
  | some row =>
    dsimp only
    have hmap : (store.signals.map fun signal =>
        if signal.signalKey = flagKey then recur flag signal else signal).find?
          (fun signal => signal.signalKey = key) = (findSignal store key).map fun signal =>
            if signal.signalKey = flagKey then recur flag signal else signal := by
      rw [List.find?_map]
      congr 2
      funext signal
      simp only [Function.comp]
      split
      · rfl
      · rfl
    rw [hmap]
    by_cases hkey : key = flagKey
    · rw [hkey, Function.update_self, hfind, Option.map_some]
      have hrow : row.signalKey = flagKey := by simpa [findSignal] using List.find?_some hfind
      rw [if_pos hrow]
      exact justRegressed_recur flag row
    · rw [Function.update_of_ne hkey, resolvedKeys]
      cases hother : findSignal store key with
      | none => rfl
      | some other =>
        have hrow : other.signalKey = key := by simpa [findSignal] using List.find?_some hother
        rw [Option.map_some, if_neg (by rw [hrow]; exact hkey)]

/-- A list of calls from a store, and what follows the first one. -/
theorem announcing_cons {store : Store} {call : Call} {input : NewFlag}
    {rest : List (Call × NewFlag)} (htype : input.flagType.isSome) :
    announcing (dedupeKeys store) (resolvedKeys store) ((call, input) :: rest) =
      (if regresses store input then [(call, input)] else []) ++
        announcing (dedupeKeys (raised store (call, input)))
          (resolvedKeys (raised store (call, input))) rest := by
  obtain ⟨flagType, htype⟩ := Option.isSome_iff_exists.mp htype
  simp only [announcing, htype, regresses, raised]
  change (if duplicate store input then _ else _) = _
  cases hduplicate : duplicate store input with
  | true => simp
  | false =>
    simp only [Bool.false_eq_true, if_false, Bool.not_false, Bool.true_and]
    rw [dedupeKeys_occurred, resolvedKeys_occurred, resolveWorkflowId_row]
    rfl

theorem poisons_raised {store : Store} {call raise : Call} {input : NewFlag} {workspaceId : String}
    {workflowId : Option String} :
    Poisons (raised store (call, input)) raise workspaceId workflowId ↔
      Poisons store raise workspaceId workflowId := by
  rw [Poisons, Poisons, raised_members]

/-- Nothing stands in the way of the calls: the database knows the flag types, and no call that
announces a regression fails outside its savepoint. -/
def Unharmed (store : Store) (raises : List (Call × NewFlag)) : Prop :=
  (∀ raise ∈ raises, raise.2.flagType.isSome) ∧
    ∀ raise ∈ announcing (dedupeKeys store) (resolvedKeys store) raises,
      ¬Poisons store raise.1 raise.2.workspaceId raise.2.workflowId

theorem unharmed_cons {store : Store} {call : Call} {input : NewFlag}
    {rest : List (Call × NewFlag)} :
    Unharmed store ((call, input) :: rest) ↔ input.flagType.isSome ∧
      ¬Fatal store (call, input) ∧ Unharmed (raised store (call, input)) rest := by
  constructor
  · rintro ⟨htypes, hannouncing⟩
    have htype : input.flagType.isSome := htypes (call, input) (by simp)
    rw [announcing_cons htype] at hannouncing
    refine ⟨htype, fun hfatal => ?_, fun raise hraise => htypes raise (by simp [hraise]),
      fun raise hraise => ?_⟩
    · exact hannouncing (call, input) (by simp [hfatal.1]) hfatal.2
    · rw [poisons_raised]
      exact hannouncing raise (List.mem_append_right _ hraise)
  · rintro ⟨htype, hfatal, htypes, hannouncing⟩
    refine ⟨fun raise hraise => ?_, fun raise hraise => ?_⟩
    · rcases List.mem_cons.mp hraise with rfl | hrest
      · exact htype
      · exact htypes raise hrest
    · rw [announcing_cons htype] at hraise
      rcases List.mem_append.mp hraise with hfirst | hrest
      · split at hfirst
        · rename_i hregresses
          rw [List.mem_singleton] at hfirst
          subst hfirst
          exact fun hpoisons => hfatal ⟨hregresses, hpoisons⟩
        · cases hfirst
      · rw [← poisons_raised]
        exact hannouncing raise hrest

theorem unharmed_alike {store store' : Store} {raises : List (Call × NewFlag)}
    (h : Alike store store') : Unharmed store' raises ↔ Unharmed store raises := by
  obtain ⟨_, rfl⟩ := h
  rfl

/-- Calls that nothing stands in the way of. -/
theorem raiseFlags_run {s : Session Store} {raises : List (Call × NewFlag)} (hs : s.aborted = false)
    (h : Unharmed s.store raises) :
    ∃ s', raiseFlags raises s = (.ok (), s') ∧ s'.aborted = false ∧
      Alike (raises.foldl raised s.store) s'.store := by
  induction raises generalizing s with
  | nil => exact ⟨s, rfl, hs, .refl _⟩
  | cons raise rest ih =>
    obtain ⟨call, input⟩ := raise
    obtain ⟨htype, hfatal, hrest⟩ := unharmed_cons.mp h
    obtain ⟨flag, s₁, hrun, hs₁, halike⟩ := createFlagIfNew_run hs htype hfatal
    obtain ⟨s₂, hrun', hs₂, halike'⟩ := ih hs₁ ((unharmed_alike halike).mpr hrest)
    refine ⟨s₂, (Sql.bind_of_ok hrun).trans hrun', hs₂, ?_⟩
    exact (foldl_raised_alike rest halike).trans halike'

/-- Each call leaves the transaction usable. -/
def StaysUsable (s : Session Store) (raises : List (Call × NewFlag)) : Prop :=
  ∀ done rest, raises = done ++ rest →
    ∃ s', raiseFlags done s = (.ok (), s') ∧ s'.aborted = false

theorem staysUsable_iff {s : Session Store} {raises : List (Call × NewFlag)}
    (hs : s.aborted = false) : StaysUsable s raises ↔ Unharmed s.store raises := by
  constructor
  · intro h
    induction raises generalizing s with
    | nil => exact ⟨by simp, by simp [announcing]⟩
    | cons raise rest ih =>
      obtain ⟨call, input⟩ := raise
      obtain ⟨s₁, hfirst, hs₁⟩ := h [(call, input)] rest rfl
      have htype : input.flagType.isSome := by
        by_contra hnone
        obtain ⟨e, s', hrefused⟩ := createFlagIfNew_refused call hs (by simpa using hnone)
        rw [raiseFlags, Sql.bind_of_error hrefused] at hfirst
        cases hfirst
      have hfatal : ¬Fatal s.store (call, input) := by
        intro hfatal
        obtain ⟨flag, s', hrun, hs'⟩ := createFlagIfNew_fatal hs htype hfatal
        rw [raiseFlags, Sql.bind_of_ok hrun] at hfirst
        cases hfirst
        rw [hs'] at hs₁
        cases hs₁
      obtain ⟨flag, s', hrun, hs', halike⟩ := createFlagIfNew_run hs htype hfatal
      refine unharmed_cons.mpr ⟨htype, hfatal, (unharmed_alike halike).mp (ih hs' ?_)⟩
      intro done rest' hsplit
      obtain ⟨s₂, hdone, hs₂⟩ := h ((call, input) :: done) rest' (by rw [hsplit]; rfl)
      rw [raiseFlags, Sql.bind_of_ok hrun] at hdone
      exact ⟨s₂, hdone, hs₂⟩
  · rintro h done rest rfl
    induction done generalizing s with
    | nil => exact ⟨s, rfl, hs⟩
    | cons raise done ih =>
      obtain ⟨call, input⟩ := raise
      obtain ⟨htype, hfatal, hrest⟩ := unharmed_cons.mp h
      obtain ⟨flag, s₁, hrun, hs₁, halike⟩ := createFlagIfNew_run hs htype hfatal
      obtain ⟨s₂, hrun', hs₂⟩ := ih hs₁ ((unharmed_alike halike).mpr hrest)
      exact ⟨s₂, (Sql.bind_of_ok hrun).trans hrun', hs₂⟩

/-! ## The analysis -/

/-- The store when the first flag is raised. -/
def Write.started (write : Write) (store : Store) : Store :=
  { renewed write.conversation write.attemptCount write.now store with
    analyses := store.analyses ++ [write.analysis]
    findings := store.findings ++ write.findings.map Reported.finding }

def Write.session (write : Write) (store : Store) : Session Store := ⟨write.started store, [], false⟩

/-- Everything the analysis is to leave, notifications apart. -/
def Write.recorded (write : Write) (store : Store) : Store :=
  (flagged write.conversation write.findings).foldl raised (write.started store)

def Write.owned (write : Write) (store : Store) : Prop :=
  Analyzer.owned store write.conversation write.attemptCount = true

theorem insertConversationFindings_run {s : Session Store} (rows : List ConversationFinding)
    (hs : s.aborted = false) :
    insertConversationFindings rows s =
      (.ok (), { s with store := { s.store with findings := s.store.findings ++ rows } }) := by
  unfold insertConversationFindings
  split
  · rename_i hrows
    rw [hrows, List.append_nil]
    rfl
  · exact Sql.statement_run hs

theorem body_owned {write : Write} {store : Store} (h : write.owned store) :
    write.body ⟨store, [], false⟩ =
      (do
        raiseFlags (flagged write.conversation write.findings)
        pure (some write.analysis.id) : Sql Store (Option String)) (write.session store) := by
  have hclaim : renewClaimIfOwned write.conversation write.attemptCount write.now
      ⟨store, [], false⟩ =
        (.ok true, ⟨renewed write.conversation write.attemptCount write.now store, [], false⟩) := by
    refine (Sql.statement_run rfl).trans ?_
    rw [Write.owned] at h
    simp only [h]
  refine (Sql.bind_of_ok hclaim).trans ?_
  refine (Sql.bind_of_ok (Sql.statement_run rfl)).trans ?_
  exact Sql.bind_of_ok (insertConversationFindings_run _ rfl)

theorem body_lost {write : Write} {store : Store} (h : ¬write.owned store) :
    ∃ s', write.body ⟨store, [], false⟩ = (.ok none, s') := by
  have hclaim : renewClaimIfOwned write.conversation write.attemptCount write.now
      ⟨store, [], false⟩ =
        (.ok false, ⟨renewed write.conversation write.attemptCount write.now store, [], false⟩) := by
    refine (Sql.statement_run rfl).trans ?_
    rw [Write.owned, Bool.not_eq_true] at h
    simp only [h]
  exact ⟨_, Sql.bind_of_ok hclaim⟩

/-- An answer that names an analysis comes from a claim that was still owned. -/
theorem owned_of_processed {write : Write} {store : Store} {id : String}
    (h : (analyzeConversation write store).1 = .ok (.processed id)) : write.owned store := by
  by_contra hlost
  obtain ⟨s', hbody⟩ := body_lost hlost
  rw [analyzeConversation, Sql.transaction, hbody] at h
  cases h

theorem foldl_raised_analyses (raises : List (Call × NewFlag)) (store : Store) :
    (raises.foldl raised store).analyses = store.analyses := by
  induction raises generalizing store with
  | nil => rfl
  | cons raise raises ih =>
    rw [List.foldl_cons, ih]
    unfold raised
    split
    · rfl
    · split
      · rfl
      · rfl

/-- Every call leaves the transaction usable, everything the analysis records is committed, and an
answer that names an analysis names a committed one. -/
structure NothingLost (write : Write) (store : Store) : Prop where
  usable : write.owned store →
    StaysUsable (write.session store) (flagged write.conversation write.findings)
  committed : write.owned store →
    (analyzeConversation write store).1 = .ok (.processed write.analysis.id) ∧
      Alike (write.recorded store) (analyzeConversation write store).2
  processed : ∀ id, (analyzeConversation write store).1 = .ok (.processed id) →
    ∃ analysis ∈ (analyzeConversation write store).2.analyses, analysis.id = id

theorem analyzeConversation_unharmed {write : Write} {store : Store} (howned : write.owned store)
    (h : Unharmed (write.started store) (flagged write.conversation write.findings)) :
    (analyzeConversation write store).1 = .ok (.processed write.analysis.id) ∧
      Alike (write.recorded store) (analyzeConversation write store).2 := by
  obtain ⟨s', hrun, hs', halike⟩ := raiseFlags_run (s := write.session store) rfl h
  have hbody := (body_owned howned).trans (Sql.bind_of_ok hrun)
  rw [analyzeConversation, Sql.transaction, hbody]
  simp only [Sql.pure_run, hs', Bool.false_eq_true, if_false]
  exact ⟨trivial, halike⟩

/-- A failed notification loses nothing exactly when, of the calls that announce a regression, none
fails at a statement outside its savepoint, and every finding that raises a flag has a flag type. -/
theorem nothingLost_iff (write : Write) (store : Store) :
    NothingLost write store ↔ (write.owned store →
      Unharmed store (flagged write.conversation write.findings)) := by
  constructor
  · intro h howned
    exact (staysUsable_iff (s := write.session store) rfl).mp (h.usable howned)
  · intro h
    -- the analysis and its findings change neither the flags nor the signals
    change write.owned store →
      Unharmed (write.started store) (flagged write.conversation write.findings) at h
    refine ⟨fun howned => (staysUsable_iff rfl).mpr (h howned),
      fun howned => analyzeConversation_unharmed howned (h howned), fun id hid => ?_⟩
    have howned := owned_of_processed hid
    obtain ⟨hanswer, push, hstore⟩ := analyzeConversation_unharmed howned (h howned)
    rw [hanswer] at hid
    cases hid
    refine ⟨write.analysis, ?_, rfl⟩
    rw [hstore]
    change write.analysis ∈ (write.recorded store).analyses
    rw [Write.recorded, foldl_raised_analyses]
    exact List.mem_append_right _ (List.mem_singleton_self _)

namespace Sample

def conversation : ConversationDueForAnalysis := ⟨"w", "env", "wf", "c", 5, none⟩

def analysis : ConversationAnalysis :=
  ⟨"a", "w", "wf", "c", none, 5, "v2", some "m", none, 10, 2, 0, 0⟩

def call (fault : Option NotifyStatement) : Call := ⟨"s1", fun _ => "n", fun _ _ => "p", 0, fault⟩

def reported (fault : Option NotifyStatement) : Reported :=
  ⟨⟨"f", "a", "w", "user_experience", "frustrated", 1, "msg", "said so"⟩, "flag", 1, call fault⟩

def write (fault : Option NotifyStatement) : Write := ⟨conversation, 1, 0, analysis, [reported fault]⟩

/-- The signal of the finding is resolved. -/
def signal : Signal :=
  ⟨"s", "w", some "wf", none, .userFrustration, "user_frustration:wf:none", some 0, none⟩

def store : Store :=
  ⟨[⟨"w", "wf", "c", 0, 1⟩], [], [], [], [signal], [], [], [("w", "u")], ⟨[], [], []⟩⟩

end Sample

/-- The notification fails at its list of members: the transaction is aborted, its commit rolls it
back, and the answer names an analysis that is not there. -/
theorem analysis_lost : (analyzeConversation (Sample.write (some .listMemberUserIds)) Sample.store).1 =
      .ok (.processed "a") ∧
    (analyzeConversation (Sample.write (some .listMemberUserIds)) Sample.store).2.analyses = [] ∧
    ¬NothingLost (Sample.write (some .listMemberUserIds)) Sample.store := by
  have hanswer : (analyzeConversation (Sample.write (some .listMemberUserIds)) Sample.store).1 =
      .ok (.processed "a") := by decide +kernel
  have hnone : (analyzeConversation (Sample.write (some .listMemberUserIds))
      Sample.store).2.analyses = [] := List.isEmpty_iff.mp (by decide +kernel)
  refine ⟨hanswer, hnone, fun h => ?_⟩
  obtain ⟨analysis, hmem, _⟩ := h.processed "a" hanswer
  rw [hnone] at hmem
  cases hmem

end Linea.Analyzer
