import Linea.Schedules
import Linea.Runs
import Mathlib.Algebra.Order.Group.Int
import Mathlib.Tactic.Push
import Mathlib.Data.List.Nodup

/-! Pollers of the schedules in any order of their steps. A transaction holds the lock of the row it
has claimed until it commits or is rolled back, and a poll ends when nothing is left to claim or with
the first error. -/
namespace Linea.Schedules

/-- A poll at its last look at the table: the rows that were due when it began, and what it saw. -/
structure PollReport where
  poller : ℕ
  due : List Schedule
  seen : List Schedule
  locks : String → Option ℕ

inductive Phase
  | idle
  | polling (due : List Schedule) (since : ℤ)
  | claimed (report : PollReport) (now : ℤ) (schedule : Schedule)

/-- A due time of a schedule that has been used up. -/
structure Firing where
  schedule : String
  due : ℤ
  now : ℤ
  nextRunAt : ℤ
  result : TriggerWorkflowResult
deriving DecidableEq

/-- `issued` are the ids of all schedules there have been. `firings` and `reports` record what has
happened, the latest last. -/
structure State where
  db : Database
  pollers : ℕ → Phase
  locks : String → Option ℕ
  issued : List String
  firings : List Firing
  reports : List PollReport

inductive Act
  | begin (poller : ℕ) (now : ℤ)
  | empty (poller : ℕ) (now : ℤ)
  | claim (poller : ℕ) (now : ℤ) (scheduleId : String)
  | fire (poller : ℕ) (newId : String)
  | crash (poller : ℕ)
  | create (schedule : Schedule)
  | setEnabled (scheduleId : String) (enabled : Bool)
  | remove (scheduleId : String)
  | deploy (catalog : Catalog)

namespace State

/-- Due and not locked: what `for update skip locked` selects from. -/
def free (s : State) (now : ℤ) : List Schedule :=
  (getDueSchedules s.db now).filter fun row => (s.locks row.id).isNone

def become (s : State) (poller : ℕ) (phase : Phase) : State :=
  { s with pollers := Function.update s.pollers poller phase }

def unlock (s : State) (scheduleId : String) : State :=
  { s with locks := Function.update s.locks scheduleId none }

def report (s : State) (poller : ℕ) (due : List Schedule) : PollReport :=
  ⟨poller,due,s.db.schedules,s.locks⟩

/-- `none` when the act is not possible. The clock of a poller does not go back during a poll. -/
def step (parser : CronExpressionParser) (s : State) : Act → Option State
  | .begin poller now =>
    match s.pollers poller with
    | .idle => some (s.become poller (.polling (getDueSchedules s.db now) now))
    | _ => none
  | .empty poller now =>
    match s.pollers poller with
    | .polling due since =>
      if since ≤ now ∧ s.free now = [] then
        some { s.become poller .idle with reports := s.reports ++ [s.report poller due] }
      else none
    | _ => none
  | .claim poller now scheduleId =>
    match s.pollers poller, (s.free now).find? fun row => row.id = scheduleId with
    | .polling due since, some row =>
      if since ≤ now then
        some { s.become poller (.claimed (s.report poller due) now row) with
          locks := Function.update s.locks row.id (some poller) }
      else none
    | _, _ => none
  | .fire poller newId =>
    match s.pollers poller with
    | .claimed report now row =>
      match fireSchedule parser newId now row s.db with
      | none =>
        -- the error leaves the loop
        some { (s.become poller .idle).unlock row.id with reports := s.reports ++ [report] }
      | some (nextRunAt,result,db) =>
        some { (s.become poller (.polling report.due now)).unlock row.id with
          db := db
          firings := s.firings ++ [⟨row.id,row.nextRunAt,now,nextRunAt,result⟩] }
    | _ => none
  | .crash poller =>
    match s.pollers poller with
    | .claimed _ _ row => some ((s.become poller .idle).unlock row.id)
    | _ => some (s.become poller .idle)
  | .create row =>
    if row.id ∈ s.issued then none
    else some { s with
      db := { s.db with schedules := s.db.schedules ++ [row] }, issued := s.issued ++ [row.id] }
  | .setEnabled scheduleId enabled =>
    if (s.locks scheduleId).isSome then none
    else some { s with
      db := { s.db with
        schedules := s.db.schedules.map fun row =>
          if row.id = scheduleId then { row with enabled := enabled } else row } }
  | .remove scheduleId =>
    if (s.locks scheduleId).isSome then none
    else some { s with
      db := { s.db with schedules := s.db.schedules.filter fun row => row.id ≠ scheduleId } }
  | .deploy catalog => some { s with db := { s.db with catalog := catalog } }

/-- No poller has begun. -/
def start (db : Database) : State :=
  ⟨db,fun _ => .idle,fun _ => none,db.schedules.map (·.id),[],[]⟩

end State

section Property

variable (parser : CronExpressionParser)

/-- Each valid schedule that was due when the poll began has been fired or skipped for that time,
unless at the last look another poller holds it or it is no longer enabled. -/
def Settled (firings : List Firing) (report : PollReport) : Prop :=
  ∀ row ∈ report.due, Valid parser row →
    (∃ firing ∈ firings, firing.schedule = row.id ∧ firing.due = row.nextRunAt) ∨
    (∃ other, other ≠ report.poller ∧ report.locks row.id = some other) ∨
    ∀ current ∈ report.seen, current.id = row.id → current.enabled = false

/-- Due times are used up once and in their order, together with the executions they create, and no
poll that has not crashed leaves a valid schedule behind. -/
structure Independent (executions : List Execution) (s : State) : Prop where
  once : (s.firings.map fun firing => (firing.schedule,firing.due)).Nodup
  later : ∀ firing ∈ s.firings, firing.due ≤ firing.now ∧ firing.now < firing.nextRunAt
  moved : ∀ firing ∈ s.firings, ∀ row ∈ s.db.schedules, row.id = firing.schedule →
    firing.nextRunAt ≤ row.nextRunAt
  created : s.db.executions = executions ++ s.firings.filterMap fun firing => firing.result.execution
  settled : ∀ report ∈ s.reports, Settled parser s.firings report

/-- The row that is claimed can be evaluated, or no valid one is free. -/
def Evaluates (s : State) : Act → Prop
  | .claim _ now scheduleId =>
    (∀ row ∈ s.free now, row.id = scheduleId → (computeNextRunAt parser row now).isSome) ∨
    ∀ row ∈ s.free now, ¬Valid parser row
  | _ => True

end Property

section Invariant

/-- The same schedule, due at the same time. -/
structure Same (row row' : Schedule) : Prop where
  id : row'.id = row.id
  nextRunAt : row'.nextRunAt = row.nextRunAt
  cronExpression : row'.cronExpression = row.cronExpression
  timezone : row'.timezone = row.timezone

def Fired (firings : List Firing) (row : Schedule) : Prop :=
  ∃ firing ∈ firings, firing.schedule = row.id ∧ firing.due = row.nextRunAt

/-- The rows of a poll that are not fired stand as they stood at its beginning. -/
def Owed (s : State) (due : List Schedule) (since : ℤ) : Prop :=
  ∀ row ∈ due, row.id ∈ s.issued ∧ row.nextRunAt ≤ since ∧
    (Fired s.firings row ∨ ∀ row' ∈ s.db.schedules, row'.id = row.id → Same row row')

variable (parser : CronExpressionParser)

/-- What a poller knows of the row it has locked. -/
structure Holds (s : State) (poller : ℕ) (report : PollReport) (now : ℤ) (row : Schedule) :
    Prop where
  owed : Owed s report.due now
  locked : s.locks row.id = some poller
  mem : row ∈ s.db.schedules
  due : row.nextRunAt ≤ now
  settled : (computeNextRunAt parser row now).isSome ∨ Settled parser s.firings report

def Works (s : State) (poller : ℕ) : Phase → Prop
  | .idle => True
  | .polling due since => Owed s due since
  | .claimed report now row => Holds parser s poller report now row

structure Sound (executions : List Execution) (s : State) : Prop
    extends Independent parser executions s where
  key : (s.db.schedules.map (·.id)).Nodup
  issued : ∀ row ∈ s.db.schedules, row.id ∈ s.issued
  fired : ∀ firing ∈ s.firings, firing.schedule ∈ s.issued
  holder : ∀ id poller, s.locks id = some poller →
    ∃ report now row, s.pollers poller = .claimed report now row ∧ row.id = id
  works : ∀ poller, Works parser s poller (s.pollers poller)

/-- What a step leaves to the pollers other than the one that takes it: their rows stand, and a row
that has moved on has been fired. -/
structure Frame (mover : Option ℕ) (s s' : State) : Prop where
  issued : s.issued ⊆ s'.issued
  firings : s.firings ⊆ s'.firings
  rows : ∀ row' ∈ s'.db.schedules, row'.id ∈ s.issued → ∃ row ∈ s.db.schedules,
    row'.id = row.id ∧ (Same row row' ∨ Fired s'.firings row)
  pollers : ∀ poller, some poller ≠ mover → s'.pollers poller = s.pollers poller
  locks : ∀ poller, some poller ≠ mover → ∀ id, s.locks id = some poller →
    s'.locks id = some poller
  mem : ∀ poller, some poller ≠ mover → ∀ row ∈ s.db.schedules, s.locks row.id = some poller →
    row ∈ s'.db.schedules

variable {parser} {s s' : State} {executions : List Execution} {due : List Schedule} {since : ℤ}
  {poller : ℕ} {mover : Option ℕ}

lemma Fired.mono {firings firings' : List Firing} {row : Schedule} (h : Fired firings row)
    (hsub : firings ⊆ firings') : Fired firings' row := by
  obtain ⟨firing,hmem,heq⟩ := h
  exact ⟨firing,hsub hmem,heq⟩

lemma Settled.mono {firings firings' : List Firing} {report : PollReport}
    (h : Settled parser firings report) (hsub : firings ⊆ firings') :
    Settled parser firings' report :=
  fun row hrow hvalid => (h row hrow hvalid).imp_left fun hfired => Fired.mono hfired hsub

lemma Owed.mono {since' : ℤ} (h : Owed s due since) (hsince : since ≤ since')
    (hframe : Frame mover s s') : Owed s' due since' := by
  intro row hrow
  obtain ⟨hissued,hle,hfired⟩ := h row hrow
  refine ⟨hframe.issued hissued,hle.trans hsince,?_⟩
  by_cases hnew : Fired s'.firings row
  · exact .inl hnew
  refine .inr fun row' hrow' hid => ?_
  obtain ⟨row₀,hrow₀,hid₀,hsame⟩ := hframe.rows row' hrow' (hid ▸ hissued)
  have hstands : Same row row₀ := hfired.resolve_left (fun hold => hnew (hold.mono hframe.firings))
    row₀ hrow₀ (hid₀.symm.trans hid)
  obtain hsame | ⟨firing,hmem,hschedule,hdue⟩ := hsame
  · exact ⟨hid,hsame.nextRunAt.trans hstands.nextRunAt,
      hsame.cronExpression.trans hstands.cronExpression,hsame.timezone.trans hstands.timezone⟩
  · exact absurd ⟨firing,hmem,hschedule.trans hstands.id,hdue.trans hstands.nextRunAt⟩ hnew

lemma Frame.works (hframe : Frame mover s s') (hmover : some poller ≠ mover)
    (h : Works parser s poller (s.pollers poller)) :
    Works parser s' poller (s'.pollers poller) := by
  rw [hframe.pollers poller hmover]
  cases hphase : s.pollers poller with
  | idle => trivial
  | polling due since =>
    rw [hphase] at h
    exact Owed.mono h le_rfl hframe
  | claimed report now row =>
    rw [hphase] at h
    exact ⟨h.owed.mono le_rfl hframe,hframe.locks poller hmover row.id h.locked,
      hframe.mem poller hmover row h.mem h.locked,h.due,
      h.settled.imp_right fun hsettled => hsettled.mono hframe.firings⟩

/-- At a look that finds no valid row free, everything is settled. -/
lemma Owed.settled {now : ℤ} (h : Owed s due since) (hsince : since ≤ now)
    (hlock : ∀ id, s.locks id ≠ some poller)
    (hfree : ∀ row ∈ s.free now, ¬Valid parser row) :
    Settled parser s.firings (s.report poller due) := by
  intro row hrow hvalid
  obtain ⟨-,hle,hfired⟩ := h row hrow
  refine hfired.imp_right fun hstands => ?_
  by_cases henabled : ∀ current ∈ s.db.schedules, current.id = row.id → current.enabled = false
  · exact .inr henabled
  push Not at henabled
  obtain ⟨current,hcurrent,hid,henabled⟩ := henabled
  have hsame := hstands current hcurrent hid
  have hvalid' : Valid parser current := fun date => by
    have := hvalid date
    rwa [computeNextRunAt,← hsame.cronExpression,← hsame.timezone] at this
  refine .inl ?_
  cases hheld : s.locks current.id with
  | some other => exact ⟨other,fun heq => hlock _ (heq ▸ hheld),hid ▸ hheld⟩
  | none =>
    refine absurd hvalid' (hfree current ?_)
    have hdue : current.nextRunAt ≤ now := by
      rw [hsame.nextRunAt]
      exact hle.trans hsince
    simp [State.free,getDueSchedules,Schedules.due,hcurrent,hheld,henabled,hdue]

lemma sound_start (db : Database) (hkey : (db.schedules.map (·.id)).Nodup) :
    Sound parser db.executions (.start db) where
  once := List.nodup_nil
  later := List.forall_mem_nil _
  moved := List.forall_mem_nil _
  created := (List.append_nil _).symm
  settled := List.forall_mem_nil _
  key := hkey
  issued _ hrow := List.mem_map_of_mem hrow
  fired := List.forall_mem_nil _
  holder _ _ h := by simp [State.start] at h
  works _ := trivial

/-- A step that neither writes a schedule nor fires one. -/
lemma Frame.of_eq (hdb : s'.db.schedules = s.db.schedules) (hissued : s'.issued = s.issued)
    (hfirings : s'.firings = s.firings)
    (hpollers : ∀ poller, some poller ≠ mover → s'.pollers poller = s.pollers poller)
    (hlocks : ∀ poller, some poller ≠ mover → ∀ id, s.locks id = some poller →
      s'.locks id = some poller) : Frame mover s s' where
  issued := by rw [hissued]; exact fun _ h => h
  firings := by rw [hfirings]; exact fun _ h => h
  rows row hrow _ := ⟨row,hdb ▸ hrow,rfl,.inl ⟨rfl,rfl,rfl,rfl⟩⟩
  pollers := hpollers
  locks := hlocks
  mem _ _ row hrow _ := hdb ▸ hrow

/-- The pollers that do not move keep what they know, so only the mover's part is left to show. -/
lemma Frame.all_works (hframe : Frame (some poller) s s')
    (h : ∀ other, Works parser s other (s.pollers other)) {phase : Phase}
    (hphase : s'.pollers poller = phase) (hmover : Works parser s' poller phase) :
    ∀ other, Works parser s' other (s'.pollers other) := by
  intro other
  by_cases heq : other = poller
  · rw [heq,hphase]
    exact hmover
  · exact hframe.works (by simpa using heq) (h other)

end Invariant

section Steps

variable {parser : CronExpressionParser} {s s' : State} {executions : List Execution}

lemma due_iff {now : ℤ} {row : Schedule} :
    due now row ↔ row.enabled = true ∧ row.nextRunAt ≤ now := by
  simp [due]

lemma become_self (s : State) (poller : ℕ) (phase : Phase) :
    (s.become poller phase).pollers poller = phase :=
  Function.update_self ..

lemma become_other {poller other : ℕ} {phase : Phase} (h : other ≠ poller) :
    (s.become poller phase).pollers other = s.pollers other :=
  Function.update_of_ne h ..

lemma Sound.unlocked (poller : ℕ) (hs : Sound parser executions s)
    (hphase : ∀ report now row, s.pollers poller ≠ .claimed report now row) (id : String) :
    s.locks id ≠ some poller := fun hlock => by
  obtain ⟨report,now,row,hclaimed,-⟩ := hs.holder id poller hlock
  exact hphase report now row hclaimed

/-- The locks of the pollers that have not moved. -/
lemma Sound.holders {poller : ℕ} (hs : Sound parser executions s)
    (hpollers : ∀ other, other ≠ poller → s'.pollers other = s.pollers other)
    (hlocks : ∀ id other, s'.locks id = some other → other ≠ poller ∧ s.locks id = some other)
    (id : String) (other : ℕ) (h : s'.locks id = some other) :
    ∃ report now row, s'.pollers other = .claimed report now row ∧ row.id = id := by
  obtain ⟨hother,hold⟩ := hlocks id other h
  obtain ⟨report,now,row,hphase,hid⟩ := hs.holder id other hold
  exact ⟨report,now,row,(hpollers other hother).trans hphase,hid⟩

lemma Sound.polling {poller : ℕ} {due : List Schedule} {since : ℤ} (hs : Sound parser executions s)
    (h : s.pollers poller = .polling due since) : Owed s due since := by
  have hworks := hs.works poller
  rwa [h] at hworks

lemma Sound.claimed {poller : ℕ} {report : PollReport} {now : ℤ} {row : Schedule}
    (hs : Sound parser executions s) (h : s.pollers poller = .claimed report now row) :
    Holds parser s poller report now row := by
  have hworks := hs.works poller
  rwa [h] at hworks

lemma sound_begin {poller : ℕ} {now : ℤ} (hs : Sound parser executions s)
    (h : s.step parser (.begin poller now) = some s') : Sound parser executions s' := by
  simp only [State.step] at h
  split at h
  case h_2 => cases h
  case h_1 hidle =>
    cases h
    have hframe : Frame (some poller) s
        (s.become poller (.polling (getDueSchedules s.db now) now)) :=
      .of_eq rfl rfl rfl (fun other hother => become_other (by simpa using hother)) fun _ _ _ h => h
    have hunlocked := hs.unlocked poller (by simp [hidle])
    refine { hs with
      holder := hs.holders (fun other => become_other) fun id other hlock => ⟨?_,hlock⟩
      works := hframe.all_works hs.works (become_self ..) fun row hrow => ?_ }
    · rintro rfl
      exact hunlocked id hlock
    · obtain ⟨hmem,hdue⟩ := List.mem_filter.mp hrow
      refine ⟨hs.issued row hmem,(due_iff.mp hdue).2,.inr fun row' hmem' hid => ?_⟩
      rw [List.inj_on_of_nodup_map hs.key hmem' hmem hid]
      exact ⟨rfl,rfl,rfl,rfl⟩

lemma sound_empty {poller : ℕ} {now : ℤ} (hs : Sound parser executions s)
    (h : s.step parser (.empty poller now) = some s') : Sound parser executions s' := by
  simp only [State.step] at h
  split at h
  case h_2 => cases h
  case h_1 due since hpolling =>
    simp only [Option.ite_none_right_eq_some,Option.some.injEq] at h
    obtain ⟨⟨hsince,hfree⟩,rfl⟩ := h
    have hunlocked := hs.unlocked poller (by simp [hpolling])
    have howed := hs.polling hpolling
    have hsettled : Settled parser s.firings (s.report poller due) :=
      howed.settled hsince hunlocked (by simp [hfree])
    have hframe : Frame (some poller) s
        { s.become poller .idle with reports := s.reports ++ [s.report poller due] } :=
      .of_eq rfl rfl rfl (fun other hother => become_other (by simpa using hother)) fun _ _ _ h => h
    refine { hs with
      settled := List.forall_mem_append.mpr ⟨hs.settled,List.forall_mem_singleton.mpr hsettled⟩
      holder := hs.holders (fun other => become_other) fun id other hlock => ⟨?_,hlock⟩
      works := hframe.all_works hs.works (become_self ..) trivial }
    rintro rfl
    exact hunlocked id hlock

lemma sound_claim {poller : ℕ} {now : ℤ} {scheduleId : String} (hs : Sound parser executions s)
    (hok : Evaluates parser s (.claim poller now scheduleId))
    (h : s.step parser (.claim poller now scheduleId) = some s') : Sound parser executions s' := by
  simp only [State.step] at h
  split at h
  case h_2 => cases h
  case h_1 due since row hpolling hfind =>
    simp only [Option.ite_none_right_eq_some,Option.some.injEq] at h
    obtain ⟨hsince,rfl⟩ := h
    have hfree : row ∈ s.free now := List.mem_of_find?_eq_some hfind
    have hid : row.id = scheduleId := by simpa using List.find?_some hfind
    obtain ⟨hdue,hnone⟩ := List.mem_filter.mp hfree
    obtain ⟨hmem,hdue⟩ := List.mem_filter.mp hdue
    have hunlocked := hs.unlocked poller (by simp [hpolling])
    have howed := hs.polling hpolling
    have hsettled : (computeNextRunAt parser row now).isSome ∨
        Settled parser s.firings (s.report poller due) :=
      hok.imp (fun hvalid => hvalid row hfree hid) fun hfree => howed.settled hsince hunlocked hfree
    have hkept (id : String) (other : ℕ) (hlock : s.locks id = some other) : id ≠ row.id := by
      rintro rfl
      simp [hlock] at hnone
    have hframe : Frame (some poller) s
        { s.become poller (.claimed (s.report poller due) now row) with
          locks := Function.update s.locks row.id (some poller) } :=
      .of_eq rfl rfl rfl (fun other hother => become_other (by simpa using hother))
        fun other _ id hlock => (Function.update_of_ne (hkept id other hlock) ..).trans hlock
    refine { hs with
      holder := fun id other hlock => ?_
      works := hframe.all_works hs.works (become_self ..) ⟨howed.mono hsince hframe,
        Function.update_self ..,hmem,(due_iff.mp hdue).2,hsettled⟩ }
    by_cases hsame : id = row.id
    · have hother : poller = other := by
        subst hsame
        simpa using hlock
      subst hother
      exact ⟨_,now,row,become_self ..,hsame.symm⟩
    · have hold : s.locks id = some other := (Function.update_of_ne hsame ..).symm.trans hlock
      have hother : other ≠ poller := by
        rintro rfl
        exact hunlocked id hold
      obtain ⟨report,at',held,hphase,hheld⟩ := hs.holder id other hold
      exact ⟨report,at',held,(become_other hother).trans hphase,hheld⟩

/-- A transaction that ends lets go of the one row it has locked. -/
lemma Sound.released {poller : ℕ} {report : PollReport} {now : ℤ} {row : Schedule}
    (hs : Sound parser executions s) (h : s.pollers poller = .claimed report now row)
    (id : String) (other : ℕ) (hlock : Function.update s.locks row.id none id = some other) :
    other ≠ poller ∧ s.locks id = some other := by
  have hid : id ≠ row.id := by
    rintro rfl
    simp at hlock
  have hold : s.locks id = some other := (Function.update_of_ne hid ..).symm.trans hlock
  refine ⟨?_,hold⟩
  rintro rfl
  obtain ⟨_,_,_,hclaimed,hheld⟩ := hs.holder id other hold
  rw [h] at hclaimed
  cases hclaimed
  exact hid hheld.symm

lemma Sound.kept {poller other : ℕ} {report : PollReport} {now : ℤ} {row : Schedule}
    (hs : Sound parser executions s) (h : s.pollers poller = .claimed report now row)
    (hother : some other ≠ some poller) {id : String} (hlock : s.locks id = some other) :
    Function.update s.locks row.id none id = some other := by
  refine (Function.update_of_ne ?_ ..).trans hlock
  rintro rfl
  exact hother (hlock.symm.trans (hs.claimed h).locked)

lemma sound_crash {poller : ℕ} (hs : Sound parser executions s)
    (h : s.step parser (.crash poller) = some s') : Sound parser executions s' := by
  simp only [State.step] at h
  split at h
  case h_1 report now row hclaimed =>
    cases h
    have hframe : Frame (some poller) s ((s.become poller .idle).unlock row.id) :=
      .of_eq rfl rfl rfl (fun other hother => become_other (by simpa using hother))
        fun other hother id hlock => hs.kept hclaimed hother hlock
    exact { hs with
      holder := hs.holders (fun other => become_other) (hs.released hclaimed)
      works := hframe.all_works hs.works (become_self ..) trivial }
  case h_2 hphase =>
    cases h
    have hframe : Frame (some poller) s (s.become poller .idle) :=
      .of_eq rfl rfl rfl (fun other hother => become_other (by simpa using hother)) fun _ _ _ h => h
    refine { hs with
      holder := hs.holders (fun other => become_other) fun id other hlock => ⟨?_,hlock⟩
      works := hframe.all_works hs.works (become_self ..) trivial }
    rintro rfl
    exact hs.unlocked _ hphase id hlock

lemma sound_fire {poller : ℕ} {newId : String} (hs : Sound parser executions s)
    (h : s.step parser (.fire poller newId) = some s') : Sound parser executions s' := by
  simp only [State.step] at h
  split at h
  case h_2 => cases h
  case h_1 report now row hclaimed =>
    have hholds := hs.claimed hclaimed
    split at h
    case h_1 hnone =>
      cases h
      have hfails : ¬(computeNextRunAt parser row now).isSome := by
        simpa [fireSchedule] using hnone
      have hframe : Frame (some poller) s
          { (s.become poller .idle).unlock row.id with reports := s.reports ++ [report] } :=
        .of_eq rfl rfl rfl (fun other hother => become_other (by simpa using hother))
          fun other hother id hlock => hs.kept hclaimed hother hlock
      exact { hs with
        settled := List.forall_mem_append.mpr ⟨hs.settled,List.forall_mem_singleton.mpr
          (hholds.settled.resolve_left hfails)⟩
        holder := hs.holders (fun other => become_other) (hs.released hclaimed)
        works := hframe.all_works hs.works (become_self ..) trivial }
    case h_2 nextRunAt result db hsome =>
      obtain ⟨hlater,hschedules,hexecutions⟩ := fireSchedule_some hsome
      cases h
      set firing : Firing := ⟨row.id,row.nextRunAt,now,nextRunAt,result⟩ with hfiring
      -- a row after the step is one before it, and the fired one only moves on
      have hrow : ∀ row' ∈ db.schedules, ∃ old ∈ s.db.schedules, row'.id = old.id ∧
          (old ≠ row ∧ row' = old ∨ old = row ∧ row'.nextRunAt = nextRunAt) := by
        intro row' hmem
        rw [hschedules] at hmem
        obtain ⟨old,hold,rfl⟩ := List.mem_map.mp hmem
        refine ⟨old,hold,advance_id ..,?_⟩
        by_cases hid : old.id = row.id
        · have heq : old = row := List.inj_on_of_nodup_map hs.key hold hholds.mem hid
          exact .inr ⟨heq,by rw [advance,if_pos hid]⟩
        · exact .inl ⟨fun heq => hid (by rw [heq]),if_neg hid⟩
      have hbefore (old : Firing) (hold : old ∈ s.firings) (hid : row.id = old.schedule) :
          old.due < row.nextRunAt :=
        ((hs.later old hold).1.trans_lt (hs.later old hold).2).trans_le
          (hs.moved old hold row hholds.mem hid)
      have hframe : Frame (some poller) s
          { (s.become poller (.polling report.due now)).unlock row.id with
            db := db, firings := s.firings ++ [firing] } := {
        issued := fun _ h => h
        firings := List.subset_append_left ..
        rows := fun row' hmem _ => by
          obtain ⟨old,hold,hid,⟨-,rfl⟩ | ⟨rfl,-⟩⟩ := hrow row' hmem
          · exact ⟨row',hold,rfl,.inl ⟨rfl,rfl,rfl,rfl⟩⟩
          · exact ⟨old,hold,hid,.inr ⟨firing,by simp,rfl,rfl⟩⟩
        pollers := fun other hother => become_other (by simpa using hother)
        locks := fun other hother id hlock => hs.kept hclaimed hother hlock
        mem := fun other hother held hmem hlock => by
          rw [hschedules]
          refine List.mem_map.mpr ⟨held,hmem,if_neg fun hid => ?_⟩
          rw [hid] at hlock
          exact hother (hlock.symm.trans hholds.locked) }
      exact {
        once := by
          rw [List.map_append,List.nodup_append]
          refine ⟨hs.once,List.nodup_singleton _,fun pair hpair pair' hpair' heq => ?_⟩
          obtain ⟨old,hold,rfl⟩ := List.mem_map.mp hpair
          rw [List.map_singleton,List.mem_singleton] at hpair'
          obtain ⟨hid,hdue⟩ := Prod.mk.inj (heq.trans hpair')
          exact absurd hdue (hbefore old hold hid.symm).ne
        later := List.forall_mem_append.mpr ⟨hs.later,
          List.forall_mem_singleton.mpr ⟨hholds.due,hlater⟩⟩
        moved := by
          refine List.forall_mem_append.mpr ⟨fun old hold row' hmem hid => ?_,
            List.forall_mem_singleton.mpr fun row' hmem hid => ?_⟩
          · obtain ⟨row₀,hrow₀,hid₀,⟨-,rfl⟩ | ⟨rfl,hnext⟩⟩ := hrow row' hmem
            · exact hs.moved old hold _ hrow₀ hid
            · rw [hnext]
              exact (hs.moved old hold _ hrow₀ (hid₀.symm.trans hid)).trans
                (hholds.due.trans hlater.le)
          · obtain ⟨row₀,hrow₀,hid₀,⟨hne,-⟩ | ⟨-,hnext⟩⟩ := hrow row' hmem
            · exact absurd (List.inj_on_of_nodup_map hs.key hrow₀ hholds.mem
                (hid₀.symm.trans hid)) hne
            · exact hnext.ge
        created := by
          have hcreated : [firing].filterMap (fun firing => firing.result.execution) =
              result.execution.toList := by
            cases hresult : result.execution <;> simp [hfiring,hresult]
          rw [List.filterMap_append,← List.append_assoc,← hs.created,hcreated]
          exact hexecutions
        settled := fun report hreport => (hs.settled report hreport).mono (List.subset_append_left ..)
        key := by
          rw [hschedules,List.map_map]
          simpa [Function.comp_def] using hs.key
        issued := fun row' hmem => by
          obtain ⟨old,hold,hid,-⟩ := hrow row' hmem
          exact hid ▸ hs.issued old hold
        fired := List.forall_mem_append.mpr ⟨hs.fired,
          List.forall_mem_singleton.mpr (hs.issued row hholds.mem)⟩
        holder := hs.holders (fun other => become_other) (hs.released hclaimed)
        works := hframe.all_works hs.works (become_self ..) (hholds.owed.mono le_rfl hframe) }

lemma sound_create {row : Schedule} (hs : Sound parser executions s)
    (h : s.step parser (.create row) = some s') : Sound parser executions s' := by
  simp only [State.step] at h
  split at h
  · cases h
  rename_i hfresh
  cases h
  have hnew (row' : Schedule) (hmem : row' ∈ s.db.schedules ++ [row]) :
      row' ∈ s.db.schedules ∨ row' = row := by simpa using hmem
  have hframe : Frame none s { s with
      db := { s.db with schedules := s.db.schedules ++ [row] }, issued := s.issued ++ [row.id] } := {
    issued := List.subset_append_left ..
    firings := fun _ h => h
    rows := fun row' hmem hissued => by
      obtain hold | rfl := hnew row' hmem
      · exact ⟨row',hold,rfl,.inl ⟨rfl,rfl,rfl,rfl⟩⟩
      · exact absurd hissued hfresh
    pollers := fun _ _ => rfl
    locks := fun _ _ _ h => h
    mem := fun _ _ _ hmem _ => List.mem_append_left _ hmem }
  exact { hs with
    moved := fun firing hfiring row' hmem hid => by
      obtain hold | rfl := hnew row' hmem
      · exact hs.moved firing hfiring row' hold hid
      · exact absurd (hid ▸ hs.fired firing hfiring) hfresh
    key := by
      rw [List.map_append,List.nodup_append]
      refine ⟨hs.key,List.nodup_singleton _,fun id hid id' hid' heq => hfresh ?_⟩
      obtain ⟨old,hold,rfl⟩ := List.mem_map.mp hid
      rw [List.map_singleton,List.mem_singleton] at hid'
      exact hid' ▸ heq ▸ hs.issued old hold
    issued := fun row' hmem => by
      obtain hold | rfl := hnew row' hmem
      · exact List.mem_append_left _ (hs.issued row' hold)
      · simp
    fired := fun firing hfiring => List.mem_append_left _ (hs.fired firing hfiring)
    works := fun poller => hframe.works nofun (hs.works poller) }

lemma sound_setEnabled {scheduleId : String} {enabled : Bool} (hs : Sound parser executions s)
    (h : s.step parser (.setEnabled scheduleId enabled) = some s') :
    Sound parser executions s' := by
  simp only [State.step] at h
  split at h
  · cases h
  rename_i hunlocked
  cases h
  set toggle : Schedule → Schedule := fun row =>
    if row.id = scheduleId then { row with enabled := enabled } else row with htoggle
  have hsame (row : Schedule) : Same row (toggle row) := by
    simp only [htoggle]
    split <;> exact ⟨rfl,rfl,rfl,rfl⟩
  have hrow : ∀ row' ∈ s.db.schedules.map toggle, ∃ row ∈ s.db.schedules, Same row row' :=
    List.forall_mem_map.mpr fun row hmem => ⟨row,hmem,hsame row⟩
  have hframe : Frame none s { s with
      db := { s.db with schedules := s.db.schedules.map toggle } } := {
    issued := fun _ h => h
    firings := fun _ h => h
    rows := fun row' hmem _ => by
      obtain ⟨row,hold,hrow⟩ := hrow row' hmem
      exact ⟨row,hold,hrow.id,.inl hrow⟩
    pollers := fun _ _ => rfl
    locks := fun _ _ _ h => h
    mem := fun poller _ row hmem hlock => by
      refine List.mem_map.mpr ⟨row,hmem,if_neg fun hid => hunlocked ?_⟩
      rw [← hid,hlock]
      rfl }
  exact { hs with
    moved := fun firing hfiring row' hmem hid => by
      obtain ⟨row,hold,hrow⟩ := hrow row' hmem
      rw [hrow.nextRunAt]
      exact hs.moved firing hfiring row hold (hrow.id.symm.trans hid)
    key := by
      rw [List.map_map]
      simpa [Function.comp_def,(hsame _).id] using hs.key
    issued := fun row' hmem => by
      obtain ⟨row,hold,hrow⟩ := hrow row' hmem
      exact hrow.id ▸ hs.issued row hold
    works := fun poller => hframe.works nofun (hs.works poller) }

lemma sound_remove {scheduleId : String} (hs : Sound parser executions s)
    (h : s.step parser (.remove scheduleId) = some s') : Sound parser executions s' := by
  simp only [State.step] at h
  split at h
  · cases h
  rename_i hunlocked
  cases h
  have hsub : s.db.schedules.filter (fun row => row.id ≠ scheduleId) ⊆ s.db.schedules :=
    List.filter_subset_self _
  have hframe : Frame none s { s with
      db := { s.db with
        schedules := s.db.schedules.filter fun row => row.id ≠ scheduleId } } := {
    issued := fun _ h => h
    firings := fun _ h => h
    rows := fun row' hmem _ => ⟨row',hsub hmem,rfl,.inl ⟨rfl,rfl,rfl,rfl⟩⟩
    pollers := fun _ _ => rfl
    locks := fun _ _ _ h => h
    mem := fun poller _ row hmem hlock => by
      refine List.mem_filter.mpr ⟨hmem,decide_eq_true fun hid => hunlocked ?_⟩
      rw [← hid,hlock]
      rfl }
  exact { hs with
    moved := fun firing hfiring row' hmem => hs.moved firing hfiring row' (hsub hmem)
    key := hs.key.sublist (List.filter_sublist.map _)
    issued := fun row' hmem => hs.issued row' (hsub hmem)
    works := fun poller => hframe.works nofun (hs.works poller) }

lemma sound_step {act : Act} (hs : Sound parser executions s) (hok : Evaluates parser s act)
    (h : s.step parser act = some s') : Sound parser executions s' := by
  cases act with
  | begin poller now => exact sound_begin hs h
  | empty poller now => exact sound_empty hs h
  | claim poller now scheduleId => exact sound_claim hs hok h
  | fire poller newId => exact sound_fire hs h
  | crash poller => exact sound_crash hs h
  | create row => exact sound_create hs h
  | setEnabled scheduleId enabled => exact sound_setEnabled hs h
  | remove scheduleId => exact sound_remove hs h
  | deploy catalog =>
    cases h
    have hframe : Frame none s { s with db := { s.db with catalog := catalog } } :=
      .of_eq rfl rfl rfl (fun _ _ => rfl) fun _ _ _ h => h
    exact { hs with works := fun poller => hframe.works nofun (hs.works poller) }

end Steps

/-- As long as no poller claims a schedule that cannot be evaluated while a valid one is free, the
schedules are independent. -/
theorem schedules_independent {parser : CronExpressionParser} {db : Database} {acts : List Act}
    {s : State} (hkey : (db.schedules.map (·.id)).Nodup)
    (h : Run (State.step parser) (Evaluates parser) (.start db) acts s) :
    Independent parser db.executions s :=
  (h.invariant (fun hs hok hstep => sound_step hs hok hstep) (sound_start db hkey)).toIndependent

section Instances

/-- Knows the one expression `@hourly`. -/
def hourlyParser : CronExpressionParser where
  next cronExpression _ currentDate :=
    if cronExpression = "@hourly" then some ((currentDate / 3600000 + 1) * 3600000) else none
  later {_ _ currentDate _} h := by
    obtain ⟨-,hdate⟩ := (Option.ite_none_right_eq_some).mp h
    cases hdate
    omega

def hourly : Schedule :=
  ⟨"s1","w","wf","env","@hourly","UTC",true,3600000,none,none,none⟩

def broken : Schedule :=
  ⟨"s2","w","wf","env","every hour","UTC",true,3500000,none,none,none⟩

/-- Both are due from the first hour on, and their workflow is published. -/
def hourlyDatabase : Database :=
  ⟨[broken,hourly],
    ⟨[⟨"wf","w","app","flow",none⟩],[⟨"env","w","app",.production,true⟩],
      [⟨"env","wf","v1","r1",true⟩],[⟨"v1",some 0⟩]⟩,[],[],[]⟩

def hourlyExecution : Execution :=
  ⟨"e1","w","wf","v1",some "r1","env",.schedule,none,none,none,.production⟩

lemma broken_invalid : ¬Valid hourlyParser broken :=
  fun hvalid => absurd (hvalid 0) (by decide)

lemma hourly_valid : Valid hourlyParser hourly := fun _ => rfl

/-- The broken schedule is claimed while the other one is taken. -/
def hourlyActs : List Act :=
  [.begin 0 3600005,.begin 1 3600006,.claim 0 3600007 "s1",.claim 1 3600008 "s2",.fire 1 "e0",
    .fire 0 "e1"]

theorem hourly_independent : ∃ s,
    Run (State.step hourlyParser) (Evaluates hourlyParser) (.start hourlyDatabase) hourlyActs s ∧
      s.firings = [⟨"s1",3600000,3600007,7200000,.created hourlyExecution⟩] ∧
      Independent hourlyParser [] s := by
  have hrun : ∃ s, Run (State.step hourlyParser) (Evaluates hourlyParser) (.start hourlyDatabase)
      hourlyActs s ∧ s.firings = [⟨"s1",3600000,3600007,7200000,.created hourlyExecution⟩] := by
    refine ⟨_,.cons trivial rfl (.cons trivial rfl (.cons (.inl ?_) rfl (.cons (.inr ?_) rfl
      (.cons trivial rfl (.cons trivial rfl (.nil _)))))),rfl⟩
    · change ∀ row ∈ [broken,hourly],row.id = "s1" →
        (computeNextRunAt hourlyParser row 3600007).isSome
      decide
    · change ∀ row ∈ [broken],¬Valid hourlyParser row
      exact List.forall_mem_singleton.mpr broken_invalid
  obtain ⟨s,hrun,hfirings⟩ := hrun
  exact ⟨s,hrun,hfirings,schedules_independent (by decide) hrun⟩

/-- A poll that claims the broken schedule first ends there, whatever else is due. -/
theorem broken_blocks : ∃ acts s,
    Run (State.step hourlyParser) (fun _ _ => True) (.start hourlyDatabase) acts s ∧
      ¬Independent hourlyParser [] s := by
  refine ⟨[.begin 0 3600005,.claim 0 3600007 "s2",.fire 0 "e0"],_,.of_foldlM rfl,fun h => ?_⟩
  obtain ⟨firing,hmem,-⟩ | ⟨other,-,hlock⟩ | hoff := h.settled _ (.head _) hourly (by decide) hourly_valid
  · cases hmem
  · cases hlock
  · exact absurd (hoff hourly (by decide) rfl) (by decide)

end Instances
end Linea.Schedules
