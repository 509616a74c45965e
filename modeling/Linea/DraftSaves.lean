import Linea.Drafts

/-! What the builder keeps while drafts are saved: one request at a time, in the order of the edits,
and nothing of the user's that is neither dirty, saved nor given up. -/
namespace Linea.Drafts

variable {G : Type}

section Updates

variable (canvas : Draft G) (queue : List (Update G))

lemma foldl_edits : (queue.foldl Update.apply canvas).edits = canvas.edits + editsIn queue := by
  induction queue generalizing canvas with
  | nil => rfl
  | cons update queue ih =>
    rw [List.foldl_cons,ih]
    cases update with
    | edit change =>
      simp only [Update.apply,editsIn,List.countP_cons,if_true]
      omega
    | remote graph => rfl

lemma foldl_applied :
    (queue.foldl Update.apply canvas).applied = canvas.applied + remotesIn queue := by
  induction queue generalizing canvas with
  | nil => rfl
  | cons update queue ih =>
    rw [List.foldl_cons,ih]
    cases update with
    | edit change => rfl
    | remote graph =>
      simp only [Update.apply,remotesIn,List.countP_cons,if_true]
      omega

lemma foldl_discarded_le (h : canvas.discarded ≤ canvas.edits) :
    (queue.foldl Update.apply canvas).discarded ≤ (queue.foldl Update.apply canvas).edits := by
  induction queue generalizing canvas with
  | nil => exact h
  | cons update queue ih =>
    refine ih _ ?_
    cases update with
    | edit change => exact Nat.le_succ_of_le h
    | remote graph => exact le_rfl

lemma foldl_discarded (h : remotesIn queue = 0) :
    (queue.foldl Update.apply canvas).discarded = canvas.discarded := by
  induction queue generalizing canvas with
  | nil => rfl
  | cons update queue ih =>
    cases update with
    | edit change => exact ih _ (by simpa [remotesIn] using h)
    | remote graph => simp [remotesIn] at h

lemma editsIn_pos {queue : List (Update G)} (h : queue ≠ []) (hremotes : remotesIn queue = 0) :
    0 < editsIn queue := by
  cases queue with
  | nil => exact absurd rfl h
  | cons update queue =>
    cases update with
    | edit change => simp [editsIn]
    | remote graph => simp [remotesIn] at hremotes

@[simp] lemma editsIn_append_remote {queue : List (Update G)} {graph : G} :
    editsIn (queue ++ [.remote graph]) = editsIn queue := by
  simp [editsIn]

@[simp] lemma editsIn_append_edit {queue : List (Update G)} {change : G → G} :
    editsIn (queue ++ [.edit change]) = editsIn queue + 1 := by
  simp [editsIn]

@[simp] lemma remotesIn_append_remote {queue : List (Update G)} {graph : G} :
    remotesIn (queue ++ [.remote graph]) = remotesIn queue + 1 := by
  simp [remotesIn]

@[simp] lemma remotesIn_append_edit {queue : List (Update G)} {change : G → G} :
    remotesIn (queue ++ [.edit change]) = remotesIn queue := by
  simp [remotesIn]

end Updates

/-- At most one save is in flight, saves are sent in the order of the edits with the graph that was
applied last, and once nothing is unsaved the `n`-th edit is in a draft that has seen it, unless it was
replaced. -/
structure Saves (s : Canvas G) : Prop where
  single : s.requests.length ≤ 1
  ordered : (s.sent.map fun send => send.1.graph.edits).Pairwise (· < ·)
  clean : s.dirty = false → ∀ n, n ≤ s.canvas.edits →
    n ≤ s.discarded ∨ ∃ draft ∈ s.saved, draft.discarded < n ∧ n ≤ draft.edits
  fresh : ∀ send ∈ s.sent, send.1.graph.applied = send.2

/-- A collaborator's graph replaces the local one only while no graph waits behind a save, and from
then until its render has had its effect there is neither an edit nor a firing timer. -/
def Undisturbed (s : Canvas G) : Canvas.Act G → Prop
  | .edit _ => s.suppressNextSave = false
  | .fire => ∀ timer ∈ s.saveTimeout, timer.graph.applied = s.applied
  | .reload => s.pendingDraftGraph = none
  | _ => True

section Invariant

/-- Jobs come in the order of their edits. -/
structure Job.Before (job job' : Job G) : Prop where
  generation : job.generation < job'.generation
  edits : job.graph.edits < job'.graph.edits

/-- A job has seen no more than the canvas, and less than it when an edit is not scheduled yet. The
last generation has seen every edit that is not given up. -/
structure Kept (s : Canvas G) (job : Job G) : Prop where
  generation : job.generation ≤ s.scheduledGeneration
  edits : job.graph.edits ≤ s.canvas.edits
  discarded : job.graph.discarded ≤ s.discarded
  unscheduled : s.scheduledGeneration ≠ s.editGeneration → job.graph.edits < s.canvas.edits
  latest : job.generation = s.editGeneration →
    s.canvas.edits ≤ job.graph.edits ∨ s.canvas.edits ≤ s.discarded

namespace Canvas

def pendingJob (s : Canvas G) : Option (Job G) :=
  s.pendingDraftGraph.map fun graph => ⟨graph,s.pendingDraftGeneration⟩

/-- All jobs that have been sent or will be. -/
def line (s : Canvas G) : List (Job G) :=
  s.sent.map Prod.fst ++ s.pendingJob.toList ++ s.saveTimeout.toList

end Canvas

/-- With nothing dirty nothing waits, and a timer that is left has missed a collaborator's graph. -/
structure Calm (s : Canvas G) : Prop where
  pending : s.pendingDraftGraph = none
  timer : ∀ timer ∈ s.saveTimeout, timer.graph.applied ≠ s.applied
  scheduled : s.scheduledGeneration = s.editGeneration ∨ s.canvas.applied < s.applied

structure Sound (s : Canvas G) : Prop where
  flight : s.requests.length = if s.draftSaveInFlight then 1 else 0
  idle : s.draftSaveInFlight = false → s.pendingDraftGraph = none
  requests : ∀ job ∈ s.requests, job ∈ s.sent.map Prod.fst
  line : s.line.Pairwise Job.Before
  kept : ∀ job ∈ s.line, Kept s job
  fresh : ∀ send ∈ s.sent, send.1.graph.applied = send.2
  pending : ∀ graph ∈ s.pendingDraftGraph, graph.applied = s.applied
  timer : ∀ timer ∈ s.saveTimeout, timer.graph.applied ≤ s.canvas.applied ∧ s.saveCleanup = true
  shown : s.canvas.applied + remotesIn s.queue = s.applied
  quiet : s.suppressNextSave = false → remotesIn s.queue = 0
  loud : s.suppressNextSave = true → s.canvas.edits + editsIn s.queue = s.discarded
  discarded : s.canvas.discarded ≤ s.discarded ∧ s.canvas.discarded ≤ s.canvas.edits
  made : s.discarded ≤ s.canvas.edits + editsIn s.queue
  scheduled : s.scheduledGeneration ≤ s.editGeneration
  settled : s.effectDue = false → s.scheduledGeneration = s.editGeneration
  clean : s.dirty = false → ∀ n, n ≤ s.canvas.edits →
    n ≤ s.discarded ∨ ∃ draft ∈ s.saved, draft.discarded < n ∧ n ≤ draft.edits
  calm : s.dirty = false → Calm s

variable {s : Canvas G}

lemma Sound.saves (h : Sound s) : Saves s where
  single := by
    rw [h.flight]
    split <;> decide
  ordered := by
    have hsent : (s.sent.map Prod.fst).Pairwise Job.Before :=
      (List.pairwise_append.mp (List.pairwise_append.mp h.line).1).1
    rw [List.pairwise_map] at hsent ⊢
    exact hsent.imp fun hbefore => hbefore.edits
  clean := h.clean
  fresh := h.fresh

lemma sound_mount (graph : G) : Sound (Canvas.mount graph) where
  flight := rfl
  idle _ := rfl
  requests := List.forall_mem_nil _
  line := .nil
  kept := List.forall_mem_nil _
  fresh := List.forall_mem_nil _
  pending := nofun
  timer := nofun
  shown := rfl
  quiet _ := rfl
  loud := nofun
  discarded := ⟨le_rfl,le_rfl⟩
  made := le_rfl
  scheduled := le_rfl
  settled _ := rfl
  clean _ _ h := .inl h
  calm _ := ⟨rfl,nofun,.inl rfl⟩

end Invariant

section Steps

variable {s : Canvas G}

lemma Kept.mono {s' : Canvas G} {job : Job G} (h : Kept s job)
    (hscheduled : s'.scheduledGeneration = s.scheduledGeneration)
    (hgeneration : s'.editGeneration = s.editGeneration) (hcanvas : s'.canvas = s.canvas)
    (hdiscarded : s.discarded ≤ s'.discarded) : Kept s' job where
  generation := by
    rw [hscheduled]
    exact h.generation
  edits := by
    rw [hcanvas]
    exact h.edits
  discarded := h.discarded.trans hdiscarded
  unscheduled := by
    rw [hscheduled,hgeneration,hcanvas]
    exact h.unscheduled
  latest := by
    rw [hgeneration,hcanvas]
    exact fun heq => (h.latest heq).imp_right fun hle => hle.trans hdiscarded

lemma sound_edit (hs : Sound s) (hquiet : s.suppressNextSave = false) (change : G → G) :
    Sound { s with queue := s.queue ++ [.edit change] } :=
  { hs with
    shown := by
      rw [remotesIn_append_edit]
      exact hs.shown
    quiet := by
      rw [remotesIn_append_edit]
      exact hs.quiet
    loud := fun hloud => by
      rw [hquiet] at hloud
      cases hloud
    made := by
      rw [editsIn_append_edit]
      exact hs.made.trans (Nat.le_succ _)
    kept := fun job hjob => (hs.kept job hjob).mono rfl rfl rfl le_rfl
    calm := fun hdirty => ⟨(hs.calm hdirty).pending,(hs.calm hdirty).timer,
      (hs.calm hdirty).scheduled⟩ }

lemma sound_applyRemoteGraph (hs : Sound s) (hpending : s.pendingDraftGraph = none) (graph : G) :
    Sound (s.applyRemoteGraph graph) := by
  have hshown := hs.shown
  refine { hs with
    kept := fun job hjob => (hs.kept job hjob).mono rfl rfl rfl hs.made
    pending := fun draft hdraft => ?_
    shown := ?_
    quiet := nofun
    loud := fun _ => ?_
    discarded := ⟨hs.discarded.1.trans hs.made,hs.discarded.2⟩
    made := ?_
    clean := fun _ n hn => .inl (hn.trans (Nat.le_add_right ..))
    calm := fun _ => ⟨hpending,fun timer htimer => ?_,.inr ?_⟩ }
  · change draft ∈ s.pendingDraftGraph at hdraft
    rw [hpending] at hdraft
    cases hdraft
  · change s.canvas.applied + remotesIn (s.queue ++ [.remote graph]) = s.applied + 1
    rw [remotesIn_append_remote]
    omega
  · change s.canvas.edits + editsIn (s.queue ++ [.remote graph]) = s.canvas.edits + editsIn s.queue
    rw [editsIn_append_remote]
  · change s.canvas.edits + editsIn s.queue ≤ s.canvas.edits + editsIn (s.queue ++ [.remote graph])
    rw [editsIn_append_remote]
  · have hle := (hs.timer timer htimer).1
    change timer.graph.applied ≠ s.applied + 1
    omega
  · change s.canvas.applied < s.applied + 1
    omega

lemma sound_render (hs : Sound s) (hqueue : s.queue ≠ []) (heffect : s.effectDue = false) :
    Sound s.render := by
  have hscheduled := hs.settled heffect
  have hedits := foldl_edits s.canvas s.queue
  have happlied := foldl_applied s.canvas s.queue
  have hdiscarded := foldl_discarded_le s.canvas s.queue hs.discarded.2
  have hshown := hs.shown
  cases hsuppress : s.suppressNextSave with
  | true =>
    have hloud := hs.loud hsuppress
    have hrender : s.render = { s with
        canvas := s.queue.foldl Update.apply s.canvas
        queue := []
        effectDue := true
        suppressNextSave := false } := by simp [Canvas.render,hsuppress]
    rw [hrender]
    exact { hs with
      kept := fun job hjob =>
        have h := hs.kept job hjob
        ⟨h.generation,by simp only [hedits]; exact h.edits.trans (Nat.le_add_right ..),h.discarded,
          fun hne => absurd hscheduled hne,fun _ => .inr (by simp only [hedits]; exact hloud.le)⟩
      timer := fun timer htimer =>
        ⟨by simp only [happlied]; exact (hs.timer timer htimer).1.trans (Nat.le_add_right ..),
          (hs.timer timer htimer).2⟩
      shown := by simp only [happlied]; exact hshown
      quiet := fun _ => rfl
      loud := nofun
      discarded := ⟨by simp only [hedits] at hdiscarded; exact hdiscarded.trans hloud.le,hdiscarded⟩
      made := by simp only [hedits]; exact hloud.ge
      settled := nofun
      clean := fun _ n hn => .inl (by simp only [hedits] at hn; exact hn.trans hloud.le)
      calm := fun hdirty => ⟨(hs.calm hdirty).pending,(hs.calm hdirty).timer,.inl hscheduled⟩ }
  | false =>
    have hquiet := hs.quiet hsuppress
    have hpos := editsIn_pos hqueue hquiet
    have hsame := foldl_discarded s.canvas s.queue hquiet
    have hrender : s.render = { s with
        canvas := s.queue.foldl Update.apply s.canvas
        queue := []
        effectDue := true
        dirty := true
        editGeneration := s.editGeneration + 1 } := by simp [Canvas.render,hsuppress]
    rw [hrender]
    exact { hs with
      kept := fun job hjob =>
        have h := hs.kept job hjob
        ⟨h.generation,by simp only [hedits]; exact h.edits.trans (Nat.le_add_right ..),h.discarded,
          fun _ => by simp only [hedits]; exact h.edits.trans_lt (Nat.lt_add_of_pos_right hpos),
          fun heq => absurd heq
            ((h.generation.trans hs.scheduled).trans_lt (Nat.lt_succ_self _)).ne⟩
      timer := fun timer htimer =>
        ⟨by simp only [happlied]; exact (hs.timer timer htimer).1.trans (Nat.le_add_right ..),
          (hs.timer timer htimer).2⟩
      shown := by simp only [happlied]; exact hshown
      quiet := fun _ => rfl
      loud := fun hloud => by simp [hsuppress] at hloud
      discarded := ⟨by simp only [hsame]; exact hs.discarded.1,hdiscarded⟩
      made := by simp only [hedits]; exact hs.made
      scheduled := hs.scheduled.trans (Nat.le_succ _)
      settled := nofun
      clean := nofun
      calm := nofun }

lemma line_of_timer {timer : Job G} (h : s.saveTimeout = some timer) :
    s.line = s.sent.map Prod.fst ++ s.pendingJob.toList ++ [timer] := by
  rw [Canvas.line,h]
  rfl

lemma sound_effect (hs : Sound s) : Sound s.effect := by
  -- a timer that is left would have its clean-up run
  have htimer : (if s.saveCleanup then none else s.saveTimeout) = none := by
    cases htimeout : s.saveTimeout with
    | none => simp
    | some timer => rw [if_pos (hs.timer timer htimeout).2]
  have hsub : (s.sent.map Prod.fst ++ s.pendingJob.toList).Sublist s.line :=
    List.sublist_append_left ..
  by_cases hgeneration : s.editGeneration = s.scheduledGeneration
  · have heffect : s.effect = { s with
        effectDue := false, saveTimeout := none, saveCleanup := false } := by
      simp only [Canvas.effect,htimer,if_pos hgeneration]
    rw [heffect]
    have hline : Canvas.line { s with
        effectDue := false, saveTimeout := none, saveCleanup := false } =
        s.sent.map Prod.fst ++ s.pendingJob.toList := List.append_nil _
    exact { hs with
      line := hline ▸ hs.line.sublist hsub
      kept := fun job hjob => (hs.kept job (hsub.subset (hline ▸ hjob))).mono rfl rfl rfl le_rfl
      timer := nofun
      settled := fun _ => hgeneration.symm
      calm := fun hdirty => ⟨(hs.calm hdirty).pending,nofun,(hs.calm hdirty).scheduled⟩ }
  · have heffect : s.effect = { s with
        effectDue := false
        scheduledGeneration := s.editGeneration
        saveTimeout := some ⟨s.canvas,s.editGeneration⟩
        saveCleanup := true } := by
      simp only [Canvas.effect,if_neg hgeneration]
    rw [heffect]
    have hline : Canvas.line { s with
        effectDue := false
        scheduledGeneration := s.editGeneration
        saveTimeout := some ⟨s.canvas,s.editGeneration⟩
        saveCleanup := true } =
        s.sent.map Prod.fst ++ s.pendingJob.toList ++ [⟨s.canvas,s.editGeneration⟩] := rfl
    have hne : s.scheduledGeneration ≠ s.editGeneration := fun heq => hgeneration heq.symm
    have hlt := lt_of_le_of_ne hs.scheduled hne
    exact { hs with
      line := by
        rw [hline,List.pairwise_append]
        refine ⟨hs.line.sublist hsub,List.pairwise_singleton ..,fun job hjob job' hjob' => ?_⟩
        rw [List.mem_singleton.mp hjob']
        have hkept := hs.kept job (hsub.subset hjob)
        exact ⟨hkept.generation.trans_lt hlt,hkept.unscheduled hne⟩
      kept := by
        rw [hline]
        refine List.forall_mem_append.mpr ⟨fun job hjob => ?_,List.forall_mem_singleton.mpr
          ⟨le_rfl,le_rfl,hs.discarded.1,fun hne => absurd rfl hne,fun _ => .inl le_rfl⟩⟩
        have hkept := hs.kept job (hsub.subset hjob)
        exact ⟨hkept.generation.trans hs.scheduled,hkept.edits,hkept.discarded,
          fun hne => absurd rfl hne,hkept.latest⟩
      timer := fun timer htimer => by
        cases htimer
        exact ⟨le_rfl,rfl⟩
      scheduled := le_rfl
      settled := fun _ => rfl
      calm := fun hdirty => by
        have hcalm := hs.calm hdirty
        have hmissed := hcalm.scheduled.resolve_left hne
        refine ⟨hcalm.pending,fun timer htimer => ?_,.inl rfl⟩
        cases htimer
        exact hmissed.ne }

lemma sound_fire (hs : Sound s) {timer : Job G} (htimer : s.saveTimeout = some timer)
    (hfresh : timer.graph.applied = s.applied) :
    Sound (Canvas.flushDraftSave timer.graph timer.generation { s with saveTimeout := none }) := by
  have hdirty : s.dirty ≠ false := fun hdirty => (hs.calm hdirty).timer timer htimer hfresh
  have hline := line_of_timer htimer
  obtain hflight | hflight := Bool.eq_false_or_eq_true s.draftSaveInFlight
  · have hflush : Canvas.flushDraftSave timer.graph timer.generation { s with saveTimeout := none } =
        { s with
          saveTimeout := none
          pendingDraftGraph := some timer.graph
          pendingDraftGeneration := timer.generation } := by
      simp [Canvas.flushDraftSave,hflight]
    rw [hflush]
    have hnew : Canvas.line { s with
        saveTimeout := none
        pendingDraftGraph := some timer.graph
        pendingDraftGeneration := timer.generation } = s.sent.map Prod.fst ++ [timer] :=
      List.append_nil _
    have hsub : (s.sent.map Prod.fst ++ [timer]).Sublist s.line := by
      rw [hline]
      exact (List.sublist_append_left ..).append (.refl _)
    exact { hs with
      idle := fun hidle => by simp [hflight] at hidle
      line := hnew ▸ hs.line.sublist hsub
      kept := fun job hjob => (hs.kept job (hsub.subset (hnew ▸ hjob))).mono rfl rfl rfl le_rfl
      pending := fun graph hgraph => by
        cases hgraph
        exact hfresh
      timer := nofun
      calm := fun hclean => absurd hclean hdirty }
  · have hnone := hs.idle hflight
    have hempty : s.requests = [] := by simpa [hflight] using hs.flight
    have hflush : Canvas.flushDraftSave timer.graph timer.generation { s with saveTimeout := none } =
        { s with
          saveTimeout := none
          draftSaveInFlight := true
          requests := s.requests ++ [timer]
          sent := s.sent ++ [(timer,s.applied)] } := by
      simp [Canvas.flushDraftSave,hflight]
    rw [hflush]
    have hnew : Canvas.line { s with
        saveTimeout := none
        draftSaveInFlight := true
        requests := s.requests ++ [timer]
        sent := s.sent ++ [(timer,s.applied)] } = s.line := by
      simp [Canvas.line,Canvas.pendingJob,hnone,htimer]
    exact { hs with
      flight := by simp [hempty]
      idle := nofun
      requests := by simp [hempty]
      line := hnew ▸ hs.line
      kept := fun job hjob => (hs.kept job (hnew ▸ hjob)).mono rfl rfl rfl le_rfl
      fresh := List.forall_mem_append.mpr ⟨hs.fresh,List.forall_mem_singleton.mpr hfresh⟩
      timer := nofun
      calm := fun hclean => absurd hclean hdirty }

/-- The save of the last generation has every edit that is not given up, and nothing waits behind
it. -/
lemma sound_saved (hs : Sound s) {job : Job G} (hjob : job ∈ s.requests) :
    Sound { s with
      saved := s.saved ++ [job.graph]
      dirty := s.dirty && s.editGeneration ≠ job.generation } := by
  have hsent := hs.requests job hjob
  have hkept := hs.kept job (by simp only [Canvas.line,List.mem_append]; exact .inl (.inl hsent))
  have hclean (h : (s.dirty && decide (s.editGeneration ≠ job.generation)) = false) :
      s.dirty = false ∨ job.generation = s.editGeneration := by
    obtain hdirty | hlatest := Bool.and_eq_false_iff.mp h
    · exact .inl hdirty
    · exact .inr (not_ne_iff.mp (of_decide_eq_false hlatest)).symm
  exact { hs with
    kept := fun job hjob => (hs.kept job hjob).mono rfl rfl rfl le_rfl
    clean := fun h n hn => by
      obtain hdirty | hlatest := hclean h
      · obtain hgone | ⟨draft,hmem,hseen⟩ := hs.clean hdirty n hn
        · exact .inl hgone
        · exact .inr ⟨draft,List.mem_append_left _ hmem,hseen⟩
      · by_cases hgone : n ≤ s.discarded
        · exact .inl hgone
        refine .inr ⟨job.graph,by simp,by have := hkept.discarded; omega,?_⟩
        obtain hall | hall := hkept.latest hlatest
        · exact hn.trans hall
        · exact absurd (hn.trans hall) hgone
    calm := fun h => by
      obtain hdirty | hlatest := hclean h
      · exact ⟨(hs.calm hdirty).pending,(hs.calm hdirty).timer,(hs.calm hdirty).scheduled⟩
      have hscheduled : s.scheduledGeneration = s.editGeneration :=
        le_antisymm hs.scheduled (hlatest ▸ hkept.generation)
      -- whatever comes later in the line has a later generation, and there is none
      have hlast (later : Job G) (hmem : later ∈ s.line) : ¬job.Before later := fun hbefore => by
        have hle := (hs.kept later hmem).generation
        have hlt := hbefore.generation
        omega
      obtain ⟨hwait,-,htimers⟩ := List.pairwise_append.mp hs.line
      refine ⟨?_,fun timer htimer => ?_,.inl hscheduled⟩
      · cases hpending : s.pendingDraftGraph with
        | none => rfl
        | some graph =>
          have hmem : (⟨graph,s.pendingDraftGeneration⟩ : Job G) ∈ s.pendingJob.toList := by
            simp [Canvas.pendingJob,hpending]
          exact absurd ((List.pairwise_append.mp hwait).2.2 job hsent _ hmem)
            (hlast _ (List.mem_append_left _ (List.mem_append_right _ hmem)))
      · have hmem : timer ∈ s.saveTimeout.toList := by simpa using htimer
        exact absurd (htimers job (List.mem_append_left _ hsent) timer hmem)
          (hlast timer (List.mem_append_right _ hmem)) }

lemma sound_afterSave (hs : Sound s) :
    Sound (Canvas.afterSave { s with requests := [] }) := by
  obtain hpending | ⟨next,hpending⟩ := Option.eq_none_or_eq_some s.pendingDraftGraph
  · have hafter : Canvas.afterSave { s with requests := [] } =
        { s with requests := [], draftSaveInFlight := false } := by
      simp [Canvas.afterSave,hpending]
    rw [hafter]
    exact { hs with
      flight := rfl
      idle := fun _ => hpending
      requests := List.forall_mem_nil _
      kept := fun job hjob => (hs.kept job hjob).mono rfl rfl rfl le_rfl
      calm := fun hdirty => ⟨hpending,(hs.calm hdirty).timer,(hs.calm hdirty).scheduled⟩ }
  · have hafter : Canvas.afterSave { s with requests := [] } =
        { s with
          draftSaveInFlight := true
          pendingDraftGraph := none
          requests := [⟨next,s.pendingDraftGeneration⟩]
          sent := s.sent ++ [(⟨next,s.pendingDraftGeneration⟩,s.applied)] } := by
      simp [Canvas.afterSave,Canvas.flushDraftSave,hpending]
    rw [hafter]
    have hnew : Canvas.line { s with
        draftSaveInFlight := true
        pendingDraftGraph := none
        requests := [⟨next,s.pendingDraftGeneration⟩]
        sent := s.sent ++ [(⟨next,s.pendingDraftGeneration⟩,s.applied)] } = s.line := by
      simp [Canvas.line,Canvas.pendingJob,hpending]
    exact { hs with
      flight := rfl
      idle := nofun
      requests := by simp
      line := hnew ▸ hs.line
      kept := fun job hjob => (hs.kept job (hnew ▸ hjob)).mono rfl rfl rfl le_rfl
      fresh := List.forall_mem_append.mpr
        ⟨hs.fresh,List.forall_mem_singleton.mpr (hs.pending next hpending)⟩
      pending := nofun
      calm := fun hdirty => by
        have hnone := (hs.calm hdirty).pending
        rw [hpending] at hnone
        cases hnone }

lemma sound_step {s' : Canvas G} {act : Canvas.Act G} (hs : Sound s) (hok : Undisturbed s act)
    (h : s.step act = some s') : Sound s' := by
  cases act with
  | edit change =>
    cases h
    exact sound_edit hs hok change
  | render =>
    simp only [Canvas.step,Option.ite_none_left_eq_some,Option.some.injEq,not_or] at h
    obtain ⟨⟨hqueue,heffect⟩,rfl⟩ := h
    exact sound_render hs hqueue (by simpa using heffect)
  | effect =>
    simp only [Canvas.step,Option.ite_none_right_eq_some,Option.some.injEq] at h
    obtain ⟨-,rfl⟩ := h
    exact sound_effect hs
  | fire =>
    simp only [Canvas.step] at h
    split at h
    case h_1 timer htimer =>
      cases h
      exact sound_fire hs htimer (hok timer htimer)
    case h_2 => cases h
  | save request succeeds =>
    simp only [Canvas.step] at h
    split at h
    case h_1 job hjob =>
      have hmem := List.mem_of_getElem? hjob
      have hflight : s.draftSaveInFlight = true := by
        by_contra hidle
        have hlength := hs.flight
        rw [if_neg hidle,List.length_eq_zero_iff] at hlength
        rw [hlength] at hmem
        cases hmem
      have herase : s.requests.eraseIdx request = [] := by
        have hlength := hs.flight
        rw [if_pos hflight] at hlength
        obtain ⟨only,honly⟩ := List.length_eq_one_iff.mp hlength
        have hindex := (List.getElem?_eq_some_iff.mp hjob).1
        have hzero : request = 0 := by omega
        rw [honly,hzero]
        rfl
      rw [herase] at h
      cases h
      cases succeeds with
      | true => exact sound_afterSave (sound_saved hs hmem)
      | false => exact sound_afterSave hs
    case h_2 => cases h
  | receive graph own =>
    simp only [Canvas.step] at h
    split at h
    · cases h
      exact hs
    split at h
    · cases h
      exact { hs with
        kept := fun job hjob => (hs.kept job hjob).mono rfl rfl rfl le_rfl
        calm := fun hdirty => ⟨(hs.calm hdirty).pending,(hs.calm hdirty).timer,
          (hs.calm hdirty).scheduled⟩ }
    · rename_i hdirty
      cases h
      exact sound_applyRemoteGraph hs (hs.calm (by simpa using hdirty)).pending graph
  | reload =>
    obtain ⟨graph,-,rfl⟩ := Option.map_eq_some_iff.mp h
    exact sound_applyRemoteGraph hs hok graph
  | dismiss =>
    cases h
    exact { hs with
      kept := fun job hjob => (hs.kept job hjob).mono rfl rfl rfl le_rfl
      calm := fun hdirty => ⟨(hs.calm hdirty).pending,(hs.calm hdirty).timer,
        (hs.calm hdirty).scheduled⟩ }

end Steps

/-- As long as a collaborator's graph is applied only while nothing waits behind a save, and nobody
edits and no timer fires before it is shown, drafts are saved in order and nothing is overwritten. -/
theorem drafts_saved {graph : G} {acts : List (Canvas.Act G)} {s : Canvas G}
    (h : Run Canvas.step Undisturbed (.mount graph) acts s) : Saves s :=
  (h.invariant (fun hs hok hstep => sound_step hs hok hstep) (sound_mount graph)).saves

section Instances

/-- Two edits, the second of which waits behind the save of the first. -/
def twoEdits : List (Canvas.Act ℕ) :=
  [.edit (· + 1),.render,.effect,.fire,.edit (· + 1),.render,.effect,.fire]

/-- The collaborator's graph is reloaded after the first save has settled. -/
theorem reload_saved : ∃ s, Run Canvas.step Undisturbed (.mount 0)
    (twoEdits ++ [.receive 100 false,.save 0 true,.reload,.render,.effect,.save 0 true]) s ∧
      s.canvas.graph = 100 ∧ s.sent.length = 2 ∧ Saves s := by
  have hfire {s : Canvas ℕ} {timer : Job ℕ} (h : s.saveTimeout = some timer)
      (hfresh : timer.graph.applied = s.applied) : Undisturbed s .fire := by
    intro timer' htimer'
    rw [h] at htimer'
    cases htimer'
    exact hfresh
  have hrun : ∃ s, Run Canvas.step Undisturbed (.mount 0)
      (twoEdits ++ [.receive 100 false,.save 0 true,.reload,.render,.effect,.save 0 true]) s ∧
        s.canvas.graph = 100 ∧ s.sent.length = 2 :=
    ⟨_,.cons rfl rfl <| .cons trivial rfl <| .cons trivial rfl <| .cons (hfire rfl rfl) rfl <|
      .cons rfl rfl <| .cons trivial rfl <| .cons trivial rfl <| .cons (hfire rfl rfl) rfl <|
      .cons trivial rfl <| .cons trivial rfl <| .cons rfl rfl <| .cons trivial rfl <|
      .cons trivial rfl <| .cons trivial rfl <| .nil _,rfl,rfl⟩
  obtain ⟨s,hrun,hgraph,hsent⟩ := hrun
  exact ⟨s,hrun,hgraph,hsent,drafts_saved hrun⟩

/-- Reloaded while it waits, the second graph is sent over the collaborator's. -/
theorem reload_overwritten : ∃ s, Run Canvas.step (fun _ _ => True) (.mount 0)
    (twoEdits ++ [.receive 100 false,.reload,.render,.effect,.save 0 true]) s ∧
      s.canvas.graph = 100 ∧ (s.sent.map fun send => send.1.graph.graph) = [1,2] ∧ ¬Saves s := by
  refine ⟨_,.of_foldlM rfl,rfl,rfl,fun h => ?_⟩
  have hfresh := h.fresh _ (.tail _ (.head _))
  exact absurd hfresh (by decide)

end Instances

end Linea.Drafts
