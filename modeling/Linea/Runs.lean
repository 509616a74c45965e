import Mathlib.Data.List.Basic

/-! Runs of a step function that says which steps are possible, with a condition on each step and the
state before it. -/
namespace Linea

variable {σ α : Type*}

/-- The steps `acts` lead from one state to another, and each of them meets `ok`. -/
inductive Run (step : σ → α → Option σ) (ok : σ → α → Prop) : σ → List α → σ → Prop
  | nil (s : σ) : Run step ok s [] s
  | cons {s s' t : σ} {act : α} {acts : List α} (hok : ok s act) (hstep : step s act = some s')
    (hrun : Run step ok s' acts t) : Run step ok s (act :: acts) t

namespace Run
variable {step : σ → α → Option σ} {ok : σ → α → Prop} {s t u : σ} {acts acts' : List α}

/-- What a step keeps, a run keeps. -/
theorem invariant {inv : σ → Prop}
    (hinv : ∀ {s s' act}, inv s → ok s act → step s act = some s' → inv s')
    (h : Run step ok s acts t) (hs : inv s) : inv t := by
  induction h with
  | nil => exact hs
  | cons hok hstep _ ih => exact ih (hinv hs hok hstep)

/-- A relation between the states before and after a step holds over a run. -/
theorem relates {inv : σ → Prop} {rel : σ → σ → Prop} (hrefl : ∀ s, rel s s)
    (htrans : ∀ {s t u}, rel s t → rel t u → rel s u)
    (hinv : ∀ {s s' act}, inv s → ok s act → step s act = some s' → inv s')
    (hrel : ∀ {s s' act}, inv s → ok s act → step s act = some s' → rel s s')
    (h : Run step ok s acts t) (hs : inv s) : rel s t := by
  induction h with
  | nil => exact hrefl _
  | cons hok hstep _ ih => exact htrans (hrel hs hok hstep) (ih (hinv hs hok hstep))

theorem append (h : Run step ok s acts t) (h' : Run step ok t acts' u) :
    Run step ok s (acts ++ acts') u := by
  induction h with
  | nil => exact h'
  | cons hok hstep _ ih => exact .cons hok hstep (ih h')

/-- A run that is carried out. -/
theorem of_foldlM (h : acts.foldlM step s = some t) : Run step (fun _ _ => True) s acts t := by
  induction acts generalizing s with
  | nil =>
    cases h
    exact .nil _
  | cons act acts ih =>
    rw [List.foldlM_cons, Option.bind_eq_bind, Option.bind_eq_some_iff] at h
    obtain ⟨s', hstep, hrun⟩ := h
    exact .cons trivial hstep (ih hrun)

end Run
end Linea
