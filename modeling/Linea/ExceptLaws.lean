import Mathlib

/-! Computations that may throw: when a sequence, a loop or a short-circuiting test returns. -/
namespace Linea.ExceptLaws

variable {ε α β σ : Type}

theorem bind_ok_iff {x : Except ε α} {f : α → Except ε β} {r : β} :
    (x >>= f) = .ok r ↔ ∃ a, x = .ok a ∧ f a = .ok r := by
  cases x with
  | error e => simp [bind, Except.bind]
  | ok a => simp [bind, Except.bind]

/-- A statement run for its effect only. -/
theorem seq_ok_iff {x : Except ε Unit} {f : Unit → Except ε β} {r : β} :
    (x >>= f) = .ok r ↔ x = .ok () ∧ f () = .ok r := by
  cases x with
  | error e => simp [bind, Except.bind]
  | ok a => simp [bind, Except.bind]

@[simp] theorem ok_bind (a : α) (f : α → Except ε β) : (Except.ok a >>= f) = f a := rfl

@[simp] theorem error_bind (e : ε) (f : α → Except ε β) :
    ((Except.error e : Except ε α) >>= f) = .error e := rfl

theorem bind_error_cases {x : Except ε α} {f : α → Except ε β} {e : ε}
    (h : (x >>= f) = .error e) : x = .error e ∨ ∃ a, x = .ok a ∧ f a = .error e := by
  cases x with
  | error d =>
    have hd : d = e := by simpa using h
    exact Or.inl (hd ▸ rfl)
  | ok a => exact Or.inr ⟨a, rfl, h⟩

/-- A loop that only tests returns exactly when every test does. -/
theorem forM_ok_iff {l : List α} {f : α → Except ε Unit} :
    l.forM f = .ok () ↔ ∀ a ∈ l, f a = .ok () := by
  induction l with
  | nil => simp [pure, Except.pure]
  | cons a l ih =>
    have hc : (a :: l).forM f = (f a >>= fun _ => l.forM f) := rfl
    rw [hc, bind_ok_iff, List.forall_mem_cons, ← ih]
    constructor
    · rintro ⟨_, h1, h2⟩
      exact ⟨h1, h2⟩
    · rintro ⟨h1, h2⟩
      exact ⟨(), h1, h2⟩

/-- Loop rule: an invariant of the body holds after the loop. -/
theorem foldlM_invariant {P : σ → Prop} {f : σ → α → Except ε σ} {l : List α} {s t : σ}
    (step : ∀ a ∈ l, ∀ s t, P s → f s a = .ok t → P t)
    (start : P s) (h : l.foldlM f s = .ok t) : P t := by
  induction l generalizing s with
  | nil =>
    have : s = t := by simpa [pure, Except.pure] using h
    exact this ▸ start
  | cons a l ih =>
    rw [List.foldlM_cons, bind_ok_iff] at h
    obtain ⟨u, hu, ht⟩ := h
    exact ih (fun b hb => step b (List.mem_cons_of_mem a hb))
      (step a List.mem_cons_self s u start hu) ht

/-- A loop whose body always returns, under an invariant, returns. -/
theorem foldlM_returns {P : σ → Prop} {f : σ → α → Except ε σ} {l : List α} {s : σ}
    (step : ∀ a ∈ l, ∀ s, P s → ∃ t, f s a = .ok t ∧ P t) (start : P s) :
    ∃ t, l.foldlM f s = .ok t ∧ P t := by
  induction l generalizing s with
  | nil => exact ⟨s, rfl, start⟩
  | cons a l ih =>
    obtain ⟨u, hu, hp⟩ := step a List.mem_cons_self s start
    obtain ⟨t, ht, hq⟩ := ih (fun b hb => step b (List.mem_cons_of_mem a hb)) hp
    exact ⟨t, by rw [List.foldlM_cons, hu, ok_bind, ht], hq⟩

/-- A loop that returns has run its body on every item, from states the invariant holds of. -/
theorem foldlM_each {P : σ → Prop} {f : σ → α → Except ε σ} {l : List α} {s t : σ}
    (step : ∀ a ∈ l, ∀ s t, P s → f s a = .ok t → P t) (start : P s)
    (h : l.foldlM f s = .ok t) : ∀ a ∈ l, ∃ u v, P u ∧ f u a = .ok v := by
  induction l generalizing s with
  | nil => simp
  | cons a l ih =>
    rw [List.foldlM_cons, bind_ok_iff] at h
    obtain ⟨u, hu, ht⟩ := h
    intro b hb
    rcases List.mem_cons.mp hb with rfl | hb
    · exact ⟨s, u, start, hu⟩
    · exact ih (fun c hc => step c (List.mem_cons_of_mem a hc))
        (step a List.mem_cons_self s u start hu) ht b hb

/-- A loop that throws does so in some step, from a state the invariant holds of. -/
theorem foldlM_throws {P : σ → Prop} {f : σ → α → Except ε σ} {l : List α} {s : σ} {e : ε}
    (step : ∀ a ∈ l, ∀ s t, P s → f s a = .ok t → P t) (start : P s)
    (h : l.foldlM f s = .error e) : ∃ a ∈ l, ∃ t, P t ∧ f t a = .error e := by
  induction l generalizing s with
  | nil => simp [pure, Except.pure] at h
  | cons a l ih =>
    rw [List.foldlM_cons] at h
    rcases bind_error_cases h with ha | ⟨u, hu, hl⟩
    · exact ⟨a, List.mem_cons_self, s, start, ha⟩
    · obtain ⟨b, hb, t, ht⟩ := ih (fun b hb => step b (List.mem_cons_of_mem a hb))
        (step a List.mem_cons_self s u start hu) hl
      exact ⟨b, List.mem_cons_of_mem a hb, t, ht⟩

/-- A short-circuiting conjunction of tests that do not throw. -/
theorem allM_ok {p : α → Except ε Bool} {q : α → Bool} {l : List α}
    (h : ∀ a ∈ l, p a = .ok (q a)) : l.allM p = .ok (l.all q) := by
  induction l with
  | nil => rfl
  | cons a l ih =>
    have ha := h a List.mem_cons_self
    have hl := ih fun b hb => h b (List.mem_cons_of_mem a hb)
    simp only [List.allM, ha, ok_bind, List.all_cons]
    cases q a with
    | true => simpa using hl
    | false => rfl

end Linea.ExceptLaws
