import Mathlib.Algebra.Order.Monoid.Canonical.Defs
import Mathlib.Algebra.BigOperators.Group.List.Basic

/-! Metering of work that is begun again from saved progress. A stage of the work spends amounts and
now and then saves its progress with the total it holds; what was spent after the last save is lost
when the work begins again. -/
namespace Linea.Metering

inductive Entry (M : Type) where
  | spent (amount : M)
  | saved
deriving DecidableEq

section Journals

variable {M : Type} [AddCommMonoid M]

/-- All that a journal spends. -/
def spent : List (Entry M) → M
  | [] => 0
  | .spent amount :: journal => amount + spent journal
  | .saved :: journal => spent journal

/-- What is not saved after a journal that starts with `carried` unsaved. -/
def unsaved (carried : M) : List (Entry M) → M
  | [] => carried
  | .spent amount :: journal => unsaved (carried + amount) journal
  | .saved :: journal => unsaved 0 journal

lemma spent_append (first second : List (Entry M)) :
    spent (first ++ second) = spent first + spent second := by
  induction first with
  | nil => simp [spent]
  | cons entry first ih => cases entry <;> simp [spent,ih,add_assoc]

lemma unsaved_append (carried : M) (first second : List (Entry M)) :
    unsaved carried (first ++ second) = unsaved (unsaved carried first) second := by
  induction first generalizing carried with
  | nil => rfl
  | cons entry first ih => cases entry <;> exact ih _

end Journals

/-- How a stage ends: the progress that is saved, what happened and its result. -/
structure Ending (P M R : Type) where
  progress : P
  journal : List (Entry M)
  result : R

namespace Ending

variable {P M R S ε ε' α β : Type}

def after (journal : List (Entry M)) (e : Ending P M R) : Ending P M R :=
  { e with journal := journal ++ e.journal }

def map (f : R → S) (e : Ending P M R) : Ending P M S :=
  ⟨e.progress,e.journal,f e.result⟩

/-- The next stage starts from the saved progress and the value of this one. -/
def andThen (e : Ending P M (Except ε α)) (next : P → α → Ending P M (Except ε β)) :
    Ending P M (Except ε β) :=
  match e.result with
  | .ok value => (next e.progress value).after e.journal
  | .error error => ⟨e.progress,e.journal,.error error⟩

@[simp] lemma after_nil (e : Ending P M R) : e.after [] = e := rfl

lemma andThen_ok {e : Ending P M (Except ε α)} {value : α} (h : e.result = .ok value)
    (next : P → α → Ending P M (Except ε β)) :
    e.andThen next = (next e.progress value).after e.journal := by
  simp [andThen,h]

lemma andThen_error {e : Ending P M (Except ε α)} {error : ε} (h : e.result = .error error)
    (next : P → α → Ending P M (Except ε β)) :
    e.andThen next = ⟨e.progress,e.journal,.error error⟩ := by
  simp [andThen,h]

end Ending

section Orders

variable {M : Type} [AddCommMonoid M] [PartialOrder M] [IsOrderedCancelAddMonoid M]
  [CanonicallyOrderedAdd M]

end Orders

section Accounting

variable {P M ε α β : Type} [AddCommMonoid M] [PartialOrder M]

/-- The accounts of a stage that holds `held`, of which `carried` is not saved: what is saved and what
is not add up, a value has all that was held and spent, and an error tells of no more. `reads` is what
decides whether it tells of all of it; an error that tells `none` is not answered for. -/
structure Accounts (amount : P → M) (told : ε → Option M) (tokens : α → M) (reads : Prop)
    (held carried : M) (e : Ending P M (Except ε α)) : Prop where
  balanced : amount e.progress + unsaved carried e.journal = held + spent e.journal
  value : ∀ value, e.result = .ok value → reads ∧ tokens value = held + spent e.journal
  error : ∀ error total, e.result = .error error → told error = some total →
    total ≤ held + spent e.journal ∧
      (total = held + spent e.journal ↔ reads ∨ held + spent e.journal = 0)

namespace Accounts

variable {amount : P → M} {told : ε → Option M} {tokens : α → M} {reads : Prop}
  {held carried : M} {progress : P}

lemma of_iff {reads' : Prop} {e : Ending P M (Except ε α)}
    (h : Accounts amount told tokens reads held carried e) (hiff : reads' ↔ reads) :
    Accounts amount told tokens reads' held carried e := by
  rwa [propext hiff]

lemma ok {value : α} (hheld : amount progress + carried = held) (hvalue : tokens value = held)
    (hreads : reads) : Accounts amount told tokens reads held carried ⟨progress,[],.ok value⟩ where
  balanced := by simpa [unsaved,spent] using hheld
  value v hv := by
    cases hv
    simpa [spent] using ⟨hreads,hvalue⟩
  error _ _ herror := by cases herror

/-- An error that tells of all that is held. -/
lemma told_all {error : ε} (hheld : amount progress + carried = held) (htold : told error = some held)
    (hreads : reads) :
    Accounts amount told tokens reads held carried ⟨progress,[],.error error⟩ where
  balanced := by simpa [unsaved,spent] using hheld
  value _ hvalue := by cases hvalue
  error err total herror htotal := by
    cases herror
    rw [htold] at htotal
    cases htotal
    simpa [spent] using Or.inl hreads

/-- An error that is not answered for. -/
lemma untold {error : ε} (hheld : amount progress + carried = held) (htold : told error = none) :
    Accounts amount told tokens reads held carried ⟨progress,[],.error error⟩ where
  balanced := by simpa [unsaved,spent] using hheld
  value _ hvalue := by cases hvalue
  error err total herror htotal := by
    cases herror
    rw [htold] at htotal
    cases htotal

lemma spend {e : Ending P M (Except ε α)} {sum : M}
    (h : Accounts amount told tokens reads (held + sum) (carried + sum) e) :
    Accounts amount told tokens reads held carried (e.after [.spent sum]) where
  balanced := by simpa [Ending.after,unsaved,spent,add_assoc] using h.balanced
  value := by simpa [Ending.after,spent,add_assoc] using h.value
  error := by simpa [Ending.after,spent,add_assoc] using h.error

lemma save {e : Ending P M (Except ε α)} (h : Accounts amount told tokens reads held 0 e) :
    Accounts amount told tokens reads held carried (e.after [.saved]) where
  balanced := by simpa [Ending.after,unsaved,spent] using h.balanced
  value := by simpa [Ending.after,spent] using h.value
  error := by simpa [Ending.after,spent] using h.error

/-- Stages in sequence: the second starts from what the value of the first one has. -/
lemma andThen {tokens' : β → M} {reads' : α → Prop} {e : Ending P M (Except ε α)}
    {next : P → α → Ending P M (Except ε β)}
    (h : Accounts amount told tokens reads held carried e)
    (hnext : ∀ value, e.result = .ok value →
      amount e.progress + unsaved carried e.journal = tokens value →
      Accounts amount told tokens' (reads' value) (tokens value) (unsaved carried e.journal)
        (next e.progress value)) :
    Accounts amount told tokens' (reads ∧ ∀ value, e.result = .ok value → reads' value) held carried
      (e.andThen next) := by
  cases hresult : e.result with
  | error error =>
    rw [Ending.andThen_error hresult]
    refine ⟨h.balanced,fun value hvalue => ?_,fun err total herror htotal => ?_⟩
    · cases hvalue
    · cases herror
      simpa using h.error error total hresult htotal
  | ok value =>
    obtain ⟨hreads,hvalue⟩ := h.value value hresult
    have hrest := hnext value hresult (h.balanced.trans hvalue.symm)
    rw [hvalue] at hrest
    rw [Ending.andThen_ok hresult]
    have hiff : (reads ∧ ∀ v, (.ok value : Except ε α) = .ok v → reads' v) ↔ reads' value := by
      simp [hreads]
    rw [hiff]
    constructor
    · simpa [Ending.after,unsaved_append,spent_append,add_assoc] using hrest.balanced
    · simpa [Ending.after,spent_append,add_assoc] using hrest.value
    · simpa [Ending.after,spent_append,add_assoc] using hrest.error

section Ordered
variable [CanonicallyOrderedAdd M]

/-- An error that tells of nothing. -/
lemma told_zero {error : ε} (hheld : amount progress + carried = held) (htold : told error = some 0)
    (hreads : ¬reads) :
    Accounts amount told tokens reads held carried ⟨progress,[],.error error⟩ where
  balanced := by simpa [unsaved,spent] using hheld
  value _ hvalue := by cases hvalue
  error err total herror htotal := by
    cases herror
    rw [htold] at htotal
    cases htotal
    simp [spent,hreads,eq_comm]

/-- An error that leaves out what was spent last. -/
lemma told_before [IsOrderedCancelAddMonoid M] {error : ε} {sum : M}
    (hheld : amount progress + carried = held) (htold : told error = some held)
    (hreads : reads ↔ sum = 0) :
    Accounts amount told tokens reads held carried ⟨progress,[.spent sum],.error error⟩ where
  balanced := by simp [unsaved,spent,← add_assoc,hheld]
  value _ hvalue := by cases hvalue
  error err total herror htotal := by
    cases herror
    rw [htold] at htotal
    cases htotal
    simp only [spent,add_zero,hreads]
    refine ⟨le_self_add,?_⟩
    simp only [left_eq_add,add_eq_zero]
    exact ⟨Or.inl,fun h => h.elim id And.right⟩

end Ordered
end Accounts

end Accounting

end Linea.Metering
