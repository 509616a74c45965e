import Mathlib.Data.List.Basic
import Mathlib.Data.List.Induction

/-! The text of an SQL condition and what it means. `AND` binds tighter than `OR`, so what a fragment
says can change when it is joined to others; the grammar says how a text is read, and `read` reads it. -/
namespace Linea.SqlConditions

variable {A : Type*}

inductive Token (A : Type*) where
  | leftParen
  | rightParen
  | and
  | or
  | atom (a : A)
  deriving DecidableEq, Repr

inductive Condition (A : Type*) where
  | atom (a : A)
  | and (c d : Condition A)
  | or (c d : Condition A)
  deriving DecidableEq, Repr

def Condition.holds (truth : A → Bool) : Condition A → Bool
  | .atom a => truth a
  | .and c d => c.holds truth && d.holds truth
  | .or c d => c.holds truth || d.holds truth

/-- The levels of the grammar, the loosest first. -/
inductive Level where
  | disjunction
  | conjunction
  | primary

/-- How SQL reads a text: an operand of `AND` has no `OR` of its own outside parentheses. -/
inductive Parses : Level → List (Token A) → Condition A → Prop
  | atom (a : A) : Parses .primary [.atom a] (.atom a)
  | parens {ts c} : Parses .disjunction ts c → Parses .primary (.leftParen :: (ts ++ [.rightParen])) c
  | operand {ts c} : Parses .primary ts c → Parses .conjunction ts c
  | and {ts us c d} : Parses .conjunction ts c → Parses .primary us d →
      Parses .conjunction (ts ++ .and :: us) (.and c d)
  | conjunction {ts c} : Parses .conjunction ts c → Parses .disjunction ts c
  | or {ts us c d} : Parses .disjunction ts c → Parses .conjunction us d →
      Parses .disjunction (ts ++ .or :: us) (.or c d)

/-- What has been read of a parenthesis that goes on with an operand: the alternatives before the
last `OR`, and the operands of `AND` after it. -/
structure Pending (A : Type*) where
  alternatives : Option (Condition A)
  operands : Option (Condition A)

/-- The same where an operand has just ended. -/
structure Frame (A : Type*) where
  alternatives : Option (Condition A)
  conjunction : Condition A

def Pending.take (pending : Pending A) (c : Condition A) : Frame A where
  alternatives := pending.alternatives
  conjunction :=
    match pending.operands with
    | none => c
    | some d => .and d c

def Frame.value (frame : Frame A) : Condition A :=
  match frame.alternatives with
  | none => frame.conjunction
  | some c => .or c frame.conjunction

-- The list holds the parentheses around the one being read, the innermost first.
mutual
def readOperand : List (Token A) → Pending A → List (Pending A) → Option (Condition A)
  | .atom a :: ts, pending, outer => readOperator ts (pending.take (.atom a)) outer
  | .leftParen :: ts, pending, outer => readOperand ts ⟨none,none⟩ (pending :: outer)
  | _, _, _ => none

def readOperator : List (Token A) → Frame A → List (Pending A) → Option (Condition A)
  | [], frame, [] => some frame.value
  | .and :: ts, frame, outer => readOperand ts ⟨frame.alternatives,some frame.conjunction⟩ outer
  | .or :: ts, frame, outer => readOperand ts ⟨some frame.value,none⟩ outer
  | .rightParen :: ts, frame, pending :: outer => readOperator ts (pending.take frame.value) outer
  | _, _, _ => none
end

def read (ts : List (Token A)) : Option (Condition A) := readOperand ts ⟨none,none⟩ []

/-- What the reader has done with a text of each level once it has passed it. -/
def Passes (ts : List (Token A)) (c : Condition A) : Level → Prop
  | .primary => ∀ rest pending outer,
      readOperand (ts ++ rest) pending outer = readOperator rest (pending.take c) outer
  | .conjunction => ∀ rest alternatives outer,
      readOperand (ts ++ rest) ⟨alternatives,none⟩ outer = readOperator rest ⟨alternatives,c⟩ outer
  | .disjunction => ∀ rest outer, ∃ frame : Frame A, frame.value = c ∧
      readOperand (ts ++ rest) ⟨none,none⟩ outer = readOperator rest frame outer

lemma Parses.passes {level : Level} {ts : List (Token A)} {c : Condition A}
    (h : Parses level ts c) : Passes ts c level := by
  induction h with
  | atom a =>
    intro rest pending outer
    rw [List.singleton_append,readOperand]
  | parens _ ih =>
    intro rest pending outer
    obtain ⟨frame,hvalue,hread⟩ := ih (.rightParen :: rest) (pending :: outer)
    rw [List.cons_append,List.append_assoc,List.singleton_append,readOperand,hread,readOperator,hvalue]
  | operand _ ih =>
    intro rest alternatives outer
    exact ih rest ⟨alternatives,none⟩ outer
  | @and ts us c d _ _ hc hd =>
    intro rest alternatives outer
    rw [List.append_assoc,List.cons_append,hc,readOperator,hd]
    rfl
  | conjunction _ ih =>
    intro rest outer
    exact ⟨⟨none,_⟩,rfl,ih rest none outer⟩
  | @or ts us c d _ _ hc hd =>
    intro rest outer
    obtain ⟨frame,hvalue,hread⟩ := hc (.or :: (us ++ rest)) outer
    refine ⟨⟨some c,d⟩,rfl,?_⟩
    rw [List.append_assoc,List.cons_append,hread,readOperator,hvalue,hd]

/-- A text has one reading at most, and `read` finds it. -/
theorem Parses.read {ts : List (Token A)} {c : Condition A} (h : Parses .disjunction ts c) :
    read ts = some c := by
  obtain ⟨frame,hvalue,hread⟩ := h.passes [] []
  rw [List.append_nil] at hread
  rw [SqlConditions.read,hread,readOperator,hvalue]

/-- What the rows have to meet. A text that cannot be read is an error of the server's, and no row
comes back. -/
def meets (ts : List (Token A)) (truth : A → Bool) : Bool :=
  match read ts with
  | some c => c.holds truth
  | none => false

lemma meets_of_parses {ts : List (Token A)} {c : Condition A} (h : Parses .disjunction ts c)
    (truth : A → Bool) : meets ts truth = c.holds truth := by
  rw [meets,h.read]

lemma joined_append {fragments : List (List (Token A))} (hne : fragments ≠ [])
    (last : List (Token A)) :
    ((fragments ++ [last]).intersperse [Token.and]).flatten =
      (fragments.intersperse [.and]).flatten ++ .and :: last := by
  induction fragments with
  | nil => exact absurd rfl hne
  | cons first rest ih =>
    cases rest with
    | nil => simp
    | cons second rest =>
      have hrest := ih (List.cons_ne_nil _ _)
      simp only [List.cons_append,List.intersperse_cons_cons,List.flatten_cons,List.append_assoc] at hrest ⊢
      rw [hrest]

/-- Operands keep their meaning when they are joined. -/
lemma parses_joined {fragment : List (Token A)} {c : Condition A} (hc : Parses .primary fragment c)
    (rest : List (List (Token A) × Condition A))
    (hrest : ∀ p ∈ rest, Parses .primary p.1 p.2) :
    Parses .conjunction (((fragment :: rest.map Prod.fst).intersperse [.and]).flatten)
      ((rest.map Prod.snd).foldl .and c) := by
  induction rest using List.reverseRecOn with
  | nil => simpa using Parses.operand hc
  | append_singleton rest p ih =>
    have hinit := ih fun q hq => hrest q (List.mem_append_left _ hq)
    have hlast := hrest p (by simp)
    rw [List.map_append,List.map_singleton,← List.cons_append,joined_append (List.cons_ne_nil _ _),
      List.map_append,List.map_singleton,List.foldl_append]
    exact .and hinit hlast

lemma holds_foldl (truth : A → Bool) (cs : List (Condition A)) (c : Condition A) :
    (cs.foldl Condition.and c).holds truth = (c.holds truth && cs.all (Condition.holds truth)) := by
  induction cs generalizing c with
  | nil => simp
  | cons d cs ih => rw [List.foldl_cons,ih,Condition.holds,List.all_cons,Bool.and_assoc]

/-- A query builder's `and`: the text it writes asks for everything that its fragments ask for. -/
def Conjoins (and : List (List (Token A)) → List (Token A)) : Prop :=
  ∀ (fragments : List (List (Token A) × Condition A)) (truth : A → Bool), fragments ≠ [] →
    (∀ p ∈ fragments, Parses .disjunction p.1 p.2) →
    meets (and (fragments.map Prod.fst)) truth = fragments.all fun p => p.2.holds truth

def parenthesized (fragment : List (Token A)) : List (Token A) :=
  .leftParen :: (fragment ++ [.rightParen])

/-- Parentheses around each fragment. -/
def andEach (fragments : List (List (Token A))) : List (Token A) :=
  ((fragments.map parenthesized).intersperse [.and]).flatten

/-- Parentheses around the whole and none around a fragment. -/
def andBare (fragments : List (List (Token A))) : List (Token A) :=
  parenthesized (fragments.intersperse [.and]).flatten

theorem conjoins_andEach : Conjoins (andEach : List (List (Token A)) → List (Token A)) := by
  rintro (_ | ⟨⟨first,c⟩,rest⟩) truth hne hparses
  · exact absurd rfl hne
  have hfirst : Parses .primary (parenthesized first) c := .parens (hparses _ List.mem_cons_self)
  have hrest : ∀ p ∈ rest.map fun q => (parenthesized q.1,q.2), Parses .primary p.1 p.2 := by
    intro p hp
    obtain ⟨q,hq,rfl⟩ := List.mem_map.mp hp
    exact .parens (hparses q (List.mem_cons_of_mem _ hq))
  have hjoined := Parses.conjunction (parses_joined hfirst _ hrest)
  have htext : andEach (((first,c) :: rest).map Prod.fst) =
      ((parenthesized first :: (rest.map fun q => (parenthesized q.1,q.2)).map Prod.fst).intersperse
        [.and]).flatten := by
    simp [andEach,Function.comp_def]
  rw [htext,meets_of_parses hjoined,holds_foldl]
  simp [Function.comp_def,List.all_map]

end Linea.SqlConditions
