import Linea.WorkflowHash

/-! Values that are the same after they were written as JSON and read again: their texts determine them. -/
namespace Linea.JsonText
open Linea.JsonText.Tree
open WorkflowHash (arrayIndex)

/-- A value that `JSON.parse` gives back from its text as it was. -/
inductive Kept : Json → Prop
  | leaf {a : Atom} (hfinite : a.isFinite = true) (hzero : a ≠ .number 0x8000000000000000) :
    Kept (.leaf a)
  | arr {items : List Json} (h : ∀ v ∈ items, Kept v) : Kept (.arr items)
  | obj {fields : List (Text × Json)} (hkeys : (fields.map Prod.fst).Nodup)
    (hindex : ∀ p ∈ fields, arrayIndex p.1 = none) (h : ∀ p ∈ fields, Kept p.2) : Kept (.obj fields)

lemma Kept.string (s : Text) : Kept (.leaf (.string s)) := .leaf rfl Atom.noConfusion

lemma Kept.number {bits : UInt64} (h : isFinite bits = true) (hzero : bits ≠ 0x8000000000000000) :
    Kept (.leaf (.number bits)) := .leaf h fun heq => hzero (Atom.number.inj heq)

lemma map_inj_of {α β : Type} {f : α → β} {s t : List α} (h : ∀ a ∈ s, ∀ b ∈ t, f a = f b → a = b)
    (heq : s.map f = t.map f) : s = t := by
  induction s generalizing t with
  | nil => exact (List.map_eq_nil_iff.mp heq.symm).symm
  | cons a s ih =>
    cases t with
    | nil => cases heq
    | cons b t =>
      obtain ⟨hhead,htail⟩ := List.cons.inj heq
      obtain rfl := h a List.mem_cons_self b List.mem_cons_self hhead
      rw [ih (fun c hc d hd => h c (List.mem_cons_of_mem a hc) d (List.mem_cons_of_mem a hd)) htail]

lemma bits_of_isZero {bits : UInt64} (h : isZero bits = true) (hne : bits ≠ 0x8000000000000000) :
    bits = 0 := by
  have hlt := bits.toNat_lt
  rw [isZero,decide_eq_true_eq] at h
  have hnat : bits.toNat ≠ 0x8000000000000000 := fun heq => hne (UInt64.toNat_inj.mp heq)
  exact UInt64.toNat_inj.mp (by change bits.toNat = 0; omega)

lemma atom_eq_of_same {a b : Atom} (ha : a ≠ .number 0x8000000000000000)
    (hb : b ≠ .number 0x8000000000000000) (h : SameAtom a b) : a = b := by
  match a,b,ha,hb,h with
  | .number x,.number y,ha,hb,h =>
    rcases h with rfl | ⟨hx,hy⟩
    · rfl
    · rw [bits_of_isZero hx fun heq => ha (congrArg Atom.number heq),
        bits_of_isZero hy fun heq => hb (congrArg Atom.number heq)]
  | .null,_,_,_,h | .bool _,_,_,_,h | .string _,_,_,_,h => exact h

lemma Kept.normal_inj {printer : NumberPrinter} {v w : Json} (hv : Kept v) (hw : Kept w)
    (h : normal id printer.atomText v = normal id printer.atomText w) : v = w := by
  induction hv generalizing w with
  | leaf hfinite hzero =>
    cases hw with
    | leaf hfinite' hzero' =>
      have hsame := (printer.atomText_eq_iff hfinite hfinite').mp (Tree.leaf.inj h)
      exact congrArg Tree.leaf (atom_eq_of_same hzero hzero' hsame)
    | arr | obj =>
      rw [normal,normal] at h
      cases h
  | arr _ ih =>
    cases hw with
    | arr hitems =>
      rw [normal,normal,normalItems_eq_map,normalItems_eq_map] at h
      exact congrArg Tree.arr (map_inj_of (fun x hx y hy => ih x hx (hitems y hy)) (Tree.arr.inj h))
    | leaf | obj =>
      rw [normal,normal] at h
      cases h
  | obj _ _ _ ih =>
    cases hw with
    | obj _ _ hvalues =>
      rw [normal,normal,normalFields_eq_map,normalFields_eq_map] at h
      refine congrArg Tree.obj (map_inj_of (fun p hp q hq hpq => ?_) (Tree.obj.inj h))
      obtain ⟨hkey,hvalue⟩ := Prod.mk.inj hpq
      exact Prod.ext hkey (ih p hp (hvalues q hq) hvalue)
    | leaf | arr =>
      rw [normal,normal] at h
      cases h

/-- Values that are given back from their texts are determined by them. -/
lemma Kept.stringify_inj {printer : NumberPrinter} {v w : Json} (hv : Kept v) (hw : Kept w)
    (h : stringify printer v = stringify printer w) : v = w := by
  have hleaves (v : Json) : ¬ Contains (¬ AtomText ·) (fun _ => False) (normal id printer.atomText v) :=
    fun hc => not_contains (fun a h => h (printer.isText a)) (fun _ h => h) (contains_of_normal id hc)
  have hstop : Stops [] := by
    intro c hc
    cases hc
  exact hv.normal_inj hw (print_append_inj atomText_leaf (hleaves v) (hleaves w) hstop hstop
    (congrArg (· ++ []) h)).1

end Linea.JsonText
