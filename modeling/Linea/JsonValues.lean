import Linea.JsonTrees
import Mathlib.Algebra.Group.Nat.Defs
import Mathlib.Data.List.Lex

/-! JSON values: the texts of their leaves. A number is its IEEE-754 bit pattern, and how a finite one
is printed is left open but for what `JSON.stringify` is documented to keep. -/
namespace Linea.JsonText
open Linea.JsonText.Tree

inductive Atom
  | null
  | bool (b : Bool)
  | number (bits : UInt64)
  | string (s : Text)
  deriving DecidableEq

abbrev Json := Tree Text Atom

def isFinite (bits : UInt64) : Bool := bits.toNat / 2 ^ 52 % 2 ^ 11 ≠ 2 ^ 11 - 1

def isZero (bits : UInt64) : Bool := bits.toNat % 2 ^ 63 = 0

/-- Equality of finite doubles: that of their bits, but for the sign of zero. -/
def SameNumber (x y : UInt64) : Prop := x = y ∨ isZero x = true ∧ isZero y = true

instance (x y : UInt64) : Decidable (SameNumber x y) := inferInstanceAs (Decidable (_ ∨ _))

/-- Digits, signs, the point and the exponent's letter. -/
def numberChar (c : UInt16) : Bool := 48 ≤ c && c ≤ 57 || c = 43 || c = 45 || c = 46 || c = 101

def NumberText (t : Text) : Prop := t ≠ [] ∧ ∀ c ∈ t, numberChar c = true

/-- What `JSON.stringify` gives for a finite number. -/
structure NumberPrinter where
  text : UInt64 → Text
  printed : ∀ x, isFinite x = true → NumberText (text x)
  text_eq_iff : ∀ x y, isFinite x = true → isFinite y = true → (text x = text y ↔ SameNumber x y)

def ascii (s : String) : Text := s.toList.map fun c => .ofNat c.toNat

def boolText (b : Bool) : Text := ascii (if b then "true" else "false")

/-- `JSON.stringify` of a leaf. -/
def NumberPrinter.atomText (printer : NumberPrinter) : Atom → Text
  | .null => ascii "null"
  | .bool b => boolText b
  | .number x => if isFinite x then printer.text x else ascii "null"
  | .string s => quote s

/-- The texts that leaves have. -/
inductive AtomText : Text → Prop
  | null : AtomText (ascii "null")
  | bool (b : Bool) : AtomText (boolText b)
  | number {t : Text} (h : NumberText t) : AtomText t
  | string (s : Text) : AtomText (quote s)

lemma NumberPrinter.isText (printer : NumberPrinter) (a : Atom) : AtomText (printer.atomText a) := by
  cases a with
  | null => exact .null
  | bool b => exact .bool b
  | string s => exact .string s
  | number x =>
    rw [atomText]
    split
    · exact .number (printer.printed x ‹_›)
    · exact .null

lemma numberChar_not_stop {c : UInt16} (h : numberChar c = true) :
    ¬Stop c ∧ c ≠ 91 ∧ c ≠ 123 ∧ c ≠ 110 ∧ c ≠ 116 ∧ c ≠ 102 ∧ c ≠ 34 := by
  refine ⟨?_,?_,?_,?_,?_,?_,?_⟩
  · rintro (rfl | rfl | rfl) <;> revert h <;> decide
  all_goals rintro rfl; revert h; decide

lemma NumberText.cons {t : Text} (h : NumberText t) :
    ∃ c rest, t = c :: rest ∧ numberChar c = true := by
  obtain ⟨hne,hall⟩ := h
  cases t with
  | nil => exact absurd rfl hne
  | cons c rest => exact ⟨c,rest,rfl,hall c (by simp)⟩

lemma NumberText.takeWhile {t s : Text} (h : NumberText t) (hs : Stops s) :
    (t ++ s).takeWhile numberChar = t := by
  rw [List.takeWhile_append_of_pos h.2]
  cases s with
  | nil => simp
  | cons c s =>
    have hc : numberChar c ≠ true := fun hn => (numberChar_not_stop hn).1 (hs c rfl)
    rw [List.takeWhile_cons_of_neg hc,List.append_nil]

/-- What the first character tells: `null`, `true`, `false`, a number or a string. -/
def kindOf (c : UInt16) : ℕ :=
  if c = 110 then 0 else if c = 116 then 1 else if c = 102 then 2 else if c = 34 then 3 else 4

lemma kindOf_number {c : UInt16} (h : numberChar c = true) : kindOf c = 4 := by
  have := numberChar_not_stop h
  simp [kindOf,this]

/-- A text of each kind. -/
def OfKind : ℕ → Text → Prop
  | 0, t => t = ascii "null"
  | 1, t => t = ascii "true"
  | 2, t => t = ascii "false"
  | 3, t => ∃ s, t = quote s
  | _, t => NumberText t

lemma AtomText.kind {a : Text} (ha : AtomText a) :
    ∃ c rest, a = c :: rest ∧ OfKind (kindOf c) a := by
  cases ha with
  | null => exact ⟨110,_,rfl,rfl⟩
  | bool b =>
    cases b
    · exact ⟨102,_,rfl,rfl⟩
    · exact ⟨116,_,rfl,rfl⟩
  | string s => exact ⟨34,_,rfl,s,rfl⟩
  | number h =>
    obtain ⟨c,rest,rfl,hc⟩ := h.cons
    refine ⟨c,rest,rfl,?_⟩
    rw [kindOf_number hc]
    exact h

/-- Texts of one kind are told apart. -/
lemma OfKind.apart {k : ℕ} {a b s t : Text} (ha : OfKind k a) (hb : OfKind k b) (hs : Stops s)
    (ht : Stops t) (heq : a ++ s = b ++ t) : a = b ∧ s = t := by
  have hsame (h : a = b) : a = b ∧ s = t := by
    subst h
    exact ⟨rfl,List.append_cancel_left heq⟩
  match k, ha, hb with
  | 0, ha, hb | 1, ha, hb | 2, ha, hb => exact hsame (ha.trans hb.symm)
  | 3, ⟨x,hx⟩, ⟨y,hy⟩ =>
    subst hx hy
    obtain ⟨rfl,rfl⟩ := quote_append_inj heq
    exact ⟨rfl,rfl⟩
  | _ + 4, ha, hb =>
    have htake := congrArg (List.takeWhile numberChar) heq
    rw [NumberText.takeWhile ha hs,NumberText.takeWhile hb ht] at htake
    exact hsame htake

theorem atomText_leaf : LeafTexts AtomText where
  starts {a} ha := by
    cases ha with
    | null => exact ⟨110,_,rfl,by unfold Stop; decide⟩
    | bool b => cases b <;> exact ⟨_,_,rfl,by unfold Stop; decide⟩
    | string s => exact ⟨34,_,rfl,by unfold Stop; decide⟩
    | number h =>
      obtain ⟨c,rest,rfl,hc⟩ := h.cons
      have := numberChar_not_stop hc
      exact ⟨c,rest,rfl,this.1,this.2.1,this.2.2.1⟩
  apart {a b} ha hb {s t} hs ht heq := by
    obtain ⟨c,x,rfl,hka⟩ := ha.kind
    obtain ⟨d,y,rfl,hkb⟩ := hb.kind
    obtain rfl : c = d := by simpa using congrArg List.head? heq
    exact hka.apart hkb hs ht heq

def SameAtom : Atom → Atom → Prop
  | .number x, .number y => SameNumber x y
  | a, b => a = b

/-- A leaf that is not a number, or a finite one. -/
def Atom.isFinite : Atom → Bool
  | .number x => JsonText.isFinite x
  | _ => true

def Atom.kind : Atom → ℕ
  | .null => 0
  | .bool b => if b then 1 else 2
  | .string _ => 3
  | .number _ => 4

lemma NumberPrinter.kind (printer : NumberPrinter) {a : Atom} (ha : a.isFinite = true) :
    ∃ c rest, printer.atomText a = c :: rest ∧ kindOf c = a.kind := by
  cases a with
  | null => exact ⟨110,_,rfl,rfl⟩
  | bool b => cases b <;> exact ⟨_,_,rfl,rfl⟩
  | string s => exact ⟨34,_,rfl,rfl⟩
  | number x =>
    obtain ⟨c,rest,hx,hc⟩ := (printer.printed x ha).cons
    exact ⟨c,rest,by rw [atomText,if_pos (show JsonText.isFinite x = true from ha),hx],kindOf_number hc⟩

lemma NumberPrinter.number_eq_iff (printer : NumberPrinter) {x y : UInt64}
    (hx : JsonText.isFinite x = true) (hy : JsonText.isFinite y = true) :
    printer.atomText (.number x) = printer.atomText (.number y) ↔ SameNumber x y := by
  rw [atomText,atomText,if_pos hx,if_pos hy]
  exact printer.text_eq_iff x y hx hy

/-- Leaves have the same text just when they are the same. -/
theorem NumberPrinter.atomText_eq_iff (printer : NumberPrinter) {a b : Atom}
    (ha : a.isFinite = true) (hb : b.isFinite = true) :
    printer.atomText a = printer.atomText b ↔ SameAtom a b := by
  obtain ⟨c,x,ha',hca⟩ := printer.kind ha
  obtain ⟨d,y,hb',hdb⟩ := printer.kind hb
  constructor
  · intro h
    have hk : a.kind = b.kind := by
      rw [← hca,← hdb]
      rw [ha',hb',List.cons.injEq] at h
      rw [h.1]
    rcases a with _ | (_ | _) | x | s <;> rcases b with _ | (_ | _) | y | t <;>
      simp [Atom.kind] at hk
    · rfl
    · rfl
    · rfl
    · exact (printer.number_eq_iff ha hb).mp h
    · exact congrArg _ (quote_injective h)
  · intro h
    match a, b, ha, hb, h with
    | .number x, .number y, ha, hb, h => exact (printer.number_eq_iff ha hb).mpr h
    | .null, _, _, _, h | .bool _, _, _, _, h | .string _, _, _, _, h => exact congrArg _ h

lemma NumberText.paired {t : Text} (h : NumberText t) : hasLoneSurrogate t = false := by
  refine Plain.hasLoneSurrogate fun c hc => ?_
  have hn := h.2 c hc
  have hsmall : c < 0xD800 := by
    by_contra hlarge
    have hge := UInt16.not_lt.mp hlarge
    revert hn
    unfold numberChar
    rw [UInt16.le_iff_toNat_le] at hge
    have hfive (d : UInt16) (hd : d.toNat < 0xD800) : c ≠ d := fun h => by
      rw [h] at hge
      exact absurd hge (Nat.not_le.mpr hd)
    have hnine : ¬c ≤ 57 := fun h => by
      rw [UInt16.le_iff_toNat_le] at h
      exact absurd (hge.trans h) (by decide)
    simp [hnine,hfive 43 (by decide),hfive 45 (by decide),hfive 46 (by decide),
      hfive 101 (by decide)]
  have hhigh : ¬0xD800 ≤ c := UInt16.not_le.mpr hsmall
  have hlow : ¬0xDC00 ≤ c := fun h => hhigh (UInt16.le_trans (by decide) h)
  simp [isHigh,isLow,hhigh,hlow]

/-- The same leaves have the same text, finite or not. -/
lemma NumberPrinter.atomText_of_same (printer : NumberPrinter) {a b : Atom} (h : SameAtom a b) :
    printer.atomText a = printer.atomText b := by
  by_cases heq : a = b
  · rw [heq]
  match a, b, h with
  | .number x, .number y, h =>
    obtain rfl | ⟨hx,hy⟩ := h
    · rfl
    have hfinite {x : UInt64} (hx : isZero x = true) : JsonText.isFinite x = true := by
      have hlt := x.toNat_lt
      simp only [isZero,JsonText.isFinite,decide_eq_true_eq] at hx ⊢
      omega
    exact (printer.number_eq_iff (hfinite hx) (hfinite hy)).mpr (.inr ⟨hx,hy⟩)
  | .null, _, h | .bool _, _, h | .string _, _, h => exact congrArg _ h

/-- The text of a leaf can be encoded. -/
lemma NumberPrinter.atomText_paired (printer : NumberPrinter) (a : Atom) :
    hasLoneSurrogate (printer.atomText a) = false := by
  cases a with
  | null => rfl
  | bool b => cases b <;> rfl
  | string s => exact quote_paired s
  | number x =>
    rw [atomText]
    split
    · exact (printer.printed x ‹_›).paired
    · rfl

/-- `JSON.stringify`, of an object whose fields are in the order of its own keys. -/
def stringify (printer : NumberPrinter) (v : Json) : Text := print (normal id printer.atomText v)

/-- The text of a value can be encoded. -/
lemma stringify_paired (printer : NumberPrinter) (v : Json) :
    hasLoneSurrogate (stringify printer v) = false := by
  refine print_paired fun hc => ?_
  exact not_contains (fun a h => Bool.eq_false_iff.mp (printer.atomText_paired a) h) (fun _ h => h)
    (contains_of_normal id hc)

/-! ## A printer -/

/-- The bits of a number, after an `e`; zero and one are printed as they are. -/
def sampleText (x : UInt64) : Text :=
  if isZero x then [48] else if x = 0x3FF0000000000000 then [49]
  else 101 :: (List.range 64).map fun i => if x.toNat.testBit i then 49 else 48

lemma bits_injective {x y : UInt64}
    (h : ((List.range 64).map fun i => if x.toNat.testBit i then (49 : UInt16) else 48) =
      (List.range 64).map fun i => if y.toNat.testBit i then 49 else 48) : x = y := by
  refine UInt64.toNat_inj.mp (Nat.eq_of_testBit_eq fun i => ?_)
  by_cases hi : i < 64
  · have hbit := List.map_inj_left.mp h i (List.mem_range.mpr hi)
    by_cases hx : x.toNat.testBit i <;> by_cases hy : y.toNat.testBit i <;> simp_all
  · have hpow : (2 : ℕ) ^ 64 ≤ 2 ^ i := Nat.pow_le_pow_right (by decide) (by omega)
    rw [Nat.testBit_lt_two_pow (x.toNat_lt.trans_le hpow),
      Nat.testBit_lt_two_pow (y.toNat_lt.trans_le hpow)]

/-- Printers exist. -/
def samplePrinter : NumberPrinter where
  text := sampleText
  printed x _ := by
    unfold sampleText
    split_ifs
    · exact ⟨List.cons_ne_nil _ _,List.forall_mem_singleton.mpr rfl⟩
    · exact ⟨List.cons_ne_nil _ _,List.forall_mem_singleton.mpr rfl⟩
    · refine ⟨List.cons_ne_nil _ _,fun c hc => ?_⟩
      rcases List.mem_cons.mp hc with rfl | hc
      · decide
      · obtain ⟨i,_,rfl⟩ := List.mem_map.mp hc
        split <;> decide
  text_eq_iff x y _ _ := by
    constructor
    · intro h
      unfold sampleText at h
      by_cases hx : isZero x = true <;> by_cases hy : isZero y = true
      · exact .inr ⟨hx,hy⟩
      · rw [if_pos hx,if_neg hy] at h
        split at h <;> simp at h
      · rw [if_neg hx,if_pos hy] at h
        split at h <;> simp at h
      · rw [if_neg hx,if_neg hy] at h
        split_ifs at h with hx' hy' hy'
        · exact .inl (hx'.trans hy'.symm)
        · simp at h
        · simp at h
        · exact .inl (bits_injective (List.cons.inj h).2)
    · rintro (rfl | ⟨hx,hy⟩)
      · rfl
      · rw [sampleText,sampleText,if_pos hx,if_pos hy]

/-! ## The order of keys -/

/-- The order of the strings' code units. -/
def UnitsLE (k k' : Text) : Prop := k.map UInt16.toNat ≤ k'.map UInt16.toNat

instance : DecidableRel UnitsLE := fun _ _ => inferInstanceAs (Decidable (_ ≤ _))

def KeyLE {α : Type} (p q : Text × α) : Prop := UnitsLE p.1 q.1

instance {α : Type} : DecidableRel (KeyLE (α := α)) :=
  fun _ _ => inferInstanceAs (Decidable (UnitsLE _ _))

instance {α : Type} : Std.Total (KeyLE (α := α)) where
  total p q := le_total (p.1.map UInt16.toNat) (q.1.map UInt16.toNat)

instance {α : Type} : IsTrans (Text × α) KeyLE where
  trans p _ _ := le_trans (a := p.1.map UInt16.toNat)

lemma UnitsLE.antisymm {k k' : Text} (h : UnitsLE k k') (h' : UnitsLE k' k) : k = k' :=
  List.map_injective_iff.mpr (fun _ _ => UInt16.toNat_inj.mp) (le_antisymm h h')

def sortFields {α : Type} (fields : List (Text × α)) : List (Text × α) :=
  fields.insertionSort KeyLE

lemma sortFields_perm {α : Type} (fields : List (Text × α)) : (sortFields fields).Perm fields :=
  List.perm_insertionSort _ _

lemma sortFields_congr {α : Type} {fields fields' : List (Text × α)}
    (hkeys : (fields.map Prod.fst).Nodup) (h : fields.Perm fields') :
    sortFields fields = sortFields fields' := by
  have hperm := (sortFields_perm fields).trans (h.trans (sortFields_perm fields').symm)
  refine hperm.eq_of_pairwise (fun p q hp hq hpq hqp => ?_) (List.pairwise_insertionSort _ _)
    (List.pairwise_insertionSort _ _)
  exact List.inj_on_of_nodup_map hkeys ((sortFields_perm _).subset hp)
    (h.symm.subset ((sortFields_perm _).subset hq)) (UnitsLE.antisymm hpq hqp)

theorem sortFields_arranges : Arranges (sortFields (α := Tree Text Text)) :=
  ⟨sortFields_perm,sortFields_congr⟩

/-- Sorting looks at the keys only. -/
lemma sortFields_map {α β : Type} (f : Text × α → Text × β) (hf : ∀ p, (f p).1 = p.1)
    (fields : List (Text × α)) : sortFields (fields.map f) = (sortFields fields).map f :=
  (List.map_insertionSort KeyLE KeyLE f fields fun p _ q _ => by
    simp only [KeyLE,hf]).symm

end Linea.JsonText
