import Linea.GithubApi

/-! What a reviewer is shown: texts with the signs of HTML escaped, and the check on a display. -/
namespace Linea.SafeDisplay

open JsonText (Text ascii quote isHigh isLow)
open Separators (PrefixFree)
open GithubApi (accept sized)

def replaceAll (s : Text) (target : UInt16) (replacement : Text) : Text :=
  s.flatMap fun u => if u = target then replacement else [u]

def escapeSafeDisplayText (value : Text) : Text :=
  replaceAll (replaceAll (replaceAll (replaceAll (replaceAll value
    38 (ascii "&amp;")) 60 (ascii "&lt;")) 62 (ascii "&gt;")) 34 (ascii "&quot;")) 39 (ascii "&#39;")

/-- What becomes of one unit. -/
def entity (u : UInt16) : Text :=
  if u = 38 then ascii "&amp;" else if u = 60 then ascii "&lt;" else if u = 62 then ascii "&gt;"
  else if u = 34 then ascii "&quot;" else if u = 39 then ascii "&#39;" else [u]

/-- No replacement is replaced again. -/
lemma escapeSafeDisplayText_eq (value : Text) :
    escapeSafeDisplayText value = value.flatMap entity := by
  simp only [escapeSafeDisplayText,replaceAll,List.flatMap_assoc]
  refine congrArg (List.flatMap · value) (funext fun u => ?_)
  unfold entity
  split_ifs with hamp hlt hgt hquot hapos
  · decide
  · rw [hlt]
    decide
  · rw [hgt]
    decide
  · rw [hquot]
    decide
  · rw [hapos]
    decide
  · simp [hlt,hgt,hquot,hapos]

lemma entity_prefixFree : PrefixFree entity := by
  refine ⟨fun u => ?_,fun u v s t h => ?_⟩
  · unfold entity
    split_ifs <;> simp [ascii]
  · unfold entity at h
    -- The entities differ in their second unit, and only they begin with `&`.
    split_ifs at h <;> simp_all [ascii]

lemma escapeSafeDisplayText_injective : Function.Injective escapeSafeDisplayText := by
  intro s t h
  rw [escapeSafeDisplayText_eq,escapeSafeDisplayText_eq] at h
  exact entity_prefixFree.flatMap_injective h

structure Display where
  title : Text
  description : Option Text
  details : List (Text × Text)
  deriving DecidableEq, Repr

/-- The length in bytes of a string's UTF-8. -/
def encodedLength : Text → ℕ
  | [] => 0
  | [u] => if u < 0x80 then 1 else if u < 0x800 then 2 else 3
  | u :: l :: rest =>
    if isHigh u && isLow l then 4 + encodedLength rest
    else (if u < 0x80 then 1 else if u < 0x800 then 2 else 3) + encodedLength (l :: rest)

/-- `JSON.stringify` of an object whose values are printed already. -/
def objectText (fields : List (Text × Text)) : Text :=
  123 :: (Separators.join [44] (fields.map fun field => quote field.1 ++ 58 :: field.2) ++ [125])

def Display.json (display : Display) : Text :=
  objectText ((ascii "title",quote display.title) ::
    ((display.description.toList.map fun text => (ascii "description",quote text)) ++
      [(ascii "details",objectText (display.details.map fun detail => (detail.1,quote detail.2)))]))

def validateSafeDisplay (display : Display) : Option Display :=
  accept (sized 1 200 display.title && encodedLength display.json ≤ 8192) display

end Linea.SafeDisplay
