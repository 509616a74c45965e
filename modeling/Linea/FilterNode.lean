import Linea.DotPaths
import Linea.TextEdits
import Mathlib.Data.Int.Log
import Mathlib.Data.List.Infix
import Mathlib.Data.Rat.Floor

/-! The filter node of `nodes/filter.node.ts`: the conditions on what a dot path reads in each item. -/
namespace Linea.FilterNode
open JsonText JsonText.Tree WorkflowHash BranchNode DotPaths
open TextEdits (trim)

inductive Operator
  | equals
  | notEquals
  | contains
  | notContains
  | greaterThan
  | lessThan
  | greaterThanOrEqual
  | lessThanOrEqual
  | isEmpty
  | isNotEmpty
  | exists
  | notExists
  deriving DecidableEq, Repr

/-- A condition; `value` may be absent. -/
structure Condition where
  path : Text
  operator : Operator
  value : Option Json

inductive Combinator
  | and
  | or
  deriving DecidableEq, Repr

/-! ### Numbers -/

/-- The value of a double. -/
inductive Double
  | nan
  | finite (q : ℚ)
  | infinity (negative : Bool)
  deriving DecidableEq

def ofBits (bits : UInt64) : Double :=
  let negative := 2 ^ 63 ≤ bits.toNat
  let exponent : ℕ := bits.toNat / 2 ^ 52 % 2 ^ 11
  let fraction : ℕ := bits.toNat % 2 ^ 52
  if exponent = 2 ^ 11 - 1 then if fraction = 0 then .infinity negative else .nan
  else
    let magnitude : ℚ := if exponent = 0 then fraction * 2 ^ (-1074 : ℤ)
      else (2 ^ 52 + fraction) * 2 ^ ((exponent : ℤ) - 1075)
    .finite (if negative then -magnitude else magnitude)

/-- The nearest natural number, the even one of two. -/
def roundEven (q : ℚ) : ℕ :=
  let below := ⌊q⌋₊
  if q - below < 1 / 2 then below
  else if 1 / 2 < q - below then below + 1
  else if below % 2 = 0 then below else below + 1

/-- The double next to a number that is not negative. -/
def toDouble (negative : Bool) (q : ℚ) : Double :=
  let scale := max (Int.log 2 q - 52) (-1074)
  let rounded : ℚ := if q = 0 then 0 else roundEven (q / 2 ^ scale) * 2 ^ scale
  if 2 ^ 1024 ≤ rounded then .infinity negative
  else .finite (if negative then -rounded else rounded)

def isDigit (c : UInt16) : Bool := 48 ≤ c && c ≤ 57

def digitsValue (base : ℕ) (digits : List ℕ) : ℕ := digits.foldl (fun n d => n * base + d) 0

/-- A sign and what follows it. -/
def readSign : Text → Bool × Text
  | 45 :: rest => (true,rest)
  | 43 :: rest => (false,rest)
  | s => (false,s)

def decimalDigits (s : Text) : ℕ := digitsValue 10 (s.map fun c => c.toNat - 48)

/-- The exponent part, to the end of the text. -/
def readExponent : Text → Option ℤ
  | [] => some 0
  | e :: rest =>
    let (negative,digits) := readSign rest
    if (e = 101 ∨ e = 69) ∧ digits ≠ [] ∧ digits.all isDigit then
      some (if negative then -decimalDigits digits else decimalDigits digits)
    else none

/-- `StrUnsignedDecimalLiteral`, but for `Infinity`. -/
def readDecimal (s : Text) : Option ℚ :=
  let whole := s.takeWhile isDigit
  let (fraction,rest) := match s.dropWhile isDigit with
    | 46 :: rest => (rest.takeWhile isDigit,rest.dropWhile isDigit)
    | rest => ([],rest)
  if whole = [] ∧ fraction = [] then none
  else (readExponent rest).map fun e =>
    (decimalDigits (whole ++ fraction) : ℚ) * 10 ^ (e - (fraction.length : ℤ))

/-- The value of a digit up to `z`. -/
def digitValue (c : UInt16) : Option ℕ :=
  if 48 ≤ c ∧ c ≤ 57 then some (c.toNat - 48)
  else if 97 ≤ c ∧ c ≤ 122 then some (c.toNat - 87)
  else if 65 ≤ c ∧ c ≤ 90 then some (c.toNat - 55)
  else none

def readInteger (base : ℕ) (s : Text) : Double :=
  match s.mapM fun c => (digitValue c).filter (· < base) with
  | some digits => if digits = [] then .nan else toDouble false (digitsValue base digits)
  | none => .nan

def readSigned (s : Text) : Double :=
  let (negative,rest) := readSign s
  if rest = ascii "Infinity" then .infinity negative
  else match readDecimal rest with
    | some q => toDouble negative q
    | none => .nan

/-- `Number(text)`, of a text that is not blank. -/
def toNumber (text : Text) : Double :=
  match trim text with
  | 48 :: letter :: digits =>
    if letter = 120 ∨ letter = 88 then readInteger 16 digits
    else if letter = 111 ∨ letter = 79 then readInteger 8 digits
    else if letter = 98 ∨ letter = 66 then readInteger 2 digits
    else readSigned (48 :: letter :: digits)
  | s => readSigned s

/-- `left < right`. -/
def Double.less : Double → Double → Bool
  | .finite p,.finite q => p < q
  | .finite _,.infinity negative => !negative
  | .infinity negative,.finite _ => negative
  | .infinity negative,.infinity negative' => negative && !negative'
  | _,_ => false

/-- `left <= right`. -/
def Double.lessOrEqual (left right : Double) : Bool :=
  left.less right || (left ≠ .nan && left = right)

/-! ### Conditions -/

/-- `toComparableNumber`, `none` for `undefined`. -/
def toComparableNumber : Reached → Option Double
  | .json (.leaf (.number bits)) => some (ofBits bits)
  | .json (.leaf (.string s)) =>
    if trim s = [] then none
    else if toNumber s = .nan then none else some (toNumber s)
  | .length n => some (toDouble false n)
  | _ => none

/-- `isEmptyValue`. `Array.prototype` is an array without items. -/
def isEmptyValue : Reached → Bool
  | .undefined => true
  | .json (.leaf .null) => true
  | .json (.leaf (.string s)) => s = []
  | .json (.arr items) => items.length = 0
  | .arrayPrototype => true
  | _ => false

section Conditions
variable (identical : Json → Json → Bool)

/-- `actual === value`: whether an object is the same as another is not seen from their data. -/
def strictEquals : Reached → Option Json → Bool
  | .undefined,none => true
  | .json (.leaf a),some (.leaf b) => strictEqual a b
  | .json (.arr items),some (.arr items') => identical (.arr items) (.arr items')
  | .json (.obj fields),some (.obj fields') => identical (.obj fields) (.obj fields')
  | .length n,some (.leaf (.number bits)) => toDouble false n = ofBits bits
  | _,_ => false

/-- `SameValueZero` of an item and a value, which differs from `===` in `NaN`. -/
def sameValueZero (v : Json) (value : Option Json) : Bool :=
  match v,value with
  | .leaf (.number x),some (.leaf (.number y)) =>
    isNaN x && isNaN y || strictEquals identical (.json v) value
  | _,_ => strictEquals identical (.json v) value

def includes (actual : Reached) (value : Option Json) : Bool :=
  match actual,value with
  | .json (.leaf (.string s)),some (.leaf (.string t)) => t <:+: s
  | .json (.arr items),value => items.any fun v => sameValueZero identical v value
  | _,_ => false

/-- One of the four comparisons of numbers. -/
def compares (test : Double → Double → Bool) (actual : Reached) (value : Option Json) : Bool :=
  match toComparableNumber actual,toComparableNumber (.ofOption value) with
  | some left,some right => test left right
  | _,_ => false

/-- What the operator decides about the value that was read. -/
def decides (actual : Reached) (operator : Operator) (value : Option Json) : Bool :=
  match operator with
  | .exists => match actual with
    | .undefined => false
    | _ => true
  | .notExists => match actual with
    | .undefined => true
    | _ => false
  | .isEmpty => isEmptyValue actual
  | .isNotEmpty => !isEmptyValue actual
  | .equals => strictEquals identical actual value
  | .notEquals => !strictEquals identical actual value
  | .contains => includes identical actual value
  | .notContains => !includes identical actual value
  | .greaterThan => compares (fun left right => right.less left) actual value
  | .lessThan => compares Double.less actual value
  | .greaterThanOrEqual => compares (fun left right => right.lessOrEqual left) actual value
  | .lessThanOrEqual => compares Double.lessOrEqual actual value

def matchesCondition (v : Json) (condition : Condition) : Bool :=
  decides identical (getPath v condition.path) condition.operator condition.value

/-- `parsed.items.filter(...)`. -/
def kept (items : List Json) (conditions : List Condition) (combinator : Combinator) : List Json :=
  items.filter fun v =>
    if conditions.length = 0 then true
    else match combinator with
      | .and => conditions.all fun condition => matchesCondition identical v condition
      | .or => conditions.any fun condition => matchesCondition identical v condition

end Conditions

/-! ### The schema of the input -/

def field (fields : List (Text × Json)) (key : String) : Option Json :=
  (fields.find? fun p => p.1 = ascii key).map Prod.snd

def operatorNames : List (String × Operator) :=
  [("equals",.equals),("notEquals",.notEquals),("contains",.contains),("notContains",.notContains),
    ("greaterThan",.greaterThan),("lessThan",.lessThan),("greaterThanOrEqual",.greaterThanOrEqual),
    ("lessThanOrEqual",.lessThanOrEqual),("isEmpty",.isEmpty),("isNotEmpty",.isNotEmpty),
    ("exists",.exists),("notExists",.notExists)]

/-- `filterConditionSchema`; the operators that it lets through are those that are known to
`matchesCondition`. -/
def parseCondition : Json → Option Condition
  | .obj fields =>
    match field fields "path",field fields "operator" with
    | some (.leaf (.string path)),some (.leaf (.string name)) =>
      (operatorNames.find? fun p => ascii p.1 = name).map fun p =>
        ⟨path,p.2,field fields "value"⟩
    | _,_ => none
  | _ => none

def parseConditions : Option Json → Option (List Condition)
  | none => some []
  | some (.arr items) => items.mapM parseCondition
  | some _ => none

def parseCombinator : Option Json → Option Combinator
  | none => some .and
  | some (.leaf (.string s)) =>
    if s = ascii "and" then some .and else if s = ascii "or" then some .or else none
  | some _ => none

structure Parsed where
  items : List Json
  conditions : List Condition
  combinator : Combinator

/-- `filterInputSchema`. -/
def parseInput (config : List (Text × Json)) (input : Json) : Option Parsed :=
  match input with
  | .arr items => do
    let conditions ← parseConditions (field config "conditions")
    let combinator ← parseCombinator (field config "combinator")
    return ⟨items,conditions,combinator⟩
  | _ => none

/-- `FilterNode.execute`: the items of the output, `none` where it throws. -/
def execute (identical : Json → Json → Bool) (config : List (Text × Json)) (input : Json) :
    Option (List Json) :=
  (parseInput config input).map fun parsed =>
    kept identical parsed.items parsed.conditions parsed.combinator

/-! ## What is kept -/

section Kept
variable (identical : Json → Json → Bool)

/-- A condition on what is read of the data alone. -/
def Satisfied (v : Json) (condition : Condition) : Prop :=
  ∃ actual, Reading v condition.path actual ∧
    decides identical (.ofOption actual) condition.operator condition.value = true

/-- What a node keeps: without conditions everything. -/
def Chosen (parsed : Parsed) (v : Json) : Prop :=
  parsed.conditions = [] ∨ match parsed.combinator with
    | .and => ∀ condition ∈ parsed.conditions, Satisfied identical v condition
    | .or => ∃ condition ∈ parsed.conditions, Satisfied identical v condition

/-- The operators of which one holds where the other does not. -/
def opposites : List (Operator × Operator) :=
  [(.equals,.notEquals),(.contains,.notContains),(.isEmpty,.isNotEmpty),(.exists,.notExists)]

lemma matches_satisfied {v : Json} {condition : Condition} (hv : KeysDistinct v)
    (hpath : ¬ Meets v (segments condition.path)) :
    matchesCondition identical v condition = true ↔ Satisfied identical v condition := by
  obtain ⟨actual,hreading,hget⟩ := getPath_reading hv hpath
  rw [matchesCondition,hget]
  constructor
  · exact fun h => ⟨actual,hreading,h⟩
  · rintro ⟨other,hother,h⟩
    rwa [hreading.unique hother]

lemma decides_opposite {pair : Operator × Operator} (h : pair ∈ opposites) (actual : Reached)
    (value : Option Json) :
    decides identical actual pair.2 value = !decides identical actual pair.1 value := by
  simp only [opposites,List.mem_cons,List.not_mem_nil,or_false] at h
  rcases h with rfl | rfl | rfl | rfl
  · rfl
  · rfl
  · rfl
  · cases actual <;> rfl

/-- With one condition the combinator plays no role. -/
lemma kept_single (items : List Json) (condition : Condition) (combinator : Combinator) :
    kept identical items [condition] combinator =
      items.filter fun v => matchesCondition identical v condition := by
  cases combinator with
  | and => simp [kept]
  | or => simp [kept]

lemma kept_chosen (parsed : Parsed) (hitems : ∀ v ∈ parsed.items, KeysDistinct v)
    (hpaths : ∀ v ∈ parsed.items, ∀ condition ∈ parsed.conditions,
      ¬ Meets v (segments condition.path)) :
    ∃ p : Json → Bool, (∀ v ∈ parsed.items, p v = true ↔ Chosen identical parsed v) ∧
      kept identical parsed.items parsed.conditions parsed.combinator = parsed.items.filter p := by
  refine ⟨_,fun v hv => ?_,rfl⟩
  have hmatches : ∀ condition ∈ parsed.conditions,
      (matchesCondition identical v condition = true ↔ Satisfied identical v condition) :=
    fun condition hcondition =>
      matches_satisfied identical (hitems v hv) (hpaths v hv condition hcondition)
  unfold Chosen
  by_cases hnone : parsed.conditions = []
  · simp [hnone]
  · have hlength : ¬ parsed.conditions.length = 0 := fun h => hnone (List.length_eq_zero_iff.mp h)
    rw [if_neg hlength]
    cases parsed.combinator with
    | and =>
      simp only [hnone,false_or,List.all_eq_true]
      exact forall₂_congr hmatches
    | or =>
      simp only [hnone,false_or,List.any_eq_true]
      exact exists_congr fun condition => and_congr_right fun h => hmatches condition h

/-- Where the paths meet no inherited name, they read the data, and the node keeps the items that are
chosen by what is read, all of them if it has no conditions. Opposite operators split the items, and
`equals` decides the equality of scalars. -/
theorem filter_reads :
    (∀ (v : Json) (path : Text), KeysDistinct v → ¬ Meets v (segments path) →
      (∀ r, getPath v path = .json r ↔ Reads v (segments path) r) ∧
      (getPath v path = .undefined ↔ ∀ r, ¬ Reads v (segments path) r)) ∧
    (∀ config input parsed, parseInput config input = some parsed →
      (∀ v ∈ parsed.items, KeysDistinct v) →
      (∀ v ∈ parsed.items, ∀ condition ∈ parsed.conditions, ¬ Meets v (segments condition.path)) →
      ∃ p : Json → Bool, (∀ v ∈ parsed.items, p v = true ↔ Chosen identical parsed v) ∧
        execute identical config input = some (parsed.items.filter p)) ∧
    (∀ pair ∈ opposites, ∀ items path value combinator, ∃ p : Json → Bool,
      kept identical items [⟨path,pair.1,value⟩] combinator = items.filter p ∧
      kept identical items [⟨path,pair.2,value⟩] combinator = items.filter fun v => !p v) ∧
    ∀ v path a b, a.isFinite = true → b.isFinite = true → getPath v path = .json (.leaf a) →
      (matchesCondition identical v ⟨path,.equals,some (.leaf b)⟩ = true ↔ SameAtom a b) := by
  refine ⟨fun v path hv hpath => ?_,fun config input parsed hparse hitems hpaths => ?_,
    fun pair hpair items path value combinator => ?_,fun v path a b ha hb hget => ?_⟩
  · obtain ⟨actual,hreading,hget⟩ := getPath_reading hv hpath
    rw [hget]
    cases actual with
    | some w =>
      refine ⟨fun r => ?_,fun h => Reached.noConfusion h,fun h => absurd ((hreading w).mp rfl) (h w)⟩
      rw [← hreading r]
      simp [Reached.ofOption]
    | none =>
      refine ⟨fun r => ?_,fun _ r hr => ?_,fun _ => rfl⟩
      · rw [← hreading r]
        simp [Reached.ofOption]
      · exact absurd ((hreading r).mpr hr).symm (Option.some_ne_none r)
  · obtain ⟨p,hp,hkept⟩ := kept_chosen identical parsed hitems hpaths
    refine ⟨p,hp,?_⟩
    rw [execute,hparse,Option.map_some,hkept]
  · refine ⟨fun v => decides identical (getPath v path) pair.1 value,?_,?_⟩
    · rw [kept_single]
      rfl
    · rw [kept_single]
      exact List.filter_congr fun v _ => decides_opposite identical hpair (getPath v path) value
  · rw [matchesCondition,hget]
    exact strictEqual_iff ha hb

end Kept

def adult : Json := .obj [(ascii "user",.obj [(ascii "age",one)])]

/-- `{"conditions": [{"path": "user.age", "operator": "exists"}]}` -/
def adults : List (Text × Json) :=
  [(ascii "conditions",.arr [.obj [(ascii "path",text "user.age"),(ascii "operator",text "exists")]])]

/-- A path is read in the data of an item, which the node keeps for what is there. -/
theorem adult_reads : getPath adult (ascii "user.age") = .json one ∧
    execute (fun _ _ => false) adults (.arr [adult]) = some [adult] := by
  have hkeys : KeysDistinct adult := by
    refine .obj (List.nodup_singleton _) fun p hp => ?_
    obtain rfl := List.mem_singleton.mp hp
    refine .obj (List.nodup_singleton _) fun p hp => ?_
    obtain rfl := List.mem_singleton.mp hp
    exact .leaf _
  have hsegments : segments (ascii "user.age") = [ascii "user",ascii "age"] := by decide +kernel
  have hage : Own (.obj [(ascii "age",one)]) (ascii "age") one := List.mem_singleton.mpr rfl
  have huser : Own adult (ascii "user") (.obj [(ascii "age",one)]) := List.mem_singleton.mpr rfl
  have hmeets : ¬ Meets adult (segments (ascii "user.age")) := by
    rw [hsegments]
    intro h
    cases h with
    | here h => exact h.1 (List.mem_singleton.mpr rfl)
    | there hown h =>
      obtain rfl := own_unique hkeys hown huser
      cases h with
      | here h => exact h.1 (List.mem_singleton.mpr rfl)
      | there hown h =>
        cases h with
  have hreads : Reads adult (segments (ascii "user.age")) one := by
    rw [hsegments]
    exact .there huser (.there hage (.here _))
  obtain ⟨hread,hkept,-⟩ := filter_reads fun _ _ => false
  have hparsed : parseInput adults (.arr [adult]) =
      some ⟨[adult],[⟨ascii "user.age",.exists,none⟩],.and⟩ := by rfl
  obtain ⟨p,hp,hexecute⟩ := hkept adults (.arr [adult]) _ hparsed
    (List.forall_mem_singleton.mpr hkeys)
    (List.forall_mem_singleton.mpr (List.forall_mem_singleton.mpr hmeets))
  have hchosen : p adult = true := by
    refine (hp adult (List.mem_singleton.mpr rfl)).mpr (.inr (List.forall_mem_singleton.mpr ?_))
    refine ⟨some one,fun r => ⟨fun h => ?_,fun h => ?_⟩,rfl⟩
    · exact Option.some.inj h ▸ hreads
    · exact congrArg some (hreads.unique hkeys h)
  refine ⟨((hread adult _ hkeys hmeets).1 one).mpr hreads,?_⟩
  rw [hexecute,List.filter_cons_of_pos hchosen,List.filter_nil]

/-- Without conditions nothing is sorted out, although none of them holds; and a path reads what an
empty object inherits. -/
theorem filter_unread :
    execute (fun _ _ => false) [(ascii "combinator",text "or")] (.arr [one]) = some [one] ∧
    (parseInput [(ascii "combinator",text "or")] (.arr [one])).map Parsed.conditions = some [] ∧
    getPath (.obj []) (ascii "constructor") = .method ∧
    ∀ r, ¬ Reads (.obj []) (segments (ascii "constructor")) r := by
  refine ⟨by rfl,by rfl,by rfl,fun r h => ?_⟩
  cases h with
  | there hown _ => exact absurd hown List.not_mem_nil

end Linea.FilterNode
