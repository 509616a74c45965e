import Linea.BranchNode
import Linea.OrderedMap
import Linea.Runs
import Linea.TextEdits

/-! The key-value editor of the builder, in typed mode. A row has its text, its value, its kind and its
error side by side; the rows are made of an object and written back to one. -/
namespace Linea.KeyValueEditor
open JsonText JsonText.Tree WorkflowHash BranchNode
open TextEdits (trim)

/-- What the editor uses of the language: `String` of a number, `Number` of a text and of an object
(which may throw), `JSON.parse`, and `JSON.stringify` with and without indentation. Finite numbers and
values that `JSON.parse` gives are read back from their texts. -/
structure Language where
  numberText : UInt64 → Text
  toNumber : Text → UInt64
  objectNumber : Json → Option UInt64
  parse : Text → Option Json
  pretty : Json → Text
  compact : Json → Text
  reads_number : ∀ bits, isFinite bits = true → trim (numberText bits) ≠ [] ∧
    isFinite (toNumber (trim (numberText bits))) = true ∧
      SameNumber (toNumber (trim (numberText bits))) bits
  parse_blank : ∀ t, trim t = [] → parse t = none
  reads_pretty : ∀ v, Parsed v → ∃ w, parse (pretty v) = some w ∧ Same SameAtom w v

inductive ValueKind
  | text
  | number
  | boolean
  | json
  deriving DecidableEq, Repr

/-- A row. The last two fields are its history: the key of the entry that it was opened from, and the
value that was set last. -/
structure Row where
  id : ℕ
  key : Text
  kind : ValueKind
  value : Json
  valueText : Text
  error : Option String
  origin : Option Text
  lastValid : Json

def emptyRow (id : ℕ) : Row := ⟨id,[],.text,.leaf (.string []),[],none,none,.leaf (.string [])⟩

def kindFromValue : Json → ValueKind
  | .leaf (.number _) => .number
  | .leaf (.bool _) => .boolean
  | .leaf (.string _) => .text
  | .leaf .null => .json
  | .arr _ => .json
  | .obj _ => .json

section Conversions
variable (L : Language)

def stringifyLiteral : Json → Text
  | .leaf (.string s) => s
  | .leaf (.number bits) => L.numberText bits
  | .leaf (.bool b) => boolText b
  | .leaf .null => []
  | v => L.compact v

def textFromValue (value : Json) (kind : ValueKind) : Text :=
  match kind with
  | .json => match value with
    | .leaf (.string s) => s
    | v => L.pretty v
  | .boolean => match value with
    | .leaf (.bool b) => boolText b
    | _ => boolText false
  | _ => stringifyLiteral L value

def parseKind (kind : ValueKind) (text : Text) : Except String Json :=
  match kind with
  | .number =>
    if trim text = [] then .ok (.leaf (.string []))
    else if isFinite (L.toNumber (trim text)) then .ok (.leaf (.number (L.toNumber (trim text))))
    else .error "Not a valid number"
  | .boolean => .ok (.leaf (.bool (text = ascii "true")))
  | .json =>
    if trim text = [] then .ok (.obj [])
    else match L.parse text with
      | some v => .ok v
      | none => .error "Invalid JSON"
  | .text => .ok (.leaf (.string text))

/-- `Number(value)`, `none` where it throws. -/
def numberOf : Json → Option UInt64
  | .leaf .null => some 0
  | .leaf (.bool b) => some (if b then 0x3FF0000000000000 else 0)
  | .leaf (.number bits) => some bits
  | .leaf (.string s) => some (L.toNumber s)
  | v => L.objectNumber v

/-- A number that is not finite is replaced by zero. -/
def finiteOrZero (bits : UInt64) : Json := .leaf (.number (if isFinite bits then bits else 0))

def coerceKind (kind : ValueKind) (current : Json) : Option Json :=
  match kind with
  | .text => some (.leaf (.string (stringifyLiteral L current)))
  | .number => (numberOf L current).map finiteOrZero
  | .boolean => match current with
    | .leaf (.bool b) => some (.leaf (.bool b))
    | .leaf (.string s) => some (.leaf (.bool (s = ascii "true")))
    | _ => some (.leaf (.bool false))
  | .json => match current with
    | .arr items => some (.arr items)
    | .obj fields => some (.obj fields)
    | .leaf (.string s) =>
      if trim s = [] then some (.obj []) else some ((L.parse s).getD (.obj []))
    | _ => some (.obj [])

/-- `Object.entries` of an object; other values have none. -/
def entries : Json → List (Text × Json)
  | .obj fields => ownKeys fields
  | _ => []

/-- The row of an entry. -/
def openRow (id : ℕ) (entry : Text × Json) : Row :=
  { id
    key := entry.1
    kind := kindFromValue entry.2
    value := entry.2
    valueText := textFromValue L entry.2 (kindFromValue entry.2)
    error := none
    origin := some entry.1
    lastValid := entry.2 }

def openRows : ℕ → List (Text × Json) → List Row
  | _, [] => []
  | id, entry :: rest => openRow L id entry :: openRows (id + 1) rest

def toRows (nextId : ℕ) (value : Json) : List Row :=
  if entries value = [] then [emptyRow nextId] else openRows L nextId (entries value)

end Conversions

/-- `result[key] = row.value`: under `__proto__` no entry is made. -/
def assignRow (result : OrderedMap Text Json) (row : Row) : OrderedMap Text Json :=
  if trim row.key = [] ∨ trim row.key = protoKey then result else result.set (trim row.key) row.value

def toObject (rows : List Row) : OrderedMap Text Json := rows.foldl assignRow .empty

/-! ### The editor -/

/-- The editor, with the object that the last step has passed to `onChange`, the entries it was last
opened on, and the keys of those of which the row has been edited or removed since. -/
structure Editor where
  rows : List Row
  lastEmitted : Json
  nextId : ℕ
  emitted : Option (OrderedMap Text Json)
  opened : List (Text × Json)
  gone : List Text

inductive Edit
  | key (id : ℕ) (key : Text)
  | text (id : ℕ) (valueText : Text)
  | kind (id : ℕ) (kind : ValueKind)
  | add
  | remove (id : ℕ)
  | outside (value : Json)

section Steps
variable (L : Language)

/-- The rows of a value from outside. -/
def opening (nextId : ℕ) (value : Json) : Editor :=
  { rows := toRows L nextId value
    lastEmitted := value
    nextId := nextId + (toRows L nextId value).length
    emitted := none
    opened := entries value
    gone := [] }

def mount (value : Json) : Editor := opening L 0 value

/-- `commit`, of rows that leave out or change those of an id. -/
def commit (s : Editor) (id : ℕ) (next : List Row) : Editor :=
  { s with
    rows := next
    lastEmitted := .obj (ownKeys (toObject next).entries)
    emitted := some (toObject next)
    gone := s.gone ++ (s.rows.filter fun row => row.id = id).filterMap Row.origin }

def updateRow (s : Editor) (id : ℕ) (patch : Row → Row) : Editor :=
  commit s id (s.rows.map fun row => if row.id = id then patch row else row)

def setKind (s : Editor) (row : Row) (kind : ValueKind) : Editor :=
  match coerceKind L kind row.value with
  | some value => updateRow s row.id fun row =>
      { row with
        kind
        value
        valueText := textFromValue L value kind
        error := none
        lastValid := value }
  | none => { s with emitted := none }

def setValueText (s : Editor) (row : Row) (valueText : Text) : Editor :=
  match parseKind L row.kind valueText with
  | .ok value => updateRow s row.id fun row =>
      { row with valueText, value, error := none, lastValid := value }
  | .error error => updateRow s row.id fun row => { row with valueText, error := some error }

def removeRow (s : Editor) (id : ℕ) : Editor :=
  let next := s.rows.filter fun row => row.id ≠ id
  if next.length > 0 then commit s id next
  else { commit s id [emptyRow s.nextId] with nextId := s.nextId + 1 }

/-- An edit of a row that is there, or a change from outside. -/
def step (s : Editor) : Edit → Option Editor
  | .key id key =>
    (s.rows.find? fun row => row.id = id).map fun row => updateRow s row.id fun row => { row with key }
  | .text id valueText =>
    (s.rows.find? fun row => row.id = id).map fun row => setValueText L s row valueText
  | .kind id kind =>
    (s.rows.find? fun row => row.id = id).map fun row => setKind L s row kind
  | .add => some
      { s with rows := s.rows ++ [emptyRow s.nextId], nextId := s.nextId + 1, emitted := none }
  | .remove id => some (removeRow s id)
  | .outside value =>
    if L.compact value = L.compact s.lastEmitted then some { s with emitted := none }
    else some (opening L s.nextId value)

end Steps

/-! ## What the editor promises -/

/-- A value has the type of a kind; `JSON` has them all. -/
def Agrees : ValueKind → Json → Prop
  | .text,v => ∃ s, v = .leaf (.string s)
  | .number,v => ∃ bits, v = .leaf (.number bits) ∧ isFinite bits = true
  | .boolean,v => ∃ b, v = .leaf (.bool b)
  | .json,_ => True

/-- A row without an error shows a text of its value, and its value is the last valid one. -/
structure RowOk (L : Language) (row : Row) : Prop where
  agrees : row.error = none → Agrees row.kind row.value
  reads : row.error = none → ∃ w, parseKind L row.kind row.valueText = .ok w ∧
    Same SameAtom w row.value
  valid : row.value = row.lastValid

/-- The entries of which the row was neither edited nor removed are kept. -/
def Keeps (s : Editor) (obj : OrderedMap Text Json) : Prop :=
  ∀ p ∈ s.opened, p.1 ∉ s.gone → obj.get? p.1 = some p.2

/-- A row with an error gives its last valid value, under a key that no row below it has too. -/
def Contributes (s : Editor) (obj : OrderedMap Text Json) : Prop :=
  ∀ before row after, s.rows = before ++ row :: after → row.error.isSome = true →
    trim row.key ≠ [] → (∀ other ∈ after, trim other.key ≠ trim row.key) →
      obj.get? (trim row.key) = some row.lastValid

structure Good (L : Language) (s : Editor) : Prop where
  rows : ∀ row ∈ s.rows, RowOk L row
  keeps : ∀ obj, s.emitted = some obj → Keeps s obj
  contributes : ∀ obj, s.emitted = some obj → Contributes s obj

/-- A row of an opened entry that was not edited. -/
def Untouched (s : Editor) (row : Row) : Prop := ∃ k, row.origin = some k ∧ k ∉ s.gone

/-- An object whose keys are as `toObject` leaves them. -/
def Opens (value : Json) : Prop :=
  ∀ fields, value = .obj fields →
    Parsed value ∧ ∀ p ∈ fields, trim p.1 = p.1 ∧ p.1 ≠ [] ∧ p.1 ≠ protoKey

/-- A value that a `JSON` row shows as it is. -/
def Shows (v : Json) : Prop := Parsed v ∧ ∀ s, v ≠ .leaf (.string s)

/-- A value that is shown as it is once it has been coerced to `JSON`. -/
def Coerces (L : Language) : Json → Prop
  | .leaf (.string t) => ∀ v, L.parse t = some v → Shows v
  | .leaf _ => True
  | v => Parsed v

/-- The steps that keep the promises. -/
def Condition (L : Language) (s : Editor) : Edit → Prop
  | .key id key => trim key ≠ protoKey ∧
    s.rows.Pairwise fun row other => other.id = id → Untouched s row → trim key ≠ trim row.key
  | .text id valueText => ∀ row ∈ s.rows, row.id = id → row.kind = .number → trim valueText ≠ []
  | .kind id kind => ∀ row ∈ s.rows, row.id = id → kind = .json → Coerces L row.value
  | .add => True
  | .remove _ => True
  | .outside value => L.compact value = L.compact s.lastEmitted ∨ Opens value

section Rows
variable {L : Language}

lemma same_refl (v : Json) : Same SameAtom v v := Same.refl sameAtom_refl v

/-- What is shown of a number is read back. -/
lemma number_reads {bits : UInt64} (h : isFinite bits = true) :
    ∃ w, parseKind L .number (L.numberText bits) = .ok w ∧
      Same SameAtom w (.leaf (.number bits)) := by
  obtain ⟨hblank,hfinite,hsame⟩ := L.reads_number bits h
  refine ⟨.leaf (.number (L.toNumber (trim (L.numberText bits)))),?_,hsame⟩
  rw [parseKind,if_neg hblank,if_pos hfinite]

lemma boolean_reads (b : Bool) : parseKind L .boolean (boolText b) = .ok (.leaf (.bool b)) := by
  cases b <;> rfl

/-- What is shown of a value that `JSON.parse` gives is read back. -/
lemma json_reads {v : Json} (h : Parsed v) :
    ∃ w, parseKind L .json (L.pretty v) = .ok w ∧ Same SameAtom w v := by
  obtain ⟨w,hparse,hsame⟩ := L.reads_pretty v h
  have hblank : trim (L.pretty v) ≠ [] := by
    intro hblank
    rw [L.parse_blank _ hblank] at hparse
    exact absurd hparse.symm (Option.some_ne_none w)
  refine ⟨w,?_,hsame⟩
  rw [parseKind,if_neg hblank,hparse]

lemma emptyRow_ok (id : ℕ) : RowOk L (emptyRow id) :=
  ⟨fun _ => ⟨[],rfl⟩,fun _ => ⟨_,rfl,same_refl _⟩,rfl⟩

/-- The row of an entry shows its value. -/
lemma openRow_ok (id : ℕ) {entry : Text × Json} (h : Parsed entry.2) : RowOk L (openRow L id entry) := by
  obtain ⟨k,v⟩ := entry
  refine ⟨fun _ => ?_,fun _ => ?_,rfl⟩
  · cases h with
    | @leaf a ha =>
      cases a with
      | null => trivial
      | bool b => exact ⟨b,rfl⟩
      | number bits => exact ⟨bits,rfl,ha⟩
      | string s => exact ⟨s,rfl⟩
    | arr | obj => trivial
  · cases hv : v with
    | leaf a =>
      rw [hv] at h
      cases a with
      | null => exact json_reads h
      | bool b => exact ⟨_,boolean_reads b,same_refl _⟩
      | number bits =>
        cases h with
        | leaf hfinite => exact number_reads hfinite
      | string s => exact ⟨_,rfl,same_refl _⟩
    | arr items => exact json_reads (hv ▸ h)
    | obj fields => exact json_reads (hv ▸ h)

/-- A value that has been parsed agrees with the kind, unless the text of a number is blank. -/
lemma parsed_agrees {kind : ValueKind} {text : Text} {v : Json} (h : parseKind L kind text = .ok v)
    (hblank : kind = .number → trim text ≠ []) : Agrees kind v := by
  cases kind with
  | text => exact ⟨text,(Except.ok.inj h).symm⟩
  | number =>
    rw [parseKind,if_neg (hblank rfl)] at h
    split at h
    · next hfinite => exact ⟨_,(Except.ok.inj h).symm,hfinite⟩
    · cases h
  | boolean => exact ⟨_,(Except.ok.inj h).symm⟩
  | json => trivial

lemma shows_arr {items : List Json} (h : Parsed (.arr items)) : Shows (.arr items) := by
  refine ⟨h,fun s hs => ?_⟩
  cases hs

lemma shows_obj {fields : List (Text × Json)} (h : Parsed (.obj fields)) : Shows (.obj fields) := by
  refine ⟨h,fun s hs => ?_⟩
  cases hs

/-- A value that has been coerced is shown and agrees with the kind. -/
lemma coerced_ok {kind : ValueKind} {current v : Json} (h : coerceKind L kind current = some v)
    (hjson : kind = .json → Coerces L current) :
    Agrees kind v ∧ ∃ w, parseKind L kind (textFromValue L v kind) = .ok w ∧ Same SameAtom w v := by
  have hshows : ∀ {w}, Shows w → kind = .json → v = w →
      ∃ u, parseKind L kind (textFromValue L v kind) = .ok u ∧ Same SameAtom u v := by
    rintro w ⟨hparsed,hstring⟩ rfl rfl
    have htext : textFromValue L v .json = L.pretty v := by
      rw [textFromValue]
      exact hstring
    rw [htext]
    exact json_reads hparsed
  have hempty : Shows (.obj []) :=
    shows_obj (.obj List.nodup_nil fun _ hp => absurd hp List.not_mem_nil)
  cases kind with
  | text =>
    obtain rfl := Option.some.inj h
    exact ⟨⟨_,rfl⟩,_,rfl,same_refl _⟩
  | number =>
    obtain ⟨bits,-,rfl⟩ := Option.map_eq_some_iff.mp h
    have hfinite : isFinite (if isFinite bits then bits else 0) = true := by
      split
      · assumption
      · rfl
    exact ⟨⟨_,rfl,hfinite⟩,number_reads hfinite⟩
  | boolean =>
    have hbool : ∃ b, v = .leaf (.bool b) := by
      unfold coerceKind at h
      dsimp only at h
      split at h
      · exact ⟨_,(Option.some.inj h).symm⟩
      · exact ⟨_,(Option.some.inj h).symm⟩
      · exact ⟨_,(Option.some.inj h).symm⟩
    obtain ⟨b,rfl⟩ := hbool
    exact ⟨⟨b,rfl⟩,_,boolean_reads b,same_refl _⟩
  | json =>
    refine ⟨trivial,?_⟩
    have hcurrent := hjson rfl
    cases current with
    | arr items =>
      exact hshows (shows_arr hcurrent) rfl (Option.some.inj h).symm
    | obj fields =>
      exact hshows (shows_obj hcurrent) rfl (Option.some.inj h).symm
    | leaf a =>
      cases a with
      | string t =>
        rw [coerceKind] at h
        split at h
        · exact hshows hempty rfl (Option.some.inj h).symm
        · cases hparse : L.parse t with
          | none =>
            rw [hparse] at h
            exact hshows hempty rfl (Option.some.inj h).symm
          | some w =>
            rw [hparse] at h
            exact hshows (hcurrent w hparse) rfl (Option.some.inj h).symm
      | null | bool | number => exact hshows hempty rfl (Option.some.inj h).symm

end Rows

/-! ## Writing back -/

lemma assignRow_get (result : OrderedMap Text Json) (row : Row) {key : Text}
    (hkey : trim row.key ≠ key) : (assignRow result row).get? key = result.get? key := by
  unfold assignRow
  split
  · rfl
  · exact result.get?_set_of_ne hkey.symm row.value

lemma foldl_assignRow_get (rows : List Row) (result : OrderedMap Text Json) {key : Text}
    (hkey : ∀ row ∈ rows, trim row.key ≠ key) : (rows.foldl assignRow result).get? key =
      result.get? key := by
  induction rows generalizing result with
  | nil => rfl
  | cons row rest ih =>
    rw [List.foldl_cons,ih _ fun other hother => hkey other (List.mem_cons_of_mem row hother),
      assignRow_get result row (hkey row List.mem_cons_self)]

/-- The last row of a key gives its value. -/
lemma toObject_get {before after : List Row} {row : Row} (hnamed : trim row.key ≠ [])
    (hproto : trim row.key ≠ protoKey) (hafter : ∀ other ∈ after, trim other.key ≠ trim row.key) :
    (toObject (before ++ row :: after)).get? (trim row.key) = some row.value := by
  rw [toObject,List.foldl_append,List.foldl_cons,foldl_assignRow_get after _ hafter,assignRow,
    if_neg (not_or.mpr ⟨hnamed,hproto⟩)]
  exact OrderedMap.get?_set_self _ _ _

lemma blank_not_proto : trim [] ≠ protoKey := by decide

/-! ## Steps -/

/-- What the steps keep. The rows of opened entries that are untouched have their keys, and no row below
one of them has its key. -/
structure Inv (L : Language) (s : Editor) : Prop where
  ids : (s.rows.map Row.id).Nodup
  fresh : ∀ row ∈ s.rows, row.id < s.nextId
  rows : ∀ row ∈ s.rows, RowOk L row
  named : ∀ row ∈ s.rows, trim row.key ≠ protoKey
  standing : ∀ row ∈ s.rows, ∀ k, row.origin = some k → k ∉ s.gone → trim row.key = k ∧ k ≠ []
  present : ∀ p ∈ s.opened, p.1 ∉ s.gone → ∃ row ∈ s.rows, row.origin = some p.1 ∧ row.value = p.2
  apart : s.rows.Pairwise fun row other => Untouched s row → trim other.key ≠ trim row.key
  emitted : ∀ obj, s.emitted = some obj → obj = toObject s.rows

section Steps
variable {L : Language} {s : Editor}

lemma Inv.good (h : Inv L s) : Good L s := by
  refine ⟨h.rows,fun obj hobj p hp hgone => ?_,fun obj hobj before row after hrows _ hnamed hafter => ?_⟩
  · obtain ⟨row,hrow,horigin,hvalue⟩ := h.present p hp hgone
    obtain ⟨hkey,hnamed⟩ := h.standing row hrow p.1 horigin hgone
    obtain ⟨before,after,hrows⟩ := List.append_of_mem hrow
    have hapart := h.apart
    rw [hrows,List.pairwise_append,List.pairwise_cons] at hapart
    have hafter : ∀ other ∈ after, trim other.key ≠ trim row.key :=
      fun other hother => hapart.2.1.1 other hother ⟨p.1,horigin,hgone⟩
    rw [h.emitted obj hobj,hrows,← hkey,← hvalue]
    exact toObject_get (hkey ▸ hnamed) (h.named row hrow) hafter
  · have hrow : row ∈ s.rows := hrows ▸ List.mem_append_right before List.mem_cons_self
    rw [h.emitted obj hobj,hrows,toObject_get hnamed (h.named row hrow) hafter,(h.rows row hrow).valid]

/-- What leaves the rows as they are. -/
lemma Inv.quiet (h : Inv L s) : Inv L { s with emitted := none } :=
  ⟨h.ids,h.fresh,h.rows,h.named,h.standing,h.present,h.apart,fun _ hobj =>
    absurd hobj.symm (Option.some_ne_none _)⟩

/-- A row that is untouched after an edit is none of those that were edited, and was untouched. -/
lemma untouched_of_commit {id : ℕ} (next : List Row) {row : Row} (hrow : row ∈ s.rows)
    (h : Untouched (commit s id next) row) : row.id ≠ id ∧ Untouched s row := by
  obtain ⟨k,horigin,hgone⟩ := h
  have hparts := fun hmem => hgone (List.mem_append.mpr hmem)
  refine ⟨fun hid => hparts (.inr ?_),k,horigin,fun hmem => hparts (.inl hmem)⟩
  exact List.mem_filterMap.mpr ⟨row,List.mem_filter.mpr ⟨hrow,decide_eq_true hid⟩,horigin⟩

/-- The edit of a row. -/
lemma Inv.updateRow (h : Inv L s) (id : ℕ) {patch : Row → Row}
    (hpatch : ∀ row, (patch row).id = row.id ∧ (patch row).origin = row.origin)
    (hok : ∀ row ∈ s.rows, row.id = id → RowOk L (patch row) ∧ trim (patch row).key ≠ protoKey)
    (hkey : s.rows.Pairwise fun row other => other.id = id → Untouched s row →
      trim (patch other).key ≠ trim row.key) : Inv L (updateRow s id patch) := by
  have hid : ∀ row, (if row.id = id then patch row else row).id = row.id := by
    intro row
    split
    · exact (hpatch row).1
    · rfl
  have hmem : ∀ row' ∈ (KeyValueEditor.updateRow s id patch).rows, ∃ row ∈ s.rows,
      (if row.id = id then patch row else row) = row' := fun row' hrow' => List.mem_map.mp hrow'
  -- A row that is untouched after the edit has not been patched.
  have hkept : ∀ row ∈ s.rows,
      Untouched (KeyValueEditor.updateRow s id patch) (if row.id = id then patch row else row) →
        row.id ≠ id ∧ Untouched s row := by
    intro row hrow huntouched
    refine untouched_of_commit (s.rows.map patch) hrow ?_
    obtain ⟨k,horigin,hgone⟩ := huntouched
    refine ⟨k,?_,hgone⟩
    split at horigin
    · rw [← (hpatch row).2]
      exact horigin
    · exact horigin
  refine ⟨?_,fun row' hrow' => ?_,fun row' hrow' => ?_,fun row' hrow' => ?_,
    fun row' hrow' k horigin hgone => ?_,fun p hp hgone => ?_,?_,fun obj hobj => ?_⟩
  · have hids : (KeyValueEditor.updateRow s id patch).rows.map Row.id = s.rows.map Row.id := by
      change (s.rows.map fun row => if row.id = id then patch row else row).map Row.id = _
      rw [List.map_map]
      exact List.map_congr_left fun row _ => hid row
    rw [hids]
    exact h.ids
  · obtain ⟨row,hrow,rfl⟩ := hmem row' hrow'
    rw [hid row]
    exact h.fresh row hrow
  · obtain ⟨row,hrow,rfl⟩ := hmem row' hrow'
    split
    · next heq => exact (hok row hrow heq).1
    · exact h.rows row hrow
  · obtain ⟨row,hrow,rfl⟩ := hmem row' hrow'
    split
    · next heq => exact (hok row hrow heq).2
    · exact h.named row hrow
  · obtain ⟨row,hrow,rfl⟩ := hmem row' hrow'
    obtain ⟨hne,hbefore⟩ := hkept row hrow ⟨k,horigin,hgone⟩
    rw [if_neg hne] at horigin ⊢
    exact h.standing row hrow k horigin fun hmem => hgone (List.mem_append_left _ hmem)
  · have hbefore : p.1 ∉ s.gone := fun hmem => hgone (List.mem_append_left _ hmem)
    obtain ⟨row,hrow,horigin,hvalue⟩ := h.present p hp hbefore
    obtain ⟨hne,-⟩ := untouched_of_commit (s.rows.map patch) hrow ⟨p.1,horigin,hgone⟩
    refine ⟨row,List.mem_map.mpr ⟨row,hrow,if_neg hne⟩,horigin,hvalue⟩
  · refine List.pairwise_map.mpr ((h.apart.and hkey).imp_of_mem fun {row other} hrow _ hboth huntouched => ?_)
    obtain ⟨hne,hbefore⟩ := hkept row hrow huntouched
    rw [if_neg hne]
    split
    · next heq => exact hboth.2 heq hbefore
    · exact hboth.1 hbefore
  · exact (Option.some.inj hobj).symm

/-- An edit that leaves the key of the row. -/
lemma Inv.updateValue (h : Inv L s) {row : Row} (hrow : row ∈ s.rows) {patch : Row → Row}
    (hpatch : ∀ row, (patch row).id = row.id ∧ (patch row).origin = row.origin ∧
      (patch row).key = row.key) (hok : RowOk L (patch row)) :
    Inv L (KeyValueEditor.updateRow s row.id patch) := by
  refine h.updateRow row.id (fun row => ⟨(hpatch row).1,(hpatch row).2.1⟩) (fun other hother hid => ?_) ?_
  · obtain rfl := List.inj_on_of_nodup_map h.ids hother hrow hid
    rw [(hpatch other).2.2]
    exact ⟨hok,h.named other hother⟩
  · refine h.apart.imp fun {first other} hapart _ huntouched => ?_
    rw [(hpatch other).2.2]
    exact hapart huntouched

lemma Inv.setValueText (h : Inv L s) {row : Row} (hrow : row ∈ s.rows) {valueText : Text}
    (hblank : row.kind = .number → trim valueText ≠ []) :
    Inv L (KeyValueEditor.setValueText L s row valueText) := by
  unfold KeyValueEditor.setValueText
  cases hparse : parseKind L row.kind valueText with
  | ok value =>
    refine h.updateValue hrow (fun _ => ⟨rfl,rfl,rfl⟩) ⟨fun _ => ?_,fun _ => ?_,rfl⟩
    · exact parsed_agrees hparse hblank
    · exact ⟨value,hparse,same_refl value⟩
  | error error =>
    refine h.updateValue hrow (fun _ => ⟨rfl,rfl,rfl⟩) ⟨fun hnone => ?_,fun hnone => ?_,?_⟩
    · exact absurd hnone (Option.some_ne_none error)
    · exact absurd hnone (Option.some_ne_none error)
    · exact (h.rows row hrow).valid

lemma Inv.setKind (h : Inv L s) {row : Row} (hrow : row ∈ s.rows) {kind : ValueKind}
    (hjson : kind = .json → Coerces L row.value) : Inv L (KeyValueEditor.setKind L s row kind) := by
  unfold KeyValueEditor.setKind
  cases hcoerce : coerceKind L kind row.value with
  | none => exact h.quiet
  | some value =>
    obtain ⟨hagrees,hreads⟩ := coerced_ok hcoerce hjson
    exact h.updateValue hrow (fun _ => ⟨rfl,rfl,rfl⟩) ⟨fun _ => hagrees,fun _ => hreads,rfl⟩

lemma Inv.setKey (h : Inv L s) {id : ℕ} {key : Text} (hok : Condition L s (.key id key)) :
    Inv L (KeyValueEditor.updateRow s id fun row => { row with key }) := by
  refine h.updateRow id (fun _ => ⟨rfl,rfl⟩) (fun row hrow _ => ⟨?_,hok.1⟩) hok.2
  exact ⟨(h.rows row hrow).agrees,(h.rows row hrow).reads,(h.rows row hrow).valid⟩

lemma Inv.addRow (h : Inv L s) : Inv L
    { s with rows := s.rows ++ [emptyRow s.nextId], nextId := s.nextId + 1, emitted := none } := by
  have hmem : ∀ {row}, row ∈ s.rows ++ [emptyRow s.nextId] → row ∈ s.rows ∨ row = emptyRow s.nextId :=
    fun hrow => (List.mem_append.mp hrow).imp_right List.mem_singleton.mp
  refine ⟨?_,fun row hrow => ?_,fun row hrow => ?_,fun row hrow => ?_,fun row hrow k horigin hgone => ?_,
    fun p hp hgone => ?_,?_,fun _ hobj => absurd hobj.symm (Option.some_ne_none _)⟩
  · rw [List.map_append]
    refine List.nodup_append.mpr ⟨h.ids,List.nodup_singleton _,fun id hid other hother heq => ?_⟩
    obtain ⟨row,hrow,rfl⟩ := List.mem_map.mp hid
    rw [heq,List.mem_singleton.mp hother] at hid
    have hlt := h.fresh row hrow
    rw [heq,List.mem_singleton.mp hother] at hlt
    exact Nat.lt_irrefl _ hlt
  · rcases hmem hrow with hrow | rfl
    · exact Nat.lt_succ_of_lt (h.fresh row hrow)
    · exact Nat.lt_succ_self _
  · rcases hmem hrow with hrow | rfl
    · exact h.rows row hrow
    · exact emptyRow_ok s.nextId
  · rcases hmem hrow with hrow | rfl
    · exact h.named row hrow
    · exact blank_not_proto
  · rcases hmem hrow with hrow | rfl
    · exact h.standing row hrow k horigin hgone
    · exact absurd horigin.symm (Option.some_ne_none k)
  · obtain ⟨row,hrow,hrest⟩ := h.present p hp hgone
    exact ⟨row,List.mem_append_left _ hrow,hrest⟩
  · refine List.pairwise_append.mpr ⟨h.apart,List.pairwise_singleton _ _,fun row hrow other hother => ?_⟩
    rintro ⟨k,horigin,hgone⟩ hkey
    obtain ⟨hstands,hnamed⟩ := h.standing row hrow k horigin hgone
    rw [List.mem_singleton.mp hother,hstands] at hkey
    exact hnamed hkey.symm

lemma Inv.removeRow (h : Inv L s) (id : ℕ) : Inv L (KeyValueEditor.removeRow s id) := by
  -- An entry that is left has its row among those that stay.
  have hpresent : ∀ next p, p ∈ s.opened → p.1 ∉ (commit s id next).gone →
      ∃ row ∈ s.rows.filter (fun row => row.id ≠ id), row.origin = some p.1 ∧ row.value = p.2 := by
    intro next p hp hgone
    obtain ⟨row,hrow,horigin,hvalue⟩ :=
      h.present p hp fun hmem => hgone (List.mem_append_left _ hmem)
    obtain ⟨hne,-⟩ := untouched_of_commit next hrow ⟨p.1,horigin,hgone⟩
    exact ⟨row,List.mem_filter.mpr ⟨hrow,decide_eq_true hne⟩,horigin,hvalue⟩
  unfold KeyValueEditor.removeRow
  dsimp only
  split
  · refine ⟨?_,fun row hrow => ?_,fun row hrow => ?_,fun row hrow => ?_,
      fun row hrow k horigin hgone => ?_,hpresent _,?_,fun obj hobj => (Option.some.inj hobj).symm⟩
    · exact h.ids.sublist (List.filter_sublist.map Row.id)
    · exact h.fresh row (List.mem_of_mem_filter hrow)
    · exact h.rows row (List.mem_of_mem_filter hrow)
    · exact h.named row (List.mem_of_mem_filter hrow)
    · exact h.standing row (List.mem_of_mem_filter hrow) k horigin
        fun hmem => hgone (List.mem_append_left _ hmem)
    · refine (h.apart.sublist List.filter_sublist).imp_of_mem fun {row other} hrow _ hapart huntouched => ?_
      exact hapart (untouched_of_commit _ (List.mem_of_mem_filter hrow) huntouched).2
  · next hnone =>
    have hempty : s.rows.filter (fun row => row.id ≠ id) = [] :=
      List.length_eq_zero_iff.mp (by omega)
    have hmem : ∀ {row}, row ∈ [emptyRow s.nextId] → row = emptyRow s.nextId := List.mem_singleton.mp
    refine ⟨List.nodup_singleton _,fun row hrow => ?_,fun row hrow => ?_,fun row hrow => ?_,
      fun row hrow k horigin _ => ?_,fun p hp hgone => ?_,List.pairwise_singleton _ _,
      fun obj hobj => (Option.some.inj hobj).symm⟩
    · rw [hmem hrow]
      exact Nat.lt_succ_self _
    · rw [hmem hrow]
      exact emptyRow_ok s.nextId
    · rw [hmem hrow]
      exact blank_not_proto
    · rw [hmem hrow] at horigin
      exact absurd horigin.symm (Option.some_ne_none k)
    · obtain ⟨row,hrow,-⟩ := hpresent [emptyRow s.nextId] p hp hgone
      rw [hempty] at hrow
      exact absurd hrow List.not_mem_nil

end Steps

/-! ## Opening -/

section Opening
variable {L : Language}

lemma openRows_ids (id : ℕ) (opened : List (Text × Json)) :
    (openRows L id opened).map Row.id = List.range' id opened.length := by
  induction opened generalizing id with
  | nil => rfl
  | cons entry rest ih =>
    rw [openRows,List.map_cons,ih,List.length_cons,List.range'_succ]
    rfl

lemma mem_openRows {id : ℕ} {opened : List (Text × Json)} {row : Row} (h : row ∈ openRows L id opened) :
    ∃ i, ∃ entry ∈ opened, row = openRow L i entry := by
  induction opened generalizing id with
  | nil => exact absurd h List.not_mem_nil
  | cons entry rest ih =>
    rcases List.mem_cons.mp h with rfl | h
    · exact ⟨id,entry,List.mem_cons_self,rfl⟩
    · obtain ⟨i,other,hother,hrow⟩ := ih h
      exact ⟨i,other,List.mem_cons_of_mem entry hother,hrow⟩

lemma openRows_present (id : ℕ) {opened : List (Text × Json)} {p : Text × Json} (h : p ∈ opened) :
    ∃ row ∈ openRows L id opened, row.origin = some p.1 ∧ row.value = p.2 := by
  induction opened generalizing id with
  | nil => exact absurd h List.not_mem_nil
  | cons entry rest ih =>
    rcases List.mem_cons.mp h with rfl | h
    · exact ⟨_,List.mem_cons_self,rfl,rfl⟩
    · obtain ⟨row,hrow,hrest⟩ := ih (id + 1) h
      exact ⟨row,List.mem_cons_of_mem _ hrow,hrest⟩

/-- The keys of the rows are those of the entries. -/
lemma openRows_apart {id : ℕ} {opened : List (Text × Json)} (hkeys : (opened.map Prod.fst).Nodup)
    (htrim : ∀ p ∈ opened, trim p.1 = p.1) :
    (openRows L id opened).Pairwise fun row other => trim other.key ≠ trim row.key := by
  induction opened generalizing id with
  | nil => exact List.Pairwise.nil
  | cons entry rest ih =>
    rw [List.map_cons,List.nodup_cons] at hkeys
    refine List.pairwise_cons.mpr ⟨fun row hrow hkey => hkeys.1 ?_,
      ih hkeys.2 fun p hp => htrim p (List.mem_cons_of_mem entry hp)⟩
    obtain ⟨i,other,hother,rfl⟩ := mem_openRows hrow
    change trim other.1 = trim entry.1 at hkey
    rw [htrim other (List.mem_cons_of_mem entry hother),htrim entry List.mem_cons_self] at hkey
    exact hkey ▸ List.mem_map_of_mem hother

/-- What is known of the entries of a value that opens. -/
lemma entries_ok {value : Json} (h : Opens value) : ((entries value).map Prod.fst).Nodup ∧
    ∀ p ∈ entries value, Parsed p.2 ∧ trim p.1 = p.1 ∧ p.1 ≠ [] ∧ p.1 ≠ protoKey := by
  cases value with
  | leaf | arr => exact ⟨List.nodup_nil,fun _ hp => absurd hp List.not_mem_nil⟩
  | obj fields =>
    obtain ⟨hparsed,hkeys⟩ := h fields rfl
    cases hparsed with
    | obj hnodup hvalues =>
      have hperm : (entries (.obj fields)).Perm fields := ownKeys_perm fields
      refine ⟨(hperm.map Prod.fst).nodup_iff.mpr hnodup,fun p hp => ?_⟩
      have hmem := hperm.mem_iff.mp hp
      exact ⟨hvalues p hmem,hkeys p hmem⟩

lemma opening_inv (nextId : ℕ) {value : Json} (h : Opens value) : Inv L (opening L nextId value) := by
  obtain ⟨hkeys,hentries⟩ := entries_ok h
  have hnone : ∀ obj, (opening L nextId value).emitted = some obj →
      obj = toObject (opening L nextId value).rows :=
    fun _ hobj => absurd hobj.symm (Option.some_ne_none _)
  by_cases hempty : entries value = []
  · have hrows : (opening L nextId value).rows = [emptyRow nextId] := if_pos hempty
    have hopened : (opening L nextId value).opened = [] := hempty
    have hnext : (opening L nextId value).nextId = nextId + 1 :=
      congrArg (fun rows => nextId + List.length rows) hrows
    refine ⟨?_,?_,?_,?_,?_,?_,?_,hnone⟩
    · rw [hrows]
      exact List.nodup_singleton _
    · rw [hrows,hnext]
      exact fun row hrow => List.mem_singleton.mp hrow ▸ Nat.lt_succ_self nextId
    · rw [hrows]
      exact fun row hrow => List.mem_singleton.mp hrow ▸ emptyRow_ok nextId
    · rw [hrows]
      exact fun row hrow => List.mem_singleton.mp hrow ▸ blank_not_proto
    · rw [hrows]
      intro row hrow k horigin
      rw [List.mem_singleton.mp hrow] at horigin
      exact absurd horigin.symm (Option.some_ne_none k)
    · rw [hopened]
      exact fun p hp => absurd hp List.not_mem_nil
    · rw [hrows]
      exact List.pairwise_singleton _ _
  · have hrows : (opening L nextId value).rows = openRows L nextId (entries value) := if_neg hempty
    have hids : (opening L nextId value).rows.map Row.id =
        List.range' nextId (entries value).length := by rw [hrows,openRows_ids]
    have hmem : ∀ row ∈ (opening L nextId value).rows,
        ∃ i, ∃ entry ∈ entries value, row = openRow L i entry := by
      rw [hrows]
      exact fun row hrow => mem_openRows hrow
    refine ⟨?_,fun row hrow => ?_,fun row hrow => ?_,fun row hrow => ?_,
      fun row hrow k horigin _ => ?_,fun p hp _ => ?_,?_,hnone⟩
    · rw [hids]
      exact List.nodup_range'
    · have hid := List.mem_map_of_mem (f := Row.id) hrow
      rw [hids,List.mem_range'_1] at hid
      have hlength := congrArg List.length hids
      rw [List.length_map,List.length_range'] at hlength
      change row.id < nextId + (opening L nextId value).rows.length
      omega
    · obtain ⟨i,entry,hentry,rfl⟩ := hmem row hrow
      exact openRow_ok i (hentries entry hentry).1
    · obtain ⟨i,entry,hentry,rfl⟩ := hmem row hrow
      obtain ⟨-,htrim,-,hproto⟩ := hentries entry hentry
      change trim entry.1 ≠ protoKey
      rw [htrim]
      exact hproto
    · obtain ⟨i,entry,hentry,rfl⟩ := hmem row hrow
      obtain ⟨-,htrim,hnamed,-⟩ := hentries entry hentry
      obtain rfl : entry.1 = k := Option.some.inj horigin
      exact ⟨htrim,hnamed⟩
    · rw [hrows]
      exact openRows_present nextId hp
    · rw [hrows]
      refine List.Pairwise.imp ?_ (openRows_apart hkeys fun p hp => (hentries p hp).2.1)
      exact fun hne _ => hne

lemma found_id {rows : List Row} {id : ℕ} {row : Row}
    (h : rows.find? (fun row => row.id = id) = some row) : row.id = id := by
  have hfound := List.find?_some h
  exact of_decide_eq_true hfound

/-- What a step keeps. -/
lemma Inv.step {s s' : Editor} {edit : Edit} (h : Inv L s) (hok : Condition L s edit)
    (hstep : step L s edit = some s') : Inv L s' := by
  cases edit with
  | key id key =>
    obtain ⟨row,hfind,rfl⟩ := Option.map_eq_some_iff.mp hstep
    rw [found_id hfind]
    exact h.setKey hok
  | text id valueText =>
    obtain ⟨row,hfind,rfl⟩ := Option.map_eq_some_iff.mp hstep
    have hrow := List.mem_of_find?_eq_some hfind
    exact h.setValueText hrow (hok row hrow (found_id hfind))
  | kind id kind =>
    obtain ⟨row,hfind,rfl⟩ := Option.map_eq_some_iff.mp hstep
    have hrow := List.mem_of_find?_eq_some hfind
    exact h.setKind hrow (hok row hrow (found_id hfind))
  | add =>
    obtain rfl := Option.some.inj hstep
    exact h.addRow
  | remove id =>
    obtain rfl := Option.some.inj hstep
    exact h.removeRow id
  | outside value =>
    rw [KeyValueEditor.step] at hstep
    split at hstep
    · obtain rfl := Option.some.inj hstep
      exact h.quiet
    · next hother =>
      obtain rfl := Option.some.inj hstep
      exact opening_inv s.nextId (hok.resolve_left hother)

/-- In every run whose steps meet the condition the editor keeps its promises, from an object whose keys
are trimmed, not empty and not `__proto__`. -/
theorem editor_faithful {value : Json} {edits : List Edit} {s : Editor} (hvalue : Opens value)
    (hrun : Run (step L) (Condition L) (mount L value) edits s) : Good L s :=
  (hrun.invariant (fun h hok hstep => h.step hok hstep) (opening_inv 0 hvalue)).good

end Opening

/-! ## A language -/

section Sample
open Classical

lemma trim_ne_nil {s : Text} {u : UInt16} (hmem : u ∈ s) (hu : TextEdits.isWhiteSpace u = false) :
    trim s ≠ [] := by
  intro h
  have hstart : ∀ v ∈ TextEdits.trimStart s, TextEdits.isWhiteSpace v = true := by
    rw [trim,TextEdits.trimEnd,List.reverse_eq_nil_iff,List.dropWhile_eq_nil_iff] at h
    exact fun v hv => h v (List.mem_reverse.mpr hv)
  have hall : ∀ v ∈ s, TextEdits.isWhiteSpace v = true := by
    rw [← List.takeWhile_append_dropWhile (p := TextEdits.isWhiteSpace) (l := s)]
    intro v hv
    rcases List.mem_append.mp hv with hv | hv
    · exact List.mem_takeWhile_imp hv
    · exact hstart v hv
  rw [hall u hmem] at hu
  exact Bool.noConfusion hu

lemma numberChar_not_white {c : UInt16} (h : numberChar c = true) : TextEdits.isWhiteSpace c = false := by
  have hbounds : 33 ≤ c.toNat ∧ c.toNat ≤ 101 := by
    simp only [numberChar,Bool.or_eq_true,Bool.and_eq_true,decide_eq_true_eq,
      UInt16.le_iff_toNat_le] at h
    rcases h with (((⟨h,h'⟩ | rfl) | rfl) | rfl) | rfl
    · have hlow : 48 ≤ c.toNat := h
      have hhigh : c.toNat ≤ 57 := h'
      omega
    · decide
    · decide
    · decide
    · decide
  simp only [TextEdits.isWhiteSpace,Bool.or_eq_false_iff,Bool.and_eq_false_iff,decide_eq_false_iff_not,
    beq_eq_false_iff_ne,UInt16.le_iff_toNat_le,ne_eq,← UInt16.toNat_inj]
  simp
  omega

/-- The text of a value, its keys sorted. -/
def samplePretty (v : Json) : Text := print (normal sortFields samplePrinter.atomText v)

lemma atomText_not_blank {a : Atom} (h : a.isFinite = true) : trim (samplePrinter.atomText a) ≠ [] := by
  cases a with
  | null => decide
  | bool b => cases b <;> decide
  | number bits =>
    change isFinite bits = true at h
    obtain ⟨hne,hchars⟩ := samplePrinter.printed bits h
    obtain ⟨c,rest,htext⟩ := List.exists_cons_of_ne_nil hne
    rw [NumberPrinter.atomText,if_pos h]
    have hmem : c ∈ samplePrinter.text bits := htext ▸ List.mem_cons_self
    exact trim_ne_nil hmem (numberChar_not_white (hchars c hmem))
  | string s => exact trim_ne_nil (u := 34) List.mem_cons_self rfl

lemma samplePretty_not_blank {v : Json} (h : Parsed v) : trim (samplePretty v) ≠ [] := by
  cases h with
  | leaf hfinite => exact atomText_not_blank hfinite
  | arr => exact trim_ne_nil (u := 91) List.mem_cons_self rfl
  | obj => exact trim_ne_nil (u := 123) List.mem_cons_self rfl

lemma parsed_distinct {v : Json} (h : Parsed v) : KeysDistinct v := by
  induction h with
  | leaf => exact .leaf _
  | arr _ ih => exact .arr ih
  | obj hkeys _ ih => exact .obj hkeys ih

lemma parsed_finite {v : Json} (h : Parsed v) :
    ¬ Contains (fun a => ¬ Atom.isFinite a = true) (fun _ => False) v := by
  induction h with
  | leaf hfinite =>
    intro hc
    cases hc with
    | leaf hnot => exact hnot hfinite
  | arr _ ih =>
    intro hc
    cases hc with
    | item hmem hc => exact ih _ hmem hc
  | obj _ _ ih =>
    intro hc
    cases hc with
    | key _ hfalse => exact hfalse
    | field hmem hc => exact ih _ hmem hc

/-- Values with the same text are the same up to the order of keys. -/
lemma samplePretty_inj {v w : Json} (hv : Parsed v) (hw : Parsed w)
    (h : samplePretty v = samplePretty w) : Same SameAtom v w := by
  have hleaves (v : Json) :
      ¬ Contains (¬ AtomText ·) (fun _ => False) (normal sortFields samplePrinter.atomText v) := fun hc =>
    not_contains (fun a h => h (samplePrinter.isText a)) (fun _ h => h)
      (contains_of_normal sortFields_arranges.mem hc)
  have hstop : Stops [] := by
    intro c hc
    cases hc
  have hnormal := (print_append_inj atomText_leaf (hleaves v) (hleaves w) hstop hstop
    (congrArg (· ++ []) h)).1
  rw [normal_eq_iff sortFields_arranges (parsed_distinct hv) (parsed_distinct hw)] at hnormal
  exact (same_congr (P := fun a => a.isFinite = true) samplePrinter.atomText_eq_iff (parsed_finite hv)
    (parsed_finite hw)).mp hnormal

lemma trim_number {bits : UInt64} (h : isFinite bits = true) :
    trim (samplePrinter.text bits) = samplePrinter.text bits := by
  obtain ⟨-,hchars⟩ := samplePrinter.printed bits h
  have hwhite : ∀ c ∈ samplePrinter.text bits, ¬ TextEdits.isWhiteSpace c = true := by
    intro c hc
    rw [numberChar_not_white (hchars c hc)]
    exact Bool.noConfusion
  have hkept : ∀ s : Text, (∀ c ∈ s, ¬ TextEdits.isWhiteSpace c = true) →
      s.dropWhile TextEdits.isWhiteSpace = s := by
    intro s hs
    cases s with
    | nil => rfl
    | cons c rest => exact List.dropWhile_cons_of_neg (hs c List.mem_cons_self)
  rw [trim,TextEdits.trimStart,hkept _ hwhite,TextEdits.trimEnd,
    hkept _ fun c hc => hwhite c (List.mem_reverse.mp hc),List.reverse_reverse]

/-- Texts are read as what they are the texts of. -/
noncomputable def sampleLanguage : Language where
  numberText := samplePrinter.text
  toNumber t := if h : ∃ bits, isFinite bits = true ∧ samplePrinter.text bits = t then choose h
    else 0x7FF8000000000000
  objectNumber _ := some 0x7FF8000000000000
  parse t := if h : ∃ v, Parsed v ∧ trim t ≠ [] ∧ samplePretty v = t then some (choose h) else none
  pretty := samplePretty
  compact := stringify samplePrinter
  reads_number bits hfinite := by
    rw [trim_number hfinite]
    have h : ∃ other, isFinite other = true ∧ samplePrinter.text other = samplePrinter.text bits :=
      ⟨bits,hfinite,rfl⟩
    obtain ⟨hother,htext⟩ := choose_spec h
    rw [dif_pos h]
    exact ⟨(samplePrinter.printed bits hfinite).1,hother,
      (samplePrinter.text_eq_iff _ _ hother hfinite).mp htext⟩
  parse_blank t ht := dif_neg fun ⟨_,_,hblank,_⟩ => hblank ht
  reads_pretty v hv := by
    have h : ∃ w, Parsed w ∧ trim (samplePretty v) ≠ [] ∧ samplePretty w = samplePretty v :=
      ⟨v,hv,samplePretty_not_blank hv,rfl⟩
    obtain ⟨hw,-,htext⟩ := choose_spec h
    exact ⟨choose h,dif_pos h,samplePretty_inj hw hv htext⟩

end Sample

/-- An entry of a number and one of a text. -/
def sample : Json := .obj [(ascii "n",one),(ascii "t",text "x")]

lemma sample_opens : Opens sample := by
  intro fields hfields
  obtain rfl : [(ascii "n",one),(ascii "t",text "x")] = fields := Tree.obj.inj hfields
  constructor
  · refine .obj (by decide) fun p hp => ?_
    simp only [List.mem_cons,List.not_mem_nil,or_false] at hp
    rcases hp with rfl | rfl
    · exact .leaf (by decide)
    · exact .leaf rfl
  · intro p hp
    simp only [List.mem_cons,List.not_mem_nil,or_false] at hp
    rcases hp with rfl | rfl
    · decide
    · decide

/-- A row is added and that of the text is edited twice: the entry of the number is kept. -/
theorem sample_keeps : ∃ s obj, (([.add,.text 1 (ascii "y"),.text 1 (ascii "z")] : List Edit).foldlM
      (step sampleLanguage) (mount sampleLanguage sample)) = some s ∧ s.emitted = some obj ∧
      obj.get? (ascii "n") = some one := by
  have hy (s : Editor) : Condition sampleLanguage s (.text 1 (ascii "y")) := fun _ _ _ _ => by decide
  have hz (s : Editor) : Condition sampleLanguage s (.text 1 (ascii "z")) := fun _ _ _ _ => by decide
  have hrun : Run (step sampleLanguage) (Condition sampleLanguage) (mount sampleLanguage sample)
      [.add,.text 1 (ascii "y"),.text 1 (ascii "z")] _ :=
    .cons trivial rfl (.cons (hy _) rfl (.cons (hz _) rfl (.nil _)))
  have hgood := editor_faithful sample_opens hrun
  refine ⟨_,_,rfl,rfl,hgood.keeps _ rfl (ascii "n",one) ?_ ?_⟩
  · exact List.mem_cons_self
  · change ascii "n" ∉ [ascii "t",ascii "t"]
    decide

/-- A number of which the text is emptied becomes a text, and the row shows no error. -/
theorem number_emptied : ∃ s obj, step sampleLanguage (mount sampleLanguage (.obj [(ascii "n",one)]))
      (.text 0 []) = some s ∧ ¬ Good sampleLanguage s ∧
    s.emitted = some obj ∧ obj.get? (ascii "n") = some (text "") := by
  refine ⟨_,_,rfl,fun hgood => ?_,rfl,rfl⟩
  obtain ⟨bits,hbits,-⟩ := (hgood.rows _ List.mem_cons_self).agrees rfl
  cases hbits

end Linea.KeyValueEditor
