import Linea.Approvals
import Linea.ExceptLaws
import Linea.IsoTimes
import Linea.KeysetMerge
import Linea.JsonStrings
import Linea.Listings

/-! The uses of a connection: the reads that went through it and its Action Intents that have come to
an end, in one listing. The database compares times and ids, the program compares the texts of them. -/
namespace Linea.ConnectionUses
open Linea.FixedTexts Linea.IsoTimes Linea.JsonText
open Linea.Keyset (Page orderBy Lists tryFollow)
open Linea.Listings (Timestamp toDate fromDate truncMilliseconds)

/-- 128 bits, as the database compares them. -/
abbrev Uuid := Fin (2 ^ 128)

/-- The text of an id. -/
def uuidText (id : Uuid) : List Char :=
  pad 16 8 (id.val / 2 ^ 96) ++ '-' :: (pad 16 4 (id.val / 2 ^ 80 % 2 ^ 16) ++
    '-' :: (pad 16 4 (id.val / 2 ^ 64 % 2 ^ 16) ++ '-' :: (pad 16 4 (id.val / 2 ^ 48 % 2 ^ 16) ++
      '-' :: pad 16 12 (id.val % 2 ^ 48))))

/-- `z.string().uuid()`: versions 1 to 8 of one variant, and the two ids of equal bits. -/
def uuidSchema (id : Uuid) : Bool :=
  let version := id.val / 2 ^ 76 % 16
  let variant := id.val / 2 ^ 60 % 16
  (1 ≤ version && version ≤ 8 && 8 ≤ variant && variant ≤ 11) || id.val = 0 || id.val = 2 ^ 128 - 1

/-- `/^[A-Za-z0-9_-]+$/` of at most 128 characters. -/
def identifierSchema (text : List Char) : Bool :=
  1 ≤ text.length && text.length ≤ 128 && text.all fun c => c.isAlphanum || c = '_' || c = '-'

/-! ## Tables -/

structure EndUserPrincipal where
  workspaceId : Uuid
  environmentId : Uuid
  externalSubjectId : Uuid
  deriving DecidableEq, Repr

structure Connection where
  id : Uuid
  workspaceId : Uuid
  environmentId : Uuid
  externalSubjectId : Option Uuid
  deriving DecidableEq, Repr

structure ConnectionReadUse where
  id : Uuid
  workspaceId : Uuid
  environmentId : Uuid
  externalSubjectId : Uuid
  connectionId : Uuid
  executionId : Uuid
  operationId : Text
  outcome : ActionIntentStatus
  occurredAt : Timestamp
  deriving DecidableEq, Repr

structure ActionIntent where
  id : Uuid
  workspaceId : Uuid
  environmentId : Uuid
  externalSubjectId : Uuid
  connectionId : Uuid
  executionId : Uuid
  operationId : Text
  status : ActionIntentStatus
  updatedAt : Timestamp
  deriving DecidableEq, Repr

/-- The tables with their primary keys. -/
structure Database where
  connections : List Connection := []
  connectionReadUses : List ConnectionReadUse := []
  actionIntents : List ActionIntent := []
  use_ids : (connectionReadUses.map (·.id)).Nodup := by decide
  intent_ids : (actionIntents.map (·.id)).Nodup := by decide

def ownedConnection (owner : EndUserPrincipal) (connectionId : Uuid) (connection : Connection) : Bool :=
  connection.workspaceId = owner.workspaceId && connection.environmentId = owner.environmentId &&
    connection.externalSubjectId = some owner.externalSubjectId && connection.id = connectionId

/-- The read uses of a connection, whatever their time. -/
def ownReadUse (owner : EndUserPrincipal) (connectionId : Uuid) (use : ConnectionReadUse) : Bool :=
  use.workspaceId = owner.workspaceId && use.environmentId = owner.environmentId &&
    use.externalSubjectId = owner.externalSubjectId && use.connectionId = connectionId

def terminalStatuses : List ActionIntentStatus :=
  [.succeeded,.failed,.stale,.rejected,.cancelled,.outcomeUnknown]

/-- The intents of a connection that have come to an end, whatever their time. -/
def ownTerminalIntent (owner : EndUserPrincipal) (connectionId : Uuid) (intent : ActionIntent) : Bool :=
  intent.workspaceId = owner.workspaceId && intent.environmentId = owner.environmentId &&
    intent.externalSubjectId = owner.externalSubjectId && intent.connectionId = connectionId &&
      terminalStatuses.contains intent.status

/-- The keyset condition: before the cursor's time, or at it with a smaller id. -/
def below (time : Timestamp) (id : Uuid) (cursor : ℤ × Uuid) : Bool :=
  time < fromDate cursor.1 || (time = fromDate cursor.1 && id < cursor.2)

/-- The key of `order by time desc, id desc`. -/
def orderKey (time : ℤ) (id : Uuid) : ℤ ×ₗ Uuid := toLex (time,id)

def findConnectionReadUses (db : Database) (owner : EndUserPrincipal) (connectionId : Uuid)
    (limit : ℕ) (cursor : Option (ℤ × Uuid)) : List ConnectionReadUse :=
  (orderBy (fun use => orderKey use.occurredAt use.id) (db.connectionReadUses.filter fun use =>
    ownReadUse owner connectionId use && cursor.all (below use.occurredAt use.id))).take limit

def findTerminalActionIntents (db : Database) (owner : EndUserPrincipal) (connectionId : Uuid)
    (limit : ℕ) (cursor : Option (ℤ × Uuid)) : List ActionIntent :=
  (orderBy (fun intent => orderKey intent.updatedAt intent.id) (db.actionIntents.filter fun intent =>
    ownTerminalIntent owner connectionId intent &&
      cursor.all (below intent.updatedAt intent.id))).take limit

/-! ## The listing -/

inductive Classification
  | read
  | sideEffect
  deriving DecidableEq, Repr

structure ConnectionUse where
  id : Uuid
  connectionId : Uuid
  executionId : Uuid
  actionIntentId : Option Uuid
  operation : Text
  classification : Classification
  outcome : ActionIntentStatus
  occurredAt : List Char
  deriving DecidableEq, Repr

/-- `connectionUseSchema`, of texts the response may not carry. -/
def connectionUseSchema (use : ConnectionUse) : Bool :=
  identifierSchema (uuidText use.id) && identifierSchema (uuidText use.connectionId) &&
    identifierSchema (uuidText use.executionId) &&
    use.actionIntentId.all (fun id => identifierSchema (uuidText id)) &&
    1 ≤ use.operation.length && use.operation.length ≤ 200 &&
    terminalStatuses.contains use.outcome && timestampSchema use.occurredAt

inductive ListUsesError
  | notFound
  | invalidCursor
  /-- A row that the response cannot carry, which is not caught. -/
  | internal
  deriving DecidableEq, Repr

def parse (use : ConnectionUse) : Except ListUsesError ConnectionUse :=
  if connectionUseSchema use then .ok use else .error .internal

def readUse (use : ConnectionReadUse) : ConnectionUse :=
  { id := use.id
    connectionId := use.connectionId
    executionId := use.executionId
    actionIntentId := none
    operation := use.operationId
    classification := .read
    outcome := use.outcome
    occurredAt := toISOString (toDate use.occurredAt) }

def intentUse (intent : ActionIntent) : ConnectionUse :=
  { id := intent.id
    connectionId := intent.connectionId
    executionId := intent.executionId
    actionIntentId := some intent.id
    operation := intent.operationId
    classification := .sideEffect
    outcome := intent.status
    occurredAt := toISOString (toDate intent.updatedAt) }

/-- The latest first, by their texts. -/
def compareUses (left right : ConnectionUse) : Ordering :=
  if right.occurredAt = left.occurredAt then localeCompare (uuidText right.id) (uuidText left.id)
  else localeCompare right.occurredAt left.occurredAt

/-- `Array.prototype.sort`, which keeps the order of what compares equal. -/
def sortUses (uses : List ConnectionUse) : List ConnectionUse :=
  uses.insertionSort fun left right => compareUses left right ≠ .gt

/-- A cursor, as the value that its text encodes. -/
structure ConnectionUseCursor where
  occurredAt : List Char
  id : Uuid
  deriving DecidableEq, Repr

def encodeConnectionUseCursor (occurredAt : ℤ) (id : Uuid) : ConnectionUseCursor :=
  { occurredAt := toISOString occurredAt, id }

def decodeConnectionUseCursor :
    Option ConnectionUseCursor → Except ListUsesError (Option (ℤ × Uuid))
  | none => .ok none
  | some cursor =>
    match newDate cursor.occurredAt with
    | some date => if uuidSchema cursor.id then .ok (some (date,cursor.id)) else .error .invalidCursor
    | none => .error .invalidCursor

def nextCursor (limit : ℕ) (uses : List ConnectionUse) :
    Except ListUsesError (Option ConnectionUseCursor) :=
  match (uses.take limit).getLast? with
  | none => .ok none
  | some last =>
    if uses.length > limit then
      match newDate last.occurredAt with
      | some date => .ok (some (encodeConnectionUseCursor date last.id))
      | none => .error .internal
    else .ok none

def listUses (db : Database) (principal : EndUserPrincipal) (connectionId : Uuid) (limit : ℕ)
    (cursor : Option ConnectionUseCursor) :
    Except ListUsesError (Page ConnectionUse ConnectionUseCursor) := do
  if !db.connections.any (ownedConnection principal connectionId) then throw .notFound
  let cursor ← decodeConnectionUseCursor cursor
  let reads ← (findConnectionReadUses db principal connectionId (limit + 1) cursor).mapM fun use =>
    parse (readUse use)
  let intents ← (findTerminalActionIntents db principal connectionId (limit + 1) cursor).mapM
    fun intent => parse (intentUse intent)
  let uses := sortUses (reads ++ intents)
  let next ← nextCursor limit uses
  return { data := uses.take limit, nextCursor := next }

/-! ## Texts in the order of what they stand for -/

lemma lt_iff_div_mod {k : ℕ} (hk : 0 < k) (m n : ℕ) :
    m < n ↔ m / k < n / k ∨ m / k = n / k ∧ m % k < n % k := by
  have h := lt_iff_divMod (Int.natCast_pos.mpr hk) m n
  exact_mod_cast h

/-- The groups of an id are in the order of the id. -/
lemma groups_lt_iff (m n : ℕ) :
    m < n ↔ m / 2 ^ 96 < n / 2 ^ 96 ∨ m / 2 ^ 96 = n / 2 ^ 96 ∧
      (m / 2 ^ 80 % 2 ^ 16 < n / 2 ^ 80 % 2 ^ 16 ∨ m / 2 ^ 80 % 2 ^ 16 = n / 2 ^ 80 % 2 ^ 16 ∧
      (m / 2 ^ 64 % 2 ^ 16 < n / 2 ^ 64 % 2 ^ 16 ∨ m / 2 ^ 64 % 2 ^ 16 = n / 2 ^ 64 % 2 ^ 16 ∧
      (m / 2 ^ 48 % 2 ^ 16 < n / 2 ^ 48 % 2 ^ 16 ∨ m / 2 ^ 48 % 2 ^ 16 = n / 2 ^ 48 % 2 ^ 16 ∧
        m % 2 ^ 48 < n % 2 ^ 48))) := by
  -- What is left behind a group begins with the next one.
  have hgroup : ∀ i k : ℕ, k % 2 ^ (i + 16) / 2 ^ i = k / 2 ^ i % 2 ^ 16 := by
    intro i k
    rw [pow_add,Nat.mod_mul_right_div_self]
  have hrest : ∀ i k : ℕ, k % 2 ^ (i + 16) % 2 ^ i = k % 2 ^ i := by
    intro i k
    exact Nat.mod_mod_of_dvd k (pow_dvd_pow 2 (Nat.le_add_right i 16))
  rw [lt_iff_div_mod (Nat.two_pow_pos 96) m n,
    lt_iff_div_mod (Nat.two_pow_pos 80) (m % 2 ^ 96) (n % 2 ^ 96),hgroup 80,hgroup 80,hrest 80,
    hrest 80,lt_iff_div_mod (Nat.two_pow_pos 64) (m % 2 ^ 80) (n % 2 ^ 80),hgroup 64,hgroup 64,
    hrest 64,hrest 64,lt_iff_div_mod (Nat.two_pow_pos 48) (m % 2 ^ 64) (n % 2 ^ 64),hgroup 48,
    hgroup 48,hrest 48,hrest 48]

lemma uuidText_lt_iff (a b : Uuid) :
    (uuidText a).map primary < (uuidText b).map primary ↔ a < b := by
  have hhex : 0 < 16 := by decide
  have hfirst : ∀ id : Uuid, id.val / 2 ^ 96 < 16 ^ 8 := fun id => Nat.div_lt_of_lt_mul id.isLt
  have hgroup : ∀ k : ℕ, k % 2 ^ 16 < 16 ^ 4 := fun k => Nat.mod_lt k (by decide)
  have hlast : ∀ k : ℕ, k % 2 ^ 48 < 16 ^ 12 := fun k => Nat.mod_lt k (by decide)
  unfold uuidText
  rw [number_lt_iff hhex (le_refl 16) (hfirst a) (hfirst b),sign_lt_iff,
    number_lt_iff hhex (le_refl 16) (hgroup _) (hgroup _),sign_lt_iff,
    number_lt_iff hhex (le_refl 16) (hgroup _) (hgroup _),sign_lt_iff,
    number_lt_iff hhex (le_refl 16) (hgroup _) (hgroup _),sign_lt_iff,
    pad_lt_iff hhex (le_refl 16) (hlast _) (hlast _),Fin.lt_def,groups_lt_iff a.val b.val]

lemma localeCompare_uuidText (a b : Uuid) : localeCompare (uuidText a) (uuidText b) = cmp a b :=
  localeCompare_eq (uuidText_lt_iff a b) (uuidText_lt_iff b a)

/-! ## The key of a use -/

/-- The time that the text of a use stands for. -/
def time (use : ConnectionUse) : ℤ := (newDate use.occurredAt).getD 0

/-- Of equal times and ids, the read comes first. -/
def place (use : ConnectionUse) : ℕ :=
  match use.classification with
  | .read => 1
  | .sideEffect => 0

def useKey (use : ConnectionUse) : ℤ ×ₗ Uuid ×ₗ ℕ := toLex (time use,toLex (use.id,place use))

/-- The key that the uses behind a cursor are below. -/
def bound (cursor : ConnectionUseCursor) : ℤ ×ₗ Uuid ×ₗ ℕ :=
  toLex ((newDate cursor.occurredAt).getD 0,toLex (cursor.id,0))

def cursorOf (use : ConnectionUse) : ConnectionUseCursor := encodeConnectionUseCursor (time use) use.id

/-- A use whose time the response can carry. -/
def Dated (use : ConnectionUse) : Prop := ∃ t, FourDigitYear t ∧ use.occurredAt = toISOString t

variable {a b : ConnectionUse}

lemma Dated.spec (h : Dated a) : FourDigitYear (time a) ∧ a.occurredAt = toISOString (time a) := by
  obtain ⟨t,hyear,htext⟩ := h
  have htime : time a = t := by rw [time,htext,newDate_toISOString hyear,Option.getD_some]
  rw [htime]
  exact ⟨hyear,htext⟩

lemma useKey_lt_iff : useKey a < useKey b ↔
    time a < time b ∨ time a = time b ∧ (a.id < b.id ∨ a.id = b.id ∧ place a < place b) := by
  unfold useKey
  rw [Prod.Lex.toLex_lt_toLex,Prod.Lex.toLex_lt_toLex]

lemma useKey_le_iff : useKey a ≤ useKey b ↔
    time a < time b ∨ time a = time b ∧ (a.id < b.id ∨ a.id = b.id ∧ place a ≤ place b) := by
  unfold useKey
  rw [Prod.Lex.toLex_le_toLex,Prod.Lex.toLex_le_toLex]

lemma cmp_ne_gt_iff {α : Type} [LinearOrder α] {x y : α} : cmp x y ≠ .gt ↔ x ≤ y := by
  rw [ne_eq,cmp_eq_gt_iff,not_lt]

/-- The comparison of texts is that of times and ids. -/
lemma compareUses_iff (ha : Dated a) (hb : Dated b) : compareUses a b ≠ .gt ↔
    time b < time a ∨ time b = time a ∧ b.id ≤ a.id := by
  obtain ⟨hyear,htext⟩ := ha.spec
  obtain ⟨hyear',htext'⟩ := hb.spec
  by_cases h : time b = time a
  · have hsame : b.occurredAt = a.occurredAt := by rw [htext,htext',h]
    rw [compareUses,if_pos hsame,localeCompare_uuidText,cmp_ne_gt_iff,h]
    simp
  · have hother : b.occurredAt ≠ a.occurredAt := by
      rw [htext,htext',ne_eq,toISOString_eq_iff hyear' hyear]
      exact h
    rw [compareUses,if_neg hother,htext,htext',localeCompare_toISOString hyear' hyear,cmp_ne_gt_iff]
    constructor
    · intro hle
      exact .inl (lt_of_le_of_ne hle h)
    · rintro (hlt | ⟨heq,-⟩)
      · exact hlt.le
      · exact absurd heq h

/-- Sorting puts reads and intents in the order of their keys. -/
lemma sortUses_eq {reads intents : List ConnectionUse} (hdated : ∀ use ∈ reads ++ intents, Dated use)
    (hreads : ∀ use ∈ reads, use.classification = .read)
    (hintents : ∀ use ∈ intents, use.classification = .sideEffect) :
    sortUses (reads ++ intents) = orderBy useKey (reads ++ intents) := by
  -- A use that came first has at least the place of one that came after it.
  have hplaces : (reads ++ intents).Pairwise fun a b => place b ≤ place a := by
    have hread : ∀ use ∈ reads, place use = 1 := by
      intro use huse
      unfold place
      rw [hreads use huse]
    have hintent : ∀ use ∈ intents, place use = 0 := by
      intro use huse
      unfold place
      rw [hintents use huse]
    refine List.pairwise_append.mpr ⟨?_,?_,?_⟩
    · exact List.pairwise_of_forall_mem_list fun a ha b hb => by rw [hread a ha,hread b hb]
    · exact List.pairwise_of_forall_mem_list fun a ha b hb => by rw [hintent a ha,hintent b hb]
    · intro a _ b hb
      rw [hintent b hb]
      exact Nat.zero_le _
  refine Keyset.insertionSort_congr ?_
  have hall : (reads ++ intents).Pairwise fun a b => Dated a ∧ Dated b :=
    List.pairwise_of_forall_mem_list fun a ha b hb => ⟨hdated a ha,hdated b hb⟩
  refine (hplaces.and hall).imp ?_
  rintro a b ⟨hplace,ha,hb⟩
  rw [compareUses_iff ha hb,useKey_le_iff]
  constructor
  · rintro (hlt | ⟨heq,hle⟩)
    · exact .inl hlt
    · exact .inr ⟨heq,hle.lt_or_eq.imp id fun hid => ⟨hid,hplace⟩⟩
  · rintro (hlt | ⟨heq,hlt | ⟨hid,-⟩⟩)
    · exact .inl hlt
    · exact .inr ⟨heq,hlt.le⟩
    · exact .inr ⟨heq,hid.le⟩

/-! ## What the queries find -/

/-- The read uses of a connection. -/
def matchingReads (db : Database) (owner : EndUserPrincipal) (connectionId : Uuid) :
    List ConnectionReadUse :=
  db.connectionReadUses.filter (ownReadUse owner connectionId)

/-- The terminal intents of a connection. -/
def matchingIntents (db : Database) (owner : EndUserPrincipal) (connectionId : Uuid) :
    List ActionIntent :=
  db.actionIntents.filter (ownTerminalIntent owner connectionId)

/-- All uses of a connection. -/
def useRows (db : Database) (owner : EndUserPrincipal) (connectionId : Uuid) : List ConnectionUse :=
  (matchingReads db owner connectionId).map readUse ++
    (matchingIntents db owner connectionId).map intentUse

/-- A use that both a response and a cursor can carry. -/
def Presentable (use : ConnectionUse) : Prop :=
  connectionUseSchema use = true ∧ uuidSchema use.id = true

instance (use : ConnectionUse) : Decidable (Presentable use) := inferInstanceAs (Decidable (_ ∧ _))

def WholeMilliseconds (time : Timestamp) : Prop := truncMilliseconds time = time

instance (time : Timestamp) : Decidable (WholeMilliseconds time) :=
  inferInstanceAs (Decidable (_ = _))

lemma dated_of_schema {t : ℤ} (htext : a.occurredAt = toISOString t)
    (h : connectionUseSchema a = true) : Dated a ∧ time a = t := by
  have hschema : timestampSchema a.occurredAt = true := by
    unfold connectionUseSchema at h
    exact (Bool.and_eq_true _ _ ▸ h).2
  rw [htext,timestampSchema_iff] at hschema
  exact ⟨⟨t,hschema,htext⟩,by rw [time,htext,newDate_toISOString hschema,Option.getD_some]⟩

lemma Presentable.dated (hrow : ∃ t, a.occurredAt = toISOString t) (h : Presentable a) : Dated a :=
  (dated_of_schema hrow.choose_spec h.1).1

lemma useRows_texts {db : Database} {owner : EndUserPrincipal} {connectionId : Uuid} :
    ∀ use ∈ useRows db owner connectionId, ∃ t, use.occurredAt = toISOString t := by
  intro use huse
  rcases List.mem_append.mp huse with h | h
  · obtain ⟨row,-,rfl⟩ := List.mem_map.mp h
    exact ⟨_,rfl⟩
  · obtain ⟨row,-,rfl⟩ := List.mem_map.mp h
    exact ⟨_,rfl⟩

/-- The key of what is behind a cursor, once it is decoded. -/
def decodedBound (cursor : ℤ × Uuid) : ℤ ×ₗ Uuid ×ₗ ℕ := toLex (cursor.1,toLex (cursor.2,0))

lemma below_eq {t : ℤ} (htime : time a = toDate t) (hwhole : WholeMilliseconds t)
    (cursor : ℤ × Uuid) : below t a.id cursor = decide (useKey a < decodedBound cursor) := by
  have hback : time a * 1000 = t := by
    rw [htime]
    exact hwhole
  have hlt : t < fromDate cursor.1 ↔ time a < cursor.1 := by
    change t < cursor.1 * 1000 ↔ time a < cursor.1
    omega
  have heq : t = fromDate cursor.1 ↔ time a = cursor.1 := by
    change t = cursor.1 * 1000 ↔ time a = cursor.1
    omega
  rw [Bool.eq_iff_iff,decide_eq_true_iff]
  unfold useKey decodedBound
  rw [Prod.Lex.toLex_lt_toLex,Prod.Lex.toLex_lt_toLex]
  simp only [below,Bool.or_eq_true,decide_eq_true_eq,Bool.and_eq_true,Nat.not_lt_zero,and_false,
    or_false,hlt,heq]

lemma orderKey_le_iff {t t' : ℤ} (htime : time a = toDate t) (htime' : time b = toDate t')
    (hwhole : WholeMilliseconds t) (hwhole' : WholeMilliseconds t') (hplace : place a = place b) :
    orderKey t a.id ≤ orderKey t' b.id ↔ useKey a ≤ useKey b := by
  have hback : time a * 1000 = t := by
    rw [htime]
    exact hwhole
  have hback' : time b * 1000 = t' := by
    rw [htime']
    exact hwhole'
  have hlt : t < t' ↔ time a < time b := by
    omega
  have heq : t = t' ↔ time a = time b := by
    omega
  unfold orderKey
  rw [Prod.Lex.toLex_le_toLex,useKey_le_iff,hplace,hlt,heq,le_iff_lt_or_eq (b := b.id)]
  simp only [le_refl,and_true]

/-- A query of one table, with its rows as uses. -/
lemma query_eq {β : Type} (rows : List β) (use : β → ConnectionUse) (timeOf : β → Timestamp)
    (own : β → Bool) (hplace : ∀ row row', place (use row) = place (use row'))
    (htime : ∀ row ∈ rows.filter own, time (use row) = toDate (timeOf row))
    (hwhole : ∀ row ∈ rows.filter own, WholeMilliseconds (timeOf row)) (limit : ℕ)
    (cursor : Option (ℤ × Uuid)) :
    ((orderBy (fun row => orderKey (timeOf row) (use row).id) (rows.filter fun row =>
      own row && cursor.all (below (timeOf row) (use row).id))).take limit).map use =
    (orderBy useKey (((rows.filter own).map use).filter fun a =>
      cursor.all fun c => useKey a < decodedBound c)).take limit := by
  have hfilter : ((rows.filter own).map use).filter (fun a =>
      cursor.all fun c => useKey a < decodedBound c) =
      (rows.filter fun row => own row && cursor.all (below (timeOf row) (use row).id)).map use := by
    rw [List.filter_map,List.filter_filter]
    refine congrArg _ (List.filter_congr fun row hrow => ?_)
    rw [Bool.and_comm]
    by_cases hown : own row = true
    · have hmem := List.mem_filter.mpr ⟨hrow,hown⟩
      have hbelow := below_eq (htime row hmem) (hwhole row hmem)
      cases cursor with
      | none => rfl
      | some c => simp only [hown,Option.all_some,Function.comp_apply,hbelow]
    · rw [Bool.not_eq_true] at hown
      rw [hown,Bool.false_and,Bool.false_and]
  rw [List.map_take,hfilter]
  refine congrArg _ (Keyset.orderBy_map fun row hrow row' hrow' => ?_)
  have hmem : ∀ r ∈ rows.filter fun row => own row && cursor.all (below (timeOf row) (use row).id),
      r ∈ rows.filter own := by
    intro r hr
    obtain ⟨hin,hboth⟩ := List.mem_filter.mp hr
    exact List.mem_filter.mpr ⟨hin,(Bool.and_eq_true _ _ ▸ hboth).1⟩
  exact orderKey_le_iff (htime row' (hmem row' hrow')) (htime row (hmem row hrow))
    (hwhole row' (hmem row' hrow')) (hwhole row (hmem row hrow)) (hplace row' row)

lemma mapM_parse {β : Type} (use : β → ConnectionUse) {rows : List β}
    (h : ∀ row ∈ rows, connectionUseSchema (use row) = true) :
    rows.mapM (fun row => parse (use row)) = .ok (rows.map use) := by
  induction rows with
  | nil => rfl
  | cons row rows ih =>
    rw [List.mapM_cons,ih fun r hr => h r (List.mem_cons_of_mem row hr),parse,
      if_pos (h row List.mem_cons_self)]
    rfl

section Listing
variable {db : Database} {principal : EndUserPrincipal} {connectionId : Uuid} {limit : ℕ}

lemma map_id_nodup {β : Type} {rows : List β} {use : β → ConnectionUse} {own : β → Bool}
    (h : (rows.map fun row => (use row).id).Nodup) :
    ((((rows.filter own).map use).map useKey)).Nodup := by
  refine List.Nodup.of_map (fun key : ℤ ×ₗ Uuid ×ₗ ℕ => (ofLex (ofLex key).2).1) ?_
  have hsame : ((((rows.filter own).map use).map useKey).map
      fun key : ℤ ×ₗ Uuid ×ₗ ℕ => (ofLex (ofLex key).2).1) =
      (rows.filter own).map fun row => (use row).id := by
    rw [List.map_map,List.map_map]
    rfl
  rw [hsame]
  exact h.sublist (List.filter_sublist.map _)

/-- Ids are unique in a table, and the place tells the tables apart. -/
lemma useRows_keys : ((useRows db principal connectionId).map useKey).Nodup := by
  rw [useRows,List.map_append]
  refine List.nodup_append.mpr ⟨map_id_nodup db.use_ids,map_id_nodup db.intent_ids,?_⟩
  intro key hkey key' hkey' hsame
  obtain ⟨use,huse,rfl⟩ := List.mem_map.mp hkey
  obtain ⟨use',huse',rfl⟩ := List.mem_map.mp hkey'
  obtain ⟨row,-,rfl⟩ := List.mem_map.mp huse
  obtain ⟨row',-,rfl⟩ := List.mem_map.mp huse'
  have hplace : place (readUse row) = place (intentUse row') :=
    congrArg (fun key : ℤ ×ₗ Uuid ×ₗ ℕ => (ofLex (ofLex key).2).2) hsame
  exact Nat.one_ne_zero hplace

/-- The cursors that are decoded. -/
def Decodable (cursor : Option ConnectionUseCursor) : Prop :=
  ∀ c ∈ cursor, (∃ date, newDate c.occurredAt = some date) ∧ uuidSchema c.id = true

lemma decode_eq {cursor : Option ConnectionUseCursor} (h : Decodable cursor) :
    decodeConnectionUseCursor cursor =
      .ok (cursor.map fun c => ((newDate c.occurredAt).getD 0,c.id)) := by
  cases cursor with
  | none => rfl
  | some c =>
    obtain ⟨⟨date,hdate⟩,hid⟩ := h c rfl
    simp only [decodeConnectionUseCursor,hdate,hid,if_true,Option.map_some,Option.getD_some]

/-- The page of a request that succeeds. -/
def usesPage (limit : ℕ) (rows : List ConnectionUse) (cursor : Option ConnectionUseCursor) :
    Page ConnectionUse ConnectionUseCursor :=
  Keyset.paginate limit cursorOf ((Keyset.remaining useKey bound rows cursor).take (limit + 1))

lemma nextCursor_eq {uses : List ConnectionUse} (hdated : ∀ use ∈ uses, Dated use) :
    nextCursor limit uses = .ok (Keyset.paginate limit cursorOf uses).nextCursor := by
  unfold nextCursor Keyset.paginate
  dsimp only
  cases hlast : (uses.take limit).getLast? with
  | none => simp
  | some last =>
    obtain ⟨t,hyear,htext⟩ := hdated last (List.mem_of_mem_take (List.mem_of_getLast? hlast))
    have hdate : newDate last.occurredAt = some t := by rw [htext,newDate_toISOString hyear]
    have htime : time last = t := by rw [time,hdate,Option.getD_some]
    simp only [hdate,Option.map_some,cursorOf,htime]
    split <;> rfl

lemma listUses_eq (howned : db.connections.any (ownedConnection principal connectionId) = true)
    (hreads : ∀ use ∈ matchingReads db principal connectionId, WholeMilliseconds use.occurredAt)
    (hintents : ∀ intent ∈ matchingIntents db principal connectionId,
      WholeMilliseconds intent.updatedAt)
    (hrows : ∀ use ∈ useRows db principal connectionId, Presentable use)
    {cursor : Option ConnectionUseCursor} (hcursor : Decodable cursor) :
    listUses db principal connectionId limit cursor =
      .ok (usesPage limit (useRows db principal connectionId) cursor) := by
  let decoded := cursor.map fun c => ((newDate c.occurredAt).getD 0,c.id)
  let behind : ConnectionUse → Bool := fun use => cursor.all fun c => useKey use < bound c
  have hdecoded : ∀ use, (decoded.all fun c => useKey use < decodedBound c) = behind use := by
    intro use
    cases cursor <;> rfl
  have hread : ∀ use ∈ matchingReads db principal connectionId, readUse use ∈
      useRows db principal connectionId := fun use huse =>
    List.mem_append_left _ (List.mem_map_of_mem huse)
  have hintent : ∀ intent ∈ matchingIntents db principal connectionId, intentUse intent ∈
      useRows db principal connectionId := fun intent hin =>
    List.mem_append_right _ (List.mem_map_of_mem hin)
  have hreadDated : ∀ use ∈ matchingReads db principal connectionId,
      time (readUse use) = toDate use.occurredAt := fun use huse =>
    (dated_of_schema rfl (hrows _ (hread use huse)).1).2
  have hintentDated : ∀ intent ∈ matchingIntents db principal connectionId,
      time (intentUse intent) = toDate intent.updatedAt := fun intent hin =>
    (dated_of_schema rfl (hrows _ (hintent intent hin)).1).2
  have hreadQuery : (findConnectionReadUses db principal connectionId (limit + 1) decoded).map readUse =
      (orderBy useKey (((matchingReads db principal connectionId).map readUse).filter
        behind)).take (limit + 1) := by
    have hquery := query_eq db.connectionReadUses readUse ConnectionReadUse.occurredAt
      (ownReadUse principal connectionId) (fun _ _ => rfl) hreadDated hreads (limit + 1) decoded
    simp only [hdecoded] at hquery
    exact hquery
  have hintentQuery : (findTerminalActionIntents db principal connectionId (limit + 1) decoded).map
      intentUse = (orderBy useKey (((matchingIntents db principal connectionId).map intentUse).filter
        behind)).take (limit + 1) := by
    have hquery := query_eq db.actionIntents intentUse ActionIntent.updatedAt
      (ownTerminalIntent principal connectionId) (fun _ _ => rfl) hintentDated hintents (limit + 1)
      decoded
    simp only [hdecoded] at hquery
    exact hquery
  have hfoundReads : ∀ use ∈ findConnectionReadUses db principal connectionId (limit + 1) decoded,
      readUse use ∈ useRows db principal connectionId := by
    intro use huse
    have hmem := Keyset.orderBy_perm.mem_iff.mp (List.mem_of_mem_take huse)
    obtain ⟨hin,hown⟩ := List.mem_filter.mp hmem
    exact hread use (List.mem_filter.mpr ⟨hin,(Bool.and_eq_true _ _ ▸ hown).1⟩)
  have hfoundIntents : ∀ intent ∈ findTerminalActionIntents db principal connectionId (limit + 1)
      decoded, intentUse intent ∈ useRows db principal connectionId := by
    intro intent hfound
    have hmem := Keyset.orderBy_perm.mem_iff.mp (List.mem_of_mem_take hfound)
    obtain ⟨hin,hown⟩ := List.mem_filter.mp hmem
    exact hintent intent (List.mem_filter.mpr ⟨hin,(Bool.and_eq_true _ _ ▸ hown).1⟩)
  have hreadsParsed := mapM_parse readUse fun use huse => (hrows _ (hfoundReads use huse)).1
  have hintentsParsed := mapM_parse intentUse fun intent hin => (hrows _ (hfoundIntents intent hin)).1
  -- Both together, in the order of their keys.
  have huses : ∀ use ∈ (findConnectionReadUses db principal connectionId (limit + 1) decoded).map
      readUse ++ (findTerminalActionIntents db principal connectionId (limit + 1) decoded).map
        intentUse, Dated use := by
    intro use huse
    have hmem : use ∈ useRows db principal connectionId := by
      rcases List.mem_append.mp huse with h | h
      · obtain ⟨row,hrow,rfl⟩ := List.mem_map.mp h
        exact hfoundReads row hrow
      · obtain ⟨row,hrow,rfl⟩ := List.mem_map.mp h
        exact hfoundIntents row hrow
    exact (hrows use hmem).dated (useRows_texts use hmem)
  have hsorted := sortUses_eq huses
    (fun use huse => by obtain ⟨row,-,rfl⟩ := List.mem_map.mp huse; rfl)
    (fun use huse => by obtain ⟨row,-,rfl⟩ := List.mem_map.mp huse; rfl)
  have hsortedDated : ∀ use ∈ sortUses
      ((findConnectionReadUses db principal connectionId (limit + 1) decoded).map readUse ++
        (findTerminalActionIntents db principal connectionId (limit + 1) decoded).map intentUse),
      Dated use := by
    intro use huse
    rw [hsorted] at huse
    exact huses use (Keyset.orderBy_perm.mem_iff.mp huse)
  have hkeys : ((((matchingReads db principal connectionId).map readUse).filter behind ++
      ((matchingIntents db principal connectionId).map intentUse).filter behind).map useKey).Nodup := by
    rw [← List.filter_append]
    exact useRows_keys.sublist (List.filter_sublist.map useKey)
  have hpage : Keyset.paginate limit cursorOf (sortUses
      ((findConnectionReadUses db principal connectionId (limit + 1) decoded).map readUse ++
        (findTerminalActionIntents db principal connectionId (limit + 1) decoded).map intentUse)) =
      usesPage limit (useRows db principal connectionId) cursor := by
    rw [hsorted,← Keyset.paginate_take,hreadQuery,hintentQuery,Keyset.take_orderBy_append _ hkeys,
      ← List.filter_append]
    rfl
  unfold listUses
  rw [howned,decode_eq hcursor]
  simp only [Bool.not_true,Bool.false_eq_true,if_false,ExceptLaws.ok_bind]
  rw [hreadsParsed,hintentsParsed]
  simp only [ExceptLaws.ok_bind]
  rw [nextCursor_eq hsortedDated,← hpage]
  rfl

/-- No page ends between a read use and an intent of the same time and id. -/
def TwinsTogether (limit : ℕ) (rows : List ConnectionUse) : Prop :=
  ∀ last ∈ rows, ∀ use ∈ rows, limit ∣ Keyset.rank useKey rows last → useKey use < useKey last →
    ¬ (time use = time last ∧ use.id = last.id)

lemma bound_cursorOf (h : Dated a) : bound (cursorOf a) = toLex (time a,toLex (a.id,0)) := by
  have htext : newDate (toISOString (time a)) = some (time a) := newDate_toISOString h.spec.1
  simp only [bound,cursorOf,encodeConnectionUseCursor,htext,Option.getD_some]

lemma resolved_iff {rows : List ConnectionUse} (hdated : ∀ use ∈ rows, Dated use) :
    Keyset.Resolved useKey bound cursorOf limit rows ↔ TwinsTogether limit rows := by
  refine forall₂_congr fun last hlast => forall₂_congr fun use _ => forall₂_congr fun _ hlt => ?_
  rw [bound_cursorOf (hdated last hlast)]
  rw [useKey_lt_iff] at hlt
  unfold useKey
  rw [Prod.Lex.toLex_lt_toLex,Prod.Lex.toLex_lt_toLex]
  simp only [Nat.not_lt_zero,and_false,or_false]
  constructor
  · rintro (h | ⟨-,h⟩) ⟨htime,hid⟩
    · exact absurd htime h.ne
    · exact absurd hid h.ne
  · intro hother
    rcases hlt with h | ⟨htime,h | ⟨hid,-⟩⟩
    · exact .inl h
    · exact .inr ⟨htime,h⟩
    · exact absurd ⟨htime,hid⟩ hother

lemma place_cases : place a < place b → a.classification = .sideEffect ∧ b.classification = .read := by
  unfold place
  cases a.classification <;> cases b.classification <;> simp

/-- A page of presentable uses goes on with a cursor that is decoded. -/
lemma usesPage_decodable {rows : List ConnectionUse} (hrows : ∀ use ∈ rows, Presentable use)
    (htexts : ∀ use ∈ rows, ∃ t, use.occurredAt = toISOString t)
    {cursor : Option ConnectionUseCursor} {next : ConnectionUseCursor}
    (h : (usesPage limit rows cursor).nextCursor = some next) : Decodable (some next) := by
  unfold usesPage Keyset.paginate at h
  dsimp only at h
  split at h
  · obtain ⟨last,hlast,rfl⟩ := Option.map_eq_some_iff.mp h
    have hfound := List.mem_of_mem_take (List.mem_of_mem_take (List.mem_of_getLast? hlast))
    have hmem := (List.mem_filter.mp (Keyset.orderBy_perm.mem_iff.mp hfound)).1
    have hdated := (hrows last hmem).dated (htexts last hmem)
    rintro c ⟨⟩
    exact ⟨⟨time last,newDate_toISOString hdated.spec.1⟩,(hrows last hmem).2⟩
  · cases h

/-- Following the cursors of the uses of a connection ends, and returns every read use and every
terminal intent once, in descending order of time and then id, exactly if no page ends between a read
use and an intent of the same time and id; there are no such two unless ids are shared. -/
theorem uses_listed (db : Database) (principal : EndUserPrincipal) (connectionId : Uuid) (limit : ℕ)
    (howned : db.connections.any (ownedConnection principal connectionId) = true)
    (hlimit : 0 < limit)
    (hreads : ∀ use ∈ matchingReads db principal connectionId, WholeMilliseconds use.occurredAt)
    (hintents : ∀ intent ∈ matchingIntents db principal connectionId,
      WholeMilliseconds intent.updatedAt)
    (hrows : ∀ use ∈ useRows db principal connectionId, Presentable use) :
    ∃ data, Lists (listUses db principal connectionId limit) data ∧
      (Keyset.Returned useKey (useRows db principal connectionId) data ↔
        TwinsTogether limit (useRows db principal connectionId)) ∧
      ((∀ use ∈ matchingReads db principal connectionId,
        ∀ intent ∈ matchingIntents db principal connectionId,
          use.id = intent.id → use.occurredAt ≠ intent.updatedAt) →
        Keyset.Returned useKey (useRows db principal connectionId) data) := by
  have hdated : ∀ use ∈ useRows db principal connectionId, Dated use := fun use huse =>
    (hrows use huse).dated (useRows_texts use huse)
  have hbound : ∀ use ∈ useRows db principal connectionId, bound (cursorOf use) ≤ useKey use := by
    intro use huse
    rw [bound_cursorOf (hdated use huse),useKey,Prod.Lex.toLex_le_toLex,Prod.Lex.toLex_le_toLex]
    exact .inr ⟨rfl,.inr ⟨rfl,Nat.zero_le _⟩⟩
  obtain ⟨data,hfollows,hiff⟩ := Keyset.follow_returns_iff useRows_keys hbound hlimit
    (fun _ cursor => (rfl : usesPage limit (useRows db principal connectionId) cursor = _))
  rw [resolved_iff hdated] at hiff
  refine ⟨data,?_,hiff,fun hdistinct => hiff.mpr ?_⟩
  · refine hfollows.lists
      (fun cursor (h : Decodable cursor) => listUses_eq howned hreads hintents hrows h)
      (fun cursor next _ hnext => usesPage_decodable hrows useRows_texts hnext) ?_
    exact fun c hc => absurd hc (Option.not_mem_none c)
  · rintro last hlast use huse - hlt ⟨htime,hid⟩
    -- Of two uses with the same time and id, one is a read use and the other an intent.
    have hplace : place use < place last := by
      rcases useKey_lt_iff.mp hlt with h | ⟨-,h | ⟨-,h⟩⟩
      · exact absurd htime h.ne
      · exact absurd hid h.ne
      · exact h
    obtain ⟨huseClass,hlastClass⟩ := place_cases hplace
    rcases List.mem_append.mp huse with h | h
    · obtain ⟨row,-,rfl⟩ := List.mem_map.mp h
      cases huseClass
    · obtain ⟨intent,hintent,rfl⟩ := List.mem_map.mp h
      rcases List.mem_append.mp hlast with h' | h'
      · obtain ⟨read,hread,rfl⟩ := List.mem_map.mp h'
        refine hdistinct read hread intent hintent hid.symm ?_
        have hreadTime := (dated_of_schema rfl (hrows _ hlast).1).2
        have hintentTime := (dated_of_schema rfl (hrows _ huse).1).2
        rw [hreadTime,hintentTime] at htime
        rw [← hreads read hread,← hintents intent hintent,truncMilliseconds,truncMilliseconds,htime]
      · obtain ⟨other,-,rfl⟩ := List.mem_map.mp h'
        cases hlastClass

end Listing

section Instances

def subject : EndUserPrincipal := { workspaceId := 1, environmentId := 1, externalSubjectId := 1 }

/-- Version 4, up to the number given. -/
def idOf (n : ℕ) : Uuid :=
  ⟨(0x00000000000040008000000000000000 + n) % 2 ^ 128,Nat.mod_lt _ (Nat.two_pow_pos 128)⟩

def readAt (n : ℕ) (occurredAt : Timestamp) : ConnectionReadUse :=
  { id := idOf n, workspaceId := 1, environmentId := 1, externalSubjectId := 1, connectionId := 1
    executionId := 1, operationId := [114], outcome := .succeeded, occurredAt }

def intentAt (n : ℕ) (updatedAt : Timestamp) : ActionIntent :=
  { id := idOf n, workspaceId := 1, environmentId := 1, externalSubjectId := 1, connectionId := 1
    executionId := 1, operationId := [115], status := .succeeded, updatedAt }

def connectionOf : Connection :=
  { id := 1, workspaceId := 1, environmentId := 1, externalSubjectId := some 1 }

/-- A read use and an intent. -/
def twoUses (read intent : ℕ) (time : Timestamp) : Database :=
  { connections := [connectionOf], connectionReadUses := [readAt read time]
    actionIntents := [intentAt intent time], use_ids := List.nodup_singleton _
    intent_ids := List.nodup_singleton _ }

theorem uses_listed_two : ∃ data, Lists (listUses (twoUses 1 2 0) subject 1 1) data ∧
    Keyset.Returned useKey (useRows (twoUses 1 2 0) subject 1) data := by
  obtain ⟨data,hlists,-,hreturned⟩ := uses_listed (twoUses 1 2 0) subject 1 1 (by decide +kernel)
    (by decide) (by decide +kernel) (by decide +kernel) (by decide +kernel)
  exact ⟨data,hlists,hreturned (by decide +kernel)⟩

/-- Of a read use and an intent with the same time and id, one page is left without the intent; a use
of the year 10000 is refused. -/
theorem uses_lost :
    (tryFollow (listUses (twoUses 1 1 0) subject 1 1) 2 none =
      some (.ok [readUse (readAt 1 0)])) ∧
    (tryFollow (listUses (twoUses 1 2 253402300800000000) subject 1 1) 1 none =
      some (.error .internal)) := by
  constructor <;> decide +kernel

end Instances

end Linea.ConnectionUses
