import Linea.Graph

/-! The state that the user SDK stores: how each of its three stores writes it, and the parser that
reads it back. A state is its two properties, each of which may be `undefined`. -/
namespace Linea.UserStates

structure AuthorizationState where
  state : String
  redirectUri : String
  codeVerifier : String

/-- The types of a `JsonWebKey`'s members. -/
inductive JwkMember
  | text (s : String)
  | flag (b : Bool)
  | texts (items : List String)
  | records (items : List (List (String × String)))

structure StoredUserSession where
  accessToken : String
  dpopNonce : String
  expiresAt : String
  externalSubjectId : String
  proofKeyId : String
  publicJwk : List (String × JwkMember)

structure StoredUserState where
  authorization : Option AuthorizationState
  session : Option StoredUserSession

def JwkMember.value : JwkMember → Value
  | .text s => .string s
  | .flag b => .bool b
  | .texts items => .array (items.map .string)
  | .records items => .array (items.map fun fields => .object (fields.map fun p => (p.1,.string p.2)))

def AuthorizationState.value (a : AuthorizationState) : Value :=
  .object [("state",.string a.state),("redirectUri",.string a.redirectUri),
    ("codeVerifier",.string a.codeVerifier)]

def jwkFields (publicJwk : List (String × JwkMember)) : List (String × Value) :=
  publicJwk.map fun p => (p.1,p.2.value)

def StoredUserSession.value (s : StoredUserSession) : Value :=
  .object [("accessToken",.string s.accessToken),("dpopNonce",.string s.dpopNonce),
    ("expiresAt",.string s.expiresAt),("externalSubjectId",.string s.externalSubjectId),
    ("proofKeyId",.string s.proofKeyId),("publicJwk",.object (jwkFields s.publicJwk))]

/-- The properties `authorization` and `session`. -/
structure Parts where
  authorization : Value
  session : Value

def StoredUserState.parts (state : StoredUserState) : Parts where
  authorization := (state.authorization.map AuthorizationState.value).getD .undefined
  session := (state.session.map StoredUserSession.value).getD .undefined

/-- The properties of an object; those of an array are none that is read here. -/
def ownFields : Value → Option (List (String × Value))
  | .object fields => some fields
  | .array _ => some []
  | _ => none

/-- `key in value && typeof value[key] === "string"`. -/
def hasString (fields : List (String × Value)) (key : String) : Bool :=
  match Value.field fields key with
  | .string _ => true
  | _ => false

def isAuthorizationState (value : Value) : Bool :=
  match ownFields value with
  | some fields => ["state","redirectUri","codeVerifier"].all (hasString fields)
  | none => false

/-- `isDate` tells whether `Date.parse` of a string is finite. -/
def isStoredUserSession (isDate : String → Bool) (value : Value) : Bool :=
  match ownFields value with
  | some fields =>
    hasString fields "accessToken" && hasString fields "dpopNonce" &&
    (match Value.field fields "expiresAt" with
      | .string expiresAt => isDate expiresAt
      | _ => false) &&
    hasString fields "externalSubjectId" && hasString fields "proofKeyId" &&
    match ownFields (Value.field fields "publicJwk") with
    | some jwk => !(jwk.any fun p => p.1 = "d") && hasString jwk "x" && hasString jwk "y"
    | none => false
  | none => false

def isNull : Value → Bool
  | .null => true
  | _ => false

/-- `value ?? undefined`. -/
def orUndefined : Value → Value
  | .null => .undefined
  | v => v

/-- `key in value ? value[key] : null`. -/
def propertyOrNull (fields : List (String × Value)) (key : String) : Value :=
  if fields.any fun p => p.1 = key then Value.field fields key else .null

def parseStoredUserState (isDate : String → Bool) (value : Value) : Option Parts :=
  match ownFields value with
  | none => none
  | some fields =>
    let authorization := propertyOrNull fields "authorization"
    let session := propertyOrNull fields "session"
    if !isNull authorization && !isAuthorizationState authorization then none
    else if !isNull session && !isStoredUserSession isDate session then none
    else some ⟨orUndefined authorization,orUndefined session⟩

mutual
/-- What `JSON.parse` reads in the text that `JSON.stringify` writes. -/
def jsonCopy : Value → Value
  | .undefined | .null => .null
  | .bool b => .bool b
  | .number bits =>
    if bits.toNat / 2 ^ 52 % 2 ^ 11 = 2 ^ 11 - 1 then .null
    else if bits.toNat % 2 ^ 63 = 0 then .number 0
    else .number bits
  | .string s => .string s
  | .array items => .array (jsonItems items)
  | .object fields => .object (jsonFields fields)

def jsonItems : List Value → List Value
  | [] => []
  | v :: items => jsonCopy v :: jsonItems items

/-- A property that is `undefined` is not written. -/
def jsonFields : List (String × Value) → List (String × Value)
  | [] => []
  | (_,.undefined) :: fields => jsonFields fields
  | (key,v) :: fields => (key,jsonCopy v) :: jsonFields fields
end

/-- The three implementations, each with what is stored under its key. IndexedDB keeps a structured
clone, and the platform's storage a text, given by what `JSON.parse` makes of it. -/
inductive UserStateStore
  | memory (state : Parts)
  | indexedDb (entry : Option Value)
  | platform (item : Option Value)

def orNull : Value → Value
  | .undefined => .null
  | v => v

def UserStateStore.save (state : StoredUserState) : UserStateStore → UserStateStore
  | .memory _ => .memory state.parts
  | .indexedDb _ => .indexedDb (some (.object [("authorization",state.parts.authorization),
      ("session",state.parts.session)]))
  | .platform _ =>
    if state.authorization.isNone && state.session.isNone then .platform none
    else .platform (some (jsonCopy (.object [("authorization",orNull state.parts.authorization),
      ("session",orNull state.parts.session)])))

def parsed (isDate : String → Bool) : Option Value → Except String Parts
  | none => .ok ⟨.undefined,.undefined⟩
  | some value =>
    match parseStoredUserState isDate value with
    | some state => .ok state
    | none => .error "Stored Linea user state is invalid"

def UserStateStore.load (isDate : String → Bool) : UserStateStore → Except String Parts
  | .memory state => .ok state
  | .indexedDb entry => parsed isDate entry
  | .platform item => parsed isDate item

/-! ## Which states are read back -/

/-- The member is there, and a string. -/
def isText (publicJwk : List (String × JwkMember)) (key : String) : Prop :=
  ∃ s k, publicJwk.find? (fun p => p.1 = key) = some (k,.text s)

/-- An expiry that is a date, and a public key. -/
structure StoredUserSession.Valid (isDate : String → Bool) (s : StoredUserSession) : Prop where
  expiresAt : isDate s.expiresAt = true
  d : ∀ p ∈ s.publicJwk, p.1 ≠ "d"
  x : isText s.publicJwk "x"
  y : isText s.publicJwk "y"

/-- Memory keeps every state; the platform's storage those with a valid session or none; IndexedDB
only those with an authorization and a valid session. -/
def UserStateStore.Keeps (isDate : String → Bool) (state : StoredUserState) : UserStateStore → Prop
  | .memory _ => True
  | .indexedDb _ => state.authorization.isSome = true ∧
      ∃ s, state.session = some s ∧ s.Valid isDate
  | .platform _ => ∀ s, state.session = some s → s.Valid isDate

variable {isDate : String → Bool}

lemma isAuthorizationState_value (a : AuthorizationState) :
    isAuthorizationState a.value = true := by
  simp [isAuthorizationState,AuthorizationState.value,ownFields,hasString,Value.field]

lemma hasString_jwk (publicJwk : List (String × JwkMember)) (key : String) :
    hasString (jwkFields publicJwk) key = true ↔ isText publicJwk key := by
  unfold hasString isText Value.field jwkFields
  rw [List.find?_map]
  have hkey : ((fun p : String × Value => decide (p.1 = key)) ∘ fun p : String × JwkMember =>
      (p.1,p.2.value)) = fun p => decide (p.1 = key) := rfl
  rw [hkey]
  cases publicJwk.find? fun p => p.1 = key with
  | none => simp
  | some p =>
    obtain ⟨k,member⟩ := p
    cases member <;> simp [JwkMember.value]

lemma isStoredUserSession_value (s : StoredUserSession) :
    isStoredUserSession isDate s.value = true ↔ s.Valid isDate := by
  have hjwk : ownFields (.object (jwkFields s.publicJwk)) = some (jwkFields s.publicJwk) := rfl
  have hd : ((jwkFields s.publicJwk).any fun p => p.1 = "d") = false ↔
      ∀ p ∈ s.publicJwk, p.1 ≠ "d" := by
    simp [jwkFields]
  have hvalue : isStoredUserSession isDate s.value = (isDate s.expiresAt &&
      (!((jwkFields s.publicJwk).any fun p => p.1 = "d") && hasString (jwkFields s.publicJwk) "x" &&
        hasString (jwkFields s.publicJwk) "y")) := by
    simp [isStoredUserSession,StoredUserSession.value,ownFields,hasString,Value.field]
  rw [hvalue]
  simp only [Bool.and_eq_true,Bool.not_eq_eq_eq_not,Bool.not_true,hd,hasString_jwk]
  exact ⟨fun ⟨hdate,⟨hd,hx⟩,hy⟩ => ⟨hdate,hd,hx,hy⟩,
    fun h => ⟨h.expiresAt,⟨h.d,h.x⟩,h.y⟩⟩

lemma jsonItems_strings (items : List String) :
    jsonItems (items.map .string) = items.map .string := by
  induction items with
  | nil => rfl
  | cons s items ih => rw [List.map_cons,jsonItems,jsonCopy,ih]

lemma jsonFields_strings (fields : List (String × String)) :
    jsonFields (fields.map fun p => (p.1,.string p.2)) = fields.map fun p => (p.1,.string p.2) := by
  induction fields with
  | nil => rfl
  | cons p fields ih =>
    rw [List.map_cons,jsonFields,jsonCopy,ih]
    exact Value.noConfusion

lemma jsonItems_records (items : List (List (String × String))) :
    jsonItems (items.map fun fields => .object (fields.map fun p => (p.1,.string p.2))) =
      items.map fun fields => .object (fields.map fun p => (p.1,.string p.2)) := by
  induction items with
  | nil => rfl
  | cons fields items ih => rw [List.map_cons,jsonItems,jsonCopy,jsonFields_strings,ih]

lemma jsonFields_jwk (publicJwk : List (String × JwkMember)) :
    jsonFields (jwkFields publicJwk) = jwkFields publicJwk := by
  unfold jwkFields
  induction publicJwk with
  | nil => rfl
  | cons p publicJwk ih =>
    obtain ⟨key,member⟩ := p
    cases member with
    | text s => rw [List.map_cons,JwkMember.value,jsonFields,jsonCopy,ih]; exact Value.noConfusion
    | flag b => rw [List.map_cons,JwkMember.value,jsonFields,jsonCopy,ih]; exact Value.noConfusion
    | texts items =>
      rw [List.map_cons,JwkMember.value,jsonFields,jsonCopy,jsonItems_strings,ih]
      exact Value.noConfusion
    | records items =>
      rw [List.map_cons,JwkMember.value,jsonFields,jsonCopy,jsonItems_records,ih]
      exact Value.noConfusion

lemma jsonCopy_authorization (a : AuthorizationState) : jsonCopy a.value = a.value := by
  simp [AuthorizationState.value,jsonCopy,jsonFields]

lemma jsonCopy_session (s : StoredUserSession) : jsonCopy s.value = s.value := by
  simp [StoredUserSession.value,jsonCopy,jsonFields,jsonFields_jwk]

lemma parse_fields (authorization session : Value) :
    parseStoredUserState isDate (.object [("authorization",authorization),("session",session)]) =
      if !isNull authorization && !isAuthorizationState authorization then none
      else if !isNull session && !isStoredUserSession isDate session then none
      else some ⟨orUndefined authorization,orUndefined session⟩ := by
  simp [parseStoredUserState,ownFields,propertyOrNull,Value.field]

/-- A state whose session is valid or absent is read back, with `null` for the parts it lacks. -/
lemma parse_parts_iff (state : StoredUserState) :
    parseStoredUserState isDate (.object [("authorization",orNull state.parts.authorization),
        ("session",orNull state.parts.session)]) = some state.parts ↔
      ∀ s, state.session = some s → s.Valid isDate := by
  obtain ⟨authorization,session⟩ := state
  rw [parse_fields]
  have ha : (!isNull (orNull (StoredUserState.parts ⟨authorization,session⟩).authorization) &&
      !isAuthorizationState (orNull
        (StoredUserState.parts ⟨authorization,session⟩).authorization)) = false := by
    cases authorization with
    | none => rfl
    | some a =>
      have := isAuthorizationState_value a
      simp only [StoredUserState.parts,Option.map_some,Option.getD_some]
      rw [show orNull a.value = a.value from rfl,this]
      simp
  have hparts (a : Option AuthorizationState) : orUndefined (orNull
      ((a.map AuthorizationState.value).getD .undefined)) =
        (a.map AuthorizationState.value).getD .undefined := by
    cases a <;> rfl
  rw [ha,if_neg Bool.false_ne_true]
  cases session with
  | none =>
    refine iff_of_true ?_ fun s h => nomatch h
    exact congrArg (fun v => some (Parts.mk v .undefined)) (hparts authorization)
  | some s =>
    have hvalid : isStoredUserSession isDate s.value = true ↔ s.Valid isDate :=
      isStoredUserSession_value s
    have hnull : isNull s.value = false := rfl
    have hundefined : orUndefined s.value = s.value := rfl
    simp only [StoredUserState.parts,Option.map_some,Option.getD_some,hparts]
    rw [show orNull s.value = s.value from rfl,hnull,hundefined]
    by_cases hs : isStoredUserSession isDate s.value = true
    · simp [hs,hvalid.mp hs]
    · have hinvalid : ¬s.Valid isDate := fun h => hs (hvalid.mpr h)
      simp [hs,hinvalid]

/-- A structured clone keeps `undefined`, which is not a part that the parser knows. -/
lemma parse_clone_iff (state : StoredUserState) :
    parseStoredUserState isDate (.object [("authorization",state.parts.authorization),
        ("session",state.parts.session)]) = some state.parts ↔
      state.authorization.isSome = true ∧ ∃ s, state.session = some s ∧ s.Valid isDate := by
  obtain ⟨_ | a,_ | s⟩ := state
  · simp [parse_fields,StoredUserState.parts,isNull,isAuthorizationState,ownFields]
  · simp [parse_fields,StoredUserState.parts,isNull,isAuthorizationState,ownFields]
  · simp [parse_fields,StoredUserState.parts,isNull,isStoredUserSession,ownFields,
      isAuthorizationState_value]
  · have hboth : parseStoredUserState isDate (.object [("authorization",a.value),
        ("session",s.value)]) = some ⟨a.value,s.value⟩ ↔ ∀ t, some s = some t → t.Valid isDate :=
      parse_parts_iff ⟨some a,some s⟩
    simpa [StoredUserState.parts] using hboth

lemma jsonFields_cons {key : String} {v : Value} {fields : List (String × Value)}
    (h : v ≠ .undefined) : jsonFields ((key,v) :: fields) = (key,jsonCopy v) :: jsonFields fields := by
  cases v with
  | undefined => exact absurd rfl h
  | _ => rfl

/-- No part is `undefined` in the text. -/
lemma jsonCopy_parts (state : StoredUserState) :
    jsonCopy (.object [("authorization",orNull state.parts.authorization),
        ("session",orNull state.parts.session)]) =
      .object [("authorization",orNull state.parts.authorization),
        ("session",orNull state.parts.session)] := by
  obtain ⟨authorization,session⟩ := state
  have ha : orNull (StoredUserState.parts ⟨authorization,session⟩).authorization ≠ .undefined ∧
      jsonCopy (orNull (StoredUserState.parts ⟨authorization,session⟩).authorization) =
        orNull (StoredUserState.parts ⟨authorization,session⟩).authorization := by
    cases authorization with
    | none => exact ⟨Value.noConfusion,rfl⟩
    | some a => exact ⟨Value.noConfusion,jsonCopy_authorization a⟩
  have hs : orNull (StoredUserState.parts ⟨authorization,session⟩).session ≠ .undefined ∧
      jsonCopy (orNull (StoredUserState.parts ⟨authorization,session⟩).session) =
        orNull (StoredUserState.parts ⟨authorization,session⟩).session := by
    cases session with
    | none => exact ⟨Value.noConfusion,rfl⟩
    | some s => exact ⟨Value.noConfusion,jsonCopy_session s⟩
  rw [jsonCopy,jsonFields_cons ha.1,jsonFields_cons hs.1,jsonFields,ha.2,hs.2]

lemma parsed_eq_ok {value : Value} {parts : Parts} :
    parsed isDate (some value) = .ok parts ↔ parseStoredUserState isDate value = some parts := by
  rw [parsed]
  cases parseStoredUserState isDate value <;> simp

/-- A state is read back just when the store keeps it. -/
theorem load_save_iff (isDate : String → Bool) (store : UserStateStore) (state : StoredUserState) :
    (store.save state).load isDate = .ok state.parts ↔ store.Keeps isDate state := by
  cases store with
  | memory => exact iff_of_true rfl trivial
  | indexedDb =>
    rw [UserStateStore.save,UserStateStore.load,parsed_eq_ok]
    exact parse_clone_iff state
  | platform =>
    rw [UserStateStore.save]
    split
    · rename_i habsent
      obtain ⟨_ | a,_ | s⟩ := state <;> simp at habsent
      exact iff_of_true rfl fun s h => nomatch h
    · rw [UserStateStore.load,jsonCopy_parts,parsed_eq_ok]
      exact parse_parts_iff state

/-- A pending authorization, before there is a session. -/
def pending : StoredUserState := ⟨some ⟨"s","app://callback","v"⟩,none⟩

/-- IndexedDB cannot read it back. -/
theorem pending_lost : ¬∀ (isDate : String → Bool) (store : UserStateStore) (state : StoredUserState),
    (store.save state).load isDate = .ok state.parts := by
  intro h
  have hload := h (fun _ => true) (.indexedDb none) pending
  have hlost : (UserStateStore.save pending (.indexedDb none)).load (fun _ => true) =
      .error "Stored Linea user state is invalid" := rfl
  rw [hlost] at hload
  cases hload

end Linea.UserStates
