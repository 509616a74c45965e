import Linea.Base64
import Linea.JsonReading
import Linea.SafeIntegers
import Linea.TextBytes

/-! The proofs that requests of the user SDK carry: a signed text of the method, the URL, the time, the
nonce and the access token. The SDK makes them, and the platform verifies them. -/
namespace Linea.RequestProofs

open JsonText JsonText.Tree
open GithubApi (sized)
open TextBytes
open TextEdits (trim)

/-! ## Bytes -/

def alphabet : Text := ascii "ABCDEFGHIJKLMNOPQRSTUVWXYZabcdefghijklmnopqrstuvwxyz0123456789-_"

def base64Url : List UInt8 → Text
  | [] => []
  | [a] => [alphabet.getD (a.toNat >>> 2) 0,alphabet.getD ((a.toNat &&& 3) <<< 4 ||| 0 >>> 4) 0]
  | [a,b] =>
    [alphabet.getD (a.toNat >>> 2) 0,
      alphabet.getD ((a.toNat &&& 3) <<< 4 ||| b.toNat >>> 4) 0,
      alphabet.getD ((b.toNat &&& 15) <<< 2 ||| 0 >>> 6) 0]
  | a :: b :: c :: rest =>
    alphabet.getD (a.toNat >>> 2) 0 ::
      alphabet.getD ((a.toNat &&& 3) <<< 4 ||| b.toNat >>> 4) 0 ::
      alphabet.getD ((b.toNat &&& 15) <<< 2 ||| c.toNat >>> 6) 0 ::
      alphabet.getD (c.toNat &&& 63) 0 :: base64Url rest

/-! ## What lies outside -/

/-- A URL whose path is a list of segments; the host has the port. -/
structure Url where
  protocol : Text
  credentials : Text
  host : Text
  pathname : Text
  search : Text
  hash : Text

/-- `search` and `hash` set to the empty string. -/
def Url.cleared (u : Url) : Url := { u with search := [], hash := [] }

/-- A URL that `fetch` sends a request to. -/
def Url.Sent (u : Url) : Prop :=
  (u.protocol = ascii "http:" ∨ u.protocol = ascii "https:") ∧ u.credentials = []

/-- The platform's parts that are not in the repository: JSON, SHA-256, URLs, P-256 keys with their
coordinates, what a signature by a key is, and `jose`, which reads signatures with `decode`, gives with
`importJWK` a key that signatures are checked with, and of which `jwtVerify` is for `ES256` and the type
`dpop+jwt`. -/
structure Platform where
  printer : NumberPrinter
  parse : Text → Option Json
  sha256 : List UInt8 → List UInt8
  url : Text → Option Url
  href : Url → Text
  Key : Type
  x : Key → List UInt8
  y : Key → List UInt8
  verify : Key → List UInt8 → List UInt8 → Bool
  decode : Text → Option (List UInt8)
  decodeProtectedHeader : Text → Option Json
  importJWK : Json → Option Key
  jwtVerify : Text → Key → Option Json
  calculateJwkThumbprint : Json → Option Text

/-- The property of an object. -/
def property (v : Json) (key : String) : Option Json :=
  match v with
  | .obj fields => (fields.find? fun p => p.1 = ascii key).map Prod.snd
  | _ => none

/-- A property that is a string. -/
def string (v : Json) (key : String) : Option Text :=
  match property v key with
  | some (.leaf (.string s)) => some s
  | _ => none

/-- A property that is an integer. -/
def integer (v : Json) (key : String) : Option ℤ :=
  match property v key with
  | some (.leaf (.number bits)) => SafeIntegers.safeInteger bits
  | _ => none

def text (s : Text) : Json := .leaf (.string s)

section Platform
variable (P : Platform)

/-! ## The SDK's side -/

/-- The members of a `JsonWebKey` that are read. -/
structure PublicJwk where
  x : Option Text
  y : Option Text
  d : Option Text

structure DpopInput where
  publicJwk : PublicJwk
  method : Text
  url : Text
  nonce : Text
  accessToken : Option Text
  now : ℤ
  random : List UInt8
  /-- The range of dates. -/
  now_range : |now| ≤ 8640000000000000
  random_length : random.length = 32

/-- `toUpperCase` where the string is ASCII, as methods are. -/
def toUpperCase (s : Text) : Text := s.map fun u => if 97 ≤ u && u ≤ 122 then u - 32 else u

def truthy (s : Option Text) : Bool := s.any (· ≠ [])

/-- The URL without query and fragment. -/
def normalizedTarget (value : Text) : Option Text := (P.url value).map fun u => P.href u.cleared

def jwkValue (x y : Text) : Json :=
  .obj [(ascii "kty",text (ascii "EC")),(ascii "crv",text (ascii "P-256")),(ascii "x",text x),
    (ascii "y",text y)]

def headerValue (x y : Text) : Json :=
  .obj [(ascii "typ",text (ascii "dpop+jwt")),(ascii "alg",text (ascii "ES256")),
    (ascii "jwk",jwkValue x y)]

/-- The access token that a proof is made for; an empty one is none. -/
def tokenOf (accessToken : Option Text) : Option Text := accessToken.filter (· ≠ [])

def athFields (accessToken : Option Text) : List (Text × Json) :=
  match tokenOf accessToken with
  | some token => [(ascii "ath",text (base64Url (P.sha256 (utf8 token))))]
  | none => []

def payloadValue (input : DpopInput) (htu : Text) : Json :=
  .obj ([(ascii "jti",text (base64Url input.random)),
    (ascii "htm",text (toUpperCase input.method)),
    (ascii "htu",text htu),
    (ascii "iat",.leaf (.number (SafeIntegers.ofInt (input.now / 1000)))),
    (ascii "nonce",text input.nonce)] ++ athFields P input.accessToken)

/-- A part of a compact JWS. -/
def part (v : Json) : Text := base64Url (utf8 (stringify P.printer v))

def signingInput (input : DpopInput) : Option Text :=
  match input.publicJwk.x,input.publicJwk.y with
  | some x,some y =>
    if !truthy (some x) || !truthy (some y) || truthy input.publicJwk.d then none
    else (normalizedTarget P input.url).map fun htu =>
      part P (headerValue x y) ++ 46 :: part P (payloadValue P input htu)
  | _,_ => none

/-- `none` where it throws. -/
def createDpopProof (sign : List UInt8 → List UInt8) (input : DpopInput) : Option Text :=
  (signingInput P input).map fun data => data ++ 46 :: base64Url (sign (utf8 data))

/-! ## The platform's side -/

def isCoordinate (s : Text) : Bool := s.length = 43 && s.all fun u => alphabet.contains u

def publicJwkSchema (jwk : Json) : Option Json :=
  if string jwk "kty" = some (ascii "EC") ∧ string jwk "crv" = some (ascii "P-256") ∧
    (string jwk "x").any isCoordinate ∧ (string jwk "y").any isCoordinate ∧
      (property jwk "d").isNone then some jwk
  else none

/-- The key of a header that passes. -/
def protectedHeaderSchema (header : Json) : Option Json :=
  if string header "typ" = some (ascii "dpop+jwt") ∧ string header "alg" = some (ascii "ES256") then
    (property header "jwk").bind publicJwkSchema
  else none

structure ProofClaims where
  jti : Text
  htm : Text
  htu : Text
  iat : ℤ
  nonce : Text

/-- `z.url()`. -/
def zUrl (value : Text) : Option Text := (P.url (trim value)).map fun _ => trim value

def proofPayloadSchema (payload : Json) : Option ProofClaims := do
  let jti ← (string payload "jti").filter (sized 16 200)
  let htm ← (string payload "htm").filter fun s => 1 ≤ s.length
  let htu ← (string payload "htu").bind (zUrl P)
  let iat ← integer payload "iat"
  let nonce ← (string payload "nonce").filter (sized 32 256)
  return ⟨jti,htm,htu,iat,nonce⟩

def PROOF_CLOCK_SKEW_SECONDS : ℤ := 60

def hash (value : Text) : Text := Base64.url.encode (P.sha256 (utf8 value))

def hexHash (value : Text) : Text := toHex (P.sha256 (utf8 value))

def matchesHash (value expectedHexHash : Text) : Bool :=
  P.sha256 (utf8 value) = fromHex expectedHexHash

structure VerifyInput where
  proof : Text
  method : Text
  targetUrl : Text
  nonceHash : Text
  accessToken : Option Text
  expectedJkt : Option Text
  now : ℤ

structure VerifiedDpopProof where
  jkt : Text
  jtiHash : Text

/-- A proof is bound to the access token, and to none where there is none. -/
def matchesToken (payload : Json) (accessToken : Option Text) : Bool :=
  match accessToken with
  | some token => string payload "ath" = some (hash P token)
  | none => (property payload "ath").isNone

/-- `none` where it throws a `DpopProofError`. -/
def verifyDpopProof (input : VerifyInput) : Option VerifiedDpopProof := do
  let jwk ← (P.decodeProtectedHeader input.proof).bind protectedHeaderSchema
  let key ← P.importJWK jwk
  let payload ← P.jwtVerify input.proof key
  let claims ← proofPayloadSchema P payload
  guard (|input.now / 1000 - claims.iat| ≤ PROOF_CLOCK_SKEW_SECONDS)
  guard (claims.htm = toUpperCase input.method)
  let target ← normalizedTarget P claims.htu
  let expected ← normalizedTarget P input.targetUrl
  guard (target = expected)
  guard (matchesHash P claims.nonce input.nonceHash)
  let jkt ← P.calculateJwkThumbprint jwk
  guard (input.expectedJkt.all (jkt = ·))
  guard (matchesToken P payload input.accessToken)
  return ⟨jkt,hash P claims.jti⟩

/-! ## What is assumed -/

/-- The object that a part of a compact JWS stands for. -/
def decodePart (encoded : Text) : Option Json :=
  (Base64.url.decode encoded).bind fun bytes => P.parse (decodeText bytes)

/-- The text that is hashed for the thumbprint of a key. -/
def thumbprintValue (x y : Text) : Json :=
  .obj [(ascii "crv",text (ascii "P-256")),(ascii "kty",text (ascii "EC")),(ascii "x",text x),
    (ascii "y",text y)]

def thumbprint (x y : Text) : Text := hash P (stringify P.printer (thumbprintValue x y))

/-- What the code relies on, as it is documented. -/
structure Documented : Prop where
  coordinates : ∀ key, (P.x key).length = 32 ∧ (P.y key).length = 32
  reads : ∀ v, Kept v → P.parse (stringify P.printer v) = some v
  /-- What a URL of `fetch` is written as is parsed to it. -/
  href : ∀ value u, P.url value = some u → u.Sent →
    trim (P.href u.cleared) = P.href u.cleared ∧ P.url (P.href u.cleared) = some u.cleared
  header : ∀ proof h p s fields, proof.splitOn 46 = [h,p,s] → decodePart P h = some (.obj fields) →
    P.decodeProtectedHeader proof = some (.obj fields)
  decodes : ∀ bytes, P.decode (Base64.url.encode bytes) = some bytes
  imports : ∀ key,
    P.importJWK (jwkValue (Base64.url.encode (P.x key)) (Base64.url.encode (P.y key))) = some key
  /-- A key without a private part is read by its coordinates, whatever else it says of itself. -/
  imported : ∀ jwk key key', string jwk "kty" = some (ascii "EC") →
    string jwk "crv" = some (ascii "P-256") → property jwk "d" = none →
    string jwk "x" = some (Base64.url.encode (P.x key)) →
    string jwk "y" = some (Base64.url.encode (P.y key)) → P.importJWK jwk = some key' → key' = key
  verifies : ∀ proof h p s header fields key signature, proof.splitOn 46 = [h,p,s] →
    decodePart P h = some header → string header "typ" = some (ascii "dpop+jwt") →
    string header "alg" = some (ascii "ES256") → property header "crit" = none →
    decodePart P p = some (.obj fields) → (integer (.obj fields) "iat").isSome →
    property (.obj fields) "exp" = none → property (.obj fields) "nbf" = none →
    P.decode s = some signature → P.verify key (utf8 (h ++ 46 :: p)) signature = true →
      P.jwtVerify proof key = some (.obj fields)
  verified : ∀ proof key payload, P.jwtVerify proof key = some payload → ∃ h p s signature,
    proof.splitOn 46 = [h,p,s] ∧ P.decode s = some signature ∧
      P.verify key (utf8 (h ++ 46 :: p)) signature = true ∧
      ∀ header v, decodePart P h = some header → property header "crit" = none →
        decodePart P p = some v → payload = v
  thumbprint : ∀ jwk x y, string jwk "kty" = some (ascii "EC") →
    string jwk "crv" = some (ascii "P-256") → string jwk "x" = some x → string jwk "y" = some y →
    x ≠ [] → y ≠ [] → P.calculateJwkThumbprint jwk = some (thumbprint P x y)

/-- A proof is no forgery: where its signature is one by the key, its text is that of a proof that the
holder of the key made. -/
def Unforged (key : P.Key) (made : Set DpopInput) (proof : Text) : Prop :=
  ∀ h p s signature, proof.splitOn 46 = [h,p,s] → P.decode s = some signature →
    P.verify key (utf8 (h ++ 46 :: p)) signature = true →
      ∃ input ∈ made, ∃ t, signingInput P input = some t ∧ utf8 (h ++ 46 :: p) = utf8 t

/-! ## What is promised -/

def opaqueValue (random : List UInt8) : Text := Base64.url.encode random

/-- The nonces that the platform issues. -/
def IssuedNonce (nonce : Text) : Prop :=
  ∃ random : List UInt8, random.length = 32 ∧ nonce = opaqueValue random

/-- The access tokens that the platform issues. -/
def IssuedToken (token : Text) : Prop :=
  ∃ random : List UInt8, random.length = 32 ∧ token = ascii "lnu_" ++ opaqueValue random

/-- A public key as it is exported. -/
def exported (key : P.Key) : PublicJwk :=
  ⟨some (Base64.url.encode (P.x key)),some (Base64.url.encode (P.y key)),none⟩

/-- The thumbprint of a key. -/
def jktOf (key : P.Key) : Text := thumbprint P (Base64.url.encode (P.x key)) (Base64.url.encode (P.y key))

/-- A proof that is made with a key for a request is accepted for it, where the clocks differ by at most
60 seconds and the platform sees the scheme, host and path. -/
def Accepts : Prop :=
  ∀ (key : P.Key) (sign : List UInt8 → List UInt8) (input : DpopInput) (targetUrl : Text) (u v : Url)
    (expectedJkt : Option Text) (now : ℤ),
    input.publicJwk = exported P key →
    (∀ data, signingInput P input = some data → P.verify key (utf8 data) (sign (utf8 data)) = true) →
    input.method ≠ [] → IssuedNonce input.nonce → (∀ token ∈ input.accessToken, IssuedToken token) →
    P.url input.url = some u → u.Sent → P.url targetUrl = some v → v.Sent →
    v.protocol = u.protocol → v.host = u.host → v.pathname = u.pathname →
    (∀ jkt ∈ expectedJkt, jkt = jktOf P key) →
    |now - input.now| ≤ 60000 →
    ∃ proof jtiHash, createDpopProof P sign input = some proof ∧
      verifyDpopProof P
        { proof
          method := input.method
          targetUrl
          nonceHash := hexHash P input.nonce
          accessToken := input.accessToken
          expectedJkt
          now } = some ⟨jktOf P key,jtiHash⟩

/-- A proof that is accepted for a session was made by the holder of the session's key, for the method,
the URL up to query and fragment, the nonce and the access token. -/
def Binds : Prop :=
  ∀ (key : P.Key) (made : Set DpopInput) (input : VerifyInput) (nonce : Text)
    (verified : VerifiedDpopProof),
    Unforged P key made input.proof → (∀ m ∈ made, ∀ u, P.url m.url = some u → u.Sent) →
    IssuedNonce nonce → input.nonceHash = hexHash P nonce →
    (∀ token ∈ input.accessToken, IssuedToken token) → input.expectedJkt = some (jktOf P key) →
    verifyDpopProof P input = some verified →
    ∃ m ∈ made, toUpperCase m.method = toUpperCase input.method ∧
      (∃ target, normalizedTarget P m.url = some target ∧
        normalizedTarget P input.targetUrl = some target) ∧
      m.nonce = nonce ∧ tokenOf m.accessToken = input.accessToken

end Platform

/-! ## Bytes and texts -/

lemma and_three (n : ℕ) : n &&& 3 = n % 4 := Nat.and_two_pow_sub_one_eq_mod n 2

lemma and_fifteen (n : ℕ) : n &&& 15 = n % 16 := Nat.and_two_pow_sub_one_eq_mod n 4

lemma and_sixtythree (n : ℕ) : n &&& 63 = n % 64 := Nat.and_two_pow_sub_one_eq_mod n 6

lemma joined_four {m n : ℕ} (hn : n < 256) : m <<< 4 ||| n >>> 4 = m * 16 + n / 16 := by
  have hlt : n >>> 4 < 2 ^ 4 := by
    rw [Nat.shiftRight_eq_div_pow]
    omega
  rw [← Nat.shiftLeft_add_eq_or_of_lt hlt,Nat.shiftLeft_eq,Nat.shiftRight_eq_div_pow]

lemma joined_two {m n : ℕ} (hn : n < 256) : m <<< 2 ||| n >>> 6 = m * 4 + n / 64 := by
  have hlt : n >>> 6 < 2 ^ 2 := by
    rw [Nat.shiftRight_eq_div_pow]
    omega
  rw [← Nat.shiftLeft_add_eq_or_of_lt hlt,Nat.shiftLeft_eq,Nat.shiftRight_eq_div_pow]

/-- The SDK's encoding is the one with the alphabet for URLs and without padding. -/
lemma base64Url_eq (bytes : List UInt8) : base64Url bytes = Base64.url.encode bytes := by
  have hquarter (n : ℕ) : n >>> 2 = n / 4 := Nat.shiftRight_eq_div_pow n 2
  induction bytes using base64Url.induct with
  | case1 => rfl
  | case2 a =>
    rw [base64Url,hquarter,and_three,joined_four (by decide)]
    rfl
  | case3 a b =>
    rw [base64Url,hquarter,and_three,and_fifteen,joined_four b.toNat_lt,joined_two (by decide)]
    rfl
  | case4 a b c rest ih =>
    rw [base64Url,hquarter,and_three,and_fifteen,and_sixtythree,joined_four b.toNat_lt,
      joined_two c.toNat_lt,ih]
    rfl

/-- Decoding inverts the SDK's encoding, whatever the number of bytes. -/
theorem decode_base64Url (bytes : List UInt8) : Base64.url.decode (base64Url bytes) = some bytes := by
  rw [base64Url_eq,Base64.Alphabet.decode_encode]

lemma encode_ascii (bytes : List UInt8) : Ascii (Base64.url.encode bytes) :=
  fun u hu => Base64.url_ascii (Base64.Alphabet.encode_letters bytes u hu)

lemma encode_noDot (bytes : List UInt8) : 46 ∉ Base64.url.encode bytes :=
  fun hmem => Base64.url_noDot (Base64.Alphabet.encode_letters bytes 46 hmem)

/-! ## JSON -/

section Parts
variable {P : Platform}

/-- An object is read back from its part. -/
lemma decodePart_part (hP : Documented P) {fields : List (Text × Json)} (h : Kept (.obj fields)) :
    decodePart P (part P (.obj fields)) = some (.obj fields) := by
  have hmark : (scalars (stringify P.printer (.obj fields))).head? ≠ some Utf8Decoder.BYTE_ORDER_MARK := by
    have hbrace : ∀ rest, (scalars (123 :: rest)).head? = some '{' := by
      intro rest
      cases rest <;> rfl
    have hstart : ∃ rest, stringify P.printer (.obj fields) = 123 :: rest := ⟨_,rfl⟩
    obtain ⟨rest,hrest⟩ := hstart
    rw [hrest,hbrace rest]
    decide
  rw [decodePart,part,decode_base64Url,Option.bind_some,
    decodeText_utf8 (stringify_paired P.printer _) hmark]
  exact hP.reads _ h

lemma kept_text (s : Text) : Kept (text s) := .string s

lemma header_kept (x y : Text) : Kept (headerValue x y) := by
  have hjwk : Kept (.obj [(ascii "kty",text (ascii "EC")),(ascii "crv",text (ascii "P-256")),
      (ascii "x",text x),(ascii "y",text y)]) := by
    refine .obj ?_ ?_ ?_
    · change [ascii "kty",ascii "crv",ascii "x",ascii "y"].Nodup
      decide
    · simp only [List.forall_mem_cons]
      exact ⟨rfl,rfl,rfl,rfl,List.forall_mem_nil _⟩
    · simp only [List.forall_mem_cons]
      exact ⟨kept_text _,kept_text _,kept_text _,kept_text _,List.forall_mem_nil _⟩
  refine .obj ?_ ?_ ?_
  · change [ascii "typ",ascii "alg",ascii "jwk"].Nodup
    decide
  · simp only [List.forall_mem_cons]
    exact ⟨rfl,rfl,rfl,List.forall_mem_nil _⟩
  · simp only [List.forall_mem_cons]
    exact ⟨kept_text _,kept_text _,hjwk,List.forall_mem_nil _⟩

lemma iat_safe {now : ℤ} (h : |now| ≤ 8640000000000000) : (now / 1000).natAbs < 2 ^ 53 := by
  rw [abs_le] at h
  omega

lemma payload_kept (input : DpopInput) (htu : Text) : Kept (payloadValue P input htu) := by
  have hlt := iat_safe input.now_range
  have hsafe := SafeIntegers.safeInteger_ofInt hlt
  have hiat : Kept (.leaf (.number (SafeIntegers.ofInt (input.now / 1000)))) :=
    .number (SafeIntegers.safeInteger_finite hsafe) (SafeIntegers.ofInt_ne_minusZero hlt)
  rw [payloadValue,athFields]
  cases tokenOf input.accessToken with
  | none =>
    refine .obj ?_ ?_ ?_
    · change [ascii "jti",ascii "htm",ascii "htu",ascii "iat",ascii "nonce"].Nodup
      decide
    · simp only [List.append_nil,List.forall_mem_cons]
      exact ⟨rfl,rfl,rfl,rfl,rfl,List.forall_mem_nil _⟩
    · simp only [List.append_nil,List.forall_mem_cons]
      exact ⟨kept_text _,kept_text _,kept_text _,hiat,kept_text _,List.forall_mem_nil _⟩
  | some token =>
    refine .obj ?_ ?_ ?_
    · change [ascii "jti",ascii "htm",ascii "htu",ascii "iat",ascii "nonce",ascii "ath"].Nodup
      decide
    · simp only [List.cons_append,List.nil_append,List.forall_mem_cons]
      exact ⟨rfl,rfl,rfl,rfl,rfl,rfl,List.forall_mem_nil _⟩
    · simp only [List.cons_append,List.nil_append,List.forall_mem_cons]
      exact ⟨kept_text _,kept_text _,kept_text _,hiat,kept_text _,kept_text _,List.forall_mem_nil _⟩

/-! ## What passes the checks -/

lemma decode_header (hP : Documented P) (x y : Text) :
    decodePart P (part P (headerValue x y)) = some (headerValue x y) :=
  decodePart_part hP (header_kept x y)

lemma decode_payload (hP : Documented P) (input : DpopInput) (htu : Text) :
    decodePart P (part P (payloadValue P input htu)) = some (payloadValue P input htu) :=
  decodePart_part hP (payload_kept input htu)

lemma coordinate_ok {bytes : List UInt8} (h : bytes.length = 32) :
    isCoordinate (Base64.url.encode bytes) = true := by
  rw [isCoordinate,Bool.and_eq_true,List.all_eq_true,Base64.Alphabet.encode_length,h]
  refine ⟨rfl,fun u hu => ?_⟩
  rw [List.contains_iff_mem]
  exact Base64.Alphabet.encode_letters bytes u hu

lemma coordinate_nonempty {x : Text} (h : isCoordinate x = true) : x ≠ [] := by
  rintro rfl
  cases h

lemma header_passes {x y : Text} (hx : isCoordinate x = true) (hy : isCoordinate y = true) :
    protectedHeaderSchema (headerValue x y) = some (jwkValue x y) := by
  have hjwk : publicJwkSchema (jwkValue x y) = some (jwkValue x y) := if_pos ⟨rfl,rfl,hx,hy,rfl⟩
  rw [protectedHeaderSchema,if_pos ⟨rfl,rfl⟩]
  exact hjwk

/-- What is known of a key that passes. -/
lemma jwk_of_passes {header jwk : Json} (h : protectedHeaderSchema header = some jwk) :
    string jwk "kty" = some (ascii "EC") ∧ string jwk "crv" = some (ascii "P-256") ∧
      property jwk "d" = none ∧
      ∃ x y, string jwk "x" = some x ∧ string jwk "y" = some y ∧ x ≠ [] ∧ y ≠ [] := by
  rw [protectedHeaderSchema] at h
  split at h
  · obtain ⟨v,-,hv⟩ := Option.bind_eq_some_iff.mp h
    rw [publicJwkSchema] at hv
    split at hv
    · next hok =>
      obtain rfl := Option.some.inj hv
      obtain ⟨hkty,hcrv,hx,hy,hd⟩ := hok
      obtain ⟨x,hx,hcoordinate⟩ := (Option.any_eq_true _ _).mp hx
      obtain ⟨y,hy,hcoordinate'⟩ := (Option.any_eq_true _ _).mp hy
      exact ⟨hkty,hcrv,Option.isNone_iff_eq_none.mp hd,x,y,hx,hy,coordinate_nonempty hcoordinate,
        coordinate_nonempty hcoordinate'⟩
    · cases hv
  · cases h

lemma sized_encode {bytes : List UInt8} (h : bytes.length = 32) {least most : ℕ} (hleast : least ≤ 43)
    (hmost : 43 ≤ most) : sized least most (Base64.url.encode bytes) = true := by
  rw [sized,Base64.Alphabet.encode_length,h,Bool.and_eq_true]
  exact ⟨decide_eq_true hleast,decide_eq_true hmost⟩

/-- The claims of a payload: those it was made of. -/
lemma claims_eq {input : DpopInput} {htu : Text} {claims : ProofClaims}
    (h : proofPayloadSchema P (payloadValue P input htu) = some claims) :
    zUrl P htu = some claims.htu ∧ claims.htm = toUpperCase input.method ∧
      claims.nonce = input.nonce := by
  simp only [proofPayloadSchema,Option.bind_eq_bind,Option.bind_eq_some_iff,Option.filter_eq_some_iff] at h
  obtain ⟨jti,-,htm,⟨hhtm,-⟩,value,⟨htu',hhtu,hvalue⟩,iat,-,nonce,⟨hnonce,-⟩,hclaims⟩ := h
  obtain rfl := Option.some.inj hclaims
  obtain rfl : htu = htu' := Option.some.inj hhtu
  exact ⟨hvalue,(Option.some.inj hhtm).symm,(Option.some.inj hnonce).symm⟩

/-- The claims of a payload that passes. -/
lemma payload_passes {input : DpopInput} {htu : Text} (hmethod : input.method ≠ [])
    (hnonce : IssuedNonce input.nonce) (hhtu : zUrl P htu = some htu) :
    proofPayloadSchema P (payloadValue P input htu) =
      some ⟨base64Url input.random,toUpperCase input.method,htu,input.now / 1000,input.nonce⟩ := by
  have hjti : (string (payloadValue P input htu) "jti").filter (sized 16 200) =
      some (base64Url input.random) := by
    change (some (base64Url input.random)).filter _ = _
    rw [base64Url_eq,Option.filter_some,if_pos (sized_encode input.random_length (by decide) (by decide))]
  have hhtm : (string (payloadValue P input htu) "htm").filter (fun s => 1 ≤ s.length) =
      some (toUpperCase input.method) := by
    have hlength : 1 ≤ (toUpperCase input.method).length := by
      rw [toUpperCase,List.length_map]
      exact List.length_pos_iff.mpr hmethod
    change (some (toUpperCase input.method)).filter _ = _
    rw [Option.filter_some,if_pos (decide_eq_true hlength)]
  have hurl : (string (payloadValue P input htu) "htu").bind (zUrl P) = some htu := hhtu
  have hiat : integer (payloadValue P input htu) "iat" = some (input.now / 1000) :=
    SafeIntegers.safeInteger_ofInt (iat_safe input.now_range)
  have hissued : (string (payloadValue P input htu) "nonce").filter (sized 32 256) =
      some input.nonce := by
    obtain ⟨random,hlength,hvalue⟩ := hnonce
    change (some input.nonce).filter _ = _
    rw [hvalue,opaqueValue,Option.filter_some,
      if_pos (sized_encode hlength (by decide) (by decide))]
  rw [proofPayloadSchema,hjti,hhtm,hurl,hiat,hissued]
  rfl

lemma payload_ath (input : DpopInput) (htu : Text) : property (payloadValue P input htu) "ath" =
    (tokenOf input.accessToken).map fun token => text (base64Url (P.sha256 (utf8 token))) := by
  rw [payloadValue,athFields]
  cases tokenOf input.accessToken <;> rfl

lemma token_ascii {token : Text} (h : IssuedToken token) : Ascii token ∧ token ≠ [] := by
  obtain ⟨random,-,rfl⟩ := h
  have hprefix : (ascii "lnu_").all (fun u => u.toNat < 128) = true := by decide
  refine ⟨fun u hu => ?_,List.append_ne_nil_of_left_ne_nil (by decide) _⟩
  rcases List.mem_append.mp hu with hu | hu
  · exact of_decide_eq_true (List.all_eq_true.mp hprefix u hu)
  · exact encode_ascii random u hu

/-- A payload matches the access token that it was made for, and no other. -/
lemma matchesToken_iff (hsha : Function.Injective P.sha256) (input : DpopInput) (htu : Text)
    {accessToken : Option Text} (htoken : ∀ token ∈ accessToken, IssuedToken token) :
    matchesToken P (payloadValue P input htu) accessToken = true ↔
      tokenOf input.accessToken = accessToken := by
  have hath := payload_ath (P := P) input htu
  cases accessToken with
  | none =>
    rw [matchesToken,hath,Option.isNone_map,Option.isNone_iff_eq_none]
  | some token =>
    rw [matchesToken,string,hath]
    cases tokenOf input.accessToken with
    | none => simp
    | some made =>
      change decide (some (base64Url (P.sha256 (utf8 made))) = some (hash P token)) = true ↔ _
      rw [decide_eq_true_eq,Option.some.injEq,Option.some.injEq,base64Url_eq,hash]
      constructor
      · intro h
        exact (token_ascii (htoken token rfl)).1.utf8_inj (hsha (Base64.Alphabet.encode_injective h))
      · rintro rfl
        rfl

lemma thumbprint_kept (x y : Text) : Kept (thumbprintValue x y) := by
  refine .obj ?_ ?_ ?_
  · change [ascii "crv",ascii "kty",ascii "x",ascii "y"].Nodup
    decide
  · simp only [List.forall_mem_cons]
    exact ⟨rfl,rfl,rfl,rfl,List.forall_mem_nil _⟩
  · simp only [List.forall_mem_cons]
    exact ⟨kept_text _,kept_text _,kept_text _,kept_text _,List.forall_mem_nil _⟩

lemma thumbprint_inj (hsha : Function.Injective P.sha256) {x y x' y' : Text}
    (h : thumbprint P x y = thumbprint P x' y') : x = x' ∧ y = y' := by
  have htext := utf8_inj (stringify_paired P.printer _) (stringify_paired P.printer _)
    (hsha (Base64.Alphabet.encode_injective h))
  have hvalue := (thumbprint_kept x y).stringify_inj (thumbprint_kept x' y') htext
  simpa [thumbprintValue,text] using hvalue

/-- Two parts that are joined by a dot are those of the same text without dots. -/
lemma two_parts {h p h' p' : Text} (heq : h ++ 46 :: p = h' ++ 46 :: p') (hh : 46 ∉ h') (hp : 46 ∉ p') :
    h = h' ∧ p = p' := by
  have hsplit := congrArg (List.splitOn 46) heq
  rw [List.splitOn_append_cons_self,List.splitOn_append_cons_self,List.splitOn_eq_singleton hh,
    List.splitOn_eq_singleton hp] at hsplit
  have hlength := congrArg List.length hsplit
  rw [List.length_append,List.length_append,List.length_singleton,List.length_singleton] at hlength
  have hne := List.length_pos_iff.mpr (List.splitOn_ne_nil 46 h)
  have hne' := List.length_pos_iff.mpr (List.splitOn_ne_nil 46 p)
  obtain ⟨hfirst,hsecond⟩ := List.append_inj hsplit (by rw [List.length_singleton]; omega)
  have hwhole := congrArg (List.intercalate [46]) hfirst
  have hwhole' := congrArg (List.intercalate [46]) hsecond
  rw [List.intercalate_splitOn] at hwhole hwhole'
  exact ⟨hwhole.trans (List.append_nil h'),hwhole'.trans (List.append_nil p')⟩

lemma part_noDot (v : Json) : 46 ∉ part P v := by
  rw [part,base64Url_eq]
  exact encode_noDot _

lemma compact_parts (v w : Json) (signature : List UInt8) :
    (part P v ++ 46 :: part P w ++ 46 :: base64Url signature).splitOn 46 =
      [part P v,part P w,base64Url signature] := by
  have hdot : 46 ∉ base64Url signature := by
    rw [base64Url_eq]
    exact encode_noDot signature
  rw [List.append_assoc,List.cons_append,List.splitOn_append_cons_self_of_not_mem (part_noDot v),
    List.splitOn_append_cons_self_of_not_mem (part_noDot w),List.splitOn_eq_singleton hdot]

/-- A text that was signed for a proof. -/
lemma signingInput_parts {input : DpopInput} {data : Text} (h : signingInput P input = some data) :
    ∃ x y htu, input.publicJwk.x = some x ∧ input.publicJwk.y = some y ∧
      normalizedTarget P input.url = some htu ∧
      data = part P (headerValue x y) ++ 46 :: part P (payloadValue P input htu) := by
  rw [signingInput] at h
  split at h
  · next x y hx hy =>
    split at h
    · cases h
    · obtain ⟨htu,hhtu,rfl⟩ := Option.map_eq_some_iff.mp h
      exact ⟨x,y,htu,hx,hy,hhtu,rfl⟩
  · cases h

lemma part_ascii (v : Json) : Ascii (part P v) := by
  rw [part,base64Url_eq]
  exact encode_ascii _

lemma parts_ascii (v w : Json) : Ascii (part P v ++ 46 :: part P w) := by
  intro u hu
  rcases List.mem_append.mp hu with hu | hu
  · exact part_ascii v u hu
  · rcases List.mem_cons.mp hu with rfl | hu
    · decide
    · exact part_ascii w u hu

/-! ## Acceptance -/

lemma guard_iff {p : Prop} [Decidable p] {u : Unit} : (guard p : Option Unit) = some u ↔ p := by
  by_cases h : p <;> simp [guard,h]

/-- What the URL of a proof is written as. -/
lemma target_stable (hP : Documented P) {value htu : Text} (h : normalizedTarget P value = some htu)
    (hsent : ∀ u, P.url value = some u → u.Sent) :
    zUrl P htu = some htu ∧ normalizedTarget P htu = some htu := by
  obtain ⟨u,hu,rfl⟩ := Option.map_eq_some_iff.mp h
  obtain ⟨htrim,hread⟩ := hP.href value u hu (hsent u hu)
  constructor
  · rw [zUrl,htrim,hread]
    rfl
  · rw [normalizedTarget,hread]
    rfl

/-- The times in seconds differ by no more than the clocks. -/
lemma clocks_close {now made : ℤ} (h : |now - made| ≤ 60000) :
    |now / 1000 - made / 1000| ≤ PROOF_CLOCK_SKEW_SECONDS := by
  rw [abs_le] at h
  rw [PROOF_CLOCK_SKEW_SECONDS,abs_le]
  omega

lemma signingInput_made {key : P.Key} {input : DpopInput} {htu : Text}
    (hcoordinates : (P.x key).length = 32 ∧ (P.y key).length = 32)
    (hjwk : input.publicJwk = exported P key) (hhtu : normalizedTarget P input.url = some htu) :
    signingInput P input = some (part P (headerValue (Base64.url.encode (P.x key)) (Base64.url.encode (P.y key))) ++
      46 :: part P (payloadValue P input htu)) := by
  have htruthy : ∀ {bytes : List UInt8}, bytes.length = 32 → truthy (some (Base64.url.encode bytes)) = true := by
    intro bytes hlength
    refine decide_eq_true fun hnil => ?_
    have hzero := congrArg List.length hnil
    rw [Base64.Alphabet.encode_length,hlength] at hzero
    exact absurd hzero (by decide)
  rw [signingInput,hjwk,exported]
  dsimp only
  rw [htruthy hcoordinates.1,htruthy hcoordinates.2,hhtu]
  rfl

theorem accepts (hP : Documented P) (hsha : Function.Injective P.sha256) : Accepts P := by
  intro key sign input targetUrl u v expectedJkt now hjwk hsign hmethod hnonce htoken hu husent hv hvsent
    hprotocol hhost hpathname hjkt hclock
  have hcoordinates := hP.coordinates key
  have hhtu : normalizedTarget P input.url = some (P.href u.cleared) := by
    rw [normalizedTarget,hu]
    rfl
  have hexpected : normalizedTarget P targetUrl = some (P.href u.cleared) := by
    have hcleared : v.cleared = u.cleared := by
      rw [Url.cleared,Url.cleared,hprotocol,hhost,hpathname,husent.2,hvsent.2]
    rw [normalizedTarget,hv,← hcleared]
    rfl
  obtain ⟨hzUrl,htarget⟩ := target_stable hP hhtu fun w hw => Option.some.inj (hu.symm.trans hw) ▸ husent
  have hdata := signingInput_made hcoordinates hjwk hhtu
  have hsigned := hsign _ hdata
  have hheader := decode_header hP (Base64.url.encode (P.x key)) (Base64.url.encode (P.y key))
  have hpayload := decode_payload hP input (P.href u.cleared)
  have hsplit := compact_parts (P := P) (headerValue (Base64.url.encode (P.x key)) (Base64.url.encode (P.y key)))
    (payloadValue P input (P.href u.cleared)) (sign (utf8 (part P (headerValue (Base64.url.encode (P.x key))
      (Base64.url.encode (P.y key))) ++ 46 :: part P (payloadValue P input (P.href u.cleared)))))
  have hclaims := payload_passes (P := P) hmethod hnonce hzUrl
  have hiat : (integer (payloadValue P input (P.href u.cleared)) "iat").isSome = true := by
    have hsafe : integer (payloadValue P input (P.href u.cleared)) "iat" = some (input.now / 1000) :=
      SafeIntegers.safeInteger_ofInt (iat_safe input.now_range)
    rw [hsafe]
    rfl
  have hexp : property (payloadValue P input (P.href u.cleared)) "exp" = none ∧
      property (payloadValue P input (P.href u.cleared)) "nbf" = none := by
    rw [payloadValue,athFields]
    cases tokenOf input.accessToken <;> exact ⟨rfl,rfl⟩
  have hdecoded := hP.header _ _ _ _ _ hsplit hheader
  have hsignature (bytes : List UInt8) : P.decode (base64Url bytes) = some bytes := by
    rw [base64Url_eq,hP.decodes]
  have hverified := hP.verifies _ _ _ _ _ _ key _ hsplit hheader rfl rfl rfl hpayload hiat hexp.1 hexp.2
    (hsignature _) hsigned
  have htoken' : tokenOf input.accessToken = input.accessToken := by
    cases haccess : input.accessToken with
    | none => rfl
    | some token => exact if_pos (decide_eq_true (token_ascii (htoken token haccess)).2)
  refine ⟨_,hash P (base64Url input.random),congrArg (Option.map _) hdata,?_⟩
  have hx := coordinate_ok hcoordinates.1
  have hy := coordinate_ok hcoordinates.2
  have hpasses := header_passes hx hy
  simp only [verifyDpopProof,Option.bind_eq_bind,Option.bind_eq_some_iff,guard_iff]
  exact ⟨_,⟨_,hdecoded,hpasses⟩,key,hP.imports key,_,hverified,_,hclaims,(),
    clocks_close hclock,(),rfl,_,htarget,_,hexpected,(),rfl,(),
    decide_eq_true (fromHex_toHex _).symm,_,
    hP.thumbprint _ _ _ rfl rfl rfl rfl (coordinate_nonempty hx) (coordinate_nonempty hy),(),
    Option.all_eq_true _ _ |>.mpr fun jkt h => decide_eq_true (hjkt jkt h).symm,(),
    (matchesToken_iff hsha input _ htoken).mpr htoken',rfl⟩

/-! ## Soundness -/

theorem binds (hP : Documented P) (hsha : Function.Injective P.sha256) : Binds P := by
  intro key made input nonce verified hunforged hsent hnonce hhash htoken hjkt h
  simp only [verifyDpopProof,Option.bind_eq_bind,Option.bind_eq_some_iff,guard_iff] at h
  obtain ⟨jwk,⟨header,-,hpasses⟩,imported,himported,payload,hverify,claims,hclaims,-,-,-,hmethod,
    target,htarget,expected,hexpected,-,heq,-,hmatches,jkt,hthumbprint,-,hsame,-,hath,-⟩ := h
  -- The thumbprint makes the key of the header that of the session.
  obtain ⟨hkty,hcrv,hd,x,y,hx,hy,hxne,hyne⟩ := jwk_of_passes hpasses
  rw [hP.thumbprint jwk x y hkty hcrv hx hy hxne hyne,Option.some.injEq] at hthumbprint
  rw [hjkt,Option.all_some,decide_eq_true_eq,← hthumbprint] at hsame
  obtain ⟨rfl,rfl⟩ := thumbprint_inj hsha hsame
  obtain rfl := hP.imported jwk key imported hkty hcrv hd hx hy himported
  -- What was signed with it is a proof of its holder.
  obtain ⟨h,p,s,signature,hsplit,hsignature,hsigned,hread⟩ := hP.verified _ _ _ hverify
  obtain ⟨m,hm,data,hdata,hbytes⟩ := hunforged _ _ _ _ hsplit hsignature hsigned
  obtain ⟨mx,my,htu,-,-,hhtu,rfl⟩ := signingInput_parts hdata
  obtain ⟨rfl,rfl⟩ := two_parts ((parts_ascii _ _).utf8_inj hbytes) (part_noDot _) (part_noDot _)
  obtain rfl := hread _ _ (decode_header hP mx my) rfl (decode_payload hP m htu)
  -- Its claims are those of the request.
  obtain ⟨hzUrl,hhtm,hclaimed⟩ := claims_eq hclaims
  obtain ⟨hzUrl',hstable⟩ := target_stable hP hhtu (hsent m hm)
  rw [hzUrl',Option.some.injEq] at hzUrl
  rw [← hzUrl,hstable,Option.some.injEq] at htarget
  refine ⟨m,hm,hhtm.symm.trans hmethod,⟨htu,hhtu,?_⟩,?_,?_⟩
  · rw [hexpected,← heq,htarget]
  · rw [matchesHash,hhash,hexHash,fromHex_toHex,decide_eq_true_eq,hclaimed] at hmatches
    obtain ⟨random,-,rfl⟩ := hnonce
    exact (encode_ascii random).utf8_inj (hsha hmatches)
  · exact (matchesToken_iff hsha m htu htoken).mp hath

end Parts

/-- Proofs are accepted for the requests that they were made for, those that are accepted for a session
were made by the holder of its key for the request, and the SDK's encoding is inverted by decoding. -/
theorem request_proofs (P : Platform) (hP : Documented P) (hsha : Function.Injective P.sha256) :
    Accepts P ∧ Binds P ∧ ∀ bytes, Base64.url.decode (base64Url bytes) = some bytes :=
  ⟨accepts hP hsha,binds hP hsha,decode_base64Url⟩

/-! ## A request -/

/-- The base point of the curve. -/
def sampleX : List UInt8 :=
  [107,23,209,242,225,44,66,71,248,188,230,229,99,164,64,242,119,3,125,129,45,235,51,160,244,161,57,69,
    216,152,194,150]

def sampleY : List UInt8 :=
  [79,227,66,226,254,26,127,155,142,231,235,74,124,15,158,22,43,206,51,87,107,49,94,206,203,182,64,104,
    55,191,81,245]

def sampleNonce : Text := opaqueValue (List.replicate 32 1)

def sampleToken : Text := ascii "lnu_" ++ opaqueValue (List.replicate 32 2)

/-- What is hashed for the sample, with its digests. -/
def digests : List (List UInt8 × List UInt8) :=
  [(utf8 sampleNonce,[86,213,250,115,51,246,215,71,219,66,194,57,64,126,93,164,195,47,76,121,243,93,9,43,
      19,79,211,90,64,45,156,92]),
    (utf8 sampleToken,[78,96,43,32,183,99,93,165,182,97,150,135,235,226,0,46,57,188,246,152,57,247,204,50,
      120,119,145,125,90,131,46,110]),
    (utf8 (stringify samplePrinter (thumbprintValue (Base64.url.encode sampleX) (Base64.url.encode sampleY))),
      [199,29,1,112,15,176,50,136,112,241,171,88,12,147,158,234,151,134,50,135,100,148,109,176,68,112,101,
        92,115,47,151,67]),
    (utf8 (base64Url (List.replicate 32 3)),[131,190,224,114,251,211,66,63,116,129,252,22,56,33,99,106,
      216,207,183,63,174,240,221,5,129,243,151,158,160,199,49,185])]

/-- Other texts are hashed to longer digests. -/
def sampleSha256 (bytes : List UInt8) : List UInt8 :=
  ((digests.find? fun p => p.1 = bytes).map Prod.snd).getD (List.replicate 33 0 ++ bytes)

lemma sampleSha256_injective : Function.Injective sampleSha256 := by
  have hlength : ∀ p ∈ digests, p.2.length = 32 := by
    simp only [digests,List.forall_mem_cons]
    exact ⟨rfl,rfl,rfl,rfl,List.forall_mem_nil _⟩
  have hnodup : (digests.map Prod.snd).Nodup := by
    simp only [digests,List.map_cons,List.map_nil]
    decide
  have hlong (bytes : List UInt8) : (List.replicate 33 0 ++ bytes).length ≠ 32 := by
    rw [List.length_append,List.length_replicate]
    omega
  have hmem {p : List UInt8 × List UInt8} {bytes : List UInt8}
      (h : digests.find? (fun p => p.1 = bytes) = some p) : p ∈ digests ∧ p.1 = bytes := by
    have hfound := List.find?_some h
    exact ⟨List.mem_of_find?_eq_some h,of_decide_eq_true hfound⟩
  intro a b h
  rw [sampleSha256,sampleSha256] at h
  cases ha : digests.find? (fun p => p.1 = a) with
  | none =>
    cases hb : digests.find? (fun p => p.1 = b) with
    | none =>
      rw [ha,hb] at h
      exact List.append_cancel_left h
    | some q =>
      rw [ha,hb] at h
      exact absurd ((congrArg List.length h).trans (hlength q (hmem hb).1)) (hlong a)
  | some p =>
    cases hb : digests.find? (fun p => p.1 = b) with
    | none =>
      rw [ha,hb] at h
      exact absurd ((congrArg List.length h).symm.trans (hlength p (hmem ha).1)) (hlong b)
    | some q =>
      rw [ha,hb] at h
      obtain rfl := List.inj_on_of_nodup_map hnodup (hmem ha).1 (hmem hb).1 h
      exact (hmem ha).2.symm.trans (hmem hb).2

def sampleBase (search : Text) : Url :=
  ⟨ascii "https:",[],ascii "api.linea.dev",ascii "/v1/executions/e1",search,[]⟩

def sampleTarget : Text := ascii "https://api.linea.dev/v1/executions/e1"

def sampleHref (u : Url) : Text :=
  u.protocol ++ ascii "//" ++ u.credentials ++ u.host ++ u.pathname ++ u.search ++ u.hash

def sampleUrl (value : Text) : Option Url :=
  if value = sampleTarget then some (sampleBase [])
  else if value = sampleTarget ++ ascii "?limit=1" then some (sampleBase (ascii "?limit=1"))
  else none

open Classical in
/-- Texts are read as what they are the texts of. -/
noncomputable def sampleParse (t : Text) : Option Json :=
  if h : ∃ v, Kept v ∧ stringify samplePrinter v = t then some (choose h) else none

lemma sampleParse_reads {v : Json} (h : Kept v) : sampleParse (stringify samplePrinter v) = some v := by
  have hex : ∃ w, Kept w ∧ stringify samplePrinter w = stringify samplePrinter v := ⟨v,h,rfl⟩
  obtain ⟨hw,htext⟩ := Classical.choose_spec hex
  rw [sampleParse,dif_pos hex]
  exact congrArg some (hw.stringify_inj h htext)

noncomputable def samplePart (encoded : Text) : Option Json :=
  (Base64.url.decode encoded).bind fun bytes => sampleParse (decodeText bytes)

def sampleImport (jwk : Json) : Option Unit :=
  if string jwk "x" = some (Base64.url.encode sampleX) ∧
    string jwk "y" = some (Base64.url.encode sampleY) then some () else none

lemma sampleImport_plain :
    sampleImport (jwkValue (Base64.url.encode sampleX) (Base64.url.encode sampleY)) = some () :=
  if_pos ⟨rfl,rfl⟩

/-- The parts of the platform that a proof is made with. -/
noncomputable def samplePieces : Platform where
  printer := samplePrinter
  parse := sampleParse
  sha256 := sampleSha256
  url := sampleUrl
  href := sampleHref
  Key := Unit
  x _ := sampleX
  y _ := sampleY
  verify _ _ _ := false
  decode := Base64.url.decode
  decodeProtectedHeader proof := match proof.splitOn 46 with
    | h :: _ => samplePart h
    | [] => none
  importJWK := sampleImport
  jwtVerify _ _ := none
  calculateJwkThumbprint jwk := (string jwk "x").bind fun x => (string jwk "y").map fun y =>
    Base64.url.encode (sampleSha256 (utf8 (stringify samplePrinter (thumbprintValue x y))))

def sampleInput : DpopInput where
  publicJwk := ⟨some (Base64.url.encode sampleX),some (Base64.url.encode sampleY),none⟩
  method := ascii "GET"
  url := sampleTarget ++ ascii "?limit=1"
  nonce := sampleNonce
  accessToken := some sampleToken
  now := 1000
  random := List.replicate 32 3
  now_range := by decide
  random_length := rfl

/-- The text of the one proof that the key signs. -/
noncomputable def sampleData : Text :=
  part samplePieces (headerValue (Base64.url.encode sampleX) (Base64.url.encode sampleY)) ++
    46 :: part samplePieces (payloadValue samplePieces sampleInput sampleTarget)

/-- The signature of a text is its bytes. -/
noncomputable def sampleSigned (data signature : List UInt8) : Bool :=
  data = utf8 sampleData && signature = data

/-- What is asked of the two parts of a proof and of its signature. -/
noncomputable def sampleOk (header payload : Json) (data signature : List UInt8) : Bool :=
  string header "typ" = some (ascii "dpop+jwt") && string header "alg" = some (ascii "ES256") &&
    (property header "crit").isNone && (integer payload "iat").isSome &&
    (property payload "exp").isNone && (property payload "nbf").isNone && sampleSigned data signature

noncomputable def sampleVerify (proof : Text) : Option Json :=
  match proof.splitOn 46 with
  | [h,p,s] =>
    (samplePart h).bind fun header => (samplePart p).bind fun payload =>
      (Base64.url.decode s).bind fun signature =>
        if sampleOk header payload (utf8 (h ++ 46 :: p)) signature then some payload else none
  | _ => none

noncomputable def samplePlatform : Platform :=
  { samplePieces with
    verify := fun _ => sampleSigned
    jwtVerify := fun proof _ => sampleVerify proof }

lemma sampleHref_base : sampleHref (sampleBase []) = sampleTarget := by decide +kernel

lemma sampleUrl_href {value : Text} {u : Url} (h : sampleUrl value = some u) :
    trim (sampleHref u.cleared) = sampleHref u.cleared ∧
      sampleUrl (sampleHref u.cleared) = some u.cleared := by
  have hcleared : u.cleared = sampleBase [] := by
    rw [sampleUrl] at h
    split at h
    · exact (Option.some.inj h) ▸ rfl
    · split at h
      · exact (Option.some.inj h) ▸ rfl
      · cases h
  have htrim : trim sampleTarget = sampleTarget := by decide +kernel
  rw [hcleared,sampleHref_base]
  exact ⟨htrim,if_pos rfl⟩

lemma sampleOk_iff {header payload : Json} {data signature : List UInt8} :
    sampleOk header payload data signature = true ↔
      string header "typ" = some (ascii "dpop+jwt") ∧ string header "alg" = some (ascii "ES256") ∧
      property header "crit" = none ∧ (integer payload "iat").isSome = true ∧
      property payload "exp" = none ∧ property payload "nbf" = none ∧
      sampleSigned data signature = true := by
  simp only [sampleOk,Bool.and_eq_true,decide_eq_true_eq,Option.isNone_iff_eq_none,and_assoc]

lemma sample_documented : Documented samplePlatform where
  coordinates _ := ⟨rfl,rfl⟩
  reads _ h := sampleParse_reads h
  href _ _ h _ := sampleUrl_href h
  header proof h p s fields hsplit hdecode := by
    change (match proof.splitOn 46 with
      | h :: _ => samplePart h
      | [] => none) = _
    rw [hsplit]
    exact hdecode
  decodes _ := by
    change Base64.url.decode _ = _
    rw [Base64.Alphabet.decode_encode]
  imports _ := sampleImport_plain
  imported _ _ _ _ _ _ _ _ _ := rfl
  verifies proof h p s header fields key signature hsplit hh htyp halg hcrit hp hiat hexp hnbf hs hv := by
    change sampleVerify proof = _
    have hh' : samplePart h = some header := hh
    have hp' : samplePart p = some (.obj fields) := hp
    have hs' : Base64.url.decode s = some signature := hs
    have hok := sampleOk_iff.mpr ⟨htyp,halg,hcrit,hiat,hexp,hnbf,hv⟩
    rw [sampleVerify,hsplit]
    dsimp only
    rw [hh',Option.bind_some,hp',Option.bind_some,hs',Option.bind_some,if_pos hok]
  verified proof key payload hverify := by
    change sampleVerify proof = _ at hverify
    rw [sampleVerify] at hverify
    split at hverify
    · next h p s hsplit =>
      obtain ⟨header,-,hverify⟩ := Option.bind_eq_some_iff.mp hverify
      obtain ⟨payload',hp,hverify⟩ := Option.bind_eq_some_iff.mp hverify
      obtain ⟨signature,hs,hverify⟩ := Option.bind_eq_some_iff.mp hverify
      split at hverify
      · next hok =>
        refine ⟨h,p,s,signature,hsplit,hs,(sampleOk_iff.mp hok).2.2.2.2.2.2,
          fun _ v _ _ hv => ?_⟩
        have hv' : samplePart p = some v := hv
        exact (Option.some.inj hverify).symm.trans (Option.some.inj (hp.symm.trans hv'))
      · cases hverify
    · cases hverify
  thumbprint jwk x y _ _ hx hy _ _ := by
    change ((string jwk "x").bind fun x => (string jwk "y").map fun y =>
      Base64.url.encode (sampleSha256 (utf8 (stringify samplePrinter (thumbprintValue x y))))) = _
    rw [hx,hy]
    rfl

lemma sampleUrl_input : sampleUrl sampleInput.url = some (sampleBase (ascii "?limit=1")) := by
  have hquery : ascii "?limit=1" ≠ [] := by decide
  have hother : sampleTarget ++ ascii "?limit=1" ≠ sampleTarget :=
    fun h => hquery (List.append_right_eq_self.mp h)
  exact (if_neg hother).trans (if_pos rfl)

lemma sample_signingInput : signingInput samplePlatform sampleInput = some sampleData := by
  have htarget : normalizedTarget samplePlatform sampleInput.url = some sampleTarget :=
    (congrArg (Option.map fun u : Url => sampleHref u.cleared) sampleUrl_input).trans
      (congrArg some sampleHref_base)
  have hcoordinates : (samplePlatform.x ()).length = 32 ∧ (samplePlatform.y ()).length = 32 := ⟨rfl,rfl⟩
  exact signingInput_made hcoordinates rfl htarget

lemma sample_unforged (proof : Text) : Unforged samplePlatform () {sampleInput} proof := by
  intro h p s signature _ _ hsigned
  have hdata := of_decide_eq_true ((Bool.and_eq_true _ _).mp hsigned).1
  exact ⟨sampleInput,rfl,sampleData,sample_signingInput,hdata⟩

/-- What a proof is verified for. -/
noncomputable def sampleVerifyInput (proof method targetUrl : Text) : VerifyInput where
  proof
  method
  targetUrl
  nonceHash := hexHash samplePlatform sampleNonce
  accessToken := some sampleToken
  expectedJkt := some (jktOf samplePlatform ())
  now := 61000

/-- A proof for a request with a query is accepted a minute later, and with the same key, nonce and token
nothing is accepted for another method or URL. -/
theorem sample_accepted :
    (∃ proof jtiHash, createDpopProof samplePlatform id sampleInput = some proof ∧
      verifyDpopProof samplePlatform (sampleVerifyInput proof (ascii "GET") sampleTarget) =
        some ⟨jktOf samplePlatform (),jtiHash⟩) ∧
    ∀ proof method targetUrl verified,
      verifyDpopProof samplePlatform (sampleVerifyInput proof method targetUrl) = some verified →
        toUpperCase method = ascii "GET" ∧
          normalizedTarget samplePlatform targetUrl = normalizedTarget samplePlatform sampleInput.url := by
  have htarget : sampleUrl sampleTarget = some (sampleBase []) := if_pos rfl
  have htoken : ∀ token ∈ some sampleToken, IssuedToken token :=
    fun token h => Option.some.inj h ▸ ⟨_,rfl,rfl⟩
  have hsign (data : Text) (h : signingInput samplePlatform sampleInput = some data) :
      sampleSigned (utf8 data) (utf8 data) = true := by
    have hdata : data = sampleData := Option.some.inj (h.symm.trans sample_signingInput)
    rw [hdata,sampleSigned,Bool.and_eq_true]
    exact ⟨decide_eq_true rfl,decide_eq_true rfl⟩
  have hsent : ∀ m ∈ ({sampleInput} : Set DpopInput), ∀ u, sampleUrl m.url = some u → u.Sent := by
    rintro m rfl u hu
    obtain rfl := Option.some.inj (sampleUrl_input.symm.trans hu)
    exact ⟨.inr rfl,rfl⟩
  obtain ⟨haccepts,hbinds,-⟩ := request_proofs samplePlatform sample_documented sampleSha256_injective
  refine ⟨haccepts () id sampleInput sampleTarget (sampleBase (ascii "?limit=1")) (sampleBase [])
    (some (jktOf samplePlatform ())) 61000 rfl hsign (by decide) ⟨_,rfl,rfl⟩ htoken sampleUrl_input
    ⟨.inr rfl,rfl⟩ htarget ⟨.inr rfl,rfl⟩ rfl rfl rfl (fun jkt h => (Option.some.inj h).symm)
    (by decide),?_⟩
  intro proof method targetUrl verified h
  obtain ⟨m,rfl,hmethod,⟨target,hmade,hseen⟩,-⟩ := hbinds () {sampleInput}
    (sampleVerifyInput proof method targetUrl) sampleNonce verified (sample_unforged proof) hsent
    ⟨_,rfl,rfl⟩ rfl htoken rfl h
  exact ⟨hmethod.symm.trans (by decide),hseen.trans hmade.symm⟩

end Linea.RequestProofs
