import Linea.WebhookAddresses
import Linea.ExceptLaws

/-! `sendWebhookRequest` of `webhooks/webhook-request.ts`: each hop of a redirect is validated before
its request is made. URLs are parsed by functions that stand for `new URL`; the resolver and the
requester answer as they like, at each call anew. -/
namespace Linea.WebhookRedirects
open WebhookAddresses IpAddresses ExceptLaws

/-- The parts of a parsed URL, in ASCII. -/
structure Url where
  protocol : String
  username : String
  password : String
  host : String
  hostname : List Char
  port : String
  pathname : String
  search : String

inductive WebhookError
  | permanent (message : String)
  | other

structure WebhookResponse where
  status : ℕ
  body : String

structure WebhookInput where
  url : String
  headers : List (String × String)
  body : List UInt8
  allowLocalDevelopment : Bool

/-- A call of the requester. -/
structure Request where
  url : Url
  addresses : List (List Char)
  headers : List (String × String)
  body : List UInt8

/-- What the code is run with; the number is that of the hop. -/
structure Environment where
  parse : String → Option Url
  resolve : String → Url → Option Url
  resolveAddresses : ℕ → List Char → Except WebhookError (List (List Char))
  performRequest : ℕ → Request → Except WebhookError (WebhookResponse × Option String)

def maximumRedirects : ℕ := 3

def mappedPrefix : List Char := "::ffff:".toList

def toLowerCase (text : List Char) : List Char := text.map Char.toLower

/-- `none` where it throws. -/
def isLoopbackAddress (address : List Char) : Option Bool :=
  if isIP address = 4 then do
    let number ← ipv4Number address
    inIpv4Range number "127.0.0.0".toList 8
  else
    let normalized := toLowerCase address
    if normalized = "::1".toList then some true
    else if _hprefix : mappedPrefix.isPrefixOf normalized then
      isLoopbackAddress (normalized.drop mappedPrefix.length)
    else some false
termination_by address.length
decreasing_by
  have hle := (List.isPrefixOf_iff_prefix.mp _hprefix).length_le
  have hpos : 0 < mappedPrefix.length := by decide
  have hlower : (toLowerCase address).length = address.length := List.length_map _
  change ((toLowerCase address).drop mappedPrefix.length).length < address.length
  change mappedPrefix.length ≤ (toLowerCase address).length at hle
  rw [List.length_drop]
  omega

/-- `hostname.toLowerCase().replace(/^\[|\]$/g, "")` -/
def withoutBrackets (hostname : List Char) : List Char :=
  let lower := toLowerCase hostname
  let opened := if lower.head? = some '[' then lower.tail else lower
  if opened.getLast? = some ']' then opened.dropLast else opened

def isLocalHostname (hostname : List Char) : Option Bool :=
  let normalized := withoutBrackets hostname
  if normalized = "localhost".toList then some true else isLoopbackAddress normalized

/-- A test that may throw. -/
def orThrow {α : Type} (test : Option α) : Except WebhookError α :=
  match test with
  | some value => .ok value
  | none => .error .other

def throwIf (test : Bool) (message : String) : Except WebhookError Unit :=
  if test then .error (.permanent message) else .ok ()

def validateWebhookTarget (url : Url) (allowLocalDevelopment : Bool)
    (resolveAddresses : List Char → Except WebhookError (List (List Char))) :
    Except WebhookError (List (List Char)) := do
  throwIf (url.username ≠ "" || url.password ≠ "") "Webhook URL cannot contain credentials"
  let localDevelopmentTarget ←
    if allowLocalDevelopment then orThrow (isLocalHostname url.hostname) else .ok false
  throwIf (url.protocol ≠ "https:" && !localDevelopmentTarget) "Webhook URL must use HTTPS"
  throwIf (url.protocol ≠ "https:" && url.protocol ≠ "http:")
    "Webhook URL protocol is not supported"
  let addresses ← resolveAddresses url.hostname
  throwIf (addresses = []) "Webhook hostname has no addresses"
  let hasNonPublicAddress ← orThrow (addresses.anyM fun address => (isPublicAddress address).map not)
  let hasNonLoopbackAddress ←
    orThrow (addresses.anyM fun address => (isLoopbackAddress address).map not)
  throwIf (hasNonPublicAddress && (!localDevelopmentTarget || hasNonLoopbackAddress))
    "Webhook hostname resolves to a non-public address"
  .ok addresses

/-- The loop from a hop on: the requests that are made, and how it ends. -/
def sendFrom (env : Environment) (input : WebhookInput) (redirects : ℕ) (url : Url) :
    List Request × Except WebhookError WebhookResponse :=
  if redirects ≤ maximumRedirects then
    match validateWebhookTarget url input.allowLocalDevelopment (env.resolveAddresses redirects) with
    | .error error => ([],.error error)
    | .ok addresses =>
      let request : Request := ⟨url,addresses,input.headers,input.body⟩
      match env.performRequest redirects request with
      | .error error => ([request],.error error)
      | .ok (response,location) =>
        if response.status < 300 ∨ 400 ≤ response.status then ([request],.ok response)
        else if location = none ∨ location = some "" then
          ([request],.error (.permanent "Webhook redirect has no location"))
        else if redirects = maximumRedirects then
          ([request],.error (.permanent "Webhook redirect limit exceeded"))
        else
          match env.resolve (location.getD "") url with
          | none => ([request],.error .other)
          | some next =>
            let (requests,result) := sendFrom env input (redirects + 1) next
            (request :: requests,result)
  else ([],.error (.permanent "Webhook redirect limit exceeded"))
termination_by maximumRedirects + 1 - redirects

def sendWebhookRequest (env : Environment) (input : WebhookInput) :
    List Request × Except WebhookError WebhookResponse :=
  match env.parse input.url with
  | none => ([],.error (.permanent "Webhook URL is invalid"))
  | some url => sendFrom env input 0 url

/-- Where `requestOnce` connects to, and what it sends. -/
structure RequestOptions where
  protocol : String
  hostname : List Char
  port : Option String
  method : String
  path : String
  servername : List Char
  headers : List (String × String)

/-- The options of `requestOnce`; without an address it rejects. -/
def requestOptions (request : Request) : Option RequestOptions :=
  request.addresses.head?.map fun address =>
    { protocol := request.url.protocol
      hostname := address
      port := if request.url.port = "" then none else some request.url.port
      method := "POST"
      path := request.url.pathname ++ request.url.search
      servername := request.url.hostname
      headers := request.headers.filter (fun p => p.1 ≠ "host" ∧ p.1 ≠ "content-length") ++
        [("host",request.url.host),("content-length",toString request.body.length)] }

/-! ### What is requested -/

/-- A request to a public target, as it was resolved for the hop. -/
structure Screened (env : Environment) (hop : ℕ) (request : Request) : Prop where
  https : request.url.protocol = "https:"
  credentials : request.url.username = "" ∧ request.url.password = ""
  resolved : env.resolveAddresses hop request.url.hostname = .ok request.addresses
  some_address : request.addresses ≠ []
  isPublic : ∀ address ∈ request.addresses, isPublicAddress address = some true

lemma orThrow_ok {α : Type} {test : Option α} {value : α} (h : orThrow test = .ok value) :
    test = some value := by
  cases test with
  | none => cases h
  | some v => exact congrArg some (Except.ok.inj h)

/-- When no address is found that is not public, each is. -/
lemma anyM_false {α : Type} {l : List α} {f : α → Option Bool}
    (h : (l.anyM fun x => (f x).map not) = some false) : ∀ x ∈ l, f x = some true := by
  induction l with
  | nil => exact List.forall_mem_nil _
  | cons x l ih =>
    rw [List.anyM_cons] at h
    cases hx : f x with
    | none =>
      rw [hx] at h
      cases h
    | some b =>
      rw [hx] at h
      cases b with
      | false => cases h
      | true => exact List.forall_mem_cons.mpr ⟨hx,ih h⟩

lemma throwIf_ok {test : Bool} {message : String} : throwIf test message = .ok () ↔ test = false := by
  cases test <;> simp [throwIf]

lemma validate_ok {url : Url} {resolveAddresses : List Char → Except WebhookError (List (List Char))}
    {addresses : List (List Char)} (h : validateWebhookTarget url false resolveAddresses = .ok addresses) :
    url.protocol = "https:" ∧ (url.username = "" ∧ url.password = "") ∧
      resolveAddresses url.hostname = .ok addresses ∧ addresses ≠ [] ∧
      ∀ address ∈ addresses, isPublicAddress address = some true := by
  rw [validateWebhookTarget,seq_ok_iff,if_neg Bool.false_ne_true,ok_bind,seq_ok_iff,seq_ok_iff,
    bind_ok_iff] at h
  obtain ⟨hcred,hproto,-,found,hfound,h⟩ := h
  rw [seq_ok_iff,bind_ok_iff] at h
  obtain ⟨hsome,nonPublic,hpublic,h⟩ := h
  obtain ⟨nonLoopback,-,h⟩ := bind_ok_iff.mp h
  obtain ⟨hclean,hok⟩ := seq_ok_iff.mp h
  obtain rfl : found = addresses := Except.ok.inj hok
  rw [throwIf_ok] at hcred hproto hsome hclean
  have hnone : nonPublic = false := by simpa using hclean
  refine ⟨by simpa using hproto,by simpa using hcred,hfound,by simpa using hsome,anyM_false ?_⟩
  rw [orThrow_ok hpublic,hnone]

/-- What holds of the requests from a hop on, and of what they end with. -/
structure Safe (env : Environment) (redirects : ℕ)
    (outcome : List Request × Except WebhookError WebhookResponse) : Prop where
  screened : ∀ i r, outcome.1[i]? = some r → Screened env (redirects + i) r
  bounded : outcome.1.length ≤ maximumRedirects + 1 - redirects
  returned : ∀ response, outcome.2 = .ok response → response.status < 300 ∨ 400 ≤ response.status

section Safe
variable {env : Environment} {redirects : ℕ}

lemma Safe.failed (error : WebhookError) : Safe env redirects ([],.error error) where
  screened _ _ h := nomatch h
  bounded := Nat.zero_le _
  returned _ h := nomatch h

lemma Safe.last {r : Request} {result : Except WebhookError WebhookResponse} (hr : Screened env redirects r)
    (hle : redirects ≤ maximumRedirects)
    (hreturned : ∀ response, result = .ok response → response.status < 300 ∨ 400 ≤ response.status) :
    Safe env redirects ([r],result) where
  screened i r' h := by
    obtain ⟨hi,rfl⟩ := List.getElem?_eq_some_iff.mp h
    obtain rfl : i = 0 := Nat.lt_one_iff.mp hi
    exact hr
  bounded := by
    change 1 ≤ _
    omega
  returned := hreturned

lemma Safe.next {r : Request} {requests : List Request} {result : Except WebhookError WebhookResponse}
    (hr : Screened env redirects r) (hle : redirects ≤ maximumRedirects)
    (h : Safe env (redirects + 1) (requests,result)) : Safe env redirects (r :: requests,result) where
  screened i r' hi := by
    cases i with
    | zero =>
      obtain rfl : r = r' := Option.some.inj hi
      exact hr
    | succ i =>
      have hnext := h.screened i r' hi
      rwa [Nat.add_assoc,Nat.add_comm 1 i] at hnext
  bounded := by
    have hlength := h.bounded
    simp only [List.length_cons] at hlength ⊢
    omega
  returned := h.returned

end Safe

lemma sendFrom_safe (env : Environment) (input : WebhookInput)
    (hinput : input.allowLocalDevelopment = false) (redirects : ℕ) (url : Url) :
    Safe env redirects (sendFrom env input redirects url) := by
  induction hn : maximumRedirects + 1 - redirects generalizing redirects url with
  | zero =>
    rw [sendFrom,if_neg (by omega)]
    exact .failed _
  | succ n ih =>
    have hle : redirects ≤ maximumRedirects := by omega
    rw [sendFrom,if_pos hle,hinput]
    cases hvalid : validateWebhookTarget url false (env.resolveAddresses redirects) with
    | error error => exact .failed error
    | ok addresses =>
      obtain ⟨https,hcred,hresolved,hsome,hpublic⟩ := validate_ok hvalid
      have hr : Screened env redirects ⟨url,addresses,input.headers,input.body⟩ :=
        ⟨https,hcred,hresolved,hsome,hpublic⟩
      have hfailed (error : WebhookError) : Safe env redirects
          ([⟨url,addresses,input.headers,input.body⟩],.error error) :=
        .last hr hle fun _ h => nomatch h
      dsimp only
      split
      · exact hfailed _
      · rename_i response location _
        split_ifs with hstatus hlocation hlast
        · exact .last hr hle fun _ h => Except.ok.inj h ▸ hstatus
        · exact hfailed _
        · exact hfailed _
        · split
          · exact hfailed _
          · rename_i next _
            exact .next hr hle (ih (redirects + 1) next (by omega))

/-- Whatever is resolved, answered and redirected to: every request goes to a screened target, at most
four are made, and no redirect is returned. `requestOnce` connects to one of the screened addresses. -/
theorem redirects_screened (env : Environment) (url : String) (headers : List (String × String))
    (body : List UInt8) :
    let outcome := sendWebhookRequest env ⟨url,headers,body,false⟩
    (∀ hop r, outcome.1[hop]? = some r → Screened env hop r ∧
      ∃ options ∈ requestOptions r, options.protocol = "https:" ∧ options.hostname ∈ r.addresses) ∧
    outcome.1.length ≤ 4 ∧
    ∀ response, outcome.2 = .ok response → response.status < 300 ∨ 400 ≤ response.status := by
  intro outcome
  have hsafe : Safe env 0 outcome := by
    change Safe env 0 (sendWebhookRequest env ⟨url,headers,body,false⟩)
    unfold sendWebhookRequest
    split
    · exact .failed _
    · exact sendFrom_safe env _ rfl 0 _
  refine ⟨fun hop r h => ?_,hsafe.bounded,hsafe.returned⟩
  have hscreened : Screened env hop r := (Nat.zero_add hop) ▸ hsafe.screened hop r h
  obtain ⟨address,rest,haddresses⟩ := List.exists_cons_of_ne_nil hscreened.some_address
  refine ⟨hscreened,?_⟩
  rw [requestOptions,haddresses]
  exact ⟨_,rfl,hscreened.https,List.mem_cons_self⟩

end Linea.WebhookRedirects
