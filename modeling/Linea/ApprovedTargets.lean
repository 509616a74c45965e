import Linea.GithubDisplays
import Linea.UrlPaths

/-! Where the requests of the GitHub and Google Calendar operations go: the path of each URL against the
provider's path for the resource that was approved. -/
namespace Linea.ApprovedTargets

open JsonText (Text ascii)
open GithubApi (accept sized accept_eq_some githubOwnerSchema githubRepositorySchema)
open GithubDisplays
open UrlPaths
open Separators (join)
open Utf8Decoder (encode)

/-- A segment of a provider's path: a word of its own, a name that was approved, or an id the operation
computes. -/
inductive Part where
  | fixed (word : String)
  | approved (name : Text)
  | computed (id : Text)
  deriving DecidableEq

def Part.text : Part → Text
  | .fixed word => ascii word
  | .approved name => name
  | .computed id => id

/-- A request by the reference of its URL, none where the encoding throws, and the resource it is for. -/
structure Request where
  reference : Option Text
  resource : List Part
  deriving DecidableEq

def repositoryPath (owner repository : Text) : Option Text := do
  let owner ← encodeURIComponent owner
  let repository ← encodeURIComponent repository
  return ascii "/repos/" ++ owner ++ 47 :: repository

def repositoryResource (owner repository : Text) (rest : List Part) : List Part :=
  .fixed "repos" :: .approved owner :: .approved repository :: rest

/-- The path of the listing and of the creation; the query comes after it. -/
def issuesRequest (owner repository : Text) : Request where
  reference := (repositoryPath owner repository).map (· ++ ascii "/issues")
  resource := repositoryResource owner repository [.fixed "issues"]

def pullsRequest (owner repository : Text) : Request where
  reference := (repositoryPath owner repository).map (· ++ ascii "/pulls")
  resource := repositoryResource owner repository [.fixed "pulls"]

/-- `branch.split("/").map(encodeURIComponent).join("/")` -/
def branchPath (branch : Text) : Option Text :=
  ((branch.splitOn 47).mapM encodeURIComponent).map (join [47])

def repositoryRef (owner repository branch : Text) : Request where
  reference := do
    let path ← repositoryPath owner repository
    let branch ← branchPath branch
    return path ++ (ascii "/git/ref/heads/" ++ branch)
  resource := repositoryResource owner repository
    (.fixed "git" :: .fixed "ref" :: .fixed "heads" :: (branch.splitOn 47).map .approved)

/-- An event id that is the empty text is no id. -/
def eventsSuffix (eventId : Option Text) : Option Text :=
  match eventId.filter (· ≠ []) with
  | some eventId => (encodeURIComponent eventId).map (ascii "/events/" ++ ·)
  | none => some (ascii "/events")

def calendarEventUrl (calendarId : Text) (eventId : Option Text) : Option Text := do
  let suffix ← eventsSuffix eventId
  let calendarId ← encodeURIComponent calendarId
  return ascii "/calendar/v3/calendars/" ++ calendarId ++ suffix

def calendarResource (calendarId : Text) (rest : List Part) : List Part :=
  [.fixed "calendar",.fixed "v3",.fixed "calendars",.approved calendarId,.fixed "events"] ++ rest

def eventsRequest (calendarId : Text) : Request where
  reference := calendarEventUrl calendarId none
  resource := calendarResource calendarId []

def eventRequest (calendarId : Text) (event : Part) : Request where
  reference := calendarEventUrl calendarId (some event.text)
  resource := calendarResource calendarId [event]

/-- The ids of the Calendar schemas. -/
def idSchema (s : Text) : Option Text := accept (sized 1 1024 s) s

inductive IssueState where
  | open
  | closed
  | all
  deriving DecidableEq, Repr

structure ListIssues where
  owner : Text
  repository : Text
  state : IssueState
  page : ℤ
  perPage : ℤ
  deriving DecidableEq, Repr

/-- The fields with a default may be missing. -/
structure ListIssuesInput where
  owner : Text
  repository : Text
  state : Option IssueState
  page : Option ℤ
  perPage : Option ℤ
  deriving DecidableEq, Repr

/-- Owner and repository are passed on as they are written. -/
def listIssuesSchema (input : ListIssuesInput) : Option ListIssues := do
  let owner ← githubOwnerSchema input.owner
  let repository ← githubRepositorySchema input.repository
  let page ← accept (1 ≤ input.page.getD 1 && input.page.getD 1 ≤ 1000) (input.page.getD 1)
  let perPage ← accept (1 ≤ input.perPage.getD 30 && input.perPage.getD 30 ≤ 50)
    (input.perPage.getD 30)
  return { owner, repository, state := input.state.getD .open, page, perPage }

/-- An action with what its URLs are made of: the input of a GitHub operation, the ids of a Calendar
operation. -/
inductive Action where
  | listIssues (input : ListIssuesInput)
  | createIssue (input : Issue)
  | createPullRequest (input : PullRequestInput)
  | listEvents (calendarId : Option Text)
  | createEvent (calendarId : Text)
  | updateEvent (calendarId eventId : Text)

/-- `createHash("sha256").update(idempotencyKey).digest("hex")` -/
def deterministicEventId (sha256 : Text → Vector UInt8 32) (idempotencyKey : Text) : Text :=
  (sha256 idempotencyKey).toList.flatMap fun b =>
    [JsonText.hexDigit (b.toNat / 16),JsonText.hexDigit (b.toNat % 16)]

/-- The requests an action can make, in the checks before it, in its execution and in what follows an
unknown outcome. -/
def Action.requests (sha256 : Text → Vector UInt8 32) (idempotencyKey : Text) :
    Action → Option (List Request)
  | .listIssues input => do
    let input ← listIssuesSchema input
    return [issuesRequest input.owner input.repository]
  | .createIssue input => do
    let { parameters, .. } ← normalizeIssue input
    return [issuesRequest parameters.owner parameters.repository]
  | .createPullRequest input => do
    let { parameters, .. } ← normalizePullRequest input
    return [repositoryRef parameters.owner parameters.repository parameters.head,
      repositoryRef parameters.owner parameters.repository parameters.base,
      pullsRequest parameters.owner parameters.repository]
  | .listEvents calendarId => do
    let calendarId ← idSchema (calendarId.getD (ascii "primary"))
    return [eventsRequest calendarId]
  | .createEvent calendarId => do
    let calendarId ← idSchema calendarId
    return [eventsRequest calendarId,
      eventRequest calendarId (.computed (deterministicEventId sha256 idempotencyKey))]
  | .updateEvent calendarId eventId => do
    let calendarId ← idSchema calendarId
    let eventId ← idSchema eventId
    return [eventRequest calendarId (.approved eventId)]

/-- The bytes of a name. -/
def bytes (name : Text) : List UInt8 := ((codePoints name).map encode).getD []

/-- The path the URL is parsed to is the provider's path for the resource. -/
def OnTarget (reference : Text) (resource : List Part) : Prop :=
  (requestPath reference).map percentDecode = resource.map fun part => bytes part.text

/-- The two names that are directions in a path. -/
def IsDotName (name : Text) : Prop := name = ascii "." ∨ name = ascii ".."

/-! ## Characters and units -/

/-- The units of a character. -/
def utf16 (c : Char) : Text :=
  if c.toNat < 0x10000 then [.ofNat c.toNat]
  else [.ofNat (0xD800 + (c.toNat - 0x10000) / 0x400),.ofNat (0xDC00 + (c.toNat - 0x10000) % 0x400)]

lemma toNat_ofNat_valid {n : ℕ} (h : n.isValidChar) : (Char.ofNat n).toNat = n := by
  rw [Char.ofNat,dif_pos h]
  rfl

lemma isHigh_iff {u : UInt16} : JsonText.isHigh u = true ↔ 0xD800 ≤ u.toNat ∧ u.toNat < 0xDC00 := by
  simp [JsonText.isHigh,UInt16.le_iff_toNat_le,UInt16.lt_iff_toNat_lt]

lemma isLow_iff {u : UInt16} : JsonText.isLow u = true ↔ 0xDC00 ≤ u.toNat ∧ u.toNat < 0xE000 := by
  simp [JsonText.isLow,UInt16.le_iff_toNat_le,UInt16.lt_iff_toNat_lt]

lemma utf16_unit {u : UInt16} (h : ¬ (JsonText.isHigh u || JsonText.isLow u) = true) :
    utf16 (Char.ofNat u.toNat) = [u] := by
  have hu : u.toNat < 65536 := u.toNat_lt
  rw [Bool.or_eq_true,isHigh_iff,isLow_iff] at h
  have hvalid : u.toNat.isValidChar := by
    unfold Nat.isValidChar
    omega
  rw [utf16,toNat_ofNat_valid hvalid,if_pos hu,UInt16.ofNat_toNat]

lemma utf16_pair {u l : UInt16} (hu : JsonText.isHigh u = true) (hl : JsonText.isLow l = true) :
    utf16 (Char.ofNat (0x10000 + (u.toNat - 0xD800) * 0x400 + (l.toNat - 0xDC00))) = [u,l] := by
  rw [isHigh_iff] at hu
  rw [isLow_iff] at hl
  have hvalid : (0x10000 + (u.toNat - 0xD800) * 0x400 + (l.toNat - 0xDC00)).isValidChar := by
    unfold Nat.isValidChar
    omega
  rw [utf16,toNat_ofNat_valid hvalid,if_neg (by omega)]
  have hhigh : 0xD800 + (0x10000 + (u.toNat - 0xD800) * 0x400 + (l.toNat - 0xDC00) - 0x10000) / 0x400 =
      u.toNat := by omega
  have hlow : 0xDC00 + (0x10000 + (u.toNat - 0xD800) * 0x400 + (l.toNat - 0xDC00) - 0x10000) % 0x400 =
      l.toNat := by omega
  rw [hhigh,hlow,UInt16.ofNat_toNat,UInt16.ofNat_toNat]

/-- The characters of a string determine it. -/
lemma utf16_codePoints {s : Text} {chars : List Char} (h : codePoints s = some chars) :
    chars.flatMap utf16 = s := by
  fun_induction codePoints s generalizing chars with
  | case1 => cases h; rfl
  | case2 u hlone => cases h
  | case3 u hlone =>
    cases h
    rw [List.flatMap_singleton,utf16_unit hlone]
  | case4 u l rest hpair ih =>
    obtain ⟨chars,hrest,rfl⟩ := Option.map_eq_some_iff.mp h
    rw [Bool.and_eq_true] at hpair
    rw [List.flatMap_cons,ih hrest,utf16_pair hpair.1 hpair.2]
    rfl
  | case5 u l rest hpair hlone => cases h
  | case6 u l rest hpair hlone ih =>
    obtain ⟨chars,hrest,rfl⟩ := Option.map_eq_some_iff.mp h
    rw [List.flatMap_cons,ih hrest,utf16_unit hlone]
    rfl

lemma isDots_iff {name : Text} {chars : List Char} (h : codePoints name = some chars) :
    IsDots chars ↔ IsDotName name := by
  constructor
  · have hname := utf16_codePoints h
    rintro (rfl | rfl)
    · exact .inl (hname.symm.trans (by decide))
    · exact .inr (hname.symm.trans (by decide))
  · have hdot : codePoints (ascii ".") = some ['.'] := by decide
    have hdots : codePoints (ascii "..") = some ['.','.'] := by decide
    rintro (rfl | rfl)
    · exact .inl (Option.some.inj (h.symm.trans hdot))
    · exact .inr (Option.some.inj (h.symm.trans hdots))

/-! ## The paths of the requests -/

/-- The parts of a path and their characters. -/
def Spelled : List Part → List (List Char) → Prop :=
  List.Forall₂ fun part chars => codePoints part.text = some chars

lemma Spelled.bytes {resource : List Part} {chars : List (List Char)} (h : Spelled resource chars) :
    (resource.map fun part => bytes part.text) = chars.map encode := by
  induction h with
  | nil => rfl
  | cons hpart _ ih =>
    rw [List.map_cons,List.map_cons,ih,ApprovedTargets.bytes,hpart]
    rfl

lemma Spelled.dots {resource : List Part} {chars : List (List Char)} (h : Spelled resource chars) :
    (∀ name ∈ chars, ¬ IsDots name) ↔ ∀ part ∈ resource, ¬ IsDotName part.text := by
  induction h with
  | nil => simp
  | cons hpart _ ih => simp only [List.forall_mem_cons,ih,isDots_iff hpart]

lemma onTarget_iff {resource : List Part} {chars : List (List Char)} (h : Spelled resource chars)
    (hne : chars ≠ []) :
    OnTarget (47 :: join [47] (chars.map encodeChars)) resource ↔
      ∀ part ∈ resource, ¬ IsDotName part.text := by
  rw [OnTarget,h.bytes,decoded_path_iff hne,h.dots]

/-- The words of the providers' paths. -/
def words : List String :=
  ["repos","issues","pulls","git","ref","heads","calendar","v3","calendars","events"]

def letters (word : String) : List Char := word.toList

/-- A word is spelled and encoded as it stands. -/
lemma words_plain : ∀ word ∈ words, codePoints (ascii word) = some (letters word) ∧
    encodeChars (letters word) = ascii word ∧ ascii word ≠ ascii "." ∧ ascii word ≠ ascii ".." := by
  decide

lemma word_spelled {word : String} (h : word ∈ words) :
    codePoints (Part.fixed word).text = some (letters word) :=
  (words_plain word h).1

lemma word_encoded {word : String} (h : word ∈ words) : encodeChars (letters word) = ascii word :=
  (words_plain word h).2.1

lemma word_not_dots {word : String} (h : word ∈ words) : ¬ IsDotName (Part.fixed word).text :=
  fun hdots => hdots.elim (words_plain word h).2.2.1 (words_plain word h).2.2.2

lemma encodeURIComponent_spec {name encoded : Text} (h : encodeURIComponent name = some encoded) :
    ∃ chars, codePoints name = some chars ∧ encoded = encodeChars chars := by
  obtain ⟨chars,hchars,rfl⟩ := Option.map_eq_some_iff.mp h
  exact ⟨chars,hchars,rfl⟩

lemma repositoryPath_spec {owner repository path : Text}
    (h : repositoryPath owner repository = some path) :
    ∃ o r, codePoints owner = some o ∧ codePoints repository = some r ∧
      path = ascii "/repos/" ++ encodeChars o ++ 47 :: encodeChars r := by
  simp only [repositoryPath,bind,Option.bind_eq_some_iff,pure,Option.some.injEq] at h
  obtain ⟨_,howner,_,hrepository,rfl⟩ := h
  obtain ⟨o,ho,rfl⟩ := encodeURIComponent_spec howner
  obtain ⟨r,hr,rfl⟩ := encodeURIComponent_spec hrepository
  exact ⟨o,r,ho,hr,rfl⟩

/-- A reference is put together from the encoded parts of its resource. -/
def PutTogether (request : Request) : Prop :=
  ∀ reference, request.reference = some reference →
    ∃ chars, Spelled request.resource chars ∧ chars ≠ [] ∧
      reference = 47 :: join [47] (chars.map encodeChars)

/-- The path of a repository with a word of the provider's after it. -/
lemma repository_putTogether (owner repository : Text) {word : String} (hword : word ∈ words)
    {rest : Text} (hrest : rest = 47 :: ascii word) :
    PutTogether ⟨(repositoryPath owner repository).map (· ++ rest),
      repositoryResource owner repository [.fixed word]⟩ := by
  intro reference h
  obtain ⟨path,hpath,rfl⟩ := Option.map_eq_some_iff.mp h
  obtain ⟨o,r,ho,hr,rfl⟩ := repositoryPath_spec hpath
  have hrepos : "repos" ∈ words := by decide
  refine ⟨[letters "repos",o,r,letters word],
    .cons (word_spelled hrepos) (.cons ho (.cons hr (.cons (word_spelled hword) .nil))),
    List.cons_ne_nil _ _,?_⟩
  have hfront : ascii "/repos/" = 47 :: (ascii "repos" ++ [47]) := by decide
  simp [join,word_encoded hrepos,word_encoded hword,hfront,hrest]

lemma mapM_encode {names encoded : List Text} (h : names.mapM encodeURIComponent = some encoded) :
    ∃ chars, Spelled (names.map .approved) chars ∧ encoded = chars.map encodeChars := by
  induction names generalizing encoded with
  | nil =>
    rw [List.mapM_nil] at h
    cases h
    exact ⟨[],.nil,rfl⟩
  | cons name names ih =>
    rw [List.mapM_cons] at h
    simp only [bind,Option.bind_eq_some_iff,pure,Option.some.injEq] at h
    obtain ⟨_,hname,_,hnames,rfl⟩ := h
    obtain ⟨cs,hcs,rfl⟩ := encodeURIComponent_spec hname
    obtain ⟨chars,hchars,rfl⟩ := ih hnames
    exact ⟨cs :: chars,.cons hcs hchars,rfl⟩

lemma repositoryRef_putTogether (owner repository branch : Text) :
    PutTogether (repositoryRef owner repository branch) := by
  intro reference h
  simp only [repositoryRef,bind,Option.bind_eq_some_iff,pure,Option.some.injEq] at h
  obtain ⟨path,hpath,tail,hbranch,rfl⟩ := h
  obtain ⟨o,r,ho,hr,rfl⟩ := repositoryPath_spec hpath
  obtain ⟨encoded,hencoded,rfl⟩ := Option.map_eq_some_iff.mp hbranch
  obtain ⟨chars,hchars,rfl⟩ := mapM_encode hencoded
  have hne : chars ≠ [] := by
    rintro rfl
    have hnil : (branch.splitOn 47).map Part.approved = [] := by
      cases hs : (branch.splitOn 47).map Part.approved with
      | nil => rfl
      | cons part parts => rw [hs] at hchars; cases hchars
    exact List.splitOn_ne_nil 47 branch (List.map_eq_nil_iff.mp hnil)
  have hrepos : "repos" ∈ words := by decide
  have hgit : "git" ∈ words := by decide
  have href : "ref" ∈ words := by decide
  have hheads : "heads" ∈ words := by decide
  refine ⟨[letters "repos",o,r,letters "git",letters "ref",letters "heads"] ++ chars,
    .cons (word_spelled hrepos) (.cons ho (.cons hr (.cons (word_spelled hgit)
      (.cons (word_spelled href) (.cons (word_spelled hheads) hchars))))),List.cons_ne_nil _ _,?_⟩
  have hfront : ascii "/repos/" = 47 :: (ascii "repos" ++ [47]) := by decide
  have hmiddle : ascii "/git/ref/heads/" =
      47 :: (ascii "git" ++ 47 :: (ascii "ref" ++ 47 :: (ascii "heads" ++ [47]))) := by decide
  simp [Separators.join_cons,hne,word_encoded hrepos,word_encoded hgit,word_encoded href,
    word_encoded hheads,hfront,hmiddle]

lemma calendarEventUrl_spec {calendarId reference : Text} {eventId : Option Text}
    (h : calendarEventUrl calendarId eventId = some reference) :
    ∃ c suffix, codePoints calendarId = some c ∧ eventsSuffix eventId = some suffix ∧
      reference = ascii "/calendar/v3/calendars/" ++ encodeChars c ++ suffix := by
  simp only [calendarEventUrl,bind,Option.bind_eq_some_iff,pure,Option.some.injEq] at h
  obtain ⟨suffix,hsuffix,_,hcalendar,rfl⟩ := h
  obtain ⟨c,hc,rfl⟩ := encodeURIComponent_spec hcalendar
  exact ⟨c,suffix,hc,hsuffix,rfl⟩

lemma calendar_prefix : ascii "/calendar/v3/calendars/" =
    47 :: (ascii "calendar" ++ 47 :: (ascii "v3" ++ 47 :: (ascii "calendars" ++ [47]))) := by
  decide

lemma eventsRequest_putTogether (calendarId : Text) : PutTogether (eventsRequest calendarId) := by
  intro reference h
  obtain ⟨c,suffix,hc,hsuffix,rfl⟩ := calendarEventUrl_spec h
  have hnone : suffix = ascii "/events" := (Option.some.inj hsuffix).symm
  have hcalendar : "calendar" ∈ words := by decide
  have hv3 : "v3" ∈ words := by decide
  have hcalendars : "calendars" ∈ words := by decide
  have hevents : "events" ∈ words := by decide
  refine ⟨[letters "calendar",letters "v3",letters "calendars",c,letters "events"],
    .cons (word_spelled hcalendar) (.cons (word_spelled hv3) (.cons (word_spelled hcalendars)
      (.cons hc (.cons (word_spelled hevents) .nil)))),List.cons_ne_nil _ _,?_⟩
  have hword : ascii "/events" = 47 :: ascii "events" := by decide
  simp [join,word_encoded hcalendar,word_encoded hv3,word_encoded hcalendars,word_encoded hevents,
    calendar_prefix,hnone,hword]

lemma eventRequest_putTogether (calendarId : Text) {event : Part} (hne : event.text ≠ []) :
    PutTogether (eventRequest calendarId event) := by
  intro reference h
  obtain ⟨c,suffix,hc,hsuffix,rfl⟩ := calendarEventUrl_spec h
  have hfilter : (some event.text).filter (· ≠ []) = some event.text := by
    simp [Option.filter,hne]
  rw [eventsSuffix,hfilter] at hsuffix
  obtain ⟨_,hevent,rfl⟩ := Option.map_eq_some_iff.mp hsuffix
  obtain ⟨e,he,rfl⟩ := encodeURIComponent_spec hevent
  have hcalendar : "calendar" ∈ words := by decide
  have hv3 : "v3" ∈ words := by decide
  have hcalendars : "calendars" ∈ words := by decide
  have hevents : "events" ∈ words := by decide
  refine ⟨[letters "calendar",letters "v3",letters "calendars",c,letters "events",e],
    .cons (word_spelled hcalendar) (.cons (word_spelled hv3) (.cons (word_spelled hcalendars)
      (.cons hc (.cons (word_spelled hevents) (.cons he .nil))))),List.cons_ne_nil _ _,?_⟩
  have hword : ascii "/events/" = 47 :: (ascii "events" ++ [47]) := by decide
  simp [join,word_encoded hcalendar,word_encoded hv3,word_encoded hcalendars,word_encoded hevents,
    calendar_prefix,hword]

/-- The names of a resource that were approved. -/
def approvedNames (resource : List Part) : List Text :=
  resource.filterMap fun
    | .approved name => some name
    | _ => none

lemma mem_approvedNames {resource : List Part} {name : Text} :
    name ∈ approvedNames resource ↔ .approved name ∈ resource := by
  rw [approvedNames,List.mem_filterMap]
  constructor
  · rintro ⟨part,hpart,hname⟩
    cases part with
    | approved name => exact Option.some.inj hname ▸ hpart
    | fixed | computed => cases hname
  · exact fun h => ⟨_,h,rfl⟩

/-- A request whose reference is put together from its resource, and whose resource has no dot names but
approved ones. -/
structure WellMade (request : Request) : Prop where
  putTogether : PutTogether request
  others : ∀ part ∈ request.resource, (∃ name, part = .approved name) ∨ ¬ IsDotName part.text

lemma WellMade.onTarget_iff {request : Request} (h : WellMade request) {reference : Text}
    (href : request.reference = some reference) :
    OnTarget reference request.resource ↔
      ∀ name ∈ approvedNames request.resource, ¬ IsDotName name := by
  obtain ⟨chars,hspelled,hne,rfl⟩ := h.putTogether reference href
  rw [ApprovedTargets.onTarget_iff hspelled hne]
  constructor
  · intro hall name hname
    exact hall _ (mem_approvedNames.mp hname)
  · intro hall part hpart
    rcases h.others part hpart with ⟨name,rfl⟩ | hplain
    · exact hall name (mem_approvedNames.mpr hpart)
    · exact hplain

/-- The words of a resource are the providers'. -/
lemma others_of_words {resource : List Part}
    (h : ∀ part ∈ resource, (∃ name, part = .approved name) ∨ ∃ word ∈ words, part = .fixed word) :
    ∀ part ∈ resource, (∃ name, part = .approved name) ∨ ¬ IsDotName part.text := by
  intro part hpart
  rcases h part hpart with happroved | ⟨word,hword,rfl⟩
  · exact .inl happroved
  · exact .inr (word_not_dots hword)

lemma repository_wellMade (owner repository : Text) {word : String} (hword : word ∈ words)
    {rest : Text} (hrest : rest = 47 :: ascii word) :
    WellMade ⟨(repositoryPath owner repository).map (· ++ rest),
      repositoryResource owner repository [.fixed word]⟩ := by
  refine ⟨repository_putTogether owner repository hword hrest,others_of_words fun part hpart => ?_⟩
  simp only [repositoryResource,List.mem_cons,List.not_mem_nil,or_false] at hpart
  rcases hpart with rfl | rfl | rfl | rfl
  · exact .inr ⟨"repos",by decide,rfl⟩
  · exact .inl ⟨_,rfl⟩
  · exact .inl ⟨_,rfl⟩
  · exact .inr ⟨word,hword,rfl⟩

lemma repositoryRef_wellMade (owner repository branch : Text) :
    WellMade (repositoryRef owner repository branch) := by
  refine ⟨repositoryRef_putTogether owner repository branch,others_of_words fun part hpart => ?_⟩
  simp only [repositoryRef,repositoryResource,List.mem_cons,List.mem_map] at hpart
  rcases hpart with rfl | rfl | rfl | rfl | rfl | rfl | ⟨name,_,rfl⟩
  · exact .inr ⟨"repos",by decide,rfl⟩
  · exact .inl ⟨_,rfl⟩
  · exact .inl ⟨_,rfl⟩
  · exact .inr ⟨"git",by decide,rfl⟩
  · exact .inr ⟨"ref",by decide,rfl⟩
  · exact .inr ⟨"heads",by decide,rfl⟩
  · exact .inl ⟨name,rfl⟩

lemma calendarResource_others {calendarId : Text} {rest : List Part}
    (hrest : ∀ part ∈ rest, (∃ name, part = .approved name) ∨ ¬ IsDotName part.text) :
    ∀ part ∈ calendarResource calendarId rest,
      (∃ name, part = .approved name) ∨ ¬ IsDotName part.text := by
  intro part hpart
  simp only [calendarResource,List.cons_append,List.nil_append,List.mem_cons] at hpart
  rcases hpart with rfl | rfl | rfl | rfl | rfl | hpart
  · exact .inr (word_not_dots (by decide))
  · exact .inr (word_not_dots (by decide))
  · exact .inr (word_not_dots (by decide))
  · exact .inl ⟨_,rfl⟩
  · exact .inr (word_not_dots (by decide))
  · exact hrest part hpart

lemma eventsRequest_wellMade (calendarId : Text) : WellMade (eventsRequest calendarId) :=
  ⟨eventsRequest_putTogether calendarId,calendarResource_others (by simp)⟩

lemma deterministicEventId_length (sha256 : Text → Vector UInt8 32) (key : Text) :
    (deterministicEventId sha256 key).length = 64 := by
  simp [deterministicEventId,List.length_flatMap]

lemma eventRequest_wellMade (calendarId : Text) {event : Part} (hne : event.text ≠ [])
    (hevent : (∃ name, event = .approved name) ∨ ¬ IsDotName event.text) :
    WellMade (eventRequest calendarId event) :=
  ⟨eventRequest_putTogether calendarId hne,
    calendarResource_others (List.forall_mem_singleton.mpr hevent)⟩

lemma computed_wellMade (sha256 : Text → Vector UInt8 32) (key calendarId : Text) :
    WellMade (eventRequest calendarId (.computed (deterministicEventId sha256 key))) := by
  have hlength := deterministicEventId_length sha256 key
  refine eventRequest_wellMade calendarId ?_ (.inr ?_)
  · intro hnil
    rw [Part.text] at hnil
    rw [hnil] at hlength
    cases hlength
  · rintro (hdot | hdot) <;> rw [Part.text] at hdot <;> rw [hdot] at hlength <;> cases hlength

lemma idSchema_ne_nil {s id : Text} (h : idSchema s = some id) : id ≠ [] := by
  obtain ⟨hsized,rfl⟩ := accept_eq_some.mp h
  exact ne_nil_of_sized hsized

lemma Action.requests_wellMade {sha256 : Text → Vector UInt8 32} {key : Text} {action : Action}
    {requests : List Request} (h : action.requests sha256 key = some requests) :
    ∀ request ∈ requests, WellMade request := by
  cases action with
  | listIssues input =>
    simp only [Action.requests,bind,Option.bind_eq_some_iff,pure,Option.some.injEq] at h
    obtain ⟨input,_,rfl⟩ := h
    exact List.forall_mem_singleton.mpr (repository_wellMade _ _ (by decide) (by decide))
  | createIssue input =>
    simp only [Action.requests,bind,Option.bind_eq_some_iff,pure,Option.some.injEq] at h
    obtain ⟨normalized,_,rfl⟩ := h
    rintro request (_ | ⟨_,hmem⟩)
    · exact repository_wellMade _ _ (by decide) (by decide)
    · cases hmem
  | createPullRequest input =>
    simp only [Action.requests,bind,Option.bind_eq_some_iff,pure,Option.some.injEq] at h
    obtain ⟨normalized,_,rfl⟩ := h
    intro request hrequest
    simp only [List.mem_cons,List.not_mem_nil,or_false] at hrequest
    rcases hrequest with rfl | rfl | rfl
    · exact repositoryRef_wellMade _ _ _
    · exact repositoryRef_wellMade _ _ _
    · exact repository_wellMade _ _ (by decide) (by decide)
  | listEvents calendarId =>
    simp only [Action.requests,bind,Option.bind_eq_some_iff,pure,Option.some.injEq] at h
    obtain ⟨id,_,rfl⟩ := h
    exact List.forall_mem_singleton.mpr (eventsRequest_wellMade id)
  | createEvent calendarId =>
    simp only [Action.requests,bind,Option.bind_eq_some_iff,pure,Option.some.injEq] at h
    obtain ⟨id,_,rfl⟩ := h
    intro request hrequest
    simp only [List.mem_cons,List.not_mem_nil,or_false] at hrequest
    rcases hrequest with rfl | rfl
    · exact eventsRequest_wellMade id
    · exact computed_wellMade sha256 key id
  | updateEvent calendarId eventId =>
    simp only [Action.requests,bind,Option.bind_eq_some_iff,pure,Option.some.injEq] at h
    obtain ⟨id,_,event,hevent,rfl⟩ := h
    exact List.forall_mem_singleton.mpr
      (eventRequest_wellMade id (idSchema_ne_nil hevent) (.inl ⟨event,rfl⟩))

/-- A request goes to the resource that was approved just when none of the approved names is a dot
name. -/
theorem requests_on_target {sha256 : Text → Vector UInt8 32} {key : Text} {action : Action}
    {requests : List Request} (h : action.requests sha256 key = some requests) :
    ∀ request ∈ requests, ∀ reference, request.reference = some reference →
      (OnTarget reference request.resource ↔
        ∀ name ∈ approvedNames request.resource, name ≠ ascii "." ∧ name ≠ ascii "..") := by
  intro request hrequest reference href
  rw [(Action.requests_wellMade h request hrequest).onTarget_iff href]
  simp only [IsDotName,not_or]

/-- A digest of zeros. -/
def zeros (_ : Text) : Vector UInt8 32 := Vector.replicate 32 0

/-- The paths an action's requests are parsed to. -/
def Action.paths (action : Action) : Option (List (Option (List Text))) :=
  (action.requests zeros []).map fun requests =>
    requests.map fun request => request.reference.map requestPath

theorem requests_on_target_primary :
    ∃ requests, (Action.listEvents none).requests zeros [] = some requests ∧
      ∀ request ∈ requests, ∀ reference, request.reference = some reference →
        (OnTarget reference request.resource ↔
          ∀ name ∈ approvedNames request.resource, name ≠ ascii "." ∧ name ≠ ascii "..") := by
  have haccepted : ((Action.listEvents none).requests zeros []).isSome = true := by decide +kernel
  obtain ⟨requests,hrequests⟩ := Option.isSome_iff_exists.mp haccepted
  exact ⟨requests,hrequests,requests_on_target hrequests⟩

/-- An issue approved for the repository `..` of `acme` is posted to `/repos/issues`, and an event of
the calendar `..` is listed from `/calendar/v3/events`. -/
theorem dot_names_leave_target :
    (Action.createIssue { labelled [] with repository := ascii ".." }).paths =
        some [some [ascii "repos",ascii "issues"]] ∧
      (Action.listEvents (some (ascii ".."))).paths =
        some [some [ascii "calendar",ascii "v3",ascii "events"]] ∧
      ¬ ∀ (action : Action) (requests : List Request), action.requests zeros [] = some requests →
        ∀ request ∈ requests, ∀ reference, request.reference = some reference →
          OnTarget reference request.resource := by
  refine ⟨by decide +kernel,by decide +kernel,fun hall => ?_⟩
  have haccepted : (Action.listEvents (some (ascii ".."))).requests zeros [] =
      some [eventsRequest (ascii "..")] := by decide +kernel
  have href : (eventsRequest (ascii "..")).reference =
      some (ascii "/calendar/v3/calendars/../events") := by decide +kernel
  have htarget := hall _ _ haccepted _ List.mem_cons_self _ href
  have hdots := ((Action.requests_wellMade haccepted _ List.mem_cons_self).onTarget_iff href).mp htarget
  exact hdots (ascii "..") (mem_approvedNames.mpr (by simp [eventsRequest,calendarResource])) (.inr rfl)

end Linea.ApprovedTargets
