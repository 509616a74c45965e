import Linea.SafeDisplay

/-! The approvals of the GitHub operations: what an input is kept as, what of it is shown, and whether
what is shown determines what is done. -/
namespace Linea.GithubDisplays

open JsonText (Text ascii)
open TextEdits
open GithubApi
open SafeDisplay
open Separators (join cut)

structure Target where
  owner : Text
  repository : Text
  deriving DecidableEq, Repr

structure Normalized (Parameters Preconditions : Type) where
  target : Target
  parameters : Parameters
  providerPreconditions : Preconditions
  deriving DecidableEq, Repr

/-- The input of `github.issues.create`, and its parameters. -/
structure Issue where
  owner : Text
  repository : Text
  title : Text
  body : Text
  labels : List Text
  assignees : List Text
  deriving DecidableEq, Repr

def titleSchema (s : Text) : Option Text := accept (sized 1 200 (trim s)) (trim s)

def bodySchema (s : Text) : Option Text := accept (sized 0 500 s) s

def labelsSchema (labels : List Text) : Option (List Text) :=
  accept (sized 0 5 labels && labels.all (sized 1 50)) (distinctSorted labels)

/-- `^[A-Za-z0-9](?:[A-Za-z0-9-]{0,38})$` -/
def isAssignee (s : Text) : Bool :=
  sized 1 39 s && (s.take 1).all isAlphanumeric && s.all fun u => isAlphanumeric u || u == 45

def assigneesSchema (assignees : List Text) : Option (List Text) :=
  accept (sized 0 5 assignees && assignees.all isAssignee) (distinctSorted assignees)

/-- `inputSchema` and `parametersSchema` of the issues. -/
def issueSchema (input : Issue) : Option Issue := do
  let owner ← githubOwnerSchema input.owner
  let repository ← githubRepositorySchema input.repository
  let title ← titleSchema input.title
  let body ← bodySchema input.body
  let labels ← labelsSchema input.labels
  let assignees ← assigneesSchema input.assignees
  return ⟨owner,repository,title,body,labels,assignees⟩

def normalizeIssue (rawInput : Issue) : Option (Normalized Issue Unit) := do
  let input ← issueSchema rawInput
  return {
    target := ⟨toLowerCase input.owner,toLowerCase input.repository⟩
    parameters :=
      { input with owner := toLowerCase input.owner, repository := toLowerCase input.repository }
    providerPreconditions := () }

/-- `items.join(", ") || "None"` -/
def listText (items : List Text) : Text :=
  if join [44,32] items = [] then ascii "None" else join [44,32] items

def issueDetails (input : Issue) : List (Text × Text) := [
  (ascii "Repository",escapeSafeDisplayText (input.owner ++ 47 :: input.repository)),
  (ascii "Title",escapeSafeDisplayText input.title),
  (ascii "Body",escapeSafeDisplayText input.body),
  (ascii "Labels",escapeSafeDisplayText (listText input.labels)),
  (ascii "Assignees",escapeSafeDisplayText (listText input.assignees))]

def displayIssue (envelope : Normalized Issue Unit) : Option Display := do
  let input ← issueSchema envelope.parameters
  return {
    title := ascii "Create GitHub issue"
    description := none
    details := issueDetails input }

/-- What the reviewer of an issue is shown. -/
def shownIssue (envelope : Normalized Issue Unit) : Option Display :=
  (displayIssue envelope).bind validateSafeDisplay

/-- The parameters of `github.pull_requests.create`. -/
structure PullRequest where
  owner : Text
  repository : Text
  title : Text
  body : Text
  head : Text
  base : Text
  draft : Bool
  deriving DecidableEq, Repr

structure ExpectedShas where
  expectedHeadSha : Text
  expectedBaseSha : Text
  deriving DecidableEq, Repr

structure PullRequestInput extends PullRequest, ExpectedShas
  deriving DecidableEq, Repr

def pullRequestSchema (input : PullRequest) : Option PullRequest := do
  let owner ← githubOwnerSchema input.owner
  let repository ← githubRepositorySchema input.repository
  let title ← titleSchema input.title
  let body ← bodySchema input.body
  let head ← githubBranchSchema input.head
  let base ← githubBranchSchema input.base
  return ⟨owner,repository,title,body,head,base,input.draft⟩

def preconditionsSchema (input : ExpectedShas) : Option ExpectedShas := do
  let expectedHeadSha ← githubShaSchema input.expectedHeadSha
  let expectedBaseSha ← githubShaSchema input.expectedBaseSha
  return ⟨expectedHeadSha,expectedBaseSha⟩

def normalizePullRequest (rawInput : PullRequestInput) :
    Option (Normalized PullRequest ExpectedShas) := do
  let input ← pullRequestSchema rawInput.toPullRequest
  let expected ← preconditionsSchema rawInput.toExpectedShas
  return {
    target := ⟨toLowerCase input.owner,toLowerCase input.repository⟩
    parameters :=
      { input with owner := toLowerCase input.owner, repository := toLowerCase input.repository }
    providerPreconditions := expected }

def pullRequestDetails (input : PullRequest) (expected : ExpectedShas) : List (Text × Text) := [
  (ascii "Repository",escapeSafeDisplayText (input.owner ++ 47 :: input.repository)),
  (ascii "Title",escapeSafeDisplayText input.title),
  (ascii "Body",escapeSafeDisplayText input.body),
  (ascii "Head",escapeSafeDisplayText input.head),
  (ascii "Head commit",expected.expectedHeadSha),
  (ascii "Base",escapeSafeDisplayText input.base),
  (ascii "Base commit",expected.expectedBaseSha),
  (ascii "Draft",ascii (if input.draft then "Yes" else "No"))]

def displayPullRequest (envelope : Normalized PullRequest ExpectedShas) : Option Display := do
  let input ← pullRequestSchema envelope.parameters
  let expected ← preconditionsSchema envelope.providerPreconditions
  return {
    title := ascii "Create GitHub pull request"
    description := none
    details := pullRequestDetails input expected }

def shownPullRequest (envelope : Normalized PullRequest ExpectedShas) : Option Display :=
  (displayPullRequest envelope).bind validateSafeDisplay

/-! ## What the schemas accept is accepted again -/

lemma titleSchema_again {s title : Text} (h : titleSchema s = some title) :
    titleSchema title = some title := by
  obtain ⟨hsize,rfl⟩ := accept_eq_some.mp h
  rw [titleSchema,trim_trim]
  exact accept_eq_some.mpr ⟨hsize,rfl⟩

lemma all_distinctSorted {p : Text → Bool} {items : List Text} (h : items.all p = true) :
    (distinctSorted items).all p = true :=
  List.all_eq_true.mpr fun item hitem => List.all_eq_true.mp h item (mem_distinctSorted.mp hitem)

/-- A schema for a list of at most five items of a kind. -/
lemma listSchema_again {p : Text → Bool} {items result : List Text}
    (h : accept (sized 0 5 items && items.all p) (distinctSorted items) = some result) :
    accept (sized 0 5 result && result.all p) (distinctSorted result) = some result ∧
      ∀ item ∈ result, p item = true := by
  obtain ⟨hvalid,rfl⟩ := accept_eq_some.mp h
  rw [Bool.and_eq_true] at hvalid
  have hall := all_distinctSorted hvalid.2
  refine ⟨accept_eq_some.mpr ⟨?_,distinctSorted_distinctSorted items⟩,List.all_eq_true.mp hall⟩
  have hlength := distinctSorted_length_le items
  simp only [sized,Bool.and_eq_true,decide_eq_true_eq] at hvalid ⊢
  exact ⟨⟨Nat.zero_le _,by omega⟩,hall⟩

lemma shaSchema_again {s sha : Text} (h : githubShaSchema s = some sha) :
    githubShaSchema sha = some sha := by
  obtain ⟨hvalid,rfl⟩ := accept_eq_some.mp h
  rw [Bool.and_eq_true] at hvalid
  rw [githubShaSchema,toLowerCase_toLowerCase,accept_eq_some,Bool.and_eq_true,sized,
    toLowerCase_length]
  exact ⟨⟨hvalid.1,caseless_shaUnit.all hvalid.2⟩,rfl⟩

lemma issueSchema_eq_some {input result : Issue} :
    issueSchema input = some result ↔ githubOwnerSchema input.owner = some result.owner ∧
      githubRepositorySchema input.repository = some result.repository ∧
      titleSchema input.title = some result.title ∧ bodySchema input.body = some result.body ∧
      labelsSchema input.labels = some result.labels ∧
      assigneesSchema input.assignees = some result.assignees := by
  constructor
  · intro h
    simp only [issueSchema,bind,Option.bind_eq_some_iff,pure,Option.some.injEq] at h
    obtain ⟨owner,howner,repository,hrepository,title,htitle,body,hbody,labels,hlabels,assignees,
      hassignees,rfl⟩ := h
    exact ⟨howner,hrepository,htitle,hbody,hlabels,hassignees⟩
  · rintro ⟨howner,hrepository,htitle,hbody,hlabels,hassignees⟩
    simp only [issueSchema,howner,hrepository,htitle,hbody,hlabels,hassignees]
    rfl

lemma pullRequestSchema_eq_some {input result : PullRequest} :
    pullRequestSchema input = some result ↔ githubOwnerSchema input.owner = some result.owner ∧
      githubRepositorySchema input.repository = some result.repository ∧
      titleSchema input.title = some result.title ∧ bodySchema input.body = some result.body ∧
      githubBranchSchema input.head = some result.head ∧
      githubBranchSchema input.base = some result.base ∧ input.draft = result.draft := by
  constructor
  · intro h
    simp only [pullRequestSchema,bind,Option.bind_eq_some_iff,pure,Option.some.injEq] at h
    obtain ⟨owner,howner,repository,hrepository,title,htitle,body,hbody,head,hhead,base,hbase,rfl⟩ := h
    exact ⟨howner,hrepository,htitle,hbody,hhead,hbase,rfl⟩
  · rintro ⟨howner,hrepository,htitle,hbody,hhead,hbase,hdraft⟩
    simp only [pullRequestSchema,howner,hrepository,htitle,hbody,hhead,hbase,hdraft]
    rfl

lemma preconditionsSchema_again {input expected : ExpectedShas}
    (h : preconditionsSchema input = some expected) : preconditionsSchema expected = some expected := by
  simp only [preconditionsSchema,bind,Option.bind_eq_some_iff,pure,Option.some.injEq] at h
  obtain ⟨head,hhead,base,hbase,rfl⟩ := h
  simp only [preconditionsSchema,shaSchema_again hhead,shaSchema_again hbase]
  rfl

lemma name_again {s name : Text} (h : accept (sized 1 100 s && s.all isNameUnit) s = some name) :
    accept (sized 1 100 (toLowerCase name) && (toLowerCase name).all isNameUnit) (toLowerCase name) =
      some (toLowerCase name) ∧ 47 ∉ toLowerCase name := by
  obtain ⟨hvalid,rfl⟩ := accept_eq_some.mp h
  have hlower := name_lower hvalid
  exact ⟨accept_eq_some.mpr ⟨hlower,rfl⟩,slash_notMem (Bool.and_eq_true_iff.mp hlower).2⟩

/-! ## The displays -/

/-- The names of a repository are told apart at the slash. -/
lemma repository_inj {owner repository owner' repository' : Text} (h : 47 ∉ owner) (h' : 47 ∉ owner')
    (heq : escapeSafeDisplayText (owner ++ 47 :: repository) =
      escapeSafeDisplayText (owner' ++ 47 :: repository')) :
    owner = owner' ∧ repository = repository' :=
  Separators.append_separator_inj h h' (escapeSafeDisplayText_injective heq)

lemma shown_details {display shown : Display} (h : validateSafeDisplay display = some shown) :
    shown = display :=
  (accept_eq_some.mp h).2.symm

/-- What an issue's input is kept as. -/
def Issue.kept (input : Issue) : Issue where
  owner := toLowerCase input.owner
  repository := toLowerCase input.repository
  title := trim input.title
  body := input.body
  labels := distinctSorted input.labels
  assignees := distinctSorted input.assignees

/-- What holds of the parameters an accepted input is kept as. -/
structure IssueParameters (parameters : Issue) : Prop where
  again : issueSchema parameters = some parameters
  owner : 47 ∉ parameters.owner
  labels : ∀ label ∈ parameters.labels, label ≠ []
  assignees : ∀ assignee ∈ parameters.assignees, assignee ≠ []

lemma ne_nil_of_sized {most : ℕ} {s : Text} (h : sized 1 most s = true) : s ≠ [] := by
  rintro rfl
  simp [sized] at h

lemma normalizeIssue_spec {rawInput : Issue} {normalized : Normalized Issue Unit}
    (h : normalizeIssue rawInput = some normalized) :
    normalized = ⟨⟨toLowerCase rawInput.owner,toLowerCase rawInput.repository⟩,rawInput.kept,()⟩ ∧
      IssueParameters rawInput.kept := by
  simp only [normalizeIssue,bind,Option.bind_eq_some_iff,pure,Option.some.injEq] at h
  obtain ⟨input,hinput,rfl⟩ := h
  obtain ⟨howner,hrepository,htitle,hbody,hlabels,hassignees⟩ := issueSchema_eq_some.mp hinput
  have hkept : rawInput.kept =
      { input with owner := toLowerCase input.owner, repository := toLowerCase input.repository } := by
    rw [Issue.kept,← (accept_eq_some.mp howner).2,← (accept_eq_some.mp hrepository).2,
      ← (accept_eq_some.mp htitle).2,← (accept_eq_some.mp hbody).2,← (accept_eq_some.mp hlabels).2,
      ← (accept_eq_some.mp hassignees).2]
  obtain ⟨howner',hslash⟩ := name_again howner
  obtain ⟨hlabels',hlabel⟩ := listSchema_again hlabels
  obtain ⟨hassignees',hassignee⟩ := listSchema_again hassignees
  have hbody' : bodySchema input.body = some input.body := (accept_eq_some.mp hbody).2 ▸ hbody
  constructor
  · rw [hkept,← (accept_eq_some.mp howner).2,← (accept_eq_some.mp hrepository).2]
  · rw [hkept]
    refine ⟨issueSchema_eq_some.mpr ⟨howner',(name_again hrepository).1,titleSchema_again htitle,hbody',
      hlabels',hassignees'⟩,hslash,?_,?_⟩
    · exact fun label hmem => ne_nil_of_sized (hlabel label hmem)
    · intro assignee hmem
      have hsized := hassignee assignee hmem
      rw [isAssignee,Bool.and_eq_true,Bool.and_eq_true] at hsized
      exact ne_nil_of_sized hsized.1.1

lemma shownIssue_spec {parameters : Issue} (h : IssueParameters parameters) {target : Target}
    {shown : Display} (hshown : shownIssue ⟨target,parameters,()⟩ = some shown) :
    shown = ⟨ascii "Create GitHub issue",none,issueDetails parameters⟩ := by
  simp only [shownIssue,displayIssue,h.again,bind,Option.bind_some,pure] at hshown
  exact shown_details hshown

/-- A list as it is shown, cut at every comma with a space. -/
def pieces (items : List Text) : List Text :=
  (if items = [] then [ascii "None"] else items).flatMap (cut 44 32)

lemma listText_eq {items : List Text} (h : ∀ item ∈ items, item ≠ []) :
    listText items = join [44,32] (if items = [] then [ascii "None"] else items) := by
  cases items with
  | nil => rfl
  | cons item rest =>
    have hne : join [44,32] (item :: rest) ≠ [] := by
      cases rest with
      | nil => simpa using h item (by simp)
      | cons next rest => simp [Separators.join_cons]
    rw [listText,if_neg hne,if_neg (List.cons_ne_nil _ _)]

lemma listText_eq_iff {items items' : List Text} (h : ∀ item ∈ items, item ≠ [])
    (h' : ∀ item ∈ items', item ≠ []) :
    listText items = listText items' ↔ pieces items = pieces items' := by
  have hne : ∀ items : List Text, (if items = [] then [ascii "None"] else items) ≠ [] := by
    intro items
    split
    · exact List.cons_ne_nil _ _
    · next hitems => exact hitems
  rw [listText_eq h,listText_eq h']
  exact Separators.join_eq_iff (by decide) (hne items) (hne items')

lemma issueDetails_eq_iff {p q : Issue} (hp : IssueParameters p) (hq : IssueParameters q) :
    issueDetails p = issueDetails q ↔ p.owner = q.owner ∧ p.repository = q.repository ∧
      p.title = q.title ∧ p.body = q.body ∧ pieces p.labels = pieces q.labels ∧
      pieces p.assignees = pieces q.assignees := by
  rw [← listText_eq_iff hp.labels hq.labels,← listText_eq_iff hp.assignees hq.assignees]
  constructor
  · intro h
    simp only [issueDetails,List.cons.injEq,Prod.mk.injEq,true_and,and_true] at h
    obtain ⟨hrepository,htitle,hbody,hlabels,hassignees⟩ := h
    obtain ⟨howner,hrepository⟩ := repository_inj hp.owner hq.owner hrepository
    exact ⟨howner,hrepository,escapeSafeDisplayText_injective htitle,
      escapeSafeDisplayText_injective hbody,escapeSafeDisplayText_injective hlabels,
      escapeSafeDisplayText_injective hassignees⟩
  · rintro ⟨howner,hrepository,htitle,hbody,hlabels,hassignees⟩
    rw [issueDetails,issueDetails,howner,hrepository,htitle,hbody,hlabels,hassignees]

/-- Two inputs that differ in their labels or assignees alone, and that not by a cut: a label with a
comma and a space stands beside the labels it is made of, or no item beside the one item `None`. -/
def Ambiguous (a b : Issue) : Prop :=
  toLowerCase a.owner = toLowerCase b.owner ∧
    toLowerCase a.repository = toLowerCase b.repository ∧ trim a.title = trim b.title ∧
    a.body = b.body ∧ pieces (distinctSorted a.labels) = pieces (distinctSorted b.labels) ∧
    pieces (distinctSorted a.assignees) = pieces (distinctSorted b.assignees) ∧
    ¬ (distinctSorted a.labels = distinctSorted b.labels ∧
      distinctSorted a.assignees = distinctSorted b.assignees)

lemma normalized_eq_iff (a b : Issue) :
    a.kept = b.kept ↔ toLowerCase a.owner = toLowerCase b.owner ∧
      toLowerCase a.repository = toLowerCase b.repository ∧ trim a.title = trim b.title ∧
      a.body = b.body ∧ distinctSorted a.labels = distinctSorted b.labels ∧
      distinctSorted a.assignees = distinctSorted b.assignees := by
  rw [Issue.kept,Issue.kept,Issue.mk.injEq]

theorem issue_displays {a b : Issue} {n n' : Normalized Issue Unit} {d d' : Display}
    (ha : normalizeIssue a = some n) (hb : normalizeIssue b = some n') (hd : shownIssue n = some d)
    (hd' : shownIssue n' = some d') : (d = d' → n = n') ↔ ¬ Ambiguous a b := by
  obtain ⟨rfl,hkept⟩ := normalizeIssue_spec ha
  obtain ⟨rfl,hkept'⟩ := normalizeIssue_spec hb
  rw [shownIssue_spec hkept hd,shownIssue_spec hkept' hd']
  have hdisplay : (⟨ascii "Create GitHub issue",none,issueDetails a.kept⟩ : Display) =
      ⟨ascii "Create GitHub issue",none,issueDetails b.kept⟩ ↔
      issueDetails a.kept = issueDetails b.kept := by
    simp only [Display.mk.injEq,true_and]
  have hnormalized : (⟨⟨toLowerCase a.owner,toLowerCase a.repository⟩,a.kept,()⟩ :
      Normalized Issue Unit) = ⟨⟨toLowerCase b.owner,toLowerCase b.repository⟩,b.kept,()⟩ ↔
      a.kept = b.kept := by
    constructor
    · intro h
      exact congrArg Normalized.parameters h
    · intro h
      have howner : toLowerCase a.owner = toLowerCase b.owner := congrArg Issue.owner h
      have hrepository : toLowerCase a.repository = toLowerCase b.repository :=
        congrArg Issue.repository h
      rw [h,howner,hrepository]
  rw [hdisplay,hnormalized,issueDetails_eq_iff hkept hkept',normalized_eq_iff]
  constructor
  · rintro h ⟨howner,hrepository,htitle,hbody,hlabels,hassignees,hdiffer⟩
    exact hdiffer (h ⟨howner,hrepository,htitle,hbody,hlabels,hassignees⟩).2.2.2.2
  · rintro h ⟨howner,hrepository,htitle,hbody,hlabels,hassignees⟩
    by_contra hdiffer
    exact h ⟨howner,hrepository,htitle,hbody,hlabels,hassignees,
      fun hsame => hdiffer ⟨howner,hrepository,htitle,hbody,hsame⟩⟩

/-- Items without a comma and a space are pieces of their own. -/
lemma pieces_plain {items : List Text} (h : ∀ item ∈ items, ∀ u v, item ≠ u ++ 44 :: 32 :: v) :
    pieces items = if items = [] then [ascii "None"] else items := by
  have hcut : ∀ item ∈ (if items = [] then [ascii "None"] else items), cut 44 32 item = [item] := by
    intro item hitem
    refine Separators.cut_plain fun u v huv => ?_
    split at hitem
    · rw [List.mem_singleton.mp hitem] at huv
      exact absurd (huv ▸ List.mem_append_right u List.mem_cons_self) (by decide : 44 ∉ ascii "None")
    · exact h item hitem u v huv
  rw [pieces,List.flatMap_congr hcut,List.flatMap_singleton']

/-- One of two lists is empty and the other the one item `None`. -/
def EmptyOrNone (items items' : List Text) : Prop :=
  items = [] ∧ items' = [ascii "None"] ∨ items = [ascii "None"] ∧ items' = []

lemma emptyOrNone_of_pieces {items items' : List Text}
    (h : ∀ item ∈ items, ∀ u v, item ≠ u ++ 44 :: 32 :: v)
    (h' : ∀ item ∈ items', ∀ u v, item ≠ u ++ 44 :: 32 :: v) (heq : pieces items = pieces items')
    (hne : items ≠ items') : EmptyOrNone items items' := by
  rw [pieces_plain h,pieces_plain h'] at heq
  split_ifs at heq with hempty hempty' hempty'
  · exact absurd (hempty.trans hempty'.symm) hne
  · exact .inl ⟨hempty,heq.symm⟩
  · exact .inr ⟨heq,hempty'⟩
  · exact absurd heq hne

lemma comma_notMem {s : Text} (h : isAssignee s = true) : 44 ∉ s := by
  intro hmem
  rw [isAssignee,Bool.and_eq_true,List.all_eq_true] at h
  exact absurd (h.2 44 hmem) (by decide)

/-- Where the ambiguity of two accepted inputs comes from. -/
lemma Ambiguous.cases {a b : Issue} {n n' : Normalized Issue Unit} (ha : normalizeIssue a = some n)
    (hb : normalizeIssue b = some n') (h : Ambiguous a b) :
    (∃ label u v, (label ∈ a.labels ∨ label ∈ b.labels) ∧ label = u ++ 44 :: 32 :: v) ∨
      EmptyOrNone (distinctSorted a.labels) (distinctSorted b.labels) ∨
      EmptyOrNone (distinctSorted a.assignees) (distinctSorted b.assignees) := by
  obtain ⟨_,_,_,_,hlabels,hassignees,hdiffer⟩ := h
  have hassignee : ∀ {c : Issue} {m : Normalized Issue Unit}, normalizeIssue c = some m →
      ∀ item ∈ distinctSorted c.assignees, ∀ u v, item ≠ u ++ 44 :: 32 :: v := by
    intro c m hc item hitem u v huv
    have hkept := (normalizeIssue_spec hc).2.again
    obtain ⟨_,_,_,_,_,hschema⟩ := issueSchema_eq_some.mp hkept
    have hvalid := (accept_eq_some.mp hschema).1
    rw [Bool.and_eq_true] at hvalid
    exact comma_notMem (List.all_eq_true.mp hvalid.2 item hitem) (by rw [huv]; simp)
  by_cases hplain : ∀ label, label ∈ a.labels ∨ label ∈ b.labels → ∀ u v, label ≠ u ++ 44 :: 32 :: v
  · right
    by_cases hsame : distinctSorted a.labels = distinctSorted b.labels
    · exact .inr (emptyOrNone_of_pieces (hassignee ha) (hassignee hb) hassignees
        fun heq => hdiffer ⟨hsame,heq⟩)
    · exact .inl (emptyOrNone_of_pieces (fun item hitem => hplain item (.inl (mem_distinctSorted.mp hitem)))
        (fun item hitem => hplain item (.inr (mem_distinctSorted.mp hitem))) hlabels hsame)
  · push Not at hplain
    obtain ⟨label,hmem,u,v,huv⟩ := hplain
    exact .inl ⟨label,u,v,hmem,huv⟩

/-! ## Pull requests -/

/-- What a pull request's input is kept as. -/
def PullRequest.kept (input : PullRequest) : PullRequest :=
  { input with
    owner := toLowerCase input.owner
    repository := toLowerCase input.repository
    title := trim input.title }

structure PullRequestParameters (parameters : PullRequest) : Prop where
  again : pullRequestSchema parameters = some parameters
  owner : 47 ∉ parameters.owner

lemma pullRequest_kept {input parameters : PullRequest}
    (h : pullRequestSchema input = some parameters) :
    ({ parameters with
      owner := toLowerCase parameters.owner
      repository := toLowerCase parameters.repository } : PullRequest) = input.kept ∧
      PullRequestParameters input.kept := by
  obtain ⟨howner,hrepository,htitle,hbody,hhead,hbase,hdraft⟩ := pullRequestSchema_eq_some.mp h
  have hkept : input.kept = { parameters with
      owner := toLowerCase parameters.owner
      repository := toLowerCase parameters.repository } := by
    rw [PullRequest.kept,← (accept_eq_some.mp howner).2,← (accept_eq_some.mp hrepository).2,
      ← (accept_eq_some.mp htitle).2,← (accept_eq_some.mp hbody).2,← (accept_eq_some.mp hhead).2,
      ← (accept_eq_some.mp hbase).2,hdraft]
  obtain ⟨howner',hslash⟩ := name_again howner
  refine ⟨hkept.symm,?_⟩
  rw [hkept]
  exact ⟨pullRequestSchema_eq_some.mpr ⟨howner',(name_again hrepository).1,titleSchema_again htitle,
    (accept_eq_some.mp hbody).2 ▸ hbody,(accept_eq_some.mp hhead).2 ▸ hhead,
    (accept_eq_some.mp hbase).2 ▸ hbase,rfl⟩,hslash⟩

lemma normalizePullRequest_spec {rawInput : PullRequestInput}
    {normalized : Normalized PullRequest ExpectedShas}
    (h : normalizePullRequest rawInput = some normalized) :
    ∃ expected, preconditionsSchema expected = some expected ∧
      PullRequestParameters rawInput.toPullRequest.kept ∧
      normalized = ⟨⟨rawInput.toPullRequest.kept.owner,rawInput.toPullRequest.kept.repository⟩,
        rawInput.toPullRequest.kept,expected⟩ := by
  simp only [normalizePullRequest,bind,Option.bind_eq_some_iff,pure,Option.some.injEq] at h
  obtain ⟨input,hinput,expected,hexpected,rfl⟩ := h
  obtain ⟨hkept,hparameters⟩ := pullRequest_kept hinput
  exact ⟨expected,preconditionsSchema_again hexpected,hparameters,by rw [← hkept]⟩

lemma shownPullRequest_spec {parameters : PullRequest} (h : PullRequestParameters parameters)
    {expected : ExpectedShas} (hexpected : preconditionsSchema expected = some expected)
    {target : Target} {shown : Display}
    (hshown : shownPullRequest ⟨target,parameters,expected⟩ = some shown) :
    shown = ⟨ascii "Create GitHub pull request",none,pullRequestDetails parameters expected⟩ := by
  simp only [shownPullRequest,displayPullRequest,h.again,hexpected,bind,Option.bind_some,pure] at hshown
  exact shown_details hshown

lemma yesNo_injective {b c : Bool}
    (h : ascii (if b then "Yes" else "No") = ascii (if c then "Yes" else "No")) : b = c := by
  revert b c
  decide

lemma pullRequestDetails_inj {p q : PullRequest} {e f : ExpectedShas} (hp : PullRequestParameters p)
    (hq : PullRequestParameters q) (h : pullRequestDetails p e = pullRequestDetails q f) :
    p = q ∧ e = f := by
  simp only [pullRequestDetails,List.cons.injEq,Prod.mk.injEq,true_and,and_true] at h
  obtain ⟨hrepository,htitle,hbody,hhead,hheadSha,hbase,hbaseSha,hdraft⟩ := h
  obtain ⟨howner,hrepository⟩ := repository_inj hp.owner hq.owner hrepository
  obtain ⟨owner,repository,title,body,head,base,draft⟩ := p
  obtain ⟨headSha,baseSha⟩ := e
  simp only at howner hrepository htitle hbody hhead hbase hdraft hheadSha hbaseSha
  rw [howner,hrepository,escapeSafeDisplayText_injective htitle,escapeSafeDisplayText_injective hbody,
    escapeSafeDisplayText_injective hhead,escapeSafeDisplayText_injective hbase,yesNo_injective hdraft,
    hheadSha,hbaseSha]
  exact ⟨rfl,rfl⟩

theorem pullRequest_displays {a b : PullRequestInput} {n n' : Normalized PullRequest ExpectedShas}
    {d : Display} (ha : normalizePullRequest a = some n) (hb : normalizePullRequest b = some n')
    (hd : shownPullRequest n = some d) (hd' : shownPullRequest n' = some d) : n = n' := by
  obtain ⟨e,he,hp,rfl⟩ := normalizePullRequest_spec ha
  obtain ⟨f,hf,hq,rfl⟩ := normalizePullRequest_spec hb
  have hshown := (shownPullRequest_spec hp he hd).symm.trans (shownPullRequest_spec hq hf hd')
  obtain ⟨hkept,rfl⟩ := pullRequestDetails_inj hp hq (congrArg Display.details hshown)
  rw [hkept]

/-- Displays that are equal are those of one pull request. Of issues they are those of one issue unless
the two are ambiguous, and that takes a label with a comma and a space or a list of `None` alone. -/
theorem displays_determine (a b : Issue) (p q : PullRequestInput) (d d' : Display) :
    (∀ n n' : Normalized Issue Unit, normalizeIssue a = some n → normalizeIssue b = some n' →
      shownIssue n = some d → shownIssue n' = some d' →
      ((d = d' → n = n') ↔ ¬ Ambiguous a b) ∧
      (Ambiguous a b →
        (∃ label u v, (label ∈ a.labels ∨ label ∈ b.labels) ∧ label = u ++ 44 :: 32 :: v) ∨
        EmptyOrNone (distinctSorted a.labels) (distinctSorted b.labels) ∨
        EmptyOrNone (distinctSorted a.assignees) (distinctSorted b.assignees))) ∧
    ∀ n n' : Normalized PullRequest ExpectedShas,
      normalizePullRequest p = some n → normalizePullRequest q = some n' →
      shownPullRequest n = some d → shownPullRequest n' = some d' → d = d' → n = n' := by
  refine ⟨fun n n' ha hb hd hd' => ⟨issue_displays ha hb hd hd',Ambiguous.cases ha hb⟩,?_⟩
  rintro n n' ha hb hd hd' rfl
  exact pullRequest_displays ha hb hd hd'

/-- An issue with the given labels. -/
def labelled (labels : List Text) : Issue where
  owner := ascii "Acme"
  repository := ascii "site"
  title := ascii "Broken link"
  body := []
  labels := labels
  assignees := []

/-- A pull request of a branch, expected at a commit. -/
def proposed (headSha : Text) : PullRequestInput where
  owner := ascii "Acme"
  repository := ascii "site"
  title := ascii "Fix link"
  body := []
  head := ascii "fix/link"
  base := ascii "main"
  draft := false
  expectedHeadSha := headSha
  expectedBaseSha := List.replicate 40 97

def shownOf (rawInput : Issue) : Option Display := (normalizeIssue rawInput).bind shownIssue

lemma shownOf_isSome {rawInput : Issue} (h : (shownOf rawInput).isSome = true) :
    ∃ n d, normalizeIssue rawInput = some n ∧ shownIssue n = some d := by
  obtain ⟨d,hd⟩ := Option.isSome_iff_exists.mp h
  obtain ⟨n,hn,hshown⟩ := Option.bind_eq_some_iff.mp hd
  exact ⟨n,d,hn,hshown⟩

theorem displays_determine_labelled :
    (∃ n n' d d', normalizeIssue (labelled [ascii "bug"]) = some n ∧
      normalizeIssue (labelled [ascii "docs"]) = some n' ∧ shownIssue n = some d ∧
      shownIssue n' = some d' ∧
      ((d = d' → n = n') ↔ ¬ Ambiguous (labelled [ascii "bug"]) (labelled [ascii "docs"]))) ∧
    ∃ n n' d, normalizePullRequest (proposed (List.replicate 40 65)) = some n ∧
      normalizePullRequest (proposed (List.replicate 40 97)) = some n' ∧
      shownPullRequest n = some d ∧ shownPullRequest n' = some d ∧ n = n' := by
  have hbug : (shownOf (labelled [ascii "bug"])).isSome = true := by decide +kernel
  have hdocs : (shownOf (labelled [ascii "docs"])).isSome = true := by decide +kernel
  obtain ⟨n,d,hn,hd⟩ := shownOf_isSome hbug
  obtain ⟨n',d',hn',hd'⟩ := shownOf_isSome hdocs
  refine ⟨⟨n,n',d,d',hn,hn',hd,hd',((displays_determine _ _ (proposed []) (proposed []) d d').1 n n' hn hn' hd hd').1⟩,?_⟩
  -- A commit id is kept in lower case.
  have hcase : (normalizePullRequest (proposed (List.replicate 40 65))).bind shownPullRequest =
      (normalizePullRequest (proposed (List.replicate 40 97))).bind shownPullRequest := by
    decide +kernel
  have hproposed : ((normalizePullRequest (proposed (List.replicate 40 65))).bind
      shownPullRequest).isSome = true := by decide +kernel
  obtain ⟨shown,hshown⟩ := Option.isSome_iff_exists.mp hproposed
  obtain ⟨p,hp,hpd⟩ := Option.bind_eq_some_iff.mp hshown
  obtain ⟨q,hq,hqd⟩ := Option.bind_eq_some_iff.mp (hcase.symm.trans hshown)
  exact ⟨p,q,shown,hp,hq,hpd,hqd,
    (displays_determine (labelled []) (labelled []) _ _ shown shown).2 p q hp hq hpd hqd rfl⟩

/-- Two labels and the one that is made of them are shown alike, and so are no label and the label
`None`. -/
theorem labels_shown_alike :
    (shownOf (labelled [ascii "a",ascii "b"]) = shownOf (labelled [ascii "a, b"]) ∧
      (shownOf (labelled [ascii "a",ascii "b"])).isSome ∧
      normalizeIssue (labelled [ascii "a",ascii "b"]) ≠ normalizeIssue (labelled [ascii "a, b"])) ∧
    shownOf (labelled []) = shownOf (labelled [ascii "None"]) ∧ (shownOf (labelled [])).isSome ∧
      normalizeIssue (labelled []) ≠ normalizeIssue (labelled [ascii "None"]) := by
  decide +kernel

end Linea.GithubDisplays
