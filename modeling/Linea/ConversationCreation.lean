import Linea.SqlConditions

/-! Which conversations may be created: the check that environment, workflow and subject of a new
conversation belong together, as the text of its query says it, and the creation that rests on it. -/
namespace Linea.ConversationCreation

open SqlConditions

inductive EnvironmentName where
  | dev
  | production
  deriving DecidableEq, Repr

inductive ExecutionEnvironment where
  | draft
  | dev
  | production
  deriving DecidableEq, Repr

def EnvironmentName.text : EnvironmentName → String
  | .dev => "dev"
  | .production => "production"

def ExecutionEnvironment.text : ExecutionEnvironment → String
  | .draft => "draft"
  | .dev => "dev"
  | .production => "production"

structure Application (Uuid : Type) where
  id : Uuid
  workspaceId : Uuid
  deriving DecidableEq, Repr

structure Environment (Uuid : Type) where
  id : Uuid
  workspaceId : Uuid
  applicationId : Uuid
  environment : EnvironmentName
  deriving DecidableEq, Repr

structure Workflow (Uuid : Type) where
  id : Uuid
  workspaceId : Uuid
  applicationId : Uuid
  deriving DecidableEq, Repr

structure ExternalSubject (Uuid : Type) where
  id : Uuid
  workspaceId : Uuid
  deriving DecidableEq, Repr

structure ExternalSubjectEnvironment (Uuid : Type) where
  workspaceId : Uuid
  environmentId : Uuid
  externalSubjectId : Uuid
  deriving DecidableEq, Repr

structure ConversationIdentity (Uuid : Type) where
  workspaceId : Uuid
  environmentId : Uuid
  workflowId : Uuid
  externalSubjectId : Uuid
  environment : ExecutionEnvironment
  deriving DecidableEq, Repr

/-- `metadata` is the text of the JSON. -/
structure Conversation (Uuid : Type) extends ConversationIdentity Uuid where
  id : Uuid
  externalThreadKey : Option String
  title : Option String
  metadata : String
  deriving DecidableEq, Repr

structure NewConversation (Uuid : Type) extends ConversationIdentity Uuid where
  id : Option Uuid
  externalThreadKey : Option String
  title : Option String
  metadata : Option String
  deriving DecidableEq, Repr

structure Tables (Uuid : Type) where
  applications : List (Application Uuid)
  environments : List (Environment Uuid)
  workflows : List (Workflow Uuid)
  externalSubjects : List (ExternalSubject Uuid)
  externalSubjectEnvironments : List (ExternalSubjectEnvironment Uuid)
  conversations : List (Conversation Uuid)

variable {Uuid : Type}

/-- The rows the foreign keys of a conversation point to. -/
structure References (tables : Tables Uuid) (row : Conversation Uuid) : Prop where
  environment : ∃ e ∈ tables.environments,
    e.id = row.environmentId ∧ e.workspaceId = row.workspaceId
  workflow : ∃ w ∈ tables.workflows, w.id = row.workflowId ∧ w.workspaceId = row.workspaceId
  subject : ∃ s ∈ tables.externalSubjects,
    s.id = row.externalSubjectId ∧ s.workspaceId = row.workspaceId
  link : ∃ l ∈ tables.externalSubjectEnvironments,
    l.environmentId = row.environmentId ∧ l.externalSubjectId = row.externalSubjectId

/-- The checks on one row of the table. -/
def Checked (row : Conversation Uuid) : Prop :=
  (∀ key ∈ row.externalThreadKey, 1 ≤ key.length ∧ key.length ≤ 256) ∧
    (∀ title ∈ row.title, 1 ≤ title.length ∧ title.length ≤ 200) ∧
    row.metadata.utf8ByteSize ≤ 16384

/-- Two conversations that the primary key or the index on threads keeps from standing together. -/
def Clash (row other : Conversation Uuid) : Prop :=
  row.id = other.id ∨
    row.environmentId = other.environmentId ∧ row.externalThreadKey.isSome ∧
      row.externalThreadKey = other.externalThreadKey

/-- The keys, unique indexes and foreign keys of the schema. -/
structure Constraints (tables : Tables Uuid) : Prop where
  environment_key : ∀ e ∈ tables.environments, ∀ e' ∈ tables.environments, e.id = e'.id → e = e'
  environment_name : ∀ e ∈ tables.environments, ∀ e' ∈ tables.environments,
    e.applicationId = e'.applicationId → e.environment = e'.environment → e = e'
  environment_application : ∀ e ∈ tables.environments, ∃ a ∈ tables.applications,
    a.id = e.applicationId ∧ a.workspaceId = e.workspaceId
  workflow_key : ∀ w ∈ tables.workflows, ∀ w' ∈ tables.workflows, w.id = w'.id → w = w'
  workflow_application : ∀ w ∈ tables.workflows, ∃ a ∈ tables.applications,
    a.id = w.applicationId ∧ a.workspaceId = w.workspaceId
  link_environment : ∀ l ∈ tables.externalSubjectEnvironments, ∃ e ∈ tables.environments,
    e.id = l.environmentId ∧ e.workspaceId = l.workspaceId
  link_subject : ∀ l ∈ tables.externalSubjectEnvironments, ∃ s ∈ tables.externalSubjects,
    s.id = l.externalSubjectId ∧ s.workspaceId = l.workspaceId
  conversation_key : tables.conversations.Pairwise fun row other => ¬ Clash row other
  conversation_checked : ∀ row ∈ tables.conversations, Checked row
  conversation_references : ∀ row ∈ tables.conversations, References tables row

structure Database (Uuid : Type) extends Tables Uuid where
  constraints : Constraints toTables

lemma Constraints.insert {tables : Tables Uuid} (h : Constraints tables) {row : Conversation Uuid}
    (hchecked : Checked row) (hfree : ∀ other ∈ tables.conversations, ¬ Clash row other)
    (hreferences : References tables row) :
    Constraints { tables with conversations := row :: tables.conversations } where
  environment_key := h.environment_key
  environment_name := h.environment_name
  environment_application := h.environment_application
  workflow_key := h.workflow_key
  workflow_application := h.workflow_application
  link_environment := h.link_environment
  link_subject := h.link_subject
  conversation_key := List.pairwise_cons.mpr ⟨hfree,h.conversation_key⟩
  conversation_checked := List.forall_mem_cons.mpr ⟨hchecked,h.conversation_checked⟩
  conversation_references := by
    intro other hother
    rcases List.mem_cons.mp hother with rfl | hother
    · exact ⟨hreferences.environment,hreferences.workflow,hreferences.subject,hreferences.link⟩
    · have href := h.conversation_references other hother
      exact ⟨href.environment,href.workflow,href.subject,href.link⟩

/-- What the row of an environment calls itself is what the identity calls it. -/
def Labelled (row : Environment Uuid) (identity : ConversationIdentity Uuid) : Prop :=
  row.environment.text = identity.environment.text ∨
    row.environment = .dev ∧ identity.environment = .draft

/-- Environment, workflow and subject of an identity belong together. -/
def IdentityValid (tables : Tables Uuid) (identity : ConversationIdentity Uuid) : Prop :=
  ∃ e ∈ tables.environments, e.id = identity.environmentId ∧ e.workspaceId = identity.workspaceId ∧
    Labelled e identity ∧
    (∃ w ∈ tables.workflows, w.id = identity.workflowId ∧ w.workspaceId = identity.workspaceId ∧
      w.applicationId = e.applicationId) ∧
    ∃ l ∈ tables.externalSubjectEnvironments,
      l.environmentId = e.id ∧ l.externalSubjectId = identity.externalSubjectId

/-- A link stands in the workspace of its environment. -/
lemma Constraints.link_workspace {tables : Tables Uuid} (h : Constraints tables)
    {l : ExternalSubjectEnvironment Uuid} (hl : l ∈ tables.externalSubjectEnvironments)
    {e : Environment Uuid} (he : e ∈ tables.environments) (hid : l.environmentId = e.id) :
    l.workspaceId = e.workspaceId := by
  obtain ⟨e',he',hid',hworkspace⟩ := h.link_environment l hl
  have hsame : e' = e := h.environment_key e' he' e he (hid'.trans hid)
  rw [← hworkspace,hsame]

/-- A row of the joined tables. -/
structure Joined (Uuid : Type) where
  environments : Environment Uuid
  workflows : Workflow Uuid
  externalSubjectEnvironments : ExternalSubjectEnvironment Uuid

/-- What a condition compares, as a test of the joined row. -/
abbrev Test (Uuid : Type) := Joined Uuid → Bool

def eq {β : Type} [DecidableEq β] (left right : Joined Uuid → β) : List (Token (Test Uuid)) :=
  [.atom fun row => left row == right row]

lemma eq_parses {β : Type} [DecidableEq β] (left right : Joined Uuid → β) :
    Parses .disjunction (eq left right) (.atom fun row => left row == right row) :=
  .conjunction (.operand (.atom _))

variable [DecidableEq Uuid]

instance (row : Environment Uuid) (identity : ConversationIdentity Uuid) :
    Decidable (Labelled row identity) :=
  inferInstanceAs (Decidable (_ ∨ _))

instance (tables : Tables Uuid) (identity : ConversationIdentity Uuid) :
    Decidable (IdentityValid tables identity) :=
  inferInstanceAs (Decidable (∃ e ∈ tables.environments, _))

instance (row other : Conversation Uuid) : Decidable (Clash row other) :=
  inferInstanceAs (Decidable (_ ∨ _))

instance (row : Conversation Uuid) : Decidable (Checked row) :=
  inferInstanceAs (Decidable (_ ∧ _ ∧ _))

instance (tables : Tables Uuid) (row : Conversation Uuid) : Decidable (References tables row) :=
  decidable_of_iff (_ ∧ _ ∧ _ ∧ _)
    ⟨fun ⟨h₁,h₂,h₃,h₄⟩ => ⟨h₁,h₂,h₃,h₄⟩,fun h => ⟨h.environment,h.workflow,h.subject,h.link⟩⟩

section Query
-- `and` is the query builder's.
variable (and : List (List (Token (Test Uuid))) → List (Token (Test Uuid)))

/-- The `ON` of the join with the workflows. -/
def onWorkflow (identity : ConversationIdentity Uuid) : List (Token (Test Uuid)) :=
  and [
    eq (·.workflows.id) fun _ => identity.workflowId,
    eq (·.workflows.workspaceId) fun _ => identity.workspaceId,
    eq (·.workflows.applicationId) (·.environments.applicationId)]

def onSubject (identity : ConversationIdentity Uuid) : List (Token (Test Uuid)) :=
  and [
    eq (·.externalSubjectEnvironments.environmentId) fun _ => identity.environmentId,
    eq (·.externalSubjectEnvironments.externalSubjectId) fun _ => identity.externalSubjectId,
    eq (·.externalSubjectEnvironments.workspaceId) fun _ => identity.workspaceId]

/-- The raw fragment, with the parentheses that stand in its text. -/
def labelFragment (identity : ConversationIdentity Uuid) : List (Token (Test Uuid)) :=
  [.leftParen,
    .atom fun row => row.environments.environment == .dev, .and,
    .atom fun _ => identity.environment.text == "draft",
    .rightParen, .or,
    .atom fun row => row.environments.environment.text == identity.environment.text]

def whereIdentity (identity : ConversationIdentity Uuid) : List (Token (Test Uuid)) :=
  and [
    eq (·.environments.id) fun _ => identity.environmentId,
    eq (·.environments.workspaceId) fun _ => identity.workspaceId,
    labelFragment identity]

def joined (tables : Tables Uuid) : List (Joined Uuid) :=
  tables.environments.flatMap fun e => tables.workflows.flatMap fun w =>
    tables.externalSubjectEnvironments.map fun l => ⟨e,w,l⟩

def identityExists (tables : Tables Uuid) (identity : ConversationIdentity Uuid) : Bool :=
  (joined tables).any fun row =>
    meets (onWorkflow and identity) (· row) && meets (onSubject and identity) (· row) &&
      meets (whereIdentity and identity) (· row)

end Query

def hasIdentity (conversation : Conversation Uuid) (identity : ConversationIdentity Uuid) : Bool :=
  conversation.workspaceId == identity.workspaceId &&
    conversation.environmentId == identity.environmentId &&
    conversation.workflowId == identity.workflowId &&
    conversation.externalSubjectId == identity.externalSubjectId &&
    conversation.environment == identity.environment

inductive DatabaseError where
  | checkViolation
  | foreignKeyViolation
  | invalidUuid
  deriving DecidableEq, Repr

/-- `INSERT … ON CONFLICT DO NOTHING`: a row that fails a check is refused, a row in the way leaves the
table as it was, and a row without the rows it points to is refused. -/
def insertConversation (db : Database Uuid) (row : Conversation Uuid) :
    Except DatabaseError (Option (Database Uuid)) :=
  if hchecked : Checked row then
    if hfree : ∀ other ∈ db.conversations, ¬ Clash row other then
      if hreferences : References db.toTables row then
        .ok (some ⟨_,db.constraints.insert hchecked hfree hreferences⟩)
      else .error .foreignKeyViolation
    else .ok none
  else .error .checkViolation

inductive CreateConversationResult (Uuid : Type) where
  | created (conversation : Conversation Uuid) (db : Database Uuid)
  | existing (conversation : Conversation Uuid)
  | identityInvalid
  | conversationIdentityConflict

/-- The database as each statement of the creation sees it: other transactions may commit between. -/
structure Moments (Uuid : Type) where
  lookup : Database Uuid
  check : Database Uuid
  insert : Database Uuid
  reread : Database Uuid

def findThread (db : Database Uuid) (input : NewConversation Uuid) (key : String) :
    Option (Conversation Uuid) :=
  db.conversations.find? fun row =>
    row.environmentId == input.environmentId && row.externalThreadKey == some key

/-- The key where JavaScript takes it for true. -/
def threadKey (input : NewConversation Uuid) : Option String :=
  input.externalThreadKey.filter (· != "")

/-- The row a racing creation has left. Without a key and an id the query compares ids with the empty
text, which is no id. -/
def racedConversation (db : Database Uuid) (input : NewConversation Uuid) :
    Except DatabaseError (Option (Conversation Uuid)) :=
  match threadKey input, input.id with
  | some key, _ => .ok (findThread db input key)
  | none, some id => .ok (db.conversations.find? fun row => row.id == id)
  | none, none => .error .invalidUuid

def newRow (fresh : Uuid) (input : NewConversation Uuid) : Conversation Uuid :=
  { input with id := input.id.getD fresh, metadata := input.metadata.getD "{}" }

/-- `fresh` is the id the database makes for a row without one. -/
def createConversation (and : List (List (Token (Test Uuid))) → List (Token (Test Uuid)))
    (moments : Moments Uuid) (fresh : Uuid) (input : NewConversation Uuid) :
    Except DatabaseError (CreateConversationResult Uuid) :=
  match (threadKey input).bind (findThread moments.lookup input) with
  | some existing =>
    if hasIdentity existing input.toConversationIdentity then .ok (.existing existing)
    else .ok .conversationIdentityConflict
  | none =>
    if identityExists and moments.check.toTables input.toConversationIdentity then do
      match ← insertConversation moments.insert (newRow fresh input) with
      | some db => return .created (newRow fresh input) db
      | none =>
        match ← racedConversation moments.reread input with
        | some raced =>
          if hasIdentity raced input.toConversationIdentity then return .existing raced
          else return .conversationIdentityConflict
        | none => return .conversationIdentityConflict
    else .ok .identityInvalid

lemma text_draft (environment : ExecutionEnvironment) :
    environment.text = "draft" ↔ environment = .draft := by
  cases environment <;> decide

omit [DecidableEq Uuid] in
lemma label_parses (identity : ConversationIdentity Uuid) :
    Parses .disjunction (labelFragment identity)
      (.or (.and (.atom fun row => row.environments.environment == .dev)
          (.atom fun _ => identity.environment.text == "draft"))
        (.atom fun row => row.environments.environment.text == identity.environment.text)) := by
  have hdraft := Parses.parens (.conjunction (.and (.operand
    (.atom fun row : Joined Uuid => row.environments.environment == .dev))
    (.atom fun _ => identity.environment.text == "draft")))
  exact .or (.conjunction (.operand hdraft)) (.operand (.atom _))

section Check
variable {and : List (List (Token (Test Uuid))) → List (Token (Test Uuid))} (hand : Conjoins and)
include hand

lemma meets_onWorkflow (identity : ConversationIdentity Uuid) (row : Joined Uuid) :
    meets (onWorkflow and identity) (· row) = true ↔
      row.workflows.id = identity.workflowId ∧ row.workflows.workspaceId = identity.workspaceId ∧
        row.workflows.applicationId = row.environments.applicationId := by
  have h := hand [(_,_),(_,_),(_,_)] (· row) (List.cons_ne_nil _ _) (by
    simp only [List.forall_mem_cons]
    exact ⟨eq_parses (·.workflows.id) fun _ => identity.workflowId,
      eq_parses (·.workflows.workspaceId) fun _ => identity.workspaceId,
      eq_parses (·.workflows.applicationId) (·.environments.applicationId),List.forall_mem_nil _⟩)
  simp only [List.map_cons,List.map_nil] at h
  rw [onWorkflow,h]
  simp [Condition.holds]

lemma meets_onSubject (identity : ConversationIdentity Uuid) (row : Joined Uuid) :
    meets (onSubject and identity) (· row) = true ↔
      row.externalSubjectEnvironments.environmentId = identity.environmentId ∧
        row.externalSubjectEnvironments.externalSubjectId = identity.externalSubjectId ∧
        row.externalSubjectEnvironments.workspaceId = identity.workspaceId := by
  have h := hand [(_,_),(_,_),(_,_)] (· row) (List.cons_ne_nil _ _) (by
    simp only [List.forall_mem_cons]
    exact ⟨eq_parses (·.externalSubjectEnvironments.environmentId) fun _ => identity.environmentId,
      eq_parses (·.externalSubjectEnvironments.externalSubjectId) fun _ => identity.externalSubjectId,
      eq_parses (·.externalSubjectEnvironments.workspaceId) fun _ => identity.workspaceId,
      List.forall_mem_nil _⟩)
  simp only [List.map_cons,List.map_nil] at h
  rw [onSubject,h]
  simp [Condition.holds]

lemma meets_whereIdentity (identity : ConversationIdentity Uuid) (row : Joined Uuid) :
    meets (whereIdentity and identity) (· row) = true ↔
      row.environments.id = identity.environmentId ∧
        row.environments.workspaceId = identity.workspaceId ∧ Labelled row.environments identity := by
  have h := hand [(_,_),(_,_),(_,_)] (· row) (List.cons_ne_nil _ _) (by
    simp only [List.forall_mem_cons]
    exact ⟨eq_parses (·.environments.id) fun _ => identity.environmentId,
      eq_parses (·.environments.workspaceId) fun _ => identity.workspaceId,label_parses identity,
      List.forall_mem_nil _⟩)
  simp only [List.map_cons,List.map_nil] at h
  rw [whereIdentity,h]
  simp [Condition.holds,text_draft,Labelled,or_comm]

/-- What the query asks, as SQL reads it. -/
theorem identityExists_eq_true (tables : Tables Uuid) (identity : ConversationIdentity Uuid) :
    identityExists and tables identity = true ↔
      ∃ e ∈ tables.environments, e.id = identity.environmentId ∧
        e.workspaceId = identity.workspaceId ∧ Labelled e identity ∧
        (∃ w ∈ tables.workflows, w.id = identity.workflowId ∧
          w.workspaceId = identity.workspaceId ∧ w.applicationId = e.applicationId) ∧
        ∃ l ∈ tables.externalSubjectEnvironments, l.environmentId = identity.environmentId ∧
          l.externalSubjectId = identity.externalSubjectId ∧
          l.workspaceId = identity.workspaceId := by
  have hrow : ∀ row : Joined Uuid, row ∈ joined tables ↔ row.environments ∈ tables.environments ∧
      row.workflows ∈ tables.workflows ∧
      row.externalSubjectEnvironments ∈ tables.externalSubjectEnvironments := by
    rintro ⟨e,w,l⟩
    simp [joined]
  rw [identityExists,List.any_eq_true]
  simp only [hrow,Bool.and_eq_true,meets_onWorkflow hand,meets_onSubject hand,meets_whereIdentity hand]
  constructor
  · rintro ⟨⟨e,w,l⟩,⟨he,hw,hl⟩,⟨hworkflow,hsubject⟩,hid,hworkspace,hlabel⟩
    exact ⟨e,he,hid,hworkspace,hlabel,⟨w,hw,hworkflow⟩,l,hl,hsubject⟩
  · rintro ⟨e,he,hid,hworkspace,hlabel,⟨w,hw,hworkflow⟩,l,hl,hsubject⟩
    exact ⟨⟨e,w,l⟩,⟨he,hw,hl⟩,⟨hworkflow,hsubject⟩,hid,hworkspace,hlabel⟩

lemma valid_iff (db : Database Uuid) (identity : ConversationIdentity Uuid) :
    identityExists and db.toTables identity = true ↔ IdentityValid db.toTables identity := by
  rw [identityExists_eq_true hand]
  constructor
  · rintro ⟨e,he,hid,hworkspace,hlabel,hworkflow,l,hl,henvironment,hsubject,-⟩
    exact ⟨e,he,hid,hworkspace,hlabel,hworkflow,l,hl,henvironment.trans hid.symm,hsubject⟩
  · rintro ⟨e,he,hid,hworkspace,hlabel,hworkflow,l,hl,henvironment,hsubject⟩
    exact ⟨e,he,hid,hworkspace,hlabel,hworkflow,l,hl,henvironment.trans hid,hsubject,
      (db.constraints.link_workspace hl he henvironment).trans hworkspace⟩

end Check

/-- A conversation that is created has the identity asked for, and the check has let it pass. -/
lemma createConversation_created
    {and : List (List (Token (Test Uuid))) → List (Token (Test Uuid))} {moments : Moments Uuid}
    {fresh : Uuid} {input : NewConversation Uuid} {conversation : Conversation Uuid}
    {db : Database Uuid} (h : createConversation and moments fresh input = .ok (.created conversation db)) :
    conversation.toConversationIdentity = input.toConversationIdentity ∧
      conversation ∈ db.conversations ∧
      identityExists and moments.check.toTables input.toConversationIdentity = true := by
  unfold createConversation at h
  split at h
  · split at h <;> cases h
  · split at h
    case isFalse => cases h
    case isTrue hexists =>
      cases hinsert : insertConversation moments.insert (newRow fresh input) with
      | error e => simp [hinsert,bind,Except.bind] at h
      | ok inserted =>
        cases inserted with
        | some after =>
          simp only [hinsert,bind,Except.bind,pure,Except.pure,Except.ok.injEq,
            CreateConversationResult.created.injEq] at h
          obtain ⟨rfl,rfl⟩ := h
          refine ⟨rfl,?_,hexists⟩
          unfold insertConversation at hinsert
          split_ifs at hinsert <;> cases hinsert
          exact List.mem_cons_self
        | none =>
          cases hraced : racedConversation moments.reread input with
          | error e => simp [hinsert,hraced,bind,Except.bind] at h
          | ok raced =>
            cases raced with
            | none => simp [hinsert,hraced,bind,Except.bind,pure,Except.pure] at h
            | some raced =>
              simp only [hinsert,hraced,bind,Except.bind,pure,Except.pure] at h
              split_ifs at h <;> cases h

/-- The check says what it is meant to, and no conversation is created across environments or
applications. -/
theorem identityExists_iff_valid {and : List (List (Token (Test Uuid))) → List (Token (Test Uuid))}
    (hand : Conjoins and) (db : Database Uuid) (identity : ConversationIdentity Uuid) :
    (identityExists and db.toTables identity = true ↔ IdentityValid db.toTables identity) ∧
    ∀ (moments : Moments Uuid) (fresh : Uuid) (input : NewConversation Uuid)
      (conversation : Conversation Uuid) (after : Database Uuid), moments.check = db →
      input.toConversationIdentity = identity →
      createConversation and moments fresh input = .ok (.created conversation after) →
      conversation ∈ after.conversations ∧ conversation.toConversationIdentity = identity ∧
        IdentityValid db.toTables identity := by
  refine ⟨valid_iff hand db identity,?_⟩
  rintro moments fresh input conversation after rfl rfl hcreated
  obtain ⟨hidentity,hmem,hexists⟩ := createConversation_created hcreated
  exact ⟨hmem,hidentity,(valid_iff hand _ _).mp hexists⟩

/-- Two applications of a workspace, a production environment of each, a workflow of the second and a
subject of the first. -/
def twoApplications : Database ℕ where
  applications := [⟨1,0⟩,⟨2,0⟩]
  environments := [⟨11,0,1,.production⟩,⟨12,0,2,.production⟩]
  workflows := [⟨22,0,2⟩]
  externalSubjects := [⟨31,0⟩]
  externalSubjectEnvironments := [⟨0,11,31⟩]
  conversations := []
  constraints :=
    ⟨by decide,by decide,by decide,by decide,by decide,by decide,by decide,.nil,by simp,by simp⟩

/-- The subject's environment, and the workflow of the other application. -/
def crossedInput : NewConversation ℕ where
  workspaceId := 0
  environmentId := 11
  workflowId := 22
  externalSubjectId := 31
  environment := .production
  id := some 40
  externalThreadKey := none
  title := none
  metadata := none

/-- The subject is linked to the second environment too. -/
def linkedTwice : Database ℕ where
  toTables :=
    { twoApplications.toTables with externalSubjectEnvironments := [⟨0,11,31⟩,⟨0,12,31⟩] }
  constraints :=
    ⟨by decide,by decide,by decide,by decide,by decide,by decide,by decide,.nil,by simp [twoApplications],
      by simp [twoApplications]⟩

theorem identityExists_iff_valid_linkedTwice :
    ∃ conversation after, createConversation andEach ⟨linkedTwice,linkedTwice,linkedTwice,linkedTwice⟩
        0 { crossedInput with environmentId := 12 } = .ok (.created conversation after) ∧
      conversation ∈ after.conversations ∧
      IdentityValid linkedTwice.toTables { crossedInput with environmentId := 12 } ∧
      identityExists andEach linkedTwice.toTables crossedInput.toConversationIdentity = false := by
  have hcreated : createConversation andEach ⟨linkedTwice,linkedTwice,linkedTwice,linkedTwice⟩ 0
      { crossedInput with environmentId := 12 } = .ok (.created _ _) := rfl
  obtain ⟨hmem,_,hvalid⟩ := (identityExists_iff_valid conjoins_andEach linkedTwice
    { crossedInput with environmentId := 12 }).2 ⟨linkedTwice,linkedTwice,linkedTwice,linkedTwice⟩ 0
    { crossedInput with environmentId := 12 } _ _ rfl rfl hcreated
  exact ⟨_,_,hcreated,hmem,hvalid,by decide⟩

/-- Were the fragments joined bare, the check would pass on the other application's environment, and
the conversation would be created across the two applications. -/
theorem conversation_crosses_applications :
    identityExists andBare twoApplications.toTables crossedInput.toConversationIdentity = true ∧
      ¬ IdentityValid twoApplications.toTables crossedInput.toConversationIdentity ∧
      ∃ conversation after, createConversation andBare
          ⟨twoApplications,twoApplications,twoApplications,twoApplications⟩ 0 crossedInput =
        .ok (.created conversation after) :=
  ⟨by decide,by decide,_,_,rfl⟩

end Linea.ConversationCreation
