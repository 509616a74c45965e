import Linea.OrderedMap
import Linea.Runs
import Mathlib.Data.Int.Notation
import Mathlib.Data.List.Sort
import Mathlib.Order.Basic
import Mathlib.Algebra.Order.Group.Nat

/-! The live list of approval requests: a hook whose refreshes, stream events and reconciliations read
the server side by side and take effect under one generation counter, while its client and conversation
may change. -/
namespace Linea.ApprovalList

structure Scope (Client Id : Type) where
  client : Client
  conversationId : Option Id
  deriving DecidableEq, Repr

inductive Status where
  | pending
  | decided
  | cancelled
  deriving DecidableEq, Repr

structure ApprovalRequest (Id : Type) where
  id : Id
  conversationId : Option Id
  status : Status
  requestedAt : String
  deriving DecidableEq, Repr

variable {Client Id : Type}

/-- A request as it was read, with the scope it was read for and the number of changes the server had
gone through. -/
structure Read (Client Id : Type) extends ApprovalRequest Id where
  readFor : Scope Client Id
  readAt : ℕ
  deriving DecidableEq, Repr

variable (localeCompare : String → String → ℤ)

/-- `sort` is stable. -/
def ordered (requests : List (Read Client Id)) : List (Read Client Id) :=
  requests.insertionSort fun left right => localeCompare left.requestedAt right.requestedAt ≤ 0

/-- The map that both lists are put into. -/
def byId [DecidableEq Id] (current replacements : List (Read Client Id)) :
    OrderedMap Id (Read Client Id) :=
  replacements.foldl (fun m request => m.set request.id request)
    (current.foldl (fun m request => m.set request.id request) .empty)

def mergeRequests [DecidableEq Id] (current replacements : List (Read Client Id)) :
    List (Read Client Id) :=
  ordered localeCompare ((byId current replacements).entries.map Prod.snd)

section Merge
variable [DecidableEq Id]

/-- Each request stands under its own id. -/
def Keyed (m : OrderedMap Id (Read Client Id)) : Prop := ∀ p ∈ m.entries, p.2.id = p.1

lemma mem_entries_set {m : OrderedMap Id (Read Client Id)} {request : Read Client Id}
    {p : Id × Read Client Id} (h : p ∈ (m.set request.id request).entries) :
    p = (request.id,request) ∨ p ∈ m.entries := by
  obtain ⟨k,r⟩ := p
  rw [← OrderedMap.get?_iff_mem,OrderedMap.get?_set] at h
  split_ifs at h with hk
  · left
    rw [hk,Option.some.inj h]
  · right
    exact OrderedMap.mem_of_get? h

lemma Keyed.foldl {requests : List (Read Client Id)} {m : OrderedMap Id (Read Client Id)}
    (h : Keyed m) : Keyed (requests.foldl (fun m request => m.set request.id request) m) := by
  induction requests generalizing m with
  | nil => exact h
  | cons request requests ih =>
    refine ih fun p hp => ?_
    rcases mem_entries_set hp with rfl | hp
    · rfl
    · exact h p hp

lemma mem_foldl_set {requests : List (Read Client Id)} {m : OrderedMap Id (Read Client Id)}
    {p : Id × Read Client Id}
    (h : p ∈ (requests.foldl (fun m request => m.set request.id request) m).entries) :
    p.2 ∈ requests ∨ p ∈ m.entries := by
  induction requests generalizing m with
  | nil => exact .inr h
  | cons request requests ih =>
    rcases ih h with hp | hp
    · exact .inl (List.mem_cons_of_mem _ hp)
    · rcases mem_entries_set hp with rfl | hp
      · exact .inl List.mem_cons_self
      · exact .inr hp

lemma byId_keyed (current replacements : List (Read Client Id)) :
    Keyed (byId current replacements) :=
  Keyed.foldl (Keyed.foldl fun _ hp => absurd hp List.not_mem_nil)

lemma mergeRequests_perm (current replacements : List (Read Client Id)) :
    (mergeRequests localeCompare current replacements).Perm
      ((byId current replacements).entries.map Prod.snd) :=
  List.perm_insertionSort _ _

variable {localeCompare}

lemma mem_mergeRequests {current replacements : List (Read Client Id)} {r : Read Client Id}
    (h : r ∈ mergeRequests localeCompare current replacements) : r ∈ replacements ∨ r ∈ current := by
  obtain ⟨p,hp,rfl⟩ := List.mem_map.mp ((mergeRequests_perm _ _ _).mem_iff.mp h)
  rcases mem_foldl_set hp with hp | hp
  · exact .inl hp
  · rcases mem_foldl_set hp with hp | hp
    · exact .inr hp
    · exact absurd hp List.not_mem_nil

/-- No request is listed twice. -/
lemma mergeRequests_nodup (current replacements : List (Read Client Id)) :
    ((mergeRequests localeCompare current replacements).map (·.id)).Nodup := by
  rw [((mergeRequests_perm localeCompare current replacements).map _).nodup_iff,List.map_map]
  have hkeys : (byId current replacements).entries.map ((·.id) ∘ Prod.snd) =
      (byId current replacements).keys :=
    List.map_congr_left fun p hp => byId_keyed current replacements p hp
  rw [hkeys]
  exact OrderedMap.keys_nodup _

end Merge

inductive Ending where
  | decided
  | cancelled
  deriving DecidableEq, Repr

/-- A request on the server: when it was made and when it ended, in changes of the server. -/
structure Row (Id : Type) where
  conversationId : Option Id
  requestedAt : String
  since : ℕ
  settled : Option (ℕ × Ending)
  deriving DecidableEq, Repr

def Row.status (row : Row Id) : Status :=
  match row.settled with
  | none => .pending
  | some (_,.decided) => .decided
  | some (_,.cancelled) => .cancelled

lemma Row.status_pending_iff (row : Row Id) : row.status = .pending ↔ row.settled = none := by
  rw [Row.status]
  split
  · simp_all
  · simp_all
  · simp_all

def Row.PendingAt (row : Row Id) (t : ℕ) : Prop := row.since ≤ t ∧ ∀ e ∈ row.settled, t < e.1

inductive Kind where
  | refresh
  | reconciled
  | event
  deriving DecidableEq, Repr

/-- Where an operation stands: reading the pages of the pending list, reading the requests that are
missing from it, reading the request of an event, or with its list in place. A page is answered before
its reply arrives. -/
inductive Reading (Client Id : Type) where
  | loading (pending : List (Read Client Id)) (page : Option (List (Read Client Id) × Bool))
  | resolving (pending : List (Read Client Id))
    (resolved : List (Id × Option (Option (Read Client Id))))
  | request (id : Id) (answer : Option (Read Client Id))
  | applied
  deriving DecidableEq, Repr

/-- `since` is the number of changes of the server when the operation's first read was asked for. -/
structure Op (Client Id : Type) where
  kind : Kind
  scope : Scope Client Id
  since : ℕ
  reading : Reading Client Id
  deriving DecidableEq, Repr

def Op.read (op : Op Client Id) (reading : Reading Client Id) : Op Client Id :=
  { op with reading := reading }

/-- The loop of the effect with the stream it reads: what the stream does, or the operation whose end
the loop waits for. -/
inductive Consume (Client Id : Type) where
  | over
  | connecting
  | reading
  | listing (since : ℕ) (approvalRequests : List (Read Client Id))
    (page : Option (List (Read Client Id) × Bool))
  | listed (since : ℕ) (approvalRequests : List (Read Client Id))
  | handling (op : ℕ) (connected : Bool)
  deriving DecidableEq, Repr

inductive Connection where
  | loading
  | ready
  | reconnecting
  | error
  deriving DecidableEq, Repr

/-- The hook and the server. `scope` is the ref that every render sets, `mounted` the scope of the effect
that runs, and `rendered` holds the scopes whose `refresh` may have been kept. Operations stand under
their generation; `now` counts the changes of the server, and `replacedAt` is its value when the list
was last replaced. -/
structure View (Client Id : Type) where
  scope : Scope Client Id
  mounted : Option (Scope Client Id)
  rendered : List (Scope Client Id)
  generation : ℕ
  requests : List (Read Client Id)
  connection : Connection
  error : Bool
  ops : ℕ → Option (Op Client Id)
  consume : Consume Client Id
  server : Id → Option (Row Id)
  now : ℕ
  replacedAt : ℕ

namespace View

/-- The first render, before any request has been made. -/
def mount (scope : Scope Client Id) : View Client Id :=
  ⟨scope,none,[scope],0,[],.loading,false,fun _ => none,.over,fun _ => none,0,0⟩

/-- The pending requests. -/
def pending (s : View Client Id) : List (Read Client Id) :=
  s.requests.filter fun r => r.status = .pending

def setOp (g : ℕ) (op : Option (Op Client Id)) (s : View Client Id) : View Client Id :=
  { s with ops := fun g' => if g' = g then op else s.ops g' }

/-- The next generation is that of a new operation. -/
def begin (op : Op Client Id) (s : View Client Id) : View Client Id :=
  setOp (s.generation + 1) (some op) { s with generation := s.generation + 1 }

/-- The loop waits for the operation that has just begun. -/
def await (connected : Bool) (s : View Client Id) : View Client Id :=
  { s with consume := .handling s.generation connected }

/-- `refresh` up to its first `await`. -/
def refresh (scope : Scope Client Id) (s : View Client Id) : View Client Id :=
  begin ⟨.refresh,scope,s.now,.loading [] none⟩ { s with error := false }

def replaceRequests (requests : List (Read Client Id)) (s : View Client Id) : View Client Id :=
  { s with requests := requests, replacedAt := s.now }

/-- The clean-up of the effect before, whose loop goes no further, and what the effect resets. -/
def clear (s : View Client Id) : View Client Id :=
  replaceRequests [] { s with
    mounted := some s.scope
    generation := if s.mounted.isSome then s.generation + 2 else s.generation + 1
    connection := .loading
    error := false
    consume := .over }

def effect (s : View Client Id) : View Client Id := (s.clear.refresh s.scope).await false

/-- The operation has ended and the loop goes on if it waited for it. -/
def endOp (g : ℕ) (s : View Client Id) : View Client Id :=
  setOp g none { s with
    consume := match s.consume with
      | .handling op connected =>
        if op = g then (if connected then .reading else .connecting) else .handling op connected
      | consume => consume }

/-- The end of an operation that throws: `refresh` catches its error, the loop ends by the others. -/
def failOp (g : ℕ) (op : Op Client Id) (s : View Client Id) : View Client Id :=
  match op.kind with
  | .refresh =>
    if s.generation = g then { s.endOp g with error := true, connection := .error } else s.endOp g
  | _ =>
    match s.consume with
    | .handling op _ =>
      if op = g then
        setOp g none { s with error := true, connection := .error, consume := .over }
      else setOp g none s
    | _ => setOp g none s

variable [DecidableEq Id]

/-- The server changes a request. -/
def setRow (id : Id) (row : Row Id) (s : View Client Id) : View Client Id :=
  { s with
    server := fun id' => if id' = id then some row else s.server id'
    now := s.now + 1 }

def render [DecidableEq Client] (scope : Scope Client Id) (s : View Client Id) : View Client Id :=
  { s with
    scope := scope
    generation := if scope = s.scope then s.generation else s.generation + 1
    rendered := s.rendered ++ [scope] }

/-- The request as the server has it. -/
def readRequest (scope : Scope Client Id) (id : Id) (s : View Client Id) :
    Option (Read Client Id) :=
  (s.server id).map fun row =>
    ⟨⟨id,row.conversationId,row.status,row.requestedAt⟩,scope,s.now⟩

/-- A page of the list: those of the requests `ids` that are pending in the conversation. -/
def page (scope : Scope Client Id) (ids : List Id) (s : View Client Id) : List (Read Client Id) :=
  (ids.filterMap (s.readRequest scope)).filter fun r =>
    r.status = .pending ∧ (scope.conversationId = none ∨ r.conversationId = scope.conversationId)

/-- The shown requests that are missing from the pending list are asked for. -/
def reconcile (pending : List (Read Client Id)) (s : View Client Id) : Reading Client Id :=
  .resolving pending ((s.requests.filter fun r =>
    r.status = .pending ∧ r.id ∉ pending.map (·.id)).map fun r => (r.id,none))

/-- The end of `reconcile`, with the requests that were found. -/
def applyList (g : ℕ) (op : Op Client Id) (pending resolved : List (Read Client Id))
    (s : View Client Id) : View Client Id :=
  if s.generation = g then
    replaceRequests (mergeRequests localeCompare (s.requests.filter fun r => r.status ≠ .pending)
      (pending ++ resolved)) (s.setOp g (some (op.read .applied)))
  else s.setOp g (some (op.read .applied))

/-- The end of an event's read. -/
def applyRequest (g : ℕ) (request : Read Client Id) (s : View Client Id) : View Client Id :=
  if s.generation = g then
    replaceRequests (mergeRequests localeCompare s.requests [request]) (s.endOp g)
  else s.endOp g

end View

/-- The answer to one of the reads of `reconcile`; `none` is a request that was not found. -/
def answered [DecidableEq Id] (id : Id) (answer : Option (Read Client Id))
    (resolved : List (Id × Option (Option (Read Client Id)))) :
    List (Id × Option (Option (Read Client Id))) :=
  resolved.map fun p => if p.1 = id ∧ p.2 = none then (id,some answer) else p

/-- Reads are answered by `pageRead`, `requestRead` and `listRead`, and `found` is false where the server
hides the request from the client. The last two are moves of the server. -/
inductive Act (Client Id : Type) where
  | render (scope : Scope Client Id)
  | effect
  | refresh (scope : Scope Client Id)
  | poll
  | connected
  | reconnecting
  | event (approvalRequestId : Option Id)
  | expired
  | listRead (ids : List Id) (more : Bool)
  | listReply
  | reconciled
  | streamFails
  | pageRead (op : ℕ) (ids : List Id) (more : Bool)
  | pageReply (op : ℕ)
  | requestRead (op : ℕ) (id : Id) (found : Bool)
  | apply (op : ℕ)
  | complete (op : ℕ)
  | fails (op : ℕ)
  | create (id : Id) (conversationId : Option Id) (requestedAt : String)
  | settle (id : Id) (ending : Ending)

namespace View

/-! ### The stream -/

/-- The stream is open. -/
def connected (scope : Scope Client Id) (s : View Client Id) : Option (View Client Id) :=
  match s.consume with
  | .connecting => some ((s.refresh scope).await true)
  | _ => none

/-- The stream could not be opened, or has ended. -/
def reconnecting (s : View Client Id) : Option (View Client Id) :=
  match s.consume with
  | .connecting | .reading => some { s with connection := .reconnecting, consume := .connecting }
  | _ => none

def event (scope : Scope Client Id) (approvalRequestId : Option Id) (s : View Client Id) :
    Option (View Client Id) :=
  match s.consume, approvalRequestId with
  | .reading, some id => some ((s.begin ⟨.event,scope,s.now,.request id none⟩).await true)
  | .reading, none => some s
  | _, _ => none

/-- The cursor of the stream has expired, and it lists the requests. -/
def expired (s : View Client Id) : Option (View Client Id) :=
  match s.consume with
  | .connecting => some { s with consume := .listing s.now [] none }
  | _ => none

def listReply (s : View Client Id) : Option (View Client Id) :=
  match s.consume with
  | .listing since requests (some (data,more)) =>
    some { s with consume :=
      if more then .listing since (requests ++ data) none else .listed since (requests ++ data) }
  | _ => none

def streamFails (s : View Client Id) : Option (View Client Id) :=
  match s.consume with
  | .connecting | .reading | .listing _ _ _ =>
    some { s with error := true, connection := .error, consume := .over }
  | _ => none

/-! ### Operations -/

def complete (g : ℕ) (op : Op Client Id) (s : View Client Id) : Option (View Client Id) :=
  match op.reading with
  | .applied => some (if s.generation = g then { s.endOp g with connection := .ready } else s.endOp g)
  | _ => none

def fails (g : ℕ) (op : Op Client Id) (s : View Client Id) : Option (View Client Id) :=
  match op.reading with
  | .applied => none
  | _ => some (s.failOp g op)

variable [DecidableEq Id]

def listRead (scope : Scope Client Id) (ids : List Id) (more : Bool) (s : View Client Id) :
    Option (View Client Id) :=
  match s.consume with
  | .listing since requests none =>
    some { s with consume := .listing since requests (some (s.page scope ids,more)) }
  | _ => none

def reconciled (scope : Scope Client Id) (s : View Client Id) : Option (View Client Id) :=
  match s.consume with
  | .listed since requests =>
    some ((s.begin ⟨.reconciled,scope,since,s.reconcile requests⟩).await false)
  | _ => none

def pageRead (g : ℕ) (op : Op Client Id) (ids : List Id) (more : Bool) (s : View Client Id) :
    Option (View Client Id) :=
  match op.reading with
  | .loading pending none =>
    some (s.setOp g (some (op.read (.loading pending (some (s.page op.scope ids,more))))))
  | _ => none

def pageReply (g : ℕ) (op : Op Client Id) (s : View Client Id) : Option (View Client Id) :=
  match op.reading with
  | .loading pending (some (data,more)) =>
    some (s.setOp g (some (op.read
      (if more then .loading (pending ++ data) none else s.reconcile (pending ++ data)))))
  | _ => none

def requestRead (g : ℕ) (op : Op Client Id) (id : Id) (found : Bool) (s : View Client Id) :
    Option (View Client Id) :=
  match op.reading with
  | .resolving pending resolved =>
    some (s.setOp g (some (op.read (.resolving pending
      (answered id (if found then s.readRequest op.scope id else none) resolved)))))
  | .request id' none =>
    (s.readRequest op.scope id').map fun request =>
      s.setOp g (some (op.read (.request id' (some request))))
  | _ => none

def apply (g : ℕ) (op : Op Client Id) (s : View Client Id) : Option (View Client Id) :=
  match op.reading with
  | .resolving pending resolved =>
    if resolved.all fun p => p.2.isSome then
      some (s.applyList localeCompare g op pending (resolved.filterMap Prod.snd).reduceOption)
    else none
  | .request _ (some request) => some (s.applyRequest localeCompare g request)
  | _ => none

end View

/-- `none` when the act is not possible. React runs the effects that are due before it renders again. -/
def step [DecidableEq Client] [DecidableEq Id] (s : View Client Id) :
    Act Client Id → Option (View Client Id)
  | .render scope => if s.mounted = some s.scope then some (s.render scope) else none
  | .effect => if s.mounted = some s.scope then none else some s.effect
  | .refresh scope => if scope ∈ s.rendered then some (s.refresh scope) else none
  | .poll => s.mounted.map fun scope => s.refresh scope
  | .connected => s.mounted.bind fun scope => s.connected scope
  | .reconnecting => s.reconnecting
  | .event approvalRequestId => s.mounted.bind fun scope => s.event scope approvalRequestId
  | .expired => s.expired
  | .listRead ids more => s.mounted.bind fun scope => s.listRead scope ids more
  | .listReply => s.listReply
  | .reconciled => s.mounted.bind fun scope => s.reconciled scope
  | .streamFails => s.streamFails
  | .pageRead g ids more => (s.ops g).bind fun op => s.pageRead g op ids more
  | .pageReply g => (s.ops g).bind fun op => s.pageReply g op
  | .requestRead g id found => (s.ops g).bind fun op => s.requestRead g op id found
  | .apply g => (s.ops g).bind fun op => s.apply localeCompare g op
  | .complete g => (s.ops g).bind fun op => s.complete g op
  | .fails g => (s.ops g).bind fun op => s.fails g op
  | .create id conversationId requestedAt =>
    match s.server id with
    | none => some (s.setRow id ⟨conversationId,requestedAt,s.now + 1,none⟩)
    | some _ => none
  | .settle id ending =>
    match s.server id with
    | some ⟨conversationId,requestedAt,since,none⟩ =>
      some (s.setRow id ⟨conversationId,requestedAt,since,some (s.now + 1,ending)⟩)
    | _ => none

/-- Functions kept from a render of another scope are not called once the change has taken effect, and
the list of a stream is taken only if no list has been applied to the view after a change of the server
since the stream asked for it. -/
def Current (s : View Client Id) : Act Client Id → Prop
  | .refresh scope => s.mounted = some s.scope → scope = s.scope
  | .reconciled => ∀ since requests, s.consume = .listed since requests → s.replacedAt ≤ since
  | _ => True

/-! ## The invariant -/

/-- What was read is what the server had then, and a request that had ended then has ended. -/
def Genuine (server : Id → Option (Row Id)) (now : ℕ) (r : Read Client Id) : Prop :=
  r.readAt ≤ now ∧ ∃ row, server r.id = some row ∧
    (r.status = .pending → row.PendingAt r.readAt) ∧
    (r.status ≠ .pending → ∃ e ∈ row.settled, e.1 ≤ r.readAt)

/-- Read for the scope when the server had gone through `since` changes or later. -/
def Told (server : Id → Option (Row Id)) (now since : ℕ) (scope : Scope Client Id)
    (r : Read Client Id) : Prop :=
  Genuine server now r ∧ since ≤ r.readAt ∧ r.readFor = scope

/-- The reads that an operation holds. -/
def Reading.reads : Reading Client Id → List (Read Client Id)
  | .loading pending page => pending ++ (page.elim [] Prod.fst)
  | .resolving pending resolved => pending ++ (resolved.filterMap Prod.snd).reduceOption
  | .request _ answer => answer.toList
  | .applied => []

def Consume.reads : Consume Client Id → List (Read Client Id)
  | .listing _ requests page => requests ++ (page.elim [] Prod.fst)
  | .listed _ requests => requests
  | _ => []

def Consume.since : Consume Client Id → ℕ
  | .listing since _ _ | .listed since _ => since
  | _ => 0

/-- The operation of the current generation: it is of the current scope, the list has not been replaced
since its reads began, and once it has been applied the requests shown as pending were read since. -/
def Live (s : View Client Id) (op : Op Client Id) : Prop :=
  (s.mounted = some s.scope → op.scope = s.scope) ∧
  (op.reading ≠ .applied → s.replacedAt ≤ op.since) ∧
  (op.reading = .applied → ∀ r ∈ s.requests, r.status = .pending → op.since ≤ r.readAt)

structure Inv (s : View Client Id) : Prop where
  rows : ∀ id row, s.server id = some row → row.since ≤ s.now ∧ ∀ e ∈ row.settled, e.1 ≤ s.now
  replaced : s.replacedAt ≤ s.now
  shown : ∀ r ∈ s.requests, Genuine s.server s.now r ∧ r.readAt ≤ s.replacedAt
  nodup : (s.requests.map (·.id)).Nodup
  own : s.mounted = some s.scope → ∀ r ∈ s.requests, r.readFor = s.scope
  bounded : ∀ g op, s.ops g = some op → g ≤ s.generation ∧ op.since ≤ s.now
  reads : ∀ g op, s.ops g = some op →
    ∀ r ∈ op.reading.reads, Told s.server s.now op.since op.scope r
  live : ∀ op, s.ops s.generation = some op → Live s op
  stream : s.consume.since ≤ s.now ∧ ∀ scope, s.mounted = some scope →
    ∀ r ∈ s.consume.reads, Told s.server s.now s.consume.since scope r

/-- What a step keeps of the state before it. -/
structure Advances (s t : View Client Id) : Prop where
  ended : ∀ id row, s.server id = some row → ∀ e ∈ row.settled,
    ∃ row', t.server id = some row' ∧ e ∈ row'.settled
  replaced : s.replacedAt ≤ t.replacedAt
  requests : ∀ r ∈ t.requests, r ∈ s.requests ∨ s.replacedAt ≤ r.readAt

lemma Advances.same {s t : View Client Id} (hserver : t.server = s.server)
    (hrequests : t.requests = s.requests) (hreplaced : t.replacedAt = s.replacedAt) :
    Advances s t where
  ended id row hrow e he := ⟨row,by rw [hserver,hrow],he⟩
  replaced := hreplaced.ge
  requests r hr := .inl (hrequests ▸ hr)

lemma Advances.trans {s t u : View Client Id} (h : Advances s t) (h' : Advances t u) :
    Advances s u where
  ended id row hrow e he := by
    obtain ⟨row',hrow',he'⟩ := h.ended id row hrow e he
    exact h'.ended id row' hrow' e he'
  replaced := h.replaced.trans h'.replaced
  requests r hr := by
    rcases h'.requests r hr with hr | hr
    · exact h.requests r hr
    · exact .inr (h.replaced.trans hr)

/-- A request shown as ended is not shown as pending later: it had ended when the list was last
replaced, and what is new in the list was read after that. -/
lemma Advances.settled {s t : View Client Id} (h : Advances s t) (hs : Inv s) (ht : Inv t)
    {r r' : Read Client Id} (hr : r ∈ s.requests) (hr' : r' ∈ t.requests) (hid : r'.id = r.id)
    (hended : r.status ≠ .pending) : r'.status ≠ .pending := by
  intro hpending
  rcases h.requests r' hr' with hold | hnew
  · rw [List.inj_on_of_nodup_map hs.nodup hold hr hid] at hpending
    exact hended hpending
  · obtain ⟨⟨-,row,hrow,-,hsettled⟩,hread⟩ := hs.shown r hr
    obtain ⟨e,he,hle⟩ := hsettled hended
    obtain ⟨row',hrow',he'⟩ := h.ended _ row hrow e he
    obtain ⟨⟨-,row'',hrow'',hat,-⟩,-⟩ := ht.shown r' hr'
    obtain rfl := Option.some.inj (hrow'.symm.trans (hid ▸ hrow''))
    exact absurd ((hat hpending).2 e he') (by omega)

variable {s : View Client Id} {scope : Scope Client Id} {op : Op Client Id} {g : ℕ}

/-- The error and the connection shown play no part. -/
lemma Inv.mark (h : Inv s) (error : Bool) (connection : Connection) :
    Inv { s with error := error, connection := connection } :=
  ⟨h.rows,h.replaced,h.shown,h.nodup,h.own,h.bounded,h.reads,h.live,h.stream⟩

lemma Inv.setConsume (h : Inv s) {consume : Consume Client Id}
    (hconsume : consume.since ≤ s.now ∧ ∀ scope, s.mounted = some scope →
      ∀ r ∈ consume.reads, Told s.server s.now consume.since scope r) :
    Inv { s with consume := consume } :=
  ⟨h.rows,h.replaced,h.shown,h.nodup,h.own,h.bounded,h.reads,h.live,hconsume⟩

lemma Inv.leave (h : Inv s) {consume : Consume Client Id} (hreads : consume.reads = [])
    (hsince : consume.since ≤ s.now) : Inv { s with consume := consume } :=
  h.setConsume ⟨hsince,fun _ _ r hr => absurd (hreads ▸ hr : r ∈ []) List.not_mem_nil⟩

lemma Inv.await (h : Inv s) (connected : Bool) : Inv (s.await connected) :=
  h.leave rfl (Nat.zero_le _)

/-- A new operation is the only one of its generation. -/
lemma Inv.begin (h : Inv s) (hsince : op.since ≤ s.now)
    (hreads : ∀ r ∈ op.reading.reads, Told s.server s.now op.since op.scope r)
    (hlive : Live s op) : Inv (s.begin op) where
  rows := h.rows
  replaced := h.replaced
  shown := h.shown
  nodup := h.nodup
  own := h.own
  bounded g op' hop' := by
    dsimp only [View.begin,View.setOp] at hop' ⊢
    split_ifs at hop' with hg
    · obtain rfl := Option.some.inj hop'
      exact ⟨hg.le,hsince⟩
    · exact ⟨(h.bounded g op' hop').1.trans (Nat.le_succ _),(h.bounded g op' hop').2⟩
  reads g op' hop' := by
    dsimp only [View.begin,View.setOp] at hop' ⊢
    split_ifs at hop' with hg
    · obtain rfl := Option.some.inj hop'
      exact hreads
    · exact h.reads g op' hop'
  live op' hop' := by
    dsimp only [View.begin,View.setOp] at hop'
    rw [if_pos rfl] at hop'
    obtain rfl := Option.some.inj hop'
    exact hlive
  stream := h.stream

/-- An operation is set to what it may be at its place. -/
lemma Inv.setOp (h : Inv s) (hle : g ≤ s.generation ∧ op.since ≤ s.now)
    (hreads : ∀ r ∈ op.reading.reads, Told s.server s.now op.since op.scope r)
    (hlive : s.generation = g → Live s op) : Inv (s.setOp g (some op)) where
  rows := h.rows
  replaced := h.replaced
  shown := h.shown
  nodup := h.nodup
  own := h.own
  bounded g' op' hop' := by
    dsimp only [View.setOp] at hop' ⊢
    split_ifs at hop' with hg
    · obtain rfl := Option.some.inj hop'
      exact hg ▸ hle
    · exact h.bounded g' op' hop'
  reads g' op' hop' := by
    dsimp only [View.setOp] at hop' ⊢
    split_ifs at hop' with hg
    · obtain rfl := Option.some.inj hop'
      exact hreads
    · exact h.reads g' op' hop'
  live op' hop' := by
    dsimp only [View.setOp] at hop'
    split_ifs at hop' with hg
    · obtain rfl := Option.some.inj hop'
      exact hlive hg
    · exact h.live op' hop'
  stream := h.stream

lemma Inv.dropOp (h : Inv s) (g : ℕ) : Inv (s.setOp g none) where
  rows := h.rows
  replaced := h.replaced
  shown := h.shown
  nodup := h.nodup
  own := h.own
  bounded g' op' hop' := by
    dsimp only [View.setOp] at hop' ⊢
    split_ifs at hop' with hg
    exact h.bounded g' op' hop'
  reads g' op' hop' := by
    dsimp only [View.setOp] at hop' ⊢
    split_ifs at hop' with hg
    exact h.reads g' op' hop'
  live op' hop' := by
    dsimp only [View.setOp] at hop'
    split_ifs at hop' with hg
    exact h.live op' hop'
  stream := h.stream

lemma Inv.endOp (h : Inv s) (g : ℕ) : Inv (s.endOp g) := by
  refine Inv.dropOp (h.setConsume ?_) g
  have hstream := h.stream
  cases hc : s.consume with
  | handling op connected =>
    dsimp only
    split_ifs <;> exact ⟨Nat.zero_le _,fun _ _ _ hr => absurd hr List.not_mem_nil⟩
  | _ =>
    rw [hc] at hstream
    exact hstream

lemma Inv.failOp (h : Inv s) (g : ℕ) (op : Op Client Id) : Inv (s.failOp g op) := by
  rw [View.failOp]
  split
  · split_ifs
    · exact (h.endOp g).mark _ _
    · exact h.endOp g
  · split
    · split_ifs
      · exact ((h.mark true .error).leave rfl (Nat.zero_le _)).dropOp g
      · exact h.dropOp g
    · exact h.dropOp g

lemma Inv.refresh (h : Inv s) (hscope : s.mounted = some s.scope → scope = s.scope) :
    Inv (s.refresh scope) :=
  (h.mark false s.connection).begin (le_refl _) (fun _ hr => absurd hr List.not_mem_nil)
    ⟨hscope,fun _ => h.replaced,fun happlied => nomatch happlied⟩

/-- No operation is of the generation that the effect begins with. -/
lemma Inv.clear (h : Inv s) : Inv s.clear where
  rows := h.rows
  replaced := le_refl _
  shown _ hr := absurd hr List.not_mem_nil
  nodup := .nil
  own _ _ hr := absurd hr List.not_mem_nil
  bounded g op hop := by
    obtain ⟨hle,hsince⟩ := h.bounded g op hop
    refine ⟨?_,hsince⟩
    dsimp only [View.clear,View.replaceRequests]
    split_ifs <;> omega
  reads := h.reads
  live op hop := by
    obtain ⟨hle,-⟩ := h.bounded _ op hop
    dsimp only [View.clear,View.replaceRequests] at hle
    split_ifs at hle <;> omega
  stream := ⟨Nat.zero_le _,fun _ _ _ hr => absurd hr List.not_mem_nil⟩

lemma Inv.effect (h : Inv s) : Inv s.effect := (h.clear.refresh fun _ => rfl).await false

/-- A new list, once no operation of the current generation is left to put its own in place. -/
lemma Inv.replaceRequests (h : Inv s) {requests : List (Read Client Id)}
    (hnodup : (requests.map (·.id)).Nodup)
    (hrequests : ∀ r ∈ requests, r ∈ s.requests ∨ Told s.server s.now s.replacedAt scope r)
    (hscope : s.mounted = some s.scope → scope = s.scope)
    (hlive : s.ops s.generation = none) :
    Inv (s.replaceRequests requests) where
  rows := h.rows
  replaced := le_refl _
  shown r hr := by
    rcases hrequests r hr with hr | hr
    · exact ⟨(h.shown r hr).1,(h.shown r hr).1.1⟩
    · exact ⟨hr.1,hr.1.1⟩
  nodup := hnodup
  own hmounted r hr := by
    rcases hrequests r hr with hr | hr
    · exact h.own hmounted r hr
    · exact hr.2.2.trans (hscope hmounted)
  bounded := h.bounded
  reads := h.reads
  live op hop := by cases hlive.symm.trans hop
  stream := h.stream

lemma Advances.replaced_by {t : View Client Id} (h : Inv s) (hserver : t.server = s.server)
    (hreplaced : t.replacedAt = s.now)
    (hrequests : ∀ r ∈ t.requests, r ∈ s.requests ∨ s.replacedAt ≤ r.readAt) : Advances s t where
  ended _ row hrow _ he := ⟨row,by rw [hserver,hrow],he⟩
  replaced := h.replaced.trans hreplaced.ge
  requests := hrequests

/-! ### What is read -/

lemma Inv.readRequest (h : Inv s) {id : Id} {r : Read Client Id}
    (hr : s.readRequest scope id = some r) {since : ℕ} (hsince : since ≤ s.now) :
    Told s.server s.now since scope r := by
  obtain ⟨row,hrow,rfl⟩ := Option.map_eq_some_iff.mp hr
  obtain ⟨hbefore,hsettled⟩ := h.rows id row hrow
  refine ⟨⟨le_refl _,row,hrow,fun hpending => ⟨hbefore,?_⟩,fun hended => ?_⟩,hsince,rfl⟩
  · rw [(row.status_pending_iff).mp hpending]
    exact fun _ he => nomatch he
  · obtain ⟨e,he⟩ := Option.ne_none_iff_exists'.mp (mt row.status_pending_iff.mpr hended)
    exact ⟨e,he,hsettled e he⟩

variable [DecidableEq Id]

lemma Inv.page (h : Inv s) {ids : List Id} {since : ℕ} (hsince : since ≤ s.now) :
    ∀ r ∈ s.page scope ids, Told s.server s.now since scope r := by
  intro r hr
  obtain ⟨id,-,hread⟩ := List.mem_filterMap.mp (List.mem_filter.mp hr).1
  exact h.readRequest hread hsince

lemma reads_reconcile {pending : List (Read Client Id)} : (s.reconcile pending).reads = pending := by
  simp [View.reconcile,Reading.reads,List.reduceOption]

lemma mem_answered {id : Id} {answer : Option (Read Client Id)}
    {resolved : List (Id × Option (Option (Read Client Id)))} {r : Read Client Id}
    (h : r ∈ ((answered id answer resolved).filterMap Prod.snd).reduceOption) :
    some r = answer ∨ r ∈ (resolved.filterMap Prod.snd).reduceOption := by
  rw [List.reduceOption_mem_iff] at h ⊢
  obtain ⟨p,hp,hr⟩ := List.mem_filterMap.mp h
  obtain ⟨q,hq,rfl⟩ := List.mem_map.mp hp
  split_ifs at hr
  · exact .inl (Option.some.inj hr).symm
  · exact .inr (List.mem_filterMap.mpr ⟨q,hq,hr⟩)

variable {localeCompare}

omit [DecidableEq Id] in
lemma setOp_setOp (g : ℕ) (op op' : Option (Op Client Id)) :
    (s.setOp g op).setOp g op' = s.setOp g op' := by
  simp only [View.setOp,View.mk.injEq,true_and,and_true]
  funext g'
  split_ifs <;> rfl

omit [DecidableEq Id] in
lemma Told.weaken {since since' : ℕ} {r : Read Client Id} (h : Told s.server s.now since scope r)
    (hle : since' ≤ since) : Told s.server s.now since' scope r := ⟨h.1,hle.trans h.2.1,h.2.2⟩

/-- What `reconcile` puts in place: ended requests that were shown, and what the operation read. -/
lemma Inv.applyList (h : Inv s) (hop : s.ops g = some op) {pending : List (Read Client Id)}
    {resolved : List (Id × Option (Option (Read Client Id)))}
    (hreading : op.reading = .resolving pending resolved) :
    Inv (s.applyList localeCompare g op pending (resolved.filterMap Prod.snd).reduceOption) ∧
      Advances s
        (s.applyList localeCompare g op pending (resolved.filterMap Prod.snd).reduceOption) := by
  have hreads := h.reads g op hop
  rw [hreading,Reading.reads] at hreads
  rw [View.applyList]
  split_ifs with hg
  · subst hg
    obtain ⟨hscope,hnewest,-⟩ := h.live op hop
    have hsince := hnewest (by rw [hreading]; exact fun h => nomatch h)
    set list := mergeRequests localeCompare (s.requests.filter fun r => r.status ≠ .pending)
      (pending ++ (resolved.filterMap Prod.snd).reduceOption) with hlist
    have hmem : ∀ r ∈ list, (r ∈ s.requests ∧ r.status ≠ .pending) ∨
        Told s.server s.now op.since op.scope r := by
      intro r hr
      rcases mem_mergeRequests hr with hr | hr
      · exact .inr (hreads r hr)
      · obtain ⟨hr,hended⟩ := List.mem_filter.mp hr
        exact .inl ⟨hr,of_decide_eq_true hended⟩
    have hrequests : ∀ r ∈ list, r ∈ s.requests ∨
        Told s.server s.now s.replacedAt op.scope r := fun r hr =>
      (hmem r hr).imp And.left fun hr => hr.weaken hsince
    have hreplaced : Inv ((s.setOp s.generation none).replaceRequests list) :=
      (h.dropOp _).replaceRequests (mergeRequests_nodup _ _) hrequests hscope (if_pos rfl)
    refine ⟨?_,?_⟩
    · rw [← setOp_setOp s.generation none]
      refine hreplaced.setOp ⟨le_refl _,(h.bounded _ op hop).2⟩
        (fun _ hr => absurd hr List.not_mem_nil) fun _ => ⟨hscope,fun hne => absurd rfl hne,fun _ r hr hpending => ?_⟩
      rcases hmem r hr with hr | hr
      · exact absurd hpending hr.2
      · exact hr.2.1
    · exact .replaced_by h rfl rfl fun r hr => (hrequests r hr).imp_right fun hr => hr.2.1
  · refine ⟨h.setOp (h.bounded g op hop) (fun _ hr => absurd hr List.not_mem_nil) fun hne =>
      absurd hne hg,.same rfl rfl rfl⟩

lemma Inv.applyRequest (h : Inv s) (hop : s.ops g = some op) {id : Id} {request : Read Client Id}
    (hreading : op.reading = .request id (some request)) :
    Inv (s.applyRequest localeCompare g request) ∧
      Advances s (s.applyRequest localeCompare g request) := by
  have hread := h.reads g op hop request (by rw [hreading]; exact List.mem_singleton_self _)
  rw [View.applyRequest]
  split_ifs with hg
  · subst hg
    obtain ⟨hscope,hnewest,-⟩ := h.live op hop
    have hsince := hnewest (by rw [hreading]; exact fun h => nomatch h)
    have hrequests : ∀ r ∈ mergeRequests localeCompare s.requests [request], r ∈ s.requests ∨
        Told s.server s.now s.replacedAt op.scope r := by
      intro r hr
      rcases mem_mergeRequests hr with hr | hr
      · rw [List.mem_singleton.mp hr]
        exact .inr (hread.weaken hsince)
      · exact .inl hr
    exact ⟨(h.endOp _).replaceRequests (mergeRequests_nodup _ _) hrequests hscope (if_pos rfl),
      .replaced_by h rfl rfl fun r hr => (hrequests r hr).imp_right fun hr => hr.2.1⟩
  · exact ⟨h.endOp g,.same rfl rfl rfl⟩

omit [DecidableEq Id] in
/-- An operation that has not put its list in place goes on reading. -/
lemma Inv.read (h : Inv s) (hop : s.ops g = some op) {reading : Reading Client Id}
    (hreads : ∀ r ∈ reading.reads, Told s.server s.now op.since op.scope r)
    (hreading : op.reading ≠ .applied) (hreading' : reading ≠ .applied) :
    Inv (s.setOp g (some (op.read reading))) := by
  refine h.setOp (h.bounded g op hop) hreads fun hg => ?_
  subst hg
  obtain ⟨hscope,hnewest,-⟩ := h.live op hop
  exact ⟨hscope,fun _ => hnewest hreading,fun happlied => absurd happlied hreading'⟩

lemma Inv.pageRead (h : Inv s) (hop : s.ops g = some op) {ids : List Id} {more : Bool}
    {t : View Client Id} (hstep : s.pageRead g op ids more = some t) : Inv t ∧ Advances s t := by
  have hreads := h.reads g op hop
  obtain ⟨-,hsince⟩ := h.bounded g op hop
  unfold View.pageRead at hstep
  split at hstep
  · rename_i pending hreading
    cases hstep
    rw [hreading] at hreads
    refine ⟨h.read hop (fun r hr => ?_) (by rw [hreading]; exact fun h => nomatch h)
      (fun h => nomatch h),.same rfl rfl rfl⟩
    rcases List.mem_append.mp hr with hr | hr
    · exact hreads r (List.mem_append_left _ hr)
    · exact h.page hsince r hr
  · cases hstep

lemma Inv.pageReply (h : Inv s) (hop : s.ops g = some op) {t : View Client Id}
    (hstep : s.pageReply g op = some t) : Inv t ∧ Advances s t := by
  have hreads := h.reads g op hop
  unfold View.pageReply at hstep
  split at hstep
  · rename_i pending data more hreading
    cases hstep
    rw [hreading] at hreads
    refine ⟨h.read hop ?_ (by rw [hreading]; exact fun h => nomatch h) ?_,.same rfl rfl rfl⟩
    · cases more with
      | false => rwa [if_neg Bool.false_ne_true,reads_reconcile]
      | true =>
        rw [if_pos rfl,Reading.reads,Option.elim_none,List.append_nil]
        exact hreads
    · cases more <;> exact fun h => nomatch h
  · cases hstep

lemma Inv.requestRead (h : Inv s) (hop : s.ops g = some op) {id : Id} {found : Bool}
    {t : View Client Id} (hstep : s.requestRead g op id found = some t) :
    Inv t ∧ Advances s t := by
  have hreads := h.reads g op hop
  obtain ⟨-,hsince⟩ := h.bounded g op hop
  unfold View.requestRead at hstep
  split at hstep
  · rename_i pending resolved hreading
    cases hstep
    rw [hreading] at hreads
    refine ⟨h.read hop (fun r hr => ?_) (by rw [hreading]; exact fun h => nomatch h)
      (fun h => nomatch h),.same rfl rfl rfl⟩
    rcases List.mem_append.mp hr with hr | hr
    · exact hreads r (List.mem_append_left _ hr)
    · rcases mem_answered hr with hr | hr
      · split_ifs at hr
        exact h.readRequest hr.symm hsince
      · exact hreads r (List.mem_append_right _ hr)
  · rename_i id' hreading
    obtain ⟨request,hrequest,rfl⟩ := Option.map_eq_some_iff.mp hstep
    refine ⟨h.read hop (fun r hr => ?_) (by rw [hreading]; exact fun h => nomatch h)
      (fun h => nomatch h),.same rfl rfl rfl⟩
    rw [List.mem_singleton.mp hr]
    exact h.readRequest hrequest hsince
  · cases hstep

lemma Inv.apply (h : Inv s) (hop : s.ops g = some op) {t : View Client Id}
    (hstep : s.apply localeCompare g op = some t) : Inv t ∧ Advances s t := by
  unfold View.apply at hstep
  split at hstep
  · rename_i hreading
    split_ifs at hstep
    cases hstep
    exact h.applyList hop hreading
  · rename_i hreading
    cases hstep
    exact h.applyRequest hop hreading
  · cases hstep

omit [DecidableEq Id] in
lemma Inv.complete (h : Inv s) {t : View Client Id} (hstep : s.complete g op = some t) :
    Inv t ∧ Advances s t := by
  unfold View.complete at hstep
  split at hstep
  · cases hstep
    split_ifs
    · exact ⟨(h.endOp g).mark _ _,.same rfl rfl rfl⟩
    · exact ⟨h.endOp g,.same rfl rfl rfl⟩
  · cases hstep

omit [DecidableEq Id] in
lemma advances_failOp (s : View Client Id) (g : ℕ) (op : Op Client Id) :
    Advances s (s.failOp g op) := by
  rw [View.failOp]
  split
  · split_ifs <;> exact .same rfl rfl rfl
  · split
    · split_ifs <;> exact .same rfl rfl rfl
    · exact .same rfl rfl rfl

omit [DecidableEq Id] in
lemma Inv.fails (h : Inv s) {t : View Client Id} (hstep : s.fails g op = some t) :
    Inv t ∧ Advances s t := by
  unfold View.fails at hstep
  split at hstep
  · cases hstep
  · cases hstep
    exact ⟨h.failOp g op,advances_failOp s g op⟩

/-! ### The stream -/

omit [DecidableEq Id] in
/-- What the loop and the stream begin is of the scope of the effect. -/
lemma Inv.connected (h : Inv s) (hmounted : s.mounted = some scope) {t : View Client Id}
    (hstep : s.connected scope = some t) : Inv t ∧ Advances s t := by
  unfold View.connected at hstep
  split at hstep
  · cases hstep
    exact ⟨(h.refresh fun hs => Option.some.inj (hmounted.symm.trans hs)).await true,
      .same rfl rfl rfl⟩
  · cases hstep

omit [DecidableEq Id] in
lemma Inv.reconnecting (h : Inv s) {t : View Client Id} (hstep : s.reconnecting = some t) :
    Inv t ∧ Advances s t := by
  unfold View.reconnecting at hstep
  split at hstep
  · cases hstep
    exact ⟨(h.mark s.error .reconnecting).leave rfl (Nat.zero_le _),
      .same rfl rfl rfl⟩
  · cases hstep
    exact ⟨(h.mark s.error .reconnecting).leave rfl (Nat.zero_le _),
      .same rfl rfl rfl⟩
  · cases hstep

omit [DecidableEq Id] in
lemma Inv.event (h : Inv s) (hmounted : s.mounted = some scope) {id : Option Id}
    {t : View Client Id} (hstep : s.event scope id = some t) : Inv t ∧ Advances s t := by
  unfold View.event at hstep
  split at hstep
  · cases hstep
    refine ⟨(h.begin (le_refl _) (fun _ hr => absurd hr List.not_mem_nil) ⟨fun hs => ?_,
      fun _ => h.replaced,fun happlied => ?_⟩).await true,.same rfl rfl rfl⟩
    · exact Option.some.inj (hmounted.symm.trans hs)
    · cases happlied
  · cases hstep
    exact ⟨h,.same rfl rfl rfl⟩
  · cases hstep

omit [DecidableEq Id] in
lemma Inv.expired (h : Inv s) {t : View Client Id} (hstep : s.expired = some t) :
    Inv t ∧ Advances s t := by
  unfold View.expired at hstep
  split at hstep
  · cases hstep
    exact ⟨h.leave rfl (le_refl _),.same rfl rfl rfl⟩
  · cases hstep

omit [DecidableEq Id] in
lemma Inv.streamFails (h : Inv s) {t : View Client Id} (hstep : s.streamFails = some t) :
    Inv t ∧ Advances s t := by
  have hover : Inv { s with error := true, connection := .error, consume := .over } :=
    (h.mark true .error).leave rfl (Nat.zero_le _)
  unfold View.streamFails at hstep
  split at hstep
  · cases hstep
    exact ⟨hover,.same rfl rfl rfl⟩
  · cases hstep
    exact ⟨hover,.same rfl rfl rfl⟩
  · cases hstep
    exact ⟨hover,.same rfl rfl rfl⟩
  · cases hstep

lemma Inv.listRead (h : Inv s) (hmounted : s.mounted = some scope) {ids : List Id} {more : Bool}
    {t : View Client Id} (hstep : s.listRead scope ids more = some t) : Inv t ∧ Advances s t := by
  obtain ⟨hsince,hstream⟩ := h.stream
  unfold View.listRead at hstep
  split at hstep
  · rename_i since requests hconsume
    cases hstep
    rw [hconsume] at hstream hsince
    refine ⟨h.setConsume ⟨hsince,fun scope' hscope' r hr => ?_⟩,.same rfl rfl rfl⟩
    obtain rfl := Option.some.inj (hmounted.symm.trans hscope')
    rcases List.mem_append.mp hr with hr | hr
    · exact hstream scope hmounted r (List.mem_append_left _ hr)
    · exact h.page hsince r hr
  · cases hstep

omit [DecidableEq Id] in
lemma Inv.listReply (h : Inv s) {t : View Client Id} (hstep : s.listReply = some t) :
    Inv t ∧ Advances s t := by
  have hstream := h.stream
  unfold View.listReply at hstep
  split at hstep
  · rename_i since requests data more hconsume
    cases hstep
    rw [hconsume] at hstream
    refine ⟨h.setConsume ?_,.same rfl rfl rfl⟩
    cases more with
    | false => exact hstream
    | true =>
      rw [if_pos rfl,Consume.reads,Option.elim_none,List.append_nil]
      exact hstream
  · cases hstep

/-- The list of the stream is no older than the list shown. -/
lemma Inv.reconciled (h : Inv s) (hmounted : s.mounted = some scope)
    (hok : ∀ since requests, s.consume = .listed since requests → s.replacedAt ≤ since)
    {t : View Client Id} (hstep : s.reconciled scope = some t) : Inv t ∧ Advances s t := by
  obtain ⟨hsince,hstream⟩ := h.stream
  unfold View.reconciled at hstep
  split at hstep
  · rename_i since requests hconsume
    cases hstep
    rw [hconsume] at hstream hsince
    refine ⟨(h.begin hsince (fun r hr => ?_) ⟨fun hs => ?_,fun _ => hok since requests hconsume,
      fun happlied => ?_⟩).await false,.same rfl rfl rfl⟩
    · rw [reads_reconcile] at hr
      exact hstream scope hmounted r hr
    · exact Option.some.inj (hmounted.symm.trans hs)
    · cases happlied
  · cases hstep

/-! ### The server -/

/-- A row is new, or that of a pending request which ends. -/
def Changes (s : View Client Id) (id : Id) (row : Row Id) : Prop :=
  row.since ≤ s.now + 1 ∧ (∀ e ∈ row.settled, e.1 = s.now + 1) ∧
    ∀ old, s.server id = some old → row.since = old.since ∧ old.settled = none

lemma Genuine.setRow {id : Id} {row : Row Id} {r : Read Client Id} (hrow : Changes s id row)
    (h : Genuine s.server s.now r) : Genuine (s.setRow id row).server (s.setRow id row).now r := by
  obtain ⟨hread,old,hold,hpending,hended⟩ := h
  refine ⟨Nat.le_succ_of_le hread,?_⟩
  dsimp only [View.setRow]
  by_cases hid : r.id = id
  · rw [if_pos hid]
    obtain ⟨hsince,hnone⟩ := hrow.2.2 old (hid ▸ hold)
    refine ⟨row,rfl,fun hp => ⟨hsince ▸ (hpending hp).1,fun e he => ?_⟩,fun hne => ?_⟩
    · rw [hrow.2.1 e he]
      exact Nat.lt_succ_of_le hread
    · obtain ⟨e,he,-⟩ := hended hne
      rw [hnone] at he
      cases he
  · rw [if_neg hid]
    exact ⟨old,hold,hpending,hended⟩

lemma Told.setRow {id : Id} {row : Row Id} {since : ℕ} {r : Read Client Id}
    (hrow : Changes s id row) (h : Told s.server s.now since scope r) :
    Told (s.setRow id row).server (s.setRow id row).now since scope r :=
  ⟨h.1.setRow hrow,h.2⟩

lemma Inv.setRow (h : Inv s) {id : Id} {row : Row Id} (hrow : Changes s id row) :
    Inv (s.setRow id row) where
  rows id' row' hrow' := by
    dsimp only [View.setRow] at hrow' ⊢
    split_ifs at hrow'
    · obtain rfl := Option.some.inj hrow'
      exact ⟨hrow.1,fun e he => (hrow.2.1 e he).le⟩
    · obtain ⟨hsince,hsettled⟩ := h.rows id' row' hrow'
      exact ⟨Nat.le_succ_of_le hsince,fun e he => Nat.le_succ_of_le (hsettled e he)⟩
  replaced := Nat.le_succ_of_le h.replaced
  shown r hr := ⟨(h.shown r hr).1.setRow hrow,(h.shown r hr).2⟩
  nodup := h.nodup
  own := h.own
  bounded g op hop := ⟨(h.bounded g op hop).1,Nat.le_succ_of_le (h.bounded g op hop).2⟩
  reads g op hop r hr := (h.reads g op hop r hr).setRow hrow
  live := h.live
  stream := ⟨Nat.le_succ_of_le h.stream.1,fun scope hscope r hr =>
    (h.stream.2 scope hscope r hr).setRow hrow⟩

lemma advances_setRow {id : Id} {row : Row Id} (hrow : Changes s id row) :
    Advances s (s.setRow id row) where
  ended id' old hold e he := by
    dsimp only [View.setRow]
    by_cases hid : id' = id
    · rw [hid] at hold
      rw [(hrow.2.2 old hold).2] at he
      cases he
    · rw [if_neg hid]
      exact ⟨old,hold,he⟩
  replaced := le_refl _
  requests _ hr := .inl hr

/-! ### Runs -/

variable [DecidableEq Client]

lemma Inv.render (h : Inv s) (hmounted : s.mounted = some s.scope) (scope : Scope Client Id) :
    Inv (s.render scope) := by
  by_cases hsame : scope = s.scope
  · rw [View.render,if_pos hsame]
    subst hsame
    exact ⟨h.rows,h.replaced,h.shown,h.nodup,h.own,h.bounded,h.reads,h.live,h.stream⟩
  · rw [View.render,if_neg hsame]
    refine ⟨h.rows,h.replaced,h.shown,h.nodup,fun hm => ?_,fun g op hop => ?_,h.reads,
      fun op hop => ?_,h.stream⟩
    · exact absurd (Option.some.inj (hm.symm.trans hmounted)) hsame
    · exact ⟨(h.bounded g op hop).1.trans (Nat.le_succ _),(h.bounded g op hop).2⟩
    · exact absurd (h.bounded _ op hop).1 (Nat.not_succ_le_self _)


lemma Inv.step (h : Inv s) {act : Act Client Id} {t : View Client Id} (hok : Current s act)
    (hstep : step localeCompare s act = some t) : Inv t ∧ Advances s t := by
  cases act with
  | render scope =>
    obtain ⟨hmounted,hstep⟩ := Option.ite_none_right_eq_some.mp hstep
    cases hstep
    exact ⟨h.render hmounted scope,.same rfl rfl rfl⟩
  | effect =>
    obtain ⟨-,hstep⟩ := Option.ite_none_left_eq_some.mp hstep
    cases hstep
    exact ⟨h.effect,.replaced_by h rfl rfl fun _ hr => absurd hr List.not_mem_nil⟩
  | refresh scope =>
    obtain ⟨-,hstep⟩ := Option.ite_none_right_eq_some.mp hstep
    cases hstep
    exact ⟨h.refresh hok,.same rfl rfl rfl⟩
  | poll =>
    obtain ⟨scope,hmounted,rfl⟩ := Option.map_eq_some_iff.mp hstep
    exact ⟨h.refresh fun hs => Option.some.inj (hmounted.symm.trans hs),.same rfl rfl rfl⟩
  | connected =>
    obtain ⟨scope,hmounted,hstep⟩ := Option.bind_eq_some_iff.mp hstep
    exact h.connected hmounted hstep
  | reconnecting => exact h.reconnecting hstep
  | event id =>
    obtain ⟨scope,hmounted,hstep⟩ := Option.bind_eq_some_iff.mp hstep
    exact h.event hmounted hstep
  | expired => exact h.expired hstep
  | listRead ids more =>
    obtain ⟨scope,hmounted,hstep⟩ := Option.bind_eq_some_iff.mp hstep
    exact h.listRead hmounted hstep
  | listReply => exact h.listReply hstep
  | reconciled =>
    obtain ⟨scope,hmounted,hstep⟩ := Option.bind_eq_some_iff.mp hstep
    exact h.reconciled hmounted hok hstep
  | streamFails => exact h.streamFails hstep
  | pageRead g ids more =>
    obtain ⟨op,hop,hstep⟩ := Option.bind_eq_some_iff.mp hstep
    exact h.pageRead hop hstep
  | pageReply g =>
    obtain ⟨op,hop,hstep⟩ := Option.bind_eq_some_iff.mp hstep
    exact h.pageReply hop hstep
  | requestRead g id found =>
    obtain ⟨op,hop,hstep⟩ := Option.bind_eq_some_iff.mp hstep
    exact h.requestRead hop hstep
  | apply g =>
    obtain ⟨op,hop,hstep⟩ := Option.bind_eq_some_iff.mp hstep
    exact h.apply hop hstep
  | complete g =>
    obtain ⟨op,hop,hstep⟩ := Option.bind_eq_some_iff.mp hstep
    exact h.complete hstep
  | fails g =>
    obtain ⟨op,hop,hstep⟩ := Option.bind_eq_some_iff.mp hstep
    exact h.fails hstep
  | create id conversationId requestedAt =>
    dsimp only [ApprovalList.step] at hstep
    split at hstep
    · rename_i hnone
      cases hstep
      have hrow : Changes s id ⟨conversationId,requestedAt,s.now + 1,none⟩ :=
        ⟨le_refl _,(fun _ he => nomatch he),fun old hold => nomatch hnone.symm.trans hold⟩
      exact ⟨h.setRow hrow,advances_setRow hrow⟩
    · cases hstep
  | settle id ending =>
    dsimp only [ApprovalList.step] at hstep
    split at hstep
    · rename_i conversationId requestedAt since hpending
      cases hstep
      have hrow : Changes s id ⟨conversationId,requestedAt,since,some (s.now + 1,ending)⟩ := by
        refine ⟨Nat.le_succ_of_le (h.rows id _ hpending).1,fun e he => ?_,fun old hold => ?_⟩
        · rw [← Option.mem_some_iff.mp he]
        · obtain rfl := Option.some.inj (hpending.symm.trans hold)
          exact ⟨rfl,rfl⟩
      exact ⟨h.setRow hrow,advances_setRow hrow⟩
    · cases hstep

omit [DecidableEq Client] [DecidableEq Id] in
lemma inv_mount (scope : Scope Client Id) : Inv (View.mount scope) where
  rows _ _ hrow := by cases hrow
  replaced := le_refl _
  shown _ hr := absurd hr List.not_mem_nil
  nodup := .nil
  own _ _ hr := absurd hr List.not_mem_nil
  bounded _ _ hop := by cases hop
  reads _ _ hop := by cases hop
  live _ hop := by cases hop
  stream := ⟨le_refl _,fun _ _ _ hr => absurd hr List.not_mem_nil⟩

lemma inv_run {scope : Scope Client Id} {acts : List (Act Client Id)} {s : View Client Id}
    (h : Run (step localeCompare) Current (View.mount scope) acts s) : Inv s :=
  h.invariant (fun hs hok hstep => (hs.step hok hstep).1) (inv_mount scope)

/-- A request was pending at one of the changes of the server from `since` on. -/
def PendingSince (s : View Client Id) (since : ℕ) (id : Id) : Prop :=
  ∃ row t, s.server id = some row ∧ since ≤ t ∧ t ≤ s.now ∧ row.PendingAt t

/-- What a list is to show. `own` holds once a change has taken effect; a refresh of the current
generation that is applied has completed as the newest operation. -/
structure Faithful (s : View Client Id) : Prop where
  nodup : (s.requests.map (·.id)).Nodup
  own : s.mounted = some s.scope → ∀ r ∈ s.requests, r.readFor = s.scope
  fresh : ∀ op, s.ops s.generation = some op → op.kind = .refresh → op.reading = .applied →
    ∀ r ∈ s.pending, PendingSince s op.since r.id

omit [DecidableEq Client] [DecidableEq Id] in
lemma Inv.faithful (h : Inv s) : Faithful s where
  nodup := h.nodup
  own := h.own
  fresh op hop _ happlied r hr := by
    obtain ⟨hr,hpending⟩ := List.mem_filter.mp hr
    obtain ⟨⟨hread,row,hrow,hat,-⟩,-⟩ := h.shown r hr
    exact ⟨row,r.readAt,hrow,(h.live op hop).2.2 happlied r hr (of_decide_eq_true hpending),hread,
      hat (of_decide_eq_true hpending)⟩

/-- In a run whose refreshes are called through functions of the current scope, and whose streams hand
over no list that is older than the list shown, every state is shown faithfully and a request shown as
decided or cancelled is never shown as pending again. -/
theorem requests_settle {scope : Scope Client Id} {acts acts' : List (Act Client Id)}
    {s t : View Client Id} (h : Run (step localeCompare) Current (View.mount scope) acts s)
    (h' : Run (step localeCompare) Current s acts' t) :
    Faithful s ∧ ∀ r ∈ s.requests, r.status ≠ .pending →
      ∀ r' ∈ t.requests, r'.id = r.id → r'.status ≠ .pending := by
  have hs := inv_run h
  have ht := inv_run (h.append h')
  have hadvances : Advances s t := h'.relates (fun _ => .same rfl rfl rfl) (fun h h' => h.trans h')
    (fun hs hok hstep => (hs.step hok hstep).1) (fun hs hok hstep => (hs.step hok hstep).2) hs
  exact ⟨hs.faithful,fun r hr hended r' hr' hid => hadvances.settled hs ht hr hr' hid hended⟩

section Instances

/-- An order of timestamps of one form. -/
def codeUnits (left right : String) : ℤ := if left < right then -1 else if left = right then 0 else 1

/-- A request is made, listed as pending and decided, and a poll shows the decision. -/
theorem requests_settle_poll : ∃ s t : View ℕ ℕ,
    Run (step codeUnits) Current (View.mount ⟨0,none⟩)
      [.effect,.create 5 none "2026-01-01T00:00:00Z",.pageRead 2 [5] false,.pageReply 2,.apply 2,
        .complete 2,.settle 5 .decided,.poll,.pageRead 3 [] false,.pageReply 3,.requestRead 3 5 true,
        .apply 3] s ∧
    Run (step codeUnits) Current s [.complete 3,.poll,.pageRead 4 [] false,.pageReply 4,.apply 4] t ∧
    s.requests.map (·.status) = [.decided] ∧ Faithful s ∧
    ∀ r ∈ s.requests, r.status ≠ .pending → ∀ r' ∈ t.requests, r'.id = r.id →
      r'.status ≠ .pending := by
  have hrun : ∃ s t : View ℕ ℕ,
      Run (step codeUnits) Current (View.mount ⟨0,none⟩)
        [.effect,.create 5 none "2026-01-01T00:00:00Z",.pageRead 2 [5] false,.pageReply 2,.apply 2,
          .complete 2,.settle 5 .decided,.poll,.pageRead 3 [] false,.pageReply 3,
          .requestRead 3 5 true,.apply 3] s ∧
      Run (step codeUnits) Current s [.complete 3,.poll,.pageRead 4 [] false,.pageReply 4,.apply 4] t ∧
      s.requests.map (·.status) = [.decided] :=
    ⟨_,_,.cons trivial rfl <| .cons trivial rfl <| .cons trivial rfl <| .cons trivial rfl <|
      .cons trivial rfl <| .cons trivial rfl <| .cons trivial rfl <| .cons trivial rfl <|
      .cons trivial rfl <| .cons trivial rfl <| .cons trivial rfl <| .cons trivial rfl <| .nil _,
      .cons trivial rfl <| .cons trivial rfl <| .cons trivial rfl <| .cons trivial rfl <|
      .cons trivial rfl <| .nil _,rfl⟩
  obtain ⟨s,t,hrun,hrun',hstatus⟩ := hrun
  exact ⟨s,t,hrun,hrun',hstatus,requests_settle hrun hrun'⟩

/-- A stream lists a request as pending, a poll then shows it decided, and the stream's list shows it
as pending again; and a kept `refresh` shows a request of the conversation before. -/
theorem requests_overlap :
    (∃ s t : View ℕ ℕ, Run (step codeUnits) (fun _ _ => True) (View.mount ⟨0,none⟩)
        [.effect,.create 5 none "2026-01-01T00:00:00Z",.pageRead 2 [5] false,.pageReply 2,.apply 2,
          .complete 2,.expired,.listRead [5] false,.listReply,.settle 5 .decided,.poll,
          .pageRead 3 [] false,.pageReply 3,.requestRead 3 5 true,.apply 3] s ∧
      Run (step codeUnits) (fun _ _ => True) s [.complete 3,.reconciled,.apply 4,.complete 4] t ∧
      ∃ r ∈ s.requests, r.status = .decided ∧ ∃ r' ∈ t.requests, r'.id = r.id ∧ r'.status = .pending) ∧
    ∃ s : View ℕ ℕ, Run (step codeUnits) (fun _ _ => True) (View.mount ⟨0,some 7⟩)
        [.effect,.create 5 (some 7) "2026-01-01T00:00:00Z",.render ⟨0,some 8⟩,.effect,
          .refresh ⟨0,some 7⟩,.pageRead 7 [5] false,.pageReply 7,.apply 7] s ∧
      s.mounted = some s.scope ∧ ∃ r ∈ s.requests, r.readFor ≠ s.scope :=
  ⟨⟨_,_,.of_foldlM rfl,.of_foldlM rfl,_,List.mem_cons_self,rfl,_,List.mem_cons_self,rfl,rfl⟩,
    _,.of_foldlM rfl,rfl,_,List.mem_cons_self,by decide⟩

end Instances
end Linea.ApprovalList
