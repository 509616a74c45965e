import Linea.ConversationPages
import Linea.Runs
import Mathlib.Data.Int.Notation

/-! The view of one conversation: a hook that loads the messages page by page under a generation counter
and appends those whose send has been confirmed, while its client and conversation may change. -/
namespace Linea.ConversationView

structure Scope (Client Conversation : Type) where
  client : Client
  conversationId : Conversation
  deriving DecidableEq, Repr

variable {Client Conversation : Type}

/-- The messages the server has: none twice, each in the log of its own conversation, and the next id is
new. -/
structure Server (Conversation : Type) where
  log : Conversation → List (Message Conversation)
  nextId : ℕ
  nodup : ∀ c, (log c).Nodup
  own : ∀ c, ∀ m ∈ log c, m.conversationId = c
  old : ∀ c, ∀ m ∈ log c, m.id < nextId

structure Refresh (Client Conversation : Type) where
  scope : Scope Client Conversation
  currentGeneration : ℕ
  reading : Reading Conversation
  deriving DecidableEq, Repr

/-- A send in flight, with its message once the server has stored it. -/
structure Send (Client Conversation : Type) where
  scope : Scope Client Conversation
  stored : Option (Message Conversation)
  deriving DecidableEq, Repr

/-- The hook and the server. `scope` is the ref that every render sets, `effectDue` says that the effect
of a change is still to run, and `rendered` holds the scopes whose functions may have been kept. The
state is what the next render shows. `confirmed` records the messages whose send has been confirmed
since the effect. -/
structure View (Client Conversation : Type) where
  generation : ℕ
  scope : Scope Client Conversation
  mounted : Option (Scope Client Conversation)
  effectDue : Bool
  rendered : List (Scope Client Conversation)
  conversation : Option Conversation
  messages : List (Message Conversation)
  isLoading : Bool
  pendingSends : ℤ
  error : Bool
  refreshes : List (Refresh Client Conversation)
  sends : List (Send Client Conversation)
  log : Conversation → List (Message Conversation)
  nextId : ℕ
  confirmed : List (Message Conversation)

def View.isSending (s : View Client Conversation) : Bool := 0 < s.pendingSends

namespace View

/-- The first render. -/
def mount (scope : Scope Client Conversation) (server : Server Conversation) :
    View Client Conversation :=
  ⟨0,scope,none,true,[scope],none,[],true,0,false,[],[],server.log,server.nextId,[]⟩

/-- `refresh` up to its first `await`. -/
def refresh (scope : Scope Client Conversation) (s : View Client Conversation) :
    View Client Conversation :=
  { s with
    generation := s.generation + 1
    isLoading := true
    error := false
    refreshes := s.refreshes ++ [⟨scope,s.generation + 1,.conversation⟩] }

/-- The clean-up of the effect before, and what the effect resets. -/
def clear (s : View Client Conversation) : View Client Conversation :=
  { s with
    generation := if s.mounted.isSome then s.generation + 1 else s.generation
    mounted := some s.scope
    effectDue := false
    conversation := none
    messages := []
    pendingSends := 0
    confirmed := [] }

def effect (s : View Client Conversation) : View Client Conversation := refresh s.scope s.clear

/-- The end of a refresh that has read all its pages. -/
def settle (r : Refresh Client Conversation) (nextMessages : List (Message Conversation))
    (s : View Client Conversation) : View Client Conversation :=
  if s.generation = r.currentGeneration then
    { s with
      conversation := some r.scope.conversationId
      messages := nextMessages
      isLoading := false }
  else s

def failRefresh (r : Refresh Client Conversation) (s : View Client Conversation) :
    View Client Conversation :=
  if s.generation = r.currentGeneration then { s with error := true, isLoading := false } else s

/-- The server stores a message. -/
def store [DecidableEq Conversation] (conversationId : Conversation) (s : View Client Conversation) :
    View Client Conversation :=
  { s with
    log := fun c =>
      if c = conversationId then s.log c ++ [⟨s.nextId,conversationId⟩] else s.log c
    nextId := s.nextId + 1 }

/-- `sendMessage` up to its `await`. -/
def sendMessage (scope : Scope Client Conversation) (s : View Client Conversation) :
    View Client Conversation :=
  { s with
    pendingSends := s.pendingSends + 1
    error := false
    sends := s.sends ++ [⟨scope,none⟩] }

variable [DecidableEq Client] [DecidableEq Conversation]

def confirm (send : Send Client Conversation) (message : Message Conversation)
    (s : View Client Conversation) : View Client Conversation :=
  if s.scope = send.scope then
    { s with
      messages := s.messages ++ [message]
      pendingSends := s.pendingSends - 1
      confirmed := s.confirmed ++ [message] }
  else s

def failSend (send : Send Client Conversation) (s : View Client Conversation) :
    View Client Conversation :=
  if s.scope = send.scope then { s with error := true, pendingSends := s.pendingSends - 1 } else s

end View

/-- `append` is a message of another party; `read` is the moment at which the server reads a page. A
send fails before its message is stored or after. -/
inductive Act (Client Conversation : Type) where
  | render (scope : Scope Client Conversation)
  | effect
  | refresh (scope : Scope Client Conversation)
  | conversationReply (refresh : ℕ)
  | read (refresh : ℕ)
  | pageReply (refresh : ℕ)
  | refreshFails (refresh : ℕ)
  | sendMessage (scope : Scope Client Conversation)
  | store (send : ℕ)
  | sendReply (send : ℕ)
  | sendFails (send : ℕ)
  | append (conversationId : Conversation)

/-- What a refresh does with the answer of a page: the next page, or its end. -/
def View.takePage (r : Refresh Client Conversation) (index : ℕ) (page : Page Conversation)
    (nextMessages : List (Message Conversation)) (s : View Client Conversation) :
    View Client Conversation :=
  match page.nextCursor with
  | some cursor =>
    { s with refreshes := s.refreshes.set index { r with
      reading := .page (some cursor) (nextMessages ++ page.data) } }
  | none =>
    View.settle r (nextMessages ++ page.data) { s with refreshes := s.refreshes.eraseIdx index }

variable [DecidableEq Client] [DecidableEq Conversation]

/-- `none` when the act is not possible. React runs the effects that are due before it renders again. -/
def step (s : View Client Conversation) : Act Client Conversation → Option (View Client Conversation)
  | .render scope =>
    if s.effectDue then none
    else some { s with
      scope := scope, effectDue := scope ≠ s.scope, rendered := s.rendered ++ [scope] }
  | .effect => if s.effectDue then some s.effect else none
  | .refresh scope => if scope ∈ s.rendered then some (s.refresh scope) else none
  | .conversationReply i =>
    match s.refreshes[i]? with
    | some ⟨scope,generation,.conversation⟩ =>
      some { s with refreshes := s.refreshes.set i ⟨scope,generation,.page none []⟩ }
    | _ => none
  | .read i =>
    match s.refreshes[i]? with
    | some ⟨scope,generation,.page cursor nextMessages⟩ =>
      some { s with refreshes := s.refreshes.set i ⟨scope,generation,
        .answer (listMessages (s.log scope.conversationId) cursor 100) nextMessages⟩ }
    | _ => none
  | .pageReply i =>
    match s.refreshes[i]? with
    | some ⟨scope,generation,.answer page nextMessages⟩ =>
      some (s.takePage ⟨scope,generation,.answer page nextMessages⟩ i page nextMessages)
    | _ => none
  | .refreshFails i =>
    match s.refreshes[i]? with
    | some r => some (View.failRefresh r { s with refreshes := s.refreshes.eraseIdx i })
    | none => none
  | .sendMessage scope => if scope ∈ s.rendered then some (s.sendMessage scope) else none
  | .store i =>
    match s.sends[i]? with
    | some ⟨scope,none⟩ =>
      some (View.store scope.conversationId { s with
        sends := s.sends.set i ⟨scope,some ⟨s.nextId,scope.conversationId⟩⟩ })
    | _ => none
  | .sendReply i =>
    match s.sends[i]? with
    | some ⟨scope,some message⟩ =>
      some (View.confirm ⟨scope,some message⟩ message { s with sends := s.sends.eraseIdx i })
    | _ => none
  | .sendFails i =>
    match s.sends[i]? with
    | some send => some (View.failSend send { s with sends := s.sends.eraseIdx i })
    | none => none
  | .append conversationId => some (s.store conversationId)

/-- Sends and refreshes of a conversation do not overlap, functions kept from a render of another scope
are not called, and a conversation is not opened while a send of it is in flight. -/
def Orderly (s : View Client Conversation) : Act Client Conversation → Prop
  | .render scope => scope = s.scope ∨ ∀ send ∈ s.sends, send.scope ≠ scope
  | .refresh scope =>
    s.effectDue = false ∧ scope = s.scope ∧ ∀ send ∈ s.sends, send.scope ≠ s.scope
  | .sendMessage scope =>
    s.effectDue = false ∧ scope = s.scope ∧
      ∀ r ∈ s.refreshes, r.currentGeneration ≠ s.generation
  | _ => True


/-! ## The invariant -/

/-- The logs hold no message twice, each holds messages of its own conversation, and new ids are new. -/
structure LogSound (s : View Client Conversation) : Prop where
  nodup : ∀ c, (s.log c).Nodup
  own : ∀ c, ∀ m ∈ s.log c, m.conversationId = c
  old : ∀ c, ∀ m ∈ s.log c, m.id < s.nextId

/-- The scope whose messages are shown is `scope`. -/
def Shows (s : View Client Conversation) (scope : Scope Client Conversation) : Prop :=
  s.mounted = some scope

structure Inv (s : View Client Conversation) : Prop where
  log : LogSound s
  generations : ∀ r ∈ s.refreshes, r.currentGeneration ≤ s.generation
  readings : ∀ r ∈ s.refreshes, r.reading.Sound (s.log r.scope.conversationId)
  -- A refresh that can still take effect is one of the shown conversation, without sends beside it.
  live : ∀ r ∈ s.refreshes, r.currentGeneration = s.generation → Shows s r.scope ∧
    (∀ m ∈ s.confirmed, m ∈ r.reading.remaining (s.log r.scope.conversationId)) ∧
    ∀ send ∈ s.sends, send.scope ≠ r.scope
  stored : ∀ send ∈ s.sends, ∀ m, send.stored = some m → m ∈ s.log send.scope.conversationId ∧
    (Shows s send.scope → m ∉ s.messages)
  apart : s.sends.Pairwise fun a b => ∀ m, a.stored = some m → b.stored ≠ some m
  nodup : s.messages.Nodup
  shown : ∀ m ∈ s.messages, ∃ scope, Shows s scope ∧ m ∈ s.log scope.conversationId
  confirmed : ∀ m ∈ s.confirmed, m ∈ s.messages
  idle : s.effectDue = false → Shows s s.scope ∧
    s.pendingSends = (s.sends.countP (·.scope = s.scope) : ℕ)
  opening : s.effectDue = true → ∀ send ∈ s.sends, send.scope ≠ s.scope

omit [DecidableEq Client] in
lemma LogSound.store {s : View Client Conversation} (h : LogSound s) (c : Conversation) :
    LogSound (s.store c) := by
  have hnew : (⟨s.nextId,c⟩ : Message Conversation) ∉ s.log c := fun hm =>
    absurd (h.old c _ hm) (lt_irrefl _)
  constructor
  · intro c'
    dsimp only [View.store]
    split_ifs with hc
    · subst hc
      exact List.nodup_append.mpr ⟨h.nodup c',List.nodup_singleton _,fun x hx y hy hxy =>
        hnew (List.mem_singleton.mp hy ▸ hxy ▸ hx)⟩
    · exact h.nodup c'
  · intro c' m hm
    dsimp only [View.store] at hm
    split_ifs at hm with hc
    · rcases List.mem_append.mp hm with hm | hm
      · exact h.own c' m hm
      · rw [List.mem_singleton.mp hm,hc]
    · exact h.own c' m hm
  · intro c' m hm
    dsimp only [View.store] at hm ⊢
    split_ifs at hm with hc
    · rcases List.mem_append.mp hm with hm | hm
      · exact (h.old c' m hm).trans (Nat.lt_succ_self _)
      · rw [List.mem_singleton.mp hm]
        exact Nat.lt_succ_self _
    · exact (h.old c' m hm).trans (Nat.lt_succ_self _)

omit [DecidableEq Client] in
/-- What the log of a conversation is after a message has been stored. -/
lemma store_log (s : View Client Conversation) (c c' : Conversation) :
    (s.store c).log c' = s.log c' ∨
      (s.store c).log c' = s.log c' ++ [⟨s.nextId,c⟩] := by
  dsimp only [View.store]
  split_ifs
  · exact .inr rfl
  · exact .inl rfl

omit [DecidableEq Client] in
lemma mem_store_log {s : View Client Conversation} {c c' : Conversation} {m : Message Conversation}
    (h : m ∈ s.log c') : m ∈ (s.store c).log c' := by
  rcases store_log s c c' with heq | heq <;> rw [heq]
  · exact h
  · exact List.mem_append_left _ h

lemma Inv.store {s : View Client Conversation} (h : Inv s) (c : Conversation) : Inv (s.store c) where
  log := h.log.store c
  generations := h.generations
  readings r hr := by
    have hsound := h.readings r hr
    rcases store_log s c r.scope.conversationId with heq | heq <;> rw [heq]
    · exact hsound
    · exact hsound.append fun hm => absurd (h.log.old _ _ hm) (lt_irrefl _)
  live r hr hlive := by
    obtain ⟨hshows,hconfirmed,hsends⟩ := h.live r hr hlive
    refine ⟨hshows,fun m hm => ?_,hsends⟩
    rcases store_log s c r.scope.conversationId with heq | heq <;> rw [heq]
    · exact hconfirmed m hm
    · exact (h.readings r hr).kept (hconfirmed m hm)
  stored send hsend m hm := by
    obtain ⟨hlog,hnew⟩ := h.stored send hsend m hm
    exact ⟨mem_store_log hlog,hnew⟩
  apart := h.apart
  nodup := h.nodup
  shown m hm := by
    obtain ⟨scope,hshows,hlog⟩ := h.shown m hm
    exact ⟨scope,hshows,mem_store_log hlog⟩
  confirmed := h.confirmed
  idle := h.idle
  opening := h.opening

/-- A refresh is begun where no send of its conversation is in flight and all that is confirmed is in the
log. -/
lemma Inv.refresh {s : View Client Conversation} (h : Inv s) {scope : Scope Client Conversation}
    (hshows : Shows s scope) (hsends : ∀ send ∈ s.sends, send.scope ≠ scope) :
    Inv (s.refresh scope) where
  log := ⟨h.log.nodup,h.log.own,h.log.old⟩
  generations r hr := by
    rcases List.mem_append.mp hr with hr | hr
    · exact (h.generations r hr).trans (Nat.le_succ _)
    · rw [List.mem_singleton.mp hr]
      exact le_refl _
  readings r hr := by
    rcases List.mem_append.mp hr with hr | hr
    · exact h.readings r hr
    · rw [List.mem_singleton.mp hr]
      exact ⟨h.log.nodup _,fun m hm => hm,Nat.zero_le _⟩
  live r hr hlive := by
    rcases List.mem_append.mp hr with hr | hr
    · have hle := h.generations r hr
      dsimp only [View.refresh] at hlive
      omega
    · rw [List.mem_singleton.mp hr]
      refine ⟨hshows,fun m hm => ?_,hsends⟩
      obtain ⟨scope',hshows',hlog⟩ := h.shown m (h.confirmed m hm)
      obtain rfl := Option.some.inj (hshows.symm.trans hshows')
      exact hlog
  stored := h.stored
  apart := h.apart
  nodup := h.nodup
  shown := h.shown
  confirmed := h.confirmed
  idle := h.idle
  opening := h.opening

lemma Inv.clear {s : View Client Conversation} (h : Inv s) (hdue : s.effectDue = true) :
    Inv s.clear where
  log := ⟨h.log.nodup,h.log.own,h.log.old⟩
  generations r hr := by
    have hle := h.generations r hr
    dsimp only [View.clear]
    split_ifs <;> omega
  readings := h.readings
  live r hr hlive := by
    have hle := h.generations r hr
    dsimp only [View.clear] at hlive
    split_ifs at hlive with hmounted
    · omega
    · obtain ⟨hshows,_⟩ := h.live r hr hlive
      rw [Shows] at hshows
      rw [hshows] at hmounted
      exact absurd rfl hmounted
  stored send hsend m hm := ⟨(h.stored send hsend m hm).1,fun _ => List.not_mem_nil⟩
  apart := h.apart
  nodup := List.nodup_nil
  shown m hm := absurd hm List.not_mem_nil
  confirmed m hm := absurd hm List.not_mem_nil
  idle _ := by
    have hcount : s.sends.countP (·.scope = s.scope) = 0 := by
      rw [List.countP_eq_zero]
      intro send hsend
      simpa using h.opening hdue send hsend
    refine ⟨rfl,?_⟩
    change (0 : ℤ) = (s.sends.countP (·.scope = s.scope) : ℕ)
    rw [hcount]
    rfl
  opening hfalse := by cases hfalse

lemma Inv.effect {s : View Client Conversation} (h : Inv s) (hdue : s.effectDue = true) :
    Inv s.effect :=
  (h.clear hdue).refresh rfl (h.opening hdue)

/-- A refresh goes on in a way that loses nothing it had still to read. -/
lemma Inv.setReading {s : View Client Conversation} (h : Inv s) {i : ℕ}
    {r : Refresh Client Conversation} (hget : s.refreshes[i]? = some r) (reading : Reading Conversation)
    (hsound : reading.Sound (s.log r.scope.conversationId))
    (hkept : ∀ m ∈ r.reading.remaining (s.log r.scope.conversationId),
      m ∈ reading.remaining (s.log r.scope.conversationId)) :
    Inv { s with refreshes := s.refreshes.set i { r with reading := reading } } := by
  have hmem : r ∈ s.refreshes := List.mem_of_getElem? hget
  refine ⟨⟨h.log.nodup,h.log.own,h.log.old⟩,?_,?_,?_,h.stored,h.apart,h.nodup,h.shown,h.confirmed,h.idle,
    h.opening⟩
  all_goals intro r' hr'
  all_goals rcases List.mem_or_eq_of_mem_set hr' with hr' | rfl
  · exact h.generations r' hr'
  · exact h.generations r hmem
  · exact h.readings r' hr'
  · exact hsound
  · exact h.live r' hr'
  · intro hlive
    obtain ⟨hshows,hconfirmed,hsends⟩ := h.live r hmem hlive
    exact ⟨hshows,fun m hm => hkept m (hconfirmed m hm),hsends⟩

/-- A refresh ends without effect. -/
lemma Inv.dropRefresh {s : View Client Conversation} (h : Inv s) (i : ℕ) :
    Inv { s with refreshes := s.refreshes.eraseIdx i } :=
  ⟨⟨h.log.nodup,h.log.own,h.log.old⟩,fun r hr => h.generations r (List.mem_of_mem_eraseIdx hr),
    fun r hr => h.readings r (List.mem_of_mem_eraseIdx hr),
    fun r hr => h.live r (List.mem_of_mem_eraseIdx hr),h.stored,h.apart,h.nodup,h.shown,h.confirmed,
    h.idle,h.opening⟩

lemma Inv.failRefresh {s : View Client Conversation} (h : Inv s) (r : Refresh Client Conversation) :
    Inv (View.failRefresh r s) := by
  unfold View.failRefresh
  split_ifs
  · exact ⟨⟨h.log.nodup,h.log.own,h.log.old⟩,h.generations,h.readings,h.live,h.stored,h.apart,h.nodup,
      h.shown,h.confirmed,h.idle,h.opening⟩
  · exact h

/-- What a refresh has read replaces the list: nothing that is confirmed is missing, and no send of the
conversation is in flight. -/
lemma Inv.settle {s : View Client Conversation} (h : Inv s) {i : ℕ}
    {r : Refresh Client Conversation} (hget : s.refreshes[i]? = some r)
    {nextMessages : List (Message Conversation)}
    (hread : r.reading.remaining (s.log r.scope.conversationId) = nextMessages) :
    Inv (View.settle r nextMessages { s with refreshes := s.refreshes.eraseIdx i }) := by
  have hmem : r ∈ s.refreshes := List.mem_of_getElem? hget
  have hsound := h.readings r hmem
  have hdropped := h.dropRefresh i
  unfold View.settle
  split_ifs with hlive
  · obtain ⟨hshows,hconfirmed,hsends⟩ := h.live r hmem hlive.symm
    rw [hread] at hconfirmed
    refine ⟨⟨h.log.nodup,h.log.own,h.log.old⟩,hdropped.generations,hdropped.readings,hdropped.live,?_,
      h.apart,hread ▸ hsound.nodup,?_,hconfirmed,h.idle,h.opening⟩
    · intro send hsend m hm
      refine ⟨(h.stored send hsend m hm).1,fun hsame => ?_⟩
      exact absurd (Option.some.inj (hsame.symm.trans hshows)) (hsends send hsend)
    · intro m hm
      exact ⟨r.scope,hshows,hsound.subset m (hread ▸ hm)⟩
  · exact hdropped

lemma Inv.takePage {s : View Client Conversation} (h : Inv s) {i : ℕ}
    {scope : Scope Client Conversation} {generation : ℕ} {page : Page Conversation}
    {nextMessages : List (Message Conversation)}
    (hget : s.refreshes[i]? = some ⟨scope,generation,.answer page nextMessages⟩) :
    Inv (s.takePage ⟨scope,generation,.answer page nextMessages⟩ i page nextMessages) := by
  obtain ⟨data,nextCursor⟩ := page
  have hsound := h.readings _ (List.mem_of_getElem? hget)
  unfold View.takePage
  cases nextCursor with
  | none => exact h.settle hget rfl
  | some cursor =>
    exact h.setReading hget (.page (some cursor) (nextMessages ++ data))
      ⟨hsound.nodup,hsound.subset,hsound.cursor_le⟩ fun m hm => hm

lemma Inv.render {s : View Client Conversation} (h : Inv s) (hdue : s.effectDue = false)
    {scope : Scope Client Conversation}
    (hok : scope = s.scope ∨ ∀ send ∈ s.sends, send.scope ≠ scope) :
    Inv { s with
      scope := scope, effectDue := scope ≠ s.scope, rendered := s.rendered ++ [scope] } := by
  refine ⟨⟨h.log.nodup,h.log.own,h.log.old⟩,h.generations,h.readings,h.live,h.stored,h.apart,h.nodup,
    h.shown,h.confirmed,?_,?_⟩
  · intro hsame
    obtain rfl : scope = s.scope := by simpa using hsame
    exact h.idle hdue
  · intro hother
    have hne : scope ≠ s.scope := by simpa using hother
    exact hok.resolve_left hne

lemma Inv.sendMessage {s : View Client Conversation} (h : Inv s) (hdue : s.effectDue = false)
    (hrefreshes : ∀ r ∈ s.refreshes, r.currentGeneration ≠ s.generation) :
    Inv (s.sendMessage s.scope) where
  log := ⟨h.log.nodup,h.log.own,h.log.old⟩
  generations := h.generations
  readings := h.readings
  live r hr hlive := absurd hlive (hrefreshes r hr)
  stored send hsend m hm := by
    rcases List.mem_append.mp hsend with hsend | hsend
    · exact h.stored send hsend m hm
    · rw [List.mem_singleton.mp hsend] at hm
      cases hm
  apart := List.pairwise_append.mpr ⟨h.apart,List.pairwise_singleton _ _,fun a _ b hb m _ hbm => by
    rw [List.mem_singleton.mp hb] at hbm
    cases hbm⟩
  nodup := h.nodup
  shown := h.shown
  confirmed := h.confirmed
  idle _ := by
    obtain ⟨hshows,hcount⟩ := h.idle hdue
    refine ⟨hshows,?_⟩
    simp [View.sendMessage,List.countP_append,hcount]
  opening hopening := by
    rw [View.sendMessage,hdue] at hopening
    cases hopening

/-- A list around one of its places. -/
lemma split_at {α : Type} {l : List α} {i : ℕ} {x : α} (h : l[i]? = some x) :
    ∃ l₁ l₂, l = l₁ ++ x :: l₂ ∧ l.eraseIdx i = l₁ ++ l₂ ∧ ∀ y, l.set i y = l₁ ++ y :: l₂ := by
  obtain ⟨hi,rfl⟩ := List.getElem?_eq_some_iff.mp h
  refine ⟨l.take i,l.drop (i + 1),?_,List.eraseIdx_eq_take_drop_succ l i,fun y => ?_⟩
  · rw [List.getElem_cons_drop,List.take_append_drop]
  · exact List.set_eq_take_append_cons_drop.trans (if_pos hi)

/-- A send ends: of its conversation, one send less is in flight. -/
lemma Inv.dropSend {s : View Client Conversation} (h : Inv s) {i : ℕ}
    {send : Send Client Conversation} (hget : s.sends[i]? = some send) :
    (∀ other ∈ s.sends.eraseIdx i, other ∈ s.sends ∧
      ∀ m, send.stored = some m → other.stored ≠ some m) ∧
    (s.sends.eraseIdx i).Pairwise (fun a b => ∀ m, a.stored = some m → b.stored ≠ some m) ∧
    ∀ scope, s.sends.countP (·.scope = scope) =
      (s.sends.eraseIdx i).countP (·.scope = scope) + if send.scope = scope then 1 else 0 := by
  obtain ⟨l₁,l₂,hsends,herase,_⟩ := split_at hget
  have hapart := h.apart
  rw [hsends,List.pairwise_append,List.pairwise_cons] at hapart
  obtain ⟨hapart₁,⟨hnext,hapart₂⟩,hacross⟩ := hapart
  rw [herase]
  refine ⟨fun other hother => ⟨?_,fun m hm => ?_⟩,?_,fun scope => ?_⟩
  · rw [hsends]
    rcases List.mem_append.mp hother with hother | hother
    · exact List.mem_append_left _ hother
    · exact List.mem_append_right _ (List.mem_cons_of_mem _ hother)
  · rcases List.mem_append.mp hother with hother | hother
    · exact fun hom => hacross other hother send List.mem_cons_self m hom hm
    · exact hnext other hother m hm
  · exact List.pairwise_append.mpr ⟨hapart₁,hapart₂,fun a ha b hb =>
      hacross a ha b (List.mem_cons_of_mem _ hb)⟩
  · rw [hsends,List.countP_append,List.countP_append,List.countP_cons]
    simp only [decide_eq_true_eq]
    omega

lemma Inv.confirm {s : View Client Conversation} (h : Inv s) {i : ℕ}
    {scope : Scope Client Conversation} {message : Message Conversation}
    (hget : s.sends[i]? = some ⟨scope,some message⟩) :
    Inv (View.confirm ⟨scope,some message⟩ message { s with sends := s.sends.eraseIdx i }) := by
  have hmem : (⟨scope,some message⟩ : Send Client Conversation) ∈ s.sends := List.mem_of_getElem? hget
  obtain ⟨hothers,hapart,hcount⟩ := h.dropSend hget
  obtain ⟨hlog,hnew⟩ := h.stored _ hmem message rfl
  have hlive : ∀ r ∈ s.refreshes, r.currentGeneration = s.generation → Shows s r.scope ∧
      (∀ m ∈ s.confirmed, m ∈ r.reading.remaining (s.log r.scope.conversationId)) ∧
      ∀ send ∈ s.sends.eraseIdx i, send.scope ≠ r.scope := fun r hr hgen =>
    ⟨(h.live r hr hgen).1,(h.live r hr hgen).2.1,fun send hsend =>
      (h.live r hr hgen).2.2 send (hothers send hsend).1⟩
  have hstored : ∀ send ∈ s.sends.eraseIdx i, ∀ m, send.stored = some m →
      m ∈ s.log send.scope.conversationId ∧ (Shows s send.scope → m ∉ s.messages) :=
    fun send hsend => h.stored send (hothers send hsend).1
  unfold View.confirm
  split_ifs with hscope
  · dsimp only at hscope
    have hdue : s.effectDue = false := by
      rw [Bool.eq_false_iff]
      exact fun hdue => h.opening hdue _ hmem hscope.symm
    obtain ⟨hshows,hpending⟩ := h.idle hdue
    rw [hscope] at hshows
    refine ⟨⟨h.log.nodup,h.log.own,h.log.old⟩,h.generations,h.readings,?_,?_,hapart,?_,?_,?_,?_,?_⟩
    · intro r hr hgen
      have hsame : scope = r.scope := Option.some.inj (hshows.symm.trans (hlive r hr hgen).1)
      exact absurd hsame ((h.live r hr hgen).2.2 _ hmem)
    · intro send hsend m hm
      refine ⟨(hstored send hsend m hm).1,fun hsame hmessages => ?_⟩
      rcases List.mem_append.mp hmessages with hmessages | hmessages
      · exact (hstored send hsend m hm).2 hsame hmessages
      · rw [List.mem_singleton.mp hmessages] at hm
        exact (hothers send hsend).2 message rfl hm
    · exact List.nodup_append.mpr ⟨h.nodup,List.nodup_singleton _,fun x hx y hy hxy =>
        hnew hshows (List.mem_singleton.mp hy ▸ hxy ▸ hx)⟩
    · intro m hm
      rcases List.mem_append.mp hm with hm | hm
      · exact h.shown m hm
      · rw [List.mem_singleton.mp hm]
        exact ⟨scope,hshows,hlog⟩
    · intro m hm
      rcases List.mem_append.mp hm with hm | hm
      · exact List.mem_append_left _ (h.confirmed m hm)
      · exact List.mem_append_right _ hm
    · intro _
      refine ⟨(h.idle hdue).1,?_⟩
      have hless := hcount s.scope
      rw [if_pos hscope.symm] at hless
      dsimp only
      omega
    · intro hopening send hsend
      exact h.opening hopening send (hothers send hsend).1
  · refine ⟨⟨h.log.nodup,h.log.own,h.log.old⟩,h.generations,h.readings,hlive,hstored,hapart,h.nodup,h.shown,
      h.confirmed,?_,fun hopening send hsend => h.opening hopening send (hothers send hsend).1⟩
    intro hdue
    refine ⟨(h.idle hdue).1,?_⟩
    have hsame := hcount s.scope
    rw [if_neg fun heq => hscope heq.symm,Nat.add_zero] at hsame
    dsimp only
    rw [← hsame]
    exact (h.idle hdue).2

lemma Inv.failSend {s : View Client Conversation} (h : Inv s) {i : ℕ}
    {send : Send Client Conversation} (hget : s.sends[i]? = some send) :
    Inv (View.failSend send { s with sends := s.sends.eraseIdx i }) := by
  have hmem : send ∈ s.sends := List.mem_of_getElem? hget
  obtain ⟨hothers,hapart,hcount⟩ := h.dropSend hget
  have hlive : ∀ r ∈ s.refreshes, r.currentGeneration = s.generation → Shows s r.scope ∧
      (∀ m ∈ s.confirmed, m ∈ r.reading.remaining (s.log r.scope.conversationId)) ∧
      ∀ send ∈ s.sends.eraseIdx i, send.scope ≠ r.scope := fun r hr hgen =>
    ⟨(h.live r hr hgen).1,(h.live r hr hgen).2.1,fun send hsend =>
      (h.live r hr hgen).2.2 send (hothers send hsend).1⟩
  have hstored : ∀ send ∈ s.sends.eraseIdx i, ∀ m, send.stored = some m →
      m ∈ s.log send.scope.conversationId ∧ (Shows s send.scope → m ∉ s.messages) :=
    fun send hsend => h.stored send (hothers send hsend).1
  have hopening : s.effectDue = true → ∀ send ∈ s.sends.eraseIdx i, send.scope ≠ s.scope :=
    fun hdue send hsend => h.opening hdue send (hothers send hsend).1
  have hless := hcount s.scope
  unfold View.failSend
  split_ifs with hscope
  · refine ⟨⟨h.log.nodup,h.log.own,h.log.old⟩,h.generations,h.readings,hlive,hstored,hapart,h.nodup,h.shown,
      h.confirmed,fun hdue => ⟨(h.idle hdue).1,?_⟩,hopening⟩
    have hpending := (h.idle hdue).2
    rw [if_pos hscope.symm] at hless
    dsimp only
    omega
  · refine ⟨⟨h.log.nodup,h.log.own,h.log.old⟩,h.generations,h.readings,hlive,hstored,hapart,h.nodup,h.shown,
      h.confirmed,fun hdue => ⟨(h.idle hdue).1,?_⟩,hopening⟩
    rw [if_neg fun heq => hscope heq.symm,Nat.add_zero] at hless
    dsimp only
    rw [← hless]
    exact (h.idle hdue).2

/-- The server has stored the message of a send, a new one. -/
lemma Inv.storeSend {s : View Client Conversation} (h : Inv s) {i : ℕ}
    {scope : Scope Client Conversation} (hget : s.sends[i]? = some ⟨scope,none⟩) :
    Inv (View.store scope.conversationId { s with
      sends := s.sends.set i ⟨scope,some ⟨s.nextId,scope.conversationId⟩⟩ }) := by
  have hstore := h.store scope.conversationId
  have hmem : (⟨scope,none⟩ : Send Client Conversation) ∈ s.sends := List.mem_of_getElem? hget
  obtain ⟨l₁,l₂,hsends,_,hset⟩ := split_at hget
  have hfresh : ∀ c, ∀ m ∈ s.log c, m ≠ ⟨s.nextId,scope.conversationId⟩ := by
    rintro c m hm rfl
    exact absurd (h.log.old c _ hm) (lt_irrefl _)
  have hscopes : ∀ send ∈ s.sends.set i ⟨scope,some ⟨s.nextId,scope.conversationId⟩⟩,
      ∃ other ∈ s.sends, other.scope = send.scope := by
    intro send hsend
    rcases List.mem_or_eq_of_mem_set hsend with hsend | rfl
    · exact ⟨send,hsend,rfl⟩
    · exact ⟨_,hmem,rfl⟩
  refine ⟨⟨hstore.log.nodup,hstore.log.own,hstore.log.old⟩,h.generations,hstore.readings,?_,?_,?_,h.nodup,
    hstore.shown,h.confirmed,?_,?_⟩
  · intro r hr hlive
    obtain ⟨hshows,hconfirmed,hothers⟩ := hstore.live r hr hlive
    refine ⟨hshows,hconfirmed,fun send hsend => ?_⟩
    obtain ⟨other,hother,hscope⟩ := hscopes send hsend
    exact hscope ▸ hothers other hother
  · intro send hsend m hm
    rcases List.mem_or_eq_of_mem_set hsend with hsend | rfl
    · exact hstore.stored send hsend m hm
    · cases hm
      refine ⟨?_,fun _ hmessages => ?_⟩
      · dsimp only [View.store]
        rw [if_pos rfl]
        exact List.mem_append_right _ List.mem_cons_self
      · obtain ⟨scope',_,hlog⟩ := h.shown _ hmessages
        exact hfresh _ _ hlog rfl
  · have hapart := h.apart
    dsimp only [View.store]
    rw [hset]
    rw [hsends,List.pairwise_append,List.pairwise_cons] at hapart
    obtain ⟨hapart₁,⟨_,hapart₂⟩,hacross⟩ := hapart
    have hold : ∀ other ∈ s.sends, ∀ m, other.stored = some m →
        m ≠ ⟨s.nextId,scope.conversationId⟩ := fun other hother m hm =>
      hfresh _ m (h.stored other hother m hm).1
    refine List.pairwise_append.mpr ⟨hapart₁,List.pairwise_cons.mpr ⟨fun b hb m hm hbm => ?_,hapart₂⟩,
      fun a ha b hb m ham hbm => ?_⟩
    · cases hm
      exact hold b (by rw [hsends]; simp [hb]) _ hbm rfl
    · rcases List.mem_cons.mp hb with rfl | hb
      · cases hbm
        exact hold a (by rw [hsends]; simp [ha]) _ ham rfl
      · exact hacross a ha b (List.mem_cons_of_mem _ hb) m ham hbm
  · intro hdue
    obtain ⟨hshows,hcount⟩ := h.idle hdue
    refine ⟨hshows,hcount.trans ?_⟩
    dsimp only [View.store]
    rw [hset,hsends,List.countP_append,List.countP_append,List.countP_cons,List.countP_cons]
    rfl
  · intro hdue send hsend
    obtain ⟨other,hother,hscope⟩ := hscopes send hsend
    exact hscope ▸ h.opening hdue other hother

theorem Inv.step {s s' : View Client Conversation} {act : Act Client Conversation} (h : Inv s)
    (hok : Orderly s act) (hstep : ConversationView.step s act = some s') : Inv s' := by
  cases act with
  | render scope =>
    simp only [ConversationView.step,Option.ite_none_left_eq_some,Option.some.injEq] at hstep
    obtain ⟨hdue,rfl⟩ := hstep
    exact h.render (Bool.eq_false_iff.mpr hdue) hok
  | effect =>
    simp only [ConversationView.step,Option.ite_none_right_eq_some,Option.some.injEq] at hstep
    obtain ⟨hdue,rfl⟩ := hstep
    exact h.effect hdue
  | refresh scope =>
    simp only [ConversationView.step,Option.ite_none_right_eq_some,Option.some.injEq] at hstep
    obtain ⟨_,rfl⟩ := hstep
    obtain ⟨hdue,rfl,hsends⟩ := hok
    exact h.refresh (h.idle hdue).1 hsends
  | conversationReply i =>
    simp only [ConversationView.step] at hstep
    split at hstep
    · next scope generation hget =>
      cases hstep
      have hsound := h.readings _ (List.mem_of_getElem? hget)
      exact h.setReading hget (.page none [])
        ⟨hsound.nodup,hsound.subset,Nat.zero_le _⟩ fun m hm => hm
    · cases hstep
  | read i =>
    simp only [ConversationView.step] at hstep
    split at hstep
    · next scope generation cursor nextMessages hget =>
      cases hstep
      have hsound := h.readings _ (List.mem_of_getElem? hget)
      refine h.setReading hget _ (hsound.read 100) fun m hm => ?_
      rw [remaining_page] at hm
      exact (listMessages_remaining _ cursor 100 nextMessages).symm.subset hm
    · cases hstep
  | pageReply i =>
    simp only [ConversationView.step] at hstep
    split at hstep
    · next scope generation page nextMessages hget =>
      cases hstep
      exact h.takePage hget
    · cases hstep
  | refreshFails i =>
    simp only [ConversationView.step] at hstep
    split at hstep
    · cases hstep
      exact (h.dropRefresh i).failRefresh _
    · cases hstep
  | sendMessage scope =>
    simp only [ConversationView.step,Option.ite_none_right_eq_some,Option.some.injEq] at hstep
    obtain ⟨_,rfl⟩ := hstep
    obtain ⟨hdue,rfl,hrefreshes⟩ := hok
    exact h.sendMessage hdue hrefreshes
  | store i =>
    simp only [ConversationView.step] at hstep
    split at hstep
    · next scope hget =>
      cases hstep
      exact h.storeSend hget
    · cases hstep
  | sendReply i =>
    simp only [ConversationView.step] at hstep
    split at hstep
    · next scope message hget =>
      cases hstep
      exact h.confirm hget
    · cases hstep
  | sendFails i =>
    simp only [ConversationView.step] at hstep
    split at hstep
    · next send hget =>
      cases hstep
      exact h.failSend hget
    · cases hstep
  | append conversationId =>
    cases hstep
    exact h.store conversationId

lemma inv_mount (scope : Scope Client Conversation) (server : Server Conversation) :
    Inv (View.mount scope server) where
  log := ⟨server.nodup,server.own,server.old⟩
  generations _ hr := absurd hr List.not_mem_nil
  readings _ hr := absurd hr List.not_mem_nil
  live _ hr := absurd hr List.not_mem_nil
  stored _ hsend := absurd hsend List.not_mem_nil
  apart := .nil
  nodup := .nil
  shown _ hm := absurd hm List.not_mem_nil
  confirmed _ hm := absurd hm List.not_mem_nil
  idle hdue := by cases hdue
  opening _ _ hsend := absurd hsend List.not_mem_nil

/-- What a view is to show. The last two hold once the effect of a change has run. -/
structure Faithful (s : View Client Conversation) : Prop where
  nodup : s.messages.Nodup
  confirmed : ∀ m ∈ s.confirmed, m ∈ s.messages
  own : s.effectDue = false → ∀ m ∈ s.messages, m.conversationId = s.scope.conversationId
  sending : s.effectDue = false → (s.isSending = true ↔ ∃ send ∈ s.sends, send.scope = s.scope)

lemma Inv.faithful {s : View Client Conversation} (h : Inv s) : Faithful s where
  nodup := h.nodup
  confirmed := h.confirmed
  own hdue m hm := by
    obtain ⟨scope,hshows,hlog⟩ := h.shown m hm
    obtain rfl := Option.some.inj ((h.idle hdue).1.symm.trans hshows)
    exact h.log.own _ m hlog
  sending hdue := by
    rw [View.isSending,decide_eq_true_eq,(h.idle hdue).2,Int.natCast_pos,List.countP_pos_iff]
    simp only [decide_eq_true_eq]

/-- In a run where sends and refreshes do not overlap, the functions called are those of the current
render and no conversation is opened with a send of it in flight, every state is shown faithfully. -/
theorem view_faithful {scope : Scope Client Conversation} {server : Server Conversation}
    {acts : List (Act Client Conversation)} {s : View Client Conversation}
    (h : Run step Orderly (View.mount scope server) acts s) : Faithful s :=
  (h.invariant (fun hs hok hstep => hs.step hok hstep) (inv_mount scope server)).faithful

section Instances

/-- One message in the first conversation. -/
def oneMessage : Server ℕ where
  log c := if c = 0 then [⟨7,0⟩] else []
  nextId := 8
  nodup c := by
    split_ifs
    · exact List.nodup_singleton _
    · exact List.nodup_nil
  own c m hm := by
    split_ifs at hm with hc
    · rw [List.mem_singleton.mp hm,hc]
    · cases hm
  old c m hm := by
    split_ifs at hm
    · rw [List.mem_singleton.mp hm]
      decide
    · cases hm

/-- Loaded, and then a message is sent. -/
theorem view_faithful_sent : ∃ s : View ℕ ℕ, Run step Orderly (View.mount ⟨0,0⟩ oneMessage)
    [.effect,.conversationReply 0,.read 0,.pageReply 0,.sendMessage ⟨0,0⟩,.store 0,.sendReply 0] s ∧
      s.messages = [⟨7,0⟩,⟨8,0⟩] ∧ Faithful s := by
  have hrun : ∃ s : View ℕ ℕ, Run step Orderly (View.mount ⟨0,0⟩ oneMessage)
      [.effect,.conversationReply 0,.read 0,.pageReply 0,.sendMessage ⟨0,0⟩,.store 0,.sendReply 0] s ∧
        s.messages = [⟨7,0⟩,⟨8,0⟩] :=
    ⟨_,.cons trivial rfl <| .cons trivial rfl <| .cons trivial rfl <| .cons trivial rfl <|
      .cons ⟨rfl,rfl,fun r hr => absurd hr List.not_mem_nil⟩ rfl <| .cons trivial rfl <|
      .cons trivial rfl <| .nil _,rfl⟩
  obtain ⟨s,hrun,hmessages⟩ := hrun
  exact ⟨s,hrun,hmessages,view_faithful hrun⟩

/-- A message read by a refresh before its send is confirmed is shown twice; one that a refresh has not
read is lost when the refresh settles after the confirmation; a kept function shows the messages of the
conversation before; and with a send left behind by going away and back, a later one is not counted. -/
theorem view_overlaps :
    (∃ s : View ℕ ℕ, Run step (fun _ _ => True) (View.mount ⟨0,0⟩ oneMessage)
      [.effect,.conversationReply 0,.sendMessage ⟨0,0⟩,.store 0,.read 0,.pageReply 0,.sendReply 0] s ∧
      ¬ s.messages.Nodup) ∧
    (∃ s : View ℕ ℕ, Run step (fun _ _ => True) (View.mount ⟨0,0⟩ oneMessage)
      [.effect,.conversationReply 0,.read 0,.sendMessage ⟨0,0⟩,.store 0,.sendReply 0,.pageReply 0] s ∧
      ¬ ∀ m ∈ s.confirmed, m ∈ s.messages) ∧
    (∃ s : View ℕ ℕ, Run step (fun _ _ => True) (View.mount ⟨0,0⟩ oneMessage)
      [.effect,.render ⟨0,1⟩,.effect,.refresh ⟨0,0⟩,.conversationReply 2,.read 2,.pageReply 2] s ∧
      s.effectDue = false ∧ ¬ ∀ m ∈ s.messages, m.conversationId = s.scope.conversationId) ∧
    ∃ s : View ℕ ℕ, Run step (fun _ _ => True) (View.mount ⟨0,0⟩ oneMessage)
      [.effect,.sendMessage ⟨0,0⟩,.render ⟨0,1⟩,.effect,.render ⟨0,0⟩,.effect,.sendFails 0,
        .sendMessage ⟨0,0⟩] s ∧
      s.effectDue = false ∧ s.isSending = false ∧ ∃ send ∈ s.sends, send.scope = s.scope :=
  ⟨⟨_,.of_foldlM rfl,by decide⟩,⟨_,.of_foldlM rfl,by decide⟩,⟨_,.of_foldlM rfl,rfl,by decide⟩,
    ⟨_,.of_foldlM rfl,rfl,rfl,_,List.mem_cons_self,rfl⟩⟩

end Instances

end Linea.ConversationView
