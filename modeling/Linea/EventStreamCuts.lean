import Linea.EventStreamChunks

/-! What the server's event stream sends (`end-user-event-stream.service.ts`), and what the SDK makes
of a response whose body ends anywhere (`readEventStream`, and `streamEvents` in `user-client.ts`). -/
namespace Linea.EventStream

def EventType.text : EventType → String
  | .executionCompleted => "execution.completed"
  | .executionFailed => "execution.failed"
  | .approvalRequestCreated => "approval_request.created"
  | .approvalRequestDecided => "approval_request.decided"
  | .approvalRequestCancelled => "approval_request.cancelled"
  | .actionIntentExecuted => "action_intent.executed"
  | .actionIntentFailed => "action_intent.failed"
  | .connectionRevoked => "connection.revoked"

/-- `JSON.stringify` of an envelope. -/
abbrev Stringify := EventEnvelope → List Char

section Serialization
variable (stringify : Stringify)

/-- A serialized event up to the name of its `data` field. -/
def eventHead (envelope : EventEnvelope) : List Char :=
  ['i', 'd', ':', ' '] ++ envelope.id.toList ++ ['\n', 'e', 'v', 'e', 'n', 't', ':', ' '] ++ envelope.type.text.toList ++
    ['\n', 'd', 'a', 't', 'a']

/-- A serialized event up to the end of its data. -/
def eventData (envelope : EventEnvelope) : List Char :=
  eventHead envelope ++ [':', ' '] ++ stringify envelope

def serialize (envelope : EventEnvelope) : List Char :=
  eventData stringify envelope ++ ['\n', '\n']

inductive Frame
  | connected
  | keepalive
  | event (envelope : EventEnvelope)

def Frame.text : Frame → List Char
  | .connected => [':', ' ', 'c', 'o', 'n', 'n', 'e', 'c', 't', 'e', 'd', '\n', '\n']
  | .keepalive => [':', ' ', 'k', 'e', 'e', 'p', 'a', 'l', 'i', 'v', 'e', '\n', '\n']
  | .event envelope => serialize stringify envelope

def Frame.events : Frame → List EventEnvelope
  | .connected | .keepalive => []
  | .event envelope => [envelope]

def streamText (frames : List Frame) : List Char := frames.flatMap (Frame.text stringify)

def streamBytes (frames : List Frame) : List UInt8 := Utf8Decoder.encode (streamText stringify frames)

def size (text : List Char) : ℕ := (Utf8Decoder.encode text).length

/-- The events whose empty line is among the first `n` bytes. -/
def completed : List Frame → ℕ → List EventEnvelope
  | [], _ => []
  | frame :: frames, n =>
    if size (frame.text stringify) ≤ n then
      frame.events ++ completed frames (n - size (frame.text stringify))
    else []

/-- The first `n` bytes end in the data of an event: after the field's name, before the last byte. -/
def CutsData (frames : List Frame) (n : ℕ) : Prop :=
  ∃ before envelope after, frames = before ++ .event envelope :: after ∧
    size (streamText stringify before ++ eventHead envelope) ≤ n ∧
    n < size (streamText stringify before ++ eventData stringify envelope)

/-- All complete events are read and at most one more, whose data is there; nothing is thrown. -/
def Intact (frames : List Frame) (n : ℕ) (reading : Reading) : Prop :=
  reading.failed = false ∧ (reading.events = completed stringify frames n ∨
    ∃ before envelope after, frames = before ++ .event envelope :: after ∧
      size (streamText stringify before ++ eventData stringify envelope) ≤ n ∧
      reading.events = completed stringify frames n ++ [envelope])

end Serialization

/-- What is taken from JSON: a text in one line, from which the envelope is read again, and of which
no proper beginning is JSON, nor one that a cut character ends. Ids are UUIDs. -/
structure Sendable (parse : EnvelopeParser) (stringify : Stringify) (envelope : EventEnvelope) :
    Prop where
  id_line : '\n' ∉ envelope.id.toList ∧ '\r' ∉ envelope.id.toList
  json_line : '\n' ∉ stringify envelope ∧ '\r' ∉ stringify envelope
  json_ne : stringify envelope ≠ []
  round : parse (stringify envelope) = some envelope
  cut : ∀ text, text <+: stringify envelope → text ≠ stringify envelope →
    parse text = none ∧ parse (text ++ [Utf8Decoder.REPLACEMENT]) = none

section Leftover
variable {parse : EnvelopeParser} {stringify : Stringify} {envelope : EventEnvelope}
  {line xs ys tail : List Char} {lines : List (List Char)} {block : EventBlock}

theorem addEventLine_data (h : fieldOf line ≠ ['d', 'a', 't', 'a']) :
    (addEventLine block line).data = block.data := by
  unfold addEventLine
  split
  · rfl
  · split
    · rfl
    · rfl

theorem foldl_data (h : ∀ line ∈ lines, fieldOf line ≠ ['d', 'a', 't', 'a']) :
    (lines.foldl addEventLine block).data = block.data := by
  induction lines generalizing block with
  | nil => rfl
  | cons line lines ih =>
    rw [List.foldl_cons, ih fun other hother => h other (by simp [hother]),
      addEventLine_data (h line (by simp))]

theorem parseLines_dataless (h : ∀ line ∈ lines, fieldOf line ≠ ['d', 'a', 't', 'a']) :
    parseLines parse lines = .nothing := by
  rw [parseLines, if_pos (foldl_data h)]

theorem fieldOf_ne (h : line.head? ≠ some 'd') : fieldOf line ≠ ['d', 'a', 't', 'a'] := by
  intro heq
  cases line with
  | nil => cases heq
  | cons ch line =>
    rw [fieldOf, List.takeWhile_cons] at heq
    split at heq
    · simp only [List.cons.injEq] at heq
      exact h (by simp [heq.1])
    · cases heq

theorem splitLines_line (hnewline : '\n' ∉ xs) (hreturn : '\r' ∉ xs) : splitLines xs = [xs] := by
  induction xs with
  | nil => rfl
  | cons ch xs ih =>
    rw [splitLines_cons (fun h => hnewline (by simp [h])) (fun h => hreturn (by simp [h])),
      ih (fun h => hnewline (by simp [h])) fun h => hreturn (by simp [h])]
    rfl

def firstLine (envelope : EventEnvelope) : List Char := ['i', 'd', ':', ' '] ++ envelope.id.toList

def secondLine (envelope : EventEnvelope) : List Char :=
  ['e', 'v', 'e', 'n', 't', ':', ' '] ++ envelope.type.text.toList

theorem eventHead_eq : eventHead envelope =
    firstLine envelope ++ '\n' :: (secondLine envelope ++ '\n' :: ['d', 'a', 't', 'a']) := by
  simp [eventHead, firstLine, secondLine]

theorem secondLine_plain (ch : Char) (h : ch ∈ secondLine envelope) :
    ch ≠ '\n' ∧ ch ≠ '\r' ∧ ch.toNat ≤ 0x7F := by
  have hall : (secondLine envelope).all (fun ch => ch ≠ '\n' ∧ ch ≠ '\r' ∧ ch.toNat ≤ 0x7F) =
      true := by
    rw [secondLine]
    cases envelope.type <;> decide +kernel
  simpa using List.all_eq_true.mp hall ch h

theorem Sendable.firstLine (h : Sendable parse stringify envelope) :
    '\n' ∉ firstLine envelope ∧ '\r' ∉ firstLine envelope := by
  simp [EventStream.firstLine, h.id_line.1, h.id_line.2]

/-- The lines of an event from whose data a part is there. -/
theorem splitLines_event (h : Sendable parse stringify envelope) (hnewline : '\n' ∉ ys)
    (hreturn : '\r' ∉ ys) : splitLines (eventHead envelope ++ ys) =
      [firstLine envelope, secondLine envelope, ['d', 'a', 't', 'a'] ++ ys] := by
  have hfirst := h.firstLine
  have hsecond : '\n' ∉ secondLine envelope ∧ '\r' ∉ secondLine envelope :=
    ⟨fun hin => (secondLine_plain _ hin).1 rfl, fun hin => (secondLine_plain _ hin).2.1 rfl⟩
  have hthird : '\n' ∉ ['d', 'a', 't', 'a'] ++ ys ∧ '\r' ∉ ['d', 'a', 't', 'a'] ++ ys := by
    simp [hnewline, hreturn]
  have hsame : eventHead envelope ++ ys = firstLine envelope ++
      '\n' :: (secondLine envelope ++ '\n' :: (['d', 'a', 't', 'a'] ++ ys)) := by
    simp [eventHead_eq]
  rw [hsame, splitLines_append hfirst.2, splitLines_append hsecond.2,
    splitLines_line hfirst.1 hfirst.2, splitLines_line hsecond.1 hsecond.2,
    splitLines_line hthird.1 hthird.2]
  rfl

theorem block_event {value : List Char} (hfield : fieldOf (['d', 'a', 't', 'a'] ++ ys) = ['d', 'a', 't', 'a'])
    (hvalue : valueOf (['d', 'a', 't', 'a'] ++ ys) = value) :
    [firstLine envelope, secondLine envelope, ['d', 'a', 't', 'a'] ++ ys].foldl addEventLine ⟨none, []⟩ =
      ⟨some envelope.id.toList, [value]⟩ := by
  have hfirst : ∀ block, addEventLine block (firstLine envelope) =
      { block with id := some envelope.id.toList } := fun block => by
    simp [addEventLine, firstLine, fieldOf, valueOf]
  have hsecond : ∀ block, addEventLine block (secondLine envelope) = block := fun block => by
    simp [addEventLine, secondLine, fieldOf]
  have hthird : ∀ block, addEventLine block (['d', 'a', 't', 'a'] ++ ys) =
      { block with data := block.data ++ [value] } := fun block => by
    rw [addEventLine, if_neg (by simp), hfield, if_neg (by decide), if_pos rfl, hvalue]
  simp only [List.foldl_cons, List.foldl_nil, hfirst, hsecond, hthird, List.nil_append]

theorem parseBlock_event (h : Sendable parse stringify envelope) (hnewline : '\n' ∉ ys)
    (hreturn : '\r' ∉ ys) {value : List Char}
    (hfield : fieldOf (['d', 'a', 't', 'a'] ++ ys) = ['d', 'a', 't', 'a'])
    (hvalue : valueOf (['d', 'a', 't', 'a'] ++ ys) = value) :
    parseBlock parse (eventHead envelope ++ ys) = match parse value with
      | none => ⟨[], true⟩
      | some event => if envelope.id.toList ≠ event.id.toList then ⟨[], true⟩
        else ⟨[event], false⟩ := by
  rw [parseBlock, splitLines_event h hnewline hreturn, parseLines, block_event hfield hvalue]
  simp only [reduceCtorEq, if_false, List.intercalate, List.intersperse, List.flatten_cons,
    List.flatten_nil, List.append_nil]
  cases parse value with
  | none => rfl
  | some event => simp

theorem field_data (ys : List Char) : fieldOf (['d', 'a', 't', 'a', ':', ' '] ++ ys) = ['d', 'a', 't', 'a'] := by
  simp [fieldOf]

theorem value_data (ys : List Char) : valueOf (['d', 'a', 't', 'a', ':', ' '] ++ ys) = ys := by
  simp [valueOf]

/-- What the end of the input may add to a cut text. -/
def CutTail (text : List Char) (k : ℕ) (tail : List Char) : Prop :=
  tail = [] ∨ tail = [Utf8Decoder.REPLACEMENT] ∧ ∃ c, text[k]? = some c ∧ ¬ c.toNat ≤ 0x7F

theorem CutTail.ascii {k : ℕ} {c : Char} (h : CutTail xs k tail) (hc : xs[k]? = some c)
    (hascii : c.toNat ≤ 0x7F) : tail = [] := by
  rcases h with h | ⟨_, c', hc', hwide⟩
  · exact h
  · rw [hc, Option.some.injEq] at hc'
    exact absurd (hc' ▸ hascii) hwide

theorem CutTail.plain {k : ℕ} (h : CutTail xs k tail) :
    '\n' ∉ tail ∧ '\r' ∉ tail ∧ tail.head? ≠ some 'd' := by
  rcases h with rfl | ⟨rfl, _⟩ <;> decide

theorem take_plain {ch : Char} {k : ℕ} (h : ch ∉ xs) (htail : ch ∉ tail) :
    ch ∉ xs.take k ++ tail := by
  rw [List.mem_append]
  rintro (hin | hin)
  · exact h (List.mem_of_mem_take hin)
  · exact htail hin

theorem take_head {ch : Char} {k : ℕ} (h : xs.head? ≠ some ch) (htail : tail.head? ≠ some ch) :
    (xs.take k ++ tail).head? ≠ some ch := by
  cases k with
  | zero => simpa using htail
  | succ k =>
    cases xs with
    | nil => simpa using htail
    | cons x xs => simpa using h

/-- An event that is cut before its data is passed over. -/
theorem parseBlock_head {k : ℕ} (h : Sendable parse stringify envelope)
    (hk : k < (eventHead envelope).length)
    (htail : CutTail (eventHead envelope ++ ys) k tail) :
    parseBlock parse ((eventHead envelope).take k ++ tail) = .nothing := by
  obtain ⟨hnewline, hreturn, hd⟩ := htail.plain
  obtain ⟨hfirst, hfirst'⟩ := h.firstLine
  have hsecond : '\n' ∉ secondLine envelope := fun hin => (secondLine_plain _ hin).1 rfl
  have hsecond' : '\r' ∉ secondLine envelope := fun hin => (secondLine_plain _ hin).2.1 rfl
  have hfirstField : fieldOf (firstLine envelope) ≠ ['d', 'a', 't', 'a'] :=
    fieldOf_ne (by simp [firstLine])
  have hsecondField : fieldOf (secondLine envelope) ≠ ['d', 'a', 't', 'a'] :=
    fieldOf_ne (by simp [secondLine])
  rw [parseBlock]
  refine parseLines_dataless ?_
  rw [eventHead_eq] at hk htail ⊢
  by_cases hk₁ : k ≤ (firstLine envelope).length
  · -- in the line of the id
    rw [List.take_append_of_le_length hk₁,
      splitLines_line (take_plain hfirst hnewline) (take_plain hfirst' hreturn)]
    simp only [List.mem_singleton, forall_eq]
    exact fieldOf_ne (take_head (by simp [firstLine]) hd)
  · obtain ⟨j, rfl⟩ : ∃ j, k = (firstLine envelope).length + (j + 1) :=
      ⟨k - (firstLine envelope).length - 1, by omega⟩
    rw [List.take_length_add_append, List.take_succ_cons, List.append_assoc, List.cons_append,
      splitLines_append hfirst', splitLines_line hfirst hfirst']
    by_cases hk₂ : j ≤ (secondLine envelope).length
    · -- in the line of the type
      rw [List.take_append_of_le_length hk₂,
        splitLines_line (take_plain hsecond hnewline) (take_plain hsecond' hreturn)]
      simp only [List.singleton_append, List.mem_cons, List.not_mem_nil, or_false, forall_eq_or_imp,
        forall_eq]
      exact ⟨hfirstField, fieldOf_ne (take_head (by simp [secondLine]) hd)⟩
    · -- in the name of the data field
      obtain ⟨i, rfl⟩ : ∃ i, j = (secondLine envelope).length + (i + 1) :=
        ⟨j - (secondLine envelope).length - 1, by omega⟩
      simp only [List.length_append, List.length_cons, List.length_nil] at hk
      have hi : i < 4 := by omega
      have hnone : tail = [] := by
        refine htail.ascii (c := ['d', 'a', 't', 'a'].get ⟨i, hi⟩) ?_ ?_
        · rw [List.append_assoc, List.getElem?_append_right (by omega), List.cons_append,
            show (firstLine envelope).length + ((secondLine envelope).length + (i + 1) + 1) -
              (firstLine envelope).length = (secondLine envelope).length + (i + 1) + 1 by omega,
            List.getElem?_cons_succ, List.append_assoc, List.getElem?_append_right (by omega),
            show (secondLine envelope).length + (i + 1) - (secondLine envelope).length = i + 1 by
              omega, List.cons_append, List.getElem?_cons_succ]
          interval_cases i <;> rfl
        · interval_cases i <;> simp
      subst hnone
      rw [List.append_nil, List.take_length_add_append, List.take_succ_cons,
        splitLines_append hsecond', splitLines_line hsecond hsecond']
      have hname : ∀ line ∈ splitLines (['d', 'a', 't', 'a'].take i),
          fieldOf line ≠ ['d', 'a', 't', 'a'] := by
        interval_cases i <;> decide
      intro line hline
      simp only [List.singleton_append, List.mem_cons] at hline
      rcases hline with rfl | rfl | hline
      · exact hfirstField
      · exact hsecondField
      · exact hname line hline

/-- An event that is cut in its data is an error. -/
theorem parseBlock_cut {k : ℕ} (h : Sendable parse stringify envelope)
    (hk : k < 2 + (stringify envelope).length)
    (htail : CutTail ([':', ' '] ++ stringify envelope ++ ys) k tail) :
    parseBlock parse (eventHead envelope ++ (([':', ' '] ++ stringify envelope).take k ++ tail)) =
      ⟨[], true⟩ := by
  obtain ⟨hnewline, hreturn, _⟩ := htail.plain
  have hplain : ∀ ch, ch ∉ stringify envelope → ch ≠ ':' → ch ≠ ' ' →
      ch ∉ [':', ' '] ++ stringify envelope := by
    intro ch hch hcolon hspace
    simp [hch, hcolon, hspace]
  have hempty : parse [] = none :=
    (h.cut [] List.nil_prefix fun heq => h.json_ne heq.symm).1
  have hline : '\n' ∉ ([':', ' '] ++ stringify envelope).take k ++ tail :=
    take_plain (hplain _ h.json_line.1 (by decide) (by decide)) hnewline
  have hline' : '\r' ∉ ([':', ' '] ++ stringify envelope).take k ++ tail :=
    take_plain (hplain _ h.json_line.2 (by decide) (by decide)) hreturn
  rcases k with _ | _ | k
  · have hnone : tail = [] := htail.ascii (c := ':') rfl (by decide)
    subst hnone
    rw [parseBlock_event h hline hline' rfl rfl]
    change (match parse [] with | none => _ | some event => _) = _
    rw [hempty]
  · have hnone : tail = [] := htail.ascii (c := ' ') rfl (by decide)
    subst hnone
    rw [parseBlock_event h hline hline' rfl rfl]
    change (match parse [] with | none => _ | some event => _) = _
    rw [hempty]
  · have hvalue : parse ((stringify envelope).take k ++ tail) = none := by
      have hproper : (stringify envelope).take k ≠ stringify envelope := fun heq => by
        have := congrArg List.length heq
        simp at this
        omega
      have hcut := h.cut _ (List.take_prefix k _) hproper
      rcases htail with rfl | ⟨rfl, _⟩
      · rw [List.append_nil]
        exact hcut.1
      · exact hcut.2
    have hparsed := parseBlock_event h hline hline' (field_data _)
      (value_data ((stringify envelope).take k ++ tail))
    rw [hvalue] at hparsed
    exact hparsed

/-- An event whose data is there is read. -/
theorem parseBlock_data (h : Sendable parse stringify envelope) :
    parseBlock parse (eventData stringify envelope) = ⟨[envelope], false⟩ := by
  have hline : '\n' ∉ [':', ' '] ++ stringify envelope := by simp [h.json_line.1]
  have hline' : '\r' ∉ [':', ' '] ++ stringify envelope := by simp [h.json_line.2]
  have hparsed := parseBlock_event h hline hline' (field_data _) (value_data (stringify envelope))
  rw [h.round] at hparsed
  rw [eventData, List.append_assoc, hparsed]
  simp

end Leftover

section Frames
variable {parse : EnvelopeParser} {stringify : Stringify} {envelope : EventEnvelope}
  {xs ys tail : List Char} {frame : Frame} {frames : List Frame} {s : Bool} {n : ℕ}

theorem Unbroken.cons {ch : Char} (h : Unbroken xs) (hch : ch ≠ '\n' ∨ xs.head? ≠ some '\n') :
    Unbroken (ch :: xs) := by
  intro hin
  rcases List.infix_cons_iff.mp hin with hprefix | hin
  · obtain ⟨rest, hrest⟩ := hprefix
    simp only [List.cons_append, List.nil_append, List.cons.injEq] at hrest
    obtain ⟨rfl, rfl⟩ := hrest
    exact hch.elim (fun h => h rfl) fun h => h rfl
  · exact h hin

theorem Unbroken.line (h : Unbroken ys) (hxs : '\n' ∉ xs) : Unbroken (xs ++ ys) := by
  induction xs with
  | nil => exact h
  | cons ch xs ih =>
    refine (ih fun hin => hxs (by simp [hin])).cons (.inl ?_)
    rintro rfl
    exact hxs (by simp)

theorem Unbroken.cut {k : ℕ} (h : Unbroken xs) (htail : CutTail ys k tail) :
    Unbroken (xs ++ tail) := by
  rcases htail with rfl | ⟨rfl, _⟩
  · simpa using h
  · rcases List.eq_nil_or_concat xs with rfl | ⟨xs, last, rfl⟩
    · exact unbroken_singleton _
    · rw [List.concat_eq_append] at h ⊢
      refine h.snoc ?_
      rintro ⟨_, hch⟩
      exact absurd hch (by decide)

theorem unbroken_eventData (h : Sendable parse stringify envelope) :
    Unbroken (eventData stringify envelope ++ ['\n']) := by
  have hsecond : '\n' ∉ secondLine envelope := fun hin => (secondLine_plain _ hin).1 rfl
  have hdata : '\n' ∉ ['d', 'a', 't', 'a', ':', ' '] ++ stringify envelope := by
    simp [h.json_line.1]
  have hsame : eventData stringify envelope ++ ['\n'] = firstLine envelope ++ '\n' ::
      (secondLine envelope ++ '\n' :: (['d', 'a', 't', 'a', ':', ' '] ++ stringify envelope ++
        ['\n'])) := by
    simp [eventData, eventHead_eq]
  rw [hsame]
  refine Unbroken.line (Unbroken.cons (Unbroken.line (Unbroken.cons ?_ (.inr (by simp))) hsecond)
    (.inr (by simp [secondLine]))) h.firstLine.1
  exact (unbroken_singleton '\n').line hdata

/-- A frame is a block and the empty line that ends it. -/
def Frame.body (stringify : Stringify) : Frame → List Char
  | .connected => [':', ' ', 'c', 'o', 'n', 'n', 'e', 'c', 't', 'e', 'd']
  | .keepalive => [':', ' ', 'k', 'e', 'e', 'p', 'a', 'l', 'i', 'v', 'e']
  | .event envelope => eventData stringify envelope

theorem frame_text (frame : Frame) :
    frame.text stringify = frame.body stringify ++ ['\n', '\n'] := by
  cases frame <;> rfl

theorem unbroken_body (h : ∀ e ∈ frame.events, Sendable parse stringify e) :
    Unbroken (frame.body stringify ++ ['\n']) := by
  cases frame with
  | connected => exact (unbroken_singleton '\n').line (by rw [Frame.body]; decide)
  | keepalive => exact (unbroken_singleton '\n').line (by rw [Frame.body]; decide)
  | event envelope => exact unbroken_eventData (h envelope (by simp [Frame.events]))

theorem parseBlock_body (h : ∀ e ∈ frame.events, Sendable parse stringify e) :
    parseBlock parse (frame.body stringify) = ⟨frame.events, false⟩ := by
  cases frame with
  | connected => rfl
  | keepalive => rfl
  | event envelope => exact parseBlock_data (h envelope (by simp [Frame.events]))

theorem readText_frame (h : ∀ e ∈ frame.events, Sendable parse stringify e) (rest : List Char) :
    readText parse (frame.text stringify ++ rest) =
      Reading.andThen ⟨frame.events, false⟩ (readText parse rest) := by
  have hskip : drain parse [] (frame.text stringify ++ rest) =
      drain parse (frame.body stringify) ('\n' :: '\n' :: rest) := by
    rw [frame_text, List.append_assoc, drain_skip (by simpa using unbroken_body h)]
    simp
  rw [readText, hskip, drain, parseBlock_body h, andThen_assoc]
  rfl

theorem readText_frames (h : ∀ e ∈ frames.flatMap Frame.events, Sendable parse stringify e)
    (rest : List Char) : readText parse (streamText stringify frames ++ rest) =
      Reading.andThen ⟨frames.flatMap Frame.events, false⟩ (readText parse rest) := by
  induction frames with
  | nil => rfl
  | cons frame frames ih =>
    rw [streamText, List.flatMap_cons, List.append_assoc, readText_frame fun e he =>
      h e (by simp [he]), ← streamText, ih fun e he => h e (by simp at he ⊢; exact .inr he),
      ← andThen_assoc, List.flatMap_cons]
    rfl

theorem text_carriage (h : ∀ e ∈ frame.events, Sendable parse stringify e) :
    '\r' ∉ frame.text stringify := by
  cases frame with
  | connected => rw [Frame.text]; decide
  | keepalive => rw [Frame.text]; decide
  | event envelope =>
    have hsend := h envelope (by simp [Frame.events])
    have hsecond : '\r' ∉ secondLine envelope := fun hin => (secondLine_plain _ hin).2.1 rfl
    simp [Frame.text, serialize, eventData, eventHead_eq, hsend.firstLine.2, hsecond,
      hsend.json_line.2]

theorem streamText_carriage (h : ∀ e ∈ frames.flatMap Frame.events, Sendable parse stringify e) :
    '\r' ∉ streamText stringify frames := by
  rw [streamText, List.mem_flatMap]
  rintro ⟨frame, hframe, hin⟩
  exact text_carriage (fun e he => h e (List.mem_flatMap.mpr ⟨frame, hframe, he⟩)) hin

theorem text_head (frame : Frame) :
    (frame.text stringify).head? ≠ some Utf8Decoder.BYTE_ORDER_MARK := by
  cases frame with
  | connected => rw [Frame.text]; decide
  | keepalive => rw [Frame.text]; decide
  | event envelope =>
    simp only [Frame.text, serialize, eventData, eventHead, List.cons_append, List.head?_cons]
    decide

/-- What is read of a frame that is cut. -/
def leftover (stringify : Stringify) (n : ℕ) : Frame → Reading
  | .connected | .keepalive => .nothing
  | .event envelope =>
    if n < size (eventHead envelope) then .nothing
    else if n < size (eventData stringify envelope) then ⟨[], true⟩
    else ⟨[envelope], false⟩

theorem parseBlock_comment {text : List Char} {k : ℕ} (hascii : text.all (fun ch => ch.toNat ≤ 0x7F) = true)
    (hread : ∀ j < text.length, parseBlock parse (text.take j) = .nothing)
    (hk : k < text.length) (htail : CutTail text k tail) :
    parseBlock parse (text.take k ++ tail) = .nothing := by
  have hplain := List.all_eq_true.mp hascii _ (List.getElem_mem hk)
  have hnone : tail = [] :=
    htail.ascii (List.getElem?_eq_getElem hk) (of_decide_eq_true hplain)
  rw [hnone, List.append_nil, hread k hk]

theorem parseBlock_leftover {k : ℕ} (h : ∀ e ∈ frame.events, Sendable parse stringify e)
    (hk : k < (frame.text stringify).length) (htail : CutTail (frame.text stringify) k tail)
    (hcount : ∀ m ≤ (frame.text stringify).length,
      size ((frame.text stringify).take m) ≤ n ↔ m ≤ k) :
    parseBlock parse ((frame.text stringify).take k ++ tail) = leftover stringify n frame := by
  cases frame with
  | connected =>
    refine parseBlock_comment rfl (fun j hj => ?_) hk htail
    simp only [Frame.text, List.length_cons, List.length_nil] at hj
    interval_cases j <;> rfl
  | keepalive =>
    refine parseBlock_comment rfl (fun j hj => ?_) hk htail
    simp only [Frame.text, List.length_cons, List.length_nil] at hj
    interval_cases j <;> rfl
  | event envelope =>
    have hsend := h envelope (by simp [Frame.events])
    have htext : Frame.text stringify (.event envelope) =
      eventHead envelope ++ ([':', ' '] ++ stringify envelope ++ ['\n', '\n']) := by
      simp [Frame.text, serialize, eventData]
    have hdata : Frame.text stringify (.event envelope) =
      eventData stringify envelope ++ ['\n', '\n'] := rfl
    have hlength : (Frame.text stringify (.event envelope)).length =
        (eventHead envelope).length + 2 + (stringify envelope).length + 2 := by
      simp [htext]
      omega
    have hhead : size (eventHead envelope) ≤ n ↔ (eventHead envelope).length ≤ k := by
      rw [← hcount _ (by omega), htext, List.take_left]
    have hdataLength : (eventData stringify envelope).length =
        (eventHead envelope).length + 2 + (stringify envelope).length := by
      simp [eventData]
      omega
    have hwhole : size (eventData stringify envelope) ≤ n ↔
        (eventData stringify envelope).length ≤ k := by
      rw [← hcount _ (by omega), hdata, List.take_left]
    rw [leftover]
    split
    · -- before the data
      rename_i hbefore
      have hk' : k < (eventHead envelope).length := by omega
      rw [htext] at htail ⊢
      rw [List.take_append_of_le_length hk'.le]
      exact parseBlock_head hsend hk' htail
    · split
      · rename_i hbefore hin
        obtain ⟨j, rfl⟩ : ∃ j, k = (eventHead envelope).length + j :=
          ⟨k - (eventHead envelope).length, by omega⟩
        rw [htext] at htail ⊢
        rw [List.take_length_add_append, List.append_assoc]
        have hj : j < 2 + (stringify envelope).length := by omega
        rw [List.take_append_of_le_length (by simp; omega)]
        have hcut : CutTail ([':', ' '] ++ stringify envelope ++ ['\n', '\n']) j tail := by
          refine htail.imp id fun h => ⟨h.1, ?_⟩
          obtain ⟨c, hc, hwide⟩ := h.2
          rw [List.getElem?_append_right (by omega), Nat.add_sub_cancel_left] at hc
          exact ⟨c, hc, hwide⟩
        exact parseBlock_cut hsend hj hcut
      · rename_i hbefore hin
        obtain ⟨j, rfl⟩ : ∃ j, k = (eventData stringify envelope).length + j :=
          ⟨k - (eventData stringify envelope).length, by omega⟩
        have hj : j < 2 := by omega
        have hnone : tail = [] := by
          refine htail.ascii (c := '\n') ?_ (by decide)
          rw [hdata, List.getElem?_append_right (by omega), Nat.add_sub_cancel_left]
          interval_cases j <;> rfl
        rw [hnone, List.append_nil, hdata, List.take_length_add_append]
        interval_cases j
        · rw [List.take_zero, List.append_nil, parseBlock_data hsend]
        · have hreturn : '\r' ∉ eventData stringify envelope := by
            have := text_carriage h
            rw [hdata] at this
            exact fun hin => this (by simp [hin])
          rw [List.take_succ_cons, List.take_zero, parseBlock, splitLines_append hreturn]
          exact (parseLines_empty _).trans (parseBlock_data hsend)

end Frames

section Streams
variable {parse : EnvelopeParser} {stringify : Stringify} {before after frames : List Frame}
  {frame : Frame} {n : ℕ} {chunks : List (List UInt8)}

theorem size_append (xs ys : List Char) : size (xs ++ ys) = size xs + size ys := by
  simp [size, Utf8Decoder.encode_append]

theorem streamText_append : streamText stringify (before ++ after) =
    streamText stringify before ++ streamText stringify after := List.flatMap_append

theorem streamText_cons : streamText stringify (frame :: frames) =
    frame.text stringify ++ streamText stringify frames := rfl

theorem streamText_head (frames : List Frame) :
    (streamText stringify frames).head? ≠ some Utf8Decoder.BYTE_ORDER_MARK := by
  cases frames with
  | nil => simp [streamText]
  | cons frame frames =>
    have hne : frame.text stringify ≠ [] := by
      rw [frame_text]
      simp
    rw [streamText_cons, List.head?_append_of_ne_nil _ hne]
    exact text_head frame

/-- A text without carriage returns is read as it is, however it is cut. -/
theorem readEventStream_plain
    (h : '\r' ∉ (Utf8Decoder.fresh false).decoded chunks.flatten) :
    readEventStream parse chunks =
      readText parse ((Utf8Decoder.fresh false).decoded chunks.flatten) := by
  rw [← texts_flatten] at h ⊢
  have hsame : ∀ pieces : List (List Char), '\r' ∉ pieces.flatten →
      pieces.flatMap normalize = pieces.flatten := by
    intro pieces hpieces
    induction pieces with
    | nil => rfl
    | cons piece pieces ih =>
      rw [List.flatten_cons, List.mem_append, not_or] at hpieces
      have hpiece : normalize (piece ++ []) = piece ++ normalize [] := normalize_append hpieces.1
      rw [List.append_nil, normalize_nil, List.append_nil] at hpiece
      rw [List.flatMap_cons, List.flatten_cons, ih hpieces.2, hpiece]
  rw [readEventStream_eq, seen_eq, hsame _ h]

/-- A stream of which everything arrived. -/
theorem read_whole (h : ∀ e ∈ frames.flatMap Frame.events, Sendable parse stringify e)
    (hchunks : chunks.flatten = streamBytes stringify frames) :
    readEventStream parse chunks = ⟨frames.flatMap Frame.events, false⟩ := by
  obtain ⟨s, hdecode, _⟩ := Utf8Decoder.decode_encode (s := false) (streamText stringify frames)
    (.inr (streamText_head frames))
  have hdecoded : (Utf8Decoder.fresh false).decoded chunks.flatten =
      streamText stringify frames := by
    rw [hchunks, streamBytes, Utf8Decoder.decoded, hdecode]
    simp [Utf8Decoder.flush, Utf8Decoder.fresh]
  rw [readEventStream_plain (by rw [hdecoded]; exact streamText_carriage h), hdecoded]
  have hread := readText_frames h []
  rw [List.append_nil] at hread
  rw [hread]
  simp [Reading.andThen, readText, drain, parseBlock, splitLines, parseLines, Reading.nothing]

/-- A stream that is cut in a frame. -/
theorem read_cut (h : ∀ e ∈ (before ++ frame :: after).flatMap Frame.events,
      Sendable parse stringify e)
    (hbefore : size (streamText stringify before) ≤ n)
    (hafter : n < size (streamText stringify before ++ frame.text stringify))
    (hchunks : chunks.flatten = (streamBytes stringify (before ++ frame :: after)).take n) :
    readEventStream parse chunks = Reading.andThen ⟨before.flatMap Frame.events, false⟩
      (leftover stringify (n - size (streamText stringify before)) frame) := by
  have hframe : ∀ e ∈ frame.events, Sendable parse stringify e := fun e he =>
    h e (by simp [he])
  have hevents : ∀ e ∈ before.flatMap Frame.events, Sendable parse stringify e := fun e he => by
    apply h
    rw [List.flatMap_append]
    exact List.mem_append_left _ he
  rw [size_append] at hafter
  obtain ⟨s, hdecode, _⟩ := Utf8Decoder.decode_encode (s := false) (streamText stringify before)
    (.inr (streamText_head before))
  obtain ⟨k, tail, hdecoded, hcount, htail⟩ := Utf8Decoder.decoded_take (s := s)
    (frame.text stringify) (n - size (streamText stringify before)) (.inr (text_head frame))
  have hbytes : chunks.flatten = Utf8Decoder.encode (streamText stringify before) ++
      (Utf8Decoder.encode (frame.text stringify)).take (n - size (streamText stringify before)) := by
    rw [hchunks, streamBytes, streamText_append, streamText_cons, Utf8Decoder.encode_append,
      Utf8Decoder.encode_append, List.take_append, List.take_of_length_le hbefore,
      List.take_append_of_le_length]
    · rfl
    · change n - size _ ≤ size _
      omega
  have htext : (Utf8Decoder.fresh false).decoded chunks.flatten =
      streamText stringify before ++ ((frame.text stringify).take k ++ tail) := by
    rw [hbytes, Utf8Decoder.decoded_append, hdecode, hdecoded]
  have hk : k < (frame.text stringify).length := by
    by_contra hge
    have := (hcount _ le_rfl).mpr (by omega : (frame.text stringify).length ≤ k)
    rw [List.take_length] at this
    change size _ ≤ _ at this
    omega
  have hunbroken : Unbroken ((frame.text stringify).take k ++ tail) := by
    refine Unbroken.cut ?_ htail
    have hprefix : (frame.text stringify).take k <+: frame.body stringify ++ ['\n'] := by
      rw [frame_text] at hk ⊢
      simp only [List.length_append, List.length_cons, List.length_nil] at hk
      have hsame : frame.body stringify ++ ['\n', '\n'] =
          (frame.body stringify ++ ['\n']) ++ ['\n'] := by simp
      rw [hsame, List.take_append_of_le_length (by simp; omega)]
      exact List.take_prefix _ _
    exact fun hin => unbroken_body hframe (hin.trans hprefix.isInfix)
  have hreturn : '\r' ∉ (Utf8Decoder.fresh false).decoded chunks.flatten := by
    have hplain : CutTail (frame.text stringify) k tail := htail
    rw [htext, List.mem_append, not_or]
    exact ⟨streamText_carriage hevents, take_plain (text_carriage hframe) hplain.plain.2.1⟩
  rw [readEventStream_plain hreturn, htext, readText_frames hevents, readText_unbroken hunbroken,
    parseBlock_leftover hframe hk htail hcount]

/-- Where the first `n` bytes of a stream end. -/
theorem cut_position (stringify : Stringify) (frames : List Frame) (n : ℕ) :
    size (streamText stringify frames) ≤ n ∨ ∃ before frame after,
      frames = before ++ frame :: after ∧ size (streamText stringify before) ≤ n ∧
      n < size (streamText stringify before ++ frame.text stringify) := by
  induction frames generalizing n with
  | nil => exact .inl (by simp [streamText, size, Utf8Decoder.encode])
  | cons frame frames ih =>
    by_cases hn : n < size (frame.text stringify)
    · exact .inr ⟨[], frame, frames, rfl, by simp [streamText, size, Utf8Decoder.encode], by
        simpa [streamText] using hn⟩
    · rcases ih (n - size (frame.text stringify)) with hall | ⟨before, frame', after, rfl, hb, ha⟩
      · refine .inl ?_
        rw [streamText_cons, size_append]
        omega
      · refine .inr ⟨frame :: before, frame', after, rfl, ?_, ?_⟩
        · rw [streamText_cons, size_append]
          omega
        · rw [size_append] at ha
          rw [streamText_cons, size_append, size_append]
          omega

theorem completed_whole (h : size (streamText stringify frames) ≤ n) :
    completed stringify frames n = frames.flatMap Frame.events := by
  induction frames generalizing n with
  | nil => rfl
  | cons frame frames ih =>
    rw [streamText_cons, size_append] at h
    rw [completed, if_pos (by omega), ih (by omega), List.flatMap_cons]

theorem completed_cut (hbefore : size (streamText stringify before) ≤ n)
    (hafter : n < size (streamText stringify before ++ frame.text stringify)) :
    completed stringify (before ++ frame :: after) n = before.flatMap Frame.events := by
  induction before generalizing n with
  | nil =>
    rw [List.nil_append, completed, if_neg]
    · rfl
    · simpa [streamText] using hafter
  | cons first before ih =>
    rw [streamText_cons, size_append] at hbefore
    rw [streamText_cons, size_append, size_append] at hafter
    rw [List.cons_append, completed, if_pos (by omega), ih (by omega) (by rw [size_append]; omega),
      List.flatMap_cons]

/-- A cut stream is read as it should be exactly when the cut does not fall into data. -/
theorem intact_iff (h : ∀ e ∈ frames.flatMap Frame.events, Sendable parse stringify e)
    (hchunks : chunks.flatten = (streamBytes stringify frames).take n) :
    Intact stringify frames n (readEventStream parse chunks) ↔ ¬ CutsData stringify frames n := by
  constructor
  · rintro ⟨hfailed, _⟩ ⟨before, envelope, after, rfl, hhead, hdata⟩
    have hmore : size (streamText stringify before) ≤ n := by
      rw [size_append] at hhead
      omega
    have hless : n < size (streamText stringify before ++ Frame.text stringify (.event envelope)) := by
      rw [size_append] at hdata ⊢
      rw [show Frame.text stringify (.event envelope) =
        eventData stringify envelope ++ ['\n', '\n'] from rfl, size_append]
      omega
    rw [size_append] at hhead hdata
    rw [read_cut h hmore hless hchunks, leftover, if_neg (by omega), if_pos (by omega)] at hfailed
    cases hfailed
  · intro hcut
    rcases cut_position stringify frames n with hall | ⟨before, frame, after, rfl, hb, ha⟩
    · have hwhole : chunks.flatten = streamBytes stringify frames := by
        rw [hchunks, streamBytes, List.take_of_length_le hall]
      rw [read_whole h hwhole]
      exact ⟨rfl, .inl (completed_whole hall).symm⟩
    · rw [read_cut h hb ha hchunks]
      cases frame with
      | connected => exact ⟨rfl, .inl (by simp [completed_cut hb ha, leftover, Reading.andThen, Reading.nothing])⟩
      | keepalive => exact ⟨rfl, .inl (by simp [completed_cut hb ha, leftover, Reading.andThen, Reading.nothing])⟩
      | event envelope =>
        rw [leftover]
        split
        · exact ⟨rfl, .inl (by simp [completed_cut hb ha, Reading.andThen, Reading.nothing])⟩
        · split
          · rename_i hhead hdata
            refine absurd ⟨before, envelope, after, rfl, ?_, ?_⟩ hcut
            · rw [size_append]
              omega
            · rw [size_append]
              omega
          · rename_i hhead hdata
            refine ⟨rfl, .inr ⟨before, envelope, after, rfl, ?_, ?_⟩⟩
            · rw [size_append]
              omega
            · rw [completed_cut hb ha]
              simp [Reading.andThen]

end Streams

section Subscription
variable {parse : EnvelopeParser} {stringify : Stringify} {log : List EventEnvelope}

/-- The loop of `streamEvents` between two connections. -/
structure Subscriber where
  cursor : Option String
  delivered : List EventEnvelope
  thrown : Bool

def Subscriber.receive (subscriber : Subscriber) (event : EventEnvelope) : Subscriber :=
  { subscriber with cursor := some event.id, delivered := subscriber.delivered ++ [event] }

/-- One connection, from the response to the end of its body. -/
def Subscriber.readEventConnection (parse : EnvelopeParser) (subscriber : Subscriber)
    (chunks : List (List UInt8)) : Subscriber :=
  let reading := readEventStream parse chunks
  { reading.events.foldl Subscriber.receive subscriber with thrown := reading.failed }

/-- The events that the server sends to a client that has seen `cursor`. -/
def eventsAfter (log : List EventEnvelope) : Option String → List EventEnvelope
  | none => log
  | some id => (log.dropWhile fun event => event.id ≠ id).tail

/-- What a subscriber can come to by connections that are cut, though never inside data. `log` is
all that is ever published to it; a connection carries some of what follows the cursor. -/
inductive Streamed (parse : EnvelopeParser) (stringify : Stringify) (log : List EventEnvelope) :
    Subscriber → Prop
  | start : Streamed parse stringify log ⟨none, [], false⟩
  | connection {subscriber : Subscriber} (h : Streamed parse stringify log subscriber)
    (hopen : subscriber.thrown = false) (frames : List Frame) (n : ℕ) (chunks : List (List UInt8))
    (hsent : frames.flatMap Frame.events <+: eventsAfter log subscriber.cursor)
    (hchunks : chunks.flatten = (streamBytes stringify frames).take n)
    (hcut : ¬ CutsData stringify frames n) :
    Streamed parse stringify log (subscriber.readEventConnection parse chunks)

theorem foldl_receive (events : List EventEnvelope) (subscriber : Subscriber) :
    (events.foldl Subscriber.receive subscriber).delivered = subscriber.delivered ++ events ∧
      (events.foldl Subscriber.receive subscriber).cursor =
        (events.getLast?.map EventEnvelope.id).or subscriber.cursor := by
  induction events generalizing subscriber with
  | nil => simp
  | cons event events ih =>
    rw [List.foldl_cons]
    obtain ⟨hdelivered, hcursor⟩ := ih (subscriber.receive event)
    refine ⟨by rw [hdelivered]; simp [Subscriber.receive], ?_⟩
    rw [hcursor, List.getLast?_cons]
    cases events.getLast? <;> rfl

theorem readEventConnection_delivered (subscriber : Subscriber) (chunks : List (List UInt8)) :
    (subscriber.readEventConnection parse chunks).delivered =
      subscriber.delivered ++ (readEventStream parse chunks).events :=
  (foldl_receive _ subscriber).1

theorem readEventConnection_cursor (subscriber : Subscriber) (chunks : List (List UInt8)) :
    (subscriber.readEventConnection parse chunks).cursor =
      ((readEventStream parse chunks).events.getLast?.map EventEnvelope.id).or subscriber.cursor :=
  (foldl_receive _ subscriber).2

/-- After a delivered beginning of the log comes the rest of it. -/
theorem eventsAfter_last {seen rest : List EventEnvelope}
    (hids : ((seen ++ rest).map EventEnvelope.id).Nodup) :
    eventsAfter (seen ++ rest) (seen.getLast?.map EventEnvelope.id) = rest := by
  rcases List.eq_nil_or_concat seen with rfl | ⟨seen, last, rfl⟩
  · rfl
  · rw [List.concat_eq_append] at hids ⊢
    have hskip : ∀ event ∈ seen, decide (event.id ≠ last.id) = true := by
      intro event hevent
      refine decide_eq_true fun heq => ?_
      rw [List.append_assoc, List.map_append, List.nodup_append] at hids
      exact hids.2.2 event.id (List.mem_map.mpr ⟨event, hevent, rfl⟩) last.id (by simp) heq
    rw [List.getLast?_concat, Option.map_some, eventsAfter, List.append_assoc,
      List.dropWhile_append_of_pos hskip, List.singleton_append, List.dropWhile_cons_of_neg (by simp),
      List.tail_cons]

/-- The events that are read of a cut stream are the first of those that were sent. -/
theorem read_initial {frames : List Frame} {n : ℕ} {chunks : List (List UInt8)}
    (h : ∀ e ∈ frames.flatMap Frame.events, Sendable parse stringify e)
    (hchunks : chunks.flatten = (streamBytes stringify frames).take n) :
    (readEventStream parse chunks).events <+: frames.flatMap Frame.events := by
  rcases cut_position stringify frames n with hall | ⟨before, frame, after, rfl, hb, ha⟩
  · have hwhole : chunks.flatten = streamBytes stringify frames := by
      rw [hchunks, streamBytes, List.take_of_length_le hall]
    rw [read_whole h hwhole]
  · rw [read_cut h hb ha hchunks, List.flatMap_append, List.flatMap_cons, Reading.andThen,
      if_neg (by simp)]
    refine (List.prefix_append_right_inj _).mpr ?_
    cases frame with
    | connected => exact List.nil_prefix
    | keepalive => exact List.nil_prefix
    | event envelope =>
      rw [leftover]
      split
      · exact List.nil_prefix
      · split
        · exact List.nil_prefix
        · exact List.prefix_append _ _

/-- The invariant of a subscription: a beginning of the log, and the cursor at its last event. -/
structure Subscribed (log : List EventEnvelope) (subscriber : Subscriber) : Prop where
  delivered : subscriber.delivered <+: log
  cursor : subscriber.cursor = subscriber.delivered.getLast?.map EventEnvelope.id
  thrown : subscriber.thrown = false

/-- The server goes on after what was delivered. -/
theorem Subscribed.rest {subscriber : Subscriber} (h : Subscribed log subscriber)
    (hids : (log.map EventEnvelope.id).Nodup) :
    subscriber.delivered ++ eventsAfter log subscriber.cursor = log := by
  obtain ⟨rest, hrest⟩ := h.delivered
  rw [h.cursor, ← hrest, eventsAfter_last (by rw [hrest]; exact hids)]

theorem Subscribed.connection {subscriber : Subscriber} {frames : List Frame} {n : ℕ}
    {chunks : List (List UInt8)} (h : Subscribed log subscriber)
    (hlog : ∀ e ∈ log, Sendable parse stringify e) (hids : (log.map EventEnvelope.id).Nodup)
    (hsent : frames.flatMap Frame.events <+: eventsAfter log subscriber.cursor)
    (hchunks : chunks.flatten = (streamBytes stringify frames).take n)
    (hcut : ¬ CutsData stringify frames n) :
    Subscribed log (subscriber.readEventConnection parse chunks) := by
  have hrest := h.rest hids
  have hsend : ∀ e ∈ frames.flatMap Frame.events, Sendable parse stringify e := fun e he => by
    apply hlog
    rw [← hrest]
    exact List.mem_append_right _ (hsent.subset he)
  refine ⟨?_, ?_, ((intact_iff hsend hchunks).mpr hcut).1⟩
  · rw [readEventConnection_delivered, ← hrest]
    exact (List.prefix_append_right_inj _).mpr ((read_initial hsend hchunks).trans hsent)
  · rw [readEventConnection_cursor, readEventConnection_delivered, List.getLast?_append, h.cursor]
    cases (readEventStream parse chunks).events.getLast? <;> rfl

theorem Streamed.subscribed {subscriber : Subscriber}
    (h : Streamed parse stringify log subscriber)
    (hlog : ∀ e ∈ log, Sendable parse stringify e) (hids : (log.map EventEnvelope.id).Nodup) :
    Subscribed log subscriber := by
  induction h with
  | start => exact ⟨List.nil_prefix, rfl, rfl⟩
  | connection _ _ frames n chunks hsent hchunks hcut ih =>
    exact ih.connection hlog hids hsent hchunks hcut

/-- A body that ends anywhere but in the data of an event is read as far as it goes, and no other
body is; connections that are cut so deliver the log from its beginning, each event once, and one
that is not cut delivers the rest. -/
theorem streamEvents_cut (hlog : ∀ e ∈ log, Sendable parse stringify e)
    (hids : (log.map EventEnvelope.id).Nodup) :
    (∀ (frames : List Frame) (n : ℕ) (chunks : List (List UInt8)),
      (∀ e ∈ frames.flatMap Frame.events, e ∈ log) →
      chunks.flatten = (streamBytes stringify frames).take n →
      (Intact stringify frames n (readEventStream parse chunks) ↔ ¬ CutsData stringify frames n)) ∧
    ∀ subscriber, Streamed parse stringify log subscriber →
      subscriber.thrown = false ∧ subscriber.delivered <+: log ∧
      (subscriber.delivered.map EventEnvelope.id).Nodup ∧
      subscriber.cursor = subscriber.delivered.getLast?.map EventEnvelope.id ∧
      ∀ (frames : List Frame) (chunks : List (List UInt8)),
        frames.flatMap Frame.events = eventsAfter log subscriber.cursor →
        chunks.flatten = streamBytes stringify frames →
        (subscriber.readEventConnection parse chunks).delivered = log := by
  refine ⟨fun frames n chunks hframes hchunks =>
    intact_iff (fun e he => hlog e (hframes e he)) hchunks, fun subscriber h => ?_⟩
  have hsub := h.subscribed hlog hids
  refine ⟨hsub.thrown, hsub.delivered, ?_, hsub.cursor, fun frames chunks hsent hchunks => ?_⟩
  · exact hids.sublist (hsub.delivered.sublist.map EventEnvelope.id)
  · have hrest := hsub.rest hids
    have hsend : ∀ e ∈ frames.flatMap Frame.events, Sendable parse stringify e := fun e he => by
      apply hlog
      rw [← hrest]
      exact List.mem_append_right _ (hsent ▸ he)
    rw [readEventConnection_delivered, read_whole hsend hchunks, hsent, hrest]

end Subscription

section Sent

/-- The JSON text of the envelope, in one line. -/
def stringifySent : Stringify := fun _ => wrappedHead ++ wrappedTail

def parseSent : EnvelopeParser := fun text =>
  if text = wrappedHead ++ wrappedTail then some wrappedEnvelope else none

def sentFrames : List Frame := [.connected, .event wrappedEnvelope]

theorem sendable_sent : Sendable parseSent stringifySent wrappedEnvelope where
  id_line := by decide +kernel
  json_line := by decide +kernel
  json_ne := by decide +kernel
  round := if_pos rfl
  cut := fun text _ hne => by
    refine ⟨if_neg hne, if_neg fun heq => ?_⟩
    have hplain : Utf8Decoder.REPLACEMENT ∉ wrappedHead ++ wrappedTail := by decide +kernel
    exact hplain (by rw [← heq]; simp)

theorem streamEvents_cut_sent :
    Intact stringifySent sentFrames 60
      (readEventStream parseSent [(streamBytes stringifySent sentFrames).take 60]) := by
  have hlog : ∀ e ∈ [wrappedEnvelope], Sendable parseSent stringifySent e := by
    intro e he
    rw [List.mem_singleton.mp he]
    exact sendable_sent
  refine ((streamEvents_cut hlog (by simp)).1 sentFrames 60 _ ?_ (by simp)).mpr ?_
  · intro e he
    simpa [sentFrames, Frame.events] using he
  · rintro ⟨before, envelope, after, heq, hhead, _⟩
    have hsize : size (streamText stringifySent [.connected] ++ eventHead wrappedEnvelope) = 85 := by
      decide +kernel
    rcases before with _ | ⟨frame, before⟩
    · cases heq
    · simp only [sentFrames, List.cons_append, List.cons.injEq] at heq
      obtain ⟨rfl, heq⟩ := heq
      rcases before with _ | ⟨frame, before⟩
      · simp only [List.nil_append, List.cons.injEq, Frame.event.injEq] at heq
        obtain ⟨rfl, _⟩ := heq
        omega
      · simp at heq

/-- A body that ends in the data of an event makes the client throw. -/
theorem readEventStream_cut_data :
    (readEventStream parseSent [(streamBytes stringifySent sentFrames).take 120]).failed = true ∧
      ¬ Intact stringifySent sentFrames 120
        (readEventStream parseSent [(streamBytes stringifySent sentFrames).take 120]) := by
  have hfailed :
      (readEventStream parseSent [(streamBytes stringifySent sentFrames).take 120]).failed =
        true := by
    decide +kernel
  refine ⟨hfailed, fun h => ?_⟩
  rw [h.1] at hfailed
  cases hfailed

end Sent
end Linea.EventStream
