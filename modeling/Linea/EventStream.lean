import Linea.Utf8
import Linea.Graph

/-! The SDK's reader of a server-sent event stream (`event-stream.ts`): what it makes of a body that
arrives in chunks and ends. -/
namespace Linea.EventStream

inductive EventType
  | executionCompleted
  | executionFailed
  | approvalRequestCreated
  | approvalRequestDecided
  | approvalRequestCancelled
  | actionIntentExecuted
  | actionIntentFailed
  | connectionRevoked
  deriving DecidableEq, Repr

structure EventEnvelope where
  id : String
  type : EventType
  createdAt : String
  environmentId : String
  data : List (String × Value)

/-- `eventEnvelopeSchema.parse(JSON.parse(text))`, `none` when one of them throws. -/
abbrev EnvelopeParser := List Char → Option EventEnvelope

/-- The events that were yielded, and whether a `LineaUserProtocolError` ended the reading. -/
structure Reading where
  events : List EventEnvelope
  failed : Bool

namespace Reading

def nothing : Reading := ⟨[], false⟩

/-- What is read after an error is not read. -/
def andThen (first second : Reading) : Reading :=
  if first.failed then first else ⟨first.events ++ second.events, second.failed⟩

end Reading

section Blocks

structure EventBlock where
  id : Option (List Char)
  data : List (List Char)

def fieldOf (line : List Char) : List Char := line.takeWhile (· ≠ ':')

/-- What follows the separator, less one space. -/
def valueOf (line : List Char) : List Char :=
  match line.dropWhile (· ≠ ':') with
  | ':' :: ' ' :: value => value
  | ':' :: value => value
  | _ => []

def addEventLine (block : EventBlock) (line : List Char) : EventBlock :=
  if line.head? = some ':' then block
  else if fieldOf line = ['i', 'd'] then { block with id := some (valueOf line) }
  else if fieldOf line = ['d', 'a', 't', 'a'] then { block with data := block.data ++ [valueOf line] }
  else block

/-- `split(/\r?\n/)`. -/
def splitLines : List Char → List (List Char)
  | [] => [[]]
  | '\r' :: '\n' :: rest => [] :: splitLines rest
  | '\n' :: rest => [] :: splitLines rest
  | ch :: rest => match splitLines rest with
    | [] => [[ch]]
    | line :: lines => (ch :: line) :: lines

def parseLines (parse : EnvelopeParser) (lines : List (List Char)) : Reading :=
  let block := lines.foldl addEventLine ⟨none, []⟩
  if block.data = [] then .nothing
  else match parse (['\n'].intercalate block.data) with
    | none => ⟨[], true⟩
    | some event =>
      if block.id ≠ none ∧ block.id ≠ some event.id.toList then ⟨[], true⟩ else ⟨[event], false⟩

def parseBlock (parse : EnvelopeParser) (block : List Char) : Reading :=
  parseLines parse (splitLines block)

end Blocks

section Reader

/-- `replaceAll("\r\n", "\n")`. -/
def replaceCrLf : List Char → List Char
  | [] => []
  | '\r' :: '\n' :: rest => '\n' :: replaceCrLf rest
  | ch :: rest => ch :: replaceCrLf rest

/-- `replaceAll("\r", "\n")`. -/
def replaceCr (text : List Char) : List Char := text.map fun ch => if ch = '\r' then '\n' else ch

def normalize (text : List Char) : List Char := replaceCr (replaceCrLf text)

/-- Parses the blocks that an empty line ends, from the first on, and gives back what is left;
`block` is what has been passed of the current one. -/
def drain (parse : EnvelopeParser) (block : List Char) : List Char → Reading × List Char
  | '\n' :: '\n' :: rest =>
    let (later, left) := drain parse [] rest
    ((parseBlock parse block).andThen later, left)
  | ch :: rest => drain parse (block ++ [ch]) rest
  | [] => (.nothing, block)

/-- The reader between two chunks. -/
def readChunks (parse : EnvelopeParser) (decoder : Utf8Decoder) (buffer : List Char) :
    List (List UInt8) → Reading
  | [] => parseBlock parse (buffer ++ decoder.flush)
  | chunk :: chunks =>
    let (decoder, text) := decoder.decode chunk
    let (events, buffer) := drain parse [] (normalize (buffer ++ text))
    events.andThen (readChunks parse decoder buffer chunks)

def readEventStream (parse : EnvelopeParser) (chunks : List (List UInt8)) : Reading :=
  readChunks parse (.fresh false) [] chunks

end Reader

section Draining
variable {parse : EnvelopeParser} {xs ys block text : List Char} {ch : Char}

@[simp] theorem nothing_andThen (r : Reading) : Reading.nothing.andThen r = r := rfl

@[simp] theorem andThen_nothing (r : Reading) : r.andThen .nothing = r := by
  obtain ⟨events, failed⟩ := r
  cases failed <;> simp [Reading.andThen, Reading.nothing]

theorem andThen_assoc (r₁ r₂ r₃ : Reading) :
    (r₁.andThen r₂).andThen r₃ = r₁.andThen (r₂.andThen r₃) := by
  obtain ⟨e₁, f₁⟩ := r₁
  obtain ⟨e₂, f₂⟩ := r₂
  cases f₁ <;> cases f₂ <;> simp [Reading.andThen]

/-- A text without an empty line between two lines. -/
def Unbroken (text : List Char) : Prop := ¬ ['\n', '\n'] <:+: text

theorem Unbroken.of_append (h : Unbroken (xs ++ ys)) : Unbroken xs :=
  fun hin => h (hin.trans ⟨[], ys, by simp⟩)

theorem unbroken_singleton (ch : Char) : Unbroken [ch] := by
  intro h
  have := h.length_le
  simp at this

/-- Another character breaks a text only as a second line end. -/
theorem Unbroken.snoc (h : Unbroken (xs ++ [ch])) {ch' : Char} (hne : ¬ (ch = '\n' ∧ ch' = '\n')) :
    Unbroken (xs ++ [ch] ++ [ch']) := by
  rintro ⟨front, back, heq⟩
  rcases List.eq_nil_or_concat back with rfl | ⟨back, last, rfl⟩
  · rw [List.append_nil, List.append_assoc] at heq
    have := List.append_inj_right' heq rfl
    simp only [List.cons_append, List.nil_append, List.cons.injEq, and_true] at this
    exact hne ⟨this.1.symm, this.2.symm⟩
  · rw [List.concat_eq_append, ← List.append_assoc] at heq
    exact h ⟨front, back, List.append_inj_left' heq rfl⟩

theorem drain_cons (h : ¬ (ch = '\n' ∧ text.head? = some '\n')) :
    drain parse block (ch :: text) = drain parse (block ++ [ch]) text := by
  cases text with
  | nil => rw [drain]; simp
  | cons next rest =>
    rw [drain]
    rintro rest rfl heq
    simp only [List.cons.injEq] at heq
    exact h ⟨rfl, by simp [heq.1]⟩

/-- The reader passes over what holds no empty line. -/
theorem drain_skip (h : Unbroken (xs ++ text.take 1)) :
    drain parse block (xs ++ text) = drain parse (block ++ xs) text := by
  induction xs generalizing block with
  | nil => simp
  | cons ch xs ih =>
    have hhead : ¬ (ch = '\n' ∧ (xs ++ text).head? = some '\n') := by
      rintro ⟨rfl, hnext⟩
      apply h
      cases xs with
      | nil =>
        cases text with
        | nil => cases hnext
        | cons next rest =>
          simp only [List.nil_append, List.head?_cons, Option.some.injEq] at hnext
          exact ⟨[], [], by simp [hnext]⟩
      | cons next rest =>
        simp only [List.cons_append, List.head?_cons, Option.some.injEq] at hnext
        exact ⟨[], rest ++ text.take 1, by simp [hnext]⟩
    rw [List.cons_append, drain_cons hhead, ih]
    · simp
    · exact fun hin => h (hin.trans (List.suffix_cons ch _).isInfix)

theorem unbroken_take (xs : List Char) : Unbroken ([] ++ xs.take 1) := by
  cases xs with
  | nil => exact fun hin => by simpa using hin.length_le
  | cons ch rest => simpa using unbroken_singleton ch

theorem head_of_not (hnot : ∀ rest, ch = '\n' → xs = '\n' :: rest → False) :
    ¬ (ch = '\n' ∧ xs.head? = some '\n') := by
  rintro ⟨rfl, hnext⟩
  cases xs with
  | nil => cases hnext
  | cons next rest =>
    simp only [List.head?_cons, Option.some.injEq] at hnext
    exact hnot rest rfl (by rw [hnext])

theorem Unbroken.next (h : Unbroken (block ++ (ch :: xs).take 1))
    (hhead : ¬ (ch = '\n' ∧ xs.head? = some '\n')) : Unbroken (block ++ [ch] ++ xs.take 1) := by
  rw [List.take_succ_cons, List.take_zero] at h
  cases xs with
  | nil => simpa using h
  | cons next rest =>
    rw [List.take_succ_cons, List.take_zero]
    exact h.snoc fun hboth => hhead ⟨hboth.1, by simp [hboth.2]⟩

/-- Reading on from what was left is reading the whole. -/
theorem drain_append_of (h : Unbroken (block ++ xs.take 1)) :
    drain parse [] (block ++ xs ++ ys) =
      ((drain parse block xs).1.andThen (drain parse [] ((drain parse block xs).2 ++ ys)).1,
        (drain parse [] ((drain parse block xs).2 ++ ys)).2) := by
  induction block, xs using drain.induct parse with
  | case1 block rest later left hrest ih =>
    have hblock : drain parse [] (block ++ '\n' :: '\n' :: rest ++ ys) =
        drain parse block ('\n' :: '\n' :: (rest ++ ys)) := by
      rw [List.append_assoc, drain_skip (by simpa using h)]
      simp
    rw [hblock, drain, drain]
    have := ih (unbroken_take rest)
    rw [List.nil_append] at this
    rw [this]
    simp [andThen_assoc]
  | case2 block ch rest hnot ih =>
    rw [drain_cons (head_of_not hnot)]
    have hsame : block ++ ch :: rest ++ ys = block ++ [ch] ++ rest ++ ys := by simp
    rw [hsame]
    exact ih (h.next (head_of_not hnot))
  | case3 block =>
    rw [drain]
    simp

theorem drain_append : drain parse [] (xs ++ ys) =
    ((drain parse [] xs).1.andThen (drain parse [] ((drain parse [] xs).2 ++ ys)).1,
      (drain parse [] ((drain parse [] xs).2 ++ ys)).2) := by
  simpa using drain_append_of (unbroken_take xs)

theorem drain_unbroken (h : Unbroken xs) : drain parse [] xs = (.nothing, xs) := by
  have hskip : drain parse [] (xs ++ []) = drain parse ([] ++ xs) [] :=
    drain_skip (by simpa using h)
  rw [List.append_nil, List.nil_append] at hskip
  rw [hskip, drain]

/-- What is left has no empty line. -/
theorem unbroken_left (h : Unbroken (block ++ xs.take 1)) : Unbroken (drain parse block xs).2 := by
  induction block, xs using drain.induct parse with
  | case1 block rest later left hrest ih =>
    rw [drain]
    exact ih (unbroken_take rest)
  | case2 block ch rest hnot ih =>
    rw [drain_cons (head_of_not hnot)]
    exact ih (h.next (head_of_not hnot))
  | case3 block => simpa [drain] using h

theorem mem_left (h : ch ∈ (drain parse block xs).2) : ch ∈ block ∨ ch ∈ xs := by
  induction block, xs using drain.induct parse with
  | case1 block rest later left hrest ih =>
    rw [drain] at h
    have := ih h
    simp at this ⊢
    tauto
  | case2 block ch' rest hnot ih =>
    rw [drain_cons (head_of_not hnot)] at h
    have := ih h
    simp at this ⊢
    tauto
  | case3 block => exact .inl h

end Draining

section Texts
variable {parse : EnvelopeParser} {xs ys buffer : List Char} {d : Utf8Decoder}

@[simp] theorem normalize_nil : normalize [] = [] := rfl

@[simp] theorem normalize_crlf : normalize ('\r' :: '\n' :: xs) = '\n' :: normalize xs := rfl

theorem normalize_cons {ch : Char} (h : ¬ (ch = '\r' ∧ xs.head? = some '\n')) :
    normalize (ch :: xs) = (if ch = '\r' then '\n' else ch) :: normalize xs := by
  cases xs with
  | nil => simp [normalize, replaceCr, replaceCrLf]
  | cons next rest =>
    rw [normalize, replaceCrLf]
    · rfl
    · rintro rest rfl heq
      simp only [List.cons.injEq] at heq
      exact h ⟨rfl, by simp [heq.1]⟩

theorem carriage_notMem_normalize (xs : List Char) : '\r' ∉ normalize xs := by
  simp only [normalize, replaceCr, List.mem_map, not_exists, not_and]
  intro ch _
  split
  · decide
  · assumption

theorem normalize_append (h : '\r' ∉ xs) : normalize (xs ++ ys) = xs ++ normalize ys := by
  induction xs with
  | nil => rfl
  | cons ch xs ih =>
    have hch : ch ≠ '\r' := fun heq => h (by simp [heq])
    rw [List.cons_append, normalize_cons fun hboth => hch hboth.1, if_neg hch,
      ih fun hin => h (by simp [hin]), List.cons_append]

/-- The text of the chunks as it reaches the parser. -/
def seen (d : Utf8Decoder) : List (List UInt8) → List Char
  | [] => d.flush
  | chunk :: chunks => normalize (d.decode chunk).2 ++ seen (d.decode chunk).1 chunks

/-- Reading a text that is there at once. -/
def readText (parse : EnvelopeParser) (text : List Char) : Reading :=
  (drain parse [] text).1.andThen (parseBlock parse (drain parse [] text).2)

theorem readText_unbroken (h : Unbroken xs) : readText parse xs = parseBlock parse xs := by
  rw [readText, drain_unbroken h, nothing_andThen]

theorem Unbroken.flush (h : Unbroken xs) : Unbroken (xs ++ d.flush) := by
  rcases d.flush_eq with hflush | hflush
  · simpa [hflush] using h
  · rw [hflush]
    rcases List.eq_nil_or_concat xs with rfl | ⟨xs, last, rfl⟩
    · exact unbroken_singleton _
    · rw [List.concat_eq_append] at h ⊢
      refine h.snoc ?_
      rintro ⟨_, hch⟩
      exact absurd hch (by decide)

theorem readChunks_eq {chunks : List (List UInt8)} (hreturn : '\r' ∉ buffer)
    (hbuffer : Unbroken buffer) :
    readChunks parse d buffer chunks = readText parse (buffer ++ seen d chunks) := by
  induction chunks generalizing d buffer with
  | nil => rw [readChunks, seen, readText_unbroken hbuffer.flush]
  | cons chunk chunks ih =>
    rw [readChunks, seen, ← List.append_assoc, readText, drain_append]
    simp only [normalize_append hreturn]
    rw [ih, readText, andThen_assoc]
    · intro hin
      rcases mem_left hin with hin | hin
      · cases hin
      · rw [List.mem_append] at hin
        exact hin.elim hreturn (carriage_notMem_normalize _)
    · exact unbroken_left (unbroken_take _)

theorem readEventStream_eq (chunks : List (List UInt8)) :
    readEventStream parse chunks = readText parse (seen (.fresh false) chunks) := by
  refine readChunks_eq (by simp) fun hin => ?_
  simpa using hin.length_le

end Texts

section Lines
variable {parse : EnvelopeParser} {xs ys : List Char} {ch : Char} {group lines : List (List Char)}

/-- The reading of lines: an empty line ends a block, and so does the end. -/
def readLines (parse : EnvelopeParser) (group : List (List Char)) : List (List Char) → Reading
  | [] => parseLines parse group
  | [] :: lines => (parseLines parse group).andThen (readLines parse [] lines)
  | line :: lines => readLines parse (group ++ [line]) lines

@[simp] theorem addEventLine_empty (block : EventBlock) : addEventLine block [] = block := by
  simp [addEventLine, fieldOf]

theorem parseLines_empty (group : List (List Char)) :
    parseLines parse (group ++ [[]]) = parseLines parse group := by
  simp [parseLines, List.foldl_append]

theorem parseLines_cons_empty (group : List (List Char)) :
    parseLines parse ([] :: group) = parseLines parse group := by
  simp [parseLines]

@[simp] theorem parseLines_nil : parseLines parse [] = .nothing := rfl

theorem readLines_cons {line : List Char} (h : line ≠ []) :
    readLines parse group (line :: lines) = readLines parse (group ++ [line]) lines := by
  rw [readLines]
  exact h

theorem readLines_append (ls : List (List Char)) :
    readLines parse group (ls ++ [] :: lines) =
      (readLines parse group ls).andThen (readLines parse [] lines) := by
  induction ls generalizing group with
  | nil => rfl
  | cons line ls ih =>
    rw [List.cons_append]
    by_cases hline : line = []
    · subst hline
      rw [readLines, readLines, ih, andThen_assoc]
    · rw [readLines_cons hline, readLines_cons hline, ih]

/-- Lines of which only the last may be empty are one block. -/
theorem readLines_block (h : ∀ line ∈ lines.dropLast, line ≠ []) :
    readLines parse group lines = parseLines parse (group ++ lines) := by
  induction lines generalizing group with
  | nil => simp [readLines]
  | cons line lines ih =>
    by_cases hline : line = []
    · subst hline
      cases lines with
      | nil => simp [readLines, parseLines_empty]
      | cons next lines => exact absurd rfl (h [] (by simp))
    · rw [readLines_cons hline, ih]
      · simp
      · intro other hother
        apply h
        cases lines with
        | nil => cases hother
        | cons next lines =>
          rw [List.dropLast_cons_cons]
          exact List.mem_cons_of_mem _ hother

theorem splitLines_ne (xs : List Char) : splitLines xs ≠ [] := by
  fun_cases splitLines xs <;> simp_all

theorem splitLines_newline : splitLines ('\n' :: xs) = [] :: splitLines xs := by
  rw [splitLines]

/-- The lines of `ch :: xs` when `ch` does not end one. -/
theorem splitLines_cons (hnewline : ch ≠ '\n') (hreturn : ch ≠ '\r') :
    splitLines (ch :: xs) = (splitLines xs).modifyHead (ch :: ·) := by
  rw [splitLines]
  · split
    · rename_i h
      exact absurd h (splitLines_ne xs)
    · rename_i line lines h
      rw [h]
      rfl
  · intro rest heq
    exact absurd heq hreturn
  · exact hnewline

theorem splitLines_append (h : '\r' ∉ xs) :
    splitLines (xs ++ '\n' :: ys) = splitLines xs ++ splitLines ys := by
  induction xs with
  | nil => rw [List.nil_append, splitLines_newline]; rfl
  | cons ch xs ih =>
    have hch : ch ≠ '\r' := fun heq => h (by simp [heq])
    have hxs : '\r' ∉ xs := fun hin => h (by simp [hin])
    rw [List.cons_append]
    by_cases hnewline : ch = '\n'
    · subst hnewline
      rw [splitLines_newline, splitLines_newline, ih hxs, List.cons_append]
    · rw [splitLines_cons hnewline hch, splitLines_cons hnewline hch, ih hxs]
      obtain ⟨line, lines, hlines⟩ := List.exists_cons_of_ne_nil (splitLines_ne xs)
      rw [hlines]
      rfl

theorem splitLines_first (h : '\r' ∉ xs) {rest : List (List Char)}
    (hlines : splitLines xs = [] :: rest) : xs = [] ∨ xs.head? = some '\n' := by
  cases xs with
  | nil => exact .inl rfl
  | cons ch xs =>
    have hch : ch ≠ '\r' := fun heq => h (by simp [heq])
    by_cases hnewline : ch = '\n'
    · exact .inr (by simp [hnewline])
    · rw [splitLines_cons hnewline hch] at hlines
      obtain ⟨line, lines, hxs⟩ := List.exists_cons_of_ne_nil (splitLines_ne xs)
      rw [hxs] at hlines
      cases hlines

/-- An empty line that is neither the first nor the last needs two line ends in a row. -/
theorem unbroken_lines (h : Unbroken xs) (hreturn : '\r' ∉ xs) :
    ∀ line ∈ (splitLines xs).tail.dropLast, line ≠ [] := by
  induction xs with
  | nil => simp [splitLines]
  | cons ch xs ih =>
    have hch : ch ≠ '\r' := fun heq => hreturn (by simp [heq])
    have hxs : '\r' ∉ xs := fun hin => hreturn (by simp [hin])
    have hrest := ih (fun hin => h (hin.trans (List.suffix_cons ch _).isInfix)) hxs
    obtain ⟨first, rest, hlines⟩ := List.exists_cons_of_ne_nil (splitLines_ne xs)
    rw [hlines, List.tail_cons] at hrest
    by_cases hnewline : ch = '\n'
    · subst hnewline
      rw [splitLines_newline, hlines, List.tail_cons]
      cases rest with
      | nil => simp
      | cons second rest =>
        intro line hline
        rw [List.dropLast_cons_cons, List.mem_cons] at hline
        rcases hline with rfl | hline
        · -- an empty line here would follow another line end at once
          rintro rfl
          rcases splitLines_first hxs hlines with rfl | hhead
          · cases hlines
          · obtain ⟨xs, rfl⟩ := List.head?_eq_some_iff.mp hhead
            exact h ⟨[], xs, by simp⟩
        · exact hrest line hline
    · rw [splitLines_cons hnewline hch, hlines]
      exact hrest

theorem readLines_unbroken (h : Unbroken xs) (hreturn : '\r' ∉ xs) :
    readLines parse [] (splitLines xs) = parseBlock parse xs := by
  have hinner := unbroken_lines h hreturn
  rw [parseBlock]
  obtain ⟨first, rest, hlines⟩ := List.exists_cons_of_ne_nil (splitLines_ne xs)
  rw [hlines, List.tail_cons] at hinner
  rw [hlines]
  by_cases hfirst : first = []
  · subst hfirst
    rw [readLines, parseLines_nil, nothing_andThen, readLines_block hinner, List.nil_append,
      parseLines_cons_empty]
  · rw [readLines_cons hfirst, readLines_block hinner]
    rfl

/-- What the reader makes of a text is what its lines come to. -/
theorem readText_eq_of (block : List Char) (h : Unbroken (block ++ xs.take 1))
    (hreturn : '\r' ∉ block ++ xs) :
    (drain parse block xs).1.andThen (parseBlock parse (drain parse block xs).2) =
      readLines parse [] (splitLines (block ++ xs)) := by
  induction block, xs using drain.induct parse with
  | case1 block rest later left hrest ih =>
    have hblock : '\r' ∉ block := fun hin => hreturn (by simp [hin])
    rw [drain, splitLines_append hblock, splitLines_newline, readLines_append,
      readLines_unbroken h.of_append hblock, andThen_assoc]
    congr 1
    refine ih (unbroken_take rest) fun hin => hreturn ?_
    simp only [List.nil_append] at hin
    simp [hin]
  | case2 block ch rest hnot ih =>
    rw [drain_cons (head_of_not hnot)]
    have hsame : block ++ ch :: rest = block ++ [ch] ++ rest := by simp
    rw [hsame] at hreturn ⊢
    exact ih (h.next (head_of_not hnot)) hreturn
  | case3 block =>
    rw [drain, nothing_andThen, List.append_nil, readLines_unbroken]
    · simpa using h
    · simpa using hreturn

theorem readText_eq (hreturn : '\r' ∉ xs) :
    readText parse xs = readLines parse [] (splitLines xs) :=
  readText_eq_of [] (unbroken_take xs) hreturn

end Lines
end Linea.EventStream
