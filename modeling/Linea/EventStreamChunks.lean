import Linea.EventStream

/-! How the chunks of a stream show in what is read. Line ends are normalised chunk by chunk, so
that a cut between CR and LF makes two line ends of one. -/
namespace Linea.EventStream

/-- The lines of a text, each with whether it ends in CR LF. -/
def rawLines : List Char → List (List Char × Bool)
  | [] => [([], false)]
  | '\r' :: '\n' :: rest => ([], true) :: rawLines rest
  | ch :: rest =>
    if ch = '\n' ∨ ch = '\r' then ([], false) :: rawLines rest
    else (rawLines rest).modifyHead fun line => (ch :: line.1, line.2)

/-- Lines with an empty line put after some of those that end in CR LF. -/
inductive Spaced : List (List Char × Bool) → List (List Char) → Prop
  | nil : Spaced [] []
  | keep {line : List Char} {crlf : Bool} {raw : List (List Char × Bool)}
    {lines : List (List Char)} (h : Spaced raw lines) : Spaced ((line, crlf) :: raw) (line :: lines)
  | blank {line : List Char} {raw : List (List Char × Bool)} {lines : List (List Char)}
    (h : Spaced raw lines) : Spaced ((line, true) :: raw) (line :: [] :: lines)

section Pieces
variable {xs : List Char} {ch : Char} {raw : List (List Char × Bool)} {lines : List (List Char)}
  {pieces : List (List Char)} {d : Utf8Decoder}

theorem rawLines_ne (xs : List Char) : rawLines xs ≠ [] := by
  fun_induction rawLines xs with
  | case1 => simp
  | case2 => simp
  | case3 => simp
  | case4 ch rest _ _ ih =>
    obtain ⟨line, raw, hraw⟩ := List.exists_cons_of_ne_nil ih
    simp [hraw]

theorem rawLines_end (h : ¬ (ch = '\r' ∧ xs.head? = some '\n')) (hch : ch = '\n' ∨ ch = '\r') :
    rawLines (ch :: xs) = ([], false) :: rawLines xs := by
  rw [rawLines, if_pos hch]
  intro rest heq hxs
  exact h ⟨heq, by simp [hxs]⟩

theorem rawLines_cons (hch : ¬ (ch = '\n' ∨ ch = '\r')) :
    rawLines (ch :: xs) = (rawLines xs).modifyHead fun line => (ch :: line.1, line.2) := by
  rw [rawLines, if_neg hch]
  intro rest heq hxs
  exact hch (.inr heq)

theorem Spaced.cons (h : Spaced raw lines) : Spaced
    (raw.modifyHead fun line => (ch :: line.1, line.2)) (lines.modifyHead (ch :: ·)) := by
  cases h with
  | nil => exact .nil
  | keep h => exact .keep h
  | blank h => exact .blank h

/-- The lines as they are. -/
theorem spaced_self (raw : List (List Char × Bool)) : Spaced raw (raw.map Prod.fst) := by
  induction raw with
  | nil => exact .nil
  | cons line raw ih => exact .keep ih

theorem splitLines_normalize (xs : List Char) :
    splitLines (normalize xs) = (rawLines xs).map Prod.fst := by
  fun_induction rawLines xs with
  | case1 => rfl
  | case2 rest ih =>
    rw [normalize_crlf, splitLines_newline, ih]
    rfl
  | case3 ch rest hnot hch ih =>
    have hhead : ¬ (ch = '\r' ∧ rest.head? = some '\n') := by
      rintro ⟨rfl, hnext⟩
      obtain ⟨rest, rfl⟩ := List.head?_eq_some_iff.mp hnext
      exact hnot rest rfl rfl
    have hend : (if ch = '\r' then '\n' else ch) = '\n' := by
      rcases hch with rfl | rfl <;> rfl
    rw [normalize_cons hhead, hend, splitLines_newline, ih]
    rfl
  | case4 ch rest hnot hch ih =>
    obtain ⟨hnewline, hreturn⟩ := not_or.mp hch
    rw [normalize_cons fun h => hreturn h.1, if_neg hreturn, splitLines_cons hnewline hreturn, ih]
    obtain ⟨line, raw, hraw⟩ := List.exists_cons_of_ne_nil (rawLines_ne rest)
    simp [hraw]

/-- A piece that is put before lines which other pieces gave. -/
theorem spaced_piece (piece text seen : List Char)
    (h : Spaced (rawLines text) (splitLines seen)) :
    Spaced (rawLines (piece ++ text)) (splitLines (normalize piece ++ seen)) := by
  fun_induction replaceCrLf piece with
  | case1 => exact h
  | case2 rest ih =>
    rw [normalize_crlf, List.cons_append, List.cons_append, List.cons_append, splitLines_newline,
      rawLines]
    exact .keep ih
  | case3 ch rest hnot ih =>
    have hhead : ¬ (ch = '\r' ∧ rest.head? = some '\n') := by
      rintro ⟨rfl, hnext⟩
      obtain ⟨rest, rfl⟩ := List.head?_eq_some_iff.mp hnext
      exact hnot rest rfl rfl
    rw [normalize_cons hhead, List.cons_append, List.cons_append]
    by_cases hch : ch = '\n' ∨ ch = '\r'
    · have hend : (if ch = '\r' then '\n' else ch) = '\n' := by
        rcases hch with rfl | rfl <;> rfl
      rw [hend, splitLines_newline]
      by_cases hcut : ch = '\r' ∧ (rest ++ text).head? = some '\n'
      · -- the piece ends in CR and the text goes on with LF
        obtain ⟨rfl, hnext⟩ := hcut
        obtain ⟨later, hlater⟩ := List.head?_eq_some_iff.mp hnext
        rw [hlater] at ih ⊢
        rw [rawLines_end (by simp) (.inl rfl)] at ih
        rw [rawLines]
        generalize splitLines (normalize rest ++ seen) = lines at ih ⊢
        cases ih with
        | keep h => exact .blank h
      · rw [rawLines_end hcut hch]
        exact .keep ih
    · obtain ⟨hnewline, hreturn⟩ := not_or.mp hch
      rw [if_neg hreturn, splitLines_cons hnewline hreturn, rawLines_cons hch]
      exact ih.cons

theorem spaced_pieces (pieces : List (List Char)) :
    Spaced (rawLines pieces.flatten) (splitLines (pieces.flatMap normalize)) := by
  induction pieces with
  | nil => exact .keep .nil
  | cons piece pieces ih =>
    rw [List.flatten_cons, List.flatMap_cons]
    exact spaced_piece _ _ _ ih

/-- The text that each chunk gives, and what the end of the stream adds. -/
def texts (d : Utf8Decoder) : List (List UInt8) → List (List Char)
  | [] => [d.flush]
  | chunk :: chunks => (d.decode chunk).2 :: texts (d.decode chunk).1 chunks

theorem normalize_flush (d : Utf8Decoder) : normalize d.flush = d.flush := by
  rcases d.flush_eq with h | h <;> rw [h]
  · rfl
  · decide

theorem seen_eq (d : Utf8Decoder) (chunks : List (List UInt8)) :
    seen d chunks = (texts d chunks).flatMap normalize := by
  induction chunks generalizing d with
  | nil => simp [seen, texts, normalize_flush]
  | cons chunk chunks ih => simp [seen, texts, ih]

theorem texts_flatten (d : Utf8Decoder) (chunks : List (List UInt8)) :
    (texts d chunks).flatten = d.decoded chunks.flatten := by
  induction chunks generalizing d with
  | nil => simp [texts, Utf8Decoder.decoded]
  | cons chunk chunks ih =>
    rw [texts, List.flatten_cons, ih, List.flatten_cons, d.decoded_append]

/-- Pieces that are cut after carriage returns. -/
def CutAtReturns : List (List Char) → Prop
  | [] => False
  | [_] => True
  | piece :: next :: pieces => (∃ xs, piece = xs ++ ['\r']) ∧ CutAtReturns (next :: pieces)

theorem CutAtReturns.cons {piece : List Char} (h : CutAtReturns (piece :: pieces)) :
    CutAtReturns ((ch :: piece) :: pieces) := by
  cases pieces with
  | nil => trivial
  | cons next pieces =>
    obtain ⟨⟨xs, rfl⟩, hrest⟩ := h
    exact ⟨⟨ch :: xs, rfl⟩, hrest⟩

theorem CutAtReturns.head {pieces : List (List Char)} (h : CutAtReturns pieces) :
    ∃ piece rest, pieces = piece :: rest := by
  cases pieces with
  | nil => exact h.elim
  | cons piece rest => exact ⟨piece, rest, rfl⟩

/-- The first piece begins as the text does. -/
theorem head_piece {piece : List Char} {rest : List (List Char)}
    (hflat : (piece :: rest).flatten = xs) (h : piece.head? = some ch) : xs.head? = some ch := by
  obtain ⟨later, rfl⟩ := List.head?_eq_some_iff.mp h
  rw [← hflat]
  rfl

/-- Every way of putting empty lines after CR LF comes from a way of cutting the text. -/
theorem exists_pieces (xs : List Char) (h : Spaced (rawLines xs) lines) :
    ∃ pieces, CutAtReturns pieces ∧ pieces.flatten = xs ∧
      splitLines (pieces.flatMap normalize) = lines := by
  fun_induction rawLines xs generalizing lines with
  | case1 =>
    cases h with
    | keep h =>
      cases h
      exact ⟨[[]], trivial, rfl, rfl⟩
  | case2 rest ih =>
    cases h with
    | keep h =>
      obtain ⟨pieces, hcut, hflat, hlines⟩ := ih h
      obtain ⟨piece, pieces, rfl⟩ := hcut.head
      refine ⟨('\r' :: '\n' :: piece) :: pieces, hcut.cons.cons, by simp [← hflat], ?_⟩
      rw [List.flatMap_cons, normalize_crlf, List.cons_append, splitLines_newline,
        ← List.flatMap_cons, hlines]
    | blank h =>
      obtain ⟨pieces, hcut, hflat, hlines⟩ := ih h
      obtain ⟨piece, pieces, rfl⟩ := hcut.head
      refine ⟨['\r'] :: ('\n' :: piece) :: pieces, ⟨⟨[], rfl⟩, hcut.cons⟩, by simp [← hflat], ?_⟩
      rw [List.flatMap_cons, normalize_cons (by simp), if_pos rfl, normalize_nil, List.singleton_append,
        splitLines_newline, List.flatMap_cons, normalize_cons (by simp), if_neg (by decide),
        List.cons_append, splitLines_newline, ← List.flatMap_cons, hlines]
  | case3 ch rest hnot hch ih =>
    cases h with
    | keep h =>
      obtain ⟨pieces, hcut, hflat, hlines⟩ := ih h
      obtain ⟨piece, pieces, rfl⟩ := hcut.head
      refine ⟨(ch :: piece) :: pieces, hcut.cons, by simp [← hflat], ?_⟩
      have hhead : ¬ (ch = '\r' ∧ piece.head? = some '\n') := by
        rintro ⟨rfl, hnext⟩
        obtain ⟨later, rfl⟩ := List.head?_eq_some_iff.mp (head_piece hflat hnext)
        exact hnot later rfl rfl
      have hend : (if ch = '\r' then '\n' else ch) = '\n' := by
        rcases hch with rfl | rfl <;> rfl
      rw [List.flatMap_cons, normalize_cons hhead, hend, List.cons_append, splitLines_newline,
        ← List.flatMap_cons, hlines]
  | case4 ch rest hnot hch ih =>
    obtain ⟨line, raw, hraw⟩ := List.exists_cons_of_ne_nil (rawLines_ne rest)
    obtain ⟨hnewline, hreturn⟩ := not_or.mp hch
    have hspaced : ∃ lines', lines = lines'.modifyHead (ch :: ·) ∧ Spaced (rawLines rest) lines' := by
      obtain ⟨line, crlf⟩ := line
      rw [hraw] at h ⊢
      cases h with
      | keep h => exact ⟨_, rfl, .keep h⟩
      | blank h => exact ⟨_, rfl, .blank h⟩
    obtain ⟨lines', rfl, hspaced⟩ := hspaced
    obtain ⟨pieces, hcut, hflat, hlines⟩ := ih hspaced
    obtain ⟨piece, pieces, rfl⟩ := hcut.head
    refine ⟨(ch :: piece) :: pieces, hcut.cons, by simp [← hflat], ?_⟩
    rw [List.flatMap_cons, normalize_cons fun h => hreturn h.1, if_neg hreturn, List.cons_append,
      splitLines_cons hnewline hreturn, ← List.flatMap_cons, hlines]

/-- Cutting anywhere but between CR and LF does not show in the normalised text. -/
theorem normalize_append_uncut {ys : List Char}
    (h : ¬ (xs.getLast? = some '\r' ∧ ys.head? = some '\n')) :
    normalize (xs ++ ys) = normalize xs ++ normalize ys := by
  fun_induction replaceCrLf xs with
  | case1 => rfl
  | case2 rest ih =>
    rw [List.cons_append, List.cons_append, normalize_crlf, normalize_crlf, List.cons_append, ih]
    rintro ⟨hlast, hnext⟩
    refine h ⟨?_, hnext⟩
    rw [List.getLast?_cons, List.getLast?_cons, hlast]
    rfl
  | case3 ch rest hnot ih =>
    have hhead : ¬ (ch = '\r' ∧ rest.head? = some '\n') := by
      rintro ⟨rfl, hnext⟩
      obtain ⟨rest, rfl⟩ := List.head?_eq_some_iff.mp hnext
      exact hnot rest rfl rfl
    have hboth : ¬ (ch = '\r' ∧ (rest ++ ys).head? = some '\n') := by
      rintro ⟨rfl, hnext⟩
      cases rest with
      | nil => exact h ⟨rfl, hnext⟩
      | cons next rest => exact hhead ⟨rfl, hnext⟩
    rw [List.cons_append, normalize_cons hboth, normalize_cons hhead, List.cons_append, ih]
    rintro ⟨hlast, hnext⟩
    refine h ⟨?_, hnext⟩
    rw [List.getLast?_cons, hlast]
    rfl

theorem normalize_append_flush (xs : List Char) :
    normalize (xs ++ d.flush) = normalize xs ++ d.flush := by
  rw [normalize_append_uncut, normalize_flush]
  rintro ⟨_, hnext⟩
  rcases d.flush_eq with h | h <;> rw [h] at hnext <;> revert hnext <;> decide

theorem carriage_notMem_flush : '\r' ∉ d.flush := by
  rcases d.flush_eq with h | h <;> rw [h] <;> decide

/-- Pieces of the text that are cut after carriage returns come from chunks of the bytes. -/
theorem exists_chunks {bytes : List UInt8} (hcut : CutAtReturns pieces)
    (hflat : pieces.flatten = d.decoded bytes) :
    ∃ chunks, chunks.flatten = bytes ∧
      (texts d chunks).flatMap normalize = pieces.flatMap normalize := by
  induction pieces generalizing d bytes with
  | nil => exact hcut.elim
  | cons piece pieces ih =>
    cases pieces with
    | nil =>
      refine ⟨[bytes], by simp, ?_⟩
      simp only [List.flatten_cons, List.flatten_nil, List.append_nil] at hflat
      simp [texts, hflat, Utf8Decoder.decoded, normalize_append_flush, normalize_flush]
    | cons next pieces =>
      obtain ⟨⟨xs, rfl⟩, hrest⟩ := hcut
      rw [List.flatten_cons, List.append_assoc, Utf8Decoder.decoded, List.singleton_append] at hflat
      rcases List.append_eq_append_iff.mp hflat with ⟨zs, htext, hlater⟩ | ⟨zs, _, hflush⟩
      · cases zs with
        | nil =>
          rw [List.nil_append] at hlater
          have hin : '\r' ∈ (d.decode bytes).1.flush := by rw [← hlater]; simp
          exact absurd hin carriage_notMem_flush
        | cons z zs =>
          simp only [List.cons_append, List.cons.injEq] at hlater
          obtain ⟨rfl, hlater⟩ := hlater
          obtain ⟨front, back, rfl, hfront, hback⟩ := Utf8Decoder.decode_cut htext
          have hdecoded : (next :: pieces).flatten = (d.decode front).1.decoded back := by
            rw [hlater, Utf8Decoder.decoded, hback, d.decode_append]
          obtain ⟨chunks, rfl, hchunks⟩ := ih hrest hdecoded
          refine ⟨front :: chunks, rfl, ?_⟩
          rw [texts, List.flatMap_cons, hchunks, hfront, ← List.flatMap_cons]
      · have hin : '\r' ∈ (d.decode bytes).1.flush := by rw [hflush]; simp
        exact absurd hin carriage_notMem_flush

end Pieces

section Reading
variable {parse : EnvelopeParser}

theorem carriage_notMem_seen (d : Utf8Decoder) (chunks : List (List UInt8)) :
    '\r' ∉ seen d chunks := by
  rw [seen_eq, List.mem_flatMap]
  rintro ⟨piece, _, hin⟩
  exact carriage_notMem_normalize _ hin

theorem readEventStream_lines (chunks : List (List UInt8)) :
    readEventStream parse chunks =
      readLines parse [] (splitLines ((texts (.fresh false) chunks).flatMap normalize)) := by
  rw [readEventStream_eq, readText_eq (carriage_notMem_seen _ _), seen_eq]

/-- A stream that arrives whole is read line by line. -/
theorem readEventStream_whole (bytes : List UInt8) :
    readEventStream parse [bytes] =
      readLines parse [] ((rawLines ((Utf8Decoder.fresh false).decoded bytes)).map Prod.fst) := by
  rw [readEventStream_lines, ← splitLines_normalize]
  simp [texts, Utf8Decoder.decoded, normalize_append_flush, normalize_flush]

/-- Chunks that do not cut a CR LF in two do not show. -/
theorem readEventStream_uncut {chunks : List (List UInt8)}
    (h : ∀ front piece back, texts (.fresh false) chunks = front ++ piece :: back →
      ¬ (piece.getLast? = some '\r' ∧ back.flatten.head? = some '\n')) :
    readEventStream parse chunks = readEventStream parse [chunks.flatten] := by
  have hsame : ∀ pieces : List (List Char), (∀ front piece back, pieces = front ++ piece :: back →
      ¬ (piece.getLast? = some '\r' ∧ back.flatten.head? = some '\n')) →
      pieces.flatMap normalize = normalize pieces.flatten := by
    intro pieces hpieces
    induction pieces with
    | nil => rfl
    | cons piece pieces ih =>
      rw [List.flatMap_cons, List.flatten_cons,
        normalize_append_uncut (hpieces [] piece pieces rfl), ih]
      intro front piece' back heq
      exact hpieces (piece :: front) piece' back (by rw [heq]; rfl)
  rw [readEventStream_lines, hsame _ h, texts_flatten, splitLines_normalize,
    ← readEventStream_whole]

/-- The chunks of a stream never show exactly when no line of it that ends in CR LF could be
followed by an empty line with another result. -/
theorem readEventStream_chunks (parse : EnvelopeParser) (bytes : List UInt8) :
    (∀ chunks, chunks.flatten = bytes →
      readEventStream parse chunks = readEventStream parse [bytes]) ↔
    ∀ lines, Spaced (rawLines ((Utf8Decoder.fresh false).decoded bytes)) lines →
      readLines parse [] lines =
        readLines parse [] ((rawLines ((Utf8Decoder.fresh false).decoded bytes)).map Prod.fst) := by
  constructor
  · intro h lines hlines
    obtain ⟨pieces, hcut, hflat, rfl⟩ := exists_pieces _ hlines
    obtain ⟨chunks, hbytes, hseen⟩ := exists_chunks hcut hflat
    rw [← hseen, ← readEventStream_lines, h chunks hbytes, readEventStream_whole]
  · rintro h chunks rfl
    rw [readEventStream_lines, readEventStream_whole]
    apply h
    have hspaced := spaced_pieces (texts (.fresh false) chunks)
    rwa [texts_flatten] at hspaced

/-- An envelope whose JSON text is sent in two `data` lines. -/
def wrappedEnvelope : EventEnvelope :=
  { id := "6b1d7a52-1f0e-4c1b-9a57-0d8f6a2b9c11"
    type := .executionCompleted
    createdAt := "2025-06-01T12:00:00.000Z"
    environmentId := "0f2c1a34-7a0b-4e35-8d2c-5b1f0a9d7e22"
    data := [] }

def wrappedHead : List Char :=
  "\x7b\"id\":\"6b1d7a52-1f0e-4c1b-9a57-0d8f6a2b9c11\",\"type\":\"execution.completed\",".toList

def wrappedTail : List Char :=
  "\"version\":1,\"createdAt\":\"2025-06-01T12:00:00.000Z\",\"environmentId\":\"0f2c1a34-7a0b-4e35-8d2c-5b1f0a9d7e22\",\"data\":\x7b\x7d\x7d".toList

/-- The lines join to the envelope's text; neither line is JSON. -/
def parseWrapped : EnvelopeParser := fun text =>
  if text = wrappedHead ++ '\n' :: wrappedTail then some wrappedEnvelope else none

def wrappedChunks : List (List UInt8) :=
  [("data: ".toList ++ wrappedHead ++ ['\r']).map fun ch => UInt8.ofNat ch.toNat,
    ('\n' :: "data: ".toList ++ wrappedTail ++ "\r\n\r\n".toList).map fun ch =>
      UInt8.ofNat ch.toNat]

theorem readEventStream_cut_crlf :
    (readEventStream parseWrapped wrappedChunks).failed = true ∧
      (readEventStream parseWrapped [wrappedChunks.flatten]).failed = false ∧
      ¬ ∀ chunks, chunks.flatten = wrappedChunks.flatten →
        readEventStream parseWrapped chunks = readEventStream parseWrapped [wrappedChunks.flatten] := by
  have hcut : (readEventStream parseWrapped wrappedChunks).failed = true := by decide +kernel
  have hwhole : (readEventStream parseWrapped [wrappedChunks.flatten]).failed = false := by
    decide +kernel
  refine ⟨hcut, hwhole, fun h => ?_⟩
  rw [h wrappedChunks rfl, hwhole] at hcut
  cases hcut

end Reading
end Linea.EventStream
