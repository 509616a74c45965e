import Mathlib

/-! A UTF-8 decoder that is fed in pieces, as `TextDecoder` with `stream: true` is: malformed input
becomes U+FFFD, a byte order mark at the start is dropped. -/
namespace Linea

/-- The decoder between two bytes: how many continuation bytes are still to come, the bits so far,
the range of the next byte, and whether a character has come out. -/
structure Utf8Decoder where
  needed : ℕ
  codePoint : ℕ
  lower : ℕ
  upper : ℕ
  started : Bool
  deriving DecidableEq, Repr

namespace Utf8Decoder

def REPLACEMENT : Char := Char.ofNat 0xFFFD
def BYTE_ORDER_MARK : Char := Char.ofNat 0xFEFF

def fresh (started : Bool) : Utf8Decoder := ⟨0, 0, 0x80, 0xBF, started⟩

def emit (d : Utf8Decoder) (ch : Char) : Utf8Decoder × List Char :=
  (fresh true, if d.started = false ∧ ch = BYTE_ORDER_MARK then [] else [ch])

/-- The first byte of a character. -/
def lead (d : Utf8Decoder) (b : ℕ) : Utf8Decoder × List Char :=
  if b ≤ 0x7F then d.emit (Char.ofNat b)
  else if 0xC2 ≤ b ∧ b ≤ 0xDF then (⟨1, b - 0xC0, 0x80, 0xBF, d.started⟩, [])
  else if 0xE0 ≤ b ∧ b ≤ 0xEF then
    (⟨2, b - 0xE0, if b = 0xE0 then 0xA0 else 0x80, if b = 0xED then 0x9F else 0xBF, d.started⟩, [])
  else if 0xF0 ≤ b ∧ b ≤ 0xF4 then
    (⟨3, b - 0xF0, if b = 0xF0 then 0x90 else 0x80, if b = 0xF4 then 0x8F else 0xBF, d.started⟩, [])
  else d.emit REPLACEMENT

/-- A byte that cannot continue a character ends it, and is looked at again. -/
def step (d : Utf8Decoder) (byte : UInt8) : Utf8Decoder × List Char :=
  let b := byte.toNat
  if d.needed = 0 then d.lead b
  else if b < d.lower ∨ d.upper < b then
    let (d', out) := d.emit REPLACEMENT
    let (d'', out') := d'.lead b
    (d'', out ++ out')
  else
    let codePoint := d.codePoint * 64 + (b - 0x80)
    if d.needed = 1 then d.emit (Char.ofNat codePoint)
    else (⟨d.needed - 1, codePoint, 0x80, 0xBF, d.started⟩, [])

def decode (d : Utf8Decoder) : List UInt8 → Utf8Decoder × List Char
  | [] => (d, [])
  | byte :: bytes =>
    let (d', out) := d.step byte
    let (d'', out') := decode d' bytes
    (d'', out ++ out')

/-- The end of the input, which an unfinished character does not survive. -/
def flush (d : Utf8Decoder) : List Char :=
  if d.needed = 0 then [] else (d.emit REPLACEMENT).2

/-- The text of an input that ends. -/
def decoded (d : Utf8Decoder) (bytes : List UInt8) : List Char :=
  (d.decode bytes).2 ++ (d.decode bytes).1.flush

@[simp] theorem decode_nil (d : Utf8Decoder) : d.decode [] = (d, []) := rfl

theorem decode_cons (d : Utf8Decoder) (byte : UInt8) (bytes : List UInt8) :
    d.decode (byte :: bytes) = (((d.step byte).1.decode bytes).1,
      (d.step byte).2 ++ ((d.step byte).1.decode bytes).2) := rfl

/-- Cutting the input does not show. -/
theorem decode_append (d : Utf8Decoder) (xs ys : List UInt8) :
    d.decode (xs ++ ys) = (((d.decode xs).1.decode ys).1,
      (d.decode xs).2 ++ ((d.decode xs).1.decode ys).2) := by
  induction xs generalizing d with
  | nil => rfl
  | cons byte xs ih =>
    rw [List.cons_append, decode_cons, ih, decode_cons]
    simp

theorem decoded_append (d : Utf8Decoder) (xs ys : List UInt8) :
    d.decoded (xs ++ ys) = (d.decode xs).2 ++ (d.decode xs).1.decoded ys := by
  simp [decoded, decode_append]

theorem flush_eq (d : Utf8Decoder) : d.flush = [] ∨ d.flush = [REPLACEMENT] := by
  unfold flush
  split
  · exact .inl rfl
  · refine .inr (if_neg ?_)
    rintro ⟨_, h⟩
    exact absurd h (by decide)

section Cuts
variable {d d' : Utf8Decoder} {byte : UInt8} {out : List Char}

theorem emit_carriage {ch : Char} (h : '\r' ∈ (d.emit ch).2) : (d.emit ch).2 = ['\r'] := by
  simp only [emit] at h ⊢
  split at h
  · cases h
  · rename_i hkeep
    rw [if_neg hkeep]
    rw [List.mem_singleton] at h
    rw [h]

theorem lead_carriage {b : ℕ} (h : '\r' ∈ (d.lead b).2) : (d.lead b).2 = ['\r'] := by
  unfold lead at h ⊢
  split
  · rename_i hb
    rw [if_pos hb] at h
    exact emit_carriage h
  · rename_i hb
    rw [if_neg hb] at h
    split at h
    · cases h
    · split at h
      · cases h
      · split at h
        · cases h
        · rename_i h₁ h₂ h₃
          rw [if_neg h₁, if_neg h₂, if_neg h₃]
          exact emit_carriage h

/-- A carriage return is the last character that its byte gives. -/
theorem step_carriage {xs ys : List Char} (h : (d.step byte).2 = xs ++ '\r' :: ys) : ys = [] := by
  have hsingle : ∀ {l : List Char}, ('\r' ∈ l → l = ['\r']) → l = xs ++ '\r' :: ys → ys = [] := by
    intro l hl heq
    have := hl (by rw [heq]; simp)
    rw [this] at heq
    cases xs with
    | nil => simpa using heq.symm
    | cons x xs =>
      simp only [List.cons_append, List.cons.injEq] at heq
      simp at heq
  simp only [step] at h
  split at h
  · exact hsingle lead_carriage h
  · split at h
    · have hfirst : (d.emit REPLACEMENT).2 = [REPLACEMENT] := by
        refine if_neg ?_
        rintro ⟨_, h⟩
        exact absurd h (by decide)
      rw [hfirst] at h
      cases xs with
      | nil =>
        simp only [List.singleton_append, List.nil_append, List.cons.injEq] at h
        exact absurd h.1 (by decide)
      | cons x xs =>
        simp only [List.cons_append, List.nil_append, List.cons.injEq] at h
        obtain ⟨_, h⟩ := h
        have hl : '\r' ∈ ((d.emit REPLACEMENT).1.lead byte.toNat).2 := by rw [h]; simp
        rw [lead_carriage hl] at h
        cases xs with
        | nil => simpa using h.symm
        | cons y xs => simp at h
    · split at h
      · exact hsingle emit_carriage h
      · cases xs <;> cases h

/-- The bytes can be cut after each carriage return of the text. -/
theorem decode_cut {bytes : List UInt8} {xs ys : List Char}
    (h : (d.decode bytes).2 = xs ++ '\r' :: ys) :
    ∃ front back, bytes = front ++ back ∧ (d.decode front).2 = xs ++ ['\r'] ∧
      ((d.decode front).1.decode back).2 = ys := by
  induction bytes generalizing d xs with
  | nil => simp at h
  | cons byte bytes ih =>
    rw [decode_cons] at h
    rcases List.append_eq_append_iff.mp h with ⟨zs, hxs, hrest⟩ | ⟨zs, hout, hrest⟩
    · -- the carriage return comes out of a later byte
      obtain ⟨front, back, rfl, hfront, hback⟩ := ih hrest
      refine ⟨byte :: front, back, rfl, ?_, ?_⟩
      · rw [decode_cons, hfront, hxs, List.append_assoc]
      · rw [decode_cons]
        exact hback
    · cases zs with
      | nil =>
        simp only [List.append_nil, List.nil_append] at hout hrest
        have hrest' : ((d.step byte).1.decode bytes).2 = [] ++ '\r' :: ys := by
          simpa using hrest.symm
        obtain ⟨front, back, rfl, hfront, hback⟩ := ih hrest'
        refine ⟨byte :: front, back, rfl, ?_, ?_⟩
        · rw [decode_cons, hfront, hout]
          rfl
        · rw [decode_cons]
          exact hback
      | cons z zs =>
        simp only [List.cons_append, List.cons.injEq] at hrest
        obtain ⟨rfl, hrest⟩ := hrest
        have hlast := step_carriage hout
        subst hlast
        refine ⟨[byte], bytes, rfl, ?_, ?_⟩
        · rw [decode_cons, decode_nil, List.append_nil, hout]
        · rw [decode_cons, decode_nil]
          simpa using hrest.symm

end Cuts
section Encoding
variable {s : Bool} {c : Char}

/-- The bytes of a text. -/
def encode (text : List Char) : List UInt8 := text.flatMap String.utf8EncodeChar

theorem toNat_ofNat {x : ℕ} (h : x < 256) : (UInt8.ofNat x).toNat = x :=
  UInt8.toNat_ofNat_of_lt h

theorem emit_char (d : Utf8Decoder) (h : d.started = true ∨ c ≠ BYTE_ORDER_MARK) :
    d.emit c = (fresh true, [c]) := by
  rw [emit, if_neg]
  rintro ⟨hstarted, hmark⟩
  rcases h with h | h
  · rw [h] at hstarted
    cases hstarted
  · exact h hmark

/-- A byte that continues a character. -/
theorem step_more {d : Utf8Decoder} {x : ℕ} (hx : x < 256) (hneeded : 2 ≤ d.needed)
    (hlower : d.lower ≤ x) (hupper : x ≤ d.upper) :
    d.step (UInt8.ofNat x) =
      (⟨d.needed - 1, d.codePoint * 64 + (x - 0x80), 0x80, 0xBF, d.started⟩, []) := by
  simp only [step, toNat_ofNat hx]
  rw [if_neg (by omega), if_neg (by omega), if_neg (by omega)]

/-- The last byte of a character. -/
theorem step_last {d : Utf8Decoder} {x : ℕ} (hx : x < 256) (hneeded : d.needed = 1)
    (hlower : d.lower ≤ x) (hupper : x ≤ d.upper)
    (hpoint : d.codePoint * 64 + (x - 0x80) = c.toNat)
    (h : d.started = true ∨ c ≠ BYTE_ORDER_MARK) :
    d.step (UInt8.ofNat x) = (fresh true, [c]) := by
  simp only [step, toNat_ofNat hx]
  rw [if_neg (by omega), if_neg (by omega), if_pos hneeded, hpoint, Char.ofNat_toNat]
  exact emit_char d h

theorem step_lead {x : ℕ} (hx : x < 256) :
    (fresh s).step (UInt8.ofNat x) = (fresh s).lead x := by
  simp [step, fresh, toNat_ofNat hx]

theorem lead_one {d : Utf8Decoder} (hx : c.toNat ≤ 0x7F)
    (h : d.started = true ∨ c ≠ BYTE_ORDER_MARK) : d.lead c.toNat = (fresh true, [c]) := by
  rw [lead, if_pos hx, Char.ofNat_toNat]
  exact emit_char d h

theorem lead_two {d : Utf8Decoder} {x : ℕ} (h : 0xC2 ≤ x ∧ x ≤ 0xDF) :
    d.lead x = (⟨1, x - 0xC0, 0x80, 0xBF, d.started⟩, []) := by
  rw [lead, if_neg (by omega), if_pos h]

theorem lead_three {d : Utf8Decoder} {x : ℕ} (h : 0xE0 ≤ x ∧ x ≤ 0xEF) :
    d.lead x = (⟨2, x - 0xE0, if x = 0xE0 then 0xA0 else 0x80, if x = 0xED then 0x9F else 0xBF,
      d.started⟩, []) := by
  rw [lead, if_neg (by omega), if_neg (by omega), if_pos h]

theorem lead_four {d : Utf8Decoder} {x : ℕ} (h : 0xF0 ≤ x ∧ x ≤ 0xF4) :
    d.lead x = (⟨3, x - 0xF0, if x = 0xF0 then 0x90 else 0x80, if x = 0xF4 then 0x8F else 0xBF,
      d.started⟩, []) := by
  rw [lead, if_neg (by omega), if_neg (by omega), if_neg (by omega), if_pos h]

theorem char_valid (c : Char) : c.toNat < 0xD800 ∨ 0xDFFF < c.toNat ∧ c.toNat < 0x110000 := c.valid

/-- What the decoder makes of the first bytes of a character, and of all of them. -/
structure Spells (s : Bool) (c : Char) (bytes : List UInt8) : Prop where
  whole : (fresh s).decode bytes = (fresh true, [c])
  part : ∀ n, 0 < n → n < bytes.length →
    ((fresh s).decode (bytes.take n)).2 = [] ∧ ((fresh s).decode (bytes.take n)).1.needed ≠ 0

theorem decode_silent {d d' : Utf8Decoder} {byte : UInt8} (h : d.step byte = (d', []))
    (bytes : List UInt8) : d.decode (byte :: bytes) = d'.decode bytes := by
  rw [decode_cons, h]
  rfl

theorem decode_final {d d' : Utf8Decoder} {byte : UInt8} (h : d.step byte = (d', [c])) :
    d.decode [byte] = (d', [c]) := by
  rw [decode_cons, h]
  rfl

theorem spells_one (hx : c.toNat ≤ 0x7F) (h : s = true ∨ c ≠ BYTE_ORDER_MARK) :
    Spells s c [UInt8.ofNat c.toNat] where
  whole := by
    refine decode_final ?_
    rw [step_lead (by omega), lead_one hx h]
  part := fun n hpos hlt => by
    simp only [List.length_singleton] at hlt
    omega

theorem spells_two {x y : ℕ} (hx : 0xC2 ≤ x ∧ x ≤ 0xDF) (hy : 0x80 ≤ y ∧ y ≤ 0xBF)
    (hpoint : (x - 0xC0) * 64 + (y - 0x80) = c.toNat) (h : s = true ∨ c ≠ BYTE_ORDER_MARK) :
    Spells s c [UInt8.ofNat x, UInt8.ofNat y] := by
  have hfirst : (fresh s).step (UInt8.ofNat x) = (⟨1, x - 0xC0, 0x80, 0xBF, s⟩, []) := by
    rw [step_lead (by omega), lead_two hx]
    rfl
  have hlast : (⟨1, x - 0xC0, 0x80, 0xBF, s⟩ : Utf8Decoder).step (UInt8.ofNat y) =
      (fresh true, [c]) := step_last (by omega) rfl hy.1 hy.2 hpoint h
  constructor
  · rw [decode_silent hfirst, decode_final hlast]
  · intro n hpos hlt
    simp only [List.length_cons, List.length_nil] at hlt
    obtain rfl : n = 1 := by omega
    rw [List.take_succ_cons, List.take_zero, decode_silent hfirst]
    exact ⟨rfl, one_ne_zero⟩

theorem spells_three {x y z : ℕ} (hx : 0xE0 ≤ x ∧ x ≤ 0xEF)
    (hy : (if x = 0xE0 then 0xA0 else 0x80) ≤ y ∧ y ≤ (if x = 0xED then 0x9F else 0xBF))
    (hz : 0x80 ≤ z ∧ z ≤ 0xBF)
    (hpoint : ((x - 0xE0) * 64 + (y - 0x80)) * 64 + (z - 0x80) = c.toNat)
    (h : s = true ∨ c ≠ BYTE_ORDER_MARK) :
    Spells s c [UInt8.ofNat x, UInt8.ofNat y, UInt8.ofNat z] := by
  have hy' : y < 256 := by split_ifs at hy <;> omega
  have hfirst : (fresh s).step (UInt8.ofNat x) = (⟨2, x - 0xE0, if x = 0xE0 then 0xA0 else 0x80,
      if x = 0xED then 0x9F else 0xBF, s⟩, []) := by
    rw [step_lead (by omega), lead_three hx]
    rfl
  have hsecond : (⟨2, x - 0xE0, if x = 0xE0 then 0xA0 else 0x80,
      if x = 0xED then 0x9F else 0xBF, s⟩ : Utf8Decoder).step (UInt8.ofNat y) =
      (⟨1, (x - 0xE0) * 64 + (y - 0x80), 0x80, 0xBF, s⟩, []) :=
    step_more hy' le_rfl hy.1 hy.2
  have hlast : (⟨1, (x - 0xE0) * 64 + (y - 0x80), 0x80, 0xBF, s⟩ : Utf8Decoder).step
      (UInt8.ofNat z) = (fresh true, [c]) := step_last (by omega) rfl hz.1 hz.2 hpoint h
  constructor
  · rw [decode_silent hfirst, decode_silent hsecond, decode_final hlast]
  · intro n hpos hlt
    simp only [List.length_cons, List.length_nil] at hlt
    obtain rfl | rfl : n = 1 ∨ n = 2 := by omega
    · rw [List.take_succ_cons, List.take_zero, decode_silent hfirst]
      exact ⟨rfl, two_ne_zero⟩
    · rw [List.take_succ_cons, List.take_succ_cons, List.take_zero, decode_silent hfirst,
        decode_silent hsecond]
      exact ⟨rfl, one_ne_zero⟩

theorem spells_four {x y z w : ℕ} (hx : 0xF0 ≤ x ∧ x ≤ 0xF4)
    (hy : (if x = 0xF0 then 0x90 else 0x80) ≤ y ∧ y ≤ (if x = 0xF4 then 0x8F else 0xBF))
    (hz : 0x80 ≤ z ∧ z ≤ 0xBF) (hw : 0x80 ≤ w ∧ w ≤ 0xBF)
    (hpoint : (((x - 0xF0) * 64 + (y - 0x80)) * 64 + (z - 0x80)) * 64 + (w - 0x80) = c.toNat)
    (h : s = true ∨ c ≠ BYTE_ORDER_MARK) :
    Spells s c [UInt8.ofNat x, UInt8.ofNat y, UInt8.ofNat z, UInt8.ofNat w] := by
  have hy' : y < 256 := by split_ifs at hy <;> omega
  have hfirst : (fresh s).step (UInt8.ofNat x) = (⟨3, x - 0xF0, if x = 0xF0 then 0x90 else 0x80,
      if x = 0xF4 then 0x8F else 0xBF, s⟩, []) := by
    rw [step_lead (by omega), lead_four hx]
    rfl
  have hsecond : (⟨3, x - 0xF0, if x = 0xF0 then 0x90 else 0x80,
      if x = 0xF4 then 0x8F else 0xBF, s⟩ : Utf8Decoder).step (UInt8.ofNat y) =
      (⟨2, (x - 0xF0) * 64 + (y - 0x80), 0x80, 0xBF, s⟩, []) :=
    step_more hy' (Nat.le_succ 2) hy.1 hy.2
  have hthird : (⟨2, (x - 0xF0) * 64 + (y - 0x80), 0x80, 0xBF, s⟩ : Utf8Decoder).step
      (UInt8.ofNat z) = (⟨1, ((x - 0xF0) * 64 + (y - 0x80)) * 64 + (z - 0x80), 0x80, 0xBF, s⟩, []) :=
    step_more (by omega) le_rfl hz.1 hz.2
  have hlast : (⟨1, ((x - 0xF0) * 64 + (y - 0x80)) * 64 + (z - 0x80), 0x80, 0xBF, s⟩ :
      Utf8Decoder).step (UInt8.ofNat w) = (fresh true, [c]) :=
    step_last (by omega) rfl hw.1 hw.2 hpoint h
  constructor
  · rw [decode_silent hfirst, decode_silent hsecond, decode_silent hthird, decode_final hlast]
  · intro n hpos hlt
    simp only [List.length_cons, List.length_nil] at hlt
    obtain rfl | rfl | rfl : n = 1 ∨ n = 2 ∨ n = 3 := by omega
    · rw [List.take_succ_cons, List.take_zero, decode_silent hfirst]
      exact ⟨rfl, three_ne_zero⟩
    · rw [List.take_succ_cons, List.take_succ_cons, List.take_zero, decode_silent hfirst,
        decode_silent hsecond]
      exact ⟨rfl, two_ne_zero⟩
    · rw [List.take_succ_cons, List.take_succ_cons, List.take_succ_cons, List.take_zero,
        decode_silent hfirst, decode_silent hsecond, decode_silent hthird]
      exact ⟨rfl, one_ne_zero⟩

theorem spells_encode (c : Char) (h : s = true ∨ c ≠ BYTE_ORDER_MARK) :
    Spells s c (String.utf8EncodeChar c) := by
  have hvalid := char_valid c
  have hval : c.val.toNat = c.toNat := rfl
  simp only [String.utf8EncodeChar, hval]
  split_ifs with h₁ h₂ h₃
  · exact spells_one h₁ h
  · exact spells_two (by omega) (by omega) (by omega) h
  · refine spells_three (by omega) ?_ (by omega) (by omega) h
    constructor <;> split_ifs <;> omega
  · refine spells_four (by omega) ?_ (by omega) (by omega) (by omega) h
    constructor <;> split_ifs <;> omega

/-- A character of more than one byte is not an ASCII one. -/
theorem ascii_encode (h : c.toNat ≤ 0x7F) : (String.utf8EncodeChar c).length = 1 := by
  have hval : c.val.toNat = c.toNat := rfl
  simp only [String.utf8EncodeChar, hval]
  rw [if_pos h]
  rfl

theorem encode_append (xs ys : List Char) : encode (xs ++ ys) = encode xs ++ encode ys :=
  List.flatMap_append

theorem decode_encode (text : List Char) (h : s = true ∨ text.head? ≠ some BYTE_ORDER_MARK) :
    ∃ s', (fresh s).decode (encode text) = (fresh s', text) ∧
      (s = true ∨ text ≠ [] → s' = true) := by
  induction text generalizing s with
  | nil => exact ⟨s, rfl, fun h => h.resolve_right fun hne => hne rfl⟩
  | cons c text ih =>
    obtain ⟨s', hdecode, hstarted⟩ := ih (.inl rfl : true = true ∨ _)
    have hspells : Spells s c (String.utf8EncodeChar c) :=
      spells_encode c (h.imp id fun hne heq => hne (by simp [heq]))
    refine ⟨s', ?_, fun _ => hstarted (.inl rfl)⟩
    rw [encode, List.flatMap_cons, ← encode, decode_append, hspells.whole, hdecode]
    rfl

/-- Where a cut after `n` bytes falls in a text: `k` characters are whole, and what is decoded ends
in a replacement character when the next one is cut. -/
theorem decoded_take (text : List Char) (n : ℕ)
    (h : s = true ∨ text.head? ≠ some BYTE_ORDER_MARK) :
    ∃ k tail, (fresh s).decoded ((encode text).take n) = text.take k ++ tail ∧
      (∀ m ≤ text.length, (encode (text.take m)).length ≤ n ↔ m ≤ k) ∧
      (tail = [] ∨ tail = [REPLACEMENT] ∧ ∃ c, text[k]? = some c ∧ ¬ c.toNat ≤ 0x7F) := by
  induction text generalizing s n with
  | nil =>
    refine ⟨0, [], by simp [encode, decoded, flush, fresh], fun m hm => ?_, .inl rfl⟩
    obtain rfl : m = 0 := by simpa using hm
    simp [encode]
  | cons c text ih =>
    have hspells : Spells s c (String.utf8EncodeChar c) :=
      spells_encode c (h.imp id fun hne heq => hne (by simp [heq]))
    have hpos : 0 < (String.utf8EncodeChar c).length := by
      rcases Nat.eq_zero_or_pos (String.utf8EncodeChar c).length with hzero | hpos
      · have hwhole := hspells.whole
        rw [List.length_eq_zero_iff.mp hzero] at hwhole
        cases hwhole
      · exact hpos
    have hlength : ∀ m, (encode ((c :: text).take (m + 1))).length =
        (String.utf8EncodeChar c).length + (encode (text.take m)).length := fun m => by
      simp [encode]
    rw [encode, List.flatMap_cons, ← encode]
    by_cases hn : n < (String.utf8EncodeChar c).length
    · -- the cut falls before or inside the first character
      have hcount : ∀ m ≤ (c :: text).length,
          ((encode ((c :: text).take m)).length ≤ n ↔ m ≤ 0) := by
        rintro (_ | m) _
        · simp [encode]
        · rw [hlength]
          omega
      rw [List.take_append_of_le_length hn.le]
      rcases Nat.eq_zero_or_pos n with rfl | hsome
      · exact ⟨0, [], by simp [decoded, flush, fresh], hcount, .inl rfl⟩
      · obtain ⟨hout, hneeded⟩ := hspells.part n hsome hn
        refine ⟨0, [REPLACEMENT], ?_, hcount, .inr ⟨rfl, c, rfl, fun hascii => ?_⟩⟩
        · rw [decoded, hout, List.take_zero]
          rcases flush_eq ((fresh s).decode ((String.utf8EncodeChar c).take n)).1 with hflush | hflush
          · rw [flush, if_neg hneeded] at hflush
            have hreplaced : ∀ d : Utf8Decoder, (d.emit REPLACEMENT).2 ≠ [] := fun d => by
              rw [emit_char d (.inr (by decide))]
              simp
            exact absurd hflush (hreplaced _)
          · rw [hflush]
        · rw [ascii_encode hascii] at hn
          omega
    · obtain ⟨k, tail, hdecoded, hcount, htail⟩ :=
        ih (n - (String.utf8EncodeChar c).length) (.inl rfl : true = true ∨ _)
      refine ⟨k + 1, tail, ?_, ?_, htail⟩
      · rw [List.take_append, List.take_of_length_le (by omega), decoded_append, hspells.whole,
          hdecoded]
        rfl
      · rintro (_ | m) hm
        · simp [encode]
        · rw [hlength, Nat.add_le_add_iff_right, ← hcount m (by simpa using hm)]
          omega

end Encoding
end Utf8Decoder
end Linea
