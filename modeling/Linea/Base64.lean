import Linea.JsonValues

/-! Base64 over any alphabet: bytes to letters and back, without padding and with it. -/
namespace Linea.Base64

/-- Sixty-four letters. -/
structure Alphabet (L : Type) where
  letters : List L
  length_eq : letters.length = 64
  nodup : letters.Nodup

namespace Alphabet
variable {L : Type} [Inhabited L] (α : Alphabet L)

/-- The letter of six bits. -/
def letter (n : ℕ) : L := α.letters.getD n default

/-- Three bytes give four letters; one and two bytes at the end give two and three. -/
def encode : List UInt8 → List L
  | [] => []
  | [a] => [α.letter (a.toNat / 4),α.letter (a.toNat % 4 * 16)]
  | [a,b] =>
    [α.letter (a.toNat / 4),α.letter (a.toNat % 4 * 16 + b.toNat / 16),α.letter (b.toNat % 16 * 4)]
  | a :: b :: c :: rest =>
    α.letter (a.toNat / 4) :: α.letter (a.toNat % 4 * 16 + b.toNat / 16) ::
      α.letter (b.toNat % 16 * 4 + c.toNat / 64) :: α.letter (c.toNat % 64) :: encode rest

variable {α}

lemma letter_eq {n : ℕ} (h : n < 64) : ∃ hn : n < α.letters.length, α.letter n = α.letters[n] := by
  refine ⟨α.length_eq ▸ h,?_⟩
  rw [letter,List.getD_eq_getElem?_getD,List.getElem?_eq_getElem,Option.getD_some]

lemma letter_mem {n : ℕ} (h : n < 64) : α.letter n ∈ α.letters := by
  obtain ⟨hn,hletter⟩ := letter_eq (α := α) h
  exact hletter ▸ List.getElem_mem hn

/-- The sextets of three bytes. -/
lemma sextets (a b c : UInt8) : a.toNat / 4 < 64 ∧ a.toNat % 4 * 16 + b.toNat / 16 < 64 ∧
    b.toNat % 16 * 4 + c.toNat / 64 < 64 ∧ c.toNat % 64 < 64 := by
  have ha := a.toNat_lt
  have hb := b.toNat_lt
  have hc := c.toNat_lt
  omega

lemma encode_length (bytes : List UInt8) : (α.encode bytes).length = (4 * bytes.length + 2) / 3 := by
  induction bytes using encode.induct with
  | case1 | case2 | case3 => simp [encode]
  | case4 a b c rest ih =>
    simp only [encode,List.length_cons,ih]
    omega

lemma encode_eq_nil {bytes : List UInt8} : α.encode bytes = [] ↔ bytes = [] := by
  rw [← List.length_eq_zero_iff,← List.length_eq_zero_iff,encode_length]
  omega

/-- The letters of an encoding are those of the alphabet. -/
lemma encode_letters (bytes : List UInt8) : ∀ c ∈ α.encode bytes, c ∈ α.letters := by
  induction bytes using encode.induct with
  | case1 => simp [encode]
  | case2 a =>
    obtain ⟨hw,hx,-⟩ := sextets a 0 0
    simp only [encode,List.forall_mem_cons]
    exact ⟨letter_mem hw,letter_mem hx,List.forall_mem_nil _⟩
  | case3 a b =>
    obtain ⟨hw,hx,hy,-⟩ := sextets a b 0
    simp only [encode,List.forall_mem_cons]
    exact ⟨letter_mem hw,letter_mem hx,letter_mem hy,List.forall_mem_nil _⟩
  | case4 a b c rest ih =>
    obtain ⟨hw,hx,hy,hz⟩ := sextets a b c
    simp only [encode,List.forall_mem_cons]
    exact ⟨letter_mem hw,letter_mem hx,letter_mem hy,letter_mem hz,ih⟩

/-! ## Decoding -/

section Decode
variable [DecidableEq L] (α)

/-- The six bits of a letter. -/
def sextet (c : L) : Option ℕ := if c ∈ α.letters then some (α.letters.idxOf c) else none

def first (w x : ℕ) : UInt8 := .ofNat (w * 4 + x / 16)

def second (x y : ℕ) : UInt8 := .ofNat (x % 16 * 16 + y / 4)

def third (y z : ℕ) : UInt8 := .ofNat (y % 4 * 64 + z)

/-- A letter alone at the end stands for no byte; bits that are left over at the end are dropped. -/
def decode : List L → Option (List UInt8)
  | [] => some []
  | [_] => none
  | [p,q] => (α.sextet p).bind fun w => (α.sextet q).map fun x => [first w x]
  | [p,q,r] => (α.sextet p).bind fun w => (α.sextet q).bind fun x => (α.sextet r).map fun y =>
    [first w x,second x y]
  | p :: q :: r :: s :: rest =>
    (α.sextet p).bind fun w => (α.sextet q).bind fun x => (α.sextet r).bind fun y =>
      (α.sextet s).bind fun z => (decode rest).map fun bytes =>
        first w x :: second x y :: third y z :: bytes

variable {α}

lemma sextet_letter {n : ℕ} (h : n < 64) : α.sextet (α.letter n) = some n := by
  obtain ⟨hn,hletter⟩ := letter_eq (α := α) h
  rw [sextet,if_pos (letter_mem h),hletter,α.nodup.idxOf_getElem]

lemma ofNat_eq {n : ℕ} {a : UInt8} (h : n = a.toNat) : UInt8.ofNat n = a := by rw [h,UInt8.ofNat_toNat]

lemma first_eq (a : UInt8) {x : ℕ} (h : x < 16) : first (a.toNat / 4) (a.toNat % 4 * 16 + x) = a :=
  ofNat_eq (by omega)

lemma second_eq {n : ℕ} (b : UInt8) {y : ℕ} (h : y < 4) :
    second (n * 16 + b.toNat / 16) (b.toNat % 16 * 4 + y) = b := by
  have hb := b.toNat_lt
  exact ofNat_eq (by omega)

lemma third_eq {n : ℕ} (c : UInt8) : third (n * 4 + c.toNat / 64) (c.toNat % 64) = c := by
  have hc := c.toNat_lt
  exact ofNat_eq (by omega)

/-- Decoding inverts encoding, whatever the number of bytes. -/
theorem decode_encode (bytes : List UInt8) : α.decode (α.encode bytes) = some bytes := by
  induction bytes using encode.induct with
  | case1 => rfl
  | case2 a =>
    obtain ⟨hw,hx,-⟩ := sextets a 0 0
    have hfirst := first_eq a (x := 0) (by decide)
    simp only [encode,decode,sextet_letter hw,sextet_letter (show a.toNat % 4 * 16 < 64 from hx),
      Option.bind_some,Option.map_some]
    exact congrArg (fun byte => some [byte]) hfirst
  | case3 a b =>
    obtain ⟨hw,hx,hy,-⟩ := sextets a b 0
    have hfirst := first_eq a (x := b.toNat / 16) (by have := b.toNat_lt; omega)
    have hsecond := second_eq (n := a.toNat % 4) b (y := 0) (by decide)
    simp only [encode,decode,sextet_letter hw,sextet_letter hx,
      sextet_letter (show b.toNat % 16 * 4 < 64 from hy),Option.bind_some,Option.map_some]
    rw [hfirst]
    exact congrArg (fun byte => some [a,byte]) hsecond
  | case4 a b c rest ih =>
    obtain ⟨hw,hx,hy,hz⟩ := sextets a b c
    have hfirst := first_eq a (x := b.toNat / 16) (by have := b.toNat_lt; omega)
    have hsecond := second_eq (n := a.toNat % 4) b (y := c.toNat / 64) (by have := c.toNat_lt; omega)
    simp only [encode,decode,sextet_letter hw,sextet_letter hx,sextet_letter hy,sextet_letter hz,ih,
      Option.bind_some,Option.map_some]
    rw [hfirst,hsecond,third_eq]

theorem encode_injective : Function.Injective α.encode := by
  intro bytes bytes' h
  have hdecode := decode_encode (α := α) bytes
  rw [h,decode_encode] at hdecode
  exact (Option.some.inj hdecode).symm

end Decode

end Alphabet

open JsonText (Text ascii)

def urlLetters : Text := ascii "ABCDEFGHIJKLMNOPQRSTUVWXYZabcdefghijklmnopqrstuvwxyz0123456789-_"

lemma urlLetters_nodup : urlLetters.Nodup := by decide

/-- The alphabet for URLs. -/
def url : Alphabet UInt16 := ⟨urlLetters,rfl,urlLetters_nodup⟩

lemma url_ascii {u : UInt16} (h : u ∈ url.letters) : u.toNat < 128 := by
  have hall : url.letters.all (fun u => u.toNat < 128) = true := by decide
  exact of_decide_eq_true (List.all_eq_true.mp hall u h)

lemma url_noDot : 46 ∉ url.letters := by decide

end Linea.Base64
