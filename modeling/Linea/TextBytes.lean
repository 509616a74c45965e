import Linea.ApprovedTargets

/-! The bytes of strings: UTF-8, in which surrogates that stand alone are replaced, and digits. -/
namespace Linea.TextBytes

open JsonText (Text isHigh isLow hasLoneSurrogate hexDigit)
open ApprovedTargets (utf16 utf16_unit utf16_pair isHigh_iff isLow_iff toNat_ofNat_valid)

/-- The characters of a string, where a surrogate that stands alone is replaced. -/
def scalars : Text → List Char
  | [] => []
  | [u] => if isHigh u || isLow u then [Utf8Decoder.REPLACEMENT] else [Char.ofNat u.toNat]
  | u :: l :: rest =>
    if isHigh u && isLow l then
      Char.ofNat (0x10000 + (u.toNat - 0xD800) * 0x400 + (l.toNat - 0xDC00)) :: scalars rest
    else if isHigh u || isLow u then Utf8Decoder.REPLACEMENT :: scalars (l :: rest)
    else Char.ofNat u.toNat :: scalars (l :: rest)

/-- `TextEncoder`. -/
def utf8 (value : Text) : List UInt8 := Utf8Decoder.encode (scalars value)

/-- `TextDecoder`. -/
def decodeText (bytes : List UInt8) : Text := ((Utf8Decoder.fresh false).decoded bytes).flatMap utf16

/-- The digits of a byte, as `digest('hex')` writes them. -/
def toHex (bytes : List UInt8) : Text :=
  bytes.flatMap fun b => [hexDigit (b.toNat / 16),hexDigit (b.toNat % 16)]

/-- `Buffer.from(text, 'hex')`: up to the first pair that are no digits. -/
def fromHex : Text → List UInt8
  | a :: b :: rest =>
    match UrlPaths.hexValue a,UrlPaths.hexValue b with
    | some high,some low => .ofNat (high * 16 + low) :: fromHex rest
    | _,_ => []
  | _ => []

/-! ## What is read back -/

lemma hexValue_hexDigit {n : ℕ} (h : n < 16) : UrlPaths.hexValue (hexDigit n) = some n := by
  revert n
  decide

lemma fromHex_toHex (bytes : List UInt8) : fromHex (toHex bytes) = bytes := by
  induction bytes with
  | nil => rfl
  | cons b bytes ih =>
    have hb := b.toNat_lt
    have hbyte : b.toNat / 16 * 16 + b.toNat % 16 = b.toNat := by omega
    have hcons : toHex (b :: bytes) =
        hexDigit (b.toNat / 16) :: hexDigit (b.toNat % 16) :: toHex bytes := rfl
    rw [hcons,fromHex,hexValue_hexDigit (by omega),hexValue_hexDigit (by omega)]
    dsimp only
    rw [ih,hbyte,UInt8.ofNat_toNat]

/-- A string without a surrogate that stands alone is given back by its characters. -/
lemma utf16_scalars {s : Text} (h : hasLoneSurrogate s = false) : (scalars s).flatMap utf16 = s := by
  induction s using scalars.induct with
  | case1 => rfl
  | case2 u hlone =>
    rw [hasLoneSurrogate,hlone] at h
    cases h
  | case3 u hlone => rw [scalars,if_neg hlone,List.flatMap_singleton,utf16_unit hlone]
  | case4 u l rest hpair ih =>
    rw [hasLoneSurrogate,if_pos hpair] at h
    rw [Bool.and_eq_true] at hpair
    rw [scalars,if_pos (Bool.and_eq_true_iff.mpr hpair),List.flatMap_cons,ih h,
      utf16_pair hpair.1 hpair.2]
    rfl
  | case5 u l rest hpair hlone ih =>
    rw [hasLoneSurrogate,if_neg hpair,hlone] at h
    cases h
  | case6 u l rest hpair hlone ih =>
    rw [hasLoneSurrogate,if_neg hpair,Bool.or_eq_false_iff] at h
    rw [scalars,if_neg hpair,if_neg hlone,List.flatMap_cons,ih h.2,utf16_unit hlone]
    rfl

lemma utf8_inj {s t : Text} (hs : hasLoneSurrogate s = false) (ht : hasLoneSurrogate t = false)
    (h : utf8 s = utf8 t) : s = t := by
  rw [← utf16_scalars hs,UrlPaths.encode_injective h,utf16_scalars ht]

/-- Units of one byte. -/
def Ascii (s : Text) : Prop := ∀ u ∈ s, u.toNat < 128

lemma unit_toNat {u : UInt16} (h : ¬ (isHigh u || isLow u) = true) : (Char.ofNat u.toNat).toNat = u.toNat := by
  have hu := u.toNat_lt
  rw [Bool.or_eq_true,isHigh_iff,isLow_iff] at h
  refine toNat_ofNat_valid ?_
  unfold Nat.isValidChar
  omega

/-- Where all characters are of one byte, so are the units, and none was replaced. -/
lemma scalars_ascii {s : Text} (h : ∀ c ∈ scalars s, c.toNat < 128) : hasLoneSurrogate s = false := by
  have hreplaced : ¬ Utf8Decoder.REPLACEMENT.toNat < 128 := by decide
  induction s using scalars.induct with
  | case1 => rfl
  | case2 u hlone =>
    rw [scalars,if_pos hlone] at h
    exact absurd (h _ List.mem_cons_self) hreplaced
  | case3 u hlone => exact Bool.eq_false_iff.mpr hlone
  | case4 u l rest hpair ih =>
    rw [scalars,if_pos hpair] at h
    rw [hasLoneSurrogate,if_pos hpair]
    exact ih fun c hc => h c (List.mem_cons_of_mem _ hc)
  | case5 u l rest hpair hlone ih =>
    rw [scalars,if_neg hpair,if_pos hlone] at h
    exact absurd (h _ List.mem_cons_self) hreplaced
  | case6 u l rest hpair hlone ih =>
    rw [scalars,if_neg hpair,if_neg hlone] at h
    rw [hasLoneSurrogate,if_neg hpair,Bool.eq_false_iff.mpr hlone,Bool.false_or]
    exact ih fun c hc => h c (List.mem_cons_of_mem _ hc)

lemma Ascii.single {u : UInt16} (h : u.toNat < 128) : ¬ (isHigh u || isLow u) = true := by
  rw [Bool.or_eq_true,isHigh_iff,isLow_iff]
  omega

lemma Ascii.scalars {s : Text} (h : Ascii s) : ∀ c ∈ scalars s, c.toNat < 128 := by
  induction s using TextBytes.scalars.induct with
  | case1 => exact fun c hc => absurd hc List.not_mem_nil
  | case2 u hlone => exact absurd hlone (Ascii.single (h u List.mem_cons_self))
  | case3 u hlone =>
    rw [TextBytes.scalars,if_neg hlone,List.forall_mem_singleton,unit_toNat hlone]
    exact h u List.mem_cons_self
  | case4 u l rest hpair ih =>
    have hlone : (isHigh u || isLow u) = true := by rw [(Bool.and_eq_true_iff.mp hpair).1,Bool.true_or]
    exact absurd hlone (Ascii.single (h u List.mem_cons_self))
  | case5 u l rest hpair hlone ih => exact absurd hlone (Ascii.single (h u List.mem_cons_self))
  | case6 u l rest hpair hlone ih =>
    rw [TextBytes.scalars,if_neg hpair,if_neg hlone,List.forall_mem_cons,unit_toNat hlone]
    exact ⟨h u List.mem_cons_self,ih fun v hv => h v (List.mem_cons_of_mem u hv)⟩

/-- A string with the bytes of an ASCII string is that string. -/
lemma Ascii.utf8_inj {s t : Text} (ht : Ascii t) (h : utf8 s = utf8 t) : s = t := by
  have hscalars := UrlPaths.encode_injective h
  exact TextBytes.utf8_inj (scalars_ascii (hscalars ▸ ht.scalars)) (scalars_ascii ht.scalars) h

/-- A text that is encoded is decoded, but for a mark at its start. -/
lemma decodeText_utf8 {s : Text} (hs : hasLoneSurrogate s = false)
    (hmark : (scalars s).head? ≠ some Utf8Decoder.BYTE_ORDER_MARK) : decodeText (utf8 s) = s := by
  obtain ⟨started,hdecode,-⟩ := Utf8Decoder.decode_encode (scalars s) (.inr hmark)
  rw [decodeText,utf8,Utf8Decoder.decoded,hdecode]
  change (scalars s ++ []).flatMap utf16 = s
  rw [List.append_nil,utf16_scalars hs]

end Linea.TextBytes
