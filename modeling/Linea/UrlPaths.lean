import Linea.JsonStrings
import Linea.Separators
import Linea.Utf8

/-! Percent-encoded segments of a path, and what URL parsing makes of a path: it is cut at the slashes,
and the segments `.` and `..` are taken as directions. -/
namespace Linea.UrlPaths

open JsonText (Text isHigh isLow)
open Utf8Decoder (encode decode_encode fresh)
open Separators (join join_cons join_singleton)

/-- The characters of a string; none where a surrogate stands alone. -/
def codePoints : Text → Option (List Char)
  | [] => some []
  | [u] => if isHigh u || isLow u then none else some [Char.ofNat u.toNat]
  | u :: l :: rest =>
    if isHigh u && isLow l then
      (codePoints rest).map
        (Char.ofNat (0x10000 + (u.toNat - 0xD800) * 0x400 + (l.toNat - 0xDC00)) :: ·)
    else if isHigh u || isLow u then none
    else (codePoints (l :: rest)).map (Char.ofNat u.toNat :: ·)

/-- Letters, digits and the signs `encodeURIComponent` leaves as they are. -/
def isUnreserved (c : Char) : Bool :=
  48 ≤ c.toNat && c.toNat ≤ 57 || 65 ≤ c.toNat && c.toNat ≤ 90 || 97 ≤ c.toNat && c.toNat ≤ 122 ||
    c == '-' || c == '_' || c == '.' || c == '!' || c == '~' || c == '*' || c == '\'' || c == '(' ||
    c == ')'

def hexDigit (n : ℕ) : UInt16 := .ofNat (if n < 10 then 48 + n else 55 + n)

def percentByte (b : UInt8) : Text := [37,hexDigit (b.toNat / 16),hexDigit (b.toNat % 16)]

def encodeChar (c : Char) : Text :=
  if isUnreserved c then [.ofNat c.toNat] else (String.utf8EncodeChar c).flatMap percentByte

def encodeChars (chars : List Char) : Text := chars.flatMap encodeChar

/-- Throws, that is `none`, at a surrogate that stands alone. -/
def encodeURIComponent (s : Text) : Option Text := (codePoints s).map encodeChars

/-! ## Decoding -/

def hexValue (u : UInt16) : Option ℕ :=
  if 48 ≤ u && u ≤ 57 then some (u.toNat - 48)
  else if 65 ≤ u && u ≤ 70 then some (u.toNat - 55)
  else if 97 ≤ u && u ≤ 102 then some (u.toNat - 87)
  else none

def escapedByte (u a b : UInt16) : Option UInt8 :=
  if u = 37 then
    (hexValue a).bind fun high => (hexValue b).map fun low => .ofNat (high * 16 + low)
  else none

/-- The bytes of a segment. -/
def percentDecode : Text → List UInt8
  | u :: a :: b :: rest =>
    match escapedByte u a b with
    | some byte => byte :: percentDecode rest
    | none => u.toUInt8 :: percentDecode (a :: b :: rest)
  | u :: rest => u.toUInt8 :: percentDecode rest
  | [] => []

lemma percentDecode_plain {u : UInt16} (h : u ≠ 37) (rest : Text) :
    percentDecode (u :: rest) = u.toUInt8 :: percentDecode rest := by
  rcases rest with _ | ⟨a,_ | ⟨b,rest⟩⟩
  · rfl
  · rfl
  · rw [percentDecode,escapedByte,if_neg h]

lemma hexValue_hexDigit {n : ℕ} (h : n < 16) : hexValue (hexDigit n) = some n := by
  revert n
  decide

lemma percentDecode_percentByte (b : UInt8) (rest : Text) :
    percentDecode (percentByte b ++ rest) = b :: percentDecode rest := by
  have hb : b.toNat < 256 := b.toNat_lt
  have hhigh := hexValue_hexDigit (n := b.toNat / 16) (by omega)
  have hlow := hexValue_hexDigit (n := b.toNat % 16) (by omega)
  have hbyte : escapedByte 37 (hexDigit (b.toNat / 16)) (hexDigit (b.toNat % 16)) = some b := by
    rw [escapedByte,if_pos rfl,hhigh,hlow,Option.bind_some,Option.map_some,
      show b.toNat / 16 * 16 + b.toNat % 16 = b.toNat by omega,UInt8.ofNat_toNat]
  rw [percentByte,List.cons_append,List.cons_append,List.cons_append,List.nil_append,percentDecode,
    hbyte]

lemma percentDecode_bytes (bs : List UInt8) (rest : Text) :
    percentDecode (bs.flatMap percentByte ++ rest) = bs ++ percentDecode rest := by
  induction bs with
  | nil => rfl
  | cons b bs ih => rw [List.flatMap_cons,List.append_assoc,percentDecode_percentByte,ih,List.cons_append]

lemma isUnreserved_lt {c : Char} (h : isUnreserved c = true) : c.toNat < 128 ∧ c.toNat ≠ 37 := by
  simp only [isUnreserved,Bool.or_eq_true,Bool.and_eq_true,decide_eq_true_eq,beq_iff_eq] at h
  rcases h with ((((((((((h | h) | h) | rfl) | rfl) | rfl) | rfl) | rfl) | rfl) | rfl) | rfl) | rfl
  any_goals omega
  all_goals exact ⟨by decide,by decide⟩

lemma percentDecode_encodeChar (c : Char) (rest : Text) :
    percentDecode (encodeChar c ++ rest) = String.utf8EncodeChar c ++ percentDecode rest := by
  unfold encodeChar
  split
  · next h =>
    obtain ⟨hlt,hne⟩ := isUnreserved_lt h
    have hsize : c.toNat < UInt16.size := hlt.trans (by decide)
    have hsize' : c.toNat < UInt8.size := hlt.trans (by decide)
    have hunit : (UInt16.ofNat c.toNat) ≠ 37 := by
      intro heq
      have hnat := congrArg UInt16.toNat heq
      rw [UInt16.toNat_ofNat_of_lt' hsize] at hnat
      exact hne hnat
    have hbyte : (UInt16.ofNat c.toNat).toUInt8 = UInt8.ofNat c.toNat := by
      rw [← UInt8.toNat_inj,UInt16.toNat_toUInt8,UInt16.toNat_ofNat_of_lt' hsize,
        UInt8.toNat_ofNat_of_lt' hsize']
      omega
    have hval : c.val.toNat = c.toNat := rfl
    rw [List.singleton_append,percentDecode_plain hunit,hbyte]
    simp only [String.utf8EncodeChar,hval]
    rw [if_pos (by omega)]
    rfl
  · exact percentDecode_bytes _ rest

theorem percentDecode_encodeChars (chars : List Char) : percentDecode (encodeChars chars) = encode chars := by
  induction chars with
  | nil => rfl
  | cons c chars ih =>
    rw [encodeChars,List.flatMap_cons,percentDecode_encodeChar,← encodeChars,ih]
    rfl

lemma encode_injective : Function.Injective encode := by
  intro s t h
  obtain ⟨_,hs,_⟩ := decode_encode (s := true) s (.inl rfl)
  obtain ⟨_,ht,_⟩ := decode_encode (s := true) t (.inl rfl)
  rw [h,ht] at hs
  exact (congrArg Prod.snd hs).symm

/-! ## The path of a URL -/

/-- How a dot is written in a segment. -/
def dotForms : List Text := [[46],[37,50,69],[37,50,101]]

def isSingleDot (segment : Text) : Bool := dotForms.contains segment

def isDoubleDot (segment : Text) : Bool :=
  (dotForms.flatMap fun dot => dotForms.map (dot ++ ·)).contains segment

/-- The end of a segment: `..` takes the segment before it away, and where the path ends with a dot
segment an empty segment stands in its place. -/
def close (path : List Text) (buffer : Text) (last : Bool) : List Text :=
  if isDoubleDot buffer then path.dropLast ++ (if last then [[]] else [])
  else if isSingleDot buffer then path ++ (if last then [[]] else [])
  else path ++ [buffer]

/-- The path state of the URL parser; a backslash is a slash, and the path ends at the query or the
fragment. -/
def pathState (path : List Text) (buffer : Text) : Text → List Text
  | [] => close path buffer true
  | u :: rest =>
    if u = 47 ∨ u = 92 then pathState (close path buffer false) [] rest
    else if u = 63 ∨ u = 35 then close path buffer true
    else pathState path (buffer ++ [u]) rest

/-- The segments of the path of `new URL(reference, base)` where the reference starts with a slash. -/
def requestPath (reference : Text) : List Text := pathState [] [] reference.tail

/-- A unit of a segment. -/
def Inner (u : UInt16) : Prop := u ≠ 47 ∧ u ≠ 92 ∧ u ≠ 63 ∧ u ≠ 35

lemma pathState_append {segment : Text} (h : ∀ u ∈ segment, Inner u) (path : List Text)
    (buffer rest : Text) :
    pathState path buffer (segment ++ rest) = pathState path (buffer ++ segment) rest := by
  induction segment generalizing buffer with
  | nil => rw [List.nil_append,List.append_nil]
  | cons u segment ih =>
    obtain ⟨hslash,hback,hquery,hfragment⟩ := h u List.mem_cons_self
    rw [List.cons_append,pathState,if_neg (by simp [hslash,hback]),if_neg (by simp [hquery,hfragment]),
      ih fun v hv => h v (List.mem_cons_of_mem _ hv)]
    simp

lemma pathState_last {segment : Text} (h : ∀ u ∈ segment, Inner u) (path : List Text) :
    pathState path [] segment = close path segment true := by
  have happend := pathState_append h path [] []
  rwa [List.append_nil,List.nil_append] at happend

lemma pathState_join {segment : Text} (h : ∀ u ∈ segment, Inner u) {segments : List Text}
    (hne : segments ≠ []) (path : List Text) :
    pathState path [] (join [47] (segment :: segments)) =
      pathState (close path segment false) [] (join [47] segments) := by
  rw [join_cons hne,pathState_append h,List.nil_append,List.singleton_append,pathState]
  simp

def isDotSegment (segment : Text) : Bool := isDoubleDot segment || isSingleDot segment

lemma close_plain {segment : Text} (h : isDotSegment segment = false) (path : List Text)
    (last : Bool) : close path segment last = path ++ [segment] := by
  rw [isDotSegment,Bool.or_eq_false_iff] at h
  rw [close,h.1,h.2]
  simp

lemma pathState_plain {segments : List Text} (hne : segments ≠ [])
    (hinner : ∀ segment ∈ segments, ∀ u ∈ segment, Inner u)
    (hdots : ∀ segment ∈ segments, isDotSegment segment = false) (path : List Text) :
    pathState path [] (join [47] segments) = path ++ segments := by
  induction segments generalizing path with
  | nil => exact absurd rfl hne
  | cons segment segments ih =>
    have hsegment := hdots segment List.mem_cons_self
    cases segments with
    | nil =>
      rw [join_singleton,pathState_last (hinner segment List.mem_cons_self),close_plain hsegment]
    | cons next rest =>
      rw [pathState_join (hinner segment List.mem_cons_self) (List.cons_ne_nil _ _),
        close_plain hsegment,ih (List.cons_ne_nil _ _)
          (fun s hs => hinner s (List.mem_cons_of_mem _ hs))
          (fun s hs => hdots s (List.mem_cons_of_mem _ hs))]
      simp

lemma mem_close {segment t : Text} {path : List Text} {last : Bool}
    (h : t ∈ close path segment last) : t ∈ path ∨ t = [] ∨ t = segment ∧ isDotSegment t = false := by
  unfold close at h
  split_ifs at h with hdouble hlast hsingle hlast
  all_goals simp only [List.mem_append,List.mem_singleton,List.not_mem_nil,or_false] at h
  · rcases h with h | h
    · exact .inl (List.mem_of_mem_dropLast h)
    · exact .inr (.inl h)
  · exact .inl (List.mem_of_mem_dropLast h)
  · exact h.imp id .inl
  · exact .inl h
  · rcases h with h | rfl
    · exact .inl h
    · exact .inr (.inr ⟨rfl,by simp [isDotSegment,hdouble,hsingle]⟩)

/-- A path has no dot segments, and its segments come from the reference. -/
lemma mem_pathState {segments : List Text} (hne : segments ≠ [])
    (hinner : ∀ segment ∈ segments, ∀ u ∈ segment, Inner u) {path : List Text} {t : Text}
    (h : t ∈ pathState path [] (join [47] segments)) :
    t ∈ path ∨ t = [] ∨ t ∈ segments ∧ isDotSegment t = false := by
  induction segments generalizing path with
  | nil => exact absurd rfl hne
  | cons segment segments ih =>
    have hsegment := hinner segment List.mem_cons_self
    have hclosed : ∀ {last}, t ∈ close path segment last →
        t ∈ path ∨ t = [] ∨ t ∈ segment :: segments ∧ isDotSegment t = false := by
      intro last hmem
      rcases mem_close hmem with hmem | hmem | ⟨rfl,hdot⟩
      · exact .inl hmem
      · exact .inr (.inl hmem)
      · exact .inr (.inr ⟨List.mem_cons_self,hdot⟩)
    cases segments with
    | nil =>
      rw [join_singleton,pathState_last hsegment] at h
      exact hclosed h
    | cons next rest =>
      rw [pathState_join hsegment (List.cons_ne_nil _ _)] at h
      rcases ih (List.cons_ne_nil _ _) (fun s hs => hinner s (List.mem_cons_of_mem _ hs)) h with
        hmem | hmem | ⟨hmem,hdot⟩
      · exact hclosed hmem
      · exact .inr (.inl hmem)
      · exact .inr (.inr ⟨List.mem_cons_of_mem _ hmem,hdot⟩)

lemma hexDigit_inner {n : ℕ} (h : n < 16) : Inner (hexDigit n) := by
  revert n
  unfold Inner
  decide

lemma encodeChars_inner (chars : List Char) : ∀ u ∈ encodeChars chars, Inner u := by
  intro u hu
  obtain ⟨c,_,hc⟩ := List.mem_flatMap.mp hu
  unfold encodeChar at hc
  split at hc
  · next h =>
    rw [List.mem_singleton] at hc
    have hlt := (isUnreserved_lt h).1
    have hnat : u.toNat = c.toNat := by
      rw [hc,UInt16.toNat_ofNat_of_lt' (hlt.trans (by decide))]
    have hne : c.toNat ≠ 47 ∧ c.toNat ≠ 92 ∧ c.toNat ≠ 63 ∧ c.toNat ≠ 35 := by
      simp only [isUnreserved,Bool.or_eq_true,Bool.and_eq_true,decide_eq_true_eq,beq_iff_eq] at h
      rcases h with ((((((((((h | h) | h) | rfl) | rfl) | rfl) | rfl) | rfl) | rfl) | rfl) | rfl) | rfl
      any_goals omega
      all_goals exact ⟨by decide,by decide,by decide,by decide⟩
    refine ⟨?_,?_,?_,?_⟩ <;> rintro rfl
    · exact hne.1 hnat.symm
    · exact hne.2.1 hnat.symm
    · exact hne.2.2.1 hnat.symm
    · exact hne.2.2.2 hnat.symm
  · obtain ⟨b,_,hb⟩ := List.mem_flatMap.mp hc
    have hlt : b.toNat < 256 := b.toNat_lt
    simp only [percentByte,List.mem_cons,List.not_mem_nil,or_false] at hb
    rcases hb with rfl | rfl | rfl
    · exact ⟨by decide,by decide,by decide,by decide⟩
    · exact hexDigit_inner (by omega)
    · exact hexDigit_inner (by omega)

/-- The two names that a path takes for directions. -/
def IsDots (name : List Char) : Prop := name = ['.'] ∨ name = ['.','.']

lemma decode_dots : (∀ s ∈ dotForms, percentDecode s = [46]) ∧
    ∀ s ∈ dotForms.flatMap fun dot => dotForms.map (dot ++ ·), percentDecode s = [46,46] := by
  decide

/-- An encoded name is a dot segment in one way: encoding leaves dots as they are. -/
lemma isDotSegment_encodeChars (name : List Char) :
    isDotSegment (encodeChars name) = true ↔ IsDots name := by
  constructor
  · intro h
    rw [isDotSegment,Bool.or_eq_true,isDoubleDot,isSingleDot,List.contains_iff_mem,
      List.contains_iff_mem] at h
    rcases h with h | h
    · have hbytes := decode_dots.2 _ h
      rw [percentDecode_encodeChars] at hbytes
      exact .inr (encode_injective hbytes)
    · have hbytes := decode_dots.1 _ h
      rw [percentDecode_encodeChars] at hbytes
      exact .inl (encode_injective hbytes)
  · rintro (rfl | rfl) <;> decide

/-- The path of a URL is the one its names were put together to just when none of them is a dot
name. -/
theorem decoded_path_iff {names : List (List Char)} (hne : names ≠ []) :
    (requestPath (47 :: join [47] (names.map encodeChars))).map percentDecode = names.map encode ↔
      ∀ name ∈ names, ¬ IsDots name := by
  have hinner : ∀ segment ∈ names.map encodeChars, ∀ u ∈ segment, Inner u := by
    intro segment hsegment
    obtain ⟨name,_,rfl⟩ := List.mem_map.mp hsegment
    exact encodeChars_inner name
  have hmap : names.map encodeChars ≠ [] := by simpa using hne
  rw [requestPath,List.tail_cons]
  constructor
  · intro heq name hname hdots
    have hmem : encode name ∈ (pathState [] [] (join [47] (names.map encodeChars))).map percentDecode :=
      heq ▸ List.mem_map_of_mem hname
    obtain ⟨t,ht,hbytes⟩ := List.mem_map.mp hmem
    rcases mem_pathState hmap hinner ht with ht | rfl | ⟨ht,hdot⟩
    · exact absurd ht List.not_mem_nil
    · have hnil : name = [] := encode_injective (hbytes.symm.trans rfl)
      rcases hdots with rfl | rfl <;> cases hnil
    · obtain ⟨other,_,rfl⟩ := List.mem_map.mp ht
      rw [percentDecode_encodeChars] at hbytes
      obtain rfl := encode_injective hbytes
      rw [(isDotSegment_encodeChars other).mpr hdots] at hdot
      cases hdot
  · intro h
    have hdots : ∀ segment ∈ names.map encodeChars, isDotSegment segment = false := by
      intro segment hsegment
      obtain ⟨name,hname,rfl⟩ := List.mem_map.mp hsegment
      exact Bool.eq_false_iff.mpr fun htrue => h name hname ((isDotSegment_encodeChars name).mp htrue)
    rw [pathState_plain hmap hinner hdots,List.nil_append,List.map_map]
    exact List.map_congr_left fun name _ => percentDecode_encodeChars name

end Linea.UrlPaths
