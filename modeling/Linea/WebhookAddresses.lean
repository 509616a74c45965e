import Linea.IpAddresses
import Mathlib.Data.Nat.Basic

/-! The screening of addresses in `webhooks/webhook-request.ts`: the numbers that addresses are read as,
and the ranges that are not public. -/
namespace Linea.WebhookAddresses
open Separators IpAddresses

/-- `Number(part)` of decimal digits; other parts are none of an address. -/
def decimal (part : List Char) : Option ℕ :=
  if part.all (· ∈ digits) then some (Nat.ofDigitChars 10 part 0) else none

/-- Shifts, sums and masks of JavaScript numbers go by their lower 32 bits. -/
def ipv4Number (address : List Char) : Option (BitVec 32) :=
  (address.splitOn '.').foldlM (fun value part =>
    (decimal part).map fun n => (value <<< 8) + BitVec.ofNat 32 n) 0

def inIpv4Range (address : BitVec 32) (base : List Char) (bits : ℕ) : Option Bool :=
  let mask : BitVec 32 := if bits = 0 then 0 else 0xffffffff#32 <<< (32 - bits)
  (ipv4Number base).map fun number => address &&& mask = number &&& mask

/-- `number.toString(16)` -/
def hexText (n : ℕ) : List Char := Nat.toDigits 16 n

/-- ``BigInt(`0x${group}`)``, which throws where the group is not of hexadecimal digits. -/
def bigInt (group : List Char) : Option ℕ :=
  if group ≠ [] ∧ group.all (· ∈ hexDigits) then some (hexValue group) else none

/-- `address.slice(0, address.lastIndexOf(":"))`; without a colon the index is −1. -/
def beforeLastColon (address : List Char) : List Char :=
  match address.reverse.dropWhile (· ≠ ':') with
  | [] => address.dropLast
  | _ :: rest => rest.reverse

/-- The last part is rewritten to two groups where it is an IPv4 address. -/
def normalize (withoutZone : List Char) : Option (List Char) :=
  let lastPart := ((withoutZone.splitOn ':').getLast?).getD []
  if '.' ∈ lastPart then
    (ipv4Number lastPart).map fun number : BitVec 32 => beforeLastColon withoutZone ++
      ':' :: (hexText (number >>> 16 : BitVec 32).toNat ++ ':' :: hexText (number &&& 0xffff#32).toNat)
  else some withoutZone

def nonEmptyParts (half : List Char) : List (List Char) := (half.splitOn ':').filter (· ≠ [])

/-- The groups of a normalized address; an array of a negative length is thrown. -/
def groupsOf (normalized : List Char) : Option (List (List Char)) :=
  let halves := cut ':' ':' normalized
  let left := (halves[0]?.map nonEmptyParts).getD []
  let right := (halves[1]?.map nonEmptyParts).getD []
  if halves.length = 2 then
    if left.length + right.length ≤ 8 then
      some (left ++ (List.replicate (8 - left.length - right.length) ['0'] ++ right))
    else none
  else some left

/-- `none` where it throws. -/
def ipv6Number (address : List Char) : Option ℕ := do
  let normalized ← normalize (address.takeWhile (· ≠ '%'))
  let groups ← groupsOf normalized
  groups.foldlM (fun value group => (bigInt group).map fun n => (value <<< 16) + n) 0

def inIpv6Range (address : ℕ) (base : List Char) (bits : ℕ) : Option Bool :=
  (ipv6Number base).map fun number => address >>> (128 - bits) = number >>> (128 - bits)

def ipv4Ranges : List (String × ℕ) :=
  [("0.0.0.0",8),("10.0.0.0",8),("100.64.0.0",10),("127.0.0.0",8),("169.254.0.0",16),
    ("172.16.0.0",12),("192.0.0.0",24),("192.0.2.0",24),("192.168.0.0",16),("198.18.0.0",15),
    ("198.51.100.0",24),("203.0.113.0",24),("224.0.0.0",4),("240.0.0.0",4)]

def ipv6Ranges : List (String × ℕ) :=
  [("::",96),("64:ff9b:1::",48),("100::",64),("2001::",23),("2001:db8::",32),("2002::",16),
    ("3fff::",20),("fc00::",7),("fe80::",10),("ff00::",8)]

def isPublicIpv4 (address : BitVec 32) : Option Bool :=
  (ipv4Ranges.anyM fun range => inIpv4Range address range.1.toList range.2).map not

def isPublicAddress (address : List Char) : Option Bool :=
  let family := isIP address
  if family = 4 then do
    let number ← ipv4Number address
    isPublicIpv4 number
  else if family ≠ 6 then some false
  else do
    let value ← ipv6Number (address.map Char.toLower)
    let mapped ← inIpv6Range value "::ffff:0:0".toList 96
    let translated ← inIpv6Range value "64:ff9b::".toList 96
    if mapped || translated then isPublicIpv4 (BitVec.ofNat 32 (value &&& 0xffffffff))
    else (ipv6Ranges.anyM fun range => inIpv6Range value range.1.toList range.2).map not

/-! ### IPv4 -/

lemma octetText_digits (n : Fin 256) : (∀ c ∈ octetText n, c ∈ digits) ∧
    decimal (octetText n) = some n.val := by
  have hall : ∀ n : Fin 256, ((octetText n).all fun c => decide (c ∈ digits)) = true ∧
      decimal (octetText n) = some n.val := by decide +kernel
  exact ⟨forall_of_all (hall n).1,(hall n).2⟩

lemma not_mem_octetText (n : Fin 256) {c : Char} (hc : c ∉ digits) : c ∉ octetText n :=
  fun h => hc ((octetText_digits n).1 c h)

lemma splitOn_join {parts : List (List Char)} {c : Char} (hne : parts ≠ [])
    (hc : ∀ s ∈ parts, c ∉ s) : (join [c] parts).splitOn c = parts :=
  List.splitOn_intercalate c hc hne

lemma ipv4Number_text {s : List Char} {n : ℕ} (h : Ipv4Text s n) :
    n < 2 ^ 32 ∧ ipv4Number s = some (BitVec.ofNat 32 n) := by
  obtain ⟨a,b,c,d⟩ := h
  have hdot : '.' ∉ digits := by decide
  have ha := a.isLt
  have hb := b.isLt
  have hc := c.isLt
  have hd := d.isLt
  refine ⟨by omega,?_⟩
  rw [ipv4Number,splitOn_join (List.cons_ne_nil _ _)]
  · simp only [List.foldlM_cons,List.foldlM_nil,(octetText_digits _).2,Option.map_some,
      Option.bind_eq_bind,Option.bind_some]
    refine congrArg some (BitVec.eq_of_toNat_eq ?_)
    simp only [BitVec.toNat_add,BitVec.toNat_shiftLeft,BitVec.toNat_ofNat,Nat.shiftLeft_eq]
    omega
  · intro s hs
    simp only [List.mem_cons,List.not_mem_nil,or_false] at hs
    rcases hs with rfl | rfl | rfl | rfl <;> exact not_mem_octetText _ hdot

/-! ### Hexadecimal groups -/

/-- Hexadecimal digits of any number but none. -/
def Hex (s : List Char) : Prop := s ≠ [] ∧ ∀ c ∈ s, c ∈ hexDigits

lemma bigInt_hex {s : List Char} (h : Hex s) : bigInt s = some (hexValue s) := by
  rw [bigInt,if_pos ⟨h.1,List.all_eq_true.mpr fun c hc => decide_eq_true (h.2 c hc)⟩]

lemma digitChar_hex : ∀ n : Fin 16, n.val.digitChar ∈ hexDigits ∧ hexDigit n.val.digitChar = n.val := by
  decide

/-- The text of a number is read back. -/
lemma hexText_spec (n : ℕ) : Hex (hexText n) ∧ hexValue (hexText n) = n := by
  induction n using Nat.strong_induction_on with
  | _ n ih =>
    by_cases hn : n < 16
    · have hdigit := digitChar_hex ⟨n,hn⟩
      rw [hexText,Nat.toDigits_of_lt_base hn]
      exact ⟨⟨List.cons_ne_nil _ _,List.forall_mem_singleton.mpr hdigit.1⟩,by simpa [hexValue] using hdigit.2⟩
    · have hle : 16 ≤ n := not_lt.mp hn
      have hdigit := digitChar_hex ⟨n % 16,Nat.mod_lt _ (by decide)⟩
      obtain ⟨⟨hne,hhex⟩,hvalue⟩ := ih (n / 16) (Nat.div_lt_self (by omega) (by decide))
      have htext : hexText n = hexText (n / 16) ++ [(n % 16).digitChar] :=
        Nat.toDigits_of_base_le (by decide) hle
      rw [htext]
      refine ⟨⟨List.append_ne_nil_of_left_ne_nil hne _,?_⟩,?_⟩
      · exact List.forall_mem_append.mpr ⟨hhex,List.forall_mem_singleton.mpr hdigit.1⟩
      · change hexValue _ = _ at hvalue
        rw [hexValue,List.foldl_append]
        change hexValue (hexText (n / 16)) * 16 + hexDigit (n % 16).digitChar = n
        rw [hvalue,hdigit.2]
        exact Nat.div_add_mod' n 16

lemma Hex.notMem {s : List Char} (h : Hex s) {c : Char} (hc : c ∉ hexDigits) : c ∉ s :=
  fun hmem => hc (h.2 c hmem)

lemma hex_of_group {s : List Char} (h : Group s) : Hex s := ⟨h.ne_nil,h.hex⟩

/-! ### Normalized addresses -/

/-- A spelling by groups only. -/
inductive Normal : List Char → List ℕ → Prop
  | full {segs : List (List Char)} (hsegs : ∀ s ∈ segs, Hex s) (hlength : segs.length = 8) :
    Normal (join [':'] segs) (segs.map hexValue)
  | gap {left right : List (List Char)} (hleft : ∀ s ∈ left, Hex s) (hright : ∀ s ∈ right, Hex s)
    (hlength : left.length + right.length ≤ 7) :
    Normal (join [':'] left ++ ':' :: ':' :: join [':'] right)
      (left.map hexValue ++ (List.replicate (8 - (left.length + right.length)) 0 ++ right.map hexValue))

lemma mem_of_part {s part : List Char} {c x : Char} (hpart : part ∈ s.splitOn c) (hx : x ∈ part) :
    x ∈ s := by
  have hmem := mem_join_of_mem hpart hx [c]
  rwa [show join [c] (s.splitOn c) = s from List.intercalate_splitOn c] at hmem

/-- Without a dot the last part is left as it is. -/
lemma normalize_plain {s : List Char} (h : '.' ∉ s) : normalize s = some s := by
  unfold normalize
  dsimp only
  rw [if_neg]
  intro hdot
  cases hlast : (s.splitOn ':').getLast? with
  | none =>
    rw [hlast] at hdot
    cases hdot
  | some part =>
    rw [hlast] at hdot
    exact h (mem_of_part (List.mem_of_getLast? hlast) hdot)

lemma beforeLastColon_append {p v : List Char} (hv : ':' ∉ v) : beforeLastColon (p ++ ':' :: v) = p := by
  have hdrop : (p ++ ':' :: v).reverse.dropWhile (· ≠ ':') = ':' :: p.reverse := by
    rw [List.reverse_append,List.reverse_cons,List.append_assoc,List.singleton_append,
      List.dropWhile_append_of_pos]
    · simp
    · intro c hc
      exact decide_eq_true fun heq => hv (heq ▸ List.mem_reverse.mp hc)
  rw [beforeLastColon,hdrop]
  exact List.reverse_reverse p

/-- An IPv4 address at the end is rewritten to the groups of its number. -/
lemma normalize_ipv4 {p v : List Char} {n : ℕ} (hv : Ipv4Text v n) :
    normalize (p ++ ':' :: v) =
      some (p ++ ':' :: (hexText (n / 65536) ++ ':' :: hexText (n % 65536))) := by
  obtain ⟨hlt,hnumber⟩ := ipv4Number_text hv
  have hcolon : ':' ∉ v ∧ '.' ∈ v := by
    obtain ⟨a,b,c,d⟩ := hv
    constructor
    · intro hmem
      rcases mem_join hmem with h | ⟨s,hs,h⟩
      · exact absurd (List.mem_singleton.mp h) (by decide)
      · simp only [List.mem_cons,List.not_mem_nil,or_false] at hs
        rcases hs with rfl | rfl | rfl | rfl <;> exact not_mem_octetText _ (by decide) h
    · rw [join_cons (List.cons_ne_nil _ _)]
      simp
  have hlast : ((p ++ ':' :: v).splitOn ':').getLast? = some v := by
    rw [List.splitOn_append_cons_self,List.splitOn_eq_singleton hcolon.1,List.getLast?_concat]
  have hhigh : (BitVec.ofNat 32 n >>> 16).toNat = n / 65536 := by
    rw [BitVec.toNat_ushiftRight,BitVec.toNat_ofNat,Nat.mod_eq_of_lt hlt,Nat.shiftRight_eq_div_pow]
  have hlow : (BitVec.ofNat 32 n &&& 0xffff#32).toNat = n % 65536 := by
    rw [BitVec.toNat_and,BitVec.toNat_ofNat,Nat.mod_eq_of_lt hlt]
    exact Nat.and_two_pow_sub_one_eq_mod n 16
  unfold normalize
  dsimp only
  rw [hlast,Option.getD_some,if_pos hcolon.2,hnumber,Option.map_some,beforeLastColon_append hcolon.1,hhigh,
    hlow]

lemma normalize_groups {s : List Char} {groups : List ℕ} (h : Ipv6Groups s groups) :
    ∃ normalized, normalize s = some normalized ∧ Normal normalized groups := by
  have hplain {segs : List (List Char)} (hsegs : ∀ t ∈ segs, Group t) : '.' ∉ join [':'] segs := by
    intro hmem
    rcases mem_join hmem with h | ⟨t,ht,h⟩
    · exact absurd (List.mem_singleton.mp h) (by decide)
    · exact (hex_of_group (hsegs t ht)).notMem (by decide) h
  have hpair (n : ℕ) : ∀ s ∈ [hexText (n / 65536),hexText (n % 65536)], Hex s :=
    List.forall_mem_cons.mpr ⟨(hexText_spec _).1,List.forall_mem_singleton.mpr (hexText_spec _).1⟩
  have hvalues {n : ℕ} : [hexText (n / 65536),hexText (n % 65536)].map hexValue =
      [n / 65536,n % 65536] := by
    rw [List.map_cons,List.map_singleton,(hexText_spec _).2,(hexText_spec _).2]
  have hjoin {n : ℕ} : join [':'] [hexText (n / 65536),hexText (n % 65536)] =
      hexText (n / 65536) ++ ':' :: hexText (n % 65536) := by
    rw [join_cons (List.cons_ne_nil _ _),join_singleton,List.singleton_append]
  cases h with
  | @full segs _ _ hsegs htail hlength =>
    cases htail with
    | none =>
      rw [List.append_nil,List.append_nil]
      exact ⟨_,normalize_plain (hplain hsegs),.full (fun t ht => hex_of_group (hsegs t ht)) hlength⟩
    | @ipv4 v n hv =>
      have hne : segs ≠ [] := by
        rintro rfl
        cases hlength
      rw [join_append hne (List.cons_ne_nil _ _),join_singleton,List.singleton_append]
      refine ⟨_,normalize_ipv4 hv,?_⟩
      have hnormal := Normal.full (List.forall_mem_append.mpr
        ⟨fun t ht => hex_of_group (hsegs t ht),hpair n⟩) (by rwa [List.length_append])
      rwa [List.map_append,hvalues,join_append hne (List.cons_ne_nil _ _),hjoin] at hnormal
  | @gap left right _ _ hleft hright htail hlength =>
    cases htail with
    | none =>
      rw [List.append_nil,List.append_nil]
      refine ⟨_,normalize_plain ?_,.gap (fun t ht => hex_of_group (hleft t ht))
        (fun t ht => hex_of_group (hright t ht)) hlength⟩
      simp [hplain hleft,hplain hright]
    | @ipv4 v n hv =>
      have hnormal := Normal.gap (fun t ht => hex_of_group (hleft t ht)) (List.forall_mem_append.mpr
        ⟨fun t ht => hex_of_group (hright t ht),hpair n⟩) (by rwa [List.length_append])
      rw [List.length_append,List.map_append,hvalues] at hnormal
      by_cases hne : right = []
      · subst hne
        rw [List.nil_append,join_singleton,List.append_cons]
        refine ⟨_,normalize_ipv4 hv,?_⟩
        rw [List.nil_append,hjoin,List.append_cons] at hnormal
        exact hnormal
      · rw [join_append hne (List.cons_ne_nil _ _),join_singleton,List.singleton_append,
          ← List.cons_append,← List.cons_append,← List.append_assoc]
        refine ⟨_,normalize_ipv4 hv,?_⟩
        rw [join_append hne (List.cons_ne_nil _ _),hjoin,List.singleton_append,← List.cons_append,
          ← List.cons_append,← List.append_assoc] at hnormal
        exact hnormal

/-! ### The number of an address -/

lemma colon_notMem {segs : List (List Char)} (h : ∀ s ∈ segs, Hex s) : ∀ s ∈ segs, ':' ∉ s :=
  fun s hs => (h s hs).notMem (by decide)

lemma nonEmptyParts_join {segs : List (List Char)} (h : ∀ s ∈ segs, Hex s) :
    nonEmptyParts (join [':'] segs) = segs := by
  by_cases hne : segs = []
  · subst hne
    rfl
  · rw [nonEmptyParts,splitOn_join hne (colon_notMem h),List.filter_eq_self]
    exact fun s hs => decide_eq_true (h s hs).1

/-- Groups leave no two colons side by side: an empty part would be between them. -/
lemma no_gap {segs : List (List Char)} (h : ∀ s ∈ segs, Hex s) (u v : List Char) :
    join [':'] segs ++ [':'] ≠ u ++ ':' :: ':' :: v := by
  intro heq
  by_cases hne : segs = []
  · subst hne
    have hlength := congrArg List.length heq
    simp only [join_nil,List.nil_append,List.length_append,List.length_cons,List.length_nil] at hlength
    omega
  · have hsplit := congrArg (List.splitOn ':') heq
    rw [List.splitOn_append_cons_self,List.splitOn_append_cons_self,splitOn_join hne (colon_notMem h),
      show (':' :: v).splitOn ':' = [] :: v.splitOn ':' from List.splitOn_append_cons_self [] v,
      ← List.dropLast_append_getLast (List.splitOn_ne_nil ':' v),List.splitOn_nil,← List.cons_append,
      ← List.append_assoc] at hsplit
    have hsegs := (List.append_inj' hsplit rfl).1
    exact (h [] (hsegs ▸ List.mem_append_right _ List.mem_cons_self)).1 rfl

lemma foldlM_bigInt {groups : List (List Char)} (h : ∀ s ∈ groups, Hex s) (n : ℕ) :
    groups.foldlM (fun value group => (bigInt group).map fun k => (value <<< 16) + k) n =
      some ((groups.map hexValue).foldl (fun n group => n * 65536 + group) n) := by
  induction groups generalizing n with
  | nil => rfl
  | cons s groups ih =>
    rw [List.foldlM_cons,bigInt_hex (h s List.mem_cons_self),Option.map_some,Nat.shiftLeft_eq]
    exact ih (fun t ht => h t (List.mem_cons_of_mem _ ht)) _

lemma hex_zero : Hex ['0'] := ⟨List.cons_ne_nil _ _,forall_of_all (by decide)⟩

lemma groupsOf_normal {s : List Char} {groups : List ℕ} (h : Normal s groups) :
    ∃ parts, groupsOf s = some parts ∧ (∀ t ∈ parts, Hex t) ∧ parts.map hexValue = groups := by
  have hplain {segs : List (List Char)} (hsegs : ∀ t ∈ segs, Hex t) :
      cut ':' ':' (join [':'] segs) = [join [':'] segs] :=
    cut_plain fun u v heq => no_gap hsegs u (v ++ [':']) (by rw [heq]; simp)
  cases h with
  | @full segs hsegs hlength =>
    refine ⟨segs,?_,hsegs,rfl⟩
    simp [groupsOf,hplain hsegs,nonEmptyParts_join hsegs]
  | @gap left right hleft hright hlength =>
    have hcut : cut ':' ':' (join [':'] left ++ ':' :: ':' :: join [':'] right) =
        [join [':'] left,join [':'] right] := by
      rw [cut_first (no_gap hleft),hplain hright]
    refine ⟨left ++ (List.replicate (8 - left.length - right.length) ['0'] ++ right),?_,?_,?_⟩
    · have hle : left.length + right.length ≤ 8 := by omega
      simp [groupsOf,hcut,nonEmptyParts_join hleft,nonEmptyParts_join hright,hle]
    · refine List.forall_mem_append.mpr ⟨hleft,List.forall_mem_append.mpr ⟨fun t ht => ?_,hright⟩⟩
      rw [List.eq_of_mem_replicate ht]
      exact hex_zero
    · rw [List.map_append,List.map_append,List.map_replicate,Nat.sub_sub]
      rfl

lemma ipv4Text_chars {s : List Char} {n : ℕ} (h : Ipv4Text s n) : ∀ c ∈ s, c = '.' ∨ c ∈ digits := by
  obtain ⟨a,b,c,d⟩ := h
  intro x hx
  rcases mem_join hx with hx | ⟨t,ht,hx⟩
  · exact .inl (List.mem_singleton.mp hx)
  · simp only [List.mem_cons,List.not_mem_nil,or_false] at ht
    rcases ht with rfl | rfl | rfl | rfl <;> exact .inr ((octetText_digits _).1 x hx)

lemma tail_chars {tail : List (List Char)} {values : List ℕ} (h : Tail tail values) :
    ∀ s ∈ tail, ∀ c ∈ s, c = '.' ∨ c ∈ digits := by
  cases h with
  | none => exact List.forall_mem_nil _
  | ipv4 h => exact List.forall_mem_singleton.mpr (ipv4Text_chars h)

/-- An address without its zone has no percent sign. -/
lemma groups_chars {s : List Char} {groups : List ℕ} (h : Ipv6Groups s groups) : '%' ∉ s := by
  have hjoin {segs tail : List (List Char)} {values : List ℕ} (hsegs : ∀ t ∈ segs, Group t)
      (htail : Tail tail values) : '%' ∉ join [':'] (segs ++ tail) := by
    intro hmem
    rcases mem_join hmem with hmem | ⟨t,ht,hmem⟩
    · exact absurd (List.mem_singleton.mp hmem) (by decide)
    · rcases List.mem_append.mp ht with ht | ht
      · exact (hex_of_group (hsegs t ht)).notMem (by decide) hmem
      · rcases tail_chars htail t ht _ hmem with hmem | hmem
        · exact absurd hmem (by decide)
        · exact absurd hmem (by decide)
  cases h with
  | full hsegs htail _ => exact hjoin hsegs htail
  | @gap left _ _ _ hleft hright htail _ =>
    have hl := hjoin hleft .none
    rw [List.append_nil] at hl
    simp [hl,hjoin hright htail]

lemma takeWhile_address {s zone : List Char} (hs : '%' ∉ s) (hz : Zone zone) :
    (s ++ zone).takeWhile (· ≠ '%') = s := by
  have hplain : ∀ c ∈ s, decide (c ≠ '%') = true := fun c hc =>
    decide_eq_true (ne_of_mem_of_not_mem hc hs)
  rw [List.takeWhile_append_of_pos hplain]
  rcases hz with rfl | ⟨name,rfl,-⟩
  · rw [List.takeWhile_nil,List.append_nil]
  · rw [List.takeWhile_cons_of_neg (by simp),List.append_nil]

/-- The number of a spelling is what it stands for. -/
lemma ipv6Number_text {s : List Char} {n : ℕ} (h : Ipv6Text s n) : ipv6Number s = some n := by
  obtain ⟨hgroups,hz⟩ := h
  obtain ⟨normalized,hnormalize,hnormal⟩ := normalize_groups hgroups
  obtain ⟨parts,hparts,hhex,hvalues⟩ := groupsOf_normal hnormal
  rw [ipv6Number,takeWhile_address (groups_chars hgroups) hz,hnormalize]
  simp only [Option.bind_eq_bind,Option.bind_some,hparts]
  rw [foldlM_bigInt hhex,hvalues]
  rfl

lemma hexValue_lt {s : List Char} (h : Group s) : hexValue s < 65536 := by
  have hdigit : ∀ c ∈ hexDigits, hexDigit c < 16 := forall_of_all (by decide)
  have hfold : ∀ (t : List Char) (n : ℕ), (∀ c ∈ t, c ∈ hexDigits) →
      t.foldl (fun n c => n * 16 + hexDigit c) n < (n + 1) * 16 ^ t.length := by
    intro t
    induction t with
    | nil => simp
    | cons c t ih =>
      intro n ht
      have hc := hdigit c (ht c List.mem_cons_self)
      refine (ih _ fun d hd => ht d (List.mem_cons_of_mem _ hd)).trans_le ?_
      rw [List.length_cons,pow_succ',← mul_assoc]
      exact Nat.mul_le_mul_right _ (by dsimp only; omega)
  refine (hfold s 0 h.hex).trans_le ?_
  rw [Nat.zero_add,one_mul]
  exact Nat.pow_le_pow_right (by decide) h.length

lemma groupsValue_lt {groups : List ℕ} (h : ∀ g ∈ groups, g < 65536) (n : ℕ) :
    groups.foldl (fun n group => n * 65536 + group) n < (n + 1) * 65536 ^ groups.length := by
  induction groups generalizing n with
  | nil => simp
  | cons g groups ih =>
    have hg := h g List.mem_cons_self
    refine (ih (fun k hk => h k (List.mem_cons_of_mem _ hk)) _).trans_le ?_
    rw [List.length_cons,pow_succ',← mul_assoc]
    exact Nat.mul_le_mul_right _ (by dsimp only; omega)

lemma ipv6Text_lt {s : List Char} {n : ℕ} (h : Ipv6Text s n) : n < 2 ^ 128 := by
  obtain ⟨hgroups,-⟩ := h
  have htail {tail : List (List Char)} {values : List ℕ} (ht : Tail tail values) :
      ∀ g ∈ values, g < 65536 := by
    cases ht with
    | none => exact List.forall_mem_nil _
    | ipv4 hv =>
      have hlt := (ipv4Number_text hv).1
      exact List.forall_mem_cons.mpr ⟨by omega,List.forall_mem_singleton.mpr (Nat.mod_lt _ (by decide))⟩
  have hmap {segs : List (List Char)} (hsegs : ∀ t ∈ segs, Group t) :
      ∀ g ∈ segs.map hexValue, g < 65536 :=
    List.forall_mem_map.mpr fun t ht => hexValue_lt (hsegs t ht)
  cases hgroups with
  | @full segs _ values hsegs ht hlength =>
    have hlt := groupsValue_lt (List.forall_mem_append.mpr ⟨hmap hsegs,htail ht⟩) 0
    rw [List.length_append,List.length_map,hlength] at hlt
    exact hlt
  | @gap left right _ values hleft hright ht hlength =>
    have hzero : ∀ g ∈ List.replicate (8 - (left.length + (right.length + values.length))) 0,
        g < 65536 := fun g hg => by
      rw [List.eq_of_mem_replicate hg]
      decide
    have hlt := groupsValue_lt (List.forall_mem_append.mpr ⟨hmap hleft,List.forall_mem_append.mpr
      ⟨hzero,List.forall_mem_append.mpr ⟨hmap hright,htail ht⟩⟩⟩) 0
    simp only [List.length_append,List.length_map,List.length_replicate] at hlt
    rw [show left.length + (8 - (left.length + (right.length + values.length)) +
      (right.length + values.length)) = 8 by omega] at hlt
    exact hlt

/-! ### Lower case -/

lemma map_join (f : Char → Char) (c : Char) (parts : List (List Char)) :
    (join [c] parts).map f = join [f c] (parts.map (List.map f)) := by
  induction parts with
  | nil => rfl
  | cons s parts ih =>
    by_cases hne : parts = []
    · subst hne
      simp
    · rw [join_cons hne,List.map_cons,join_cons (by simpa using hne),List.map_append,List.map_append,ih]
      rfl

lemma lower_hex : ∀ c ∈ hexDigits, c.toLower ∈ hexDigits ∧ hexDigit c.toLower = hexDigit c :=
  forall_of_all (by decide)

lemma lower_group {s : List Char} (h : Group s) :
    Group (s.map Char.toLower) ∧ hexValue (s.map Char.toLower) = hexValue s := by
  refine ⟨⟨by simpa using h.ne_nil,by simpa using h.length,?_⟩,?_⟩
  · exact List.forall_mem_map.mpr fun c hc => (lower_hex c (h.hex c hc)).1
  · rw [hexValue,hexValue,List.foldl_map]
    exact List.foldl_ext _ _ _ fun n c hc => by rw [(lower_hex c (h.hex c hc)).2]

lemma lower_plain {s : List Char} (h : ∀ c ∈ s, c = '.' ∨ c ∈ digits) : s.map Char.toLower = s := by
  have hdigit : ∀ c ∈ digits, c.toLower = c := forall_of_all (by decide)
  refine (List.map_congr_left fun c hc => ?_).trans (List.map_id s)
  rcases h c hc with rfl | hc
  · rfl
  · exact hdigit c hc

lemma lower_segs {segs : List (List Char)} (h : ∀ s ∈ segs, Group s) :
    (∀ s ∈ segs.map (List.map Char.toLower), Group s) ∧
      (segs.map (List.map Char.toLower)).map hexValue = segs.map hexValue := by
  refine ⟨List.forall_mem_map.mpr fun s hs => (lower_group (h s hs)).1,?_⟩
  rw [List.map_map]
  exact List.map_congr_left fun s hs => (lower_group (h s hs)).2

lemma lower_tail {tail : List (List Char)} {values : List ℕ} (h : Tail tail values) :
    tail.map (List.map Char.toLower) = tail :=
  (List.map_congr_left fun s hs => lower_plain (tail_chars h s hs)).trans (List.map_id tail)

lemma lower_groups {s : List Char} {groups : List ℕ} (h : Ipv6Groups s groups) :
    Ipv6Groups (s.map Char.toLower) groups := by
  cases h with
  | @full segs tail values hsegs htail hlength =>
    obtain ⟨hgroup,hvalue⟩ := lower_segs hsegs
    rw [map_join,List.map_append,lower_tail htail,← hvalue]
    exact .full hgroup htail (by rwa [List.length_map])
  | @gap left right tail values hleft hright htail hlength =>
    obtain ⟨hgroup,hvalue⟩ := lower_segs hleft
    obtain ⟨hgroup',hvalue'⟩ := lower_segs hright
    have hl : (left.map (List.map Char.toLower)).length = left.length := List.length_map _
    have hr : (right.map (List.map Char.toLower)).length = right.length := List.length_map _
    rw [List.map_append,List.map_cons,List.map_cons,map_join,map_join,List.map_append,lower_tail htail,
      ← hvalue,← hvalue',← hl,← hr]
    exact .gap hgroup hgroup' htail (by rwa [hl,hr])

lemma lower_zone {s : List Char} (h : Zone s) : Zone (s.map Char.toLower) := by
  have hzone : ∀ c ∈ zoneChars, c.toLower ∈ zoneChars := forall_of_all (by decide)
  rcases h with rfl | ⟨name,rfl,hne,hname⟩
  · exact .inl rfl
  · exact .inr ⟨name.map Char.toLower,rfl,by simpa using hne,
      List.forall_mem_map.mpr fun c hc => hzone c (hname c hc)⟩

lemma lower_ipv6Text {s : List Char} {n : ℕ} (h : Ipv6Text s n) : Ipv6Text (s.map Char.toLower) n := by
  obtain ⟨hgroups,hz⟩ := h
  rw [List.map_append]
  exact .mk (lower_groups hgroups) (lower_zone hz)

/-! ### Ranges -/

/-- Two numbers of a width that agree in their first bits. -/
def SamePrefix (width bits n m : ℕ) : Prop := n / 2 ^ (width - bits) = m / 2 ^ (width - bits)

instance (width bits n m : ℕ) : Decidable (SamePrefix width bits n m) :=
  inferInstanceAs (Decidable (_ = _))

/-- An IPv4 address outside of the listed ranges. -/
def PublicIpv4 (n : ℕ) : Prop :=
  ∀ range ∈ ipv4Ranges, ∀ m, Ipv4Text range.1.toList m → ¬SamePrefix 32 range.2 n m

/-- An IPv6 address with an IPv4 address in its last 32 bits: one mapped or translated. -/
def Embeds (n : ℕ) : Prop :=
  ∃ base ∈ ["::ffff:0:0","64:ff9b::"], ∃ m, Ipv6Text base.toList m ∧ SamePrefix 128 96 n m

/-- An IPv6 address outside of the listed ranges. -/
def OutsideIpv6 (n : ℕ) : Prop :=
  ∀ range ∈ ipv6Ranges, ∀ m, Ipv6Text range.1.toList m → ¬SamePrefix 128 range.2 n m

lemma mask_eq_iff {x y : BitVec 32} {k : ℕ} :
    x &&& (0xffffffff#32 <<< k) = y &&& (0xffffffff#32 <<< k) ↔ x.toNat / 2 ^ k = y.toNat / 2 ^ k := by
  have hshift (z : BitVec 32) : z.toNat / 2 ^ k = (z >>> k).toNat := by
    rw [BitVec.toNat_ushiftRight,Nat.shiftRight_eq_div_pow]
  rw [hshift,hshift,← BitVec.toNat_eq]
  have hones (i : ℕ) (hi : i < 32) : (0xffffffff#32 <<< k).getLsbD i = decide (k ≤ i) := by
    have hall : (0xffffffff#32) = BitVec.allOnes 32 := rfl
    rw [BitVec.getLsbD_shiftLeft,hall,BitVec.getLsbD_allOnes]
    by_cases hk : i < k
    · simp [hk,hi]
    · have hlt : i - k < 32 := by omega
      simp [hk,hi,hlt,not_lt.mp hk]
  constructor
  · intro h
    refine BitVec.eq_of_getLsbD_eq fun i hi => ?_
    have hbit := congrArg (fun z => z.getLsbD (k + i)) h
    rw [BitVec.getLsbD_ushiftRight,BitVec.getLsbD_ushiftRight]
    simp only [BitVec.getLsbD_and] at hbit
    by_cases hlt : k + i < 32
    · rw [hones _ hlt] at hbit
      simpa using hbit
    · rw [BitVec.getLsbD_of_ge _ _ (not_lt.mp hlt),BitVec.getLsbD_of_ge _ _ (not_lt.mp hlt)]
  · intro h
    refine BitVec.eq_of_getLsbD_eq fun i hi => ?_
    rw [BitVec.getLsbD_and,BitVec.getLsbD_and,hones i hi]
    by_cases hk : k ≤ i
    · have hbit := congrArg (fun z => z.getLsbD (i - k)) h
      simp only [BitVec.getLsbD_ushiftRight,Nat.add_sub_cancel' hk] at hbit
      rw [hbit]
    · simp [hk]

lemma inIpv4Range_spec {n m bits : ℕ} {base : List Char} (hn : n < 2 ^ 32) (hbase : Ipv4Text base m)
    (hbits : bits ≠ 0) :
    inIpv4Range (BitVec.ofNat 32 n) base bits = some (decide (SamePrefix 32 bits n m)) := by
  obtain ⟨hm,hnumber⟩ := ipv4Number_text hbase
  rw [inIpv4Range,hnumber,if_neg hbits,Option.map_some]
  refine congrArg some (decide_eq_decide.mpr ?_)
  rw [mask_eq_iff,BitVec.toNat_ofNat,BitVec.toNat_ofNat,Nat.mod_eq_of_lt hn,Nat.mod_eq_of_lt hm]
  rfl

lemma inIpv6Range_spec {n m bits : ℕ} {base : List Char} (hbase : Ipv6Text base m) :
    inIpv6Range n base bits = some (decide (SamePrefix 128 bits n m)) := by
  rw [inIpv6Range,ipv6Number_text hbase,Option.map_some,Nat.shiftRight_eq_div_pow,
    Nat.shiftRight_eq_div_pow]
  rfl

lemma dotted_text {s : List Char} (hlength : (s.splitOn '.').length = 4)
    (hoctets : ∀ part ∈ s.splitOn '.', isOctet part = true) : ∃ m, Ipv4Text s m := by
  have hjoin : join ['.'] (s.splitOn '.') = s := List.intercalate_splitOn '.'
  obtain ⟨a,b,c,d,hparts⟩ := List.length_eq_four.mp hlength
  rw [hparts] at hoctets hjoin
  simp only [List.forall_mem_cons] at hoctets
  obtain ⟨ha,hb,hc,hd,-⟩ := hoctets
  obtain ⟨na,rfl⟩ := octet_of_isOctet ha
  obtain ⟨nb,rfl⟩ := octet_of_isOctet hb
  obtain ⟨nc,rfl⟩ := octet_of_isOctet hc
  obtain ⟨nd,rfl⟩ := octet_of_isOctet hd
  exact ⟨_,hjoin ▸ Ipv4Text.mk na nb nc nd⟩

/-- The bases of the ranges are addresses. -/
lemma ipv4Ranges_text : ∀ range ∈ ipv4Ranges, range.2 ≠ 0 ∧ ∃ m, Ipv4Text range.1.toList m := by
  have hbases : ∀ range ∈ ipv4Ranges, range.2 ≠ 0 ∧ (range.1.toList.splitOn '.').length = 4 ∧
      ∀ part ∈ range.1.toList.splitOn '.', isOctet part = true := by decide +kernel
  intro range hr
  obtain ⟨hwidth,hlength,hoctets⟩ := hbases range hr
  exact ⟨hwidth,dotted_text hlength hoctets⟩

/-- Groups around a gap. -/
lemma gap_text {left right : List (List Char)} (hleft : left.all isGroup = true)
    (hright : right.all isGroup = true) (hlength : left.length + right.length ≤ 7) :
    ∃ m, Ipv6Text (join [':'] left ++ ':' :: ':' :: join [':'] right) m := by
  have h := Ipv6Groups.gap (fun s hs => group_of_isGroup (List.all_eq_true.mp hleft s hs))
    (fun s hs => group_of_isGroup (List.all_eq_true.mp hright s hs)) .none (by simpa using hlength)
  rw [List.append_nil] at h
  exact ⟨_,List.append_nil _ ▸ Ipv6Text.mk h (.inl rfl)⟩

lemma ipv6Ranges_text : ∀ range ∈ ipv6Ranges, ∃ m, Ipv6Text range.1.toList m := by
  have hbases : (ipv6Ranges.all fun range =>
      [[],["64".toList,"ff9b".toList,"1".toList],["100".toList],["2001".toList],
        ["2001".toList,"db8".toList],["2002".toList],["3fff".toList],["fc00".toList],["fe80".toList],
        ["ff00".toList]].any fun left => (range.1.toList = join [':'] left ++ [':',':']) &&
          (left.all isGroup && left.length ≤ 7)) = true := by decide +kernel
  intro range hr
  obtain ⟨left,-,hbase⟩ := List.any_eq_true.mp (List.all_eq_true.mp hbases range hr)
  obtain ⟨htext,hgroups⟩ := Bool.and_eq_true_iff.mp hbase
  obtain ⟨hleft,hlength⟩ := Bool.and_eq_true_iff.mp hgroups
  rw [of_decide_eq_true htext]
  have hright : ([] : List (List Char)).all isGroup = true := rfl
  exact gap_text hleft hright (of_decide_eq_true hlength)

lemma anyM_spec {α : Type} {l : List α} {f : α → Option Bool} {P : α → Prop}
    (h : ∀ x ∈ l, ∃ b, f x = some b ∧ (b = true ↔ P x)) :
    ∃ b, l.anyM f = some b ∧ (b = true ↔ ∃ x ∈ l, P x) := by
  induction l with
  | nil => exact ⟨false,rfl,by simp⟩
  | cons x l ih =>
    obtain ⟨b,hb,hiff⟩ := h x List.mem_cons_self
    obtain ⟨b',hb',hiff'⟩ := ih fun y hy => h y (List.mem_cons_of_mem _ hy)
    rw [List.anyM_cons,hb]
    cases b with
    | true => exact ⟨true,rfl,by simp [← hiff]⟩
    | false =>
      have hno : ¬P x := fun hx => Bool.false_ne_true (hiff.mpr hx)
      exact ⟨b',hb',by simp [hiff',hno]⟩

lemma isPublicIpv4_spec {n : ℕ} (hn : n < 2 ^ 32) :
    ∃ b, isPublicIpv4 (BitVec.ofNat 32 n) = some b ∧ (b = true ↔ PublicIpv4 n) := by
  obtain ⟨b,hb,hiff⟩ := anyM_spec (l := ipv4Ranges)
    (f := fun range => inIpv4Range (BitVec.ofNat 32 n) range.1.toList range.2)
    (P := fun range => ∃ m, Ipv4Text range.1.toList m ∧ SamePrefix 32 range.2 n m) (by
      intro range hr
      obtain ⟨hbits,m,hm⟩ := ipv4Ranges_text range hr
      refine ⟨_,inIpv4Range_spec hn hm hbits,decide_eq_true_iff.trans ⟨fun h => ⟨m,hm,h⟩,?_⟩⟩
      rintro ⟨m',hm',h⟩
      have hnumber := (ipv4Number_text hm).2.symm.trans (ipv4Number_text hm').2
      have heq := congrArg BitVec.toNat (Option.some.inj hnumber)
      rw [BitVec.toNat_ofNat,BitVec.toNat_ofNat,Nat.mod_eq_of_lt (ipv4Number_text hm).1,
        Nat.mod_eq_of_lt (ipv4Number_text hm').1] at heq
      rwa [heq])
  refine ⟨!b,by rw [isPublicIpv4,hb]; rfl,?_⟩
  rw [Bool.not_eq_true',← Bool.not_eq_true,hiff,PublicIpv4]
  push Not
  rfl

lemma ipv6Text_unique {s : List Char} {n m : ℕ} (hn : Ipv6Text s n) (hm : Ipv6Text s m) : n = m :=
  Option.some.inj ((ipv6Number_text hn).symm.trans (ipv6Number_text hm))

lemma inIpv6Range_iff (n bits : ℕ) {base : List Char} (hbase : ∃ m, Ipv6Text base m) :
    ∃ b, inIpv6Range n base bits = some b ∧
      (b = true ↔ ∃ m, Ipv6Text base m ∧ SamePrefix 128 bits n m) := by
  obtain ⟨m,hm⟩ := hbase
  refine ⟨_,inIpv6Range_spec hm,decide_eq_true_iff.trans ⟨fun h => ⟨m,hm,h⟩,?_⟩⟩
  rintro ⟨m',hm',h⟩
  rwa [ipv6Text_unique hm hm']

/-- The verdict on an IPv4 address. -/
lemma isPublicAddress_ipv4 {s : List Char} {n : ℕ} (hs : isIP s = 4) (h : Ipv4Text s n) :
    isPublicAddress s = isPublicIpv4 (BitVec.ofNat 32 n) := by
  rw [isPublicAddress,if_pos hs,(ipv4Number_text h).2]
  rfl

lemma embedding_texts : ∀ base ∈ ["::ffff:0:0","64:ff9b::"], ∃ m, Ipv6Text base.toList m := by
  have hmapped : "::ffff:0:0".toList =
      join [':'] [] ++ ':' :: ':' :: join [':'] ["ffff".toList,['0'],['0']] := by decide +kernel
  have htranslated : "64:ff9b::".toList =
      join [':'] ["64".toList,"ff9b".toList] ++ ':' :: ':' :: join [':'] [] := by decide +kernel
  refine List.forall_mem_cons.mpr ⟨?_,List.forall_mem_singleton.mpr ?_⟩
  · rw [hmapped]
    exact gap_text rfl (by decide +kernel) (by decide)
  · rw [htranslated]
    exact gap_text (by decide +kernel) rfl (by decide)

/-- The verdict on an IPv6 address. -/
lemma isPublicAddress_ipv6 {s : List Char} {n : ℕ} (hs : isIP s = 6) (h : Ipv6Text s n) :
    (Embeds n → isPublicAddress s = isPublicIpv4 (BitVec.ofNat 32 (n % 2 ^ 32))) ∧
    (¬Embeds n → ∃ b, isPublicAddress s = some b ∧ (b = true ↔ OutsideIpv6 n)) := by
  have hlow : n &&& 0xffffffff = n % 2 ^ 32 := Nat.and_two_pow_sub_one_eq_mod n 32
  obtain ⟨mapped,hmapped,hmiff⟩ := inIpv6Range_iff n 96
    (embedding_texts "::ffff:0:0" (by decide))
  obtain ⟨translated,htranslated,htiff⟩ := inIpv6Range_iff n 96
    (embedding_texts "64:ff9b::" (by decide))
  have hembeds : (mapped || translated) = true ↔ Embeds n := by
    rw [Bool.or_eq_true,hmiff,htiff,Embeds]
    simp
  have heval : isPublicAddress s = if mapped || translated then
      isPublicIpv4 (BitVec.ofNat 32 (n % 2 ^ 32))
      else (ipv6Ranges.anyM fun range => inIpv6Range n range.1.toList range.2).map not := by
    rw [isPublicAddress,hs,if_neg (by decide),if_neg (by decide),
      ipv6Number_text (lower_ipv6Text h)]
    simp only [Option.bind_eq_bind,Option.bind_some,hmapped,htranslated,hlow]
  refine ⟨fun he => by rw [heval,if_pos (hembeds.mpr he)],fun he => ?_⟩
  obtain ⟨b,hb,hiff⟩ := anyM_spec fun range hr =>
    inIpv6Range_iff n range.2 (ipv6Ranges_text range hr)
  refine ⟨!b,by rw [heval,if_neg (mt hembeds.mp he),hb]; rfl,?_⟩
  rw [Bool.not_eq_true',← Bool.not_eq_true,hiff,OutsideIpv6]
  push Not
  rfl

/-- The addresses that embed one lie in no listed IPv6 range. -/
lemma outside_of_embeds {n : ℕ} (h : Embeds n) : OutsideIpv6 n := by
  obtain ⟨base,hbase,m,hm,hsame⟩ := h
  intro range hr k hk hin
  have happart : ∀ range ∈ ipv6Ranges, range.2 ≤ 96 ∧ ∀ base ∈ ["::ffff:0:0","64:ff9b::"],
      ∀ k ∈ ipv6Number range.1.toList, ∀ m ∈ ipv6Number base.toList,
        k / 2 ^ (128 - range.2) ≠ m / 2 ^ (128 - range.2) := by decide +kernel
  obtain ⟨hle,hne⟩ := happart range hr
  have hpow : 2 ^ (128 - range.2) = 2 ^ (128 - 96) * 2 ^ (96 - range.2) := by
    rw [← pow_add]
    congr 1
    omega
  have hprefix : n / 2 ^ (128 - range.2) = m / 2 ^ (128 - range.2) := by
    rw [hpow,← Nat.div_div_eq_div_mul,← Nat.div_div_eq_div_mul,hsame]
  exact hne base hbase k (ipv6Number_text hk) m (ipv6Number_text hm) (hin.symm.trans hprefix)

/-- Every spelling of an address is read as its number, on which the verdict depends alone: false in
the listed ranges, and that of the embedded IPv4 address where one is mapped or translated. -/
theorem address_screening :
    (∀ s, isIP s = 4 → ∃ n, n < 2 ^ 32 ∧ Ipv4Text s n ∧ ipv4Number s = some (BitVec.ofNat 32 n) ∧
      ∃ b, isPublicAddress s = some b ∧ (b = true ↔ PublicIpv4 n)) ∧
    (∀ s, isIP s = 6 → ∃ n, n < 2 ^ 128 ∧ Ipv6Text s n ∧ ipv6Number s = some n ∧
      ipv6Number (s.map Char.toLower) = some n ∧
      ∃ b, isPublicAddress s = some b ∧ (b = true → OutsideIpv6 n) ∧
        (Embeds n → (b = true ↔ PublicIpv4 (n % 2 ^ 32))) ∧ (¬Embeds n → (b = true ↔ OutsideIpv6 n))) ∧
    ∀ s t n, isIP s = 6 → isIP t = 4 → Ipv6Text s n → Embeds n → Ipv4Text t (n % 2 ^ 32) →
      isPublicAddress s = isPublicAddress t := by
  refine ⟨fun s hs => ?_,fun s hs => ?_,fun s t n hs ht hn he hm => ?_⟩
  · obtain ⟨n,hn⟩ := ipv4Text_of_isIP hs
    obtain ⟨hlt,hnumber⟩ := ipv4Number_text hn
    refine ⟨n,hlt,hn,hnumber,?_⟩
    rw [isPublicAddress_ipv4 hs hn]
    exact isPublicIpv4_spec hlt
  · obtain ⟨n,hn⟩ := ipv6Text_of_isIP hs
    refine ⟨n,ipv6Text_lt hn,hn,ipv6Number_text hn,ipv6Number_text (lower_ipv6Text hn),?_⟩
    obtain ⟨hembeds,hother⟩ := isPublicAddress_ipv6 hs hn
    by_cases he : Embeds n
    · obtain ⟨b,hb,hiff⟩ := isPublicIpv4_spec (Nat.mod_lt n (Nat.two_pow_pos 32))
      exact ⟨b,(hembeds he).trans hb,fun _ => outside_of_embeds he,fun _ => hiff,
        fun hno => absurd he hno⟩
    · obtain ⟨b,hb,hiff⟩ := hother he
      exact ⟨b,hb,hiff.mp,fun h => absurd h he,fun _ => hiff⟩
  · rw [(isPublicAddress_ipv6 hs hn).1 he,isPublicAddress_ipv4 ht hm]

section Instances

/-- A loopback address and the IPv6 address that it is mapped to are screened by the number of the
first, and alike. -/
theorem address_screening_loopback :
    (∃ b, isPublicAddress "127.0.0.1".toList = some b ∧ (b = true ↔ PublicIpv4 2130706433)) ∧
    (∃ b, isPublicAddress "::ffff:127.0.0.1".toList = some b ∧ (b = true ↔ PublicIpv4 2130706433)) ∧
    isPublicAddress "::ffff:127.0.0.1".toList = isPublicAddress "127.0.0.1".toList := by
  have hs : isIP "::ffff:127.0.0.1".toList = 6 := by decide +kernel
  have ht : isIP "127.0.0.1".toList = 4 := by decide +kernel
  have hsnumber : ipv6Number "::ffff:127.0.0.1".toList = some 281472812449793 := by decide +kernel
  have htnumber : ipv4Number "127.0.0.1".toList = some (BitVec.ofNat 32 2130706433) := by decide +kernel
  obtain ⟨hv4,hv6,hsame⟩ := address_screening
  obtain ⟨m,hm,htext',hm',hpublic'⟩ := hv4 _ ht
  obtain ⟨n,-,htext,hn,-,b,hb,-,hmapped,-⟩ := hv6 _ hs
  obtain rfl : 281472812449793 = n := Option.some.inj (hsnumber.symm.trans hn)
  have hmod : 2130706433 = m := by
    have hofNat := congrArg BitVec.toNat (Option.some.inj (htnumber.symm.trans hm'))
    rwa [BitVec.toNat_ofNat,BitVec.toNat_ofNat,Nat.mod_eq_of_lt hm] at hofNat
  subst hmod
  have hembeds : Embeds 281472812449793 := by
    have hnumber : ipv6Number "::ffff:0:0".toList = some 281470681743360 := by decide +kernel
    obtain ⟨k,hk⟩ := embedding_texts "::ffff:0:0" List.mem_cons_self
    obtain rfl : 281470681743360 = k := Option.some.inj (hnumber.symm.trans (ipv6Number_text hk))
    exact ⟨_,List.mem_cons_self,_,hk,by decide⟩
  exact ⟨hpublic',⟨b,hb,hmapped hembeds⟩,hsame _ _ _ hs ht htext hembeds htext'⟩

end Instances

end Linea.WebhookAddresses
