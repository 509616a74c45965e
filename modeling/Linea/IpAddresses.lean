import Linea.Separators
import Mathlib.Computability.RegularExpressions

/-! What `net.isIP` takes for an address: the regular expressions of Node's `net` module, and the
spellings of IPv4 and IPv6 addresses with the numbers that they stand for. -/
namespace Linea.IpAddresses
open Separators RegularExpression

/-- A property of characters that a list is checked for. -/
lemma forall_of_all {l : List Char} {P : Char → Prop} [DecidablePred P]
    (h : (l.all fun c => decide (P c)) = true) : ∀ c ∈ l, P c :=
  fun c hc => of_decide_eq_true (List.all_eq_true.mp h c hc)

/-! ### Patterns -/

section Patterns
variable {α : Type}

/-- A character class. -/
def oneOf : List α → RegularExpression α
  | [] => 0
  | a :: l => char a + oneOf l

/-- `P{0,n}` -/
def upTo (P : RegularExpression α) : ℕ → RegularExpression α
  | 0 => 1
  | n + 1 => upTo P n + P ^ (n + 1)

/-- `P{1,n}` -/
def between (P : RegularExpression α) (n : ℕ) : RegularExpression α := P * upTo P (n - 1)

lemma mem_oneOf {l x : List α} : x ∈ (oneOf l).matches' ↔ ∃ a ∈ l, x = [a] := by
  induction l with
  | nil => exact ⟨fun h => absurd h (Language.notMem_zero x),fun ⟨a,ha,_⟩ => nomatch ha⟩
  | cons a l ih =>
    rw [oneOf,matches'_add,Language.mem_add,ih,matches'_char]
    simp only [List.mem_cons,exists_eq_or_imp]
    rfl

lemma mem_pow {P : RegularExpression α} {n : ℕ} {x : List α} (h : x ∈ (P ^ n).matches') :
    ∃ parts : List (List α), parts.length = n ∧ (∀ s ∈ parts, s ∈ P.matches') ∧ x = parts.flatten := by
  rw [matches'_pow,Language.mem_pow] at h
  obtain ⟨parts,rfl,hlength,hparts⟩ := h
  exact ⟨parts,hlength,hparts,rfl⟩

lemma mem_upTo {P : RegularExpression α} {n : ℕ} {x : List α} (h : x ∈ (upTo P n).matches') :
    ∃ parts : List (List α), parts.length ≤ n ∧ (∀ s ∈ parts, s ∈ P.matches') ∧ x = parts.flatten := by
  induction n with
  | zero =>
    obtain rfl : x = [] := h
    exact ⟨[],le_rfl,List.forall_mem_nil _,rfl⟩
  | succ n ih =>
    rw [upTo,matches'_add,Language.mem_add] at h
    rcases h with h | h
    · obtain ⟨parts,hlength,hparts,rfl⟩ := ih h
      exact ⟨parts,hlength.trans (Nat.le_succ n),hparts,rfl⟩
    · obtain ⟨parts,hlength,hparts,rfl⟩ := mem_pow h
      exact ⟨parts,hlength.le,hparts,rfl⟩

lemma mem_between {P : RegularExpression α} {n : ℕ} (hn : 1 ≤ n) {x : List α}
    (h : x ∈ (between P n).matches') : ∃ parts : List (List α), parts ≠ [] ∧ parts.length ≤ n ∧
      (∀ s ∈ parts, s ∈ P.matches') ∧ x = parts.flatten := by
  rw [between,matches'_mul,Language.mem_mul] at h
  obtain ⟨s,hs,t,ht,rfl⟩ := h
  obtain ⟨parts,hlength,hparts,rfl⟩ := mem_upTo ht
  refine ⟨s :: parts,List.cons_ne_nil _ _,?_,List.forall_mem_cons.mpr ⟨hs,hparts⟩,rfl⟩
  rw [List.length_cons]
  omega

end Patterns

/-! ### `net.isIP` -/

def digits : List Char := "0123456789".toList

def hexDigits : List Char := "0123456789abcdefABCDEF".toList

def zoneChars : List Char :=
  "0123456789abcdefghijklmnopqrstuvwxyzABCDEFGHIJKLMNOPQRSTUVWXYZ-.:".toList

/-- `25[0-5]|2[0-4]\d|1\d\d|[1-9]\d|\d` -/
def v4Seg : RegularExpression Char :=
  char '2' * char '5' * oneOf "012345".toList + char '2' * oneOf "01234".toList * oneOf digits +
    char '1' * oneOf digits * oneOf digits + oneOf "123456789".toList * oneOf digits + oneOf digits

/-- `(?:v4Seg\.){3}v4Seg` -/
def v4Str : RegularExpression Char := (v4Seg * char '.') ^ 3 * v4Seg

/-- `[0-9a-fA-F]{1,4}` -/
def v6Seg : RegularExpression Char := between (oneOf hexDigits) 4

def colon : RegularExpression Char := char ':'

/-- The addresses without a zone, by the number of groups that are read before the choice. -/
def v6Address : RegularExpression Char :=
  (v6Seg * colon) ^ 7 * (v6Seg + colon) +
  (v6Seg * colon) ^ 6 * (v4Str + colon * v6Seg + colon) +
  (v6Seg * colon) ^ 5 * (colon * v4Str + between (colon * v6Seg) 2 + colon) +
  (v6Seg * colon) ^ 4 * (upTo (colon * v6Seg) 1 * (colon * v4Str) + between (colon * v6Seg) 3 + colon) +
  (v6Seg * colon) ^ 3 * (upTo (colon * v6Seg) 2 * (colon * v4Str) + between (colon * v6Seg) 4 + colon) +
  (v6Seg * colon) ^ 2 * (upTo (colon * v6Seg) 3 * (colon * v4Str) + between (colon * v6Seg) 5 + colon) +
  (v6Seg * colon) ^ 1 * (upTo (colon * v6Seg) 4 * (colon * v4Str) + between (colon * v6Seg) 6 + colon) +
  colon * (upTo (colon * v6Seg) 5 * (colon * v4Str) + between (colon * v6Seg) 7 + colon)

/-- `%[0-9a-zA-Z-.:]{1,}` -/
def v6Zone : RegularExpression Char := char '%' * (oneOf zoneChars * (oneOf zoneChars).star)

def isIP (address : List Char) : ℕ :=
  if v4Str.rmatch address then 4
  else if (v6Address * (v6Zone + 1)).rmatch address then 6
  else 0

/-! ### Spellings -/

/-- The decimal text of an octet, without leading zeros. -/
def octetText (n : Fin 256) : List Char := Nat.toDigits 10 n

/-- The spelling of a 32-bit number by four octets. -/
inductive Ipv4Text : List Char → ℕ → Prop
  | mk (a b c d : Fin 256) : Ipv4Text (join ['.'] [octetText a,octetText b,octetText c,octetText d])
      (((a * 256 + b) * 256 + c) * 256 + d)

def hexDigit (c : Char) : ℕ :=
  if c.toNat < 58 then c.toNat - 48 else if c.toNat < 71 then c.toNat - 55 else c.toNat - 87

def hexValue (s : List Char) : ℕ := s.foldl (fun n c => n * 16 + hexDigit c) 0

/-- One to four hexadecimal digits. -/
structure Group (s : List Char) : Prop where
  ne_nil : s ≠ []
  length : s.length ≤ 4
  hex : ∀ c ∈ s, c ∈ hexDigits

/-- The end of an address: nothing, or an embedded IPv4 address in the place of two groups. -/
inductive Tail : List (List Char) → List ℕ → Prop
  | none : Tail [] []
  | ipv4 {s : List Char} {n : ℕ} (h : Ipv4Text s n) : Tail [s] [n / 65536,n % 65536]

/-- The eight groups that a text stands for; `::` stands for the zero groups left out. -/
inductive Ipv6Groups : List Char → List ℕ → Prop
  | full {segs tail : List (List Char)} {values : List ℕ} (hsegs : ∀ s ∈ segs, Group s)
    (htail : Tail tail values) (hlength : segs.length + values.length = 8) :
    Ipv6Groups (join [':'] (segs ++ tail)) (segs.map hexValue ++ values)
  | gap {left right tail : List (List Char)} {values : List ℕ} (hleft : ∀ s ∈ left, Group s)
    (hright : ∀ s ∈ right, Group s) (htail : Tail tail values)
    (hlength : left.length + (right.length + values.length) ≤ 7) :
    Ipv6Groups (join [':'] left ++ ':' :: ':' :: join [':'] (right ++ tail))
      (left.map hexValue ++ (List.replicate (8 - (left.length + (right.length + values.length))) 0 ++
        (right.map hexValue ++ values)))

/-- Nothing, or the name of a zone. -/
def Zone (s : List Char) : Prop :=
  s = [] ∨ ∃ name, s = '%' :: name ∧ name ≠ [] ∧ ∀ c ∈ name, c ∈ zoneChars

def groupsValue (groups : List ℕ) : ℕ := groups.foldl (fun n group => n * 65536 + group) 0

/-- The spelling of a 128-bit number. -/
inductive Ipv6Text : List Char → ℕ → Prop
  | mk {address zone : List Char} {groups : List ℕ} (h : Ipv6Groups address groups) (hz : Zone zone) :
    Ipv6Text (address ++ zone) (groupsValue groups)

/-- The digits of an octet, as its text has them. -/
def isOctet (s : List Char) : Bool :=
  let n := Nat.ofDigitChars 10 s 0
  n < 256 && Nat.toDigits 10 n = s

lemma octet_of_isOctet {s : List Char} (h : isOctet s = true) : ∃ n : Fin 256, s = octetText n := by
  obtain ⟨hlt,htext⟩ := Bool.and_eq_true_iff.mp h
  exact ⟨⟨_,of_decide_eq_true hlt⟩,(of_decide_eq_true htext).symm⟩

/-- A group, decided. -/
def isGroup (s : List Char) : Bool := !s.isEmpty && s.length ≤ 4 && s.all hexDigits.contains

lemma group_of_isGroup {s : List Char} (h : isGroup s = true) : Group s := by
  obtain ⟨hshort,hhex⟩ := Bool.and_eq_true_iff.mp h
  obtain ⟨hne,hlength⟩ := Bool.and_eq_true_iff.mp hshort
  refine ⟨fun hs => ?_,of_decide_eq_true hlength,fun c hc => ?_⟩
  · rw [hs] at hne
    cases hne
  · exact List.contains_iff_mem.mp (List.all_eq_true.mp hhex c hc)

lemma octet_of_all {l : List Char} {f : Char → List Char} (h : (l.all fun c => isOctet (f c)) = true)
    {c : Char} (hc : c ∈ l) : ∃ n : Fin 256, f c = octetText n :=
  octet_of_isOctet (List.all_eq_true.mp h c hc)

lemma octet_of_v4Seg {s : List Char} (h : s ∈ v4Seg.matches') : ∃ n : Fin 256, s = octetText n := by
  have hthree : (digits.all fun b => digits.all fun c => isOctet ['1',b,c]) = true := by decide
  have htwo : ("01234".toList.all fun b => digits.all fun c => isOctet ['2',b,c]) = true := by
    decide
  have hshort : ("123456789".toList.all fun b => digits.all fun c => isOctet [b,c]) = true := by
    decide
  simp only [v4Seg,matches'_add,matches'_mul,matches'_char,Language.mem_add,Language.mem_mul,
    mem_oneOf] at h
  rcases h with (((⟨_,⟨_,rfl,_,rfl,rfl⟩,_,⟨c,hc,rfl⟩,rfl⟩ | ⟨_,⟨_,rfl,_,⟨b,hb,rfl⟩,rfl⟩,_,⟨c,hc,rfl⟩,rfl⟩) |
    ⟨_,⟨_,rfl,_,⟨b,hb,rfl⟩,rfl⟩,_,⟨c,hc,rfl⟩,rfl⟩) | ⟨_,⟨b,hb,rfl⟩,_,⟨c,hc,rfl⟩,rfl⟩) | ⟨c,hc,rfl⟩
  · exact octet_of_all (f := fun c => ['2','5',c]) (by decide) hc
  · exact octet_of_all (List.all_eq_true.mp htwo b hb) hc
  · exact octet_of_all (List.all_eq_true.mp hthree b hb) hc
  · exact octet_of_all (List.all_eq_true.mp hshort b hb) hc
  · exact octet_of_all (f := fun c => [c]) (by decide) hc

lemma flatten_snoc {segs : List (List Char)} {c : Char} (s : List Char) :
    (segs.map (· ++ [c])).flatten ++ s = join [c] (segs ++ [s]) := by
  induction segs with
  | nil => simp
  | cons t segs ih =>
    rw [List.map_cons,List.flatten_cons,List.append_assoc,ih,List.cons_append,
      join_cons (List.append_ne_nil_of_right_ne_nil _ (List.cons_ne_nil _ _)),List.append_assoc]

/-- Parts that match a pattern and a character after it. -/
lemma parts_snoc {P : RegularExpression Char} {c : Char} {parts : List (List Char)}
    (h : ∀ s ∈ parts, s ∈ (P * char c).matches') :
    ∃ segs : List (List Char), segs.length = parts.length ∧ (∀ s ∈ segs, s ∈ P.matches') ∧
      parts = segs.map (· ++ [c]) := by
  induction parts with
  | nil => exact ⟨[],rfl,List.forall_mem_nil _,rfl⟩
  | cons s parts ih =>
    obtain ⟨segs,hlength,hsegs,rfl⟩ := ih fun t ht => h t (List.mem_cons_of_mem _ ht)
    have hs := h s List.mem_cons_self
    rw [matches'_mul,Language.mem_mul] at hs
    obtain ⟨t,ht,_,rfl,rfl⟩ := hs
    exact ⟨t :: segs,congrArg (· + 1) hlength,List.forall_mem_cons.mpr ⟨ht,hsegs⟩,rfl⟩

/-- Parts that match a character and a pattern after it. -/
lemma parts_cons {P : RegularExpression Char} {c : Char} {parts : List (List Char)}
    (h : ∀ s ∈ parts, s ∈ (char c * P).matches') :
    ∃ segs : List (List Char), segs.length = parts.length ∧ (∀ s ∈ segs, s ∈ P.matches') ∧
      parts = segs.map (c :: ·) := by
  induction parts with
  | nil => exact ⟨[],rfl,List.forall_mem_nil _,rfl⟩
  | cons s parts ih =>
    obtain ⟨segs,hlength,hsegs,rfl⟩ := ih fun t ht => h t (List.mem_cons_of_mem _ ht)
    have hs := h s List.mem_cons_self
    rw [matches'_mul,Language.mem_mul] at hs
    obtain ⟨_,rfl,t,ht,rfl⟩ := hs
    exact ⟨t :: segs,congrArg (· + 1) hlength,List.forall_mem_cons.mpr ⟨ht,hsegs⟩,rfl⟩

lemma ipv4_of_v4Str {s : List Char} (h : s ∈ v4Str.matches') : ∃ n, Ipv4Text s n := by
  rw [v4Str,matches'_mul,Language.mem_mul] at h
  obtain ⟨u,hu,v,hv,rfl⟩ := h
  obtain ⟨parts,hlength,hparts,rfl⟩ := mem_pow hu
  obtain ⟨segs,hsegs,hoctets,rfl⟩ := parts_snoc hparts
  obtain ⟨d,rfl⟩ := octet_of_v4Seg hv
  rw [flatten_snoc]
  match segs,hsegs.trans hlength with
  | [s,t,u],_ =>
    obtain ⟨a,rfl⟩ := octet_of_v4Seg (hoctets s (by simp))
    obtain ⟨b,rfl⟩ := octet_of_v4Seg (hoctets t (by simp))
    obtain ⟨c,rfl⟩ := octet_of_v4Seg (hoctets u (by simp))
    exact ⟨_,.mk a b c d⟩

lemma group_of_v6Seg {s : List Char} (h : s ∈ v6Seg.matches') : Group s := by
  obtain ⟨parts,hne,hlength,hparts,rfl⟩ := mem_between (by decide) h
  have hone : ∀ {parts : List (List Char)}, (∀ s ∈ parts, s ∈ (oneOf hexDigits).matches') →
      parts.flatten.length = parts.length ∧ ∀ c ∈ parts.flatten, c ∈ hexDigits := by
    intro parts h
    induction parts with
    | nil => exact ⟨rfl,List.forall_mem_nil _⟩
    | cons s parts ih =>
      obtain ⟨hl,hc⟩ := ih fun t ht => h t (List.mem_cons_of_mem _ ht)
      obtain ⟨c,hmem,rfl⟩ := mem_oneOf.mp (h s List.mem_cons_self)
      exact ⟨congrArg (· + 1) hl,List.forall_mem_cons.mpr ⟨hmem,hc⟩⟩
  obtain ⟨hl,hc⟩ := hone hparts
  refine ⟨?_,hl ▸ hlength,hc⟩
  rw [ne_eq,← List.length_eq_zero_iff,hl,List.length_eq_zero_iff]
  exact hne

/-! ### The alternatives -/

/-- The groups before the gap and the first colon of it. -/
def Lead (s : List Char) (k : ℕ) : Prop :=
  ∃ left : List (List Char), left.length = k ∧ (∀ t ∈ left, Group t) ∧ s = join [':'] left ++ [':']

/-- The second colon of the gap and what comes behind it, as many groups at most. -/
def Follow (s : List Char) (r : ℕ) : Prop :=
  ∃ right tail values, (∀ t ∈ right, Group t) ∧ Tail tail values ∧
    right.length + values.length ≤ r ∧ s = ':' :: join [':'] (right ++ tail)

lemma gap_of {s t : List Char} {k r : ℕ} (hs : Lead s k) (ht : Follow t r) (hle : k + r ≤ 7) :
    ∃ groups, Ipv6Groups (s ++ t) groups := by
  obtain ⟨left,rfl,hleft,rfl⟩ := hs
  obtain ⟨right,tail,values,hright,htail,hlength,rfl⟩ := ht
  rw [List.append_assoc,List.singleton_append]
  exact ⟨_,.gap hleft hright htail (by omega)⟩

lemma lead_colon {s : List Char} (h : s ∈ colon.matches') : Lead s 0 := by
  obtain rfl : s = [':'] := h
  exact ⟨[],rfl,List.forall_mem_nil _,rfl⟩

/-- The groups before a choice. -/
lemma groups_of_pow {s : List Char} {k : ℕ} (h : s ∈ ((v6Seg * colon) ^ k).matches') :
    ∃ segs : List (List Char), segs.length = k ∧ (∀ t ∈ segs, Group t) ∧
      s = (segs.map (· ++ [':'])).flatten := by
  obtain ⟨parts,hlength,hparts,rfl⟩ := mem_pow h
  obtain ⟨segs,hsegs,hgroups,rfl⟩ := parts_snoc hparts
  exact ⟨segs,hsegs.trans hlength,fun t ht => group_of_v6Seg (hgroups t ht),rfl⟩

lemma lead_pow {s : List Char} {k : ℕ} (h : s ∈ ((v6Seg * colon) ^ (k + 1)).matches') :
    Lead s (k + 1) := by
  obtain ⟨segs,hlength,hgroups,rfl⟩ := groups_of_pow h
  rcases List.eq_nil_or_concat' segs with rfl | ⟨init,last,rfl⟩
  · cases hlength
  · refine ⟨init ++ [last],hlength,hgroups,?_⟩
    rw [List.map_append,List.flatten_append,← flatten_snoc]
    simp

lemma flatten_cons {segs : List (List Char)} (hne : segs ≠ []) (c : Char) :
    (segs.map (c :: ·)).flatten = c :: join [c] segs := by
  induction segs with
  | nil => exact absurd rfl hne
  | cons s segs ih =>
    cases segs with
    | nil => simp
    | cons t segs =>
      rw [List.map_cons,List.flatten_cons,ih (List.cons_ne_nil _ _),join_cons (List.cons_ne_nil _ _)]
      rfl

lemma follow_colon {s : List Char} (h : s ∈ colon.matches') (r : ℕ) : Follow s r := by
  obtain rfl : s = [':'] := h
  exact ⟨[],[],[],List.forall_mem_nil _,.none,Nat.zero_le _,rfl⟩

lemma follow_between {s : List Char} {r : ℕ} (hr : 1 ≤ r)
    (h : s ∈ (between (colon * v6Seg) r).matches') : Follow s r := by
  obtain ⟨parts,hne,hlength,hparts,rfl⟩ := mem_between hr h
  obtain ⟨segs,hsegs,hgroups,rfl⟩ := parts_cons hparts
  refine ⟨segs,[],[],fun t ht => group_of_v6Seg (hgroups t ht),.none,?_,?_⟩
  · rw [List.length_nil,Nat.add_zero,hsegs]
    exact hlength
  · rw [List.append_nil]
    exact flatten_cons (fun hnil => hne (by rw [hnil]; rfl)) ':'

lemma follow_v4 {s : List Char} {r : ℕ}
    (h : s ∈ (upTo (colon * v6Seg) r * (colon * v4Str)).matches') : Follow s (r + 2) := by
  rw [matches'_mul,Language.mem_mul] at h
  obtain ⟨u,hu,v,hv,rfl⟩ := h
  rw [matches'_mul,Language.mem_mul] at hv
  obtain ⟨_,rfl,v,hv,rfl⟩ := hv
  obtain ⟨n,hn⟩ := ipv4_of_v4Str hv
  obtain ⟨parts,hlength,hparts,rfl⟩ := mem_upTo hu
  obtain ⟨segs,hsegs,hgroups,rfl⟩ := parts_cons hparts
  refine ⟨segs,[v],_,fun t ht => group_of_v6Seg (hgroups t ht),.ipv4 hn,?_,?_⟩
  · change segs.length + 2 ≤ r + 2
    omega
  · rw [← flatten_cons (List.append_ne_nil_of_right_ne_nil _ (List.cons_ne_nil _ _))]
    simp

/-- The alternatives with a gap, after their groups. -/
lemma follow_choice {s : List Char} {r : ℕ}
    (h : s ∈ (upTo (colon * v6Seg) r * (colon * v4Str) + between (colon * v6Seg) (r + 2) +
      colon).matches') : Follow s (r + 2) := by
  rw [matches'_add,matches'_add,Language.mem_add,Language.mem_add] at h
  rcases h with (h | h) | h
  · exact follow_v4 h
  · exact follow_between (by omega) h
  · exact follow_colon h _

lemma full_hex {s t : List Char} (hs : s ∈ ((v6Seg * colon) ^ 7).matches') (ht : t ∈ v6Seg.matches') :
    ∃ groups, Ipv6Groups (s ++ t) groups := by
  obtain ⟨segs,hlength,hgroups,rfl⟩ := groups_of_pow hs
  rw [flatten_snoc,← List.append_nil (segs ++ [t])]
  refine ⟨_,.full ?_ .none ?_⟩
  · exact List.forall_mem_append.mpr ⟨hgroups,List.forall_mem_singleton.mpr (group_of_v6Seg ht)⟩
  · rw [List.length_append,hlength]
    rfl

lemma full_v4 {s t : List Char} (hs : s ∈ ((v6Seg * colon) ^ 6).matches') (ht : t ∈ v4Str.matches') :
    ∃ groups, Ipv6Groups (s ++ t) groups := by
  obtain ⟨segs,hlength,hgroups,rfl⟩ := groups_of_pow hs
  obtain ⟨n,hn⟩ := ipv4_of_v4Str ht
  rw [flatten_snoc]
  refine ⟨_,.full hgroups (.ipv4 hn) ?_⟩
  rw [hlength]
  rfl

lemma mem_mul {P Q : RegularExpression Char} {s : List Char} (h : s ∈ (P * Q).matches') :
    ∃ u ∈ P.matches', ∃ v ∈ Q.matches', u ++ v = s := by
  rwa [matches'_mul,Language.mem_mul] at h

/-- Every address that the pattern takes is a spelling of eight groups. -/
lemma groups_of_v6Address {s : List Char} (h : s ∈ v6Address.matches') :
    ∃ groups, Ipv6Groups s groups := by
  simp only [v6Address,matches'_add,Language.mem_add] at h
  rcases h with ((((((h | h) | h) | h) | h) | h) | h) | h <;> obtain ⟨u,hu,v,hv,rfl⟩ := mem_mul h
  · rw [matches'_add,Language.mem_add] at hv
    rcases hv with hv | hv
    · exact full_hex hu hv
    · exact gap_of (lead_pow hu) (follow_colon hv 0) le_rfl
  · rw [matches'_add,matches'_add,Language.mem_add,Language.mem_add] at hv
    rcases hv with (hv | hv) | hv
    · exact full_v4 hu hv
    · refine gap_of (lead_pow hu) (follow_between (r := 1) le_rfl ?_) le_rfl
      rwa [between,upTo,matches'_mul,matches'_epsilon,mul_one]
    · exact gap_of (lead_pow hu) (follow_colon hv 0) (by decide)
  · rw [matches'_add,matches'_add,Language.mem_add,Language.mem_add] at hv
    rcases hv with (hv | hv) | hv
    · refine gap_of (lead_pow hu) (follow_v4 (r := 0) ?_) le_rfl
      rwa [upTo,matches'_mul,matches'_epsilon,one_mul]
    · exact gap_of (lead_pow hu) (follow_between (by decide) hv) le_rfl
    · exact gap_of (lead_pow hu) (follow_colon hv 0) (by decide)
  · exact gap_of (lead_pow hu) (follow_choice hv) le_rfl
  · exact gap_of (lead_pow hu) (follow_choice hv) le_rfl
  · exact gap_of (lead_pow hu) (follow_choice hv) le_rfl
  · exact gap_of (lead_pow hu) (follow_choice hv) le_rfl
  · exact gap_of (lead_colon hu) (follow_choice hv) le_rfl

lemma zone_of_match {s : List Char} (h : s ∈ (v6Zone + 1).matches') : Zone s := by
  rw [matches'_add,Language.mem_add] at h
  rcases h with h | h
  · right
    obtain ⟨_,rfl,v,hv,rfl⟩ := mem_mul h
    obtain ⟨u,hu,w,hw,rfl⟩ := mem_mul hv
    obtain ⟨c,hc,rfl⟩ := mem_oneOf.mp hu
    rw [matches'_star,Language.mem_kstar] at hw
    obtain ⟨parts,rfl,hparts⟩ := hw
    refine ⟨_,rfl,List.cons_ne_nil _ _,List.forall_mem_cons.mpr ⟨hc,fun d hd => ?_⟩⟩
    obtain ⟨part,hpart,hd⟩ := List.mem_flatten.mp hd
    obtain ⟨e,he,rfl⟩ := mem_oneOf.mp (hparts part hpart)
    rwa [List.mem_singleton.mp hd]
  · left
    exact h

/-- What `net.isIP` takes for an IPv4 address is the spelling of a number. -/
lemma ipv4Text_of_isIP {s : List Char} (h : isIP s = 4) : ∃ n, Ipv4Text s n := by
  unfold isIP at h
  split_ifs at h with h4 h6
  · exact ipv4_of_v4Str ((rmatch_iff_matches' _ _).mp h4)
  · cases h

lemma ipv6Text_of_isIP {s : List Char} (h : isIP s = 6) : ∃ n, Ipv6Text s n := by
  unfold isIP at h
  split_ifs at h with h4 h6
  · cases h
  · obtain ⟨u,hu,v,hv,rfl⟩ := mem_mul ((rmatch_iff_matches' _ _).mp h6)
    obtain ⟨groups,hgroups⟩ := groups_of_v6Address hu
    exact ⟨_,.mk hgroups (zone_of_match hv)⟩

end Linea.IpAddresses
