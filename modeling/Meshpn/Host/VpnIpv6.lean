import Mathlib.Data.List.Induction
import Mathlib.Data.List.TakeWhile
import Meshpn.Lib.AddressText
import Meshpn.Lib.Prefixes

/-!
Whether a network meets the two IPv6 addresses of the tunnel. Its text is cut at two
colons, the words in between are filled up, and the two numbers are compared without
their low bits.

The eight words that the text of an IPv6 address stands for, by the way such texts are
written, and that the test finds these words.

The test against the networks as sets of addresses.
-/

open List

namespace Meshpn.Host.VpnIpv6

open Meshpn.Lib.AddressText Meshpn.Lib.Prefixes Meshpn.Lib.Text

/-- A character in front of the first part. -/
def consHead (c : Char) : List (List Char) → List (List Char)
  | [] => [[c]]
  | first :: others => (c :: first) :: others

/-- `addr.split('::')`. -/
def splitPairs : List Char → List (List Char)
  | [] => [[]]
  | ':' :: ':' :: rest => [] :: splitPairs rest
  | c :: rest => consHead c (splitPairs rest)

/-- One to four hexadecimal digits. -/
def segment (s : List Char) : Bool := 1 ≤ s.length && s.length ≤ 4 && s.all Char.isHexDigit

def dottedQuad (s : List Char) : Bool :=
  let parts := (cut '.' s).map octet
  parts.length == 4 && parts.all Option.isSome

/-- How many groups the parts between the colons stand for; the last may be dotted. -/
def groupCount (mixed : Bool) : List (List Char) → Option Nat
  | [] => none
  | [last] => if segment last then some 1 else if mixed && dottedQuad last then some 2 else none
  | part :: rest => if segment part then (groupCount mixed rest).map (· + 1) else none

def sideCount (mixed : Bool) (s : List Char) : Option Nat :=
  if s = [] then some 0 else groupCount mixed (cut ':' s)

def isAddress (s : List Char) : Bool :=
  match splitPairs s with
  | [whole] => groupCount true (cut ':' whole) == some 8
  | [left, right] =>
    match sideCount false left, sideCount true right with
    | some m, some n => m + n < 8
    | _, _ => false
  | _ => false

/-- `net.isIPv6`: an address, and perhaps a zone. -/
def isIPv6 (s : List Char) : Bool :=
  let zone := s.dropWhile (· != '%')
  let zoneChar := fun c : Char => c.isAlphanum || c == '-' || c == '.' || c == ':'
  (zone.isEmpty || 1 < zone.length && zone.tail.all zoneChar) && isAddress (s.takeWhile (· != '%'))

def hexDigitValue (c : Char) : Nat :=
  if c.isDigit then c.toNat - 48 else if 97 ≤ c.toNat then c.toNat - 87 else c.toNat - 55

/-- The number that hexadecimal digits stand for. -/
def hexValue (s : List Char) : Nat := s.foldl (fun n c => 16 * n + hexDigitValue c) 0

/-- `BigInt('0x' + text)`; `none` where it throws. -/
def bigInt (text : List Char) : Option Nat :=
  if text.isEmpty || !text.all Char.isHexDigit then none else some (hexValue text)

/-- A half of an address as its words. -/
def halfWords (half : List Char) : List (List Char) := if half = [] then [] else cut ':' half

/-- The words of an address, with those that two colons stand for; `none` where it throws. -/
def addressWords (addr : List Char) : Option (List (List Char)) :=
  let halves := splitPairs addr
  let head := halfWords (halves.getD 0 [])
  let tail := halfWords (halves.getD 1 [])
  if halves.length = 1 then some head
  else if 8 < head.length + tail.length then none
  else some (head ++ List.replicate (8 - head.length - tail.length) ['0'] ++ tail)

def padStart (w : List Char) : List Char := List.replicate (4 - w.length) '0' ++ w

/-- `0xfd426376706e00000000000000000000`. -/
def tunnelNetwork : Nat := 0xfd426376706e00000000000000000000

def overlapsVpnIpv6 (cidr : List Char) : Option Bool :=
  if cidr = "default".toList then some false
  else
    let parts := cut '/' cidr
    let addr := parts.getD 0 []
    let bits := parts.getD 1 "128".toList
    if !isIPv6 addr || '.' ∈ addr || !digits bits then some false
    else
      let size := value bits
      if size < 1 || 128 < size then some false
      else do
        let words ← addressWords addr
        let number ← bigInt (words.map padStart).flatten
        let shift := 128 - min size 126
        return number >>> shift == tunnelNetwork >>> shift

example : overlapsVpnIpv6 "fd42:6376:706e::3/128".toList = some true := by decide +kernel
example : overlapsVpnIpv6 "fd42:6376:706e::4/126".toList = some false := by decide +kernel

/-- Groups with colons between them, and their values. -/
inductive Words : List Nat → List Char → Prop where
  | last {s : List Char} : Group s → Words [hexValue s] s
  | cons {words : List Nat} {s rest : List Char} :
      Group s → Words words rest → Words (hexValue s :: words) (s ++ ':' :: rest)

def SideWords (words : List Nat) (s : List Char) : Prop := words = [] ∧ s = [] ∨ Words words s

/-- The eight words of an address; two colons are as many zeros as are missing. -/
def Spells (words : List Nat) (s : List Char) : Prop :=
  Words words s ∧ words.length = 8 ∨
    ∃ before after left right, s = left ++ ':' :: ':' :: right ∧ SideWords before left ∧
      SideWords after right ∧ before.length + after.length < 8 ∧
      words = before ++ List.replicate (8 - before.length - after.length) 0 ++ after

def number (words : List Nat) : Nat := words.foldl (fun n w => 65536 * n + w) 0

def address (words : List Nat) : BitVec 128 := BitVec.ofNat 128 (number words)

variable {s : List Char} {words : List Nat} {mixed : Bool}

theorem segment_iff : segment s = true ↔ Group s := by
  unfold segment Lib.AddressText.Group
  rw [Bool.and_eq_true, Bool.and_eq_true, decide_eq_true_eq, decide_eq_true_eq, all_eq_true,
    and_assoc, ← length_pos_iff]
  rfl

theorem group_no_colon (h : Group s) : ∀ c ∈ s, (c != ':') = true := by
  intro c hc
  refine bne_iff_ne.mpr ?_
  rintro rfl
  exact absurd (h.2.2 ':' hc) (by decide)

theorem cut_group (h : Group s) : cut ':' s = [s] := by
  have htake := takeWhile_eq_self_iff.mpr (group_no_colon h)
  have hdrop := dropWhile_eq_nil_iff.mpr (group_no_colon h)
  rw [cut_eq, htake, hdrop]

theorem cut_group_cons {s rest : List Char} (h : Group s) :
    cut ':' (s ++ ':' :: rest) = s :: cut ':' rest := by
  rw [cut_eq, takeWhile_append_of_pos (group_no_colon h),
    dropWhile_append_of_pos (group_no_colon h)]
  simp

theorem Words.parts (h : Words words s) :
    (∀ part ∈ cut ':' s, Group part) ∧ (cut ':' s).map hexValue = words := by
  induction h with
  | last hgroup =>
    rw [cut_group hgroup]
    exact ⟨fun part hpart => by rwa [mem_singleton.mp hpart], rfl⟩
  | cons hgroup _ ih =>
    rw [cut_group_cons hgroup]
    refine ⟨fun part hpart => ?_, by rw [map_cons, ih.2]⟩
    rcases mem_cons.mp hpart with rfl | hrest
    · exact hgroup
    · exact ih.1 part hrest

theorem words_of_parts (s : List Char) (h : ∀ part ∈ cut ':' s, Group part) :
    Words ((cut ':' s).map hexValue) s := by
  induction hlength : s.length using Nat.strong_induction_on generalizing s with
  | _ n ih =>
    have hwhole := takeWhile_append_dropWhile (p := (· != ':')) (l := s)
    rw [cut_eq] at h ⊢
    cases hdrop : s.dropWhile (· != ':') with
    | nil =>
      rw [hdrop] at h hwhole
      rw [append_nil] at hwhole
      have hgroup := h _ mem_cons_self
      rw [hwhole] at hgroup
      dsimp only
      rw [hwhole]
      exact .last hgroup
    | cons c rest =>
      have hc : c = ':' := by
        have hhead := head?_dropWhile_not (· != ':') s
        rw [hdrop] at hhead
        simpa using hhead
      subst hc
      rw [hdrop] at h hwhole
      have hlonger := congrArg List.length hwhole
      rw [length_append, length_cons] at hlonger
      dsimp only at h ⊢
      have hrest := ih rest.length (by omega) rest
        (fun part hpart => h part (mem_cons_of_mem _ hpart)) rfl
      have hcons := Words.cons (h _ mem_cons_self) hrest
      rwa [hwhole] at hcons

def consAll (s : List Char) (parts : List (List Char)) : List (List Char) := s.foldr consHead parts

theorem consAll_cons (s first : List Char) (others : List (List Char)) :
    consAll s (first :: others) = (s ++ first) :: others := by
  induction s with
  | nil => rfl
  | cons c s ih =>
    rw [consAll, foldr_cons, ← consAll, ih]
    rfl

theorem consAll_append (a b : List Char) (parts : List (List Char)) :
    consAll (a ++ b) parts = consAll a (consAll b parts) := foldr_append

theorem splitPairs_cons {c : Char} {rest : List Char} (h : ¬(c = ':' ∧ rest.head? = some ':')) :
    splitPairs (c :: rest) = consHead c (splitPairs rest) := by
  rw [splitPairs]
  rintro other rfl ⟨⟩
  exact h ⟨rfl, rfl⟩

theorem splitPairs_group (h : ∀ c ∈ s, (c != ':') = true) (rest : List Char) :
    splitPairs (s ++ rest) = consAll s (splitPairs rest) := by
  induction s with
  | nil => rfl
  | cons c s ih =>
    have hc := bne_iff_ne.mp (h c mem_cons_self)
    rw [cons_append, splitPairs_cons fun hcolon => hc hcolon.1,
      ih fun other hother => h other (mem_cons_of_mem _ hother)]
    rfl

theorem Words.head (h : Words words s) :
    ∃ c rest, s = c :: rest ∧ c ≠ ':' := by
  have hgroup : ∀ s : List Char, Group s → ∀ tail, ∃ c rest, s ++ tail = c :: rest ∧ c ≠ ':' := by
    intro s hs tail
    obtain ⟨c, rest, rfl⟩ := exists_cons_of_ne_nil hs.1
    exact ⟨c, rest ++ tail, rfl, bne_iff_ne.mp (group_no_colon hs c mem_cons_self)⟩
  cases h with
  | last h => simpa using hgroup _ h []
  | cons h _ => exact hgroup _ h _

theorem Words.splitPairs (h : Words words s) (tail : List Char) :
    splitPairs (s ++ tail) = consAll s (VpnIpv6.splitPairs tail) := by
  induction h with
  | last hgroup => exact splitPairs_group (group_no_colon hgroup) tail
  | cons hgroup hrest ih =>
    obtain ⟨c, more, rfl, hc⟩ := hrest.head
    have hsingle : ¬((':' : Char) = ':' ∧ (c :: more ++ tail).head? = some ':') := by
      rintro ⟨-, hhead⟩
      exact hc (Option.some.inj hhead)
    rw [append_assoc, cons_append, splitPairs_group (group_no_colon hgroup),
      splitPairs_cons hsingle, ih, consAll_append]
    rfl

theorem SideWords.splitPairs (h : SideWords words s)
    (tail : List Char) : VpnIpv6.splitPairs (s ++ tail) = consAll s (VpnIpv6.splitPairs tail) := by
  obtain ⟨-, rfl⟩ | hwords := h
  · rfl
  · exact hwords.splitPairs tail

theorem join_splitPairs (s : List Char) :
    List.intercalate [':', ':'] (VpnIpv6.splitPairs s) = s ∧ VpnIpv6.splitPairs s ≠ [] := by
  have hcons : ∀ (c : Char) (parts : List (List Char)), parts ≠ [] →
      List.intercalate [':', ':'] (consHead c parts) = c :: List.intercalate [':', ':'] parts := by
    intro c parts hne
    obtain ⟨first, others, rfl⟩ := exists_cons_of_ne_nil hne
    cases others with
    | nil => rfl
    | cons next others =>
      rw [consHead, intercalate_cons_cons, intercalate_cons_cons]
      rfl
  fun_induction VpnIpv6.splitPairs s with
  | case1 => exact ⟨rfl, cons_ne_nil _ _⟩
  | case2 rest ih =>
    obtain ⟨first, others, hparts⟩ := exists_cons_of_ne_nil ih.2
    refine ⟨?_, cons_ne_nil _ _⟩
    rw [hparts, intercalate_cons_cons, ← hparts, ih.1]
    rfl
  | case3 c rest _ ih =>
    refine ⟨by rw [hcons _ _ ih.2, ih.1], ?_⟩
    obtain ⟨first, others, hparts⟩ := exists_cons_of_ne_nil ih.2
    rw [hparts]
    exact cons_ne_nil _ _

theorem dottedQuad_dot (h : dottedQuad s = true) : '.' ∈ s := by
  by_contra hnone
  unfold dottedQuad at h
  rw [cut_of_no_dot hnone] at h
  simp at h

theorem groupCount_groups {parts : List (List Char)} {n : Nat}
    (h : groupCount mixed parts = some n) (hdots : ∀ part ∈ parts, '.' ∉ part) :
    (∀ part ∈ parts, Group part) ∧ parts.length = n := by
  induction parts generalizing n with
  | nil => cases h
  | cons part rest ih =>
    have hrestDots : ∀ other ∈ rest, '.' ∉ other :=
      fun other hother => hdots other (mem_cons_of_mem _ hother)
    cases rest with
    | nil =>
      rw [groupCount] at h
      split at h
      case isTrue hsegment =>
        rw [← Option.some.inj h]
        refine ⟨fun other hother => ?_, rfl⟩
        rw [mem_singleton.mp hother]
        exact segment_iff.mp hsegment
      case isFalse =>
        split at h
        case isTrue hquad =>
          rw [Bool.and_eq_true] at hquad
          exact absurd (dottedQuad_dot hquad.2) (hdots part mem_cons_self)
        case isFalse => cases h
    | cons next rest =>
      rw [groupCount] at h
      · split at h
        case isTrue hsegment =>
          obtain ⟨m, hm, rfl⟩ := Option.map_eq_some_iff.mp h
          obtain ⟨hgroups, hlength⟩ := ih hm hrestDots
          refine ⟨fun other hother => ?_, by rw [length_cons, hlength]⟩
          rcases mem_cons.mp hother with rfl | hmem
          · exact segment_iff.mp hsegment
          · exact hgroups other hmem
        case isFalse => cases h
      · exact cons_ne_nil _ _

theorem mem_of_mem_cut {separator c : Char} {s part : List Char} (hpart : part ∈ cut separator s)
    (hc : c ∈ part) : c ∈ s := by
  induction s generalizing part with
  | nil =>
    rw [mem_singleton.mp hpart] at hc
    exact hc
  | cons d s ih =>
    rw [cut] at hpart
    split at hpart
    case isTrue =>
      rcases mem_cons.mp hpart with rfl | hrest
      · cases hc
      · exact mem_cons_of_mem _ (ih hrest hc)
    split at hpart
    case h_1 =>
      rw [mem_singleton.mp hpart, mem_singleton] at hc
      rw [hc]
      exact mem_cons_self
    case h_2 first others heq =>
      rcases mem_cons.mp hpart with rfl | hrest
      · rcases mem_cons.mp hc with rfl | hin
        · exact mem_cons_self
        · exact mem_cons_of_mem _ (ih (by rw [heq]; exact mem_cons_self) hin)
      · exact mem_cons_of_mem _ (ih (by rw [heq]; exact mem_cons_of_mem _ hrest) hc)

theorem words_of_count {n : Nat}
    (h : groupCount mixed (cut ':' s) = some n) (hdot : '.' ∉ s) :
    Words ((cut ':' s).map hexValue) s ∧ ((cut ':' s).map hexValue).length = n := by
  obtain ⟨hgroups, hlength⟩ :=
    groupCount_groups h fun part hpart hc => hdot (mem_of_mem_cut hpart hc)
  exact ⟨words_of_parts s hgroups, by rw [length_map, hlength]⟩

theorem sideWords_of_count {n : Nat}
    (h : sideCount mixed s = some n) (hdot : '.' ∉ s) :
    ∃ words, SideWords words s ∧ words.length = n := by
  unfold sideCount at h
  split at h
  case isTrue hempty =>
    rw [← Option.some.inj h]
    exact ⟨[], .inl ⟨rfl, hempty⟩, rfl⟩
  case isFalse =>
    obtain ⟨hwords, hlength⟩ := words_of_count h hdot
    exact ⟨_, .inr hwords, hlength⟩

theorem spells_of_isIPv6 (h : isIPv6 s = true) (hdot : '.' ∉ s) (hzone : '%' ∉ s) :
    ∃ words, Spells words s := by
  have hpasses : ∀ c ∈ s, (c != '%') = true := fun c hc =>
    bne_iff_ne.mpr fun heq => hzone (heq ▸ hc)
  unfold isIPv6 at h
  dsimp only at h
  rw [takeWhile_eq_self_iff.mpr hpasses, Bool.and_eq_true] at h
  have haddress := h.2
  have hjoin := (join_splitPairs s).1
  unfold isAddress at haddress
  split at haddress
  case h_1 whole hparts =>
    rw [hparts, intercalate_singleton] at hjoin
    subst hjoin
    obtain ⟨hwords, hlength⟩ := words_of_count (beq_iff_eq.mp haddress) hdot
    exact ⟨_, .inl ⟨hwords, hlength⟩⟩
  case h_2 left right hparts =>
    have hjoined : left ++ ':' :: ':' :: right = s := by
      rw [hparts, intercalate_cons_cons, intercalate_singleton] at hjoin
      rw [← hjoin, append_assoc]
      rfl
    subst hjoined
    split at haddress
    case h_1 m n hm hn =>
      obtain ⟨before, hbefore, hm⟩ := sideWords_of_count hm fun hc =>
        hdot (mem_append_left _ hc)
      obtain ⟨after, hafter, hn⟩ := sideWords_of_count hn fun hc =>
        hdot (mem_append_right _ (mem_cons_of_mem _ (mem_cons_of_mem _ hc)))
      have hless := of_decide_eq_true haddress
      exact ⟨_, .inr ⟨before, after, left, right, rfl, hbefore, hafter, by omega, rfl⟩⟩
    case h_2 => cases haddress
  case h_3 => cases haddress

theorem SideWords.halfWords (h : SideWords words s) :
    (∀ part ∈ halfWords s, Group part) ∧ (halfWords s).map hexValue = words := by
  obtain ⟨rfl, rfl⟩ | hwords := h
  · exact ⟨(fun _ hpart => by cases hpart), rfl⟩
  obtain ⟨c, rest, rfl, -⟩ := hwords.head
  rw [VpnIpv6.halfWords, if_neg (cons_ne_nil _ _)]
  exact hwords.parts

theorem zero_group : Group ['0'] :=
  ⟨by decide, by decide, fun c hc => by rw [mem_singleton.mp hc]; rfl⟩

theorem Spells.addressWords (h : Spells words s) :
    ∃ parts, addressWords s = some parts ∧ (∀ part ∈ parts, Group part) ∧
      parts.map hexValue = words ∧ parts.length = 8 := by
  obtain ⟨hwords, height⟩ | ⟨before, after, left, right, rfl, hbefore, hafter, hless, rfl⟩ := h
  · have hparts := hwords.splitPairs []
    have hwhole : VpnIpv6.splitPairs s = [s] := by
      rw [append_nil] at hparts
      rw [hparts, VpnIpv6.splitPairs, consAll_cons, append_nil]
    obtain ⟨hgroups, hvalues⟩ := SideWords.halfWords (.inr hwords)
    refine ⟨VpnIpv6.halfWords s, ?_, hgroups, hvalues, ?_⟩
    · unfold VpnIpv6.addressWords
      rw [hwhole]
      rfl
    · rw [← height, ← hvalues, length_map]
  · have hsecond := hafter.splitPairs []
    rw [append_nil, VpnIpv6.splitPairs, consAll_cons, append_nil] at hsecond
    have hparts := hbefore.splitPairs (':' :: ':' :: right)
    rw [VpnIpv6.splitPairs, hsecond, consAll_cons, append_nil] at hparts
    obtain ⟨hgroups, hvalues⟩ := hbefore.halfWords
    obtain ⟨hgroups', hvalues'⟩ := hafter.halfWords
    have hm : (VpnIpv6.halfWords left).length = before.length := by
      rw [← hvalues, length_map]
    have hn : (VpnIpv6.halfWords right).length = after.length := by
      rw [← hvalues', length_map]
    refine ⟨VpnIpv6.halfWords left ++ List.replicate (8 - before.length - after.length) ['0'] ++
      VpnIpv6.halfWords right, ?_, ?_, ?_, ?_⟩
    · unfold VpnIpv6.addressWords
      rw [hparts]
      simp only [getD_cons_zero, getD_cons_succ, hm, hn]
      rw [if_neg (by simp), if_neg (by omega)]
    · intro part hpart
      rcases mem_append.mp hpart with hfront | hlast
      · rcases mem_append.mp hfront with hfirst | hzero
        · exact hgroups part hfirst
        · rw [eq_of_mem_replicate hzero]
          exact zero_group
      · exact hgroups' part hlast
    · rw [map_append, map_append, hvalues, hvalues', map_replicate]
      rfl
    · simp only [length_append, length_replicate, hm, hn]
      omega

theorem hexDigitValue_lt {c : Char} (h : c.isHexDigit = true) : hexDigitValue c < 16 := by
  have hcases : (48 ≤ c.toNat ∧ c.toNat ≤ 57) ∨ (97 ≤ c.toNat ∧ c.toNat ≤ 102) ∨
      (65 ≤ c.toNat ∧ c.toNat ≤ 70) := by
    unfold Char.isHexDigit at h
    rw [Bool.or_eq_true, Bool.or_eq_true, Bool.and_eq_true, Bool.and_eq_true] at h
    rcases h with (hdigit | ⟨hlow, hhigh⟩) | ⟨hlow, hhigh⟩
    · exact .inl (Char.isDigit_iff_toNat.mp hdigit)
    · exact .inr (.inl ⟨UInt32.le_iff_toNat_le.mp (of_decide_eq_true hlow),
        UInt32.le_iff_toNat_le.mp (of_decide_eq_true hhigh)⟩)
    · exact .inr (.inr ⟨UInt32.le_iff_toNat_le.mp (of_decide_eq_true hlow),
        UInt32.le_iff_toNat_le.mp (of_decide_eq_true hhigh)⟩)
  unfold hexDigitValue
  split
  case isTrue hdigit =>
    have hrange := Char.isDigit_iff_toNat.mp hdigit
    change 48 ≤ c.toNat ∧ c.toNat ≤ 57 at hrange
    omega
  case isFalse => split <;> omega

theorem hexValue_from (n : Nat) (s : List Char) :
    s.foldl (fun n c => 16 * n + hexDigitValue c) n = 16 ^ s.length * n + hexValue s := by
  induction s generalizing n with
  | nil => simp [hexValue]
  | cons c s ih =>
    rw [hexValue, foldl_cons, foldl_cons, ih, ih (16 * 0 + hexDigitValue c),
      length_cons, Nat.pow_succ, Nat.mul_add, Nat.mul_assoc, Nat.mul_zero, Nat.zero_add,
      Nat.add_assoc]

theorem hexValue_append (a b : List Char) :
    hexValue (a ++ b) = 16 ^ b.length * hexValue a + hexValue b := by
  rw [hexValue, foldl_append, hexValue_from]
  rfl

theorem hexValue_lt (h : ∀ c ∈ s, c.isHexDigit = true) :
    hexValue s < 16 ^ s.length := by
  induction s using List.reverseRecOn with
  | nil => decide
  | append_singleton s c ih =>
    have hs := ih fun d hd => h d (mem_append_left _ hd)
    have hc := hexDigitValue_lt (h c (mem_append_right _ mem_cons_self))
    have hone : hexValue [c] = hexDigitValue c := by simp [hexValue]
    have hpow : 16 ^ (s.length + 1) = 16 ^ s.length * 16 := Nat.pow_succ _ _
    rw [hexValue_append, length_append, length_singleton, hpow, hone, Nat.pow_one]
    omega

theorem hexValue_zeros (n : Nat) : hexValue (List.replicate n '0') = 0 := by
  induction n with
  | zero => rfl
  | succ n ih =>
    rw [replicate_succ', hexValue_append, ih, Nat.mul_zero, Nat.zero_add]
    rfl

theorem padStart_spec (h : Group s) :
    (padStart s).length = 4 ∧ hexValue (padStart s) = hexValue s ∧
      ∀ c ∈ padStart s, c.isHexDigit = true := by
  have hlength := h.2.1
  refine ⟨?_, ?_, fun c hc => ?_⟩
  · rw [padStart, length_append, length_replicate]
    omega
  · rw [padStart, hexValue_append, hexValue_zeros, Nat.mul_zero, Nat.zero_add]
  · rcases mem_append.mp hc with hzero | hin
    · rw [eq_of_mem_replicate hzero]
      decide
    · exact h.2.2 c hin

theorem hexValue_words {parts : List (List Char)} (h : ∀ part ∈ parts, Group part) :
    hexValue (parts.map padStart).flatten = number (parts.map hexValue) := by
  induction parts using List.reverseRecOn with
  | nil => rfl
  | append_singleton parts part ih =>
    obtain ⟨hlength, hvalue, -⟩ :=
      padStart_spec (h part (mem_append_right _ mem_cons_self))
    have hfront := ih fun other hother => h other (mem_append_left _ hother)
    rw [map_append, flatten_append, map_singleton, flatten_singleton,
      hexValue_append, hlength, hvalue, hfront, number, number, map_append, foldl_append]
    rfl

theorem number_lt {words : List Nat} (h : ∀ w ∈ words, w < 65536) :
    number words < 65536 ^ words.length := by
  induction words using List.reverseRecOn with
  | nil => decide
  | append_singleton words w ih =>
    have hwords := ih fun other hother => h other (mem_append_left _ hother)
    have hw := h w (mem_append_right _ mem_cons_self)
    rw [number, foldl_append, ← number, length_append, length_singleton,
      Nat.pow_succ, foldl_cons, foldl_nil]
    omega

theorem Group.value_lt (h : Group s) : hexValue s < 65536 :=
  (hexValue_lt h.2.2).trans_le (Nat.pow_le_pow_right (by decide) h.2.1)

theorem Spells.bigInt (h : Spells words s) :
    ∃ parts, VpnIpv6.addressWords s = some parts ∧
      VpnIpv6.bigInt (parts.map padStart).flatten = some (number words) ∧
      number words < 2 ^ 128 := by
  obtain ⟨parts, hparts, hgroups, rfl, hlength⟩ := h.addressWords
  refine ⟨parts, hparts, ?_, ?_⟩
  · have hsome : (parts.map padStart).flatten ≠ [] := by
      obtain ⟨part, rest, rfl⟩ := exists_cons_of_ne_nil
        (show parts ≠ [] by rintro rfl; cases hlength)
      have hfour := (padStart_spec (hgroups part mem_cons_self)).1
      intro hnil
      rw [map_cons, flatten_cons, append_eq_nil_iff] at hnil
      rw [hnil.1] at hfour
      cases hfour
    have hhex : (parts.map padStart).flatten.all Char.isHexDigit = true := by
      rw [all_eq_true]
      intro c hc
      obtain ⟨padded, hpadded, hmem⟩ := mem_flatten.mp hc
      obtain ⟨part, hpart, rfl⟩ := mem_map.mp hpadded
      exact (padStart_spec (hgroups part hpart)).2.2 c hmem
    rw [VpnIpv6.bigInt, isEmpty_eq_false_iff.mpr hsome, hhex, if_neg (by decide),
      hexValue_words hgroups]
  · have hlt := @number_lt (parts.map hexValue) fun w hw => by
      obtain ⟨part, hpart, rfl⟩ := mem_map.mp hw
      exact Group.value_lt (hgroups part hpart)
    rw [length_map, hlength] at hlt
    exact hlt

end Meshpn.Host.VpnIpv6

namespace Meshpn.Host.VpnIpv6

open Meshpn.Lib.Prefixes Meshpn.Lib.Text Meshpn.Lib.Scan

def tunnelAddress : BitVec 128 := BitVec.ofNat 128 tunnelNetwork

/-- The prefix of the address has an address in common with `fd42:6376:706e::/126`. -/
def MeetsTunnel (a : BitVec 128) (size : Nat) : Prop :=
  ∃ x, Lib.Prefixes.Covers a (mask 128 size) x ∧ Lib.Prefixes.Covers tunnelAddress (mask 128 126) x

theorem shiftRight_eq_iff {a b n : Nat} :
    a >>> n = b >>> n ↔ ∀ i, n ≤ i → a.testBit i = b.testBit i := by
  constructor
  · intro h i hi
    have hbit := congrArg (fun v => v.testBit (i - n)) h
    simp only [Nat.testBit_shiftRight, Nat.add_sub_cancel' hi] at hbit
    exact hbit
  · intro h
    apply Nat.eq_of_testBit_eq
    intro i
    rw [Nat.testBit_shiftRight, Nat.testBit_shiftRight]
    exact h _ (Nat.le_add_right n i)

/-- Numbers without their low bits are equal where the prefixes have an address in common. -/
theorem meetsTunnel_iff {n size : Nat} (hn : n < 2 ^ 128) :
    MeetsTunnel (BitVec.ofNat 128 n) size ↔
      n >>> (128 - min size 126) = tunnelNetwork >>> (128 - min size 126) := by
  have htunnel : tunnelNetwork < 2 ^ 128 := by decide
  unfold MeetsTunnel tunnelAddress
  rw [← meet_iff, mask_and_mask, and_mask_eq_iff, shiftRight_eq_iff]
  constructor
  · intro h i hi
    by_cases hin : i < 128
    · have hbit := h i hin hi
      rwa [BitVec.getLsbD_ofNat, BitVec.getLsbD_ofNat, decide_eq_true hin, Bool.true_and,
        Bool.true_and] at hbit
    · have hbig : 2 ^ 128 ≤ 2 ^ i := Nat.pow_le_pow_right (by decide) (Nat.not_lt.mp hin)
      rw [Nat.testBit_lt_two_pow (hn.trans_le hbig), Nat.testBit_lt_two_pow (htunnel.trans_le hbig)]
  · intro h i hin hi
    rw [BitVec.getLsbD_ofNat, BitVec.getLsbD_ofNat, h i hi]

variable {words : List Nat} {s : List Char}

theorem Words.chars (h : Words words s) :
    ∀ c ∈ s, c.isHexDigit = true ∨ c = ':' := by
  induction h with
  | last hgroup => exact fun c hc => .inl (hgroup.2.2 c hc)
  | cons hgroup _ ih =>
    intro c hc
    rcases mem_append.mp hc with hfirst | hrest
    · exact .inl (hgroup.2.2 c hfirst)
    rcases mem_cons.mp hrest with rfl | hmem
    · exact .inr rfl
    · exact ih c hmem

theorem SideWords.chars (h : SideWords words s) :
    ∀ c ∈ s, c.isHexDigit = true ∨ c = ':' := by
  obtain ⟨-, rfl⟩ | hwords := h
  · exact fun c hc => by cases hc
  · exact hwords.chars

theorem Spells.chars (h : Spells words s) :
    ∀ c ∈ s, c.isHexDigit = true ∨ c = ':' := by
  obtain ⟨hwords, -⟩ | ⟨before, after, left, right, rfl, hleft, hright, -, -⟩ := h
  · exact hwords.chars
  intro c hc
  rcases mem_append.mp hc with hfirst | hrest
  · exact hleft.chars c hfirst
  rcases mem_cons.mp hrest with rfl | hmem
  · exact .inr rfl
  · rcases mem_cons.mp hmem with rfl | hlast
    · exact .inr rfl
    · exact hright.chars c hlast

theorem Spells.ne_slash (h : Spells words s) :
    ∀ c ∈ s, (c != '/') = true := by
  intro c hc
  refine bne_iff_ne.mpr ?_
  rintro rfl
  exact absurd (h.chars '/' hc) (by decide)

theorem cut_whole {addr : List Char} (h : ∀ c ∈ addr, (c != '/') = true) :
    cut '/' addr = [addr] := by
  rw [cut_eq, takeWhile_eq_self_iff.mpr h, dropWhile_eq_nil_iff.mpr h]

theorem cut_length {addr : List Char} (h : ∀ c ∈ addr, (c != '/') = true) (size : Nat) :
    cut '/' (addr ++ '/' :: decimal size) = [addr, decimal size] := by
  have hdigits : ∀ c ∈ decimal size, (c != '/') = true := by
    intro c hc
    refine bne_iff_ne.mpr ?_
    rintro rfl
    exact absurd (decimal_digits size '/' hc) (by decide)
  rw [cut_eq, takeWhile_append_of_pos h, dropWhile_append_of_pos h]
  simp [cut_whole hdigits]

theorem digits_decimal (n : Nat) : digits (decimal n) = true := by
  rw [digits, isEmpty_eq_false_iff.mpr (decimal_ne_nil n), Bool.not_false, Bool.true_and,
    all_eq_true]
  exact decimal_digits n

theorem overlaps_of_parts {cidr addr bits : List Char} {words : List Nat} {size : Nat}
    (hdefault : cidr ≠ "default".toList) (haddr : (cut '/' cidr).getD 0 [] = addr)
    (hbits : (cut '/' cidr).getD 1 "128".toList = bits) (haccepted : isIPv6 addr = true)
    (hdot : '.' ∉ addr) (hspells : Spells words addr) (hdigits : digits bits = true)
    (hvalue : Lib.AddressText.value bits = size) (hlow : 1 ≤ size) (hhigh : size ≤ 128) :
    ∃ answer, overlapsVpnIpv6 cidr = some answer ∧
      (answer = true ↔ MeetsTunnel (address words) size) := by
  obtain ⟨parts, hparts, hnumber, hlt⟩ := hspells.bigInt
  refine ⟨number words >>> (128 - min size 126) == tunnelNetwork >>> (128 - min size 126), ?_, ?_⟩
  · unfold overlapsVpnIpv6
    rw [if_neg hdefault]
    dsimp only
    rw [haddr, hbits, haccepted, hdigits, decide_eq_false hdot, hvalue, if_neg (by decide),
      if_neg (by simp; omega), hparts]
    simp only [Option.bind_eq_bind, Option.bind_some, hnumber]
    rfl
  · rw [beq_iff_eq, address, meetsTunnel_iff hlt]

/-- For every address that is accepted, without a zone and without a dotted part, the test says
whether the prefix of the address that the text spells meets the tunnel's network; and it spells
one. -/
theorem overlap_decided {addr : List Char} (haccepted : isIPv6 addr = true) (hzone : '%' ∉ addr)
    (hdot : '.' ∉ addr) :
    (∃ words, Spells words addr) ∧ ∀ words, Spells words addr →
      (∃ answer, overlapsVpnIpv6 addr = some answer ∧
        (answer = true ↔ MeetsTunnel (address words) 128)) ∧
      ∀ size, 1 ≤ size → size ≤ 128 → ∃ answer,
        overlapsVpnIpv6 (addr ++ '/' :: decimal size) = some answer ∧
        (answer = true ↔ MeetsTunnel (address words) size) := by
  refine ⟨spells_of_isIPv6 haccepted hdot hzone, fun words hspells => ⟨?_, ?_⟩⟩
  · have hdefault : addr ≠ "default".toList := by
      rintro rfl
      exact absurd (hspells.chars 'l' (by decide)) (by decide)
    have hcut := cut_whole hspells.ne_slash
    exact @overlaps_of_parts addr addr "128".toList words 128 hdefault (by rw [hcut]; rfl)
      (by rw [hcut]; rfl) haccepted hdot hspells (by decide) (by decide) (by decide) (by decide)
  · intro size hlow hhigh
    have hdefault : addr ++ '/' :: decimal size ≠ "default".toList := by
      intro hsame
      have hslash : '/' ∈ addr ++ '/' :: decimal size :=
        List.mem_append_right _ List.mem_cons_self
      rw [hsame] at hslash
      exact absurd hslash (by decide)
    have hcut := cut_length hspells.ne_slash size
    exact overlaps_of_parts hdefault (by rw [hcut]; rfl) (by rw [hcut]; rfl) haccepted hdot hspells
      (digits_decimal size) (Nat.ofDigitChars_toDigits (by decide) (by decide)) hlow hhigh

/-- The loopback address. -/
theorem overlap_decided_loopback :
    isIPv6 "::1".toList = true ∧ ∃ words, Spells words "::1".toList :=
  ⟨by decide +kernel, (@overlap_decided "::1".toList (by decide +kernel) (by decide) (by decide)).1⟩

end Meshpn.Host.VpnIpv6
