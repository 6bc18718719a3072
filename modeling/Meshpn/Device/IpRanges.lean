import Mathlib.Data.List.GetD
import Mathlib.Data.List.Sort
import Meshpn.Lib.Bytes
import Meshpn.Lib.Utf8
import Meshpn.Lib.Intervals

/-!
Compiled IPv4 ranges: `compile-ip-ranges.mjs`, which turns lines of addresses and CIDR
blocks into a table, and the lookup of the device in such a table. A line is text in
UTF-16 units; comments, blank lines and white space around a block are dropped. Numbers
stay below 2^53 in the source, so they are natural numbers here.
-/

namespace Meshpn.Device.IpRanges

open Meshpn.Lib

def isDigit (u : UInt16) : Bool := 0x30 ≤ u && u ≤ 0x39

/-- `/^\d+$/`. -/
def isNumeral (text : Units) : Bool := !text.isEmpty && text.all isDigit

/-- `Number` of a numeral. -/
def number (text : Units) : Nat := text.foldl (fun n u => 10 * n + (u.toNat - 0x30)) 0

/-- `split` at a separator of one unit. -/
def split (separator : UInt16) : Units → List Units
  | [] => [[]]
  | u :: rest =>
    if u = separator then [] :: split separator rest
    else
      match split separator rest with
      | [] => [[u]]
      | part :: parts => (u :: part) :: parts

inductive ParseError where
  | invalidIPv4 | invalidOctet | invalidPrefix
  deriving DecidableEq, Repr

/-- A parsed block: the address as a number, and the length of the prefix. -/
structure Block where
  ip : Nat
  bits : Nat
  deriving DecidableEq, Repr

/-- `/^\d+\.\d+\.\d+\.\d+$/`, with the numbers. -/
def octets (text : Units) : Option (List Nat) :=
  let parts := split 0x2e text
  if parts.length == 4 && parts.all isNumeral then some (parts.map number) else none

/-- What `parseCIDR` reads, before it computes the range. -/
def parseBlock (text : Units) : Except ParseError Block :=
  match split 0x2f text with
  | address :: rest =>
    if 1 < rest.length then .error .invalidIPv4
    else
      match octets address with
      | none => .error .invalidIPv4
      | some octets =>
        if octets.any (255 < ·) then .error .invalidOctet
        else
          let bits := match rest with
            | [] => some 32
            | length :: _ => if isNumeral length then some (number length) else none
          match bits with
          | none => .error .invalidPrefix
          | some bits =>
            if 32 < bits then .error .invalidPrefix
            else .ok ⟨octets.foldl (fun a b => a * 256 + b) 0, bits⟩
  | [] => .error .invalidIPv4

/-- `[first, first + size - 1]`. -/
def Block.range (block : Block) : Interval :=
  let size := 2 ^ (32 - block.bits)
  let first := block.ip / size * size
  ⟨first, first + size - 1⟩

def parseCIDR (text : Units) : Except ParseError Interval := (parseBlock text).map Block.range

/-- `raw.replace(/#.*/, '').trim()`. -/
def content (raw : Units) : Units := Units.trim (raw.takeWhile (· != 0x23))

/-- The loop over the lines; the error names the line. -/
def readLines (lineNo : Nat) : List Units → Except (Nat × ParseError) (List Interval)
  | [] => .ok []
  | raw :: rest =>
    if (content raw).isEmpty then readLines (lineNo + 1) rest
    else
      match parseCIDR (content raw) with
      | .error e => .error (lineNo, e)
      | .ok range => (readLines (lineNo + 1) rest).map (range :: ·)

/-- `(a, b) => a[0] - b[0] || a[1] - b[1]` is not positive. -/
def before (a b : Interval) : Bool := a.first < b.first || (a.first == b.first && a.last ≤ b.last)

def mergeRanges (ranges : List Interval) : List Interval :=
  Interval.merge (ranges.mergeSort before)

/-- `writeUInt32LE`; `none` where it throws. -/
def writeUInt32LE (n : Nat) : Option Bytes :=
  if n < 4294967296 then
    some [UInt8.ofNat (n % 256), UInt8.ofNat (n / 256 % 256), UInt8.ofNat (n / 65536 % 256),
      UInt8.ofNat (n / 16777216)]
  else none

/-- `MPNIPV4` and a zero byte. -/
def magic : Bytes := [77, 80, 78, 73, 80, 86, 52, 0]

/-- The loop over the ranges. -/
def encodeEntries : List Interval → Option Bytes
  | [] => some []
  | r :: rest =>
    (writeUInt32LE r.first).bind fun first =>
      (writeUInt32LE r.last).bind fun last =>
        (encodeEntries rest).map fun entries => first ++ last ++ entries

def encodeRanges (ranges : List Interval) : Option Bytes :=
  (writeUInt32LE 1).bind fun version =>
    (writeUInt32LE ranges.length).bind fun count =>
      (encodeEntries ranges).map fun entries => magic ++ version ++ count ++ entries

/-- `main`, without the file: the merged ranges and the bytes of the table. -/
def compile (lines : List Units) : Except (Nat × ParseError) (List Interval × Option Bytes) :=
  (readLines 1 lines).map fun ranges => (mergeRanges ranges, encodeRanges (mergeRanges ranges))

def readUInt32LE : Bytes → Option (Nat × Bytes)
  | b0 :: b1 :: b2 :: b3 :: rest =>
    some (b0.toNat + 256 * b1.toNat + 65536 * b2.toNat + 16777216 * b3.toNat, rest)
  | _ => none

/-- The pairs of the table in host order. -/
def readEntries : Nat → Bytes → Option (List Interval)
  | 0, _ => some []
  | count + 1, bytes =>
    (readUInt32LE bytes).bind fun (first, rest) =>
      (readUInt32LE rest).bind fun (last, rest) =>
        (readEntries count rest).map (⟨first, last⟩ :: ·)

/-- The table of a file with the magic and version 1. -/
def readTable (bytes : Bytes) : Option (List Interval) :=
  if bytes.take 8 = magic then
    (readUInt32LE (bytes.drop 8)).bind fun (version, rest) =>
      if version = 1 then
        (readUInt32LE rest).bind fun (count, rest) => readEntries count rest
      else none
  else none

def meshvpnIpRangesContains (r : List Interval) (ip : Nat) : Bool :=
  Interval.search (fun i => r.getD i ⟨0, 0⟩) ip 0 r.length

/-- The block contains an address if the two agree in the bits of the prefix. -/
def Block.Contains (block : Block) (ip : Nat) : Prop :=
  ip >>> (32 - block.bits) = block.ip >>> (32 - block.bits)

/-- Some line of the file is a block with the address. -/
def Listed (lines : List Units) (ip : Nat) : Prop :=
  ∃ raw ∈ lines, content raw ≠ [] ∧ ∃ block, parseBlock (content raw) = .ok block ∧
    block.Contains ip

theorem number_foldl_lt {octets : List Nat} (hall : ∀ n ∈ octets, n ≤ 255) (start : Nat) :
    octets.foldl (fun a b => a * 256 + b) start < (start + 1) * 256 ^ octets.length := by
  induction octets generalizing start with
  | nil => simp
  | cons n rest ih =>
    have hn := hall n List.mem_cons_self
    have hrest := ih (fun m hm => hall m (List.mem_cons_of_mem _ hm)) (start * 256 + n)
    have hstep : (start * 256 + n + 1) * 256 ^ rest.length ≤
        (start + 1) * 256 * 256 ^ rest.length :=
      Nat.mul_le_mul_right _ (by omega)
    rw [List.foldl_cons, List.length_cons, pow_succ', ← mul_assoc]
    exact hrest.trans_le hstep

theorem octets_spec {text : Units} {found : List Nat} (h : octets text = some found) :
    found.length = 4 := by
  unfold octets at h
  dsimp only at h
  split at h
  case isTrue hshape =>
    obtain rfl := Option.some.inj h
    rw [List.length_map]
    simp only [Bool.and_eq_true, beq_iff_eq] at hshape
    exact hshape.1
  case isFalse => contradiction

theorem parseBlock_spec {text : Units} {block : Block} (h : parseBlock text = .ok block) :
    block.ip < 2 ^ 32 ∧ block.bits ≤ 32 := by
  unfold parseBlock at h
  split at h
  case h_2 => contradiction
  rename_i address rest _
  split at h
  case isTrue => contradiction
  split at h
  case h_1 => contradiction
  rename_i found hfound
  split at h
  case isTrue => contradiction
  rename_i hoctets
  dsimp only at h
  split at h
  case h_1 => contradiction
  rename_i bits _
  split at h
  case isTrue => contradiction
  rename_i hbits
  cases h
  refine ⟨?_, Nat.le_of_not_lt hbits⟩
  have hall : ∀ n ∈ found, n ≤ 255 := by simpa using hoctets
  have hlt := number_foldl_lt hall 0
  rw [octets_spec hfound] at hlt
  exact hlt

theorem range_contains (block : Block) (ip : Nat) :
    block.range.Contains ip ↔ block.Contains ip := by
  unfold Block.range Interval.Contains Block.Contains
  have hsize : 0 < 2 ^ (32 - block.bits) := Nat.two_pow_pos _
  rw [Nat.shiftRight_eq_div_pow, Nat.shiftRight_eq_div_pow]
  generalize 2 ^ (32 - block.bits) = size at hsize
  dsimp only
  constructor
  · rintro ⟨hlow, hhigh⟩
    have hless : ip < (block.ip / size + 1) * size := by
      rw [Nat.add_mul, Nat.one_mul]
      omega
    exact Nat.div_eq_of_lt_le hlow hless
  · intro heq
    rw [← heq]
    have hmul := Nat.div_mul_le_self ip size
    have hmod := Nat.lt_div_mul_add hsize (a := ip)
    omega

theorem range_spec {block : Block} (hip : block.ip < 2 ^ 32) (hbits : block.bits ≤ 32) :
    block.range.first ≤ block.range.last ∧ block.range.last < 2 ^ 32 := by
  have hsize : 0 < 2 ^ (32 - block.bits) := Nat.two_pow_pos _
  have hsplit : 2 ^ block.bits * 2 ^ (32 - block.bits) = 2 ^ 32 := by
    rw [← pow_add, Nat.add_sub_cancel' hbits]
  have hindex : block.ip / 2 ^ (32 - block.bits) < 2 ^ block.bits := by
    rw [Nat.div_lt_iff_lt_mul hsize, hsplit]
    exact hip
  have hnext : (block.ip / 2 ^ (32 - block.bits) + 1) * 2 ^ (32 - block.bits) ≤ 2 ^ 32 := by
    rw [← hsplit]
    exact Nat.mul_le_mul_right _ hindex
  rw [Nat.add_mul, Nat.one_mul] at hnext
  unfold Block.range
  dsimp only
  omega

variable {ranges : List Interval}

theorem readLines_spec {lines : List Units} {lineNo : Nat}
    (h : readLines lineNo lines = .ok ranges) :
    (∀ r ∈ ranges, r.first ≤ r.last ∧ r.last < 2 ^ 32) ∧
      ∀ ip, Interval.Covers ranges ip ↔ Listed lines ip := by
  induction lines generalizing lineNo ranges with
  | nil =>
    cases h
    exact ⟨nofun, fun ip => by simp [Listed]⟩
  | cons raw rest ih =>
    rw [readLines] at h
    split at h
    case isTrue hblank =>
      obtain ⟨hranges, hcovers⟩ := ih h
      refine ⟨hranges, fun ip => (hcovers ip).trans ?_⟩
      rw [List.isEmpty_iff] at hblank
      simp [Listed, hblank]
    case isFalse hsome =>
      have hne : content raw ≠ [] := by simpa using hsome
      split at h
      case h_1 => contradiction
      rename_i range hrange
      obtain ⟨others, hothers, rfl⟩ : ∃ others, readLines (lineNo + 1) rest = .ok others ∧
          range :: others = ranges := by
        cases hrest : readLines (lineNo + 1) rest with
        | error e =>
          rw [hrest] at h
          cases h
        | ok others =>
          rw [hrest] at h
          cases h
          exact ⟨others, rfl, rfl⟩
      obtain ⟨block, hblock, rfl⟩ : ∃ block, parseBlock (content raw) = .ok block ∧
          block.range = range := by
        unfold parseCIDR at hrange
        cases hparsed : parseBlock (content raw) with
        | error e =>
          rw [hparsed] at hrange
          cases hrange
        | ok block =>
          rw [hparsed] at hrange
          cases hrange
          exact ⟨block, rfl, rfl⟩
      obtain ⟨hranges, hcovers⟩ := ih hothers
      obtain ⟨hip, hbits⟩ := parseBlock_spec hblock
      refine ⟨?_, fun ip => ?_⟩
      · intro r hr
        rcases List.mem_cons.mp hr with rfl | hr
        · exact range_spec hip hbits
        · exact hranges r hr
      · rw [Interval.covers_cons, range_contains, hcovers]
        simp [Listed, hne, hblock]

theorem sorted_ranges (ranges : List Interval) :
    (ranges.mergeSort before).Pairwise fun a b => a.first ≤ b.first := by
  have hsorted := @List.pairwise_mergeSort _ before
    (fun a b c hab hbc => by
      simp only [before, Bool.or_eq_true, Bool.and_eq_true, decide_eq_true_eq, beq_iff_eq] at *
      omega)
    (fun a b => by
      simp only [before, Bool.or_eq_true, Bool.and_eq_true, decide_eq_true_eq, beq_iff_eq]
      omega) ranges
  refine hsorted.imp fun {a b} hab => ?_
  simp only [before, Bool.or_eq_true, Bool.and_eq_true, decide_eq_true_eq, beq_iff_eq] at hab
  omega

theorem mergeRanges_spec
    (hranges : ∀ r ∈ ranges, r.first ≤ r.last ∧ r.last < 2 ^ 32) :
    Interval.Separated (mergeRanges ranges) ∧ (∀ r ∈ mergeRanges ranges, r.last < 2 ^ 32) ∧
      ∀ ip, Interval.Covers (mergeRanges ranges) ip ↔ Interval.Covers ranges ip := by
  have hmem : ∀ r, r ∈ ranges.mergeSort before ↔ r ∈ ranges := fun r => List.mem_mergeSort
  have hproper : ∀ r ∈ ranges.mergeSort before, r.first ≤ r.last := fun r hr =>
    (hranges r ((hmem r).mp hr)).1
  refine ⟨Interval.merge_separated hproper (sorted_ranges ranges),
    Interval.merge_last_lt fun r hr => (hranges r ((hmem r).mp hr)).2, fun ip => ?_⟩
  rw [mergeRanges, Interval.merge_covers hproper (sorted_ranges ranges)]
  simp only [Interval.Covers, hmem]

theorem readUInt32LE_write {n : Nat} (h : n < 4294967296) (rest : Bytes) :
    ∃ bytes, writeUInt32LE n = some bytes ∧ bytes.length = 4 ∧
      readUInt32LE (bytes ++ rest) = some (n, rest) := by
  refine ⟨_, if_pos h, rfl, ?_⟩
  have hbyte : ∀ m, m < 256 → (UInt8.ofNat m).toNat = m := fun m hm => Bytes.toNat_ofNat hm
  simp only [List.cons_append, List.nil_append, readUInt32LE]
  rw [hbyte _ (by omega), hbyte _ (by omega), hbyte _ (by omega), hbyte _ (by omega)]
  congr 2
  omega

theorem readEntries_encode
    (h : ∀ r ∈ ranges, r.first < 4294967296 ∧ r.last < 4294967296) :
    ∃ bytes, encodeEntries ranges = some bytes ∧ readEntries ranges.length bytes = some ranges := by
  induction ranges with
  | nil => exact ⟨[], rfl, rfl⟩
  | cons r rest ih =>
    obtain ⟨entries, hentries, hread⟩ := ih fun other hother =>
      h other (List.mem_cons_of_mem _ hother)
    obtain ⟨hfirst, hlast⟩ := h r List.mem_cons_self
    obtain ⟨last, hwriteLast, -, hreadLast⟩ := readUInt32LE_write hlast entries
    obtain ⟨first, hwriteFirst, -, hreadFirst⟩ := readUInt32LE_write hfirst (last ++ entries)
    refine ⟨first ++ last ++ entries, ?_, ?_⟩
    · rw [encodeEntries, hwriteFirst, Option.bind_some, hwriteLast, Option.bind_some, hentries]
      rfl
    · rw [List.append_assoc, List.length_cons, readEntries, hreadFirst, Option.bind_some]
      dsimp only
      rw [hreadLast, Option.bind_some]
      dsimp only
      rw [hread]
      rfl

theorem readTable_encode (hcount : ranges.length < 4294967296)
    (h : ∀ r ∈ ranges, r.first < 4294967296 ∧ r.last < 4294967296) :
    ∃ bytes, encodeRanges ranges = some bytes ∧ readTable bytes = some ranges := by
  obtain ⟨entries, hentries, hread⟩ := readEntries_encode h
  obtain ⟨count, hwriteCount, -, hreadCount⟩ := readUInt32LE_write hcount entries
  obtain ⟨version, hwriteVersion, -, hreadVersion⟩ :=
    readUInt32LE_write (n := 1) (by decide) (count ++ entries)
  refine ⟨magic ++ version ++ count ++ entries, ?_, ?_⟩
  · rw [encodeRanges, hwriteVersion, Option.bind_some, hwriteCount, Option.bind_some, hentries]
    rfl
  · have hmagic : magic.length = 8 := rfl
    rw [List.append_assoc, List.append_assoc, readTable, if_pos (List.take_left' hmagic),
      List.drop_left' hmagic, hreadVersion, Option.bind_some]
    dsimp only
    rw [if_pos rfl, hreadCount, Option.bind_some]
    exact hread

theorem contains_iff {table : List Interval} (h : Interval.Separated table) (ip : Nat) :
    meshvpnIpRangesContains table ip = true ↔ Interval.Covers table ip := by
  have hget : ∀ i (hi : i < table.length), table.getD i ⟨0, 0⟩ = table[i] := fun i hi =>
    List.getD_eq_getElem table _ hi
  have hproper : ∀ i < table.length,
      (table.getD i ⟨0, 0⟩).first ≤ (table.getD i ⟨0, 0⟩).last := by
    intro i hi
    rw [hget i hi]
    exact h.proper _ (List.getElem_mem hi)
  have hapart : ∀ i j, i < j → j < table.length →
      (table.getD i ⟨0, 0⟩).last < (table.getD j ⟨0, 0⟩).first := by
    intro i j hij hj
    rw [hget i (hij.trans hj), hget j hj]
    have hgap := List.pairwise_iff_getElem.mp h.apart i j (hij.trans hj) hj hij
    omega
  rw [meshvpnIpRangesContains, Interval.search_iff ip hproper hapart 0 table.length le_rfl]
  unfold Interval.Covers
  constructor
  · rintro ⟨i, -, hi, hin⟩
    rw [hget i hi] at hin
    exact ⟨_, List.getElem_mem hi, hin⟩
  · rintro ⟨r, hr, hin⟩
    obtain ⟨i, hi, rfl⟩ := List.getElem_of_mem hr
    exact ⟨i, Nat.zero_le _, hi, by rwa [hget i hi]⟩

/-- The table of an accepted file is sorted, disjoint and not adjacent, fits its format and is
read back, and the lookup finds exactly the addresses that some line contains. -/
theorem compiled_lookup_exact (lines : List Units) (merged : List Interval)
    (encoded : Option Bytes) (haccepted : compile lines = .ok (merged, encoded)) :
    Interval.Separated merged ∧
      (∃ bytes, encoded = some bytes ∧ readTable bytes = some merged) ∧
      ∀ ip < 2 ^ 32, meshvpnIpRangesContains merged ip = true ↔ Listed lines ip := by
  unfold compile at haccepted
  cases hlines : readLines 1 lines with
  | error e =>
    rw [hlines] at haccepted
    cases haccepted
  | ok ranges =>
    rw [hlines] at haccepted
    cases haccepted
    obtain ⟨hranges, hlisted⟩ := readLines_spec hlines
    obtain ⟨hseparated, hbound, hcovers⟩ := mergeRanges_spec hranges
    refine ⟨hseparated, ?_, fun ip _ => ?_⟩
    · refine readTable_encode ?_ fun r hr => ?_
      · have hlength := hseparated.length_le hbound
        omega
      · have hlast := hbound r hr
        have hproper := hseparated.proper r hr
        exact ⟨by omega, by omega⟩
    · rw [contains_iff hseparated, hcovers, hlisted]

/-- `10.0.0.0/9`, its other half, and the last address. -/
def sampleLines : List Units :=
  [Units.ofString "10.128.0.0/9 # b", Units.ofString "10.0.0.0/9", Units.ofString "",
    Units.ofString "255.255.255.255"]

theorem sample_lookup_exact : ∃ merged encoded, compile sampleLines = .ok (merged, encoded) ∧
    (meshvpnIpRangesContains merged 184549375 = true ↔ Listed sampleLines 184549375) := by
  have hlines : readLines 1 sampleLines = .ok [⟨176160768, 184549375⟩,
      ⟨167772160, 176160767⟩, ⟨4294967295, 4294967295⟩] := by
    decide +kernel
  obtain ⟨merged, encoded, hcompiled⟩ :
      ∃ merged encoded, compile sampleLines = .ok (merged, encoded) := by
    rw [compile, hlines]
    exact ⟨_, _, rfl⟩
  obtain ⟨-, -, hlookup⟩ := compiled_lookup_exact sampleLines merged encoded hcompiled
  exact ⟨merged, encoded, hcompiled, hlookup 184549375 (by decide)⟩

end Meshpn.Device.IpRanges
