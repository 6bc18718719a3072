import Mathlib.Data.Nat.ModEq
import Meshpn.Lib.Bytes

/-!
The checksum of IP, TCP, UDP and ICMP. The words of sixteen bits are added,
an odd last byte counts as the high half of a word, and the carries are
folded back. Folding keeps the sum modulo 65535, so a buffer that carries its
own checksum folds to 65535, and the checksum is zero for the buffers whose
sum is a positive multiple of 65535.
-/

namespace Meshpn.Lib.InternetChecksum

open Bytes List

/-- The sum after the words of a buffer, from the sum before them. -/
def addWords (sum : Nat) : Bytes → Nat
  | [] => sum
  | [b] => sum + b.toNat <<< 8
  | high :: low :: rest => addWords (sum + toUInt16 high low) rest

/-- Every value of the sum while the words are added, the first included. -/
def sums (sum : Nat) : Bytes → List Nat
  | [] => [sum]
  | [b] => [sum, sum + b.toNat <<< 8]
  | high :: low :: rest => sum :: sums (sum + toUInt16 high low) rest

/-- At most `fuel` turns of `while (sum >> 16) sum = (sum & 0xffff) + (sum >> 16)`, for
sums below 2^31, where the signed shift is a division. -/
def foldFor : Nat → Nat → Nat
  | 0, sum => sum
  | fuel + 1, sum =>
    if sum >>> 16 = 0 then sum else foldFor fuel (sum % 65536 + sum >>> 16)

/-- The whole loop: a turn makes the sum smaller. -/
def fold (sum : Nat) : Nat := foldFor sum sum

/-- The values that the sum takes in these turns, the first one included. -/
def turns : Nat → Nat → List Nat
  | 0, sum => [sum]
  | fuel + 1, sum =>
    if sum >>> 16 = 0 then [sum] else sum :: turns fuel (sum % 65536 + sum >>> 16)

/-- Every value of the sum, while the words are added and while the carries are folded. -/
def intermediate (buffer : Bytes) : List Nat :=
  sums 0 buffer ++ turns (addWords 0 buffer) (addWords 0 buffer)

/-- `(~sum) & 0xffff`. -/
def complement (sum : Nat) : Nat := ((-(sum : Int) - 1) % 65536).toNat

def checksum (buffer : Bytes) : Nat := complement (fold (addWords 0 buffer))

def wordSum : Bytes → Nat
  | [] => 0
  | [b] => b.toNat <<< 8
  | high :: low :: rest => toUInt16 high low + wordSum rest

theorem addWords_eq (sum : Nat) (buffer : Bytes) :
    addWords sum buffer = sum + wordSum buffer := by
  induction sum, buffer using addWords.induct with
  | case1 sum => rfl
  | case2 sum b => rfl
  | case3 sum high low rest ih => rw [addWords, ih, wordSum, Nat.add_assoc]

theorem wordSum_append {front : Bytes} (back : Bytes) (heven : front.length % 2 = 0) :
    wordSum (front ++ back) = wordSum front + wordSum back := by
  induction front using wordSum.induct with
  | case1 => exact (Nat.zero_add _).symm
  | case2 b => cases heven
  | case3 high low rest ih =>
    have hrest : rest.length % 2 = 0 := by
      simp only [length_cons] at heven
      omega
    rw [cons_append, cons_append, wordSum, wordSum, ih hrest, Nat.add_assoc]

variable {buffer : Bytes} {sum : Nat}

theorem wordSum_padded (hodd : buffer.length % 2 = 1) :
    wordSum (buffer ++ [0]) = wordSum buffer := by
  induction buffer using wordSum.induct with
  | case1 => cases hodd
  | case2 b =>
    rw [singleton_append, wordSum, wordSum, wordSum, toUInt16]
    simp only [UInt8.toNat_zero]
    omega
  | case3 high low rest ih =>
    have hrest : rest.length % 2 = 1 := by
      simp only [length_cons] at hodd
      omega
    rw [cons_append, cons_append, wordSum, wordSum, ih hrest]

@[simp] theorem wordSum_ofUInt16 {n : Nat} (h : n < 65536) : wordSum (ofUInt16 n) = n := by
  rw [ofUInt16, wordSum, wordSum, toUInt16_ofNat h, Nat.add_zero]

theorem wordSum_le (buffer : Bytes) : wordSum buffer ≤ 65535 * ((buffer.length + 1) / 2) := by
  induction buffer using wordSum.induct with
  | case1 => exact Nat.zero_le _
  | case2 b =>
    have hb := b.toNat_lt
    rw [wordSum]
    simp only [length_singleton]
    omega
  | case3 high low rest ih =>
    have hword := toUInt16_lt high low
    have hlength : ((high :: low :: rest).length + 1) / 2 = (rest.length + 1) / 2 + 1 := by
      simp only [length_cons]
      omega
    rw [wordSum]
    omega

/-- What a byte at an offset counts for. -/
def weight (i : Nat) : Nat := if i % 2 = 0 then 256 else 1

theorem weight_zero : weight 0 = 256 := rfl

theorem weight_one : weight 1 = 1 := rfl

theorem weight_add_two (i : Nat) : weight (i + 2) = weight i := by
  rw [weight, weight, Nat.add_mod_right]

theorem wordSum_set {i : Nat} (hi : i < buffer.length) (v : UInt8) :
    wordSum (buffer.set i v) + weight i * (buffer.getD i 0).toNat =
      wordSum buffer + weight i * v.toNat := by
  induction buffer using wordSum.induct generalizing i with
  | case1 => simp at hi
  | case2 b =>
    obtain rfl : i = 0 := by
      rw [length_singleton] at hi
      omega
    simp only [set_cons_zero, getD_cons_zero, wordSum, weight_zero]
    omega
  | case3 high low rest ih =>
    match i with
    | 0 =>
      simp only [set_cons_zero, getD_cons_zero, wordSum, weight_zero, toUInt16]
      omega
    | 1 =>
      simp only [set_cons_succ, set_cons_zero, getD_cons_succ,
        getD_cons_zero, wordSum, weight_one, toUInt16]
      omega
    | i + 2 =>
      simp only [length_cons] at hi
      have hrest := @ih i (by omega)
      simp only [set_cons_succ, getD_cons_succ, wordSum, weight_add_two]
      omega

theorem sums_le {start s : Nat} (h : s ∈ sums start buffer) :
    s ≤ addWords start buffer := by
  induction start, buffer using sums.induct with
  | case1 start => exact Nat.le_of_eq (mem_singleton.mp h)
  | case2 start b =>
    simp only [sums, mem_cons, not_mem_nil, or_false] at h
    rw [addWords]
    omega
  | case3 start high low rest ih =>
    rw [sums, mem_cons] at h
    rcases h with rfl | h
    · rw [addWords_eq]
      omega
    · exact ih h

theorem foldFor_mod (fuel sum : Nat) : foldFor fuel sum % 65535 = sum % 65535 := by
  induction fuel generalizing sum with
  | zero => rfl
  | succ fuel ih =>
    rw [foldFor]
    split
    · rfl
    · rw [ih, Nat.shiftRight_eq_div_pow]
      omega

theorem foldFor_lt {fuel sum : Nat} (h : sum ≤ fuel) : foldFor fuel sum < 65536 := by
  induction fuel generalizing sum with
  | zero =>
    rw [Nat.le_zero.mp h]
    decide
  | succ fuel ih =>
    rw [foldFor]
    split
    case isTrue hdone => omega
    apply ih
    omega

theorem foldFor_pos (fuel : Nat) (h : 0 < sum) : 0 < foldFor fuel sum := by
  induction fuel generalizing sum with
  | zero => exact h
  | succ fuel ih =>
    rw [foldFor]
    split
    case isTrue => exact h
    apply ih
    omega

theorem fold_eq_max : fold sum = 65535 ↔ 0 < sum ∧ 65535 ∣ sum := by
  have hmod : fold sum % 65535 = sum % 65535 := foldFor_mod sum sum
  have hlt : fold sum < 65536 := foldFor_lt (Nat.le_refl sum)
  constructor
  · intro h
    rw [h] at hmod
    refine ⟨?_, Nat.dvd_of_mod_eq_zero hmod.symm⟩
    rcases Nat.eq_zero_or_pos sum with rfl | hpos
    · cases h
    · exact hpos
  · rintro ⟨hpos, hdvd⟩
    have hfold : 0 < fold sum := foldFor_pos sum hpos
    omega

theorem turns_le {fuel sum s : Nat} (h : s ∈ turns fuel sum) : s ≤ sum := by
  induction fuel generalizing sum with
  | zero => exact Nat.le_of_eq (mem_singleton.mp h)
  | succ fuel ih =>
    rw [turns] at h
    split at h
    case isTrue => exact Nat.le_of_eq (mem_singleton.mp h)
    rcases mem_cons.mp h with rfl | hlater
    · exact Nat.le_refl s
    have hle := ih hlater
    omega

theorem intermediate_le {s : Nat} (h : s ∈ intermediate buffer) :
    s ≤ wordSum buffer := by
  have htotal : addWords 0 buffer = wordSum buffer := by rw [addWords_eq, Nat.zero_add]
  rcases mem_append.mp h with hadding | hfolding
  · exact htotal ▸ sums_le hadding
  · exact htotal ▸ turns_le hfolding

theorem complement_eq (h : sum < 65536) : complement sum = 65535 - sum := by
  unfold complement
  omega

theorem checksum_lt (buffer : Bytes) : checksum buffer < 65536 := by
  unfold checksum complement
  omega

theorem checksum_eq_zero :
    checksum buffer = 0 ↔ 0 < wordSum buffer ∧ 65535 ∣ wordSum buffer := by
  have hlt : fold (wordSum buffer) < 65536 := foldFor_lt (Nat.le_refl _)
  rw [← fold_eq_max, checksum, addWords_eq, Nat.zero_add, complement_eq hlt]
  omega

/-- A buffer whose words add up to those of another one and to the other's checksum
folds to 65535. -/
theorem fold_with_checksum (buffer : Bytes)
    (h : sum = wordSum buffer + checksum buffer) : fold sum = 65535 := by
  have hlt : fold (wordSum buffer) < 65536 := foldFor_lt (Nat.le_refl _)
  have hmod : fold (wordSum buffer) % 65535 = wordSum buffer % 65535 := foldFor_mod _ _
  have hvalue : checksum buffer = 65535 - fold (wordSum buffer) := by
    rw [checksum, addWords_eq, Nat.zero_add, complement_eq hlt]
  have hpos : fold (wordSum buffer) ≤ wordSum buffer ∨ 0 < wordSum buffer := by
    rcases Nat.eq_zero_or_pos (wordSum buffer) with hzero | hpos
    · left
      rw [hzero]
      decide
    · exact .inr hpos
  rw [fold_eq_max]
  constructor
  · omega
  · apply Nat.dvd_of_mod_eq_zero
    omega

end Meshpn.Lib.InternetChecksum
