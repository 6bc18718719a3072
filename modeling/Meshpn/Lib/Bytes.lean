import Mathlib.Data.List.Basic
import Mathlib.Data.Nat.Notation
import Mathlib.Tactic.IntervalCases
import Mathlib.Tactic.Ring

/-!
Byte strings and big-endian fields. A write checks the range of its value and
a read checks that its bytes exist; both fail where a buffer would throw.

The byte order of a word of 32 bits: turning it round, and words that are put together
from their bytes.

Byte strings as lists of numbers of two bytes. An odd byte at the end is left out.
-/

namespace Meshpn.Lib

abbrev Bytes := List UInt8

namespace Bytes

/-- The two bytes of a number below 65536. -/
def ofUInt16 (n : Nat) : Bytes := [UInt8.ofNat (n / 256), UInt8.ofNat (n % 256)]

def toUInt16 (high low : UInt8) : Nat := 256 * high.toNat + low.toNat

@[simp] theorem ofUInt16_length (n : Nat) : (ofUInt16 n).length = 2 := rfl

theorem toUInt16_lt (high low : UInt8) : toUInt16 high low < 65536 := by
  have hhigh := high.toNat_lt
  have hlow := low.toNat_lt
  unfold toUInt16
  omega

theorem toUInt16_ofNat {n : Nat} (h : n < 65536) :
    toUInt16 (UInt8.ofNat (n / 256)) (UInt8.ofNat (n % 256)) = n := by
  have hhigh : (UInt8.ofNat (n / 256)).toNat = n / 256 :=
    UInt8.toNat_ofNat_of_lt' (by simp only [UInt8.size]; omega)
  have hlow : (UInt8.ofNat (n % 256)).toNat = n % 256 :=
    UInt8.toNat_ofNat_of_lt' (by simp only [UInt8.size]; omega)
  rw [toUInt16]
  omega

theorem ofUInt16_toUInt16 (high low : UInt8) : ofUInt16 (toUInt16 high low) = [high, low] := by
  have hlow := low.toNat_lt
  have hdiv : toUInt16 high low / 256 = high.toNat := by
    unfold toUInt16
    omega
  have hmod : toUInt16 high low % 256 = low.toNat := by
    unfold toUInt16
    omega
  rw [ofUInt16, hdiv, hmod, UInt8.ofNat_toNat, UInt8.ofNat_toNat]

/-- The four bytes of a number below 2^32. -/
def ofUInt32 (n : Nat) : Bytes := ofUInt16 (n / 65536) ++ ofUInt16 (n % 65536)

def toUInt32 (b3 b2 b1 b0 : UInt8) : Nat := 65536 * toUInt16 b3 b2 + toUInt16 b1 b0

@[simp] theorem ofUInt32_length (n : Nat) : (ofUInt32 n).length = 4 := rfl

/-- `readUInt32BE(0)`. -/
def readUInt32 : Bytes → Option Nat
  | b3 :: b2 :: b1 :: b0 :: _ => some (toUInt32 b3 b2 b1 b0)
  | _ => none

theorem toUInt32_ofNat {n : Nat} (h : n < 4294967296) :
    toUInt32 (UInt8.ofNat (n / 65536 / 256)) (UInt8.ofNat (n / 65536 % 256))
      (UInt8.ofNat (n % 65536 / 256)) (UInt8.ofNat (n % 65536 % 256)) = n := by
  rw [toUInt32, toUInt16_ofNat (by omega), toUInt16_ofNat (by omega)]
  omega

theorem readUInt32_ofUInt32 {n : Nat} (h : n < 4294967296) (rest : Bytes) :
    readUInt32 (ofUInt32 n ++ rest) = some n := by
  simp only [ofUInt32, ofUInt16, List.cons_append, List.nil_append, readUInt32,
    toUInt32_ofNat h]

theorem ofUInt32_toUInt32 (b3 b2 b1 b0 : UInt8) :
    ofUInt32 (toUInt32 b3 b2 b1 b0) = [b3, b2, b1, b0] := by
  have hlow := toUInt16_lt b1 b0
  have hdiv : toUInt32 b3 b2 b1 b0 / 65536 = toUInt16 b3 b2 := by
    unfold toUInt32
    omega
  have hmod : toUInt32 b3 b2 b1 b0 % 65536 = toUInt16 b1 b0 := by
    unfold toUInt32
    omega
  rw [ofUInt32, hdiv, hmod, ofUInt16_toUInt16, ofUInt16_toUInt16]
  rfl

theorem toNat_ofNat {n : Nat} (h : n < 256) : (UInt8.ofNat n).toNat = n :=
  UInt8.toNat_ofNat_of_lt' h

end Bytes

end Meshpn.Lib

namespace Meshpn.Lib.ByteOrder

/-- `lwip_htonl` on a CPU that keeps the low byte first. -/
def htonl (x : BitVec 32) : BitVec 32 :=
  (x &&& 0xff#32) <<< 24 ||| (x &&& 0xff00#32) <<< 8 ||| (x &&& 0xff0000#32) >>> 8 |||
    (x &&& 0xff000000#32) >>> 24

example : htonl 0x01020304#32 = 0x04030201#32 := by decide

/-- Where a bit of the turned word comes from. -/
def turned (i : ℕ) : ℕ := 24 - i / 8 * 8 + i % 8

theorem getLsbD_htonl {i : ℕ} (hi : i < 32) (x : BitVec 32) :
    (htonl x).getLsbD i = x.getLsbD (turned i) := by
  interval_cases i <;> simp [htonl, turned]

theorem turned_lt {i : ℕ} (hi : i < 32) : turned i < 32 := by
  unfold turned
  omega

theorem turned_turned {i : ℕ} (hi : i < 32) : turned (turned i) = i := by
  unfold turned
  omega

theorem htonl_htonl (x : BitVec 32) : htonl (htonl x) = x := by
  apply BitVec.eq_of_getLsbD_eq
  intro i hi
  rw [getLsbD_htonl hi, getLsbD_htonl (turned_lt hi), turned_turned hi]

theorem htonl_and (x y : BitVec 32) : htonl (x &&& y) = htonl x &&& htonl y := by
  apply BitVec.eq_of_getLsbD_eq
  intro i hi
  rw [BitVec.getLsbD_and, getLsbD_htonl hi, getLsbD_htonl hi, getLsbD_htonl hi,
    BitVec.getLsbD_and]

theorem htonl_inj {x y : BitVec 32} : htonl x = htonl y ↔ x = y := by
  constructor
  · intro h
    rw [← htonl_htonl x, h, htonl_htonl]
  · exact congrArg htonl

/-- A word from its bytes, the high one first. -/
def word (a b c d : BitVec 8) : BitVec 32 :=
  a.setWidth 32 <<< 24 ||| b.setWidth 32 <<< 16 ||| c.setWidth 32 <<< 8 ||| d.setWidth 32

theorem htonl_word (a b c d : BitVec 8) : htonl (word a b c d) = word d c b a := by
  apply BitVec.eq_of_getLsbD_eq
  intro i hi
  rw [getLsbD_htonl hi]
  interval_cases i <;> simp [word, turned]

end Meshpn.Lib.ByteOrder

namespace Meshpn.Lib.Words

open Meshpn.Lib.Bytes

def pairs : Bytes → List Nat
  | high :: low :: rest => toUInt16 high low :: pairs rest
  | _ => []

/-- The next even number. -/
def rounded (n : Nat) : Nat := n + n % 2

theorem pairs_of_short {bytes : Bytes} (h : bytes.length < 2) : pairs bytes = [] := by
  match bytes, h with
  | [], _ => rfl
  | [_], _ => rfl
  | _ :: _ :: rest, h =>
    rw [List.length_cons, List.length_cons] at h
    omega

theorem pairs_append {front rest : Bytes} (h : front.length % 2 = 0) :
    pairs (front ++ rest) = pairs front ++ pairs rest := by
  induction front using pairs.induct with
  | case1 high low front ih =>
    rw [List.length_cons, List.length_cons] at h
    rw [List.cons_append, List.cons_append, pairs, pairs, ih (by omega), List.cons_append]
  | case2 front hshort =>
    match front, h with
    | [], _ => rfl
    | [_], h => cases h
    | high :: low :: rest, _ => exact absurd rfl (hshort high low rest)

theorem pairs_ofUInt16 {n : Nat} (h : n < 65536) (rest : Bytes) :
    pairs (ofUInt16 n ++ rest) = n :: pairs rest := by
  rw [ofUInt16, List.cons_append, List.cons_append, List.nil_append, pairs, toUInt16_ofNat h]

theorem rounded_add_two (n : Nat) : rounded (n + 2) = rounded n + 2 := by
  unfold rounded
  omega

theorem pairs_take_two {high low : UInt8} {rest : Bytes} (n : Nat) :
    pairs ((high :: low :: rest).take (n + 2)) = toUInt16 high low :: pairs (rest.take n) := rfl

theorem pairs_take_insert {front rest : Bytes} {n limit : Nat} (hn : n < 65536)
    (heven : front.length % 2 = 0) (hlimit : front.length ≤ limit) :
    pairs ((front ++ (ofUInt16 n ++ rest)).take (limit + 2)) =
        pairs front ++ n :: pairs (rest.take (limit - front.length)) ∧
      pairs ((front ++ rest).take limit) = pairs front ++ pairs (rest.take (limit - front.length)) := by
  have hroom : limit + 2 - front.length = limit - front.length + 2 := by omega
  constructor
  · rw [List.take_append, List.take_of_length_le (by omega), pairs_append heven, hroom]
    rw [← pairs_ofUInt16 hn]
    rfl
  · rw [List.take_append, List.take_of_length_le hlimit, pairs_append heven]

end Meshpn.Lib.Words
