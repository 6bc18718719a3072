import Mathlib.Data.List.Infix
import Meshpn.Lib.Bytes

/-!
Text read from bytes. A string stands for its UTF-8 encoding, so that reading
bytes as text keeps every well-formed sequence and puts the replacement
character in the place of the longest beginning of one that breaks off.

Strings as their UTF-16 code units, for code that counts, cuts and compares
them by unit.
-/

open List

namespace Meshpn.Lib.Bytes

/-- What may follow a leading byte; `none` for a byte that cannot lead. -/
def followers (b : UInt8) : Option (List (UInt8 × UInt8)) :=
  if b < 0x80 then some []
  else if b < 0xc2 then none
  else if b < 0xe0 then some [(0x80, 0xbf)]
  else if b = 0xe0 then some [(0xa0, 0xbf), (0x80, 0xbf)]
  else if b = 0xed then some [(0x80, 0x9f), (0x80, 0xbf)]
  else if b < 0xf0 then some [(0x80, 0xbf), (0x80, 0xbf)]
  else if b = 0xf0 then some [(0x90, 0xbf), (0x80, 0xbf), (0x80, 0xbf)]
  else if b < 0xf4 then some [(0x80, 0xbf), (0x80, 0xbf), (0x80, 0xbf)]
  else if b = 0xf4 then some [(0x80, 0x8f), (0x80, 0xbf), (0x80, 0xbf)]
  else none

/-- How many of the following bytes are as they may be. -/
def following : List (UInt8 × UInt8) → Bytes → Nat
  | (low, high) :: ranges, b :: rest =>
    if low ≤ b ∧ b ≤ high then following ranges rest + 1 else 0
  | _, _ => 0

def replacement : Bytes := [0xef, 0xbf, 0xbd]

def toTextFrom : Nat → Bytes → Bytes
  | 0, _ => []
  | _, [] => []
  | fuel + 1, b :: rest =>
    match followers b with
    | none => replacement ++ toTextFrom fuel rest
    | some ranges =>
      let n := following ranges rest
      if n = ranges.length then (b :: rest.take n) ++ toTextFrom fuel (rest.drop n)
      else replacement ++ toTextFrom fuel (rest.drop n)

/-- `buf.toString('utf8')`. -/
def toText (buf : Bytes) : Bytes := toTextFrom buf.length buf

def IsAscii (bytes : Bytes) : Prop := ∀ b ∈ bytes, b < 0x80

instance (bytes : Bytes) : Decidable (IsAscii bytes) :=
  List.decidableBAll (fun b : UInt8 => b < 0x80) bytes

theorem followers_ascii {b : UInt8} (h : b < 0x80) : followers b = some [] := by
  simp [followers, h]

theorem toTextFrom_ascii {fuel : Nat} {bytes : Bytes} (hfuel : bytes.length ≤ fuel)
    (hascii : IsAscii bytes) : toTextFrom fuel bytes = bytes := by
  induction fuel generalizing bytes with
  | zero =>
    have hnil := length_eq_zero_iff.mp (Nat.le_zero.mp hfuel)
    rw [hnil, toTextFrom]
  | succ fuel ih =>
    rcases bytes with _ | ⟨b, rest⟩
    · rfl
    have hrest : IsAscii rest := fun x hx => hascii x (mem_cons_of_mem b hx)
    rw [toTextFrom, followers_ascii (hascii b mem_cons_self)]
    simp only [following, length_nil, if_true, take_zero, drop_zero,
      cons_append, nil_append]
    rw [ih (by simpa using hfuel) hrest]

theorem toText_ascii {bytes : Bytes} (hascii : IsAscii bytes) : toText bytes = bytes :=
  toTextFrom_ascii le_rfl hascii

theorem toTextFrom_of_ascii {fuel : Nat} {bytes : Bytes} (hfuel : bytes.length ≤ fuel)
    (hascii : IsAscii (toTextFrom fuel bytes)) : IsAscii bytes := by
  induction fuel generalizing bytes with
  | zero =>
    rw [length_eq_zero_iff.mp (Nat.le_zero.mp hfuel)]
    intro b hb
    cases hb
  | succ fuel ih =>
    cases bytes with
    | nil =>
      intro b hb
      cases hb
    | cons b rest =>
      have hreplaced : ∀ more, ¬IsAscii (replacement ++ more) := fun more h =>
        absurd (h 0xef (mem_append_left _ mem_cons_self)) (by decide)
      rw [toTextFrom] at hascii
      split at hascii
      case h_1 => exact absurd hascii (hreplaced _)
      rename_i ranges hranges
      dsimp only at hascii
      split at hascii
      case isTrue =>
        have hb : b < 0x80 := hascii b (by simp)
        rw [followers_ascii hb] at hranges
        cases hranges
        have hrest := @ih rest (by simpa using hfuel) fun x hx =>
          hascii x (by simp [following, hx])
        intro x hx
        rcases mem_cons.mp hx with rfl | hx
        · exact hb
        · exact hrest x hx
      case isFalse => exact absurd hascii (hreplaced _)

theorem toText_eq_of_ascii {bytes : Bytes} (hascii : IsAscii (toText bytes)) :
    toText bytes = bytes :=
  toText_ascii (toTextFrom_of_ascii le_rfl hascii)

/-- The bytes of the character that a byte leads. -/
def charLength (b : UInt8) : Nat :=
  if b < 0x80 then 1 else if b < 0xe0 then 2 else if b < 0xf0 then 3 else 4

/-- The characters of a text, of which there are at most as many as the fuel. -/
def charsFrom : Nat → Bytes → List Bytes
  | 0, _ => []
  | _, [] => []
  | fuel + 1, b :: rest =>
    (b :: rest.take (charLength b - 1)) :: charsFrom fuel (rest.drop (charLength b - 1))

/-- `[...text]`. -/
def chars (text : Bytes) : List Bytes := charsFrom text.length text

/-- The UTF-16 units of a character. -/
def charUnits (char : Bytes) : Nat := if char.length = 4 then 2 else 1

/-- `text.length`. -/
def unitCount (text : Bytes) : Nat := ((chars text).map charUnits).sum

/-- The first `n` units of the characters; half of a pair is replaced. -/
def sliceUnits : Nat → List Bytes → Bytes
  | 0, _ => []
  | _, [] => []
  | n + 1, char :: rest =>
    if charUnits char = 1 then char ++ sliceUnits n rest
    else if n = 0 then replacement
    else char ++ sliceUnits (n - 1) rest

end Meshpn.Lib.Bytes

namespace Meshpn.Lib

abbrev Units := List UInt16

namespace Units

/-- A literal of characters below U+10000. -/
def ofString (s : String) : Units := s.toList.map fun c => UInt16.ofNat c.toNat

def IsAscii (text : Units) : Prop := ∀ u ∈ text, u < 0x80

instance (text : Units) : Decidable (IsAscii text) :=
  List.decidableBAll (fun u : UInt16 => u < 0x80) text

/-- What `trim` removes. -/
def isSpace (u : UInt16) : Bool :=
  (0x09 ≤ u && u ≤ 0x0d) || u == 0x20 || u == 0xa0 || u == 0x1680 || (0x2000 ≤ u && u ≤ 0x200a) ||
    u == 0x2028 || u == 0x2029 || u == 0x202f || u == 0x205f || u == 0x3000 || u == 0xfeff

def trim (text : Units) : Units :=
  ((text.dropWhile isSpace).reverse.dropWhile isSpace).reverse

/-- The small letter of an ASCII capital; other units stay. -/
def lowerAscii (u : UInt16) : UInt16 := if 0x41 ≤ u ∧ u ≤ 0x5a then u + 0x20 else u

/-- `text.slice(0, stop)`, where a negative end counts from the back. -/
def sliceTo (text : Units) (stop : Int) : Units :=
  if 0 ≤ stop then text.take stop.toNat else text.take (text.length - (-stop).toNat)

def isHighSurrogate (u : UInt16) : Bool := 0xd800 ≤ u && u ≤ 0xdbff

def isLowSurrogate (u : UInt16) : Bool := 0xdc00 ≤ u && u ≤ 0xdfff

/-- The bytes of a unit that is no half of a pair; one half alone is replaced. -/
def unitBytes (u : UInt16) : Nat := if u < 0x80 then 1 else if u < 0x800 then 2 else 3

def byteLength : Units → Nat
  | [] => 0
  | [u] => unitBytes u
  | u :: v :: rest =>
    if isHighSurrogate u && isLowSurrogate v then 4 + byteLength rest
    else unitBytes u + byteLength (v :: rest)

theorem unitBytes_pos (u : UInt16) : 1 ≤ unitBytes u := by
  unfold unitBytes
  split
  · exact le_rfl
  · split <;> decide

theorem length_le_byteLength (text : Units) : text.length ≤ byteLength text := by
  fun_induction byteLength text with
  | case1 => exact le_rfl
  | case2 u => exact unitBytes_pos u
  | case3 u v rest hpair ih =>
    simp only [length_cons]
    omega
  | case4 u v rest hpair ih =>
    have hpos := unitBytes_pos u
    simp only [length_cons] at ih ⊢
    omega

/-- The units of a text that is well-formed UTF-8. -/
def decodeFrom : Nat → Bytes → Units
  | 0, _ => []
  | _, [] => []
  | fuel + 1, b :: rest =>
    if b < 0x80 then b.toUInt16 :: decodeFrom fuel rest
    else
      match rest with
      | [] => []
      | b1 :: rest =>
        if b < 0xe0 then
          ((b.toUInt16 &&& 0x1f) <<< 6 ||| (b1.toUInt16 &&& 0x3f)) :: decodeFrom fuel rest
        else
          match rest with
          | [] => []
          | b2 :: rest =>
            if b < 0xf0 then
              ((b.toUInt16 &&& 0x0f) <<< 12 ||| (b1.toUInt16 &&& 0x3f) <<< 6 |||
                (b2.toUInt16 &&& 0x3f)) :: decodeFrom fuel rest
            else
              match rest with
              | [] => []
              | b3 :: rest =>
                -- the pair of a character from U+10000 on
                let high := ((b.toUInt16 &&& 0x07) <<< 8 ||| (b1.toUInt16 &&& 0x3f) <<< 2 |||
                  (b2.toUInt16 &&& 0x3f) >>> 4) - 0x40
                let low := (b2.toUInt16 &&& 0x0f) <<< 6 ||| (b3.toUInt16 &&& 0x3f)
                (0xd800 + high) :: (0xdc00 + low) :: decodeFrom fuel rest

/-- `buf.toString('utf8')`. -/
def ofBytes (buf : Bytes) : Units := decodeFrom (Bytes.toText buf).length (Bytes.toText buf)

theorem decodeFrom_ascii {fuel : Nat} {bytes : Bytes} (hfuel : bytes.length ≤ fuel)
    (hascii : Bytes.IsAscii bytes) : decodeFrom fuel bytes = bytes.map UInt8.toUInt16 := by
  induction fuel generalizing bytes with
  | zero => rw [length_eq_zero_iff.mp (Nat.le_zero.mp hfuel), decodeFrom, map_nil]
  | succ fuel ih =>
    rcases bytes with _ | ⟨b, rest⟩
    · rfl
    have hrest : Bytes.IsAscii rest := fun x hx => hascii x (mem_cons_of_mem b hx)
    rw [decodeFrom.eq_def]
    dsimp only
    rw [if_pos (hascii b mem_cons_self), map_cons, ih (by simpa using hfuel) hrest]

theorem ofBytes_ascii {bytes : Bytes} (hascii : Bytes.IsAscii bytes) :
    ofBytes bytes = bytes.map UInt8.toUInt16 := by
  rw [ofBytes, Bytes.toText_ascii hascii]
  exact decodeFrom_ascii le_rfl hascii

/-- The bytes of a text that is ASCII. -/
def asciiBytes (text : Units) : Bytes := text.map UInt16.toUInt8

theorem toUInt16_toUInt8 {u : UInt16} (h : u < 0x80) : u.toUInt8.toUInt16 = u := by
  have hlt : u.toNat < 128 := UInt16.lt_iff_toNat_lt.mp h
  apply UInt16.toNat_inj.mp
  rw [UInt8.toNat_toUInt16, UInt16.toNat_toUInt8]
  omega

theorem toUInt8_lt {u : UInt16} (h : u < 0x80) : u.toUInt8 < 0x80 := by
  have hlt : u.toNat < 128 := UInt16.lt_iff_toNat_lt.mp h
  rw [UInt8.lt_iff_toNat_lt, UInt16.toNat_toUInt8]
  change u.toNat % 256 < 128
  omega

theorem ofBytes_asciiBytes {text : Units} (h : IsAscii text) : ofBytes (asciiBytes text) = text := by
  have hascii : Bytes.IsAscii (asciiBytes text) := by
    intro b hb
    obtain ⟨u, hu, rfl⟩ := mem_map.mp hb
    exact toUInt8_lt (h u hu)
  rw [ofBytes_ascii hascii, asciiBytes, map_map]
  refine map_congr_left (fun u hu => ?_) |>.trans (map_id text)
  exact toUInt16_toUInt8 (h u hu)

theorem intercalate_append {α : Type*} (separator : List α) {front back : List (List α)}
    (hfront : front ≠ []) (hback : back ≠ []) :
    separator.intercalate (front ++ back) =
      separator.intercalate front ++ separator ++ separator.intercalate back := by
  induction front with
  | nil => exact absurd rfl hfront
  | cons part front ih =>
    rcases front with _ | ⟨next, front⟩
    · rw [singleton_append, intercalate_cons_of_ne_nil hback,
        intercalate_singleton]
    rw [cons_append, intercalate_cons_of_ne_nil (by simp),
      ih (by simp), intercalate_cons_cons]
    simp only [append_assoc]

theorem mem_intercalate {α : Type*} {separator : List α} {parts : List (List α)} {a : α}
    (h : a ∈ separator.intercalate parts) : (∃ part ∈ parts, a ∈ part) ∨ a ∈ separator := by
  induction parts with
  | nil => cases h
  | cons part parts ih =>
    by_cases hnil : parts = []
    · subst hnil
      rw [intercalate_singleton] at h
      exact Or.inl ⟨part, mem_cons_self, h⟩
    · rw [intercalate_cons_of_ne_nil hnil] at h
      rcases mem_append.mp h with hfront | hrest
      · rcases mem_append.mp hfront with hpart | hseparator
        · exact Or.inl ⟨part, mem_cons_self, hpart⟩
        · exact Or.inr hseparator
      · rcases ih hrest with ⟨other, hother, hmem⟩ | hseparator
        · exact Or.inl ⟨other, mem_cons_of_mem _ hother, hmem⟩
        · exact Or.inr hseparator

theorem not_mem_of_mem_splitOn {separator : UInt16} {text part : Units}
    (h : part ∈ text.splitOn separator) : separator ∉ part := by
  induction text generalizing part with
  | nil =>
    rw [splitOn_nil, mem_singleton] at h
    rw [h]
    exact not_mem_nil
  | cons u text ih =>
    rw [splitOn_cons_eq_if_modifyHead] at h
    split at h
    case isTrue =>
      rcases mem_cons.mp h with rfl | hrest
      · exact not_mem_nil
      · exact ih hrest
    rename_i hu
    -- the unit goes to the front of the first part
    rcases hparts : text.splitOn separator with _ | ⟨first, parts⟩
    · exact absurd hparts (splitOn_ne_nil _ _)
    rw [hparts, modifyHead_cons] at h
    rw [hparts] at ih
    rcases mem_cons.mp h with rfl | hrest
    · intro hmem
      rcases mem_cons.mp hmem with rfl | hfirst
      · exact hu (beq_self_eq_true _)
      · exact ih mem_cons_self hfirst
    · exact ih (mem_cons_of_mem _ hrest)

end Units

end Meshpn.Lib
