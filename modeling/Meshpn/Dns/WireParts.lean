import Meshpn.Dns.Wire
import Meshpn.Lib.Checked

/-!
Where the reader of a message looks. A message that differs in its first bytes only reads
the same behind them; a name without a pointer is read from its own bytes alone.
-/

namespace Meshpn.Dns.Wire

open Meshpn.Lib Meshpn.Lib.Fallible

@[simp] theorem need_eq_ok {condition : Bool} {value : Unit} :
    need condition = .ok value ↔ condition = true := by
  cases condition <;> simp [need]

variable {packet : Bytes} {w : NameWalk} {i n : Nat}

theorem byteAt_eq_ok :
    byteAt packet i = .ok n ↔ ∃ byte, packet[i]? = some byte ∧ byte.toNat = n := by
  unfold byteAt
  split
  case h_1 byte hbyte => simp [hbyte]
  case h_2 hnone => simp [hnone]

theorem byteAt_lt (h : byteAt packet i = .ok n) : n < 256 := by
  obtain ⟨byte, _, rfl⟩ := byteAt_eq_ok.mp h
  exact byte.toNat_lt

theorem byteAt_congr {packet other : Bytes} {i : Nat} (h : packet[i]? = other[i]?) :
    byteAt packet i = byteAt other i := by
  rw [byteAt, byteAt, h]

theorem readUInt16_congr {packet other : Bytes} {i : Nat} (h0 : packet[i]? = other[i]?)
    (h1 : packet[i + 1]? = other[i + 1]?) : readUInt16 packet i = readUInt16 other i := by
  rw [readUInt16, readUInt16, byteAt_congr h0, byteAt_congr h1]

theorem readUInt16_lt (h : readUInt16 packet i = .ok n) :
    n < 65536 := by
  simp only [readUInt16, bind_eq_ok, pure_eq_ok] at h
  obtain ⟨high, hhigh, low, hlow, rfl⟩ := h
  have hhigh := byteAt_lt hhigh
  have hlow := byteAt_lt hlow
  omega

theorem readUInt32_lt (h : readUInt32 packet i = .ok n) :
    n < 4294967296 := by
  simp only [readUInt32, bind_eq_ok, pure_eq_ok] at h
  obtain ⟨high, hhigh, low, hlow, rfl⟩ := h
  have hhigh := readUInt16_lt hhigh
  have hlow := readUInt16_lt hlow
  omega

/-- What a pass of the loop over a name can do. -/
inductive NamePass (packet : Bytes) (w : NameWalk) : NameWalk ⊕ Name → Prop where
  | jump {target : Nat} (hmin : 12 ≤ target) (hback : target < w.pos)
      (hroom : w.pos + 1 < packet.length) :
      NamePass packet w (.inl { w with
        pos := target
        stop := some (w.stop.getD (w.pos + 2))
        compressed := true
        visited := w.pos :: w.visited })
  | finish (hnew : w.visited.contains w.pos = false) (hbyte : packet[w.pos]? = some 0) :
      NamePass packet w (.inr ⟨w.labels, w.stop.getD (w.pos + 1), w.compressed⟩)
  | label {byte : UInt8} (hnew : w.visited.contains w.pos = false)
      (hbyte : packet[w.pos]? = some byte) (hpos : 0 < byte.toNat) (hshort : byte.toNat ≤ 63)
      (hroom : w.pos + 1 + byte.toNat ≤ packet.length) (hsize : w.size + byte.toNat + 1 ≤ 255) :
      NamePass packet w (.inl { w with
        pos := w.pos + 1 + byte.toNat
        size := w.size + byte.toNat + 1
        labels := w.labels ++ [((packet.drop (w.pos + 1)).take byte.toNat).map folded]
        visited := w.pos :: w.visited })

theorem nameStep_pass {next : NameWalk ⊕ Name}
    (h : nameStep packet w = .ok next) : NamePass packet w next := by
  simp only [nameStep, bind_eq_ok, need_eq_ok, Bool.and_eq_true, decide_eq_true_eq] at h
  obtain ⟨-, ⟨-, hnew⟩, n, hn, h⟩ := h
  rw [Bool.not_eq_true'] at hnew
  obtain ⟨byte, hbyte, rfl⟩ := byteAt_eq_ok.mp hn
  split at h
  case isTrue hpointer =>
    simp only [bind_eq_ok, need_eq_ok, decide_eq_true_eq, Bool.and_eq_true, pure_eq_ok] at h
    obtain ⟨-, hroom, low, -, -, ⟨hmin, hback⟩, rfl⟩ := h
    exact .jump hmin hback hroom
  simp only [bind_eq_ok, need_eq_ok, decide_eq_true_eq, Bool.and_eq_true] at h
  obtain ⟨-, ⟨hshort, hroom⟩, h⟩ := h
  split at h
  case isTrue hzero =>
    rw [pure_eq_ok] at h
    subst h
    have hnull : byte = 0 := UInt8.toNat_inj.mp hzero
    exact .finish hnew (hnull ▸ hbyte)
  case isFalse hlong =>
    simp only [bind_eq_ok, need_eq_ok, decide_eq_true_eq, pure_eq_ok] at h
    obtain ⟨-, hsize, rfl⟩ := h
    exact .label hnew hbyte (by omega) hshort hroom hsize

theorem nameStep_finish
    (hnew : w.visited.contains w.pos = false) (hbyte : packet[w.pos]? = some 0) :
    nameStep packet w = .ok (.inr ⟨w.labels, w.stop.getD (w.pos + 1), w.compressed⟩) := by
  have hroom : w.pos < packet.length := (List.getElem?_eq_some_iff.mp hbyte).1
  have hn : byteAt packet w.pos = .ok 0 := byteAt_eq_ok.mpr ⟨0, hbyte, rfl⟩
  simp only [nameStep, bind_eq_ok, need_eq_ok, Bool.and_eq_true, decide_eq_true_eq,
    Bool.not_eq_true']
  refine ⟨(), ⟨hroom, hnew⟩, 0, hn, ?_⟩
  rw [if_neg (by omega), if_pos rfl, bind_eq_ok]
  exact ⟨(), need_eq_ok.mpr (by simp; omega), rfl⟩

theorem nameStep_label {byte : UInt8}
    (hnew : w.visited.contains w.pos = false) (hbyte : packet[w.pos]? = some byte)
    (hpos : 0 < byte.toNat) (hshort : byte.toNat ≤ 63)
    (hroom : w.pos + 1 + byte.toNat ≤ packet.length) (hsize : w.size + byte.toNat + 1 ≤ 255) :
    nameStep packet w = .ok (.inl { w with
      pos := w.pos + 1 + byte.toNat
      size := w.size + byte.toNat + 1
      labels := w.labels ++ [((packet.drop (w.pos + 1)).take byte.toNat).map folded]
      visited := w.pos :: w.visited }) := by
  have hn : byteAt packet w.pos = .ok byte.toNat := byteAt_eq_ok.mpr ⟨byte, hbyte, rfl⟩
  simp only [nameStep, bind_eq_ok, need_eq_ok, Bool.and_eq_true, decide_eq_true_eq,
    Bool.not_eq_true']
  refine ⟨(), ⟨by omega, hnew⟩, byte.toNat, hn, ?_⟩
  rw [if_neg (by omega), if_neg (by omega), bind_eq_ok]
  refine ⟨(), need_eq_ok.mpr (by simp; omega), ?_⟩
  rw [bind_eq_ok]
  exact ⟨(), need_eq_ok.mpr (by simpa using hsize), rfl⟩

/-- Where the walk over a name that begins at `start` stands. -/
structure Inward (packet : Bytes) (start : Nat) (w : NameWalk) : Prop where
  stop : ∀ stop, w.stop = some stop → start < stop ∧ stop ≤ packet.length
  pos : w.stop = none → start ≤ w.pos
  plain : w.compressed = false → w.stop = none ∧ w.pos + 1 = start + w.size
  size : w.size ≤ 255

theorem Inward.begin (packet : Bytes) (start : Nat) :
    Inward packet start ⟨start, none, 1, false, [], []⟩ where
  stop := fun _ h => by cases h
  pos := fun _ => le_rfl
  plain := fun _ => ⟨rfl, rfl⟩
  size := by simp

theorem Inward.step {packet : Bytes} {start : Nat} {w next : NameWalk}
    (hw : Inward packet start w) (h : NamePass packet w (.inl next)) :
    Inward packet start next := by
  cases h with
  | jump hmin hback hroom =>
    refine ⟨fun stop hstop => ?_, fun hnone => (by cases hnone), fun h => (by cases h), hw.size⟩
    cases hbefore : w.stop with
    | none =>
      simp only [hbefore, Option.getD_none, Option.some.injEq] at hstop
      have hpos := hw.pos hbefore
      omega
    | some before =>
      simp only [hbefore, Option.getD_some, Option.some.injEq] at hstop
      exact hstop ▸ hw.stop before hbefore
  | label hnew hbyte hpos hshort hroom hsize =>
    refine ⟨hw.stop, fun hnone => ?_, fun hplain => ?_, hsize⟩
    · have hpos := hw.pos hnone
      dsimp only
      omega
    · obtain ⟨hnone, heq⟩ := hw.plain hplain
      refine ⟨hnone, ?_⟩
      dsimp only
      omega

/-- A name ends behind its start and inside the message; without a pointer it takes at
most 255 bytes. -/
structure Bounded (packet : Bytes) (start : Nat) (name : Name) : Prop where
  behind : start < name.stop
  inside : name.stop ≤ packet.length
  plain : name.compressed = false → name.stop ≤ start + 255

theorem Inward.finish {start : Nat} {name : Name}
    (hw : Inward packet start w) (h : NamePass packet w (.inr name)) :
    Bounded packet start name := by
  cases h with
  | finish hnew hbyte =>
    have hroom := (List.getElem?_eq_some_iff.mp hbyte).1
    cases hstop : w.stop with
    | none =>
      have hpos := hw.pos hstop
      refine ⟨?_, ?_, fun hplain => ?_⟩
      · simp only [Option.getD_none]
        omega
      · simp only [Option.getD_none]
        omega
      · obtain ⟨-, heq⟩ := hw.plain hplain
        have hsize := hw.size
        simp only [Option.getD_none]
        omega
    | some stop =>
      obtain ⟨hstart, hend⟩ := hw.stop stop hstop
      refine ⟨hstart, hend, fun hplain => ?_⟩
      rw [(hw.plain hplain).1] at hstop
      cases hstop

theorem nameLoop_bounded {start : Nat} {name : Name} {steps : Nat} (hw : Inward packet start w) (h : nameLoop packet steps w = .ok name) :
    Bounded packet start name := by
  induction steps generalizing w with
  | zero => cases h
  | succ steps ih =>
    rw [nameLoop, bind_eq_ok] at h
    obtain ⟨next, hnext, h⟩ := h
    have hpass := nameStep_pass hnext
    cases next with
    | inl next => exact ih (hw.step hpass) h
    | inr found =>
      cases pure_eq_ok.mp h
      exact hw.finish hpass

theorem nameAt_bounded {start : Nat} {name : Name}
    (h : nameAt packet start = .ok name) : Bounded packet start name :=
  nameLoop_bounded (.begin packet start) h

/-- The messages have the same length and the same bytes from `k` on. -/
def SameFrom (k : Nat) (packet other : Bytes) : Prop :=
  packet.length = other.length ∧ ∀ i, k ≤ i → packet[i]? = other[i]?

section Same

variable {k : Nat} {packet other : Bytes}

variable {i : Nat}

theorem SameFrom.drop (h : SameFrom k packet other) (hi : k ≤ i) :
    packet.drop i = other.drop i := by
  apply List.ext_getElem?
  intro j
  rw [List.getElem?_drop, List.getElem?_drop]
  exact h.2 (i + j) (by omega)

theorem SameFrom.byteAt (h : SameFrom k packet other) (hi : k ≤ i) :
    byteAt packet i = byteAt other i := byteAt_congr (h.2 i hi)

theorem SameFrom.readUInt16 (h : SameFrom k packet other) (hi : k ≤ i) :
    readUInt16 packet i = readUInt16 other i :=
  readUInt16_congr (h.2 i hi) (h.2 (i + 1) (by omega))

theorem SameFrom.readUInt32 (h : SameFrom k packet other) (hi : k ≤ i) :
    readUInt32 packet i = readUInt32 other i := by
  rw [Wire.readUInt32, Wire.readUInt32, h.readUInt16 hi,
    h.readUInt16 (show k ≤ i + 2 by omega)]

theorem SameFrom.nameStep (h : SameFrom k packet other) {w : NameWalk} (hw : k ≤ w.pos) :
    nameStep packet w = nameStep other w := by
  simp only [Wire.nameStep, h.1, h.byteAt hw, h.byteAt (show k ≤ w.pos + 1 by omega),
    h.drop (show k ≤ w.pos + 1 by omega)]

theorem SameFrom.nameLoop (h : SameFrom k packet other) (hk : k ≤ 12) (steps : Nat)
    {w : NameWalk} (hw : k ≤ w.pos) : nameLoop packet steps w = nameLoop other steps w := by
  induction steps generalizing w with
  | zero => rfl
  | succ steps ih =>
    rw [Wire.nameLoop, Wire.nameLoop, ← h.nameStep hw]
    rcases hnext : Wire.nameStep packet w with e | next
    · rfl
    have hpass := nameStep_pass hnext
    cases next with
    | inr name => rfl
    | inl next =>
      refine ih ?_
      cases hpass with
      | jump hmin => exact Nat.le_trans hk hmin
      | label => exact Nat.le_trans hw (by dsimp only; omega)

theorem SameFrom.nameAt (h : SameFrom k packet other) (hk : k ≤ 12) {start : Nat}
    (hstart : k ≤ start) : nameAt packet start = nameAt other start :=
  h.nameLoop hk 128 hstart

theorem SameFrom.optionLoop (h : SameFrom k packet other) (stop fuel : Nat) {option : Nat}
    (hoption : k ≤ option) :
    optionLoop packet stop fuel option = optionLoop other stop fuel option := by
  induction fuel generalizing option with
  | zero => rfl
  | succ fuel ih =>
    simp only [Wire.optionLoop, h.readUInt16 (show k ≤ option + 2 by omega)]
    split
    case isFalse => rfl
    refine bind_congr fun _ => bind_congr fun length => bind_congr fun _ => ?_
    exact ih (by omega)

theorem SameFrom.readRecord (h : SameFrom k packet other) (hk : k ≤ 12) {w : Walk} {part : Nat}
    (hw : k ≤ w.pos) : readRecord packet w part = readRecord other w part := by
  unfold Wire.readRecord
  rw [← h.nameAt hk hw]
  rcases hname : Wire.nameAt packet w.pos with e | name
  · rfl
  have hstop := (nameAt_bounded hname).behind
  rw [ok_bind, ok_bind]
  simp only [h.1, h.readUInt16 (show k ≤ name.stop by omega),
    h.readUInt16 (show k ≤ name.stop + 2 by omega),
    h.readUInt32 (show k ≤ name.stop + 4 by omega),
    h.readUInt16 (show k ≤ name.stop + 8 by omega), noteEdns, readOpt,
    fun stop fuel => h.optionLoop stop fuel (show k ≤ name.stop + 10 by omega)]

end Same

end Meshpn.Dns.Wire
