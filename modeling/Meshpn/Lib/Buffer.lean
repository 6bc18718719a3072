import Meshpn.Lib.Bytes

/-!
Reads of a byte buffer at computed offsets. Indexing past the end gives an
undefined value, which arithmetic turns into a number that compares false with
everything; a numeric read at such an offset, or past the end, throws.

Members of a record that is kept as one run of bytes: reading a member, and writing
bytes over a part of the record.
-/

open List

namespace Meshpn.Lib

/-- An offset or length: a natural number, or not a number. -/
inductive Num where
  | nan
  | int (n : Nat)
  deriving DecidableEq, Repr

namespace Num

def add : Num → Num → Num
  | .int a, .int b => .int (a + b)
  | _, _ => .nan

instance : Add Num := ⟨add⟩

/-- `length < x`. -/
def exceeds : Num → Nat → Bool
  | .nan, _ => false
  | .int x, length => length < x

@[simp] theorem int_add (a b : Nat) : (Num.int a + Num.int b) = .int (a + b) := rfl
@[simp] theorem nan_add (x : Num) : Num.nan + x = .nan := rfl
@[simp] theorem add_nan (x : Num) : x + Num.nan = .nan := by cases x <;> rfl
@[simp] theorem exceeds_nan (length : Nat) : exceeds .nan length = false := rfl
@[simp] theorem exceeds_int (x length : Nat) : exceeds (.int x) length = decide (length < x) := rfl

end Num

/-- Why a read or a loop did not end normally. -/
inductive Fault where
  /-- A read outside the buffer. -/
  | range
  /-- A loop that does not end. -/
  | stuck
  deriving DecidableEq, Repr

namespace Bytes

/-- `buf[o]`. -/
def index (buf : Bytes) : Num → Num
  | .nan => .nan
  | .int o =>
    match buf[o]? with
    | some byte => .int byte.toNat
    | none => .nan

def readUInt16BE (buf : Bytes) : Num → Except Fault Nat
  | .nan => .error .range
  | .int o =>
    match buf[o]?, buf[o + 1]? with
    | some high, some low => .ok (toUInt16 high low)
    | _, _ => .error .range

/-- `buf.readUIntBE(o, 3)`. -/
def readUInt24BE (buf : Bytes) (o : Nat) : Except Fault Nat :=
  match buf[o]?, buf[o + 1]?, buf[o + 2]? with
  | some b2, some b1, some b0 => .ok (65536 * b2.toNat + toUInt16 b1 b0)
  | _, _, _ => .error .range

/-- `buf.subarray(start, end)` for offsets that are numbers. -/
def subarray (buf : Bytes) (start stop : Nat) : Bytes := (buf.take stop).drop start

theorem index_int {buf : Bytes} {o : Nat} (h : o < buf.length) :
    index buf (.int o) = .int buf[o].toNat := by
  simp [index, h]

theorem index_end {buf : Bytes} {o : Nat} (h : buf.length ≤ o) : index buf (.int o) = .nan := by
  simp [index, h]

theorem readUInt16BE_int (buf : Bytes) (o : Nat) (h : o + 2 ≤ buf.length) :
    ∃ value, value < 65536 ∧ readUInt16BE buf (.int o) = .ok value := by
  have hhigh : o < buf.length := by omega
  have hlow : o + 1 < buf.length := by omega
  refine ⟨toUInt16 buf[o] buf[o + 1], toUInt16_lt _ _, ?_⟩
  simp [readUInt16BE, hhigh, hlow]

theorem subarray_length {buf : Bytes} {start stop : Nat} (h : stop ≤ buf.length) :
    (subarray buf start stop).length = stop - start := by
  simp only [subarray, length_drop, length_take]
  omega

end Bytes

end Meshpn.Lib

namespace Meshpn.Lib.Regions

/-- So many bytes from this place on. -/
def region (offset size : Nat) (memory : Bytes) : Bytes := (memory.drop offset).take size

/-- `memcpy` to this place. -/
def put (offset : Nat) (bytes memory : Bytes) : Bytes :=
  memory.take offset ++ bytes ++ memory.drop (offset + bytes.length)

/-- A text of C: what stands before the first zero. -/
def text (bytes : Bytes) : Bytes := bytes.takeWhile (· != 0)

section Put

variable {offset at' size : Nat} {bytes memory : Bytes}

theorem put_length (h : at' + bytes.length ≤ memory.length) :
    (put at' bytes memory).length = memory.length := by
  simp only [put, length_append, length_take, length_drop]
  omega

theorem region_put_inside (hmemory : at' ≤ memory.length) (hlow : at' ≤ offset)
    (hhigh : offset + size ≤ at' + bytes.length) :
    region offset size (put at' bytes memory) = region (offset - at') size bytes := by
  have htake : (memory.take at').length = at' := length_take_of_le hmemory
  rw [region, put, append_assoc, drop_append, htake, drop_of_length_le (by omega),
    nil_append, drop_append_of_le_length (by omega), take_append_of_le_length]
  · rfl
  · rw [length_drop]
    omega

theorem region_put_before (hmemory : at' ≤ memory.length) (h : offset + size ≤ at') :
    region offset size (put at' bytes memory) = region offset size memory := by
  have htake : (memory.take at').length = at' := length_take_of_le hmemory
  rw [region, put, append_assoc, drop_append_of_le_length (by omega),
    take_append_of_le_length (by rw [length_drop]; omega), drop_take, take_take]
  rw [Nat.min_eq_left (by omega)]
  rfl

theorem region_put_behind (hmemory : at' ≤ memory.length) (h : at' + bytes.length ≤ offset) :
    region offset size (put at' bytes memory) = region offset size memory := by
  have hfront : (memory.take at' ++ bytes).length = at' + bytes.length := by
    rw [length_append, length_take_of_le hmemory]
  rw [region, put, drop_append, drop_of_length_le (by omega), nil_append, hfront,
    drop_drop]
  have hsum : at' + bytes.length + (offset - (at' + bytes.length)) = offset := by omega
  rw [hsum]
  rfl

theorem region_put_start (hmemory : at' ≤ memory.length) (h : bytes.length ≤ size) :
    region at' size (put at' bytes memory) =
      bytes ++ region (at' + bytes.length) (size - bytes.length) memory := by
  have htake : (memory.take at').length = at' := length_take_of_le hmemory
  rw [region, put, append_assoc, drop_append, htake, drop_of_length_le (by omega),
    nil_append, Nat.sub_self, drop_zero, take_append, take_of_length_le h]
  rfl

end Put

theorem text_stored {s rest : Bytes} (h : (0 : UInt8) ∉ s) : text (s ++ 0 :: rest) = s := by
  have hall : ∀ c ∈ s, (c != 0) = true := fun c hc => bne_iff_ne.mpr fun heq => h (heq ▸ hc)
  rw [text, takeWhile_append_of_pos hall]
  simp

end Meshpn.Lib.Regions
