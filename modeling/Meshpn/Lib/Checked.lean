import Mathlib.Data.List.Basic
import Meshpn.Lib.Bytes

/-!
Access to a byte array of which the length is known. A load or a store outside the
array, a sum of 32 bits that does not fit, and a loop that does not end are faults;
what never faults is free of them.

Computations that may fail. A sequence succeeds when each of its steps does, on what the
step before has left.
-/

namespace Meshpn.Lib.Checked

inductive Fault where
  | range
  | wrap
  | stuck
  deriving DecidableEq, Repr

def load (p : Bytes) (i : Nat) : Except Fault Nat :=
  if i < p.length then .ok (p.getD i 0).toNat else .error .range

/-- Two bytes, the high one first. -/
def load16 (p : Bytes) (i : Nat) : Except Fault Nat :=
  (load p i).bind fun high => (load p (i + 1)).map fun low => 256 * high + low

/-- The low byte of a value. -/
def store (p : Bytes) (i v : Nat) : Except Fault Bytes :=
  if i < p.length then .ok (p.set i (UInt8.ofNat v)) else .error .range

def store16 (p : Bytes) (i v : Nat) : Except Fault Bytes :=
  (store p i (v / 256)).bind fun p => store p (i + 1) v

/-- `memcpy(dst + i, src + j, n)`. -/
def blit (dst : Bytes) (i : Nat) (src : Bytes) (j n : Nat) : Except Fault Bytes :=
  if j + n ≤ src.length ∧ i + n ≤ dst.length then
    .ok (dst.take i ++ (src.drop j).take n ++ dst.drop (i + n))
  else .error .range

def add32 (a b : Nat) : Except Fault Nat :=
  if a + b < 4294967296 then .ok (a + b) else .error .wrap

theorem load_ok {p : Bytes} {i : Nat} (h : i < p.length) : load p i = .ok (p.getD i 0).toNat :=
  if_pos h

theorem load16_ok {p : Bytes} {i : Nat} (h : i + 1 < p.length) :
    load16 p i = .ok (Bytes.toUInt16 (p.getD i 0) (p.getD (i + 1) 0)) := by
  rw [load16, load_ok (by omega), load_ok h]
  rfl

theorem store16_ok {p : Bytes} {i : Nat} (h : i + 1 < p.length) (v : Nat) :
    store16 p i v = .ok ((p.set i (UInt8.ofNat (v / 256))).set (i + 1) (UInt8.ofNat v)) := by
  have hset : i + 1 < (p.set i (UInt8.ofNat (v / 256))).length := by rwa [List.length_set]
  rw [store16, store, if_pos (by omega : i < p.length)]
  exact if_pos hset

theorem blit_ok {dst src : Bytes} {i j n : Nat} (hsrc : j + n ≤ src.length)
    (hdst : i + n ≤ dst.length) :
    blit dst i src j n = .ok (dst.take i ++ (src.drop j).take n ++ dst.drop (i + n)) :=
  if_pos ⟨hsrc, hdst⟩

theorem add32_ok {a b : Nat} (h : a + b < 4294967296) : add32 a b = .ok (a + b) := if_pos h

end Meshpn.Lib.Checked

namespace Meshpn.Lib.Fallible

variable {ε : Type*} {α β : Type}

variable {next : α → Except ε β} {items : List α} {P : β → Prop}

@[simp] theorem ok_bind {value : α} :
    (Except.ok value >>= next) = next value := rfl

theorem bind_eq_ok {x : Except ε α} {result : β} :
    (x >>= next) = .ok result ↔ ∃ value, x = .ok value ∧ next value = .ok result := by
  cases x with
  | error e =>
    constructor
    · intro h
      cases h
    · rintro ⟨_, h, _⟩
      cases h
  | ok value =>
    constructor
    · intro h
      exact ⟨value, rfl, h⟩
    · rintro ⟨_, hvalue, hnext⟩
      cases hvalue
      exact hnext

theorem pure_eq_ok {value result : α} : (pure value : Except ε α) = .ok result ↔ value = result :=
  ⟨fun h => by cases h; rfl, fun h => h ▸ rfl⟩

theorem foldlM_keeps {step : β → α → Except ε β}
    (hstep : ∀ item ∈ items, ∀ b b', step b item = .ok b' → P b → P b')
    {start result : β} (hstart : P start) (h : items.foldlM step start = .ok result) :
    P result := by
  induction items generalizing start with
  | nil =>
    rw [List.foldlM_nil, pure_eq_ok] at h
    exact h ▸ hstart
  | cons item rest ih =>
    rw [List.foldlM_cons, bind_eq_ok] at h
    obtain ⟨next, hnext, hrest⟩ := h
    exact ih (fun other hother => hstep other (List.mem_cons_of_mem _ hother))
      (hstep item List.mem_cons_self _ _ hnext hstart) hrest

theorem foldlM_congr {step other : β → α → Except ε β}
    (hsame : ∀ item b, P b → step b item = other b item)
    (hkeeps : ∀ item b b', step b item = .ok b' → P b → P b') {start : β} (hstart : P start) :
    items.foldlM step start = items.foldlM other start := by
  induction items generalizing start with
  | nil => rfl
  | cons item rest ih =>
    rw [List.foldlM_cons, List.foldlM_cons, ← hsame item start hstart]
    cases hnext : step start item with
    | error e => rfl
    | ok next => exact ih (hkeeps item start next hnext hstart)

theorem bind_ne_error {e : ε} {x : Except ε α} (hx : x ≠ .error e)
    (hnext : ∀ value, x = .ok value → next value ≠ .error e) : (x >>= next) ≠ .error e := by
  cases x with
  | error other => exact fun h => hx (by cases h; rfl)
  | ok value => exact hnext value rfl

theorem foldlM_ne_error {step : β → α → Except ε β} {e : ε}
    (hstep : ∀ item b, P b → step b item ≠ .error e)
    (hkeeps : ∀ item b b', step b item = .ok b' → P b → P b') {start : β} (hstart : P start) :
    items.foldlM step start ≠ .error e := by
  induction items generalizing start with
  | nil => exact fun h => by cases h
  | cons item rest ih =>
    exact bind_ne_error (hstep item start hstart)
      fun next hnext => ih (hkeeps item start next hnext hstart)

end Meshpn.Lib.Fallible
