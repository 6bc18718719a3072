import Mathlib.Data.List.Basic
import Mathlib.Data.Nat.ModEq
import Mathlib.Logic.Function.Basic

/-!
A ring of a fixed number of slots with the position of its first entry and the
number of entries. The bounds of the two are part of the type; the entries are
what is read from the first position on, around the end of the slots.
-/

namespace Meshpn.Lib

/-- A ring of `size` slots. -/
structure Ring (α : Type) (size : Nat) where
  slots : Fin size → α
  head : Nat
  count : Nat
  head_lt : head < size
  count_le : count ≤ size

namespace Ring

variable {α : Type} {size : Nat}

theorem size_pos (ring : Ring α size) : 0 < size := by
  have hlt := ring.head_lt
  omega

/-- The index `i` behind the first entry's. -/
def index (ring : Ring α size) (i : Nat) : Fin size :=
  ⟨(ring.head + i) % size, Nat.mod_lt _ ring.size_pos⟩

/-- The slot `i` entries behind the first. -/
def slot (ring : Ring α size) (i : Nat) : α := ring.slots (ring.index i)

/-- The entries in order. -/
def toList (ring : Ring α size) : List α := (List.range ring.count).map ring.slot

@[simp] theorem toList_length (ring : Ring α size) : ring.toList.length = ring.count := by
  simp [toList]

/-- The ring without its entries, from the first slot on. -/
def clear (ring : Ring α size) : Ring α size :=
  ⟨ring.slots, 0, 0, ring.size_pos, Nat.zero_le _⟩

@[simp] theorem clear_toList (ring : Ring α size) : ring.clear.toList = [] := rfl

/-- An entry behind the last; a full ring stays as it is. -/
def push (ring : Ring α size) (a : α) : Ring α size :=
  if h : ring.count < size then
    ⟨Function.update ring.slots (ring.index ring.count) a, ring.head, ring.count + 1,
      ring.head_lt, h⟩
  else ring

/-- The first entry, if there is one. -/
def front (ring : Ring α size) : Option α :=
  if ring.count = 0 then none else some (ring.slot 0)

/-- The ring without its first entry. -/
def pop (ring : Ring α size) : Ring α size :=
  ⟨ring.slots, (ring.head + 1) % size, ring.count - 1, Nat.mod_lt _ ring.size_pos,
    (Nat.sub_le _ _).trans ring.count_le⟩

theorem index_ne (ring : Ring α size) {i j : Nat} (hij : i < j) (hj : j < size) :
    ring.index i ≠ ring.index j := by
  intro heq
  have hmod : (ring.head + i) % size = (ring.head + j) % size := congrArg Fin.val heq
  have hcancel : i % size = j % size := Nat.ModEq.add_left_cancel rfl hmod
  rw [Nat.mod_eq_of_lt (by omega), Nat.mod_eq_of_lt hj] at hcancel
  omega

theorem push_toList (ring : Ring α size) (a : α) (h : ring.count < size) :
    (ring.push a).toList = ring.toList ++ [a] := by
  have hpush : ring.push a =
      ⟨Function.update ring.slots (ring.index ring.count) a, ring.head, ring.count + 1,
        ring.head_lt, h⟩ := dif_pos h
  rw [hpush, toList, List.range_succ, List.map_append]
  congr 1
  · refine List.map_congr_left fun i hi => ?_
    have hlt : i < ring.count := List.mem_range.mp hi
    exact Function.update_of_ne (ring.index_ne hlt h) _ _
  · exact congrArg (fun last => [last]) (Function.update_self _ _ _)

theorem front_eq (ring : Ring α size) : ring.front = ring.toList.head? := by
  unfold front toList
  cases hcount : ring.count with
  | zero => rfl
  | succ n => simp [List.range_succ_eq_map]

theorem pop_slot (ring : Ring α size) (i : Nat) : ring.pop.slot i = ring.slot (i + 1) := by
  have hindex : ring.pop.index i = ring.index (i + 1) := by
    apply Fin.ext
    simp only [index, pop, Nat.mod_add_mod]
    congr 1
    omega
  exact congrArg ring.slots hindex

theorem pop_toList (ring : Ring α size) : ring.pop.toList = ring.toList.tail := by
  have hcount : ring.pop.count = ring.count - 1 := rfl
  unfold toList
  rw [hcount]
  cases ring.count with
  | zero => rfl
  | succ n =>
    rw [List.range_succ_eq_map, List.map_cons, List.map_map]
    exact List.map_congr_left fun i _ => ring.pop_slot i

theorem toList_eq_cons {ring : Ring α size} {a : α} (hfront : ring.front = some a) :
    ring.toList = a :: ring.pop.toList := by
  rw [front_eq] at hfront
  rw [pop_toList]
  rcases hlist : ring.toList with _ | ⟨b, rest⟩
  · simp [hlist] at hfront
  rw [hlist] at hfront
  cases hfront
  rfl

end Ring

end Meshpn.Lib
