import Mathlib.Data.List.Rotate

/-!
Going round a list: position after position, and from the last one back to the first. Whatever
the start, as many positions as the list is long meet each of its elements once.
-/

namespace Meshpn.Lib

open List

variable {α : Type*}

/-- The elements at `count` positions from `start` on, around the end of the list. -/
def rounds (xs : List α) (start count : Nat) : List (Option α) :=
  (List.range' start count).map fun i => xs[i % xs.length]?

theorem rounds_length (xs : List α) (start count : Nat) :
    (rounds xs start count).length = count := by
  rw [rounds, length_map, length_range']

theorem rounds_append (xs : List α) (start first second : Nat) :
    rounds xs start first ++ rounds xs (start + first) second =
      rounds xs start (first + second) := by
  rw [rounds, rounds, rounds, ← map_append, range'_append_1]

theorem rounds_succ (xs : List α) (start count : Nat) :
    rounds xs start (count + 1) = xs[start % xs.length]? :: rounds xs (start + 1) count := by
  rw [rounds, range'_succ, map_cons, rounds]

theorem rounds_mod (xs : List α) (start count : Nat) :
    rounds xs (start % xs.length) count = rounds xs start count := by
  induction count generalizing start with
  | zero => rfl
  | succ count ih =>
    rw [rounds_succ, rounds_succ, Nat.mod_mod, ← ih (start % xs.length + 1), ← ih (start + 1),
      Nat.mod_add_mod]

theorem rounds_drop_take (xs : List α) (start count skip window : Nat)
    (h : skip + window ≤ count) :
    ((rounds xs start count).drop skip).take window = rounds xs (start + skip) window := by
  obtain ⟨rest, rfl⟩ := Nat.exists_eq_add_of_le h
  rw [← rounds_append xs start (skip + window) rest, ← rounds_append xs start skip window,
    append_assoc, drop_left' (rounds_length xs start skip),
    take_left' (rounds_length xs (start + skip) window)]

theorem rounds_eq_rotate (xs : List α) (start : Nat) :
    rounds xs start xs.length = (xs.rotate start).map some := by
  apply ext_getElem?
  intro i
  rw [rounds, getElem?_map, getElem?_map]
  by_cases hi : i < xs.length
  · rw [getElem?_range' hi, getElem?_rotate hi, Nat.one_mul, Nat.add_comm start i]
    have hmod : (i + start) % xs.length < xs.length := Nat.mod_lt _ (by omega)
    simp [hmod]
  · rw [getElem?_eq_none (by rw [length_range']; omega),
      getElem?_eq_none (by rw [length_rotate]; omega)]
    rfl

theorem rounds_perm (xs : List α) (start : Nat) :
    (rounds xs start xs.length).Perm (xs.map some) := by
  rw [rounds_eq_rotate]
  exact (rotate_perm xs start).map some

/-- Fewer positions than the list is long meet different elements, where they are different. -/
theorem rounds_nodup {xs : List α} (h : xs.Nodup) (start : Nat) {count : Nat}
    (hcount : count ≤ xs.length) : (rounds xs start count).Nodup := by
  obtain ⟨rest, hrest⟩ := Nat.exists_eq_add_of_le hcount
  have hnodup : (rounds xs start xs.length).Nodup :=
    (rounds_perm xs start).nodup_iff.mpr (h.map fun _ _ => Option.some.inj)
  rw [hrest, ← rounds_append] at hnodup
  exact (nodup_append.mp hnodup).1

theorem mem_of_mem_rounds {xs : List α} {start count : Nat} {x : α}
    (h : some x ∈ rounds xs start count) : x ∈ xs := by
  obtain ⟨i, -, hi⟩ := mem_map.mp h
  exact mem_of_getElem? hi

theorem some_of_mem_rounds {xs : List α} (hne : xs ≠ []) {start count : Nat} {found : Option α}
    (h : found ∈ rounds xs start count) : ∃ x, found = some x := by
  obtain ⟨i, -, rfl⟩ := mem_map.mp h
  have hmod := Nat.mod_lt i (length_pos_iff.mpr hne)
  exact ⟨xs[i % xs.length], getElem?_eq_getElem hmod⟩

end Meshpn.Lib
