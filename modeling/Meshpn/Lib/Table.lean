import Mathlib.Data.List.Nodup

/-!
Maps that remember the order in which their keys came in. Writing a key that is
there keeps its place, a new key goes to the end, and a walk over the entries
follows that order. Keys are unique by construction.
-/

namespace Meshpn.Lib

@[ext] structure Table (α β : Type*) where
  entries : List (α × β)
  nodup : (entries.map Prod.fst).Nodup

namespace Table

variable {α β : Type*} [DecidableEq α]

def empty : Table α β := ⟨[], List.nodup_nil⟩

def find (key : α) : List (α × β) → Option β
  | [] => none
  | (first, value) :: rest => if first = key then some value else find key rest

def write (key : α) (value : β) : List (α × β) → List (α × β)
  | [] => [(key, value)]
  | (first, old) :: rest =>
    if first = key then (first, value) :: rest else (first, old) :: write key value rest

theorem mem_keys_write {key other : α} {value : β} {entries : List (α × β)} :
    other ∈ (write key value entries).map Prod.fst ↔
      other = key ∨ other ∈ entries.map Prod.fst := by
  induction entries with
  | nil => simp [write]
  | cons entry rest ih =>
    obtain ⟨first, old⟩ := entry
    by_cases hfirst : first = key
    · simp only [write, if_pos hfirst, List.map_cons, List.mem_cons]
      constructor
      · exact .inr
      rintro (rfl | h)
      · exact .inl hfirst.symm
      · exact h
    · simp only [write, if_neg hfirst, List.map_cons, List.mem_cons, ih]
      tauto

theorem write_nodup {key : α} {value : β} {entries : List (α × β)}
    (h : (entries.map Prod.fst).Nodup) : ((write key value entries).map Prod.fst).Nodup := by
  induction entries with
  | nil => simp [write]
  | cons entry rest ih =>
    obtain ⟨first, old⟩ := entry
    rw [List.map_cons, List.nodup_cons] at h
    by_cases hfirst : first = key
    · simp only [write, if_pos hfirst, List.map_cons]
      exact List.nodup_cons.mpr h
    simp only [write, if_neg hfirst, List.map_cons]
    refine List.nodup_cons.mpr ⟨?_, ih h.2⟩
    rw [mem_keys_write]
    rintro (heq | hmem)
    · exact hfirst heq
    · exact h.1 hmem

def get (table : Table α β) (key : α) : Option β := find key table.entries

def has (table : Table α β) (key : α) : Bool := (table.get key).isSome

def set (table : Table α β) (key : α) (value : β) : Table α β :=
  ⟨write key value table.entries, write_nodup table.nodup⟩

def delete (table : Table α β) (key : α) : Table α β :=
  ⟨table.entries.filter fun entry => entry.1 ≠ key,
    table.nodup.sublist (List.filter_sublist.map _)⟩

/-- Every value is changed, no key. -/
def mapValues (table : Table α β) (f : β → β) : Table α β :=
  ⟨table.entries.map fun entry => (entry.1, f entry.2), by
    rw [List.map_map]
    exact table.nodup⟩

variable (table : Table α β) (key other : α) (value : β)

@[simp] theorem get_empty : (empty : Table α β).get key = none := rfl

theorem get_set : (table.set key value).get other =
    if key = other then some value else table.get other := by
  unfold get set
  dsimp only
  generalize table.entries = entries
  induction entries with
  | nil => rfl
  | cons entry rest ih =>
    obtain ⟨first, old⟩ := entry
    by_cases hfirst : first = key
    · subst hfirst
      by_cases hother : first = other <;> simp [write, find, hother]
    · by_cases hother : first = other
      · subst hother
        simp [write, find, hfirst, Ne.symm hfirst]
      · simp [write, find, hfirst, hother, ih]

@[simp] theorem get_set_self : (table.set key value).get key = some value := by
  rw [get_set, if_pos rfl]

theorem get_delete : (table.delete key).get other =
    if key = other then none else table.get other := by
  unfold get delete
  dsimp only
  generalize table.entries = entries
  induction entries with
  | nil => simp [find]
  | cons entry rest ih =>
    obtain ⟨first, old⟩ := entry
    by_cases hfirst : first = key
    · subst hfirst
      by_cases hother : first = other
      · simpa [hother] using ih
      · simpa [find, hother] using ih
    · by_cases hother : first = other
      · subst hother
        simp [find, hfirst, Ne.symm hfirst]
      · simpa [find, hfirst, hother] using ih

theorem has_set : (table.set key value).has other = (decide (key = other) || table.has other) := by
  by_cases h : key = other <;> simp [has, get_set, h]

theorem has_delete : (table.delete key).has other = (!decide (key = other) && table.has other) := by
  by_cases h : key = other <;> simp [has, get_delete, h]

theorem set_of_get {table : Table α β} {key : α} {value : β} (h : table.get key = some value) :
    table.set key value = table := by
  apply Table.ext
  unfold get at h
  unfold set
  dsimp only
  generalize table.entries = entries at h
  induction entries with
  | nil => cases h
  | cons entry rest ih =>
    obtain ⟨first, old⟩ := entry
    by_cases hfirst : first = key
    · simp only [find, if_pos hfirst, Option.some.injEq] at h
      simp [write, hfirst, h]
    · simp only [find, if_neg hfirst] at h
      simp [write, hfirst, ih h]

theorem mem_of_get {table : Table α β} {key : α} {value : β} (h : table.get key = some value) :
    (key, value) ∈ table.entries := by
  unfold get at h
  generalize table.entries = entries at h
  induction entries with
  | nil => cases h
  | cons entry rest ih =>
    obtain ⟨first, old⟩ := entry
    by_cases hfirst : first = key
    · simp only [find, if_pos hfirst, Option.some.injEq] at h
      simp [hfirst, h]
    · simp only [find, if_neg hfirst] at h
      exact List.mem_cons_of_mem _ (ih h)

theorem get_of_mem {table : Table α β} {key : α} (value : β) (h : (key, value) ∈ table.entries) :
    table.get key = some value := by
  have hnodup := table.nodup
  unfold get
  generalize table.entries = entries at h hnodup
  induction entries with
  | nil => cases h
  | cons entry rest ih =>
    obtain ⟨first, old⟩ := entry
    rw [List.map_cons, List.nodup_cons] at hnodup
    rcases List.mem_cons.mp h with heq | hmem
    · cases heq
      simp [find]
    · have hne : first ≠ key := by
        rintro rfl
        exact hnodup.1 (List.mem_map.mpr ⟨_, hmem, rfl⟩)
      simp only [find, if_neg hne]
      exact ih hmem hnodup.2

theorem has_iff_mem_keys (table : Table α β) {key : α} :
    table.has key = true ↔ key ∈ table.entries.map Prod.fst := by
  rw [has, Option.isSome_iff_exists]
  constructor
  · rintro ⟨value, hvalue⟩
    exact List.mem_map_of_mem (f := Prod.fst) (mem_of_get hvalue)
  · intro hkey
    obtain ⟨entry, hentry, rfl⟩ := List.mem_map.mp hkey
    exact ⟨entry.2, get_of_mem _ hentry⟩

theorem set_of_not_has {table : Table α β} {key : α} {value : β} (h : table.has key = false) :
    (table.set key value).entries = table.entries ++ [(key, value)] := by
  have hkey : key ∉ table.entries.map Prod.fst := by
    rw [← has_iff_mem_keys, h]
    exact Bool.false_ne_true
  unfold set
  dsimp only
  generalize table.entries = entries at hkey
  induction entries with
  | nil => rfl
  | cons entry rest ih =>
    rw [List.map_cons, List.mem_cons, not_or] at hkey
    simp [write, Ne.symm hkey.1, ih hkey.2]

end Table

end Meshpn.Lib
