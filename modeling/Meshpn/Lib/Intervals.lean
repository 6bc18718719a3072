import Mathlib.Data.List.Pairwise
import Mathlib.Order.MinMax

/-!
Closed intervals of numbers. Intervals in the order of their first numbers are joined
in one pass where they overlap or touch; what comes out is sorted and has a gap behind
every interval, and covers the same numbers. In such a list a binary search finds the
interval of a number if there is one.
-/

namespace Meshpn.Lib

open List

/-- The numbers from `first` to `last`, both included. -/
structure Interval where
  first : Nat
  last : Nat
  deriving DecidableEq, Repr

namespace Interval

def Contains (r : Interval) (x : Nat) : Prop := r.first ≤ x ∧ x ≤ r.last

def Covers (rs : List Interval) (x : Nat) : Prop := ∃ r ∈ rs, r.Contains x

/-- Sorted, disjoint and not adjacent. -/
structure Separated (rs : List Interval) : Prop where
  proper : ∀ r ∈ rs, r.first ≤ r.last
  apart : rs.Pairwise fun a b => a.last + 1 < b.first

/-- One more interval behind those so far, of which the last stands first. -/
def absorb (done : List Interval) (r : Interval) : List Interval :=
  match done with
  | [] => [r]
  | prev :: before =>
    if r.first ≤ prev.last + 1 then ⟨prev.first, max prev.last r.last⟩ :: before
    else r :: prev :: before

def merge (sorted : List Interval) : List Interval := (sorted.foldl absorb []).reverse

@[simp] theorem covers_nil (x : Nat) : ¬ Covers [] x := by
  rintro ⟨r, hr, -⟩
  cases hr

@[simp] theorem covers_cons {r : Interval} {rs : List Interval} {x : Nat} :
    Covers (r :: rs) x ↔ r.Contains x ∨ Covers rs x := by
  simp [Covers]

/-- What the pass keeps: the intervals so far are separated, and the next one does not begin
before the last of them. -/
structure Building (done : List Interval) (rest : List Interval) : Prop where
  proper : ∀ r ∈ done, r.first ≤ r.last
  apart : done.Pairwise fun b a => a.last + 1 < b.first
  next : ∀ prev ∈ done.head?, ∀ r ∈ rest, prev.first ≤ r.first

theorem absorb_covers {done : List Interval} {r : Interval}
    (hdone : Building done [r]) (x : Nat) :
    Covers (absorb done r) x ↔ Covers done x ∨ r.Contains x := by
  rcases done with _ | ⟨prev, before⟩
  · simp [absorb]
  have hnext := hdone.next prev rfl r (mem_singleton_self r)
  unfold absorb
  dsimp only
  split
  case isTrue hjoin =>
    have hjoined : (⟨prev.first, max prev.last r.last⟩ : Interval).Contains x ↔
        prev.Contains x ∨ r.Contains x := by
      unfold Contains
      dsimp only
      omega
    rw [covers_cons, covers_cons, hjoined]
    exact or_right_comm
  case isFalse =>
    rw [covers_cons, or_comm]

theorem absorb_building {done rest : List Interval} {r : Interval} (hproper : r.first ≤ r.last)
    (hsorted : ∀ other ∈ rest, r.first ≤ other.first) (h : Building done (r :: rest)) :
    Building (absorb done r) rest := by
  cases done with
  | nil =>
    refine ⟨?_, pairwise_singleton _ _, ?_⟩
    · intro other hother
      rw [mem_singleton.mp hother]
      exact hproper
    · intro prev hprev other hother
      rw [absorb, head?_cons, Option.mem_some_iff] at hprev
      rw [← hprev]
      exact hsorted other hother
  | cons prev before =>
    have hprev := h.proper prev mem_cons_self
    have hnext := h.next prev rfl r mem_cons_self
    have hbefore : ∀ other ∈ before, other.last + 1 < prev.first := by
      intro other hother
      exact rel_of_pairwise_cons h.apart hother
    unfold absorb
    dsimp only
    split
    case isTrue hjoin =>
      refine ⟨?_, ?_, ?_⟩
      · intro other hother
        rcases mem_cons.mp hother with rfl | hother
        · exact hprev.trans (le_max_left _ _)
        · exact h.proper other (mem_cons_of_mem _ hother)
      · exact pairwise_cons.mpr ⟨hbefore, h.apart.of_cons⟩
      · intro joined hjoined other hother
        rw [head?_cons, Option.mem_some_iff] at hjoined
        rw [← hjoined]
        exact hnext.trans (hsorted other hother)
    case isFalse hgap =>
      refine ⟨?_, ?_, ?_⟩
      · intro other hother
        rcases mem_cons.mp hother with rfl | hother
        · exact hproper
        · exact h.proper other hother
      · refine pairwise_cons.mpr ⟨?_, h.apart⟩
        intro other hother
        rcases mem_cons.mp hother with rfl | hother
        · omega
        · have hless := hbefore other hother
          omega
      · intro first hfirst other hother
        rw [head?_cons, Option.mem_some_iff] at hfirst
        rw [← hfirst]
        exact hsorted other hother

theorem foldl_absorb {done sorted : List Interval} (hproper : ∀ r ∈ sorted, r.first ≤ r.last)
    (hsorted : sorted.Pairwise fun a b => a.first ≤ b.first) (h : Building done sorted) :
    Building (sorted.foldl absorb done) [] ∧
      ∀ x, Covers (sorted.foldl absorb done) x ↔ Covers done x ∨ Covers sorted x := by
  induction sorted generalizing done with
  | nil => exact ⟨h, fun x => by simp⟩
  | cons r rest ih =>
    have hr := hproper r mem_cons_self
    have hfirst : ∀ other ∈ rest, r.first ≤ other.first := fun other hother =>
      rel_of_pairwise_cons hsorted hother
    obtain ⟨hbuilt, hcovers⟩ := ih (fun other hother => hproper other (mem_cons_of_mem _ hother))
      hsorted.of_cons (absorb_building hr hfirst h)
    refine ⟨hbuilt, fun x => ?_⟩
    have hone : Building done [r] := ⟨h.proper, h.apart, fun prev hprev other hother =>
      h.next prev hprev other (by rw [mem_singleton.mp hother]; exact mem_cons_self)⟩
    rw [foldl_cons, hcovers, absorb_covers hone, covers_cons, or_assoc]

variable {sorted : List Interval}

theorem building_nil : Building [] sorted := ⟨nofun, List.Pairwise.nil, nofun⟩

theorem merge_separated (hproper : ∀ r ∈ sorted, r.first ≤ r.last)
    (hsorted : sorted.Pairwise fun a b => a.first ≤ b.first) : Separated (merge sorted) := by
  obtain ⟨hbuilt, -⟩ := foldl_absorb hproper hsorted building_nil
  refine ⟨?_, pairwise_reverse.mpr hbuilt.apart⟩
  intro r hr
  exact hbuilt.proper r (mem_reverse.mp hr)

theorem merge_covers (hproper : ∀ r ∈ sorted, r.first ≤ r.last)
    (hsorted : sorted.Pairwise fun a b => a.first ≤ b.first) (x : Nat) :
    Covers (merge sorted) x ↔ Covers sorted x := by
  obtain ⟨-, hcovers⟩ := foldl_absorb hproper hsorted building_nil
  have hreverse : Covers (merge sorted) x ↔ Covers (sorted.foldl absorb []) x := by
    simp [Covers, merge]
  rw [hreverse, hcovers, or_iff_right (covers_nil x)]

theorem absorb_last_lt {bound : Nat} {done : List Interval} {r : Interval} (hr : r.last < bound)
    (hdone : ∀ other ∈ done, other.last < bound) : ∀ other ∈ absorb done r, other.last < bound := by
  cases done with
  | nil =>
    intro other hother
    rw [mem_singleton.mp hother]
    exact hr
  | cons prev before =>
    have hprev := hdone prev mem_cons_self
    unfold absorb
    dsimp only
    split <;> intro other hother <;> rcases mem_cons.mp hother with rfl | hother
    · exact max_lt hprev hr
    · exact hdone other (mem_cons_of_mem _ hother)
    · exact hr
    · exact hdone other hother

theorem merge_last_lt {bound : Nat} (hbound : ∀ r ∈ sorted, r.last < bound) :
    ∀ r ∈ merge sorted, r.last < bound := by
  have hfold : ∀ done : List Interval, (∀ r ∈ done, r.last < bound) →
      ∀ r ∈ sorted.foldl absorb done, r.last < bound := by
    induction sorted with
    | nil => exact fun done hdone => hdone
    | cons first rest ih =>
      intro done hdone
      exact ih (fun r hr => hbound r (mem_cons_of_mem _ hr)) _
        (absorb_last_lt (hbound first mem_cons_self) hdone)
  intro r hr
  exact hfold [] nofun r (mem_reverse.mp hr)

theorem Separated.length_le {bound : Nat} {rs : List Interval} (h : Separated rs)
    (hbound : ∀ r ∈ rs, r.last < bound) : 2 * rs.length ≤ bound + 1 := by
  have hcount : ∀ low, (∀ r ∈ rs, low ≤ r.first) → rs ≠ [] → low + 2 * rs.length ≤ bound + 1 := by
    induction rs with
    | nil => exact fun _ _ hne => absurd rfl hne
    | cons r rest ih =>
      intro low hlow _
      have hfirst := hlow r mem_cons_self
      have hproper := h.proper r mem_cons_self
      have hlast := hbound r mem_cons_self
      by_cases hrest : rest = []
      · simp only [hrest, length_singleton]
        omega
      have hbehind : ∀ other ∈ rest, r.last + 2 ≤ other.first := fun other hother => by
        have hgap : r.last + 1 < other.first := rel_of_pairwise_cons h.apart hother
        omega
      have htail := ih ⟨fun other hother => h.proper other (mem_cons_of_mem _ hother),
        h.apart.of_cons⟩ (fun other hother => hbound other (mem_cons_of_mem _ hother))
        (r.last + 2) hbehind hrest
      rw [length_cons]
      omega
  by_cases hne : rs = []
  · simp [hne]
  · have hall := hcount 0 (fun r _ => Nat.zero_le _) hne
    omega

/-- The search in the part from `lo` to before `hi`. -/
def search (rs : Nat → Interval) (x lo hi : Nat) : Bool :=
  if lo < hi then
    let mid := lo + (hi - lo) / 2
    if x < (rs mid).first then search rs x lo mid
    else if x > (rs mid).last then search rs x (mid + 1) hi
    else true
  else false
termination_by hi - lo

theorem search_iff {rs : Nat → Interval} {count : Nat} (x : Nat)
    (hproper : ∀ i < count, (rs i).first ≤ (rs i).last)
    (hapart : ∀ i j, i < j → j < count → (rs i).last < (rs j).first) (lo hi : Nat)
    (hhi : hi ≤ count) :
    search rs x lo hi = true ↔ ∃ i, lo ≤ i ∧ i < hi ∧ (rs i).Contains x := by
  fun_induction search rs x lo hi with
  | case1 lo hi hlt mid hleft ih =>
    rw [ih (by omega)]
    constructor
    · rintro ⟨i, hlo, hmid, hin⟩
      exact ⟨i, hlo, by omega, hin⟩
    · rintro ⟨i, hlo, hi', hin⟩
      refine ⟨i, hlo, ?_, hin⟩
      by_contra hge
      -- an interval from the middle on begins behind the number
      rcases Nat.eq_or_lt_of_le (Nat.le_of_not_lt hge) with heq | hlater
      · rw [← heq] at hin
        exact absurd hin.1 (by omega)
      · have hgap := hapart mid i hlater (by omega)
        have hmid := hproper mid (by omega)
        exact absurd hin.1 (by omega)
  | case2 lo hi hlt mid hleft hright ih =>
    rw [ih (by omega)]
    constructor
    · rintro ⟨i, hlo, hi', hin⟩
      exact ⟨i, by omega, hi', hin⟩
    · rintro ⟨i, hlo, hi', hin⟩
      refine ⟨i, ?_, hi', hin⟩
      by_contra hlt'
      rcases Nat.eq_or_lt_of_le (show i ≤ mid by omega) with heq | hearlier
      · rw [heq] at hin
        exact absurd hin.2 (by omega)
      · have hgap := hapart i mid hearlier (by omega)
        exact absurd hin.2 (by omega)
  | case3 lo hi hlt mid hleft hright =>
    simp only [true_iff]
    exact ⟨mid, by omega, by omega, by omega, by omega⟩
  | case4 lo hi hge =>
    simp only [Bool.false_eq_true, false_iff]
    rintro ⟨i, hlo, hi', -⟩
    omega

end Interval

end Meshpn.Lib
