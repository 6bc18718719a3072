import Mathlib.Algebra.Order.Monoid.Defs
import Mathlib.Data.Set.Insert
import Mathlib.Logic.Function.Basic

/-!
Shortest paths by a growing frontier. A search has settled some vertices and knows a distance
of some; what is known and not settled waits. Edges of the vertex that was settled last may
still be open.

Nothing is said of how the waiting entries are kept. An entry that is waiting may be out of
date: it is enough that the distances that are known wait as well.
-/

namespace Meshpn.Lib

section Frontier

variable {V C : Type*} [AddCommMonoid C] [LinearOrder C]

/-- Walks along the edges, with their costs. -/
inductive Walk (adj : V → V → Prop) (cost : V → V → C) (origin : V) : V → C → Prop where
  | start : Walk adj cost origin origin 0
  | step {a b d} : Walk adj cost origin a d → adj a b → Walk adj cost origin b (d + cost a b)

structure Frontier (adj : V → V → Prop) (cost : V → V → C) (origin : V) (settled : Set V)
    (dist : V → Option C) (pred : V → Option V) (waiting : Set (C × V))
    (opened : V → V → Prop) : Prop where
  start : dist origin = some 0
  root : pred origin = none
  known : ∀ v d, dist v = some d → v = origin ∨ ∃ u, pred v = some u
  traced : ∀ v u, pred v = some u → u ∈ settled ∧ adj u v ∧
    ∃ d, dist u = some d ∧ dist v = some (d + cost u v)
  reached : ∀ v ∈ settled, ∀ w, adj v w → ¬ opened v w →
    ∃ d e, dist v = some d ∧ dist w = some e ∧ e ≤ d + cost v w
  waits : ∀ v d, dist v = some d → v ∉ settled → (d, v) ∈ waiting
  done : ∀ v ∈ settled, ∃ d, dist v = some d ∧ ∀ entry ∈ waiting, d ≤ entry.1
  fresh : ∀ entry ∈ waiting, ∃ d, dist entry.2 = some d ∧ d ≤ entry.1

namespace Frontier

variable {adj : V → V → Prop} {cost : V → V → C} {origin : V} {settled : Set V}
  {dist : V → Option C} {pred : V → Option V} {waiting : Set (C × V)} {opened : V → V → Prop}

/-- A walk ends at a settled vertex, which is no farther than the walk is long, or something
that waits is as near. -/
theorem lower [IsOrderedAddMonoid C]
    (h : Frontier adj cost origin settled dist pred waiting opened)
    (hclosed : ∀ v w, ¬ opened v w) (hpos : ∀ v w, 0 ≤ cost v w) {v : V} {d : C}
    (hwalk : Walk adj cost origin v d) :
    (v ∈ settled ∧ ∃ e, dist v = some e ∧ e ≤ d) ∨ ∃ entry ∈ waiting, entry.1 ≤ d := by
  -- a vertex whose known distance is at most `d` is settled or waits with it
  have hplace : ∀ (v : V) (d e : C), dist v = some e → e ≤ d →
      (v ∈ settled ∧ ∃ e, dist v = some e ∧ e ≤ d) ∨ ∃ entry ∈ waiting, entry.1 ≤ d := by
    intro v d e he hle
    by_cases hv : v ∈ settled
    · exact .inl ⟨hv, e, he, hle⟩
    · exact .inr ⟨(e, v), h.waits v e he hv, hle⟩
  induction hwalk with
  | start => exact hplace origin 0 0 h.start le_rfl
  | @step a b d _ hadj ih =>
    rcases ih with ⟨ha, e, he, hle⟩ | ⟨entry, hentry, hle⟩
    · obtain ⟨e', f, he', hf, hlef⟩ := h.reached a ha b hadj (hclosed a b)
      rw [he] at he'
      obtain rfl := Option.some.inj he'
      exact hplace b _ f hf (hlef.trans (add_le_add_left hle _))
    · exact .inr ⟨entry, hentry, hle.trans (le_add_of_nonneg_right (hpos a b))⟩

theorem forget (h : Frontier adj cost origin settled dist pred waiting opened)
    {rest : Set (C × V)} (hsub : rest ⊆ waiting)
    (hstale : ∀ entry ∈ waiting, entry ∉ rest →
      entry.2 ∈ settled ∨ dist entry.2 ≠ some entry.1) :
    Frontier adj cost origin settled dist pred rest opened :=
  { h with
    waits := fun v d hd hv => by
      by_contra hrest
      rcases hstale (d, v) (h.waits v d hd hv) hrest with hsettled | hne
      · exact hv hsettled
      · exact hne hd
    done := fun v hv => by
      obtain ⟨d, hd, hle⟩ := h.done v hv
      exact ⟨d, hd, fun entry hentry => hle entry (hsub hentry)⟩
    fresh := fun entry hentry => h.fresh entry (hsub hentry) }

theorem settle (h : Frontier adj cost origin settled dist pred waiting opened) {c : C} {cur : V}
    {rest : Set (C × V)} (hcur : dist cur = some c) (hsub : rest ⊆ waiting)
    (hother : ∀ entry ∈ waiting, entry ∉ rest → entry = (c, cur))
    (hmin : ∀ entry ∈ rest, c ≤ entry.1) :
    Frontier adj cost origin (insert cur settled) dist pred rest
      (fun v w => opened v w ∨ v = cur) where
  start := h.start
  root := h.root
  known := h.known
  traced := fun v u hu =>
    have ⟨hmem, hrest⟩ := h.traced v u hu
    ⟨.inr hmem, hrest⟩
  reached := by
    intro v hv w hadj hopen
    obtain ⟨hold, hne⟩ := not_or.mp hopen
    exact h.reached v (hv.resolve_left hne) w hadj hold
  waits := by
    intro v d hd hv
    obtain ⟨hne, hv'⟩ := not_or.mp hv
    by_contra hrest
    have heq := hother (d, v) (h.waits v d hd hv') hrest
    exact hne (Prod.mk.inj heq).2
  done := by
    rintro v (rfl | hv)
    · exact ⟨c, hcur, hmin⟩
    · obtain ⟨d, hd, hle⟩ := h.done v hv
      exact ⟨d, hd, fun entry hentry => hle entry (hsub hentry)⟩
  fresh := fun entry hentry => h.fresh entry (hsub hentry)

theorem close (h : Frontier adj cost origin settled dist pred waiting opened)
    {still : V → V → Prop} (hstill : ∀ v w, adj v w → opened v w → still v w) :
    Frontier adj cost origin settled dist pred waiting still :=
  { h with
    reached := fun v hv w hadj hopen =>
      h.reached v hv w hadj (fun hold => hopen (hstill v w hadj hold)) }

theorem pass (h : Frontier adj cost origin settled dist pred waiting opened) {c : C}
    {cur nb : V} (hcur : dist cur = some c)
    (hknown : adj cur nb → ∃ e, dist nb = some e ∧ e ≤ c + cost cur nb) :
    Frontier adj cost origin settled dist pred waiting
      (fun v w => opened v w ∧ ¬ (v = cur ∧ w = nb)) :=
  { h with
    reached := fun v hv w hadj hopen => by
      by_cases heq : v = cur ∧ w = nb
      · obtain ⟨rfl, rfl⟩ := heq
        obtain ⟨e, he, hle⟩ := hknown hadj
        exact ⟨c, e, hcur, he, hle⟩
      · exact h.reached v hv w hadj (fun hold => hopen ⟨hold, heq⟩) }

theorem reach [DecidableEq V] [IsOrderedAddMonoid C]
    (h : Frontier adj cost origin settled dist pred waiting opened)
    {c : C} {cur nb : V} (hmem : cur ∈ settled) (hcur : dist cur = some c)
    (hlatest : ∀ v ∈ settled, ∀ d, dist v = some d → d ≤ c) (hfrom : 0 ≤ c)
    (hpos : 0 ≤ cost cur nb) (hadj : adj cur nb)
    (hbetter : ∀ e, dist nb = some e → c + cost cur nb < e) :
    Frontier adj cost origin settled (Function.update dist nb (some (c + cost cur nb)))
      (Function.update pred nb (some cur)) (insert (c + cost cur nb, nb) waiting)
      (fun v w => opened v w ∧ ¬ (v = cur ∧ w = nb)) := by
  have hlonger : c ≤ c + cost cur nb := le_add_of_nonneg_right hpos
  have hunsettled : nb ∉ settled := by
    intro hnb
    obtain ⟨e, he, -⟩ := h.done nb hnb
    exact absurd (hbetter e he) (not_lt.mpr ((hlatest nb hnb e he).trans hlonger))
  have hsettled : ∀ v ∈ settled, Function.update dist nb (some (c + cost cur nb)) v = dist v := by
    intro v hv
    have hne : v ≠ nb := fun heq => hunsettled (heq ▸ hv)
    exact Function.update_of_ne hne _ _
  have horigin : origin ≠ nb := by
    rintro rfl
    exact absurd (hbetter 0 h.start) (not_lt.mpr (hfrom.trans hlonger))
  constructor
  · rw [Function.update_of_ne horigin]
    exact h.start
  · rw [Function.update_of_ne horigin]
    exact h.root
  · intro v d hd
    by_cases hv : v = nb
    · subst hv
      exact .inr ⟨cur, Function.update_self _ _ _⟩
    · rw [Function.update_of_ne hv] at hd ⊢
      exact h.known v d hd
  · intro v u hu
    by_cases hv : v = nb
    · subst hv
      rw [Function.update_self] at hu
      obtain rfl := Option.some.inj hu
      exact ⟨hmem, hadj, c, (hsettled _ hmem).trans hcur, Function.update_self _ _ _⟩
    · rw [Function.update_of_ne hv] at hu
      obtain ⟨husettled, huadj, d, hd, he⟩ := h.traced v u hu
      exact ⟨husettled, huadj, d, (hsettled u husettled).trans hd,
        (Function.update_of_ne hv _ _).trans he⟩
  · intro v hv w hw hopen
    rw [hsettled v hv]
    by_cases heq : v = cur ∧ w = nb
    · obtain ⟨rfl, rfl⟩ := heq
      exact ⟨c, c + cost v w, hcur, Function.update_self _ _ _, le_rfl⟩
    · obtain ⟨d, e, hd, he, hle⟩ := h.reached v hv w hw (fun hold => hopen ⟨hold, heq⟩)
      by_cases hwnb : w = nb
      · subst hwnb
        exact ⟨d, c + cost cur w, hd, Function.update_self _ _ _, (hbetter e he).le.trans hle⟩
      · exact ⟨d, e, hd, (Function.update_of_ne hwnb _ _).trans he, hle⟩
  · intro v d hd hv
    by_cases hvnb : v = nb
    · subst hvnb
      rw [Function.update_self] at hd
      exact .inl (by rw [Option.some.inj hd])
    · rw [Function.update_of_ne hvnb] at hd
      exact .inr (h.waits v d hd hv)
  · intro v hv
    rw [hsettled v hv]
    obtain ⟨d, hd, hle⟩ := h.done v hv
    refine ⟨d, hd, ?_⟩
    rintro entry (rfl | hentry)
    · exact (hlatest v hv d hd).trans hlonger
    · exact hle entry hentry
  · rintro entry (rfl | hentry)
    · exact ⟨_, Function.update_self _ _ _, le_rfl⟩
    · obtain ⟨d, hd, hle⟩ := h.fresh entry hentry
      by_cases hnb : entry.2 = nb
      · refine ⟨c + cost cur nb, hnb ▸ Function.update_self _ _ _, ?_⟩
        exact (hbetter d (hnb ▸ hd)).le.trans hle
      · exact ⟨d, (Function.update_of_ne hnb _ _).trans hd, hle⟩

end Frontier

end Frontier

end Meshpn.Lib
