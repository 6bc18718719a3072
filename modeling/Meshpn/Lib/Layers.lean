import Mathlib.Data.List.Chain
import Mathlib.Data.List.Nodup

/-!
Paths by layers. A search keeps a queue of paths, the shortest first; it settles the path at the
front and puts behind the others the paths that prolong it to vertices that no path ends at yet.
While the edges of the vertex settled last are looked at, they are open.

All paths of the queue have the length of the path settled last, or one more. So the first path
that ends at a vertex is a shortest one.
-/

namespace Meshpn.Lib

open List

variable {V : Type*}

/-- A path along edges, from one vertex to another. -/
structure Trail (adj : V → V → Prop) (origin target : V) (path : List V) : Prop where
  head : path.head? = some origin
  last : path.getLast? = some target
  chain : path.IsChain adj

/-- The paths of a search; the one settled last has `layer` vertices. -/
structure Layers (adj : V → V → Prop) (origin : V) (settled waiting : List (List V))
    (layer : Nat) (opened : V → V → Prop) : Prop where
  start : [origin] ∈ settled ++ waiting
  trails : ∀ path ∈ settled ++ waiting, ∃ target, Trail adj origin target path
  ends : ((settled ++ waiting).map List.getLast?).Nodup
  sorted : waiting.Pairwise fun p q => p.length ≤ q.length
  done : ∀ path ∈ settled, path.length ≤ layer
  near : ∀ path ∈ waiting, layer ≤ path.length ∧ path.length ≤ layer + 1
  closed : ∀ path ∈ settled, ∀ v w, path.getLast? = some v → adj v w → ¬ opened v w →
    ∃ other ∈ settled ++ waiting, other.getLast? = some w ∧ other.length ≤ path.length + 1

namespace Trail

variable {adj : V → V → Prop} {origin target : V} {path : List V}

theorem singleton (adj : V → V → Prop) (origin : V) : Trail adj origin origin [origin] :=
  ⟨rfl, rfl, .singleton origin⟩

theorem length_pos (h : Trail adj origin target path) : 1 ≤ path.length := by
  cases path with
  | nil => cases h.head
  | cons first rest => exact Nat.succ_le_succ (Nat.zero_le _)

theorem snoc (h : Trail adj origin target path) {next : V} (hadj : adj target next) :
    Trail adj origin next (path ++ [next]) where
  head := by rw [head?_append, h.head]; rfl
  last := getLast?_concat
  chain := by
    refine isChain_append.mpr ⟨h.chain, .singleton next, ?_⟩
    intro a ha b hb
    rw [h.last] at ha
    obtain rfl := Option.some.inj ha
    obtain rfl := Option.some.inj hb
    exact hadj

theorem cases_last (h : Trail adj origin target path) :
    path = [origin] ∧ target = origin ∨
      ∃ front before, path = front ++ [target] ∧ Trail adj origin before front ∧
        adj before target := by
  rcases eq_nil_or_concat path with rfl | ⟨front, final, rfl⟩
  · cases h.head
  have hfinal := h.last
  rw [concat_eq_append, getLast?_concat] at hfinal
  obtain rfl := Option.some.inj hfinal
  rw [concat_eq_append] at h ⊢
  cases front with
  | nil =>
    have hhead := h.head
    obtain rfl := Option.some.inj hhead
    exact .inl ⟨rfl, rfl⟩
  | cons first rest =>
    obtain ⟨hfront, -, hedge⟩ := isChain_append.mp h.chain
    obtain ⟨before, hbefore⟩ : ∃ before, (first :: rest).getLast? = some before :=
      ⟨_, getLast?_eq_some_getLast (cons_ne_nil first rest)⟩
    exact .inr ⟨first :: rest, before, rfl, ⟨h.head, hbefore, hfront⟩,
      hedge before hbefore _ rfl⟩

end Trail

namespace Layers

variable {adj : V → V → Prop} {origin : V} {settled waiting : List (List V)} {layer : Nat}
  {opened : V → V → Prop}

theorem init (adj : V → V → Prop) (origin : V) :
    Layers adj origin [] [[origin]] 0 (fun _ _ => False) where
  start := mem_singleton_self _
  trails := fun path hpath =>
    ⟨origin, mem_singleton.mp hpath ▸ Trail.singleton adj origin⟩
  ends := nodup_singleton _
  sorted := pairwise_singleton _ _
  done := fun _ hpath => by cases hpath
  near := fun path hpath => by
    rw [mem_singleton.mp hpath]
    exact ⟨Nat.zero_le _, le_rfl⟩
  closed := fun _ hpath => by cases hpath

/-- A path ends where a settled path does that is no longer, or one that is no longer waits. -/
theorem lower (h : Layers adj origin settled waiting layer opened)
    (hclosed : ∀ v w, ¬ opened v w) {target : V} {path : List V}
    (hpath : Trail adj origin target path) :
    (∃ p ∈ settled, p.getLast? = some target ∧ p.length ≤ path.length) ∨
      ∃ p ∈ waiting, p.length ≤ path.length := by
  induction hlength : path.length generalizing path target with
  | zero =>
    have hpos := hpath.length_pos
    omega
  | succ n ih =>
    rcases hpath.cases_last with ⟨rfl, rfl⟩ | ⟨front, before, rfl, hfront, hadj⟩
    · have hshort : [target].length ≤ n + 1 := by simp
      rcases mem_append.mp h.start with hsettled | hwaiting
      · exact .inl ⟨[target], hsettled, rfl, hshort⟩
      · exact .inr ⟨[target], hwaiting, hshort⟩
    · have hless : front.length = n := by simpa using hlength
      rcases ih hfront hless with ⟨p, hp, hlast, hle⟩ | ⟨p, hp, hle⟩
      · obtain ⟨q, hq, hend, hnext⟩ := h.closed p hp before target hlast hadj (hclosed _ _)
        rcases mem_append.mp hq with hsettled | hwaiting
        · exact .inl ⟨q, hsettled, hend, by omega⟩
        · exact .inr ⟨q, hwaiting, by omega⟩
      · exact .inr ⟨p, hp, by omega⟩

theorem exhausted (h : Layers adj origin settled [] layer opened)
    (hclosed : ∀ v w, ¬ opened v w) {target : V} {path : List V}
    (hpath : Trail adj origin target path) :
    ∃ p ∈ settled, p.getLast? = some target ∧ p.length ≤ path.length := by
  rcases h.lower hclosed hpath with hsettled | ⟨p, hp, -⟩
  · exact hsettled
  · cases hp

section Front

variable {path : List V} {rest : List (List V)}

/-- A path to a vertex that no settled path ends at is no shorter than the first that waits. -/
theorem front_least (h : Layers adj origin settled (path :: rest) layer opened)
    (hclosed : ∀ v w, ¬ opened v w) {target : V} {other : List V}
    (hother : Trail adj origin target other)
    (hnew : ∀ p ∈ settled, p.getLast? ≠ some target) : path.length ≤ other.length := by
  rcases h.lower hclosed hother with ⟨p, hp, hlast, -⟩ | ⟨p, hp, hle⟩
  · exact absurd hlast (hnew p hp)
  rcases mem_cons.mp hp with rfl | hrest
  · exact hle
  · exact (rel_of_pairwise_cons h.sorted hrest).trans hle

theorem front_new (h : Layers adj origin settled (path :: rest) layer opened) :
    ∀ p ∈ settled, p.getLast? ≠ path.getLast? := by
  have hends := h.ends
  rw [map_append, nodup_append] at hends
  intro p hp
  exact hends.2.2 _ (mem_map_of_mem hp) _ (mem_map_of_mem mem_cons_self)

theorem settle (h : Layers adj origin settled (path :: rest) layer opened) {cur : V}
    (hcur : path.getLast? = some cur) :
    Layers adj origin (settled ++ [path]) rest path.length
      (fun v w => opened v w ∨ v = cur) := by
  have hsame : settled ++ [path] ++ rest = settled ++ path :: rest := by
    rw [append_assoc, singleton_append]
  have hfront := h.near path mem_cons_self
  refine ⟨hsame ▸ h.start, hsame ▸ h.trails, hsame ▸ h.ends, h.sorted.of_cons, ?_, ?_, ?_⟩
  · intro p hp
    rcases mem_append.mp hp with hsettled | hpath
    · exact (h.done p hsettled).trans hfront.1
    · rw [mem_singleton.mp hpath]
  · intro p hp
    have hlast := (h.near p (mem_cons_of_mem _ hp)).2
    exact ⟨rel_of_pairwise_cons h.sorted hp, by omega⟩
  · intro p hp v w hlast hadj hopen
    obtain ⟨hold, hne⟩ := not_or.mp hopen
    rw [hsame]
    rcases mem_append.mp hp with hsettled | hpath
    · exact h.closed p hsettled v w hlast hadj hold
    · rw [mem_singleton.mp hpath, hcur] at hlast
      exact absurd (Option.some.inj hlast).symm hne

end Front

section Edge

variable {path : List V} {cur next : V}

theorem close (h : Layers adj origin settled waiting layer opened) {still : V → V → Prop}
    (hstill : ∀ v w, adj v w → opened v w → still v w) :
    Layers adj origin settled waiting layer still :=
  { h with
    closed := fun p hp v w hlast hadj hopen =>
      h.closed p hp v w hlast hadj fun hold => hopen (hstill v w hadj hold) }

theorem settled_unique (h : Layers adj origin settled waiting layer opened) {p q : List V}
    (hp : p ∈ settled) (hq : q ∈ settled) (hsame : p.getLast? = q.getLast?) : p = q := by
  have hends := h.ends
  rw [map_append, nodup_append] at hends
  exact inj_on_of_nodup_map hends.1 hp hq hsame

theorem pass (h : Layers adj origin settled waiting layer opened) (hpath : path ∈ settled)
    (hcur : path.getLast? = some cur) (hlayer : path.length = layer)
    (hknown : adj cur next → ∃ p ∈ settled ++ waiting, p.getLast? = some next) :
    Layers adj origin settled waiting layer
      (fun v w => opened v w ∧ ¬ (v = cur ∧ w = next)) :=
  { h with
    closed := fun p hp v w hlast hadj hopen => by
      by_cases heq : v = cur ∧ w = next
      · obtain ⟨rfl, rfl⟩ := heq
        obtain ⟨q, hq, hend⟩ := hknown hadj
        obtain rfl := h.settled_unique hp hpath (hlast.trans hcur.symm)
        refine ⟨q, hq, hend, ?_⟩
        rcases mem_append.mp hq with hsettled | hwaiting
        · have hle := h.done q hsettled
          omega
        · have hle := (h.near q hwaiting).2
          omega
      · exact h.closed p hp v w hlast hadj fun hold => hopen ⟨hold, heq⟩ }

theorem reach (h : Layers adj origin settled waiting layer opened) (hpath : path ∈ settled)
    (hcur : path.getLast? = some cur) (hlayer : path.length = layer) (hadj : adj cur next)
    (hnew : ∀ p ∈ settled ++ waiting, p.getLast? ≠ some next) :
    Layers adj origin settled (waiting ++ [path ++ [next]]) layer
      (fun v w => opened v w ∧ ¬ (v = cur ∧ w = next)) := by
  have hmem : ∀ {p : List V}, p ∈ settled ++ (waiting ++ [path ++ [next]]) ↔
      p ∈ settled ++ waiting ∨ p = path ++ [next] := fun {p} => by
    rw [← append_assoc, mem_append, mem_singleton]
  have hlength : (path ++ [next]).length = layer + 1 := by
    rw [length_append, hlayer]
    rfl
  refine ⟨hmem.mpr (.inl h.start), ?_, ?_, ?_, h.done, ?_, ?_⟩
  · intro p hp
    rcases hmem.mp hp with hold | rfl
    · exact h.trails p hold
    obtain ⟨target, htrail⟩ := h.trails path (mem_append_left _ hpath)
    have htarget := htrail.last
    rw [hcur] at htarget
    obtain rfl := Option.some.inj htarget
    exact ⟨next, htrail.snoc hadj⟩
  · rw [← append_assoc, map_append, nodup_append]
    refine ⟨h.ends, nodup_singleton _, ?_⟩
    rintro _ ha _ hb rfl
    obtain ⟨p, hp, hpe⟩ := mem_map.mp ha
    have hb' : p.getLast? = (path ++ [next]).getLast? := hpe.trans (mem_singleton.mp hb)
    rw [getLast?_concat] at hb'
    exact hnew p hp hb'
  · rw [pairwise_append]
    refine ⟨h.sorted, pairwise_singleton _ _, ?_⟩
    intro p hp q hq
    rw [mem_singleton.mp hq, hlength]
    exact (h.near p hp).2
  · intro p hp
    rcases mem_append.mp hp with hold | hlast
    · exact h.near p hold
    · rw [mem_singleton.mp hlast, hlength]
      exact ⟨Nat.le_succ _, le_rfl⟩
  · intro p hp v w hlast hadj' hopen
    by_cases heq : v = cur ∧ w = next
    · obtain ⟨rfl, rfl⟩ := heq
      obtain rfl := h.settled_unique hp hpath (hlast.trans hcur.symm)
      refine ⟨p ++ [w], hmem.mpr (.inr rfl), getLast?_concat, ?_⟩
      rw [length_append]
      rfl
    · obtain ⟨q, hq, hend, hle⟩ := h.closed p hp v w hlast hadj' fun hold => hopen ⟨hold, heq⟩
      exact ⟨q, hmem.mpr (.inl hq), hend, hle⟩

end Edge

end Layers

end Meshpn.Lib
