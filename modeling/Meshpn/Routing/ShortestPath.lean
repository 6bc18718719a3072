import Mathlib.Data.List.Perm.Subperm
import Mathlib.Data.List.Sort
import Mathlib.Tactic.NormNum
import Meshpn.Routing.Graph

/-!
The two Dijkstra searches of the graph. They share their loop and differ in the
goal. The heap is a list that is sorted before every step, so a node may be on it
more than once; an entry that costs more than the node's distance is passed over.

Whatever the metrics are, a path that a search returns follows edges of the graph
from its start to its goal and meets no node twice: each node's predecessor has a
smaller distance than the node.
-/

namespace Meshpn.Routing

open Meshpn.Lib

structure Search (Id : Type) where
  dist : Table Id ℚ
  prev : Table Id Id
  heap : List (ℚ × Id)

/-- What a search returns. -/
structure Found (Id : Type) where
  path : List Id
  exitNode : Id
  latency : ℚ
  deriving DecidableEq, Repr

namespace NetworkGraph

section Operations

variable {Id : Type} [DecidableEq Id] [LT Id] [DecidableLT Id]

/-- The latency of an edge, or the default of 100 ms. -/
def edgeCost (graph : NetworkGraph Id) (cur nb : Id) : ℚ :=
  match (graph.getEdgeMetrics cur nb).bind Metrics.latency with
  | some latency => if latency > 0 then latency else 100
  | none => 100

/-- One neighbour of the node that was taken from the heap. -/
def relax (graph : NetworkGraph Id) (excludeNodes : List Id) (cost : ℚ) (cur : Id)
    (search : Search Id) (nb : Id) : Search Id :=
  if nb ∈ excludeNodes then search
  else if (search.dist.get nb).all fun known => cost + graph.edgeCost cur nb < known then
    { dist := search.dist.set nb (cost + graph.edgeCost cur nb)
      prev := search.prev.set nb cur
      heap := search.heap ++ [(cost + graph.edgeCost cur nb, nb)] }
  else search

/-- `path.unshift(n); n = prev.get(n)` until there is no `n`; the nodes along the way differ,
so as many passes are enough as `prev` has entries, and one more. -/
def trail (prev : Table Id Id) : Nat → Id → List Id → List Id
  | 0, _, path => path
  | passes + 1, n, path =>
    match prev.get n with
    | none => n :: path
    | some before => trail prev passes before (n :: path)

/-- `heap.sort((a, b) => a[0] - b[0])`. -/
def sortHeap (heap : List (ℚ × Id)) : List (ℚ × Id) :=
  heap.insertionSort fun a b => a.1 ≤ b.1

/-- The loop, for at most as many passes as there is fuel. -/
def dijkstra (graph : NetworkGraph Id) (excludeNodes : List Id) (goal : Id → Bool) :
    Nat → Search Id → Option (Found Id)
  | 0, _ => none
  | fuel + 1, search =>
    match sortHeap search.heap with
    | [] => none
    | (cost, cur) :: rest =>
      if goal cur then some ⟨trail search.prev (search.prev.entries.length + 1) cur [], cur, cost⟩
      else if (search.dist.get cur).any fun known => known < cost then
        dijkstra graph excludeNodes goal fuel { search with heap := rest }
      else
        dijkstra graph excludeNodes goal fuel
          ((graph.getNeighbors cur).foldl (graph.relax excludeNodes cost cur)
            { search with heap := rest })

def Search.start (fromNodeId : Id) : Search Id :=
  ⟨Table.empty.set fromNodeId 0, .empty, [(0, fromNodeId)]⟩

def findShortestPathWeighted (fuel : Nat) (graph : NetworkGraph Id) (fromNodeId toNodeId : Id)
    (excludeNodes : List Id) : Option (List Id) :=
  if !graph.hasNode toNodeId then none
  else if fromNodeId = toNodeId then some [fromNodeId]
  else
    (graph.dijkstra excludeNodes (fun cur => cur = toNodeId) fuel (Search.start fromNodeId)).map
      Found.path

def findPathToNearestExitWeighted (fuel : Nat) (graph : NetworkGraph Id) (fromNodeId : Id)
    (excludeNodes : List Id) : Option (Found Id) :=
  if !graph.hasNode fromNodeId then none
  else
    graph.dijkstra excludeNodes (fun cur => graph.isExit cur && cur ≠ fromNodeId) fuel
      (Search.start fromNodeId)

end Operations

/-- A path along edges that starts at a node and meets no node twice. -/
structure IsRoute {Id : Type} [DecidableEq Id] (graph : NetworkGraph Id) (origin : Id)
    (path : List Id) : Prop where
  head : path.head? = some origin
  edges : path.IsChain fun a b => graph.hasEdge a b = true
  nodup : path.Nodup

/-- The invariant of the loop: predecessors are neighbours with a smaller distance, and
every node with a distance but the origin has one. -/
structure Traced {Id : Type} [DecidableEq Id] (graph : NetworkGraph Id) (origin : Id)
    (search : Search Id) : Prop where
  start : search.dist.get origin = some 0
  nonneg : ∀ node far, search.dist.get node = some far → 0 ≤ far
  root : search.prev.get origin = none
  back : ∀ node before, search.prev.get node = some before → graph.hasEdge before node = true ∧
    ∃ near far, search.dist.get before = some near ∧ search.dist.get node = some far ∧ near < far
  known : ∀ node far, search.dist.get node = some far →
    node = origin ∨ ∃ before, search.prev.get node = some before
  heap : ∀ entry ∈ search.heap, ∃ known, search.dist.get entry.2 = some known ∧ known ≤ entry.1

section Traced

variable {Id : Type} [DecidableEq Id] {graph : NetworkGraph Id} {origin : Id}
  {search : Search Id}

theorem start_traced (graph : NetworkGraph Id) (origin : Id) :
    graph.Traced origin (Search.start origin) where
  start := Table.get_set_self _ _ _
  nonneg := by
    intro node far h
    simp only [Search.start, Table.get_set, Table.get_empty] at h
    split at h
    case isTrue => exact (Option.some.inj h).le
    case isFalse => cases h
  root := rfl
  back := fun _ _ h => by cases h
  known := by
    intro node far h
    simp only [Search.start, Table.get_set, Table.get_empty] at h
    split at h
    case isTrue heq => exact .inl heq.symm
    case isFalse => cases h
  heap := by
    intro entry hentry
    obtain rfl := List.mem_singleton.mp hentry
    exact ⟨0, Table.get_set_self _ _ _, le_refl _⟩

theorem Traced.drop (rest : List (ℚ × Id)) (htraced : graph.Traced origin search)
    (hrest : ∀ entry ∈ rest, entry ∈ search.heap) :
    graph.Traced origin { search with heap := rest } :=
  ⟨htraced.start, htraced.nonneg, htraced.root, htraced.back, htraced.known,
    fun entry hentry => htraced.heap entry (hrest entry hentry)⟩

theorem Traced.reach {cost known newCost : ℚ} {cur nb : Id}
    (htraced : graph.Traced origin search) (hknown : search.dist.get cur = some known)
    (hcost : known ≤ cost) (hnew : cost < newCost) (hedge : graph.hasEdge cur nb = true)
    (hless : ∀ far, search.dist.get nb = some far → newCost < far) :
    graph.Traced origin
      ⟨search.dist.set nb newCost, search.prev.set nb cur, search.heap ++ [(newCost, nb)]⟩ := by
  have hfrom : 0 ≤ newCost := ((htraced.nonneg cur known hknown).trans hcost).trans hnew.le
  have horigin : nb ≠ origin := by
    rintro rfl
    exact absurd (hless 0 htraced.start) (not_lt.mpr hfrom)
  have hself : nb ≠ cur := by
    rintro rfl
    exact absurd (hnew.trans (hless known hknown)) (not_lt.mpr hcost)
  refine ⟨?_, ?_, ?_, ?_, ?_, ?_⟩
  · rw [Table.get_set, if_neg horigin]
    exact htraced.start
  · intro node far hdist
    rw [Table.get_set] at hdist
    split at hdist
    case isTrue => exact (Option.some.inj hdist) ▸ hfrom
    case isFalse => exact htraced.nonneg node far hdist
  · rw [Table.get_set, if_neg horigin]
    exact htraced.root
  · intro node before hprev
    rw [Table.get_set] at hprev
    split at hprev
    case isTrue heq =>
      obtain rfl := Option.some.inj hprev
      subst heq
      refine ⟨hedge, known, newCost, ?_, Table.get_set_self _ _ _, hcost.trans_lt hnew⟩
      rw [Table.get_set, if_neg hself]
      exact hknown
    case isFalse hne =>
      obtain ⟨hback, near, far, hnear, hfar, hlt⟩ := htraced.back node before hprev
      refine ⟨hback, ?_⟩
      rw [Table.get_set search.dist nb node, if_neg hne, Table.get_set]
      by_cases heq : nb = before
      · subst heq
        exact ⟨newCost, far, by simp, hfar, (hless near hnear).trans hlt⟩
      · exact ⟨near, far, by rw [if_neg heq, hnear], hfar, hlt⟩
  · intro node far hdist
    rw [Table.get_set]
    split
    case isTrue => exact .inr ⟨cur, rfl⟩
    rename_i hne
    rw [Table.get_set, if_neg hne] at hdist
    exact htraced.known node far hdist
  · intro entry hentry
    rw [Table.get_set]
    rcases List.mem_append.mp hentry with hold | hlast
    · obtain ⟨far, hfar, hle⟩ := htraced.heap entry hold
      split
      case isTrue heq =>
        exact ⟨newCost, rfl, (hless far (heq ▸ hfar)).le.trans hle⟩
      case isFalse => exact ⟨far, hfar, hle⟩
    · obtain rfl := List.mem_singleton.mp hlast
      exact ⟨newCost, if_pos rfl, le_refl _⟩

theorem trail_isRoute (htraced : graph.Traced origin search) {passes : Nat} {far : ℚ} {node : Id}
    (path : List Id) (hdist : search.dist.get node = some far)
    (hpasses : search.prev.entries.length < passes + path.length)
    (hedges : (node :: path).IsChain fun a b => graph.hasEdge a b = true)
    (hnodup : path.Nodup) (hprevs : ∀ later ∈ path, search.prev.has later = true)
    (hbeyond : ∀ later ∈ path, ∃ beyond, search.dist.get later = some beyond ∧ far < beyond) :
    graph.IsRoute origin (trail search.prev passes node path) ∧
      ∃ front, trail search.prev passes node path = front ++ node :: path := by
  -- the nodes of the path so far all have a predecessor, so the path cannot outgrow `prev`
  induction passes generalizing node path far with
  | zero =>
    have hsub : path ⊆ search.prev.entries.map Prod.fst := fun later hlater =>
      (search.prev.has_iff_mem_keys).mp (hprevs later hlater)
    have hle := (List.subperm_of_subset hnodup hsub).length_le
    rw [List.length_map] at hle
    omega
  | succ passes ih =>
    have hfresh : node ∉ path := by
      intro hin
      obtain ⟨beyond, hbeyondDist, hlt⟩ := hbeyond node hin
      rw [hdist] at hbeyondDist
      cases hbeyondDist
      exact lt_irrefl _ hlt
    unfold trail
    cases hprev : search.prev.get node with
    | none =>
      have horigin : node = origin := by
        rcases htraced.known node far hdist with h | ⟨before, hbefore⟩
        · exact h
        · rw [hprev] at hbefore
          cases hbefore
      exact ⟨⟨by simp [horigin], hedges, List.nodup_cons.mpr ⟨hfresh, hnodup⟩⟩, [], rfl⟩
    | some before =>
      obtain ⟨hedge, near, far', hnear, hfar, hlt⟩ := htraced.back node before hprev
      rw [hdist] at hfar
      cases hfar
      have hpassesNext : search.prev.entries.length < passes + (node :: path).length := by
        rw [List.length_cons]
        omega
      have hstep := ih (node :: path) hnear hpassesNext
        (List.isChain_cons_cons.mpr ⟨hedge, hedges⟩) (List.nodup_cons.mpr ⟨hfresh, hnodup⟩) ?_ ?_
      · obtain ⟨hroute, front, hfront⟩ := hstep
        exact ⟨hroute, front ++ [before], hfront.trans (by simp)⟩
      · intro later hlater
        rcases List.mem_cons.mp hlater with rfl | hin
        · simp [Table.has, hprev]
        · exact hprevs later hin
      · intro later hlater
        rcases List.mem_cons.mp hlater with rfl | hin
        · exact ⟨far, hdist, hlt⟩
        · obtain ⟨beyond, hbeyondDist, hbelow⟩ := hbeyond later hin
          exact ⟨beyond, hbeyondDist, hlt.trans hbelow⟩

end Traced

section Loop

variable {Id : Type} [DecidableEq Id] [LT Id] [DecidableLT Id] {graph : NetworkGraph Id}
  {origin : Id} {search : Search Id}

theorem edgeCost_pos (graph : NetworkGraph Id) (cur nb : Id) : 0 < graph.edgeCost cur nb := by
  unfold edgeCost
  split
  · split
    case isTrue hpos => exact hpos
    case isFalse => norm_num
  · norm_num

theorem Traced.relax (excludeNodes : List Id) {cost known : ℚ} {cur nb : Id}
    (htraced : graph.Traced origin search) (hknown : search.dist.get cur = some known)
    (hcost : known ≤ cost) (hedge : graph.hasEdge cur nb = true) :
    graph.Traced origin (graph.relax excludeNodes cost cur search nb) ∧
      ∃ after, (graph.relax excludeNodes cost cur search nb).dist.get cur = some after ∧
        after ≤ cost := by
  have hnew : cost < cost + graph.edgeCost cur nb := lt_add_of_pos_right _ (graph.edgeCost_pos cur nb)
  unfold NetworkGraph.relax
  split
  · exact ⟨htraced, known, hknown, hcost⟩
  split
  case isFalse => exact ⟨htraced, known, hknown, hcost⟩
  rename_i hall
  have hless : ∀ far, search.dist.get nb = some far → cost + graph.edgeCost cur nb < far := by
    intro far hfar
    simpa [hfar] using hall
  have hself : nb ≠ cur := by
    rintro rfl
    exact absurd (hnew.trans (hless known hknown)) (not_lt.mpr hcost)
  refine ⟨htraced.reach hknown hcost hnew hedge hless, known, ?_, hcost⟩
  rw [Table.get_set, if_neg hself]
  exact hknown

theorem Traced.relaxAll {excludeNodes : List Id} {cost known : ℚ} {cur : Id}
    {neighbors : List Id} (htraced : graph.Traced origin search)
    (hknown : search.dist.get cur = some known) (hcost : known ≤ cost)
    (hedges : ∀ nb ∈ neighbors, graph.hasEdge cur nb = true) :
    graph.Traced origin (neighbors.foldl (graph.relax excludeNodes cost cur) search) := by
  induction neighbors generalizing search known with
  | nil => exact htraced
  | cons nb rest ih =>
    obtain ⟨hnext, after, hafter, hle⟩ := Traced.relax excludeNodes htraced
      hknown hcost (hedges nb List.mem_cons_self)
    exact ih hnext hafter hle (fun other hother => hedges other (List.mem_cons_of_mem _ hother))

/-- A path that the loop returns is a route from the origin to a node that meets the goal. -/
theorem dijkstra_isRoute {excludeNodes : List Id} {goal : Id → Bool} {fuel : Nat}
    {found : Found Id} (htraced : graph.Traced origin search)
    (hfound : graph.dijkstra excludeNodes goal fuel search = some found) :
    graph.IsRoute origin found.path ∧ found.path.getLast? = some found.exitNode ∧
      goal found.exitNode = true := by
  induction fuel generalizing search with
  | zero => cases hfound
  | succ fuel ih =>
    unfold dijkstra at hfound
    split at hfound
    · cases hfound
    rename_i cost cur rest hsorted
    have hmem : ∀ entry ∈ (cost, cur) :: rest, entry ∈ search.heap := by
      intro entry hentry
      rw [← hsorted] at hentry
      exact (List.mem_insertionSort _).mp hentry
    obtain ⟨known, hknown, hle⟩ := htraced.heap (cost, cur) (hmem _ List.mem_cons_self)
    have hrest := htraced.drop rest
      (fun entry hentry => hmem entry (List.mem_cons_of_mem _ hentry))
    split at hfound
    case isTrue hgoal =>
      obtain rfl := Option.some.inj hfound
      obtain ⟨hroute, front, hfront⟩ := trail_isRoute htraced [] hknown (Nat.lt_succ_self _)
        (List.IsChain.singleton _) List.nodup_nil (by simp) (by simp)
      exact ⟨hroute, by simp [hfront], hgoal⟩
    · split at hfound
      · exact ih hrest hfound
      · refine ih (hrest.relaxAll hknown hle ?_) hfound
        intro nb hnb
        exact (graph.hasEdge_iff cur nb).mpr hnb

theorem findShortestPathWeighted_isRoute {fuel : Nat} {toNodeId : Id} {excludeNodes path : List Id}
    (hfound : graph.findShortestPathWeighted fuel origin toNodeId excludeNodes = some path) :
    graph.IsRoute origin path ∧ path.getLast? = some toNodeId := by
  unfold findShortestPathWeighted at hfound
  split at hfound
  · cases hfound
  split at hfound
  case isTrue heq =>
    obtain rfl := Option.some.inj hfound
    exact ⟨⟨rfl, List.IsChain.singleton _, List.nodup_singleton _⟩, by simp [heq]⟩
  case isFalse =>
    obtain ⟨found, hdijkstra, rfl⟩ := Option.map_eq_some_iff.mp hfound
    obtain ⟨hroute, hlast, hgoal⟩ := dijkstra_isRoute (graph.start_traced origin) hdijkstra
    rw [of_decide_eq_true hgoal] at hlast
    exact ⟨hroute, hlast⟩

theorem findPathToNearestExitWeighted_isRoute {fuel : Nat} {excludeNodes : List Id}
    {found : Found Id}
    (hfound : graph.findPathToNearestExitWeighted fuel origin excludeNodes = some found) :
    graph.IsRoute origin found.path ∧ found.path.getLast? = some found.exitNode ∧
      graph.isExit found.exitNode = true := by
  unfold findPathToNearestExitWeighted at hfound
  split at hfound
  · cases hfound
  obtain ⟨hroute, hlast, hgoal⟩ := dijkstra_isRoute (graph.start_traced origin) hfound
  rw [Bool.and_eq_true] at hgoal
  exact ⟨hroute, hlast, hgoal.1⟩

end Loop

end NetworkGraph

end Meshpn.Routing
