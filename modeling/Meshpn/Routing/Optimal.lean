import Meshpn.Lib.Frontier
import Meshpn.Routing.ShortestPath

/-!
The Dijkstra searches return shortest paths. The search is an instance of the growing frontier:
its heap is what waits, and the vertices taken from it in time are settled. A pass takes one
entry from the heap, and a vertex puts its neighbours on it once, when it is settled; that
bounds the passes by the number of rows' entries.
-/

namespace Meshpn.Routing

open Meshpn.Lib List

namespace NetworkGraph

section Paths

variable {Id : Type} [DecidableEq Id] [LT Id] [DecidableLT Id]

/-- A path along edges that meets no excluded node after its start. -/
structure IsPath (graph : NetworkGraph Id) (excludeNodes : List Id) (origin target : Id)
    (path : List Id) : Prop where
  head : path.head? = some origin
  last : path.getLast? = some target
  edges : path.IsChain fun a b => graph.hasEdge a b = true
  avoids : ∀ node ∈ path.tail, node ∉ excludeNodes

def pathCost (graph : NetworkGraph Id) : List Id → ℚ
  | a :: b :: rest => graph.edgeCost a b + pathCost graph (b :: rest)
  | _ => 0

def Usable (graph : NetworkGraph Id) (excludeNodes : List Id) (a b : Id) : Prop :=
  graph.hasEdge a b = true ∧ b ∉ excludeNodes

abbrev Walks (graph : NetworkGraph Id) (excludeNodes : List Id) (origin : Id) : Id → ℚ → Prop :=
  Walk (graph.Usable excludeNodes) graph.edgeCost origin

variable {graph : NetworkGraph Id} {excludeNodes : List Id} {origin : Id}

omit [LT Id] [DecidableLT Id] in
theorem usable_chain {path : List Id} (hedges : path.IsChain fun a b => graph.hasEdge a b = true)
    (havoids : ∀ node ∈ path.tail, node ∉ excludeNodes) :
    path.IsChain (graph.Usable excludeNodes) := by
  induction path with
  | nil => exact .nil
  | cons a rest ih =>
    rcases rest with _ | ⟨b, rest⟩
    · exact .singleton a
    obtain ⟨hedge, hrest⟩ := isChain_cons_cons.mp hedges
    have havoidsRest : ∀ node ∈ rest, node ∉ excludeNodes :=
      fun node hnode => havoids node (mem_cons_of_mem _ hnode)
    exact isChain_cons_cons.mpr
      ⟨⟨hedge, havoids b mem_cons_self⟩, ih hrest havoidsRest⟩

theorem walks_along {a target : Id} {rest : List Id} {d : ℚ}
    (hwalk : graph.Walks excludeNodes origin a d)
    (hchain : (a :: rest).IsChain (graph.Usable excludeNodes))
    (hlast : (a :: rest).getLast? = some target) :
    graph.Walks excludeNodes origin target (d + graph.pathCost (a :: rest)) := by
  induction rest generalizing a d with
  | nil =>
    obtain rfl := Option.some.inj hlast
    simpa [pathCost] using hwalk
  | cons b rest ih =>
    obtain ⟨hedge, hrest⟩ := isChain_cons_cons.mp hchain
    have hnext := ih (.step hwalk hedge) hrest (by simpa using hlast)
    rwa [add_assoc] at hnext

theorem IsPath.walks {target : Id} {path : List Id}
    (h : graph.IsPath excludeNodes origin target path) :
    graph.Walks excludeNodes origin target (graph.pathCost path) := by
  rcases path with _ | ⟨first, rest⟩
  · cases h.head
  obtain rfl := Option.some.inj h.head
  have hstart : graph.Walks excludeNodes first first 0 := .start
  have hwalk := walks_along hstart (usable_chain h.edges h.avoids) h.last
  rwa [zero_add] at hwalk

end Paths

section Loop

variable {Id : Type} [DecidableEq Id] [LT Id] [DecidableLT Id] {graph : NetworkGraph Id}
  {excludeNodes : List Id} {origin : Id} {settled : List Id} {search : Search Id}
  {opened : Id → Id → Prop}

abbrev Explored (graph : NetworkGraph Id) (excludeNodes : List Id) (origin : Id)
    (settled : List Id) (search : Search Id) (opened : Id → Id → Prop) : Prop :=
  Frontier (graph.Usable excludeNodes) graph.edgeCost origin {v | v ∈ settled} search.dist.get
    search.prev.get {entry | entry ∈ search.heap} opened

theorem start_explored (graph : NetworkGraph Id) (excludeNodes : List Id) (origin : Id) :
    graph.Explored excludeNodes origin [] (Search.start origin) (fun _ _ => False) where
  start := Table.get_set_self _ _ _
  root := rfl
  known := fun node far h => by
    rcases (graph.start_traced origin).known node far h with hroot | hprev
    · exact .inl hroot
    · exact .inr hprev
  traced := fun _ _ h => by cases h
  reached := fun _ h => by cases h
  waits := by
    intro node far h _
    simp only [Search.start, Table.get_set, Table.get_empty] at h
    split at h
    case isTrue heq =>
      subst heq
      simp [Search.start, Option.some.inj h]
    case isFalse => cases h
  done := fun _ h => by cases h
  fresh := (graph.start_traced origin).heap

omit [LT Id] [DecidableLT Id] in
theorem get_set_update {β : Type} (table : Table Id β) (key : Id) (value : β) :
    (table.set key value).get = Function.update table.get key (some value) := by
  funext other
  rw [Table.get_set, Function.update_apply]
  simp only [eq_comm]

variable {cur : Id} {cost : ℚ}

theorem Explored.relax {cur nb : Id}
    (h : graph.Explored excludeNodes origin settled search opened) (hmem : cur ∈ settled)
    (hcur : search.dist.get cur = some cost)
    (hlatest : ∀ v ∈ settled, ∀ d, search.dist.get v = some d → d ≤ cost) (hfrom : 0 ≤ cost)
    (hedge : graph.hasEdge cur nb = true) :
    graph.Explored excludeNodes origin settled (graph.relax excludeNodes cost cur search nb)
      (fun v w => opened v w ∧ ¬ (v = cur ∧ w = nb)) ∧
    ∀ v ∈ settled,
      (graph.relax excludeNodes cost cur search nb).dist.get v = search.dist.get v := by
  unfold NetworkGraph.relax
  split
  case isTrue hexcluded =>
    exact ⟨h.pass hcur (fun husable => absurd hexcluded husable.2), fun _ _ => rfl⟩
  rename_i hexcluded
  split
  case isTrue hall =>
    have hbetter : ∀ e, search.dist.get nb = some e → cost + graph.edgeCost cur nb < e := by
      intro e he
      simpa [he] using hall
    have hpos := (graph.edgeCost_pos cur nb).le
    have hreach := h.reach hmem hcur hlatest hfrom hpos ⟨hedge, hexcluded⟩ hbetter
    constructor
    · simp only [Explored, get_set_update]
      convert hreach using 1
      ext entry
      simp [or_comm]
    · intro v hv
      have hne : nb ≠ v := by
        rintro rfl
        obtain ⟨e, he, -⟩ := h.done nb hv
        have hle := (hlatest nb hv e he).trans (le_add_of_nonneg_right hpos)
        exact absurd (hbetter e he) (not_lt.mpr hle)
      rw [Table.get_set, if_neg hne]
  case isFalse hall =>
    refine ⟨h.pass hcur (fun _ => ?_), fun _ _ => rfl⟩
    cases hnb : search.dist.get nb with
    | none => simp [hnb] at hall
    | some e => exact ⟨e, rfl, by simpa [hnb] using hall⟩

theorem Explored.relaxAll {neighbors : List Id}
    (h : graph.Explored excludeNodes origin settled search opened) (hmem : cur ∈ settled)
    (hcur : search.dist.get cur = some cost)
    (hlatest : ∀ v ∈ settled, ∀ d, search.dist.get v = some d → d ≤ cost) (hfrom : 0 ≤ cost)
    (hedges : ∀ nb ∈ neighbors, graph.hasEdge cur nb = true) :
    graph.Explored excludeNodes origin settled
      (neighbors.foldl (graph.relax excludeNodes cost cur) search)
      (fun v w => opened v w ∧ ¬ (v = cur ∧ w ∈ neighbors)) := by
  induction neighbors generalizing search opened with
  | nil => exact h.close (fun _ _ _ hopen => ⟨hopen, by simp⟩)
  | cons nb rest ih =>
    obtain ⟨hnext, hsame⟩ := Explored.relax h hmem hcur hlatest hfrom
      (hedges nb mem_cons_self)
    refine (ih hnext ((hsame cur hmem).trans hcur) ?_ ?_).close ?_
    · intro v hv d hd
      rw [hsame v hv] at hd
      exact hlatest v hv d hd
    · exact fun other hother => hedges other (mem_cons_of_mem _ hother)
    · rintro v w - ⟨⟨hopen, hfirst⟩, hrest⟩
      refine ⟨hopen, ?_⟩
      rintro ⟨rfl, hw⟩
      rcases mem_cons.mp hw with rfl | hin
      · exact hfirst ⟨rfl, rfl⟩
      · exact hrest ⟨rfl, hin⟩

def openDegree (graph : NetworkGraph Id) (settled : List Id) : Nat :=
  ((graph.edges.entries.filter fun row => row.1 ∉ settled).map fun row => row.2.length).sum

omit [LT Id] [DecidableLT Id] in
theorem open_degree_row {entries : List (Id × List Id)} (hnodup : (entries.map Prod.fst).Nodup) {row : List Id} (hrow : (cur, row) ∈ entries) (hcur : cur ∉ settled) :
    ((entries.filter fun row => row.1 ∉ cur :: settled).map fun row => row.2.length).sum +
      row.length =
    ((entries.filter fun row => row.1 ∉ settled).map fun row => row.2.length).sum := by
  induction entries with
  | nil => cases hrow
  | cons first rest ih =>
    obtain ⟨hfirst, hrest⟩ := nodup_cons.mp hnodup
    rcases mem_cons.mp hrow with rfl | hin
    · -- no later row is that of `cur`
      have hsame : rest.filter (fun row => decide (row.1 ∉ cur :: settled)) =
          rest.filter fun row => decide (row.1 ∉ settled) := by
        refine filter_congr (fun other hother => ?_)
        have hne : other.1 ≠ cur := by
          rintro rfl
          have hin : other.1 ∈ rest.map Prod.fst := mem_map_of_mem hother
          exact hfirst hin
        simp [hne]
      rw [filter_cons_of_neg (by simp), filter_cons_of_pos (by simpa using hcur), hsame]
      simp [add_comm]
    · have hne : first.1 ≠ cur := by
        intro heq
        exact hfirst (heq ▸ mem_map_of_mem (f := Prod.fst) hin)
      have hstep := ih hrest hin
      by_cases hsettled : first.1 ∈ settled
      · rw [filter_cons_of_neg (by simp [hsettled]),
          filter_cons_of_neg (by simp [hsettled])]
        exact hstep
      · rw [filter_cons_of_pos (by simp [hsettled, hne]),
          filter_cons_of_pos (by simp [hsettled]), map_cons, map_cons,
          sum_cons, sum_cons, add_assoc, hstep]

omit [LT Id] [DecidableLT Id] in
theorem open_degree_settle (hcur : cur ∉ settled) :
    graph.openDegree (cur :: settled) + (graph.getNeighbors cur).length ≤
      graph.openDegree settled := by
  unfold getNeighbors
  cases hrow : graph.edges.get cur with
  | none =>
    have hsame : graph.edges.entries.filter (fun row => decide (row.1 ∉ cur :: settled)) =
        graph.edges.entries.filter fun row => decide (row.1 ∉ settled) := by
      refine filter_congr (fun other hother => ?_)
      have hne : other.1 ≠ cur := by
        rintro rfl
        rw [Table.get_of_mem other.2 hother] at hrow
        cases hrow
      simp [hne]
    rw [openDegree, hsame]
    rfl
  | some row =>
    exact (open_degree_row graph.edges.nodup (Table.mem_of_get hrow) hcur).le

theorem relaxAll_heap (search : Search Id) (cost : ℚ) (cur : Id) (neighbors : List Id) :
    (neighbors.foldl (graph.relax excludeNodes cost cur) search).heap.length ≤
      search.heap.length + neighbors.length := by
  induction neighbors generalizing search with
  | nil => rfl
  | cons nb rest ih =>
    refine (ih _).trans ?_
    have hstep : (graph.relax excludeNodes cost cur search nb).heap.length ≤
        search.heap.length + 1 := by
      unfold NetworkGraph.relax
      split
      · omega
      split
      · simp
      · omega
    rw [length_cons]
    omega

theorem Explored.relax_again {neighbors : List Id}
    (h : graph.Explored excludeNodes origin settled search fun _ _ => False)
    (hmem : cur ∈ settled) (hcur : search.dist.get cur = some cost)
    (hedges : ∀ nb ∈ neighbors, graph.hasEdge cur nb = true) :
    neighbors.foldl (graph.relax excludeNodes cost cur) search = search := by
  induction neighbors with
  | nil => rfl
  | cons nb rest ih =>
    have hsame : graph.relax excludeNodes cost cur search nb = search := by
      unfold NetworkGraph.relax
      split
      · rfl
      rename_i hexcluded
      obtain ⟨d, e, hd, he, hle⟩ := h.reached cur hmem nb
        ⟨hedges nb mem_cons_self, hexcluded⟩ id
      rw [hcur] at hd
      obtain rfl := Option.some.inj hd
      rw [if_neg (by simpa [he] using hle)]
    rw [foldl_cons, hsame]
    exact ih (fun other hother => hedges other (mem_cons_of_mem _ hother))

omit [LT Id] [DecidableLT Id] in
theorem trail_linked {prev : Table Id Id} {passes : Nat} {node : Id} {path : List Id}
    (h : (node :: path).IsChain fun a b => prev.get b = some a) :
    (trail prev passes node path).IsChain fun a b => prev.get b = some a := by
  induction passes generalizing node path with
  | zero => exact isChain_of_isChain_cons h
  | succ passes ih =>
    unfold trail
    split
    · exact h
    · rename_i before hprev
      exact ih (isChain_cons_cons.mpr ⟨hprev, h⟩)

theorem Explored.linked_cost (h : graph.Explored excludeNodes origin settled search opened)
    {a target : Id} {rest : List Id} {d : ℚ} (hd : search.dist.get a = some d)
    (hlinked : (a :: rest).IsChain fun a b => search.prev.get b = some a)
    (hlast : (a :: rest).getLast? = some target) :
    search.dist.get target = some (d + graph.pathCost (a :: rest)) ∧
      ∀ node ∈ rest, node ∉ excludeNodes := by
  induction rest generalizing a d with
  | nil =>
    obtain rfl := Option.some.inj hlast
    exact ⟨by simpa [pathCost] using hd, by simp⟩
  | cons b rest ih =>
    obtain ⟨hprev, hrest⟩ := isChain_cons_cons.mp hlinked
    obtain ⟨-, husable, d', hd', he⟩ := h.traced b a hprev
    rw [hd] at hd'
    obtain rfl := Option.some.inj hd'
    obtain ⟨hcost, havoids⟩ := ih he hrest (by simpa using hlast)
    rw [add_assoc] at hcost
    refine ⟨hcost, ?_⟩
    rintro node hnode
    rcases mem_cons.mp hnode with rfl | hin
    · exact husable.2
    · exact havoids node hin

/-- The goal that is nearest to the origin, and a path of that cost. -/
structure Nearest (graph : NetworkGraph Id) (excludeNodes : List Id) (origin : Id)
    (goal : Id → Bool) (found : Found Id) : Prop where
  cost : graph.pathCost found.path = found.latency
  avoids : ∀ node ∈ found.path.tail, node ∉ excludeNodes
  least : ∀ node d, goal node = true → graph.Walks excludeNodes origin node d →
    found.latency ≤ d

/-- Taking the first entry from the sorted heap. -/
structure Popped (heap : List (ℚ × Id)) (cost : ℚ) (cur : Id) (rest : List (ℚ × Id)) : Prop where
  mem : ∀ entry, entry ∈ heap ↔ entry = (cost, cur) ∨ entry ∈ rest
  least : ∀ entry ∈ rest, cost ≤ entry.1
  length : heap.length = rest.length + 1

omit [DecidableEq Id] [LT Id] [DecidableLT Id] in
theorem popped_of_sorted {heap rest : List (ℚ × Id)}
    (hsorted : sortHeap heap = (cost, cur) :: rest) : Popped heap cost cur rest where
  mem := by
    intro entry
    have hmem : entry ∈ sortHeap heap ↔ entry ∈ heap := mem_insertionSort _
    rw [← hmem, hsorted, mem_cons]
  least := by
    have htotal : Std.Total fun a b : ℚ × Id => a.1 ≤ b.1 := ⟨fun a b => le_total a.1 b.1⟩
    have htrans : IsTrans (ℚ × Id) fun a b => a.1 ≤ b.1 := ⟨fun _ _ _ => le_trans⟩
    have hpairs := pairwise_insertionSort (fun a b : ℚ × Id => a.1 ≤ b.1) heap
    change (sortHeap heap).Pairwise _ at hpairs
    rw [hsorted] at hpairs
    exact (pairwise_cons.mp hpairs).1
  length := by
    have hlength := (perm_insertionSort (fun a b : ℚ × Id => a.1 ≤ b.1) heap).length_eq
    change (sortHeap heap).length = _ at hlength
    rw [← hlength, hsorted, length_cons]

theorem Explored.nearest {goal : Id → Bool} {rest : List (ℚ × Id)}
    {passes : Nat} (h : graph.Explored excludeNodes origin settled search fun _ _ => False)
    (hgoals : ∀ v ∈ settled, goal v = false) (hpopped : Popped search.heap cost cur rest)
    (hgoal : goal cur = true)
    (hroute : graph.IsRoute origin (trail search.prev passes cur []))
    (hlast : (trail search.prev passes cur []).getLast? = some cur) :
    graph.Nearest excludeNodes origin goal ⟨trail search.prev passes cur [], cur, cost⟩ := by
  have hleast : ∀ entry ∈ search.heap, cost ≤ entry.1 := by
    intro entry hentry
    rcases (hpopped.mem entry).mp hentry with rfl | hin
    · exact le_rfl
    · exact hpopped.least entry hin
  -- a goal is never settled, so its distance waits and the entry is not out of date
  have hdist : search.dist.get cur = some cost := by
    obtain ⟨d, hd, hle⟩ := h.fresh (cost, cur) ((hpopped.mem _).mpr (.inl rfl))
    have hunsettled : cur ∉ settled := fun hmem => by
      rw [hgoals cur hmem] at hgoal
      cases hgoal
    rw [hd, le_antisymm hle (hleast _ (h.waits cur d hd hunsettled))]
  have hlinked : (trail search.prev passes cur []).IsChain fun a b => search.prev.get b = some a :=
    trail_linked (.singleton cur)
  obtain ⟨hcost, havoids⟩ : graph.pathCost (trail search.prev passes cur []) = cost ∧
      ∀ node ∈ (trail search.prev passes cur []).tail, node ∉ excludeNodes := by
    revert hroute hlast hlinked
    generalize trail search.prev passes cur [] = path
    intro hroute hlast hlinked
    rcases path with _ | ⟨first, rest⟩
    · cases hlast
    obtain rfl := Option.some.inj hroute.head
    obtain ⟨hcost, havoids⟩ := h.linked_cost h.start hlinked hlast
    rw [hdist, zero_add] at hcost
    exact ⟨(Option.some.inj hcost).symm, havoids⟩
  refine ⟨hcost, havoids, fun node d hnode hwalk => ?_⟩
  rcases h.lower (fun _ _ => id) (fun v w => (graph.edgeCost_pos v w).le) hwalk with
    ⟨hsettled, -⟩ | ⟨entry, hentry, hle⟩
  · rw [hgoals node hsettled] at hnode
    cases hnode
  · exact (hleast entry hentry).trans hle

/-- The node that is taken from the heap in time is settled and tells its neighbours. -/
theorem Explored.advance {rest : List (ℚ × Id)}
    (h : graph.Explored excludeNodes origin settled search fun _ _ => False)
    (htraced : graph.Traced origin search) (hpopped : Popped search.heap cost cur rest)
    (hdist : search.dist.get cur = some cost) :
    graph.Explored excludeNodes origin (cur :: settled)
      ((graph.getNeighbors cur).foldl (graph.relax excludeNodes cost cur)
        { search with heap := rest }) fun _ _ => False := by
  have hsub : {entry | entry ∈ rest} ⊆ {entry | entry ∈ search.heap} :=
    fun entry hentry => (hpopped.mem entry).mpr (.inr hentry)
  have hsettle := h.settle hdist hsub
    (fun entry hentry hrest => ((hpopped.mem entry).mp hentry).resolve_right hrest)
    hpopped.least
  have hopened : graph.Explored excludeNodes origin (cur :: settled) { search with heap := rest }
      fun v _ => v = cur := by
    have hset : {v | v ∈ cur :: settled} = insert cur {v | v ∈ settled} := by
      ext v
      simp
    rw [Explored, hset]
    exact hsettle.close (fun v w _ hopen => hopen.resolve_left id)
  have hlatest : ∀ v ∈ cur :: settled, ∀ d, search.dist.get v = some d → d ≤ cost := by
    intro v hv d hd
    rcases mem_cons.mp hv with rfl | hin
    · rw [hdist] at hd
      exact (Option.some.inj hd).ge
    · obtain ⟨e, he, hle⟩ := h.done v hin
      rw [he] at hd
      obtain rfl := Option.some.inj hd
      exact hle (cost, cur) ((hpopped.mem _).mpr (.inl rfl))
  refine (hopened.relaxAll mem_cons_self hdist hlatest (htraced.nonneg cur cost hdist) ?_).close
    ?_
  · exact fun nb hnb => (graph.hasEdge_iff cur nb).mpr hnb
  · rintro v w husable ⟨rfl, hnot⟩
    exact hnot ⟨rfl, (graph.hasEdge_iff v w).mp husable.1⟩

/-- With enough passes the loop finds the nearest goal, or there is none that can be reached. -/
theorem dijkstra_nearest {goal : Id → Bool} {fuel : Nat}
    (h : graph.Explored excludeNodes origin settled search fun _ _ => False)
    (htraced : graph.Traced origin search) (hgoals : ∀ v ∈ settled, goal v = false)
    (hfuel : search.heap.length + graph.openDegree settled < fuel) :
    (graph.dijkstra excludeNodes goal fuel search = none →
      ∀ node d, graph.Walks excludeNodes origin node d → goal node = false) ∧
    ∀ found, graph.dijkstra excludeNodes goal fuel search = some found →
      graph.Nearest excludeNodes origin goal found := by
  induction fuel generalizing search settled with
  | zero => omega
  | succ fuel ih =>
    unfold dijkstra
    cases hsorted : sortHeap search.heap with
    | nil =>
      refine ⟨fun _ node d hwalk => ?_, fun _ hfound => (by cases hfound)⟩
      have hempty : ∀ entry, entry ∉ search.heap := by
        intro entry hentry
        have hin : entry ∈ sortHeap search.heap := (mem_insertionSort _).mpr hentry
        rw [hsorted] at hin
        cases hin
      rcases h.lower (fun _ _ => id) (fun v w => (graph.edgeCost_pos v w).le) hwalk with
        ⟨hsettled, -⟩ | ⟨entry, hentry, -⟩
      · exact hgoals node hsettled
      · exact absurd hentry (hempty entry)
    | cons first rest =>
      obtain ⟨cost, cur⟩ := first
      have hpopped := popped_of_sorted hsorted
      have hlength := hpopped.length
      have hsub : ∀ entry ∈ rest, entry ∈ search.heap :=
        fun entry hentry => (hpopped.mem entry).mpr (.inr hentry)
      obtain ⟨known, hknown, hle⟩ := h.fresh (cost, cur) ((hpopped.mem _).mpr (.inl rfl))
      have hrest := htraced.drop rest hsub
      have hedges : ∀ nb ∈ graph.getNeighbors cur, graph.hasEdge cur nb = true :=
        fun nb hnb => (graph.hasEdge_iff cur nb).mpr hnb
      dsimp only
      by_cases hgoal : goal cur = true
      · rw [if_pos hgoal]
        refine ⟨fun hnone => (by cases hnone), fun found hfound => ?_⟩
        obtain rfl := Option.some.inj hfound
        obtain ⟨hroute, front, hfront⟩ := trail_isRoute htraced [] hknown (Nat.lt_succ_self _)
          (List.IsChain.singleton _) nodup_nil (by simp) (by simp)
        exact h.nearest hgoals hpopped hgoal hroute (by simp [hfront])
      · rw [if_neg hgoal]
        by_cases hstale : (search.dist.get cur).any (fun known => known < cost) = true
        · rw [if_pos hstale]
          have hlt : known < cost := by simpa [hknown] using hstale
          refine ih (h.forget (fun entry hentry => hsub entry hentry) ?_) hrest hgoals ?_
          · intro entry hentry hnot
            obtain rfl := ((hpopped.mem entry).mp hentry).resolve_right hnot
            rw [hknown]
            exact .inr (fun heq => hlt.ne (Option.some.inj heq))
          · simp only
            omega
        · rw [if_neg hstale]
          have hdist : search.dist.get cur = some cost := by
            have hge : ¬ known < cost := by simpa [hknown] using hstale
            rw [hknown, le_antisymm hle (not_lt.mp hge)]
          have htracedNext : graph.Traced origin ((graph.getNeighbors cur).foldl
              (graph.relax excludeNodes cost cur) { search with heap := rest }) :=
            hrest.relaxAll hdist le_rfl hedges
          by_cases hsettled : cur ∈ settled
          · -- the same entry a second time
            have hkept : graph.Explored excludeNodes origin settled { search with heap := rest }
                fun _ _ => False := by
              refine h.forget (fun entry hentry => hsub entry hentry) ?_
              intro entry hentry hnot
              obtain rfl := ((hpopped.mem entry).mp hentry).resolve_right hnot
              exact .inl hsettled
            rw [hkept.relax_again hsettled hdist hedges]
            refine ih hkept hrest hgoals ?_
            simp only
            omega
          · have hfalse : goal cur = false := by simpa using hgoal
            refine ih (h.advance htraced hpopped hdist) htracedNext ?_ ?_
            · intro v hv
              rcases mem_cons.mp hv with rfl | hin
              · exact hfalse
              · exact hgoals v hin
            · have hheap : ((graph.getNeighbors cur).foldl (graph.relax excludeNodes cost cur)
                  { search with heap := rest }).heap.length ≤
                  rest.length + (graph.getNeighbors cur).length := relaxAll_heap _ _ _ _
              have hdegree : graph.openDegree (cur :: settled) + (graph.getNeighbors cur).length ≤
                  graph.openDegree settled := open_degree_settle hsettled
              omega

/-- A path of least cost among those to a goal. -/
structure Best (graph : NetworkGraph Id) (excludeNodes : List Id) (origin : Id)
    (goal : Id → Prop) (found : Found Id) : Prop where
  reaches : goal found.exitNode
  path : graph.IsPath excludeNodes origin found.exitNode found.path
  simple : found.path.Nodup
  latency : found.latency = graph.pathCost found.path
  least : ∀ node path, goal node → graph.IsPath excludeNodes origin node path →
    graph.pathCost found.path ≤ graph.pathCost path

theorem search_best (graph : NetworkGraph Id) (excludeNodes : List Id) (origin : Id)
    (goal : Id → Bool) {fuel : Nat} (hfuel : graph.openDegree [] + 1 < fuel) :
    (graph.dijkstra excludeNodes goal fuel (Search.start origin) = none ↔
      ∀ node path, goal node = true → ¬ graph.IsPath excludeNodes origin node path) ∧
    ∀ found, graph.dijkstra excludeNodes goal fuel (Search.start origin) = some found →
      graph.Best excludeNodes origin (fun node => goal node = true) found := by
  have hheap : (Search.start origin).heap.length + graph.openDegree [] < fuel := by
    simp only [Search.start, length_singleton]
    omega
  have hgoals : ∀ v ∈ ([] : List Id), goal v = false := fun _ hv => by cases hv
  obtain ⟨hnone, hsome⟩ := dijkstra_nearest (graph.start_explored excludeNodes origin)
    (graph.start_traced origin) hgoals hheap
  have hbest : ∀ found,
      graph.dijkstra excludeNodes goal fuel (Search.start origin) = some found →
      graph.Best excludeNodes origin (fun node => goal node = true) found := by
    intro found hfound
    have hnearest := hsome found hfound
    obtain ⟨hroute, hlast, hgoal⟩ := dijkstra_isRoute (graph.start_traced origin) hfound
    refine ⟨hgoal, ⟨hroute.head, hlast, hroute.edges, hnearest.avoids⟩, hroute.nodup,
      hnearest.cost.symm, fun node path hnode hpath => ?_⟩
    exact hnearest.cost.trans_le (hnearest.least node _ hnode hpath.walks)
  refine ⟨⟨fun h node path hnode hpath => ?_, fun h => ?_⟩, hbest⟩
  · rw [hnone h node _ hpath.walks] at hnode
    cases hnode
  · cases hfound : graph.dijkstra excludeNodes goal fuel (Search.start origin) with
    | none => rfl
    | some found => exact absurd (hbest found hfound).path (h _ _ (hbest found hfound).reaches)

def triangle : NetworkGraph Nat :=
  let graph := ((NetworkGraph.init.addNode 0 {}).addNode 1 {}).addNode 2 { role := some (some .exit) }
  (((graph.addEdge 0 1).addEdge 1 2).addEdge 0 2).updateEdgeMetrics 0 2
    { latency := some (1001 / 2) }

end Loop

end NetworkGraph

end Meshpn.Routing
