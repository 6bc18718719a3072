import Mathlib.Data.List.Perm.Subperm
import Meshpn.Lib.Layers
import Meshpn.Routing.Optimal

/-!
The searches that count hops. They share their queue of paths: a node is marked when a path to
it is put on the queue, and the path is copied for each neighbour. One search stops at its first
goal, the other one goes on through the exits it finds until it has enough of them.

The queue is one of paths by layers, so the first path to a node is a shortest one.
-/

namespace Meshpn.Routing

open Meshpn.Lib List

/-- The variables of a search. -/
structure HopSearch (Id : Type) where
  visited : List Id
  queue : List (List Id)

/-- An entry of `findAllPathsToExits`. -/
structure ExitPath (Id : Type) where
  path : List Id
  exitNode : Id
  hops : Nat
  deriving DecidableEq, Repr

namespace NetworkGraph

section Operations

variable {Id : Type} [DecidableEq Id]

def HopSearch.start (startId : Id) : HopSearch Id := ⟨[startId], [[startId]]⟩

/-- One neighbour of the end of the path. -/
def enqueue (excludeNodes path : List Id) (search : HopSearch Id) (nb : Id) : HopSearch Id :=
  if nb ∉ search.visited ∧ nb ∉ excludeNodes then
    ⟨search.visited ++ [nb], search.queue ++ [path ++ [nb]]⟩
  else search

/-- The loop over the neighbours. -/
def expand (graph : NetworkGraph Id) (excludeNodes path : List Id) (current : Id)
    (search : HopSearch Id) : HopSearch Id :=
  (graph.getNeighbors current).foldl (enqueue excludeNodes path) search

/-- The loop of `_bfs`, for at most as many passes as there is fuel. -/
def bfsLoop {β : Type} (graph : NetworkGraph Id) (startId : Id)
    (isGoal : Id → List Id → Option β) (excludeNodes : List Id) : Nat → HopSearch Id → Option β
  | 0, _ => none
  | fuel + 1, search =>
    match search.queue with
    | [] => none
    | path :: rest =>
      let current := path.getLastD startId
      match isGoal current path with
      | some hit => some hit
      | none =>
        bfsLoop graph startId isGoal excludeNodes fuel
          (graph.expand excludeNodes path current ⟨search.visited, rest⟩)

def bfs {β : Type} (fuel : Nat) (graph : NetworkGraph Id) (startId : Id)
    (isGoal : Id → List Id → Option β) (excludeNodes : List Id) : Option β :=
  if graph.hasNode startId then
    graph.bfsLoop startId isGoal excludeNodes fuel (HopSearch.start startId)
  else none

def findShortestPath (fuel : Nat) (graph : NetworkGraph Id) (fromNodeId toNodeId : Id)
    (excludeNodes : List Id) : Option (List Id) :=
  if !graph.hasNode toNodeId then none
  else if fromNodeId = toNodeId then some [fromNodeId]
  else
    graph.bfs fuel fromNodeId (fun cur path => if cur = toNodeId then some path else none)
      excludeNodes

/-- The path and the exit. -/
def findPathToNearestExit (fuel : Nat) (graph : NetworkGraph Id) (fromNodeId : Id)
    (excludeNodes : List Id) : Option (List Id × Id) :=
  graph.bfs fuel fromNodeId
    (fun cur path => if graph.isExit cur && cur ≠ fromNodeId then some (path, cur) else none)
    excludeNodes

/-- The loop of `findAllPathsToExits`. -/
def exitsLoop (graph : NetworkGraph Id) (fromNodeId : Id) (maxPaths : Nat)
    (excludeNodes : List Id) : Nat → HopSearch Id → List (ExitPath Id) → List (ExitPath Id)
  | 0, _, paths => paths
  | fuel + 1, search, paths =>
    if paths.length < maxPaths then
      match search.queue with
      | [] => paths
      | path :: rest =>
        let cur := path.getLastD fromNodeId
        let next := graph.expand excludeNodes path cur ⟨search.visited, rest⟩
        if graph.isExit cur && cur ≠ fromNodeId then
          let paths := paths ++ [⟨path, cur, path.length - 1⟩]
          if paths.length ≥ maxPaths then paths
          else exitsLoop graph fromNodeId maxPaths excludeNodes fuel next paths
        else exitsLoop graph fromNodeId maxPaths excludeNodes fuel next paths
    else paths

def findAllPathsToExits (fuel : Nat) (graph : NetworkGraph Id) (fromNodeId : Id) (maxPaths : Nat)
    (excludeNodes : List Id) : List (ExitPath Id) :=
  if graph.hasNode fromNodeId then
    (graph.exitsLoop fromNodeId maxPaths excludeNodes fuel (HopSearch.start fromNodeId)
      []).insertionSort fun a b => a.hops ≤ b.hops
  else []

end Operations

section Search

variable {Id : Type} [DecidableEq Id] {graph : NetworkGraph Id} {excludeNodes : List Id}
  {origin : Id} {settled : List (List Id)} {search : HopSearch Id} {layer : Nat}
  {opened : Id → Id → Prop}

abbrev Routes (graph : NetworkGraph Id) (excludeNodes : List Id) (origin : Id) :
    Id → List Id → Prop :=
  Trail (graph.Usable excludeNodes) origin

variable {path : List Id} {rest : List (List Id)}

theorem isPath_iff {target : Id} :
    graph.IsPath excludeNodes origin target path ↔
      graph.Routes excludeNodes origin target path := by
  constructor
  · intro h
    exact ⟨h.head, h.last, usable_chain h.edges h.avoids⟩
  · intro h
    refine ⟨h.head, h.last, h.chain.imp fun _ _ husable => husable.1, ?_⟩
    have havoids : ∀ (first : Id) (rest : List Id),
        (first :: rest).IsChain (graph.Usable excludeNodes) → ∀ node ∈ rest,
          node ∉ excludeNodes := by
      intro first rest hchain
      induction rest generalizing first with
      | nil => exact fun _ hnode => by cases hnode
      | cons second rest ih =>
        obtain ⟨husable, hrest⟩ := isChain_cons_cons.mp hchain
        intro node hnode
        rcases mem_cons.mp hnode with rfl | hin
        · exact husable.2
        · exact ih second hrest node hin
    cases path with
    | nil => exact fun _ hnode => by cases hnode
    | cons first rest => exact havoids first rest h.chain

/-- What holds before a pass, and within one for the edges that are not open. -/
structure Searched (graph : NetworkGraph Id) (excludeNodes : List Id) (origin : Id)
    (settled : List (List Id)) (search : HopSearch Id) (layer : Nat)
    (opened : Id → Id → Prop) : Prop where
  layers : Layers (graph.Usable excludeNodes) origin settled search.queue layer opened
  visited : ∀ v, v ∈ search.visited ↔ ∃ p ∈ settled ++ search.queue, p.getLast? = some v

/-- Settled paths are shortest ones, in the order of their lengths. -/
structure Least (graph : NetworkGraph Id) (excludeNodes : List Id) (origin : Id)
    (settled : List (List Id)) : Prop where
  least : ∀ p ∈ settled, ∀ v other, p.getLast? = some v →
    graph.Routes excludeNodes origin v other → p.length ≤ other.length
  ordered : settled.Pairwise fun p q => p.length ≤ q.length

theorem start_searched (graph : NetworkGraph Id) (excludeNodes : List Id) (origin : Id) :
    graph.Searched excludeNodes origin [] (HopSearch.start origin) 0 (fun _ _ => False) where
  layers := .init _ origin
  visited := fun v => by simp [HopSearch.start, eq_comm]

theorem Searched.enqueue {current nb : Id}
    (h : graph.Searched excludeNodes origin settled search layer opened) (hpath : path ∈ settled)
    (hcurrent : path.getLast? = some current) (hlayer : path.length = layer)
    (hedge : graph.hasEdge current nb = true) :
    graph.Searched excludeNodes origin settled
      (NetworkGraph.enqueue excludeNodes path search nb) layer
      (fun v w => opened v w ∧ ¬ (v = current ∧ w = nb)) := by
  unfold NetworkGraph.enqueue
  split
  case isTrue hnew =>
    have hnone : ∀ p ∈ settled ++ search.queue, p.getLast? ≠ some nb :=
      fun p hp hlast => hnew.1 ((h.visited nb).mpr ⟨p, hp, hlast⟩)
    refine ⟨h.layers.reach hpath hcurrent hlayer ⟨hedge, hnew.2⟩ hnone, fun v => ?_⟩
    dsimp only
    rw [mem_append, mem_singleton, h.visited v, ← append_assoc]
    constructor
    · rintro (⟨p, hp, hlast⟩ | rfl)
      · exact ⟨p, mem_append_left _ hp, hlast⟩
      · exact ⟨path ++ [v], mem_append_right _ (mem_singleton_self _),
          getLast?_concat⟩
    · rintro ⟨p, hp, hlast⟩
      rcases mem_append.mp hp with hold | hlong
      · exact .inl ⟨p, hold, hlast⟩
      · rw [mem_singleton.mp hlong, getLast?_concat] at hlast
        exact .inr (Option.some.inj hlast).symm
  case isFalse hold =>
    refine ⟨h.layers.pass hpath hcurrent hlayer fun husable => ?_, h.visited⟩
    rw [not_and_or, not_not, not_not] at hold
    exact (h.visited nb).mp (hold.resolve_right husable.2)

theorem Searched.expand {current : Id} (neighbors : List Id)
    (h : graph.Searched excludeNodes origin settled search layer opened) (hpath : path ∈ settled)
    (hcurrent : path.getLast? = some current) (hlayer : path.length = layer)
    (hedges : ∀ nb ∈ neighbors, graph.hasEdge current nb = true) :
    graph.Searched excludeNodes origin settled
      (neighbors.foldl (NetworkGraph.enqueue excludeNodes path) search) layer
      (fun v w => opened v w ∧ ¬ (v = current ∧ w ∈ neighbors)) := by
  induction neighbors generalizing search opened with
  | nil => exact ⟨h.layers.close fun _ _ _ hopen => ⟨hopen, by simp⟩, h.visited⟩
  | cons nb rest ih =>
    have hnext := ih (h.enqueue hpath hcurrent hlayer (hedges nb mem_cons_self))
      fun other hother => hedges other (mem_cons_of_mem _ hother)
    refine ⟨hnext.layers.close ?_, hnext.visited⟩
    rintro v w - ⟨⟨hopen, hfirst⟩, hrest⟩
    refine ⟨hopen, ?_⟩
    rintro ⟨rfl, hw⟩
    rcases mem_cons.mp hw with rfl | hin
    · exact hfirst ⟨rfl, rfl⟩
    · exact hrest ⟨rfl, hin⟩

theorem Searched.pass {current : Id}
    (h : graph.Searched excludeNodes origin settled search layer fun _ _ => False)
    (hqueue : search.queue = path :: rest) (hcurrent : path.getLast? = some current) :
    graph.Searched excludeNodes origin (settled ++ [path])
      (graph.expand excludeNodes path current ⟨search.visited, rest⟩) path.length
      (fun _ _ => False) := by
  have hlayers := h.layers
  rw [hqueue] at hlayers
  have hsettled : graph.Searched excludeNodes origin (settled ++ [path]) ⟨search.visited, rest⟩
      path.length (fun v w => False ∨ v = current) := by
    refine ⟨hlayers.settle hcurrent, fun v => ?_⟩
    rw [h.visited v, hqueue, append_assoc]
    rfl
  have hnext := hsettled.expand (graph.getNeighbors current)
    (mem_append_right _ (mem_singleton_self _)) hcurrent rfl
    fun nb hnb => (graph.hasEdge_iff current nb).mpr hnb
  refine ⟨hnext.layers.close ?_, hnext.visited⟩
  rintro v w hadj ⟨hopen, hnot⟩
  obtain rfl := hopen.resolve_left id
  exact hnot ⟨rfl, (graph.hasEdge_iff v w).mp hadj.1⟩

theorem Searched.front
    (h : graph.Searched excludeNodes origin settled search layer opened)
    (hqueue : search.queue = path :: rest) :
    ∃ current, path.getLast? = some current ∧ path.getLastD origin = current ∧
      graph.Routes excludeNodes origin current path := by
  obtain ⟨current, hroute⟩ := h.layers.trails path
    (mem_append_right _ (by rw [hqueue]; exact mem_cons_self))
  refine ⟨current, hroute.last, ?_, hroute⟩
  rw [getLastD_eq_getLast?, hroute.last]
  rfl

theorem Least.pass
    (hleast : graph.Least excludeNodes origin settled)
    (h : graph.Searched excludeNodes origin settled search layer fun _ _ => False)
    (hqueue : search.queue = path :: rest) :
    graph.Least excludeNodes origin (settled ++ [path]) := by
  have hlayers := h.layers
  rw [hqueue] at hlayers
  constructor
  · intro p hp v other hlast hother
    rcases mem_append.mp hp with hsettled | hpath
    · exact hleast.least p hsettled v other hlast hother
    rw [mem_singleton.mp hpath] at hlast ⊢
    exact hlayers.front_least (fun _ _ => id) hother
      fun q hq hend => hlayers.front_new q hq (hend.trans hlast.symm)
  · rw [pairwise_append]
    refine ⟨hleast.ordered, pairwise_singleton _ _, ?_⟩
    intro p hp q hq
    rw [mem_singleton.mp hq]
    exact (hlayers.done p hp).trans (hlayers.near path mem_cons_self).1

theorem Searched.bounded
    (h : graph.Searched excludeNodes origin settled search layer opened) :
    settled.length ≤ graph.openDegree [] + 1 := by
  have hdegree : graph.openDegree [] = (graph.edges.entries.flatMap Prod.snd).length := by
    rw [openDegree, length_flatMap]
    congr 2
    exact filter_eq_self.mpr fun _ _ => by simp
  have hsub : (settled ++ search.queue).map List.getLast? ⊆
      (origin :: graph.edges.entries.flatMap Prod.snd).map some := by
    intro final hfinal
    obtain ⟨p, hp, rfl⟩ := mem_map.mp hfinal
    obtain ⟨v, hroute⟩ := h.layers.trails p hp
    rw [hroute.last]
    refine mem_map_of_mem ?_
    rcases hroute.cases_last with ⟨-, rfl⟩ | ⟨front, before, -, -, husable⟩
    · exact mem_cons_self
    have hin := (graph.hasEdge_iff before v).mp husable.1
    unfold getNeighbors at hin
    cases hrow : graph.edges.get before with
    | none =>
      rw [hrow] at hin
      cases hin
    | some row =>
      rw [hrow] at hin
      exact mem_cons_of_mem _
        (mem_flatMap.mpr ⟨(before, row), Table.mem_of_get hrow, hin⟩)
  have hlength := (h.layers.ends.subperm hsub).length_le
  simp only [length_map, length_append, length_cons, ← hdegree] at hlength
  omega

/-- The first goal that is met: none where no goal can be reached, and otherwise one with a
shortest path. -/
theorem bfsLoop_first {β : Type} {goal : Id → Bool} {hit : Id → List Id → β}
    {isGoal : Id → List Id → Option β}
    (hform : ∀ v p, isGoal v p = if goal v then some (hit v p) else none) {fuel : Nat}
    (h : graph.Searched excludeNodes origin settled search layer fun _ _ => False)
    (hgoals : ∀ p ∈ settled, ∀ v, p.getLast? = some v → goal v = false)
    (hfuel : graph.openDegree [] + 1 < fuel + settled.length) :
    (graph.bfsLoop origin isGoal excludeNodes fuel search = none →
      ∀ target path, graph.Routes excludeNodes origin target path → goal target = false) ∧
    ∀ found, graph.bfsLoop origin isGoal excludeNodes fuel search = some found →
      ∃ current path, found = hit current path ∧ goal current = true ∧
        graph.Routes excludeNodes origin current path ∧
        ∀ target other, goal target = true → graph.Routes excludeNodes origin target other →
          path.length ≤ other.length := by
  induction fuel generalizing settled search layer with
  | zero =>
    have hbound := h.bounded
    omega
  | succ fuel ih =>
    rw [bfsLoop]
    split
    case h_1 hqueue =>
      refine ⟨fun _ target path hroute => ?_, fun _ hfound => by cases hfound⟩
      have hlayers := h.layers
      rw [hqueue] at hlayers
      obtain ⟨p, hp, hlast, -⟩ := hlayers.exhausted (fun _ _ => id) hroute
      exact hgoals p hp target hlast
    case h_2 path rest hqueue =>
      obtain ⟨current, hcurrent, hlastD, hroute⟩ := h.front hqueue
      dsimp only
      rw [hlastD, hform]
      cases hgoal : goal current with
      | true =>
        simp only [if_true]
        refine ⟨(fun hnone => by cases hnone), fun found hfound => ?_⟩
        have hlayers := h.layers
        rw [hqueue] at hlayers
        refine ⟨current, path, (Option.some.inj hfound).symm, hgoal, hroute, ?_⟩
        intro target other htarget hother
        refine hlayers.front_least (fun _ _ => id) hother fun p hp hlast => ?_
        rw [hgoals p hp target hlast] at htarget
        cases htarget
      | false =>
        simp only [Bool.false_eq_true, if_false]
        refine ih (h.pass hqueue hcurrent) ?_ ?_
        · intro p hp v hlast
          rcases mem_append.mp hp with hsettled | hpath
          · exact hgoals p hsettled v hlast
          · rw [mem_singleton.mp hpath, hcurrent] at hlast
            exact Option.some.inj hlast ▸ hgoal
        · rw [length_append, length_singleton]
          omega

/-- The settled paths to exits, as they are returned. -/
def exitPaths (graph : NetworkGraph Id) (origin : Id) (settled : List (List Id)) :
    List (ExitPath Id) :=
  (settled.filter fun p => graph.isExit (p.getLastD origin) && p.getLastD origin ≠ origin).map
    fun p => ⟨p, p.getLastD origin, p.length - 1⟩

/-- What the loop has settled when it stops: there were enough exits, or nothing else can be
reached; and what is left is no nearer. -/
structure Stopped (graph : NetworkGraph Id) (excludeNodes : List Id) (origin : Id)
    (maxPaths : Nat) (settled : List (List Id)) : Prop where
  least : graph.Least excludeNodes origin settled
  routes : ∀ p ∈ settled, ∃ v, graph.Routes excludeNodes origin v p
  ends : (settled.map List.getLast?).Nodup
  within : (graph.exitPaths origin settled).length ≤ maxPaths
  rest : ∀ target other, graph.Routes excludeNodes origin target other →
    (∀ p ∈ settled, p.getLast? ≠ some target) →
      (graph.exitPaths origin settled).length = maxPaths ∧ ∀ p ∈ settled, p.length ≤ other.length

theorem Searched.stopped {maxPaths : Nat}
    (h : graph.Searched excludeNodes origin settled search layer opened)
    (hleast : graph.Least excludeNodes origin settled)
    (hwithin : (graph.exitPaths origin settled).length ≤ maxPaths)
    (hrest : ∀ target other, graph.Routes excludeNodes origin target other →
      (∀ p ∈ settled, p.getLast? ≠ some target) →
        (graph.exitPaths origin settled).length = maxPaths ∧
          ∀ p ∈ settled, p.length ≤ other.length) :
    graph.Stopped excludeNodes origin maxPaths settled := by
  have hends := h.layers.ends
  rw [map_append, nodup_append] at hends
  exact ⟨hleast, fun p hp => h.layers.trails p (mem_append_left _ hp), hends.1, hwithin, hrest⟩

theorem exitsLoop_stopped (maxPaths : Nat) {fuel : Nat}
    (h : graph.Searched excludeNodes origin settled search layer fun _ _ => False)
    (hleast : graph.Least excludeNodes origin settled)
    (hwithin : (graph.exitPaths origin settled).length ≤ maxPaths)
    (hfuel : graph.openDegree [] + 1 < fuel + settled.length) :
    ∃ final, graph.exitsLoop origin maxPaths excludeNodes fuel search
        (graph.exitPaths origin settled) = graph.exitPaths origin final ∧
      graph.Stopped excludeNodes origin maxPaths final := by
  induction fuel generalizing settled search layer with
  | zero =>
    have hbound := h.bounded
    omega
  | succ fuel ih =>
    rw [exitsLoop]
    split
    case isFalse hfull =>
      refine ⟨settled, rfl, h.stopped hleast hwithin fun target other hother hnew => ?_⟩
      refine ⟨by omega, fun p hp => ?_⟩
      rcases h.layers.lower (fun _ _ => id) hother with ⟨q, hq, hlast, -⟩ | ⟨q, hq, hle⟩
      · exact absurd hlast (hnew q hq)
      · exact ((h.layers.done p hp).trans (h.layers.near q hq).1).trans hle
    case isTrue hroom =>
      split
      case h_1 hqueue =>
        refine ⟨settled, rfl, h.stopped hleast hwithin fun target other hother hnew => ?_⟩
        have hlayers := h.layers
        rw [hqueue] at hlayers
        obtain ⟨q, hq, hlast, -⟩ := hlayers.exhausted (fun _ _ => id) hother
        exact absurd hlast (hnew q hq)
      case h_2 path rest hqueue =>
        obtain ⟨current, hcurrent, hlastD, -⟩ := h.front hqueue
        have hpass := h.pass hqueue hcurrent
        have hleast' := hleast.pass h hqueue
        have hfuel' : graph.openDegree [] + 1 < fuel + (settled ++ [path]).length := by
          rw [length_append, length_singleton]
          omega
        dsimp only
        rw [hlastD]
        by_cases hexit : (graph.isExit current && decide (current ≠ origin)) = true
        · have hmore : graph.exitPaths origin (settled ++ [path]) =
              graph.exitPaths origin settled ++ [⟨path, current, path.length - 1⟩] := by
            simp only [exitPaths, filter_append, map_append, filter_cons, hlastD, hexit,
              if_true, filter_nil, map_cons, map_nil]
          rw [if_pos hexit, ← hmore]
          have hwithin' : (graph.exitPaths origin (settled ++ [path])).length ≤ maxPaths := by
            rw [hmore, length_append, length_singleton]
            omega
          split
          case isTrue hfull =>
            refine ⟨_, rfl, hpass.stopped hleast' hwithin' fun target other hother hnew => ?_⟩
            have hlayers := h.layers
            rw [hqueue] at hlayers
            have hlong := hlayers.front_least (fun _ _ => id) hother
              fun p hp => hnew p (mem_append_left _ hp)
            exact ⟨by omega, fun p hp => (hpass.layers.done p hp).trans hlong⟩
          case isFalse => exact ih hpass hleast' hwithin' hfuel'
        · have hsame : graph.exitPaths origin (settled ++ [path]) =
              graph.exitPaths origin settled := by
            simp only [exitPaths, filter_append, filter_cons, hlastD, hexit, if_false,
              filter_nil, append_nil, Bool.false_eq_true]
          rw [if_neg hexit, ← hsame]
          exact ih hpass hleast' (hsame ▸ hwithin) hfuel'

theorem mem_exitPaths {found : ExitPath Id} :
    found ∈ graph.exitPaths origin settled ↔ ∃ p ∈ settled,
      found = ⟨p, p.getLastD origin, p.length - 1⟩ ∧
        graph.isExit (p.getLastD origin) = true ∧ p.getLastD origin ≠ origin := by
  rw [exitPaths, mem_map]
  constructor
  · rintro ⟨p, hp, rfl⟩
    rw [mem_filter, Bool.and_eq_true, decide_eq_true_eq] at hp
    exact ⟨p, hp.1, rfl, hp.2⟩
  · rintro ⟨p, hp, rfl, hexit⟩
    exact ⟨p, mem_filter.mpr ⟨hp, by simpa using hexit⟩, rfl⟩

theorem Stopped.exits_nodup {maxPaths : Nat}
    (h : graph.Stopped excludeNodes origin maxPaths settled) :
    ((graph.exitPaths origin settled).map ExitPath.exitNode).Nodup := by
  have hmap : (graph.exitPaths origin settled).map (fun found => some found.exitNode) =
      (settled.filter fun p =>
        graph.isExit (p.getLastD origin) && p.getLastD origin ≠ origin).map List.getLast? := by
    rw [exitPaths, map_map]
    refine map_congr_left fun p hp => ?_
    obtain ⟨v, hroute⟩ := h.routes p (mem_of_mem_filter hp)
    simp only [Function.comp_apply, getLastD_eq_getLast?, hroute.last, Option.getD_some]
  have hnodup : ((graph.exitPaths origin settled).map fun found => some found.exitNode).Nodup := by
    rw [hmap]
    exact h.ends.sublist (filter_sublist.map List.getLast?)
  rw [show (fun found : ExitPath Id => some found.exitNode) = some ∘ ExitPath.exitNode from rfl,
    ← map_map] at hnodup
  exact hnodup.of_map some

end Search

/-- A path to a node that satisfies the goal, with no fewer hops to any other such node. -/
structure FewestHops {Id : Type} [DecidableEq Id] (graph : NetworkGraph Id) (excludeNodes : List Id)
    (origin : Id) (goal : Id → Prop) (target : Id) (path : List Id) : Prop where
  reaches : goal target
  along : graph.IsPath excludeNodes origin target path
  least : ∀ other otherPath, goal other → graph.IsPath excludeNodes origin other otherPath →
    path.length ≤ otherPath.length

section Results

variable {Id : Type} [DecidableEq Id] {graph : NetworkGraph Id} {excludeNodes : List Id}
  {origin : Id}

theorem bfs_nearest {β : Type} (goal : Id → Bool) (hit : Id → List Id → β)
    {isGoal : Id → List Id → Option β} (horigin : graph.hasNode origin = true)
    (hform : ∀ v p, isGoal v p = if goal v then some (hit v p) else none) {fuel : Nat}
    (hfuel : graph.openDegree [] + 1 < fuel) :
    (graph.bfs fuel origin isGoal excludeNodes = none ↔
      ∀ target path, goal target = true → ¬ graph.IsPath excludeNodes origin target path) ∧
    ∀ found, graph.bfs fuel origin isGoal excludeNodes = some found → ∃ target path,
      found = hit target path ∧
        graph.FewestHops excludeNodes origin (fun node => goal node = true) target path := by
  obtain ⟨hnone, hsome⟩ := bfsLoop_first hform (graph.start_searched excludeNodes origin)
    (fun _ hp => by cases hp) (by simpa using hfuel)
  rw [bfs, if_pos horigin]
  have hnearest : ∀ found, graph.bfsLoop origin isGoal excludeNodes fuel
      (HopSearch.start origin) = some found → ∃ target path, found = hit target path ∧
        graph.FewestHops excludeNodes origin (fun node => goal node = true) target path := by
    intro found hfound
    obtain ⟨target, path, heq, hgoal, hroute, hleast⟩ := hsome found hfound
    exact ⟨target, path, heq, hgoal, isPath_iff.mpr hroute,
      fun other otherPath hother hpath => hleast other otherPath hother (isPath_iff.mp hpath)⟩
  refine ⟨⟨fun h target path hgoal hpath => ?_, fun h => ?_⟩, hnearest⟩
  · rw [hnone h target path (isPath_iff.mp hpath)] at hgoal
    cases hgoal
  · cases hfound : graph.bfsLoop origin isGoal excludeNodes fuel (HopSearch.start origin) with
    | none => rfl
    | some found =>
      obtain ⟨target, path, -, hbest⟩ := hnearest found hfound
      exact absurd hbest.along (h target path hbest.reaches)

/-- Every search finds paths with the fewest hops, and finds one where there is one; the search for
several exits returns the nearest ones, each once, and leaves out others only where it has as many
as it was asked for. -/
theorem hop_paths_optimal (horigin : graph.hasNode origin = true) (excludeNodes : List Id)
    {fuel : Nat} (hfuel : graph.openDegree [] + 1 < fuel) :
    (∀ target, graph.hasNode target = true →
      (graph.findShortestPath fuel origin target excludeNodes = none ↔
        ∀ path, ¬ graph.IsPath excludeNodes origin target path) ∧
      ∀ path, graph.findShortestPath fuel origin target excludeNodes = some path →
        graph.IsPath excludeNodes origin target path ∧
        ∀ other, graph.IsPath excludeNodes origin target other → path.length ≤ other.length) ∧
    (graph.findPathToNearestExit fuel origin excludeNodes = none ↔
      ∀ exit path, graph.isExit exit = true ∧ exit ≠ origin →
        ¬ graph.IsPath excludeNodes origin exit path) ∧
    (∀ path exit, graph.findPathToNearestExit fuel origin excludeNodes = some (path, exit) →
      graph.FewestHops excludeNodes origin (fun node => graph.isExit node = true ∧ node ≠ origin)
        exit path) ∧
    ∀ maxPaths paths, graph.findAllPathsToExits fuel origin maxPaths excludeNodes = paths →
      paths.length ≤ maxPaths ∧ (paths.map ExitPath.exitNode).Nodup ∧
      (paths.Pairwise fun a b => a.hops ≤ b.hops) ∧
      (∀ found ∈ paths, graph.isExit found.exitNode = true ∧ found.exitNode ≠ origin ∧
        graph.IsPath excludeNodes origin found.exitNode found.path ∧
        found.hops + 1 = found.path.length ∧
        ∀ other, graph.IsPath excludeNodes origin found.exitNode other →
          found.path.length ≤ other.length) ∧
      ∀ exit other, graph.isExit exit = true → exit ≠ origin →
        graph.IsPath excludeNodes origin exit other → exit ∉ paths.map ExitPath.exitNode →
          paths.length = maxPaths ∧ ∀ found ∈ paths, found.path.length ≤ other.length := by
  refine ⟨fun target htarget => ?_, ?_, ?_, ?_⟩
  · unfold findShortestPath
    rw [htarget]
    simp only [Bool.not_true, Bool.false_eq_true, if_false]
    split
    case isTrue hsame =>
      subst hsame
      have hhere : graph.IsPath excludeNodes origin origin [origin] :=
        isPath_iff.mpr (.singleton _ origin)
      refine ⟨⟨(fun h => by cases h), fun h => absurd hhere (h _)⟩, fun path hpath => ?_⟩
      obtain rfl := Option.some.inj hpath
      exact ⟨hhere, fun other hother => (isPath_iff.mp hother).length_pos⟩
    case isFalse =>
      have hform : ∀ v (p : List Id), (if v = target then some p else none) =
          if decide (v = target) then some p else none := fun v p => by simp
      obtain ⟨hnone, hsome⟩ := bfs_nearest (fun cur => decide (cur = target))
        (fun _ path => path) horigin hform hfuel
      constructor
      · rw [hnone]
        constructor
        · exact fun h path => h target path (decide_eq_true rfl)
        · exact fun h node path hnode => of_decide_eq_true hnode ▸ h path
      · intro path hpath
        obtain ⟨node, found, rfl, hnearest⟩ := hsome path hpath
        obtain rfl : node = target := of_decide_eq_true hnearest.reaches
        exact ⟨hnearest.along, fun other hother =>
          hnearest.least node other (decide_eq_true rfl) hother⟩
  · obtain ⟨hnone, -⟩ := bfs_nearest (fun cur => graph.isExit cur && cur ≠ origin)
      (fun cur path => (path, cur)) horigin (fun v p => rfl) hfuel
    rw [findPathToNearestExit, hnone]
    simp
  · intro path exit hfound
    obtain ⟨-, hsome⟩ := bfs_nearest (fun cur => graph.isExit cur && cur ≠ origin)
      (fun cur path => (path, cur)) horigin (fun v p => rfl) hfuel
    obtain ⟨target, found, heq, hnearest⟩ := hsome _ hfound
    obtain ⟨rfl, rfl⟩ := Prod.mk.inj heq
    simpa using hnearest
  · rintro maxPaths paths rfl
    obtain ⟨final, hloop, hstopped⟩ := exitsLoop_stopped maxPaths
      (graph.start_searched excludeNodes origin) ⟨(fun _ hp => by cases hp), .nil⟩
      (Nat.zero_le _) (by simpa using hfuel)
    rw [findAllPathsToExits, if_pos horigin]
    rw [show graph.exitPaths origin [] = [] from rfl] at hloop
    rw [hloop]
    have hperm := List.perm_insertionSort (fun a b : ExitPath Id => a.hops ≤ b.hops)
      (graph.exitPaths origin final)
    refine ⟨hperm.length_eq ▸ hstopped.within, ?_, List.pairwise_insertionSort _ _, ?_, ?_⟩
    · exact (hperm.map ExitPath.exitNode).nodup_iff.mpr hstopped.exits_nodup
    · intro found hfound
      obtain ⟨p, hp, rfl, hexit, hne⟩ := mem_exitPaths.mp (hperm.mem_iff.mp hfound)
      obtain ⟨v, hroute⟩ := hstopped.routes p hp
      have hend : p.getLastD origin = v := by
        rw [List.getLastD_eq_getLast?, hroute.last]
        rfl
      have hpos := hroute.length_pos
      refine ⟨hexit, hne, hend ▸ isPath_iff.mpr hroute, Nat.sub_add_cancel hpos, ?_⟩
      intro other hother
      exact hstopped.least.least p hp v other hroute.last (isPath_iff.mp (hend ▸ hother))
    · intro exit other hexit hne hother hout
      have hnew : ∀ p ∈ final, p.getLast? ≠ some exit := by
        intro p hp hlast
        have hend : p.getLastD origin = exit := by
          rw [List.getLastD_eq_getLast?, hlast]
          rfl
        refine hout (List.mem_map.mpr ⟨⟨p, p.getLastD origin, p.length - 1⟩, ?_, hend⟩)
        exact hperm.mem_iff.mpr (mem_exitPaths.mpr ⟨p, hp, rfl, hend ▸ hexit, hend ▸ hne⟩)
      obtain ⟨hfull, hfar⟩ := hstopped.rest exit other (isPath_iff.mp hother) hnew
      refine ⟨hperm.length_eq.trans hfull, fun found hfound => ?_⟩
      obtain ⟨p, hp, rfl, -⟩ := mem_exitPaths.mp (hperm.mem_iff.mp hfound)
      exact hfar p hp

end Results

/-- The slow side of the triangle has fewer hops than the way round. -/
theorem triangle_hops :
    triangle.findShortestPath 8 0 2 [] = some [0, 2] ∧
      ∀ other, triangle.IsPath [] 0 2 other → [0, 2].length ≤ other.length := by
  have hpath : triangle.findShortestPath 8 0 2 [] = some [0, 2] := by decide +kernel
  have hnode : triangle.hasNode 0 = true := by decide +kernel
  have hfuel : triangle.openDegree [] + 1 < 8 := by decide +kernel
  have hbest := (hop_paths_optimal hnode [] hfuel).1 2 (by decide +kernel)
  exact ⟨hpath, (hbest.2 _ hpath).2⟩

end NetworkGraph

end Meshpn.Routing
