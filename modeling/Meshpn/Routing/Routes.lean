import Mathlib.Data.List.Chain
import Meshpn.Routing.Router

/-!
The routes that lookups return. A rebuild sets or deletes the route of every node
that is an exit, and the route to the nearest one; a route of a node that is no
exit any more stays as it was. So a kept route can be relied on when its key is
the one of a current exit, in every state of the router, and a lookup that names
no exit or a current one returns a route of the graph to an exit. A lookup that
names a node which has stopped being an exit may get a route along edges that are
gone.
-/

namespace Meshpn.Routing

open Meshpn.Lib

variable {Id : Type} [DecidableEq Id]

/-- A route along current edges from the local node, without repetition, to a node that
is an exit. -/
structure ValidRoute (graph : NetworkGraph Id) (localNodeId : Id) (active : ActiveRoute Id) :
    Prop where
  path : graph.IsRoute localNodeId (localNodeId :: active.route)
  last : active.route.getLast? = some active.exitNode
  exit : graph.isExit active.exitNode = true

def Attended (graph : NetworkGraph Id) : RouteKey Id → Prop
  | .any => True
  | .exit nodeId => graph.isExit nodeId = true

def Fresh (config : RouterConfig Id) (router : MeshRouter Id) : Prop :=
  ∀ key active, router.activeRoutes.get key = some active → active.unavailable = false →
    Attended router.graph key → ValidRoute router.graph config.localNodeId active

theorem validRoute_of_path {graph : NetworkGraph Id} {origin exitNode : Id} {path : List Id}
    (hroute : graph.IsRoute origin path) (hlast : path.getLast? = some exitNode)
    (hlength : path.length > 1) (hexit : graph.isExit exitNode = true) (latency : Option ℚ) :
    ValidRoute graph origin ⟨path.tail, exitNode, latency, false⟩ := by
  rcases path with _ | ⟨first, rest⟩
  · cases hlast
  obtain rfl : first = origin := Option.some.inj hroute.head
  cases rest with
  | nil => simp at hlength
  | cons second rest => exact ⟨hroute, by simpa using hlast, hexit⟩

theorem ValidRoute.transfer {first second : NetworkGraph Id} {localNodeId : Id}
    {active : ActiveRoute Id} (hvalid : ValidRoute first localNodeId active)
    (hedges : ∀ a b, b ∈ active.route → first.hasEdge a b = true → second.hasEdge a b = true)
    (hexit : second.isExit active.exitNode = first.isExit active.exitNode) :
    ValidRoute second localNodeId active := by
  refine ⟨⟨rfl, ?_, hvalid.path.nodup⟩, hvalid.last, hexit.trans hvalid.exit⟩
  refine hvalid.path.edges.imp_of_mem_tail_imp ?_
  intro a b _ hb
  exact hedges a b hb

theorem get_keepRoute (routes : Table (RouteKey Id) (ActiveRoute Id)) (key other : RouteKey Id)
    (route : Option (ActiveRoute Id)) : (keepRoute routes key route).get other =
      if key = other then route else routes.get other := by
  cases route with
  | none => exact Table.get_delete _ _ _
  | some route => exact Table.get_set _ _ _ _

theorem get_rebuilt (routeOf : Id → Option (ActiveRoute Id)) (exits : List Id)
    (routes : Table (RouteKey Id) (ActiveRoute Id)) (key : RouteKey Id) :
    (exits.foldl (fun routes exitNode => keepRoute routes (.exit exitNode) (routeOf exitNode))
      routes).get key = routes.get key ∧ (∀ exitNode ∈ exits, key ≠ .exit exitNode) ∨
    ∃ exitNode ∈ exits, key = .exit exitNode ∧
      (exits.foldl (fun routes exitNode => keepRoute routes (.exit exitNode) (routeOf exitNode))
        routes).get key = routeOf exitNode := by
  induction exits generalizing routes with
  | nil => exact .inl ⟨rfl, by simp⟩
  | cons first rest ih =>
    rcases ih (keepRoute routes (.exit first) (routeOf first)) with ⟨hget, hnone⟩ | hsome
    · rw [get_keepRoute] at hget
      by_cases hfirst : RouteKey.exit first = key
      · rw [if_pos hfirst] at hget
        exact .inr ⟨first, List.mem_cons_self, hfirst.symm, hget⟩
      rw [if_neg hfirst] at hget
      refine .inl ⟨hget, ?_⟩
      intro exitNode hexit
      rcases List.mem_cons.mp hexit with rfl | hin
      · exact Ne.symm hfirst
      · exact hnone exitNode hin
    · obtain ⟨exitNode, hin, hkey, hget⟩ := hsome
      exact .inr ⟨exitNode, List.mem_cons_of_mem _ hin, hkey, hget⟩

theorem isExit_of_nodes {first second : NetworkGraph Id} (h : second.nodes = first.nodes)
    (nodeId : Id) : second.isExit nodeId = first.isExit nodeId := by
  rw [NetworkGraph.isExit, NetworkGraph.isExit, h]

theorem keep_fresh {config : RouterConfig Id} {router : MeshRouter Id}
    (hfresh : Fresh config router) {key : RouteKey Id} {route : ActiveRoute Id}
    (hroute : Attended router.graph key → ValidRoute router.graph config.localNodeId route) :
    Fresh config (router.keep key route) := by
  intro other active hactive havailable hattended
  change (router.activeRoutes.set key route).get other = some active at hactive
  rw [Table.get_set] at hactive
  split at hactive
  case isTrue heq =>
    obtain rfl := Option.some.inj hactive
    subst heq
    exact hroute hattended
  case isFalse => exact hfresh other active hactive havailable hattended

theorem usable_valid {config : RouterConfig Id} {router : MeshRouter Id}
    (hfresh : Fresh config router) {key : RouteKey Id} {active : ActiveRoute Id}
    (hattended : Attended router.graph key) (h : router.usable config key = some active) :
    ValidRoute router.graph config.localNodeId active := by
  obtain ⟨hactive, hcheck⟩ := Option.filter_eq_some_iff.mp h
  simp only [Bool.and_eq_true, Bool.not_eq_true'] at hcheck
  exact hfresh key active hactive hcheck.1 hattended

section Searches

variable [LT Id] [DecidableLT Id] {fuel : Nat} {config : RouterConfig Id}
  {router : MeshRouter Id}

variable {active : ActiveRoute Id}

theorem bestRoute_valid {excluded : List Id}
    (h : router.bestRoute fuel config excluded = some active) :
    ValidRoute router.graph config.localNodeId active := by
  obtain ⟨found, hfound, hactive⟩ := Option.bind_eq_some_iff.mp h
  split at hactive
  case isTrue hlength =>
    obtain rfl := Option.some.inj hactive
    obtain ⟨hroute, hlast, hexit⟩ := NetworkGraph.findPathToNearestExitWeighted_isRoute hfound
    exact validRoute_of_path hroute hlast hlength hexit _
  case isFalse => cases hactive

theorem routeTo_valid {excluded : List Id} {exitNode : Id}
    (hexit : router.graph.isExit exitNode = true)
    (h : router.routeTo fuel config excluded exitNode = some active) :
    ValidRoute router.graph config.localNodeId active := by
  obtain ⟨path, hpath, hactive⟩ := Option.bind_eq_some_iff.mp h
  split at hactive
  case isTrue hlength =>
    obtain rfl := Option.some.inj hactive
    obtain ⟨hroute, hlast⟩ := NetworkGraph.findShortestPathWeighted_isRoute hpath
    exact validRoute_of_path hroute hlast hlength hexit _
  case isFalse => cases hactive

theorem rebuild_fresh (fuel : Nat) (config : RouterConfig Id) (router : MeshRouter Id) :
    Fresh config (router.rebuildActiveRoutes fuel config) := by
  intro key active hactive _ hattended
  change Attended router.graph key at hattended
  change ValidRoute router.graph config.localNodeId active
  rcases get_rebuilt (router.routeTo fuel config (router.getTurnRelayIds config))
      router.graph.getExitNodes (keepRoute router.activeRoutes .any
        (router.bestRoute fuel config (router.getTurnRelayIds config))) key with
    ⟨hget, hnone⟩ | ⟨exitNode, hin, hkey, hget⟩
  · have hany : key = .any := by
      cases key with
      | any => rfl
      | exit nodeId =>
        exact absurd rfl (hnone nodeId ((router.graph.isExit_iff nodeId).mp hattended))
    rw [get_keepRoute, if_pos hany.symm] at hget
    exact bestRoute_valid (hget.symm.trans hactive)
  · exact routeTo_valid ((router.graph.isExit_iff exitNode).mpr hin) (hget.symm.trans hactive)

theorem removeLocalConnection_fresh (hfresh : Fresh config router) (peerId : Id) :
    Fresh config (router.removeLocalConnection fuel config peerId) := by
  unfold MeshRouter.removeLocalConnection MeshRouter.handlePeerDisconnectedRoutes
  split
  case isTrue => exact rebuild_fresh fuel config _
  rename_i hnone
  intro key active hactive havailable hattended
  have hnodes : (router.graph.removeEdge config.localNodeId peerId).nodes = router.graph.nodes :=
    router.graph.removeEdge_nodes _ _
  have hbefore : ValidRoute router.graph config.localNodeId active := by
    refine hfresh key active hactive havailable ?_
    cases key with
    | any => trivial
    | exit nodeId => exact (isExit_of_nodes hnodes nodeId).symm.trans hattended
  have hpeer : peerId ∉ active.route := by
    intro hin
    refine hnone (List.any_eq_true.mpr ⟨(key, active), Table.mem_of_get hactive, ?_⟩)
    simpa using hin
  refine hbefore.transfer ?_ (isExit_of_nodes hnodes _)
  intro a b hb hedge
  refine (router.graph.removeEdge_hasEdge _ _ a b).mpr ⟨hedge, ?_, ?_⟩
  · rintro ⟨-, rfl⟩
    exact hpeer hb
  · rintro ⟨-, rfl⟩
    exact (List.nodup_cons.mp hbefore.path.nodup).1 hb

theorem updateEdgeMetrics_fresh (hfresh : Fresh config router) (peerId : Id) (metrics : Metrics) :
    Fresh config (router.updateEdgeMetrics config peerId metrics) := by
  intro key active hactive havailable hattended
  have hbefore : ValidRoute router.graph config.localNodeId active := by
    refine hfresh key active hactive havailable ?_
    cases key with
    | any => trivial
    | exit nodeId => exact hattended
  exact hbefore.transfer (fun _ _ _ h => h) rfl

theorem freshAny_valid (h : router.freshAny fuel config = some active) :
    ValidRoute router.graph config.localNodeId active :=
  bestRoute_valid (Option.filter_eq_some_iff.mp h).1

theorem freshTo_valid {nodeId : Id}
    (h : router.freshTo fuel config nodeId = some active)
    (hexit : router.graph.isExit nodeId = true) :
    ValidRoute router.graph config.localNodeId active :=
  routeTo_valid hexit (Option.filter_eq_some_iff.mp h).1

theorem findAny_fresh (hfresh : Fresh config router) :
    Fresh config (router.findAny fuel config).2 := by
  unfold MeshRouter.findAny
  split
  case h_1 found hfound => exact keep_fresh hfresh fun _ => freshAny_valid hfound
  case h_2 => exact hfresh

theorem findRouteToExit_fresh (hfresh : Fresh config router) (preferredExitNode : Option Id) :
    Fresh config (router.findRouteToExit fuel config preferredExitNode).2 := by
  unfold MeshRouter.findRouteToExit
  dsimp only
  split
  · exact hfresh
  split
  · exact findAny_fresh hfresh
  · split
    case h_1 nodeId _ found hfound => exact keep_fresh hfresh (freshTo_valid hfound)
    case h_2 => exact findAny_fresh hfresh

theorem findAny_valid
    (h : (router.findAny fuel config).1 = some active) :
    ValidRoute router.graph config.localNodeId active := by
  unfold MeshRouter.findAny at h
  split at h
  case h_1 found hfound =>
    obtain rfl := Option.some.inj h
    exact freshAny_valid hfound
  case h_2 => cases h

theorem findRouteToExit_valid (hfresh : Fresh config router) {preferredExitNode : Option Id}
    (hpreferred : ∀ nodeId, MeshRouter.wanted config preferredExitNode = some nodeId →
      router.graph.isExit nodeId = true)
    (h : (router.findRouteToExit fuel config preferredExitNode).1 = some active) :
    ValidRoute router.graph config.localNodeId active := by
  unfold MeshRouter.findRouteToExit at h
  dsimp only at h
  generalize MeshRouter.wanted config preferredExitNode = preferred at h hpreferred
  have hattended : Attended router.graph (MeshRouter.keyOf preferred) := by
    cases preferred with
    | none => trivial
    | some nodeId => exact hpreferred nodeId rfl
  split at h
  case h_1 kept hkept =>
    obtain rfl := Option.some.inj h
    exact usable_valid hfresh hattended hkept
  split at h
  · exact findAny_valid h
  rename_i nodeId _
  split at h
  case h_1 found hfound =>
    obtain rfl := Option.some.inj h
    exact freshTo_valid hfound (hpreferred nodeId rfl)
  case h_2 => exact findAny_valid h

theorem step_fresh (hfresh : Fresh config router) (event : RouterEvent Id) :
    Fresh config (router.step fuel config event) := by
  cases event with
  | connect peerId peerInfo => exact rebuild_fresh fuel config _
  | disconnect peerId => exact removeLocalConnection_fresh hfresh peerId
  | metrics peerId metrics => exact updateEdgeMetrics_fresh hfresh peerId metrics
  | topology topology => exact rebuild_fresh fuel config _
  | tick => exact rebuild_fresh fuel config _
  | find preferredExitNode => exact findRouteToExit_fresh hfresh preferredExitNode

theorem run_fresh (hfresh : Fresh config router) (events : List (RouterEvent Id)) :
    Fresh config (router.run fuel config events) := by
  induction events generalizing router with
  | nil => exact hfresh
  | cons event rest ih => exact ih (step_fresh hfresh event)

end Searches

theorem init_fresh (config : RouterConfig Id) : Fresh config (MeshRouter.init : MeshRouter Id) := by
  intro key active h
  cases h

/-- After any run, a lookup that names no exit or one that is marked as an exit at that
moment returns only routes along current edges, from the local node, without a
repeated node, to a node that is marked as an exit. -/
theorem routes_to_exits_valid [LT Id] [DecidableLT Id] (fuel : Nat) (config : RouterConfig Id)
    (events : List (RouterEvent Id)) (router : MeshRouter Id)
    (hrouter : router = MeshRouter.init.run fuel config events) (preferredExitNode : Option Id)
    (hpreferred : ∀ nodeId, MeshRouter.wanted config preferredExitNode = some nodeId →
      router.graph.isExit nodeId = true)
    (active : ActiveRoute Id)
    (hfound : (router.findRouteToExit fuel config preferredExitNode).1 = some active) :
    (config.localNodeId :: active.route).IsChain (fun a b => router.graph.hasEdge a b = true) ∧
      (config.localNodeId :: active.route).Nodup ∧
      active.route.getLast? = some active.exitNode ∧
      router.graph.isExit active.exitNode = true := by
  have hfresh : Fresh config router := by
    rw [hrouter]
    exact run_fresh (init_fresh config) events
  have hvalid := findRouteToExit_valid hfresh hpreferred hfound
  exact ⟨hvalid.path.edges, hvalid.path.nodup, hvalid.last, hvalid.exit⟩

def exitSnapshot : Topology Nat :=
  ⟨[(1, ⟨some .client, none, [2]⟩), (2, ⟨some .exit, none, [1]⟩)], by decide⟩

def emptySnapshot : Topology Nat := ⟨[(1, ⟨some .client, none, []⟩)], by decide⟩

/-- The exit is found while it is one. -/
theorem current_exit_found :
    (((MeshRouter.init.run 9 sampleRouter [.topology exitSnapshot]).findRouteToExit 9 sampleRouter
        (some 2)).1 = some ⟨[2], 2, none, false⟩) ∧
      (MeshRouter.init.run 9 sampleRouter [.topology exitSnapshot]).graph.isExit 2 = true := by
  have hfound : ((MeshRouter.init.run 9 sampleRouter [.topology exitSnapshot]).findRouteToExit 9
      sampleRouter (some 2)).1 = some ⟨[2], 2, none, false⟩ := by decide
  refine ⟨hfound, (routes_to_exits_valid 9 sampleRouter [.topology exitSnapshot] _ rfl (some 2) ?_ _
    hfound).2.2.2⟩
  intro nodeId h
  obtain rfl : 2 = nodeId := Option.some.inj h
  decide

/-- Once a snapshot has dropped it, the route to it is still returned: along an edge that
is gone, to a node that is no exit. -/
theorem dropped_exit_still_found :
    ((MeshRouter.init.run 9 sampleRouter [.topology exitSnapshot,
        .topology emptySnapshot]).findRouteToExit 9 sampleRouter (some 2)).1 =
        some ⟨[2], 2, none, false⟩ ∧
      (MeshRouter.init.run 9 sampleRouter [.topology exitSnapshot,
        .topology emptySnapshot]).graph.hasEdge 1 2 = false ∧
      (MeshRouter.init.run 9 sampleRouter [.topology exitSnapshot,
        .topology emptySnapshot]).graph.isExit 2 = false := by
  decide

end Meshpn.Routing
