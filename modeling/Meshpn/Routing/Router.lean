import Meshpn.Routing.ShortestPath

/-!
The router of a node. It keeps one route to the nearest exit and one to each exit,
computed from the graph when a connection or a snapshot comes in and on a timer,
and answers from them as long as they are not marked; a lookup that finds none
searches the graph itself. The losing of a connection marks the routes through the
peer and recomputes the routes only if there are any.
-/

namespace Meshpn.Routing

open Meshpn.Lib

structure RouterConfig (Id : Type) where
  localNodeId : Id
  /-- The ids that JavaScript takes for false: the empty string. -/
  blank : Id → Bool

/-- The keys `exit:any` and `exit:<nodeId>`. -/
inductive RouteKey (Id : Type) where
  | any
  | exit (nodeId : Id)
  deriving DecidableEq, Repr

structure ActiveRoute (Id : Type) where
  route : List Id
  exitNode : Id
  latency : Option ℚ
  unavailable : Bool
  deriving DecidableEq, Repr

structure MeshRouter (Id : Type) where
  graph : NetworkGraph Id
  activeRoutes : Table (RouteKey Id) (ActiveRoute Id)

/-- The reasons of `validateRoute`. -/
inductive RouteFault (Id : Type) where
  /-- `Empty route`. -/
  | empty
  /-- `Invalid node at position …`. -/
  | invalidNode (position : Nat)
  /-- `Cycle detected: node … appears twice in route`. -/
  | cycle (nodeId : Id)
  /-- `Route loops back to local node at position …`. -/
  | loopsBack (position : Nat)
  deriving DecidableEq, Repr

inductive RouterEvent (Id : Type) where
  | connect (peerId : Id) (peerInfo : InfoPatch)
  | disconnect (peerId : Id)
  | metrics (peerId : Id) (metrics : Metrics)
  | topology (topology : Topology Id)
  | tick
  | find (preferredExitNode : Option Id)

section Router

variable {Id : Type} [DecidableEq Id] [LT Id] [DecidableLT Id]

namespace RouterConfig

/-- The loop of `validateRoute`. -/
def validateFrom (config : RouterConfig Id) : Nat → List Id → List Id → Option (RouteFault Id)
  | _, _, [] => none
  | i, seen, nodeId :: rest =>
    if config.blank nodeId then some (.invalidNode i)
    else if nodeId ∈ seen then some (.cycle nodeId)
    else if nodeId = config.localNodeId ∧ i ≠ 0 then some (.loopsBack i)
    else config.validateFrom (i + 1) (nodeId :: seen) rest

def validateRoute (config : RouterConfig Id) (route : List Id) : Option (RouteFault Id) :=
  if route = [] then some .empty else config.validateFrom 0 [] route

def isRouteValid (config : RouterConfig Id) (route : List Id) : Bool :=
  (config.validateRoute route).isNone

end RouterConfig

/-- A route is kept under its key when there is one, else the key is deleted. -/
def keepRoute (routes : Table (RouteKey Id) (ActiveRoute Id)) (key : RouteKey Id) :
    Option (ActiveRoute Id) → Table (RouteKey Id) (ActiveRoute Id)
  | some route => routes.set key route
  | none => routes.delete key

namespace MeshRouter

variable (fuel : Nat) (config : RouterConfig Id)

def init : MeshRouter Id := ⟨.init, .empty⟩

/-- The relays that are connected through TURN. -/
def getTurnRelayIds (router : MeshRouter Id) : List Id :=
  (router.graph.getNeighbors config.localNodeId).filter fun neighbor =>
    (router.graph.nodes.get neighbor).any (fun node => node.role = some .relay) &&
      (router.graph.getEdgeMetrics config.localNodeId neighbor).any
        (fun metrics => metrics.isTurnRelay = some true)

/-- The route to the nearest exit. -/
def bestRoute (router : MeshRouter Id) (excluded : List Id) : Option (ActiveRoute Id) :=
  (router.graph.findPathToNearestExitWeighted fuel config.localNodeId excluded).bind fun best =>
    if best.path.length > 1 then some ⟨best.path.tail, best.exitNode, some best.latency, false⟩
    else none

/-- The route to one exit. -/
def routeTo (router : MeshRouter Id) (excluded : List Id) (exitNode : Id) :
    Option (ActiveRoute Id) :=
  (router.graph.findShortestPathWeighted fuel config.localNodeId exitNode excluded).bind
    fun path => if path.length > 1 then some ⟨path.tail, exitNode, none, false⟩ else none

def rebuildActiveRoutes (router : MeshRouter Id) : MeshRouter Id :=
  let excluded := router.getTurnRelayIds config
  { router with
    activeRoutes := router.graph.getExitNodes.foldl
      (fun routes exitNode =>
        keepRoute routes (.exit exitNode) (router.routeTo fuel config excluded exitNode))
      (keepRoute router.activeRoutes .any (router.bestRoute fuel config excluded)) }

/-- The mark on the routes through a peer. -/
def markRoutes (router : MeshRouter Id) (peerId : Id) : MeshRouter Id :=
  { router with
    activeRoutes := router.activeRoutes.mapValues fun info =>
      if peerId ∈ info.route then { info with unavailable := true } else info }

def handlePeerDisconnectedRoutes (router : MeshRouter Id) (peerId : Id) : MeshRouter Id :=
  if router.activeRoutes.entries.any fun entry => peerId ∈ entry.2.route then
    (router.markRoutes peerId).rebuildActiveRoutes fuel config
  else router

def onGraph (router : MeshRouter Id) (graph : NetworkGraph Id) : MeshRouter Id :=
  { router with graph := graph }

def updateTopology (router : MeshRouter Id) (topology : Topology Id) : MeshRouter Id :=
  (router.onGraph (router.graph.updateFromTopology topology)).rebuildActiveRoutes fuel config

def addLocalConnection (router : MeshRouter Id) (peerId : Id) (peerInfo : InfoPatch) :
    MeshRouter Id :=
  (router.onGraph ((router.graph.addNode peerId peerInfo).addEdge config.localNodeId
    peerId)).rebuildActiveRoutes fuel config

def removeLocalConnection (router : MeshRouter Id) (peerId : Id) : MeshRouter Id :=
  (router.onGraph (router.graph.removeEdge config.localNodeId peerId)).handlePeerDisconnectedRoutes
    fuel config peerId

def updateEdgeMetrics (router : MeshRouter Id) (peerId : Id) (metrics : Metrics) : MeshRouter Id :=
  router.onGraph (router.graph.updateEdgeMetrics config.localNodeId peerId metrics)

/-- `preferredExitNode`, unless it is a false value. -/
def wanted (preferredExitNode : Option Id) : Option Id :=
  preferredExitNode.filter fun nodeId => !config.blank nodeId

def keyOf : Option Id → RouteKey Id
  | none => .any
  | some nodeId => .exit nodeId

/-- The route kept under the key of a lookup, if it can be used. -/
def usable (router : MeshRouter Id) (key : RouteKey Id) : Option (ActiveRoute Id) :=
  (router.activeRoutes.get key).filter fun active =>
    !active.unavailable && config.isRouteValid active.route

/-- A fresh route to the preferred exit. -/
def freshTo (router : MeshRouter Id) (nodeId : Id) : Option (ActiveRoute Id) :=
  (router.routeTo fuel config [] nodeId).filter fun found => config.isRouteValid found.route

/-- A fresh route to the nearest exit. -/
def freshAny (router : MeshRouter Id) : Option (ActiveRoute Id) :=
  (router.bestRoute fuel config []).filter fun found => config.isRouteValid found.route

def keep (router : MeshRouter Id) (key : RouteKey Id) (route : ActiveRoute Id) : MeshRouter Id :=
  { router with activeRoutes := router.activeRoutes.set key route }

/-- The lookup past the preferred exit. -/
def findAny (router : MeshRouter Id) : Option (ActiveRoute Id) × MeshRouter Id :=
  match router.freshAny fuel config with
  | some found => (some found, router.keep .any found)
  | none => (none, router)

/-- `findRouteToExit`, with the router it leaves. -/
def findRouteToExit (router : MeshRouter Id) (preferredExitNode : Option Id) :
    Option (ActiveRoute Id) × MeshRouter Id :=
  let preferred := wanted config preferredExitNode
  match router.usable config (keyOf preferred) with
  | some active => (some active, router)
  | none =>
    match preferred with
    | none => router.findAny fuel config
    | some nodeId =>
      match router.freshTo fuel config nodeId with
      | some found => (some found, router.keep (.exit nodeId) found)
      | none => router.findAny fuel config

def step (router : MeshRouter Id) : RouterEvent Id → MeshRouter Id
  | .connect peerId peerInfo => router.addLocalConnection fuel config peerId peerInfo
  | .disconnect peerId => router.removeLocalConnection fuel config peerId
  | .metrics peerId metrics => router.updateEdgeMetrics config peerId metrics
  | .topology topology => router.updateTopology fuel config topology
  | .tick => router.rebuildActiveRoutes fuel config
  | .find preferredExitNode => (router.findRouteToExit fuel config preferredExitNode).2

def run (router : MeshRouter Id) (events : List (RouterEvent Id)) : MeshRouter Id :=
  events.foldl (step fuel config) router

end MeshRouter

end Router

/-- The router of node 1, for tests. -/
def sampleRouter : RouterConfig Nat := ⟨1, fun nodeId => nodeId == 0⟩

end Meshpn.Routing
