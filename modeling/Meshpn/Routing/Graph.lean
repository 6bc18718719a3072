import Mathlib.Algebra.Order.Ring.Rat
import Meshpn.Lib.Table

/-!
The network graph of a node: the nodes it knows of, the edges between them and the
metrics of edges. Nodes come in two ways, from the node's own connections and from
the snapshots of the topology that the signalling server sends; a mark on a node
says that it was in a snapshot. Node ids are hex digests. Timestamps, public keys
and the events the graph emits are left out.
-/

namespace Meshpn.Routing

open Meshpn.Lib

inductive Role where
  | client | relay | exit
  deriving DecidableEq, Repr

structure NodeInfo where
  role : Option Role
  virtualIp : Option String
  /-- `_fromTopology`. -/
  fromTopology : Bool
  deriving DecidableEq, Repr

/-- An object spread into a node's record; `none` where it lacks the property. -/
structure InfoPatch where
  role : Option (Option Role) := none
  virtualIp : Option (Option String) := none
  fromTopology : Option Bool := none
  deriving DecidableEq, Repr

structure Metrics where
  latency : Option ℚ := none
  isTurnRelay : Option Bool := none
  deriving DecidableEq, Repr

/-- A node of a snapshot. -/
structure TopologyNode (Id : Type) where
  role : Option Role
  virtualIp : Option String
  connectedTo : List Id

abbrev Topology (Id : Type) := Table Id (TopologyNode Id)

@[ext] structure NetworkGraph (Id : Type) where
  nodes : Table Id NodeInfo
  edges : Table Id (List Id)
  metrics : Table (Id × Id) Metrics

/-- The record of a node that is new: the defaults, and the properties there are. -/
def NodeInfo.fresh (info : InfoPatch) : NodeInfo where
  role := info.role.getD (some .client)
  virtualIp := info.virtualIp.getD none
  fromTopology := info.fromTopology.getD false

/-- `{ ...existing, ...info }`. -/
def NodeInfo.merge (existing : NodeInfo) (info : InfoPatch) : NodeInfo where
  role := info.role.getD existing.role
  virtualIp := info.virtualIp.getD existing.virtualIp
  fromTopology := info.fromTopology.getD existing.fromTopology

def Metrics.merge (existing metrics : Metrics) : Metrics where
  latency := metrics.latency <|> existing.latency
  isTurnRelay := metrics.isTurnRelay <|> existing.isTurnRelay

/-- What `updateFromTopology` notes of a node. -/
def TopologyNode.patch {Id : Type} (node : TopologyNode Id) : InfoPatch where
  role := some node.role
  virtualIp := some node.virtualIp
  fromTopology := some true

namespace NetworkGraph

section Operations

variable {Id : Type} [DecidableEq Id] [LT Id] [DecidableLT Id]

def init : NetworkGraph Id := ⟨.empty, .empty, .empty⟩

/-- `_edgeKey`; the source joins the two with a colon. -/
def edgeKey (nodeA nodeB : Id) : Id × Id := if nodeA < nodeB then (nodeA, nodeB) else (nodeB, nodeA)

/-- The neighbours of a node, in the order of its set. -/
def getNeighbors (graph : NetworkGraph Id) (nodeId : Id) : List Id :=
  (graph.edges.get nodeId).getD []

def hasNode (graph : NetworkGraph Id) (nodeId : Id) : Bool := graph.nodes.has nodeId

def hasEdge (graph : NetworkGraph Id) (nodeA nodeB : Id) : Bool := nodeB ∈ graph.getNeighbors nodeA

def getEdgeMetrics (graph : NetworkGraph Id) (nodeA nodeB : Id) : Option Metrics :=
  graph.metrics.get (edgeKey nodeA nodeB)

/-- The nodes with the role `exit`. -/
def getExitNodes (graph : NetworkGraph Id) : List Id :=
  (graph.nodes.entries.filter fun entry => entry.2.role = some .exit).map Prod.fst

def isExit (graph : NetworkGraph Id) (nodeId : Id) : Bool :=
  (graph.nodes.get nodeId).any fun info => info.role = some .exit

/-- A node that is new starts with an empty set of edges, whatever was there. -/
def addNode (graph : NetworkGraph Id) (nodeId : Id) (info : InfoPatch) : NetworkGraph Id :=
  match graph.nodes.get nodeId with
  | none =>
    { graph with
      nodes := graph.nodes.set nodeId (.fresh info)
      edges := graph.edges.set nodeId [] }
  | some existing => { graph with nodes := graph.nodes.set nodeId (existing.merge info) }

/-- `this.edges.set(nodeId, new Set())` unless there is one. -/
def addRow (graph : NetworkGraph Id) (nodeId : Id) : NetworkGraph Id :=
  if graph.edges.has nodeId then graph else { graph with edges := graph.edges.set nodeId [] }

/-- `this.edges.get(nodeA).add(nodeB)`. -/
def link (graph : NetworkGraph Id) (nodeA nodeB : Id) : NetworkGraph Id :=
  if nodeB ∈ graph.getNeighbors nodeA then graph
  else { graph with edges := graph.edges.set nodeA (graph.getNeighbors nodeA ++ [nodeB]) }

/-- `this.edges.get(nodeA).delete(nodeB)`, if there is a set. -/
def unlink (graph : NetworkGraph Id) (nodeA nodeB : Id) : NetworkGraph Id :=
  match graph.edges.get nodeA with
  | none => graph
  | some row => { graph with edges := graph.edges.set nodeA (row.filter fun id => id ≠ nodeB) }

def updateEdgeMetrics (graph : NetworkGraph Id) (nodeA nodeB : Id) (metrics : Metrics) :
    NetworkGraph Id :=
  { graph with
    metrics := graph.metrics.set (edgeKey nodeA nodeB)
      (((graph.getEdgeMetrics nodeA nodeB).getD {}).merge metrics) }

def addEdge (graph : NetworkGraph Id) (nodeA nodeB : Id) : NetworkGraph Id :=
  ((((graph.addRow nodeA).addRow nodeB).link nodeA nodeB).link nodeB nodeA).updateEdgeMetrics
    nodeA nodeB {}

def dropMetrics (graph : NetworkGraph Id) (nodeA nodeB : Id) : NetworkGraph Id :=
  { graph with metrics := graph.metrics.delete (edgeKey nodeA nodeB) }

def removeEdge (graph : NetworkGraph Id) (nodeA nodeB : Id) : NetworkGraph Id :=
  ((graph.unlink nodeA nodeB).unlink nodeB nodeA).dropMetrics nodeA nodeB

/-- The loop of `removeNode` over the neighbours. -/
def detach (graph : NetworkGraph Id) (nodeId : Id) (neighbors : List Id) : NetworkGraph Id :=
  neighbors.foldl (fun graph neighbor => (graph.unlink neighbor nodeId).dropMetrics nodeId neighbor)
    graph

/-- `this.nodes.delete(nodeId)` and `this.edges.delete(nodeId)`. -/
def dropNode (graph : NetworkGraph Id) (nodeId : Id) : NetworkGraph Id :=
  { graph with nodes := graph.nodes.delete nodeId, edges := graph.edges.delete nodeId }

def removeNode (graph : NetworkGraph Id) (nodeId : Id) : NetworkGraph Id :=
  if graph.hasNode nodeId then
    (graph.detach nodeId (graph.getNeighbors nodeId)).dropNode nodeId
  else graph

/-- The loop of `updateFromTopology` over what a node of the snapshot is connected to. -/
def connectListed (topology : Topology Id) (nodeId : Id) (graph : NetworkGraph Id)
    (connectedTo : List Id) : NetworkGraph Id :=
  connectedTo.foldl (fun graph connectedNodeId =>
    if graph.hasNode connectedNodeId || topology.has connectedNodeId then
      graph.addEdge nodeId connectedNodeId
    else graph) graph

/-- One node of the snapshot. -/
def mergeNode (topology : Topology Id) (graph : NetworkGraph Id)
    (entry : Id × TopologyNode Id) : NetworkGraph Id :=
  (graph.addNode entry.1 entry.2.patch).connectListed topology entry.1 entry.2.connectedTo

/-- The nodes of the snapshot are added or brought up to date. -/
def mergeNodes (graph : NetworkGraph Id) (topology : Topology Id) : NetworkGraph Id :=
  topology.entries.foldl (mergeNode topology) graph

/-- Nodes from earlier snapshots that are absent from this one. -/
def stale (graph : NetworkGraph Id) (topology : Topology Id) : List Id :=
  (graph.nodes.entries.filter fun entry => entry.2.fromTopology && !topology.has entry.1).map
    Prod.fst

def prune (graph : NetworkGraph Id) (topology : Topology Id) : NetworkGraph Id :=
  (graph.stale topology).foldl removeNode graph

def updateFromTopology (graph : NetworkGraph Id) (topology : Topology Id) : NetworkGraph Id :=
  (graph.mergeNodes topology).prune topology

/-- Whether a node is marked as one of a snapshot. -/
def marked (graph : NetworkGraph Id) (nodeId : Id) : Bool :=
  (graph.nodes.get nodeId).any NodeInfo.fromTopology

end Operations

section Specs

variable {Id : Type} [DecidableEq Id]
variable (graph : NetworkGraph Id) (nodeId other nodeA nodeB a b : Id)

theorem hasEdge_iff : graph.hasEdge a b = true ↔ b ∈ graph.getNeighbors a := by
  simp [hasEdge]

theorem addNode_hasNode (info : InfoPatch) : (graph.addNode nodeId info).hasNode other = true ↔
    other = nodeId ∨ graph.hasNode other = true := by
  unfold addNode hasNode
  split
  · rw [Table.has_set, Bool.or_eq_true, decide_eq_true_eq]
    exact or_congr_left eq_comm
  · rw [Table.has_set, Bool.or_eq_true, decide_eq_true_eq]
    exact or_congr_left eq_comm

theorem addNode_hasEdge (info : InfoPatch) : (graph.addNode nodeId info).hasEdge a b = true ↔
    (graph.hasNode nodeId = true ∨ a ≠ nodeId) ∧ graph.hasEdge a b = true := by
  simp only [hasEdge_iff, addNode, hasNode, getNeighbors, Table.has]
  cases hnode : graph.nodes.get nodeId with
  | none =>
    by_cases h : nodeId = a
    · simp [h]
    · simp [Table.get_set, h, Ne.symm h]
  | some existing => simp

theorem addRow_getNeighbors :
    (graph.addRow nodeId).getNeighbors other = graph.getNeighbors other := by
  unfold addRow getNeighbors
  split
  case isTrue => rfl
  rename_i h
  by_cases heq : nodeId = other
  · subst heq
    simp only [Table.has, Bool.not_eq_true, Option.isSome_eq_false_iff, Option.isNone_iff_eq_none]
      at h
    simp [h]
  · simp [Table.get_set, heq]

theorem link_hasEdge : (graph.link nodeA nodeB).hasEdge a b = true ↔
    graph.hasEdge a b = true ∨ a = nodeA ∧ b = nodeB := by
  simp only [hasEdge_iff]
  unfold link
  split
  case isTrue hin =>
    constructor
    · exact .inl
    rintro (h | ⟨rfl, rfl⟩)
    · exact h
    · exact hin
  case isFalse =>
    by_cases h : nodeA = a
    · subst h
      simp [getNeighbors]
    · simp [getNeighbors, Table.get_set, h, Ne.symm h]

theorem unlink_hasEdge : (graph.unlink nodeA nodeB).hasEdge a b = true ↔
    graph.hasEdge a b = true ∧ ¬ (a = nodeA ∧ b = nodeB) := by
  simp only [hasEdge_iff, unlink, getNeighbors]
  cases hrow : graph.edges.get nodeA with
  | none =>
    by_cases h : a = nodeA
    · subst h
      simp [hrow]
    · simp [h]
  | some row =>
    by_cases h : nodeA = a
    · subst h
      simp [hrow]
    · simp [Table.get_set, h, Ne.symm h]

theorem addRow_nodes : (graph.addRow nodeId).nodes = graph.nodes := by
  unfold addRow
  split <;> rfl

theorem link_nodes : (graph.link nodeA nodeB).nodes = graph.nodes := by
  unfold link
  split <;> rfl

theorem unlink_nodes : (graph.unlink nodeA nodeB).nodes = graph.nodes := by
  unfold unlink
  split <;> rfl

theorem isExit_iff : graph.isExit nodeId = true ↔ nodeId ∈ graph.getExitNodes := by
  unfold isExit getExitNodes
  rw [Option.any_eq_true]
  constructor
  · rintro ⟨info, hinfo, hrole⟩
    exact List.mem_map.mpr ⟨(nodeId, info),
      List.mem_filter.mpr ⟨Table.mem_of_get hinfo, by simpa using hrole⟩, rfl⟩
  · intro h
    obtain ⟨entry, hentry, rfl⟩ := List.mem_map.mp h
    obtain ⟨hmem, hrole⟩ := List.mem_filter.mp hentry
    exact ⟨entry.2, Table.get_of_mem entry.2 hmem, by simpa using hrole⟩

variable [LT Id] [DecidableLT Id]

theorem addEdge_hasEdge : (graph.addEdge nodeA nodeB).hasEdge a b = true ↔
    graph.hasEdge a b = true ∨ a = nodeA ∧ b = nodeB ∨ a = nodeB ∧ b = nodeA := by
  change ((((graph.addRow nodeA).addRow nodeB).link nodeA nodeB).link nodeB nodeA).hasEdge a b =
    true ↔ _
  rw [link_hasEdge, link_hasEdge, hasEdge_iff, addRow_getNeighbors, addRow_getNeighbors,
    ← hasEdge_iff, or_assoc]

@[simp] theorem addEdge_nodes : (graph.addEdge nodeA nodeB).nodes = graph.nodes := by
  change ((((graph.addRow nodeA).addRow nodeB).link nodeA nodeB).link nodeB nodeA).nodes = _
  rw [link_nodes, link_nodes, addRow_nodes, addRow_nodes]

theorem removeEdge_hasEdge : (graph.removeEdge nodeA nodeB).hasEdge a b = true ↔
    graph.hasEdge a b = true ∧ ¬ (a = nodeA ∧ b = nodeB) ∧ ¬ (a = nodeB ∧ b = nodeA) := by
  change ((graph.unlink nodeA nodeB).unlink nodeB nodeA).hasEdge a b = true ↔ _
  rw [unlink_hasEdge, unlink_hasEdge, and_assoc]

@[simp] theorem removeEdge_nodes : (graph.removeEdge nodeA nodeB).nodes = graph.nodes := by
  change ((graph.unlink nodeA nodeB).unlink nodeB nodeA).nodes = _
  rw [unlink_nodes, unlink_nodes]

end Specs

end NetworkGraph

end Meshpn.Routing
