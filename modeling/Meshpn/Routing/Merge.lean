import Meshpn.Routing.Graph

/-!
What `updateFromTopology` makes of a graph. Its first loop writes the nodes of the
snapshot and adds the edges they list; a node that is new to the graph starts
without edges, also those that earlier nodes of the same snapshot have listed. Its
second loop removes the marked nodes that the snapshot lacks.
-/

namespace Meshpn.Routing

open Meshpn.Lib

def TopologyNode.info {Id : Type} (node : TopologyNode Id) : NodeInfo :=
  ⟨node.role, node.virtualIp, true⟩

def lists {Id : Type} [DecidableEq Id] (topology : Topology Id) (a b : Id) : Bool :=
  (topology.get a).any fun node => b ∈ node.connectedTo

theorem lists_of_mem {Id : Type} [DecidableEq Id] {topology : Topology Id}
    {entry : Id × TopologyNode Id} (hentry : entry ∈ topology.entries) {b : Id}
    (hb : b ∈ entry.2.connectedTo) : lists topology entry.1 b = true := by
  rw [lists, Table.get_of_mem entry.2 hentry]
  simpa using hb

theorem has_of_mem {Id : Type} [DecidableEq Id] {topology : Topology Id}
    {entry : Id × TopologyNode Id} (hentry : entry ∈ topology.entries) :
    topology.has entry.1 = true :=
  (Table.has_iff_mem_keys _).mpr (List.mem_map_of_mem hentry)

namespace NetworkGraph

theorem edgeKey_mem {Id : Type} [LT Id] [DecidableLT Id] {x y a b : Id} (h : edgeKey x y = edgeKey a b) :
    x = a ∨ x = b := by
  unfold edgeKey at h
  split at h <;> split at h <;> simp only [Prod.mk.injEq] at h <;> tauto

section Nodes

variable {Id : Type} [DecidableEq Id]

theorem addNode_patch_nodes (graph : NetworkGraph Id) (nodeId : Id) (node : TopologyNode Id) :
    (graph.addNode nodeId node.patch).nodes = graph.nodes.set nodeId node.info := by
  unfold addNode
  split <;> rfl

/-- The edges a list of connections asks for: to nodes that are known or in the snapshot. -/
def Asked (topology : Topology Id) (graph : NetworkGraph Id) (connectedTo : List Id) (id : Id) :
    Prop :=
  id ∈ connectedTo ∧ (graph.hasNode id = true ∨ topology.has id = true)

theorem asked_addNode {graph : NetworkGraph Id} {topology : Topology Id}
    {entry : Id × TopologyNode Id} (hentry : entry ∈ topology.entries) (id : Id) :
    Asked topology (graph.addNode entry.1 entry.2.patch) entry.2.connectedTo id ↔
      Asked topology graph entry.2.connectedTo id := by
  simp only [Asked, addNode_hasNode]
  constructor
  · rintro ⟨hin, (rfl | h) | h⟩
    · exact ⟨hin, .inr (has_of_mem hentry)⟩
    · exact ⟨hin, .inl h⟩
    · exact ⟨hin, .inr h⟩
  · rintro ⟨hin, h | h⟩
    · exact ⟨hin, .inl (.inr h)⟩
    · exact ⟨hin, .inr h⟩

theorem mem_stale {graph : NetworkGraph Id} {topology : Topology Id} {id : Id} : id ∈ graph.stale topology ↔
    graph.marked id = true ∧ topology.has id = false := by
  unfold stale marked
  rw [Option.any_eq_true, List.mem_map]
  constructor
  · rintro ⟨entry, hentry, rfl⟩
    obtain ⟨hin, hcheck⟩ := List.mem_filter.mp hentry
    rw [Bool.and_eq_true, Bool.not_eq_true'] at hcheck
    exact ⟨⟨entry.2, Table.get_of_mem entry.2 hin, hcheck.1⟩, hcheck.2⟩
  · rintro ⟨⟨info, hinfo, hmarked⟩, habsent⟩
    exact ⟨(id, info), List.mem_filter.mpr ⟨Table.mem_of_get hinfo, by simp [hmarked, habsent]⟩,
      rfl⟩

end Nodes

section Merging

variable {Id : Type} [DecidableEq Id] [LT Id] [DecidableLT Id] {graph : NetworkGraph Id}
  {topology : Topology Id}

theorem connectListed_cons (nodeId first : Id) (rest : List Id) :
    graph.connectListed topology nodeId (first :: rest) =
      (if graph.hasNode first || topology.has first then graph.addEdge nodeId first
        else graph).connectListed topology nodeId rest := rfl

@[simp] theorem connectListed_nodes (nodeId : Id) (connectedTo : List Id) :
    (graph.connectListed topology nodeId connectedTo).nodes = graph.nodes := by
  induction connectedTo generalizing graph with
  | nil => rfl
  | cons first rest ih =>
    rw [connectListed_cons, ih]
    split
    · exact graph.addEdge_nodes nodeId first
    · rfl

theorem connectListed_hasEdge (nodeId : Id) (connectedTo : List Id) (a b : Id) :
    (graph.connectListed topology nodeId connectedTo).hasEdge a b = true ↔
      graph.hasEdge a b = true ∨ a = nodeId ∧ Asked topology graph connectedTo b ∨
        b = nodeId ∧ Asked topology graph connectedTo a := by
  induction connectedTo generalizing graph with
  | nil => simp [connectListed, Asked]
  | cons first rest ih =>
    rw [connectListed_cons, ih]
    by_cases hknown : graph.hasNode first = true ∨ topology.has first = true
    · have hasked : ∀ id, Asked topology graph (first :: rest) id ↔
          id = first ∨ Asked topology (graph.addEdge nodeId first) rest id := by
        intro id
        simp only [Asked, List.mem_cons, hasNode, addEdge_nodes]
        constructor
        · rintro ⟨rfl | h, hid⟩
          · exact .inl rfl
          · exact .inr ⟨h, hid⟩
        · rintro (rfl | ⟨h, hid⟩)
          · exact ⟨.inl rfl, hknown⟩
          · exact ⟨.inr h, hid⟩
      rw [if_pos (by simpa using hknown), addEdge_hasEdge, hasked, hasked]
      tauto
    · have hasked : ∀ id, Asked topology graph (first :: rest) id ↔
          Asked topology graph rest id := by
        intro id
        simp only [Asked, List.mem_cons]
        constructor
        · rintro ⟨rfl | h, hid⟩
          · exact absurd hid hknown
          · exact ⟨h, hid⟩
        · rintro ⟨h, hid⟩
          exact ⟨.inr h, hid⟩
      rw [if_neg (by simpa using hknown), hasked, hasked]

theorem addEdge_metrics (nodeA nodeB : Id) (key : Id × Id) :
    (graph.addEdge nodeA nodeB).metrics.has key = true ↔
      key = edgeKey nodeA nodeB ∨ graph.metrics.has key = true := by
  have hmetrics : (((graph.addRow nodeA).addRow nodeB).link nodeA nodeB |>.link nodeB
      nodeA).metrics = graph.metrics := by
    have hrow : ∀ (g : NetworkGraph Id) (id : Id), (g.addRow id).metrics = g.metrics := by
      intro g id
      unfold addRow
      split <;> rfl
    have hlink : ∀ (g : NetworkGraph Id) (x y : Id), (g.link x y).metrics = g.metrics := by
      intro g x y
      unfold link
      split <;> rfl
    rw [hlink, hlink, hrow, hrow]
  unfold addEdge updateEdgeMetrics
  dsimp only
  rw [Table.has_set, hmetrics, Bool.or_eq_true, decide_eq_true_eq]
  exact or_congr_left eq_comm

theorem connectListed_metrics (nodeId : Id) (connectedTo : List Id) (key : Id × Id) :
    (graph.connectListed topology nodeId connectedTo).metrics.has key = true ↔
      graph.metrics.has key = true ∨
        ∃ id, Asked topology graph connectedTo id ∧ key = edgeKey nodeId id := by
  induction connectedTo generalizing graph with
  | nil => simp [connectListed, Asked]
  | cons first rest ih =>
    rw [connectListed_cons, ih]
    split
    case isTrue hknown =>
      rw [addEdge_metrics]
      simp only [Asked, hasNode, addEdge_nodes, List.mem_cons]
      constructor
      · rintro ((rfl | h) | ⟨id, ⟨hin, hid⟩, hkey⟩)
        · exact .inr ⟨first, ⟨.inl rfl, by simpa [hasNode] using hknown⟩, rfl⟩
        · exact .inl h
        · exact .inr ⟨id, ⟨.inr hin, hid⟩, hkey⟩
      · rintro (h | ⟨id, ⟨rfl | hin, hid⟩, hkey⟩)
        · exact .inl (.inr h)
        · exact .inl (.inl hkey)
        · exact .inr ⟨id, ⟨hin, hid⟩, hkey⟩
    case isFalse hknown =>
      simp only [Asked, List.mem_cons]
      constructor
      · rintro (h | ⟨id, ⟨hin, hid⟩, hkey⟩)
        · exact .inl h
        · exact .inr ⟨id, ⟨.inr hin, hid⟩, hkey⟩
      · rintro (h | ⟨id, ⟨rfl | hin, hid⟩, hkey⟩)
        · exact .inl h
        · exact absurd (by simpa using hid) hknown
        · exact .inr ⟨id, ⟨hin, hid⟩, hkey⟩

theorem mergeNode_nodes (entry : Id × TopologyNode Id) :
    (mergeNode topology graph entry).nodes = graph.nodes.set entry.1 entry.2.info := by
  rw [mergeNode, connectListed_nodes, addNode_patch_nodes]

theorem mergeNode_hasNode (entry : Id × TopologyNode Id) (id : Id) :
    (mergeNode topology graph entry).hasNode id = true ↔
      id = entry.1 ∨ graph.hasNode id = true := by
  rw [hasNode, mergeNode_nodes, Table.has_set, Bool.or_eq_true, decide_eq_true_eq]
  exact or_congr_left eq_comm

theorem mergeNode_hasEdge {entry : Id × TopologyNode Id} (hentry : entry ∈ topology.entries)
    (a b : Id) : (mergeNode topology graph entry).hasEdge a b = true ↔
      (graph.hasNode entry.1 = true ∨ a ≠ entry.1) ∧ graph.hasEdge a b = true ∨
        a = entry.1 ∧ Asked topology graph entry.2.connectedTo b ∨
        b = entry.1 ∧ Asked topology graph entry.2.connectedTo a := by
  rw [mergeNode, connectListed_hasEdge, addNode_hasEdge, asked_addNode hentry,
    asked_addNode hentry]

theorem mergeNode_metrics {entry : Id × TopologyNode Id} (hentry : entry ∈ topology.entries)
    (key : Id × Id) : (mergeNode topology graph entry).metrics.has key = true ↔
      graph.metrics.has key = true ∨
        ∃ id, Asked topology graph entry.2.connectedTo id ∧ key = edgeKey entry.1 id := by
  have hsame : (graph.addNode entry.1 entry.2.patch).metrics = graph.metrics := by
    unfold addNode
    split <;> rfl
  rw [mergeNode, connectListed_metrics, hsame]
  simp only [asked_addNode hentry]

theorem detach_nodes (nodeId : Id) (neighbors : List Id) :
    (graph.detach nodeId neighbors).nodes = graph.nodes := by
  induction neighbors generalizing graph with
  | nil => rfl
  | cons first rest ih => exact ih.trans (graph.unlink_nodes first nodeId)

theorem detach_hasEdge {nodeId a b : Id} (hb : b ≠ nodeId) (neighbors : List Id) :
    (graph.detach nodeId neighbors).hasEdge a b = true ↔ graph.hasEdge a b = true := by
  induction neighbors generalizing graph with
  | nil => exact Iff.rfl
  | cons first rest ih =>
    refine ih.trans ((graph.unlink_hasEdge first nodeId a b).trans ?_)
    simp [hb]

theorem detach_metrics {nodeId : Id} {key : Id × Id}
    (hkey : ∀ neighbor, key ≠ edgeKey nodeId neighbor) (neighbors : List Id) :
    (graph.detach nodeId neighbors).metrics.get key = graph.metrics.get key := by
  have hunlink : ∀ (g : NetworkGraph Id) (x y : Id), (g.unlink x y).metrics = g.metrics := by
    intro g x y
    unfold unlink
    split <;> rfl
  induction neighbors generalizing graph with
  | nil => rfl
  | cons first rest ih =>
    refine ih.trans ?_
    change ((graph.unlink first nodeId).metrics.delete (edgeKey nodeId first)).get key = _
    rw [Table.get_delete, if_neg (Ne.symm (hkey first)), hunlink]

theorem removeNode_get (nodeId id : Id) : (graph.removeNode nodeId).nodes.get id =
    if nodeId = id then none else graph.nodes.get id := by
  unfold removeNode
  split
  case isTrue =>
    change ((graph.detach nodeId _).nodes.delete nodeId).get id = _
    rw [Table.get_delete, detach_nodes]
  case isFalse hnone =>
    by_cases heq : nodeId = id
    · subst heq
      simpa [hasNode, Table.has] using hnone
    · rw [if_neg heq]

theorem removeNode_hasEdge {nodeId a b : Id} (ha : a ≠ nodeId) (hb : b ≠ nodeId) :
    (graph.removeNode nodeId).hasEdge a b = true ↔ graph.hasEdge a b = true := by
  unfold removeNode
  split
  case isTrue =>
    refine Iff.trans ?_ (detach_hasEdge hb (graph.getNeighbors nodeId))
    rw [hasEdge_iff, hasEdge_iff]
    change b ∈ ((((graph.detach nodeId _).edges.delete nodeId).get a).getD []) ↔ _
    rw [Table.get_delete, if_neg (Ne.symm ha)]
    exact Iff.rfl
  case isFalse => exact Iff.rfl

theorem removeNode_metrics {nodeId : Id} {key : Id × Id}
    (hkey : ∀ neighbor, key ≠ edgeKey nodeId neighbor) :
    (graph.removeNode nodeId).metrics.get key = graph.metrics.get key := by
  unfold removeNode
  split
  · exact detach_metrics hkey _
  · rfl

theorem removeAll_get (stale : List Id) (id : Id) : (stale.foldl removeNode graph).nodes.get id =
    if id ∈ stale then none else graph.nodes.get id := by
  induction stale generalizing graph with
  | nil => rfl
  | cons first rest ih =>
    rw [List.foldl_cons, ih, removeNode_get]
    by_cases hrest : id ∈ rest
    · simp [hrest]
    by_cases hfirst : first = id
    · simp [hfirst]
    · simp [hrest, hfirst, Ne.symm hfirst]

theorem removeAll_hasEdge {stale : List Id} {a b : Id} (ha : a ∉ stale) (hb : b ∉ stale) :
    (stale.foldl removeNode graph).hasEdge a b = true ↔ graph.hasEdge a b = true := by
  induction stale generalizing graph with
  | nil => exact Iff.rfl
  | cons first rest ih =>
    rw [List.mem_cons, not_or] at ha hb
    exact (ih ha.2 hb.2).trans (removeNode_hasEdge ha.1 hb.1)

theorem removeAll_metrics {stale : List Id} {a b : Id} (ha : a ∉ stale) (hb : b ∉ stale) :
    (stale.foldl removeNode graph).metrics.get (edgeKey a b) = graph.metrics.get (edgeKey a b) := by
  induction stale generalizing graph with
  | nil => rfl
  | cons first rest ih =>
    rw [List.mem_cons, not_or] at ha hb
    refine (ih ha.2 hb.2).trans (removeNode_metrics ?_)
    intro neighbor heq
    rcases edgeKey_mem heq.symm with h | h
    · exact ha.1 h.symm
    · exact hb.1 h.symm

end Merging

end NetworkGraph

end Meshpn.Routing
