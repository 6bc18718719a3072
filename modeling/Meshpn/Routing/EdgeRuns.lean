import Mathlib.Order.Defs.LinearOrder
import Meshpn.Routing.Topology

/-!
The graph over whole runs of its operations, against the edges it should have. An
edge is there in both rows and has metrics, from the call that adds it to the one
that removes it or one of its ends. Two operations miss this. A node that is new gets
an empty row even if edges to it were added before, so these are left in the rows of
the others only; and a node that only edges mention is not removed. In a run that
meets neither case the graph is exact after every operation.
-/

namespace Meshpn.Routing

open Meshpn.Lib List

/-- A call of one of the operations that change a graph. -/
inductive GraphOp (Id : Type) where
  | addNode (nodeId : Id) (info : InfoPatch)
  | removeNode (nodeId : Id)
  | addEdge (nodeA nodeB : Id) (metrics : Metrics)
  | removeEdge (nodeA nodeB : Id)
  | updateEdgeMetrics (nodeA nodeB : Id) (metrics : Metrics)
  | updateFromTopology (topology : Topology Id)

def IsPair {Id : Type} (nodeA nodeB a b : Id) : Prop := a = nodeA ∧ b = nodeB ∨ a = nodeB ∧ b = nodeA

namespace NetworkGraph

section Definitions

variable {Id : Type} [DecidableEq Id] [LT Id] [DecidableLT Id]

/-- `addEdge` with metrics of its own. -/
def addEdgeWith (graph : NetworkGraph Id) (nodeA nodeB : Id) (metrics : Metrics) :
    NetworkGraph Id :=
  ((((graph.addRow nodeA).addRow nodeB).link nodeA nodeB).link nodeB nodeA).updateEdgeMetrics
    nodeA nodeB metrics

def apply (graph : NetworkGraph Id) : GraphOp Id → NetworkGraph Id
  | .addNode nodeId info => graph.addNode nodeId info
  | .removeNode nodeId => graph.removeNode nodeId
  | .addEdge nodeA nodeB metrics => graph.addEdgeWith nodeA nodeB metrics
  | .removeEdge nodeA nodeB => graph.removeEdge nodeA nodeB
  | .updateEdgeMetrics nodeA nodeB metrics => graph.updateEdgeMetrics nodeA nodeB metrics
  | .updateFromTopology topology => graph.updateFromTopology topology

def run (graph : NetworkGraph Id) (ops : List (GraphOp Id)) : NetworkGraph Id :=
  ops.foldl apply graph

/-- The snapshot asks for an edge: to a node that is known or has an entry too. -/
def Reports (topology : Topology Id) (graph : NetworkGraph Id) (a b : Id) : Prop :=
  lists topology a b = true ∧ (graph.hasNode b = true ∨ topology.has b = true)

def Pruned (topology : Topology Id) (graph : NetworkGraph Id) (id : Id) : Prop :=
  graph.marked id = true ∧ topology.has id = false

/-- The edges after an operation, from those before it. -/
def edgesAfter (graph : NetworkGraph Id) (edge : Id → Id → Prop) : GraphOp Id → Id → Id → Prop
  | .addNode _ _, a, b => edge a b
  | .removeNode nodeId, a, b => edge a b ∧ a ≠ nodeId ∧ b ≠ nodeId
  | .addEdge nodeA nodeB _, a, b => edge a b ∨ IsPair nodeA nodeB a b
  | .removeEdge nodeA nodeB, a, b => edge a b ∧ ¬ IsPair nodeA nodeB a b
  | .updateEdgeMetrics _ _ _, a, b => edge a b
  | .updateFromTopology topology, a, b =>
    (edge a b ∨ Reports topology graph a b ∨ Reports topology graph b a) ∧
      ¬ Pruned topology graph a ∧ ¬ Pruned topology graph b

def edgesOver (graph : NetworkGraph Id) (edge : Id → Id → Prop) :
    List (GraphOp Id) → Id → Id → Prop
  | [] => edge
  | op :: ops => edgesOver (graph.apply op) (graph.edgesAfter edge op) ops

/-- The graph has the given edges: each in both rows, and with metrics. -/
structure Exact (graph : NetworkGraph Id) (edge : Id → Id → Prop) : Prop where
  rows : ∀ a b, graph.hasEdge a b = true ↔ edge a b
  symmetric : ∀ a b, graph.hasEdge a b = true → graph.hasEdge b a = true
  metrics : ∀ key, graph.metrics.has key = true ↔
    ∃ a b, graph.hasEdge a b = true ∧ key = edgeKey a b

def Settled (graph : NetworkGraph Id) (nodeId : Id) : Prop :=
  graph.hasNode nodeId = true ∨ graph.getNeighbors nodeId = []

/-- What a node that is new has at its turn, from the graph and from earlier entries, its own
entry or a later one asks for again, or it goes with a node that is pruned. -/
def Relists (graph : NetworkGraph Id) (topology : Topology Id) : Prop :=
  ∀ before nodeId node after, topology.entries = before ++ (nodeId, node) :: after →
    graph.hasNode nodeId = false → ∀ b,
    (graph.hasEdge nodeId b = true ∨
      ∃ entry ∈ before, entry.1 = b ∧ nodeId ∈ entry.2.connectedTo) →
    Asked topology graph node.connectedTo b ∨
      (∃ entry ∈ after, entry.1 = b ∧ nodeId ∈ entry.2.connectedTo) ∨ Pruned topology graph b

/-- No row is emptied that has edges, none is left behind, and metrics are written for edges. -/
def Keeps (graph : NetworkGraph Id) : GraphOp Id → Prop
  | .addNode nodeId _ => graph.Settled nodeId
  | .removeNode nodeId => graph.Settled nodeId
  | .addEdge _ _ _ => True
  | .removeEdge _ _ => True
  | .updateEdgeMetrics nodeA nodeB _ => graph.hasEdge nodeA nodeB = true
  | .updateFromTopology topology => graph.Relists topology

def AllKeep (graph : NetworkGraph Id) : List (GraphOp Id) → Prop
  | [] => True
  | op :: ops => graph.Keeps op ∧ AllKeep (graph.apply op) ops

end Definitions

section Rows

variable {Id : Type} [LinearOrder Id] {graph : NetworkGraph Id} {edge : Id → Id → Prop}

theorem edgeKey_comm (a b : Id) : edgeKey a b = edgeKey b a := by
  unfold edgeKey
  split
  case isTrue hlt => rw [if_neg (not_lt_of_gt hlt)]
  rename_i hge
  split
  · rfl
  case isFalse hle => rw [le_antisymm (le_of_not_gt hle) (le_of_not_gt hge)]

theorem edgeKey_pair {nodeA nodeB a b : Id} (h : edgeKey nodeA nodeB = edgeKey a b) :
    IsPair nodeA nodeB a b := by
  unfold edgeKey at h
  unfold IsPair
  split at h <;> split at h <;> simp only [Prod.mk.injEq] at h <;> simp [h]

theorem edgeKey_of_pair {nodeA nodeB a b : Id} (h : IsPair nodeA nodeB a b) :
    edgeKey a b = edgeKey nodeA nodeB := by
  rcases h with ⟨rfl, rfl⟩ | ⟨rfl, rfl⟩
  · rfl
  · exact edgeKey_comm a b

theorem unlink_metrics (nodeA nodeB : Id) : (graph.unlink nodeA nodeB).metrics = graph.metrics := by
  unfold unlink
  split <;> rfl

theorem addNode_metrics (nodeId : Id) (info : InfoPatch) :
    (graph.addNode nodeId info).metrics = graph.metrics := by
  unfold addNode
  split <;> rfl

theorem addEdgeWith_hasEdge (nodeA nodeB : Id) (metrics : Metrics) (a b : Id) :
    (graph.addEdgeWith nodeA nodeB metrics).hasEdge a b = true ↔
      graph.hasEdge a b = true ∨ IsPair nodeA nodeB a b :=
  addEdge_hasEdge graph nodeA nodeB a b

theorem addEdgeWith_metrics (nodeA nodeB : Id) (metrics : Metrics) (key : Id × Id) :
    (graph.addEdgeWith nodeA nodeB metrics).metrics.has key = true ↔
      key = edgeKey nodeA nodeB ∨ graph.metrics.has key = true := by
  rw [← addEdge_metrics]
  unfold addEdgeWith addEdge updateEdgeMetrics
  simp only [Table.has_set]

theorem removeEdge_metrics (nodeA nodeB : Id) (key : Id × Id) :
    (graph.removeEdge nodeA nodeB).metrics.has key = true ↔
      key ≠ edgeKey nodeA nodeB ∧ graph.metrics.has key = true := by
  unfold removeEdge dropMetrics
  rw [Table.has_delete, unlink_metrics, unlink_metrics, Bool.and_eq_true, Bool.not_eq_true',
    decide_eq_false_iff_not]
  exact and_congr_left' ne_comm

theorem detach_row (nodeId : Id) (neighbors : List Id) (a b : Id) :
    (graph.detach nodeId neighbors).hasEdge a b = true ↔
      graph.hasEdge a b = true ∧ ¬ (b = nodeId ∧ a ∈ neighbors) := by
  induction neighbors generalizing graph with
  | nil => simp [detach]
  | cons first rest ih =>
    refine ih.trans ((and_congr_left' (graph.unlink_hasEdge first nodeId a b)).trans ?_)
    rw [mem_cons]
    tauto

theorem detach_metrics_has (nodeId : Id) (neighbors : List Id) (key : Id × Id) :
    (graph.detach nodeId neighbors).metrics.has key = true ↔
      graph.metrics.has key = true ∧ ∀ neighbor ∈ neighbors, key ≠ edgeKey nodeId neighbor := by
  induction neighbors generalizing graph with
  | nil => simp [detach]
  | cons first rest ih =>
    have hfirst : ((graph.unlink first nodeId).dropMetrics nodeId first).metrics.has key = true ↔
        graph.metrics.has key = true ∧ key ≠ edgeKey nodeId first := by
      unfold dropMetrics
      rw [Table.has_delete, unlink_metrics, Bool.and_eq_true, Bool.not_eq_true',
        decide_eq_false_iff_not, and_comm]
      exact and_congr_right' ne_comm
    refine ih.trans ((and_congr_left' hfirst).trans ?_)
    rw [forall_mem_cons, and_assoc]

variable {nodeId : Id}

theorem removeNode_row (hnode : graph.hasNode nodeId = true)
    (hback : ∀ a, graph.hasEdge a nodeId = true → a ≠ nodeId → graph.hasEdge nodeId a = true)
    (a b : Id) : (graph.removeNode nodeId).hasEdge a b = true ↔
      graph.hasEdge a b = true ∧ a ≠ nodeId ∧ b ≠ nodeId := by
  have hrow : (graph.removeNode nodeId).hasEdge a b = true ↔
      a ≠ nodeId ∧ (graph.detach nodeId (graph.getNeighbors nodeId)).hasEdge a b = true := by
    rw [removeNode, if_pos hnode, hasEdge_iff, hasEdge_iff]
    unfold dropNode getNeighbors
    rw [Table.get_delete]
    by_cases ha : nodeId = a
    · simp [ha]
    · simp [ha, Ne.symm ha]
  rw [hrow, detach_row, ← hasEdge_iff]
  constructor
  · rintro ⟨ha, hedge, hnot⟩
    refine ⟨hedge, ha, ?_⟩
    rintro rfl
    exact hnot ⟨rfl, hback a hedge ha⟩
  · rintro ⟨hedge, ha, hb⟩
    exact ⟨ha, hedge, fun h => hb h.1⟩

theorem removeNode_metrics_has (hnode : graph.hasNode nodeId = true) (key : Id × Id) :
    (graph.removeNode nodeId).metrics.has key = true ↔
      graph.metrics.has key = true ∧
        ∀ b, graph.hasEdge nodeId b = true → key ≠ edgeKey nodeId b := by
  rw [removeNode, if_pos hnode]
  refine (detach_metrics_has nodeId (graph.getNeighbors nodeId) key).trans ?_
  simp only [hasEdge_iff]

end Rows

section Pruning

variable {Id : Type} [LinearOrder Id] {graph : NetworkGraph Id} {edge : Id → Id → Prop}

/-- The graph while nodes are still to be pruned: what a row lacks is an edge to one of them. -/
structure Pending (stale : List Id) (graph : NetworkGraph Id) (edge : Id → Id → Prop) : Prop where
  nodes : ∀ id ∈ stale, graph.hasNode id = true
  only : ∀ a b, graph.hasEdge a b = true → edge a b
  all : ∀ a b, edge a b → a ∈ stale ∨ b ∉ stale → graph.hasEdge a b = true
  symmetric : ∀ a b, edge a b → edge b a
  metrics : ∀ key, graph.metrics.has key = true ↔ ∃ a b, edge a b ∧ key = edgeKey a b

def Without (edge : Id → Id → Prop) (ids : List Id) (a b : Id) : Prop :=
  edge a b ∧ a ∉ ids ∧ b ∉ ids

theorem Pending.removeNode {first : Id} {rest : List Id} (hfresh : first ∉ rest)
    (h : Pending (first :: rest) graph edge) :
    Pending rest (graph.removeNode first) (Without edge [first]) := by
  have hnode := h.nodes first mem_cons_self
  have hback : ∀ a, graph.hasEdge a first = true → graph.hasEdge first a = true := fun a ha =>
    h.all first a (h.symmetric a first (h.only a first ha)) (.inl mem_cons_self)
  have hrow := removeNode_row hnode (fun a ha _ => hback a ha)
  refine ⟨?_, ?_, ?_, ?_, ?_⟩
  · intro id hid
    have hne : first ≠ id := fun heq => hfresh (heq ▸ hid)
    rw [hasNode, Table.has, removeNode_get, if_neg hne]
    exact h.nodes id (mem_cons_of_mem _ hid)
  · intro a b hedge
    obtain ⟨hold, ha, hb⟩ := (hrow a b).mp hedge
    exact ⟨h.only a b hold, by simpa using ha, by simpa using hb⟩
  · rintro a b ⟨hedge, ha, hb⟩ hside
    rw [mem_singleton] at ha hb
    refine (hrow a b).mpr ⟨h.all a b hedge ?_, ha, hb⟩
    rcases hside with hin | hout
    · exact .inl (mem_cons_of_mem _ hin)
    · exact .inr (by simp [hb, hout])
  · rintro a b ⟨hedge, ha, hb⟩
    exact ⟨h.symmetric a b hedge, hb, ha⟩
  · intro key
    rw [removeNode_metrics_has hnode, h.metrics]
    constructor
    · rintro ⟨⟨a, b, hedge, rfl⟩, hother⟩
      refine ⟨a, b, ⟨hedge, ?_, ?_⟩, rfl⟩
      · rw [mem_singleton]
        rintro rfl
        exact hother b (h.all a b hedge (.inl mem_cons_self)) rfl
      · rw [mem_singleton]
        rintro rfl
        have hforth := h.all b a (h.symmetric a b hedge) (.inl mem_cons_self)
        exact hother a hforth (edgeKey_comm a b)
    · rintro ⟨a, b, ⟨hedge, ha, hb⟩, rfl⟩
      rw [mem_singleton] at ha hb
      refine ⟨⟨a, b, hedge, rfl⟩, fun c _ heq => ?_⟩
      rcases edgeKey_mem heq.symm with heq | heq
      · exact ha heq.symm
      · exact hb heq.symm

theorem Pending.exact {stale : List Id} (hnodup : stale.Nodup) (h : Pending stale graph edge) :
    Exact (stale.foldl NetworkGraph.removeNode graph) (Without edge stale) := by
  induction stale generalizing graph edge with
  | nil =>
    have hrows : ∀ a b, graph.hasEdge a b = true ↔ edge a b := fun a b =>
      ⟨h.only a b, fun hedge => h.all a b hedge (.inr not_mem_nil)⟩
    refine ⟨?_, ?_, ?_⟩
    · intro a b
      simpa [Without] using hrows a b
    · intro a b hedge
      exact (hrows b a).mpr (h.symmetric a b (h.only a b hedge))
    · intro key
      simpa [hrows] using h.metrics key
  | cons first rest ih =>
    rw [nodup_cons] at hnodup
    have hrest := ih hnodup.2 (h.removeNode hnodup.1)
    have hsame : Without (Without edge [first]) rest = Without edge (first :: rest) := by
      funext a b
      simp only [Without, mem_cons, not_or]
      exact propext (by tauto)
    rw [hsame] at hrest
    exact hrest

end Pruning

section Merging

variable {Id : Type} [LinearOrder Id] {graph current : NetworkGraph Id} {topology : Topology Id}
  {edge : Id → Id → Prop} {before after : List (Id × TopologyNode Id)}

/-- One of the entries is the node `a` and asks for an edge to `b`. -/
def Wanted (topology : Topology Id) (graph : NetworkGraph Id)
    (entries : List (Id × TopologyNode Id)) (a b : Id) : Prop :=
  ∃ entry ∈ entries, entry.1 = a ∧ Asked topology graph entry.2.connectedTo b

def Joined (topology : Topology Id) (graph : NetworkGraph Id) (edge : Id → Id → Prop)
    (entries : List (Id × TopologyNode Id)) (a b : Id) : Prop :=
  edge a b ∨ Wanted topology graph entries a b ∨ Wanted topology graph entries b a

variable {entry : Id × TopologyNode Id} {a b : Id}

theorem wanted_append :
    Wanted topology graph (before ++ [entry]) a b ↔
      Wanted topology graph before a b ∨
        a = entry.1 ∧ Asked topology graph entry.2.connectedTo b := by
  constructor
  · rintro ⟨found, hfound, rfl, hasked⟩
    rcases mem_append.mp hfound with h | h
    · exact .inl ⟨found, h, rfl, hasked⟩
    · obtain rfl := mem_singleton.mp h
      exact .inr ⟨rfl, hasked⟩
  · rintro (⟨found, hfound, heq, hasked⟩ | ⟨rfl, hasked⟩)
    · exact ⟨found, mem_append_left _ hfound, heq, hasked⟩
    · exact ⟨entry, by simp, rfl, hasked⟩

theorem wanted_cons :
    Wanted topology graph (entry :: after) a b ↔
      a = entry.1 ∧ Asked topology graph entry.2.connectedTo b ∨
        Wanted topology graph after a b := by
  constructor
  · rintro ⟨found, hfound, rfl, hasked⟩
    rcases mem_cons.mp hfound with rfl | h
    · exact .inl ⟨rfl, hasked⟩
    · exact .inr ⟨found, h, rfl, hasked⟩
  · rintro (⟨rfl, hasked⟩ | ⟨found, hfound, heq, hasked⟩)
    · exact ⟨entry, mem_cons_self, rfl, hasked⟩
    · exact ⟨found, mem_cons_of_mem _ hfound, heq, hasked⟩

theorem wanted_entries :
    Wanted topology graph topology.entries a b ↔ Reports topology graph a b := by
  unfold Wanted Reports lists Asked
  constructor
  · rintro ⟨entry, hentry, rfl, hin, hknown⟩
    rw [Table.get_of_mem entry.2 hentry]
    exact ⟨by simpa using hin, hknown⟩
  · rintro ⟨hlists, hknown⟩
    obtain ⟨node, hnode, hin⟩ := (Option.any_eq_true _ _).mp hlists
    exact ⟨(a, node), Table.mem_of_get hnode, rfl, by simpa using hin, hknown⟩

/-- The graph between two entries. What a row lacks is asked for again, or is an edge to a
node that will be pruned. -/
structure Between (topology : Topology Id) (graph : NetworkGraph Id) (edge : Id → Id → Prop)
    (before after : List (Id × TopologyNode Id)) (current : NetworkGraph Id) : Prop where
  nodes : ∀ id, current.hasNode id = true ↔
    graph.hasNode id = true ∨ id ∈ before.map Prod.fst
  only : ∀ a b, current.hasEdge a b = true → Joined topology graph edge before a b
  all : ∀ a b, Joined topology graph edge before a b → current.hasEdge a b = true ∨
    Wanted topology graph after a b ∨ Wanted topology graph after b a ∨
      Pruned topology graph b ∧ topology.has a = true
  metrics : ∀ key, current.metrics.has key = true ↔
    ∃ a b, Joined topology graph edge before a b ∧ key = edgeKey a b

theorem Exact.between (h : Exact graph edge) :
    Between topology graph edge [] topology.entries graph := by
  have hjoined : ∀ a b, Joined topology graph edge [] a b ↔ edge a b := by
    intro a b
    simp [Joined, Wanted]
  refine ⟨fun id => by simp, ?_, ?_, ?_⟩
  · intro a b hedge
    exact (hjoined a b).mpr ((h.rows a b).mp hedge)
  · intro a b hedge
    exact .inl ((h.rows a b).mpr ((hjoined a b).mp hedge))
  · intro key
    simpa only [hjoined, h.rows] using h.metrics key

theorem joined_append :
    Joined topology graph edge (before ++ [entry]) a b ↔
      Joined topology graph edge before a b ∨
        a = entry.1 ∧ Asked topology graph entry.2.connectedTo b ∨
        b = entry.1 ∧ Asked topology graph entry.2.connectedTo a := by
  unfold Joined
  rw [wanted_append, wanted_append]
  tauto

theorem Between.mergeNode (hexact : Exact graph edge)
    (hrelists : graph.Relists topology) (hsplit : topology.entries = before ++ entry :: after)
    (h : Between topology graph edge before (entry :: after) current) :
    Between topology graph edge (before ++ [entry]) after
      (NetworkGraph.mergeNode topology current entry) := by
  have hentry : entry ∈ topology.entries := by simp [hsplit]
  have hfresh : entry.1 ∉ before.map Prod.fst := by
    have hnodup := topology.nodup
    rw [hsplit, map_append, map_cons] at hnodup
    exact fun hin => (disjoint_of_nodup_append hnodup) hin mem_cons_self
  have hasked : ∀ id, Asked topology current entry.2.connectedTo id ↔
      Asked topology graph entry.2.connectedTo id := by
    intro id
    have hdone : id ∈ before.map Prod.fst → topology.has id = true := by
      intro hin
      obtain ⟨found, hfound, rfl⟩ := mem_map.mp hin
      exact has_of_mem (by rw [hsplit]; exact mem_append_left _ hfound)
    unfold Asked
    rw [h.nodes]
    tauto
  have hrow : ∀ a b, (NetworkGraph.mergeNode topology current entry).hasEdge a b = true ↔ _ :=
    fun a b => mergeNode_hasEdge hentry a b
  simp only [hasked] at hrow
  refine ⟨?_, ?_, ?_, ?_⟩
  · intro id
    rw [mergeNode_hasNode, h.nodes, map_append, mem_append, map_singleton,
      mem_singleton]
    tauto
  · intro a b hedge
    rw [joined_append]
    exact ((hrow a b).mp hedge).imp_left fun hold => h.only a b hold.2
  · intro a b hjoined
    rw [hrow]
    rcases joined_append.mp hjoined with hold | hnew
    · rcases h.all a b hold with hedge | hagain | hagain | hpruned
      · by_cases hkeep : current.hasNode entry.1 = true ∨ a ≠ entry.1
        · exact .inl (.inl ⟨hkeep, hedge⟩)
        -- the row is emptied; what was in it is asked for again
        · rw [not_or, not_ne_iff, Bool.not_eq_true] at hkeep
          obtain ⟨hnew, rfl⟩ := hkeep
          have hunknown : graph.hasNode entry.1 = false := by
            rw [← Bool.not_eq_true] at hnew ⊢
            exact fun hknown => hnew ((h.nodes _).mpr (.inl hknown))
          have hcause : graph.hasEdge entry.1 b = true ∨
              ∃ earlier ∈ before, earlier.1 = b ∧ entry.1 ∈ earlier.2.connectedTo := by
            rcases hold with hedge | ⟨found, hfound, heq, -⟩ | ⟨found, hfound, heq, hin, -⟩
            · exact .inl ((hexact.rows _ _).mpr hedge)
            · exact absurd (heq ▸ mem_map_of_mem hfound) hfresh
            · exact .inr ⟨found, hfound, heq, hin⟩
          rcases hrelists before entry.1 entry.2 after hsplit hunknown b hcause with
            hown | ⟨found, hfound, heq, hin⟩ | hpruned
          · exact .inl (.inr (.inl ⟨rfl, hown⟩))
          · exact .inr (.inr (.inl ⟨found, hfound, heq, hin, .inr (has_of_mem hentry)⟩))
          · exact .inr (.inr (.inr ⟨hpruned, has_of_mem hentry⟩))
      · rcases wanted_cons.mp hagain with hown | hlater
        · exact .inl (.inr (.inl hown))
        · exact .inr (.inl hlater)
      · rcases wanted_cons.mp hagain with hown | hlater
        · exact .inl (.inr (.inr hown))
        · exact .inr (.inr (.inl hlater))
      · exact .inr (.inr (.inr hpruned))
    · exact .inl (.inr hnew)
  · intro key
    rw [mergeNode_metrics hentry, h.metrics]
    simp only [joined_append, hasked]
    constructor
    · rintro (⟨a, b, hjoined, hkey⟩ | ⟨id, hown, hkey⟩)
      · exact ⟨a, b, .inl hjoined, hkey⟩
      · exact ⟨entry.1, id, .inr (.inl ⟨rfl, hown⟩), hkey⟩
    · rintro ⟨a, b, hjoined | ⟨rfl, hown⟩ | ⟨rfl, hown⟩, hkey⟩
      · exact .inl ⟨a, b, hjoined, hkey⟩
      · exact .inr ⟨b, hown, hkey⟩
      · exact .inr ⟨a, hown, hkey.trans (edgeKey_comm _ _)⟩

theorem Between.mergeEntries (hexact : Exact graph edge) (hrelists : graph.Relists topology)
    (hsplit : topology.entries = before ++ after)
    (h : Between topology graph edge before after current) :
    Between topology graph edge topology.entries []
      (after.foldl (NetworkGraph.mergeNode topology) current) := by
  induction after generalizing before current with
  | nil =>
    rw [append_nil] at hsplit
    rw [hsplit]
    exact h
  | cons entry rest ih =>
    exact @ih _ (before ++ [entry]) (by rw [hsplit]; simp)
      (h.mergeNode hexact hrelists hsplit)

theorem stale_nodup : (graph.stale topology).Nodup :=
  graph.nodes.nodup.sublist (filter_sublist.map Prod.fst)

theorem hasNode_of_stale {id : Id} (h : id ∈ graph.stale topology) : graph.hasNode id = true := by
  obtain ⟨hmarked, -⟩ := mem_stale.mp h
  rw [marked, Option.any_eq_true] at hmarked
  obtain ⟨info, hinfo, -⟩ := hmarked
  rw [hasNode, Table.has, hinfo]
  rfl

theorem mergeNodes_pending (hexact : Exact graph edge) (hrelists : graph.Relists topology) :
    Pending ((graph.mergeNodes topology).stale topology) (graph.mergeNodes topology)
      (Joined topology graph edge topology.entries) := by
  have hmerged : Between topology graph edge topology.entries [] (graph.mergeNodes topology) :=
    hexact.between.mergeEntries hexact hrelists rfl
  refine ⟨fun id hid => hasNode_of_stale hid, hmerged.only, ?_, ?_, hmerged.metrics⟩
  · intro a b hjoined hside
    rcases hmerged.all a b hjoined with hedge | ⟨found, hfound, -⟩ | ⟨found, hfound, -⟩ |
      ⟨hpruned, hhas⟩
    · exact hedge
    · cases hfound
    · cases hfound
    · simp only [mem_stale_mergeNodes] at hside
      rcases hside with ⟨-, habsent⟩ | hkept
      · rw [hhas] at habsent
        cases habsent
      · exact absurd hpruned hkept
  · rintro a b (hedge | hforth | hback)
    · refine .inl ((hexact.rows b a).mp (hexact.symmetric a b ?_))
      exact (hexact.rows a b).mpr hedge
    · exact .inr (.inr hforth)
    · exact .inr (.inl hback)

theorem updateFromTopology_exact (hexact : Exact graph edge) (hrelists : graph.Relists topology) :
    Exact (graph.updateFromTopology topology)
      (graph.edgesAfter edge (.updateFromTopology topology)) := by
  have hpruned := (mergeNodes_pending hexact hrelists).exact stale_nodup
  have hsame : Without (Joined topology graph edge topology.entries)
      ((graph.mergeNodes topology).stale topology) =
        graph.edgesAfter edge (.updateFromTopology topology) := by
    funext a b
    simp only [Without, Joined, wanted_entries, mem_stale_mergeNodes]
    rfl
  rw [hsame] at hpruned
  exact hpruned

end Merging

section Runs

variable {Id : Type} [LinearOrder Id] {graph : NetworkGraph Id} {edge : Id → Id → Prop}

theorem exact_init : Exact (init : NetworkGraph Id) fun _ _ => False := by
  refine ⟨?_, ?_, ?_⟩
  · intro a b
    simp [hasEdge_iff, getNeighbors, init]
  · intro a b hedge
    simp [hasEdge_iff, getNeighbors, init] at hedge
  · intro key
    simp [hasEdge_iff, getNeighbors, init, Table.has]

theorem Settled.no_edge {nodeId : Id} (h : graph.Settled nodeId)
    (hunknown : graph.hasNode nodeId ≠ true) (b : Id) : graph.hasEdge nodeId b ≠ true := by
  rw [Ne, hasEdge_iff, h.resolve_left hunknown]
  exact not_mem_nil

theorem Exact.addNode {nodeId : Id} (info : InfoPatch) (hexact : Exact graph edge)
    (hsettled : graph.Settled nodeId) : Exact (graph.addNode nodeId info) edge := by
  have hrow : ∀ a b, (graph.addNode nodeId info).hasEdge a b = true ↔ graph.hasEdge a b = true := by
    intro a b
    rw [addNode_hasEdge, and_iff_right_iff_imp]
    intro hedge
    by_cases hknown : graph.hasNode nodeId = true
    · exact .inl hknown
    refine .inr ?_
    rintro rfl
    exact hsettled.no_edge hknown b hedge
  refine ⟨?_, ?_, ?_⟩
  · intro a b
    rw [hrow, hexact.rows]
  · intro a b
    rw [hrow, hrow]
    exact hexact.symmetric a b
  · intro key
    simp only [addNode_metrics, hrow]
    exact hexact.metrics key

theorem Exact.removeNode {nodeId : Id} (hexact : Exact graph edge)
    (hsettled : graph.Settled nodeId) :
    Exact (graph.removeNode nodeId) (graph.edgesAfter edge (.removeNode nodeId)) := by
  have hafter : ∀ a b, graph.edgesAfter edge (.removeNode nodeId) a b ↔
      edge a b ∧ a ≠ nodeId ∧ b ≠ nodeId := fun _ _ => Iff.rfl
  by_cases hknown : graph.hasNode nodeId = true
  · have hrow := removeNode_row hknown (fun a ha _ => hexact.symmetric a nodeId ha)
    refine ⟨?_, ?_, ?_⟩
    · intro a b
      rw [hrow, hafter, hexact.rows]
    · intro a b hedge
      obtain ⟨hold, ha, hb⟩ := (hrow a b).mp hedge
      exact (hrow b a).mpr ⟨hexact.symmetric a b hold, hb, ha⟩
    · intro key
      rw [removeNode_metrics_has hknown, hexact.metrics]
      constructor
      · rintro ⟨⟨a, b, hedge, rfl⟩, hother⟩
        refine ⟨a, b, (hrow a b).mpr ⟨hedge, ?_, ?_⟩, rfl⟩
        · rintro rfl
          exact hother b hedge rfl
        · rintro rfl
          exact hother a (hexact.symmetric a b hedge) (edgeKey_comm a b)
      · rintro ⟨a, b, hedge, rfl⟩
        obtain ⟨hold, ha, hb⟩ := (hrow a b).mp hedge
        refine ⟨⟨a, b, hold, rfl⟩, fun c _ heq => ?_⟩
        rcases edgeKey_mem heq.symm with heq | heq
        · exact ha heq.symm
        · exact hb heq.symm
  · have hnone := hsettled.no_edge hknown
    have hsame : graph.removeNode nodeId = graph := by rw [NetworkGraph.removeNode, if_neg hknown]
    rw [hsame]
    refine ⟨?_, hexact.symmetric, hexact.metrics⟩
    intro a b
    rw [hafter, ← hexact.rows, iff_self_and]
    intro hedge
    constructor
    · rintro rfl
      exact hnone b hedge
    · rintro rfl
      exact hnone a (hexact.symmetric a b hedge)

theorem Exact.addEdgeWith (nodeA nodeB : Id) (metrics : Metrics) (hexact : Exact graph edge) :
    Exact (graph.addEdgeWith nodeA nodeB metrics)
      (graph.edgesAfter edge (.addEdge nodeA nodeB metrics)) := by
  have hrow := graph.addEdgeWith_hasEdge nodeA nodeB metrics
  refine ⟨?_, ?_, ?_⟩
  · intro a b
    rw [hrow, hexact.rows]
    rfl
  · intro a b hedge
    rw [hrow] at hedge ⊢
    exact hedge.imp (hexact.symmetric a b) fun hpair => hpair.symm.imp And.symm And.symm
  · intro key
    rw [addEdgeWith_metrics, hexact.metrics]
    constructor
    · rintro (rfl | ⟨a, b, hedge, rfl⟩)
      · exact ⟨nodeA, nodeB, (hrow _ _).mpr (.inr (.inl ⟨rfl, rfl⟩)), rfl⟩
      · exact ⟨a, b, (hrow a b).mpr (.inl hedge), rfl⟩
    · rintro ⟨a, b, hedge, rfl⟩
      rcases (hrow a b).mp hedge with hold | hpair
      · exact .inr ⟨a, b, hold, rfl⟩
      · exact .inl (edgeKey_of_pair hpair)

theorem Exact.removeEdge (nodeA nodeB : Id) (hexact : Exact graph edge) :
    Exact (graph.removeEdge nodeA nodeB)
      (graph.edgesAfter edge (.removeEdge nodeA nodeB)) := by
  have hrow : ∀ a b, (graph.removeEdge nodeA nodeB).hasEdge a b = true ↔
      graph.hasEdge a b = true ∧ ¬ IsPair nodeA nodeB a b := by
    intro a b
    rw [removeEdge_hasEdge, IsPair, not_or]
  refine ⟨?_, ?_, ?_⟩
  · intro a b
    rw [hrow, hexact.rows]
    rfl
  · intro a b hedge
    rw [hrow] at hedge ⊢
    exact ⟨hexact.symmetric a b hedge.1, fun hpair => hedge.2 (hpair.symm.imp And.symm And.symm)⟩
  · intro key
    rw [removeEdge_metrics, hexact.metrics]
    constructor
    · rintro ⟨hother, a, b, hedge, rfl⟩
      exact ⟨a, b, (hrow a b).mpr ⟨hedge, fun hpair => hother (edgeKey_of_pair hpair)⟩, rfl⟩
    · rintro ⟨a, b, hedge, rfl⟩
      obtain ⟨hold, hnot⟩ := (hrow a b).mp hedge
      exact ⟨fun heq => hnot (edgeKey_pair heq.symm), a, b, hold, rfl⟩

theorem Exact.updateEdgeMetrics {nodeA nodeB : Id} (metrics : Metrics)
    (hexact : Exact graph edge) (hedge : graph.hasEdge nodeA nodeB = true) :
    Exact (graph.updateEdgeMetrics nodeA nodeB metrics) edge := by
  refine ⟨hexact.rows, hexact.symmetric, ?_⟩
  intro key
  refine Iff.trans ?_ (hexact.metrics key)
  unfold NetworkGraph.updateEdgeMetrics
  rw [Table.has_set, Bool.or_eq_true, decide_eq_true_eq, or_iff_right_iff_imp]
  rintro rfl
  exact (hexact.metrics _).mpr ⟨nodeA, nodeB, hedge, rfl⟩

theorem apply_exact {op : GraphOp Id} (hexact : Exact graph edge) (hkeeps : graph.Keeps op) :
    Exact (graph.apply op) (graph.edgesAfter edge op) := by
  cases op with
  | addNode nodeId info => exact hexact.addNode info hkeeps
  | removeNode nodeId => exact hexact.removeNode hkeeps
  | addEdge nodeA nodeB metrics => exact hexact.addEdgeWith nodeA nodeB metrics
  | removeEdge nodeA nodeB => exact hexact.removeEdge nodeA nodeB
  | updateEdgeMetrics nodeA nodeB metrics => exact hexact.updateEdgeMetrics metrics hkeeps
  | updateFromTopology topology => exact updateFromTopology_exact hexact hkeeps

theorem run_exact {ops : List (GraphOp Id)} (hexact : Exact graph edge) (hkeep : graph.AllKeep ops) :
    Exact (graph.run ops) (graph.edgesOver edge ops) := by
  induction ops generalizing graph edge with
  | nil => exact hexact
  | cons op ops ih => exact ih (apply_exact hexact hkeep.1) hkeep.2

/-- The graph is exact after every run whose operations meet the condition. -/
theorem reached_graph_exact (ops : List (GraphOp Id)) (hkeep : AllKeep init ops) :
    Exact (run init ops) (edgesOver init (fun _ _ => False) ops) :=
  run_exact exact_init hkeep

end Runs

/-- A node that is written after an edge to it has an empty row, and is in the row of its
neighbour. -/
theorem late_node_loses_edge :
    (run init [.addEdge 1 2 {}, .addNode 1 {}] : NetworkGraph Nat).hasEdge 2 1 = true ∧
      (run init [.addEdge 1 2 {}, .addNode 1 {}] : NetworkGraph Nat).hasEdge 1 2 = false := by
  decide

/-- Two nodes with an edge; a snapshot has one of them, which is then removed. -/
theorem known_nodes_exact : Exact
    (run init [.addNode 1 {}, .addNode 2 {}, .addEdge 1 2 {},
      .updateFromTopology ⟨[(1, ⟨none, none, [2]⟩)], by decide⟩, .removeNode 1] :
        NetworkGraph Nat)
    (edgesOver init (fun _ _ => False) [.addNode 1 {}, .addNode 2 {}, .addEdge 1 2 {},
      .updateFromTopology ⟨[(1, ⟨none, none, [2]⟩)], by decide⟩, .removeNode 1]) := by
  refine reached_graph_exact _ ⟨.inr rfl, .inr rfl, trivial, ?_, .inl (by decide), trivial⟩
  intro before nodeId node after hsplit hunknown
  have hknown : nodeId = 1 := by
    have hin : (nodeId, node) ∈ [((1 : Nat), (⟨none, none, [2]⟩ : TopologyNode Nat))] := by
      dsimp only at hsplit
      rw [hsplit]
      simp
    simp only [List.mem_singleton, Prod.mk.injEq] at hin
    exact hin.1
  subst hknown
  exact absurd hunknown (by decide)

end NetworkGraph

end Meshpn.Routing
