import Meshpn.Routing.Merge
import Meshpn.Routing.Router

/-!
Snapshots against the node's own connections. A live peer that was in a snapshot
is marked, and a later snapshot without it removes it; a snapshot that has the
local node for the first time takes its edges away; an edge that a snapshot no
longer has stays, as long as both its ends do. Where a snapshot meets none of
these, the merge keeps every live connection, drops what only earlier snapshots
knew, leaves the snapshot's edges between the other nodes, and is idempotent.
-/

namespace Meshpn.Routing

open Meshpn.Lib List

/-- A snapshot that can be merged: no live connection is marked and absent, the local node
is known or reports its connections, no edge between two other nodes of the snapshot has
gone, and a node that is new and listed by one before it lists that one too. -/
structure Mergeable {Id : Type} [DecidableEq Id] (localNodeId : Id) (live : List Id)
    (graph : NetworkGraph Id) (topology : Topology Id) : Prop where
  peers : ∀ peerId ∈ live, graph.marked peerId = true → topology.has peerId = true
  home : live ≠ [] → graph.marked localNodeId = true → topology.has localNodeId = true
  reported : topology.has localNodeId = true → graph.hasNode localNodeId = false →
    ∀ peerId ∈ live, lists topology localNodeId peerId = true
  kept : ∀ a b, a ≠ localNodeId → b ≠ localNodeId → topology.has a = true →
    topology.has b = true → graph.hasEdge a b = true →
    lists topology a b = true ∨ lists topology b a = true
  listedBack : ∀ before a node after, topology.entries = before ++ (a, node) :: after →
    ∀ b ∈ node.connectedTo, topology.has b = true →
      graph.hasNode b = true ∨ b ∈ before.map Prod.fst ∨ b = a ∨ lists topology b a = true

def Connected {Id : Type} [DecidableEq Id] (localNodeId : Id) (live : List Id)
    (graph : NetworkGraph Id) : Prop :=
  ∀ peerId ∈ live, graph.hasNode peerId = true ∧ graph.hasEdge localNodeId peerId = true ∧
    graph.hasEdge peerId localNodeId = true

namespace NetworkGraph

variable {Id : Type} [DecidableEq Id] [LT Id] [DecidableLT Id] {graph : NetworkGraph Id}
  {topology : Topology Id}

variable {entries : List (Id × TopologyNode Id)}

theorem mergeEntries_get
    (hnodup : (entries.map Prod.fst).Nodup) (id : Id) :
    (entries.foldl (mergeNode topology) graph).nodes.get id =
      ((Table.find id entries).map TopologyNode.info).or (graph.nodes.get id) := by
  induction entries generalizing graph with
  | nil => rfl
  | cons entry rest ih =>
    rw [map_cons, nodup_cons] at hnodup
    rw [foldl_cons, ih hnodup.2, mergeNode_nodes, Table.get_set]
    by_cases heq : entry.1 = id
    · have hrest : Table.find id rest = none := by
        rw [← Option.not_isSome_iff_eq_none]
        intro hsome
        have hin : id ∈ rest.map Prod.fst :=
          (Table.has_iff_mem_keys ⟨rest, hnodup.2⟩).mp hsome
        exact hnodup.1 (heq ▸ hin)
      simp [Table.find, heq, hrest]
    · simp [Table.find, heq]

theorem mergeNodes_get (id : Id) : (graph.mergeNodes topology).nodes.get id =
    ((topology.get id).map TopologyNode.info).or (graph.nodes.get id) :=
  mergeEntries_get topology.nodup id

theorem mergeEntries_hasEdge
    (hentries : ∀ entry ∈ entries, entry ∈ topology.entries) {a b : Id}
    (h : (entries.foldl (mergeNode topology) graph).hasEdge a b = true) :
    graph.hasEdge a b = true ∨ lists topology a b = true ∨ lists topology b a = true := by
  induction entries generalizing graph with
  | nil => exact .inl h
  | cons entry rest ih =>
    have hentry := hentries entry mem_cons_self
    rcases ih (fun other hother => hentries other (mem_cons_of_mem _ hother)) h with hold | hnew
    · rcases (mergeNode_hasEdge hentry a b).mp hold with ⟨-, hedge⟩ | ⟨rfl, hasked⟩ | ⟨rfl, hasked⟩
      · exact .inl hedge
      · exact .inr (.inl (lists_of_mem hentry hasked.1))
      · exact .inr (.inr (lists_of_mem hentry hasked.1))
    · exact .inr hnew

theorem mergeEntries_connected {localNodeId : Id} {live : List Id}
    (hentries : ∀ entry ∈ entries, entry ∈ topology.entries)
    (hreported : topology.has localNodeId = true → graph.hasNode localNodeId = false →
      ∀ peerId ∈ live, lists topology localNodeId peerId = true)
    (hconnected : Connected localNodeId live graph) :
    Connected localNodeId live (entries.foldl (mergeNode topology) graph) := by
  induction entries generalizing graph with
  | nil => exact hconnected
  | cons entry rest ih =>
    have hentry := hentries entry mem_cons_self
    refine ih (fun other hother => hentries other (mem_cons_of_mem _ hother)) ?_ ?_
    · intro hhas hnone
      refine hreported hhas ?_
      rw [← Bool.not_eq_true] at hnone ⊢
      exact fun h => hnone ((mergeNode_hasNode entry localNodeId).mpr (.inr h))
    · intro peerId hpeer
      obtain ⟨hnode, hforth, hback⟩ := hconnected peerId hpeer
      refine ⟨(mergeNode_hasNode entry peerId).mpr (.inr hnode), ?_, ?_⟩
      · rw [mergeNode_hasEdge hentry]
        -- the row of the local node is emptied when the graph does not know it
        by_cases hkeep : graph.hasNode entry.1 = true ∨ localNodeId ≠ entry.1
        · exact .inl ⟨hkeep, hforth⟩
        rw [not_or, Bool.not_eq_true, not_ne_iff] at hkeep
        obtain ⟨hunknown, rfl⟩ := hkeep
        refine .inr (.inl ⟨rfl, ?_, .inl hnode⟩)
        have hlists := hreported (has_of_mem hentry) hunknown peerId hpeer
        rw [lists, Table.get_of_mem entry.2 hentry] at hlists
        simpa using hlists
      · rw [mergeNode_hasEdge hentry]
        refine .inl ⟨?_, hback⟩
        by_cases heq : peerId = entry.1
        · exact .inl (heq ▸ hnode)
        · exact .inr heq

/-- What the snapshot's nodes ask for, kept in both directions while the loop goes on. -/
def Linked (topology : Topology Id) (known : Id → Prop) (entries : List (Id × TopologyNode Id))
    (graph : NetworkGraph Id) : Prop :=
  ∀ entry ∈ entries, graph.hasNode entry.1 = true ∧ ∀ b ∈ entry.2.connectedTo,
    known b ∨ topology.has b = true →
      graph.hasEdge entry.1 b = true ∧ graph.hasEdge b entry.1 = true ∧
        graph.metrics.has (edgeKey entry.1 b) = true

/-- One more node of the snapshot. A row it empties is one of a node that was listed before
and lists back. -/
theorem mergeNode_linked {original : NetworkGraph Id} {done : List (Id × TopologyNode Id)}
    {entry : Id × TopologyNode Id} (hentry : entry ∈ topology.entries)
    (hdone : ∀ earlier ∈ done, earlier ∈ topology.entries ∧ earlier.1 ≠ entry.1)
    (hgrown : ∀ id, original.hasNode id = true → graph.hasNode id = true)
    (hmutual : ∀ earlier ∈ done, entry.1 ∈ earlier.2.connectedTo →
      graph.hasNode entry.1 = true ∨ lists topology entry.1 earlier.1 = true)
    (hlinked : Linked topology (fun id => original.hasNode id = true) done graph) :
    Linked topology (fun id => original.hasNode id = true) (done ++ [entry])
      (mergeNode topology graph entry) := by
  intro other hother
  refine ⟨?_, ?_⟩
  · rw [mergeNode_hasNode]
    rcases mem_append.mp hother with h | h
    · exact .inr (hlinked other h).1
    · exact .inl (by rw [mem_singleton.mp h])
  intro b hb hknown
  simp only [mergeNode_hasEdge hentry]
  rcases mem_append.mp hother with hearlier | hlast
  · obtain ⟨hin, hne⟩ := hdone other hearlier
    obtain ⟨hforth, hback, hmetrics⟩ := (hlinked other hearlier).2 b hb hknown
    refine ⟨.inl ⟨.inr hne, hforth⟩, ?_, (mergeNode_metrics hentry _).mpr (.inl hmetrics)⟩
    by_cases hkeep : graph.hasNode entry.1 = true ∨ b ≠ entry.1
    · exact .inl ⟨hkeep, hback⟩
    rw [not_or, not_ne_iff] at hkeep
    obtain ⟨hunknown, rfl⟩ := hkeep
    refine .inr (.inl ⟨rfl, ?_, .inr (has_of_mem hin)⟩)
    rcases hmutual other hearlier hb with h | hlists
    · exact absurd h hunknown
    · rw [lists, Table.get_of_mem entry.2 hentry] at hlists
      simpa using hlists
  · obtain rfl := mem_singleton.mp hlast
    have hasked : Asked topology graph other.2.connectedTo b := ⟨hb, hknown.imp_left (hgrown b)⟩
    exact ⟨.inr (.inl ⟨rfl, hasked⟩), .inr (.inr ⟨rfl, hasked⟩),
      (mergeNode_metrics hentry _).mpr (.inr ⟨b, hasked, rfl⟩)⟩

theorem mergeEntries_linked {original current : NetworkGraph Id}
    (done : List (Id × TopologyNode Id)) {rest : List (Id × TopologyNode Id)}
    (hsplit : topology.entries = done ++ rest)
    (hlistedBack : ∀ before a node after, topology.entries = before ++ (a, node) :: after →
      ∀ b ∈ node.connectedTo, topology.has b = true →
        original.hasNode b = true ∨ b ∈ before.map Prod.fst ∨ b = a ∨ lists topology b a = true)
    (hgrown : ∀ id, original.hasNode id = true → current.hasNode id = true)
    (hlinked : Linked topology (fun id => original.hasNode id = true) done current) :
    Linked topology (fun id => original.hasNode id = true) topology.entries
      (rest.foldl (mergeNode topology) current) := by
  induction rest generalizing done current with
  | nil =>
    rw [hsplit, append_nil]
    exact hlinked
  | cons entry rest ih =>
    have hentry : entry ∈ topology.entries := by simp [hsplit]
    have hnodup := topology.nodup
    rw [hsplit, map_append, map_cons] at hnodup
    refine ih (done ++ [entry]) (by rw [hsplit]; simp) ?_ ?_
    · intro id hid
      exact (mergeNode_hasNode entry id).mpr (.inr (hgrown id hid))
    · refine mergeNode_linked hentry ?_ hgrown ?_ hlinked
      · intro earlier hearlier
        refine ⟨by rw [hsplit]; exact mem_append_left _ hearlier, ?_⟩
        intro heq
        exact (disjoint_of_nodup_append hnodup) (mem_map_of_mem hearlier)
          (heq ▸ mem_cons_self)
      · intro earlier hearlier hlisted
        obtain ⟨before, after, rfl⟩ := append_of_mem hearlier
        rcases hlistedBack before earlier.1 earlier.2 (after ++ entry :: rest) (by rw [hsplit]; simp)
          entry.1 hlisted (has_of_mem hentry) with h | h | h | h
        · exact .inl (hgrown _ h)
        · obtain ⟨same, hsame, heq⟩ := mem_map.mp h
          exact .inl (heq ▸ (hlinked same (mem_append_left _ hsame)).1)
        · exact .inl (h ▸ (hlinked earlier hearlier).1)
        · exact .inr h

section Update

variable (graph) (topology)

theorem mergeNodes_marked (id : Id) : (graph.mergeNodes topology).marked id =
    (topology.has id || graph.marked id) := by
  rw [marked, mergeNodes_get, Table.has, marked]
  cases topology.get id <;> simp [TopologyNode.info]

theorem mem_stale_mergeNodes (id : Id) : id ∈ (graph.mergeNodes topology).stale topology ↔
    graph.marked id = true ∧ topology.has id = false := by
  rw [mem_stale, mergeNodes_marked]
  cases topology.has id <;> simp

theorem updateFromTopology_get (id : Id) : (graph.updateFromTopology topology).nodes.get id =
    if graph.marked id = true ∧ topology.has id = false then none
    else ((topology.get id).map TopologyNode.info).or (graph.nodes.get id) := by
  rw [updateFromTopology, prune, removeAll_get, mergeNodes_get]
  simp only [mem_stale_mergeNodes]

theorem updateFromTopology_hasNode (id : Id) :
    (graph.updateFromTopology topology).hasNode id = true ↔
      topology.has id = true ∨ graph.hasNode id = true ∧ graph.marked id = false := by
  rw [hasNode, Table.has, updateFromTopology_get]
  split
  case isTrue h => simp [h.1, h.2]
  rename_i h
  rw [Option.isSome_or, Option.isSome_map, Bool.or_eq_true]
  change topology.has id = true ∨ graph.hasNode id = true ↔ _
  cases hhas : topology.has id with
  | true => simp
  | false =>
    have hmarked : graph.marked id = false := by simpa [hhas] using h
    simp [hmarked]

end Update

theorem not_mem_stale {id : Id} (h : topology.has id = true ∨ graph.marked id = false) :
    id ∉ (graph.mergeNodes topology).stale topology := by
  rw [mem_stale_mergeNodes]
  rintro ⟨hmarked, habsent⟩
  rcases h with h | h
  · rw [habsent] at h
    cases h
  · rw [hmarked] at h
    cases h

theorem updateFromTopology_hasEdge {a b : Id}
    (ha : topology.has a = true ∨ graph.marked a = false)
    (hb : topology.has b = true ∨ graph.marked b = false) :
    (graph.updateFromTopology topology).hasEdge a b = true ↔
      (graph.mergeNodes topology).hasEdge a b = true :=
  removeAll_hasEdge (not_mem_stale ha) (not_mem_stale hb)

section Merged

variable {localNodeId : Id} {live : List Id}

theorem updateFromTopology_connected (hmergeable : Mergeable localNodeId live graph topology)
    (hconnected : Connected localNodeId live graph) :
    Connected localNodeId live (graph.updateFromTopology topology) := by
  intro peerId hpeer
  have hmerged : Connected localNodeId live (graph.mergeNodes topology) :=
    mergeEntries_connected (fun _ h => h) hmergeable.reported hconnected
  obtain ⟨-, hforth, hback⟩ := hmerged peerId hpeer
  have hhome : topology.has localNodeId = true ∨ graph.marked localNodeId = false := by
    cases hmarked : graph.marked localNodeId with
    | false => exact .inr rfl
    | true => exact .inl (hmergeable.home (ne_nil_of_mem hpeer) hmarked)
  have hkept : topology.has peerId = true ∨ graph.marked peerId = false := by
    cases hmarked : graph.marked peerId with
    | false => exact .inr rfl
    | true => exact .inl (hmergeable.peers peerId hpeer hmarked)
  refine ⟨?_, (updateFromTopology_hasEdge hhome hkept).mpr hforth,
    (updateFromTopology_hasEdge hkept hhome).mpr hback⟩
  rw [updateFromTopology_hasNode]
  exact hkept.imp_right (fun h => ⟨(hconnected peerId hpeer).1, h⟩)

theorem mergeNodes_linked (hmergeable : Mergeable localNodeId live graph topology) :
    Linked topology (fun id => graph.hasNode id = true) topology.entries
      (graph.mergeNodes topology) := by
  refine mergeEntries_linked [] rfl hmergeable.listedBack (fun _ h => h) ?_
  intro entry hentry
  cases hentry

theorem updateFromTopology_edges (hmergeable : Mergeable localNodeId live graph topology)
    {a b : Id} (ha : topology.has a = true) (hb : topology.has b = true)
    (haway : a ≠ localNodeId) (hbway : b ≠ localNodeId) :
    (graph.updateFromTopology topology).hasEdge a b = true ↔
      lists topology a b = true ∨ lists topology b a = true := by
  rw [updateFromTopology_hasEdge (.inl ha) (.inl hb)]
  have hlinked := mergeNodes_linked hmergeable
  have hasked : ∀ x y, topology.has y = true → lists topology x y = true →
      (graph.mergeNodes topology).hasEdge x y = true ∧
        (graph.mergeNodes topology).hasEdge y x = true := by
    intro x y hy hlists
    obtain ⟨node, hnode, hin⟩ := (Option.any_eq_true _ _).mp hlists
    obtain ⟨hforth, hback, -⟩ := (hlinked (x, node) (Table.mem_of_get hnode)).2 y (by simpa using hin)
      (.inr hy)
    exact ⟨hforth, hback⟩
  constructor
  · intro h
    rcases mergeEntries_hasEdge (fun _ h => h) h with hold | hnew
    · exact hmergeable.kept a b haway hbway ha hb hold
    · exact hnew
  · rintro (h | h)
    · exact (hasked a b hb h).1
    · exact (hasked b a ha h).2

theorem addEdge_of_hasEdge {a b : Id} (hforth : graph.hasEdge a b = true)
    (hback : graph.hasEdge b a = true) (hmetrics : graph.metrics.has (edgeKey a b) = true) :
    graph.addEdge a b = graph := by
  have hrow : ∀ x y, graph.hasEdge x y = true → graph.addRow x = graph := by
    intro x y hedge
    rw [hasEdge_iff, getNeighbors] at hedge
    have hhas : graph.edges.has x = true := by
      rw [Table.has]
      cases hget : graph.edges.get x with
      | some row => rfl
      | none => simp [hget] at hedge
    rw [addRow, if_pos hhas]
  have hlink : ∀ x y, graph.hasEdge x y = true → graph.link x y = graph := by
    intro x y hedge
    rw [link, if_pos ((graph.hasEdge_iff x y).mp hedge)]
  obtain ⟨metrics, hget⟩ := Option.isSome_iff_exists.mp hmetrics
  rw [addEdge, hrow a b hforth, hrow b a hback, hlink a b hforth, hlink b a hback,
    updateEdgeMetrics]
  have hsame : ((graph.getEdgeMetrics a b).getD {}).merge {} = metrics := by
    rw [getEdgeMetrics, hget]
    rfl
  rw [hsame, Table.set_of_get hget]

/-- A graph that has all that a snapshot asks for. -/
structure Absorbed (graph : NetworkGraph Id) (topology : Topology Id) : Prop where
  nodes : ∀ entry ∈ topology.entries, graph.nodes.get entry.1 = some entry.2.info
  linked : Linked topology (fun id => graph.hasNode id = true) topology.entries graph
  pruned : ∀ id, graph.marked id = true → topology.has id = true

theorem Absorbed.connectListed (habsorbed : Absorbed graph topology)
    {entry : Id × TopologyNode Id} (hentry : entry ∈ topology.entries) {connectedTo : List Id}
    (hlisted : ∀ b ∈ connectedTo, b ∈ entry.2.connectedTo) :
    graph.connectListed topology entry.1 connectedTo = graph := by
  induction connectedTo with
  | nil => rfl
  | cons first rest ih =>
    rw [connectListed_cons]
    have hrest := ih (fun b hb => hlisted b (mem_cons_of_mem _ hb))
    split
    case isTrue hknown =>
      obtain ⟨hforth, hback, hmetrics⟩ := (habsorbed.linked entry hentry).2 first
        (hlisted first mem_cons_self) (by simpa using hknown)
      rw [addEdge_of_hasEdge hforth hback hmetrics]
      exact hrest
    case isFalse => exact hrest

theorem Absorbed.mergeNode (habsorbed : Absorbed graph topology)
    {entry : Id × TopologyNode Id} (hentry : entry ∈ topology.entries) :
    NetworkGraph.mergeNode topology graph entry = graph := by
  have hget := habsorbed.nodes entry hentry
  have hsame : graph.addNode entry.1 entry.2.patch = graph := by
    have hnodes := graph.addNode_patch_nodes entry.1 entry.2
    rw [Table.set_of_get hget] at hnodes
    unfold addNode at hnodes ⊢
    rw [hget] at hnodes ⊢
    dsimp only at hnodes ⊢
    rw [hnodes]
  rw [NetworkGraph.mergeNode, hsame]
  exact habsorbed.connectListed hentry (fun _ h => h)

theorem Absorbed.update (habsorbed : Absorbed graph topology) :
    graph.updateFromTopology topology = graph := by
  have hmerge : ∀ entries : List (Id × TopologyNode Id),
      (∀ entry ∈ entries, entry ∈ topology.entries) →
      entries.foldl (NetworkGraph.mergeNode topology) graph = graph := by
    intro entries
    induction entries with
    | nil => exact fun _ => rfl
    | cons entry rest ih =>
      intro hentries
      rw [foldl_cons, habsorbed.mergeNode (hentries entry mem_cons_self)]
      exact ih (fun other hother => hentries other (mem_cons_of_mem _ hother))
  have hstale : graph.stale topology = [] := by
    rw [eq_nil_iff_forall_not_mem]
    intro id hid
    obtain ⟨hmarked, habsent⟩ := mem_stale.mp hid
    rw [habsorbed.pruned id hmarked] at habsent
    cases habsent
  rw [updateFromTopology, mergeNodes, hmerge topology.entries (fun _ h => h), prune, hstale]
  rfl

theorem updateFromTopology_absorbed (hmergeable : Mergeable localNodeId live graph topology) :
    Absorbed (graph.updateFromTopology topology) topology where
  nodes := by
    intro entry hentry
    have hhas := has_of_mem hentry
    rw [updateFromTopology_get, if_neg (by simp [hhas]), Table.get_of_mem entry.2 hentry]
    rfl
  linked := by
    intro entry hentry
    have hentryHas := has_of_mem hentry
    have hlinked := (mergeNodes_linked hmergeable entry hentry).2
    refine ⟨(updateFromTopology_hasNode graph topology entry.1).mpr (.inl hentryHas), ?_⟩
    intro b hb hknown
    -- what is there after the merge was there before it or is in the snapshot
    have hb' : topology.has b = true ∨ graph.hasNode b = true ∧ graph.marked b = false := by
      rcases hknown with h | h
      · exact (updateFromTopology_hasNode graph topology b).mp h
      · exact .inl h
    have hleft : topology.has b = true ∨ graph.marked b = false := hb'.imp_right (·.2)
    obtain ⟨hforth, hback, hmetrics⟩ := hlinked b hb (hb'.symm.imp_left (·.1))
    refine ⟨(updateFromTopology_hasEdge (.inl hentryHas) hleft).mpr hforth,
      (updateFromTopology_hasEdge hleft (.inl hentryHas)).mpr hback, ?_⟩
    rw [Table.has, updateFromTopology, prune, removeAll_metrics
      (not_mem_stale (.inl hentryHas)) (not_mem_stale hleft)]
    exact hmetrics
  pruned := by
    intro id hmarked
    rw [marked, updateFromTopology_get] at hmarked
    cases hhas : topology.has id with
    | true => rfl
    | false =>
      have hnone : topology.get id = none := by simpa [Table.has] using hhas
      rw [hnone, hhas] at hmarked
      split at hmarked
      case isTrue => cases hmarked
      case isFalse hunmarked =>
        exact absurd ⟨hmarked, rfl⟩ hunmarked

theorem updateFromTopology_twice (hmergeable : Mergeable localNodeId live graph topology) :
    (graph.updateFromTopology topology).updateFromTopology topology =
      graph.updateFromTopology topology :=
  (updateFromTopology_absorbed hmergeable).update

end Merged

end NetworkGraph

/-- The peers that are connected, and all that ever were. -/
structure LocalPeers (Id : Type) where
  live : List Id
  introduced : List Id

section Runs

variable {Id : Type} [DecidableEq Id]

def LocalPeers.after (peers : LocalPeers Id) : RouterEvent Id → LocalPeers Id
  | .connect peerId _ => ⟨peerId :: peers.live, peerId :: peers.introduced⟩
  | .disconnect peerId => { peers with live := peers.live.filter fun id => id ≠ peerId }
  | _ => peers

/-- The local node does not become its own peer while it has others, and snapshots can be
merged. -/
def Orderly (config : RouterConfig Id) (peers : LocalPeers Id) (graph : NetworkGraph Id) :
    RouterEvent Id → Prop
  | .connect peerId _ => peerId = config.localNodeId → graph.hasNode config.localNodeId = false →
    peers.live = []
  | .topology topology => Mergeable config.localNodeId peers.live graph topology
  | _ => True

/-- The live connections are in the graph, and who is neither marked nor was a peer is not. -/
structure Accounted (config : RouterConfig Id) (peers : LocalPeers Id) (graph : NetworkGraph Id) :
    Prop where
  connected : Connected config.localNodeId peers.live graph
  learned : ∀ id, graph.hasNode id = true → graph.marked id = true ∨ id ∈ peers.introduced

variable [LT Id] [DecidableLT Id] {config : RouterConfig Id} {peers : LocalPeers Id}
  {graph : NetworkGraph Id}

/-- The graph after an event. -/
def graphAfter (config : RouterConfig Id) (graph : NetworkGraph Id) :
    RouterEvent Id → NetworkGraph Id
  | .connect peerId peerInfo =>
    (graph.addNode peerId peerInfo).addEdge config.localNodeId peerId
  | .disconnect peerId => graph.removeEdge config.localNodeId peerId
  | .metrics peerId metrics => graph.updateEdgeMetrics config.localNodeId peerId metrics
  | .topology topology => graph.updateFromTopology topology
  | _ => graph

theorem step_graph (fuel : Nat) (config : RouterConfig Id) (router : MeshRouter Id)
    (event : RouterEvent Id) :
    (router.step fuel config event).graph = graphAfter config router.graph event := by
  cases event with
  | connect => rfl
  | disconnect peerId =>
    change (router.removeLocalConnection fuel config peerId).graph = _
    unfold MeshRouter.removeLocalConnection MeshRouter.handlePeerDisconnectedRoutes
    split <;> rfl
  | metrics => rfl
  | topology => rfl
  | tick => rfl
  | find preferredExitNode =>
    have hany : (router.findAny fuel config).2.graph = router.graph := by
      unfold MeshRouter.findAny
      split <;> rfl
    change (router.findRouteToExit fuel config preferredExitNode).2.graph = router.graph
    unfold MeshRouter.findRouteToExit
    dsimp only
    split
    · rfl
    split
    · exact hany
    · split
      · rfl
      · exact hany

omit [LT Id] [DecidableLT Id] in
theorem addNode_marked {peerId id : Id} (hne : id ≠ peerId) (info : InfoPatch) :
    (graph.addNode peerId info).marked id = graph.marked id := by
  unfold NetworkGraph.addNode NetworkGraph.marked
  split <;> simp [Table.get_set, Ne.symm hne]

theorem connect_accounted (haccounted : Accounted config peers graph) {peerId : Id}
    (horderly : peerId = config.localNodeId → graph.hasNode config.localNodeId = false →
      peers.live = []) (info : InfoPatch) :
    Accounted config ⟨peerId :: peers.live, peerId :: peers.introduced⟩
      ((graph.addNode peerId info).addEdge config.localNodeId peerId) where
  connected := by
    intro other hother
    rw [NetworkGraph.hasNode, NetworkGraph.addEdge_nodes, NetworkGraph.addEdge_hasEdge,
      NetworkGraph.addEdge_hasEdge]
    change (graph.addNode peerId info).hasNode other = true ∧ _
    rw [NetworkGraph.addNode_hasNode, NetworkGraph.addNode_hasEdge, NetworkGraph.addNode_hasEdge]
    rcases mem_cons.mp hother with rfl | hlive
    · exact ⟨.inl rfl, .inr (.inl ⟨rfl, rfl⟩), .inr (.inr ⟨rfl, rfl⟩)⟩
    obtain ⟨hnode, hforth, hback⟩ := haccounted.connected other hlive
    refine ⟨.inr hnode, .inl ⟨?_, hforth⟩, .inl ⟨?_, hback⟩⟩
    · by_cases heq : config.localNodeId = peerId
      · left
        by_contra hunknown
        rw [← heq, Bool.not_eq_true] at hunknown
        rw [horderly heq.symm hunknown] at hlive
        cases hlive
      · exact .inr heq
    · by_cases heq : other = peerId
      · exact .inl (heq ▸ hnode)
      · exact .inr heq
  learned := by
    intro id hid
    rw [NetworkGraph.hasNode, NetworkGraph.addEdge_nodes] at hid
    rw [NetworkGraph.marked, NetworkGraph.addEdge_nodes]
    change (graph.addNode peerId info).marked id = true ∨ _
    by_cases heq : id = peerId
    · exact .inr (heq ▸ mem_cons_self)
    rcases (graph.addNode_hasNode peerId id info).mp hid with h | h
    · exact absurd h heq
    · rw [addNode_marked heq]
      exact (haccounted.learned id h).imp_right (mem_cons_of_mem _)

theorem disconnect_accounted (haccounted : Accounted config peers graph) (peerId : Id) :
    Accounted config { peers with live := peers.live.filter fun id => id ≠ peerId }
      (graph.removeEdge config.localNodeId peerId) where
  connected := by
    intro other hother
    obtain ⟨hlive, hne⟩ := mem_filter.mp hother
    have hne : other ≠ peerId := by simpa using hne
    obtain ⟨hnode, hforth, hback⟩ := haccounted.connected other hlive
    rw [NetworkGraph.hasNode, NetworkGraph.removeEdge_nodes, NetworkGraph.removeEdge_hasEdge,
      NetworkGraph.removeEdge_hasEdge]
    refine ⟨hnode, ⟨hforth, fun h => hne h.2, ?_⟩, ⟨hback, ?_, fun h => hne h.1⟩⟩
    · rintro ⟨hhome, heq⟩
      exact hne (heq.trans hhome)
    · rintro ⟨heq, hhome⟩
      exact hne (heq.trans hhome)
  learned := by
    intro id hid
    rw [NetworkGraph.hasNode, NetworkGraph.removeEdge_nodes] at hid
    rw [NetworkGraph.marked, NetworkGraph.removeEdge_nodes]
    exact haccounted.learned id hid

theorem topology_accounted (haccounted : Accounted config peers graph) {topology : Topology Id}
    (hmergeable : Mergeable config.localNodeId peers.live graph topology) :
    Accounted config peers (graph.updateFromTopology topology) where
  connected := NetworkGraph.updateFromTopology_connected hmergeable haccounted.connected
  learned := by
    intro id hid
    rcases (graph.updateFromTopology_hasNode topology id).mp hid with hhas | ⟨hnode, hunmarked⟩
    · left
      obtain ⟨node, hnode⟩ := Option.isSome_iff_exists.mp hhas
      rw [NetworkGraph.marked, NetworkGraph.updateFromTopology_get, if_neg (by simp [hhas]), hnode]
      rfl
    · rcases haccounted.learned id hnode with h | h
      · rw [hunmarked] at h
        cases h
      · exact .inr h

theorem step_accounted (haccounted : Accounted config peers graph) {event : RouterEvent Id}
    (horderly : Orderly config peers graph event) :
    Accounted config (peers.after event) (graphAfter config graph event) := by
  cases event with
  | connect peerId info => exact connect_accounted haccounted horderly info
  | disconnect peerId => exact disconnect_accounted haccounted peerId
  | metrics => exact ⟨haccounted.connected, haccounted.learned⟩
  | topology topology => exact topology_accounted haccounted horderly
  | tick => exact haccounted
  | find => exact haccounted

/-- Every event of a run is orderly. -/
def AllOrderly (fuel : Nat) (config : RouterConfig Id) :
    MeshRouter Id → LocalPeers Id → List (RouterEvent Id) → Prop
  | _, _, [] => True
  | router, peers, event :: rest => Orderly config peers router.graph event ∧
    AllOrderly fuel config (router.step fuel config event) (peers.after event) rest

theorem run_accounted {fuel : Nat} {router : MeshRouter Id} {events : List (RouterEvent Id)}
    (haccounted : Accounted config peers router.graph)
    (horderly : AllOrderly fuel config router peers events) :
    Accounted config (events.foldl LocalPeers.after peers)
      (router.run fuel config events).graph := by
  induction events generalizing router peers with
  | nil => exact haccounted
  | cons event rest ih =>
    refine ih ?_ horderly.2
    rw [step_graph]
    exact step_accounted haccounted horderly.1

end Runs

/-- In every state of a run with orderly connections and snapshots, merging a snapshot that
can be merged keeps every live connection, drops every node that was never a peer and is not
in the snapshot, leaves exactly the snapshot's edges between its other nodes, and changes
nothing the second time. -/
theorem topology_merge_faithful {Id : Type} [DecidableEq Id] [LT Id] [DecidableLT Id] (fuel : Nat)
    (config : RouterConfig Id) (events : List (RouterEvent Id)) (graph : NetworkGraph Id)
    (hgraph : graph = (MeshRouter.init.run fuel config events).graph) (peers : LocalPeers Id)
    (hpeers : peers = events.foldl LocalPeers.after ⟨[], []⟩)
    (horderly : AllOrderly fuel config MeshRouter.init ⟨[], []⟩ events) (topology : Topology Id)
    (hmergeable : Mergeable config.localNodeId peers.live graph topology)
    (merged : NetworkGraph Id) (hmerged : merged = graph.updateFromTopology topology) :
    (∀ peerId ∈ peers.live, merged.hasNode peerId = true ∧
        merged.hasEdge config.localNodeId peerId = true ∧
        merged.hasEdge peerId config.localNodeId = true) ∧
      (∀ id, id ∉ peers.introduced → topology.has id = false → merged.hasNode id = false) ∧
      (∀ a b, topology.has a = true → topology.has b = true → a ≠ config.localNodeId →
        b ≠ config.localNodeId → (merged.hasEdge a b = true ↔
          lists topology a b = true ∨ lists topology b a = true)) ∧
      merged.updateFromTopology topology = merged := by
  have hinit : Accounted config ⟨[], []⟩ (MeshRouter.init : MeshRouter Id).graph :=
    ⟨fun _ h => absurd h (by simp), fun _ h => absurd h (by simp [NetworkGraph.hasNode,
      Table.has, MeshRouter.init, NetworkGraph.init])⟩
  have haccounted : Accounted config peers graph := by
    rw [hgraph, hpeers]
    exact run_accounted hinit horderly
  have hafter := topology_accounted haccounted hmergeable
  subst hmerged
  refine ⟨hafter.connected, ?_, ?_, NetworkGraph.updateFromTopology_twice hmergeable⟩
  · intro id hunknown habsent
    rw [← Bool.not_eq_true, NetworkGraph.updateFromTopology_hasNode]
    rintro (h | ⟨hnode, hunmarked⟩)
    · rw [habsent] at h
      cases h
    · rcases haccounted.learned id hnode with h | h
      · rw [hunmarked] at h
        cases h
      · exact hunknown h
  · intro a b ha hb haway hbway
    exact NetworkGraph.updateFromTopology_edges hmergeable ha hb haway hbway

def rowSnapshot : Topology Nat :=
  ⟨[(1, ⟨some .client, none, [2]⟩), (2, ⟨some .relay, none, [1, 3]⟩), (3, ⟨some .exit, none, [2]⟩)],
    by decide⟩

/-- Node 1 is connected to node 2 and gets the snapshot: both ends of its connection stay,
and the snapshot's other edge is there. -/
theorem row_merge_faithful :
    (2 ∈ ([.connect 2 {}].foldl LocalPeers.after ⟨[], []⟩ : LocalPeers Nat).live) ∧
      (((MeshRouter.init.run 9 sampleRouter [.connect 2 {}]).graph.updateFromTopology
        rowSnapshot).hasEdge 2 3 = true ↔
          lists rowSnapshot 2 3 = true ∨ lists rowSnapshot 3 2 = true) := by
  have hkeys : ∀ a, rowSnapshot.has a = true → a ∈ [1, 2, 3] := by
    intro a h
    exact (Table.has_iff_mem_keys _).mp h
  have hedges : ∀ a ∈ [1, 2, 3], ∀ b ∈ [1, 2, 3], a ≠ 1 → b ≠ 1 →
      (MeshRouter.init.run 9 sampleRouter [.connect 2 {}]).graph.hasEdge a b = true →
      lists rowSnapshot a b = true ∨ lists rowSnapshot b a = true := by decide
  have hback : ∀ entry ∈ rowSnapshot.entries, ∀ b ∈ entry.2.connectedTo,
      lists rowSnapshot b entry.1 = true := by decide
  have hmergeable : Mergeable sampleRouter.localNodeId
      ([.connect 2 {}].foldl LocalPeers.after ⟨[], []⟩ : LocalPeers Nat).live
      (MeshRouter.init.run 9 sampleRouter [.connect 2 {}]).graph rowSnapshot := by
    refine ⟨by decide, fun _ _ => rfl, fun _ _ => by decide, ?_, ?_⟩
    · intro a b haway hbway ha hb
      exact hedges a (hkeys a ha) b (hkeys b hb) haway hbway
    · intro before a node after hsplit b hb _
      exact .inr (.inr (.inr (hback (a, node) (by rw [hsplit]; simp) b hb)))
  refine ⟨by decide, (topology_merge_faithful 9 sampleRouter [.connect 2 {}] _ rfl _ rfl
    ⟨fun h => absurd h (by decide), trivial⟩ rowSnapshot hmergeable _ rfl).2.2.1 2 3 rfl rfl (by decide)
      (by decide)⟩

/-- A snapshot of the same nodes without the edge between 2 and 3, and one without node 2. -/
def partedSnapshot : Topology Nat :=
  ⟨[(1, ⟨some .client, none, [2]⟩), (2, ⟨some .relay, none, [1]⟩), (3, ⟨some .exit, none, []⟩)],
    by decide⟩

def shrunkSnapshot : Topology Nat := ⟨[(1, ⟨some .client, none, []⟩)], List.nodup_singleton 1⟩

/-- A live peer that was in a snapshot is removed by the next one without it; a live edge is
lost to a first snapshot that does not report it; and an edge that is gone from the
snapshot stays. -/
theorem snapshots_break_connections :
    2 ∈ ([.connect 2 {}, .topology rowSnapshot, .topology shrunkSnapshot].foldl LocalPeers.after
        ⟨[], []⟩ : LocalPeers Nat).live ∧
      (MeshRouter.init.run 9 sampleRouter
        [.connect 2 {}, .topology rowSnapshot, .topology shrunkSnapshot]).graph.hasNode 2 = false ∧
      (MeshRouter.init.run 9 sampleRouter
        [.connect 2 {}, .topology shrunkSnapshot]).graph.hasEdge 1 2 = false ∧
      lists partedSnapshot 2 3 = false ∧ lists partedSnapshot 3 2 = false ∧
      (MeshRouter.init.run 9 sampleRouter
        [.topology rowSnapshot, .topology partedSnapshot]).graph.hasEdge 2 3 = true := by
  decide

end Meshpn.Routing
