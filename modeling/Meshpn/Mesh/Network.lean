import Meshpn.Mesh.Node

/-!
The journey of one onion packet. A network is its nodes and the messages in
flight; a step lets one message arrive. What each node found in its layer and
what reached an exit is recorded.
-/

namespace Meshpn.Mesh

open Meshpn.Lib List

structure Network (Key : Type) where
  nodes : Id → Node Key
  /-- Sender, receiver and bytes of each message. -/
  flight : List (Id × Id × Bytes)
  peeled : List (Id × RxResult)
  /-- Exit node, source node and payload of each packet that reached an exit. -/
  exits : List (Id × Id × Bytes)

def Effect.sent (sender : Id) : Effect → Option (Id × Id × Bytes)
  | .send peerId serialized => some (sender, peerId, serialized)
  | _ => none

def Effect.exited (node : Id) : Effect → Option (Id × Id × Bytes)
  | .exit srcNode payload => some (node, srcNode, payload)
  | _ => none

variable {Key Nonce : Type} (aead : Aead Key Nonce) (reader : Reader)

/-- A quiet network of these nodes in which `src` sends one payload. -/
def Network.launch (nodes : Id → Node Key) (nonces : Nat → Nonce) (flowId src : Id)
    (payload : Bytes) (route : List Id) (exitNode : Id) : Network Key :=
  { nodes
    flight := ((nodes src).sendThroughMesh aead nonces flowId payload route exitNode).toList.map
      (src, ·)
    peeled := []
    exits := [] }

/-- The first message in flight arrives. -/
def Network.step (net : Network Key) : Network Key :=
  match net.flight with
  | [] => net
  | (sender, receiver, data) :: flight =>
    let outcome := (net.nodes receiver).processIncomingMessage aead reader sender data
    { nodes := Function.update net.nodes receiver outcome.node
      flight := flight ++ outcome.effects.filterMap (Effect.sent receiver)
      peeled := net.peeled ++ outcome.peeled.toList.map (receiver, ·)
      exits := net.exits ++ outcome.effects.filterMap (Effect.exited receiver) }

def Network.run : Nat → Network Key → Network Key
  | 0, net => net
  | steps + 1, net => Network.run steps (net.step aead reader)

/-- The packet gets past every hop from here on: the hop's key for the node
before it is the sender's key for the hop, the hop has not seen the flow, and
the packet has time left. -/
def Clear (nodes : Id → Node Key) (src : Id) (flow : Id × Nat) : Id → Nat → List Id → Prop
  | _, _, [] => True
  | before, ttl, hop :: rest =>
    (nodes hop).sessionKey before = (nodes src).sessionKey hop ∧
      flow ∉ (nodes hop).processed ∧ 2 ≤ ttl ∧ Clear nodes src flow hop (ttl - 1) rest

theorem clear_iff {nodes : Id → Node Key} {src : Id} {flow : Id × Nat} {before hop : Id}
    {ttl : Nat} {rest : List Id} :
    Clear nodes src flow before ttl (hop :: rest) ↔
      (before :: hop :: rest).IsChain
        (fun a b => (nodes b).sessionKey a = (nodes src).sessionKey b) ∧
      (∀ id ∈ hop :: rest, flow ∉ (nodes id).processed) ∧ rest.length + 2 ≤ ttl := by
  induction rest generalizing before hop ttl with
  | nil => simp [Clear]
  | cons next rest ih =>
    rw [Clear, ih]
    simp only [isChain_cons_cons, mem_cons, length_cons, forall_eq_or_imp]
    constructor
    · rintro ⟨hkey, hfresh, httl, hchain, ⟨hnext, hrest⟩, hlength⟩
      exact ⟨⟨hkey, hchain⟩, ⟨hfresh, hnext, hrest⟩, by omega⟩
    · rintro ⟨⟨hkey, hchain⟩, ⟨hfresh, hnext, hrest⟩, hlength⟩
      exact ⟨hkey, hfresh, by omega, hchain, ⟨hnext, hrest⟩, by omega⟩

theorem clear_update {nodes : Id → Node Key} {src : Id} {flow : Id × Nat} {visited : Id}
    {node : Node Key} {before : Id} {ttl : Nat} {hops : List Id} (hsrc : visited ≠ src)
    (hahead : visited ∉ hops) :
    Clear (Function.update nodes visited node) src flow before ttl hops ↔
      Clear nodes src flow before ttl hops := by
  induction hops generalizing before ttl with
  | nil => rfl
  | cons hop rest ih =>
    have hhop : hop ≠ visited := fun h => hahead (by simp [h])
    have hrest : visited ∉ rest := fun h => hahead (by simp [h])
    simp only [Clear, Function.update_of_ne hhop, Function.update_of_ne hsrc.symm, ih hrest]

section Arrival

variable {aead reader}

theorem processIncomingMessage_data (node : Node Key) (peerId : Id) {packet : Packet}
    (hportable : packet.Portable) (htype : packet.type = PacketType.data.code) {data : Bytes}
    (hdata : packet.serialize = some data) :
    node.processIncomingMessage aead reader peerId data =
      match (node.sessionKey peerId).bind (peelOnionLayer aead packet.payload) with
      | none => node.idle
      | some layer => node.handleRxWorkerResult ⟨peerId, .data, layer, packet.meta⟩ := by
  obtain ⟨bytes, hbytes, hlength, hpeeked, hread⟩ := deserialize_serialize reader hportable.encodable
  obtain rfl : bytes = data := Option.some.inj (hbytes.symm.trans hdata)
  have hlong : ¬ bytes.length < 2 := by omega
  rw [htype] at hpeeked
  rw [Node.processIncomingMessage, if_neg hlong, if_pos hpeeked]
  rcases hkey : node.sessionKey peerId with _ | key
  · rfl
  simp only [Node.processRx, submitRx, hread, Option.bind_some, if_true]
  cases peelOnionLayer aead packet.payload key with
  | none => rfl
  | some layer => rfl

/-- A node that has seen the flow, or holds the packet at the end of its life,
hands nothing on. -/
theorem handleRxWorkerResult_blocked {node : Node Key} {result : RxResult}
    (htype : result.packetType = .data)
    (hblocked : (result.packetMeta.flowId, result.packetMeta.seq) ∈ node.processed ∨
      result.packetMeta.ttl < 2) :
    (node.handleRxWorkerResult result).effects = [] := by
  simp only [Node.handleRxWorkerResult, htype, if_true]
  split
  · rfl
  split
  · rfl
  rename_i hunseen
  split
  · rfl
  rcases hblocked with hseen | hold
  · simp [hseen] at hunseen
  · rw [if_pos (by omega)]

theorem handleRxWorkerResult_fresh {node : Node Key} {result : RxResult}
    (htype : result.packetType = .data) (hvisited : result.packetMeta.visitedNodes = [])
    (hfresh : (result.packetMeta.flowId, result.packetMeta.seq) ∉ node.processed)
    (httl : 2 ≤ result.packetMeta.ttl) :
    node.handleRxWorkerResult result =
      { node with processed := (result.packetMeta.flowId, result.packetMeta.seq) ::
        node.processed }.handleLayer
        { result.packetMeta with
          visitedNodes := [node.nodeId], ttl := result.packetMeta.ttl - 1 } result := by
  have halive : ¬ result.packetMeta.ttl ≤ 0 := by omega
  have hleft : ¬ result.packetMeta.ttl - 1 ≤ 0 := by omega
  have hunseen : node.processed.contains (result.packetMeta.flowId, result.packetMeta.seq) =
      false := by
    simpa using hfresh
  simp only [Node.handleRxWorkerResult, htype, if_true, if_neg halive, hunseen,
    Bool.false_eq_true, if_false, hvisited, contains_nil, nil_append, if_neg hleft]

end Arrival

theorem routeWithKeys_cons {node : Node Key} {hop : Id} {rest : List Id}
    {keys : List (Id × Key)} (h : node.routeWithKeys (hop :: rest) = some keys) :
    ∃ key restKeys, node.sessionKey hop = some key ∧ node.routeWithKeys rest = some restKeys ∧
      keys = (hop, key) :: restKeys := by
  simp only [Node.routeWithKeys] at h
  rcases hkey : node.sessionKey hop with _ | key
  · simp [hkey] at h
  simp only [hkey, Option.map_eq_some_iff] at h
  obtain ⟨restKeys, hrest, rfl⟩ := h
  exact ⟨key, restKeys, rfl, hrest, rfl⟩

/-- The packet on its way to the first of `hops`, wrapped for all of them. -/
structure Leg (nonces : Nat → Nonce) (src : Id) (payload : Bytes) (exitNode : Id)
    (net : Network Key) (before : Id) (hops : List Id) (layers : List (Id × Key))
    (packet : Packet) : Prop where
  simple : (before :: hops).Nodup
  away : src ∉ hops
  ids : ∀ id ∈ hops, ValidId id
  last : hops.getLast? = some exitNode
  exit : (net.nodes exitNode).isExit = true
  keys : (net.nodes src).routeWithKeys hops = some layers
  portable : packet.Portable
  type : packet.type = PacketType.data.code
  source : packet.srcNode = src
  life : packet.hop + packet.ttl ≤ defaultTtl
  onion : packet.payload = createOnionPacket aead nonces payload layers
  flight : ∃ hop data, hops.head? = some hop ∧ packet.serialize = some data ∧
    net.flight = [(before, hop, data)]

theorem createOnionPacket_shorter (nonces : Nat → Nonce) (payload : Bytes) (hop : Id) (key : Key)
    (layers : List (Id × Key)) :
    (createOnionPacket aead nonces payload layers).length ≤
      (createOnionPacket aead nonces payload ((hop, key) :: layers)).length := by
  rw [createOnionPacket_cons, aead.encrypt_length, encodeLayer, length_cons,
    length_append]
  omega

theorem Packet.Portable.forwarded {packet : Packet} (h : packet.Portable)
    (hlife : packet.hop + packet.ttl ≤ defaultTtl) {payload : Bytes}
    (hpayload : payload.length ≤ packet.payload.length) :
    { packet with ttl := packet.ttl - 1, hop := packet.hop + 1, payload }.Portable := by
  obtain ⟨_, _, hcount, hseq, hlength⟩ := Packet.writable_iff.mp h.writable
  refine { h with writable := Packet.writable_iff.mpr ?_ }
  simp only [defaultTtl] at hlife
  refine ⟨?_, ?_, hcount, hseq, ?_⟩
  · simp only
    omega
  · simp only
    omega
  · simp only
    omega

section Hop

variable {aead} {nonces : Nat → Nonce} {src : Id} {payload : Bytes} {exitNode : Id}
  {net : Network Key} {before hop : Id} {rest : List Id} {layers : List (Id × Key)}
  {packet : Packet}

theorem Leg.step_eq
    (h : Leg aead nonces src payload exitNode net before (hop :: rest) layers packet) :
    ∃ outcome, outcome =
        (match ((net.nodes hop).sessionKey before).bind (peelOnionLayer aead packet.payload) with
        | none => (net.nodes hop).idle
        | some layer =>
          (net.nodes hop).handleRxWorkerResult ⟨before, .data, layer, packet.meta⟩) ∧
      net.step aead reader =
        { nodes := Function.update net.nodes hop outcome.node
          flight := outcome.effects.filterMap (Effect.sent hop)
          peeled := net.peeled ++ outcome.peeled.toList.map (hop, ·)
          exits := net.exits ++ outcome.effects.filterMap (Effect.exited hop) } := by
  obtain ⟨_, data, hhead, hdata, hflight⟩ := h.flight
  obtain rfl : hop = _ := Option.some.inj hhead
  refine ⟨_, rfl, ?_⟩
  simp only [Network.step, hflight, nil_append,
    processIncomingMessage_data (net.nodes hop) before h.portable h.type hdata]

theorem Leg.step_blocked
    (h : Leg aead nonces src payload exitNode net before (hop :: rest) layers packet)
    (hblocked : ¬ ((net.nodes hop).sessionKey before = (net.nodes src).sessionKey hop ∧
      (packet.flowId, packet.seq) ∉ (net.nodes hop).processed ∧ 2 ≤ packet.ttl)) :
    (net.step aead reader).flight = [] ∧ (net.step aead reader).exits = net.exits := by
  obtain ⟨key, restKeys, hkey, _, rfl⟩ := routeWithKeys_cons h.keys
  obtain ⟨outcome, houtcome, hstep⟩ := h.step_eq reader
  have heffects : outcome.effects = [] := by
    rw [houtcome]
    rcases hown : (net.nodes hop).sessionKey before with _ | own
    · rfl
    by_cases hsame : own = key
    · subst hsame
      rcases hpeeled : peelOnionLayer aead packet.payload own with _ | layer
      · simp only [Option.bind_some, hpeeled, Node.idle]
      simp only [Option.bind_some, hpeeled]
      apply handleRxWorkerResult_blocked rfl
      simp only [hown, hkey, true_and, not_and_or, not_not, Nat.not_le] at hblocked
      exact hblocked
    · rw [h.onion]
      simp only [Option.bind_some, peelOnionLayer_other aead nonces payload hop key hsame,
        Node.idle]
  rw [hstep, heffects]
  exact ⟨rfl, append_nil _⟩

theorem Leg.step_exit
    (h : Leg aead nonces src payload exitNode net before [hop] layers packet)
    (hkey : (net.nodes hop).sessionKey before = (net.nodes src).sessionKey hop)
    (hfresh : (packet.flowId, packet.seq) ∉ (net.nodes hop).processed) (httl : 2 ≤ packet.ttl) :
    (net.step aead reader).flight = [] ∧
      (net.step aead reader).exits = net.exits ++ [(hop, src, payload)] ∧
      (net.step aead reader).peeled =
        net.peeled ++ [(hop, ⟨before, .data, ⟨[], true, payload⟩, packet.meta⟩)] := by
  obtain ⟨key, restKeys, hsender, hrest, rfl⟩ := routeWithKeys_cons h.keys
  obtain rfl : restKeys = [] := (Option.some.inj hrest).symm
  obtain ⟨outcome, houtcome, hstep⟩ := h.step_eq reader
  have hexit : (net.nodes hop).isExit = true := by
    have hlast : hop = exitNode := Option.some.inj h.last
    rw [hlast]
    exact h.exit
  rw [hkey, hsender, Option.bind_some, h.onion, peelOnionLayer_exit] at houtcome
  simp only at houtcome
  rw [handleRxWorkerResult_fresh rfl rfl hfresh httl] at houtcome
  simp only [Node.handleLayer, if_true, hexit] at houtcome
  rw [hstep, houtcome]
  refine ⟨rfl, ?_, rfl⟩
  simp only [filterMap_cons, Effect.exited, filterMap_nil, Packet.meta, h.source]

theorem Leg.step_relay {next : Id}
    (h : Leg aead nonces src payload exitNode net before (hop :: next :: rest) layers packet)
    (hkey : (net.nodes hop).sessionKey before = (net.nodes src).sessionKey hop)
    (hfresh : (packet.flowId, packet.seq) ∉ (net.nodes hop).processed) (httl : 2 ≤ packet.ttl) :
    ∃ node restLayers result,
      Leg aead nonces src payload exitNode (net.step aead reader) hop (next :: rest) restLayers
        { packet with
          ttl := packet.ttl - 1, hop := packet.hop + 1,
          payload := createOnionPacket aead nonces payload restLayers } ∧
      (net.step aead reader).nodes = Function.update net.nodes hop node ∧
      (net.step aead reader).exits = net.exits ∧
      (net.step aead reader).peeled = net.peeled ++ [(hop, result)] ∧
      result.layer.isExit = false := by
  obtain ⟨key, restLayers, hsender, hrest, rfl⟩ := routeWithKeys_cons h.keys
  obtain ⟨nextKey, lastLayers, _, _, rfl⟩ := routeWithKeys_cons hrest
  obtain ⟨outcome, houtcome, hstep⟩ := h.step_eq reader
  have hnext : ValidId next := h.ids next (by simp)
  have hahead : (hop :: next :: rest).Nodup := (nodup_cons.mp h.simple).2
  have hback : ¬ before = next := fun hsame => by
    simpa [hsame] using (nodup_cons.mp h.simple).1
  have hlast : (next :: rest).getLast? = some exitNode := h.last
  have haway := h.away
  simp only [mem_cons, not_or] at haway
  obtain ⟨hsrcHop, hsrcNext, hsrcRest⟩ := haway
  have hshorter : (createOnionPacket aead nonces payload ((next, nextKey) :: lastLayers)).length ≤
      packet.payload.length := by
    rw [h.onion]
    exact createOnionPacket_shorter aead nonces payload hop key _
  have hportable := h.portable.forwarded h.life hshorter
  obtain ⟨data, hdata, _⟩ := deserialize_serialize reader hportable.encodable
  -- the worker's copy has lost its type and gained a visited node; neither is on the wire
  have hserialized : ∀ visitedNodes, Packet.serialize { packet with
      type := PacketType.data.code, visitedNodes, ttl := packet.ttl - 1, hop := packet.hop + 1,
      payload := createOnionPacket aead nonces payload ((next, nextKey) :: lastLayers) } =
      some data := by
    intro visitedNodes
    rw [← hdata, ← h.type]
    rfl
  have hsource : ¬ next = packet.srcNode := by
    rw [h.source]
    exact Ne.symm hsrcNext
  rw [hkey, hsender, Option.bind_some, h.onion,
    peelOnionLayer_relay aead nonces payload hop key hnext] at houtcome
  simp only at houtcome
  rw [handleRxWorkerResult_fresh rfl rfl hfresh httl] at houtcome
  simp only [Node.handleLayer, Bool.false_eq_true, if_false, hnext.named, Node.forwardPacket,
    if_neg (Ne.symm hback), Packet.meta, if_neg hsource, hserialized] at houtcome
  rw [hstep, houtcome]
  refine ⟨_, (next, nextKey) :: lastLayers, _, ?_, rfl, append_nil _, rfl, rfl⟩
  exact
    { simple := hahead
      away := by simp [hsrcNext, hsrcRest]
      ids := fun id hid => h.ids id (by simp [hid])
      last := hlast
      exit := by
        have hother : exitNode ≠ hop := fun hsame =>
          (nodup_cons.mp hahead).1 (hsame ▸ mem_of_getLast? hlast)
        simp only [Function.update_of_ne hother, h.exit]
      keys := by
        simp only [Function.update_of_ne hsrcHop, hrest]
      portable := hportable
      type := h.type
      source := h.source
      life := by have := h.life; simp only; omega
      onion := rfl
      flight := ⟨next, data, rfl, hdata, rfl⟩ }

theorem Network.run_idle {net : Network Key} (h : net.flight = []) (steps : Nat) :
    net.run aead reader steps = net := by
  induction steps with
  | zero => rfl
  | succ steps ih => rw [Network.run, Network.step, h]; exact ih

theorem Leg.run_blocked
    (h : Leg aead nonces src payload exitNode net before (hop :: rest) layers packet)
    (hblocked : ¬ Clear net.nodes src (packet.flowId, packet.seq) before packet.ttl (hop :: rest))
    (steps : Nat) : (net.run aead reader steps).exits = net.exits := by
  induction steps generalizing net before hop rest layers packet with
  | zero => rfl
  | succ steps ih =>
    rw [Network.run]
    by_cases hpass : (net.nodes hop).sessionKey before = (net.nodes src).sessionKey hop ∧
        (packet.flowId, packet.seq) ∉ (net.nodes hop).processed ∧ 2 ≤ packet.ttl
    · obtain ⟨hkey, hfresh, httl⟩ := hpass
      rcases rest with _ | ⟨next, rest⟩
      · exact absurd ⟨hkey, hfresh, httl, trivial⟩ hblocked
      obtain ⟨node, _, _, hleg, hnodes, hexits, _⟩ := h.step_relay reader hkey hfresh httl
      rw [← hexits]
      refine ih hleg fun hclear => hblocked ⟨hkey, hfresh, httl, ?_⟩
      rw [hnodes] at hclear
      have hahead : (hop :: next :: rest).Nodup := (nodup_cons.mp h.simple).2
      exact (clear_update (fun hsame => h.away (by simp [← hsame]))
        (nodup_cons.mp hahead).1).mp hclear
    · obtain ⟨hflight, hexits⟩ := h.step_blocked reader hpass
      rw [Network.run_idle reader hflight, hexits]

/-- With a clear way ahead the packet reaches the end in as many steps as there are hops. -/
theorem Leg.run_clear
    (h : Leg aead nonces src payload exitNode net before (hop :: rest) layers packet)
    (hclear : Clear net.nodes src (packet.flowId, packet.seq) before packet.ttl (hop :: rest))
    {steps : Nat} (hsteps : rest.length + 1 ≤ steps) :
    (net.run aead reader steps).exits = net.exits ++ [(exitNode, src, payload)] ∧
      ∃ earlier final, (net.run aead reader steps).peeled =
          net.peeled ++ earlier ++ [(exitNode, final)] ∧
        earlier.map Prod.fst ++ [exitNode] = hop :: rest ∧ final.layer.isExit = true ∧
        final.layer.payload = payload ∧ ∀ seen ∈ earlier, seen.2.layer.isExit = false := by
  obtain ⟨steps, rfl⟩ : ∃ n, steps = n + 1 := ⟨steps - 1, by omega⟩
  induction rest generalizing net before hop layers packet steps with
  | nil =>
    obtain ⟨hkey, hfresh, httl, _⟩ := hclear
    obtain ⟨hflight, hexits, hpeeled⟩ := h.step_exit reader hkey hfresh httl
    obtain rfl : hop = exitNode := Option.some.inj h.last
    rw [Network.run, Network.run_idle reader hflight, hexits, hpeeled]
    exact ⟨rfl, [], _, by rw [append_nil], rfl, rfl, rfl, by simp⟩
  | cons next rest ih =>
    obtain ⟨hkey, hfresh, httl, hrest⟩ := hclear
    obtain ⟨node, _, result, hleg, hnodes, hexits, hpeeled, hrelay⟩ :=
      h.step_relay reader hkey hfresh httl
    obtain ⟨steps, rfl⟩ : ∃ n, steps = n + 1 := ⟨steps - 1, by simp at hsteps; omega⟩
    have hahead : (hop :: next :: rest).Nodup := (nodup_cons.mp h.simple).2
    have hnext : Clear (net.step aead reader).nodes src (packet.flowId, packet.seq) hop
        (packet.ttl - 1) (next :: rest) := by
      rw [hnodes]
      exact (clear_update (fun hsame => h.away (by simp [← hsame]))
        (nodup_cons.mp hahead).1).mpr hrest
    obtain ⟨hout, earlier, final, hseen, hpath, hflag, hpayload, hearlier⟩ :=
      ih hleg hnext steps (by simpa using hsteps)
    rw [Network.run]
    refine ⟨by rw [hout, hexits], (hop, result) :: earlier, final, ?_, ?_, hflag, hpayload, ?_⟩
    · rw [hseen, hpeeled]
      simp
    · simp [hpath]
    · intro seen hmem
      rcases mem_cons.mp hmem with rfl | hmem
      · exact hrelay
      · exact hearlier seen hmem

end Hop

end Meshpn.Mesh
