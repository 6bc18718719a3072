import Meshpn.Mesh.Network

/-!
End-to-end delivery. A sender wraps with its own key for each hop, and a hop
peels with its key for the neighbour the packet came from. Delivery therefore
stands or falls with the two being the same key, at every hop after the first.
-/

namespace Meshpn.Mesh

open Meshpn.Lib

/-- The payload came out at the end of the route, every hop peeled one layer
in its turn, and only the last of them saw the exit flag. -/
structure Delivered {Key : Type} (net : Network Key) (src : Id) (hops : List Id) (exitNode : Id)
    (payload : Bytes) : Prop where
  landed : net.exits = [(exitNode, src, payload)]
  path : net.peeled.map Prod.fst = hops
  recovered : ∃ earlier final, net.peeled = earlier ++ [(exitNode, final)] ∧
    final.layer.isExit = true ∧ final.layer.payload = payload ∧
    ∀ seen ∈ earlier, seen.2.layer.isExit = false

/-- A route as the router hands it out, with the keys that its nodes share. -/
structure Route {Key : Type} (nodes : Id → Node Key) (src : Id) (hops : List Id) (exitNode : Id) :
    Prop where
  last : hops.getLast? = some exitNode
  simple : (src :: hops).Nodup
  ids : ∀ id ∈ src :: hops, ValidId id
  named : (nodes src).nodeId = src
  sender : ∀ hop ∈ hops, ∃ key,
    (nodes src).sessionKey hop = some key ∧ (nodes hop).sessionKey src = some key
  neighbours : (src :: hops).IsChain fun a b => ∃ key,
    (nodes a).sessionKey b = some key ∧ (nodes b).sessionKey a = some key
  exit : (nodes exitNode).isExit = true
  onion : (nodes src).directMode = false

variable {Key Nonce : Type} (aead : Aead Key Nonce) (reader : Reader)

theorem routeWithKeys_some {node : Node Key} {hops : List Id}
    (h : ∀ hop ∈ hops, ∃ key, node.sessionKey hop = some key) :
    ∃ layers, node.routeWithKeys hops = some layers ∧ layers.map Prod.fst = hops := by
  induction hops with
  | nil => exact ⟨[], rfl, rfl⟩
  | cons hop rest ih =>
    obtain ⟨key, hkey⟩ := h hop (by simp)
    obtain ⟨layers, hlayers, hnames⟩ := ih fun other hother => h other (by simp [hother])
    exact ⟨(hop, key) :: layers, by simp [Node.routeWithKeys, hkey, hlayers], by simp [hnames]⟩

theorem Route.layers {nodes : Id → Node Key} {src : Id} {hops : List Id} {exitNode : Id}
    (route : Route nodes src hops exitNode) :
    ∃ layers, (nodes src).routeWithKeys hops = some layers ∧ layers.map Prod.fst = hops := by
  apply routeWithKeys_some
  intro hop hmem
  obtain ⟨key, hkey, _⟩ := route.sender hop hmem
  exact ⟨key, hkey⟩

section Launch

variable {nodes : Id → Node Key} {src hop : Id} {rest : List Id} {exitNode flowId : Id}
  (route : Route nodes src (hop :: rest) exitNode) (hflow : ValidId flowId)
  {layers : List (Id × Key)} (hlayers : (nodes src).routeWithKeys (hop :: rest) = some layers)
  (nonces : Nat → Nonce) (payload : Bytes)

include route in
theorem txPacket_payload :
    ((nodes src).txPacket aead nonces flowId payload (hop :: rest) exitNode layers).payload =
      createOnionPacket aead nonces payload layers := by
  simp only [Node.txPacket, route.onion, encryptTx]

include route hlayers in
theorem txPacket_writable :
    ((nodes src).txPacket aead nonces flowId payload (hop :: rest) exitNode layers).writable =
        true ↔
      (hop :: rest).length < 256 ∧ payload.length + 45 * (hop :: rest).length < 4294967312 := by
  obtain ⟨found, hfound, hnames⟩ := route.layers
  obtain rfl : found = layers := Option.some.inj (hfound.symm.trans hlayers)
  have hids : ∀ layer ∈ found, ValidId layer.1 := by
    intro layer hmem
    have hname : layer.1 ∈ hop :: rest := hnames ▸ List.mem_map_of_mem hmem
    exact route.ids layer.1 (List.mem_cons_of_mem src hname)
  have hcount : found.length = (hop :: rest).length := by
    rw [← hnames, List.length_map]
  have hempty : found.isEmpty = false := by
    cases found with
    | nil => simp at hcount
    | cons => rfl
  have hlength := createOnionPacket_length aead nonces payload found hids
  rw [hempty, hcount] at hlength
  simp only [Bool.false_eq_true, if_false] at hlength
  rw [Packet.writable_iff, txPacket_payload aead route]
  simp only [Node.txPacket, defaultTtl]
  constructor
  · rintro ⟨_, _, hroute, _, hpayload⟩
    exact ⟨hroute, by omega⟩
  · rintro ⟨hroute, hpayload⟩
    exact ⟨by omega, by omega, hroute, by omega, by omega⟩

include reader route hflow hlayers in
theorem launch_leg
    (hwritable : ((nodes src).txPacket aead nonces flowId payload (hop :: rest) exitNode
      layers).writable = true) :
    Leg aead nonces src payload exitNode
      (Network.launch aead nodes nonces flowId src payload (hop :: rest) exitNode) src
      (hop :: rest) layers
      ((nodes src).txPacket aead nonces flowId payload (hop :: rest) exitNode layers) := by
  have htype : ((nodes src).txPacket aead nonces flowId payload (hop :: rest) exitNode
      layers).type = PacketType.data.code := by
    simp [Node.txPacket, route.onion]
  have hportable : ((nodes src).txPacket aead nonces flowId payload (hop :: rest) exitNode
      layers).Portable :=
    { type := by rw [htype]; decide
      flowId := hflow
      srcNode := by
        have hsrc : ValidId src := route.ids src (by simp)
        rwa [← route.named] at hsrc
      dstNode := route.ids exitNode (List.mem_cons_of_mem src (List.mem_of_getLast? route.last))
      route := fun id hid => route.ids id (List.mem_cons_of_mem src hid)
      writable := hwritable }
  obtain ⟨data, hdata, _⟩ := deserialize_serialize reader hportable.encodable
  exact
    { simple := route.simple
      away := (List.nodup_cons.mp route.simple).1
      ids := fun id hid => route.ids id (List.mem_cons_of_mem src hid)
      last := route.last
      exit := route.exit
      keys := hlayers
      portable := hportable
      type := htype
      source := route.named
      life := by simp [Node.txPacket]
      onion := txPacket_payload aead route nonces payload
      flight := ⟨hop, data, rfl, hdata, by
        simp [Network.launch, Node.sendThroughMesh, hlayers, hdata]⟩ }

include hlayers in
theorem launch_idle
    (hwritable : ¬ ((nodes src).txPacket aead nonces flowId payload (hop :: rest) exitNode
      layers).writable = true) :
    (Network.launch aead nodes nonces flowId src payload (hop :: rest) exitNode).flight = [] := by
  simp only [Network.launch, Node.sendThroughMesh, hlayers, Packet.serialize, if_neg hwritable,
    Option.bind_none, Option.toList_none, List.map_nil]

end Launch

/-- What decides delivery, over the nodes as they are when the packet is sent. -/
structure Deliverable (nodes : Id → Node Key) (flowId src : Id) (hops : List Id)
    (payload : Bytes) : Prop where
  /-- The time to live lasts for 31 hops. -/
  short : hops.length ≤ 31
  /-- The onion's length fits its field of four bytes. -/
  small : payload.length + 45 * hops.length < 4294967312
  fresh : ∀ hop ∈ hops, (flowId, 0) ∉ (nodes hop).processed
  /-- Every hop after the first shares one key with the sender and the hop before it. -/
  agree : hops.IsChain fun before hop => (nodes hop).sessionKey before = (nodes src).sessionKey hop

section Main

variable {nodes : Id → Node Key} {src : Id} {hops : List Id} {exitNode flowId : Id}

theorem Route.clear_iff (route : Route nodes src hops exitNode) :
    Clear nodes src (flowId, 0) src defaultTtl hops ↔
      hops.length ≤ 31 ∧ (∀ hop ∈ hops, (flowId, 0) ∉ (nodes hop).processed) ∧
      hops.IsChain fun before hop =>
        (nodes hop).sessionKey before = (nodes src).sessionKey hop := by
  rcases hops with _ | ⟨hop, rest⟩
  · exact absurd route.last (by simp)
  obtain ⟨key, hsrc, hhop⟩ := route.sender hop (by simp)
  rw [Mesh.clear_iff, List.isChain_cons_cons, hsrc, hhop]
  simp only [defaultTtl, List.length_cons, true_and]
  constructor
  · rintro ⟨hchain, hfresh, hlength⟩
    exact ⟨by omega, hfresh, hchain⟩
  · rintro ⟨hlength, hfresh, hchain⟩
    exact ⟨hchain, hfresh, by omega⟩

theorem not_deliverable_lost (route : Route nodes src hops exitNode) (hflow : ValidId flowId)
    (nonces : Nat → Nonce) (payload : Bytes)
    (hnot : ¬ Deliverable nodes flowId src hops payload) (steps : Nat) :
    ((Network.launch aead nodes nonces flowId src payload hops exitNode).run aead reader
      steps).exits = [] := by
  rcases hops with _ | ⟨hop, rest⟩
  · exact absurd route.last (by simp)
  obtain ⟨layers, hlayers, _⟩ := route.layers
  by_cases hwritable : ((nodes src).txPacket aead nonces flowId payload (hop :: rest) exitNode
      layers).writable = true
  · have hleg := launch_leg aead reader route hflow hlayers nonces payload hwritable
    refine hleg.run_blocked reader (fun hclear => hnot ?_) steps
    obtain ⟨hlength, hfresh, hchain⟩ := route.clear_iff.mp hclear
    exact ⟨hlength, ((txPacket_writable aead route hlayers nonces payload).mp hwritable).2,
      hfresh, hchain⟩
  · rw [Network.run_idle reader (launch_idle aead hlayers nonces payload hwritable)]
    rfl

/-- For every simple route whose nodes share keys with the sender and with
their neighbours, and for every payload, the packet comes out at the end of
the route, with no exit flag seen on the way, exactly if it is deliverable. -/
theorem onion_delivered_iff (route : Route nodes src hops exitNode) (hflow : ValidId flowId)
    (nonces : Nat → Nonce) (payload : Bytes) {steps : Nat} (hsteps : hops.length ≤ steps) :
    Delivered ((Network.launch aead nodes nonces flowId src payload hops exitNode).run aead reader
      steps) src hops exitNode payload ↔ Deliverable nodes flowId src hops payload := by
  constructor
  · intro hdelivered
    by_contra hnot
    have hlost := not_deliverable_lost aead reader route hflow nonces payload hnot steps
    rw [hdelivered.landed] at hlost
    simp at hlost
  · intro hdeliverable
    cases hops with
    | nil => exact absurd route.last (by simp)
    | cons hop rest =>
      obtain ⟨layers, hlayers, _⟩ := route.layers
      have hshort := hdeliverable.short
      have hwritable : ((nodes src).txPacket aead nonces flowId payload (hop :: rest) exitNode
          layers).writable = true :=
        (txPacket_writable aead route hlayers nonces payload).mpr ⟨by omega, hdeliverable.small⟩
      have hleg := launch_leg aead reader route hflow hlayers nonces payload hwritable
      have hclear : Clear nodes src (flowId, 0) src defaultTtl (hop :: rest) :=
        route.clear_iff.mpr ⟨hshort, hdeliverable.fresh, hdeliverable.agree⟩
      obtain ⟨hexits, earlier, final, hpeeled, hpath, hflag, hpayload, hearlier⟩ :=
        hleg.run_clear reader hclear hsteps
      refine ⟨hexits, ?_, earlier, final, hpeeled, hflag, hpayload, hearlier⟩
      rw [hpeeled]
      simpa [Network.launch] using hpath

end Main

/-- A stand-in for the cipher on fixed inputs: the key is the tag. -/
def tagged : Aead UInt8 Unit where
  encrypt key _ message := List.replicate 12 0 ++ (List.replicate 16 key ++ message)
  decrypt key data :=
    if (data.drop 12).take 16 = List.replicate 16 key then some (data.drop 28) else none
  encrypt_length key _ message := by simp
  decrypt_encrypt key _ message := by simp
  decrypt_other key other _ message h := by simp [h.symm]

def trio (id : Id) : Node UInt8 :=
  { nodeId := id
    isExit := id == [100]
    isClient := false
    directMode := false
    sessionKey := fun peer => some ((id ++ peer).foldr (· + ·) 0)
    processed := [] }

def noLegacy : Reader := ⟨fun _ => none, [102]⟩

/-- Over one hop the sender's key is the neighbour's. -/
theorem one_hop_delivered :
    Route trio [97] [[100]] [100] ∧
      Delivered ((Network.launch tagged trio (fun _ => ()) [102] [97] [1, 2, 3] [[100]] [100]).run
        tagged noLegacy 1) [97] [[100]] [100] [1, 2, 3] := by
  have hroute : Route trio [97] [[100]] [100] :=
    ⟨rfl, by decide, by decide +kernel, rfl, by simp [trio], by simp [trio], rfl, rfl⟩
  have hflow : ValidId [102] := by decide +kernel
  refine ⟨hroute, (onion_delivered_iff tagged noLegacy hroute hflow (fun _ => ()) [1, 2, 3]
    (le_refl 1)).mpr ⟨by decide, by decide, by decide, by simp⟩⟩

/-- Over two hops the exit tries its key for the relay, and the packet is lost. -/
theorem two_hops_not_delivered :
    Route trio [97] [[98], [100]] [100] ∧ ∀ steps,
      ¬ Delivered ((Network.launch tagged trio (fun _ => ()) [102] [97] [1, 2, 3] [[98], [100]]
        [100]).run tagged noLegacy steps) [97] [[98], [100]] [100] [1, 2, 3] := by
  have hroute : Route trio [97] [[98], [100]] [100] :=
    ⟨rfl, by decide, by decide +kernel, rfl, by simp [trio], by simp [trio], rfl, rfl⟩
  refine ⟨hroute, fun steps hdelivered => ?_⟩
  have hflow : ValidId [102] := by decide +kernel
  have hlost := not_deliverable_lost tagged noLegacy hroute hflow (fun _ => ()) [1, 2, 3]
    (fun h => absurd h.agree (by decide)) steps
  rw [hdelivered.landed] at hlost
  simp at hlost

end Meshpn.Mesh
