import Meshpn.Lib.Table
import Meshpn.Lib.Text

/-!
Registration at the signalling server, `signalling-server.js`: the nodes, the sockets
they are bound to, and their virtual addresses. A node that is new has the address that
is pinned for it, or the next one of a counter. Names, roles and what is sent to the
nodes are left out.

The counter runs past the last octet and does not look for pinned addresses, and a
socket that closes takes one of its nodes along. Where a run meets none of these, the
addresses are distinct and valid and no node is bound to a closed socket.
-/

namespace Meshpn.Signaling.Registry

open Meshpn.Lib

abbrev Ip := List Char

structure RegisteredNode (Socket Key : Type) where
  ws : Socket
  publicKey : Key
  virtualIp : Ip

/-- The options of the server. -/
structure Options (Id Token : Type) where
  /-- `pinnedIps[nodeId]`, if that is truthy; what is found need not be an address. -/
  pinnedIps : Id → Option Ip
  registrationToken : Option Token

/-- `closed` remembers the sockets that have closed. -/
structure SignallingServer (Id Socket Key : Type) where
  nodes : Table Id (RegisteredNode Socket Key)
  virtualIpCounter : Nat
  closed : List Socket

/-- The fields of a `register` message that matter here, missing where they are falsy. -/
structure Register (Id Key Token : Type) where
  nodeId : Option Id
  publicKey : Option Key
  token : Option Token

inductive Event (Id Socket Key Token : Type) where
  | register (ws : Socket) (message : Register Id Key Token)
  | close (ws : Socket)

/-- `virtualNetwork` and the counter. -/
def counterIp (counter : Nat) : Ip := "10.200.0".toList ++ '.' :: Text.decimal counter

section Server

variable {Id Socket Key Token : Type} [DecidableEq Id] [DecidableEq Socket] [DecidableEq Token]

def SignallingServer.init : SignallingServer Id Socket Key := ⟨.empty, 2, []⟩

namespace SignallingServer

/-- Another node has the pinned address. -/
def conflict (server : SignallingServer Id Socket Key) (nodeId : Id) (pinned : Ip) : Bool :=
  server.nodes.entries.any fun entry => entry.2.virtualIp == pinned && entry.1 != nodeId

/-- The pinned address that a new node gets, if it gets one. -/
def pinnedIp (options : Options Id Token) (server : SignallingServer Id Socket Key)
    (nodeId : Id) : Option Ip :=
  (options.pinnedIps nodeId).filter fun pinned => !server.conflict nodeId pinned

/-- The last part of `_handleRegister`, for a node that is not registered. -/
def add (options : Options Id Token) (server : SignallingServer Id Socket Key) (ws : Socket)
    (nodeId : Id) (publicKey : Key) : SignallingServer Id Socket Key :=
  match server.pinnedIp options nodeId with
  | some pinned => { server with nodes := server.nodes.set nodeId ⟨ws, publicKey, pinned⟩ }
  | none =>
    { server with
      nodes := server.nodes.set nodeId ⟨ws, publicKey, counterIp server.virtualIpCounter⟩
      virtualIpCounter := server.virtualIpCounter + 1 }

/-- The node and key of a message that `_handleRegister` accepts. -/
def accepted (options : Options Id Token) (message : Register Id Key Token) : Option (Id × Key) :=
  match message.nodeId, message.publicKey with
  | some nodeId, some publicKey =>
    if options.registrationToken.isSome && message.token != options.registrationToken then none
    else some (nodeId, publicKey)
  | _, _ => none

/-- `_handleRegister`. A node that registers again keeps its address. -/
def handleRegister (options : Options Id Token) (server : SignallingServer Id Socket Key)
    (ws : Socket) (message : Register Id Key Token) : SignallingServer Id Socket Key :=
  match accepted options message with
  | none => server
  | some (nodeId, publicKey) =>
    match server.nodes.get nodeId with
    | some existing =>
      { server with nodes := server.nodes.set nodeId { existing with ws, publicKey } }
    | none => server.add options ws nodeId publicKey

/-- `_handleWsClose`: the first node bound to the socket is deleted. -/
def handleWsClose (server : SignallingServer Id Socket Key) (ws : Socket) :
    SignallingServer Id Socket Key :=
  match server.nodes.entries.find? fun entry => entry.2.ws = ws with
  | none => { server with closed := ws :: server.closed }
  | some entry =>
    { server with nodes := server.nodes.delete entry.1, closed := ws :: server.closed }

def step (options : Options Id Token) (server : SignallingServer Id Socket Key) :
    Event Id Socket Key Token → SignallingServer Id Socket Key
  | .register ws message => server.handleRegister options ws message
  | .close ws => server.handleWsClose ws

def run (options : Options Id Token) (server : SignallingServer Id Socket Key)
    (events : List (Event Id Socket Key Token)) : SignallingServer Id Socket Key :=
  events.foldl (step options) server

/-- A valid address in `10.200.0.0/16`. -/
def InNetwork (ip : Ip) : Prop :=
  ∃ third fourth, (Text.cut '.' ip).map Text.octet =
    [some 10, some 200, some third, some fourth]

structure Sound (server : SignallingServer Id Socket Key) : Prop where
  distinct : ∀ a b na nb, server.nodes.get a = some na → server.nodes.get b = some nb →
    na.virtualIp = nb.virtualIp → a = b
  valid : ∀ id node, server.nodes.get id = some node → InNetwork node.virtualIp
  bound : ∀ id node, server.nodes.get id = some node → node.ws ∉ server.closed

/-- The address of a new node is right: one that is pinned is in the network, and the counter
stands at an octet that no node has pinned. -/
def Assignable (options : Options Id Token) (server : SignallingServer Id Socket Key)
    (nodeId : Id) : Prop :=
  match server.pinnedIp options nodeId with
  | some pinned => InNetwork pinned
  | none => server.virtualIpCounter ≤ 255 ∧ ∀ id node, server.nodes.get id = some node →
      node.virtualIp ≠ counterIp server.virtualIpCounter

/-- The condition on an event. Messages come from sockets that are open. -/
def Fair (options : Options Id Token) (server : SignallingServer Id Socket Key) :
    Event Id Socket Key Token → Prop
  | .register ws message => ws ∉ server.closed ∧ ∀ nodeId publicKey,
      accepted options message = some (nodeId, publicKey) → server.nodes.get nodeId = none →
        server.Assignable options nodeId
  | .close ws => ∀ a b na nb, server.nodes.get a = some na → server.nodes.get b = some nb →
      na.ws = ws → nb.ws = ws → a = b

def AllFair (options : Options Id Token) (server : SignallingServer Id Socket Key) :
    List (Event Id Socket Key Token) → Prop
  | [] => True
  | event :: events => server.Fair options event ∧ AllFair options (server.step options event) events

variable {options : Options Id Token} {server : SignallingServer Id Socket Key}

theorem counterIp_inNetwork {counter : Nat} (h : counter ≤ 255) : InNetwork (counterIp counter) := by
  have hcut : Text.cut '.' (counterIp counter) =
      ["10".toList, "200".toList, "0".toList, Text.decimal counter] := by
    change Text.cut '.' ("10".toList ++ '.' :: ("200".toList ++ '.' :: ("0".toList ++ '.' ::
      Text.decimal counter))) = _
    rw [Text.cut_append_dot (by decide), Text.cut_append_dot (by decide),
      Text.cut_append_dot (by decide), Text.cut_of_no_dot (Text.dot_not_mem_decimal counter)]
  refine ⟨0, counter, ?_⟩
  have hfixed : ["10".toList, "200".toList, "0".toList].map Text.octet =
      [some 10, some 200, some 0] := by decide
  change _ = [some 10, some 200, some 0] ++ [some counter]
  rw [hcut, ← hfixed, ← Text.octet_decimal (show counter < 256 by omega)]
  rfl

omit [DecidableEq Socket] [DecidableEq Token] in
theorem pinnedIp_unused {nodeId : Id} {pinned : Ip}
    (h : server.pinnedIp options nodeId = some pinned) {id : Id}
    {node : RegisteredNode Socket Key} (hnode : server.nodes.get id = some node)
    (hne : id ≠ nodeId) : node.virtualIp ≠ pinned := by
  obtain ⟨-, hfree⟩ := Option.filter_eq_some_iff.mp h
  rw [Bool.not_eq_true', conflict, List.any_eq_false] at hfree
  intro heq
  exact hfree (id, node) (Table.mem_of_get hnode) (by simp [heq, hne])

omit [DecidableEq Socket] in
theorem Sound.set {nodeId : Id} {node : RegisteredNode Socket Key} (h : Sound server)
    (hip : ∀ id other, server.nodes.get id = some other → id ≠ nodeId →
      other.virtualIp ≠ node.virtualIp)
    (hvalid : InNetwork node.virtualIp) (hopen : node.ws ∉ server.closed) (counter : Nat) :
    Sound (⟨server.nodes.set nodeId node, counter, server.closed⟩ :
      SignallingServer Id Socket Key) := by
  have hcases : ∀ id other, (server.nodes.set nodeId node).get id = some other →
      id = nodeId ∧ other = node ∨ id ≠ nodeId ∧ server.nodes.get id = some other := by
    intro id other hother
    rw [Table.get_set] at hother
    split at hother
    case isTrue heq => exact .inl ⟨heq.symm, (Option.some.inj hother).symm⟩
    case isFalse hne => exact .inr ⟨Ne.symm hne, hother⟩
  refine ⟨?_, ?_, ?_⟩
  · intro a b na nb ha hb heq
    rcases hcases a na ha with ⟨rfl, rfl⟩ | ⟨hane, hola⟩ <;>
      rcases hcases b nb hb with ⟨rfl, rfl⟩ | ⟨hbne, holb⟩
    · rfl
    · exact absurd heq.symm (hip b nb holb hbne)
    · exact absurd heq (hip a na hola hane)
    · exact h.distinct a b na nb hola holb heq
  · intro id other hother
    rcases hcases id other hother with ⟨-, rfl⟩ | ⟨-, hold⟩
    · exact hvalid
    · exact h.valid id other hold
  · intro id other hother
    rcases hcases id other hother with ⟨-, rfl⟩ | ⟨-, hold⟩
    · exact hopen
    · exact h.bound id other hold

omit [DecidableEq Socket] [DecidableEq Token] in
theorem Sound.add {ws : Socket} {nodeId : Id} {publicKey : Key} (h : Sound server)
    (hopen : ws ∉ server.closed) (hassignable : server.Assignable options nodeId) :
    Sound (server.add options ws nodeId publicKey) := by
  unfold SignallingServer.add
  unfold Assignable at hassignable
  split at hassignable
  case h_1 pinned hpinned =>
    exact h.set (fun id other hother hne => pinnedIp_unused hpinned hother hne) hassignable hopen _
  case h_2 =>
    exact h.set (fun id other hother _ => hassignable.2 id other hother)
      (counterIp_inNetwork hassignable.1) hopen _

omit [DecidableEq Socket] in
theorem Sound.handleRegister {ws : Socket} {message : Register Id Key Token} (h : Sound server)
    (hfair : server.Fair options (.register ws message)) :
    Sound (server.handleRegister options ws message) := by
  obtain ⟨hopen, hassignable⟩ := hfair
  unfold SignallingServer.handleRegister
  split
  case h_1 => exact h
  rename_i nodeId publicKey haccepted
  split
  case h_1 existing hexisting =>
    have hbound : ({ existing with ws, publicKey } : RegisteredNode Socket Key).ws ∉
        server.closed := hopen
    have hvalid : InNetwork ({ existing with ws, publicKey } :
        RegisteredNode Socket Key).virtualIp := h.valid nodeId existing hexisting
    refine h.set ?_ hvalid hbound _
    intro id other hother hne heq
    exact hne (h.distinct id nodeId other existing hother hexisting heq)
  case h_2 hnew => exact h.add hopen (hassignable nodeId publicKey haccepted hnew)

theorem Sound.handleWsClose {ws : Socket} (h : Sound server)
    (hfair : server.Fair options (.close ws : Event Id Socket Key Token)) :
    Sound (server.handleWsClose ws) := by
  unfold SignallingServer.handleWsClose
  split
  case h_1 hnone =>
    refine ⟨h.distinct, h.valid, ?_⟩
    intro id node hnode
    rw [List.mem_cons, not_or]
    refine ⟨fun heq => ?_, h.bound id node hnode⟩
    have hunbound := List.find?_eq_none.mp hnone (id, node) (Table.mem_of_get hnode)
    exact hunbound (by simpa using heq)
  case h_2 entry hfound =>
    have hbound : entry.2.ws = ws := by simpa using List.find?_some hfound
    have hentry := Table.get_of_mem entry.2 (List.mem_of_find?_eq_some hfound)
    have hkept : ∀ id node, (server.nodes.delete entry.1).get id = some node →
        entry.1 ≠ id ∧ server.nodes.get id = some node := by
      intro id node hnode
      rw [Table.get_delete] at hnode
      split at hnode
      case isTrue => cases hnode
      case isFalse hne => exact ⟨hne, hnode⟩
    refine ⟨?_, ?_, ?_⟩
    · intro a b na nb ha hb heq
      exact h.distinct a b na nb (hkept a na ha).2 (hkept b nb hb).2 heq
    · intro id node hnode
      exact h.valid id node (hkept id node hnode).2
    · intro id node hnode
      obtain ⟨hne, hold⟩ := hkept id node hnode
      rw [List.mem_cons, not_or]
      refine ⟨fun heq => ?_, h.bound id node hold⟩
      -- no other node is bound to the socket
      exact hne (hfair entry.1 id entry.2 node hentry hold hbound heq)

theorem step_sound {event : Event Id Socket Key Token} (h : Sound server)
    (hfair : server.Fair options event) : Sound (server.step options event) := by
  cases event with
  | register ws message => exact h.handleRegister hfair
  | close ws => exact h.handleWsClose hfair

theorem run_sound {events : List (Event Id Socket Key Token)} (h : Sound server)
    (hfair : server.AllFair options events) : Sound (server.run options events) := by
  induction events generalizing server with
  | nil => exact h
  | cons event events ih => exact ih (step_sound h hfair.1) hfair.2

omit [DecidableEq Socket] in
theorem init_sound : Sound (init : SignallingServer Id Socket Key) := by
  refine ⟨?_, ?_, ?_⟩ <;> intro <;> simp_all [init]

/-- Every run whose events meet the condition reaches a sound state. -/
theorem reached_server_sound (options : Options Id Token)
    (events : List (Event Id Socket Key Token))
    (hfair : AllFair options (init : SignallingServer Id Socket Key) events) :
    Sound (run options (init : SignallingServer Id Socket Key) events) :=
  run_sound init_sound hfair

end SignallingServer

end Server

/-- Without a token, and with an address pinned for node 1. -/
def onePinned : Options Nat Unit where
  pinnedIps nodeId := if nodeId = 1 then some "10.200.0.2".toList else none
  registrationToken := none

def registration (nodeId : Nat) : Register Nat Unit Unit := ⟨some nodeId, some (), none⟩

/-- A node with a pinned address and the first one of the counter have the same address; and of
two nodes on one socket the second stays when it closes. -/
theorem addresses_clash :
    (let server : SignallingServer Nat Nat Unit := SignallingServer.run onePinned .init
      [.register 7 (registration 1), .register 8 (registration 2)]
    (server.nodes.get 1).map RegisteredNode.virtualIp =
      (server.nodes.get 2).map RegisteredNode.virtualIp ∧ server.nodes.has 1 = true) ∧
    (let server : SignallingServer Nat Nat Unit := SignallingServer.run onePinned .init
      [.register 7 (registration 2), .register 7 (registration 3), .close 7]
    (server.nodes.get 3).map RegisteredNode.ws = some 7) := by
  decide +kernel

/-- One node with a pinned address, whose socket closes. -/
theorem pinned_node_sound : SignallingServer.Sound
    (SignallingServer.run onePinned .init [.register 7 (registration 1), .close 7] :
      SignallingServer Nat Nat Unit) := by
  refine SignallingServer.reached_server_sound onePinned
    [.register 7 (registration 1), .close 7] ⟨⟨List.not_mem_nil, ?_⟩, ?_, trivial⟩
  · intro nodeId publicKey haccepted _
    have hnode : some ((1 : Nat), ()) = some (nodeId, publicKey) := haccepted
    cases hnode
    exact ⟨0, 2, by decide⟩
  · intro a b na nb ha hb _ _
    have hone : ∀ id (node : RegisteredNode Nat Unit),
        (SignallingServer.init.handleRegister onePinned 7 (registration 1)).nodes.get id =
          some node → id = 1 := by
      intro id node hnode
      have hin : (id, node) ∈ [(1, (⟨7, (), "10.200.0.2".toList⟩ : RegisteredNode Nat Unit))] :=
        Table.mem_of_get hnode
      exact congrArg Prod.fst (List.mem_singleton.mp hin)
    rw [hone a na ha, hone b nb hb]

end Meshpn.Signaling.Registry
