import Meshpn.Bridge.TunBridge
import Mathlib.Data.List.Sublists
import Mathlib.Tactic.Tauto

/-!
The flags and the queues of a bridge. Most operations leave the flags and the
waiting packets alone, and every way of taking the wire down leaves it disarmed
with nothing waiting. The invariant says that what was sent, what waits for the
data channel and what waits for a wire are together a subsequence of what came
from the TUN.
-/

namespace Meshpn.Bridge

open Meshpn.Lib

namespace TunBridge

/-- Neither the flags, the handlers nor the queue of waiting packets change, and no endpoint
comes back. -/
structure Still (a b : TunBridge) : Prop where
  ep : b.ep = a.ep := by rfl
  wireArmed : b.wireArmed = a.wireArmed := by rfl
  connecting : b.connecting = a.connecting := by rfl
  lazyPending : b.lazyPending = a.lazyPending := by rfl
  tunQueue : b.tunQueue = a.tunQueue := by rfl
  wireOn : b.wireOn = a.wireOn := by rfl
  wireOff : b.wireOff = a.wireOff := by rfl
  drainOn : b.drainOn = a.drainOn := by rfl
  handed : b.handed = a.handed := by rfl
  destroyed : ∀ e, (a.endpoints e).destroyed = true → (b.endpoints e).destroyed = true := by
    exact fun _ => id
  released : ∀ e, (a.endpoints e).released = true → (b.endpoints e).released = true := by
    exact fun _ => id
  gone : ∀ e, (a.endpoints e).gone = true → (b.endpoints e).gone = true := by exact fun _ => id

theorem Still.refl (a : TunBridge) : Still a a := { }

theorem Still.trans {a b c : TunBridge} (hab : Still a b) (hbc : Still b c) : Still a c where
  ep := hbc.ep.trans hab.ep
  wireArmed := hbc.wireArmed.trans hab.wireArmed
  connecting := hbc.connecting.trans hab.connecting
  lazyPending := hbc.lazyPending.trans hab.lazyPending
  tunQueue := hbc.tunQueue.trans hab.tunQueue
  wireOn := hbc.wireOn.trans hab.wireOn
  wireOff := hbc.wireOff.trans hab.wireOff
  drainOn := hbc.drainOn.trans hab.drainOn
  handed := hbc.handed.trans hab.handed
  destroyed e h := hbc.destroyed e (hab.destroyed e h)
  released e h := hbc.released e (hab.released e h)
  gone e h := hbc.gone e (hab.gone e h)

/-- Nothing is sent either. -/
structure Aside (a b : TunBridge) : Prop extends Still a b where
  sent : b.sent = a.sent := by rfl
  dcQueue : b.dcQueue = a.dcQueue := by rfl

theorem Aside.refl (a : TunBridge) : Aside a a := { }

theorem Aside.trans {a b c : TunBridge} (hab : Aside a b) (hbc : Aside b c) : Aside a c :=
  ⟨hab.toStill.trans hbc.toStill, hbc.sent.trans hab.sent, hbc.dcQueue.trans hab.dcQueue⟩

section Asides

variable (config : BridgeConfig) (bridge : TunBridge)

theorem aside_bumpActivity : Aside bridge (bridge.bumpActivity config) := by
  unfold bumpActivity
  split
  · exact { }
  · exact .refl bridge

theorem aside_cancelTimers : Aside bridge bridge.cancelTimers :=
  { }

theorem aside_writeTun (pkt : Bytes) : Aside bridge (bridge.writeTun config pkt) := by
  unfold writeTun
  split
  · exact { }
  · exact .refl bridge

theorem aside_writeAll (pkts : List Bytes) : Aside bridge (bridge.writeAll config pkts) := by
  induction pkts generalizing bridge with
  | nil => exact .refl bridge
  | cons pkt rest ih => exact (aside_writeTun config bridge pkt).trans (ih _)

theorem aside_startCooldown (now : Nat) : Aside bridge (bridge.startCooldown config now) := by
  unfold startCooldown
  split
  · exact { }
  · exact .refl bridge

/-- A change that undoes nothing. -/
structure Onward (a b : Endpoint) : Prop where
  destroyed : a.destroyed = true → b.destroyed = true := by exact id
  released : a.released = true → b.released = true := by exact id
  gone : a.gone = true → b.gone = true := by exact id

theorem aside_modify (e : Nat) {change : Endpoint → Endpoint}
    (honward : ∀ endpoint, Onward endpoint (change endpoint)) :
    Aside bridge (bridge.modify e change) := by
  have hupdate : ∀ flag : Endpoint → Bool,
      (∀ endpoint, flag endpoint = true → flag (change endpoint) = true) →
      ∀ other, flag (bridge.endpoints other) = true →
        flag ((bridge.modify e change).endpoints other) = true := by
    intro flag hflag other hother
    unfold modify
    by_cases heq : other = e
    · subst heq
      simpa using hflag _ hother
    · simpa [Function.update_of_ne heq] using hother
  exact {
    destroyed := hupdate (·.destroyed) fun endpoint => (honward endpoint).destroyed
    released := hupdate (·.released) fun endpoint => (honward endpoint).released
    gone := hupdate (·.gone) fun endpoint => (honward endpoint).gone }

theorem aside_end (e : Nat) :
    Aside bridge (bridge.modify e fun endpoint => { endpoint with ended := true }) :=
  aside_modify bridge e fun _ => { released := fun _ => by simp [Endpoint.released] }

theorem aside_resetTcpEndpoint (sock : Option Nat) :
    Aside bridge (bridge.resetTcpEndpoint sock) := by
  unfold resetTcpEndpoint
  split
  · exact .refl bridge
  split
  · exact .refl bridge
  · exact aside_modify bridge _ fun _ => { destroyed := fun _ => rfl, released := fun _ => rfl }

theorem aside_respondFinTcpEndpoint (sock : Option Nat) :
    Aside bridge (bridge.respondFinTcpEndpoint sock) := by
  unfold respondFinTcpEndpoint
  split
  · exact .refl bridge
  split
  · exact .refl bridge
  split
  · exact aside_resetTcpEndpoint bridge _
  · split
    · exact .refl bridge
    · exact aside_end bridge _

theorem aside_gracefulCloseTcpEndpoint (sock : Nat) :
    Aside bridge (bridge.gracefulCloseTcpEndpoint sock) := by
  unfold gracefulCloseTcpEndpoint
  split
  · exact .refl bridge
  split
  · exact aside_resetTcpEndpoint bridge _
  · split
    · exact aside_resetTcpEndpoint bridge _
    · exact aside_end bridge _

theorem aside_closeBridgeEndpoint (prev : Option Nat) :
    Aside bridge (bridge.closeBridgeEndpoint config prev) := by
  unfold closeBridgeEndpoint
  split
  · exact .refl bridge
  split
  · exact .refl bridge
  split
  · split
    · exact aside_resetTcpEndpoint bridge _
    · split
      · exact aside_gracefulCloseTcpEndpoint bridge _
      · exact aside_respondFinTcpEndpoint bridge _
  · exact aside_modify bridge _ fun _ => { released := fun _ => Bool.or_true _ }
  · exact aside_modify bridge _ fun _ => { released := fun _ => Bool.or_true _ }
  · exact aside_modify bridge _ fun _ => { released := fun _ => Bool.or_true _ }
  · exact .refl bridge

theorem aside_onData (sock : Nat) (chunk : Bytes) :
    Aside bridge (bridge.onData config sock chunk) := by
  unfold onData
  have hfed : Aside bridge { bridge.bumpActivity config with
      framer := (bridge.framer.push chunk).framer } :=
    (aside_bumpActivity config bridge).trans
      { }
  have hwritten := hfed.trans (aside_writeAll config _ (bridge.framer.push chunk).packets)
  dsimp only
  split
  · exact hwritten
  · exact hwritten.trans (aside_resetTcpEndpoint _ _)

theorem aside_onDatagram (msg : Bytes) : Aside bridge (bridge.onDatagram config msg) := by
  unfold onDatagram
  split
  · exact .refl bridge
  split
  · exact .refl bridge
  · refine Aside.trans ?_ ((aside_bumpActivity config _).trans (aside_writeTun config _ msg))
    exact aside_modify bridge _ fun _ => { }
  · exact (aside_bumpActivity config bridge).trans (aside_writeTun config _ msg)

theorem aside_noteEvent (e : Nat) (event : EndpointEvent) :
    Aside bridge (bridge.noteEvent config e event) := by
  unfold noteEvent
  split
  · refine aside_modify bridge e fun _ => ⟨fun h => by simp [h], fun h => ?_, fun _ => rfl⟩
    simp only [Endpoint.released, Bool.or_eq_true] at h ⊢
    tauto
  · exact aside_modify bridge e fun _ => { }
  all_goals exact .refl bridge

theorem aside_socket (e : Nat) (destroyed readableEnded ended unwritable : Bool) :
    Aside bridge (bridge.modify e fun endpoint => { endpoint with
      destroyed := endpoint.destroyed || destroyed
      readableEnded := endpoint.readableEnded || readableEnded
      ended := endpoint.ended || ended
      unwritable := endpoint.unwritable || unwritable }) := by
  refine aside_modify bridge e fun _ => ⟨fun h => by simp [h], fun h => ?_, id⟩
  simp only [Endpoint.released, Bool.or_eq_true] at h ⊢
  tauto

end Asides

section TakenDown

variable (config : BridgeConfig) (bridge : TunBridge)

/-- The endpoints that keep the handlers of a wire when `wireOff` is called. -/
def detached : List Nat :=
  match bridge.wireOff with
  | none => bridge.wireOn
  | some e =>
    if config.transport = .webrtcDc ∨ (config.transport = .udpServer ∧ bridge.ep ≠ some e) then
      bridge.wireOn
    else bridge.wireOn.erase e

theorem detachWire_eq : bridge.detachWire config =
    { bridge with wireOff := none, wireOn := bridge.detached config } := by
  unfold detachWire detached
  cases hoff : bridge.wireOff with
  | none =>
    cases bridge
    cases hoff
    rfl
  | some e =>
    dsimp only
    split <;> rfl

theorem attachWireHandlers_eq {e : Nat} (hep : bridge.ep = some e) :
    bridge.attachWireHandlers config =
      { bridge with wireOff := some e, wireOn := bridge.detached config ++ [e] } := by
  unfold attachWireHandlers
  simp only [detachWire_eq, hep]

def cooledUntil (now : Nat) : Nat :=
  if 0 < config.cooldownMs ∧ config.lazyConnect = true then now + config.cooldownMs
  else bridge.idleCooldownUntilMs

theorem startCooldown_eq (now : Nat) : bridge.startCooldown config now =
    { bridge with idleCooldownUntilMs := bridge.cooledUntil config now } := by
  unfold startCooldown cooledUntil
  split <;> rfl

def disarmed : TunBridge :=
  { bridge with
    idleTimer := false
    wireOff := none
    wireOn := bridge.detached config
    wireArmed := false
    tunQueue := [] }

def takenDown : TunBridge :=
  { bridge.disarmed config with
    dcQueue := []
    dcPumpScheduled := false
    ep := none
    tcpFramedSend := none }

theorem tearDown_eq (reason : Reason) (now : Nat) :
    ∃ cooled, bridge.tearDown config reason now =
      if bridge.teardownBusy then bridge
      else if bridge.wireArmed = false ∧ bridge.ep = none ∧ bridge.connecting = false then
        { bridge with tunQueue := [] }
      else
        let cleared : TunBridge := { bridge.takenDown config with
          drainOn := none, idleCooldownUntilMs := cooled }
        if config.transport = .tcp then
          if reason = .peerClose then cleared.respondFinTcpEndpoint bridge.ep
          else cleared.resetTcpEndpoint bridge.ep
        else cleared := by
  refine ⟨if reason = .idle then bridge.cooledUntil config now
    else bridge.idleCooldownUntilMs, ?_⟩
  unfold tearDown takenDown disarmed
  simp only [startCooldown_eq, detachWire_eq]
  by_cases hidle : reason = .idle
  · simp only [hidle, if_true]
    rfl
  · simp only [hidle, if_false]
    rfl

theorem tcpClientIdleDisarm_eq (now : Nat) :
    bridge.tcpClientIdleDisarm config now =
      if bridge.teardownBusy then bridge
      else if bridge.wireArmed = false ∧ bridge.ep = none then bridge
      else
        let cooled : TunBridge := { bridge.disarmed config with
          idleCooldownUntilMs := bridge.cooledUntil config now }
        match bridge.ep with
        | some sock =>
          if (bridge.endpoints sock).destroyed then cooled
          else { cooled with drainOn := some sock }
        | none => cooled := by
  unfold tcpClientIdleDisarm disarmed
  simp only [startCooldown_eq, detachWire_eq]
  rfl

theorem tcpServerIdleGracefulClose_eq (now : Nat) :
    bridge.tcpServerIdleGracefulClose config now =
      if bridge.teardownBusy then bridge
      else
        let cooled : TunBridge := { bridge.takenDown config with
          idleCooldownUntilMs := bridge.cooledUntil config now }
        match bridge.ep with
        | some sock =>
          if (bridge.endpoints sock).destroyed then cooled
          else { cooled.gracefulCloseTcpEndpoint sock with teardownBusy := true }
        | none => cooled := by
  unfold tcpServerIdleGracefulClose takenDown disarmed
  simp only [startCooldown_eq, detachWire_eq]
  rfl

/-- The wire of an endpoint that has taken the place of another one. -/
def replaced (newEp : Nat) : TunBridge :=
  { bridge with
    handed := bridge.handed ++ [newEp]
    idleTimer := false
    wireOff := some newEp
    wireOn := bridge.detached config ++ [newEp]
    ep := some newEp
    wireArmed := true
    dcQueue := []
    dcPumpScheduled := false
    tcpFramedSend := none
    framer := .init }

theorem reconnectWire_eq (newEp : Nat) :
    bridge.reconnectWire config newEp =
      if bridge.connecting then { bridge with handed := bridge.handed ++ [newEp] }
      else
        (((bridge.replaced config newEp).bumpActivity config).closeBridgeEndpoint config
          bridge.ep).flushTunQueue config := by
  unfold reconnectWire attachWireHandlers
  simp only [detachWire_eq]
  rfl

end TakenDown

/-- What was sent, then what waits for the channel, then `waiting`, are in the order of the
TUN. -/
def Ordered (bridge : TunBridge) (waiting seen : List Bytes) : Prop :=
  (bridge.sent.map Prod.snd ++ bridge.dcQueue ++ waiting).Sublist seen

section Sending

variable {config : BridgeConfig} {bridge : TunBridge} {waiting seen : List Bytes}

theorem Ordered.drop {fewer : List Bytes} (hordered : bridge.Ordered waiting seen)
    (hfewer : fewer.Sublist waiting) : bridge.Ordered fewer seen :=
  ((List.Sublist.refl _).append hfewer).trans hordered

theorem Ordered.more (hordered : bridge.Ordered waiting seen) (pkt : Bytes) :
    bridge.Ordered (waiting ++ [pkt]) (seen ++ [pkt]) := by
  unfold Ordered
  rw [← List.append_assoc]
  exact hordered.append (List.Sublist.refl _)

theorem Ordered.pass (hordered : bridge.Ordered waiting seen) (pkt : Bytes) :
    bridge.Ordered waiting (seen ++ [pkt]) :=
  hordered.trans (List.sublist_append_left _ _)

theorem Ordered.congr {other : TunBridge} (hordered : bridge.Ordered waiting seen)
    (hsent : other.sent = bridge.sent) (hqueue : other.dcQueue.Sublist bridge.dcQueue) :
    other.Ordered waiting seen := by
  unfold Ordered
  rw [hsent]
  exact (((List.Sublist.refl _).append hqueue).append (List.Sublist.refl _)).trans hordered

theorem Ordered.send {other : TunBridge} {pkt : Bytes} {dest : Nat}
    (hordered : bridge.Ordered (pkt :: waiting) seen) (hempty : bridge.dcQueue = [])
    (hsent : other.sent = bridge.sent ++ [(dest, pkt)]) (hqueue : other.dcQueue = []) :
    other.Ordered waiting seen := by
  unfold Ordered at hordered ⊢
  rw [hempty] at hordered
  rw [hsent, hqueue]
  simpa using hordered

theorem still_sendOnWire (bridge : TunBridge) (pkt : Bytes) :
    Still bridge (bridge.sendOnWire config pkt) := by
  have hbumped := (aside_bumpActivity config bridge).toStill
  have hwith : ∀ {other : TunBridge}, Still (bridge.bumpActivity config) other →
      Still bridge other := fun h => hbumped.trans h
  unfold sendOnWire
  split
  · split
    · split
      · exact .refl bridge
      · split
        · exact hbumped
        · exact hwith { }
    · exact hwith { }
    · exact hwith { }
    · exact hwith { }
    · dsimp only
      split <;> exact hwith { }
  · exact .refl bridge

def ChannelOnly (config : BridgeConfig) (bridge : TunBridge) : Prop :=
  config.transport ≠ .webrtcDc → bridge.dcQueue = []

theorem sendOnWire_ordered {pkt : Bytes} (hordered : bridge.Ordered (pkt :: waiting) seen)
    (hchannel : bridge.ChannelOnly config) :
    (bridge.sendOnWire config pkt).Ordered waiting seen ∧
      (bridge.sendOnWire config pkt).ChannelOnly config := by
  have hkept := hordered.drop (List.sublist_cons_self pkt waiting)
  have hbumped := aside_bumpActivity config bridge
  unfold sendOnWire
  split
  case h_2 => exact ⟨hkept, hchannel⟩
  rename_i e _ _
  split
  case h_1 htransport =>
    have hempty := hchannel (by simp [htransport])
    split
    · exact ⟨hkept, hchannel⟩
    split
    · exact ⟨hkept.congr hbumped.sent (by rw [hbumped.dcQueue]),
        fun _ => hbumped.dcQueue.trans hempty⟩
    · exact ⟨hordered.send hempty rfl (hbumped.dcQueue.trans hempty),
        fun _ => hbumped.dcQueue.trans hempty⟩
  case h_2 htransport =>
    have hempty := hchannel (by simp [htransport])
    exact ⟨hordered.send hempty rfl (hbumped.dcQueue.trans hempty),
      fun _ => hbumped.dcQueue.trans hempty⟩
  case h_3 htransport =>
    have hempty := hchannel (by simp [htransport])
    exact ⟨hordered.send hempty rfl (hbumped.dcQueue.trans hempty),
      fun _ => hbumped.dcQueue.trans hempty⟩
  case h_4 htransport =>
    have hempty := hchannel (by simp [htransport])
    exact ⟨hordered.send hempty rfl (hbumped.dcQueue.trans hempty),
      fun _ => hbumped.dcQueue.trans hempty⟩
  case h_5 htransport =>
    have hqueued : ∀ other : TunBridge, other.sent = bridge.sent →
        other.dcQueue = bridge.dcQueue ++ [pkt] → other.Ordered waiting seen := by
      intro other hsent hqueue
      unfold Ordered at hordered ⊢
      rw [hsent, hqueue]
      simpa using hordered
    dsimp only
    split
    · exact ⟨hqueued _ hbumped.sent rfl, fun h => absurd htransport h⟩
    · exact ⟨hqueued _ hbumped.sent rfl, fun h => absurd htransport h⟩

theorem still_sendAll (bridge : TunBridge) (pkts : List Bytes) :
    Still bridge (bridge.sendAll config pkts) := by
  induction pkts generalizing bridge with
  | nil => exact .refl bridge
  | cons pkt rest ih => exact (still_sendOnWire bridge pkt).trans (ih _)

theorem sendAll_ordered {pkts : List Bytes} (hordered : bridge.Ordered pkts seen)
    (hchannel : bridge.ChannelOnly config) :
    (bridge.sendAll config pkts).Ordered [] seen ∧
      (bridge.sendAll config pkts).ChannelOnly config := by
  induction pkts generalizing bridge with
  | nil => exact ⟨hordered, hchannel⟩
  | cons pkt rest ih =>
    obtain ⟨hsent, hchannel'⟩ := sendOnWire_ordered hordered hchannel
    exact ih hsent hchannel'

end Sending

structure Sound (config : BridgeConfig) (bridge : TunBridge) (seen : List Bytes) : Prop where
  armed : bridge.wireArmed = true → bridge.ep ≠ none
  pending : bridge.connecting = bridge.lazyPending
  unarmed : bridge.connecting = true → bridge.wireArmed = false
  drained : bridge.wireArmed = true → bridge.tunQueue = []
  waiting : bridge.tunQueue ≠ [] → bridge.connecting = true ∨ bridge.ep = none
  short : bridge.tunQueue.length ≤ keepaliveTunQueueMax
  channel : bridge.ChannelOnly config
  ordered : bridge.Ordered bridge.tunQueue seen
  -- an idle socket that waits for its end is not the endpoint of an armed wire, and a TCP
  -- client connects only when the socket it has is destroyed
  draining : ∀ e, bridge.drainOn = some e → config.transport = .tcp ∧
    config.tcpWireRole = .client ∧ (bridge.ep = some e → bridge.wireArmed = false)
  replacing : bridge.connecting = true → config.transport = .tcp → config.tcpWireRole = .client →
    ∀ e, bridge.ep = some e → (bridge.endpoints e).destroyed = true
  known : ∀ e, bridge.ep = some e ∨ bridge.drainOn = some e → e ∈ bridge.handed

namespace Sound

variable {config : BridgeConfig} {bridge other : TunBridge} {seen : List Bytes}

theorem aside (hsound : Sound config bridge seen) (haside : Aside bridge other) :
    Sound config other seen where
  armed h := by rw [haside.ep]; exact hsound.armed (haside.wireArmed ▸ h)
  pending := by rw [haside.connecting, haside.lazyPending]; exact hsound.pending
  unarmed h := by rw [haside.wireArmed]; exact hsound.unarmed (haside.connecting ▸ h)
  drained h := by rw [haside.tunQueue]; exact hsound.drained (haside.wireArmed ▸ h)
  waiting h := by
    rw [haside.connecting, haside.ep]
    exact hsound.waiting (haside.tunQueue ▸ h)
  short := by rw [haside.tunQueue]; exact hsound.short
  channel h := haside.dcQueue.trans (hsound.channel h)
  ordered := by
    rw [haside.tunQueue]
    exact hsound.ordered.congr haside.sent (by rw [haside.dcQueue])
  draining e h := by
    rw [haside.ep, haside.wireArmed]
    exact hsound.draining e (haside.drainOn ▸ h)
  replacing h htcp hclient e he :=
    haside.destroyed e (hsound.replacing (haside.connecting ▸ h) htcp hclient e (haside.ep ▸ he))
  known e h := by
    rw [haside.handed]
    exact hsound.known e (by rw [← haside.ep, ← haside.drainOn]; exact h)

theorem pass (hsound : Sound config bridge seen) (pkt : Bytes) :
    Sound config bridge (seen ++ [pkt]) :=
  { hsound with ordered := hsound.ordered.pass pkt }

theorem disarm (hsound : Sound config bridge seen)
    (hconnecting : other.connecting = bridge.connecting)
    (hpending : other.lazyPending = bridge.lazyPending) (harmed : other.wireArmed = false)
    (hqueue : other.tunQueue = []) (hchannel : other.dcQueue.Sublist bridge.dcQueue)
    (hsent : other.sent = bridge.sent)
    (hep : ∀ e, other.ep = some e → bridge.ep = some e)
    (hdestroyed : ∀ e, (bridge.endpoints e).destroyed = true → (other.endpoints e).destroyed = true)
    (hdraining : ∀ e, other.drainOn = some e → config.transport = .tcp ∧
      config.tcpWireRole = .client ∧ e ∈ bridge.handed)
    (hhanded : other.handed = bridge.handed) : Sound config other seen where
  armed h := by rw [harmed] at h; cases h
  pending := by rw [hconnecting, hpending]; exact hsound.pending
  unarmed _ := harmed
  drained _ := hqueue
  waiting h := absurd hqueue h
  short := by simp [hqueue, keepaliveTunQueueMax]
  channel h := by
    rw [hsound.channel h] at hchannel
    exact List.sublist_nil.mp hchannel
  ordered := by
    rw [hqueue]
    exact (hsound.ordered.drop (List.nil_sublist _)).congr hsent hchannel
  draining e h := ⟨(hdraining e h).1, (hdraining e h).2.1, fun _ => harmed⟩
  replacing h htcp hclient e he :=
    hdestroyed e (hsound.replacing (hconnecting ▸ h) htcp hclient e (hep e he))
  known e h := by
    rw [hhanded]
    rcases h with h | h
    · exact hsound.known e (.inl (hep e h))
    · exact (hdraining e h).2.2

theorem arm (hep : other.ep ≠ none) (hconnecting : other.connecting = false)
    (hpending : other.lazyPending = false) (hqueue : other.tunQueue = [])
    (hchannel : other.ChannelOnly config) (hordered : other.Ordered [] seen)
    (hdraining : ∀ e, other.drainOn = some e → config.transport = .tcp ∧
      config.tcpWireRole = .client ∧ other.ep ≠ some e)
    (hknown : ∀ e, other.ep = some e ∨ other.drainOn = some e → e ∈ other.handed) :
    Sound config other seen where
  armed _ := hep
  pending := hconnecting.trans hpending.symm
  unarmed h := by rw [hconnecting] at h; cases h
  drained _ := hqueue
  waiting h := absurd hqueue h
  short := by simp [hqueue, keepaliveTunQueueMax]
  channel := hchannel
  ordered := by rw [hqueue]; exact hordered
  draining e h := ⟨(hdraining e h).1, (hdraining e h).2.1, fun he => absurd he (hdraining e h).2.2⟩
  replacing h := by rw [hconnecting] at h; cases h
  known := hknown

theorem tcpIdleDrainOff (hsound : Sound config bridge seen) :
    Sound config bridge.tcpIdleDrainOff seen :=
  { hsound with
    draining := fun e h => by cases h
    known := fun e h => by
      rcases h with h | h
      · exact hsound.known e (.inl h)
      · cases h }

theorem clearTcpEndpointRef (hsound : Sound config bridge seen) (sock : Nat)
    (hidle : bridge.ep = some sock → bridge.wireArmed = false) :
    Sound config (bridge.clearTcpEndpointRef sock) seen := by
  unfold TunBridge.clearTcpEndpointRef
  split
  case isFalse => exact hsound
  rename_i hcurrent
  exact { hsound with
    armed := fun h =>
      absurd (hidle hcurrent) (by rw [show bridge.wireArmed = true from h]; decide)
    waiting := fun _ => .inr rfl
    draining := fun e h =>
      ⟨(hsound.draining e h).1, (hsound.draining e h).2.1, fun he => by cases he⟩
    replacing := fun _ _ _ e he => by cases he
    known := fun e h => by
      rcases h with h | h
      · cases h
      · exact hsound.known e (.inr h) }

theorem empty (hsound : Sound config bridge seen) :
    Sound config { bridge with tunQueue := [] } seen :=
  { hsound with
    drained := fun _ => rfl
    waiting := fun h => absurd rfl h
    short := Nat.zero_le _
    ordered := hsound.ordered.drop (List.nil_sublist _) }

theorem takenDown (hsound : Sound config bridge seen) {drain : Option Nat} {cooled : Nat}
    (hdrain : ∀ e, drain = some e → bridge.drainOn = some e) :
    Sound config { bridge.takenDown config with drainOn := drain, idleCooldownUntilMs := cooled }
      seen :=
  hsound.disarm rfl rfl rfl rfl (List.nil_sublist _) rfl (fun e h => by cases h) (fun _ h => h)
    (fun e h => ⟨(hsound.draining e (hdrain e h)).1, (hsound.draining e (hdrain e h)).2.1,
      hsound.known e (.inr (hdrain e h))⟩) rfl

theorem tearDown (hsound : Sound config bridge seen) (reason : Reason) (now : Nat) :
    Sound config (bridge.tearDown config reason now) seen := by
  obtain ⟨cooled, htearDown⟩ := tearDown_eq config bridge reason now
  have hcleared := @takenDown config bridge seen hsound none cooled (fun e h => by cases h)
  rw [htearDown]
  split
  · exact hsound
  split
  · exact hsound.empty
  dsimp only
  split
  · split
    · exact hcleared.aside (aside_respondFinTcpEndpoint _ _)
    · exact hcleared.aside (aside_resetTcpEndpoint _ _)
  · exact hcleared

theorem tcpClientIdleDisarm (hsound : Sound config bridge seen) (htcp : config.transport = .tcp)
    (hclient : config.tcpWireRole = .client) (now : Nat) :
    Sound config (bridge.tcpClientIdleDisarm config now) seen := by
  have hdisarmed : ∀ drain : Option Nat, (∀ e, drain = some e → e ∈ bridge.handed) →
      Sound config { bridge.disarmed config with
        idleCooldownUntilMs := bridge.cooledUntil config now, drainOn := drain } seen :=
    fun drain hdrain => hsound.disarm rfl rfl rfl rfl (List.Sublist.refl _) rfl (fun _ h => h)
      (fun _ h => h) (fun e h => ⟨htcp, hclient, hdrain e h⟩) rfl
  have hkept := hdisarmed bridge.drainOn fun e h => hsound.known e (.inr h)
  rw [tcpClientIdleDisarm_eq]
  split
  case isTrue => exact hsound
  split
  case isTrue => exact hsound
  dsimp only
  split
  case h_2 => exact hkept
  rename_i sock hep
  split
  · exact hkept
  refine hdisarmed (some sock) fun e h => ?_
  cases h
  exact hsound.known sock (.inl hep)

theorem tcpServerIdleGracefulClose (hsound : Sound config bridge seen) (now : Nat) :
    Sound config (bridge.tcpServerIdleGracefulClose config now) seen := by
  have hcleared := @takenDown config bridge seen hsound bridge.drainOn
    (bridge.cooledUntil config now) fun _ h => h
  rw [tcpServerIdleGracefulClose_eq]
  split
  case isTrue => exact hsound
  dsimp only
  split
  case h_2 => exact hcleared
  rename_i sock _
  split
  case isTrue => exact hcleared
  have hclosed := hcleared.aside (aside_gracefulCloseTcpEndpoint _ sock)
  exact hclosed.aside { }

theorem teardownWire (hsound : Sound config bridge seen) (reason : Reason) (now : Nat) :
    Sound config (bridge.teardownWire config reason now) seen := by
  unfold TunBridge.teardownWire
  split
  · split
    · exact hsound.aside
        ((aside_cancelTimers bridge).trans (aside_modify _ _ fun _ => { }))
    · exact hsound.aside (aside_cancelTimers bridge)
  · rename_i htcp
    split
    · split
      · rename_i hclient
        exact hsound.tcpClientIdleDisarm htcp hclient now
      · exact hsound.tcpServerIdleGracefulClose now
    · exact hsound.tearDown _ now
  · exact hsound.tearDown _ now

theorem softTeardownWire (hsound : Sound config bridge seen) (now : Nat) :
    Sound config (bridge.softTeardownWire config now) seen := by
  unfold TunBridge.softTeardownWire
  split
  · exact hsound
  split
  · exact hsound.empty
  refine Sound.aside ?_ (aside_startCooldown config _ now)
  have hempty := (hsound.aside (aside_cancelTimers bridge)).empty
  cases config.softKeepAliveIdleKeepsWire with
  | true =>
    rw [Bool.and_true]
    exact hempty
  | false =>
    exact hempty.disarm rfl rfl (Bool.and_false _) rfl (List.Sublist.refl _) rfl
      (fun _ h => h) (fun _ h => h)
      (fun e h => ⟨(hsound.draining e h).1, (hsound.draining e h).2.1,
        hsound.known e (.inr h)⟩) rfl

theorem handleTcpWireFailure (hsound : Sound config bridge seen) (resetLike : Bool) (now : Nat) :
    Sound config (bridge.handleTcpWireFailure config resetLike now) seen := by
  unfold TunBridge.handleTcpWireFailure
  split
  case isTrue => exact hsound.teardownWire _ now
  rename_i hunarmed
  split
  case h_1 => exact hsound
  rename_i sock _
  have hcleared := hsound.tcpIdleDrainOff.clearTcpEndpointRef sock fun _ =>
    Bool.eq_false_iff.mpr hunarmed
  exact hcleared.aside (aside_resetTcpEndpoint _ _)

end Sound

end TunBridge

end Meshpn.Bridge
