import Meshpn.Bridge.WireOrder

/-!
What becomes of the endpoints that a bridge was given. The six places that
replace or clear the current endpoint release it, each in its own way, except
for those that ask the variable after it was cleared, those that settle a
connect over an endpoint that is still open, and a reconnect that is turned
away. In a run without these every endpoint is current or released.
-/

namespace Meshpn.Bridge

open Meshpn.Lib

namespace TunBridge

/-- Every endpoint that was given to the bridge is the current one or released. -/
def AllReleased (bridge : TunBridge) : Prop :=
  ∀ e ∈ bridge.handed, bridge.ep = some e ∨ (bridge.endpoints e).released = true

def HoldsOpen (bridge : TunBridge) : Prop :=
  ∃ e, bridge.ep = some e ∧ (bridge.endpoints e).released = false

/-- An endpoint that stops being current is released, and none is taken without being current
or released. -/
structure Frees (a b : TunBridge) : Prop where
  handed : ∀ e ∈ b.handed, e ∈ a.handed ∨ b.ep = some e ∨ (b.endpoints e).released = true
  released : ∀ e, (a.endpoints e).released = true → (b.endpoints e).released = true
  current : ∀ e, a.ep = some e → b.ep = some e ∨ (b.endpoints e).released = true

theorem AllReleased.frees {a b : TunBridge} (hall : a.AllReleased) (hfrees : Frees a b) :
    b.AllReleased := by
  intro e he
  rcases hfrees.handed e he with h | h | h
  · rcases hall e h with h | h
    · exact hfrees.current e h
    · exact .inr (hfrees.released e h)
  · exact .inl h
  · exact .inr h

theorem Frees.trans {a b c : TunBridge} (hab : Frees a b) (hbc : Frees b c) : Frees a c where
  handed e he := by
    rcases hbc.handed e he with h | h | h
    · rcases hab.handed e h with h | h | h
      · exact .inl h
      · exact .inr (hbc.current e h)
      · exact .inr (.inr (hbc.released e h))
    · exact .inr (.inl h)
    · exact .inr (.inr h)
  released e h := hbc.released e (hab.released e h)
  current e h := by
    rcases hab.current e h with h | h
    · exact hbc.current e h
    · exact .inr (hbc.released e h)

theorem Still.frees {a b : TunBridge} (hstill : Still a b) : Frees a b where
  handed _ he := .inl (hstill.handed ▸ he)
  released := hstill.released
  current _ h := .inl (hstill.ep ▸ h)

theorem Frees.refl (a : TunBridge) : Frees a a := (Still.refl a).frees

theorem Frees.clear {a b : TunBridge} (hhanded : b.handed = a.handed)
    (hreleased : ∀ e, (a.endpoints e).released = true → (b.endpoints e).released = true)
    (hcurrent : ∀ e, a.ep = some e → (b.endpoints e).released = true) : Frees a b where
  handed _ he := .inl (hhanded ▸ he)
  released := hreleased
  current e h := .inr (hcurrent e h)

theorem not_holdsOpen {bridge : TunBridge} (hclosed : ¬bridge.HoldsOpen) (e : Nat)
    (he : bridge.ep = some e) : (bridge.endpoints e).released = true := by
  by_contra h
  exact hclosed ⟨e, he, Bool.eq_false_iff.mpr h⟩

section Release

variable (config : BridgeConfig) (bridge : TunBridge)

theorem modify_same (e : Nat) (change : Endpoint → Endpoint) :
    (bridge.modify e change).endpoints e = change (bridge.endpoints e) := by
  simp [modify]

theorem resetTcpEndpoint_released (sock : Nat) :
    ((bridge.resetTcpEndpoint (some sock)).endpoints sock).released = true := by
  unfold resetTcpEndpoint
  dsimp only
  split
  case isTrue h => simp [Endpoint.released, h]
  case isFalse => simp [modify_same, Endpoint.released]

theorem respondFinTcpEndpoint_released (sock : Nat) :
    ((bridge.respondFinTcpEndpoint (some sock)).endpoints sock).released = true := by
  unfold respondFinTcpEndpoint
  dsimp only
  split
  case isTrue h => simp [Endpoint.released, h]
  split
  · exact resetTcpEndpoint_released bridge sock
  split
  case isTrue h => simp [Endpoint.released, h]
  case isFalse => simp [modify_same, Endpoint.released]

theorem gracefulCloseTcpEndpoint_released (sock : Nat) :
    ((bridge.gracefulCloseTcpEndpoint sock).endpoints sock).released = true := by
  unfold gracefulCloseTcpEndpoint
  split
  case isTrue h => simp [Endpoint.released, h]
  split
  · exact resetTcpEndpoint_released bridge sock
  split
  · exact resetTcpEndpoint_released bridge sock
  · simp [modify_same, Endpoint.released]

theorem closeBridgeEndpoint_released (prev : Nat) (hclosable : config.transport ≠ .udpServer) :
    ((bridge.closeBridgeEndpoint config (some prev)).endpoints prev).released = true := by
  unfold closeBridgeEndpoint
  dsimp only
  split
  case isTrue h => simp [Endpoint.released, h]
  split
  · split
    · exact resetTcpEndpoint_released bridge prev
    · split
      · exact gracefulCloseTcpEndpoint_released bridge prev
      · exact respondFinTcpEndpoint_released bridge prev
  · simp [modify_same, Endpoint.released]
  · simp [modify_same, Endpoint.released]
  · simp [modify_same, Endpoint.released]
  · rename_i hudp
    exact absurd hudp hclosable

end Release

section Teardown

variable {config : BridgeConfig} {bridge : TunBridge}

theorem frees_clearTcpEndpointRef (sock : Nat)
    (hreleased : (bridge.endpoints sock).released = true) :
    Frees bridge (bridge.clearTcpEndpointRef sock) := by
  unfold clearTcpEndpointRef
  split
  case isFalse => exact .refl bridge
  rename_i hcurrent
  refine Frees.clear rfl (fun _ h => h) fun e he => ?_
  rw [hcurrent] at he
  cases he
  exact hreleased

theorem frees_clear_reset (sock : Nat) :
    Frees bridge ((bridge.tcpIdleDrainOff.clearTcpEndpointRef sock).resetTcpEndpoint
      (some sock)) := by
  have hreset := resetTcpEndpoint_released (bridge.tcpIdleDrainOff.clearTcpEndpointRef sock) sock
  have hkept := (aside_resetTcpEndpoint (bridge.tcpIdleDrainOff.clearTcpEndpointRef sock)
    (some sock)).toStill
  have hclear : (bridge.tcpIdleDrainOff.clearTcpEndpointRef sock).handed = bridge.handed ∧
      (bridge.tcpIdleDrainOff.clearTcpEndpointRef sock).endpoints = bridge.endpoints ∧
      ∀ e, e ≠ sock → bridge.ep = some e →
        (bridge.tcpIdleDrainOff.clearTcpEndpointRef sock).ep = some e := by
    unfold clearTcpEndpointRef
    split
    case isTrue hcurrent =>
      refine ⟨rfl, rfl, fun e hne he => ?_⟩
      rw [show bridge.ep = some sock from hcurrent] at he
      cases he
      exact absurd rfl hne
    case isFalse => exact ⟨rfl, rfl, fun e _ he => he⟩
  obtain ⟨hhanded, hsame, hothers⟩ := hclear
  exact {
    handed := fun e he => .inl (hhanded ▸ hkept.handed ▸ he)
    released := fun e h => hkept.released e (hsame ▸ h)
    current := fun e he => by
      by_cases heq : e = sock
      · subst heq
        exact .inr hreset
      · exact .inl (hkept.ep ▸ hothers e heq he) }

theorem frees_tearDown (reason : Reason) (now : Nat)
    (hclosed : config.transport ≠ .tcp → ¬bridge.HoldsOpen) :
    Frees bridge (bridge.tearDown config reason now) := by
  obtain ⟨cooled, htearDown⟩ := tearDown_eq config bridge reason now
  rw [htearDown]
  split
  case isTrue => exact .refl bridge
  split
  case isTrue => exact ⟨fun _ h => .inl h, fun _ h => h, fun _ h => .inl h⟩
  dsimp only
  split
  case isTrue =>
    split
    · have hkept := (aside_respondFinTcpEndpoint { bridge.takenDown config with
        drainOn := none, idleCooldownUntilMs := cooled } bridge.ep).toStill
      refine Frees.clear hkept.handed hkept.released fun e he => ?_
      rw [he]
      exact respondFinTcpEndpoint_released _ e
    · have hkept := (aside_resetTcpEndpoint { bridge.takenDown config with
        drainOn := none, idleCooldownUntilMs := cooled } bridge.ep).toStill
      refine Frees.clear hkept.handed hkept.released fun e he => ?_
      rw [he]
      exact resetTcpEndpoint_released _ e
  case isFalse htransport =>
    exact Frees.clear rfl (fun _ h => h) (not_holdsOpen (hclosed htransport))

theorem frees_tcpClientIdleDisarm (now : Nat) :
    Frees bridge (bridge.tcpClientIdleDisarm config now) := by
  have hkept : ∀ drain : Option Nat, Frees bridge { bridge.disarmed config with
      idleCooldownUntilMs := bridge.cooledUntil config now, drainOn := drain } :=
    fun _ => ⟨fun _ h => .inl h, fun _ h => h, fun _ h => .inl h⟩
  rw [tcpClientIdleDisarm_eq]
  split
  · exact .refl bridge
  split
  · exact .refl bridge
  dsimp only
  split
  · split
    · exact hkept bridge.drainOn
    · exact hkept (some _)
  · exact hkept bridge.drainOn

theorem frees_tcpServerIdleGracefulClose (now : Nat) :
    Frees bridge (bridge.tcpServerIdleGracefulClose config now) := by
  rw [tcpServerIdleGracefulClose_eq]
  split
  case isTrue => exact .refl bridge
  dsimp only
  split
  case h_2 hnone =>
    exact Frees.clear rfl (fun _ h => h) fun e he => by rw [hnone] at he; cases he
  rename_i sock hep
  have hcurrent : ∀ e, bridge.ep = some e → e = sock := fun e he => by
    rw [hep] at he
    cases he
    rfl
  split
  case isTrue hdestroyed =>
    refine Frees.clear rfl (fun _ h => h) fun e he => ?_
    rw [hcurrent e he]
    simp [takenDown, disarmed, Endpoint.released, hdestroyed]
  case isFalse =>
    have hkept := (aside_gracefulCloseTcpEndpoint { bridge.takenDown config with
      idleCooldownUntilMs := bridge.cooledUntil config now } sock).toStill
    refine Frees.clear hkept.handed hkept.released fun e he => ?_
    rw [hcurrent e he]
    exact gracefulCloseTcpEndpoint_released _ sock

theorem frees_teardownWire (reason : Reason) (now : Nat)
    (hclosed : config.transport ≠ .tcp → (config.transport = .udpServer → reason ≠ .idle) →
      ¬bridge.HoldsOpen) : Frees bridge (bridge.teardownWire config reason now) := by
  by_cases hreason : reason = .idle
  case neg =>
    rw [teardownWire_of_peer hreason]
    exact frees_tearDown _ now fun h => hclosed h fun _ => hreason
  subst hreason
  unfold teardownWire
  split
  case h_1 =>
    split
    · refine Still.frees (Aside.toStill ((aside_cancelTimers bridge).trans ?_))
      exact aside_modify _ _ fun _ => { }
    · exact (aside_cancelTimers bridge).toStill.frees
  case h_2 htcp _ =>
    split
    · split
      · exact frees_tcpClientIdleDisarm now
      · exact frees_tcpServerIdleGracefulClose now
    · exact frees_tearDown _ now fun h => absurd htcp h
  case h_3 _ hserver =>
    refine frees_tearDown _ now fun htransport => ?_
    by_cases hudp : config.transport = .udpServer
    · rintro ⟨e, he, _⟩
      exact hserver e hudp rfl he
    · exact hclosed htransport fun h => absurd h hudp

theorem frees_softTeardownWire (now : Nat) : Frees bridge (bridge.softTeardownWire config now) := by
  unfold softTeardownWire
  split
  · exact .refl bridge
  split
  · exact ⟨fun _ h => .inl h, fun _ h => h, fun _ h => .inl h⟩
  · rw [startCooldown_eq]
    exact ⟨fun _ h => .inl h, fun _ h => h, fun _ h => .inl h⟩

theorem frees_handleTcpWireFailure (htcp : config.transport = .tcp) (resetLike : Bool)
    (now : Nat) : Frees bridge (bridge.handleTcpWireFailure config resetLike now) := by
  unfold handleTcpWireFailure
  split
  · exact frees_teardownWire _ now fun h => absurd htcp h
  split
  · exact .refl bridge
  · exact frees_clear_reset _

end Teardown

section Connecting

variable {config : BridgeConfig} {bridge : TunBridge}

/-- The idle socket of a client is at its end in one direction and was not released. -/
def RefusesOpen (config : BridgeConfig) (bridge : TunBridge) : Prop :=
  bridge.wireArmed = false ∧ bridge.connecting = false ∧ config.transport = .tcp ∧
    config.tcpWireRole = .client ∧ bridge.HoldsOpen ∧
    ∃ sock, bridge.ep = some sock ∧ bridge.halfClosed sock = true

theorem frees_rearmTcpClientWire (hclosed : ¬bridge.RefusesOpen config) :
    Frees bridge (bridge.rearmTcpClientWire config).2 := by
  unfold rearmTcpClientWire
  split
  case h_2 => exact .refl bridge
  rename_i sock hep
  split
  case isTrue => exact .refl bridge
  rename_i husable
  split
  case isTrue hhalf =>
    have hcleared : Frees bridge.tcpIdleDrainOff
        (bridge.tcpIdleDrainOff.clearTcpEndpointRef sock) := by
      refine frees_clearTcpEndpointRef sock ?_
      by_contra hopen
      push Not at husable
      obtain ⟨hunarmed, hidle, htcp, _, hclient⟩ := husable
      exact hclosed ⟨Bool.eq_false_iff.mpr hunarmed, Bool.eq_false_iff.mpr hidle, htcp, hclient,
        ⟨sock, hep, Bool.eq_false_iff.mpr hopen⟩, sock, hep, hhalf⟩
    exact ⟨hcleared.handed, hcleared.released, hcleared.current⟩
  case isFalse =>
    rw [attachWireHandlers_eq config bridge.tcpIdleDrainOff hep]
    refine Frees.trans ?_ (aside_bumpActivity config _).toStill.frees
    exact ⟨fun _ h => .inl h, fun _ h => h, fun _ h => .inl h⟩

theorem frees_flushTunQueue (config : BridgeConfig) (bridge : TunBridge) :
    Frees bridge (bridge.flushTunQueue config) :=
  have hflushed := (@still_flushTunQueue config bridge).frees
  ⟨hflushed.handed, hflushed.released, hflushed.current⟩

theorem frees_ensureWire (hclosed : ¬bridge.RefusesOpen config) :
    Frees bridge (bridge.ensureWire config) := by
  have hrearm := frees_rearmTcpClientWire hclosed
  unfold ensureWire
  split
  case isTrue => exact .refl bridge
  split
  case h_1 armed hrearmed =>
    rw [hrearmed] at hrearm
    exact hrearm.trans (frees_flushTunQueue config armed)
  case h_2 kept hrefused =>
    rw [hrefused] at hrearm
    split
    · exact ⟨hrearm.handed, hrearm.released, hrearm.current⟩
    · exact hrearm

theorem frees_onTunPacket (now : Nat) (packet : TunPacket)
    (hclosed : bridge.waits config now packet = true → ¬bridge.RefusesOpen config) :
    Frees bridge (bridge.onTunPacket config now packet) := by
  unfold onTunPacket
  split
  case isTrue => exact .refl bridge
  rename_i hsize
  split
  case h_1 => exact (aside_writeTun config bridge _).toStill.frees
  rename_i hreply
  split
  case isTrue => exact .refl bridge
  rename_i hbridgeable
  split
  case isTrue hlazy =>
    split
    case isTrue => exact .refl bridge
    rename_i hkept
    have hwaits : bridge.waits config now packet = true := by
      push Not at hsize hkept
      simp_all [waits]
    have hrearm := frees_rearmTcpClientWire (hclosed hwaits)
    split
    case h_1 armed hrearmed =>
      rw [hrearmed] at hrearm
      split
      · exact hrearm.trans (still_sendOnWire armed packet.pkt).frees
      · exact hrearm
    case h_2 kept hrefused =>
      rw [hrefused] at hrearm
      refine hrearm.trans ?_
      have hunusable := (refused_spec hrefused).1
      have hensured : Frees (kept.enqueue packet.pkt)
          ((kept.enqueue packet.pkt).ensureWire config) := by
        refine frees_ensureWire ?_
        rintro ⟨hunarmed, hidle, htcp, hclient, ⟨sock, hep, hopen⟩, _⟩
        have hdestroyed : (kept.endpoints sock).destroyed = true := by
          rcases hunusable sock hep with h | h | h | h | h
          · exact absurd h (Bool.eq_false_iff.mp hunarmed)
          · exact absurd h (Bool.eq_false_iff.mp hidle)
          · exact absurd htcp h
          · exact h
          · exact absurd hclient h
        rw [show (kept.enqueue packet.pkt).endpoints = kept.endpoints from rfl] at hopen
        simp [Endpoint.released, hdestroyed] at hopen
      exact ⟨hensured.handed, hensured.released, hensured.current⟩
  case isFalse =>
    split
    · exact .refl bridge
    · exact (still_sendOnWire bridge packet.pkt).frees

theorem frees_connected {newEp : Nat} (hclosed : bridge.HoldsOpen → bridge.ep = some newEp) :
    Frees bridge (bridge.connected config newEp) := by
  have hfinal : ∀ armed : TunBridge, armed.ep = some newEp →
      armed.handed = bridge.handed ++ [newEp] →
      (∀ e, (bridge.endpoints e).released = true → (armed.endpoints e).released = true) →
      Frees bridge { (armed.bumpActivity config).flushTunQueue config with
        connecting := false, lazyPending := false } := by
    intro armed hep hhanded hreleased
    have harmed : Frees bridge armed := {
      handed := fun e he => by
        rw [hhanded] at he
        rcases List.mem_append.mp he with h | h
        · exact .inl h
        · rw [List.mem_singleton.mp h]
          exact .inr (.inl hep)
      released := hreleased
      current := fun e he => by
        by_cases hopen : bridge.HoldsOpen
        · exact .inl (by rw [hep, ← hclosed hopen, he])
        · exact .inr (hreleased e (not_holdsOpen hopen e he)) }
    have hflushed := (harmed.trans (aside_bumpActivity config armed).toStill.frees).trans
      (frees_flushTunQueue config _)
    exact ⟨hflushed.handed, hflushed.released, hflushed.current⟩
  unfold connected
  dsimp only
  split
  case isTrue hsame => exact hfinal _ hsame rfl fun _ h => h
  rw [attachWireHandlers_eq config _ rfl]
  exact hfinal _ rfl rfl fun _ h => h

theorem frees_connectFailed (hclosed : ¬bridge.HoldsOpen) : Frees bridge bridge.connectFailed :=
  Frees.clear rfl (fun _ h => h) (not_holdsOpen hclosed)

theorem frees_reconnectWire {newEp : Nat}
    (hrefused : bridge.connecting = true → (bridge.endpoints newEp).released = true)
    (hclosed : bridge.connecting = false → config.transport = .udpServer → ¬bridge.HoldsOpen) :
    Frees bridge (bridge.reconnectWire config newEp) := by
  rw [reconnectWire_eq]
  split
  case isTrue hconnecting =>
    refine ⟨fun e he => ?_, fun _ h => h, fun _ h => .inl h⟩
    rcases List.mem_append.mp he with h | h
    · exact .inl h
    · rw [List.mem_singleton.mp h]
      exact .inr (.inr (hrefused hconnecting))
  case isFalse hidle =>
    refine Frees.trans ?_ (frees_flushTunQueue config _)
    have hbumped := aside_bumpActivity config (bridge.replaced config newEp)
    have hkept := (hbumped.trans (aside_closeBridgeEndpoint config _ bridge.ep)).toStill
    exact {
      handed := fun e he => by
        rw [hkept.handed] at he
        rcases List.mem_append.mp he with h | h
        · exact .inl h
        · rw [List.mem_singleton.mp h]
          exact .inr (.inl hkept.ep)
      released := hkept.released
      current := fun e he => by
        right
        by_cases hudp : config.transport = .udpServer
        · exact hkept.released e
            (not_holdsOpen (hclosed (Bool.eq_false_iff.mpr hidle) hudp) e he)
        · rw [he]
          exact closeBridgeEndpoint_released config _ e hudp }

end Connecting

section Events

variable {config : BridgeConfig} {bridge : TunBridge}

/-- The event takes the wire down and leaves its endpoint open. -/
def Abandons (config : BridgeConfig) : EndpointEvent → Prop
  | .close => config.transport = .websocket ∨ config.transport = .udpClient ∨
      config.transport = .webrtcDc
  | .error _ => config.transport = .websocket ∨ config.transport = .udpClient
  | .data _ | .message _ | .finished | .writeError _ => False

theorem frees_onWireEvent (e now : Nat) (event : EndpointEvent)
    (hgone : event = .close → config.transport = .tcp → (bridge.endpoints e).released = true)
    (hclosed : Abandons config event → bridge.wireArmed = true → ¬bridge.HoldsOpen) :
    Frees bridge (bridge.onWireEvent config e now event) := by
  cases event with
  | data chunk =>
    simp only [onWireEvent]
    split
    · exact (aside_onData config bridge e chunk).toStill.frees
    · exact .refl bridge
  | message msg =>
    simp only [onWireEvent]
    split
    · exact .refl bridge
    · exact ((aside_bumpActivity config bridge).trans (aside_writeTun config _ msg)).toStill.frees
    all_goals exact (aside_onDatagram config bridge msg).toStill.frees
  | finished =>
    simp only [onWireEvent]
    split
    case isTrue htcp => exact frees_teardownWire _ now fun h => absurd htcp.1 h
    case isFalse => exact .refl bridge
  | close =>
    have hdown : ∀ reason, Abandons config .close →
        Frees bridge
          (if bridge.wireArmed then bridge.teardownWire config reason now else bridge) := by
      intro reason habandons
      split
      case isTrue harmed => exact frees_teardownWire _ now fun _ _ => hclosed habandons harmed
      case isFalse => exact .refl bridge
    simp only [onWireEvent]
    split
    case h_1 htcp =>
      split
      · have htorn : Frees bridge.tcpIdleDrainOff
            (bridge.tcpIdleDrainOff.teardownWire config .peerClose now) :=
          frees_teardownWire _ now fun h => absurd htcp h
        exact ⟨htorn.handed, htorn.released, htorn.current⟩
      · have hcleared : Frees bridge.tcpIdleDrainOff
            (bridge.tcpIdleDrainOff.clearTcpEndpointRef e) :=
          frees_clearTcpEndpointRef e (hgone rfl htcp)
        exact ⟨hcleared.handed, hcleared.released, hcleared.current⟩
    case h_2 h => exact hdown _ (.inl h)
    case h_3 h => exact hdown _ (.inr (.inl h))
    case h_4 h => exact hdown _ (.inr (.inr h))
    case h_5 => exact .refl bridge
  | error resetLike =>
    simp only [onWireEvent]
    split
    case h_1 htcp => exact frees_handleTcpWireFailure htcp resetLike now
    case h_2 h =>
      split
      case isTrue harmed => exact frees_teardownWire _ now fun _ _ => hclosed (.inl h) harmed
      case isFalse => exact .refl bridge
    case h_3 h =>
      split
      case isTrue harmed => exact frees_teardownWire _ now fun _ _ => hclosed (.inr h) harmed
      case isFalse => exact .refl bridge
    case h_4 => exact .refl bridge
    case h_5 => exact .refl bridge
  | writeError _ => exact .refl bridge

theorem frees_onDrainEvent (htcp : config.transport = .tcp) (e now : Nat) (event : EndpointEvent)
    (hgone : event = .close → (bridge.endpoints e).released = true) :
    Frees bridge (bridge.onDrainEvent config e now event) := by
  cases event with
  | data _ =>
    simp only [onDrainEvent]
    exact frees_clear_reset e
  | message _ => exact .refl bridge
  | finished =>
    simp only [onDrainEvent]
    exact (aside_respondFinTcpEndpoint bridge _).toStill.frees
  | close =>
    have hcleared : Frees bridge.tcpIdleDrainOff (bridge.tcpIdleDrainOff.clearTcpEndpointRef e) :=
      frees_clearTcpEndpointRef e (hgone rfl)
    exact ⟨hcleared.handed, hcleared.released, hcleared.current⟩
  | error resetLike => exact frees_handleTcpWireFailure htcp resetLike now
  | writeError _ => exact .refl bridge

theorem noteEvent_released (htcp : config.transport = .tcp) (e : Nat) :
    ((bridge.noteEvent config e .close).endpoints e).released = true := by
  simp [noteEvent, modify, Endpoint.released, htcp]

theorem frees_onEndpointEvent {seen : List Bytes} (hsound : Sound config bridge seen) (e now : Nat)
    (event : EndpointEvent)
    (hclosed : e ∈ bridge.wireOn → Abandons config event → bridge.wireArmed = true →
      ¬bridge.HoldsOpen) : Frees bridge (bridge.onEndpointEvent config e now event) := by
  have hnote := aside_noteEvent config bridge e event
  have hnoted := hnote.toStill.frees
  have hgone : event = .close → config.transport = .tcp →
      ((bridge.noteEvent config e event).endpoints e).released = true := by
    rintro rfl htcp
    exact noteEvent_released htcp e
  have hwired : Frees (bridge.noteEvent config e event)
      (if e ∈ bridge.wireOn then (bridge.noteEvent config e event).onWireEvent config e now event
        else bridge.noteEvent config e event) := by
    split
    case isTrue hon =>
      refine frees_onWireEvent e now event hgone fun habandons harmed => ?_
      rintro ⟨other, hep, hopen⟩
      have hnone := hclosed hon habandons (hnote.wireArmed ▸ harmed)
      have hreleased := not_holdsOpen hnone other (hnote.ep ▸ hep)
      rw [hnote.released other hreleased] at hopen
      cases hopen
    case isFalse => exact .refl _
  have hserved : Frees bridge
      (if bridge.drainOn = some e then
        (if e ∈ bridge.wireOn then (bridge.noteEvent config e event).onWireEvent config e now event
          else bridge.noteEvent config e event).onDrainEvent config e now event
      else
        if e ∈ bridge.wireOn then (bridge.noteEvent config e event).onWireEvent config e now event
        else bridge.noteEvent config e event) := by
    refine (hnoted.trans hwired).trans ?_
    by_cases hdrain : bridge.drainOn = some e
    · have htcp := (hsound.draining e hdrain).1
      rw [if_pos hdrain]
      exact frees_onDrainEvent htcp e now event fun h => hwired.released e (hgone h htcp)
    · rw [if_neg hdrain]
      exact .refl _
  unfold onEndpointEvent
  split
  · exact .refl bridge
  cases event with
  | writeError resetLike =>
    dsimp only
    split
    case isTrue hcurrent =>
      exact hnoted.trans (frees_handleTcpWireFailure hcurrent.1 resetLike now)
    case isFalse => exact hnoted
  | data _ => exact hserved
  | message _ => exact hserved
  | finished => exact hserved
  | close => exact hserved
  | error _ => exact hserved

end Events

section Runs

variable {config : BridgeConfig} {bridge : TunBridge}

/-- The steps that let go of an endpoint nobody has released. A wire other than TCP is taken
down while its endpoint is open; an idle TCP socket is refused while one of its directions is
open; a lazy connect settles, by failure or with another endpoint, over an open one; an
endpoint comes in while a connect is pending, or in the place of a UDP server's open socket. -/
def Leaks (config : BridgeConfig) (bridge : TunBridge) : BridgeEvent → Prop
  | .tun now packet => bridge.waits config now packet = true ∧ bridge.RefusesOpen config
  | .ensureWire => bridge.RefusesOpen config
  | .idle _ => bridge.idleTimer = true ∧ config.softKeepAliveIdle = false ∧
      config.transport ≠ .tcp ∧ config.transport ≠ .udpServer ∧ bridge.HoldsOpen
  | .endpoint e _ event => e ∈ bridge.wireOn ∧ Abandons config event ∧ bridge.wireArmed = true ∧
      bridge.HoldsOpen
  | .connected newEp => bridge.lazyPending = true ∧ bridge.HoldsOpen ∧ bridge.ep ≠ some newEp
  | .connectFailed => bridge.lazyPending = true ∧ bridge.HoldsOpen
  | .reconnectWire newEp => newEp ∉ bridge.handed ∧
      (bridge.connecting = true ∧ (bridge.endpoints newEp).released = false ∨
        bridge.connecting = false ∧ config.transport = .udpServer ∧ bridge.HoldsOpen)
  | .pump _ _ | .gracefulClosed | .socket _ _ _ _ _ => False

theorem frees_pumpDcQueue (room : Nat) (isOpen : Bool) :
    Frees bridge (bridge.pumpDcQueue config room isOpen) := by
  have hcalled : Frees bridge
      { bridge with dcPumpScheduled := false, pumps := bridge.pumps - 1 } :=
    ⟨fun _ h => .inl h, fun _ h => h, fun _ h => .inl h⟩
  have hbase : Frees bridge (if bridge.dcQueue.take room = [] then
        { bridge with dcPumpScheduled := false, pumps := bridge.pumps - 1 }
      else { bridge with dcPumpScheduled := false, pumps := bridge.pumps - 1 }.bumpActivity
        config) := by
    split
    · exact hcalled
    · exact hcalled.trans (aside_bumpActivity config _).toStill.frees
  unfold pumpDcQueue
  dsimp only
  split
  case h_1 =>
    split
    · exact ⟨hbase.handed, hbase.released, hbase.current⟩
    · exact ⟨hbase.handed, hbase.released, hbase.current⟩
  case h_2 => exact hcalled

theorem frees_step {seen : List Bytes} (hsound : Sound config bridge seen) (event : BridgeEvent)
    (hkeeps : ¬bridge.Leaks config event) : Frees bridge (bridge.step config event) := by
  cases event with
  | tun now packet => exact frees_onTunPacket now packet fun hwaits h => hkeeps ⟨hwaits, h⟩
  | idle now =>
    simp only [step]
    have hfired := (aside_cancelTimers bridge).toStill.frees
    split
    case isTrue htimer =>
      split
      case isTrue => exact hfired.trans (frees_softTeardownWire now)
      rename_i hhard
      refine hfired.trans (frees_teardownWire .idle now fun htcp hudp hopen => ?_)
      have hserver : config.transport ≠ .udpServer := fun h => hudp h rfl
      exact hkeeps ⟨htimer, Bool.eq_false_iff.mpr hhard, htcp, hserver, hopen⟩
    case isFalse => exact .refl bridge
  | ensureWire => exact frees_ensureWire hkeeps
  | connected newEp =>
    simp only [step]
    split
    case isTrue hready =>
      refine frees_connected fun hopen => ?_
      by_contra hother
      exact hkeeps ⟨(Bool.and_eq_true_iff.mp hready).1, hopen, hother⟩
    case isFalse => exact .refl bridge
  | connectFailed =>
    simp only [step]
    split
    case isTrue hpending => exact frees_connectFailed fun hopen => hkeeps ⟨hpending, hopen⟩
    case isFalse => exact .refl bridge
  | reconnectWire newEp =>
    simp only [step]
    split
    case isTrue => exact .refl bridge
    rename_i hnew
    refine frees_reconnectWire (fun hconnecting => ?_) fun hidle hudp hopen => ?_
    · by_contra hopen
      exact hkeeps ⟨hnew, .inl ⟨hconnecting, Bool.eq_false_iff.mpr hopen⟩⟩
    · exact hkeeps ⟨hnew, .inr ⟨hidle, hudp, hopen⟩⟩
  | pump room isOpen =>
    simp only [step]
    split
    · exact .refl bridge
    · exact frees_pumpDcQueue room isOpen
  | gracefulClosed => exact ⟨fun _ h => .inl h, fun _ h => h, fun _ h => .inl h⟩
  | endpoint e now event =>
    exact frees_onEndpointEvent hsound e now event fun hon habandons harmed hopen =>
      hkeeps ⟨hon, habandons, harmed, hopen⟩
  | socket e destroyed readableEnded ended unwritable =>
    exact (aside_socket bridge e destroyed readableEnded ended unwritable).toStill.frees

def Careful (config : BridgeConfig) : TunBridge → List BridgeEvent → Prop
  | _, [] => True
  | bridge, event :: rest =>
    ¬bridge.Leaks config event ∧ Careful config (bridge.step config event) rest

theorem AllReleased.run {seen : List Bytes} {events : List BridgeEvent}
    (hsound : Sound config bridge seen) (hall : bridge.AllReleased)
    (hcareful : Careful config bridge events) : (bridge.run config events).AllReleased := by
  induction events generalizing bridge seen with
  | nil => exact hall
  | cons event rest ih =>
    obtain ⟨hkeeps, hcareful'⟩ := hcareful
    exact ih (hsound.step event) (hall.frees (frees_step hsound event hkeeps)) hcareful'

theorem allReleased_init (config : BridgeConfig) (endpoint : Nat) (endpoints : Nat → Endpoint) :
    (init config endpoint endpoints).AllReleased := by
  unfold init
  dsimp only
  split
  · intro e he
    cases he
  · refine AllReleased.frees ?_ (aside_bumpActivity config _).toStill.frees
    rw [attachWireHandlers_eq config _ rfl]
    intro e he
    exact .inl (congrArg some (List.mem_singleton.mp he).symm)

theorem Careful.take {events : List BridgeEvent} (hcareful : Careful config bridge events)
    (n : Nat) : Careful config bridge (events.take n) := by
  induction events generalizing bridge n with
  | nil => rwa [List.take_nil]
  | cons event rest ih =>
    cases n with
    | zero => trivial
    | succ n => exact ⟨hcareful.1, ih hcareful.2 n⟩

/-- In a run none of whose steps leaks, every endpoint that the bridge was given is at every
moment the current one, or one of the operations that close it was invoked. -/
theorem endpoints_released_unless_leaked (config : BridgeConfig) (endpoint : Nat)
    (endpoints : Nat → Endpoint) (events : List BridgeEvent)
    (hcareful : Careful config (init config endpoint endpoints) events) (n : Nat) :
    ((init config endpoint endpoints).run config (events.take n)).AllReleased :=
  AllReleased.run (sound_init config endpoint endpoints)
    (allReleased_init config endpoint endpoints) (hcareful.take n)

/-- A server whose socket ends by a FIN of its peer, and which is given the next one. -/
theorem ended_socket_released :
    let config : BridgeConfig := ⟨.tcp, true, false, 0, .server, false, false, fun _ => true⟩
    let start := init config 0 fun _ => .fresh
    let events := [.endpoint 0 5 .finished, .reconnectWire 1]
    (start.run config events).ep = some 1 ∧ (start.run config events).handed = [0, 1] ∧
      (start.run config (events.take 2)).AllReleased := by
  intro config start events
  refine ⟨by decide, by decide, ?_⟩
  refine endpoints_released_unless_leaked config 0 (fun _ => .fresh) events ⟨?_, ?_, trivial⟩ 2
  · rintro ⟨_, habandons, _⟩
    exact habandons
  · rintro ⟨_, h | h⟩
    · exact absurd h.1 (by decide)
    · exact absurd h.2.1 (by decide)

/-- An idle websocket is let go without being closed. -/
theorem idle_websocket_leaks :
    let config : BridgeConfig := ⟨.websocket, true, false, 0, .server, false, false, fun _ => true⟩
    let start := init config 0 fun _ => .fresh
    (start.run config [.idle 30000]).ep = none ∧ (start.run config [.idle 30000]).handed = [0] ∧
      ¬(start.run config [.idle 30000]).AllReleased := by
  intro config start
  refine ⟨by decide, by decide, fun hall => ?_⟩
  have hreleased := hall 0 (by decide)
  revert hreleased
  decide

end Runs

end TunBridge

end Meshpn.Bridge
