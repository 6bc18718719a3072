import Meshpn.Bridge.WireOrder

/-!
Which events reach a bridge. An endpoint that is no longer the current one has
no handlers of the wire, has raised its last event, or is a destroyed socket of a
bridge without an endpoint; and the handlers of an idle socket never stand beside
an armed wire. The steps that break this are the ones that move on from an
endpoint with its handlers in place.
-/

namespace Meshpn.Bridge

open Meshpn.Lib

namespace TunBridge

/-- The handlers on endpoints that are not current are those of endpoints that raise nothing
the bridge could take amiss. All handlers that can still be called are those that `wireOff`
takes off, except on a data channel, which keeps them. -/
structure Isolated (config : BridgeConfig) (bridge : TunBridge) : Prop where
  attached : ∀ e ∈ bridge.wireOn, bridge.ep = some e ∨ (bridge.endpoints e).gone = true ∨
    (config.transport = .tcp ∧ bridge.ep = none ∧ (bridge.endpoints e).destroyed = true)
  single : config.transport ≠ .webrtcDc → ∀ e ∈ bridge.wireOn,
    (bridge.endpoints e).gone = true ∨
      (bridge.wireOff = some e ∧ bridge.wireOn.count e = 1)
  disarmed : bridge.drainOn ≠ none → bridge.wireArmed = false

/-- An endpoint that can still raise events has the handlers of the wire. -/
def Wired (bridge : TunBridge) : Prop :=
  ∃ e ∈ bridge.wireOn, (bridge.endpoints e).gone = false

section Invariant

variable {config : BridgeConfig} {bridge other : TunBridge}

theorem Isolated.still (hisolated : Isolated config bridge) (hstill : Still bridge other) :
    Isolated config other where
  attached e he := by
    rw [hstill.ep]
    rcases hisolated.attached e (hstill.wireOn ▸ he) with h | h | ⟨htcp, hnone, h⟩
    · exact .inl h
    · exact .inr (.inl (hstill.gone e h))
    · exact .inr (.inr ⟨htcp, hnone, hstill.destroyed e h⟩)
  single hchannel e he := by
    rw [hstill.wireOff, hstill.wireOn]
    rcases hisolated.single hchannel e (hstill.wireOn ▸ he) with h | h
    · exact .inl (hstill.gone e h)
    · exact .inr h
  disarmed h := by
    rw [hstill.wireArmed]
    exact hisolated.disarmed (hstill.drainOn ▸ h)

theorem not_wired (hquiet : ¬bridge.Wired) (e : Nat) (he : e ∈ bridge.wireOn) :
    (bridge.endpoints e).gone = true := by
  by_contra h
  exact hquiet ⟨e, he, Bool.eq_false_iff.mpr h⟩

theorem Isolated.detached (hisolated : Isolated config bridge)
    (hchannel : config.transport ≠ .webrtcDc) (e : Nat) (he : e ∈ bridge.detached config) :
    (bridge.endpoints e).gone = true := by
  unfold TunBridge.detached at he
  split at he
  case h_1 hoff =>
    rcases hisolated.single hchannel e he with h | h
    · exact h
    · rw [hoff] at h
      cases h.1
  case h_2 off hoff =>
    by_contra halive
    split at he
    case isTrue hstays =>
      rcases hisolated.single hchannel e he with h | h
      · exact halive h
      have hsame : off = e := by
        rw [hoff] at h
        exact Option.some.inj h.1
      subst hsame
      rcases hstays with h | ⟨hudp, hne⟩
      · exact hchannel h
      rcases hisolated.attached off he with h | h | h
      · exact hne h
      · exact halive h
      · rw [hudp] at h
        cases h.1
    case isFalse =>
      rcases hisolated.single hchannel e (List.mem_of_mem_erase he) with h | ⟨hsame, hcount⟩
      · exact halive h
      rw [hoff] at hsame
      cases hsame
      have hleft : 0 < (bridge.wireOn.erase e).count e := List.count_pos_iff.mpr he
      rw [List.count_erase_self, hcount] at hleft
      cases hleft

theorem mem_wireOn_of_detached {e : Nat} (he : e ∈ bridge.detached config) :
    e ∈ bridge.wireOn := by
  unfold TunBridge.detached at he
  split at he
  · exact he
  split at he
  · exact he
  · exact List.mem_of_mem_erase he

theorem mem_detached_congr (hchannel : config.transport ≠ .webrtcDc)
    (hudp : config.transport ≠ .udpServer) {e : Nat} (he : e ∈ other.detached config)
    (hon : other.wireOn = bridge.wireOn) (hoff : other.wireOff = bridge.wireOff) :
    e ∈ bridge.detached config := by
  unfold TunBridge.detached at he ⊢
  rw [hoff, hon] at he
  simpa [hudp] using he

theorem Isolated.left (hisolated : Isolated config bridge)
    (hquiet : config.transport = .webrtcDc → ¬bridge.Wired) (e : Nat)
    (he : e ∈ bridge.detached config) : (bridge.endpoints e).gone = true := by
  by_cases hchannel : config.transport = .webrtcDc
  · exact not_wired (hquiet hchannel) e (mem_wireOn_of_detached he)
  · exact hisolated.detached hchannel e he

theorem Isolated.of_gone (hgone : ∀ e ∈ other.wireOn, (other.endpoints e).gone = true)
    (hdisarmed : other.drainOn ≠ none → other.wireArmed = false) : Isolated config other where
  attached e he := .inr (.inl (hgone e he))
  single _ e he := .inl (hgone e he)
  disarmed := hdisarmed

theorem Isolated.of_attached {e : Nat} {on : List Nat} (hep : other.ep = some e)
    (hoff : other.wireOff = some e) (hon : other.wireOn = on ++ [e])
    (hgone : ∀ x ∈ on, (other.endpoints x).gone = true)
    (hdisarmed : other.drainOn ≠ none → other.wireArmed = false) : Isolated config other where
  attached x hx := by
    rw [hon] at hx
    rcases List.mem_append.mp hx with h | h
    · exact .inr (.inl (hgone x h))
    · rw [List.mem_singleton.mp h]
      exact .inl hep
  single _ x hx := by
    rw [hon] at hx ⊢
    by_cases halive : (other.endpoints x).gone = true
    · exact .inl halive
    have hnew : x ∉ on := fun h => halive (hgone x h)
    rcases List.mem_append.mp hx with h | h
    · exact absurd h hnew
    rw [List.mem_singleton.mp h] at hnew ⊢
    refine .inr ⟨hoff, ?_⟩
    rw [List.count_append, List.count_eq_zero.mpr hnew, List.count_singleton_self]
  disarmed := hdisarmed

/-- The current endpoint is dropped with its handlers in place, but it is at its end. -/
theorem Isolated.dropped {sock : Nat} (hisolated : Isolated config bridge)
    (hep : bridge.ep = some sock) (hnone : other.ep = none) (hdrain : other.drainOn = none)
    (hon : other.wireOn = bridge.wireOn) (hoff : other.wireOff = bridge.wireOff)
    (hgone : ∀ e, (bridge.endpoints e).gone = true → (other.endpoints e).gone = true)
    (hend : sock ∈ bridge.wireOn → (other.endpoints sock).gone = true ∨
      config.transport = .tcp ∧ (other.endpoints sock).destroyed = true) :
    Isolated config other where
  attached e he := by
    rw [hon] at he
    rcases hisolated.attached e he with h | h | ⟨_, h, _⟩
    · rw [hep] at h
      cases h
      rcases hend he with h | ⟨htcp, h⟩
      · exact .inr (.inl h)
      · exact .inr (.inr ⟨htcp, hnone, h⟩)
    · exact .inr (.inl (hgone e h))
    · rw [hep] at h
      cases h
  single hchannel e he := by
    rw [hoff, hon]
    rcases hisolated.single hchannel e (hon ▸ he) with h | h
    · exact .inl (hgone e h)
    · exact .inr h
  disarmed h := absurd hdrain h

end Invariant

section Teardown

variable {config : BridgeConfig} {bridge : TunBridge}

theorem Isolated.clearTcpEndpointRef (hisolated : Isolated config bridge) (sock : Nat)
    (hend : (bridge.endpoints sock).gone = true ∨
      config.transport = .tcp ∧ (bridge.endpoints sock).destroyed = true) :
    Isolated config (bridge.tcpIdleDrainOff.clearTcpEndpointRef sock) := by
  unfold TunBridge.clearTcpEndpointRef
  split
  case isTrue hcurrent =>
    exact hisolated.dropped hcurrent rfl rfl rfl rfl (fun _ h => h) fun _ => hend
  case isFalse => exact ⟨hisolated.attached, hisolated.single, fun h => absurd rfl h⟩

theorem Isolated.clear_reset (hisolated : Isolated config bridge) (htcp : config.transport = .tcp)
    (sock : Nat) : Isolated config
      ((bridge.tcpIdleDrainOff.clearTcpEndpointRef sock).resetTcpEndpoint (some sock)) := by
  have hreset : ∀ cleared : TunBridge,
      ((cleared.resetTcpEndpoint (some sock)).endpoints sock).destroyed = true := by
    intro cleared
    unfold resetTcpEndpoint
    dsimp only
    split
    case isTrue h => exact h
    case isFalse => simp [modify]
  unfold TunBridge.clearTcpEndpointRef
  split
  case isTrue hcurrent =>
    have hkept := (aside_resetTcpEndpoint { bridge.tcpIdleDrainOff with
      ep := none, tcpFramedSend := none } (some sock)).toStill
    exact hisolated.dropped hcurrent hkept.ep hkept.drainOn hkept.wireOn hkept.wireOff hkept.gone
      fun _ => .inr ⟨htcp, hreset _⟩
  case isFalse =>
    have hoff : Isolated config bridge.tcpIdleDrainOff :=
      ⟨hisolated.attached, hisolated.single, fun h => absurd rfl h⟩
    exact hoff.still (aside_resetTcpEndpoint _ _).toStill

theorem Isolated.tearDown (hisolated : Isolated config bridge) (reason : Reason) (now : Nat)
    (hquiet : config.transport = .webrtcDc → ¬bridge.Wired) :
    Isolated config (bridge.tearDown config reason now) := by
  obtain ⟨cooled, htearDown⟩ := tearDown_eq config bridge reason now
  have hcleared : Isolated config { bridge.takenDown config with
      drainOn := none, idleCooldownUntilMs := cooled } :=
    Isolated.of_gone (hisolated.left hquiet) fun h => absurd rfl h
  rw [htearDown]
  split
  · exact hisolated
  split
  · exact ⟨hisolated.attached, hisolated.single, hisolated.disarmed⟩
  dsimp only
  split
  · split
    · exact hcleared.still (aside_respondFinTcpEndpoint _ _).toStill
    · exact hcleared.still (aside_resetTcpEndpoint _ _).toStill
  · exact hcleared

theorem Isolated.tcpClientIdleDisarm (hisolated : Isolated config bridge)
    (htcp : config.transport = .tcp) (now : Nat) :
    Isolated config (bridge.tcpClientIdleDisarm config now) := by
  have hchannel : config.transport ≠ .webrtcDc := by rw [htcp]; decide
  have hdisarmed : ∀ drain : Option Nat, Isolated config { bridge.disarmed config with
      idleCooldownUntilMs := bridge.cooledUntil config now, drainOn := drain } :=
    fun _ => Isolated.of_gone (hisolated.detached hchannel) fun _ => rfl
  rw [tcpClientIdleDisarm_eq]
  split
  · exact hisolated
  split
  · exact hisolated
  dsimp only
  split
  · split
    · exact hdisarmed bridge.drainOn
    · exact hdisarmed (some _)
  · exact hdisarmed bridge.drainOn

theorem Isolated.tcpServerIdleGracefulClose (hisolated : Isolated config bridge)
    (htcp : config.transport = .tcp) (now : Nat) :
    Isolated config (bridge.tcpServerIdleGracefulClose config now) := by
  have hchannel : config.transport ≠ .webrtcDc := by rw [htcp]; decide
  have hcleared : Isolated config { bridge.takenDown config with
      idleCooldownUntilMs := bridge.cooledUntil config now } :=
    Isolated.of_gone (hisolated.detached hchannel) fun _ => rfl
  rw [tcpServerIdleGracefulClose_eq]
  split
  case isTrue => exact hisolated
  split
  case h_2 => exact hcleared
  rename_i sock _
  split
  · exact hcleared
  · have hclosed := hcleared.still (aside_gracefulCloseTcpEndpoint _ sock).toStill
    exact ⟨hclosed.attached, hclosed.single, hclosed.disarmed⟩

theorem Isolated.teardownWire (hisolated : Isolated config bridge) (reason : Reason) (now : Nat)
    (hquiet : config.transport = .webrtcDc → ¬bridge.Wired) :
    Isolated config (bridge.teardownWire config reason now) := by
  unfold TunBridge.teardownWire
  split
  case h_1 =>
    split
    · refine hisolated.still (Aside.toStill ((aside_cancelTimers bridge).trans ?_))
      exact aside_modify _ _ fun _ => { }
    · exact hisolated.still (aside_cancelTimers bridge).toStill
  case h_2 htcp =>
    split
    · split
      · exact hisolated.tcpClientIdleDisarm htcp now
      · exact hisolated.tcpServerIdleGracefulClose htcp now
    · exact hisolated.tearDown _ now hquiet
  case h_3 => exact hisolated.tearDown _ now hquiet

theorem Isolated.softTeardownWire (hisolated : Isolated config bridge) (now : Nat) :
    Isolated config (bridge.softTeardownWire config now) := by
  unfold TunBridge.softTeardownWire
  split
  · exact hisolated
  split
  · exact ⟨hisolated.attached, hisolated.single, hisolated.disarmed⟩
  · refine Isolated.still ?_ (aside_startCooldown config _ now).toStill
    refine ⟨hisolated.attached, hisolated.single, fun h => ?_⟩
    exact Bool.and_eq_false_iff.mpr (.inl (hisolated.disarmed h))

theorem Isolated.handleTcpWireFailure (hisolated : Isolated config bridge)
    (htcp : config.transport = .tcp) (resetLike : Bool) (now : Nat) :
    Isolated config (bridge.handleTcpWireFailure config resetLike now) := by
  unfold TunBridge.handleTcpWireFailure
  split
  · exact hisolated.teardownWire _ now fun h => by rw [htcp] at h; cases h
  split
  · exact hisolated
  · exact hisolated.clear_reset htcp _

end Teardown

section Connecting

variable {config : BridgeConfig} {bridge : TunBridge} {seen : List Bytes}

/-- The idle socket of a client is at its end in one direction, and has handlers. -/
def RefusesWired (config : BridgeConfig) (bridge : TunBridge) : Prop :=
  bridge.wireArmed = false ∧ bridge.connecting = false ∧ config.transport = .tcp ∧
    config.tcpWireRole = .client ∧ ∃ sock, bridge.ep = some sock ∧ sock ∈ bridge.wireOn ∧
      (bridge.endpoints sock).gone = false ∧ (bridge.endpoints sock).destroyed = false ∧
      bridge.halfClosed sock = true

theorem Isolated.rearmTcpClientWire (hisolated : Isolated config bridge)
    (hquiet : ¬bridge.RefusesWired config) :
    Isolated config (bridge.rearmTcpClientWire config).2 := by
  unfold TunBridge.rearmTcpClientWire
  split
  case h_2 => exact hisolated
  rename_i sock hep
  split
  case isTrue => exact hisolated
  rename_i husable
  push Not at husable
  obtain ⟨hunarmed, hidle, htcp, hopen, hclient⟩ := husable
  split
  case isTrue hhalf =>
    unfold TunBridge.clearTcpEndpointRef
    rw [if_pos (show bridge.tcpIdleDrainOff.ep = some sock from hep)]
    refine hisolated.dropped hep rfl rfl rfl rfl (fun _ h => h) fun hon => .inl ?_
    by_contra halive
    exact hquiet ⟨Bool.eq_false_iff.mpr hunarmed, Bool.eq_false_iff.mpr hidle, htcp, hclient,
      sock, hep, hon, Bool.eq_false_iff.mpr halive, Bool.eq_false_iff.mpr hopen, hhalf⟩
  case isFalse =>
    rw [attachWireHandlers_eq config bridge.tcpIdleDrainOff hep]
    refine Isolated.still ?_ (aside_bumpActivity config _).toStill
    have hchannel : config.transport ≠ .webrtcDc := by rw [htcp]; decide
    exact Isolated.of_attached hep rfl rfl (hisolated.detached hchannel)
      fun h => absurd rfl h

theorem Isolated.flushTunQueue (hisolated : Isolated config bridge) :
    Isolated config (bridge.flushTunQueue config) :=
  have hemptied : Isolated config { bridge with tunQueue := [] } :=
    ⟨hisolated.attached, hisolated.single, hisolated.disarmed⟩
  hemptied.still (still_flushTunQueue bridge)

theorem Isolated.ensureWire (hisolated : Isolated config bridge)
    (hquiet : ¬bridge.RefusesWired config) : Isolated config (bridge.ensureWire config) := by
  have hrearm := hisolated.rearmTcpClientWire hquiet
  unfold TunBridge.ensureWire
  split
  case isTrue => exact hisolated
  split
  case h_1 armed hrearmed =>
    rw [hrearmed] at hrearm
    exact hrearm.flushTunQueue
  case h_2 kept hrefused =>
    rw [hrefused] at hrearm
    split
    · exact ⟨hrearm.attached, hrearm.single, hrearm.disarmed⟩
    · exact hrearm

theorem Isolated.onTunPacket (hisolated : Isolated config bridge)
    (hsound : Sound config bridge seen) (now : Nat) (packet : TunPacket)
    (hquiet : bridge.waits config now packet = true → ¬bridge.RefusesWired config) :
    Isolated config (bridge.onTunPacket config now packet) := by
  unfold TunBridge.onTunPacket
  split
  case isTrue => exact hisolated
  rename_i hsize
  split
  case h_1 => exact hisolated.still (aside_writeTun config bridge _).toStill
  rename_i hreply
  split
  case isTrue => exact hisolated
  rename_i hbridgeable
  split
  case isTrue hlazy =>
    split
    case isTrue => exact hisolated
    have hwaits : bridge.waits config now packet = true := by
      simp_all [waits]
    have hunarmed : bridge.wireArmed = false := by
      simpa using (Bool.and_eq_true_iff.mp hlazy).1
    have hrearm := hisolated.rearmTcpClientWire (hquiet hwaits)
    split
    case h_1 armed hrearmed =>
      rw [hrearmed] at hrearm
      split
      · exact hrearm.still (still_sendOnWire armed packet.pkt)
      · exact hrearm
    case h_2 kept hrefused =>
      obtain ⟨hunusable, hsame, _, _⟩ := refused_spec hrefused
      rw [hrefused] at hrearm
      rw [ensureWire_enqueue (Bool.and_eq_true_iff.mp hlazy).2
        (hsound.refused hrefused).pending (hsame.trans hunarmed) hunusable]
      exact ⟨hrearm.attached, hrearm.single, hrearm.disarmed⟩
  case isFalse =>
    split
    · exact hisolated
    · exact hisolated.still (still_sendOnWire bridge packet.pkt)

/-- A UDP server looks for its handlers on the new endpoint, and a channel keeps them. -/
theorem Isolated.connected (hisolated : Isolated config bridge)
    (hsound : Sound config bridge seen) {newEp : Nat} (hpending : bridge.lazyPending = true)
    (hopen : (bridge.endpoints newEp).destroyed = false)
    (hquiet : bridge.ep ≠ some newEp →
      config.transport = .webrtcDc ∨ config.transport = .udpServer → ¬bridge.Wired) :
    Isolated config (bridge.connected config newEp) := by
  have hfinal : ∀ armed : TunBridge, Isolated config armed →
      Isolated config { (armed.bumpActivity config).flushTunQueue config with
        connecting := false, lazyPending := false } := by
    intro armed harmed
    have hflushed := (harmed.still (aside_bumpActivity config armed).toStill).flushTunQueue
    exact ⟨hflushed.attached, hflushed.single, hflushed.disarmed⟩
  unfold TunBridge.connected
  dsimp only
  split
  case isTrue hsame =>
    refine hfinal _ ⟨hisolated.attached, hisolated.single, fun hdrain => ?_⟩
    obtain ⟨sock, hsock⟩ := Option.ne_none_iff_exists'.mp hdrain
    obtain ⟨htcp, hclient, _⟩ := hsound.draining sock hsock
    have hdestroyed := hsound.replacing (hsound.pending.trans hpending) htcp hclient newEp hsame
    rw [hopen] at hdestroyed
    cases hdestroyed
  case isFalse hother =>
    rw [attachWireHandlers_eq config _ rfl]
    refine hfinal _ (Isolated.of_attached rfl rfl rfl (fun e he => ?_) fun h => absurd rfl h)
    by_cases hkeeps : config.transport = .webrtcDc ∨ config.transport = .udpServer
    · have hon := mem_wireOn_of_detached he
      exact not_wired (hquiet hother hkeeps) e hon
    · push Not at hkeeps
      exact hisolated.detached hkeeps.1 e (mem_detached_congr hkeeps.1 hkeeps.2 he rfl rfl)

/-- An endpoint that can raise events other than its last ones has the handlers of the wire. -/
def WiredOpen (config : BridgeConfig) (bridge : TunBridge) : Prop :=
  ∃ e ∈ bridge.wireOn, (bridge.endpoints e).gone = false ∧
    ¬(config.transport = .tcp ∧ (bridge.endpoints e).destroyed = true)

theorem Isolated.connectFailed (hisolated : Isolated config bridge)
    (hquiet : ¬bridge.WiredOpen config) : Isolated config bridge.connectFailed where
  attached e he := by
    by_cases hgone : (bridge.endpoints e).gone = true
    · exact .inr (.inl hgone)
    refine .inr (.inr ?_)
    by_contra hopen
    exact hquiet ⟨e, he, Bool.eq_false_iff.mpr hgone, fun h => hopen ⟨h.1, rfl, h.2⟩⟩
  single := hisolated.single
  disarmed _ := rfl

theorem Isolated.reconnectWire (hisolated : Isolated config bridge) {newEp : Nat}
    (hquiet : bridge.connecting = false → config.transport = .webrtcDc → ¬bridge.Wired)
    (hdrain : bridge.connecting = false → bridge.drainOn = none) :
    Isolated config (bridge.reconnectWire config newEp) := by
  rw [reconnectWire_eq]
  split
  case isTrue => exact ⟨hisolated.attached, hisolated.single, hisolated.disarmed⟩
  rename_i hidle
  have hconnecting := Bool.eq_false_iff.mpr hidle
  refine Isolated.flushTunQueue ?_
  have hreplaced : Isolated config (bridge.replaced config newEp) :=
    Isolated.of_attached rfl rfl rfl (hisolated.left (hquiet hconnecting))
      fun h => absurd (hdrain hconnecting) h
  exact hreplaced.still ((aside_bumpActivity config _).trans
    (aside_closeBridgeEndpoint config _ bridge.ep)).toStill

end Connecting

section Events

variable {config : BridgeConfig} {bridge : TunBridge} {seen : List Bytes}

theorem Isolated.onWireEvent (hisolated : Isolated config bridge) (e now : Nat)
    (event : EndpointEvent)
    (hgone : event = .close → (bridge.endpoints e).gone = true)
    (hquiet : event = .close → config.transport = .webrtcDc → ¬bridge.Wired) :
    Isolated config (bridge.onWireEvent config e now event) := by
  have hplain : ∀ reason, config.transport ≠ .webrtcDc →
      Isolated config
        (if bridge.wireArmed then bridge.teardownWire config reason now else bridge) := by
    intro reason hchannel
    split
    · exact hisolated.teardownWire reason now fun h => absurd h hchannel
    · exact hisolated
  cases event with
  | data chunk =>
    simp only [TunBridge.onWireEvent]
    split
    · exact hisolated.still (aside_onData config bridge e chunk).toStill
    · exact hisolated
  | message msg =>
    simp only [TunBridge.onWireEvent]
    split
    · exact hisolated
    · exact hisolated.still
        ((aside_bumpActivity config bridge).trans (aside_writeTun config _ msg)).toStill
    all_goals exact hisolated.still (aside_onDatagram config bridge msg).toStill
  | finished =>
    simp only [TunBridge.onWireEvent]
    split
    case isTrue htcp =>
      exact hisolated.teardownWire _ now fun h => by rw [htcp.1] at h; cases h
    case isFalse => exact hisolated
  | close =>
    simp only [TunBridge.onWireEvent]
    split
    case h_1 htcp =>
      have hoff : Isolated config bridge.tcpIdleDrainOff :=
        ⟨hisolated.attached, hisolated.single, fun h => absurd rfl h⟩
      split
      · exact hoff.teardownWire _ now fun h => by rw [htcp] at h; cases h
      · exact hisolated.clearTcpEndpointRef e (.inl (hgone rfl))
    case h_2 h => exact hplain _ (by rw [h]; decide)
    case h_3 h => exact hplain _ (by rw [h]; decide)
    case h_4 h =>
      split
      · exact hisolated.teardownWire _ now (hquiet rfl)
      · exact hisolated
    case h_5 => exact hisolated
  | error resetLike =>
    simp only [TunBridge.onWireEvent]
    split
    case h_1 htcp => exact hisolated.handleTcpWireFailure htcp resetLike now
    case h_2 h => exact hplain _ (by rw [h]; decide)
    case h_3 h => exact hplain _ (by rw [h]; decide)
    case h_4 => exact hisolated
    case h_5 => exact hisolated
  | writeError _ => exact hisolated

theorem Isolated.onDrainEvent (hisolated : Isolated config bridge)
    (htcp : config.transport = .tcp) (e now : Nat) (event : EndpointEvent)
    (hgone : event = .close → (bridge.endpoints e).gone = true) :
    Isolated config (bridge.onDrainEvent config e now event) := by
  cases event with
  | data _ =>
    exact hisolated.clear_reset htcp e
  | message _ => exact hisolated
  | finished =>
    simp only [TunBridge.onDrainEvent]
    exact hisolated.still (aside_respondFinTcpEndpoint bridge _).toStill
  | close => exact hisolated.clearTcpEndpointRef e (.inl (hgone rfl))
  | error resetLike => exact hisolated.handleTcpWireFailure htcp resetLike now
  | writeError _ => exact hisolated

theorem noteEvent_gone (e : Nat) :
    ((bridge.noteEvent config e .close).endpoints e).gone = true := by
  simp [noteEvent, modify]

theorem onWireEvent_close_endpoints (htcp : config.transport = .tcp)
    (hunarmed : bridge.wireArmed = false) (e now : Nat) :
    (bridge.onWireEvent config e now .close).endpoints = bridge.endpoints := by
  simp only [onWireEvent, htcp, hunarmed, Bool.false_eq_true, if_false]
  unfold clearTcpEndpointRef
  split <;> rfl

theorem Isolated.onEndpointEvent (hisolated : Isolated config bridge)
    (hsound : Sound config bridge seen) (e now : Nat) (event : EndpointEvent) :
    Isolated config (bridge.onEndpointEvent config e now event) := by
  have hnote := (aside_noteEvent config bridge e event).toStill
  have hnoted := hisolated.still hnote
  have hgone : event = .close → ((bridge.noteEvent config e event).endpoints e).gone = true := by
    rintro rfl
    exact noteEvent_gone e
  unfold TunBridge.onEndpointEvent
  split
  case isTrue => exact hisolated
  rename_i hraised
  -- a channel that closes is the current one, since any other had closed before
  have hquiet : e ∈ bridge.wireOn → event = .close → config.transport = .webrtcDc →
      ¬(bridge.noteEvent config e event).Wired := by
    rintro hon rfl hchannel ⟨other, hother, halive⟩
    have halone : ∀ x ∈ bridge.wireOn, (bridge.endpoints x).gone = false →
        bridge.ep = some x := by
      intro x hx hlive
      rcases hisolated.attached x hx with h | h | h
      · exact h
      · rw [hlive] at h
        cases h
      · rw [hchannel] at h
        cases h.1
    have hlive : (bridge.endpoints other).gone = false := by
      by_contra h
      rw [hnote.gone other (by simpa using h)] at halive
      cases halive
    have hclosing : (bridge.endpoints e).gone = false := by simpa [canRaise] using hraised
    have hsame := halone e hon hclosing
    rw [halone other (hnote.wireOn ▸ hother) hlive] at hsame
    cases hsame
    rw [noteEvent_gone] at halive
    cases halive
  have hserved : Isolated config
      (if bridge.drainOn = some e then
        (if e ∈ bridge.wireOn then
            (bridge.noteEvent config e event).onWireEvent config e now event
          else bridge.noteEvent config e event).onDrainEvent config e now event
      else
        if e ∈ bridge.wireOn then (bridge.noteEvent config e event).onWireEvent config e now event
        else bridge.noteEvent config e event) := by
    have hwired : Isolated config
        (if e ∈ bridge.wireOn then
            (bridge.noteEvent config e event).onWireEvent config e now event
          else bridge.noteEvent config e event) := by
      split
      case isTrue hon => exact hnoted.onWireEvent e now event hgone (hquiet hon)
      case isFalse => exact hnoted
    by_cases hdrain : bridge.drainOn = some e
    · have htcp := (hsound.draining e hdrain).1
      have hunarmed : bridge.wireArmed = false := hisolated.disarmed (by rw [hdrain]; simp)
      rw [if_pos hdrain]
      refine hwired.onDrainEvent htcp e now event fun hclose => ?_
      subst hclose
      split
      · rw [onWireEvent_close_endpoints htcp (hnote.wireArmed.trans hunarmed)]
        exact noteEvent_gone e
      · exact noteEvent_gone e
    · rw [if_neg hdrain]
      exact hwired
  cases event with
  | writeError resetLike =>
    dsimp only
    split
    case isTrue hcurrent => exact hnoted.handleTcpWireFailure hcurrent.1 resetLike now
    case isFalse => exact hnoted
  | data _ => exact hserved
  | message _ => exact hserved
  | finished => exact hserved
  | close => exact hserved
  | error _ => exact hserved

/-- Nothing was written into the TUN, the framer took nothing, and an armed wire stays. -/
structure Untouched (a b : TunBridge) : Prop where
  tunWrites : b.tunWrites = a.tunWrites := by rfl
  framer : b.framer = a.framer := by rfl
  wireArmed : b.wireArmed = a.wireArmed := by rfl
  ep : a.wireArmed = true → b.ep = a.ep := by exact fun _ => rfl

theorem Untouched.refl (a : TunBridge) : Untouched a a := { }

theorem Untouched.trans {a b c : TunBridge} (hab : Untouched a b) (hbc : Untouched b c) :
    Untouched a c where
  tunWrites := hbc.tunWrites.trans hab.tunWrites
  framer := hbc.framer.trans hab.framer
  wireArmed := hbc.wireArmed.trans hab.wireArmed
  ep harmed := (hbc.ep (hab.wireArmed.trans harmed)).trans (hab.ep harmed)

theorem untouched_modify (e : Nat) (change : Endpoint → Endpoint) :
    Untouched bridge (bridge.modify e change) := { }

theorem untouched_noteEvent (e : Nat) (event : EndpointEvent) :
    Untouched bridge (bridge.noteEvent config e event) := by
  unfold noteEvent
  split
  · exact untouched_modify e _
  · exact untouched_modify e _
  all_goals exact .refl bridge

theorem untouched_clear (hunarmed : bridge.wireArmed = false) (sock : Nat) :
    Untouched bridge (bridge.tcpIdleDrainOff.clearTcpEndpointRef sock) := by
  unfold clearTcpEndpointRef
  split <;> exact { ep := fun h => by rw [hunarmed] at h; cases h }

theorem untouched_resetTcpEndpoint (sock : Option Nat) :
    Untouched bridge (bridge.resetTcpEndpoint sock) := by
  unfold resetTcpEndpoint
  split
  · exact .refl bridge
  split
  · exact .refl bridge
  · exact untouched_modify _ _

theorem untouched_respondFinTcpEndpoint (sock : Option Nat) :
    Untouched bridge (bridge.respondFinTcpEndpoint sock) := by
  unfold respondFinTcpEndpoint
  split
  · exact .refl bridge
  split
  · exact .refl bridge
  split
  · exact untouched_resetTcpEndpoint _
  · split
    · exact .refl bridge
    · exact untouched_modify _ _

theorem untouched_handleTcpWireFailure (hunarmed : bridge.wireArmed = false) (resetLike : Bool)
    (now : Nat) : Untouched bridge (bridge.handleTcpWireFailure config resetLike now) := by
  unfold handleTcpWireFailure
  rw [if_neg (by rw [hunarmed]; decide)]
  split
  · exact .refl bridge
  · exact (untouched_clear hunarmed _).trans (untouched_resetTcpEndpoint _)

theorem untouched_onWireEvent (htcp : config.transport = .tcp) (hunarmed : bridge.wireArmed = false)
    (e now : Nat) {event : EndpointEvent} (hdata : ∀ chunk, event ≠ .data chunk) :
    Untouched bridge (bridge.onWireEvent config e now event) := by
  cases event with
  | data chunk => exact absurd rfl (hdata chunk)
  | message msg =>
    simp only [onWireEvent, htcp]
    exact .refl bridge
  | finished =>
    simp only [onWireEvent, htcp, hunarmed]
    exact .refl bridge
  | close =>
    simp only [onWireEvent, htcp, hunarmed]
    exact untouched_clear hunarmed e
  | error resetLike =>
    simp only [onWireEvent, htcp]
    exact untouched_handleTcpWireFailure hunarmed resetLike now
  | writeError _ => exact .refl bridge

theorem untouched_onDrainEvent (hunarmed : bridge.wireArmed = false) (e now : Nat)
    (event : EndpointEvent) : Untouched bridge (bridge.onDrainEvent config e now event) := by
  cases event with
  | data _ =>
    simp only [onDrainEvent]
    exact (untouched_clear hunarmed e).trans (untouched_resetTcpEndpoint _)
  | message _ => exact .refl bridge
  | finished =>
    simp only [onDrainEvent]
    exact untouched_respondFinTcpEndpoint _
  | close => exact untouched_clear hunarmed e
  | error resetLike => exact untouched_handleTcpWireFailure hunarmed resetLike now
  | writeError _ => exact .refl bridge

theorem Isolated.untouched (hisolated : Isolated config bridge) (hsound : Sound config bridge seen)
    {e : Nat} (hstale : bridge.ep ≠ some e) (now : Nat) (event : EndpointEvent) :
    Untouched bridge (bridge.onEndpointEvent config e now event) := by
  have hnoted := @untouched_noteEvent config bridge e event
  unfold TunBridge.onEndpointEvent
  split
  case isTrue => exact .refl bridge
  rename_i hraised
  have hwired : Untouched bridge
      (if e ∈ bridge.wireOn then (bridge.noteEvent config e event).onWireEvent config e now event
        else bridge.noteEvent config e event) := by
    split
    case isTrue hon =>
      rcases hisolated.attached e hon with h | h | ⟨htcp, hnone, hdestroyed⟩
      · exact absurd h hstale
      · cases event <;> simp [canRaise, h] at hraised
      · have hunarmed : bridge.wireArmed = false :=
          Bool.eq_false_iff.mpr fun harmed => hsound.armed harmed hnone
        refine hnoted.trans
          (untouched_onWireEvent htcp (hnoted.wireArmed.trans hunarmed) e now ?_)
        rintro chunk rfl
        simp [canRaise, hdestroyed] at hraised
    case isFalse => exact hnoted
  have hserved : Untouched bridge
      (if bridge.drainOn = some e then
        (if e ∈ bridge.wireOn then
            (bridge.noteEvent config e event).onWireEvent config e now event
          else bridge.noteEvent config e event).onDrainEvent config e now event
      else
        if e ∈ bridge.wireOn then (bridge.noteEvent config e event).onWireEvent config e now event
        else bridge.noteEvent config e event) := by
    by_cases hdrain : bridge.drainOn = some e
    · have hunarmed : bridge.wireArmed = false := hisolated.disarmed (by rw [hdrain]; simp)
      rw [if_pos hdrain]
      exact hwired.trans (untouched_onDrainEvent (hwired.wireArmed.trans hunarmed) e now event)
    · rw [if_neg hdrain]
      exact hwired
  cases event with
  | writeError resetLike =>
    dsimp only
    rw [if_neg fun h => hstale h.2]
    exact hnoted
  | data _ => exact hserved
  | message _ => exact hserved
  | finished => exact hserved
  | close => exact hserved
  | error _ => exact hserved

end Events

section Runs

variable {config : BridgeConfig} {bridge : TunBridge} {seen : List Bytes}

/-- The steps that move on from an endpoint with its handlers in place. The wire of a data
channel that has not closed is taken down or replaced; an endpoint takes the place of an idle
TCP socket that is still waited for; a lazy connect fails over an endpoint with handlers, or
gives a UDP server another socket than the one with the handlers; an idle TCP socket with
handlers is refused. -/
def Exposes (config : BridgeConfig) (bridge : TunBridge) : BridgeEvent → Prop
  | .tun now packet => bridge.waits config now packet = true ∧ bridge.RefusesWired config
  | .ensureWire => bridge.RefusesWired config
  | .idle _ => bridge.idleTimer = true ∧ config.softKeepAliveIdle = false ∧
      config.transport = .webrtcDc ∧ bridge.Wired
  | .connected newEp => bridge.lazyPending = true ∧ bridge.ep ≠ some newEp ∧
      (config.transport = .webrtcDc ∨ config.transport = .udpServer) ∧ bridge.Wired
  | .connectFailed => bridge.lazyPending = true ∧ bridge.WiredOpen config
  | .reconnectWire _ => bridge.connecting = false ∧
      (config.transport = .webrtcDc ∧ bridge.Wired ∨ bridge.drainOn ≠ none)
  | .pump _ _ | .gracefulClosed | .endpoint _ _ _ | .socket _ _ _ _ _ => False

theorem Isolated.pumpDcQueue (hisolated : Isolated config bridge) (room : Nat) (isOpen : Bool) :
    Isolated config (bridge.pumpDcQueue config room isOpen) := by
  have hcalled : Isolated config
      { bridge with dcPumpScheduled := false, pumps := bridge.pumps - 1 } :=
    ⟨hisolated.attached, hisolated.single, hisolated.disarmed⟩
  have hbase : Isolated config (if bridge.dcQueue.take room = [] then
        { bridge with dcPumpScheduled := false, pumps := bridge.pumps - 1 }
      else { bridge with dcPumpScheduled := false, pumps := bridge.pumps - 1 }.bumpActivity
        config) := by
    split
    · exact hcalled
    · exact hcalled.still (aside_bumpActivity config _).toStill
  unfold TunBridge.pumpDcQueue
  dsimp only
  split
  case h_1 =>
    split
    · exact ⟨hbase.attached, hbase.single, hbase.disarmed⟩
    · exact ⟨hbase.attached, hbase.single, hbase.disarmed⟩
  case h_2 => exact hcalled

theorem Isolated.step (hisolated : Isolated config bridge) (hsound : Sound config bridge seen)
    (event : BridgeEvent) (hquiet : ¬bridge.Exposes config event) :
    Isolated config (bridge.step config event) := by
  cases event with
  | tun now packet =>
    exact hisolated.onTunPacket hsound now packet fun hwaits h => hquiet ⟨hwaits, h⟩
  | idle now =>
    simp only [TunBridge.step]
    have hfired := hisolated.still (aside_cancelTimers bridge).toStill
    split
    case isTrue htimer =>
      split
      case isTrue => exact hfired.softTeardownWire now
      rename_i hhard
      exact hfired.teardownWire .idle now fun hchannel hwired =>
        hquiet ⟨htimer, Bool.eq_false_iff.mpr hhard, hchannel, hwired⟩
    case isFalse => exact hisolated
  | ensureWire => exact hisolated.ensureWire hquiet
  | connected newEp =>
    simp only [TunBridge.step]
    split
    case isTrue hready =>
      obtain ⟨hpending, hopen⟩ := Bool.and_eq_true_iff.mp hready
      exact hisolated.connected hsound hpending (by simpa using hopen) fun hother hkeeps hwired =>
        hquiet ⟨hpending, hother, hkeeps, hwired⟩
    case isFalse => exact hisolated
  | connectFailed =>
    simp only [TunBridge.step]
    split
    case isTrue hpending => exact hisolated.connectFailed fun hopen => hquiet ⟨hpending, hopen⟩
    case isFalse => exact hisolated
  | reconnectWire newEp =>
    simp only [TunBridge.step]
    split
    case isTrue => exact hisolated
    refine hisolated.reconnectWire (fun hidle hchannel hwired => ?_) fun hidle => ?_
    · exact hquiet ⟨hidle, .inl ⟨hchannel, hwired⟩⟩
    · by_contra hdrain
      exact hquiet ⟨hidle, .inr hdrain⟩
  | pump room isOpen =>
    simp only [TunBridge.step]
    split
    · exact hisolated
    · exact hisolated.pumpDcQueue room isOpen
  | gracefulClosed => exact ⟨hisolated.attached, hisolated.single, hisolated.disarmed⟩
  | endpoint e now event => exact hisolated.onEndpointEvent hsound e now event
  | socket e destroyed readableEnded ended unwritable =>
    exact hisolated.still (aside_socket bridge e destroyed readableEnded ended unwritable).toStill

/-- No step of the run moves on from an endpoint with its handlers in place. -/
def Sheltered (config : BridgeConfig) : TunBridge → List BridgeEvent → Prop
  | _, [] => True
  | bridge, event :: rest =>
    ¬bridge.Exposes config event ∧ Sheltered config (bridge.step config event) rest

theorem Isolated.run {events : List BridgeEvent} (hisolated : Isolated config bridge)
    (hsound : Sound config bridge seen) (hsheltered : Sheltered config bridge events) (n : Nat) :
    Isolated config (bridge.run config (events.take n)) := by
  induction events generalizing bridge seen n with
  | nil => rwa [List.take_nil]
  | cons event rest ih =>
    obtain ⟨hquiet, hsheltered'⟩ := hsheltered
    cases n with
    | zero => exact hisolated
    | succ n => exact ih (hisolated.step hsound event hquiet) (hsound.step event) hsheltered' n

theorem isolated_init (config : BridgeConfig) (endpoint : Nat) (endpoints : Nat → Endpoint) :
    Isolated config (init config endpoint endpoints) := by
  unfold init
  split
  · exact Isolated.of_gone (fun _ he => by cases he) fun h => absurd rfl h
  refine Isolated.still ?_ (aside_bumpActivity config _).toStill
  exact Isolated.of_attached rfl rfl rfl (fun _ he => by cases he) fun h => absurd rfl h

/-- In a run none of whose steps moves on from an endpoint with its handlers in place, an
event of an endpoint that is not the current one writes nothing into the TUN, feeds nothing to
the framer and leaves an armed wire armed on its endpoint. -/
theorem stale_events_isolated_unless_exposed (config : BridgeConfig) (endpoint : Nat)
    (endpoints : Nat → Endpoint) (events : List BridgeEvent)
    (hsheltered : Sheltered config (init config endpoint endpoints) events) (n : Nat) :
    let bridge := (init config endpoint endpoints).run config (events.take n)
    ∀ e now event, bridge.ep ≠ some e →
      Untouched bridge (bridge.step config (.endpoint e now event)) := by
  intro bridge e now event hstale
  have hsound : Sound config bridge ([] ++ tunPackets (events.take n)) :=
    (sound_init config endpoint endpoints).run (events.take n)
  have hisolated : Isolated config bridge :=
    (isolated_init config endpoint endpoints).run (sound_init config endpoint endpoints)
      hsheltered n
  exact hisolated.untouched hsound hstale now event

/-- The rest of a frame that a replaced socket still brings. -/
theorem late_data_of_replaced_socket :
    let config : BridgeConfig := ⟨.tcp, true, false, 0, .server, false, false, fun _ => true⟩
    let bridge := (init config 0 fun _ => .fresh).run config [.reconnectWire 1]
    bridge.ep = some 1 ∧ bridge.wireArmed = true ∧
      Untouched bridge (bridge.step config (.endpoint 0 5 (.data [0, 0, 0, 1, 69]))) := by
  intro config bridge
  refine ⟨by decide, by decide, ?_⟩
  refine stale_events_isolated_unless_exposed config 0 (fun _ => .fresh) [.reconnectWire 1]
    ⟨?_, trivial⟩ 1 0 5 _ (by decide)
  rintro ⟨_, h | h⟩
  · exact absurd h.1 (by decide)
  · exact h rfl

/-- The late close of a replaced data channel takes down the wire of the new one. -/
theorem late_close_of_replaced_channel :
    let config : BridgeConfig := ⟨.webrtcDc, true, false, 0, .server, false, false, fun _ => true⟩
    let bridge := (init config 0 fun _ => .fresh).run config [.reconnectWire 1]
    bridge.ep = some 1 ∧ bridge.wireArmed = true ∧ (bridge.endpoints 0).closed = true ∧
      (bridge.step config (.endpoint 0 5 .close)).ep = none ∧
      ¬Untouched bridge (bridge.step config (.endpoint 0 5 .close)) := by
  intro config bridge
  refine ⟨by decide, by decide, by decide, by decide, fun huntouched => ?_⟩
  have harmed := huntouched.wireArmed
  revert harmed
  decide

end Runs

end TunBridge

end Meshpn.Bridge
