import Meshpn.Bridge.WireState

/-!
Connecting, sending and the events of a bridge keep its flags and the order of
its packets. A wire that is armed has an endpoint, a connect is pending exactly
while the flag says so, and the packets of all wires are a subsequence of what
came from the TUN.
-/

namespace Meshpn.Bridge

open Meshpn.Lib List

namespace TunBridge

/-- The idle socket of a client, where there is one, is of no more use. -/
def Unusable (config : BridgeConfig) (bridge : TunBridge) : Prop :=
  ∀ sock, bridge.ep = some sock → bridge.wireArmed = true ∨ bridge.connecting = true ∨
    config.transport ≠ .tcp ∨ (bridge.endpoints sock).destroyed = true ∨
    config.tcpWireRole ≠ .client

section Rearm

variable {config : BridgeConfig} {bridge kept : TunBridge} {seen : List Bytes}

theorem rearm_of_unusable (hunusable : bridge.Unusable config) :
    bridge.rearmTcpClientWire config = (false, bridge) := by
  unfold rearmTcpClientWire
  split
  case h_1 sock hep => rw [if_pos (hunusable sock hep)]
  case h_2 => rfl

theorem unusable_of_refused (hrefused : bridge.rearmTcpClientWire config = (false, kept)) :
    kept = bridge ∧ bridge.Unusable config ∨
      ∃ sock, bridge.ep = some sock ∧ bridge.wireArmed = false ∧
        kept = bridge.tcpIdleDrainOff.clearTcpEndpointRef sock := by
  unfold rearmTcpClientWire at hrefused
  split at hrefused
  case h_2 hnone =>
    cases hrefused
    exact .inl ⟨rfl, fun sock hep => by rw [hep] at hnone; cases hnone⟩
  rename_i sock hep
  split at hrefused
  case isTrue hunusable =>
    cases hrefused
    refine .inl ⟨rfl, fun other hother => ?_⟩
    rw [hep] at hother
    cases hother
    exact hunusable
  case isFalse husable =>
    split at hrefused
    · cases hrefused
      exact .inr ⟨sock, hep, Bool.eq_false_iff.mpr fun h => husable (.inl h), rfl⟩
    · cases hrefused

/-- The refusal leaves nothing to be used again, and the flags and the queue as they were. -/
theorem refused_spec (hrefused : bridge.rearmTcpClientWire config = (false, kept)) :
    kept.Unusable config ∧ kept.wireArmed = bridge.wireArmed ∧
      kept.connecting = bridge.connecting ∧ kept.tunQueue = bridge.tunQueue := by
  obtain ⟨rfl, hunusable⟩ | ⟨sock, hep, _, rfl⟩ := unusable_of_refused hrefused
  · exact ⟨hunusable, rfl, rfl, rfl⟩
  have hcurrent : bridge.tcpIdleDrainOff.ep = some sock := hep
  unfold clearTcpEndpointRef
  rw [if_pos hcurrent]
  exact ⟨fun _ h => (by cases h), rfl, rfl, rfl⟩

theorem Sound.refused (hsound : Sound config bridge seen)
    (hrefused : bridge.rearmTcpClientWire config = (false, kept)) : Sound config kept seen := by
  obtain ⟨rfl, _⟩ | ⟨sock, _, hunarmed, rfl⟩ := unusable_of_refused hrefused
  · exact hsound
  · exact hsound.tcpIdleDrainOff.clearTcpEndpointRef sock fun _ => hunarmed

theorem Sound.rearmed {armed : TunBridge} (hsound : Sound config bridge seen)
    (hrearmed : bridge.rearmTcpClientWire config = (true, armed)) :
    Sound config armed seen ∧ armed.tunQueue = [] ∧ bridge.tunQueue = [] := by
  unfold rearmTcpClientWire at hrearmed
  split at hrearmed
  case h_2 => cases hrearmed
  rename_i sock hep
  split at hrearmed
  case isTrue => cases hrearmed
  rename_i husable
  split at hrearmed
  case isTrue => cases hrearmed
  cases hrearmed
  have hconnecting : bridge.connecting = false :=
    Bool.eq_false_iff.mpr fun h => husable (.inr (.inl h))
  have hqueue : bridge.tunQueue = [] := by
    by_contra hne
    rcases hsound.waiting hne with h | h
    · rw [hconnecting] at h
      cases h
    · rw [hep] at h
      cases h
  have hordered := hsound.ordered
  rw [hqueue] at hordered
  have hattached := attachWireHandlers_eq config bridge.tcpIdleDrainOff hep
  rw [hattached]
  refine ⟨Sound.aside ?_ (aside_bumpActivity config _), ?_, hqueue⟩
  · refine Sound.arm (fun h => by rw [show bridge.ep = none from h] at hep; cases hep)
      hconnecting (hsound.pending.symm.trans hconnecting) hqueue hsound.channel hordered
      (fun e h => by cases h) fun e h => ?_
    rcases h with h | h
    · exact hsound.known e (.inl h)
    · cases h
  · exact (aside_bumpActivity config _).tunQueue.trans hqueue

theorem Sound.await (hsound : Sound config bridge seen) (hunarmed : bridge.wireArmed = false)
    (hunusable : bridge.connecting = false → bridge.Unusable config) :
    Sound config { bridge with connecting := true, lazyPending := true } seen :=
  { hsound with
    pending := rfl
    unarmed := fun _ => hunarmed
    waiting := fun _ => .inl rfl
    replacing := fun _ htcp hclient e he => by
      cases hconnecting : bridge.connecting with
      | true => exact hsound.replacing hconnecting htcp hclient e he
      | false =>
        rcases hunusable hconnecting e he with h | h | h | h | h
        · rw [hunarmed] at h
          cases h
        · rw [hconnecting] at h
          cases h
        · exact absurd htcp h
        · exact h
        · exact absurd hclient h }

theorem Sound.enqueue (hsound : Sound config bridge seen) (hconnecting : bridge.connecting = true)
    (pkt : Bytes) : Sound config (bridge.enqueue pkt) (seen ++ [pkt]) :=
  { hsound with
    drained := fun h => by
      have hunarmed := hsound.unarmed hconnecting
      rw [show bridge.wireArmed = true from h] at hunarmed
      cases hunarmed
    waiting := fun _ => .inl hconnecting
    short := by
      have hshort := hsound.short
      unfold TunBridge.enqueue
      dsimp only
      split <;> simp only [length_append, length_tail, length_singleton] <;>
        unfold keepaliveTunQueueMax at * <;> omega
    ordered := by
      unfold TunBridge.enqueue
      dsimp only
      split
      · exact (hsound.ordered.drop (tail_sublist _)).more pkt
      · exact hsound.ordered.more pkt }

end Rearm

section Connect

variable {config : BridgeConfig} {bridge : TunBridge} {seen : List Bytes}

theorem still_flushTunQueue (bridge : TunBridge) :
    Still { bridge with tunQueue := [] } (bridge.flushTunQueue config) :=
  still_sendAll _ _

theorem settled (hconnecting : bridge.connecting = false) (hpending : bridge.lazyPending = false) :
    { bridge with connecting := false, lazyPending := false } = bridge := by
  cases bridge
  cases hconnecting
  cases hpending
  rfl

theorem Sound.flush (hep : bridge.ep ≠ none) (hchannel : bridge.ChannelOnly config)
    (hordered : bridge.Ordered bridge.tunQueue seen)
    (hdraining : ∀ e, bridge.drainOn = some e → config.transport = .tcp ∧
      config.tcpWireRole = .client ∧ bridge.ep ≠ some e)
    (hknown : ∀ e, bridge.ep = some e ∨ bridge.drainOn = some e → e ∈ bridge.handed) :
    Sound config
      { bridge.flushTunQueue config with connecting := false, lazyPending := false } seen := by
  have hstill := @still_flushTunQueue config bridge
  obtain ⟨hflushed, hchannel'⟩ :=
    @sendAll_ordered config { bridge with tunQueue := [] } seen bridge.tunQueue hordered hchannel
  refine Sound.arm ?_ rfl rfl hstill.tunQueue hchannel' hflushed ?_ ?_
  · dsimp only
    rw [hstill.ep]
    exact hep
  · intro e h
    dsimp only at h ⊢
    rw [hstill.ep]
    exact hdraining e (hstill.drainOn ▸ h)
  · intro e h
    dsimp only at h ⊢
    rw [hstill.ep, hstill.drainOn] at h
    rw [hstill.handed]
    exact hknown e h

theorem Sound.reconnectWire (hsound : Sound config bridge seen) {newEp : Nat}
    (hnew : newEp ∉ bridge.handed) : Sound config (bridge.reconnectWire config newEp) seen := by
  rw [reconnectWire_eq]
  split
  case isTrue =>
    exact { hsound with known := fun e h => mem_append_left _ (hsound.known e h) }
  rename_i hidle
  have hconnecting : bridge.connecting = false := Bool.eq_false_iff.mpr hidle
  have harmed := (aside_bumpActivity config (bridge.replaced config newEp)).trans
    (aside_closeBridgeEndpoint config _ bridge.ep)
  generalize ((bridge.replaced config newEp).bumpActivity config).closeBridgeEndpoint config
    bridge.ep = armed at harmed
  have hordered : armed.Ordered armed.tunQueue seen := by
    rw [harmed.tunQueue]
    exact hsound.ordered.congr harmed.sent (harmed.dcQueue ▸ nil_sublist _)
  have hflushed := Sound.flush (by rw [harmed.ep]; exact Option.some_ne_none newEp)
    (fun _ => harmed.dcQueue) hordered
    (fun e h => by
      have hdrain : bridge.drainOn = some e := harmed.drainOn ▸ h
      refine ⟨(hsound.draining e hdrain).1, (hsound.draining e hdrain).2.1, fun hsame => ?_⟩
      rw [harmed.ep] at hsame
      cases hsame
      exact hnew (hsound.known _ (.inr hdrain)))
    (fun e h => by
      rw [harmed.ep, harmed.drainOn] at h
      rw [harmed.handed]
      rcases h with h | h
      · cases h
        exact mem_append_right _ (mem_singleton_self _)
      · exact mem_append_left _ (hsound.known e (.inr h)))
  have hstill := @still_flushTunQueue config armed
  have hsettled : (armed.flushTunQueue config).connecting = false :=
    hstill.connecting.trans (harmed.connecting.trans hconnecting)
  have hpending : (armed.flushTunQueue config).lazyPending = false :=
    hstill.lazyPending.trans (harmed.lazyPending.trans (hsound.pending.symm.trans hconnecting))
  rwa [settled hsettled hpending] at hflushed

theorem Sound.connected (hsound : Sound config bridge seen) {newEp : Nat}
    (hpending : bridge.lazyPending = true)
    (hopen : (bridge.endpoints newEp).destroyed = false) :
    Sound config (bridge.connected config newEp) seen := by
  have hconnecting := hsound.pending.trans hpending
  have hfinal : ∀ armed : TunBridge, armed.ep = some newEp → armed.tunQueue = bridge.tunQueue →
      armed.sent = bridge.sent → armed.dcQueue = bridge.dcQueue →
      armed.handed = bridge.handed ++ [newEp] →
      (∀ e, armed.drainOn = some e → bridge.drainOn = some e ∧ bridge.ep = some newEp) →
      Sound config { (armed.bumpActivity config).flushTunQueue config with
        connecting := false, lazyPending := false } seen := by
    intro armed hep hqueue hsent hchannel hhanded hdrain
    have hbumped := aside_bumpActivity config armed
    refine Sound.flush (by rw [hbumped.ep, hep]; simp)
      (fun h => by rw [hbumped.dcQueue, hchannel]; exact hsound.channel h) ?_ ?_ ?_
    · rw [hbumped.tunQueue, hqueue]
      exact hsound.ordered.congr (hbumped.sent.trans hsent)
        (by rw [hbumped.dcQueue, hchannel])
    · intro e h
      obtain ⟨hdrained, hsame⟩ := hdrain e (hbumped.drainOn ▸ h)
      obtain ⟨htcp, hclient, _⟩ := hsound.draining e hdrained
      refine ⟨htcp, hclient, fun hcurrent => ?_⟩
      have hdestroyed := hsound.replacing hconnecting htcp hclient newEp hsame
      rw [hopen] at hdestroyed
      cases hdestroyed
    · intro e h
      rw [hbumped.ep, hbumped.drainOn, hep] at h
      rw [hbumped.handed, hhanded]
      rcases h with h | h
      · cases h
        exact mem_append_right _ (mem_singleton_self _)
      · exact mem_append_left _ (hsound.known e (.inr (hdrain e h).1))
  unfold TunBridge.connected
  dsimp only
  split
  case isTrue hsame => exact hfinal _ hsame rfl rfl rfl rfl (fun e h => ⟨h, hsame⟩)
  rw [attachWireHandlers_eq config _ rfl]
  exact hfinal _ rfl rfl rfl rfl rfl (fun e h => by cases h)

theorem Sound.connectFailed (hsound : Sound config bridge seen) :
    Sound config bridge.connectFailed seen where
  armed h := by cases h
  pending := rfl
  unarmed _ := rfl
  drained h := by cases h
  waiting _ := .inr rfl
  short := hsound.short
  channel := hsound.channel
  ordered := hsound.ordered
  draining e h := ⟨(hsound.draining e h).1, (hsound.draining e h).2.1, fun _ => rfl⟩
  replacing h := by cases h
  known e h := by
    rcases h with h | h
    · cases h
    · exact hsound.known e (.inr h)

theorem Sound.ensureWire (hsound : Sound config bridge seen) :
    Sound config (bridge.ensureWire config) seen := by
  unfold TunBridge.ensureWire
  split
  case isTrue => exact hsound
  rename_i hidle
  split
  case h_1 armed hrearmed =>
    obtain ⟨harmed, hempty, _⟩ := hsound.rearmed hrearmed
    unfold flushTunQueue
    rw [hempty]
    exact harmed.empty
  case h_2 kept hrefused =>
    obtain ⟨hunusable, hunarmed, _, _⟩ := refused_spec hrefused
    have hkept := hsound.refused hrefused
    split
    · refine hkept.await (hunarmed.trans ?_) (fun _ => hunusable)
      exact Bool.eq_false_iff.mpr fun h => hidle (.inl h)
    · exact hkept

end Connect

section Packets

variable {config : BridgeConfig} {bridge : TunBridge} {seen : List Bytes}

theorem ensureWire_enqueue (hlazy : config.lazyConnect = true)
    (hpending : bridge.connecting = bridge.lazyPending)
    (hunarmed : bridge.wireArmed = false) (hunusable : bridge.Unusable config) (pkt : Bytes) :
    (bridge.enqueue pkt).ensureWire config =
      { bridge with connecting := true, lazyPending := true }.enqueue pkt := by
  unfold TunBridge.ensureWire
  cases hconnecting : bridge.connecting with
  | true =>
    have hlate : (bridge.enqueue pkt).connecting = true := hconnecting
    rw [if_pos (.inr hlate)]
    rw [hconnecting] at hpending
    cases bridge
    cases hconnecting
    cases hpending
    rfl
  | false =>
    have hearly : ¬((bridge.enqueue pkt).wireArmed = true ∨
        (bridge.enqueue pkt).connecting = true) := by
      rintro (h | h)
      · rw [show (bridge.enqueue pkt).wireArmed = false from hunarmed] at h
        cases h
      · rw [show (bridge.enqueue pkt).connecting = false from hconnecting] at h
        cases h
    rw [if_neg hearly, @rearm_of_unusable config (bridge.enqueue pkt) hunusable]
    dsimp only
    rw [if_pos hlazy]
    rfl

theorem Sound.sendOnWire (hsound : Sound config bridge seen) (hqueue : bridge.tunQueue = [])
    (pkt : Bytes) : Sound config (bridge.sendOnWire config pkt) (seen ++ [pkt]) := by
  have hstill := @still_sendOnWire config bridge pkt
  have hnext : bridge.Ordered [pkt] (seen ++ [pkt]) := by
    have hmore := hsound.ordered.more pkt
    rwa [hqueue] at hmore
  obtain ⟨hordered, hchannel⟩ := sendOnWire_ordered hnext hsound.channel
  have hempty := hstill.tunQueue.trans hqueue
  exact {
    armed := fun h => by rw [hstill.ep]; exact hsound.armed (hstill.wireArmed ▸ h)
    pending := by rw [hstill.connecting, hstill.lazyPending]; exact hsound.pending
    unarmed := fun h => by rw [hstill.wireArmed]; exact hsound.unarmed (hstill.connecting ▸ h)
    drained := fun _ => hempty
    waiting := fun h => absurd hempty h
    short := by rw [hempty]; exact Nat.zero_le _
    channel := hchannel
    ordered := by rw [hempty]; exact hordered
    draining := fun e h => by
      rw [hstill.ep, hstill.wireArmed]
      exact hsound.draining e (hstill.drainOn ▸ h)
    replacing := fun h htcp hclient e he => hstill.destroyed e
      (hsound.replacing (hstill.connecting ▸ h) htcp hclient e (hstill.ep ▸ he))
    known := fun e h => by
      rw [hstill.handed]
      exact hsound.known e (by rw [← hstill.ep, ← hstill.drainOn]; exact h) }

theorem Sound.onTunPacket (hsound : Sound config bridge seen) (now : Nat) (packet : TunPacket) :
    Sound config (bridge.onTunPacket config now packet) (seen ++ [packet.pkt]) := by
  have hpassed := hsound.pass packet.pkt
  unfold TunBridge.onTunPacket
  split
  · exact hpassed
  split
  · exact hpassed.aside (aside_writeTun config bridge _)
  split
  · exact hpassed
  · split
    case isTrue hlazy =>
      have hunarmed : bridge.wireArmed = false := by
        simpa using (Bool.and_eq_true_iff.mp hlazy).1
      split
      · exact hpassed
      split
      case h_1 armed hrearmed =>
        obtain ⟨harmed, hempty, _⟩ := hsound.rearmed hrearmed
        split
        · exact harmed.sendOnWire hempty packet.pkt
        · exact harmed.pass packet.pkt
      case h_2 kept hrefused =>
        obtain ⟨hunusable, hsame, _, _⟩ := refused_spec hrefused
        have hkept := hsound.refused hrefused
        rw [ensureWire_enqueue (Bool.and_eq_true_iff.mp hlazy).2 hkept.pending
          (hsame.trans hunarmed) hunusable]
        exact (hkept.await (hsame.trans hunarmed) (fun _ => hunusable)).enqueue rfl packet.pkt
    case isFalse =>
      split
      case isTrue => exact hpassed
      rename_i hready
      have harmed : bridge.wireArmed = true := by
        cases h : bridge.wireArmed with
        | true => rfl
        | false => simp [h] at hready
      exact hsound.sendOnWire (hsound.drained harmed) packet.pkt

theorem Sound.pumped {called : TunBridge} (hsound : Sound config bridge seen)
    (hcalled : Aside bridge called) (htransport : config.transport = .webrtcDc) (e room : Nat) :
    Sound config { called with
      dcQueue := bridge.dcQueue.drop room
      sent := bridge.sent ++ (bridge.dcQueue.take room).map fun pkt => (e, pkt) } seen :=
  { hsound.aside hcalled with
    channel := fun h => absurd htransport h
    ordered := by
      have hordered := hsound.ordered
      unfold Ordered at hordered ⊢
      dsimp only
      rw [hcalled.tunQueue, map_append, map_map, append_assoc (bridge.sent.map _)]
      have hsame : (bridge.dcQueue.take room).map (Prod.snd ∘ fun pkt => (e, pkt)) ++
          bridge.dcQueue.drop room = bridge.dcQueue := by
        rw [show (Prod.snd ∘ fun pkt : Bytes => (e, pkt)) = id from rfl, map_id,
          take_append_drop]
      rw [hsame]
      exact hordered }

theorem Sound.pumpDcQueue (hsound : Sound config bridge seen) (room : Nat) (isOpen : Bool) :
    Sound config (bridge.pumpDcQueue config room isOpen) seen := by
  have hcalled : Aside bridge
      { bridge with dcPumpScheduled := false, pumps := bridge.pumps - 1 } :=
    { }
  unfold TunBridge.pumpDcQueue
  dsimp only
  split
  case h_2 => exact hsound.aside hcalled
  rename_i e htransport _ _
  have hbase : Aside bridge (if bridge.dcQueue.take room = [] then
        { bridge with dcPumpScheduled := false, pumps := bridge.pumps - 1 }
      else { bridge with dcPumpScheduled := false, pumps := bridge.pumps - 1 }.bumpActivity
        config) := by
    split
    · exact hcalled
    · exact hcalled.trans (aside_bumpActivity config _)
  have hpumped := hsound.pumped hbase htransport e room
  split
  · exact hpumped
  · exact hpumped.aside { }

end Packets

section Events

variable {config : BridgeConfig} {bridge : TunBridge} {seen : List Bytes}

theorem tearDown_cases (reason : Reason) (now : Nat) :
    bridge.tearDown config reason now = bridge ∨
      (bridge.tearDown config reason now).wireArmed = false := by
  obtain ⟨cooled, htearDown⟩ := tearDown_eq config bridge reason now
  rw [htearDown]
  split
  case isTrue => exact .inl rfl
  split
  case isTrue hquiet => exact .inr hquiet.1
  dsimp only
  split
  · split
    · exact .inr (aside_respondFinTcpEndpoint _ _).wireArmed
    · exact .inr (aside_resetTcpEndpoint _ _).wireArmed
  · exact .inr rfl

theorem teardownWire_of_peer {reason : Reason} (hreason : reason ≠ .idle) (now : Nat) :
    bridge.teardownWire config reason now = bridge.tearDown config reason now := by
  unfold teardownWire
  split
  · exact absurd rfl hreason
  · exact absurd rfl hreason
  · rfl

theorem Sound.onWireEvent (hsound : Sound config bridge seen) (e now : Nat)
    (event : EndpointEvent) : Sound config (bridge.onWireEvent config e now event) seen := by
  unfold TunBridge.onWireEvent
  split
  case h_1 chunk =>
    split
    · exact hsound.aside (aside_onData config bridge e chunk)
    · exact hsound
  case h_2 msg =>
    split
    · exact hsound
    · exact hsound.aside ((aside_bumpActivity config bridge).trans (aside_writeTun config _ msg))
    all_goals exact hsound.aside (aside_onDatagram config bridge msg)
  case h_3 =>
    split
    · exact hsound.teardownWire _ now
    · exact hsound
  case h_4 =>
    split
    · split
      case isTrue => exact hsound.tcpIdleDrainOff.teardownWire _ now
      case isFalse hunarmed =>
        exact hsound.tcpIdleDrainOff.clearTcpEndpointRef e fun _ => Bool.eq_false_iff.mpr hunarmed
    · split
      · exact hsound.teardownWire _ now
      · exact hsound
    · split
      · exact hsound.teardownWire _ now
      · exact hsound
    · split
      · exact hsound.teardownWire _ now
      · exact hsound
    · exact hsound
  case h_5 resetLike =>
    split
    · exact hsound.handleTcpWireFailure resetLike now
    · split
      · exact hsound.teardownWire _ now
      · exact hsound
    · split
      · exact hsound.teardownWire _ now
      · exact hsound
    · exact hsound
    · exact hsound
  case h_6 => exact hsound

def IdleAt (bridge : TunBridge) (e : Nat) : Prop := bridge.ep = some e → bridge.wireArmed = false

theorem IdleAt.aside {other : TunBridge} {e : Nat} (hidle : bridge.IdleAt e)
    (haside : Aside bridge other) : other.IdleAt e := by
  intro h
  rw [haside.wireArmed]
  exact hidle (haside.ep ▸ h)

theorem IdleAt.tearDown {e : Nat} (hidle : bridge.IdleAt e) (reason : Reason) (now : Nat) :
    (bridge.tearDown config reason now).IdleAt e := by
  rcases @tearDown_cases config bridge reason now with h | h
  · rw [h]
    exact hidle
  · exact fun _ => h

theorem IdleAt.handleTcpWireFailure {e : Nat} (hidle : bridge.IdleAt e) (resetLike : Bool)
    (now : Nat) : (bridge.handleTcpWireFailure config resetLike now).IdleAt e := by
  unfold TunBridge.handleTcpWireFailure
  split
  case isTrue =>
    rw [teardownWire_of_peer (by split <;> decide)]
    exact hidle.tearDown _ now
  case isFalse hunarmed =>
    split
    case h_1 => exact hidle
    rename_i sock _
    intro _
    rw [(aside_resetTcpEndpoint _ _).wireArmed]
    unfold clearTcpEndpointRef
    split <;> exact Bool.eq_false_iff.mpr hunarmed

theorem IdleAt.onWireEvent {e : Nat} (hidle : bridge.IdleAt e) (htcp : config.transport = .tcp)
    (now : Nat) (event : EndpointEvent) : (bridge.onWireEvent config e now event).IdleAt e := by
  cases event with
  | data chunk =>
    simp only [TunBridge.onWireEvent, htcp, if_true]
    exact hidle.aside (aside_onData config bridge e chunk)
  | message msg =>
    simp only [TunBridge.onWireEvent, htcp]
    exact hidle
  | finished =>
    simp only [TunBridge.onWireEvent]
    split
    · rw [teardownWire_of_peer (by decide)]
      exact hidle.tearDown _ now
    · exact hidle
  | close =>
    simp only [TunBridge.onWireEvent, htcp]
    split
    case isTrue =>
      rw [teardownWire_of_peer (by decide)]
      exact @IdleAt.tearDown config bridge.tcpIdleDrainOff e hidle _ now
    case isFalse hunarmed =>
      unfold TunBridge.clearTcpEndpointRef
      split <;> exact fun _ => Bool.eq_false_iff.mpr hunarmed
  | error resetLike =>
    simp only [TunBridge.onWireEvent, htcp]
    exact hidle.handleTcpWireFailure resetLike now
  | writeError _ => exact hidle

theorem Sound.onDrainEvent {e : Nat} (hsound : Sound config bridge seen) (hidle : bridge.IdleAt e)
    (now : Nat) (event : EndpointEvent) :
    Sound config (bridge.onDrainEvent config e now event) seen := by
  cases event with
  | data _ =>
    simp only [TunBridge.onDrainEvent]
    exact (hsound.tcpIdleDrainOff.clearTcpEndpointRef e hidle).aside (aside_resetTcpEndpoint _ _)
  | message _ => exact hsound
  | finished =>
    simp only [TunBridge.onDrainEvent]
    exact hsound.aside (aside_respondFinTcpEndpoint bridge _)
  | close => exact hsound.tcpIdleDrainOff.clearTcpEndpointRef e hidle
  | error resetLike => exact hsound.handleTcpWireFailure resetLike now
  | writeError _ => exact hsound

theorem Sound.onEndpointEvent (hsound : Sound config bridge seen) (e now : Nat)
    (event : EndpointEvent) : Sound config (bridge.onEndpointEvent config e now event) seen := by
  have hnote := aside_noteEvent config bridge e event
  have hnoted := hsound.aside hnote
  have hserved : Sound config
      (if bridge.drainOn = some e then
        (if e ∈ bridge.wireOn then (bridge.noteEvent config e event).onWireEvent config e now event
          else bridge.noteEvent config e event).onDrainEvent config e now event
      else
        if e ∈ bridge.wireOn then (bridge.noteEvent config e event).onWireEvent config e now event
        else bridge.noteEvent config e event) seen := by
    split
    case isTrue hdrain =>
      obtain ⟨htcp, _, hidle⟩ := hsound.draining e hdrain
      have hidle' : (bridge.noteEvent config e event).IdleAt e := IdleAt.aside hidle hnote
      split
      · exact (hnoted.onWireEvent e now event).onDrainEvent (hidle'.onWireEvent htcp now event) now
          event
      · exact hnoted.onDrainEvent hidle' now event
    case isFalse =>
      split
      · exact hnoted.onWireEvent e now event
      · exact hnoted
  unfold TunBridge.onEndpointEvent
  split
  · exact hsound
  cases event with
  | writeError resetLike =>
    dsimp only
    split
    · exact hnoted.handleTcpWireFailure resetLike now
    · exact hnoted
  | data _ => exact hserved
  | message _ => exact hserved
  | finished => exact hserved
  | close => exact hserved
  | error _ => exact hserved

end Events

def sentTo (bridge : TunBridge) (e : Nat) : List Bytes :=
  (bridge.sent.filter fun entry => entry.1 = e).map Prod.snd

def tunPackets : List BridgeEvent → List Bytes
  | [] => []
  | .tun _ packet :: rest => packet.pkt :: tunPackets rest
  | _ :: rest => tunPackets rest

section Runs

variable {config : BridgeConfig} {bridge : TunBridge} {seen : List Bytes}

theorem Sound.step (hsound : Sound config bridge seen) (event : BridgeEvent) :
    Sound config (bridge.step config event) (seen ++ tunPackets [event]) := by
  cases event with
  | tun now packet => exact hsound.onTunPacket now packet
  | idle now =>
    have hfired := hsound.aside (aside_cancelTimers bridge)
    simp only [tunPackets, append_nil, TunBridge.step]
    split
    · split
      · exact hfired.softTeardownWire now
      · exact hfired.teardownWire .idle now
    · exact hsound
  | ensureWire =>
    simp only [tunPackets, append_nil, TunBridge.step]
    exact hsound.ensureWire
  | connected newEp =>
    simp only [tunPackets, append_nil, TunBridge.step]
    split
    case isTrue hready =>
      obtain ⟨hpending, hopen⟩ := Bool.and_eq_true_iff.mp hready
      exact hsound.connected hpending (by simpa using hopen)
    case isFalse => exact hsound
  | connectFailed =>
    simp only [tunPackets, append_nil, TunBridge.step]
    split
    · exact hsound.connectFailed
    · exact hsound
  | reconnectWire newEp =>
    simp only [tunPackets, append_nil, TunBridge.step]
    split
    case isTrue => exact hsound
    case isFalse hnew => exact hsound.reconnectWire hnew
  | pump room isOpen =>
    simp only [tunPackets, append_nil, TunBridge.step]
    split
    · exact hsound
    · exact hsound.pumpDcQueue room isOpen
  | gracefulClosed =>
    simp only [tunPackets, append_nil, TunBridge.step]
    exact hsound.aside { }
  | endpoint e now event =>
    simp only [tunPackets, append_nil, TunBridge.step]
    exact hsound.onEndpointEvent e now event
  | socket e destroyed readableEnded ended unwritable =>
    simp only [tunPackets, append_nil, TunBridge.step]
    exact hsound.aside (aside_socket bridge e destroyed readableEnded ended unwritable)

theorem tunPackets_cons (event : BridgeEvent) (rest : List BridgeEvent) :
    tunPackets (event :: rest) = tunPackets [event] ++ tunPackets rest := by
  cases event <;> rfl

theorem Sound.run (hsound : Sound config bridge seen) (events : List BridgeEvent) :
    Sound config (bridge.run config events) (seen ++ tunPackets events) := by
  induction events generalizing bridge seen with
  | nil => simpa [tunPackets, TunBridge.run] using hsound
  | cons event rest ih =>
    rw [tunPackets_cons, ← append_assoc]
    exact ih (hsound.step event)

theorem sound_init (config : BridgeConfig) (endpoint : Nat) (endpoints : Nat → Endpoint) :
    Sound config (init config endpoint endpoints) [] := by
  unfold init
  dsimp only
  split
  case isTrue =>
    exact {
      armed := fun h => by cases h
      pending := rfl
      unarmed := fun h => by cases h
      drained := fun h => by cases h
      waiting := fun h => absurd rfl h
      short := Nat.zero_le _
      channel := fun _ => rfl
      ordered := List.Sublist.refl _
      draining := fun e h => by cases h
      replacing := fun h => by cases h
      known := fun e h => by rcases h with h | h <;> cases h }
  case isFalse =>
    refine Sound.aside ?_ (aside_bumpActivity config _)
    rw [attachWireHandlers_eq config _ rfl]
    refine Sound.arm (Option.some_ne_none _) rfl rfl rfl (fun _ => rfl) (List.Sublist.refl _)
      (fun e h => by cases h) ?_
    rintro e (h | h)
    · cases h
      exact mem_singleton_self _
    · cases h

/-- A packet that is worth a connect and that nothing keeps back. -/
def waits (config : BridgeConfig) (bridge : TunBridge) (now : Nat) (packet : TunPacket) : Bool :=
  config.lazyConnect && packet.pkt != [] && packet.pkt.length ≤ maxPkt &&
    packet.reply.isNone && packet.bridgeable && bridge.idleCooldownUntilMs ≤ now &&
    packet.lazyConnectFilter

/-- A packet from the TUN joins the packets that wait, and a full queue loses its oldest one.
Where others wait, only a packet that is not worth a connect is left out. -/
theorem onTunPacket_tunQueue (hsound : Sound config bridge seen) (now : Nat) (packet : TunPacket) :
    (bridge.onTunPacket config now packet).tunQueue =
        bridge.tunQueue.drop (bridge.tunQueue.length + 1 - keepaliveTunQueueMax) ++ [packet.pkt] ∨
      (bridge.onTunPacket config now packet).tunQueue = bridge.tunQueue ∧
        (bridge.tunQueue = [] ∨ bridge.waits config now packet = false) := by
  unfold TunBridge.onTunPacket
  split
  case isTrue hsize =>
    refine .inr ⟨rfl, .inr ?_⟩
    unfold waits
    rcases hsize with h | h
    · simp [h]
    · simp [Nat.not_le.mpr h]
  case isFalse =>
    split
    case h_1 reply hreply =>
      exact .inr ⟨(aside_writeTun config bridge _).tunQueue, .inr (by simp [waits, hreply])⟩
    split
    case isTrue hforeign =>
      have hforeign' : packet.bridgeable = false := by simpa using hforeign
      exact .inr ⟨rfl, .inr (by simp [waits, hforeign'])⟩
    split
    case isTrue hlazy =>
      have hunarmed : bridge.wireArmed = false := by
        simpa using (Bool.and_eq_true_iff.mp hlazy).1
      split
      case isTrue hkept =>
        refine .inr ⟨rfl, .inr ?_⟩
        unfold waits
        rcases hkept with h | h
        · simp [Nat.not_le.mpr h]
        · simp [h]
      case isFalse =>
        split
        case h_1 armed hrearmed =>
          obtain ⟨_, hempty, hqueue⟩ := hsound.rearmed hrearmed
          refine .inr ⟨?_, .inl hqueue⟩
          rw [hqueue]
          split
          · rw [(still_sendOnWire _ _).tunQueue, hempty]
          · exact hempty
        case h_2 kept hrefused =>
          obtain ⟨hunusable, hsame, _, hqueue⟩ := refused_spec hrefused
          have hkept := hsound.refused hrefused
          rw [ensureWire_enqueue (Bool.and_eq_true_iff.mp hlazy).2 hkept.pending
            (hsame.trans hunarmed) hunusable]
          left
          unfold TunBridge.enqueue
          dsimp only
          rw [hqueue]
          have hshort := hsound.short
          split
          case isTrue hfull =>
            have hone : bridge.tunQueue.length + 1 - keepaliveTunQueueMax = 1 := by omega
            rw [hone, drop_one]
          case isFalse hroom =>
            have hzero : bridge.tunQueue.length + 1 - keepaliveTunQueueMax = 0 := by omega
            rw [hzero, drop_zero]
    case isFalse hready =>
      -- the wire is armed, and nothing waits, or there is no lazy connect
      have hside : bridge.tunQueue = [] ∨ bridge.waits config now packet = false := by
        cases harmed : bridge.wireArmed with
        | true => exact .inl (hsound.drained harmed)
        | false =>
          have hnone : config.lazyConnect = false := by simpa [harmed] using hready
          exact .inr (by simp [waits, hnone])
      split
      · exact .inr ⟨rfl, hside⟩
      · exact .inr ⟨(still_sendOnWire _ _).tunQueue, hside⟩

/-- In every run a wire that is armed has an endpoint, the flag of a connect is set exactly
while one is pending, what was sent is a subsequence of what came from the TUN, for every wire
and over all of them, and at most 256 packets wait, of which a further one displaces only the
oldest. -/
theorem armed_wire_keeps_order (config : BridgeConfig) (endpoint : Nat)
    (endpoints : Nat → Endpoint) (events : List BridgeEvent) :
    let bridge := (init config endpoint endpoints).run config events
    (bridge.wireArmed = true → bridge.ep ≠ none) ∧
      (bridge.connecting = true ↔ bridge.lazyPending = true) ∧
      (bridge.sent.map Prod.snd).Sublist (tunPackets events) ∧
      (∀ e, (bridge.sentTo e).Sublist (tunPackets events)) ∧
      bridge.tunQueue.length ≤ keepaliveTunQueueMax ∧
      ∀ now packet,
        (bridge.step config (.tun now packet)).tunQueue =
            bridge.tunQueue.drop (bridge.tunQueue.length + 1 - keepaliveTunQueueMax) ++
              [packet.pkt] ∨
          (bridge.step config (.tun now packet)).tunQueue = bridge.tunQueue ∧
            (bridge.tunQueue = [] ∨ bridge.waits config now packet = false) := by
  intro bridge
  have hsound : Sound config bridge ([] ++ tunPackets events) :=
    (sound_init config endpoint endpoints).run events
  rw [List.nil_append] at hsound
  have hsent : (bridge.sent.map Prod.snd).Sublist (tunPackets events) := by
    refine List.Sublist.trans ?_ hsound.ordered
    rw [List.append_assoc]
    exact List.sublist_append_left _ _
  refine ⟨hsound.armed, by rw [hsound.pending], hsent, ?_, hsound.short, ?_⟩
  · intro e
    exact (List.filter_sublist.map Prod.snd).trans hsent
  · intro now packet
    exact onTunPacket_tunQueue hsound now packet

end Runs

end TunBridge

end Meshpn.Bridge
