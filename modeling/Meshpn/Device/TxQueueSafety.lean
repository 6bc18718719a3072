import Mathlib.Data.List.Induction
import Meshpn.Device.TxQueue

/-!
Which connection a packet goes out on. The queue holds packets of the connection
that is up and of the generation that is current, because both are left only with
the queue flushed. The sending task holds packets of the connection it started
on, and that connection stays open until it has stopped, unless it starts once
more on a connection after it has stopped on it: then the descriptor is closed
under it, and may be the next connection's when it writes.
-/

namespace Meshpn.Device

open Meshpn.Lib

def TxPhase.run? : TxPhase → Option TxRun
  | .idle => none
  | .check run | .session run | .loading run _ | .sending run | .leaving run => some run

theorem TxPhase.eq_idle {phase : TxPhase} (hnone : phase.run? = none) : phase = .idle := by
  cases phase with
  | idle => rfl
  | check run => cases hnone
  | session run => cases hnone
  | loading run scanned => cases hnone
  | sending run => cases hnone
  | leaving run => cases hnone

namespace Vpn

def Open (s : Vpn) : Prop :=
  ∃ fd, s.link.fd = some fd ∧ s.sock = some ⟨fd, s.conns, s.link.generation⟩

/-- What the receiving task knows where it stands. -/
def RxOk (s : Vpn) : Prop :=
  match s.rx with
  | .top | .polling _ | .closing _ | .retry _ | .backoff _ => s.link.active = false ∧ s.tx = .idle
  | .waitUplink cfg =>
    s.link.active = false ∧ s.tx = .idle ∧ (cfg.generation = s.generation ∨ s.connected = false)
  | .connecting _ => s.link.active = false ∧ s.tx = .idle ∧ s.connected = false
  | .connected cfg fd | .linking cfg fd =>
    s.link.active = false ∧ s.tx = .idle ∧ s.connected = false ∧
      s.sock = some ⟨fd, s.conns, cfg.generation⟩
  | .linked _ | .receiving _ | .stopping _ => s.Open
  | .draining _ => s.link.active = false ∧ s.Open

/-- What the sending task knows of the connection it serves. -/
structure Serves (s : Vpn) (run : TxRun) : Prop where
  running : s.link.txStopped = false
  fd : s.link.fd = some run.fd
  generation : s.link.generation = run.generation
  held : ∀ p ∈ run.held, p.conn = s.conns ∧ p.generation = run.generation

/-- The packets of the queue, and those that were sent, are where they were accepted. -/
structure QueueOk (s : Vpn) : Prop where
  offline : s.connected = false → s.queue.toList = []
  queue : ∀ p ∈ s.queue.toList, p.conn = s.conns ∧ p.generation = s.generation
  sent : ∀ entry ∈ s.settled, ∀ conn generation, entry.fate = .sent conn generation →
    entry.packet.conn = conn ∧ entry.packet.generation = generation

/-- Packets stay with the connection and the generation that they were accepted under. -/
structure Keeps (s : Vpn) : Prop where
  packets : s.QueueOk
  rx : s.RxOk
  tx : ∀ run, s.tx.run? = some run → s.Serves run

theorem init_keeps : init.Keeps :=
  ⟨⟨fun _ => rfl, nofun, nofun⟩, ⟨rfl, rfl⟩, nofun⟩

theorem sent_append {settled : List Settled} {packets : List Packet} {fate : Fate}
    (hsent : ∀ entry ∈ settled, ∀ conn generation, entry.fate = .sent conn generation →
      entry.packet.conn = conn ∧ entry.packet.generation = generation)
    (hfate : ∀ conn generation, fate = .sent conn generation →
      ∀ p ∈ packets, p.conn = conn ∧ p.generation = generation) :
    ∀ entry ∈ settled ++ packets.map (fun p => ⟨p, fate⟩), ∀ conn generation,
      entry.fate = .sent conn generation →
      entry.packet.conn = conn ∧ entry.packet.generation = generation := by
  intro entry hentry conn generation hfateEntry
  rw [List.mem_append] at hentry
  obtain hold | hnew := hentry
  · exact hsent entry hold conn generation hfateEntry
  · obtain ⟨p, hp, rfl⟩ := List.mem_map.mp hnew
    exact hfate conn generation hfateEntry p hp

theorem flush_queueOk {s : Vpn}
    (hsent : ∀ entry ∈ s.settled, ∀ conn generation, entry.fate = .sent conn generation →
      entry.packet.conn = conn ∧ entry.packet.generation = generation) : s.flush.QueueOk :=
  ⟨fun _ => rfl, nofun, sent_append hsent nofun⟩

theorem stateCore_frame (s : Vpn) (g : UInt32) (up : Bool) (error : ErrorCode) :
    (s.stateCore g up error).link = s.link ∧ (s.stateCore g up error).sock = s.sock ∧
      (s.stateCore g up error).conns = s.conns ∧
      (s.stateCore g up error).generation = s.generation := by
  unfold stateCore
  split
  · cases up <;> exact ⟨rfl, rfl, rfl, rfl⟩
  · exact ⟨rfl, rfl, rfl, rfl⟩

theorem stateCore_queueOk {s : Vpn} (hs : s.QueueOk) (g : UInt32) (up : Bool)
    (error : ErrorCode) : (s.stateCore g up error).QueueOk := by
  unfold stateCore
  split
  case isFalse => exact hs
  cases up with
  | true => exact ⟨nofun, hs.queue, hs.sent⟩
  | false => exact flush_queueOk hs.sent

theorem stateCore_down {s : Vpn} {g : UInt32} (error : ErrorCode)
    (hs : g = s.generation ∨ s.connected = false) :
    (s.stateCore g false error).connected = false := by
  unfold stateCore
  split
  case isTrue => rfl
  rename_i hother
  obtain heq | hdown := hs
  · exact absurd heq hother
  · exact hdown

theorem sendIpv4_queueOk {s : Vpn} (hs : s.QueueOk) (p : Bytes) (now : Nat) :
    (s.sendIpv4 p now).QueueOk := by
  unfold sendIpv4
  split
  · exact hs
  split
  · exact ⟨hs.offline, hs.queue, hs.sent⟩
  rename_i hup
  split
  · exact ⟨hs.offline, hs.queue, hs.sent⟩
  have hpush := s.queue.push_toList ⟨p, now, s.accepted, s.conns, s.generation⟩
    (by have hle := s.queue.count_le; omega)
  refine ⟨fun hdown => absurd hdown hup, ?_, hs.sent⟩
  intro q hq
  rw [hpush, List.mem_append, List.mem_singleton] at hq
  obtain hold | rfl := hq
  · exact hs.queue q hold
  · exact ⟨rfl, rfl⟩

theorem output_queueOk {s : Vpn} (hs : s.QueueOk) (p : Bytes) (now : Nat) (wg : WgEnv) :
    (s.output p now wg).QueueOk := by
  unfold output
  split
  · exact hs
  split
  · exact hs
  split
  · split <;> exact ⟨hs.offline, hs.queue, hs.sent⟩
  · exact sendIpv4_queueOk hs _ now

theorem Keeps.of_frame {s after : Vpn} (hs : s.Keeps) (hpackets : after.QueueOk)
    (hlink : after.link = s.link) (hsock : after.sock = s.sock) (hconns : after.conns = s.conns)
    (hrx : after.rx = s.rx) (htx : after.tx = s.tx)
    (hdown : s.connected = false → after.connected = false)
    (hgeneration : after.generation = s.generation ∨ after.connected = false) : after.Keeps := by
  refine ⟨hpackets, ?_, ?_⟩
  · have hok := hs.rx
    unfold RxOk Open at hok ⊢
    rw [hrx, hlink, hsock, hconns, htx]
    split at hok
    case h_1 => exact hok
    case h_2 => exact hok
    case h_3 => exact hok
    case h_4 => exact hok
    case h_5 => exact hok
    case h_6 cfg _ =>
      refine ⟨hok.1, hok.2.1, ?_⟩
      obtain hsame | hoff := hgeneration
      · rw [hsame]
        exact hok.2.2.imp id hdown
      · exact .inr hoff
    case h_7 => exact ⟨hok.1, hok.2.1, hdown hok.2.2⟩
    case h_8 => exact ⟨hok.1, hok.2.1, hdown hok.2.2.1, hok.2.2.2⟩
    case h_9 => exact ⟨hok.1, hok.2.1, hdown hok.2.2.1, hok.2.2.2⟩
    case h_10 => exact hok
    case h_11 => exact hok
    case h_12 => exact hok
    case h_13 => exact hok
  · intro run hrun
    rw [htx] at hrun
    obtain ⟨hrunning, hfd, hgen, hheld⟩ := hs.tx run hrun
    refine ⟨?_, ?_, ?_, ?_⟩
    · rw [hlink]
      exact hrunning
    · rw [hlink]
      exact hfd
    · rw [hlink]
      exact hgen
    · rw [hconns]
      exact hheld

theorem sendIpv4_frame (s : Vpn) (p : Bytes) (now : Nat) :
    (s.sendIpv4 p now).link = s.link ∧ (s.sendIpv4 p now).sock = s.sock ∧
      (s.sendIpv4 p now).conns = s.conns ∧ (s.sendIpv4 p now).rx = s.rx ∧
      (s.sendIpv4 p now).connected = s.connected ∧
      (s.sendIpv4 p now).generation = s.generation := by
  unfold sendIpv4
  split
  · exact ⟨rfl, rfl, rfl, rfl, rfl, rfl⟩
  split
  · exact ⟨rfl, rfl, rfl, rfl, rfl, rfl⟩
  split <;> exact ⟨rfl, rfl, rfl, rfl, rfl, rfl⟩

theorem output_frame (s : Vpn) (p : Bytes) (now : Nat) (wg : WgEnv) :
    (s.output p now wg).link = s.link ∧ (s.output p now wg).sock = s.sock ∧
      (s.output p now wg).conns = s.conns ∧ (s.output p now wg).rx = s.rx ∧
      (s.output p now wg).connected = s.connected ∧
      (s.output p now wg).generation = s.generation := by
  unfold output
  split
  · exact ⟨rfl, rfl, rfl, rfl, rfl, rfl⟩
  split
  · exact ⟨rfl, rfl, rfl, rfl, rfl, rfl⟩
  split
  · split <;> exact ⟨rfl, rfl, rfl, rfl, rfl, rfl⟩
  · exact s.sendIpv4_frame _ now

theorem send_keeps {s : Vpn} (hs : s.Keeps) (p : Bytes) (now : Nat) :
    (s.sendIpv4 p now).Keeps := by
  obtain ⟨hlink, hsock, hconns, hrx, hconnected, hgeneration⟩ := s.sendIpv4_frame p now
  refine hs.of_frame (sendIpv4_queueOk hs.packets p now) hlink hsock hconns hrx
    (s.sendIpv4_tx p now) ?_ (.inl hgeneration)
  rw [hconnected]
  exact id

theorem output_keeps {s : Vpn} (hs : s.Keeps) (p : Bytes) (now : Nat) (wg : WgEnv) :
    (s.output p now wg).Keeps := by
  obtain ⟨hlink, hsock, hconns, hrx, hconnected, hgeneration⟩ := s.output_frame p now wg
  refine hs.of_frame (output_queueOk hs.packets p now wg) hlink hsock hconns hrx
    (s.output_tx p now wg) ?_ (.inl hgeneration)
  rw [hconnected]
  exact id

theorem apply_keeps {s : Vpn} (hs : s.Keeps) (c : Config) : (s.applyConfig c).Keeps :=
  hs.of_frame (flush_queueOk hs.packets.sent) rfl rfl rfl rfl rfl (fun _ => rfl) (.inr rfl)

theorem Serves.of_frame {s after : Vpn} {run : TxRun} (hs : s.Serves run)
    (hlink : after.link.txStopped = s.link.txStopped ∧ after.link.fd = s.link.fd ∧
      after.link.generation = s.link.generation) (hconns : after.conns = s.conns) :
    after.Serves run := by
  obtain ⟨hstopped, hfd, hgeneration⟩ := hlink
  refine ⟨hstopped.trans hs.running, hfd.trans hs.fd, hgeneration.trans hs.generation, ?_⟩
  rw [hconns]
  exact hs.held

theorem not_serving {s : Vpn} {after : TxPhase} (htx : after = s.tx) (hidle : s.tx = .idle)
    {P : TxRun → Prop} : ∀ run, after.run? = some run → P run := by
  intro run hrun
  rw [htx, hidle] at hrun
  cases hrun

theorem wgPoll_spec {s : Vpn} (hs : s.QueueOk) (g : UInt32) (poll : WgPoll) :
    (s.wgPoll g poll).QueueOk ∧ (s.wgPoll g poll).link = s.link := by
  cases poll with
  | noClock => exact ⟨stateCore_queueOk hs g false .ok, (s.stateCore_frame g false .ok).1⟩
  | noUplink =>
    simp only [wgPoll]
    split
    · exact ⟨@stateCore_queueOk { s with wgActive := false } ⟨hs.offline, hs.queue, hs.sent⟩ g
        false .other, (stateCore_frame { s with wgActive := false } g false .other).1⟩
    · exact ⟨hs, rfl⟩
  | polled active up error =>
    simp only [wgPoll]
    split
    · exact ⟨@stateCore_queueOk { s with wgActive := active } ⟨hs.offline, hs.queue, hs.sent⟩ g
        up error, (stateCore_frame { s with wgActive := active } g up error).1⟩
    · exact ⟨hs, rfl⟩

theorem rxStep_keeps {s : Vpn} (hs : s.Keeps) (choice : RxChoice) :
    (s.rxStep choice).Keeps := by
  have hpackets := hs.packets
  have hok := hs.rx
  unfold rxStep
  split
  case h_1 hrx =>
    simp only [RxOk, hrx] at hok
    split
    · exact hs
    split
    · exact ⟨⟨hpackets.offline, hpackets.queue, hpackets.sent⟩, hok, not_serving rfl hok.2⟩
    · exact ⟨⟨hpackets.offline, hpackets.queue, hpackets.sent⟩, ⟨hok.1, hok.2, .inl rfl⟩,
        not_serving rfl hok.2⟩
  case h_2 g hrx =>
    simp only [RxOk, hrx] at hok
    obtain ⟨hqueue, hlink⟩ := wgPoll_spec hpackets g choice.wg
    have hidle : (s.wgPoll g choice.wg).tx = .idle := (s.wgPoll_tx g choice.wg).trans hok.2
    refine ⟨⟨hqueue.offline, hqueue.queue, hqueue.sent⟩, ⟨?_, hidle⟩, not_serving rfl hidle⟩
    rw [hlink]
    exact hok.1
  case h_3 cfg hrx =>
    simp only [RxOk, hrx] at hok
    obtain ⟨hactive, hidle, hgeneration⟩ := hok
    have hqueue := stateCore_queueOk hpackets cfg.generation false .ok
    obtain ⟨hlink, -⟩ := s.stateCore_frame cfg.generation false .ok
    have hsame := s.stateCore_tx cfg.generation false .ok
    refine ⟨⟨hqueue.offline, hqueue.queue, hqueue.sent⟩, ⟨?_, hsame.trans hidle, ?_⟩,
      not_serving hsame hidle⟩
    · dsimp only
      rw [hlink]
      exact hactive
    · exact stateCore_down .ok hgeneration
  case h_4 cfg hrx =>
    simp only [RxOk, hrx] at hok
    obtain ⟨hactive, hidle, hdown⟩ := hok
    have hqueue := stateCore_queueOk hpackets cfg.generation false .ok
    obtain ⟨hlink, -⟩ := s.stateCore_frame cfg.generation false .ok
    have hsame := s.stateCore_tx cfg.generation false .ok
    have hstill : (s.stateCore cfg.generation false .ok).connected = false :=
      stateCore_down .ok (.inr hdown)
    split
    · exact ⟨⟨hpackets.offline, hpackets.queue, hpackets.sent⟩, ⟨hactive, hidle⟩,
        not_serving rfl hidle⟩
    · refine ⟨⟨hqueue.offline, hqueue.queue, hqueue.sent⟩, ⟨?_, hsame.trans hidle⟩,
        not_serving hsame hidle⟩
      rw [hlink]
      exact hactive
    · -- a new connection begins with an empty queue
      have hempty := hqueue.offline hstill
      refine ⟨⟨fun _ => hempty, ?_, hqueue.sent⟩, ⟨?_, hsame.trans hidle, hstill, rfl⟩,
        not_serving hsame hidle⟩
      · intro p hp
        rw [hempty] at hp
        cases hp
      · dsimp only
        rw [hlink]
        exact hactive
  case h_5 cfg fd hrx =>
    simp only [RxOk, hrx] at hok
    obtain ⟨hactive, hidle, hdown, hsock⟩ := hok
    split
    · split
      · exact ⟨⟨hpackets.offline, hpackets.queue, hpackets.sent⟩, ⟨hactive, hidle, hdown, hsock⟩,
          not_serving rfl hidle⟩
      · exact ⟨⟨hpackets.offline, hpackets.queue, hpackets.sent⟩, ⟨hactive, hidle⟩,
          not_serving rfl hidle⟩
    · exact ⟨⟨hpackets.offline, hpackets.queue, hpackets.sent⟩, ⟨hactive, hidle⟩,
        not_serving rfl hidle⟩
  case h_6 cfg fd hrx =>
    simp only [RxOk, hrx] at hok
    obtain ⟨hactive, hidle, hdown, hsock⟩ := hok
    exact ⟨⟨hpackets.offline, hpackets.queue, hpackets.sent⟩, ⟨fd, rfl, hsock⟩,
      not_serving rfl hidle⟩
  case h_7 cfg hrx =>
    simp only [RxOk, hrx] at hok
    have hqueue := stateCore_queueOk hpackets cfg.generation true .ok
    obtain ⟨hlink, hsock, hconns, -⟩ := s.stateCore_frame cfg.generation true .ok
    refine ⟨⟨hqueue.offline, hqueue.queue, hqueue.sent⟩, ?_, ?_⟩
    · change (s.stateCore cfg.generation true .ok).Open
      unfold Open at hok ⊢
      rw [hlink, hsock, hconns]
      exact hok
    · intro run hrun
      have hserves := hs.tx run (by rw [← s.stateCore_tx cfg.generation true .ok]; exact hrun)
      exact hserves.of_frame ⟨by rw [hlink], by rw [hlink], by rw [hlink]⟩ hconns
  case h_8 cfg hrx =>
    simp only [RxOk, hrx] at hok
    split
    · exact hs
    · exact ⟨⟨hpackets.offline, hpackets.queue, hpackets.sent⟩, hok,
        fun run hrun => (hs.tx run hrun).of_frame ⟨rfl, rfl, rfl⟩ rfl⟩
  case h_9 cfg hrx =>
    simp only [RxOk, hrx] at hok
    exact ⟨⟨hpackets.offline, hpackets.queue, hpackets.sent⟩, ⟨rfl, hok⟩,
      fun run hrun => (hs.tx run hrun).of_frame ⟨rfl, rfl, rfl⟩ rfl⟩
  case h_10 cfg hrx =>
    simp only [RxOk, hrx] at hok
    split
    case isFalse => exact hs
    rename_i hstopped
    -- the sending task has stopped, so that it serves nothing
    have hidle : s.tx = .idle := by
      apply TxPhase.eq_idle
      by_contra hserving
      obtain ⟨run, hrun⟩ := Option.ne_none_iff_exists'.mp hserving
      have hrunning := (hs.tx run hrun).running
      rw [hstopped] at hrunning
      contradiction
    exact ⟨⟨hpackets.offline, hpackets.queue, hpackets.sent⟩, ⟨hok.1, hidle⟩,
      not_serving rfl hidle⟩
  case h_11 cfg hrx =>
    simp only [RxOk, hrx] at hok
    exact ⟨⟨hpackets.offline, hpackets.queue, hpackets.sent⟩, hok, not_serving rfl hok.2⟩
  case h_12 cfg hrx =>
    simp only [RxOk, hrx] at hok
    split
    · exact ⟨⟨hpackets.offline, hpackets.queue, hpackets.sent⟩, hok, not_serving rfl hok.2⟩
    · exact ⟨⟨hpackets.offline, hpackets.queue, hpackets.sent⟩, hok, not_serving rfl hok.2⟩
  case h_13 cfg hrx =>
    simp only [RxOk, hrx] at hok
    have hqueue := stateCore_queueOk hpackets cfg.generation false choice.error
    obtain ⟨hlink, -⟩ := s.stateCore_frame cfg.generation false choice.error
    have hsame := s.stateCore_tx cfg.generation false choice.error
    refine ⟨⟨hqueue.offline, hqueue.queue, hqueue.sent⟩, ⟨?_, hsame.trans hok.2⟩,
      not_serving hsame hok.2⟩
    rw [hlink]
    exact hok.1

/-- Something goes on with a connection: it is active, or the sending task serves it. -/
def Live (s : Vpn) : Prop := s.link.active = true ∨ ∃ run, s.tx.run? = some run

theorem not_live {s : Vpn} (hlive : s.Live) (hactive : s.link.active = false)
    (hidle : s.tx = .idle) : False := by
  obtain hlive | ⟨run, hrun⟩ := hlive
  · rw [hactive] at hlive
    contradiction
  · rw [hidle] at hrun
    cases hrun

theorem Keeps.open_of_live {s : Vpn} (hs : s.Keeps) (hlive : s.Live) : s.Open := by
  have hok := hs.rx
  unfold RxOk at hok
  split at hok
  case h_1 => exact (not_live hlive hok.1 hok.2).elim
  case h_2 => exact (not_live hlive hok.1 hok.2).elim
  case h_3 => exact (not_live hlive hok.1 hok.2).elim
  case h_4 => exact (not_live hlive hok.1 hok.2).elim
  case h_5 => exact (not_live hlive hok.1 hok.2).elim
  case h_6 => exact (not_live hlive hok.1 hok.2.1).elim
  case h_7 => exact (not_live hlive hok.1 hok.2.1).elim
  case h_8 => exact (not_live hlive hok.1 hok.2.1).elim
  case h_9 => exact (not_live hlive hok.1 hok.2.1).elim
  case h_10 => exact hok
  case h_11 => exact hok
  case h_12 => exact hok
  case h_13 => exact hok.2

theorem Keeps.of_tx {s after : Vpn} (hs : s.Keeps) (hlive : s.Live) (hpackets : after.QueueOk)
    (hlink : after.link.fd = s.link.fd ∧ after.link.generation = s.link.generation ∧
      after.link.active = s.link.active)
    (hsock : after.sock = s.sock) (hconns : after.conns = s.conns) (hrx : after.rx = s.rx)
    (htx : ∀ run, after.tx.run? = some run → after.Serves run) : after.Keeps := by
  refine ⟨hpackets, ?_, htx⟩
  obtain ⟨hfd, hgeneration, hactive⟩ := hlink
  have hopen : after.Open := by
    have hopen := hs.open_of_live hlive
    unfold Open at hopen ⊢
    rw [hfd, hgeneration, hsock, hconns]
    exact hopen
  have hok := hs.rx
  unfold RxOk at hok ⊢
  rw [hrx]
  split at hok
  case h_1 => exact (not_live hlive hok.1 hok.2).elim
  case h_2 => exact (not_live hlive hok.1 hok.2).elim
  case h_3 => exact (not_live hlive hok.1 hok.2).elim
  case h_4 => exact (not_live hlive hok.1 hok.2).elim
  case h_5 => exact (not_live hlive hok.1 hok.2).elim
  case h_6 => exact (not_live hlive hok.1 hok.2.1).elim
  case h_7 => exact (not_live hlive hok.1 hok.2.1).elim
  case h_8 => exact (not_live hlive hok.1 hok.2.1).elim
  case h_9 => exact (not_live hlive hok.1 hok.2.1).elim
  case h_10 => exact hopen
  case h_11 => exact hopen
  case h_12 => exact hopen
  case h_13 => exact ⟨hactive.trans hok.1, hopen⟩

theorem Serves.with_run {s after : Vpn} {run next : TxRun} (hs : s.Serves run)
    (hlink : after.link = s.link) (hconns : after.conns = s.conns) (hfd : next.fd = run.fd)
    (hgeneration : next.generation = run.generation)
    (hheld : ∀ p ∈ next.held, p ∈ run.held ∨ p.conn = s.conns ∧ p.generation = run.generation) :
    after.Serves next := by
  refine ⟨?_, ?_, ?_, ?_⟩
  · rw [hlink]
    exact hs.running
  · rw [hlink, hfd]
    exact hs.fd
  · rw [hlink, hgeneration]
    exact hs.generation
  · intro p hp
    rw [hconns, hgeneration]
    obtain hold | hnew := hheld p hp
    · exact hs.held p hold
    · exact hnew

theorem phase_keeps {s : Vpn} (hs : s.Keeps) {run next : TxRun} {phase : TxPhase}
    (hrun : s.tx.run? = some run) (hphase : phase.run? = some next) (hfd : next.fd = run.fd)
    (hgeneration : next.generation = run.generation) (hheld : ∀ p ∈ next.held, p ∈ run.held) :
    ({ s with tx := phase } : Vpn).Keeps := by
  refine hs.of_tx (.inr ⟨run, hrun⟩)
    ⟨hs.packets.offline, hs.packets.queue, hs.packets.sent⟩ ⟨rfl, rfl, rfl⟩ rfl rfl rfl ?_
  intro other hother
  obtain rfl : next = other := Option.some.inj (hphase.symm.trans hother)
  exact (hs.tx run hrun).with_run rfl rfl hfd hgeneration fun p hp => .inl (hheld p hp)

theorem doneLoading_keeps {s : Vpn} (hs : s.Keeps) {run : TxRun} (hrun : s.tx.run? = some run) :
    (s.doneLoading run).Keeps := by
  unfold doneLoading
  split
  · exact phase_keeps hs hrun rfl rfl rfl fun _ hp => hp
  · exact phase_keeps hs hrun rfl rfl rfl fun _ hp => hp

theorem pop_queueOk {s : Vpn} (hs : s.QueueOk) {p : Packet} (hfront : s.queue.front = some p) :
    (∀ q ∈ s.queue.pop.toList, q.conn = s.conns ∧ q.generation = s.generation) ∧
      (s.connected = false → s.queue.pop.toList = []) ∧
      p.conn = s.conns ∧ p.generation = s.generation := by
  have hqueue := Ring.toList_eq_cons hfront
  refine ⟨fun q hq => hs.queue q (by rw [hqueue]; exact List.mem_cons_of_mem _ hq), ?_,
    hs.queue p (by rw [hqueue]; exact List.mem_cons_self)⟩
  intro hdown
  have hempty := hs.offline hdown
  rw [hqueue] at hempty
  cases hempty

theorem load_keeps (batchFrames : Nat) {s : Vpn} (hs : s.Keeps) {run : TxRun} {scanned : Nat}
    (now : Nat) (hphase : s.tx = .loading run scanned) (hok : run.Ok) :
    (s.load batchFrames run scanned now).Keeps := by
  have hrun : s.tx.run? = some run := by rw [hphase]; rfl
  have hserves := hs.tx run hrun
  unfold load
  split
  case isFalse => exact doneLoading_keeps hs hrun
  rename_i hguard
  split
  case h_1 => exact doneLoading_keeps hs hrun
  rename_i p hfront
  obtain ⟨hrest, hoffline, hconn, hgeneration⟩ := pop_queueOk hs.packets hfront
  have hnew : p.conn = s.conns ∧ p.generation = run.generation :=
    ⟨hconn, hgeneration.trans hguard.2.1.symm⟩
  split
  case isTrue =>
    refine hs.of_tx (.inr ⟨run, hrun⟩) ⟨hoffline, hrest, ?_⟩ ⟨rfl, rfl, rfl⟩ rfl rfl rfl ?_
    · exact @sent_append s.settled [p] .expired hs.packets.sent nofun
    intro other hother
    cases hother
    exact hserves.with_run rfl rfl rfl rfl fun _ hp => .inl hp
  split
  case isTrue hdatagram =>
    refine hs.of_tx (.inr ⟨run, hrun⟩) ⟨hoffline, hrest, hs.packets.sent⟩ ⟨rfl, rfl, rfl⟩ rfl
      rfl rfl ?_
    intro other hother
    cases hother
    refine hserves.with_run rfl rfl rfl rfl fun q hq => .inr ?_
    rw [TxRun.held, if_pos hdatagram] at hq
    obtain rfl : q = p := by simpa using hq
    exact hnew
  case isFalse hstream =>
    split
    case h_1 => exact doneLoading_keeps hs hrun
    rename_i batch happend
    obtain ⟨-, -, hcompleted⟩ :=
      TxBatch.append_ok (hok (by simpa using hstream)).2 happend
    refine hs.of_tx (.inr ⟨run, hrun⟩) ⟨hoffline, hrest, hs.packets.sent⟩ ⟨rfl, rfl, rfl⟩ rfl
      rfl rfl ?_
    intro other hother
    cases hother
    refine hserves.with_run rfl rfl rfl rfl fun q hq => ?_
    rw [TxRun.held, if_neg hstream] at hq ⊢
    rw [hcompleted, List.drop_append, List.mem_append] at hq
    obtain hold | hlast := hq
    · exact .inl hold
    · obtain rfl := List.mem_singleton.mp (List.mem_of_mem_drop hlast)
      exact .inr hnew

theorem complete_queueOk {s : Vpn} (hs : s.QueueOk) {sock : Sock} {done : List Packet}
    (hdone : ∀ p ∈ done, p.conn = sock.conn ∧ p.generation = sock.generation) :
    (s.complete sock done).QueueOk := by
  refine ⟨hs.offline, hs.queue, sent_append hs.sent ?_⟩
  intro conn generation hfate p hp
  cases hfate
  exact hdone p hp

theorem write_keeps {s : Vpn} (hs : s.Keeps) {run : TxRun} (n : Nat) (timedOut : Bool)
    (hphase : s.tx = .sending run) (hok : run.Ok) : (s.write run n timedOut).Keeps := by
  have hrun : s.tx.run? = some run := by rw [hphase]; rfl
  have hserves := hs.tx run hrun
  have hstill : ∀ phase : TxPhase, phase.run? = some run → ({ s with tx := phase } : Vpn).Keeps :=
    fun phase hnext => phase_keeps hs hrun hnext rfl rfl fun _ hp => hp
  have hdeadline : (if timedOut then TxPhase.leaving run else .check run).run? = some run := by
    cases timedOut <;> rfl
  unfold write
  split
  case h_1 => exact hstill _ rfl
  rename_i sock htarget
  -- the connection at the descriptor is the one that is served
  have hsock : sock.conn = s.conns ∧ sock.generation = run.generation := by
    obtain ⟨fd, hfd, hopen⟩ := hs.open_of_live (.inr ⟨run, hrun⟩)
    unfold target at htarget
    rw [hopen] at htarget
    dsimp only at htarget
    split at htarget
    case isTrue =>
      obtain rfl := Option.some.inj htarget
      exact ⟨rfl, hserves.generation⟩
    case isFalse => contradiction
  have hheld : ∀ p ∈ run.held, p.conn = sock.conn ∧ p.generation = sock.generation := by
    rw [hsock.1, hsock.2]
    exact hserves.held
  split
  case isTrue hdatagram =>
    split
    case h_1 => exact hstill _ rfl
    rename_i p hudp
    split
    case isTrue => exact hstill _ hdeadline
    split
    case isFalse => exact hstill _ rfl
    have hin : ∀ q ∈ [p], q.conn = sock.conn ∧ q.generation = sock.generation := by
      intro q hq
      refine hheld q ?_
      rw [TxRun.held, if_pos hdatagram, hudp]
      exact hq
    have hqueue := complete_queueOk hs.packets hin
    refine hs.of_tx (.inr ⟨run, hrun⟩) ⟨hqueue.offline, hqueue.queue, hqueue.sent⟩
      ⟨rfl, rfl, rfl⟩ rfl rfl rfl ?_
    intro other hother
    cases hother
    refine hserves.with_run rfl rfl rfl rfl fun q hq => ?_
    rw [TxRun.held, if_pos hdatagram] at hq
    cases hq
  case isFalse hstream =>
    split
    case isTrue => exact hstill _ hdeadline
    split
    case h_1 => exact hstill _ rfl
    rename_i batch packets bytes hadvance
    obtain ⟨-, -, hcompleted⟩ :=
      TxBatch.advance_ok (hok (by simpa using hstream)).2 hadvance
    have hin : ∀ q ∈ (run.loaded.drop run.batch.completed).take packets,
        q.conn = sock.conn ∧ q.generation = sock.generation := by
      intro q hq
      refine hheld q ?_
      rw [TxRun.held, if_neg hstream]
      exact List.mem_of_mem_take hq
    have hqueue := complete_queueOk hs.packets hin
    refine hs.of_tx (.inr ⟨run, hrun⟩) ⟨hqueue.offline, hqueue.queue, hqueue.sent⟩
      ⟨rfl, rfl, rfl⟩ rfl rfl rfl ?_
    intro other hother
    have hnext : other = { run with batch := batch } := by
      split at hother
      · exact (Option.some.inj hother).symm
      · exact (Option.some.inj hother).symm
    rw [hnext]
    refine hserves.with_run rfl rfl rfl rfl fun q hq => .inl ?_
    rw [TxRun.held, if_neg hstream] at hq ⊢
    rw [hcompleted, ← List.drop_drop] at hq
    exact List.mem_of_mem_drop hq

theorem leave_keeps {s : Vpn} (hs : s.Keeps) {run : TxRun} (hphase : s.tx = .leaving run) :
    (s.leave run).Keeps := by
  refine hs.of_tx (.inr ⟨run, by rw [hphase]; rfl⟩)
    ⟨hs.packets.offline, hs.packets.queue, sent_append hs.packets.sent nofun⟩ ?_ rfl rfl rfl nofun
  unfold leave
  split <;> exact ⟨rfl, rfl, rfl⟩

/-- The sending task finds a connection active that it has not stopped on before. -/
def StartsFresh (s : Vpn) : Prop :=
  s.tx = .idle → s.link.active = true → s.link.txStopped = false

theorem txStep_keeps (batchFrames : Nat) {s : Vpn} (hs : s.Keeps) (choice : TxChoice)
    (htx : s.tx.Ok) (hfresh : s.StartsFresh) : (s.txStep batchFrames choice).Keeps := by
  unfold txStep
  split
  case h_1 hphase =>
    split
    case h_1 fd hactive hfd =>
      refine hs.of_tx (.inl hactive)
        ⟨hs.packets.offline, hs.packets.queue, hs.packets.sent⟩ ⟨rfl, rfl, rfl⟩ rfl rfl rfl ?_
      intro other hother
      cases hother
      refine ⟨hfresh hphase hactive, hfd, rfl, ?_⟩
      intro p hp
      rw [TxRun.held] at hp
      split at hp <;> cases hp
    case h_2 => exact hs
  case h_2 run hphase =>
    have hrun : s.tx.run? = some run := by rw [hphase]; rfl
    split
    · exact phase_keeps hs hrun rfl rfl rfl fun _ hp => hp
    · exact phase_keeps hs hrun rfl rfl rfl fun _ hp => hp
  case h_3 run hphase =>
    have hrun : s.tx.run? = some run := by rw [hphase]; rfl
    split
    case isFalse => exact phase_keeps hs hrun rfl rfl rfl fun _ hp => hp
    split
    case isTrue =>
      split
      · exact phase_keeps hs hrun rfl rfl rfl fun _ hp => hp
      · exact phase_keeps hs hrun rfl rfl rfl fun _ hp => hp
    case isFalse hstream =>
      split
      case isTrue =>
        refine phase_keeps hs hrun rfl rfl rfl fun p hp => ?_
        rw [TxRun.held, if_neg hstream] at hp
        cases hp
      case isFalse => exact phase_keeps hs hrun rfl rfl rfl fun _ hp => hp
  case h_4 run scanned hphase =>
    rw [hphase] at htx
    exact load_keeps batchFrames hs choice.now hphase htx.1
  case h_5 run hphase =>
    have hrun : s.tx.run? = some run := by rw [hphase]; rfl
    rw [hphase] at htx
    split
    · exact phase_keeps hs hrun rfl rfl rfl fun _ hp => hp
    · exact write_keeps hs _ choice.timedOut hphase htx
  case h_6 run hphase => exact leave_keeps hs hphase

theorem step_keeps (batchFrames : Nat) {s : Vpn} (hs : s.Keeps) (event : Event) (htx : s.tx.Ok)
    (hfresh : ∀ choice, event = .tx choice → s.StartsFresh) : (s.step batchFrames event).Keeps := by
  cases event with
  | send p now => exact send_keeps hs p now
  | output p now wg => exact output_keeps hs p now wg
  | apply c => exact apply_keeps hs c
  | setLan usb ap =>
    exact hs.of_frame ⟨hs.packets.offline, hs.packets.queue, hs.packets.sent⟩ rfl rfl rfl rfl rfl
      id (.inl rfl)
  | rx choice => exact rxStep_keeps hs choice
  | tx choice => exact txStep_keeps batchFrames hs choice htx (hfresh choice rfl)

/-- In a run in which the sending task never starts again on a connection that it has stopped
on, packets stay with their connection. -/
theorem run_keeps (batchFrames : Nat) {events : List Event}
    (hfresh : ∀ before choice after, events = before ++ .tx choice :: after →
      (run batchFrames before).StartsFresh) : (run batchFrames events).Keeps := by
  induction events using List.reverseRecOn with
  | nil => exact init_keeps
  | append_singleton events event ih =>
    have hbefore := ih fun before choice after hsplit =>
      hfresh before choice (after ++ [event]) (by rw [hsplit]; simp)
    have hrun : run batchFrames (events ++ [event]) =
        (run batchFrames events).step batchFrames event := by
      simp [run]
    rw [hrun]
    refine step_keeps batchFrames hbefore event (run_balanced batchFrames events).2 ?_
    intro choice hevent
    exact hfresh events choice [] (by rw [hevent])

/-- Whatever the tasks do in whatever order: every accepted packet is settled once, held by the
sending task or in the queue, packets are sent in the order in which they were accepted, the
ring's marks are inside it and its entries are the accepted packets that were not yet taken, and
the counters count. As long as the sending task does not start again on a connection that it
has stopped on, a packet is sent only on the connection it was accepted under, which was made
for the generation it was accepted under. -/
theorem tx_queue_accounts (batchFrames : Nat) (events : List Event) :
    let s := run batchFrames events
    ((s.settled.map (fun entry => entry.packet.id) ++ s.tx.held.map Packet.id ++
        s.queue.toList.map Packet.id).Perm (List.range s.accepted)) ∧
    (((s.settled.filter fun entry => entry.fate.isSent).map (fun entry => entry.packet.id) ++
        s.tx.held.map Packet.id ++ s.queue.toList.map Packet.id).Pairwise (· < ·)) ∧
    (s.queue.head < queueSlots ∧ s.queue.count ≤ queueSlots ∧
      s.queue.toList.length = s.queue.count) ∧
    (s.packetsOut = UInt32.ofNat
        ((s.settled.filter fun entry => entry.fate.isSent).length + s.wgSent) ∧
      s.queueExpired = UInt32.ofNat
        (s.settled.filter fun entry => decide (entry.fate = .expired)).length ∧
      s.txDropped = UInt32.ofNat ((s.settled.filter fun entry => !entry.fate.isSent).length +
        s.refused + s.wgDropped)) ∧
    ((∀ before choice after, events = before ++ .tx choice :: after →
        (run batchFrames before).StartsFresh) →
      ∀ entry ∈ s.settled, ∀ conn generation, entry.fate = .sent conn generation →
        entry.packet.conn = conn ∧ entry.packet.generation = generation) := by
  obtain ⟨hbalanced, -⟩ := run_balanced batchFrames events
  refine ⟨?_, ?_, ?_, ?_, fun hfresh => (run_keeps batchFrames hfresh).packets.sent⟩
  · have haccounted := hbalanced.accounted
    simp only [Ledger.packets, List.map_append, List.map_map] at haccounted
    exact haccounted
  · have hordered := hbalanced.ordered
    simp only [Ledger.line, Ledger.sent, List.map_append, List.map_map] at hordered
    exact hordered
  · exact ⟨(run batchFrames events).queue.head_lt, (run batchFrames events).queue.count_le,
      Ring.toList_length _⟩
  · have hout := hbalanced.packetsOut
    simp only [Ledger.sent, List.length_map] at hout
    exact ⟨hout, hbalanced.queueExpired, hbalanced.txDropped⟩

def samplePacket : Bytes := [69, 0, 0, 20, 0, 0, 0, 1, 64, 17, 0, 0, 10, 99, 0, 2, 1, 1, 1, 1]

def sampleConfig : Config := ⟨true, false, .tcp, none, .ok⟩

def sampleRx : Event := .rx ⟨.opened 3, .noClock, true, .ok⟩

def sampleTx (result : TxResult) : Event := .tx ⟨0, result, false⟩

def sampleStart : List Event :=
  .apply sampleConfig :: List.replicate 6 sampleRx ++ [sampleTx .error]

/-- The sending task fails on a connection and, as more was queued, starts on it again. While
it is about to write, the receiving task closes the connection, a profile is applied and the
next connection opens at the same descriptor. -/
def staleRun : List Event :=
  sampleStart ++
    .send samplePacket 0 :: List.replicate 6 (sampleTx .error) ++
    .send samplePacket 0 :: List.replicate 5 (sampleTx .error) ++
    .rx ⟨.refused, .noClock, false, .ok⟩ :: List.replicate 3 sampleRx ++
    .apply sampleConfig :: List.replicate 4 sampleRx ++ [sampleTx (.wrote 24)]

theorem stale_packet_sent :
    ∃ entry ∈ (run 32 staleRun).settled,
      entry.fate = .sent 2 2 ∧ entry.packet.conn = 1 ∧ entry.packet.generation = 1 := by
  decide +kernel

/-- A packet that is sent on its connection. -/
theorem first_packet_sent :
    let events := sampleStart ++ .send samplePacket 0 :: List.replicate 4 (sampleTx .error) ++
      [sampleTx (.wrote 24)]
    (∃ entry ∈ (run 32 events).settled, entry.fate = .sent 1 1 ∧ entry.packet.conn = 1) ∧
      ((run 32 events).settled.map (fun entry => entry.packet.id) ++
        (run 32 events).tx.held.map Packet.id ++
        (run 32 events).queue.toList.map Packet.id).Perm (List.range 1) := by
  intro events
  have haccepted : (run 32 events).accepted = 1 := by decide +kernel
  have haccounts := (tx_queue_accounts 32 events).1
  rw [haccepted] at haccounts
  exact ⟨by decide +kernel, haccounts⟩

end Vpn

end Meshpn.Device
