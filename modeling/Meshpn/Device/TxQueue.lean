import Mathlib.Data.List.GetD
import Mathlib.Data.List.Perm.Basic
import Meshpn.Device.Vpn

/-!
Every packet that the queue accepts is accounted for once. The account is kept
over a ledger: the packets that are settled, those that the sending task holds and
those in the queue. Every step of every task is one of a few moves of the ledger,
and a balanced ledger stays balanced under each of them.
-/

namespace Meshpn.Device

open Meshpn.Lib List

namespace TxBatch

/-- The marks are inside the data, and a batch that is sent has completed all its frames. -/
structure Ok (b : TxBatch) : Prop where
  used : b.used ≤ b.data.length
  ends : ∀ e ∈ b.ends, e ≤ b.data.length
  completed : b.completed ≤ b.count
  sent : b.used = b.data.length → b.completed = b.count

theorem empty_ok : empty.Ok := ⟨Nat.le_refl _, nofun, Nat.le_refl _, fun _ => rfl⟩

theorem append_ok {batchFrames : Nat} {b after : TxBatch} {p : Bytes} (hb : b.Ok)
    (h : b.append batchFrames p = some after) :
    after.Ok ∧ after.count = b.count + 1 ∧ after.completed = b.completed := by
  unfold append at h
  split at h
  case isTrue => contradiction
  rename_i hfits
  obtain rfl := Option.some.inj h
  have hgrown : b.data.length < (b.data ++ frameHeader p.length ++ p).length := by
    simp only [length_append, frameHeader, length_cons]
    omega
  have hcount : (b.ends ++ [(b.data ++ frameHeader p.length ++ p).length]).length =
      b.ends.length + 1 := by simp
  refine ⟨⟨?_, ?_, ?_, ?_⟩, hcount, rfl⟩
  · exact hb.used.trans hgrown.le
  · intro e he
    rw [mem_append, mem_singleton] at he
    obtain he | rfl := he
    · exact (hb.ends e he).trans hgrown.le
    · exact Nat.le_refl _
  · have hcompleted := hb.completed
    unfold count at hcompleted ⊢
    dsimp only
    omega
  · intro hsent
    have hused := hb.used
    dsimp only at hsent
    omega

theorem settle_spec {fuel : Nat} {b : TxBatch} (hfuel : b.count ≤ b.completed + fuel)
    (hcompleted : b.completed ≤ b.count) :
    ∃ packets bytes,
      b.settle fuel = ({ b with completed := b.completed + packets }, packets, bytes) ∧
      b.completed + packets ≤ b.count ∧
      (b.completed + packets = b.count ∨ b.used < b.ends.getD (b.completed + packets) 0) := by
  induction fuel generalizing b with
  | zero => exact ⟨0, 0, rfl, hcompleted, .inl (by omega)⟩
  | succ fuel ih =>
    unfold settle
    split
    case isTrue hmore =>
      obtain ⟨packets, bytes, hsettle, hle, hstop⟩ := @ih { b with completed := b.completed + 1 }
        (by dsimp only [count] at hfuel ⊢; omega) (by dsimp only [count] at hmore ⊢; omega)
      have hassoc : b.completed + 1 + packets = b.completed + (packets + 1) := by omega
      dsimp only at hsettle hle hstop ⊢
      rw [hassoc] at hsettle hle hstop
      rw [hsettle]
      exact ⟨packets + 1, _, rfl, hle, hstop⟩
    case isFalse hlast =>
      refine ⟨0, 0, rfl, hcompleted, ?_⟩
      rw [Nat.add_zero]
      by_cases hall : b.completed = b.count
      · exact .inl hall
      · exact .inr (by omega)

theorem advance_ok {b after : TxBatch} {sent packets bytes : Nat} (hb : b.Ok)
    (h : b.advance sent = some (after, packets, bytes)) :
    after.Ok ∧ after.count = b.count ∧ after.completed = b.completed + packets := by
  unfold advance at h
  split at h
  case isTrue => contradiction
  rename_i hroom
  obtain ⟨packets', bytes', hspec, hle, hstop⟩ :=
    @settle_spec b.count { b with used := b.used + sent } (Nat.le_add_left _ _) hb.completed
  have hsettle := Option.some.inj h
  change settle b.count { b with used := b.used + sent } = (after, packets, bytes) at hsettle
  rw [hspec] at hsettle
  cases hsettle
  have hused := hb.used
  refine ⟨⟨?_, hb.ends, hle, ?_⟩, rfl, rfl⟩
  · dsimp only
    omega
  · intro hsent
    dsimp only at hsent hstop ⊢
    obtain hall | hmore := hstop
    · exact hall
    by_contra hpart
    have hindex : b.completed + packets < b.ends.length := by
      change b.completed + packets ≤ b.ends.length at hle
      change ¬ b.completed + packets = b.ends.length at hpart
      omega
    rw [getD_eq_getElem _ _ hindex] at hmore
    have hend := hb.ends _ (getElem_mem hindex)
    omega

end TxBatch

def Fate.isSent : Fate → Bool
  | .sent _ _ => true
  | .expired | .flushed | .dropped => false

/-- What the account is about: where every accepted packet is, and the counters. -/
structure Ledger where
  settled : List Settled
  held : List Packet
  queue : List Packet
  accepted : Nat
  refused : Nat
  wgSent : Nat
  wgDropped : Nat
  queueExpired : UInt32
  txDropped : UInt32
  packetsOut : UInt32

namespace Ledger

def sent (l : Ledger) : List Packet :=
  (l.settled.filter fun entry => entry.fate.isSent).map Settled.packet

def lost (l : Ledger) : List Settled := l.settled.filter fun entry => !entry.fate.isSent

def expired (l : Ledger) : List Settled :=
  l.settled.filter fun entry => decide (entry.fate = .expired)

def packets (l : Ledger) : List Packet := l.settled.map Settled.packet ++ l.held ++ l.queue

def line (l : Ledger) : List Packet := l.sent ++ l.held ++ l.queue

/-- Every number that was given out is on one packet, the packets that are sent or still may
be are in the order of their numbers, and the counters count. -/
structure Balanced (l : Ledger) : Prop where
  accounted : (l.packets.map Packet.id).Perm (List.range l.accepted)
  ordered : (l.line.map Packet.id).Pairwise (· < ·)
  packetsOut : l.packetsOut = UInt32.ofNat (l.sent.length + l.wgSent)
  queueExpired : l.queueExpired = UInt32.ofNat l.expired.length
  txDropped : l.txDropped = UInt32.ofNat (l.lost.length + l.refused + l.wgDropped)

/-- What one step of a task may do. -/
inductive Move (l : Ledger) : Ledger → Prop where
  | stay : Move l l
  | accept (p : Packet) (hid : p.id = l.accepted) :
      Move l { l with queue := l.queue ++ [p], accepted := l.accepted + 1 }
  | refuse : Move l { l with txDropped := l.txDropped + 1, refused := l.refused + 1 }
  | wgSend : Move l { l with packetsOut := l.packetsOut + 1, wgSent := l.wgSent + 1 }
  | wgDrop : Move l { l with txDropped := l.txDropped + 1, wgDropped := l.wgDropped + 1 }
  | flush :
      Move l { l with
        txDropped := l.txDropped + UInt32.ofNat l.queue.length
        queue := []
        settled := l.settled ++ l.queue.map fun p => ⟨p, .flushed⟩ }
  | expire (p : Packet) (rest : List Packet) (hqueue : l.queue = p :: rest) :
      Move l { l with
        queue := rest
        queueExpired := l.queueExpired + 1
        txDropped := l.txDropped + 1
        settled := l.settled ++ [⟨p, .expired⟩] }
  | load (p : Packet) (rest : List Packet) (hqueue : l.queue = p :: rest) :
      Move l { l with queue := rest, held := l.held ++ [p] }
  | complete (done rest : List Packet) (conn : Nat) (generation : UInt32)
      (hheld : l.held = done ++ rest) :
      Move l { l with
        held := rest
        packetsOut := l.packetsOut + UInt32.ofNat done.length
        settled := l.settled ++ done.map fun p => ⟨p, .sent conn generation⟩ }
  | drop :
      Move l { l with
        held := []
        txDropped := l.txDropped + UInt32.ofNat l.held.length
        settled := l.settled ++ l.held.map fun p => ⟨p, .dropped⟩ }

theorem line_sublist (l : Ledger) : l.line.Sublist l.packets := by
  refine List.Sublist.append (List.Sublist.append ?_ (List.Sublist.refl _)) (List.Sublist.refl _)
  exact filter_sublist.map _

theorem Balanced.id_lt {l : Ledger} (hl : l.Balanced) {p : Packet} (hp : p ∈ l.line) :
    p.id < l.accepted := by
  have hmem := hl.accounted.mem_iff.mp (mem_map_of_mem (l.line_sublist.subset hp))
  exact mem_range.mp hmem

theorem filter_fate (test : Fate → Bool) (fate : Fate) (packets : List Packet) :
    (packets.map fun p => (⟨p, fate⟩ : Settled)).filter (fun entry => test entry.fate) =
      if test fate then packets.map fun p => ⟨p, fate⟩ else [] := by
  cases htest : test fate with
  | false => simp [htest]
  | true => simp [htest]

theorem ofNat_add_counter {counter : UInt32} {n m total : Nat} (hcounter : counter = UInt32.ofNat n)
    (htotal : total = n + m) : counter + UInt32.ofNat m = UInt32.ofNat total := by
  rw [hcounter, htotal, UInt32.ofNat_add]

/-- Packets that were held or queued are settled with one fate, the others stay in line, and
the counters of that fate go up. -/
theorem settle_balanced {l : Ledger} (hl : l.Balanced) {done held queue : List Packet} (fate : Fate)
    (hperm : (done ++ held ++ queue).Perm (l.held ++ l.queue))
    (hline : ((if fate.isSent then done else []) ++ held ++ queue).Sublist (l.held ++ l.queue)) :
    Balanced { l with
      settled := l.settled ++ done.map fun p => ⟨p, fate⟩
      held := held
      queue := queue
      packetsOut := l.packetsOut + UInt32.ofNat (if fate.isSent then done.length else 0)
      queueExpired := l.queueExpired + UInt32.ofNat (if fate = .expired then done.length else 0)
      txDropped := l.txDropped + UInt32.ofNat (if fate.isSent then 0 else done.length) } := by
  refine ⟨?_, ?_, ofNat_add_counter hl.packetsOut ?_, ofNat_add_counter hl.queueExpired ?_,
    ofNat_add_counter hl.txDropped ?_⟩
  · refine List.Perm.trans (List.Perm.map Packet.id ?_) hl.accounted
    simp only [Ledger.packets, map_append, map_map, Function.comp_def, map_id',
      append_assoc] at hperm ⊢
    exact hperm.append_left _
  · refine hl.ordered.sublist (List.Sublist.map Packet.id ?_)
    have hsent : ((l.settled ++ done.map fun p => (⟨p, fate⟩ : Settled)).filter
        fun entry => entry.fate.isSent).map Settled.packet =
        l.sent ++ if fate.isSent then done else [] := by
      rw [filter_append, filter_fate, map_append, sent]
      cases fate.isSent with
      | false => rfl
      | true => simp [Function.comp_def]
    have hafter := hline.append_left l.sent
    rw [line, sent, hsent, line]
    simp only [append_assoc] at hafter ⊢
    exact hafter
  · simp only [sent, filter_append, filter_fate, map_append, length_append]
    cases fate.isSent with
    | false =>
      simp only [Bool.false_eq_true, if_false, map_nil, length_nil]
      omega
    | true =>
      simp only [if_true, length_map]
      omega
  · simp only [expired, filter_append, length_append]
    rw [filter_fate fun fate => decide (fate = .expired)]
    by_cases hexpired : fate = .expired
    · simp [hexpired]
    · simp [hexpired]
  · simp only [lost, filter_append, length_append]
    rw [filter_fate fun fate => !fate.isSent]
    cases fate.isSent with
    | false =>
      simp only [Bool.not_false, if_true, Bool.false_eq_true, if_false, length_map]
      omega
    | true =>
      simp only [Bool.not_true, Bool.false_eq_true, if_false, if_true, length_nil]
      omega

theorem Move.balanced {l after : Ledger} (hmove : l.Move after) (hl : l.Balanced) :
    after.Balanced := by
  cases hmove with
  | stay => exact hl
  | accept p hid =>
    refine ⟨?_, ?_, hl.packetsOut, hl.queueExpired, hl.txDropped⟩
    · have hmap : (({ l with queue := l.queue ++ [p], accepted := l.accepted + 1 } :
          Ledger).packets).map Packet.id = l.packets.map Packet.id ++ [l.accepted] := by
        simp [Ledger.packets, hid]
      rw [hmap, range_succ]
      exact hl.accounted.append_right _
    · have hmap : (({ l with queue := l.queue ++ [p], accepted := l.accepted + 1 } :
          Ledger).line).map Packet.id = l.line.map Packet.id ++ [l.accepted] := by
        simp [line, sent, hid]
      rw [hmap, pairwise_append]
      refine ⟨hl.ordered, pairwise_singleton _ _, ?_⟩
      intro a ha b hb
      obtain ⟨q, hq, rfl⟩ := mem_map.mp ha
      rw [mem_singleton.mp hb]
      exact hl.id_lt hq
  | refuse =>
    refine ⟨hl.accounted, hl.ordered, hl.packetsOut, hl.queueExpired, ?_⟩
    exact ofNat_add_counter (m := 1) hl.txDropped (by dsimp only [lost]; omega)
  | wgSend =>
    refine ⟨hl.accounted, hl.ordered, ?_, hl.queueExpired, hl.txDropped⟩
    exact ofNat_add_counter (m := 1) hl.packetsOut (by dsimp only [sent]; omega)
  | wgDrop =>
    refine ⟨hl.accounted, hl.ordered, hl.packetsOut, hl.queueExpired, ?_⟩
    exact ofNat_add_counter (m := 1) hl.txDropped (by dsimp only [lost]; omega)
  | flush =>
    have hperm : (l.queue ++ l.held ++ []).Perm (l.held ++ l.queue) := by
      rw [append_nil]
      exact perm_append_comm
    have hline : ([] ++ l.held ++ []).Sublist (l.held ++ l.queue) := by
      rw [nil_append, append_nil]
      exact sublist_append_left _ _
    simpa [Fate.isSent] using settle_balanced hl .flushed hperm hline
  | expire p rest hqueue =>
    have hperm : ([p] ++ l.held ++ rest).Perm (l.held ++ l.queue) := by
      rw [hqueue, append_assoc, singleton_append]
      exact perm_middle.symm
    have hline : ([] ++ l.held ++ rest).Sublist (l.held ++ l.queue) := by
      rw [hqueue, nil_append]
      exact (sublist_cons_self p rest).append_left _
    simpa [Fate.isSent] using settle_balanced hl .expired hperm hline
  | load p rest hqueue =>
    have hline : ({ l with queue := rest, held := l.held ++ [p] } : Ledger).line = l.line := by
      simp [line, sent, hqueue]
    have hpackets : ({ l with queue := rest, held := l.held ++ [p] } : Ledger).packets =
        l.packets := by
      simp [Ledger.packets, hqueue]
    refine ⟨?_, ?_, hl.packetsOut, hl.queueExpired, hl.txDropped⟩
    · rw [hpackets]
      exact hl.accounted
    · rw [hline]
      exact hl.ordered
  | complete done rest conn generation hheld =>
    have hsame : done ++ rest ++ l.queue = l.held ++ l.queue := by rw [hheld]
    have hline : (done ++ rest ++ l.queue).Sublist (l.held ++ l.queue) := by rw [hsame]
    simpa [Fate.isSent] using settle_balanced hl (.sent conn generation) (List.Perm.of_eq hsame)
      hline
  | drop =>
    have hperm : (l.held ++ [] ++ l.queue).Perm (l.held ++ l.queue) := by
      rw [append_nil]
    have hline : ([] ++ [] ++ l.queue).Sublist (l.held ++ l.queue) :=
      sublist_append_right _ _
    simpa [Fate.isSent] using settle_balanced hl .dropped hperm hline

end Ledger

/-- The batch of a stream is in order, and the packets beside it are its frames. -/
def TxRun.Ok (run : TxRun) : Prop :=
  run.datagram = false → run.loaded.length = run.batch.count ∧ run.batch.Ok

def TxPhase.Ok : TxPhase → Prop
  | .idle => True
  | .loading run _ => run.Ok ∧ (run.datagram = true → run.udp = none)
  | .check run | .session run | .sending run | .leaving run => run.Ok

namespace Vpn

def ledger (s : Vpn) : Ledger :=
  ⟨s.settled, s.tx.held, s.queue.toList, s.accepted, s.refused, s.wgSent, s.wgDropped,
    s.queueExpired, s.txDropped, s.packetsOut⟩

theorem flush_move (s : Vpn) : s.ledger.Move s.flush.ledger := by
  have hmove := Ledger.Move.flush (l := s.ledger)
  rw [show s.ledger.queue.length = s.queue.count from s.queue.toList_length] at hmove
  exact hmove

theorem stateCore_move (s : Vpn) (g : UInt32) (up : Bool) (error : ErrorCode) :
    s.ledger.Move (s.stateCore g up error).ledger := by
  unfold stateCore
  split
  · cases up with
    | true => exact .stay
    | false => exact flush_move { s with connected := false, lastError := error }
  · exact .stay

theorem applyConfig_move (s : Vpn) (c : Config) : s.ledger.Move (s.applyConfig c).ledger :=
  flush_move _

theorem sendIpv4_move (s : Vpn) (p : Bytes) (now : Nat) :
    s.ledger.Move (s.sendIpv4 p now).ledger := by
  unfold sendIpv4
  split
  · exact .stay
  split
  · exact .refuse
  split
  · exact .refuse
  rename_i hroom
  have hpush := s.queue.push_toList ⟨p, now, s.accepted, s.conns, s.generation⟩
    (by have hle := s.queue.count_le; omega)
  have hmove := Ledger.Move.accept (l := s.ledger)
    ⟨p, now, s.accepted, s.conns, s.generation⟩ rfl
  rw [show s.ledger.queue = s.queue.toList from rfl, ← hpush] at hmove
  exact hmove

theorem output_move (s : Vpn) (p : Bytes) (now : Nat) (wg : WgEnv) :
    s.ledger.Move (s.output p now wg).ledger := by
  unfold output
  split
  · exact .stay
  split
  · exact .stay
  split
  · split
    · exact .wgSend
    · exact .wgDrop
  · exact s.sendIpv4_move _ now

theorem wgPoll_move (s : Vpn) (g : UInt32) (poll : WgPoll) :
    s.ledger.Move (s.wgPoll g poll).ledger := by
  cases poll with
  | noClock => exact s.stateCore_move g false .ok
  | noUplink =>
    simp only [wgPoll]
    split
    · exact stateCore_move { s with wgActive := false } g false .other
    · exact .stay
  | polled active up error =>
    simp only [wgPoll]
    split
    · exact stateCore_move { s with wgActive := active } g up error
    · exact .stay

theorem rxStep_move (s : Vpn) (choice : RxChoice) : s.ledger.Move (s.rxStep choice).ledger := by
  unfold rxStep
  split
  case h_1 =>
    split
    · exact .stay
    · split <;> exact .stay
  case h_2 g _ => exact s.wgPoll_move g choice.wg
  case h_3 cfg _ => exact s.stateCore_move cfg.generation false .ok
  case h_4 cfg _ =>
    split
    · exact .stay
    · exact s.stateCore_move cfg.generation false .ok
    · exact s.stateCore_move cfg.generation false .ok
  case h_5 =>
    split
    · split <;> exact .stay
    · exact .stay
  case h_6 => exact .stay
  case h_7 cfg _ => exact s.stateCore_move cfg.generation true .ok
  case h_8 => split <;> exact .stay
  case h_9 => exact .stay
  case h_10 => split <;> exact .stay
  case h_11 => exact .stay
  case h_12 => split <;> exact .stay
  case h_13 cfg _ => exact s.stateCore_move cfg.generation false choice.error

variable {s : Vpn}

theorem expire_move {p : Packet} (hfront : s.queue.front = some p) :
    s.ledger.Move (s.expire p).ledger :=
  .expire p s.queue.pop.toList (Ring.toList_eq_cons hfront)

theorem phase_move {phase : TxPhase} (hheld : phase.held = s.tx.held) :
    s.ledger.Move { s with tx := phase : Vpn }.ledger := by
  have hsame : { s with tx := phase : Vpn }.ledger = s.ledger := by
    unfold ledger
    dsimp only
    rw [hheld]
  rw [hsame]
  exact .stay

theorem load_move (batchFrames : Nat) {run : TxRun} {scanned : Nat} (now : Nat)
    (hphase : s.tx = .loading run scanned) (hrun : run.Ok)
    (hudp : run.datagram = true → run.udp = none) :
    s.ledger.Move (s.load batchFrames run scanned now).ledger ∧
      (s.load batchFrames run scanned now).tx.Ok := by
  have hheld : s.tx.held = run.held := by rw [hphase]; rfl
  have hdone : s.ledger.Move (s.doneLoading run).ledger ∧ (s.doneLoading run).tx.Ok := by
    unfold doneLoading
    split
    · exact ⟨phase_move hheld.symm, hrun⟩
    · exact ⟨phase_move hheld.symm, hrun⟩
  unfold load
  split
  case isFalse => exact hdone
  split
  case h_1 => exact hdone
  rename_i p hfront
  have hqueue := Ring.toList_eq_cons hfront
  split
  case isTrue =>
    refine ⟨?_, hrun, hudp⟩
    have hmove := expire_move hfront
    unfold ledger at hmove ⊢
    rw [hheld] at hmove ⊢
    have hafter : (s.expire p).tx.held = run.held := hheld
    rw [hafter] at hmove
    exact hmove
  split
  case isTrue hdatagram =>
    have hmove := Ledger.Move.load (l := s.ledger) p s.queue.pop.toList hqueue
    have hnone : s.ledger.held = [] := by
      change s.tx.held = []
      rw [hheld, TxRun.held, if_pos hdatagram, hudp hdatagram]
      rfl
    have hafter : TxRun.held { run with udp := some p } = [p] := by
      rw [TxRun.held, if_pos hdatagram]
      rfl
    rw [hnone, nil_append] at hmove
    refine ⟨?_, fun hstream => hrun hstream⟩
    unfold ledger
    simp only [TxPhase.held, hafter]
    exact hmove
  case isFalse hstream =>
    have hfalse : run.datagram = false := by simpa using hstream
    obtain ⟨hcount, hbatch⟩ := hrun hfalse
    split
    case h_1 => exact hdone
    rename_i batch happend
    obtain ⟨hok, hgrown, hcompleted⟩ := TxBatch.append_ok hbatch happend
    have hmove := Ledger.Move.load (l := s.ledger) p s.queue.pop.toList hqueue
    have hafter : TxRun.held { run with batch := batch, loaded := run.loaded ++ [p] } =
        s.ledger.held ++ [p] := by
      change _ = s.tx.held ++ [p]
      rw [hheld, TxRun.held, TxRun.held, if_neg (by simp [hfalse]), if_neg (by simp [hfalse])]
      dsimp only
      rw [hcompleted, drop_append_of_le_length (by rw [hcount]; exact hbatch.completed)]
    refine ⟨?_, ?_, fun hdatagram => absurd hdatagram hstream⟩
    · unfold ledger at hmove ⊢
      simp only [TxPhase.held, hafter]
      exact hmove
    · intro _
      refine ⟨?_, hok⟩
      rw [length_append, hcount, hgrown]
      rfl

theorem complete_move {sock : Sock} {done : List Packet} (rest : List Packet)
    {phase : TxPhase} (hheld : s.tx.held = done ++ rest) (hphase : phase.held = rest) :
    s.ledger.Move { s.complete sock done with tx := phase : Vpn }.ledger := by
  have hmove := Ledger.Move.complete (l := s.ledger) done rest sock.conn sock.generation hheld
  rw [← hphase] at hmove
  exact hmove

theorem write_move {run : TxRun} (n : Nat) (timedOut : Bool)
    (hphase : s.tx = .sending run) (hrun : run.Ok) :
    s.ledger.Move (s.write run n timedOut).ledger ∧ (s.write run n timedOut).tx.Ok := by
  have hheld : s.tx.held = run.held := by rw [hphase]; rfl
  have hwait : ∀ phase : TxPhase, phase = .leaving run ∨ phase = .check run →
      s.ledger.Move { s with tx := phase : Vpn }.ledger ∧ phase.Ok := by
    rintro phase (rfl | rfl)
    · exact ⟨phase_move hheld.symm, hrun⟩
    · exact ⟨phase_move hheld.symm, hrun⟩
  have hdeadline : (if timedOut then TxPhase.leaving run else .check run) = .leaving run ∨
      (if timedOut then TxPhase.leaving run else .check run) = .check run := by
    cases timedOut with
    | true => exact .inl rfl
    | false => exact .inr rfl
  unfold write
  split
  case h_1 => exact hwait _ (.inl rfl)
  rename_i sock _
  split
  case isTrue hdatagram =>
    split
    case h_1 => exact hwait _ (.inr rfl)
    rename_i p hudp
    split
    case isTrue => exact hwait _ hdeadline
    split
    case isTrue =>
      refine ⟨complete_move [] ?_ ?_, ?_⟩
      · rw [hheld, TxRun.held, if_pos hdatagram, hudp]
        rfl
      · simp only [TxPhase.held, TxRun.held, if_pos hdatagram, Option.toList_none]
      · intro hstream
        rw [hdatagram] at hstream
        contradiction
    case isFalse => exact hwait _ (.inl rfl)
  case isFalse hstream =>
    have hfalse : run.datagram = false := by simpa using hstream
    obtain ⟨hcount, hbatch⟩ := hrun hfalse
    split
    case isTrue => exact hwait _ hdeadline
    split
    case h_1 => exact hwait _ (.inl rfl)
    rename_i batch packets bytes hadvance
    obtain ⟨hok, hsame, hcompleted⟩ := TxBatch.advance_ok hbatch hadvance
    have hafter : TxRun.held { run with batch := batch } =
        (run.loaded.drop run.batch.completed).drop packets := by
      rw [TxRun.held, if_neg hstream, drop_drop]
      exact congrArg (List.drop · run.loaded) hcompleted
    have hokAfter : TxRun.Ok { run with batch := batch } := by
      intro _
      exact ⟨hcount.trans hsame.symm, hok⟩
    refine ⟨complete_move ((run.loaded.drop run.batch.completed).drop packets) ?_ ?_, ?_⟩
    · rw [hheld, TxRun.held, if_neg hstream, take_append_drop]
    · split <;> exact hafter
    · dsimp only
      split <;> exact hokAfter

theorem leave_move {run : TxRun} (hphase : s.tx = .leaving run) :
    s.ledger.Move (s.leave run).ledger := by
  have hheld : s.ledger.held = run.held := by
    change s.tx.held = run.held
    rw [hphase]
    rfl
  have hmove := Ledger.Move.drop (l := s.ledger)
  rw [hheld] at hmove
  exact hmove

theorem txStep_move (batchFrames : Nat) (choice : TxChoice) (htx : s.tx.Ok) :
    s.ledger.Move (s.txStep batchFrames choice).ledger ∧ (s.txStep batchFrames choice).tx.Ok := by
  unfold txStep
  split
  case h_1 hphase =>
    split
    · refine ⟨phase_move ?_, fun _ => ⟨rfl, TxBatch.empty_ok⟩⟩
      rw [hphase]
      simp [TxPhase.held, TxRun.held]
    · exact ⟨.stay, htx⟩
  case h_2 run hphase =>
    rw [hphase] at htx
    have hheld : run.held = s.tx.held := by rw [hphase]; rfl
    split
    · exact ⟨phase_move hheld, htx⟩
    · exact ⟨phase_move hheld, htx⟩
  case h_3 run hphase =>
    rw [hphase] at htx
    have hrun : run.Ok := htx
    have hheld : run.held = s.tx.held := by rw [hphase]; rfl
    split
    case isFalse => exact ⟨phase_move hheld, hrun⟩
    split
    case isTrue hdatagram =>
      split
      case isTrue hudp => exact ⟨phase_move hheld, hrun, fun _ => hudp⟩
      case isFalse => exact ⟨phase_move hheld, hrun⟩
    case isFalse hstream =>
      split
      case isTrue hsent =>
        -- a batch that is sent has completed every packet beside it
        obtain ⟨hcount, hbatch⟩ := hrun (by simpa using hstream)
        refine ⟨phase_move ?_, fun _ => ⟨rfl, TxBatch.empty_ok⟩, fun hdatagram =>
          absurd hdatagram hstream⟩
        rw [← hheld, TxPhase.held, TxRun.held, TxRun.held, if_neg hstream, if_neg hstream,
          hbatch.sent hsent, ← hcount, drop_length]
        rfl
      case isFalse => exact ⟨phase_move hheld, hrun⟩
  case h_4 run scanned hphase =>
    rw [hphase] at htx
    exact load_move batchFrames choice.now hphase htx.1 htx.2
  case h_5 run hphase =>
    rw [hphase] at htx
    have hheld : run.held = s.tx.held := by rw [hphase]; rfl
    split
    · exact ⟨phase_move hheld, htx⟩
    · exact write_move _ choice.timedOut hphase htx
  case h_6 run hphase => exact ⟨leave_move hphase, trivial⟩

theorem stateCore_tx (s : Vpn) (g : UInt32) (up : Bool) (error : ErrorCode) :
    (s.stateCore g up error).tx = s.tx := by
  unfold stateCore
  split
  · cases up <;> rfl
  · rfl

theorem sendIpv4_tx (s : Vpn) (p : Bytes) (now : Nat) : (s.sendIpv4 p now).tx = s.tx := by
  unfold sendIpv4
  split
  · rfl
  split
  · rfl
  split <;> rfl

theorem output_tx (s : Vpn) (p : Bytes) (now : Nat) (wg : WgEnv) :
    (s.output p now wg).tx = s.tx := by
  unfold output
  split
  · rfl
  split
  · rfl
  split
  · split <;> rfl
  · exact s.sendIpv4_tx _ now

theorem wgPoll_tx (s : Vpn) (g : UInt32) (poll : WgPoll) : (s.wgPoll g poll).tx = s.tx := by
  cases poll with
  | noClock => exact s.stateCore_tx g false .ok
  | noUplink =>
    simp only [wgPoll]
    split
    · exact stateCore_tx { s with wgActive := false } g false .other
    · rfl
  | polled active up error =>
    simp only [wgPoll]
    split
    · exact stateCore_tx { s with wgActive := active } g up error
    · rfl

theorem rxStep_tx (s : Vpn) (choice : RxChoice) : (s.rxStep choice).tx = s.tx := by
  unfold rxStep
  split
  case h_1 =>
    split
    · rfl
    · split <;> rfl
  case h_2 g _ => exact s.wgPoll_tx g choice.wg
  case h_3 cfg _ => exact s.stateCore_tx cfg.generation false .ok
  case h_4 cfg _ =>
    split
    · rfl
    · exact s.stateCore_tx cfg.generation false .ok
    · exact s.stateCore_tx cfg.generation false .ok
  case h_5 =>
    split
    · split <;> rfl
    · rfl
  case h_6 => rfl
  case h_7 cfg _ => exact s.stateCore_tx cfg.generation true .ok
  case h_8 => split <;> rfl
  case h_9 => rfl
  case h_10 => split <;> rfl
  case h_11 => rfl
  case h_12 => split <;> rfl
  case h_13 cfg _ => exact s.stateCore_tx cfg.generation false choice.error

theorem step_move (batchFrames : Nat) (event : Event) (htx : s.tx.Ok) :
    s.ledger.Move (s.step batchFrames event).ledger ∧ (s.step batchFrames event).tx.Ok := by
  cases event with
  | send p now =>
    refine ⟨s.sendIpv4_move p now, ?_⟩
    rw [step, s.sendIpv4_tx p now]
    exact htx
  | output p now wg =>
    refine ⟨s.output_move p now wg, ?_⟩
    rw [step, s.output_tx p now wg]
    exact htx
  | apply c => exact ⟨s.applyConfig_move c, htx⟩
  | setLan usb ap => exact ⟨.stay, htx⟩
  | rx choice =>
    refine ⟨s.rxStep_move choice, ?_⟩
    rw [step, s.rxStep_tx choice]
    exact htx
  | tx choice => exact txStep_move batchFrames choice htx

theorem init_balanced : init.ledger.Balanced :=
  ⟨List.Perm.refl _, List.Pairwise.nil, rfl, rfl, rfl⟩

theorem run_balanced (batchFrames : Nat) (events : List Event) :
    (run batchFrames events).ledger.Balanced ∧ (run batchFrames events).tx.Ok := by
  have hfold : ∀ (later : List Event) (s : Vpn), s.ledger.Balanced → s.tx.Ok →
      (later.foldl (step batchFrames) s).ledger.Balanced ∧
        (later.foldl (step batchFrames) s).tx.Ok := by
    intro later
    induction later with
    | nil => exact fun s hbalanced htx => ⟨hbalanced, htx⟩
    | cons event later ih =>
      intro s hbalanced htx
      obtain ⟨hmove, hafter⟩ := step_move batchFrames event htx
      exact ih _ (hmove.balanced hbalanced) hafter
  exact hfold events init init_balanced trivial

end Vpn

end Meshpn.Device
