import Meshpn.Exit.TcpDrift
import Meshpn.Lib.Runs

/-!
The stream from the server to the client. What the socket reads waits in the
backlog; it leaves in segments of at most 1360 bytes whose sequence numbers follow
each other from the SYN-ACK on, while there is room in flight. The FIN follows the
last byte, once. The socket is the one of the runtime: it reports `connect` once
and no data after their end.
-/

namespace Meshpn.Exit.Tcp

open Meshpn.Lib

def payload (packets : List Packet) : Bytes := packets.flatMap Packet.data

def syns (packets : List Packet) : Nat := packets.countP fun packet => .syn ∈ packet.flags

def fins (packets : List Packet) : Nat := packets.countP fun packet => .fin ∈ packet.flags

/-- The place of a packet behind those that were sent before it. -/
structure InOrder (isn : Nat) (before : List Packet) (packet : Packet) : Prop where
  syn : .syn ∈ packet.flags → packet.data = [] ∧ packet.seq = isn % word ∧
    payload before = [] ∧ syns before = 0 ∧ fins before = 0
  data : packet.data ≠ [] → packet.seq = (isn + 1 + (payload before).length) % word ∧
    packet.data.length ≤ mss ∧ packet.pending < packet.limit ∧ syns before = 1 ∧ fins before = 0
  fin : .fin ∈ packet.flags → packet.data = [] ∧
    packet.seq = (isn + 1 + (payload before).length) % word ∧ syns before = 1 ∧ fins before = 0

/-- What the upstream socket has reported. -/
structure Upstream where
  connected : Bool
  ended : Bool
  received : Bytes
  deriving DecidableEq, Repr

namespace Upstream

def init : Upstream := ⟨false, false, []⟩

def note (upstream : Upstream) : Event → Upstream
  | .socket (.connect _) => { upstream with connected := true }
  | .socket (.data _ data) => { upstream with received := upstream.received ++ data }
  | .socket .eof => { upstream with ended := true }
  | _ => upstream

def allows (upstream : Upstream) : Event → Bool
  | .socket (.connect _) => !upstream.connected
  | .socket (.data _ _) => !upstream.ended
  | _ => true

def run (upstream : Upstream) (events : List Event) : Upstream := events.foldl note upstream

def Orderly : Upstream → List Event → Prop
  | _, [] => True
  | upstream, event :: rest => upstream.allows event = true ∧ (upstream.note event).Orderly rest

end Upstream

section Counting

variable {packets : List Packet}

theorem payload_append (first second : List Packet) :
    payload (first ++ second) = payload first ++ payload second := List.flatMap_append

theorem syns_append (first second : List Packet) :
    syns (first ++ second) = syns first + syns second := List.countP_append

theorem fins_append (first second : List Packet) :
    fins (first ++ second) = fins first + fins second := List.countP_append

theorem payload_bare (h : ∀ packet ∈ packets, packet.Bare) : payload packets = [] := by
  rw [payload, List.flatMap_eq_nil_iff]
  intro packet hpacket
  exact (h packet hpacket).1

theorem syns_bare (h : ∀ packet ∈ packets, packet.Bare) : syns packets = 0 := by
  rw [syns, List.countP_eq_zero]
  intro packet hpacket
  simpa using (h packet hpacket).2.1

theorem fins_bare (h : ∀ packet ∈ packets, packet.Bare) : fins packets = 0 := by
  rw [fins, List.countP_eq_zero]
  intro packet hpacket
  simpa using (h packet hpacket).2.2

theorem advanceOf_eq (packets : List Packet) :
    advanceOf packets = (payload packets).length + syns packets + fins packets := by
  induction packets with
  | nil => rfl
  | cons packet rest ih =>
    have hcons : advanceOf (packet :: rest) = packet.advance + advanceOf rest := by
      simp [advanceOf]
    simp only [hcons, ih, Packet.advance, payload, syns, fins, List.flatMap_cons,
      List.length_append, List.countP_cons, decide_eq_true_eq]
    omega

end Counting

theorem Packet.Bare.inOrder {packet : Packet} (h : packet.Bare) (isn : Nat)
    (before : List Packet) : InOrder isn before packet :=
  ⟨fun hsyn => absurd hsyn h.2.1, fun hdata => absurd h.1 hdata, fun hfin => absurd hfin h.2.2⟩

/-- The log of a connection against what its socket has reported. -/
structure Streamed (isn : Nat) (upstream : Upstream) (c : Conn) : Prop where
  log : Log.Each (InOrder isn) c.sent
  serverSeq : c.serverSeq = isn + advanceOf c.sent
  within : payload c.sent ++ c.serverReadBacklog <+: upstream.received
  whole : c.state ≠ .closed → payload c.sent ++ c.serverReadBacklog = upstream.received
  connecting : c.state = .connecting → payload c.sent = [] ∧ syns c.sent = 0 ∧ fins c.sent = 0
  opened : c.isOpen = true → syns c.sent = 1 ∧ upstream.connected = true
  ended : c.eofFromServer = true → upstream.ended = true
  finOnce : fins c.sent = if c.finSent then 1 else 0
  finished : c.finSent = true →
    c.eofFromServer = true ∧ c.serverReadBacklog = [] ∧ payload c.sent = upstream.received

theorem init_streamed (segment : Segment) (isn now : Nat) :
    Streamed isn .init (.init segment isn now) where
  log := Log.Each.nil
  serverSeq := rfl
  within := List.prefix_rfl
  whole := fun _ => rfl
  connecting := fun _ => ⟨rfl, rfl, rfl⟩
  opened := fun h => by cases h
  ended := fun h => by cases h
  finOnce := rfl
  finished := fun h => by cases h

section Streamed

variable {config : Config} {isn : Nat} {upstream : Upstream} {c d : Conn}

theorem isOpen_of_state {state : TcpState} (h : c.state = state) :
    c.isOpen = (state == .established || state == .finWait) := by
  rw [Conn.isOpen, h]

theorem Streamed.aside (hstream : Streamed isn upstream c) (h : Aside c d) :
    Streamed isn upstream d := by
  obtain ⟨packets, hsent, hbare⟩ := h.sent
  have hpayload : payload d.sent = payload c.sent := by
    rw [hsent, payload_append, payload_bare hbare, List.append_nil]
  have hsyns : syns d.sent = syns c.sent := by
    rw [hsent, syns_append, syns_bare hbare, Nat.add_zero]
  have hfins : fins d.sent = fins c.sent := by
    rw [hsent, fins_append, fins_bare hbare, Nat.add_zero]
  -- closing is the only change of the state
  have hstate : d.state ≠ .closed → d.state = c.state := by
    intro hopen
    rcases h.state with hsame | hclosed
    · exact hsame
    · exact absurd hclosed hopen
  refine ⟨?_, ?_, ?_, ?_, ?_, ?_, ?_, ?_, ?_⟩
  · rw [hsent]
    exact hstream.log.append fun packet hpacket before => (hbare packet hpacket).inOrder isn before
  · rw [h.serverSeq, hsent, advanceOf_append, advanceOf_bare hbare]
    exact hstream.serverSeq
  · rw [hpayload, h.serverReadBacklog]
    exact hstream.within
  · intro hopen
    rw [hpayload, h.serverReadBacklog]
    exact hstream.whole (hstate hopen ▸ hopen)
  · intro hconnecting
    rw [hpayload, hsyns, hfins]
    exact hstream.connecting (hstate (by simp [hconnecting]) ▸ hconnecting)
  · intro hopen
    rw [hsyns]
    have hsame := hstate (state_ne_closed_of_isOpen hopen)
    exact hstream.opened (by rw [Conn.isOpen, ← hsame]; exact hopen)
  · rw [h.eofFromServer]
    exact hstream.ended
  · rw [hfins, h.finSent]
    exact hstream.finOnce
  · rw [h.finSent, h.eofFromServer, h.serverReadBacklog, hpayload]
    exact hstream.finished

theorem Streamed.seq_of_open (hstream : Streamed isn upstream c) (hopen : c.isOpen = true)
    (hfin : c.finSent = false) : c.serverSeq = isn + 1 + (payload c.sent).length := by
  have hfins := hstream.finOnce
  rw [hstream.serverSeq, advanceOf_eq, (hstream.opened hopen).1, hfins, hfin]
  simp
  omega

theorem Streamed.chunk (hstream : Streamed isn upstream c) (hopen : c.isOpen = true)
    (hbacklog : c.serverReadBacklog ≠ [])
    (hroom : c.pendingResponses < c.maxPendingForConn config) :
    Streamed isn upstream (c.sendChunk config) := by
  have hfin : c.finSent = false := by
    rw [← Bool.not_eq_true]
    intro hsent
    exact hbacklog (hstream.finished hsent).2.1
  have hseq := hstream.seq_of_open hopen hfin
  have hfins : fins c.sent = 0 := by rw [hstream.finOnce, hfin]; rfl
  obtain ⟨packet, hsent, hdata, hflags, hpacketSeq, hpending⟩ : ∃ packet : Packet,
      (c.sendChunk config).sent = c.sent ++ [packet] ∧
        packet.data = c.serverReadBacklog.take mss ∧
        (packet.flags = [.psh, .ack] ∨ packet.flags = [.ack]) ∧
        packet.seq = c.serverSeq % word ∧ packet.pending < packet.limit := by
    refine ⟨_, rfl, rfl, ?_, rfl, hroom⟩
    dsimp only
    split
    · exact .inl rfl
    · exact .inr rfl
  have hsyn : .syn ∉ packet.flags := by rcases hflags with h | h <;> simp [h]
  have hnofin : .fin ∉ packet.flags := by rcases hflags with h | h <;> simp [h]
  have hpayload : payload (c.sendChunk config).sent =
      payload c.sent ++ c.serverReadBacklog.take mss := by
    rw [hsent, payload_append, ← hdata]
    simp [payload]
  have hsyns : syns (c.sendChunk config).sent = syns c.sent := by
    rw [hsent, syns_append]
    simp [syns, hsyn]
  have hsameFins : fins (c.sendChunk config).sent = fins c.sent := by
    rw [hsent, fins_append]
    simp [fins, hnofin]
  have hrest : payload (c.sendChunk config).sent ++ (c.sendChunk config).serverReadBacklog =
      payload c.sent ++ c.serverReadBacklog := by
    rw [hpayload, List.append_assoc]
    congr 1
    exact List.take_append_drop mss c.serverReadBacklog
  refine ⟨?_, ?_, ?_, ?_, ?_, ?_, hstream.ended, ?_, ?_⟩
  · rw [hsent]
    refine hstream.log.snoc ⟨fun h => absurd h hsyn, fun _ => ?_, fun h => absurd h hnofin⟩
    refine ⟨by rw [hpacketSeq, hseq], ?_, hpending, (hstream.opened hopen).1, hfins⟩
    rw [hdata]
    exact List.length_take_le _ _
  · rw [advanceOf_eq, hpayload, hsyns, hsameFins, List.length_append]
    have h := hstream.serverSeq
    rw [advanceOf_eq] at h
    change c.serverSeq + (c.serverReadBacklog.take mss).length = _
    omega
  · rw [hrest]
    exact hstream.within
  · intro hstate
    rw [hrest]
    exact hstream.whole hstate
  · intro hconnecting
    have hclosed : c.isOpen = false := isOpen_of_state hconnecting
    rw [hopen] at hclosed
    cases hclosed
  · intro _
    rw [hsyns]
    exact hstream.opened hopen
  · rw [hsameFins]
    exact hstream.finOnce
  · intro hsentFin
    change c.finSent = true at hsentFin
    rw [hfin] at hsentFin
    cases hsentFin

theorem Streamed.serverFin (hstream : Streamed isn upstream c) (hdue : c.finDue = true) :
    Streamed isn upstream (c.sendServerFin config) := by
  simp only [Conn.finDue, Bool.and_eq_true, Bool.not_eq_true', beq_iff_eq,
    List.isEmpty_iff] at hdue
  obtain ⟨⟨⟨⟨heof, hfin⟩, hstate⟩, hbacklog⟩, -⟩ := hdue
  have hopen : c.isOpen = true := isOpen_of_state hstate
  have hseq := hstream.seq_of_open hopen hfin
  have hfins : fins c.sent = 0 := by rw [hstream.finOnce, hfin]; rfl
  have hwhole := hstream.whole (state_ne_closed_of_isOpen hopen)
  rw [hbacklog, List.append_nil] at hwhole
  have hpayload : payload (c.sendServerFin config).sent = payload c.sent := by
    change payload (c.sent ++ [_]) = _
    rw [payload_append]
    simp [payload]
  have hsyns : syns (c.sendServerFin config).sent = syns c.sent := by
    change syns (c.sent ++ [_]) = _
    rw [syns_append]
    rfl
  have hone : fins (c.sendServerFin config).sent = 1 := by
    change fins (c.sent ++ [_]) = _
    rw [fins_append, hfins]
    rfl
  have hall : payload (c.sendServerFin config).sent ++ (c.sendServerFin config).serverReadBacklog =
      upstream.received := by
    change _ ++ c.serverReadBacklog = _
    rw [hpayload, hbacklog, List.append_nil, hwhole]
  refine ⟨?_, ?_, ?_, fun _ => hall, ?_, ?_, hstream.ended, hone, ?_⟩
  · refine hstream.log.snoc ⟨fun h => absurd h (by simp), fun h => absurd rfl h, fun _ => ?_⟩
    exact ⟨rfl, by rw [← hseq], (hstream.opened hopen).1, hfins⟩
  · rw [advanceOf_eq, hpayload, hsyns, hone]
    have h := hstream.serverSeq
    rw [advanceOf_eq, hfins] at h
    change c.serverSeq + 1 = _
    omega
  · exact ⟨[], by rw [List.append_nil, hall]⟩
  · intro hconnecting
    cases hconnecting
  · intro _
    rw [hsyns]
    exact hstream.opened hopen
  · intro _
    rw [hpayload]
    exact ⟨heof, hbacklog, hwhole⟩

theorem Streamed.move (hstream : Streamed isn upstream c) (h : Move config c d) :
    Streamed isn upstream d := by
  cases h with
  | chunk hopen hbacklog hroom => exact hstream.chunk hopen hbacklog hroom
  | fin hdue => exact hstream.serverFin hdue
  | pause => exact hstream.aside (.silent rfl rfl rfl rfl rfl (.inl rfl) rfl)
  | resume => exact hstream.aside (.silent rfl rfl rfl rfl rfl (.inl rfl) rfl)

theorem Streamed.drift (hstream : Streamed isn upstream c) (h : Drift config c d) :
    Streamed isn upstream d :=
  h.keeps (fun _ _ hmove hc => Streamed.move hc hmove)
    (fun _ _ haside hc => Streamed.aside hc haside) hstream

theorem Streamed.sameStream (hstream : Streamed isn upstream c) (h : Conn.SameStream c d) :
    Streamed isn upstream d := by
  refine ⟨?_, ?_, ?_, ?_, ?_, ?_, ?_, ?_, ?_⟩
  · rw [h.sent]
    exact hstream.log
  · rw [h.serverSeq, h.sent]
    exact hstream.serverSeq
  · rw [h.sent, h.serverReadBacklog]
    exact hstream.within
  · rw [h.state, h.sent, h.serverReadBacklog]
    exact hstream.whole
  · rw [h.state, h.sent]
    exact hstream.connecting
  · rw [Conn.isOpen, h.state, h.sent]
    exact hstream.opened
  · rw [h.eofFromServer]
    exact hstream.ended
  · rw [h.sent, h.finSent]
    exact hstream.finOnce
  · rw [h.finSent, h.eofFromServer, h.serverReadBacklog, h.sent]
    exact hstream.finished

theorem Streamed.establish (hstream : Streamed isn upstream c) (hstate : c.state ≠ .closed)
    (hconnected : upstream.connected = false) (now : Nat) :
    Streamed isn { upstream with connected := true } (c.establish config now) := by
  have hclosed : c.isOpen = false := by
    rw [← Bool.not_eq_true]
    intro hopen
    rw [(hstream.opened hopen).2] at hconnected
    cases hconnected
  have hconnecting : c.state = .connecting := by
    cases hcase : c.state with
    | connecting => rfl
    | established => rw [isOpen_of_state hcase] at hclosed; cases hclosed
    | finWait => rw [isOpen_of_state hcase] at hclosed; cases hclosed
    | closed => exact absurd hcase hstate
  obtain ⟨hempty, hnosyn, hnofin⟩ := hstream.connecting hconnecting
  have hisn : c.serverSeq = isn := by
    rw [hstream.serverSeq, advanceOf_eq, hempty, hnosyn, hnofin]
    rfl
  have hpayload : payload (c.establish config now).sent = payload c.sent := by
    change payload (c.sent ++ [_]) = _
    rw [payload_append]
    simp [payload]
  have hsyns : syns (c.establish config now).sent = 1 := by
    change syns (c.sent ++ [_]) = _
    rw [syns_append, hnosyn]
    rfl
  have hfins : fins (c.establish config now).sent = fins c.sent := by
    change fins (c.sent ++ [_]) = _
    rw [fins_append]
    rfl
  refine ⟨?_, ?_, ?_, ?_, ?_, fun _ => ⟨hsyns, rfl⟩, hstream.ended, ?_, ?_⟩
  · refine hstream.log.snoc ⟨fun _ => ?_, fun h => absurd rfl h, fun h => absurd h (by simp)⟩
    exact ⟨rfl, by rw [← hisn], hempty, hnosyn, hnofin⟩
  · rw [advanceOf_eq, hpayload, hsyns, hfins, hempty, hnofin]
    change c.serverSeq + 1 = _
    rw [hisn]
    rfl
  · rw [hpayload]
    exact hstream.within
  · intro _
    rw [hpayload]
    exact hstream.whole hstate
  · intro h
    cases h
  · rw [hfins]
    exact hstream.finOnce
  · rw [hpayload]
    exact hstream.finished

theorem Streamed.buffer (hstream : Streamed isn upstream c) (hstate : c.state ≠ .closed)
    (hended : upstream.ended = false) (now : Nat) (data : Bytes) :
    Streamed isn { upstream with received := upstream.received ++ data } (c.buffer now data) := by
  have hwhole : payload c.sent ++ (c.serverReadBacklog ++ data) = upstream.received ++ data := by
    rw [← List.append_assoc, hstream.whole hstate]
  refine ⟨hstream.log, hstream.serverSeq, ?_, fun _ => hwhole, hstream.connecting, hstream.opened,
    hstream.ended, hstream.finOnce, ?_⟩
  · exact ⟨[], by rw [List.append_nil]; exact hwhole⟩
  · intro hfin
    have h := hstream.ended (hstream.finished hfin).1
    rw [hended] at h
    cases h

theorem Streamed.closed (hstream : Streamed isn upstream c) (hstate : c.state = .closed)
    {event : Event} (hallowed : upstream.allows event = true) :
    Streamed isn (upstream.note event) c := by
  have hopen : ¬ c.isOpen = true := by
    rw [isOpen_of_state hstate]
    simp
  have hnote : (upstream.note event).received = upstream.received ∨
      upstream.ended = false ∧ upstream.received <+: (upstream.note event).received := by
    unfold Upstream.note
    split
    · exact .inl rfl
    · exact .inr ⟨by simpa [Upstream.allows] using hallowed, List.prefix_append _ _⟩
    · exact .inl rfl
    · exact .inl rfl
  have hended : upstream.ended = true → (upstream.note event).ended = true := by
    intro h
    unfold Upstream.note
    split
    · exact h
    · exact h
    · rfl
    · exact h
  refine ⟨hstream.log, hstream.serverSeq, ?_, fun h => absurd hstate h, hstream.connecting,
    fun h => absurd h hopen, fun h => hended (hstream.ended h), hstream.finOnce, ?_⟩
  · rcases hnote with h | ⟨-, h⟩
    · rw [h]
      exact hstream.within
    · exact hstream.within.trans h
  · intro hfin
    obtain ⟨heof, hbacklog, hpayload⟩ := hstream.finished hfin
    rcases hnote with h | ⟨h, -⟩
    · exact ⟨heof, hbacklog, h ▸ hpayload⟩
    · rw [hstream.ended heof] at h
      cases h

theorem Streamed.enter {event : Event} (hstream : Streamed isn upstream c)
    (hallowed : upstream.allows event = true) :
    Streamed isn (upstream.note event) (c.enter config event) := by
  unfold Conn.enter
  split
  case h_1 now segment =>
    split
    · exact hstream.sameStream (c.notePeer_sameStream now segment)
    · exact hstream
  case h_2 now =>
    split
    case isTrue hstate => exact hstream.closed hstate hallowed
    case isFalse hstate =>
      exact hstream.establish hstate (by simpa [Upstream.allows] using hallowed) now
  case h_3 now data =>
    split
    case isTrue hstate => exact hstream.closed hstate hallowed
    case isFalse hstate =>
      exact hstream.buffer hstate (by simpa [Upstream.allows] using hallowed) now data
  case h_4 =>
    split
    case isTrue hstate => exact hstream.closed hstate hallowed
    rename_i hstate
    exact ⟨hstream.log, hstream.serverSeq, hstream.within, hstream.whole, hstream.connecting,
      hstream.opened, fun _ => rfl, hstream.finOnce,
      fun hfin => ⟨rfl, (hstream.finished hfin).2⟩⟩
  case h_5 hsegment hconnect hdata heof =>
    have hsame : upstream.note event = upstream := by
      unfold Upstream.note
      split
      · exact absurd rfl (hconnect _)
      · exact absurd rfl (hdata _ _)
      · exact absurd rfl heof
      · rfl
    rw [hsame]
    exact hstream

theorem Streamed.step {event : Event} (hstream : Streamed isn upstream c)
    (hallowed : upstream.allows event = true) :
    Streamed isn (upstream.note event) (c.step config event) :=
  (hstream.enter hallowed).drift (step_drift config c event)

theorem Streamed.run {events : List Event} (hstream : Streamed isn upstream c)
    (horderly : upstream.Orderly events) :
    Streamed isn (upstream.run events) (c.run config events) := by
  induction events generalizing c upstream with
  | nil => exact hstream
  | cons event rest ih => exact ih (hstream.step horderly.1) horderly.2

theorem Streamed.payload_of_fin (hstream : Streamed isn upstream c) {before after : List Packet}
    {packet : Packet} (hsent : c.sent = before ++ packet :: after) (hfin : .fin ∈ packet.flags) :
    payload before = payload c.sent := by
  have hpacket := hstream.log before packet after hsent
  have hafter : payload after = [] := by
    rw [payload, List.flatMap_eq_nil_iff]
    intro later hlater
    obtain ⟨front, back, rfl⟩ := List.append_of_mem hlater
    have horder := hstream.log (before ++ packet :: front) later back (by rw [hsent]; simp)
    by_contra hdata
    have hnone := (horder.data hdata).2.2.2.2
    simp [fins, hfin] at hnone
  rw [hsent, payload_append]
  simpa [payload, (hpacket.fin hfin).1] using hafter

end Streamed

/-- In every run with an orderly socket, the packets sent to the client carry a prefix
of the server's data, each data segment and the FIN at the sequence number that
follows the data before it. A data segment has at most 1360 bytes and is sent while
there is room in flight; there is at most one FIN, and all of the server's data are
before it. -/
theorem server_stream_faithful (config : Config) (syn : Segment) (isn start : Nat)
    (events : List Event) (c : Conn) (hc : c = (Conn.init syn isn start).run config events)
    (received : Bytes) (hreceived : received = (Upstream.init.run events).received)
    (horderly : Upstream.init.Orderly events) :
    payload c.sent <+: received ∧
      Log.Each (InOrder isn) c.sent ∧
      fins c.sent ≤ 1 ∧
      ∀ before packet after, c.sent = before ++ packet :: after → .fin ∈ packet.flags →
        payload before = received ∧ (Upstream.init.run events).ended = true := by
  have hstream : Streamed isn (Upstream.init.run events) c := by
    rw [hc]
    exact (init_streamed syn isn start).run horderly
  refine ⟨?_, hstream.log, ?_, ?_⟩
  · rw [hreceived]
    exact (List.prefix_append _ _).trans hstream.within
  · rw [hstream.finOnce]
    split <;> omega
  · intro before packet after hsent hfin
    have hfinSent : c.finSent = true := by
      by_contra hno
      have hnone := hstream.finOnce
      rw [if_neg hno, hsent] at hnone
      simp [fins, hfin] at hnone
    obtain ⟨heof, -, hpayload⟩ := hstream.finished hfinSent
    exact ⟨by rw [hstream.payload_of_fin hsent hfin, hpayload, hreceived], hstream.ended heof⟩

/-- A server that answers in two chunks and ends; the client acknowledges in between. -/
def answeredEvents : List Event :=
  [.socket (.connect 1), .socket (.data 2 [10, 11]),
    .segment 3 ⟨1001, 7003, 502, false, true, false, false, none, []⟩,
    .socket (.data 4 [12]), .segment 5 ⟨1001, 7004, 502, false, true, false, false, none, []⟩,
    .segment 5 ⟨1001, 7004, 502, false, true, false, false, none, []⟩, .socket .eof]

/-- Its data arrive in order. -/
theorem answered_stream_faithful :
    payload ((Conn.init sampleSyn 7000 0).run sampleConfig answeredEvents).sent = [10, 11, 12] ∧
      payload ((Conn.init sampleSyn 7000 0).run sampleConfig answeredEvents).sent <+:
        [10, 11, 12] :=
  ⟨by decide, (server_stream_faithful sampleConfig sampleSyn 7000 0 answeredEvents _ rfl
    [10, 11, 12] (by decide) ⟨rfl, rfl, rfl, rfl, rfl, rfl, rfl, trivial⟩).1⟩

end Meshpn.Exit.Tcp
