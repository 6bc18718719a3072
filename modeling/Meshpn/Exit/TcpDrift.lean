import Meshpn.Exit.TcpMoves

/-!
A step of a connection seen from the server's stream. Every handler begins with
at most one thing the pacing depends on: an acknowledgement is noted, the socket
is connected, data or the end of them come in. What follows is a drift: moves of
the pacing, and asides that acknowledge the client, call the socket or close the
connection without touching the server's stream. An invariant of that stream is
shown for the beginnings, the moves and the asides, and never for a handler.
-/

namespace Meshpn.Exit.Tcp

open Meshpn.Lib

def Packet.advance (packet : Packet) : Nat :=
  packet.data.length + (if .syn ∈ packet.flags then 1 else 0) +
    (if .fin ∈ packet.flags then 1 else 0)

def Packet.Bare (packet : Packet) : Prop :=
  packet.data = [] ∧ .syn ∉ packet.flags ∧ .fin ∉ packet.flags

theorem Packet.Bare.advance {packet : Packet} (h : packet.Bare) : packet.advance = 0 := by
  simp [Packet.advance, h.1, h.2.1, h.2.2]

def advanceOf (packets : List Packet) : Nat := (packets.map Packet.advance).sum

theorem advanceOf_append (first second : List Packet) :
    advanceOf (first ++ second) = advanceOf first + advanceOf second := by
  simp [advanceOf]

theorem advanceOf_bare {packets : List Packet} (h : ∀ packet ∈ packets, packet.Bare) :
    advanceOf packets = 0 := by
  induction packets with
  | nil => rfl
  | cons packet rest ih =>
    have hrest := ih (fun p hp => h p (List.mem_cons_of_mem _ hp))
    simp only [advanceOf, List.map_cons, List.sum_cons] at hrest ⊢
    rw [(h packet List.mem_cons_self).advance, hrest]

/-- A change beside the server's stream. -/
structure Aside (c d : Conn) : Prop where
  serverSeq : d.serverSeq = c.serverSeq
  serverReadBacklog : d.serverReadBacklog = c.serverReadBacklog
  pendingResponses : d.pendingResponses = c.pendingResponses
  eofFromServer : d.eofFromServer = c.eofFromServer
  finSent : d.finSent = c.finSent
  state : d.state = c.state ∨ d.state = .closed
  sent : ∃ packets, d.sent = c.sent ++ packets ∧ ∀ packet ∈ packets, packet.Bare

theorem Aside.silent {c d : Conn} (hseq : d.serverSeq = c.serverSeq)
    (hbacklog : d.serverReadBacklog = c.serverReadBacklog)
    (hpending : d.pendingResponses = c.pendingResponses)
    (heof : d.eofFromServer = c.eofFromServer) (hfin : d.finSent = c.finSent)
    (hstate : d.state = c.state ∨ d.state = .closed) (hsent : d.sent = c.sent) : Aside c d :=
  ⟨hseq, hbacklog, hpending, heof, hfin, hstate, [], by simp [hsent], by simp⟩

theorem Aside.refl (c : Conn) : Aside c c := .silent rfl rfl rfl rfl rfl (.inl rfl) rfl

theorem Aside.trans {a b c : Conn} (hab : Aside a b) (hbc : Aside b c) : Aside a c := by
  obtain ⟨first, hfirst, hbareFirst⟩ := hab.sent
  obtain ⟨second, hsecond, hbareSecond⟩ := hbc.sent
  refine ⟨hbc.serverSeq.trans hab.serverSeq, hbc.serverReadBacklog.trans hab.serverReadBacklog,
    hbc.pendingResponses.trans hab.pendingResponses, hbc.eofFromServer.trans hab.eofFromServer,
    hbc.finSent.trans hab.finSent, ?_, first ++ second, ?_, ?_⟩
  · rcases hbc.state with h | h
    · rw [h]
      exact hab.state
    · exact .inr h
  · rw [hsecond, hfirst, List.append_assoc]
  · intro packet hpacket
    rcases List.mem_append.mp hpacket with h | h
    · exact hbareFirst packet h
    · exact hbareSecond packet h

/-- Moves and asides in any order. -/
inductive Drift (config : Config) : Conn → Conn → Prop where
  | refl (c : Conn) : Drift config c c
  | move {a b c : Conn} (hdrift : Drift config a b) (hmove : Move config b c) : Drift config a c
  | aside {a b c : Conn} (hdrift : Drift config a b) (haside : Aside b c) : Drift config a c

section Drift

variable {config : Config}

theorem Drift.moves {a b c : Conn} (hdrift : Drift config a b) (hmoves : Moves config b c) :
    Drift config a c := by
  induction hmoves with
  | refl => exact hdrift
  | tail _ hlast ih => exact ih.move hlast

theorem Aside.drift {c d : Conn} (h : Aside c d) : Drift config c d := (Drift.refl c).aside h

theorem Drift.keeps {P : Conn → Prop} (hmove : ∀ c d, Move config c d → P c → P d)
    (haside : ∀ c d, Aside c d → P c → P d) {c d : Conn} (h : Drift config c d) (hc : P c) :
    P d := by
  induction h with
  | refl => exact hc
  | move _ hlast ih => exact hmove _ _ hlast ih
  | aside _ hlast ih => exact haside _ _ hlast ih

end Drift

section Asides

variable (config : Config) (c : Conn)

theorem aside_send (ack : Nat) (flags : List Flag) (hsyn : .syn ∉ flags) (hfin : .fin ∉ flags) :
    Aside c (c.send config ack flags []) :=
  ⟨rfl, rfl, rfl, rfl, rfl, .inl rfl, _, rfl, by simp [Packet.Bare, hsyn, hfin]⟩

theorem aside_call (socketCall : SocketCall) : Aside c (c.call socketCall) :=
  .silent rfl rfl rfl rfl rfl (.inl rfl) rfl

theorem aside_writePending : Aside c c.writePending :=
  .silent rfl rfl rfl rfl rfl (.inl rfl) rfl

theorem aside_handleFin (segment : Segment) : Aside c (c.handleFin config segment) := by
  unfold Conn.handleFin
  split
  · exact aside_send config c _ _ (by decide) (by decide)
  have hseen : Aside c { c with
      clientFinSeen := true
      clientFinSeq := some segment.tcpSeq
      clientAck := segment.tcpSeq + 1 } := .silent rfl rfl rfl rfl rfl (.inl rfl) rfl
  have hacked := hseen.trans
    (aside_send config _ (segment.tcpSeq + 1) [.ack] (by decide) (by decide))
  dsimp only
  split
  · exact hacked.trans (.silent rfl rfl rfl rfl rfl (.inl rfl) rfl)
  · exact hacked

theorem aside_takeData (data : Bytes) : Aside c (c.takeData data) := by
  unfold Conn.takeData
  split
  · exact aside_call c _
  split
  · exact .silent rfl rfl rfl rfl rfl (.inl rfl) rfl
  · exact .refl c

theorem aside_handleData (segment : Segment) : Aside c (c.handleData config segment) := by
  unfold Conn.handleData
  split
  · have hset : Aside c (c.setClientAck (segment.tcpSeq + segment.data.length)) :=
      .silent rfl rfl rfl rfl rfl (.inl rfl) rfl
    exact (hset.trans (aside_takeData _ segment.data)).trans
      (aside_send config _ _ _ (by decide) (by decide))
  · exact .refl c

theorem aside_closeTCPConnection : Aside c c.closeTCPConnection := by
  unfold Conn.closeTCPConnection
  split
  · exact .refl c
  · split <;> exact .silent rfl rfl rfl rfl rfl (.inr rfl) rfl

theorem aside_lingerOrClose : Aside c c.lingerOrClose := by
  unfold Conn.lingerOrClose Conn.scheduleTcpLingerClose
  split
  · split
    · exact .refl c
    · exact .silent rfl rfl rfl rfl rfl (.inl rfl) rfl
  · exact aside_closeTCPConnection c

theorem aside_onError : Aside c (c.onError config) := by
  unfold Conn.onError
  split
  · exact .refl c
  split
  · exact aside_lingerOrClose c
  · exact (aside_send config c c.clientAck _ (by decide) (by decide)).trans
      (aside_lingerOrClose _)

theorem aside_onClose : Aside c c.onClose := by
  unfold Conn.onClose
  split
  · exact .refl c
  · exact aside_lingerOrClose c

theorem aside_onLinger : Aside c c.onLinger := by
  unfold Conn.onLinger
  split
  · have hstopped : Aside c { c with lingerCloseTimer := false } :=
      .silent rfl rfl rfl rfl rfl (.inl rfl) rfl
    exact hstopped.trans (aside_closeTCPConnection _)
  · exact .refl c

theorem aside_onCleanup (now : Nat) : Aside c (c.onCleanup config now) := by
  unfold Conn.onCleanup
  split
  · exact aside_closeTCPConnection c
  · exact .refl c

end Asides

namespace Conn

/-- Noting a segment leaves the server's stream as it is. -/
structure SameStream (c d : Conn) : Prop where
  state : d.state = c.state
  serverSeq : d.serverSeq = c.serverSeq
  serverReadBacklog : d.serverReadBacklog = c.serverReadBacklog
  eofFromServer : d.eofFromServer = c.eofFromServer
  finSent : d.finSent = c.finSent
  sent : d.sent = c.sent

theorem notePeer_sameStream (c : Conn) (now : Nat) (segment : Segment) :
    SameStream c ((c.activeAt now).notePeer segment) := by
  unfold notePeer
  split <;> exact ⟨rfl, rfl, rfl, rfl, rfl, rfl⟩

def hears (c : Conn) (segment : Segment) : Bool :=
  c.isOpen && !segment.rst && !(segment.syn && !segment.ack)

/-- What a handler begins with, as far as the server's stream goes. -/
def enter (config : Config) (c : Conn) : Event → Conn
  | .segment now segment => if c.hears segment then (c.activeAt now).notePeer segment else c
  | .socket (.connect now) => if c.state = .closed then c else c.establish config now
  | .socket (.data now data) => if c.state = .closed then c else c.buffer now data
  | .socket .eof => if c.state = .closed then c else c.noteEnd
  | _ => c

end Conn

section Steps

variable (config : Config) (c : Conn)

theorem handleSegment_drift {a : Conn} (now : Nat) (segment : Segment)
    (h : Drift config a ((c.activeAt now).updatePeerWindowAndAck config segment)) :
    Drift config a (c.handleSegment config now segment) := by
  unfold Conn.handleSegment
  dsimp only
  split
  · exact h
  split
  · exact h.aside (aside_handleFin config _ segment)
  have htaken := h.aside (aside_handleData config _ segment)
  split
  · exact htaken.moves (syncServerSocketPause_moves config _)
  · exact htaken

theorem hears_iff {c : Conn} {segment : Segment} : c.hears segment = true ↔
    c.isOpen = true ∧ segment.rst = false ∧ (segment.syn && !segment.ack) = false := by
  simp only [Conn.hears, Bool.and_eq_true, Bool.not_eq_true', and_assoc]

theorem state_ne_closed_of_isOpen {c : Conn} (h : c.isOpen = true) : c.state ≠ .closed := by
  intro hstate
  simp [Conn.isOpen, hstate] at h

theorem handleTCP_of_hears {segment : Segment} (hheard : c.hears segment = true) (now : Nat) :
    c.handleTCP config now segment = c.handleSegment config now segment := by
  obtain ⟨hopen, hrst, hsyn⟩ := hears_iff.mp hheard
  have hstate := state_ne_closed_of_isOpen hopen
  rw [Conn.handleTCP, if_neg (by simpa using hstate), if_neg (by simp [hrst]),
    if_neg (by simp [hsyn])]

theorem handleTCP_drift (now : Nat) (segment : Segment) :
    Drift config (c.enter config (.segment now segment)) (c.handleTCP config now segment) := by
  change Drift config (if c.hears segment then (c.activeAt now).notePeer segment else c) _
  by_cases hheard : c.hears segment = true
  · obtain ⟨hopen, -, -⟩ := hears_iff.mp hheard
    rw [if_pos hheard, handleTCP_of_hears config c hheard]
    apply handleSegment_drift
    exact (Drift.refl _).moves
      (updatePeerWindowAndAck_moves config (c := c.activeAt now) hopen segment)
  · rw [if_neg hheard]
    unfold Conn.handleTCP
    split
    · exact .refl c
    split
    · exact (aside_closeTCPConnection c).drift
    split
    case isTrue => exact .refl c
    case isFalse hrst hsyn =>
      have hopen : (c.activeAt now).isOpen = false := by
        rw [← Bool.not_eq_true]
        intro hopen
        exact hheard (hears_iff.mpr ⟨hopen, by simpa using hrst, by simpa using hsyn⟩)
      apply handleSegment_drift
      rw [updatePeerWindowAndAck_closed config hopen]
      exact Aside.drift (.silent rfl rfl rfl rfl rfl (.inl rfl) rfl)

theorem onSocket_drift (event : SocketEvent) :
    Drift config (c.enter config (.socket event)) (c.onSocket config event) := by
  cases event with
  | connect now =>
    change Drift config (if c.state = .closed then c else c.establish config now)
      (c.onConnect config now)
    unfold Conn.onConnect
    by_cases hstate : c.state = .closed
    · simpa [hstate] using (aside_call c _).drift
    · simpa [hstate] using (aside_writePending _).drift
  | data now data =>
    change Drift config (if c.state = .closed then c else c.buffer now data)
      (c.onData config now data)
    by_cases hstate : c.state = .closed
    · simpa [Conn.onData, hstate] using Drift.refl c
    · rw [if_neg hstate]
      exact (Drift.refl _).moves (onData_moves config hstate now data)
  | eof =>
    change Drift config (if c.state = .closed then c else c.noteEnd) (c.onEnd config)
    by_cases hstate : c.state = .closed
    · simpa [Conn.onEnd, hstate] using Drift.refl c
    · rw [if_neg hstate]
      exact (Drift.refl _).moves (onEnd_moves config hstate)
  | error => exact (aside_onError config c).drift
  | timeout => exact ((aside_call c _).trans (aside_lingerOrClose _)).drift
  | close => exact (aside_onClose c).drift
  | linger => exact (aside_onLinger c).drift

theorem step_drift (event : Event) :
    Drift config (c.enter config event) (c.step config event) := by
  cases event with
  | segment now segment => exact handleTCP_drift config c now segment
  | socket event => exact onSocket_drift config c event
  | cleanup now => exact (aside_onCleanup config c now).drift
  | stop => exact (aside_closeTCPConnection c).drift

end Steps

end Meshpn.Exit.Tcp
