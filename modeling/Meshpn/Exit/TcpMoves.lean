import Mathlib.Logic.Relation
import Meshpn.Exit.TcpConnection

/-!
What the pacing of a connection can do, said once. Flushing the backlog and
pausing or resuming the socket are called from almost every handler; whatever
calls them, they are a sequence of four moves: a segment from the front of the
backlog while there is room in flight, the FIN when it is due, a pause, a resume.
An invariant of the connection is then shown for these moves and for what each
handler does by itself.
-/

namespace Meshpn.Exit.Tcp

open Meshpn.Lib List

/-- One move of the pacing. -/
inductive Move (config : Config) : Conn → Conn → Prop where
  | chunk {c : Conn} (hopen : c.isOpen = true) (hbacklog : c.serverReadBacklog ≠ [])
      (hroom : c.pendingResponses < c.maxPendingForConn config) :
      Move config c (c.sendChunk config)
  | fin {c : Conn} (hdue : c.finDue = true) : Move config c (c.sendServerFin config)
  | pause {c : Conn} (hopen : c.isOpen = true) :
      Move config c { c.call .pause with serverSocketPaused := true }
  | resume {c : Conn} (hopen : c.isOpen = true) :
      Move config c { c.call .resume with serverSocketPaused := false }

/-- Some moves. -/
abbrev Moves (config : Config) : Conn → Conn → Prop := Relation.ReflTransGen (Move config)

variable {config : Config} {c d : Conn}

theorem Moves.keeps {P : Conn → Prop}
    (hmove : ∀ c d, Move config c d → P c → P d) (h : Moves config c d) (hc : P c) :
    P d := by
  induction h with
  | refl => exact hc
  | tail _ hlast ih => exact hmove _ _ hlast ih

theorem Moves.relates {R : Conn → Conn → Prop} (hrefl : ∀ c, R c c)
    (htrans : ∀ a b c, R a b → R b c → R a c) (hmove : ∀ c d, Move config c d → R c d) (h : Moves config c d) : R c d := by
  induction h with
  | refl => exact hrefl c
  | tail _ hlast ih => exact htrans _ _ _ ih (hmove _ _ hlast)

section Pacing

variable (config : Config)

@[simp] theorem sendChunk_isOpen (c : Conn) : (c.sendChunk config).isOpen = c.isOpen := rfl

@[simp] theorem sendChunk_maxPending (c : Conn) :
    (c.sendChunk config).maxPendingForConn config = c.maxPendingForConn config := rfl

@[simp] theorem sendChunk_pending (c : Conn) :
    (c.sendChunk config).pendingResponses = c.pendingResponses + 1 := rfl

variable {c : Conn}

theorem sendChunks_moves (room : Nat) (hopen : c.isOpen = true)
    (hroom : c.pendingResponses + room ≤ c.maxPendingForConn config) :
    Moves config c (c.sendChunks config room) := by
  induction room generalizing c with
  | zero => exact .refl
  | succ room ih =>
    unfold Conn.sendChunks
    split
    case isTrue => exact .refl
    rename_i hbacklog
    have hrest := ih (c := c.sendChunk config) hopen (by simp; omega)
    exact .head (.chunk hopen hbacklog (by omega)) hrest

theorem maybeSendServerFin_moves (c : Conn) : Moves config c (c.maybeSendServerFin config) := by
  unfold Conn.maybeSendServerFin
  split
  case isTrue hdue => exact .single (.fin hdue)
  case isFalse => exact .refl

theorem flushServerReadBacklog_moves (c : Conn) :
    Moves config c (c.flushServerReadBacklog config) := by
  unfold Conn.flushServerReadBacklog
  split
  case isTrue hopen =>
    refine .trans ?_ (maybeSendServerFin_moves config _)
    by_cases hroom : c.pendingResponses ≤ c.maxPendingForConn config
    · exact sendChunks_moves config _ hopen (by omega)
    · rw [Nat.sub_eq_zero_of_le (by omega)]
      exact .refl
  case isFalse => exact .refl

theorem syncServerSocketPause_moves (c : Conn) :
    Moves config c (c.syncServerSocketPause config) := by
  unfold Conn.syncServerSocketPause
  split
  case isTrue hopen =>
    rw [Bool.and_eq_true] at hopen
    dsimp only
    split
    case isTrue => exact .single (.pause hopen.2)
    split
    case isTrue => exact .single (.resume hopen.2)
    case isFalse => exact .refl
  case isFalse => exact .refl

theorem updatePeerWindowAndAck_moves (hopen : c.isOpen = true) (segment : Segment) :
    Moves config (c.notePeer segment) (c.updatePeerWindowAndAck config segment) := by
  rw [Conn.updatePeerWindowAndAck, if_pos hopen]
  exact (flushServerReadBacklog_moves config _).trans (syncServerSocketPause_moves config _)

theorem updatePeerWindowAndAck_closed (hopen : c.isOpen = false) (segment : Segment) :
    c.updatePeerWindowAndAck config segment = c := by
  simp [Conn.updatePeerWindowAndAck, hopen]

theorem onData_moves (hstate : c.state ≠ .closed) (now : Nat) (data : Bytes) :
    Moves config (c.buffer now data) (c.onData config now data) := by
  rw [Conn.onData, if_neg (by simpa using hstate)]
  exact (flushServerReadBacklog_moves config _).trans (syncServerSocketPause_moves config _)

theorem onEnd_moves (hstate : c.state ≠ .closed) :
    Moves config c.noteEnd (c.onEnd config) := by
  rw [Conn.onEnd, if_neg (by simpa using hstate)]
  exact ((flushServerReadBacklog_moves config _).trans (maybeSendServerFin_moves config _)).trans
    (syncServerSocketPause_moves config _)

end Pacing

theorem Move.isOpen (h : Move config c d) :
    c.isOpen = true ∧ d.isOpen = true := by
  cases h with
  | chunk hopen => exact ⟨hopen, hopen⟩
  | fin hdue =>
    simp only [Conn.finDue, Bool.and_eq_true, beq_iff_eq] at hdue
    exact ⟨by simp [Conn.isOpen, hdue.1.1.2], rfl⟩
  | pause hopen => exact ⟨hopen, hopen⟩
  | resume hopen => exact ⟨hopen, hopen⟩

theorem Moves.eq_of_not_open (h : Moves config c d)
    (hopen : c.isOpen = false) : d = c := by
  rcases Relation.ReflTransGen.cases_head h with heq | ⟨next, hmove, _⟩
  · exact heq.symm
  · rw [hmove.isOpen.1] at hopen
    cases hopen

/-- The pacing has nothing to do with the client's stream. -/
structure SameClient (c d : Conn) : Prop where
  clientSeq : d.clientSeq = c.clientSeq
  clientAck : d.clientAck = c.clientAck
  pendingData : d.pendingData = c.pendingData
  clientFinSeen : d.clientFinSeen = c.clientFinSeen
  clientFinSeq : d.clientFinSeq = c.clientFinSeq
  socket : d.socket = c.socket
  socketEnded : d.socketEndedToServer = c.socketEndedToServer
  lastPeerAck : d.lastPeerAck = c.lastPeerAck
  eofFromServer : d.eofFromServer = c.eofFromServer

theorem Moves.sameClient (h : Moves config c d) :
    SameClient c d := by
  refine h.relates (fun _ => ⟨rfl, rfl, rfl, rfl, rfl, rfl, rfl, rfl, rfl⟩) ?_ ?_
  · intro a b e hab hbe
    exact ⟨hbe.clientSeq.trans hab.clientSeq, hbe.clientAck.trans hab.clientAck,
      hbe.pendingData.trans hab.pendingData, hbe.clientFinSeen.trans hab.clientFinSeen,
      hbe.clientFinSeq.trans hab.clientFinSeq, hbe.socket.trans hab.socket,
      hbe.socketEnded.trans hab.socketEnded, hbe.lastPeerAck.trans hab.lastPeerAck,
      hbe.eofFromServer.trans hab.eofFromServer⟩
  · intro a b hmove
    cases hmove with
    | chunk => exact ⟨rfl, rfl, rfl, rfl, rfl, rfl, rfl, rfl, rfl⟩
    | fin => exact ⟨rfl, rfl, rfl, rfl, rfl, rfl, rfl, rfl, rfl⟩
    | pause => exact ⟨rfl, rfl, rfl, rfl, rfl, rfl, rfl, rfl, rfl⟩
    | resume => exact ⟨rfl, rfl, rfl, rfl, rfl, rfl, rfl, rfl, rfl⟩

theorem Moves.isOpen (h : Moves config c d) :
    d.isOpen = c.isOpen := by
  refine h.relates (R := fun c d => d.isOpen = c.isOpen) (fun _ => rfl)
    (fun a b e hab hbe => hbe.trans hab) ?_
  intro a b hmove
  rw [hmove.isOpen.1, hmove.isOpen.2]

structure Grows (c d : Conn) : Prop where
  sent : c.sent <+: d.sent
  calls : c.calls <+: d.calls

theorem Grows.refl (c : Conn) : Grows c c := ⟨prefix_rfl, prefix_rfl⟩

theorem Grows.trans {a b c : Conn} (hab : Grows a b) (hbc : Grows b c) : Grows a c :=
  ⟨hab.sent.trans hbc.sent, hab.calls.trans hbc.calls⟩

theorem grows_send (config : Config) (c : Conn) (ack : Nat) (flags : List Flag) (data : Bytes) :
    Grows c (c.send config ack flags data) := ⟨prefix_append _ _, prefix_rfl⟩

theorem grows_call (c : Conn) (socketCall : SocketCall) : Grows c (c.call socketCall) :=
  ⟨prefix_rfl, prefix_append _ _⟩

theorem Moves.grows (h : Moves config c d) : Grows c d := by
  refine h.relates Grows.refl (fun _ _ _ => Grows.trans) ?_
  intro a b hmove
  cases hmove with
  | chunk => exact ⟨prefix_append _ _, prefix_rfl⟩
  | fin => exact ⟨prefix_append _ _, prefix_rfl⟩
  | pause => exact ⟨prefix_rfl, prefix_append _ _⟩
  | resume => exact ⟨prefix_rfl, prefix_append _ _⟩

section Handlers

variable (config : Config) (c : Conn)

theorem grows_notePeer (segment : Segment) : Grows c (c.notePeer segment) := by
  unfold Conn.notePeer
  split <;> exact ⟨prefix_rfl, prefix_rfl⟩

theorem grows_updatePeerWindowAndAck (segment : Segment) :
    Grows c (c.updatePeerWindowAndAck config segment) := by
  by_cases hopen : c.isOpen = true
  · exact (grows_notePeer c segment).trans
      (updatePeerWindowAndAck_moves config hopen segment).grows
  · rw [updatePeerWindowAndAck_closed config (by simpa using hopen)]
    exact .refl c

theorem grows_handleFin (segment : Segment) : Grows c (c.handleFin config segment) := by
  unfold Conn.handleFin
  split
  · exact grows_send config c _ _ _
  dsimp only
  split
  · exact ⟨prefix_append _ _, prefix_append _ _⟩
  · exact ⟨prefix_append _ _, prefix_rfl⟩

theorem grows_takeData (data : Bytes) : Grows c (c.takeData data) := by
  unfold Conn.takeData
  split
  · exact grows_call c _
  · split <;> exact ⟨prefix_rfl, prefix_rfl⟩

theorem grows_handleData (segment : Segment) : Grows c (c.handleData config segment) := by
  unfold Conn.handleData
  split
  · have h := (grows_takeData (c.setClientAck (segment.tcpSeq + segment.data.length))
      segment.data).trans (grows_send config _ (segment.tcpSeq + segment.data.length) [.ack] [])
    exact ⟨h.sent, h.calls⟩
  · exact .refl c

theorem grows_closeTCPConnection : Grows c c.closeTCPConnection := by
  unfold Conn.closeTCPConnection
  split
  · exact .refl c
  split
  · exact ⟨prefix_rfl, prefix_append _ _⟩
  · exact ⟨prefix_rfl, prefix_rfl⟩

theorem grows_lingerOrClose : Grows c c.lingerOrClose := by
  unfold Conn.lingerOrClose Conn.scheduleTcpLingerClose
  split
  · split <;> exact ⟨prefix_rfl, prefix_rfl⟩
  · exact grows_closeTCPConnection c

theorem grows_handleSegment (now : Nat) (segment : Segment) :
    Grows c (c.handleSegment config now segment) := by
  have hnoted : Grows c ((c.activeAt now).updatePeerWindowAndAck config segment) := by
    have h := grows_updatePeerWindowAndAck config (c.activeAt now) segment
    exact ⟨h.sent, h.calls⟩
  unfold Conn.handleSegment
  dsimp only
  split
  · exact hnoted
  split
  · exact hnoted.trans (grows_handleFin config _ segment)
  have htaken := hnoted.trans (grows_handleData config _ segment)
  split
  · exact htaken.trans (syncServerSocketPause_moves config _).grows
  · exact htaken

theorem grows_onSocket (event : SocketEvent) : Grows c (c.onSocket config event) := by
  cases event with
  | connect now =>
    change Grows c (c.onConnect config now)
    unfold Conn.onConnect
    split
    · exact grows_call c _
    · exact ⟨prefix_append _ _, prefix_append _ _⟩
  | data now data =>
    change Grows c (c.onData config now data)
    by_cases hstate : c.state = .closed
    · simpa [Conn.onData, hstate] using Grows.refl c
    · have h := Moves.grows (onData_moves config hstate now data)
      exact ⟨h.sent, h.calls⟩
  | eof =>
    change Grows c (c.onEnd config)
    by_cases hstate : c.state = .closed
    · simpa [Conn.onEnd, hstate] using Grows.refl c
    · have h := Moves.grows (onEnd_moves config hstate)
      exact ⟨h.sent, h.calls⟩
  | error =>
    change Grows c (c.onError config)
    unfold Conn.onError
    split
    · exact .refl c
    split
    · exact grows_lingerOrClose c
    · exact (grows_send config c _ _ _).trans (grows_lingerOrClose _)
  | timeout => exact (grows_call c _).trans (grows_lingerOrClose _)
  | close =>
    change Grows c (c.onClose)
    unfold Conn.onClose
    split
    · exact .refl c
    · exact grows_lingerOrClose c
  | linger =>
    change Grows c (c.onLinger)
    unfold Conn.onLinger
    split
    · have h := grows_closeTCPConnection { c with lingerCloseTimer := false }
      exact ⟨h.sent, h.calls⟩
    · exact .refl c

theorem step_grows (event : Event) : Grows c (c.step config event) := by
  cases event with
  | segment now segment =>
    change Grows c (c.handleTCP config now segment)
    unfold Conn.handleTCP
    split
    · exact .refl c
    split
    · exact grows_closeTCPConnection c
    · split
      · exact .refl c
      · exact grows_handleSegment config c now segment
  | socket event => exact grows_onSocket config c event
  | cleanup now =>
    change Grows c (c.onCleanup config now)
    unfold Conn.onCleanup
    split
    · exact grows_closeTCPConnection c
    · exact .refl c
  | stop => exact grows_closeTCPConnection c

end Handlers

end Meshpn.Exit.Tcp
