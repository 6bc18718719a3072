import Meshpn.Exit.TcpStream

/-!
The stream from the client to the server. A data segment is written to the socket
and acknowledged as it comes, with no look at what was written before: in order
this gives the client's stream, and a segment that comes again, early, after the
server's FIN or before the socket is connected does not. A FIN is acknowledged
without the data it carries. The runs in which every segment brings the next bytes
of an open connection are the ones where the socket is given a prefix of the
stream and the acknowledgements follow what was written.
-/

namespace Meshpn.Exit.Tcp

open Meshpn.Lib

def SocketCall.bytes : SocketCall → Bytes
  | .write data => data
  | _ => []

def written (calls : List SocketCall) : Bytes := calls.flatMap SocketCall.bytes

def acks (packets : List Packet) : List Nat :=
  (packets.filter fun packet => .ack ∈ packet.flags).map Packet.ack

/-- A segment brings the bytes of the stream from an offset on; a FIN comes with the
last of them. -/
def Carries (stream : Bytes) (isn offset : Nat) (segment : Segment) : Prop :=
  segment.tcpSeq = (isn + 1 + offset) % word ∧ segment.data <+: stream.drop offset ∧
    (segment.fin = true → offset + segment.data.length = stream.length)

namespace Conn

/-- Whether the server's FIN goes out on the acknowledgement of a segment. -/
def endsOn (c : Conn) (segment : Segment) : Bool :=
  c.eofFromServer && c.serverReadBacklog.isEmpty &&
    c.pendingResponses ≤ (if segment.ack then c.released segment else 0)

def finAgain (c : Conn) (segment : Segment) : Bool :=
  c.clientFinSeen && c.clientFinSeq == some segment.tcpSeq

/-- A segment that brings data or a FIN brings what is next. -/
structure Fits (stream : Bytes) (c : Conn) (segment : Segment) : Prop where
  fin : segment.fin = true → c.finAgain segment = false →
    c.isOpen = true ∧ segment.data = [] ∧
      Carries stream c.clientSeq (written c.calls).length segment
  data : segment.fin = false → segment.data ≠ [] →
    c.state = .established ∧ c.endsOn segment = false ∧
      Carries stream c.clientSeq (written c.calls).length segment

/-- The segments that get past the first branches of `_handleTCP` all fit. -/
def FitsEvent (stream : Bytes) (c : Conn) : Event → Prop
  | .segment _ segment =>
    c.state ≠ .closed → segment.rst = false → (segment.syn && !segment.ack) = false →
      c.Fits stream segment
  | _ => True

def AllFit (config : Config) (stream : Bytes) : Conn → List Event → Prop
  | _, [] => True
  | c, event :: rest => c.FitsEvent stream event ∧ (c.step config event).AllFit config stream rest

end Conn

theorem written_append (first second : List SocketCall) :
    written (first ++ second) = written first ++ written second := List.flatMap_append

theorem acks_append (first second : List Packet) :
    acks (first ++ second) = acks first ++ acks second := by
  simp [acks]

/-- How many numbers of the client's stream are taken: the bytes written, and the FIN. -/
def taken (c : Conn) : Nat := (written c.calls).length + if c.clientFinSeen then 1 else 0

/-- Acknowledgements that never go back and reach no further than what was taken. -/
def Acknowledged (isn reach : Nat) (numbers : List Nat) : Prop :=
  ∃ places : List Nat, places.Pairwise (· ≤ ·) ∧
    numbers = places.map (fun place => (isn + 1 + place) % word) ∧ ∀ place ∈ places, place ≤ reach

theorem Acknowledged.mono {isn reach further : Nat} {numbers : List Nat}
    (h : Acknowledged isn reach numbers) (hle : reach ≤ further) :
    Acknowledged isn further numbers := by
  obtain ⟨places, hsorted, hnumbers, hreach⟩ := h
  exact ⟨places, hsorted, hnumbers, fun place hplace => Nat.le_trans (hreach place hplace) hle⟩

theorem Acknowledged.snoc {isn reach : Nat} {numbers : List Nat}
    (h : Acknowledged isn reach numbers) :
    Acknowledged isn reach (numbers ++ [(isn + 1 + reach) % word]) := by
  obtain ⟨places, hsorted, hnumbers, hreach⟩ := h
  refine ⟨places ++ [reach], ?_, ?_, ?_⟩
  · rw [List.pairwise_append]
    refine ⟨hsorted, List.pairwise_singleton _ _, ?_⟩
    intro place hplace last hlast
    rw [List.mem_singleton.mp hlast]
    exact hreach place hplace
  · rw [hnumbers, List.map_append]
    rfl
  · intro place hplace
    rcases List.mem_append.mp hplace with h | h
    · exact hreach place h
    · rw [List.mem_singleton.mp h]

/-- The socket has a prefix of the client's stream, and the client has been told so. -/
structure Fed (stream : Bytes) (isn : Nat) (connected : Bool) (c : Conn) : Prop where
  clientSeq : c.clientSeq = isn
  within : written c.calls <+: stream
  pendingData : c.pendingData = []
  socket : c.state ≠ .closed → c.socket = true
  opened : c.isOpen = true → connected = true ∧ c.clientAck % word = (isn + 1 + taken c) % word
  finSeen : c.clientFinSeen = true → written c.calls = stream
  acked : Acknowledged isn (taken c) (acks c.sent)
  connecting : c.state = .connecting → acks c.sent = [] ∧ taken c = 0

theorem init_fed (stream : Bytes) (segment : Segment) (isn now : Nat) :
    Fed stream segment.tcpSeq false (.init segment isn now) where
  clientSeq := rfl
  within := List.nil_prefix
  pendingData := rfl
  socket := fun _ => rfl
  opened := fun h => by cases h
  finSeen := fun h => by cases h
  acked := ⟨[], List.Pairwise.nil, rfl, by simp⟩
  connecting := fun _ => ⟨rfl, rfl⟩

/-- A change beside the client's stream. -/
structure Beside (c d : Conn) : Prop where
  clientSeq : d.clientSeq = c.clientSeq
  clientAck : d.clientAck = c.clientAck
  pendingData : d.pendingData = c.pendingData
  clientFinSeen : d.clientFinSeen = c.clientFinSeen
  clientFinSeq : d.clientFinSeq = c.clientFinSeq
  state : d.state = c.state ∧ d.socket = c.socket ∨ d.state = .closed
  calls : written d.calls = written c.calls
  sent : acks d.sent = acks c.sent

theorem Beside.refl (c : Conn) : Beside c c := ⟨rfl, rfl, rfl, rfl, rfl, .inl ⟨rfl, rfl⟩, rfl, rfl⟩

theorem Beside.trans {a b c : Conn} (hab : Beside a b) (hbc : Beside b c) : Beside a c := by
  refine ⟨hbc.clientSeq.trans hab.clientSeq, hbc.clientAck.trans hab.clientAck,
    hbc.pendingData.trans hab.pendingData, hbc.clientFinSeen.trans hab.clientFinSeen,
    hbc.clientFinSeq.trans hab.clientFinSeq, ?_, hbc.calls.trans hab.calls,
    hbc.sent.trans hab.sent⟩
  rcases hbc.state with ⟨hstate, hsocket⟩ | h
  · rw [hstate, hsocket]
    exact hab.state
  · exact .inr h

theorem Beside.call (c : Conn) (socketCall : SocketCall) (hbytes : socketCall.bytes = [])
    (paused : Bool) : Beside c { c.call socketCall with serverSocketPaused := paused } := by
  refine ⟨rfl, rfl, rfl, rfl, rfl, .inl ⟨rfl, rfl⟩, ?_, rfl⟩
  change written (c.calls ++ [socketCall]) = _
  rw [written_append]
  simp [written, hbytes]

section Besides

variable (config : Config) (c : Conn)

theorem beside_notePeer (now : Nat) (segment : Segment) :
    Beside c ((c.activeAt now).notePeer segment) := by
  unfold Conn.notePeer
  split <;> exact ⟨rfl, rfl, rfl, rfl, rfl, .inl ⟨rfl, rfl⟩, rfl, rfl⟩

theorem beside_closeTCPConnection : Beside c c.closeTCPConnection := by
  unfold Conn.closeTCPConnection
  split
  · exact .refl c
  split
  · have hdestroy := Beside.call c .destroy rfl c.serverSocketPaused
    exact ⟨rfl, rfl, rfl, rfl, rfl, .inr rfl, hdestroy.calls, rfl⟩
  · exact ⟨rfl, rfl, rfl, rfl, rfl, .inr rfl, rfl, rfl⟩

theorem beside_lingerOrClose : Beside c c.lingerOrClose := by
  unfold Conn.lingerOrClose Conn.scheduleTcpLingerClose
  split
  · split
    · exact .refl c
    · exact ⟨rfl, rfl, rfl, rfl, rfl, .inl ⟨rfl, rfl⟩, rfl, rfl⟩
  · exact beside_closeTCPConnection c

theorem beside_onError : Beside c (c.onError config) := by
  have hrst : Beside c (c.send config c.clientAck [.rst] []) := by
    refine ⟨rfl, rfl, rfl, rfl, rfl, .inl ⟨rfl, rfl⟩, rfl, ?_⟩
    change acks (c.sent ++ [_]) = _
    rw [acks_append]
    simp [acks]
  unfold Conn.onError
  split
  · exact .refl c
  split
  · exact beside_lingerOrClose c
  · exact hrst.trans (beside_lingerOrClose _)

theorem beside_onTimeout : Beside c c.onTimeout := by
  have hdestroy := Beside.call c .destroy rfl c.serverSocketPaused
  exact hdestroy.trans (beside_lingerOrClose _)

theorem beside_onClose : Beside c c.onClose := by
  unfold Conn.onClose
  split
  · exact .refl c
  · exact beside_lingerOrClose c

theorem beside_onLinger : Beside c c.onLinger := by
  unfold Conn.onLinger
  split
  · have hstopped : Beside c { c with lingerCloseTimer := false } :=
      ⟨rfl, rfl, rfl, rfl, rfl, .inl ⟨rfl, rfl⟩, rfl, rfl⟩
    exact hstopped.trans (beside_closeTCPConnection _)
  · exact .refl c

theorem beside_onCleanup (now : Nat) : Beside c (c.onCleanup config now) := by
  unfold Conn.onCleanup
  split
  · exact beside_closeTCPConnection c
  · exact .refl c

end Besides

section Fed

variable {config : Config} {stream : Bytes} {isn : Nat} {connected : Bool} {c d : Conn}

theorem Fed.beside (hfed : Fed stream isn connected c) (h : Beside c d) :
    Fed stream isn connected d := by
  have htaken : taken d = taken c := by rw [taken, taken, h.calls, h.clientFinSeen]
  -- closing is the only change of the state
  have hstate : d.state ≠ .closed → d.state = c.state ∧ d.socket = c.socket := by
    intro hopen
    rcases h.state with hsame | hclosed
    · exact hsame
    · exact absurd hclosed hopen
  refine ⟨?_, ?_, ?_, ?_, ?_, ?_, ?_, ?_⟩
  · rw [h.clientSeq, hfed.clientSeq]
  · rw [h.calls]
    exact hfed.within
  · rw [h.pendingData, hfed.pendingData]
  · intro hopen
    obtain ⟨hsame, hsocket⟩ := hstate hopen
    rw [hsocket]
    exact hfed.socket (hsame ▸ hopen)
  · intro hopen
    obtain ⟨hsame, -⟩ := hstate (state_ne_closed_of_isOpen hopen)
    rw [htaken, h.clientAck]
    exact hfed.opened (by rw [Conn.isOpen, ← hsame]; exact hopen)
  · rw [h.clientFinSeen, h.calls]
    exact hfed.finSeen
  · rw [htaken, h.sent]
    exact hfed.acked
  · intro hconnecting
    obtain ⟨hsame, -⟩ := hstate (by simp [hconnecting])
    rw [h.sent, htaken]
    exact hfed.connecting (hsame ▸ hconnecting)

theorem Fed.acknowledge (hfed : Fed stream isn connected c) (hopen : c.isOpen = true)
    (hclient : SameClient c d) (hstate : d.isOpen = true) (hcalls : d.calls = c.calls)
    {packet : Packet} (hsent : d.sent = c.sent ++ [packet]) (hflag : .ack ∈ packet.flags)
    (hack : packet.ack = c.clientAck % word) : Fed stream isn connected d := by
  have htaken : taken d = taken c := by rw [taken, taken, hcalls, hclient.clientFinSeen]
  have hacks : acks d.sent = acks c.sent ++ [(isn + 1 + taken c) % word] := by
    rw [hsent, acks_append, ← (hfed.opened hopen).2, ← hack]
    simp [acks, hflag]
  refine ⟨?_, ?_, ?_, ?_, ?_, ?_, ?_, ?_⟩
  · rw [hclient.clientSeq, hfed.clientSeq]
  · rw [hcalls]
    exact hfed.within
  · rw [hclient.pendingData, hfed.pendingData]
  · intro _
    rw [hclient.socket]
    exact hfed.socket (state_ne_closed_of_isOpen hopen)
  · intro _
    rw [hclient.clientAck, htaken]
    exact hfed.opened hopen
  · rw [hclient.clientFinSeen, hcalls]
    exact hfed.finSeen
  · rw [hacks, htaken]
    exact hfed.acked.snoc
  · intro hconnecting
    rw [isOpen_of_state hconnecting] at hstate
    cases hstate

theorem Fed.move (hfed : Fed stream isn connected c) (h : Move config c d) :
    Fed stream isn connected d := by
  have hclient : SameClient c d := Moves.sameClient (.single h)
  obtain ⟨hopen, hstate⟩ := h.isOpen
  cases h with
  | chunk =>
    refine hfed.acknowledge hopen hclient hstate rfl rfl ?_ rfl
    dsimp only
    split <;> simp
  | fin => exact hfed.acknowledge hopen hclient hstate rfl rfl (by simp) rfl
  | pause => exact hfed.beside (.call c _ rfl _)
  | resume => exact hfed.beside (.call c _ rfl _)

theorem Fed.moves (hfed : Fed stream isn connected c) (h : Moves config c d) :
    Fed stream isn connected d :=
  h.keeps (fun _ _ hmove hc => Fed.move hc hmove) hfed

theorem sendChunks_state (config : Config) (room : Nat) (c : Conn) :
    (c.sendChunks config room).state = c.state := by
  induction room generalizing c with
  | zero => rfl
  | succ room ih =>
    unfold Conn.sendChunks
    split
    · rfl
    · rw [ih]
      rfl

theorem sendChunks_pending_le (config : Config) (room : Nat) (c : Conn) :
    c.pendingResponses ≤ (c.sendChunks config room).pendingResponses := by
  induction room generalizing c with
  | zero => exact Nat.le_refl _
  | succ room ih =>
    unfold Conn.sendChunks
    split
    · exact Nat.le_refl _
    have h := ih (c.sendChunk config)
    rw [sendChunk_pending] at h
    omega

theorem sendChunks_finDue (config : Config) (room : Nat) {c : Conn} (hdue : c.finDue = false) :
    (c.sendChunks config room).finDue = false := by
  rcases room with _ | room
  · exact hdue
  unfold Conn.sendChunks
  split
  · exact hdue
  have h := sendChunks_pending_le config room (c.sendChunk config)
  rw [sendChunk_pending] at h
  have hpending : ((c.sendChunk config).sendChunks config room).pendingResponses ≠ 0 := by omega
  simp [Conn.finDue, hpending]

theorem flushServerReadBacklog_state (hdue : c.finDue = false) :
    (c.flushServerReadBacklog config).state = c.state := by
  unfold Conn.flushServerReadBacklog Conn.maybeSendServerFin
  split
  · rw [if_neg (by rw [sendChunks_finDue config _ hdue]; simp)]
    exact sendChunks_state config _ c
  · rfl

theorem syncServerSocketPause_state (c : Conn) :
    (c.syncServerSocketPause config).state = c.state := by
  unfold Conn.syncServerSocketPause
  split
  · dsimp only
    split
    · rfl
    · split <;> rfl
  · rfl

theorem updatePeerWindowAndAck_state (segment : Segment) (hends : c.endsOn segment = false) :
    (c.updatePeerWindowAndAck config segment).state = c.state := by
  have hdue : (c.notePeer segment).finDue = false := by
    simp only [Conn.endsOn, Bool.and_eq_false_iff, decide_eq_false_iff_not] at hends
    cases hack : segment.ack with
    | true =>
      rw [hack, if_pos rfl] at hends
      rcases hends with (h | h) | h
      · simp [Conn.finDue, Conn.notePeer, hack, h]
      · simp [Conn.finDue, Conn.notePeer, hack, h]
      · have hleft : c.pendingResponses - c.released segment ≠ 0 := by omega
        simp [Conn.finDue, Conn.notePeer, hack, hleft]
    | false =>
      rw [hack, if_neg (by simp)] at hends
      rcases hends with (h | h) | h
      · simp [Conn.finDue, Conn.notePeer, hack, h]
      · simp [Conn.finDue, Conn.notePeer, hack, h]
      · have hleft : c.pendingResponses ≠ 0 := by omega
        simp [Conn.finDue, Conn.notePeer, hack, hleft]
  have hstate : (c.notePeer segment).state = c.state := by
    unfold Conn.notePeer
    split <;> rfl
  unfold Conn.updatePeerWindowAndAck
  split
  · rw [syncServerSocketPause_state, flushServerReadBacklog_state hdue, hstate]
  · rfl

theorem Fed.noted (hfed : Fed stream isn connected c) (now : Nat) (segment : Segment) :
    Fed stream isn connected ((c.activeAt now).updatePeerWindowAndAck config segment) := by
  cases hopen : (c.activeAt now).isOpen with
  | true =>
    exact (hfed.beside (beside_notePeer c now segment)).moves
      (updatePeerWindowAndAck_moves config hopen segment)
  | false =>
    rw [updatePeerWindowAndAck_closed config hopen]
    exact hfed.beside ⟨rfl, rfl, rfl, rfl, rfl, .inl ⟨rfl, rfl⟩, rfl, rfl⟩

theorem prefix_append_of_drop {first second : Bytes} (hfirst : first <+: stream)
    (hsecond : second <+: stream.drop first.length) : first ++ second <+: stream := by
  obtain ⟨rest, rfl⟩ := hfirst
  rw [List.drop_left] at hsecond
  exact (List.prefix_append_right_inj first).mpr hsecond

theorem Fed.finAgain (hfed : Fed stream isn connected c) (hopen : c.isOpen = true)
    (segment : Segment) (hagain : c.finAgain segment = true) :
    Fed stream isn connected (c.handleFin config segment) := by
  unfold Conn.handleFin
  rw [if_pos (by simpa [Conn.finAgain] using hagain)]
  exact hfed.acknowledge hopen ⟨rfl, rfl, rfl, rfl, rfl, rfl, rfl, rfl, rfl⟩ hopen rfl rfl
    (by simp) rfl

theorem Fed.firstFin (hfed : Fed stream isn connected c) (hopen : c.isOpen = true)
    {segment : Segment} (hagain : c.finAgain segment = false) (hfin : segment.fin = true)
    (hempty : segment.data = []) (hcarries : Carries stream isn (written c.calls).length segment) :
    Fed stream isn connected (c.handleFin config segment) := by
  obtain ⟨hseq, -, hlast⟩ := hcarries
  have hall : written c.calls = stream := by
    refine hfed.within.eq_of_length ?_
    simpa [hempty] using hlast hfin
  -- what the FIN makes of the connection, the call to the socket apart
  have hnumber : (segment.tcpSeq + 1) % word =
      (isn + 1 + ((written c.calls).length + 1)) % word := by
    rw [hseq, Nat.mod_add_mod]
    rfl
  have hbefore : taken c ≤ (written c.calls).length + 1 := by
    unfold taken
    split <;> omega
  have hacks : Acknowledged isn ((written c.calls).length + 1)
      (acks c.sent ++ [(segment.tcpSeq + 1) % word]) := by
    rw [hnumber]
    exact (hfed.acked.mono hbefore).snoc
  have hstate : ¬ c.state = .connecting := by
    intro hconnecting
    rw [isOpen_of_state hconnecting] at hopen
    cases hopen
  unfold Conn.handleFin
  rw [if_neg (by simpa [Conn.finAgain] using hagain)]
  dsimp only
  split
  · have hfinish : written (c.calls ++ [.finish]) = written c.calls := by
      rw [written_append]
      simp [written, SocketCall.bytes]
    refine ⟨hfed.clientSeq, ?_, hfed.pendingData, hfed.socket, fun h => ⟨(hfed.opened h).1, ?_⟩,
      fun _ => ?_, ?_, fun h => absurd h hstate⟩
    · exact hfinish ▸ hfed.within
    · simpa [taken, Conn.call, Conn.send, hfinish] using hnumber
    · exact hfinish.trans hall
    · simpa [taken, Conn.call, Conn.send, hfinish, acks] using hacks
  · refine ⟨hfed.clientSeq, hfed.within, hfed.pendingData, hfed.socket,
      fun h => ⟨(hfed.opened h).1, ?_⟩, fun _ => hall, ?_, fun h => absurd h hstate⟩
    · simpa [taken, Conn.send] using hnumber
    · simpa [taken, Conn.send, acks] using hacks

theorem Fed.data (hfed : Fed stream isn connected c) (hstate : c.state = .established)
    {segment : Segment} (hdata : segment.data ≠ [])
    (hcarries : Carries stream isn (written c.calls).length segment) :
    Fed stream isn connected (c.handleData config segment) := by
  obtain ⟨hseq, hnext, -⟩ := hcarries
  have hopen : c.isOpen = true := isOpen_of_state hstate
  have hlength : segment.data.length > 0 := List.length_pos_iff.mpr hdata
  have hunfinished : c.clientFinSeen = false := by
    rw [← Bool.not_eq_true]
    intro hseen
    rw [hfed.finSeen hseen, List.drop_length] at hnext
    exact hdata (List.prefix_nil.mp hnext)
  have hwritten : written (c.calls ++ [.write segment.data]) =
      written c.calls ++ segment.data := by
    rw [written_append]
    simp [written, SocketCall.bytes]
  have hnumber : (segment.tcpSeq + segment.data.length) % word =
      (isn + 1 + ((written c.calls).length + segment.data.length)) % word := by
    rw [hseq, Nat.mod_add_mod, Nat.add_assoc (isn + 1)]
  have hbefore : taken c ≤ (written c.calls).length + segment.data.length := by
    simp [taken, hunfinished]
  have hacks : Acknowledged isn ((written c.calls).length + segment.data.length)
      (acks c.sent ++ [(segment.tcpSeq + segment.data.length) % word]) := by
    rw [hnumber]
    exact (hfed.acked.mono hbefore).snoc
  have hsocket : c.socket = true := hfed.socket (by simp [hstate])
  unfold Conn.handleData Conn.takeData
  rw [if_pos hlength, if_pos (by simp [Conn.setClientAck, hstate, hsocket])]
  refine ⟨hfed.clientSeq, ?_, hfed.pendingData, hfed.socket, fun _ => ⟨(hfed.opened hopen).1, ?_⟩,
    fun hseen => ?_, ?_, fun h => ?_⟩
  · exact hwritten ▸ prefix_append_of_drop hfed.within hnext
  · simpa [taken, Conn.setClientAck, Conn.call, Conn.send, hwritten, hunfinished] using hnumber
  · have hseen : c.clientFinSeen = true := hseen
    rw [hunfinished] at hseen
    cases hseen
  · simpa [taken, Conn.setClientAck, Conn.call, Conn.send, hwritten, hunfinished, acks] using hacks
  · have hconnecting : c.state = .connecting := h
    rw [hstate] at hconnecting
    cases hconnecting

theorem Moves.written_eq (h : Moves config c d) : written d.calls = written c.calls := by
  refine h.relates (R := fun c d => written d.calls = written c.calls) (fun _ => rfl)
    (fun _ _ _ hab hbe => hbe.trans hab) ?_
  intro a b hmove
  cases hmove with
  | chunk => rfl
  | fin => rfl
  | pause => exact (Beside.call a .pause rfl _).calls
  | resume => exact (Beside.call a .resume rfl _).calls

/-- Noting an acknowledgement, with what follows from it, leaves the client's side alone. -/
structure SameSide (c d : Conn) : Prop where
  isOpen : d.isOpen = c.isOpen
  clientSeq : d.clientSeq = c.clientSeq
  clientFinSeen : d.clientFinSeen = c.clientFinSeen
  clientFinSeq : d.clientFinSeq = c.clientFinSeq
  written : written d.calls = written c.calls

theorem noted_sameSide (config : Config) (c : Conn) (now : Nat) (segment : Segment) :
    SameSide c ((c.activeAt now).updatePeerWindowAndAck config segment) := by
  have hbeside := beside_notePeer c now segment
  cases hopen : (c.activeAt now).isOpen with
  | true =>
    have hmoves := updatePeerWindowAndAck_moves config hopen segment
    have hclient := Moves.sameClient hmoves
    refine ⟨?_, ?_, ?_, ?_, ?_⟩
    · rw [Moves.isOpen hmoves]
      exact isOpen_of_state (c.notePeer_sameStream now segment).state
    · rw [hclient.clientSeq, hbeside.clientSeq]
    · rw [hclient.clientFinSeen, hbeside.clientFinSeen]
    · rw [hclient.clientFinSeq, hbeside.clientFinSeq]
    · rw [Moves.written_eq hmoves, hbeside.calls]
  | false =>
    rw [updatePeerWindowAndAck_closed config hopen]
    exact ⟨rfl, rfl, rfl, rfl, rfl⟩

theorem Fed.handleSegment (hfed : Fed stream isn connected c) (hstate : c.state ≠ .closed)
    (now : Nat) {segment : Segment} (hfits : c.Fits stream segment) :
    Fed stream isn connected (c.handleSegment config now segment) := by
  have hnoted : Fed stream isn connected
      ((c.activeAt now).updatePeerWindowAndAck config segment) := hfed.noted now segment
  have hside := noted_sameSide config c now segment
  have hendsOn : (c.activeAt now).endsOn segment = c.endsOn segment := rfl
  have hkept := @updatePeerWindowAndAck_state config (c.activeAt now) segment
  unfold Conn.handleSegment
  dsimp only
  generalize (c.activeAt now).updatePeerWindowAndAck config segment = noted at *
  have hsameAgain : noted.finAgain segment = c.finAgain segment := by
    rw [Conn.finAgain, hside.clientFinSeen, hside.clientFinSeq]
    rfl
  split
  · exact hnoted
  split
  case isTrue hfin =>
    cases hagain : c.finAgain segment with
    | true =>
      -- a connecting connection has seen no FIN
      have hopen : c.isOpen = true := by
        cases hcase : c.state with
        | connecting =>
          have hnone := (hfed.connecting hcase).2
          simp only [Conn.finAgain, Bool.and_eq_true] at hagain
          simp [taken, hagain.1] at hnone
        | established => exact isOpen_of_state hcase
        | finWait => exact isOpen_of_state hcase
        | closed => exact absurd hcase hstate
      exact hnoted.finAgain (hside.isOpen.trans hopen) segment (hsameAgain.trans hagain)
    | false =>
      obtain ⟨hopen, hempty, hcarries⟩ := hfits.fin hfin hagain
      rw [hfed.clientSeq, ← hside.written] at hcarries
      exact hnoted.firstFin (hside.isOpen.trans hopen) (hsameAgain.trans hagain) hfin hempty
        hcarries
  case isFalse hfin =>
    have htaken : Fed stream isn connected (noted.handleData config segment) := by
      by_cases hdata : segment.data = []
      · rw [Conn.handleData, if_neg (by simp [hdata])]
        exact hnoted
      · obtain ⟨hestablished, hends, hcarries⟩ := hfits.data (by simpa using hfin) hdata
        rw [hfed.clientSeq, ← hside.written] at hcarries
        exact hnoted.data ((hkept (hendsOn.trans hends)).trans hestablished) hdata hcarries
    split
    · exact htaken.moves (syncServerSocketPause_moves config _)
    · exact htaken

theorem Fed.handleTCP (hfed : Fed stream isn connected c) (now : Nat) {segment : Segment}
    (hfits : c.FitsEvent stream (.segment now segment)) :
    Fed stream isn connected (c.handleTCP config now segment) := by
  unfold Conn.handleTCP
  split
  · exact hfed
  split
  · exact hfed.beside (beside_closeTCPConnection c)
  split
  case isTrue => exact hfed
  case isFalse hclosed hrst hsyn =>
    have hstate : c.state ≠ .closed := by simpa using hclosed
    exact hfed.handleSegment hstate now
      (hfits hstate (by simpa using hrst) (by simpa using hsyn))

theorem Fed.onConnect (hfed : Fed stream isn connected c) (hconnected : connected = false)
    (now : Nat) : Fed stream isn true (c.onConnect config now) := by
  unfold Conn.onConnect
  split
  case isTrue hclosed =>
    have hdestroy := hfed.beside (Beside.call c .destroy rfl c.serverSocketPaused)
    exact ⟨hdestroy.clientSeq, hdestroy.within, hdestroy.pendingData, hdestroy.socket,
      fun h => ⟨rfl, (hdestroy.opened h).2⟩, hdestroy.finSeen, hdestroy.acked, hdestroy.connecting⟩
  rename_i hclosed
  have hconnecting : c.state = .connecting := by
    have hnotOpen : ¬ c.isOpen = true := by
      intro hopen
      rw [(hfed.opened hopen).1] at hconnected
      cases hconnected
    cases hcase : c.state with
    | connecting => rfl
    | established => exact absurd (isOpen_of_state hcase) hnotOpen
    | finWait => exact absurd (isOpen_of_state hcase) hnotOpen
    | closed => simp [hcase] at hclosed
  obtain ⟨hnone, hzero⟩ := hfed.connecting hconnecting
  have hcalls : (c.establish config now).writePending.calls = c.calls := by
    change c.calls ++ c.pendingData.map .write = _
    rw [hfed.pendingData]
    simp
  have htaken : taken (c.establish config now).writePending = 0 := by
    rw [taken, hcalls]
    exact hzero
  have hacks : acks (c.establish config now).writePending.sent = [(isn + 1 + 0) % word] := by
    change acks (c.sent ++ [_]) = _
    rw [acks_append, hnone, hfed.clientSeq]
    simp [acks]
  refine ⟨hfed.clientSeq, hcalls ▸ hfed.within, rfl, fun _ => hfed.socket (by simp [hconnecting]),
    fun _ => ⟨rfl, ?_⟩, hcalls ▸ hfed.finSeen, ?_, fun h => by cases h⟩
  · rw [htaken]
    change (c.clientSeq + 1) % word = _
    rw [hfed.clientSeq, Nat.add_zero]
  · rw [htaken, hacks]
    exact Acknowledged.snoc ⟨[], List.Pairwise.nil, rfl, by simp⟩

theorem Fed.onData (hfed : Fed stream isn connected c) (now : Nat) (data : Bytes) :
    Fed stream isn connected (c.onData config now data) := by
  by_cases hstate : c.state = .closed
  · rw [Conn.onData, if_pos (by simp [hstate])]
    exact hfed
  · have hbuffer : Beside c (c.buffer now data) :=
      ⟨rfl, rfl, rfl, rfl, rfl, .inl ⟨rfl, rfl⟩, rfl, rfl⟩
    exact (hfed.beside hbuffer).moves (onData_moves config hstate now data)

theorem Fed.onEnd (hfed : Fed stream isn connected c) :
    Fed stream isn connected (c.onEnd config) := by
  by_cases hstate : c.state = .closed
  · rw [Conn.onEnd, if_pos (by simp [hstate])]
    exact hfed
  · have hend : Beside c c.noteEnd := ⟨rfl, rfl, rfl, rfl, rfl, .inl ⟨rfl, rfl⟩, rfl, rfl⟩
    exact (hfed.beside hend).moves (onEnd_moves config hstate)

theorem Fed.step {upstream : Upstream} (hfed : Fed stream isn upstream.connected c)
    {event : Event} (hallowed : upstream.allows event = true)
    (hfits : c.FitsEvent stream event) :
    Fed stream isn (upstream.note event).connected (c.step config event) := by
  cases event with
  | segment now segment => exact hfed.handleTCP now hfits
  | socket event =>
    cases event with
    | connect now => exact hfed.onConnect (by simpa [Upstream.allows] using hallowed) now
    | data now data => exact hfed.onData now data
    | eof => exact hfed.onEnd
    | error => exact hfed.beside (beside_onError config c)
    | timeout => exact hfed.beside (beside_onTimeout c)
    | close => exact hfed.beside (beside_onClose c)
    | linger => exact hfed.beside (beside_onLinger c)
  | cleanup now => exact hfed.beside (beside_onCleanup config c now)
  | stop => exact hfed.beside (beside_closeTCPConnection c)

theorem Fed.run {upstream : Upstream} {events : List Event}
    (hfed : Fed stream isn upstream.connected c) (horderly : upstream.Orderly events)
    (hfit : c.AllFit config stream events) :
    Fed stream isn (upstream.run events).connected (c.run config events) := by
  induction events generalizing c upstream with
  | nil => exact hfed
  | cons event rest ih => exact ih (hfed.step horderly.1 hfit.1) horderly.2 hfit.2

end Fed

def sampleData (tcpSeq : Nat) (data : Bytes) : Segment :=
  ⟨tcpSeq, 7001, 502, false, true, false, false, none, data⟩

def uploadEvents : List Event :=
  [.socket (.connect 1), .segment 2 (sampleData 1001 [1, 2]), .segment 3 (sampleData 1003 [3]),
    .segment 4 { sampleData 1004 [] with fin := true }]

def repeatedEvents : List Event :=
  [.socket (.connect 1), .segment 2 (sampleData 1001 [1, 2]), .segment 3 (sampleData 1003 [3]),
    .segment 4 (sampleData 1001 [1, 2])]

end Meshpn.Exit.Tcp
