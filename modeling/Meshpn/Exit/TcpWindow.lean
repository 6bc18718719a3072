import Meshpn.Exit.TcpDrift

/-!
The count of segments in flight. A segment raises it by one, whatever its size;
an acknowledgement lowers it by the bytes acknowledged since the last one,
divided by the size of a full segment, and the first acknowledgement does not
lower it at all. The count reaches zero with the last acknowledgement in the runs
whose acknowledgements cover no more segments than that division gives, and the
FIN of a server that is done then goes out. One acknowledgement for several short
segments leaves the count raised for good.
-/

namespace Meshpn.Exit.Tcp

open Meshpn.Lib

/-- Where the data of each data packet end, the first packet starting at `start`. -/
def dataEnds : Nat → List Packet → List Nat
  | _, [] => []
  | start, packet :: rest =>
    if packet.data = [] then dataEnds (start + packet.advance) rest
    else (start + packet.advance) :: dataEnds (start + packet.advance) rest

namespace Conn

/-- The place in the server's stream that an acknowledgement number stands for, the
last one not after the next byte to send. -/
def position (c : Conn) (ack : Nat) : Nat := c.serverSeq - ackDelta ack (c.serverSeq % word)

/-- The data segments that wait for an acknowledgement beyond `acked`. -/
def outstanding (isn acked : Nat) (c : Conn) : Nat :=
  (dataEnds isn c.sent).countP fun position => acked < position

/-- The data segments that an acknowledgement covers and those before it did not. -/
def newlyCovered (isn acked : Nat) (c : Conn) (segment : Segment) : Nat :=
  (dataEnds isn c.sent).countP fun position =>
    acked < position && position ≤ c.position segment.tcpAck

def ackedAfter (c : Conn) (acked : Nat) : Event → Nat
  | .segment _ segment =>
    if c.hears segment && segment.ack then max acked (c.position segment.tcpAck) else acked
  | _ => acked

/-- An acknowledgement covers no data segment, or no more of them than full segments
fit into the bytes acknowledged since the last one. -/
def ackCovered (isn acked : Nat) (c : Conn) (segment : Segment) : Bool :=
  c.newlyCovered isn acked segment == 0 ||
    c.lastPeerAck.any fun prev =>
      0 < ackDelta prev segment.tcpAck && ackDelta prev segment.tcpAck < 0x80000000 &&
        c.newlyCovered isn acked segment ≤ max 1 ((ackDelta prev segment.tcpAck + mss - 1) / mss)

def covered (isn acked : Nat) (c : Conn) : Event → Bool
  | .segment _ segment => !(c.hears segment && segment.ack) || c.ackCovered isn acked segment
  | _ => true

def acked (config : Config) : Conn → Nat → List Event → Nat
  | _, reached, [] => reached
  | c, reached, event :: rest =>
    (c.step config event).acked config (c.ackedAfter reached event) rest

def Covered (config : Config) (isn : Nat) : Conn → Nat → List Event → Prop
  | _, _, [] => True
  | c, reached, event :: rest =>
    c.covered isn reached event = true ∧
      (c.step config event).Covered config isn (c.ackedAfter reached event) rest

end Conn

theorem dataEnds_append (start : Nat) (first second : List Packet) :
    dataEnds start (first ++ second) =
      dataEnds start first ++ dataEnds (start + advanceOf first) second := by
  induction first generalizing start with
  | nil => rfl
  | cons packet rest ih =>
    have hstart : start + advanceOf (packet :: rest) = start + packet.advance + advanceOf rest := by
      simp [advanceOf]
      omega
    simp only [List.cons_append, dataEnds, ih, hstart]
    split <;> rfl

theorem dataEnds_bare {packets : List Packet} (h : ∀ packet ∈ packets, packet.Bare)
    (start : Nat) : dataEnds start packets = [] := by
  induction packets generalizing start with
  | nil => rfl
  | cons packet rest ih =>
    rw [dataEnds, if_pos (h packet List.mem_cons_self).1]
    exact ih (fun p hp => h p (List.mem_cons_of_mem _ hp)) _

theorem dataEnds_le {start : Nat} {packets : List Packet} :
    ∀ position ∈ dataEnds start packets, position ≤ start + advanceOf packets := by
  induction packets generalizing start with
  | nil => simp [dataEnds]
  | cons packet rest ih =>
    have hsum : start + advanceOf (packet :: rest) = start + packet.advance + advanceOf rest := by
      simp [advanceOf]
      omega
    intro position hposition
    rw [hsum]
    unfold dataEnds at hposition
    split at hposition
    · exact ih position hposition
    rcases List.mem_cons.mp hposition with rfl | h
    · omega
    · exact ih position h

theorem countP_mark (positions : List Nat) (low high : Nat) :
    positions.countP (fun p => low < p) =
      positions.countP (fun p => max low high < p) +
        positions.countP (fun p => low < p && p ≤ high) := by
  induction positions with
  | nil => rfl
  | cons position rest ih =>
    simp only [List.countP_cons, ih, decide_eq_true_eq, Bool.and_eq_true]
    split <;> split <;> split <;> omega

/-- The count in flight never exceeds the data segments that wait for an
acknowledgement, and the packets account for the sequence number. -/
structure Paced (isn acked : Nat) (c : Conn) : Prop where
  serverSeq : c.serverSeq = isn + advanceOf c.sent
  acked_le : acked ≤ c.serverSeq
  pending_le : c.pendingResponses ≤ c.outstanding isn acked
  finWait : c.state = .finWait → c.finSent = true

theorem init_paced (segment : Segment) (isn now : Nat) : Paced isn isn (.init segment isn now) :=
  ⟨rfl, Nat.le_refl _, Nat.zero_le _, fun h => by cases h⟩

section Paced

variable {config : Config} {isn acked : Nat} {c d : Conn}

theorem outstanding_eq_zero (hpaced : Paced isn acked c) (hacked : acked = c.serverSeq) :
    c.outstanding isn acked = 0 := by
  rw [Conn.outstanding, List.countP_eq_zero]
  intro position hposition
  have hle := dataEnds_le position hposition
  rw [← hpaced.serverSeq] at hle
  simp
  omega

theorem Paced.pending_eq_zero (hpaced : Paced isn acked c) (hacked : acked = c.serverSeq) :
    c.pendingResponses = 0 := by
  have h := hpaced.pending_le
  rw [outstanding_eq_zero hpaced hacked] at h
  omega

theorem Paced.aside (hpaced : Paced isn acked c) (h : Aside c d) : Paced isn acked d := by
  obtain ⟨packets, hsent, hbare⟩ := h.sent
  refine ⟨?_, ?_, ?_, ?_⟩
  · rw [h.serverSeq, hsent, advanceOf_append, advanceOf_bare hbare]
    exact hpaced.serverSeq
  · rw [h.serverSeq]
    exact hpaced.acked_le
  · rw [h.pendingResponses, Conn.outstanding, hsent, dataEnds_append, dataEnds_bare hbare,
      List.append_nil]
    exact hpaced.pending_le
  · intro hstate
    rw [h.finSent]
    rcases h.state with hsame | hclosed
    · exact hpaced.finWait (hsame ▸ hstate)
    · rw [hclosed] at hstate
      cases hstate

theorem Paced.packet (hpaced : Paced isn acked c) {packet : Packet}
    (hsent : d.sent = c.sent ++ [packet]) (hseq : d.serverSeq = c.serverSeq + packet.advance)
    (hpending : d.pendingResponses ≤
      c.pendingResponses + if acked < d.serverSeq ∧ packet.data ≠ [] then 1 else 0)
    (hstate : d.state = .finWait → d.finSent = true) : Paced isn acked d := by
  have htotal : advanceOf [packet] = packet.advance := by simp [advanceOf]
  refine ⟨?_, ?_, ?_, hstate⟩
  · rw [hseq, hsent, advanceOf_append, htotal, hpaced.serverSeq]
    omega
  · have := hpaced.acked_le
    omega
  · refine Nat.le_trans hpending ?_
    rw [Conn.outstanding, hsent, dataEnds_append, List.countP_append, ← hpaced.serverSeq]
    refine Nat.add_le_add hpaced.pending_le ?_
    by_cases hdata : packet.data = []
    · simp [hdata]
    · simp only [dataEnds, if_neg hdata, List.countP_cons, List.countP_nil, ← hseq]
      simp [hdata]

theorem Paced.move (hpaced : Paced isn acked c) (h : Move config c d) : Paced isn acked d := by
  cases h with
  | chunk hopen hbacklog hroom =>
    have htake : c.serverReadBacklog.take mss ≠ [] := by
      cases hcase : c.serverReadBacklog with
      | nil => exact absurd hcase hbacklog
      | cons byte rest => simp [mss]
    have hlength : 0 < (c.serverReadBacklog.take mss).length := List.length_pos_iff.mpr htake
    have hle := hpaced.acked_le
    have hmore : acked < c.serverSeq + (c.serverReadBacklog.take mss).length := by omega
    refine hpaced.packet rfl ?_ ?_ hpaced.finWait
    · simp only [Packet.advance, Conn.sendChunk]
      split <;> simp
    · change c.pendingResponses + 1 ≤ c.pendingResponses +
        if acked < c.serverSeq + (c.serverReadBacklog.take mss).length ∧
          c.serverReadBacklog.take mss ≠ [] then 1 else 0
      rw [if_pos (And.intro hmore htake)]
  | fin hdue =>
    refine hpaced.packet rfl ?_ ?_ (fun _ => rfl)
    · simp [Packet.advance, Conn.sendServerFin]
    · exact Nat.le_add_right _ _
  | pause => exact ⟨hpaced.serverSeq, hpaced.acked_le, hpaced.pending_le, hpaced.finWait⟩
  | resume => exact ⟨hpaced.serverSeq, hpaced.acked_le, hpaced.pending_le, hpaced.finWait⟩

theorem Paced.drift (hpaced : Paced isn acked c) (h : Drift config c d) : Paced isn acked d :=
  h.keeps (fun _ _ hmove hc => Paced.move hc hmove) (fun _ _ haside hc => Paced.aside hc haside)
    hpaced

theorem position_le (c : Conn) (ack : Nat) : c.position ack ≤ c.serverSeq := Nat.sub_le _ _

theorem pending_le_of_covered {segment : Segment} (hpaced : Paced isn acked c)
    (hcovered : c.ackCovered isn acked segment = true) :
    c.pendingResponses - c.released segment ≤
      c.outstanding isn (max acked (c.position segment.tcpAck)) := by
  have hsplit := countP_mark (dataEnds isn c.sent) acked (c.position segment.tcpAck)
  have hpending := hpaced.pending_le
  simp only [Conn.outstanding] at hpending ⊢
  simp only [Conn.ackCovered, Conn.newlyCovered, Bool.or_eq_true, beq_iff_eq] at hcovered
  rcases hcovered with hnone | hsome
  · omega
  obtain ⟨prev, hprev, hcount⟩ := (Option.any_eq_true _ _).mp hsome
  simp only [Bool.and_eq_true, decide_eq_true_eq] at hcount
  obtain ⟨hrange, hcount⟩ := hcount
  replace hcount := of_decide_eq_true hcount
  simp only [Conn.released, hprev, if_pos hrange]
  generalize max 1 ((Conn.ackDelta prev segment.tcpAck + mss - 1) / mss) = full at hcount ⊢
  omega

theorem Paced.notePeer {segment : Segment} (hpaced : Paced isn acked c)
    (hcovered : segment.ack = true → c.ackCovered isn acked segment = true) :
    Paced isn (if segment.ack then max acked (c.position segment.tcpAck) else acked)
      (c.notePeer segment) := by
  unfold Conn.notePeer
  split
  case isTrue hack =>
    refine ⟨hpaced.serverSeq, ?_, pending_le_of_covered hpaced (hcovered hack), hpaced.finWait⟩
    have := hpaced.acked_le
    have := position_le c segment.tcpAck
    dsimp only
    omega
  case isFalse => exact ⟨hpaced.serverSeq, hpaced.acked_le, hpaced.pending_le, hpaced.finWait⟩

theorem Paced.establish (hpaced : Paced isn acked c) (now : Nat) :
    Paced isn acked (c.establish config now) := by
  refine hpaced.packet rfl ?_ (Nat.le_add_right _ _) (fun h => by cases h)
  simp [Packet.advance, Conn.establish]

theorem Paced.enter {event : Event} (hpaced : Paced isn acked c)
    (hcovered : c.covered isn acked event = true) :
    Paced isn (c.ackedAfter acked event) (c.enter config event) := by
  unfold Conn.enter
  split
  case h_1 now segment =>
    simp only [Conn.ackedAfter, Conn.covered] at hcovered ⊢
    cases hheard : c.hears segment
    case false => simpa [hheard] using hpaced
    case true =>
      simp only [hheard, Bool.true_and, Bool.or_eq_true, Bool.not_eq_true', if_true] at hcovered ⊢
      have hactive : Paced isn acked (c.activeAt now) :=
        ⟨hpaced.serverSeq, hpaced.acked_le, hpaced.pending_le, hpaced.finWait⟩
      refine hactive.notePeer ?_
      intro hack
      rcases hcovered with h | h
      · rw [hack] at h
        cases h
      · exact h
  case h_2 now =>
    split
    · exact hpaced
    · exact hpaced.establish now
  case h_3 =>
    split
    · exact hpaced
    · exact ⟨hpaced.serverSeq, hpaced.acked_le, hpaced.pending_le, hpaced.finWait⟩
  case h_4 =>
    split
    · exact hpaced
    · exact ⟨hpaced.serverSeq, hpaced.acked_le, hpaced.pending_le, hpaced.finWait⟩
  case h_5 hsegment hconnect hdata heof =>
    have hsame : c.ackedAfter acked event = acked := by
      unfold Conn.ackedAfter
      split
      · exact absurd rfl (hsegment _ _)
      · rfl
    rw [hsame]
    exact hpaced

theorem Paced.step {event : Event} (hpaced : Paced isn acked c)
    (hcovered : c.covered isn acked event = true) :
    Paced isn (c.ackedAfter acked event) (c.step config event) :=
  (hpaced.enter hcovered).drift (step_drift config c event)

theorem Paced.run {events : List Event} (hpaced : Paced isn acked c)
    (hcovered : c.Covered config isn acked events) :
    Paced isn (c.acked config acked events) (c.run config events) := by
  induction events generalizing c acked with
  | nil => exact hpaced
  | cons event rest ih => exact ih (hpaced.step hcovered.1) hcovered.2

end Paced

section Fin

variable {config : Config} {c d : Conn}

theorem Drift.finSent (h : Drift config c d) (hc : c.finSent = true) : d.finSent = true := by
  refine h.keeps (P := fun c => c.finSent = true) ?_ ?_ hc
  · intro a b hmove ha
    cases hmove with
    | chunk => exact ha
    | fin => rfl
    | pause => exact ha
    | resume => exact ha
  · intro a b haside ha
    rw [haside.finSent]
    exact ha

theorem sendChunks_of_empty (room : Nat) (hbacklog : c.serverReadBacklog = []) :
    c.sendChunks config room = c := by
  cases room with
  | zero => rfl
  | succ room => rw [Conn.sendChunks, if_pos hbacklog]

/-- With an empty backlog and nothing in flight the end of the server's data sends
the FIN, if it has not gone out already. -/
theorem flush_finSent (hopen : c.isOpen = true) (hfinWait : c.state = .finWait → c.finSent = true)
    (heof : c.eofFromServer = true) (hbacklog : c.serverReadBacklog = [])
    (hpending : c.pendingResponses = 0) : (c.flushServerReadBacklog config).finSent = true := by
  rw [Conn.flushServerReadBacklog, if_pos hopen, sendChunks_of_empty _ hbacklog]
  unfold Conn.maybeSendServerFin
  split
  case isTrue => rfl
  rename_i hdue
  simp only [Conn.isOpen, Bool.or_eq_true, beq_iff_eq] at hopen
  rcases hopen with hestablished | hwait
  · simpa [Conn.finDue, heof, hestablished, hbacklog, hpending] using hdue
  · exact hfinWait hwait

theorem ackDelta_self {ack : Nat} : Conn.ackDelta ack ack = 0 := by
  rw [Conn.ackDelta, Nat.add_sub_cancel_left, Nat.mod_self]

theorem position_serverSeq (c : Conn) : c.position (c.serverSeq % word) = c.serverSeq := by
  rw [Conn.position, ackDelta_self, Nat.sub_zero]

theorem Paced.fin_on_ack {isn acked : Nat} (hpaced : Paced isn acked c) {segment : Segment}
    (hheard : c.hears segment = true) (hack : segment.ack = true)
    (hcover : c.ackCovered isn acked segment = true)
    (hlast : segment.tcpAck = c.serverSeq % word) (heof : c.eofFromServer = true)
    (hbacklog : c.serverReadBacklog = []) (now : Nat) :
    (c.handleTCP config now segment).finSent = true := by
  obtain ⟨hopen, -, -⟩ := hears_iff.mp hheard
  have hactive : Paced isn acked (c.activeAt now) :=
    ⟨hpaced.serverSeq, hpaced.acked_le, hpaced.pending_le, hpaced.finWait⟩
  have hnoted := hactive.notePeer (fun _ => hcover)
  have hsame := c.notePeer_sameStream now segment
  have hreached : (if segment.ack then max acked ((c.activeAt now).position segment.tcpAck)
      else acked) = ((c.activeAt now).notePeer segment).serverSeq := by
    have hposition : (c.activeAt now).position segment.tcpAck = c.serverSeq :=
      hlast ▸ position_serverSeq c
    have hle := hpaced.acked_le
    rw [if_pos hack, hposition, hsame.serverSeq]
    omega
  have hflush : (((c.activeAt now).notePeer segment).flushServerReadBacklog config).finSent =
      true := by
    refine flush_finSent ?_ hnoted.finWait ?_ ?_ (hnoted.pending_eq_zero hreached)
    · rw [Conn.isOpen, hsame.state]
      exact hopen
    · rw [hsame.eofFromServer, heof]
    · rw [hsame.serverReadBacklog, hbacklog]
  rw [handleTCP_of_hears config c hheard]
  refine Drift.finSent (handleSegment_drift config c now segment ?_) hflush
  rw [Conn.updatePeerWindowAndAck, if_pos (show (c.activeAt now).isOpen = true from hopen)]
  exact (Drift.refl _).moves (syncServerSocketPause_moves config _)

theorem Paced.fin_on_end {isn acked : Nat} (hpaced : Paced isn acked c)
    (hreached : acked = c.serverSeq) (hopen : c.isOpen = true)
    (hbacklog : c.serverReadBacklog = []) : (c.onEnd config).finSent = true := by
  have hflush : (c.noteEnd.flushServerReadBacklog config).finSent = true :=
    flush_finSent hopen hpaced.finWait rfl hbacklog (hpaced.pending_eq_zero hreached)
  have hrest : Drift config (c.noteEnd.flushServerReadBacklog config) (c.onEnd config) := by
    rw [Conn.onEnd, if_neg (by simpa using state_ne_closed_of_isOpen hopen)]
    exact ((Drift.refl _).moves (maybeSendServerFin_moves config _)).moves
      (syncServerSocketPause_moves config _)
  exact hrest.finSent hflush

end Fin

def sampleAck (tcpAck : Nat) : Segment := ⟨1001, tcpAck, 502, false, true, false, false, none, []⟩

def steadyEvents : List Event :=
  [.socket (.connect 1), .segment 2 (sampleAck 7001), .socket (.data 3 [1]),
    .segment 4 (sampleAck 7002), .socket (.data 5 [2, 3]), .segment 6 (sampleAck 7004)]

/-- Three short segments, acknowledged at once, of a server that is then done. -/
def shortEvents : List Event :=
  [.socket (.connect 1), .segment 2 (sampleAck 7001), .socket (.data 3 [1]),
    .socket (.data 3 [2]), .socket (.data 3 [3]), .socket .eof, .segment 4 (sampleAck 7004)]

end Meshpn.Exit.Tcp
