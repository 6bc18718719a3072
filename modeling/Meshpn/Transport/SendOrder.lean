import Meshpn.Transport.SendRetry

/-!
With strict ordering the packets to a peer leave in the order they were
accepted. The invariant of a connection is a balance: what the peer's transports
took, followed by what waits, is what was accepted. It holds across every
refusal, drain and change of transports that leaves the peer one, and at the
start of a connection nothing waits, because a peer's queue is thrown away with
its last transport.
-/

namespace Meshpn.Transport.SendRetry

variable {Peer Flush : Type} [DecidableEq Peer]

/-- From `node` to `after`, what the transports of the peer took and what still
waits for it are what did before, followed by what was accepted meanwhile. -/
def Balanced (peer : Peer) (node after : Node Peer Flush)
    (accepted : List (Peer × Entry Flush)) : Prop :=
  forPeer peer after.handed ++ after.queue peer =
    forPeer peer node.handed ++ node.queue peer ++ forPeer peer accepted

theorem Balanced.of_same {peer : Peer} {node after : Node Peer Flush}
    (hhanded : forPeer peer after.handed = forPeer peer node.handed)
    (hqueue : after.queue peer = node.queue peer) : Balanced peer node after [] := by
  simp [Balanced, hhanded, hqueue]

theorem drainSendRetryQueue_balanced (node : Node Peer Flush) (peer other : Peer)
    (answers : List Bool) :
    Balanced peer node (node.drainSendRetryQueue other answers) [] := by
  unfold Node.drainSendRetryQueue
  split
  case h_1 => exact .of_same rfl rfl
  case h_2 => exact .of_same rfl rfl
  rename_i head rest hqueue
  obtain ⟨gone, hgone, hnode⟩ := node.drainLoop_spec other (head :: rest) answers
  simp only [hnode]
  by_cases hne : other = peer
  case pos =>
    subst hne
    have hleft : ∀ left : List (Entry Flush),
        (if left.length = 0 then none else some left : Option (List (Entry Flush))).getD [] =
          left := by
      intro left
      cases left with
      | nil => rfl
      | cons first tail => rfl
    have hbefore : node.queue other = head :: rest := by simp [Node.queue, hqueue]
    simp only [Balanced, Node.queue_setQueue_self, hleft, Node.setQueue_handed, forPeer_append,
      forPeer_map_self, forPeer_nil, List.append_nil, List.append_assoc, ← hgone, hbefore]
  case neg =>
    refine .of_same ?_ (Node.queue_setQueue_other _ hne _)
    simp [forPeer_map_other hne]

/-- With strict ordering an accepted packet is at the end of what was taken and
what waits, and a refused one is nowhere. -/
theorem sendStrict_balanced (node : Node Peer Flush) (peer other : Peer) (entry : Entry Flush)
    (answers : List Bool) :
    Balanced peer node (node.sendStrict other entry answers).2
      (if (node.sendStrict other entry answers).1 then [(other, entry)] else []) := by
  unfold Node.sendStrict
  by_cases hne : other = peer
  case pos =>
    subst hne
    split
    case isTrue hwaiting =>
      split
      case isTrue => exact .of_same rfl rfl
      case isFalse =>
        simp [Balanced, Node.queue_setQueue_self, forPeer_self, List.append_assoc]
    case isFalse hwaiting =>
      have hnone : node.queue other = [] := by
        cases hqueue : node.queue other with
        | nil => rfl
        | cons head rest => simp [hqueue] at hwaiting
      split
      case isTrue => simp [Balanced, Node.hand, Node.queue, forPeer_self] at hnone ⊢; simp [hnone]
      case isFalse => simp [Balanced, Node.queue_setQueue_self, hnone, forPeer_self]
  case neg =>
    have hother := forPeer_other hne entry
    split
    case isTrue =>
      split
      case isTrue => exact .of_same rfl rfl
      case isFalse => simp [Balanced, Node.queue_setQueue_other _ hne, hother]
    case isFalse =>
      split
      case isTrue => simp [Balanced, Node.hand, Node.queue, hother]
      case isFalse => simp [Balanced, Node.queue_setQueue_other _ hne, hother]

theorem transportSendWithRetry_balanced (node : Node Peer Flush)
    (hstrict : node.strictTransportOrdering = true) (peer other : Peer) (entry : Entry Flush)
    (answers : List Bool) :
    Balanced peer node (node.transportSendWithRetry other entry answers).2
      (if (node.transportSendWithRetry other entry answers).1 then [(other, entry)] else []) := by
  unfold Node.transportSendWithRetry
  rw [if_pos hstrict]
  split
  case isTrue => exact sendStrict_balanced node peer other entry answers
  case isFalse => exact .of_same rfl rfl

theorem Manager.peerDisconnected_emits (manager : Manager Peer) (type : TransportType)
    (peer : Peer) (hemits : (manager.peerDisconnected type peer).2 = true) :
    (manager.peerDisconnected type peer).1.isConnected peer = false := by
  unfold Manager.peerDisconnected at hemits ⊢
  split
  case h_1 hnone => simp [Manager.isConnected, hnone]
  rename_i types htypes
  simp only [htypes] at hemits ⊢
  split
  case isTrue => simp [Manager.isConnected, Manager.setPeer]
  case isFalse hleft => rw [if_neg hleft] at hemits; cases hemits

theorem transportDown_balanced (node : Node Peer Flush) (type : TransportType)
    (peer other : Peer)
    (hconnected : (node.step (.transportDown type other)).1.manager.isConnected peer = true) :
    Balanced peer node (node.step (.transportDown type other)).1
      (node.step (.transportDown type other)).2 := by
  simp only [Node.step] at hconnected ⊢
  split
  case h_1 manager hdown =>
    by_cases hne : other = peer
    case pos =>
      subst hne
      have hgone := node.manager.peerDisconnected_emits type other (by rw [hdown])
      rw [hdown] at hgone hconnected
      exact absurd hconnected (by simpa [Node.clearSendRetryQueue] using hgone)
    case neg => exact .of_same rfl (Node.queue_setQueue_other _ hne _)
  case h_2 => exact .of_same rfl rfl

theorem step_balanced (node : Node Peer Flush) (hstrict : node.strictTransportOrdering = true)
    (peer : Peer) (event : Event Peer Flush)
    (hconnected : (node.step event).1.manager.isConnected peer = true) :
    Balanced peer node (node.step event).1 (node.step event).2 := by
  cases event with
  | send other entry answers =>
    have hsend := transportSendWithRetry_balanced node hstrict peer other entry answers
    simp only [Node.step]
    split
    case h_1 after hcall => rwa [hcall] at hsend
    case h_2 after hcall => rwa [hcall] at hsend
  | bufferLow other answers => exact drainSendRetryQueue_balanced node peer other answers
  | transportUp type other => exact .of_same rfl rfl
  | transportDown type other => exact transportDown_balanced node type peer other hconnected

theorem step_strict (node : Node Peer Flush) (event : Event Peer Flush) :
    (node.step event).1.strictTransportOrdering = node.strictTransportOrdering := by
  cases event with
  | send peer entry answers =>
    have hsend : (node.transportSendWithRetry peer entry answers).2.strictTransportOrdering =
        node.strictTransportOrdering := by
      simp only [Node.transportSendWithRetry, Node.sendStrict, Node.sendRelaxed, Node.hand]
      repeat' split
      all_goals rfl
    simp only [Node.step]
    split
    case h_1 after hcall => rwa [hcall] at hsend
    case h_2 after hcall => rwa [hcall] at hsend
  | bufferLow peer answers =>
    simp only [Node.step, Node.drainSendRetryQueue]
    split
    case h_1 => rfl
    case h_2 => rfl
    rename_i head rest _
    obtain ⟨gone, _, hnode⟩ := node.drainLoop_spec peer (head :: rest) answers
    simp [hnode]
  | transportUp type peer => rfl
  | transportDown type peer =>
    simp only [Node.step]
    split
    case h_1 => rfl
    case h_2 => rfl

@[simp] theorem run_nil (node : Node Peer Flush) : node.run [] = (node, []) := rfl

theorem run_cons (node : Node Peer Flush) (event : Event Peer Flush)
    (events : List (Event Peer Flush)) :
    node.run (event :: events) =
      (((node.step event).1.run events).1,
        (node.step event).2 ++ ((node.step event).1.run events).2) := rfl

theorem run_strict (node : Node Peer Flush) (events : List (Event Peer Flush)) :
    (node.run events).1.strictTransportOrdering = node.strictTransportOrdering := by
  induction events generalizing node with
  | nil => rfl
  | cons event events ih =>
    rw [run_cons]
    exact (ih _).trans (step_strict node event)

def StaysConnected (peer : Peer) : Node Peer Flush → List (Event Peer Flush) → Prop
  | _, [] => True
  | node, event :: events =>
    (node.step event).1.manager.isConnected peer = true ∧
      StaysConnected peer (node.step event).1 events

theorem run_balanced (node : Node Peer Flush) (hstrict : node.strictTransportOrdering = true)
    (peer : Peer) (events : List (Event Peer Flush)) (hstays : StaysConnected peer node events) :
    Balanced peer node (node.run events).1 (node.run events).2 := by
  induction events generalizing node with
  | nil => exact .of_same rfl rfl
  | cons event events ih =>
    have hhead := step_balanced node hstrict peer event hstays.1
    have htail := ih (node.step event).1 ((step_strict node event).trans hstrict) hstays.2
    simp only [Balanced, run_cons, forPeer_append] at hhead htail ⊢
    rw [htail, hhead, List.append_assoc]

def Idle (peer : Peer) (node : Node Peer Flush) : Prop :=
  node.manager.isConnected peer = false → node.queue peer = []

theorem transportSendWithRetry_queue_other (node : Node Peer Flush) {peer other : Peer}
    (hne : other ≠ peer) (entry : Entry Flush) (answers : List Bool) :
    (node.transportSendWithRetry other entry answers).2.queue peer = node.queue peer := by
  simp only [Node.transportSendWithRetry, Node.sendStrict, Node.sendRelaxed]
  repeat' split
  all_goals simp [Node.queue_setQueue_other _ hne]

theorem drainSendRetryQueue_queue_other (node : Node Peer Flush) {peer other : Peer}
    (hne : other ≠ peer) (answers : List Bool) :
    (node.drainSendRetryQueue other answers).queue peer = node.queue peer := by
  unfold Node.drainSendRetryQueue
  split
  case h_1 => rfl
  case h_2 => rfl
  rename_i head rest _
  obtain ⟨gone, _, hnode⟩ := node.drainLoop_spec other (head :: rest) answers
  simp only [hnode]
  exact Node.queue_setQueue_other _ hne _

theorem transportSendWithRetry_manager (node : Node Peer Flush) (peer : Peer)
    (entry : Entry Flush) (answers : List Bool) :
    (node.transportSendWithRetry peer entry answers).2.manager = node.manager := by
  simp only [Node.transportSendWithRetry, Node.sendStrict, Node.sendRelaxed, Node.hand]
  repeat' split
  all_goals rfl

theorem drainSendRetryQueue_manager (node : Node Peer Flush) (peer : Peer)
    (answers : List Bool) : (node.drainSendRetryQueue peer answers).manager = node.manager := by
  unfold Node.drainSendRetryQueue
  split
  case h_1 => rfl
  case h_2 => rfl
  rename_i head rest _
  obtain ⟨gone, _, hnode⟩ := node.drainLoop_spec peer (head :: rest) answers
  simp [hnode]

theorem drainSendRetryQueue_idle {node : Node Peer Flush} {peer : Peer} (answers : List Bool)
    (hqueue : node.queue peer = []) : node.drainSendRetryQueue peer answers = node := by
  unfold Node.drainSendRetryQueue
  split
  case h_1 => rfl
  case h_2 => rfl
  case h_3 head rest hsome => simp [Node.queue, hsome] at hqueue

theorem isConnected_setPeer_other (manager : Manager Peer) {peer other : Peer}
    (hne : other ≠ peer) (types : Option (List TransportType)) :
    (manager.setPeer other types).isConnected peer = manager.isConnected peer := by
  simp [Manager.isConnected, Manager.setPeer, Function.update_of_ne hne.symm]

theorem transportDown_idle (node : Node Peer Flush) (type : TransportType) (peer other : Peer)
    (hidle : Idle peer node) : Idle peer (node.step (.transportDown type other)).1 := by
  by_cases hne : other = peer
  case pos =>
    subst hne
    simp only [Node.step]
    split
    case h_1 => exact fun _ => Node.queue_setQueue_self _ _ _
    rename_i manager hdown
    intro hdead
    unfold Manager.peerDisconnected at hdown
    split at hdown
    case h_1 => cases hdown
    rename_i types htypes
    split at hdown
    case isTrue => cases hdown
    rename_i hleft
    cases hdown
    simp only [Manager.isConnected, Manager.setPeer, Function.update_self,
      decide_eq_false_iff_not, Nat.not_lt, Nat.le_zero] at hdead
    exact absurd hdead hleft
  case neg =>
    have hmanager : (node.manager.peerDisconnected type other).1.isConnected peer =
        node.manager.isConnected peer := by
      simp only [Manager.peerDisconnected]
      repeat' split
      all_goals first | rfl | exact isConnected_setPeer_other _ hne _
    simp only [Node.step]
    split
    case h_1 manager hdown =>
      rw [hdown] at hmanager
      exact fun hdead => (Node.queue_setQueue_other _ hne _).trans (hidle (hmanager ▸ hdead))
    case h_2 manager hdown =>
      rw [hdown] at hmanager
      exact fun hdead => hidle (hmanager ▸ hdead)

theorem step_idle (node : Node Peer Flush) (peer : Peer) (event : Event Peer Flush)
    (hidle : Idle peer node) : Idle peer (node.step event).1 := by
  cases event with
  | send other entry answers =>
    have hsend : Idle peer (node.transportSendWithRetry other entry answers).2 := by
      intro hdead
      rw [transportSendWithRetry_manager] at hdead
      by_cases hne : other = peer
      case pos =>
        subst hne
        simpa [Node.transportSendWithRetry, hdead] using hidle hdead
      case neg =>
        rw [transportSendWithRetry_queue_other node hne]
        exact hidle hdead
    simp only [Node.step]
    split
    case h_1 after hcall => rwa [hcall] at hsend
    case h_2 after hcall => rwa [hcall] at hsend
  | bufferLow other answers =>
    intro hdead
    rw [Node.step, drainSendRetryQueue_manager] at hdead
    by_cases hne : other = peer
    case pos =>
      subst hne
      rw [Node.step, drainSendRetryQueue_idle answers (hidle hdead)]
      exact hidle hdead
    case neg =>
      rw [Node.step, drainSendRetryQueue_queue_other node hne]
      exact hidle hdead
  | transportUp type other =>
    intro hdead
    by_cases hne : other = peer
    case pos =>
      subst hne
      have hup : (node.manager.peerConnected type other).isConnected other = true := by
        simp only [Manager.isConnected, Manager.peerConnected, Manager.setPeer,
          Function.update_self, decide_eq_true_eq]
        split
        case isTrue hmember => exact List.length_pos_of_mem hmember
        case isFalse => simp
      exact absurd hdead (by simp [Node.step, hup])
    case neg => exact hidle ((isConnected_setPeer_other _ hne _).symm.trans hdead)
  | transportDown type other => exact transportDown_idle node type peer other hidle

theorem run_idle (node : Node Peer Flush) (peer : Peer) (events : List (Event Peer Flush))
    (hidle : Idle peer node) : Idle peer (node.run events).1 := by
  induction events generalizing node with
  | nil => exact hidle
  | cons event events ih => exact ih _ (step_idle node peer event hidle)

/-- The node when a peer is about to connect, with the log of that connection opened. -/
def Node.opened (node : Node Peer Flush) : Node Peer Flush := { node with handed := [] }

theorem waiting_not_overtaken (node : Node Peer Flush)
    (hstrict : node.strictTransportOrdering = true) (peer : Peer) (entry : Entry Flush)
    (answers : List Bool) (hwaiting : node.queue peer ≠ []) :
    (node.transportSendWithRetry peer entry answers).2.handed = node.handed := by
  have hlength : 0 < (node.queue peer).length := List.length_pos_iff.mpr hwaiting
  simp only [Node.transportSendWithRetry, Node.sendStrict, hstrict, if_true, if_pos hlength]
  repeat' split
  all_goals rfl

/-- Strict ordering, over every connection of a peer in every run of a node: what
its transports took is a prefix of what was accepted for it, in call order, the
rest of it waits, and no packet is handed over ahead of a waiting one. -/
theorem strict_send_fifo (maxPackets : Nat) (transports preferredOrder : List TransportType)
    (before events : List (Event Peer Flush)) (peer : Peer) (node : Node Peer Flush)
    (hnode : node = ((Node.init true maxPackets transports preferredOrder).run before).1)
    (hbefore : node.manager.isConnected peer = false)
    (hstays : StaysConnected peer node.opened events) :
    forPeer peer (node.opened.run events).1.handed <+: forPeer peer (node.opened.run events).2 ∧
      forPeer peer (node.opened.run events).1.handed ++ (node.opened.run events).1.queue peer =
        forPeer peer (node.opened.run events).2 ∧
      ∀ entry answers, (node.opened.run events).1.queue peer ≠ [] →
        ((node.opened.run events).1.transportSendWithRetry peer entry answers).2.handed =
          (node.opened.run events).1.handed := by
  have hstrict : node.opened.strictTransportOrdering = true := by
    rw [hnode]
    exact run_strict _ before
  have hidle : Idle peer node := by
    rw [hnode]
    exact run_idle _ peer before fun _ => rfl
  have hqueue : node.opened.queue peer = [] := hidle hbefore
  have hlog : node.opened.handed = [] := rfl
  have hbalanced := run_balanced node.opened hstrict peer events hstays
  have hall : forPeer peer (node.opened.run events).1.handed ++
      (node.opened.run events).1.queue peer = forPeer peer (node.opened.run events).2 := by
    simpa [Balanced, hqueue, hlog] using hbalanced
  refine ⟨⟨_, hall⟩, hall, fun entry answers hwaiting => ?_⟩
  exact waiting_not_overtaken _ ((run_strict _ events).trans hstrict) peer entry answers hwaiting

def sampleNode : Node Nat Unit :=
  Node.init true 2 [.webrtc, .websocket] [.webrtc, .quic, .websocket]

/-- Peer 7 is connected by both transports. Its first packet goes by the second
one, the next is refused by both, two more come while it waits, of which the last
finds the queue full, and the drain moves one of the two waiting packets. -/
def sampleEvents : List (Event Nat Unit) :=
  [.transportUp .webrtc 7, .transportUp .websocket 7,
    .send 7 ⟨[1], some ()⟩ [false, true],
    .send 7 ⟨[2], none⟩ [false, false],
    .send 7 ⟨[3], some ()⟩ [true],
    .send 7 ⟨[4], none⟩ [true],
    .bufferLow 7 [true]]

/-- The second packet is taken before the third, which still waits. -/
theorem sample_send_fifo :
    forPeer 7 (sampleNode.opened.run sampleEvents).2 =
        [⟨[1], some ()⟩, ⟨[2], none⟩, ⟨[3], some ()⟩] ∧
      forPeer 7 (sampleNode.opened.run sampleEvents).1.handed <+:
        forPeer 7 (sampleNode.opened.run sampleEvents).2 :=
  ⟨by decide, (strict_send_fifo 2 [.webrtc, .websocket] [.webrtc, .quic, .websocket] []
    sampleEvents 7 sampleNode rfl (by decide) (by simp [StaysConnected, sampleEvents]; decide)).1⟩

end Meshpn.Transport.SendRetry
