import Mathlib.Logic.Function.Basic
import Meshpn.Exit.TcpMoves

/-!
The TCP side of the NAT: the table of its connections and the count of those
that are still connecting, which limits new ones. A connection lives on in the
handlers of its socket after the table has forgotten it, so the NAT keeps all it
has made, each under the number of its making, and the table maps a key to such
a number.

One connection and the count of connecting connections. The count is lowered by
the `connect`, `error` and `timeout` handlers; the other ways out of the
CONNECTING state, a RST of the client, the idle cleanup, `stop` and a bare
`close`, destroy the socket without lowering it, and a destroyed socket reports
no `connect` any more.
-/

namespace Meshpn.Exit.Tcp

open Meshpn.Lib

structure Entry (Key : Type) where
  key : Key
  conn : Conn

structure UserSpaceNat (Key : Type) where
  tcpConnections : Key → Option Nat
  connectingCount : Int
  /-- Every connection made, in the order of making. -/
  made : List (Entry Key)
  /-- The keys whose segments were answered with a RST for want of a connection. -/
  refused : List Key

inductive NatEvent (Key : Type) where
  /-- A segment of a client, and the number a new connection would start from. -/
  | segment (key : Key) (now : Nat) (segment : Segment) (serverSeq : Nat)
  | socket (id : Nat) (event : SocketEvent)
  | cleanup (now : Nat)
  | stop

variable {Key : Type} [DecidableEq Key]

def UserSpaceNat.init : UserSpaceNat Key := ⟨fun _ => none, 0, [], []⟩

/-- A key leaves the table when its connection is closed. -/
def UserSpaceNat.touch (nat : UserSpaceNat Key) (id : Nat) (act : Conn → Conn) :
    UserSpaceNat Key :=
  match nat.made[id]? with
  | none => nat
  | some entry =>
    { nat with
      made := nat.made.set id { entry with conn := act entry.conn }
      tcpConnections :=
        if entry.conn.state ≠ .closed ∧ (act entry.conn).state = .closed then
          Function.update nat.tcpConnections entry.key none
        else nat.tcpConnections }

/-- The branch of `_handleTCP` for a SYN that has no connection. -/
def UserSpaceNat.openConnection (config : Config) (nat : UserSpaceNat Key) (key : Key) (now : Nat)
    (segment : Segment) (serverSeq : Nat) : UserSpaceNat Key :=
  if (config.maxConnections : Int) ≤ nat.connectingCount then nat
  else
    { nat with
      connectingCount := nat.connectingCount + 1
      made := nat.made ++ [⟨key, .init segment serverSeq now⟩]
      tcpConnections := Function.update nat.tcpConnections key (some nat.made.length) }

/-- `_handleTCP` where the table has nothing under the key. -/
def UserSpaceNat.handleUnknown (config : Config) (nat : UserSpaceNat Key) (key : Key) (now : Nat)
    (segment : Segment) (serverSeq : Nat) : UserSpaceNat Key :=
  if segment.rst then nat
  else if segment.syn && !segment.ack then nat.openConnection config key now segment serverSeq
  else { nat with refused := nat.refused ++ [key] }

/-- `_handleTCP`. A connection of the table is not closed, so a SYN for it is dropped. -/
def UserSpaceNat.handleTCP (config : Config) (nat : UserSpaceNat Key) (key : Key) (now : Nat)
    (segment : Segment) (serverSeq : Nat) : UserSpaceNat Key :=
  match nat.tcpConnections key with
  | none => nat.handleUnknown config key now segment serverSeq
  | some id => nat.touch id (Conn.step config · (.segment now segment))

/-- What a handler of the socket takes off the count. -/
def countChange (c : Conn) : SocketEvent → Int
  | .connect _ => -1
  | .error => if c.state = .connecting then -1 else 0
  | .timeout => if c.state = .connecting then -1 else 0
  | _ => 0

/-- The handler of a socket or of a linger timer. -/
def UserSpaceNat.onSocket (config : Config) (nat : UserSpaceNat Key) (id : Nat)
    (event : SocketEvent) : UserSpaceNat Key :=
  match nat.made[id]? with
  | none => nat
  | some entry =>
    { nat.touch id (Conn.step config · (.socket event)) with
      connectingCount := nat.connectingCount + countChange entry.conn event }

/-- A pass over the connections of the table; the others are closed already. -/
def UserSpaceNat.sweep (nat : UserSpaceNat Key) (act : Conn → Conn) : UserSpaceNat Key :=
  { nat with
    made := nat.made.map fun entry => { entry with conn := act entry.conn }
    tcpConnections := fun key => (nat.tcpConnections key).filter fun id =>
      nat.made[id]?.any fun entry => (act entry.conn).state != .closed }

def UserSpaceNat.step (config : Config) (nat : UserSpaceNat Key) :
    NatEvent Key → UserSpaceNat Key
  | .segment key now segment serverSeq => nat.handleTCP config key now segment serverSeq
  | .socket id event => nat.onSocket config id event
  | .cleanup now => nat.sweep (Conn.step config · (.cleanup now))
  | .stop => nat.sweep (Conn.step config · .stop)

def UserSpaceNat.run (config : Config) (nat : UserSpaceNat Key) (events : List (NatEvent Key)) :
    UserSpaceNat Key :=
  events.foldl (UserSpaceNat.step config) nat

/-- The tracked connections in the CONNECTING state. -/
def UserSpaceNat.connecting (nat : UserSpaceNat Key) : Nat :=
  nat.made.zipIdx.countP fun numbered =>
    nat.tcpConnections numbered.1.key == some numbered.2 &&
      numbered.1.conn.state == .connecting

end Meshpn.Exit.Tcp

namespace Meshpn.Exit.Tcp

open Meshpn.Lib

namespace Conn

def isConnecting (c : Conn) : Bool := c.state == .connecting

theorem isConnecting_of_isOpen {c : Conn} (h : c.isOpen = true) : c.isConnecting = false := by
  simp only [isOpen, Bool.or_eq_true, beq_iff_eq] at h
  rcases h with h | h <;> simp [isConnecting, h]

@[simp] theorem send_isConnecting (config : Config) (c : Conn) (ack : Nat) (flags : List Flag)
    (data : Bytes) : (c.send config ack flags data).isConnecting = c.isConnecting := rfl

@[simp] theorem call_isConnecting (c : Conn) (socketCall : SocketCall) :
    (c.call socketCall).isConnecting = c.isConnecting := rfl

theorem handleFin_isConnecting (config : Config) (c : Conn) (segment : Segment) :
    (c.handleFin config segment).isConnecting = c.isConnecting := by
  unfold handleFin
  split
  · rfl
  · dsimp only
    split <;> rfl

theorem handleData_isConnecting (config : Config) (c : Conn) (segment : Segment) :
    (c.handleData config segment).isConnecting = c.isConnecting := by
  unfold handleData takeData
  split
  · rw [send_isConnecting]
    split
    · rfl
    · split <;> rfl
  · rfl

theorem closeTCPConnection_isConnecting (c : Conn) :
    c.closeTCPConnection.isConnecting = false := by
  unfold closeTCPConnection
  split
  case isTrue h => simp_all [isConnecting]
  case isFalse => split <;> rfl

end Conn

theorem Moves.isConnecting {config : Config} {c d : Conn} (h : Moves config c d) :
    d.isConnecting = c.isConnecting := by
  refine h.relates (R := fun c d => d.isConnecting = c.isConnecting) (fun _ => rfl)
    (fun a b e hab hbe => hbe.trans hab) ?_
  intro a b hmove
  rw [Conn.isConnecting_of_isOpen hmove.isOpen.1, Conn.isConnecting_of_isOpen hmove.isOpen.2]

theorem updatePeerWindowAndAck_isConnecting (config : Config) (c : Conn) (segment : Segment) :
    (c.updatePeerWindowAndAck config segment).isConnecting = c.isConnecting := by
  by_cases hopen : c.isOpen = true
  · rw [(updatePeerWindowAndAck_moves config hopen segment).isConnecting]
    unfold Conn.notePeer
    split <;> rfl
  · rw [updatePeerWindowAndAck_closed config (by simpa using hopen)]

theorem handleSegment_isConnecting (config : Config) (c : Conn) (now : Nat) (segment : Segment) :
    (c.handleSegment config now segment).isConnecting = c.isConnecting := by
  have hnoted : ((c.activeAt now).updatePeerWindowAndAck config segment).isConnecting =
      c.isConnecting := updatePeerWindowAndAck_isConnecting config _ segment
  unfold Conn.handleSegment
  dsimp only
  split
  · exact hnoted
  split
  · rw [Conn.handleFin_isConnecting, hnoted]
  split
  · rw [(syncServerSocketPause_moves config _).isConnecting, Conn.handleData_isConnecting,
      hnoted]
  · rw [Conn.handleData_isConnecting, hnoted]

namespace Conn

def life (c : Conn) : Bool × Bool × Bool := (c.finSent, c.lingerCloseTimer, c.socket)

theorem handleFin_life (config : Config) (c : Conn) (segment : Segment) :
    (c.handleFin config segment).life = c.life := by
  unfold handleFin
  split
  · rfl
  · dsimp only
    split <;> rfl

theorem handleData_life (config : Config) (c : Conn) (segment : Segment) :
    (c.handleData config segment).life = c.life := by
  unfold handleData takeData
  split
  · split
    · rfl
    · split <;> rfl
  · rfl

theorem isOpen_of_isConnecting {c : Conn} (h : c.isConnecting = true) : c.isOpen = false := by
  simp only [isConnecting, beq_iff_eq] at h
  simp [isOpen, h]

theorem not_closed_of_isConnecting {c : Conn} (h : c.isConnecting = true) : c.state ≠ .closed := by
  simp only [isConnecting, beq_iff_eq] at h
  simp [h]

/-- A connection that has come from a SYN: while it connects nothing of its end
has begun, and afterwards its socket has connected or has been destroyed. -/
structure Opening (c : Conn) : Prop where
  fresh : c.isConnecting = true → c.life = (false, false, true)
  spent : c.isConnecting = false →
    SocketCall.destroy ∈ c.calls ∨ ∃ packet ∈ c.sent, Flag.syn ∈ packet.flags

theorem init_opening (segment : Segment) (serverSeq now : Nat) :
    (Conn.init segment serverSeq now).Opening :=
  ⟨fun _ => rfl, fun h => by simp [isConnecting, Conn.init] at h⟩

end Conn

section Steps

variable (config : Config) {c : Conn}

theorem handleSegment_life (hc : c.isConnecting = true) (now : Nat) (segment : Segment) :
    (c.handleSegment config now segment).life = c.life := by
  have hnoted : (c.activeAt now).updatePeerWindowAndAck config segment = c.activeAt now :=
    updatePeerWindowAndAck_closed config (Conn.isOpen_of_isConnecting (c := c.activeAt now) hc)
      segment
  have hdata : ((c.activeAt now).handleData config segment).isOpen = false :=
    Conn.isOpen_of_isConnecting ((Conn.handleData_isConnecting config _ segment).trans hc)
  unfold Conn.handleSegment
  dsimp only
  rw [hnoted]
  split
  · rfl
  split
  · exact Conn.handleFin_life config _ segment
  · rw [hdata]
    exact Conn.handleData_life config _ segment

theorem closeTCPConnection_destroys {c : Conn} (hstate : c.state ≠ .closed)
    (hsocket : c.socket = true) : SocketCall.destroy ∈ c.closeTCPConnection.calls := by
  simp [Conn.closeTCPConnection, hstate, hsocket, Conn.call]

/-- From a connecting connection: it connects on with what was there, or its socket
has connected or been destroyed. -/
def Leads (c d : Conn) : Prop :=
  (d.isConnecting = true ∧ d.life = c.life) ∨
    (d.isConnecting = false ∧
      (SocketCall.destroy ∈ d.calls ∨ ∃ packet ∈ d.sent, Flag.syn ∈ packet.flags))

theorem leads_close {c d : Conn} (hstate : d.state ≠ .closed) (hsocket : d.socket = true) :
    Leads c d.closeTCPConnection :=
  Or.inr ⟨Conn.closeTCPConnection_isConnecting d,
    Or.inl (closeTCPConnection_destroys hstate hsocket)⟩

theorem leads_lingerOrClose {c d : Conn} (hstate : d.state ≠ .closed)
    (hlife : d.life = (false, false, true)) : Leads c d.lingerOrClose := by
  simp only [Conn.life, Prod.mk.injEq] at hlife
  unfold Conn.lingerOrClose
  rw [if_neg (by simp [hlife.1])]
  exact leads_close hstate hlife.2.2

section Connecting

variable (hc : c.isConnecting = true) (hlife : c.life = (false, false, true))
include hc hlife

theorem leads_handleTCP (now : Nat) (segment : Segment) :
    Leads c (c.handleTCP config now segment) := by
  have hstate := Conn.not_closed_of_isConnecting hc
  unfold Conn.handleTCP
  rw [if_neg (by simpa using hstate)]
  split
  · simp only [Conn.life, Prod.mk.injEq] at hlife
    exact leads_close hstate hlife.2.2
  · split
    · exact Or.inl ⟨hc, rfl⟩
    · exact Or.inl ⟨(handleSegment_isConnecting config c now segment).trans hc,
        handleSegment_life config hc now segment⟩

theorem leads_onSocket (event : SocketEvent) : Leads c (c.onSocket config event) := by
  have hstate := Conn.not_closed_of_isConnecting hc
  have hopen := Conn.isOpen_of_isConnecting hc
  cases event with
  | connect now =>
    change Leads c (c.onConnect config now)
    rw [Conn.onConnect, if_neg (by simpa using hstate)]
    refine Or.inr ⟨rfl, Or.inr ⟨_, List.mem_append_right _ (List.mem_singleton_self _), ?_⟩⟩
    simp
  | data now data =>
    change Leads c (c.onData config now data)
    rw [(onData_moves config hstate now data).eq_of_not_open hopen]
    exact Or.inl ⟨hc, rfl⟩
  | eof =>
    change Leads c (c.onEnd config)
    rw [(onEnd_moves config hstate).eq_of_not_open hopen]
    exact Or.inl ⟨hc, rfl⟩
  | error =>
    change Leads c (c.onError config)
    have hfin : c.finSent = false := congrArg Prod.fst hlife
    rw [Conn.onError, if_neg (by simpa using hstate), if_neg (by simp [hfin])]
    exact leads_lingerOrClose hstate hlife
  | timeout => exact leads_lingerOrClose (d := c.call .destroy) hstate hlife
  | close =>
    change Leads c c.onClose
    rw [Conn.onClose, if_neg (by simpa using hstate)]
    exact leads_lingerOrClose hstate hlife
  | linger =>
    change Leads c c.onLinger
    have hlinger : c.lingerCloseTimer = false := congrArg (·.2.1) hlife
    rw [Conn.onLinger, if_neg (by simp [hlinger])]
    exact Or.inl ⟨hc, rfl⟩

theorem leads_step (event : Event) : Leads c (c.step config event) := by
  have hstate := Conn.not_closed_of_isConnecting hc
  have hsocket : c.socket = true := congrArg (·.2.2) hlife
  cases event with
  | segment now segment => exact leads_handleTCP config hc hlife now segment
  | socket event => exact leads_onSocket config hc hlife event
  | cleanup now =>
    change Leads c (c.onCleanup config now)
    unfold Conn.onCleanup
    split
    · exact leads_close hstate hsocket
    · exact Or.inl ⟨hc, rfl⟩
  | stop => exact leads_close hstate hsocket

end Connecting

theorem step_not_connecting (hc : c.isConnecting = false) (event : Event) :
    (c.step config event).isConnecting = false := by
  have hclose := Conn.closeTCPConnection_isConnecting
  have hend : ∀ d : Conn, d.isConnecting = false → d.lingerOrClose.isConnecting = false := by
    intro d hd
    unfold Conn.lingerOrClose Conn.scheduleTcpLingerClose
    split
    · split <;> exact hd
    · exact hclose d
  cases event with
  | segment now segment =>
    change (c.handleTCP config now segment).isConnecting = false
    unfold Conn.handleTCP
    split
    · exact hc
    split
    · exact hclose c
    · split
      · exact hc
      · exact (handleSegment_isConnecting config c now segment).trans hc
  | socket event =>
    cases event with
    | connect now =>
      change (c.onConnect config now).isConnecting = false
      unfold Conn.onConnect
      split
      · exact hc
      · rfl
    | data now data =>
      change (c.onData config now data).isConnecting = false
      by_cases hstate : c.state = .closed
      · simpa [Conn.onData, hstate] using hc
      · exact (Moves.isConnecting (onData_moves config hstate now data)).trans hc
    | eof =>
      change (c.onEnd config).isConnecting = false
      by_cases hstate : c.state = .closed
      · simpa [Conn.onEnd, hstate] using hc
      · exact (Moves.isConnecting (onEnd_moves config hstate)).trans hc
    | error =>
      change (c.onError config).isConnecting = false
      unfold Conn.onError
      split
      · exact hc
      · split <;> exact hend _ hc
    | timeout => exact hend _ hc
    | close =>
      change c.onClose.isConnecting = false
      unfold Conn.onClose
      split
      · exact hc
      · exact hend c hc
    | linger =>
      change c.onLinger.isConnecting = false
      unfold Conn.onLinger
      split
      · exact hclose _
      · exact hc
  | cleanup now =>
    change (c.onCleanup config now).isConnecting = false
    unfold Conn.onCleanup
    split
    · exact hclose c
    · exact hc
  | stop => exact hclose c

theorem step_closed (hclosed : c.state = .closed) (event : Event) :
    (c.step config event).state = .closed := by
  have hclose : ∀ d : Conn, d.state = .closed → d.closeTCPConnection = d := fun d hd => by
    simp [Conn.closeTCPConnection, hd]
  have hend : ∀ d : Conn, d.state = .closed → d.lingerOrClose = d := fun d hd => by
    simp [Conn.lingerOrClose, Conn.scheduleTcpLingerClose, hd, hclose d hd]
  cases event with
  | segment now segment => simp [Conn.step, Conn.handleTCP, hclosed]
  | socket event =>
    cases event with
    | connect now => simp [Conn.step, Conn.onSocket, Conn.onConnect, hclosed, Conn.call]
    | data now data => simp [Conn.step, Conn.onSocket, Conn.onData, hclosed]
    | eof => simp [Conn.step, Conn.onSocket, Conn.onEnd, hclosed]
    | error => simp [Conn.step, Conn.onSocket, Conn.onError, hclosed]
    | timeout =>
      change (c.call .destroy).lingerOrClose.state = .closed
      rw [hend (c.call .destroy) hclosed]
      exact hclosed
    | close => simp [Conn.step, Conn.onSocket, Conn.onClose, hclosed]
    | linger =>
      change c.onLinger.state = .closed
      unfold Conn.onLinger
      split
      · rw [hclose { c with lingerCloseTimer := false } hclosed]
        exact hclosed
      · exact hclosed
  | cleanup now =>
    change (c.onCleanup config now).state = .closed
    unfold Conn.onCleanup
    split
    · rw [hclose c hclosed]
      exact hclosed
    · exact hclosed
  | stop =>
    change c.closeTCPConnection.state = .closed
    rw [hclose c hclosed]
    exact hclosed

theorem step_opening (hc : c.Opening) (event : Event) : (c.step config event).Opening := by
  by_cases hconnecting : c.isConnecting = true
  · rcases leads_step config hconnecting (hc.fresh hconnecting) event with ⟨hon, hlife⟩ | ⟨hoff, hway⟩
    · exact ⟨fun _ => hlife.trans (hc.fresh hconnecting), fun h => by simp [hon] at h⟩
    · exact ⟨fun h => by simp [hoff] at h, fun _ => hway⟩
  · have hoff : c.isConnecting = false := by simpa using hconnecting
    have hstays := step_not_connecting config hoff event
    have hgrows := step_grows config c event
    refine ⟨fun h => by simp [hstays] at h, fun _ => ?_⟩
    rcases hc.spent hoff with hdestroyed | ⟨packet, hpacket, hsyn⟩
    · exact Or.inl (hgrows.calls.mem hdestroyed)
    · exact Or.inr ⟨packet, hgrows.sent.mem hpacket, hsyn⟩

end Steps

def Conn.indicator (c : Conn) : Int := if c.isConnecting then 1 else 0

/-- The step does not end the CONNECTING state by one of the ways that leave the
count as it is. -/
def Conn.Counted (config : Config) (c : Conn) : Event → Prop
  | .segment _ segment => segment.rst = true → c.isConnecting = false
  | .socket event => event = .close → c.isConnecting = false
  | .cleanup now => config.connectionTimeout < now - c.lastActivity → c.isConnecting = false
  | .stop => c.isConnecting = false

/-- A socket reports `connect` once, and not after it was destroyed. -/
def Conn.MayConnect (c : Conn) : Prop :=
  SocketCall.destroy ∉ c.calls ∧ ∀ packet ∈ c.sent, Flag.syn ∉ packet.flags

def eventChange (c : Conn) : Event → Int
  | .socket event => countChange c event
  | _ => 0

section Count

variable (config : Config) {c : Conn}

theorem Conn.indicator_of_connecting (h : c.isConnecting = true) : c.indicator = 1 := by
  simp [Conn.indicator, h]

theorem Conn.indicator_of_not (h : c.isConnecting = false) : c.indicator = 0 := by
  simp [Conn.indicator, h]

theorem countChange_of_not (hc : c.Opening) (hoff : c.isConnecting = false) (event : SocketEvent)
    (hconnect : ∀ now, event = .connect now → c.MayConnect) : countChange c event = 0 := by
  have hstate : c.state ≠ .connecting := by simpa [Conn.isConnecting] using hoff
  cases event with
  | connect now =>
    obtain ⟨hdestroy, hsyn⟩ := hconnect now rfl
    rcases hc.spent hoff with h | ⟨packet, hpacket, h⟩
    · exact absurd h hdestroy
    · exact absurd h (hsyn packet hpacket)
  | error => simp [countChange, hstate]
  | timeout => simp [countChange, hstate]
  | data now data => rfl
  | eof => rfl
  | close => rfl
  | linger => rfl

theorem onSocket_indicator (hc : c.Opening) (hon : c.isConnecting = true) (event : SocketEvent)
    (hclose : event ≠ .close) :
    (c.onSocket config event).indicator = 1 + countChange c event := by
  have hlife := hc.fresh hon
  have hfin : c.finSent = false := congrArg Prod.fst hlife
  have hlinger : c.lingerCloseTimer = false := congrArg (·.2.1) hlife
  have hclosed := Conn.not_closed_of_isConnecting hon
  have hstate : c.state = .connecting := by simpa [Conn.isConnecting] using hon
  have hopen := Conn.isOpen_of_isConnecting hon
  have hend : ∀ d : Conn, d.finSent = false → d.lingerOrClose.indicator = 0 := by
    intro d hd
    rw [Conn.lingerOrClose, if_neg (by simp [hd])]
    exact Conn.indicator_of_not (Conn.closeTCPConnection_isConnecting d)
  cases event with
  | connect now =>
    change (c.onConnect config now).indicator = 0
    rw [Conn.onConnect, if_neg (by simpa using hclosed)]
    rfl
  | data now data =>
    change (c.onData config now data).indicator = 1
    rw [(onData_moves config hclosed now data).eq_of_not_open hopen]
    exact Conn.indicator_of_connecting hon
  | eof =>
    change (c.onEnd config).indicator = 1
    rw [(onEnd_moves config hclosed).eq_of_not_open hopen]
    exact Conn.indicator_of_connecting hon
  | error =>
    change (c.onError config).indicator = _
    rw [Conn.onError, if_neg (by simpa using hclosed), if_neg (by simp [hfin]),
      hend (c.send config c.clientAck [.rst] []) hfin]
    simp [countChange, hstate]
  | timeout =>
    change (c.call .destroy).lingerOrClose.indicator = _
    rw [hend (c.call .destroy) hfin]
    simp [countChange, hstate]
  | close => exact absurd rfl hclose
  | linger =>
    change c.onLinger.indicator = 1
    rw [Conn.onLinger, if_neg (by simp [hlinger])]
    exact Conn.indicator_of_connecting hon

theorem step_indicator (hc : c.Opening) (event : Event) (hcounted : c.Counted config event)
    (hconnect : ∀ now, event = .socket (.connect now) → c.MayConnect) :
    (c.step config event).indicator = c.indicator + eventChange c event := by
  by_cases hon : c.isConnecting = true
  · rw [Conn.indicator_of_connecting hon]
    have hclosed := Conn.not_closed_of_isConnecting hon
    have hsame : ∀ {P : Prop}, (P → c.isConnecting = false) → ¬ P :=
      fun h hp => by simp [hon] at h; exact h hp
    cases event with
    | segment now segment =>
      have hrst : ¬ segment.rst = true := hsame hcounted
      change (c.handleTCP config now segment).indicator = 1
      rw [Conn.handleTCP, if_neg (by simpa using hclosed), if_neg hrst]
      split
      · exact Conn.indicator_of_connecting hon
      · exact Conn.indicator_of_connecting
          ((handleSegment_isConnecting config c now segment).trans hon)
    | socket event => exact onSocket_indicator config hc hon event (hsame hcounted)
    | cleanup now =>
      change (c.onCleanup config now).indicator = 1
      rw [Conn.onCleanup, if_neg (hsame hcounted)]
      exact Conn.indicator_of_connecting hon
    | stop =>
      have hstop : c.isConnecting = false := hcounted
      simp [hon] at hstop
  · have hoff : c.isConnecting = false := by simpa using hon
    rw [Conn.indicator_of_not hoff, Conn.indicator_of_not (step_not_connecting config hoff event)]
    cases event with
    | segment now segment => rfl
    | socket event =>
      have hzero := countChange_of_not hc hoff event fun now hevent =>
        hconnect now (congrArg Event.socket hevent)
      simp [eventChange, hzero]
    | cleanup now => rfl
    | stop => rfl

end Count

end Meshpn.Exit.Tcp
