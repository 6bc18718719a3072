import Mathlib.Tactic.NormNum
import Meshpn.Exit.TcpNat

/-!
The count over the whole table. A connection that is not closed is in the table
under its key, so the tracked connections that are connecting are all that are,
and the count is their number in every run that leaves the CONNECTING state only
by ways that lower it.
-/

namespace Meshpn.Exit.Tcp

open Meshpn.Lib

theorem countP_set {α : Type} (p : α → Bool) {l : List α} {i : Nat} {old : α}
    (hold : l[i]? = some old) (new : α) :
    ((l.set i new).countP p : Int) =
      l.countP p - (if p old then 1 else 0) + if p new then 1 else 0 := by
  induction l generalizing i with
  | nil => simp at hold
  | cons head rest ih =>
    cases i with
    | zero =>
      obtain rfl : head = old := by simpa using hold
      simp only [List.set_cons_zero, List.countP_cons]
      push_cast
      split <;> split <;> omega
    | succ i =>
      have hrest := ih (i := i) (by simpa using hold)
      simp only [List.set_cons_succ, List.countP_cons]
      push_cast
      omega

section Table

variable {Key : Type} [DecidableEq Key]

/-- Which connections are in the table, and the count. -/
structure UserSpaceNat.Sound (nat : UserSpaceNat Key) : Prop where
  opening : ∀ entry ∈ nat.made, entry.conn.Opening
  tracked : ∀ i entry, nat.made[i]? = some entry → entry.conn.state ≠ .closed →
    nat.tcpConnections entry.key = some i
  known : ∀ key i, nat.tcpConnections key = some i →
    ∃ entry, nat.made[i]? = some entry ∧ entry.key = key ∧ entry.conn.state ≠ .closed
  count : nat.connectingCount = nat.made.countP fun entry => entry.conn.isConnecting

/-- The steps of the NAT that keep the count. -/
def UserSpaceNat.Counted (config : Config) (nat : UserSpaceNat Key) : NatEvent Key → Prop
  | .segment key now segment _ => ∀ id entry, nat.tcpConnections key = some id →
      nat.made[id]? = some entry → entry.conn.Counted config (.segment now segment)
  | .socket id event => ∀ entry, nat.made[id]? = some entry →
      entry.conn.Counted config (.socket event)
  | .cleanup now => ∀ entry ∈ nat.made, entry.conn.Counted config (.cleanup now)
  | .stop => ∀ entry ∈ nat.made, entry.conn.Counted config .stop

def UserSpaceNat.SocketOrder (nat : UserSpaceNat Key) : NatEvent Key → Prop
  | .socket id event => ∀ entry, nat.made[id]? = some entry →
      ∀ now, event = .connect now → entry.conn.MayConnect
  | _ => True

omit [DecidableEq Key] in
theorem init_sound : (UserSpaceNat.init : UserSpaceNat Key).Sound where
  opening := by simp [UserSpaceNat.init]
  tracked := by simp [UserSpaceNat.init]
  known := by simp [UserSpaceNat.init]
  count := rfl

variable {nat : UserSpaceNat Key} (h : nat.Sound)
include h

omit [DecidableEq Key] in
theorem UserSpaceNat.Sound.connecting_eq :
    nat.connecting = nat.made.countP fun entry => entry.conn.isConnecting := by
  have hmap : (nat.made.countP fun entry => entry.conn.isConnecting) =
      nat.made.zipIdx.countP fun numbered => numbered.1.conn.isConnecting := by
    conv_lhs => rw [← List.zipIdx_map_fst 0 nat.made, List.countP_map]
    rfl
  rw [hmap, UserSpaceNat.connecting]
  refine List.countP_congr ?_
  rintro ⟨entry, i⟩ hmember
  have hplace : nat.made[i]? = some entry := by simpa using List.mem_zipIdx_iff_getElem?.mp hmember
  simp only [Conn.isConnecting, Bool.and_eq_true, beq_iff_eq]
  constructor
  · exact fun hboth => hboth.2
  · intro hstate
    exact ⟨h.tracked i entry hplace (by simp [hstate]), hstate⟩

theorem UserSpaceNat.Sound.touch (config : Config) {id : Nat} {entry : Entry Key}
    (hentry : nat.made[id]? = some entry) (event : Event)
    (hcounted : entry.conn.Counted config event)
    (hconnect : ∀ now, event = .socket (.connect now) → entry.conn.MayConnect) :
    UserSpaceNat.Sound { nat.touch id (Conn.step config · event) with
      connectingCount := nat.connectingCount + eventChange entry.conn event } := by
  have hmember : entry ∈ nat.made := List.mem_of_getElem? hentry
  have hopening := h.opening entry hmember
  have hlength : id < nat.made.length := (List.getElem?_eq_some_iff.mp hentry).1
  have hself : (nat.made.set id { entry with conn := entry.conn.step config event })[id]? =
      some { entry with conn := entry.conn.step config event } := by
    simp [hlength]
  have hother : ∀ i, i ≠ id →
      (nat.made.set id { entry with conn := entry.conn.step config event })[i]? = nat.made[i]? :=
    fun i hi => List.getElem?_set_ne (Ne.symm hi)
  -- The table loses the key exactly when the step closes the connection.
  have htable : ∀ key, (nat.touch id (Conn.step config · event)).tcpConnections key =
      if entry.conn.state ≠ .closed ∧ (entry.conn.step config event).state = .closed ∧
        key = entry.key then none else nat.tcpConnections key := by
    intro key
    simp only [UserSpaceNat.touch, hentry]
    by_cases hclosing :
        entry.conn.state ≠ .closed ∧ (entry.conn.step config event).state = .closed
    · rw [if_pos hclosing]
      by_cases hkey : key = entry.key
      · simp [hkey, hclosing]
      · simp [hkey]
    · rw [if_neg hclosing, if_neg fun hall => hclosing ⟨hall.1, hall.2.1⟩]
  have hmade : (nat.touch id (Conn.step config · event)).made =
      nat.made.set id { entry with conn := entry.conn.step config event } := by
    simp [UserSpaceNat.touch, hentry]
  refine ⟨?_, ?_, ?_, ?_⟩
  · intro found hfound
    change found ∈ (nat.touch id (Conn.step config · event)).made at hfound
    rw [hmade] at hfound
    rcases List.mem_or_eq_of_mem_set hfound with hold | rfl
    · exact h.opening found hold
    · exact step_opening config hopening event
  · intro i found hfound hstate
    change (nat.touch id (Conn.step config · event)).made[i]? = some found at hfound
    change (nat.touch id (Conn.step config · event)).tcpConnections found.key = some i
    rw [hmade] at hfound
    rw [htable]
    by_cases hi : i = id
    · subst hi
      obtain rfl : _ = found := Option.some.inj (hself.symm.trans hfound)
      rw [if_neg fun hall => hstate hall.2.1]
      exact h.tracked i entry hentry fun hclosed => hstate (step_closed config hclosed event)
    · rw [hother i hi] at hfound
      have hold := h.tracked i found hfound hstate
      rw [if_neg ?_]
      · exact hold
      · rintro ⟨hlive, _, hkey⟩
        rw [hkey, h.tracked id entry hentry hlive] at hold
        exact hi (Option.some.inj hold).symm
  · intro key i hkey
    change (nat.touch id (Conn.step config · event)).tcpConnections key = some i at hkey
    change ∃ found, (nat.touch id (Conn.step config · event)).made[i]? = some found ∧ _
    rw [htable] at hkey
    rw [hmade]
    split at hkey
    case isTrue => cases hkey
    rename_i hstays
    obtain ⟨found, hfound, rfl, hlive⟩ := h.known key i hkey
    by_cases hi : i = id
    · subst hi
      obtain rfl : entry = found := Option.some.inj (hentry.symm.trans hfound)
      exact ⟨_, hself, rfl, fun hclosed => hstays ⟨hlive, hclosed, rfl⟩⟩
    · exact ⟨found, (hother i hi).trans hfound, rfl, hlive⟩
  · have hstep := step_indicator config hopening event hcounted hconnect
    have hset := countP_set (fun e : Entry Key => e.conn.isConnecting) hentry
      { entry with conn := entry.conn.step config event }
    simp only [Conn.indicator] at hstep
    change nat.connectingCount + eventChange entry.conn event =
      ((nat.touch id (Conn.step config · event)).made.countP fun e => e.conn.isConnecting : Int)
    rw [hmade, hset, hstep, h.count]
    omega

omit [DecidableEq Key] in
theorem UserSpaceNat.Sound.sweep (config : Config) (event : Event)
    (hcounted : ∀ entry ∈ nat.made, entry.conn.Counted config event)
    (hsocket : ∀ socketEvent, event ≠ .socket socketEvent) :
    (nat.sweep (Conn.step config · event)).Sound := by
  have hchange : ∀ c : Conn, eventChange c event = 0 := by
    intro c
    cases event with
    | socket socketEvent => exact absurd rfl (hsocket socketEvent)
    | segment now segment => rfl
    | cleanup now => rfl
    | stop => rfl
  have hsame : ∀ entry ∈ nat.made, (entry.conn.step config event).isConnecting =
      entry.conn.isConnecting := by
    intro entry hentry
    have hstep := step_indicator config (h.opening entry hentry) event (hcounted entry hentry)
      fun now hevent => absurd hevent (hsocket _)
    rw [hchange, Int.add_zero] at hstep
    simp only [Conn.indicator] at hstep
    split at hstep <;> split at hstep <;> simp_all
  refine ⟨?_, ?_, ?_, ?_⟩
  · intro found hfound
    obtain ⟨entry, hentry, rfl⟩ := List.mem_map.mp hfound
    exact step_opening config (h.opening entry hentry) event
  · intro i found hfound hstate
    simp only [UserSpaceNat.sweep, List.getElem?_map, Option.map_eq_some_iff] at hfound
    obtain ⟨entry, hentry, rfl⟩ := hfound
    have hlive : entry.conn.state ≠ .closed :=
      fun hclosed => hstate (step_closed config hclosed event)
    simp [UserSpaceNat.sweep, h.tracked i entry hentry hlive, hentry, hstate]
  · intro key i hkey
    simp only [UserSpaceNat.sweep, Option.filter_eq_some_iff] at hkey
    obtain ⟨hkey, hstays⟩ := hkey
    obtain ⟨entry, hentry, rfl, _⟩ := h.known key i hkey
    refine ⟨{ entry with conn := entry.conn.step config event }, ?_, rfl, ?_⟩
    · simp [UserSpaceNat.sweep, hentry]
    · simpa [hentry] using hstays
  · simp only [UserSpaceNat.sweep, List.countP_map, h.count]
    rw [List.countP_congr]
    intro entry hentry
    simp [hsame entry hentry]

theorem UserSpaceNat.Sound.openConnection (config : Config) {key : Key} (now : Nat)
    (segment : Segment) (serverSeq : Nat) (hfree : nat.tcpConnections key = none) :
    (nat.openConnection config key now segment serverSeq).Sound := by
  unfold UserSpaceNat.openConnection
  split
  case isTrue => exact h
  refine ⟨?_, ?_, ?_, ?_⟩
  · intro found hfound
    rcases List.mem_append.mp hfound with hold | hnew
    · exact h.opening found hold
    · rw [List.mem_singleton.mp hnew]
      exact Conn.init_opening segment serverSeq now
  · intro i found hfound hstate
    rcases Nat.lt_or_ge i nat.made.length with hold | hnew
    · rw [List.getElem?_append_left hold] at hfound
      have htracked := h.tracked i found hfound hstate
      have hkey : found.key ≠ key := fun heq => by simp [heq, hfree] at htracked
      exact (Function.update_of_ne hkey _ _).trans htracked
    · have hlast : i = nat.made.length := by
        have := (List.getElem?_eq_some_iff.mp hfound).1
        simp only [List.length_append, List.length_singleton] at this
        omega
      subst hlast
      obtain rfl : _ = found := by simpa using hfound
      simp
  · intro found i hfound
    dsimp only at hfound
    by_cases hkey : found = key
    · rw [hkey, Function.update_self] at hfound
      obtain rfl : nat.made.length = i := Option.some.inj hfound
      exact ⟨⟨key, .init segment serverSeq now⟩, by simp, hkey.symm, by simp [Conn.init]⟩
    · rw [Function.update_of_ne hkey] at hfound
      obtain ⟨entry, hentry, hrest⟩ := h.known found i hfound
      refine ⟨entry, ?_, hrest⟩
      rw [List.getElem?_append_left (List.getElem?_eq_some_iff.mp hentry).1]
      exact hentry
  · have hnew : (Conn.init segment serverSeq now).isConnecting = true := rfl
    simp [List.countP_append, hnew, h.count]

theorem UserSpaceNat.Sound.step (config : Config) (event : NatEvent Key)
    (hcounted : nat.Counted config event) (horder : nat.SocketOrder event) :
    (nat.step config event).Sound := by
  cases event with
  | segment key now segment serverSeq =>
    change (nat.handleTCP config key now segment serverSeq).Sound
    unfold UserSpaceNat.handleTCP
    split
    case h_1 hfree =>
      unfold UserSpaceNat.handleUnknown
      split
      · exact h
      split
      · exact h.openConnection config now segment serverSeq hfree
      · exact ⟨h.opening, h.tracked, h.known, h.count⟩
    case h_2 id hid =>
      obtain ⟨entry, hentry, _⟩ := h.known key id hid
      have htouched := h.touch config hentry (.segment now segment) (hcounted id entry hid hentry)
        fun _ hevent => by cases hevent
      simpa [eventChange, UserSpaceNat.touch, hentry] using htouched
  | socket id event =>
    change (nat.onSocket config id event).Sound
    unfold UserSpaceNat.onSocket
    split
    case h_1 => exact h
    rename_i entry hentry
    refine h.touch config hentry (.socket event) (hcounted entry hentry) fun now hevent => ?_
    exact horder entry hentry now (by cases hevent; rfl)
  | cleanup now => exact h.sweep config (.cleanup now) hcounted fun _ hevent => by cases hevent
  | stop => exact h.sweep config .stop hcounted fun _ hevent => by cases hevent

end Table

/-- A condition on each event of a run of the NAT. -/
def UserSpaceNat.Along {Key : Type} [DecidableEq Key] (config : Config)
    (condition : UserSpaceNat Key → NatEvent Key → Prop) :
    UserSpaceNat Key → List (NatEvent Key) → Prop
  | _, [] => True
  | nat, event :: events =>
    condition nat event ∧ (nat.step config event).Along config condition events

theorem UserSpaceNat.Sound.run {Key : Type} [DecidableEq Key] (config : Config)
    {nat : UserSpaceNat Key} (h : nat.Sound) {events : List (NatEvent Key)}
    (hcounted : nat.Along config (UserSpaceNat.Counted config) events)
    (horder : nat.Along config UserSpaceNat.SocketOrder events) : (nat.run config events).Sound := by
  induction events generalizing nat with
  | nil => exact h
  | cons event events ih =>
    exact ih (h.step config event hcounted.1 horder.1) hcounted.2 horder.2

theorem run_count_le {Key : Type} [DecidableEq Key] (config : Config) (nat : UserSpaceNat Key)
    (hnat : nat.connectingCount ≤ config.maxConnections) (events : List (NatEvent Key)) :
    (nat.run config events).connectingCount ≤ config.maxConnections := by
  induction events generalizing nat with
  | nil => exact hnat
  | cons event events ih =>
    refine ih (nat.step config event) ?_
    cases event with
    | segment key now segment serverSeq =>
      change (nat.handleTCP config key now segment serverSeq).connectingCount ≤ _
      unfold UserSpaceNat.handleTCP
      split
      · unfold UserSpaceNat.handleUnknown UserSpaceNat.openConnection
        split
        · exact hnat
        split
        · split
          · exact hnat
          · dsimp only
            omega
        · exact hnat
      · unfold UserSpaceNat.touch
        split <;> exact hnat
    | socket id event =>
      change (nat.onSocket config id event).connectingCount ≤ _
      unfold UserSpaceNat.onSocket
      split
      · exact hnat
      rename_i entry _
      have hchange : countChange entry.conn event ≤ 0 := by
        unfold countChange
        split <;> (try split) <;> omega
      dsimp only
      omega
    | cleanup now => exact hnat
    | stop => exact hnat

/-- In every run in which no RST, idle cleanup, `stop` or bare `close` meets a
connecting connection, the count is the number of tracked connections that are
connecting; it does not pass the limit, and below it a SYN under a free key makes
a connection. -/
theorem connecting_count_exact {Key : Type} [DecidableEq Key] (config : Config)
    (events : List (NatEvent Key)) (nat : UserSpaceNat Key)
    (hnat : nat = UserSpaceNat.init.run config events)
    (hcounted : UserSpaceNat.init.Along config (UserSpaceNat.Counted config) events)
    (horder : UserSpaceNat.init.Along config UserSpaceNat.SocketOrder events) :
    nat.connectingCount = nat.connecting ∧ nat.connecting ≤ config.maxConnections ∧
      ∀ key now segment serverSeq, nat.tcpConnections key = none → segment.rst = false →
        segment.syn = true → segment.ack = false → nat.connecting < config.maxConnections →
        (nat.step config (.segment key now segment serverSeq)).tcpConnections key =
          some nat.made.length := by
  have hsound : nat.Sound := hnat ▸ init_sound.run config hcounted horder
  have hcount : nat.connectingCount = nat.connecting := by
    rw [hsound.count, hsound.connecting_eq]
  have hlimit : nat.connectingCount ≤ config.maxConnections := by
    rw [hnat]
    exact run_count_le config UserSpaceNat.init (by simp [UserSpaceNat.init]) events
  refine ⟨hcount, by omega, ?_⟩
  intro key now segment serverSeq hfree hrst hsyn hack hroom
  have hbelow : ¬ (config.maxConnections : Int) ≤ nat.connectingCount := by omega
  simp [UserSpaceNat.step, UserSpaceNat.handleTCP, hfree, UserSpaceNat.handleUnknown, hrst, hsyn,
    hack, UserSpaceNat.openConnection, hbelow]

def connectedEvents : List (NatEvent Nat) := [.segment 5 0 sampleSyn 7000, .socket 0 (.connect 1)]

/-- With a limit of one, a connection that has connected leaves room for another. -/
theorem connected_count_exact :
    (UserSpaceNat.init.run sampleConfig connectedEvents).connectingCount = 0 ∧
      (UserSpaceNat.init.run sampleConfig connectedEvents).connectingCount =
        (UserSpaceNat.init.run sampleConfig connectedEvents).connecting := by
  have hmade : ∀ entry : Entry Nat,
      (UserSpaceNat.init.step sampleConfig (.segment 5 0 sampleSyn 7000)).made[0]? = some entry →
        entry = ⟨5, .init sampleSyn 7000 0⟩ := by
    intro entry hentry
    exact (Option.some.inj hentry).symm
  refine ⟨by decide, (connecting_count_exact sampleConfig connectedEvents _ rfl ?_ ?_).1⟩
  · refine ⟨?_, ?_, trivial⟩
    · intro id entry hid
      cases hid
    · intro entry _ hevent
      cases hevent
  · refine ⟨trivial, ?_, trivial⟩
    intro entry hentry now _
    rw [hmade entry hentry]
    exact ⟨by simp [Conn.init], by simp [Conn.init]⟩

def abortedEvents : List (NatEvent Nat) :=
  [.segment 5 0 sampleSyn 7000, .segment 5 1 { sampleSyn with syn := false, rst := true } 0]

/-- The count stays raised with no connection left, and no SYN is ever taken again. -/
theorem aborted_count_leaks :
    (UserSpaceNat.init.run sampleConfig abortedEvents).connectingCount = 1 ∧
      (UserSpaceNat.init.run sampleConfig abortedEvents).connecting = 0 ∧
      (UserSpaceNat.init.run sampleConfig (abortedEvents ++ [.segment 6 2 sampleSyn 9])).made =
        (UserSpaceNat.init.run sampleConfig abortedEvents).made :=
  ⟨by decide, by decide, rfl⟩

end Meshpn.Exit.Tcp
