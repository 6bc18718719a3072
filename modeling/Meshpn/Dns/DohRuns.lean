import Mathlib.Data.List.Induction
import Meshpn.Dns.DohSafety

/-!
All runs of the stub: no connection at rest keeps a whole query in its buffer, and with the
invariant every reply belongs to its query.
-/

namespace Meshpn.Dns.Doh

open Meshpn.Lib Meshpn.Dns.Wire Stub

variable {config : Config} {s : Stub} {c : Nat}

namespace Stub

theorem quiet_of {s' : Stub} (h : ∀ c, s.Quiet c)
    (hconns : ∀ (c : Nat) (conn' : Conn), s'.conns[c]? = some conn' → conn'.destroyed = true ∨
      ∃ conn, s.conns[c]? = some conn ∧ conn'.destroyed = conn.destroyed ∧
        conn'.busy = conn.busy ∧ conn'.pending = conn.pending) (c : Nat) : s'.Quiet c := by
  intro conn' hconn' hlive hidle
  rcases hconns c conn' hconn' with hgone | ⟨conn, hconn, hdestroyed, hbusy, hpending⟩
  · rw [hlive] at hgone
    cases hgone
  · rw [hpending]
    exact h c conn hconn (hdestroyed.symm.trans hlive) (hbusy.symm.trans hidle)

theorem quiet_conns {s' : Stub} (h : ∀ c, s.Quiet c) (hsame : s'.conns = s.conns) (c : Nat) :
    s'.Quiet c :=
  quiet_of h (fun _ conn hconn => .inr ⟨conn, hsame ▸ hconn, rfl, rfl, rfl⟩) c

theorem quiet_put_pump {conn' : Conn} (h : ∀ c, s.Quiet c) (c' : Nat) :
    ((s.putConn c conn').pump config c).Quiet c' := by
  refine pump_quiet (fun c'' hne conn hconn => ?_) c'
  rw [Stub.putConn, List.getElem?_set_ne (Ne.symm hne)] at hconn
  exact h c'' conn hconn

theorem quiet_reply (h : ∀ c, s.Quiet c) (bytes : Option Bytes) (c' : Nat) :
    (s.reply c bytes).Quiet c' := by
  unfold Stub.reply
  split
  case h_1 => exact quiet_putConn (fun c' _ => h c') (fun hlive => by cases hlive) c'
  case h_2 conn bytes hconn =>
    split
    case isTrue => exact h c'
    refine quiet_putConn (fun c' _ => h c') ?_ c'
    exact fun hlive hidle => h c conn hconn hlive hidle
  case h_3 => exact h c'

end Stub

theorem step_quiet (h : ∀ c, s.Quiet c) (event : Event) (c : Nat) :
    (step config s event).Quiet c := by
  cases event with
  | datagram address port query =>
    refine quiet_conns h ?_ c
    change (s.datagram config address port query).conns = s.conns
    unfold Stub.datagram
    split
    · rfl
    · exact run_conns query _
  | connect =>
    change (s.connect config).Quiet c
    unfold Stub.connect
    split
    case isTrue => exact h c
    intro conn hconn hlive hidle
    rcases List.mem_append.mp (List.mem_of_getElem? hconn) with hold | hnew
    · dsimp only at hconn
      rcases Nat.lt_or_ge c s.conns.length with hlt | hge
      · rw [List.getElem?_append_left hlt] at hconn
        exact h c conn hconn hlive hidle
      · obtain ⟨c', hc'⟩ := List.mem_iff_getElem?.mp hold
        exact h c' conn hc' hlive hidle
    · rw [List.mem_singleton.mp hnew]
      exact .inl rfl
  | data c' chunk =>
    change (s.data config c' chunk).Quiet c
    unfold Stub.data
    split
    case h_1 => exact h c
    rename_i conn hconn
    split
    case isTrue => exact h c
    split
    case isTrue => exact quiet_putConn (fun c _ => h c) (fun hlive => by cases hlive) c
    case isFalse => exact quiet_put_pump h c
  | halfClose c' =>
    change (s.halfClose config c').Quiet c
    unfold Stub.halfClose
    split
    case h_1 => exact h c
    rename_i conn hconn
    split
    case isTrue => exact h c
    case isFalse => exact quiet_put_pump h c
  | destroy c' =>
    change (s.destroy c').Quiet c
    unfold Stub.destroy
    split
    case h_1 => exact h c
    case h_2 => exact quiet_putConn (fun c _ => h c) (fun hlive => by cases hlive) c
  | closed c' =>
    change (s.closed c').Quiet c
    unfold Stub.closed
    split
    case h_1 => exact h c
    rename_i conn hconn
    have hput : (s.putConn c' { conn with destroyed := true, closed := true }).Quiet c :=
      quiet_putConn (fun c _ => h c) (fun hlive => by cases hlive) c
    exact hput
  | finish j outcome =>
    refine quiet_conns h ?_ c
    change (s.finish j outcome).conns = s.conns
    unfold Stub.finish
    split
    · rfl
    · split <;> rfl
  | resume j =>
    refine quiet_conns h ?_ c
    change (s.resume j).conns = s.conns
    unfold Stub.resume
    split
    · rfl
    · split <;> rfl
  | deliver j =>
    change (s.deliver j).Quiet c
    unfold Stub.deliver
    split
    case h_1 => exact h c
    rename_i job hjob
    split
    case h_2 => exact h c
    rename_i bytes hphase
    have hput : ∀ c, (s.putJob j { job with phase := .done }).Quiet c := quiet_conns h rfl
    dsimp only
    split
    case isTrue => exact hput c
    unfold Stub.hand
    split
    case h_1 port _ =>
      refine quiet_conns hput ?_ c
      cases bytes <;> rfl
    case h_2 c' _ => exact quiet_reply hput bytes c
  | flushed c' =>
    change (s.flushed config c').Quiet c
    unfold Stub.flushed
    split
    case h_1 => exact h c
    rename_i conn hconn
    split
    case isFalse => exact h c
    case isTrue => exact quiet_put_pump h c
  | close =>
    change s.close.Quiet c
    unfold Stub.close
    split
    case isTrue => exact h c
    refine quiet_of h (fun c conn hconn => .inl ?_) c
    dsimp only at hconn
    rw [List.getElem?_map, Option.map_eq_some_iff] at hconn
    obtain ⟨old, -, rfl⟩ := hconn
    rfl

theorem step_base (h : s.Base config) (event : Event) : (step config s event).Base config := by
  cases event with
  | datagram address port query => exact h.datagram
  | connect => exact h.connect
  | data c chunk => exact h.data
  | halfClose c => exact h.halfClose
  | destroy c => exact h.destroy
  | closed c => exact h.closed
  | finish j outcome => exact h.finish
  | resume j => exact h.resume
  | deliver j => exact h.deliver
  | flushed c => exact h.flushed
  | close => exact h.close

theorem run_base (config : Config) (events : List Event) :
    (run config events).Base config ∧ ∀ c, (run config events).Quiet c := by
  induction events using List.reverseRecOn with
  | nil => exact ⟨.init config, fun c conn hconn => by simp [run, Stub.init] at hconn⟩
  | append_singleton events event ih =>
    rw [run, List.foldl_append]
    exact ⟨step_base ih.1 event, step_quiet ih.2 event⟩

/-- What has come of the data of a connection. -/
structure Served (s : Stub) (c : Nat) (conn : Conn) : Prop where
  /-- What was written are replies to the first queries, in their order. -/
  replies : ∀ (k : Nat) (bytes : Bytes), conn.written[k]? = some bytes → ∃ query reply,
    conn.queries[k]? = some query ∧ bytes = frame reply ∧ Reply query reply
  lengths : ∀ query ∈ conn.queries, 12 ≤ query.length ∧ query.length ≤ maxBytes
  /-- Nothing of the data is lost before the connection is destroyed. -/
  stream : conn.destroyed = false → conn.received = conn.queries.flatMap frame ++ conn.pending
  /-- Every query but the last is answered, and the last one is or has an open job. -/
  last : conn.destroyed = false → conn.written.length = conn.queries.length ∨
    ∃ (j : Nat) (job : Job) (answered : List Bytes), s.jobs[j]? = some job ∧
      job.origin = .tcp c ∧ job.isOpen = true ∧ conn.queries = answered ++ [job.query] ∧
      conn.written.length = answered.length
  /-- A connection at rest has answered every whole query that it has received; one that is busy
  waits for its job or for the callback of its last write. -/
  rest : conn.destroyed = false → conn.busy = false →
    conn.written.length = conn.queries.length ∧ Partial conn.pending
  busy : conn.destroyed = false → conn.busy = true → conn.flushing = true ∨
    ∃ (j : Nat) (job : Job), s.jobs[j]? = some job ∧ job.origin = .tcp c ∧ job.isOpen = true

theorem Stub.Base.served {conn : Conn} (h : s.Base config) (hquiet : s.Quiet c)
    (hconn : s.conns[c]? = some conn) : Served s c conn := by
  have hsound := h.conns c conn hconn
  refine ⟨hsound.written, hsound.lengths, hsound.stream, fun hlive => ?_, fun hlive hidle => ?_,
    fun hlive hbusy => ?_⟩
  · have hcourse := hsound.course hlive
    unfold Course at hcourse
    split at hcourse
    case h_1 j _ =>
      obtain ⟨-, -, job, answered, hjob, hrest⟩ := hcourse
      exact .inr ⟨j, job, answered, hjob, hrest⟩
    case h_2 => exact .inl hcourse.2
  · obtain ⟨-, -, hlength⟩ := Course.idle (hsound.course hlive) hidle
    exact ⟨hlength, hquiet conn hconn hlive hidle⟩
  · have hcourse := hsound.course hlive
    unfold Course at hcourse
    split at hcourse
    case h_1 j _ =>
      obtain ⟨-, -, job, answered, hjob, horigin, hopen, -⟩ := hcourse
      exact .inr ⟨j, job, hjob, horigin, hopen⟩
    case h_2 => exact .inl (hcourse.1.symm.trans hbusy)

/-- In every run: what is in flight are the requests that are not finished and those whose
outcome is not taken up; connections answer their queries one after the other; and a datagram
goes back to where its query came from, no longer than the query's size allows. -/
theorem stub_runs (config : Config) (events : List Event) :
    (run config events).inflight = (run config events).jobs.countP Job.unfinished +
        (run config events).jobs.countP Job.unclaimed ∧
    (run config events).inflight ≤ config.maxInflight ∧
    (∀ (c : Nat) (conn : Conn), (run config events).conns[c]? = some conn →
      Served (run config events) c conn) ∧
    (∀ d ∈ (run config events).sent, ∃ job q, (run config events).jobs[d.job]? = some job ∧
      job.origin = .udp d.port ∧ parseDnsQuery job.query = .ok q ∧
      d.bytes.length ≤ advertised q ∧ Reply job.query d.bytes) ∧
    ((run config events).sent.map Datagram.job).Nodup := by
  obtain ⟨h, hquiet⟩ := run_base config events
  refine ⟨h.inflight, h.limit, fun c conn hconn => h.served (hquiet c) hconn, fun d hd => ?_, h.once⟩
  obtain ⟨job, hjob, -, horigin, hgood, hshort⟩ := h.sent d hd
  obtain ⟨q, hquery, -⟩ := hgood.answers
  refine ⟨job, q, hjob, horigin, hquery, ?_, hgood⟩
  rw [← udpSize_advertised (parseDnsQuery_parse hquery).1]
  exact hshort q hquery

/-- A stub without a policy. -/
def labConfig : Config := ⟨16, 16, fun _ => false⟩

/-- A query for the address of `a` that advertises datagrams of ten bytes. -/
def smallQuery : Bytes :=
  [0, 5, 1, 0, 0, 1, 0, 0, 0, 0, 0, 1, 1, 97, 0, 0, 1, 0, 1, 0, 0, 41, 0, 10, 0, 0, 0, 0, 0, 0]

def emptyAnswer : Bytes := [0, 0, 129, 128, 0, 1, 0, 0, 0, 0, 0, 0, 1, 97, 0, 0, 1, 0, 1]

/-- A query for a name whose second label is what `pointedAnswer` has behind its pointer. -/
def pointedQuery : Bytes :=
  [0, 5, 1, 0, 0, 1, 0, 0, 0, 0, 0, 0, 1, 15, 15, 192, 13, 0, 1, 0, 1, 0, 0, 16, 0, 1, 0, 0, 0, 60,
    0, 0, 1, 0, 1]

/-- The name of the question goes on through the time to live of the record. -/
def pointedAnswer : Bytes :=
  [0, 0, 129, 128, 0, 1, 0, 1, 0, 0, 0, 0, 1, 15, 192, 13, 0, 1, 0, 1, 0, 0, 16, 0, 1, 0, 0, 0, 60,
    0, 0]

/-- One datagram and the answer of the upstream, which is a second old. -/
def exchanged (query body : Bytes) : List Event :=
  [.datagram "127.0.0.1" 5353 query, .finish 0 (some (body, 1)), .resume 0, .deliver 0]

/-- What is in flight may be finished; a reply may be longer than what was advertised; and a
name with a pointer may not survive that its message is aged. -/
theorem stub_deviates :
    ((run labConfig ((exchanged smallQuery emptyAnswer).take 2)).inflight = 1 ∧
      (run labConfig ((exchanged smallQuery emptyAnswer).take 2)).jobs.countP
        Job.unfinished = 0) ∧
    ((run labConfig (exchanged smallQuery emptyAnswer)).sent.map fun d => d.bytes.length) = [19] ∧
    ((run labConfig (exchanged pointedQuery pointedAnswer)).sent.map fun d =>
        (readQuestion d.bytes).toOption.map fun r => r.name.key) ≠
      [(parseDnsQuery pointedQuery).toOption.map Message.nameKey] ∧
    ((run labConfig (exchanged pointedQuery pointedAnswer)).sent.map fun d =>
        (readQuestion d.bytes).isOk) = [true] := by
  decide +kernel

end Meshpn.Dns.Doh
