import Meshpn.Dns.Wire
import Meshpn.Dns.WireAnswers

/-!
The loopback DoH stub. A query is a job: `resolveQuery` runs up to its upstream request, goes on
in a callback when the request is finished, and what it returns is handed to the socket in
another callback. A TCP connection has one query at a time; bytes that arrive meanwhile wait in
its buffer. Connections and jobs are numbered; those that are over keep their places.

What the stub replies to one query: a failure, the upstream's message, or what is left of it in
a datagram.
-/

namespace Meshpn.Dns.Doh

open Meshpn.Lib Meshpn.Dns.Wire

inductive Origin where
  /-- A datagram, with `peer.port`. -/
  | udp (port : Nat)
  | tcp (conn : Nat)
  deriving DecidableEq, Repr

/-- What runs next of a job. -/
inductive Phase where
  /-- The upstream request, which is not finished. -/
  | asking
  /-- The continuation of `await doh(..)`; without bytes the request has failed. -/
  | finished (reply : Option Bytes)
  /-- The callback of `then`. -/
  | returned (bytes : Option Bytes)
  /-- Nothing: `resolveQuery` has thrown. -/
  | threw
  | done
  deriving DecidableEq, Repr

structure Job where
  query : Bytes
  origin : Origin
  phase : Phase
  deriving DecidableEq, Repr

namespace Job

def udp (job : Job) : Bool :=
  match job.origin with
  | .udp _ => true
  | .tcp _ => false

/-- The upstream request is not finished. -/
def unfinished (job : Job) : Bool := job.phase == .asking

/-- The reply is still to come. -/
def isOpen (job : Job) : Bool :=
  match job.phase with
  | .threw | .done => false
  | _ => true

/-- The request is finished, and `resolveQuery` has not gone on. -/
def unclaimed (job : Job) : Bool :=
  match job.phase with
  | .finished _ => true
  | _ => false

end Job

structure Conn where
  /-- The used part of `pending`. -/
  pending : Bytes
  busy : Bool
  /-- The callback of `socket.write` is still to come. -/
  flushing : Bool
  readableEnded : Bool
  /-- `socket.end()` was called. -/
  ended : Bool
  destroyed : Bool
  /-- The event `close`, and with it the abort of the controller. -/
  closed : Bool
  /-- What was written. -/
  written : List Bytes
  /-- The data so far, the queries cut from them, and the job of the last one until its reply
  is written. -/
  received : Bytes
  queries : List Bytes
  current : Option Nat
  deriving DecidableEq, Repr

def Conn.fresh : Conn := ⟨[], false, false, false, false, false, false, [], [], [], none⟩

structure Counts where
  queries : Nat
  forwarded : Nat
  succeeded : Nat
  failed : Nat
  rejected : Nat
  policyDenied : Nat
  deriving DecidableEq, Repr

/-- A datagram that was sent, with the number of its job. -/
structure Datagram where
  job : Nat
  port : Nat
  bytes : Bytes
  deriving DecidableEq, Repr

structure Config where
  maxInflight : Nat
  maxTcpConnections : Nat
  /-- `policy?.denies`. -/
  denies : Message → Bool

structure Stub where
  conns : List Conn
  jobs : List Job
  inflight : Nat
  closing : Bool
  sent : List Datagram
  counts : Counts
  deriving DecidableEq, Repr

namespace Stub

def init : Stub := ⟨[], [], 0, false, [], ⟨0, 0, 0, 0, 0, 0⟩⟩

def putJob (s : Stub) (j : Nat) (job : Job) : Stub := { s with jobs := s.jobs.set j job }

def putConn (s : Stub) (c : Nat) (conn : Conn) : Stub := { s with conns := s.conns.set c conn }

def count (s : Stub) (next : Counts → Counts) : Stub := { s with counts := next s.counts }

/-- `dnsFailure(query, rcode)` as the value of the function. -/
def failure (query : Bytes) (rcode : Nat) : Phase :=
  match dnsFailure query rcode false with
  | .ok reply => .returned (some reply)
  | .error _ => .threw

def rejected (counts : Counts) : Counts := { counts with rejected := counts.rejected + 1 }

def queried (counts : Counts) : Counts := { counts with queries := counts.queries + 1 }

def denied (counts : Counts) : Counts := { counts with policyDenied := counts.policyDenied + 1 }

def failed (counts : Counts) : Counts := { counts with failed := counts.failed + 1 }

def succeeded (counts : Counts) : Counts := { counts with succeeded := counts.succeeded + 1 }

def forwarded (counts : Counts) : Counts := { counts with forwarded := counts.forwarded + 1 }

/-- The socket that a query came from has already closed. -/
def originClosed (s : Stub) : Origin → Bool
  | .udp _ => false
  | .tcp c => (s.conns[c]?).any Conn.closed

/-- The first part of `resolveQuery`, up to the request. -/
def admitQuery (config : Config) (s : Stub) (query : Bytes) (origin : Origin) : Stub × Phase :=
  match parseDnsQuery query with
  | .error _ => (s.count rejected, .returned none)
  | .ok parsed =>
    if s.closing then (s, .returned none)
    else if parsed.edns.any fun edns => edns.version > 0 then
      (s.count rejected, failure query 16)
    else if config.denies parsed then (s.count denied, failure query 5)
    else if config.maxInflight ≤ s.inflight then (s.count rejected, failure query 2)
    else
      ({ s.count forwarded with inflight := s.inflight + 1 },
        if s.originClosed origin then .finished none else .asking)

def run (config : Config) (s : Stub) (query : Bytes) (origin : Origin) : Stub :=
  let (s, phase) := (s.count queried).admitQuery config query origin
  { s with jobs := s.jobs ++ [⟨query, origin, phase⟩] }

/-- The reply of an upstream message, cut down where a datagram would be too long. -/
def fitted (query : Bytes) (parsed : Message) (udp : Bool) (reply : Bytes) :
    Except WireError Bytes :=
  let reply := writeUInt16 reply 0 parsed.id
  if udp && reply.length > parsed.udpSize then truncateDnsResponse query reply else .ok reply

/-- The rest of `resolveQuery`: what it returns, and what is counted. -/
def conclude (query : Bytes) (udp : Bool) (reply : Option Bytes) (counts : Counts) :
    Phase × Counts :=
  match parseDnsQuery query, reply with
  | .ok parsed, some reply =>
    match fitted query parsed udp reply with
    | .ok bytes => (.returned (some bytes), succeeded counts)
    | .error _ => (failure query 2, failed (succeeded counts))
  | _, _ => (failure query 2, failed counts)

/-- `resolveQuery` goes on behind the request. -/
def resume (s : Stub) (j : Nat) : Stub :=
  match s.jobs[j]? with
  | none => s
  | some job =>
    match job.phase with
    | .finished reply =>
      let (phase, counts) := conclude job.query job.udp reply s.counts
      { s with inflight := s.inflight - 1, counts := counts }.putJob j { job with phase := phase }
    | _ => s

/-- The message that is posted. -/
def upstreamQuery (query : Bytes) : Bytes := writeUInt16 query 0 0

/-- `finish` on the body of a response that is complete. -/
def received (query body : Bytes) (seconds : Nat) : Option Bytes :=
  match validateDnsResponse body (upstreamQuery query) with
  | .error _ => none
  | .ok _ => (ageDnsResponse body seconds).toOption

/-- How a request ends: with the body of a response and its age, or with an error. -/
def finish (s : Stub) (j : Nat) (outcome : Option (Bytes × Nat)) : Stub :=
  match s.jobs[j]? with
  | none => s
  | some job =>
    match job.phase with
    | .asking =>
      s.putJob j { job with
        phase := .finished (outcome.bind fun response => received job.query response.1 response.2) }
    | _ => s

/-- What the buffer of a connection begins with. -/
inductive Front where
  /-- Fewer bytes than a length has. -/
  | none
  /-- A length that no message has. -/
  | bad
  | part
  | whole (query rest : Bytes)
  deriving DecidableEq, Repr

def front : Bytes → Front
  | high :: low :: rest =>
    let length := Bytes.toUInt16 high low
    if length < 12 then .bad
    else if rest.length < length then .part
    else .whole (rest.take length) (rest.drop length)
  | _ => .none

def pump (config : Config) (s : Stub) (c : Nat) : Stub :=
  match s.conns[c]? with
  | none => s
  | some conn =>
    if conn.busy || conn.destroyed then s
    else
      match front conn.pending with
      | .none => if conn.readableEnded then s.putConn c { conn with ended := true } else s
      | .bad => (s.putConn c { conn with destroyed := true }).count rejected
      | .part => if conn.readableEnded then s.putConn c { conn with destroyed := true } else s
      | .whole query rest =>
        (s.putConn c { conn with
          pending := rest
          busy := true
          queries := conn.queries ++ [query]
          current := some s.jobs.length }).run config query (.tcp c)

/-- The capacity of `pending`. -/
def capacity : Nat := 2 * (maxBytes + 2)

/-- The event `data`. -/
def data (config : Config) (s : Stub) (c : Nat) (chunk : Bytes) : Stub :=
  match s.conns[c]? with
  | none => s
  | some conn =>
    if conn.destroyed || conn.readableEnded then s
    else if capacity < conn.pending.length + chunk.length then
      (s.putConn c { conn with destroyed := true, received := conn.received ++ chunk }).count
        rejected
    else
      (s.putConn c { conn with
        pending := conn.pending ++ chunk
        received := conn.received ++ chunk }).pump config c

/-- The event `end`. -/
def halfClose (config : Config) (s : Stub) (c : Nat) : Stub :=
  match s.conns[c]? with
  | none => s
  | some conn =>
    if conn.destroyed || conn.readableEnded then s
    else (s.putConn c { conn with readableEnded := true }).pump config c

/-- The lifetime is over, or the socket failed. -/
def destroy (s : Stub) (c : Nat) : Stub :=
  match s.conns[c]? with
  | none => s
  | some conn => s.putConn c { conn with destroyed := true }

/-- `finish(dnsError('DNS_ABORTED'))` of a request for the connection. -/
def abortJob (c : Nat) (job : Job) : Job :=
  if job.origin = .tcp c && job.unfinished then { job with phase := .finished none } else job

/-- The event `close`. -/
def closed (s : Stub) (c : Nat) : Stub :=
  match s.conns[c]? with
  | none => s
  | some conn =>
    { s.putConn c { conn with destroyed := true, closed := true } with
      jobs := s.jobs.map (abortJob c) }

/-- A connection is accepted; without a place for it, it is destroyed at once. -/
def connect (config : Config) (s : Stub) : Stub :=
  if s.closing || config.maxTcpConnections ≤ s.conns.countP (fun conn => !conn.closed) then s
  else { s with conns := s.conns ++ [.fresh] }

def frame (reply : Bytes) : Bytes := Bytes.ofUInt16 reply.length ++ reply

/-- The callback that `pump` hands to `run`. -/
def reply (s : Stub) (c : Nat) (bytes : Option Bytes) : Stub :=
  match s.conns[c]?, bytes with
  | some conn, none => s.putConn c { conn with destroyed := true }
  | some conn, some bytes =>
    if conn.destroyed then s
    else s.putConn c { conn with
      written := conn.written ++ [frame bytes]
      flushing := true
      current := none }
  | none, _ => s

/-- The callback of `udp.send` has nothing to do. -/
def send (s : Stub) (j port : Nat) : Option Bytes → Stub
  | none => s
  | some bytes => { s with sent := s.sent ++ [⟨j, port, bytes⟩] }

def hand (s : Stub) (j : Nat) (origin : Origin) (bytes : Option Bytes) : Stub :=
  match origin with
  | .udp port => s.send j port bytes
  | .tcp c => s.reply c bytes

/-- The callback of `then`. -/
def deliver (s : Stub) (j : Nat) : Stub :=
  match s.jobs[j]? with
  | none => s
  | some job =>
    match job.phase with
    | .returned bytes =>
      let s := s.putJob j { job with phase := .done }
      if s.closing then s else s.hand j job.origin bytes
    | _ => s

/-- The callback of `socket.write`. -/
def flushed (config : Config) (s : Stub) (c : Nat) : Stub :=
  match s.conns[c]? with
  | none => s
  | some conn =>
    if conn.flushing then
      (s.putConn c { conn with busy := false, flushing := false }).pump config c
    else s

/-- The event `message`. -/
def datagram (config : Config) (s : Stub) (address : String) (port : Nat) (query : Bytes) : Stub :=
  if address ≠ "127.0.0.1" || query.length > udpMaxBytes then s.count rejected
  else s.run config query (.udp port)

/-- `close`: the requests fail and the sockets close in events of their own. -/
def close (s : Stub) : Stub :=
  if s.closing then s
  else
    { s with
      closing := true
      conns := s.conns.map fun conn => { conn with destroyed := true } }

end Stub

/-- What can happen next. What cannot happen in a state leaves it as it is. -/
inductive Event where
  | datagram (address : String) (port : Nat) (query : Bytes)
  | connect
  | data (c : Nat) (chunk : Bytes)
  | halfClose (c : Nat)
  | destroy (c : Nat)
  | closed (c : Nat)
  | finish (j : Nat) (outcome : Option (Bytes × Nat))
  | resume (j : Nat)
  | deliver (j : Nat)
  | flushed (c : Nat)
  | close

def step (config : Config) (s : Stub) : Event → Stub
  | .datagram address port query => s.datagram config address port query
  | .connect => s.connect config
  | .data c chunk => s.data config c chunk
  | .halfClose c => s.halfClose config c
  | .destroy c => s.destroy c
  | .closed c => s.closed c
  | .finish j outcome => s.finish j outcome
  | .resume j => s.resume j
  | .deliver j => s.deliver j
  | .flushed c => s.flushed config c
  | .close => s.close

def run (config : Config) (events : List Event) : Stub := events.foldl (step config) .init

open Meshpn.Lib Meshpn.Lib.Fallible Meshpn.Dns.Wire

def advertised (q : Message) : Nat :=
  match q.records.find? fun rr => rr.type = 41 with
  | none => 512
  | some rr => min udpMaxBytes (max 512 rr.klass)

theorem walk_advertised {packet : Bytes} {sections : List Nat} {stop : Nat} {walk : Walk}
    (h : sections.foldlM (readRecord packet) ⟨stop, 512, none, []⟩ = .ok walk) :
    (walk.edns = none ∧ (∀ rr ∈ walk.records, rr.type ≠ 41) ∧ walk.udpSize = 512) ∨
      (walk.edns ≠ none ∧ ∃ rr, (walk.records.find? fun rr => rr.type = 41) = some rr ∧
        walk.udpSize = min udpMaxBytes (max 512 rr.klass)) := by
  refine foldlM_keeps (P := fun w =>
    (w.edns = none ∧ (∀ rr ∈ w.records, rr.type ≠ 41) ∧ w.udpSize = 512) ∨
      (w.edns ≠ none ∧ ∃ rr, (w.records.find? fun rr => rr.type = 41) = some rr ∧
        w.udpSize = min udpMaxBytes (max 512 rr.klass))) (fun part _ w next hnext hw => ?_)
    (.inl ⟨rfl, fun rr hrr => (by cases hrr), rfl⟩) h
  obtain ⟨rr, hpass⟩ := readRecord_pass hnext
  rw [hpass.records]
  rcases hpass.edns with ⟨htype, hnone, hsize, hedns⟩ | ⟨htype, hsize, hedns⟩
  · rcases hw with ⟨-, hplain, -⟩ | ⟨hsome, -⟩
    · refine .inr ⟨by simp [hedns], rr, ?_, hsize⟩
      have hfront : (w.records.find? fun rr => rr.type = 41) = none :=
        List.find?_eq_none.mpr fun other hother => by simpa using hplain other hother
      rw [List.find?_append, hfront]
      simp [htype]
    · exact absurd hnone hsome
  · rw [hedns, hsize]
    rcases hw with ⟨hnone, hplain, hplainSize⟩ | ⟨hsome, first, hfirst, hfirstSize⟩
    · refine .inl ⟨hnone, fun other hother => ?_, hplainSize⟩
      rcases List.mem_append.mp hother with hold | hnew
      · exact hplain other hold
      · rw [List.mem_singleton.mp hnew]
        exact htype
    · refine .inr ⟨hsome, first, ?_, hfirstSize⟩
      rw [List.find?_append, hfirst]
      rfl

theorem udpSize_advertised {packet : Bytes} {m : Message} (h : parseDns packet = .ok m) :
    m.udpSize = advertised m := by
  simp only [parseDns, bind_eq_ok, pure_eq_ok] at h
  obtain ⟨question, -, _, -, _, -, _, -, _, -, walk, hwalk, _, -, rfl⟩ := h
  unfold advertised
  rcases walk_advertised hwalk with ⟨-, hplain, hsize⟩ | ⟨-, rr, hfound, hsize⟩
  · have hnone : (walk.records.find? fun rr => rr.type = 41) = none :=
      List.find?_eq_none.mpr fun other hother => by simpa using hplain other hother
    rw [hnone]
    exact hsize
  · rw [hfound]
    exact hsize

/-- An upstream message whose question was that of the query, but written with a pointer, may
read otherwise once it is aged. -/
def Pointed (query reply : Bytes) (id : Nat) : Prop :=
  ∃ body m seconds aged, validateDnsResponse body (Stub.upstreamQuery query) = .ok m ∧
    m.question.name.compressed = true ∧ ageDnsResponse body seconds = .ok aged ∧
    reply = writeUInt16 aged 0 id

/-- The reply belongs to the query: its identifier, and its question. -/
structure Reply (query reply : Bytes) : Prop where
  fits : reply.length ≤ maxBytes
  answers : ∃ q, parseDnsQuery query = .ok q ∧ readUInt16 reply 0 = .ok q.id ∧
    ((∃ r, Answers q reply r) ∨ Pointed query reply q.id)

section Query

variable {query : Bytes} {q : Message}

theorem Reply.of_answers {reply : Bytes} {r : Question} (hquery : parseDnsQuery query = .ok q)
    (h : Answers q reply r) : Reply query reply where
  fits := (readQuestion_length h.read).2
  answers := ⟨q, hquery, h.id ▸ (readQuestion_header h.read).1, .inl ⟨r, h⟩⟩

theorem failure_reply (hquery : parseDnsQuery query = .ok q) (rcode : Nat) (hmax : rcode ≤ 4095)
    (hcode : rcode ≤ 15 ∨ q.edns.isSome = true) :
    ∃ reply, Stub.failure query rcode = .returned (some reply) ∧ Reply query reply ∧
      reply.length ≤ q.udpSize := by
  obtain ⟨reply, r, hreply, hshort, hanswers⟩ := dnsFailure_answers hquery false hmax hcode
  have hsize := (parseDns_edns (parseDnsQuery_parse hquery).1).2.1
  refine ⟨reply, ?_, .of_answers hquery hanswers, by omega⟩
  rw [Stub.failure, hreply]

theorem parseDnsQuery_id (hquery : parseDnsQuery query = .ok q) : q.id < 65536 :=
  readUInt16_lt (readQuestion_header (parseDns_question (parseDnsQuery_parse hquery).1)).1

theorem upstreamQuery_parse (hquery : parseDnsQuery query = .ok q) :
    parseDnsQuery (Stub.upstreamQuery query) = .ok (q.withId 0) := by
  have hparse := (parseDnsQuery_parse hquery).1
  simp only [Stub.upstreamQuery, parseDnsQuery, hparse,
    parseDns_writeId (show 0 < 65536 by decide) hparse, ok_bind] at hquery ⊢
  simp only [bind_eq_ok, pure_eq_ok] at hquery ⊢
  obtain ⟨_, hheader, _, hopt, _, hplain, -⟩ := hquery
  exact ⟨_, hheader, _, hopt, _, hplain, trivial⟩

theorem relayed_reply (hquery : parseDnsQuery query = .ok q) {body reply : Bytes} {seconds : Nat}
    (h : Stub.received query body seconds = some reply) :
    Reply query (writeUInt16 reply 0 q.id) := by
  unfold Stub.received at h
  split at h
  case h_1 => cases h
  rename_i m hvalid
  obtain ⟨asked, hasked, hparse, hanswers, -⟩ := validate_message hvalid
  rw [upstreamQuery_parse hquery, Except.ok.injEq] at hasked
  subst hasked
  cases hage : ageDnsResponse body seconds with
  | error e =>
    rw [hage] at h
    cases h
  | ok aged =>
    rw [hage] at h
    cases h
    have hlow := parseDnsQuery_id hquery
    have hlength := readQuestion_length (parseDns_question hparse)
    have haged := (ageDnsResponse_region hparse hage).1
    have hwritten : (writeUInt16 reply 0 q.id).length = reply.length :=
      writeAt_length (by rw [Bytes.ofUInt16_length]; omega)
    have hid : readUInt16 (writeUInt16 reply 0 q.id) 0 = .ok q.id :=
      readUInt16_writeUInt16 (Nat.zero_le _) hlow
    refine ⟨by omega, q, hquery, hid, ?_⟩
    cases hplain : m.question.name.compressed with
    | true => exact .inr ⟨body, m, seconds, reply, hvalid, hplain, hage, rfl⟩
    | false =>
      have hread := readQuestion_writeId hlow (ageDnsResponse_question hparse hage hplain)
      exact .inl ⟨_, hread, hanswers.answer, rfl, hanswers.nameKey, hanswers.type,
        hanswers.klass⟩

theorem conclude_reply (hquery : parseDnsQuery query = .ok q) (udp : Bool) {reply : Option Bytes}
    (hreply : ∀ bytes, reply = some bytes → ∃ body seconds,
      Stub.received query body seconds = some bytes) (counts : Counts) :
    ∃ bytes, (Stub.conclude query udp reply counts).1 = .returned (some bytes) ∧
      Reply query bytes ∧ (udp = true → bytes.length ≤ q.udpSize) := by
  obtain ⟨failed, hfailed, hgood, hshort⟩ :=
    failure_reply hquery 2 (by decide) (.inl (by decide))
  unfold Stub.conclude
  rw [hquery]
  rcases hsome : reply with _ | bytes
  · exact ⟨failed, hfailed, hgood, fun _ => hshort⟩
  obtain ⟨body, seconds, hreceived⟩ := hreply bytes hsome
  have hrelayed := relayed_reply hquery hreceived
  simp only [Stub.fitted]
  by_cases hlong : udp = true ∧ (writeUInt16 bytes 0 q.id).length > q.udpSize
  · rw [if_pos (by simpa using hlong)]
    rcases hcut : truncateDnsResponse query (writeUInt16 bytes 0 q.id) with e | cut
    · exact ⟨failed, hfailed, hgood, fun _ => hshort⟩
    obtain ⟨m, hvalid⟩ : ∃ m, validateDnsResponse (writeUInt16 bytes 0 q.id) query = .ok m := by
      simp only [truncateDnsResponse, bind_eq_ok] at hcut
      obtain ⟨m, hvalid, -⟩ := hcut
      exact ⟨m, hvalid⟩
    obtain ⟨asked, made, r, hasked, hmade, hsmall, hanswers⟩ := truncate_answers hvalid
    rw [hquery, Except.ok.injEq] at hasked
    rw [hcut, Except.ok.injEq] at hmade
    subst hasked hmade
    have hsize := (parseDns_edns (parseDnsQuery_parse hquery).1).2.1
    exact ⟨cut, rfl, .of_answers hquery hanswers, fun _ => by omega⟩
  · rw [if_neg (by simpa using hlong)]
    exact ⟨_, rfl, hrelayed, fun hudp => Nat.not_lt.mp fun hover => hlong ⟨hudp, hover⟩⟩

end Query

end Meshpn.Dns.Doh
