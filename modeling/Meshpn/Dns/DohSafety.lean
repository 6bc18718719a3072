import Meshpn.Dns.DohStub
import Meshpn.Lib.InFlight

/-!
The stub in every run. A connection has at most one job that is open; its queries and what is
left in its buffer are what it has received, and what was written answers its first queries.
-/

namespace Meshpn.Dns.Doh

open Meshpn.Lib Meshpn.Lib.Fallible Meshpn.Dns.Wire Stub

structure Job.Sound (job : Job) : Prop where
  parsed : job.unfinished = true ∨ job.unclaimed = true → ∃ q, parseDnsQuery job.query = .ok q
  finished : ∀ bytes, job.phase = .finished (some bytes) →
    ∃ body seconds, Stub.received job.query body seconds = some bytes
  returned : ∀ bytes, job.phase = .returned (some bytes) → Reply job.query bytes ∧
    (job.udp = true → ∀ q, parseDnsQuery job.query = .ok q → bytes.length ≤ q.udpSize)
  threw : job.phase ≠ .threw

def Partial (pending : Bytes) : Prop := front pending = .none ∨ front pending = .part

/-- Where the conversation of a connection that is not destroyed stands: the last query is the
one of an open job, or all queries are answered. -/
def Course (jobs : List Job) (c : Nat) (conn : Conn) : Prop :=
  match conn.current with
  | some j => conn.busy = true ∧ conn.flushing = false ∧
      ∃ job answered, jobs[j]? = some job ∧ job.origin = .tcp c ∧ job.isOpen = true ∧
        conn.queries = answered ++ [job.query] ∧ conn.written.length = answered.length
  | none => conn.busy = conn.flushing ∧ conn.written.length = conn.queries.length

structure Conn.Sound (jobs : List Job) (c : Nat) (conn : Conn) : Prop where
  written : ∀ (k : Nat) (bytes : Bytes), conn.written[k]? = some bytes → ∃ query reply,
    conn.queries[k]? = some query ∧ bytes = frame reply ∧ Reply query reply
  lengths : ∀ query ∈ conn.queries, 12 ≤ query.length ∧ query.length ≤ maxBytes
  closed : conn.closed = true → conn.destroyed = true
  stream : conn.destroyed = false → conn.received = conn.queries.flatMap frame ++ conn.pending
  course : conn.destroyed = false → Course jobs c conn

/-- Everything but that a connection at rest holds no whole query. -/
structure Stub.Base (config : Config) (s : Stub) : Prop where
  jobs : ∀ job ∈ s.jobs, job.Sound
  range : ∀ job ∈ s.jobs, ∀ c, job.origin = .tcp c → c < s.conns.length
  conns : ∀ (c : Nat) (conn : Conn), s.conns[c]? = some conn → conn.Sound s.jobs c
  owner : ∀ (j : Nat) (job : Job), s.jobs[j]? = some job → job.isOpen = true →
    ∀ c, job.origin = .tcp c → ∀ conn : Conn, s.conns[c]? = some conn → conn.destroyed = false → conn.current = some j
  inflight : s.inflight = s.jobs.countP Job.unfinished + s.jobs.countP Job.unclaimed
  limit : s.inflight ≤ config.maxInflight
  closing : s.closing = true → ∀ conn ∈ s.conns, conn.destroyed = true
  sent : ∀ d ∈ s.sent, ∃ job, s.jobs[d.job]? = some job ∧ job.phase = .done ∧
    job.origin = .udp d.port ∧ Reply job.query d.bytes ∧
    ∀ q, parseDnsQuery job.query = .ok q → d.bytes.length ≤ q.udpSize
  once : (s.sent.map Datagram.job).Nodup

/-- A connection that is neither destroyed nor busy holds no whole query. -/
def Stub.Quiet (s : Stub) (c : Nat) : Prop :=
  ∀ conn : Conn, s.conns[c]? = some conn → conn.destroyed = false → conn.busy = false →
    Partial conn.pending

variable {config : Config} {s : Stub} {c j : Nat}

theorem Stub.Base.init (config : Config) : Stub.Base config .init where
  jobs := fun _ h => by cases h
  range := fun _ h => by cases h
  conns := fun c conn h => by simp [Stub.init] at h
  owner := fun j job h => by simp [Stub.init] at h
  inflight := rfl
  limit := Nat.zero_le _
  closing := fun h => by cases h
  sent := fun _ h => by cases h
  once := List.nodup_nil

theorem front_whole {pending query rest : Bytes} (h : front pending = .whole query rest) :
    pending = frame query ++ rest ∧ 12 ≤ query.length ∧ query.length ≤ maxBytes := by
  unfold front at h
  split at h
  case h_2 => cases h
  rename_i high low tail
  dsimp only at h
  split at h
  case isTrue => cases h
  split at h
  case isTrue => cases h
  rename_i hroom
  cases h
  have hlow := Bytes.toUInt16_lt high low
  have hlength : (tail.take (Bytes.toUInt16 high low)).length = Bytes.toUInt16 high low :=
    List.length_take_of_le (Nat.not_lt.mp hroom)
  refine ⟨?_, by omega, by simp only [maxBytes]; omega⟩
  rw [frame, hlength, Bytes.ofUInt16_toUInt16, List.append_assoc, List.take_append_drop]
  rfl

theorem Course.mono {jobs jobs' : List Job} {conn : Conn} (h : Course jobs c conn)
    (hjobs : ∀ j, conn.current = some j → ∀ job, jobs[j]? = some job → job.isOpen = true →
      ∃ job', jobs'[j]? = some job' ∧ job'.query = job.query ∧ job'.origin = job.origin ∧
        job'.isOpen = true) : Course jobs' c conn := by
  unfold Course at h ⊢
  rcases hcurrent : conn.current with _ | j
  · simpa [hcurrent] using h
  simp only [hcurrent] at h ⊢
  obtain ⟨hbusy, hflushing, job, answered, hjob, horigin, hopen, hqueries, hlength⟩ := h
  obtain ⟨job', hjob', hquery, horigin', hopen'⟩ := hjobs j hcurrent job hjob hopen
  exact ⟨hbusy, hflushing, job', answered, hjob', horigin'.trans horigin, hopen',
    hquery ▸ hqueries, hlength⟩

theorem Conn.Sound.mono {jobs jobs' : List Job} {conn : Conn} (h : conn.Sound jobs c)
    (hjobs : conn.destroyed = false → ∀ j, conn.current = some j → ∀ job, jobs[j]? = some job →
      job.isOpen = true → ∃ job', jobs'[j]? = some job' ∧ job'.query = job.query ∧
        job'.origin = job.origin ∧ job'.isOpen = true) : conn.Sound jobs' c :=
  ⟨h.written, h.lengths, h.closed, h.stream, fun hlive => (h.course hlive).mono (hjobs hlive)⟩

theorem Conn.Sound.destroy {jobs : List Job} {conn conn' : Conn} (h : conn.Sound jobs c)
    (hdestroyed : conn'.destroyed = true) (hwritten : conn'.written = conn.written)
    (hqueries : conn'.queries = conn.queries) : conn'.Sound jobs c := by
  refine ⟨?_, ?_, fun _ => hdestroyed, fun hlive => ?_, fun hlive => ?_⟩
  · rw [hwritten, hqueries]
    exact h.written
  · rw [hqueries]
    exact h.lengths
  · rw [hdestroyed] at hlive
    cases hlive
  · rw [hdestroyed] at hlive
    cases hlive

namespace Stub

theorem Base.count (h : Base config s) (next : Counts → Counts) : Base config (s.count next) :=
  ⟨h.jobs, h.range, h.conns, h.owner, h.inflight, h.limit, h.closing, h.sent, h.once⟩

/-- A connection takes another state, with the same job or without a job to wait for. -/
theorem Base.putConn {conn conn' : Conn} (h : Base config s) (hconn : s.conns[c]? = some conn)
    (hsound : conn'.Sound s.jobs c)
    (hlive : conn'.destroyed = false →
      conn.destroyed = false ∧ conn'.current = conn.current) :
    Base config (s.putConn c conn') := by
  have hin := (List.getElem?_eq_some_iff.mp hconn).1
  refine ⟨h.jobs, fun job hjob c' horigin => ?_, fun c' other hother => ?_,
    fun j job hjob hopen c' horigin other hother hother' => ?_, h.inflight, h.limit,
    fun hclosing other hother => ?_, h.sent, h.once⟩
  · rw [Stub.putConn, List.length_set]
    exact h.range job hjob c' horigin
  · rw [Stub.putConn, List.getElem?_set] at hother
    split at hother
    case isTrue heq =>
      subst heq
      rw [Option.some.injEq] at hother
      exact hother ▸ hsound
    case isFalse => exact h.conns c' other hother
  · rw [Stub.putConn, List.getElem?_set] at hother
    split at hother
    case isTrue heq =>
      subst heq
      rw [Option.some.injEq] at hother
      subst hother
      obtain ⟨hbefore, hcurrent⟩ := hlive hother'
      rw [hcurrent]
      exact h.owner j job hjob hopen c horigin conn hconn hbefore
    case isFalse => exact h.owner j job hjob hopen c' horigin other hother hother'
  · rcases List.mem_or_eq_of_mem_set hother with hold | rfl
    · exact h.closing hclosing other hold
    · have hbefore := h.closing hclosing conn (List.mem_of_getElem? hconn)
      cases hdestroyed : other.destroyed with
      | true => rfl
      | false =>
        rw [(hlive hdestroyed).1] at hbefore
        cases hbefore

theorem Base.destroyConn {conn conn' : Conn} (h : Base config s) (hconn : s.conns[c]? = some conn)
    (hdestroyed : conn'.destroyed = true) (hwritten : conn'.written = conn.written)
    (hqueries : conn'.queries = conn.queries) : Base config (s.putConn c conn') :=
  h.putConn hconn ((h.conns c conn hconn).destroy hdestroyed hwritten hqueries) fun hlive => by
    rw [hdestroyed] at hlive
    cases hlive

theorem quiet_putConn {conn' : Conn} (hother : ∀ c', c' ≠ c → s.Quiet c')
    (hself : conn'.destroyed = false → conn'.busy = false → Partial conn'.pending) (c' : Nat) :
    (s.putConn c conn').Quiet c' := by
  intro conn hconn hlive hidle
  rw [Stub.putConn, List.getElem?_set] at hconn
  split at hconn
  case isTrue heq =>
    split at hconn
    case isFalse => cases hconn
    cases hconn
    exact hself hlive hidle
  case isFalse hne => exact hother c' (Ne.symm hne) conn hconn hlive hidle

theorem Base.putJob {job job' : Job} (h : Base config s) (hjob : s.jobs[j]? = some job)
    (hsound : job'.Sound) (hquery : job'.query = job.query) (horigin : job'.origin = job.origin)
    (hopen : job.isOpen = true) (hopen' : job'.isOpen = true) {inflight : Nat} {counts : Counts}
    (hinflight : inflight + job.unfinished.toNat + job.unclaimed.toNat =
      s.inflight + job'.unfinished.toNat + job'.unclaimed.toNat)
    (hlimit : inflight ≤ config.maxInflight) :
    Base config { s with inflight := inflight, counts := counts, jobs := s.jobs.set j job' } := by
  have hin := (List.getElem?_eq_some_iff.mp hjob).1
  have hget : ∀ i other, (s.jobs.set j job')[i]? = some other →
      (i = j ∧ other = job') ∨ (i ≠ j ∧ s.jobs[i]? = some other) := by
    intro i other hother
    rw [List.getElem?_set] at hother
    split at hother
    case isTrue heq =>
      rw [Option.some.injEq] at hother
      exact .inl ⟨heq.symm, hother.symm⟩
    case isFalse hne => exact .inr ⟨Ne.symm hne, hother⟩
  have hcount (p : Job → Bool) := InFlight.countP_set p job' hjob
  refine ⟨fun other hother => ?_, fun other hother c horigin' => ?_, fun c conn hconn => ?_,
    fun i other hother hopen'' c horigin' conn hconn hlive => ?_, ?_, hlimit, h.closing,
    fun d hd => ?_, h.once⟩
  · rcases List.mem_or_eq_of_mem_set hother with hold | rfl
    · exact h.jobs other hold
    · exact hsound
  · rcases List.mem_or_eq_of_mem_set hother with hold | rfl
    · exact h.range other hold c horigin'
    · exact h.range job (List.mem_of_getElem? hjob) c (horigin.symm.trans horigin')
  · refine (h.conns c conn hconn).mono fun _ i _ other hother hlive => ?_
    rw [List.getElem?_set]
    split
    case isTrue heq =>
      subst heq
      rw [hjob, Option.some.injEq] at hother
      subst hother
      exact ⟨job', rfl, hquery, horigin, hopen'⟩
    case isFalse => exact ⟨other, hother, rfl, rfl, hlive⟩
  · rcases hget i other hother with ⟨rfl, rfl⟩ | ⟨-, hold⟩
    · exact h.owner i job hjob hopen c (horigin.symm.trans horigin') conn hconn hlive
    · exact h.owner i other hold hopen'' c horigin' conn hconn hlive
  · have hunfinished := hcount Job.unfinished
    have hunclaimed := hcount Job.unclaimed
    have hbefore := h.inflight
    dsimp only
    omega
  · obtain ⟨other, hother, hdone, hrest⟩ := h.sent d hd
    refine ⟨other, ?_, hdone, hrest⟩
    rw [List.getElem?_set_ne ?_, hother]
    rintro rfl
    rw [hjob, Option.some.injEq] at hother
    subst hother
    unfold Job.isOpen at hopen
    rw [hdone] at hopen
    cases hopen

variable {job : Job} {conn : Conn}

theorem Base.begin {conns : List Conn} {inflight : Nat} {counts : Counts}
    (h : Base config s) (hsound : job.Sound) (hlength : conns.length = s.conns.length)
    (hrange : ∀ c, job.origin = .tcp c → c < s.conns.length)
    (hclosing : s.closing = true → ∀ conn ∈ conns, conn.destroyed = true)
    (hconns : ∀ (c : Nat) (conn : Conn), conns[c]? = some conn →
      (s.conns[c]? = some conn ∧ job.origin ≠ .tcp c) ∨
      (conn.Sound (s.jobs ++ [job]) c ∧ conn.current = some s.jobs.length ∧
        ∃ old, s.conns[c]? = some old ∧ old.destroyed = false ∧ old.current = none))
    (hinflight : inflight = s.inflight + job.unfinished.toNat + job.unclaimed.toNat)
    (hlimit : inflight ≤ config.maxInflight) :
    Base config { s with
      conns := conns, jobs := s.jobs ++ [job], inflight := inflight, counts := counts } := by
  have hget : ∀ (i : Nat) (other : Job), (s.jobs ++ [job])[i]? = some other →
      s.jobs[i]? = some other ∨ (i = s.jobs.length ∧ other = job) := by
    intro i other hother
    rcases Nat.lt_trichotomy i s.jobs.length with hlt | rfl | hgt
    · rw [List.getElem?_append_left hlt] at hother
      exact .inl hother
    · simp only [List.getElem?_concat_length, Option.some.injEq] at hother
      exact .inr ⟨rfl, hother.symm⟩
    · rw [List.getElem?_eq_none (by rw [List.length_append, List.length_singleton]; omega)] at hother
      cases hother
  have hkept : ∀ (i : Nat) (other : Job), s.jobs[i]? = some other →
      (s.jobs ++ [job])[i]? = some other := fun i other hother => by
    rw [List.getElem?_append_left (List.getElem?_eq_some_iff.mp hother).1]
    exact hother
  refine ⟨fun other hother => ?_, fun other hother c horigin => ?_, fun c conn hconn => ?_,
    fun i other hother hopen c horigin conn hconn hlive => ?_, ?_, hlimit, hclosing,
    fun d hd => ?_, h.once⟩
  · rcases List.mem_append.mp hother with hold | hnew
    · exact h.jobs other hold
    · rw [List.mem_singleton.mp hnew]
      exact hsound
  · dsimp only
    rw [hlength]
    rcases List.mem_append.mp hother with hold | hnew
    · exact h.range other hold c horigin
    · rw [List.mem_singleton.mp hnew] at horigin
      exact hrange c horigin
  · rcases hconns c conn hconn with ⟨hold, -⟩ | ⟨hnew, -⟩
    · exact (h.conns c conn hold).mono fun _ i _ other hother hopen =>
        ⟨other, hkept i other hother, rfl, rfl, hopen⟩
    · exact hnew
  · rcases hget i other hother with hold | ⟨rfl, rfl⟩
    · rcases hconns c conn hconn with ⟨hsame, -⟩ | ⟨-, -, old, hbefore, holdLive, hnone⟩
      · exact h.owner i other hold hopen c horigin conn hsame hlive
      · have howner := h.owner i other hold hopen c horigin old hbefore holdLive
        rw [hnone] at howner
        cases howner
    · rcases hconns c conn hconn with ⟨-, hother⟩ | ⟨-, hcurrent, -⟩
      · exact absurd horigin hother
      · exact hcurrent
  · have hbefore := h.inflight
    rw [List.countP_append, List.countP_append, List.countP_singleton, List.countP_singleton,
      hinflight]
    cases job.unfinished <;> cases job.unclaimed <;> simp <;> omega
  · obtain ⟨other, hother, hrest⟩ := h.sent d hd
    exact ⟨other, hkept d.job other hother, hrest⟩

/-- What `resolveQuery` makes of a query before it waits. -/
structure Admitted (config : Config) (s : Stub) (query : Bytes) (origin : Origin) (inflight : Nat)
    (phase : Phase) : Prop where
  sound : Job.Sound ⟨query, origin, phase⟩
  isOpen : Job.isOpen ⟨query, origin, phase⟩ = true
  counted : inflight = s.inflight + (Job.unfinished ⟨query, origin, phase⟩).toNat +
    (Job.unclaimed ⟨query, origin, phase⟩).toNat
  limit : inflight ≤ config.maxInflight

theorem Admitted.returned {query : Bytes} {origin : Origin} {bytes : Option Bytes}
    (hlimit : s.inflight ≤ config.maxInflight)
    (hreply : ∀ reply, bytes = some reply → Reply query reply ∧
      ∀ q, parseDnsQuery query = .ok q → reply.length ≤ q.udpSize) :
    Admitted config s query origin s.inflight (.returned bytes) where
  sound :=
    { parsed := fun h => by rcases h with h | h <;> cases h
      finished := fun _ h => by cases h
      returned := fun reply h => by
        cases h
        exact ⟨(hreply reply rfl).1, fun _ => (hreply reply rfl).2⟩
      threw := fun h => by cases h }
  isOpen := rfl
  counted := rfl
  limit := hlimit

theorem admitQuery_spec (query : Bytes) (origin : Origin)
    (hlimit : s.inflight ≤ config.maxInflight) :
    ∃ inflight counts phase,
      s.admitQuery config query origin = ({ s with inflight := inflight, counts := counts }, phase) ∧
      Admitted config s query origin inflight phase := by
  unfold Stub.admitQuery
  split
  case h_1 => exact ⟨_, _, _, rfl, .returned hlimit fun _ h => by cases h⟩
  rename_i q hquery
  have hfail : ∀ rcode, rcode ≤ 4095 → (rcode ≤ 15 ∨ q.edns.isSome = true) →
      ∃ phase, failure query rcode = phase ∧
        Admitted config s query origin s.inflight phase := by
    intro rcode hmax hcode
    obtain ⟨reply, hreply, hgood, hshort⟩ := failure_reply hquery rcode hmax hcode
    refine ⟨_, hreply, .returned hlimit fun bytes hbytes => ?_⟩
    cases hbytes
    refine ⟨hgood, fun other hother => ?_⟩
    rw [hquery, Except.ok.injEq] at hother
    exact hother ▸ hshort
  split
  case isTrue => exact ⟨_, _, _, rfl, .returned hlimit fun _ h => by cases h⟩
  split
  case isTrue hversion =>
    have hedns : q.edns.isSome = true := by
      cases hnone : q.edns with
      | none =>
        rw [hnone] at hversion
        cases hversion
      | some edns => rfl
    obtain ⟨phase, hphase, hadmitted⟩ := hfail 16 (by decide) (.inr hedns)
    exact ⟨_, _, phase, by rw [hphase]; rfl, hadmitted⟩
  case isFalse =>
    split
    case isTrue =>
      obtain ⟨phase, hphase, hadmitted⟩ := hfail 5 (by decide) (.inl (by decide))
      exact ⟨_, _, phase, by rw [hphase]; rfl, hadmitted⟩
    split
    case isTrue =>
      obtain ⟨phase, hphase, hadmitted⟩ := hfail 2 (by decide) (.inl (by decide))
      exact ⟨_, _, phase, by rw [hphase]; rfl, hadmitted⟩
    case isFalse hroom =>
      refine ⟨_, _, _, rfl, ?_⟩
      split
      · exact ⟨⟨fun _ => ⟨q, hquery⟩, fun _ h => (by cases h), fun _ h => (by cases h),
          fun h => (by cases h)⟩, rfl, rfl, Nat.not_le.mp hroom⟩
      · exact ⟨⟨fun _ => ⟨q, hquery⟩, fun _ h => (by cases h), fun _ h => (by cases h),
          fun h => (by cases h)⟩, rfl, rfl, Nat.not_le.mp hroom⟩

theorem Base.runUdp {query : Bytes} {port : Nat} (h : Base config s) :
    Base config (s.run config query (.udp port)) ∧
      (s.run config query (.udp port)).conns = s.conns := by
  obtain ⟨inflight, counts, phase, heq, hadmitted⟩ :=
    admitQuery_spec (s := s.count queried) query (.udp port) h.limit
  unfold Stub.run
  rw [heq]
  refine ⟨h.begin hadmitted.sound rfl (fun c hc => (by cases hc)) h.closing
    (fun c conn hconn => .inl ⟨hconn, fun hc => (by cases hc)⟩) hadmitted.counted
    hadmitted.limit, rfl⟩

theorem Course.idle {jobs : List Job} (h : Course jobs c conn)
    (hidle : conn.busy = false) :
    conn.current = none ∧ conn.flushing = false ∧ conn.written.length = conn.queries.length := by
  unfold Course at h
  cases hcurrent : conn.current with
  | none =>
    simp only [hcurrent] at h
    exact ⟨rfl, h.1.symm.trans hidle, h.2⟩
  | some j =>
    simp only [hcurrent, hidle] at h
    cases h.1

theorem Base.take {query rest : Bytes} (h : Base config s)
    (hconn : s.conns[c]? = some conn) (hlive : conn.destroyed = false) (hidle : conn.busy = false)
    (hfront : front conn.pending = .whole query rest) :
    Base config ((s.putConn c { conn with
      pending := rest
      busy := true
      queries := conn.queries ++ [query]
      current := some s.jobs.length }).run config query (.tcp c)) := by
  obtain ⟨hpending, hlow, hhigh⟩ := front_whole hfront
  have hsound := h.conns c conn hconn
  obtain ⟨hnone, hflushing, hlength⟩ := Course.idle (hsound.course hlive) hidle
  have hin := (List.getElem?_eq_some_iff.mp hconn).1
  obtain ⟨inflight, counts, phase, heq, hadmitted⟩ := @admitQuery_spec config
    ((s.putConn c { conn with
      pending := rest
      busy := true
      queries := conn.queries ++ [query]
      current := some s.jobs.length }).count queried) query (.tcp c) h.limit
  unfold Stub.run
  rw [heq]
  refine h.begin hadmitted.sound (List.length_set) (fun c' hc' => ?_) (fun hclosing other hother => ?_)
    (fun c' other hother => ?_) hadmitted.counted hadmitted.limit
  · cases hc'
    exact hin
  · have hdestroyed := h.closing hclosing conn (List.mem_of_getElem? hconn)
    rw [hlive] at hdestroyed
    cases hdestroyed
  · rw [Stub.count, Stub.putConn, List.getElem?_set] at hother
    split at hother
    case isFalse hne =>
      exact .inl ⟨hother, fun horigin => hne (Origin.tcp.inj horigin)⟩
    rename_i heq
    subst heq
    rw [Option.some.injEq] at hother
    subst hother
    refine .inr ⟨⟨fun k bytes hk => ?_, fun other hother => ?_, hsound.closed, fun _ => ?_,
      fun _ => ?_⟩, rfl, conn, hconn, hlive, hnone⟩
    · obtain ⟨old, reply, hold, hrest⟩ := hsound.written k bytes hk
      refine ⟨old, reply, ?_, hrest⟩
      rw [List.getElem?_append_left (List.getElem?_eq_some_iff.mp hold).1]
      exact hold
    · rcases List.mem_append.mp hother with hold | hnew
      · exact hsound.lengths other hold
      · rw [List.mem_singleton.mp hnew]
        exact ⟨hlow, hhigh⟩
    · dsimp only
      rw [hsound.stream hlive, hpending, List.flatMap_append, List.flatMap_singleton,
        List.append_assoc]
    · refine ⟨rfl, hflushing, ⟨query, .tcp c, phase⟩, conn.queries, ?_, rfl, hadmitted.isOpen,
        rfl, hlength⟩
      exact List.getElem?_concat_length

theorem Base.pump (h : Base config s) : Base config (s.pump config c) := by
  unfold Stub.pump
  split
  case h_1 => exact h
  rename_i conn hconn
  have hsound := h.conns c conn hconn
  split
  case isTrue => exact h
  rename_i hfree
  simp only [Bool.or_eq_true, not_or, Bool.not_eq_true] at hfree
  obtain ⟨hidle, hlive⟩ := hfree
  split
  case h_1 =>
    split
    · exact h.putConn hconn ⟨hsound.written, hsound.lengths, hsound.closed, hsound.stream,
        hsound.course⟩ fun _ => ⟨hlive, rfl⟩
    · exact h
  case h_2 =>
    have hgone : Base config (s.putConn c { conn with destroyed := true }) :=
      h.destroyConn hconn rfl rfl rfl
    exact hgone.count _
  case h_3 =>
    split
    · exact h.destroyConn hconn rfl rfl rfl
    · exact h
  case h_4 query rest hfront => exact h.take hconn hlive hidle hfront

theorem run_conns (query : Bytes) (origin : Origin) :
    (s.run config query origin).conns = s.conns := by
  unfold Stub.run Stub.admitQuery
  dsimp only
  split
  · rfl
  split
  · rfl
  split
  · rfl
  · split
    · rfl
    · split <;> rfl

theorem pump_quiet (hother : ∀ c', c' ≠ c → s.Quiet c') (c' : Nat) :
    (s.pump config c).Quiet c' := by
  have hself : s.Quiet c → s.Quiet c' := fun hc => by
    by_cases heq : c' = c
    · exact heq ▸ hc
    · exact hother c' heq
  unfold Stub.pump
  split
  case h_1 hnone =>
    refine hself fun conn hconn => ?_
    rw [hnone] at hconn
    cases hconn
  rename_i conn hconn
  have hsame : (conn.destroyed = false → conn.busy = false → Partial conn.pending) →
      s.Quiet c := fun hpart other hother' hlive hidle => by
    rw [hconn, Option.some.injEq] at hother'
    subst hother'
    exact hpart hlive hidle
  split
  case isTrue hstop =>
    refine hself (hsame fun hlive hidle => ?_)
    rw [hlive, hidle] at hstop
    cases hstop
  split
  case h_1 hfront =>
    split
    · refine quiet_putConn hother ?_ c'
      exact fun _ _ => .inl hfront
    · exact hself (hsame fun _ _ => .inl hfront)
  case h_2 => exact quiet_putConn hother (fun hlive => by cases hlive) c'
  case h_3 hfront =>
    split
    · exact quiet_putConn hother (fun hlive => by cases hlive) c'
    · exact hself (hsame fun _ _ => .inr hfront)
  case h_4 query rest hfront =>
    intro other hother' hlive hidle
    rw [run_conns] at hother'
    exact quiet_putConn hother (fun _ hbusy => by cases hbusy) c' other hother' hlive hidle

theorem Base.data {chunk : Bytes} (h : Base config s) : Base config (s.data config c chunk) := by
  unfold Stub.data
  split
  case h_1 => exact h
  rename_i conn hconn
  have hsound := h.conns c conn hconn
  split
  case isTrue => exact h
  rename_i hfree
  simp only [Bool.or_eq_true, not_or, Bool.not_eq_true] at hfree
  split
  case isTrue =>
    have hgone : Base config (s.putConn c
        { conn with destroyed := true, received := conn.received ++ chunk }) :=
      h.destroyConn hconn rfl rfl rfl
    exact hgone.count _
  case isFalse =>
    refine Base.pump (h.putConn hconn ⟨hsound.written, hsound.lengths, hsound.closed,
      fun hlive => ?_, hsound.course⟩ fun _ => ⟨hfree.1, rfl⟩)
    rw [hsound.stream hlive, List.append_assoc]

theorem Base.halfClose (h : Base config s) : Base config (s.halfClose config c) := by
  unfold Stub.halfClose
  split
  case h_1 => exact h
  rename_i conn hconn
  have hsound := h.conns c conn hconn
  split
  case isTrue => exact h
  rename_i hfree
  simp only [Bool.or_eq_true, not_or, Bool.not_eq_true] at hfree
  exact Base.pump (h.putConn hconn ⟨hsound.written, hsound.lengths, hsound.closed,
    hsound.stream, hsound.course⟩ fun _ => ⟨hfree.1, rfl⟩)

theorem Base.flushed (h : Base config s) : Base config (s.flushed config c) := by
  unfold Stub.flushed
  split
  case h_1 => exact h
  rename_i conn hconn
  have hsound := h.conns c conn hconn
  split
  case isFalse => exact h
  rename_i hflushing
  refine Base.pump (h.putConn hconn ⟨hsound.written, hsound.lengths, hsound.closed,
    hsound.stream, fun hlive => ?_⟩ fun hlive => ⟨hlive, rfl⟩)
  have hcourse := hsound.course hlive
  unfold Course at hcourse ⊢
  cases hcurrent : conn.current with
  | none =>
    simp only [hcurrent] at hcourse ⊢
    exact ⟨trivial, hcourse.2⟩
  | some j =>
    simp only [hcurrent, hflushing] at hcourse
    cases hcourse.2.1

theorem Base.destroy (h : Base config s) : Base config (s.destroy c) := by
  unfold Stub.destroy
  split
  case h_1 => exact h
  case h_2 conn hconn => exact h.destroyConn hconn rfl rfl rfl

theorem Base.connect (h : Base config s) : Base config (s.connect config) := by
  unfold Stub.connect
  split
  case isTrue => exact h
  rename_i hfree
  simp only [Bool.or_eq_true, not_or, Bool.not_eq_true] at hfree
  have hget : ∀ (c : Nat) (conn : Conn), (s.conns ++ [Conn.fresh])[c]? = some conn →
      s.conns[c]? = some conn ∨ (c = s.conns.length ∧ conn = .fresh) := by
    intro c conn hconn
    rcases Nat.lt_trichotomy c s.conns.length with hlt | rfl | hgt
    · rw [List.getElem?_append_left hlt] at hconn
      exact .inl hconn
    · simp only [List.getElem?_concat_length, Option.some.injEq] at hconn
      exact .inr ⟨rfl, hconn.symm⟩
    · rw [List.getElem?_eq_none (by rw [List.length_append, List.length_singleton]; omega)]
        at hconn
      cases hconn
  refine ⟨h.jobs, fun job hjob c horigin => ?_, fun c conn hconn => ?_,
    fun j job hjob hopen c horigin conn hconn hlive => ?_, h.inflight, h.limit,
    fun hclosing => ?_, h.sent, h.once⟩
  · have hrange := h.range job hjob c horigin
    rw [List.length_append]
    omega
  · rcases hget c conn hconn with hold | ⟨-, rfl⟩
    · exact h.conns c conn hold
    · exact ⟨fun k bytes hk => (by simp [Conn.fresh] at hk), fun _ hq => (by cases hq),
        fun hclosed => (by cases hclosed), fun _ => rfl, fun _ => ⟨rfl, rfl⟩⟩
  · rcases hget c conn hconn with hold | ⟨rfl, -⟩
    · exact h.owner j job hjob hopen c horigin conn hold hlive
    · exact absurd (h.range job (List.mem_of_getElem? hjob) _ horigin) (Nat.lt_irrefl _)
  · rw [hfree.1] at hclosing
    cases hclosing

theorem Base.finish {outcome : Option (Bytes × Nat)} (h : Base config s) :
    Base config (s.finish j outcome) := by
  unfold Stub.finish
  split
  case h_1 => exact h
  rename_i job hjob
  split
  case h_2 => exact h
  rename_i hphase
  have hsound := h.jobs job (List.mem_of_getElem? hjob)
  have hunfinished : job.unfinished = true := by simp [Job.unfinished, hphase]
  have hunclaimed : job.unclaimed = false := by simp [Job.unclaimed, hphase]
  have hnext : Job.Sound { job with
      phase := .finished (outcome.bind fun response =>
        Stub.received job.query response.1 response.2) } := by
    refine ⟨fun _ => hsound.parsed (.inl hunfinished), fun bytes hbytes => ?_,
      fun _ hreturned => (by cases hreturned), fun hthrew => (by cases hthrew)⟩
    simp only [Phase.finished.injEq, Option.bind_eq_some_iff] at hbytes
    obtain ⟨response, -, hreceived⟩ := hbytes
    exact ⟨response.1, response.2, hreceived⟩
  refine h.putJob hjob hnext rfl rfl (by simp [Job.isOpen, hphase]) rfl ?_ h.limit
  rw [hunfinished, hunclaimed]
  rfl

theorem Base.resume (h : Base config s) : Base config (s.resume j) := by
  unfold Stub.resume
  split
  case h_1 => exact h
  rename_i job hjob
  split
  case h_2 => exact h
  rename_i reply hphase
  have hsound := h.jobs job (List.mem_of_getElem? hjob)
  have hunfinished : job.unfinished = false := by simp [Job.unfinished, hphase]
  have hunclaimed : job.unclaimed = true := by simp [Job.unclaimed, hphase]
  obtain ⟨q, hquery⟩ := hsound.parsed (.inr hunclaimed)
  obtain ⟨bytes, hbytes, hgood, hshort⟩ := conclude_reply hquery job.udp
    (fun found hfound => hsound.finished found (hphase.trans (congrArg _ hfound))) s.counts
  have hmem : job ∈ s.jobs := List.mem_of_getElem? hjob
  have hpositive : 0 < s.jobs.countP Job.unclaimed :=
    List.countP_pos_iff.mpr ⟨job, hmem, hunclaimed⟩
  have hinflight := h.inflight
  dsimp only
  rw [hbytes]
  have hnext : Job.Sound { job with phase := .returned (some bytes) } := by
    refine ⟨fun hwaits => ?_, fun _ hfinished => (by cases hfinished),
      fun found hfound => ?_, fun hthrew => (by cases hthrew)⟩
    · rcases hwaits with hwaits | hwaits <;> cases hwaits
    · cases hfound
      refine ⟨hgood, fun hudp other hother => ?_⟩
      rw [hquery, Except.ok.injEq] at hother
      exact hother ▸ hshort hudp
  refine h.putJob hjob hnext rfl rfl (by simp [Job.isOpen, hphase]) rfl ?_
    (Nat.le_trans (Nat.sub_le _ _) h.limit)
  have hnone : Job.unfinished { job with phase := .returned (some bytes) } = false ∧
      Job.unclaimed { job with phase := .returned (some bytes) } = false := ⟨rfl, rfl⟩
  rw [hunfinished, hunclaimed, hnone.1, hnone.2]
  simp only [Bool.toNat_false, Bool.toNat_true]
  omega

theorem Base.settle {conns : List Conn} {sent : List Datagram} (h : Base config s)
    (hjob : s.jobs[j]? = some job) {bytes : Option Bytes} (hphase : job.phase = .returned bytes)
    (hlength : conns.length = s.conns.length)
    (hclosing : s.closing = true → ∀ conn ∈ conns, conn.destroyed = true)
    (hconns : ∀ (c : Nat) (conn : Conn), conns[c]? = some conn →
      conn.Sound (s.jobs.set j { job with phase := .done }) c ∧
      (conn.destroyed = false → ∃ old, s.conns[c]? = some old ∧ old.destroyed = false ∧
        (conn.current = old.current ∨ old.current = some j)))
    (hsent : sent = s.sent ∨ ∃ port reply, sent = s.sent ++ [⟨j, port, reply⟩] ∧
      job.origin = .udp port ∧ bytes = some reply) :
    Base config { s with
      jobs := s.jobs.set j { job with phase := .done }, conns := conns, sent := sent } := by
  have hin := (List.getElem?_eq_some_iff.mp hjob).1
  have hsound := h.jobs job (List.mem_of_getElem? hjob)
  have hcount (p : Job → Bool) :=
    InFlight.countP_set p { job with phase := .done } hjob
  have hbefore : ∀ d ∈ s.sent, d.job ≠ j := fun d hd heq => by
    obtain ⟨other, hother, hdone, -⟩ := h.sent d hd
    rw [heq, hjob, Option.some.injEq] at hother
    subst hother
    rw [hphase] at hdone
    cases hdone
  have hold : ∀ d ∈ s.sent, ∃ job', (s.jobs.set j { job with phase := .done })[d.job]? = some job' ∧
      job'.phase = .done ∧ job'.origin = .udp d.port ∧ Reply job'.query d.bytes ∧
      ∀ q, parseDnsQuery job'.query = .ok q → d.bytes.length ≤ q.udpSize := fun d hd => by
    obtain ⟨other, hother, hrest⟩ := h.sent d hd
    exact ⟨other, (List.getElem?_set_ne (Ne.symm (hbefore d hd))).trans hother, hrest⟩
  refine ⟨fun other hother => ?_, fun other hother c horigin => ?_, fun c conn hconn =>
    (hconns c conn hconn).1, fun i other hother hopen c horigin conn hconn hlive => ?_, ?_, h.limit,
    hclosing, fun d hd => ?_, ?_⟩
  · rcases List.mem_or_eq_of_mem_set hother with hmem | rfl
    · exact h.jobs other hmem
    · refine ⟨fun hwaits => ?_, fun _ hfinished => (by cases hfinished),
        fun _ hreturned => (by cases hreturned), fun hthrew => (by cases hthrew)⟩
      rcases hwaits with hwaits | hwaits <;> cases hwaits
  · dsimp only
    rw [hlength]
    rcases List.mem_or_eq_of_mem_set hother with hmem | rfl
    · exact h.range other hmem c horigin
    · exact h.range job (List.mem_of_getElem? hjob) c horigin
  · obtain ⟨old, hbefore', holdLive, hcurrent⟩ := (hconns c conn hconn).2 hlive
    rw [List.getElem?_set] at hother
    split at hother
    case isTrue heq =>
      rw [Option.some.injEq] at hother
      subst hother
      cases hopen
    case isFalse hne =>
      have howner := h.owner i other hother hopen c horigin old hbefore' holdLive
      rcases hcurrent with hsame | hwaited
      · exact hsame.trans howner
      · rw [hwaited, Option.some.injEq] at howner
        exact absurd howner hne
  · have hunfinished := hcount Job.unfinished
    have hunclaimed := hcount Job.unclaimed
    have hinflight := h.inflight
    have hnone : job.unfinished = false ∧ job.unclaimed = false := by
      simp [Job.unfinished, Job.unclaimed, hphase]
    have hdone : Job.unfinished { job with phase := .done } = false ∧
        Job.unclaimed { job with phase := .done } = false := ⟨rfl, rfl⟩
    rw [hnone.1, hdone.1] at hunfinished
    rw [hnone.2, hdone.2] at hunclaimed
    dsimp only
    omega
  · rcases hsent with hsent | ⟨port, reply, hsent, horigin, hbytes⟩
    · exact hold d (hsent ▸ hd)
    · dsimp only at hd
      rw [hsent] at hd
      rcases List.mem_append.mp hd with hd | hd
      · exact hold d hd
      rw [List.mem_singleton.mp hd]
      obtain ⟨hgood, hshort⟩ := hsound.returned reply (hphase.trans (congrArg _ hbytes))
      exact ⟨{ job with phase := .done }, by simp [hin], rfl, horigin, hgood,
        hshort (by simp [Job.udp, horigin])⟩
  · rcases hsent with hsent | ⟨port, reply, hsent, -, -⟩
    · exact hsent ▸ h.once
    · dsimp only
      rw [hsent, List.map_append]
      refine List.nodup_append.mpr ⟨h.once, by simp, ?_⟩
      intro a ha b hb
      obtain ⟨d, hd, rfl⟩ := List.mem_map.mp ha
      rw [List.map_singleton, List.mem_singleton] at hb
      exact hb ▸ hbefore d hd

theorem Base.unaware (h : Base config s)
    (hconn : s.conns[c]? = some conn) (hfree : conn.destroyed = false → conn.current ≠ some j) :
    conn.Sound (s.jobs.set j job) c ∧
      (conn.destroyed = false → ∃ old, s.conns[c]? = some old ∧ old.destroyed = false ∧
        (conn.current = old.current ∨ old.current = some j)) := by
  refine ⟨(h.conns c conn hconn).mono fun hlive i hcurrent other hother hopen => ?_,
    fun hlive => ⟨conn, hconn, hlive, .inl rfl⟩⟩
  have hne : j ≠ i := fun heq => hfree hlive (heq ▸ hcurrent)
  exact ⟨other, (List.getElem?_set_ne hne).trans hother, rfl, rfl, hopen⟩

theorem Base.waits (h : Base config s) (hjob : s.jobs[j]? = some job)
    (hconn : s.conns[c]? = some conn) (hlive : conn.destroyed = false)
    (hcurrent : conn.current = some j) : job.origin = .tcp c := by
  have hcourse := (h.conns c conn hconn).course hlive
  unfold Course at hcourse
  simp only [hcurrent] at hcourse
  obtain ⟨-, -, other, -, hother, horigin, -⟩ := hcourse
  rw [hjob, Option.some.injEq] at hother
  exact hother ▸ horigin

theorem Base.write {bytes : Bytes} (h : Base config s)
    (hjob : s.jobs[j]? = some job) (hphase : job.phase = .returned (some bytes))
    (horigin : job.origin = .tcp c) (hconn : s.conns[c]? = some conn)
    (hlive : conn.destroyed = false) :
    Conn.Sound (s.jobs.set j { job with phase := .done }) c { conn with
      written := conn.written ++ [frame bytes], flushing := true, current := none } := by
  have hsound := h.conns c conn hconn
  have hgood := ((h.jobs job (List.mem_of_getElem? hjob)).returned bytes hphase).1
  have hopen : job.isOpen = true := by simp [Job.isOpen, hphase]
  have hcurrent := h.owner j job hjob hopen c horigin conn hconn hlive
  have hcourse := hsound.course hlive
  unfold Course at hcourse
  simp only [hcurrent] at hcourse
  obtain ⟨hbusy, hflushing, other, answered, hother, -, -, hqueries, hlength⟩ := hcourse
  rw [hjob, Option.some.injEq] at hother
  subst hother
  refine ⟨fun k found hk => ?_, hsound.lengths, hsound.closed, hsound.stream, fun _ => ⟨hbusy, ?_⟩⟩
  · dsimp only at hk ⊢
    rcases Nat.lt_trichotomy k conn.written.length with hlt | rfl | hgt
    · rw [List.getElem?_append_left hlt] at hk
      exact hsound.written k found hk
    · simp only [List.getElem?_concat_length, Option.some.injEq] at hk
      refine ⟨job.query, bytes, ?_, hk.symm, hgood⟩
      rw [hqueries, hlength]
      exact List.getElem?_concat_length
    · rw [List.getElem?_eq_none (by rw [List.length_append, List.length_singleton]; omega)] at hk
      cases hk
  · dsimp only
    rw [hqueries, List.length_append, List.length_append, hlength]
    rfl

theorem Base.deliver (h : Base config s) : Base config (s.deliver j) := by
  unfold Stub.deliver
  split
  case h_1 => exact h
  rename_i job hjob
  split
  case h_2 => exact h
  rename_i bytes hphase
  dsimp only [Stub.putJob]
  split
  case isTrue hclosing =>
    refine h.settle hjob hphase rfl h.closing (fun c conn hconn => ?_) (.inl rfl)
    refine h.unaware hconn fun hlive => ?_
    rw [h.closing hclosing conn (List.mem_of_getElem? hconn)] at hlive
    cases hlive
  case isFalse hopen =>
    unfold Stub.hand
    split
    case h_1 port horigin =>
      have hfree : ∀ (c : Nat) (conn : Conn), s.conns[c]? = some conn →
          conn.destroyed = false → conn.current ≠ some j := fun c conn hconn hlive hcurrent => by
        have hcame := h.waits hjob hconn hlive hcurrent
        rw [horigin] at hcame
        cases hcame
      cases bytes with
      | none =>
        exact h.settle hjob hphase rfl h.closing
          (fun c conn hconn => h.unaware hconn (hfree c conn hconn)) (.inl rfl)
      | some reply =>
        exact h.settle hjob hphase rfl h.closing
          (fun c conn hconn => h.unaware hconn (hfree c conn hconn))
          (.inr ⟨port, reply, rfl, horigin, rfl⟩)
    case h_2 c horigin =>
      have hin := h.range job (List.mem_of_getElem? hjob) c horigin
      obtain ⟨conn, hconn⟩ : ∃ conn, s.conns[c]? = some conn :=
        ⟨s.conns[c], List.getElem?_eq_getElem hin⟩
      have hfree : ∀ (c' : Nat) (other : Conn), c' ≠ c → s.conns[c']? = some other →
          other.destroyed = false → other.current ≠ some j :=
        fun c' other hne hother hlive hcurrent => by
          have hcame := h.waits hjob hother hlive hcurrent
          rw [horigin, Origin.tcp.injEq] at hcame
          exact hne hcame.symm
      -- the connection itself takes `conn'`, and the others stay
      have hput : ∀ conn' : Conn,
          conn'.Sound (s.jobs.set j { job with phase := .done }) c →
          (conn'.destroyed = false → conn.destroyed = false ∧ conn.current = some j) →
          Base config { s with
            jobs := s.jobs.set j { job with phase := .done }
            conns := s.conns.set c conn' } := by
        intro conn' hsound hwaited
        refine h.settle hjob hphase List.length_set (fun hclosing other hother => ?_)
          (fun c' other hother => ?_) (.inl rfl)
        · exact absurd hclosing hopen
        · rw [List.getElem?_set] at hother
          split at hother
          case isTrue heq =>
            subst heq
            rw [Option.some.injEq] at hother
            subst hother
            refine ⟨hsound, fun hlive => ?_⟩
            obtain ⟨hbefore, hcurrent⟩ := hwaited hlive
            exact ⟨conn, hconn, hbefore, .inr hcurrent⟩
          case isFalse hne => exact h.unaware hother (hfree c' other (Ne.symm hne) hother)
      unfold Stub.reply
      rw [hconn]
      cases bytes with
      | none =>
        refine hput { conn with destroyed := true } ?_ fun hlive => (by cases hlive)
        have hsound := h.conns c conn hconn
        exact ⟨hsound.written, hsound.lengths, fun _ => rfl, fun hlive => (by cases hlive),
          fun hlive => (by cases hlive)⟩
      | some reply =>
        dsimp only
        split
        case isTrue hdestroyed =>
          refine h.settle hjob hphase rfl h.closing (fun c' other hother => ?_) (.inl rfl)
          refine h.unaware hother fun hlive => ?_
          by_cases heq : c' = c
          · subst heq
            rw [hconn, Option.some.injEq] at hother
            subst hother
            rw [hdestroyed] at hlive
            cases hlive
          · exact hfree c' other heq hother hlive
        case isFalse hlive =>
          rw [Bool.not_eq_true] at hlive
          have hopen' : job.isOpen = true := by simp [Job.isOpen, hphase]
          exact hput _ (h.write hjob hphase horigin hconn hlive) fun _ =>
            ⟨hlive, h.owner j job hjob hopen' c horigin conn hconn hlive⟩

theorem abortJob_fields (job : Job) :
    (abortJob c job).query = job.query ∧ (abortJob c job).origin = job.origin ∧
      (abortJob c job).isOpen = job.isOpen := by
  unfold abortJob
  split
  case isFalse => exact ⟨rfl, rfl, rfl⟩
  rename_i hwaits
  simp only [Bool.and_eq_true] at hwaits
  have hasking : job.phase = .asking := by simpa [Job.unfinished] using hwaits.2
  exact ⟨rfl, rfl, by simp [Job.isOpen, hasking]⟩

theorem abortJob_sound (h : job.Sound) : (abortJob c job).Sound := by
  unfold abortJob
  split
  case isFalse => exact h
  rename_i hwaits
  simp only [Bool.and_eq_true] at hwaits
  exact ⟨fun _ => h.parsed (.inl hwaits.2), fun _ hfinished => (by cases hfinished),
    fun _ hreturned => (by cases hreturned), fun hthrew => (by cases hthrew)⟩

theorem countP_abortJob (jobs : List Job) :
    (jobs.map (abortJob c)).countP Job.unfinished + (jobs.map (abortJob c)).countP Job.unclaimed =
      jobs.countP Job.unfinished + jobs.countP Job.unclaimed := by
  induction jobs with
  | nil => rfl
  | cons job rest ih =>
    have hone : (abortJob c job).unfinished.toNat + (abortJob c job).unclaimed.toNat =
        job.unfinished.toNat + job.unclaimed.toNat := by
      unfold abortJob
      split
      case isFalse => rfl
      rename_i hwaits
      simp only [Bool.and_eq_true] at hwaits
      have hasking : job.phase = .asking := by simpa [Job.unfinished] using hwaits.2
      simp [Job.unfinished, Job.unclaimed, hasking]
    have hcons (p : Job → Bool) (first : Job) (rest : List Job) :
        (first :: rest).countP p = rest.countP p + (p first).toNat := by
      rw [List.countP_cons]
      cases p first <;> rfl
    rw [List.map_cons, hcons, hcons, hcons, hcons]
    omega

theorem Base.closed (h : Base config s) : Base config (s.closed c) := by
  unfold Stub.closed
  split
  case h_1 => exact h
  rename_i conn hconn
  have hgone : Base config (s.putConn c { conn with destroyed := true, closed := true }) := by
    have hsound := h.conns c conn hconn
    exact h.putConn hconn ⟨hsound.written, hsound.lengths, fun _ => rfl,
      fun hlive => (by cases hlive), fun hlive => (by cases hlive)⟩ fun hlive => by cases hlive
  have hget : ∀ (i : Nat) (job : Job), (s.jobs.map (abortJob c))[i]? = some job →
      ∃ old, s.jobs[i]? = some old ∧ abortJob c old = job := by
    intro i job hjob
    rw [List.getElem?_map, Option.map_eq_some_iff] at hjob
    exact hjob
  refine ⟨fun job hjob => ?_, fun job hjob c' horigin => ?_, fun c' other hother => ?_,
    fun i job hjob hopen c' horigin other hother hlive => ?_, ?_, hgone.limit, hgone.closing,
    fun d hd => ?_, hgone.once⟩
  · obtain ⟨old, hold, rfl⟩ := List.mem_map.mp hjob
    exact abortJob_sound (h.jobs old hold)
  · obtain ⟨old, hold, rfl⟩ := List.mem_map.mp hjob
    rw [(abortJob_fields old).2.1] at horigin
    exact hgone.range old hold c' horigin
  · refine (hgone.conns c' other hother).mono fun _ i _ job hjob hopen => ?_
    obtain ⟨hquery, horigin, hopen'⟩ := abortJob_fields (c := c) job
    have hmapped : (s.jobs.map (abortJob c))[i]? = some (abortJob c job) := by
      rw [List.getElem?_map]
      exact congrArg (Option.map (abortJob c)) hjob
    exact ⟨abortJob c job, hmapped, hquery, horigin, hopen'.trans hopen⟩
  · obtain ⟨old, hold, rfl⟩ := hget i job hjob
    obtain ⟨-, horigin', hopen'⟩ := abortJob_fields (c := c) old
    exact hgone.owner i old hold (hopen'.symm.trans hopen) c' (horigin'.symm.trans horigin) other
      hother hlive
  · dsimp only
    rw [countP_abortJob]
    exact hgone.inflight
  · obtain ⟨job, hjob, hdone, horigin, hrest⟩ := h.sent d hd
    have hsame : abortJob c job = job := by
      unfold abortJob
      rw [if_neg (by simp [horigin])]
    refine ⟨job, ?_, hdone, horigin, hrest⟩
    rw [List.getElem?_map, hjob, Option.map_some, hsame]

theorem Base.close (h : Base config s) : Base config s.close := by
  unfold Stub.close
  split
  case isTrue => exact h
  have hget : ∀ (c : Nat) (conn : Conn),
      (s.conns.map fun conn => { conn with destroyed := true })[c]? = some conn →
      ∃ old, s.conns[c]? = some old ∧ { old with destroyed := true } = conn := by
    intro c conn hconn
    rw [List.getElem?_map, Option.map_eq_some_iff] at hconn
    exact hconn
  refine ⟨h.jobs, fun job hjob c horigin => ?_, fun c conn hconn => ?_,
    fun j job hjob hopen c horigin conn hconn hlive => ?_, h.inflight, h.limit,
    fun _ conn hconn => ?_, h.sent, h.once⟩
  · dsimp only
    rw [List.length_map]
    exact h.range job hjob c horigin
  · obtain ⟨old, hold, rfl⟩ := hget c conn hconn
    exact (h.conns c old hold).destroy rfl rfl rfl
  · obtain ⟨old, hold, rfl⟩ := hget c conn hconn
    cases hlive
  · obtain ⟨old, hold, rfl⟩ := List.mem_map.mp hconn
    rfl

theorem Base.datagram {address : String} {port : Nat} {query : Bytes} (h : Base config s) :
    Base config (s.datagram config address port query) := by
  unfold Stub.datagram
  split
  · exact h.count _
  · exact h.runUdp.1

end Stub

end Meshpn.Dns.Doh
