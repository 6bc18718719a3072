import Mathlib.Data.List.Induction
import Meshpn.Dns.Wire
import Meshpn.Dns.WireAnswers
import Meshpn.Lib.InFlight
import Meshpn.Lib.Text

/-!
`createTunnelDnsForwarder`. A query that is accepted is a job; its function asks one server
after the other and is followed by a `catch` and a `finally`, each of them a callback that runs
at a time of its own. A job's controller is in its set as long as the job is in `jobs`.

The forwarder in every run: what a single job goes through, and what the counters and the set
of jobs say about all of them.
-/

namespace Meshpn.Dns.Tunnel

open Meshpn.Lib Meshpn.Dns.Wire

/-- `DEFAULT_TUNNEL_DNS_SERVERS`. -/
def defaultServers : List String := ["1.1.1.1", "8.8.8.8"]

/-- `tunnelDnsServers`, with `isPublicRelayAddress` as it is given. -/
def tunnelDnsServers (isPublicRelayAddress : String → Bool) :
    Option String → Option (List String)
  | none => some defaultServers
  | some primary =>
    if Text.isIPv4 primary && isPublicRelayAddress primary then
      some (if primary = "8.8.8.8" then [primary] else [primary, "8.8.8.8"])
    else none

/-- What has happened to a job. -/
inductive Happening where
  /-- `exchange` was called. -/
  | contacted (server : String)
  /-- The exchange failed, its answer was not accepted, or was SERVFAIL. -/
  | failed
  | aborted
  deriving DecidableEq, Repr

/-- What runs next of a job. -/
inductive Phase where
  /-- The continuation of the exchange with the server at the index. -/
  | asking (index : Nat)
  /-- The `catch`, the function has thrown. -/
  | thrown
  /-- The `finally`, the outcome is counted. -/
  | counted (response : Option Bytes)
  | settled (response : Option Bytes)
  deriving DecidableEq, Repr

structure Job where
  query : Bytes
  /-- The copy of the query with the random identifier. -/
  wire : Bytes
  originalId : Nat
  tcp : Bool
  /-- `controller.signal.aborted`. -/
  aborted : Bool
  phase : Phase
  history : List Happening
  deriving DecidableEq, Repr

namespace Job

/-- The job is still in `jobs`. -/
def running (job : Job) : Bool :=
  match job.phase with
  | .settled _ => false
  | _ => true

/-- The outcome is counted and the `finally` has still to run. -/
def uncleared (job : Job) : Bool :=
  match job.phase with
  | .counted _ => true
  | _ => false

/-- The outcome is counted. -/
def ended (job : Job) : Bool :=
  match job.phase with
  | .counted _ | .settled _ => true
  | _ => false

/-- The loop from the server at `index` on, up to the next exchange. -/
def enter (servers : List String) (job : Job) (index : Nat) : Job :=
  match servers[index]? with
  | none => { job with phase := .thrown }
  | some server =>
    if job.aborted then { job with phase := .thrown }
    else { job with phase := .asking index, history := job.history ++ [.contacted server] }

/-- `cancel`. -/
def abort (job : Job) : Job :=
  if job.aborted || !job.running then job
  else { job with aborted := true, history := job.history ++ [.aborted] }

/-- The answer to the wire's query, unless it is refused. -/
def accept (wire : Bytes) (outcome : Option Bytes) : Option Bytes :=
  match outcome with
  | none => none
  | some response =>
    match validateDnsResponse response wire with
    | .error _ => none
    | .ok answer => if answer.rcode = 2 then none else some response

/-- The loop behind the exchange with the server at `index`. -/
def answered (servers : List String) (job : Job) (index : Nat) (outcome : Option Bytes) : Job :=
  match accept job.wire outcome with
  | some response => { job with phase := .counted (some (writeUInt16 response 0 job.originalId)) }
  | none =>
    let job := { job with history := job.history ++ [Happening.failed] }
    if job.aborted then { job with phase := .thrown } else job.enter servers (index + 1)

/-- A job before its function has started. -/
def fresh (query : Bytes) (tcp : Bool) (id : Nat) (aborted : Bool) : Job where
  query := query
  wire := writeUInt16 query 0 id
  originalId := (readUInt16 query 0).toOption.getD 0
  tcp := tcp
  aborted := aborted
  phase := .thrown
  history := if aborted then [.aborted] else []

end Job

structure Config where
  servers : List String
  maxInflight : Nat

structure Forwarder where
  /-- All jobs so far, running or not. -/
  accepted : List Job
  /-- `jobs`, as places in `accepted`. -/
  jobs : List Nat
  closing : Bool
  /-- What `closePromise` waits for. -/
  waiting : Option (List Nat)
  /-- `closePromise` has resolved. -/
  closed : Bool
  primary : Nat
  backup : Nat
  succeeded : Nat
  failed : Nat
  refused : Nat
  deriving DecidableEq, Repr

namespace Forwarder

def init : Forwarder := ⟨[], [], false, none, false, 0, 0, 0, 0, 0⟩

/-- `inflight` of `stats()`. -/
def inflight (f : Forwarder) : Nat := f.jobs.length

def put (f : Forwarder) (i : Nat) (job : Job) : Forwarder :=
  { f with accepted := f.accepted.set i job }

/-- `counts[index === 0 ? 'primary' : 'backup']++`, where the job has come to an exchange. -/
def countContact (f : Forwarder) (job : Job) : Forwarder :=
  match job.phase with
  | .asking 0 => { f with primary := f.primary + 1 }
  | .asking _ => { f with backup := f.backup + 1 }
  | _ => f

/-- `succeeded++` where the job has come to its end with a response. -/
def countSuccess (f : Forwarder) (job : Job) : Forwarder :=
  match job.phase with
  | .counted _ => { f with succeeded := f.succeeded + 1 }
  | _ => f

/-- `resolve`; a query that cannot be read changes nothing. -/
def resolve (config : Config) (f : Forwarder) (query : Bytes) (tcp : Bool) (id : Nat)
    (aborted : Bool) : Forwarder :=
  match parseDnsQuery query with
  | .error _ => f
  | .ok _ =>
    if f.closing || config.maxInflight ≤ f.jobs.length then { f with refused := f.refused + 1 }
    else
      let job := (Job.fresh query tcp id aborted).enter config.servers 0
      { f.countContact job with
        accepted := f.accepted ++ [job]
        jobs := f.jobs ++ [f.accepted.length] }

/-- The continuation of `await exchange(..)`; without bytes it has failed. -/
def answer (config : Config) (f : Forwarder) (i : Nat) (outcome : Option Bytes) : Forwarder :=
  match f.accepted[i]? with
  | none => f
  | some job =>
    match job.phase with
    | .asking index =>
      let job := job.answered config.servers index outcome
      ((f.countContact job).countSuccess job).put i job
    | _ => f

/-- The callback of `catch`. -/
def caught (f : Forwarder) (i : Nat) : Forwarder :=
  match f.accepted[i]? with
  | none => f
  | some job =>
    match job.phase with
    | .thrown => { f with failed := f.failed + 1 }.put i { job with phase := .counted none }
    | _ => f

/-- The callback of `finally`. -/
def finish (f : Forwarder) (i : Nat) : Forwarder :=
  match f.accepted[i]? with
  | none => f
  | some job =>
    match job.phase with
    | .counted response =>
      { f with jobs := f.jobs.erase i }.put i { job with phase := .settled response }
    | _ => f

/-- The caller's signal. -/
def abort (f : Forwarder) (i : Nat) : Forwarder :=
  match f.accepted[i]? with
  | none => f
  | some job => f.put i job.abort

def close (f : Forwarder) : Forwarder :=
  match f.waiting with
  | some _ => f
  | none =>
    { f with
      closing := true
      accepted := f.accepted.map Job.abort
      waiting := some f.jobs }

/-- `Promise.allSettled` of the jobs at the time of `close`. -/
def settle (f : Forwarder) : Forwarder :=
  match f.waiting with
  | none => f
  | some jobs => if jobs.all fun i => !f.jobs.contains i then { f with closed := true } else f

end Forwarder

/-- What can happen next. What cannot happen in a state leaves it as it is. -/
inductive Event where
  | resolve (query : Bytes) (tcp : Bool) (id : Fin 65536) (aborted : Bool)
  | answer (i : Nat) (outcome : Option Bytes)
  | caught (i : Nat)
  | finish (i : Nat)
  | abort (i : Nat)
  | close
  | settle

def step (config : Config) (f : Forwarder) : Event → Forwarder
  | .resolve query tcp id aborted => f.resolve config query tcp id aborted
  | .answer i outcome => f.answer config i outcome
  | .caught i => f.caught i
  | .finish i => f.finish i
  | .abort i => f.abort i
  | .close => f.close
  | .settle => f.settle

def run (config : Config) (events : List Event) : Forwarder :=
  events.foldl (step config) .init

open Meshpn.Lib Meshpn.Lib.Fallible Meshpn.Dns.Wire

variable {servers : List String}

theorem tunnelDnsServers_nodup {isPublicRelayAddress : String → Bool} {primary : Option String} (h : tunnelDnsServers isPublicRelayAddress primary = some servers) :
    servers.Nodup := by
  unfold tunnelDnsServers at h
  split at h
  · cases h
    decide
  split at h
  case isFalse => cases h
  case isTrue =>
    rw [Option.some.injEq] at h
    subst h
    split
    · exact List.nodup_cons.mpr ⟨List.not_mem_nil, List.nodup_nil⟩
    case isFalse hne => simpa using hne

def Happening.server : Happening → Option String
  | .contacted server => some server
  | .failed | .aborted => none

def contacts (history : List Happening) : List String := history.filterMap Happening.server

/-- The servers are contacted in their order, one only after all the earlier ones failed, and
none after the query is aborted. -/
structure Orderly (servers : List String) (history : List Happening) : Prop where
  order : contacts history <+: servers
  turn : ∀ earlier server later, history = earlier ++ .contacted server :: later →
    .aborted ∉ earlier ∧ earlier.count .failed = (contacts earlier).length

@[simp] theorem contacts_append (a b : List Happening) :
    contacts (a ++ b) = contacts a ++ contacts b := List.filterMap_append

theorem Orderly.nil (servers : List String) : Orderly servers [] where
  order := List.nil_prefix
  turn := fun earlier server later h => by simp at h

theorem concat_split {history earlier later : List Happening} {entry other : Happening}
    (h : history ++ [entry] = earlier ++ other :: later) :
    (history = earlier ∧ entry = other) ∨ ∃ rest, history = earlier ++ other :: rest := by
  rcases List.eq_nil_or_concat later with rfl | ⟨rest, last, rfl⟩
  · obtain ⟨hfront, hlast⟩ := List.append_inj' h rfl
    exact .inl ⟨hfront, by simpa using hlast⟩
  · rw [List.concat_eq_append, ← List.cons_append, ← List.append_assoc] at h
    exact .inr ⟨rest, (List.append_inj' h rfl).1⟩

theorem Orderly.note {history : List Happening} {entry : Happening}
    (h : Orderly servers history) (hentry : entry.server = none) :
    Orderly servers (history ++ [entry]) where
  order := by simpa [contacts, hentry] using h.order
  turn := fun earlier server later heq => by
    rcases concat_split heq with ⟨-, rfl⟩ | ⟨rest, hrest⟩
    · cases hentry
    · exact h.turn earlier server rest hrest

/-- The history of a job whose loop comes to the server at the index. -/
structure Turn (servers : List String) (index : Nat) (history : List Happening) : Prop where
  orderly : Orderly servers history
  contacts : contacts history = servers.take index
  failed : history.count .failed = index

theorem Turn.contact {index : Nat} {history : List Happening}
    {server : String} (h : Turn servers index history) (hserver : servers[index]? = some server)
    (habort : .aborted ∉ history) :
    Orderly servers (history ++ [.contacted server]) ∧
      Tunnel.contacts (history ++ [.contacted server]) = servers.take (index + 1) := by
  have hin := (List.getElem?_eq_some_iff.mp hserver).1
  have hcontacts : Tunnel.contacts (history ++ [.contacted server]) =
      servers.take (index + 1) := by
    rw [contacts_append, h.contacts, List.take_add_one, hserver]
    rfl
  refine ⟨⟨hcontacts ▸ List.take_prefix _ _, fun earlier other later heq => ?_⟩, hcontacts⟩
  rcases concat_split heq with ⟨rfl, -⟩ | ⟨rest, hrest⟩
  · refine ⟨habort, ?_⟩
    rw [h.failed, h.contacts, List.length_take]
    omega
  · exact h.orderly.turn earlier other rest hrest

structure Job.Sound (servers : List String) (job : Job) : Prop where
  query : ∃ q, parseDnsQuery job.query = .ok q ∧ q.id = job.originalId
  wire : ∃ id, id < 65536 ∧ job.wire = writeUInt16 job.query 0 id
  orderly : Orderly servers job.history
  aborted : .aborted ∈ job.history → job.aborted = true
  asking : ∀ index, job.phase = .asking index →
    contacts job.history = servers.take (index + 1) ∧ job.history.count .failed = index
  response : ∀ response, job.phase = .counted (some response) ∨
    job.phase = .settled (some response) →
    ∃ answer, validateDnsResponse response job.query = .ok answer

/-- The answer to the wire's query answers the caller's once it has the caller's identifier. -/
theorem validate_restored {query response : Bytes} {id : Nat} {q answer : Message}
    (hquery : parseDnsQuery query = .ok q) (hid : id < 65536)
    (h : validateDnsResponse response (writeUInt16 query 0 id) = .ok answer) :
    ∃ restored, validateDnsResponse (writeUInt16 response 0 q.id) query = .ok restored := by
  have hparse := (parseDnsQuery_parse hquery).1
  have hlow : q.id < 65536 := readUInt16_lt (readQuestion_header (parseDns_question hparse)).1
  have hwire : parseDnsQuery (writeUInt16 query 0 id) = .ok (q.withId id) := by
    simp only [parseDnsQuery, hparse, parseDns_writeId hid hparse, ok_bind] at hquery ⊢
    simp only [bind_eq_ok, pure_eq_ok] at hquery ⊢
    obtain ⟨_, hheader, _, hopt, _, hplain, -⟩ := hquery
    exact ⟨_, hheader, _, hopt, _, hplain, trivial⟩
  simp only [validateDnsResponse, hwire, hquery, ok_bind] at h ⊢
  simp only [bind_eq_ok, need_eq_ok, Bool.and_eq_true, decide_eq_true_eq] at h ⊢
  obtain ⟨found, hfound, _, ⟨⟨⟨⟨hanswer, -⟩, hkey⟩, htype⟩, hklass⟩, _, hedns, -⟩ := h
  exact ⟨_, _, parseDns_writeId hlow hfound, (), ⟨⟨⟨⟨hanswer, rfl⟩, hkey⟩, htype⟩, hklass⟩, (),
    hedns, rfl⟩

section Jobs

variable {servers : List String} {job : Job}

theorem Job.Sound.abort (h : job.Sound servers) : job.abort.Sound servers := by
  unfold Job.abort
  split
  · exact h
  refine ⟨h.query, h.wire, h.orderly.note rfl, fun _ => rfl, fun index hphase => ?_, h.response⟩
  obtain ⟨hcontacts, hfailed⟩ := h.asking index hphase
  exact ⟨(contacts_append _ _).trans ((List.append_nil _).trans hcontacts),
    by simpa using hfailed⟩

theorem Job.Sound.enter {index : Nat} (h : job.Sound servers)
    (hturn : Turn servers index job.history) : (job.enter servers index).Sound servers := by
  have hthrown : Job.Sound servers { job with phase := .thrown } :=
    ⟨h.query, h.wire, h.orderly, h.aborted, fun _ hphase => (by cases hphase),
      fun _ hphase => (by rcases hphase with hphase | hphase <;> cases hphase)⟩
  unfold Job.enter
  split
  case h_1 => exact hthrown
  rename_i server hserver
  split
  case isTrue => exact hthrown
  rename_i hlive
  have hclean : .aborted ∉ job.history := fun hin => hlive (h.aborted hin)
  obtain ⟨horderly, hcontacts⟩ := hturn.contact hserver hclean
  refine ⟨h.query, h.wire, horderly, fun hin => h.aborted ?_, fun next hphase => ?_,
    fun _ hphase => (by rcases hphase with hphase | hphase <;> cases hphase)⟩
  · simpa using hin
  · cases hphase
    exact ⟨hcontacts, by simpa using hturn.failed⟩

theorem Job.Sound.answered {index : Nat} (outcome : Option Bytes) (h : job.Sound servers)
    (hphase : job.phase = .asking index) :
    (job.answered servers index outcome).Sound servers := by
  unfold Job.answered
  split
  case h_1 response haccept =>
    refine ⟨h.query, h.wire, h.orderly, h.aborted, fun _ hasking => (by cases hasking),
      fun restored hrestored => ?_⟩
    obtain ⟨q, hquery, hid⟩ := h.query
    obtain ⟨id, hlow, hwire⟩ := h.wire
    rcases hrestored with hrestored | hrestored
    · simp only [Phase.counted.injEq, Option.some.injEq] at hrestored
      subst hrestored
      unfold Job.accept at haccept
      split at haccept
      case h_1 => cases haccept
      split at haccept
      case h_1 => cases haccept
      rename_i answer hvalid
      split at haccept
      case isTrue => cases haccept
      cases haccept
      rw [hwire] at hvalid
      exact hid ▸ validate_restored hquery hlow hvalid
    · cases hrestored
  case h_2 =>
    obtain ⟨hcontacts, hfailed⟩ := h.asking index hphase
    have hfail : Job.Sound servers
        { job with history := job.history ++ [.failed], phase := .thrown } :=
      ⟨h.query, h.wire, h.orderly.note rfl, fun hin => h.aborted (by simpa using hin),
        fun _ hasking => (by cases hasking),
        fun _ hresponse => (by rcases hresponse with hresponse | hresponse <;> cases hresponse)⟩
    dsimp only
    split
    case isTrue => exact hfail
    have hturn : Turn servers (index + 1) (job.history ++ [.failed]) :=
      ⟨h.orderly.note rfl, (contacts_append _ _).trans ((List.append_nil _).trans hcontacts),
        by simpa using hfailed⟩
    have hentered := Job.Sound.enter hfail hturn
    exact hentered

end Jobs

namespace Forwarder

variable {config : Config} {f f' : Forwarder} {i : Nat} {job next : Job}

structure Sound (config : Config) (f : Forwarder) : Prop where
  each : ∀ job ∈ f.accepted, job.Sound config.servers
  nodup : f.jobs.Nodup
  mem : ∀ i, i ∈ f.jobs ↔ ∃ job, f.accepted[i]? = some job ∧ job.running = true
  inflight : f.jobs.length = f.accepted.countP Job.running
  limit : f.jobs.length ≤ config.maxInflight
  counts : f.succeeded + f.failed = f.accepted.countP Job.ended
  closing : f.waiting.isSome = true → f.closing = true
  waiting : ∀ jobs, f.waiting = some jobs → ∀ i ∈ f.jobs, i ∈ jobs
  closed : f.closed = true → f.waiting.isSome = true ∧ f.jobs = []

theorem Sound.init (config : Config) : Sound config .init where
  each := fun _ h => by cases h
  nodup := List.nodup_nil
  mem := fun i => by simp [Forwarder.init]
  inflight := rfl
  limit := Nat.zero_le _
  counts := rfl
  closing := fun h => by cases h
  waiting := fun _ h => by cases h
  closed := fun h => by cases h

theorem Sound.replace (h : Sound config f) (hjob : f.accepted[i]? = some job)
    (hnext : next.Sound config.servers) (hrunning : next.running = job.running)
    (haccepted : f'.accepted = f.accepted.set i next)
    (hset : f'.jobs = f.jobs ∧ f'.closing = f.closing ∧ f'.waiting = f.waiting ∧
      f'.closed = f.closed)
    (hcounts : f'.succeeded + f'.failed + job.ended.toNat =
      f.succeeded + f.failed + next.ended.toNat) : Sound config f' := by
  obtain ⟨hjobs, hclosing, hwaiting, hclosed⟩ := hset
  have hin := (List.getElem?_eq_some_iff.mp hjob).1
  have hcount (p : Job → Bool) := InFlight.countP_set p next hjob
  constructor
  · intro other hother
    rw [haccepted] at hother
    rcases List.mem_or_eq_of_mem_set hother with hold | rfl
    · exact h.each other hold
    · exact hnext
  · exact hjobs ▸ h.nodup
  · intro j
    rw [hjobs, haccepted, h.mem j, List.getElem?_set]
    split
    case isTrue heq =>
      subst heq
      simp only [hjob, Option.some.injEq, exists_eq_left', hrunning]
    case isFalse => rfl
  · have hrun := hcount Job.running
    rw [hrunning] at hrun
    rw [hjobs, haccepted, h.inflight]
    omega
  · exact hjobs ▸ h.limit
  · have hended := hcount Job.ended
    have hbefore := h.counts
    rw [haccepted]
    omega
  · rw [hwaiting, hclosing]
    exact h.closing
  · rw [hwaiting, hjobs]
    exact h.waiting
  · rw [hclosed, hwaiting, hjobs]
    exact h.closed

theorem enter_phase (servers : List String) (job : Job) (index : Nat) :
    (job.enter servers index).running = true ∧ (job.enter servers index).ended = false := by
  unfold Job.enter
  split
  · exact ⟨rfl, rfl⟩
  · split <;> exact ⟨rfl, rfl⟩

theorem abort_phase : job.abort.running = job.running ∧ job.abort.ended = job.ended := by
  unfold Job.abort
  split <;> exact ⟨rfl, rfl⟩

theorem countContact_fields (f : Forwarder) (job : Job) :
    (f.countContact job).accepted = f.accepted ∧ (f.countContact job).jobs = f.jobs ∧
      (f.countContact job).closing = f.closing ∧ (f.countContact job).waiting = f.waiting ∧
      (f.countContact job).closed = f.closed ∧ (f.countContact job).succeeded = f.succeeded ∧
      (f.countContact job).failed = f.failed := by
  unfold countContact
  split <;> exact ⟨rfl, rfl, rfl, rfl, rfl, rfl, rfl⟩

theorem countSuccess_fields (f : Forwarder) (job : Job) :
    (f.countSuccess job).accepted = f.accepted ∧ (f.countSuccess job).jobs = f.jobs ∧
      (f.countSuccess job).closing = f.closing ∧ (f.countSuccess job).waiting = f.waiting ∧
      (f.countSuccess job).closed = f.closed ∧ (f.countSuccess job).failed = f.failed := by
  unfold countSuccess
  split <;> exact ⟨rfl, rfl, rfl, rfl, rfl, rfl⟩

theorem fresh_sound (servers : List String) (tcp aborted : Bool) {query : Bytes} {id : Nat}
    {q : Message} (hid : id < 65536) (hquery : parseDnsQuery query = .ok q) :
    (Job.fresh query tcp id aborted).Sound servers ∧
      Turn servers 0 (Job.fresh query tcp id aborted).history := by
  have hread := (readQuestion_header (parseDns_question (parseDnsQuery_parse hquery).1)).1
  have horderly : Orderly servers (if aborted then [Happening.aborted] else []) := by
    cases aborted with
    | false => exact .nil servers
    | true => exact (Orderly.nil servers).note rfl
  refine ⟨⟨⟨q, hquery, ?_⟩, ⟨id, hid, rfl⟩, horderly, fun hin => ?_, fun _ h => (by cases h),
    fun _ h => (by rcases h with h | h <;> cases h)⟩, horderly, ?_, ?_⟩
  · simp only [Job.fresh, hread, Except.toOption, Option.getD_some]
    rfl
  · cases aborted with
    | false => cases hin
    | true => rfl
  · cases aborted <;> rfl
  · cases aborted <;> rfl

theorem answered_phase (f : Forwarder) (servers : List String) (job : Job) (index : Nat)
    (outcome : Option Bytes) :
    (job.answered servers index outcome).running = true ∧
      ((f.countContact (job.answered servers index outcome)).countSuccess
          (job.answered servers index outcome)).succeeded +
        ((f.countContact (job.answered servers index outcome)).countSuccess
          (job.answered servers index outcome)).failed =
      f.succeeded + f.failed + (job.answered servers index outcome).ended.toNat := by
  unfold Job.answered
  split
  case h_1 => exact ⟨rfl, Nat.succ_add _ _⟩
  dsimp only
  split
  case isTrue => exact ⟨rfl, rfl⟩
  unfold Job.enter
  split
  · exact ⟨rfl, rfl⟩
  split
  · exact ⟨rfl, rfl⟩
  · cases index <;> exact ⟨rfl, rfl⟩

theorem Sound.add (h : Sound config f) (hnext : next.Sound config.servers)
    (hrunning : next.running = true) (hended : next.ended = false) (hopen : f.closing = false)
    (hroom : f.jobs.length < config.maxInflight)
    (haccepted : f'.accepted = f.accepted ++ [next])
    (hjobs : f'.jobs = f.jobs ++ [f.accepted.length])
    (hset : f'.closing = f.closing ∧ f'.waiting = f.waiting ∧ f'.closed = f.closed)
    (hcounts : f'.succeeded + f'.failed = f.succeeded + f.failed) : Sound config f' := by
  obtain ⟨hclosing, hwaiting, hclosed⟩ := hset
  have hbehind : ∀ i ∈ f.jobs, i < f.accepted.length := fun i hi => by
    obtain ⟨job, hjob, -⟩ := (h.mem i).mp hi
    exact (List.getElem?_eq_some_iff.mp hjob).1
  have hnone : f.waiting = none := by
    rcases hsome : f.waiting with _ | jobs
    · rfl
    have hclosing := h.closing (by rw [hsome]; rfl)
    rw [hopen] at hclosing
    cases hclosing
  constructor
  · intro job hjob
    rw [haccepted] at hjob
    rcases List.mem_append.mp hjob with hold | hnew
    · exact h.each job hold
    · rw [List.mem_singleton.mp hnew]
      exact hnext
  · rw [hjobs]
    refine List.nodup_append.mpr ⟨h.nodup, by simp, ?_⟩
    intro a ha b hb
    rw [List.mem_singleton.mp hb]
    exact Nat.ne_of_lt (hbehind a ha)
  · intro i
    rw [haccepted, hjobs, List.mem_append, h.mem i]
    rcases Nat.lt_trichotomy i f.accepted.length with hlt | rfl | hgt
    · rw [List.getElem?_append_left hlt]
      simp [Nat.ne_of_lt hlt]
    · simp [hrunning]
    · have hpast : f.accepted[i]? = none := List.getElem?_eq_none (by omega)
      have hpast' : (f.accepted ++ [next])[i]? = none :=
        List.getElem?_eq_none (by rw [List.length_append, List.length_singleton]; omega)
      rw [hpast, hpast']
      simp
      omega
  · rw [haccepted, hjobs, List.length_append, h.inflight, List.countP_append,
      List.countP_singleton, hrunning]
    rfl
  · rw [hjobs, List.length_append]
    exact hroom
  · rw [hcounts, haccepted, h.counts, List.countP_append, List.countP_singleton, hended]
    rfl
  · rw [hwaiting, hclosing]
    exact h.closing
  · rw [hwaiting, hnone]
    exact fun _ hjobs => by cases hjobs
  · intro hdone
    rw [hclosed] at hdone
    have hwaits := (h.closed hdone).1
    rw [hnone] at hwaits
    cases hwaits

theorem Sound.resolve {query : Bytes} {tcp aborted : Bool} {id : Nat} (hid : id < 65536)
    (h : Sound config f) : Sound config (f.resolve config query tcp id aborted) := by
  unfold Forwarder.resolve
  split
  case h_1 => exact h
  rename_i q hquery
  split
  case isTrue =>
    exact ⟨h.each, h.nodup, h.mem, h.inflight, h.limit, h.counts, h.closing, h.waiting, h.closed⟩
  rename_i hfree
  simp only [Bool.or_eq_true, decide_eq_true_eq, not_or, Nat.not_le] at hfree
  obtain ⟨hopen, hroom⟩ := hfree
  obtain ⟨hfresh, hturn⟩ := fresh_sound config.servers tcp aborted hid hquery
  have hsound := hfresh.enter hturn
  obtain ⟨hrunning, hended⟩ := enter_phase config.servers (Job.fresh query tcp id aborted) 0
  generalize (Job.fresh query tcp id aborted).enter config.servers 0 = started at *
  obtain ⟨-, -, hclosing, hwaiting, hclosed, hsucceeded, hfailed⟩ :=
    countContact_fields f started
  exact h.add hsound hrunning hended (by simpa using hopen) hroom rfl rfl
    ⟨hclosing, hwaiting, hclosed⟩ (by dsimp only; omega)

theorem Sound.answer {outcome : Option Bytes} (h : Sound config f) :
    Sound config (f.answer config i outcome) := by
  unfold Forwarder.answer
  split
  case h_1 => exact h
  rename_i job hjob
  split
  case h_2 => exact h
  rename_i index hphase
  have hsound := (h.each job (List.mem_of_getElem? hjob)).answered outcome hphase
  have hbefore : job.running = true ∧ job.ended = false := by
    simp only [Job.running, Job.ended, hphase, and_self]
  obtain ⟨hcourse, hcounts⟩ := answered_phase f config.servers job index outcome
  generalize job.answered config.servers index outcome = next at *
  obtain ⟨haccepted, hjobs, hclosing, hwaiting, hclosed, -, -⟩ :=
    countContact_fields f next
  obtain ⟨haccepted', hjobs', hclosing', hwaiting', hclosed', -⟩ :=
    countSuccess_fields (f.countContact next) next
  refine h.replace hjob hsound (hcourse.trans hbefore.1.symm) ?_ ⟨hjobs'.trans hjobs,
    hclosing'.trans hclosing, hwaiting'.trans hwaiting, hclosed'.trans hclosed⟩ ?_
  · exact congrArg (fun jobs => jobs.set i next) (haccepted'.trans haccepted)
  · rw [hbefore.2]
    exact hcounts

theorem Sound.caught (h : Sound config f) : Sound config (f.caught i) := by
  unfold Forwarder.caught
  split
  case h_1 => exact h
  rename_i job hjob
  split
  case h_2 => exact h
  rename_i hphase
  have hsound := h.each job (List.mem_of_getElem? hjob)
  have hnext : Job.Sound config.servers { job with phase := .counted none } :=
    ⟨hsound.query, hsound.wire, hsound.orderly, hsound.aborted, fun _ hasking => (by cases hasking),
      fun _ hresponse => (by rcases hresponse with hresponse | hresponse <;> cases hresponse)⟩
  refine h.replace hjob hnext (by simp only [Job.running, hphase]) rfl ⟨rfl, rfl, rfl, rfl⟩ ?_
  simp only [Job.ended, hphase, put, Bool.toNat_false, Bool.toNat_true]
  omega

theorem Sound.abort (h : Sound config f) : Sound config (f.abort i) := by
  unfold Forwarder.abort
  split
  case h_1 => exact h
  rename_i job hjob
  refine h.replace hjob (h.each job (List.mem_of_getElem? hjob)).abort abort_phase.1 rfl
    ⟨rfl, rfl, rfl, rfl⟩ ?_
  rw [abort_phase.2]
  rfl

theorem Sound.finish (h : Sound config f) : Sound config (f.finish i) := by
  unfold Forwarder.finish
  split
  case h_1 => exact h
  rename_i job hjob
  split
  case h_2 => exact h
  rename_i response hphase
  have hsound := h.each job (List.mem_of_getElem? hjob)
  have hrunning : job.running = true := by simp only [Job.running, hphase]
  have hended : job.ended = true := by simp only [Job.ended, hphase]
  have hin : i ∈ f.jobs := (h.mem i).mpr ⟨job, hjob, hrunning⟩
  have hcount (p : Job → Bool) := InFlight.countP_set p
    { job with phase := .settled response } hjob
  constructor
  · intro other hother
    rcases List.mem_or_eq_of_mem_set hother with hold | rfl
    · exact h.each other hold
    refine ⟨hsound.query, hsound.wire, hsound.orderly, hsound.aborted,
      fun _ hasking => (by cases hasking), fun found hfound => ?_⟩
    rcases hfound with hfound | hfound
    · cases hfound
    · cases hfound
      exact hsound.response found (.inl hphase)
  · exact h.nodup.erase i
  · intro j
    dsimp only [put]
    rw [h.nodup.mem_erase_iff, h.mem j, List.getElem?_set]
    split
    case isTrue heq =>
      subst heq
      simp [Job.running]
    case isFalse hne =>
      exact and_iff_right (Ne.symm hne)
  · have hrun := hcount Job.running
    rw [hrunning] at hrun
    have hsettled : Job.running { job with phase := .settled response } = false := rfl
    have hleft := h.inflight
    rw [hsettled] at hrun
    dsimp only [put]
    rw [List.length_erase_of_mem hin]
    simp only [Bool.toNat_true, Bool.toNat_false] at hrun
    omega
  · exact Nat.le_trans List.length_erase_le h.limit
  · have hend := hcount Job.ended
    have hsettled : Job.ended { job with phase := .settled response } = true := rfl
    rw [hended, hsettled] at hend
    have hbefore := h.counts
    dsimp only [put]
    omega
  · exact h.closing
  · exact fun jobs hjobs j hj => h.waiting jobs hjobs j (List.mem_of_mem_erase hj)
  · intro hclosed
    rw [(h.closed hclosed).2] at hin
    cases hin

theorem Sound.close (h : Sound config f) : Sound config f.close := by
  unfold Forwarder.close
  split
  case h_1 => exact h
  constructor
  · intro job hjob
    obtain ⟨old, hold, rfl⟩ := List.mem_map.mp hjob
    exact (h.each old hold).abort
  · exact h.nodup
  · intro i
    rw [h.mem i]
    rw [List.getElem?_map]
    cases f.accepted[i]? with
    | none => simp
    | some job => simp [abort_phase]
  · rw [h.inflight]
    rw [List.countP_map]
    exact List.countP_congr fun job _ => by simp [abort_phase]
  · exact h.limit
  · dsimp only
    rw [h.counts, List.countP_map]
    exact List.countP_congr fun job _ => by simp [abort_phase]
  · exact fun _ => rfl
  · intro jobs hjobs i hi
    rw [Option.some.injEq] at hjobs
    exact hjobs ▸ hi
  · exact fun hclosed => ⟨rfl, (h.closed hclosed).2⟩

theorem Sound.settle (h : Sound config f) : Sound config f.settle := by
  unfold Forwarder.settle
  split
  case h_1 => exact h
  rename_i jobs hjobs
  split
  case isFalse => exact h
  rename_i hdone
  refine ⟨h.each, h.nodup, h.mem, h.inflight, h.limit, h.counts, h.closing, h.waiting,
    fun _ => ⟨by simp [hjobs], ?_⟩⟩
  rw [List.eq_nil_iff_forall_not_mem]
  intro i hi
  have hgone := List.all_eq_true.mp hdone i (h.waiting jobs hjobs i hi)
  simp [hi] at hgone

end Forwarder

theorem step_sound {config : Config} {f : Forwarder} (h : f.Sound config) (event : Event) :
    (step config f event).Sound config := by
  cases event with
  | resolve query tcp id aborted => exact h.resolve id.isLt
  | answer i outcome => exact h.answer
  | caught i => exact h.caught
  | finish i => exact h.finish
  | abort i => exact h.abort
  | close => exact h.close
  | settle => exact h.settle

theorem run_sound (config : Config) (events : List Event) : (run config events).Sound config := by
  induction events using List.reverseRecOn with
  | nil => exact .init config
  | append_singleton events event ih =>
    rw [run, List.foldl_append]
    exact step_sound ih event

/-- The response has the caller's identifier and question. -/
def AnswersCaller (query response : Bytes) : Prop :=
  ∃ q answer, parseDnsQuery query = .ok q ∧ parseDns response = .ok answer ∧ answer.id = q.id ∧
    answer.nameKey = q.nameKey ∧ answer.question.type = q.question.type ∧
    answer.question.klass = q.question.klass

theorem Job.Sound.answers {job : Job} {response : Bytes}
    (h : job.Sound servers) (hphase : job.phase = .settled (some response)) :
    AnswersCaller job.query response := by
  obtain ⟨answer, hvalid⟩ := h.response response (.inr hphase)
  obtain ⟨q, hquery, hparse, hanswers, -⟩ := validate_message hvalid
  exact ⟨q, answer, hquery, hparse, hanswers.id, hanswers.nameKey, hanswers.type, hanswers.klass⟩

theorem ended_running (jobs : List Job) :
    jobs.countP Job.ended + jobs.countP Job.running =
      jobs.length + jobs.countP Job.uncleared := by
  induction jobs with
  | nil => rfl
  | cons job rest ih =>
    rw [List.countP_cons, List.countP_cons, List.countP_cons, List.length_cons]
    have hone : (if job.ended then 1 else 0) + (if job.running then 1 else 0) =
        1 + if job.uncleared then 1 else 0 := by
      unfold Job.ended Job.running Job.uncleared
      cases job.phase <;> rfl
    omega

/-- In every run: at most `maxInflight` jobs, the servers in their order and each at most once,
counters that are ahead by the outcomes whose `finally` is still to come, nothing in flight
once `close` has resolved, and responses to the callers' own queries. -/
theorem forwarder_runs {isPublicRelayAddress : String → Bool} {primary : Option String}
    {servers : List String} (maxInflight : Nat)
    (hservers : tunnelDnsServers isPublicRelayAddress primary = some servers)
    (events : List Event) :
    (run ⟨servers, maxInflight⟩ events).accepted.countP Job.running ≤ maxInflight ∧
    (∀ job ∈ (run ⟨servers, maxInflight⟩ events).accepted,
      Orderly servers job.history ∧ (contacts job.history).Nodup) ∧
    (run ⟨servers, maxInflight⟩ events).succeeded + (run ⟨servers, maxInflight⟩ events).failed +
        (run ⟨servers, maxInflight⟩ events).inflight =
      (run ⟨servers, maxInflight⟩ events).accepted.length +
        (run ⟨servers, maxInflight⟩ events).accepted.countP Job.uncleared ∧
    ((run ⟨servers, maxInflight⟩ events).closed = true →
      (run ⟨servers, maxInflight⟩ events).inflight = 0 ∧
      (run ⟨servers, maxInflight⟩ events).accepted.countP Job.running = 0) ∧
    (∀ job ∈ (run ⟨servers, maxInflight⟩ events).accepted, ∀ response,
      job.phase = .settled (some response) → AnswersCaller job.query response) := by
  have h := run_sound ⟨servers, maxInflight⟩ events
  generalize run ⟨servers, maxInflight⟩ events = f at h
  have hinflight : f.inflight = f.accepted.countP Job.running := h.inflight
  refine ⟨hinflight ▸ h.limit, fun job hjob => ?_, ?_, fun hclosed => ?_,
    fun job hjob response hphase => (h.each job hjob).answers hphase⟩
  · have horderly := (h.each job hjob).orderly
    exact ⟨horderly, horderly.order.sublist.nodup (tunnelDnsServers_nodup hservers)⟩
  · rw [h.counts, hinflight, ended_running]
  · have hnone : f.inflight = 0 := by rw [Forwarder.inflight, (h.closed hclosed).2, List.length_nil]
    exact ⟨hnone, hinflight ▸ hnone⟩

/-- A query for the address of `a`, with the identifier 5. -/
def labQuery : Bytes := [0, 5, 1, 0, 0, 1, 0, 0, 0, 0, 0, 0, 1, 97, 0, 0, 1, 0, 1]

def labAnswer : Bytes := [0, 7, 129, 128, 0, 1, 0, 0, 0, 0, 0, 0, 1, 97, 0, 0, 1, 0, 1]

/-- One query that the primary answers, up to where the response is counted. -/
def labRun : List Event := [.resolve labQuery false 7 false, .answer 0 (some labAnswer)]

theorem forwarder_runs_default :
    (run ⟨defaultServers, 16⟩ labRun).succeeded + (run ⟨defaultServers, 16⟩ labRun).failed +
        (run ⟨defaultServers, 16⟩ labRun).inflight =
      (run ⟨defaultServers, 16⟩ labRun).accepted.length +
        (run ⟨defaultServers, 16⟩ labRun).accepted.countP Job.uncleared :=
  (@forwarder_runs (fun _ => false) none _ 16 rfl labRun).2.2.1

/-- The response is counted as a success while its job is still counted as in flight. -/
theorem counted_before_cleared :
    (run ⟨defaultServers, 16⟩ labRun).succeeded + (run ⟨defaultServers, 16⟩ labRun).failed +
        (run ⟨defaultServers, 16⟩ labRun).inflight = 2 ∧
      (run ⟨defaultServers, 16⟩ labRun).accepted.length = 1 := by
  decide +kernel

end Meshpn.Dns.Tunnel
