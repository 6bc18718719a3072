import Meshpn.Device.DnsWire

/-!
The DNS proxy with its cache, `meshvpn_dns_proxy.c`. Three workers answer queries; the
cache is behind a lock, and a worker takes it to look up, to read the generation and to
store, with other workers, clears and time in between. What a socket returns and the id
of a query to the upstream are given from outside. The client's answer is taken to be
written as a whole.

`clears`, `begun` and the two records are no part of the program: they count the clears,
say after how many of them a reply was asked for, and keep what was handed out and sent.

What the cache hands out, in every run of the proxy: a reply to the same query, with what
is left of the times to live, and asked for since the last clear. The age is kept in 32
bits and so is the generation, so that both are known up to multiples of 2^32 only. What is
written to a client over UDP fits the size that the client announces.
-/

namespace Meshpn.Device.Dns

open Meshpn.Lib

def dnsMax : Nat := 4096

def dnsUdpMax : Nat := 1232

def cacheSlots : Nat := 8

/-- `cache_entry_t`; an entry that was cleared has no time to live. -/
structure CacheEntry where
  query : Bytes
  response : Bytes
  storedUs : Nat
  ttl : Nat
  begun : Nat

def CacheEntry.empty : CacheEntry := ⟨[], [], 0, 0, 0⟩

/-- A query that a worker has read. -/
structure Job where
  tcp : Bool
  localIp : Vector UInt8 4
  query : Bytes
  asked : Question

/-- A reply that was taken from the cache, and when. -/
structure Hit where
  query : Bytes
  entry : CacheEntry
  age : Nat
  response : Bytes
  now : Nat
  clears : Nat

/-- Where a worker is. -/
inductive Worker where
  | idle
  /-- Before `cache_get`. -/
  | asking (job : Job)
  /-- Before `cache_generation`. -/
  | missed (job : Job)
  /-- In `upstream`. -/
  | waiting (job : Job) (generation : UInt32) (begun : Nat)
  /-- Before `cache_put`. -/
  | answered (job : Job) (response : Bytes) (generation : UInt32) (begun : Nat)
  /-- Before the answer is written. -/
  | replying (job : Job) (response : Bytes) (hit : Option Hit)

/-- An answer to a client. -/
structure Answer where
  job : Job
  response : Bytes
  hit : Option Hit
  clears : Nat

structure Proxy where
  /-- Whether there was memory for the cache. -/
  hasCache : Bool
  slots : List CacheEntry
  next : UInt32
  generation : UInt32
  now : Nat
  workers : List Worker
  clears : Nat
  hits : List Hit
  sent : List Answer

def Proxy.init (hasCache : Bool) : Proxy :=
  ⟨hasCache, List.replicate cacheSlots .empty, 0, 0, 0, List.replicate 3 .idle, 0, [], []⟩

/-- `meshvpn_dns_clear_cache`. -/
def Proxy.clearCache (s : Proxy) : Proxy :=
  if s.hasCache then
    { s with
      generation := s.generation + 1
      slots := List.replicate cacheSlots .empty
      clears := s.clears + 1 }
  else s

/-- The age of an entry in seconds, of which 32 bits are kept. -/
def CacheEntry.age (e : CacheEntry) (now : Nat) : Nat :=
  (now - e.storedUs) / 1000000 % 4294967296

def CacheEntry.serves (e : CacheEntry) (now : Nat) (query : Bytes) : Bool :=
  e.query.length == query.length && decide (e.age now < e.ttl) &&
    query.drop 2 == e.query.drop 2

def Proxy.cacheGet (s : Proxy) (query : Bytes) : Option Hit :=
  if !s.hasCache || dnsUdpMax < query.length then none
  else
    (s.slots.find? (·.serves s.now query)).bind fun e =>
      if e.response.isEmpty then none
      else
        (ageTtls (query.take 2 ++ e.response.drop 2) (e.age s.now)).map fun (_, response) =>
          ⟨query, e, e.age s.now, response, s.now, s.clears⟩

def Proxy.cachePut (s : Proxy) (query response : Bytes) (generation : UInt32) (begun : Nat) :
    Proxy :=
  if !s.hasCache || dnsUdpMax < query.length || dnsUdpMax < response.length then s
  else
    match ageTtls response 0 with
    | none => s
    | some (ttl, _) =>
      if generation ≠ s.generation then s
      else
        { s with
          slots := s.slots.set (s.next.toNat % cacheSlots)
            ⟨query, response, s.now, if ttl < 300 then ttl else 300, begun⟩
          next := s.next + 1 }

/-- The last check of `upstream`: a response to this query and its question. -/
def accepts (query response : Bytes) : Bool :=
  decide (12 ≤ response.length) && decide (128 ≤ byteAt response 2) &&
    response.take 2 == query.take 2 &&
    match question query, question response with
    | some q, some a => q.name == a.name && q.type == a.type && q.klass == a.klass
    | _, _ => false

/-- `upstream`; a truncated datagram is asked for again over TCP. -/
def upstream (query : Bytes) (datagram stream : Option Bytes) (tcp : Bool) : Option Bytes :=
  let read := fun (raw : Option Bytes) =>
    raw.filter fun response => decide (response.length ≤ dnsMax) && accepts query response
  if tcp then read stream
  else
    (read datagram).bind fun response =>
      if byteAt response 2 / 2 % 2 = 1 then read stream else some response

def udpLimit (query : Bytes) (q : Question) : Nat :=
  if wordAt query 10 = 1 ∧ q.stop + 11 ≤ query.length ∧ byteAt query q.stop = 0 ∧
      wordAt query (q.stop + 1) = optType then
    let cap := wordAt query (q.stop + 3)
    if cap < 512 then 512 else if dnsUdpMax < cap then dnsUdpMax else cap
  else 512

def localName (name : Bytes) : Bool :=
  name == "meshpn.home.arpa".toList.map (fun c => UInt8.ofNat c.toNat) ||
    name == "meshpn.local".toList.map (fun c => UInt8.ofNat c.toNat)

def noAddress : Vector UInt8 4 := Vector.replicate 4 0

/-- The answer that is written. -/
def Job.answer (job : Job) (response : Bytes) : Bytes :=
  if !job.tcp && decide (udpLimit job.query job.asked < response.length) then
    reply job.query dnsMax 0 true noAddress
  else response

inductive Event where
  | tick (us : Nat)
  | clear
  /-- A worker takes a query from the listener's queue, or reads it from its connection. -/
  | receive (worker : Nat) (tcp : Bool) (localIp : Vector UInt8 4) (query : Bytes)
  | lookup (worker : Nat)
  | readGeneration (worker : Nat)
  | upstream (worker : Nat) (id : UInt8 × UInt8) (datagram stream : Option Bytes)
  | store (worker : Nat)
  | send (worker : Nat)

/-- The worker goes on. -/
def Proxy.move (s : Proxy) (worker : Nat) (next : Worker) : Proxy :=
  { s with workers := s.workers.set worker next }

/-- The beginning of `worker`, up to the lookup. -/
def takeQuery (tcp : Bool) (localIp : Vector UInt8 4) (query : Bytes) : Worker :=
  if query.length < 12 ∨ (if tcp then dnsMax else dnsUdpMax) < query.length then .idle
  else if 128 ≤ byteAt query 2 then .idle
  else
    match question query with
    | none => .idle
    | some q =>
      if localName q.name then
        let rcode := if localIp.toList.any (· != 0) then 0 else 2
        .replying ⟨tcp, localIp, query, q⟩ (reply query dnsMax rcode false localIp) none
      else .asking ⟨tcp, localIp, query, q⟩

def Proxy.step (s : Proxy) : Event → Proxy
  | .tick us => { s with now := s.now + us }
  | .clear => s.clearCache
  | .receive worker tcp localIp query =>
    match s.workers[worker]? with
    | some .idle => s.move worker (takeQuery tcp localIp query)
    | _ => s
  | .lookup worker =>
    match s.workers[worker]? with
    | some (.asking job) =>
      match s.cacheGet job.query with
      | none => s.move worker (.missed job)
      | some hit =>
        { s.move worker (.replying job hit.response (some hit)) with hits := s.hits ++ [hit] }
    | _ => s
  | .readGeneration worker =>
    match s.workers[worker]? with
    | some (.missed job) => s.move worker (.waiting job s.generation s.clears)
    | _ => s
  | .upstream worker id datagram stream =>
    match s.workers[worker]? with
    | some (.waiting job generation begun) =>
      match upstream ([id.1, id.2] ++ job.query.drop 2) datagram stream job.tcp with
      | none => s.move worker (.replying job (reply job.query dnsMax 2 false noAddress) none)
      | some response =>
        s.move worker
          (.answered job (job.query.take 2 ++ response.drop 2) generation begun)
    | _ => s
  | .store worker =>
    match s.workers[worker]? with
    | some (.answered job response generation begun) =>
      (s.cachePut job.query response generation begun).move worker (.replying job response none)
    | _ => s
  | .send worker =>
    match s.workers[worker]? with
    | some (.replying job response hit) =>
      let answer := job.answer response
      if answer.isEmpty then s.move worker .idle
      else
        { s.move worker .idle with
          sent := s.sent ++ [⟨job, answer, hit, s.clears⟩] }
    | _ => s

def Proxy.run (s : Proxy) (events : List Event) : Proxy := events.foldl Proxy.step s

/-- The reply is the stored one with the query's id and aged records, of which at least one
has a time to live and all of those had more than the age, which is below five minutes. -/
structure Hit.Fresh (h : Hit) : Prop where
  query : h.query.length = h.entry.query.length ∧ h.query.drop 2 = h.entry.query.drop 2
  stored : h.entry.storedUs ≤ h.now
  age : h.age = (h.now - h.entry.storedUs) / 1000000 % 4294967296
  limit : h.age < 300
  records : ∃ stop records, h.entry.response = h.entry.response.take stop ++ encodeAll records ∧
    h.response = (h.query.take 2 ++ h.entry.response.drop 2).take stop ++
      encodeAll (records.map (Record.aged h.age)) ∧
    (∃ r ∈ records, r.lives = true) ∧ ∀ r ∈ records, r.lives = true → h.age < r.ttl
  begun : h.entry.begun ≤ h.clears
  clears : h.entry.begun % 4294967296 = h.clears % 4294967296

/-- The client announces this size in a record right behind its question. -/
def Job.Announces (job : Job) (size : Nat) : Prop :=
  wordAt job.query 10 = 1 ∧ job.asked.stop + 11 ≤ job.query.length ∧
    byteAt job.query job.asked.stop = 0 ∧ wordAt job.query (job.asked.stop + 1) = optType ∧
    wordAt job.query (job.asked.stop + 3) = size

/-- An answer over UDP has at most 512 bytes, or as many as the client announces. -/
def Answer.Fits (a : Answer) : Prop :=
  a.job.tcp = false → a.response.length ≤ 512 ∨
    ∃ size, a.job.Announces size ∧ a.response.length ≤ size ∧ a.response.length ≤ dnsUdpMax

theorem udpLimit_spec (job : Job) : 512 ≤ udpLimit job.query job.asked ∧
    (udpLimit job.query job.asked = 512 ∨
      ∃ size, job.Announces size ∧ udpLimit job.query job.asked ≤ size ∧
        udpLimit job.query job.asked ≤ dnsUdpMax) := by
  unfold udpLimit
  split
  case isFalse => exact ⟨Nat.le_refl _, .inl rfl⟩
  rename_i hannounced
  dsimp only
  split
  case isTrue => exact ⟨Nat.le_refl _, .inl rfl⟩
  rename_i hlarge
  obtain ⟨hcount, hroom, hname, htype⟩ := hannounced
  split
  case isTrue hmax =>
    exact ⟨by decide, .inr ⟨_, ⟨hcount, hroom, hname, htype, rfl⟩, Nat.le_of_lt hmax,
      Nat.le_refl _⟩⟩
  case isFalse hmax =>
    exact ⟨by omega, .inr ⟨_, ⟨hcount, hroom, hname, htype, rfl⟩, Nat.le_refl _, by omega⟩⟩

theorem answer_fits (job : Job) (response : Bytes) (hit : Option Hit) (clears : Nat) :
    (⟨job, job.answer response, hit, clears⟩ : Answer).Fits := by
  intro hudp
  have hudp : job.tcp = false := hudp
  obtain ⟨hlow, hlimit⟩ := udpLimit_spec job
  have hle : (job.answer response).length ≤ udpLimit job.query job.asked := by
    unfold Job.answer
    split
    case isTrue =>
      have hshort : (reply job.query dnsMax 0 true noAddress).length ≤ 290 := reply_length
      omega
    case isFalse hfits =>
      simp only [hudp, Bool.not_false, Bool.true_and, decide_eq_true_eq] at hfits
      omega
  rcases hlimit with hclassic | ⟨size, hannounced, hsize, hmax⟩
  · exact .inl (hle.trans (Nat.le_of_eq hclassic))
  · exact .inr ⟨size, hannounced, hle.trans hsize, hle.trans hmax⟩

/-- A reply asked for after `begun` clears, while the generation was this one. -/
def Proxy.Knows (s : Proxy) (generation : UInt32) (begun : Nat) : Prop :=
  generation = UInt32.ofNat begun ∧ begun ≤ s.clears

/-- An entry that can serve. -/
structure Proxy.Holds (s : Proxy) (e : CacheEntry) : Prop where
  stored : e.storedUs ≤ s.now
  ttl : ∃ least out, ageTtls e.response 0 = some (least, out) ∧ e.ttl = min least 300
  begun : s.Knows s.generation e.begun

/-- What a worker carries. -/
def Proxy.Carries (s : Proxy) : Worker → Prop
  | .asking job => 2 ≤ job.query.length
  | .waiting _ generation begun => s.Knows generation begun
  | .answered _ _ generation begun => s.Knows generation begun
  | _ => True

structure Proxy.Sound (s : Proxy) : Prop where
  generation : s.generation = UInt32.ofNat s.clears
  slots : ∀ e ∈ s.slots, e.ttl ≠ 0 → s.Holds e
  workers : ∀ worker ∈ s.workers, s.Carries worker
  hits : ∀ hit ∈ s.hits, hit.Fresh
  sent : ∀ answer ∈ s.sent, answer.Fits

theorem init_sound (hasCache : Bool) : (Proxy.init hasCache).Sound := by
  refine ⟨rfl, ?_, ?_, ?_, ?_⟩
  · intro e he hlive
    rw [List.eq_of_mem_replicate he] at hlive
    exact absurd rfl hlive
  · intro worker hworker
    rw [List.eq_of_mem_replicate hworker]
    trivial
  · intro hit hhit
    cases hhit
  · intro answer hanswer
    cases hanswer

theorem ofNat_mod {a b : Nat} (h : UInt32.ofNat a = UInt32.ofNat b) :
    a % 4294967296 = b % 4294967296 := by
  have hval := congrArg UInt32.toNat h
  simpa [UInt32.toNat_ofNat'] using hval

theorem Proxy.Sound.hit {s : Proxy} (h : s.Sound) {query : Bytes} {hit : Hit}
    (hquery : 2 ≤ query.length) (hhit : s.cacheGet query = some hit) : hit.Fresh := by
  unfold Proxy.cacheGet at hhit
  split at hhit
  case isTrue => cases hhit
  obtain ⟨e, hfound, hhit⟩ := Option.bind_eq_some_iff.mp hhit
  split at hhit
  case isTrue => cases hhit
  obtain ⟨⟨m, response⟩, haged, rfl⟩ := Option.map_eq_some_iff.mp hhit
  have hserves := List.find?_some hfound
  simp only [CacheEntry.serves, Bool.and_eq_true, beq_iff_eq, decide_eq_true_eq] at hserves
  obtain ⟨⟨hlength, hyoung⟩, hbody⟩ := hserves
  have hholds := h.slots e (List.mem_of_find?_eq_some hfound) (by omega)
  obtain ⟨least, out, hstored, httl⟩ := hholds.ttl
  obtain ⟨stop, records, hkept, hsame⟩ := ageTtls_spec hstored
  have hlong : 17 ≤ e.response.length := by
    obtain ⟨q, -, hq, -⟩ := ageTtls_some hstored
    exact question_long hq
  have htwo : (query.take 2).length = 2 := by
    rw [List.length_take]
    omega
  have hreply : SameBody (query.take 2 ++ e.response.drop 2) e.response := by
    refine ⟨?_, List.drop_left' htwo⟩
    rw [List.length_append, htwo, List.length_drop]
    omega
  have hold : ∀ r ∈ records, r.lives = true → e.age s.now < r.ttl := by
    intro r hr hlives
    have hleast : least ≤ r.ttl := by
      rw [hkept.least]
      exact leastTtl_le (List.mem_map_of_mem (List.mem_filter.mpr ⟨hr, hlives⟩))
    omega
  obtain ⟨hknown, hbegun⟩ := hholds.begun
  exact
    { query := ⟨hlength.symm, hbody⟩
      stored := hholds.stored
      age := rfl
      limit := by dsimp only; omega
      records := by
        refine ⟨stop, records, hkept.bytes, hsame _ _ _ _ hreply haged, ?_, hold⟩
        obtain ⟨r, hr⟩ := List.exists_mem_of_ne_nil _ hkept.nonempty
        exact ⟨r, (List.mem_filter.mp hr).1, (List.mem_filter.mp hr).2⟩
      begun := hbegun
      clears := ofNat_mod (hknown.symm.trans h.generation) }

theorem Proxy.Knows.later {s t : Proxy} {generation : UInt32} {begun : Nat}
    (h : s.Knows generation begun) (hclears : s.clears ≤ t.clears) : t.Knows generation begun :=
  ⟨h.1, h.2.trans hclears⟩

theorem Proxy.Carries.later {s t : Proxy} {worker : Worker} (h : s.Carries worker)
    (hclears : s.clears ≤ t.clears) : t.Carries worker := by
  cases worker with
  | idle => trivial
  | asking job => exact h
  | missed job => trivial
  | waiting job generation begun => exact Knows.later h hclears
  | answered job response generation begun => exact Knows.later h hclears
  | replying job response hit => trivial

theorem Proxy.Sound.move {s : Proxy} (h : s.Sound) {worker : Nat} {next : Worker}
    (hnext : s.Carries next) {hits : List Hit} (hhits : ∀ hit ∈ hits, hit.Fresh)
    {sent : List Answer} (hsent : ∀ answer ∈ sent, answer.Fits) :
    ({ s.move worker next with hits, sent } : Proxy).Sound := by
  refine ⟨h.generation, fun e he hlive => ?_, ?_, hhits, hsent⟩
  · obtain ⟨hstored, httl, hbegun⟩ := h.slots e he hlive
    exact ⟨hstored, httl, hbegun⟩
  · intro other hother
    rcases List.mem_or_eq_of_mem_set hother with hold | rfl
    · exact (h.workers other hold).later (Nat.le_refl _)
    · exact hnext.later (Nat.le_refl _)

theorem Proxy.Sound.moved {s : Proxy} (h : s.Sound) {worker : Nat} {next : Worker}
    (hnext : s.Carries next) : (s.move worker next).Sound := h.move hnext h.hits h.sent

theorem Proxy.Sound.tick {s : Proxy} (h : s.Sound) (us : Nat) :
    ({ s with now := s.now + us } : Proxy).Sound := by
  refine ⟨h.generation, fun e he hlive => ?_, fun worker hworker => ?_, h.hits, h.sent⟩
  · obtain ⟨hstored, httl, hbegun⟩ := h.slots e he hlive
    exact ⟨hstored.trans (Nat.le_add_right _ _), httl, hbegun⟩
  · exact (h.workers worker hworker).later (Nat.le_refl _)

theorem Proxy.Sound.clear {s : Proxy} (h : s.Sound) : s.clearCache.Sound := by
  unfold Proxy.clearCache
  split
  case isFalse => exact h
  refine ⟨?_, fun e he hlive => ?_, fun worker hworker => ?_, h.hits, h.sent⟩
  · rw [h.generation, UInt32.ofNat_add]
    rfl
  · rw [List.eq_of_mem_replicate he] at hlive
    exact absurd rfl hlive
  · exact (h.workers worker hworker).later (Nat.le_add_right _ _)

theorem Proxy.Sound.put {s : Proxy} (h : s.Sound) {query response : Bytes}
    {generation : UInt32} {begun : Nat} (hknown : s.Knows generation begun) :
    (s.cachePut query response generation begun).Sound ∧
      (s.cachePut query response generation begun).workers = s.workers := by
  unfold Proxy.cachePut
  split
  case isTrue => exact ⟨h, rfl⟩
  split
  case h_1 => exact ⟨h, rfl⟩
  rename_i ttl out haged
  split
  case isTrue => exact ⟨h, rfl⟩
  rename_i hcurrent
  have hcurrent : generation = s.generation := not_ne_iff.mp hcurrent
  refine ⟨⟨h.generation, fun e he hlive => ?_, fun worker hworker => ?_, h.hits, h.sent⟩, rfl⟩
  · rcases List.mem_or_eq_of_mem_set he with hold | rfl
    · obtain ⟨hstored, httl, hbegun⟩ := h.slots e hold hlive
      exact ⟨hstored, httl, hbegun⟩
    · refine ⟨Nat.le_refl _, ⟨ttl, out, haged, ?_⟩, ?_⟩
      · dsimp only
        split <;> omega
      · exact ⟨hcurrent ▸ hknown.1, hknown.2⟩
  · exact (h.workers worker hworker).later (Nat.le_refl _)

theorem takeQuery_carries (s : Proxy) (tcp : Bool) (localIp : Vector UInt8 4) (query : Bytes) :
    s.Carries (takeQuery tcp localIp query) := by
  unfold takeQuery
  by_cases hshort : query.length < 12 ∨ (if tcp then dnsMax else dnsUdpMax) < query.length
  case pos =>
    rw [if_pos hshort]
    trivial
  case neg =>
    rw [if_neg hshort]
    split
    case isTrue => trivial
    case isFalse =>
      split
      case h_1 => trivial
      case h_2 =>
        dsimp only
        split
        case isTrue => trivial
        case isFalse =>
          change 2 ≤ query.length
          omega

theorem Proxy.Sound.step {s : Proxy} (h : s.Sound) (event : Event) : (s.step event).Sound := by
  have hhas : ∀ {i : Nat} {worker : Worker}, s.workers[i]? = some worker → s.Carries worker :=
    fun hworker => h.workers _ (List.mem_of_getElem? hworker)
  cases event with
  | tick us => exact h.tick us
  | clear => exact h.clear
  | receive i tcp localIp query =>
    unfold Proxy.step
    dsimp only
    split
    case h_1 => exact h.moved (takeQuery_carries s tcp localIp query)
    case h_2 => exact h
  | lookup i =>
    unfold Proxy.step
    dsimp only
    split
    case h_1 job hjob =>
      split
      case h_1 => exact h.moved trivial
      rename_i hit hhit
      refine @move s h i (.replying job hit.response (some hit)) trivial _ ?_ _ h.sent
      intro other hother
      rcases List.mem_append.mp hother with hold | hnew
      · exact h.hits other hold
      · rw [List.mem_singleton.mp hnew]
        exact h.hit (hhas hjob) hhit
    case h_2 => exact h
  | readGeneration i =>
    unfold Proxy.step
    dsimp only
    split
    case h_1 => exact h.moved ⟨h.generation, Nat.le_refl _⟩
    case h_2 => exact h
  | upstream i id datagram stream =>
    unfold Proxy.step
    dsimp only
    split
    case h_1 job generation begun hjob =>
      split
      case h_1 => exact h.moved trivial
      have hknown : s.Knows generation begun := hhas hjob
      exact h.moved hknown
    case h_2 => exact h
  | store i =>
    unfold Proxy.step
    dsimp only
    split
    case h_1 job response generation begun hjob =>
      exact (h.put (hhas hjob)).1.moved trivial
    case h_2 => exact h
  | send i =>
    unfold Proxy.step
    dsimp only
    split
    case h_1 job response hit hjob =>
      split
      case isTrue => exact h.moved trivial
      refine @move s h i .idle trivial _ h.hits _ ?_
      intro other hother
      rcases List.mem_append.mp hother with hold | hnew
      · exact h.sent other hold
      · rw [List.mem_singleton.mp hnew]
        exact answer_fits job response hit s.clears
    case h_2 => exact h

theorem Proxy.Sound.run {s : Proxy} (h : s.Sound) (events : List Event) : (s.run events).Sound := by
  induction events generalizing s with
  | nil => exact h
  | cons event events ih => exact ih (h.step event)

/-- A query for the address of `a`. -/
def sampleQuery : Bytes := [0x12, 0x34, 1, 0, 0, 1, 0, 0, 0, 0, 0, 0, 1, 97, 0, 0, 1, 0, 1]

/-- What the upstream says under the id 7: an address for two hundred seconds. -/
def sampleResponse : Bytes :=
  [0, 7, 0x81, 0x80, 0, 1, 0, 1, 0, 0, 0, 0, 1, 97, 0, 0, 1, 0, 1] ++
    [0xc0, 12, 0, 1, 0, 1, 0, 0, 0, 200, 0, 4, 10, 0, 0, 1]

/-- A worker fetches and stores, and another is asked for the same. -/
def sampleFetch : List Event :=
  [.receive 0 false noAddress sampleQuery, .lookup 0, .readGeneration 0,
    .upstream 0 (0, 7) (some sampleResponse) none, .store 0, .send 0]

/-- Ten seconds later the reply is ten seconds old. -/
example : ((Proxy.init true).run (sampleFetch ++ [.tick 10500000,
    .receive 1 false noAddress sampleQuery, .lookup 1])).hits.map Hit.age = [10] := by
  decide +kernel

/-- The same question from a client that announces ten bytes. -/
def tinyQuery : Bytes :=
  sampleQuery.take 11 ++ [1] ++ sampleQuery.drop 12 ++ [0, 0, 41, 0, 10, 0, 0, 0, 0, 0, 0]

end Meshpn.Device.Dns
