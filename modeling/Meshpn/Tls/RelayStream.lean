import Meshpn.Tls.Incremental

/-!
A client's bytes on their way through a relay: first to `readRelayHello`, then, after a pause, to
`pump`. The socket hands out what has arrived chunk by chunk while it flows, to whoever listens;
without a listener a chunk would be lost.
-/

namespace Meshpn.Tls

open Meshpn.Lib List
open Meshpn.Lib.Bytes

/-- The client's socket and its two listeners. -/
structure RelayClient where
  /-- Chunks that were not handed out yet. -/
  queue : List Bytes
  flowing : Bool
  reader : RelayReader
  /-- `pump` listens. -/
  pumping : Bool
  /-- The chunks that `pump` was given. -/
  delivered : List Bytes
  /-- What it has written. -/
  written : Bytes
  /-- `session.signal.aborted`. -/
  aborted : Bool
  deriving DecidableEq, Repr

def RelayStatus.isFailed : RelayStatus → Bool
  | .failed _ => true
  | _ => false

namespace RelayClient

/-- The reader after a chunk: the socket is paused when it is done, and a failure ends the
session. -/
def read (client : RelayClient) (reader : RelayReader) : RelayClient :=
  { client with
    reader
    flowing := reader.status = .listening
    aborted := client.aborted || reader.status.isFailed }

/-- `readRelayHello`, up to its first return. -/
def start (limits : RelayLimits) (initialBuf : Bytes) : Except Fault RelayClient :=
  let client : RelayClient := ⟨[], true, ⟨[], 5, .listening⟩, false, [], [], false⟩
  if initialBuf.isEmpty then .ok client
  else (relayData limits client.reader initialBuf).map client.read

/-- `data` of `pump`. `answer` is what the transformation returns, `none` where it throws. -/
def pumpData (client : RelayClient) (guarded : Bool) (chunk : Bytes) (answer : Option Bytes)
    (taken : Bool) : RelayClient :=
  match if guarded then answer else some chunk with
  | none =>
    { client with
      delivered := client.delivered ++ [chunk]
      pumping := false
      flowing := false
      aborted := true }
  | some bytes =>
    { client with
      delivered := client.delivered ++ [chunk]
      written := client.written ++ bytes
      flowing := bytes.isEmpty || taken }

/-- A chunk is handed out. -/
def emit (limits : RelayLimits) (guarded : Bool) (client : RelayClient) (chunk : Bytes)
    (answer : Option Bytes) (taken : Bool) : Except Fault RelayClient :=
  if client.pumping then .ok (client.pumpData guarded chunk answer taken)
  else if client.reader.status = .listening ∧ client.aborted = false then
    (relayData limits client.reader chunk).map client.read
  else .ok client

inductive Event where
  /-- A chunk has arrived. -/
  | arrive (chunk : Bytes)
  /-- The next chunk is handed out; `taken` is what `destination.write` returns. -/
  | data (answer : Option Bytes) (taken : Bool)
  /-- `bridge` calls `pump` on the client's side. -/
  | pump
  /-- The destination's event `drain`. -/
  | drain
  /-- The session ends for another reason. -/
  | fail
  deriving DecidableEq, Repr

def step (limits : RelayLimits) (guarded : Bool) (client : RelayClient) :
    Event → Except Fault RelayClient
  | .arrive chunk => .ok { client with queue := client.queue ++ [chunk] }
  | .data answer taken =>
    match client.queue with
    | [] => .ok client
    | chunk :: rest =>
      if client.flowing then emit limits guarded { client with queue := rest } chunk answer taken
      else .ok client
  | .pump =>
    match client.reader.status with
    | .resolved _ =>
      if client.aborted then .ok client else .ok { client with pumping := true, flowing := true }
    | _ => .ok client
  | .drain => .ok (if client.pumping then { client with flowing := true } else client)
  | .fail => .ok { client with pumping := false, flowing := false, aborted := true }

def run (limits : RelayLimits) (guarded : Bool) (initialBuf : Bytes) (events : List Event) :
    Except Fault RelayClient :=
  (start limits initialBuf).bind fun client => events.foldlM (step limits guarded) client

/-- The chunks that arrive in a run. -/
def arrived (events : List Event) : List Bytes :=
  events.filterMap fun event =>
    match event with
    | .arrive chunk => some chunk
    | _ => none

end RelayClient

section Reader

variable {limits : RelayLimits} {reader next : RelayReader} {front chunk : Bytes}

/-- Unless it has failed, the reader has all it was given, and what it resolves to is there. -/
def RelayReader.Has (limits : RelayLimits) (reader : RelayReader) (front : Bytes) : Prop :=
  reader.status.isFailed = false → reader.buffer = front ∧
    ∀ hello, reader.status = .resolved hello →
      parseFirstTlsClientHelloFromTcpBuf (front.take limits.maxHelloBytes) = .ok (.ok hello) ∧
      front.length ≤ hello.bytesConsumed + limits.maxPendingBytes

theorem relayParsed_has {parsed : Parse Hello}
    (h : parseFirstTlsClientHelloFromTcpBuf (front.take limits.maxHelloBytes) = .ok parsed) :
    (relayParsed limits front reader parsed).Has limits front := by
  cases parsed with
  | needMore minTotal =>
    simp only [relayParsed]
    split
    · exact fun hfailed => by cases hfailed
    · exact fun _ => ⟨rfl, fun _ hresolved => by cases hresolved⟩
  | error reason => exact fun hfailed => by cases hfailed
  | ok hello =>
    simp only [relayParsed]
    split
    · exact fun hfailed => by cases hfailed
    split
    · exact fun hfailed => by cases hfailed
    rename_i htail
    refine fun _ => ⟨rfl, fun other hother => ?_⟩
    cases hother
    exact ⟨h, by omega⟩

theorem relayData_has (h : reader.Has limits front) (hlistening : reader.status = .listening)
    (hdata : relayData limits reader chunk = .ok next) : next.Has limits (front ++ chunk) := by
  have hbuffer : reader.buffer = front := (h (by rw [hlistening]; rfl)).1
  unfold relayData at hdata
  rw [hlistening] at hdata
  dsimp only at hdata
  rw [hbuffer] at hdata
  split at hdata
  · cases hdata
    exact fun hfailed => by cases hfailed
  split at hdata
  · cases hdata
    exact fun _ => ⟨rfl, fun _ hresolved => by cases hresolved⟩
  · cases hparsed : parseFirstTlsClientHelloFromTcpBuf
        ((front ++ chunk).take limits.maxHelloBytes) with
    | error fault =>
      rw [hparsed] at hdata
      cases hdata
    | ok parsed =>
      rw [hparsed] at hdata
      cases hdata
      exact relayParsed_has hparsed

/-- A reader on its way to a hello that fits. -/
structure RelayReader.Awaits (reader : RelayReader) (front : Bytes) (hello : Hello) : Prop where
  listening : reader.status = .listening
  buffer : reader.buffer = front
  short : front.length < hello.bytesConsumed
  soon : reader.nextParseAt ≤ hello.bytesConsumed

theorem relayData_awaits {stream : Bytes} {hello : Hello} (chunk more : Bytes) (h : reader.Awaits front hello)
    (hstream : stream = front ++ chunk ++ more)
    (hparsed : parseFirstTlsClientHelloFromTcpBuf (stream.take limits.maxHelloBytes) =
      .ok (.ok hello))
    (hsni : hello.extensions.sni.head?.getD [] ≠ [])
    (htail : (front ++ chunk).length ≤ hello.bytesConsumed + limits.maxPendingBytes) :
    ∃ next, relayData limits reader chunk = .ok next ∧
      if (front ++ chunk).length < hello.bytesConsumed then next.Awaits (front ++ chunk) hello
      else next.status = .resolved hello := by
  have hfits : hello.bytesConsumed ≤ limits.maxHelloBytes :=
    (parse_front hparsed).2.1.trans (length_take_le _ _)
  have hfront : stream.take (front ++ chunk).length = front ++ chunk := by
    rw [hstream, take_left]
  unfold relayData
  rw [h.listening]
  dsimp only
  rw [h.buffer, if_neg (by omega)]
  by_cases hbefore : (front ++ chunk).length < hello.bytesConsumed
  · simp only [if_pos hbefore]
    have hview : (front ++ chunk).take limits.maxHelloBytes = front ++ chunk :=
      take_of_length_le (by omega)
    obtain ⟨minTotal, hneed, hless, hmost⟩ := parse_before hparsed hbefore
    rw [take_take, Nat.min_eq_left (by omega), hfront] at hneed
    split
    case isTrue hearly => exact ⟨_, rfl, rfl, rfl, hbefore, h.soon⟩
    rw [hview, hneed]
    refine ⟨_, rfl, ?_⟩
    simp only [relayParsed]
    rw [if_neg (by omega)]
    exact ⟨rfl, rfl, hbefore, hmost⟩
  · simp only [if_neg hbefore]
    have hlate : ¬(front ++ chunk).length < reader.nextParseAt := by
      have hsoon := h.soon
      omega
    have hagain := parse_after (n := min limits.maxHelloBytes (front ++ chunk).length)
      hparsed (by omega) ((Nat.min_le_left _ _).trans limits.parsable)
    rw [← take_take, hfront] at hagain
    rw [if_neg hlate, hagain]
    refine ⟨_, rfl, ?_⟩
    simp only [relayParsed]
    rw [if_neg (by simpa using hsni), if_neg (by omega)]

theorem five_le_bytesConsumed {buf : Bytes} {hello : Hello}
    (h : parseFirstTlsClientHelloFromTcpBuf buf = .ok (.ok hello)) : 5 ≤ hello.bytesConsumed := by
  obtain ⟨hsize, hinside, hfront⟩ := parse_front h
  have hfits := (length_take_le' hello.bytesConsumed buf).trans hsize
  by_contra hshort
  have hlength : (buf.take hello.bytesConsumed).length < 5 := by
    rw [length_take]
    omega
  rw [parseFirstTlsClientHelloFromTcpBuf_eq hfits, assemble_eq, frontRecord_short hlength] at hfront
  cases hfront

end Reader

namespace RelayClient

variable {limits : RelayLimits} {guarded : Bool} {initialBuf : Bytes} {came : List Bytes}
  {client next : RelayClient}

/-- What has come to the client's socket is with the reader, with `pump` or in the queue. -/
structure Sound (limits : RelayLimits) (guarded : Bool) (initialBuf : Bytes) (came : List Bytes)
    (client : RelayClient) : Prop where
  whole : ∃ seen, client.reader.Has limits (initialBuf ++ seen.flatten) ∧
    (client.reader.status.isFailed = false → seen ++ client.delivered ++ client.queue = came)
  flows : client.flowing = true →
    client.pumping = true ∨ client.reader.status = .listening ∧ client.aborted = false
  pumps : client.pumping = true → ∃ hello, client.reader.status = .resolved hello
  listens : client.reader.status = .listening →
    client.delivered = [] ∧ (client.aborted = false → client.flowing = true)
  fails : client.reader.status.isFailed = true → client.aborted = true
  plain : guarded = false → client.written = client.delivered.flatten

theorem Sound.read {reader : RelayReader} {chunk : Bytes} {seen rest : List Bytes}
    (h : client.Sound limits guarded initialBuf came)
    (hlistening : client.reader.status = .listening) (hlive : client.aborted = false)
    (hhas : client.reader.Has limits (initialBuf ++ seen.flatten))
    (hcame : seen ++ client.delivered ++ chunk :: rest = came)
    (hpumping : client.pumping = false)
    (hdata : relayData limits client.reader chunk = .ok reader) :
    (RelayClient.read { client with queue := rest } reader).Sound limits guarded initialBuf
      came where
  whole := by
    have hnext := relayData_has hhas hlistening hdata
    have hflat : initialBuf ++ (seen ++ [chunk]).flatten = initialBuf ++ seen.flatten ++ chunk := by
      simp
    refine ⟨seen ++ [chunk], hflat ▸ hnext, fun _ => ?_⟩
    change seen ++ [chunk] ++ client.delivered ++ rest = came
    rw [← hcame, (h.listens hlistening).1]
    simp
  flows := fun hflowing => by
    have hstatus : reader.status = .listening := of_decide_eq_true hflowing
    refine .inr ⟨hstatus, ?_⟩
    change (client.aborted || reader.status.isFailed) = false
    rw [hlive, hstatus]
    rfl
  pumps := fun hpumps => by
    rw [RelayClient.read, hpumping] at hpumps
    cases hpumps
  listens := fun hstatus => ⟨(h.listens hlistening).1, fun _ => decide_eq_true hstatus⟩
  fails := fun hfailed => by
    change (client.aborted || reader.status.isFailed) = true
    change reader.status.isFailed = true at hfailed
    rw [hfailed, Bool.or_true]
  plain := h.plain

theorem Sound.pumpData {chunk : Bytes} {rest : List Bytes}
    (h : client.Sound limits guarded initialBuf came) (hqueue : client.queue = chunk :: rest)
    (hpumping : client.pumping = true) (answer : Option Bytes) (taken : Bool) :
    (RelayClient.pumpData { client with queue := rest } guarded chunk answer taken).Sound limits
      guarded initialBuf came := by
  obtain ⟨seen, hhas, hcame⟩ := h.whole
  obtain ⟨hello, hresolved⟩ := h.pumps hpumping
  have hmoved : (client.reader.status.isFailed = false →
      seen ++ (client.delivered ++ [chunk]) ++ rest = came) := fun hok => by
    rw [← hcame hok, hqueue]
    simp
  unfold RelayClient.pumpData
  split
  case h_1 hanswer =>
    have hguarded : guarded = true := by
      cases guarded with
      | true => rfl
      | false => cases hanswer
    exact ⟨⟨seen, hhas, hmoved⟩, (fun hflowing => by cases hflowing),
      (fun hpumps => by cases hpumps), (fun hstatus => by rw [hresolved] at hstatus; cases hstatus),
      fun _ => rfl, (fun hplain => by rw [hguarded] at hplain; cases hplain)⟩
  case h_2 bytes hanswer =>
    refine ⟨⟨seen, hhas, hmoved⟩, fun _ => .inl hpumping, h.pumps,
      (fun hstatus => by rw [hresolved] at hstatus; cases hstatus), h.fails, fun hplain => ?_⟩
    rw [hplain] at hanswer
    cases hanswer
    rw [h.plain hplain]
    simp

theorem start_sound (h : start limits initialBuf = .ok client) :
    client.Sound limits guarded initialBuf [] := by
  have hempty : Sound limits guarded initialBuf [] ⟨[], true, ⟨[], 5, .listening⟩, false, [], [],
      false⟩ ∨ initialBuf ≠ [] := by
    by_cases hnone : initialBuf = []
    · subst hnone
      refine .inl ⟨⟨[], fun _ => ⟨rfl, fun _ hresolved => by cases hresolved⟩, fun _ => rfl⟩,
        fun _ => .inr ⟨rfl, rfl⟩, (fun hpumps => by cases hpumps), fun _ => ⟨rfl, fun _ => rfl⟩,
        (fun hfailed => by cases hfailed), fun _ => rfl⟩
    · exact .inr hnone
  unfold start at h
  dsimp only at h
  split at h
  case isTrue hnone =>
    cases h
    exact hempty.resolve_right fun hsome => hsome (isEmpty_iff.mp hnone)
  rename_i hsome
  cases hdata : relayData limits ⟨[], 5, .listening⟩ initialBuf with
  | error fault =>
    rw [hdata] at h
    cases h
  | ok reader =>
    rw [hdata] at h
    cases h
    have hhas : RelayReader.Has limits ⟨[], 5, .listening⟩ [] :=
      fun _ => ⟨rfl, fun _ hresolved => by cases hresolved⟩
    have hnext := relayData_has hhas rfl hdata
    refine ⟨⟨[], (append_nil initialBuf).symm ▸ hnext, fun _ => rfl⟩, fun hflowing => .inr ?_,
      (fun hpumps => by cases hpumps), fun hstatus => ⟨rfl, fun _ => decide_eq_true hstatus⟩,
      fun hfailed => hfailed, fun _ => rfl⟩
    have hstatus : reader.status = .listening := of_decide_eq_true hflowing
    exact ⟨hstatus, by simp [RelayClient.read, hstatus, RelayStatus.isFailed]⟩

theorem step_sound (h : client.Sound limits guarded initialBuf came) (event : Event)
    (hstep : step limits guarded client event = .ok next) :
    next.Sound limits guarded initialBuf (came ++ arrived [event]) := by
  cases event with
  | arrive chunk =>
    cases hstep
    obtain ⟨seen, hhas, hcame⟩ := h.whole
    refine ⟨⟨seen, hhas, fun hok => ?_⟩, h.flows, h.pumps, h.listens, h.fails, h.plain⟩
    rw [← hcame hok]
    simp [arrived]
  | data answer taken =>
    rw [show came ++ arrived [Event.data answer taken] = came from append_nil came]
    unfold step at hstep
    dsimp only at hstep
    split at hstep
    case h_1 =>
      cases hstep
      exact h
    rename_i chunk rest hqueue
    split at hstep
    case isFalse =>
      cases hstep
      exact h
    rename_i hflowing
    unfold emit at hstep
    split at hstep
    case isTrue hpumping =>
      cases hstep
      exact h.pumpData hqueue hpumping answer taken
    rename_i hpumping
    rw [Bool.not_eq_true] at hpumping
    rcases h.flows hflowing with hpumps | ⟨hlistening, hlive⟩
    · change client.pumping = false at hpumping
      rw [hpumps] at hpumping
      cases hpumping
    rw [if_pos ⟨hlistening, hlive⟩] at hstep
    obtain ⟨seen, hhas, hcame⟩ := h.whole
    have hok := hcame (by rw [hlistening]; rfl)
    rw [hqueue] at hok
    cases hdata : relayData limits client.reader chunk with
    | error fault =>
      rw [show relayData limits _ chunk = .error fault from hdata] at hstep
      cases hstep
    | ok reader =>
      rw [show relayData limits _ chunk = .ok reader from hdata] at hstep
      cases hstep
      exact h.read hlistening hlive hhas hok hpumping hdata
  | pump =>
    rw [show came ++ arrived [Event.pump] = came from append_nil came]
    unfold step at hstep
    dsimp only at hstep
    split at hstep
    case h_1 hello hresolved =>
      split at hstep
      case isTrue =>
        cases hstep
        exact h
      case isFalse =>
        cases hstep
        exact ⟨h.whole, fun _ => .inl rfl, fun _ => ⟨hello, hresolved⟩,
          (fun hstatus => by rw [hresolved] at hstatus; cases hstatus), h.fails, h.plain⟩
    case h_2 =>
      cases hstep
      exact h
  | drain =>
    rw [show came ++ arrived [Event.drain] = came from append_nil came]
    cases hstep
    split
    case isTrue hpumping =>
      exact ⟨h.whole, fun _ => .inl hpumping, h.pumps,
        fun hstatus => ⟨(h.listens hstatus).1, fun _ => rfl⟩, h.fails, h.plain⟩
    case isFalse => exact h
  | fail =>
    rw [show came ++ arrived [Event.fail] = came from append_nil came]
    cases hstep
    exact ⟨h.whole, (fun hflowing => by cases hflowing), (fun hpumps => by cases hpumps),
      fun hstatus => ⟨(h.listens hstatus).1, (fun hlive => by cases hlive)⟩, fun _ => rfl, h.plain⟩

theorem arrived_cons (event : Event) (events : List Event) :
    arrived (event :: events) = arrived [event] ++ arrived events := by
  rw [← singleton_append, arrived, filterMap_append]
  rfl

theorem foldlM_sound (events : List Event) (h : client.Sound limits guarded initialBuf came)
    (hrun : events.foldlM (step limits guarded) client = .ok next) :
    next.Sound limits guarded initialBuf (came ++ arrived events) := by
  induction events generalizing client came with
  | nil =>
    cases hrun
    rwa [show came ++ arrived [] = came from append_nil came]
  | cons event rest ih =>
    rw [foldlM_cons] at hrun
    cases hstep : step limits guarded client event with
    | error fault =>
      rw [hstep] at hrun
      cases hrun
    | ok between =>
      rw [hstep] at hrun
      rw [arrived_cons, ← append_assoc]
      exact ih (step_sound h event hstep) hrun

/-- No chunk that completes the hello brings more behind it than may be pending. -/
def Fits (limits : RelayLimits) (hello : Hello) (chunks : List Bytes) : Prop :=
  ∀ first chunk, first ++ [chunk] <+: chunks → first.flatten.length < hello.bytesConsumed →
    (first ++ [chunk]).flatten.length ≤ hello.bytesConsumed + limits.maxPendingBytes

/-- The reader has its hello, or it has less than that. -/
def Awaiting (hello : Hello) (initialBuf : Bytes) (came : List Bytes) (client : RelayClient) :
    Prop :=
  client.reader.status = .resolved hello ∨
    ∃ seen, client.reader.Awaits (initialBuf ++ seen.flatten) hello ∧
      seen ++ client.queue = came ∧ client.aborted = false ∧ client.pumping = false

section Accepted

variable {hello : Hello} {later : List Bytes} {more stream : Bytes}

theorem start_awaiting (later : List Bytes) (more : Bytes)
    (hstream : stream = initialBuf ++ later.flatten ++ more)
    (hparsed : parseFirstTlsClientHelloFromTcpBuf (stream.take limits.maxHelloBytes) =
      .ok (.ok hello))
    (hsni : hello.extensions.sni.head?.getD [] ≠ [])
    (hfits : Fits limits hello (initialBuf :: later)) :
    ∃ client, start limits initialBuf = .ok client ∧ client.Awaiting hello initialBuf [] := by
  have hlong := five_le_bytesConsumed hparsed
  have hempty : (⟨[], 5, .listening⟩ : RelayReader).Awaits [] hello :=
    ⟨rfl, rfl, by simp only [length_nil]; omega, hlong⟩
  unfold start
  dsimp only
  split
  case isTrue hnone =>
    rw [isEmpty_iff.mp hnone]
    exact ⟨_, rfl, .inr ⟨[], hempty, rfl, rfl, rfl⟩⟩
  have htail := hfits [] initialBuf (prefix_append [initialBuf] later)
    (by simp only [flatten_nil, length_nil]; omega)
  obtain ⟨reader, hdata, hreader⟩ := relayData_awaits initialBuf (later.flatten ++ more) hempty
    (hstream.trans (append_assoc _ _ _)) hparsed hsni (by simpa using htail)
  rw [hdata]
  refine ⟨_, rfl, ?_⟩
  split at hreader
  case isTrue =>
    refine .inr ⟨[], (append_nil initialBuf).symm ▸ hreader, rfl, ?_, rfl⟩
    simp [RelayClient.read, hreader.listening, RelayStatus.isFailed]
  case isFalse => exact .inl hreader

theorem step_awaiting (guarded : Bool) (h : client.Awaiting hello initialBuf came) {event : Event}
    (hgoes : event ≠ .fail)
    (hstream : stream = initialBuf ++ (came ++ arrived [event] ++ later).flatten ++ more)
    (hparsed : parseFirstTlsClientHelloFromTcpBuf (stream.take limits.maxHelloBytes) =
      .ok (.ok hello))
    (hsni : hello.extensions.sni.head?.getD [] ≠ [])
    (hfits : Fits limits hello (initialBuf :: (came ++ arrived [event] ++ later))) :
    ∃ next, step limits guarded client event = .ok next ∧
      next.Awaiting hello initialBuf (came ++ arrived [event]) := by
  cases event with
  | arrive chunk =>
    refine ⟨_, rfl, h.imp id ?_⟩
    rintro ⟨seen, hawaits, rfl, hlive⟩
    exact ⟨seen, hawaits, (append_assoc seen client.queue [chunk]).symm, hlive⟩
  | data answer taken =>
    have hcame : came ++ arrived [Event.data answer taken] = came := append_nil came
    rw [hcame] at hstream hfits ⊢
    unfold step
    dsimp only
    split
    case h_1 => exact ⟨client, rfl, h⟩
    rename_i chunk rest hqueue
    split
    case isFalse => exact ⟨client, rfl, h⟩
    unfold emit
    rcases h with hresolved | ⟨seen, hawaits, rfl, hlive, hpumping⟩
    · split
      case isTrue =>
        refine ⟨_, rfl, .inl ?_⟩
        unfold RelayClient.pumpData
        split
        · exact hresolved
        · exact hresolved
      case isFalse =>
        split
        case isTrue hlistening =>
          have hboth := hlistening.1
          rw [show client.reader.status = _ from hresolved] at hboth
          cases hboth
        case isFalse => exact ⟨_, rfl, .inl hresolved⟩
    · rw [hqueue] at hstream hfits
      have hfront : initialBuf ++ (seen ++ [chunk]).flatten =
          initialBuf ++ seen.flatten ++ chunk := by
        simp
      have htail := hfits (initialBuf :: seen) chunk ⟨rest ++ later, by simp⟩
        (by simpa using hawaits.short)
      obtain ⟨reader, hdata, hreader⟩ := relayData_awaits chunk
        (rest.flatten ++ later.flatten ++ more) hawaits
        (by rw [hstream]; simp) hparsed hsni (by simpa using htail)
      rw [if_neg (by simp [hpumping]), if_pos ⟨hawaits.listening, hlive⟩]
      rw [show relayData limits _ chunk = .ok reader from hdata]
      refine ⟨_, rfl, ?_⟩
      split at hreader
      case isTrue =>
        refine .inr ⟨seen ++ [chunk], hfront ▸ hreader, ?_, ?_, hpumping⟩
        · rw [hqueue]
          simp [RelayClient.read]
        · simp [RelayClient.read, hreader.listening, hlive, RelayStatus.isFailed]
      case isFalse => exact .inl hreader
  | pump =>
    rw [show came ++ arrived [Event.pump] = came from append_nil came]
    unfold step
    dsimp only
    split
    case h_1 other hresolved =>
      have hdone : client.reader.status = .resolved hello := by
        rcases h with hdone | ⟨_, hawaits, _⟩
        · exact hdone
        · rw [hawaits.listening] at hresolved
          cases hresolved
      split
      case isTrue => exact ⟨client, rfl, .inl hdone⟩
      case isFalse => exact ⟨_, rfl, .inl hdone⟩
    case h_2 => exact ⟨client, rfl, h⟩
  | drain =>
    rw [show came ++ arrived [Event.drain] = came from append_nil came]
    refine ⟨_, rfl, ?_⟩
    split
    case isTrue hpumping =>
      refine h.imp id ?_
      rintro ⟨seen, hawaits, hcame, hlive, hnot⟩
      rw [hnot] at hpumping
      cases hpumping
    case isFalse => exact h
  | fail => exact absurd rfl hgoes

theorem foldlM_awaiting (guarded : Bool) (more : Bytes) (events : List Event)
    (h : client.Awaiting hello initialBuf came)
    (hgoes : Event.fail ∉ events)
    (hstream : stream = initialBuf ++ (came ++ arrived events).flatten ++ more)
    (hparsed : parseFirstTlsClientHelloFromTcpBuf (stream.take limits.maxHelloBytes) =
      .ok (.ok hello))
    (hsni : hello.extensions.sni.head?.getD [] ≠ [])
    (hfits : Fits limits hello (initialBuf :: (came ++ arrived events))) :
    ∃ next, events.foldlM (step limits guarded) client = .ok next ∧
      next.Awaiting hello initialBuf (came ++ arrived events) := by
  induction events generalizing client came with
  | nil => exact ⟨client, rfl, (append_nil came).symm ▸ h⟩
  | cons event rest ih =>
    rw [mem_cons, not_or] at hgoes
    rw [arrived_cons, ← append_assoc] at hstream hfits ⊢
    obtain ⟨between, hstep, hbetween⟩ := step_awaiting guarded h
      (fun hevent => hgoes.1 hevent.symm) hstream hparsed hsni hfits
    obtain ⟨next, hrun, hnext⟩ := ih hbetween hgoes.2 hstream hfits
    refine ⟨next, ?_, hnext⟩
    rw [foldlM_cons, hstep]
    exact hrun

end Accepted

end RelayClient

open RelayClient

/-- What the reader resolves to is a beginning of the client's stream with the whole hello, read as
every longer part of the stream is, and with no more behind it than may be pending; the rest of
the stream comes out of `pump` or still waits. A hello that fits is found in every split of the
stream that keeps the tail within bounds. -/
theorem relay_stream (limits : RelayLimits) (guarded : Bool) (initialBuf : Bytes)
    (events : List RelayClient.Event) :
    (∀ client, run limits guarded initialBuf events = .ok client →
      (client.reader.status.isFailed = true → client.aborted = true) ∧
      (client.reader.status = .listening → client.aborted = false → client.flowing = true) ∧
      ∀ hello, client.reader.status = .resolved hello →
        client.reader.buffer ++ client.delivered.flatten ++ client.queue.flatten =
          initialBuf ++ (arrived events).flatten ∧
        (guarded = false → client.written = client.delivered.flatten) ∧
        hello.bytesConsumed ≤ client.reader.buffer.length ∧
        client.reader.buffer.length ≤ hello.bytesConsumed + limits.maxPendingBytes ∧
        ∀ n, hello.bytesConsumed ≤ n → n ≤ maxClientBuf →
          parseFirstTlsClientHelloFromTcpBuf ((initialBuf ++ (arrived events).flatten).take n) =
            .ok (.ok hello)) ∧
    ∀ more hello, RelayClient.Event.fail ∉ events →
      parseFirstTlsClientHelloFromTcpBuf
        ((initialBuf ++ (arrived events).flatten ++ more).take limits.maxHelloBytes) =
          .ok (.ok hello) →
      hello.extensions.sni.head?.getD [] ≠ [] → Fits limits hello (initialBuf :: arrived events) →
      ∃ client, run limits guarded initialBuf events = .ok client ∧
        (client.reader.status = .listening ∨ client.reader.status = .resolved hello) ∧
        (client.queue = [] →
          hello.bytesConsumed ≤ (initialBuf ++ (arrived events).flatten).length →
          client.reader.status = .resolved hello) := by
  constructor
  · intro client hrun
    cases hstart : start limits initialBuf with
    | error fault =>
      rw [run, hstart] at hrun
      cases hrun
    | ok first =>
      rw [run, hstart] at hrun
      have hsound := foldlM_sound events (start_sound hstart) hrun
      rw [List.nil_append] at hsound
      refine ⟨hsound.fails, fun hlistening hlive => (hsound.listens hlistening).2 hlive,
        fun hello hresolved => ?_⟩
      have hok : client.reader.status.isFailed = false := by
        rw [hresolved]
        rfl
      obtain ⟨seen, hhas, hcame⟩ := hsound.whole
      obtain ⟨hbuffer, hhello⟩ := hhas hok
      obtain ⟨hparsed, htail⟩ := hhello hello hresolved
      have hinside := (parse_front hparsed).2.1
      rw [List.length_take] at hinside
      have hstream : initialBuf ++ (arrived events).flatten =
          client.reader.buffer ++ client.delivered.flatten ++ client.queue.flatten := by
        rw [← hcame hok, hbuffer]
        simp
      refine ⟨hstream.symm, hsound.plain, by rw [hbuffer]; omega, by rw [hbuffer]; exact htail,
        fun n hn hlimit => ?_⟩
      have hwhole := parse_front hparsed
      have hbegin : (client.reader.buffer.take limits.maxHelloBytes).take hello.bytesConsumed =
          (initialBuf ++ (arrived events).flatten).take hello.bytesConsumed := by
        rw [hstream, List.append_assoc, List.take_take, Nat.min_eq_left (by omega),
          List.take_append_of_le_length (by rw [hbuffer]; omega)]
      rw [← hbuffer] at hwhole
      rw [hbegin] at hwhole
      exact parse_after hwhole.2.2 hn hlimit
  · intro more hello hgoes hparsed hsni hfits
    obtain ⟨first, hstart, hfirst⟩ := start_awaiting (arrived events) more rfl
      hparsed hsni hfits
    obtain ⟨client, hrun, hclient⟩ := foldlM_awaiting guarded more events
      hfirst hgoes rfl hparsed hsni hfits
    refine ⟨client, by rw [run, hstart]; exact hrun, ?_, fun hqueue hthere => ?_⟩
    · rcases hclient with hresolved | ⟨seen, hawaits, -⟩
      · exact .inr hresolved
      · exact .inl hawaits.listening
    · rcases hclient with hresolved | ⟨seen, hawaits, hcame, -⟩
      · exact hresolved
      · rw [hqueue, List.append_nil, List.nil_append] at hcame
        have hshort := hawaits.short
        rw [hcame] at hshort
        omega

/-- A record with the smallest hello that names a server. -/
def plainHello : Bytes :=
  [0x16, 3, 1, 0, 57, 1, 0, 0, 53, 3, 3] ++ List.replicate 32 0 ++
    [0, 0, 2, 0x13, 1, 1, 0, 0, 10, 0, 0, 0, 6, 0, 4, 0, 0, 1, 0x61]

def plainParsed : Hello :=
  ⟨⟨[[0x61]], [], []⟩, 62, plainHello.drop 9⟩

/-- Two chunks that are cut inside the record's header. -/
theorem relay_stream_cut :
    ∃ client, run ⟨65536, 131072, by decide⟩ false []
        [.arrive (plainHello.take 3), .data none true, .arrive (plainHello.drop 3), .data none true]
          = .ok client ∧
      client.reader.status = .resolved plainParsed := by
  obtain ⟨client, hrun, -, hresolved⟩ :=
    (relay_stream ⟨65536, 131072, by decide⟩ false []
      [.arrive (plainHello.take 3), .data none true, .arrive (plainHello.drop 3),
        .data none true]).2 [] plainParsed (by decide) (by decide +kernel) (by decide) (by
          rintro first chunk ⟨rest, hrest⟩ -
          have hlength := congrArg (fun chunks => chunks.flatten.length) hrest
          rw [List.flatten_append, List.length_append] at hlength
          exact (Nat.le_add_right _ _).trans (hlength.le.trans (by decide +kernel)))
  refine ⟨client, hrun, hresolved ?_ (by decide +kernel)⟩
  have hqueue : (run ⟨65536, 131072, by decide⟩ false []
      [.arrive (plainHello.take 3), .data none true, .arrive (plainHello.drop 3),
        .data none true]).toOption.map queue = some [] := by
    decide +kernel
  rw [hrun] at hqueue
  exact Option.some.inj hqueue

/-- Behind a hello that was resolved to, half a megabyte more: the whole stream is not parsed. -/
theorem long_stream_unread :
    ∃ client hello, run ⟨65536, 131072, by decide⟩ false plainHello
        [.arrive (List.replicate 524288 0)] = .ok client ∧
      client.reader.status = .resolved hello ∧
      parseFirstTlsClientHelloFromTcpBuf (plainHello ++ List.replicate 524288 0) ≠
        .ok (.ok hello) := by
  refine ⟨⟨[List.replicate 524288 0], false, ⟨plainHello, 5, .resolved plainParsed⟩, false, [], [],
    false⟩, plainParsed, ?_, rfl, ?_⟩
  · have hstart : start ⟨65536, 131072, by decide⟩ plainHello =
        .ok ⟨[], false, ⟨plainHello, 5, .resolved plainParsed⟩, false, [], [], false⟩ := by
      decide +kernel
    rw [run, hstart]
    rfl
  · rw [parseFirstTlsClientHelloFromTcpBuf, if_pos]
    · exact fun h => by cases h
    · rw [List.length_append, List.length_replicate]
      decide

end Meshpn.Tls
