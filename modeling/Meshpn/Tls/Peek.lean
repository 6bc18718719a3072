import Meshpn.Tls.CutHello
import Meshpn.Tls.SniRewrite

/-!
The data handlers that meet a stranger's first bytes: the exit's dispatch and
the multiplexer of `clean-vpn.js`, and the relay's reader of
`transparent-tls-io.mjs`. Each collects chunks and parses what it has without
a guard of its own. They raise exactly when the collected bytes come to be a
cut hello, whatever the chunks.

What a stranger's first bytes can do to an exit: the parsers and the handlers
around them raise on cut hellos and on nothing else, and a body that was
accepted is safe for the walks that rewrite it.
-/

namespace Meshpn.Tls

open Meshpn.Lib List
open Meshpn.Lib.Bytes

inductive PeekAction where
  | startBridgeTcp
  | failStale
  | encSniSession
  deriving DecidableEq, Repr

/-- `onData` of the exit's dispatch, on all bytes so far; `none` keeps listening. -/
def peekOnData (merged : Bytes) : Except Fault (Option PeekAction) :=
  if merged.length < 1 then .ok none
  else if index merged (.int 0) ≠ .int 0x16 then .ok (some .startBridgeTcp)
  else
    (parseFirstTlsClientHelloFromTcpBuf merged).map fun parsed =>
      match parsed with
      | .needMore _ => if maxClientBuf < merged.length then some .failStale else none
      | _ => some .encSniSession

inductive MuxAction where
  | probePassthrough
  | tlsServer (hello : MuxHello)
  deriving DecidableEq, Repr

/-- `onData` of the multiplexer; `publicName` is the check of the server name, where there is one. -/
def muxOnData (publicName : List Bytes → Bool) (buf : Bytes) : Except Fault (Option MuxAction) :=
  (parseFirstTlsClientHello buf).map fun parsed =>
    match parsed with
    | .needMore _ => none
    | .error _ => some .probePassthrough
    | .ok hello =>
      if publicName hello.extensions.sni then some (.tlsServer hello) else some .probePassthrough

/-- Chunks arrive until the handler has decided and stops listening. -/
def feed {α : Type} (handler : Bytes → Except Fault (Option α)) :
    Bytes → List Bytes → Except Fault (Option α)
  | _, [] => .ok none
  | arrived, chunk :: chunks =>
    (handler (arrived ++ chunk)).bind fun action =>
      match action with
      | none => feed handler (arrived ++ chunk) chunks
      | some action => .ok (some action)

/-- `TRANSPARENT_TLS_LIMITS`, as far as the reader uses them. -/
structure RelayLimits where
  maxHelloBytes : Nat
  maxPendingBytes : Nat
  parsable : maxHelloBytes ≤ maxClientBuf

inductive RelayError where
  | pendingLimit | helloLimit | hello
  deriving DecidableEq, Repr

inductive RelayStatus where
  | listening
  | failed (error : RelayError)
  | resolved (hello : Hello)
  deriving DecidableEq, Repr

structure RelayReader where
  buffer : Bytes
  nextParseAt : Nat
  status : RelayStatus
  deriving DecidableEq, Repr

/-- What the reader does with a parse result. -/
def relayParsed (limits : RelayLimits) (buffer : Bytes) (reader : RelayReader) :
    Parse Hello → RelayReader
  | .needMore minTotal =>
    if limits.maxHelloBytes < minTotal ∨ limits.maxHelloBytes ≤ buffer.length then
      ⟨buffer, minTotal, .failed .helloLimit⟩
    else ⟨buffer, minTotal, .listening⟩
  | .error _ => ⟨buffer, reader.nextParseAt, .failed .hello⟩
  | .ok hello =>
    if (hello.extensions.sni.head?.getD []).isEmpty then
      ⟨buffer, reader.nextParseAt, .failed .hello⟩
    else if limits.maxPendingBytes < buffer.length - hello.bytesConsumed then
      ⟨buffer, reader.nextParseAt, .failed .pendingLimit⟩
    else ⟨buffer, reader.nextParseAt, .resolved hello⟩

/-- `data` of `readRelayHello`. Once the session has failed or the hello is
there, the listener is gone. -/
def relayData (limits : RelayLimits) (reader : RelayReader) (chunk : Bytes) :
    Except Fault RelayReader :=
  match reader.status with
  | .failed _ => .ok reader
  | .resolved _ => .ok reader
  | .listening =>
    let buffer := reader.buffer ++ chunk
    if limits.maxHelloBytes + limits.maxPendingBytes < buffer.length then
      .ok { reader with status := .failed .pendingLimit }
    else if buffer.length < reader.nextParseAt then .ok { reader with buffer }
    else
      (parseFirstTlsClientHelloFromTcpBuf (buffer.take limits.maxHelloBytes)).map
        (relayParsed limits buffer reader)

/-- `readRelayHello` over the chunks of a connection. -/
def relayRun (limits : RelayLimits) : RelayReader → List Bytes → Except Fault RelayReader
  | reader, [] => .ok reader
  | reader, chunk :: chunks =>
    (relayData limits reader chunk).bind fun reader => relayRun limits reader chunks

def readRelayHello (limits : RelayLimits) : List Bytes → Except Fault RelayReader :=
  relayRun limits ⟨[], 5, .listening⟩

theorem not_cut_of_final {buf more : Bytes} (hsafe : ¬ CutHello buf)
    (hfinal : ∀ n, ¬ (buf.length ≤ maxClientBuf ∧ assemble 0 [] buf = .needMore n)) :
    ¬ CutHello (buf ++ more) := by
  intro hcut
  have hsize : buf.length ≤ maxClientBuf := by
    have hlength := hcut.1
    rw [length_append] at hlength
    omega
  exact hsafe (hcut.of_append fun n hwait => hfinal n ⟨hsize, hwait⟩)

theorem not_cut_nil : ¬ CutHello [] := by
  intro hcut
  obtain ⟨_, body, consumed, hmessage, _⟩ := cutHello_iff.mp hcut
  rw [assemble_eq, frontRecord_short (by simp)] at hmessage
  simp at hmessage

/-- A handler that throws on cut hellos only, and decides on nothing that
could still become one, is safe on every chunking without one. -/
theorem feed_safe_iff {α : Type} {handler : Bytes → Except Fault (Option α)}
    (hthrows : ∀ buf, (∃ action, handler buf = .ok action) ↔ ¬ CutHello buf)
    (hdecided : ∀ buf action more, handler buf = .ok (some action) → ¬ CutHello (buf ++ more))
    (chunks : List Bytes) (arrived : Bytes) (harrived : ¬ CutHello arrived) :
    (∃ action, feed handler arrived chunks = .ok action) ↔
      ∀ first, first <+: chunks → ¬ CutHello (arrived ++ first.flatten) := by
  induction chunks generalizing arrived with
  | nil =>
    simp only [feed, Except.ok.injEq, exists_eq', true_iff]
    intro first hfirst
    rw [prefix_nil.mp hfirst]
    simpa using harrived
  | cons chunk chunks ih =>
    rw [feed]
    cases hhandled : handler (arrived ++ chunk) with
    | error fault =>
      have hcut : CutHello (arrived ++ chunk) := by
        by_contra hsafe
        obtain ⟨action, haction⟩ := (hthrows _).mpr hsafe
        rw [hhandled] at haction
        simp at haction
      simp only [Except.bind, reduceCtorEq, exists_false, false_iff, not_forall, not_not]
      exact ⟨[chunk], ⟨chunks, rfl⟩, by simpa using hcut⟩
    | ok action =>
      have hsafe : ¬ CutHello (arrived ++ chunk) := (hthrows _).mp ⟨action, hhandled⟩
      cases action with
      | none =>
        simp only [Except.bind]
        rw [ih (arrived ++ chunk) hsafe]
        constructor
        · intro hrest first hfirst
          rcases prefix_cons_iff.mp hfirst with rfl | ⟨rest, rfl, hprefix⟩
          · simpa using harrived
          · simpa using hrest rest hprefix
        · intro hall rest hprefix
          simpa using hall (chunk :: rest) (cons_prefix_cons.mpr ⟨rfl, hprefix⟩)
      | some action =>
        simp only [Except.bind, Except.ok.injEq, exists_eq', true_iff]
        intro first hfirst
        rcases prefix_cons_iff.mp hfirst with rfl | ⟨rest, rfl, _⟩
        · simpa using harrived
        · simpa using hdecided _ action rest.flatten hhandled

theorem not_cut_of_first {buf : Bytes} (h : index buf (.int 0) ≠ .int 0x16) : ¬ CutHello buf := by
  apply (parseFirstTlsClientHelloFromTcpBuf_safe_iff buf).mp
  rw [parseFirstTlsClientHelloFromTcpBuf]
  split
  · exact ⟨_, rfl⟩
  split
  · exact ⟨_, rfl⟩
  · exact ⟨_, rfl⟩

theorem map_ok_iff {α β : Type} {result : Except Fault α} {f : α → β} :
    (∃ mapped, result.map f = .ok mapped) ↔ ∃ value, result = .ok value := by
  cases result <;> simp [Except.map]

theorem peekOnData_throws (buf : Bytes) :
    (∃ action, peekOnData buf = .ok action) ↔ ¬ CutHello buf := by
  rw [peekOnData]
  split
  case isTrue hempty =>
    have hnil : buf = [] := length_eq_zero_iff.mp (by omega)
    simp [hnil, not_cut_nil]
  case isFalse =>
    split
    case isTrue hfirst => simp [not_cut_of_first hfirst]
    case isFalse => rw [map_ok_iff, parseFirstTlsClientHelloFromTcpBuf_safe_iff]

theorem peekOnData_decided (buf : Bytes) (action : PeekAction) (more : Bytes)
    (h : peekOnData buf = .ok (some action)) : ¬ CutHello (buf ++ more) := by
  have hsafe : ¬ CutHello buf := (peekOnData_throws buf).mp ⟨_, h⟩
  rw [peekOnData] at h
  split at h
  case isTrue => simp at h
  rename_i hsome
  split at h
  case isTrue hfirst =>
    apply not_cut_of_first
    cases buf with
    | nil => simp at hsome
    | cons byte rest => exact hfirst
  case isFalse =>
    refine not_cut_of_final hsafe fun n hwait => ?_
    have hparsed := parseFirstTlsClientHelloFromTcpBuf_wait.mpr hwait
    simp [hparsed, Except.map, Nat.not_lt.mpr hwait.1] at h

theorem muxOnData_throws (publicName : List Bytes → Bool) (buf : Bytes) :
    (∃ action, muxOnData publicName buf = .ok action) ↔ ¬ CutHello buf := by
  rw [muxOnData, map_ok_iff, parseFirstTlsClientHello_safe_iff]

theorem muxOnData_decided (publicName : List Bytes → Bool) (buf : Bytes) (action : MuxAction)
    (more : Bytes) (h : muxOnData publicName buf = .ok (some action)) :
    ¬ CutHello (buf ++ more) := by
  have hsafe : ¬ CutHello buf := (muxOnData_throws publicName buf).mp ⟨_, h⟩
  refine not_cut_of_final hsafe fun n hwait => ?_
  have hparsed := parseFirstTlsClientHello_wait.mpr hwait
  simp [muxOnData, hparsed, Except.map] at h

section Relay

variable {limits : RelayLimits}

/-- No stream within the limits that goes on from `buffer` has a cut hello at its front. -/
def Settled (limits : RelayLimits) (buffer : Bytes) : Prop :=
  ∀ more, (buffer ++ more).length ≤ limits.maxHelloBytes + limits.maxPendingBytes →
    ¬ CutHello ((buffer ++ more).take limits.maxHelloBytes)

/-- While the reader listens, what it has is shorter than the total it waits
for, and so is no cut hello; afterwards none can come. -/
structure RelayReader.Sound (limits : RelayLimits) (reader : RelayReader) (stream : Bytes) :
    Prop where
  listening : reader.status = .listening → reader.buffer = stream ∧
    stream.length < reader.nextParseAt ∧ ∀ more, (stream ++ more).length < reader.nextParseAt →
      ¬ CutHello ((stream ++ more).take limits.maxHelloBytes)
  stopped : reader.status ≠ .listening → Settled limits stream

theorem Settled.append {buffer : Bytes} (h : Settled limits buffer) (chunk : Bytes) :
    Settled limits (buffer ++ chunk) := by
  intro more hlength
  rw [append_assoc] at hlength ⊢
  exact h _ hlength

theorem RelayReader.Sound.not_cut {reader : RelayReader} {stream : Bytes}
    (h : reader.Sound limits stream)
    (hlength : stream.length ≤ limits.maxHelloBytes + limits.maxPendingBytes) :
    ¬ CutHello (stream.take limits.maxHelloBytes) := by
  by_cases hlistening : reader.status = .listening
  · obtain ⟨_, hshort, hquiet⟩ := h.listening hlistening
    simpa using hquiet [] (by simpa using hshort)
  · simpa using h.stopped hlistening [] (by simpa using hlength)

theorem relayParsed_sound {reader : RelayReader} {buffer : Bytes} {parsed : Parse Hello}
    (h : parseFirstTlsClientHelloFromTcpBuf (buffer.take limits.maxHelloBytes) = .ok parsed) :
    (relayParsed limits buffer reader parsed).Sound limits buffer := by
  have hsafe : ¬ CutHello (buffer.take limits.maxHelloBytes) :=
    (parseFirstTlsClientHelloFromTcpBuf_safe_iff _).mp ⟨parsed, h⟩
  have hfinal : (∀ n, parsed ≠ .needMore n) → Settled limits buffer := by
    intro hanswer more _
    rw [take_append]
    refine not_cut_of_final hsafe fun n hwait => ?_
    rw [parseFirstTlsClientHelloFromTcpBuf_wait.mpr hwait] at h
    exact hanswer n (Except.ok.inj h).symm
  cases parsed with
  | needMore minTotal =>
    obtain ⟨_, hwait⟩ := parseFirstTlsClientHelloFromTcpBuf_wait.mp h
    have hless := (assemble_wait hwait).1
    simp only [relayParsed]
    split
    case isTrue hlimit =>
      refine ⟨by simp, fun _ more _ => ?_⟩
      rw [take_append]
      rcases hlimit with htotal | hfull
      · apply not_cut_waiting hwait
        rw [← take_append, length_take]
        omega
      · rw [Nat.sub_eq_zero_of_le hfull, take_zero, append_nil]
        exact hsafe
    case isFalse hopen =>
      have hwhole : buffer.take limits.maxHelloBytes = buffer :=
        take_of_length_le (by omega)
      rw [hwhole] at hwait hless
      refine ⟨fun _ => ⟨rfl, by simpa using hless, fun more hmore => ?_⟩, by simp⟩
      have hshort : (buffer ++ more).length ≤ limits.maxHelloBytes := by
        simp only at hmore
        omega
      rw [take_of_length_le hshort]
      exact not_cut_waiting hwait hmore
  | error reason => exact ⟨by simp [relayParsed], fun _ => hfinal (by simp)⟩
  | ok hello =>
    refine ⟨?_, fun _ => hfinal (by simp)⟩
    simp only [relayParsed]
    split
    · simp
    split
    · simp
    · simp

theorem relayData_spec {reader : RelayReader} {stream : Bytes} (h : reader.Sound limits stream)
    (chunk : Bytes) :
    (∀ fault, relayData limits reader chunk = .error fault →
      (stream ++ chunk).length ≤ limits.maxHelloBytes + limits.maxPendingBytes ∧
        CutHello ((stream ++ chunk).take limits.maxHelloBytes)) ∧
    ∀ next, relayData limits reader chunk = .ok next → next.Sound limits (stream ++ chunk) := by
  by_cases hlistening : reader.status = .listening
  · obtain ⟨hbuffer, hshort, hquiet⟩ := h.listening hlistening
    simp only [relayData, hlistening, hbuffer]
    split
    case isTrue hover =>
      refine ⟨by simp, ?_⟩
      rintro _ ⟨⟩
      refine ⟨by simp, fun _ more hlength => ?_⟩
      rw [length_append] at hlength
      omega
    case isFalse hfits =>
      split
      case isTrue hearly =>
        refine ⟨by simp, ?_⟩
        rintro _ ⟨⟩
        refine ⟨fun _ => ⟨rfl, hearly, fun more hmore => ?_⟩, by simp⟩
        rw [append_assoc] at hmore ⊢
        exact hquiet _ hmore
      case isFalse =>
        cases hparsed : parseFirstTlsClientHelloFromTcpBuf
            ((stream ++ chunk).take limits.maxHelloBytes) with
        | error fault =>
          refine ⟨fun _ _ => ⟨Nat.not_lt.mp hfits, ?_⟩, by simp [Except.map]⟩
          by_contra hsafe
          obtain ⟨parsed, hok⟩ := (parseFirstTlsClientHelloFromTcpBuf_safe_iff _).mpr hsafe
          rw [hparsed] at hok
          simp at hok
        | ok parsed =>
          refine ⟨by simp [Except.map], ?_⟩
          rintro _ ⟨⟩
          exact relayParsed_sound hparsed
  · have hstays : relayData limits reader chunk = .ok reader := by
      cases hstatus : reader.status with
      | listening => exact absurd hstatus hlistening
      | failed error => simp [relayData, hstatus]
      | resolved hello => simp [relayData, hstatus]
    rw [hstays]
    refine ⟨by simp, ?_⟩
    rintro _ ⟨⟩
    exact ⟨fun h' => absurd h' hlistening, fun _ => (h.stopped hlistening).append chunk⟩

theorem relayRun_safe_iff (chunks : List Bytes) (reader : RelayReader) (stream : Bytes)
    (h : reader.Sound limits stream) :
    (∃ final, relayRun limits reader chunks = .ok final) ↔ ∀ first, first <+: chunks →
      (stream ++ first.flatten).length ≤ limits.maxHelloBytes + limits.maxPendingBytes →
        ¬ CutHello ((stream ++ first.flatten).take limits.maxHelloBytes) := by
  induction chunks generalizing reader stream with
  | nil =>
    simp only [relayRun, Except.ok.injEq, exists_eq', true_iff]
    intro first hfirst hlength
    rw [prefix_nil.mp hfirst] at hlength ⊢
    simpa using h.not_cut (by simpa using hlength)
  | cons chunk chunks ih =>
    obtain ⟨hthrown, hnext⟩ := relayData_spec h chunk
    rw [relayRun]
    cases hdata : relayData limits reader chunk with
    | error fault =>
      obtain ⟨hlength, hcut⟩ := hthrown fault hdata
      simp only [Except.bind, reduceCtorEq, exists_false, false_iff, not_forall, not_not]
      exact ⟨[chunk], ⟨chunks, rfl⟩, by simpa using hlength, by simpa using hcut⟩
    | ok next =>
      simp only [Except.bind]
      rw [ih next (stream ++ chunk) (hnext next hdata)]
      constructor
      · intro hrest first hfirst hlength
        rcases prefix_cons_iff.mp hfirst with rfl | ⟨rest, rfl, hprefix⟩
        · simpa using h.not_cut (by simpa using hlength)
        · simpa using hrest rest hprefix (by simpa using hlength)
      · intro hall rest hprefix hlength
        simpa using hall (chunk :: rest) (cons_prefix_cons.mpr ⟨rfl, hprefix⟩)
          (by simpa using hlength)

end Relay

theorem accepted_body {buf : Bytes} {hello : Hello}
    (h : parseFirstTlsClientHelloFromTcpBuf buf = .ok (.ok hello)) :
    ∃ start extBlock, extensionBlock hello.clientHelloBody = .ok (.ok (start, extBlock)) := by
  have hsize : buf.length ≤ maxClientBuf := by
    by_contra hlong
    simp [parseFirstTlsClientHelloFromTcpBuf, Nat.not_le.mp hlong] at h
  rw [parseFirstTlsClientHelloFromTcpBuf_eq hsize] at h
  cases hassembly : assemble 0 [] buf with
  | needMore minTotal => simp [hassembly, Assembly.finish] at h
  | error reason => simp [hassembly, Assembly.finish] at h
  | message body consumed =>
    rw [hassembly, Assembly.finish] at h
    rcases hread : readHello true body with fault | result
    · simp [hread, Except.map] at h
    rcases result with reason | extensions
    · simp [hread, Except.map] at h
    simp only [hread, Except.map, Except.ok.injEq, Parse.ok.injEq] at h
    subst h
    rw [readHello] at hread
    rcases hblock : extensionBlock body with fault | block
    · simp [hblock, Except.bind] at hread
    cases block with
    | error reason => simp [hblock, Except.bind] at hread
    | ok found => exact ⟨found.1, found.2, rfl⟩

/-- For every input: both parsers return a result unless the buffer is a cut
hello; the handlers of the exit, the multiplexer and the relay raise nothing,
in any chunking, unless the bytes that have arrived are one at some point; and
the walks over an accepted body read only what is there. -/
theorem tls_input_safe_iff (buf : Bytes) (chunks : List Bytes) (publicName : List Bytes → Bool)
    (limits : RelayLimits) :
    ((∃ parsed, parseFirstTlsClientHelloFromTcpBuf buf = .ok parsed) ↔ ¬ CutHello buf) ∧
    ((∃ parsed, parseFirstTlsClientHello buf = .ok parsed) ↔ ¬ CutHello buf) ∧
    ((∃ action, feed peekOnData [] chunks = .ok action) ↔
      ∀ first, first <+: chunks → ¬ CutHello first.flatten) ∧
    ((∃ action, feed (muxOnData publicName) [] chunks = .ok action) ↔
      ∀ first, first <+: chunks → ¬ CutHello first.flatten) ∧
    ((∃ reader, readRelayHello limits chunks = .ok reader) ↔
      ∀ first, first <+: chunks →
        first.flatten.length ≤ limits.maxHelloBytes + limits.maxPendingBytes →
          ¬ CutHello (first.flatten.take limits.maxHelloBytes)) ∧
    (∀ hello, parseFirstTlsClientHelloFromTcpBuf buf = .ok (.ok hello) →
      (∃ layout, findFirstSniLayoutInClientHelloBody hello.clientHelloBody = .ok layout) ∧
      ∃ blocked, clientHelloBlockedForEncSni hello.clientHelloBody = .ok blocked) := by
  refine ⟨parseFirstTlsClientHelloFromTcpBuf_safe_iff buf, parseFirstTlsClientHello_safe_iff buf,
    ?_, ?_, ?_, ?_⟩
  · simpa using feed_safe_iff peekOnData_throws peekOnData_decided chunks [] not_cut_nil
  · simpa using feed_safe_iff (muxOnData_throws publicName) (muxOnData_decided publicName) chunks []
      not_cut_nil
  · have hstart : RelayReader.Sound limits ⟨[], 5, .listening⟩ [] := by
      refine ⟨fun _ => ⟨rfl, by simp, fun more hmore => ?_⟩, by simp⟩
      intro hcut
      obtain ⟨_, body, consumed, hmessage, _⟩ := cutHello_iff.mp hcut
      rw [assemble_eq, frontRecord_short (by simp at hmore ⊢; omega)] at hmessage
      simp at hmessage
    simpa [readRelayHello] using relayRun_safe_iff chunks _ [] hstart
  · intro hello hparsed
    obtain ⟨start, extBlock, hblock⟩ := accepted_body hparsed
    refine ⟨findFirstSniLayoutInClientHelloBody_ok ?_, _,
      clientHelloBlockedForEncSni_accepted hblock⟩
    intro hcut
    rw [extensionBlock_cut hcut] at hblock
    simp at hblock

def cutHello : Bytes := [0x16, 3, 1, 0, 38, 1, 0, 0, 34, 3, 3] ++ List.replicate 32 0

/-- It raises in both parsers and in every handler. -/
theorem cutHello_throws :
    parseFirstTlsClientHelloFromTcpBuf cutHello = .error .range ∧
      parseFirstTlsClientHello cutHello = .error .range ∧
      feed peekOnData [] [cutHello] = .error .range := by
  decide

end Meshpn.Tls
