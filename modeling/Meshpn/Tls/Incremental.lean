import Meshpn.Tls.Peek

/-!
Answers of the parser on the beginnings of one stream. An answer other than
"need more" stands when more bytes arrive, and "need more" stands until the
announced total is there; so what the handlers decide is decided by the stream
and not by how it was cut into chunks.
-/

namespace Meshpn.Tls

open Meshpn.Lib List
open Meshpn.Lib.Bytes

theorem assemble_stable {buf more : Bytes} {α : Type}
    {read : Bytes → Except Fault (Except Reason Extensions)}
    {result : Extensions → Nat → Bytes → α}
    (h : ∀ n, (assemble 0 [] buf).finish read result ≠ .ok (.needMore n)) :
    (assemble 0 [] (buf ++ more)).finish read result =
      (assemble 0 [] buf).finish read result := by
  rw [assemble_append more fun n hn => h n (finish_needMore_iff.mpr hn)]

theorem parseFirstTlsClientHelloFromTcpBuf_stable {buf more : Bytes}
    (hsize : (buf ++ more).length ≤ maxClientBuf)
    (h : ∀ n, parseFirstTlsClientHelloFromTcpBuf buf ≠ .ok (.needMore n)) :
    parseFirstTlsClientHelloFromTcpBuf (buf ++ more) = parseFirstTlsClientHelloFromTcpBuf buf := by
  have hbuf : buf.length ≤ maxClientBuf := by
    rw [length_append] at hsize
    omega
  rw [parseFirstTlsClientHelloFromTcpBuf_eq hbuf] at h ⊢
  rw [parseFirstTlsClientHelloFromTcpBuf_eq hsize, assemble_stable h]

theorem parseFirstTlsClientHello_stable {buf more : Bytes}
    (hsize : (buf ++ more).length ≤ maxClientBuf)
    (h : ∀ n, parseFirstTlsClientHello buf ≠ .ok (.needMore n)) :
    parseFirstTlsClientHello (buf ++ more) = parseFirstTlsClientHello buf := by
  have hbuf : buf.length ≤ maxClientBuf := by
    rw [length_append] at hsize
    omega
  rw [parseFirstTlsClientHello_eq hbuf] at h ⊢
  rw [parseFirstTlsClientHello_eq hsize, assemble_stable h]

theorem take_append_take {stream : Bytes} {n m : Nat} (h : n ≤ m) :
    ∃ more, stream.take m = stream.take n ++ more := by
  have hfront : stream.take n = (stream.take m).take n := by
    rw [take_take, Nat.min_eq_left h]
  exact ⟨(stream.take m).drop n, by rw [hfront, take_append_drop]⟩

/-- On the beginnings of one stream: a final answer stands, and "need more" is the answer to every
beginning that is shorter than the announced total. -/
theorem parse_beginnings {stream : Bytes} (hsize : stream.length ≤ maxClientBuf) :
    (∀ n m result, n ≤ m → (∀ k, result ≠ .needMore k) →
      parseFirstTlsClientHelloFromTcpBuf (stream.take n) = .ok result →
      parseFirstTlsClientHelloFromTcpBuf (stream.take m) = .ok result) ∧
    ∀ n minTotal, n ≤ stream.length →
      parseFirstTlsClientHelloFromTcpBuf (stream.take n) = .ok (.needMore minTotal) →
      n < minTotal ∧ ∀ k < minTotal, ∃ total,
        parseFirstTlsClientHelloFromTcpBuf (stream.take k) = .ok (.needMore total) := by
  have hfits : ∀ n, (stream.take n).length ≤ maxClientBuf := fun n =>
    (length_take_le' n stream).trans hsize
  constructor
  · intro n m result hle hfinal hresult
    obtain ⟨more, hmore⟩ := @take_append_take stream n m hle
    have hlater := hfits m
    rw [hmore] at hlater ⊢
    rw [parseFirstTlsClientHelloFromTcpBuf_stable hlater, hresult]
    intro k hk
    rw [hresult] at hk
    exact hfinal k (Except.ok.inj hk)
  · intro n minTotal hn hresult
    obtain ⟨_, hwait⟩ := parseFirstTlsClientHelloFromTcpBuf_wait.mp hresult
    obtain ⟨hless, hstill⟩ := assemble_wait hwait
    have hlength : (stream.take n).length = n := by
      rw [length_take]
      omega
    refine ⟨by omega, fun k hk => ?_⟩
    rcases Nat.le_total n k with hlater | hearlier
    · obtain ⟨more, hmore⟩ := @take_append_take stream n k hlater
      refine ⟨minTotal, parseFirstTlsClientHelloFromTcpBuf_wait.mpr ⟨hfits k, ?_⟩⟩
      have hshort := length_take_le k stream
      rw [hmore] at hshort ⊢
      exact hstill more (by omega)
    · -- a final answer would have stood
      by_contra hnot
      push Not at hnot
      obtain ⟨more, hmore⟩ := @take_append_take stream k n hearlier
      have hlater := hfits n
      rw [hmore] at hlater hresult
      rw [parseFirstTlsClientHelloFromTcpBuf_stable hlater hnot] at hresult
      exact hnot minTotal hresult

theorem assemble_front {offset : Nat} {content rest body : Bytes} {consumed : Nat}
    (h : assemble offset content rest = .message body consumed) :
    offset ≤ consumed ∧ consumed ≤ offset + rest.length ∧
      assemble offset content (rest.take (consumed - offset)) = .message body consumed := by
  fun_induction assemble offset content rest with
  | case1 => cases h
  | case2 => cases h
  | case3 offset content rest payload recordEnd hrecord hnone ih =>
    obtain ⟨v1, v0, l1, l0, left, rfl, hsize, hnonempty, hend, hlimit⟩ := frontRecord_ok hrecord
    have hdrop : (0x16 :: v1 :: v0 :: l1 :: l0 :: (payload ++ left)).drop (5 + payload.length) =
        left := by
      rw [Nat.add_comm]
      simp
    rw [hdrop] at ih h
    obtain ⟨hstart, hinside, hfront⟩ := ih h
    simp only [length_cons, length_append]
    refine ⟨by omega, by omega, ?_⟩
    let r : HandshakeRecord := ⟨v1, v0, l1, l0, payload, hsize, hnonempty⟩
    have htake : (r.wire ++ left).take (consumed - offset) =
        r.wire ++ left.take (consumed - recordEnd) := by
      have hwire : r.wire.length = 5 + payload.length := by
        simp only [r, HandshakeRecord.wire, length_cons]
        omega
      rw [take_append, take_of_length_le (by omega), hwire]
      congr 2
      omega
    change assemble offset content ((r.wire ++ left).take (consumed - offset)) = _
    rw [htake, assemble_eq, frontRecord_wire r _ (by simp only [r]; omega)]
    have hleft : (r.wire ++ left.take (consumed - recordEnd)).drop (5 + payload.length) =
        left.take (consumed - recordEnd) := by
      rw [Nat.add_comm]
      simp [r, HandshakeRecord.wire]
    simp only [r, hnone] at hleft ⊢
    rw [hleft, ← hend]
    exact hfront
  | case4 => cases h
  | case5 offset content rest payload recordEnd hrecord found hmessage =>
    obtain ⟨v1, v0, l1, l0, left, rfl, hsize, hnonempty, hend, hlimit⟩ := frontRecord_ok hrecord
    simp only [Assembly.message.injEq] at h
    obtain ⟨rfl, rfl⟩ := h
    simp only [length_cons, length_append]
    refine ⟨by omega, by omega, ?_⟩
    let r : HandshakeRecord := ⟨v1, v0, l1, l0, payload, hsize, hnonempty⟩
    have htake : (r.wire ++ left).take (recordEnd - offset) = r.wire ++ [] := by
      have hwire : r.wire.length = recordEnd - offset := by
        simp only [r, HandshakeRecord.wire, length_cons]
        omega
      rw [← hwire, take_left, append_nil]
    change assemble offset content ((r.wire ++ left).take (recordEnd - offset)) = _
    rw [htake, assemble_eq, frontRecord_wire r _ (by simp only [r]; omega)]
    simp only [r, hmessage, hend]

theorem parse_front {buf : Bytes} {hello : Hello}
    (h : parseFirstTlsClientHelloFromTcpBuf buf = .ok (.ok hello)) :
    buf.length ≤ maxClientBuf ∧ hello.bytesConsumed ≤ buf.length ∧
      parseFirstTlsClientHelloFromTcpBuf (buf.take hello.bytesConsumed) = .ok (.ok hello) := by
  by_cases hsize : buf.length ≤ maxClientBuf
  · have hfits := (length_take_le' hello.bytesConsumed buf).trans hsize
    rw [parseFirstTlsClientHelloFromTcpBuf_eq hfits]
    rw [parseFirstTlsClientHelloFromTcpBuf_eq hsize] at h
    cases hassembled : assemble 0 [] buf with
    | needMore minTotal =>
      rw [hassembled] at h
      cases h
    | error reason =>
      rw [hassembled] at h
      cases h
    | message body consumed =>
      obtain ⟨-, hinside, hfront⟩ := assemble_front hassembled
      rw [hassembled] at h
      have hconsumed : hello.bytesConsumed = consumed := by
        simp only [Assembly.finish] at h
        cases hread : readHello true body with
        | error fault =>
          rw [hread] at h
          cases h
        | ok ext =>
          rw [hread] at h
          cases ext with
          | error reason => cases h
          | ok extensions =>
            cases h
            rfl
      rw [Nat.sub_zero] at hfront
      rw [hconsumed, hfront]
      exact ⟨hsize, by omega, h⟩
  · rw [parseFirstTlsClientHelloFromTcpBuf, if_pos (Nat.not_le.mp hsize)] at h
    cases h

/-- Before the end of its hello a stream is waited for, and for no more than the hello. -/
theorem parse_before {stream : Bytes} {hello : Hello} {n : Nat}
    (h : parseFirstTlsClientHelloFromTcpBuf stream = .ok (.ok hello))
    (hn : n < hello.bytesConsumed) :
    ∃ minTotal, parseFirstTlsClientHelloFromTcpBuf (stream.take n) = .ok (.needMore minTotal) ∧
      n < minTotal ∧ minTotal ≤ hello.bytesConsumed := by
  obtain ⟨hsize, hinside, hfront⟩ := parse_front h
  obtain ⟨-, hwait⟩ := parse_beginnings hsize
  by_cases hneed : ∃ k, parseFirstTlsClientHelloFromTcpBuf (stream.take n) = .ok (.needMore k)
  · obtain ⟨minTotal, hminTotal⟩ := hneed
    obtain ⟨hless, hstill⟩ := hwait n minTotal (by omega) hminTotal
    refine ⟨minTotal, hminTotal, hless, ?_⟩
    by_contra hover
    obtain ⟨total, htotal⟩ := hstill hello.bytesConsumed (by omega)
    rw [hfront] at htotal
    cases htotal
  · -- a final answer would be that on the whole stream
    have hstable := @parseFirstTlsClientHelloFromTcpBuf_stable (stream.take n) (stream.drop n)
    rw [take_append_drop] at hstable
    have hsame := hstable hsize fun k hk => hneed ⟨k, hk⟩
    rw [h] at hsame
    have hearly := (parse_front hsame.symm).2.1
    rw [length_take] at hearly
    omega

theorem parse_after {stream : Bytes} {hello : Hello} {n m : Nat}
    (h : parseFirstTlsClientHelloFromTcpBuf (stream.take m) = .ok (.ok hello))
    (hn : hello.bytesConsumed ≤ n) (hlimit : n ≤ maxClientBuf) :
    parseFirstTlsClientHelloFromTcpBuf (stream.take n) = .ok (.ok hello) := by
  obtain ⟨-, hinside, hfront⟩ := parse_front h
  have hbegin : (stream.take m).take hello.bytesConsumed = stream.take hello.bytesConsumed := by
    rw [take_take, Nat.min_eq_left (hinside.trans (length_take_le m stream))]
  rw [hbegin] at hfront
  obtain ⟨more, hmore⟩ := @take_append_take stream hello.bytesConsumed n hn
  have hfits := (length_take_le n stream).trans hlimit
  rw [hmore] at hfits ⊢
  rw [parseFirstTlsClientHelloFromTcpBuf_stable hfits, hfront]
  rw [hfront]
  exact fun k hk => by cases hk

theorem feed_eq {α : Type} {handler : Bytes → Except Fault (Option α)}
    (hstable : ∀ buf more, (buf ++ more).length ≤ maxClientBuf → handler buf ≠ .ok none →
      handler (buf ++ more) = handler buf)
    (chunks : List Bytes) (arrived : Bytes) (harrived : handler arrived = .ok none)
    (hsize : (arrived ++ chunks.flatten).length ≤ maxClientBuf) :
    feed handler arrived chunks = handler (arrived ++ chunks.flatten) := by
  induction chunks generalizing arrived with
  | nil => rw [feed, flatten_nil, append_nil, harrived]
  | cons chunk chunks ih =>
    rw [flatten_cons, ← append_assoc] at hsize ⊢
    have hwhole := hstable (arrived ++ chunk) chunks.flatten hsize
    rw [feed]
    cases hhandled : handler (arrived ++ chunk) with
    | error fault =>
      rw [hwhole (by simp [hhandled]), hhandled]
      rfl
    | ok action =>
      cases action with
      | none => exact ih (arrived ++ chunk) hhandled hsize
      | some action =>
        rw [hwhole (by simp [hhandled]), hhandled]
        rfl

theorem peekOnData_stable (buf more : Bytes) (hsize : (buf ++ more).length ≤ maxClientBuf)
    (h : peekOnData buf ≠ .ok none) : peekOnData (buf ++ more) = peekOnData buf := by
  have hbuf : buf.length ≤ maxClientBuf := by
    rw [length_append] at hsize
    omega
  rcases buf with _ | ⟨byte, rest⟩
  · exact absurd rfl h
  have hfirst : index (byte :: rest ++ more) (.int 0) = index (byte :: rest) (.int 0) := rfl
  have hnonempty : ¬(byte :: rest ++ more).length < 1 := by simp
  have hnonempty' : ¬(byte :: rest).length < 1 := by simp
  unfold peekOnData at h ⊢
  rw [if_neg hnonempty'] at h
  rw [if_neg hnonempty, if_neg hnonempty', hfirst]
  split
  case isTrue => rfl
  rename_i htls
  rw [if_neg htls] at h
  rw [parseFirstTlsClientHelloFromTcpBuf_stable hsize]
  · cases parseFirstTlsClientHelloFromTcpBuf (byte :: rest) with
    | error fault => rfl
    | ok parsed =>
      cases parsed with
      | needMore n =>
        simp only [Except.map, if_neg (Nat.not_lt.mpr hsize), if_neg (Nat.not_lt.mpr hbuf)]
      | error reason => rfl
      | ok hello => rfl
  · intro n hn
    rw [hn] at h
    exact h (by simp only [Except.map, if_neg (Nat.not_lt.mpr hbuf)])

theorem muxOnData_stable (publicName : List Bytes → Bool) (buf more : Bytes)
    (hsize : (buf ++ more).length ≤ maxClientBuf) (h : muxOnData publicName buf ≠ .ok none) :
    muxOnData publicName (buf ++ more) = muxOnData publicName buf := by
  unfold muxOnData at h ⊢
  rw [parseFirstTlsClientHello_stable hsize]
  intro n hn
  rw [hn] at h
  exact h rfl

section Relay

variable {limits : RelayLimits}

/-- The hello that the reader has resolved to is the one of the stream. -/
def RelayReader.Reads (limits : RelayLimits) (reader : RelayReader) (stream : Bytes) : Prop :=
  (reader.status = .listening → reader.buffer = stream) ∧
    ∀ hello, reader.status = .resolved hello →
      parseFirstTlsClientHelloFromTcpBuf (stream.take limits.maxHelloBytes) = .ok (.ok hello)

theorem relayParsed_reads {reader : RelayReader} {buffer : Bytes} {parsed : Parse Hello}
    (h : parseFirstTlsClientHelloFromTcpBuf (buffer.take limits.maxHelloBytes) = .ok parsed) :
    (relayParsed limits buffer reader parsed).Reads limits buffer := by
  cases parsed with
  | needMore minTotal =>
    simp only [relayParsed]
    split
    · exact ⟨by simp, by simp⟩
    · exact ⟨fun _ => rfl, by simp⟩
  | error reason => exact ⟨by simp [relayParsed], by simp [relayParsed]⟩
  | ok hello =>
    simp only [relayParsed]
    split
    · exact ⟨by simp, by simp⟩
    split
    · exact ⟨by simp, by simp⟩
    · refine ⟨by simp, fun other hother => ?_⟩
      simp only [RelayStatus.resolved.injEq] at hother
      rw [h, hother]

theorem relayData_reads {reader next : RelayReader} {stream chunk : Bytes}
    (h : reader.Reads limits stream) (hdata : relayData limits reader chunk = .ok next) :
    next.Reads limits (stream ++ chunk) := by
  unfold relayData at hdata
  split at hdata
  case h_1 error hstatus =>
    cases hdata
    exact ⟨by simp [hstatus], by simp [hstatus]⟩
  case h_2 hello hstatus =>
    cases hdata
    refine ⟨by simp [hstatus], fun other hother => ?_⟩
    have hparsed := h.2 other hother
    rw [take_append, parseFirstTlsClientHelloFromTcpBuf_stable, hparsed]
    · rw [← take_append]
      exact (length_take_le _ _).trans limits.parsable
    · simp [hparsed]
  case h_3 hstatus =>
    dsimp only at hdata
    rw [h.1 hstatus] at hdata
    split at hdata
    · cases hdata
      exact ⟨by simp, by simp⟩
    split at hdata
    · cases hdata
      exact ⟨fun _ => rfl, by simp [hstatus]⟩
    · cases hparsed : parseFirstTlsClientHelloFromTcpBuf
          ((stream ++ chunk).take limits.maxHelloBytes) with
      | error fault =>
        rw [hparsed] at hdata
        cases hdata
      | ok parsed =>
        rw [hparsed] at hdata
        cases hdata
        exact relayParsed_reads hparsed

theorem relayRun_reads {reader final : RelayReader} {stream : Bytes} {chunks : List Bytes}
    (h : reader.Reads limits stream) (hrun : relayRun limits reader chunks = .ok final) :
    final.Reads limits (stream ++ chunks.flatten) := by
  induction chunks generalizing reader stream with
  | nil =>
    cases hrun
    simpa using h
  | cons chunk chunks ih =>
    rw [relayRun] at hrun
    cases hdata : relayData limits reader chunk with
    | error fault =>
      rw [hdata] at hrun
      cases hrun
    | ok next =>
      rw [hdata] at hrun
      rw [flatten_cons, ← append_assoc]
      exact ih (relayData_reads h hdata) hrun

end Relay

/-- The parser on the beginnings of a stream, and what the handlers make of it: the exit's and the
multiplexer's decision is the one on the whole stream, in whatever chunks it came, and the relay
resolves to no other hello than the stream's. -/
theorem incremental_hello (stream : Bytes) (hsize : stream.length ≤ maxClientBuf) :
    (∀ n m result, n ≤ m → (∀ k, result ≠ .needMore k) →
      parseFirstTlsClientHelloFromTcpBuf (stream.take n) = .ok result →
      parseFirstTlsClientHelloFromTcpBuf (stream.take m) = .ok result) ∧
    (∀ n minTotal, n ≤ stream.length →
      parseFirstTlsClientHelloFromTcpBuf (stream.take n) = .ok (.needMore minTotal) →
      n < minTotal ∧ ∀ k < minTotal, ∃ total,
        parseFirstTlsClientHelloFromTcpBuf (stream.take k) = .ok (.needMore total)) ∧
    ∀ chunks : List Bytes, chunks.flatten = stream →
      feed peekOnData [] chunks = peekOnData stream ∧
      (∀ publicName, feed (muxOnData publicName) [] chunks = muxOnData publicName stream) ∧
      ∀ limits reader hello, readRelayHello limits chunks = .ok reader →
        reader.status = .resolved hello →
        parseFirstTlsClientHelloFromTcpBuf (stream.take limits.maxHelloBytes) =
          .ok (.ok hello) := by
  obtain ⟨hfinal, hwait⟩ := parse_beginnings hsize
  refine ⟨hfinal, hwait, ?_⟩
  rintro chunks rfl
  refine ⟨?_, fun publicName => ?_, fun limits reader hello hread hstatus => ?_⟩
  · exact feed_eq peekOnData_stable chunks [] rfl hsize
  · have hempty : muxOnData publicName [] = .ok none := by
      rw [muxOnData, parseFirstTlsClientHello_eq (Nat.zero_le _), assemble_eq,
        frontRecord_short (by simp)]
      rfl
    exact feed_eq (muxOnData_stable publicName) chunks [] hempty hsize
  · have hreads : (⟨[], 5, .listening⟩ : RelayReader).Reads limits [] := ⟨fun _ => rfl, by simp⟩
    exact (relayRun_reads hreads hread).2 hello hstatus

/-- A record that announces a message of two bytes, without the last of them. -/
theorem announced_total :
    ∃ total, parseFirstTlsClientHelloFromTcpBuf
      (([0x16, 3, 1, 0, 6, 1, 0, 0, 2, 3, 3] : Bytes).take 10) = .ok (.needMore total) := by
  obtain ⟨_, hwait, _⟩ := incremental_hello [0x16, 3, 1, 0, 6, 1, 0, 0, 2, 3, 3] (by decide)
  exact (hwait 5 11 (by decide) (by decide)).2 10 (by decide)

end Meshpn.Tls
