import Meshpn.Tls.Assembly

/-!
Which buffers make the parsers throw, in terms of the wire format: those that
begin with handshake records holding a ClientHello of exactly 34 bytes. And
how a parser's answer changes as more bytes arrive: an answer other than "need
more" stands, and "need more" stands until the announced total is there.

The third copy of the loop over the records, `extractFirstClientHelloBodyFromTcpMux`
of `tls-clienthello-ja3.mjs`, and what the three copies have in common. They put
the same message together; only their readers of the body differ, and where the
strict one of the library accepts, the other one has found the same.
-/

open List

namespace Meshpn.Tls

open Meshpn.Lib
open Meshpn.Lib.Bytes

/-- A handshake record with its fields on the wire. -/
structure HandshakeRecord where
  versionHigh : UInt8
  versionLow : UInt8
  lengthHigh : UInt8
  lengthLow : UInt8
  payload : Bytes
  size : payload.length = toUInt16 lengthHigh lengthLow
  nonempty : 1 ≤ payload.length

def HandshakeRecord.wire (r : HandshakeRecord) : Bytes :=
  0x16 :: r.versionHigh :: r.versionLow :: r.lengthHigh :: r.lengthLow :: r.payload

/-- The buffer begins with records whose content begins with a ClientHello
that declares, and has, a body of 34 bytes. -/
def CutHello (buf : Bytes) : Prop :=
  buf.length ≤ maxClientBuf ∧ ∃ (records : List HandshakeRecord) (tail body more : Bytes),
    buf = records.flatMap HandshakeRecord.wire ++ tail ∧
    records.flatMap HandshakeRecord.payload = [1, 0, 0, 34] ++ body ++ more ∧ body.length = 34

theorem frontRecord_wire (r : HandshakeRecord) {offset : Nat} (rest : Bytes)
    (h : offset + 5 + r.payload.length ≤ maxClientBuf) :
    frontRecord offset (r.wire ++ rest) = .ok (r.payload, offset + 5 + r.payload.length) := by
  have hnonempty := r.nonempty
  have hlength : (r.payload ++ rest).length = r.payload.length + rest.length :=
    length_append
  have hsize : ¬ (r.payload.length < 1 ∨ maxClientBuf < offset + 5 + r.payload.length) := by
    omega
  have hwhole : ¬ (r.payload ++ rest).length < r.payload.length := by omega
  simp only [HandshakeRecord.wire, cons_append, frontRecord, ← r.size, ne_eq,
    not_true_eq_false, if_false, hsize, hwhole, take_left]

def message (body : Bytes) : Bytes :=
  1 :: UInt8.ofNat (body.length / 65536) :: (ofUInt16 (body.length % 65536) ++ body)

theorem message_length (body : Bytes) : (message body).length = 4 + body.length := by
  simp only [message, length_cons, length_append, ofUInt16_length]
  omega

theorem header_length {length : Nat} (h : length < 16777216) :
    65536 * (UInt8.ofNat (length / 65536)).toNat +
      toUInt16 (UInt8.ofNat (length % 65536 / 256)) (UInt8.ofNat (length % 65536 % 256)) =
        length := by
  rw [toNat_ofNat (by omega), toUInt16_ofNat (by omega)]
  omega

theorem handshake_message {body more : Bytes} (h : body.length < 16777216) :
    handshake (message body ++ more) = some (.ok body) := by
  have hlength : ¬ (body ++ more).length < body.length := by
    rw [length_append]
    omega
  simp only [message, ofUInt16, cons_append, nil_append, handshake, ne_eq,
    not_true_eq_false, if_false, header_length h, hlength, take_left]

theorem handshake_incomplete {content rest body more : Bytes} (hbody : body.length < 16777216)
    (h : content ++ rest = message body ++ more) (hshort : content.length < 4 + body.length) :
    handshake content = none := by
  rcases content with _ | ⟨k, _ | ⟨l2, _ | ⟨l1, _ | ⟨l0, left⟩⟩⟩⟩
  case cons.cons.cons.cons =>
    simp only [message, ofUInt16, cons_append, nil_append, List.cons.injEq] at h
    obtain ⟨rfl, rfl, rfl, rfl, _⟩ := h
    have hlength : left.length < body.length := by
      simp only [length_cons] at hshort
      omega
    simp only [handshake, ne_eq, not_true_eq_false, if_false, header_length hbody, hlength,
      if_true]
  all_goals rfl

theorem handshake_message_inv {content body : Bytes} (h : handshake content = some (.ok body)) :
    body.length < 16777216 ∧ ∃ more, content = message body ++ more := by
  rcases content with _ | ⟨k, _ | ⟨l2, _ | ⟨l1, _ | ⟨l0, left⟩⟩⟩⟩
  case cons.cons.cons.cons =>
    simp only [handshake] at h
    split at h
    case isTrue => simp at h
    rename_i hkind
    split at h
    case isTrue => simp at h
    rename_i hlength
    simp only [Option.some.injEq, Except.ok.injEq] at h
    have htotal : body.length = 65536 * l2.toNat + toUInt16 l1 l0 := by
      rw [← h, length_take]
      omega
    have hhigh := l2.toNat_lt
    have hlow := toUInt16_lt l1 l0
    have h2 : UInt8.ofNat (body.length / 65536) = l2 := by
      rw [show body.length / 65536 = l2.toNat by omega, UInt8.ofNat_toNat]
    have h1 : ofUInt16 (body.length % 65536) = [l1, l0] := by
      rw [show body.length % 65536 = toUInt16 l1 l0 by omega, ofUInt16_toUInt16]
    refine ⟨by omega, left.drop body.length, ?_⟩
    rw [message, h2, h1, not_not.mp hkind]
    conv_lhs => rw [← take_append_drop body.length left, htotal, h]
    simp [htotal]
  all_goals simp [handshake] at h

/-- The message found is the content of the records read, and the last of them was needed. -/
theorem assemble_message {offset : Nat} {content rest body : Bytes} {consumed : Nat}
    (hcontent : handshake content = none)
    (h : assemble offset content rest = .message body consumed) :
    ∃ (records : List HandshakeRecord) (tail : Bytes), records ≠ [] ∧
      rest = records.flatMap HandshakeRecord.wire ++ tail ∧
      consumed = offset + (records.flatMap HandshakeRecord.wire).length ∧
      consumed ≤ maxClientBuf ∧
      handshake (content ++ records.flatMap HandshakeRecord.payload) = some (.ok body) ∧
      handshake (content ++ records.dropLast.flatMap HandshakeRecord.payload) = none := by
  fun_induction assemble offset content rest with
  | case1 => simp at h
  | case2 => simp at h
  | case3 offset content rest payload recordEnd hrecord hnone ih =>
    obtain ⟨v1, v0, l1, l0, left, hrest, hsize, hnonempty, hend, _⟩ := frontRecord_ok hrecord
    obtain ⟨records, tail, hne, hleft, hconsumed, hlimit, hmessage, hlast⟩ := ih hnone h
    have hdrop : rest.drop (5 + payload.length) = left := by
      rw [hrest, Nat.add_comm]
      simp
    rw [hdrop] at hleft
    refine ⟨⟨v1, v0, l1, l0, payload, hsize, hnonempty⟩ :: records, tail, cons_ne_nil _ _,
      ?_, ?_, hlimit, ?_, ?_⟩
    · rw [hrest, hleft]
      simp [HandshakeRecord.wire]
    · rw [hconsumed, hend]
      simp only [flatMap_cons, length_append, HandshakeRecord.wire, length_cons]
      omega
    · simpa using hmessage
    · rw [dropLast_cons_of_ne_nil hne]
      simpa using hlast
  | case4 => simp at h
  | case5 offset content rest payload recordEnd hrecord found hmessage =>
    obtain ⟨v1, v0, l1, l0, left, hrest, hsize, hnonempty, hend, hlimit⟩ := frontRecord_ok hrecord
    simp only [Assembly.message.injEq] at h
    obtain ⟨rfl, rfl⟩ := h
    refine ⟨[⟨v1, v0, l1, l0, payload, hsize, hnonempty⟩], left, cons_ne_nil _ _, ?_, ?_,
      hlimit, ?_, ?_⟩
    · rw [hrest]
      simp [HandshakeRecord.wire]
    · rw [hend]
      simp only [flatMap_cons, flatMap_nil, append_nil, HandshakeRecord.wire,
        length_cons]
      omega
    · simpa using hmessage
    · simpa using hcontent

theorem assemble_records {body more tail : Bytes} (hbody : body.length < 16777216)
    (records : List HandshakeRecord) (offset : Nat) (content : Bytes)
    (hsize : offset + (records.flatMap HandshakeRecord.wire).length ≤ maxClientBuf)
    (hcontent : content ++ records.flatMap HandshakeRecord.payload = message body ++ more)
    (hshort : content.length < 4 + body.length) :
    ∃ first last, records = first ++ last ∧
      4 + body.length ≤ (content ++ first.flatMap HandshakeRecord.payload).length ∧
      assemble offset content (records.flatMap HandshakeRecord.wire ++ tail) =
        .message body (offset + (first.flatMap HandshakeRecord.wire).length) := by
  induction records generalizing offset content with
  | nil =>
    have hlength := congrArg List.length hcontent
    simp only [flatMap_nil, append_nil, length_append, message_length] at hlength
    omega
  | cons r records ih =>
    simp only [flatMap_cons, length_append] at hsize
    have hwire : r.wire.length = 5 + r.payload.length := by
      simp only [HandshakeRecord.wire, length_cons]
      omega
    have hrecord := frontRecord_wire r (records.flatMap HandshakeRecord.wire ++ tail)
      (show offset + 5 + r.payload.length ≤ maxClientBuf by omega)
    rw [flatMap_cons, ← append_assoc] at hcontent
    rw [flatMap_cons, append_assoc, assemble_eq, hrecord]
    simp only
    by_cases henough : (content ++ r.payload).length < 4 + body.length
    · rw [handshake_incomplete hbody hcontent henough, ← hwire, drop_left]
      obtain ⟨first, last, rfl, hlong, hmessage⟩ :=
        ih (offset + 5 + r.payload.length) (content ++ r.payload) (by omega) hcontent henough
      refine ⟨r :: first, last, rfl, by simpa using hlong, ?_⟩
      simp only
      rw [hmessage, flatMap_cons, length_append, hwire]
      congr 1
      omega
    · have hfront : (content ++ r.payload).take (4 + body.length) = message body := by
        have htake := congrArg (List.take (4 + body.length)) hcontent
        rwa [take_append_of_le_length (by omega), take_left' (message_length body)]
          at htake
      have hwhole : content ++ r.payload =
          message body ++ (content ++ r.payload).drop (4 + body.length) := by
        rw [← hfront, take_append_drop]
      refine ⟨[r], records, rfl, by simpa using henough, ?_⟩
      rw [hwhole, handshake_message hbody, flatMap_cons, flatMap_nil, append_nil,
        hwire]
      simp only [Nat.add_assoc]

theorem message_cut {body : Bytes} (h : body.length = 34) :
    message body = [1, 0, 0, 34] ++ body := by
  rw [message, h]
  rfl

variable {minTotal : Nat} {buf : Bytes}

theorem cutHello_iff :
    CutHello buf ↔ buf.length ≤ maxClientBuf ∧
      ∃ body consumed, assemble 0 [] buf = .message body consumed ∧ body.length = 34 := by
  constructor
  · rintro ⟨hsize, records, tail, body, more, rfl, hcontent, hbody⟩
    rw [length_append] at hsize
    rw [← message_cut hbody] at hcontent
    obtain ⟨_, _, _, _, hmessage⟩ := @assemble_records body more tail (by omega) records 0 []
      (by omega) hcontent (by simp)
    exact ⟨by rwa [length_append], body, _, hmessage, hbody⟩
  · rintro ⟨hsize, body, consumed, hmessage, hbody⟩
    obtain ⟨records, tail, _, hbuf, _, _, hfound, _⟩ := assemble_message rfl hmessage
    rw [nil_append] at hfound
    obtain ⟨_, more, hcontent⟩ := handshake_message_inv hfound
    rw [message_cut hbody] at hcontent
    exact ⟨hsize, records, tail, body, more, hbuf, hcontent, hbody⟩

theorem finish_safe_iff {α : Type} (strict : Bool) (result : Extensions → Nat → Bytes → α)
    (assembly : Assembly) :
    (∃ parsed, assembly.finish (readHello strict) result = .ok parsed) ↔
      ¬ ∃ body consumed, assembly = .message body consumed ∧ body.length = 34 := by
  cases assembly with
  | needMore minTotal => simp [Assembly.finish]
  | error reason => simp [Assembly.finish]
  | message body consumed =>
    by_cases hcut : body.length = 34
    · simp [Assembly.finish, readHello_cut strict hcut, hcut, Except.map]
    · obtain ⟨extensions, hread⟩ := readHello_ok strict hcut
      simp [Assembly.finish, hread, hcut, Except.map]

theorem parseFirstTlsClientHelloFromTcpBuf_safe_iff (buf : Bytes) :
    (∃ parsed, parseFirstTlsClientHelloFromTcpBuf buf = .ok parsed) ↔ ¬ CutHello buf := by
  by_cases hsize : buf.length ≤ maxClientBuf
  · rw [parseFirstTlsClientHelloFromTcpBuf_eq hsize, finish_safe_iff, cutHello_iff]
    simp [hsize]
  · rw [cutHello_iff, parseFirstTlsClientHelloFromTcpBuf, if_pos (Nat.not_le.mp hsize)]
    simp [hsize]

theorem parseFirstTlsClientHello_safe_iff (buf : Bytes) :
    (∃ parsed, parseFirstTlsClientHello buf = .ok parsed) ↔ ¬ CutHello buf := by
  by_cases hsize : buf.length ≤ maxClientBuf
  · rw [parseFirstTlsClientHello_eq hsize, finish_safe_iff, cutHello_iff]
    simp [hsize]
  · rw [cutHello_iff, parseFirstTlsClientHello, if_pos (Nat.not_le.mp hsize)]
    simp [hsize]

section More

variable {offset : Nat} {content rest : Bytes}

theorem frontRecord_append (more : Bytes) (h : ∀ n, frontRecord offset rest ≠ .needMore n) :
    frontRecord offset (rest ++ more) = frontRecord offset rest := by
  rcases five_or_short rest with ⟨kind, v1, v0, l1, l0, tail, rfl⟩ | hshort
  case inl =>
    by_cases hwhole : tail.length < toUInt16 l1 l0
    · simp only [cons_append, frontRecord, hwhole, if_true] at h ⊢
      split
      case isTrue => rfl
      rename_i hkind
      split
      case isTrue => rfl
      rename_i hsize
      rw [if_neg hkind, if_neg hsize] at h
      exact absurd rfl (h _)
    · have hlonger : ¬ (tail ++ more).length < toUInt16 l1 l0 := by
        rw [length_append]
        omega
      simp only [cons_append, frontRecord, hwhole, hlonger, if_false,
        take_append_of_le_length (Nat.not_lt.mp hwhole)]
  case inr => exact absurd (frontRecord_short hshort) (h _)

theorem frontRecord_wait {minTotal : Nat} (h : frontRecord offset rest = .needMore minTotal) :
    offset + rest.length < minTotal ∧ ∀ more, offset + (rest ++ more).length < minTotal →
      frontRecord offset (rest ++ more) = .needMore minTotal := by
  rcases five_or_short rest with ⟨kind, v1, v0, l1, l0, tail, rfl⟩ | hshort
  case inl =>
    simp only [frontRecord] at h
    split at h
    case isTrue => simp at h
    rename_i hkind
    split at h
    case isTrue => simp at h
    rename_i hsize
    split at h
    case isTrue hwhole =>
      simp only [Parse.needMore.injEq] at h
      subst h
      refine ⟨by simp only [length_cons]; omega, ?_⟩
      intro more hmore
      have hstill : (tail ++ more).length < toUInt16 l1 l0 := by
        simp only [cons_append, length_cons] at hmore
        omega
      simp only [cons_append, frontRecord, hkind, hsize, if_false, hstill, if_true]
    case isFalse => simp at h
  case inr =>
    rw [frontRecord_short hshort, Parse.needMore.injEq] at h
    subst h
    refine ⟨by omega, ?_⟩
    intro more hmore
    exact frontRecord_short (by omega)

theorem drop_append_record {payload : Bytes} {recordEnd : Nat}
    (h : frontRecord offset rest = .ok (payload, recordEnd)) (more : Bytes) :
    (rest ++ more).drop (5 + payload.length) = rest.drop (5 + payload.length) ++ more := by
  obtain ⟨_, _, _, _, tail, hrest, _⟩ := frontRecord_ok h
  apply drop_append_of_le_length
  rw [hrest]
  simp only [length_cons, length_append]
  omega

theorem assemble_append (more : Bytes) (h : ∀ n, assemble offset content rest ≠ .needMore n) :
    assemble offset content (rest ++ more) = assemble offset content rest := by
  fun_induction assemble offset content rest with
  | case1 offset content rest minTotal hrecord => exact absurd rfl (h _)
  | case2 offset content rest reason hrecord =>
    rw [assemble_eq, frontRecord_append more (by simp [hrecord]), hrecord]
  | case3 offset content rest payload recordEnd hrecord hnone ih =>
    rw [assemble_eq, frontRecord_append more (by simp [hrecord]), hrecord]
    simp only [hnone, drop_append_record hrecord]
    exact ih h
  | case4 offset content rest payload recordEnd hrecord reason hmessage =>
    rw [assemble_eq, frontRecord_append more (by simp [hrecord]), hrecord]
    simp only [hmessage]
  | case5 offset content rest payload recordEnd hrecord body hmessage =>
    rw [assemble_eq, frontRecord_append more (by simp [hrecord]), hrecord]
    simp only [hmessage]

theorem assemble_wait {minTotal : Nat} (h : assemble offset content rest = .needMore minTotal) :
    offset + rest.length < minTotal ∧ ∀ more, offset + (rest ++ more).length < minTotal →
      assemble offset content (rest ++ more) = .needMore minTotal := by
  fun_induction assemble offset content rest with
  | case1 offset content rest announced hrecord =>
    simp only [Assembly.needMore.injEq] at h
    subst h
    obtain ⟨hlength, hstill⟩ := frontRecord_wait hrecord
    refine ⟨hlength, fun more hmore => ?_⟩
    rw [assemble_eq, hstill more hmore]
  | case2 => simp at h
  | case3 offset content rest payload recordEnd hrecord hnone ih =>
    obtain ⟨_, _, _, _, tail, hrest, _, _, hend, _⟩ := frontRecord_ok hrecord
    have hlength : offset + rest.length = recordEnd + (rest.drop (5 + payload.length)).length := by
      rw [hend, hrest]
      simp only [length_drop, length_cons, length_append]
      omega
    obtain ⟨hless, hstill⟩ := ih h
    refine ⟨by omega, fun more hmore => ?_⟩
    rw [assemble_eq, frontRecord_append more (by simp [hrecord]), hrecord]
    simp only [hnone, drop_append_record hrecord]
    apply hstill
    rw [length_append] at hmore ⊢
    omega
  | case4 => simp at h
  | case5 => simp at h

end More

theorem CutHello.of_append {buf more : Bytes} (h : CutHello (buf ++ more))
    (hfinal : ∀ n, assemble 0 [] buf ≠ .needMore n) : CutHello buf := by
  obtain ⟨hsize, body, consumed, hmessage, hbody⟩ := cutHello_iff.mp h
  rw [assemble_append more hfinal] at hmessage
  rw [length_append] at hsize
  exact cutHello_iff.mpr ⟨by omega, body, consumed, hmessage, hbody⟩

theorem not_cut_waiting
    (h : assemble 0 [] buf = .needMore minTotal) {more : Bytes}
    (hmore : (buf ++ more).length < minTotal) : ¬ CutHello (buf ++ more) := by
  intro hcut
  obtain ⟨_, body, consumed, hmessage, _⟩ := cutHello_iff.mp hcut
  rw [(assemble_wait h).2 more (by omega)] at hmessage
  simp at hmessage

theorem finish_needMore_iff {α : Type} {read : Bytes → Except Fault (Except Reason Extensions)}
    {result : Extensions → Nat → Bytes → α} {assembly : Assembly} :
    assembly.finish read result = .ok (.needMore minTotal) ↔ assembly = .needMore minTotal := by
  cases assembly with
  | needMore n => simp [Assembly.finish]
  | error reason => simp [Assembly.finish]
  | message body consumed =>
    simp only [Assembly.finish, reduceCtorEq, iff_false]
    cases read body with
    | error fault => simp [Except.map]
    | ok extensions => cases extensions <;> simp [Except.map]

theorem parseFirstTlsClientHelloFromTcpBuf_wait :
    parseFirstTlsClientHelloFromTcpBuf buf = .ok (.needMore minTotal) ↔
      buf.length ≤ maxClientBuf ∧ assemble 0 [] buf = .needMore minTotal := by
  by_cases hsize : buf.length ≤ maxClientBuf
  · rw [parseFirstTlsClientHelloFromTcpBuf_eq hsize, finish_needMore_iff]
    simp [hsize]
  · rw [parseFirstTlsClientHelloFromTcpBuf, if_pos (Nat.not_le.mp hsize)]
    simp [hsize]

theorem parseFirstTlsClientHello_wait :
    parseFirstTlsClientHello buf = .ok (.needMore minTotal) ↔
      buf.length ≤ maxClientBuf ∧ assemble 0 [] buf = .needMore minTotal := by
  by_cases hsize : buf.length ≤ maxClientBuf
  · rw [parseFirstTlsClientHello_eq hsize, finish_needMore_iff]
    simp [hsize]
  · rw [parseFirstTlsClientHello, if_pos (Nat.not_le.mp hsize)]
    simp [hsize]

end Meshpn.Tls

namespace Meshpn.Tls

open Meshpn.Lib
open Meshpn.Lib.Bytes

/-- The loop, which returns null for whatever is not a whole message. -/
def extractBody (buf : Bytes) : Nat → Bytes → Nat → Except Fault (Option Bytes)
  | 0, _, _ => .error .stuck
  | fuel + 1, payloads, offset =>
    (readRecord buf offset).bind fun record =>
      match record with
      | .needMore _ => .ok none
      | .error _ => .ok none
      | .ok (payload, recordEnd) =>
        let combined := payloads ++ payload
        if combined.length < 4 then extractBody buf fuel combined recordEnd
        else if index combined (.int 0) ≠ .int 1 then .ok none
        else
          (readUInt24BE combined 1).bind fun hsLen =>
            if combined.length < 4 + hsLen then extractBody buf fuel combined recordEnd
            else .ok (some (subarray combined 4 (4 + hsLen)))

def extractFirstClientHelloBodyFromTcpMux (buf : Bytes) : Except Fault (Option Bytes) :=
  if maxClientBuf < buf.length then .ok none
  else if buf.length < 5 ∨ index buf (.int 0) ≠ .int 0x16 then .ok none
  else extractBody buf (buf.length + 1) [] 0

def Assembly.body? : Assembly → Option Bytes
  | .message body _ => some body
  | _ => none

theorem extractBody_eq (buf : Bytes) (fuel : Nat) (content : Bytes) (offset : Nat)
    (hoffset : offset ≤ buf.length) (hfuel : buf.length < fuel + offset) :
    extractBody buf fuel content offset =
      .ok (assemble offset content (buf.drop offset)).body? := by
  induction fuel generalizing content offset with
  | zero => omega
  | succ fuel ih =>
    rw [extractBody, readRecord_eq buf offset hoffset, assemble_eq]
    simp only [Except.bind]
    cases hrecord : frontRecord offset (buf.drop offset) with
    | needMore minTotal => rfl
    | error reason => rfl
    | ok record =>
      obtain ⟨payload, recordEnd⟩ := record
      obtain ⟨hleft, hlater, hinside⟩ := record_left hoffset hrecord
      have hagain := ih (content ++ payload) recordEnd hinside (by omega)
      simp only [hleft]
      by_cases hshort : (content ++ payload).length < 4
      · rw [handshake_short hshort, if_pos hshort]
        exact hagain
      obtain ⟨kind, hsLen, hkind, hread, _, _, hmessage⟩ :=
        handshake_reads (Nat.not_lt.mp hshort)
      rw [hmessage, if_neg hshort, hkind, hread]
      by_cases hhello : kind = 1
      · simp only [hhello, ne_eq, not_true_eq_false, if_false]
        split
        · exact hagain
        · rfl
      · simp [hhello, Assembly.body?]

theorem extractFirstClientHelloBodyFromTcpMux_eq {buf : Bytes} (h : buf.length ≤ maxClientBuf) :
    extractFirstClientHelloBodyFromTcpMux buf = .ok (assemble 0 [] buf).body? := by
  have hloop := extractBody_eq buf (buf.length + 1) [] 0 (Nat.zero_le _) (by omega)
  rw [extractFirstClientHelloBodyFromTcpMux, if_neg (Nat.not_lt.mpr h)]
  rw [drop_zero] at hloop
  split
  case isTrue hfirst =>
    rcases hfirst with hshort | hother
    · rw [assemble_eq, frontRecord_short hshort]
      rfl
    · rw [← hloop]
      rcases Nat.lt_or_ge buf.length 5 with hshort | hlong
      · simp only [extractBody, readRecord, Nat.zero_add, if_pos hshort, Except.bind]
      · simp only [extractBody, readRecord, Nat.zero_add, if_neg (Nat.not_lt.mpr hlong),
          if_pos hother, if_true, Except.bind]
  case isFalse => exact hloop

/-- What the strict reader accepts, the other one reads in the same way; it refuses nothing. -/
theorem readExtensions_agree (extBlock : Bytes) (fuel eo : Nat) (found : Extensions) :
    (∀ extensions, readExtensions true extBlock fuel eo found = .ok (.ok extensions) →
      readExtensions false extBlock fuel eo found = .ok (.ok extensions)) ∧
    ∀ reason, readExtensions false extBlock fuel eo found ≠ .ok (.error reason) := by
  induction fuel generalizing eo found with
  | zero => exact ⟨fun _ h => (by cases h), fun _ h => (by cases h)⟩
  | succ fuel ih =>
    simp only [readExtensions]
    split
    case isTrue =>
      rcases readUInt16BE extBlock (.int eo) with fault | et
      · exact ⟨fun _ h => (by cases h), fun _ h => (by cases h)⟩
      rcases readUInt16BE extBlock (.int (eo + 2)) with fault | el
      · exact ⟨fun _ h => (by cases h), fun _ h => (by cases h)⟩
      simp only [Except.bind]
      split
      case isTrue => exact ⟨fun _ h => (by cases h), fun _ h => (by cases h)⟩
      cases readExtension et (subarray extBlock (eo + 4) (eo + 4 + el)) found with
      | error fault => exact ⟨fun _ h => (by cases h), fun _ h => (by cases h)⟩
      | ok next => exact ih (eo + 4 + el) next
    case isFalse =>
      refine ⟨fun extensions h => ?_, fun _ h => ?_⟩
      · split at h
        · cases h
        · simpa using h
      · simp at h

theorem readHello_agree (ch : Bytes) :
    (∀ extensions, readHello true ch = .ok (.ok extensions) →
      readHello false ch = .ok (.ok extensions)) ∧
    ∀ reason, readHello false ch = .ok (.error reason) →
      readHello true ch = .ok (.error reason) := by
  unfold readHello
  rcases extensionBlock ch with fault | block
  · exact ⟨fun _ h => (by cases h), fun _ h => (by cases h)⟩
  cases block with
  | error reason => exact ⟨fun _ h => h, fun _ h => h⟩
  | ok found =>
    obtain ⟨haccepts, hrefuses⟩ := readExtensions_agree found.2 (found.2.length + 1) 0 ⟨[], [], []⟩
    exact ⟨haccepts, fun reason h => absurd h (hrefuses reason)⟩

/-- On every buffer: both parsers wait for the same total; what the library accepts the multiplexer
accepts with the same fields, and the third copy finds its body; and what the multiplexer refuses
the library refuses for the same reason. -/
theorem assemblers_agree (buf : Bytes) :
    (∀ minTotal, parseFirstTlsClientHelloFromTcpBuf buf = .ok (.needMore minTotal) ↔
      parseFirstTlsClientHello buf = .ok (.needMore minTotal)) ∧
    (∀ hello, parseFirstTlsClientHelloFromTcpBuf buf = .ok (.ok hello) →
      parseFirstTlsClientHello buf = .ok (.ok ⟨hello.extensions, hello.bytesConsumed⟩) ∧
      extractFirstClientHelloBodyFromTcpMux buf = .ok (some hello.clientHelloBody)) ∧
    ∀ reason, parseFirstTlsClientHello buf = .ok (.error reason) →
      parseFirstTlsClientHelloFromTcpBuf buf = .ok (.error reason) := by
  refine ⟨fun minTotal => parseFirstTlsClientHelloFromTcpBuf_wait.trans
    parseFirstTlsClientHello_wait.symm, ?_⟩
  by_cases hsize : buf.length ≤ maxClientBuf
  · rw [parseFirstTlsClientHelloFromTcpBuf_eq hsize, parseFirstTlsClientHello_eq hsize,
      extractFirstClientHelloBodyFromTcpMux_eq hsize]
    cases assemble 0 [] buf with
    | needMore minTotal => exact ⟨fun _ h => (by cases h), fun _ h => (by cases h)⟩
    | error reason => exact ⟨fun _ h => (by cases h), fun _ h => by simpa [Assembly.finish] using h⟩
    | message body consumed =>
      obtain ⟨haccepts, hrefuses⟩ := readHello_agree body
      simp only [Assembly.finish]
      refine ⟨fun hello h => ?_, fun reason h => ?_⟩
      · cases hread : readHello true body with
        | error fault =>
          rw [hread] at h
          cases h
        | ok result =>
          rw [hread] at h
          cases result with
          | error reason => cases h
          | ok extensions =>
            cases h
            rw [haccepts extensions hread]
            exact ⟨rfl, rfl⟩
      · cases hread : readHello false body with
        | error fault =>
          rw [hread] at h
          cases h
        | ok result =>
          rw [hread] at h
          cases result with
          | error other =>
            cases h
            rw [hrefuses reason hread]
            rfl
          | ok extensions => cases h
  · have hover := Nat.not_le.mp hsize
    rw [parseFirstTlsClientHelloFromTcpBuf, parseFirstTlsClientHello, if_pos hover, if_pos hover]
    exact ⟨fun _ h => (by cases h), fun _ h => by simpa using h⟩

end Meshpn.Tls
