import Meshpn.Tls.ClientHello

/-!
How a ClientHello is put together from records, over the bytes that are left
rather than by offset. Both parsers compute this, and then read the body.
-/

namespace Meshpn.Tls

open Meshpn.Lib List
open Meshpn.Lib.Bytes

/-- What the records' content amounts to; `none` while a message is incomplete. -/
def handshake : Bytes → Option (Except Reason Bytes)
  | kind :: l2 :: l1 :: l0 :: content =>
    if kind ≠ 1 then some (.error .notClientHello)
    else if content.length < 65536 * l2.toNat + toUInt16 l1 l0 then none
    else some (.ok (content.take (65536 * l2.toNat + toUInt16 l1 l0)))
  | _ => none

inductive Assembly where
  | needMore (minTotal : Nat)
  | error (reason : Reason)
  | message (body : Bytes) (bytesConsumed : Nat)
  deriving DecidableEq, Repr

/-- The record at the front of what is left: its content and where it ends. -/
def frontRecord (offset : Nat) : Bytes → Parse (Bytes × Nat)
  | kind :: _ :: _ :: l1 :: l0 :: rest =>
    if kind ≠ 0x16 then
      .error (if offset = 0 then .notTlsHandshake else .nonHandshakeRecord)
    else if toUInt16 l1 l0 < 1 ∨ maxClientBuf < offset + 5 + toUInt16 l1 l0 then
      .error .recordOversize
    else if rest.length < toUInt16 l1 l0 then .needMore (offset + 5 + toUInt16 l1 l0)
    else .ok (rest.take (toUInt16 l1 l0), offset + 5 + toUInt16 l1 l0)
  | _ => .needMore (offset + 5)

theorem five_or_short (bytes : Bytes) :
    (∃ b0 b1 b2 b3 b4 rest, bytes = b0 :: b1 :: b2 :: b3 :: b4 :: rest) ∨ bytes.length < 5 := by
  rcases bytes with _ | ⟨b0, _ | ⟨b1, _ | ⟨b2, _ | ⟨b3, _ | ⟨b4, rest⟩⟩⟩⟩⟩
  case cons.cons.cons.cons.cons => exact Or.inl ⟨b0, b1, b2, b3, b4, rest, rfl⟩
  all_goals exact Or.inr (by simp)

theorem frontRecord_short {offset : Nat} {rest : Bytes} (h : rest.length < 5) :
    frontRecord offset rest = .needMore (offset + 5) := by
  rcases rest with _ | ⟨b0, _ | ⟨b1, _ | ⟨b2, _ | ⟨b3, _ | ⟨b4, rest⟩⟩⟩⟩⟩
  case cons.cons.cons.cons.cons =>
    simp only [length_cons] at h
    omega
  all_goals rfl

theorem frontRecord_ok {offset : Nat} {rest payload : Bytes} {recordEnd : Nat}
    (h : frontRecord offset rest = .ok (payload, recordEnd)) :
    ∃ v1 v0 l1 l0 tail, rest = 0x16 :: v1 :: v0 :: l1 :: l0 :: (payload ++ tail) ∧
      payload.length = toUInt16 l1 l0 ∧ 1 ≤ payload.length ∧
      recordEnd = offset + 5 + payload.length ∧ recordEnd ≤ maxClientBuf := by
  rw [frontRecord.eq_def] at h
  split at h
  case h_1 kind v1 v0 l1 l0 tail =>
    split at h
    case isTrue => simp at h
    rename_i hkind
    split at h
    case isTrue => simp at h
    rename_i hsize
    split at h
    case isTrue => simp at h
    rename_i hwhole
    simp only [Parse.ok.injEq, Prod.mk.injEq] at h
    obtain ⟨rfl, rfl⟩ := h
    have hlength : (tail.take (toUInt16 l1 l0)).length = toUInt16 l1 l0 := by
      rw [length_take]
      omega
    refine ⟨v1, v0, l1, l0, tail.drop (toUInt16 l1 l0), ?_, hlength, ?_, ?_, ?_⟩
    · rw [take_append_drop, not_not.mp hkind]
    · omega
    · rw [hlength]
    · omega
  case h_2 => simp at h

/-- Read records until their content holds a message. -/
def assemble (offset : Nat) (content rest : Bytes) : Assembly :=
  match _h : frontRecord offset rest with
  | .needMore minTotal => .needMore minTotal
  | .error reason => .error reason
  | .ok (payload, recordEnd) =>
    match handshake (content ++ payload) with
    | none => assemble recordEnd (content ++ payload) (rest.drop (5 + payload.length))
    | some (.error reason) => .error reason
    | some (.ok body) => .message body recordEnd
termination_by rest.length
decreasing_by
  obtain ⟨_, _, _, _, tail, hrest, _⟩ := frontRecord_ok _h
  simp only [hrest, List.length_drop, List.length_cons, List.length_append]
  omega

/-- The rest of a parser, given how it reads a body and what it returns. -/
def Assembly.finish {α : Type} (read : Bytes → Except Fault (Except Reason Extensions))
    (result : Extensions → Nat → Bytes → α) : Assembly → Except Fault (Parse α)
  | .needMore minTotal => .ok (.needMore minTotal)
  | .error reason => .ok (.error reason)
  | .message body bytesConsumed => (read body).map fun ext =>
    match ext with
    | .error reason => .error reason
    | .ok extensions => .ok (result extensions bytesConsumed body)

theorem subarray_drop (buf : Bytes) (o n : Nat) :
    subarray buf o (o + n) = (buf.drop o).take n := by
  rw [subarray, drop_take, Nat.add_sub_cancel_left]

theorem fillHeader_take (content payload : Bytes) :
    fillHeader (content.take 4) payload = (content ++ payload).take 4 := by
  rw [fillHeader, take_append]
  split
  case isTrue hshort =>
    rw [length_take] at hshort ⊢
    have hmin : min 4 content.length = content.length := by omega
    rw [hmin]
    congr 1
    rw [take_eq_take_iff]
    omega
  case isFalse hfull =>
    rw [length_take] at hfull
    have hzero : 4 - content.length = 0 := by omega
    rw [hzero, take_zero, append_nil]

theorem readRecord_eq (buf : Bytes) (offset : Nat) (h : offset ≤ buf.length) :
    readRecord buf offset = .ok (frontRecord offset (buf.drop offset)) := by
  have hlength : buf.length = offset + (buf.drop offset).length := by
    rw [length_drop]
    omega
  have hget : ∀ i, buf[offset + i]? = (buf.drop offset)[i]? := by
    intro i
    rw [getElem?_drop]
  rcases five_or_short (buf.drop offset) with ⟨kind, v1, v0, l1, l0, rest, hdrop⟩ | hshort
  case inl =>
    rw [hdrop] at hlength hget
    simp only [length_cons] at hlength
    have hkind : index buf (.int offset) = .int kind.toNat := by
      have hfirst : buf[offset]? = some kind := hget 0
      rw [index, hfirst]
    have hsixteen : index buf (.int offset) ≠ .int 0x16 ↔ kind ≠ 0x16 := by
      rw [hkind, Ne, Ne, Num.int.injEq, ← UInt8.toNat_inj]
      rfl
    have hread : readUInt16BE buf (.int (offset + 3)) = .ok (toUInt16 l1 l0) := by
      have hhigh : buf[offset + 3]? = some l1 := hget 3
      have hlow : buf[offset + 3 + 1]? = some l0 := hget 4
      rw [readUInt16BE, hhigh, hlow]
    have hmore : buf.length < offset + 5 + toUInt16 l1 l0 ↔ rest.length < toUInt16 l1 l0 := by
      omega
    have hpayload : subarray buf (offset + 5) (offset + 5 + toUInt16 l1 l0) =
        rest.take (toUInt16 l1 l0) := by
      rw [subarray_drop, ← drop_drop, hdrop]
      rfl
    have henough : ¬ buf.length < offset + 5 := by omega
    rw [readRecord, hdrop, frontRecord, if_neg henough]
    simp only [hsixteen, hread, Except.bind, hmore, hpayload]
    split
    · rfl
    split
    · rfl
    · split
      · rfl
      · rfl
  case inr =>
    rw [frontRecord_short hshort, readRecord, if_pos (by omega)]

theorem handshake_short {content : Bytes} (h : content.length < 4) : handshake content = none := by
  rcases content with _ | ⟨b0, _ | ⟨b1, _ | ⟨b2, _ | ⟨b3, rest⟩⟩⟩⟩
  case cons.cons.cons.cons =>
    simp only [length_cons] at h
    omega
  all_goals rfl

theorem handshake_reads {content : Bytes} (h : 4 ≤ content.length) :
    ∃ kind hsLen, index content (.int 0) = .int kind ∧ readUInt24BE content 1 = .ok hsLen ∧
      index (content.take 4) (.int 0) = .int kind ∧
      readUInt24BE (content.take 4) 1 = .ok hsLen ∧
      handshake content =
        if kind ≠ 1 then some (.error .notClientHello)
        else if content.length < 4 + hsLen then none
        else some (.ok (subarray content 4 (4 + hsLen))) := by
  rcases content with _ | ⟨k, _ | ⟨l2, _ | ⟨l1, _ | ⟨l0, rest⟩⟩⟩⟩
  case cons.cons.cons.cons =>
    refine ⟨k.toNat, 65536 * l2.toNat + toUInt16 l1 l0, rfl, rfl, rfl, rfl, ?_⟩
    have hkind : k ≠ 1 ↔ k.toNat ≠ 1 := by
      rw [Ne, Ne, ← UInt8.toNat_inj]
      rfl
    have hlength : rest.length < 65536 * l2.toNat + toUInt16 l1 l0 ↔
        (k :: l2 :: l1 :: l0 :: rest).length < 4 + (65536 * l2.toNat + toUInt16 l1 l0) := by
      simp only [length_cons]
      omega
    rw [subarray_drop]
    simp only [handshake, hkind, hlength, drop_succ_cons, drop_zero]
  all_goals simp at h

theorem assemble_eq (offset : Nat) (content rest : Bytes) :
    assemble offset content rest =
      match frontRecord offset rest with
      | .needMore minTotal => .needMore minTotal
      | .error reason => .error reason
      | .ok (payload, recordEnd) =>
        match handshake (content ++ payload) with
        | none => assemble recordEnd (content ++ payload) (rest.drop (5 + payload.length))
        | some (.error reason) => .error reason
        | some (.ok body) => .message body recordEnd := by
  rw [assemble]
  cases frontRecord offset rest <;> rfl

theorem record_left {buf payload : Bytes} {offset recordEnd : Nat} (hoffset : offset ≤ buf.length)
    (h : frontRecord offset (buf.drop offset) = .ok (payload, recordEnd)) :
    (buf.drop offset).drop (5 + payload.length) = buf.drop recordEnd ∧ offset < recordEnd ∧
      recordEnd ≤ buf.length := by
  obtain ⟨_, _, _, _, tail, hdrop, _, _, rfl, _⟩ := frontRecord_ok h
  have hlength := congrArg List.length hdrop
  simp only [length_drop, length_cons, length_append] at hlength
  refine ⟨?_, by omega, by omega⟩
  rw [drop_drop, Nat.add_assoc]

theorem parseRecords_eq (buf : Bytes) (fuel : Nat) (content : Bytes) (offset : Nat)
    (hoffset : offset ≤ buf.length) (hfuel : buf.length < fuel + offset) :
    parseRecords buf fuel content (content.take 4) offset =
      (assemble offset content (buf.drop offset)).finish (readHello true) Hello.mk := by
  induction fuel generalizing content offset with
  | zero => omega
  | succ fuel ih =>
    rw [parseRecords, readRecord_eq buf offset hoffset, assemble_eq]
    simp only [Except.bind]
    cases hrecord : frontRecord offset (buf.drop offset) with
    | needMore minTotal => rfl
    | error reason => rfl
    | ok record =>
      obtain ⟨payload, recordEnd⟩ := record
      obtain ⟨hleft, hlater, hinside⟩ := record_left hoffset hrecord
      have hagain := ih (content ++ payload) recordEnd hinside (by omega)
      simp only [fillHeader_take, hleft]
      by_cases hshort : (content ++ payload).length < 4
      · rw [handshake_short hshort, if_pos (by rw [length_take]; omega)]
        exact hagain
      obtain ⟨kind, hsLen, _, _, hkind, hread, hmessage⟩ :=
        handshake_reads (Nat.not_lt.mp hshort)
      rw [hmessage, if_neg (by rw [length_take]; omega), hkind, hread]
      by_cases hhello : kind = 1
      · simp only [hhello, ne_eq, not_true_eq_false, if_false]
        split
        · exact hagain
        · rfl
      · simp [hhello, Assembly.finish]

theorem parseCombined_eq (buf : Bytes) (fuel : Nat) (content : Bytes) (offset : Nat)
    (hoffset : offset ≤ buf.length) (hfuel : buf.length < fuel + offset) :
    parseCombined buf fuel content offset =
      (assemble offset content (buf.drop offset)).finish (readHello false)
        (fun extensions bytesConsumed _ => ⟨extensions, bytesConsumed⟩) := by
  induction fuel generalizing content offset with
  | zero => omega
  | succ fuel ih =>
    rw [parseCombined, readRecord_eq buf offset hoffset, assemble_eq]
    simp only [Except.bind]
    cases hrecord : frontRecord offset (buf.drop offset) with
    | needMore minTotal => rfl
    | error reason => rfl
    | ok record =>
      obtain ⟨payload, recordEnd⟩ := record
      obtain ⟨hleft, hlater, hinside⟩ := record_left hoffset hrecord
      have hagain := ih (content ++ payload) recordEnd hinside (by omega)
      simp only [hleft]
      by_cases hshort : (content ++ payload).length < 4
      · rw [handshake_short hshort, if_pos hshort]
        exact hagain
      obtain ⟨kind, hsLen, hkind, hread, _, _, hmessage⟩ :=
        handshake_reads (Nat.not_lt.mp hshort)
      rw [hmessage, if_neg hshort, hkind, hread]
      by_cases hhello : kind = 1
      · simp only [hhello, ne_eq, not_true_eq_false, if_false]
        split
        · exact hagain
        · rfl
      · simp [hhello, Assembly.finish]

theorem parseFirstTlsClientHelloFromTcpBuf_eq {buf : Bytes} (h : buf.length ≤ maxClientBuf) :
    parseFirstTlsClientHelloFromTcpBuf buf =
      (assemble 0 [] buf).finish (readHello true) Hello.mk := by
  have hloop := parseRecords_eq buf (buf.length + 1) [] 0 (Nat.zero_le _) (by omega)
  rw [parseFirstTlsClientHelloFromTcpBuf, if_neg (Nat.not_lt.mpr h)]
  rw [drop_zero] at hloop
  split
  case isTrue hshort =>
    rw [assemble_eq, frontRecord_short hshort]
    rfl
  case isFalse hlong =>
    split
    case isTrue hother =>
      rw [← hloop]
      simp only [parseRecords, readRecord, Nat.zero_add, if_neg hlong, if_pos hother, if_true,
        Except.bind]
    case isFalse => exact hloop

theorem parseFirstTlsClientHello_eq {buf : Bytes} (h : buf.length ≤ maxClientBuf) :
    parseFirstTlsClientHello buf =
      (assemble 0 [] buf).finish (readHello false)
        (fun extensions bytesConsumed _ => ⟨extensions, bytesConsumed⟩) := by
  have hloop := parseCombined_eq buf (buf.length + 1) [] 0 (Nat.zero_le _) (by omega)
  rw [parseFirstTlsClientHello, if_neg (Nat.not_lt.mpr h)]
  rw [drop_zero] at hloop
  split
  case isTrue hshort =>
    rw [assemble_eq, frontRecord_short hshort]
    rfl
  case isFalse hlong =>
    split
    case isTrue hother =>
      rw [← hloop]
      simp only [parseCombined, readRecord, Nat.zero_add, if_neg hlong, if_pos hother, if_true,
        Except.bind]
    case isFalse => exact hloop

end Meshpn.Tls
