import Meshpn.Lib.PrefixCode
import Meshpn.Tls.RecordFrames
import Meshpn.Tls.RetryGuard

/-!
What the guard takes at a time: one record that is not of the handshake, or the
records of one hello. A stream is cut into such pieces in one way only, which is
why the guards at both ends see the same hellos.
-/

namespace Meshpn.Tls

open Meshpn.Lib List
open Meshpn.Lib.Bytes

/-- One record, with all of its content. -/
def Whole (bytes : Bytes) : Prop :=
  ∃ kind v1 v0 l1 l0 payload, bytes = kind :: v1 :: v0 :: l1 :: l0 :: payload ∧
    payload.length = toUInt16 l1 l0

def IsHandshake (bytes : Bytes) : Prop := bytes.head? = some 0x16

theorem Whole.prefixCode : PrefixCode Whole (fun bytes : Bytes => bytes) where
  nonempty := by
    rintro _ ⟨kind, v1, v0, l1, l0, payload, rfl, _⟩
    exact cons_ne_nil _ _
  unique := by
    rintro _ _ ⟨kind, v1, v0, l1, l0, payload, rfl, hlength⟩
      ⟨kind', v1', v0', l1', l0', payload', rfl, hlength'⟩ hbegins
    simp only [cons_prefix_cons] at hbegins
    obtain ⟨rfl, rfl, rfl, rfl, rfl, hpayload⟩ := hbegins
    rw [hpayload.eq_of_length (hlength.trans hlength'.symm)]

/-- The records' content. -/
def content (records : List Bytes) : Bytes := records.flatMap (List.drop 5)

/-- The content holds a whole message. -/
def Complete : Bytes → Prop
  | _ :: l2 :: l1 :: l0 :: rest => 65536 * l2.toNat + toUInt16 l1 l0 ≤ rest.length
  | _ => False

theorem Complete.append {bytes : Bytes} (h : Complete bytes) (more : Bytes) :
    Complete (bytes ++ more) := by
  rcases bytes with _ | ⟨b0, _ | ⟨l2, _ | ⟨l1, _ | ⟨l0, rest⟩⟩⟩⟩
  case cons.cons.cons.cons =>
    simp only [Complete, cons_append, length_append] at h ⊢
    omega
  all_goals exact absurd h id

/-- What the guard takes at a time. -/
inductive Piece : List Bytes → Prop where
  | single {bytes : Bytes} : Whole bytes → ¬IsHandshake bytes → Piece [bytes]
  | hello {records : List Bytes} : (∀ bytes ∈ records, Whole bytes ∧ IsHandshake bytes) →
      Complete (content records) → ¬Complete (content records.dropLast) → Piece records

theorem Piece.whole {records : List Bytes} (h : Piece records) : ∀ bytes ∈ records, Whole bytes := by
  cases h with
  | single hwhole =>
    intro bytes hbytes
    rw [mem_singleton.mp hbytes]
    exact hwhole
  | hello hrecords => exact fun bytes hbytes => (hrecords bytes hbytes).1

theorem Piece.ne_nil {records : List Bytes} (h : Piece records) : records ≠ [] := by
  cases h with
  | single => exact cons_ne_nil _ _
  | hello _ hcomplete =>
    rintro rfl
    exact hcomplete

theorem Piece.eq_of_begins {records more : List Bytes} (h : Piece records) (hmore : Piece more)
    (hbegins : records <+: more) : records = more := by
  cases h with
  | @single bytes _ hother =>
    cases hmore with
    | single => exact hbegins.eq_of_length rfl
    | hello hrecords => exact absurd (hrecords bytes (hbegins.mem mem_cons_self)).2 hother
  | hello hrecords hcomplete =>
    cases hmore with
    | single =>
      refine hbegins.eq_of_length ?_
      have hlength := hbegins.length_le
      have hpos := length_pos_iff.mpr (Piece.ne_nil (.hello hrecords hcomplete ‹_›))
      simp only [length_singleton] at hlength ⊢
      omega
    | hello _ _ hlast =>
      by_contra hne
      -- the shorter one would be a whole message within all records but the last
      obtain ⟨rest, rfl⟩ := hbegins
      have hrest : rest ≠ [] := by
        rintro rfl
        exact hne (append_nil _).symm
      apply hlast
      rw [dropLast_append_of_ne_nil hrest, content, flatMap_append]
      exact hcomplete.append _

theorem Piece.prefixCode : PrefixCode Piece List.flatten where
  nonempty := by
    intro records h hempty
    obtain ⟨bytes, hbytes⟩ := exists_mem_of_ne_nil _ h.ne_nil
    have hnil := flatten_eq_nil_iff.mp hempty bytes hbytes
    exact Whole.prefixCode.nonempty bytes (h.whole bytes hbytes) hnil
  unique := by
    intro records more h hmore hbegins
    have hrecords := h.whole
    have hothers := hmore.whole
    have hlist : records <+: more :=
      Whole.prefixCode.begins_of_flatMap hrecords hothers (by simpa using hbegins)
    exact h.eq_of_begins hmore hlist

/-- The body of the message that the content begins with. -/
def messageBody : Bytes → Bytes
  | _ :: l2 :: l1 :: l0 :: rest => rest.take (65536 * l2.toNat + toUInt16 l1 l0)
  | _ => []

/-- Records collected so far, none of which makes the message whole. -/
structure HelloRecords.Collecting (type : Nat) (hello : HelloRecords) : Prop where
  records : ∀ bytes ∈ hello.records, Whole bytes ∧ IsHandshake bytes
  header : hello.header = (content hello.records).take 4
  type : hello.type = type
  incomplete : ¬Complete (content hello.records)

theorem HelloRecords.collecting_init (limit type : Nat) :
    (HelloRecords.init limit type).Collecting type where
  records := fun _ h => absurd h not_mem_nil
  header := rfl
  type := rfl
  incomplete := id

/-- One more record: the hello is still not whole, or this record was the last one needed. -/
theorem HelloRecords.Collecting.add {type : Nat} {hello next : HelloRecords} {bytes : Bytes}
    {whole : Option Collected} (h : hello.Collecting type) (hwhole : Whole bytes)
    (hkind : IsHandshake bytes) (hadd : hello.add bytes = .ok (next, whole)) :
    next.records = hello.records ++ [bytes] ∧
      ((whole = none ∧ next.Collecting type) ∨
        (Piece next.records ∧ (∀ bytes ∈ next.records, IsHandshake bytes) ∧
          index (content next.records) (.int 0) = .int type ∧
          whole = some ⟨next.records.flatten, messageBody (content next.records),
            (content next.records).length - (4 + (messageBody (content next.records)).length)⟩)) := by
  have hrecords : ∀ other ∈ hello.records ++ [bytes], Whole other ∧ IsHandshake other := by
    intro other hother
    rcases mem_append.mp hother with hold | hnew
    · exact h.records other hold
    · rw [mem_singleton.mp hnew]
      exact ⟨hwhole, hkind⟩
  have hcontent : content (hello.records ++ [bytes]) = content hello.records ++ bytes.drop 5 := by
    simp [content]
  have hheader : fillHeader hello.header (bytes.drop 5) =
      (content (hello.records ++ [bytes])).take 4 := by
    rw [h.header, fillHeader_take, hcontent]
  rw [HelloRecords.add] at hadd
  split at hadd
  case isTrue => cases hadd
  have hpayload : ∀ records : List Bytes, records.flatMap (List.drop 5) = content records :=
    fun _ => rfl
  simp only [HelloRecords.payload, HelloRecords.wire, hheader, hpayload] at hadd
  generalize hall : content (hello.records ++ [bytes]) = all at hadd hheader
  rcases all with _ | ⟨b0, _ | ⟨l2, _ | ⟨l1, _ | ⟨l0, rest⟩⟩⟩⟩
  case cons.cons.cons.cons =>
    have htake : (b0 :: l2 :: l1 :: l0 :: rest).take 4 = [b0, l2, l1, l0] := rfl
    have hfour : ¬[b0, l2, l1, l0].length < 4 := Nat.lt_irrefl 4
    rw [htake, if_neg hfour] at hadd
    split at hadd
    case isTrue => cases hadd
    rename_i htype
    have hread : readUInt24BE [b0, l2, l1, l0] 1 =
        .ok (65536 * l2.toNat + toUInt16 l1 l0) := rfl
    rw [hread] at hadd
    simp only [orThrow, Except.bind] at hadd
    split at hadd
    case isTrue => cases hadd
    split at hadd
    case isTrue hshort =>
      simp only [length_cons] at hshort
      cases hadd
      refine ⟨rfl, Or.inl ⟨rfl, hrecords, ?_, h.type, ?_⟩⟩
      · simp only [hall]
        rfl
      · simp only [hall, Complete]
        omega
    case isFalse hlong =>
      simp only [length_cons] at hlong
      cases hadd
      have hbody : subarray (b0 :: l2 :: l1 :: l0 :: rest) 4
          (4 + (65536 * l2.toNat + toUInt16 l1 l0)) =
            messageBody (b0 :: l2 :: l1 :: l0 :: rest) := by
        rw [subarray_drop]
        rfl
      have hlength : (messageBody (b0 :: l2 :: l1 :: l0 :: rest)).length =
          65536 * l2.toNat + toUInt16 l1 l0 := by
        rw [messageBody, length_take]
        omega
      have hlast : ¬Complete (content (hello.records ++ [bytes]).dropLast) := by
        rw [dropLast_concat]
        exact h.incomplete
      refine ⟨rfl, Or.inr ⟨.hello hrecords ?_ hlast, fun other hother =>
        (hrecords other hother).2, ?_, ?_⟩⟩
      · simp only [hall, Complete]
        omega
      · simp only [hall]
        rw [← h.type, ← not_not.mp htype]
        rfl
      · simp only [hall, hbody, hlength, length_cons]
  all_goals
    cases hadd
    refine ⟨rfl, Or.inl ⟨rfl, hrecords, ?_, h.type, ?_⟩⟩
    · simp only [hall]
    · simp only [hall]
      exact id

theorem not_complete_of_none {bytes : Bytes} (h : handshake bytes = none) : ¬Complete bytes := by
  rcases bytes with _ | ⟨b0, _ | ⟨l2, _ | ⟨l1, _ | ⟨l0, rest⟩⟩⟩⟩
  case cons.cons.cons.cons =>
    simp only [handshake] at h
    split at h
    case isTrue => cases h
    split at h
    case isTrue hshort =>
      simp only [Complete]
      omega
    case isFalse => cases h
  all_goals exact id

theorem complete_of_some {bytes body : Bytes} (h : handshake bytes = some (.ok body)) :
    Complete bytes := by
  rcases bytes with _ | ⟨b0, _ | ⟨l2, _ | ⟨l1, _ | ⟨l0, rest⟩⟩⟩⟩
  case cons.cons.cons.cons =>
    simp only [handshake] at h
    split at h
    case isTrue => cases h
    split at h
    case isTrue => cases h
    simp only [Complete]
    omega
  all_goals cases h

theorem frame_piece {body extra : Bytes} {heads : List RecordHead}
    (hholds : Holds heads (message body ++ extra)) (hlast : totalSize heads.dropLast < 4 + body.length)
    (hshort : body.length < 16777216) :
    ∃ records, Piece records ∧ (∀ bytes ∈ records, IsHandshake bytes) ∧
      records.flatten = frame heads (message body ++ extra) ∧
      content records = message body ++ extra := by
  obtain ⟨records, rfl, hcontent⟩ := exists_records hholds
  have hdrop : ∀ some : List HandshakeRecord,
      content (some.map HandshakeRecord.wire) = some.flatMap HandshakeRecord.payload := by
    intro some
    rw [content, flatMap_map]
    rfl
  have hwhole : ∀ bytes ∈ records.map HandshakeRecord.wire, Whole bytes ∧ IsHandshake bytes := by
    intro bytes hbytes
    obtain ⟨r, _, rfl⟩ := mem_map.mp hbytes
    exact ⟨⟨_, _, _, _, _, _, rfl, r.size⟩, rfl⟩
  refine ⟨records.map HandshakeRecord.wire, .hello hwhole ?_ ?_,
    fun bytes hbytes => (hwhole bytes hbytes).2, ?_, (hdrop records).trans hcontent⟩
  · rw [hdrop, hcontent]
    exact complete_of_some (handshake_message hshort)
  · rw [← map_dropLast, totalSize_records] at hlast
    rw [← map_dropLast, hdrop]
    obtain ⟨last, hrecords⟩ := dropLast_prefix records
    have hall : records.dropLast.flatMap HandshakeRecord.payload ++
        last.flatMap HandshakeRecord.payload = message body ++ extra := by
      rw [← flatMap_append, hrecords, hcontent]
    exact not_complete_of_none (handshake_incomplete hshort hall hlast)
  · rw [← hcontent, frame_records, flatMap_def]

end Meshpn.Tls
