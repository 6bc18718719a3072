import Meshpn.Tls.CutHello
import Meshpn.Tls.SniRewrite

/-!
Records as sizes laid over their content. A ClientHello in records is given by
the versions and sizes of the records and by the bytes they hold together; a
resizing changes one size, and undoing it gives the old sizes.
-/

namespace Meshpn.Tls

open Meshpn.Lib List
open Meshpn.Lib.Bytes

/-- What a record has ahead of its content, besides its type. -/
structure RecordHead where
  versionHigh : UInt8
  versionLow : UInt8
  size : Nat
  deriving DecidableEq, Repr

def frame : List RecordHead → Bytes → Bytes
  | [], _ => []
  | head :: heads, content =>
    0x16 :: head.versionHigh :: head.versionLow :: (ofUInt16 head.size ++
      (content.take head.size ++ frame heads (content.drop head.size)))

def totalSize (heads : List RecordHead) : Nat := (heads.map RecordHead.size).sum

@[simp] theorem totalSize_nil : totalSize [] = 0 := rfl
@[simp] theorem totalSize_cons (head : RecordHead) (heads : List RecordHead) :
    totalSize (head :: heads) = head.size + totalSize heads := by simp [totalSize]

/-- The sizes are such as the parser takes, and they add up to the content. -/
def Holds (heads : List RecordHead) (content : Bytes) : Prop :=
  (∀ head ∈ heads, 1 ≤ head.size ∧ head.size < 65536) ∧ totalSize heads = content.length

variable {heads newHeads : List RecordHead} {hostnameStart payloadOffset : Nat} {delta : Int}
  {content : Bytes}

theorem Holds.tail {head : RecordHead} {heads : List RecordHead}
    (h : Holds (head :: heads) content) : Holds heads (content.drop head.size) := by
  refine ⟨fun x hx => h.1 x (mem_cons_of_mem _ hx), ?_⟩
  have htotal := h.2
  rw [totalSize_cons] at htotal
  rw [length_drop]
  omega

theorem frame_length {heads : List RecordHead} (h : Holds heads content) :
    (frame heads content).length = 5 * heads.length + totalSize heads := by
  induction heads generalizing content with
  | nil => rfl
  | cons head heads ih =>
    have htotal := h.2
    rw [totalSize_cons] at htotal
    simp only [frame, length_cons, length_append, ofUInt16_length, length_take,
      ih h.tail, totalSize_cons]
    omega

/-- The sizes that `sizeRecords` gives to the records. -/
def resize (hostnameStart : Nat) (delta : Int) :
    Nat → List RecordHead → Except RewriteReason (List RecordHead)
  | _, [] => .ok []
  | payloadOffset, head :: heads =>
    if maxPlaintextRecordBytes < head.size then .error .recordPlaintextOversize
    else
      let ownsSniStart :=
        payloadOffset ≤ hostnameStart ∧ hostnameStart < payloadOffset + head.size
      let newSize : Int := head.size + if ownsSniStart then delta else 0
      if newSize < 1 ∨ newSize > maxPlaintextRecordBytes ∨
          (ownsSniStart ∧ newSize ≤ (hostnameStart : Int) - payloadOffset) then
        .error .recordLayoutResizeUnsupported
      else
        (resize hostnameStart delta (payloadOffset + head.size) heads).map
          ({ head with size := newSize.toNat } :: ·)

def sizedRecord (head newHead : RecordHead) : SizedRecord :=
  ⟨0x16 :: head.versionHigh :: head.versionLow :: ofUInt16 head.size, newHead.size⟩

/-- The loop over the records of a buffer that begins, from where it stands, with them. -/
theorem sizeRecords_eq {tcpBuf tail : Bytes} (hostnameStart : Nat) (delta : Int)
    {heads : List RecordHead} {content : Bytes} (hholds : Holds heads content) {fuel offset : Nat}
    (payloadOffset : Nat) (hleft : tcpBuf.drop offset = frame heads content ++ tail)
    (hfuel : heads.length < fuel) :
    sizeRecords tcpBuf (offset + (frame heads content).length) hostnameStart delta fuel offset
        payloadOffset =
      (resize hostnameStart delta payloadOffset heads).map fun newHeads =>
        (List.zipWith sizedRecord heads newHeads, content) := by
  induction heads generalizing content fuel offset payloadOffset with
  | nil =>
    rcases fuel with _ | fuel
    · cases hfuel
    have hempty : content = [] := by
      have htotal := hholds.2
      exact length_eq_zero_iff.mp htotal.symm
    subst hempty
    rw [sizeRecords, if_neg (by simp [frame])]
    rfl
  | cons head heads ih =>
    rcases fuel with _ | fuel
    · cases hfuel
    obtain ⟨hpositive, hsize⟩ := hholds.1 head mem_cons_self
    have htotal := hholds.2
    rw [totalSize_cons] at htotal
    have htake : (content.take head.size).length = head.size := by
      rw [length_take]
      omega
    have hlength : (frame (head :: heads) content).length =
        5 + head.size + (frame heads (content.drop head.size)).length := by
      simp only [frame, length_cons, length_append, ofUInt16_length, htake]
      omega
    have hparts : tcpBuf.drop offset = (0x16 :: head.versionHigh :: head.versionLow ::
        ofUInt16 head.size) ++ (content.take head.size ++
          (frame heads (content.drop head.size) ++ tail)) := by
      rw [hleft, frame]
      simp
    have hread : readUInt16BE tcpBuf (.int (offset + 3)) = .ok head.size := by
      have hhigh : tcpBuf[offset + 3]? = some (UInt8.ofNat (head.size / 256)) := by
        rw [← getElem?_drop, hparts]
        rfl
      have hlow : tcpBuf[offset + 3 + 1]? = some (UInt8.ofNat (head.size % 256)) := by
        rw [Nat.add_assoc, ← getElem?_drop, hparts]
        rfl
      simp only [readUInt16BE, hhigh, hlow, toUInt16_ofNat hsize]
    have hheader : subarray tcpBuf offset (offset + 5) =
        0x16 :: head.versionHigh :: head.versionLow :: ofUInt16 head.size := by
      rw [subarray, drop_take, Nat.add_sub_cancel_left, hparts]
      rfl
    have hdrop : tcpBuf.drop (offset + 5) = content.take head.size ++
        (frame heads (content.drop head.size) ++ tail) := by
      rw [← drop_drop, hparts]
      rfl
    have hpayload : subarray tcpBuf (offset + 5) (offset + 5 + head.size) =
        content.take head.size := by
      rw [subarray, drop_take, Nat.add_sub_cancel_left, hdrop,
        take_left' htake]
    have hnext : tcpBuf.drop (offset + 5 + head.size) =
        frame heads (content.drop head.size) ++ tail := by
      rw [← drop_drop, hdrop, drop_left' htake]
    have hrest := @ih (content.drop head.size) hholds.tail fuel (offset + 5 + head.size)
      (payloadOffset + head.size) hnext (by simpa using hfuel)
    have hend : offset + (frame (head :: heads) content).length =
        offset + 5 + head.size + (frame heads (content.drop head.size)).length := by omega
    rw [sizeRecords, resize, if_pos (by omega), hread, hend]
    simp only [attempt, Except.bind, hrest, hheader, hpayload]
    by_cases hoversize : maxPlaintextRecordBytes < head.size
    case pos => rw [if_pos hoversize, if_pos hoversize, Except.map]
    rw [if_neg hoversize, if_neg hoversize]
    generalize (head.size : Int) + (if payloadOffset ≤ hostnameStart ∧
      hostnameStart < payloadOffset + head.size then delta else 0) = newSize
    by_cases hbad : newSize < 1 ∨ newSize > maxPlaintextRecordBytes ∨
        ((payloadOffset ≤ hostnameStart ∧ hostnameStart < payloadOffset + head.size) ∧
          newSize ≤ (hostnameStart : Int) - payloadOffset)
    case pos => rw [if_pos hbad, if_pos hbad, Except.map]
    case neg =>
      rw [if_neg hbad, if_neg hbad]
      cases resize hostnameStart delta (payloadOffset + head.size) heads with
      | error reason => rfl
      | ok newHeads =>
        simp only [Except.map, zipWith_cons_cons, sizedRecord, take_append_drop]

def SameRecords (heads newHeads : List RecordHead) : Prop :=
  newHeads.map (fun head => (head.versionHigh, head.versionLow)) =
    heads.map fun head => (head.versionHigh, head.versionLow)

theorem resize_cons_iff {head : RecordHead} :
    resize hostnameStart delta payloadOffset (head :: heads) = .ok newHeads ↔
      ∃ newSize rest, head.size ≤ maxPlaintextRecordBytes ∧ 1 ≤ newSize ∧
        newSize ≤ maxPlaintextRecordBytes ∧
        ((payloadOffset ≤ hostnameStart ∧ hostnameStart < payloadOffset + head.size ∧
          (newSize : Int) = head.size + delta ∧ hostnameStart < payloadOffset + newSize) ∨
          (¬(payloadOffset ≤ hostnameStart ∧ hostnameStart < payloadOffset + head.size) ∧
            newSize = head.size)) ∧
        resize hostnameStart delta (payloadOffset + head.size) heads = .ok rest ∧
        newHeads = { head with size := newSize } :: rest := by
  rw [resize]
  by_cases hoversize : maxPlaintextRecordBytes < head.size
  case pos =>
    rw [if_pos hoversize]
    constructor
    · intro h
      cases h
    · rintro ⟨_, _, hsize, _⟩
      omega
  case neg =>
    rw [if_neg hoversize]
    by_cases howns : payloadOffset ≤ hostnameStart ∧ hostnameStart < payloadOffset + head.size
    case pos =>
      simp only [if_pos howns]
      by_cases hbad : (head.size : Int) + delta < 1 ∨
          (head.size : Int) + delta > maxPlaintextRecordBytes ∨
          ((payloadOffset ≤ hostnameStart ∧ hostnameStart < payloadOffset + head.size) ∧
            (head.size : Int) + delta ≤ (hostnameStart : Int) - payloadOffset)
      case pos =>
        rw [if_pos hbad]
        constructor
        · intro h
          cases h
        · rintro ⟨newSize, _, _, _, _, howner | hother, _⟩
          · omega
          · exact absurd howns hother.1
      case neg =>
        rw [if_neg hbad]
        rcases resize hostnameStart delta (payloadOffset + head.size) heads with reason | rest
        · simp [Except.map]
        simp only [Except.map, Except.ok.injEq, not_true_eq_false, false_and, or_false, howns,
          and_self, true_and]
        constructor
        · rintro rfl
          exact ⟨_, rest, by omega, by omega, by omega, ⟨by omega, by omega⟩, rfl, rfl⟩
        · rintro ⟨newSize, _, _, _, _, ⟨hsize, _⟩, rfl, rfl⟩
          rw [← hsize, Int.toNat_natCast]
    case neg =>
      simp only [if_neg howns]
      by_cases hbad : (head.size : Int) + 0 < 1 ∨
          (head.size : Int) + 0 > maxPlaintextRecordBytes ∨
          ((payloadOffset ≤ hostnameStart ∧ hostnameStart < payloadOffset + head.size) ∧
            (head.size : Int) + 0 ≤ (hostnameStart : Int) - payloadOffset)
      case pos =>
        rw [if_pos hbad]
        constructor
        · intro h
          cases h
        · rintro ⟨newSize, _, _, _, _, howner | hother, _⟩
          · exact absurd ⟨howner.1, howner.2.1⟩ howns
          · omega
      case neg =>
        rw [if_neg hbad]
        rcases resize hostnameStart delta (payloadOffset + head.size) heads with reason | rest
        · simp [Except.map]
        simp only [Except.map, Except.ok.injEq]
        constructor
        · rintro rfl
          exact ⟨head.size, rest, by omega, by omega, by omega, Or.inr ⟨howns, rfl⟩, rfl,
            by simp⟩
        · rintro ⟨newSize, _, _, _, _, howner | ⟨_, rfl⟩, rfl, rfl⟩
          · exact absurd ⟨howner.1, howner.2.1⟩ howns
          · simp

theorem resize_same
    (h : resize hostnameStart delta payloadOffset heads = .ok newHeads) :
    SameRecords heads newHeads := by
  induction heads generalizing payloadOffset newHeads with
  | nil =>
    cases h
    rfl
  | cons head heads ih =>
    obtain ⟨_, rest, _, _, _, _, hrest, rfl⟩ := resize_cons_iff.mp h
    have hsame := ih hrest
    simp only [SameRecords, map_cons] at hsame ⊢
    rw [hsame]

theorem resize_past (hpast : hostnameStart < payloadOffset)
    (h : resize hostnameStart delta payloadOffset heads = .ok newHeads) :
    newHeads = heads ∧ ∀ delta' payloadOffset', hostnameStart < payloadOffset' →
      resize hostnameStart delta' payloadOffset' heads = .ok heads := by
  induction heads generalizing payloadOffset newHeads with
  | nil =>
    cases h
    exact ⟨rfl, fun _ _ _ => rfl⟩
  | cons head heads ih =>
    obtain ⟨newSize, rest, hsize, hlow, hhigh, howner | ⟨_, rfl⟩, hrest, rfl⟩ :=
      resize_cons_iff.mp h
    case inl => omega
    case inr =>
      obtain ⟨rfl, hagain⟩ := ih (by omega) hrest
      refine ⟨rfl, fun delta' payloadOffset' hpast' => resize_cons_iff.mpr ?_⟩
      exact ⟨head.size, rest, hsize, hlow, hhigh, Or.inr ⟨by omega, rfl⟩,
        hagain delta' _ (by omega), rfl⟩

theorem resize_back (hbefore : payloadOffset ≤ hostnameStart)
    (h : resize hostnameStart delta payloadOffset heads = .ok newHeads)
    (hsizes : ∀ head ∈ heads, 1 ≤ head.size) :
    resize hostnameStart (-delta) payloadOffset newHeads = .ok heads := by
  induction heads generalizing payloadOffset newHeads with
  | nil =>
    cases h
    rfl
  | cons head heads ih =>
    have hnonempty := hsizes head mem_cons_self
    obtain ⟨newSize, rest, hsize, hlow, hhigh, howner | ⟨hother, rfl⟩, hrest, rfl⟩ :=
      resize_cons_iff.mp h
    case inl =>
      obtain ⟨_, howns, hnew, hstill⟩ := howner
      obtain ⟨rfl, hagain⟩ := resize_past howns hrest
      refine resize_cons_iff.mpr ⟨head.size, rest, hhigh, hnonempty, hsize, Or.inl ?_,
        hagain _ _ hstill, rfl⟩
      exact ⟨hbefore, hstill, by simp only [hnew]; omega, howns⟩
    case inr =>
      have hlater : payloadOffset + head.size ≤ hostnameStart := by omega
      exact resize_cons_iff.mpr ⟨head.size, heads, hsize, hnonempty, hsize, Or.inr ⟨hother, rfl⟩,
        ih hlater hrest fun x hx => hsizes x (mem_cons_of_mem _ hx), rfl⟩

theorem resize_sizes
    (h : resize hostnameStart delta payloadOffset heads = .ok newHeads) :
    ∀ head ∈ newHeads, 1 ≤ head.size ∧ head.size < 65536 := by
  induction heads generalizing payloadOffset newHeads with
  | nil =>
    cases h
    exact fun _ hx => absurd hx not_mem_nil
  | cons head heads ih =>
    have hlimit : maxPlaintextRecordBytes < 65536 := by decide
    obtain ⟨newSize, rest, _, hlow, hhigh, _, hrest, rfl⟩ := resize_cons_iff.mp h
    intro x hx
    rcases mem_cons.mp hx with rfl | hx
    · exact ⟨hlow, by simp only; omega⟩
    · exact ih hrest x hx

/-- All sizes together differ by what the name has grown, and if the content went on past all
records but the last, it still does. -/
theorem resize_total (hbefore : payloadOffset ≤ hostnameStart)
    (h : resize hostnameStart delta payloadOffset heads = .ok newHeads)
    (hinside : hostnameStart < payloadOffset + totalSize heads) {needed : Nat}
    (hneeded : payloadOffset + totalSize heads.dropLast < needed)
    (hstart : (hostnameStart : Int) < needed + delta) :
    (totalSize newHeads : Int) = totalSize heads + delta ∧
      ((payloadOffset + totalSize newHeads.dropLast : Nat) : Int) < needed + delta := by
  induction heads generalizing payloadOffset newHeads with
  | nil =>
    rw [totalSize_nil] at hinside
    omega
  | cons head heads ih =>
    have hlimit : maxPlaintextRecordBytes < 65536 := by decide
    rw [totalSize_cons] at hinside
    obtain ⟨newSize, rest, hsize, hlow, hhigh, howner | ⟨hother, rfl⟩, hrest, rfl⟩ :=
      resize_cons_iff.mp h
    case inl =>
      obtain ⟨_, howns, hnew, hstill⟩ := howner
      obtain ⟨rfl, _⟩ := resize_past howns hrest
      refine ⟨by simp only [totalSize_cons]; omega, ?_⟩
      cases rest with
      | nil =>
        rw [dropLast_singleton, totalSize_nil]
        omega
      | cons next rest =>
        rw [dropLast_cons_cons, totalSize_cons] at hneeded ⊢
        simp only
        omega
    case inr =>
      have hne : heads ≠ [] := by
        rintro rfl
        rw [totalSize_nil] at hinside
        omega
      have hne' : rest ≠ [] := by
        rintro rfl
        have hlength := congrArg List.length (resize_same hrest)
        simp only [map_nil, length_nil, length_map] at hlength
        exact hne (length_eq_zero_iff.mp hlength.symm)
      rw [dropLast_cons_of_ne_nil hne, totalSize_cons] at hneeded
      obtain ⟨htotal, hless⟩ := ih (by omega) hrest (by omega) (by omega)
      rw [dropLast_cons_of_ne_nil hne']
      simp only [totalSize_cons]
      exact ⟨by omega, by omega⟩

theorem writeRecords_eq (h : SameRecords heads newHeads)
    (newPayload : Bytes) (source : Nat) :
    writeRecords newPayload (List.zipWith sizedRecord heads newHeads) source =
      frame newHeads (newPayload.drop source) := by
  induction heads generalizing newHeads source with
  | nil =>
    cases newHeads with
    | nil => rfl
    | cons head heads => cases h
  | cons head heads ih =>
    rcases newHeads with _ | ⟨newHead, newHeads⟩
    · cases h
    simp only [SameRecords, map_cons, List.cons.injEq, Prod.mk.injEq] at h
    obtain ⟨⟨hhigh, hlow⟩, hrest⟩ := h
    rw [zipWith_cons_cons, writeRecords, frame, ih hrest, subarray, drop_take]
    simp [sizedRecord, hhigh, hlow]

def HandshakeRecord.head (r : HandshakeRecord) : RecordHead :=
  ⟨r.versionHigh, r.versionLow, r.payload.length⟩

theorem totalSize_records (records : List HandshakeRecord) :
    totalSize (records.map HandshakeRecord.head) =
      (records.flatMap HandshakeRecord.payload).length := by
  induction records with
  | nil => rfl
  | cons r records ih =>
    rw [map_cons, totalSize_cons, ih, flatMap_cons, length_append]
    rfl

theorem frame_records (records : List HandshakeRecord) :
    frame (records.map HandshakeRecord.head) (records.flatMap HandshakeRecord.payload) =
      records.flatMap HandshakeRecord.wire := by
  induction records with
  | nil => rfl
  | cons r records ih =>
    rw [map_cons, flatMap_cons, flatMap_cons, frame]
    simp only [HandshakeRecord.head, take_left, drop_left, ih]
    rw [r.size, ofUInt16_toUInt16]
    rfl

theorem holds_records (records : List HandshakeRecord) :
    Holds (records.map HandshakeRecord.head) (records.flatMap HandshakeRecord.payload) := by
  refine ⟨fun head hhead => ?_, totalSize_records records⟩
  obtain ⟨r, _, rfl⟩ := mem_map.mp hhead
  have hsize := toUInt16_lt r.lengthHigh r.lengthLow
  rw [← r.size] at hsize
  exact ⟨r.nonempty, hsize⟩

theorem exists_records {heads : List RecordHead} (h : Holds heads content) :
    ∃ records : List HandshakeRecord, records.map HandshakeRecord.head = heads ∧
      records.flatMap HandshakeRecord.payload = content := by
  induction heads generalizing content with
  | nil => exact ⟨[], rfl, (length_eq_zero_iff.mp h.2.symm).symm⟩
  | cons head heads ih =>
    obtain ⟨records, hheads, hcontent⟩ := ih h.tail
    obtain ⟨hnonempty, hsize⟩ := h.1 head mem_cons_self
    have htotal := h.2
    rw [totalSize_cons] at htotal
    have htake : (content.take head.size).length = head.size := by
      rw [length_take]
      omega
    let first : HandshakeRecord :=
      ⟨head.versionHigh, head.versionLow, UInt8.ofNat (head.size / 256),
        UInt8.ofNat (head.size % 256), content.take head.size,
        by rw [htake, toUInt16_ofNat hsize], by omega⟩
    refine ⟨first :: records, ?_, ?_⟩
    · rw [map_cons, hheads]
      simp only [first, HandshakeRecord.head, htake]
    · rw [flatMap_cons, hcontent]
      exact take_append_drop _ _

/-- The buffer begins with a ClientHello in records, the last of which it needs. -/
structure Framed (buf : Bytes) (heads : List RecordHead) (body extra tail : Bytes) : Prop where
  bytes : buf = frame heads (message body ++ extra) ++ tail
  holds : Holds heads (message body ++ extra)
  last : totalSize heads.dropLast < 4 + body.length
  short : body.length < 16777216
  limit : (frame heads (message body ++ extra)).length ≤ maxClientBuf

theorem Framed.of_assemble {buf body : Bytes} {consumed : Nat}
    (h : assemble 0 [] buf = .message body consumed) :
    ∃ heads extra tail, Framed buf heads body extra tail ∧
      consumed = (frame heads (message body ++ extra)).length := by
  obtain ⟨records, tail, _, hbuf, hconsumed, hlimit, hfound, hlast⟩ := assemble_message rfl h
  rw [nil_append] at hfound hlast
  obtain ⟨hbody, extra, hcontent⟩ := handshake_message_inv hfound
  have hframe := frame_records records
  have hholds := holds_records records
  rw [hcontent] at hframe hholds
  refine ⟨records.map HandshakeRecord.head, extra, tail, ?_, by rw [hframe, hconsumed, Nat.zero_add]⟩
  refine ⟨by rw [hframe, hbuf], hholds, ?_, hbody, by rw [hframe]; omega⟩
  rw [← map_dropLast, totalSize_records]
  by_contra hlong
  -- otherwise the message would be there without the last record
  have hsplit : records.dropLast.flatMap HandshakeRecord.payload <+: message body ++ extra := by
    rw [← hcontent]
    obtain ⟨last, hrecords⟩ := dropLast_prefix records
    exact ⟨last.flatMap HandshakeRecord.payload, by rw [← flatMap_append, hrecords]⟩
  obtain ⟨rest, hrest⟩ := hsplit
  have hfront : message body <+: records.dropLast.flatMap HandshakeRecord.payload := by
    refine prefix_of_prefix_length_le ⟨extra, rfl⟩ ⟨rest, hrest⟩ ?_
    rw [message_length]
    omega
  obtain ⟨more, hmore⟩ := hfront
  rw [← hmore, handshake_message hbody] at hlast
  cases hlast

theorem Framed.assemble {buf body extra tail : Bytes} {heads : List RecordHead}
    (h : Framed buf heads body extra tail) :
    assemble 0 [] buf = .message body (frame heads (message body ++ extra)).length := by
  obtain ⟨records, rfl, hcontent⟩ := exists_records h.holds
  have hframe := frame_records records
  rw [hcontent] at hframe
  have hlimit := h.limit
  rw [hframe] at hlimit
  obtain ⟨first, last, rfl, hlong, hmessage⟩ := @assemble_records body extra tail h.short records
    0 [] (by omega) hcontent (by simp)
  have hempty : last = [] := by
    by_contra hne
    have hlast := h.last
    rw [← map_dropLast, totalSize_records, dropLast_append_of_ne_nil hne,
      flatMap_append, length_append] at hlast
    rw [nil_append] at hlong
    omega
  subst hempty
  rw [append_nil] at hframe hmessage
  rw [h.bytes, append_nil, hframe, hmessage, Nat.zero_add]

end Meshpn.Tls
