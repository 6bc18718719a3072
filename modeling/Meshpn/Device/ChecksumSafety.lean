import Meshpn.Device.ChecksumRepair

/-!
Packets with their checksums computed again. The sums come out right, nothing but the
checksums changes, and a second repair changes nothing; so does the flag for a change of
the frame around a packet tell the truth.
-/

namespace Meshpn.Device

open Meshpn.Lib List
open Meshpn.Lib.Checked
open Meshpn.Lib.InternetChecksum

section Checksums

variable {p : Bytes} {h : Nat}

def IpVerifies (p : Bytes) : Prop := fold (wordSum (p.take (headerLength p))) = 65535

def transportSum (h : Nat) (p : Bytes) : Nat :=
  (if byteAt p 9 = 1 then 0 else pseudoSum h p) + wordSum (p.drop h)

def TransportVerifies (p : Bytes) : Prop := fold (transportSum (headerLength p) p) = 65535

def ChecksumByte (p : Bytes) (k : Nat) : Prop :=
  k = 10 ∨ k = 11 ∨ (fragment p = false ∧
    (k = headerLength p + checksumOffset (byteAt p 9) ∨
      k = headerLength p + checksumOffset (byteAt p 9) + 1))

theorem headerChecksum_le (hsize : p.length < 65536) : headerChecksum h p ≤ 65535 := by
  have hsum := wordSum_slice_le (put16 p 10 0) 0 h (by rwa [put16_length])
  rw [slice_zero] at hsum
  exact (checksumFinish_spec (by omega)).1

theorem withHeader_verifies (hsize : p.length < 65536) (hlow : 20 ≤ h) (hhigh : h ≤ p.length) :
    fold (wordSum ((withHeader h p).take h)) = 65535 := by
  have hlength : (put16 p 10 0).length = p.length := put16_length _ _ _
  have hbound := wordSum_slice_le (put16 p 10 0) 0 h (by omega)
  rw [slice_zero] at hbound
  obtain ⟨hle, hmod, hpos⟩ := checksumFinish_spec
    (by omega : wordSum ((put16 p 10 0).take h) < 4294967296)
  have hwritten := @wordSum_take_put16 (put16 p 10 0) h 10 (headerChecksum h p) rfl (by omega)
    (by omega) (by unfold headerChecksum; omega)
  rw [be16_put16 (by omega) (by omega), put16_put16, Nat.add_zero] at hwritten
  change wordSum ((withHeader h p).take h) = _ at hwritten
  unfold headerChecksum at hwritten
  rw [fold_eq_max, hwritten]
  exact ⟨hpos, Nat.dvd_of_mod_eq_zero hmod⟩

theorem withTransport_keeps (hlow : 20 ≤ h) :
    byteAt (withTransport h p) 9 = byteAt p 9 ∧ pseudoSum h (withTransport h p) = pseudoSum h p := by
  have hprotocol : byteAt (withTransport h p) 9 = byteAt p 9 := byteAt_put16 _ (by omega) (by omega)
  have hpseudo : slice (withTransport h p) 12 8 = slice p 12 8 := slice_put16 _ (by omega)
  refine ⟨hprotocol, ?_⟩
  rw [pseudoSum, pseudoSum, hpseudo, hprotocol, withTransport_length]

theorem checksumOffset_even (protocol : Nat) : checksumOffset protocol % 2 = 0 := by
  unfold checksumOffset
  split
  · rfl
  · split <;> rfl

def zeroedSum (h : Nat) (p : Bytes) : Nat :=
  (if byteAt p 9 = 1 then 0 else pseudoSum h p) +
    wordSum ((put16 p (h + checksumOffset (byteAt p 9)) 0).drop h)

theorem zeroedSum_lt (hsize : p.length < 65536) : zeroedSum h p < 4294967296 := by
  have hfirst : wordSum (slice p 12 8) ≤ 262140 := by
    have hle := wordSum_le (slice p 12 8)
    have hshort : (slice p 12 8).length ≤ 8 := length_take_le _ _
    omega
  have hbyte := (p.getD 9 0).toNat_lt
  change byteAt p 9 < 256 at hbyte
  have hlength : (put16 p (h + checksumOffset (byteAt p 9)) 0).length = p.length :=
    put16_length _ _ _
  have hrest := wordSum_slice_le (put16 p (h + checksumOffset (byteAt p 9)) 0) h
    ((put16 p (h + checksumOffset (byteAt p 9)) 0).length - h) (by omega)
  rw [slice_rest] at hrest
  unfold zeroedSum pseudoSum
  split <;> omega

theorem transportChecksum_spec (hsize : p.length < 65536) :
    transportChecksum h p ≤ 65535 ∧ (zeroedSum h p + transportChecksum h p) % 65535 = 0 ∧
      0 < zeroedSum h p + transportChecksum h p ∧
      (byteAt p 9 = 17 → transportChecksum h p ≠ 0) := by
  have hspec := checksumFinish_spec (@zeroedSum_lt p h hsize)
  unfold transportChecksum
  dsimp only
  change (if byteAt p 9 = 17 ∧ checksumFinish (zeroedSum h p) = 0 then 65535
    else checksumFinish (zeroedSum h p)) ≤ 65535 ∧ _
  obtain ⟨hle, hmod, hpos⟩ := hspec
  change _ ∧ (zeroedSum h p + if byteAt p 9 = 17 ∧ checksumFinish (zeroedSum h p) = 0 then 65535
    else checksumFinish (zeroedSum h p)) % 65535 = 0 ∧ 0 < zeroedSum h p +
      (if byteAt p 9 = 17 ∧ checksumFinish (zeroedSum h p) = 0 then 65535
        else checksumFinish (zeroedSum h p)) ∧
    (byteAt p 9 = 17 → (if byteAt p 9 = 17 ∧ checksumFinish (zeroedSum h p) = 0 then 65535
      else checksumFinish (zeroedSum h p)) ≠ 0)
  split
  case isTrue hzero =>
    exact ⟨Nat.le_refl _, by omega, by omega, fun _ => by omega⟩
  case isFalse hnonzero =>
    exact ⟨hle, hmod, hpos, fun hudp hzero => hnonzero ⟨hudp, hzero⟩⟩

theorem withTransport_verifies (hsize : p.length < 65536) (hlow : 20 ≤ h)
    (hroom : h + checksumOffset (byteAt p 9) + 1 < p.length) :
    fold (transportSum h (withTransport h p)) = 65535 := by
  obtain ⟨hle, hmod, hpos, -⟩ := @transportChecksum_spec p h hsize
  obtain ⟨hprotocol, hpseudo⟩ := @withTransport_keeps p h hlow
  have hlength := put16_length p (h + checksumOffset (byteAt p 9)) 0
  have hshare : ∀ v, sumShare (checksumOffset (byteAt p 9)) v = v := by
    intro v
    have heven := checksumOffset_even (byteAt p 9)
    exact if_neg (by omega)
  have hwritten := @wordSum_put16 (put16 p (h + checksumOffset (byteAt p 9)) 0) h
    (checksumOffset (byteAt p 9)) (transportChecksum h p) (by omega) (by omega)
  rw [be16_put16 hroom (by omega), hshare, hshare, put16_put16, Nat.add_zero] at hwritten
  change wordSum ((withTransport h p).drop h) = _ at hwritten
  have hsum : transportSum h (withTransport h p) = zeroedSum h p + transportChecksum h p := by
    rw [transportSum, zeroedSum, hprotocol, hpseudo, hwritten, Nat.add_assoc]
  rw [fold_eq_max, hsum]
  exact ⟨hpos, Nat.dvd_of_mod_eq_zero hmod⟩

theorem repaired_other {k : Nat} (hk : ¬ChecksumByte p k) :
    byteAt (repaired p) k = byteAt p k := by
  unfold ChecksumByte at hk
  unfold repaired
  dsimp only
  have hheader : byteAt (withHeader (headerLength p) p) k = byteAt p k :=
    withHeader_byte _ (by tauto) (by tauto)
  have hprotocol : byteAt (withHeader (headerLength p) p) 9 = byteAt p 9 :=
    withHeader_byte _ (by omega) (by omega)
  split
  case isTrue => exact hheader
  rename_i hwhole
  have hnot : fragment p = false := by simpa using hwhole
  rw [withTransport, hprotocol, byteAt_put16 _ (by tauto) (by tauto), hheader]

theorem repaired_length (p : Bytes) : (repaired p).length = p.length := by
  unfold repaired
  dsimp only
  split
  · exact withHeader_length _ _
  · rw [withTransport_length, withHeader_length]

theorem ipv4Valid_of_same {q : Bytes} (hlength : q.length = p.length)
    (hsame : ∀ k, ¬ChecksumByte p k → byteAt q k = byteAt p k) (hvalid : ipv4Valid p = true) :
    ipv4Valid q = true := by
  obtain ⟨hlow, hhigh, htotal⟩ := valid_header hvalid
  have hfront : ∀ k < 10, byteAt q k = byteAt p k := by
    intro k hk
    refine hsame k ?_
    unfold ChecksumByte
    omega
  have hheader : headerLength q = headerLength p := headerLength_of_byte (hfront 0 (by omega))
  have hfragment : fragment q = fragment p :=
    fragment_of_bytes (hfront 6 (by omega)) (hfront 7 (by omega))
  have hversion : ¬(p.getD 0 0).toNat / 16 ≠ 4 := by
    intro hwrong
    unfold ipv4Valid at hvalid
    dsimp only at hvalid
    rw [if_pos (.inr hwrong)] at hvalid
    cases hvalid
  have hzero : (q.getD 0 0).toNat = (p.getD 0 0).toNat := hfront 0 (by omega)
  have hnine : (q.getD 9 0).toNat = byteAt p 9 := hfront 9 (by omega)
  unfold ipv4Valid
  dsimp only
  rw [if_neg (by omega), hheader, be16_eq, hfront 2 (by omega), hfront 3 (by omega), ← be16_eq,
    if_neg (by omega), hfragment]
  split
  case isTrue => rfl
  rename_i hwhole
  have hnot : fragment p = false := by simpa using hwhole
  have hother : ∀ k, byteAt p 9 = 6 ∨ byteAt p 9 = 17 →
      k = headerLength p + 12 ∧ byteAt p 9 = 6 ∨
        (k = headerLength p + 4 ∨ k = headerLength p + 5) ∧ byteAt p 9 = 17 →
      byteAt q k = byteAt p k := by
    intro k _ hplace
    refine hsame k ?_
    unfold ChecksumByte checksumOffset
    rcases hplace with ⟨rfl, hsix⟩ | ⟨hplace, hseventeen⟩
    · rw [hsix]
      simp only [if_true]
      omega
    · rw [hseventeen]
      simp only [Nat.reduceEqDiff, if_false, if_true]
      omega
  unfold ipv4Valid at hvalid
  dsimp only at hvalid
  rw [if_neg (by omega), if_neg (by omega), if_neg hwhole] at hvalid
  rw [hnine]
  rw [show (p.getD 9 0).toNat = byteAt p 9 from rfl] at hvalid
  generalize hprotocol : byteAt p 9 = protocol at hvalid hother
  split at hvalid
  case h_1 =>
    have hdata : (q.getD (headerLength p + 12) 0).toNat =
        (p.getD (headerLength p + 12) 0).toNat := hother _ (.inl rfl) (.inl ⟨rfl, rfl⟩)
    simp only [hlength, hdata]
    exact hvalid
  case h_2 =>
    have hdata : be16 q (headerLength p + 4) = be16 p (headerLength p + 4) := by
      rw [be16_eq, be16_eq, hother _ (.inr rfl) (.inr ⟨.inl rfl, rfl⟩),
        hother (headerLength p + 4 + 1) (.inr rfl) (.inr ⟨.inr rfl, rfl⟩)]
    simp only [hlength, hdata]
    exact hvalid
  case h_3 =>
    simp only [hlength]
    exact hvalid
  case h_4 => cases hvalid

theorem repaired_verifies (hvalid : ipv4Valid p = true) :
    IpVerifies (repaired p) ∧ (fragment p = false → TransportVerifies (repaired p) ∧
      (byteAt p 9 = 17 → be16 (repaired p) (headerLength p + 6) ≠ 0)) := by
  obtain ⟨hlow, hhigh, -⟩ := valid_header hvalid
  have hsize := valid_size hvalid
  have hzero : byteAt (repaired p) 0 = byteAt p 0 := by
    refine repaired_other ?_
    unfold ChecksumByte
    omega
  have hheader : headerLength (repaired p) = headerLength p := headerLength_of_byte hzero
  unfold IpVerifies TransportVerifies
  rw [hheader]
  have hlength := withHeader_length (headerLength p) p
  have hip := withHeader_verifies hsize hlow hhigh
  have hprotocol : byteAt (withHeader (headerLength p) p) 9 = byteAt p 9 :=
    withHeader_byte _ (by omega) (by omega)
  unfold repaired
  dsimp only
  split
  case isTrue hfragmented => exact ⟨hip, fun hwhole => by rw [hwhole] at hfragmented; cases hfragmented⟩
  rename_i hnot
  have hwhole : fragment p = false := by simpa using hnot
  generalize withHeader (headerLength p) p = q at hip hprotocol hlength
  have hroom : headerLength p + checksumOffset (byteAt q 9) + 1 < q.length := by
    rw [hprotocol, hlength]
    unfold checksumOffset
    rcases valid_transport hvalid hwhole with ⟨htcp, hroom, -⟩ | ⟨hudp, hroom⟩ | ⟨hicmp, hroom⟩
    · rw [if_pos htcp]
      omega
    · rw [if_neg (by omega), if_pos hudp]
      omega
    · rw [if_neg (by omega), if_neg (by omega)]
      omega
  have htake : (withTransport (headerLength p) q).take (headerLength p) =
      q.take (headerLength p) := take_put16 _ (by omega)
  rw [htake]
  refine ⟨hip, fun _ => ⟨withTransport_verifies (by omega) hlow hroom, fun hudp => ?_⟩⟩
  obtain ⟨hle, -, -, hnonzero⟩ := @transportChecksum_spec q (headerLength p) (by omega)
  have hk : checksumOffset (byteAt q 9) = 6 := by
    rw [hprotocol, hudp]
    rfl
  rw [withTransport]
  rw [hk] at hroom ⊢
  rw [be16_put16 hroom (by omega)]
  exact hnonzero (by rw [hprotocol, hudp])

theorem headerChecksum_take (h : Nat) (q : Bytes) :
    headerChecksum h q = checksumFinish (wordSum (put16 (q.take h) 10 0)) := by
  rw [headerChecksum, put16, put16, take_set, take_set]

theorem repaired_eq (p : Bytes) : repaired p =
    if fragment p then withHeader (headerLength p) p
    else withTransport (headerLength p) (withHeader (headerLength p) p) := rfl

theorem repaired_again (hvalid : ipv4Valid p = true) : repaired (repaired p) = repaired p := by
  obtain ⟨hlow, hhigh, -⟩ := valid_header hvalid
  have hsize := valid_size hvalid
  have hfront : ∀ k < 10, byteAt (repaired p) k = byteAt p k := by
    intro k hk
    refine repaired_other ?_
    unfold ChecksumByte
    omega
  have hheader : headerLength (repaired p) = headerLength p :=
    headerLength_of_byte (hfront 0 (by omega))
  have hfragment : fragment (repaired p) = fragment p :=
    fragment_of_bytes (hfront 6 (by omega)) (hfront 7 (by omega))
  have hchecksum : headerChecksum (headerLength p) (withHeader (headerLength p) p) =
      headerChecksum (headerLength p) p := by
    rw [headerChecksum, withHeader, put16_put16]
    rfl
  have hread : be16 (withHeader (headerLength p) p) 10 = headerChecksum (headerLength p) p := by
    have hle := @headerChecksum_le p (headerLength p) hsize
    exact be16_put16 (by omega) (by omega)
  have hlength := withHeader_length (headerLength p) p
  have hunfold : repaired (repaired p) =
      if fragment p then withHeader (headerLength p) (repaired p)
      else withTransport (headerLength p) (withHeader (headerLength p) (repaired p)) := by
    rw [repaired_eq (repaired p), hheader, hfragment]
  rw [hunfold, repaired_eq p]
  split
  case isTrue => rw [withHeader, hchecksum, ← hread, put16_be16 (by omega)]
  generalize withHeader (headerLength p) p = q at hchecksum hread hlength
  have htake : (withTransport (headerLength p) q).take (headerLength p) =
      q.take (headerLength p) := take_put16 _ (by omega)
  have hten : be16 (withTransport (headerLength p) q) 10 = be16 q 10 := by
    rw [be16_eq, be16_eq, withTransport, byteAt_put16 _ (by omega) (by omega),
      byteAt_put16 _ (by omega) (by omega)]
  have hsame : withHeader (headerLength p) (withTransport (headerLength p) q) =
      withTransport (headerLength p) q := by
    rw [withHeader, headerChecksum_take, htake, ← headerChecksum_take, hchecksum, ← hread, ← hten,
      put16_be16 (by rw [withTransport_length]; omega)]
  obtain ⟨hprotocol, hpseudo⟩ := @withTransport_keeps q (headerLength p) hlow
  have hvalue : transportChecksum (headerLength p) (withTransport (headerLength p) q) =
      transportChecksum (headerLength p) q := by
    unfold transportChecksum
    dsimp only
    rw [hprotocol, hpseudo]
    rw [show withTransport (headerLength p) q = put16 q _ _ from rfl, put16_put16]
  rw [hsame, withTransport, hprotocol, hvalue]
  exact put16_put16 _ _ _ _

end Checksums

section Frames

variable {frame packet : Bytes} {ipOffset ipLen : Nat}

theorem slice_length (hroom : ipOffset + ipLen ≤ frame.length) :
    (slice frame ipOffset ipLen).length = ipLen := by
  rw [slice, length_take, length_drop]
  omega

theorem byteAt_slice {k : Nat} (hk : k < ipLen) :
    byteAt (slice frame ipOffset ipLen) k = byteAt frame (ipOffset + k) := by
  unfold byteAt slice
  rw [getD_eq_getElem?_getD, getElem?_take_of_lt hk, getElem?_drop,
    getD_eq_getElem?_getD]

theorem withPacket_slice :
    withPacket frame (slice frame ipOffset ipLen) ipOffset ipLen = frame := by
  have hrest : slice frame ipOffset ipLen ++ frame.drop (ipOffset + ipLen) =
      frame.drop ipOffset := by
    rw [slice, ← drop_drop, take_append_drop]
  rw [withPacket, append_assoc, hrest, take_append_drop]

theorem withPacket_length (hroom : ipOffset + ipLen ≤ frame.length)
    (hpacket : packet.length = ipLen) :
    (withPacket frame packet ipOffset ipLen).length = frame.length := by
  rw [withPacket, length_append, length_append, length_take, length_drop,
    hpacket]
  omega

theorem withPacket_inside (hroom : ipOffset + ipLen ≤ frame.length)
    (hpacket : packet.length = ipLen) {k : Nat} (hk : k < ipLen) :
    byteAt (withPacket frame packet ipOffset ipLen) (ipOffset + k) = byteAt packet k := by
  have htake : (frame.take ipOffset).length = ipOffset := by
    rw [length_take]
    omega
  unfold byteAt withPacket
  rw [getD_eq_getElem?_getD, append_assoc, getElem?_append_right (by omega), htake,
    Nat.add_sub_cancel_left, getElem?_append_left (by omega), getD_eq_getElem?_getD]

theorem withPacket_outside (hroom : ipOffset + ipLen ≤ frame.length)
    (hpacket : packet.length = ipLen) {k : Nat} (hk : ¬(ipOffset ≤ k ∧ k < ipOffset + ipLen)) :
    byteAt (withPacket frame packet ipOffset ipLen) k = byteAt frame k := by
  have htake : (frame.take ipOffset).length = ipOffset := by
    rw [length_take]
    omega
  unfold byteAt withPacket
  rcases Nat.lt_or_ge k ipOffset with hbefore | hbehind
  · rw [getD_eq_getElem?_getD, append_assoc, getElem?_append_left (by omega),
      getElem?_take_of_lt hbefore, getD_eq_getElem?_getD]
  have hfront : (frame.take ipOffset ++ packet).length = ipOffset + ipLen := by
    rw [length_append, htake, hpacket]
  rw [getD_eq_getElem?_getD, getElem?_append_right (by omega), hfront,
    getElem?_drop, getD_eq_getElem?_getD]
  congr 3
  omega

theorem transportChecksumIn_ok (h : Nat) (hroom : ipOffset + ipLen ≤ frame.length)
    (hlen : 20 ≤ ipLen) :
    ∃ l4Checksum, transportChecksumIn frame ipOffset ipLen h = .ok l4Checksum ∧
      (l4Checksum = 0 ∨ ipOffset ≤ l4Checksum ∧ l4Checksum + 1 < ipOffset + ipLen) := by
  unfold transportChecksumIn
  split
  case isFalse => exact ⟨0, rfl, .inl rfl⟩
  rename_i hheader
  rw [load_byteAt (by omega)]
  refine ⟨_, rfl, ?_⟩
  dsimp only
  split
  · omega
  split
  · omega
  · split <;> omega

theorem transportChecksumIn_eq (hvalid : ipv4Valid (slice frame ipOffset ipLen) = true)
    (hwhole : fragment (slice frame ipOffset ipLen) = false)
    (hroom : ipOffset + ipLen ≤ frame.length) :
    transportChecksumIn frame ipOffset ipLen (headerLength (slice frame ipOffset ipLen)) =
      .ok (ipOffset + headerLength (slice frame ipOffset ipLen) +
        checksumOffset (byteAt (slice frame ipOffset ipLen) 9)) := by
  obtain ⟨hlow, hhigh, -⟩ := valid_header hvalid
  rw [slice_length hroom] at hhigh
  have hprotocol : byteAt (slice frame ipOffset ipLen) 9 = byteAt frame (ipOffset + 9) :=
    byteAt_slice (by omega)
  have htransport := valid_transport hvalid hwhole
  rw [slice_length hroom, hprotocol] at htransport
  rw [transportChecksumIn, if_pos ⟨hlow, hhigh⟩, load_byteAt (by omega), hprotocol]
  unfold checksumOffset
  simp only [Except.map]
  rcases htransport with ⟨htcp, hbytes, -⟩ | ⟨hudp, hbytes⟩ | ⟨hicmp, hbytes⟩
  · rw [if_pos ⟨htcp, hbytes⟩, if_pos htcp]
  · rw [if_neg (by omega), if_pos ⟨hudp, hbytes⟩, if_neg (by omega), if_pos hudp]
  · rw [if_neg (by omega), if_neg (by omega), if_pos ⟨hicmp, hbytes⟩, if_neg (by omega),
      if_neg (by omega)]

def checksumBytes (frame : Bytes) (i : Nat) : Nat × Nat :=
  if i = 0 then (0, 0) else (byteAt frame i, byteAt frame (i + 1))

theorem checksumBytesIn_eq {i : Nat} (hi : i = 0 ∨ i + 1 < frame.length) :
    checksumBytesIn frame i = .ok (checksumBytes frame i) := by
  unfold checksumBytesIn checksumBytes
  split
  case isTrue => rfl
  rename_i hsome
  rw [load_byteAt (by omega), load_byteAt (by omega)]
  rfl

theorem byteAt_ext {p q : Bytes} (hlength : q.length = p.length)
    (hsame : ∀ k < p.length, byteAt q k = byteAt p k) : q = p := by
  apply ext_getElem hlength
  intro k hk hk'
  have hbyte := UInt8.toNat_inj.mp (hsame k hk')
  rwa [getD_eq_getElem?_getD, getD_eq_getElem?_getD, getElem?_eq_getElem hk,
    getElem?_eq_getElem hk'] at hbyte

/-- The flag for a change is about the bytes that can change, so about the whole frame. -/
theorem repairPacketIn_spec (hroom : ipOffset + ipLen ≤ frame.length) (hlen : 20 ≤ ipLen) :
    ∃ result, repairPacketIn frame ipOffset ipLen = .ok result ∧
      result.frame.length = frame.length ∧ (result.changed = true ↔ result.frame ≠ frame) ∧
      (result.ok = false → result.frame = frame) ∧
      ∀ k, ¬(ipOffset ≤ k ∧ k < ipOffset + ipLen) → byteAt result.frame k = byteAt frame k := by
  have hview : (slice frame ipOffset ipLen).length = ipLen := slice_length hroom
  have hfirst : byteAt frame ipOffset % 16 * 4 = headerLength (slice frame ipOffset ipLen) := by
    change _ = byteAt (slice frame ipOffset ipLen) 0 % 16 * 4
    rw [byteAt_slice (by omega), Nat.add_zero]
  obtain ⟨l4Checksum, hfound, hplace⟩ :=
    transportChecksumIn_ok (headerLength (slice frame ipOffset ipLen)) hroom hlen
  unfold repairPacketIn
  rw [load_byteAt (by omega), load_byteAt (by omega), load_byteAt (by omega)]
  simp only [Except.bind, hfirst]
  rw [hfound]
  simp only
  rw [checksumBytesIn_eq (by omega)]
  simp only
  rw [repairChecksumsIn_eq]
  simp only
  by_cases hvalid : ipv4Valid (slice frame ipOffset ipLen) = true
  case neg =>
    rw [if_neg hvalid]
    simp only [if_true]
    rw [withPacket_slice]
    exact ⟨_, rfl, rfl, by simp, fun _ => rfl, fun _ _ => rfl⟩
  case pos =>
    rw [if_pos hvalid]
    simp only [Bool.true_eq_false, if_false]
    have hpacket : (repaired (slice frame ipOffset ipLen)).length = ipLen := by
      rw [repaired_length, hview]
    have hafter := withPacket_length hroom hpacket
    have hinside : ∀ k < ipLen,
        byteAt (withPacket frame (repaired (slice frame ipOffset ipLen)) ipOffset ipLen)
          (ipOffset + k) = byteAt (repaired (slice frame ipOffset ipLen)) k :=
      fun k hk => withPacket_inside hroom hpacket hk
    have houtside : ∀ k, ¬(ipOffset ≤ k ∧ k < ipOffset + ipLen) →
        byteAt (withPacket frame (repaired (slice frame ipOffset ipLen)) ipOffset ipLen) k =
          byteAt frame k := fun k hk => withPacket_outside hroom hpacket hk
    generalize withPacket frame (repaired (slice frame ipOffset ipLen)) ipOffset ipLen =
      after at hafter hinside houtside ⊢
    rw [load_byteAt (by omega)]
    simp only
    rw [load_byteAt (by omega)]
    simp only
    rw [checksumBytesIn_eq (by omega)]
    refine ⟨_, rfl, hafter, ?_, (fun h => by cases h), houtside⟩
    simp only [decide_eq_true_eq]
    constructor
    · rintro hchanged rfl
      rcases hchanged with h | h | h
      · exact h rfl
      · exact h rfl
      · exact h rfl
    · intro hdifferent
      by_contra hsame
      push Not at hsame
      obtain ⟨hhigh, hlow, hbytes⟩ := hsame
      apply hdifferent
      -- the bytes that were compared are all that the repair can change
      refine byteAt_ext hafter fun k hk => ?_
      by_cases hwithin : ipOffset ≤ k ∧ k < ipOffset + ipLen
      case neg => exact houtside k hwithin
      obtain ⟨m, rfl⟩ : ∃ m, k = ipOffset + m := ⟨k - ipOffset, by omega⟩
      by_cases hchecksum : ChecksumByte (slice frame ipOffset ipLen) m
      case neg =>
        rw [hinside m (by omega), repaired_other hchecksum, byteAt_slice (by omega)]
      rcases hchecksum with rfl | rfl | ⟨hwhole, hplace'⟩
      · exact hhigh.symm
      · exact hlow.symm
      have hexact := transportChecksumIn_eq hvalid hwhole hroom
      rw [hfound] at hexact
      have hl4 := Except.ok.inj hexact
      have hnonzero : l4Checksum ≠ 0 := by
        have hheader := (valid_header hvalid).1
        omega
      unfold checksumBytes at hbytes
      rw [if_neg hnonzero, if_neg hnonzero, Prod.mk.injEq] at hbytes
      rcases hplace' with rfl | rfl
      · have hsame := hbytes.1.symm
        rwa [hl4, Nat.add_assoc] at hsame
      · have hsame := hbytes.2.symm
        rw [hl4, Nat.add_assoc, Nat.add_assoc] at hsame
        rwa [Nat.add_assoc]

end Frames

/-- Where the packet of a frame begins, behind the tag of a VLAN where there is one. -/
def packetOffset (frame : Bytes) : Nat :=
  if be16 frame 12 = 0x8100 ∨ be16 frame 12 = 0x88a8 then 18 else 14

/-- The repair of a packet stays within it, and no sum of it leaves 32 bits. A valid packet comes
out with the right checksums, changed in nothing else, and once more it would not change; every
other packet is left alone. In an Ethernet frame the flag for a change says whether the frame
has changed, and nothing outside the packet ever does. -/
theorem checksums_repaired (p : Bytes) :
    (∃ flag q, repairChecksumsIn p = .ok (flag, q) ∧ (flag = true ↔ ipv4Valid p = true) ∧
      (flag = false → q = p) ∧
      (flag = true → q.length = p.length ∧ IpVerifies q ∧
        (fragment p = false → TransportVerifies q ∧
          (byteAt p 9 = 17 → be16 q (headerLength p + 6) ≠ 0)) ∧
        (∀ k, ¬ChecksumByte p k → byteAt q k = byteAt p k) ∧
        repairChecksumsIn q = .ok (true, q))) ∧
    ∀ frame : Bytes, ∃ result, repairEthernetIn frame = .ok result ∧
      result.frame.length = frame.length ∧ (result.changed = true ↔ result.frame ≠ frame) ∧
      (result.ok = false → result.frame = frame) ∧
      ∀ k, ¬(packetOffset frame ≤ k ∧
          k < packetOffset frame + be16 frame (packetOffset frame + 2)) →
        byteAt result.frame k = byteAt frame k := by
  constructor
  · rw [repairChecksumsIn_eq]
    by_cases hvalid : ipv4Valid p = true
    case neg =>
      rw [if_neg hvalid]
      exact ⟨false, p, rfl, by simp [hvalid], fun _ => rfl, fun h => by cases h⟩
    case pos =>
      obtain ⟨hip, htransport⟩ := repaired_verifies hvalid
      have hagain : ipv4Valid (repaired p) = true :=
        ipv4Valid_of_same (repaired_length p) (fun k hk => repaired_other hk) hvalid
      rw [if_pos hvalid]
      refine ⟨true, repaired p, rfl, by simp [hvalid], (fun h => by cases h), fun _ =>
        ⟨repaired_length p, hip, htransport, fun k hk => repaired_other hk, ?_⟩⟩
      rw [repairChecksumsIn_eq, if_pos hagain, repaired_again hvalid]
  · intro frame
    have hsame : ∃ result : RepairedFrame, (Except.ok ⟨false, false, frame⟩ : Except Checked.Fault _) =
        .ok result ∧ result.frame.length = frame.length ∧
        (result.changed = true ↔ result.frame ≠ frame) ∧
        (result.ok = false → result.frame = frame) ∧
        ∀ k, ¬(packetOffset frame ≤ k ∧
            k < packetOffset frame + be16 frame (packetOffset frame + 2)) →
          byteAt result.frame k = byteAt frame k :=
      ⟨_, rfl, rfl, by simp, fun _ => rfl, fun _ _ => rfl⟩
    unfold repairEthernetIn
    split
    case isTrue => exact hsame
    case isFalse hlong =>
      rw [load16_be16 (by omega)]
      simp only [Except.bind]
      split
      case isTrue => exact hsame
      case isFalse htag =>
        have hoffset : (if be16 frame 12 = 0x8100 ∨ be16 frame 12 = 0x88a8 then 18 else 14) =
          packetOffset frame := rfl
        rw [hoffset]
        have htype : ∃ type, (if be16 frame 12 = 0x8100 ∨ be16 frame 12 = 0x88a8 then
            load16 frame 16 else .ok (be16 frame 12)) = .ok type := by
          split
          case isTrue htagged =>
            have hroom : ¬frame.length < 18 := fun hshort => htag ⟨htagged, hshort⟩
            exact ⟨_, load16_be16 (by omega)⟩
          case isFalse => exact ⟨_, rfl⟩
        obtain ⟨type, htype⟩ := htype
        rw [htype]
        simp only
        split
        case isTrue => exact hsame
        case isFalse hpacket =>
          rw [load16_be16 (by omega)]
          simp only
          split
          case isTrue => exact hsame
          case isFalse hlen =>
            obtain ⟨result, hresult, hlength, hchanged, hok, houtside⟩ :=
              @repairPacketIn_spec frame (packetOffset frame)
                (be16 frame (packetOffset frame + 2)) (by omega) (by omega)
            exact ⟨result, hresult, hlength, hchanged, hok, houtside⟩

end Meshpn.Device
