import Meshpn.Device.MssClamp

/-!
The checksums of a packet computed again, in place and with every access and every sum
checked, and the same for the packet inside an Ethernet frame. What the checked functions
return is what the ones without checks compute, so that the results about these, the
sums that come out right above all, hold of what the device does.
-/

namespace Meshpn.Device

open Meshpn.Lib List
open Meshpn.Lib.Checked
open Meshpn.Lib.InternetChecksum

/-- `checksum_add`, over `n` bytes from `start`. -/
def checksumAddIn (p : Bytes) : Nat → Nat → Nat → Except Checked.Fault Nat
  | 0, _, sum => .ok sum
  | 1, start, sum => (load p start).bind fun last => add32 sum (last * 256)
  | n + 2, start, sum =>
    (load16 p start).bind fun word =>
      (add32 sum word).bind fun sum => checksumAddIn p n (start + 2) sum

/-- The checksum of a TCP segment or a datagram, `checksumOffset` bytes behind the header. -/
def repairTransportIn (h protocol checksumOffset : Nat) (p : Bytes) : Except Checked.Fault Bytes :=
  (store16 p (h + checksumOffset) 0).bind fun p =>
    (checksumAddIn p 8 12 0).bind fun sum =>
      (add32 sum protocol).bind fun sum =>
        (add32 sum (p.length - h)).bind fun sum =>
          (checksumAddIn p (p.length - h) h sum).bind fun sum =>
            let checksum := checksumFinish sum
            let checksum := if protocol = 17 ∧ checksum = 0 then 0xffff else checksum
            store16 p (h + checksumOffset) checksum

def repairIcmpIn (h : Nat) (p : Bytes) : Except Checked.Fault Bytes :=
  (store16 p (h + 2) 0).bind fun p =>
    (checksumAddIn p (p.length - h) h 0).bind fun sum => store16 p (h + 2) (checksumFinish sum)

/-- `meshvpn_vpn_repair_checksums`, with what it returns and the packet that it leaves. -/
def repairChecksumsIn (p : Bytes) : Except Checked.Fault (Bool × Bytes) :=
  (ipv4ValidIn p).bind fun valid =>
    if valid = false then .ok (false, p)
    else
      (load p 0).bind fun first =>
        let h := first % 16 * 4
        (store16 p 10 0).bind fun p =>
          (checksumAddIn p h 0 0).bind fun sum =>
            (store16 p 10 (checksumFinish sum)).bind fun p =>
              (load16 p 6).bind fun offset =>
                if offset % 0x4000 ≠ 0 then .ok (true, p)
                else
                  (load p 9).bind fun protocol =>
                    match protocol with
                    | 6 => (repairTransportIn h 6 16 p).map (Prod.mk true)
                    | 17 => (repairTransportIn h 17 6 p).map (Prod.mk true)
                    | 1 => (repairIcmpIn h p).map (Prod.mk true)
                    | _ => .ok (false, p)

/-- What a call leaves: whether the frame held a packet, `*changed`, and the frame. -/
structure RepairedFrame where
  ok : Bool
  changed : Bool
  frame : Bytes
  deriving DecidableEq

/-- Where the checksum of the transport is looked for in a frame; zero for none. -/
def transportChecksumIn (frame : Bytes) (ipOffset ipLen h : Nat) : Except Checked.Fault Nat :=
  if 20 ≤ h ∧ h ≤ ipLen then
    (load frame (ipOffset + 9)).map fun protocol =>
      if protocol = 6 ∧ ipLen ≥ h + 20 then ipOffset + h + 16
      else if protocol = 17 ∧ ipLen ≥ h + 8 then ipOffset + h + 6
      else if protocol = 1 ∧ ipLen ≥ h + 8 then ipOffset + h + 2
      else 0
  else .ok 0

/-- Two bytes of a frame; zeros where there is no checksum. -/
def checksumBytesIn (frame : Bytes) (i : Nat) : Except Checked.Fault (Nat × Nat) :=
  if i = 0 then .ok (0, 0)
  else (load frame i).bind fun high => (load frame (i + 1)).map fun low => (high, low)

/-- `n` bytes from `start`. -/
def slice (p : Bytes) (start n : Nat) : Bytes := (p.drop start).take n

/-- A frame with another packet in it. -/
def withPacket (frame packet : Bytes) (ipOffset ipLen : Nat) : Bytes :=
  frame.take ipOffset ++ packet ++ frame.drop (ipOffset + ipLen)

/-- The packet in a frame, from where it begins. -/
def repairPacketIn (frame : Bytes) (ipOffset ipLen : Nat) : Except Checked.Fault RepairedFrame :=
  (load frame (ipOffset + 10)).bind fun high =>
    (load frame (ipOffset + 11)).bind fun low =>
      (load frame ipOffset).bind fun first =>
        (transportChecksumIn frame ipOffset ipLen (first % 16 * 4)).bind fun l4Checksum =>
          (checksumBytesIn frame l4Checksum).bind fun beforeL4 =>
            (repairChecksumsIn (slice frame ipOffset ipLen)).bind fun repaired =>
              let after := withPacket frame repaired.2 ipOffset ipLen
              if repaired.1 = false then .ok ⟨false, false, after⟩
              else
                (load after (ipOffset + 10)).bind fun high' =>
                  (load after (ipOffset + 11)).bind fun low' =>
                    (checksumBytesIn after l4Checksum).map fun afterL4 =>
                      ⟨true, high ≠ high' ∨ low ≠ low' ∨ beforeL4 ≠ afterL4, after⟩

/-- `meshvpn_vpn_repair_ethernet_checksums`. -/
def repairEthernetIn (frame : Bytes) : Except Checked.Fault RepairedFrame :=
  if frame.length < 14 then .ok ⟨false, false, frame⟩
  else
    (load16 frame 12).bind fun outer =>
      let tagged := outer = 0x8100 ∨ outer = 0x88a8
      if tagged ∧ frame.length < 18 then .ok ⟨false, false, frame⟩
      else
        let ipOffset := if tagged then 18 else 14
        (if tagged then load16 frame 16 else .ok outer).bind fun type =>
          if type ≠ 0x0800 ∨ frame.length < ipOffset + 20 then .ok ⟨false, false, frame⟩
          else
            (load16 frame (ipOffset + 2)).bind fun ipLen =>
              if ipLen < 20 ∨ ipLen > frame.length - ipOffset then .ok ⟨false, false, frame⟩
              else repairPacketIn frame ipOffset ipLen

theorem checksumAddIn_eq (p : Bytes) (n start sum : Nat) (hroom : start + n ≤ p.length)
    (hsum : sum + wordSum (slice p start n) < 4294967296) :
    checksumAddIn p n start sum = .ok (sum + wordSum (slice p start n)) := by
  induction n using Nat.twoStepInduction generalizing start sum with
  | zero =>
    rw [checksumAddIn, slice, take_zero]
    rfl
  | one =>
    have hslice : slice p start 1 = [p.getD start 0] := by
      rw [slice, drop_eq_getElem_cons (by omega), getD_eq_getElem?_getD,
        getElem?_eq_getElem (by omega)]
      rfl
    rw [hslice, wordSum, Nat.shiftLeft_eq] at hsum ⊢
    rw [checksumAddIn, load_ok (by omega)]
    exact add32_ok hsum
  | more n ih _ =>
    have hslice : slice p start (n + 2) =
        p.getD start 0 :: p.getD (start + 1) 0 :: slice p (start + 2) n := by
      rw [slice, slice, drop_eq_getElem_cons (by omega),
        drop_eq_getElem_cons (by omega : start + 1 < p.length), getD_eq_getElem?_getD,
        getD_eq_getElem?_getD, getElem?_eq_getElem (by omega),
        getElem?_eq_getElem (by omega)]
      rfl
    rw [hslice, wordSum] at hsum ⊢
    rw [checksumAddIn, load16_ok (by omega)]
    simp only [Except.bind]
    rw [add32_ok (by omega)]
    simp only
    rw [ih (start + 2) _ (by omega) (by omega), Nat.add_assoc]

theorem wordSum_slice_le (p : Bytes) (start n : Nat) (hsize : p.length < 65536) :
    wordSum (slice p start n) ≤ 2147450880 := by
  have hle := wordSum_le (slice p start n)
  have hlength : (slice p start n).length ≤ p.length := by
    rw [slice, length_take, length_drop]
    omega
  omega

theorem checksumFinish_spec {sum : Nat} (hsum : sum < 4294967296) :
    checksumFinish sum ≤ 65535 ∧ (sum + checksumFinish sum) % 65535 = 0 ∧
      0 < sum + checksumFinish sum := by
  have hle := foldCarry_twice_le hsum
  have hmod : foldCarry (foldCarry sum) % 65535 = sum % 65535 := by
    rw [foldCarry_mod, foldCarry_mod]
  unfold checksumFinish
  refine ⟨by omega, by omega, ?_⟩
  rcases Nat.eq_zero_or_pos sum with hzero | hpos
  · rw [hzero]
    decide
  · omega

section Put

variable {p : Bytes} {h k : Nat}

theorem put16_put16 (p : Bytes) (k a b : Nat) : put16 (put16 p k a) k b = put16 p k b := by
  unfold put16
  rw [set_comm _ _ (by omega : k + 1 ≠ k), set_set, set_set]

theorem put16_be16 (hk : k + 1 < p.length) : put16 p k (be16 p k) = p := by
  have hfirst := (p.getD k 0).toNat_lt
  have hsecond := (p.getD (k + 1) 0).toNat_lt
  have hhigh : UInt8.ofNat (be16 p k / 256) = p[k] := by
    have hvalue : be16 p k / 256 = (p.getD k 0).toNat := by
      unfold be16 Bytes.toUInt16
      omega
    rw [hvalue, UInt8.ofNat_toNat, getD_eq_getElem?_getD, getElem?_eq_getElem (by omega)]
    rfl
  have hlow : UInt8.ofNat (be16 p k) = p[k + 1] := by
    rw [← UInt8.toNat_inj, UInt8.toNat_ofNat']
    have hvalue : p[k + 1].toNat = (p.getD (k + 1) 0).toNat := by
      rw [getD_eq_getElem?_getD, getElem?_eq_getElem hk]
      rfl
    rw [hvalue]
    unfold be16 Bytes.toUInt16
    omega
  unfold put16
  rw [hhigh, set_getElem_self, hlow, set_getElem_self]

theorem take_put16 {n : Nat} (v : Nat) (hk : n ≤ k) : (put16 p k v).take n = p.take n := by
  unfold put16
  rw [take_set_of_le (by omega), take_set_of_le hk]

theorem slice_put16 {start n : Nat} (v : Nat) (hk : start + n ≤ k) :
    slice (put16 p k v) start n = slice p start n := by
  have hslice : ∀ q : Bytes, slice q start n = (q.take (start + n)).drop start := by
    intro q
    rw [slice, drop_take, Nat.add_sub_cancel_left]
  rw [hslice, hslice, take_put16 v hk]

theorem wordSum_take_put16 {v : Nat} (heven : k % 2 = 0) (hk : k + 1 < h) (hh : h ≤ p.length)
    (hv : v < 65536) :
    wordSum ((put16 p k v).take h) + be16 p k = wordSum (p.take h) + v := by
  have hlength : 0 + k + 1 < (p.take h).length := by
    rw [length_take]
    omega
  have hput : put16 (p.take h) (0 + k) v = (put16 p k v).take h := by
    rw [Nat.zero_add, put16, put16, take_set, take_set]
  have hread : be16 (p.take h) (0 + k) = be16 p k := by
    unfold be16
    rw [Nat.zero_add, getD_eq_getElem?_getD, getD_eq_getElem?_getD,
      getD_eq_getElem?_getD, getD_eq_getElem?_getD, getElem?_take_of_lt (by omega),
      getElem?_take_of_lt hk]
  have hsum := wordSum_put16 hlength hv
  have hshare : ∀ w, sumShare k w = w := fun w => if_neg (by omega)
  rw [hput, hread, hshare, hshare, drop_zero, drop_zero] at hsum
  exact hsum

end Put

section Checksums

variable {p : Bytes} {h : Nat}

/-- The checksum of the header. -/
def headerChecksum (h : Nat) (p : Bytes) : Nat :=
  checksumFinish (wordSum ((put16 p 10 0).take h))

/-- What goes into the sum of a segment or a datagram besides its own bytes. -/
def pseudoSum (h : Nat) (p : Bytes) : Nat := wordSum (slice p 12 8) + byteAt p 9 + (p.length - h)

/-- How far behind the header the checksum of a transport stands. -/
def checksumOffset (protocol : Nat) : Nat := if protocol = 6 then 16 else if protocol = 17 then 6 else 2

/-- The checksum of the transport, over a pseudo header unless it is ICMP. -/
def transportChecksum (h : Nat) (p : Bytes) : Nat :=
  let zeroed := put16 p (h + checksumOffset (byteAt p 9)) 0
  let before := if byteAt p 9 = 1 then 0 else pseudoSum h p
  let checksum := checksumFinish (before + wordSum (zeroed.drop h))
  if byteAt p 9 = 17 ∧ checksum = 0 then 0xffff else checksum

/-- The packet with the checksum of its header. -/
def withHeader (h : Nat) (p : Bytes) : Bytes := put16 p 10 (headerChecksum h p)

/-- The packet with the checksum of its transport. -/
def withTransport (h : Nat) (p : Bytes) : Bytes :=
  put16 p (h + checksumOffset (byteAt p 9)) (transportChecksum h p)

/-- What the repair writes. -/
def repaired (p : Bytes) : Bytes :=
  let h := headerLength p
  if fragment p then withHeader h p else withTransport h (withHeader h p)

theorem headerLength_of_byte {q : Bytes} (hsame : byteAt q 0 = byteAt p 0) :
    headerLength q = headerLength p := by
  change byteAt q 0 % 16 * 4 = byteAt p 0 % 16 * 4
  rw [hsame]

theorem fragment_of_bytes {q : Bytes} (hhigh : byteAt q 6 = byteAt p 6)
    (hlow : byteAt q 7 = byteAt p 7) : fragment q = fragment p := by
  unfold fragment
  rw [be16_eq, be16_eq, hhigh, hlow]

theorem withHeader_byte (h : Nat) {k : Nat} (hk : k ≠ 10) (hk' : k ≠ 11) :
    byteAt (withHeader h p) k = byteAt p k := byteAt_put16 _ hk hk'

theorem withHeader_length (h : Nat) (p : Bytes) : (withHeader h p).length = p.length :=
  put16_length _ _ _

theorem withTransport_length (h : Nat) (p : Bytes) : (withTransport h p).length = p.length :=
  put16_length _ _ _

theorem slice_zero (p : Bytes) (n : Nat) : slice p 0 n = p.take n := by rw [slice, drop_zero]

theorem slice_rest (p : Bytes) (start : Nat) : slice p start (p.length - start) = p.drop start := by
  rw [slice, take_of_length_le (by rw [length_drop])]

theorem repairTransportIn_eq (hsize : p.length < 65536) (hh : 20 ≤ h) (hprotocol : byteAt p 9 ≠ 1)
    (hroom : h + checksumOffset (byteAt p 9) + 1 < p.length) :
    repairTransportIn h (byteAt p 9) (checksumOffset (byteAt p 9)) p = .ok (withTransport h p) := by
  unfold repairTransportIn withTransport transportChecksum
  generalize hk : checksumOffset (byteAt p 9) = k at hroom
  rw [store16_put16 hroom]
  simp only [Except.bind]
  have hlength : (put16 p (h + k) 0).length = p.length := put16_length _ _ _
  have hpseudo : slice (put16 p (h + k) 0) 12 8 = slice p 12 8 := slice_put16 0 (by omega)
  have hfirst : wordSum (slice p 12 8) ≤ 262140 := by
    have hle := wordSum_le (slice p 12 8)
    have hshort : (slice p 12 8).length ≤ 8 := length_take_le _ _
    omega
  have hbyte := (p.getD 9 0).toNat_lt
  change byteAt p 9 < 256 at hbyte
  have hrest := wordSum_slice_le (put16 p (h + k) 0) h (p.length - h) (by omega)
  rw [checksumAddIn_eq _ 8 12 0 (by omega) (by rw [hpseudo]; omega), hpseudo]
  simp only [Nat.zero_add]
  rw [add32_ok (by omega)]
  simp only
  rw [hlength, add32_ok (by omega)]
  simp only
  rw [checksumAddIn_eq _ (p.length - h) h _ (by omega) (by omega)]
  simp only
  rw [store16_put16 (by omega), put16_put16]
  have hsegment : slice (put16 p (h + k) 0) h (p.length - h) = (put16 p (h + k) 0).drop h := by
    rw [← hlength, slice_rest]
  rw [hsegment]
  simp only [if_neg hprotocol, pseudoSum]

theorem repairIcmpIn_eq (hsize : p.length < 65536) (hprotocol : byteAt p 9 = 1)
    (hroom : h + 3 < p.length) : repairIcmpIn h p = .ok (withTransport h p) := by
  have hk : checksumOffset (byteAt p 9) = 2 := by
    rw [hprotocol]
    rfl
  unfold repairIcmpIn withTransport transportChecksum
  rw [hk, store16_put16 (by omega)]
  simp only [Except.bind]
  have hlength : (put16 p (h + 2) 0).length = p.length := put16_length _ _ _
  have hrest := wordSum_slice_le (put16 p (h + 2) 0) h (p.length - h) (by omega)
  rw [hlength, checksumAddIn_eq _ (p.length - h) h 0 (by omega) (by omega)]
  simp only
  rw [store16_put16 (by omega), put16_put16]
  have hsegment : slice (put16 p (h + 2) 0) h (p.length - h) = (put16 p (h + 2) 0).drop h := by
    rw [← hlength, slice_rest]
  rw [hsegment, if_pos hprotocol, if_neg (by omega)]

theorem repairChecksumsIn_eq (p : Bytes) :
    repairChecksumsIn p = .ok (if ipv4Valid p then (true, repaired p) else (false, p)) := by
  unfold repairChecksumsIn
  rw [ipv4ValidIn_eq]
  simp only [Except.bind]
  split
  case isTrue hinvalid =>
    rw [hinvalid]
    rfl
  rename_i hnot
  have hvalid : ipv4Valid p = true := by simpa using hnot
  obtain ⟨hlow, hhigh, -⟩ := valid_header hvalid
  have hsize := valid_size hvalid
  have hheader : byteAt p 0 % 16 * 4 = headerLength p := rfl
  rw [hvalid, load_byteAt (by omega)]
  simp only [hheader, if_true]
  rw [store16_put16 (by omega)]
  simp only
  have hlength : (put16 p 10 0).length = p.length := put16_length _ _ _
  have hsum := wordSum_slice_le (put16 p 10 0) 0 (headerLength p) (by omega)
  rw [checksumAddIn_eq _ _ _ _ (by omega) (by omega)]
  simp only [slice_zero, Nat.zero_add]
  rw [store16_put16 (by omega), put16_put16]
  have hwith : put16 p 10 (checksumFinish (wordSum ((put16 p 10 0).take (headerLength p)))) =
      withHeader (headerLength p) p := rfl
  rw [hwith]
  simp only
  unfold repaired
  dsimp only
  have hfragment : fragment (withHeader (headerLength p) p) = fragment p :=
    fragment_of_bytes (withHeader_byte _ (by omega) (by omega))
      (withHeader_byte _ (by omega) (by omega))
  have hprotocol : byteAt (withHeader (headerLength p) p) 9 = byteAt p 9 :=
    withHeader_byte _ (by omega) (by omega)
  have hq := withHeader_length (headerLength p) p
  generalize withHeader (headerLength p) p = q at hfragment hprotocol hq
  have hoffset : fragment q = decide (be16 q 6 % 0x4000 ≠ 0) := rfl
  rw [load16_be16 (by omega)]
  simp only
  by_cases hfragmented : fragment p = true
  case pos =>
    rw [if_pos hfragmented]
    rw [hfragment, hfragmented] at hoffset
    rw [if_pos (of_decide_eq_true hoffset.symm)]
  have hwhole : fragment p = false := by simpa using hfragmented
  rw [if_neg hfragmented]
  rw [hfragment, hwhole] at hoffset
  rw [if_neg (of_decide_eq_false hoffset.symm), load_byteAt (by omega)]
  simp only
  rcases valid_transport hvalid hwhole with ⟨htcp, hroom, -⟩ | ⟨hudp, hroom⟩ | ⟨hicmp, hroom⟩
  · have hdone := @repairTransportIn_eq q (headerLength p) (by omega) hlow (by omega)
      (by rw [hprotocol, htcp]; change headerLength p + 16 + 1 < _; omega)
    rw [hprotocol, htcp] at hdone ⊢
    simp only
    change (repairTransportIn (headerLength p) 6 16 q).map _ = _
    rw [show repairTransportIn (headerLength p) 6 16 q = _ from hdone]
    rfl
  · have hdone := @repairTransportIn_eq q (headerLength p) (by omega) hlow (by omega)
      (by rw [hprotocol, hudp]; change headerLength p + 6 + 1 < _; omega)
    rw [hprotocol, hudp] at hdone ⊢
    simp only
    rw [show repairTransportIn (headerLength p) 17 6 q = _ from hdone]
    rfl
  · have hdone := @repairIcmpIn_eq q (headerLength p) (by omega) (by omega) (by omega)
    rw [hprotocol, hicmp]
    simp only
    rw [hdone]
    rfl

end Checksums

end Meshpn.Device
