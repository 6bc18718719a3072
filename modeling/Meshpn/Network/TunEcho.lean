import Meshpn.Network.IpPacketSafety

/-!
The echo reply for the own address of the TUN device. The header and the ICMP packet are
assembled in buffers from `allocUnsafe`, which keep what the memory held
before. Every byte of the header is written. Of the ICMP packet the bytes 4 to 7 are not,
which are the identifier and the sequence number: they are what the memory held.
-/

namespace Meshpn.Network.TunEcho

open Meshpn.Lib List
open Meshpn.Lib.Bytes
open Meshpn.Lib.InternetChecksum
open Meshpn.Network.IpPackets

/-- `Buffer.allocUnsafe(size)`, over the bytes that the memory holds. -/
def allocUnsafe (memory : Nat → UInt8) (size : Nat) : Bytes := (List.range size).map memory

/-- `source.copy(target, start)`. -/
def copyTo (source target : Bytes) (start : Nat) : Bytes :=
  target.take start ++ source ++ target.drop (start + source.length)

def internetChecksum16 (buf : Bytes) (off len : Nat) : Nat :=
  InternetChecksum.checksum ((buf.drop off).take len)

/-- The ICMP packet of the reply, before its checksum. -/
def fillIcmp (memory : Nat → UInt8) (icmpBody : Bytes) : Bytes :=
  let icmpPacket := ((allocUnsafe memory (8 + icmpBody.length)).set 0 0).set 1 0
  copyTo icmpBody (setUInt16 icmpPacket 0 2) 8

def buildIcmp (memory : Nat → UInt8) (icmpBody : Bytes) : Bytes :=
  let icmpPacket := fillIcmp memory icmpBody
  setUInt16 icmpPacket (internetChecksum16 icmpPacket 0 icmpPacket.length) 2

/-- The IP header of the reply, before its checksum. -/
def fillHeader (memory : Nat → UInt8) (pkt : Bytes) (icmpLength id : Nat) : Bytes :=
  let ipHeader := ((allocUnsafe memory 20).set 0 0x45).set 1 0
  let ipHeader := setUInt16 ipHeader (20 + icmpLength) 2
  let ipHeader := setUInt16 ipHeader (id % 65536) 4
  let ipHeader := ((setUInt16 ipHeader 0 6).set 8 64).set 9 1
  let ipHeader := setUInt16 ipHeader 0 10
  let ipHeader := copyTo ((pkt.drop 16).take 4) ipHeader 12
  copyTo ((pkt.drop 12).take 4) ipHeader 16

def buildHeader (memory : Nat → UInt8) (pkt : Bytes) (icmpLength id : Nat) : Bytes :=
  let ipHeader := fillHeader memory pkt icmpLength id
  setUInt16 ipHeader (internetChecksum16 ipHeader 0 20) 10

/-- `tryBuildTunIcmpEchoReplyForLocalIp`: the memory of the two buffers, and the value of
`nextIpIdentification()`. -/
def tryBuildTunIcmpEchoReplyForLocalIp (icmpMemory headerMemory : Nat → UInt8)
    (pkt localDst4 : Bytes) (nextIpIdentification : Nat) : Option Bytes :=
  if pkt.length < 28 then none
  else if (byteAt pkt 0).toNat >>> 4 ≠ 4 then none
  else if (byteAt pkt 0).toNat % 16 ≠ 5 then none
  else
    let totalLen := uint16At pkt 2
    if totalLen < 28 ∨ pkt.length < totalLen then none
    else if uint16At pkt 6 % 8192 ≠ 0 then none
    else if byteAt pkt 9 ≠ 1 then none
    else if byteAt pkt 16 ≠ byteAt localDst4 0 ∨ byteAt pkt 17 ≠ byteAt localDst4 1 ∨
        byteAt pkt 18 ≠ byteAt localDst4 2 ∨ byteAt pkt 19 ≠ byteAt localDst4 3 then none
    else if byteAt pkt 20 ≠ 8 ∨ byteAt pkt 21 ≠ 0 then none
    else
      let icmpTotal := totalLen - 20
      if icmpTotal < 8 then none
      else
        let icmpBody := (pkt.take (20 + icmpTotal)).drop 28
        let icmpPacket := buildIcmp icmpMemory icmpBody
        some (buildHeader headerMemory pkt icmpPacket.length nextIpIdentification ++ icmpPacket)

/-- The ICMP packet behind its checksum: the identifier and the sequence number come from the
memory. -/
def icmpBack (memory : Nat → UInt8) (icmpBody : Bytes) : Bytes :=
  [memory 4, memory 5, memory 6, memory 7] ++ icmpBody

theorem internetChecksum16_all (buffer : Bytes) :
    internetChecksum16 buffer 0 buffer.length = checksum buffer := by
  rw [internetChecksum16, drop_zero, take_length]

theorem fillIcmp_eq (memory : Nat → UInt8) (icmpBody : Bytes) :
    fillIcmp memory icmpBody = [0, 0] ++ ofUInt16 0 ++ icmpBack memory icmpBody := by
  let front := [memory 0, memory 1, memory 2, memory 3, memory 4, memory 5, memory 6, memory 7]
  let tail := ((List.range icmpBody.length).map (8 + ·)).map memory
  let written := [0, 0] ++ ofUInt16 0 ++ [memory 4, memory 5, memory 6, memory 7]
  have hmemory : allocUnsafe memory (8 + icmpBody.length) = front ++ tail := by
    rw [allocUnsafe, range_add, map_append]
    rfl
  have htail : tail.length = icmpBody.length := by simp [tail]
  have hheader : setUInt16 (((front ++ tail).set 0 0).set 1 0) 0 2 = written ++ tail := rfl
  have hend : (written ++ tail).drop (8 + icmpBody.length) = [] := by
    apply drop_eq_nil_of_le
    rw [length_append, htail]
    exact Nat.le_refl _
  rw [fillIcmp, hmemory, hheader, copyTo, hend, append_nil]
  rfl

theorem buildIcmp_eq (memory : Nat → UInt8) (icmpBody : Bytes) :
    buildIcmp memory icmpBody =
      [0, 0] ++ ofUInt16 (checksum ([0, 0] ++ ofUInt16 0 ++ icmpBack memory icmpBody)) ++
        icmpBack memory icmpBody := by
  rw [buildIcmp, fillIcmp_eq, internetChecksum16_all]
  exact setUInt16_field [0, 0] _ 0 _

/-- What stands in the header before its checksum. -/
def echoFront (icmpLength id : Nat) : Bytes :=
  [0x45, 0] ++ ofUInt16 (20 + icmpLength) ++ ofUInt16 (id % 65536) ++ ofUInt16 0 ++ [64, 1]

/-- The addresses of the request, swapped. -/
def swapped (pkt : Bytes) : Bytes := (pkt.drop 16).take 4 ++ (pkt.drop 12).take 4

theorem address_bytes {pkt : Bytes} (i : Nat) (hlong : i + 4 ≤ pkt.length) :
    ∃ a b c d, (pkt.drop i).take 4 = [a, b, c, d] := by
  have hlength : ((pkt.drop i).take 4).length = 4 := by
    rw [length_take, length_drop]
    omega
  exact length_eq_four.mp hlength

theorem fillHeader_eq (memory : Nat → UInt8) {pkt : Bytes} (icmpLength id : Nat)
    (hlong : 20 ≤ pkt.length) :
    fillHeader memory pkt icmpLength id =
      echoFront icmpLength id ++ ofUInt16 0 ++ swapped pkt := by
  obtain ⟨a, b, c, d, hsrc⟩ := address_bytes 12 (show 12 + 4 ≤ pkt.length by omega)
  obtain ⟨e, f, g, h, hdst⟩ := address_bytes 16 (show 16 + 4 ≤ pkt.length by omega)
  have hmemory : allocUnsafe memory 20 = (List.range 20).map memory := rfl
  simp only [range_succ, range_zero, map_cons, map_nil,
    nil_append, cons_append] at hmemory
  rw [fillHeader, swapped, hsrc, hdst, hmemory]
  simp [setUInt16, copyTo, echoFront, ofUInt16]

theorem buildHeader_eq (memory : Nat → UInt8) {pkt : Bytes} (icmpLength id : Nat)
    (hlong : 20 ≤ pkt.length) :
    buildHeader memory pkt icmpLength id =
      echoFront icmpLength id ++
        ofUInt16 (checksum (echoFront icmpLength id ++ ofUInt16 0 ++ swapped pkt)) ++
        swapped pkt := by
  have hlength : (fillHeader memory pkt icmpLength id).length = 20 := by
    rw [fillHeader_eq memory icmpLength id hlong]
    simp only [echoFront, swapped, length_append, length_cons, length_nil,
      ofUInt16_length, length_take, length_drop]
    omega
  have hall := internetChecksum16_all (fillHeader memory pkt icmpLength id)
  rw [hlength, fillHeader_eq memory icmpLength id hlong] at hall
  rw [buildHeader, fillHeader_eq memory icmpLength id hlong, hall]
  exact setUInt16_field (echoFront icmpLength id) _ 0 _

/-- The data of the request, without what the buffer holds behind the total length. -/
def echoData (pkt : Bytes) : Bytes := (pkt.take (uint16At pkt 2)).drop 28

/-- The ICMP packet of the reply. -/
def echoIcmp (memory : Nat → UInt8) (pkt : Bytes) : Bytes :=
  [0, 0] ++ ofUInt16 (checksum ([0, 0] ++ ofUInt16 0 ++ icmpBack memory (echoData pkt))) ++
    icmpBack memory (echoData pkt)

/-- The header of the reply. -/
def echoHeader (pkt : Bytes) (icmpLength id : Nat) : Bytes :=
  echoFront icmpLength id ++
    ofUInt16 (checksum (echoFront icmpLength id ++ ofUInt16 0 ++ swapped pkt)) ++ swapped pkt

/-- The reply over a memory. -/
def echoReply (memory : Nat → UInt8) (pkt : Bytes) (id : Nat) : Bytes :=
  echoHeader pkt (echoIcmp memory pkt).length id ++ echoIcmp memory pkt

theorem echoIcmp_length (memory : Nat → UInt8) {pkt : Bytes} (htotal : 28 ≤ uint16At pkt 2)
    (hroom : uint16At pkt 2 ≤ pkt.length) :
    (echoIcmp memory pkt).length = uint16At pkt 2 - 20 := by
  simp only [echoIcmp, icmpBack, echoData, length_append, length_cons,
    length_nil, ofUInt16_length, length_drop, length_take]
  omega

section Reply

variable {icmpMemory headerMemory : Nat → UInt8} {pkt localDst4 reply : Bytes} {id : Nat}

theorem answered (hreply : tryBuildTunIcmpEchoReplyForLocalIp icmpMemory headerMemory pkt
      localDst4 id = some reply) :
    28 ≤ uint16At pkt 2 ∧ uint16At pkt 2 ≤ pkt.length ∧
      ∀ memory header, tryBuildTunIcmpEchoReplyForLocalIp memory header pkt localDst4 id =
        some (echoReply memory pkt id) := by
  rw [tryBuildTunIcmpEchoReplyForLocalIp] at hreply
  simp only at hreply
  split_ifs at hreply with hshort hversion hwords htotal hfragment hprotocol hlocal hkind htiny
  refine ⟨by omega, by omega, fun memory header => ?_⟩
  have hbody : (pkt.take (20 + (uint16At pkt 2 - 20))).drop 28 = echoData pkt := by
    rw [echoData, Nat.add_sub_cancel' (by omega)]
  rw [tryBuildTunIcmpEchoReplyForLocalIp]
  simp only [if_neg hshort, if_neg hversion, if_neg hwords, if_neg htotal, if_neg hfragment,
    if_neg hprotocol, if_neg hlocal, if_neg hkind, if_neg htiny, hbody]
  rw [buildIcmp_eq, buildHeader_eq _ _ _ (by omega)]
  rfl

/-- What a receiver expects of an answer, besides the identifier and the sequence number. -/
structure Answer (pkt reply : Bytes) : Prop where
  length : reply.length = 20 + (uint16At pkt 2 - 20)
  total : uint16At reply 2 = reply.length
  version : byteAt reply 0 = 0x45
  protocol : byteAt reply 9 = Protocols.icmp
  source : (reply.drop 12).take 4 = (pkt.drop 16).take 4
  destination : (reply.drop 16).take 4 = (pkt.drop 12).take 4
  kind : byteAt reply 20 = 0 ∧ byteAt reply 21 = 0
  data : reply.drop 28 = echoData pkt
  ipSum : fold (addWords 0 (reply.take 20)) = 0xffff
  icmpSum : fold (addWords 0 (reply.drop 20)) = 0xffff

theorem echoReply_answer (memory : Nat → UInt8) (id : Nat) (htotal : 28 ≤ uint16At pkt 2)
    (hroom : uint16At pkt 2 ≤ pkt.length) : Answer pkt (echoReply memory pkt id) := by
  obtain ⟨a, b, c, d, hsrc⟩ := address_bytes 12 (show 12 + 4 ≤ pkt.length by omega)
  obtain ⟨e, f, g, h, hdst⟩ := address_bytes 16 (show 16 + 4 ≤ pkt.length by omega)
  have hswapped : swapped pkt = [e, f, g, h, a, b, c, d] := by
    rw [swapped, hsrc, hdst]
    rfl
  have hheader : (echoHeader pkt (echoIcmp memory pkt).length id).length = 20 := by
    rw [echoHeader, hswapped]
    rfl
  have hicmp := echoIcmp_length memory htotal hroom
  have hlength : (echoReply memory pkt id).length = 20 + (uint16At pkt 2 - 20) := by
    rw [echoReply, length_append, hheader, hicmp]
  have hword : uint16At pkt 2 < 65536 := toUInt16_lt _ _
  constructor
  case length => exact hlength
  case total =>
    rw [hlength, ← hicmp]
    exact toUInt16_ofNat (by omega)
  case version => rfl
  case protocol => rfl
  case source =>
    rw [echoReply, echoHeader, hswapped, hdst]
    rfl
  case destination =>
    rw [echoReply, echoHeader, hswapped, hsrc]
    rfl
  case kind =>
    rw [echoReply, echoHeader, hswapped]
    exact ⟨rfl, rfl⟩
  case data =>
    rw [echoReply, ← drop_drop (i := 8) (j := 20), drop_left' hheader]
    rfl
  case ipSum =>
    rw [echoReply, take_left' hheader]
    exact fold_field (by simp [echoFront])
  case icmpSum =>
    rw [echoReply, drop_left' hheader]
    exact fold_field rfl

/-- The reply has the identifier and the sequence number of the request. -/
def SameEcho (pkt reply : Bytes) : Prop := (reply.drop 24).take 4 = (pkt.drop 24).take 4

instance : Decidable (SameEcho pkt reply) := inferInstanceAs (Decidable (_ = _))

theorem echoReply_memory (memory : Nat → UInt8) (id : Nat) (htotal : 28 ≤ uint16At pkt 2)
    (hroom : uint16At pkt 2 ≤ pkt.length) :
    ((echoReply memory pkt id).drop 24).take 4 = [memory 4, memory 5, memory 6, memory 7] := by
  have hheader : (echoHeader pkt (echoIcmp memory pkt).length id).length = 20 := by
    have hlength := (echoReply_answer memory id htotal hroom).length
    rw [echoReply, length_append, echoIcmp_length memory htotal hroom] at hlength
    rw [echoIcmp_length memory htotal hroom]
    omega
  rw [echoReply, ← drop_drop (i := 4) (j := 20), drop_left' hheader]
  rfl

/-- Every reply is an answer in all but the identifier and the sequence number. These are right
exactly where the memory of the ICMP packet holds them already, so no reply is free of the
memory, and the memory of the header never matters. -/
theorem reply_answers (icmpMemory headerMemory : Nat → UInt8) (pkt localDst4 : Bytes) (id : Nat)
    (reply : Bytes) (hreply : tryBuildTunIcmpEchoReplyForLocalIp icmpMemory headerMemory pkt
      localDst4 id = some reply) :
    Answer pkt reply ∧
      (SameEcho pkt reply ↔
        (pkt.drop 24).take 4 = [icmpMemory 4, icmpMemory 5, icmpMemory 6, icmpMemory 7]) ∧
      (∀ header, tryBuildTunIcmpEchoReplyForLocalIp icmpMemory header pkt localDst4 id =
        some reply) ∧
      ∃ memory, tryBuildTunIcmpEchoReplyForLocalIp memory headerMemory pkt localDst4 id ≠
        some reply := by
  obtain ⟨htotal, hroom, hany⟩ := answered hreply
  have hvalue : echoReply icmpMemory pkt id = reply :=
    Option.some.inj ((hany icmpMemory headerMemory).symm.trans hreply)
  have hheld := echoReply_memory icmpMemory id htotal hroom
  rw [hvalue] at hheld
  refine ⟨hvalue ▸ echoReply_answer icmpMemory id htotal hroom, ?_, ?_, ?_⟩
  · rw [SameEcho, hheld]
    exact eq_comm
  · intro header
    rw [hany icmpMemory header, hvalue]
  · refine ⟨fun i => icmpMemory i + 1, ?_⟩
    intro hsame
    rw [hany] at hsame
    have hother := echoReply_memory (fun i => icmpMemory i + 1) id htotal hroom
    rw [Option.some.inj hsame, hheld] at hother
    have hbyte : icmpMemory 4 = icmpMemory 4 + 1 := (List.cons.inj hother).1
    simp at hbyte

/-- A request of 30 bytes in a buffer of 31. -/
def pingRequest : Bytes :=
  [0x45, 0, 0, 30, 0, 1, 0, 0, 64, 1, 0, 0, 10, 0, 0, 9, 10, 0, 0, 1, 8, 0, 0, 0, 0x12, 0x34, 0,
    7, 0xaa, 0xbb, 0xcc]

/-- Memory that holds the identifier and the sequence number already. -/
theorem reply_answers_held :
    ∃ reply, tryBuildTunIcmpEchoReplyForLocalIp (fun i => [0, 0, 0, 0, 0x12, 0x34, 0, 7].getD i 0)
        (fun _ => 0) pingRequest [10, 0, 0, 1] 5 = some reply ∧
      SameEcho pingRequest reply := by
  refine ⟨_, rfl, ?_⟩
  exact (reply_answers _ (fun _ => 0) pingRequest [10, 0, 0, 1] 5 _ rfl).2.1.mpr (by decide)

/-- Over empty memory the same request is answered with the identifier and the sequence number
zero. -/
theorem identifier_lost :
    ∃ reply, tryBuildTunIcmpEchoReplyForLocalIp (fun _ => 0) (fun _ => 0) pingRequest
        [10, 0, 0, 1] 5 = some reply ∧
      (reply.drop 24).take 4 = [0, 0, 0, 0] ∧ ¬ SameEcho pingRequest reply := by
  refine ⟨_, rfl, ?_⟩
  decide +kernel

end Reply

end Meshpn.Network.TunEcho
