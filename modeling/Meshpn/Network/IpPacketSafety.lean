import Meshpn.Network.SynOptions

/-!
Packets that are built arrive as they were meant: the parser gets addresses, ports,
numbers, flags and data back, the checksums verify, no sum reaches 2^31, and the
options of a SYN-ACK are those that were negotiated. The checksum of a UDP
datagram is written as it is computed, so it is zero where the words of the
datagram add up to a multiple of 65535, and a receiver takes that for no
checksum at all.
-/

namespace Meshpn.Network.IpPackets

open Meshpn.Lib
open Meshpn.Lib.Bytes
open Meshpn.Lib.InternetChecksum

/-- The pseudo-header and the transport of a packet without options of IP. -/
def receivedBuffer (packet : Bytes) : Bytes :=
  (packet.drop 12).take 8 ++ [0, byteAt packet 9] ++ ofUInt16 (packet.length - 20) ++
    packet.drop 20

structure ChecksumsVerify (packet : Bytes) : Prop where
  ip : fold (addWords 0 (packet.take 20)) = 0xffff
  transport : fold (addWords 0 (receivedBuffer packet)) = 0xffff

/-- The sums over the pseudo-header and over the header stay below 2^31. -/
def SmallSums (protocol : UInt8) (srcIp dstIp : List Char) (segment : Bytes) (id : Nat) : Prop :=
  (∀ s ∈ intermediate (checksumBuffer protocol srcIp dstIp segment), s < 2147483648) ∧
    ∀ s ∈ intermediate (ipHeader srcIp dstIp protocol (20 + segment.length) id 0), s < 2147483648

/-- The fields that every transport has. -/
structure Recovered (p : IpPacket) (protocol : UInt8) (src dst : Address)
    (srcPort dstPort : UInt16) (data : Bytes) : Prop where
  protocol : p.protocol = protocol
  srcIp : p.srcIp = src.text
  dstIp : p.dstIp = dst.text
  srcPort : p.srcPort = srcPort.toNat
  dstPort : p.dstPort = dstPort.toNat
  data : p.data = data

section Delivery

variable (random : Nat) (src dst : Address) (srcPort dstPort : UInt16) (data : Bytes)

/-- A TCP packet is built, is parsed to what it was built from, and verifies. -/
def TcpDelivered (seq ack : UInt32) (flags : UInt8) (options : Option Bytes) : Prop :=
  ∃ segment packet p fields,
    buildTCPSegment srcPort.toNat dstPort.toNat seq.toNat ack.toNat flags data 65535 options =
        some segment ∧
      buildTCPPacket random src.text dst.text srcPort.toNat dstPort.toNat seq.toNat ack.toNat
        flags data options = some packet ∧
      parseIPPacket packet = .valid p ∧ Recovered p Protocols.tcp src dst srcPort dstPort data ∧
      p.transport = .tcp fields ∧ fields.tcpSeq = seq.toNat ∧ fields.tcpAck = ack.toNat ∧
      fields.tcpFlags = flags ∧ ChecksumsVerify packet ∧
      SmallSums Protocols.tcp src.text dst.text segment random

/-- A UDP packet is built, is parsed to what it was built from, and verifies. -/
def UdpDelivered : Prop :=
  ∃ datagram packet p,
    buildUDPDatagram srcPort.toNat dstPort.toNat data = some datagram ∧
      buildUDPPacket random src.text dst.text srcPort.toNat dstPort.toNat data = some packet ∧
      parseIPPacket packet = .valid p ∧ Recovered p Protocols.udp src dst srcPort dstPort data ∧
      ChecksumsVerify packet ∧ SmallSums Protocols.udp src.text dst.text datagram random

/-- The packet carries a checksum that is not zero. -/
def UdpChecksumSent : Prop :=
  ∃ packet,
    buildUDPPacket random src.text dst.text srcPort.toNat dstPort.toNat data = some packet ∧
      uint16At packet 26 ≠ 0

/-- The words of the pseudo-header and of the datagram without its checksum. -/
def udpWords : Nat :=
  wordSum (src.bytes ++ dst.bytes) + 17 + 2 * (8 + data.length) + srcPort.toNat +
    dstPort.toNat + wordSum data

/-- The SYN-ACK that answers a negotiation is read as that negotiation, with the own clock as
its timestamp and the peer's as the echo. -/
def SynAckRead (seq ack : UInt32) (flags : UInt8) (seconds : Nat) (negotiation : SynOptions) :
    Prop :=
  (∃ packet,
    buildTCPPacket random src.text dst.text srcPort.toNat dstPort.toNat seq.toNat ack.toNat
        flags data (some (buildSynAckOptions seconds negotiation)) = some packet ∧
      parseTcpSynOptions packet = some
        { mss := some (min (if negotiation.mss.getD 0 = 0 then 1360 else negotiation.mss.getD 0)
            1360)
          wscale := negotiation.wscale.filter (· ≤ 14)
          sackPerm := negotiation.sackPerm
          tsval := negotiation.tsval.map fun _ => toUint32 seconds }) ∧
    ∀ tsval, negotiation.tsval = some tsval →
      [8, 10] ++ ofUInt32 (toUint32 seconds) ++ ofUInt32 (toUint32 tsval) <:+:
        buildSynAckOptions seconds negotiation

end Delivery

section Packets

variable {random : Nat} {src dst : Address} {srcPort dstPort : UInt16} {data : Bytes}

theorem receivedBuffer_eq (protocol : UInt8) (totalLen id checksum : Nat) (segment : Bytes) :
    receivedBuffer (ipHeader src.text dst.text protocol totalLen id checksum ++ segment) =
      src.bytes ++ dst.bytes ++ [0, protocol] ++ ofUInt16 segment.length ++ segment := by
  let header := ipHeader src.text dst.text protocol totalLen id checksum
  have hlength : (header ++ segment).length - 20 = segment.length := by
    rw [List.length_append, ipHeader_length, Nat.add_sub_cancel_left]
  have hsegment : (header ++ segment).drop 20 = segment := List.drop_left' rfl
  have hprotocol : byteAt (header ++ segment) 9 = protocol := rfl
  have haddresses : ((header ++ segment).drop 12).take 8 = src.bytes ++ dst.bytes := by
    simp only [header, ipHeader_eq, ipParts_text]
    rfl
  rw [receivedBuffer, hlength, hsegment, hprotocol, haddresses]

theorem checksums_verify (protocol : UInt8) {front back : Bytes}
    (heven : front.length % 2 = 0) {totalLen id : Nat}
    (hfits : 20 + (front ++ ofUInt16 0 ++ back).length ≤ 65535) :
    ChecksumsVerify
      (ipHeader src.text dst.text protocol totalLen id
          (calculateIPChecksum (ipHeader src.text dst.text protocol totalLen id 0)) ++
        (front ++ ofUInt16 (calculateIPChecksum
          (checksumBuffer protocol src.text dst.text (front ++ ofUInt16 0 ++ back))) ++ back)) := by
  let buffer := checksumBuffer protocol src.text dst.text (front ++ ofUInt16 0 ++ back)
  let segment := front ++ ofUInt16 (checksum buffer) ++ back
  have hlength : segment.length = (front ++ ofUInt16 0 ++ back).length := by
    simp only [segment, List.length_append, ofUInt16_length]
  have hprotocol : wordSum [0, protocol] = protocol.toNat := by
    simp only [wordSum, toUInt16, UInt8.toNat_zero]
    omega
  constructor
  case ip =>
    rw [List.take_left' (ipHeader_length protocol src.text dst.text)]
    exact header_folds protocol src.text dst.text
  case transport =>
    apply fold_with_checksum buffer
    change addWords 0 (receivedBuffer (_ ++ segment)) = wordSum buffer + checksum buffer
    rw [addWords_eq, Nat.zero_add, receivedBuffer_eq, hlength,
      wordSum_append _ (by simp), wordSum_append _ (by simp), wordSum_append _ (by simp),
      hprotocol, wordSum_ofUInt16 (by omega), wordSum_field back heven (checksum_lt buffer),
      wordSum_checksumBuffer protocol src dst (by omega)]
    omega

theorem smallSums (protocol : UInt8) (srcIp dstIp : List Char) {segment : Bytes} (id : Nat)
    (hfits : 20 + segment.length ≤ 65535) : SmallSums protocol srcIp dstIp segment id :=
  ⟨fun _ => segment_sums protocol srcIp dstIp hfits,
    fun _ => header_sums srcIp dstIp protocol (20 + segment.length) id⟩

theorem calculateTransportChecksum_eq (protocol : UInt8) (srcIp dstIp : List Char)
    {segment : Bytes} (hfits : segment.length < 65536) :
    calculateTransportChecksum protocol srcIp dstIp segment =
      some (calculateIPChecksum (checksumBuffer protocol srcIp dstIp segment)) :=
  if_pos hfits

section Tcp

variable {seq ack : UInt32} {flags : UInt8} {options : Option Bytes}

/-- The segment of the packet with the checksum that is written. -/
def sentTcp (src dst : Address) (srcPort dstPort : UInt16) (seq ack : UInt32) (flags : UInt8)
    (optPart data : Bytes) : Bytes :=
  tcpBytes srcPort.toNat dstPort.toNat seq.toNat ack.toNat flags optPart data
    (calculateIPChecksum (checksumBuffer Protocols.tcp src.text dst.text
      (tcpBytes srcPort.toNat dstPort.toNat seq.toNat ack.toNat flags optPart data 0)))

theorem buildTCPPacket_eq (hrandom : random < 65536)
    (hfits : 20 + (tcpHeaderLength (options.getD []) + data.length) ≤ 65535) :
    buildTCPPacket random src.text dst.text srcPort.toNat dstPort.toNat seq.toNat ack.toNat
        flags data options =
      some (ipHeader src.text dst.text Protocols.tcp
          (20 + (tcpHeaderLength (options.getD []) + data.length)) random
          (calculateIPChecksum (ipHeader src.text dst.text Protocols.tcp
            (20 + (tcpHeaderLength (options.getD []) + data.length)) random 0)) ++
        sentTcp src dst srcPort dstPort seq ack flags (options.getD []) data) := by
  let optPart := options.getD []
  let segment := tcpBytes srcPort.toNat dstPort.toNat seq.toNat ack.toNat flags optPart data 0
  have hfits : 20 + (tcpHeaderLength optPart + data.length) ≤ 65535 := hfits
  have hlength : segment.length = tcpHeaderLength optPart + data.length :=
    tcpBytes_length _ _ _ _ _ _ _ _
  have hsent : (sentTcp src dst srcPort dstPort seq ack flags optPart data).length =
      tcpHeaderLength optPart + data.length := tcpBytes_length _ _ _ _ _ _ _ _
  have hwrite : setUInt16 segment
      (calculateIPChecksum (checksumBuffer Protocols.tcp src.text dst.text segment)) 16 =
        sentTcp src dst srcPort dstPort seq ack flags optPart data :=
    setUInt16_field (tcpFront srcPort.toNat dstPort.toNat seq.toNat ack.toNat flags optPart) _ _ _
  have hsum := calculateTransportChecksum_eq Protocols.tcp src.text dst.text
    (show segment.length < 65536 by omega)
  have hpacket := buildIPPacket_eq Protocols.tcp src.text dst.text hrandom
    (show 20 + (sentTcp src dst srcPort dstPort seq ack flags optPart data).length ≤ 65535 by
      omega)
  rw [buildTCPPacket, buildTCPSegment_eq _ _ _ _ _ _ _ srcPort.toNat_lt dstPort.toNat_lt]
  change (calculateTransportChecksum Protocols.tcp src.text dst.text segment).bind _ = _
  rw [hsum, Option.bind_some, hwrite, hpacket, hsent]

variable {totalLen id checksum : Nat} {optPart : Bytes}

theorem parse_tcp (sum : Nat)
    (htotal : totalLen < 65536) (hid : id < 65536) (hoptions : optPart.length ≤ 40) :
    ∃ p fields,
      parseIPPacket (ipHeader src.text dst.text Protocols.tcp totalLen id checksum ++
          tcpBytes srcPort.toNat dstPort.toNat seq.toNat ack.toNat flags optPart data sum) =
        .valid p ∧
      Recovered p Protocols.tcp src dst srcPort dstPort data ∧ p.transport = .tcp fields ∧
      fields.tcpSeq = seq.toNat ∧ fields.tcpAck = ack.toNat ∧ fields.tcpFlags = flags := by
  let segment := tcpBytes srcPort.toNat dstPort.toNat seq.toNat ack.toNat flags optPart data sum
  have htwenty : 20 ≤ segment.length := by
    rw [tcpBytes_length, tcpHeaderLength]
    omega
  have hexact : ∀ n : UInt32, toUint32 n.toNat = n.toNat := by
    intro n
    have hn := n.toNat_lt
    unfold toUint32
    omega
  have hread := readTcp_tcpBytes srcPort.toNat dstPort.toNat seq.toNat ack.toNat flags data sum
    hoptions
  have hsrcPort : uint16At segment 0 = srcPort.toNat := toUInt16_ofNat srcPort.toNat_lt
  have hdstPort : uint16At segment 2 = dstPort.toNat := toUInt16_ofNat dstPort.toNat_lt
  have hdata : segment.drop (tcpHeaderLength optPart) = data := tcpBytes_drop _ _ _ _ _ _ _
  refine ⟨_, _, (parse_header src dst Protocols.tcp htotal hid).trans
    (congrArg Parsed.valid (readTransport_tcp rfl rfl htwenty)), ?_, rfl, ?_, ?_, ?_⟩
  · refine ⟨rfl, rfl, rfl, hsrcPort, hdstPort, ?_⟩
    change segment.drop (readTcp segment 0).tcpDataOffset = data
    rw [hread, hdata]
  · rw [hread]
    exact hexact seq
  · rw [hread]
    exact hexact ack
  · rw [hread]

theorem tcp_delivered (hrandom : random < 65535) (hoptions : (options.getD []).length ≤ 40)
    (hfits : 20 + (tcpHeaderLength (options.getD []) + data.length) ≤ 65535) :
    TcpDelivered random src dst srcPort dstPort data seq ack flags options := by
  obtain ⟨p, fields, hparse, hrecovered, htransport, hseq, hack, hflags⟩ :=
    parse_tcp _ (show 20 + (tcpHeaderLength (options.getD []) + data.length) < 65536 by omega)
      (show random < 65536 by omega) hoptions
  have hlength := tcpBytes_length srcPort.toNat dstPort.toNat seq.toNat ack.toNat flags
    (options.getD []) data 0
  refine ⟨_, _, p, fields, buildTCPSegment_eq _ _ _ _ _ _ _ srcPort.toNat_lt dstPort.toNat_lt,
    buildTCPPacket_eq (by omega) hfits, hparse, hrecovered, htransport, hseq, hack, hflags,
    checksums_verify Protocols.tcp (by rw [tcpFront_length]) ?_,
    smallSums Protocols.tcp _ _ random ?_⟩
  · exact hlength ▸ hfits
  · exact hlength ▸ hfits

theorem options_ahead (sum : Nat)
    (hwords : wordPad (20 + optPart.length) = 0) :
    Ahead (ipHeader src.text dst.text Protocols.tcp totalLen id checksum ++
        tcpBytes srcPort.toNat dstPort.toNat seq.toNat ack.toNat flags optPart data sum)
      (20 + tcpHeaderLength optPart) 40 optPart := by
  constructor
  · rw [tcpHeaderLength, hwords]
    omega
  · refine ⟨data, ?_⟩
    rw [tcpBytes, tcpBack, hwords, List.replicate_zero, List.append_nil]
    rfl

theorem parse_synOptions (sum : Nat)
    (hoptions : optPart.length ≤ 40) :
    parseTcpSynOptions (ipHeader src.text dst.text Protocols.tcp totalLen id checksum ++
        tcpBytes srcPort.toNat dstPort.toNat seq.toNat ack.toNat flags optPart data sum) =
      some (optionsFrom (ipHeader src.text dst.text Protocols.tcp totalLen id checksum ++
        tcpBytes srcPort.toNat dstPort.toNat seq.toNat ack.toNat flags optPart data sum)
        (20 + tcpHeaderLength optPart) 40 .empty) := by
  let header := ipHeader src.text dst.text Protocols.tcp totalLen id checksum
  let segment := tcpBytes srcPort.toNat dstPort.toNat seq.toNat ack.toNat flags optPart data sum
  have hlength : (header ++ segment).length = 20 + (tcpHeaderLength optPart + data.length) := by
    rw [List.length_append, ipHeader_length, tcpBytes_length]
  have htwenty : 20 ≤ tcpHeaderLength optPart := by
    unfold tcpHeaderLength
    omega
  have hfirst : byteAt (header ++ segment) 0 = 0x45 := rfl
  have hihl : (byteAt (header ++ segment) 0).toNat % 16 * 4 = 20 := by
    rw [hfirst]
    decide
  have hprotocol : byteAt (header ++ segment) 9 = Protocols.tcp := rfl
  have hread := readTcp_tcpBytes srcPort.toNat dstPort.toNat seq.toNat ack.toNat flags data sum
    hoptions
  have hthl : ((byteAt (header ++ segment) (20 + 12)).toNat >>> 4) % 16 * 4 =
      tcpHeaderLength optPart := congrArg TcpFields.tcpDataOffset hread
  have hshort : ¬ (header ++ segment).length < 20 := by omega
  have hother : ¬ ((header ++ segment).length < 20 + 20 ∨
      byteAt (header ++ segment) 9 ≠ Protocols.tcp) := by
    rw [hprotocol]
    simp only [ne_eq, not_true_eq_false, or_false]
    omega
  have hbad : ¬ (tcpHeaderLength optPart < 20 ∨
      (header ++ segment).length < 20 + tcpHeaderLength optPart) := by omega
  change parseTcpSynOptions (header ++ segment) = some (optionsFrom (header ++ segment) _ _ _)
  rw [parseTcpSynOptions, if_neg hshort]
  simp only [hihl, if_neg hother, hthl, if_neg hbad]

theorem buildSynAckOptions_length (seconds : Nat) (negotiation : SynOptions) :
    (buildSynAckOptions seconds negotiation).length ≤ 40 ∧
      wordPad (20 + (buildSynAckOptions seconds negotiation).length) = 0 := by
  have hmss : (mssChunk negotiation.mss).length = 4 := rfl
  have hsack : (sackChunk negotiation.sackPerm).length ≤ 2 := by
    unfold sackChunk
    split <;> decide
  have htimestamp : (timestampChunk seconds negotiation.tsval).length ≤ 10 := by
    unfold timestampChunk
    split
    · exact Nat.le_refl 10
    · exact Nat.zero_le 10
  have hwscale : (wscaleChunk negotiation.wscale).length ≤ 7 := by
    unfold wscaleChunk
    split
    · split
      · exact Nat.le_refl 7
      · exact Nat.zero_le 7
    · exact Nat.zero_le 7
  simp only [buildSynAckOptions, List.length_append, List.length_replicate, hmss, wordPad]
  omega

theorem synAck_read {seconds : Nat} {negotiation : SynOptions} (hrandom : random < 65535)
    (hfits : 20 + (tcpHeaderLength (buildSynAckOptions seconds negotiation) + data.length) ≤
      65535) :
    SynAckRead random src dst srcPort dstPort data seq ack flags seconds negotiation := by
  obtain ⟨hshort, hwords⟩ := buildSynAckOptions_length seconds negotiation
  constructor
  · have hmss : answeredMss negotiation.mss =
        min (if negotiation.mss.getD 0 = 0 then 1360 else negotiation.mss.getD 0) 1360 := by
      unfold answeredMss
      split <;> omega
    refine ⟨_, buildTCPPacket_eq (by omega) hfits, ?_⟩
    rw [← hmss]
    exact (parse_synOptions _ hshort).trans
      (congrArg some (optionsFrom_synAck (options_ahead _ hwords)))
  · intro tsval htsval
    let front := mssChunk negotiation.mss ++ sackChunk negotiation.sackPerm
    let timestamp := timestampChunk seconds (some tsval)
    have hoptions : ∃ pad, buildSynAckOptions seconds negotiation =
        front ++ timestamp ++ wscaleChunk negotiation.wscale ++ List.replicate pad 0 := by
      rw [buildSynAckOptions, htsval]
      exact ⟨_, rfl⟩
    obtain ⟨pad, hoptions⟩ := hoptions
    rw [hoptions, List.append_assoc (front ++ timestamp)]
    exact List.infix_append front timestamp _

end Tcp

/-- The datagram of the packet with the checksum that is written. -/
def sentUdp (src dst : Address) (srcPort dstPort : UInt16) (data : Bytes) : Bytes :=
  udpBytes srcPort.toNat dstPort.toNat data
    (calculateIPChecksum (checksumBuffer Protocols.udp src.text dst.text
      (udpBytes srcPort.toNat dstPort.toNat data 0)))

theorem buildUDPPacket_eq (hrandom : random < 65536) (hfits : 28 + data.length ≤ 65535) :
    buildUDPPacket random src.text dst.text srcPort.toNat dstPort.toNat data =
      some (ipHeader src.text dst.text Protocols.udp (20 + (8 + data.length)) random
          (calculateIPChecksum (ipHeader src.text dst.text Protocols.udp
            (20 + (8 + data.length)) random 0)) ++
        sentUdp src dst srcPort dstPort data) := by
  let datagram := udpBytes srcPort.toNat dstPort.toNat data 0
  have hlength : datagram.length = 8 + data.length := udpBytes_length _ _ _ _
  have hsent : (sentUdp src dst srcPort dstPort data).length = 8 + data.length :=
    udpBytes_length _ _ _ _
  have hwrite : setUInt16 datagram
      (calculateIPChecksum (checksumBuffer Protocols.udp src.text dst.text datagram)) 6 =
        sentUdp src dst srcPort dstPort data :=
    setUInt16_field (ofUInt16 srcPort.toNat ++ ofUInt16 dstPort.toNat ++
      ofUInt16 (8 + data.length)) _ _ _
  have hsum := calculateTransportChecksum_eq Protocols.udp src.text dst.text
    (show datagram.length < 65536 by omega)
  have hpacket := buildIPPacket_eq Protocols.udp src.text dst.text hrandom
    (show 20 + (sentUdp src dst srcPort dstPort data).length ≤ 65535 by omega)
  rw [buildUDPPacket, buildUDPDatagram_eq _ _ _ srcPort.toNat_lt dstPort.toNat_lt (by omega)]
  change (calculateTransportChecksum Protocols.udp src.text dst.text datagram).bind _ = _
  rw [hsum, Option.bind_some, hwrite, hpacket, hsent]

theorem udp_delivered (hrandom : random < 65535) (hfits : 28 + data.length ≤ 65535) :
    UdpDelivered random src dst srcPort dstPort data := by
  let segment := sentUdp src dst srcPort dstPort data
  have hlength : ∀ sum, (udpBytes srcPort.toNat dstPort.toNat data sum).length =
      8 + data.length := udpBytes_length _ _ _
  have hroom : 20 + (udpBytes srcPort.toNat dstPort.toNat data 0).length ≤ 65535 := by
    rw [hlength]
    omega
  have height : 8 ≤ segment.length := by
    simp only [segment, sentUdp, hlength]
    omega
  have hsrcPort : uint16At segment 0 = srcPort.toNat := toUInt16_ofNat srcPort.toNat_lt
  have hdstPort : uint16At segment 2 = dstPort.toNat := toUInt16_ofNat dstPort.toNat_lt
  have hdata : segment.drop 8 = data := List.drop_left' rfl
  refine ⟨_, _, _, buildUDPDatagram_eq _ _ _ srcPort.toNat_lt dstPort.toNat_lt (by omega),
    buildUDPPacket_eq (by omega) hfits,
    (parse_header src dst Protocols.udp (by omega) (by omega)).trans
      (congrArg Parsed.valid (readTransport_udp rfl rfl height)), ?_,
    checksums_verify Protocols.udp (by simp) hroom, smallSums Protocols.udp _ _ random hroom⟩
  exact ⟨rfl, rfl, rfl, hsrcPort, hdstPort, hdata⟩

theorem udpChecksumSent_iff (hrandom : random < 65535) (hfits : 28 + data.length ≤ 65535) :
    UdpChecksumSent random src dst srcPort dstPort data ↔
      ¬ 65535 ∣ udpWords src dst srcPort dstPort data := by
  let datagram := udpBytes srcPort.toNat dstPort.toNat data 0
  let buffer := checksumBuffer Protocols.udp src.text dst.text datagram
  let segment := sentUdp src dst srcPort dstPort data
  have hlength : datagram.length = 8 + data.length := udpBytes_length _ _ _ _
  have hwords : wordSum buffer = udpWords src dst srcPort dstPort data := by
    rw [wordSum_checksumBuffer Protocols.udp src dst (by omega), hlength,
      wordSum_udpBytes _ _ _ srcPort.toNat_lt dstPort.toNat_lt (by omega), udpWords]
    change _ + 17 + _ + _ = _
    omega
  have hpos : 0 < wordSum buffer := by
    rw [hwords, udpWords]
    omega
  have hfield : uint16At segment 6 = checksum buffer := toUInt16_ofNat (checksum_lt buffer)
  have hzero : checksum buffer = 0 ↔ 65535 ∣ udpWords src dst srcPort dstPort data := by
    rw [checksum_eq_zero, hwords, and_iff_right (hwords ▸ hpos)]
  rw [← hzero, ← hfield, UdpChecksumSent, buildUDPPacket_eq (by omega) hfits]
  constructor
  · rintro ⟨packet, hpacket, hsent⟩
    rw [← Option.some.inj hpacket] at hsent
    exact hsent
  · exact fun hsent => ⟨_, rfl, hsent⟩

/-- For all inputs: what TCP, the options of a SYN-ACK and UDP deliver, and exactly when the
checksum that UDP sends is not zero. -/
theorem ip_packets_delivered (random : Nat) (src dst : Address) (srcPort dstPort : UInt16)
    (data : Bytes) (hrandom : random < 65535) :
    (∀ (seq ack : UInt32) (flags : UInt8) (options : Option Bytes),
      (options.getD []).length ≤ 40 →
      20 + (tcpHeaderLength (options.getD []) + data.length) ≤ 65535 →
      TcpDelivered random src dst srcPort dstPort data seq ack flags options) ∧
    (∀ (seq ack : UInt32) (flags : UInt8) (seconds : Nat) (negotiation : SynOptions),
      20 + (tcpHeaderLength (buildSynAckOptions seconds negotiation) + data.length) ≤ 65535 →
      SynAckRead random src dst srcPort dstPort data seq ack flags seconds negotiation) ∧
    (28 + data.length ≤ 65535 →
      UdpDelivered random src dst srcPort dstPort data ∧
      (UdpChecksumSent random src dst srcPort dstPort data ↔
        ¬ 65535 ∣ udpWords src dst srcPort dstPort data)) :=
  ⟨fun _ _ _ _ hoptions hfits => tcp_delivered hrandom hoptions hfits,
    fun _ _ _ _ _ hfits => synAck_read hrandom hfits,
    fun hfits => ⟨udp_delivered hrandom hfits, udpChecksumSent_iff hrandom hfits⟩⟩

/-- Two bytes from 10.0.0.1:53 to 10.0.0.2:4000, with an option of one byte and in a SYN-ACK,
and as a datagram. -/
theorem ip_packets_delivered_answer :
    TcpDelivered 7 ⟨10, 0, 0, 1⟩ ⟨10, 0, 0, 2⟩ 53 4000 [0xdc, 0x03] 1 2 0x18 (some [1]) ∧
      SynAckRead 7 ⟨10, 0, 0, 1⟩ ⟨10, 0, 0, 2⟩ 53 4000 [0xdc, 0x03] 1 2 0x12 5
        ⟨some 1460, some 7, true, some 9⟩ ∧
      UdpDelivered 7 ⟨10, 0, 0, 1⟩ ⟨10, 0, 0, 2⟩ 53 4000 [0xdc, 0x03] ∧
      UdpChecksumSent 7 ⟨10, 0, 0, 1⟩ ⟨10, 0, 0, 2⟩ 53 4000 [0xdc, 0x03] := by
  obtain ⟨htcp, hsynAck, hudp⟩ :=
    ip_packets_delivered 7 ⟨10, 0, 0, 1⟩ ⟨10, 0, 0, 2⟩ 53 4000 [0xdc, 0x03] (by decide)
  obtain ⟨hdelivered, hsent⟩ := hudp (by decide)
  exact ⟨htcp 1 2 0x18 (some [1]) (by decide) (by decide),
    hsynAck 1 2 0x12 5 ⟨some 1460, some 7, true, some 9⟩ (by decide), hdelivered,
    hsent.mpr (by decide)⟩

/-- With another second byte the words add up to 65535, and the datagram is sent with a zero. -/
theorem zero_checksum_sent :
    ∃ packet, buildUDPPacket 7 "10.0.0.1".toList "10.0.0.2".toList 53 4000 [0xdc, 0x02] =
        some packet ∧
      uint16At packet 26 = 0 ∧ packet.length = 30 := by
  refine ⟨_, rfl, ?_⟩
  decide +kernel

end Packets

end Meshpn.Network.IpPackets
