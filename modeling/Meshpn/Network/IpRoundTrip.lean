import Meshpn.Network.IpPackets

/-!
The checksums that the builders write. A field for the checksum stands at an
even offset, so writing the value adds it to the sum of the words, and the
whole folds to 65535. The largest packet has 32764 words with its pseudo-header,
which keeps every sum below 2^31.

What the parser reads from a packet that the builders made: the header of
twenty bytes is followed by the segment, so each field of the transport is
read from the segment at its own offset, and the data starts behind the
padded options.
-/

namespace Meshpn.Network.IpPackets

open Meshpn.Lib List
open Meshpn.Lib.Bytes
open Meshpn.Lib.InternetChecksum

structure Address where
  a : UInt8
  b : UInt8
  c : UInt8
  d : UInt8
deriving DecidableEq

namespace Address

def text (ip : Address) : List Char := dotted ip.a ip.b ip.c ip.d

def bytes (ip : Address) : Bytes := [ip.a, ip.b, ip.c, ip.d]

@[simp] theorem bytes_length (ip : Address) : ip.bytes.length = 4 := rfl

end Address

theorem partByte_decimal (b : UInt8) : partByte (Text.decimal b.toNat) = b := by
  have hall : ∀ n : Fin 256, partByte (Text.decimal n.val) = UInt8.ofNat n.val := by
    decide +kernel
  have hb := hall ⟨b.toNat, b.toNat_lt⟩
  rwa [UInt8.ofNat_toNat] at hb

@[simp] theorem ipParts_text (ip : Address) : ipParts ip.text = ip.bytes := by
  have hdot := Text.dot_not_mem_decimal
  rw [ipParts, Address.text, dotted, Text.cut_append_dot (hdot _), Text.cut_append_dot (hdot _),
    Text.cut_append_dot (hdot _), Text.cut_of_no_dot (hdot _)]
  simp only [map_cons, map_nil, partByte_decimal]
  rfl

theorem setUInt16_field (front back : Bytes) (old value : Nat) :
    setUInt16 (front ++ ofUInt16 old ++ back) value front.length =
      front ++ ofUInt16 value ++ back := by
  have hdrop : (front ++ ofUInt16 old ++ back).drop (front.length + 2) = back :=
    drop_left' (by rw [length_append, ofUInt16_length])
  have htake : (front ++ ofUInt16 old ++ back).take front.length = front := by
    rw [append_assoc, take_left]
  rw [setUInt16, hdrop, htake]

theorem wordSum_field {front : Bytes} (back : Bytes) {value : Nat}
    (heven : front.length % 2 = 0) (hvalue : value < 65536) :
    wordSum (front ++ ofUInt16 value ++ back) =
      wordSum (front ++ ofUInt16 0 ++ back) + value := by
  have hfield : ∀ n, (front ++ ofUInt16 n).length % 2 = 0 := by
    intro n
    rw [length_append, ofUInt16_length]
    omega
  rw [wordSum_append back (hfield value), wordSum_append back (hfield 0),
    wordSum_append _ heven, wordSum_append _ heven, wordSum_ofUInt16 hvalue,
    wordSum_ofUInt16 (by decide)]
  omega

theorem fold_field {front back : Bytes} (heven : front.length % 2 = 0) :
    fold (addWords 0 (front ++ ofUInt16 (checksum (front ++ ofUInt16 0 ++ back)) ++ back)) =
      65535 := by
  apply fold_with_checksum (front ++ ofUInt16 0 ++ back)
  rw [addWords_eq, Nat.zero_add]
  exact wordSum_field back heven (checksum_lt _)

/-- The words that a transport checksum adds: those of the pseudo-header and those of the
segment, whatever its parity. -/
theorem wordSum_checksumBuffer (protocol : UInt8) (src dst : Address) {segment : Bytes}
    (hlength : segment.length < 65536) :
    wordSum (checksumBuffer protocol src.text dst.text segment) =
      wordSum (src.bytes ++ dst.bytes) + protocol.toNat + segment.length + wordSum segment := by
  have hpad : wordSum (segment ++ List.replicate ((12 + segment.length) % 2) 0) =
      wordSum segment := by
    rcases Nat.mod_two_eq_zero_or_one (12 + segment.length) with heven | hodd
    · rw [heven, replicate_zero, append_nil]
    rw [hodd]
    apply wordSum_padded
    omega
  have hprotocol : wordSum [0, protocol] = protocol.toNat := by
    simp only [wordSum, toUInt16, UInt8.toNat_zero]
    omega
  rw [checksumBuffer, ipParts_text, ipParts_text, append_assoc _ segment,
    wordSum_append _ (by simp), hpad, wordSum_append _ (by simp), wordSum_ofUInt16 hlength,
    wordSum_append _ (by simp), hprotocol]

theorem intermediate_lt {buffer : Bytes} (hlength : buffer.length ≤ 65528) {s : Nat}
    (hs : s ∈ intermediate buffer) : s < 2147483648 := by
  have hle := intermediate_le hs
  have htotal := wordSum_le buffer
  omega

theorem header_sums (srcIp dstIp : List Char) (protocol : UInt8) (totalLen id : Nat) {s : Nat}
    (hs : s ∈ intermediate (ipHeader srcIp dstIp protocol totalLen id 0)) : s < 2147483648 :=
  intermediate_lt (Nat.le_of_ble_eq_true rfl) hs

theorem segment_sums (protocol : UInt8) (srcIp dstIp : List Char) {segment : Bytes}
    (hfits : 20 + segment.length ≤ 65535) {s : Nat}
    (hs : s ∈ intermediate (checksumBuffer protocol srcIp dstIp segment)) : s < 2147483648 := by
  apply intermediate_lt _ hs
  simp only [checksumBuffer, ipParts, length_append, length_cons, length_nil,
    ofUInt16_length, length_replicate]
  omega

section Header

variable (src dst : Address) (protocol : UInt8) {totalLen id checksum : Nat}

/-- What `ipHeader` writes before its checksum. -/
def headerFront (protocol : UInt8) (totalLen id : Nat) : Bytes :=
  [0x45, 0] ++ ofUInt16 totalLen ++ ofUInt16 id ++ ofUInt16 0x4000 ++ [64, protocol]

theorem ipHeader_eq (srcIp dstIp : List Char) :
    ipHeader srcIp dstIp protocol totalLen id checksum =
      headerFront protocol totalLen id ++ ofUInt16 checksum ++ (ipParts srcIp ++ ipParts dstIp) :=
  (append_assoc _ _ _)

@[simp] theorem ipHeader_length (srcIp dstIp : List Char) :
    (ipHeader srcIp dstIp protocol totalLen id checksum).length = 20 := rfl

theorem header_folds (srcIp dstIp : List Char) :
    fold (addWords 0 (ipHeader srcIp dstIp protocol totalLen id
      (calculateIPChecksum (ipHeader srcIp dstIp protocol totalLen id 0)))) = 65535 := by
  rw [ipHeader_eq, ipHeader_eq]
  exact fold_field (by simp [headerFront])

theorem buildIPPacket_eq {random : Nat} (srcIp dstIp : List Char) {payload : Bytes}
    (hrandom : random < 65536) (hfits : 20 + payload.length ≤ 65535) :
    buildIPPacket random srcIp dstIp protocol payload none =
      some (ipHeader srcIp dstIp protocol (20 + payload.length) random
        (calculateIPChecksum
          (ipHeader srcIp dstIp protocol (20 + payload.length) random 0)) ++ payload) := by
  have hroom : 20 + payload.length < 65536 ∧ random < 65536 := ⟨by omega, hrandom⟩
  exact if_pos hroom

variable {payload : Bytes}

/-- What the parser reads from the header itself. -/
def headerFields (src dst : Address) (protocol : UInt8) (totalLen id : Nat) : IpPacket :=
  { headerLength := 20
    totalLength := totalLen
    ipId := id
    protocol
    srcIp := src.text
    dstIp := dst.text
    srcPort := 0
    dstPort := 0
    transport := .none
    data := [] }

theorem parse_header (htotal : totalLen < 65536) (hid : id < 65536) :
    parseIPPacket (ipHeader src.text dst.text protocol totalLen id checksum ++ payload) =
      .valid (readTransport (ipHeader src.text dst.text protocol totalLen id checksum ++ payload)
        (headerFields src dst protocol totalLen id)) := by
  let packet := ipHeader src.text dst.text protocol totalLen id checksum ++ payload
  have hlength : ¬ packet.length < 20 := by
    simp only [packet, length_append, ipHeader_length]
    omega
  have hfirst : byteAt packet 0 = 0x45 := rfl
  have hversion : ¬ ((byteAt packet 0).toNat >>> 4) % 16 ≠ 4 := by
    rw [hfirst]
    decide
  have htotalLen : uint16At packet 2 = totalLen := toUInt16_ofNat htotal
  have hipId : uint16At packet 4 = id := toUInt16_ofNat hid
  have hparts : packet = headerFront protocol totalLen id ++ ofUInt16 checksum ++
      (src.bytes ++ dst.bytes) ++ payload := by
    simp only [packet, ipHeader_eq, ipParts_text]
  have hsrc : dotted (byteAt packet 12) (byteAt packet 13) (byteAt packet 14)
      (byteAt packet 15) = src.text := by
    rw [hparts]
    rfl
  have hdst : dotted (byteAt packet 16) (byteAt packet 17) (byteAt packet 18)
      (byteAt packet 19) = dst.text := by
    rw [hparts]
    rfl
  have hoffset : (byteAt packet 0).toNat % 16 * 4 = 20 := by
    rw [hfirst]
    decide
  have hfields : readHeader packet = headerFields src dst protocol totalLen id := by
    rw [readHeader, hoffset, htotalLen, hipId, hsrc, hdst]
    rfl
  change parseIPPacket packet = .valid (readTransport packet _)
  rw [parseIPPacket, if_neg hlength]
  exact (if_neg hversion).trans (by rw [hfields])

end Header

section Behind

variable {header segment : Bytes}

theorem byteAt_behind (i : Nat) :
    byteAt (header ++ segment) (header.length + i) = byteAt segment i := by
  rw [byteAt, byteAt, getD_eq_getElem?_getD, getD_eq_getElem?_getD,
    getElem?_append_right (Nat.le_add_right _ _), Nat.add_sub_cancel_left]

theorem uint16At_behind (i : Nat) :
    uint16At (header ++ segment) (header.length + i) = uint16At segment i := by
  rw [uint16At, Nat.add_assoc, byteAt_behind, byteAt_behind]
  rfl

theorem uint32At_behind (i : Nat) :
    uint32At (header ++ segment) (header.length + i) = uint32At segment i := by
  simp only [uint32At, Nat.add_assoc, byteAt_behind]

theorem readTcp_behind : readTcp (header ++ segment) header.length = readTcp segment 0 := by
  simp only [readTcp, uint16At_behind, uint32At_behind, byteAt_behind, Nat.zero_add]

theorem readTransport_tcp {result : IpPacket} (hoffset : result.headerLength = header.length)
    (hprotocol : result.protocol = Protocols.tcp) (hsegment : 20 ≤ segment.length) :
    readTransport (header ++ segment) result =
      { result with
        srcPort := uint16At segment 0
        dstPort := uint16At segment 2
        transport := .tcp (readTcp segment 0)
        data := segment.drop (readTcp segment 0).tcpDataOffset } := by
  have hroom : result.headerLength + 20 ≤ (header ++ segment).length := by
    rw [hoffset, length_append]
    omega
  rw [readTransport]
  simp only [if_pos (And.intro hprotocol hroom)]
  have hport : uint16At (header ++ segment) header.length = uint16At segment 0 :=
    uint16At_behind 0
  rw [hoffset, readTcp_behind, hport, uint16At_behind, drop_length_add_append]

theorem readTransport_udp {result : IpPacket} (hoffset : result.headerLength = header.length)
    (hprotocol : result.protocol = Protocols.udp) (hsegment : 8 ≤ segment.length) :
    readTransport (header ++ segment) result =
      { result with
        srcPort := uint16At segment 0
        dstPort := uint16At segment 2
        transport := .udp (uint16At segment 4)
        data := segment.drop 8 } := by
  have hroom : result.headerLength + 8 ≤ (header ++ segment).length := by
    rw [hoffset, length_append]
    omega
  have htcp : ¬ (result.protocol = Protocols.tcp ∧
      result.headerLength + 20 ≤ (header ++ segment).length) := by
    rw [hprotocol]
    exact fun h => absurd h.1 (by decide)
  have hport : uint16At (header ++ segment) header.length = uint16At segment 0 :=
    uint16At_behind 0
  rw [readTransport]
  simp only [if_neg htcp, if_pos (And.intro hprotocol hroom)]
  rw [hoffset, hport, uint16At_behind, uint16At_behind, drop_length_add_append]

end Behind

section Tcp

variable (srcPort dstPort : Nat) (seq ack : Int) (flags : UInt8) (optPart data : Bytes)

def tcpHeaderLength (optPart : Bytes) : Nat :=
  20 + optPart.length + wordPad (20 + optPart.length)

def tcpFront : Bytes :=
  ofUInt16 srcPort ++ ofUInt16 dstPort ++ ofUInt32 (toUint32 seq) ++ ofUInt32 (toUint32 ack) ++
    [UInt8.ofNat ((tcpHeaderLength optPart / 4) <<< 4), flags] ++ ofUInt16 (65535 % 65536)

def tcpBack : Bytes :=
  ofUInt16 0 ++ optPart ++ List.replicate (wordPad (20 + optPart.length)) 0 ++ data

def tcpBytes (checksum : Nat) : Bytes :=
  tcpFront srcPort dstPort seq ack flags optPart ++ ofUInt16 checksum ++ tcpBack optPart data

theorem tcpFront_length : (tcpFront srcPort dstPort seq ack flags optPart).length = 16 := rfl

theorem tcpBytes_length (checksum : Nat) :
    (tcpBytes srcPort dstPort seq ack flags optPart data checksum).length =
      tcpHeaderLength optPart + data.length := by
  simp only [tcpBytes, tcpBack, tcpFront_length, length_append, ofUInt16_length,
    length_replicate, tcpHeaderLength]
  omega

theorem buildTCPSegment_eq (options : Option Bytes) (hsrc : srcPort < 65536)
    (hdst : dstPort < 65536) :
    buildTCPSegment srcPort dstPort seq ack flags data 65535 options =
      some (tcpBytes srcPort dstPort seq ack flags (options.getD []) data 0) := by
  rw [buildTCPSegment]
  simp only [if_pos (And.intro hsrc hdst)]
  simp only [tcpBytes, tcpFront, tcpBack, tcpHeaderLength, append_assoc]

theorem tcpHeaderLength_div {optPart : Bytes} (hoptions : optPart.length ≤ 40) :
    tcpHeaderLength optPart / 4 * 4 = tcpHeaderLength optPart ∧
      tcpHeaderLength optPart / 4 < 16 := by
  unfold tcpHeaderLength wordPad
  omega

theorem dataOffset_read {words : Nat} (h : words < 16) :
    ((UInt8.ofNat (words <<< 4)).toNat >>> 4) % 16 = words := by
  have hall : ∀ n : Fin 16, ((UInt8.ofNat (n.val <<< 4)).toNat >>> 4) % 16 = n.val := by decide
  exact hall ⟨words, h⟩

theorem toUint32_lt (n : Int) : toUint32 n < 4294967296 := by
  unfold toUint32
  omega

theorem readTcp_tcpBytes {optPart : Bytes} (checksum : Nat) (hoptions : optPart.length ≤ 40) :
    readTcp (tcpBytes srcPort dstPort seq ack flags optPart data checksum) 0 =
      { tcpSeq := toUint32 seq
        tcpAck := toUint32 ack
        tcpDataOffset := tcpHeaderLength optPart
        tcpFlags := flags
        tcpFlagsSYN := hasFlag flags TcpFlags.syn
        tcpFlagsACK := hasFlag flags TcpFlags.ack
        tcpFlagsFIN := hasFlag flags TcpFlags.fin
        tcpFlagsRST := hasFlag flags TcpFlags.rst
        tcpFlagsPSH := hasFlag flags TcpFlags.psh
        tcpWindow := 65535 } := by
  let segment := tcpBytes srcPort dstPort seq ack flags optPart data checksum
  obtain ⟨hwords, hfew⟩ := tcpHeaderLength_div hoptions
  have hseq : uint32At segment (0 + 4) = toUint32 seq := toUInt32_ofNat (toUint32_lt seq)
  have hack : uint32At segment (0 + 8) = toUint32 ack := toUInt32_ofNat (toUint32_lt ack)
  have hoffset : byteAt segment (0 + 12) =
      UInt8.ofNat ((tcpHeaderLength optPart / 4) <<< 4) := rfl
  have hflags : byteAt segment (0 + 13) = flags := rfl
  have hwindow : uint16At segment (0 + 14) = 65535 := toUInt16_ofNat (by decide)
  rw [readTcp, hseq, hack, hoffset, hflags, hwindow, dataOffset_read hfew, hwords]

theorem tcpBytes_drop {optPart : Bytes} (checksum : Nat) :
    (tcpBytes srcPort dstPort seq ack flags optPart data checksum).drop
      (tcpHeaderLength optPart) = data := by
  rw [tcpBytes, tcpBack, ← append_assoc]
  apply drop_left'
  simp only [tcpFront_length, length_append, ofUInt16_length,
    length_replicate, tcpHeaderLength]
  omega

end Tcp

section Udp

variable (srcPort dstPort : Nat) (data : Bytes)

def udpBytes (checksum : Nat) : Bytes :=
  ofUInt16 srcPort ++ ofUInt16 dstPort ++ ofUInt16 (8 + data.length) ++ ofUInt16 checksum ++ data

theorem udpBytes_length (checksum : Nat) :
    (udpBytes srcPort dstPort data checksum).length = 8 + data.length := by
  simp only [udpBytes, length_append, ofUInt16_length]

theorem buildUDPDatagram_eq (hsrc : srcPort < 65536) (hdst : dstPort < 65536)
    (hfits : 8 + data.length < 65536) :
    buildUDPDatagram srcPort dstPort data = some (udpBytes srcPort dstPort data 0) := by
  have hroom : srcPort < 65536 ∧ dstPort < 65536 ∧ 8 + data.length < 65536 := ⟨hsrc, hdst, hfits⟩
  exact if_pos hroom

theorem wordSum_udpBytes (hsrc : srcPort < 65536) (hdst : dstPort < 65536)
    (hfits : 8 + data.length < 65536) :
    wordSum (udpBytes srcPort dstPort data 0) =
      srcPort + dstPort + (8 + data.length) + wordSum data := by
  rw [udpBytes, wordSum_append _ (by simp), wordSum_append _ (by simp),
    wordSum_append _ (by simp), wordSum_append _ (by simp), wordSum_ofUInt16 hsrc,
    wordSum_ofUInt16 hdst, wordSum_ofUInt16 hfits, wordSum_ofUInt16 (by decide), Nat.add_zero]

end Udp

end Meshpn.Network.IpPackets
