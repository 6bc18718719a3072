import Meshpn.Lib.InternetChecksum
import Meshpn.Lib.Text

/-!
Building and parsing of IPv4 packets for the user-space NAT. Builders write a
header with an empty checksum field, compute the checksum over it and write
it into the field; a write of a value beyond sixteen bits throws, which is
`none` here. The parser reads what the header lengths point at. TCP options
are read from a SYN and answered in the SYN-ACK.
-/

namespace Meshpn.Network.IpPackets

open Meshpn.Lib
open Meshpn.Lib.Bytes

namespace Protocols

def icmp : UInt8 := 1
def tcp : UInt8 := 6
def udp : UInt8 := 17

end Protocols

namespace TcpFlags

def fin : UInt8 := 0x01
def syn : UInt8 := 0x02
def rst : UInt8 := 0x04
def psh : UInt8 := 0x08
def ack : UInt8 := 0x10

end TcpFlags

/-- `buffer[i]`, inside the buffer. -/
def byteAt (buffer : Bytes) (i : Nat) : UInt8 := buffer.getD i 0

/-- `buffer.readUInt16BE(i)`, inside the buffer. -/
def uint16At (buffer : Bytes) (i : Nat) : Nat := toUInt16 (byteAt buffer i) (byteAt buffer (i + 1))

/-- `buffer.readUInt32BE(i)`, inside the buffer. -/
def uint32At (buffer : Bytes) (i : Nat) : Nat :=
  toUInt32 (byteAt buffer i) (byteAt buffer (i + 1)) (byteAt buffer (i + 2)) (byteAt buffer (i + 3))

/-- `buffer.writeUInt16BE(value, i)`, inside the buffer. -/
def setUInt16 (buffer : Bytes) (value i : Nat) : Bytes :=
  buffer.take i ++ ofUInt16 value ++ buffer.drop (i + 2)

/-- `n >>> 0`. -/
def toUint32 (n : Int) : Nat := (n % 4294967296).toNat

/-- `${a}.${b}.${c}.${d}`. -/
def dotted (a b c d : UInt8) : List Char :=
  Text.decimal a.toNat ++ '.' :: (Text.decimal b.toNat ++ '.' ::
    (Text.decimal c.toNat ++ '.' :: Text.decimal d.toNat))

/-- The byte that `Number(part)` becomes in a buffer. A part that is not written in
decimal is taken for `NaN`, which becomes 0. -/
def partByte (part : List Char) : UInt8 :=
  if Text.digits part then UInt8.ofNat (Nat.ofDigitChars 10 part 0) else 0

/-- `ip.split('.').map(Number)`, the first four written into a buffer. -/
def ipParts (ip : List Char) : Bytes :=
  let parts := (Text.cut '.' ip).map partByte
  [parts.getD 0 0, parts.getD 1 0, parts.getD 2 0, parts.getD 3 0]

def calculateIPChecksum (buffer : Bytes) : Nat := InternetChecksum.checksum buffer

/-- The buffer of a transport checksum: the pseudo-header, the segment and a zero where
the length is odd. -/
def checksumBuffer (protocol : UInt8) (srcIp dstIp : List Char) (segment : Bytes) : Bytes :=
  ipParts srcIp ++ ipParts dstIp ++ [0, protocol] ++ ofUInt16 segment.length ++ segment ++
    List.replicate ((12 + segment.length) % 2) 0

/-- The checksum over `checksumBuffer`; the length is written with sixteen bits. -/
def calculateTransportChecksum (protocol : UInt8) (srcIp dstIp : List Char)
    (segment : Bytes) : Option Nat :=
  if segment.length < 65536 then
    some (calculateIPChecksum (checksumBuffer protocol srcIp dstIp segment))
  else none

def calculateTCPChecksum (srcIp dstIp : List Char) (tcpSegment : Bytes) : Option Nat :=
  calculateTransportChecksum Protocols.tcp srcIp dstIp tcpSegment

def calculateUDPChecksum (srcIp dstIp : List Char) (udpDatagram : Bytes) : Option Nat :=
  calculateTransportChecksum Protocols.udp srcIp dstIp udpDatagram

/-- The bytes that fill a header to words of four bytes. -/
def wordPad (length : Nat) : Nat := (4 - length % 4) % 4

def buildTCPSegment (srcPort dstPort : Nat) (seq ack : Int) (flags : UInt8) (data : Bytes)
    (windowSize : Nat) (options : Option Bytes) : Option Bytes :=
  let optPart := options.getD []
  let pad := wordPad (20 + optPart.length)
  let totalHeader := 20 + optPart.length + pad
  if srcPort < 65536 ∧ dstPort < 65536 then
    some (ofUInt16 srcPort ++ ofUInt16 dstPort ++ ofUInt32 (toUint32 seq) ++
      ofUInt32 (toUint32 ack) ++ [UInt8.ofNat ((totalHeader / 4) <<< 4), flags] ++
      ofUInt16 (windowSize % 65536) ++ ofUInt16 0 ++ ofUInt16 0 ++
      optPart ++ List.replicate pad 0 ++ data)
  else none

/-- The header that `buildIPPacket` fills, with a given checksum. -/
def ipHeader (srcIp dstIp : List Char) (protocol : UInt8) (totalLen id checksum : Nat) : Bytes :=
  [0x45, 0] ++ ofUInt16 totalLen ++ ofUInt16 id ++ ofUInt16 0x4000 ++ [64, protocol] ++
    ofUInt16 checksum ++ ipParts srcIp ++ ipParts dstIp

/-- `random` is the value of `(Math.random() * 0xffff) >>> 0`, for a packet without an
identification of its own. -/
def buildIPPacket (random : Nat) (srcIp dstIp : List Char) (protocol : UInt8) (payload : Bytes)
    (id : Option Nat) : Option Bytes :=
  let totalLen := 20 + payload.length
  let ipId := if id.getD 0 = 0 then random else id.getD 0
  if totalLen < 65536 ∧ ipId < 65536 then
    let packet := ipHeader srcIp dstIp protocol totalLen ipId 0
    some (setUInt16 packet (calculateIPChecksum packet) 10 ++ payload)
  else none

def buildTCPPacket (random : Nat) (srcIp dstIp : List Char) (srcPort dstPort : Nat)
    (seq ack : Int) (flags : UInt8) (data : Bytes) (options : Option Bytes) : Option Bytes := do
  let tcpSegment ← buildTCPSegment srcPort dstPort seq ack flags data 65535 options
  let checksum ← calculateTCPChecksum srcIp dstIp tcpSegment
  buildIPPacket random srcIp dstIp Protocols.tcp (setUInt16 tcpSegment checksum 16) none

def buildUDPDatagram (srcPort dstPort : Nat) (data : Bytes) : Option Bytes :=
  let totalLen := 8 + data.length
  if srcPort < 65536 ∧ dstPort < 65536 ∧ totalLen < 65536 then
    some (ofUInt16 srcPort ++ ofUInt16 dstPort ++ ofUInt16 totalLen ++ ofUInt16 0 ++ data)
  else none

def buildUDPPacket (random : Nat) (srcIp dstIp : List Char) (srcPort dstPort : Nat)
    (data : Bytes) : Option Bytes := do
  let udpDatagram ← buildUDPDatagram srcPort dstPort data
  let checksum ← calculateUDPChecksum srcIp dstIp udpDatagram
  buildIPPacket random srcIp dstIp Protocols.udp (setUInt16 udpDatagram checksum 6) none

structure TcpFields where
  tcpSeq : Nat
  tcpAck : Nat
  tcpDataOffset : Nat
  tcpFlags : UInt8
  tcpFlagsSYN : Bool
  tcpFlagsACK : Bool
  tcpFlagsFIN : Bool
  tcpFlagsRST : Bool
  tcpFlagsPSH : Bool
  tcpWindow : Nat
deriving DecidableEq, Repr

structure IcmpFields where
  icmpType : UInt8
  icmpCode : UInt8
  icmpData : Bytes
deriving DecidableEq, Repr

/-- What the parser adds for the transport of a packet. -/
inductive Transport where
  | none
  | tcp (fields : TcpFields)
  | udp (udpLength : Nat)
  | icmp (fields : IcmpFields)
deriving DecidableEq, Repr

structure IpPacket where
  headerLength : Nat
  totalLength : Nat
  ipId : Nat
  protocol : UInt8
  srcIp : List Char
  dstIp : List Char
  srcPort : Nat
  dstPort : Nat
  transport : Transport
  data : Bytes
deriving DecidableEq, Repr

inductive Parsed where
  /-- `null`. -/
  | tooShort
  /-- `{ version, valid: false }`. -/
  | invalid (version : Nat)
  | valid (packet : IpPacket)
deriving DecidableEq, Repr

def hasFlag (flags flag : UInt8) : Bool := flags &&& flag != 0

def readTcp (buffer : Bytes) (transportOffset : Nat) : TcpFields :=
  let tcpFlags := byteAt buffer (transportOffset + 13)
  { tcpSeq := uint32At buffer (transportOffset + 4)
    tcpAck := uint32At buffer (transportOffset + 8)
    tcpDataOffset := ((byteAt buffer (transportOffset + 12)).toNat >>> 4) % 16 * 4
    tcpFlags
    tcpFlagsSYN := hasFlag tcpFlags TcpFlags.syn
    tcpFlagsACK := hasFlag tcpFlags TcpFlags.ack
    tcpFlagsFIN := hasFlag tcpFlags TcpFlags.fin
    tcpFlagsRST := hasFlag tcpFlags TcpFlags.rst
    tcpFlagsPSH := hasFlag tcpFlags TcpFlags.psh
    tcpWindow := uint16At buffer (transportOffset + 14) }

/-- The fields of the IP header. -/
def readHeader (buffer : Bytes) : IpPacket :=
  { headerLength := (byteAt buffer 0).toNat % 16 * 4
    totalLength := uint16At buffer 2
    ipId := uint16At buffer 4
    protocol := byteAt buffer 9
    srcIp := dotted (byteAt buffer 12) (byteAt buffer 13) (byteAt buffer 14) (byteAt buffer 15)
    dstIp := dotted (byteAt buffer 16) (byteAt buffer 17) (byteAt buffer 18) (byteAt buffer 19)
    srcPort := 0
    dstPort := 0
    transport := .none
    data := [] }

/-- What the transport adds to the fields of the header. -/
def readTransport (buffer : Bytes) (result : IpPacket) : IpPacket :=
  let transportOffset := result.headerLength
  if result.protocol = Protocols.tcp ∧ transportOffset + 20 ≤ buffer.length then
    { result with
      srcPort := uint16At buffer transportOffset
      dstPort := uint16At buffer (transportOffset + 2)
      transport := .tcp (readTcp buffer transportOffset)
      data := buffer.drop (transportOffset + (readTcp buffer transportOffset).tcpDataOffset) }
  else if result.protocol = Protocols.udp ∧ transportOffset + 8 ≤ buffer.length then
    { result with
      srcPort := uint16At buffer transportOffset
      dstPort := uint16At buffer (transportOffset + 2)
      transport := .udp (uint16At buffer (transportOffset + 4))
      data := buffer.drop (transportOffset + 8) }
  else if result.protocol = Protocols.icmp ∧ transportOffset + 4 ≤ buffer.length then
    { result with
      transport := .icmp
        ⟨byteAt buffer transportOffset, byteAt buffer (transportOffset + 1),
          buffer.drop (transportOffset + 4)⟩
      data := buffer.drop (transportOffset + 8) }
  else result

def parseIPPacket (buffer : Bytes) : Parsed :=
  if buffer.length < 20 then .tooShort
  else
    let version := ((byteAt buffer 0).toNat >>> 4) % 16
    if version ≠ 4 then .invalid version
    else .valid (readTransport buffer (readHeader buffer))

structure SynOptions where
  mss : Option Nat
  wscale : Option Nat
  sackPerm : Bool
  tsval : Option Nat
deriving DecidableEq, Repr

namespace SynOptions

def empty : SynOptions := ⟨none, none, false, none⟩

/-- What one option of the walk sets. -/
def read (found : SynOptions) (ipBuffer : Bytes) (o : Nat) (kind : UInt8) (len : Nat) :
    SynOptions :=
  if kind = 2 ∧ 4 ≤ len then { found with mss := some (uint16At ipBuffer (o + 2)) }
  else if kind = 3 ∧ 3 ≤ len then
    let sc := (byteAt ipBuffer (o + 2)).toNat
    if sc ≤ 14 then { found with wscale := some sc } else found
  else if kind = 4 ∧ len = 2 then { found with sackPerm := true }
  else if kind = 8 ∧ 10 ≤ len then { found with tsval := some (uint32At ipBuffer (o + 2)) }
  else found

end SynOptions

/-- The loop over the options from `o` on. -/
def walkOptions (ipBuffer : Bytes) (optEnd : Nat) : Nat → Nat → SynOptions → SynOptions
  | 0, _, found => found
  | fuel + 1, o, found =>
    if o < optEnd then
      let kind := byteAt ipBuffer o
      if kind = 0 then found
      else if kind = 1 then walkOptions ipBuffer optEnd fuel (o + 1) found
      else
        match ipBuffer[o + 1]? with
        -- a length of `undefined` passes the check, sets nothing and ends the loop
        | none => found
        | some len =>
          if len.toNat < 2 ∨ optEnd < o + len.toNat then found
          else
            walkOptions ipBuffer optEnd fuel (o + len.toNat)
              (found.read ipBuffer o kind len.toNat)
    else found

/-- Every turn moves on by a byte at least, so the turns suffice. -/
def optionsFrom (ipBuffer : Bytes) (optEnd o : Nat) (found : SynOptions) : SynOptions :=
  walkOptions ipBuffer optEnd (optEnd - o) o found

/-- `parseTcpSynOptions`; `none` is `{}`. -/
def parseTcpSynOptions (ipBuffer : Bytes) : Option SynOptions :=
  if ipBuffer.length < 20 then none
  else
    let ihl := (byteAt ipBuffer 0).toNat % 16 * 4
    if ipBuffer.length < ihl + 20 ∨ byteAt ipBuffer 9 ≠ Protocols.tcp then none
    else
      let thl := ((byteAt ipBuffer (ihl + 12)).toNat >>> 4) % 16 * 4
      if thl < 20 ∨ ipBuffer.length < ihl + thl then none
      else some (optionsFrom ipBuffer (ihl + thl) (ihl + 20) .empty)

/-- The MSS of the answer; an absent one and 0 count as 1360. -/
def answeredMss (mss : Option Nat) : Nat :=
  min 1360 (if mss.getD 0 = 0 then 1360 else min (mss.getD 0) 1360)

def mssChunk (mss : Option Nat) : Bytes := [2, 4] ++ ofUInt16 (answeredMss mss)

def sackChunk (sackPerm : Bool) : Bytes := if sackPerm then [4, 2] else []

/-- The own clock and the echo of the peer's value. -/
def timestampChunk (seconds : Nat) : Option Nat → Bytes
  | some tsval => [8, 10] ++ ofUInt32 (toUint32 seconds) ++ ofUInt32 (toUint32 tsval)
  | none => []

def wscaleChunk : Option Nat → Bytes
  | some wscale => if wscale ≤ 14 then [1, 1, 1, 1] ++ [3, 3, UInt8.ofNat wscale] else []
  | none => []

/-- `buildSynAckOptions`, with the seconds of the clock. -/
def buildSynAckOptions (seconds : Nat) (negotiation : SynOptions) : Bytes :=
  let chunks := mssChunk negotiation.mss ++ sackChunk negotiation.sackPerm ++
    timestampChunk seconds negotiation.tsval ++ wscaleChunk negotiation.wscale
  chunks ++ List.replicate (wordPad chunks.length) 0

end Meshpn.Network.IpPackets
