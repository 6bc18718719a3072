import Meshpn.Lib.Bytes

/-!
DNS messages as `lab-dns-wire.mjs` reads, answers and ages them. A reader fails with
`DNS_WIRE` where the message is not accepted, and with an error of its own where a read
leaves the message. The walk over the records carries the offset of what comes next.
-/

namespace Meshpn.Dns.Wire

open Meshpn.Lib

/-- `DNS_MAX_BYTES`. -/
def maxBytes : Nat := 65535

/-- `DNS_UDP_MAX_BYTES`. -/
def udpMaxBytes : Nat := 4096

inductive WireError where
  /-- `DNS_WIRE`. -/
  | wire
  /-- A read outside the message. -/
  | range
  deriving DecidableEq, Repr

def need (condition : Bool) : Except WireError Unit :=
  if condition then .ok () else .error .wire

/-- `packet[i]`. -/
def byteAt (packet : Bytes) (i : Nat) : Except WireError Nat :=
  match packet[i]? with
  | some byte => .ok byte.toNat
  | none => .error .range

def readUInt16 (packet : Bytes) (i : Nat) : Except WireError Nat := do
  let high ← byteAt packet i
  let low ← byteAt packet (i + 1)
  return 256 * high + low

def readUInt32 (packet : Bytes) (i : Nat) : Except WireError Nat := do
  let high ← readUInt16 packet i
  let low ← readUInt16 packet (i + 2)
  return 65536 * high + low

/-- The bytes take the place of those from `i` on. -/
def writeAt (packet : Bytes) (i : Nat) (bytes : Bytes) : Bytes :=
  packet.take i ++ bytes ++ packet.drop (i + bytes.length)

def writeUInt16 (packet : Bytes) (i n : Nat) : Bytes := writeAt packet i (Bytes.ofUInt16 n)

def writeUInt32 (packet : Bytes) (i n : Nat) : Bytes := writeAt packet i (Bytes.ofUInt32 n)

structure Name where
  /-- The labels, with capital letters folded. -/
  labels : List Bytes
  /-- `end`. -/
  stop : Nat
  compressed : Bool
  deriving DecidableEq, Repr

/-- Two digits of `toString('hex')`. -/
def hexByte (byte : UInt8) : List Char :=
  [Nat.digitChar (byte.toNat / 16), Nat.digitChar (byte.toNat % 16)]

/-- `nameKey`. -/
def Name.key (name : Name) : List Char :=
  List.intercalate ['.'] (name.labels.map fun label => label.flatMap hexByte)

/-- Only `A` to `Z` fold. -/
def folded (byte : UInt8) : UInt8 := if 65 ≤ byte ∧ byte ≤ 90 then byte + 32 else byte

/-- The state of the loop of `nameAt`. -/
structure NameWalk where
  pos : Nat
  stop : Option Nat
  size : Nat
  compressed : Bool
  labels : List Bytes
  visited : List Nat
  deriving DecidableEq, Repr

/-- A pass of the loop that goes on gives the state of the next one. -/
def nameStep (packet : Bytes) (w : NameWalk) : Except WireError (NameWalk ⊕ Name) := do
  need (w.pos < packet.length && !w.visited.contains w.pos)
  let n ← byteAt packet w.pos
  if 192 ≤ n then do
    need (w.pos + 1 < packet.length)
    let low ← byteAt packet (w.pos + 1)
    let target := 256 * (n - 192) + low
    need (12 ≤ target && target < w.pos)
    return .inl { w with
      pos := target
      stop := some (w.stop.getD (w.pos + 2))
      compressed := true
      visited := w.pos :: w.visited }
  else do
    need (n ≤ 63 && w.pos + 1 + n ≤ packet.length)
    if n = 0 then return .inr ⟨w.labels, w.stop.getD (w.pos + 1), w.compressed⟩
    else do
      need (w.size + n + 1 ≤ 255)
      return .inl { w with
        pos := w.pos + 1 + n
        size := w.size + n + 1
        labels := w.labels ++ [((packet.drop (w.pos + 1)).take n).map folded]
        visited := w.pos :: w.visited }

def nameLoop (packet : Bytes) : Nat → NameWalk → Except WireError Name
  | 0, _ => .error .wire
  | steps + 1, w => do
    match ← nameStep packet w with
    | .inl w => nameLoop packet steps w
    | .inr name => return name

def nameAt (packet : Bytes) (start : Nat) : Except WireError Name :=
  nameLoop packet 128 ⟨start, none, 1, false, [], []⟩

def excludedTypes : List Nat := [0, 41, 249, 250, 251, 252, 253, 254, 255, 65535]

structure Record where
  /-- `section`. -/
  part : Nat
  type : Nat
  klass : Nat
  ttl : Nat
  offset : Nat
  length : Nat
  deriving DecidableEq, Repr

structure Edns where
  extendedRcode : Nat
  version : Nat
  flags : Nat
  deriving DecidableEq, Repr

/-- The header and the question. -/
structure Question where
  id : Nat
  flags : Nat
  name : Name
  type : Nat
  klass : Nat
  /-- `questionEnd`. -/
  stop : Nat
  deriving DecidableEq, Repr

/-- The beginning of `parseDns`; the identifier is read at its end. -/
def readQuestion (packet : Bytes) : Except WireError Question := do
  need (12 ≤ packet.length && packet.length ≤ maxBytes)
  let flags ← readUInt16 packet 2
  let questions ← readUInt16 packet 4
  need (flags &&& 0x7840 = 0 && questions = 1)
  let name ← nameAt packet 12
  need (name.stop + 4 ≤ packet.length)
  let type ← readUInt16 packet name.stop
  let klass ← readUInt16 packet (name.stop + 2)
  need (!excludedTypes.contains type && klass = 1)
  let id ← readUInt16 packet 0
  return ⟨id, flags, name, type, klass, name.stop + 4⟩

/-- What the walk over the records has found. -/
structure Walk where
  pos : Nat
  udpSize : Nat
  edns : Option Edns
  records : List Record
  deriving DecidableEq, Repr

/-- The loop over the options up to `stop`; every pass moves at least four bytes on, so a
loop that has `stop - option` passes left does not run out of them. -/
def optionLoop (packet : Bytes) (stop : Nat) : Nat → Nat → Except WireError Unit
  | 0, _ => .ok ()
  | fuel + 1, option =>
    if option < stop then do
      need (option + 4 ≤ stop)
      let length ← readUInt16 packet (option + 2)
      need (option + (4 + length) ≤ stop)
      optionLoop packet stop fuel (option + (4 + length))
    else .ok ()

/-- The branch of a record of type 41. -/
def readOpt (packet : Bytes) (name : Name) (rr : Record) (w : Walk) :
    Except WireError Walk := do
  need (rr.part = 2 && w.edns.isNone && name.key = [] && !name.compressed)
  optionLoop packet (rr.offset + rr.length) rr.length rr.offset
  return { w with
    edns := some ⟨rr.ttl / 16777216, rr.ttl / 65536 % 256, rr.ttl % 65536⟩
    udpSize := min udpMaxBytes (max 512 rr.klass) }

def noteEdns (packet : Bytes) (name : Name) (rr : Record) (w : Walk) : Except WireError Walk :=
  if rr.type = 41 then readOpt packet name rr w else .ok w

/-- A pass of the loop over the records. -/
def readRecord (packet : Bytes) (w : Walk) (part : Nat) : Except WireError Walk := do
  let name ← nameAt packet w.pos
  need (name.stop + 10 ≤ packet.length)
  let type ← readUInt16 packet name.stop
  let klass ← readUInt16 packet (name.stop + 2)
  let ttl ← readUInt32 packet (name.stop + 4)
  let length ← readUInt16 packet (name.stop + 8)
  need (name.stop + 10 + length ≤ packet.length)
  need (type ≠ 1 || length = 4)
  need (type ≠ 28 || length = 16)
  let rr : Record := ⟨part, type, klass, ttl, name.stop + 10, length⟩
  let w ← noteEdns packet name rr w
  return { w with pos := name.stop + 10 + length, records := w.records ++ [rr] }

structure Message where
  question : Question
  /-- `counts`. -/
  counts : List Nat
  records : List Record
  udpSize : Nat
  edns : Option Edns
  deriving DecidableEq, Repr

namespace Message

def id (m : Message) : Nat := m.question.id

def flags (m : Message) : Nat := m.question.flags

def nameKey (m : Message) : List Char := m.question.name.key

def rcode (m : Message) : Nat :=
  m.flags % 16 + 16 * (m.edns.elim 0 Edns.extendedRcode)

end Message

/-- The section of every record. -/
def parts (counts : List Nat) : List Nat :=
  counts.zipIdx.flatMap fun entry => List.replicate entry.1 entry.2

def parseDns (packet : Bytes) : Except WireError Message := do
  let question ← readQuestion packet
  let answers ← readUInt16 packet 6
  let authorities ← readUInt16 packet 8
  let additional ← readUInt16 packet 10
  let counts := [answers, authorities, additional]
  need (counts.sum ≤ 128)
  let walk ← (parts counts).foldlM (readRecord packet) ⟨question.stop, 512, none, []⟩
  need (walk.pos = packet.length)
  return ⟨question, counts, walk.records, walk.udpSize, walk.edns⟩

def parseDnsQuery (packet : Bytes) : Except WireError Message := do
  let q ← parseDns packet
  need (q.flags &&& 0xFECF = 0 && q.counts[0]? = some 0 && q.counts[1]? = some 0)
  need (q.records.all fun rr => rr.type = 41)
  need (!q.question.name.compressed && q.edns.all fun edns => edns.extendedRcode = 0)
  return q

def validateDnsResponse (packet query : Bytes) : Except WireError Message := do
  let q ← parseDnsQuery query
  let r ← parseDns packet
  need (r.flags &&& 0x8000 ≠ 0 && r.id = q.id && r.nameKey = q.nameKey &&
    r.question.type = q.question.type && r.question.klass = q.question.klass)
  need (r.edns.all fun edns => q.edns.isSome && edns.version = 0)
  return r

/-- The OPT record of an answer: the size, the high bits of the code, and the flag DO. -/
def optBytes (udpSize rcode ttl : Nat) : Bytes :=
  0 :: Bytes.ofUInt16 41 ++ Bytes.ofUInt16 udpSize ++
    Bytes.ofUInt32 (rcode / 16 * 0x1000000 + (ttl &&& 0x8000)) ++ [0, 0]

/-- The header and the question of an answer. -/
def failureHead (query : Bytes) (q : Message) (rcode : Nat) (truncated : Bool) : Bytes :=
  writeAt (writeUInt16 (query.take q.question.stop) 2
    (0x8080 ||| (q.flags &&& 0x0110) ||| (rcode % 16) ||| if truncated then 0x0200 else 0))
    6 (List.replicate 6 0)

def dnsFailure (query : Bytes) (rcode : Nat) (truncated : Bool) : Except WireError Bytes := do
  let q ← parseDnsQuery query
  need (rcode ≤ 4095 && (rcode ≤ 15 || q.edns.isSome))
  match q.records.find? fun rr => rr.type = 41 with
  | none => return failureHead query q rcode truncated
  | some opt =>
    return writeUInt16 (failureHead query q rcode truncated) 10 1 ++
      optBytes q.udpSize rcode opt.ttl

def truncateDnsResponse (query response : Bytes) : Except WireError Bytes := do
  let r ← validateDnsResponse response query
  let reply ← dnsFailure query r.rcode true
  return writeUInt16 reply 2 (0x8200 ||| (r.flags &&& 0x019f))

def ttlValue (value : Nat) : Nat := if value > 0x7fffffff then 0 else value

/-- The last field of an SOA record at `rr`, read behind its two names. -/
def soaMinimum (packet : Bytes) (rr : Record) : Except WireError Nat := do
  let mname ← nameAt packet rr.offset
  need (mname.stop ≤ rr.offset + rr.length)
  let rname ← nameAt packet mname.stop
  need (rname.stop + 20 = rr.offset + rr.length)
  readUInt32 packet (rr.offset + rr.length - 4)

/-- What a record lives, before the seconds are taken off. -/
def lifetime (packet : Bytes) (rcode : Nat) (rr : Record) : Except WireError Nat :=
  if rr.type = 6 && rr.part = 1 && (rcode = 0 || rcode = 3) then do
    let minimum ← soaMinimum packet rr
    return min (ttlValue rr.ttl) (ttlValue minimum)
  else .ok (ttlValue rr.ttl)

/-- A pass of the loop of `ageDnsResponse`; the packet is as the earlier passes left it. -/
def ageRecord (rcode seconds : Nat) (packet : Bytes) (rr : Record) : Except WireError Bytes :=
  if rr.type = 41 then .ok packet
  else do
    let ttl ← lifetime packet rcode rr
    return writeUInt32 packet (rr.offset - 6) (ttl - seconds)

def maxSafeInteger : Nat := 9007199254740991

def ageDnsResponse (packet : Bytes) (seconds : Nat) : Except WireError Bytes := do
  need (seconds ≤ maxSafeInteger)
  let parsed ← parseDns packet
  parsed.records.foldlM (ageRecord parsed.rcode seconds) packet

end Meshpn.Dns.Wire
