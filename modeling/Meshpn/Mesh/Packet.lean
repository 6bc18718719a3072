import Meshpn.Lib.Utf8

/-!
The mesh packet and its compact wire format, `packet.js`. A string stands for its
UTF-8 bytes. Identifiers of nodes and flows are ASCII and fill sixteen bytes on the
wire, padded with zeros that a reader strips; what arrives may be any bytes.

The legacy JSON format is not written any more. Its reader stands as a
parameter wherever a packet is read, and so does the flow id that is generated
for a packet that carries none.
-/

namespace Meshpn.Mesh

open Meshpn.Lib List

abbrev Id := Bytes

/-- Identifiers of one to sixteen ASCII characters without NUL. -/
def ValidId (id : Id) : Prop :=
  1 ≤ id.length ∧ id.length ≤ 16 ∧ Bytes.IsAscii id ∧ ∀ c ∈ id, c ≠ 0

instance (id : Id) : Decidable (ValidId id) :=
  inferInstanceAs (Decidable (_ ∧ _ ∧ _ ∧ _))

/-- An identifier, or the empty string that stands for none. -/
def ShortId (id : Id) : Prop := id.length ≤ 16 ∧ Bytes.IsAscii id ∧ ∀ c ∈ id, c ≠ 0

/-- `id.padEnd(16, '\0').slice(0, 16)`. -/
def padId (id : Id) : Bytes := (id ++ List.replicate (16 - id.length) 0).take 16

/-- `toString().replace(/\0/g, '')`. -/
def stripId (bytes : Bytes) : Id := (Bytes.toText bytes).filter (· != 0)

inductive PacketType where
  | data | control | ping | pong | ack | routeRequest | routeResponse | dataDirect
  deriving DecidableEq, Repr

def PacketType.code : PacketType → UInt8
  | .data => 1
  | .control => 2
  | .ping => 3
  | .pong => 4
  | .ack => 5
  | .routeRequest => 6
  | .routeResponse => 7
  | .dataDirect => 8

/-- An empty `srcNode` or `dstNode` stands for null. -/
structure Packet where
  type : UInt8
  flowId : Id
  seq : Nat
  hop : Nat
  ttl : Nat
  srcNode : Id
  dstNode : Id
  route : List Id
  visitedNodes : List Id
  payload : Bytes
  deriving DecidableEq, Repr

def defaultTtl : Nat := 32

/-- Every field fits the bytes it is written to. -/
def Packet.writable (p : Packet) : Bool :=
  p.hop < 65536 && p.ttl < 256 && p.route.length < 256 && p.seq < 4294967296 &&
    p.payload.length < 4294967296

theorem Packet.writable_iff {p : Packet} :
    p.writable = true ↔ p.hop < 65536 ∧ p.ttl < 256 ∧ p.route.length < 256 ∧
      p.seq < 4294967296 ∧ p.payload.length < 4294967296 := by
  simp only [Packet.writable, Bool.and_eq_true, decide_eq_true_eq, and_assoc]

def Packet.header (p : Packet) : Bytes :=
  [2, p.type] ++ Bytes.ofUInt16 p.hop ++ [UInt8.ofNat p.ttl, UInt8.ofNat p.route.length] ++
    Bytes.ofUInt32 p.seq ++ padId p.flowId ++ padId p.srcNode ++ padId p.dstNode

/-- `serialize`; `none` where a write is out of range and throws. -/
def Packet.serialize (p : Packet) : Option Bytes :=
  if p.writable then
    some (p.header ++ p.route.flatMap padId ++ Bytes.ofUInt32 p.payload.length ++ p.payload)
  else none

/-- What reading a packet takes from elsewhere: `_deserializeV1` and `generateFlowId`. -/
structure Reader where
  legacy : Bytes → Option Packet
  generateFlowId : Id

/-- The loop over the route: sixteen bytes a node, short at the end of the buffer. -/
def readIds : Nat → Bytes → List Id
  | 0, _ => []
  | count + 1, bytes => stripId (bytes.take 16) :: readIds count (bytes.drop 16)

/-- What follows the ten bytes of fixed fields. -/
def readBody (reader : Reader) (type hopHigh hopLow ttl routeCount : UInt8) (seq : Nat)
    (body : Bytes) : Option Packet :=
  let ids := body.drop 48
  let flowId := stripId (body.take 16)
  let rest := ids.drop (16 * routeCount.toNat)
  (Bytes.readUInt32 rest).map fun length =>
    { type := if type = 0 then PacketType.data.code else type
      flowId := if flowId.isEmpty then reader.generateFlowId else flowId
      seq
      hop := Bytes.toUInt16 hopHigh hopLow
      ttl := ttl.toNat
      srcNode := stripId ((body.drop 16).take 16)
      dstNode := stripId ((body.drop 32).take 16)
      route := readIds routeCount.toNat ids
      visitedNodes := []
      payload := (rest.drop 4).take length }

def deserializeV2 (reader : Reader) : Bytes → Option Packet
  | _ :: type :: h1 :: h0 :: ttl :: routeCount :: s3 :: s2 :: s1 :: s0 :: body =>
    if body.length < 48 then none
    else readBody reader type h1 h0 ttl routeCount (Bytes.toUInt32 s3 s2 s1 s0) body
  | _ => none

def deserialize (reader : Reader) (buffer : Bytes) : Option Packet :=
  if buffer.length < 6 then none
  else if buffer.head? = some 2 then deserializeV2 reader buffer
  else reader.legacy buffer

theorem ValidId.named {id : Id} (h : ValidId id) : id.isEmpty = false := by
  have hlength := h.1
  cases id with
  | nil => simp at hlength
  | cons => rfl

theorem padId_length (id : Id) : (padId id).length = 16 := by
  simp only [padId, length_take, length_append, length_replicate]
  omega

theorem ValidId.short {id : Id} (h : ValidId id) : ShortId id := h.2

theorem stripId_padId {id : Id} (h : ShortId id) : stripId (padId id) = id := by
  obtain ⟨hmax, hascii, hnul⟩ := h
  have hpad : padId id = id ++ List.replicate (16 - id.length) 0 := by
    apply take_of_length_le
    simp only [length_append, length_replicate]
    omega
  have hpadded : Bytes.IsAscii (id ++ List.replicate (16 - id.length) 0) := by
    intro c hc
    rcases mem_append.mp hc with hc | hc
    · exact hascii c hc
    · rw [eq_of_mem_replicate hc]
      decide
  rw [hpad, stripId, Bytes.toText_ascii hpadded, filter_append]
  have hid : id.filter (· != 0) = id := by
    rw [filter_eq_self]
    intro c hc
    simpa using hnul c hc
  have hzeros : (List.replicate (16 - id.length) (0 : UInt8)).filter (· != 0) = [] := by
    simp
  rw [hid, hzeros, append_nil]

theorem readIds_flatMap (route : List Id) (hroute : ∀ id ∈ route, ShortId id) (rest : Bytes) :
    readIds route.length (route.flatMap padId ++ rest) = route := by
  induction route with
  | nil => rfl
  | cons id tail ih =>
    have hlength := padId_length id
    simp only [length_cons, readIds, flatMap_cons, append_assoc]
    rw [take_left' hlength, drop_left' hlength,
      stripId_padId (hroute id (by simp)), ih (fun other h => hroute other (by simp [h]))]

theorem flatMap_padId_length (route : List Id) :
    (route.flatMap padId).length = 16 * route.length := by
  induction route with
  | nil => rfl
  | cons id tail ih =>
    rw [flatMap_cons, length_append, padId_length, length_cons]
    omega

/-- A packet whose fields survive the wire. -/
structure Packet.Portable (p : Packet) : Prop where
  type : p.type ≠ 0
  flowId : ValidId p.flowId
  srcNode : ValidId p.srcNode
  dstNode : ValidId p.dstNode
  route : ∀ id ∈ p.route, ValidId id
  writable : p.writable = true

/-- The same with identifiers that may be missing, apart from the flow's. -/
structure Packet.Encodable (p : Packet) : Prop where
  type : p.type ≠ 0
  flowId : ValidId p.flowId
  srcNode : ShortId p.srcNode
  dstNode : ShortId p.dstNode
  route : ∀ id ∈ p.route, ShortId id
  writable : p.writable = true

theorem Packet.Portable.encodable {p : Packet} (h : p.Portable) : p.Encodable :=
  ⟨h.type, h.flowId, h.srcNode.short, h.dstNode.short, fun id hid => (h.route id hid).short,
    h.writable⟩

theorem deserialize_serialize (reader : Reader) {p : Packet} (h : p.Encodable) :
    ∃ bytes, p.serialize = some bytes ∧ 2 ≤ bytes.length ∧ bytes[1]? = some p.type ∧
      deserialize reader bytes = some { p with visitedNodes := [] } := by
  obtain ⟨hhop, httl, hcount, hseq, hpayload⟩ := Packet.writable_iff.mp h.writable
  refine ⟨_, if_pos h.writable, by simp [Packet.header], by simp [Packet.header], ?_⟩
  have hids : (padId p.flowId ++ padId p.srcNode ++ padId p.dstNode).length = 48 := by
    simp only [length_append, padId_length]
  have hdecoded : ∀ body, body = padId p.flowId ++ padId p.srcNode ++ padId p.dstNode ++
      (p.route.flatMap padId ++ (Bytes.ofUInt32 p.payload.length ++ p.payload)) →
      readBody reader p.type (UInt8.ofNat (p.hop / 256)) (UInt8.ofNat (p.hop % 256))
        (UInt8.ofNat p.ttl) (UInt8.ofNat p.route.length) p.seq body =
        some { p with visitedNodes := [] } := by
    rintro body rfl
    have hflow : (padId p.flowId ++ padId p.srcNode ++ padId p.dstNode ++
        (p.route.flatMap padId ++ (Bytes.ofUInt32 p.payload.length ++ p.payload))).take 16 =
        padId p.flowId := by
      simp only [append_assoc]
      exact take_left' (padId_length _)
    have hsrc : ((padId p.flowId ++ padId p.srcNode ++ padId p.dstNode ++
        (p.route.flatMap padId ++ (Bytes.ofUInt32 p.payload.length ++ p.payload))).drop 16).take
          16 = padId p.srcNode := by
      simp only [append_assoc]
      rw [drop_left' (padId_length _)]
      exact take_left' (padId_length _)
    have hdst : ((padId p.flowId ++ padId p.srcNode ++ padId p.dstNode ++
        (p.route.flatMap padId ++ (Bytes.ofUInt32 p.payload.length ++ p.payload))).drop 32).take
          16 = padId p.dstNode := by
      have htwo : (padId p.flowId ++ padId p.srcNode).length = 32 := by
        simp only [length_append, padId_length]
      rw [append_assoc, drop_left' htwo]
      exact take_left' (padId_length _)
    have hrest : ((padId p.flowId ++ padId p.srcNode ++ padId p.dstNode ++
        (p.route.flatMap padId ++ (Bytes.ofUInt32 p.payload.length ++ p.payload))).drop 48) =
        p.route.flatMap padId ++ (Bytes.ofUInt32 p.payload.length ++ p.payload) :=
      drop_left' hids
    simp only [readBody, hflow, hsrc, hdst, hrest, Bytes.toNat_ofNat hcount,
      drop_left' (flatMap_padId_length p.route), Bytes.readUInt32_ofUInt32 hpayload,
      Option.map_some, Bytes.toUInt16_ofNat hhop, Bytes.toNat_ofNat httl, if_neg h.type,
      stripId_padId h.flowId.short, h.flowId.named, Bool.false_eq_true, if_false,
      stripId_padId h.srcNode, stripId_padId h.dstNode,
      readIds_flatMap p.route h.route, drop_left' (Bytes.ofUInt32_length _),
      take_length]
  have hlong : ¬ (padId p.flowId ++ padId p.srcNode ++ padId p.dstNode ++
      (p.route.flatMap padId ++ (Bytes.ofUInt32 p.payload.length ++ p.payload))).length < 48 := by
    rw [length_append]
    omega
  have hshape : p.header ++ p.route.flatMap padId ++ Bytes.ofUInt32 p.payload.length ++
      p.payload = 2 :: p.type :: UInt8.ofNat (p.hop / 256) :: UInt8.ofNat (p.hop % 256) ::
        UInt8.ofNat p.ttl :: UInt8.ofNat p.route.length ::
        UInt8.ofNat (p.seq / 65536 / 256) :: UInt8.ofNat (p.seq / 65536 % 256) ::
        UInt8.ofNat (p.seq % 65536 / 256) :: UInt8.ofNat (p.seq % 65536 % 256) ::
        (padId p.flowId ++ padId p.srcNode ++ padId p.dstNode ++
          (p.route.flatMap padId ++ (Bytes.ofUInt32 p.payload.length ++ p.payload))) := by
    simp [Packet.header, Bytes.ofUInt16, Bytes.ofUInt32]
  rw [hshape, deserialize, if_neg (by simp), if_pos (by simp), deserializeV2,
    if_neg hlong, Bytes.toUInt32_ofNat hseq]
  exact hdecoded _ rfl

end Meshpn.Mesh
