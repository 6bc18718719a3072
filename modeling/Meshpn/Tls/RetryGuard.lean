import Meshpn.Tls.SniRewrite

/-!
The HelloRetryRequest guard of `transparent-tls-retry.mjs`. Both ends of the
relay have one, between the first ClientHello and the final ServerHello: server
bytes pass as they are, once a hello is whole, and a second ClientHello that
answers a HelloRetryRequest has its server name rewritten like the first one.

A failure ends the session, so that a guard that has failed is not used again.
The deadline and the check that the session is still open are left out: both
only end the session.
-/

namespace Meshpn.Tls

open Meshpn.Lib
open Meshpn.Lib.Bytes

/-- The code of a failure, without its `TLS_RELAY_`. -/
inductive RelayCode where
  | handshakeLimit | retrySequence | serverHello | retryIdentity | retryCcs | rebuild
  | pendingLimit | handshakeEof
  -- what a read or a parser has thrown
  | thrown (fault : Fault)
  deriving DecidableEq, Repr

abbrev Relayed (α : Type) := Except RelayCode α

def orThrow {α : Type} : Except Fault α → Relayed α
  | .ok value => .ok value
  | .error fault => .error (.thrown fault)

structure GuardLimits where
  maxHelloBytes : Nat
  maxPendingBytes : Nat
  deriving DecidableEq, Repr

/-- `HelloRecords`: the records of a hello that is not yet whole. -/
structure HelloRecords where
  limit : Nat
  type : Nat
  records : List Bytes
  header : Bytes
  deriving DecidableEq, Repr

namespace HelloRecords

def init (limit type : Nat) : HelloRecords := ⟨limit, type, [], []⟩

def wire (hello : HelloRecords) : Bytes := hello.records.flatten

def payload (hello : HelloRecords) : Bytes := hello.records.flatMap (List.drop 5)

end HelloRecords

structure Collected where
  wire : Bytes
  body : Bytes
  extraBytes : Nat
  deriving DecidableEq, Repr

def HelloRecords.add (hello : HelloRecords) (record : Bytes) :
    Relayed (HelloRecords × Option Collected) :=
  if hello.limit < hello.wire.length + record.length then .error .handshakeLimit
  else
    let hello := { hello with
      records := hello.records ++ [record]
      header := fillHeader hello.header (record.drop 5) }
    if hello.header.length < 4 then .ok (hello, none)
    else if index hello.header (.int 0) ≠ .int hello.type then .error .retrySequence
    else
      (orThrow (readUInt24BE hello.header 1)).bind fun size =>
        let length := 4 + size
        if hello.limit < length then .error .handshakeLimit
        else if hello.payload.length < length then .ok (hello, none)
        else
          .ok (hello, some ⟨hello.wire, subarray hello.payload 4 length,
            hello.payload.length - length⟩)

def hrrRandom : Bytes :=
  [0xcf, 0x21, 0xad, 0x74, 0xe5, 0x9a, 0x61, 0x11, 0xbe, 0x1d, 0x8c, 0x02, 0x1e, 0x65, 0xb8, 0x91,
    0xc2, 0xa2, 0x11, 0x16, 0x7a, 0xbb, 0x8c, 0x5e, 0x07, 0x9e, 0x09, 0xe2, 0xc8, 0xa8, 0x33, 0x9c]

structure ServerHello where
  retry : Bool
  version : Nat
  deriving DecidableEq, Repr

/-- The loop over the extensions: the version that the last of them selects. -/
def serverExtensions (body : Bytes) : Nat → Nat → List Nat → Nat → Relayed Nat
  | 0, _, _, _ => .error (.thrown .stuck)
  | fuel + 1, offset, seen, version =>
    if offset < body.length then
      if body.length < offset + 4 then .error .serverHello
      else
        (orThrow (readUInt16BE body (.int offset))).bind fun type =>
        (orThrow (readUInt16BE body (.int (offset + 2)))).bind fun size =>
          let offset := offset + 4
          if body.length < offset + size ∨ type ∈ seen then .error .serverHello
          else if type = 43 then
            if size ≠ 2 then .error .serverHello
            else
              (orThrow (readUInt16BE body (.int offset))).bind fun version =>
                serverExtensions body fuel (offset + size) (type :: seen) version
          else serverExtensions body fuel (offset + size) (type :: seen) version
    else .ok version

/-- The version of the hello, and of its extensions where it has any. -/
def serverVersion (body : Bytes) (offset : Nat) : Relayed Nat :=
  (orThrow (readUInt16BE body (.int 0))).bind fun version =>
    if offset < body.length then
      if body.length < offset + 2 then .error .serverHello
      else
        (orThrow (readUInt16BE body (.int offset))).bind fun length =>
          let offset := offset + 2
          if offset + length ≠ body.length then .error .serverHello
          else serverExtensions body (body.length + 1) offset [] version
    else .ok version

def serverHello (body : Bytes) : Relayed ServerHello :=
  if body.length < 38 then .error .serverHello
  else
    match index body (.int 34) with
    | .nan => .error (.thrown .range)
    | .int sidLength =>
      -- session id, cipher suite, compression
      let offset := 35 + sidLength + 3
      if 32 < sidLength ∨ body.length < offset ∨ index body (.int (offset - 1)) ≠ .int 0 then
        .error .serverHello
      else
        (serverVersion body offset).bind fun version =>
          let retry := subarray body 2 34 = hrrRandom
          (orThrow (readUInt16BE body (.int 0))).bind fun legacy =>
            if retry ∧ (version ≠ 0x0304 ∨ legacy ≠ 0x0303) then .error .serverHello
            else .ok ⟨decide retry, version⟩

inductive Role where
  | client | exit
  deriving DecidableEq, Repr

inductive Way where
  | client | server
  deriving DecidableEq, Repr

inductive Phase where
  | serverFirst | clientRetry | serverFinal | done
  deriving DecidableEq, Repr

/-- One of the guard's `streams`. -/
structure HelloStream where
  pending : Bytes
  hello : Option HelloRecords
  deriving DecidableEq, Repr

structure RetryGuard where
  limits : GuardLimits
  role : Role
  relayHost : Bytes
  originHost : Bytes
  identity : Bytes
  inputSni : Bytes
  client : HelloStream
  server : HelloStream
  phase : Phase
  deriving DecidableEq, Repr

/-- `body.subarray(0, 35 + body[34])`. -/
def helloIdentity (body : Bytes) : Bytes :=
  match index body (.int 34) with
  | .nan => []
  | .int sidLength => subarray body 0 (35 + sidLength)

/-- The loop over the records of the first ClientHello. -/
def payloadBytes (wire : Bytes) : Nat → Nat → Relayed Nat
  | 0, _ => .error (.thrown .stuck)
  | fuel + 1, pos =>
    if pos < wire.length then
      (orThrow (readUInt16BE wire (.int (pos + 3)))).bind fun size =>
        (payloadBytes wire fuel (pos + 5 + size)).map (size + ·)
    else .ok 0

/-- `createHelloRetryGuard`; there is none for an offer without TLS 1.3. -/
def createHelloRetryGuard (limits : GuardLimits) (parsed : Hello) (wire : Bytes) (role : Role)
    (relayHost originHost : Bytes) : Relayed (Option RetryGuard) :=
  if 0x0304 ∉ parsed.extensions.supportedVersions then .ok none
  else
    match parsed.extensions.sni with
    | [name] =>
      (payloadBytes wire (wire.length + 1) 0).bind fun size =>
        if size ≠ 4 + parsed.clientHelloBody.length then .error .retrySequence
        else
          .ok (some {
            limits, role, relayHost, originHost
            identity := helloIdentity parsed.clientHelloBody
            inputSni := toText name
            client := ⟨[], none⟩
            server := ⟨[], none⟩
            phase := .serverFirst })
    | _ => .error .retryIdentity

namespace RetryGuard

def stream (guard : RetryGuard) : Way → HelloStream
  | .client => guard.client
  | .server => guard.server

def setStream (guard : RetryGuard) (way : Way) (stream : HelloStream) : RetryGuard :=
  match way with
  | .client => { guard with client := stream }
  | .server => { guard with server := stream }

/-- The second ClientHello with the other server name. -/
def rebuild (guard : RetryGuard) (wire : Bytes) : Except Fault (Option Bytes) :=
  match guard.role with
  | .client => (replaceFirstSniInTcpBuffer wire guard.relayHost).map
      fun result => result.toOption.map Replaced.prefixBuf
  | .exit => (restoreFirstSniInTcpBuffer wire guard.relayHost guard.originHost).map
      fun result => result.toOption.map Restored.prefixBuf

/-- A second ClientHello that is whole: its server name is rewritten. -/
def secondHello (guard : RetryGuard) (hello : Collected) : Relayed (RetryGuard × Bytes) :=
  (orThrow (parseFirstTlsClientHelloFromTcpBuf hello.wire)).bind fun next =>
    match next with
    | .ok next =>
      if hello.extraBytes ≠ 0 then .error .retrySequence
      else if next.extensions.sni.map toText ≠ [guard.inputSni] ∨
          0x0304 ∉ next.extensions.supportedVersions ∨
          helloIdentity next.clientHelloBody ≠ guard.identity then
        .error .retryIdentity
      else
        (orThrow (guard.rebuild hello.wire)).bind fun rebuilt =>
          match rebuilt with
          | none => .error .rebuild
          | some out =>
            if guard.limits.maxPendingBytes < out.length then .error .pendingLimit
            else .ok ({ guard with phase := .serverFinal }, out)
    | _ => .error .retrySequence

/-- A ServerHello or a HelloRetryRequest that is whole: it decides how the handshake goes on. -/
def answered (guard : RetryGuard) (hello : Collected) : Relayed (RetryGuard × Bytes) :=
  (serverHello hello.body).bind fun message =>
    if message.retry then
      if guard.phase ≠ .serverFirst ∨ hello.extraBytes ≠ 0 then .error .retrySequence
      else .ok ({ guard with phase := .clientRetry }, hello.wire)
    else if guard.phase = .serverFinal ∧ message.version ≠ 0x0304 then .error .retrySequence
    else .ok ({ guard with phase := .done }, hello.wire)

def record (guard : RetryGuard) (way : Way) (bytes : Bytes) : Relayed (RetryGuard × Bytes) :=
  let stream := guard.stream way
  let type := index bytes (.int 0)
  if type ≠ .int 0x16 then
    if stream.hello.isSome then .error .retrySequence
    else if type = .int 0x14 then
      if bytes.length ≠ 6 ∨ index bytes (.int 5) ≠ .int 1 then .error .retryCcs
      else .ok (guard, bytes)
    else if type = .int 0x15 then .ok (guard, bytes)
    -- early data may still be on its way when the two directions cross
    else if type = .int 0x17 ∧ way = .client ∧
        (guard.phase = .serverFirst ∨ guard.phase = .clientRetry) then .ok (guard, bytes)
    else .error .retrySequence
  else if way = .client ∧ guard.phase ≠ .clientRetry then .error .retrySequence
  else if way = .server ∧ guard.phase ≠ .serverFirst ∧ guard.phase ≠ .serverFinal then
    .error .retrySequence
  else
    let hello := stream.hello.getD
      (HelloRecords.init guard.limits.maxHelloBytes (if way = .client then 1 else 2))
    (hello.add bytes).bind fun (hello, whole) =>
      match whole with
      | none => .ok (guard.setStream way { stream with hello := some hello }, [])
      | some whole =>
        let guard := guard.setStream way { stream with hello := none }
        match way with
        | .server => guard.answered whole
        | .client => guard.secondHello whole

/-- The loop of `feed`: what it puts out, one record after the other. -/
def drain (way : Way) : Nat → RetryGuard → Relayed (RetryGuard × Bytes)
  | 0, _ => .error (.thrown .stuck)
  | fuel + 1, guard =>
    let stream := guard.stream way
    if stream.pending = [] then .ok (guard, [])
    else if guard.phase = .done then
      .ok (guard.setStream way { stream with pending := [] }, stream.pending)
    else if stream.pending.length < 5 then .ok (guard, [])
    else
      let type := index stream.pending (.int 0)
      (orThrow (readUInt16BE stream.pending (.int 3))).bind fun size =>
        if size = 0 ∨ (if type = .int 0x17 then 16640 else 16384) < size ∨
            (type = .int 0x16 ∧ guard.limits.maxHelloBytes < size + 5) then .error .handshakeLimit
        else if stream.pending.length < size + 5 then .ok (guard, [])
        else
          let bytes := stream.pending.take (size + 5)
          let guard := guard.setStream way { stream with pending := stream.pending.drop (size + 5) }
          (guard.record way bytes).bind fun (guard, transformed) =>
            (drain way fuel guard).map fun (guard, output) => (guard, transformed ++ output)

/-- `feed`, which `forward` and `reverse` call. -/
def feed (guard : RetryGuard) (way : Way) (chunk : Bytes) : Relayed (RetryGuard × Bytes) :=
  let stream := guard.stream way
  if guard.phase = .done ∧ stream.pending = [] then .ok (guard, chunk)
  else if guard.limits.maxHelloBytes + guard.limits.maxPendingBytes <
      stream.pending.length + chunk.length then .error .pendingLimit
  else
    let guard := guard.setStream way { stream with pending := stream.pending ++ chunk }
    drain way ((guard.stream way).pending.length + 1) guard

end RetryGuard

end Meshpn.Tls
