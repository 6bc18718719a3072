import Meshpn.Lib.Utf8
import Meshpn.Tls.ClientHello

/-!
The walks of `transparent-tls-ch-rebuild.mjs` over a body: where its first
server name is, and whether it can be rewritten. They guard less than the
parser, and read no missing byte of a body that the parser accepted.

The rewriting of `transparent-tls-ch-rebuild.mjs`: another name in the place of
the first server name of the first ClientHello of a TCP stream. Five length
fields follow the name's length, the record in which the name begins grows or
shrinks with it, and all other records keep their sizes.

A name is a string, which stands for its UTF-8 encoding. A write outside the
range of its field throws, which is caught and becomes a reason.
-/

namespace Meshpn.Tls

open Meshpn.Lib
open Meshpn.Lib.Bytes

/-- Offsets into the body. -/
structure SniLayout where
  hostnameStartChBodyAbs : Nat
  hostnameLenBytes : Nat
  sniListLenPos : Nat
  sniExtLenPos : Nat
  extensionsTotalLenPos : Nat
  deriving DecidableEq, Repr

/-- The inner loop: offset and length of the first host name of a server name extension. -/
def findName (ed : Bytes) : Nat → Nat → Int → Except Fault (Option (Nat × Nat))
  | 0, _, _ => .error .stuck
  | fuel + 1, so, listLen =>
    if so + 3 ≤ ed.length ∧ 3 ≤ listLen then
      let nt := index ed (.int so)
      (readUInt16BE ed (.int (so + 1))).bind fun nl =>
        if ed.length < so + 3 + nl then .ok none
        else if nt = .int 0 then .ok (some (so + 3, nl))
        else findName ed fuel (so + 3 + nl) (listLen - (3 + nl))
    else .ok none

/-- The name inside one extension; `none` for an extension of another type. -/
def nameOf (et : Nat) (ed : Bytes) : Except Fault (Option (Nat × Nat)) :=
  if et = 0 ∧ 2 ≤ ed.length then
    (readUInt16BE ed (.int 0)).bind fun listLen => findName ed (ed.length + 1) 2 listLen
  else .ok none

/-- The outer loop. An extension that overruns the block is cut short by it. -/
def findSni (extBlockStart : Nat) (extBlock : Bytes) :
    Nat → Nat → Except Fault (Option SniLayout)
  | 0, _ => .error .stuck
  | fuel + 1, eo =>
    if eo + 4 ≤ extBlock.length then
      (readUInt16BE extBlock (.int eo)).bind fun et =>
      (readUInt16BE extBlock (.int (eo + 2))).bind fun el =>
        let bodyRel := eo + 4
        (nameOf et (subarray extBlock bodyRel (bodyRel + el))).bind fun name =>
          match name with
          | some (so, nl) => .ok (some
            { hostnameStartChBodyAbs := extBlockStart + bodyRel + so
              hostnameLenBytes := nl
              sniListLenPos := extBlockStart + bodyRel
              sniExtLenPos := extBlockStart + bodyRel - 2
              extensionsTotalLenPos := extBlockStart - 2 })
          | none => findSni extBlockStart extBlock fuel (eo + 4 + el)
    else .ok none

def findFirstSniLayoutInClientHelloBody (chBody : Bytes) : Except Fault (Option SniLayout) :=
  (extensionBlock chBody).bind fun block =>
    match block with
    | .error _ => .ok none
    | .ok (start, extBlock) => findSni start extBlock (extBlock.length + 1) 0

/-- `clientHelloBlockedForEncSni`; true for `'ch_short'`. Only the last two
lengths are checked before they are used. -/
def clientHelloBlockedForEncSni (chBody : Bytes) : Except Fault Bool :=
  if chBody.length < 34 then .ok true
  else
    let o := Num.int 34
    let sidLen := index chBody o
    let o := o + (.int 1 + sidLen)
    (readUInt16BE chBody o).bind fun csLen =>
      let o := o + .int (2 + csLen)
      let compLen := index chBody o
      let o := o + (.int 1 + compLen)
      if (o + .int 2).exceeds chBody.length then .ok true
      else
        (readUInt16BE chBody o).bind fun extLen =>
          .ok ((o + .int 2 + .int extLen).exceeds chBody.length)

theorem findName_ok (ed : Bytes) (fuel so : Nat) (listLen : Int)
    (hfuel : ed.length < fuel + so) (hso : so ≤ ed.length) :
    ∃ name, findName ed fuel so listLen = .ok name := by
  induction fuel generalizing so listLen with
  | zero => omega
  | succ fuel ih =>
    rw [findName]
    split
    case isTrue hguard =>
      obtain ⟨nl, _, hread⟩ := readUInt16BE_int ed (so + 1) (by omega)
      rw [hread]
      simp only [Except.bind]
      split
      · exact ⟨_, rfl⟩
      split
      · exact ⟨_, rfl⟩
      · exact ih _ _ (by omega) (by omega)
    case isFalse => exact ⟨_, rfl⟩

theorem nameOf_ok (et : Nat) (ed : Bytes) : ∃ name, nameOf et ed = .ok name := by
  rw [nameOf]
  split
  case isTrue hname =>
    obtain ⟨listLen, _, hread⟩ := readUInt16BE_int ed 0 (by omega)
    rw [hread]
    exact findName_ok ed (ed.length + 1) 2 listLen (by omega) (by omega)
  case isFalse => exact ⟨none, rfl⟩

-- an overrunning extension may carry the offset past the block, where the loop ends
theorem findSni_ok (extBlockStart : Nat) (extBlock : Bytes) (fuel eo : Nat)
    (hfuel : extBlock.length < fuel + eo) (hpositive : 0 < fuel) :
    ∃ layout, findSni extBlockStart extBlock fuel eo = .ok layout := by
  induction fuel generalizing eo with
  | zero => omega
  | succ fuel ih =>
    rw [findSni]
    split
    case isTrue hguard =>
      obtain ⟨et, _, htype⟩ := readUInt16BE_int extBlock eo (by omega)
      obtain ⟨el, _, hlength⟩ := readUInt16BE_int extBlock (eo + 2) (by omega)
      obtain ⟨name, hname⟩ := nameOf_ok et (subarray extBlock (eo + 4) (eo + 4 + el))
      rw [htype, hlength]
      simp only [Except.bind, hname]
      cases name with
      | none => exact ih _ (by omega) (by omega)
      | some found => exact ⟨_, rfl⟩
    case isFalse => exact ⟨none, rfl⟩

theorem findFirstSniLayoutInClientHelloBody_ok {chBody : Bytes} (h : chBody.length ≠ 34) :
    ∃ layout, findFirstSniLayoutInClientHelloBody chBody = .ok layout := by
  obtain ⟨block, hblock⟩ := extensionBlock_ok h
  rw [findFirstSniLayoutInClientHelloBody, hblock]
  cases block with
  | error reason => exact ⟨none, rfl⟩
  | ok found => exact findSni_ok found.1 found.2 (found.2.length + 1) 0 (by omega) (by omega)

theorem clientHelloBlockedForEncSni_accepted {chBody : Bytes} {start : Nat} {extBlock : Bytes}
    (h : extensionBlock chBody = .ok (.ok (start, extBlock))) :
    clientHelloBlockedForEncSni chBody = .ok false := by
  obtain ⟨sidLen, csLen, compLen, extLen, hlong, hsid, hcs, hcomp, hext, rfl, hend, _⟩ :=
    extensionBlock_fields h
  have hcs' : readUInt16BE chBody (.int (34 + (1 + sidLen))) = .ok csLen := by
    rw [← Nat.add_assoc]
    exact hcs
  have hcomp' : index chBody (.int (34 + (1 + sidLen) + (2 + csLen))) = .int compLen := by
    rw [show 34 + (1 + sidLen) + (2 + csLen) = 35 + sidLen + 2 + csLen by omega]
    exact hcomp
  have hext' : readUInt16BE chBody
      (.int (34 + (1 + sidLen) + (2 + csLen) + (1 + compLen))) = .ok extLen := by
    rw [show 34 + (1 + sidLen) + (2 + csLen) + (1 + compLen) =
      35 + sidLen + 2 + csLen + 1 + compLen by omega]
    exact hext
  have hfits : ¬ chBody.length < 34 + (1 + sidLen) + (2 + csLen) + (1 + compLen) + 2 := by omega
  have hwhole : ¬ chBody.length <
      34 + (1 + sidLen) + (2 + csLen) + (1 + compLen) + 2 + extLen := by omega
  simp only [clientHelloBlockedForEncSni, if_neg (Nat.not_lt.mpr hlong), hsid, Num.int_add, hcs',
    Except.bind, hcomp', Num.exceeds_int, hfits, decide_false, Bool.false_eq_true, if_false,
    hext', hwhole]

/-- The largest fragment of a record, `MAX_PLAINTEXT_RECORD_BYTES`. -/
def maxPlaintextRecordBytes : Nat := 16 * 1024

inductive RewriteReason where
  | needMoreClientHello
  | parse (reason : Reason)
  | noSni
  | chShort
  | sniHostnameOffsetNotFound
  | relaySniLength
  | recordPlaintextOversize
  | recordLayoutResizeUnsupported
  | sniHostnameNotRelayExpectation
  -- the message of an exception
  | thrown (fault : Fault)
  deriving DecidableEq, Repr

/-- What is thrown inside of the `try` becomes a reason. -/
def attempt {α : Type} : Except Fault α → Except RewriteReason α
  | .ok value => .ok value
  | .error fault => .error (.thrown fault)

def writeUInt16BE (buf : Bytes) (value : Int) (pos : Nat) : Except Fault Bytes :=
  if 0 ≤ value ∧ value < 65536 ∧ pos + 2 ≤ buf.length then
    .ok (buf.take pos ++ ofUInt16 value.toNat ++ buf.drop (pos + 2))
  else .error .range

/-- `out.writeUInt16BE(out.readUInt16BE(pos) + delta, pos)`. -/
def addUInt16BE (buf : Bytes) (delta : Int) (pos : Nat) : Except Fault Bytes :=
  (readUInt16BE buf (.int pos)).bind fun value => writeUInt16BE buf (value + delta) pos

def rebuildClientHelloBodyWithHostname (chBody newHostname : Bytes) :
    Except RewriteReason Bytes :=
  (attempt (clientHelloBlockedForEncSni chBody)).bind fun blocked =>
    if blocked then .error .chShort
    else
      (attempt (findFirstSniLayoutInClientHelloBody chBody)).bind fun found =>
        match found with
        | none => .error .sniHostnameOffsetNotFound
        | some layout =>
          let start := layout.hostnameStartChBodyAbs
          let oldHost := subarray chBody start (start + layout.hostnameLenBytes)
          if newHostname.length < 1 ∨ 253 < newHostname.length then .error .relaySniLength
          else
            let delta : Int := newHostname.length - oldHost.length
            let out := chBody.take start ++ newHostname ++
              chBody.drop (start + layout.hostnameLenBytes)
            attempt <|
              (writeUInt16BE out newHostname.length (start - 2)).bind fun out =>
              (addUInt16BE out delta layout.sniListLenPos).bind fun out =>
              (addUInt16BE out delta layout.sniExtLenPos).bind fun out =>
              addUInt16BE out delta layout.extensionsTotalLenPos

/-- A record's header, and the size it will have. -/
structure SizedRecord where
  header : Bytes
  size : Nat

/-- The loop over the records of the ClientHello: their headers with the new sizes, and their
content. The record in which the host name begins takes up the difference. -/
def sizeRecords (tcpBuf : Bytes) (bytesConsumed hostnameStart : Nat) (delta : Int) :
    Nat → Nat → Nat → Except RewriteReason (List SizedRecord × Bytes)
  | 0, _, _ => .error (.thrown .stuck)
  | fuel + 1, offset, payloadOffset =>
    if offset < bytesConsumed then
      (attempt (readUInt16BE tcpBuf (.int (offset + 3)))).bind fun size =>
        if maxPlaintextRecordBytes < size then .error .recordPlaintextOversize
        else
          let ownsSniStart := payloadOffset ≤ hostnameStart ∧ hostnameStart < payloadOffset + size
          let newSize : Int := size + if ownsSniStart then delta else 0
          if newSize < 1 ∨ newSize > maxPlaintextRecordBytes ∨
              (ownsSniStart ∧ newSize ≤ (hostnameStart : Int) - payloadOffset) then
            .error .recordLayoutResizeUnsupported
          else
            (sizeRecords tcpBuf bytesConsumed hostnameStart delta fuel (offset + 5 + size)
              (payloadOffset + size)).map fun (records, payload) =>
                (⟨subarray tcpBuf offset (offset + 5), newSize.toNat⟩ :: records,
                  subarray tcpBuf (offset + 5) (offset + 5 + size) ++ payload)
    else .ok ([], [])

/-- The loop that writes the records one after the other. -/
def writeRecords (newPayload : Bytes) : List SizedRecord → Nat → Bytes
  | [], _ => []
  | record :: records, source =>
    record.header.take 3 ++ ofUInt16 record.size ++
      subarray newPayload source (source + record.size) ++
      writeRecords newPayload records (source + record.size)

/-- `buf.writeUIntBE(value, 1, 3)` on a header that begins with the message type. -/
def handshakeHeader (length : Nat) : Except Fault Bytes :=
  if length < 16777216 then .ok (1 :: UInt8.ofNat (length / 65536) :: ofUInt16 (length % 65536))
  else .error .range

/-- `rebuildTcpPrefixWithClientHelloBody`. The buffer it fills has zeros to begin with. -/
def rebuildTcpPrefixWithClientHelloBody (tcpBuf : Bytes) (parsed : Hello) (newChBody : Bytes) :
    Except RewriteReason Bytes :=
  (attempt (findFirstSniLayoutInClientHelloBody parsed.clientHelloBody)).bind fun found =>
    match found with
    | none => .error .sniHostnameOffsetNotFound
    | some layout =>
      let hostnameStart := 4 + layout.hostnameStartChBodyAbs
      let delta : Int := newChBody.length - parsed.clientHelloBody.length
      (sizeRecords tcpBuf parsed.bytesConsumed hostnameStart delta (tcpBuf.length + 1) 0 0).bind
        fun (records, oldPayload) =>
          (attempt (handshakeHeader newChBody.length)).bind fun header =>
            let newPayload := header ++ newChBody ++
              oldPayload.drop (4 + parsed.clientHelloBody.length)
            let length := (parsed.bytesConsumed + delta : Int).toNat
            let out := writeRecords newPayload records 0
            .ok ((out ++ List.replicate (length - out.length) 0).take length)

structure Replaced where
  originHost : Bytes
  relayHost : Bytes
  prefixBuf : Bytes
  tailAfterPrefix : Bytes
  deriving DecidableEq, Repr

/-- A refusal, with the name that was found before it. -/
structure Refusal where
  reason : RewriteReason
  originHost : Option Bytes
  deriving DecidableEq, Repr

def replaceFirstSniInTcpBuffer (tcpBuf newHostname : Bytes) :
    Except Fault (Except Refusal Replaced) :=
  (parseFirstTlsClientHelloFromTcpBuf tcpBuf).bind fun parsed =>
    match parsed with
    | .needMore _ => .ok (.error ⟨.needMoreClientHello, none⟩)
    | .error reason => .ok (.error ⟨.parse reason, none⟩)
    | .ok p =>
      (parseTlsClientHelloReadableExtensions p.clientHelloBody).bind fun extRead =>
        match extRead with
        | .error _ => .ok (.error ⟨.noSni, none⟩)
        | .ok extensions =>
          match extensions.sni with
          | [] => .ok (.error ⟨.noSni, none⟩)
          | host :: _ =>
            (clientHelloBlockedForEncSni p.clientHelloBody).bind fun blocked =>
              if blocked then .ok (.error ⟨.chShort, none⟩)
              else
                let originHost := toText host
                let rebuilt :=
                  (rebuildClientHelloBodyWithHostname p.clientHelloBody newHostname).bind
                    (rebuildTcpPrefixWithClientHelloBody tcpBuf p)
                match rebuilt with
                | .error reason => .ok (.error ⟨reason, some originHost⟩)
                | .ok prefixBuf =>
                  .ok (.ok ⟨originHost, newHostname, prefixBuf, tcpBuf.drop p.bytesConsumed⟩)

structure Restored where
  prefixBuf : Bytes
  tailAfterPrefix : Bytes
  deriving DecidableEq, Repr

def restoreFirstSniInTcpBuffer (tcpBuf relayHostname originHostname : Bytes) :
    Except Fault (Except RewriteReason Restored) :=
  (parseFirstTlsClientHelloFromTcpBuf tcpBuf).bind fun parsed =>
    match parsed with
    | .needMore _ => .ok (.error .needMoreClientHello)
    | .error reason => .ok (.error (.parse reason))
    | .ok p =>
      (parseTlsClientHelloReadableExtensions p.clientHelloBody).bind fun extRead =>
        match extRead with
        | .error _ => .ok (.error .sniHostnameNotRelayExpectation)
        | .ok extensions =>
          if extensions.sni.head?.map toText ≠ some relayHostname then
            .ok (.error .sniHostnameNotRelayExpectation)
          else
            let rebuilt :=
              (rebuildClientHelloBodyWithHostname p.clientHelloBody originHostname).bind
                (rebuildTcpPrefixWithClientHelloBody tcpBuf p)
            match rebuilt with
            | .error reason => .ok (.error reason)
            | .ok prefixBuf => .ok (.ok ⟨prefixBuf, tcpBuf.drop p.bytesConsumed⟩)

end Meshpn.Tls
