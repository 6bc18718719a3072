import Meshpn.Lib.Buffer

/-!
The ClientHello parsers: the one of the library, `tls-clienthello-ja3.mjs`,
and its copy in the multiplexer, `clean-vpn.js`. They differ in how they put a
message together from records, and in what they make of a damaged extension
block. Names stay bytes here; decoding them to text cannot fail.

A loop takes more fuel than it can use.

Reading a ClientHello body throws for bodies of 34 bytes and for no others.
There the session id's length is missing; its absence passes the length check
that follows and spoils the offset of the next read. Everywhere else each
offset stays inside what the guard ahead of it has established.
-/

namespace Meshpn.Tls

open Meshpn.Lib
open Meshpn.Lib.Bytes

/-- `TLS_MUX_MAX_CLIENT_BUF`. -/
def maxClientBuf : Nat := 512 * 1024

inductive Reason where
  | bufferMax | notTlsHandshake | nonHandshakeRecord | recordOversize | notClientHello
  | shortCh | shortCh2 | shortCh3 | shortCh4 | shortExt
  | extLengthOverflow | extTrailingOrSkippedBytes
  deriving DecidableEq, Repr

structure Extensions where
  sni : List Bytes
  alpn : List Bytes
  supportedVersions : List Nat
  deriving DecidableEq, Repr

/-- What a parser returns when it does not throw. -/
inductive Parse (α : Type) where
  | needMore (minTotal : Nat)
  | error (reason : Reason)
  | ok (value : α)
  deriving DecidableEq, Repr

/-- The fields ahead of the extensions, and where the extension block starts. The session
id's length is read before the body is known to have it. -/
def extensionBlock (ch : Bytes) : Except Fault (Except Reason (Nat × Bytes)) :=
  if ch.length < 34 then .ok (.error .shortCh)
  else
    let sidLen := index ch (.int 34)
    let o := Num.int 35
    if (o + sidLen + .int 2).exceeds ch.length then .ok (.error .shortCh2)
    else
      let o := o + sidLen
      (readUInt16BE ch o).bind fun csLen =>
        let o := o + .int 2
        if (o + .int csLen + .int 1).exceeds ch.length then .ok (.error .shortCh3)
        else
          let o := o + .int csLen
          let compLen := index ch o
          let o := o + .int 1
          if (o + compLen + .int 2).exceeds ch.length then .ok (.error .shortCh4)
          else
            let o := o + compLen
            (readUInt16BE ch o).bind fun extLen =>
              match o + .int 2 with
              | .nan => .error .range
              | .int start =>
                if ch.length < start + extLen then .ok (.error .shortExt)
                else .ok (.ok (start, subarray ch start (start + extLen)))

/-- The loop over the server names of one extension. -/
def readNames (ed : Bytes) : Nat → Nat → Int → List Bytes → Except Fault (List Bytes)
  | 0, _, _, _ => .error .stuck
  | fuel + 1, so, listLen, sni =>
    if so + 3 ≤ ed.length ∧ 3 ≤ listLen then
      let nt := index ed (.int so)
      (readUInt16BE ed (.int (so + 1))).bind fun nl =>
        if ed.length < so + 3 + nl then .ok sni
        else
          readNames ed fuel (so + 3 + nl) (listLen - (3 + nl))
            (if nt = .int 0 then sni ++ [subarray ed (so + 3) (so + 3 + nl)] else sni)
    else .ok sni

/-- The loop over the protocol names of one extension. -/
def readProtocols (ed : Bytes) : Nat → Nat → Int → List Bytes → Except Fault (List Bytes)
  | 0, _, _, _ => .error .stuck
  | fuel + 1, ao, listLen, alpn =>
    if ao + 1 ≤ ed.length ∧ 0 < listLen then
      match index ed (.int ao) with
      | .nan => .error .range
      | .int pl =>
        if ed.length < ao + 1 + pl then .ok alpn
        else
          readProtocols ed fuel (ao + 1 + pl) (listLen - (1 + pl))
            (alpn ++ [subarray ed (ao + 1) (ao + 1 + pl)])
    else .ok alpn

/-- The loop over the version numbers of one extension. -/
def readVersions (ed : Bytes) (stop : Nat) : Nat → Nat → List Nat → Except Fault (List Nat)
  | 0, _, _ => .error .stuck
  | fuel + 1, pos, versions =>
    if pos + 1 < stop then
      (readUInt16BE ed (.int pos)).bind fun version =>
        readVersions ed stop fuel (pos + 2) (versions ++ [version])
    else .ok versions

/-- One extension. -/
def readExtension (et : Nat) (ed : Bytes) (found : Extensions) : Except Fault Extensions :=
  if et = 0 ∧ 2 ≤ ed.length then
    (readUInt16BE ed (.int 0)).bind fun listLen =>
      (readNames ed (ed.length + 1) 2 listLen found.sni).map ({ found with sni := · })
  else if et = 16 ∧ 2 ≤ ed.length then
    (readUInt16BE ed (.int 0)).bind fun listLen =>
      (readProtocols ed (ed.length + 1) 2 listLen found.alpn).map ({ found with alpn := · })
  else if et = 43 ∧ 1 ≤ ed.length then
    match index ed (.int 0) with
    | .nan => .error .range
    | .int slen =>
      (readVersions ed (min ed.length (1 + slen)) (ed.length + 1) 1 found.supportedVersions).map
        ({ found with supportedVersions := · })
  else .ok found

/-- The loop over the extension block. A block that does not end with its last
extension is an error to the strict reader; the other one stops there. -/
def readExtensions (strict : Bool) (extBlock : Bytes) :
    Nat → Nat → Extensions → Except Fault (Except Reason Extensions)
  | 0, _, _ => .error .stuck
  | fuel + 1, eo, found =>
    if eo + 4 ≤ extBlock.length then
      (readUInt16BE extBlock (.int eo)).bind fun et =>
      (readUInt16BE extBlock (.int (eo + 2))).bind fun el =>
        if extBlock.length < eo + 4 + el then
          .ok (if strict then .error .extLengthOverflow else .ok found)
        else
          (readExtension et (subarray extBlock (eo + 4) (eo + 4 + el)) found).bind fun found =>
            readExtensions strict extBlock fuel (eo + 4 + el) found
    else if strict && eo != extBlock.length then .ok (.error .extTrailingOrSkippedBytes)
    else .ok (.ok found)

def readHello (strict : Bool) (ch : Bytes) : Except Fault (Except Reason Extensions) :=
  (extensionBlock ch).bind fun block =>
    match block with
    | .error reason => .ok (.error reason)
    | .ok (_, extBlock) => readExtensions strict extBlock (extBlock.length + 1) 0 ⟨[], [], []⟩

/-- The library's reader. -/
def parseTlsClientHelloReadableExtensions : Bytes → Except Fault (Except Reason Extensions) :=
  readHello true

/-- The multiplexer's reader. -/
def parseTlsClientHelloExtensions : Bytes → Except Fault (Except Reason Extensions) :=
  readHello false

/-- What the library's parser returns on success. -/
structure Hello where
  extensions : Extensions
  bytesConsumed : Nat
  clientHelloBody : Bytes
  deriving DecidableEq, Repr

/-- The multiplexer's result has no body. -/
structure MuxHello where
  extensions : Extensions
  bytesConsumed : Nat
  deriving DecidableEq, Repr

/-- The record at an offset: its content and where it ends. Both loops begin with this. -/
def readRecord (buf : Bytes) (offset : Nat) : Except Fault (Parse (Bytes × Nat)) :=
  if buf.length < offset + 5 then .ok (.needMore (offset + 5))
  else if index buf (.int offset) ≠ .int 0x16 then
    .ok (.error (if offset = 0 then .notTlsHandshake else .nonHandshakeRecord))
  else
    (readUInt16BE buf (.int (offset + 3))).bind fun recLen =>
      let recordEnd := offset + 5 + recLen
      if recLen < 1 ∨ maxClientBuf < recordEnd then .ok (.error .recordOversize)
      else if buf.length < recordEnd then .ok (.needMore recordEnd)
      else .ok (.ok (subarray buf (offset + 5) recordEnd, recordEnd))

/-- Up to four bytes of `payload` complete the header. -/
def fillHeader (header payload : Bytes) : Bytes :=
  if header.length < 4 then header ++ payload.take (min (4 - header.length) payload.length)
  else header

/-- The loop of the library's parser: `header` is the part of the handshake
header seen so far and `payloads` all of the records' content. -/
def parseRecords (buf : Bytes) : Nat → Bytes → Bytes → Nat → Except Fault (Parse Hello)
  | 0, _, _, _ => .error .stuck
  | fuel + 1, payloads, header, offset =>
    (readRecord buf offset).bind fun record =>
      match record with
      | .needMore minTotal => .ok (.needMore minTotal)
      | .error reason => .ok (.error reason)
      | .ok (payload, recordEnd) =>
        let payloads := payloads ++ payload
        let header := fillHeader header payload
        if header.length < 4 then parseRecords buf fuel payloads header recordEnd
        else if index header (.int 0) ≠ .int 1 then .ok (.error .notClientHello)
        else
          (readUInt24BE header 1).bind fun hsLen =>
            if payloads.length < 4 + hsLen then parseRecords buf fuel payloads header recordEnd
            else
              let ch := subarray payloads 4 (4 + hsLen)
              (parseTlsClientHelloReadableExtensions ch).map fun ext =>
                match ext with
                | .error reason => .error reason
                | .ok extensions => .ok ⟨extensions, recordEnd, ch⟩

/-- The library's parser. -/
def parseFirstTlsClientHelloFromTcpBuf (buf : Bytes) : Except Fault (Parse Hello) :=
  if maxClientBuf < buf.length then .ok (.error .bufferMax)
  else if buf.length < 5 then .ok (.needMore 5)
  else if index buf (.int 0) ≠ .int 0x16 then .ok (.error .notTlsHandshake)
  else parseRecords buf (buf.length + 1) [] [] 0

/-- The loop of the multiplexer's parser, which looks at all of the records'
content after each of them. -/
def parseCombined (buf : Bytes) : Nat → Bytes → Nat → Except Fault (Parse MuxHello)
  | 0, _, _ => .error .stuck
  | fuel + 1, payloads, offset =>
    (readRecord buf offset).bind fun record =>
      match record with
      | .needMore minTotal => .ok (.needMore minTotal)
      | .error reason => .ok (.error reason)
      | .ok (payload, recordEnd) =>
        let combined := payloads ++ payload
        if combined.length < 4 then parseCombined buf fuel combined recordEnd
        else if index combined (.int 0) ≠ .int 1 then .ok (.error .notClientHello)
        else
          (readUInt24BE combined 1).bind fun hsLen =>
            if combined.length < 4 + hsLen then parseCombined buf fuel combined recordEnd
            else
              (parseTlsClientHelloExtensions (subarray combined 4 (4 + hsLen))).map fun ext =>
                match ext with
                | .error reason => .error reason
                | .ok extensions => .ok ⟨extensions, recordEnd⟩

/-- The multiplexer's parser. -/
def parseFirstTlsClientHello (buf : Bytes) : Except Fault (Parse MuxHello) :=
  if maxClientBuf < buf.length then .ok (.error .bufferMax)
  else if buf.length < 5 then .ok (.needMore 5)
  else if index buf (.int 0) ≠ .int 0x16 then .ok (.error .notTlsHandshake)
  else parseCombined buf (buf.length + 1) [] 0

theorem extensionBlock_cut {ch : Bytes} (h : ch.length = 34) :
    extensionBlock ch = .error .range := by
  have hindex : index ch (.int 34) = .nan := index_end (by omega)
  simp [extensionBlock, h, hindex, readUInt16BE, Except.bind]

theorem extensionBlock_ok {ch : Bytes} (h : ch.length ≠ 34) :
    ∃ result, extensionBlock ch = .ok result := by
  rw [extensionBlock]
  split
  case isTrue => exact ⟨_, rfl⟩
  rename_i hlong
  have hsidLen : 34 < ch.length := by omega
  simp only [index_int hsidLen, Num.int_add, Num.exceeds_int, decide_eq_true_eq]
  split
  case isTrue => exact ⟨_, rfl⟩
  rename_i hsid
  obtain ⟨csLen, _, hcs⟩ := readUInt16BE_int ch _ (Nat.not_lt.mp hsid)
  simp only [hcs, Except.bind]
  split
  case isTrue => exact ⟨_, rfl⟩
  rename_i hcomp
  have hcompLen : 35 + ch[34].toNat + 2 + csLen < ch.length := by omega
  simp only [index_int hcompLen, Num.int_add, Num.exceeds_int, decide_eq_true_eq]
  split
  case isTrue => exact ⟨_, rfl⟩
  rename_i hext
  obtain ⟨extLen, _, hread⟩ := readUInt16BE_int ch _ (Nat.not_lt.mp hext)
  simp only [hread]
  split
  · exact ⟨_, rfl⟩
  · exact ⟨_, rfl⟩

theorem extensionBlock_fields {ch : Bytes} {start : Nat} {extBlock : Bytes}
    (h : extensionBlock ch = .ok (.ok (start, extBlock))) :
    ∃ sidLen csLen compLen extLen, 34 ≤ ch.length ∧ index ch (.int 34) = .int sidLen ∧
      readUInt16BE ch (.int (35 + sidLen)) = .ok csLen ∧
      index ch (.int (35 + sidLen + 2 + csLen)) = .int compLen ∧
      readUInt16BE ch (.int (35 + sidLen + 2 + csLen + 1 + compLen)) = .ok extLen ∧
      start = 35 + sidLen + 2 + csLen + 1 + compLen + 2 ∧ start + extLen ≤ ch.length ∧
      extBlock = subarray ch start (start + extLen) := by
  have hlength : ch.length ≠ 34 := by
    intro hcut
    rw [extensionBlock_cut hcut] at h
    simp at h
  rw [extensionBlock] at h
  split at h
  case isTrue => simp at h
  rename_i hlong
  have hsidLen : 34 < ch.length := by omega
  simp only [index_int hsidLen, Num.int_add, Num.exceeds_int, decide_eq_true_eq] at h
  split at h
  case isTrue => simp at h
  rename_i hsid
  obtain ⟨csLen, _, hcs⟩ := readUInt16BE_int ch _ (Nat.not_lt.mp hsid)
  simp only [hcs, Except.bind] at h
  split at h
  case isTrue => simp at h
  rename_i hcomp
  have hcompLen : 35 + ch[34].toNat + 2 + csLen < ch.length := by omega
  simp only [index_int hcompLen, Num.int_add, Num.exceeds_int, decide_eq_true_eq] at h
  split at h
  case isTrue => simp at h
  rename_i hext
  obtain ⟨extLen, _, hread⟩ := readUInt16BE_int ch _ (Nat.not_lt.mp hext)
  simp only [hread] at h
  split at h
  case isTrue => simp at h
  rename_i hblock
  simp only [Except.ok.injEq, Prod.mk.injEq] at h
  obtain ⟨rfl, rfl⟩ := h
  exact ⟨_, csLen, _, extLen, by omega, index_int hsidLen, hcs, index_int hcompLen,
    hread, rfl, Nat.not_lt.mp hblock, rfl⟩

theorem readNames_ok (ed : Bytes) (fuel so : Nat) (listLen : Int) (sni : List Bytes)
    (hfuel : ed.length < fuel + so) (hso : so ≤ ed.length) :
    ∃ names, readNames ed fuel so listLen sni = .ok names := by
  induction fuel generalizing so listLen sni with
  | zero => omega
  | succ fuel ih =>
    rw [readNames]
    split
    case isTrue hguard =>
      obtain ⟨nl, _, hread⟩ := readUInt16BE_int ed (so + 1) (by omega)
      rw [hread]
      simp only [Except.bind]
      split
      · exact ⟨_, rfl⟩
      · exact ih _ _ _ (by omega) (by omega)
    case isFalse => exact ⟨_, rfl⟩

theorem readProtocols_ok (ed : Bytes) (fuel ao : Nat) (listLen : Int) (alpn : List Bytes)
    (hfuel : ed.length < fuel + ao) (hao : ao ≤ ed.length) :
    ∃ names, readProtocols ed fuel ao listLen alpn = .ok names := by
  induction fuel generalizing ao listLen alpn with
  | zero => omega
  | succ fuel ih =>
    rw [readProtocols]
    split
    case isTrue hguard =>
      rw [index_int (show ao < ed.length by omega)]
      simp only
      split
      · exact ⟨_, rfl⟩
      · exact ih _ _ _ (by omega) (by omega)
    case isFalse => exact ⟨_, rfl⟩

theorem readVersions_ok (ed : Bytes) {stop : Nat} (hstop : stop ≤ ed.length) (fuel pos : Nat)
    (versions : List Nat) (hfuel : ed.length < fuel + pos) (hpos : pos ≤ ed.length) :
    ∃ found, readVersions ed stop fuel pos versions = .ok found := by
  induction fuel generalizing pos versions with
  | zero => omega
  | succ fuel ih =>
    rw [readVersions]
    split
    case isTrue hguard =>
      obtain ⟨version, _, hread⟩ := readUInt16BE_int ed pos (by omega)
      rw [hread]
      exact ih _ _ (by omega) (by omega)
    case isFalse => exact ⟨_, rfl⟩

theorem readExtension_ok (et : Nat) (ed : Bytes) (found : Extensions) :
    ∃ next, readExtension et ed found = .ok next := by
  rw [readExtension]
  split
  case isTrue hname =>
    obtain ⟨listLen, _, hread⟩ := readUInt16BE_int ed 0 (by omega)
    obtain ⟨names, hnames⟩ :=
      readNames_ok ed (ed.length + 1) 2 listLen found.sni (by omega) (by omega)
    exact ⟨{ found with sni := names }, by simp [hread, hnames, Except.bind, Except.map]⟩
  case isFalse =>
    split
    case isTrue hprotocol =>
      obtain ⟨listLen, _, hread⟩ := readUInt16BE_int ed 0 (by omega)
      obtain ⟨names, hnames⟩ :=
        readProtocols_ok ed (ed.length + 1) 2 listLen found.alpn (by omega) (by omega)
      exact ⟨{ found with alpn := names }, by simp [hread, hnames, Except.bind, Except.map]⟩
    case isFalse =>
      split
      case isTrue hversion =>
        rw [index_int (show 0 < ed.length by omega)]
        obtain ⟨versions, hversions⟩ := readVersions_ok ed
          (Nat.min_le_left ed.length (1 + ed[0].toNat)) (ed.length + 1) 1
          found.supportedVersions (by omega) (by omega)
        exact ⟨{ found with supportedVersions := versions }, by simp [hversions, Except.map]⟩
      case isFalse => exact ⟨found, rfl⟩

theorem readExtensions_ok (strict : Bool) (extBlock : Bytes) (fuel eo : Nat) (found : Extensions)
    (hfuel : extBlock.length < fuel + eo) (heo : eo ≤ extBlock.length) :
    ∃ result, readExtensions strict extBlock fuel eo found = .ok result := by
  induction fuel generalizing eo found with
  | zero => omega
  | succ fuel ih =>
    rw [readExtensions]
    split
    case isTrue hguard =>
      obtain ⟨et, _, htype⟩ := readUInt16BE_int extBlock eo (by omega)
      obtain ⟨el, _, hlength⟩ := readUInt16BE_int extBlock (eo + 2) (by omega)
      rw [htype, hlength]
      simp only [Except.bind]
      split
      · exact ⟨_, rfl⟩
      obtain ⟨next, hnext⟩ :=
        readExtension_ok et (subarray extBlock (eo + 4) (eo + 4 + el)) found
      rw [hnext]
      exact ih _ _ (by omega) (by omega)
    case isFalse =>
      split
      · exact ⟨_, rfl⟩
      · exact ⟨_, rfl⟩

theorem readHello_cut (strict : Bool) {ch : Bytes} (h : ch.length = 34) :
    readHello strict ch = .error .range := by
  rw [readHello, extensionBlock_cut h]
  rfl

theorem readHello_ok (strict : Bool) {ch : Bytes} (h : ch.length ≠ 34) :
    ∃ result, readHello strict ch = .ok result := by
  obtain ⟨block, hblock⟩ := extensionBlock_ok h
  rw [readHello, hblock]
  cases block with
  | error reason => exact ⟨_, rfl⟩
  | ok found =>
    exact readExtensions_ok strict found.2 (found.2.length + 1) 0 _ (by omega) (by omega)

end Meshpn.Tls
