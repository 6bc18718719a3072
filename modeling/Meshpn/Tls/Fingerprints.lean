import Mathlib.Data.String.Basic
import Meshpn.Tls.ClientHello

/-!
The fingerprints of a ClientHello body, `tls-clienthello-ja3.mjs` and
`tls-clienthello-ja4.mjs`. Each function walks over the body by itself; the loops over
the extensions differ only in what they do with one of them, and in their errors. The
digests are functions that the fingerprints are built with.
-/

namespace Meshpn.Tls.Fingerprint

open Meshpn.Lib
open Meshpn.Lib.Bytes

/-- Why a function threw. -/
inductive Thrown where
  | fault (fault : Fault)
  | message (text : String)
  deriving DecidableEq, Repr

def raise {α : Type} : Except Fault α → Except Thrown α
  | .ok value => .ok value
  | .error fault => .error (.fault fault)

/-- `TLS_GREASE_VALUES`. -/
def greaseValues : List Nat :=
  [0x0a0a, 0x1a1a, 0x2a2a, 0x3a3a, 0x4a4a, 0x5a5a, 0x6a6a, 0x7a7a, 0x8a8a, 0x9a9a, 0xaaaa, 0xbaba,
    0xcaca, 0xdada, 0xeaea, 0xfafa]

def isGrease (n : Nat) : Bool := greaseValues.contains n

def tlsExtensionTypeIsGrease (et : Nat) : Bool :=
  et &&& 0x0f0f == 0x0a0a && et >>> 8 &&& 0xff == et &&& 0xff

/-- The two tests of an extension's type. -/
def skipped (et : Nat) : Bool := isGrease et || tlsExtensionTypeIsGrease et

/-- The loop over the cipher suites: where it ends, and what it found. -/
def readCiphers (body : Bytes) (cipherEnd : Nat) :
    Nat → Nat → List Nat → Except Thrown (Nat × List Nat)
  | 0, _, _ => .error (.fault .stuck)
  | fuel + 1, o, ciphers =>
    if o < cipherEnd then
      (raise (readUInt16BE body (.int o))).bind fun cs =>
        readCiphers body cipherEnd fuel (o + 2) (if isGrease cs then ciphers else ciphers ++ [cs])
    else .ok (o, ciphers)

/-- What is ahead of the extensions, and the bounds of their block. -/
structure Front where
  legacyVersion : Nat
  ciphers : List Nat
  start : Nat
  extEnd : Nat
  deriving DecidableEq, Repr

/-- The first part of the functions for JA3 and JA4, which differ in the error's text. -/
def readFront (noBlock : String) (body : Bytes) : Except Thrown Front :=
  (raise (readUInt16BE body (.int 0))).bind fun legacyVersion =>
    let sidLen := index body (.int 34)
    let o := Num.int 34 + (.int 1 + sidLen)
    (raise (readUInt16BE body o)).bind fun cipherLen =>
      match o + .int 2 with
      | .nan => .error (.fault .range)
      | .int o =>
        (readCiphers body (o + cipherLen) (body.length + 1) o []).bind fun (o, ciphers) =>
          let compLen := index body (.int o)
          let o := Num.int o + (.int 1 + compLen)
          if (o + .int 2).exceeds body.length then .error (.message noBlock)
          else
            (raise (readUInt16BE body o)).bind fun extTotal =>
              match o + .int 2 with
              | .nan => .error (.fault .range)
              | .int start => .ok ⟨legacyVersion, ciphers, start, start + extTotal⟩

/-- The loop over the extensions, with what is done with one that is not skipped. -/
def walk {α : Type} (cut mismatch : String) (step : α → Nat → Bytes → Except Thrown α) (body : Bytes)
    (extEnd : Nat) : Nat → Nat → α → Except Thrown α
  | 0, _, _ => .error (.fault .stuck)
  | fuel + 1, o, found =>
    if o + 4 ≤ extEnd ∧ o + 4 ≤ body.length then
      (raise (readUInt16BE body (.int o))).bind fun et =>
      (raise (readUInt16BE body (.int (o + 2)))).bind fun elen =>
        if body.length < o + 4 + elen ∨ extEnd < o + 4 + elen then .error (.message cut)
        else
          let edata := subarray body (o + 4) (o + 4 + elen)
          if skipped et then walk cut mismatch step body extEnd fuel (o + 4 + elen) found
          else
            (step found et edata).bind fun found =>
              walk cut mismatch step body extEnd fuel (o + 4 + elen) found
    else if o ≠ extEnd then .error (.message mismatch)
    else .ok found

/-- The loop over the numbers of one extension, without GREASE. -/
def readWords (edata : Bytes) (stop : Nat) : Nat → Nat → List Nat → Except Thrown (List Nat)
  | 0, _, _ => .error (.fault .stuck)
  | fuel + 1, i, found =>
    if i < stop ∧ i + 2 ≤ edata.length then
      (raise (readUInt16BE edata (.int i))).bind fun n =>
        readWords edata stop fuel (i + 2) (if isGrease n then found else found ++ [n])
    else .ok found

/-- A list of numbers with its length in front. -/
def readWordList (edata : Bytes) (found : List Nat) : Except Thrown (List Nat) :=
  (raise (readUInt16BE edata (.int 0))).bind fun length =>
    readWords edata (2 + length) (edata.length + 1) 2 found

structure Ja3Components where
  legacyVersion : Nat
  ciphers : List Nat
  extTypes : List Nat
  curves : List Nat
  ecPointFormats : List Nat
  deriving DecidableEq, Repr

def ja3Step (found : Ja3Components) (et : Nat) (edata : Bytes) : Except Thrown Ja3Components :=
  let found := { found with extTypes := found.extTypes ++ [et] }
  if et = 10 ∧ 2 ≤ edata.length then
    (readWordList edata found.curves).map ({ found with curves := · })
  else if et = 11 ∧ 1 ≤ edata.length then
    match index edata (.int 0) with
    | .nan => .ok found
    | .int flen =>
      let formats := (subarray edata 1 (1 + flen)).map UInt8.toNat
      .ok { found with ecPointFormats := found.ecPointFormats ++ formats }
  else .ok found

/-- The fields of `ja3ComponentsFromClientHelloBody`. -/
def ja3Components (body : Bytes) : Except Thrown Ja3Components :=
  (readFront "ja3: нет блока расширений" body).bind fun front =>
    walk "ja3: обрезанное расширение"
      "ja3: объявленная длина блока расширений не сходится с разбором (обрезанное hello или неверные поля длины)"
      ja3Step body front.extEnd (body.length + 1) front.start
      ⟨front.legacyVersion, front.ciphers, [], [], []⟩

def joinNumbers (ns : List Nat) : String := String.intercalate "-" (ns.map toString)

def ascending (ns : List Nat) : List Nat := ns.mergeSort fun a b => decide (a ≤ b)

def ja3String (c : Ja3Components) : String :=
  String.intercalate "," [toString c.legacyVersion, joinNumbers c.ciphers, joinNumbers c.extTypes,
    joinNumbers c.curves, joinNumbers c.ecPointFormats]

/-- `ja3SortedStringDigestFromComponents`, the string. -/
def ja3SortedString (c : Ja3Components) : String :=
  String.intercalate "," [toString c.legacyVersion, joinNumbers (ascending c.ciphers),
    joinNumbers (ascending c.extTypes), joinNumbers (ascending c.curves),
    joinNumbers (ascending c.ecPointFormats)]

structure Ja3 where
  components : Ja3Components
  ja3Digest : String
  ja3SortedDigest : String

def ja3ComponentsFromClientHelloBody (md5 : String → String) (body : Bytes) : Except Thrown Ja3 :=
  (ja3Components body).map fun c => ⟨c, md5 (ja3String c), md5 (ja3SortedString c)⟩

def hexDigits (n : Nat) : String := String.ofList (Nat.toDigits 16 n)

def padded (width : Nat) (s : String) : String :=
  String.ofList (List.replicate (width - s.toList.length) '0') ++ s

def hex4 (n : Nat) : String := padded 4 (hexDigits n)

def count99 (n : Nat) : String :=
  let c := min n 99
  if c < 10 then "0" ++ toString c else toString c

def ja4VersionTwoChars (v : Nat) : String :=
  if v = 0x0304 then "13"
  else if v = 0x0303 then "12"
  else if v = 0x0302 then "11"
  else if v = 0x0301 then "10"
  else if v = 0x0300 then "s3"
  else if v = 0x0002 then "s2"
  else if v = 0xfeff then "d1"
  else if v = 0xfefd then "d2"
  else if v = 0xfefc then "d3"
  else "00"

def ja4ResolvedTlsVersion (supportedVersions : List Nat) (legacyVersion : Nat) : String :=
  let clean := supportedVersions.filter fun v => !isGrease v
  if 0 < clean.length then ja4VersionTwoChars (clean.foldl max 0)
  else ja4VersionTwoChars legacyVersion

def isAsciiAlnumByte (b : UInt8) : Bool :=
  0x30 ≤ b && b ≤ 0x39 || 0x41 ≤ b && b ≤ 0x5a || 0x61 ≤ b && b ≤ 0x7a

def hexByte (b : UInt8) : String := padded 2 (hexDigits b.toNat)

def hexBytes (bytes : Bytes) : String := String.join (bytes.map hexByte)

/-- The first and the last of these characters. -/
def ends (cs : List Char) : String := String.ofList (cs.head?.toList ++ cs.getLast?.toList)

def ja4AlpnFingerprintPairFromBytes : Option Bytes → String
  | none => "00"
  | some [] => "00"
  | some (first :: rest) =>
    let last := (first :: rest).getLast (List.cons_ne_nil first rest)
    if isAsciiAlnumByte first && isAsciiAlnumByte last then
      String.ofList [Char.ofNat first.toNat, Char.ofNat last.toNat]
    else ends (hexBytes (first :: rest)).toList

structure Ja4Components where
  legacyVersion : Nat
  ciphers : List Nat
  hasSniExtension : Bool
  firstAlpnBytes : Option Bytes
  supportedVersions : List Nat
  signatureAlgorithms : List Nat
  extTypes : List Nat
  deriving DecidableEq, Repr

def ja4Step (found : Ja4Components) (et : Nat) (edata : Bytes) : Except Thrown Ja4Components :=
  let found := { found with extTypes := found.extTypes ++ [et] }
  if et = 0 then .ok { found with hasSniExtension := true }
  else if et = 16 ∧ 2 ≤ edata.length then
    (raise (readUInt16BE edata (.int 0))).bind fun listLen =>
      (raise (readProtocols edata (edata.length + 1) 2 listLen [])).map fun names =>
        { found with firstAlpnBytes := found.firstAlpnBytes.or names.head? }
  else if et = 43 ∧ 1 ≤ edata.length then
    match index edata (.int 0) with
    | .nan => .ok found
    | .int slen =>
      (raise (readVersions edata (min edata.length (1 + slen)) (edata.length + 1) 1
        found.supportedVersions)).map ({ found with supportedVersions := · })
  else if et = 13 ∧ 2 ≤ edata.length then
    (readWordList edata found.signatureAlgorithms).map ({ found with signatureAlgorithms := · })
  else if et = 50 ∧ 2 ≤ edata.length then
    (readWordList edata found.signatureAlgorithms).map ({ found with signatureAlgorithms := · })
  else .ok found

/-- What `ja4FromClientHelloBody` reads. -/
def ja4Components (body : Bytes) : Except Thrown Ja4Components :=
  (readFront "ja4: нет блока расширений" body).bind fun front =>
    walk "ja4: обрезанное расширение"
      "ja4: длина блока расширений не сходится с разбором (возможен обрезанный ClientHello или ошибка разбора)"
      ja4Step body front.extEnd (body.length + 1) front.start
      ⟨front.legacyVersion, front.ciphers, false, none, [], [], []⟩

structure Ja4 where
  fingerprint : String
  fingerprintAlt : String
  rawR : String
  rawRAlt : String
  rawO : String
  deriving DecidableEq, Repr

def sortedHex (ns : List Nat) : List String := (ns.map hex4).mergeSort fun a b => decide (a ≤ b)

/-- The third part, over the extensions that take part in it. -/
def ja4c (sha256Trunc12 : String → String) (extensions : List String) (signatures : List Nat) : String :=
  if extensions.length = 0 then "000000000000"
  else
    let extPart := String.intercalate "," extensions
    sha256Trunc12 (if 0 < signatures.length then
      extPart ++ "_" ++ String.intercalate "," (signatures.map hex4) else extPart)

/-- The strings of `ja4FromClientHelloBody`. -/
def ja4Render (sha256Trunc12 : String → String) (c : Ja4Components) : Ja4 :=
  let sniMark := if c.hasSniExtension then "d" else "i"
  let a := "t" ++ ja4ResolvedTlsVersion c.supportedVersions c.legacyVersion ++ sniMark ++
    count99 c.ciphers.length ++ count99 c.extTypes.length ++
    ja4AlpnFingerprintPairFromBytes c.firstAlpnBytes
  let ciphers := String.intercalate "," (sortedHex c.ciphers)
  let b := if c.ciphers.length = 0 then "000000000000" else sha256Trunc12 ciphers
  let forC := sortedHex (c.extTypes.filter fun t => t != 0 && t != 16)
  let middle := sortedHex (c.extTypes.filter fun t => t != 16)
  let signatures := String.intercalate "," (c.signatureAlgorithms.map hex4)
  let tail := if 0 < c.signatureAlgorithms.length then "_" ++ signatures else ""
  ⟨a ++ "_" ++ b ++ "_" ++ ja4c sha256Trunc12 forC c.signatureAlgorithms,
    a ++ "_" ++ b ++ "_" ++ ja4c sha256Trunc12 middle c.signatureAlgorithms,
    a ++ "_" ++ ciphers ++ "_" ++ String.intercalate "," forC ++ tail,
    a ++ "_" ++ ciphers ++ "_" ++ String.intercalate "," middle ++ tail,
    a ++ "_" ++ String.intercalate "," (c.ciphers.map hex4) ++ "_" ++
      String.intercalate "," (c.extTypes.map hex4) ++ tail⟩

def ja4FromClientHelloBody (sha256Trunc12 : String → String) (body : Bytes) : Except Thrown Ja4 :=
  (ja4Components body).map (ja4Render sha256Trunc12)

structure SignatureAlgorithms where
  signatureAlgorithms : List Nat
  signatureAlgorithmsCert : List Nat
  ja4Wire : List Nat
  deriving DecidableEq, Repr

def sigStep (found : SignatureAlgorithms) (et : Nat) (edata : Bytes) :
    Except Thrown SignatureAlgorithms :=
  if et = 13 ∧ 2 ≤ edata.length then
    (readWordList edata []).map fun list =>
      { found with
        signatureAlgorithms := found.signatureAlgorithms ++ list
        ja4Wire := found.ja4Wire ++ list }
  else if et = 50 ∧ 2 ≤ edata.length then
    (readWordList edata []).map fun list =>
      { found with
        signatureAlgorithmsCert := found.signatureAlgorithmsCert ++ list
        ja4Wire := found.ja4Wire ++ list }
  else .ok found

def signatureAlgorithmsFromClientHelloBody (body : Bytes) : Except Thrown SignatureAlgorithms :=
  if body.length < 2 then .error (.message "sigalgs: короткое ClientHello")
  else
    let sidLen := index body (.int 34)
    let o := Num.int 35
    if (o + sidLen + .int 2).exceeds body.length then
      .error (.message "sigalgs: обрезано (session id)")
    else
      let o := o + sidLen
      (raise (readUInt16BE body o)).bind fun cipherLen =>
        let o := o + .int 2
        if cipherLen % 2 ≠ 0 ∨ (o + .int cipherLen + .int 1).exceeds body.length then
          .error (.message "sigalgs: обрезано (cipher list)")
        else
          let o := o + .int cipherLen
          let compLen := index body o
          let o := o + .int 1
          if (o + compLen + .int 2).exceeds body.length then
            .error (.message "sigalgs: обрезано (compression)")
          else
            let o := o + compLen
            (raise (readUInt16BE body o)).bind fun extTotal =>
              match o + .int 2 with
              | .nan => .error (.fault .range)
              | .int start =>
                if body.length < start + extTotal then
                  .error (.message "sigalgs: обрезано (extensions)")
                else
                  walk "sigalgs: обрезанное расширение"
                    "sigalgs: длина блока расширений не сходится" sigStep body (start + extTotal)
                    (body.length + 1) start ⟨[], [], []⟩

/-- `MESHVPN_OPAQUE_EXTENSION_SKIP_TYPES`. -/
def opaqueSkipTypes : List Nat := [0, 5, 10, 11, 13, 16, 43, 45, 50, 51, 21, 23, 35, 41, 65281]

def opaqueLoop (extBlock : Bytes) : Nat → Nat → Except Fault (List (Nat × String))
  | 0, _ => .error .stuck
  | fuel + 1, eo =>
    if eo + 4 ≤ extBlock.length then
      (readUInt16BE extBlock (.int eo)).bind fun et =>
      (readUInt16BE extBlock (.int (eo + 2))).bind fun el =>
        if extBlock.length < eo + 4 + el then .ok []
        else
          let ed := subarray extBlock (eo + 4) (eo + 4 + el)
          (opaqueLoop extBlock fuel (eo + 4 + el)).map fun rest =>
            if skipped et then rest
            else if opaqueSkipTypes.contains et then rest
            else (et, hexBytes ed) :: rest
    else .ok []

/-- `extractClientHelloOpaqueExtensionsForProfile`: its checks ahead of the extensions are those of
the reader of the other fields, where each of them gives an empty list. -/
def extractClientHelloOpaqueExtensionsForProfile (ch : Bytes) : Except Fault (List (Nat × String)) :=
  (extensionBlock ch).bind fun block =>
    match block with
    | .error _ => .ok []
    | .ok (_, extBlock) => opaqueLoop extBlock (extBlock.length + 1) 0

end Meshpn.Tls.Fingerprint
