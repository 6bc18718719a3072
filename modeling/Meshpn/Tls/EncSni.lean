import Meshpn.Lib.Utf8
import Meshpn.Lib.Radix
import Mathlib.Algebra.Order.Group.Unbundled.Abs
import Mathlib.Algebra.Order.Group.Int
import Mathlib.Data.Set.Function

/-!
The encrypted server names of `transparent-tls-enc-sni.mjs`. The client puts the
host and the port of a connection into a token, sealed under a key that both ends
have, and the token into the labels of a name below the public name of the exit.

Strings are UTF-16 code units. The cryptography and the lower-casing of text are
parameters; what the two ends rely on is `Crypto.Lawful`. The clock is read in
milliseconds, and the nonce is whatever `randomBytes` returns.
-/

namespace Meshpn.Tls.EncSni

open Meshpn.Lib
open Meshpn.Lib.Bytes

def tsWindowSeconds : Int := 5 * 60 * 1000 / 1000

def version : UInt8 := 0x02

def nonceLen : Nat := 12

def tagLen : Nat := 16

def dnsLabelMax : Nat := 63

def hostnameMax : Nat := 253

abbrev Nonce := { bytes : Bytes // bytes.length = nonceLen }

/-- What is thrown; `range` is thrown by a write and `auth` by the decipher. -/
inductive EncSniError where
  | base62 | hostnameLength | hostnameInvalid | hostnameNonAscii | badPort | hostUtf8 | range
  | plaintextShort | v1 | badVersion | tsWindow | plaintextLen | tagLen | wireShort | auth
  | publicName | labelLen | tooLong | badSuffix
  deriving DecidableEq, Repr

abbrev Result (α : Type) := Except EncSniError α

/-- The functions of `crypto`, and `toLowerCase`. -/
structure Crypto where
  hmac : Bytes → Bytes → Bytes
  /-- The ciphertext and the tag for a key, a nonce and a plaintext. -/
  encrypt : Bytes → Bytes → Bytes → Bytes × Bytes
  /-- The plaintext for a key, a nonce, a ciphertext and a tag. -/
  decrypt : Bytes → Bytes → Bytes → Bytes → Option Bytes
  sha256 : Bytes → Bytes
  toLowerCase : Units → Units

/-- Nonce, ciphertext and tag: what `base62Encode` is given. -/
def Crypto.token (crypto : Crypto) (key : Bytes) (nonce : Nonce) (plaintext : Bytes) : Bytes :=
  nonce.1 ++ (crypto.encrypt key nonce.1 plaintext).1 ++ (crypto.encrypt key nonce.1 plaintext).2

/-- AES-256-GCM opens what it has sealed and nothing else, and no two sealed tokens share their
digest. -/
structure Crypto.Lawful (crypto : Crypto) : Prop where
  encrypt_length : ∀ key nonce plaintext,
    (crypto.encrypt key nonce plaintext).1.length = plaintext.length
  tag_length : ∀ key nonce plaintext, (crypto.encrypt key nonce plaintext).2.length = tagLen
  decrypt_encrypt : ∀ key nonce plaintext,
    crypto.decrypt key nonce (crypto.encrypt key nonce plaintext).1
      (crypto.encrypt key nonce plaintext).2 = some plaintext
  encrypt_of_decrypt : ∀ key nonce ciphertext tag plaintext,
    crypto.decrypt key nonce ciphertext tag = some plaintext →
      crypto.encrypt key nonce plaintext = (ciphertext, tag)
  collisionFree : Set.InjOn crypto.sha256
    { wire | ∃ key nonce plaintext, wire = crypto.token key nonce plaintext }

def alphabet : Units :=
  Units.ofString "0123456789abcdefghijklmnopqrstuvwxyzABCDEFGHIJKLMNOPQRSTUVWXYZ"

/-- `BASE62[digit]`. -/
def symbol (digit : Nat) : UInt16 := alphabet.getD digit 0

/-- `BASE62.indexOf(unit)`, or nothing if it is negative. -/
def digitOf (u : UInt16) : Option Nat :=
  if alphabet.idxOf u < alphabet.length then some (alphabet.idxOf u) else none

def base62Encode (buf : Bytes) : Units :=
  if buf = [] then []
  else
    let digits := Radix.convert 256 62 (buf.map UInt8.toNat)
    let out := (buf.takeWhile (· = 0)).map (fun _ => symbol 0) ++ digits.reverse.map symbol
    if out = [] then [symbol 0] else out

def base62Digits : Units → Result (List Nat)
  | [] => .ok []
  | u :: rest =>
    match digitOf u with
    | none => .error .base62
    | some digit => (base62Digits rest).map (digit :: ·)

def base62Decode (str : Units) : Result Bytes :=
  if str = [] then .ok []
  else
    let zeros := (str.takeWhile (· = symbol 0)).length
    (base62Digits (str.drop zeros)).map fun digits =>
      List.replicate zeros 0 ++ (Radix.convert 62 256 digits).reverse.map UInt8.ofNat

/-- `h.charCodeAt(i)` of a relay hostname. -/
def isHostUnit (u : UInt16) : Bool :=
  (0x61 ≤ u && u ≤ 0x7a) || (0x30 ≤ u && u ≤ 0x39) || u == 0x2e || u == 0x2d

def assertRelayHostname (hostname : Units) : Result Unit :=
  if hostname = [] ∨ hostnameMax < hostname.length then .error .hostnameLength
  else if 0x3a ∈ hostname ∨ 0x2f ∈ hostname ∨ 0x20 ∈ hostname then .error .hostnameInvalid
  else if hostname.all isHostUnit then .ok ()
  else .error .hostnameNonAscii

/-- `opts.port`. -/
inductive PortOption where
  | absent
  | integer (n : Int)
  -- a number that is no integer, or no number
  | other
  deriving DecidableEq, Repr

/-- `Number(opts.port ?? 443)`, if it is a port. -/
def PortOption.number : PortOption → Option Nat
  | .absent => some 443
  | .integer n => if n < 1 ∨ 65535 < n then none else some n.toNat
  | .other => none

def buildPlaintext (hostname : Units) (port : PortOption) (now : Int) : Result Bytes :=
  (assertRelayHostname hostname).bind fun _ =>
    match port.number with
    | none => .error .badPort
    | some p =>
      -- only ASCII gets here
      let hostB := Units.asciiBytes hostname
      if hostB.length < 1 ∨ 253 < hostB.length then .error .hostUtf8
      else if now / 1000 < 0 ∨ 2 ^ 32 ≤ now / 1000 then .error .range
      else
        .ok (version :: (ofUInt32 (now / 1000).toNat ++ ofUInt16 p ++
          [UInt8.ofNat hostB.length] ++ hostB))

structure Parsed where
  hostname : Units
  port : Nat
  issuedAtSeconds : Nat
  deriving DecidableEq, Repr

def parsePlaintext (pt : Bytes) (now : Int) : Result Parsed :=
  match pt with
  | v :: t3 :: t2 :: t1 :: t0 :: p1 :: p0 :: hl :: host =>
    if v ≠ version then .error (if v = 0x01 then .v1 else .badVersion)
    else
      let issuedAtSeconds := toUInt32 t3 t2 t1 t0
      if tsWindowSeconds < |now / 1000 - issuedAtSeconds| then .error .tsWindow
      else if pt.length ≠ 8 + hl.toNat then .error .plaintextLen
      else
        let hostname := Units.ofBytes host
        (assertRelayHostname hostname).map fun _ => ⟨hostname, toUInt16 p1 p0, issuedAtSeconds⟩
  | _ => .error .plaintextShort

/-- The loop of `splitDnsLabels`. -/
def cutLabels : Nat → Units → List Units
  | 0, _ => []
  | fuel + 1, blob =>
    if blob = [] then [] else blob.take dnsLabelMax :: cutLabels fuel (blob.drop dnsLabelMax)

def splitDnsLabels (blob : Units) : List Units := cutLabels blob.length blob

def keyContext : Bytes :=
  [0x74, 0x72, 0x61, 0x6e, 0x73, 0x70, 0x61, 0x72, 0x65, 0x6e, 0x74, 0x2d, 0x74, 0x6c, 0x73, 0x2d,
    0x65, 0x6e, 0x63, 0x2d, 0x73, 0x6e, 0x69, 0x2d, 0x76, 0x32, 0x00]

variable (crypto : Crypto)

def deriveEncSniKey (psk : Bytes) : Bytes := crypto.hmac psk keyContext

def encodeRelaySniLabel (psk : Bytes) (hostname : Units) (port : PortOption) (now : Int)
    (nonce : Nonce) : Result (List Units) :=
  (buildPlaintext hostname port now).bind fun pt =>
    let (ct, tag) := crypto.encrypt (deriveEncSniKey crypto psk) nonce.1 pt
    if tag.length ≠ tagLen then .error .tagLen
    else .ok (splitDnsLabels (base62Encode (nonce.1 ++ ct ++ tag)))

/-- The result of `decodeRelaySniLabel`. -/
structure Decoded where
  parsed : Parsed
  replayId : Units
  deriving DecidableEq, Repr

def hexDigit (n : Nat) : UInt16 := (Units.ofString "0123456789abcdef").getD n 0

/-- `digest('hex')`. -/
def hex (bytes : Bytes) : Units :=
  bytes.flatMap fun byte => [hexDigit (byte.toNat / 16), hexDigit (byte.toNat % 16)]

def decodeRelaySniLabel (psk : Bytes) (labels : List Units) (now : Int) : Result Decoded :=
  (base62Decode labels.flatten).bind fun wire =>
    if wire.length < nonceLen + tagLen + 8 then .error .wireShort
    else
      let nonce := wire.take nonceLen
      let tag := wire.drop (wire.length - tagLen)
      let ct := (wire.take (wire.length - tagLen)).drop nonceLen
      match crypto.decrypt (deriveEncSniKey crypto psk) nonce ct tag with
      | none => .error .auth
      | some pt => (parsePlaintext pt now).map fun parsed => ⟨parsed, hex (crypto.sha256 wire)⟩

def dot : UInt16 := 0x2e

/-- `String(publicName || '').trim().toLowerCase()`. -/
def publicSuffix (publicName : Units) : Units := crypto.toLowerCase (Units.trim publicName)

def buildRelayHostname (labels : List Units) (publicName : Units) : Result Units :=
  let pn := publicSuffix crypto publicName
  if pn = [] then .error .publicName
  else if labels.any (fun label => label = [] || dnsLabelMax < label.length) then .error .labelLen
  else
    let host := [dot].intercalate (labels ++ [pn])
    if hostnameMax < Units.byteLength host then .error .tooLong else .ok host

def encodeRelayHostname (psk : Bytes) (hostname : Units) (port : PortOption) (publicName : Units)
    (now : Int) (nonce : Nonce) : Result Units :=
  (encodeRelaySniLabel crypto psk hostname port now nonce).bind fun labels =>
    buildRelayHostname crypto labels publicName

def parseRelayEncLabels (sni publicName : Units) : Option (List Units) :=
  let pn := publicSuffix crypto publicName
  if pn = [] ∨ sni = [] then none
  else
    let suffix := dot :: pn
    if ¬suffix <:+ crypto.toLowerCase sni then none
    else
      let front := Units.sliceTo sni (sni.length - suffix.length)
      if front = [] then none
      else
        let labels := (front.splitOn dot).filter (· ≠ [])
        if labels = [] then none
        else if labels.any (dnsLabelMax < ·.length) then none
        else some labels

/-- What `decodeRelayFromHostname` returns besides `relaySni`, which is its argument. -/
structure DecodedHostname where
  decoded : Decoded
  labels : List Units
  deriving DecidableEq, Repr

def decodeRelayFromHostname (sni publicName : Units) (psk : Bytes) (now : Int) :
    Result DecodedHostname :=
  match parseRelayEncLabels crypto sni publicName with
  | none => .error .badSuffix
  | some labels =>
    (decodeRelaySniLabel crypto psk labels now).map fun decoded => ⟨decoded, labels⟩

end Meshpn.Tls.EncSni
