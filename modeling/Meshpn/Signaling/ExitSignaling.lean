import Meshpn.Lib.Bytes
import Meshpn.Signaling.Fingerprint
import Mathlib.Data.Rat.Defs
import Mathlib.Algebra.Order.Ring.Unbundled.Rat

/-!
The signalling side of a WebRTC exit: one closure for every signalling socket,
each with its own session. A signed bind names the fingerprint that the offer or
the answer of the same session must have, and its nonce is remembered until the
session is reset.

A field of a message that is absent, or not of the type the code asks for, is
`none`; so is a timestamp that is not finite. Times are in milliseconds.
-/

namespace Meshpn.Signaling

open Meshpn.Lib

/-- What the exit is started with, and what it takes from the platform: the keyed hash over
a text, the decimal form of a number, and lower-casing. -/
structure Config (Psk : Type) where
  psk : Option Psk
  pskRequired : Bool
  hmac : Psk → Text → Bytes
  showNumber : ℚ → Text
  toLowerCase : Text → Text

structure Bind where
  fingerprint : Option Text
  nonce : Option Text
  ts : Option ℚ
  mac : Option Text
deriving DecidableEq

inductive BindFault where
  | noObj | noFingerprint | badNonce | badTs | badMac | tsWindow | macLen | macMismatch
deriving DecidableEq

def BindFault.text : BindFault → String
  | .noObj => "no_obj"
  | .noFingerprint => "no_fingerprint"
  | .badNonce => "bad_nonce"
  | .badTs => "bad_ts"
  | .badMac => "bad_mac"
  | .tsWindow => "ts_window"
  | .macLen => "mac_len"
  | .macMismatch => "mac_mismatch"

def signalingBindContext : Text := "clean-vpn-signal-bind".toList

def signalingBindTsWindowMs : ℚ := 5 * 60 * 1000

def hexDigitOf (n : Nat) : Char := "0123456789abcdef".toList.getD n '0'

def hexDigitValue (c : Char) : Nat :=
  if c.isDigit then c.toNat - '0'.toNat
  else if 'a' ≤ c then c.toNat - 'a'.toNat + 10 else c.toNat - 'A'.toNat + 10

def toHex (bytes : Bytes) : Text :=
  bytes.flatMap fun byte => [hexDigitOf (byte.toNat / 16), hexDigitOf (byte.toNat % 16)]

/-- `Buffer.from(text, 'hex')` of a text that has only hexadecimal digits. -/
def fromHex : Text → Bytes
  | high :: low :: rest => UInt8.ofNat (16 * hexDigitValue high + hexDigitValue low) :: fromHex rest
  | _ => []

/-- `/^[0-9a-f]{low,high}$/i`. -/
def isHexText (low high : Nat) (text : Text) : Bool :=
  decide (low ≤ text.length) && decide (text.length ≤ high) && text.all isHexDigit

section Bind

variable {Psk : Type} (config : Config Psk)

def signSignalingBind (psk : Psk) (fingerprint nonceHex : Text) (ts : ℚ) : Text :=
  toHex ((config.hmac psk (signalingBindContext ++ ':' :: config.showNumber ts ++ ':' :: nonceHex ++
    ':' :: fingerprint)).take 16)

/-- The reason of a refusal; `none` is success, and a message that is `none` is no object. -/
def verifySignalingBind (psk : Psk) (msg : Option Bind) (now : ℚ) : Option BindFault :=
  match msg with
  | none => some .noObj
  | some msg =>
    match msg.fingerprint, msg.nonce, msg.ts, msg.mac with
    | none, _, _, _ => some .noFingerprint
    | some fingerprint, nonce, ts, mac =>
      if fingerprint = [] then some .noFingerprint
      else if !nonce.any (isHexText 16 128) then some .badNonce
      else
        match ts with
        | none => some .badTs
        | some ts =>
          if !mac.any (isHexText 32 32) then some .badMac
          else if now - ts > signalingBindTsWindowMs ∨ ts - now > signalingBindTsWindowMs then
            some .tsWindow
          else
            let expected := fromHex (signSignalingBind config psk fingerprint (nonce.getD []) ts)
            let provided := fromHex (mac.getD [])
            if expected.length ≠ provided.length then some .macLen
            else if expected ≠ provided then some .macMismatch
            else none

/-- The fingerprint of the description is the signed one. -/
def sdpCheck (expected : Option Text) (sdp : Option Text) : Bool :=
  signalingFingerprintsEqual config.toLowerCase
    (sdp.bind (extractDtlsFingerprintFromSdp config.toLowerCase)) expected

end Bind

/-- The variables of one socket's closure; `closed` says that the socket has closed. -/
structure Session where
  closed : Bool
  handshakeDone : Bool
  connPc : Option Nat
  expectedRemoteFingerprint : Option Text
  seenNonces : List (Option Text)

def Session.init : Session := ⟨false, false, none, none, []⟩

inductive DescriptionType where
  | offer
  | answer
deriving DecidableEq

inductive Message where
  | bind (msg : Bind)
  | ready
  | description (type : DescriptionType) (sdp : Option Text)
  | other

/-- What the process does that can be seen from outside, in order. -/
inductive Entry where
  | accepted (socket : Nat) (msg : Bind) (now : ℚ)
  | rejected (socket : Nat) (reason : String)
  | reset (socket : Nat) (reason : String)
  | setRemoteDescription (socket pc : Nat) (type : DescriptionType) (sdp : Option Text)
  | destroyed (pc : Nat)
deriving DecidableEq

/-- All sockets that were ever attached, the active peer connection, how many were made. -/
structure ExitProcess where
  sockets : List Session
  webrtcPc : Option Nat
  pcs : Nat
  journal : List Entry

namespace ExitProcess

def init : ExitProcess := ⟨[], none, 0, []⟩

def log (exit : ExitProcess) (entry : Entry) : ExitProcess :=
  { exit with journal := exit.journal ++ [entry] }

def update (exit : ExitProcess) (socket : Nat) (session : Session) : ExitProcess :=
  { exit with sockets := exit.sockets.set socket session }

def closeWithReason (exit : ExitProcess) (socket : Nat) (reason : String) : ExitProcess :=
  exit.log (.rejected socket reason)

/-- The peer connection is destroyed, and forgotten where it is still the active one. -/
def dropPc (exit : ExitProcess) : Option Nat → ExitProcess
  | none => exit
  | some dead =>
    { exit.log (.destroyed dead) with
      webrtcPc := if exit.webrtcPc = some dead then none else exit.webrtcPc }

def resetWebrtcSession (exit : ExitProcess) (socket : Nat) (session : Session)
    (reason : String) : ExitProcess :=
  ((exit.dropPc session.connPc).update socket { Session.init with closed := session.closed }).log
    (.reset socket reason)

def setupInitiator (exit : ExitProcess) (socket : Nat) (session : Session) : ExitProcess :=
  { exit.update socket { session with handshakeDone := true, connPc := some exit.pcs } with
    webrtcPc := some exit.pcs
    pcs := exit.pcs + 1 }

section Handlers

variable {Psk : Type} (config : Config Psk)

def onBind (exit : ExitProcess) (socket : Nat) (session : Session) (msg : Bind) (now : ℚ) :
    ExitProcess :=
  match config.psk with
  | none => if config.pskRequired then exit.closeWithReason socket "no_psk" else exit
  | some psk =>
    match verifySignalingBind config psk (some msg) now with
    | some err => exit.closeWithReason socket ("bind_" ++ err.text)
    | none =>
      if msg.nonce ∈ session.seenNonces then exit.closeWithReason socket "bind_nonce_replay"
      else
        (exit.update socket { session with
          seenNonces := session.seenNonces ++ [msg.nonce]
          expectedRemoteFingerprint := msg.fingerprint }).log (.accepted socket msg now)

/-- A repeated ready message first resets the session it finds. -/
def onReady (exit : ExitProcess) (socket : Nat) (session : Session) : ExitProcess :=
  if config.psk.isNone && config.pskRequired && !session.handshakeDone then
    exit.closeWithReason socket "exit_no_psk"
  else if session.handshakeDone then
    (exit.resetWebrtcSession socket session "повторный clean-vpn-ready").setupInitiator socket
      { Session.init with closed := session.closed }
  else exit.setupInitiator socket session

/-- `applyWebrtcRemoteSignal`; without a peer connection the description is dropped. -/
def applyDescription (exit : ExitProcess) (socket : Nat) (session : Session)
    (type : DescriptionType) (sdp : Option Text) : ExitProcess :=
  match session.connPc with
  | none => exit
  | some pc => exit.log (.setRemoteDescription socket pc type sdp)

def onDescription (exit : ExitProcess) (socket : Nat) (session : Session)
    (type : DescriptionType) (sdp : Option Text) : ExitProcess :=
  match config.psk with
  | some _ =>
    if session.expectedRemoteFingerprint.getD [] = [] then
      exit.closeWithReason socket "bind_missing_before_sdp"
    else if !sdpCheck config session.expectedRemoteFingerprint sdp then
      exit.closeWithReason socket "bind_sdp_fingerprint_mismatch"
    else exit.applyDescription socket session type sdp
  | none =>
    if config.pskRequired then exit.closeWithReason socket "no_psk_for_sdp"
    else exit.applyDescription socket session type sdp

/-- The message handler; messages of other types reach the peer connection only. -/
def onMessage (exit : ExitProcess) (socket : Nat) (session : Session) (now : ℚ) :
    Message → ExitProcess
  | .bind msg => exit.onBind config socket session msg now
  | .ready => exit.onReady config socket session
  | .description type sdp => exit.onDescription config socket session type sdp
  | .other => exit

end Handlers

/-- A new signalling socket: the active peer connection is destroyed; the other sockets are
told to close and will say so with an event of their own. -/
def onConnection (exit : ExitProcess) : ExitProcess :=
  let dropped := exit.dropPc exit.webrtcPc
  { dropped with sockets := dropped.sockets ++ [Session.init] }

end ExitProcess

inductive Event where
  | connection
  | message (socket : Nat) (now : ℚ) (msg : Message)
  | dcClosed (socket : Nat)
  | wireDown (socket : Nat)
  | close (socket : Nat)

namespace ExitProcess

variable {Psk : Type} (config : Config Psk)

/-- One event. A data channel may report its end at any later time, and to a session that it
no longer belongs to; a closed socket has no more messages. -/
def step (exit : ExitProcess) : Event → ExitProcess
  | .connection => exit.onConnection
  | .message socket now msg =>
    match exit.sockets[socket]? with
    | some session => if session.closed then exit else exit.onMessage config socket session now msg
    | none => exit
  | .dcClosed socket =>
    match exit.sockets[socket]? with
    | some session =>
      if session.handshakeDone || session.connPc.isSome then
        exit.resetWebrtcSession socket session "dc closed"
      else exit
    | none => exit
  | .wireDown socket =>
    match exit.sockets[socket]? with
    | some session => exit.resetWebrtcSession socket session "wire down"
    | none => exit
  | .close socket =>
    match exit.sockets[socket]? with
    | some session => exit.resetWebrtcSession socket { session with closed := true } "ws close"
    | none => exit

def run (exit : ExitProcess) (events : List Event) : ExitProcess := events.foldl (step config) exit

end ExitProcess

end Meshpn.Signaling
