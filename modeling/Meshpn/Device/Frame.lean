import Meshpn.Lib.Bytes

/-!
The frames of the device's tunnel: four bytes of length and one IPv4 packet. The
decoder is fed what a read returned. It keeps the header and the packet it is in
the middle of in fixed buffers and hands every packet it completes to a callback.
On the way out packets are joined into a batch that is written piece by piece.

What a packet goes through where it crosses the tunnel: the segment size of a SYN
is clamped to what the tunnel carries, and the checksums are computed again. Both
work on a copy and neither changes its length.
-/

namespace Meshpn.Device

open Meshpn.Lib

def mtu : Nat := 1400

def be16 (p : Bytes) (i : Nat) : Nat := Bytes.toUInt16 (p.getD i 0) (p.getD (i + 1) 0)

/-- The length of the IPv4 header. -/
def headerLength (p : Bytes) : Nat := (p.getD 0 0).toNat % 16 * 4

/-- A fragment: reassembly comes before any look at the transport. -/
def fragment (p : Bytes) : Bool := be16 p 6 % 0x4000 ≠ 0

def ipv4Valid (p : Bytes) : Bool :=
  let n := p.length
  if n < 20 ∨ (p.getD 0 0).toNat / 16 ≠ 4 then false
  else
    let h := headerLength p
    if h < 20 ∨ h > n ∨ be16 p 2 ≠ n then false
    else if fragment p then true
    else
      match (p.getD 9 0).toNat with
      | 6 =>
        if n < h + 20 then false
        else
          let th := (p.getD (h + 12) 0).toNat / 16 * 4
          decide (20 ≤ th ∧ th ≤ n - h)
      | 17 => decide (n ≥ h + 8 ∧ be16 p (h + 4) = n - h)
      | 1 => decide (n ≥ h + 8)
      | _ => false

theorem ipv4Valid_length {p : Bytes} (hvalid : ipv4Valid p = true) : 20 ≤ p.length := by
  unfold ipv4Valid at hvalid
  dsimp only at hvalid
  split at hvalid
  · contradiction
  · omega

/-- `meshvpn_vpn_frame_header`: every byte of the shifted length. -/
def frameHeader (n : Nat) : Bytes :=
  [UInt8.ofNat (n / 2 ^ 24), UInt8.ofNat (n / 2 ^ 16), UInt8.ofNat (n / 2 ^ 8), UInt8.ofNat n]

/-- The used parts of the two buffers; the lengths of these are `header_used` and `used`. -/
structure Decoder where
  header : Bytes
  packet : Bytes
  length : Nat
  completed : UInt32
deriving DecidableEq

namespace Decoder

def init : Decoder := ⟨[], [], 0, 0⟩

/-- The fields as a completed frame leaves them. -/
def fresh (completed : UInt32) : Decoder := ⟨[], [], 0, completed⟩

end Decoder

/-- The length in the four bytes of the header. -/
def frameLength (header : Bytes) : Nat := (Bytes.readUInt32 header).getD 0

/-- Where the loop stands after a pass: the decoder, the bytes left, the callback's state, and
whether it goes on. -/
structure Pass (σ : Type) where
  decoder : Decoder
  rest : Bytes
  ctx : σ
  ok : Bool
deriving DecidableEq

section

variable {σ : Type} (emit : σ → Bytes → σ × Bool)

/-- The second half of a pass: the packet takes what there is of it. -/
def fill (d : Decoder) (p : Bytes) (ctx : σ) : Pass σ :=
  let take := min (d.length - d.packet.length) p.length
  let d := { d with packet := d.packet ++ p.take take }
  let p := p.drop take
  if d.packet.length = d.length then
    if ipv4Valid d.packet then
      match emit ctx d.packet with
      | (ctx, true) => ⟨Decoder.fresh (d.completed + 1), p, ctx, true⟩
      | (ctx, false) => ⟨d, p, ctx, false⟩
    else ⟨d, p, ctx, false⟩
  else ⟨d, p, ctx, true⟩

/-- One pass of the loop, with a byte to read. -/
def pass (d : Decoder) (byte : UInt8) (p : Bytes) (ctx : σ) : Pass σ :=
  if d.header.length < 4 then
    let d := { d with header := d.header ++ [byte] }
    if d.header.length ≠ 4 then ⟨d, p, ctx, true⟩
    else
      let d := { d with length := frameLength d.header }
      if d.length < 20 ∨ d.length > mtu then ⟨d, p, ctx, false⟩ else fill emit d p ctx
  else fill emit d (byte :: p) ctx

/-- What a call leaves: the decoder, the callback's state and the returned flag. -/
structure Decoded (σ : Type) where
  decoder : Decoder
  ctx : σ
  ok : Bool
deriving DecidableEq

/-- A pass that takes no byte resets the header, so that one more than the bytes is fuel
enough. -/
def decodeLoop : Nat → Decoder → Bytes → σ → Decoded σ
  | 0, d, _, ctx => ⟨d, ctx, true⟩
  | _ + 1, d, [], ctx => ⟨d, ctx, true⟩
  | fuel + 1, d, byte :: p, ctx =>
    let after := pass emit d byte p ctx
    if after.ok then decodeLoop fuel after.decoder after.rest after.ctx
    else ⟨after.decoder, after.ctx, false⟩

def decode (d : Decoder) (p : Bytes) (ctx : σ) : Decoded σ :=
  decodeLoop emit (p.length + 1) d p ctx

/-- Call after call, up to the first that fails. -/
def decodeAll (d : Decoder) : List Bytes → σ → Decoded σ
  | [], ctx => ⟨d, ctx, true⟩
  | chunk :: chunks, ctx =>
    let after := decode emit d chunk ctx
    if after.ok then decodeAll after.decoder chunks after.ctx else after

end

/-- The callback that takes every packet down. -/
def record (packets : List Bytes) (pkt : Bytes) : List Bytes × Bool := (packets ++ [pkt], true)

/-- The written part of the buffer, how much of it is sent, where each frame ends, and how
many frames are sent to their end. -/
structure TxBatch where
  data : Bytes
  used : Nat
  ends : List Nat
  completed : Nat
deriving DecidableEq

namespace TxBatch

/-- The fields set to zero before a batch is loaded. -/
def empty : TxBatch := ⟨[], 0, [], 0⟩

def count (b : TxBatch) : Nat := b.ends.length

/-- What is still to be sent. -/
def unsent (b : TxBatch) : Bytes := b.data.drop b.used

/-- `meshvpn_vpn_tx_append`, for a build with batches of `batchFrames`. -/
def append (batchFrames : Nat) (b : TxBatch) (p : Bytes) : Option TxBatch :=
  if b.used ≠ 0 ∨ b.count = batchFrames ∨ p.length < 20 ∨ p.length > mtu then none
  else
    let data := b.data ++ frameHeader p.length ++ p
    some { b with data := data, ends := b.ends ++ [data.length] }

/-- The loop over the frames that a write has completed: how many, and their bytes. -/
def settle : Nat → TxBatch → TxBatch × Nat × Nat
  | 0, b => (b, 0, 0)
  | fuel + 1, b =>
    if b.completed < b.count ∧ b.ends.getD b.completed 0 ≤ b.used then
      let i := b.completed
      let before := if i = 0 then 0 else b.ends.getD (i - 1) 0
      let (settled, packets, bytes) := settle fuel { b with completed := i + 1 }
      (settled, packets + 1, bytes + (b.ends.getD i 0 - before - 4))
    else (b, 0, 0)

/-- `meshvpn_vpn_tx_advance`: the batch after a write of `sent` bytes, with the packets and the
bytes of them that it completed. -/
def advance (b : TxBatch) (sent : Nat) : Option (TxBatch × Nat × Nat) :=
  if sent > b.data.length - b.used then none
  else
    let b := { b with used := b.used + sent }
    some (b.settle b.count)

end TxBatch

def byteAt (p : Bytes) (i : Nat) : Nat := (p.getD i 0).toNat

def put16 (p : Bytes) (i v : Nat) : Bytes :=
  (p.set i (UInt8.ofNat (v / 256))).set (i + 1) (UInt8.ofNat v)

@[simp] theorem put16_length (p : Bytes) (i v : Nat) : (put16 p i v).length = p.length := by
  simp [put16]

/-- One step of the carry around the end of a sixteen bit sum. -/
def foldCarry (sum : Nat) : Nat := sum % 65536 + sum / 65536

/-- The segment size that the tunnel carries. -/
def tunnelMss : Nat := mtu - 40

def swapWord (word : Nat) : Nat := word % 256 * 256 + word / 256

/-- A segment size option at `i` that is too large, and the checksum adjusted to the change.
Options without alignment may put the size across two words of the sum. -/
def clampAt (h i : Nat) (p : Bytes) : Bytes :=
  let old := be16 p (i + 2)
  if old > tunnelMss then
    let odd := (i + 2 - h) % 2 = 1
    let oldWord := if odd then swapWord old else old
    let newWord := if odd then swapWord tunnelMss else tunnelMss
    let sum := (65535 - be16 p (h + 16)) + (65535 - oldWord) + newWord
    let c := 65535 - foldCarry (foldCarry sum) % 65536
    put16 (put16 p (h + 16) c) (i + 2) tunnelMss
  else p

/-- The loop over the options of a SYN, from `i` up to `stop`. -/
def clampOptions (h stop : Nat) : Nat → Nat → Bytes → Option Bytes
  | 0, _, p => some p
  | fuel + 1, i, p =>
    if i ≥ stop then some p
    else if byteAt p i = 0 then some p
    else if byteAt p i = 1 then clampOptions h stop fuel (i + 1) p
    else if i + 2 > stop ∨ byteAt p (i + 1) < 2 ∨ i + byteAt p (i + 1) > stop then none
    else
      let p := if byteAt p i = 2 ∧ byteAt p (i + 1) = 4 then clampAt h i p else p
      clampOptions h stop fuel (i + byteAt p (i + 1)) p

def clampMss (p : Bytes) : Option Bytes :=
  if ipv4Valid p then
    if byteAt p 9 ≠ 6 ∨ fragment p then some p
    else
      let h := headerLength p
      if byteAt p (h + 13) / 2 % 2 = 0 then some p
      else clampOptions h (h + byteAt p (h + 12) / 16 * 4) p.length (h + 20) p
  else none

def checksumAdd (sum : Nat) : Bytes → Nat
  | [] => sum
  | [last] => sum + last.toNat * 256
  | high :: low :: rest => checksumAdd (sum + Bytes.toUInt16 high low) rest

/-- A sum of 32 bits is folded at most twice. -/
def checksumFinish (sum : Nat) : Nat := 65535 - foldCarry (foldCarry sum)

def repairChecksums (p : Bytes) : Option Bytes :=
  if ipv4Valid p then
    let n := p.length
    let h := headerLength p
    let p := put16 p 10 0
    let p := put16 p 10 (checksumFinish (checksumAdd 0 (p.take h)))
    if fragment p then some p
    else
      match byteAt p 9 with
      | 1 =>
        let p := put16 p (h + 2) 0
        some (put16 p (h + 2) (checksumFinish (checksumAdd 0 (p.drop h))))
      | 6 =>
        let p := put16 p (h + 16) 0
        let sum := checksumAdd 0 ((p.drop 12).take 8) + byteAt p 9 + (n - h)
        some (put16 p (h + 16) (checksumFinish (checksumAdd sum (p.drop h))))
      | 17 =>
        let p := put16 p (h + 6) 0
        let sum := checksumAdd 0 ((p.drop 12).take 8) + byteAt p 9 + (n - h)
        let checksum := checksumFinish (checksumAdd sum (p.drop h))
        some (put16 p (h + 6) (if checksum = 0 then 0xffff else checksum))
      | _ => none
  else none

theorem clampAt_length (h i : Nat) (p : Bytes) : (clampAt h i p).length = p.length := by
  unfold clampAt
  dsimp only
  split <;> simp

/-- Both, one after the other, as on the way in and on the way out. -/
def normalise (p : Bytes) : Option Bytes := (clampMss p).bind repairChecksums

end Meshpn.Device
