import Meshpn.Device.Frame
import Meshpn.Lib.Buffer

/-!
The filter in front of the device's own services, `meshvpn_hook_ip4_input`. It sees every
packet of version 4 before it is forwarded or put together from fragments, and consumes
what it discards; what lwIP makes of the rest is here as well.

The services of the device itself stay closed: whatever fragments arrive, and however
they overlap, no datagram for one of them is put together from what is let through.
-/

namespace Meshpn.Device.Ingress

open Meshpn.Lib Meshpn.Lib.Regions

/-- An interface: which one it is, its name, and its address. -/
structure Netif where
  num : Nat
  name : UInt8 × UInt8
  addr : Bytes
  deriving DecidableEq, Repr

/-- What the filter looks at besides the packet. The tunnel may consume a packet before it. -/
structure Net where
  usb : Option Netif
  ap : Option Netif
  netifs : List Netif
  vpnInput : Bytes → Netif → Bool
  isBroadcast : Bytes → Netif → Bool

structure Counters where
  lanRx : Nat
  apRx : Nat
  denied : Nat
  deriving DecidableEq, Repr

/-- The name of the internal loopback. -/
def loopback : UInt8 × UInt8 := (108, 111)

/-- 224.0.0.251. -/
def mdns : Bytes := [224, 0, 0, 251]

def destination (p : Bytes) : Bytes := region 16 4 p

def protocol (p : Bytes) : Nat := byteAt p 9

/-- Where the bytes of a fragment belong, in the whole datagram. -/
def fragmentOffset (p : Bytes) : Nat := (byteAt p 6 % 32 * 256 + byteAt p 7) * 8

/-- What is behind the header, up to the length that is stated. -/
def payload (p : Bytes) : Bytes := (p.take (be16 p 2)).drop (headerLength p)

def discard (s : Counters) : Bool × Counters := (true, { s with denied := s.denied + 1 })

/-- The services of the device itself that are not for everyone. -/
def managed (protocol port : Nat) : Bool :=
  protocol == 6 && (port == 80 || port == 443 || port == 53) ||
    protocol == 17 && (port == 53 || port == 5353 || port == 32768 || port == 32769)

/-- What clients of the access point may use all the same. -/
def apAllowed (addr dest : Bytes) (protocol port : Nat) : Bool :=
  port == 53 && dest == addr ||
    protocol == 17 && port == 5353 && (dest == addr || dest == mdns) ||
    protocol == 6 && (port == 80 || port == 443) && dest == addr

/-- Whether a packet to this address is for the device itself. -/
def isLocal (net : Net) (inp : Netif) (dest : Bytes) : Bool :=
  dest == mdns || net.isBroadcast dest inp || net.netifs.any fun n => dest == n.addr

/-- The part of the filter behind the checks of the header. -/
def portFilter (net : Net) (p : Bytes) (inp : Netif) (s : Counters) : Bool × Counters :=
  let ihl := headerLength p
  let dest := destination p
  if !isLocal net inp dest then (false, s)
  else if protocol p != 6 && protocol p != 17 then (false, s)
  else if byteAt p 6 % 32 != 0 || byteAt p 7 != 0 then (false, s)
  else if be16 p 2 < ihl + 4 || p.length < ihl + 4 then discard s
  else
    let dst := be16 p (ihl + 2)
    if some inp == net.ap && apAllowed inp.addr dest (protocol p) dst then (false, s)
    else if managed (protocol p) dst then discard s
    else (false, s)

/-- `meshvpn_hook_ip4_input`: true where the packet is consumed. -/
def ip4Input (net : Net) (p : Bytes) (inp : Netif) (s : Counters) : Bool × Counters :=
  if net.vpnInput p inp then (true, s)
  else if some inp == net.usb then (false, { s with lanRx := s.lanRx + 1 })
  else if inp.name == loopback then (false, s)
  else
    let s := if some inp == net.ap then { s with apRx := s.apRx + 1 } else s
    if p.length < 20 || byteAt p 0 / 16 != 4 then discard s
    else
      let ihl := headerLength p
      let total := be16 p 2
      if ihl < 20 || ihl > 60 || total < ihl || total > p.length then discard s
      else portFilter net p inp s

/-- What is let through of the packets that arrive, one after the other. -/
def letThrough (net : Net) (inp : Netif) : List Bytes → Counters → List Bytes
  | [], _ => []
  | p :: rest, s =>
    let (consumed, s) := ip4Input net p inp s
    if consumed then letThrough net inp rest s else p :: letThrough net inp rest s

/-- A datagram that was put together: the fragment that its header is from, its payload, and the
fragment that each byte of it is from. -/
structure Datagram where
  first : Bytes
  payload : Bytes
  source : Nat → Bytes

namespace Datagram

def destination (d : Datagram) : Bytes := Ingress.destination d.first

def protocol (d : Datagram) : Nat := Ingress.protocol d.first

/-- The port that the datagram is for. -/
def port (d : Datagram) : Option Nat :=
  if 4 ≤ d.payload.length then some (be16 d.payload 2) else none

/-- The header and the first block of the payload are not from two fragments at offset zero. -/
def OneFirst (d : Datagram) : Prop :=
  ∀ i < d.payload.length, i < 8 → fragmentOffset (d.source i) = 0 → d.source i = d.first

end Datagram

/-- Fragments that are put together have the same sender, receiver and identification. -/
def SameDatagram (p q : Bytes) : Prop :=
  region 4 2 p = region 4 2 q ∧ region 12 8 p = region 12 8 q

/-- The header is from a fragment at offset zero, and every byte of the payload from a fragment that
has a byte for this place. Fragments may overlap, and any of them may be taken. -/
structure Reassembled (packets : List Bytes) (d : Datagram) : Prop where
  first_mem : d.first ∈ packets
  first_offset : fragmentOffset d.first = 0
  source_mem : ∀ i < d.payload.length, d.source i ∈ packets
  source_same : ∀ i < d.payload.length, SameDatagram (d.source i) d.first
  source_byte : ∀ i < d.payload.length, fragmentOffset (d.source i) ≤ i ∧
    i - fragmentOffset (d.source i) < (payload (d.source i)).length ∧
    d.payload[i]? = (payload (d.source i))[i - fragmentOffset (d.source i)]?

variable {net : Net} {inp : Netif}

variable {p : Bytes} {s : Counters}

theorem mem_letThrough {arrived : List Bytes}
    (h : p ∈ letThrough net inp arrived s) : ∃ s, (ip4Input net p inp s).1 = false := by
  induction arrived generalizing s with
  | nil => exact absurd h List.not_mem_nil
  | cons q rest ih =>
    rw [letThrough] at h
    rcases hrun : ip4Input net q inp s with ⟨consumed, next⟩
    rw [hrun] at h
    cases consumed with
    | true => exact ih h
    | false =>
      rcases List.mem_cons.mp h with rfl | h
      · exact ⟨s, congrArg Prod.fst hrun⟩
      · exact ih h

theorem passed_checks (husb : net.usb ≠ some inp)
    (hname : inp.name ≠ loopback) (h : (ip4Input net p inp s).1 = false) :
    be16 p 2 ≤ p.length ∧ ∃ s, (portFilter net p inp s).1 = false := by
  have hlan : ¬(some inp == net.usb) = true := by
    rw [beq_iff_eq]
    exact fun heq => husb heq.symm
  have hloop : ¬(inp.name == loopback) = true := by
    rw [beq_iff_eq]
    exact hname
  unfold ip4Input at h
  split at h
  case isTrue => cases h
  dsimp only at h
  split at h
  case isTrue => cases h
  split at h
  case isTrue => cases h
  rename_i hlengths
  simp only [Bool.or_eq_true, decide_eq_true_eq, not_or, Nat.not_lt] at hlengths
  exact ⟨hlengths.2, _, h⟩

/-- A fragment at offset zero for the device itself is not for a service that is closed. -/
theorem first_fragment_allowed
    (hlocal : isLocal net inp (destination p) = true) (hprotocol : protocol p = 6 ∨ protocol p = 17)
    (hoffset : fragmentOffset p = 0) (h : (portFilter net p inp s).1 = false) :
    managed (protocol p) (be16 p (headerLength p + 2)) = true → net.ap = some inp ∧
      apAllowed inp.addr (destination p) (protocol p) (be16 p (headerLength p + 2)) = true := by
  have hproto : ¬(protocol p != 6 && protocol p != 17) = true := by
    rw [Bool.and_eq_true, bne_iff_ne, bne_iff_ne]
    omega
  have hzero : ¬(byteAt p 6 % 32 != 0 || byteAt p 7 != 0) = true := by
    unfold fragmentOffset at hoffset
    rw [Bool.or_eq_true, bne_iff_ne, bne_iff_ne]
    omega
  unfold portFilter at h
  dsimp only at h
  rw [hlocal, if_neg (by decide), if_neg hproto, if_neg hzero] at h
  split at h
  case isTrue => cases h
  intro hmanaged
  split at h
  case isTrue hallowed =>
    rw [Bool.and_eq_true, beq_iff_eq] at hallowed
    exact ⟨hallowed.1.symm, hallowed.2⟩
  case isFalse =>
    cases h

theorem payload_get (htotal : be16 p 2 ≤ p.length) {i : Nat}
    (h : i < (payload p).length) :
    (payload p)[i]? = some (p.getD (headerLength p + i) 0) := by
  rw [payload, List.length_drop, List.length_take_of_le htotal] at h
  rw [payload, List.getElem?_drop, List.getElem?_take_of_lt (by omega),
    List.getD_eq_getElem?_getD, List.getElem?_eq_getElem (by omega), Option.getD_some]

theorem first_block {packets : List Bytes} {d : Datagram} (hd : Reassembled packets d)
    (hone : d.OneFirst) {i : Nat} (hi : i < 8) (hlength : i < d.payload.length) :
    d.payload[i]? = (payload d.first)[i]? ∧ i < (payload d.first).length := by
  obtain ⟨hlow, hin, hbyte⟩ := hd.source_byte i hlength
  have hzero : fragmentOffset (d.source i) = 0 := by
    unfold fragmentOffset at hlow ⊢
    omega
  rw [hzero, Nat.sub_zero, hone i hlength hi hzero] at hbyte hin
  exact ⟨hbyte, hin⟩

/-- No datagram for a service of the device that is closed comes of what is let through; clients of
the access point are only allowed what is meant for them. -/
theorem services_closed (husb : net.usb ≠ some inp) (hname : inp.name ≠ loopback)
    {arrived : List Bytes} {s : Counters} {d : Datagram}
    (hd : Reassembled (letThrough net inp arrived s) d) (hone : d.OneFirst)
    (hlocal : isLocal net inp d.destination = true) {port : Nat} (hport : d.port = some port)
    (hmanaged : managed d.protocol port = true) :
    net.ap = some inp ∧ apAllowed inp.addr d.destination d.protocol port = true := by
  obtain ⟨s, hpassed⟩ := mem_letThrough hd.first_mem
  obtain ⟨htotal, s, hfilter⟩ := passed_checks husb hname hpassed
  have hprotocol : protocol d.first = 6 ∨ protocol d.first = 17 := by
    rw [managed, Bool.or_eq_true, Bool.and_eq_true, Bool.and_eq_true, beq_iff_eq, beq_iff_eq] at hmanaged
    exact hmanaged.imp And.left And.left
  have hallowed := first_fragment_allowed hlocal hprotocol hd.first_offset hfilter
  have hfour : 4 ≤ d.payload.length := by
    by_contra hshort
    rw [Datagram.port, if_neg hshort] at hport
    cases hport
  have hsame : port = be16 d.first (headerLength d.first + 2) := by
    rw [Datagram.port, if_pos hfour, Option.some.injEq] at hport
    have hbyte : ∀ i < 4, d.payload.getD i 0 = d.first.getD (headerLength d.first + i) 0 := by
      intro i hi
      obtain ⟨hget, hin⟩ := first_block hd hone (by omega) (by omega : i < d.payload.length)
      rw [List.getD_eq_getElem?_getD, hget, payload_get htotal hin, Option.getD_some]
    rw [← hport, be16, be16, hbyte 2 (by decide), hbyte 3 (by decide)]
  rw [hsame] at hmanaged ⊢
  exact hallowed hmanaged

/-- The station and the access point, with nothing else and no tunnel. -/
def sta : Netif := ⟨1, (115, 116), [192, 168, 1, 80]⟩

def ap : Netif := ⟨2, (97, 112), [192, 168, 4, 1]⟩

def plain : Net := ⟨none, some ap, [sta, ap], fun _ _ => false, fun _ _ => false⟩

/-- A packet of eight bytes behind the header, for this address and port. -/
def packet (flags protocol : UInt8) (dest port : Bytes) : Bytes :=
  [69, 0, 0, 28, 0, 1, flags, 0, 64, protocol, 0, 0, 192, 168, 1, 2] ++ dest ++ [4, 0] ++ port ++
    [0, 8, 0, 0]

/-- A packet that is a datagram by itself. -/
def alone (p : Bytes) : Datagram := ⟨p, payload p, fun _ => p⟩

theorem alone_reassembled {packets : List Bytes} (hmem : p ∈ packets)
    (hoffset : fragmentOffset p = 0) : Reassembled packets (alone p) :=
  ⟨hmem, hoffset, fun _ _ => hmem, fun _ _ => ⟨rfl, rfl⟩, fun i hi => by
    change fragmentOffset p ≤ i ∧ i - fragmentOffset p < _ ∧ _ = (payload p)[i - fragmentOffset p]?
    rw [hoffset, Nat.sub_zero]
    exact ⟨Nat.zero_le i, hi, rfl⟩⟩

/-- Clients of the access point reach its own resolver. -/
theorem services_closed_dns : isLocal plain ap (alone (packet 0 17 ap.addr [0, 53])).destination = true ∧
    plain.ap = some ap ∧ apAllowed ap.addr (alone (packet 0 17 ap.addr [0, 53])).destination
      (alone (packet 0 17 ap.addr [0, 53])).protocol 53 = true :=
  ⟨by decide, @services_closed plain ap (by decide) (by decide) [packet 0 17 ap.addr [0, 53]]
    ⟨0, 0, 0⟩ _ (alone_reassembled (by decide) (by decide)) (fun _ _ _ _ => rfl) (by decide) 53
    (by decide) (by decide)⟩

/-- Two fragments of which the first gives the header and the other one the payload. -/
def mixed : Datagram where
  first := packet 32 6 sta.addr [39, 15]
  payload := payload (packet 0 17 sta.addr [0, 80])
  source _ := packet 0 17 sta.addr [0, 80]

/-- The multicast group is open for clients of the access point as well; and two fragments at offset
zero, each of them let through, are a datagram for a service where their parts are mixed. -/
theorem services_reached :
    (∃ d, Reassembled (letThrough plain ap [d.first] ⟨0, 0, 0⟩) d ∧ d.OneFirst ∧
      isLocal plain ap d.destination = true ∧ d.port = some 5353 ∧
      managed d.protocol 5353 = true ∧ d.destination ≠ ap.addr) ∧
    ∃ p q d, Reassembled (letThrough plain sta [p, q] ⟨0, 0, 0⟩) d ∧
      isLocal plain sta d.destination = true ∧ d.port = some 80 ∧ managed d.protocol 80 = true := by
  constructor
  · exact ⟨alone (packet 0 17 mdns [20, 233]), alone_reassembled (by decide) (by decide),
      fun _ _ _ _ => rfl, by decide, by decide, by decide, by decide⟩
  · refine ⟨mixed.first, mixed.source 0, mixed, ⟨by decide, by decide, fun _ _ => ?_, fun _ _ => ?_,
      fun i hi => ?_⟩, by decide, by decide, by decide⟩
    · change mixed.source 0 ∈ _
      decide
    · change SameDatagram (mixed.source 0) mixed.first
      unfold SameDatagram
      decide
    · change fragmentOffset (mixed.source 0) ≤ i ∧ _
      have hzero : fragmentOffset (mixed.source 0) = 0 := by decide
      change _ ∧ i - fragmentOffset (mixed.source 0) < _ ∧
        _ = (payload (mixed.source 0))[i - fragmentOffset (mixed.source 0)]?
      rw [hzero, Nat.sub_zero]
      exact ⟨Nat.zero_le i, hi, rfl⟩

end Meshpn.Device.Ingress
