import Meshpn.Device.Vpn

/-!
Where the packets of the local networks may go. The stack asks a hook for the
interface of every packet it routes and shows another hook every packet that comes
in. With the tunnel enabled and no fallback allowed, a client's packet for the
outside is routed to the tunnel's interface in every state of the component, and
the input hook drops what pretends to come from another network.
-/

namespace Meshpn.Device

open Meshpn.Lib

/-- An interface of the stack. -/
inductive NetifId where
  | usb
  | ap
  | vpn
  | wg
  | loop
  | other (index : Nat)
deriving DecidableEq

/-- `lan`: an address is in the network of an interface, if there is one. -/
def lan (ip : UInt32) : Option Netif → Bool
  | some n => decide (ip &&& n.mask = n.addr &&& n.mask)
  | none => false

/-- An address of an interface itself. -/
def isAddressOf (ip : UInt32) : Option Netif → Bool
  | some n => decide (ip = n.addr)
  | none => false

def broadcastAddress : UInt32 := 0xffffffff

def isMulticast (ip : UInt32) : Bool := decide (ip &&& 0xf0000000 = 0xe0000000)

namespace Vpn

def tunnelPolicy (s : Vpn) : Bool := s.enabled && (s.killSwitch || s.connected)

/-- An address in one of the local networks. -/
def inLan (s : Vpn) (ip : UInt32) : Bool := lan ip s.usb || lan ip s.ap

/-- `meshvpn_vpn_route`, without the counters of returned packets. -/
def route (s : Vpn) (src dst : Option UInt32) : Option NetifId :=
  match s.ready, src, dst with
  | true, some src, some dst =>
    if src = s.address then some .vpn
    else if !s.inLan src && s.inLan dst then none
    else if !s.tunnelPolicy || !s.inLan src then none
    else if isAddressOf src s.usb || isAddressOf src s.ap then none
    else if s.inLan dst || isMulticast dst || decide (dst = broadcastAddress) then none
    else some .vpn
  | _, _, _ => none

/-- `meshvpn_hook_ip4_route_src`: without an answer the stack's own hook is asked. -/
def routeHook (ip4RouteSrcHook : Option UInt32 → Option UInt32 → Option NetifId) (s : Vpn)
    (src dst : Option UInt32) : Option NetifId :=
  (s.route src dst).or (ip4RouteSrcHook src dst)

/-- A packet buffer: the bytes of the chain and how many of them are in its first link. -/
structure Pbuf where
  bytes : Bytes
  firstLen : Nat

/-- Four bytes as an address. -/
def addressAt (p : Bytes) (i : Nat) : UInt32 :=
  UInt32.ofNat (Bytes.toUInt32 (p.getD i 0) (p.getD (i + 1) 0) (p.getD (i + 2) 0)
    (p.getD (i + 3) 0))

/-- Handed on, dropped and counted, taken for reassembly, put in again on the tunnel's
interface, or denied to a local service. -/
inductive Verdict where
  | pass
  | drop
  | reassemble
  | redirect
  | denied
deriving DecidableEq

/-- A client that asks for an address has none: UDP from port 68 to port 67 of everyone. -/
def dhcpBootstrap (p : Bytes) : Bool :=
  decide (addressAt p 12 = 0 ∧ addressAt p 16 = broadcastAddress ∧ byteAt p 9 = 17) &&
    !fragment p &&
    decide (headerLength p + 4 ≤ p.length ∧ be16 p (headerLength p) = 68 ∧
      be16 p (headerLength p + 2) = 67)

/-- The network of a local interface that the hooks know. -/
def lanOf (s : Vpn) : NetifId → Option Netif
  | .usb => s.usb
  | .ap => s.ap
  | _ => none

/-- The packet came out of the tunnel. -/
def fromTunnel (s : Vpn) (inp : NetifId) : Bool :=
  decide (inp = .vpn) || (decide (inp = .wg) && s.wgActive)

/-- A header that the hook can read: version, lengths and checksum. -/
def headerOk (inetChksum : Bytes → Nat) (p : Bytes) : Bool :=
  decide (20 ≤ p.length ∧ byteAt p 0 / 16 = 4 ∧ 20 ≤ headerLength p ∧ headerLength p ≤ 60 ∧
    headerLength p ≤ be16 p 2 ∧ be16 p 2 ≤ p.length ∧ inetChksum (p.take (headerLength p)) = 0)

/-- The source is not one that may send on a local interface. -/
def spoofed (s : Vpn) (p : Bytes) (inp : NetifId) : Bool :=
  if addressAt p 12 = 0 then !dhcpBootstrap p
  else !lan (addressAt p 12) (s.lanOf inp) || isAddressOf (addressAt p 12) (s.lanOf inp)

/-- `meshvpn_vpn_input`; the build has reassembly, which takes fragments. -/
def input (inetChksum : Bytes → Nat) (s : Vpn) (p : Pbuf) (inp : NetifId) : Verdict :=
  if s.enabled = false ∨ (s.lanOf inp = none ∧ s.fromTunnel inp = false) then .pass
  else if headerOk inetChksum p.bytes = false then .drop
  else if s.fromTunnel inp = false ∧ s.spoofed p.bytes inp = true then .drop
  else if s.fromTunnel inp = true ∧ addressAt p.bytes 16 ≠ s.address then .drop
  else
    let ihl := headerLength p.bytes
    let len := be16 p.bytes 2
    let protocol := byteAt p.bytes 9
    if fragment p.bytes then if p.firstLen < ihl then .drop else .reassemble
    else if protocol ≠ 6 ∧ protocol ≠ 17 ∧ protocol ≠ 1 then .drop
    else
      let need := if protocol = 6 then 20 else 8
      if len < ihl + need ∨ p.firstLen < ihl + need then .drop
      else if inp = .wg then
        if p.firstLen < len ∨ normalise (p.bytes.take len) = none then .drop else .redirect
      else .pass

/-- What the rest of the hook asks the stack: the addresses of all interfaces, and whether an
address is a broadcast on an interface. -/
structure NetEnv where
  addresses : List UInt32
  isBroadcast : UInt32 → NetifId → Bool

/-- A service of the device that the other networks may not reach. -/
def protectedPort (protocol dst : Nat) : Bool :=
  decide ((protocol = 6 ∧ (dst = 80 ∨ dst = 443 ∨ dst = 53)) ∨
    (protocol = 17 ∧ (dst = 53 ∨ dst = 5353 ∨ dst = 32768 ∨ dst = 32769)))

/-- 224.0.0.251. -/
def mdnsAddress : UInt32 := 0xe00000fb

/-- What a client of the access point may reach on the device. -/
def allowedOnAp (s : Vpn) (protocol dst : Nat) (dest : UInt32) : Bool :=
  (decide (dst = 53) && isAddressOf dest s.ap) ||
    (decide (protocol = 17 ∧ dst = 5353) && (isAddressOf dest s.ap || decide (dest = mdnsAddress))) ||
    (decide (protocol = 6 ∧ (dst = 80 ∨ dst = 443)) && isAddressOf dest s.ap)

/-- `meshvpn_hook_ip4_input`. -/
def inputHook (inetChksum : Bytes → Nat) (env : NetEnv) (s : Vpn) (p : Pbuf) (inp : NetifId) :
    Verdict :=
  let verdict := s.input inetChksum p inp
  if verdict ≠ .pass then verdict
  else if inp = .usb ∧ s.usb ≠ none then .pass
  else if inp = .loop then .pass
  else
    let h := p.bytes
    let ihl := headerLength h
    let total := be16 h 2
    if h.length < 20 ∨ byteAt h 0 / 16 ≠ 4 then .denied
    else if ihl < 20 ∨ ihl > 60 ∨ total < ihl ∨ total > h.length then .denied
    else
      let dest := addressAt h 16
      let isLocal := decide (dest = mdnsAddress) || env.isBroadcast dest inp ||
        decide (dest ∈ env.addresses)
      if isLocal = false then .pass
      else if byteAt h 9 ≠ 6 ∧ byteAt h 9 ≠ 17 then .pass
      else if byteAt h 6 % 32 ≠ 0 ∨ byteAt h 7 ≠ 0 then .pass
      else if total < ihl + 4 then .denied
      else
        let dst := be16 h (ihl + 2)
        if inp = .ap ∧ s.ap ≠ none ∧ s.allowedOnAp (byteAt h 9) dst dest = true then .pass
        else if protectedPort (byteAt h 9) dst then .denied
        else .pass

/-- The part of the state that decides whether packets may leave past the tunnel. -/
def policy (s : Vpn) : Bool × Bool × Bool := (s.ready, s.enabled, s.killSwitch)

theorem stateCore_policy (s : Vpn) (g : UInt32) (up : Bool) (error : ErrorCode) :
    (s.stateCore g up error).policy = s.policy := by
  unfold stateCore
  split
  · cases up <;> rfl
  · rfl

theorem sendIpv4_policy (s : Vpn) (p : Bytes) (now : Nat) : (s.sendIpv4 p now).policy = s.policy := by
  unfold sendIpv4
  split
  · rfl
  split
  · rfl
  split <;> rfl

theorem output_policy (s : Vpn) (p : Bytes) (now : Nat) (wg : WgEnv) :
    (s.output p now wg).policy = s.policy := by
  unfold output
  split
  · rfl
  split
  · rfl
  split
  · split <;> rfl
  · exact s.sendIpv4_policy _ now

theorem wgPoll_policy (s : Vpn) (g : UInt32) (poll : WgPoll) :
    (s.wgPoll g poll).policy = s.policy := by
  cases poll with
  | noClock => exact s.stateCore_policy g false .ok
  | noUplink =>
    simp only [wgPoll]
    split
    · exact stateCore_policy { s with wgActive := false } g false .other
    · rfl
  | polled active up error =>
    simp only [wgPoll]
    split
    · exact stateCore_policy { s with wgActive := active } g up error
    · rfl

theorem rxStep_policy (s : Vpn) (choice : RxChoice) : (s.rxStep choice).policy = s.policy := by
  unfold rxStep
  split
  case h_1 =>
    split
    · rfl
    · split <;> rfl
  case h_2 g _ => exact s.wgPoll_policy g choice.wg
  case h_3 cfg _ => exact s.stateCore_policy cfg.generation false .ok
  case h_4 cfg _ =>
    split
    · rfl
    · exact s.stateCore_policy cfg.generation false .ok
    · exact s.stateCore_policy cfg.generation false .ok
  case h_5 =>
    split
    · split <;> rfl
    · rfl
  case h_6 => rfl
  case h_7 cfg _ => exact s.stateCore_policy cfg.generation true .ok
  case h_8 => split <;> rfl
  case h_9 => rfl
  case h_10 => split <;> rfl
  case h_11 => rfl
  case h_12 => split <;> rfl
  case h_13 cfg _ => exact s.stateCore_policy cfg.generation false choice.error

theorem load_policy (batchFrames : Nat) (s : Vpn) (run : TxRun) (scanned now : Nat) :
    (s.load batchFrames run scanned now).policy = s.policy := by
  unfold load
  split
  · split
    · rfl
    · split
      · rfl
      · split
        · rfl
        · split <;> rfl
  · rfl

theorem write_policy (s : Vpn) (run : TxRun) (n : Nat) (timedOut : Bool) :
    (s.write run n timedOut).policy = s.policy := by
  unfold write
  split
  · rfl
  split
  · split
    · rfl
    · split
      · rfl
      · split <;> rfl
  · split
    · rfl
    · split <;> rfl

theorem txStep_policy (batchFrames : Nat) (s : Vpn) (choice : TxChoice) :
    (s.txStep batchFrames choice).policy = s.policy := by
  unfold txStep
  split
  case h_1 => split <;> rfl
  case h_2 => split <;> rfl
  case h_3 =>
    split
    · split
      · split <;> rfl
      · split <;> rfl
    · rfl
  case h_4 run scanned _ => exact s.load_policy batchFrames run scanned choice.now
  case h_5 run _ =>
    split
    · rfl
    · exact s.write_policy run _ choice.timedOut
  case h_6 => rfl

/-- The profile that was applied last. -/
def lastApplied : List Event → Option Config
  | [] => none
  | .apply c :: events => some ((lastApplied events).getD c)
  | .send _ _ :: events | .output _ _ _ :: events | .setLan _ _ :: events | .rx _ :: events
  | .tx _ :: events => lastApplied events

/-- What a profile, if there is one, makes of the policy. -/
def policyOf (before : Bool × Bool × Bool) : Option Config → Bool × Bool × Bool
  | some c => (before.1, c.enabled, !c.allowDirect)
  | none => before

theorem foldl_policy (batchFrames : Nat) (events : List Event) (s : Vpn) :
    (events.foldl (step batchFrames) s).policy = policyOf s.policy (lastApplied events) := by
  induction events generalizing s with
  | nil => rfl
  | cons event events ih =>
    rw [List.foldl_cons, ih]
    cases event with
    | send p now => rw [step, sendIpv4_policy, lastApplied]
    | output p now wg => rw [step, output_policy, lastApplied]
    | apply c =>
      rw [lastApplied]
      cases lastApplied events with
      | none => rfl
      | some later => rfl
    | setLan usb ap => rfl
    | rx choice => rw [step, rxStep_policy, lastApplied]
    | tx choice => rw [step, txStep_policy, lastApplied]

theorem run_policy (batchFrames : Nat) (events : List Event) :
    (run batchFrames events).policy = policyOf init.policy (lastApplied events) :=
  foldl_policy batchFrames events init

theorem run_ready (batchFrames : Nat) (events : List Event) :
    (run batchFrames events).ready = true := by
  have hpolicy := congrArg Prod.fst (run_policy batchFrames events)
  cases hlast : lastApplied events with
  | none => rw [hlast] at hpolicy; exact hpolicy
  | some c => rw [hlast] at hpolicy; exact hpolicy

/-- A client of a local network: an address of the network that is not the device's. -/
def IsClient (s : Vpn) (src : UInt32) : Prop :=
  s.inLan src = true ∧ isAddressOf src s.usb = false ∧ isAddressOf src s.ap = false

instance (s : Vpn) (src : UInt32) : Decidable (s.IsClient src) :=
  inferInstanceAs (Decidable (_ ∧ _))

/-- A destination outside: no local network, no multicast and no broadcast. -/
def IsOutside (s : Vpn) (dst : UInt32) : Prop :=
  s.inLan dst = false ∧ isMulticast dst = false ∧ dst ≠ broadcastAddress

instance (s : Vpn) (dst : UInt32) : Decidable (s.IsOutside dst) :=
  inferInstanceAs (Decidable (_ ∧ _))

theorem route_client {s : Vpn} (hready : s.ready = true) (henabled : s.enabled = true)
    (hkill : s.killSwitch = true) {src dst : UInt32} (hclient : s.IsClient src)
    (houtside : s.IsOutside dst) : s.route (some src) (some dst) = some .vpn := by
  obtain ⟨hlan, husb, hap⟩ := hclient
  obtain ⟨hfar, hmulticast, hbroadcast⟩ := houtside
  have hpolicy : s.tunnelPolicy = true := by simp [tunnelPolicy, henabled, hkill]
  unfold route
  rw [hready]
  simp [hlan, hpolicy, husb, hap, hfar, hmulticast, hbroadcast]

/-- On a local interface a foreign source is dropped, apart from a client's first request. -/
theorem input_foreign (inetChksum : Bytes → Nat) {s : Vpn} (henabled : s.enabled = true)
    {p : Pbuf} {inp : NetifId} (hknown : s.lanOf inp ≠ none)
    (hforeign : lan (addressAt p.bytes 12) (s.lanOf inp) = false)
    (hrequest : dhcpBootstrap p.bytes = false) : s.input inetChksum p inp = .drop := by
  have htunnel : s.fromTunnel inp = false := by
    cases inp with
    | usb => rfl
    | ap => rfl
    | vpn => exact absurd rfl hknown
    | wg => exact absurd rfl hknown
    | loop => rfl
    | other index => rfl
  have hspoofed : s.spoofed p.bytes inp = true := by
    unfold spoofed
    split
    · rw [hrequest]
      rfl
    · rw [hforeign]
      rfl
  unfold input
  rw [if_neg (by simp [henabled, hknown])]
  split
  · rfl
  · rw [if_pos ⟨htunnel, hspoofed⟩]

theorem input_tunnel (inetChksum : Bytes → Nat) {s : Vpn} (henabled : s.enabled = true)
    {p : Pbuf} {inp : NetifId} (htunnel : s.fromTunnel inp = true)
    (hother : addressAt p.bytes 16 ≠ s.address) : s.input inetChksum p inp = .drop := by
  unfold input
  rw [if_neg (by simp [henabled, htunnel])]
  split
  · rfl
  · rw [if_neg (by simp [htunnel]), if_pos ⟨htunnel, hother⟩]

theorem inputHook_drop {inetChksum : Bytes → Nat} {s : Vpn} {p : Pbuf} {inp : NetifId}
    (env : NetEnv) (hdrop : s.input inetChksum p inp = .drop) :
    s.inputHook inetChksum env p inp = .drop := by
  unfold inputHook
  rw [hdrop]
  rfl

/-- In every state that any order of profiles, connections, polls and queued packets leads to,
with the tunnel enabled and no fallback: a client's packet for the outside is routed to the
tunnel's interface, whatever the stack would answer; a packet from a local interface with a
source outside its network is dropped unless it asks for an address; and so is a packet from
the tunnel that is not for the tunnel's address. The two flags are those of the profile that
was applied last. -/
theorem kill_switch_holds (batchFrames : Nat) (events : List Event)
    (henabled : (run batchFrames events).enabled = true)
    (hkill : (run batchFrames events).killSwitch = true) :
    (∀ ip4RouteSrcHook src dst, (run batchFrames events).IsClient src →
      (run batchFrames events).IsOutside dst →
      routeHook ip4RouteSrcHook (run batchFrames events) (some src) (some dst) = some .vpn) ∧
    (∀ inetChksum env p inp, (inp = .usb ∨ inp = .ap) →
      (run batchFrames events).lanOf inp ≠ none →
      lan (addressAt p.bytes 12) ((run batchFrames events).lanOf inp) = false →
      dhcpBootstrap p.bytes = false →
      (run batchFrames events).inputHook inetChksum env p inp = .drop) ∧
    (∀ inetChksum env p inp, (run batchFrames events).fromTunnel inp = true →
      addressAt p.bytes 16 ≠ (run batchFrames events).address →
      (run batchFrames events).inputHook inetChksum env p inp = .drop) ∧
    ∃ c, lastApplied events = some c ∧ c.enabled = true ∧ c.allowDirect = false := by
  have hready := run_ready batchFrames events
  refine ⟨?_, ?_, ?_, ?_⟩
  · intro ip4RouteSrcHook src dst hclient houtside
    rw [routeHook, route_client hready henabled hkill hclient houtside]
    rfl
  · intro inetChksum env p inp _ hknown hforeign hrequest
    exact inputHook_drop env (input_foreign inetChksum henabled hknown hforeign hrequest)
  · intro inetChksum env p inp htunnel hother
    exact inputHook_drop env (input_tunnel inetChksum henabled htunnel hother)
  · have hpolicy := run_policy batchFrames events
    rw [policy, henabled, hkill] at hpolicy
    cases hlast : lastApplied events with
    | none =>
      rw [hlast] at hpolicy
      have hnever : true = false := congrArg (fun flags => flags.2.1) hpolicy
      contradiction
    | some c =>
      rw [hlast] at hpolicy
      simp only [policyOf, Prod.mk.injEq] at hpolicy
      exact ⟨c, rfl, hpolicy.2.1.symm, by simpa using hpolicy.2.2.symm⟩

/-- A client behind USB while the tunnel is down, after a profile without fallback. -/
theorem client_kept_in :
    let events : List Event :=
      [.setLan (some ⟨0xc0a80701, 0xffffff00⟩) none, .apply ⟨true, false, .tcp, none, .ok⟩]
    (run 32 events).connected = false ∧
      routeHook (fun _ _ => some (.other 1)) (run 32 events) (some 0xc0a80702) (some 0x01010101) =
        some .vpn := by
  intro events
  refine ⟨rfl, ?_⟩
  exact (kill_switch_holds 32 events rfl rfl).1 _ _ _ (by decide) (by decide)

end Vpn

end Meshpn.Device
