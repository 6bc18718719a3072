import Mathlib.Data.List.Basic
import Mathlib.Data.BitVec

/-!
Where the exit may connect to: `transparent-tls-destination.mjs`. A policy turns
the host and the port of a request into numeric addresses, with at most one DNS
lookup, and the request then tries these addresses one after the other.

The requests of an exit share the policy and its count of pending lookups. A
request goes on whenever a promise it waits for has settled; what settles it
(a lookup, a connection, an abort of its session) is an event, and the rest of
the request up to its next `await` is another one, so that an abort can come
between the two. The deadlines of a request are aborts and failed connections.

How text is read as an address is a parameter; which addresses a `BlockList` has
is computed on addresses.
-/

namespace Meshpn.Tls.Destination

abbrev Text := List Char

inductive IpAddress where
  | v4 (bits : BitVec 32)
  | v6 (bits : BitVec 128)
  deriving DecidableEq, Repr

/-- An address among the IPv6 ones; an IPv4 address is the same as its mapped form. -/
def IpAddress.number : IpAddress → Nat
  | .v4 bits => 0xffff * 2 ^ 32 + bits.toNat
  | .v6 bits => bits.toNat

def IpAddress.family : IpAddress → Nat
  | .v4 _ => 4
  | .v6 _ => 6

/-- An entry of a `BlockList`: the addresses that share the first `bits` bits with `base`. -/
structure Subnet where
  base : IpAddress
  bits : Nat
  deriving DecidableEq, Repr

/-- The bits behind the ones that count. -/
def Subnet.hostBits (subnet : Subnet) : Nat :=
  match subnet.base with
  | .v4 _ => 32 - subnet.bits
  | .v6 _ => 128 - subnet.bits

def Subnet.contains (subnet : Subnet) (address : IpAddress) : Bool :=
  address.number / 2 ^ subnet.hostBits == subnet.base.number / 2 ^ subnet.hostBits

abbrev BlockList := List Subnet

def BlockList.check (list : BlockList) (address : IpAddress) : Bool :=
  list.any (·.contains address)

/-- What `addAddress` adds. -/
def Subnet.single (address : IpAddress) : Subnet :=
  ⟨address, match address with
    | .v4 _ => 32
    | .v6 _ => 128⟩

/-- A subnet in dotted notation. -/
def ip4 (a b c d : Nat) (bits : Nat) : Subnet :=
  ⟨.v4 (BitVec.ofNat 32 (((a * 256 + b) * 256 + c) * 256 + d)), bits⟩

/-- A subnet whose base has these two groups in front. -/
def ip6 (a b : Nat) (bits : Nat) : Subnet :=
  ⟨.v6 (BitVec.ofNat 128 ((a * 65536 + b) * 2 ^ 96)), bits⟩

def excluded4 : BlockList :=
  [ip4 0 0 0 0 8, ip4 10 0 0 0 8, ip4 100 64 0 0 10, ip4 127 0 0 0 8, ip4 169 254 0 0 16,
    ip4 172 16 0 0 12, ip4 192 0 0 0 24, ip4 192 0 2 0 24, ip4 192 88 99 0 24, ip4 192 168 0 0 16,
    ip4 198 18 0 0 15, ip4 198 51 100 0 24, ip4 203 0 113 0 24, ip4 224 0 0 0 3]

def global6 : BlockList := [ip6 0x2000 0 3]

def excluded6 : BlockList := [ip6 0x2001 0 23, ip6 0x2001 0xdb8 32, ip6 0x2002 0 16, ip6 0x3fff 0 20]

/-- The addresses of the policy. -/
def IpAddress.isPublic (address : IpAddress) : Bool :=
  match address with
  | .v4 _ => !excluded4.check address
  | .v6 _ => global6.check address && !excluded6.check address

/-- The syntax of addresses, by which `net.isIP` decides. An address of version 6 has a colon. -/
structure Net where
  parseIp : Text → Option IpAddress
  colon : ∀ text bits, parseIp text = some (.v6 bits) → ':' ∈ text

variable (net : Net)

def Net.isIP (text : Text) : Nat :=
  match net.parseIp text with
  | none => 0
  | some address => address.family

/-- `isPublicRelayAddress` of a string. -/
def isPublicRelayAddress (text : Text) : Bool :=
  if '%' ∈ text then false
  else
    match net.parseIp text with
    | none => false
    | some address => address.isPublic

/-- `/^[a-z0-9](?:[a-z0-9-]{0,61}[a-z0-9])?$/i`. -/
def isLabel (label : Text) : Bool :=
  label.all (fun c => c.isAlphanum || c == '-') && label.length ≤ 63 &&
    label.head?.any Char.isAlphanum && label.getLast?.any Char.isAlphanum

/-- A port argument that is no integer is `none`. -/
def validRoute (hostname : Text) (port : Option Int) : Bool :=
  hostname.length ≤ 253 && 0 < hostname.length && (hostname.splitOn '.').all isLabel &&
    port.any fun p => 1 ≤ p && p ≤ 65535

def isHexDigit (c : Char) : Bool := c.isDigit || ('a' ≤ c && c ≤ 'f') || ('A' ≤ c && c ≤ 'F')

/-- `(?:0x[\da-f]+|\d+)`, in any case. -/
def isNumeric (part : Text) : Bool :=
  (part ≠ [] && part.all Char.isDigit) ||
    match part with
    | '0' :: x :: digits => (x == 'x' || x == 'X') && digits ≠ [] && digits.all isHexDigit
    | _ => false

/-- `toLowerCase` of a name that has ASCII characters only. -/
def toLowerCase (hostname : Text) : Text := hostname.map Char.toLower

def localNames : List Text :=
  ["localhost".toList, "local".toList, "internal".toList, "home.arpa".toList]

/-- `/(?:^|\.)(?:localhost|local|internal|home\.arpa)$/i`. -/
def isLocalName (hostname : Text) : Bool :=
  localNames.any fun name =>
    toLowerCase hostname == name || ('.' :: name).isSuffixOf (toLowerCase hostname)

def publicHostname (hostname : Text) : Bool :=
  net.isIP hostname == 0 && '.' ∈ hostname && !(hostname.splitOn '.').all isNumeric &&
    !isLocalName hostname

inductive DestinationError where
  | config | destination | dnsBusy | dns | destinationPeer | exhausted
  -- the reason of an aborted session, and a connection that failed for good
  | aborted | connect
  deriving DecidableEq, Repr

structure Target where
  address : Text
  family : Nat
  port : Int
  deriving DecidableEq, Repr

/-- `pinnedCandidates`, on the addresses of `answers` and what they are read as. -/
def candidatesFrom (port : Int) : List (Text × Nat) → BlockList → List Target
  | [], _ => []
  | (address, family) :: answers, seen =>
    match net.parseIp address with
    -- only addresses get here
    | none => candidatesFrom port answers seen
    | some ip =>
      if BlockList.check seen ip then candidatesFrom port answers seen
      else ⟨address, family, port⟩ :: candidatesFrom port answers (seen ++ [Subnet.single ip])

def pinnedCandidates (answers : List (Text × Nat)) (port : Int) : List Target :=
  candidatesFrom net port answers []

/-- `pinnedRoute`; an address or a family of another type is `none`. -/
structure PinnedRoute where
  hostname : Text
  port : Option Int
  addresses : List (Option Text × Option Nat × Option Int)

structure Pinned where
  hostname : Text
  port : Int
  targets : List Target
  deriving DecidableEq, Repr

structure Policy where
  loopback : Option (Text × Int)
  pinned : Option Pinned
  deriving DecidableEq, Repr

/-- One address of a route that is to be pinned. -/
def checkedTarget (port : Int) : Option Text × Option Nat × Option Int → Option (Text × Nat)
  | (some address, some family, some p) =>
    if isPublicRelayAddress net address ∧ family = net.isIP address ∧ p = port then
      some (address, family)
    else none
  | _ => none

/-- The constructor of `ExitDestinationPolicy`. -/
def createPolicy (loopback : Option (Text × Option Int)) (pinnedRoute : Option PinnedRoute) :
    Except DestinationError Policy :=
  if ¬loopback.all fun (hostname, port) => validRoute hostname port then .error .config
  else
    let loop := loopback.bind fun (hostname, port) => port.map (hostname, ·)
    match pinnedRoute with
    | none => .ok ⟨loop, none⟩
    | some route =>
      match route.port with
      | none => .error .config
      | some port =>
        if loopback.isSome ∨ ¬validRoute route.hostname route.port ∨
            ¬publicHostname net route.hostname ∨ route.addresses = [] ∨
            8 < route.addresses.length then .error .config
        else
          match route.addresses.mapM (checkedTarget net port) with
          | none => .error .config
          | some addresses =>
            .ok ⟨none, some ⟨toLowerCase route.hostname, port,
              pinnedCandidates net addresses port⟩⟩

def exitDnsMaxPending : Nat := 64

def exitDnsMaxAnswers : Nat := 64

/-- An entry of an answer: its address and its family, if these are a string and a number. -/
structure Entry where
  address : Option Text
  family : Option Nat
  deriving DecidableEq, Repr

/-- How a lookup ends: with a rejection, with something else than an array, or with an array, whose
elements need not be objects. -/
inductive Answer where
  | rejected
  | other
  | entries (entries : List (Option Entry))
  deriving DecidableEq, Repr

/-- The part of `resolve` ahead of its lookup; `none` starts the lookup. -/
def resolve (policy : Policy) (pending : Nat) (hostname : Text) (port : Option Int) :
    Except DestinationError (Option (List Target)) :=
  match port with
  | none => .error .destination
  | some p =>
    if ¬validRoute hostname port then .error .destination
    else
      match policy.loopback with
      | some (loopHost, loopPort) =>
        if hostname ≠ loopHost ∨ p ≠ loopPort then .error .destination
        else .ok (some (pinnedCandidates net [("127.0.0.1".toList, 4)] p))
      | none =>
        match policy.pinned.filter fun pinned => toLowerCase hostname = pinned.hostname with
        | some pinned => if p ≠ pinned.port then .error .destination else .ok (some pinned.targets)
        | none =>
          if net.isIP hostname ≠ 0 then
            if isPublicRelayAddress net hostname then
              .ok (some (pinnedCandidates net [(hostname, 4)] p))
            else .error .destination
          else if ¬publicHostname net hostname then .error .destination
          else if exitDnsMaxPending ≤ pending then .error .dnsBusy
          else .ok none

/-- One entry, if it is accepted. -/
def checkedEntry : Option Entry → Option (Text × Nat)
  | some ⟨some address, some family⟩ =>
    if family = net.isIP address ∧ isPublicRelayAddress net address then some (address, family)
    else none
  | _ => none

/-- The part of `resolve` behind its lookup. -/
def resolveAnswer (answer : Answer) (port : Int) : Except DestinationError (List Target) :=
  match answer with
  | .rejected => .error .dns
  | .other => .error .dns
  | .entries entries =>
    if entries = [] ∨ exitDnsMaxAnswers < entries.length then .error .dns
    else
      match entries.mapM (checkedEntry net) with
      | none => .error .destination
      | some answers => .ok (pinnedCandidates net answers port)

/-- `remoteAddress` and `remotePort` of a socket. -/
structure Peer where
  address : Option Text
  port : Option Int
  deriving DecidableEq, Repr

/-- How the attempt to connect to a target ends. -/
inductive Outcome where
  | connected (peer : Peer)
  | retryable
  | fatal
  deriving DecidableEq, Repr

/-- What a request waits for, or how it has ended. -/
inductive Progress where
  | racing
  | resolved (result : Except DestinationError (List Target))
  | connecting (target : Target) (rest : List Target)
  | attempted (target : Target) (rest : List Target) (outcome : Outcome)
  | returned (target : Target) (peer : Peer)
  | threw (error : DestinationError)

/-- A call of `connectRelayDestination`. `lookup` is there while its lookup is pending, `answer`
is what its lookup has answered, and `attempts` are the calls of its connector. -/
structure Request where
  hostname : Text
  port : Option Int
  aborted : Bool
  lookup : Bool
  answer : Option Answer
  attempts : List Target
  progress : Progress

/-- `session.check()` and the next round of the loop. -/
def Request.tryNext (request : Request) : List Target → Request
  | [] => { request with progress := .threw .destination }
  | target :: rest =>
    if request.aborted then { request with progress := .threw .aborted }
    else
      { request with
        attempts := request.attempts ++ [target]
        progress := .connecting target rest }

/-- The check of the peer. -/
def peerAllowed (target : Target) (peer : Peer) : Bool :=
  match peer.address with
  | none => false
  | some address =>
    match net.parseIp address, net.parseIp target.address with
    | some ip, some allowed =>
      peer.port == some target.port && '%' ∉ address && (Subnet.single allowed).contains ip
    | _, _ => false

/-- The request goes on after its promise has settled. -/
def Request.resume (request : Request) : Request :=
  match request.progress with
  | .resolved (.error error) => { request with progress := .threw error }
  | .resolved (.ok targets) =>
    if request.aborted then { request with progress := .threw .aborted }
    else request.tryNext targets
  | .attempted target rest outcome =>
    if request.aborted then { request with progress := .threw .aborted }
    else
      match outcome with
      | .connected peer =>
        if peerAllowed net target peer then { request with progress := .returned target peer }
        else { request with progress := .threw .destinationPeer }
      | .fatal => { request with progress := .threw .connect }
      | .retryable =>
        match rest with
        | [] => { request with progress := .threw .exhausted }
        | _ => request.tryNext rest
  | _ => request

/-- The session of the request is aborted. -/
def Request.abort (request : Request) : Request :=
  if request.aborted then request
  else
    let request := { request with aborted := true }
    match request.progress with
    | .racing => { request with progress := .resolved (.error .aborted) }
    | .connecting target rest => { request with progress := .attempted target rest .fatal }
    | _ => request

/-- The attempt that the request waits for ends. -/
def Request.attempt (request : Request) (outcome : Outcome) : Request :=
  match request.progress with
  | .connecting target rest => { request with progress := .attempted target rest outcome }
  | _ => request

/-- The lookup of the request settles. A race that is over keeps its result. -/
def Request.settle (request : Request) (answer : Answer) : Request :=
  let request := { request with lookup := false, answer := some answer }
  match request.progress, request.port with
  | .racing, some port => { request with progress := .resolved (resolveAnswer net answer port) }
  | _, _ => request

structure Exit where
  policy : Policy
  pending : Nat
  requests : List Request

inductive Event where
  | request (hostname : Text) (port : Option Int) (aborted : Bool)
  | settle (index : Nat) (answer : Answer)
  | attempt (index : Nat) (outcome : Outcome)
  | abort (index : Nat)
  | resume (index : Nat)

/-- The first part of `connectRelayDestination`, with the call of `resolve`. -/
def Exit.request (exit : Exit) (hostname : Text) (port : Option Int) (aborted : Bool) : Exit :=
  let start : Request := ⟨hostname, port, aborted, false, none, [], .threw .aborted⟩
  if aborted then { exit with requests := exit.requests ++ [start] }
  else
    match resolve net exit.policy exit.pending hostname port with
    | .error error =>
      { exit with
        requests := exit.requests ++ [{ start with progress := .resolved (.error error) }] }
    | .ok (some targets) =>
      { exit with
        requests := exit.requests ++ [{ start with progress := .resolved (.ok targets) }] }
    | .ok none =>
      { exit with
        pending := exit.pending + 1
        requests := exit.requests ++ [{ start with lookup := true, progress := .racing }] }

def Exit.update (exit : Exit) (index : Nat) (f : Request → Request) : Exit :=
  { exit with requests := exit.requests.modify index f }

def Exit.step (exit : Exit) : Event → Exit
  | .request hostname port aborted => exit.request net hostname port aborted
  | .settle index answer =>
    -- only a lookup that is pending settles, and it settles once
    match exit.requests[index]?.filter (·.lookup) with
    | none => exit
    | some _ => { exit.update index (·.settle net answer) with pending := exit.pending - 1 }
  | .attempt index outcome => exit.update index (·.attempt outcome)
  | .abort index => exit.update index (·.abort)
  | .resume index => exit.update index (·.resume net)

def Exit.run (exit : Exit) (events : List Event) : Exit := events.foldl (Exit.step net) exit

def Exit.init (policy : Policy) : Exit := ⟨policy, 0, []⟩

end Meshpn.Tls.Destination
