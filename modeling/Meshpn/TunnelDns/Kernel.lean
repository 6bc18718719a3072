import Meshpn.Lib.Ambient
import Meshpn.TunnelDns.Plan

/-!
The world of the tunnel DNS journal: the durable record, the items the journal
may have put into the kernel, and the connection table. Links, addresses,
traffic, the clock and the fate of each command belong to the surroundings.

Two fields of the core are history only. `removals` keeps what the kernel
looked like whenever an item was taken out, and `reset` the last completed
connection reset since an item was added.

The reset of DNS connections (`dns-tunnel-conntrack.mjs`). Before a capture
opens, the connections that bypass it are deleted; before it is given up, the
captured ones. Entries of the selected scope only, each found in a dump, deleted
by its full tuple and looked for again in a second dump.
-/

namespace Meshpn.TunnelDns

open Meshpn.Lib

structure Link where
  ifindex : Nat
  address : String
  type : String
  deriving DecidableEq, Repr

structure Scope where
  boot : String
  net : String
  user : String
  deriving DecidableEq, Repr

inductive Firewall where
  | nfTables | legacy
  deriving DecidableEq, Repr

inductive JournalStage where
  | installing | active | restoring | parked | released
  deriving DecidableEq, Repr

structure Record where
  id : String
  scope : Scope
  config : Config
  links : List (String × Link)
  firewall : Firewall
  count : Nat
  hold : Nat
  stage : JournalStage
  deriving DecidableEq, Repr

def operations (v : Record) : List Op := compileTunnelDnsPlan v.config v.id

def holds (v : Record) : List Item := compileTunnelDnsHold v.config.ingress v.id

/-- `[c.tun, c.fromTun, c.lanInterface].filter(Boolean)`. -/
def linkNames (config : Config) : List String :=
  config.tun :: config.ingress.selectedInterface.toList

def Link.valid (link : Link) : Bool :=
  0 < link.ifindex && link.ifindex ≤ 9007199254740991 && link.address.length ≤ 64 &&
    link.type.length ≤ 32

/-- `boot` is 36 characters of `[a-f0-9-]`, the others name a namespace. -/
def Scope.valid (scope : Scope) : Bool :=
  scope.boot.toList.length == 36 && scope.boot.toList.all (fun c => Text.isHex c || c == '-') &&
    Text.namespaceLink "net" scope.net && Text.namespaceLink "user" scope.user

/-- The counters each stage allows. -/
def countersAllowed (v : Record) : Bool :=
  match v.stage with
  | .installing | .restoring => true
  | .active => v.count == (operations v).length && v.hold == 0
  | .parked => v.count == 0 && v.hold == (holds v).length
  | .released => v.count == 0 && v.hold == 0

def validateTunnelDnsJournal (v : Record) : Bool :=
  Text.hex 24 v.id && v.scope.valid && v.config.valid &&
    (v.links.map Prod.fst).isPerm (linkNames v.config) &&
    v.links.all (fun entry => entry.2.valid) &&
    v.count ≤ (operations v).length && v.hold ≤ (holds v).length && countersAllowed v

/-- A tuple of the connection table whose original destination port is 53. -/
structure Entry where
  protocol : Protocol
  src : String
  dst : String
  sport : Nat
  replySrc : String
  replyDst : String
  replySport : Nat
  replyDport : Nat
  deriving DecidableEq, Repr

/-- A line of the dump; `directional` says that it has a zone for one
direction only. -/
structure Line where
  entry : Entry
  dport : Nat
  zone : Option Nat
  directional : Bool
  deriving DecidableEq, Repr

/-- The routes found for the sources of the entries. -/
abbrev RouteMap := List (String × Option String)

/-- What a completed reset saw: the entries of its dump, the local addresses
and return routes it asked for, and the entries of the dump it ended with. -/
structure Reset where
  entries : List Entry
  locals : List String
  routes : RouteMap
  remaining : List Entry
  deriving DecidableEq, Repr

structure Removal where
  item : Item
  items : List Item
  journal : Option Record
  reset : Option Reset
  deriving DecidableEq, Repr

structure Core where
  journal : Option Record
  items : List Item
  conntrack : List Line
  reset : Option Reset
  removals : List Removal
  deriving DecidableEq, Repr

/-- A command that ends with a status other than zero may still have done its
work, for instance when it was stopped by the timeout. -/
structure Failure where
  status : Nat
  effective : Bool
  deriving DecidableEq, Repr

structure Route where
  type : Option String
  dev : Option String
  deriving DecidableEq, Repr

/-- `traffic` is what connections and their timeouts made of the table. -/
structure Around where
  scope : Scope
  firewall : Option Firewall
  links : String → Option Link
  traffic : List Line → List Line
  locals : List String
  routeGet : String → List Route
  freshId : String
  late : Bool
  conntrackLate : Bool
  failure : Option Failure

abbrev World := Ambient Core Around

/-- What the kernel answers to the installation of an item. -/
def addable (links : String → Option Link) (items : List Item) : Item → Bool
  | .chain table name => !items.contains (.chain table name)
  | .rule r =>
    (match r.chain with
      | .own name => items.contains (.chain r.table name)
      | _ => true) &&
    match r.target with
    | .jump name => items.contains (.chain r.table name)
    | _ => true
  | .unreachable => !items.contains .unreachable
  | .route server tun => (links tun).isSome && !items.contains (.route server tun)
  | .policy priority server => !items.contains (.policy priority server)

/-- A chain in use cannot be deleted, nor a route whose device is gone. -/
def removable (links : String → Option Link) (items : List Item) (item : Item) : Bool :=
  items.contains item &&
    match item with
    | .chain table name => items.all (fun other => !other.uses table name)
    | .route _ tun => (links tun).isSome
    | _ => true

def Item.file : Item → String
  | .chain _ _ => "iptables"
  | .rule r => match r.tool with
    | .iptables => "iptables"
    | .ip6tables => "ip6tables"
  | _ => "ip"

def insertItem (first : Bool) (item : Item) (items : List Item) : List Item :=
  if first then item :: items else items ++ [item]

/-- `run(op.file, op.args)` in the kernel. -/
def addItem (first : Bool) (item : Item) (c : Core) (w : Around) : Except Nat Core :=
  if addable w.links c.items item then
    .ok { c with items := insertItem first item c.items, reset := none }
  else .error 2

/-- `run(op.file, op.remove)` in the kernel. -/
def removeItem (item : Item) (c : Core) (w : Around) : Except Nat Core :=
  if removable w.links c.items item then
    .ok { c with items := c.items.erase item,
                 removals := c.removals ++ [⟨item, c.items, c.journal, c.reset⟩] }
  else .error 2

/-- The effect of a command and the status it failed with, if it did. -/
def execute (act : Core → Around → Except Nat Core) (c : Core) (w : Around) :
    Core × Option Nat :=
  match w.failure, act c w with
  | none, .ok d => (d, none)
  | none, .error status => (c, some status)
  | some failure, .ok d => (if failure.effective then d else c, some failure.status)
  | some failure, .error _ => (c, some failure.status)

def commandFailed (file : String) : String := "DNS command " ++ file ++ " failed"

section Commands

-- Only a recovery has a time budget.
variable (timed : Bool)

def checkDeadline : Prog World Unit := do
  let late ← Prog.ask (fun _ w => w.late)
  Prog.require (!(timed && late))
    "DNS recovery time budget exceeded; journal retained; run clean-vpn-dns-recover.mjs"

/-- The status of a command that failed, if it did. -/
def attempt (act : Core → Around → Except Nat Core) : Prog World (Option Nat) := do
  checkDeadline timed
  let status ← Prog.perform (execute act)
  if status.isNone then
    checkDeadline timed
    pure status
  else pure status

def run (file : String) (act : Core → Around → Except Nat Core) : Prog World Unit := do
  let status ← attempt timed act
  Prog.require status.isNone (commandFailed file)

/-- A command that only reports. -/
def query {α : Type} (file : String) (view : Core → Around → α) : Prog World α := do
  checkDeadline timed
  let (answered, value) ← Prog.ask (fun c w => (w.failure.isNone, view c w))
  Prog.require answered (commandFailed file)
  checkDeadline timed
  pure value

structure Snapshot where
  firewall : Firewall
  items : List Item
  links : String → Option Link

/-- `readNetwork`. Nobody else changes the items, so its commands see one
kernel. -/
def readNetwork : Prog World Snapshot := do
  let (firewall, items, links) ←
    query timed "iptables" (fun c w => (w.firewall, c.items, w.links))
  match firewall with
  | none => .throw "unknown or mixed firewall backends"
  | some backend => pure ⟨backend, items, links⟩

end Commands

def audit (snapshot : Snapshot) (allowed : List Item) : Prog World Unit := do
  Prog.require (snapshot.items.all (allowed.contains ·))
    "foreign tunnel DNS network state; review required"
  Prog.require (decide snapshot.items.Nodup) "duplicate tunnel DNS network state"

inductive Phase where
  | preflight | enable | disable
  deriving DecidableEq, Repr

def entryLimit : Nat := 128

def validPort (n : Nat) : Bool := 0 < n && n ≤ 65535

def parseLine (line : Line) : Except String Entry :=
  let e := line.entry
  if line.directional then .error "directional conntrack zones unsupported"
  else if line.zone.getD 0 != 0 then .error "nonzero DNS conntrack zone"
  else if !([e.src, e.replySrc, e.dst, e.replyDst].all Text.isIPv4) then
    .error "bad conntrack IPv4"
  else if !([e.sport, e.replySport, line.dport, e.replyDport].all validPort) then
    .error "bad conntrack port"
  else if line.dport != 53 then .error "not ordinary DNS"
  else .ok e

def parseTunnelDnsConntrack (lines : List Line) : Except String (List Entry) :=
  if entryLimit < lines.length then .error "too many DNS conntrack entries; review required"
  else lines.mapM parseLine

/-- The tables of other zones and ports are not dumped. -/
def dump (protocol : Protocol) (table : List Line) : List Line :=
  table.filter (·.entry.protocol = protocol)

/-- `conntrack -D` of one tuple; its status says when there is none. -/
def deleteEntry (e : Entry) (c : Core) (_ : Around) : Except Nat Core :=
  if c.conntrack.any (·.entry = e) then
    .ok { c with conntrack := c.conntrack.filter (·.entry ≠ e) }
  else .error 1

def inSubnet (ip cidr : String) : Bool :=
  match cidrParts cidr with
  | some (base, bits) => Text.sameNetwork bits (Text.ipv4Value ip) (Text.ipv4Value base)
  | none => false

/-- Whether an entry is reset: it may hang on the return route of its source. -/
inductive Choice where
  | skip | take
  | ifRouted : String → Choice
  deriving DecidableEq, Repr

def captured (e : Entry) : Bool := e.replySrc == address && e.replySport == 1053

def choose (config : Config) (phase : Phase) (locals : List String) (e : Entry) : Choice :=
  if e.src == address || "127.".toList.isPrefixOf e.dst.toList then .skip
  else if (if phase = .enable then captured e else !captured e) then .skip
  else if config.ingress.tun.isNone && locals.contains e.src then .take
  else
    match config.ingress.selectedInterface with
    | none => .skip
    | some interface =>
      if locals.contains e.src || !(config.ingress.lanSubnet.map (inSubnet e.src)).getD true then
        .skip
      else .ifRouted interface

/-- The choice, once the routes are known. -/
def selects (config : Config) (phase : Phase) (locals : List String) (routes : RouteMap)
    (e : Entry) : Bool :=
  match choose config phase locals e with
  | .skip => false
  | .take => true
  | .ifRouted interface => routes.lookup e.src == some (some interface)

/-- No captured entry of the scope is left. -/
def Reset.Complete (config : Config) (reset : Reset) : Prop :=
  ∀ e ∈ reset.entries, selects config .disable reset.locals reset.routes e = true →
    e ∉ reset.remaining

section Reset

variable (timed : Bool) (config : Config) (phase : Phase)

def conntrackClock : Prog World Unit := do
  let late ← Prog.ask (fun _ w => w.conntrackLate)
  Prog.require (!late) "DNS conntrack cleanup deadline"

def readEntries (protocol : Protocol) : Prog World (List Entry) := do
  conntrackClock
  let lines ← query timed "conntrack" (fun c w => dump protocol (w.traffic c.conntrack))
  match parseTunnelDnsConntrack lines with
  | .error message => .throw message
  | .ok entries => pure entries

/-- `['udp', 'tcp'].flatMap(read)`. -/
def readAll : Prog World (List Entry) := do
  let udp ← readEntries timed .udp
  let tcp ← readEntries timed .tcp
  pure (udp ++ tcp)

/-- The device of the one route to an address; other types have none. -/
def returnDevice (src : String) : Prog World (Option String) := do
  conntrackClock
  let found ← query timed "ip" (fun _ w => w.routeGet src)
  match found with
  | [route] => pure (if (route.type.getD "unicast") == "unicast" then route.dev else none)
  | _ => .throw "ambiguous DNS source return route"

/-- Each source is asked for once. -/
def learnRoute (src : String) (routes : RouteMap) : Prog World RouteMap :=
  match routes.lookup src with
  | some _ => pure routes
  | none => do
    let device ← returnDevice timed src
    pure ((src, device) :: routes)

/-- The routes that the choice among the entries needs, in their order. -/
def learnRoutes (locals : List String) : List Entry → RouteMap → Prog World RouteMap
  | [], routes => pure routes
  | e :: rest, routes =>
    match choose config phase locals e with
    | .ifRouted _ => do
      let more ← learnRoute timed e.src routes
      learnRoutes locals rest more
    | _ => learnRoutes locals rest routes

/-- An entry that expired by itself is no failure. -/
def deleteAll : List Entry → Prog World Unit
  | [] => pure ()
  | e :: rest => do
    conntrackClock
    let status ← attempt timed (deleteEntry e)
    Prog.require (status.isNone || status == some 1) (commandFailed "conntrack")
    deleteAll rest

/-- The end of a reset is noted in the history when a capture is given up. -/
def noteReset (reset : Reset) : Prog World Unit :=
  Prog.alter (fun c _ => if phase = .disable then { c with reset := some reset } else c)

def resetTunnelDnsConntrack : Prog World Unit := do
  let entries ← readAll timed
  if phase = .preflight then pure ()
  else if entries = [] then noteReset phase ⟨[], [], [], []⟩
  else do
    conntrackClock
    let locals ← query timed "ip" (fun _ w => w.locals)
    let routes ← learnRoutes timed config phase locals entries []
    let selected := entries.filter (selects config phase locals routes)
    deleteAll timed selected
    let remaining ← readAll timed
    Prog.require (selected.all (!remaining.contains ·)) "DNS conntrack tuple remains after cleanup"
    noteReset phase ⟨entries, locals, routes, remaining⟩

end Reset

end Meshpn.TunnelDns
