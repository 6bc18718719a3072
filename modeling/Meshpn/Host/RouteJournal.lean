import Meshpn.Lib.Process
import Meshpn.Lib.Table

/-!
The journal of the host's IPv4 routes, `vpn-host-routes.mjs`. A route is listed in the
journal before it is added to the kernel and leaves it after it was removed; routes of the
host that fit are borrowed and never touched. The process holds the journal in memory as
well, and an error can leave the memory ahead of what was saved.

Between two commands the kernel may change: rows of this program's protocol and metric only
vanish, everything else is free. Whether a command runs out of its budget or is refused by
the kernel comes from outside. Saving a journal is one step, and so is opening it again.
-/

namespace Meshpn.Host

open Meshpn.Lib

abbrev Dev := List Char

abbrev Ip := BitVec 32

/-- A destination as `normalizeDst` writes it. -/
inductive Dst where
  /-- `default` or `0.0.0.0/0`. -/
  | all
  /-- `0.0.0.0/1`. -/
  | lower
  /-- `128.0.0.0/1`. -/
  | upper
  | private8
  | private12
  | private16
  | host (ip : Ip)
  | other (text : List Char)
  deriving DecidableEq, Repr

/-- `dst`. -/
def validDst : Dst → Bool
  | .lower | .upper | .private8 | .private12 | .private16 | .host _ => true
  | .all | .other _ => false

/-- `iface`. -/
def validIface : Dev → Bool
  | [] => false
  | first :: rest =>
    first.isAlphanum && rest.length ≤ 14 &&
      rest.all (fun c => c.isAlphanum || c == '_' || c == '.' || c == '-') &&
      first :: rest != ['l', 'o']

structure Identity where
  ifindex : Nat
  address : List Char
  linkType : List Char
  deriving DecidableEq, Repr

inductive RouteScope where
  | global
  | link
  | other
  deriving DecidableEq, Repr

/-- A row of the main table. -/
structure Row where
  dst : Dst
  dev : Dev
  gateway : Option Ip
  protocol : Nat
  metric : Option Nat
  scope : Option RouteScope
  /-- `type` is absent or `unicast`. -/
  unicast : Bool
  /-- `flags` is there and not empty. -/
  flagged : Bool
  nexthops : Bool
  /-- Some other key is there. -/
  otherKeys : Bool
  deriving DecidableEq, Repr

/-- `PROTO`. -/
def routeProto : Nat := 186

/-- `METRIC`. -/
def routeMetric : Nat := 42760

/-- A row with this program's protocol and metric. -/
def Row.ours (row : Row) : Bool := row.protocol == routeProto && row.metric == some routeMetric

structure Kernel where
  links : Table Dev Identity
  rows : List Row
  /-- `net.ipv4.conf.all.rp_filter`. -/
  rpFilter : Nat

structure Route where
  dst : Dst
  dev : Dev
  gateway : Option Ip
  deriving DecidableEq, Repr

inductive Stage where
  | active
  | restoring
  | released
  deriving DecidableEq, Repr

/-- The journal, without its schema and its scope, which is that of one boot. -/
structure State where
  tun : Dev
  links : Table Dev Identity
  routes : List Route
  rp : Option Nat
  stage : Stage

/-- `validateHostRouteState`. -/
def validHostRouteState (s : State) : Bool :=
  validIface s.tun && decide (s.routes.length ≤ 64) && decide ((s.routes.map Route.dst).Nodup) &&
    s.routes.all (fun r => validDst r.dst && validIface r.dev && s.links.has r.dev) &&
    s.links.entries.all (fun (name, l) => validIface name && decide (0 < l.ifindex) &&
      decide (l.address.length ≤ 64) && decide (l.linkType.length ≤ 32)) &&
    s.links.has s.tun && decide (s.links.entries.length ≤ 16) &&
    s.rp.all (fun rp => decide (rp ≤ 2)) &&
    (s.stage != .released || (s.routes.isEmpty && s.rp.isNone))

def owned (row : Row) (r : Route) : Bool :=
  row.dst == r.dst && row.dev == r.dev && row.gateway == r.gateway && row.ours &&
    !row.nexthops && !row.otherKeys && row.unicast && !row.flagged &&
    (row.scope.isNone || row.scope == some (if r.gateway.isSome then .global else .link))

/-- The row that `ip route add` with `routeArgs` makes. -/
def Route.row (r : Route) : Row :=
  { dst := r.dst
    dev := r.dev
    gateway := r.gateway
    protocol := routeProto
    metric := some routeMetric
    scope := some (if r.gateway.isSome then .global else .link)
    unicast := true
    flagged := false
    nexthops := false
    otherKeys := false }

/-- What comes from outside: the budget of the call is spent, the kernel refuses, and a command
that took effect is not seen to end. -/
structure Outside where
  late : Bool
  refuses : Bool
  lost : Bool

/-- `added` and `deleted` are the rows that this program added to the kernel and deleted. -/
structure World where
  durable : Option State
  memory : Option State
  kernel : Kernel
  outside : Outside
  added : List Row
  deleted : List Row

abbrev Txn := Prog World

/-- A command that reads. -/
def query {α : Type} (view : World → α) : Txn α :=
  .atomic id fun w =>
    if w.outside.late then .throw "host route budget exceeded; journal retained"
    else .pure (view w)

/-- A command that writes; `none` where the kernel refuses. -/
def mutate (act : World → Option World) : Txn Unit :=
  .atomic (fun w => if w.outside.late then w else (act w).getD w) fun w =>
    if w.outside.late then .throw "host route budget exceeded; journal retained"
    else if (act w).isNone || w.outside.lost then .throw "command failed"
    else .pure ()

def queryLinks : Txn (Table Dev Identity) := query fun w => w.kernel.links

def queryRows : Txn (List Row) := query fun w => w.kernel.rows

/-- `rp`. -/
def queryRp : Txn Nat := do
  let value ← query fun w => w.kernel.rpFilter
  Prog.require (decide (value ≤ 2)) "rp_filter"
  pure value

/-- `ip route add`, which never replaces a row. -/
def routeAdd (r : Route) : Txn Unit :=
  mutate fun w =>
    if w.outside.refuses || !w.kernel.links.has r.dev ||
        w.kernel.rows.any (fun row => row.dst == r.dst && row.metric == some routeMetric) then none
    else some { w with
      kernel := { w.kernel with rows := w.kernel.rows ++ [r.row] }
      added := w.added ++ [r.row] }

/-- The row that `ip route del` takes: without a gateway any gateway fits. -/
def deletes (r : Route) (row : Row) : Bool :=
  row.dst == r.dst && row.dev == r.dev && (r.gateway.isNone || row.gateway == r.gateway) &&
    row.ours

/-- `ip route del`. -/
def routeDel (r : Route) : Txn Unit :=
  mutate fun w =>
    match w.kernel.rows.find? (deletes r) with
    | none => none
    | some row => some { w with
        kernel := { w.kernel with rows := w.kernel.rows.erase row }
        deleted := w.deleted ++ [row] }

/-- `sysctl -w`. -/
def setRp (value : Nat) : Txn Unit :=
  mutate fun w =>
    if w.outside.refuses then none
    else some { w with kernel := { w.kernel with rpFilter := value } }

/-- The new state in memory and, where it is valid, in the journal. -/
def store (next : State) : Txn Unit :=
  if validHostRouteState next then
    .write fun w => { w with memory := some next, durable := some next }
  else do
    Prog.write fun w => { w with memory := some next }
    .throw "invalid host route state"

def readMemory : Txn (Option State) := .read World.memory

/-- The check of one link of the journal. -/
def linkFits (s : State) (now : Table Dev Identity) (entry : Dev × Identity) : Bool :=
  match now.get entry.1 with
  | none => entry.1 == s.tun
  | some l => l == entry.2

/-- The check of the rows at one destination of the journal. -/
def rowsFit (table : List Row) (r : Route) : Bool :=
  let found := table.filter fun row => row.dst == r.dst
  decide (found.length ≤ 1) && found.all (owned · r)

/-- `audit`; the table that it read. -/
def audit (s : State) (requireTun : Bool) : Txn (List Row) := do
  let now ← queryLinks
  let table ← queryRows
  Prog.require (!requireTun || now.has s.tun) "TUN disappeared; recovery required"
  Prog.require (s.links.entries.all (linkFits s now)) "interface replaced"
  Prog.require (s.routes.all (rowsFit table)) "foreign route; no changes"
  match s.rp with
  | none => pure table
  | some original => do
    let value ← queryRp
    Prog.require (value == original || value == 2) "rp_filter changed by another owner"
    pure table

/-- The state of an operation that needs one. -/
def requireState : Txn State := do
  match ← readMemory with
  | none => .throw "no host route state"
  | some s => pure s

def begin (tun : Dev) : Txn Unit := do
  let before ← readMemory
  Prog.require (before.all fun s => s.stage == .released) "Host IPv4 recovery required"
  Prog.require (validIface tun) "interface"
  let current ← queryLinks
  match current.get tun with
  | none => .throw "interface"
  | some l => store ⟨tun, Table.empty.set tun l, [], none, .active⟩

/-- A row that is there already and serves as well. -/
def compatible (row : Row) (dev : Dev) (gateway : Option Ip) : Bool :=
  row.protocol != routeProto && row.dev == dev && row.gateway == gateway && row.unicast &&
    !row.nexthops

/-- The end of `add`: the intent, the row and its read-back. -/
def addRow (s : State) (r : Route) : Txn Unit := do
  let current ← queryLinks
  match current.get r.dev with
  | none => .throw "interface"
  | some l => do
    let next := { s with links := s.links.set r.dev l, routes := s.routes ++ [r] }
    store next
    routeAdd r
    let table ← audit next false
    Prog.require (table.any (owned · r)) "route add read-back failed"

def add (destination : Dst) (dev : Dev) (gateway : Option Ip) : Txn Unit := do
  let s ← requireState
  Prog.require (s.stage == .active) "stage"
  Prog.require (validDst destination) "destination"
  Prog.require (validIface dev) "interface"
  let table ← audit s false
  let r : Route := ⟨destination, dev, gateway⟩
  match s.routes.find? (fun v => v.dst == destination) with
  | some previous => do
    Prog.require (previous == r) "route"
    Prog.require (table.any (owned · r)) "owned route disappeared"
  | none =>
    match table.filter fun row => row.dst == destination with
    | [] => addRow s r
    | existing =>
      Prog.require (existing.length == 1 && existing.all fun row => compatible row dev gateway)
        "existing incompatible route; not replacing it"

def auditUplink (s : State) (dev : Dev) (gateway : Option Ip) (target : Dst) :
    Txn (List Row) := do
  let table ← audit s true
  let defaults := table.filter fun row => row.dst == .all
  Prog.require (defaults.length == 1 && defaults.all fun row =>
      row.dev == dev && row.gateway == gateway && row.unicast && !row.nexthops)
    "uplink default absent or changed; reconnect postponed"
  if (s.routes.find? fun r => r.dst == target).isSome then pure table
  else do
    let borrowed := table.filter fun row => row.dst == target
    Prog.require (borrowed.length == 1 && borrowed.all fun row => compatible row dev gateway)
      "unowned exit bypass disappeared or changed; manual review required"
    pure table

/-- The loop of `repairUplink` over the routes of the uplink. -/
def repairRows (s : State) (dev : Dev) (gateway : Option Ip) (target : Dst) :
    List Route → List Row → Txn Unit
  | [], _ => pure ()
  | r :: rest, table => do
    Prog.require (r.gateway == gateway) "uplink route gateway mismatch"
    if table.any (owned · r) then repairRows s dev gateway target rest table
    else do
      routeAdd r
      let table ← auditUplink s dev gateway target
      Prog.require (table.any (owned · r)) "route repair read-back failed"
      repairRows s dev gateway target rest table

def repairUplink (dev : Dev) (gateway : Option Ip) (serverIp : Ip) : Txn Unit := do
  let s ← requireState
  Prog.require (s.stage == .active) "stage"
  Prog.require (validIface dev) "interface"
  Prog.require (dev != s.tun) "interface"
  let target : Dst := .host serverIp
  Prog.require ((s.routes.find? fun r => r.dst == target).all fun r =>
    r.dev == dev && r.gateway == gateway) "exit route ownership mismatch"
  let table ← auditUplink s dev gateway target
  repairRows s dev gateway target (s.routes.filter fun r => r.dev == dev) table

def relaxRpFilter : Txn Unit := do
  let s ← requireState
  Prog.require (s.stage == .active) "stage"
  let _ ← audit s false
  Prog.require s.rp.isNone "rp_filter"
  let before ← queryRp
  if before = 2 then pure ()
  else do
    store { s with rp := some before }
    setRp 2
    let after ← queryRp
    Prog.require (after == 2) "rp_filter"

/-- The row of the route is deleted where the table has it. -/
def dropRow (table : List Row) (r : Route) : Txn Unit :=
  if table.any (owned · r) then routeDel r else pure ()

/-- The last route of the journal leaves the kernel. -/
def removeRow (s : State) (r : Route) : Txn Unit := do
  let table ← audit s false
  dropRow table r
  let left ← audit s false
  Prog.require (!left.any (owned · r)) "route removal read-back failed"

/-- The loop of `restore`; the routes in reverse, which `pop` takes from the end. -/
def removeRows (s : State) : List Route → Txn Unit
  | [] => pure ()
  | r :: rest => do
    removeRow { s with routes := (r :: rest).reverse } r
    store { s with routes := rest.reverse }
    removeRows s rest

/-- The original value is written where another one was read. -/
def resetRp (value original : Nat) : Txn Unit :=
  if value ≠ original then setRp original else pure ()

/-- The end of `restore`. -/
def restoreRp (s : State) : Txn Unit := do
  let _ ← audit s false
  match s.rp with
  | none => pure ()
  | some original => do
    let value ← queryRp
    resetRp value original
    let after ← queryRp
    Prog.require (after == original) "rp_filter"

def restore : Txn Unit := do
  match ← readMemory with
  | none => pure ()
  | some s =>
    if s.stage = .released then pure ()
    else do
      let _ ← audit s false
      store { s with stage := .restoring }
      removeRows { s with stage := .restoring } s.routes.reverse
      let bare : State := { s with stage := .restoring, routes := [] }
      restoreRp bare
      store { bare with rp := none, stage := .released }

inductive Operation where
  /-- The process ends and another one opens the journal. -/
  | reopen
  | begin (tun : Dev)
  | add (destination : Dst) (dev : Dev) (gateway : Option Ip)
  | repairUplink (dev : Dev) (gateway : Option Ip) (serverIp : Ip)
  | relaxRpFilter
  | restore

def Operation.program : Operation → Txn Unit
  | .reopen => .write fun w => { w with memory := w.durable }
  | .begin tun => Host.begin tun
  | .add destination dev gateway => Host.add destination dev gateway
  | .repairUplink dev gateway serverIp => Host.repairUplink dev gateway serverIp
  | .relaxRpFilter => Host.relaxRpFilter
  | .restore => Host.restore

/-- The kernel goes on without this program: rows of its protocol and metric only vanish. -/
structure Drift (s t : World) : Prop where
  durable : t.durable = s.durable
  memory : t.memory = s.memory
  rows : ∀ row ∈ t.kernel.rows, row.ours = true → row ∈ s.kernel.rows
  rpFilter : t.kernel.rpFilter = s.kernel.rpFilter
  added : t.added = s.added
  deleted : t.deleted = s.deleted

/-- The first process finds no journal, and no row of this program's protocol and metric. -/
structure Fresh (rp : Nat) (w : World) : Prop where
  durable : w.durable = none
  memory : w.memory = none
  rows : ∀ row ∈ w.kernel.rows, row.ours = false
  rpFilter : w.kernel.rpFilter = rp
  added : w.added = []
  deleted : w.deleted = []

/-- `openHostRoutes` over one boot; a killed process is followed by one that opens the journal. -/
def hostRoutes (rp : Nat) : System World Operation Unit where
  init := Fresh rp
  env := Drift
  call := Operation.program
  restart w := { w with memory := w.durable }

end Meshpn.Host
