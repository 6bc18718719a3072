import Meshpn.Lib.Ambient
import Meshpn.Lib.Text

/-!
The write-ahead transaction on the three per-link properties of a resolver:
`dns-resolved-journal.mjs` over the context-checked backend of
`dns-resolved-backend.mjs`. The properties are changed one at a time, each
between a durable intent and a durable acknowledgement; `disable` turns the
direction round at any point of the way.

The settings, the guard and the journal are changed by the transaction alone.
The bus context, the scope and port arguments, the probe and the fresh
identifier are ambient.
-/

namespace Meshpn.Dns.Resolved

open Meshpn.Lib

inductive Property where
  | dnsEx | domains | defaultRoute
  deriving DecidableEq, Repr

/-- `RESOLVED_PROPERTIES`, in the order they are written. -/
def resolvedProperties : List Property := [.dnsEx, .domains, .defaultRoute]

structure Server where
  family : Nat
  address : List Nat
  port : Nat
  name : String
  deriving DecidableEq, Repr

structure Domain where
  name : String
  routeOnly : Bool
  deriving DecidableEq, Repr

structure Settings where
  dnsEx : List Server
  domains : List Domain
  defaultRoute : Bool
  deriving DecidableEq, Repr

/-- `state[property] = source[property]`. -/
def Settings.assign (state source : Settings) : Property → Settings
  | .dnsEx => { state with dnsEx := source.dnsEx }
  | .domains => { state with domains := source.domains }
  | .defaultRoute => { state with defaultRoute := source.defaultRoute }

def validServer (server : Server) : Bool :=
  (server.family == 2 || server.family == 10) &&
    server.address.length == (if server.family == 2 then 4 else 16) &&
    server.address.all (· ≤ 255) && server.port ≤ 65535 && server.name.toList.length ≤ 253 &&
    server.name.toList.all (fun c => c.isAlphanum || c == '.' || c == '-')

def validDomain (domain : Domain) : Bool :=
  1 ≤ domain.name.toList.length && domain.name.toList.length ≤ 253 &&
    domain.name.toList.all (fun c => c.isAlphanum || c == '_' || c == '.' || c == '-')

/-- `validateResolvedSettings`. -/
def validSettings (settings : Settings) : Bool :=
  (settings.dnsEx.length ≤ 8 && settings.dnsEx.all validServer) &&
    (settings.domains.length ≤ 32 && settings.domains.all validDomain)

structure Scope where
  net : String
  mnt : String
  pid : String
  deriving DecidableEq, Repr

structure Link where
  ifindex : Nat
  ifname : String
  address : String
  deriving DecidableEq, Repr

structure Context where
  scope : Scope
  busId : String
  owner : String
  link : Link
  deriving DecidableEq, Repr

/-- `/^[a-zA-Z0-9_.-]{1,15}$/`. -/
def validInterfaceName (s : String) : Bool :=
  1 ≤ s.toList.length && s.toList.length ≤ 15 &&
    s.toList.all (fun c => c.isAlphanum || c == '_' || c == '.' || c == '-')

/-- `validateResolvedContext`. -/
def validContext (context : Context) : Bool :=
  Text.namespaceLink "net" context.scope.net && Text.namespaceLink "mnt" context.scope.mnt &&
    Text.namespaceLink "pid" context.scope.pid && Text.hex 32 context.busId &&
    Text.busOwner context.owner && 1 < context.link.ifindex &&
    context.link.ifindex ≤ 9007199254740991 && validInterfaceName context.link.ifname &&
    Text.macAddress context.link.address

def validPort (port : Nat) : Bool := 1024 ≤ port && port ≤ 65535

/-- `managedResolvedSettings`, past its port check. -/
def managedResolvedSettings (port : Nat) : Settings :=
  ⟨[⟨2, [127, 0, 0, 1], port, ""⟩], [⟨".", true⟩], true⟩

inductive Direction where
  | apply | restore
  deriving DecidableEq, Repr

inductive Stage where
  | running | complete | released
  deriving DecidableEq, Repr

structure Record where
  id : String
  context : Context
  original : Settings
  managed : Settings
  start : Settings
  direction : Direction
  cursor : Nat
  pending : Bool
  stage : Stage
  deriving DecidableEq, Repr

/-- `prefix(start, target, cursor)`: the first properties already copied. -/
def prefixed (start target : Settings) (cursor : Nat) : Settings :=
  (resolvedProperties.take cursor).foldl (fun state p => state.assign target p) start

def Record.target (record : Record) : Settings :=
  if record.direction == .apply then record.managed else record.original

def resolvedExpected (record : Record) (afterPending : Bool) : Settings :=
  prefixed record.start record.target
    (record.cursor + if afterPending && record.pending then 1 else 0)

/-- The port that `managed.DNSEx[0]?.[2]` reads. -/
def Record.port (record : Record) : Option Nat := record.managed.dnsEx.head?.map Server.port

def managedShape (record : Record) : Bool :=
  match record.port with
  | none => false
  | some port => validPort port && record.managed == managedResolvedSettings port

/-- The four starts of a restoration that the apply phase can leave. -/
def reachableStart (record : Record) : Bool :=
  [0, 1, 2, 3].any (fun n => record.start == prefixed record.original record.managed n)

/-- `validateResolvedJournal`. -/
def validJournal (record : Record) : Bool :=
  (Text.hex 32 record.id && validContext record.context) &&
    (validSettings record.original && validSettings record.managed &&
      validSettings record.start) &&
    (record.original.dnsEx.length > 0 && managedShape record && record.cursor ≤ 3) &&
    (if record.stage == .running then record.cursor < 3
      else record.cursor == 3 && !record.pending) &&
    (record.stage != .released || record.direction == .restore) &&
    (if record.direction == .apply then record.start == record.original
      else reachableStart record)

/-- What the transaction made durable and when it let the guard go. -/
inductive Event where
  | saved (record : Record)
  | guardRemoved (durable : Option Record) (settings : Settings)

structure Core where
  journal : Option Record
  settings : Settings
  guarded : Bool
  log : List Event

structure Around where
  context : Context
  ifindex : Nat
  scope : Scope
  port : Nat
  probe : Bool
  freshId : String

abbrev Txn := Prog (Ambient Core Around)

def readContext : Txn Context := Prog.ask (fun _ w => w.context)

/-- `bus.property`: one property a read. -/
def readProperty (property : Property) (settings : Settings) : Txn Settings :=
  Prog.ask (fun c _ => settings.assign c.settings property)

def emptySettings : Settings := ⟨[], [], false⟩

/-- `view` of the journal backend: the context before and after the reads. -/
def view : Txn (Context × Settings) := do
  let before ← readContext
  let ifindex ← Prog.ask (fun _ w => w.ifindex)
  Prog.require (before.link.ifindex == ifindex) "resolved link"
  let one ← readProperty .dnsEx emptySettings
  let two ← readProperty .domains one
  let settings ← readProperty .defaultRoute two
  let after ← readContext
  Prog.require (after == before) "resolved context changed during read"
  Prog.require (validSettings settings) "resolved settings"
  pure (before, settings)

def check (context : Context) (settings : Settings) : Txn Unit := do
  let current ← view
  Prog.require (current.1 == context) "resolved context changed"
  Prog.require (current.2 == settings) "resolved ownership conflict"

/-- `set(context, property, value, before)` with the value `after[property]`. -/
def set (context : Context) (property : Property) (after before : Settings) : Txn Unit := do
  Prog.require (validSettings (before.assign after property)) "resolved settings"
  check context before
  Prog.alter (fun c _ => { c with settings := c.settings.assign after property })

def ensureGuard : Txn Unit := Prog.alter (fun c _ => { c with guarded := true })

def removeGuard (context : Context) (original : Settings) : Txn Unit := do
  check context original
  Prog.alter (fun c _ => { c with guarded := false, log := .guardRemoved c.journal c.settings :: c.log })

/-- `save(label)`: validated, then one rename. -/
def save (record : Record) : Txn Unit := do
  Prog.require (validJournal record) "resolved journal"
  Prog.alter (fun c _ => { c with journal := some record, log := .saved record :: c.log })

def readJournal : Txn Record := do
  let journal ← Prog.ask (fun c _ => c.journal)
  match journal with
  | none => .throw "ENOENT"
  | some record => do
    Prog.require (validJournal record) "resolved journal"
    pure record

inductive Operation where
  | enable | recover | disable
  deriving DecidableEq, Repr

/-- The branch of `enable`: the first record, from the settings it finds. -/
def prepare : Txn Record := do
  let journal ← Prog.ask (fun c _ => c.journal)
  Prog.require journal.isNone "journal already exists"
  let found ← view
  Prog.require (validContext found.1) "resolved context"
  Prog.require (validSettings found.2) "resolved settings"
  let scope ← Prog.ask (fun _ w => w.scope)
  Prog.require (found.1.scope == scope) "resolved scope"
  let id ← Prog.ask (fun _ w => w.freshId)
  let port ← Prog.ask (fun _ w => w.port)
  Prog.require (validPort port) "resolved port"
  let record : Record :=
    ⟨id, found.1, found.2, managedResolvedSettings port, found.2, .apply, 0, false, .running⟩
  save record
  pure record

def openJournal (operation : Operation) : Txn Record :=
  if operation == .enable then prepare else readJournal

/-- `observe`: the settings are ours before or after the pending step. -/
def observe (record : Record) : Txn Settings := do
  let found ← view
  Prog.require (found.1 == record.context) "resolved context changed"
  Prog.require (validSettings found.2) "resolved settings"
  Prog.require (found.2 == resolvedExpected record false ||
    (record.pending && found.2 == resolvedExpected record true)) "resolved ownership conflict"
  pure found.2

/-- Turning round is durable before the first property is put back. -/
def turnRound (operation : Operation) (record : Record) (current : Settings) : Txn Record :=
  if operation == .disable && record.direction == .apply then do
    let next := { record with
      direction := .restore, start := current, cursor := 0, pending := false, stage := .running }
    save next
    pure next
  else pure record

/-- The adapter must be there before the resolver is pointed at it. -/
def requireAdapter (record : Record) : Txn Unit :=
  if record.direction == .apply then do
    let port ← Prog.ask (fun _ w => w.port)
    Prog.require (some port == record.port) "adapter endpoint changed"
    let probe ← Prog.ask (fun _ w => w.probe)
    Prog.require probe "probe"
    let _ ← observe record
  else pure ()

def intend (record : Record) : Txn Record :=
  if record.pending then pure record
  else do
    let next := { record with pending := true }
    save next
    pure next

/-- The setter runs unless the step has already taken effect. -/
def takeEffect (record : Record) (property : Property) (current : Settings) : Txn Unit :=
  if current == resolvedExpected record true then pure ()
  else set record.context property (resolvedExpected record true) (resolvedExpected record false)

def acknowledge (record : Record) : Record :=
  { record with
    cursor := record.cursor + 1
    pending := false
    stage := if record.cursor == 2 then .complete else .running }

/-- One pass of the loop: intent, effect, read-back, acknowledgement. -/
def stepProperty (record : Record) (property : Property) : Txn Record := do
  let _ ← observe record
  let intended ← intend record
  let current ← observe intended
  takeEffect intended property current
  let result ← observe intended
  Prog.require (result == resolvedExpected intended true) "setter read-back mismatch"
  let next := acknowledge intended
  save next
  pure next

/-- `while (record.cursor < 3)`; the cursor grows by one a pass. -/
def stepAll : Nat → Record → Txn Record
  | 0, record => pure record
  | passes + 1, record =>
    match resolvedProperties[record.cursor]? with
    | none => pure record
    | some property => do
      let next ← stepProperty record property
      stepAll passes next

inductive Status where
  | active | released
  deriving DecidableEq, Repr

structure Result where
  status : Status
  id : String
  deriving DecidableEq, Repr

/-- After the loop: report, or release the guard over the original settings. -/
def finish (record : Record) : Txn Result := do
  let _ ← observe record
  if record.direction == .apply then pure ⟨.active, record.id⟩
  else do
    let _ ← observe record
    removeGuard record.context record.original
    save { record with stage := .released }
    pure ⟨.released, record.id⟩

/-- `resolvedTransaction` from the scope check on. -/
def resume (operation : Operation) (record : Record) : Txn Result := do
  let scope ← Prog.ask (fun _ w => w.scope)
  Prog.require (record.context.scope == scope) "stale namespace scope"
  let current ← observe record
  let directed ← turnRound operation record current
  requireAdapter directed
  let settled ← stepAll 3 directed
  finish settled

def resolvedTransaction (operation : Operation) : Txn Result := do
  ensureGuard
  let record ← openJournal operation
  resume operation record

/-- All sequences of transactions on one link, from settings that nobody else
changes. `allowed` says what the surroundings may be. -/
def resolvedSystem (allowed : Around → Prop) (original : Settings) :
    System (Ambient Core Around) Operation Result :=
  coreSystem allowed (fun c => c.journal = none ∧ c.settings = original ∧ c.log = [])
    resolvedTransaction id

end Meshpn.Dns.Resolved
