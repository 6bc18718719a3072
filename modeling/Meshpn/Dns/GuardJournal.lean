import Meshpn.Lib.Ambient
import Meshpn.Lib.Text

/-!
The durable client DNS guard: `dns-client-guard-journal.mjs` over the family
executor of `dns-client-guard.mjs`. Each address family carries one rule set
that `iptables-restore` installs or removes as a whole, so the firewall is a
pair of flags here; the text of the rule sets is the subject of the guard
plan, not of this module.

What is outside the journal and the two rule sets (the context, the checked
policy, an installed boot policy, the fresh random identifier and the verdict
of the release authority) is ambient and may differ at every read.
-/

namespace Meshpn.Dns.Guard

open Meshpn.Lib

inductive Family where
  | ipv4 | ipv6
  deriving DecidableEq, Repr

inductive Stage where
  | installing | active | releasing | released
  deriving DecidableEq, Repr

inductive Operation where
  | enable | bindBoot | start | recover | disable | inspect
  deriving DecidableEq, Repr

/-- The policy of one of the two clients, without the identifier. -/
inductive Policy where
  | vps2
  | radxa (usbInterface usbAddress : String)
  deriving DecidableEq, Repr

structure Input where
  policy : Policy
  id : String
  deriving DecidableEq, Repr

inductive Backend where
  | nfTables | legacy
  deriving DecidableEq, Repr

structure Usb where
  name : String
  ifindex : Nat
  mac : String
  address : String
  deriving DecidableEq, Repr

structure Context where
  bootId : String
  netns : String
  directoryIdentity : String
  ipv4 : Backend
  ipv6 : Backend
  usb : Option Usb
  deriving DecidableEq, Repr

structure Record where
  input : Input
  context : Context
  stage : Stage
  deriving DecidableEq, Repr

/-- `/^[a-zA-Z][a-zA-Z0-9_-]{0,14}$/` and not `lo`. -/
def usbInterfaceName (s : String) : Bool :=
  match s.toList with
  | first :: rest => first.isAlpha && rest.length ≤ 14 &&
      rest.all (fun c => c.isAlphanum || c == '_' || c == '-') && s != "lo"
  | [] => false

/-- The address check of `compileDnsClientGuard`: no first octet 0, 127 or
224..255. The pattern `2[3-5]\d` reads the digits, so it covers 230..259. -/
def usbAddressAllowed (s : String) : Bool :=
  match Text.ipv4 s with
  | some (first :: _) => first != 0 && first != 127 && first < 224
  | _ => false

/-- The checks of `compileDnsClientGuard`. -/
def compiles (input : Input) : Bool :=
  Text.hex 32 input.id &&
    match input.policy with
    | .vps2 => true
    | .radxa usbInterface usbAddress =>
      usbInterfaceName usbInterface && usbAddressAllowed usbAddress

def zeroId : String := "00000000000000000000000000000000"

/-- `validateDnsGuardContext`. -/
def validContext (context : Context) : Bool :=
  Text.uuid context.bootId && Text.namespaceLink "net" context.netns &&
    Text.numberPair context.directoryIdentity && context.ipv4 == context.ipv6 &&
    match context.usb with
    | none => true
    | some usb => 1 < usb.ifindex && usb.ifindex ≤ 9007199254740991 && Text.macAddress usb.mac &&
        compiles ⟨.radxa usb.name usb.address, zeroId⟩

/-- `validateDnsGuardJournal`. -/
def validJournal (record : Record) : Bool :=
  compiles record.input && validContext record.context &&
    match record.input.policy, record.context.usb with
    | .vps2, usb => usb.isNone
    | .radxa usbInterface usbAddress, some usb =>
      usb.name == usbInterface && usb.address == usbAddress
    | .radxa _ _, none => false

/-- What the transaction did, newest first: every verdict it asked for, every
rule set it added or removed and every stage it made durable. -/
inductive Event where
  | authorized (verdict : Bool)
  | added (family : Family) (durable : Option Stage)
  | removed (family : Family) (durable : Option Stage)
  | saved (operation : Operation) (before : Option Stage) (after : Stage)
  deriving DecidableEq, Repr

structure Core where
  journal : Option Record
  present : Family → Bool
  log : List Event

def Core.stage (c : Core) : Option Stage := c.journal.map Record.stage

structure Around where
  context : Context
  config : Policy
  installed : Option Input
  freshId : String
  authority : Bool

abbrev Txn := Prog (Ambient Core Around)

def Core.record (c : Core) (event : Event) : Core := { c with log := event :: c.log }

def Core.setRule (c : Core) (family : Family) (wanted : Bool) : Core :=
  { c with present := Function.update c.present family wanted }

/-- `context()`: checked on every read. -/
def currentContext : Txn Context := do
  let context ← Prog.ask (fun _ w => w.context)
  Prog.require (validContext context) "guard context"
  pure context

def checkedConfig : Txn Policy := do
  let config ← Prog.ask (fun _ w => w.config)
  Prog.require (compiles ⟨config, zeroId⟩) "guard config"
  pure config

/-- `bootInput`: an installed policy must be the configured one. -/
def installedInput : Txn (Option Input) := do
  let installed ← Prog.ask (fun _ w => w.installed)
  match installed with
  | none => pure none
  | some input => do
    Prog.require (compiles input) "installed input"
    let config ← checkedConfig
    Prog.require (input.policy == config) "installed boot policy changed"
    pure (some input)

def belongs (record : Record) (installed : Option Input) : Bool :=
  match installed with
  | none => true
  | some input => record.input == input

/-- `assertContext` of the family executor. -/
def assertContext (record : Record) : Txn Unit := do
  let context ← currentContext
  Prog.require (context == record.context) "guard context changed"
  let config ← checkedConfig
  Prog.require (config == record.input.policy) "guard policy changed"
  let installed ← installedInput
  Prog.require (belongs record installed) "journal does not belong to installed boot policy"

def readFamily (family : Family) : Txn Bool := Prog.ask (fun c _ => c.present family)

/-- `guard(record).inspect()`: the states of both families, in order. -/
def inspectFamilies (record : Record) : Txn (Bool × Bool) := do
  Prog.require (validJournal record) "guard journal"
  assertContext record
  let ipv4 ← readFamily .ipv4
  let ipv6 ← readFamily .ipv6
  pure (ipv4, ipv6)

def stateOf (states : Bool × Bool) : Family → Bool
  | .ipv4 => states.1
  | .ipv6 => states.2

/-- One atomic `iptables-restore` batch. -/
def restoreBatch (family : Family) (wanted : Bool) : Txn Unit :=
  Prog.alter (fun c _ =>
    (c.setRule family wanted).record
      (if wanted then .added family c.stage else .removed family c.stage))

/-- The setter of `change`: the family is read again right before the batch
and right after it. A family already in the wanted state is skipped. -/
def changeFamily (record : Record) (wanted : Bool) (family : Family) (before : Bool) :
    Txn Unit :=
  if before == wanted then pure ()
  else do
    assertContext record
    let now ← readFamily family
    Prog.require (now == before) "firewall changed before commit"
    restoreBatch family wanted
    let after ← readFamily family
    Prog.require (after == wanted) "guard commit readback failed"

/-- `change(action, family)`: both families are read before the setter. -/
def change (record : Record) (wanted : Bool) (family : Family) : Txn Unit := do
  let before ← inspectFamilies record
  changeFamily record wanted family (stateOf before family)
  let final ← inspectFamilies record
  Prog.require (stateOf final family == wanted) "guard family"

/-- The injected callback. It is asked about one record and answers once. -/
def askAuthority : Txn Bool := do
  let verdict ← Prog.ask (fun _ w => w.authority)
  Prog.alter (fun c _ => c.record (.authorized verdict))
  pure verdict

/-- `authorizeRelease` of the journal backend. -/
def authorizeRelease (record : Record) : Txn Bool := do
  let _ ← inspectFamilies record
  askAuthority

/-- `commit` of the journal backend. Removal asks the authority once more,
after the context check and before the executor reads the firewall. -/
def commit (record : Record) (family : Family) : Txn Unit := do
  Prog.require (validJournal record) "guard journal"
  Prog.require (record.stage == .installing || record.stage == .releasing)
    "durable intent required"
  if record.stage == .installing then change record true family
  else do
    assertContext record
    let verdict ← askAuthority
    Prog.require verdict "explicit verified restore required"
    change record false family

/-- `save(stage)`: the validated record replaces the journal by one rename. -/
def save (operation : Operation) (record : Record) (stage : Stage) : Txn Record := do
  let next := { record with stage }
  Prog.require (validJournal next) "guard journal"
  Prog.alter (fun c _ =>
    { c with journal := some next, log := .saved operation c.stage stage :: c.log })
  pure next

def readJournal : Txn Record := do
  let journal ← Prog.ask (fun c _ => c.journal)
  match journal with
  | none => .throw "ENOENT"
  | some record => do
    Prog.require (validJournal record) "guard journal"
    pure record

/-- The installed input as it is, or the configured policy under a fresh id. -/
def newInput : Option Input → Txn Input
  | some input => pure input
  | none => do
    let config ← checkedConfig
    let id ← Prog.ask (fun _ w => w.freshId)
    pure ⟨config, id⟩

/-- The last check before binding to an installed policy. -/
def checkInstalled : Option Input → Txn Unit
  | none => pure ()
  | some input => do
    let still ← installedInput
    Prog.require (still == some input) "installed boot policy changed before binding"

/-- `enable` and `bind-boot` create the first record; they never adopt one. -/
def createJournal (operation : Operation) : Txn Record := do
  let journal ← Prog.ask (fun c _ => c.journal)
  Prog.require journal.isNone "guard journal already exists"
  let installed ← installedInput
  Prog.require (installed.isSome == (operation == .bindBoot))
    (if operation == .bindBoot then "explicit installed boot policy required"
      else "installed policy requires explicit bind-boot")
  let input ← newInput installed
  let context ← currentContext
  let record : Record := ⟨input, context, if installed.isSome then .active else .installing⟩
  Prog.require (validJournal record) "guard journal"
  let states ← inspectFamilies record
  Prog.require (states == (installed.isSome, installed.isSome))
    (if installed.isSome then "both installed boot guard families must be verified"
      else "guard exists without durable intent")
  let again ← currentContext
  Prog.require (again == record.context) "guard context changed before intent"
  checkInstalled installed
  save operation record record.stage

/-- `observe`: context, policy and both family states, context read twice. -/
def observe (record : Record) : Txn (Bool × Bool) := do
  let context ← currentContext
  Prog.require (context == record.context) "stale guard context"
  let config ← checkedConfig
  Prog.require (config == record.input.policy) "guard policy changed"
  let installed ← installedInput
  Prog.require (belongs record installed) "journal does not belong to installed boot policy"
  let states ← inspectFamilies record
  let again ← currentContext
  Prog.require (again == record.context) "guard context changed during read"
  pure states

structure Result where
  id : String
  stage : Stage
  states : Bool × Bool
  readOnly : Bool
  deriving DecidableEq, Repr

def result (record : Record) (states : Bool × Bool) : Result :=
  ⟨record.input.id, record.stage, states, false⟩

/-- In the releasing direction every step needs a fresh restore proof. -/
def proveRestored (record : Record) (message : String) : Txn Unit :=
  if record.stage == .releasing then do
    let verdict ← authorizeRelease record
    Prog.require verdict message
  else pure ()

/-- One pass of the loop over the two families. -/
def settleFamily (record : Record) (wanted : Bool) (family : Family) : Txn Unit := do
  let states ← observe record
  if stateOf states family == wanted then pure ()
  else do
    proveRestored record "restore proof no longer valid"
    commit record family
    let states ← observe record
    Prog.require (stateOf states family == wanted) "guard family readback mismatch"

/-- From an `installing` or `releasing` record to the end of that direction. -/
def converge (operation : Operation) (record : Record) : Txn Result := do
  let wanted := record.stage == .installing
  settleFamily record wanted .ipv4
  settleFamily record wanted .ipv6
  let states ← observe record
  Prog.require (states == (wanted, wanted)) "guard families"
  proveRestored record "restore proof no longer valid at release completion"
  let final ← save operation record (if wanted then .active else .released)
  pure (result final states)

/-- What follows the direction check of `dnsGuardTransaction`. -/
def proceed (operation : Operation) (record : Record) (states : Bool × Bool) : Txn Result :=
  match record.stage with
  | .released => do
    Prog.require (states == (false, false)) "released guard reappeared"
    pure (result record states)
  | .active =>
    if states == (true, true) then pure (result record states)
    else do
      let reopened ← save operation record .installing
      converge operation reopened
  | .installing | .releasing => converge operation record

/-- `disable` alone may switch an installing or active record to release. -/
def redirect (operation : Operation) (record : Record) : Txn Record :=
  if operation == .disable && (record.stage == .installing || record.stage == .active) then do
    let verdict ← authorizeRelease record
    Prog.require verdict "verified restored baseline required"
    save operation record .releasing
  else pure record

def openJournal (operation : Operation) : Txn Record :=
  if operation == .enable || operation == .bindBoot then createJournal operation
  else readJournal

def dnsGuardTransaction (operation : Operation) : Txn Result := do
  let record ← openJournal operation
  let states ← observe record
  if operation == .inspect then pure { result record states with readOnly := true }
  else do
    Prog.require (operation != .start || record.stage == .installing || record.stage == .active)
      "release intent requires explicit review, not service start"
    let directed ← redirect operation record
    proceed operation directed states

/-- All sequences of transactions on one journal directory, starting without a
journal over any firewall. The process keeps nothing across its death. -/
def guardSystem : System (Ambient Core Around) Operation Result :=
  coreSystem (fun _ => True) (fun c => c.journal = none ∧ c.log = []) dnsGuardTransaction id

end Meshpn.Dns.Guard
