import Meshpn.Lib.Ambient
import Meshpn.Lib.Text
import Meshpn.Dns.ResolvedJournal

/-!
The owned dummy link and its journal: `dns-owned-link-journal.mjs` over
`dns-owned-link-backend.mjs`. Creation, stamping with an alias and deletion
are each preceded by a durable intent, so a restart finds the link in one of
the two states its stage allows.

The world also holds the journal of the controller that owns this one; its
type is a parameter here, for nothing in this module looks at it.
-/

namespace Meshpn.Dns.Coupled

open Meshpn.Lib

inductive AddrGen where
  | eui64 | none | stableSecret | random
  deriving DecidableEq, Repr

structure LinkSpec where
  name : String
  kind : String
  mac : String
  ifalias : String
  mtu : Nat
  up : Bool
  master : Option String
  addresses : List String
  deriving DecidableEq, Repr

/-- What `link.view` reports: everything but the address generation mode. -/
structure LinkView where
  ifindex : Nat
  spec : LinkSpec
  dns : Resolved.Settings
  deriving DecidableEq, Repr

structure LinkState extends LinkView where
  addrgen : AddrGen
  deriving DecidableEq, Repr

structure Context where
  scope : Resolved.Scope
  bootId : String
  busId : String
  owner : String
  deriving DecidableEq, Repr

/-- `validateOwnedLinkContext`. -/
def validContext (context : Context) : Bool :=
  Text.namespaceLink "net" context.scope.net && Text.namespaceLink "mnt" context.scope.mnt &&
    Text.namespaceLink "pid" context.scope.pid && Text.uuid context.bootId &&
    Text.hex 32 context.busId && Text.busOwner context.owner

/-- The name `cvdns` followed by the first eight digits of the identifier. -/
def ownedName (id : String) : String := String.ofList ("cvdns".toList ++ id.toList.take 8)

/-- `/^cvdns[a-f0-9]{8}$/`. -/
def ownedNamePattern (name : String) : Bool :=
  "cvdns".toList.isPrefixOf name.toList && (name.toList.drop 5).length == 8 &&
    (name.toList.drop 5).all Text.isHex

/-- `match(/../g)`. -/
def pairs : List Char → List (List Char)
  | a :: b :: rest => [a, b] :: pairs rest
  | _ => []

/-- A locally administered address from ten further digits. -/
def ownedMac (id : String) : String :=
  String.ofList (List.intercalate [':'] (['0', '2'] :: pairs ((id.toList.drop 8).take 10)))

/-- `/^02(?::[a-f0-9]{2}){5}$/`. -/
def ownedMacPattern (mac : String) : Bool :=
  "02:".toList.isPrefixOf mac.toList && Text.macAddress mac

def ownedAlias (id : String) : String := "clean-vpn-dns:" ++ id

def ownedLinkSpec (id name : String) (stamped : Bool) : LinkSpec :=
  ⟨name, "dummy", ownedMac id, if stamped then ownedAlias id else "", 1500, false, none, []⟩

inductive LinkStage where
  | prepared | createIntent | unstamped | stampIntent | created | deleteIntent | deleted | released
  deriving DecidableEq, Repr

structure LinkRecord where
  id : String
  context : Context
  name : String
  ifindex : Option Nat
  stage : LinkStage
  deriving DecidableEq, Repr

def validIfindex (ifindex : Nat) : Bool := 1 < ifindex && ifindex ≤ 9007199254740991

/-- The index is known from the creation on; a link that never was has none. -/
def indexAllowed : LinkStage → Option Nat → Bool
  | .prepared, ifindex | .createIntent, ifindex => ifindex.isNone
  | stage, none => stage == .deleted || stage == .released
  | _, some ifindex => validIfindex ifindex

/-- `validateOwnedLinkJournal`. -/
def validLinkJournal (record : LinkRecord) : Bool :=
  Text.hex 32 record.id && validContext record.context && ownedNamePattern record.name &&
    record.name == ownedName record.id && indexAllowed record.stage record.ifindex

/-- `assertOwnedEmptyLink`: the first complaint about a present link, if any. -/
def ownedLinkFault (id name : String) (ifindex : Option Nat) (current : LinkView)
    (stamped : Bool) : Option String :=
  if !validIfindex current.ifindex then some "link ifindex"
  else if ifindex.isSome && ifindex != some current.ifindex then some "link incarnation changed"
  else if current.spec != ownedLinkSpec id name stamped then some "link ownership conflict"
  else if current.dns.dnsEx != [] then some "configured DNS link must be released separately"
  else if current.dns.domains != [] then
    some "configured DNS domains must be released separately"
  else none

/-- Deletions of the link and releases of the guard, with the outer journal
and the link as they were. -/
inductive Event (ρ : Type) where
  | linkDeleted (durable : Option ρ) (link : Option LinkState)
  | guardReleased (durable : Option ρ) (link : Option LinkState)

structure Core (ρ : Type) where
  journal : Option ρ
  childDirectory : Bool
  child : Option LinkRecord
  links : String → Option LinkState
  guarded : Bool
  log : List (Event ρ)

/-- The indices a kernel gives to new links: 1 is the loopback. -/
structure Ifindex where
  value : Nat
  lower : 1 < value
  upper : value < 2147483648

structure Around where
  context : Context
  scope : Resolved.Scope
  authority : Bool
  port : Nat
  probe : Bool
  freshId : String
  freshIfindex : Ifindex
  freshAddrgen : AddrGen
  freshDefaultRoute : Bool

abbrev Txn (ρ : Type) := Prog (Ambient (Core ρ) Around)

variable {ρ : Type}

def requireAuthority : Txn ρ Unit := do
  let authority ← Prog.ask (fun _ w => w.authority)
  Prog.require authority "authority"

/-- `backend.context()`. -/
def readContext : Txn ρ Context := do
  requireAuthority
  let context ← Prog.ask (fun _ w => w.context)
  Prog.require (validContext context) "owned link context"
  pure context

/-- `link.view` with the mode that the coupled view adds. -/
def viewLink (name : String) : Txn ρ (Option LinkState) := do
  requireAuthority
  Prog.require (ownedNamePattern name) "owned link name"
  Prog.ask (fun c _ => c.links name)

def linkView (name : String) : Txn ρ (Option LinkView) := do
  let link ← viewLink name
  pure (link.map LinkState.toLinkView)

def checkContext (expected : Context) : Txn ρ Unit := do
  requireAuthority
  let context ← readContext
  Prog.require (context == expected) "link backend context changed"

def ensureGuard : Txn ρ Unit := Prog.alter (fun c _ => { c with guarded := true })

def Core.setLink (c : Core ρ) (name : String) (link : Option LinkState) : Core ρ :=
  { c with links := Function.update c.links name link }

/-- A new dummy link as the kernel and the resolver first show it. -/
def newLink (spec : LinkSpec) (w : Around) : LinkState :=
  { ifindex := w.freshIfindex.value, spec, dns := ⟨[], [], w.freshDefaultRoute⟩
    addrgen := w.freshAddrgen }

def createLink (expected : Context) (spec : LinkSpec) : Txn ρ Unit := do
  checkContext expected
  Prog.require (ownedNamePattern spec.name) "owned link name"
  Prog.require (spec.kind == "dummy" && spec.ifalias == "" && ownedMacPattern spec.mac)
    "owned link spec"
  Prog.require (spec == ⟨spec.name, "dummy", spec.mac, spec.ifalias, 1500, false, none, []⟩)
    "owned link spec"
  let occupied ← linkView spec.name
  Prog.require occupied.isNone "name occupied before creation"
  checkContext expected
  requireAuthority
  Prog.alter (fun c w => c.setLink spec.name (some (newLink spec w)))

/-- `/^clean-vpn-dns:[a-f0-9]{32}$/`. -/
def ownedAliasPattern (ifalias : String) : Bool :=
  "clean-vpn-dns:".toList.isPrefixOf ifalias.toList && (ifalias.toList.drop 14).length == 32 &&
    (ifalias.toList.drop 14).all Text.isHex

def LinkState.stamp (link : LinkState) (ifalias : String) : LinkState :=
  { link with spec := { link.spec with ifalias } }

def stampLink (expected : Context) (current : LinkView) (ifalias : String) : Txn ρ Unit := do
  checkContext expected
  Prog.require (current.spec.ifalias == "" && ownedAliasPattern ifalias) "owned link alias"
  let found ← linkView current.spec.name
  Prog.require (found == some current) "link changed before stamp"
  checkContext expected
  requireAuthority
  Prog.alter (fun c _ =>
    c.setLink current.spec.name ((c.links current.spec.name).map (·.stamp ifalias)))

def removeLink (expected : Context) (current : LinkView) : Txn ρ Unit := do
  checkContext expected
  let found ← linkView current.spec.name
  Prog.require (found == some current) "link changed before deletion"
  checkContext expected
  requireAuthority
  Prog.alter (fun c _ =>
    { c.setLink current.spec.name none with
      log := .linkDeleted c.journal (c.links current.spec.name) :: c.log })

def releaseGuard (expected : Context) (name : String) : Txn ρ Unit := do
  checkContext expected
  let found ← linkView name
  Prog.require found.isNone "name reused before guard release"
  checkContext expected
  Prog.alter (fun c _ =>
    { c with guarded := false, log := .guardReleased c.journal (c.links name) :: c.log })

inductive Operation where
  | enable | recover | disable
  deriving DecidableEq, Repr

/-- `writeOwnedLinkJournal`. -/
def writeLinkJournal (record : LinkRecord) : Txn ρ Unit := do
  Prog.require (validLinkJournal record) "owned link journal"
  Prog.alter (fun c _ => { c with child := some record })

def readLinkJournal : Txn ρ LinkRecord := do
  let child ← Prog.ask (fun c _ => c.child)
  match child with
  | none => .throw "ENOENT"
  | some record => do
    Prog.require (validLinkJournal record) "owned link journal"
    pure record

/-- `save(stage)`. -/
def saveStage (record : LinkRecord) (stage : LinkStage) : Txn ρ LinkRecord := do
  let next := { record with stage }
  writeLinkJournal next
  pure next

def assertOwnedEmptyLink (record : LinkRecord) (current : Option LinkView) (stamped : Bool) :
    Txn ρ Nat :=
  match current with
  | none => .throw "owned link missing"
  | some link =>
    match ownedLinkFault record.id record.name record.ifindex link stamped with
    | some fault => .throw fault
    | none => pure link.ifindex

/-- `observe` of the link journal. -/
def observeLink (record : LinkRecord) : Txn ρ (Option LinkView) := do
  let before ← readContext
  Prog.require (before == record.context) "link context changed"
  let current ← linkView record.name
  let after ← readContext
  Prog.require (after == record.context) "link context changed during read"
  pure current

/-- The branch of `enable`. -/
def prepareLink : Txn ρ LinkRecord := do
  let child ← Prog.ask (fun c _ => c.child)
  Prog.require child.isNone "journal already exists"
  let context ← readContext
  let scope ← Prog.ask (fun _ w => w.scope)
  Prog.require (context.scope == scope) "owned link scope"
  let id ← Prog.ask (fun _ w => w.freshId)
  let record : LinkRecord := ⟨id, context, ownedName id, none, .prepared⟩
  let occupied ← linkView record.name
  Prog.require occupied.isNone "name already occupied"
  saveStage record .prepared

def openLinkJournal (operation : Operation) : Txn ρ LinkRecord :=
  if operation == .enable then prepareLink else readLinkJournal

def atPrepared (operation : Operation) (record : LinkRecord) (current : Option LinkView) :
    Txn ρ LinkRecord :=
  if record.stage == .prepared then do
    Prog.require current.isNone "link exists without create intent"
    saveStage record (if operation == .disable then .deleted else .createIntent)
  else pure record

/-- The creation itself, unless an earlier run got that far. -/
def createOnce (record : LinkRecord) (current : Option LinkView) :
    Txn ρ (Option LinkView) :=
  if current.isNone then do
    createLink record.context (ownedLinkSpec record.id record.name false)
    observeLink record
  else pure current

def atCreateIntent (operation : Operation) (record : LinkRecord) : Txn ρ LinkRecord :=
  if record.stage == .createIntent then do
    let current ← observeLink record
    if current.isNone && operation == .disable then saveStage record .deleted
    else do
      let created ← createOnce record current
      let ifindex ← assertOwnedEmptyLink record created false
      saveStage { record with ifindex := some ifindex } .unstamped
  else pure record

def atUnstamped (record : LinkRecord) : Txn ρ LinkRecord :=
  if record.stage == .unstamped then do
    let current ← observeLink record
    let _ ← assertOwnedEmptyLink record current false
    saveStage record .stampIntent
  else pure record

/-- The alias is written unless an earlier run got that far. -/
def stampOnce (record : LinkRecord) (link : LinkView) : Txn ρ Unit :=
  if link.spec.ifalias == "" then do
    let _ ← assertOwnedEmptyLink record (some link) false
    stampLink record.context link (ownedAlias record.id)
  else pure ()

def atStampIntent (record : LinkRecord) : Txn ρ LinkRecord :=
  if record.stage == .stampIntent then do
    let current ← observeLink record
    match current with
    | none => .throw "owned link missing"
    | some link => do
      stampOnce record link
      let stamped ← observeLink record
      let _ ← assertOwnedEmptyLink record stamped true
      saveStage record .created
  else pure record

def removeOnce (record : LinkRecord) (current : Option LinkView) : Txn ρ Unit :=
  match current with
  | none => pure ()
  | some link => do
    let _ ← assertOwnedEmptyLink record (some link) true
    removeLink record.context link

def atDeleteIntent (record : LinkRecord) : Txn ρ LinkRecord :=
  if record.stage == .deleteIntent then do
    let current ← observeLink record
    removeOnce record current
    let left ← observeLink record
    Prog.require left.isNone "delete read-back mismatch"
    saveStage record .deleted
  else pure record

inductive LinkStatus where
  | created | released
  deriving DecidableEq, Repr

/-- From a recorded deletion to the release. The guard release is injected:
the coupled controller passes one that does nothing. -/
def finishDeletion (release : Context → String → Txn ρ Unit) (record : LinkRecord) :
    Txn ρ LinkStatus := do
  let deleted ← atDeleteIntent record
  Prog.require (deleted.stage == .deleted || deleted.stage == .released) "owned link stage"
  let left ← observeLink deleted
  Prog.require left.isNone "deleted name reused"
  release deleted.context deleted.name
  let _ ← saveStage deleted .released
  pure .released

def atCreated (operation : Operation) (release : Context → String → Txn ρ Unit)
    (record : LinkRecord) : Txn ρ LinkStatus :=
  if record.stage == .created then do
    let current ← observeLink record
    let _ ← assertOwnedEmptyLink record current true
    if operation != .disable then pure .created
    else do
      let doomed ← saveStage record .deleteIntent
      finishDeletion release doomed
  else finishDeletion release record

def ownedLinkTransaction (operation : Operation) (release : Context → String → Txn ρ Unit) :
    Txn ρ LinkStatus := do
  ensureGuard
  let record ← openLinkJournal operation
  let scope ← Prog.ask (fun _ w => w.scope)
  Prog.require (record.context.scope == scope) "stale namespace scope"
  let current ← observeLink record
  let prepared ← atPrepared operation record current
  let unstamped ← atCreateIntent operation prepared
  let stamping ← atUnstamped unstamped
  let created ← atStampIntent stamping
  atCreated operation release created

end Meshpn.Dns.Coupled
