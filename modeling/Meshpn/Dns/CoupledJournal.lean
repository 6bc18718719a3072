import Mathlib.Data.List.Sort
import Meshpn.Dns.OwnedLink

/-!
The coupled transaction: one controller over link ownership, address, link
state and resolver settings, `dns-coupled-journal.mjs` over
`dns-coupled-backend.mjs`. Its journal moves through the phases `link`,
`settings`, `unlink` and `released`; inside `settings` a level between 0 and 7
says how many of the seven steps are in force.
-/

namespace Meshpn.Dns.Coupled

open Meshpn.Lib

/-- `COUPLED_STEPS`. -/
inductive Step where
  | defaultRouteOff | addrgen | address | up | dnsEx | domains | defaultRouteOn
  deriving DecidableEq, Repr

def coupledSteps : List Step :=
  [.defaultRouteOff, .addrgen, .address, .up, .dnsEx, .domains, .defaultRouteOn]

def coupledAddress : String := "inet:192.0.2.1/32"

/-- What one step makes of the state below it. -/
def Step.apply (port : Nat) (s : LinkState) : Step → LinkState
  | .defaultRouteOff => { s with dns := { s.dns with defaultRoute := false } }
  | .addrgen => { s with addrgen := .none }
  | .address => { s with spec := { s.spec with addresses := [coupledAddress] } }
  | .up => { s with spec := { s.spec with up := true } }
  | .dnsEx => { s with dns := { s.dns with dnsEx := [⟨2, [127, 0, 0, 1], port, ""⟩] } }
  | .domains => { s with dns := { s.dns with domains := [⟨".", true⟩] } }
  | .defaultRouteOn => { s with dns := { s.dns with defaultRoute := true } }

/-- The original with the first `level` steps in force. -/
def coupledState (original : LinkState) (port level : Nat) : LinkState :=
  (coupledSteps.take level).foldl (Step.apply port) original

inductive Phase where
  | link | settings | unlink | released
  deriving DecidableEq, Repr

inductive Direction where
  | apply | restore
  deriving DecidableEq, Repr

structure Record where
  id : String
  context : Context
  name : String
  port : Nat
  phase : Phase
  original : Option LinkState
  level : Nat
  pending : Bool
  direction : Direction
  deriving DecidableEq, Repr

/-- `coupledExpected(record, level)`; without an original there is none. -/
def coupledExpected (record : Record) (level : Nat) : Option LinkState :=
  record.original.map (coupledState · record.port level)

/-- The level the pending step leads to. -/
def Record.next (record : Record) : Nat :=
  if record.direction == .apply then record.level + 1 else record.level - 1

def originalFault (record : Record) (original : LinkState) : Option String :=
  ownedLinkFault record.id record.name (some original.ifindex) original.toLinkView true

/-- A recorded original is the empty owned link. -/
def originalValid (record : Record) : Bool :=
  match record.original with
  | none => true
  | some original => (originalFault record original).isNone

/-- `validateCoupledJournal`. -/
def validJournal (record : Record) : Bool :=
  (Text.hex 32 record.id && validContext record.context && record.name == ownedName record.id &&
    1024 ≤ record.port && record.port ≤ 65535 && record.level ≤ 7) &&
    originalValid record &&
    (if record.phase == .settings then record.original.isSome &&
        (!record.pending ||
          (if record.direction == .apply then record.level < 7 else record.level > 0))
      else record.level == 0 && !record.pending) &&
    (record.phase != .link || (record.original.isNone && record.direction == .apply)) &&
    (!(record.phase == .unlink || record.phase == .released) || record.direction == .restore)

abbrev CoupledCore := Core Record

/-- `writeCoupledJournal`. -/
def save (record : Record) : Txn Record Unit := do
  Prog.require (validJournal record) "coupled journal"
  Prog.alter (fun c _ => { c with journal := some record })

def readJournal : Txn Record Record := do
  let journal ← Prog.ask (fun c _ => c.journal)
  match journal with
  | none => .throw "ENOENT"
  | some record => do
    Prog.require (validJournal record) "coupled journal"
    pure record

def makeChildDirectory : Txn Record Unit := do
  let present ← Prog.ask (fun c _ => c.childDirectory)
  Prog.require (!present) "EEXIST"
  Prog.alter (fun c _ => { c with childDirectory := true })

/-- The branch of `enable`: both journals are durable before any mutation. -/
def prepare : Txn Record Record := do
  let journal ← Prog.ask (fun c _ => c.journal)
  Prog.require journal.isNone "journal already exists"
  let context ← readContext
  let scope ← Prog.ask (fun _ w => w.scope)
  Prog.require (context.scope == scope) "coupled scope"
  let id ← Prog.ask (fun _ w => w.freshId)
  let port ← Prog.ask (fun _ w => w.port)
  let record : Record := ⟨id, context, ownedName id, port, .link, none, 0, false, .apply⟩
  Prog.require (validJournal record) "coupled journal"
  let occupied ← viewLink record.name
  Prog.require occupied.isNone "coupled name occupied"
  makeChildDirectory
  writeLinkJournal ⟨id, context, record.name, none, .prepared⟩
  save record
  pure record

def openJournal (operation : Operation) : Txn Record Record :=
  if operation == .enable then prepare else readJournal

def contextCheck (record : Record) : Txn Record Unit := do
  let context ← readContext
  Prog.require (context == record.context) "coupled context changed"

def childMatches (record : Record) (child : LinkRecord) : Bool :=
  child.id == record.id && child.name == record.name && child.context == record.context &&
    match record.original with
    | none => true
    | some original => child.ifindex == some original.ifindex

def childCheck (record : Record) : Txn Record LinkRecord := do
  let child ← readLinkJournal
  Prog.require (childMatches record child) "child journal mismatch"
  pure child

def view (record : Record) : Txn Record (Option LinkState) := do
  contextCheck record
  let state ← viewLink record.name
  contextCheck record
  pure state

/-- The guard stays until the outer journal releases it. -/
def childRun (operation : Operation) : Txn Record LinkStatus :=
  ownedLinkTransaction operation (fun _ _ => pure ())

def requirePort (record : Record) (message : String) : Txn Record Unit := do
  let port ← Prog.ask (fun _ w => w.port)
  Prog.require (port == record.port) message
  let probe ← Prog.ask (fun _ w => w.probe)
  Prog.require probe "probe"

/-- From a ready child to the settings phase, with the link as the original. -/
def adoptLink (record : Record) : Txn Record Record := do
  let child ← childCheck record
  let found ← view record
  match found with
  | none => .throw "coupled link missing"
  | some original => do
    let _ ← assertOwnedEmptyLink child (some original.toLinkView) true
    let next := { record with phase := .settings, original := some original }
    save next
    pure next

def atLink (operation : Operation) (record : Record) : Txn Record Record :=
  if record.phase == .link then
    if operation == .disable then do
      let next := { record with phase := .unlink, direction := .restore }
      save next
      pure next
    else do
      requirePort record "adapter endpoint"
      contextCheck record
      let _ ← childRun .recover
      adoptLink record
  else pure record

/-- `observe`: the state at the recorded level or at the pending neighbour. -/
def observe (record : Record) : Txn Record (Option LinkState) := do
  let current ← view record
  Prog.require (current == coupledExpected record record.level ||
    (record.pending && current == coupledExpected record record.next))
    "coupled ownership conflict"
  pure current

def turnRound (operation : Operation) (record : Record) (current : Option LinkState) :
    Txn Record Record :=
  if operation == .disable && record.direction == .apply then do
    let level := if record.pending && current == coupledExpected record (record.level + 1)
      then record.level + 1 else record.level
    let next := { record with direction := .restore, level, pending := false }
    save next
    pure next
  else pure record

def requireAdapter (record : Record) : Txn Record Unit :=
  if record.direction == .apply then do
    requirePort record "adapter endpoint changed"
    let _ ← observe record
  else pure ()

/-- The setter's effect on the link: only what the step is about. -/
def Step.set (step : Step) (target current : LinkState) : LinkState :=
  match step with
  | .defaultRouteOff | .defaultRouteOn =>
    { current with dns := { current.dns with defaultRoute := target.dns.defaultRoute } }
  | .addrgen => { current with addrgen := target.addrgen }
  | .address =>
    { current with spec := { current.spec with
        addresses := if target.spec.addresses.length == 0
          then current.spec.addresses.erase coupledAddress
          else List.orderedInsert (· ≤ ·) coupledAddress current.spec.addresses } }
  | .up => { current with spec := { current.spec with up := target.spec.up } }
  | .dnsEx => { current with dns := { current.dns with dnsEx := target.dns.dnsEx } }
  | .domains => { current with dns := { current.dns with domains := target.dns.domains } }

/-- The address step takes no other addresses than the one it manages. -/
def settableAddresses (step : Step) (target : LinkState) : Bool :=
  step != .address || target.spec.addresses.length == 0 ||
    target.spec.addresses == [coupledAddress]

/-- `set(context, current, step, target)`. -/
def setStep (context : Context) (current : LinkState) (step : Step) (target : LinkState) :
    Txn Record Unit := do
  let before ← readContext
  Prog.require (before == context) "coupled backend context"
  let found ← viewLink current.spec.name
  Prog.require (found == some current) "coupled link changed before set"
  Prog.require (target.spec.name == current.spec.name && target.ifindex == current.ifindex)
    "coupled target"
  let after ← readContext
  Prog.require (after == context) "coupled backend context"
  requireAuthority
  Prog.require (settableAddresses step target) "coupled addresses"
  Prog.alter (fun c _ =>
    c.setLink current.spec.name ((c.links current.spec.name).map (step.set target)))

def intend (record : Record) : Txn Record Record :=
  if record.pending then pure record
  else do
    let next := { record with pending := true }
    save next
    pure next

/-- A step that changes nothing is set all the same: an explicit value must
be pinned even where the automatic one already reads so. -/
def takeEffect (record : Record) (step : Step) (current : Option LinkState) : Txn Record Unit :=
  if current != coupledExpected record record.next ||
      coupledExpected record record.level == coupledExpected record record.next then
    match current, coupledExpected record record.next with
    | some link, some target => setStep record.context link step target
    | _, _ => .throw "coupled link missing"
  else pure ()

/-- One pass of the loop. -/
def moveLevel (record : Record) (step : Step) : Txn Record Record := do
  let _ ← observe record
  let intended ← intend record
  let current ← observe intended
  takeEffect intended step current
  let result ← observe intended
  Prog.require (result == coupledExpected intended intended.next) "coupled setter read-back"
  let next := { intended with level := intended.next, pending := false }
  save next
  pure next

/-- The step between the recorded level and the next; none at the end. -/
def Record.step (record : Record) : Option Step :=
  if record.direction == .apply then coupledSteps[record.level]?
  else if record.level > 0 then coupledSteps[record.level - 1]? else none

def moveAll : Nat → Record → Txn Record Record
  | 0, record => pure record
  | passes + 1, record =>
    match record.step with
    | none => pure record
    | some step => do
      let next ← moveLevel record step
      moveAll passes next

inductive Status where
  | active | released
  deriving DecidableEq, Repr

structure Result where
  status : Status
  id : String
  deriving DecidableEq, Repr

def assertCreated (record : Record) : Txn Record Unit := do
  let child ← childCheck record
  Prog.require (child.stage == .created) "child lifecycle changed"

/-- The settings phase up to the end of its loop. -/
def settle (operation : Operation) (record : Record) : Txn Record Record := do
  assertCreated record
  let current ← observe record
  let directed ← turnRound operation record current
  requireAdapter directed
  let settled ← moveAll 7 directed
  let _ ← observe settled
  pure settled

/-- The remaining link must still be the original one. -/
def assertUnchanged (record : Record) (remaining : Option LinkState) : Txn Record Unit :=
  Prog.require (record.original.isNone || remaining.isNone || remaining == record.original)
    "link changed after settings release"

def atUnlink (record : Record) : Txn Record Record :=
  if record.phase == .unlink then do
    contextCheck record
    let _ ← childCheck record
    let remaining ← view record
    assertUnchanged record remaining
    let _ ← childRun .disable
    let left ← view record
    Prog.require left.isNone "coupled link left"
    let next := { record with phase := .released }
    save next
    pure next
  else pure record

/-- From the unlink phase to the release of the guard. -/
def release (record : Record) : Txn Record Result := do
  let unlinked ← atUnlink record
  Prog.require (unlinked.phase == .released) "coupled phase"
  let child ← childCheck unlinked
  Prog.require (child.stage == .released) "child release"
  let left ← view unlinked
  Prog.require left.isNone "coupled link left"
  releaseGuard unlinked.context unlinked.name
  pure ⟨.released, unlinked.id⟩

/-- What follows the loop of the settings phase. -/
def afterSettings (record : Record) : Txn Record Result :=
  if record.direction == .apply then pure ⟨.active, record.id⟩
  else do
    let next := { record with phase := .unlink }
    save next
    release next

def atSettings (operation : Operation) (record : Record) : Txn Record Result :=
  if record.phase == .settings then do
    let settled ← settle operation record
    afterSettings settled
  else release record

/-- `coupledDnsTransaction` from the scope check on. -/
def resume (operation : Operation) (record : Record) : Txn Record Result := do
  let scope ← Prog.ask (fun _ w => w.scope)
  Prog.require (record.context.scope == scope) "stale namespace"
  contextCheck record
  let _ ← childCheck record
  let linked ← atLink operation record
  atSettings operation linked

def coupledDnsTransaction (operation : Operation) : Txn Record Result := do
  ensureGuard
  let record ← openJournal operation
  resume operation record

/-- All sequences of coupled transactions in one directory, over any links. -/
def coupledSystem (allowed : Around → Prop) :
    System (Ambient CoupledCore Around) Operation Result :=
  coreSystem allowed
    (fun c => c.journal = none ∧ c.childDirectory = false ∧ c.child = none ∧ c.log = [])
    coupledDnsTransaction id

end Meshpn.Dns.Coupled
