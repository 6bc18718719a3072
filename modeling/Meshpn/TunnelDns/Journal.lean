import Meshpn.TunnelDns.Kernel

/-!
The tunnel DNS journal (`dns-tunnel-journal.mjs`): `begin`, `applyStage`,
`activate`, `restore` and `prepareRestart` of an opened journal. The record in
memory is the one last saved, so each operation reads it once and then carries
it along; `save` is the atomic replacement of the file.
-/

namespace Meshpn.TunnelDns

open Meshpn.Lib

def invalidJournal : String := "unexpected tunnel DNS journal fields"

def save (v : Record) : Prog World Unit := do
  Prog.require (validateTunnelDnsJournal v) invalidJournal
  Prog.alter (fun c _ => { c with journal := some v })

/-- Parked state owns only gates, not the old TUN. -/
def sameLinks (v : Record) (links : String → Option Link) : Option String :=
  (v.links.find? (fun (name, old) =>
    !(v.stage == .parked && name == v.config.tun) && !(links name).all (· == old))).map Prod.fst

/-- The items a record accounts for. -/
def owned (v : Record) : List Item :=
  ((operations v).take v.count).map Op.item ++ (holds v).take v.hold

section Steps

variable (timed : Bool)

def observe (v : Record) : Prog World Snapshot := do
  let scope ← Prog.ask (fun _ w => w.scope)
  Prog.require (v.scope == scope) "different boot/network/user namespace; review required"
  let snapshot ← readNetwork timed
  Prog.require (snapshot.firewall == v.firewall) "firewall backend changed"
  match sameLinks v snapshot.links with
  | some name => .throw ("interface identity changed: " ++ name)
  | none => do
    audit snapshot (owned v)
    pure snapshot

def addMissing (snapshot : Snapshot) (item : Item) : Prog World Unit :=
  if snapshot.items.contains item then pure () else run timed item.file (addItem true item)

def removePresent (snapshot : Snapshot) (item : Item) : Prog World Unit :=
  if snapshot.items.contains item then run timed item.file (removeItem item) else pure ()

/-- The loop of `ensureHold` from the given index on. -/
def ensureFrom : List Item → Nat → Record → Snapshot → Prog World (Record × Snapshot)
  | [], _, v, snapshot => pure (v, snapshot)
  | item :: rest, index, v, snapshot => do
    checkDeadline timed
    let v := { v with hold := max v.hold (index + 1) }
    save v
    addMissing timed snapshot item
    let snapshot ← observe timed v
    Prog.require (snapshot.items.contains item) "DNS hold read-back failed"
    ensureFrom rest (index + 1) v snapshot

def ensureHold (v : Record) (snapshot : Snapshot) : Prog World (Record × Snapshot) := do
  let v := { v with stage := .restoring }
  save v
  ensureFrom timed (holds v) 0 v snapshot

/-- The loops that undo a list of items from its end: `put` is the counter of
the record that says how many are left. -/
def undo (items : List Item) (put : Record → Nat → Record) (message : String) :
    Nat → Record → Snapshot → Prog World (Record × Snapshot)
  | 0, v, snapshot => pure (v, snapshot)
  | n + 1, v, snapshot => do
    checkDeadline timed
    match items[n]? with
    | none => .throw "Cannot read properties of undefined"
    | some item => do
      removePresent timed snapshot item
      let snapshot ← observe timed v
      Prog.require (!snapshot.items.contains item) message
      save (put v n)
      undo items put message n (put v n) snapshot

def rollback (v : Record) (snapshot : Snapshot) : Prog World (Record × Snapshot) :=
  undo timed ((operations v).map Op.item) (fun v n => { v with count := n })
    "DNS network undo failed" v.count v snapshot

def removeHold (v : Record) (snapshot : Snapshot) : Prog World (Record × Snapshot) :=
  undo timed (holds v) (fun v n => { v with hold := n }) "DNS hold undo failed" v.hold v snapshot

end Steps

inductive Mode where
  | dryRun | restored | parked
  deriving DecidableEq, Repr

structure Result where
  mode : Mode
  operations : Nat
  deriving DecidableEq, Repr

/-- The record of an opened journal. -/
def current : Prog World (Option Record) := Prog.ask (fun c _ => c.journal)

/-- Gives up the capture behind a closed gate, and the gate last. -/
def openGate (v : Record) : Prog World Record := do
  resetTunnelDnsConntrack true v.config .disable
  let snapshot ← observe true v
  let (v, _) ← removeHold true v snapshot
  pure v

def finish (keepHold : Bool) (v : Record) : Prog World Record :=
  if keepHold then pure v else openGate v

def restore (keepHold apply : Bool) : Prog World Result := do
  let value ← current
  match value with
  | none => .throw "no tunnel DNS journal"
  | some v => do
    let snapshot ← observe true v
    if !apply then pure ⟨.dryRun, v.count⟩
    else if v.stage = .released && !keepHold then pure ⟨.restored, 0⟩
    else do
      let (v, snapshot) ← ensureHold true v snapshot
      let count := v.count
      let (v, _) ← rollback true v snapshot
      let v ← finish keepHold v
      checkDeadline true
      save { v with stage := if keepHold then .parked else .released }
      pure ⟨if keepHold then .parked else .restored, count⟩

def prepareRestart (fromTun lanSubnet lanInterface : Option String) : Prog World Unit := do
  let value ← current
  match value with
  | none => pure ()
  | some v =>
    if v.stage = .released then pure ()
    else do
      Prog.require ((fromTun, lanSubnet, lanInterface) == v.config.ingress.fields)
        "DNS restart scope changed; explicit recovery required"
      let _ ← restore true true
      pure ()

/-- The identities of the interfaces at the start of a session. -/
def recordLinks (links : String → Option Link) :
    List String → Prog World (List (String × Link))
  | [] => pure []
  | name :: rest =>
    match links name with
    | none => .throw ("missing interface " ++ name)
    | some link => do
      let others ← recordLinks links rest
      pure ((name, link) :: others)

/-- What a new session inherits: the gates of a parked journal and its tag. -/
def inherited : Option Record → Option Record
  | some v => if v.stage = .parked then some v else none
  | none => none

/-- `DNS parked scope changed`: the gates are those of the old selection. -/
def checkParked (config : Config) : Option Record → Prog World Unit
  | none => pure ()
  | some v => do
    let _ ← observe false v
    Prog.require (config.ingress.fields == v.config.ingress.fields) "DNS parked scope changed"

def begin (input : Input) : Prog World Unit := do
  match configOf input with
  | none => .throw "invalid tunnel DNS configuration"
  | some config => do
    let value ← current
    Prog.require (value.all (fun v => v.stage == .released || v.stage == .parked))
      "unfinished tunnel DNS journal; recover first"
    checkParked config (inherited value)
    let snapshot ← readNetwork false
    audit snapshot (((inherited value).map holds).getD [])
    resetTunnelDnsConntrack false config .preflight
    let links ← recordLinks snapshot.links (linkNames config)
    let oldHold := ((inherited value).map Record.hold).getD 0
    let (scope, freshId) ← Prog.ask (fun _ w => (w.scope, w.freshId))
    let id := if oldHold = 0 then freshId else ((inherited value).map Record.id).getD freshId
    save ⟨id, scope, config, links, snapshot.firewall, 0, oldHold, .installing⟩

/-- The loop of `applyStage` over the operations that are not installed yet. -/
def applyFrom (stage : Stage) : List Op → Record → Prog World Unit
  | [], _ => pure ()
  | op :: rest, v =>
    if op.stage = stage then do
      let before ← observe false v
      Prog.require (!before.items.contains op.item) "DNS operation exists before intent"
      let v := { v with count := v.count + 1 }
      save v
      run false op.item.file (addItem op.first op.item)
      let after ← observe false v
      Prog.require (after.items.contains op.item) "DNS operation read-back failed"
      applyFrom stage rest v
    else pure ()

/-- The record of a session that is being installed. -/
def installing : Prog World Record := do
  let value ← current
  match value with
  | none => .throw "tunnel DNS journal is not installing"
  | some v => do
    Prog.require (v.stage == .installing) "tunnel DNS journal is not installing"
    pure v

def applyStage (stage : Stage) : Prog World Unit := do
  let v ← installing
  let _ ← observe false v
  Prog.require (((operations v)[v.count]?.map Op.stage) == some stage) "DNS stages out of order"
  applyFrom stage ((operations v).drop v.count) v

def activate : Prog World Unit := do
  let v ← installing
  Prog.require (v.count == (operations v).length) "incomplete DNS installation"
  let snapshot ← observe false v
  Prog.require ((operations v).all (fun op => snapshot.items.contains op.item))
    "missing DNS network state"
  resetTunnelDnsConntrack false v.config .enable
  let snapshot ← observe false v
  let (v, _) ← removeHold false v snapshot
  save { v with stage := .active }

/-- Between the calls the TUN may disappear, and its routes with it. -/
def loseLink (name : String) : Prog World Unit :=
  Prog.alter (fun c _ => { c with items := c.items.filter (fun item =>
    match item with
    | .route _ tun => tun != name
    | _ => true) })

inductive Call where
  | begin : Input → Call
  | applyStage : Stage → Call
  | activate : Call
  | restore : (keepHold apply : Bool) → Call
  | prepareRestart : (fromTun lanSubnet lanInterface : Option String) → Call
  | loseLink : String → Call

def Call.program : Call → Prog World Unit
  | .begin input => TunnelDns.begin input
  | .applyStage stage => TunnelDns.applyStage stage
  | .activate => TunnelDns.activate
  | .restore keepHold apply => do
    let _ ← TunnelDns.restore keepHold apply
    pure ()
  | .prepareRestart fromTun lanSubnet lanInterface =>
    TunnelDns.prepareRestart fromTun lanSubnet lanInterface
  | .loseLink name => TunnelDns.loseLink name

end Meshpn.TunnelDns
