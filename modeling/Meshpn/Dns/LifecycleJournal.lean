import Meshpn.Lib.Ambient
import Meshpn.Lib.Text

/-!
The first of the journalled DNS transactions: `dns-lifecycle-transaction.mjs`
over the journal of `dns-lifecycle-journal.mjs` and the namespace backend of the
crash laboratory. One object, the resolver's configuration file, is replaced by
a managed one and in the end by a copy of the original; each replacement stands
between a durable intent and a durable commit, all of it under a guard that
blocks DNS.

The journal, the selected object and the guard are changed by the transaction
alone. Whether the backend refuses a command, what the snapshot files are and
the fresh identifier are ambient. A checkpoint is a place where the process may
be killed, and here every place is one.

The invariant of the DNS lifecycle transaction, at every moment of every
sequence of interrupted calls: the selected object is one the durable record
expects, so no ownership check can fail without a foreign hand, and the guard is
down only over the original before the first record or over the restored copy
after the restoration is durable.

The rules are proved once for any obligations that tolerate a refusing backend;
with a backend that refuses nothing they also say that a disable comes to its end.
-/

namespace Meshpn.Dns.Lifecycle

open Meshpn.Lib

structure DnsObject where
  identity : String
  sha256 : String
  deriving DecidableEq, Repr

def sameDnsObject (a b : DnsObject) : Bool := a.identity == b.identity && a.sha256 == b.sha256

structure Scope where
  net : String
  mnt : String
  pid : String
  deriving DecidableEq, Repr

/-- `JOURNAL_STAGES`. -/
inductive Stage where
  | prepared | applying | active | restoring | restored | released
  deriving DecidableEq, Repr

structure Record where
  id : String
  scope : Scope
  stage : Stage
  original : DnsObject
  managed : DnsObject
  restored : DnsObject
  deriving DecidableEq, Repr

def expectedDnsObjects (record : Record) : List DnsObject :=
  match record.stage with
  | .prepared => [record.original]
  | .applying => [record.original, record.managed]
  | .active => [record.managed]
  | .restoring => [record.original, record.managed, record.restored]
  | .restored => [record.restored]
  | .released => [record.restored]

def validObject (object : DnsObject) : Bool :=
  Text.numberPair object.identity && Text.hex 64 object.sha256

def validScope (scope : Scope) : Bool :=
  Text.namespaceLink "net" scope.net && Text.namespaceLink "mnt" scope.mnt &&
    Text.namespaceLink "pid" scope.pid

/-- `validateDnsJournal`. -/
def validJournal (record : Record) : Bool :=
  Text.hex 32 record.id && validScope record.scope &&
    (validObject record.original && validObject record.managed && validObject record.restored) &&
    record.original.sha256 == record.restored.sha256

inductive Method where
  | ensureGuard | prepare | current | verifySnapshots | select | removeGuard | probe
  deriving DecidableEq, Repr

structure Core where
  journal : Option Record
  object : DnsObject
  guarded : Bool
  deriving DecidableEq, Repr

structure Around where
  refuses : Method → Bool
  /-- The snapshot files, as `prepare` finds them once it has written them. -/
  managed : DnsObject
  restored : DnsObject
  freshId : String

abbrev Txn := Prog (Ambient Core Around)

/-- A command of the backend that may be refused, with nothing done. -/
def backend (method : Method) : Txn Unit := do
  let refused ← Prog.ask (fun _ w => w.refuses method)
  Prog.require (!refused) "fixture backend refused operation"

def ensureGuard : Txn Unit := do
  backend .ensureGuard
  Prog.alter (fun c _ => { c with guarded := true })

def removeGuard : Txn Unit := do
  backend .removeGuard
  Prog.alter (fun c _ => { c with guarded := false })

def current : Txn DnsObject := do
  backend .current
  Prog.ask (fun c _ => c.object)

/-- `prepare`: the original, and the two files written beside it. -/
def prepare : Txn (DnsObject × DnsObject × DnsObject) := do
  let original ← current
  let again ← current
  Prog.require (sameDnsObject original again) "snapshot race"
  backend .prepare
  Prog.ask (fun _ w => (original, w.managed, w.restored))

inductive Target where
  | managed | restored
  deriving DecidableEq, Repr

/-- `record[name]`. -/
def Record.target (record : Record) : Target → DnsObject
  | .managed => record.managed
  | .restored => record.restored

/-- `select(name, record, expected)`: the bind mount makes the snapshot, verified
just before, the current object. -/
def select (name : Target) (record : Record) (expected : List DnsObject) : Txn Unit := do
  backend .verifySnapshots
  let latest ← current
  Prog.require (expected.any (sameDnsObject · latest)) "compare-and-select conflict"
  backend .select
  Prog.alter (fun c _ => { c with object := record.target name })
  let selected ← current
  Prog.require (sameDnsObject selected (record.target name)) "selected object differs"

/-- `save(stage)`: validated, then one rename. -/
def save (record : Record) (stage : Stage) : Txn Record := do
  Prog.require (validJournal { record with stage }) "journal"
  Prog.alter (fun c _ => { c with journal := some { record with stage } })
  pure { record with stage }

def readDnsJournal : Txn Record := do
  let journal ← Prog.ask (fun c _ => c.journal)
  match journal with
  | none => .throw "ENOENT"
  | some record => do
    Prog.require (validJournal record) "journal"
    pure record

/-- `enable` wants the journal to be missing; any other reading of it throws. -/
def requireNoJournal : Txn Unit := do
  let journal ← Prog.ask (fun c _ => c.journal)
  match journal with
  | none => pure ()
  | some record => do
    Prog.require (validJournal record) "journal"
    .throw "journal already exists"

inductive Operation where
  | enable | recover | disable
  deriving DecidableEq, Repr

/-- The branch of `enable`. -/
def begin (scope : Scope) : Txn Record := do
  requireNoJournal
  let snapshots ← prepare
  let id ← Prog.ask (fun _ w => w.freshId)
  save ⟨id, scope, .prepared, snapshots.1, snapshots.2.1, snapshots.2.2⟩ .prepared

def openJournal (operation : Operation) (scope : Scope) : Txn Record :=
  if operation == .enable then begin scope else readDnsJournal

def check (record : Record) : Txn Unit := do
  let object ← current
  Prog.require ((expectedDnsObjects record).any (sameDnsObject · object)) "DNS ownership conflict"

/-- A stage from which only the restoration goes on. -/
def Stage.isRestore : Stage → Bool
  | .restoring | .restored | .released => true
  | _ => false

inductive Status where
  | active | released
  deriving DecidableEq, Repr

structure Result where
  status : Status
  id : String
  deriving DecidableEq, Repr

/-- The restore intent is durable before anything is put back. -/
def intendRestore (record : Record) : Txn Record :=
  if record.stage.isRestore then pure record else save record .restoring

def selectRestored (record : Record) : Txn Record :=
  if record.stage == .restoring then do
    select .restored record (expectedDnsObjects record)
    save record .restored
  else pure record

/-- The branch of an explicit or an already intended `disable`. -/
def restore (record : Record) : Txn Result := do
  let intended ← intendRestore record
  let restored ← selectRestored intended
  check restored
  removeGuard
  let released ← save restored .released
  pure ⟨.released, released.id⟩

def selectManaged (record : Record) : Txn Record :=
  if record.stage == .active then pure record
  else do
    let applying ← save record .applying
    select .managed applying (expectedDnsObjects applying)
    save applying .active

def activate (record : Record) : Txn Result := do
  backend .probe
  check record
  let active ← selectManaged record
  pure ⟨.active, active.id⟩

/-- `dnsTransaction` from the scope check on. -/
def resume (operation : Operation) (scope : Scope) (record : Record) : Txn Result := do
  Prog.require (record.scope == scope) "stale namespace scope: manual recovery required"
  check record
  backend .verifySnapshots
  if operation == .disable || record.stage.isRestore then restore record else activate record

def dnsTransaction (operation : Operation) (scope : Scope) : Txn Result := do
  ensureGuard
  let record ← openJournal operation scope
  resume operation scope record

/-- All sequences of transactions, in any namespaces and surroundings, on an
object that nobody else changes. -/
def dnsSystem (original : DnsObject) :
    System (Ambient Core Around) (Operation × Scope) Result :=
  coreSystem (fun _ => True) (fun c => c.journal = none ∧ c.object = original)
    (fun call => dnsTransaction call.1 call.2) id

@[simp] theorem sameDnsObject_self (object : DnsObject) : sameDnsObject object object = true := by
  simp [sameDnsObject]

variable {record : Record} {original : DnsObject} {object : DnsObject}

theorem any_sameDnsObject {objects : List DnsObject}
    (h : object ∈ objects) : objects.any (sameDnsObject · object) = true :=
  List.any_eq_true.mpr ⟨object, h, sameDnsObject_self object⟩

@[simp] theorem validJournal_stage (record : Record) (stage : Stage) :
    validJournal { record with stage } = validJournal record := rfl

theorem restored_sha256 (h : validJournal record = true) :
    record.restored.sha256 = record.original.sha256 := by
  simp only [validJournal, Bool.and_eq_true, beq_iff_eq] at h
  exact h.2.symm

theorem mem_restoring
    (h : object ∈ expectedDnsObjects record) :
    object ∈ expectedDnsObjects { record with stage := .restoring } := by
  cases hstage : record.stage <;>
    simp only [expectedDnsObjects, hstage, List.mem_cons, List.not_mem_nil, or_false] at h ⊢ <;>
    grind

/-- Before the restoration the object is the original or the managed one, and the
original only until the record is active. -/
theorem mem_applying
    (hrestore : record.stage.isRestore = false) (h : object ∈ expectedDnsObjects record) :
    object ∈ expectedDnsObjects { record with stage := .applying } := by
  cases hstage : record.stage <;>
    simp only [expectedDnsObjects, hstage, Stage.isRestore, List.mem_cons, List.not_mem_nil,
      or_false, reduceCtorEq] at h hrestore ⊢ <;>
    grind

/-- What holds at every moment, for an object that was `original` at first. -/
structure Inv (original : DnsObject) (c : Core) : Prop where
  fresh : c.journal = none → c.object = original
  valid : ∀ record, c.journal = some record → validJournal record = true
  first : ∀ record, c.journal = some record → record.original = original
  owned : ∀ record, c.journal = some record → c.object ∈ expectedDnsObjects record
  closed : c.guarded = false → ∀ record, c.journal = some record →
    record.stage = .restored ∨ record.stage = .released

theorem Inv.of_guarded {original object : DnsObject}
    (hvalid : validJournal record = true) (hfirst : record.original = original)
    (howned : object ∈ expectedDnsObjects record) :
    Inv original ⟨some record, object, true⟩ where
  fresh := by simp
  valid found hfound := Option.some.inj hfound ▸ hvalid
  first found hfound := Option.some.inj hfound ▸ hfirst
  owned found hfound := Option.some.inj hfound ▸ howned
  closed := by simp

theorem Inv.guard {c : Core} (h : Inv original c) :
    Inv original { c with guarded := true } :=
  ⟨h.fresh, h.valid, h.first, h.owned, by simp⟩

/-- Obligations that a call meets although the backend may refuse commands. -/
structure Tolerates (G : CoreSpec Core Around) (original : DnsObject) : Prop where
  safe : ∀ c, Inv original c → G.safe c
  refused : ∀ w c method, G.allowed w → Inv original c → w.refuses method = true →
    G.fails "fixture backend refused operation" c

section Rules

variable {G : CoreSpec Core Around} {original : DnsObject} (hG : Tolerates G original)
include hG

variable {record : Record} {object : DnsObject} {c : Core}

theorem backend_reads (hc : Inv original c) (method : Method) :
    (backend method).Reads G c (fun _ => True) := by
  refine cwp_ask_then G (hG.safe c hc) fun w hw => ?_
  refine cwp_require G (hG.safe c hc) ?_ (fun _ => ⟨rfl, trivial⟩)
  intro hrefused
  exact hG.refused w c method hw hc (by simpa using hrefused)

theorem current_reads (hc : Inv original c) :
    current.Reads G c (fun object => object = c.object) :=
  (backend_reads hG hc .current).then fun _ _ =>
    cwp_ask G (hG.safe c hc) fun _ _ => ⟨rfl, rfl⟩

theorem check_reads (hc : Inv original c)
    (howned : c.object ∈ expectedDnsObjects record) :
    (check record).Reads G c (fun _ => True) := by
  refine (current_reads hG hc).then ?_
  rintro object rfl
  exact cwp_holds G (hG.safe c hc) (any_sameDnsObject howned) ⟨rfl, trivial⟩

theorem save_cwp {stage : Stage} (hc : Inv original c)
    (hvalid : validJournal record = true)
    (hafter : Inv original { c with journal := some { record with stage } }) :
    (save record stage).cwp G (fun value d => value = { record with stage } ∧
      d = { c with journal := some { record with stage } }) c := by
  refine cwp_holds_then G (hG.safe c hc) hvalid ?_
  refine cwp_alter_then G (hG.safe c hc) fun _ _ => ?_
  exact cwp_pure G (hG.safe _ hafter) ⟨rfl, rfl⟩

theorem select_cwp {name : Target}
    (hc : Inv original ⟨some record, object, true⟩)
    (htarget : record.target name ∈ expectedDnsObjects record) :
    (select name record (expectedDnsObjects record)).cwp G
      (fun _ d => d = ⟨some record, record.target name, true⟩) ⟨some record, object, true⟩ := by
  have hafter : Inv original ⟨some record, record.target name, true⟩ :=
    .of_guarded (hc.valid record rfl) (hc.first record rfl) htarget
  refine (backend_reads hG hc .verifySnapshots).then fun _ _ => ?_
  refine (current_reads hG hc).then ?_
  rintro latest rfl
  refine cwp_holds_then G (hG.safe _ hc) (any_sameDnsObject (hc.owned record rfl)) ?_
  refine (backend_reads hG hc .select).then fun _ _ => ?_
  refine cwp_alter_then G (hG.safe _ hc) fun _ _ => ?_
  refine (current_reads hG hafter).then ?_
  rintro selected rfl
  exact cwp_holds G (hG.safe _ hafter) (sameDnsObject_self _) rfl

theorem intendRestore_cwp
    (hc : Inv original ⟨some record, object, true⟩) :
    (intendRestore record).cwp G
      (fun next d => d = ⟨some next, object, true⟩ ∧ next.stage.isRestore = true ∧
        next = { record with stage := next.stage } ∧ Inv original d)
      ⟨some record, object, true⟩ := by
  unfold intendRestore
  split
  case isTrue hrestore => exact cwp_pure G (hG.safe _ hc) ⟨rfl, hrestore, rfl, hc⟩
  rename_i hrestore
  have hafter : Inv original ⟨some { record with stage := .restoring }, object, true⟩ :=
    .of_guarded (hc.valid record rfl) (hc.first record rfl) (mem_restoring (hc.owned record rfl))
  refine cwp_mono G (save_cwp hG hc (hc.valid record rfl) hafter) ?_
  rintro next d _ ⟨rfl, rfl⟩
  exact ⟨rfl, rfl, rfl, hafter⟩

theorem selectRestored_cwp
    (hc : Inv original ⟨some record, object, true⟩) (hrestore : record.stage.isRestore = true) :
    (selectRestored record).cwp G
      (fun next d => d = ⟨some next, record.restored, true⟩ ∧
        (next.stage = .restored ∨ next.stage = .released) ∧
        next = { record with stage := next.stage } ∧ Inv original d)
      ⟨some record, object, true⟩ := by
  unfold selectRestored
  split
  case isTrue hstage =>
    have hstage : record.stage = .restoring := by simpa using hstage
    have htarget : record.target .restored ∈ expectedDnsObjects record := by
      simp [expectedDnsObjects, hstage, Record.target]
    have hselected : Inv original ⟨some record, record.restored, true⟩ :=
      .of_guarded (hc.valid record rfl) (hc.first record rfl) htarget
    have hafter : Inv original ⟨some { record with stage := .restored }, record.restored, true⟩ :=
      .of_guarded (hc.valid record rfl) (hc.first record rfl) (by simp [expectedDnsObjects])
    refine cwp_seq G (select_cwp hG hc htarget) ?_
    rintro _ _ _ rfl
    refine cwp_mono G (save_cwp hG hselected (hc.valid record rfl) hafter) ?_
    rintro next d _ ⟨rfl, rfl⟩
    exact ⟨rfl, Or.inl rfl, rfl, hafter⟩
  case isFalse hstage =>
    have hdone : record.stage = .restored ∨ record.stage = .released := by
      rcases record with ⟨id, scope, stage, first, managed, restored⟩
      cases stage <;> simp_all [Stage.isRestore]
    have hobject : object = record.restored := by
      have howned := hc.owned record rfl
      rcases hdone with h | h <;> simpa [expectedDnsObjects, h] using howned
    subst hobject
    exact cwp_pure G (hG.safe _ hc) ⟨rfl, hdone, rfl, hc⟩

theorem restore_cwp
    (hc : Inv original ⟨some record, object, true⟩) :
    (restore record).cwp G
      (fun result d => result = ⟨.released, record.id⟩ ∧
        d = ⟨some { record with stage := .released }, record.restored, false⟩ ∧ Inv original d)
      ⟨some record, object, true⟩ := by
  refine cwp_seq G (intendRestore_cwp hG hc) ?_
  rintro intended _ _ ⟨rfl, hrestore, hintended, hinv⟩
  refine cwp_seq G (selectRestored_cwp hG hinv hrestore) ?_
  rintro restored _ _ ⟨rfl, hstage, hrestored, hinv'⟩
  have hopen : ∀ next : Record, next = { restored with stage := next.stage } →
      (next.stage = .restored ∨ next.stage = .released) →
      Inv original ⟨some next, intended.restored, false⟩ := by
    intro next hnext hdone
    have hsame : next.restored = intended.restored := by rw [hnext, hrestored]
    refine ⟨by simp, ?_, ?_, ?_, ?_⟩
    · rintro found hfound
      cases hfound
      rw [hnext]
      exact hinv'.valid restored rfl
    · rintro found hfound
      cases hfound
      rw [hnext]
      exact hinv'.first restored rfl
    · rintro found hfound
      cases hfound
      rcases hdone with h | h <;> simp [expectedDnsObjects, h, hsame]
    · rintro _ found hfound
      cases hfound
      exact hdone
  refine (check_reads hG hinv' (hinv'.owned restored rfl)).then fun _ _ => ?_
  refine cwp_seq G (R := fun _ d => d = ⟨some restored, intended.restored, false⟩) ?_ ?_
  · refine (backend_reads hG hinv' .removeGuard).then fun _ _ => ?_
    have hdown := hopen restored rfl hstage
    exact cwp_alter G (hG.safe _ hinv') fun _ _ => ⟨hG.safe _ hdown, rfl⟩
  rintro _ _ _ rfl
  have hdown := hopen restored rfl hstage
  have hreleased := hopen { restored with stage := .released } rfl (Or.inr rfl)
  refine cwp_seq G (save_cwp hG hdown (hinv'.valid restored rfl) hreleased) ?_
  rintro released _ _ ⟨rfl, rfl⟩
  have hsame : ({ restored with stage := .released } : Record) =
      { record with stage := .released } := by rw [hrestored, hintended]
  have hobject : intended.restored = record.restored := by rw [hintended]
  refine cwp_pure G (hG.safe _ hreleased) ⟨?_, ?_, hreleased⟩
  · rw [hrestored, hintended]
  · rw [hsame, hobject]

theorem selectManaged_cwp
    (hc : Inv original ⟨some record, object, true⟩) (hrestore : record.stage.isRestore = false) :
    (selectManaged record).cwp G
      (fun next d => next = { record with stage := .active } ∧ Inv original d)
      ⟨some record, object, true⟩ := by
  unfold selectManaged
  split
  case isTrue hstage =>
    have hstage : record.stage = .active := by simpa using hstage
    exact cwp_pure G (hG.safe _ hc) ⟨by rw [← hstage], hc⟩
  rename_i hstage
  have hvalid := hc.valid record rfl
  have happlying : Inv original ⟨some { record with stage := .applying }, object, true⟩ :=
    .of_guarded hvalid (hc.first record rfl) (mem_applying hrestore (hc.owned record rfl))
  have htarget : ({ record with stage := .applying } : Record).target .managed ∈
      expectedDnsObjects { record with stage := .applying } := by
    simp [expectedDnsObjects, Record.target]
  have hselected :
      Inv original ⟨some { record with stage := .applying }, record.managed, true⟩ :=
    .of_guarded hvalid (hc.first record rfl) htarget
  have hactive : Inv original ⟨some { record with stage := .active }, record.managed, true⟩ :=
    .of_guarded hvalid (hc.first record rfl) (by simp [expectedDnsObjects])
  refine cwp_seq G (save_cwp hG hc hvalid happlying) ?_
  rintro applying _ _ ⟨rfl, rfl⟩
  refine cwp_seq G (select_cwp hG happlying htarget) ?_
  rintro _ _ _ rfl
  refine cwp_mono G (save_cwp hG hselected hvalid hactive) ?_
  rintro next d _ ⟨rfl, rfl⟩
  exact ⟨rfl, hactive⟩

theorem activate_cwp
    (hc : Inv original ⟨some record, object, true⟩) (hrestore : record.stage.isRestore = false) :
    (activate record).cwp G (fun _ d => Inv original d) ⟨some record, object, true⟩ := by
  refine (backend_reads hG hc .probe).then fun _ _ => ?_
  refine (check_reads hG hc (hc.owned record rfl)).then fun _ _ => ?_
  refine cwp_seq G (selectManaged_cwp hG hc hrestore) ?_
  rintro active d _ ⟨_, hinv⟩
  exact cwp_pure G (hG.safe _ hinv) hinv

/-- The end of a restoration: a released record over the restored object. -/
def Released (result : Result) (d : Core) : Prop :=
  ∃ record, d.journal = some record ∧ record.stage = .released ∧ d.object = record.restored ∧
    result = ⟨.released, record.id⟩

/-- What a call leaves behind: the invariant, and after a disable the release. -/
structure Done (original : DnsObject) (operation : Operation) (result : Result) (d : Core) :
    Prop where
  inv : Inv original d
  released : operation = .disable → Released result d

theorem resume_cwp {operation : Operation} {scope : Scope}
    (hc : Inv original ⟨some record, object, true⟩)
    (hscope : record.scope ≠ scope →
      G.fails "stale namespace scope: manual recovery required" ⟨some record, object, true⟩) :
    (resume operation scope record).cwp G (Done original operation)
      ⟨some record, object, true⟩ := by
  refine cwp_require_then G (hG.safe _ hc) (fun hstale => hscope (by simpa using hstale)) fun _ => ?_
  refine (check_reads hG hc (hc.owned record rfl)).then fun _ _ => ?_
  refine (backend_reads hG hc .verifySnapshots).then fun _ _ => ?_
  split
  case isTrue =>
    refine cwp_mono G (restore_cwp hG hc) ?_
    rintro result d _ ⟨rfl, rfl, hinv⟩
    exact ⟨hinv, fun _ => ⟨_, rfl, rfl, rfl, rfl⟩⟩
  case isFalse hactive =>
    simp only [Bool.or_eq_true, beq_iff_eq, not_or, Bool.not_eq_true] at hactive
    refine cwp_mono G (activate_cwp hG hc hactive.2) ?_
    intro result d _ hinv
    exact ⟨hinv, fun hdisable => absurd hdisable hactive.1⟩

theorem readDnsJournal_reads
    (hc : Inv original ⟨some record, object, true⟩) :
    readDnsJournal.Reads G ⟨some record, object, true⟩ (fun found => found = record) := by
  refine cwp_ask_then G (hG.safe _ hc) fun _ _ => ?_
  refine cwp_holds_then G (hG.safe _ hc) (hc.valid record rfl) ?_
  exact cwp_pure G (hG.safe _ hc) ⟨rfl, rfl⟩

theorem ensureGuard_cwp (hc : Inv original c) :
    ensureGuard.cwp G (fun _ d => d = { c with guarded := true }) c :=
  (backend_reads hG hc .ensureGuard).then fun _ _ =>
    cwp_alter G (hG.safe c hc) fun _ _ => ⟨hG.safe _ hc.guard, rfl⟩

theorem disable_cwp (hc : Inv original c)
    (hjournal : c.journal = some record) :
    (dnsTransaction .disable record.scope).cwp G (Done original .disable) c := by
  obtain ⟨journal, object, guarded⟩ := c
  cases hjournal
  refine cwp_seq G (ensureGuard_cwp hG hc) ?_
  rintro _ _ _ rfl
  refine (readDnsJournal_reads hG hc.guard).then ?_
  rintro found rfl
  exact resume_cwp hG hc.guard fun hne => absurd rfl hne

end Rules

def conflicts : List String :=
  ["DNS ownership conflict", "compare-and-select conflict", "selected object differs",
    "snapshot race"]

/-- At every moment the invariant; an error leaves it too and reports no conflict. -/
def obligations (original : DnsObject) : CoreSpec Core Around where
  allowed _ := True
  safe := Inv original
  fails error d := Inv original d ∧ error ∉ conflicts

theorem obligations_tolerates (original : DnsObject) :
    Tolerates (obligations original) original where
  safe _ hc := hc
  refused _ _ _ _ hc _ := ⟨hc, by simp [conflicts]⟩

section Calls

variable {original : DnsObject}

theorem prepare_reads {c : Core} (hc : Inv original c) :
    prepare.Reads (obligations original) c (fun found => found.1 = c.object) := by
  have hG := obligations_tolerates original
  refine (current_reads hG hc).then ?_
  rintro first rfl
  refine (current_reads hG hc).then ?_
  rintro again rfl
  refine cwp_holds_then _ hc (sameDnsObject_self _) ?_
  refine (backend_reads hG hc .prepare).then fun _ _ => ?_
  exact cwp_ask _ hc fun _ _ => ⟨rfl, rfl⟩

theorem begin_cwp {object : DnsObject} {journal : Option Record}
    (hc : Inv original ⟨journal, object, true⟩) (scope : Scope) :
    (begin scope).cwp (obligations original)
      (fun record d => d = ⟨some record, object, true⟩ ∧ Inv original d)
      ⟨journal, object, true⟩ := by
  have hG := obligations_tolerates original
  refine cwp_seq _ (R := fun _ d => d = ⟨none, object, true⟩ ∧ Inv original d) ?_ ?_
  · refine cwp_ask_then _ hc fun _ _ => ?_
    cases journal with
    | none => exact cwp_pure _ hc ⟨rfl, hc⟩
    | some record =>
      refine cwp_holds_then _ hc (hc.valid record rfl) ?_
      exact cwp_throw _ hc ⟨hc, by simp [conflicts]⟩
  rintro _ _ _ ⟨rfl, hnone⟩
  refine (prepare_reads hnone).then ?_
  rintro ⟨first, managed, restored⟩ hfound
  obtain rfl : object = first := hfound.symm
  refine cwp_ask_then _ hnone fun w _ => ?_
  refine cwp_require_then _ hnone (fun _ => ⟨hnone, by simp [conflicts]⟩) fun hvalid => ?_
  refine cwp_alter_then _ hnone fun _ _ => ?_
  have hfirst : object = original := hnone.fresh rfl
  have hafter : Inv original
      ⟨some ⟨w.freshId, scope, .prepared, object, managed, restored⟩, object, true⟩ :=
    .of_guarded hvalid hfirst (by simp [expectedDnsObjects])
  exact cwp_pure _ hafter ⟨rfl, hafter⟩

theorem openJournal_cwp {object : DnsObject} {journal : Option Record}
    (hc : Inv original ⟨journal, object, true⟩) (operation : Operation) (scope : Scope) :
    (openJournal operation scope).cwp (obligations original)
      (fun record d => d = ⟨some record, object, true⟩ ∧ Inv original d)
      ⟨journal, object, true⟩ := by
  unfold openJournal
  split
  case isTrue => exact begin_cwp hc scope
  cases journal with
  | none =>
    refine cwp_ask_then _ hc fun _ _ => ?_
    exact cwp_throw _ hc ⟨hc, by simp [conflicts]⟩
  | some record =>
    refine cwp_mono _ (readDnsJournal_reads (obligations_tolerates original) hc) ?_
    rintro found d _ ⟨rfl, rfl⟩
    exact ⟨rfl, hc⟩

theorem dnsTransaction_cwp {c : Core} (hc : Inv original c) (operation : Operation)
    (scope : Scope) :
    (dnsTransaction operation scope).cwp (obligations original)
      (Done original operation) c := by
  have hG := obligations_tolerates original
  refine cwp_seq _ (ensureGuard_cwp hG hc) ?_
  rintro _ _ _ rfl
  refine cwp_seq _ (openJournal_cwp hc.guard operation scope) ?_
  rintro record _ _ ⟨rfl, hinv⟩
  exact resume_cwp hG hinv fun _ => ⟨hinv, by simp [conflicts]⟩

/-- The contract of the whole family of calls. -/
def lifecycleContract (original : DnsObject) : (dnsSystem original).Contract :=
  coreContract (Inv original) (Inv original)
    (fun call _ result d => Done original call.1 result d)
    (fun _ _ error d => Inv original d ∧ error ∉ conflicts)
    (fun c hinit => ⟨fun _ => hinit.2, by simp [hinit.1], by simp [hinit.1], by simp [hinit.1],
      by simp [hinit.1]⟩)
    (fun _ hc => hc) (fun _ _ _ _ hdone => hdone.inv) (fun _ _ _ _ hfailed => hfailed.1)
    (fun _ hc => hc) (fun call c hc => dnsTransaction_cwp hc call.1 call.2)

instance : IsPreorder (Ambient Core Around) (dnsSystem original).env :=
  inferInstanceAs (IsPreorder (Ambient Core Around) (sameCore fun _ => True))

end Calls

theorem Inv.unguarded {c : Core} (h : Inv original c)
    (hdown : c.guarded = false) :
    (c.journal = none ∧ c.object = original) ∨
      ∃ record, c.journal = some record ∧ (record.stage = .restored ∨ record.stage = .released) ∧
        c.object = record.restored ∧ record.restored.sha256 = original.sha256 := by
  rcases hjournal : c.journal with _ | record
  · exact Or.inl ⟨rfl, h.fresh hjournal⟩
  right
  have hstage := h.closed hdown record hjournal
  have hobject : c.object = record.restored := by
    have howned := h.owned record hjournal
    rcases hstage with hs | hs <;> simpa [expectedDnsObjects, hs] using howned
  refine ⟨record, rfl, hstage, hobject, ?_⟩
  rw [restored_sha256 (h.valid record hjournal), h.first record hjournal]

def Willing (w : Around) : Prop := ∀ method, w.refuses method = false

theorem disable_completes {c : Core}
    (hc : Inv original c) (hjournal : c.journal = some record) (w : Around) (hw : Willing w) :
    ∃ result t, (dnsTransaction .disable record.scope).run ⟨c, w⟩ = (.ok result, t) ∧
      Done original .disable result t.core := by
  have hG : Tolerates ⟨Willing, Inv original, fun _ _ => False⟩ original :=
    ⟨fun _ h => h, fun w _ method hw _ hrefuses => by simp [hw method] at hrefuses⟩
  exact Prog.run_of_cwp _ (disable_cwp hG hc hjournal) hw fun _ _ h => h

/-- Every sequence of `enable`, `recover` and `disable`, each of which may return,
fail or be killed at any moment, on an object that nobody else changes. At every
moment the object is one the durable record expects, and the guard is down only
over the original before any record or over a copy of its bytes once the
restoration is durable; no call reports a conflict; and a disable that returns,
as it does when the backend refuses nothing, ends released over the restored
object. -/
theorem dns_lifecycle_safe (original : DnsObject) :
    (∀ s, (dnsSystem original).Visited s →
      (∀ record, s.core.journal = some record → s.core.object ∈ expectedDnsObjects record) ∧
        (s.core.guarded = false →
          (s.core.journal = none ∧ s.core.object = original) ∨
            ∃ record, s.core.journal = some record ∧
              (record.stage = .restored ∨ record.stage = .released) ∧
              s.core.object = record.restored ∧
              record.restored.sha256 = original.sha256)) ∧
      (∀ operation scope s error t, (dnsSystem original).Reachable s →
        Exec (dnsSystem original).env (dnsTransaction operation scope) s (.failed error) t →
        error ∉ conflicts) ∧
      (∀ scope s result t, (dnsSystem original).Reachable s →
        Exec (dnsSystem original).env (dnsTransaction .disable scope) s (.done result) t →
        Released result t.core) ∧
      ∀ s record, (dnsSystem original).Reachable s → s.core.journal = some record →
        Willing s.around →
        ∃ result t, (dnsTransaction .disable record.scope).run s = (.ok result, t) ∧
          Released result t.core := by
  let K := lifecycleContract original
  refine ⟨?_, ?_, ?_, ?_⟩
  · intro s hs
    have hinv : Inv original s.core := (K.visited hs).2
    exact ⟨hinv.owned, hinv.unguarded⟩
  · intro operation scope s error t hs hexec
    exact (K.failed (i := (operation, scope)) hs hexec).2.2
  · intro scope s result t hs hexec
    exact (K.returned (i := (.disable, scope)) hs hexec).2.released rfl
  · intro s record hs hjournal hw
    have hinv : Inv original s.core := (K.reachable hs).2
    obtain ⟨result, t, hrun, hdone⟩ := disable_completes hinv hjournal s.around hw
    exact ⟨result, t, hrun, hdone.released rfl⟩

def sampleObject (inode : String) (digit : Char) : DnsObject :=
  ⟨"1:" ++ inode, String.ofList (List.replicate 64 digit)⟩

def sampleScope : Scope := ⟨"net:[1]", "mnt:[2]", "pid:[3]"⟩

def sampleAround : Around :=
  ⟨fun _ => false, sampleObject "12" 'b', sampleObject "13" 'a',
    String.ofList (List.replicate 32 'c')⟩

def sampleRecord : Record :=
  ⟨sampleAround.freshId, sampleScope, .active, sampleObject "11" 'a', sampleAround.managed,
    sampleAround.restored⟩

def sampleStart : Ambient Core Around := ⟨⟨none, sampleObject "11" 'a', false⟩, sampleAround⟩

/-- After an `enable` that returned, a `disable` returns and ends released. -/
theorem sample_disable_released :
    ∃ result t, (dnsTransaction .disable sampleScope).run
        ((dnsTransaction .enable sampleScope).run sampleStart).2 = (.ok result, t) ∧
      Released result t.core := by
  have hstart : (dnsSystem (sampleObject "11" 'a')).Reachable sampleStart :=
    .init ⟨trivial, rfl, rfl⟩
  have hjournal : ((dnsTransaction .enable sampleScope).run sampleStart).2.core.journal =
      some sampleRecord := by decide +kernel
  exact (dns_lifecycle_safe (sampleObject "11" 'a')).2.2.2 _ sampleRecord
    (hstart.run (i := (.enable, sampleScope))) hjournal (fun _ => rfl)

end Meshpn.Dns.Lifecycle
