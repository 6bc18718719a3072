import Meshpn.Lib.Table
import Meshpn.Lib.Text

/-!
Virtual addresses, `VirtualIPManager`. The pool is a range of numbers; the first 256 of
them are written behind the base of the network, the others with a third octet of their
own. Addresses are texts. A counter goes over the pool and never back, and reservations
are kept as last octets, to which the counter is compared.

The manager is right where these two do no harm: the counter must not give up while an
address behind it is free again, and what is reserved must be an address that its last
octet names.
-/

namespace Meshpn.Network

open Meshpn.Lib

abbrev Ip := List Char

/-- `parseInt(text, 10)`; `none` is `NaN`. -/
def parseInt (text : List Char) : Option Int :=
  let signed := text.dropWhile Char.isWhitespace
  let (negative, rest) := match signed with
    | '-' :: rest => (true, rest)
    | '+' :: rest => (false, rest)
    | rest => (false, rest)
  let digits := rest.takeWhile Char.isDigit
  if digits.isEmpty then none
  else
    let n := Nat.ofDigitChars 10 digits 0
    some (if negative then -n else n)

/-- The options of the constructor. -/
structure Config where
  networkBase : Ip
  startIp : Nat
  maxIp : Nat

def Config.default : Config := ⟨"10.200.0".toList, 2, 65534⟩

def Config.formatIp (config : Config) (lastOctets : Nat) : Ip :=
  if lastOctets ≤ 255 then config.networkBase ++ '.' :: Text.decimal lastOctets
  else
    let baseParts := Text.cut '.' config.networkBase
    baseParts.getD 0 "undefined".toList ++ '.' :: baseParts.getD 1 "undefined".toList ++
      '.' :: Text.decimal (lastOctets / 256) ++ '.' :: Text.decimal (lastOctets % 256)

/-- The base is written with a third octet of zero, as the addresses behind the first 256
continue it. -/
def Config.Plain (config : Config) : Prop :=
  ∃ first second : Ip, '.' ∉ first ∧ '.' ∉ second ∧
    config.networkBase = first ++ '.' :: second ++ ".0".toList

structure VirtualIPManager (Id : Type) where
  nextIp : Nat
  allocations : Table Ip Id
  nodeToIp : Table Id Ip
  reservedIps : List Int

inductive IpError where
  | noAvailableIp
  | alreadyAllocated (ip : Ip)
  deriving DecidableEq, Repr

namespace VirtualIPManager

variable {Id : Type} [DecidableEq Id]

def init (config : Config) : VirtualIPManager Id := ⟨config.startIp, .empty, .empty, [1, 255]⟩

/-- The address of a number of the pool may be given away. -/
def free (config : Config) (m : VirtualIPManager Id) (index : Nat) : Bool :=
  !m.allocations.has (config.formatIp index) && !m.reservedIps.contains (index : Int)

/-- The loop of `allocate`: the number it stops at, if it finds one, and the counter. -/
def nextFree (config : Config) (m : VirtualIPManager Id) : Nat → Nat → Option Nat × Nat
  | 0, nextIp => (none, nextIp)
  | fuel + 1, nextIp =>
    if nextIp ≤ config.maxIp then
      if m.free config nextIp then (some nextIp, nextIp + 1) else nextFree config m fuel (nextIp + 1)
    else (none, nextIp)

def allocate (config : Config) (m : VirtualIPManager Id) (nodeId : Id) :
    VirtualIPManager Id × Except IpError Ip :=
  match m.nodeToIp.get nodeId with
  | some ip => (m, .ok ip)
  | none =>
    match m.nextFree config (config.maxIp + 1 - m.nextIp) m.nextIp with
    | (none, nextIp) => ({ m with nextIp }, .error .noAvailableIp)
    | (some index, nextIp) =>
      let ip := config.formatIp index
      ({ m with
        nextIp
        allocations := m.allocations.set ip nodeId
        nodeToIp := m.nodeToIp.set nodeId ip }, .ok ip)

def release (m : VirtualIPManager Id) (nodeId : Id) : VirtualIPManager Id × Bool :=
  match m.nodeToIp.get nodeId with
  | none => (m, false)
  | some ip =>
    if ip.isEmpty then (m, false)
    else
      ({ m with
        allocations := m.allocations.delete ip
        nodeToIp := m.nodeToIp.delete nodeId }, true)

/-- The entries without the address that the node leaves for another. -/
def withoutExisting (m : VirtualIPManager Id) (nodeId : Id) (ip : Ip) : Table Ip Id :=
  match m.nodeToIp.get nodeId with
  | none => m.allocations
  | some existingIp =>
    if !existingIp.isEmpty && existingIp != ip then m.allocations.delete existingIp
    else m.allocations

def setAllocation (m : VirtualIPManager Id) (nodeId : Id) (ip : Ip) :
    VirtualIPManager Id × Except IpError Unit :=
  if (m.allocations.get ip).any (· ≠ nodeId) then (m, .error (.alreadyAllocated ip))
  else
    ({ m with
      allocations := (m.withoutExisting nodeId ip).set ip nodeId
      nodeToIp := m.nodeToIp.set nodeId ip }, .ok ())

/-- `parseInt(ip.split('.')[3], 10)`. -/
def lastOctet (ip : Ip) : Option Int := ((Text.cut '.' ip)[3]?).bind parseInt

/-- A last octet that is no number is recorded too, and equals nothing. -/
def reserve (m : VirtualIPManager Id) (ip : Ip) : VirtualIPManager Id :=
  { m with reservedIps := (lastOctet ip).toList ++ m.reservedIps }

end VirtualIPManager

inductive IpOp (Id : Type) where
  | allocate (nodeId : Id)
  | setAllocation (nodeId : Id) (ip : Ip)
  | reserve (ip : Ip)
  | release (nodeId : Id)

/-- A manager, and the addresses that were passed to `reserve`. -/
structure IpRun (Id : Type) where
  manager : VirtualIPManager Id
  passed : List Ip

namespace IpRun

variable {Id : Type} [DecidableEq Id]

def init (config : Config) : IpRun Id := ⟨.init config, []⟩

def step (config : Config) (r : IpRun Id) : IpOp Id → IpRun Id
  | .allocate nodeId => { r with manager := (r.manager.allocate config nodeId).1 }
  | .setAllocation nodeId ip => { r with manager := (r.manager.setAllocation nodeId ip).1 }
  | .reserve ip => ⟨r.manager.reserve ip, ip :: r.passed⟩
  | .release nodeId => { r with manager := (r.manager.release nodeId).1 }

def run (config : Config) (ops : List (IpOp Id)) : IpRun Id := ops.foldl (step config) (init config)

/-- The pool. -/
def InPool (config : Config) (index : Nat) : Prop := config.startIp ≤ index ∧ index ≤ config.maxIp

/-- What `allocate` may answer. A new address belongs to the pool and was neither held nor
reserved; it gives up if no address of the pool is left. -/
def AllocatesWell (config : Config) (r : IpRun Id) (nodeId : Id) : Prop :=
  match (r.manager.allocate config nodeId).2 with
  | .ok ip => r.manager.nodeToIp.get nodeId = some ip ∨
      r.manager.allocations.get ip = none ∧ ip ∉ r.passed ∧
        ∃ index, InPool config index ∧ ip = config.formatIp index
  | .error _ => ∀ index, InPool config index →
      r.manager.allocations.has (config.formatIp index) = true ∨
        config.formatIp index ∈ r.passed ∨ index = 1 ∨ index = 255

/-- The two maps are inverse to each other. -/
def Inverse (m : VirtualIPManager Id) : Prop :=
  ∀ ip nodeId, m.allocations.get ip = some nodeId ↔ m.nodeToIp.get nodeId = some ip

/-- As a number of the pool the last octet names this address and no other. -/
def Names (config : Config) (ip : Ip) : Prop :=
  ∀ index, InPool config index →
    (VirtualIPManager.lastOctet ip = some (index : Int) ↔ config.formatIp index = ip)

/-- The condition on an operation. A counter that finds nothing has left nothing behind. -/
def Fair (config : Config) (r : IpRun Id) : IpOp Id → Prop
  | .allocate nodeId => (r.manager.nodeToIp.get nodeId).isSome = true ∨
      (∃ index, r.manager.nextIp ≤ index ∧ index ≤ config.maxIp ∧
        r.manager.free config index = true) ∨
      ∀ index, config.startIp ≤ index → index < r.manager.nextIp →
        r.manager.free config index = false
  | .setAllocation _ ip => ip ≠ []
  | .reserve ip => Names config ip
  | .release _ => True

def AllFair (config : Config) (r : IpRun Id) : List (IpOp Id) → Prop
  | [] => True
  | op :: ops => Fair config r op ∧ AllFair config (r.step config op) ops

end IpRun

theorem formatIp_eq {config : Config} {first second : Ip} (hfirst : '.' ∉ first)
    (hsecond : '.' ∉ second) (hbase : config.networkBase = first ++ '.' :: second ++ ".0".toList)
    (index : Nat) : config.formatIp index = first ++ '.' :: (second ++ '.' ::
      (Text.decimal (index / 256) ++ '.' :: Text.decimal (index % 256))) := by
  unfold Config.formatIp
  split
  case isTrue hsmall =>
    have hdiv : index / 256 = 0 := Nat.div_eq_of_lt (by omega)
    have hmod : index % 256 = index := Nat.mod_eq_of_lt (by omega)
    rw [hdiv, hmod, hbase]
    simp [Text.decimal]
  case isFalse =>
    have hparts : Text.cut '.' config.networkBase = [first, second, "0".toList] := by
      rw [hbase, List.append_assoc, List.cons_append, Text.cut_append_dot hfirst]
      change first :: Text.cut '.' (second ++ '.' :: "0".toList) = _
      rw [Text.cut_append_dot hsecond]
      rfl
    rw [hparts]
    simp

theorem formatIp_injective {config : Config} (h : config.Plain) {i j : Nat}
    (heq : config.formatIp i = config.formatIp j) : i = j := by
  obtain ⟨first, second, hfirst, hsecond, hbase⟩ := h
  rw [formatIp_eq hfirst hsecond hbase, formatIp_eq hfirst hsecond hbase] at heq
  obtain ⟨-, heq⟩ := Text.append_dot_inj hfirst hfirst heq
  obtain ⟨-, heq⟩ := Text.append_dot_inj hsecond hsecond heq
  obtain ⟨hdiv, hmod⟩ := Text.append_dot_inj (Text.dot_not_mem_decimal _) (Text.dot_not_mem_decimal _) heq
  have hdiv := Text.decimal_injective hdiv
  have hmod := Text.decimal_injective hmod
  rw [← Nat.div_add_mod i 256, ← Nat.div_add_mod j 256, hdiv, hmod]

theorem formatIp_ne_nil (config : Config) (index : Nat) : config.formatIp index ≠ [] := by
  unfold Config.formatIp
  split <;> simp

namespace VirtualIPManager

variable {Id : Type} {config : Config} {m : VirtualIPManager Id}

theorem nextFree_none {fuel nextIp stopped : Nat} (hfuel : config.maxIp + 1 ≤ nextIp + fuel)
    (h : m.nextFree config fuel nextIp = (none, stopped)) :
    nextIp ≤ stopped ∧ ∀ index, nextIp ≤ index → index ≤ config.maxIp →
      m.free config index = false := by
  induction fuel generalizing nextIp with
  | zero =>
    cases h
    exact ⟨Nat.le_refl _, fun index hlow hhigh => by omega⟩
  | succ fuel ih =>
    rw [nextFree] at h
    split at h
    case isTrue hle =>
      split at h
      case isTrue => cases h
      rename_i htaken
      obtain ⟨hstop, hrest⟩ := ih (by omega) h
      refine ⟨by omega, fun index hlow hhigh => ?_⟩
      rcases Nat.eq_or_lt_of_le hlow with rfl | hlow
      · simpa using htaken
      · exact hrest index hlow hhigh
    case isFalse hgt =>
      cases h
      exact ⟨Nat.le_refl _, fun index hlow hhigh => by omega⟩

theorem nextFree_some {fuel nextIp index stopped : Nat}
    (h : m.nextFree config fuel nextIp = (some index, stopped)) :
    nextIp ≤ index ∧ index ≤ config.maxIp ∧ m.free config index = true ∧ stopped = index + 1 := by
  induction fuel generalizing nextIp with
  | zero => cases h
  | succ fuel ih =>
    rw [nextFree] at h
    split at h
    case isTrue hle =>
      split at h
      case isTrue hfree =>
        cases h
        exact ⟨Nat.le_refl _, hle, hfree, rfl⟩
      case isFalse =>
        obtain ⟨hlow, hrest⟩ := ih h
        exact ⟨by omega, hrest⟩
    case isFalse => cases h

theorem free_iff (index : Nat) : m.free config index = true ↔
    m.allocations.get (config.formatIp index) = none ∧ (index : Int) ∉ m.reservedIps := by
  simp [free, Table.has]

end VirtualIPManager

namespace IpRun

variable {Id : Type} [DecidableEq Id] {config : Config} {m : VirtualIPManager Id} {r : IpRun Id}

/-- What every reached state has. -/
structure Kept (config : Config) (r : IpRun Id) : Prop where
  inverse : Inverse r.manager
  named : ∀ nodeId, r.manager.nodeToIp.get nodeId ≠ some []
  counter : config.startIp ≤ r.manager.nextIp
  reserved : ∀ index, InPool config index →
    ((index : Int) ∈ r.manager.reservedIps ↔
      config.formatIp index ∈ r.passed ∨ index = 1 ∨ index = 255)

variable {nodeId : Id}

theorem Inverse.give {ip : Ip} (h : Inverse m)
    (hfree : m.allocations.get ip = none) (hnone : m.nodeToIp.get nodeId = none) (nextIp : Nat) :
    Inverse (⟨nextIp, m.allocations.set ip nodeId, m.nodeToIp.set nodeId ip, m.reservedIps⟩ :
      VirtualIPManager Id) := by
  intro other id
  dsimp only
  rw [Table.get_set, Table.get_set]
  by_cases hip : ip = other
  · subst hip
    by_cases hid : nodeId = id
    · simp [hid]
    · rw [if_pos rfl, if_neg hid, ← h, hfree]
      simp [hid]
  · by_cases hid : nodeId = id
    · subst hid
      rw [if_neg hip, if_pos rfl, h, hnone]
      simp [hip]
    · rw [if_neg hip, if_neg hid, h]

theorem Inverse.release (h : Inverse m) : Inverse (m.release nodeId).1 := by
  unfold VirtualIPManager.release
  split
  case h_1 => exact h
  rename_i ip hip
  split
  case isTrue => exact h
  intro other id
  dsimp only
  rw [Table.get_delete, Table.get_delete]
  by_cases hother : ip = other
  · subst hother
    by_cases hid : nodeId = id
    · simp [hid]
    have hheld := (h ip nodeId).mpr hip
    rw [if_pos rfl, if_neg hid, ← h, hheld]
    simp [hid]
  · by_cases hid : nodeId = id
    · subst hid
      rw [if_neg hother, if_pos rfl, h, hip]
      simp [hother]
    · rw [if_neg hother, if_neg hid, h]

theorem withoutExisting_get {ip other : Ip} {id : Id} (h : Inverse m)
    (hnamed : m.nodeToIp.get nodeId ≠ some []) (hother : ip ≠ other) :
    (m.withoutExisting nodeId ip).get other = some id ↔
      nodeId ≠ id ∧ m.nodeToIp.get id = some other := by
  unfold VirtualIPManager.withoutExisting
  split
  case h_1 hnone =>
    rw [h, iff_and_self]
    rintro hid rfl
    rw [hnone] at hid
    cases hid
  case h_2 existing hexisting =>
    have hne : existing ≠ [] := fun hnil => hnamed (hnil ▸ hexisting)
    split
    case isTrue =>
      rw [Table.get_delete]
      by_cases heq : existing = other
      · subst heq
        rw [if_pos rfl]
        have hheld := (h existing nodeId).mpr hexisting
        constructor
        · intro hnone
          cases hnone
        · rintro ⟨hid, hget⟩
          rw [← h, hheld, Option.some.injEq] at hget
          exact absurd hget hid
      · rw [if_neg heq, h, iff_and_self]
        rintro hget rfl
        rw [hexisting, Option.some.injEq] at hget
        exact heq hget
    case isFalse hsame =>
      have heq : existing = ip := by
        by_contra hdiff
        exact hsame (by simp [hne, hdiff])
      rw [h, iff_and_self]
      rintro hget rfl
      rw [hexisting, Option.some.injEq] at hget
      exact hother (heq ▸ hget)

theorem Inverse.setAllocation {ip : Ip} (h : Inverse m)
    (hnamed : m.nodeToIp.get nodeId ≠ some []) : Inverse (m.setAllocation nodeId ip).1 := by
  unfold VirtualIPManager.setAllocation
  split
  case isTrue => exact h
  rename_i hallowed
  intro other id
  dsimp only
  rw [Table.get_set, Table.get_set]
  by_cases hother : ip = other
  · subst hother
    rw [if_pos rfl]
    by_cases hid : nodeId = id
    · simp [hid]
    rw [if_neg hid, ← h]
    have hnot : m.allocations.get ip ≠ some id := by
      intro hheld
      exact hallowed (by simp [hheld, Ne.symm hid])
    simp [hid, hnot]
  · rw [if_neg hother, withoutExisting_get h hnamed hother]
    by_cases hid : nodeId = id
    · simp [hid, hother]
    · simp [hid]

theorem kept_init : Kept config (init config : IpRun Id) := by
  refine ⟨?_, ?_, Nat.le_refl _, ?_⟩
  · intro ip nodeId
    simp [init, VirtualIPManager.init]
  · intro nodeId
    simp [init, VirtualIPManager.init]
  · intro index _
    simp only [init, VirtualIPManager.init, List.mem_cons, List.not_mem_nil, or_false, false_or]
    omega

theorem allocate_kept (h : Kept config r) :
    Kept config (r.step config (.allocate nodeId)) := by
  unfold step VirtualIPManager.allocate
  dsimp only
  split
  case h_1 => exact h
  rename_i hnone
  split
  case h_1 stopped hsearch =>
    obtain ⟨hlow, -⟩ := VirtualIPManager.nextFree_none (by omega) hsearch
    exact ⟨h.inverse, h.named, Nat.le_trans h.counter hlow, h.reserved⟩
  rename_i index stopped hsearch
  obtain ⟨hlow, -, hfree, rfl⟩ := VirtualIPManager.nextFree_some hsearch
  obtain ⟨hunheld, -⟩ := (VirtualIPManager.free_iff index).mp hfree
  refine ⟨h.inverse.give hunheld hnone _, ?_, ?_, h.reserved⟩
  · intro id
    dsimp only
    rw [Table.get_set]
    split
    · simpa using formatIp_ne_nil config index
    · exact h.named id
  · have hcounter := h.counter
    dsimp only
    omega

theorem step_kept {op : IpOp Id} (h : Kept config r) (hfair : Fair config r op) :
    Kept config (r.step config op) := by
  cases op with
  | allocate nodeId => exact allocate_kept h
  | release nodeId =>
    refine ⟨h.inverse.release, ?_, ?_, ?_⟩ <;>
      simp only [step, VirtualIPManager.release] <;> split
    · exact h.named
    · split
      · exact h.named
      · intro id
        dsimp only
        rw [Table.get_delete]
        split
        · exact fun hnone => by cases hnone
        · exact h.named id
    · exact h.counter
    · split <;> exact h.counter
    · exact h.reserved
    · split <;> exact h.reserved
  | setAllocation nodeId ip =>
    have hip : ip ≠ [] := hfair
    refine ⟨h.inverse.setAllocation (h.named nodeId), ?_, ?_, ?_⟩ <;>
      simp only [step, VirtualIPManager.setAllocation] <;> split
    · exact h.named
    · intro id
      dsimp only
      rw [Table.get_set]
      split
      · simpa using hip
      · exact h.named id
    · exact h.counter
    · exact h.counter
    · exact h.reserved
    · exact h.reserved
  | reserve ip =>
    refine ⟨h.inverse, h.named, h.counter, ?_⟩
    intro index hindex
    have hnames : VirtualIPManager.lastOctet ip = some (index : Int) ↔ config.formatIp index = ip :=
      hfair index hindex
    simp only [step, VirtualIPManager.reserve, List.mem_append, Option.mem_toList,
      List.mem_cons, h.reserved index hindex, hnames, or_assoc]

theorem run_kept {ops : List (IpOp Id)} (h : Kept config r) (hfair : AllFair config r ops) :
    Kept config (ops.foldl (step config) r) := by
  induction ops generalizing r with
  | nil => exact h
  | cons op ops ih => exact ih (step_kept h hfair.1) hfair.2

theorem Kept.allocates (h : Kept config r)
    (hfair : Fair config r (.allocate nodeId)) : AllocatesWell config r nodeId := by
  unfold AllocatesWell VirtualIPManager.allocate
  cases hheld : r.manager.nodeToIp.get nodeId with
  | some ip => exact .inl rfl
  | none =>
    dsimp only
    cases hsearch : r.manager.nextFree config (config.maxIp + 1 - r.manager.nextIp)
        r.manager.nextIp with
    | mk found stopped =>
      cases found with
      | some index =>
        obtain ⟨hlow, hhigh, hfree, -⟩ := VirtualIPManager.nextFree_some hsearch
        obtain ⟨hunheld, hunreserved⟩ := (VirtualIPManager.free_iff index).mp hfree
        have hpool : InPool config index := ⟨Nat.le_trans h.counter hlow, hhigh⟩
        refine .inr ⟨hunheld, fun hin => hunreserved ?_, index, hpool, rfl⟩
        exact (h.reserved index hpool).mpr (.inl hin)
      | none =>
        obtain ⟨-, hahead⟩ := VirtualIPManager.nextFree_none (by omega) hsearch
        have hbehind : ∀ index, config.startIp ≤ index → index < r.manager.nextIp →
            r.manager.free config index = false := by
          rcases hfair with hsome | ⟨index, hlow, hhigh, hfree⟩ | hbehind
          · rw [hheld] at hsome
            cases hsome
          · rw [hahead index hlow hhigh] at hfree
            cases hfree
          · exact hbehind
        intro index hpool
        have hnone : ¬ r.manager.free config index = true := by
          rw [Bool.not_eq_true]
          rcases Nat.lt_or_ge index r.manager.nextIp with hlt | hge
          · exact hbehind index hpool.1 hlt
          · exact hahead index hge hpool.2
        rw [VirtualIPManager.free_iff, not_and_or, not_not, h.reserved index hpool] at hnone
        refine hnone.imp_left fun hget => ?_
        rw [Table.has]
        exact Option.ne_none_iff_isSome.mp hget

/-- In every run whose operations meet the condition the maps are inverse, numbers have
addresses of their own, and an allocation that meets it answers well. -/
theorem reached_manager_correct (config : Config) (hplain : config.Plain) (ops : List (IpOp Id))
    (hfair : AllFair config (init config) ops) :
    Inverse (run config ops).manager ∧
      (∀ i j, config.formatIp i = config.formatIp j → i = j) ∧
      ∀ nodeId, Fair config (run config ops) (.allocate nodeId) →
        AllocatesWell config (run config ops) nodeId := by
  have hkept : Kept config (run config ops) := run_kept kept_init hfair
  exact ⟨hkept.inverse, fun i j => formatIp_injective hplain, fun nodeId => hkept.allocates⟩

/-- A reserved address behind the first 256 is given away; and the only address of a pool is
never given again after it was released. -/
theorem reserved_address_allocated :
    ((run ⟨"10.200.0".toList, 256, 65534⟩ [.reserve "10.200.1.0".toList] : IpRun Nat).manager.allocate
      ⟨"10.200.0".toList, 256, 65534⟩ 1).2 = .ok "10.200.1.0".toList ∧
    ((run ⟨"10.200.0".toList, 2, 2⟩ [.allocate 1, .release 1] : IpRun Nat).manager.allocate
      ⟨"10.200.0".toList, 2, 2⟩ 2).2 = .error .noAvailableIp := by
  decide +kernel

/-- With the default options: an address of the first 256 is reserved, and skipped. -/
theorem reserved_address_skipped :
    Inverse (run Config.default [.reserve "10.200.0.2".toList, .allocate 1] : IpRun Nat).manager ∧
    AllocatesWell Config.default (run Config.default [.reserve "10.200.0.2".toList]) (1 : Nat) := by
  have hplain : Config.default.Plain := ⟨"10".toList, "200".toList, by decide, by decide, rfl⟩
  have hnames : Names Config.default "10.200.0.2".toList := by
    have htwo : Config.default.formatIp 2 = "10.200.0.2".toList := by decide +kernel
    have hoctet : VirtualIPManager.lastOctet "10.200.0.2".toList = some 2 := by decide +kernel
    intro index _
    rw [hoctet, ← htwo, Option.some.injEq]
    constructor
    · intro heq
      rw [show index = 2 by omega]
    · intro heq
      rw [formatIp_injective hplain heq]
      rfl
  have hahead : Fair Config.default (run Config.default [.reserve "10.200.0.2".toList])
      (.allocate (1 : Nat)) := .inr (.inl ⟨3, by decide, by decide, by decide +kernel⟩)
  exact ⟨(reached_manager_correct Config.default hplain [.reserve "10.200.0.2".toList, .allocate 1]
      ⟨hnames, hahead, trivial⟩).1,
    (reached_manager_correct Config.default hplain [.reserve "10.200.0.2".toList]
      ⟨hnames, trivial⟩).2.2 1 hahead⟩

end IpRun

end Meshpn.Network
