import Meshpn.Host.RouteSafety

/-!
The operations on the host routes keep the invariant, and a restore that completes leaves the
kernel as it was. `repairUplink` does so where the durable journal lists what the memory lists
on the uplink.
-/

namespace Meshpn.Host

open Meshpn.Lib

section Operations

variable {original : Nat}

theorem begin_triple (tun : Dev) :
    Triple Drift (Inv original) (fun _ => True) (begin tun) (fun _ _ => True) := by
  have hinv := inv_stable original
  refine .bind (R := fun found => Journals fun _ memory => memory = found)
    (.read hinv (.const True) (fun _ => journals_stable _) (fun _ _ _ => rfl)) (fun found => ?_)
  have hmemory := journals_stable fun _ memory => memory = found
  refine .require_then hinv hmemory (fun hidle => .require_then hinv hmemory (fun _ => ?_))
  refine .bind (query_keeps _ hmemory) (fun current => ?_)
  rcases current.get tun with _ | l
  · exact .throw hinv
  refine store_triple hmemory (.const True) (fun w hw hp => ?_) (fun _ _ _ => trivial)
  have hresting := hw.resting (show idle w.memory = true from hp ▸ hidle)
  exact
    { rows := fun row hrow hours => by
        rw [hresting.1 row hrow] at hours
        cases hours
      noted := fun _ h => by cases h
      relaxed := fun h => absurd hresting.2 h
      released := fun h => by cases h }

variable {s : State} {w : World}

theorem Inv.listed (hw : Inv original w) (hmemory : w.memory = some s)
    {row : Row} (hrow : row ∈ w.kernel.rows) (hours : row.ours = true) :
    ∃ r ∈ s.routes, r.row = row :=
  lists_some.mp (hmemory ▸ hw.memory row hrow hours)

theorem Inv.rp_noted (hw : Inv original w) (hmemory : w.memory = some s)
    {value : Nat} (hrp : s.rp = some value) : value = original :=
  hw.notedMemory value (by simp [noted, hmemory, hrp])

theorem Inv.rp_relaxed (hw : Inv original w)
    (hmemory : w.memory = some s) (hrp : w.kernel.rpFilter ≠ original) :
    s.rp = some original := by
  have hnoted := (hw.relaxed hrp).2
  rwa [hmemory] at hnoted

/-- The journal in memory may be stored again with other routes, if those of the kernel are among
them. -/
theorem Inv.accounts {s next : State} (hw : Inv original w)
    (hmemory : w.memory = some s) (hrp : next.rp = s.rp) (hstage : next.stage ≠ .released)
    (hrows : ∀ row ∈ w.kernel.rows, row.ours = true → ∃ r ∈ next.routes, r.row = row) :
    Accounts original next w where
  rows := hrows
  noted := fun _ h => hw.rp_noted hmemory (hrp ▸ h)
  relaxed := fun h => hrp ▸ hw.rp_relaxed hmemory h
  released := fun h => absurd h hstage

theorem add_row_triple {r : Route} (hactive : s.stage = .active) :
    Triple Drift (Inv original) (Knows s) (addRow s r) (fun _ _ => True) := by
  have hinv := inv_stable original
  refine .bind (query_keeps _ (journals_stable _)) (fun current => ?_)
  rcases current.get r.dev with _ | l
  · exact .throw hinv
  refine .bind (R := fun _ =>
    Saved { s with links := s.links.set r.dev l, routes := s.routes ++ [r] }) ?_ (fun _ => ?_)
  · refine store_triple (journals_stable _) (journals_stable _) (fun w hw hp => ?_)
      (fun _ _ _ => ⟨rfl, rfl⟩)
    refine hw.accounts hp rfl (by simp [hactive]) (fun row hrow hours => ?_)
    obtain ⟨found, hfound, heq⟩ := hw.listed hp hrow hours
    exact ⟨found, List.mem_append_left _ hfound, heq⟩
  · refine .bind (route_add_triple ?_) (fun _ => ?_)
    · rintro durable memory ⟨rfl, rfl⟩
      have hmem : r ∈ s.routes ++ [r] := by simp
      exact ⟨lists_some.mpr ⟨r, hmem, rfl⟩, lists_some.mpr ⟨r, hmem, rfl⟩⟩
    · refine .bind (audit_keeps (journals_stable _) _ _) (fun table => ?_)
      exact (Triple.require hinv (journals_stable _)).conseq (fun _ _ h => h)
        (fun _ _ _ _ => trivial)

theorem add_triple (destination : Dst) (dev : Dev) (gateway : Option Ip) :
    Triple Drift (Inv original) (fun _ => True) (add destination dev gateway)
      (fun _ _ => True) := by
  have hinv := inv_stable original
  refine .bind require_state_triple (fun s => ?_)
  have hs := journals_stable fun _ memory => memory = some s
  refine .require_then hinv hs (fun hstage => .require_then hinv hs (fun _ =>
    .require_then hinv hs (fun _ => .bind (audit_keeps hs s false) (fun table => ?_))))
  have hactive : s.stage = .active := by simpa using hstage
  have hend : ∀ (condition : Bool) (message : String), Triple Drift (Inv original) (Knows s)
      (Prog.require condition message) (fun _ _ => True) := fun condition message =>
    (Triple.require hinv hs).conseq (fun _ _ h => h) (fun _ _ _ _ => trivial)
  cases s.routes.find? (fun v => v.dst == destination) with
  | some previous => exact .require_then hinv hs (fun _ => hend _ _)
  | none =>
    cases table.filter fun row => row.dst == destination with
    | nil => exact add_row_triple hactive
    | cons row rest => exact hend _ _

theorem audit_uplink_keeps {P : World → Prop} (hP : Stable Drift P) (s : State) (dev : Dev)
    (gateway : Option Ip) (target : Dst) :
    Triple Drift (Inv original) P (auditUplink s dev gateway target) (fun _ => P) := by
  have hinv := inv_stable original
  refine .bind (audit_keeps hP s true) (fun table => .require_then hinv hP (fun _ => ?_))
  split
  · exact .ret hinv hP (fun _ _ h => h)
  · exact .require_then hinv hP (fun _ => .ret hinv hP (fun _ _ h => h))

/-- Both journals list the routes of the memory on the uplink. -/
abbrev Durably (s : State) (dev : Dev) : World → Prop :=
  Journals fun durable memory =>
    memory = some s ∧ ∀ r ∈ s.routes, r.dev = dev → lists durable r.row = true

theorem repair_rows_triple {dev : Dev} {gateway : Option Ip} {target : Dst}
    {routes : List Route} (hroutes : ∀ r ∈ routes, r ∈ s.routes ∧ r.dev = dev)
    (table : List Row) :
    Triple Drift (Inv original) (Durably s dev) (repairRows s dev gateway target routes table)
      (fun _ _ => True) := by
  have hinv := inv_stable original
  have hP := journals_stable fun durable memory =>
    memory = some s ∧ ∀ r ∈ s.routes, r.dev = dev → lists durable r.row = true
  induction routes generalizing table with
  | nil => exact .ret hinv hP (fun _ _ _ => trivial)
  | cons r rest ih =>
    obtain ⟨hmem, hdev⟩ := hroutes r List.mem_cons_self
    have hrest := ih (fun other hother => hroutes other (List.mem_cons_of_mem _ hother))
    refine .require_then hinv hP (fun _ => ?_)
    split
    · exact hrest table
    refine .bind (route_add_triple ?_) (fun _ => ?_)
    · rintro durable memory ⟨rfl, hdurable⟩
      exact ⟨hdurable r hmem hdev, lists_some.mpr ⟨r, hmem, rfl⟩⟩
    · refine .bind (audit_uplink_keeps hP s dev gateway target) (fun after => ?_)
      exact .require_then hinv hP (fun _ => hrest after)

theorem repair_uplink_triple (dev : Dev) (gateway : Option Ip) (serverIp : Ip) :
    Triple Drift (Inv original)
      (Journals fun durable memory => ∀ s, memory = some s →
        ∀ r ∈ s.routes, r.dev = dev → lists durable r.row = true)
      (repairUplink dev gateway serverIp) (fun _ _ => True) := by
  have hinv := inv_stable original
  have hmay := journals_stable fun durable memory => ∀ s, memory = some s →
    ∀ r ∈ s.routes, r.dev = dev → lists durable r.row = true
  refine .bind (R := fun s => Durably s dev) ?_ (fun s => ?_)
  · refine .bind (R := fun found => Journals fun durable memory => memory = found ∧
      ∀ s, memory = some s → ∀ r ∈ s.routes, r.dev = dev → lists durable r.row = true)
      (.read hinv hmay (fun _ => journals_stable _) (fun _ _ hp => ⟨rfl, hp⟩)) (fun found => ?_)
    cases found with
    | none => exact .throw hinv
    | some s => exact .ret hinv (journals_stable _) (fun _ _ h => ⟨h.1, h.2 s h.1⟩)
  · have hP := journals_stable fun durable memory =>
      memory = some s ∧ ∀ r ∈ s.routes, r.dev = dev → lists durable r.row = true
    refine .require_then hinv hP (fun _ => .require_then hinv hP (fun _ =>
      .require_then hinv hP (fun _ => .require_then hinv hP (fun _ =>
        .bind (audit_uplink_keeps hP s dev gateway _) (fun table => ?_)))))
    exact repair_rows_triple (fun r hr => by simpa using hr) table

theorem relax_rp_filter_triple :
    Triple Drift (Inv original) (fun _ => True) relaxRpFilter (fun _ _ => True) := by
  have hinv := inv_stable original
  refine .bind require_state_triple (fun s => ?_)
  have hs := journals_stable fun _ memory => memory = some s
  refine .require_then hinv hs (fun hstage => .bind (audit_keeps hs s false) (fun _ =>
    .require_then hinv hs (fun hnone => .bind (query_rp_triple hs) (fun before => ?_))))
  have hactive : s.stage = .active := by simpa using hstage
  have hrp : s.rp = none := by simpa using hnone
  have hbefore := (rp_stable before).and hs
  split
  · exact .ret hinv hbefore (fun _ _ _ => trivial)
  have hvalue : ∀ w, Inv original w → Rp before w ∧ Knows s w → before = original := by
    intro w hw hp
    by_contra hother
    have hnoted := hw.rp_relaxed hp.2 (hp.1.symm ▸ hother)
    rw [hrp] at hnoted
    cases hnoted
  refine .bind (R := fun _ w => before = original ∧ Saved { s with rp := some before } w)
    ?_ (fun _ => .given (fun heq => ?_))
  · refine store_triple hbefore ((Stable.const _).and (journals_stable _))
      (fun w hw hp => ?_) (fun w hw hp => ⟨hvalue w hw hp, rfl, rfl⟩)
    have heq := hvalue w hw hp
    exact
      { rows := fun row hrow hours => hw.listed hp.2 hrow hours
        noted := fun _ h => (Option.some.inj h).symm.trans heq
        relaxed := fun _ => congrArg some heq
        released := fun h => by rw [hactive] at h; cases h }
  · refine .bind (set_rp_triple ?_) (fun _ => ?_)
    · rintro durable memory ⟨rfl, rfl⟩ _
      exact ⟨congrArg some heq, congrArg some heq⟩
    · refine .bind (query_rp_triple (journals_stable _)) (fun after => ?_)
      exact (Triple.require hinv ((rp_stable after).and (journals_stable _))).conseq
        (fun _ _ h => h) (fun _ _ _ _ => trivial)

/-- A table that fits the journal, without the row of a route, has nothing at its destination. -/
theorem vacant_of_fit {r : Route} {table : List Row}
    (hr : r ∈ s.routes) (hfit : s.routes.all (rowsFit table) = true)
    (hgone : (!table.any (owned · r)) = true) (hcovers : Covers table w) :
    Vacant r.dst w := by
  intro row hrow hours hdst
  have hfits := List.all_eq_true.mp hfit r hr
  simp only [rowsFit, Bool.and_eq_true, List.all_eq_true] at hfits
  have hfound : row ∈ table.filter fun other => other.dst == r.dst := by
    simp [hcovers row hrow hours, hdst]
  have hany : table.any (owned · r) = true :=
    List.any_eq_true.mpr ⟨row, hcovers row hrow hours, hfits.2 row hfound⟩
  rw [hany] at hgone
  cases hgone

theorem remove_row_triple {r : Route} (hr : r ∈ s.routes) :
    Triple Drift (Inv original) (Saved s) (removeRow s r)
      (fun _ w => Vacant r.dst w ∧ Saved s w) := by
  have hinv := inv_stable original
  have hs := journals_stable fun durable memory => durable = some s ∧ memory = some s
  refine .bind (audit_keeps hs s false) (fun table => ?_)
  refine .bind (R := fun _ => Saved s) ?_ (fun _ => ?_)
  · rw [dropRow]
    split
    · exact route_del_triple _ r
    · exact .ret hinv hs (fun _ _ h => h)
  · refine .bind (audit_triple hs s false) (fun left => .given (fun hfit => ?_))
    exact (Triple.require hinv ((covers_stable left).and hs)).conseq (fun _ _ h => h)
      (fun _ _ _ h => ⟨vacant_of_fit hr hfit h.1 h.2.1, h.2.2⟩)

theorem remove_rows_triple (hstage : s.stage = .restoring) (routes : List Route) :
    Triple Drift (Inv original) (Saved { s with routes := routes.reverse })
      (removeRows s routes) (fun _ => Saved { s with routes := [] }) := by
  have hinv := inv_stable original
  induction routes with
  | nil => exact .ret hinv (journals_stable _) (fun _ _ h => h)
  | cons r rest ih =>
    have hlast : r ∈ (r :: rest).reverse := by simp
    refine .bind (remove_row_triple hlast) (fun _ => ?_)
    refine .bind (R := fun _ => Saved { s with routes := rest.reverse }) ?_ (fun _ => ih)
    refine store_triple ((vacant_stable r.dst).and (journals_stable _)) (journals_stable _)
      (fun w hw hp => ?_) (fun _ _ _ => ⟨rfl, rfl⟩)
    refine hw.accounts hp.2.2 rfl (by simp [hstage]) (fun row hrow hours => ?_)
    obtain ⟨found, hfound, heq⟩ := hw.listed hp.2.2 hrow hours
    have hother : found ≠ r := by
      rintro rfl
      exact hp.1 row hrow hours (heq ▸ rfl)
    refine ⟨found, ?_, heq⟩
    simpa [hother] using hfound

theorem restore_rp_triple (s : State) :
    Triple Drift (Inv original) (Saved s) (restoreRp s)
      (fun _ w => Rp original w ∧ Saved s w) := by
  have hinv := inv_stable original
  have hs := journals_stable fun durable memory => durable = some s ∧ memory = some s
  refine .bind (audit_keeps hs s false) (fun _ => ?_)
  cases hrp : s.rp with
  | none =>
    refine .ret hinv hs (fun w hw hp => ⟨?_, hp⟩)
    by_contra hother
    have hnoted := hw.rp_relaxed hp.2 hother
    rw [hrp] at hnoted
    cases hnoted
  | some value =>
    refine .bind (R := fun _ w => value = original ∧ Saved s w)
      ((query_rp_triple hs).conseq (fun _ _ h => h)
        (fun _ w hw h => ⟨hw.rp_noted h.2.2 hrp, h.2⟩))
      (fun before => .given (fun heq => ?_))
    subst heq
    refine .bind (R := fun _ => Saved s) ?_ (fun _ => ?_)
    · rw [resetRp]
      split
      · exact set_rp_triple (fun _ _ _ hne => absurd rfl hne)
      · exact .ret hinv hs (fun _ _ h => h)
    · refine .bind (query_rp_triple hs) (fun after => ?_)
      refine (Triple.require hinv ((rp_stable after).and hs)).conseq (fun _ _ h => h)
        (fun _ w _ h => ⟨?_, h.2.2⟩)
      have hafter : after = value := by simpa using h.1
      exact hafter ▸ h.2.1

/-- An idle journal is all that a completed restore leaves. -/
abbrev Idle : World → Prop := Journals fun _ memory => idle memory = true

theorem released_valid (hvalid : validHostRouteState s = true)
    (hroutes : s.routes = []) :
    validHostRouteState { s with rp := none, stage := .released } = true := by
  simp only [validHostRouteState, hroutes, Bool.and_eq_true] at hvalid ⊢
  obtain ⟨⟨⟨⟨⟨⟨⟨⟨htun, -⟩, -⟩, -⟩, hlinks⟩, hhas⟩, hcount⟩, -⟩, -⟩ := hvalid
  exact ⟨⟨⟨⟨⟨⟨⟨⟨htun, rfl⟩, rfl⟩, rfl⟩, hlinks⟩, hhas⟩, hcount⟩, rfl⟩, rfl⟩

theorem restore_triple :
    Triple Drift (Inv original) (fun _ => True) restore (fun _ => Idle) := by
  have hinv := inv_stable original
  refine .bind (R := fun found => Journals fun _ memory => memory = found)
    (.read hinv (.const True) (fun _ => journals_stable _) (fun _ _ _ => rfl)) (fun found => ?_)
  have hfound := journals_stable fun _ memory => memory = found
  cases found with
  | none =>
    refine .ret hinv hfound (fun w _ hp => ?_)
    exact show idle w.memory = true from hp ▸ rfl
  | some s =>
    simp only
    split
    · rename_i hreleased
      refine .ret hinv hfound (fun w _ hp => ?_)
      exact show idle w.memory = true from hp ▸ by simp [idle, hreleased]
    refine .bind (audit_keeps hfound s false) (fun _ => ?_)
    refine .bind (R := fun _ => Saved { s with stage := .restoring }) ?_ (fun _ => ?_)
    · refine store_triple hfound (journals_stable _) (fun w hw hp => ?_)
        (fun _ _ _ => ⟨rfl, rfl⟩)
      exact hw.accounts hp rfl (by simp) (fun row hrow hours => hw.listed hp hrow hours)
    refine .bind (R := fun _ => Saved { s with stage := .restoring, routes := [] }) ?_
      (fun _ => ?_)
    · have hrows : Triple Drift (Inv original) _ _ _ :=
        remove_rows_triple (s := { s with stage := .restoring }) rfl s.routes.reverse
      simpa using hrows
    refine .bind (restore_rp_triple _) (fun _ => ?_)
    refine store_triple ((rp_stable original).and (journals_stable _)) (journals_stable _)
      (fun w hw hp => ?_) (fun _ _ _ => rfl)
    exact
      { rows := fun row hrow hours => hw.listed hp.2.2 hrow hours
        noted := fun _ h => by cases h
        relaxed := fun h => absurd hp.1 h
        released := fun _ => released_valid (hw.valid _ hp.2.1) rfl }

end Operations

/-- What the memory lists on the uplink that is repaired, the durable journal lists as well. -/
def durablyListed : Operation → World → Prop
  | .repairUplink dev _ _, w => ∀ s, w.memory = some s →
      ∀ r ∈ s.routes, r.dev = dev → lists w.durable r.row = true
  | _, _ => True

def leaves : Operation → Unit → World → Prop
  | .restore, _, w => idle w.memory = true
  | _, _, _ => True

variable {original : Nat}

theorem Inv.reopened {w : World} (h : Inv original w) :
    Inv original { w with memory := w.durable } :=
  { h with
    memory := h.durable
    relaxed := fun hrp => ⟨(h.relaxed hrp).1, (h.relaxed hrp).1⟩
    notedMemory := h.notedDurable
    idle := fun _ => rfl }

theorem reopen_triple :
    Triple Drift (Inv original) (fun _ => True) Operation.reopen.program (fun _ _ => True) := by
  refine .atomic (inv_stable original) (.const True) (fun w hw _ u hwu => ?_)
  exact ⟨inv_stable original _ u hwu hw.reopened, trivial⟩

theorem fresh_inv {w : World} (h : Fresh original w) : Inv original w where
  durable := fun row hrow hours => by
    rw [h.rows row hrow] at hours
    cases hours
  memory := fun row hrow hours => by
    rw [h.rows row hrow] at hours
    cases hours
  added := fun row hrow hours => by
    rw [h.rows row hrow] at hours
    cases hours
  deleted := fun row hrow => by
    rw [h.deleted] at hrow
    cases hrow
  relaxed := fun hrp => absurd h.rpFilter hrp
  notedDurable := fun _ hnoted => by
    rw [h.durable] at hnoted
    cases hnoted
  notedMemory := fun _ hnoted => by
    rw [h.memory] at hnoted
    cases hnoted
  valid := fun _ hs => by
    rw [h.durable] at hs
    cases hs
  idle := fun _ => h.durable.trans h.memory.symm

theorem host_routes_keep (original : Nat) :
    (hostRoutes original).Keeps durablyListed (Inv original) leaves where
  init := fun _ h => fresh_inv h
  stable := inv_stable original
  restart := fun _ h => h.reopened
  call := by
    intro i
    cases i with
    | reopen => exact reopen_triple
    | begin tun => exact begin_triple tun
    | add destination dev gateway => exact add_triple destination dev gateway
    | repairUplink dev gateway serverIp => exact repair_uplink_triple dev gateway serverIp
    | relaxRpFilter => exact relax_rp_filter_triple
    | restore => exact restore_triple

theorem restore_idle {w u : World} {outcome : Outcome Unit} (hidle : idle w.memory = true)
    (h : Exec Drift restore w outcome u) : Drift w u := by
  refine (Exec.sound (Q := fun _ _ => True) ⟨Drift, Drift w, fun _ _ => True⟩ h ?_).1
  have hpure : ∀ t, Drift w t → (pure () : Txn Unit).wp
      ⟨Drift, Drift w, fun _ _ => True⟩ (fun _ _ => True) t := by
    intro t hwt v htv
    exact ⟨IsTrans.trans _ _ _ hwt htv, trivial⟩
  intro t hwt
  refine ⟨hwt, ?_⟩
  have hmemory : t.memory = w.memory := hwt.memory
  cases hfound : w.memory with
  | none =>
    simp only [hmemory, hfound]
    exact hpure t hwt
  | some s =>
    have hreleased : s.stage = .released := by simpa [idle, hfound] using hidle
    simp only [hmemory, hfound]
    change (if s.stage = .released then pure () else _ : Txn Unit).wp _ _ _
    rw [if_pos hreleased]
    exact hpure t hwt

/-- What a completed restore leaves. -/
structure Restored (original : Nat) (w : World) : Prop where
  rows : ∀ row ∈ w.kernel.rows, row.ours = false
  rpFilter : w.kernel.rpFilter = original
  journal : idle w.durable = true

/-- Where `repairUplink` finds what it adds listed durably, every row of this program is listed at
every moment, only rows of this program are ever deleted, and a restore that completes has put
everything back; another one changes nothing. -/
theorem host_routes_recover (original : Nat) :
    (∀ w, (hostRoutes original).VisitedIf durablyListed w →
      (∀ row ∈ w.kernel.rows, row.ours = true → lists w.durable row = true) ∧
        ∀ row ∈ w.deleted, row ∈ w.added) ∧
    ∀ s t, (hostRoutes original).ReachableIf durablyListed s →
      Exec (hostRoutes original).env restore s (.done ()) t →
      Restored original t ∧
        ∀ outcome u, Exec (hostRoutes original).env restore t outcome u →
          (hostRoutes original).env t u := by
  have K := host_routes_keep original
  constructor
  · intro w hw
    have h := K.visited hw
    exact ⟨h.durable, h.deleted⟩
  · intro s t hs hexec
    have hidle : idle t.memory = true := K.returned (i := .restore) hs trivial hexec
    have hinv : Inv original t :=
      K.reachable (.returned (i := Operation.restore) hs trivial hexec)
    refine ⟨⟨(hinv.resting hidle).1, (hinv.resting hidle).2, ?_⟩, ?_⟩
    · rw [hinv.idle hidle]
      exact hidle
    · exact fun outcome u hagain => restore_idle hidle hagain

/-- A host with a TUN and 16 other interfaces, the last of which has the default route. -/
def busyHost : World where
  durable := none
  memory := none
  kernel :=
    { links := ⟨(['t'], ⟨1, [], []⟩) :: (List.range 16).map fun n =>
          (['e', Char.ofNat (97 + n)], ⟨n + 2, [], []⟩), by decide +kernel⟩
      rows := [⟨.all, ['e', 'p'], some 1, 3, none, none, true, false, false, false⟩]
      rpFilter := 0 }
  outside := ⟨false, false, false⟩
  added := []
  deleted := []

/-- A route over each interface; the 17th interface of the journal is one too many. -/
def crowd : List Operation :=
  .begin ['t'] :: (List.range 16).map fun n =>
    .add (.host (BitVec.ofNat 32 (n + 5))) ['e', Char.ofNat (97 + n)] (some 1)

def runAll (w : World) (operations : List Operation) : World :=
  operations.foldl (fun w operation => (operation.program.run w).2) w

theorem run_all_reachable {rp : Nat} {w : World} (h : (hostRoutes rp).Reachable w)
    (operations : List Operation) : (hostRoutes rp).Reachable (runAll w operations) := by
  induction operations generalizing w with
  | nil => exact h
  | cons operation rest ih => exact ih (System.Reachable.run (hostRoutes rp) h operation)

theorem busy_host_fresh : Fresh 0 busyHost :=
  ⟨rfl, rfl, by decide +kernel, rfl, rfl, rfl⟩

/-- A route and `rp_filter` are put back. -/
theorem busy_host_restored :
    Restored 0 (runAll busyHost [.begin ['t'], .add .lower ['t'] none, .relaxRpFilter,
      .restore]) := by
  have hbegin : (hostRoutes 0).ReachableIf durablyListed (runAll busyHost [.begin ['t']]) :=
    .run (.init busy_host_fresh) (Operation.begin ['t']) trivial
  have hadd := hbegin.run (Operation.add .lower ['t'] none) trivial
  have hrelax := hadd.run Operation.relaxRpFilter trivial
  have hok : (restore.run (runAll busyHost
      [.begin ['t'], .add .lower ['t'] none, .relaxRpFilter])).1 = .ok () := by decide +kernel
  exact ((host_routes_recover 0).2 _ _ hrelax (Exec.of_run_ok _ (Prod.ext hok rfl))).1

/-- The row that `repairUplink` adds for a route that could not be saved is listed nowhere. -/
theorem repaired_unlisted :
    ∃ w, (hostRoutes 0).Visited w ∧
      ∃ row ∈ w.kernel.rows, row.ours = true ∧ lists w.durable row = false := by
  refine ⟨runAll busyHost (crowd ++ [.repairUplink ['e', 'p'] (some 1) 20]),
    .inl (run_all_reachable (.init busy_host_fresh) _),
    (⟨.host 20, ['e', 'p'], some 1⟩ : Route).row, ?_, ?_, ?_⟩ <;> decide +kernel

end Meshpn.Host
