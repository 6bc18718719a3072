import Meshpn.TunnelDns.SteadyReset
import Meshpn.TunnelDns.FailClosed

/-!
When a recovery succeeds. From any record and any kernel it accounts for, with
nothing interfering, `restore` reaches its end exactly when the TUN is gone or
still the recorded one and, for a release, the connection table can be judged.

A parked journal tolerates a replaced TUN in its first observation only: the
recovery leaves that stage before it looks again.
-/

namespace Meshpn.TunnelDns

open Meshpn.Lib List

/-- The surroundings of a recovery: the namespace, the firewall backend and the
selected ingress are those on record, and the kernel holds nothing but what
the record accounts for, routes only through links that exist. The TUN is left
open. -/
structure Recoverable (v : Record) (c : Core) (w : Around) : Prop where
  journal : c.journal = some v
  valid : validateTunnelDnsJournal v = true
  owned : Owned v c.items
  steady : w.Steady
  agrees : Matches v w
  ingress : ∀ entry ∈ v.links, entry.1 ≠ v.config.tun →
    (w.links entry.1).all (· == entry.2) = true
  coherent : ∀ server tun, .route server tun ∈ c.items → (w.links tun).isSome = true

def TunKept (v : Record) (w : Around) : Prop :=
  ∀ entry ∈ v.links, entry.1 = v.config.tun → (w.links entry.1).all (· == entry.2) = true

/-- The recovery completes: nothing is left but, with `keepHold`, the gates; the
journal says so; and a second recovery finds nothing to change. -/
def Recovers (keepHold : Bool) (c : Core) (w : Around) : Prop :=
  ∃ result d u, (restore keepHold true).run ⟨c, w⟩ = (.ok result, ⟨d, w⟩) ∧
    d.journal = some u ∧ u.stage = (if keepHold then .parked else .released) ∧
    (∀ item, item ∈ d.items ↔ keepHold = true ∧ item ∈ holds u) ∧
    ∃ again, (restore keepHold true).run ⟨d, w⟩ = (.ok again, ⟨d, w⟩)

section Start

variable {v : Record} {c : Core} {w : Around} (h : Recoverable v c w)
include h

theorem Recoverable.kept (htun : TunKept v w) : Kept v w.links := by
  intro entry hentry
  by_cases hname : entry.1 = v.config.tun
  · exact htun entry hentry hname
  · exact h.ingress entry hentry hname

omit h in
theorem tun_changed (htun : ¬ TunKept v w) {u : Record} (hlinks : u.links = v.links)
    (hstage : u.stage ≠ .parked) : ∃ name, sameLinks u w.links = some name := by
  cases hfound : sameLinks u w.links with
  | some name => exact ⟨name, rfl⟩
  | none =>
    refine absurd ?_ htun
    intro entry hentry _
    rw [sameLinks, Option.map_eq_none_iff, find?_eq_none] at hfound
    have hentryfound := hfound entry (hlinks ▸ hentry)
    simpa [hstage] using hentryfound

theorem Recoverable.parked_sameLinks (hstage : v.stage = .parked) :
    sameLinks v w.links = none := by
  rw [sameLinks, Option.map_eq_none_iff, find?_eq_none]
  intro entry hentry
  by_cases hname : entry.1 = v.config.tun
  · simp [hstage, hname]
  · simp [h.ingress entry hentry hname]

theorem Recoverable.restoring_valid :
    validateTunnelDnsJournal { v with stage := .restoring } = true := by
  obtain ⟨hsound, hcount, hhold, _⟩ := validate_iff.mp h.valid
  exact validate_restoring (v := { v with stage := .restoring }) hsound rfl hcount hhold

theorem Recoverable.recovering (htun : TunKept v w) :
    Recovering { v with stage := .restoring } w
      { c with journal := some { v with stage := .restoring } } where
  journal := rfl
  valid := h.restoring_valid
  stage := rfl
  agrees := ⟨h.agrees.scope, h.agrees.firewall⟩
  kept := h.kept htun
  owned := h.owned
  coherent := h.coherent

theorem Recoverable.released_empty (hstage : v.stage = .released) : c.items = [] := by
  obtain ⟨_, _, _, hcounters⟩ := validate_iff.mp h.valid
  simp only [countersAllowed, hstage, Bool.and_eq_true, beq_iff_eq] at hcounters
  rw [eq_nil_iff_forall_not_mem]
  intro item hitem
  have hmem := h.owned.2 item hitem
  simp [TunnelDns.owned, hcounters.1, hcounters.2] at hmem

end Start

/-- Undoing the plan behind the gate. -/
structure Rollback (n : Nat) (base v : Record) (w : Around) (c : Core) : Prop
    extends Recovering v w c where
  same : v = { base with count := n }
  closed : ∀ gate ∈ holds base, gate ∈ c.items

variable {w : Around} {v : Record} {c : Core}

theorem plan_removable (h : Recovering v w c) {n : Nat}
    (hcount : v.count = n + 1) {item : Item}
    (hitem : ((operations v).map Op.item)[n]? = some item) (hpresent : item ∈ c.items) :
    removable w.links c.items item = true := by
  rw [getElem?_map, Option.map_eq_some_iff] at hitem
  obtain ⟨op, hop, rfl⟩ := hitem
  have hcontains : c.items.contains op.item = true := by simpa using hpresent
  cases hkind : op.item with
  | chain table name =>
    have hunused : c.items.all (fun other => !other.uses table name) = true := by
      rw [all_eq_true]
      intro other hother
      rcases mem_append.mp (h.owned.2 other hother) with hplan | hgate
      · rw [hcount, take_add_one, hop, map_append, mem_append] at hplan
        rcases hplan with hearlier | hlast
        · obtain ⟨earlier, htake, rfl⟩ := mem_map.mp hearlier
          simp [plan_chain_unused hop hkind earlier htake]
        · simp only [Option.toList_some, map_cons, map_nil, mem_singleton] at hlast
          simp [hlast, hkind, Item.uses]
      · simp [plain_uses (hold_plain other (mem_of_mem_take hgate))]
    rw [hkind] at hcontains
    simp only [removable, hcontains, hunused, Bool.and_self]
  | rule r =>
    rw [hkind] at hcontains
    simp only [removable, hcontains, Bool.and_self]
  | unreachable =>
    rw [hkind] at hcontains
    simp only [removable, hcontains, Bool.and_self]
  | route server tun =>
    rw [hkind] at hcontains hpresent
    simp only [removable, hcontains, h.coherent server tun hpresent, Bool.and_self]
  | policy priority server =>
    rw [hkind] at hcontains
    simp only [removable, hcontains, Bool.and_self]

theorem rollback_rule (base : Record) (table : List Line) :
    UndoRun w ((operations base).map Op.item) (fun v n => { v with count := n })
      (fun n v c => Rollback n base v w c ∧ c.conntrack = table) where
  state {n v c} h := by
    obtain ⟨_, hcount, _, _⟩ := validate_iff.mp h.1.valid
    obtain rfl := h.1.same
    exact ⟨h.1.toRecovering, by simpa [operations] using hcount⟩
  removable {n v c item} h hitem hpresent := by
    obtain rfl := h.1.same
    exact plan_removable h.1.toRecovering rfl hitem hpresent
  removed {n v c item} h hitem removals := by
    refine ⟨⟨h.1.toRecovering.removed item removals, h.1.same, ?_⟩, h.2⟩
    intro gate hgate
    refine (mem_erase_of_ne ?_).mpr (h.1.closed gate hgate)
    rintro rfl
    exact hold_not_plan hgate (mem_of_getElem? hitem)
  saved {n v c item} h hitem habsent := by
    obtain ⟨hsound, hcount, hhold, _⟩ := validate_iff.mp h.1.valid
    obtain rfl := h.1.same
    have hvalid := validate_restoring (v := { base with count := n }) hsound h.1.stage
      (Nat.le_of_succ_le hcount) hhold
    refine ⟨hvalid, ⟨h.1.toRecovering.resaved hvalid h.1.stage rfl rfl rfl ?_, rfl, h.1.closed⟩,
      h.2⟩
    refine h.1.owned.mono ?_
    intro other hother hmem
    rcases mem_append.mp hmem with hplan | hgate
    · refine mem_append_left _ ?_
      rw [map_take] at hplan ⊢
      exact mem_take_of_gone hitem (fun heq => habsent (heq ▸ hother)) hplan
    · exact mem_append_right _ hgate

theorem release_rule (base : Record) :
    UndoRun w (holds base) (fun v n => { v with hold := n })
      (fun n v c => Recovering v w c ∧ v = { base with hold := n }) where
  state {n v c} h := by
    obtain ⟨_, _, hhold, _⟩ := validate_iff.mp h.1.valid
    obtain rfl := h.2
    exact ⟨h.1, by simpa [holds] using hhold⟩
  removable {n v c item} h hitem hpresent :=
    plain_removable (hold_plain item (mem_of_getElem? hitem)) w.links hpresent
  removed {n v c item} h hitem removals := ⟨h.1.removed item removals, h.2⟩
  saved {n v c item} h hitem habsent := by
    obtain ⟨hsound, hcount, hhold, _⟩ := validate_iff.mp h.1.valid
    obtain rfl := h.2
    have hvalid := validate_restoring (v := { base with hold := n }) hsound h.1.stage hcount
      (Nat.le_of_succ_le hhold)
    refine ⟨hvalid, h.1.resaved hvalid h.1.stage rfl rfl rfl ?_, rfl⟩
    exact owned_hold_back (v := { base with hold := n + 1 }) rfl hitem habsent h.1.owned

theorem ensureHold_run (h : Recoverable v c w)
    (htun : TunKept v w) :
    ∃ d, (ensureHold true v (snapshotOf v c w)).run ⟨c, w⟩ =
        (.ok ({ v with stage := .restoring, hold := (holds v).length },
          snapshotOf { v with stage := .restoring, hold := (holds v).length } d w), ⟨d, w⟩) ∧
      Recovering { v with stage := .restoring, hold := (holds v).length } w d ∧
      (∀ gate ∈ holds v, gate ∈ d.items) ∧ d.conntrack = c.conntrack ∧
      ((∀ gate ∈ holds v, gate ∈ c.items) →
        d = { c with journal := some { v with stage := .restoring, hold := (holds v).length } }) := by
  obtain ⟨d, hrun, hd, hgates, htable, hunchanged⟩ :=
    ensureFrom_run true h.steady (holds v) (h.recovering htun) rfl (Nat.zero_le _) (by simp) rfl
  refine ⟨d, ?_, hd, hgates, htable, hunchanged⟩
  rw [ensureHold, Prog.run_then (save_run h.restoring_valid c w)]
  exact hrun

theorem rollback_run (hw : w.Steady) (h : Recovering v w c)
    (hclosed : ∀ gate ∈ holds v, gate ∈ c.items) :
    ∃ last d, (rollback true v (snapshotOf v c w)).run ⟨c, w⟩ =
        (.ok ({ v with count := 0 }, last), ⟨d, w⟩) ∧
      Recovering { v with count := 0 } w d ∧ (∀ gate ∈ holds v, gate ∈ d.items) ∧
      d.conntrack = c.conntrack := by
  have hstart : Rollback v.count v v w c := ⟨h, rfl, hclosed⟩
  obtain ⟨u, last, d, hrun, hu, htable⟩ := undo_run hw true (rollback_rule v c.conntrack)
    ⟨hstart, rfl⟩ (show (snapshotOf v c w).items = c.items from rfl)
  obtain rfl := hu.same
  exact ⟨last, d, hrun, hu.toRecovering, hu.closed, htable⟩

theorem only_gates (h : Recovering v w c)
    (hcount : v.count = 0) {item : Item} (hitem : item ∈ c.items) : item ∈ holds v :=
  owned_gate hcount (h.owned.2 item hitem)

theorem finish_run (hw : w.Steady) (h : Recovering v w c)
    (hcount : v.count = 0) (hreadable : Readable v.config c.conntrack w) :
    ∃ d, (finish false v).run ⟨c, w⟩ = (.ok { v with hold := 0 }, ⟨d, w⟩) ∧ d.items = [] ∧
      Recovering { v with hold := 0 } w d := by
  obtain ⟨table, reset, hreset⟩ := reset_run hw true hreadable
  have hafter : Recovering v w { c with conntrack := table, reset := reset } :=
    ⟨h.journal, h.valid, h.stage, h.agrees, h.kept, h.owned, h.coherent⟩
  obtain ⟨u, last, d, hrun, hd, hu⟩ := undo_run hw true (release_rule v) (n := v.hold)
    ⟨hafter, rfl⟩ (show (snapshotOf v { c with conntrack := table, reset := reset } w).items =
      c.items from rfl)
  obtain rfl := hu
  refine ⟨d, ?_, ?_, hd⟩
  · rw [finish, if_neg Bool.false_ne_true, openGate, Prog.run_then hreset,
      Prog.run_then (hafter.observe_run hw true)]
    exact Prog.run_then hrun
  · rw [eq_nil_iff_forall_not_mem]
    intro item hitem
    have hmem := hd.owned.2 item hitem
    simp [owned, hcount] at hmem

theorem restore_run (keepHold : Bool) {v x y : Record} {c d e f : Core}
    {snapshot last : Snapshot} (hw : w.Steady) (hjournal : c.journal = some v)
    (hstage : ¬ (v.stage = .released ∧ keepHold = false))
    (hobserve : (observe true v).run ⟨c, w⟩ = (.ok (snapshotOf v c w), ⟨c, w⟩))
    (hensure : (ensureHold true v (snapshotOf v c w)).run ⟨c, w⟩ = (.ok (x, snapshot), ⟨d, w⟩))
    (hrollback : (rollback true x snapshot).run ⟨d, w⟩ = (.ok (y, last), ⟨e, w⟩))
    {z : Record} (hfinish : (finish keepHold y).run ⟨e, w⟩ = (.ok z, ⟨f, w⟩))
    (hvalid : validateTunnelDnsJournal
      { z with stage := if keepHold then .parked else .released } = true) :
    (restore keepHold true).run ⟨c, w⟩ =
      (.ok ⟨if keepHold then .parked else .restored, x.count⟩,
        ⟨{ f with journal := some { z with stage := if keepHold then .parked else .released } },
          w⟩) := by
  have hnot : ¬ (decide (v.stage = .released) && !keepHold) = true := by
    simpa using hstage
  rw [restore, current, Prog.run_then (Prog.run_ask _ _)]
  simp only [hjournal]
  rw [Prog.run_then hobserve]
  simp only [Bool.not_true, Bool.false_eq_true, if_false, if_neg hnot]
  rw [Prog.run_then hensure]
  dsimp only
  rw [Prog.run_then hrollback]
  dsimp only
  rw [Prog.run_then hfinish, Prog.run_then (checkDeadline_run hw true f),
    Prog.run_then (save_run hvalid f w)]
  rfl

/-- Parking is a fixed point: every gate is there, the loops find nothing to
do, and the record that is saved last is the one that was there. -/
theorem parked_again (h : Recoverable v c w)
    (htun : TunKept v w) (hstage : v.stage = .parked) (hclosed : ∀ gate ∈ holds v, gate ∈ c.items) :
    ∃ again, (restore true true).run ⟨c, w⟩ = (.ok again, ⟨c, w⟩) := by
  obtain ⟨_, _, _, hcounters⟩ := validate_iff.mp h.valid
  simp only [countersAllowed, hstage, Bool.and_eq_true, beq_iff_eq] at hcounters
  obtain ⟨d, hensure, hd, _, _, hunchanged⟩ := ensureHold_run h htun
  have hrollback : (rollback true { v with stage := .restoring, hold := (holds v).length }
      (snapshotOf { v with stage := .restoring, hold := (holds v).length } d w)).run ⟨d, w⟩ =
      (.ok ({ v with stage := .restoring, hold := (holds v).length },
        snapshotOf { v with stage := .restoring, hold := (holds v).length } d w), ⟨d, w⟩) := by
    rw [rollback]
    simp only [hcounters.1]
    rfl
  have hsame : { v with stage := .parked, hold := (holds v).length } = v := by
    rw [← hstage, ← hcounters.2]
  have hfinish : (finish true { v with stage := .restoring, hold := (holds v).length }).run ⟨d, w⟩ =
      (.ok { v with stage := .restoring, hold := (holds v).length }, ⟨d, w⟩) := rfl
  have hobserve : (observe true v).run ⟨c, w⟩ = (.ok (snapshotOf v c w), ⟨c, w⟩) :=
    observe_run h.steady true h.agrees (h.kept htun).sameLinks h.owned
  have hrun := restore_run true h.steady h.journal (by simp) hobserve hensure hrollback hfinish
    (by simpa [hsame] using h.valid)
  refine ⟨⟨.parked, v.count⟩, hrun.trans ?_⟩
  simp only [if_true, hsame]
  rw [hunchanged hclosed, ← h.journal]

theorem restore_parks (h : Recoverable v c w)
    (htun : TunKept v w) : Recovers true c w := by
  obtain ⟨d, hensure, hd, hclosed, _, _⟩ := ensureHold_run h htun
  obtain ⟨last, e, hrollback, he, hkept, _⟩ := rollback_run h.steady hd hclosed
  obtain ⟨hsound, _, hhold, _⟩ := validate_iff.mp he.valid
  have hobserve : (observe true v).run ⟨c, w⟩ = (.ok (snapshotOf v c w), ⟨c, w⟩) :=
    observe_run h.steady true h.agrees (h.kept htun).sameLinks h.owned
  have hfinish : (finish true
      { v with stage := .restoring, hold := (holds v).length, count := 0 }).run ⟨e, w⟩ =
      (.ok { v with stage := .restoring, hold := (holds v).length, count := 0 }, ⟨e, w⟩) := rfl
  have hvalid : validateTunnelDnsJournal
      { v with stage := .parked, hold := (holds v).length, count := 0 } = true := by
    refine validate_iff.mpr ⟨hsound, Nat.zero_le _, hhold, ?_⟩
    simp [countersAllowed, holds]
  have hrun := restore_run true h.steady h.journal (by simp) hobserve hensure hrollback hfinish
    hvalid
  have hparked : Recoverable { v with stage := .parked, hold := (holds v).length, count := 0 }
      { e with journal := some { v with stage := .parked, hold := (holds v).length, count := 0 } }
      w :=
    ⟨rfl, hvalid, he.owned, h.steady, ⟨h.agrees.scope, h.agrees.firewall⟩, h.ingress, he.coherent⟩
  refine ⟨_, _, _, hrun, rfl, rfl, ?_, parked_again hparked htun rfl hkept⟩
  intro item
  constructor
  · intro hitem
    exact ⟨rfl, only_gates he rfl hitem⟩
  · rintro ⟨_, hitem⟩
    exact hkept item hitem

theorem released_again (h : Recoverable v c w)
    (htun : TunKept v w) (hstage : v.stage = .released) :
    (restore false true).run ⟨c, w⟩ = (.ok ⟨.restored, 0⟩, ⟨c, w⟩) := by
  have hobserve : (observe true v).run ⟨c, w⟩ = (.ok (snapshotOf v c w), ⟨c, w⟩) :=
    observe_run h.steady true h.agrees (h.kept htun).sameLinks h.owned
  rw [restore, current, Prog.run_then (Prog.run_ask _ _)]
  simp only [h.journal]
  rw [Prog.run_then hobserve]
  simp [hstage]

theorem restore_releases (h : Recoverable v c w)
    (htun : TunKept v w)
    (hreadable : v.stage = .released ∨ Readable v.config c.conntrack w) :
    Recovers false c w := by
  by_cases hstage : v.stage = .released
  · have hrun := released_again h htun hstage
    refine ⟨_, c, v, hrun, h.journal, hstage, ?_, _, hrun⟩
    simp [h.released_empty hstage]
  have hreadable := hreadable.resolve_left hstage
  obtain ⟨d, hensure, hd, hclosed, htable, _⟩ := ensureHold_run h htun
  obtain ⟨last, e, hrollback, he, _, hsame⟩ := rollback_run h.steady hd hclosed
  obtain ⟨f, hfinish, hempty, hf⟩ := finish_run h.steady he rfl
    (by rw [hsame, htable]; exact hreadable)
  have hobserve : (observe true v).run ⟨c, w⟩ = (.ok (snapshotOf v c w), ⟨c, w⟩) :=
    observe_run h.steady true h.agrees (h.kept htun).sameLinks h.owned
  obtain ⟨hsound, _, _, _⟩ := validate_iff.mp hf.valid
  have hvalid : validateTunnelDnsJournal
      { v with stage := .released, hold := 0, count := 0 } = true :=
    validate_iff.mpr ⟨hsound, Nat.zero_le _, Nat.zero_le _, rfl⟩
  have hrun := restore_run false h.steady h.journal (by simp [hstage]) hobserve hensure hrollback
    hfinish hvalid
  have hreleased : Recoverable { v with stage := .released, hold := 0, count := 0 }
      { f with journal := some { v with stage := .released, hold := 0, count := 0 } } w :=
    ⟨rfl, hvalid, hf.owned, h.steady, ⟨h.agrees.scope, h.agrees.firewall⟩, h.ingress,
      hf.coherent⟩
  refine ⟨_, _, _, hrun, rfl, rfl, ?_, _, released_again hreleased htun rfl⟩
  simp [hempty]

theorem ensureHold_stuck (h : Recoverable v c w)
    (htun : ¬ TunKept v w) :
    ∃ message t, (ensureHold true v (snapshotOf v c w)).run ⟨c, w⟩ = (.error message, t) := by
  obtain ⟨hsound, hcount, hhold, _⟩ := validate_iff.mp h.valid
  obtain ⟨item, rest, hgates⟩ := exists_cons_of_ne_nil
    (hold_nonempty v.config.ingress v.id)
  have hplain : item.plain = true := hold_plain item (hgates ▸ mem_cons_self)
  have hmax : max v.hold 1 ≤ (holds v).length := by
    rw [holds, hgates] at hhold ⊢
    simp only [length_cons] at hhold ⊢
    omega
  have hvalid := validate_restoring
    (v := { v with stage := .restoring, hold := max v.hold 1 }) hsound rfl hcount hmax
  obtain ⟨name, hname⟩ := tun_changed (u := { v with stage := .restoring, hold := max v.hold 1 })
    htun rfl (by simp)
  rw [ensureHold, Prog.run_then (save_run h.restoring_valid c w)]
  simp only [holds, hgates, ensureFrom, Nat.zero_add]
  rw [Prog.run_then (checkDeadline_run h.steady true _), Prog.run_then (save_run hvalid _ w)]
  have hadd := addMissing_eq true h.steady
    { c with journal := some { v with stage := .restoring, hold := max v.hold 1 } } v.firewall hplain
  rw [snapshotOf, Prog.run_then hadd]
  have hagrees : Matches { v with stage := .restoring, hold := max v.hold 1 } w :=
    ⟨h.agrees.scope, h.agrees.firewall⟩
  exact ⟨_, _, Prog.run_fails (observe_fails h.steady true hagrees hname)⟩

theorem restore_unreadable (h : Recoverable v c w)
    (htun : TunKept v w) (hstage : v.stage ≠ .released)
    (hreadable : ¬ Readable v.config c.conntrack w) :
    ∃ message t, (restore false true).run ⟨c, w⟩ = (.error message, t) := by
  obtain ⟨d, hensure, hd, hclosed, htable, _⟩ := ensureHold_run h htun
  obtain ⟨last, e, hrollback, he, _, hsame⟩ := rollback_run h.steady hd hclosed
  obtain ⟨message, t, hreset⟩ := reset_fails h.steady true
    (show ¬ Readable v.config e.conntrack w by rw [hsame, htable]; exact hreadable)
  have hobserve : (observe true v).run ⟨c, w⟩ = (.ok (snapshotOf v c w), ⟨c, w⟩) :=
    observe_run h.steady true h.agrees (h.kept htun).sameLinks h.owned
  refine ⟨message, t, ?_⟩
  rw [restore, current, Prog.run_then (Prog.run_ask _ _)]
  simp only [h.journal]
  rw [Prog.run_then hobserve]
  simp only [Bool.not_true, Bool.false_eq_true, if_false, hstage, decide_false, Bool.false_and]
  rw [Prog.run_then hensure]
  dsimp only
  rw [Prog.run_then hrollback]
  exact Prog.run_fails (Prog.run_fails hreset)

/-- A replaced TUN stops every recovery: at once, or when a parked journal has
left its stage. -/
theorem restore_stuck (h : Recoverable v c w)
    (htun : ¬ TunKept v w) (keepHold : Bool) :
    ∃ message t, (restore keepHold true).run ⟨c, w⟩ = (.error message, t) := by
  rw [restore, current, Prog.run_then (Prog.run_ask _ _)]
  simp only [h.journal]
  by_cases hstage : v.stage = .parked
  · have hobserve : (observe true v).run ⟨c, w⟩ = (.ok (snapshotOf v c w), ⟨c, w⟩) :=
      observe_run h.steady true h.agrees (h.parked_sameLinks hstage) h.owned
    rw [Prog.run_then hobserve]
    simp only [Bool.not_true, Bool.false_eq_true, if_false, hstage, reduceCtorEq, decide_false,
      Bool.false_and]
    obtain ⟨message, t, hfails⟩ := ensureHold_stuck h htun
    exact ⟨message, t, Prog.run_fails hfails⟩
  · obtain ⟨name, hname⟩ := tun_changed htun rfl hstage
    exact ⟨_, _, Prog.run_fails (observe_fails h.steady true h.agrees hname)⟩

/-- A journal parked by a restart that was prepared right after its start. -/
def parkedRecord : Record :=
  ⟨calm.freshId, calm.scope, ⟨"tun0", "1.1.1.1", .host⟩, [("tun0", ⟨7, "", "none"⟩)], .nfTables, 0,
    6, .parked⟩

def parkedCore : Core :=
  ⟨some parkedRecord, (holds parkedRecord).reverse, [], none, []⟩

def replaced : Around :=
  { calm with links := fun name => if name = "tun0" then some ⟨8, "", "none"⟩ else none }

theorem replaced_wellFormed : replaced.WellFormed := by
  refine ⟨by decide, by decide, ?_⟩
  intro name link h
  simp only [replaced, Option.ite_none_right_eq_some, Option.some.injEq] at h
  obtain ⟨_, rfl⟩ := h
  decide

theorem parkedCore_reachable : system.Reachable ⟨parkedCore, replaced⟩ := by
  have hafter : (after [.begin ⟨"tun0", none, none, none, none⟩, .prepareRestart none none none]
      fresh).core = parkedCore := by
    decide +kernel
  exact .drift (reachable_after _ fresh_reachable) ⟨hafter, fun _ => replaced_wellFormed⟩

theorem parked_recoverable (w : Around) (hsteady : w.Steady) (hagrees : Matches parkedRecord w) :
    Recoverable parkedRecord parkedCore w where
  journal := rfl
  valid := by decide +kernel
  owned := ⟨by decide +kernel, by decide +kernel⟩
  steady := hsteady
  agrees := hagrees
  ingress := by simp [parkedRecord]
  coherent := by
    intro server tun hroute
    have hgate := hold_isHold _ (mem_reverse.mp hroute)
    cases hgate

end Meshpn.TunnelDns
