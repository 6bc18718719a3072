import Meshpn.TunnelDns.Gate

/-!
Undisturbed runs of the journal's steps: the commands work, the clock does not
expire and the surroundings stay as they are. Then a run is a computation, and
each step has one equation for what it returns and leaves behind.
-/

namespace Meshpn.TunnelDns

open Meshpn.Lib List

/-- Nothing interferes: commands do what they are asked to. -/
structure Around.Steady (w : Around) : Prop where
  failure : w.failure = none
  late : w.late = false
  conntrackLate : w.conntrackLate = false
  traffic : w.traffic = id

section Commands

variable {w : Around} (hw : w.Steady) (timed : Bool) (c : Core)
include hw

theorem checkDeadline_run : (checkDeadline timed).run ⟨c, w⟩ = (.ok (), ⟨c, w⟩) := by
  rw [checkDeadline, Prog.run_then (Prog.run_ask _ _)]
  simp [hw.late]

theorem conntrackClock_run : conntrackClock.run ⟨c, w⟩ = (.ok (), ⟨c, w⟩) := by
  rw [conntrackClock, Prog.run_then (Prog.run_ask _ _)]
  simp [hw.conntrackLate]

theorem query_run {α : Type} (file : String) (view : Core → Around → α) :
    (query timed file view).run ⟨c, w⟩ = (.ok (view c w), ⟨c, w⟩) := by
  rw [query, Prog.run_then (checkDeadline_run hw timed c), Prog.run_then (Prog.run_ask _ _)]
  simp only [hw.failure, Option.isNone_none]
  rw [Prog.run_then (Prog.run_require _ _), Prog.run_then (checkDeadline_run hw timed c)]
  rfl

theorem attempt_run_ok {act : Core → Around → Except Nat Core} {d : Core}
    (hact : act c w = .ok d) : (attempt timed act).run ⟨c, w⟩ = (.ok none, ⟨d, w⟩) := by
  rw [attempt, Prog.run_then (checkDeadline_run hw timed c), Prog.run_then (Prog.run_perform _ _)]
  simp only [execute, hw.failure, hact, Option.isNone_none, if_true]
  rw [Prog.run_then (checkDeadline_run hw timed d)]
  rfl

theorem run_run {act : Core → Around → Except Nat Core} {d : Core} (file : String)
    (hact : act c w = .ok d) : (run timed file act).run ⟨c, w⟩ = (.ok (), ⟨d, w⟩) := by
  rw [run, Prog.run_then (attempt_run_ok hw timed c hact)]
  rfl

end Commands

variable {v : Record} {w : Around} {c : Core}

theorem save_run (hvalid : validateTunnelDnsJournal v = true) (c : Core)
    (w : Around) : (save v).run ⟨c, w⟩ = (.ok (), ⟨{ c with journal := some v }, w⟩) := by
  rw [save, hvalid, Prog.run_then (Prog.run_require _ _)]
  rfl

def Kept (v : Record) (links : String → Option Link) : Prop :=
  ∀ entry ∈ v.links, (links entry.1).all (· == entry.2) = true

theorem Kept.sameLinks {links : String → Option Link} (h : Kept v links) :
    sameLinks v links = none := by
  rw [TunnelDns.sameLinks, Option.map_eq_none_iff, find?_eq_none]
  intro entry hentry
  simp [h entry hentry]

/-- The surroundings of a record that passes its checks but for the TUN. -/
structure Matches (v : Record) (w : Around) : Prop where
  scope : v.scope = w.scope
  firewall : w.firewall = some v.firewall

def snapshotOf (v : Record) (c : Core) (w : Around) : Snapshot := ⟨v.firewall, c.items, w.links⟩

section Observe

variable {w : Around} (hw : w.Steady) (timed : Bool) {v : Record} (hmatches : Matches v w) {c : Core}
include hw hmatches

theorem readNetwork_run :
    (readNetwork timed).run ⟨c, w⟩ = (.ok (snapshotOf v c w), ⟨c, w⟩) := by
  rw [readNetwork, Prog.run_then (query_run hw timed c _ _)]
  simp only [hmatches.firewall]
  rfl

theorem observe_run (hsame : sameLinks v w.links = none) (howned : Owned v c.items) :
    (observe timed v).run ⟨c, w⟩ = (.ok (snapshotOf v c w), ⟨c, w⟩) := by
  have hall : c.items.all ((owned v).contains ·) = true := by
    simpa using howned.2
  rw [observe, Prog.run_then (Prog.run_ask _ _)]
  simp only [hmatches.scope, beq_self_eq_true]
  rw [Prog.run_then (Prog.run_require _ _), Prog.run_then (readNetwork_run hw timed hmatches)]
  simp only [snapshotOf, beq_self_eq_true]
  rw [Prog.run_then (Prog.run_require _ _)]
  simp only [hsame]
  have haudit : (audit ⟨v.firewall, c.items, w.links⟩ (owned v)).run ⟨c, w⟩ = (.ok (), ⟨c, w⟩) := by
    rw [audit]
    simp only [hall, howned.1, decide_true]
    rw [Prog.run_then (Prog.run_require _ _)]
    rfl
  rw [Prog.run_then haudit]
  rfl

theorem observe_fails {name : String} (hchanged : sameLinks v w.links = some name) :
    (observe timed v).run ⟨c, w⟩ =
      (.error ("interface identity changed: " ++ name), ⟨c, w⟩) := by
  rw [observe, Prog.run_then (Prog.run_ask _ _)]
  simp only [hmatches.scope, beq_self_eq_true]
  rw [Prog.run_then (Prog.run_require _ _), Prog.run_then (readNetwork_run hw timed hmatches)]
  simp only [snapshotOf, beq_self_eq_true]
  rw [Prog.run_then (Prog.run_require _ _)]
  simp only [hchanged]
  rfl

end Observe

/-- A rule in a chain of the kernel that jumps nowhere: it can always be added,
and removed while it is there. -/
def Item.plain : Item → Bool
  | .rule ⟨_, _, .own _, _, _, _⟩ => false
  | .rule ⟨_, _, _, _, _, .jump _⟩ => false
  | .rule _ => true
  | _ => false

theorem hold_plain {ingress : Ingress} {id : String} :
    ∀ item ∈ compileTunnelDnsHold ingress id, item.plain = true := by
  cases ingress <;>
    simp [compileTunnelDnsHold, protocols, Ingress.tun, Ingress.selected,
      Ingress.selectedInterface, Item.plain]

section Plain

variable {item : Item} (h : item.plain = true)
include h

theorem plain_addable (links : String → Option Link) (items : List Item) :
    addable links items item = true := by
  rcases item with _ | ⟨tool, table, chain, tag, spec, target⟩ | _ | _ | _ <;>
    try (simp [Item.plain] at h)
  cases chain <;> cases target <;> simp_all [addable]

theorem plain_removable (links : String → Option Link) {items : List Item} (hmem : item ∈ items) :
    removable links items item = true := by
  rcases item with _ | r | _ | _ | _ <;> try (simp [Item.plain] at h)
  simpa [removable] using hmem

theorem plain_uses (table : Table) (name : OwnChain) : item.uses table name = false := by
  rcases item with _ | ⟨tool, found, chain, tag, spec, target⟩ | _ | _ | _ <;>
    try (simp [Item.plain] at h)
  cases chain <;> cases target <;> simp_all [Item.uses]

end Plain

/-- A recovery under way in surroundings that keep the recorded links. -/
structure Recovering (v : Record) (w : Around) (c : Core) : Prop where
  journal : c.journal = some v
  valid : validateTunnelDnsJournal v = true
  stage : v.stage = .restoring
  agrees : Matches v w
  kept : Kept v w.links
  owned : Owned v c.items
  coherent : ∀ server tun, .route server tun ∈ c.items → (w.links tun).isSome = true

namespace Recovering

variable {v : Record} {w : Around} {c : Core}

theorem observe_run (h : Recovering v w c) (hw : w.Steady) (timed : Bool) :
    (observe timed v).run ⟨c, w⟩ = (.ok (snapshotOf v c w), ⟨c, w⟩) :=
  TunnelDns.observe_run hw timed h.agrees h.kept.sameLinks h.owned

theorem resaved (h : Recovering v w c) {u : Record} (hvalid : validateTunnelDnsJournal u = true)
    (hstage : u.stage = .restoring) (hscope : u.scope = v.scope) (hfirewall : u.firewall = v.firewall)
    (hlinks : u.links = v.links) (howned : Owned u c.items) :
    Recovering u w { c with journal := some u } where
  journal := rfl
  valid := hvalid
  stage := hstage
  agrees := ⟨hscope.trans h.agrees.scope, hfirewall ▸ h.agrees.firewall⟩
  kept := by
    intro entry hentry
    exact h.kept entry (hlinks ▸ hentry)
  owned := howned
  coherent := h.coherent

theorem added (h : Recovering v w c) {item : Item} (howned : item ∈ TunnelDns.owned v)
    (hnew : item ∉ c.items) (hplain : item.plain = true) :
    Recovering v w { c with items := item :: c.items, reset := none } where
  journal := h.journal
  valid := h.valid
  stage := h.stage
  agrees := h.agrees
  kept := h.kept
  owned := by
    refine ⟨nodup_cons.mpr ⟨hnew, h.owned.1⟩, ?_⟩
    intro other hother
    rcases mem_cons.mp hother with rfl | hold
    · exact howned
    · exact h.owned.2 other hold
  coherent := by
    intro server tun hroute
    rcases mem_cons.mp hroute with rfl | hold
    · simp [Item.plain] at hplain
    · exact h.coherent server tun hold

theorem removed (h : Recovering v w c) (item : Item) (removals : List Removal) :
    Recovering v w { c with items := c.items.erase item, removals := removals } where
  journal := h.journal
  valid := h.valid
  stage := h.stage
  agrees := h.agrees
  kept := h.kept
  owned := ⟨h.owned.1.erase item, fun other hother => h.owned.2 other (mem_of_mem_erase hother)⟩
  coherent := fun server tun hroute => h.coherent server tun (mem_of_mem_erase hroute)

end Recovering

theorem addMissing_eq (timed : Bool) (hw : w.Steady) (c : Core) (firewall : Firewall)
    {item : Item} (hplain : item.plain = true) :
    (addMissing timed ⟨firewall, c.items, w.links⟩ item).run ⟨c, w⟩ =
      (.ok (), ⟨if item ∈ c.items then c
        else { c with items := item :: c.items, reset := none }, w⟩) := by
  by_cases hpresent : item ∈ c.items
  · simp [addMissing, hpresent]
  have hact : addItem true item c w = .ok { c with items := item :: c.items, reset := none } := by
    simp [addItem, plain_addable hplain, insertItem]
  rw [addMissing, if_neg (by simpa using hpresent), run_run hw timed c _ hact, if_neg hpresent]

theorem addMissing_run (timed : Bool) (hw : w.Steady)
    (h : Recovering v w c) {firewall : Firewall} {item : Item} (howned : item ∈ owned v)
    (hplain : item.plain = true) :
    ∃ d, (addMissing timed ⟨firewall, c.items, w.links⟩ item).run ⟨c, w⟩ = (.ok (), ⟨d, w⟩) ∧
      Recovering v w d ∧ item ∈ d.items ∧ (∀ other ∈ c.items, other ∈ d.items) ∧
      d.conntrack = c.conntrack ∧ (item ∈ c.items → d = c) := by
  have hrun := addMissing_eq timed hw c firewall hplain
  by_cases hpresent : item ∈ c.items
  · rw [if_pos hpresent] at hrun
    exact ⟨c, hrun, h, hpresent, fun _ hother => hother, rfl, fun _ => rfl⟩
  · rw [if_neg hpresent] at hrun
    exact ⟨_, hrun, h.added howned hpresent hplain, mem_cons_self,
      fun _ hother => mem_cons_of_mem _ hother, rfl, fun hmem => absurd hmem hpresent⟩

theorem ensureFrom_run (timed : Bool) (hw : w.Steady) (rest : List Item) {index : Nat} {firewall : Firewall} (h : Recovering v w c)
    (hrest : (holds v).drop index = rest) (hindex : index ≤ v.hold)
    (hclosed : ∀ gate ∈ (holds v).take index, gate ∈ c.items) (hfirewall : firewall = v.firewall) :
    ∃ d, (ensureFrom timed rest index v ⟨firewall, c.items, w.links⟩).run ⟨c, w⟩ =
        (.ok ({ v with hold := (holds v).length },
          snapshotOf { v with hold := (holds v).length } d w), ⟨d, w⟩) ∧
      Recovering { v with hold := (holds v).length } w d ∧ (∀ gate ∈ holds v, gate ∈ d.items) ∧
      d.conntrack = c.conntrack ∧
      ((∀ gate ∈ rest, gate ∈ c.items) →
        d = { c with journal := some { v with hold := (holds v).length } }) := by
  subst hfirewall
  induction rest generalizing index v c with
  | nil =>
    obtain ⟨_, _, hhold, _⟩ := validate_iff.mp h.valid
    have hlength : (holds v).length ≤ index := drop_eq_nil_iff.mp hrest
    have hfull : { v with hold := (holds v).length } = v := by
      have : v.hold = (holds v).length := by omega
      rw [← this]
    rw [hfull]
    refine ⟨c, rfl, h, ?_, rfl, ?_⟩
    · rwa [take_of_length_le hlength] at hclosed
    · rw [← h.journal]
      exact fun _ => rfl
  | cons item rest ih =>
    obtain ⟨hsound, hcount, hhold, _⟩ := validate_iff.mp h.valid
    have hlt : index < (holds v).length := by
      by_contra hge
      rw [drop_of_length_le (by omega)] at hrest
      cases hrest
    obtain ⟨hitem, hdrop⟩ : (holds v)[index] = item ∧ (holds v).drop (index + 1) = rest := by
      rw [drop_eq_getElem_cons hlt, List.cons.injEq] at hrest
      exact hrest
    have hmax : max v.hold (index + 1) ≤ (holds v).length := by omega
    have hvalid := validate_restoring (v := { v with hold := max v.hold (index + 1) }) hsound
      h.stage hcount hmax
    have hsaved := h.resaved hvalid h.stage rfl rfl rfl
      (h.owned.mono fun _ _ => owned_hold_mono (Nat.le_max_left _ _))
    have howned : item ∈ owned { v with hold := max v.hold (index + 1) } := by
      refine mem_append_right _ (mem_take_iff_getElem.mpr ⟨index, ?_, hitem⟩)
      exact Nat.lt_min.mpr ⟨Nat.le_max_right _ _, hlt⟩
    have hplain : item.plain = true := hold_plain item (hitem ▸ getElem_mem hlt)
    obtain ⟨d, hadd, hd, hback, hmore, hconntrack, hsame⟩ :=
      addMissing_run timed hw hsaved howned hplain
    obtain ⟨e, hrun, he, hgates, htable, hunchanged⟩ := ih hd hdrop (Nat.le_max_right _ _)
       (by
        intro gate hgate
        change gate ∈ (holds v).take (index + 1) at hgate
        rw [take_succ_eq_append_getElem hlt] at hgate
        rcases mem_append.mp hgate with hearlier | hlast
        · exact hmore gate (hclosed gate hearlier)
        · rw [mem_singleton.mp hlast, hitem]
          exact hback)
    refine ⟨e, ?_, he, hgates, htable.trans hconntrack, ?_⟩
    · rw [ensureFrom, Prog.run_then (checkDeadline_run hw timed c)]
      dsimp only
      rw [Prog.run_then (save_run hvalid c w), Prog.run_then hadd,
        Prog.run_then (hd.observe_run hw timed)]
      have hcontains : (snapshotOf { v with hold := max v.hold (index + 1) } d w).items.contains item
          = true := by
        simpa [snapshotOf] using hback
      rw [hcontains, Prog.run_then (Prog.run_require _ _)]
      exact hrun
    · intro hall
      have hfirst : d = { c with journal := some { v with hold := max v.hold (index + 1) } } :=
        hsame (hall item mem_cons_self)
      rw [hunchanged (fun gate hgate => hfirst ▸ hall gate (mem_cons_of_mem _ hgate)), hfirst]
      rfl

/-- What one of the two undo loops maintains in an undisturbed run. -/
structure UndoRun (w : Around) (items : List Item) (put : Record → Nat → Record)
    (P : Nat → Record → Core → Prop) : Prop where
  state : ∀ {n v c}, P n v c → Recovering v w c ∧ n ≤ items.length
  removable : ∀ {n v c item}, P (n + 1) v c → items[n]? = some item → item ∈ c.items →
    removable w.links c.items item = true
  removed : ∀ {n v c item}, P (n + 1) v c → items[n]? = some item → ∀ removals,
    P (n + 1) v { c with items := c.items.erase item, removals := removals }
  saved : ∀ {n v c item}, P (n + 1) v c → items[n]? = some item → item ∉ c.items →
    validateTunnelDnsJournal (put v n) = true ∧ P n (put v n) { c with journal := some (put v n) }

theorem removePresent_run (hw : w.Steady) (timed : Bool) {items : List Item}
    {put : Record → Nat → Record} {P : Nat → Record → Core → Prop}
    (hrule : UndoRun w items put P) {n : Nat} (h : P (n + 1) v c)
    {item : Item} (hitem : items[n]? = some item) {snapshot : Snapshot}
    (hsnapshot : snapshot.items = c.items) :
    ∃ d, (removePresent timed snapshot item).run ⟨c, w⟩ = (.ok (), ⟨d, w⟩) ∧ P (n + 1) v d ∧
      item ∉ d.items := by
  obtain ⟨hrec, _⟩ := hrule.state h
  by_cases hpresent : item ∈ c.items
  · have hact : removeItem item c w = .ok { c with
        items := c.items.erase item,
        removals := c.removals ++ [⟨item, c.items, c.journal, c.reset⟩] } := by
      rw [removeItem, if_pos (hrule.removable h hitem hpresent)]
    refine ⟨_, ?_, hrule.removed h hitem (c.removals ++ [⟨item, c.items, c.journal, c.reset⟩]),
      hrec.owned.1.not_mem_erase⟩
    rw [removePresent, if_pos (by simpa [hsnapshot] using hpresent), run_run hw timed c _ hact]
  · refine ⟨c, ?_, h, hpresent⟩
    rw [removePresent, if_neg (by simpa [hsnapshot] using hpresent)]
    rfl

theorem undo_run (hw : w.Steady) (timed : Bool) {items : List Item}
    {put : Record → Nat → Record} {message : String} {P : Nat → Record → Core → Prop}
    (hrule : UndoRun w items put P) {n : Nat} (h : P n v c)
    {snapshot : Snapshot} (hsnapshot : snapshot.items = c.items) :
    ∃ u last d, (undo timed items put message n v snapshot).run ⟨c, w⟩ =
      (.ok (u, last), ⟨d, w⟩) ∧ P 0 u d := by
  induction n generalizing v c snapshot with
  | zero => exact ⟨v, snapshot, c, rfl, h⟩
  | succ n ih =>
    obtain ⟨_, hlength⟩ := hrule.state h
    have hitem : items[n]? = some items[n] := getElem?_eq_getElem hlength
    obtain ⟨d, hremove, hd, hgone⟩ := removePresent_run hw timed hrule h hitem hsnapshot
    obtain ⟨hvalid, hnext⟩ := hrule.saved hd hitem hgone
    obtain ⟨u, last, e, hrun, he⟩ := ih hnext (show (snapshotOf v d w).items = d.items from rfl)
    refine ⟨u, last, e, ?_, he⟩
    rw [undo, Prog.run_then (checkDeadline_run hw timed c)]
    simp only [hitem]
    rw [Prog.run_then hremove, Prog.run_then ((hrule.state hd).1.observe_run hw timed)]
    have habsent : (!(snapshotOf v d w).items.contains items[n]) = true := by
      simpa [snapshotOf] using hgone
    rw [habsent, Prog.run_then (Prog.run_require _ _), Prog.run_then (save_run hvalid d w)]
    exact hrun

end Meshpn.TunnelDns
