import Meshpn.TunnelDns.Gate

/-!
The tunnel DNS journal is fail-closed. An item of the plan leaves the kernel
only behind the complete gate, the gate opens only over the complete plan or
over none of it after a connection reset, and no save is ever refused.
-/

namespace Meshpn.TunnelDns

open Meshpn.Lib

section Calls

variable {c : Core} (hc : Inv c)
include hc

theorem finish_cwp (keepHold : Bool) {v : Record} (h : GateClosed 0 v c) :
    (finish keepHold v).cwp closedSpec
      (fun u d => Rolling u d ∧ u.count = 0 ∧
        u.hold = if keepHold then (holds u).length else 0) c := by
  cases keepHold with
  | true => exact cwp_pure closedSpec hc ⟨h.toRolling, h.count, h.hold⟩
  | false =>
    refine cwp_seq closedSpec (resetTunnelDnsConntrack_cwp hc true v.config .disable) ?_
    rintro _ d hd ⟨table, reset, rfl, hreset⟩
    obtain ⟨found, rfl, hcomplete⟩ := hreset rfl
    apply (observe_reads hd true v).then
    rintro snapshot ⟨hsnapshot, _⟩
    have hstart : GateReleased v.hold v { c with conntrack := table, reset := some found } :=
      ⟨⟨hd, h.journal, h.stage⟩, h.count, rfl, found, rfl, hcomplete⟩
    refine cwp_seq closedSpec (undo_cwp (gateReleased_rule (holds v)) (by decide) ⟨hstart, rfl⟩
      hsnapshot) ?_
    rintro ⟨u, again⟩ e he ⟨hu, _⟩
    exact cwp_pure closedSpec he ⟨hu.toRolling, hu.count, hu.hold⟩

theorem restore_cwp (keepHold apply : Bool) :
    (restore keepHold apply).cwp closedSpec (fun _ d => Inv d) c := by
  apply cwp_ask_then closedSpec hc
  intro w _
  rcases hv : c.journal with _ | v
  · exact cwp_throw closedSpec hc ⟨by decide, hc⟩
  apply (observe_reads hc true v).then
  rintro snapshot ⟨hsnapshot, _⟩
  split
  · exact cwp_pure closedSpec hc hc
  split
  · exact cwp_pure closedSpec hc hc
  refine cwp_seq closedSpec (ensureHold_cwp hc hv hsnapshot) ?_
  rintro ⟨u, again⟩ d hd ⟨hu, hagain, hhold, hclosed⟩
  have hgate : GateClosed u.count u d := ⟨hu, rfl, hhold, hclosed⟩
  refine cwp_seq closedSpec (undo_cwp (gateClosed_rule ((operations u).map Op.item))
    (by decide) ⟨hgate, rfl⟩ hagain) ?_
  rintro ⟨x, last⟩ e he ⟨hx, _⟩
  refine cwp_seq closedSpec (finish_cwp he keepHold hx) ?_
  rintro y f hf ⟨hy, hcount, hlast⟩
  apply (checkDeadline_reads hf true).then
  intro _ _
  obtain ⟨hsound, hcounts, hholds⟩ := hy.parts
  refine cwp_seq closedSpec (R := fun _ g => Inv g) ?_
    (fun _ g hg _ => cwp_pure closedSpec hg hg)
  apply save_cwp (v := { y with stage := if keepHold then .parked else .released }) hf _
    (hf.owned y hy.journal) id
  refine validate_iff.mpr ⟨hsound, hcounts, hholds, ?_⟩
  cases keepHold <;> simp_all [countersAllowed, holds]

theorem prepareRestart_cwp (fromTun lanSubnet lanInterface : Option String) :
    (prepareRestart fromTun lanSubnet lanInterface).cwp closedSpec (fun _ d => Inv d) c := by
  apply cwp_ask_then closedSpec hc
  intro w _
  rcases hv : c.journal with _ | v
  · exact cwp_pure closedSpec hc hc
  dsimp only
  split
  · exact cwp_pure closedSpec hc hc
  apply cwp_require_then closedSpec hc (fun _ => ⟨by decide, hc⟩)
  intro _
  exact cwp_seq closedSpec (restore_cwp hc true true)
    (fun _ d hd _ => cwp_pure closedSpec hd hd)

theorem installing_reads :
    installing.Reads closedSpec c (fun v => c.journal = some v ∧ v.stage = .installing) := by
  apply cwp_ask_then closedSpec hc
  intro w _
  rcases hv : c.journal with _ | v
  · exact cwp_throw closedSpec hc ⟨by decide, hc⟩
  apply cwp_require_then closedSpec hc (fun _ => ⟨by decide, hc⟩)
  intro hstage
  exact cwp_pure closedSpec hc ⟨rfl, rfl, by simpa using hstage⟩

end Calls

theorem applyFrom_cwp (stage : Stage) (rest : List Op) {v : Record} {c : Core} (hc : Inv c)
    (hv : c.journal = some v) (hstage : v.stage = .installing)
    (hrest : (operations v).drop v.count = rest) :
    (applyFrom stage rest v).cwp closedSpec (fun _ d => Inv d) c := by
  induction rest generalizing v c with
  | nil => exact cwp_pure closedSpec hc hc
  | cons op rest ih =>
    obtain ⟨hsound, _, hhold, _⟩ := validate_iff.mp (hc.valid v hv)
    have hlt : v.count < (operations v).length := by
      by_contra hge
      rw [List.drop_of_length_le (by omega)] at hrest
      cases hrest
    obtain ⟨hop, hdrop⟩ : (operations v)[v.count] = op ∧
        (operations v).drop (v.count + 1) = rest := by
      rw [List.drop_eq_getElem_cons hlt, List.cons.injEq] at hrest
      exact hrest
    rw [applyFrom]
    split
    · apply (observe_reads hc false v).then
      rintro before ⟨hbefore, _⟩
      apply cwp_require_then closedSpec hc (fun _ => ⟨by decide, hc⟩)
      intro habsent
      have hnew : op.item ∉ c.items := by
        simpa [hbefore] using habsent
      have htake : (operations v).take (v.count + 1) = (operations v).take v.count ++ [op] := by
        rw [List.take_succ_eq_append_getElem hlt, hop]
      -- The intent is durable before the command runs.
      refine cwp_seq closedSpec (R := fun _ d => Inv d ∧
        d.journal = some { v with count := v.count + 1 } ∧ d.items = c.items) ?_ ?_
      · apply save_cwp (v := { v with count := v.count + 1 }) hc _ _
          (fun hinv => ⟨hinv, rfl, rfl⟩)
        · refine validate_iff.mpr ⟨hsound, hlt, hhold, ?_⟩
          simp [countersAllowed, hstage]
        · refine (hc.owned v hv).mono ?_
          intro item _ hmem
          rcases List.mem_append.mp hmem with hplan | hgate
          · refine List.mem_append_left _ ?_
            change item ∈ ((operations v).take (v.count + 1)).map Op.item
            rw [htake, List.map_append]
            exact List.mem_append_left _ hplan
          · exact List.mem_append_right _ hgate
      rintro _ d _ ⟨hd, hjournal, hitems⟩
      have howned : op.item ∈ owned { v with count := v.count + 1 } := by
        refine List.mem_append_left _ ?_
        change op.item ∈ ((operations v).take (v.count + 1)).map Op.item
        rw [htake]
        simp
      refine cwp_seq closedSpec (R := fun _ e => Inv e ∧
        e.journal = some { v with count := v.count + 1 })
        (run_add_cwp hd hjournal false op.first howned (hitems ▸ hnew)
          (fun hinv => ⟨hinv, hjournal⟩)) ?_
      rintro _ e _ ⟨he, hlast⟩
      apply (observe_reads he false _).then
      intro after _
      apply cwp_require_then closedSpec he (fun _ => ⟨by decide, he⟩)
      intro _
      exact ih he hlast hstage hdrop
    · exact cwp_pure closedSpec hc hc

section Sessions

variable {c : Core} (hc : Inv c)
include hc

theorem applyStage_cwp (stage : Stage) :
    (applyStage stage).cwp closedSpec (fun _ d => Inv d) c := by
  apply (installing_reads hc).then
  rintro v ⟨hv, hstage⟩
  apply (observe_reads hc false v).then
  intro _ _
  apply cwp_require_then closedSpec hc (fun _ => ⟨by decide, hc⟩)
  intro _
  exact applyFrom_cwp stage _ hc hv hstage rfl

theorem activate_cwp : activate.cwp closedSpec (fun _ d => Inv d) c := by
  apply (installing_reads hc).then
  rintro v ⟨hv, hstage⟩
  apply cwp_require_then closedSpec hc (fun _ => ⟨by decide, hc⟩)
  intro hcount
  apply (observe_reads hc false v).then
  rintro snapshot ⟨hsnapshot, _⟩
  apply cwp_require_then closedSpec hc (fun _ => ⟨by decide, hc⟩)
  intro hcomplete
  refine cwp_seq closedSpec (resetTunnelDnsConntrack_cwp hc false v.config .enable) ?_
  rintro _ d hd ⟨table, reset, rfl, _⟩
  apply (observe_reads hd false v).then
  rintro again ⟨hagain, _⟩
  have hstart : GateReplaced v.hold v { c with conntrack := table, reset := reset } := by
    refine ⟨hd, hv, hstage, by simpa using hcount, rfl, ?_⟩
    intro op hop
    simpa [hsnapshot] using List.all_eq_true.mp hcomplete op hop
  refine cwp_seq closedSpec (undo_cwp (gateReplaced_rule (holds v)) (by decide) ⟨hstart, rfl⟩
    hagain) ?_
  rintro ⟨u, last⟩ e he ⟨hu, _⟩
  obtain ⟨hsound, hcounts, hholds, _⟩ := validate_iff.mp (he.valid u hu.journal)
  apply save_cwp (v := { u with stage := .active }) he _ (he.owned u hu.journal) id
  refine validate_iff.mpr ⟨hsound, hcounts, hholds, ?_⟩
  have hfull : u.count = (operations u).length := hu.count
  have hopen : u.hold = 0 := hu.hold
  simpa [countersAllowed, hopen, operations] using hfull

end Sessions

theorem recordLinks_reads {c : Core} (hc : Inv c) {links : String → Option Link}
    (hlinks : ∀ name link, links name = some link → link.valid = true) (names : List String) :
    (recordLinks links names).Reads closedSpec c
      (fun found => found.map Prod.fst = names ∧ ∀ entry ∈ found, entry.2.valid = true) := by
  induction names with
  | nil => exact cwp_pure closedSpec hc ⟨rfl, rfl, by simp⟩
  | cons name rest ih =>
    rw [recordLinks]
    rcases hlink : links name with _ | link
    · exact cwp_throw closedSpec hc ⟨ne_invalidJournal name (by decide) (by decide), hc⟩
    apply ih.then
    rintro others ⟨hnames, hvalid⟩
    refine cwp_pure closedSpec hc ⟨rfl, by simp [hnames], ?_⟩
    simpa using ⟨hlinks name link hlink, by simpa using hvalid⟩

theorem inherited_some {c : Core} (hc : Inv c) {v : Record}
    (h : inherited c.journal = some v) :
    c.journal = some v ∧ v.count = 0 ∧ v.hold = (holds v).length ∧ v.hold ≠ 0 := by
  rcases hv : c.journal with _ | found
  · simp [hv, inherited] at h
  simp only [hv, inherited, Option.ite_none_right_eq_some, Option.some.injEq] at h
  obtain ⟨hstage, rfl⟩ := h
  obtain ⟨_, _, _, hcounters⟩ := validate_iff.mp (hc.valid found hv)
  simp only [countersAllowed, hstage, Bool.and_eq_true, beq_iff_eq] at hcounters
  refine ⟨rfl, hcounters.1, hcounters.2, ?_⟩
  rw [hcounters.2]
  simpa [holds] using hold_nonempty found.config.ingress found.id

theorem checkParked_reads {c : Core} (hc : Inv c) (config : Config) (parked : Option Record) :
    (checkParked config parked).Reads closedSpec c
      (fun _ => ∀ v, parked = some v → config.ingress = v.config.ingress) := by
  rcases parked with _ | v
  · exact cwp_pure closedSpec hc ⟨rfl, by simp⟩
  apply (observe_reads hc false v).then
  intro _ _
  apply cwp_require closedSpec hc (fun _ => ⟨by decide, hc⟩)
  intro hfields
  refine ⟨rfl, ?_⟩
  intro found hfound
  cases hfound
  exact Ingress.fields_injective (by simpa using hfields)

theorem begin_record {c : Core} (hc : Inv c) {config : Config} (hconfig : config.valid = true)
    (hingress : ∀ v, inherited c.journal = some v → config.ingress = v.config.ingress)
    (hitems : c.items.Nodup ∧
      ∀ item ∈ c.items, item ∈ ((inherited c.journal).map holds).getD [])
    {links : List (String × Link)} (hnames : links.map Prod.fst = linkNames config)
    (hlinks : ∀ entry ∈ links, entry.2.valid = true) {scope : Scope} (hscope : scope.valid = true)
    {freshId : String} (hfresh : Text.hex 24 freshId = true) (firewall : Firewall) :
    let oldHold := ((inherited c.journal).map Record.hold).getD 0
    let id := if oldHold = 0 then freshId else ((inherited c.journal).map Record.id).getD freshId
    validateTunnelDnsJournal ⟨id, scope, config, links, firewall, 0, oldHold, .installing⟩ = true ∧
      Owned ⟨id, scope, config, links, firewall, 0, oldHold, .installing⟩ c.items := by
  have hperm : (links.map Prod.fst).isPerm (linkNames config) = true := by
    rw [hnames, List.isPerm_iff]
  have hall : links.all (fun entry => entry.2.valid) = true := List.all_eq_true.mpr hlinks
  cases hparked : inherited c.journal with
  | none =>
    simp only [hparked, Option.map_none, Option.getD_none, if_true] at hitems ⊢
    refine ⟨validate_iff.mpr ⟨?_, Nat.zero_le _, Nat.zero_le _, rfl⟩, hitems.1, ?_⟩
    · simp [Record.sound, hfresh, hscope, hconfig, hperm, hall]
    · intro item hitem
      exact absurd (hitems.2 item hitem) (by simp)
  | some v =>
    obtain ⟨hv, _, hhold, hnonzero⟩ := inherited_some hc hparked
    have hsame := hingress v hparked
    obtain ⟨hsound, _⟩ := validate_iff.mp (hc.valid v hv)
    have hid : Text.hex 24 v.id = true := by
      simp only [Record.sound, Bool.and_eq_true] at hsound
      exact hsound.1.1.1.1
    simp only [hparked, Option.map_some, Option.getD_some, if_neg hnonzero] at hitems ⊢
    refine ⟨validate_iff.mpr ⟨?_, Nat.zero_le _, ?_, rfl⟩, hitems.1, ?_⟩
    · simp [Record.sound, hid, hscope, hconfig, hperm, hall]
    · simp only [holds, hsame]
      exact Nat.le_of_eq hhold
    · intro item hitem
      have hgate := hitems.2 item hitem
      refine List.mem_append_right _ ?_
      simp only [holds, hsame]
      change item ∈ (holds v).take v.hold
      rw [List.take_of_length_le (Nat.le_of_eq hhold.symm)]
      exact hgate

theorem begin_cwp {c : Core} (hc : Inv c) (input : Input) :
    (begin input).cwp closedSpec (fun _ d => Inv d) c := by
  rw [begin]
  rcases hconfig : configOf input with _ | config
  · exact cwp_throw closedSpec hc ⟨by decide, hc⟩
  apply cwp_ask_then closedSpec hc
  intro w _
  apply cwp_require_then closedSpec hc (fun _ => ⟨by decide, hc⟩)
  intro _
  apply (checkParked_reads hc config (inherited c.journal)).then
  intro _ hingress
  apply (readNetwork_reads hc false).then
  rintro snapshot ⟨hsnapshot, hlinks⟩
  apply (audit_reads hc hsnapshot _).then
  intro _ hitems
  refine cwp_seq closedSpec (resetTunnelDnsConntrack_cwp hc false config .preflight) ?_
  rintro _ d hd ⟨table, reset, rfl, _⟩
  apply (recordLinks_reads hd hlinks (linkNames config)).then
  rintro links ⟨hnames, hvalid⟩
  apply cwp_ask_then closedSpec hd
  intro w hw
  obtain ⟨hrecord, howned⟩ := begin_record hc (configOf_valid hconfig) hingress hitems hnames
    hvalid hw.scope hw.freshId snapshot.firewall
  exact save_cwp hd hrecord howned id

theorem loseLink_cwp {c : Core} (hc : Inv c) (name : String) :
    (loseLink name).cwp closedSpec (fun _ d => Inv d) c := by
  apply cwp_alter closedSpec hc
  intro w _
  refine ⟨?_, ?_⟩ <;>
    exact ⟨hc.lawful, hc.valid, fun v hv => ⟨(hc.owned v hv).1.filter _,
      fun item hitem => (hc.owned v hv).2 item (List.mem_filter.mp hitem).1⟩⟩

/-- Journals of one host, from its first session on. A journal is opened by
one process at a time; the death of a process changes nothing but that. -/
def system : System World Call Unit :=
  coreSystem Around.WellFormed (fun c => c.journal = none ∧ c.removals = []) Call.program id

def contract : system.Contract :=
  coreContract Inv Inv (fun _ _ _ d => Inv d) (fun _ _ error d => error ≠ invalidJournal ∧ Inv d)
    (fun c hinit => ⟨by simp [hinit.2], by simp [hinit.1], by simp [hinit.1]⟩)
    (fun _ h => h) (fun _ _ _ _ h => h) (fun _ _ _ _ h => h.2) (fun _ h => h)
    (fun i c hc => by
      cases i with
      | begin input => exact begin_cwp hc input
      | applyStage stage => exact applyStage_cwp hc stage
      | activate => exact activate_cwp hc
      | restore keepHold apply =>
        exact cwp_seq closedSpec (restore_cwp hc keepHold apply)
          (fun _ d hd _ => cwp_pure closedSpec hd hd)
      | prepareRestart fromTun lanSubnet lanInterface =>
        exact prepareRestart_cwp hc fromTun lanSubnet lanInterface
      | loseLink name => exact loseLink_cwp hc name)

instance : IsPreorder World system.env :=
  inferInstanceAs (IsPreorder World (sameCore Around.WellFormed))

theorem reachable_inv {s : World} (h : system.Reachable s) : Inv s.core :=
  (contract.reachable h).2

/-- A host with one TUN where nothing else happens. -/
def calm : Around where
  scope := ⟨"00000000-0000-0000-0000-000000000000", "net:[1]", "user:[1]"⟩
  firewall := some .nfTables
  links name := if name = "tun0" then some ⟨7, "", "none"⟩ else none
  traffic := id
  locals := []
  routeGet _ := []
  freshId := "000000000000000000000000"
  late := false
  conntrackLate := false
  failure := none

theorem calm_wellFormed : calm.WellFormed := by
  refine ⟨by decide, by decide, ?_⟩
  intro name link h
  simp only [calm, Option.ite_none_right_eq_some, Option.some.injEq] at h
  obtain ⟨_, rfl⟩ := h
  decide

def fresh : World := ⟨⟨none, [], [], none, []⟩, calm⟩

def after (calls : List Call) (s : World) : World :=
  calls.foldl (fun s call => (call.program.run s).2) s

theorem reachable_after (calls : List Call) {s : World} (h : system.Reachable s) :
    system.Reachable (after calls s) := by
  induction calls generalizing s with
  | nil => exact h
  | cons call rest ih => exact ih (System.Reachable.run system h call)

theorem fresh_reachable : system.Reachable fresh := .init ⟨calm_wellFormed, rfl, rfl⟩

end Meshpn.TunnelDns
