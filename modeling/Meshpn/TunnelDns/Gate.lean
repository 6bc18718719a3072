import Meshpn.TunnelDns.ClosedSteps

/-!
The loops that close the gate, undo the plan and open the gate again. They
carry the record, the read-back itself and which of the two lists, plan or
gate, is complete; one rule covers the two loops that undo a list.
-/

namespace Meshpn.TunnelDns

open Meshpn.Lib List

def Record.sound (v : Record) : Bool :=
  Text.hex 24 v.id && v.scope.valid && v.config.valid &&
    (v.links.map Prod.fst).isPerm (linkNames v.config) &&
    v.links.all (fun entry => entry.2.valid)

variable {v : Record} {items : List Item} {snapshot : Snapshot} {item : Item} {timed : Bool}
  {c : Core} {n : Nat}

theorem validate_iff :
    validateTunnelDnsJournal v = true ↔
      v.sound = true ∧ v.count ≤ (operations v).length ∧ v.hold ≤ (holds v).length ∧
        countersAllowed v = true := by
  simp [validateTunnelDnsJournal, Record.sound, and_assoc]

theorem validate_restoring (hsound : v.sound = true) (hstage : v.stage = .restoring)
    (hcount : v.count ≤ (operations v).length) (hhold : v.hold ≤ (holds v).length) :
    validateTunnelDnsJournal v = true :=
  validate_iff.mpr ⟨hsound, hcount, hhold, by simp [countersAllowed, hstage]⟩

theorem Owned.mono {v u : Record} (h : Owned v items)
    (hsub : ∀ item ∈ items, item ∈ owned v → item ∈ owned u) : Owned u items :=
  ⟨h.1, fun item hitem => hsub item hitem (h.2 item hitem)⟩

theorem hold_not_plan (h : item ∈ holds v) :
    item ∉ (operations v).map Op.item := by
  intro hplan
  obtain ⟨op, hop, rfl⟩ := mem_map.mp hplan
  have hgate := hold_isHold op.item h
  rw [plan_not_hold hop] at hgate
  cases hgate

theorem owned_gate (hcount : v.count = 0) (h : item ∈ owned v) :
    item ∈ holds v := by
  rw [owned, hcount] at h
  exact mem_of_mem_take (by simpa using h)

@[simp] theorem mem_insertItem {first : Bool} {item other : Item} :
    other ∈ insertItem first item items ↔ other = item ∨ other ∈ items := by
  cases first <;> simp [insertItem, or_comm]

theorem nodup_insertItem {first : Bool} (h : items.Nodup)
    (hnew : item ∉ items) : (insertItem first item items).Nodup := by
  have hcons : (item :: items).Nodup := nodup_cons.mpr ⟨hnew, h⟩
  cases first with
  | true => exact hcons
  | false => exact (perm_append_singleton item items).nodup_iff.mpr hcons

section Commands

variable {c : Core} (hc : Inv c) {v : Record} (hv : c.journal = some v)
include hc hv

theorem inv_add (first : Bool) {item : Item} (howned : item ∈ owned v) (hnew : item ∉ c.items) :
    Inv { c with items := insertItem first item c.items, reset := none } where
  lawful := hc.lawful
  valid := hc.valid
  owned u hu := by
    obtain rfl : v = u := Option.some.inj (hv.symm.trans hu)
    obtain ⟨hnodup, hmem⟩ := hc.owned v hv
    refine ⟨nodup_insertItem hnodup hnew, ?_⟩
    intro other hother
    rcases mem_insertItem.mp hother with rfl | hold
    · exact howned
    · exact hmem other hold

omit hv in
theorem inv_remove {item : Item}
    (hlawful : Removal.Lawful ⟨item, c.items, c.journal, c.reset⟩) :
    Inv { c with items := c.items.erase item,
                 removals := c.removals ++ [⟨item, c.items, c.journal, c.reset⟩] } where
  lawful := by
    intro removal hremoval
    rcases mem_append.mp hremoval with hold | hnew
    · exact hc.lawful removal hold
    · rw [mem_singleton.mp hnew]
      exact hlawful
  valid := hc.valid
  owned u hu := by
    obtain ⟨hnodup, hmem⟩ := hc.owned u hu
    exact ⟨hnodup.erase item, fun other hother => hmem other (mem_of_mem_erase hother)⟩

theorem run_add_cwp (timed first : Bool) {item : Item} (howned : item ∈ owned v)
    (hnew : item ∉ c.items) {Q : Unit → Core → Prop}
    (hQ : Inv { c with items := insertItem first item c.items, reset := none } →
      Q () { c with items := insertItem first item c.items, reset := none }) :
    (run timed item.file (addItem first item)).cwp closedSpec Q c := by
  apply run_cwp hc
  intro w d hd
  simp only [addItem] at hd
  split at hd
  · cases hd
    have hinv := inv_add hc hv first howned hnew
    exact ⟨hinv, hQ hinv⟩
  · cases hd

end Commands

/-- The record that is being rolled back is the saved one. -/
structure Rolling (v : Record) (c : Core) : Prop where
  inv : Inv c
  journal : c.journal = some v
  stage : v.stage = .restoring

namespace Rolling

variable {v : Record} {c : Core} (h : Rolling v c)
include h

theorem parts : v.sound = true ∧ v.count ≤ (operations v).length ∧ v.hold ≤ (holds v).length := by
  obtain ⟨hsound, hcount, hhold, _⟩ := validate_iff.mp (h.inv.valid v h.journal)
  exact ⟨hsound, hcount, hhold⟩

theorem save_cwp {u : Record} (hvalid : validateTunnelDnsJournal u = true)
    (howned : Owned u c.items) (hstage : u.stage = .restoring) {Q : Unit → Core → Prop}
    (hQ : Rolling u { c with journal := some u } → Q () { c with journal := some u }) :
    (save u).cwp closedSpec Q c :=
  TunnelDns.save_cwp h.inv hvalid howned (fun hinv => hQ ⟨hinv, rfl, hstage⟩)

end Rolling

theorem owned_hold_mono (h : v.hold ≤ n)
    (hitem : item ∈ owned v) : item ∈ owned { v with hold := n } := by
  rcases mem_append.mp hitem with hplan | hgate
  · exact mem_append_left _ hplan
  · exact mem_append_right _ ((take_subset_take_left _ h) hgate)

theorem addMissing_cwp (h : Rolling v c) (hsnapshot : snapshot.items = c.items)
    (howned : item ∈ owned v) :
    (addMissing timed snapshot item).cwp closedSpec
      (fun _ d => Rolling v d ∧ ∀ other ∈ c.items, other ∈ d.items) c := by
  rw [addMissing]
  split
  · exact cwp_pure closedSpec h.inv ⟨h, fun _ hother => hother⟩
  next habsent =>
  have hnew : item ∉ c.items := by
    simpa [hsnapshot] using habsent
  apply run_add_cwp h.inv h.journal timed true howned hnew
  intro hinv
  refine ⟨⟨hinv, h.journal, h.stage⟩, ?_⟩
  intro other hother
  simp only [mem_insertItem]
  exact Or.inr hother

theorem ensureFrom_cwp (rest : List Item) {index : Nat} (h : Rolling v c) (hrest : (holds v).drop index = rest)
    (hindex : index ≤ v.hold) (hclosed : ∀ gate ∈ (holds v).take index, gate ∈ c.items)
    (hsnapshot : snapshot.items = c.items) :
    (ensureFrom timed rest index v snapshot).cwp closedSpec
      (fun result d => Rolling result.1 d ∧ result.2.items = d.items ∧
        result.1 = { v with hold := (holds v).length } ∧ ∀ gate ∈ holds v, gate ∈ d.items) c := by
  obtain ⟨hsound, hcount, hhold⟩ := h.parts
  induction rest generalizing index v c snapshot with
  | nil =>
    have hlength : (holds v).length ≤ index := drop_eq_nil_iff.mp hrest
    refine cwp_pure closedSpec h.inv ⟨h, hsnapshot, ?_, ?_⟩
    · have : v.hold = (holds v).length := by omega
      rw [← this]
    · rwa [take_of_length_le hlength] at hclosed
  | cons item rest ih =>
    have hlt : index < (holds v).length := by
      by_contra hge
      rw [drop_of_length_le (by omega)] at hrest
      cases hrest
    obtain ⟨hitem, hdrop⟩ : (holds v)[index] = item ∧ (holds v).drop (index + 1) = rest := by
      rw [drop_eq_getElem_cons hlt, List.cons.injEq] at hrest
      exact hrest
    have hmax : max v.hold (index + 1) ≤ (holds v).length := by omega
    apply (checkDeadline_reads h.inv timed).then
    intro _ _
    refine cwp_seq closedSpec (R := fun _ d => Rolling { v with hold := max v.hold (index + 1) } d ∧
      d.items = c.items) ?_ ?_
    · apply h.save_cwp (validate_restoring (v := { v with hold := max v.hold (index + 1) }) hsound
        h.stage hcount hmax) _ h.stage (fun hnext => ⟨hnext, rfl⟩)
      exact (h.inv.owned v h.journal).mono fun _ _ => owned_hold_mono (Nat.le_max_left _ _)
    rintro _ d _ ⟨hd, hitems⟩
    have howned : item ∈ owned { v with hold := max v.hold (index + 1) } := by
      refine mem_append_right _ (mem_take_iff_getElem.mpr ⟨index, ?_, hitem⟩)
      exact Nat.lt_min.mpr ⟨Nat.le_max_right _ _, hlt⟩
    refine cwp_seq closedSpec (addMissing_cwp hd (hsnapshot.trans hitems.symm) howned) ?_
    rintro _ e _ ⟨he, hkept⟩
    apply (observe_reads he.inv timed _).then
    rintro again ⟨hagain, _⟩
    apply cwp_require_then closedSpec he.inv (fun _ => ⟨by decide, he.inv⟩)
    intro hback
    refine ih he hdrop (Nat.le_max_right _ _) ?_ hagain hsound hcount hmax
    intro gate hgate
    change gate ∈ (holds v).take (index + 1) at hgate
    rw [take_succ_eq_append_getElem hlt] at hgate
    rcases mem_append.mp hgate with hearlier | hlast
    · exact hkept gate (hitems ▸ hclosed gate hearlier)
    · rw [mem_singleton.mp hlast, hitem, ← hagain]
      simpa using hback

theorem ensureHold_cwp (hc : Inv c)
    (hv : c.journal = some v) (hsnapshot : snapshot.items = c.items) :
    (ensureHold timed v snapshot).cwp closedSpec
      (fun result d => Rolling result.1 d ∧ result.2.items = d.items ∧
        result.1.hold = (holds result.1).length ∧ ∀ gate ∈ holds result.1, gate ∈ d.items) c := by
  obtain ⟨hsound, hcount, hhold, _⟩ := validate_iff.mp (hc.valid v hv)
  refine cwp_seq closedSpec
    (R := fun _ d => Rolling { v with stage := .restoring } d ∧ d.items = c.items) ?_ ?_
  · apply save_cwp hc
      (validate_restoring (v := { v with stage := .restoring }) hsound rfl hcount hhold)
      (hc.owned v hv)
    exact fun hinv => ⟨⟨hinv, rfl, rfl⟩, rfl⟩
  · rintro _ d _ ⟨hd, hitems⟩
    refine cwp_mono closedSpec (ensureFrom_cwp (holds { v with stage := .restoring }) hd rfl
      (Nat.zero_le _) (by simp) (hsnapshot.trans hitems.symm)) ?_
    rintro ⟨u, again⟩ e _ ⟨hu, hagain, heq, hclosed⟩
    simp only at hu hagain heq
    subst heq
    exact ⟨hu, hagain, rfl, hclosed⟩

/-- What one of the two undo loops maintains: `P n` is its invariant with `n`
items left. The step is the removal of the last item, if the kernel has it,
and the step back of the counter once the kernel does not. -/
structure UndoRule (items : List Item) (put : Record → Nat → Record)
    (P : Nat → Record → Core → Prop) : Prop where
  state : ∀ {n v c}, P n v c → Inv c ∧ c.journal = some v ∧ n ≤ items.length
  lawful : ∀ {n v c item}, P (n + 1) v c → items[n]? = some item → item ∈ c.items →
    Removal.Lawful ⟨item, c.items, c.journal, c.reset⟩
  removed : ∀ {n v c item}, P (n + 1) v c → items[n]? = some item → ∀ removals,
    Inv { c with items := c.items.erase item, removals := removals } →
    P (n + 1) v { c with items := c.items.erase item, removals := removals }
  saved : ∀ {n v c item}, P (n + 1) v c → items[n]? = some item → item ∉ c.items →
    validateTunnelDnsJournal (put v n) = true ∧ Owned (put v n) c.items ∧
      (Inv { c with journal := some (put v n) } →
        P n (put v n) { c with journal := some (put v n) })

theorem removePresent_cwp {put : Record → Nat → Record}
    {P : Nat → Record → Core → Prop} (hrule : UndoRule items put P) (h : P (n + 1) v c) (hitem : items[n]? = some item) (hsnapshot : snapshot.items = c.items) :
    (removePresent timed snapshot item).cwp closedSpec (fun _ d => P (n + 1) v d) c := by
  obtain ⟨hc, _, _⟩ := hrule.state h
  rw [removePresent]
  split
  · next hpresent =>
    rw [hsnapshot, contains_iff_mem] at hpresent
    apply run_cwp hc
    intro w d hd
    simp only [removeItem] at hd
    split at hd
    · cases hd
      have hinv := inv_remove hc (hrule.lawful h hitem hpresent)
      exact ⟨hinv, hrule.removed h hitem _ hinv⟩
    · cases hd
  · exact cwp_pure closedSpec hc h

theorem undo_cwp {put : Record → Nat → Record}
    {P : Nat → Record → Core → Prop} (hrule : UndoRule items put P) {message : String}
    (hmessage : message ≠ invalidJournal) (h : P n v c) (hsnapshot : snapshot.items = c.items) :
    (undo timed items put message n v snapshot).cwp closedSpec
      (fun result d => P 0 result.1 d) c := by
  induction n generalizing v c snapshot with
  | zero =>
    exact cwp_pure closedSpec (hrule.state h).1 h
  | succ n ih =>
    obtain ⟨hc, _, hlength⟩ := hrule.state h
    rw [undo]
    apply (checkDeadline_reads hc timed).then
    intro _ _
    obtain ⟨item, hitem⟩ : ∃ item, items[n]? = some item :=
      ⟨items[n], getElem?_eq_getElem hlength⟩
    simp only [hitem]
    refine cwp_seq closedSpec (removePresent_cwp hrule h hitem hsnapshot) ?_
    intro _ d _ hd
    obtain ⟨hinv, _, _⟩ := hrule.state hd
    apply (observe_reads hinv timed v).then
    rintro again ⟨hagain, _⟩
    apply cwp_require_then closedSpec hinv (fun _ => ⟨hmessage, hinv⟩)
    intro hgone
    have habsent : item ∉ d.items := by
      simpa [hagain] using hgone
    obtain ⟨hvalid, howned, hnext⟩ := hrule.saved hd hitem habsent
    refine cwp_seq closedSpec (R := fun _ e => P n (put v n) e ∧ e.items = d.items)
      (save_cwp hinv hvalid howned (fun hsaved => ⟨hnext hsaved, rfl⟩)) ?_
    rintro _ e _ ⟨he, hitems⟩
    exact ih he (hagain.trans hitems.symm)

/-- The rollback goes on behind the complete gate. -/
structure GateClosed (n : Nat) (v : Record) (c : Core) : Prop extends Rolling v c where
  count : v.count = n
  hold : v.hold = (holds v).length
  closed : ∀ gate ∈ holds v, gate ∈ c.items

/-- The gate of a release: nothing of the plan is left, and the connections
were reset. -/
structure GateReleased (n : Nat) (v : Record) (c : Core) : Prop extends Rolling v c where
  count : v.count = 0
  hold : v.hold = n
  reset : ∃ reset, c.reset = some reset ∧ reset.Complete v.config

/-- The gate over a complete installation. -/
structure GateReplaced (n : Nat) (v : Record) (c : Core) : Prop where
  inv : Inv c
  journal : c.journal = some v
  stage : v.stage = .installing
  count : v.count = (operations v).length
  hold : v.hold = n
  complete : ∀ op ∈ operations v, op.item ∈ c.items

theorem mem_take_of_gone {gone item : Item}
    (hgone : items[n]? = some gone) (hne : item ≠ gone) (h : item ∈ items.take (n + 1)) :
    item ∈ items.take n := by
  rw [take_add_one, hgone, mem_append] at h
  rcases h with h | h
  · exact h
  · simp [hne] at h

theorem gateClosed_rule (plan : List Item) :
    UndoRule plan (fun v n => { v with count := n })
      (fun n v c => GateClosed n v c ∧ (operations v).map Op.item = plan) where
  state h := by
    obtain ⟨h, rfl⟩ := h
    refine ⟨h.inv, h.journal, ?_⟩
    simpa [h.count] using h.toRolling.parts.2.1
  lawful h hitem hpresent := by
    obtain ⟨h, rfl⟩ := h
    have hplan := mem_of_getElem? hitem
    exact ⟨_, h.journal, Or.inl hplan, fun _ => h.closed,
      fun hgate => absurd hplan (hold_not_plan hgate)⟩
  removed h hitem removals hinv := by
    obtain ⟨h, rfl⟩ := h
    refine ⟨⟨⟨hinv, h.journal, h.stage⟩, h.count, h.hold, ?_⟩, rfl⟩
    intro gate hgate
    refine (mem_erase_of_ne ?_).mpr (h.closed gate hgate)
    rintro rfl
    exact hold_not_plan hgate (mem_of_getElem? hitem)
  saved {n v c item} h hitem habsent := by
    obtain ⟨h, rfl⟩ := h
    obtain ⟨hsound, hcount, hhold⟩ := h.toRolling.parts
    refine ⟨validate_restoring (v := { v with count := n }) hsound h.stage ?_ hhold, ?_, ?_⟩
    · have := h.count
      exact Nat.le_trans (by simp [h.count]) hcount
    · refine (h.inv.owned v h.journal).mono ?_
      intro other hother hmem
      rcases mem_append.mp hmem with hplan | hgate
      · refine mem_append_left _ ?_
        rw [h.count, map_take] at hplan
        rw [map_take]
        exact mem_take_of_gone hitem (fun heq => habsent (heq ▸ hother)) hplan
      · exact mem_append_right _ hgate
    · exact fun hinv => ⟨⟨⟨hinv, rfl, h.stage⟩, rfl, h.hold, h.closed⟩, rfl⟩

theorem owned_hold_back {gone : Item} (hhold : v.hold = n + 1)
    (hgone : (holds v)[n]? = some gone) (habsent : gone ∉ c.items) (h : Owned v c.items) :
    Owned { v with hold := n } c.items := by
  refine h.mono ?_
  intro other hother hmem
  rcases mem_append.mp hmem with hplan | hgate
  · exact mem_append_left _ hplan
  refine mem_append_right _ ?_
  rw [hhold] at hgate
  exact mem_take_of_gone hgone (fun heq => habsent (heq ▸ hother)) hgate

theorem gateReleased_rule (gates : List Item) :
    UndoRule gates (fun v n => { v with hold := n })
      (fun n v c => GateReleased n v c ∧ holds v = gates) where
  state h := by
    obtain ⟨h, rfl⟩ := h
    exact ⟨h.inv, h.journal, by simpa [h.hold] using h.toRolling.parts.2.2⟩
  lawful {n v c item} h hitem hpresent := by
    obtain ⟨h, rfl⟩ := h
    have hgate := mem_of_getElem? hitem
    refine ⟨v, h.journal, Or.inr hgate, fun hplan => absurd hplan (hold_not_plan hgate), ?_⟩
    refine fun _ => Or.inr ⟨?_, h.reset⟩
    intro op hop hmem
    have howned := owned_gate h.count ((h.inv.owned v h.journal).2 _ hmem)
    exact hold_not_plan howned (mem_map_of_mem hop)
  removed h hitem removals hinv := by
    obtain ⟨h, rfl⟩ := h
    exact ⟨⟨⟨hinv, h.journal, h.stage⟩, h.count, h.hold, h.reset⟩, rfl⟩
  saved {n v c item} h hitem habsent := by
    obtain ⟨h, rfl⟩ := h
    obtain ⟨hsound, hcount, hhold⟩ := h.toRolling.parts
    refine ⟨validate_restoring (v := { v with hold := n }) hsound h.stage hcount ?_,
      owned_hold_back h.hold hitem habsent (h.inv.owned v h.journal), ?_⟩
    · exact Nat.le_trans (by simp [h.hold]) hhold
    · exact fun hinv => ⟨⟨⟨hinv, rfl, h.stage⟩, h.count, rfl, h.reset⟩, rfl⟩

theorem gateReplaced_rule (gates : List Item) :
    UndoRule gates (fun v n => { v with hold := n })
      (fun n v c => GateReplaced n v c ∧ holds v = gates) where
  state {n v c} h := by
    obtain ⟨h, rfl⟩ := h
    obtain ⟨_, _, hhold, _⟩ := validate_iff.mp (h.inv.valid v h.journal)
    exact ⟨h.inv, h.journal, by simpa [h.hold] using hhold⟩
  lawful {n v c item} h hitem hpresent := by
    obtain ⟨h, rfl⟩ := h
    have hgate := mem_of_getElem? hitem
    exact ⟨v, h.journal, Or.inr hgate, fun hplan => absurd hplan (hold_not_plan hgate),
      fun _ => Or.inl h.complete⟩
  removed {n v c item} h hitem removals hinv := by
    obtain ⟨h, rfl⟩ := h
    refine ⟨⟨hinv, h.journal, h.stage, h.count, h.hold, ?_⟩, rfl⟩
    intro op hop
    refine (mem_erase_of_ne ?_).mpr (h.complete op hop)
    rintro rfl
    exact hold_not_plan (mem_of_getElem? hitem) (mem_map_of_mem hop)
  saved {n v c item} h hitem habsent := by
    obtain ⟨h, rfl⟩ := h
    obtain ⟨hsound, hcount, hhold, _⟩ := validate_iff.mp (h.inv.valid v h.journal)
    refine ⟨validate_iff.mpr ⟨hsound, hcount, ?_, ?_⟩,
      owned_hold_back h.hold hitem habsent (h.inv.owned v h.journal), ?_⟩
    · exact Nat.le_trans (by simp [h.hold]) hhold
    · simp [countersAllowed, h.stage]
    · exact fun hinv => ⟨⟨hinv, rfl, h.stage, h.count, rfl, h.complete⟩, rfl⟩

end Meshpn.TunnelDns
