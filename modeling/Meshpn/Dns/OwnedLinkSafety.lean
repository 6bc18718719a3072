import Meshpn.Dns.CoupledInvariant

/-!
The child transaction under the joint invariant. A run that the outer journal
is waiting for keeps the invariant at every moment and ends at `created` on
the way up and at `released` on the way down.
-/

namespace Meshpn.Dns.Coupled

open Meshpn.Lib

/-- Inside a run of the child transaction that the outer journal is waiting
for: `recover` in phase `link`, `disable` in phase `unlink`. -/
structure Inside (S : Scenario) (operation : Operation) (record : Record) (child : LinkRecord)
    (c : CoupledCore) : Prop where
  holds : S.Holds c
  journal : c.journal = some record
  child : c.child = some child
  guarded : c.guarded = true
  way : operation = .recover ∧ record.phase = .link ∨
    operation = .disable ∧ record.phase = .unlink

section Child

variable {S : Scenario} {operation : Operation} {record : Record} {child : LinkRecord}
  {c : CoupledCore}

theorem Inside.joint (h : Inside S operation record child c) :
    Joint record child (c.links record.name) := by
  obtain ⟨_, _, _, found, hfound, hjoint⟩ := h.holds.journal record h.journal
  obtain rfl : child = found := Option.some.inj (h.child.symm.trans hfound)
  exact hjoint

theorem Inside.follows (h : Inside S operation record child c) :
    Follows child (c.links record.name) := by
  have hphase := h.joint.phase
  rcases h.way with ⟨_, hway⟩ | ⟨_, hway⟩
  · simp only [InPhase, hway] at hphase
    exact hphase.1
  · simp only [InPhase, hway] at hphase
    exact hphase.1

/-- What the phase asks of a stage: not past the creation on the way up, not
before it on the way down once an original was recorded. -/
structure Fits (operation : Operation) (record : Record) (stage : LinkStage)
    (link : Option LinkState) : Prop where
  up : operation = .recover → stage.rank ≤ 4
  down : ∀ original, record.original = some original →
    4 ≤ stage.rank ∧ (link = none ∨ link = some original)

theorem Inside.fits (h : Inside S operation record child c) :
    Fits operation record child.stage (c.links record.name) := by
  have hphase := h.joint.phase
  have hvalid := (h.holds.journal record h.journal).1
  rcases h.way with ⟨hoperation, hway⟩ | ⟨hoperation, hway⟩
  · simp only [InPhase, hway] at hphase
    refine ⟨fun _ => hphase.2, fun original horiginal => ?_⟩
    simp [validJournal, hway, horiginal] at hvalid
  · simp only [InPhase, hway] at hphase
    exact ⟨fun hup => (by simp [hoperation] at hup), hphase.2⟩

theorem Inside.joint_of (h : Inside S operation record child c) (next : LinkRecord)
    {link : Option LinkState} (hid : next.id = child.id) (hname : next.name = child.name)
    (hcontext : next.context = child.context)
    (hindex : ∀ original, record.original = some original →
      next.ifindex = some original.ifindex)
    (hallowed : indexAllowed next.stage next.ifindex = true)
    (hfollows : Follows next link) (hfits : Fits operation record next.stage link) :
    Joint record next link where
  id := hid.trans h.joint.id
  name := hname.trans h.joint.name
  context := hcontext.trans h.joint.context
  index := hindex
  valid := by
    have hvalid := h.joint.valid
    simp only [validLinkJournal, Bool.and_eq_true] at hvalid ⊢
    rw [hid, hname, hcontext]
    exact ⟨hvalid.1, hallowed⟩
  phase := by
    rcases h.way with ⟨hoperation, hway⟩ | ⟨_, hway⟩
    · simp only [InPhase, hway]
      exact ⟨hfollows, hfits.up hoperation⟩
    · simp only [InPhase, hway]
      exact ⟨hfollows, hfits.down⟩

theorem Inside.step (h : Inside S operation record child c) {next : LinkRecord}
    {d : CoupledCore} (hjournal : d.journal = c.journal) (hchild : d.child = some next)
    (hguarded : d.guarded = c.guarded) (hlawful : ∀ event ∈ d.log, event.Lawful)
    (hjoint : Joint record next (d.links record.name)) :
    Inside S operation record next d := by
  have hguard := hguarded.trans h.guarded
  have hsame := hjournal.trans h.journal
  refine ⟨⟨?_, hlawful⟩, hsame, hchild, hguard, h.way⟩
  intro found hfound
  obtain rfl : record = found := Option.some.inj (hsame.symm.trans hfound)
  obtain ⟨hvalid, hknown, _⟩ := h.holds.journal record h.journal
  exact ⟨hvalid, hknown, fun _ => hguard, next, hchild, hjoint⟩

theorem writeLinkJournal_cwp (h : Inside S operation record child c) {next : LinkRecord}
    (hjoint : Joint record next (c.links record.name)) :
    (writeLinkJournal next).cwp S.spec
      (fun _ d => Inside S operation record next d ∧ d.links = c.links) c := by
  apply cwp_holds_then S.spec h.holds hjoint.valid
  apply cwp_alter S.spec h.holds
  intro _ _
  have hnext : Inside S operation record next { c with child := some next } :=
    h.step rfl rfl rfl h.holds.lawful hjoint
  exact ⟨hnext.holds, hnext, rfl⟩

theorem saveStage_cwp (h : Inside S operation record child c) {next : LinkRecord}
    {stage : LinkStage} (hjoint : Joint record { next with stage } (c.links record.name)) :
    (saveStage next stage).cwp S.spec
      (fun saved d => saved = { next with stage } ∧ Inside S operation record saved d ∧
        d.links = c.links) c := by
  refine cwp_seq S.spec (writeLinkJournal_cwp h hjoint) ?_
  rintro _ d hd ⟨hinside, hlinks⟩
  exact cwp_pure S.spec hd ⟨rfl, hinside, hlinks⟩

theorem Inside.name_pattern (h : Inside S operation record child c) :
    ownedNamePattern child.name = true := by
  rw [h.joint.name]
  exact Coupled.name_pattern h.holds h.journal

theorem observeLink_reads (h : Inside S operation record child c) :
    (observeLink child).Reads S.spec c
      (fun link => link = (c.links record.name).map LinkState.toLinkView) := by
  have hforgiving := forgiving_of_journal h.holds h.journal
  unfold observeLink
  rw [h.joint.context]
  apply (readContext_reads h.holds hforgiving).then
  rintro _ ⟨w, hw, rfl⟩
  apply cwp_require_then S.spec h.holds (context_blamed h.holds h.journal hw (by decide))
  intro _
  apply (linkView_reads h.holds hforgiving h.name_pattern).then
  rintro _ rfl
  apply (readContext_reads h.holds hforgiving).then
  rintro _ ⟨v, hv, rfl⟩
  apply cwp_require_then S.spec h.holds (context_blamed h.holds h.journal hv (by decide))
  intro _
  rw [h.joint.name]
  exact cwp_pure S.spec h.holds ⟨rfl, rfl⟩

variable {link : LinkState}

theorem assertOwnedEmptyLink_reads (hc : S.Holds c) {stamped : Bool}
    (hclean : Clean child link stamped) :
    (assertOwnedEmptyLink child (some link.toLinkView) stamped).Reads S.spec c
      (fun ifindex => ifindex = link.ifindex) := by
  have hfault : ownedLinkFault child.id child.name child.ifindex link.toLinkView stamped = none :=
    hclean
  simp only [assertOwnedEmptyLink, hfault]
  exact cwp_pure S.spec hc ⟨rfl, rfl⟩

theorem openLinkJournal_cwp (hc : S.Holds c) (hjournal : c.journal = some record)
    (hguarded : c.guarded = true)
    (hway : operation = .recover ∧ record.phase = .link ∨
      operation = .disable ∧ record.phase = .unlink) :
    (openLinkJournal operation).cwp S.spec
      (fun child d => Inside S operation record child d) c := by
  have hother : (operation == .enable) = false := by
    rcases hway with ⟨h, _⟩ | ⟨h, _⟩ <;> simp [h]
  unfold openLinkJournal
  rw [hother]
  refine cwp_mono S.spec (readLinkJournal_reads hc hjournal) ?_
  rintro child d _ ⟨rfl, hchild, _⟩
  exact ⟨hc, hjournal, hchild, hguarded, hway⟩

theorem atPrepared_cwp (h : Inside S operation record child c) :
    (atPrepared operation child ((c.links record.name).map LinkState.toLinkView)).cwp S.spec
      (fun next d => Inside S operation record next d ∧ 1 ≤ next.stage.rank) c := by
  unfold atPrepared
  split
  case isTrue hstage =>
    simp only [beq_iff_eq] at hstage
    have hfollows := h.follows
    have hdown := h.fits.down
    have hallowed := h.joint.valid
    simp only [Follows, hstage] at hfollows
    simp only [hstage, LinkStage.rank] at hdown
    simp only [validLinkJournal, hstage, indexAllowed, Bool.and_eq_true,
      Option.isNone_iff_eq_none] at hallowed
    have hnone : record.original = none := by
      cases horiginal : record.original with
      | none => rfl
      | some original => exact absurd (hdown original horiginal).1 (by omega)
    apply cwp_holds_then S.spec h.holds (by simp [hfollows])
    refine cwp_mono S.spec (saveStage_cwp h (h.joint_of _ rfl rfl rfl h.joint.index ?_ ?_ ?_)) ?_
    · split <;> simp [indexAllowed, hallowed.2]
    · split <;> simp [Follows, hfollows]
    · refine ⟨?_, by simp [hnone]⟩
      rintro rfl
      simp [LinkStage.rank]
    · rintro next d _ ⟨rfl, hinside, _⟩
      refine ⟨hinside, ?_⟩
      dsimp only
      split <;> simp [LinkStage.rank]
  case isFalse hstage =>
    apply cwp_pure S.spec h.holds
    refine ⟨h, ?_⟩
    cases hcase : child.stage <;> simp_all [LinkStage.rank]

theorem Inside.id_hex (h : Inside S operation record child c) : Text.hex 32 child.id = true := by
  have hvalid := h.joint.valid
  simp only [validLinkJournal, Bool.and_eq_true] at hvalid
  exact hvalid.1.1.1.1

theorem Inside.checkContext (h : Inside S operation record child c) :
    (checkContext child.context).Reads S.spec c (fun _ => True) := by
  rw [h.joint.context]
  exact checkContext_reads h.holds h.journal

theorem Inside.authority (h : Inside S operation record child c) :
    requireAuthority.Reads S.spec c (fun _ => True) :=
  requireAuthority_reads h.holds (forgiving_of_journal h.holds h.journal)

theorem newLink_clean (h : Inside S operation record child c)
    (hstage : child.stage = .createIntent) (w : Around) :
    Clean child (newLink (ownedLinkSpec child.id child.name false) w) false := by
  have hallowed := h.joint.valid
  simp only [validLinkJournal, hstage, indexAllowed, Bool.and_eq_true,
    Option.isNone_iff_eq_none] at hallowed
  have hindex : validIfindex w.freshIfindex.value = true := by
    have hlower := w.freshIfindex.lower
    have hupper := w.freshIfindex.upper
    simp only [validIfindex, Bool.and_eq_true, decide_eq_true_eq]
    omega
  exact ownedLinkFault_eq_none.mpr ⟨hindex, Or.inl hallowed.2, rfl, rfl, rfl⟩

theorem Inside.original_none (h : Inside S operation record child c)
    (hrank : child.stage.rank < 4) : record.original = none := by
  cases horiginal : record.original with
  | none => rfl
  | some original => exact absurd (h.fits.down original horiginal).1 (by omega)

theorem Inside.indexAllowed (h : Inside S operation record child c) :
    indexAllowed child.stage child.ifindex = true := by
  have hvalid := h.joint.valid
  simp only [validLinkJournal, Bool.and_eq_true] at hvalid
  exact hvalid.2

theorem Inside.created (h : Inside S operation record child c)
    (hstage : child.stage = .createIntent) (hclean : Clean child link false) :
    Inside S operation record child (c.setLink record.name (some link)) := by
  have hnone := h.original_none (by simp [hstage, LinkStage.rank])
  refine h.step rfl h.child rfl h.holds.lawful ?_
  have hlink : (c.setLink record.name (some link)).links record.name = some link := by
    simp [Core.setLink]
  rw [hlink]
  refine h.joint_of _ rfl rfl rfl h.joint.index h.indexAllowed ?_ ⟨?_, by simp [hnone]⟩
  · simp only [Follows, hstage]
    exact Or.inr ⟨link, rfl, hclean⟩
  · simp [hstage, LinkStage.rank]

theorem createLink_cwp (h : Inside S operation record child c)
    (hstage : child.stage = .createIntent) (hnone : c.links record.name = none)
    {spec : LinkSpec} (hspec : spec = ownedLinkSpec child.id child.name false) :
    (createLink child.context spec).cwp S.spec
      (fun _ d => Inside S operation record child d ∧
        ∃ link, d.links record.name = some link ∧ Clean child link false) c := by
  have hname : spec.name = record.name := by
    rw [hspec]
    exact h.joint.name
  have hpattern := Coupled.name_pattern h.holds h.journal
  apply h.checkContext.then
  intro _ _
  rw [hname]
  apply cwp_holds_then S.spec h.holds hpattern
  apply cwp_holds_then S.spec h.holds (by simp [hspec, ownedLinkSpec, ownedMac_pattern h.id_hex])
  apply cwp_holds_then S.spec h.holds (by simp [hspec, ownedLinkSpec, ← h.joint.name])
  apply (linkView_reads h.holds (forgiving_of_journal h.holds h.journal) hpattern).then
  rintro _ rfl
  apply cwp_holds_then S.spec h.holds (by simp [hnone])
  apply h.checkContext.then
  intro _ _
  apply h.authority.then
  intro _ _
  apply cwp_alter S.spec h.holds
  intro w _
  have hclean : Clean child (newLink spec w) false := by
    rw [hspec]
    exact newLink_clean h hstage w
  have hnext := h.created hstage hclean
  exact ⟨hnext.holds, hnext, _, by simp [Core.setLink], hclean⟩

theorem createOnce_cwp (h : Inside S operation record child c)
    (hstage : child.stage = .createIntent) :
    (createOnce child ((c.links record.name).map LinkState.toLinkView)).cwp S.spec
      (fun view d => Inside S operation record child d ∧
        ∃ link, d.links record.name = some link ∧ view = some link.toLinkView ∧
          Clean child link false) c := by
  have hfollows := h.follows
  simp only [Follows, hstage] at hfollows
  unfold createOnce
  rcases hfollows with hnone | ⟨link, hlink, hclean⟩
  · simp only [hnone, Option.map_none, Option.isNone_none, if_true]
    refine cwp_seq S.spec (createLink_cwp h hstage hnone rfl) ?_
    rintro _ d _ ⟨hinside, link, hlink, hclean⟩
    refine cwp_mono S.spec (observeLink_reads hinside) ?_
    rintro view e _ ⟨rfl, rfl⟩
    exact ⟨hinside, link, hlink, by simp [hlink], hclean⟩
  · simp only [hlink, Option.map_some, Option.isNone_some, Bool.false_eq_true, if_false]
    exact cwp_pure S.spec h.holds ⟨h, link, hlink, rfl, hclean⟩

theorem atCreateIntent_cwp (h : Inside S operation record child c)
    (hrank : 1 ≤ child.stage.rank) :
    (atCreateIntent operation child).cwp S.spec
      (fun next d => Inside S operation record next d ∧ 2 ≤ next.stage.rank) c := by
  unfold atCreateIntent
  split
  case isTrue hstage =>
    simp only [beq_iff_eq] at hstage
    have hnone := h.original_none (by simp [hstage, LinkStage.rank])
    apply (observeLink_reads h).then
    rintro _ rfl
    split
    case isTrue hundone =>
      obtain ⟨hlink, hdisable⟩ : c.links record.name = none ∧ operation = .disable := by
        simpa using hundone
      have hallowed := h.indexAllowed
      simp only [hstage, Coupled.indexAllowed, Option.isNone_iff_eq_none] at hallowed
      refine cwp_mono S.spec
        (saveStage_cwp h (h.joint_of _ rfl rfl rfl h.joint.index ?_ ?_ ⟨?_, by simp [hnone]⟩)) ?_
      · simp [Coupled.indexAllowed, hallowed]
      · exact hlink
      · simp [hdisable]
      · rintro next d _ ⟨rfl, hinside, _⟩
        exact ⟨hinside, by simp [LinkStage.rank]⟩
    case isFalse =>
      refine cwp_seq S.spec (createOnce_cwp h hstage) ?_
      rintro _ d _ ⟨hd, link, hlink, rfl, hclean⟩
      apply (assertOwnedEmptyLink_reads hd.holds hclean).then
      rintro _ rfl
      refine cwp_mono S.spec (saveStage_cwp hd
        (hd.joint_of { child with ifindex := some link.ifindex, stage := .unstamped }
          rfl rfl rfl (by simp [hnone]) ?_ ?_ ⟨?_, by simp [hnone]⟩)) ?_
      · exact (ownedLinkFault_eq_none.mp hclean).1
      · exact ⟨link, hlink, hclean.congr rfl rfl (Or.inr rfl)⟩
      · simp [LinkStage.rank]
      · rintro next e _ ⟨rfl, hinside, _⟩
        exact ⟨hinside, by simp [LinkStage.rank]⟩
  case isFalse hstage =>
    apply cwp_pure S.spec h.holds
    refine ⟨h, ?_⟩
    cases hcase : child.stage <;> simp_all [LinkStage.rank]

theorem atUnstamped_cwp (h : Inside S operation record child c)
    (hrank : 2 ≤ child.stage.rank) :
    (atUnstamped child).cwp S.spec
      (fun next d => Inside S operation record next d ∧ 3 ≤ next.stage.rank) c := by
  unfold atUnstamped
  split
  case isTrue hstage =>
    simp only [beq_iff_eq] at hstage
    have hnone := h.original_none (by simp [hstage, LinkStage.rank])
    have hfollows := h.follows
    simp only [Follows, hstage] at hfollows
    obtain ⟨link, hlink, hclean⟩ := hfollows
    apply (observeLink_reads h).then
    rintro _ rfl
    rw [hlink, Option.map_some]
    apply (assertOwnedEmptyLink_reads h.holds hclean).then
    rintro _ _
    have hallowed := h.indexAllowed
    refine cwp_mono S.spec
      (saveStage_cwp h (h.joint_of _ rfl rfl rfl h.joint.index ?_ ?_ ⟨?_, by simp [hnone]⟩)) ?_
    · cases hindex : child.ifindex <;> simp_all [Coupled.indexAllowed]
    · exact ⟨link, hlink, Or.inl (hclean.congr rfl rfl (Or.inl rfl))⟩
    · simp [LinkStage.rank]
    · rintro next d _ ⟨rfl, hinside, _⟩
      exact ⟨hinside, by simp [LinkStage.rank]⟩
  case isFalse hstage =>
    apply cwp_pure S.spec h.holds
    refine ⟨h, ?_⟩
    cases hcase : child.stage <;> simp_all [LinkStage.rank]

theorem stampLink_cwp (h : Inside S operation record child c)
    (hstage : child.stage = .stampIntent)
    (hlink : c.links record.name = some link) (hclean : Clean child link false)
    {ifalias : String} (hifalias : ifalias = ownedAlias child.id) :
    (stampLink child.context link.toLinkView ifalias).cwp S.spec
      (fun _ d => Inside S operation record child d ∧
        ∃ next, d.links record.name = some next ∧ Clean child next true) c := by
  have hname : link.spec.name = record.name := hclean.name.trans h.joint.name
  have hnone := h.original_none (by simp [hstage, LinkStage.rank])
  have hpattern := Coupled.name_pattern h.holds h.journal
  have halias : ownedAliasPattern ifalias = true := by
    rw [hifalias]
    exact ownedAlias_pattern h.id_hex
  apply h.checkContext.then
  intro _ _
  rw [hname]
  apply cwp_holds_then S.spec h.holds (by simp [hclean.ifalias, halias])
  apply (linkView_reads h.holds (forgiving_of_journal h.holds h.journal) hpattern).then
  rintro _ rfl
  apply cwp_holds_then S.spec h.holds (by simp [hlink])
  apply h.checkContext.then
  intro _ _
  apply h.authority.then
  intro _ _
  apply cwp_alter S.spec h.holds
  intro _ _
  have hstamped : Clean child (link.stamp ifalias) true := by
    rw [hifalias]
    exact hclean.stamp
  have hafter : (c.setLink record.name ((c.links record.name).map (·.stamp ifalias))).links
      record.name = some (link.stamp ifalias) := by
    simp [Core.setLink, hlink]
  have hnext : Inside S operation record child
      (c.setLink record.name ((c.links record.name).map (·.stamp ifalias))) := by
    refine h.step rfl h.child rfl h.holds.lawful ?_
    rw [hafter]
    refine h.joint_of _ rfl rfl rfl h.joint.index h.indexAllowed ?_ ⟨?_, by simp [hnone]⟩
    · simp only [Follows, hstage]
      exact ⟨_, rfl, Or.inr hstamped⟩
    · simp [hstage, LinkStage.rank]
  exact ⟨hnext.holds, hnext, _, hafter, hstamped⟩

theorem ownedAlias_ne_empty (id : String) : ownedAlias id ≠ "" := by
  intro h
  have hchars := congrArg (fun s => s.toList.length) h
  simp [ownedAlias] at hchars

theorem stampOnce_cwp (h : Inside S operation record child c)
    (hstage : child.stage = .stampIntent)
    (hlink : c.links record.name = some link)
    (hclean : Clean child link false ∨ Clean child link true) :
    (stampOnce child link.toLinkView).cwp S.spec
      (fun _ d => Inside S operation record child d ∧
        ∃ next, d.links record.name = some next ∧ Clean child next true) c := by
  unfold stampOnce
  rcases hclean with hclean | hclean
  · have hempty : (link.toLinkView.spec.ifalias == "") = true := by
      simp [hclean.ifalias]
    rw [if_pos hempty]
    apply (assertOwnedEmptyLink_reads h.holds hclean).then
    intro _ _
    exact stampLink_cwp h hstage hlink hclean rfl
  · have hstamped : ¬ (link.toLinkView.spec.ifalias == "") = true := by
      simp [hclean.ifalias, ownedAlias_ne_empty]
    rw [if_neg hstamped]
    exact cwp_pure S.spec h.holds ⟨h, link, hlink, hclean⟩

theorem indexAllowed_late {stage next : LinkStage} {ifindex : Option Nat}
    (h : indexAllowed stage ifindex = true) (hstage : 2 ≤ stage.rank) (hlive : stage.rank ≤ 5)
    (hnext : 2 ≤ next.rank) : indexAllowed next ifindex = true := by
  cases stage <;> cases next <;> cases ifindex <;> simp_all [indexAllowed, LinkStage.rank]

theorem atStampIntent_cwp (h : Inside S operation record child c)
    (hrank : 3 ≤ child.stage.rank) :
    (atStampIntent child).cwp S.spec
      (fun next d => Inside S operation record next d ∧ 4 ≤ next.stage.rank) c := by
  unfold atStampIntent
  split
  case isTrue hstage =>
    simp only [beq_iff_eq] at hstage
    have hnone := h.original_none (by simp [hstage, LinkStage.rank])
    have hfollows := h.follows
    simp only [Follows, hstage] at hfollows
    obtain ⟨link, hlink, hclean⟩ := hfollows
    apply (observeLink_reads h).then
    rintro _ rfl
    rw [hlink, Option.map_some]
    dsimp only
    refine cwp_seq S.spec (stampOnce_cwp h hstage hlink hclean) ?_
    rintro _ d _ ⟨hd, next, hnext, hstamped⟩
    apply (observeLink_reads hd).then
    rintro _ rfl
    rw [hnext, Option.map_some]
    apply (assertOwnedEmptyLink_reads hd.holds hstamped).then
    intro _ _
    refine cwp_mono S.spec
      (saveStage_cwp hd (hd.joint_of _ rfl rfl rfl hd.joint.index ?_ ?_ ⟨?_, by simp [hnone]⟩)) ?_
    · exact indexAllowed_late hd.indexAllowed (by simp [hstage, LinkStage.rank])
        (by simp [hstage, LinkStage.rank]) (by simp [LinkStage.rank])
    · exact ⟨next, hnext, hstamped.congr rfl rfl (Or.inl rfl)⟩
    · simp [LinkStage.rank]
    · rintro saved e _ ⟨rfl, hinside, _⟩
      exact ⟨hinside, by simp [LinkStage.rank]⟩
  case isFalse hstage =>
    apply cwp_pure S.spec h.holds
    refine ⟨h, ?_⟩
    cases hcase : child.stage <;> simp_all [LinkStage.rank]

theorem removeLink_cwp (h : Inside S .disable record child c)
    (hstage : child.stage = .deleteIntent)
    (hlink : c.links record.name = some link) (hclean : Clean child link true) :
    (removeLink child.context link.toLinkView).cwp S.spec
      (fun _ d => Inside S .disable record child d ∧ d.links record.name = none) c := by
  have hname : link.spec.name = record.name := hclean.name.trans h.joint.name
  have hunlink : record.phase = .unlink := by
    rcases h.way with ⟨hway, _⟩ | ⟨_, hway⟩
    · cases hway
    · exact hway
  apply h.checkContext.then
  intro _ _
  rw [hname]
  apply (linkView_reads h.holds (forgiving_of_journal h.holds h.journal)
    (Coupled.name_pattern h.holds h.journal)).then
  rintro _ rfl
  apply cwp_holds_then S.spec h.holds (by simp [hlink])
  apply h.checkContext.then
  intro _ _
  apply h.authority.then
  intro _ _
  apply cwp_alter S.spec h.holds
  intro _ _
  have hgone : (c.setLink record.name none).links record.name = none := by simp [Core.setLink]
  have hnext : Inside S .disable record child { c.setLink record.name none with
      log := .linkDeleted c.journal (c.links record.name) :: c.log } := by
    refine h.step rfl h.child rfl ?_ ?_
    · intro event hevent
      rcases List.mem_cons.mp hevent with rfl | hevent
      · refine ⟨record, h.journal, hunlink, ?_⟩
        intro original horiginal
        rcases (h.fits.down original horiginal).2 with hnone | hsame
        · simp [hlink] at hnone
        · exact hsame
      · exact h.holds.lawful event hevent
    · dsimp only
      rw [hgone]
      refine h.joint_of _ rfl rfl rfl h.joint.index h.indexAllowed ?_ ⟨nofun, ?_⟩
      · simp only [Follows, hstage]
        exact Or.inl trivial
      · intro original horiginal
        exact ⟨(h.fits.down original horiginal).1, Or.inl rfl⟩
  exact ⟨hnext.holds, hnext, hgone⟩

theorem removeOnce_cwp (h : Inside S .disable record child c)
    (hstage : child.stage = .deleteIntent) :
    (removeOnce child ((c.links record.name).map LinkState.toLinkView)).cwp S.spec
      (fun _ d => Inside S .disable record child d ∧ d.links record.name = none) c := by
  have hfollows := h.follows
  simp only [Follows, hstage] at hfollows
  rcases hfollows with hnone | ⟨link, hlink, hclean⟩
  · rw [hnone]
    exact cwp_pure S.spec h.holds ⟨h, hnone⟩
  · rw [hlink]
    apply (assertOwnedEmptyLink_reads h.holds hclean).then
    intro _ _
    exact removeLink_cwp h hstage hlink hclean

theorem Inside.joint_gone (h : Inside S .disable record child c) {stage : LinkStage}
    (hgone : c.links record.name = none) (hlate : 5 ≤ child.stage.rank)
    (hstage : stage = .deleted ∨ stage = .released) :
    Joint record { child with stage } (c.links record.name) := by
  refine h.joint_of _ rfl rfl rfl h.joint.index ?_ ?_ ⟨nofun, ?_⟩
  · have hallowed := h.indexAllowed
    rcases hstage with rfl | rfl <;> cases hcase : child.stage <;>
      cases hindex : child.ifindex <;> simp_all [Coupled.indexAllowed, LinkStage.rank]
  · rcases hstage with rfl | rfl <;> exact hgone
  · intro original horiginal
    refine ⟨?_, Or.inl hgone⟩
    rcases hstage with rfl | rfl <;> simp [LinkStage.rank]

theorem atDeleteIntent_cwp (h : Inside S .disable record child c)
    (hrank : 5 ≤ child.stage.rank) :
    (atDeleteIntent child).cwp S.spec
      (fun next d => Inside S .disable record next d ∧
        (next.stage = .deleted ∨ next.stage = .released)) c := by
  unfold atDeleteIntent
  split
  case isTrue hstage =>
    simp only [beq_iff_eq] at hstage
    apply (observeLink_reads h).then
    rintro _ rfl
    refine cwp_seq S.spec (removeOnce_cwp h hstage) ?_
    rintro _ d _ ⟨hd, hgone⟩
    apply (observeLink_reads hd).then
    rintro _ rfl
    apply cwp_holds_then S.spec hd.holds (by simp [hgone])
    refine cwp_mono S.spec (saveStage_cwp hd (hd.joint_gone hgone hrank (Or.inl rfl))) ?_
    rintro next e _ ⟨rfl, hinside, _⟩
    exact ⟨hinside, Or.inl rfl⟩
  case isFalse hstage =>
    apply cwp_pure S.spec h.holds
    refine ⟨h, ?_⟩
    cases hcase : child.stage <;> simp_all [LinkStage.rank]

theorem finishDeletion_cwp (h : Inside S .disable record child c)
    (hrank : 5 ≤ child.stage.rank) :
    (finishDeletion (fun _ _ => pure ()) child).cwp S.spec
      (fun _ d => ∃ next, Inside S .disable record next d ∧ next.stage = .released) c := by
  refine cwp_seq S.spec (atDeleteIntent_cwp h hrank) ?_
  rintro next d _ ⟨hd, hstage⟩
  have hgone : d.links record.name = none := by
    have hfollows := hd.follows
    rcases hstage with hstage | hstage <;> simpa [Follows, hstage] using hfollows
  have hlate : 5 ≤ next.stage.rank := by
    rcases hstage with hstage | hstage <;> simp [hstage, LinkStage.rank]
  apply cwp_holds_then S.spec hd.holds (by simpa using hstage)
  apply (observeLink_reads hd).then
  rintro _ rfl
  apply cwp_holds_then S.spec hd.holds (by simp [hgone])
  refine cwp_seq S.spec (R := fun _ e => e = d) (cwp_pure S.spec hd.holds rfl) ?_
  rintro _ _ _ rfl
  refine cwp_seq S.spec (saveStage_cwp hd (hd.joint_gone hgone hlate (Or.inr rfl))) ?_
  rintro saved e he ⟨rfl, hinside, _⟩
  exact cwp_pure S.spec he ⟨_, hinside, rfl⟩

theorem atCreated_cwp (h : Inside S operation record child c) (hrank : 4 ≤ child.stage.rank) :
    (atCreated operation (fun _ _ => pure ()) child).cwp S.spec
      (fun _ d => ∃ next, Inside S operation record next d ∧
        next.stage = if operation = .disable then .released else .created) c := by
  unfold atCreated
  rcases h.way with ⟨rfl, _⟩ | ⟨rfl, _⟩
  · have hcreated : child.stage = .created := by
      have := h.fits.up rfl
      cases hcase : child.stage <;> simp_all [LinkStage.rank]
    have hfollows := h.follows
    simp only [Follows, hcreated] at hfollows
    obtain ⟨link, hlink, hclean⟩ := hfollows
    rw [hcreated]
    apply (observeLink_reads h).then
    rintro _ rfl
    rw [hlink, Option.map_some]
    apply (assertOwnedEmptyLink_reads h.holds hclean).then
    intro _ _
    exact cwp_pure S.spec h.holds ⟨child, h, hcreated⟩
  · split
    case isTrue hcreated =>
      simp only [beq_iff_eq] at hcreated
      have hfollows := h.follows
      simp only [Follows, hcreated] at hfollows
      obtain ⟨link, hlink, hclean⟩ := hfollows
      apply (observeLink_reads h).then
      rintro _ rfl
      rw [hlink, Option.map_some]
      apply (assertOwnedEmptyLink_reads h.holds hclean).then
      intro _ _
      have hjoint : Joint record { child with stage := .deleteIntent } (c.links record.name) := by
        refine h.joint_of _ rfl rfl rfl h.joint.index ?_ ?_ ⟨nofun, ?_⟩
        · exact indexAllowed_late h.indexAllowed (by omega) (by simp [hcreated, LinkStage.rank])
            (by simp [LinkStage.rank])
        · exact Or.inr ⟨link, hlink, hclean.congr rfl rfl (Or.inl rfl)⟩
        · intro original horiginal
          exact ⟨by simp [LinkStage.rank], (h.fits.down original horiginal).2⟩
      refine cwp_seq S.spec (saveStage_cwp h hjoint) ?_
      rintro doomed d _ ⟨rfl, hd, _⟩
      exact finishDeletion_cwp hd (by simp [LinkStage.rank])
    case isFalse hstage =>
      apply finishDeletion_cwp h
      cases hcase : child.stage <;> simp_all [LinkStage.rank]

theorem childRun_cwp (hc : S.Holds c) (hjournal : c.journal = some record)
    (hway : operation = .recover ∧ record.phase = .link ∨
      operation = .disable ∧ record.phase = .unlink) :
    (childRun operation).cwp S.spec
      (fun _ d => ∃ child, Inside S operation record child d ∧
        child.stage = if operation = .disable then .released else .created) c := by
  refine cwp_seq S.spec (R := fun _ d => d.journal = some record ∧ d.guarded = true) ?_ ?_
  · apply cwp_alter S.spec hc
    intro _ _
    refine ⟨⟨?_, hc.lawful⟩, hjournal, rfl⟩
    intro found hfound
    obtain ⟨hvalid, hknown, _, hchild⟩ := hc.journal found hfound
    exact ⟨hvalid, hknown, fun _ => rfl, hchild⟩
  rintro _ d hd ⟨hdj, hguarded⟩
  refine cwp_seq S.spec (openLinkJournal_cwp hd hdj hguarded hway) ?_
  intro child e he h
  apply cwp_ask_then S.spec he
  intro w hw
  apply cwp_require_then S.spec he
  · intro hscope
    refine ⟨he, Or.inr ⟨by decide, record, h.journal, Or.inl ⟨w, hw, ?_⟩⟩⟩
    rintro ⟨_, _, hsame, _⟩
    simp [hsame, h.joint.context] at hscope
  intro _
  apply (observeLink_reads h).then
  rintro _ rfl
  refine cwp_seq S.spec (atPrepared_cwp h) ?_
  rintro k1 d1 _ ⟨h1, hrank1⟩
  refine cwp_seq S.spec (atCreateIntent_cwp h1 hrank1) ?_
  rintro k2 d2 _ ⟨h2, hrank2⟩
  refine cwp_seq S.spec (atUnstamped_cwp h2 hrank2) ?_
  rintro k3 d3 _ ⟨h3, hrank3⟩
  refine cwp_seq S.spec (atStampIntent_cwp h3 hrank3) ?_
  rintro k4 d4 _ ⟨h4, hrank4⟩
  exact atCreated_cwp h4 hrank4

end Child

end Meshpn.Dns.Coupled
