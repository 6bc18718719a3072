import Meshpn.Dns.CoupledSettings

/-!
Safety of the whole coupled transaction, over every sequence of interrupted
calls: no ownership check fails, the guard covers the link and goes only after
it, `recover` reaches the top and `disable` the bottom.
-/

namespace Meshpn.Dns.Coupled

open Meshpn.Lib

/-- What a transaction that returned normally leaves behind. -/
structure Returned (S : Scenario) (result : Result) (d : CoupledCore) : Prop where
  inv : S.Holds d
  active : result.status = .active → S.operation ≠ .disable ∧
    ∃ record original, d.journal = some record ∧ record.direction = .apply ∧
      record.level = 7 ∧ record.original = some original ∧
      d.links record.name = some (coupledState original record.port 7)
  released : result.status = .released → d.guarded = false ∧
    ∃ record, d.journal = some record ∧ record.phase = .released ∧ d.links record.name = none

section Release

variable {S : Scenario} {c : CoupledCore} {record : Record} (hc : S.Holds c)
  (hjournal : c.journal = some record)
include hc hjournal

theorem atUnlink_cwp (hphase : record.phase = .unlink ∨ record.phase = .released) :
    (atUnlink record).cwp S.spec
      (fun next d => d.journal = some next ∧ next.phase = .released) c := by
  unfold atUnlink
  split
  case isTrue hunlink =>
    simp only [beq_iff_eq] at hunlink
    have hvalid := hc.valid hjournal
    apply (contextCheck_reads hc hjournal).then
    intro _ _
    apply (childCheck_reads hc hjournal).then
    rintro child ⟨_, hjoint⟩
    apply (view_reads hc hjournal).then
    rintro _ rfl
    have hin := hjoint.phase
    simp only [InPhase, hunlink] at hin
    have hunchanged : (record.original.isNone || (c.links record.name).isNone ||
        c.links record.name == record.original) = true := by
      cases horiginal : record.original with
      | none => rfl
      | some original =>
        rcases (hin.2 original horiginal).2 with h | h <;> simp [h]
    refine cwp_seq S.spec (R := fun _ d => d = c) (cwp_holds S.spec hc hunchanged rfl) ?_
    rintro _ _ _ rfl
    refine cwp_seq S.spec (childRun_cwp hc hjournal (Or.inr ⟨rfl, hunlink⟩)) ?_
    rintro _ d hd ⟨final, hinside, hstage⟩
    simp only [if_true] at hstage
    have hgone : d.links record.name = none := by
      have hfollows := hinside.follows
      simpa only [Follows, hstage] using hfollows
    apply (view_reads hd hinside.journal).then
    rintro _ rfl
    apply cwp_holds_then S.spec hd (by simp [hgone])
    have hnext : Valid { record with phase := .released } :=
      { hvalid with
        settings := by rintro ⟨⟩
        other := fun _ => hvalid.other (by simp [hunlink])
        link := by rintro ⟨⟩
        down := fun _ => hvalid.down (Or.inl hunlink) }
    refine cwp_seq S.spec (save_cwp hd hinside.journal hinside.child hnext rfl rfl rfl
      (index_of_joint hd hinside.journal hinside.child) ⟨hstage, hgone⟩) ?_
    rintro _ e he rfl
    exact cwp_pure S.spec he ⟨rfl, rfl⟩
  case isFalse hother =>
    apply cwp_pure S.spec hc
    refine ⟨hjournal, ?_⟩
    rcases hphase with h | h
    · simp [h] at hother
    · exact h

theorem release_cwp (hphase : record.phase = .unlink ∨ record.phase = .released) :
    (release record).cwp S.spec
      (fun result d => Returned S result d ∧ result.status = .released) c := by
  refine cwp_seq S.spec (atUnlink_cwp hc hjournal hphase) ?_
  rintro final d hd ⟨hdj, hreleased⟩
  apply cwp_holds_then S.spec hd (by simp [hreleased])
  apply (childCheck_reads hd hdj).then
  rintro child ⟨hchild, hjoint⟩
  have hin := hjoint.phase
  simp only [InPhase, hreleased] at hin
  obtain ⟨hstage, hgone⟩ := hin
  apply cwp_holds_then S.spec hd (by simp [hstage])
  apply (view_reads hd hdj).then
  rintro _ rfl
  apply cwp_holds_then S.spec hd (by simp [hgone])
  refine cwp_seq S.spec (R := fun _ e => e.journal = some final ∧ e.guarded = false ∧
    e.links final.name = none) ?_ ?_
  · apply (checkContext_reads hd hdj).then
    intro _ _
    apply (linkView_reads hd (forgiving_of_journal hd hdj) (name_pattern hd hdj)).then
    rintro _ rfl
    apply cwp_holds_then S.spec hd (by simp [hgone])
    apply (checkContext_reads hd hdj).then
    intro _ _
    apply cwp_alter S.spec hd
    intro _ _
    refine ⟨⟨?_, ?_⟩, hdj, rfl, hgone⟩
    · intro found hfound
      obtain rfl : final = found := Option.some.inj (hdj.symm.trans hfound)
      obtain ⟨hbool, hknown, _, hrest⟩ := hd.journal final hdj
      exact ⟨hbool, hknown, fun h => absurd hgone h, hrest⟩
    · intro event hevent
      rcases List.mem_cons.mp hevent with rfl | hevent
      · exact ⟨hgone, final, hdj, hreleased⟩
      · exact hd.lawful event hevent
  · rintro _ e he ⟨hej, hguarded, hnone⟩
    exact cwp_pure S.spec he
      ⟨⟨he, (by rintro ⟨⟩), fun _ => ⟨hguarded, final, hej, hreleased, hnone⟩⟩, rfl⟩

theorem afterSettings_cwp (hphase : record.phase = .settings)
    (hend : record.level = record.direction.end)
    (hdown : S.operation = .disable → record.direction = .restore) :
    (afterSettings record).cwp S.spec
      (fun result d => Returned S result d ∧
        (record.direction = .apply → result.status = .active)) c := by
  obtain ⟨child, original, hchild, hcreated, horiginal, hindex, hlevel⟩ :=
    settings_facts hc hjournal hphase
  have hvalid := hc.valid hjournal
  unfold afterSettings
  split
  case isTrue happly =>
    have hdirection : record.direction = .apply := beq_iff_eq.mp happly
    simp only [hdirection, Direction.end] at hend
    have hat : c.links record.name = some (coupledState original record.port 7) := by
      rcases hlevel with h | ⟨hpending, _⟩
      · rwa [hend] at h
      · have := (hvalid.settings hphase).2.1 hpending hdirection
        omega
    have hoperation : S.operation ≠ .disable := by
      intro h
      simp [hdown h] at hdirection
    apply cwp_pure S.spec hc
    exact ⟨⟨hc, fun _ => ⟨hoperation, record, original, hjournal, hdirection, hend, horiginal,
      hat⟩, (by rintro ⟨⟩)⟩, fun _ => rfl⟩
  case isFalse hnot =>
    have hdirection : record.direction = .restore := by
      cases hcase : record.direction with
      | apply => simp [hcase] at hnot
      | restore => rfl
    simp only [hdirection, Direction.end] at hend
    have hpending : record.pending = false := by
      cases hcase : record.pending with
      | false => rfl
      | true =>
        have := (hvalid.settings hphase).2.2 hcase hdirection
        omega
    have hat : c.links record.name = some original := by
      rcases hlevel with h | ⟨h, _⟩
      · rw [hend] at h
        exact h
      · simp [hpending] at h
    have hnext : Valid { record with phase := .unlink } :=
      { hvalid with
        settings := by rintro ⟨⟩
        other := fun _ => ⟨hend, hpending⟩
        link := by rintro ⟨⟩
        down := fun _ => hdirection }
    have hindexAll := index_of_joint hc hjournal hchild
    have hclean : Clean child original true := by
      obtain ⟨_, _, _, found, hfound, hjoint⟩ := hc.journal record hjournal
      obtain rfl : child = found := Option.some.inj (hchild.symm.trans hfound)
      have hfault := hvalid.original original horiginal
      unfold originalFault at hfault
      unfold Clean
      rw [hjoint.id, hjoint.name, hindex]
      exact hfault
    have hkept : InPhase { record with phase := .unlink } child (c.links record.name) := by
      simp only [InPhase]
      refine ⟨?_, ?_⟩
      · simp only [Follows, hcreated]
        exact ⟨original, hat, hclean⟩
      · intro found hfound
        obtain rfl : original = found := Option.some.inj (horiginal.symm.trans hfound)
        exact ⟨by simp [hcreated, LinkStage.rank], Or.inr hat⟩
    refine cwp_seq S.spec (save_cwp hc hjournal hchild hnext rfl rfl rfl hindexAll hkept) ?_
    rintro _ d hd rfl
    refine cwp_mono S.spec (release_cwp hd rfl (Or.inl rfl)) ?_
    rintro result e _ ⟨hreturned, _⟩
    exact ⟨hreturned, fun happly => (by simp [hdirection] at happly)⟩

theorem atSettings_cwp (hphase : record.phase ≠ .link) :
    (atSettings S.operation record).cwp S.spec
      (fun result d => Returned S result d ∧
        (S.operation ≠ .disable → record.direction = .apply → result.status = .active)) c := by
  unfold atSettings
  split
  case isTrue hsettings =>
    refine cwp_seq S.spec (settle_cwp hc hjournal (beq_iff_eq.mp hsettings)) ?_
    rintro settled d hd ⟨hdj, hdphase, hend, hdown, hsame⟩
    refine cwp_mono S.spec (afterSettings_cwp hd hdj hdphase hend hdown) ?_
    rintro result e _ ⟨hreturned, hactive⟩
    exact ⟨hreturned, fun hoperation happly => hactive ((hsame hoperation).trans happly)⟩
  case isFalse hother =>
    have hdownward : record.phase = .unlink ∨ record.phase = .released := by
      cases hcase : record.phase <;> simp_all
    refine cwp_mono S.spec (release_cwp hc hjournal hdownward) ?_
    rintro result d _ ⟨hreturned, _⟩
    refine ⟨hreturned, fun _ happly => ?_⟩
    have := (hc.valid hjournal).down hdownward
    simp [happly] at this

theorem adoptLink_cwp {child : LinkRecord} (hchild : c.child = some child)
    (hcreated : child.stage = .created) (hphase : record.phase = .link) :
    (adoptLink record).cwp S.spec
      (fun next d => d.journal = some next ∧ next.phase = .settings ∧
        next.direction = .apply) c := by
  have hvalid := hc.valid hjournal
  apply (childCheck_reads hc hjournal).then
  rintro found ⟨hfound, hjoint⟩
  obtain rfl : child = found := Option.some.inj (hchild.symm.trans hfound)
  have hin := hjoint.phase
  simp only [InPhase, hphase, Follows, hcreated] at hin
  obtain ⟨⟨original, hlink, hclean⟩, _⟩ := hin
  apply (view_reads hc hjournal).then
  rintro _ rfl
  rw [hlink]
  dsimp only
  apply (assertOwnedEmptyLink_reads hc hclean).then
  intro _ _
  obtain ⟨hifindex, hindex, hspec, hdns, hdomains⟩ := ownedLinkFault_eq_none.mp hclean
  have hknown : child.ifindex = some original.ifindex := by
    rcases hindex with hnone | hsome
    · have hallowed := hjoint.valid
      simp [validLinkJournal, indexAllowed, hcreated, hnone] at hallowed
    · exact hsome
  have hfault : ownedLinkFault record.id record.name (some original.ifindex)
      original.toLinkView true = none := by
    rw [← hjoint.id, ← hjoint.name]
    exact ownedLinkFault_eq_none.mpr ⟨hifindex, Or.inr rfl, hspec, hdns, hdomains⟩
  have hnext : Valid { record with phase := .settings, original := some original } :=
    { hvalid with
      original := by
        rintro found ⟨⟩
        exact hfault
      settings := fun _ => by
        have hpending := (hvalid.other (by simp [hphase])).2
        exact ⟨(by rintro ⟨⟩), fun h => by simp [hpending] at h, fun h => by simp [hpending] at h⟩
      other := fun h => absurd rfl h
      link := by rintro ⟨⟩
      down := by simp }
  have hkept : InPhase { record with phase := .settings, original := some original } child
      (c.links record.name) := by
    simp only [InPhase]
    refine ⟨hcreated, original, rfl, Or.inl ?_⟩
    rw [hlink]
    simp only [(hvalid.other (by simp [hphase])).1]
    rfl
  have hindexNext : ∀ found, some original = some found →
      child.ifindex = some found.ifindex := by
    rintro found ⟨⟩
    exact hknown
  refine cwp_seq S.spec (save_cwp hc hjournal hchild hnext rfl rfl rfl hindexNext hkept) ?_
  rintro _ d hd rfl
  exact cwp_pure S.spec hd ⟨rfl, rfl, (hvalid.link hphase).2⟩

theorem atLink_cwp :
    (atLink S.operation record).cwp S.spec
      (fun next d => d.journal = some next ∧ next.phase ≠ .link ∧
        (S.operation ≠ .disable → next.direction = record.direction)) c := by
  have hvalid := hc.valid hjournal
  unfold atLink
  split
  case isTrue hlink =>
    have hphase : record.phase = .link := beq_iff_eq.mp hlink
    split
    case isTrue hdisable =>
      obtain ⟨_, _, _, child, hchild, hjoint⟩ := hc.journal record hjournal
      have hnext : Valid { record with phase := .unlink, direction := .restore } :=
        { hvalid with
          settings := by rintro ⟨⟩
          other := fun _ => hvalid.other (by simp [hphase])
          link := by rintro ⟨⟩
          down := fun _ => rfl }
      have hin := hjoint.phase
      simp only [InPhase, hphase] at hin
      have hkept : InPhase { record with phase := .unlink, direction := .restore } child
          (c.links record.name) := by
        simp only [InPhase]
        refine ⟨hin.1, fun original horiginal => ?_⟩
        simp [(hvalid.link hphase).1] at horiginal
      refine cwp_seq S.spec (save_cwp hc hjournal hchild hnext rfl rfl rfl hjoint.index hkept) ?_
      rintro _ d hd rfl
      exact cwp_pure S.spec hd ⟨rfl, (by rintro ⟨⟩), fun h => absurd (beq_iff_eq.mp hdisable) h⟩
    case isFalse hdisable =>
      have hoperation : S.operation ≠ .disable := by simpa using hdisable
      apply (requirePort_reads hc hjournal hoperation (by decide)).then
      intro _ _
      apply (contextCheck_reads hc hjournal).then
      intro _ _
      refine cwp_seq S.spec (childRun_cwp hc hjournal (Or.inl ⟨rfl, hphase⟩)) ?_
      rintro _ d hd ⟨child, hinside, hstage⟩
      refine cwp_mono S.spec (adoptLink_cwp hd hinside.journal hinside.child hstage hphase) ?_
      rintro next e _ ⟨hej, hsettings, happly⟩
      exact ⟨hej, by simp [hsettings], fun _ => happly.trans (hvalid.link hphase).2.symm⟩
  case isFalse hother =>
    exact cwp_pure S.spec hc ⟨hjournal, by simpa using hother, fun _ => rfl⟩

theorem resume_cwp :
    (resume S.operation record).cwp S.spec
      (fun result d => Returned S result d ∧
        (S.operation ≠ .disable → record.direction = .apply → result.status = .active)) c := by
  apply cwp_ask_then S.spec hc
  intro w hw
  apply cwp_require_then S.spec hc
  · intro hscope
    refine ⟨hc, Or.inr ⟨by decide, record, hjournal, Or.inl ⟨w, hw, ?_⟩⟩⟩
    rintro ⟨_, _, hsame, _⟩
    simp [hsame] at hscope
  intro _
  apply (contextCheck_reads hc hjournal).then
  intro _ _
  apply (childCheck_reads hc hjournal).then
  intro _ _
  refine cwp_seq S.spec (atLink_cwp hc hjournal) ?_
  rintro linked d hd ⟨hdj, hphase, hsame⟩
  refine cwp_mono S.spec (atSettings_cwp hd hdj hphase) ?_
  rintro result e _ ⟨hreturned, hactive⟩
  exact ⟨hreturned, fun hoperation happly =>
    hactive hoperation ((hsame hoperation).trans happly)⟩

end Release

variable {c : CoupledCore} {S : Scenario}

theorem readJournal_reads (hc : S.Holds c)
    (hmissing : c.journal = none → S.early) :
    readJournal.Reads S.spec c (fun record => c.journal = some record) := by
  apply cwp_ask_then S.spec hc
  intro _ _
  cases hjournal : c.journal with
  | none => exact cwp_throw S.spec hc ⟨hc, Or.inl ⟨hmissing hjournal, Or.inr hjournal⟩⟩
  | some record =>
    apply cwp_holds_then S.spec hc (hc.journal record hjournal).1
    exact cwp_pure S.spec hc ⟨rfl, rfl⟩

theorem prepare_cwp (hc : S.Holds c) (hearly : S.early)
    (hknown : ∀ context, S.known context) :
    prepare.cwp S.spec
      (fun record d => c.journal = none ∧ d.journal = some record) c := by
  apply cwp_ask_then S.spec hc
  intro _ _
  apply cwp_require_then S.spec hc (fun _ => ⟨hc, Or.inl ⟨hearly, Or.inl rfl⟩⟩)
  intro hjournal
  simp only [Option.isNone_iff_eq_none] at hjournal
  have hfail : ∀ error, S.spec.fails error c :=
    fun error => ⟨hc, Or.inl ⟨hearly, Or.inr hjournal⟩⟩
  have hforgiving : Forgiving S c := fun error _ _ => hfail error
  apply (readContext_reads hc hforgiving).then
  rintro _ ⟨w, _, rfl⟩
  apply cwp_ask_then S.spec hc
  intro _ _
  apply cwp_require_then S.spec hc (fun _ => hfail _)
  intro _
  apply cwp_ask_then S.spec hc
  intro v _
  apply cwp_ask_then S.spec hc
  intro u _
  apply cwp_require_then S.spec hc (fun _ => hfail _)
  intro hbool
  have hvalid := (validJournal_iff _).mp hbool
  have hidentity := hvalid.identity
  simp only [Bool.and_eq_true] at hidentity
  have hpattern : ownedNamePattern (ownedName v.freshId) = true :=
    ownedName_pattern hidentity.1.1.1.1
  apply (viewLink_reads hc hforgiving hpattern).then
  rintro _ rfl
  apply cwp_require_then S.spec hc (fun _ => hfail _)
  intro hvacant
  simp only [Option.isNone_iff_eq_none] at hvacant
  -- nothing below touches a link or the outer journal before the last save
  refine cwp_seq S.spec (R := fun _ d => d.journal = none ∧ d.links = c.links ∧
    d.log = c.log) ?_ ?_
  · apply cwp_ask_then S.spec hc
    intro _ _
    apply cwp_require_then S.spec hc (fun _ => hfail _)
    intro _
    apply cwp_alter S.spec hc
    intro _ _
    exact ⟨⟨by simp [hjournal], hc.lawful⟩, hjournal, rfl, rfl⟩
  rintro _ d hd ⟨hdj, hdlinks, _⟩
  have hfaild : ∀ error, S.spec.fails error d :=
    fun error => ⟨hd, Or.inl ⟨hearly, Or.inr hdj⟩⟩
  have hchild : validLinkJournal
      ⟨v.freshId, w.context, ownedName v.freshId, none, .prepared⟩ = true := by
    simp [validLinkJournal, indexAllowed, hpattern, hidentity.1.1.1.1, hidentity.1.1.1.2]
  refine cwp_seq S.spec (R := fun _ e => e.journal = none ∧ e.links = c.links ∧
    e.child = some ⟨v.freshId, w.context, ownedName v.freshId, none, .prepared⟩) ?_ ?_
  · apply cwp_holds_then S.spec hd hchild
    apply cwp_alter S.spec hd
    intro _ _
    exact ⟨⟨by simp [hdj], hd.lawful⟩, hdj, hdlinks, rfl⟩
  rintro _ e he ⟨hej, helinks, hechild⟩
  refine cwp_seq S.spec (R := fun _ f => f.journal = some ⟨v.freshId, w.context,
    ownedName v.freshId, u.port, .link, none, 0, false, .apply⟩) ?_ ?_
  · apply cwp_holds_then S.spec he hbool
    apply cwp_alter S.spec he
    intro _ _
    have hnone : e.links (ownedName v.freshId) = none := by rw [helinks, hvacant]
    refine ⟨⟨?_, he.lawful⟩, rfl⟩
    rintro record ⟨⟩
    refine ⟨hbool, hknown _, fun h => absurd hnone h, _, hechild, rfl, rfl, rfl,
      (by rintro _ ⟨⟩), hchild, ?_⟩
    exact ⟨hnone, by simp [LinkStage.rank]⟩
  · intro _ f hf hfj
    exact cwp_pure S.spec hf ⟨hjournal, hfj⟩

theorem openJournal_cwp (hc : S.Holds c)
    (hopen : (S.early ∧ ∀ context, S.known context) ∨
      S.operation ≠ .enable ∧ c.journal ≠ none) :
    (openJournal S.operation).cwp S.spec
      (fun record d => d.journal = some record ∧ (c.journal = none ∨ c.journal = some record)) c := by
  unfold openJournal
  split
  case isTrue henable =>
    rcases hopen with ⟨hearly, hknown⟩ | ⟨hother, _⟩
    · refine cwp_mono S.spec (prepare_cwp hc hearly hknown) ?_
      rintro record d _ ⟨hnone, hjournal⟩
      exact ⟨hjournal, Or.inl hnone⟩
    · exact absurd (beq_iff_eq.mp henable) hother
  case isFalse =>
    have hmissing : c.journal = none → S.early := by
      intro hnone
      rcases hopen with ⟨hearly, _⟩ | ⟨_, hsome⟩
      · exact hearly
      · exact absurd hnone hsome
    refine cwp_mono S.spec (readJournal_reads hc hmissing) ?_
    rintro record d _ ⟨rfl, hjournal⟩
    exact ⟨hjournal, Or.inr hjournal⟩

theorem coupledDnsTransaction_cwp (hc : S.Holds c)
    (hopen : (S.early ∧ ∀ context, S.known context) ∨
      S.operation ≠ .enable ∧ c.journal ≠ none) :
    (coupledDnsTransaction S.operation).cwp S.spec
      (fun result d => Returned S result d ∧ ∀ record, c.journal = some record →
        S.operation ≠ .disable → record.direction = .apply → result.status = .active) c := by
  refine cwp_seq S.spec (R := fun _ d => d.journal = c.journal) ?_ ?_
  · apply cwp_alter S.spec hc
    intro _ _
    refine ⟨⟨?_, hc.lawful⟩, rfl⟩
    intro record hjournal
    obtain ⟨hvalid, hknown, _, hrest⟩ := hc.journal record hjournal
    exact ⟨hvalid, hknown, fun _ => rfl, hrest⟩
  intro _ d hd hsame
  refine cwp_seq S.spec (openJournal_cwp hd (by rwa [hsame])) ?_
  rintro record e he ⟨hej, hbefore⟩
  refine cwp_mono S.spec (resume_cwp he hej) ?_
  rintro result f _ ⟨hreturned, hactive⟩
  refine ⟨hreturned, ?_⟩
  intro found hfound
  rcases hbefore with hnone | hsome
  · rw [hsame, hfound] at hnone
    cases hnone
  · rw [hsame, hfound] at hsome
    obtain rfl := Option.some.inj hsome
    exact hactive

section Claims

variable (allowed : Around → Prop)

def openScenario (operation : Operation) : Scenario := ⟨allowed, fun _ => True, operation, True⟩

def coupledContract : (coupledSystem allowed).Contract :=
  coreContract (Inv fun _ => True) (Inv fun _ => True)
    (fun operation c result d => Returned (openScenario allowed operation) result d ∧
      ∀ record, c.journal = some record → operation ≠ .disable → record.direction = .apply →
        result.status = .active)
    (fun operation _ => (openScenario allowed operation).spec.fails)
    (fun c h => ⟨by simp [h.1], by simp [h.2.2.2]⟩)
    (fun _ h => h) (fun _ _ _ _ h => h.1.inv) (fun _ _ _ _ h => h.1) (fun _ h => h)
    (fun operation _ hc => coupledDnsTransaction_cwp (S := openScenario allowed operation) hc
      (Or.inl ⟨trivial, fun _ => trivial⟩))

instance : IsPreorder (Ambient CoupledCore Around) (coupledSystem allowed).env :=
  inferInstanceAs (IsPreorder (Ambient CoupledCore Around) (sameCore allowed))

end Claims

/-- The link as the journal describes it: at the recorded level or at the one
pending neighbour while settings are in force. -/
def LinkOwned (record : Record) (link : Option LinkState) : Prop :=
  record.phase = .settings →
    link = coupledExpected record record.level ∨
      record.pending = true ∧ link = coupledExpected record record.next

/-- Over every sequence of interrupted calls, once the outer journal is
durable: the link is where the journal says and guarded, links are deleted in
their original state and the guard goes after them, no error accuses the link
or a journal, a completed `recover` of a journal that was not disabled reaches
level 7 and a completed `disable` leaves no link. -/
theorem coupled_transaction_safe :
    (∀ t, (coupledSystem (fun _ => True)).Visited t →
      (∀ record, t.core.journal = some record →
        LinkOwned record (t.core.links record.name) ∧
        (t.core.links record.name ≠ none → t.core.guarded = true)) ∧
      ∀ event ∈ t.core.log, event.Lawful) ∧
    (∀ operation s error t, (coupledSystem (fun _ => True)).Reachable s →
      Exec (coupledSystem (fun _ => True)).env (coupledDnsTransaction operation) s
        (.failed error) t → t.core.journal ≠ none →
      error = "journal already exists" ∨ error ∈ foreignErrors) ∧
    (∀ s record result t, (coupledSystem (fun _ => True)).Reachable s →
      s.core.journal = some record → record.direction = .apply →
      Exec (coupledSystem (fun _ => True)).env (coupledDnsTransaction .recover) s
        (.done result) t →
      ∃ final original, t.core.journal = some final ∧ final.level = 7 ∧
        final.original = some original ∧
        t.core.links final.name = some (coupledState original final.port 7)) ∧
    (∀ s result t, (coupledSystem (fun _ => True)).Reachable s →
      Exec (coupledSystem (fun _ => True)).env (coupledDnsTransaction .disable) s
        (.done result) t →
      ∃ final, t.core.journal = some final ∧ final.phase = .released ∧
        t.core.links final.name = none) := by
  refine ⟨?_, ?_, ?_, ?_⟩
  · intro t ht
    obtain ⟨_, hinv⟩ := (coupledContract (fun _ => True)).visited ht
    refine ⟨?_, hinv.lawful⟩
    intro record hjournal
    obtain ⟨_, _, hguard, _⟩ := hinv.journal record hjournal
    refine ⟨fun hphase => ?_, hguard⟩
    obtain ⟨_, original, _, _, horiginal, _, hlevel⟩ :=
      settings_facts (S := openScenario (fun _ => True) .recover) hinv hjournal hphase
    simpa [AtLevel, coupledExpected, horiginal] using hlevel
  · intro operation s error t hs hexec hjournal
    obtain ⟨_, _, hcause⟩ :=
      (coupledContract (fun _ => True)).failed (i := operation) hs hexec
    rcases hcause with ⟨_, h | h⟩ | h
    · exact Or.inl h
    · exact absurd h hjournal
    · exact Or.inr h.1
  · intro s record result t hs hjournal happly hexec
    obtain ⟨_, hreturned, hactive⟩ :=
      (coupledContract (fun _ => True)).returned (i := .recover) hs hexec
    obtain ⟨_, final, original, hfinal, _, hlevel, horiginal, hlink⟩ :=
      hreturned.active (hactive record hjournal (by simp) happly)
    exact ⟨final, original, hfinal, hlevel, horiginal, hlink⟩
  · intro s result t hs hexec
    obtain ⟨_, hreturned, _⟩ :=
      (coupledContract (fun _ => True)).returned (i := .disable) hs hexec
    cases hstatus : result.status with
    | active => exact absurd rfl (hreturned.active hstatus).1
    | released =>
      obtain ⟨_, final, hfinal, hphase, hlink⟩ := hreturned.released hstatus
      exact ⟨final, hfinal, hphase, hlink⟩

/-- `disable` does complete, from every reachable state, as long as the
surroundings are the recorded ones; no adapter is needed for it. -/
theorem coupled_disable_completes {s : Ambient CoupledCore Around} {record : Record}
    (hs : (coupledSystem (fun _ => True)).Reachable s) (hjournal : s.core.journal = some record)
    (hsteady : Steady record.context s.around) :
    ∃ result t, (coupledDnsTransaction .disable).run s = (.ok result, t) ∧
      result.status = .released ∧ t.core.guarded = false := by
  obtain ⟨_, hinv⟩ := (coupledContract (fun _ => True)).reachable hs
  let S : Scenario := ⟨(· = s.around), (· = record.context), .disable, False⟩
  have hc : S.Holds s.core := by
    refine ⟨?_, hinv.lawful⟩
    intro found hfound
    obtain ⟨hvalid, _, hrest⟩ := hinv.journal found hfound
    have hsame : record = found := Option.some.inj (hjournal.symm.trans hfound)
    exact ⟨hvalid, hsame ▸ rfl, hrest⟩
  have hcwp := coupledDnsTransaction_cwp hc (Or.inr ⟨by simp [S], by simp [hjournal]⟩)
  have hfails : ∀ error d, ¬ S.spec.fails error d := by
    rintro error d ⟨hd, ⟨himpossible, _⟩ | ⟨_, found, hfound, hblame⟩⟩
    · exact himpossible
    · have hknown : found.context = record.context := (hd.journal found hfound).2.1
      rcases hblame with ⟨w, rfl, hw⟩ | ⟨hoperation, _⟩
      · rw [hknown] at hw
        exact hw hsteady
      · exact hoperation rfl
  obtain ⟨result, t, hrun, hreturned, _⟩ :=
    Prog.run_of_cwp S.spec (w := s.around) hcwp rfl hfails
  refine ⟨result, t, hrun, ?_⟩
  cases hstatus : result.status with
  | active => exact absurd rfl (hreturned.active hstatus).1
  | released => exact ⟨rfl, (hreturned.released hstatus).1⟩

end Meshpn.Dns.Coupled
