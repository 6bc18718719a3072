import Meshpn.Dns.OwnedLinkSafety

/-!
The settings phase of the coupled transaction: seven levels, one setter a
level, and a direction that can turn at any of them. The ownership check never
fails, and the phase ends at level 7 going up and at level 0 going down.
-/

namespace Meshpn.Dns.Coupled

open Meshpn.Lib

section Levels

variable {n port : Nat} {step : Step} {original : LinkState}

theorem coupledStep_cases (h : coupledSteps[n]? = some step) :
    (n = 0 ∧ step = .defaultRouteOff) ∨ (n = 1 ∧ step = .addrgen) ∨ (n = 2 ∧ step = .address) ∨
      (n = 3 ∧ step = .up) ∨ (n = 4 ∧ step = .dnsEx) ∨ (n = 5 ∧ step = .domains) ∨
      (n = 6 ∧ step = .defaultRouteOn) := by
  match n with
  | 0 | 1 | 2 | 3 | 4 | 5 | 6 => simpa [coupledSteps, eq_comm] using h
  | n + 7 => simp [coupledSteps] at h

theorem coupledStep_lt (h : coupledSteps[n]? = some step) : n < 7 := by
  rcases coupledStep_cases h with h | h | h | h | h | h | h <;> omega

theorem coupledState_ifindex (level : Nat) :
    (coupledState original port level).ifindex = original.ifindex := by
  unfold coupledState
  induction coupledSteps.take level generalizing original with
  | nil => rfl
  | cons step rest ih =>
    rw [List.foldl_cons, ih]
    cases step <;> rfl

theorem coupledState_name (level : Nat) :
    (coupledState original port level).spec.name = original.spec.name := by
  unfold coupledState
  induction coupledSteps.take level generalizing original with
  | nil => rfl
  | cons step rest ih =>
    rw [List.foldl_cons, ih]
    cases step <;> rfl

theorem coupled_set (h : coupledSteps[n]? = some step)
    (hempty : original.spec.addresses = []) :
    step.set (coupledState original port (n + 1)) (coupledState original port n) =
        coupledState original port (n + 1) ∧
      step.set (coupledState original port n) (coupledState original port (n + 1)) =
        coupledState original port n := by
  obtain ⟨⟨ifindex, ⟨name, kind, mac, ifalias, mtu, up, master, addresses⟩, dns⟩, addrgen⟩ :=
    original
  dsimp only at hempty
  subst hempty
  rcases coupledStep_cases h with ⟨rfl, rfl⟩ | ⟨rfl, rfl⟩ | ⟨rfl, rfl⟩ | ⟨rfl, rfl⟩ |
    ⟨rfl, rfl⟩ | ⟨rfl, rfl⟩ | ⟨rfl, rfl⟩ <;>
  simp [coupledState, coupledSteps, Step.apply, Step.set]

theorem coupled_settable (h : coupledSteps[n]? = some step)
    (hempty : original.spec.addresses = []) :
    settableAddresses step (coupledState original port (n + 1)) = true ∧
      settableAddresses step (coupledState original port n) = true := by
  rcases coupledStep_cases h with ⟨rfl, rfl⟩ | ⟨rfl, rfl⟩ | ⟨rfl, rfl⟩ | ⟨rfl, rfl⟩ |
    ⟨rfl, rfl⟩ | ⟨rfl, rfl⟩ | ⟨rfl, rfl⟩ <;>
  simp [settableAddresses, coupledState, coupledSteps, Step.apply, hempty]

end Levels

/-- The facts that `validateCoupledJournal` checks, by name. -/
structure Valid (record : Record) : Prop where
  identity : (Text.hex 32 record.id && validContext record.context &&
    record.name == ownedName record.id && 1024 ≤ record.port && record.port ≤ 65535) = true
  level : record.level ≤ 7
  original : ∀ original, record.original = some original → originalFault record original = none
  settings : record.phase = .settings → record.original ≠ none ∧
    (record.pending = true → record.direction = .apply → record.level < 7) ∧
    (record.pending = true → record.direction = .restore → 0 < record.level)
  other : record.phase ≠ .settings → record.level = 0 ∧ record.pending = false
  link : record.phase = .link → record.original = none ∧ record.direction = .apply
  down : record.phase = .unlink ∨ record.phase = .released → record.direction = .restore

theorem validJournal_iff (record : Record) : validJournal record = true ↔ Valid record := by
  have horiginal : originalValid record = true ↔
      ∀ original, record.original = some original → originalFault record original = none := by
    unfold originalValid
    cases record.original <;> simp
  have hsettings : (if record.phase == .settings then record.original.isSome &&
        (!record.pending ||
          (if record.direction == .apply then decide (record.level < 7)
            else decide (record.level > 0)))
      else record.level == 0 && !record.pending) = true ↔
      (record.phase = .settings → record.original ≠ none ∧
        (record.pending = true → record.direction = .apply → record.level < 7) ∧
        (record.pending = true → record.direction = .restore → 0 < record.level)) ∧
      (record.phase ≠ .settings → record.level = 0 ∧ record.pending = false) := by
    by_cases hphase : record.phase = .settings
    · cases hp : record.pending <;> cases hd : record.direction <;>
        simp [hphase, Option.isSome_iff_ne_none]
    · simp [hphase]
  have hlink : (record.phase != .link || (record.original.isNone && record.direction == .apply))
      = true ↔ (record.phase = .link → record.original = none ∧ record.direction = .apply) := by
    by_cases hphase : record.phase = .link <;> simp [hphase]
  have hdown : (!(record.phase == .unlink || record.phase == .released) ||
      record.direction == .restore) = true ↔
      (record.phase = .unlink ∨ record.phase = .released → record.direction = .restore) := by
    cases record.phase <;> simp
  simp only [validJournal, Bool.and_eq_true, horiginal, hsettings, hlink, hdown,
    decide_eq_true_eq]
  constructor
  · rintro ⟨⟨⟨⟨⟨hid, hlevel⟩, ho⟩, hs⟩, hl⟩, hd⟩
    exact ⟨by simpa [and_assoc] using hid, hlevel, ho, hs.1, hs.2, hl, hd⟩
  · intro h
    refine ⟨⟨⟨⟨⟨?_, h.level⟩, h.original⟩, h.settings, h.other⟩, h.link⟩, h.down⟩
    simpa [and_assoc] using h.identity

variable {record : Record}

theorem Valid.addresses (h : Valid record) {original : LinkState}
    (horiginal : record.original = some original) : original.spec.addresses = [] := by
  rw [(ownedLinkFault_eq_none.mp (h.original original horiginal)).2.2.1]
  rfl

theorem Valid.name (h : Valid record) {original : LinkState}
    (horiginal : record.original = some original) : original.spec.name = record.name := by
  rw [(ownedLinkFault_eq_none.mp (h.original original horiginal)).2.2.1]
  rfl

section Parent

variable {S : Scenario} {c : CoupledCore} {record : Record} (hc : S.Holds c)
  (hjournal : c.journal = some record)
include hc hjournal

theorem Inv.valid : Valid record := (validJournal_iff record).mp (hc.journal record hjournal).1

theorem save_cwp {child : LinkRecord} (hchild : c.child = some child) {next : Record}
    (hvalid : Valid next) (hid : next.id = record.id) (hname : next.name = record.name)
    (hcontext : next.context = record.context)
    (hindex : ∀ original, next.original = some original →
      child.ifindex = some original.ifindex)
    (hphase : InPhase next child (c.links record.name)) :
    (save next).cwp S.spec (fun _ d => d = { c with journal := some next }) c := by
  obtain ⟨_, hknown, hguard, found, hfound, hjoint⟩ := hc.journal record hjournal
  obtain rfl : child = found := Option.some.inj (hchild.symm.trans hfound)
  have hbool := (validJournal_iff next).mpr hvalid
  apply cwp_holds_then S.spec hc hbool
  apply cwp_alter S.spec hc
  intro _ _
  refine ⟨⟨?_, hc.lawful⟩, rfl⟩
  rintro saved ⟨⟩
  refine ⟨hbool, by rwa [hcontext], by rwa [hname], child, hchild, ?_⟩
  rw [hname]
  exact ⟨hjoint.id.trans hid.symm, hjoint.name.trans hname.symm,
    hjoint.context.trans hcontext.symm, hindex, hjoint.valid, hphase⟩

theorem settings_facts (hphase : record.phase = .settings) :
    ∃ child original, c.child = some child ∧ child.stage = .created ∧
      record.original = some original ∧ child.ifindex = some original.ifindex ∧
      AtLevel record original (c.links record.name) := by
  obtain ⟨_, _, _, child, hchild, hjoint⟩ := hc.journal record hjournal
  have hin := hjoint.phase
  simp only [InPhase, hphase] at hin
  obtain ⟨hcreated, original, horiginal, hlevel⟩ := hin
  exact ⟨child, original, hchild, hcreated, horiginal, hjoint.index original horiginal, hlevel⟩

theorem observe_reads (hphase : record.phase = .settings) :
    (observe record).Reads S.spec c (fun link => link = c.links record.name) := by
  obtain ⟨child, original, _, _, horiginal, _, hlevel⟩ := settings_facts hc hjournal hphase
  apply (view_reads hc hjournal).then
  rintro _ rfl
  apply cwp_holds_then S.spec hc
  · rcases hlevel with h | ⟨hpending, h⟩
    · simp [h, coupledExpected, horiginal]
    · simp [h, hpending, coupledExpected, horiginal]
  exact cwp_pure S.spec hc ⟨rfl, rfl⟩

theorem intend_cwp (hphase : record.phase = .settings) {step : Step}
    (hstep : record.step = some step) :
    (intend record).cwp S.spec
      (fun next d => d.journal = some next ∧ next = { record with pending := true }) c := by
  obtain ⟨child, original, hchild, hcreated, horiginal, hindex, hlevel⟩ :=
    settings_facts hc hjournal hphase
  have hvalid := hc.valid hjournal
  unfold intend
  split
  case isTrue hpending => exact cwp_pure S.spec hc ⟨hjournal, by rw [← hpending]⟩
  rename_i hpending
  have hnext : Valid { record with pending := true } :=
    { hvalid with
      settings := fun _ => by
        refine ⟨by simp [horiginal], fun _ hdirection => ?_, fun _ hdirection => ?_⟩
        · simp only [Record.step, show record.direction = .apply from hdirection, BEq.rfl,
            if_true] at hstep
          exact coupledStep_lt hstep
        · have hrestore : record.direction = .restore := hdirection
          by_contra hzero
          have : record.level = 0 := by simpa using hzero
          simp [Record.step, hrestore, this] at hstep
      other := fun h => absurd hphase h }
  have hkept : InPhase { record with pending := true } child (c.links record.name) := by
    simp only [InPhase, hphase]
    refine ⟨hcreated, original, horiginal, ?_⟩
    rcases hlevel with h | ⟨h, _⟩
    · exact Or.inl h
    · exact absurd h hpending
  have hindexNext : ∀ found, record.original = some found →
      child.ifindex = some found.ifindex := by
    intro found hfound
    obtain rfl : original = found := Option.some.inj (horiginal.symm.trans hfound)
    exact hindex
  refine cwp_seq S.spec (save_cwp hc hjournal hchild hnext rfl rfl rfl hindexNext hkept) ?_
  rintro _ d hd rfl
  exact cwp_pure S.spec hd ⟨rfl, rfl⟩

end Parent

theorem Record.step_levels {step : Step} (h : record.step = some step) :
    ∃ n, coupledSteps[n]? = some step ∧
      (record.level = n ∧ record.next = n + 1 ∨ record.level = n + 1 ∧ record.next = n) := by
  unfold Record.step at h
  unfold Record.next
  split at h
  case isTrue happly => exact ⟨record.level, h, Or.inl ⟨rfl, by simp [happly]⟩⟩
  rename_i happly
  split at h
  · refine ⟨record.level - 1, h, Or.inr ⟨by omega, by simp [happly]⟩⟩
  · cases h

section Steps

variable {S : Scenario} {c : CoupledCore} {record : Record} (hc : S.Holds c)
  (hjournal : c.journal = some record) (hphase : record.phase = .settings)
include hc hjournal hphase

theorem setStep_cwp {step : Step} (hstep : record.step = some step)
    (hpending : record.pending = true) {original : LinkState}
    (horiginal : record.original = some original) {current target : LinkState}
    (hcurrent : current = coupledState original record.port record.level)
    (htarget : target = coupledState original record.port record.next)
    (hlink : c.links record.name = some current) :
    (setStep record.context current step target).cwp S.spec
      (fun _ d => d.journal = some record ∧ d.links record.name = some target) c := by
  have hvalid := hc.valid hjournal
  have hempty := hvalid.addresses horiginal
  obtain ⟨n, hn, hlevels⟩ := Record.step_levels hstep
  have hset : step.set target current = target := by
    rw [hcurrent, htarget]
    rcases hlevels with ⟨h, h'⟩ | ⟨h, h'⟩
    · rw [h, h']
      exact (coupled_set hn hempty).1
    · rw [h, h']
      exact (coupled_set hn hempty).2
  have hsettable : settableAddresses step target = true := by
    rw [htarget]
    rcases hlevels with ⟨h, h'⟩ | ⟨h, h'⟩
    · rw [h']
      exact (coupled_settable hn hempty).1
    · rw [h']
      exact (coupled_settable hn hempty).2
  have hname : current.spec.name = record.name := by
    rw [hcurrent, coupledState_name]
    exact hvalid.name horiginal
  have hsame : (target.spec.name == current.spec.name && target.ifindex == current.ifindex) =
      true := by
    simp [hcurrent, htarget, coupledState_name, coupledState_ifindex]
  have hforgiving := forgiving_of_journal hc hjournal
  apply (readContext_reads hc hforgiving).then
  rintro _ ⟨w, hw, rfl⟩
  apply cwp_require_then S.spec hc (context_blamed hc hjournal hw (by decide))
  intro _
  apply (viewLink_reads hc hforgiving (by rw [hname]; exact name_pattern hc hjournal)).then
  rintro _ rfl
  apply cwp_holds_then S.spec hc (by simp [hname, hlink])
  apply cwp_holds_then S.spec hc hsame
  apply (readContext_reads hc hforgiving).then
  rintro _ ⟨v, hv, rfl⟩
  apply cwp_require_then S.spec hc (context_blamed hc hjournal hv (by decide))
  intro _
  apply (requireAuthority_reads hc hforgiving).then
  intro _ _
  apply cwp_holds_then S.spec hc hsettable
  apply cwp_alter S.spec hc
  intro _ _
  rw [hname]
  have hafter : (c.setLink record.name ((c.links record.name).map (step.set target))).links
      record.name = some target := by
    simp [Core.setLink, hlink, hset]
  refine ⟨⟨?_, hc.lawful⟩, hjournal, hafter⟩
  intro found hfound
  obtain rfl : record = found := Option.some.inj (hjournal.symm.trans hfound)
  obtain ⟨hbool, hknown, hguard, child, hchild, hjoint⟩ := hc.journal record hjournal
  refine ⟨hbool, hknown, fun _ => hguard (by simp [hlink]), child, hchild, ?_⟩
  rw [hafter]
  have hin := hjoint.phase
  simp only [InPhase, hphase] at hin
  refine { hjoint with phase := ?_ }
  simp only [InPhase, hphase]
  exact ⟨hin.1, original, horiginal, Or.inr ⟨hpending, by rw [htarget]⟩⟩

theorem takeEffect_cwp {step : Step} (hstep : record.step = some step)
    (hpending : record.pending = true) {original : LinkState}
    (horiginal : record.original = some original) :
    (takeEffect record step (c.links record.name)).cwp S.spec
      (fun _ d => d.journal = some record ∧
        d.links record.name = some (coupledState original record.port record.next)) c := by
  obtain ⟨_, found, _, _, hfound, _, hlevel⟩ := settings_facts hc hjournal hphase
  obtain rfl : original = found := Option.some.inj (horiginal.symm.trans hfound)
  have hexpected : ∀ level, coupledExpected record level =
      some (coupledState original record.port level) := by
    intro level
    simp [coupledExpected, horiginal]
  unfold takeEffect
  simp only [hexpected]
  split
  case isTrue hset =>
    have hbefore : c.links record.name =
        some (coupledState original record.port record.level) := by
      rcases hlevel with h | ⟨_, h⟩
      · exact h
      · simp only [h, bne_self_eq_false, Bool.false_or, beq_iff_eq] at hset
        rw [h, hset]
    rw [hbefore]
    exact setStep_cwp hc hjournal hphase hstep hpending horiginal rfl rfl hbefore
  case isFalse hset =>
    apply cwp_pure S.spec hc
    refine ⟨hjournal, ?_⟩
    simp only [Bool.or_eq_true, bne_iff_ne, ne_eq, not_or, not_not] at hset
    exact hset.1

theorem moveLevel_cwp {step : Step} (hstep : record.step = some step) :
    (moveLevel record step).cwp S.spec
      (fun next d => d.journal = some next ∧ next.level = record.next ∧
        next.direction = record.direction ∧ next.phase = .settings ∧
        next.pending = false) c := by
  apply (observe_reads hc hjournal hphase).then
  intro _ _
  refine cwp_seq S.spec (intend_cwp hc hjournal hphase hstep) ?_
  rintro intended d hd ⟨hdj, rfl⟩
  obtain ⟨_, original, _, _, horiginal, _, _⟩ := settings_facts hd hdj hphase
  have hnextLevel : Record.next { record with pending := true } = record.next := rfl
  apply (observe_reads hd hdj hphase).then
  rintro _ rfl
  refine cwp_seq S.spec (takeEffect_cwp hd hdj hphase hstep rfl horiginal) ?_
  rintro _ e he ⟨hej, happlied⟩
  apply (observe_reads he hej hphase).then
  rintro _ rfl
  apply cwp_holds_then S.spec he
  · simp only [happlied, coupledExpected, beq_iff_eq]
    rw [show record.original = some original from horiginal]
    rfl
  obtain ⟨child, _, hchild, hcreated, hfound, hindex, _⟩ := settings_facts he hej hphase
  obtain rfl := Option.some.inj (horiginal.symm.trans hfound)
  have hvalid := he.valid hej
  obtain ⟨n, hn, hlevels⟩ := Record.step_levels hstep
  have hbound := coupledStep_lt hn
  have hnext : Valid { record with pending := false, level := record.next } :=
    { hvalid with
      level := by
        show record.next ≤ 7
        omega
      settings := fun _ => ⟨by simp [show record.original = _ from horiginal], nofun, nofun⟩
      other := fun h => absurd hphase h }
  have hkept : InPhase { record with pending := false, level := record.next } child
      (e.links record.name) := by
    simp only [InPhase, hphase]
    exact ⟨hcreated, original, horiginal, Or.inl happlied⟩
  have hindexNext : ∀ found, record.original = some found →
      child.ifindex = some found.ifindex := by
    intro found hsome
    obtain rfl := Option.some.inj (horiginal.symm.trans hsome)
    exact hindex
  refine cwp_seq S.spec (save_cwp he hej hchild hnext rfl rfl rfl hindexNext hkept) ?_
  rintro _ f hf rfl
  exact cwp_pure S.spec hf ⟨rfl, rfl, rfl, hphase, rfl⟩

end Steps

def Record.distance (record : Record) : Nat :=
  if record.direction = .apply then 7 - record.level else record.level

def Direction.end : Direction → Nat
  | .apply => 7
  | .restore => 0

theorem Record.step_none (hvalid : Valid record) (h : record.step = none) :
    record.level = record.direction.end := by
  have hlevel := hvalid.level
  unfold Record.step at h
  cases hdirection : record.direction with
  | apply =>
    have : 7 ≤ record.level := by simpa [hdirection, coupledSteps] using h
    simp only [Direction.end]
    omega
  | restore =>
    by_contra hnonzero
    have hpositive : 0 < record.level := Nat.pos_of_ne_zero hnonzero
    have : 7 ≤ record.level - 1 := by simpa [hdirection, coupledSteps, hpositive] using h
    omega

theorem Record.distance_next {record next : Record} {step : Step}
    (hstep : record.step = some step) (hlevel : next.level = record.next)
    (hdirection : next.direction = record.direction) :
    next.distance + 1 = record.distance := by
  unfold Record.step at hstep
  unfold Record.distance
  rw [hdirection, hlevel]
  cases hcase : record.direction with
  | apply =>
    simp only [hcase, BEq.rfl, if_true] at hstep
    have := coupledStep_lt hstep
    simp only [Record.next, hcase, BEq.rfl, if_true]
    omega
  | restore =>
    have hpositive : 0 < record.level := by
      by_contra hzero
      simp [hcase, show record.level = 0 by omega] at hstep
    simp only [Record.next, hcase]
    simp
    omega

theorem moveAll_cwp {S : Scenario} (passes : Nat) {c : CoupledCore}
    (hc : S.Holds c) (hjournal : c.journal = some record) (hphase : record.phase = .settings)
    (hpasses : record.distance ≤ passes) :
    (moveAll passes record).cwp S.spec
      (fun next d => d.journal = some next ∧ next.phase = .settings ∧
        next.direction = record.direction ∧ next.level = record.direction.end) c := by
  have hvalid := hc.valid hjournal
  induction passes generalizing c record with
  | zero =>
    have hend : record.level = record.direction.end := by
      have hlevel := hvalid.level
      unfold Record.distance at hpasses
      cases hcase : record.direction with
      | apply =>
        simp only [hcase, if_true] at hpasses
        simp only [Direction.end]
        omega
      | restore =>
        simp only [hcase, reduceCtorEq, if_false] at hpasses
        simp only [Direction.end]
        omega
    exact cwp_pure S.spec hc ⟨hjournal, hphase, rfl, hend⟩
  | succ passes ih =>
    unfold moveAll
    split
    case h_1 hnone => exact cwp_pure S.spec hc ⟨hjournal, hphase, rfl, Record.step_none hvalid hnone⟩
    rename_i step hstep
    refine cwp_seq S.spec (moveLevel_cwp hc hjournal hphase hstep) ?_
    rintro next d hd ⟨hdj, hlevel, hdirection, hsettings, _⟩
    have hcloser := Record.distance_next hstep hlevel hdirection
    refine cwp_mono S.spec (ih hd hdj hsettings (by omega) (hd.valid hdj)) ?_
    rintro final e _ ⟨hej, hsame, hdir, hend⟩
    rw [hdirection] at hdir hend
    exact ⟨hej, hsame, hdir, hend⟩

section Phases

variable {S : Scenario} {c : CoupledCore} {record : Record} (hc : S.Holds c)
  (hjournal : c.journal = some record)
include hc hjournal

theorem index_of_joint {child : LinkRecord} (hchild : c.child = some child) :
    ∀ original, record.original = some original → child.ifindex = some original.ifindex := by
  obtain ⟨_, _, _, found, hfound, hjoint⟩ := hc.journal record hjournal
  obtain rfl : child = found := Option.some.inj (hchild.symm.trans hfound)
  exact hjoint.index

theorem turnRound_cwp (hphase : record.phase = .settings) :
    (turnRound S.operation record (c.links record.name)).cwp S.spec
      (fun next d => d.journal = some next ∧ next.phase = .settings ∧
        (S.operation = .disable → next.direction = .restore) ∧
        (S.operation ≠ .disable → next.direction = record.direction)) c := by
  obtain ⟨child, original, hchild, hcreated, horiginal, _, hlevel⟩ :=
    settings_facts hc hjournal hphase
  have hvalid := hc.valid hjournal
  unfold turnRound
  split
  case isTrue hturn =>
    obtain ⟨hdisable, happly⟩ : S.operation = .disable ∧ record.direction = .apply := by
      simpa using hturn
    have hexpected : coupledExpected record (record.level + 1) =
        some (coupledState original record.port record.next) := by
      simp [coupledExpected, horiginal, Record.next, happly]
    have hreached : ∃ level, level ≤ 7 ∧
        (if record.pending && c.links record.name == coupledExpected record (record.level + 1)
          then record.level + 1 else record.level) = level ∧
        c.links record.name = some (coupledState original record.port level) := by
      split
      case isTrue hafter =>
        simp only [Bool.and_eq_true, beq_iff_eq] at hafter
        have hroom := (hvalid.settings hphase).2.1 hafter.1 happly
        refine ⟨record.level + 1, hroom, rfl, ?_⟩
        rw [hafter.2, hexpected]
        simp [Record.next, happly]
      case isFalse hbefore =>
        refine ⟨record.level, hvalid.level, rfl, ?_⟩
        rcases hlevel with h | ⟨hpending, h⟩
        · exact h
        · simp [hpending, h, hexpected] at hbefore
    obtain ⟨level, hbound, hchosen, hat⟩ := hreached
    dsimp only
    rw [hchosen]
    have hnext : Valid { record with direction := .restore, level, pending := false } :=
      { hvalid with
        level := hbound
        settings := fun _ => ⟨by simp [horiginal], nofun, nofun⟩
        other := fun h => absurd hphase h
        link := fun h => (by simp [hphase] at h)
        down := fun _ => rfl }
    have hkept : InPhase { record with direction := .restore, level, pending := false } child
        (c.links record.name) := by
      simp only [InPhase, hphase]
      exact ⟨hcreated, original, horiginal, Or.inl hat⟩
    refine cwp_seq S.spec (save_cwp hc hjournal hchild hnext rfl rfl rfl
      (index_of_joint hc hjournal hchild) hkept) ?_
    rintro _ d hd rfl
    exact cwp_pure S.spec hd ⟨rfl, hphase, fun _ => rfl, fun h => absurd hdisable h⟩
  case isFalse hstay =>
    apply cwp_pure S.spec hc
    refine ⟨hjournal, hphase, fun hdisable => ?_, fun _ => rfl⟩
    cases hdirection : record.direction with
    | apply => simp [hdisable, hdirection] at hstay
    | restore => rfl

theorem requirePort_reads (hoperation : S.operation ≠ .disable) {message : String}
    (hmessage : message ∈ foreignErrors) :
    (requirePort record message).Reads S.spec c (fun _ => True) := by
  apply cwp_ask_then S.spec hc
  intro w hw
  apply cwp_require_then S.spec hc
  · intro hport
    refine ⟨hc, Or.inr ⟨hmessage, record, hjournal, Or.inr ⟨hoperation, w, hw, ?_⟩⟩⟩
    rintro ⟨hsame, _⟩
    simp [hsame] at hport
  intro _
  apply cwp_ask_then S.spec hc
  intro v hv
  apply cwp_require S.spec hc
  · intro hprobe
    refine ⟨hc, Or.inr ⟨by decide, record, hjournal, Or.inr ⟨hoperation, v, hv, ?_⟩⟩⟩
    rintro ⟨_, hanswer⟩
    simp [hanswer] at hprobe
  · exact fun _ => ⟨rfl, trivial⟩

theorem requireAdapter_reads (hphase : record.phase = .settings)
    (hdisable : S.operation = .disable → record.direction = .restore) :
    (requireAdapter record).Reads S.spec c (fun _ => True) := by
  unfold requireAdapter
  split
  case isTrue happly =>
    have hoperation : S.operation ≠ .disable := by
      intro h
      simp [hdisable h] at happly
    apply (requirePort_reads hc hjournal hoperation (by decide)).then
    intro _ _
    apply (observe_reads hc hjournal hphase).then
    intro _ _
    exact cwp_pure S.spec hc ⟨rfl, trivial⟩
  case isFalse => exact cwp_pure S.spec hc ⟨rfl, trivial⟩

theorem settle_cwp (hphase : record.phase = .settings) :
    (settle S.operation record).cwp S.spec
      (fun next d => d.journal = some next ∧ next.phase = .settings ∧
        next.level = next.direction.end ∧
        (S.operation = .disable → next.direction = .restore) ∧
        (S.operation ≠ .disable → next.direction = record.direction)) c := by
  obtain ⟨child, original, hchild, hcreated, _, _, _⟩ := settings_facts hc hjournal hphase
  refine cwp_seq S.spec (R := fun _ d => d = c) ?_ ?_
  · apply (childCheck_reads hc hjournal).then
    rintro found ⟨hfound, _⟩
    obtain rfl : child = found := Option.some.inj (hchild.symm.trans hfound)
    exact cwp_holds S.spec hc (by simp [hcreated]) rfl
  rintro _ _ _ rfl
  apply (observe_reads hc hjournal hphase).then
  rintro _ rfl
  refine cwp_seq S.spec (turnRound_cwp hc hjournal hphase) ?_
  rintro directed d hd ⟨hdj, hdphase, hdown, hsame⟩
  apply (requireAdapter_reads hd hdj hdphase hdown).then
  intro _ _
  have hpasses : directed.distance ≤ 7 := by
    have := (hd.valid hdj).level
    unfold Record.distance
    split <;> omega
  refine cwp_seq S.spec (moveAll_cwp 7 hd hdj hdphase hpasses) ?_
  rintro settled e he ⟨hej, hephase, hdirection, hend⟩
  apply (observe_reads he hej hephase).then
  intro _ _
  apply cwp_pure S.spec he
  refine ⟨hej, hephase, by rw [hdirection]; exact hend, fun h => hdirection.trans (hdown h),
    fun h => hdirection.trans (hsame h)⟩

end Phases

end Meshpn.Dns.Coupled
