import Meshpn.Dns.GuardJournal

/-!
The guard never opens without authority. Every moment of every sequence of
interrupted transactions has a lawful history: a rule set is removed only
under a durable `releasing` stage and right after a positive verdict, added
only under a durable `installing` stage, and the direction is switched once,
by `disable`.
-/

namespace Meshpn.Dns.Guard

open Meshpn.Lib

/-- What an event may be, given the history before it (newest first). -/
def Event.Lawful (earlier : List Event) : Event → Prop
  | .authorized _ => True
  | .added _ durable => durable = some .installing
  | .removed _ durable =>
      durable = some .releasing ∧ earlier.head? = some (.authorized true)
  | .saved operation before after =>
      (after = .releasing → before = some .installing ∨ before = some .active →
        operation = .disable) ∧
      (before = some .releasing → after = .releasing ∨ after = .released) ∧
      (before = some .released → after = .released)

def LawfulLog : List Event → Prop
  | [] => True
  | event :: earlier => event.Lawful earlier ∧ LawfulLog earlier

def Core.Both (c : Core) (state : Bool) : Prop := ∀ family, c.present family = state

structure Inv (c : Core) : Prop where
  lawful : LawfulLog c.log
  active : c.stage = some .active → c.Both true
  released : c.stage = some .released → c.Both false

/-- An error may end any step; it must leave the invariant, nothing more. -/
def guardSpec : CoreSpec Core Around := ⟨fun _ => True, Inv, fun _ => Inv⟩

section Reads

variable {c : Core} (hc : Inv c)
include hc

theorem currentContext_reads : currentContext.Reads guardSpec c (fun _ => True) := by
  apply cwp_ask_then guardSpec hc
  intro w _
  apply cwp_require_then guardSpec hc (fun _ => hc)
  intro _
  exact cwp_pure guardSpec hc ⟨rfl, trivial⟩

theorem checkedConfig_reads : checkedConfig.Reads guardSpec c (fun _ => True) := by
  apply cwp_ask_then guardSpec hc
  intro w _
  apply cwp_require_then guardSpec hc (fun _ => hc)
  intro _
  exact cwp_pure guardSpec hc ⟨rfl, trivial⟩

theorem installedInput_reads : installedInput.Reads guardSpec c (fun _ => True) := by
  apply cwp_ask_then guardSpec hc
  intro w _
  rcases w.installed with _ | input
  · exact cwp_pure guardSpec hc ⟨rfl, trivial⟩
  apply cwp_require_then guardSpec hc (fun _ => hc)
  intro _
  apply (checkedConfig_reads hc).then
  intro config _
  apply cwp_require_then guardSpec hc (fun _ => hc)
  intro _
  exact cwp_pure guardSpec hc ⟨rfl, trivial⟩

theorem assertContext_reads (record : Record) :
    (assertContext record).Reads guardSpec c (fun _ => True) := by
  apply (currentContext_reads hc).then
  intro context _
  apply cwp_require_then guardSpec hc (fun _ => hc)
  intro _
  apply (checkedConfig_reads hc).then
  intro config _
  apply cwp_require_then guardSpec hc (fun _ => hc)
  intro _
  apply (installedInput_reads hc).then
  intro installed _
  exact cwp_require guardSpec hc (fun _ => hc) (fun _ => ⟨rfl, trivial⟩)

theorem readFamily_reads (family : Family) :
    (readFamily family).Reads guardSpec c (fun state => state = c.present family) :=
  cwp_ask guardSpec hc (fun _ _ => ⟨rfl, rfl⟩)

theorem inspectFamilies_reads (record : Record) :
    (inspectFamilies record).Reads guardSpec c
      (fun states => ∀ family, stateOf states family = c.present family) := by
  apply cwp_require_then guardSpec hc (fun _ => hc)
  intro _
  apply (assertContext_reads hc record).then
  intro _ _
  apply (readFamily_reads hc .ipv4).then
  rintro _ rfl
  apply (readFamily_reads hc .ipv6).then
  rintro _ rfl
  apply cwp_pure guardSpec hc
  refine ⟨rfl, ?_⟩
  intro family
  cases family <;> rfl

theorem observe_reads (record : Record) :
    (observe record).Reads guardSpec c
      (fun states => ∀ family, stateOf states family = c.present family) := by
  apply (currentContext_reads hc).then
  intro context _
  apply cwp_require_then guardSpec hc (fun _ => hc)
  intro _
  apply (checkedConfig_reads hc).then
  intro config _
  apply cwp_require_then guardSpec hc (fun _ => hc)
  intro _
  apply (installedInput_reads hc).then
  intro installed _
  apply cwp_require_then guardSpec hc (fun _ => hc)
  intro _
  apply (inspectFamilies_reads hc record).then
  intro states hstates
  apply (currentContext_reads hc).then
  intro again _
  apply cwp_require_then guardSpec hc (fun _ => hc)
  intro _
  exact cwp_pure guardSpec hc ⟨rfl, hstates⟩

theorem newInput_reads (installed : Option Input) :
    (newInput installed).Reads guardSpec c (fun _ => True) := by
  cases installed with
  | some input => exact cwp_pure guardSpec hc ⟨rfl, trivial⟩
  | none =>
    apply (checkedConfig_reads hc).then
    intro config _
    apply cwp_ask_then guardSpec hc
    intro w _
    exact cwp_pure guardSpec hc ⟨rfl, trivial⟩

theorem readJournal_reads :
    readJournal.Reads guardSpec c (fun record => c.journal = some record) := by
  apply cwp_ask_then guardSpec hc
  intro w _
  rcases hjournal : c.journal with _ | record
  · exact cwp_throw guardSpec hc hc
  apply cwp_require_then guardSpec hc (fun _ => hc)
  intro _
  exact cwp_pure guardSpec hc ⟨rfl, rfl⟩

end Reads

variable {c : Core} {record : Record} {wanted : Bool}

theorem Inv.authorized (hc : Inv c) (verdict : Bool) :
    Inv (c.record (.authorized verdict)) :=
  ⟨⟨trivial, hc.lawful⟩, hc.active, hc.released⟩

theorem askAuthority_cwp (hc : Inv c) {Q : Bool → Core → Prop}
    (hQ : ∀ verdict, Q verdict (c.record (.authorized verdict))) :
    askAuthority.cwp guardSpec Q c := by
  apply cwp_ask_then guardSpec hc
  intro w _
  apply cwp_alter_then guardSpec hc
  intro _ _
  exact cwp_pure guardSpec (hc.authorized _) (hQ _)

theorem authorizeRelease_cwp (hc : Inv c) (record : Record)
    {Q : Bool → Core → Prop} (hQ : ∀ verdict, Q verdict (c.record (.authorized verdict))) :
    (authorizeRelease record).cwp guardSpec Q c := by
  apply (inspectFamilies_reads hc record).then
  intro _ _
  exact askAuthority_cwp hc hQ

/-- The authority to move one family: the durable direction, and for a
removal a positive verdict as the very last event. -/
def Permitted (c : Core) (wanted : Bool) : Prop :=
  if wanted then c.stage = some .installing
  else c.stage = some .releasing ∧ c.log.head? = some (.authorized true)

/-- Only the family in question moved, under the same journal. -/
structure Moved (c d : Core) (family : Family) (wanted : Bool) : Prop where
  journal : d.journal = c.journal
  moved : d.present family = wanted
  kept : ∀ other, other ≠ family → d.present other = c.present other
  inv : Inv d

theorem Moved.refl (hc : Inv c) {family : Family}
    (h : c.present family = wanted) : Moved c c family wanted :=
  ⟨rfl, h, fun _ _ => rfl, hc⟩

theorem moved_restoreBatch (hc : Inv c) (family : Family)
    (hpermitted : Permitted c wanted) :
    Moved c ((c.setRule family wanted).record
      (if wanted then .added family c.stage else .removed family c.stage)) family wanted where
  journal := rfl
  moved := by simp [Core.record, Core.setRule]
  kept other hne := by simp [Core.record, Core.setRule, hne]
  inv := by
    cases wanted with
    | true =>
      have hstage : c.stage = some .installing := hpermitted
      refine ⟨⟨hstage, hc.lawful⟩, ?_, ?_⟩
      · intro h
        exact absurd (hstage.symm.trans h) (by simp)
      · intro h
        exact absurd (hstage.symm.trans h) (by simp)
    | false =>
      have hstage : c.stage = some .releasing := hpermitted.1
      refine ⟨⟨hpermitted, hc.lawful⟩, ?_, ?_⟩
      · intro h
        exact absurd (hstage.symm.trans h) (by simp)
      · intro h
        exact absurd (hstage.symm.trans h) (by simp)

theorem changeFamily_cwp (hc : Inv c) (record : Record)
    (family : Family) (hpermitted : Permitted c wanted) :
    (changeFamily record wanted family (c.present family)).cwp guardSpec
      (fun _ d => Moved c d family wanted) c := by
  unfold changeFamily
  by_cases hsame : c.present family = wanted
  · simp only [hsame, BEq.rfl, if_true]
    exact cwp_pure guardSpec hc (Moved.refl hc hsame)
  simp only [beq_iff_eq, hsame, if_false]
  apply (assertContext_reads hc record).then
  intro _ _
  apply (readFamily_reads hc family).then
  rintro _ rfl
  apply cwp_require_then guardSpec hc (fun _ => hc)
  intro _
  apply cwp_alter_then guardSpec hc
  intro _ _
  have hmoved := moved_restoreBatch hc family hpermitted
  apply (readFamily_reads hmoved.inv family).then
  intro after _
  exact cwp_require guardSpec hmoved.inv (fun _ => hmoved.inv) (fun _ => hmoved)

theorem change_cwp (hc : Inv c) (record : Record)
    (family : Family) (hpermitted : Permitted c wanted) :
    (change record wanted family).cwp guardSpec (fun _ d => Moved c d family wanted) c := by
  apply (inspectFamilies_reads hc record).then
  intro before hbefore
  rw [hbefore family]
  refine cwp_seq guardSpec (changeFamily_cwp hc record family hpermitted) ?_
  intro _ d _ hmoved
  apply (inspectFamilies_reads hmoved.inv record).then
  intro final _
  exact cwp_require guardSpec hmoved.inv (fun _ => hmoved.inv) (fun _ => hmoved)

theorem stage_of_journal (h : c.journal = some record) :
    c.stage = some record.stage := by
  simp [Core.stage, h]

theorem commit_cwp (hc : Inv c) (family : Family)
    (hjournal : c.journal = some record) :
    (commit record family).cwp guardSpec
      (fun _ d => Moved c d family (record.stage == .installing)) c := by
  have hstage := stage_of_journal hjournal
  apply cwp_require_then guardSpec hc (fun _ => hc)
  intro _
  apply cwp_require_then guardSpec hc (fun _ => hc)
  intro hintent
  by_cases hinstalling : record.stage = .installing
  · simp only [hinstalling, BEq.rfl, if_true]
    exact change_cwp hc record family (hstage.trans (congrArg some hinstalling))
  have hreleasing : record.stage = .releasing := by
    simpa [hinstalling] using hintent
  simp only [hreleasing]
  apply (assertContext_reads hc record).then
  intro _ _
  refine cwp_seq guardSpec
    (R := fun verdict d => d = c.record (.authorized verdict))
    (askAuthority_cwp hc fun _ => rfl) ?_
  rintro verdict d hd rfl
  apply cwp_require_then guardSpec hd (fun _ => hd)
  rintro rfl
  have hpermitted : Permitted (c.record (.authorized true)) false :=
    ⟨hstage.trans (congrArg some hreleasing), rfl⟩
  refine cwp_mono guardSpec (change_cwp hd record family hpermitted) ?_
  intro _ d _ hmoved
  exact ⟨hmoved.journal, hmoved.moved, hmoved.kept, hmoved.inv⟩

theorem proveRestored_cwp (hc : Inv c) (record : Record) (message : String) :
    (proveRestored record message).cwp guardSpec
      (fun _ d => d.journal = c.journal ∧ d.present = c.present) c := by
  unfold proveRestored
  split
  · refine cwp_seq guardSpec (R := fun verdict d => d = c.record (.authorized verdict))
      (authorizeRelease_cwp hc record fun _ => rfl) ?_
    rintro verdict d hd rfl
    exact cwp_require guardSpec hd (fun _ => hd) (fun _ => ⟨rfl, rfl⟩)
  · exact cwp_pure guardSpec hc ⟨rfl, rfl⟩

theorem settleFamily_cwp (hc : Inv c) (family : Family)
    (hjournal : c.journal = some record) :
    (settleFamily record (record.stage == .installing) family).cwp guardSpec
      (fun _ d => Moved c d family (record.stage == .installing)) c := by
  apply (observe_reads hc record).then
  intro states hstates
  rw [hstates family]
  by_cases hsame : c.present family = (record.stage == .installing)
  · simp only [hsame, BEq.rfl, if_true]
    exact cwp_pure guardSpec hc (Moved.refl hc hsame)
  simp only [beq_iff_eq, hsame, if_false]
  refine cwp_seq guardSpec (proveRestored_cwp hc record _) ?_
  rintro _ d hd ⟨hsameJournal, hsamePresent⟩
  refine cwp_seq guardSpec (commit_cwp hd family (hsameJournal.trans hjournal)) ?_
  intro _ e _ hmoved
  apply (observe_reads hmoved.inv record).then
  intro after _
  apply cwp_require guardSpec hmoved.inv (fun _ => hmoved.inv)
  intro _
  refine ⟨hmoved.journal.trans hsameJournal, hmoved.moved, ?_, hmoved.inv⟩
  intro other hne
  rw [hmoved.kept other hne, hsamePresent]

/-- A stage change that a save may record, and what the firewall must show. -/
structure SaveAllowed (c : Core) (operation : Operation) (stage : Stage) : Prop where
  lawful : (Event.saved operation c.stage stage).Lawful c.log
  active : stage = .active → c.Both true
  released : stage = .released → c.Both false

theorem save_cwp (hc : Inv c) {operation : Operation}
    {stage : Stage} (hallowed : SaveAllowed c operation stage) :
    (save operation record stage).cwp guardSpec
      (fun next d => Inv d ∧ next = { record with stage } ∧ d.journal = some next ∧
        d.present = c.present) c := by
  apply cwp_require_then guardSpec hc (fun _ => hc)
  intro _
  apply cwp_alter_then guardSpec hc
  intro _ _
  have hnext : Inv { c with journal := some { record with stage }, log := .saved operation c.stage stage :: c.log } := by
    refine ⟨⟨hallowed.lawful, hc.lawful⟩, ?_, ?_⟩
    · intro h
      exact hallowed.active (Option.some.inj h)
    · intro h
      exact hallowed.released (Option.some.inj h)
  exact cwp_pure guardSpec hnext ⟨hnext, rfl, rfl, rfl⟩

/-- What a transaction that returned normally says and leaves behind. -/
structure Returned (result : Result) (d : Core) : Prop where
  inv : Inv d
  active : result.stage = .active → d.Both true
  released : result.stage = .released → d.Both false

theorem Returned.of_journal {d : Core} (hd : Inv d)
    (hjournal : d.journal = some record) (states : Bool × Bool) (readOnly : Bool) :
    Returned { result record states with readOnly } d where
  inv := hd
  active h := hd.active ((stage_of_journal hjournal).trans (congrArg some h))
  released h := hd.released ((stage_of_journal hjournal).trans (congrArg some h))

theorem both_of_settled {c d : Core}
    (hfirst : c.present .ipv4 = wanted) (hsecond : Moved c d .ipv6 wanted) :
    d.Both wanted := by
  intro family
  cases family with
  | ipv4 => exact (hsecond.kept .ipv4 (by decide)).trans hfirst
  | ipv6 => exact hsecond.moved

theorem converge_cwp (hc : Inv c) (operation : Operation)
    (hjournal : c.journal = some record)
    (hdirection : record.stage = .installing ∨ record.stage = .releasing) :
    (converge operation record).cwp guardSpec Returned c := by
  refine cwp_seq guardSpec (settleFamily_cwp hc .ipv4 hjournal) ?_
  intro _ d hd hfour
  have hd4 := hfour.journal.trans hjournal
  refine cwp_seq guardSpec (settleFamily_cwp hd .ipv6 hd4) ?_
  intro _ e he hsix
  have hboth := both_of_settled hfour.moved hsix
  apply (observe_reads he record).then
  intro states _
  apply cwp_require_then guardSpec he (fun _ => he)
  intro _
  refine cwp_seq guardSpec (proveRestored_cwp he record _) ?_
  rintro _ f hf ⟨hfJournal, hfPresent⟩
  have hstage : f.stage = some record.stage :=
    stage_of_journal (hfJournal.trans (hsix.journal.trans hd4))
  have hbothf : f.Both (record.stage == .installing) := by
    intro family
    rw [hfPresent]
    exact hboth family
  have hallowed : SaveAllowed f operation
      (if (record.stage == .installing) = true then .active else .released) := by
    rcases hdirection with h | h
    · rw [h] at hstage hbothf ⊢
      refine ⟨⟨nofun, ?_, ?_⟩, fun _ => hbothf, nofun⟩
      · simp [hstage]
      · simp [hstage]
    · rw [h] at hstage hbothf ⊢
      refine ⟨⟨nofun, ?_, ?_⟩, nofun, fun _ => hbothf⟩
      · exact fun _ => Or.inr rfl
      · simp [hstage]
  refine cwp_seq guardSpec (save_cwp hf hallowed) ?_
  rintro next g _ ⟨hg, rfl, hgJournal, _⟩
  exact cwp_pure guardSpec hg (Returned.of_journal hg hgJournal states false)

theorem proceed_cwp (hc : Inv c) (operation : Operation)
    (hjournal : c.journal = some record) (states : Bool × Bool) :
    (proceed operation record states).cwp guardSpec Returned c := by
  have hstage := stage_of_journal hjournal
  unfold proceed
  cases hcase : record.stage with
  | released =>
    apply cwp_require_then guardSpec hc (fun _ => hc)
    intro _
    exact cwp_pure guardSpec hc (Returned.of_journal hc hjournal states false)
  | active =>
    dsimp only
    split
    · exact cwp_pure guardSpec hc (Returned.of_journal hc hjournal states false)
    have hallowed : SaveAllowed c operation .installing := by
      rw [hcase] at hstage
      refine ⟨⟨nofun, ?_, ?_⟩, nofun, nofun⟩
      · simp [hstage]
      · simp [hstage]
    refine cwp_seq guardSpec (save_cwp hc hallowed) ?_
    rintro next d _ ⟨hd, rfl, hdJournal, _⟩
    exact converge_cwp hd operation hdJournal (Or.inl rfl)
  | installing => exact converge_cwp hc operation hjournal (Or.inl hcase)
  | releasing => exact converge_cwp hc operation hjournal (Or.inr hcase)

theorem redirect_cwp (hc : Inv c) (operation : Operation)
    (hjournal : c.journal = some record) :
    (redirect operation record).cwp guardSpec (fun next d => d.journal = some next) c := by
  have hstage := stage_of_journal hjournal
  unfold redirect
  split
  case isTrue hredirect =>
    obtain ⟨hdisable, hopen⟩ : operation = .disable ∧
        (record.stage = .installing ∨ record.stage = .active) := by simpa using hredirect
    refine cwp_seq guardSpec (R := fun verdict d => d = c.record (.authorized verdict))
      (authorizeRelease_cwp hc record fun _ => rfl) ?_
    rintro verdict d hd rfl
    apply cwp_require_then guardSpec hd (fun _ => hd)
    intro _
    have hallowed : SaveAllowed (c.record (.authorized verdict)) operation .releasing := by
      refine ⟨⟨fun _ _ => hdisable, fun _ => Or.inl rfl, ?_⟩, nofun, nofun⟩
      intro hreleased
      have : some record.stage = some Stage.released := hstage.symm.trans hreleased
      rcases hopen with h | h <;> simp [h] at this
    refine cwp_mono guardSpec (save_cwp hd hallowed) ?_
    rintro next e _ ⟨_, _, heJournal, _⟩
    exact heJournal
  case isFalse => exact cwp_pure guardSpec hc hjournal

theorem createJournal_cwp (hc : Inv c) (operation : Operation) :
    (createJournal operation).cwp guardSpec (fun next d => d.journal = some next) c := by
  apply cwp_ask_then guardSpec hc
  intro _ _
  apply cwp_require_then guardSpec hc (fun _ => hc)
  intro hnone
  have hstage : c.stage = none := by
    simpa [Core.stage] using hnone
  apply (installedInput_reads hc).then
  intro installed _
  apply cwp_require_then guardSpec hc (fun _ => hc)
  intro _
  apply (newInput_reads hc installed).then
  intro input _
  apply (currentContext_reads hc).then
  intro context _
  apply cwp_require_then guardSpec hc (fun _ => hc)
  intro _
  apply (inspectFamilies_reads hc _).then
  intro states hstates
  apply cwp_require_then guardSpec hc (fun _ => hc)
  intro hbound
  have hbefore : c.Both installed.isSome := by
    intro family
    rw [← hstates family, beq_iff_eq.mp hbound]
    cases family <;> rfl
  apply (currentContext_reads hc).then
  intro again _
  apply cwp_require_then guardSpec hc (fun _ => hc)
  intro _
  have hcheck : (checkInstalled installed).Reads guardSpec c (fun _ => True) := by
    rcases installed with _ | input
    · exact cwp_pure guardSpec hc ⟨rfl, trivial⟩
    apply (installedInput_reads hc).then
    intro still _
    exact cwp_require guardSpec hc (fun _ => hc) (fun _ => ⟨rfl, trivial⟩)
  apply hcheck.then
  intro _ _
  have hallowed : SaveAllowed c operation
      (if installed.isSome = true then .active else .installing) := by
    cases installed with
    | none => exact ⟨⟨nofun, by simp [hstage], by simp [hstage]⟩, nofun, nofun⟩
    | some input => exact ⟨⟨nofun, by simp [hstage], by simp [hstage]⟩, fun _ => hbefore, nofun⟩
  refine cwp_mono guardSpec (save_cwp hc hallowed) ?_
  rintro next d _ ⟨_, _, hdJournal, _⟩
  exact hdJournal

theorem openJournal_cwp (hc : Inv c) (operation : Operation) :
    (openJournal operation).cwp guardSpec (fun record d => d.journal = some record) c := by
  unfold openJournal
  split
  · exact createJournal_cwp hc operation
  refine cwp_mono guardSpec (readJournal_reads hc) ?_
  rintro record d _ ⟨rfl, hjournal⟩
  exact hjournal

theorem dnsGuardTransaction_cwp (hc : Inv c) (operation : Operation) :
    (dnsGuardTransaction operation).cwp guardSpec Returned c := by
  refine cwp_seq guardSpec (openJournal_cwp hc operation) ?_
  intro record d hd hjournal
  apply (observe_reads hd record).then
  intro states _
  split
  · exact cwp_pure guardSpec hd (Returned.of_journal hd hjournal states true)
  apply cwp_require_then guardSpec hd (fun _ => hd)
  intro _
  refine cwp_seq guardSpec (redirect_cwp hd operation hjournal) ?_
  intro directed e he heJournal
  exact proceed_cwp he operation heJournal states

def guardContract : guardSystem.Contract :=
  coreContract Inv Inv (fun _ _ => Returned) (fun _ _ _ => Inv)
    (fun c h => by
      have hstage : c.stage = none := by simp [Core.stage, h.1]
      exact ⟨by rw [h.2]; trivial, by simp [hstage], by simp [hstage]⟩)
    (fun _ h => h) (fun _ _ _ _ h => h.inv) (fun _ _ _ _ h => h) (fun _ h => h)
    (fun operation _ hc => dnsGuardTransaction_cwp hc operation)

instance : IsPreorder (Ambient Core Around) guardSystem.env :=
  inferInstanceAs (IsPreorder (Ambient Core Around) (sameCore (fun _ => True)))

/-- Every moment of every run has a lawful history, and a transaction that
returns with stage `active` (`released`) leaves both rule sets in place
(removed). -/
theorem guard_never_opens_without_authority :
    (∀ t, guardSystem.Visited t → LawfulLog t.core.log) ∧
    (∀ operation s result t, guardSystem.Reachable s →
      Exec guardSystem.env (dnsGuardTransaction operation) s (.done result) t →
      (result.stage = .active → t.core.Both true) ∧
      (result.stage = .released → t.core.Both false)) := by
  constructor
  · intro t ht
    exact (guardContract.visited ht).2.lawful
  · intro operation s result t hs hexec
    obtain ⟨_, hreturned⟩ := guardContract.returned (i := operation) hs hexec
    exact ⟨hreturned.active, hreturned.released⟩

/-- Surroundings that stay as they are and agree with the record. -/
structure Steady (w : Around) (record : Record) : Prop where
  context : validContext w.context = true
  config : compiles ⟨w.config, zeroId⟩ = true
  installed : w.installed = none
  sameContext : w.context = record.context
  samePolicy : w.config = record.input.policy
  journal : validJournal record = true

section Steady

variable {c : Core} {w : Around} {record : Record} (hw : Steady w record)
include hw

theorem currentContext_run : currentContext.run ⟨c, w⟩ = (.ok w.context, ⟨c, w⟩) := by
  simp [currentContext, Prog.run_bind, hw.context]

theorem checkedConfig_run : checkedConfig.run ⟨c, w⟩ = (.ok w.config, ⟨c, w⟩) := by
  simp [checkedConfig, Prog.run_bind, hw.config]

theorem installedInput_run : installedInput.run ⟨c, w⟩ = (.ok none, ⟨c, w⟩) := by
  simp [installedInput, Prog.run_bind, hw.installed]

theorem assertContext_run : (assertContext record).run ⟨c, w⟩ = (.ok (), ⟨c, w⟩) := by
  simp [assertContext, Prog.run_bind, currentContext_run hw, checkedConfig_run hw,
    installedInput_run hw, hw.sameContext, hw.samePolicy, belongs]

theorem inspectFamilies_run :
    (inspectFamilies record).run ⟨c, w⟩ =
      (.ok (c.present .ipv4, c.present .ipv6), ⟨c, w⟩) := by
  simp [inspectFamilies, Prog.run_bind, hw.journal, assertContext_run hw, readFamily]

theorem observe_run :
    (observe record).run ⟨c, w⟩ = (.ok (c.present .ipv4, c.present .ipv6), ⟨c, w⟩) := by
  simp [observe, Prog.run_bind, currentContext_run hw, checkedConfig_run hw,
    installedInput_run hw, inspectFamilies_run hw, hw.sameContext, hw.samePolicy, belongs]

theorem settleFamily_run (family : Family) (hstage : record.stage = .installing)
    (habsent : c.present family = false) :
    (settleFamily record true family).run ⟨c, w⟩ =
      (.ok (), ⟨(c.setRule family true).record (.added family c.stage), w⟩) := by
  cases family <;>
    simp [settleFamily, proveRestored, commit, change, changeFamily, restoreBatch, readFamily,
      Prog.run_bind, observe_run hw, inspectFamilies_run hw, assertContext_run hw, stateOf,
      habsent, hstage, hw.journal, Core.record, Core.setRule]

theorem converge_run (operation : Operation) (hstage : record.stage = .installing)
    (hopen : c.Both false) :
    ∃ d, (converge operation record).run ⟨c, w⟩ =
      (.ok ⟨record.input.id, .active, (true, true), false⟩, ⟨d, w⟩) := by
  have hactive : validJournal { record with stage := .active } = true := hw.journal
  simp [converge, Prog.run_bind, settleFamily_run hw .ipv4 hstage (hopen .ipv4),
    settleFamily_run hw .ipv6 hstage, observe_run hw, hstage, hopen .ipv6,
    Core.record, Core.setRule, proveRestored, save, hactive, result]

end Steady

/-- The record a first `enable` writes in the given surroundings. -/
def firstRecord (w : Around) : Record := ⟨⟨w.config, w.freshId⟩, w.context, .installing⟩

/-- Nothing prevents the guard from closing: over an open firewall, a first
`enable` in steady surroundings returns with stage `active`. -/
theorem enable_completes {w : Around} (hw : Steady w (firstRecord w))
    (hnone : c.journal = none) (hopen : c.Both false) :
    ∃ d, (dnsGuardTransaction .enable).run ⟨c, w⟩ =
      (.ok ⟨w.freshId, .active, (true, true), false⟩, ⟨d, w⟩) := by
  have hfresh : (Operation.enable == Operation.bindBoot) = false := rfl
  have hstates : (c.present .ipv4, c.present .ipv6) = (false, false) := by
    rw [hopen, hopen]
  have hcreated : (createJournal .enable).run ⟨c, w⟩ = (.ok (firstRecord w),
      ⟨{ c with journal := some (firstRecord w),
                log := .saved .enable c.stage .installing :: c.log }, w⟩) := by
    have hinspect := inspectFamilies_run (c := c) hw
    have hjournal := hw.journal
    unfold firstRecord at hinspect hjournal
    simp [createJournal, newInput, checkInstalled, Prog.run_bind, hnone, hfresh,
      currentContext_run hw, checkedConfig_run hw, installedInput_run hw, hinspect, hjournal,
      hstates, save, firstRecord]
  obtain ⟨d, hd⟩ := converge_run hw .enable rfl (c := { c with
    journal := some (firstRecord w), log := .saved .enable c.stage .installing :: c.log }) hopen
  refine ⟨d, ?_⟩
  have hopenJournal : openJournal .enable = createJournal .enable := rfl
  have hredirect : redirect .enable (firstRecord w) = pure (firstRecord w) := rfl
  have hproceed : ∀ states, proceed .enable (firstRecord w) states =
      converge .enable (firstRecord w) := fun _ => rfl
  have hstage : (firstRecord w).stage = .installing := rfl
  have hid : w.freshId = (firstRecord w).input.id := rfl
  simpa [dnsGuardTransaction, hopenJournal, Prog.run_bind, hcreated, observe_run hw, hredirect,
    hproceed, hstage, hid] using hd

/-- A VPS2 client without a journal or guard rules. -/
def freshClient : Ambient Core Around where
  core := ⟨none, fun _ => false, []⟩
  around :=
    { context := ⟨"12345678-1234-1234-1234-123456789abc", "net:[4026531840]", "64768:131",
        .nfTables, .nfTables, none⟩
      config := .vps2
      installed := none
      freshId := "00112233445566778899aabbccddeeff"
      authority := false }

theorem freshClient_steady : Steady freshClient.around (firstRecord freshClient.around) where
  context := by decide +kernel
  config := by decide +kernel
  installed := rfl
  sameContext := rfl
  samePolicy := rfl
  journal := by decide +kernel

/-- The first `enable` of that client closes both families. -/
theorem freshClient_enable_guards :
    ∃ t, Exec guardSystem.env (dnsGuardTransaction .enable) freshClient
        (.done ⟨freshClient.around.freshId, .active, (true, true), false⟩) t ∧
      t.core.Both true := by
  obtain ⟨d, hrun⟩ := enable_completes (c := freshClient.core) freshClient_steady rfl fun _ => rfl
  have hexec := Exec.of_run_ok guardSystem.env hrun
  exact ⟨_, hexec, (guard_never_opens_without_authority.2 .enable freshClient _ _
    (.init ⟨trivial, rfl, rfl⟩) hexec).1 rfl⟩

end Meshpn.Dns.Guard
