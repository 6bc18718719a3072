import Meshpn.TunnelDns.Journal

/-!
What a fail-closed journal has to keep, and the steps that every operation is
made of: reading the kernel, running a command, saving the record and
resetting the connections.

Most of what an operation relies on it has just observed: the audit at every
read-back says that the kernel holds owned items only.
-/

namespace Meshpn.TunnelDns

open Meshpn.Lib

/-- An item leaves the kernel under a record that owns it. -/
def Removal.Lawful (removal : Removal) : Prop :=
  ∃ v, removal.journal = some v ∧
    (removal.item ∈ (operations v).map Op.item ∨ removal.item ∈ holds v) ∧
    (removal.item ∈ (operations v).map Op.item → ∀ gate ∈ holds v, gate ∈ removal.items) ∧
    (removal.item ∈ holds v →
      (∀ op ∈ operations v, op.item ∈ removal.items) ∨
      (∀ op ∈ operations v, op.item ∉ removal.items) ∧
        ∃ reset, removal.reset = some reset ∧ reset.Complete v.config)

/-- The kernel holds each item once, and only what the record accounts for. -/
def Owned (v : Record) (items : List Item) : Prop :=
  items.Nodup ∧ ∀ item ∈ items, item ∈ owned v

structure Inv (c : Core) : Prop where
  lawful : ∀ removal ∈ c.removals, removal.Lawful
  valid : ∀ v, c.journal = some v → validateTunnelDnsJournal v = true
  owned : ∀ v, c.journal = some v → Owned v c.items

/-- What the kernel and the random source promise. -/
structure Around.WellFormed (w : Around) : Prop where
  scope : w.scope.valid = true
  freshId : Text.hex 24 w.freshId = true
  links : ∀ name link, w.links name = some link → link.valid = true

def closedSpec : CoreSpec Core Around where
  allowed := Around.WellFormed
  safe := Inv
  fails error c := error ≠ invalidJournal ∧ Inv c

theorem ne_invalidJournal {start : String} (rest : String)
    (h : start.toList.head?.all (· ≠ 'u') = true) (hstart : start.toList ≠ []) :
    start ++ rest ≠ invalidJournal := by
  intro heq
  have hhead := congrArg (fun s : String => s.toList.head?) heq
  rcases hs : start.toList with _ | ⟨first, tail⟩
  · exact hstart hs
  simp only [String.toList_append, hs, List.cons_append, List.head?_cons] at hhead h
  have hu : first = 'u' := by
    simpa [invalidJournal] using hhead
  simp [hu] at h

theorem commandFailed_ne (file : String) : commandFailed file ≠ invalidJournal := by
  rw [commandFailed, String.append_assoc]
  exact ne_invalidJournal _ (by decide) (by decide)

section Reads

variable {c : Core} (hc : Inv c) (timed : Bool)
include hc

theorem checkDeadline_reads : (checkDeadline timed).Reads closedSpec c (fun _ => True) := by
  apply cwp_ask_then closedSpec hc
  intro w _
  exact cwp_require closedSpec hc (fun _ => ⟨by decide, hc⟩) (fun _ => ⟨rfl, trivial⟩)

theorem query_reads {α : Type} (file : String) (view : Core → Around → α) :
    (query timed file view).Reads closedSpec c
      (fun value => ∃ w : Around, w.WellFormed ∧ value = view c w) := by
  apply (checkDeadline_reads hc timed).then
  intro _ _
  apply cwp_ask_then closedSpec hc
  intro w hw
  apply cwp_require_then closedSpec hc (fun _ => ⟨commandFailed_ne file, hc⟩)
  intro _
  apply (checkDeadline_reads hc timed).then
  intro _ _
  exact cwp_pure closedSpec hc ⟨rfl, w, hw, rfl⟩

theorem readNetwork_reads :
    (readNetwork timed).Reads closedSpec c (fun snapshot => snapshot.items = c.items ∧
      ∀ name link, snapshot.links name = some link → link.valid = true) := by
  apply (query_reads hc timed "iptables" _).then
  rintro _ ⟨w, hw, rfl⟩
  cases hfirewall : w.firewall with
  | none => exact cwp_throw closedSpec hc ⟨by decide, hc⟩
  | some backend => exact cwp_pure closedSpec hc ⟨rfl, rfl, hw.links⟩

theorem audit_reads {snapshot : Snapshot} (hsnapshot : snapshot.items = c.items)
    (allowed : List Item) :
    (audit snapshot allowed).Reads closedSpec c
      (fun _ => c.items.Nodup ∧ ∀ item ∈ c.items, item ∈ allowed) := by
  apply cwp_require_then closedSpec hc (fun _ => ⟨by decide, hc⟩)
  intro hallowed
  apply cwp_require closedSpec hc (fun _ => ⟨by decide, hc⟩)
  intro hnodup
  rw [hsnapshot] at hallowed hnodup
  exact ⟨rfl, of_decide_eq_true hnodup, by simpa using hallowed⟩

theorem observe_reads (v : Record) :
    (observe timed v).Reads closedSpec c
      (fun snapshot => snapshot.items = c.items ∧ Owned v c.items) := by
  apply cwp_ask_then closedSpec hc
  intro w _
  apply cwp_require_then closedSpec hc (fun _ => ⟨by decide, hc⟩)
  intro _
  apply (readNetwork_reads hc timed).then
  rintro snapshot ⟨hitems, _⟩
  apply cwp_require_then closedSpec hc (fun _ => ⟨by decide, hc⟩)
  intro _
  cases sameLinks v snapshot.links with
  | some name =>
    exact cwp_throw closedSpec hc ⟨ne_invalidJournal name (by decide) (by decide), hc⟩
  | none =>
    apply (audit_reads hc hitems (owned v)).then
    intro _ howned
    exact cwp_pure closedSpec hc ⟨rfl, hitems, howned⟩

end Reads

/-- A command may have worked or not, whatever status it reports; only one
that worked reports none. -/
theorem attempt_cwp {c : Core} (hc : Inv c) (timed : Bool) {act : Core → Around → Except Nat Core}
    {Q : Option Nat → Core → Prop}
    (hact : ∀ w d, act c w = .ok d → Inv d ∧ ∀ status, Q status d)
    (hQ : ∀ status, Q (some status) c) : (attempt timed act).cwp closedSpec Q c := by
  apply (checkDeadline_reads hc timed).then
  intro _ _
  apply cwp_perform_then closedSpec hc
  intro w _
  have hend : ∀ status d, (Inv d ∧ Q (some status) d) →
      (if (some status).isNone then do
        checkDeadline timed
        pure (some status)
      else pure (some status) : Prog World (Option Nat)).cwp closedSpec Q d :=
    fun status d hd => cwp_pure closedSpec hd.1 hd.2
  cases hw : act c w with
  | error status =>
    cases hfailure : w.failure <;> simp only [execute, hw, hfailure] <;>
      exact hend _ _ ⟨hc, hQ _⟩
  | ok d =>
    obtain ⟨hd, hQd⟩ := hact w d hw
    cases hfailure : w.failure with
    | none =>
      simp only [execute, hw, hfailure, Option.isNone_none, if_true]
      apply (checkDeadline_reads hd timed).then
      intro _ _
      exact cwp_pure closedSpec hd (hQd none)
    | some failure =>
      simp only [execute, hw, hfailure]
      cases failure.effective with
      | true => exact hend _ _ ⟨hd, hQd _⟩
      | false => exact hend _ _ ⟨hc, hQ _⟩

theorem run_cwp {c : Core} (hc : Inv c) (timed : Bool) (file : String)
    {act : Core → Around → Except Nat Core} {Q : Unit → Core → Prop}
    (hact : ∀ w d, act c w = .ok d → Inv d ∧ Q () d) :
    (run timed file act).cwp closedSpec Q c := by
  refine cwp_seq closedSpec (R := fun status d => status = none → Q () d)
    (attempt_cwp hc timed (fun w d hd => ⟨(hact w d hd).1, fun _ _ => (hact w d hd).2⟩) ?_) ?_
  · intro status h
    cases h
  · intro status d hd hQ
    apply cwp_require closedSpec hd (fun _ => ⟨commandFailed_ne file, hd⟩)
    intro hnone
    exact hQ (Option.isNone_iff_eq_none.mp hnone)

theorem save_cwp {c : Core} (hc : Inv c) {v : Record} (hvalid : validateTunnelDnsJournal v = true)
    (howned : Owned v c.items) {Q : Unit → Core → Prop}
    (hQ : Inv { c with journal := some v } → Q () { c with journal := some v }) :
    (save v).cwp closedSpec Q c := by
  have hinv : Inv { c with journal := some v } := by
    refine ⟨hc.lawful, ?_, ?_⟩
    · intro found hfound
      cases hfound
      exact hvalid
    · intro found hfound
      cases hfound
      exact howned
  apply cwp_holds_then closedSpec hc hvalid
  apply cwp_alter closedSpec hc
  intro w _
  exact ⟨hinv, hQ hinv⟩

theorem Inv.aside {c : Core} (hc : Inv c) (table : List Line) (reset : Option Reset) :
    Inv { c with conntrack := table, reset := reset } :=
  ⟨hc.lawful, hc.valid, hc.owned⟩

section Reset

theorem parseLine_error {line : Line} {message : String} (h : parseLine line = .error message) :
    message ≠ invalidJournal := by
  simp only [parseLine] at h
  split at h
  · cases h
    decide
  split at h
  · cases h
    decide
  split at h
  · cases h
    decide
  split at h
  · cases h
    decide
  split at h
  · cases h
    decide
  · cases h

theorem mapM_parseLine_error {lines : List Line} {message : String}
    (h : lines.mapM parseLine = .error message) : message ≠ invalidJournal := by
  induction lines with
  | nil => cases h
  | cons line rest ih =>
    rw [List.mapM_cons] at h
    cases hline : parseLine line with
    | error found =>
      rw [hline] at h
      cases h
      exact parseLine_error hline
    | ok e =>
      rw [hline] at h
      cases hrest : rest.mapM parseLine with
      | error found =>
        simp only [hrest, bind, Except.bind] at h
        cases h
        exact ih hrest
      | ok entries =>
        simp only [hrest, bind, Except.bind, pure, Except.pure] at h
        cases h

theorem parse_error {lines : List Line} {message : String}
    (h : parseTunnelDnsConntrack lines = .error message) : message ≠ invalidJournal := by
  simp only [parseTunnelDnsConntrack] at h
  split at h
  · cases h
    decide
  · exact mapM_parseLine_error h

variable {c : Core} (hc : Inv c) (timed : Bool)
include hc

theorem conntrackClock_reads : conntrackClock.Reads closedSpec c (fun _ => True) := by
  apply cwp_ask_then closedSpec hc
  intro w _
  exact cwp_require closedSpec hc (fun _ => ⟨by decide, hc⟩) (fun _ => ⟨rfl, trivial⟩)

theorem readEntries_reads (protocol : Protocol) :
    (readEntries timed protocol).Reads closedSpec c (fun _ => True) := by
  apply (conntrackClock_reads hc).then
  intro _ _
  apply (query_reads hc timed "conntrack" _).then
  intro lines _
  cases hparse : parseTunnelDnsConntrack lines with
  | error message => exact cwp_throw closedSpec hc ⟨parse_error hparse, hc⟩
  | ok entries => exact cwp_pure closedSpec hc ⟨rfl, trivial⟩

theorem readAll_reads : (readAll timed).Reads closedSpec c (fun _ => True) := by
  apply (readEntries_reads hc timed .udp).then
  intro udp _
  apply (readEntries_reads hc timed .tcp).then
  intro tcp _
  exact cwp_pure closedSpec hc ⟨rfl, trivial⟩

theorem learnRoute_reads (src : String) (routes : RouteMap) :
    (learnRoute timed src routes).Reads closedSpec c (fun _ => True) := by
  rw [learnRoute]
  cases routes.lookup src with
  | some device => exact cwp_pure closedSpec hc ⟨rfl, trivial⟩
  | none =>
    have hdevice : (returnDevice timed src).Reads closedSpec c (fun _ => True) := by
      apply (conntrackClock_reads hc).then
      intro _ _
      apply (query_reads hc timed "ip" _).then
      intro found _
      split
      · exact cwp_pure closedSpec hc ⟨rfl, trivial⟩
      · exact cwp_throw closedSpec hc ⟨by decide, hc⟩
    apply hdevice.then
    intro device _
    exact cwp_pure closedSpec hc ⟨rfl, trivial⟩

theorem learnRoutes_reads (config : Config) (phase : Phase) (locals : List String)
    (entries : List Entry) (routes : RouteMap) :
    (learnRoutes timed config phase locals entries routes).Reads closedSpec c (fun _ => True) := by
  induction entries generalizing routes with
  | nil => exact cwp_pure closedSpec hc ⟨rfl, trivial⟩
  | cons e rest ih =>
    rw [learnRoutes]
    cases choose config phase locals e with
    | skip => exact ih routes
    | take => exact ih routes
    | ifRouted interface =>
      apply (learnRoute_reads hc timed e.src routes).then
      intro more _
      exact ih more

omit hc in
theorem deleteAll_cwp (selected : List Entry) {c : Core} (hc : Inv c) :
    (deleteAll timed selected).cwp closedSpec
      (fun _ d => ∃ table, d = { c with conntrack := table }) c := by
  induction selected generalizing c with
  | nil => exact cwp_pure closedSpec hc ⟨c.conntrack, rfl⟩
  | cons e rest ih =>
    apply (conntrackClock_reads hc).then
    intro _ _
    refine cwp_seq closedSpec (R := fun _ d => ∃ table, d = { c with conntrack := table })
      (attempt_cwp hc timed ?_ (fun _ => ⟨c.conntrack, rfl⟩)) ?_
    · intro w d hd
      simp only [deleteEntry] at hd
      split at hd
      · cases hd
        exact ⟨hc.aside _ c.reset, fun _ => ⟨_, rfl⟩⟩
      · cases hd
    · rintro status d hd ⟨table, rfl⟩
      apply cwp_require_then closedSpec hd (fun _ => ⟨commandFailed_ne _, hd⟩)
      intro _
      exact ih hd

/-- A reset touches the connection table only; giving up a capture leaves
none of the captured entries of the scope. -/
theorem resetTunnelDnsConntrack_cwp (config : Config) (phase : Phase) :
    (resetTunnelDnsConntrack timed config phase).cwp closedSpec
      (fun _ d => ∃ table reset, d = { c with conntrack := table, reset := reset } ∧
        (phase = .disable → ∃ found, reset = some found ∧ found.Complete config)) c := by
  apply (readAll_reads hc timed).then
  intro entries _
  have hnote : ∀ table found, (phase = .disable → found.Complete config) →
      (noteReset phase found).cwp closedSpec
        (fun _ d => ∃ table reset, d = { c with conntrack := table, reset := reset } ∧
          (phase = .disable → ∃ found, reset = some found ∧ found.Complete config))
        { c with conntrack := table } := by
    intro table found hcomplete
    apply cwp_alter closedSpec (hc.aside table c.reset)
    intro w _
    by_cases hphase : phase = .disable
    · simp only [hphase, if_true]
      exact ⟨hc.aside table _, table, some found, rfl, fun _ => ⟨found, rfl, hcomplete hphase⟩⟩
    · simp only [if_neg hphase]
      exact ⟨hc.aside table _, table, c.reset, rfl, fun h => absurd h hphase⟩
  split
  · next hphase =>
    exact cwp_pure closedSpec hc ⟨c.conntrack, c.reset, rfl, fun h => by simp [hphase] at h⟩
  split
  · exact hnote c.conntrack _ (fun _ e he => by simp at he)
  apply (conntrackClock_reads hc).then
  intro _ _
  apply (query_reads hc timed "ip" _).then
  intro locals _
  apply (learnRoutes_reads hc timed config phase locals entries []).then
  intro routes _
  refine cwp_seq closedSpec (deleteAll_cwp timed _ hc) ?_
  rintro _ d hd ⟨table, rfl⟩
  apply (readAll_reads hd timed).then
  intro remaining _
  apply cwp_require_then closedSpec hd (fun _ => ⟨by decide, hd⟩)
  intro hgone
  apply hnote table
  intro hphase e he hselected hremaining
  subst hphase
  have hall := List.all_eq_true.mp hgone e (List.mem_filter.mpr ⟨he, hselected⟩)
  simp [hremaining] at hall

end Reset

end Meshpn.TunnelDns
