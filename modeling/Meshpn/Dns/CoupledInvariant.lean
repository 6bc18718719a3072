import Meshpn.Dns.CoupledJournal

/-!
The joint invariant of the coupled transaction. In the phases `link` and
`unlink` the link follows the stage of the child journal, in `settings` it is
the original at the recorded level or at the pending neighbour. Errors are
sorted into those that accuse the surroundings and those that would accuse
the link or a journal; the latter must not occur.
-/

namespace Meshpn.Dns.Coupled

open Meshpn.Lib

section Names

variable {id : String} (hid : Text.hex 32 id = true)
include hid

theorem hex_length : id.toList.length = 32 := by
  simp only [Text.hex, Bool.and_eq_true, beq_iff_eq] at hid
  exact hid.1

theorem hex_mem {c : Char} (hc : c ∈ id.toList) : Text.isHex c = true := by
  simp only [Text.hex, Bool.and_eq_true, List.all_eq_true] at hid
  exact hid.2 c hc

theorem ownedName_pattern : ownedNamePattern (ownedName id) = true := by
  have hlength := hex_length hid
  have hchars : (ownedName id).toList = "cvdns".toList ++ id.toList.take 8 :=
    String.toList_ofList
  have hdrop : (ownedName id).toList.drop 5 = id.toList.take 8 := by
    rw [hchars]
    exact List.drop_left' (by decide)
  have hprefix : "cvdns".toList.isPrefixOf (ownedName id).toList = true := by
    rw [hchars]
    simp
  unfold ownedNamePattern
  rw [hdrop, hprefix]
  simp only [Bool.true_and, Bool.and_eq_true, beq_iff_eq, List.length_take, List.all_eq_true]
  exact ⟨by omega, fun c hc => hex_mem hid (List.mem_of_mem_take hc)⟩

theorem ownedAlias_pattern : ownedAliasPattern (ownedAlias id) = true := by
  have hlength := hex_length hid
  have hprefix : "clean-vpn-dns:".toList.isPrefixOf ("clean-vpn-dns:".toList ++ id.toList) = true := by
    simp
  have hdrop : ("clean-vpn-dns:".toList ++ id.toList).drop 14 = id.toList :=
    List.drop_left' (by decide)
  simp only [ownedAliasPattern, ownedAlias, String.toList_append, hprefix, hdrop, Bool.true_and,
    Bool.and_eq_true, beq_iff_eq, List.all_eq_true]
  exact ⟨hlength, fun c hc => hex_mem hid hc⟩

omit hid in
theorem isHex_ne_colon {c : Char} (h : Text.isHex c = true) : c ≠ ':' := by
  rintro rfl
  revert h
  decide

theorem ownedMac_pattern : ownedMacPattern (ownedMac id) = true := by
  have hlength : ((id.toList.drop 8).take 10).length = 10 := by
    have := hex_length hid
    simp
    omega
  have hall : ∀ c ∈ (id.toList.drop 8).take 10, Text.isHex c = true := fun c hc =>
    hex_mem hid (List.mem_of_mem_drop (List.mem_of_mem_take hc))
  unfold ownedMac
  generalize (id.toList.drop 8).take 10 = digits at hlength hall
  match digits, hlength with
  | [a, b, c, d, e, f, g, h, i, j], _ =>
    simp only [List.mem_cons, List.not_mem_nil, or_false, forall_eq_or_imp, forall_eq] at hall
    obtain ⟨ha, hb, hc, hd, he, hf, hg, hh, hi, hj⟩ := hall
    have hzero : Text.isHex '0' = true := by decide
    have htwo : Text.isHex '2' = true := by decide
    simp [ownedMacPattern, pairs, List.intercalate, Text.macAddress, Text.splitOn, Text.cut,
      isHex_ne_colon, ha, hb, hc, hd, he, hf, hg, hh, hi, hj, hzero, htwo]

end Names

/-- The link passes `assertOwnedEmptyLink` for the child record. -/
def Clean (child : LinkRecord) (link : LinkState) (stamped : Bool) : Prop :=
  ownedLinkFault child.id child.name child.ifindex link.toLinkView stamped = none

variable {link : LinkState} {stamped : Bool} {child : LinkRecord}

theorem ownedLinkFault_eq_none {id name : String} {ifindex : Option Nat} {link : LinkView} :
    ownedLinkFault id name ifindex link stamped = none ↔
      validIfindex link.ifindex = true ∧ (ifindex = none ∨ ifindex = some link.ifindex) ∧
        link.spec = ownedLinkSpec id name stamped ∧ link.dns.dnsEx = [] ∧
        link.dns.domains = [] := by
  unfold ownedLinkFault
  cases ifindex <;> grind

theorem Clean.name
    (h : Clean child link stamped) : link.spec.name = child.name := by
  rw [(ownedLinkFault_eq_none.mp h).2.2.1]
  rfl

theorem Clean.ifalias
    (h : Clean child link stamped) :
    link.spec.ifalias = if stamped then ownedAlias child.id else "" := by
  rw [(ownedLinkFault_eq_none.mp h).2.2.1]
  rfl

theorem Clean.congr {child other : LinkRecord}
    (h : Clean child link stamped) (hid : other.id = child.id) (hname : other.name = child.name)
    (hindex : other.ifindex = child.ifindex ∨ other.ifindex = some link.ifindex) :
    Clean other link stamped := by
  obtain ⟨hvalid, hsame, hspec, hdns, hdomains⟩ := ownedLinkFault_eq_none.mp h
  refine ownedLinkFault_eq_none.mpr ⟨hvalid, ?_, by rw [hid, hname]; exact hspec, hdns, hdomains⟩
  rcases hindex with h | h
  · rwa [h]
  · exact Or.inr h

theorem Clean.stamp (h : Clean child link false) :
    Clean child (link.stamp (ownedAlias child.id)) true := by
  obtain ⟨hvalid, hsame, hspec, hdns, hdomains⟩ := ownedLinkFault_eq_none.mp h
  refine ownedLinkFault_eq_none.mpr ⟨hvalid, hsame, ?_, hdns, hdomains⟩
  simp [LinkState.stamp, hspec, ownedLinkSpec]

/-- The link as the stage of the child journal allows it. -/
def Follows (child : LinkRecord) (link : Option LinkState) : Prop :=
  match child.stage with
  | .prepared => link = none
  | .createIntent => link = none ∨ ∃ state, link = some state ∧ Clean child state false
  | .unstamped => ∃ state, link = some state ∧ Clean child state false
  | .stampIntent => ∃ state, link = some state ∧
      (Clean child state false ∨ Clean child state true)
  | .created => ∃ state, link = some state ∧ Clean child state true
  | .deleteIntent => link = none ∨ ∃ state, link = some state ∧ Clean child state true
  | .deleted | .released => link = none

/-- The order of the stages. -/
def LinkStage.rank : LinkStage → Nat
  | .prepared => 0
  | .createIntent => 1
  | .unstamped => 2
  | .stampIntent => 3
  | .created => 4
  | .deleteIntent => 5
  | .deleted => 6
  | .released => 7

/-- The link at the recorded level or at the pending neighbour. -/
def AtLevel (record : Record) (original : LinkState) (link : Option LinkState) : Prop :=
  link = some (coupledState original record.port record.level) ∨
    record.pending = true ∧ link = some (coupledState original record.port record.next)

/-- How the link and the child journal stand in each phase. -/
def InPhase (record : Record) (child : LinkRecord) (link : Option LinkState) : Prop :=
  match record.phase with
  | .link => Follows child link ∧ child.stage.rank ≤ 4
  | .settings => child.stage = .created ∧
      ∃ original, record.original = some original ∧ AtLevel record original link
  | .unlink => Follows child link ∧ ∀ original, record.original = some original →
      4 ≤ child.stage.rank ∧ (link = none ∨ link = some original)
  | .released => child.stage = .released ∧ link = none

structure Joint (record : Record) (child : LinkRecord) (link : Option LinkState) : Prop where
  id : child.id = record.id
  name : child.name = record.name
  context : child.context = record.context
  index : ∀ original, record.original = some original → child.ifindex = some original.ifindex
  valid : validLinkJournal child = true
  phase : InPhase record child link

/-- A link is deleted in its original state and the guard released after it. -/
def Event.Lawful : Event Record → Prop
  | .linkDeleted durable link => ∃ record, durable = some record ∧ record.phase = .unlink ∧
      ∀ original, record.original = some original → link = some original
  | .guardReleased durable link => link = none ∧
      ∃ record, durable = some record ∧ record.phase = .released

structure Inv (known : Context → Prop) (c : CoupledCore) : Prop where
  journal : ∀ record, c.journal = some record →
    validJournal record = true ∧ known record.context ∧
      (c.links record.name ≠ none → c.guarded = true) ∧
      ∃ child, c.child = some child ∧ Joint record child (c.links record.name)
  lawful : ∀ event ∈ c.log, event.Lawful

/-- The surroundings are the recorded ones and let the controller work. -/
def Steady (context : Context) (w : Around) : Prop :=
  validContext context = true ∧ w.context = context ∧ w.scope = context.scope ∧
    w.authority = true

def Serves (record : Record) (w : Around) : Prop := w.port = record.port ∧ w.probe = true

/-- The assumptions of a run, as for the resolver transaction. -/
structure Scenario where
  allowed : Around → Prop
  known : Context → Prop
  operation : Operation
  early : Prop

abbrev Scenario.Holds (S : Scenario) (c : CoupledCore) : Prop := Inv S.known c

/-- The errors that accuse the surroundings, never the link or a journal. -/
def foreignErrors : List String :=
  ["authority", "owned link context", "link backend context changed", "link context changed",
    "link context changed during read", "stale namespace scope", "stale namespace",
    "coupled context changed", "coupled backend context", "adapter endpoint",
    "adapter endpoint changed", "probe"]

def Blamed (S : Scenario) (error : String) (c : CoupledCore) : Prop :=
  error ∈ foreignErrors ∧ ∃ record, c.journal = some record ∧
    ((∃ w, S.allowed w ∧ ¬ Steady record.context w) ∨
      S.operation ≠ .disable ∧ ∃ w, S.allowed w ∧ ¬ Serves record w)

def Scenario.spec (S : Scenario) : CoreSpec CoupledCore Around where
  allowed := S.allowed
  safe := S.Holds
  fails error c := S.Holds c ∧
    (S.early ∧ (error = "journal already exists" ∨ c.journal = none) ∨ Blamed S error c)

/-- An error about surroundings that no context can be steady in is fine. -/
def Forgiving (S : Scenario) (c : CoupledCore) : Prop :=
  ∀ error ∈ foreignErrors, (∀ context, ∃ w, S.allowed w ∧ ¬ Steady context w) →
    S.spec.fails error c

section Reads

variable {S : Scenario} {c : CoupledCore} (hc : S.Holds c)
include hc

theorem forgiving_of_journal {record : Record} (hjournal : c.journal = some record) :
    Forgiving S c := fun _ herror hmoved =>
  ⟨hc, Or.inr ⟨herror, record, hjournal, Or.inl (hmoved record.context)⟩⟩

theorem requireAuthority_reads (hforgiving : Forgiving S c) :
    requireAuthority.Reads S.spec c (fun _ => True) := by
  apply cwp_ask_then S.spec hc
  intro w hw
  apply cwp_require S.spec hc
  · intro hrefused
    apply hforgiving _ (by decide)
    refine fun context => ⟨w, hw, ?_⟩
    rintro ⟨_, _, _, hauthority⟩
    simp [hauthority] at hrefused
  · exact fun _ => ⟨rfl, trivial⟩

theorem readContext_reads (hforgiving : Forgiving S c) :
    readContext.Reads S.spec c (fun context => ∃ w, S.allowed w ∧ context = w.context) := by
  apply (requireAuthority_reads hc hforgiving).then
  intro _ _
  apply cwp_ask_then S.spec hc
  intro w hw
  apply cwp_require_then S.spec hc
  · intro hinvalid
    apply hforgiving _ (by decide)
    refine fun context => ⟨w, hw, ?_⟩
    rintro ⟨hvalid, hsame, _⟩
    simp [hsame, hvalid] at hinvalid
  intro _
  exact cwp_pure S.spec hc ⟨rfl, w, hw, rfl⟩

theorem viewLink_reads (hforgiving : Forgiving S c) {name : String}
    (hname : ownedNamePattern name = true) :
    (viewLink name).Reads S.spec c (fun link => link = c.links name) := by
  apply (requireAuthority_reads hc hforgiving).then
  intro _ _
  apply cwp_holds_then S.spec hc hname
  exact cwp_ask S.spec hc (fun _ _ => ⟨rfl, rfl⟩)

theorem linkView_reads (hforgiving : Forgiving S c) {name : String}
    (hname : ownedNamePattern name = true) :
    (linkView name).Reads S.spec c
      (fun link => link = (c.links name).map LinkState.toLinkView) := by
  apply (viewLink_reads hc hforgiving hname).then
  rintro _ rfl
  exact cwp_pure S.spec hc ⟨rfl, rfl⟩

variable {record : Record} (hjournal : c.journal = some record)
include hjournal

theorem context_blamed {w : Around} (hw : S.allowed w) {error : String}
    (herror : error ∈ foreignErrors) (hchanged : (w.context == record.context) = false) :
    S.spec.fails error c := by
  refine ⟨hc, Or.inr ⟨herror, record, hjournal, Or.inl ⟨w, hw, ?_⟩⟩⟩
  rintro ⟨_, hsame, _⟩
  simp [hsame] at hchanged

theorem checkContext_reads :
    (checkContext record.context).Reads S.spec c (fun _ => True) := by
  have hforgiving := forgiving_of_journal hc hjournal
  apply (requireAuthority_reads hc hforgiving).then
  intro _ _
  apply (readContext_reads hc hforgiving).then
  rintro _ ⟨w, hw, rfl⟩
  apply cwp_require S.spec hc (context_blamed hc hjournal hw (by decide))
  exact fun _ => ⟨rfl, trivial⟩

theorem contextCheck_reads : (contextCheck record).Reads S.spec c (fun _ => True) := by
  apply (readContext_reads hc (forgiving_of_journal hc hjournal)).then
  rintro _ ⟨w, hw, rfl⟩
  apply cwp_require S.spec hc (context_blamed hc hjournal hw (by decide))
  exact fun _ => ⟨rfl, trivial⟩

theorem name_pattern : ownedNamePattern record.name = true := by
  have hvalid := (hc.journal record hjournal).1
  simp only [validJournal, Bool.and_eq_true, beq_iff_eq] at hvalid
  obtain ⟨⟨⟨⟨⟨⟨⟨⟨⟨hid, _⟩, hname⟩, _⟩, _⟩, _⟩, _⟩, _⟩, _⟩, _⟩ := hvalid
  rw [hname]
  exact ownedName_pattern hid

theorem view_reads : (view record).Reads S.spec c (fun link => link = c.links record.name) := by
  apply (contextCheck_reads hc hjournal).then
  intro _ _
  apply (viewLink_reads hc (forgiving_of_journal hc hjournal) (name_pattern hc hjournal)).then
  rintro _ rfl
  apply (contextCheck_reads hc hjournal).then
  intro _ _
  exact cwp_pure S.spec hc ⟨rfl, rfl⟩

theorem readLinkJournal_reads :
    readLinkJournal.Reads S.spec c (fun child => c.child = some child ∧
      Joint record child (c.links record.name)) := by
  obtain ⟨_, _, _, child, hchild, hjoint⟩ := hc.journal record hjournal
  apply cwp_ask_then S.spec hc
  intro _ _
  rw [hchild]
  apply cwp_holds_then S.spec hc hjoint.valid
  exact cwp_pure S.spec hc ⟨rfl, rfl, hjoint⟩

omit hc hjournal in
theorem Joint.matches {child : LinkRecord} {link : Option LinkState}
    (h : Joint record child link) : childMatches record child = true := by
  simp only [childMatches, h.id, h.name, h.context, BEq.rfl, Bool.true_and]
  cases horiginal : record.original with
  | none => rfl
  | some original => simp [h.index original horiginal]

theorem childCheck_reads :
    (childCheck record).Reads S.spec c (fun child => c.child = some child ∧
      Joint record child (c.links record.name)) := by
  apply (readLinkJournal_reads hc hjournal).then
  rintro child ⟨hchild, hjoint⟩
  apply cwp_holds_then S.spec hc hjoint.matches
  exact cwp_pure S.spec hc ⟨rfl, hchild, hjoint⟩

end Reads

end Meshpn.Dns.Coupled
