import Meshpn.Dns.ResolvedJournal

/-!
The resolver transaction restores exactly. At every moment of every sequence
of interrupted calls the settings are the ones the journal expects before or
after its pending step, every record it saves is valid, and the guard goes
only over the original settings.
-/

namespace Meshpn.Dns.Resolved

open Meshpn.Lib

section Prefixes

variable {start target : Settings} {n : Nat} {property : Property}

theorem assign_assign (state source : Settings) (property : Property) :
    state.assign (state.assign source property) property = state.assign source property := by
  cases property <;> rfl

theorem property_eq_some (h : resolvedProperties[n]? = some property) :
    (n = 0 ∧ property = .dnsEx) ∨ (n = 1 ∧ property = .domains) ∨
      (n = 2 ∧ property = .defaultRoute) := by
  match n with
  | 0 => simpa [resolvedProperties, eq_comm] using h
  | 1 => simpa [resolvedProperties, eq_comm] using h
  | 2 => simpa [resolvedProperties, eq_comm] using h
  | n + 3 => simp [resolvedProperties] at h

theorem property_lt (h : resolvedProperties[n]? = some property) : n < 3 := by
  rcases property_eq_some h with ⟨rfl, _⟩ | ⟨rfl, _⟩ | ⟨rfl, _⟩ <;> omega

theorem prefixed_succ (h : resolvedProperties[n]? = some property) :
    prefixed start target (n + 1) = (prefixed start target n).assign target property := by
  rcases property_eq_some h with ⟨rfl, rfl⟩ | ⟨rfl, rfl⟩ | ⟨rfl, rfl⟩ <;> rfl

@[simp] theorem prefixed_zero : prefixed start target 0 = start := rfl

@[simp] theorem prefixed_three : prefixed start target 3 = target := rfl

theorem validSettings_assign (hstart : validSettings start = true)
    (htarget : validSettings target = true) (property : Property) :
    validSettings (start.assign target property) = true := by
  simp only [validSettings, Bool.and_eq_true] at *
  cases property with
  | dnsEx => exact ⟨htarget.1, hstart.2⟩
  | domains => exact ⟨hstart.1, htarget.2⟩
  | defaultRoute => exact hstart

theorem validSettings_prefixed (hstart : validSettings start = true)
    (htarget : validSettings target = true) (n : Nat) :
    validSettings (prefixed start target n) = true := by
  unfold prefixed
  induction resolvedProperties.take n generalizing start with
  | nil => exact hstart
  | cons property rest ih => exact ih (validSettings_assign hstart htarget property)

end Prefixes

def Owned (record : Record) (settings : Settings) : Prop :=
  settings = resolvedExpected record false ∨
    record.pending = true ∧ settings = resolvedExpected record true

/-- The facts that `validateResolvedJournal` checks, by name. -/
structure Valid (record : Record) : Prop where
  identity : (Text.hex 32 record.id && validContext record.context) = true
  original : validSettings record.original = true
  managed : validSettings record.managed = true
  start : validSettings record.start = true
  shape : (record.original.dnsEx.length > 0 && managedShape record) = true
  cursor : record.cursor ≤ 3
  stage : record.stage = .running ∧ record.cursor < 3 ∨
    record.stage ≠ .running ∧ record.cursor = 3 ∧ record.pending = false
  released : record.stage = .released → record.direction = .restore
  origin : record.direction = .apply ∧ record.start = record.original ∨
    record.direction = .restore ∧
      ∃ n ≤ 3, record.start = prefixed record.original record.managed n

theorem reachableStart_iff (record : Record) :
    reachableStart record = true ↔
      ∃ n ≤ 3, record.start = prefixed record.original record.managed n := by
  simp only [reachableStart, List.any_eq_true, List.mem_cons, List.not_mem_nil, or_false,
    beq_iff_eq]
  constructor
  · rintro ⟨n, hn, h⟩
    exact ⟨n, by omega, h⟩
  · rintro ⟨n, hn, h⟩
    exact ⟨n, by omega, h⟩

theorem validJournal_iff (record : Record) : validJournal record = true ↔ Valid record := by
  have hstage : (if record.stage == .running then decide (record.cursor < 3)
      else record.cursor == 3 && !record.pending) = true ↔
      (record.stage = .running ∧ record.cursor < 3 ∨
        record.stage ≠ .running ∧ record.cursor = 3 ∧ record.pending = false) := by
    by_cases h : record.stage = .running <;> simp [h]
  have hreleased : (record.stage != .released || record.direction == .restore) = true ↔
      (record.stage = .released → record.direction = .restore) := by
    by_cases h : record.stage = .released <;> simp [h]
  have horigin : (if record.direction == .apply then record.start == record.original
      else reachableStart record) = true ↔
      (record.direction = .apply ∧ record.start = record.original ∨
        record.direction = .restore ∧
          ∃ n ≤ 3, record.start = prefixed record.original record.managed n) := by
    cases h : record.direction <;> simp [reachableStart_iff]
  constructor
  · intro h
    simp only [validJournal, Bool.and_eq_true, hstage, hreleased, horigin,
      decide_eq_true_eq] at h
    obtain ⟨⟨⟨⟨⟨hid, ⟨ho, hm⟩, hs⟩, ⟨hne, hshape⟩, hcursor⟩, h1⟩, h2⟩, h3⟩ := h
    exact ⟨by simp [hid.1, hid.2], ho, hm, hs, by simp [hne, hshape], hcursor, h1, h2, h3⟩
  · intro h
    have hid := h.identity
    have hshape := h.shape
    simp only [Bool.and_eq_true, decide_eq_true_eq] at hid hshape
    simp only [validJournal, Bool.and_eq_true, hstage, hreleased, horigin, decide_eq_true_eq]
    exact ⟨⟨⟨⟨⟨hid, ⟨h.original, h.managed⟩, h.start⟩, hshape, h.cursor⟩, h.stage⟩,
      h.released⟩, h.origin⟩

variable {record : Record} {S : Scenario} {c : Core}

theorem Valid.target (h : Valid record) :
    validSettings record.target = true := by
  unfold Record.target
  split
  · exact h.managed
  · exact h.original

theorem Valid.owned_settings (h : Valid record) {settings : Settings}
    (howned : Owned record settings) : validSettings settings = true := by
  rcases howned with rfl | ⟨_, rfl⟩
  · exact validSettings_prefixed h.start h.target _
  · exact validSettings_prefixed h.start h.target _

theorem expected_before (record : Record) :
    resolvedExpected record false = prefixed record.start record.target record.cursor := rfl

theorem expected_after (hpending : record.pending = true) :
    resolvedExpected record true =
      prefixed record.start record.target (record.cursor + 1) := by
  simp [resolvedExpected, hpending]

/-- What an event may be, given the settings the run began with. -/
def Event.Lawful (original : Settings) : Event → Prop
  | .saved record => validJournal record = true ∧ record.original = original
  | .guardRemoved durable settings => settings = original ∧
      ∃ record, durable = some record ∧ record.direction = .restore ∧ record.cursor = 3

/-- The assumptions of a run: what may surround it, the settings it began
with, the contexts a journal may name, the operation, and whether errors from
before the journal was durable are of interest. -/
structure Scenario where
  allowed : Around → Prop
  original : Settings
  known : Context → Prop
  operation : Operation
  early : Prop

structure Inv (original : Settings) (known : Context → Prop) (c : Core) : Prop where
  journal : ∀ record, c.journal = some record →
    Valid record ∧ record.original = original ∧ known record.context ∧
      Owned record c.settings
  untouched : c.journal = none → c.settings = original
  lawful : ∀ event ∈ c.log, event.Lawful original

abbrev Scenario.Holds (S : Scenario) (c : Core) : Prop := Inv S.original S.known c

def Agrees (context : Context) (w : Around) : Prop :=
  w.context = context ∧ context.link.ifindex = w.ifindex ∧ w.scope = context.scope

def Serves (record : Record) (w : Around) : Prop :=
  some w.port = record.port ∧ w.probe = true

/-- The errors that accuse the surroundings and never the settings or the journal. -/
def foreignErrors : List String :=
  ["resolved link", "resolved context changed during read", "resolved context changed",
    "stale namespace scope", "adapter endpoint changed", "probe"]

/-- The error is one of the foreign ones, and the surroundings deserve it. -/
def Blamed (S : Scenario) (error : String) (c : Core) : Prop :=
  error ∈ foreignErrors ∧ ∃ record, c.journal = some record ∧
    ((∃ w, S.allowed w ∧ ¬ Agrees record.context w) ∨
      S.operation ≠ .disable ∧ ∃ w, S.allowed w ∧ ¬ Serves record w)

def Scenario.spec (S : Scenario) : CoreSpec Core Around where
  allowed := S.allowed
  safe := S.Holds
  fails error c := S.Holds c ∧
    (S.early ∧ (error = "journal already exists" ∨ c.journal = none) ∨ Blamed S error c)

section Reads

variable {S : Scenario} {c : Core} (hc : S.Holds c)
include hc

theorem readContext_reads :
    readContext.Reads S.spec c (fun context => ∃ w, S.allowed w ∧ context = w.context) :=
  cwp_ask S.spec hc (fun w hw => ⟨rfl, w, hw, rfl⟩)

theorem view_reads
    (hmoved : ∀ error ∈ foreignErrors,
      (∀ context, ∃ w, S.allowed w ∧ ¬ Agrees context w) → S.spec.fails error c)
    (hinvalid : validSettings c.settings = false → S.spec.fails "resolved settings" c) :
    view.Reads S.spec c (fun found => found.2 = c.settings ∧ validSettings c.settings = true ∧
      ∃ w, S.allowed w ∧ found.1 = w.context) := by
  apply (readContext_reads hc).then
  rintro _ ⟨w, hw, rfl⟩
  apply cwp_ask_then S.spec hc
  intro v hv
  apply cwp_require_then S.spec hc
  · intro hlink
    apply hmoved _ (by decide)
    intro context
    by_cases hagree : w.context = context
    · refine ⟨v, hv, ?_⟩
      rintro ⟨_, hindex, _⟩
      simp [← hagree, ← hindex] at hlink
    · exact ⟨w, hw, fun h => hagree h.1⟩
  intro _
  apply cwp_ask_then S.spec hc
  intro _ _
  apply cwp_ask_then S.spec hc
  intro _ _
  apply cwp_ask_then S.spec hc
  intro _ _
  apply (readContext_reads hc).then
  rintro _ ⟨u, hu, rfl⟩
  apply cwp_require_then S.spec hc
  · intro hchanged
    apply hmoved _ (by decide)
    intro context
    by_cases hagree : w.context = context
    · refine ⟨u, hu, ?_⟩
      rintro ⟨hsame, _⟩
      simp [hagree, hsame] at hchanged
    · exact ⟨w, hw, fun h => hagree h.1⟩
  intro _
  apply cwp_require_then S.spec hc hinvalid
  intro hvalid
  exact cwp_pure S.spec hc ⟨rfl, rfl, hvalid, w, hw, rfl⟩

variable {record : Record} (hjournal : c.journal = some record)
include hjournal

omit hjournal in
theorem holds_blamed {error : String} (h : Blamed S error c) : S.spec.fails error c :=
  ⟨hc, Or.inr h⟩

theorem view_owned_reads :
    view.Reads S.spec c (fun found => found.2 = c.settings ∧ validSettings c.settings = true ∧
      ∃ w, S.allowed w ∧ found.1 = w.context) := by
  apply view_reads hc
  · intro error herror hmoved
    exact holds_blamed hc ⟨herror, record, hjournal, Or.inl (hmoved record.context)⟩
  · intro hinvalid
    obtain ⟨hvalid, _, _, howned⟩ := hc.journal record hjournal
    simp [hvalid.owned_settings howned] at hinvalid

theorem context_blamed {w : Around} (hw : S.allowed w)
    (hchanged : (w.context == record.context) = false) :
    S.spec.fails "resolved context changed" c := by
  refine holds_blamed hc ⟨by decide, record, hjournal, Or.inl ⟨w, hw, ?_⟩⟩
  rintro ⟨hsame, _⟩
  simp [hsame] at hchanged

theorem check_reads {settings : Settings} (hsame : c.settings = settings) :
    (check record.context settings).Reads S.spec c (fun _ => True) := by
  apply (view_owned_reads hc hjournal).then
  rintro ⟨context, found⟩ ⟨rfl, _, w, hw, rfl⟩
  apply cwp_require_then S.spec hc (context_blamed hc hjournal hw)
  intro _
  exact cwp_holds S.spec hc (by simp [hsame]) ⟨rfl, trivial⟩

theorem observe_reads :
    (observe record).Reads S.spec c (fun settings => settings = c.settings) := by
  obtain ⟨_, _, _, howned⟩ := hc.journal record hjournal
  apply (view_owned_reads hc hjournal).then
  rintro ⟨context, found⟩ ⟨rfl, hvalid, w, hw, rfl⟩
  apply cwp_require_then S.spec hc (context_blamed hc hjournal hw)
  intro _
  apply cwp_holds_then S.spec hc hvalid
  apply cwp_holds_then S.spec hc
  · rcases howned with h | ⟨hpending, h⟩
    · simp [h]
    · simp [h, hpending]
  exact cwp_pure S.spec hc ⟨rfl, rfl⟩

end Reads

theorem Inv.congr {c d : Core} (hc : S.Holds c) (hjournal : d.journal = c.journal)
    (hsettings : d.settings = c.settings) (hlog : d.log = c.log) : S.Holds d where
  journal record h := by
    rw [hsettings]
    exact hc.journal record (hjournal ▸ h)
  untouched h := by
    rw [hsettings]
    exact hc.untouched (hjournal ▸ h)
  lawful := by
    rw [hlog]
    exact hc.lawful

theorem save_cwp (hc : S.Holds c) {next : Record} (hvalid : Valid next)
    (horiginal : next.original = S.original) (hknown : S.known next.context)
    (howned : Owned next c.settings) :
    (save next).cwp S.spec (fun _ d => d.journal = some next ∧ d.settings = c.settings ∧
      d.guarded = c.guarded) c := by
  have hbool := (validJournal_iff next).mpr hvalid
  apply cwp_holds_then S.spec hc hbool
  apply cwp_alter S.spec hc
  intro _ _
  refine ⟨⟨?_, nofun, ?_⟩, rfl, rfl, rfl⟩
  · rintro record ⟨⟩
    exact ⟨hvalid, horiginal, hknown, howned⟩
  · intro event hevent
    rcases List.mem_cons.mp hevent with rfl | h
    · exact ⟨hbool, horiginal⟩
    · exact hc.lawful event h

section Steps

variable {S : Scenario} {c : Core} {record : Record} (hc : S.Holds c)
  (hjournal : c.journal = some record)
include hc hjournal

theorem intend_cwp (hcursor : record.cursor < 3) :
    (intend record).cwp S.spec
      (fun next d => d.journal = some next ∧ next = { record with pending := true }) c := by
  obtain ⟨hvalid, horiginal, hknown, howned⟩ := hc.journal record hjournal
  unfold intend
  split
  case isTrue hpending => exact cwp_pure S.spec hc ⟨hjournal, by rw [← hpending]⟩
  rename_i hpending
  have hrunning : record.stage = .running := by
    rcases hvalid.stage with h | h
    · exact h.1
    · omega
  have hnext : Valid { record with pending := true } :=
    { hvalid with stage := Or.inl ⟨hrunning, hcursor⟩ }
  have hkept : Owned { record with pending := true } c.settings := by
    rcases howned with h | ⟨h, _⟩
    · left
      rw [h]
      rfl
    · exact absurd h hpending
  refine cwp_seq S.spec (save_cwp hc hnext horiginal hknown hkept) ?_
  rintro _ d hd ⟨hdj, _⟩
  exact cwp_pure S.spec hd ⟨hdj, rfl⟩

theorem takeEffect_cwp {property : Property} (hpending : record.pending = true)
    (hproperty : resolvedProperties[record.cursor]? = some property) :
    (takeEffect record property c.settings).cwp S.spec
      (fun _ d => d.journal = some record ∧ d.settings = resolvedExpected record true) c := by
  obtain ⟨hvalid, horiginal, hknown, howned⟩ := hc.journal record hjournal
  have hafter : resolvedExpected record true =
      (resolvedExpected record false).assign record.target property := by
    rw [expected_after hpending, prefixed_succ hproperty, expected_before]
  have hset : (resolvedExpected record false).assign (resolvedExpected record true) property =
      resolvedExpected record true := by
    rw [hafter, assign_assign]
  unfold takeEffect
  split
  case isTrue happlied =>
    exact cwp_pure S.spec hc ⟨hjournal, beq_iff_eq.mp happlied⟩
  rename_i hnot
  have hbefore : c.settings = resolvedExpected record false := by
    rcases howned with h | ⟨_, h⟩
    · exact h
    · simp [h] at hnot
  apply cwp_holds_then S.spec hc
  · rw [hset]
    exact hvalid.owned_settings (Or.inr ⟨hpending, rfl⟩)
  apply (check_reads hc hjournal hbefore).then
  intro _ _
  apply cwp_alter S.spec hc
  intro _ _
  rw [hbefore, hset]
  refine ⟨⟨?_, ?_, hc.lawful⟩, hjournal, rfl⟩
  · intro found h
    obtain rfl : record = found := Option.some.inj (hjournal.symm.trans h)
    exact ⟨hvalid, horiginal, hknown, Or.inr ⟨hpending, rfl⟩⟩
  · intro h
    cases hjournal.symm.trans h

end Steps

theorem acknowledge_valid (hvalid : Valid record) (hcursor : record.cursor < 3) :
    Valid (acknowledge record) where
  identity := hvalid.identity
  original := hvalid.original
  managed := hvalid.managed
  start := hvalid.start
  shape := hvalid.shape
  cursor := hcursor
  stage := by
    by_cases h : record.cursor = 2
    · exact Or.inr (by simp [acknowledge, h])
    left
    simp only [acknowledge, beq_iff_eq, h, if_false, true_and]
    omega
  released h := by
    by_cases h2 : record.cursor = 2 <;> simp [acknowledge, h2] at h
  origin := hvalid.origin

section Loop

variable {S : Scenario} {c : Core} {record : Record} (hc : S.Holds c)
  (hjournal : c.journal = some record)
include hc hjournal

theorem stepProperty_cwp {property : Property}
    (hproperty : resolvedProperties[record.cursor]? = some property) :
    (stepProperty record property).cwp S.spec
      (fun next d => d.journal = some next ∧ next.cursor = record.cursor + 1 ∧
        next.direction = record.direction) c := by
  have hcursor := property_lt hproperty
  apply (observe_reads hc hjournal).then
  intro _ _
  refine cwp_seq S.spec (intend_cwp hc hjournal hcursor) ?_
  rintro intended d hd ⟨hdj, rfl⟩
  apply (observe_reads hd hdj).then
  rintro _ rfl
  refine cwp_seq S.spec (takeEffect_cwp hd hdj rfl hproperty) ?_
  rintro _ e he ⟨hej, happlied⟩
  obtain ⟨hvalid, horiginal, hknown, _⟩ := he.journal _ hej
  apply (observe_reads he hej).then
  rintro _ rfl
  apply cwp_holds_then S.spec he (by simp [happlied])
  have hnext := acknowledge_valid hvalid hcursor
  have howned : Owned (acknowledge { record with pending := true }) e.settings := by
    left
    rw [happlied]
    rfl
  refine cwp_seq S.spec (save_cwp he hnext horiginal hknown howned) ?_
  rintro _ f hf ⟨hfj, _⟩
  exact cwp_pure S.spec hf ⟨hfj, rfl, rfl⟩

end Loop

theorem stepAll_cwp (passes : Nat) (hc : S.Holds c)
    (hjournal : c.journal = some record) (hpasses : 3 ≤ passes + record.cursor) :
    (stepAll passes record).cwp S.spec
      (fun next d => d.journal = some next ∧ next.cursor = 3 ∧
        next.direction = record.direction) c := by
  have hvalid := (hc.journal record hjournal).1
  induction passes generalizing c record with
  | zero =>
    have := hvalid.cursor
    exact cwp_pure S.spec hc ⟨hjournal, by omega, rfl⟩
  | succ passes ih =>
    unfold stepAll
    split
    case h_1 hnone =>
      have := hvalid.cursor
      have : 3 ≤ record.cursor := by simpa [resolvedProperties] using hnone
      exact cwp_pure S.spec hc ⟨hjournal, by omega, rfl⟩
    case h_2 property hproperty =>
      refine cwp_seq S.spec (stepProperty_cwp hc hjournal hproperty) ?_
      rintro next d hd ⟨hdj, hcursor, hdirection⟩
      refine cwp_mono S.spec (ih hd hdj (by omega) (hd.journal next hdj).1) ?_
      rintro final e _ ⟨hej, hthree, hsame⟩
      exact ⟨hej, hthree, hsame.trans hdirection⟩

/-- What a transaction that returned normally leaves behind. -/
structure Returned (S : Scenario) (result : Result) (d : Core) : Prop where
  inv : S.Holds d
  active : result.status = .active →
    S.operation ≠ .disable ∧ ∃ record, d.journal = some record ∧ d.settings = record.managed
  released : result.status = .released → d.settings = S.original ∧ d.guarded = false ∧
    ∃ record, d.journal = some record ∧ record.stage = .released

theorem settled {settings : Settings} (hcursor : record.cursor = 3)
    (hvalid : Valid record) (howned : Owned record settings) : settings = record.target := by
  rcases howned with h | ⟨hpending, _⟩
  · rw [h, expected_before, hcursor, prefixed_three]
  rcases hvalid.stage with h | h
  · omega
  · simp [h.2.2] at hpending

theorem finish_cwp (hc : S.Holds c)
    (hjournal : c.journal = some record) (hcursor : record.cursor = 3)
    (hdisable : S.operation = .disable → record.direction = .restore) :
    (finish record).cwp S.spec (Returned S) c := by
  obtain ⟨hvalid, horiginal, hknown, howned⟩ := hc.journal record hjournal
  have hsettled := settled hcursor hvalid howned
  apply (observe_reads hc hjournal).then
  intro _ _
  split
  case isTrue happly =>
    simp only [beq_iff_eq] at happly
    apply cwp_pure S.spec hc
    refine ⟨hc, fun _ => ⟨?_, record, hjournal, ?_⟩, nofun⟩
    · intro h
      simp [hdisable h] at happly
    · simpa [Record.target, happly] using hsettled
  case isFalse hnot =>
    have hrestore : record.direction = .restore := by
      rcases hvalid.origin with h | h
      · simp [h.1] at hnot
      · exact h.1
    have hsame : c.settings = record.original := by
      simpa [Record.target, hrestore] using hsettled
    apply (observe_reads hc hjournal).then
    intro _ _
    refine cwp_seq S.spec (R := fun _ d => d.journal = some record ∧
      d.settings = c.settings ∧ d.guarded = false) ?_ ?_
    · apply (check_reads hc hjournal hsame).then
      intro _ _
      apply cwp_alter S.spec hc
      intro _ _
      refine ⟨⟨hc.journal, hc.untouched, ?_⟩, hjournal, rfl, rfl⟩
      intro event hevent
      rcases List.mem_cons.mp hevent with rfl | h
      · exact ⟨hsame.trans horiginal, record, hjournal, hrestore, hcursor⟩
      · exact hc.lawful event h
    · rintro _ d hd ⟨hdj, hds, hdg⟩
      have hpending : record.pending = false := by
        rcases hvalid.stage with h | h
        · omega
        · exact h.2.2
      have hnext : Valid { record with stage := .released } :=
        { hvalid with
          stage := Or.inr ⟨by simp, hcursor, hpending⟩
          released := fun _ => hrestore }
      refine cwp_seq S.spec (save_cwp hd hnext horiginal hknown (hds ▸ howned)) ?_
      rintro _ e he ⟨hej, hes, heg⟩
      apply cwp_pure S.spec he
      exact ⟨he, nofun, fun _ =>
        ⟨by rw [hes, hds, hsame, horiginal], heg.trans hdg, _, hej, rfl⟩⟩

/-- Turning round at any point of the apply phase leaves a legal start: the
pending step took effect or did not, and both are prefixes. -/
theorem turnRound_cwp (hc : S.Holds c)
    (hjournal : c.journal = some record) :
    (turnRound S.operation record c.settings).cwp S.spec
      (fun next d => d.journal = some next ∧
        (S.operation = .disable → next.direction = .restore)) c := by
  obtain ⟨hvalid, horiginal, hknown, howned⟩ := hc.journal record hjournal
  unfold turnRound
  split
  case isTrue hturn =>
    obtain ⟨_, happly⟩ : S.operation = .disable ∧ record.direction = .apply := by
      simpa using hturn
    obtain ⟨_, hstart⟩ : record.direction = .apply ∧ record.start = record.original := by
      simpa [happly] using hvalid.origin
    have htarget : record.target = record.managed := by simp [Record.target, happly]
    have hlegal : ∃ n ≤ 3, c.settings = prefixed record.original record.managed n := by
      rcases howned with h | ⟨hpending, h⟩
      · exact ⟨record.cursor, hvalid.cursor, by rw [h, expected_before, hstart, htarget]⟩
      refine ⟨record.cursor + 1, ?_, by rw [h, expected_after hpending, hstart, htarget]⟩
      rcases hvalid.stage with hrunning | hstopped
      · omega
      · simp [hstopped.2.2] at hpending
    have hnext : Valid { record with
        direction := .restore, start := c.settings, cursor := 0, pending := false,
        stage := .running } :=
      { hvalid with
        start := hvalid.owned_settings howned
        cursor := by simp
        stage := Or.inl ⟨rfl, by simp⟩
        released := fun _ => rfl
        origin := Or.inr ⟨rfl, hlegal⟩ }
    refine cwp_seq S.spec (save_cwp hc hnext horiginal hknown (Or.inl rfl)) ?_
    rintro _ d hd ⟨hdj, _⟩
    exact cwp_pure S.spec hd ⟨hdj, fun _ => rfl⟩
  case isFalse hstay =>
    apply cwp_pure S.spec hc
    refine ⟨hjournal, fun hdisable => ?_⟩
    rcases hvalid.origin with h | h
    · simp [hdisable, h.1] at hstay
    · exact h.1

theorem requireAdapter_reads (hc : S.Holds c)
    (hjournal : c.journal = some record)
    (hdisable : S.operation = .disable → record.direction = .restore) :
    (requireAdapter record).Reads S.spec c (fun _ => True) := by
  unfold requireAdapter
  split
  case isTrue happly =>
    have hoperation : S.operation ≠ .disable := by
      intro h
      simp [hdisable h] at happly
    apply cwp_ask_then S.spec hc
    intro w hw
    apply cwp_require_then S.spec hc
    · intro hport
      refine holds_blamed hc ⟨by decide, record, hjournal, Or.inr ⟨hoperation, w, hw, ?_⟩⟩
      rintro ⟨hsame, _⟩
      simp [hsame] at hport
    intro _
    apply cwp_ask_then S.spec hc
    intro v hv
    apply cwp_require_then S.spec hc
    · intro hprobe
      refine holds_blamed hc ⟨by decide, record, hjournal, Or.inr ⟨hoperation, v, hv, ?_⟩⟩
      rintro ⟨_, hanswer⟩
      simp [hanswer] at hprobe
    intro _
    apply (observe_reads hc hjournal).then
    intro _ _
    exact cwp_pure S.spec hc ⟨rfl, trivial⟩
  case isFalse => exact cwp_pure S.spec hc ⟨rfl, trivial⟩

theorem resume_cwp (hc : S.Holds c)
    (hjournal : c.journal = some record) :
    (resume S.operation record).cwp S.spec (Returned S) c := by
  apply cwp_ask_then S.spec hc
  intro w hw
  apply cwp_require_then S.spec hc
  · intro hscope
    refine holds_blamed hc ⟨by decide, record, hjournal, Or.inl ⟨w, hw, ?_⟩⟩
    rintro ⟨_, _, hsame⟩
    simp [hsame] at hscope
  intro _
  apply (observe_reads hc hjournal).then
  rintro _ rfl
  refine cwp_seq S.spec (turnRound_cwp hc hjournal) ?_
  rintro directed d hd ⟨hdj, hdisable⟩
  apply (requireAdapter_reads hd hdj hdisable).then
  intro _ _
  refine cwp_seq S.spec (stepAll_cwp 3 hd hdj (by omega)) ?_
  rintro final e he ⟨hej, hthree, hsame⟩
  exact finish_cwp he hej hthree (fun h => hsame.trans (hdisable h))

theorem prepare_cwp (hc : S.Holds c) (hearly : S.early)
    (hknown : ∀ context, S.known context) :
    prepare.cwp S.spec (fun record d => d.journal = some record) c := by
  apply cwp_ask_then S.spec hc
  intro _ _
  apply cwp_require_then S.spec hc (fun _ => ⟨hc, Or.inl ⟨hearly, Or.inl rfl⟩⟩)
  intro hjournal
  simp only [Option.isNone_iff_eq_none] at hjournal
  have hfail : ∀ error, S.spec.fails error c :=
    fun error => ⟨hc, Or.inl ⟨hearly, Or.inr hjournal⟩⟩
  apply (view_reads hc (fun error _ _ => hfail error) (fun _ => hfail _)).then
  rintro ⟨context, settings⟩ ⟨hsettings, hvalid, w, hw, _⟩
  dsimp only at hsettings
  subst hsettings
  apply cwp_require_then S.spec hc (fun _ => hfail _)
  intro hcontext
  apply cwp_require_then S.spec hc (fun _ => hfail _)
  intro _
  apply cwp_ask_then S.spec hc
  intro _ _
  apply cwp_require_then S.spec hc (fun _ => hfail _)
  intro _
  apply cwp_ask_then S.spec hc
  intro v hv
  apply cwp_ask_then S.spec hc
  intro u hu
  apply cwp_require_then S.spec hc (fun _ => hfail _)
  intro hport
  refine cwp_seq S.spec (R := fun _ d => d.journal = some ⟨v.freshId, context, c.settings,
    managedResolvedSettings u.port, c.settings, .apply, 0, false, .running⟩) ?_ ?_
  · -- the identifier and a non-empty original are checked by the save itself
    apply cwp_require_then S.spec hc (fun _ => hfail _)
    intro hbool
    apply cwp_alter S.spec hc
    intro _ _
    refine ⟨⟨?_, nofun, ?_⟩, rfl⟩
    · rintro record ⟨⟩
      exact ⟨(validJournal_iff _).mp hbool, hc.untouched hjournal, hknown _, Or.inl rfl⟩
    · intro event hevent
      rcases List.mem_cons.mp hevent with rfl | h
      · exact ⟨hbool, hc.untouched hjournal⟩
      · exact hc.lawful event h
  · intro _ d hd hdj
    exact cwp_pure S.spec hd hdj

theorem readJournal_reads (hc : S.Holds c)
    (hmissing : c.journal = none → S.early) :
    readJournal.Reads S.spec c (fun record => c.journal = some record) := by
  apply cwp_ask_then S.spec hc
  intro _ _
  rcases hjournal : c.journal with _ | record
  · exact cwp_throw S.spec hc ⟨hc, Or.inl ⟨hmissing hjournal, Or.inr hjournal⟩⟩
  have hvalid := (hc.journal record hjournal).1
  apply cwp_holds_then S.spec hc ((validJournal_iff record).mpr hvalid)
  exact cwp_pure S.spec hc ⟨rfl, rfl⟩

theorem ensureGuard_cwp (hc : S.Holds c) :
    ensureGuard.cwp S.spec (fun _ d => d.journal = c.journal) c :=
  cwp_alter S.spec hc (fun _ _ => ⟨hc.congr rfl rfl rfl, rfl⟩)

/-- The record is there at the end, provided that an early failure is of
interest or that there is a journal to continue from. -/
theorem openJournal_cwp (hc : S.Holds c)
    (hopen : (S.early ∧ ∀ context, S.known context) ∨
      S.operation ≠ .enable ∧ c.journal ≠ none) :
    (openJournal S.operation).cwp S.spec (fun record d => d.journal = some record) c := by
  unfold openJournal
  split
  case isTrue henable =>
    rcases hopen with ⟨hearly, hknown⟩ | ⟨hother, _⟩
    · exact prepare_cwp hc hearly hknown
    · exact absurd (beq_iff_eq.mp henable) hother
  case isFalse =>
    have hmissing : c.journal = none → S.early := by
      intro hnone
      rcases hopen with ⟨hearly, _⟩ | ⟨_, hsome⟩
      · exact hearly
      · exact absurd hnone hsome
    refine cwp_mono S.spec (readJournal_reads hc hmissing) ?_
    rintro record d _ ⟨rfl, hjournal⟩
    exact hjournal

theorem resolvedTransaction_cwp (hc : S.Holds c)
    (hopen : (S.early ∧ ∀ context, S.known context) ∨
      S.operation ≠ .enable ∧ c.journal ≠ none) :
    (resolvedTransaction S.operation).cwp S.spec (Returned S) c := by
  refine cwp_seq S.spec (ensureGuard_cwp hc) ?_
  intro _ d hd hsame
  refine cwp_seq S.spec (openJournal_cwp hd (by rwa [hsame])) ?_
  intro record e he hjournal
  exact resume_cwp he hjournal

section Claims

variable (allowed : Around → Prop) (original : Settings)

def openScenario (operation : Operation) : Scenario :=
  ⟨allowed, original, fun _ => True, operation, True⟩

def resolvedContract : (resolvedSystem allowed original).Contract :=
  coreContract (Inv original fun _ => True) (Inv original fun _ => True)
    (fun operation _ => Returned (openScenario allowed original operation))
    (fun operation _ => (openScenario allowed original operation).spec.fails)
    (fun c h => ⟨by simp [h.1], fun _ => h.2.1, by simp [h.2.2]⟩)
    (fun _ h => h) (fun _ _ _ _ h => h.inv) (fun _ _ _ _ h => h.1) (fun _ h => h)
    (fun operation _ hc => resolvedTransaction_cwp
      (S := openScenario allowed original operation) hc (Or.inl ⟨trivial, fun _ => trivial⟩))

instance : IsPreorder (Ambient Core Around) (resolvedSystem allowed original).env :=
  inferInstanceAs (IsPreorder (Ambient Core Around) (sameCore allowed))

end Claims

/-- For every original setting, every sequence of interrupted calls and every
managed port: the settings are always ours, every saved record is valid, the
guard goes only over the original, no error from a durable journal on accuses
the settings or the journal, and a completed `disable` has put back the
original. -/
theorem resolved_restores_exactly (original : Settings) :
    (∀ t, (resolvedSystem (fun _ => True) original).Visited t →
      (∀ record, t.core.journal = some record → validJournal record = true ∧
        record.original = original ∧ Owned record t.core.settings) ∧
      ∀ event ∈ t.core.log, event.Lawful original) ∧
    (∀ operation s error t, (resolvedSystem (fun _ => True) original).Reachable s →
      Exec (resolvedSystem (fun _ => True) original).env (resolvedTransaction operation) s
        (.failed error) t → t.core.journal ≠ none →
      error = "journal already exists" ∨ error ∈ foreignErrors) ∧
    (∀ s result t, (resolvedSystem (fun _ => True) original).Reachable s →
      Exec (resolvedSystem (fun _ => True) original).env (resolvedTransaction .disable) s
        (.done result) t →
      result.status = .released ∧ t.core.settings = original) := by
  refine ⟨?_, ?_, ?_⟩
  · intro t ht
    obtain ⟨_, hinv⟩ := (resolvedContract (fun _ => True) original).visited ht
    refine ⟨?_, hinv.lawful⟩
    intro record hjournal
    obtain ⟨hvalid, horiginal, _, howned⟩ := hinv.journal record hjournal
    exact ⟨(validJournal_iff record).mpr hvalid, horiginal, howned⟩
  · intro operation s error t hs hexec hjournal
    obtain ⟨_, _, hcause⟩ :=
      (resolvedContract (fun _ => True) original).failed (i := operation) hs hexec
    rcases hcause with ⟨_, h | h⟩ | h
    · exact Or.inl h
    · exact absurd h hjournal
    · exact Or.inr h.1
  · intro s result t hs hexec
    obtain ⟨_, hreturned⟩ :=
      (resolvedContract (fun _ => True) original).returned (i := .disable) hs hexec
    have hstatus : result.status = .released := by
      cases hcase : result.status with
      | active => exact absurd rfl (hreturned.active hcase).1
      | released => rfl
    exact ⟨hstatus, (hreturned.released hstatus).1⟩

/-- `disable` does complete, from every reachable state, as long as the
surroundings are the recorded ones; no adapter is needed for it. -/
theorem disable_completes {original : Settings} {s : Ambient Core Around}
    (hs : (resolvedSystem (fun _ => True) original).Reachable s)
    (hjournal : s.core.journal = some record) (hagrees : Agrees record.context s.around) :
    ∃ result t, (resolvedTransaction .disable).run s = (.ok result, t) ∧
      t.core.settings = original ∧ t.core.guarded = false := by
  obtain ⟨_, hinv⟩ := (resolvedContract (fun _ => True) original).reachable hs
  let S : Scenario := ⟨(· = s.around), original, (· = record.context), .disable, False⟩
  have hc : S.Holds s.core := by
    refine ⟨?_, hinv.untouched, hinv.lawful⟩
    intro found hfound
    obtain ⟨hvalid, horiginal, _, howned⟩ := hinv.journal found hfound
    have hsame : record = found := Option.some.inj (hjournal.symm.trans hfound)
    exact ⟨hvalid, horiginal, hsame ▸ rfl, howned⟩
  have hcwp := resolvedTransaction_cwp hc (Or.inr ⟨by simp [S], by simp [hjournal]⟩)
  have hfails : ∀ error d, ¬ S.spec.fails error d := by
    rintro error d ⟨hd, ⟨himpossible, _⟩ | ⟨_, found, hfound, hblame⟩⟩
    · exact himpossible
    · have hknown : found.context = record.context := (hd.journal found hfound).2.2.1
      rcases hblame with ⟨w, rfl, hw⟩ | ⟨hoperation, _⟩
      · rw [hknown] at hw
        exact hw hagrees
      · exact hoperation rfl
  obtain ⟨result, t, hrun, hreturned⟩ :=
    Prog.run_of_cwp S.spec (w := s.around) hcwp rfl hfails
  refine ⟨result, t, hrun, ?_⟩
  cases hstatus : result.status with
  | active => exact absurd rfl (hreturned.active hstatus).1
  | released =>
    obtain ⟨hsettings, hguard, _⟩ := hreturned.released hstatus
    exact ⟨hsettings, hguard⟩

end Meshpn.Dns.Resolved
