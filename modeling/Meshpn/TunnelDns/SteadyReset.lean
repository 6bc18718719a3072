import Meshpn.TunnelDns.SteadyRuns

/-!
Undisturbed runs of the connection reset. It fails on tables it cannot judge
(too many entries, other zones, sources without a single return route) and on
nothing else: what it deletes is gone from the second dump.
-/

namespace Meshpn.TunnelDns

open Meshpn.Lib

/-- The connection table can be judged: both dumps parse, and each source
whose return route matters has exactly one. -/
structure Readable (config : Config) (table : List Line) (w : Around) : Prop where
  udp : ∃ entries, parseTunnelDnsConntrack (dump .udp table) = .ok entries
  tcp : ∃ entries, parseTunnelDnsConntrack (dump .tcp table) = .ok entries
  routes : ∀ line ∈ table, ∀ interface,
    choose config .disable w.locals line.entry = .ifRouted interface →
      (w.routeGet line.entry.src).length = 1

section Parse

theorem parseLine_ok {line : Line} {e : Entry} (h : parseLine line = .ok e) : e = line.entry := by
  simp only [parseLine] at h
  split at h
  · cases h
  split at h
  · cases h
  split at h
  · cases h
  split at h
  · cases h
  split at h
  · cases h
  · cases h
    rfl

variable {entries : List Entry} {lines : List Line}

theorem mapM_parseLine_ok
    (h : lines.mapM parseLine = .ok entries) :
    entries = lines.map Line.entry ∧ ∀ line ∈ lines, parseLine line = .ok line.entry := by
  induction lines generalizing entries with
  | nil =>
    cases h
    simp
  | cons line rest ih =>
    rw [List.mapM_cons] at h
    cases hline : parseLine line with
    | error found =>
      rw [hline] at h
      cases h
    | ok e =>
      rw [hline] at h
      cases hrest : rest.mapM parseLine with
      | error found =>
        simp only [hrest, bind, Except.bind] at h
        cases h
      | ok others =>
        simp only [hrest, bind, Except.bind, pure, Except.pure, Except.ok.injEq] at h
        subst h
        obtain ⟨rfl, hall⟩ := ih hrest
        obtain rfl := parseLine_ok hline
        simpa using ⟨hline, hall⟩

theorem mapM_parseLine_all
    (h : ∀ line ∈ lines, parseLine line = .ok line.entry) :
    lines.mapM parseLine = .ok (lines.map Line.entry) := by
  induction lines with
  | nil => rfl
  | cons line rest ih =>
    rw [List.mapM_cons, h line List.mem_cons_self,
      ih (fun other hother => h other (List.mem_cons_of_mem _ hother))]
    rfl

theorem parse_ok
    (h : parseTunnelDnsConntrack lines = .ok entries) :
    entries = lines.map Line.entry ∧ lines.length ≤ entryLimit ∧
      ∀ line ∈ lines, parseLine line = .ok line.entry := by
  simp only [parseTunnelDnsConntrack] at h
  split at h
  · cases h
  next hlength =>
  obtain ⟨hentries, hall⟩ := mapM_parseLine_ok h
  exact ⟨hentries, Nat.not_lt.mp hlength, hall⟩

theorem parse_sublist {lines more : List Line}
    (h : parseTunnelDnsConntrack more = .ok entries) (hsub : lines.Sublist more) :
    parseTunnelDnsConntrack lines = .ok (lines.map Line.entry) := by
  obtain ⟨_, hlength, hall⟩ := parse_ok h
  rw [parseTunnelDnsConntrack, if_neg (Nat.not_lt.mpr (Nat.le_trans hsub.length_le hlength))]
  exact mapM_parseLine_all (fun line hline => hall line (hsub.subset hline))

end Parse

section Reset

variable {w : Around} (hw : w.Steady) (timed : Bool)
include hw

variable {c : Core} {config : Config} {entries : List Entry} {routes : RouteMap} {src : String}

theorem readEntries_run {protocol : Protocol}
    (h : parseTunnelDnsConntrack (dump protocol c.conntrack) = .ok entries) :
    (readEntries timed protocol).run ⟨c, w⟩ = (.ok entries, ⟨c, w⟩) := by
  rw [readEntries, Prog.run_then (conntrackClock_run hw c),
    Prog.run_then (query_run hw timed c _ _)]
  simp only [hw.traffic, id, h]
  rfl

theorem readEntries_fails {protocol : Protocol} {message : String}
    (h : parseTunnelDnsConntrack (dump protocol c.conntrack) = .error message) :
    (readEntries timed protocol).run ⟨c, w⟩ = (.error message, ⟨c, w⟩) := by
  rw [readEntries, Prog.run_then (conntrackClock_run hw c),
    Prog.run_then (query_run hw timed c _ _)]
  simp only [hw.traffic, id, h]
  rfl

theorem readAll_run {udp tcp : List Entry}
    (hudp : parseTunnelDnsConntrack (dump .udp c.conntrack) = .ok udp)
    (htcp : parseTunnelDnsConntrack (dump .tcp c.conntrack) = .ok tcp) :
    (readAll timed).run ⟨c, w⟩ = (.ok (udp ++ tcp), ⟨c, w⟩) := by
  rw [readAll, Prog.run_then (readEntries_run hw timed hudp),
    Prog.run_then (readEntries_run hw timed htcp)]
  rfl

theorem returnDevice_run (c : Core) {route : Route}
    (h : w.routeGet src = [route]) :
    ∃ device, (returnDevice timed src).run ⟨c, w⟩ = (.ok device, ⟨c, w⟩) := by
  refine ⟨if (route.type.getD "unicast") == "unicast" then route.dev else none, ?_⟩
  rw [returnDevice, Prog.run_then (conntrackClock_run hw c),
    Prog.run_then (query_run hw timed c _ _)]
  simp only [h]
  rfl

theorem returnDevice_fails (c : Core) (h : (w.routeGet src).length ≠ 1) :
    ∃ message, (returnDevice timed src).run ⟨c, w⟩ = (.error message, ⟨c, w⟩) := by
  refine ⟨"ambiguous DNS source return route", ?_⟩
  rw [returnDevice, Prog.run_then (conntrackClock_run hw c),
    Prog.run_then (query_run hw timed c _ _)]
  rcases hroutes : w.routeGet src with _ | ⟨route, rest⟩
  · rfl
  cases rest with
  | nil => simp [hroutes] at h
  | cons => rfl

def Learned (w : Around) (routes : RouteMap) : Prop :=
  ∀ src, (routes.lookup src).isSome = true → (w.routeGet src).length = 1

theorem learnRoute_run (c : Core) (hlearned : Learned w routes)
    (h : (w.routeGet src).length = 1) :
    ∃ more, (learnRoute timed src routes).run ⟨c, w⟩ = (.ok more, ⟨c, w⟩) ∧ Learned w more := by
  rw [learnRoute]
  cases hlookup : routes.lookup src with
  | some device => exact ⟨routes, rfl, hlearned⟩
  | none =>
    obtain ⟨route, hroute⟩ := List.length_eq_one_iff.mp h
    obtain ⟨device, hdevice⟩ := returnDevice_run hw timed c hroute
    refine ⟨(src, device) :: routes, ?_, ?_⟩
    · rw [Prog.run_then hdevice]
      rfl
    · intro other hother
      by_cases hsame : other = src
      · rw [hsame]
        exact h
      · rw [List.lookup_cons, beq_false_of_ne hsame] at hother
        exact hlearned other hother

theorem learnRoutes_run (c : Core) {phase : Phase} {locals : List String} (hlearned : Learned w routes)
    (h : ∀ e ∈ entries, ∀ interface, choose config phase locals e = .ifRouted interface →
      (w.routeGet e.src).length = 1) :
    ∃ more, (learnRoutes timed config phase locals entries routes).run ⟨c, w⟩ =
      (.ok more, ⟨c, w⟩) := by
  induction entries generalizing routes with
  | nil => exact ⟨routes, rfl⟩
  | cons e rest ih =>
    have hrest := fun other hother => h other (List.mem_cons_of_mem e hother)
    rw [learnRoutes]
    cases hchoice : choose config phase locals e with
    | skip => exact ih hlearned hrest
    | take => exact ih hlearned hrest
    | ifRouted interface =>
      obtain ⟨more, hmore, hmap⟩ := learnRoute_run hw timed c hlearned
        (h e List.mem_cons_self interface hchoice)
      obtain ⟨last, hlast⟩ := ih hmap hrest
      exact ⟨last, by rw [Prog.run_then hmore]; exact hlast⟩

theorem learnRoutes_fails (c : Core) {phase : Phase} {locals : List String} (hlearned : Learned w routes)
    (h : ∃ e ∈ entries, ∃ interface, choose config phase locals e = .ifRouted interface ∧
      (w.routeGet e.src).length ≠ 1) :
    ∃ message t, (learnRoutes timed config phase locals entries routes).run ⟨c, w⟩ =
      (.error message, t) := by
  induction entries generalizing routes with
  | nil => simp at h
  | cons e rest ih =>
    rw [learnRoutes]
    by_cases hfirst : ∃ interface, choose config phase locals e = .ifRouted interface ∧
        (w.routeGet e.src).length ≠ 1
    · obtain ⟨interface, hchoice, hroutes⟩ := hfirst
      obtain ⟨message, hdevice⟩ := returnDevice_fails hw timed c hroutes
      have hunknown : routes.lookup e.src = none := by
        by_contra hknown
        exact hroutes (hlearned e.src (Option.isSome_iff_ne_none.mpr hknown))
      have hlearn : (learnRoute timed e.src routes).run ⟨c, w⟩ = (.error message, ⟨c, w⟩) := by
        rw [learnRoute, hunknown]
        exact Prog.run_fails hdevice
      simp only [hchoice]
      exact ⟨message, _, Prog.run_fails hlearn⟩
    · obtain ⟨other, hother, interface, hchoice, hroutes⟩ := h
      have hrest : ∃ e ∈ rest, ∃ interface, choose config phase locals e = .ifRouted interface ∧
          (w.routeGet e.src).length ≠ 1 := by
        rcases List.mem_cons.mp hother with rfl | hmem
        · exact absurd ⟨interface, hchoice, hroutes⟩ hfirst
        · exact ⟨other, hmem, interface, hchoice, hroutes⟩
      cases hfound : choose config phase locals e with
      | skip => exact ih hlearned hrest
      | take => exact ih hlearned hrest
      | ifRouted found =>
        have hone : (w.routeGet e.src).length = 1 := by
          by_contra hmany
          exact hfirst ⟨found, hfound, hmany⟩
        obtain ⟨more, hmore, hmap⟩ := learnRoute_run hw timed c hlearned hone
        obtain ⟨message, t, hfails⟩ := ih hmap hrest
        exact ⟨message, t, by rw [Prog.run_then hmore]; exact hfails⟩

theorem deleteEntry_run (c : Core) (e : Entry) :
    ∃ status, (attempt timed (deleteEntry e)).run ⟨c, w⟩ =
      (.ok status, ⟨{ c with conntrack := c.conntrack.filter (·.entry ≠ e) }, w⟩) ∧
      (status.isNone || status == some 1) = true := by
  by_cases hpresent : c.conntrack.any (·.entry = e) = true
  · have hact : deleteEntry e c w =
        .ok { c with conntrack := c.conntrack.filter (·.entry ≠ e) } := by
      rw [deleteEntry, if_pos hpresent]
    exact ⟨none, attempt_run_ok hw timed c hact, rfl⟩
  · have hsame : c.conntrack.filter (fun line => line.entry ≠ e) = c.conntrack := by
      rw [List.filter_eq_self]
      simpa using hpresent
    refine ⟨some 1, ?_, rfl⟩
    rw [hsame, attempt, Prog.run_then (checkDeadline_run hw timed c),
      Prog.run_then (Prog.run_perform _ _)]
    simp only [execute, hw.failure, deleteEntry, if_neg hpresent]
    rfl

theorem deleteAll_run (c : Core) (selected : List Entry) :
    (deleteAll timed selected).run ⟨c, w⟩ =
      (.ok (), ⟨{ c with conntrack := c.conntrack.filter (·.entry ∉ selected) }, w⟩) := by
  induction selected generalizing c with
  | nil => simp [deleteAll]
  | cons e rest ih =>
    obtain ⟨status, hattempt, hstatus⟩ := deleteEntry_run hw timed c e
    rw [deleteAll, Prog.run_then (conntrackClock_run hw c), Prog.run_then hattempt, hstatus,
      Prog.run_then (Prog.run_require _ _), ih]
    simp only [List.filter_filter, List.mem_cons, not_or, Bool.decide_and, Bool.and_comm]

omit hw in
theorem mem_dumps {table : List Line} {line : Line} :
    line ∈ dump .udp table ++ dump .tcp table ↔ line ∈ table := by
  cases hprotocol : line.entry.protocol <;> simp [dump, hprotocol]

omit hw in
theorem dump_sublist (protocol : Protocol) (table : List Line) (keep : Line → Bool) :
    (dump protocol (table.filter keep)).Sublist (dump protocol table) :=
  List.filter_sublist.filter _

def entriesOf (table : List Line) : List Entry :=
  (dump .udp table ++ dump .tcp table).map Line.entry

omit hw in
theorem mem_entriesOf {table : List Line} {e : Entry} :
    e ∈ entriesOf table ↔ ∃ line ∈ table, line.entry = e := by
  rw [entriesOf, List.mem_map]
  simp only [mem_dumps]

theorem readAll_entriesOf
    (hudp : ∃ entries, parseTunnelDnsConntrack (dump .udp c.conntrack) = .ok entries)
    (htcp : ∃ entries, parseTunnelDnsConntrack (dump .tcp c.conntrack) = .ok entries) :
    (readAll timed).run ⟨c, w⟩ = (.ok (entriesOf c.conntrack), ⟨c, w⟩) := by
  obtain ⟨udp, hudp⟩ := hudp
  obtain ⟨tcp, htcp⟩ := htcp
  rw [readAll_run hw timed hudp htcp, (parse_ok hudp).1, (parse_ok htcp).1, entriesOf,
    List.map_append]

theorem reset_run (h : Readable config c.conntrack w) :
    ∃ table reset, (resetTunnelDnsConntrack timed config .disable).run ⟨c, w⟩ =
      (.ok (), ⟨{ c with conntrack := table, reset := reset }, w⟩) := by
  rw [resetTunnelDnsConntrack, Prog.run_then (readAll_entriesOf hw timed h.udp h.tcp)]
  simp only [reduceCtorEq, if_false]
  split
  · exact ⟨c.conntrack, some ⟨[], [], [], []⟩, rfl⟩
  obtain ⟨routes, hroutes⟩ : ∃ routes, (learnRoutes timed config .disable w.locals
      (entriesOf c.conntrack) []).run ⟨c, w⟩ = (.ok routes, ⟨c, w⟩) := by
    refine learnRoutes_run hw timed c (by simp [Learned]) ?_
    intro e he interface hchoice
    obtain ⟨line, hline, rfl⟩ := mem_entriesOf.mp he
    exact h.routes line hline interface hchoice
  rw [Prog.run_then (conntrackClock_run hw c), Prog.run_then (query_run hw timed c _ _),
    Prog.run_then hroutes, Prog.run_then (deleteAll_run hw timed c _)]
  -- The second dump is that of a smaller table, so it parses as well.
  obtain ⟨udp, hudp⟩ := h.udp
  obtain ⟨tcp, htcp⟩ := h.tcp
  rw [Prog.run_then (readAll_entriesOf hw timed
    ⟨_, parse_sublist hudp (dump_sublist .udp c.conntrack _)⟩
    ⟨_, parse_sublist htcp (dump_sublist .tcp c.conntrack _)⟩)]
  have hgone : ∀ selected : List Entry,
      (selected.all (!(entriesOf (c.conntrack.filter (·.entry ∉ selected))).contains ·)) =
        true := by
    intro selected
    rw [List.all_eq_true]
    intro e he
    simp only [Bool.not_eq_true', List.contains_eq_mem, decide_eq_false_iff_not, mem_entriesOf]
    rintro ⟨line, hline, rfl⟩
    simp [he] at hline
  rw [hgone, Prog.run_then (Prog.run_require _ _)]
  exact ⟨_, _, rfl⟩

theorem reset_fails (h : ¬ Readable config c.conntrack w) :
    ∃ message t, (resetTunnelDnsConntrack timed config .disable).run ⟨c, w⟩ =
      (.error message, t) := by
  rw [resetTunnelDnsConntrack]
  cases hudp : parseTunnelDnsConntrack (dump .udp c.conntrack) with
  | error message =>
    have hread : (readAll timed).run ⟨c, w⟩ = (.error message, ⟨c, w⟩) :=
      Prog.run_fails (readEntries_fails hw timed hudp)
    exact ⟨message, _, Prog.run_fails hread⟩
  | ok udp =>
    cases htcp : parseTunnelDnsConntrack (dump .tcp c.conntrack) with
    | error message =>
      have hread : (readAll timed).run ⟨c, w⟩ = (.error message, ⟨c, w⟩) := by
        rw [readAll, Prog.run_then (readEntries_run hw timed hudp)]
        exact Prog.run_fails (readEntries_fails hw timed htcp)
      exact ⟨message, _, Prog.run_fails hread⟩
    | ok tcp =>
      have hambiguous : ∃ e ∈ entriesOf c.conntrack, ∃ interface,
          choose config .disable w.locals e = .ifRouted interface ∧
            (w.routeGet e.src).length ≠ 1 := by
        by_contra hnone
        refine h ⟨⟨udp, hudp⟩, ⟨tcp, htcp⟩, ?_⟩
        intro line hline interface hchoice
        by_contra hmany
        exact hnone ⟨line.entry, mem_entriesOf.mpr ⟨line, hline, rfl⟩, interface, hchoice, hmany⟩
      obtain ⟨message, t, hfails⟩ := learnRoutes_fails hw timed c
        (show Learned w [] by simp [Learned]) hambiguous
      refine ⟨message, t, ?_⟩
      rw [Prog.run_then (readAll_entriesOf hw timed ⟨udp, hudp⟩ ⟨tcp, htcp⟩)]
      have hsome : entriesOf c.conntrack ≠ [] := by
        obtain ⟨e, he, _⟩ := hambiguous
        exact List.ne_nil_of_mem he
      simp only [reduceCtorEq, if_false, if_neg hsome]
      rw [Prog.run_then (conntrackClock_run hw c), Prog.run_then (query_run hw timed c _ _)]
      exact Prog.run_fails hfails

end Reset

end Meshpn.TunnelDns
