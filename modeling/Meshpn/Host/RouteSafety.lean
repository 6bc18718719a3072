import Meshpn.Host.RouteJournal
import Meshpn.Lib.Outline

/-!
What holds at every moment of the host routes: a row of this program in the kernel is listed
in the journal, in memory as well as durably, and whatever differs in `rp_filter` is noted in
both. The one way out is `repairUplink`, which adds what only the memory lists; its
precondition says that there is nothing of the kind on the uplink.
-/

namespace Meshpn.Host

open Meshpn.Lib

def lists (journal : Option State) (row : Row) : Bool :=
  journal.any fun s => s.routes.any fun r => r.row == row

def idle (journal : Option State) : Bool := journal.all fun s => s.stage == .released

/-- The value of `rp_filter` that the journal would restore. -/
def noted (journal : Option State) : Option Nat := journal.bind State.rp

structure Inv (original : Nat) (w : World) : Prop where
  durable : ∀ row ∈ w.kernel.rows, row.ours = true → lists w.durable row = true
  memory : ∀ row ∈ w.kernel.rows, row.ours = true → lists w.memory row = true
  added : ∀ row ∈ w.kernel.rows, row.ours = true → row ∈ w.added
  deleted : ∀ row ∈ w.deleted, row ∈ w.added
  relaxed : w.kernel.rpFilter ≠ original →
    noted w.durable = some original ∧ noted w.memory = some original
  notedDurable : ∀ value, noted w.durable = some value → value = original
  notedMemory : ∀ value, noted w.memory = some value → value = original
  valid : ∀ s, w.durable = some s → validHostRouteState s = true
  idle : idle w.memory = true → w.durable = w.memory

@[simp] theorem lists_none (row : Row) : lists none row = false := rfl

theorem lists_some {s : State} {row : Row} :
    lists (some s) row = true ↔ ∃ r ∈ s.routes, r.row = row := by
  simp [lists]

instance : IsPreorder World Drift where
  refl _ := ⟨rfl, rfl, fun _ h _ => h, rfl, rfl, rfl⟩
  trans _ _ _ hst htu :=
    { durable := htu.durable.trans hst.durable
      memory := htu.memory.trans hst.memory
      rows := fun row hrow hours => hst.rows row (htu.rows row hrow hours) hours
      rpFilter := htu.rpFilter.trans hst.rpFilter
      added := htu.added.trans hst.added
      deleted := htu.deleted.trans hst.deleted }

instance (rp : Nat) : IsPreorder World (hostRoutes rp).env :=
  inferInstanceAs (IsPreorder World Drift)

theorem inv_stable (original : Nat) : Stable Drift (Inv original) := by
  intro s t hst h
  constructor
  · intro row hrow hours
    rw [hst.durable]
    exact h.durable row (hst.rows row hrow hours) hours
  · intro row hrow hours
    rw [hst.memory]
    exact h.memory row (hst.rows row hrow hours) hours
  · intro row hrow hours
    rw [hst.added]
    exact h.added row (hst.rows row hrow hours) hours
  · rw [hst.deleted, hst.added]
    exact h.deleted
  · rw [hst.rpFilter, hst.durable, hst.memory]
    exact h.relaxed
  · rw [hst.durable]
    exact h.notedDurable
  · rw [hst.memory]
    exact h.notedMemory
  · rw [hst.durable]
    exact h.valid
  · rw [hst.memory, hst.durable]
    exact h.idle

theorem valid_released {s : State} (hvalid : validHostRouteState s = true)
    (hstage : s.stage = .released) : s.routes = [] ∧ s.rp = none := by
  simp only [validHostRouteState, hstage, Bool.and_eq_true] at hvalid
  simpa using hvalid.2

theorem Inv.resting {original : Nat} {w : World} (h : Inv original w)
    (hidle : Host.idle w.memory = true) :
    (∀ row ∈ w.kernel.rows, row.ours = false) ∧ w.kernel.rpFilter = original := by
  have hjournal : (∀ row, lists w.memory row = false) ∧ noted w.memory = none := by
    rcases hmemory : w.memory with _ | s
    · exact ⟨fun _ => rfl, rfl⟩
    have hdurable : w.durable = some s := (h.idle hidle).trans hmemory
    have hstage : s.stage = .released := by simpa [Host.idle, hmemory] using hidle
    obtain ⟨hroutes, hrp⟩ := valid_released (h.valid s hdurable) hstage
    exact ⟨fun row => by simp [lists, hroutes], hrp⟩
  constructor
  · intro row hrow
    by_contra hours
    have hlisted := h.memory row hrow (by simpa using hours)
    rw [hjournal.1 row] at hlisted
    cases hlisted
  · by_contra hrp
    have hnoted := (h.relaxed hrp).2
    rw [hjournal.2] at hnoted
    cases hnoted

def Journals (p : Option State → Option State → Prop) (w : World) : Prop :=
  p w.durable w.memory

theorem journals_stable (p : Option State → Option State → Prop) :
    Stable Drift (Journals p) := by
  intro s t hst h
  rw [Journals, hst.durable, hst.memory]
  exact h

/-- The memory holds the journal. -/
abbrev Knows (s : State) : World → Prop := Journals fun _ memory => memory = some s

/-- The journal is saved as the memory holds it. -/
abbrev Saved (s : State) : World → Prop :=
  Journals fun durable memory => durable = some s ∧ memory = some s

def Vacant (dst : Dst) (w : World) : Prop :=
  ∀ row ∈ w.kernel.rows, row.ours = true → row.dst ≠ dst

theorem vacant_stable (dst : Dst) : Stable Drift (Vacant dst) := by
  intro s t hst h row hrow hours
  exact h row (hst.rows row hrow hours) hours

def Covers (table : List Row) (w : World) : Prop :=
  ∀ row ∈ w.kernel.rows, row.ours = true → row ∈ table

theorem covers_stable (table : List Row) : Stable Drift (Covers table) := by
  intro s t hst h row hrow hours
  exact h row (hst.rows row hrow hours) hours

def Rp (value : Nat) (w : World) : Prop := w.kernel.rpFilter = value

theorem rp_stable (value : Nat) : Stable Drift (Rp value) := by
  intro s t hst h
  exact hst.rpFilter.trans h

section Commands

variable {original : Nat} {P : World → Prop}

theorem query_triple {α : Type} {view : World → α} {Q : α → World → Prop}
    (hP : Stable Drift P) (hQ : ∀ value, Stable Drift (Q value))
    (h : ∀ w, Inv original w → P w → Q (view w) w) :
    Triple Drift (Inv original) P (query view) Q := by
  refine .atomic (inv_stable original) hP (fun w hw hp => ?_)
  have hsame : Q (id (view w)) (id w) := h w hw hp
  cases hlate : w.outside.late with
  | true =>
    intro u hwu
    exact ⟨inv_stable original w u hwu hw, inv_stable original w u hwu hw⟩
  | false =>
    intro u hwu
    exact ⟨inv_stable original w u hwu hw, hQ _ w u hwu hsame⟩

theorem query_keeps {α : Type} (view : World → α) (hP : Stable Drift P) :
    Triple Drift (Inv original) P (query view) (fun _ => P) :=
  query_triple hP (fun _ => hP) (fun _ _ hp => hp)

theorem mutate_triple {act : World → Option World} {Q : World → Prop}
    (hP : Stable Drift P) (hQ : Stable Drift Q)
    (h : ∀ w u, Inv original w → P w → act w = some u → Inv original u ∧ Q u) :
    Triple Drift (Inv original) P (mutate act) (fun _ => Q) := by
  refine .atomic (inv_stable original) hP (fun w hw hp => ?_)
  have hfails : ∀ v, Inv original v → (Prog.throw "command failed" : Txn Unit).wp
      ⟨Drift, Inv original, fun _ => Inv original⟩ (fun _ => Q) v := by
    intro v hv u hvu
    exact ⟨inv_stable original v u hvu hv, inv_stable original v u hvu hv⟩
  cases hlate : w.outside.late with
  | true =>
    simp only [if_true]
    intro u hwu
    exact ⟨inv_stable original w u hwu hw, inv_stable original w u hwu hw⟩
  | false =>
    rcases hact : act w with _ | v
    · simpa using hfails w hw
    obtain ⟨hv, hq⟩ := h w v hw hp hact
    cases hlost : w.outside.lost with
    | true => simpa using hfails v hv
    | false =>
      simp only [Bool.false_eq_true, if_false, Option.getD_some, Option.isNone_some,
        Bool.or_self]
      intro u hvu
      exact ⟨inv_stable original v u hvu hv, hQ v u hvu hq⟩

theorem route_add_triple {p : Option State → Option State → Prop} {r : Route}
    (hlisted : ∀ durable memory, p durable memory →
      lists durable r.row = true ∧ lists memory r.row = true) :
    Triple Drift (Inv original) (Journals p) (routeAdd r) (fun _ => Journals p) := by
  refine mutate_triple (journals_stable p) (journals_stable p) (fun w u hw hp hact => ?_)
  split at hact
  · cases hact
  obtain rfl := Option.some.inj hact
  obtain ⟨hdurable, hmemory⟩ := hlisted _ _ hp
  refine ⟨?_, hp⟩
  constructor
  · intro row hrow hours
    rcases List.mem_append.mp hrow with hold | hnew
    · exact hw.durable row hold hours
    · rw [List.mem_singleton.mp hnew]
      exact hdurable
  · intro row hrow hours
    rcases List.mem_append.mp hrow with hold | hnew
    · exact hw.memory row hold hours
    · rw [List.mem_singleton.mp hnew]
      exact hmemory
  · intro row hrow hours
    rcases List.mem_append.mp hrow with hold | hnew
    · exact List.mem_append_left _ (hw.added row hold hours)
    · exact List.mem_append_right _ hnew
  · exact fun row hrow => List.mem_append_left _ (hw.deleted row hrow)
  · exact hw.relaxed
  · exact hw.notedDurable
  · exact hw.notedMemory
  · exact hw.valid
  · exact hw.idle

theorem route_del_triple (p : Option State → Option State → Prop) (r : Route) :
    Triple Drift (Inv original) (Journals p) (routeDel r) (fun _ => Journals p) := by
  refine mutate_triple (journals_stable p) (journals_stable p) (fun w u hw hp hact => ?_)
  split at hact
  · cases hact
  rename_i row hfound
  obtain rfl := Option.some.inj hact
  have hmem : row ∈ w.kernel.rows := List.mem_of_find?_eq_some hfound
  have hours : row.ours = true := by
    have hdeletes := List.find?_some hfound
    simp only [deletes, Bool.and_eq_true] at hdeletes
    exact hdeletes.2
  refine ⟨?_, hp⟩
  constructor
  · exact fun other hother => hw.durable other (List.mem_of_mem_erase hother)
  · exact fun other hother => hw.memory other (List.mem_of_mem_erase hother)
  · exact fun other hother => hw.added other (List.mem_of_mem_erase hother)
  · intro other hother
    rcases List.mem_append.mp hother with hold | hnew
    · exact hw.deleted other hold
    · rw [List.mem_singleton.mp hnew]
      exact hw.added row hmem hours
  · exact hw.relaxed
  · exact hw.notedDurable
  · exact hw.notedMemory
  · exact hw.valid
  · exact hw.idle

theorem set_rp_triple {p : Option State → Option State → Prop} {value : Nat}
    (hnoted : ∀ durable memory, p durable memory → value ≠ original →
      noted durable = some original ∧ noted memory = some original) :
    Triple Drift (Inv original) (Journals p) (setRp value) (fun _ => Journals p) := by
  refine mutate_triple (journals_stable p) (journals_stable p) (fun w u hw hp hact => ?_)
  split at hact
  · cases hact
  obtain rfl := Option.some.inj hact
  refine ⟨?_, hp⟩
  exact
    { durable := hw.durable
      memory := hw.memory
      added := hw.added
      deleted := hw.deleted
      relaxed := hnoted _ _ hp
      notedDurable := hw.notedDurable
      notedMemory := hw.notedMemory
      valid := hw.valid
      idle := hw.idle }

/-- What a journal has to say about the kernel before it is stored. -/
structure Accounts (original : Nat) (next : State) (w : World) : Prop where
  rows : ∀ row ∈ w.kernel.rows, row.ours = true → ∃ r ∈ next.routes, r.row = row
  noted : ∀ value, next.rp = some value → value = original
  relaxed : w.kernel.rpFilter ≠ original → next.rp = some original
  released : next.stage = .released → validHostRouteState next = true

theorem store_triple {next : State} {Q : World → Prop} (hP : Stable Drift P)
    (hQ : Stable Drift Q) (haccounts : ∀ w, Inv original w → P w → Accounts original next w)
    (hpost : ∀ w, Inv original w → P w →
      Q { w with memory := some next, durable := some next }) :
    Triple Drift (Inv original) P (store next) (fun _ => Q) := by
  rw [store]
  split
  · rename_i hvalid
    refine .atomic (inv_stable original) hP (fun w hw hp u hwu => ?_)
    have h := haccounts w hw hp
    have hnew : Inv original { w with memory := some next, durable := some next } :=
      { durable := fun row hrow hours => lists_some.mpr (h.rows row hrow hours)
        memory := fun row hrow hours => lists_some.mpr (h.rows row hrow hours)
        added := hw.added
        deleted := hw.deleted
        relaxed := fun hrp => ⟨h.relaxed hrp, h.relaxed hrp⟩
        notedDurable := h.noted
        notedMemory := h.noted
        valid := fun s hs => by
          obtain rfl := Option.some.inj hs
          exact hvalid
        idle := fun _ => rfl }
    exact ⟨inv_stable original _ u hwu hnew, hQ _ u hwu (hpost w hw hp)⟩
  · rename_i hvalid
    refine .bind (R := fun _ _ => True) ?_ (fun _ => .throw (inv_stable original))
    refine .atomic (inv_stable original) hP (fun w hw hp u hwu => ?_)
    have h := haccounts w hw hp
    have hnew : Inv original { w with memory := some next } :=
      { durable := hw.durable
        memory := fun row hrow hours => lists_some.mpr (h.rows row hrow hours)
        added := hw.added
        deleted := hw.deleted
        relaxed := fun hrp => ⟨(hw.relaxed hrp).1, h.relaxed hrp⟩
        notedDurable := hw.notedDurable
        notedMemory := h.noted
        valid := hw.valid
        idle := fun hidle => by
          have hstage : next.stage = .released := by simpa [idle] using hidle
          exact absurd (h.released hstage) hvalid }
    exact ⟨inv_stable original _ u hwu hnew, trivial⟩

theorem query_rp_triple (hP : Stable Drift P) :
    Triple Drift (Inv original) P queryRp (fun value w => Rp value w ∧ P w) := by
  refine .bind (R := fun value w => Rp value w ∧ P w)
    (query_triple hP (fun value => (rp_stable value).and hP) (fun w _ hp => ⟨rfl, hp⟩))
    (fun value => ?_)
  have hstable := (rp_stable value).and hP
  exact .require_then (inv_stable original) hstable
    (fun _ => .ret (inv_stable original) hstable (fun _ _ hp => hp))

theorem audit_triple (hP : Stable Drift P) (s : State) (requireTun : Bool) :
    Triple Drift (Inv original) P (audit s requireTun)
      (fun table w => s.routes.all (rowsFit table) = true ∧ Covers table w ∧ P w) := by
  have hinv := inv_stable original
  refine .bind (query_keeps _ hP) (fun now => ?_)
  refine .bind (R := fun table w => Covers table w ∧ P w) (query_triple hP
    (fun table => (covers_stable table).and hP) (fun w _ hp => ⟨fun _ h _ => h, hp⟩))
    (fun table => ?_)
  have hstable := (covers_stable table).and hP
  refine .require_then hinv hstable (fun _ => .require_then hinv hstable (fun _ =>
    .require_then hinv hstable (fun hfit => ?_)))
  rcases hrp : s.rp with _ | value
  · exact .ret hinv hstable (fun _ _ h => ⟨hfit, h⟩)
  refine .bind (query_rp_triple hstable) (fun found => ?_)
  have hfound := (rp_stable found).and hstable
  exact .require_then hinv hfound (fun _ => .ret hinv hfound (fun _ _ h => ⟨hfit, h.2⟩))

theorem audit_keeps (hP : Stable Drift P) (s : State) (requireTun : Bool) :
    Triple Drift (Inv original) P (audit s requireTun) (fun _ => P) :=
  (audit_triple hP s requireTun).conseq (fun _ _ hp => hp) (fun _ _ _ h => h.2.2)

theorem require_state_triple :
    Triple Drift (Inv original) (fun _ => True) requireState (fun s => Knows s) := by
  have hinv := inv_stable original
  refine .bind (R := fun found => Journals fun _ memory => memory = found)
    (.read hinv (.const True) (fun _ => journals_stable _) (fun _ _ _ => rfl)) (fun found => ?_)
  cases found with
  | none => exact .throw hinv
  | some s => exact .ret hinv (journals_stable _) (fun _ _ h => h)

end Commands

end Meshpn.Host
