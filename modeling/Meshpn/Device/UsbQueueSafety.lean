import Mathlib.Algebra.Order.Group.Multiset
import Mathlib.Data.UInt
import Meshpn.Device.UsbQueue

/-!
No slot is lost, frames are sent in the order of the queue, and every call and every frame
is in one counter. What a call has begun and not finished is added up over the calls in
flight.
-/

namespace Meshpn.Device.Usb

open Meshpn.Lib Meshpn.Lib.InFlight

def Call.owned : Call → Multiset Nat
  | .began _ | .classify _ _ | .take _ | .decide _ none => 0
  | .decide _ (some index) | .fill _ index | .count index _ | .publish index | .refused index
  | .release index | .give index => {index}

def Queue.jobOwned (s : Queue) : Multiset Nat := s.job.elim 0 fun job => {job.index}

/-- The slots that are free, pending, or in the hands of a call or of the worker. -/
def Queue.slots (s : Queue) : Multiset Nat :=
  (s.free : Multiset Nat) + (s.pending : Multiset Nat) + s.jobOwned + total Call.owned s.calls

def Queue.Partitioned (s : Queue) : Prop :=
  s.slots = if s.stats.enabled then ((List.range txSlots : List Nat) : Multiset Nat) else 0

variable {s : Queue} {call : Call} {i : Nat}

@[simp] theorem setStats_free (stats : Stats) : (s.setStats stats).free = s.free := rfl

@[simp] theorem setStats_pending (stats : Stats) : (s.setStats stats).pending = s.pending := rfl

@[simp] theorem setStats_job (stats : Stats) : (s.setStats stats).job = s.job := rfl

@[simp] theorem setStats_calls (stats : Stats) : (s.setStats stats).calls = s.calls := rfl

theorem Queue.Partitioned.room (h : s.Partitioned) {index : Nat} {others : Multiset Nat}
    (hslots : s.slots = (s.free : Multiset Nat) + {index} + others) :
    s.free.length < txSlots := by
  have hcard : s.slots.card ≤ txSlots := by
    rw [h]
    split
    case isTrue => simp
    case isFalse => simp
  rw [hslots] at hcard
  simp only [Multiset.card_add, Multiset.coe_card, Multiset.card_singleton] at hcard
  omega

theorem owned_le_total (h : s.calls[i]? = some call) :
    ∃ others, total Call.owned s.calls = call.owned + others :=
  exists_total_eq (List.mem_of_getElem? h)

theorem classify_keeps (s : Queue) (request : Request) (ready : Bool) :
    (s.classify request ready).1.free = s.free ∧ (s.classify request ready).1.pending = s.pending ∧
      (s.classify request ready).1.job = s.job ∧
      (s.classify request ready).1.stats.enabled = s.stats.enabled ∧
      held Call.owned (s.classify request ready).2.call? = 0 := by
  unfold Queue.classify
  dsimp only
  split
  case isTrue => exact ⟨rfl, rfl, rfl, rfl, rfl⟩
  split
  case h_1 => exact ⟨rfl, rfl, rfl, rfl, rfl⟩
  split
  case isTrue => exact ⟨rfl, rfl, rfl, rfl, rfl⟩
  split
  case isTrue => exact ⟨rfl, rfl, rfl, rfl, rfl⟩
  case isFalse => exact ⟨rfl, rfl, rfl, rfl, rfl⟩

theorem giveBack_free (h : s.free.length < txSlots) (index : Nat) :
    s.giveBack index = { s with free := s.free ++ [index] } := if_pos h

theorem produce_moves (hpart : s.Partitioned) (hcall : s.calls[i]? = some call)
    (refuses : Bool) :
    ((s.produce refuses call).1.free : Multiset Nat) + (s.produce refuses call).1.pending +
        held Call.owned (s.produce refuses call).2.call? =
      (s.free : Multiset Nat) + s.pending + call.owned ∧
    (s.produce refuses call).1.job = s.job ∧
    (s.produce refuses call).1.stats.enabled = s.stats.enabled := by
  cases call with
  | began request => exact ⟨rfl, rfl, rfl⟩
  | classify request ready =>
    obtain ⟨hfree, hpending, hjob, henabled, howned⟩ := classify_keeps s request ready
    refine ⟨?_, hjob, henabled⟩
    change ((s.classify request ready).1.free : Multiset Nat) + (s.classify request ready).1.pending +
      held Call.owned (s.classify request ready).2.call? = _
    rw [hfree, hpending, howned]
    rfl
  | take order =>
    unfold Queue.produce
    rcases hfree : s.free with _ | ⟨index, rest⟩
    · exact ⟨by rw [hfree]; rfl, rfl, rfl⟩
    refine ⟨?_, rfl, rfl⟩
    change (rest : Multiset Nat) + (s.pending : Multiset Nat) + {index} =
      ((index :: rest : List Nat) : Multiset Nat) + s.pending + 0
    rw [← Multiset.cons_coe, ← Multiset.singleton_add]
    abel
  | decide order index =>
    cases index with
    | none => exact ⟨rfl, rfl, rfl⟩
    | some index => exact ⟨rfl, rfl, rfl⟩
  | fill order index => exact ⟨rfl, rfl, rfl⟩
  | count index len => exact ⟨rfl, rfl, rfl⟩
  | publish index =>
    unfold Queue.produce
    dsimp only
    split
    case isTrue => exact ⟨rfl, rfl, rfl⟩
    refine ⟨?_, rfl, rfl⟩
    change (s.free : Multiset Nat) + ((s.pending ++ [index] : List Nat) : Multiset Nat) + 0 =
      (s.free : Multiset Nat) + s.pending + {index}
    rw [← Multiset.coe_add, add_zero, ← add_assoc]
    rfl
  | refused index => exact ⟨rfl, rfl, rfl⟩
  | release index => exact ⟨rfl, rfl, rfl⟩
  | give index =>
    obtain ⟨others, htotal⟩ := owned_le_total hcall
    have hslots : s.slots = (s.free : Multiset Nat) + {index} +
        (s.pending + s.jobOwned + others) := by
      unfold Queue.slots
      rw [htotal, Call.owned]
      abel
    have hgive : s.produce refuses (.give index) =
        ({ s with free := s.free ++ [index] }, .returns .fail) := by
      change (s.giveBack index, Progress.returns .fail) = _
      rw [giveBack_free (hpart.room hslots)]
    rw [hgive]
    refine ⟨?_, rfl, rfl⟩
    change ((s.free ++ [index] : List Nat) : Multiset Nat) + (s.pending : Multiset Nat) + 0 =
      (s.free : Multiset Nat) + s.pending + {index}
    rw [← Multiset.coe_add, Multiset.coe_singleton]
    abel

theorem Queue.Partitioned.produce (h : s.Partitioned) (hcall : s.calls[i]? = some call)
    (refuses : Bool) :
    Queue.Partitioned { (s.produce refuses call).1 with
      calls := resume s.calls i (s.produce refuses call).2.call? } := by
  obtain ⟨hmoves, hjob, henabled⟩ := produce_moves h hcall refuses
  have hmoved : ((s.produce refuses call).1.free : Multiset Nat) +
      (s.produce refuses call).1.pending + s.jobOwned +
        held Call.owned (s.produce refuses call).2.call? =
      (s.free : Multiset Nat) + s.pending + s.jobOwned + call.owned + 0 := by
    rw [add_right_comm, hmoves]
    abel
  have hexchange := total_exchange hcall hmoved
  unfold Queue.Partitioned Queue.slots Queue.jobOwned at *
  dsimp only
  rw [hjob, henabled, ← h]
  rw [hexchange, add_zero]

/-- What the worker leaves alone while it has a frame. -/
structure Frame (job : Job) (s t : Queue) : Prop where
  free : t.free = s.free
  pending : t.pending = s.pending
  calls : t.calls = s.calls
  pool : t.pool = s.pool
  epoch : t.epoch = s.epoch
  changes : t.changes = s.changes
  published : t.published = s.published
  takenCount : t.takenCount = s.takenCount
  enabled : t.stats.enabled = s.stats.enabled
  job : ∃ next, t.job = some next ∧ next.index = job.index ∧ next.number = job.number

variable {eventWait timeout : Bool} {outcome : SendResult} {job : Job}

theorem frame_setJob {t : Queue} {next : Job} (hfree : t.free = s.free)
    (hpending : t.pending = s.pending) (hcalls : t.calls = s.calls) (hpool : t.pool = s.pool)
    (hepoch : t.epoch = s.epoch ∧ t.changes = s.changes)
    (hpublished : t.published = s.published ∧ t.takenCount = s.takenCount)
    (henabled : t.stats.enabled = s.stats.enabled) (hindex : next.index = job.index)
    (hnumber : next.number = job.number) : Frame job s (t.setJob next) :=
  ⟨hfree, hpending, hcalls, hpool, hepoch.1, hepoch.2, hpublished.1, hpublished.2, henabled,
    next, rfl, hindex, hnumber⟩

theorem complete_enabled (stats : Stats) (age residence : Nat) (fate : Fate) :
    (stats.complete age residence fate).enabled = stats.enabled := by
  cases fate with
  | stale => rfl
  | expired => rfl
  | sent => rfl
  | failed => rfl

theorem proceed_frame (hjob : s.job = some job) (hstage : job.stage ≠ .give) :
    Frame job s (s.proceed eventWait outcome timeout job) := by
  have hsame : ∀ next : Job, next.index = job.index → next.number = job.number →
      Frame job s (s.setJob next) := fun next hindex hnumber =>
    frame_setJob rfl rfl rfl rfl ⟨rfl, rfl⟩ ⟨rfl, rfl⟩ rfl hindex hnumber
  unfold Queue.proceed
  cases hs : job.stage with
  | give => exact absurd hs hstage
  | activate fate => exact frame_setJob rfl rfl rfl rfl ⟨rfl, rfl⟩ ⟨rfl, rfl⟩ rfl rfl rfl
  | prepare attempt => exact frame_setJob rfl rfl rfl rfl ⟨rfl, rfl⟩ ⟨rfl, rfl⟩ rfl rfl rfl
  | call attempt checked => exact frame_setJob rfl rfl rfl rfl ⟨rfl, rfl⟩ ⟨rfl, rfl⟩ rfl rfl rfl
  | driver attempt =>
    cases outcome with
    | ok => exact frame_setJob rfl rfl rfl rfl ⟨rfl, rfl⟩ ⟨rfl, rfl⟩ rfl rfl rfl
    | busy => exact hsame _ rfl rfl
    | other => exact hsame _ rfl rfl
  | waiting attempt =>
    dsimp only
    split
    case isTrue =>
      split
      case isTrue => exact hsame _ rfl rfl
      case isFalse => exact ⟨rfl, rfl, rfl, rfl, rfl, rfl, rfl, rfl, rfl, job, hjob, rfl, rfl⟩
    case isFalse => exact frame_setJob rfl rfl rfl rfl ⟨rfl, rfl⟩ ⟨rfl, rfl⟩ rfl rfl rfl
  | waitDone attempt notified disconnected =>
    exact frame_setJob rfl rfl rfl rfl ⟨rfl, rfl⟩ ⟨rfl, rfl⟩ rfl rfl rfl
  | finish fate =>
    exact frame_setJob rfl rfl rfl rfl ⟨rfl, rfl⟩ ⟨rfl, rfl⟩ (complete_enabled _ _ _ _) rfl rfl
  | release => exact frame_setJob rfl rfl rfl rfl ⟨rfl, rfl⟩ ⟨rfl, rfl⟩ rfl rfl rfl
  | taken => exact hsame _ rfl rfl
  | probe => exact hsame _ rfl rfl
  | sendReady => exact hsame _ rfl rfl
  | check attempt => exact hsame _ rfl rfl
  | waitEpoch attempt => exact hsame _ rfl rfl
  | waitReady attempt => exact hsame _ rfl rfl
  | wakeEpoch attempt notified => exact hsame _ rfl rfl
  | wakeReady attempt notified => exact hsame _ rfl rfl

theorem proceed_give (hpart : s.Partitioned) (hjob : s.job = some job)
    (hstage : job.stage = .give) : s.proceed eventWait outcome timeout job =
      { s with free := s.free ++ [job.index], job := none } := by
  have hslots : s.slots = (s.free : Multiset Nat) + {job.index} +
      (s.pending + total Call.owned s.calls) := by
    unfold Queue.slots Queue.jobOwned
    rw [hjob, Option.elim_some]
    abel
  unfold Queue.proceed
  rw [hstage]
  change { s.giveBack job.index with job := none } = _
  rw [giveBack_free (hpart.room hslots)]

theorem Queue.Partitioned.proceed (h : s.Partitioned) (hjob : s.job = some job) :
    (s.proceed eventWait outcome timeout job).Partitioned := by
  by_cases hstage : job.stage = .give
  case pos =>
    rw [proceed_give h hjob hstage]
    unfold Queue.Partitioned Queue.slots Queue.jobOwned at h ⊢
    rw [hjob, Option.elim_some] at h
    dsimp only
    rw [← h, ← Multiset.coe_add, Multiset.coe_singleton, Option.elim_none]
    abel
  case neg =>
    have hframe := @proceed_frame s eventWait timeout outcome job hjob hstage
    obtain ⟨next, hnext, hindex, -⟩ := hframe.job
    unfold Queue.Partitioned Queue.slots Queue.jobOwned at h ⊢
    rw [hframe.free, hframe.pending, hframe.calls, hframe.enabled, hnext, Option.elim_some,
      hindex]
    rw [hjob, Option.elim_some] at h
    exact h

theorem Queue.Partitioned.work (h : s.Partitioned) :
    (s.work eventWait outcome timeout).Partitioned := by
  unfold Queue.work
  cases hjob : s.job with
  | some job => exact h.proceed hjob
  | none =>
    rcases hpending : s.pending with _ | ⟨index, rest⟩
    · exact h
    unfold Queue.Partitioned Queue.slots Queue.jobOwned at h ⊢
    rw [hjob, hpending, Option.elim_none] at h
    dsimp only
    rw [← h, Option.elim_some, ← Multiset.cons_coe, ← Multiset.singleton_add]
    abel

theorem Queue.Partitioned.start (h : s.Partitioned) (allocated : Bool) :
    (s.start eventWait allocated).Partitioned := by
  unfold Queue.start
  split
  case isTrue => exact h
  rename_i hdisabled
  split
  case isFalse => exact h
  unfold Queue.Partitioned Queue.slots at h ⊢
  rw [if_neg hdisabled, add_assoc, add_assoc] at h
  have hnone : (s.pending : Multiset Nat) + (s.jobOwned + total Call.owned s.calls) = 0 :=
    Multiset.le_zero.mp (h ▸ Multiset.le_add_left _ _)
  change ((List.range txSlots : List Nat) : Multiset Nat) + s.pending + s.jobOwned +
    total Call.owned s.calls = ((List.range txSlots : List Nat) : Multiset Nat)
  rw [add_assoc, add_assoc, hnone, add_zero]

theorem Queue.Partitioned.step (h : s.Partitioned) (event : Event) :
    (s.step eventWait event).Partitioned := by
  cases event with
  | init allocated => exact h.start allocated
  | submit buffer =>
    unfold Queue.Partitioned Queue.slots at h ⊢
    change (s.free : Multiset Nat) + s.pending + s.jobOwned +
      total Call.owned (s.calls ++ [_]) = _
    rw [total_begin, Call.owned, add_zero]
    exact h
  | produce i refuses =>
    unfold Queue.step
    dsimp only
    cases hcall : s.calls[i]? with
    | none => exact h
    | some call => exact h.produce hcall refuses
  | work outcome timeout => exact h.work
  | mount => exact h
  | setReady ready => exact h
  | capacityAvailable =>
    change (Queue.notify eventWait s).Partitioned
    unfold Queue.notify
    split
    case isTrue => exact h
    case isFalse => exact h
  | tick us => exact h

def Call.unclassified : Call → UInt32
  | .take _ | .decide _ _ | .fill _ _ | .count _ _ => 1
  | .began _ | .classify _ _ | .publish _ | .refused _ | .release _ | .give _ => 0

def Call.counted : Call → UInt32
  | .publish _ | .refused _ => 1
  | .began _ | .classify _ _ | .take _ | .decide _ _ | .fill _ _ | .count _ _ | .release _
  | .give _ => 0

def Stage.unfinished : Stage → UInt32
  | .release | .give => 0
  | _ => 1

def Queue.working (s : Queue) : UInt32 := s.job.elim 0 fun job => job.stage.unfinished

def Queue.outstanding (s : Queue) : UInt32 :=
  UInt32.ofNat s.pending.length + s.working + total Call.counted s.calls

def Stats.classified (stats : Stats) : UInt32 :=
  stats.enqueued + stats.full + stats.noHost + stats.invalidLength + stats.notReady +
    stats.enqueueFailed

def Stats.settled (stats : Stats) : UInt32 :=
  stats.sent + stats.sendFailed + stats.expired + stats.stale

structure Queue.Balanced (s : Queue) : Prop where
  submitted : s.stats.submitted = s.stats.classified + total Call.unclassified s.calls
  completed : s.stats.completed = s.stats.settled
  enqueued : s.stats.enqueued = s.stats.completed + s.outstanding

/-- What one step of a call does to the counters. -/
structure Counted (s : Queue) (call : Call) (t : Queue) (next : Option Call) : Prop where
  classified : t.stats.classified + held Call.unclassified next =
    s.stats.classified + call.unclassified + (t.stats.submitted - s.stats.submitted)
  counted : UInt32.ofNat t.pending.length + held Call.counted next =
    UInt32.ofNat s.pending.length + call.counted + (t.stats.enqueued - s.stats.enqueued)
  completed : t.stats.completed = s.stats.completed
  settled : t.stats.settled = s.stats.settled
  job : t.job = s.job

theorem counted_setStats {stats : Stats} {next : Option Call}
    (hclassified : stats.classified + held Call.unclassified next =
      s.stats.classified + call.unclassified + (stats.submitted - s.stats.submitted))
    (hcounted : held Call.counted next =
      call.counted + (stats.enqueued - s.stats.enqueued))
    (hcompleted : stats.completed = s.stats.completed)
    (hsettled : stats.settled = s.stats.settled) :
    Counted s call (s.setStats stats) next := by
  refine ⟨hclassified, ?_, hcompleted, hsettled, rfl⟩
  change UInt32.ofNat s.pending.length + _ = _
  rw [hcounted, add_assoc]
  rfl

theorem counted_still {t : Queue} {next : Option Call} (hstats : t.stats = s.stats)
    (hclassified : held Call.unclassified next = call.unclassified)
    (hcounted : UInt32.ofNat t.pending.length + held Call.counted next =
      UInt32.ofNat s.pending.length + call.counted) (hjob : t.job = s.job) :
    Counted s call t next := by
  refine ⟨?_, ?_, by rw [hstats], by rw [hstats], hjob⟩
  · rw [hstats, hclassified, sub_self, add_zero]
  · rw [hstats, hcounted, sub_self, add_zero]

theorem classify_counted (request : Request) (ready : Bool) :
    Counted s (.classify request ready) (s.classify request ready).1
      (s.classify request ready).2.call? := by
  have hzero : (0 : UInt32) = 0 + (s.stats.enqueued - s.stats.enqueued) := by
    rw [sub_self, add_zero]
  unfold Queue.classify
  dsimp only
  split
  case isTrue =>
    refine counted_setStats ?_ hzero rfl rfl
    simp only [Stats.classified, Progress.call?, held_none, Call.unclassified]
    grind
  split
  case h_1 =>
    refine counted_setStats ?_ hzero rfl rfl
    simp only [Stats.classified, Progress.call?, held_none, Call.unclassified]
    grind
  split
  case isTrue =>
    refine counted_setStats ?_ hzero rfl rfl
    simp only [Stats.classified, Progress.call?, held_none, Call.unclassified]
    grind
  case isFalse =>
    split
    case isTrue =>
      refine counted_setStats ?_ hzero rfl rfl
      simp only [Stats.classified, Progress.call?, held_none, Call.unclassified]
      grind
    case isFalse =>
      refine counted_setStats ?_ hzero rfl rfl
      simp only [Stats.classified, Progress.call?, held_some, Call.unclassified]
      grind

theorem giveBack_stats (s : Queue) (index : Nat) :
    (s.giveBack index).stats = s.stats ∧ (s.giveBack index).pending = s.pending ∧
      (s.giveBack index).job = s.job := by
  unfold Queue.giveBack
  split
  case isTrue => exact ⟨rfl, rfl, rfl⟩
  case isFalse => exact ⟨rfl, rfl, rfl⟩

theorem produce_counted (refuses : Bool) :
    Counted s call (s.produce refuses call).1 (s.produce refuses call).2.call? := by
  cases call with
  | began request => exact counted_still rfl rfl rfl rfl
  | classify request ready => exact classify_counted request ready
  | take order =>
    unfold Queue.produce
    cases hfree : s.free with
    | nil => exact counted_still rfl rfl rfl rfl
    | cons index rest => exact counted_still rfl rfl rfl rfl
  | decide order index =>
    cases index with
    | none =>
      refine counted_setStats ?_ ?_ rfl rfl
      · simp only [Queue.produce, Stats.classified, Progress.call?, held_none, Call.unclassified]
        grind
      · exact (sub_self s.stats.enqueued).symm ▸ rfl
    | some index =>
      refine counted_setStats ?_ ?_ rfl rfl
      · simp only [Queue.produce, Stats.classified, Progress.call?, held_some, Call.unclassified]
        grind
      · exact (sub_self s.stats.enqueued).symm ▸ rfl
  | fill order index => exact counted_still rfl rfl rfl rfl
  | count index len =>
    refine counted_setStats ?_ ?_ rfl rfl
    · simp only [Queue.produce, Stats.classified, Progress.call?, held_some, Call.unclassified]
      grind
    · simp only [Queue.produce, Progress.call?, held_some, Call.counted]
      grind
  | publish index =>
    unfold Queue.produce
    dsimp only
    split
    case isTrue => exact counted_still rfl rfl rfl rfl
    refine counted_still rfl rfl ?_ rfl
    simp only [Progress.call?, held_none, Call.counted, List.length_append,
      List.length_singleton, UInt32.ofNat_add, add_zero]
    rfl
  | refused index =>
    refine counted_setStats ?_ ?_ rfl rfl
    · simp only [Queue.produce, Stats.classified, Progress.call?, held_some, Call.unclassified]
      grind
    · simp only [Queue.produce, Progress.call?, held_some, Call.counted]
      grind
  | release index =>
    refine counted_setStats ?_ ?_ rfl rfl
    · simp only [Queue.produce, Stats.classified, Progress.call?, held_some, Call.unclassified]
      grind
    · exact (sub_self s.stats.enqueued).symm ▸ rfl
  | give index =>
    obtain ⟨hstats, hpending, hjob⟩ := giveBack_stats s index
    refine counted_still hstats rfl ?_ hjob
    change UInt32.ofNat (s.giveBack index).pending.length + _ = _
    rw [hpending]
    rfl

theorem Queue.Balanced.produce (h : s.Balanced) (hcall : s.calls[i]? = some call)
    (refuses : Bool) :
    Queue.Balanced { (s.produce refuses call).1 with
      calls := resume s.calls i (s.produce refuses call).2.call? } := by
  have hcounted := @produce_counted s call refuses
  have hclassified := total_exchange hcall hcounted.classified
  have hwaiting := total_exchange hcall hcounted.counted
  refine ⟨?_, ?_, ?_⟩
  · have hbefore := h.submitted
    dsimp only
    grind
  · dsimp only
    rw [hcounted.completed, hcounted.settled]
    exact h.completed
  · have hbefore := h.enqueued
    unfold Queue.outstanding Queue.working at *
    dsimp only
    rw [hcounted.completed, hcounted.job]
    grind

/-- What one step of the worker does to the counters. -/
structure Worked (s t : Queue) : Prop where
  submitted : t.stats.submitted = s.stats.submitted
  classified : t.stats.classified = s.stats.classified
  enqueued : t.stats.enqueued = s.stats.enqueued
  completed : t.stats.completed + t.working = s.stats.completed + s.working
  settled : t.stats.settled - t.stats.completed = s.stats.settled - s.stats.completed

theorem worked_setJob {t : Queue} {next : Job} (hstats : t.stats = s.stats)
    (hjob : s.job = some job) (hstage : next.stage.unfinished = job.stage.unfinished) :
    Worked s (t.setJob next) := by
  refine ⟨?_, ?_, ?_, ?_, ?_⟩
  · exact congrArg Stats.submitted hstats
  · exact congrArg Stats.classified hstats
  · exact congrArg Stats.enqueued hstats
  · change t.stats.completed + next.stage.unfinished = s.stats.completed + s.working
    rw [hstats, hstage, Queue.working, hjob, Option.elim_some]
  · change t.stats.settled - t.stats.completed = _
    rw [hstats]

theorem complete_counts (stats : Stats) (age residence : Nat) (fate : Fate) :
    (stats.complete age residence fate).submitted = stats.submitted ∧
      (stats.complete age residence fate).classified = stats.classified ∧
      (stats.complete age residence fate).enqueued = stats.enqueued ∧
      (stats.complete age residence fate).completed = stats.completed + 1 ∧
      (stats.complete age residence fate).settled = stats.settled + 1 := by
  cases fate <;>
    refine ⟨rfl, rfl, rfl, rfl, ?_⟩ <;>
    simp only [Stats.complete, Stats.settled] <;>
    grind

theorem proceed_worked (hjob : s.job = some job) :
    Worked s (s.proceed eventWait outcome timeout job) := by
  have hworking : s.working = job.stage.unfinished := by
    rw [Queue.working, hjob, Option.elim_some]
  unfold Queue.proceed
  cases hs : job.stage with
  | taken =>
    refine worked_setJob rfl hjob ?_
    rw [hs]
    dsimp only
    split <;> rfl
  | probe => exact worked_setJob rfl hjob (by rw [hs]; rfl)
  | activate fate =>
    refine ⟨rfl, rfl, rfl, ?_, rfl⟩
    rw [hworking, hs]
    cases fate with
    | none => rfl
    | some fate => rfl
  | sendReady =>
    refine worked_setJob rfl hjob ?_
    rw [hs]
    dsimp only
    split <;> rfl
  | prepare attempt => exact worked_setJob rfl hjob (by rw [hs]; rfl)
  | check attempt =>
    refine worked_setJob rfl hjob ?_
    rw [hs]
    dsimp only
    split <;> rfl
  | call attempt checked => exact worked_setJob rfl hjob (by rw [hs]; rfl)
  | driver attempt =>
    have hnext : (nextAttempt attempt).unfinished = 1 := by
      unfold nextAttempt
      split <;> rfl
    cases outcome with
    | ok => exact worked_setJob rfl hjob (by rw [hs]; rfl)
    | other => exact worked_setJob rfl hjob (by rw [hs]; rfl)
    | busy =>
      refine worked_setJob rfl hjob ?_
      rw [hs]
      dsimp only
      split
      case isTrue => split <;> rfl
      case isFalse => exact hnext
  | waitEpoch attempt =>
    refine worked_setJob rfl hjob ?_
    rw [hs]
    dsimp only
    split <;> rfl
  | waitReady attempt =>
    refine worked_setJob rfl hjob ?_
    rw [hs]
    dsimp only
    split <;> rfl
  | waiting attempt =>
    dsimp only
    split
    case isTrue =>
      split
      case isTrue => exact worked_setJob rfl hjob (by rw [hs]; rfl)
      case isFalse => exact ⟨rfl, rfl, rfl, rfl, rfl⟩
    case isFalse => exact worked_setJob rfl hjob (by rw [hs]; rfl)
  | wakeEpoch attempt notified =>
    refine worked_setJob rfl hjob ?_
    rw [hs]
    dsimp only
    split <;> rfl
  | wakeReady attempt notified => exact worked_setJob rfl hjob (by rw [hs]; rfl)
  | waitDone attempt notified disconnected =>
    refine ⟨rfl, rfl, rfl, ?_, rfl⟩
    rw [hworking, hs]
    change s.stats.completed + Stage.unfinished (if _ then _ else _) = _
    unfold nextAttempt
    split
    case isTrue => rfl
    case isFalse => split <;> rfl
  | finish fate =>
    obtain ⟨hsubmitted, hclassified, henqueued, hcompleted, hsettled⟩ :=
      complete_counts s.stats job.age (s.clock - (s.pool job.index).queuedUs) fate
    refine ⟨hsubmitted, hclassified, henqueued, ?_, ?_⟩
    · rw [hworking, hs]
      change (Stats.complete _ _ _ _).completed + 0 = s.stats.completed + 1
      rw [hcompleted, add_zero]
    · change (Stats.complete _ _ _ _).settled - (Stats.complete _ _ _ _).completed = _
      rw [hsettled, hcompleted]
      grind
  | release =>
    refine ⟨rfl, rfl, rfl, ?_, rfl⟩
    rw [hworking, hs]
    rfl
  | give =>
    obtain ⟨hstats, -, -⟩ := giveBack_stats s job.index
    refine ⟨congrArg Stats.submitted hstats, congrArg Stats.classified hstats,
      congrArg Stats.enqueued hstats, ?_, ?_⟩
    · rw [hworking, hs]
      change (s.giveBack job.index).stats.completed + 0 = s.stats.completed + 0
      rw [hstats]
    · change (s.giveBack job.index).stats.settled - (s.giveBack job.index).stats.completed = _
      rw [hstats]

theorem proceed_pending (hjob : s.job = some job) :
    (s.proceed eventWait outcome timeout job).pending = s.pending ∧
      (s.proceed eventWait outcome timeout job).calls = s.calls := by
  by_cases hstage : job.stage = .give
  case pos =>
    unfold Queue.proceed
    rw [hstage]
    change (s.giveBack job.index).pending = _ ∧ (s.giveBack job.index).calls = _
    unfold Queue.giveBack
    split
    case isTrue => exact ⟨rfl, rfl⟩
    case isFalse => exact ⟨rfl, rfl⟩
  case neg =>
    have hframe := @proceed_frame s eventWait timeout outcome job hjob hstage
    exact ⟨hframe.pending, hframe.calls⟩

theorem Queue.Balanced.work (h : s.Balanced) : (s.work eventWait outcome timeout).Balanced := by
  unfold Queue.work
  cases hjob : s.job with
  | some job =>
    have hworked := @proceed_worked s eventWait timeout outcome job hjob
    obtain ⟨hpending, hcalls⟩ := @proceed_pending s eventWait timeout outcome job hjob
    dsimp only
    refine ⟨?_, ?_, ?_⟩
    · rw [hworked.submitted, hworked.classified, hcalls]
      exact h.submitted
    · have hsettled := hworked.settled
      have hbefore := h.completed
      grind
    · have hcompleted := hworked.completed
      have hbefore := h.enqueued
      unfold Queue.outstanding at *
      rw [hworked.enqueued, hpending, hcalls]
      grind
  | none =>
    rcases hpending : s.pending with _ | ⟨index, rest⟩
    · exact h
    have hbefore := h.enqueued
    refine ⟨h.submitted, h.completed, ?_⟩
    unfold Queue.outstanding Queue.working at hbefore ⊢
    rw [hjob, hpending, Option.elim_none, List.length_cons, UInt32.ofNat_add] at hbefore
    rw [Option.elim_some]
    change s.stats.enqueued = s.stats.completed + (UInt32.ofNat rest.length + 1 +
      total Call.counted s.calls)
    rw [hbefore, add_zero]
    rfl

theorem Queue.Balanced.step (h : s.Balanced) (event : Event) :
    (s.step eventWait event).Balanced := by
  cases event with
  | init allocated =>
    change (s.start eventWait allocated).Balanced
    unfold Queue.start
    split
    case isTrue => exact h
    split
    case isTrue => exact ⟨h.submitted, h.completed, h.enqueued⟩
    case isFalse => exact ⟨h.submitted, h.completed, h.enqueued⟩
  | submit buffer =>
    have hsubmitted := h.submitted
    have henqueued := h.enqueued
    refine ⟨?_, h.completed, ?_⟩
    · change s.stats.submitted = s.stats.classified + total Call.unclassified (s.calls ++ [_])
      rw [total_begin, Call.unclassified, add_zero]
      exact hsubmitted
    · change s.stats.enqueued = s.stats.completed + (UInt32.ofNat s.pending.length + s.working +
        total Call.counted (s.calls ++ [_]))
      rw [total_begin, Call.counted, add_zero]
      exact henqueued
  | produce i refuses =>
    unfold Queue.step
    dsimp only
    cases hcall : s.calls[i]? with
    | none => exact h
    | some call => exact h.produce hcall refuses
  | work outcome timeout => exact h.work
  | mount => exact ⟨h.submitted, h.completed, h.enqueued⟩
  | setReady ready => exact ⟨h.submitted, h.completed, h.enqueued⟩
  | capacityAvailable =>
    change (Queue.notify eventWait s).Balanced
    unfold Queue.notify
    split
    case isTrue => exact ⟨h.submitted, h.completed, h.enqueued⟩
    case isFalse => exact h
  | tick us => exact ⟨h.submitted, h.completed, h.enqueued⟩

end Meshpn.Device.Usb
