import Meshpn.Device.UsbQueueSafety

/-!
The order in which frames reach the driver. Frames are taken in the order of the queue, each
of them is sent at most once, and an attempt passes the check of the epoch only if no mount
change, or a multiple of 2^32, came after its call of `submit` had begun. The driver is
called a moment later.
-/

namespace Meshpn.Device.Usb

open Meshpn.Lib Meshpn.Lib.InFlight

/-- A slot has the epoch of the mount changes when its call began. -/
structure Slot.Dated (slot : Slot) (changes : Nat) : Prop where
  epoch : slot.epoch = UInt32.ofNat slot.begun
  past : slot.begun ≤ changes

/-- The epoch and the mount changes that a call has read. -/
def Call.epochs : Call → Option (UInt32 × Nat)
  | .began request | .classify request _ => some (request.epoch, request.begun)
  | .take order | .decide order _ | .fill order _ => some (order.epoch, order.begun)
  | .count _ _ | .publish _ | .refused _ | .release _ | .give _ => none

def Call.Dated (call : Call) (changes : Nat) : Prop :=
  ∀ epoch begun, call.epochs = some (epoch, begun) →
    epoch = UInt32.ofNat begun ∧ begun ≤ changes

/-- The attempt at the frame of an entry of the queue. -/
structure Attempt.Fits (attempt : Attempt) (entry : Published) (changes : Nat) : Prop where
  data : attempt.data = entry.slot.data
  checked : entry.slot.epoch = UInt32.ofNat attempt.checked
  after : entry.enqueuedAt ≤ attempt.checked
  handed : attempt.checked ≤ attempt.handed
  past : attempt.handed ≤ changes

def Stage.sending : Stage → Bool
  | .finish .sent | .release | .give => false
  | _ => true

/-- The worker's frame is the last one taken. -/
structure Job.Fits (s : Queue) (job : Job) : Prop where
  last : s.takenCount = job.number + 1
  entry : ∃ entry, s.published[job.number]? = some entry ∧ entry.slot = s.pool job.index ∧
    ∀ attempt checked, job.stage = .call attempt checked →
      entry.slot.epoch = UInt32.ofNat checked ∧ entry.enqueuedAt ≤ checked ∧
        checked ≤ s.changes
  unsent : job.stage.sending = true → ∀ number ∈ s.sentNumbers, number < job.number
  tried : ∀ attempt, job.stage = .driver attempt → job.number ∈ s.attempts.map Attempt.number

structure Queue.InOrder (s : Queue) : Prop where
  epoch : s.epoch = UInt32.ofNat s.changes
  slots : ∀ index, (s.pool index).Dated s.changes
  calls : ∀ call ∈ s.calls, call.Dated s.changes
  length : s.published.length = s.takenCount + s.pending.length
  pending : s.pending.map s.pool = (s.published.drop s.takenCount).map Published.slot
  published : ∀ entry ∈ s.published, entry.slot.Dated entry.enqueuedAt ∧
    entry.enqueuedAt ≤ s.changes
  attempts : ∀ attempt ∈ s.attempts, attempt.number < s.takenCount ∧
    ∃ entry, s.published[attempt.number]? = some entry ∧ attempt.Fits entry s.changes
  attempted : (s.attempts.map Attempt.number).Pairwise (· ≤ ·)
  sent : s.sentNumbers.Pairwise (· < ·)
  sentTried : ∀ number ∈ s.sentNumbers, number ∈ s.attempts.map Attempt.number
  job : ∀ job, s.job = some job → job.Fits s

variable {s t : Queue} {call : Call} {i : Nat}

theorem initial_inOrder : Queue.initial.InOrder where
  epoch := rfl
  slots := fun _ => ⟨rfl, Nat.le_refl _⟩
  calls := fun call h => by cases h
  length := rfl
  pending := rfl
  published := fun entry h => by cases h
  attempts := fun attempt h => by cases h
  attempted := List.Pairwise.nil
  sent := List.Pairwise.nil
  sentTried := fun number h => by cases h
  job := fun job h => by cases h

theorem Queue.InOrder.keep (h : s.InOrder) (hepoch : t.epoch = s.epoch ∧ t.changes = s.changes)
    (hpool : t.pool = s.pool) (hqueue : t.pending = s.pending ∧ t.published = s.published)
    (htaken : t.takenCount = s.takenCount)
    (hlog : t.attempts = s.attempts ∧ t.sentNumbers = s.sentNumbers) (hjob : t.job = s.job)
    (hcalls : ∀ call ∈ t.calls, call.Dated s.changes) : t.InOrder := by
  refine ⟨?_, ?_, ?_, ?_, ?_, ?_, ?_, ?_, ?_, ?_, ?_⟩
  · rw [hepoch.1, hepoch.2]; exact h.epoch
  · rw [hpool, hepoch.2]; exact h.slots
  · rw [hepoch.2]; exact hcalls
  · rw [hqueue.1, hqueue.2, htaken]; exact h.length
  · rw [hqueue.1, hqueue.2, htaken, hpool]; exact h.pending
  · rw [hqueue.2, hepoch.2]; exact h.published
  · rw [hlog.1, htaken, hqueue.2, hepoch.2]; exact h.attempts
  · rw [hlog.1]; exact h.attempted
  · rw [hlog.2]; exact h.sent
  · rw [hlog.1, hlog.2]; exact h.sentTried
  · intro job hsome
    rw [hjob] at hsome
    have hfits := h.job job hsome
    refine ⟨?_, ?_, ?_, ?_⟩
    · rw [htaken]; exact hfits.last
    · rw [hqueue.2, hpool, hepoch.2]; exact hfits.entry
    · rw [hlog.2]; exact hfits.unsent
    · rw [hlog.1]; exact hfits.tried

theorem Slot.Dated.mono {slot : Slot} {changes later : Nat} (h : slot.Dated changes)
    (hle : changes ≤ later) : slot.Dated later := ⟨h.epoch, h.past.trans hle⟩

theorem Queue.InOrder.mount (h : s.InOrder) :
    Queue.InOrder { s with epoch := s.epoch + 1, changes := s.changes + 1 } where
  epoch := by
    dsimp only
    rw [h.epoch, UInt32.ofNat_add]
    rfl
  slots := fun index => (h.slots index).mono (Nat.le_succ _)
  calls := fun call hcall epoch begun hread => by
    obtain ⟨hdate, hpast⟩ := h.calls call hcall epoch begun hread
    exact ⟨hdate, Nat.le_succ_of_le hpast⟩
  length := h.length
  pending := h.pending
  published := fun entry hentry =>
    ⟨(h.published entry hentry).1, Nat.le_succ_of_le (h.published entry hentry).2⟩
  attempts := fun attempt hattempt => by
    obtain ⟨htaken, entry, hentry, hfits⟩ := h.attempts attempt hattempt
    exact ⟨htaken, entry, hentry, { hfits with past := Nat.le_succ_of_le hfits.past }⟩
  attempted := h.attempted
  sent := h.sent
  sentTried := h.sentTried
  job := fun job hjob => by
    have hfits := h.job job hjob
    obtain ⟨entry, hentry, hslot, hcall⟩ := hfits.entry
    refine ⟨hfits.last, ⟨entry, hentry, hslot, fun attempt checked hstage => ?_⟩, hfits.unsent,
      hfits.tried⟩
    obtain ⟨hepoch, hafter, hpast⟩ := hcall attempt checked hstage
    exact ⟨hepoch, hafter, Nat.le_succ_of_le hpast⟩

theorem Queue.Partitioned.apart (h : s.Partitioned) (hcall : s.calls[i]? = some call)
    {index : Nat} (howned : call.owned = {index}) :
    index ∉ s.pending ∧ ∀ job, s.job = some job → job.index ≠ index := by
  obtain ⟨others, htotal⟩ := owned_le_total hcall
  have hnodup : s.slots.Nodup := by
    rw [h]
    split
    case isTrue => exact List.nodup_range
    case isFalse => exact Multiset.nodup_zero
  unfold Queue.slots at hnodup
  rw [htotal, howned] at hnodup
  obtain ⟨-, -, hdisjoint⟩ := Multiset.nodup_add.mp hnodup
  have hheld : index ∈ ({index} : Multiset Nat) + others :=
    Multiset.mem_add.mpr (.inl (Multiset.mem_singleton_self index))
  have hout : index ∉ (s.free : Multiset Nat) + s.pending + s.jobOwned := fun hin =>
    Multiset.disjoint_left.mp hdisjoint hin hheld
  refine ⟨fun hin => hout ?_, fun job hjob hsame => hout ?_⟩
  · exact Multiset.mem_add.mpr (.inl (Multiset.mem_add.mpr (.inr hin)))
  refine Multiset.mem_add.mpr (.inr ?_)
  rw [Queue.jobOwned, hjob, Option.elim_some, hsame]
  exact Multiset.mem_singleton_self index

theorem produce_epochs {refuses : Bool} {next : Call}
    (h : (s.produce refuses call).2.call? = some next) :
    next.epochs = none ∨ next.epochs = call.epochs := by
  cases call with
  | began request =>
    obtain rfl := Option.some.inj h
    exact .inr rfl
  | classify request ready =>
    unfold Queue.produce Queue.classify at h
    dsimp only at h
    split at h
    case isTrue => cases h
    split at h
    case h_1 => cases h
    split at h
    case isTrue => cases h
    split at h
    case isTrue => cases h
    obtain rfl := Option.some.inj h
    exact .inr rfl
  | take order =>
    unfold Queue.produce at h
    cases hfree : s.free with
    | nil =>
      rw [hfree] at h
      obtain rfl := Option.some.inj h
      exact .inr rfl
    | cons index rest =>
      rw [hfree] at h
      obtain rfl := Option.some.inj h
      exact .inr rfl
  | decide order index =>
    cases index with
    | none => cases h
    | some index =>
      obtain rfl := Option.some.inj h
      exact .inr rfl
  | fill order index =>
    obtain rfl := Option.some.inj h
    exact .inl rfl
  | count index len =>
    obtain rfl := Option.some.inj h
    exact .inl rfl
  | publish index =>
    unfold Queue.produce at h
    dsimp only at h
    split at h
    case isTrue =>
      obtain rfl := Option.some.inj h
      exact .inl rfl
    case isFalse => cases h
  | refused index =>
    obtain rfl := Option.some.inj h
    exact .inl rfl
  | release index =>
    obtain rfl := Option.some.inj h
    exact .inl rfl
  | give index => cases h

theorem Queue.InOrder.resumed (h : s.InOrder) (hcall : s.calls[i]? = some call)
    (refuses : Bool) {other : Call}
    (hother : other ∈ resume s.calls i (s.produce refuses call).2.call?) :
    other.Dated s.changes := by
  rcases mem_resume hother with hbefore | hnext
  · exact h.calls other hbefore
  intro epoch begun hread
  rcases produce_epochs hnext with hnone | hsame
  · rw [hnone] at hread
    cases hread
  · rw [hsame] at hread
    exact h.calls call (List.mem_of_getElem? hcall) epoch begun hread

theorem Queue.InOrder.fill (h : s.InOrder) (hpart : s.Partitioned) {order : Order} {index : Nat}
    (hcall : s.calls[i]? = some (.fill order index)) {calls : List Call}
    (hcalls : ∀ call ∈ calls, call.Dated s.changes) :
    Queue.InOrder { s with
      pool := Function.update s.pool index ⟨s.clock, order.epoch, order.data, order.begun⟩
      calls := calls } := by
  obtain ⟨hpending, hjob⟩ := hpart.apart hcall rfl
  obtain ⟨hepoch, hpast⟩ := h.calls _ (List.mem_of_getElem? hcall) _ _ rfl
  refine ⟨h.epoch, fun other => ?_, hcalls, h.length, ?_, h.published, h.attempts, h.attempted,
    h.sent, h.sentTried, fun job hsome => ?_⟩
  · dsimp only
    by_cases hsame : other = index
    case pos =>
      rw [hsame, Function.update_self]
      exact ⟨hepoch, hpast⟩
    case neg =>
      rw [Function.update_of_ne hsame]
      exact h.slots other
  · dsimp only
    rw [← h.pending]
    refine List.map_congr_left fun other hother => ?_
    have hapart : other ≠ index := fun hsame => hpending (hsame ▸ hother)
    exact Function.update_of_ne hapart _ _
  · have hfits := h.job job hsome
    refine ⟨hfits.last, ?_, hfits.unsent, hfits.tried⟩
    dsimp only
    rw [Function.update_of_ne (hjob job hsome)]
    exact hfits.entry

theorem Queue.InOrder.publish (h : s.InOrder) (index : Nat) {calls : List Call}
    (hcalls : ∀ call ∈ calls, call.Dated s.changes) :
    Queue.InOrder { s with
      pending := s.pending ++ [index]
      published := s.published ++ [⟨s.pool index, s.changes⟩]
      calls := calls } := by
  have hlength := h.length
  have hold : ∀ {number : Nat} {entry : Published}, s.published[number]? = some entry →
      (s.published ++ [⟨s.pool index, s.changes⟩])[number]? = some entry := by
    intro number entry hentry
    rw [List.getElem?_append_left (List.getElem?_eq_some_iff.mp hentry).1]
    exact hentry
  refine ⟨h.epoch, h.slots, hcalls, ?_, ?_, fun entry hentry => ?_, fun attempt hattempt => ?_,
    h.attempted, h.sent, h.sentTried, fun job hsome => ?_⟩
  · simp only [List.length_append, List.length_singleton]
    omega
  · dsimp only
    rw [List.map_append, h.pending, List.drop_append_of_le_length (by omega), List.map_append]
    rfl
  · rcases List.mem_append.mp hentry with hbefore | hnew
    · exact h.published entry hbefore
    · rw [List.mem_singleton.mp hnew]
      exact ⟨h.slots index, Nat.le_refl _⟩
  · obtain ⟨htaken, entry, hentry, hfits⟩ := h.attempts attempt hattempt
    exact ⟨htaken, entry, hold hentry, hfits⟩
  · have hfits := h.job job hsome
    obtain ⟨entry, hentry, hrest⟩ := hfits.entry
    exact ⟨hfits.last, ⟨entry, hold hentry, hrest⟩, hfits.unsent, hfits.tried⟩

theorem classify_setStats (s : Queue) (request : Request) (ready : Bool) :
    ∃ stats, (s.classify request ready).1 = s.setStats stats := by
  unfold Queue.classify
  dsimp only
  split
  case isTrue => exact ⟨_, rfl⟩
  split
  case h_1 => exact ⟨_, rfl⟩
  split
  case isTrue => exact ⟨_, rfl⟩
  split
  case isTrue => exact ⟨_, rfl⟩
  case isFalse => exact ⟨_, rfl⟩

theorem Queue.InOrder.produce (h : s.InOrder) (hpart : s.Partitioned)
    (hcall : s.calls[i]? = some call) (refuses : Bool) :
    Queue.InOrder { (s.produce refuses call).1 with
      calls := resume s.calls i (s.produce refuses call).2.call? } := by
  have hcalls : ∀ other ∈ resume s.calls i (s.produce refuses call).2.call?,
      other.Dated s.changes := fun other hother => h.resumed hcall refuses hother
  cases call with
  | fill order index => exact h.fill hpart hcall hcalls
  | publish index =>
    unfold Queue.produce at hcalls ⊢
    dsimp only at hcalls ⊢
    split
    case isTrue hrefused =>
      rw [if_pos hrefused] at hcalls
      exact h.keep ⟨rfl, rfl⟩ rfl ⟨rfl, rfl⟩ rfl ⟨rfl, rfl⟩ rfl hcalls
    case isFalse htaken =>
      rw [if_neg htaken] at hcalls
      exact h.publish index hcalls
  | classify request ready =>
    obtain ⟨stats, hstats⟩ := classify_setStats s request ready
    change Queue.InOrder { (s.classify request ready).1 with calls := _ }
    rw [hstats]
    exact h.keep ⟨rfl, rfl⟩ rfl ⟨rfl, rfl⟩ rfl ⟨rfl, rfl⟩ rfl hcalls
  | take order =>
    unfold Queue.produce at hcalls ⊢
    dsimp only at hcalls ⊢
    split
    case h_1 hfree =>
      rw [hfree] at hcalls
      exact h.keep ⟨rfl, rfl⟩ rfl ⟨rfl, rfl⟩ rfl ⟨rfl, rfl⟩ rfl hcalls
    case h_2 index rest hfree =>
      rw [hfree] at hcalls
      exact h.keep ⟨rfl, rfl⟩ rfl ⟨rfl, rfl⟩ rfl ⟨rfl, rfl⟩ rfl hcalls
  | give index =>
    change Queue.InOrder { s.giveBack index with calls := _ }
    unfold Queue.giveBack
    split
    case isTrue => exact h.keep ⟨rfl, rfl⟩ rfl ⟨rfl, rfl⟩ rfl ⟨rfl, rfl⟩ rfl hcalls
    case isFalse => exact h.keep ⟨rfl, rfl⟩ rfl ⟨rfl, rfl⟩ rfl ⟨rfl, rfl⟩ rfl hcalls
  | began request => exact h.keep ⟨rfl, rfl⟩ rfl ⟨rfl, rfl⟩ rfl ⟨rfl, rfl⟩ rfl hcalls
  | decide order index =>
    cases index with
    | none => exact h.keep ⟨rfl, rfl⟩ rfl ⟨rfl, rfl⟩ rfl ⟨rfl, rfl⟩ rfl hcalls
    | some index => exact h.keep ⟨rfl, rfl⟩ rfl ⟨rfl, rfl⟩ rfl ⟨rfl, rfl⟩ rfl hcalls
  | count index len => exact h.keep ⟨rfl, rfl⟩ rfl ⟨rfl, rfl⟩ rfl ⟨rfl, rfl⟩ rfl hcalls
  | refused index => exact h.keep ⟨rfl, rfl⟩ rfl ⟨rfl, rfl⟩ rfl ⟨rfl, rfl⟩ rfl hcalls
  | release index => exact h.keep ⟨rfl, rfl⟩ rfl ⟨rfl, rfl⟩ rfl ⟨rfl, rfl⟩ rfl hcalls

variable {eventWait timeout : Bool} {outcome : SendResult} {job : Job}

theorem Queue.InOrder.keepJob (h : s.InOrder) (hframe : Frame job s t)
    (hlog : t.attempts = s.attempts ∧ t.sentNumbers = s.sentNumbers)
    (hfits : ∀ next, t.job = some next → Job.Fits t next) : t.InOrder := by
  refine ⟨?_, ?_, ?_, ?_, ?_, ?_, ?_, ?_, ?_, ?_, hfits⟩
  · rw [hframe.epoch, hframe.changes]; exact h.epoch
  · rw [hframe.pool, hframe.changes]; exact h.slots
  · rw [hframe.calls, hframe.changes]; exact h.calls
  · rw [hframe.published, hframe.takenCount, hframe.pending]; exact h.length
  · rw [hframe.published, hframe.takenCount, hframe.pending, hframe.pool]; exact h.pending
  · rw [hframe.published, hframe.changes]; exact h.published
  · rw [hlog.1, hframe.takenCount, hframe.published, hframe.changes]; exact h.attempts
  · rw [hlog.1]; exact h.attempted
  · rw [hlog.2]; exact h.sent
  · rw [hlog.1, hlog.2]; exact h.sentTried

def Stage.midway : Stage → Bool
  | .call _ _ | .driver _ => true
  | _ => false

theorem Job.Fits.keep {next : Job} (h : job.Fits s) (hframe : Frame job s t)
    (hnext : next.index = job.index ∧ next.number = job.number)
    (hlog : t.sentNumbers = s.sentNumbers) (hmidway : next.stage.midway = false)
    (hsending : next.stage.sending = true → job.stage.sending = true) : next.Fits t := by
  obtain ⟨entry, hentry, hslot, -⟩ := h.entry
  refine ⟨?_, ⟨entry, ?_, ?_, fun attempt checked hstage => ?_⟩, fun hsend => ?_,
    fun attempt hstage => ?_⟩
  · rw [hframe.takenCount, hnext.2]; exact h.last
  · rw [hframe.published, hnext.2]; exact hentry
  · rw [hframe.pool, hnext.1]; exact hslot
  · rw [hstage] at hmidway
    cases hmidway
  · rw [hlog, hnext.2]; exact h.unsent (hsending hsend)
  · rw [hstage] at hmidway
    cases hmidway

/-- A step of the worker that neither checks the epoch nor calls the driver. -/
def Stage.plain : Stage → Bool
  | .check _ | .call _ _ | .driver _ | .give => false
  | _ => true

/-- What is left alone by such a step. -/
structure Plain (job : Job) (s t : Queue) : Prop where
  attempts : t.attempts = s.attempts
  sentNumbers : t.sentNumbers = s.sentNumbers
  job : ∃ next, t.job = some next ∧ (next.index = job.index ∧ next.number = job.number) ∧
    next.stage.midway = false ∧ (next.stage.sending = true → job.stage.sending = true)

theorem plain_setJob {next : Job} (hlog : t.attempts = s.attempts ∧ t.sentNumbers = s.sentNumbers)
    (hnext : next.index = job.index ∧ next.number = job.number)
    (hmidway : next.stage.midway = false)
    (hsending : next.stage.sending = true → job.stage.sending = true) :
    Plain job s (t.setJob next) :=
  ⟨hlog.1, hlog.2, next, rfl, hnext, hmidway, hsending⟩

theorem proceed_plain (hjob : s.job = some job) (hplain : job.stage.plain = true) :
    Plain job s (s.proceed eventWait outcome timeout job) := by
  have hnext : ∀ attempt, (nextAttempt attempt).midway = false := by
    intro attempt
    unfold nextAttempt
    split <;> rfl
  unfold Queue.proceed
  cases hs : job.stage with
  | check attempt => rw [hs] at hplain; cases hplain
  | call attempt checked => rw [hs] at hplain; cases hplain
  | driver attempt => rw [hs] at hplain; cases hplain
  | give => rw [hs] at hplain; cases hplain
  | taken =>
    refine plain_setJob ⟨rfl, rfl⟩ ⟨rfl, rfl⟩ ?_ fun _ => by rw [hs]; rfl
    dsimp only
    split <;> rfl
  | probe => exact plain_setJob ⟨rfl, rfl⟩ ⟨rfl, rfl⟩ rfl fun _ => by rw [hs]; rfl
  | activate fate =>
    refine plain_setJob ⟨rfl, rfl⟩ ⟨rfl, rfl⟩ ?_ fun _ => by rw [hs]; rfl
    cases fate with
    | none => rfl
    | some fate => rfl
  | sendReady =>
    refine plain_setJob ⟨rfl, rfl⟩ ⟨rfl, rfl⟩ ?_ fun _ => by rw [hs]; rfl
    dsimp only
    split <;> rfl
  | prepare attempt => exact plain_setJob ⟨rfl, rfl⟩ ⟨rfl, rfl⟩ rfl fun _ => by rw [hs]; rfl
  | waitEpoch attempt =>
    refine plain_setJob ⟨rfl, rfl⟩ ⟨rfl, rfl⟩ ?_ fun _ => by rw [hs]; rfl
    dsimp only
    split <;> rfl
  | waitReady attempt =>
    refine plain_setJob ⟨rfl, rfl⟩ ⟨rfl, rfl⟩ ?_ fun _ => by rw [hs]; rfl
    dsimp only
    split <;> rfl
  | waiting attempt =>
    dsimp only
    split
    case isTrue =>
      split
      case isTrue => exact plain_setJob ⟨rfl, rfl⟩ ⟨rfl, rfl⟩ rfl fun _ => by rw [hs]; rfl
      case isFalse => exact ⟨rfl, rfl, job, hjob, ⟨rfl, rfl⟩, by rw [hs]; rfl, id⟩
    case isFalse => exact plain_setJob ⟨rfl, rfl⟩ ⟨rfl, rfl⟩ rfl fun _ => by rw [hs]; rfl
  | wakeEpoch attempt notified =>
    refine plain_setJob ⟨rfl, rfl⟩ ⟨rfl, rfl⟩ ?_ fun _ => by rw [hs]; rfl
    dsimp only
    split <;> rfl
  | wakeReady attempt notified =>
    exact plain_setJob ⟨rfl, rfl⟩ ⟨rfl, rfl⟩ rfl fun _ => by rw [hs]; rfl
  | waitDone attempt notified disconnected =>
    refine plain_setJob ⟨rfl, rfl⟩ ⟨rfl, rfl⟩ ?_ fun _ => by rw [hs]; rfl
    dsimp only
    split
    case isTrue => rfl
    case isFalse => exact hnext attempt
  | finish fate => exact plain_setJob ⟨rfl, rfl⟩ ⟨rfl, rfl⟩ rfl fun h => by cases h
  | release => exact plain_setJob ⟨rfl, rfl⟩ ⟨rfl, rfl⟩ rfl fun h => by cases h

theorem Queue.InOrder.plain (h : s.InOrder) (hjob : s.job = some job)
    (hplain : job.stage.plain = true) :
    (s.proceed eventWait outcome timeout job).InOrder := by
  have hgive : job.stage ≠ .give := fun hs => by rw [hs] at hplain; cases hplain
  have hframe := @proceed_frame s eventWait timeout outcome job hjob hgive
  have hstep := @proceed_plain s eventWait timeout outcome job hjob hplain
  obtain ⟨next, hnext, hsame, hmidway, hsending⟩ := hstep.job
  refine h.keepJob hframe ⟨hstep.attempts, hstep.sentNumbers⟩ fun other hother => ?_
  rw [hnext] at hother
  obtain rfl := Option.some.inj hother
  exact (h.job job hjob).keep hframe hsame hstep.sentNumbers hmidway hsending

theorem Queue.InOrder.check (h : s.InOrder) (hjob : s.job = some job) {attempt : Nat}
    (hstage : job.stage = .check attempt) :
    (s.proceed eventWait outcome timeout job).InOrder := by
  have hframe := @proceed_frame s eventWait timeout outcome job hjob fun hs => (by rw [hs] at hstage; cases hstage)
  have hstep : s.proceed eventWait outcome timeout job = s.setJob { job with
      stage := if (s.pool job.index).epoch == s.epoch then .call attempt s.changes
        else .finish .failed } := by
    unfold Queue.proceed
    rw [hstage]
  rw [hstep] at hframe ⊢
  have hfits := h.job job hjob
  obtain ⟨entry, hentry, hslot, -⟩ := hfits.entry
  refine h.keepJob hframe ⟨rfl, rfl⟩ fun next hnext => ?_
  obtain rfl := Option.some.inj hnext
  refine ⟨hfits.last, ⟨entry, hentry, hslot, fun a checked hcall => ?_⟩,
    fun _ => hfits.unsent (by rw [hstage]; rfl), fun a hdriver => ?_⟩
  · dsimp only at hcall
    split at hcall
    case isTrue hcurrent =>
      cases hcall
      rw [hslot]
      exact ⟨(beq_iff_eq.mp hcurrent).trans h.epoch,
        (h.published entry (List.mem_of_getElem? hentry)).2, Nat.le_refl _⟩
    case isFalse => cases hcall
  · dsimp only at hdriver
    split at hdriver
    case isTrue => cases hdriver
    case isFalse => cases hdriver

theorem Queue.InOrder.handOver (h : s.InOrder) (hjob : s.job = some job) {attempt checked : Nat}
    (hstage : job.stage = .call attempt checked) :
    (s.proceed eventWait outcome timeout job).InOrder := by
  have hstep : s.proceed eventWait outcome timeout job = Queue.setJob
      { s with attempts := s.attempts ++
        [⟨job.number, (s.pool job.index).data, checked, s.changes⟩] }
      { job with stage := .driver attempt } := by
    unfold Queue.proceed
    rw [hstage]
  have hfits := h.job job hjob
  obtain ⟨entry, hentry, hslot, hcall⟩ := hfits.entry
  obtain ⟨hepoch, hafter, hpast⟩ := hcall attempt checked hstage
  have hlast := hfits.last
  rw [hstep]
  refine ⟨h.epoch, h.slots, h.calls, h.length, h.pending, h.published, fun other hother => ?_, ?_,
    h.sent, fun number hnumber => ?_, fun next hnext => ?_⟩
  · rcases List.mem_append.mp hother with hbefore | hnew
    · exact h.attempts other hbefore
    · rw [List.mem_singleton.mp hnew]
      exact ⟨hlast ▸ Nat.lt_succ_self _, entry, hentry,
        congrArg Slot.data hslot.symm, hepoch, hafter, hpast, Nat.le_refl _⟩
  · change ((s.attempts ++ [_]).map Attempt.number).Pairwise (· ≤ ·)
    rw [List.map_append, List.pairwise_append]
    refine ⟨h.attempted, List.pairwise_singleton _ _, fun number hnumber other hother => ?_⟩
    obtain ⟨before, hbefore, rfl⟩ := List.mem_map.mp hnumber
    have htaken := (h.attempts before hbefore).1
    rw [List.mem_singleton.mp hother]
    dsimp only
    omega
  · change number ∈ (s.attempts ++ [_]).map Attempt.number
    rw [List.map_append]
    exact List.mem_append_left _ (h.sentTried number hnumber)
  · obtain rfl := Option.some.inj hnext
    refine ⟨hlast, ⟨entry, hentry, hslot, fun a c hother => by cases hother⟩,
      fun _ => hfits.unsent (by rw [hstage]; rfl), fun _ _ => ?_⟩
    change job.number ∈ (s.attempts ++ [_]).map Attempt.number
    rw [List.map_append]
    exact List.mem_append_right _ (List.mem_singleton_self _)

theorem Queue.InOrder.driver (h : s.InOrder) (hjob : s.job = some job) {attempt : Nat}
    (hstage : job.stage = .driver attempt) :
    (s.proceed eventWait outcome timeout job).InOrder := by
  have hgive : job.stage ≠ .give := fun hs => by rw [hs] at hstage; cases hstage
  have hframe := @proceed_frame s eventWait timeout outcome job hjob hgive
  have hfits := h.job job hjob
  have hsending : job.stage.sending = true := by rw [hstage]; rfl
  unfold Queue.proceed at hframe ⊢
  rw [hstage] at hframe ⊢
  dsimp only at hframe ⊢
  cases outcome with
  | other =>
    refine h.keepJob hframe ⟨rfl, rfl⟩ fun next hnext => ?_
    obtain rfl := Option.some.inj hnext
    exact hfits.keep hframe ⟨rfl, rfl⟩ rfl rfl fun _ => hsending
  | busy =>
    refine h.keepJob hframe ⟨rfl, rfl⟩ fun next hnext => ?_
    obtain rfl := Option.some.inj hnext
    refine hfits.keep hframe ⟨rfl, rfl⟩ rfl ?_ fun _ => hsending
    dsimp only
    unfold nextAttempt
    split
    case isTrue => split <;> rfl
    case isFalse => split <;> rfl
  | ok =>
    have hunsent := hfits.unsent hsending
    obtain ⟨entry, hentry, hslot, -⟩ := hfits.entry
    refine ⟨h.epoch, h.slots, h.calls, h.length, h.pending, h.published, h.attempts, h.attempted,
      ?_, fun number hnumber => ?_, fun next hnext => ?_⟩
    · change (s.sentNumbers ++ [job.number]).Pairwise (· < ·)
      rw [List.pairwise_append]
      refine ⟨h.sent, List.pairwise_singleton _ _, fun number hnumber other hother => ?_⟩
      rw [List.mem_singleton.mp hother]
      exact hunsent number hnumber
    · rcases List.mem_append.mp hnumber with hbefore | hnew
      · exact h.sentTried number hbefore
      · rw [List.mem_singleton.mp hnew]
        exact hfits.tried attempt hstage
    · obtain rfl := Option.some.inj hnext
      exact ⟨hfits.last, ⟨entry, hentry, hslot, fun a c hother => by cases hother⟩,
        fun hsend => (by cases hsend), fun a hother => by cases hother⟩

theorem Queue.InOrder.proceed (h : s.InOrder) (hpart : s.Partitioned) (hjob : s.job = some job) :
    (s.proceed eventWait outcome timeout job).InOrder := by
  by_cases hplain : job.stage.plain = true
  case pos => exact h.plain hjob hplain
  cases hs : job.stage with
  | check attempt => exact h.check hjob hs
  | call attempt checked => exact h.handOver hjob hs
  | driver attempt => exact h.driver hjob hs
  | give =>
    rw [proceed_give hpart hjob hs]
    exact ⟨h.epoch, h.slots, h.calls, h.length, h.pending, h.published, h.attempts,
      h.attempted, h.sent, h.sentTried, fun job hsome => by cases hsome⟩
  | _ => exact absurd (by rw [hs]; rfl) hplain

theorem Queue.InOrder.take (h : s.InOrder) {index : Nat} {rest : List Nat}
    (hpending : s.pending = index :: rest) :
    Queue.InOrder { s with
      pending := rest
      takenCount := s.takenCount + 1
      job := some ⟨index, s.takenCount, 0, 0, 0, .taken⟩ } := by
  have hlength := h.length
  have hqueue := h.pending
  rw [hpending] at hlength hqueue
  rw [List.length_cons] at hlength
  have hbelow : s.takenCount < s.published.length := by omega
  rw [List.drop_eq_getElem_cons hbelow, List.map_cons, List.map_cons] at hqueue
  obtain ⟨hslot, hrest⟩ := List.cons.inj hqueue
  have hnumbers : ∀ number ∈ s.sentNumbers, number < s.takenCount := by
    intro number hnumber
    obtain ⟨attempt, hattempt, rfl⟩ := List.mem_map.mp (h.sentTried number hnumber)
    exact (h.attempts attempt hattempt).1
  refine ⟨h.epoch, h.slots, h.calls, ?_, hrest, h.published, fun attempt hattempt => ?_,
    h.attempted, h.sent, h.sentTried, fun job hjob => ?_⟩
  · dsimp only
    omega
  · obtain ⟨htaken, hentry⟩ := h.attempts attempt hattempt
    exact ⟨Nat.lt_succ_of_lt htaken, hentry⟩
  · obtain rfl := Option.some.inj hjob
    exact ⟨rfl, ⟨_, List.getElem?_eq_getElem hbelow, hslot.symm, fun a c hother => by cases hother⟩,
      fun _ => hnumbers, fun a hother => by cases hother⟩

theorem Queue.InOrder.work (h : s.InOrder) (hpart : s.Partitioned) :
    (s.work eventWait outcome timeout).InOrder := by
  unfold Queue.work
  cases hjob : s.job with
  | some job => exact h.proceed hpart hjob
  | none =>
    cases hpending : s.pending with
    | nil => exact h
    | cons index rest => exact h.take hpending

theorem Queue.InOrder.step (h : s.InOrder) (hpart : s.Partitioned) (event : Event) :
    (s.step eventWait event).InOrder := by
  cases event with
  | init allocated =>
    change (s.start eventWait allocated).InOrder
    unfold Queue.start
    split
    case isTrue => exact h
    split
    case isTrue => exact h.keep ⟨rfl, rfl⟩ rfl ⟨rfl, rfl⟩ rfl ⟨rfl, rfl⟩ rfl h.calls
    case isFalse => exact h.keep ⟨rfl, rfl⟩ rfl ⟨rfl, rfl⟩ rfl ⟨rfl, rfl⟩ rfl h.calls
  | submit buffer =>
    refine h.keep ⟨rfl, rfl⟩ rfl ⟨rfl, rfl⟩ rfl ⟨rfl, rfl⟩ rfl fun call hcall => ?_
    rcases List.mem_append.mp hcall with hbefore | hnew
    · exact h.calls call hbefore
    rw [List.mem_singleton.mp hnew]
    intro epoch begun hread
    cases hread
    exact ⟨h.epoch, Nat.le_refl _⟩
  | produce i refuses =>
    unfold Queue.step
    dsimp only
    cases hcall : s.calls[i]? with
    | none => exact h
    | some call => exact h.produce hpart hcall refuses
  | work outcome timeout => exact h.work hpart
  | mount => exact h.mount
  | setReady ready => exact h.keep ⟨rfl, rfl⟩ rfl ⟨rfl, rfl⟩ rfl ⟨rfl, rfl⟩ rfl h.calls
  | capacityAvailable =>
    change (Queue.notify eventWait s).InOrder
    unfold Queue.notify
    split
    case isTrue => exact h.keep ⟨rfl, rfl⟩ rfl ⟨rfl, rfl⟩ rfl ⟨rfl, rfl⟩ rfl h.calls
    case isFalse => exact h
  | tick us => exact h.keep ⟨rfl, rfl⟩ rfl ⟨rfl, rfl⟩ rfl ⟨rfl, rfl⟩ rfl h.calls

structure Queue.Sound (s : Queue) : Prop where
  partitioned : s.Partitioned
  balanced : s.Balanced
  inOrder : s.InOrder

theorem initial_sound : Queue.initial.Sound :=
  ⟨rfl, ⟨rfl, rfl, rfl⟩, initial_inOrder⟩

theorem Queue.Sound.step (h : s.Sound) (event : Event) : (s.step eventWait event).Sound :=
  ⟨h.partitioned.step event, h.balanced.step event, h.inOrder.step h.partitioned event⟩

theorem Queue.Sound.run (h : s.Sound) (events : List Event) : (s.run eventWait events).Sound := by
  induction events generalizing s with
  | nil => exact h
  | cons event events ih => exact ih (h.step event)

/-- An entry of the queue behind an attempt to send it. -/
structure Attempt.Timely (attempt : Attempt) (entry : Published) : Prop where
  data : attempt.data = entry.slot.data
  enqueued : entry.slot.begun ≤ entry.enqueuedAt
  checked : entry.enqueuedAt ≤ attempt.checked
  handed : attempt.checked ≤ attempt.handed
  /-- No mount change between the begin of `submit` and the check, or 2^32 of them. -/
  unchanged : 4294967296 ∣ attempt.checked - entry.slot.begun

theorem Queue.InOrder.timely (h : s.InOrder) {attempt : Attempt} (hattempt : attempt ∈ s.attempts) :
    ∃ entry, s.published[attempt.number]? = some entry ∧ attempt.Timely entry := by
  obtain ⟨-, entry, hentry, hfits⟩ := h.attempts attempt hattempt
  obtain ⟨hdated, -⟩ := h.published entry (List.mem_of_getElem? hentry)
  refine ⟨entry, hentry, hfits.data, hdated.past, hfits.after, hfits.handed, ?_⟩
  have hsame : UInt32.ofNat entry.slot.begun = UInt32.ofNat attempt.checked :=
    hdated.epoch.symm.trans hfits.checked
  have hmod : entry.slot.begun % 4294967296 = attempt.checked % 4294967296 := by
    have := congrArg UInt32.toNat hsame
    simpa using this
  exact (Nat.modEq_iff_dvd' (hdated.past.trans hfits.after)).mp hmod

/-- At every moment of every run the slots are in one place each, frames are sent at most once
and in the order of the queue, and the counters balance with the calls and frames that are under
way. The last check before an attempt finds no mount change since the call of `submit` began,
short of 2^32 of them. -/
theorem usb_queue_accounts (eventWait : Bool) (events : List Event) :
    (Queue.initial.run eventWait events).Partitioned ∧
    (Queue.initial.run eventWait events).sentNumbers.Pairwise (· < ·) ∧
    (∀ number ∈ (Queue.initial.run eventWait events).sentNumbers,
      number ∈ (Queue.initial.run eventWait events).attempts.map Attempt.number) ∧
    ((Queue.initial.run eventWait events).attempts.map Attempt.number).Pairwise (· ≤ ·) ∧
    (∀ attempt ∈ (Queue.initial.run eventWait events).attempts, ∃ entry,
      (Queue.initial.run eventWait events).published[attempt.number]? = some entry ∧
        attempt.Timely entry) ∧
    (Queue.initial.run eventWait events).Balanced ∧
    ((Queue.initial.run eventWait events).calls = [] →
      (Queue.initial.run eventWait events).stats.submitted =
        (Queue.initial.run eventWait events).stats.classified) := by
  have h := @Queue.Sound.run _ eventWait initial_sound events
  refine ⟨h.partitioned, h.inOrder.sent, h.inOrder.sentTried, h.inOrder.attempted,
    fun attempt hattempt => h.inOrder.timely hattempt, h.balanced, fun hnone => ?_⟩
  rw [h.balanced.submitted, hnone, total_nil, add_zero]

def submitted (data : Bytes) : List Event :=
  .submit (some data) :: List.replicate 7 (.produce 0 false)

/-- The host is mounted again after the last check: the frame is sent all the same. A call that
is counted as submitted is in no other counter until it got its slot. -/
theorem mounted_after_check :
    (∃ attempt entry,
      (Queue.initial.run true ([.init true, .setReady true] ++ submitted [1] ++
        List.replicate 7 (.work .ok false) ++ [.mount] ++
        List.replicate 2 (.work .ok false))).attempts = [attempt] ∧
      (Queue.initial.run true ([.init true, .setReady true] ++ submitted [1] ++
        List.replicate 7 (.work .ok false) ++ [.mount] ++
        List.replicate 2 (.work .ok false))).published = [entry] ∧
      (Queue.initial.run true ([.init true, .setReady true] ++ submitted [1] ++
        List.replicate 7 (.work .ok false) ++ [.mount] ++
        List.replicate 2 (.work .ok false))).sentNumbers = [0] ∧
      entry.enqueuedAt < attempt.handed) ∧
    (Queue.initial.run true [.init true, .setReady true, .submit (some [1]), .produce 0 false,
      .produce 0 false]).stats.submitted ≠
      (Queue.initial.run true [.init true, .setReady true, .submit (some [1]), .produce 0 false,
        .produce 0 false]).stats.classified := by
  refine ⟨⟨_, _, rfl, rfl, rfl, ?_⟩, by decide⟩
  decide

end Meshpn.Device.Usb
