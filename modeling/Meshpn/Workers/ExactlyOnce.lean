import Meshpn.Mesh.Delivery
import Meshpn.Workers.Paths
import Meshpn.Workers.PipelineSafety

/-!
When a callback is called exactly once: unless the main thread does its job and the callback
throws on the result, or its bytes were transferred with an earlier job. In every run the
callbacks that wait are those of jobs without an answer, and each is called with what became
of its own job.
-/

namespace Meshpn.Workers

open Meshpn.Lib Meshpn.Mesh

section

variable {Seed Input Output : Type} {jobs : Jobs Seed Input Output}
  {s : Pipeline Input Output}

/-- Whether the main thread does a job of this kind. -/
def Pipeline.fallsBack (s : Pipeline Input Output) (kind : Kind) (posting : Posting) : Bool :=
  !s.alive || (s.side kind).inboxes.isEmpty ||
    decide (maxPending ≤ (s.side kind).pending.length) || posting == .refused

/-- A callback does not throw on a result of the main thread, and the bytes of a job that is
posted are still there. -/
def Pipeline.Calm (jobs : Jobs Seed Input Output) (s : Pipeline Input Output) :
    Event Seed Input Output → Prop
  | .submit kind input throws seed posting =>
    if s.fallsBack kind posting then
      ∀ output, jobs.fallback kind seed input = some output → throws (.result output) = false
    else posting ≠ .gone
  | _ => True

def Pipeline.CalmRun (jobs : Jobs Seed Input Output) :
    Pipeline Input Output → List (Event Seed Input Output) → Prop
  | _, [] => True
  | s, event :: events => s.Calm jobs event ∧ (s.step jobs event).CalmRun jobs events

/-- No callback was called with its own error, and none was given up. -/
def Pipeline.Clean (s : Pipeline Input Output) : Prop :=
  s.abandoned = [] ∧ ∀ call ∈ s.calls, call.2.isThrown = false

theorem clean_iff {t : Pipeline Input Output} {new : List (Submission Input Output × Reply Output)}
    (habandoned : t.abandoned = s.abandoned) (hcalls : t.calls = s.calls ++ new)
    (hnew : ∀ call ∈ new, call.2.isThrown = false) : t.Clean ↔ s.Clean := by
  unfold Pipeline.Clean
  rw [habandoned, hcalls]
  constructor
  · rintro ⟨hnone, hall⟩
    exact ⟨hnone, fun call hcall => hall call (List.mem_append_left _ hcall)⟩
  · rintro ⟨hnone, hall⟩
    exact ⟨hnone, fun call hcall => (List.mem_append.mp hcall).elim (hall call) (hnew call)⟩

theorem flush_clean (kind : Kind) : (s.flush kind).Clean ↔ s.Clean := by
  refine clean_iff rfl rfl fun call hcall => ?_
  obtain ⟨entry, -, rfl⟩ := List.mem_map.mp hcall
  rfl

theorem onResult_clean (kind : Kind) (jobId : Nat) (outcome : Option Output) :
    (s.onResult kind jobId outcome).Clean ↔ s.Clean := by
  unfold Pipeline.onResult
  dsimp only
  split
  case h_1 => exact Iff.rfl
  rename_i id submission _
  refine clean_iff rfl rfl fun call hcall => ?_
  rw [List.mem_singleton.mp hcall]
  cases outcome with
  | none => rfl
  | some output => rfl

theorem runFallback_clean (submission : Submission Input Output) (outcome : Option Output) :
    (s.runFallback submission outcome).Clean ↔ s.Clean ∧
      ∀ output, outcome = some output → submission.throws (.result output) = false := by
  unfold Pipeline.runFallback
  cases outcome with
  | none =>
    have hsame : (s.call submission .failed).Clean ↔ s.Clean :=
      clean_iff rfl rfl fun call hcall => by rw [List.mem_singleton.mp hcall]; rfl
    simpa using hsame
  | some output =>
    have hsame : (s.call submission (.result output)).Clean ↔ s.Clean :=
      clean_iff rfl rfl fun call hcall => by rw [List.mem_singleton.mp hcall]; rfl
    dsimp only
    split
    case isTrue hthrows =>
      refine iff_of_false (fun hclean => ?_) fun ⟨_, hquiet⟩ => ?_
      · have := hclean.2 (submission, .thrown) (List.mem_append_right _ (List.mem_singleton_self _))
        cases this
      · rw [hquiet output rfl] at hthrows
        cases hthrows
    case isFalse hquiet =>
      rw [hsame]
      refine (and_iff_left fun other hother => ?_).symm
      rw [← Option.some.inj hother]
      exact Bool.eq_false_iff.mpr hquiet

theorem submit_clean (kind : Kind) (input : Input) (throws : Reply Output → Bool) (seed : Seed)
    (posting : Posting) :
    (s.submit jobs kind input throws seed posting).Clean ↔
      s.Clean ∧ s.Calm jobs (.submit kind input throws seed posting) := by
  unfold Pipeline.submit Pipeline.Calm
  dsimp only
  have hback : ∀ {t : Pipeline Input Output} (number : Nat), (t.Clean ↔ s.Clean) →
      s.fallsBack kind posting = true →
      ((t.runFallback ⟨number, kind, input, throws⟩ (jobs.fallback kind seed input)).Clean ↔
        s.Clean ∧ if s.fallsBack kind posting = true then
          ∀ output, jobs.fallback kind seed input = some output →
            throws (.result output) = false else posting ≠ .gone) := by
    intro t number hsame hback
    rw [runFallback_clean, hsame, if_pos hback]
  split
  case isTrue hidle =>
    refine hback s.submitted.length Iff.rfl ?_
    simp only [Pipeline.fallsBack, hidle, Bool.true_or]
  rename_i hbusy
  split
  case isTrue hfull =>
    refine hback s.submitted.length Iff.rfl ?_
    simp only [Pipeline.fallsBack, hfull, decide_true, Bool.or_true, Bool.true_or]
  rename_i hroom
  have hposted : posting ≠ .refused → s.fallsBack kind posting = false := by
    intro hposting
    have := Bool.eq_false_iff.mpr hbusy
    simp only [Pipeline.fallsBack, this, decide_eq_false hroom, Bool.false_or,
      beq_eq_false_iff_ne.mpr hposting]
  cases posting with
  | taken =>
    rw [hposted (by decide), if_neg (by decide)]
    exact (and_iff_left (by decide)).symm
  | refused =>
    refine hback s.submitted.length Iff.rfl ?_
    simp only [Pipeline.fallsBack, beq_self_eq_true, Bool.or_true]
  | gone =>
    rw [hposted (by decide), if_neg (by decide)]
    refine iff_of_false (fun hclean => ?_) fun h => h.2 rfl
    exact absurd hclean.1 (List.append_ne_nil_of_right_ne_nil _ (List.cons_ne_nil _ _))

theorem step_clean (event : Event Seed Input Output) :
    (s.step jobs event).Clean ↔ s.Clean ∧ s.Calm jobs event := by
  cases event with
  | submit kind input throws seed posting => exact submit_clean kind input throws seed posting
  | work kind worker seed =>
    refine Iff.trans ?_ (and_iff_left trivial).symm
    unfold Pipeline.step
    dsimp only
    split
    case h_1 => exact Iff.rfl
    case h_2 => exact Iff.rfl
  | deliver kind answer =>
    refine Iff.trans ?_ (and_iff_left trivial).symm
    unfold Pipeline.step
    dsimp only
    split
    case h_1 => exact Iff.rfl
    case h_2 => exact onResult_clean kind _ _
  | lose kind answer =>
    refine Iff.trans ?_ (and_iff_left trivial).symm
    exact Iff.rfl
  | crash kind worker =>
    refine Iff.trans ?_ (and_iff_left trivial).symm
    unfold Pipeline.step
    dsimp only
    split
    case isTrue => exact Iff.rfl
    split
    case isTrue => exact flush_clean kind
    case isFalse => exact Iff.rfl
  | terminate =>
    refine Iff.trans ?_ (and_iff_left trivial).symm
    exact (flush_clean .rx).trans (flush_clean .tx)
  | exited =>
    refine Iff.trans ?_ (and_iff_left trivial).symm
    change (if s.alive then s else s.clearInboxes).Clean ↔ s.Clean
    split
    case isTrue => exact Iff.rfl
    case isFalse => exact Iff.rfl

theorem run_clean (events : List (Event Seed Input Output)) :
    (s.run jobs events).Clean ↔ s.Clean ∧ s.CalmRun jobs events := by
  induction events generalizing s with
  | nil => exact (and_iff_left trivial).symm
  | cons event events ih =>
    rw [Pipeline.CalmRun, ← and_assoc, ← step_clean]
    exact ih

theorem invocations_eq (s : Pipeline Input Output) (number : Nat) :
    s.invocations number = s.settlements number +
      s.calls.countP fun call => call.1.number == number && call.2.isThrown := by
  unfold Pipeline.invocations Pipeline.settlements
  induction s.calls with
  | nil => rfl
  | cons call calls ih =>
    rw [List.countP_cons, List.countP_cons, List.countP_cons, ih]
    cases call.1.number == number <;> cases call.2.isThrown <;>
      simp only [Bool.not_true, Bool.not_false, Bool.and_true, Bool.and_false, if_true,
        Bool.false_eq_true, if_false] <;> omega

theorem Pipeline.Sound.settled_of_thrown {done : Nat} (h : s.Sound jobs done)
    {call : Submission Input Output × Reply Output} (hcall : call ∈ s.calls)
    (hthrown : call.2.isThrown = true) : 1 ≤ s.settlements call.1.number := by
  obtain ⟨submission, reply⟩ := call
  cases reply with
  | thrown =>
    obtain ⟨-, output, hresult⟩ := h.calls _ hcall
    exact List.countP_pos_iff.mpr ⟨_, hresult, by simp [Reply.isThrown]⟩
  | result output => cases hthrown
  | failed => cases hthrown
  | flushed => cases hthrown

/-- In a sound state every callback is called once or waits, if and only if the state is clean. -/
theorem Pipeline.Sound.once_iff (h : s.Sound jobs s.submitted.length) :
    (∀ number, number < s.submitted.length → s.invocations number + s.waits number = 1) ↔
      s.Clean := by
  constructor
  · intro honce
    have hnothrow : ∀ call ∈ s.calls, call.2.isThrown = false := by
      intro call hcall
      refine Bool.eq_false_iff.mpr fun hthrown => ?_
      have hbelow : call.1.number < s.submitted.length :=
        (List.getElem?_eq_some_iff.mp (h.calls call hcall).1).1
      have hsettled := h.settled_of_thrown hcall hthrown
      have hagain : 0 < s.calls.countP fun other =>
          other.1.number == call.1.number && other.2.isThrown :=
        List.countP_pos_iff.mpr ⟨call, hcall, by simp [hthrown]⟩
      have := honce _ hbelow
      rw [invocations_eq] at this
      omega
    refine ⟨List.eq_nil_iff_forall_not_mem.mpr fun number hgone => ?_, hnothrow⟩
    have hcount := h.count number
    have habandoned := List.count_pos_iff.mpr hgone
    have hbelow : number < s.submitted.length := by
      by_contra hnot
      rw [if_neg hnot] at hcount
      omega
    have hnone : s.calls.countP (fun call => call.1.number == number && call.2.isThrown) = 0 := by
      refine List.countP_eq_zero.mpr fun call hcall => ?_
      rw [hnothrow call hcall, Bool.and_false]
      exact Bool.false_ne_true
    have := honce number hbelow
    rw [if_pos hbelow] at hcount
    rw [invocations_eq] at this
    omega
  · intro hclean number hbelow
    have hcount := h.count number
    rw [hclean.1, List.count_nil, if_pos hbelow, Nat.add_zero] at hcount
    have hnothrow : s.calls.countP (fun call => call.1.number == number && call.2.isThrown) =
        0 := by
      refine List.countP_eq_zero.mpr fun call hcall => ?_
      rw [hclean.2 call hcall, Bool.and_false]
      exact Bool.false_ne_true
    rw [invocations_eq, hnothrow, Nat.add_zero]
    exact hcount

/-- No callback waits for a job that was answered, whose worker crashed, or after the end. -/
def Pipeline.Released (s t : Pipeline Input Output) : Event Seed Input Output → Prop
  | .deliver kind answer => ∀ jobId outcome,
      (s.side kind).answers[answer]? = some (jobId, outcome) →
        ∀ entry ∈ (t.side kind).pending, entry.1 ≠ jobId
  | .crash kind worker => s.alive = true → worker < (s.side kind).inboxes.length →
      (t.side kind).pending = []
  | .terminate => ∀ kind, (t.side kind).pending = []
  | _ => True

theorem flush_self (kind : Kind) : ((s.flush kind).side kind).pending = [] := by
  change ((s.setSide kind _).side kind).pending = []
  rw [setSide_self]

theorem flush_other {kind other : Kind} (h : other ≠ kind) :
    (s.flush kind).side other = s.side other :=
  setSide_other h _

theorem step_released (s : Pipeline Input Output) (event : Event Seed Input Output) :
    s.Released (s.step jobs event) event := by
  cases event with
  | deliver kind answer =>
    intro jobId outcome hanswer entry hentry
    unfold Pipeline.step at hentry
    dsimp only at hentry
    rw [hanswer] at hentry
    unfold Pipeline.onResult at hentry
    dsimp only at hentry
    split at hentry
    case h_1 hnone => simpa using List.find?_eq_none.mp hnone entry hentry
    change entry ∈ ((Pipeline.setSide _ kind _).side kind).pending at hentry
    rw [setSide_self] at hentry
    simpa using (List.mem_filter.mp hentry).2
  | crash kind worker =>
    intro halive hworker
    unfold Pipeline.step
    dsimp only
    rw [if_neg (Nat.not_le.mpr hworker)]
    exact (if_pos halive).symm ▸ flush_self kind
  | terminate =>
    intro kind
    cases kind with
    | rx => exact flush_self .rx
    | tx =>
      change (((Pipeline.flush _ .tx).flush .rx).side .tx).pending = []
      rw [flush_other (by decide)]
      exact flush_self .tx
  | submit kind input throws seed posting => trivial
  | work kind worker seed => trivial
  | lose kind answer => trivial
  | exited => trivial

/-- Where a pipeline is after these events. -/
def Pipeline.after (jobs : Jobs Seed Input Output) (enabled : Bool) (pool : Kind → Nat)
    (events : List (Event Seed Input Output)) : Pipeline Input Output :=
  (Pipeline.init enabled pool).run jobs events

/-- Every callback was called once, or waits and was not called. -/
def Pipeline.ExactlyOnce (s : Pipeline Input Output) : Prop :=
  ∀ number, number < s.submitted.length → s.invocations number + s.waits number = 1

/-- Every call is of a callback that was submitted, with what became of its own job. -/
def Pipeline.OwnCalls (jobs : Jobs Seed Input Output) (s : Pipeline Input Output) : Prop :=
  ∀ call ∈ s.calls, s.submitted[call.1.number]? = some call.1 ∧ s.Own jobs call.1 call.2

end

/-- In every run each callback is called exactly once or still waits, if and only if no callback
throws on a result of the main thread and no job is posted whose bytes are gone. Whatever
happens, each is called with what became of its own job, and none waits for a job that is
over. What is received is the same on both paths if and only if the packet names its flow,
and what is sent differs in the flow id and the nonces only. -/
theorem pipeline_calls_once {Seed' Input Output Key Nonce : Type}
    (jobs : Jobs Seed' Input Output) (enabled : Bool) (pool : Kind → Nat)
    (events : List (Event Seed' Input Output)) (aead : Aead Key Nonce)
    (parse : Bytes → Option Json) (nonces others : Nat → Nonce) :
    ((Pipeline.after jobs enabled pool events).ExactlyOnce ↔
      (Pipeline.init enabled pool).CalmRun jobs events) ∧
    (Pipeline.after jobs enabled pool events).OwnCalls jobs ∧
    (∀ event, (Pipeline.after jobs enabled pool events).Released
      (Pipeline.after jobs enabled pool (events ++ [event])) event) ∧
    (∀ job : RxJob Key, (∀ generated other,
      (nodeJobs aead parse).worker .rx ⟨nonces, generated⟩ (.inr job) =
        (nodeJobs aead parse).fallback .rx ⟨others, other⟩ (.inr job)) ↔
      job.Settled aead parse) ∧
    ∀ (job : TxJob Key) generated other, ∃ made made',
      (nodeJobs aead parse).worker .tx ⟨nonces, generated⟩ (.inl job) = made.map .inl ∧
      (nodeJobs aead parse).fallback .tx ⟨others, other⟩ (.inl job) = made'.map .inl ∧
      TxAgree aead job made made' := by
  have hsound := @run_sound Seed' Input Output jobs enabled pool events
  refine ⟨?_, hsound.calls, fun event => ?_, fun job => ?_, fun job generated other => ?_⟩
  · have hclean : (Pipeline.init enabled pool : Pipeline Input Output).Clean :=
      ⟨rfl, fun call hcall => by cases hcall⟩
    exact hsound.once_iff.trans ((run_clean events).trans (and_iff_right hclean))
  · unfold Pipeline.after Pipeline.run
    rw [List.foldl_append]
    exact step_released _ event
  · rw [← rx_paths_agree]
    refine forall_congr' fun generated => forall_congr' fun other => ?_
    exact (Option.map_injective Sum.inr_injective).eq_iff
  · exact ⟨_, _, rfl, rfl, tx_paths_agree aead job ⟨nonces, generated⟩ ⟨others, other⟩⟩

/-- Throws on a result. -/
def choosy {Output : Type} : Reply Output → Bool
  | .result _ => true
  | _ => false

/-- A direct packet without a flow id, whose payload opens under the key 5. -/
def unnamedFlow : RxJob UInt8 :=
  { data := [2, 8, 0, 0, 1, 0, 0, 0, 0, 0] ++ List.replicate 48 0 ++ Bytes.ofUInt32 29 ++
      tagged.encrypt 5 () [9]
    sessionKey := 5
    peerId := [97]
    packetType := .dataDirect }

/-- The flow of what was received. -/
def flowOf : Option (TxResult ⊕ Received) → Option Id
  | some (.inr (.packet _ _ _ _ packetMeta)) => some packetMeta.flowId
  | _ => none

/-- A callback that throws on the result of the main thread is called again with its own error,
one whose bytes are gone is not called at all, and a packet that names no flow gets another
name on each path. -/
theorem callback_called_twice :
    (∃ jobs : Jobs Unit Unit Unit,
      (Pipeline.after jobs true (fun _ => 1)
        [.terminate, .submit .tx () choosy () .taken]).invocations 0 = 2 ∧
      (Pipeline.after jobs true (fun _ => 1) [.submit .tx () choosy () .gone]).invocations 0 = 0 ∧
      (Pipeline.after jobs true (fun _ => 1) [.submit .tx () choosy () .gone]).waits 0 = 0) ∧
    ∃ parse, (nodeJobs tagged parse).worker .rx ⟨fun _ => (), [97]⟩ (.inr unnamedFlow) ≠
      (nodeJobs tagged parse).fallback .rx ⟨fun _ => (), [98]⟩ (.inr unnamedFlow) := by
  refine ⟨⟨⟨fun _ _ _ => some (), fun _ _ _ => some ()⟩, rfl, rfl, rfl⟩, fun _ => none, ?_⟩
  have hworker : flowOf ((nodeJobs tagged fun _ => none).worker .rx ⟨fun _ => (), [97]⟩
      (.inr unnamedFlow)) = some [97] := by decide +kernel
  have hfallback : flowOf ((nodeJobs tagged fun _ => none).fallback .rx ⟨fun _ => (), [98]⟩
      (.inr unnamedFlow)) = some [98] := by decide +kernel
  intro hsame
  rw [hsame, hfallback] at hworker
  exact absurd hworker (by decide)

end Meshpn.Workers
