import Meshpn.Workers.Pipeline

/-!
How often a callback is called. Every submission is settled once or still waits, whatever
happens to the workers; a callback is called once more where the main thread did its job
and it threw on the result, since `_fallbackTx` and `_fallbackRx` catch what it throws with
what the job throws.
-/

namespace Meshpn.Workers

variable {Seed Input Output : Type} {jobs : Jobs Seed Input Output}
  {s : Pipeline Input Output} {done : Nat}

def Reply.isThrown : Reply Output → Bool
  | .thrown => true
  | _ => false

def Pipeline.invocations (s : Pipeline Input Output) (number : Nat) : Nat :=
  s.calls.countP fun call => call.1.number == number

def Pipeline.settlements (s : Pipeline Input Output) (number : Nat) : Nat :=
  s.calls.countP fun call => call.1.number == number && !call.2.isThrown

def Side.waits (side : Side Input Output) (number : Nat) : Nat :=
  side.pending.countP fun entry => entry.2.number == number

def Pipeline.waits (s : Pipeline Input Output) (number : Nat) : Nat :=
  (s.side .tx).waits number + (s.side .rx).waits number

@[simp] theorem setSide_self (kind : Kind) (side : Side Input Output) :
    (s.setSide kind side).side kind = side := Function.update_self _ _ _

theorem setSide_other {kind other : Kind} (h : other ≠ kind) (side : Side Input Output) :
    (s.setSide kind side).side other = s.side other := Function.update_of_ne h _ _

@[simp] theorem setSide_submitted (kind : Kind) (side : Side Input Output) :
    (s.setSide kind side).submitted = s.submitted := rfl

@[simp] theorem setSide_calls (kind : Kind) (side : Side Input Output) :
    (s.setSide kind side).calls = s.calls := rfl

@[simp] theorem setSide_abandoned (kind : Kind) (side : Side Input Output) :
    (s.setSide kind side).abandoned = s.abandoned := rfl

@[simp] theorem setSide_jobId (kind : Kind) (side : Side Input Output) :
    (s.setSide kind side).jobId = s.jobId := rfl

/-- A callback is called with what became of its own job. -/
def Pipeline.Own (jobs : Jobs Seed Input Output) (s : Pipeline Input Output)
    (submission : Submission Input Output) : Reply Output → Prop
  | .result output => ∃ seed,
      jobs.worker submission.kind seed submission.input = some output ∨
      jobs.fallback submission.kind seed submission.input = some output
  | .failed => ∃ seed, jobs.worker submission.kind seed submission.input = none ∨
      jobs.fallback submission.kind seed submission.input = none
  | .flushed => True
  | .thrown => ∃ output, (submission, .result output) ∈ s.calls

/-- What holds when the first `done` submissions have been dealt with. -/
structure Pipeline.Sound (jobs : Jobs Seed Input Output) (s : Pipeline Input Output)
    (done : Nat) : Prop where
  ids : ∀ kind, ((s.side kind).pending.map Prod.fst).Nodup
  entries : ∀ kind, ∀ entry ∈ (s.side kind).pending, entry.1 < s.jobId ∧ entry.2.kind = kind ∧
    s.submitted[entry.2.number]? = some entry.2
  inboxes : ∀ kind, ∀ inbox ∈ (s.side kind).inboxes, ∀ job ∈ inbox, job.1 < s.jobId ∧
    ∀ submission, (job.1, submission) ∈ (s.side kind).pending → submission.input = job.2
  answers : ∀ kind, ∀ answer ∈ (s.side kind).answers, answer.1 < s.jobId ∧
    ∀ submission, (answer.1, submission) ∈ (s.side kind).pending →
      ∃ seed, jobs.worker kind seed submission.input = answer.2
  calls : ∀ call ∈ s.calls, s.submitted[call.1.number]? = some call.1 ∧ s.Own jobs call.1 call.2
  count : ∀ number, s.settlements number + s.waits number + s.abandoned.count number =
    if number < done then 1 else 0

theorem init_sound (enabled : Bool) (pool : Kind → Nat) :
    (Pipeline.init enabled pool : Pipeline Input Output).Sound jobs 0 := by
  refine ⟨fun _ => List.nodup_nil, fun _ entry h => ?_, fun _ inbox h job hjob => ?_,
    fun _ answer h => ?_, fun call h => ?_, fun number => rfl⟩
  · cases h
  · rw [List.eq_of_mem_replicate h] at hjob
    cases hjob
  · cases h
  · cases h

/-- What does not touch the callbacks: jobs are dropped, and answers are what a worker makes
of a job in its inbox. -/
structure Aside (jobs : Jobs Seed Input Output) (s t : Pipeline Input Output) : Prop where
  pending : ∀ kind, (t.side kind).pending = (s.side kind).pending
  jobId : s.jobId ≤ t.jobId
  submitted : t.submitted = s.submitted
  calls : t.calls = s.calls
  abandoned : t.abandoned = s.abandoned
  inboxes : ∀ kind, ∀ inbox ∈ (t.side kind).inboxes, ∀ job ∈ inbox,
    ∃ before ∈ (s.side kind).inboxes, job ∈ before
  answers : ∀ kind, ∀ answer ∈ (t.side kind).answers, answer ∈ (s.side kind).answers ∨
    ∃ inbox ∈ (s.side kind).inboxes, ∃ job ∈ inbox, ∃ seed,
      answer = (job.1, jobs.worker kind seed job.2)

variable {submission : Submission Input Output} {kind : Kind}

theorem Pipeline.Own.mono {t : Pipeline Input Output}
    {reply : Reply Output} (h : s.Own jobs submission reply)
    (hcalls : ∀ call ∈ s.calls, call ∈ t.calls) : t.Own jobs submission reply := by
  cases reply with
  | result output => exact h
  | failed => exact h
  | flushed => trivial
  | thrown =>
    obtain ⟨output, hmem⟩ := h
    exact ⟨output, hcalls _ hmem⟩

theorem Pipeline.Sound.aside {t : Pipeline Input Output} (h : s.Sound jobs done)
    (haside : Aside jobs s t) : t.Sound jobs done := by
  have hjobId := haside.jobId
  refine ⟨fun kind => ?_, fun kind entry hentry => ?_, fun kind inbox hinbox job hjob => ?_,
    fun kind answer hanswer => ?_, fun call hcall => ?_, fun number => ?_⟩
  · rw [haside.pending]
    exact h.ids kind
  · rw [haside.pending] at hentry
    obtain ⟨hlow, hkind, hknown⟩ := h.entries kind entry hentry
    exact ⟨by omega, hkind, by rw [haside.submitted]; exact hknown⟩
  · obtain ⟨before, hbefore, hmem⟩ := haside.inboxes kind inbox hinbox job hjob
    obtain ⟨hlow, hinput⟩ := h.inboxes kind before hbefore job hmem
    rw [haside.pending]
    exact ⟨by omega, hinput⟩
  · rw [haside.pending]
    rcases haside.answers kind answer hanswer with hold | ⟨inbox, hinbox, job, hjob, seed, rfl⟩
    · obtain ⟨hlow, hmade⟩ := h.answers kind answer hold
      exact ⟨by omega, hmade⟩
    · obtain ⟨hlow, hinput⟩ := h.inboxes kind inbox hinbox job hjob
      refine ⟨by dsimp only; omega, fun submission hsubmission => ⟨seed, ?_⟩⟩
      rw [hinput submission hsubmission]
  · rw [haside.calls] at hcall
    obtain ⟨hknown, hown⟩ := h.calls call hcall
    rw [haside.submitted]
    exact ⟨hknown, hown.mono fun other hother => by rw [haside.calls]; exact hother⟩
  · have hcount := h.count number
    simp only [settlements, waits, Side.waits, haside.pending, haside.calls,
      haside.abandoned] at hcount ⊢
    exact hcount

theorem aside_setSide {side : Side Input Output}
    (hpending : side.pending = (s.side kind).pending)
    (hinboxes : ∀ inbox ∈ side.inboxes, ∀ job ∈ inbox,
      ∃ before ∈ (s.side kind).inboxes, job ∈ before)
    (hanswers : ∀ answer ∈ side.answers, answer ∈ (s.side kind).answers ∨
      ∃ inbox ∈ (s.side kind).inboxes, ∃ job ∈ inbox, ∃ seed,
        answer = (job.1, jobs.worker kind seed job.2)) :
    Aside jobs s (s.setSide kind side) := by
  refine ⟨fun other => ?_, Nat.le_refl _, rfl, rfl, rfl, fun other => ?_, fun other => ?_⟩
  · by_cases hsame : other = kind
    case pos => rw [hsame, setSide_self, hpending]
    case neg => rw [setSide_other hsame]
  · by_cases hsame : other = kind
    case pos =>
      rw [hsame, setSide_self]
      exact hinboxes
    case neg =>
      rw [setSide_other hsame]
      exact fun inbox hinbox job hjob => ⟨inbox, hinbox, hjob⟩
  · by_cases hsame : other = kind
    case pos =>
      rw [hsame, setSide_self]
      exact hanswers
    case neg =>
      rw [setSide_other hsame]
      exact fun answer hanswer => .inl hanswer

theorem countP_filter_ne {α : Type} {entries : List (Nat × α)} {entry : Nat × α}
    (hids : (entries.map Prod.fst).Nodup) (hmem : entry ∈ entries) (p : Nat × α → Bool) :
    (entries.filter (·.1 != entry.1)).countP p + (if p entry then 1 else 0) =
      entries.countP p := by
  induction entries with
  | nil => cases hmem
  | cons head rest ih =>
    rw [List.map_cons, List.nodup_cons] at hids
    rcases List.mem_cons.mp hmem with rfl | hrest
    · have hkeep : rest.filter (·.1 != entry.1) = rest := by
        refine List.filter_eq_self.mpr fun other hother => ?_
        have : other.1 ≠ entry.1 := fun hsame =>
          hids.1 (hsame ▸ List.mem_map_of_mem hother)
        simpa using this
      rw [List.filter_cons_of_neg (by simp), hkeep, List.countP_cons]
    · have : head.1 ≠ entry.1 := fun hsame => hids.1 (hsame ▸ List.mem_map_of_mem hrest)
      rw [List.filter_cons_of_pos (by simpa using this), List.countP_cons, List.countP_cons]
      have := ih hids.2 hrest
      omega

theorem Pipeline.Sound.settle {side : Side Input Output}
    {calls : List (Submission Input Output × Reply Output)} (h : s.Sound jobs done)
    (hpending : ∀ entry ∈ side.pending, entry ∈ (s.side kind).pending)
    (hids : (side.pending.map Prod.fst).Nodup)
    (hinboxes : side.inboxes = (s.side kind).inboxes)
    (hanswers : side.answers = (s.side kind).answers)
    (hcalls : ∀ call ∈ calls, ∃ entry ∈ (s.side kind).pending, entry.2 = call.1 ∧
      s.Own jobs call.1 call.2 ∧ call.2.isThrown = false)
    (hcount : ∀ number, side.waits number + calls.countP (fun call => call.1.number == number) =
      (s.side kind).waits number) :
    ({ s.setSide kind side with calls := s.calls ++ calls } : Pipeline Input Output).Sound jobs
      done := by
  have hside : ∀ other, ∀ entry ∈ ((s.setSide kind side).side other).pending,
      entry ∈ (s.side other).pending := by
    intro other entry hentry
    by_cases hsame : other = kind
    case pos =>
      rw [hsame, setSide_self] at hentry
      rw [hsame]
      exact hpending entry hentry
    case neg =>
      rw [setSide_other hsame] at hentry
      exact hentry
  refine ⟨fun other => ?_, fun other entry hentry => h.entries other entry (hside other entry hentry),
    fun other inbox hinbox job hjob => ?_, fun other answer hanswer => ?_, fun call hcall => ?_,
    fun number => ?_⟩
  · by_cases hsame : other = kind
    case pos =>
      dsimp only
      rw [hsame, setSide_self]
      exact hids
    case neg =>
      dsimp only
      rw [setSide_other hsame]
      exact h.ids other
  · have hbefore : inbox ∈ (s.side other).inboxes := by
      dsimp only at hinbox
      by_cases hsame : other = kind
      case pos =>
        rw [hsame, setSide_self, hinboxes] at hinbox
        rw [hsame]
        exact hinbox
      case neg =>
        rw [setSide_other hsame] at hinbox
        exact hinbox
    obtain ⟨hlow, hinput⟩ := h.inboxes other inbox hbefore job hjob
    exact ⟨hlow, fun submission hmem => hinput submission (hside other _ hmem)⟩
  · have hbefore : answer ∈ (s.side other).answers := by
      dsimp only at hanswer
      by_cases hsame : other = kind
      case pos =>
        rw [hsame, setSide_self, hanswers] at hanswer
        rw [hsame]
        exact hanswer
      case neg =>
        rw [setSide_other hsame] at hanswer
        exact hanswer
    obtain ⟨hlow, hmade⟩ := h.answers other answer hbefore
    exact ⟨hlow, fun submission hmem => hmade submission (hside other _ hmem)⟩
  · have hold : ∀ other ∈ s.calls, other ∈ s.calls ++ calls := fun other hother =>
      List.mem_append_left _ hother
    rcases List.mem_append.mp hcall with hbefore | hnew
    · obtain ⟨hknown, hown⟩ := h.calls call hbefore
      exact ⟨hknown, hown.mono hold⟩
    · obtain ⟨entry, hentry, hsame, hown, -⟩ := hcalls call hnew
      refine ⟨?_, hown.mono hold⟩
      rw [← hsame]
      exact (h.entries kind entry hentry).2.2
  · have hbefore := h.count number
    have hmoved := hcount number
    have hsettled : calls.countP (fun call => call.1.number == number && !call.2.isThrown) =
        calls.countP (fun call => call.1.number == number) := by
      refine List.countP_congr fun call hcall => ?_
      obtain ⟨-, -, -, -, hreply⟩ := hcalls call hcall
      rw [hreply, Bool.not_false, Bool.and_true]
    simp only [settlements, waits, setSide_abandoned] at hbefore ⊢
    rw [List.countP_append, hsettled]
    cases kind with
    | tx =>
      rw [setSide_self, setSide_other (by decide)]
      omega
    | rx =>
      rw [setSide_self, setSide_other (by decide)]
      omega

theorem Pipeline.Sound.flush (h : s.Sound jobs done) (kind : Kind) : (s.flush kind).Sound jobs done := by
  refine h.settle (fun entry hentry => by cases hentry) List.nodup_nil rfl rfl ?_ ?_
  · intro call hcall
    obtain ⟨entry, hentry, rfl⟩ := List.mem_map.mp hcall
    exact ⟨entry, hentry, rfl, trivial, rfl⟩
  · intro number
    rw [List.countP_map]
    exact Nat.zero_add _

theorem Pipeline.Sound.onResult {jobId : Nat} {outcome : Option Output}
    (h : s.Sound jobs done) (hmade : ∀ submission, (jobId, submission) ∈ (s.side kind).pending →
      ∃ seed, jobs.worker kind seed submission.input = outcome) :
    (s.onResult kind jobId outcome).Sound jobs done := by
  unfold Pipeline.onResult
  dsimp only
  split
  case h_1 => exact h
  rename_i id submission hfound
  have hmem := List.mem_of_find?_eq_some hfound
  have hid : id = jobId := by simpa using List.find?_some hfound
  subst hid
  obtain ⟨-, hkind, -⟩ := h.entries kind _ hmem
  obtain ⟨seed, hout⟩ := hmade submission hmem
  refine h.settle (fun entry hentry => (List.mem_filter.mp hentry).1) ?_ rfl rfl ?_ ?_
  · exact (h.ids kind).sublist ((List.filter_sublist).map _)
  · intro call hcall
    rw [List.mem_singleton.mp hcall]
    refine ⟨_, hmem, rfl, ?_, ?_⟩
    · cases outcome with
      | none => exact ⟨seed, .inl (by rw [hkind]; exact hout)⟩
      | some output => exact ⟨seed, .inl (by rw [hkind]; exact hout)⟩
    · cases outcome with
      | none => rfl
      | some output => rfl
  · intro number
    rw [List.countP_singleton]
    exact countP_filter_ne (h.ids kind) hmem fun entry => entry.2.number == number

theorem one_more {tally done number : Nat} (h : tally = if number < done then 1 else 0) :
    tally + (if done == number then 1 else 0) = if number < done + 1 then 1 else 0 := by
  rw [h]
  simp only [beq_iff_eq]
  rcases Nat.lt_trichotomy number done with hlow | rfl | hhigh
  · rw [if_pos hlow, if_neg (by omega), if_pos (by omega)]
  · rw [if_neg (Nat.lt_irrefl _), if_pos rfl, if_pos (Nat.lt_succ_self _)]
  · rw [if_neg (by omega), if_neg (by omega), if_neg (by omega)]

theorem Pipeline.Sound.announce (h : s.Sound jobs s.submitted.length)
    (submission : Submission Input Output) :
    ({ s with submitted := s.submitted ++ [submission] } : Pipeline Input Output).Sound jobs
      s.submitted.length := by
  have hold : ∀ {number : Nat} {known : Submission Input Output},
      s.submitted[number]? = some known →
      (s.submitted ++ [submission])[number]? = some known := by
    intro number known hknown
    rw [List.getElem?_append_left (List.getElem?_eq_some_iff.mp hknown).1]
    exact hknown
  refine ⟨h.ids, fun kind entry hentry => ?_, h.inboxes, h.answers, fun call hcall => ?_, h.count⟩
  · obtain ⟨hlow, hkind, hknown⟩ := h.entries kind entry hentry
    exact ⟨hlow, hkind, hold hknown⟩
  · obtain ⟨hknown, hown⟩ := h.calls call hcall
    exact ⟨hold hknown, hown.mono fun _ hother => hother⟩

theorem Pipeline.Sound.call {next : Nat}
    {reply : Reply Output} (h : s.Sound jobs done)
    (hknown : s.submitted[submission.number]? = some submission)
    (hown : s.Own jobs submission reply)
    (hcount : ∀ number, (s.call submission reply).settlements number + s.waits number +
      s.abandoned.count number = if number < next then 1 else 0) :
    (s.call submission reply).Sound jobs next := by
  have hold : ∀ other ∈ s.calls, other ∈ s.calls ++ [(submission, reply)] := fun other hother =>
    List.mem_append_left _ hother
  refine ⟨h.ids, h.entries, h.inboxes, h.answers, fun call hcall => ?_, hcount⟩
  rcases List.mem_append.mp hcall with hbefore | hnew
  · obtain ⟨hbefore, howned⟩ := h.calls call hbefore
    exact ⟨hbefore, howned.mono hold⟩
  · rw [List.mem_singleton.mp hnew]
    exact ⟨hknown, hown.mono hold⟩

theorem call_settlements (s : Pipeline Input Output) (submission : Submission Input Output)
    (reply : Reply Output) (number : Nat) :
    (s.call submission reply).settlements number = s.settlements number +
      if submission.number == number && !reply.isThrown then 1 else 0 := by
  unfold Pipeline.settlements Pipeline.call
  rw [List.countP_append, List.countP_singleton]

theorem Pipeline.Sound.runFallback
    {outcome : Option Output} (h : s.Sound jobs submission.number)
    (hknown : s.submitted[submission.number]? = some submission)
    (hmade : ∃ seed, jobs.fallback submission.kind seed submission.input = outcome) :
    (s.runFallback submission outcome).Sound jobs (submission.number + 1) := by
  obtain ⟨seed, hmade⟩ := hmade
  have hnext : ∀ reply : Reply Output, reply.isThrown = false → ∀ number,
      (s.call submission reply).settlements number + s.waits number +
        s.abandoned.count number = if number < submission.number + 1 then 1 else 0 := by
    intro reply hreply number
    have hbefore := h.count number
    rw [call_settlements, hreply, Bool.not_false, Bool.and_true]
    have := one_more hbefore
    omega
  rcases outcome with _ | output
  · exact h.call hknown ⟨seed, .inr hmade⟩ (hnext _ rfl)
  have hcalled : (s.call submission (.result output)).Sound jobs (submission.number + 1) :=
    h.call hknown ⟨seed, .inr hmade⟩ (hnext _ rfl)
  unfold Pipeline.runFallback
  dsimp only
  split
  case isTrue =>
    refine hcalled.call hknown ⟨output, List.mem_append_right _ (List.mem_singleton_self _)⟩ ?_
    intro number
    rw [call_settlements, Reply.isThrown, Bool.not_true, Bool.and_false]
    exact hcalled.count number
  case isFalse => exact hcalled

theorem Pipeline.Sound.abandon {number : Nat} (h : s.Sound jobs number) :
    ({ s with abandoned := s.abandoned ++ [number] } : Pipeline Input Output).Sound jobs
      (number + 1) := by
  refine ⟨h.ids, h.entries, h.inboxes, h.answers, fun call hcall => ?_, fun other => ?_⟩
  · obtain ⟨hknown, hown⟩ := h.calls call hcall
    exact ⟨hknown, hown.mono fun _ hother => hother⟩
  · have hbefore := h.count other
    change s.settlements other + s.waits other + (s.abandoned ++ [number]).count other = _
    rw [List.count_append, List.count_singleton]
    have := one_more hbefore
    omega

theorem post_self (s : Pipeline Input Output) (submission : Submission Input Output) :
    (s.post submission).side submission.kind =
      { s.side submission.kind with
        pending := (s.side submission.kind).pending ++ [(s.jobId, submission)]
        inboxes := (s.side submission.kind).inboxes.modify
          ((s.side submission.kind).turn % (s.side submission.kind).inboxes.length)
          (· ++ [(s.jobId, submission.input)])
        turn := (s.side submission.kind).turn + 1 } :=
  setSide_self _ _

theorem post_other
    (h : kind ≠ submission.kind) : (s.post submission).side kind = s.side kind :=
  setSide_other h _

theorem post_pending
    {entry : Nat × Submission Input Output}
    (h : entry ∈ ((s.post submission).side kind).pending) :
    entry ∈ (s.side kind).pending ∨ kind = submission.kind ∧ entry = (s.jobId, submission) := by
  by_cases hsame : kind = submission.kind
  case pos =>
    rw [hsame, post_self] at h
    rcases List.mem_append.mp h with hbefore | hnew
    · rw [hsame]
      exact .inl hbefore
    · exact .inr ⟨hsame, List.mem_singleton.mp hnew⟩
  case neg =>
    rw [post_other hsame] at h
    exact .inl h

theorem post_inbox
    {inbox : List (Nat × Input)} {job : Nat × Input}
    (hinbox : inbox ∈ ((s.post submission).side kind).inboxes) (hjob : job ∈ inbox) :
    (∃ before ∈ (s.side kind).inboxes, job ∈ before) ∨
      kind = submission.kind ∧ job = (s.jobId, submission.input) := by
  by_cases hsame : kind = submission.kind
  case pos =>
    rw [hsame, post_self] at hinbox
    obtain ⟨position, hget⟩ := List.mem_iff_getElem?.mp hinbox
    rw [List.getElem?_modify] at hget
    obtain ⟨before, hbefore, hmade⟩ := Option.map_eq_some_iff.mp hget
    have hin : before ∈ (s.side kind).inboxes := by
      rw [hsame]
      exact List.mem_iff_getElem?.mpr ⟨position, hbefore⟩
    split at hmade
    case isTrue =>
      rw [← hmade] at hjob
      rcases List.mem_append.mp hjob with hold | hnew
      · exact .inl ⟨before, hin, hold⟩
      · exact .inr ⟨hsame, List.mem_singleton.mp hnew⟩
    case isFalse =>
      rw [← hmade] at hjob
      exact .inl ⟨before, hin, hjob⟩
  case neg =>
    rw [post_other hsame] at hinbox
    exact .inl ⟨inbox, hinbox, hjob⟩

theorem post_answers (kind : Kind) (submission : Submission Input Output) :
    ((s.post submission).side kind).answers = (s.side kind).answers := by
  by_cases hsame : kind = submission.kind
  case pos => rw [hsame, post_self]
  case neg => rw [post_other hsame]

theorem post_waits (s : Pipeline Input Output) (submission : Submission Input Output)
    (number : Nat) : (s.post submission).waits number =
      s.waits number + if submission.number == number then 1 else 0 := by
  have hself : ((s.post submission).side submission.kind).waits number =
      (s.side submission.kind).waits number +
        if submission.number == number then 1 else 0 := by
    rw [post_self]
    unfold Side.waits
    rw [List.countP_append, List.countP_singleton]
  unfold Pipeline.waits
  cases hkind : submission.kind with
  | tx =>
    rw [hkind] at hself
    have hother : Kind.rx ≠ submission.kind := by rw [hkind]; decide
    rw [hself, post_other hother]
    omega
  | rx =>
    rw [hkind] at hself
    have hother : Kind.tx ≠ submission.kind := by rw [hkind]; decide
    rw [hself, post_other hother]
    omega

theorem Pipeline.Sound.post
    (h : s.Sound jobs submission.number)
    (hknown : s.submitted[submission.number]? = some submission) :
    (s.post submission).Sound jobs (submission.number + 1) := by
  have hpending : ∀ {kind : Kind} {id : Nat} {other : Submission Input Output},
      (id, other) ∈ ((s.post submission).side kind).pending → id < s.jobId →
      (id, other) ∈ (s.side kind).pending := by
    intro kind id other hmem hlow
    rcases post_pending hmem with hbefore | ⟨-, hnew⟩
    · exact hbefore
    · rw [(Prod.mk.inj hnew).1] at hlow
      exact absurd hlow (Nat.lt_irrefl _)
  refine ⟨fun kind => ?_, fun kind entry hentry => ?_, fun kind inbox hinbox job hjob => ?_,
    fun kind answer hanswer => ?_, h.calls, fun number => ?_⟩
  · by_cases hsame : kind = submission.kind
    case pos =>
      rw [hsame, post_self, List.map_append, List.nodup_append]
      refine ⟨h.ids _, List.nodup_singleton _, fun id hid other hother hclash => ?_⟩
      obtain ⟨entry, hentry, rfl⟩ := List.mem_map.mp hid
      have := (h.entries _ entry hentry).1
      rw [List.mem_singleton.mp hother] at hclash
      dsimp only at hclash
      omega
    case neg =>
      rw [post_other hsame]
      exact h.ids kind
  · have hnext : (s.post submission).jobId = s.jobId + 1 := rfl
    rcases post_pending hentry with hbefore | ⟨hkind, rfl⟩
    · obtain ⟨hlow, hsame, hthere⟩ := h.entries kind entry hbefore
      exact ⟨by omega, hsame, hthere⟩
    · exact ⟨Nat.lt_succ_self _, hkind.symm, hknown⟩
  · have hnext : (s.post submission).jobId = s.jobId + 1 := rfl
    rcases post_inbox hinbox hjob with ⟨before, hbefore, hmem⟩ | ⟨hkind, rfl⟩
    · obtain ⟨hlow, hinput⟩ := h.inboxes kind before hbefore job hmem
      exact ⟨by omega, fun other hother => hinput other (hpending hother hlow)⟩
    · refine ⟨Nat.lt_succ_self _, fun other hother => ?_⟩
      rcases post_pending hother with hbefore | ⟨-, hnew⟩
      · exact absurd (h.entries kind _ hbefore).1 (Nat.lt_irrefl _)
      · rw [(Prod.mk.inj hnew).2]
  · have hnext : (s.post submission).jobId = s.jobId + 1 := rfl
    rw [post_answers] at hanswer
    obtain ⟨hlow, hmade⟩ := h.answers kind answer hanswer
    exact ⟨by omega, fun other hother => hmade other (hpending hother hlow)⟩
  · have hbefore := h.count number
    change s.settlements number + (s.post submission).waits number +
      s.abandoned.count number = _
    rw [post_waits]
    have := one_more hbefore
    omega

theorem fallback_submitted (s : Pipeline Input Output) (submission : Submission Input Output)
    (outcome : Option Output) : (s.runFallback submission outcome).submitted = s.submitted := by
  unfold Pipeline.runFallback
  rcases outcome with _ | output
  · rfl
  dsimp only
  split
  case isTrue => rfl
  case isFalse => rfl

theorem submit_submitted (jobs : Jobs Seed Input Output) (s : Pipeline Input Output) (kind : Kind)
    (input : Input) (throws : Reply Output → Bool) (seed : Seed) (posting : Posting) :
    (s.submit jobs kind input throws seed posting).submitted =
      s.submitted ++ [⟨s.submitted.length, kind, input, throws⟩] := by
  unfold Pipeline.submit
  dsimp only
  split
  case isTrue => rw [fallback_submitted]
  split
  case isTrue => rw [fallback_submitted, setSide_submitted]
  cases posting with
  | taken => rfl
  | refused => rw [fallback_submitted]; rfl
  | gone => rfl

theorem skip_aside (s : Pipeline Input Output) (kind : Kind) : Aside jobs s (s.skip kind) := by
  have hturn : Aside jobs s (s.setSide kind
      { s.side kind with turn := (s.side kind).turn + 1 }) :=
    aside_setSide rfl (fun inbox hinbox job hjob => ⟨inbox, hinbox, hjob⟩)
      fun answer hanswer => .inl hanswer
  exact { hturn with jobId := Nat.le_succ _ }

theorem drop_aside (s : Pipeline Input Output) (kind : Kind) :
    Aside jobs s (s.setSide kind
      { s.side kind with dropped := (s.side kind).dropped + 1 }) :=
  aside_setSide rfl (fun inbox hinbox _ hjob => ⟨inbox, hinbox, hjob⟩)
    fun _ hanswer => .inl hanswer

theorem Pipeline.Sound.submit (h : s.Sound jobs s.submitted.length) (kind : Kind) (input : Input)
    (throws : Reply Output → Bool) (seed : Seed) (posting : Posting) :
    (s.submit jobs kind input throws seed posting).Sound jobs
      (s.submit jobs kind input throws seed posting).submitted.length := by
  rw [submit_submitted, List.length_append, List.length_singleton]
  have hannounced := h.announce ⟨s.submitted.length, kind, input, throws⟩
  have hknown : (s.submitted ++ [(⟨s.submitted.length, kind, input, throws⟩ :
      Submission Input Output)])[s.submitted.length]? =
        some ⟨s.submitted.length, kind, input, throws⟩ := List.getElem?_concat_length
  unfold Pipeline.submit
  dsimp only
  split
  case isTrue => exact hannounced.runFallback hknown ⟨seed, rfl⟩
  split
  case isTrue =>
    exact (hannounced.aside (drop_aside _ _)).runFallback hknown ⟨seed, rfl⟩
  case isFalse =>
    cases posting with
    | taken => exact hannounced.post hknown
    | refused => exact (hannounced.aside (skip_aside _ _)).runFallback hknown ⟨seed, rfl⟩
    | gone => exact (hannounced.aside (skip_aside _ _)).abandon

theorem onResult_submitted (s : Pipeline Input Output) (kind : Kind) (jobId : Nat)
    (outcome : Option Output) : (s.onResult kind jobId outcome).submitted = s.submitted := by
  unfold Pipeline.onResult
  dsimp only
  split
  case h_1 => rfl
  case h_2 => rfl

theorem dropAnswer_aside (s : Pipeline Input Output) (kind : Kind) (answer : Nat) :
    Aside jobs s (s.dropAnswer kind answer) :=
  aside_setSide rfl (fun inbox hinbox _ hjob => ⟨inbox, hinbox, hjob⟩)
    fun _ hanswer => .inl (List.mem_of_mem_eraseIdx hanswer)

theorem Pipeline.Sound.step (h : s.Sound jobs s.submitted.length)
    (event : Event Seed Input Output) :
    (s.step jobs event).Sound jobs (s.step jobs event).submitted.length := by
  cases event with
  | submit kind input throws seed posting => exact h.submit kind input throws seed posting
  | work kind worker seed =>
    unfold Pipeline.step
    dsimp only
    split
    case h_1 jobId input rest hinbox =>
      have hthere : ((jobId, input) :: rest) ∈ (s.side kind).inboxes :=
        List.mem_of_getElem? hinbox
      refine h.aside (aside_setSide rfl (fun inbox hin job hjob => ?_) fun answer hanswer => ?_)
      · obtain ⟨position, hget⟩ := List.mem_iff_getElem?.mp hin
        rw [List.getElem?_modify] at hget
        obtain ⟨before, hbefore, hmade⟩ := Option.map_eq_some_iff.mp hget
        refine ⟨before, List.mem_of_getElem? hbefore, ?_⟩
        split at hmade
        case isTrue => exact List.mem_of_mem_tail (hmade ▸ hjob)
        case isFalse => exact hmade ▸ hjob
      · rcases List.mem_append.mp hanswer with hold | hnew
        · exact .inl hold
        · rw [List.mem_singleton.mp hnew]
          exact .inr ⟨_, hthere, (jobId, input), List.mem_cons_self, seed, rfl⟩
    case h_2 => exact h
  | deliver kind answer =>
    unfold Pipeline.step
    dsimp only
    split
    case h_1 => exact h
    rename_i jobId outcome hget
    rw [onResult_submitted]
    refine (h.aside (dropAnswer_aside s kind answer)).onResult fun submission hmem => ?_
    unfold Pipeline.dropAnswer at hmem
    rw [setSide_self] at hmem
    exact (h.answers kind _ (List.mem_of_getElem? hget)).2 submission hmem
  | lose kind answer => exact h.aside (dropAnswer_aside s kind answer)
  | crash kind worker =>
    have hset : Aside jobs s (s.setSide kind
        { s.side kind with inboxes := (s.side kind).inboxes.set worker [] }) := by
      refine aside_setSide rfl (fun inbox hin job hjob => ?_) fun answer hanswer => .inl hanswer
      rcases List.mem_or_eq_of_mem_set hin with hold | hnew
      · exact ⟨inbox, hold, hjob⟩
      · rw [hnew] at hjob
        cases hjob
    unfold Pipeline.step
    dsimp only
    split
    case isTrue => exact h
    split
    case isTrue => exact (h.aside hset).flush kind
    case isFalse => exact h.aside hset
  | terminate =>
    have hdead : Aside jobs s { s with alive := false } :=
      ⟨fun _ => rfl, Nat.le_refl _, rfl, rfl, rfl,
        fun _ inbox hinbox job hjob => ⟨inbox, hinbox, hjob⟩, fun _ answer hanswer => .inl hanswer⟩
    exact ((h.aside hdead).flush .tx).flush .rx
  | exited =>
    change (if s.alive then s else s.clearInboxes).Sound jobs
      (if s.alive then s else s.clearInboxes).submitted.length
    split
    case isTrue => exact h
    exact h.aside ⟨fun _ => rfl, Nat.le_refl _, rfl, rfl, rfl,
      fun _ inbox hinbox => (List.not_mem_nil hinbox).elim, fun _ answer hanswer => .inl hanswer⟩

theorem Pipeline.Sound.run (h : s.Sound jobs s.submitted.length)
    (events : List (Event Seed Input Output)) :
    (s.run jobs events).Sound jobs (s.run jobs events).submitted.length := by
  induction events generalizing s with
  | nil => exact h
  | cons event events ih => exact ih (h.step event)

theorem run_sound (enabled : Bool) (pool : Kind → Nat) (events : List (Event Seed Input Output)) :
    ((Pipeline.init enabled pool).run jobs events).Sound jobs
      ((Pipeline.init enabled pool).run jobs events).submitted.length :=
  (init_sound enabled pool).run events

end Meshpn.Workers
