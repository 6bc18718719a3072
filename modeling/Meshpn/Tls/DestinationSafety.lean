import Meshpn.Tls.DestinationTargets

/-!
What the exit connects to, in every run of its requests. The targets that a
request has tried, followed by those it may still try, do not change while it
works through them, and each of them is justified from the moment it is chosen.
-/

namespace Meshpn.Tls.Destination

variable {net : Net}

def Progress.rest : Progress → List Target
  | .resolved (.ok targets) => targets
  | .connecting _ rest => rest
  | .attempted _ rest _ => rest
  | _ => []

def Progress.target? : Progress → Option Target
  | .connecting target _ => some target
  | .attempted target _ _ => some target
  | .returned target _ => some target
  | _ => none

/-- What holds of a request from its start to its end. -/
structure Request.Sound (net : Net) (route : Option PinnedRoute) (request : Request) : Prop where
  racing : request.progress = .racing → request.lookup = true ∧ request.port.isSome = true
  waiting : request.lookup = true → request.answer = none ∧ request.attempts = [] ∧
    request.progress.rest = [] ∧ request.progress.target? = none
  planned : Allowed net route request (request.attempts ++ request.progress.rest)
  current : ∀ target, request.progress.target? = some target → target ∈ request.attempts
  returned : ∀ target peer, request.progress = .returned target peer →
    peerAllowed net target peer = true

variable {route : Option PinnedRoute} {request : Request}

theorem Allowed.congr {targets : List Target} {other : Request}
    (h : Allowed net route request targets) (hhost : other.hostname = request.hostname)
    (hport : other.port = request.port) (hanswer : other.answer = request.answer) :
    Allowed net route other targets := by
  refine ⟨fun target htarget => ?_, h.different⟩
  obtain ⟨htargetPort, hpublic, hsource⟩ := h.justified target htarget
  exact ⟨hport.trans htargetPort, hpublic, by rw [hhost, hanswer]; exact hsource⟩

theorem Request.Sound.stop (h : request.Sound net route) (error : DestinationError) :
    { request with progress := .threw error }.Sound net route := by
  refine ⟨nofun, fun hlookup => ?_, ?_, nofun, nofun⟩
  · obtain ⟨hanswer, hattempts, _, _⟩ := h.waiting hlookup
    exact ⟨hanswer, hattempts, rfl, rfl⟩
  · have hattempts : Allowed net route request request.attempts :=
      ⟨fun target htarget => h.planned.justified target (List.mem_append_left _ htarget),
        (List.pairwise_append.mp h.planned.different).1⟩
    rw [show request.attempts ++ (Progress.threw error).rest = request.attempts from
      List.append_nil _]
    exact hattempts.congr rfl rfl rfl

theorem Request.Sound.tryNext (h : request.Sound net route) {targets : List Target}
    (hrest : request.progress.rest = targets)
    (hready : request.lookup = true → targets = []) :
    (request.tryNext targets).Sound net route := by
  rcases targets with _ | ⟨target, rest⟩
  · exact h.stop .destination
  rw [Request.tryNext]
  split
  case isTrue => exact h.stop .aborted
  refine ⟨nofun, fun hlookup => ?_, ?_, fun other hother => ?_, nofun⟩
  · exact absurd (hready hlookup) (List.cons_ne_nil _ _)
  · have hplanned := h.planned
    rw [hrest] at hplanned
    rw [List.append_cons] at hplanned
    exact hplanned.congr rfl rfl rfl
  · cases hother
    exact List.mem_append_right _ List.mem_cons_self

theorem Request.Sound.resume (h : request.Sound net route) :
    (request.resume net).Sound net route := by
  unfold Request.resume
  split
  case h_1 error hprogress => exact h.stop error
  case h_2 targets hprogress =>
    split
    case isTrue => exact h.stop .aborted
    have hrest : request.progress.rest = targets := by rw [hprogress]; rfl
    refine h.tryNext hrest fun hlookup => ?_
    rw [← hrest]
    exact (h.waiting hlookup).2.2.1
  case h_3 target rest outcome hprogress =>
    have hrest : request.progress.rest = rest := by rw [hprogress]; rfl
    have hcurrent : target ∈ request.attempts := h.current target (by rw [hprogress]; rfl)
    have hlookup : ¬request.lookup = true := by
      intro hlookup
      have hnone := (h.waiting hlookup).2.2.2
      rw [hprogress] at hnone
      cases hnone
    split
    case isTrue => exact h.stop .aborted
    split
    case h_1 peer =>
      split
      case isTrue hallowed =>
        refine ⟨nofun, fun hpending => absurd hpending hlookup, ?_, fun other hother => ?_, ?_⟩
        · have hstopped := (h.stop .aborted).planned
          exact hstopped.congr rfl rfl rfl
        · cases hother
          exact hcurrent
        · intro other peer' hreturned
          cases hreturned
          exact hallowed
      case isFalse => exact h.stop .destinationPeer
    case h_2 => exact h.stop .connect
    case h_3 =>
      split
      case h_1 => exact h.stop .exhausted
      case h_2 => exact h.tryNext hrest fun hpending => absurd hpending hlookup
  case h_4 => exact h

theorem Request.Sound.abort (h : request.Sound net route) : request.abort.Sound net route := by
  unfold Request.abort
  split
  case isTrue => exact h
  dsimp only
  split
  case h_1 hprogress =>
    obtain ⟨hanswer, hattempts, _, _⟩ := h.waiting (h.racing hprogress).1
    refine ⟨nofun, fun _ => ⟨hanswer, hattempts, rfl, rfl⟩, ?_, nofun, nofun⟩
    rw [hattempts]
    exact Allowed.nil
  case h_2 target rest hprogress =>
    refine ⟨nofun, fun hlookup => ?_, ?_, fun other hother => ?_, nofun⟩
    · have hnone := (h.waiting hlookup).2.2.2
      rw [hprogress] at hnone
      cases hnone
    · have hplanned := h.planned
      rw [hprogress] at hplanned
      exact hplanned.congr rfl rfl rfl
    · cases hother
      exact h.current target (by rw [hprogress]; rfl)
  case h_3 =>
    exact ⟨h.racing, h.waiting, h.planned.congr rfl rfl rfl, h.current, h.returned⟩

theorem Request.Sound.attempt (h : request.Sound net route) (outcome : Outcome) :
    (request.attempt outcome).Sound net route := by
  unfold Request.attempt
  split
  case h_1 target rest hprogress =>
    refine ⟨nofun, fun hlookup => ?_, ?_, fun other hother => ?_, nofun⟩
    · have hnone := (h.waiting hlookup).2.2.2
      rw [hprogress] at hnone
      cases hnone
    · have hplanned := h.planned
      rw [hprogress] at hplanned
      exact hplanned.congr rfl rfl rfl
    · cases hother
      exact h.current target (by rw [hprogress]; rfl)
  case h_2 => exact h

theorem Request.Sound.settle (h : request.Sound net route) (hlookup : request.lookup = true)
    (answer : Answer) : (request.settle net answer).Sound net route := by
  obtain ⟨_, hattempts, hrest, htarget⟩ := h.waiting hlookup
  unfold Request.settle
  dsimp only
  split
  case h_1 port hprogress hport =>
    refine ⟨nofun, nofun, ?_, nofun, nofun⟩
    rw [hattempts, List.nil_append]
    cases hresult : resolveAnswer net answer port with
    | error error => exact Allowed.nil
    | ok targets => exact resolveAnswer_ok hresult hport rfl
  case h_2 hother =>
    refine ⟨fun hracing => ?_, nofun, ?_, fun target hsome => ?_, fun target peer hreturned => ?_⟩
    · obtain ⟨port, hport⟩ := Option.isSome_iff_exists.mp (h.racing hracing).2
      exact absurd hport (hother port hracing)
    · rw [hattempts, hrest]
      exact Allowed.nil
    · rw [htarget] at hsome
      cases hsome
    · rw [hreturned] at htarget
      cases htarget

structure Exit.Sound (net : Net) (route : Option PinnedRoute) (exit : Exit) : Prop where
  policy : PolicyOf net route exit.policy
  requests : ∀ request ∈ exit.requests, request.Sound net route
  pending : exit.pending = exit.requests.countP (·.lookup)
  bounded : exit.pending ≤ exitDnsMaxPending

theorem mem_modify {α : Type} {items : List α} {index : Nat} {f : α → α} {item : α}
    (h : item ∈ items.modify index f) :
    item ∈ items ∨ ∃ old, items[index]? = some old ∧ item = f old := by
  induction items generalizing index with
  | nil => simp at h
  | cons first items ih =>
    cases index with
    | zero =>
      rw [List.modify_zero_cons] at h
      rcases List.mem_cons.mp h with rfl | hrest
      · exact Or.inr ⟨first, rfl, rfl⟩
      · exact Or.inl (List.mem_cons_of_mem _ hrest)
    | succ index =>
      rw [List.modify_succ_cons] at h
      rcases List.mem_cons.mp h with rfl | hrest
      · exact Or.inl List.mem_cons_self
      rcases ih hrest with hmem | ⟨old, hold, hitem⟩
      · exact Or.inl (List.mem_cons_of_mem _ hmem)
      · exact Or.inr ⟨old, hold, hitem⟩

theorem countP_modify {α : Type} {p : α → Bool} {items : List α} {index : Nat} {f : α → α}
    {old : α} (h : items[index]? = some old) :
    (items.modify index f).countP p + (if p old then 1 else 0) =
      items.countP p + (if p (f old) then 1 else 0) := by
  induction items generalizing index with
  | nil => cases h
  | cons first items ih =>
    cases index with
    | zero =>
      cases h
      rw [List.modify_zero_cons, List.countP_cons, List.countP_cons]
      omega
    | succ index =>
      have hrest := ih h
      rw [List.modify_succ_cons, List.countP_cons, List.countP_cons]
      omega

theorem modify_none {α : Type} {items : List α} {index : Nat} {f : α → α}
    (h : items[index]? = none) : items.modify index f = items :=
  List.modify_eq_self (List.getElem?_eq_none_iff.mp h)

variable {exit : Exit}

theorem Exit.Sound.update (h : exit.Sound net route) (index : Nat) {f : Request → Request}
    (hsound : ∀ request : Request, request.Sound net route → (f request).Sound net route)
    (hlookup : ∀ request, (f request).lookup = request.lookup) :
    (exit.update index f).Sound net route := by
  refine ⟨h.policy, fun request hrequest => ?_, ?_, h.bounded⟩
  · rcases mem_modify hrequest with hmem | ⟨old, hold, rfl⟩
    · exact h.requests request hmem
    · exact hsound old (h.requests old (List.mem_of_getElem? hold))
  · change exit.pending = (exit.requests.modify index f).countP (·.lookup)
    rw [h.pending]
    rcases hold : exit.requests[index]? with _ | old
    · rw [modify_none hold]
    have hcount := @countP_modify _ (·.lookup) exit.requests index f old hold
    rw [hlookup old] at hcount
    omega

theorem Request.resume_lookup (request : Request) :
    (request.resume net).lookup = request.lookup := by
  have hnext : ∀ targets, (request.tryNext targets).lookup = request.lookup := by
    intro targets
    cases targets with
    | nil => rfl
    | cons target rest =>
      rw [Request.tryNext]
      split <;> rfl
  unfold Request.resume
  split
  · rfl
  · split
    · rfl
    · exact hnext _
  · split
    · rfl
    · split
      · split <;> rfl
      · rfl
      · split
        · rfl
        · exact hnext _
  · rfl

theorem Request.abort_lookup (request : Request) : request.abort.lookup = request.lookup := by
  unfold Request.abort
  split
  · rfl
  · dsimp only
    split <;> rfl

theorem Request.attempt_lookup (request : Request) (outcome : Outcome) :
    (request.attempt outcome).lookup = request.lookup := by
  unfold Request.attempt
  split <;> rfl

theorem Request.settle_lookup (request : Request) (answer : Answer) :
    (request.settle net answer).lookup = false := by
  unfold Request.settle
  dsimp only
  split <;> rfl

theorem Exit.Sound.append (h : exit.Sound net route) {request : Request}
    (hrequest : request.Sound net route) (hlookup : request.lookup = false) :
    { exit with requests := exit.requests ++ [request] }.Sound net route := by
  refine ⟨h.policy, fun other hother => ?_, ?_, h.bounded⟩
  · rcases List.mem_append.mp hother with hmem | hlast
    · exact h.requests other hmem
    · rw [List.mem_singleton.mp hlast]
      exact hrequest
  · rw [h.pending]
    simp [List.countP_append, hlookup]

theorem Exit.Sound.accept (h : exit.Sound net route) (hostname : Text) (port : Option Int)
    (aborted : Bool) : (exit.request net hostname port aborted).Sound net route := by
  unfold Exit.request
  dsimp only
  split
  case isTrue =>
    exact h.append ⟨nofun, nofun, Allowed.nil, nofun, nofun⟩ rfl
  split
  case h_1 error hresolve =>
    exact h.append ⟨nofun, nofun, Allowed.nil, nofun, nofun⟩ rfl
  case h_2 targets hresolve =>
    exact h.append ⟨nofun, nofun, resolve_ok h.policy hresolve rfl rfl rfl, nofun, nofun⟩ rfl
  case h_3 hresolve =>
    obtain ⟨hport, hroom⟩ := resolve_lookup hresolve
    refine ⟨h.policy, fun other hother => ?_, ?_, hroom⟩
    · rcases List.mem_append.mp hother with hmem | hlast
      · exact h.requests other hmem
      · rw [List.mem_singleton.mp hlast]
        exact ⟨fun _ => ⟨rfl, hport⟩, fun _ => ⟨rfl, rfl, rfl, rfl⟩, Allowed.nil, nofun, nofun⟩
    · simp [List.countP_append, h.pending]

theorem Exit.Sound.settle (h : exit.Sound net route) (index : Nat) (answer : Answer) :
    (exit.step net (.settle index answer)).Sound net route := by
  simp only [Exit.step]
  split
  case h_1 => exact h
  rename_i old hold
  obtain ⟨hsome, hlookup⟩ := Option.filter_eq_some_iff.mp hold
  have hcount := @countP_modify _ (·.lookup) exit.requests index (·.settle net answer) old hsome
  rw [if_pos hlookup, Request.settle_lookup, if_neg Bool.false_ne_true] at hcount
  have hbounded := h.bounded
  refine ⟨h.policy, fun request hrequest => ?_, ?_, ?_⟩
  · rcases mem_modify hrequest with hmem | ⟨other, hother, rfl⟩
    · exact h.requests request hmem
    · rw [hsome, Option.some.injEq] at hother
      subst hother
      exact (h.requests old (List.mem_of_getElem? hsome)).settle hlookup answer
  · change exit.pending - 1 =
      (exit.requests.modify index (·.settle net answer)).countP (·.lookup)
    rw [h.pending]
    omega
  · change exit.pending - 1 ≤ exitDnsMaxPending
    omega

theorem Exit.Sound.step (h : exit.Sound net route) (event : Event) :
    (exit.step net event).Sound net route := by
  cases event with
  | request hostname port aborted => exact h.accept hostname port aborted
  | settle index answer => exact h.settle index answer
  | attempt index outcome =>
    exact h.update index (fun _ hrequest => hrequest.attempt outcome)
      fun request => request.attempt_lookup outcome
  | abort index => exact h.update index (fun _ hrequest => hrequest.abort) Request.abort_lookup
  | resume index => exact h.update index (fun _ hrequest => hrequest.resume) Request.resume_lookup

theorem Exit.Sound.run (h : exit.Sound net route) (events : List Event) :
    (exit.run net events).Sound net route := by
  induction events generalizing exit with
  | nil => exact h
  | cons event events ih => exact ih (h.step event)

def Request.Over (request : Request) (attempts : List Target) : Prop :=
  request.aborted = true ∧ request.attempts = attempts

variable {attempts : List Target}

theorem Request.Over.resume (h : request.Over attempts) : (request.resume net).Over attempts := by
  unfold Request.resume
  split
  · exact h
  · rw [if_pos h.1]
    exact h
  · rw [if_pos h.1]
    exact h
  · exact h

theorem Request.Over.abort (h : request.Over attempts) : request.abort.Over attempts := by
  rw [Request.abort, if_pos h.1]
  exact h

theorem Request.Over.attempt (h : request.Over attempts) (outcome : Outcome) :
    (request.attempt outcome).Over attempts := by
  unfold Request.attempt
  split <;> exact h

theorem Request.Over.settle (h : request.Over attempts) (answer : Answer) :
    (request.settle net answer).Over attempts := by
  unfold Request.settle
  dsimp only
  split <;> exact h

def Exit.Over (exit : Exit) (index : Nat) (attempts : List Target) : Prop :=
  ∃ request, exit.requests[index]? = some request ∧ request.Over attempts

theorem Exit.Over.modify {index : Nat} (h : exit.Over index attempts) {place : Nat}
    {f : Request → Request} (hf : ∀ request : Request, request.Over attempts →
      (f request).Over attempts) : (exit.update place f).Over index attempts := by
  obtain ⟨old, hold, hover⟩ := h
  by_cases hplace : place = index
  · subst hplace
    refine ⟨f old, ?_, hf old hover⟩
    rw [Exit.update, List.getElem?_modify_eq, hold]
    rfl
  · refine ⟨old, ?_, hover⟩
    rw [Exit.update, List.getElem?_modify_ne _ _ hplace, hold]

theorem Exit.Over.step {index : Nat} (h : exit.Over index attempts) (event : Event) :
    (exit.step net event).Over index attempts := by
  cases event with
  | request hostname port aborted =>
    obtain ⟨old, hold, hover⟩ := h
    have hlength := (List.getElem?_eq_some_iff.mp hold).1
    refine ⟨old, ?_, hover⟩
    have happend : ∀ new : Request, (exit.requests ++ [new])[index]? = some old := fun new => by
      rw [List.getElem?_append_left hlength, hold]
    simp only [Exit.step, Exit.request]
    split
    · exact happend _
    split
    · exact happend _
    · exact happend _
    · exact happend _
  | settle place answer =>
    simp only [Exit.step]
    split
    · exact h
    · exact h.modify fun _ hover => hover.settle answer
  | attempt place outcome => exact h.modify fun _ hover => hover.attempt outcome
  | abort place => exact h.modify fun _ hover => hover.abort
  | resume place => exact h.modify fun _ hover => hover.resume

theorem Exit.Over.run {index : Nat} (h : exit.Over index attempts) (events : List Event) :
    (exit.run net events).Over index attempts := by
  induction events generalizing exit with
  | nil => exact h
  | cons event events ih => exact ih (h.step event)

def IsPeer (net : Net) (target : Target) (peer : Peer) : Prop :=
  peer.port = some target.port ∧ ∃ address ip tried, peer.address = some address ∧
    net.parseIp address = some ip ∧ net.parseIp target.address = some tried ∧
      ip.number = tried.number

theorem isPeer_of_allowed {target : Target} {peer : Peer}
    (h : peerAllowed net target peer = true) : IsPeer net target peer := by
  unfold peerAllowed at h
  split at h
  · cases h
  rename_i address haddress
  split at h
  case h_1 ip tried hip htried =>
    simp only [Bool.and_eq_true, beq_iff_eq, single_contains] at h
    exact ⟨h.1.1, address, ip, tried, haddress, hip, htried, h.2⟩
  case h_2 => cases h

def sampleNet : Net where
  parseIp text := if text = "8.8.8.8".toList then some (.v4 0x08080808) else none
  colon text bits h := by
    split at h <;> cases h

end Meshpn.Tls.Destination
