import Mathlib.Data.List.Induction
import Meshpn.Tls.RelaySession

/-!
What holds of a relay session in every run: an aborted session has no timer and has destroyed
what it owns, and its end is announced once, when its last socket has closed. A candidate that
is retired is the one socket whose closing ends nothing.
-/

namespace Meshpn.Tls.Session

namespace RelaySession

variable {s : RelaySession} {i : Nat} {socket next : Socket}

theorem idle_eq (s : RelaySession) : s.idle = !(s.sockets.map Socket.owned).any id := by
  rw [idle, List.any_map]
  rfl

variable {t : RelaySession}

theorem idle_of_owned
    (h : t.sockets.map Socket.owned = s.sockets.map Socket.owned) : t.idle = s.idle := by
  rw [idle_eq, idle_eq, h]

theorem put_owned (hsocket : s.sockets[i]? = some socket) (howned : next.owned = socket.owned) :
    (s.put i next).sockets.map Socket.owned = s.sockets.map Socket.owned := by
  rw [put, List.map_set, howned]
  apply List.ext_getElem?
  intro j
  rw [List.getElem?_set]
  split
  case isTrue heq =>
    subst heq
    rw [List.getElem?_map, hsocket]
    split
    · rfl
    rename_i hout
    rw [List.length_map] at hout
    exact absurd (List.getElem?_eq_some_iff.mp hsocket).1 hout
  case isFalse => rfl

theorem abortAttempt_fields (socket : Socket) :
    (abortAttempt socket).owned = socket.owned ∧ (abortAttempt socket).closed = socket.closed ∧
      (socket.destroyed = true → (abortAttempt socket).destroyed = true) := by
  unfold abortAttempt
  split
  · exact ⟨rfl, rfl, fun _ => rfl⟩
  · exact ⟨rfl, rfl, id⟩

structure Sound (s : RelaySession) : Prop where
  own : ∀ socket ∈ s.sockets, socket.owned = !socket.closed
  timers : s.aborted = true → s.timers = []
  state : s.aborted = true → s.state = .closed
  resolved : s.resolved.length = if s.aborted && s.idle then 1 else 0

def Torn (s : RelaySession) : Prop :=
  s.aborted = true → ∀ socket ∈ s.sockets, socket.owned = true → socket.destroyed = true

theorem torn_of_live (hlive : s.aborted = false) : s.Torn := fun h => by
  rw [hlive] at h
  cases h

theorem Sound.live (h : s.Sound) (hlive : s.aborted = false)
    (haborted : t.aborted = false) (hown : ∀ socket ∈ t.sockets, socket.owned = !socket.closed)
    (hresolved : t.resolved = s.resolved) : t.Sound where
  own := hown
  timers := fun h => by rw [haborted] at h; cases h
  state := fun h => by rw [haborted] at h; cases h
  resolved := by
    rw [hresolved, h.resolved, hlive, haborted]
    rfl

theorem Sound.put (h : s.Sound) (hsocket : s.sockets[i]? = some socket)
    (howned : next.owned = socket.owned) (hclosed : next.closed = socket.closed) :
    (s.put i next).Sound where
  own := fun other hother => by
    rcases List.mem_or_eq_of_mem_set hother with hold | rfl
    · exact h.own other hold
    · rw [howned, hclosed]
      exact h.own socket (List.mem_of_getElem? hsocket)
  timers := h.timers
  state := h.state
  resolved := by
    rw [idle_of_owned (put_owned hsocket howned)]
    exact h.resolved

theorem Torn.put (h : s.Torn) (hsocket : s.sockets[i]? = some socket)
    (howned : next.owned = true → socket.owned = true)
    (hdestroyed : socket.destroyed = true → next.destroyed = true) : (s.put i next).Torn := by
  intro haborted other hother hmine
  rcases List.mem_or_eq_of_mem_set hother with hold | rfl
  · exact h haborted other hold hmine
  · exact hdestroyed (h haborted socket (List.mem_of_getElem? hsocket) (howned hmine))

theorem Sound.cancelTimer (h : s.Sound) (t : Timer) : (s.cancelTimer t).Sound :=
  ⟨h.own, fun haborted => by rw [RelaySession.cancelTimer, h.timers haborted]; rfl, h.state,
    h.resolved⟩

theorem Sound.finish (h : s.Sound) (error : Option String) : (s.finish error).Sound := by
  unfold RelaySession.finish
  split
  case isTrue => exact h
  rename_i hlive
  have hnone : s.resolved = [] := by
    have hlength := h.resolved
    rw [Bool.not_eq_true] at hlive
    rw [hlive] at hlength
    exact List.length_eq_zero_iff.mp hlength
  have hown : ∀ socket ∈ s.sockets.map abortAttempt, socket.owned = !socket.closed := by
    intro socket hsocket
    obtain ⟨old, hold, rfl⟩ := List.mem_map.mp hsocket
    obtain ⟨hsame, hclosed, -⟩ := abortAttempt_fields old
    rw [hsame, hclosed]
    exact h.own old hold
  unfold resolveIdle
  split
  case isTrue hidle =>
    refine ⟨hown, fun _ => rfl, fun _ => rfl, ?_⟩
    have hidle' : idle { s with sockets := s.sockets.map abortAttempt } = true := hidle
    simp only [hnone, Bool.true_and]
    exact (if_pos hidle').symm
  case isFalse hidle =>
    refine ⟨hown, fun _ => rfl, fun _ => rfl, ?_⟩
    have hidle' : ¬ idle { s with sockets := s.sockets.map abortAttempt } = true := hidle
    simp only [hnone, Bool.true_and]
    exact (if_neg hidle').symm

theorem finish_aborted (s : RelaySession) (error : Option String) :
    (s.finish error).aborted = true := by
  unfold RelaySession.finish
  split
  case isTrue h => exact h
  unfold resolveIdle
  split <;> rfl

theorem finish_owned (s : RelaySession) (error : Option String) :
    (s.finish error).sockets.map Socket.owned = s.sockets.map Socket.owned := by
  have howned : (s.sockets.map abortAttempt).map Socket.owned = s.sockets.map Socket.owned := by
    rw [List.map_map]
    exact List.map_congr_left fun socket _ => (abortAttempt_fields socket).1
  unfold RelaySession.finish
  split
  case isTrue => rfl
  unfold resolveIdle
  split <;> exact howned

theorem destroyOwned_owned (s : RelaySession) :
    s.destroyOwned.sockets.map Socket.owned = s.sockets.map Socket.owned := by
  rw [destroyOwned, List.map_map]
  refine List.map_congr_left fun socket _ => ?_
  dsimp only [Function.comp_apply]
  split <;> rfl

theorem Sound.destroyOwned (h : s.Sound) : s.destroyOwned.Sound where
  own := fun socket hsocket => by
    obtain ⟨old, hold, rfl⟩ := List.mem_map.mp hsocket
    split
    · exact h.own old hold
    · exact h.own old hold
  timers := h.timers
  state := h.state
  resolved := by
    rw [idle_of_owned (destroyOwned_owned s)]
    exact h.resolved

theorem Sound.fail (h : s.Sound) (code : String) : (s.fail code).Sound := by
  unfold RelaySession.fail
  split
  case isTrue => exact h
  have hended := (h.finish (some code)).destroyOwned
  exact ⟨hended.own, hended.timers, hended.state, hended.resolved⟩

theorem Torn.fail (h : s.Torn) (code : String) : (s.fail code).Torn := by
  unfold RelaySession.fail
  split
  case isTrue => exact h
  intro _ socket hsocket hmine
  obtain ⟨old, -, rfl⟩ := List.mem_map.mp hsocket
  split at hmine
  case isTrue howned => rw [if_pos howned]
  case isFalse hnot => exact absurd hmine hnot

theorem fail_aborted (s : RelaySession) (code : String) : (s.fail code).aborted = true := by
  unfold RelaySession.fail
  split
  case isTrue h => exact h
  case isFalse => exact finish_aborted s (some code)

theorem fail_owned (s : RelaySession) (code : String) :
    (s.fail code).sockets.map Socket.owned = s.sockets.map Socket.owned := by
  unfold RelaySession.fail
  split
  case isTrue => rfl
  case isFalse => exact (destroyOwned_owned _).trans (finish_owned s (some code))

def Held (s : RelaySession) : Prop := s.idle = true → s.aborted = true

theorem held_of (h : s.aborted = true ∨ s.idle = false) : Held s := by
  intro hidle
  rcases h with haborted | hbusy
  · exact haborted
  · rw [hidle] at hbusy
    cases hbusy

/-- The session, and that it has destroyed what it owned where it is aborted. -/
structure Kept (s : RelaySession) : Prop where
  sound : s.Sound
  torn : s.Torn

/-- What a step does that neither adds a socket nor takes one away. -/
structure Aside (s t : RelaySession) : Prop where
  kept : s.Kept → t.Kept
  owned : t.sockets.map Socket.owned = s.sockets.map Socket.owned
  aborted : s.aborted = true → t.aborted = true

theorem Aside.refl (s : RelaySession) : Aside s s := ⟨id, rfl, id⟩

theorem Aside.trans {t u : RelaySession} (h : Aside s t) (h' : Aside t u) : Aside s u :=
  ⟨fun hs => h'.kept (h.kept hs), h'.owned.trans h.owned, fun hs => h'.aborted (h.aborted hs)⟩

theorem Aside.held (h : Aside s t) (hs : Held s) : Held t :=
  fun hidle => h.aborted (hs ((idle_of_owned h.owned).symm.trans hidle))

theorem aside_fail (s : RelaySession) (code : String) : Aside s (s.fail code) :=
  ⟨fun h => ⟨h.sound.fail code, h.torn.fail code⟩, fail_owned s code,
    fun _ => fail_aborted s code⟩

theorem aside_put (hsocket : s.sockets[i]? = some socket) (howned : next.owned = socket.owned)
    (hclosed : next.closed = socket.closed)
    (hdestroyed : socket.destroyed = true → next.destroyed = true) : Aside s (s.put i next) :=
  ⟨fun h => ⟨h.sound.put hsocket howned hclosed,
    h.torn.put hsocket (fun hmine => howned.symm.trans hmine) hdestroyed⟩,
    put_owned hsocket howned, id⟩

theorem aside_cancel (s : RelaySession) (t : Timer) : Aside s (s.cancelTimer t) :=
  ⟨fun h => ⟨h.sound.cancelTimer t, h.torn⟩, rfl, id⟩

theorem aside_live (hlive : s.aborted = false) (haborted : t.aborted = false)
    (hsockets : t.sockets = s.sockets) (hresolved : t.resolved = s.resolved) : Aside s t :=
  ⟨fun h => ⟨h.sound.live hlive haborted (hsockets ▸ h.sound.own) hresolved,
    torn_of_live haborted⟩, by rw [hsockets], fun h => by rw [hlive] at h; cases h⟩

theorem aside_attempt (hsocket : s.sockets[i]? = some socket)
    (h : s.attemptFailed i socket = some t) : Aside s t := by
  unfold attemptFailed at h
  split at h
  case h_1 => cases h
  case h_2 => cases h
  case h_3 =>
    cases h
    exact .refl s
  case h_4 =>
    cases h
    have hput : Aside s (s.put i { socket with attempt := some .failed, destroyed := true }) :=
      aside_put hsocket rfl rfl fun _ => rfl
    exact hput.trans (aside_cancel _ _)

theorem aside_socketFailed (hsocket : s.sockets[i]? = some socket) (code : String) :
    Aside s (s.socketFailed i socket code) := by
  unfold socketFailed
  cases hattempt : s.attemptFailed i socket with
  | none => exact aside_fail s code
  | some t => exact aside_attempt hsocket hattempt

theorem aside_ended (hsocket : s.sockets[i]? = some socket) : Aside s (s.ended i socket) := by
  unfold RelaySession.ended
  split
  case isTrue => exact aside_socketFailed hsocket _
  rename_i hstreaming
  split
  case isTrue => exact .refl s
  rw [not_not] at hstreaming
  refine ⟨fun h => ?_, rfl, id⟩
  have hlive : s.aborted = false := by
    rw [Bool.eq_false_iff]
    intro haborted
    rw [h.sound.state haborted] at hstreaming
    cases hstreaming
  have htimed : Aside s { s.startTimer .close with closing := true } :=
    aside_live hlive hlive rfl rfl
  exact htimed.kept h

theorem add_kept (h : s.Kept) (hlive : s.aborted = false) (given : Given)
    (attempt : Option Attempt) :
    (s.add given attempt).Kept ∧
      ((s.add given attempt).aborted = true ∨ (s.add given attempt).idle = false) := by
  have hmore : Kept { s with
      sockets := s.sockets ++ [⟨attempt, !given.closed, given.closed || given.destroyed,
        given.closed, false, false⟩] } := by
    refine ⟨h.sound.live hlive hlive (fun socket hsocket => ?_) rfl, torn_of_live hlive⟩
    rcases List.mem_append.mp hsocket with hold | hnew
    · exact h.sound.own socket hold
    · rw [List.mem_singleton.mp hnew]
  unfold RelaySession.add
  dsimp only
  split
  case isTrue => exact ⟨(aside_fail _ _).kept hmore, .inl (fail_aborted _ _)⟩
  rename_i hopen
  refine ⟨hmore, .inr ?_⟩
  rw [Bool.or_eq_true, not_or, Bool.not_eq_true] at hopen
  simp [idle, hopen.1]

theorem connect_kept (h : s.Kept) (given : Option Given) :
    (s.connect given).Kept ∧ (Held s → Held (s.connect given)) := by
  unfold RelaySession.connect
  split
  case isTrue => exact ⟨h, id⟩
  rename_i hlive
  rw [Bool.not_eq_true] at hlive
  have hstate : Aside s { s with state := .connecting } := aside_live hlive hlive rfl rfl
  rcases given with _ | given
  · exact ⟨hstate.kept h, hstate.held⟩
  obtain ⟨hadded, hheld⟩ := add_kept (hstate.kept h) hlive given none
  dsimp only
  split
  case isTrue => exact ⟨hadded, fun _ => held_of hheld⟩
  rename_i hgoes
  rw [Bool.or_eq_true, not_or, Bool.not_eq_true] at hgoes
  have hstarted := aside_live (t := RelaySession.startTimer _ (.connect s.sockets.length))
    hgoes.1 hgoes.1 rfl rfl
  exact ⟨hstarted.kept hadded, fun _ => hstarted.held (held_of hheld)⟩

theorem aside_watch (hlive : s.aborted = false) (i : Nat) (connected timeout : Bool) :
    Aside s (s.watch i connected timeout) := by
  unfold RelaySession.watch
  split
  case h_1 => exact .refl s
  rename_i socket hsocket
  split
  case isTrue => exact aside_put hsocket rfl rfl id
  split
  · exact aside_live hlive hlive rfl rfl
  · exact .refl s

theorem connectCandidate_kept (h : s.Kept) (given : Option Given) (timeout : Bool) :
    (s.connectCandidate given timeout).Kept ∧
      (Held s → Held (s.connectCandidate given timeout)) := by
  unfold RelaySession.connectCandidate
  split
  case isTrue => exact ⟨h, id⟩
  rename_i hlive
  rw [Bool.not_eq_true] at hlive
  have hstate : Aside s { s with state := .connecting } := aside_live hlive hlive rfl rfl
  rcases given with _ | given
  · exact ⟨hstate.kept h, hstate.held⟩
  obtain ⟨hadded, hheld⟩ := add_kept (hstate.kept h) hlive given (some .pending)
  dsimp only
  split
  case isTrue => exact ⟨hadded, fun _ => held_of hheld⟩
  rename_i hgoes
  rw [Bool.not_eq_true] at hgoes
  have hwatched := aside_watch hgoes s.sockets.length given.connected timeout
  exact ⟨hwatched.kept hadded, fun _ => hwatched.held (held_of hheld)⟩

theorem aside_onConnect (s : RelaySession) (i : Nat) : Aside s (s.onConnect i) := by
  unfold RelaySession.onConnect
  split
  case h_1 => exact .refl s
  rename_i socket hsocket
  split
  case isTrue => exact .refl s
  split
  · have hput : Aside s (s.put i { socket with attempt := some .connected }) :=
      aside_put hsocket rfl rfl id
    exact hput.trans (aside_cancel _ _)
  · exact aside_cancel _ _

theorem aside_onError (s : RelaySession) (i : Nat) : Aside s (s.onError i) := by
  unfold RelaySession.onError
  split
  case h_1 => exact .refl s
  rename_i socket hsocket
  split
  · exact aside_socketFailed hsocket _
  · exact .refl s

theorem put_get (hsocket : s.sockets[i]? = some socket) : (s.put i next).sockets[i]? = some next :=
  List.getElem?_set_self (List.getElem?_eq_some_iff.mp hsocket).1

theorem aside_onEnd (s : RelaySession) (i : Nat) : Aside s (s.onEnd i) := by
  unfold RelaySession.onEnd
  split
  case h_1 => exact .refl s
  rename_i socket hsocket
  split
  case isFalse => exact .refl s
  have hput : Aside s (s.put i { socket with readableEnded := true }) :=
    aside_put hsocket rfl rfl id
  exact hput.trans (aside_ended (put_get hsocket))

theorem aside_onFinish (s : RelaySession) (i : Nat) : Aside s (s.onFinish i) := by
  unfold RelaySession.onFinish
  split
  case h_1 => exact .refl s
  case h_2 socket hsocket => exact aside_put hsocket rfl rfl id

theorem aside_onLost (s : RelaySession) (i : Nat) : Aside s (s.onLost i) := by
  unfold RelaySession.onLost
  split
  case h_1 => exact .refl s
  case h_2 socket hsocket => exact aside_put hsocket rfl rfl fun _ => rfl

theorem aside_expire (s : RelaySession) (t : Timer) : Aside s (s.expire t) := by
  unfold RelaySession.expire
  split
  case isFalse => exact .refl s
  dsimp only
  split
  case h_1 i _ =>
    split
    case h_1 => exact aside_cancel s _
    rename_i socket hsocket
    cases hattempt : (s.cancelTimer (.attempt i)).attemptFailed i socket with
    | none => exact aside_cancel s _
    | some u => exact (aside_cancel s _).trans (aside_attempt hsocket hattempt)
  case h_2 => exact (aside_cancel s t).trans (aside_fail _ _)

/-- A candidate that was never connected closes as the last socket of a session that goes on. -/
def retiredLast (s : RelaySession) : Event → Bool
  | .onClose i =>
    match s.sockets[i]? with
    | none => false
    | some socket =>
      !s.aborted && socket.owned &&
        (socket.attempt == some .pending || socket.attempt == some .failed) &&
        (s.put i { socket with owned := false }).idle
  | _ => false

def leave (s : RelaySession) (i : Nat) (socket : Socket) : RelaySession :=
  s.put i { socket with owned := false, destroyed := true, closed := true }

theorem leave_idle (s : RelaySession) (i : Nat) (socket : Socket) :
    (s.leave i socket).idle = (s.put i { socket with owned := false }).idle :=
  idle_of_owned (by rw [leave, put, put, List.map_set, List.map_set])

theorem leave_live (h : s.Kept) (hlive : s.aborted = false) : (s.leave i socket).Kept :=
  ⟨h.sound.live hlive hlive (fun other hother => by
    rcases List.mem_or_eq_of_mem_set hother with hold | rfl
    · exact h.sound.own other hold
    · rfl) rfl, torn_of_live hlive⟩

theorem finish_kept (h : s.Kept) (hidle : s.idle = true) (error : Option String) :
    (s.finish error).Kept := by
  refine ⟨h.sound.finish error, fun _ other hother hmine => ?_⟩
  have hsame : (s.finish error).idle = true := (idle_of_owned (finish_owned s error)).trans hidle
  simp only [idle, Bool.not_eq_true', List.any_eq_false] at hsame
  exact absurd hmine (by simpa using hsame other hother)

theorem attemptFailed_isSome (s : RelaySession) (i : Nat) (socket : Socket) :
    (s.attemptFailed i socket).isSome =
      (socket.attempt == some .pending || socket.attempt == some .failed) := by
  unfold attemptFailed
  split
  case h_1 h => rw [h]; rfl
  case h_2 h => rw [h]; rfl
  case h_3 h => rw [h]; rfl
  case h_4 h => rw [h]; rfl

theorem onClose_kept (h : s.Kept) (i : Nat) :
    (s.onClose i).Kept ∧
      (s.retiredLast (.onClose i) = false → Held s → Held (s.onClose i)) := by
  unfold RelaySession.onClose retiredLast
  split
  case h_1 => exact ⟨h, fun _ => id⟩
  rename_i socket hsocket
  split
  case isFalse => exact ⟨h, fun _ => id⟩
  rename_i howned
  change ((s.leave i socket).gone i _).Kept ∧ (_ → Held s → Held ((s.leave i socket).gone i _))
  dsimp only
  rw [hsocket]
  dsimp only
  rw [← leave_idle]
  unfold RelaySession.gone
  split
  case isTrue haborted =>
    -- the session was waiting for this socket, or it still waits for others
    have hmine : s.idle = false := by
      simp only [idle, Bool.not_eq_false', List.any_eq_true]
      exact ⟨socket, List.mem_of_getElem? hsocket, howned⟩
    have hnone : s.resolved.length = 0 := by
      rw [h.sound.resolved, hmine, Bool.and_false]
      rfl
    have hown : ∀ other ∈ (s.leave i socket).sockets, other.owned = !other.closed := by
      intro other hother
      rcases List.mem_or_eq_of_mem_set hother with hold | rfl
      · exact h.sound.own other hold
      · rfl
    have htorn : (s.leave i socket).Torn := h.torn.put hsocket (fun hno => by cases hno)
      fun _ => rfl
    unfold resolveIdle
    split
    case isTrue hidle =>
      refine ⟨⟨⟨hown, h.sound.timers, h.sound.state, ?_⟩, htorn⟩, fun _ _ _ => haborted⟩
      have hlength : (s.resolved ++ [(s.leave i socket).error]).length = 1 := by
        rw [List.length_append, hnone]
        rfl
      refine hlength.trans (if_pos ?_).symm
      rw [Bool.and_eq_true]
      exact ⟨haborted, hidle⟩
    case isFalse hidle =>
      refine ⟨⟨⟨hown, h.sound.timers, h.sound.state, ?_⟩, htorn⟩, fun _ _ _ => haborted⟩
      refine hnone.trans (if_neg fun hboth => hidle ?_).symm
      rw [Bool.and_eq_true] at hboth
      exact hboth.2
  case isFalse hlive =>
    rw [Bool.not_eq_true] at hlive
    have hleft : (s.leave i socket).Kept := leave_live h hlive
    have hget : (s.leave i socket).sockets[i]? = some _ := put_get hsocket
    split
    case h_1 t hattempt =>
      have haside := aside_attempt hget hattempt
      refine ⟨haside.kept hleft, fun hcovered _ => haside.held fun hidle => ?_⟩
      have hretired := attemptFailed_isSome (s.leave i socket) i
        { socket with owned := false, destroyed := true, closed := true }
      rw [hattempt, Option.isSome_some] at hretired
      have hlive' : s.aborted = false := hlive
      rw [hlive', howned, hidle, ← hretired] at hcovered
      cases hcovered
    case h_2 =>
      split
      case isTrue =>
        exact ⟨(aside_fail _ _).kept hleft, fun _ _ _ => fail_aborted _ _⟩
      case isFalse =>
        split
        case isTrue hidle =>
          exact ⟨finish_kept hleft hidle none, fun _ _ _ => finish_aborted _ _⟩
        case isFalse hidle => exact ⟨hleft, fun _ _ hno => absurd hno hidle⟩

theorem gone_of_failed {t : RelaySession} {i : Nat} {socket : Socket} (hlive : s.aborted = false)
    (h : s.attemptFailed i socket = some t) : s.gone i socket = t := by
  unfold RelaySession.gone
  rw [hlive, if_neg Bool.false_ne_true, h]

theorem retiredLast_leaks {event : Event} (h : s.Kept) (hlast : s.retiredLast event = true) :
    (step s event).idle = true ∧ (step s event).aborted = false ∧ (step s event).resolved = [] := by
  cases event with
  | onClose i =>
    unfold retiredLast at hlast
    dsimp only at hlast
    cases hsocket : s.sockets[i]? with
    | none =>
      rw [hsocket] at hlast
      cases hlast
    | some socket =>
      rw [hsocket] at hlast
      simp only [Bool.and_eq_true, Bool.not_eq_true'] at hlast
      obtain ⟨⟨⟨hlive, howned⟩, hattempt⟩, hidle⟩ := hlast
      rw [← leave_idle] at hidle
      have hnone : s.resolved = [] := by
        have hlength := h.sound.resolved
        rw [hlive] at hlength
        exact List.length_eq_zero_iff.mp hlength
      have hget : (s.leave i socket).sockets[i]? = some _ := put_get hsocket
      have hretired := attemptFailed_isSome (s.leave i socket) i
        { socket with owned := false, destroyed := true, closed := true }
      rw [hattempt, Option.isSome_iff_exists] at hretired
      obtain ⟨t, ht⟩ := hretired
      have hstep : step s (.onClose i) = t := by
        change s.onClose i = t
        rw [RelaySession.onClose, hsocket]
        dsimp only
        rw [if_pos howned]
        exact gone_of_failed hlive ht
      have haside := aside_attempt hget ht
      rw [hstep]
      refine ⟨(idle_of_owned haside.owned).trans hidle, ?_⟩
      unfold attemptFailed at ht
      split at ht
      case h_1 => cases ht
      case h_2 => cases ht
      case h_3 =>
        cases ht
        exact ⟨hlive, hnone⟩
      case h_4 =>
        cases ht
        exact ⟨hlive, hnone⟩
  | _ => cases hlast

end RelaySession

open RelaySession

variable {s : RelaySession}

theorem step_kept (h : s.Kept) (event : Event) :
    (step s event).Kept ∧ (s.retiredLast event = false → Held s → Held (step s event)) := by
  have haside : ∀ {t : RelaySession}, Aside s t →
      t.Kept ∧ (s.retiredLast event = false → Held s → Held t) :=
    fun ht => ⟨ht.kept h, fun _ => ht.held⟩
  cases event with
  | connect given => exact ⟨(connect_kept h given).1, fun _ => (connect_kept h given).2⟩
  | connectCandidate given timeout =>
    exact ⟨(connectCandidate_kept h given timeout).1,
      fun _ => (connectCandidate_kept h given timeout).2⟩
  | bridge =>
    refine haside ?_
    change Aside s s.bridge
    unfold RelaySession.bridge
    split
    case isTrue => exact .refl s
    rename_i hlive
    rw [Bool.not_eq_true] at hlive
    exact aside_live hlive hlive rfl rfl
  | call t =>
    refine haside ?_
    change Aside s (s.call t)
    unfold RelaySession.call
    split
    case isTrue => exact .refl s
    rename_i hlive
    rw [Bool.not_eq_true] at hlive
    exact aside_live hlive hlive rfl rfl
  | cancel t => exact haside (aside_cancel s t)
  | fail code => exact haside (aside_fail s code)
  | onConnect i => exact haside (aside_onConnect s i)
  | onError i => exact haside (aside_onError s i)
  | onEnd i => exact haside (aside_onEnd s i)
  | onClose i => exact onClose_kept h i
  | onFinish i => exact haside (aside_onFinish s i)
  | onLost i => exact haside (aside_onLost s i)
  | expire t => exact haside (aside_expire s t)

def covered (s : RelaySession) : List Event → Bool
  | [] => true
  | event :: rest => !s.retiredLast event && covered (step s event) rest

theorem start_kept (given : Given) :
    (RelaySession.start given).Kept ∧ Held (.start given) := by
  have hempty : RelaySession.Kept ⟨[], [], .hello, false, none, false, [], []⟩ :=
    ⟨⟨(fun _ h => by cases h), (fun h => by cases h), (fun h => by cases h), rfl⟩,
      torn_of_live rfl⟩
  obtain ⟨hadded, hheld⟩ := add_kept hempty rfl given none
  exact ⟨hadded, held_of hheld⟩

theorem foldl_kept (h : s.Kept) (events : List Event) :
    (events.foldl step s).Kept ∧
      (covered s events = true → Held s → Held (events.foldl step s)) := by
  induction events generalizing s with
  | nil => exact ⟨h, fun _ => id⟩
  | cons event rest ih =>
    obtain ⟨hkept, hheld⟩ := step_kept h event
    obtain ⟨hrun, hcovered⟩ := ih hkept
    refine ⟨hrun, fun hall hstart => ?_⟩
    simp only [covered, Bool.and_eq_true, Bool.not_eq_true'] at hall
    exact hcovered hall.2 (hheld hall.1 hstart)

theorem all_closed_idle (h : s.Kept)
    (hclosed : ∀ socket ∈ s.sockets, socket.closed = true) : s.idle = true := by
  simp only [idle, Bool.not_eq_true', List.any_eq_false]
  intro socket hsocket
  rw [h.sound.own socket hsocket, hclosed socket hsocket]
  decide

/-- An aborted session has no timer and has destroyed what it owns; its end is announced at most
once; and where no candidate that was never connected closes last, a session whose sockets have
all closed is finished and its end is announced. Where one does, the session is left open. -/
theorem session_released (given : Given) (events : List Event) :
    ((run given events).aborted = true → (run given events).timers = [] ∧
      ∀ socket ∈ (run given events).sockets, socket.owned = true → socket.destroyed = true) ∧
    (run given events).resolved.length ≤ 1 ∧
    (covered (.start given) events = true →
      (∀ socket ∈ (run given events).sockets, socket.closed = true) →
      (run given events).aborted = true ∧ (run given events).state = .closed ∧
        (run given events).resolved.length = 1) ∧
    ∀ event, (run given events).retiredLast event = true →
      (∀ socket ∈ (run given (events ++ [event])).sockets, socket.closed = true) ∧
        (run given (events ++ [event])).aborted = false ∧
        (run given (events ++ [event])).resolved = [] := by
  obtain ⟨hstart, hheld⟩ := start_kept given
  obtain ⟨hkept, hcovered⟩ := foldl_kept hstart events
  change (run given events).Kept at hkept
  refine ⟨fun haborted => ⟨hkept.sound.timers haborted, hkept.torn haborted⟩, ?_,
    fun hall hclosed => ?_, fun event hlast => ?_⟩
  · rw [hkept.sound.resolved]
    split <;> decide
  · have hidle := all_closed_idle hkept hclosed
    have haborted : (run given events).aborted = true := hcovered hall hheld hidle
    refine ⟨haborted, hkept.sound.state haborted, ?_⟩
    rw [hkept.sound.resolved, haborted, hidle]
    rfl
  · have hmore : run given (events ++ [event]) = step (run given events) event := by
      rw [run, List.foldl_append]
      rfl
    obtain ⟨hidle, hopen⟩ := retiredLast_leaks hkept hlast
    rw [hmore]
    refine ⟨fun socket hsocket => ?_, hopen⟩
    have hown := (step_kept hkept event).1.sound.own socket hsocket
    simp only [idle, Bool.not_eq_true', List.any_eq_false] at hidle
    simpa [hown] using hidle socket hsocket

/-- A client and two candidates, the first of which fails and closes before the end. -/
theorem session_released_early :
    let events : List Event := [.connectCandidate (some ⟨false, false, false⟩) true,
      .expire (.attempt 1), .onClose 1, .connectCandidate (some ⟨false, false, false⟩) false,
      .onConnect 2, .bridge, .onEnd 0, .onEnd 2, .onFinish 0, .onFinish 2, .onClose 0, .onClose 2]
    (run ⟨false, false, true⟩ events).resolved.length = 1 :=
  ((session_released ⟨false, false, true⟩ _).2.2.1 (by decide +kernel) (by decide +kernel)).2.2

/-- The same sockets, and the failed candidate closes last. -/
theorem retired_candidate_last :
    let final := run ⟨false, false, true⟩ [.connectCandidate (some ⟨false, false, false⟩) true,
      .expire (.attempt 1), .connectCandidate (some ⟨false, false, false⟩) false,
      .onConnect 2, .bridge, .onEnd 0, .onEnd 2, .onFinish 0, .onFinish 2, .onClose 0, .onClose 2,
      .onClose 1]
    (∀ socket ∈ final.sockets, socket.closed = true) ∧ final.aborted = false ∧
      final.resolved = [] := by
  decide +kernel

end Meshpn.Tls.Session
