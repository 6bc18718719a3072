import Meshpn.Lib.Table
import Meshpn.Lib.Text
import Mathlib.Algebra.Order.Group.Abs
import Mathlib.Algebra.Order.Group.Int
import Mathlib.Data.List.TakeWhile

/-!
The admission memory of `transparent-tls-replay.mjs`. The exit admits the token
of an encrypted server name once: `consume` stores its replay id until the token
is too old to be decoded, and refuses an id that is stored.

The clock of a guard is read once for every call. Its readings are arbitrary
numbers; those that are not integers, and arguments of another type, are `none`.
Times are in milliseconds, issue times in seconds.
-/

namespace Meshpn.Tls

open Meshpn.Lib List

def encSniTsWindowMs : Int := 5 * 60 * 1000

def encSniReplayMaxEntries : Int := 65536

def encSniReplayRetentionMs : Int := 2 * encSniTsWindowMs + 1000

def isSafeInteger (n : Int) : Bool := -(2 ^ 53 - 1) ≤ n ∧ n ≤ 2 ^ 53 - 1

/-- The code of a failure, without its `TLS_RELAY_`. -/
inductive ReplayCode where
  | config | replayClock | replayStale | replay | replayFull
  deriving DecidableEq, Repr

/-- What the decoder has found out about a token. -/
structure ReplayToken where
  replayId : Option String
  issuedAtSeconds : Option Int
  deriving DecidableEq, Repr

/-- `EncSniReplayGuard`. -/
structure ReplayGuard where
  entries : Table String Int
  lastNow : Int
  maxEntries : Int

namespace ReplayGuard

def create (maxEntries : Option Int) : Except ReplayCode ReplayGuard :=
  match maxEntries with
  | none => .error .config
  | some maxEntries =>
    if ¬isSafeInteger maxEntries ∨ maxEntries < 1 ∨ encSniReplayMaxEntries < maxEntries then
      .error .config
    else .ok ⟨Table.empty, 0, maxEntries⟩

/-- The loop that deletes the entries from the front, up to the first that is not yet over. -/
def prune (now : Int) : List (String × Int) → Table String Int → Table String Int
  | [], entries => entries
  | (id, expiry) :: rest, entries =>
    if now < expiry then entries else prune now rest (entries.delete id)

/-- The metadata with which `consume` goes on. -/
def metadata (token : ReplayToken) : Option (String × Int) :=
  match token.replayId, token.issuedAtSeconds with
  | some id, some issued =>
    if Text.hex 64 id = true ∧ 0 ≤ issued ∧ issued ≤ 0xffffffff then some (id, issued) else none
  | _, _ => none

/-- The reading of the clock with which `consume` goes on. -/
def reading (guard : ReplayGuard) (clock : Option Int) : Option Int :=
  match clock with
  | none => none
  | some now =>
    if ¬isSafeInteger now ∨ now < guard.lastNow ∨
        ¬isSafeInteger (now + encSniReplayRetentionMs) then none
    else some now

def stale (now issued : Int) : Bool := encSniTsWindowMs / 1000 < |now / 1000 - issued|

/-- The part of `consume` behind its checks of the time. -/
def reserve (guard : ReplayGuard) (now : Int) (id : String) :
    ReplayGuard × Except ReplayCode Unit :=
  let guard := { guard with entries := prune now guard.entries.entries guard.entries }
  if guard.entries.has id then (guard, .error .replay)
  else if guard.maxEntries ≤ guard.entries.entries.length then (guard, .error .replayFull)
  else
    ({ guard with entries := guard.entries.set id (now + encSniReplayRetentionMs) }, .ok ())

/-- `consume`, with the reading of the clock that it takes. -/
def consume (guard : ReplayGuard) (clock : Option Int) (token : ReplayToken) :
    ReplayGuard × Except ReplayCode Unit :=
  match metadata token with
  | none => (guard, .error .config)
  | some (id, issued) =>
    match guard.reading clock with
    | none => (guard, .error .replayClock)
    | some now =>
      let guard := { guard with lastNow := now }
      if stale now issued then (guard, .error .replayStale) else guard.reserve now id

/-- The calls of a guard's lifetime, with the tokens it admits. -/
def run (guard : ReplayGuard) : List (Option Int × ReplayToken) → ReplayGuard × List ReplayToken
  | [] => (guard, [])
  | (clock, token) :: calls =>
    let (guard, outcome) := guard.consume clock token
    let (guard, admitted) := guard.run calls
    (guard, if outcome = .ok () then token :: admitted else admitted)

/-- From this time on a token is stale, however the clock has gone. -/
def deadline (issued : Int) : Int := (issued + 301) * 1000

theorem window_seconds : encSniTsWindowMs / 1000 = 300 := rfl

theorem stale_of_deadline {now issued : Int} (h : deadline issued ≤ now) :
    stale now issued = true := by
  have hlate : 301 ≤ now / 1000 - issued := by
    unfold deadline at h
    omega
  have habs := le_abs_self (now / 1000 - issued)
  refine decide_eq_true ?_
  rw [window_seconds]
  omega

theorem deadline_le_expiry {now issued : Int} (h : stale now issued = false) :
    deadline issued ≤ now + encSniReplayRetentionMs := by
  have hwindow := not_lt.mp (of_decide_eq_false h)
  rw [window_seconds] at hwindow
  have hearly := (abs_le.mp hwindow).1
  simp only [deadline, encSniReplayRetentionMs, encSniTsWindowMs]
  omega

variable {id : String} {issued now : Int}

theorem delete_front {table : Table String Int} {expiry : Int}
    {rest : List (String × Int)} (h : table.entries = (id, expiry) :: rest) :
    (table.delete id).entries = rest := by
  have hnodup := table.nodup
  rw [h, map_cons, nodup_cons] at hnodup
  have hrest : rest.filter (fun entry => entry.1 ≠ id) = rest := by
    rw [filter_eq_self]
    intro entry hentry
    simp only [ne_eq, decide_not, Bool.not_eq_eq_eq_not, Bool.not_true, decide_eq_false_iff_not]
    intro hid
    exact hnodup.1 (mem_map.mpr ⟨entry, hentry, hid⟩)
  simpa [Table.delete, h] using hrest

theorem prune_entries (now : Int) (table : Table String Int) :
    (prune now table.entries table).entries =
      table.entries.dropWhile fun entry => entry.2 ≤ now := by
  generalize hrest : table.entries = rest
  induction rest generalizing table with
  | nil => simpa [prune] using hrest
  | cons entry rest ih =>
    obtain ⟨id, expiry⟩ := entry
    by_cases hover : now < expiry
    · rw [prune, if_pos hover, hrest, dropWhile_cons_of_neg (by simpa using hover)]
    · rw [prune, if_neg hover, dropWhile_cons_of_pos (by simpa using hover)]
      exact ih _ (delete_front hrest)

theorem mem_prune {now : Int} {table : Table String Int} {entry : String × Int}
    (h : entry ∈ table.entries) :
    entry ∈ (prune now table.entries table).entries ∨ entry.2 ≤ now := by
  rw [prune_entries]
  rw [← takeWhile_append_dropWhile (p := fun entry : String × Int => decide (entry.2 ≤ now))
    (l := table.entries)] at h
  rcases mem_append.mp h with hfront | hback
  · exact Or.inr (by simpa using mem_takeWhile_imp hfront)
  · exact Or.inl hback

variable {guard guard' : ReplayGuard} {admitted : List ReplayToken} {token : ReplayToken}
  {clock : Option Int}

/-- A token is still stored, or the clock of the guard has passed its deadline. -/
def Remembers (guard : ReplayGuard) (id : String) (issued : Int) : Prop :=
  (∃ expiry, (id, expiry) ∈ guard.entries.entries ∧ deadline issued ≤ expiry) ∨
    deadline issued ≤ guard.lastNow

/-- What holds of a guard that has admitted these tokens. -/
structure Sound (guard : ReplayGuard) (admitted : List ReplayToken) : Prop where
  bounded : (guard.entries.entries.length : Int) ≤ guard.maxEntries
  remembered : ∀ token ∈ admitted, ∃ id issued, metadata token = some (id, issued) ∧
    guard.Remembers id issued
  once : admitted.Nodup

theorem reading_le {now : Int} (h : guard.reading clock = some now) : guard.lastNow ≤ now := by
  unfold reading at h
  split at h
  · cases h
  split at h
  case isTrue => cases h
  case isFalse hok =>
    cases h
    exact not_lt.mp fun hback => hok (Or.inr (Or.inl hback))

theorem Remembers.tick (h : guard.Remembers id issued)
    (hnow : guard.lastNow ≤ now) : { guard with lastNow := now }.Remembers id issued := by
  rcases h with hstored | hover
  · exact Or.inl hstored
  · exact Or.inr (hover.trans hnow)

/-- The entries after the loop of `consume`. -/
def pruned (guard : ReplayGuard) (now : Int) : ReplayGuard :=
  ⟨prune now guard.entries.entries guard.entries, now, guard.maxEntries⟩

theorem Remembers.pruned (h : guard.Remembers id issued)
    (hnow : guard.lastNow ≤ now) : (guard.pruned now).Remembers id issued := by
  rcases h with ⟨expiry, hmem, hdeadline⟩ | hover
  · rcases @mem_prune now _ _ hmem with hkept | hdue
    · exact Or.inl ⟨expiry, hkept, hdeadline⟩
    · exact Or.inr (hdeadline.trans hdue)
  · exact Or.inr (hover.trans hnow)

/-- What a call does: it fails and keeps the entries, it fails and prunes them, or it admits the
token, of which the pruned entries have none. -/
theorem consume_cases (guard : ReplayGuard) (clock : Option Int) (token : ReplayToken) :
    (∃ now code, guard.lastNow ≤ now ∧
      guard.consume clock token = ({ guard with lastNow := now }, .error code)) ∨
    (∃ now code, guard.lastNow ≤ now ∧
      guard.consume clock token = (guard.pruned now, .error code)) ∨
    ∃ now id issued, guard.lastNow ≤ now ∧ metadata token = some (id, issued) ∧
      stale now issued = false ∧ (guard.pruned now).entries.has id = false ∧
      ((guard.pruned now).entries.entries.length : Int) < guard.maxEntries ∧
      guard.consume clock token =
        ({ guard.pruned now with
            entries := (guard.pruned now).entries.set id (now + encSniReplayRetentionMs) },
          .ok ()) := by
  rw [consume]
  split
  · exact Or.inl ⟨guard.lastNow, _, le_rfl, rfl⟩
  rename_i id issued hmeta
  split
  · exact Or.inl ⟨guard.lastNow, _, le_rfl, rfl⟩
  rename_i now hreading
  have hnow := reading_le hreading
  dsimp only
  split
  case isTrue => exact Or.inl ⟨now, _, hnow, rfl⟩
  rename_i hfresh
  rw [reserve]
  dsimp only
  split
  case isTrue => exact Or.inr (Or.inl ⟨now, _, hnow, rfl⟩)
  rename_i hnew
  split
  case isTrue => exact Or.inr (Or.inl ⟨now, _, hnow, rfl⟩)
  rename_i hroom
  exact Or.inr (Or.inr ⟨now, id, issued, hnow, hmeta, Bool.eq_false_iff.mpr hfresh,
    Bool.eq_false_iff.mpr hnew, not_le.mp hroom, rfl⟩)

theorem Remembers.not_admitted (h : guard.Remembers id issued)
    (hnow : guard.lastNow ≤ now) (hfresh : stale now issued = false) :
    (guard.pruned now).entries.has id = true := by
  have hearly : ¬deadline issued ≤ now := by
    intro hdeadline
    rw [stale_of_deadline hdeadline] at hfresh
    cases hfresh
  rcases h.pruned hnow with ⟨expiry, hmem, _⟩ | hover
  · exact (Table.has_iff_mem_keys _).mpr (mem_map.mpr ⟨_, hmem, rfl⟩)
  · exact absurd hover hearly

theorem pruned_length (guard : ReplayGuard) (now : Int) :
    (guard.pruned now).entries.entries.length ≤ guard.entries.entries.length := by
  rw [pruned, prune_entries]
  exact (dropWhile_sublist _).length_le

theorem Sound.consume (h : guard.Sound admitted) (clock : Option Int) (token : ReplayToken) :
    (guard.consume clock token).1.Sound
      (if (guard.consume clock token).2 = .ok () then admitted ++ [token] else admitted) := by
  rcases consume_cases guard clock token with ⟨now, code, hnow, heq⟩ | ⟨now, code, hnow, heq⟩ |
    ⟨now, id, issued, hnow, hmeta, hfresh, hnew, hroom, heq⟩
  · rw [heq, if_neg (by simp)]
    refine ⟨h.bounded, fun old hold => ?_, h.once⟩
    obtain ⟨id, issued, hmeta, hremembers⟩ := h.remembered old hold
    exact ⟨id, issued, hmeta, hremembers.tick hnow⟩
  · rw [heq, if_neg (by simp)]
    refine ⟨?_, fun old hold => ?_, h.once⟩
    · exact (Int.ofNat_le.mpr (pruned_length guard now)).trans h.bounded
    · obtain ⟨id, issued, hmeta, hremembers⟩ := h.remembered old hold
      exact ⟨id, issued, hmeta, hremembers.pruned hnow⟩
  · rw [heq, if_pos rfl]
    have hentries := @Table.set_of_not_has _ _ _ _ _ (now + encSniReplayRetentionMs) hnew
    refine ⟨?_, ?_, ?_⟩
    · change (List.length (Table.set _ _ _).entries : Int) ≤ guard.maxEntries
      rw [hentries, length_append, length_singleton]
      push_cast
      omega
    · intro old hold
      rcases mem_append.mp hold with hbefore | hlast
      · obtain ⟨oldId, oldIssued, holdMeta, hremembers⟩ := h.remembered old hbefore
        refine ⟨oldId, oldIssued, holdMeta, ?_⟩
        rcases hremembers.pruned hnow with ⟨expiry, hmem, hdeadline⟩ | hover
        · refine Or.inl ⟨expiry, ?_, hdeadline⟩
          rw [hentries]
          exact mem_append_left _ hmem
        · exact Or.inr hover
      · rw [mem_singleton.mp hlast]
        refine ⟨id, issued, hmeta, Or.inl ⟨now + encSniReplayRetentionMs, ?_,
          deadline_le_expiry hfresh⟩⟩
        rw [hentries]
        exact mem_append_right _ mem_cons_self
    · refine nodup_append.mpr ⟨h.once, nodup_singleton _, ?_⟩
      rintro old hold _ hlast rfl
      rw [mem_singleton.mp hlast] at hold
      obtain ⟨oldId, oldIssued, holdMeta, hremembers⟩ := h.remembered token hold
      rw [hmeta] at holdMeta
      cases holdMeta
      rw [hremembers.not_admitted hnow hfresh] at hnew
      cases hnew

theorem Sound.run (h : guard.Sound admitted) (calls : List (Option Int × ReplayToken)) :
    (guard.run calls).1.Sound (admitted ++ (guard.run calls).2) := by
  induction calls generalizing guard admitted with
  | nil => simpa [ReplayGuard.run] using h
  | cons call calls ih =>
    obtain ⟨clock, token⟩ := call
    have hnext := ih (h.consume clock token)
    simp only [ReplayGuard.run]
    split
    case isTrue hok =>
      rw [if_pos hok] at hnext
      simpa using hnext
    case isFalse herror =>
      rw [if_neg herror] at hnext
      exact hnext

theorem consume_lastNow (guard : ReplayGuard) (clock : Option Int) (token : ReplayToken) :
    guard.lastNow ≤ (guard.consume clock token).1.lastNow := by
  rcases consume_cases guard clock token with ⟨now, code, hnow, heq⟩ | ⟨now, code, hnow, heq⟩ |
    ⟨now, id, issued, hnow, -, -, -, -, heq⟩
  all_goals
    rw [heq]
    exact hnow

theorem run_lastNow (guard : ReplayGuard) (calls : List (Option Int × ReplayToken)) :
    guard.lastNow ≤ (guard.run calls).1.lastNow := by
  induction calls generalizing guard with
  | nil => exact le_rfl
  | cons call calls ih => exact (consume_lastNow guard call.1 call.2).trans (ih _)

theorem consume_maxEntries (guard : ReplayGuard) (clock : Option Int) (token : ReplayToken) :
    (guard.consume clock token).1.maxEntries = guard.maxEntries := by
  rcases consume_cases guard clock token with ⟨_, _, _, heq⟩ | ⟨_, _, _, heq⟩ |
    ⟨_, _, _, _, -, -, -, -, heq⟩
  · rw [heq]
  · rw [heq, pruned]
  · rw [heq, pruned]

theorem run_maxEntries (guard : ReplayGuard) (calls : List (Option Int × ReplayToken)) :
    (guard.run calls).1.maxEntries = guard.maxEntries := by
  induction calls generalizing guard with
  | nil => rfl
  | cons call calls ih => exact (ih _).trans (consume_maxEntries guard call.1 call.2)

theorem mem_calls_of_admitted {calls : List (Option Int × ReplayToken)}
    (h : token ∈ (guard.run calls).2) : ∃ call ∈ calls, call.2 = token := by
  induction calls generalizing guard with
  | nil => cases h
  | cons call calls ih =>
    simp only [run] at h
    split at h
    case isTrue =>
      rcases mem_cons.mp h with rfl | hrest
      · exact ⟨call, mem_cons_self, rfl⟩
      · obtain ⟨other, hother, htoken⟩ := ih hrest
        exact ⟨other, mem_cons_of_mem _ hother, htoken⟩
    case isFalse =>
      obtain ⟨other, hother, htoken⟩ := ih h
      exact ⟨other, mem_cons_of_mem _ hother, htoken⟩

/-- After its deadline a token is refused for its age, unless the clock itself is refused. -/
theorem consume_of_deadline {issued : Int} (hmeta : metadata token = some (id, issued))
    (hdeadline : deadline issued ≤ guard.lastNow) (clock : Option Int) :
    (guard.consume clock token).2 =
      .error (if (guard.reading clock).isSome then .replayStale else .replayClock) := by
  rw [consume, hmeta]
  dsimp only
  rcases hreading : guard.reading clock with _ | now
  · rfl
  dsimp only
  rw [if_pos (stale_of_deadline (hdeadline.trans (reading_le hreading)))]
  rfl

theorem sound_create {maxEntries : Option Int} (h : create maxEntries = .ok guard) :
    maxEntries = some guard.maxEntries ∧ guard.Sound [] := by
  unfold create at h
  split at h
  · cases h
  split at h
  case isTrue => cases h
  rename_i hok
  cases h
  refine ⟨rfl, ?_, fun _ hmem => absurd hmem not_mem_nil, nodup_nil⟩
  push Not at hok
  exact Int.zero_le_ofNat 1 |>.trans hok.2.1

theorem metadata_id {issued : Int} (h : metadata token = some (id, issued)) :
    token = ⟨some id, some issued⟩ := by
  obtain ⟨replayId, issuedAtSeconds⟩ := token
  unfold metadata at h
  split at h
  case h_1 hid hissued =>
    split at h
    · cases h
      rw [← hid, ← hissued]
    · cases h
  case h_2 => cases h

/-- Over the lifetime of a guard, with any readings of its clock: an id with one issue time is
admitted at most once, the entries stay within their bound, and a token that was admitted and is
not stored any more is refused for its age by every later call whose clock is accepted. -/
theorem replay_guard_admits_once {maxEntries : Option Int} (hnew : create maxEntries = .ok guard)
    (calls : List (Option Int × ReplayToken)) :
    (∀ id issued, (∀ call ∈ calls, call.2.replayId = some id →
        call.2.issuedAtSeconds = some issued) →
      ((guard.run calls).2.filter fun token => token.replayId = some id).length ≤ 1) ∧
    (∃ bound : Int, maxEntries = some bound ∧
      ((guard.run calls).1.entries.entries.length : Int) ≤ bound) ∧
    ∀ token ∈ (guard.run calls).2, ∀ id, token.replayId = some id →
      (guard.run calls).1.entries.has id = false → ∀ later clock,
        (((guard.run calls).1.run later).1.consume clock token).2 =
          .error (if (((guard.run calls).1.run later).1.reading clock).isSome then .replayStale
            else .replayClock) := by
  obtain ⟨hmax, hsound⟩ := sound_create hnew
  have hrun := hsound.run calls
  rw [List.nil_append] at hrun
  refine ⟨?_, ⟨guard.maxEntries, hmax, ?_⟩, ?_⟩
  · intro id issued hfixed
    have hall : ∀ token ∈ (guard.run calls).2.filter (fun token => token.replayId = some id),
        token = ⟨some id, some issued⟩ := by
      rintro ⟨replayId, issuedAtSeconds⟩ htoken
      obtain ⟨hadmitted, hid⟩ := List.mem_filter.mp htoken
      obtain ⟨call, hcall, heq⟩ := mem_calls_of_admitted hadmitted
      have hcallId : call.2.replayId = some id := by
        rw [heq]
        simpa using hid
      have hissued := hfixed call hcall hcallId
      rw [heq] at hissued hcallId
      exact congrArg₂ ReplayToken.mk hcallId hissued
    have hnodup := hrun.once.filter fun token => token.replayId = some id
    rw [List.eq_replicate_of_mem hall] at hnodup
    simpa [List.nodup_replicate] using hnodup
  · have hbounded := hrun.bounded
    rwa [run_maxEntries] at hbounded
  · intro token htoken id hid hgone later clock
    obtain ⟨oldId, issued, hmeta, hremembers⟩ := hrun.remembered token htoken
    have hsame : oldId = id := by
      rw [metadata_id hmeta] at hid
      exact Option.some.inj hid
    subst hsame
    rcases hremembers with ⟨expiry, hmem, _⟩ | hover
    · rw [(Table.has_iff_mem_keys _).mpr (List.mem_map.mpr ⟨_, hmem, rfl⟩)] at hgone
      cases hgone
    · exact consume_of_deadline hmeta (hover.trans (run_lastNow _ later)) clock

def sampleToken : ReplayToken := ⟨some (String.ofList (List.replicate 64 'a')), some 900⟩

/-- A token of a clock that goes back and forth, presented until it is too old. -/
theorem sample_token_once :
    ((ReplayGuard.mk Table.empty 0 2).run [(some 1000000, sampleToken), (some 999999, sampleToken),
        (some 1200999, sampleToken), (some 1201000, sampleToken)]).2 = [sampleToken] ∧
      (((ReplayGuard.mk Table.empty 0 2).run [(some 1000000, sampleToken),
        (some 999999, sampleToken), (some 1200999, sampleToken), (some 1201000, sampleToken)]).2.filter
          fun token => token.replayId = sampleToken.replayId).length ≤ 1 := by
  obtain ⟨honce, _⟩ := @replay_guard_admits_once (ReplayGuard.mk Table.empty 0 2) (some 2) rfl
    [(some 1000000, sampleToken), (some 999999, sampleToken), (some 1200999, sampleToken),
      (some 1201000, sampleToken)]
  refine ⟨by decide +kernel, honce _ 900 ?_⟩
  decide +kernel

end ReplayGuard

end Meshpn.Tls
