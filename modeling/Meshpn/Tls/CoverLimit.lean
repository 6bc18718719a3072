import Mathlib.Data.List.Induction
import Meshpn.Lib.Windows
import Meshpn.Lib.Table

/-!
The rate limit of the cover page. An address has a counter and the start of its
window; the first call after the window's length starts a new one. A timer
deletes entries that are two windows old, which no call could tell from a new
start.

What is let through is decided by the fixed windows: the first `limit` calls of
each. So an interval that covers the end of one window and the beginning of
the next can hold more calls than the limit, and does not exactly where the late
ones of the window before leave room for those of the window.
-/

namespace Meshpn.Tls.CoverLimit

open Meshpn.Lib List
open Meshpn.Lib.Sliding

structure Entry where
  count : Nat
  windowStart : Int
deriving DecidableEq, Repr

section Model

variable {Ip : Type} [DecidableEq Ip]

/-- The entry of an address after a call. -/
def countCall (windowMs : Nat) (now : Int) : Option Entry → Entry
  | none => ⟨1, now⟩
  | some entry =>
    if windowMs ≤ now - entry.windowStart then ⟨1, now⟩
    else ⟨entry.count + 1, entry.windowStart⟩

/-- `tlsCoverShouldThrottle`, the map after the call and its result. -/
def tlsCoverShouldThrottle (windowMs limit : Nat) (tlsCoverRateState : Table Ip Entry) (ip : Ip)
    (now : Int) : Table Ip Entry × Bool :=
  let entry := countCall windowMs now (tlsCoverRateState.get ip)
  (tlsCoverRateState.set ip entry, decide (limit < entry.count))

/-- The timer of `tlsCoverEnsureCleanupTimer`. -/
def cleanup (windowMs : Nat) (tlsCoverRateState : Table Ip Entry) (now : Int) : Table Ip Entry :=
  let cutoff := now - 2 * windowMs
  tlsCoverRateState.entries.foldl
    (fun kept entry => if entry.2.windowStart < cutoff then kept.delete entry.1 else kept)
    tlsCoverRateState

inductive Event (Ip : Type) where
  | call (ip : Ip) (now : Int)
  | tick (now : Int)

def Event.time : Event Ip → Int
  | .call _ now => now
  | .tick now => now

/-- A call that was answered. -/
structure Answer (Ip : Type) where
  ip : Ip
  now : Int
  throttled : Bool
deriving DecidableEq, Repr

structure Limiter (Ip : Type) [DecidableEq Ip] where
  tlsCoverRateState : Table Ip Entry
  answers : List (Answer Ip)

def step (windowMs limit : Nat) (s : Limiter Ip) : Event Ip → Limiter Ip
  | .call ip now =>
    let result := tlsCoverShouldThrottle windowMs limit s.tlsCoverRateState ip now
    ⟨result.1, s.answers ++ [⟨ip, now, result.2⟩]⟩
  | .tick now => { s with tlsCoverRateState := cleanup windowMs s.tlsCoverRateState now }

def run (windowMs limit : Nat) (events : List (Event Ip)) : Limiter Ip :=
  events.foldl (step windowMs limit) ⟨Table.empty, []⟩

/-- The time of an event that is a call of the address. -/
def Event.callOf (ip : Ip) : Event Ip → Option Int
  | .call other now => if other = ip then some now else none
  | .tick _ => none

/-- When an address called. -/
def callTimes (ip : Ip) (events : List (Event Ip)) : List Int := events.filterMap (Event.callOf ip)

/-- When an address was let through. -/
def passedTimes (ip : Ip) (answers : List (Answer Ip)) : List Int :=
  answers.filterMap fun answer =>
    if answer.ip = ip ∧ answer.throttled = false then some answer.now else none

end Model

/-- The calls of the window before and of the current one. -/
structure Windows where
  prev : List Int
  cur : List Int

namespace Windows

def none : Windows := ⟨[], []⟩

/-- A call belongs to the current window up to its length, and starts a new one behind that. -/
def add (width : Nat) (windows : Windows) (t : Int) : Windows :=
  match windows.cur with
  | [] => ⟨windows.prev, [t]⟩
  | start :: _ =>
    if width ≤ t - start then ⟨windows.cur, [t]⟩ else ⟨windows.prev, windows.cur ++ [t]⟩

end Windows

def windowsOf (width : Nat) (times : List Int) : Windows := times.foldl (Windows.add width) .none

/-- A call with the windows and what was let through before it. -/
def letCall (width limit : Nat) (state : Windows × List Int) (t : Int) : Windows × List Int :=
  let windows := state.1.add width t
  (windows, state.2 ++ if windows.cur.length ≤ limit then [t] else [])

/-- The calls that are let through: the first of each window. -/
def letThrough (width limit : Nat) (times : List Int) : List Int :=
  (times.foldl (letCall width limit) (Windows.none, [])).2

/-- Each call among the first `limit` of its window finds room: those of the window before that
are less than a width old and its own window up to it are at most `limit`. -/
def Spread (width limit : Nat) (times : List Int) : Prop :=
  ∀ front t back, times = front ++ t :: back →
    (windowsOf width (front ++ [t])).cur.length ≤ limit →
      recent width t ((windowsOf width (front ++ [t])).prev.take limit) +
        (windowsOf width (front ++ [t])).cur.length ≤ limit

section Fixed

variable {width limit : Nat} {times : List Int} {t : Int}

theorem windowsOf_snoc (times : List Int) (t : Int) :
    windowsOf width (times ++ [t]) = (windowsOf width times).add width t := by
  rw [windowsOf, foldl_append]
  rfl

theorem letCall_windows (times : List Int) (start : Windows × List Int) :
    (times.foldl (letCall width limit) start).1 = times.foldl (Windows.add width) start.1 := by
  induction times generalizing start with
  | nil => rfl
  | cons t times ih => exact ih _

theorem letThrough_snoc (times : List Int) (t : Int) :
    letThrough width limit (times ++ [t]) =
      letThrough width limit times ++
        if (windowsOf width (times ++ [t])).cur.length ≤ limit then [t] else [] := by
  rw [windowsOf_snoc, letThrough, foldl_append, foldl_cons, foldl_nil, letCall,
    letCall_windows]
  rfl

theorem spread_nil : Spread width limit [] := by
  intro front t back hsplit
  simp at hsplit

theorem spread_snoc :
    Spread width limit (times ++ [t]) ↔
      Spread width limit times ∧
        ((windowsOf width (times ++ [t])).cur.length ≤ limit →
          recent width t ((windowsOf width (times ++ [t])).prev.take limit) +
            (windowsOf width (times ++ [t])).cur.length ≤ limit) := by
  constructor
  · intro h
    refine ⟨fun front x back hsplit => ?_, h times t [] rfl⟩
    exact h front x (back ++ [t]) (by rw [hsplit, append_assoc, cons_append])
  · rintro ⟨htimes, hlast⟩ front x back hsplit
    rcases eq_nil_or_concat back with rfl | ⟨back, last, rfl⟩
    · obtain ⟨rfl, hx⟩ := append_inj' hsplit rfl
      obtain rfl := (List.cons.inj hx).1
      exact hlast
    · rw [concat_eq_append, ← cons_append, ← append_assoc] at hsplit
      obtain ⟨hfront, -⟩ := append_inj' hsplit rfl
      exact htimes front x back hfront

/-- How the calls of an address in order are cut into windows. `older` are those let through
before the last two windows. -/
structure Cut (width limit : Nat) (times : List Int) (windows : Windows) (older : List Int) :
    Prop where
  passed : letThrough width limit times =
    older ++ windows.prev.take limit ++ windows.cur.take limit
  suffix : ∃ front, times = front ++ windows.cur
  open_ : windows.cur = [] → windows.prev = [] ∧ older = []
  inside : ∀ start ∈ windows.cur.head?, ∀ x ∈ windows.cur, start ≤ x ∧ x < start + width
  before : ∀ start ∈ windows.cur.head?, ∀ x ∈ windows.prev, x ≤ start
  far : ∀ start ∈ windows.cur.head?, ∀ x ∈ older, x ≤ start - width

theorem take_snoc (l : List Int) (t : Int) (n : Nat) :
    (l ++ [t]).take n = l.take n ++ if (l ++ [t]).length ≤ n then [t] else [] := by
  rw [take_append, length_append, length_singleton]
  congr 1
  split
  case isTrue h => exact take_of_length_le (by rw [length_singleton]; omega)
  rename_i h
  have hzero : n - l.length = 0 := by omega
  rw [hzero, take_zero]

theorem take_one (t : Int) (n : Nat) : [t].take n = if [t].length ≤ n then [t] else [] := by
  cases n with
  | zero => rfl
  | succ n =>
    rw [take_succ_cons, take_nil]
    exact (if_pos (Nat.succ_le_succ (Nat.zero_le n))).symm

variable {windows : Windows} {older : List Int}

theorem Cut.same (hcut : Cut width limit times windows older)
    (hwindows : windowsOf width times = windows) {start : Int} {rest : List Int}
    (hcur : windows.cur = start :: rest) (hold : ¬ width ≤ t - start)
    (horder : ∀ x ∈ times, x ≤ t) :
    Cut width limit (times ++ [t]) ⟨windows.prev, windows.cur ++ [t]⟩ older ∧
      (windows.cur.length + 1 ≤ limit →
        recent width t (letThrough width limit times) =
          recent width t (windows.prev.take limit) + windows.cur.length) := by
  have hadd : windows.add width t = ⟨windows.prev, windows.cur ++ [t]⟩ := by
    rw [Windows.add, hcur]
    exact if_neg hold
  have hstart : start ∈ windows.cur.head? := by
    rw [hcur]
    rfl
  obtain ⟨front, hfront⟩ := hcut.suffix
  have hin : ∀ x ∈ windows.cur, x ∈ times := by
    intro x hx
    rw [hfront]
    exact mem_append_right _ hx
  have hhead : ∀ other ∈ (windows.cur ++ [t]).head?, other = start := by
    rw [hcur]
    exact fun other hother => (Option.mem_some.mp hother).symm
  have hfirst : start ≤ t := horder start (hin start (hcur ▸ mem_cons_self))
  constructor
  · constructor
    case passed =>
      rw [letThrough_snoc, windowsOf_snoc, hwindows, hadd, hcut.passed, append_assoc,
        ← take_snoc]
    case suffix => exact ⟨front, by rw [hfront, append_assoc]⟩
    case open_ => exact fun h => absurd h (append_ne_nil_of_right_ne_nil _ (by simp))
    case inside =>
      intro other hother x hx
      rw [hhead other hother]
      rcases mem_append.mp hx with hx | hx
      · exact hcut.inside start hstart x hx
      · rw [mem_singleton.mp hx]
        omega
    case before =>
      intro other hother
      rw [hhead other hother]
      exact hcut.before start hstart
    case far =>
      intro other hother
      rw [hhead other hother]
      exact hcut.far start hstart
  · intro hroom
    have htake : windows.cur.take limit = windows.cur := take_of_length_le (by omega)
    have holder : recent width t older = 0 := by
      apply recent_eq_zero
      intro x hx
      have hfar := hcut.far start hstart x hx
      omega
    have hnew : recent width t windows.cur = windows.cur.length := by
      apply recent_eq_length
      intro x hx
      have hinside := hcut.inside start hstart x hx
      omega
    rw [hcut.passed, recent_append, recent_append, holder, htake, hnew, Nat.zero_add]

theorem Cut.fresh (hcut : Cut width limit times windows older) (hwidth : 0 < width)
    (hwindows : windowsOf width times = windows) {start : Int} {rest : List Int}
    (hcur : windows.cur = start :: rest) (hnew : width ≤ t - start)
    (horder : ∀ x ∈ times, x ≤ t) :
    Cut width limit (times ++ [t]) ⟨windows.cur, [t]⟩ (older ++ windows.prev.take limit) ∧
      recent width t (letThrough width limit times) =
        recent width t (windows.cur.take limit) := by
  have hadd : windows.add width t = ⟨windows.cur, [t]⟩ := by
    rw [Windows.add, hcur]
    exact if_pos hnew
  have hstart : start ∈ windows.cur.head? := by
    rw [hcur]
    rfl
  obtain ⟨front, hfront⟩ := hcut.suffix
  have hhead : ∀ other ∈ [t].head?, other = t := fun other hother =>
    (Option.mem_some.mp hother).symm
  have hfar : ∀ x ∈ older ++ windows.prev.take limit, x ≤ t - width := by
    intro x hx
    rcases mem_append.mp hx with hx | hx
    · have hx := hcut.far start hstart x hx
      omega
    · have hx := hcut.before start hstart x (mem_of_mem_take hx)
      omega
  constructor
  · constructor
    case passed =>
      rw [letThrough_snoc, windowsOf_snoc, hwindows, hadd, hcut.passed]
      exact congrArg _ (take_one t limit).symm
    case suffix => exact ⟨times, rfl⟩
    case open_ => exact fun h => by cases h
    case inside =>
      intro other hother x hx
      rw [hhead other hother, mem_singleton.mp hx]
      omega
    case before =>
      intro other hother x hx
      rw [hhead other hother]
      apply horder
      rw [hfront]
      exact mem_append_right _ hx
    case far =>
      intro other hother
      rw [hhead other hother]
      exact hfar
  · rw [hcut.passed, recent_append, recent_eq_zero hfar, Nat.zero_add]

theorem Cut.first (hcut : Cut width limit times windows older) (hwidth : 0 < width)
    (hwindows : windowsOf width times = windows) (hcur : windows.cur = []) :
    Cut width limit (times ++ [t]) ⟨windows.prev, [t]⟩ [] ∧
      letThrough width limit times = [] ∧ windows.prev = [] := by
  obtain ⟨hprev, holder⟩ := hcut.open_ hcur
  have hadd : windows.add width t = ⟨windows.prev, [t]⟩ := by
    rw [Windows.add, hcur]
  have hnone : letThrough width limit times = [] := by
    rw [hcut.passed, holder, hprev, hcur, take_nil]
    rfl
  refine ⟨?_, hnone, hprev⟩
  constructor
  case passed =>
    rw [letThrough_snoc, windowsOf_snoc, hwindows, hadd, hnone, hprev, take_nil]
    exact (take_one t limit).symm
  case suffix => exact ⟨times, rfl⟩
  case open_ => exact fun h => by cases h
  case inside =>
    intro other hother x hx
    rw [← Option.mem_some.mp hother, mem_singleton.mp hx]
    omega
  case before =>
    rw [hprev]
    exact fun _ _ x hx => absurd hx not_mem_nil
  case far => exact fun _ _ x hx => absurd hx not_mem_nil

theorem cut_of (limit : Nat) (hwidth : 0 < width) (horder : times.Pairwise (· ≤ ·)) :
    ∃ older, Cut width limit times (windowsOf width times) older := by
  induction times using List.reverseRecOn with
  | nil =>
    have hnone : letThrough width limit [] = [] ++ [].take limit ++ [].take limit := by
      rw [take_nil]
      rfl
    refine ⟨[], hnone, ⟨[], rfl⟩, fun _ => ⟨rfl, rfl⟩, ?_, ?_, ?_⟩ <;>
      exact fun _ h => by cases h
  | append_singleton times t ih =>
    obtain ⟨htimes, -, hlast⟩ := pairwise_append.mp horder
    have hlast : ∀ x ∈ times, x ≤ t := fun x hx => hlast x hx t (mem_singleton_self t)
    obtain ⟨older, hcut⟩ := ih htimes
    rw [windowsOf_snoc]
    cases hcur : (windowsOf width times).cur with
    | nil =>
      have hadd : (windowsOf width times).add width t = ⟨(windowsOf width times).prev, [t]⟩ := by
        rw [Windows.add, hcur]
      exact ⟨_, hadd ▸ (hcut.first hwidth rfl hcur).1⟩
    | cons start rest =>
      rw [Windows.add, hcur]
      simp only
      split
      case isTrue hnew => exact ⟨_, hcur ▸ (hcut.fresh hwidth rfl hcur hnew hlast).1⟩
      case isFalse hold => exact ⟨_, hcur ▸ (hcut.same rfl hcur hold hlast).1⟩

/-- What is let through in the width before a call that is let through too: the late calls of
the window before and those of its own window. -/
theorem recent_letThrough (hwidth : 0 < width) (horder : (times ++ [t]).Pairwise (· ≤ ·))
    (hpass : (windowsOf width (times ++ [t])).cur.length ≤ limit) :
    recent width t (letThrough width limit times) + 1 =
      recent width t ((windowsOf width (times ++ [t])).prev.take limit) +
        (windowsOf width (times ++ [t])).cur.length := by
  obtain ⟨htimes, -, hlast⟩ := pairwise_append.mp horder
  have hlast : ∀ x ∈ times, x ≤ t := fun x hx => hlast x hx t (mem_singleton_self t)
  obtain ⟨older, hcut⟩ := cut_of limit hwidth htimes
  rw [windowsOf_snoc] at hpass ⊢
  cases hcur : (windowsOf width times).cur with
  | nil =>
    obtain ⟨-, hnone, hprev⟩ := hcut.first (t := t) hwidth rfl hcur
    rw [Windows.add, hcur, hnone, hprev, take_nil]
    rfl
  | cons start rest =>
    rw [Windows.add, hcur] at hpass ⊢
    simp only at hpass ⊢
    split at hpass
    case isTrue hnew =>
      rw [if_pos hnew, (hcut.fresh hwidth rfl hcur hnew hlast).2, hcur]
      rfl
    case isFalse hold =>
      rw [← hcur, length_append] at hpass
      rw [if_neg hold, (hcut.same rfl hcur hold hlast).2 hpass, ← hcur, length_append]
      rfl

theorem mem_of_letThrough {x : Int} (h : x ∈ letThrough width limit times) : x ∈ times := by
  induction times using List.reverseRecOn with
  | nil => cases h
  | append_singleton times t ih =>
    rw [letThrough_snoc] at h
    rw [mem_append]
    rcases mem_append.mp h with h | h
    · exact .inl (ih h)
    split at h
    · exact .inr h
    · cases h

/-- What is let through keeps the limit in every interval exactly where the calls are spread. -/
theorem limited_iff (hwidth : 0 < width) (horder : times.Pairwise (· ≤ ·)) :
    Limited width limit (letThrough width limit times) ↔ Spread width limit times := by
  induction times using List.reverseRecOn with
  | nil =>
    exact ⟨fun _ => spread_nil, fun _ _ => Nat.zero_le limit⟩
  | append_singleton times t ih =>
    obtain ⟨htimes, -, hlast⟩ := pairwise_append.mp horder
    have hlast : ∀ x ∈ letThrough width limit times, x ≤ t := fun x hx =>
      hlast x (mem_of_letThrough hx) t (mem_singleton_self t)
    rw [letThrough_snoc, spread_snoc, ← ih htimes]
    split
    case isTrue hpass =>
      rw [limited_snoc hwidth hlast, recent_letThrough hwidth horder hpass,
        imp_iff_right hpass]
    case isFalse hthrottled =>
      rw [append_nil]
      exact (and_iff_left (fun hpass => absurd hpass hthrottled)).symm

theorem window_le (hwidth : 0 < width) (horder : times.Pairwise (· ≤ ·))
    (hlimited : Limited width limit times) : (windowsOf width times).cur.length ≤ limit := by
  obtain ⟨older, hcut⟩ := cut_of limit hwidth horder
  rcases hcur : (windowsOf width times).cur with _ | ⟨start, rest⟩
  · exact Nat.zero_le limit
  obtain ⟨front, hfront⟩ := hcut.suffix
  have hinside : within width start (start :: rest) = (start :: rest).length := by
    apply within_eq_length
    rw [← hcur]
    exact hcut.inside start (hcur ▸ rfl)
  have hall := hlimited start
  rw [hfront, within_append, hcur, hinside] at hall
  omega

end Fixed

section Limiter

variable {Ip : Type} [DecidableEq Ip] {windowMs limit : Nat}

theorem get_foldl_delete (old : Ip × Entry → Bool) (entries : List (Ip × Entry))
    (table : Table Ip Entry) (ip : Ip) :
    (entries.foldl (fun kept entry => if old entry then kept.delete entry.1 else kept)
        table).get ip =
      if entries.any fun entry => decide (entry.1 = ip) && old entry then none
      else table.get ip := by
  induction entries generalizing table with
  | nil => rfl
  | cons entry entries ih =>
    rw [foldl_cons, ih, any_cons]
    cases hold : old entry with
    | true =>
      rw [if_pos rfl, Table.get_delete, Bool.and_true]
      by_cases hip : entry.1 = ip
      · rw [if_pos hip, ite_self, decide_eq_true hip, Bool.true_or, if_pos rfl]
      · rw [if_neg hip, decide_eq_false hip, Bool.false_or]
    | false => rw [if_neg Bool.false_ne_true, Bool.and_false, Bool.false_or]

theorem get_cleanup (table : Table Ip Entry) (now : Int) (ip : Ip) :
    (cleanup windowMs table now).get ip =
      (table.get ip).filter fun entry => now - 2 * windowMs ≤ entry.windowStart := by
  have hfold := get_foldl_delete (fun entry => decide (entry.2.windowStart < now - 2 * windowMs))
    table.entries table ip
  simp only [decide_eq_true_eq] at hfold
  rw [cleanup, hfold]
  rcases hget : table.get ip with _ | entry
  · simp
  have hmem := Table.mem_of_get hget
  have honly : ∀ other, (ip, other) ∈ table.entries → other = entry := fun other hother =>
    Option.some.inj ((Table.get_of_mem other hother).symm.trans hget)
  by_cases hold : entry.windowStart < now - 2 * windowMs
  · rw [if_pos (any_eq_true.mpr ⟨(ip, entry), hmem, by simp [hold]⟩)]
    rw [Option.filter_some, if_neg fun hkeep => Int.not_le.mpr hold (of_decide_eq_true hkeep)]
  rw [if_neg]
  · rw [Option.filter_some, if_pos (decide_eq_true (Int.not_lt.mp hold))]
  · intro hany
    obtain ⟨⟨other, value⟩, hother, hvalue⟩ := any_eq_true.mp hany
    simp only [Bool.and_eq_true, decide_eq_true_eq] at hvalue
    obtain ⟨rfl, hvalue⟩ := hvalue
    exact hold (honly value hother ▸ hvalue)

/-- The entry of an address has the count and the start of the current window; without an entry
that window is over at `now`. -/
structure Follows (windowMs : Nat) (entry : Option Entry) (windows : Windows) (now : Int) :
    Prop where
  known : ∀ e ∈ entry, e.count = windows.cur.length ∧ windows.cur.head? = some e.windowStart
  unknown : entry = none → ∀ start ∈ windows.cur.head?, windowMs ≤ now - start

variable {events : List (Event Ip)} {entry : Option Entry} {windows : Windows}

theorem Follows.later {now later : Int}
    (h : Follows windowMs entry windows now) (hlater : now ≤ later) :
    Follows windowMs entry windows later := by
  refine ⟨h.known, fun hnone start hstart => ?_⟩
  have hover := h.unknown hnone start hstart
  omega

theorem Follows.call {now : Int}
    (h : Follows windowMs entry windows now) :
    Follows windowMs (some (countCall windowMs now entry)) (windows.add windowMs now) now := by
  refine ⟨?_, (fun hnone => by cases hnone)⟩
  intro e he
  rw [← Option.mem_some.mp he]
  cases hcur : windows.cur with
  | nil =>
    have hentry : entry = none := by
      rcases entry with _ | e
      · rfl
      have hhead := (h.known e rfl).2
      rw [hcur] at hhead
      cases hhead
    rw [hentry, countCall, Windows.add, hcur]
    exact ⟨rfl, rfl⟩
  | cons start rest =>
    rw [Windows.add, hcur]
    simp only
    cases entry with
    | none =>
      rw [if_pos (h.unknown rfl start (hcur ▸ rfl)), countCall]
      exact ⟨rfl, rfl⟩
    | some e =>
      obtain ⟨hcount, hhead⟩ := h.known e rfl
      rw [hcur] at hcount hhead
      obtain rfl := Option.some.inj hhead
      rw [countCall]
      split
      · exact ⟨rfl, rfl⟩
      · exact ⟨by rw [length_append, hcount]; rfl, rfl⟩

theorem Follows.tick {now : Int}
    (h : Follows windowMs entry windows now) :
    Follows windowMs
      (entry.filter fun e => now - 2 * windowMs ≤ e.windowStart) windows now := by
  rcases entry with _ | e
  · exact h
  by_cases hold : now - 2 * (windowMs : Int) ≤ e.windowStart
  · simpa [Option.filter, hold] using h
  obtain ⟨-, hhead⟩ := h.known e rfl
  refine ⟨?_, fun _ start hstart => ?_⟩
  · simp [Option.filter, hold]
  rw [hhead] at hstart
  rw [← Option.mem_some.mp hstart]
  omega

theorem run_snoc (events : List (Event Ip)) (event : Event Ip) :
    run windowMs limit (events ++ [event]) =
      step windowMs limit (run windowMs limit events) event := by
  rw [run, foldl_append]
  rfl

theorem callTimes_snoc (ip : Ip) (events : List (Event Ip)) (event : Event Ip) :
    callTimes ip (events ++ [event]) = callTimes ip events ++ callTimes ip [event] :=
  filterMap_append

theorem passedTimes_snoc (ip : Ip) (answers : List (Answer Ip)) (answer : Answer Ip) :
    passedTimes ip (answers ++ [answer]) = passedTimes ip answers ++ passedTimes ip [answer] :=
  filterMap_append

/-- What a run has answered an address: the first `limit` calls of each fixed window. -/
structure Sound (windowMs limit : Nat) (events : List (Event Ip)) (ip : Ip) : Prop where
  passed : passedTimes ip (run windowMs limit events).answers =
    letThrough windowMs limit (callTimes ip events)
  entry : ∀ now, (∀ event ∈ events, event.time ≤ now) →
    Follows windowMs ((run windowMs limit events).tlsCoverRateState.get ip)
      (windowsOf windowMs (callTimes ip events)) now
  throttled : ∀ answer ∈ (run windowMs limit events).answers, answer.ip = ip →
    answer.throttled = true → ∃ front back, callTimes ip events = front ++ back ∧
      limit < (windowsOf windowMs front).cur.length

theorem Sound.call {ip : Ip} {now : Int}
    (h : Sound windowMs limit events ip) (hlast : ∀ event ∈ events, event.time ≤ now) :
    Sound windowMs limit (events ++ [.call ip now]) ip := by
  let entry := countCall windowMs now ((run windowMs limit events).tlsCoverRateState.get ip)
  have hfollows : Follows windowMs (some entry)
      (windowsOf windowMs (callTimes ip events ++ [now])) now := by
    rw [windowsOf_snoc]
    exact (h.entry now hlast).call
  have hcount := (hfollows.known entry rfl).1
  have htimes : callTimes ip (events ++ [.call ip now]) = callTimes ip events ++ [now] := by
    rw [callTimes_snoc]
    simp [callTimes, Event.callOf]
  have hstep : run windowMs limit (events ++ [.call ip now]) =
      ⟨(run windowMs limit events).tlsCoverRateState.set ip entry,
        (run windowMs limit events).answers ++ [⟨ip, now, decide (limit < entry.count)⟩]⟩ :=
    run_snoc events _
  constructor
  case passed =>
    rw [hstep, htimes, passedTimes_snoc, h.passed, letThrough_snoc, ← hcount]
    by_cases hover : limit < entry.count
    · rw [if_neg (Nat.not_le.mpr hover), decide_eq_true hover]
      simp [passedTimes]
    · rw [if_pos (Nat.le_of_not_lt hover), decide_eq_false hover]
      simp [passedTimes]
  case entry =>
    intro later hlater
    rw [hstep, htimes, Table.get_set_self]
    exact hfollows.later
      (hlater (.call ip now) (mem_append_right _ (mem_singleton_self _)))
  case throttled =>
    intro answer hanswer hip hthrottled
    rw [hstep] at hanswer
    rw [htimes]
    rcases mem_append.mp hanswer with hbefore | hnew
    · obtain ⟨front, back, hsplit, hover⟩ := h.throttled answer hbefore hip hthrottled
      exact ⟨front, back ++ [now], by rw [hsplit, append_assoc], hover⟩
    · rw [mem_singleton.mp hnew, decide_eq_true_eq, hcount] at hthrottled
      exact ⟨_, [], (append_nil _).symm, hthrottled⟩

theorem Sound.aside {ip : Ip} {event : Event Ip}
    (h : Sound windowMs limit events ip) (hlast : ∀ first ∈ events, first.time ≤ event.time)
    (hevent : ∀ now, event ≠ .call ip now) :
    Sound windowMs limit (events ++ [event]) ip := by
  have hlater : ∀ now, (∀ e ∈ events ++ [event], e.time ≤ now) → event.time ≤ now :=
    fun now hnow => hnow event (mem_append_right _ (mem_singleton_self event))
  cases event with
  | call other now =>
    have hip : other ≠ ip := fun h => hevent now (h ▸ rfl)
    have htimes : callTimes ip (events ++ [.call other now]) = callTimes ip events := by
      rw [callTimes_snoc]
      simp [callTimes, Event.callOf, hip]
    have hstep : run windowMs limit (events ++ [.call other now]) = _ := run_snoc events _
    constructor
    case passed =>
      rw [hstep, htimes, ← h.passed, step, passedTimes_snoc]
      simp [passedTimes, hip]
    case entry =>
      intro later hnow
      rw [hstep, htimes, step, tlsCoverShouldThrottle, Table.get_set, if_neg hip]
      exact (h.entry now hlast).later (hlater later hnow)
    case throttled =>
      intro answer hanswer hsame hthrottled
      rw [hstep, step] at hanswer
      rw [htimes]
      rcases mem_append.mp hanswer with hbefore | hnew
      · exact h.throttled answer hbefore hsame hthrottled
      · rw [mem_singleton.mp hnew] at hsame
        exact absurd hsame hip
  | tick now =>
    have htimes : callTimes ip (events ++ [.tick now]) = callTimes ip events := by
      rw [callTimes_snoc]
      simp [callTimes, Event.callOf]
    have hstep : run windowMs limit (events ++ [.tick now]) = _ := run_snoc events _
    constructor
    case passed => rw [hstep, htimes, ← h.passed, step]
    case entry =>
      intro later hnow
      rw [hstep, htimes, step, get_cleanup]
      exact (h.entry now hlast).tick.later (hlater later hnow)
    case throttled =>
      rw [hstep, htimes, step]
      exact h.throttled

theorem run_sound {events : List (Event Ip)}
    (horder : events.Pairwise fun first later => first.time ≤ later.time) (ip : Ip) :
    Sound windowMs limit events ip := by
  induction events using List.reverseRecOn with
  | nil =>
    refine ⟨rfl, fun _ _ => ⟨?_, ?_⟩, ?_⟩
    · exact fun _ h => by cases h
    · exact fun _ _ h => by cases h
    · exact fun _ h => by cases h
  | append_singleton events event ih =>
    obtain ⟨hevents, -, hlast⟩ := pairwise_append.mp horder
    have hlast : ∀ first ∈ events, first.time ≤ event.time := fun first hfirst =>
      hlast first hfirst event (mem_singleton_self event)
    have h := ih hevents
    by_cases hown : ∃ now, event = .call ip now
    · obtain ⟨now, rfl⟩ := hown
      exact h.call hlast
    · exact h.aside hlast fun now hnow => hown ⟨now, hnow⟩

theorem callOf_time {ip : Ip} {event : Event Ip} {x : Int} (h : event.callOf ip = some x) :
    event.time = x := by
  cases event with
  | call other now =>
    rw [Event.callOf] at h
    split at h
    · exact Option.some.inj h
    · cases h
  | tick now => cases h

theorem callTimes_ordered
    (horder : events.Pairwise fun first later => first.time ≤ later.time) (ip : Ip) :
    (callTimes ip events).Pairwise (· ≤ ·) := by
  apply horder.filterMap
  intro first later hle x hx y hy
  rw [← callOf_time hx, ← callOf_time hy]
  exact hle

/-- For every run in order of time and every address: the calls let through keep the limit in every
interval of the window's length exactly where the calls are spread over the fixed windows, and
an address that keeps the limit itself is never throttled. -/
theorem cover_limit (windowMs limit : Nat) (hwindow : 0 < windowMs) (events : List (Event Ip))
    (horder : events.Pairwise fun first later => first.time ≤ later.time) (ip : Ip) :
    (Limited windowMs limit (passedTimes ip (run windowMs limit events).answers) ↔
      Spread windowMs limit (callTimes ip events)) ∧
    (Limited windowMs limit (callTimes ip events) →
      ∀ answer ∈ (run windowMs limit events).answers, answer.ip = ip →
        answer.throttled = false) := by
  have hsound : Sound windowMs limit events ip := run_sound horder ip
  have htimes := callTimes_ordered horder ip
  refine ⟨?_, fun hlimited answer hanswer hip => ?_⟩
  · rw [hsound.passed]
    exact limited_iff hwindow htimes
  · rw [Bool.eq_false_iff]
    intro hthrottled
    obtain ⟨front, back, hsplit, hover⟩ := hsound.throttled answer hanswer hip hthrottled
    have hfront : Limited windowMs limit front := by
      intro a
      have hall := hlimited a
      rw [hsplit, within_append] at hall
      omega
    rw [hsplit] at htimes
    exact absurd (window_le hwindow (List.pairwise_append.mp htimes).1 hfront)
      (Nat.not_le.mpr hover)

end Limiter

/-- Two windows of ten, the second with one call, and the timer in between. -/
def spreadRun : List (Event Nat) := [.call 7 0, .call 7 3, .call 7 4, .tick 10, .call 7 15]

theorem cover_limit_spread :
    (run 10 2 spreadRun).answers.map Answer.throttled = [false, false, true, false] ∧
      Limited 10 2 (passedTimes 7 (run 10 2 spreadRun).answers) := by
  refine ⟨by decide, (cover_limit 10 2 (by decide) spreadRun (by decide) 7).1.mpr ?_⟩
  have hfirst : Spread 10 2 ([] ++ [0]) := spread_snoc.mpr ⟨spread_nil, by decide⟩
  have hsecond : Spread 10 2 ([0] ++ [3]) := spread_snoc.mpr ⟨hfirst, by decide⟩
  have hthird : Spread 10 2 ([0, 3] ++ [4]) := spread_snoc.mpr ⟨hsecond, by decide⟩
  exact spread_snoc.mpr ⟨hthird, by decide⟩

/-- Three calls within two milliseconds pass a limit of two in ten. -/
def burstRun : List (Event Nat) := [.call 7 0, .call 7 9, .call 7 10, .call 7 11]

theorem burst_passes :
    passedTimes 7 (run 10 2 burstRun).answers = [0, 9, 10, 11] ∧
      within 10 9 (passedTimes 7 (run 10 2 burstRun).answers) = 3 ∧
      ¬ Limited 10 2 (passedTimes 7 (run 10 2 burstRun).answers) := by
  refine ⟨by decide, by decide, fun h => ?_⟩
  exact absurd (h 9) (by decide)

end Meshpn.Tls.CoverLimit
