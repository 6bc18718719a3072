import Mathlib.Data.List.Basic
import Meshpn.Lib.Checked

/-!
The log of the device: what was last logged, in an array that is written around its end.
A copy is taken in two parts, with a terminator behind it.
-/

namespace Meshpn.Device.LogRing

open Meshpn.Lib Meshpn.Lib.Checked List

def bufSize : Nat := 12288

/-- `s_buf`, `s_head` and `s_wrapped`. -/
structure Log where
  buf : Bytes
  head : Nat
  wrapped : Bool

/-- The log when its memory has been allocated. -/
def fresh (memory : Nat → UInt8) : Log := ⟨(List.range bufSize).map memory, 0, false⟩

/-- One turn of the loop of `meshvpn_log_append`. -/
def appendByte (log : Log) (c : UInt8) : Except Checked.Fault Log := do
  let buf ← store log.buf log.head c.toNat
  let head := log.head + 1
  return if head = bufSize then ⟨buf, 0, true⟩ else ⟨buf, head, log.wrapped⟩

def append (log : Log) (data : Bytes) : Except Checked.Fault Log := data.foldlM appendByte log

/-- The two parts of a copy of so many bytes, of which the second starts over. -/
def copyParts (log : Log) (start total : Nat) (out : Bytes) : Except Checked.Fault Bytes := do
  let first := if bufSize - start > total then total else bufSize - start
  let out ← blit out 0 log.buf start first
  if total > first then blit out first log.buf 0 (total - first) else return out

/-- `meshvpn_log_copy`, into an array that is there: how much was copied, and the array. The lock
may not be there, or not free in time. -/
def copy (taken : Bool) (log : Log) (out : Bytes) : Except Checked.Fault (Nat × Bytes) := do
  if out.length = 0 then return (0, out)
  else if !taken then return (0, ← store out 0 0)
  else
    let total := if log.wrapped then bufSize else log.head
    let skip := if total > out.length - 1 then total - (out.length - 1) else 0
    let total := if total > out.length - 1 then out.length - 1 else total
    let start := ((if log.wrapped then log.head else 0) + skip) % bufSize
    let out ← store (← copyParts log start total out) total 0
    return (total, out)

/-- The array holds the last of what was logged, byte `i` where the rest of `i` is. -/
structure Holds (log : Log) (logged : Bytes) : Prop where
  size : log.buf.length = bufSize
  head : log.head = logged.length % bufSize
  wrapped : log.wrapped = true ↔ bufSize ≤ logged.length
  last : ∀ i, logged.length ≤ i + bufSize → i < logged.length →
    log.buf[i % bufSize]? = logged[i]?

theorem bufSize_pos : 0 < bufSize := by decide

theorem fresh_holds (memory : Nat → UInt8) : Holds (fresh memory) [] where
  size := by rw [fresh, length_map, length_range]
  head := (Nat.zero_mod _).symm
  wrapped := ⟨(fun h => by cases h), fun h => absurd bufSize_pos (Nat.not_lt.mpr h)⟩
  last := fun _ _ h => absurd h (Nat.not_lt_zero _)

theorem place_ne {i j : Nat} (hlt : i < j) (hnear : j < i + bufSize) :
    j % bufSize ≠ i % bufSize := by
  intro hsame
  have hdvd : bufSize ∣ j - i := Nat.dvd_of_mod_eq_zero (Nat.sub_mod_eq_zero_of_mod_eq hsame)
  have hzero : j - i = 0 := Nat.eq_zero_of_dvd_of_lt hdvd (by omega)
  omega

theorem Holds.step {log : Log} {logged : Bytes} (h : Holds log logged) (c : UInt8) :
    ∃ after, appendByte log c = .ok after ∧ Holds after (logged ++ [c]) := by
  have hlt : log.head < log.buf.length := by
    rw [h.size, h.head]
    exact Nat.mod_lt _ bufSize_pos
  have hstore : store log.buf log.head c.toNat = .ok (log.buf.set log.head c) := by
    rw [store, if_pos hlt, UInt8.ofNat_toNat]
  have hlength : (logged ++ [c]).length = logged.length + 1 := by
    rw [length_append, length_singleton]
  have hlast : ∀ i, (logged ++ [c]).length ≤ i + bufSize → i < (logged ++ [c]).length →
      (log.buf.set log.head c)[i % bufSize]? = (logged ++ [c])[i]? := by
    intro i hnear hi
    rw [hlength] at hnear hi
    rcases Nat.lt_or_eq_of_le (Nat.le_of_lt_succ hi) with hold | rfl
    · have hne : log.head ≠ i % bufSize := by
        rw [h.head]
        exact place_ne hold (by omega)
      rw [getElem?_set_ne hne, getElem?_append_left hold]
      exact h.last i (by omega) hold
    · rw [← h.head, getElem?_set_self hlt, getElem?_concat_length]
  have hhead := h.head
  have hmod := Nat.div_add_mod logged.length bufSize
  unfold appendByte
  rw [hstore]
  refine ⟨_, rfl, ?_⟩
  split
  case isTrue hfull =>
    refine ⟨by rw [length_set, h.size], ?_, ⟨fun _ => ?_, fun _ => rfl⟩, hlast⟩
    · rw [hlength, ← Nat.mod_add_mod, ← hhead, hfull, Nat.mod_self]
    · have hle := Nat.mod_le logged.length bufSize
      omega
  case isFalse hroom =>
    have hbound := Nat.mod_lt logged.length bufSize_pos
    refine ⟨by rw [length_set, h.size], ?_, ?_, hlast⟩
    · rw [hlength, ← Nat.mod_add_mod, ← hhead, Nat.mod_eq_of_lt (by omega)]
    rw [hlength]
    refine h.wrapped.trans ⟨fun hle => by omega, fun hle => ?_⟩
    by_contra hnot
    rw [Nat.mod_eq_of_lt (Nat.not_le.mp hnot)] at hhead
    omega

theorem Holds.append {log : Log} {logged : Bytes} (h : Holds log logged) (data : Bytes) :
    ∃ after, append log data = .ok after ∧ Holds after (logged ++ data) := by
  induction data generalizing log logged with
  | nil => exact ⟨log, rfl, by rwa [append_nil]⟩
  | cons c data ih =>
    obtain ⟨next, hnext, hholds⟩ := h.step c
    obtain ⟨after, hafter, hholds'⟩ := ih hholds
    refine ⟨after, ?_, ?_⟩
    · rw [LogRing.append, foldlM_cons, hnext]
      exact hafter
    · rwa [append_assoc, singleton_append] at hholds'

section Copy

variable {log : Log} {logged : Bytes}

theorem Holds.part (h : Holds log logged) {k n : Nat} (hold : logged.length ≤ k + bufSize)
    (hend : k + n ≤ logged.length) (haround : k % bufSize + n ≤ bufSize) :
    (log.buf.drop (k % bufSize)).take n = (logged.drop k).take n := by
  apply ext_getElem?
  intro i
  rw [getElem?_take, getElem?_take, getElem?_drop, getElem?_drop]
  by_cases hi : i < n
  case neg => rw [if_neg hi, if_neg hi]
  have hplace : (k + i) % bufSize = k % bufSize + i := by
    rw [← Nat.mod_add_mod, Nat.mod_eq_of_lt (by omega)]
  rw [if_pos hi, if_pos hi, ← hplace]
  exact h.last (k + i) (by omega) (by omega)

theorem Holds.start (h : Holds log logged) {n : Nat} (hn : n ≤ min logged.length bufSize) :
    ((if log.wrapped then log.head else 0) +
      ((if log.wrapped then bufSize else log.head) - n)) % bufSize =
      (logged.length - n) % bufSize := by
  have hwrapped := h.wrapped
  have hhead := h.head
  cases hw : log.wrapped with
  | true =>
    have hfull := hwrapped.mp hw
    have hsum : logged.length + (bufSize - n) = logged.length - n + bufSize := by omega
    simp only [if_true]
    rw [hhead, Nat.mod_add_mod, hsum, Nat.add_mod_right]
  | false =>
    have hroom : logged.length < bufSize := by
      rw [← Nat.not_le, ← hwrapped, hw]
      exact Bool.false_ne_true
    rw [Nat.mod_eq_of_lt hroom] at hhead
    simp only [Bool.false_eq_true, if_false]
    rw [Nat.zero_add, hhead]

theorem Holds.total (h : Holds log logged) :
    (if log.wrapped then bufSize else log.head) = min logged.length bufSize := by
  have hwrapped := h.wrapped
  cases hw : log.wrapped with
  | true =>
    rw [if_pos rfl, Nat.min_eq_right (hwrapped.mp hw)]
  | false =>
    have hroom : logged.length < bufSize := by
      rw [← Nat.not_le, ← hwrapped, hw]
      exact Bool.false_ne_true
    rw [if_neg Bool.false_ne_true, h.head, Nat.mod_eq_of_lt hroom, Nat.min_eq_left (by omega)]

theorem Holds.parts (h : Holds log logged) {n : Nat} (hn : n ≤ min logged.length bufSize)
    {out : Bytes} (hout : n ≤ out.length) :
    copyParts log ((logged.length - n) % bufSize) n out =
      .ok (logged.drop (logged.length - n) ++ out.drop n) := by
  have hstart := Nat.mod_lt (logged.length - n) bufSize_pos
  have hsize := h.size
  have hfirst : (if bufSize - (logged.length - n) % bufSize > n then n
      else bufSize - (logged.length - n) % bufSize) =
      min (bufSize - (logged.length - n) % bufSize) n := by
    split <;> omega
  unfold copyParts
  rw [hfirst]
  generalize hcut : min (bufSize - (logged.length - n) % bufSize) n = first
  have hpart := @Holds.part _ _ h (logged.length - n) first (by omega) (by omega) (by omega)
  have hlength : ((logged.drop (logged.length - n)).take first).length = first := by
    rw [length_take, length_drop]
    omega
  dsimp only
  rw [blit_ok (by omega) (by omega), hpart, take_zero, nil_append, Nat.zero_add]
  change (if n > first then
    blit ((logged.drop (logged.length - n)).take first ++ out.drop first) first log.buf 0
      (n - first)
    else .ok ((logged.drop (logged.length - n)).take first ++ out.drop first)) = _
  split
  case isTrue hmore =>
    have hzero : (logged.length - n + first) % bufSize = 0 := by
      have hsum : (logged.length - n) % bufSize + first = bufSize := by omega
      rw [← Nat.mod_add_mod, hsum, Nat.mod_self]
    have hrest := @Holds.part _ _ h (logged.length - n + first) (n - first) (by omega) (by omega)
      (by omega)
    have hwhole : (logged.drop (logged.length - n)).take first ++
        (logged.drop (logged.length - n + first)).take (n - first) =
        logged.drop (logged.length - n) := by
      rw [← drop_drop, ← take_add, Nat.add_sub_cancel' (Nat.le_of_lt hmore)]
      refine take_of_length_le ?_
      rw [length_drop]
      omega
    rw [hzero] at hrest
    rw [blit_ok (by omega) (by rw [length_append, hlength, length_drop]; omega), hrest,
      take_left' hlength, hwhole, ← drop_drop, drop_left' hlength, drop_drop,
      Nat.add_sub_cancel' (Nat.le_of_lt hmore)]
  case isFalse hall =>
    have hsame : first = n := by omega
    rw [hsame, take_of_length_le (by rw [length_drop]; omega)]

/-- A copy is the last of what was logged, as much as there is of it and room for, and a
terminator; what is behind that stays. -/
theorem Holds.copy (h : Holds log logged) (c : UInt8) (rest : Bytes) {n : Nat}
    (hn : n = min (min logged.length bufSize) rest.length) :
    copy true log (c :: rest) = .ok (n, logged.drop (logged.length - n) ++ 0 :: rest.drop n) := by
  have htotal : (if (if log.wrapped then bufSize else log.head) > (c :: rest).length - 1
      then (c :: rest).length - 1 else if log.wrapped then bufSize else log.head) = n := by
    rw [h.total, length_cons, Nat.add_sub_cancel, hn]
    split <;> omega
  have hskip : (if (if log.wrapped then bufSize else log.head) > (c :: rest).length - 1
      then (if log.wrapped then bufSize else log.head) - ((c :: rest).length - 1) else 0) =
      (if log.wrapped then bufSize else log.head) - n := by
    rw [h.total, length_cons, Nat.add_sub_cancel, hn]
    split <;> omega
  have hlast : (logged.drop (logged.length - n)).length = n := by
    rw [length_drop]
    omega
  obtain ⟨old, hdrop⟩ : ∃ old, (c :: rest).drop n = old :: rest.drop n := by
    have hin : n < (c :: rest).length := by rw [length_cons]; omega
    exact ⟨_, by rw [drop_eq_getElem_cons hin, drop_succ_cons]⟩
  unfold LogRing.copy
  rw [if_neg (by rw [length_cons]; omega), if_neg (by decide)]
  simp only [htotal, hskip, h.start (show n ≤ min logged.length bufSize by omega)]
  rw [h.parts (by omega) (by rw [length_cons]; omega), hdrop]
  change (store _ n 0).bind (fun out => .ok (n, out)) = _
  rw [store, if_pos (by rw [length_append, hlast, length_cons]; omega),
    set_append_right _ _ (by omega), hlast, Nat.sub_self, set_cons_zero]
  rfl

end Copy

/-- `meshvpn_log_append` for one text after the other. -/
def appendAll (log : Log) (texts : List Bytes) : Except Checked.Fault Log := texts.foldlM append log

theorem Holds.appendAll {log : Log} {logged : Bytes} (h : Holds log logged) (texts : List Bytes) :
    ∃ after, appendAll log texts = .ok after ∧ Holds after (logged ++ texts.flatten) := by
  induction texts generalizing log logged with
  | nil => exact ⟨log, rfl, by rwa [flatten_nil, append_nil]⟩
  | cons text texts ih =>
    obtain ⟨next, hnext, hholds⟩ := h.append text
    obtain ⟨after, hafter, hholds'⟩ := ih hholds
    refine ⟨after, ?_, ?_⟩
    · rw [LogRing.appendAll, foldlM_cons, hnext]
      exact hafter
    · rwa [append_assoc, ← flatten_cons] at hholds'

/-- Whatever was logged, a copy with the lock into an array of at least one byte is the last of it
and a terminator. Nothing outside the two arrays is read or written: no access faults. -/
theorem log_copied (memory : Nat → UInt8) (texts : List Bytes) (c : UInt8) (rest : Bytes) :
    ∃ log, appendAll (fresh memory) texts = .ok log ∧
      copy true log (c :: rest) =
        .ok (min (min texts.flatten.length bufSize) ((c :: rest).length - 1),
          texts.flatten.drop (texts.flatten.length -
            min (min texts.flatten.length bufSize) ((c :: rest).length - 1)) ++
          0 :: rest.drop (min (min texts.flatten.length bufSize) ((c :: rest).length - 1))) := by
  obtain ⟨log, hlog, hholds⟩ := (fresh_holds memory).appendAll texts
  exact ⟨log, hlog, hholds.copy c rest rfl⟩

end Meshpn.Device.LogRing
