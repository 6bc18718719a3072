import Meshpn.Lib.Checked
import Meshpn.Lib.Text

/-!
Texts of C in memory: the characters, then a terminator. A pointer into one is what is
left of it, the terminator included; reading behind the terminator is a fault.
-/

namespace Meshpn.Lib

open Checked Scan

/-- A text without the terminator in it. -/
structure CString where
  text : List Char
  ends : '\x00' ∉ text

namespace CString

/-- The text as it stands in memory. -/
def stored (s : List Char) : List Char := s ++ ['\x00']

/-- `*p`. -/
def char : List Char → Except Checked.Fault Char
  | [] => .error .range
  | c :: _ => .ok c

/-- `while (p(*s)) s++`: what was passed over, and what is left. -/
def passWhile (p : Char → Bool) : List Char → Except Checked.Fault (List Char × List Char)
  | [] => .error .range
  | c :: rest =>
    if p c then (passWhile p rest).map fun (passed, rest) => (c :: passed, rest)
    else .ok ([], c :: rest)

/-- Copying a text into an array. -/
def copy (size : Nat) (s : List Char) : Except Checked.Fault (List Char) :=
  if s.length ≤ size then .ok s else .error .range

@[simp] theorem char_nil : char (stored []) = .ok '\x00' := rfl

@[simp] theorem char_cons (c : Char) (s : List Char) : char (stored (c :: s)) = .ok c := rfl

theorem char_stored (s : List Char) : char (stored s) = .ok (s.headD '\x00') := by
  cases s <;> rfl

@[simp] theorem tail_stored (c : Char) (s : List Char) : (stored (c :: s)).tail = stored s := rfl

theorem passWhile_stored {p : Char → Bool} (hp : p '\x00' = false) (s : List Char) :
    passWhile p (stored s) = .ok (s.takeWhile p, stored (s.dropWhile p)) := by
  induction s with
  | nil =>
    change passWhile p ['\x00'] = _
    rw [passWhile, hp]
    rfl
  | cons c s ih =>
    change passWhile p (c :: stored s) = _
    rw [passWhile, ih]
    cases hc : p c with
    | true =>
      rw [List.takeWhile_cons_of_pos hc, List.dropWhile_cons_of_pos hc]
      rfl
    | false =>
      have hnot : ¬p c = true := by rw [hc]; exact Bool.false_ne_true
      rw [List.takeWhile_cons_of_neg hnot, List.dropWhile_cons_of_neg hnot]
      rfl

theorem copy_ok {size : Nat} {s : List Char} (h : s.length ≤ size) : copy size s = .ok s := if_pos h

theorem char_ne_end {c : Char} {s : List Char} (h : '\x00' ∉ c :: s) : c ≠ '\x00' :=
  fun heq => h (heq ▸ List.mem_cons_self)

theorem head_end_iff {s : List Char} (h : '\x00' ∉ s) : s.headD '\x00' = '\x00' ↔ s = [] := by
  cases s with
  | nil => exact ⟨fun _ => rfl, fun _ => rfl⟩
  | cons c s => exact ⟨fun heq => absurd heq (char_ne_end h), fun heq => by cases heq⟩

theorem rest_ends {c : Char} {s : List Char} (h : '\x00' ∉ c :: s) : '\x00' ∉ s :=
  fun hmem => h (List.mem_cons_of_mem _ hmem)

theorem dropWhile_ends {p : Char → Bool} {s : List Char} (h : '\x00' ∉ s) :
    '\x00' ∉ s.dropWhile p := fun hmem => h ((List.dropWhile_suffix p).subset hmem)

end CString

end Meshpn.Lib
