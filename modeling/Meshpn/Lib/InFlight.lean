import Mathlib.Algebra.BigOperators.Group.List.Basic
import Mathlib.Tactic.Abel

/-!
Calls in flight. Each of them stands at a point of its own; a step takes one of them
further or lets it return. What the calls hold is added up over all of them, in any
commutative monoid: numbers for a count, multisets for the things they own.
-/

namespace Meshpn.Lib.InFlight

open List

variable {Call M : Type*} [AddCommMonoid M]

/-- The calls after the one at `i` has gone on to another point, or has returned. -/
def resume (calls : List Call) (i : Nat) : Option Call → List Call
  | some call => calls.set i call
  | none => calls.eraseIdx i

/-- What all the calls hold together. -/
def total (holds : Call → M) (calls : List Call) : M := (calls.map holds).sum

/-- What a call holds that may have returned. -/
def held (holds : Call → M) (call : Option Call) : M := call.elim 0 holds

variable {holds : Call → M} {calls : List Call} {i : Nat} {call : Call} {next : Option Call}

@[simp] theorem total_nil : total holds [] = 0 := rfl

@[simp] theorem held_some : held holds (some call) = holds call := rfl

@[simp] theorem held_none : held holds none = 0 := rfl

theorem total_begin : total holds (calls ++ [call]) = total holds calls + holds call := by
  simp [total]

theorem total_resume (h : calls[i]? = some call) :
    total holds (resume calls i next) + holds call = total holds calls + held holds next := by
  induction calls generalizing i with
  | nil => simp at h
  | cons first rest ih =>
    cases i with
    | zero =>
      obtain rfl : first = call := by simpa using h
      cases next with
      | some next => simp only [resume, total, set_cons_zero, map_cons, sum_cons,
          held_some, add_comm, add_left_comm]
      | none => simp only [resume, total, eraseIdx_cons_zero, map_cons, sum_cons,
          held_none, add_zero, add_comm]
    | succ i =>
      have hrest := ih (by simpa using h)
      cases next with
      | some next =>
        simp only [resume, total, set_cons_succ, map_cons, sum_cons] at hrest ⊢
        rw [add_assoc, hrest, add_assoc]
      | none =>
        simp only [resume, total, eraseIdx_cons_succ, map_cons, sum_cons] at hrest ⊢
        rw [add_assoc, hrest, add_assoc]

theorem total_exchange {M : Type*} [AddCancelCommMonoid M] {holds : Call → M}
    {outside outside' gain : M} (h : calls[i]? = some call)
    (hmove : outside' + held holds next = outside + holds call + gain) :
    outside' + total holds (resume calls i next) = outside + total holds calls + gain := by
  have hresume : total holds (resume calls i next) + holds call =
      total holds calls + held holds next := total_resume h
  refine add_right_cancel (b := holds call + held holds next) ?_
  calc outside' + total holds (resume calls i next) + (holds call + held holds next)
      = outside' + held holds next + (total holds (resume calls i next) + holds call) := by abel
    _ = outside + holds call + gain + (total holds calls + held holds next) := by
        rw [hmove, hresume]
    _ = outside + total holds calls + gain + (holds call + held holds next) := by abel

theorem exists_total_eq (h : call ∈ calls) : ∃ others, total holds calls = holds call + others := by
  obtain ⟨front, back, rfl⟩ := append_of_mem h
  refine ⟨total holds front + total holds back, ?_⟩
  simp only [total, map_append, map_cons, sum_append, sum_cons, add_left_comm]

theorem countP_set (p : Call → Bool) (next : Call) (h : calls[i]? = some call) :
    (calls.set i next).countP p + (p call).toNat = calls.countP p + (p next).toNat := by
  have htotal : ∀ calls : List Call,
      calls.countP p = total (fun call => (p call).toNat) calls := by
    intro calls
    induction calls with
    | nil => rfl
    | cons first rest ih =>
      rw [countP_cons, ih, total, total, map_cons, Nat.add_comm]
      cases p first <;> rfl
  rw [htotal, htotal]
  have hresume : total (fun call => (p call).toNat) (resume calls i (some next)) + (p call).toNat =
      total (fun call => (p call).toNat) calls + (p next).toNat := total_resume h
  exact hresume

theorem mem_resume {other : Call} (h : other ∈ resume calls i next) :
    other ∈ calls ∨ next = some other := by
  cases next with
  | some next =>
    obtain h | rfl := mem_or_eq_of_mem_set h
    · exact .inl h
    · exact .inr rfl
  | none => exact .inl (mem_of_mem_eraseIdx h)

end Meshpn.Lib.InFlight
