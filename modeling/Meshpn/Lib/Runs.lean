import Mathlib.Data.List.Basic
import Mathlib.Data.List.TakeWhile

/-!
Maximal runs of elements with a property. A text that is a run followed by
something that cannot go on with it is cut there by `takeWhile` and `dropWhile`,
so a pattern made of such runs has at most one match.

Logs that only grow at their end. A property of a log's entries may refer to the
entries before each one; it is then kept by appending an entry that has the
property after the log as it is.
-/

namespace Meshpn.Lib.Runs

variable {α : Type*} {p : α → Bool}

/-- The text is empty or its first element does not have the property. -/
def Stops (p : α → Bool) (text : List α) : Prop := ∀ c ∈ text.head?, p c = false

@[simp] theorem stops_nil : Stops p [] := by
  intro c hc
  cases hc

theorem stops_cons {c : α} {text : List α} : Stops p (c :: text) ↔ p c = false := by
  simp [Stops]

theorem stops_append {front back : List α} (hfront : front ≠ []) :
    Stops p (front ++ back) ↔ Stops p front := by
  cases front with
  | nil => exact absurd rfl hfront
  | cons c rest => simp [Stops]

theorem stops_dropWhile (text : List α) : Stops p (text.dropWhile p) := by
  induction text with
  | nil => exact stops_nil
  | cons c rest ih =>
    rw [List.dropWhile_cons]
    split
    · exact ih
    case isFalse hc => exact stops_cons.mpr (by simpa using hc)

theorem takeWhile_run {run rest : List α} (hrun : ∀ c ∈ run, p c = true) (hrest : Stops p rest) :
    (run ++ rest).takeWhile p = run := by
  rw [List.takeWhile_append_of_pos hrun]
  cases rest with
  | nil => simp
  | cons c rest => simp [stops_cons.mp hrest]

theorem dropWhile_run {run rest : List α} (hrun : ∀ c ∈ run, p c = true) (hrest : Stops p rest) :
    (run ++ rest).dropWhile p = rest := by
  rw [List.dropWhile_append_of_pos hrun]
  cases rest with
  | nil => simp
  | cons c rest => simp [stops_cons.mp hrest]

end Meshpn.Lib.Runs

namespace Meshpn.Lib.Log

variable {α : Type*}

/-- Every entry has the property with the entries before it. -/
def Each (P : List α → α → Prop) (log : List α) : Prop :=
  ∀ before entry after, log = before ++ entry :: after → P before entry

theorem Each.nil {P : List α → α → Prop} : Each P [] := by
  intro before entry after h
  simp at h

theorem Each.snoc {P : List α → α → Prop} {log : List α} (hlog : Each P log) {last : α}
    (hlast : P log last) : Each P (log ++ [last]) := by
  intro before entry after h
  rcases List.eq_nil_or_concat after with rfl | ⟨rest, final, rfl⟩
  · obtain ⟨rfl, hentry⟩ := List.append_inj' h rfl
    cases hentry
    exact hlast
  · rw [List.concat_eq_append, ← List.cons_append, ← List.append_assoc] at h
    obtain ⟨hfront, -⟩ := List.append_inj' h rfl
    exact hlog before entry rest hfront

theorem Each.append {P : List α → α → Prop} {log more : List α} (hlog : Each P log)
    (hmore : ∀ entry ∈ more, ∀ before, P before entry) : Each P (log ++ more) := by
  induction more generalizing log with
  | nil => simpa using hlog
  | cons entry rest ih =>
    rw [List.append_cons]
    refine ih (hlog.snoc (hmore entry List.mem_cons_self log)) ?_
    intro other hother
    exact hmore other (List.mem_cons_of_mem _ hother)

end Meshpn.Lib.Log
