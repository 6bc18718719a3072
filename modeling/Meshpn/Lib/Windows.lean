import Mathlib.Algebra.Order.Floor.Ring
import Mathlib.Data.List.Basic
import Mathlib.Data.Rat.Floor
import Mathlib.Tactic.Linarith

/-!
Time cut into windows of one length, numbered by floor division. An interval
of times touches every window from that of its start to that of its end, so a
window is further than one from all of them exactly where it is so from the two at the ends.

How many times of a list fall into an interval of a fixed length. A list in
order keeps a bound in every interval exactly where it keeps it in the
intervals that end with one of its times, so a time that is added behind the
others has only its own interval to answer for.
-/

namespace Meshpn.Lib

/-- The number of the window that a time falls into. -/
def window (length time : ℚ) : ℤ := ⌊time / length⌋

namespace Windows

variable {length : ℚ}

theorem window_mono (hlength : 0 < length) {a b : ℚ} (h : a ≤ b) :
    window length a ≤ window length b :=
  Int.floor_mono (div_le_div_of_nonneg_right h hlength.le)

theorem window_start (hlength : 0 < length) (v : ℤ) : window length (v * length) = v := by
  rw [window, mul_div_assoc, div_self hlength.ne', mul_one, Int.floor_intCast]

theorem lt_start {a : ℚ} (hlength : 0 < length) {v : ℤ} (h : window length a < v) :
    a < v * length := by
  have hfloor := Int.floor_lt.mp h
  rwa [div_lt_iff₀ hlength] at hfloor

theorem start_le {b : ℚ} (hlength : 0 < length) {v : ℤ} (h : v ≤ window length b) :
    v * length ≤ b := by
  have hfloor := Int.le_floor.mp h
  rwa [le_div_iff₀ hlength] at hfloor

theorem exists_window (hlength : 0 < length) {a b : ℚ} (hab : a ≤ b) {v : ℤ}
    (hlow : window length a ≤ v) (hhigh : v ≤ window length b) :
    ∃ s, a ≤ s ∧ s ≤ b ∧ window length s = v := by
  rcases hlow.eq_or_lt with rfl | hlow
  · exact ⟨a, le_refl a, hab, rfl⟩
  · exact ⟨v * length, (lt_start hlength hlow).le, start_le hlength hhigh,
      window_start hlength v⟩

/-- A window is further than one from every window of an interval exactly where it is before
the first or behind the last of them by more than one. -/
theorem apart_iff (hlength : 0 < length) {a b : ℚ} (hab : a ≤ b) (client : ℤ) :
    (∀ s, a ≤ s → s ≤ b → 1 < |client - window length s|) ↔
      client + 1 < window length a ∨ window length b + 1 < client := by
  constructor
  · intro happart
    have hends := window_mono hlength hab
    obtain ⟨s, has, hsb, hs⟩ := exists_window hlength hab
      (v := max (window length a) (min client (window length b))) (by omega) (by omega)
    have hfar := happart s has hsb
    rw [lt_abs] at hfar
    omega
  · intro houtside s has hsb
    have hlow := window_mono hlength has
    have hhigh := window_mono hlength hsb
    rw [lt_abs]
    omega

end Windows

end Meshpn.Lib

namespace Meshpn.Lib.Sliding

variable {width limit : Nat} {times front : List Int} {t : Int}

/-- How many of the times lie in the interval from `a`, its end not included. -/
def within (width : Nat) (a : Int) (times : List Int) : Nat :=
  times.countP fun t => a ≤ t ∧ t < a + width

/-- How many of the times are less than the width before `t`, or behind it. -/
def recent (width : Nat) (t : Int) (times : List Int) : Nat :=
  times.countP fun x => t - width < x

/-- At most `limit` of the times lie in any interval. -/
def Limited (width limit : Nat) (times : List Int) : Prop :=
  ∀ a, within width a times ≤ limit

theorem within_append (a : Int) (front back : List Int) :
    within width a (front ++ back) = within width a front + within width a back :=
  List.countP_append

theorem recent_append (front back : List Int) :
    recent width t (front ++ back) = recent width t front + recent width t back :=
  List.countP_append

theorem recent_eq_zero (h : ∀ x ∈ times, x ≤ t - width) : recent width t times = 0 := by
  rw [recent, List.countP_eq_zero]
  intro x hx
  have hold := h x hx
  simp only [decide_eq_true_eq]
  omega

theorem recent_eq_length (h : ∀ x ∈ times, t - width < x) :
    recent width t times = times.length := by
  rw [recent, List.countP_eq_length]
  intro x hx
  exact decide_eq_true (h x hx)

theorem within_eq_length {a : Int} (h : ∀ x ∈ times, a ≤ x ∧ x < a + width) :
    within width a times = times.length := by
  rw [within, List.countP_eq_length]
  intro x hx
  exact decide_eq_true (h x hx)

/-- A time behind the others keeps the bound where it does so in the interval that ends
with it. -/
theorem limited_snoc (hwidth : 0 < width) (horder : ∀ x ∈ times, x ≤ t) :
    Limited width limit (times ++ [t]) ↔
      Limited width limit times ∧ recent width t times + 1 ≤ limit := by
  have hlast : ∀ a, within width a [t] = if a ≤ t ∧ t < a + width then 1 else 0 := by
    intro a
    simp [within]
  constructor
  · intro h
    refine ⟨fun a => ?_, ?_⟩
    · have hall := h a
      rw [within_append] at hall
      omega
    · have hall := h (t - width + 1)
      have hcount : within width (t - width + 1) times = recent width t times := by
        apply List.countP_congr
        intro x hx
        have hle := horder x hx
        simp only [decide_eq_true_eq]
        omega
      rw [within_append, hcount, hlast, if_pos (by omega)] at hall
      exact hall
  · rintro ⟨htimes, hrecent⟩ a
    rw [within_append, hlast]
    split
    case isFalse => exact htimes a
    have hcount : within width a times ≤ recent width t times := by
      apply List.countP_mono_left
      intro x _ hx
      simp only [decide_eq_true_eq] at hx ⊢
      omega
    omega

end Meshpn.Lib.Sliding
