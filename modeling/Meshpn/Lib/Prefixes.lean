import Mathlib.Data.Nat.Notation

/-!
Addresses of a fixed width and the sets that their prefixes stand for. A mask of the
first bits is contiguous; two of them are always nested, so that two prefixes have an
address in common exactly when they agree under the shorter mask.
-/

namespace Meshpn.Lib.Prefixes

variable {w : ℕ}

/-- The mask of the first `n` bits. -/
def mask (w n : ℕ) : BitVec w := BitVec.allOnes w <<< (w - n)

/-- The address is one of those that the mask cannot tell from `a`. -/
def Covers (a m x : BitVec w) : Prop := x &&& m = a &&& m

theorem getLsbD_mask (n i : ℕ) : (mask w n).getLsbD i = (decide (i < w) && decide (w - n ≤ i)) := by
  rw [mask, BitVec.getLsbD_shiftLeft, BitVec.getLsbD_allOnes]
  rw [Bool.eq_iff_iff]
  simp only [Bool.and_eq_true, decide_eq_true_eq, Bool.not_eq_true', decide_eq_false_iff_not]
  omega

theorem mask_and_mask (m n : ℕ) : mask w m &&& mask w n = mask w (min m n) := by
  apply BitVec.eq_of_getLsbD_eq
  intro i hi
  rw [BitVec.getLsbD_and, getLsbD_mask, getLsbD_mask, getLsbD_mask, Bool.eq_iff_iff]
  simp only [Bool.and_eq_true, decide_eq_true_eq]
  omega

theorem and_mask_eq_iff (a x : BitVec w) (n : ℕ) :
    x &&& mask w n = a &&& mask w n ↔ ∀ i, i < w → w - n ≤ i → x.getLsbD i = a.getLsbD i := by
  constructor
  · intro h i hi hmask
    have hbit := congrArg (fun v => v.getLsbD i) h
    simp only [BitVec.getLsbD_and, getLsbD_mask, hi, hmask, decide_true, Bool.and_self,
      Bool.and_true] at hbit
    exact hbit
  · intro h
    apply BitVec.eq_of_getLsbD_eq
    intro i hi
    rw [BitVec.getLsbD_and, BitVec.getLsbD_and, getLsbD_mask]
    by_cases hmask : w - n ≤ i
    · rw [h i hi hmask]
    · simp [hmask]

theorem covers_mask_iff {n : ℕ} (hn : n ≤ w) (a x : BitVec w) :
    Covers a (mask w n) x ↔ ∀ i < n, x.getMsbD i = a.getMsbD i := by
  rw [Covers, and_mask_eq_iff]
  constructor
  · intro h i hi
    rw [BitVec.getMsbD_eq_getLsbD, BitVec.getMsbD_eq_getLsbD, h (w - 1 - i) (by omega) (by omega)]
  · intro h i hi hmask
    have hbit := h (w - 1 - i) (by omega)
    rw [BitVec.getMsbD_eq_getLsbD, BitVec.getMsbD_eq_getLsbD] at hbit
    have hplace : w - 1 - (w - 1 - i) = i := by omega
    have hlt : w - 1 - i < w := by omega
    simpa [hplace, hlt] using hbit

theorem meet_iff {m n : ℕ} (a b : BitVec w) :
    a &&& (mask w m &&& mask w n) = b &&& (mask w m &&& mask w n) ↔
      ∃ x, Covers a (mask w m) x ∧ Covers b (mask w n) x := by
  constructor
  · intro h
    rcases Nat.le_total m n with hle | hle
    · have hcommon : mask w m &&& mask w n = mask w m := by
        rw [mask_and_mask, Nat.min_eq_left hle]
      rw [hcommon] at h
      exact ⟨b, h.symm, rfl⟩
    · have hcommon : mask w m &&& mask w n = mask w n := by
        rw [mask_and_mask, Nat.min_eq_right hle]
      rw [hcommon] at h
      exact ⟨a, rfl, h⟩
  · rintro ⟨x, ha, hb⟩
    rw [← BitVec.and_assoc, ← ha, BitVec.and_comm (mask w m), ← BitVec.and_assoc, ← hb,
      BitVec.and_assoc, BitVec.and_assoc, BitVec.and_comm (mask w m)]

end Meshpn.Lib.Prefixes
