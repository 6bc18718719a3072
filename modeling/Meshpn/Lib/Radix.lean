import Mathlib.Data.List.Induction
import Mathlib.Data.Nat.Digits.Lemmas
import Mathlib.Tactic.Ring
import Meshpn.Lib.Runs

/-!
Long numbers in another base. The digits of the result stand with the lowest one
first; every digit of the input multiplies them by the base of the input and is
added, with a carry from each place to the next. Zeros in front of the input have
no value and are kept as digits of their own.
-/

namespace Meshpn.Lib.Radix

open List

variable {factor base : Nat}

/-- The rest of a carry, as further digits. -/
def spill (base : Nat) : Nat → Nat → List Nat
  | 0, _ => []
  | fuel + 1, carry => if carry = 0 then [] else carry % base :: spill base fuel (carry / base)

/-- The digits multiplied by the factor, plus the carry. -/
def absorb (factor base : Nat) : Nat → List Nat → List Nat
  | carry, [] => spill base carry carry
  | carry, digit :: digits =>
    (carry + digit * factor) % base :: absorb factor base ((carry + digit * factor) / base) digits

/-- The digits of the number whose digits in the base `factor` are the input, highest first. -/
def convert (factor base : Nat) (input : List Nat) : List Nat :=
  input.foldl (fun digits item => absorb factor base item digits) [0]

/-- The number with these digits, highest first. -/
def value (factor : Nat) (input : List Nat) : Nat := Nat.ofDigits factor input.reverse

/-- The digits of a number, where zero has one. -/
def numeral (base n : Nat) : List Nat := if n = 0 then [0] else Nat.digits base n

theorem spill_eq (hbase : 1 < base) {fuel carry : Nat} (hfuel : carry ≤ fuel) :
    spill base fuel carry = Nat.digits base carry := by
  induction fuel generalizing carry with
  | zero =>
    rw [Nat.le_zero.mp hfuel, Nat.digits_zero, spill]
  | succ fuel ih =>
    by_cases hzero : carry = 0
    · rw [spill, if_pos hzero, hzero, Nat.digits_zero]
    have hpos := Nat.pos_of_ne_zero hzero
    have hless := Nat.div_lt_self hpos hbase
    rw [spill, if_neg hzero, Nat.digits_def' hbase hpos, ih (by omega)]

theorem absorb_digits (hbase : 1 < base) (hfactor : 0 < factor) (carry n : Nat) :
    absorb factor base carry (Nat.digits base n) = Nat.digits base (carry + factor * n) := by
  induction n using Nat.strong_induction_on generalizing carry with
  | _ n ih =>
    by_cases hzero : n = 0
    · rw [hzero, Nat.digits_zero, absorb, spill_eq hbase le_rfl, Nat.mul_zero, Nat.add_zero]
    have hpos := Nat.pos_of_ne_zero hzero
    have hsum : 0 < carry + factor * n := Nat.add_pos_right _ (Nat.mul_pos hfactor hpos)
    -- the lowest digit is absorbed with the carry, the others with what is left of it
    have hsplit : carry + factor * n =
        carry + n % base * factor + base * (factor * (n / base)) := by
      conv_lhs => rw [← Nat.mod_add_div n base]
      ring
    rw [Nat.digits_def' hbase hpos, absorb, ih _ (Nat.div_lt_self hpos hbase),
      Nat.digits_def' hbase hsum, hsplit, Nat.add_mul_mod_self_left,
      Nat.add_mul_div_left _ _ (Nat.zero_lt_of_lt hbase)]

theorem absorb_numeral (hbase : 1 < base) (hfactor : 0 < factor) (carry n : Nat) :
    absorb factor base carry (numeral base n) = numeral base (carry + factor * n) := by
  by_cases hzero : n = 0
  · subst hzero
    rw [numeral, if_pos rfl, absorb, absorb, spill_eq hbase le_rfl, Nat.zero_mul, Nat.add_zero,
      Nat.mul_zero, Nat.add_zero, numeral]
    split
    case isTrue hcarry =>
      rw [hcarry, Nat.zero_mod, Nat.zero_div, Nat.digits_zero]
    case isFalse hcarry => rw [← Nat.digits_def' hbase (Nat.pos_of_ne_zero hcarry)]
  · have hpos : carry + factor * n ≠ 0 :=
      (Nat.add_pos_right _ (Nat.mul_pos hfactor (Nat.pos_of_ne_zero hzero))).ne'
    rw [numeral, if_neg hzero, absorb_digits hbase hfactor, numeral, if_neg hpos]

theorem value_concat (input : List Nat) (item : Nat) :
    value factor (input ++ [item]) = item + factor * value factor input := by
  rw [value, reverse_append, reverse_singleton, singleton_append, Nat.ofDigits_cons]
  rfl

theorem convert_eq (hbase : 1 < base) (hfactor : 0 < factor) (input : List Nat) :
    convert factor base input = numeral base (value factor input) := by
  induction input using List.reverseRecOn with
  | nil => rfl
  | append_singleton input item ih =>
    rw [convert, foldl_append, foldl_cons, foldl_nil, ← convert, ih,
      absorb_numeral hbase hfactor, value_concat]

/-- The zeros in front stay, the rest is converted. -/
def recode (factor base : Nat) (input : List Nat) : List Nat :=
  input.takeWhile (· = 0) ++ (convert factor base (input.dropWhile (· = 0))).reverse

theorem convert_dropWhile (hbase : 1 < base) (hfactor : 0 < factor) (input : List Nat) :
    convert factor base (input.dropWhile (· = 0)) = convert factor base input := by
  rw [convert_eq hbase hfactor, convert_eq hbase hfactor]
  congr 1
  induction input with
  | nil => rfl
  | cons item input ih =>
    by_cases hzero : item = 0
    · subst hzero
      rw [dropWhile_cons_of_pos (by simp), ih, value, value,
        Nat.ofDigits_reverse_zero_cons]
    · rw [dropWhile_cons_of_neg (by simpa using hzero)]

theorem numeral_value (hbase : 1 < base) {input : List Nat} (hlt : ∀ item ∈ input, item < base)
    (hhead : ∀ item ∈ input.head?, item ≠ 0) (hne : input ≠ []) :
    (numeral base (value base input)).reverse = input ∧ value base input ≠ 0 := by
  have hdigits : Nat.digits base (value base input) = input.reverse := by
    refine Nat.digits_ofDigits base hbase _ (fun item hitem => hlt item (by simpa using hitem)) ?_
    intro hreverse
    rw [getLast_reverse]
    exact hhead _ (head_mem_head? hne)
  have hvalue : value base input ≠ 0 := by
    intro hzero
    rw [hzero, Nat.digits_zero] at hdigits
    exact hne (by simpa using hdigits.symm)
  rw [numeral, if_neg hvalue, hdigits, reverse_reverse]
  exact ⟨rfl, hvalue⟩

theorem digits_stops (base n : Nat) :
    Runs.Stops (fun item => decide (item = 0)) (Nat.digits base n).reverse := by
  intro item hitem
  rw [head?_reverse] at hitem
  have hne : Nat.digits base n ≠ [] := by
    intro hnil
    rw [hnil] at hitem
    cases hitem
  rw [getLast?_eq_some_getLast hne, Option.mem_some_iff] at hitem
  have hn : n ≠ 0 := by
    rintro rfl
    exact hne (Nat.digits_zero base)
  rw [← hitem]
  exact decide_eq_false (Nat.getLast_digit_ne_zero base hn)

theorem recode_recode (hbase : 1 < base) (hfactor : 1 < factor) {input : List Nat}
    (hlt : ∀ item ∈ input, item < factor) (hne : ∃ item ∈ input, item ≠ 0) :
    recode base factor (recode factor base input) = input := by
  have hrest : input.dropWhile (fun item => decide (item = 0)) ≠ [] := by
    intro hnil
    obtain ⟨item, hitem, hzero⟩ := hne
    exact hzero (by simpa using dropWhile_eq_nil_iff.mp hnil item hitem)
  have hhead : ∀ item ∈ (input.dropWhile (fun item => decide (item = 0))).head?, item ≠ 0 := by
    intro item hitem
    exact of_decide_eq_false (Runs.stops_dropWhile input item hitem)
  obtain ⟨hback, hvalue⟩ := numeral_value hfactor
    (fun item hitem => hlt item ((dropWhile_sublist _).mem hitem)) hhead hrest
  generalize hn : value factor (input.dropWhile fun item => decide (item = 0)) = n at hback hvalue
  have hout : recode factor base input =
      input.takeWhile (fun item => decide (item = 0)) ++ (Nat.digits base n).reverse := by
    rw [recode, convert_eq hbase (Nat.zero_lt_of_lt hfactor), hn, numeral, if_neg hvalue]
  have hzeros : ∀ item ∈ input.takeWhile (fun item => decide (item = 0)),
      decide (item = 0) = true := fun item hitem =>
    @mem_takeWhile_imp _ (fun item => decide (item = 0)) _ item hitem
  have hstops := digits_stops base n
  rw [hout, recode, Runs.takeWhile_run hzeros hstops, Runs.dropWhile_run hzeros hstops,
    convert_eq hfactor (Nat.zero_lt_of_lt hbase), value, reverse_reverse,
    Nat.ofDigits_digits, hback]
  exact takeWhile_append_dropWhile

theorem recode_lt (hbase : 1 < base) (hfactor : 0 < factor) {input : List Nat} {item : Nat}
    (h : item ∈ recode factor base input) : item < base := by
  rcases mem_append.mp h with hzero | hdigit
  · have hitem := @mem_takeWhile_imp _ (fun item => decide (item = 0)) _ item hzero
    rw [of_decide_eq_true hitem]
    exact Nat.zero_lt_of_lt hbase
  · rw [mem_reverse, convert_eq hbase hfactor, numeral] at hdigit
    split at hdigit
    · rw [mem_singleton.mp hdigit]
      exact Nat.zero_lt_of_lt hbase
    · exact Nat.digits_lt_base hbase hdigit

theorem recode_ne_nil (hbase : 1 < base) (hfactor : 0 < factor) (input : List Nat) :
    recode factor base input ≠ [] := by
  intro hnil
  have hconvert := (append_eq_nil_iff.mp hnil).2
  rw [reverse_eq_nil_iff, convert_eq hbase hfactor, numeral] at hconvert
  split at hconvert
  · cases hconvert
  case isFalse hvalue => exact hvalue (Nat.digits_eq_nil_iff_eq_zero.mp hconvert)

/-- Every sum on the way, each digit with the carry that reaches it, is below the limit. -/
def Small (limit factor base : Nat) : Nat → List Nat → Prop
  | carry, [] => carry < limit
  | carry, digit :: digits =>
    carry + digit * factor < limit ∧ Small limit factor base ((carry + digit * factor) / base) digits

/-- So are those of a whole conversion. -/
def Carries (limit factor base : Nat) (input : List Nat) : Prop :=
  ∀ before item after, input = before ++ item :: after →
    Small limit factor base item (convert factor base before)

theorem small_of_lt {limit carry : Nat} (hlimit : base * factor ≤ limit) (hbase : 0 < base)
    {digits : List Nat} (hcarry : carry < factor) (hdigits : ∀ digit ∈ digits, digit < base) :
    Small limit factor base carry digits := by
  induction digits generalizing carry with
  | nil =>
    have hle : 1 * factor ≤ base * factor := Nat.mul_le_mul_right _ hbase
    rw [Small]
    omega
  | cons digit digits ih =>
    have hdigit := hdigits digit mem_cons_self
    have hsum : carry + digit * factor < base * factor := by
      have hle : (digit + 1) * factor ≤ base * factor := Nat.mul_le_mul_right _ hdigit
      rw [Nat.succ_mul] at hle
      omega
    exact ⟨by omega, ih (Nat.div_lt_of_lt_mul hsum)
      fun other hother => hdigits other (mem_cons_of_mem _ hother)⟩

theorem carries_of_lt {limit : Nat} (hlimit : base * factor ≤ limit) (hbase : 1 < base)
    (hfactor : 0 < factor) {input : List Nat} (hinput : ∀ item ∈ input, item < factor) :
    Carries limit factor base input := by
  rintro before item after rfl
  refine small_of_lt hlimit (by omega)
    (hinput item (mem_append_right _ mem_cons_self)) fun digit hdigit => ?_
  rw [convert_eq hbase hfactor, numeral] at hdigit
  split at hdigit
  · rw [mem_singleton.mp hdigit]
    omega
  · exact Nat.digits_lt_base hbase hdigit

theorem recode_zeros (n : Nat) :
    recode factor base (List.replicate n 0) = List.replicate (n + 1) 0 := by
  have hall : ∀ item ∈ List.replicate n 0, decide (item = 0) = true := fun item hitem =>
    decide_eq_true (eq_of_mem_replicate hitem)
  rw [recode, takeWhile_eq_self_iff.mpr hall, dropWhile_eq_nil_iff.mpr hall,
    replicate_succ']
  rfl

/-- The numeral, highest digit first, with zeros in front. -/
def padded (base width n : Nat) : List Nat :=
  List.replicate (width - (numeral base n).length) 0 ++ (numeral base n).reverse

theorem ofDigits_numeral (base n : Nat) : Nat.ofDigits base (numeral base n) = n := by
  unfold numeral
  split
  case isTrue hzero => rw [hzero, Nat.ofDigits_singleton]
  case isFalse => exact Nat.ofDigits_digits base n

theorem numeral_lt (hbase : 1 < base) {n digit : Nat} (h : digit ∈ numeral base n) :
    digit < base := by
  unfold numeral at h
  split at h
  case isTrue =>
    rw [mem_singleton.mp h]
    exact Nat.zero_lt_of_lt hbase
  case isFalse => exact Nat.digits_lt_base hbase h

theorem numeral_length_le (hbase : 1 < base) {n width : Nat} (hwidth : 0 < width)
    (h : n < base ^ width) : (numeral base n).length ≤ width := by
  unfold numeral
  split
  case isTrue => exact hwidth
  case isFalse => exact (Nat.digits_length_le_iff hbase n).mpr h

theorem padded_lt (hbase : 1 < base) {width n digit : Nat} (h : digit ∈ padded base width n) :
    digit < base := by
  rcases mem_append.mp h with hzero | hdigit
  · rw [eq_of_mem_replicate hzero]
    exact Nat.zero_lt_of_lt hbase
  · exact numeral_lt hbase (mem_reverse.mp hdigit)

theorem padded_length (hbase : 1 < base) {width n : Nat} (hwidth : 0 < width)
    (h : n < base ^ width) : (padded base width n).length = width := by
  have hle := numeral_length_le hbase hwidth h
  rw [padded, length_append, length_replicate, length_reverse]
  omega

theorem value_padded (base width n : Nat) : value base (padded base width n) = n := by
  rw [value, padded, reverse_append, reverse_reverse, reverse_replicate,
    Nat.ofDigits_append_replicate_zero, ofDigits_numeral]

theorem padded_injective {width m n : Nat} (h : padded base width m = padded base width n) :
    m = n := by
  rw [← value_padded base width m, h, value_padded]

end Meshpn.Lib.Radix
