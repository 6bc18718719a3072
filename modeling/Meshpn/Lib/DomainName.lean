import Meshpn.Lib.Bytes
import Mathlib.Data.List.Forall2

/-!
Names of labels in a byte string, with compression. A label stands behind a byte with its
length; a name ends in a zero byte or goes on at the place that a pointer gives. What a
name denotes does not depend on how a reader goes about it.
-/

namespace Meshpn.Lib.DomainName

open List

/-- A label behind the byte with its length. -/
structure LabelAt (packet : Bytes) (pos : Nat) (label : Bytes) : Prop where
  nonempty : 0 < label.length
  short : label.length ≤ 63
  size : packet[pos]? = some (UInt8.ofNat label.length)
  content : (packet.drop (pos + 1)).take label.length = label

/-- Two bytes that begin with the bits 11, and the 14 bits behind them. -/
structure PointerAt (packet : Bytes) (pos : Nat) (high low : UInt8) : Prop where
  bits : 192 ≤ high.toNat
  first : packet[pos]? = some high
  second : packet[pos + 1]? = some low

def target (high low : UInt8) : Nat := 256 * (high.toNat - 192) + low.toNat

/-- The labels of the name at a position. -/
inductive Denotes (packet : Bytes) : Nat → List Bytes → Prop where
  | root {pos : Nat} (h : packet[pos]? = some 0) : Denotes packet pos []
  | label {pos : Nat} {label : Bytes} {labels : List Bytes} (h : LabelAt packet pos label)
      (hrest : Denotes packet (pos + 1 + label.length) labels) :
      Denotes packet pos (label :: labels)
  | pointer {pos : Nat} {high low : UInt8} {labels : List Bytes}
      (h : PointerAt packet pos high low) (hrest : Denotes packet (target high low) labels) :
      Denotes packet pos labels

/-- A name without a pointer. -/
inductive Plain (packet : Bytes) : Nat → List Bytes → Prop where
  | root {pos : Nat} (h : packet[pos]? = some 0) : Plain packet pos []
  | label {pos : Nat} {label : Bytes} {labels : List Bytes} (h : LabelAt packet pos label)
      (hrest : Plain packet (pos + 1 + label.length) labels) : Plain packet pos (label :: labels)

/-- A name that ends in one pointer, back to a name without one that begins no earlier than
`lowest`. -/
inductive Jumps (packet : Bytes) (lowest : Nat) : Nat → List Bytes → Prop where
  | pointer {pos : Nat} {high low : UInt8} {labels : List Bytes}
      (h : PointerAt packet pos high low) (hlow : lowest ≤ target high low)
      (hback : target high low < pos) (hrest : Plain packet (target high low) labels) :
      Jumps packet lowest pos labels
  | label {pos : Nat} {label : Bytes} {labels : List Bytes} (h : LabelAt packet pos label)
      (hrest : Jumps packet lowest (pos + 1 + label.length) labels) :
      Jumps packet lowest pos (label :: labels)

/-- The bytes of the name at `pos` itself, up to its zero byte or its pointer, end at `stop`. -/
inductive Ends (packet : Bytes) : Nat → Nat → Prop where
  | root {pos : Nat} (h : packet[pos]? = some 0) : Ends packet pos (pos + 1)
  | pointer {pos : Nat} {high low : UInt8} (h : PointerAt packet pos high low) :
      Ends packet pos (pos + 2)
  | label {pos stop : Nat} {label : Bytes} (h : LabelAt packet pos label)
      (hrest : Ends packet (pos + 1 + label.length) stop) : Ends packet pos stop

/-- The bytes that the name at a position is read from. -/
inductive Reads (packet : Bytes) : Nat → Nat → Prop where
  | here (pos : Nat) : Reads packet pos pos
  | low {pos : Nat} {high low : UInt8} (h : PointerAt packet pos high low) :
      Reads packet pos (pos + 1)
  | content {pos i : Nat} {label : Bytes} (h : LabelAt packet pos label) (hlow : pos < i)
      (hhigh : i < pos + 1 + label.length) : Reads packet pos i
  | label {pos i : Nat} {label : Bytes} (h : LabelAt packet pos label)
      (hrest : Reads packet (pos + 1 + label.length) i) : Reads packet pos i
  | pointer {pos i : Nat} {high low : UInt8} (h : PointerAt packet pos high low)
      (hrest : Reads packet (target high low) i) : Reads packet pos i

/-- A name written without a pointer. -/
def wire (labels : List Bytes) : Bytes :=
  labels.flatMap (fun label => UInt8.ofNat label.length :: label) ++ [0]

/-- The bytes of a name without a pointer. -/
def wireSize (labels : List Bytes) : Nat := (labels.map fun label => label.length + 1).sum + 1

@[simp] theorem wireSize_nil : wireSize [] = 1 := rfl

theorem wireSize_pos (labels : List Bytes) : 0 < wireSize labels := Nat.succ_pos _

@[simp] theorem wireSize_cons (label : Bytes) (labels : List Bytes) :
    wireSize (label :: labels) = label.length + 1 + wireSize labels := by
  simp only [wireSize, map_cons, sum_cons]
  omega

section

variable {packet : Bytes} {pos stop lowest : Nat} {label : Bytes} {labels other : List Bytes}
  {high low : UInt8}

theorem LabelAt.toNat_size (h : LabelAt packet pos label) :
    (UInt8.ofNat label.length).toNat = label.length :=
  Bytes.toNat_ofNat (by have hshort := h.short; omega)

theorem LabelAt.inside (h : LabelAt packet pos label) :
    pos + 1 + label.length ≤ packet.length := by
  have hlength := congrArg List.length h.content
  have hpos := h.nonempty
  rw [length_take, length_drop] at hlength
  omega

theorem LabelAt.unique {label' : Bytes} (h : LabelAt packet pos label)
    (h' : LabelAt packet pos label') : label = label' := by
  have hsize : UInt8.ofNat label.length = UInt8.ofNat label'.length :=
    Option.some.inj (h.size.symm.trans h'.size)
  have hlength : label.length = label'.length := by
    rw [← h.toNat_size, hsize, h'.toNat_size]
  rw [← h.content, ← h'.content, hlength]

theorem LabelAt.not_root (h : LabelAt packet pos label) : packet[pos]? ≠ some 0 := by
  intro hroot
  have hzero : UInt8.ofNat label.length = 0 := Option.some.inj (h.size.symm.trans hroot)
  have hsize := h.toNat_size
  have hpos := h.nonempty
  rw [hzero] at hsize
  change 0 = label.length at hsize
  omega

theorem LabelAt.not_pointer (h : LabelAt packet pos label) :
    ¬ PointerAt packet pos high low := by
  intro hpointer
  have hsame : UInt8.ofNat label.length = high := Option.some.inj (h.size.symm.trans hpointer.first)
  have hbits := hpointer.bits
  have hshort := h.short
  rw [← hsame, h.toNat_size] at hbits
  omega

theorem PointerAt.not_root (h : PointerAt packet pos high low) : packet[pos]? ≠ some 0 := by
  intro hroot
  have hzero : high = 0 := Option.some.inj (h.first.symm.trans hroot)
  have hbits := h.bits
  rw [hzero] at hbits
  exact absurd hbits (by decide)

theorem PointerAt.unique {high' low' : UInt8} (h : PointerAt packet pos high low)
    (h' : PointerAt packet pos high' low') : high = high' ∧ low = low' :=
  ⟨Option.some.inj (h.first.symm.trans h'.first), Option.some.inj (h.second.symm.trans h'.second)⟩

theorem Denotes.unique (h : Denotes packet pos labels) (hother : Denotes packet pos other) :
    labels = other := by
  induction h generalizing other with
  | root hroot =>
    cases hother with
    | root => rfl
    | label hlabel => exact absurd hroot hlabel.not_root
    | pointer hpointer => exact absurd hroot hpointer.not_root
  | label hlabel _ ih =>
    cases hother with
    | root hroot => exact absurd hroot hlabel.not_root
    | label hlabel' hrest =>
      cases hlabel.unique hlabel'
      rw [ih hrest]
    | pointer hpointer => exact absurd hpointer hlabel.not_pointer
  | pointer hpointer _ ih =>
    cases hother with
    | root hroot => exact absurd hroot hpointer.not_root
    | label hlabel => exact absurd hpointer hlabel.not_pointer
    | pointer hpointer' hrest =>
      obtain ⟨rfl, rfl⟩ := hpointer.unique hpointer'
      exact ih hrest

theorem Denotes.sizes (h : Denotes packet pos labels) :
    ∀ label ∈ labels, 0 < label.length ∧ label.length ≤ 63 := by
  induction h with
  | root => exact fun label hmem => by cases hmem
  | label hlabel _ ih =>
    intro label hmem
    rcases mem_cons.mp hmem with rfl | hmem
    · exact ⟨hlabel.nonempty, hlabel.short⟩
    · exact ih label hmem
  | pointer _ _ ih => exact ih

theorem Plain.denotes (h : Plain packet pos labels) : Denotes packet pos labels := by
  induction h with
  | root hroot => exact .root hroot
  | label hlabel _ ih => exact .label hlabel ih

theorem Plain.of_wire {rest : Bytes}
    (hsizes : ∀ label ∈ labels, 0 < label.length ∧ label.length ≤ 63)
    (h : packet.drop pos = wire labels ++ rest) : Plain packet pos labels := by
  induction labels generalizing pos with
  | nil =>
    refine .root ?_
    rw [← Nat.add_zero pos, ← getElem?_drop, h]
    rfl
  | cons label labels ih =>
    obtain ⟨hpos, hshort⟩ := hsizes label mem_cons_self
    have hdrop : packet.drop pos = UInt8.ofNat label.length :: (label ++ (wire labels ++ rest)) := by
      rw [h]
      simp [wire]
    have hbehind : packet.drop (pos + 1) = label ++ (wire labels ++ rest) := by
      rw [← drop_drop, hdrop, drop_one, tail_cons]
    refine .label ⟨hpos, hshort, ?_, ?_⟩ (ih (fun other hmem => hsizes other
      (mem_cons_of_mem _ hmem)) ?_)
    · rw [← Nat.add_zero pos, ← getElem?_drop, hdrop]
      rfl
    · rw [hbehind, take_left]
    · rw [← drop_drop, hbehind, drop_left]

theorem Jumps.denotes (h : Jumps packet lowest pos labels) : Denotes packet pos labels := by
  induction h with
  | pointer hpointer _ _ hrest => exact .pointer hpointer hrest.denotes
  | label hlabel _ ih => exact .label hlabel ih

theorem Jumps.not_plain (h : Jumps packet lowest pos labels) : ¬ Plain packet pos other := by
  induction h generalizing other with
  | pointer hpointer =>
    intro hplain
    cases hplain with
    | root hroot => exact hpointer.not_root hroot
    | label hlabel => exact hlabel.not_pointer hpointer
  | label hlabel _ ih =>
    intro hplain
    cases hplain with
    | root hroot => exact hlabel.not_root hroot
    | label hlabel' hrest =>
      cases hlabel.unique hlabel'
      exact ih hrest

theorem two_mul_length_lt_wireSize (h : ∀ label ∈ labels, 0 < label.length) :
    2 * labels.length < wireSize labels := by
  induction labels with
  | nil => decide
  | cons label labels ih =>
    have hrest := ih fun other hmem => h other (mem_cons_of_mem _ hmem)
    have hlabel := h label mem_cons_self
    rw [wireSize_cons, length_cons]
    omega

theorem Ends.behind (h : Ends packet pos stop) : pos < stop := by
  induction h with
  | root => exact Nat.lt_succ_self _
  | pointer => omega
  | label _ _ ih => omega

theorem LabelAt.congr {packet' : Bytes} (h : LabelAt packet pos label)
    (hsame : ∀ i, pos ≤ i → i < pos + 1 + label.length → packet'[i]? = packet[i]?) :
    LabelAt packet' pos label := by
  refine ⟨h.nonempty, h.short, (hsame pos le_rfl (by omega)).trans h.size, ?_⟩
  rw [← h.content, length_take_of_le (by
    have hinside := h.inside
    rw [length_drop]
    omega)]
  apply ext_getElem?
  intro j
  rcases Nat.lt_or_ge j label.length with hj | hj
  · rw [getElem?_take_of_lt hj, getElem?_take_of_lt hj, getElem?_drop,
      getElem?_drop]
    exact hsame _ (by omega) (by omega)
  · rw [getElem?_take_eq_none hj, getElem?_take_eq_none hj]

theorem PointerAt.congr {packet' : Bytes} (h : PointerAt packet pos high low)
    (hfirst : packet'[pos]? = packet[pos]?) (hsecond : packet'[pos + 1]? = packet[pos + 1]?) :
    PointerAt packet' pos high low :=
  ⟨h.bits, hfirst.trans h.first, hsecond.trans h.second⟩

theorem Ends.congr {packet' : Bytes} (h : Ends packet pos stop)
    (hsame : ∀ i, pos ≤ i → i < stop → packet'[i]? = packet[i]?) : Ends packet' pos stop := by
  induction h with
  | root hroot => exact .root ((hsame _ le_rfl (Nat.lt_succ_self _)).trans hroot)
  | pointer hpointer =>
    exact .pointer (hpointer.congr (hsame _ le_rfl (by omega)) (hsame _ (by omega) (by omega)))
  | label hlabel hrest ih =>
    have hbehind := hrest.behind
    exact .label (hlabel.congr fun i hlow hhigh => hsame i hlow (by omega))
      (ih fun i hlow hhigh => hsame i (by omega) hhigh)

theorem Ends.unique {stop' : Nat} (h : Ends packet pos stop) (h' : Ends packet pos stop') :
    stop = stop' := by
  induction h with
  | root hroot =>
    cases h' with
    | root => rfl
    | pointer hpointer => exact absurd hroot hpointer.not_root
    | label hlabel => exact absurd hroot hlabel.not_root
  | pointer hpointer =>
    cases h' with
    | root hroot => exact absurd hroot hpointer.not_root
    | pointer => rfl
    | label hlabel => exact absurd hpointer hlabel.not_pointer
  | label hlabel _ ih =>
    cases h' with
    | root hroot => exact absurd hroot hlabel.not_root
    | pointer hpointer => exact absurd hpointer hlabel.not_pointer
    | label hlabel' hrest =>
      cases hlabel.unique hlabel'
      exact ih hrest

end

end Meshpn.Lib.DomainName
