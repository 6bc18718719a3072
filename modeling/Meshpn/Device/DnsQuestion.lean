import Meshpn.Device.DnsWire
import Meshpn.Lib.Checked

/-!
`meshvpn_dns_question` access by access. The name is written into the array of the
caller, byte after byte; what is there in the end is the name that the loop without
checks puts together.
-/

namespace Meshpn.Device.Dns

open Meshpn.Lib
open Meshpn.Lib.Checked

/-- `meshvpn_dns_question_t` with the whole array of the name. -/
structure StoredQuestion where
  name : Bytes
  type : Nat
  klass : Nat
  stop : Nat
  deriving DecidableEq, Repr

/-- The loop over the bytes of one label. -/
def copyLabelIn (p : Bytes) : Nat → Nat → Bytes → Nat → Except Checked.Fault (Option Bytes)
  | 0, _, name, _ => .ok (some name)
  | n + 1, off, name, pos =>
    (load p off).bind fun c =>
      if c = 0 ∨ c = 46 then .ok none
      else
        (store name pos (if 65 ≤ c ∧ c ≤ 90 then c + 32 else c)).bind fun name =>
          copyLabelIn p n (off + 1) name (pos + 1)

/-- The dot ahead of a label, where there is room for one. -/
def putDotIn (name : Bytes) (pos : Nat) : Except Checked.Fault (Bytes × Nat) :=
  if pos ≠ 0 ∧ pos + 1 < nameSize then (store name pos 46).map fun name => (name, pos + 1)
  else .ok (name, pos)

def questionLoopIn (p : Bytes) :
    Nat → Nat → Bytes → Nat → Nat → Except Checked.Fault (Option StoredQuestion)
  | 0, _, _, _, _ => .ok none
  | hops + 1, off, name, pos, stop =>
    if p.length ≤ off then .ok none
    else
      (load p off).bind fun n =>
        if 192 ≤ n then
          if p.length ≤ off + 1 then .ok none
          else
            (load p (off + 1)).bind fun low =>
              let target := 256 * (n % 64) + low
              if off ≤ target ∨ target < 12 then .ok none
              else questionLoopIn p hops target name pos (if stop = 0 then off + 2 else stop)
        else if 63 < n ∨ p.length < off + 1 + n then .ok none
        else if n = 0 then
          let stop := if stop = 0 then off + 1 else stop
          if p.length < stop + 4 then .ok none
          else
            (store name pos 0).bind fun name =>
              (load16 p stop).bind fun type =>
                (load16 p (stop + 2)).map fun klass => some ⟨name, type, klass, stop + 4⟩
        else
          (putDotIn name pos).bind fun (name, pos) =>
            if nameSize ≤ pos + n then .ok none
            else
              (copyLabelIn p n (off + 1) name pos).bind fun copied =>
                match copied with
                | none => .ok none
                | some name => questionLoopIn p hops (off + 1 + n) name (pos + n) stop

/-- `meshvpn_dns_question`, with what the array of the name holds before the call. -/
def questionIn (p name : Bytes) : Except Checked.Fault (Option StoredQuestion) :=
  if p.length < 17 then .ok none
  else
    (load p 4).bind fun high =>
      if high ≠ 0 then .ok none
      else
        (load p 5).bind fun low =>
          if low ≠ 1 then .ok none
          else
            (load p 2).bind fun flags =>
              if flags / 8 % 16 ≠ 0 then .ok none else questionLoopIn p 128 12 name 0 0

/-- The array and the name that is in it so far. -/
structure Names (array : Bytes) (pos : Nat) (name : Bytes) : Prop where
  size : array.length = nameSize
  front : array.take pos = name
  length : name.length = pos

theorem Names.put {array name : Bytes} {pos : Nat} (h : Names array pos name)
    (hroom : pos < nameSize) (c : Nat) :
    ∃ array', store array pos c = .ok array' ∧ Names array' (pos + 1) (name ++ [UInt8.ofNat c]) := by
  have hin : pos < array.length := h.size ▸ hroom
  refine ⟨array.set pos (UInt8.ofNat c), if_pos hin, ?_, ?_, ?_⟩
  · rw [List.length_set, h.size]
  · rw [List.take_succ_eq_append_getElem (by rwa [List.length_set]), List.getElem_set_self,
      List.take_set_of_le (Nat.le_refl pos), h.front]
  · rw [List.length_append, h.length, List.length_singleton]

theorem Names.putDot {array name : Bytes} {pos : Nat} (h : Names array pos name) :
    ∃ array' pos', putDotIn array pos = .ok (array', pos') ∧ Names array' pos' (dotted name) := by
  have hsame : (pos ≠ 0 ∧ pos + 1 < nameSize) ↔ (name ≠ [] ∧ name.length + 1 < nameSize) := by
    rw [h.length, ← h.length, ne_eq, ne_eq, List.length_eq_zero_iff]
  by_cases hroom : pos ≠ 0 ∧ pos + 1 < nameSize
  · obtain ⟨array', hstore, hnames⟩ := h.put (by omega) 46
    rw [putDotIn, if_pos hroom, dotted, if_pos (hsame.mp hroom), hstore]
    exact ⟨array', pos + 1, rfl, hnames⟩
  · rw [putDotIn, if_neg hroom, dotted, if_neg fun hother => hroom (hsame.mpr hother)]
    exact ⟨array, pos, rfl, h⟩

theorem lowered_load {c : UInt8} :
    UInt8.ofNat (if 65 ≤ c.toNat ∧ c.toNat ≤ 90 then c.toNat + 32 else c.toNat) = lowered c := by
  have hsame : (65 ≤ c.toNat ∧ c.toNat ≤ 90) ↔ ((65 : UInt8) ≤ c ∧ c ≤ 90) := Iff.rfl
  by_cases hupper : 65 ≤ c.toNat ∧ c.toNat ≤ 90
  · rw [if_pos hupper, lowered, if_pos (hsame.mp hupper), UInt8.ofNat_add, UInt8.ofNat_toNat]
    rfl
  · rw [if_neg hupper, lowered, if_neg fun hother => hupper (hsame.mpr hother), UInt8.ofNat_toNat]

theorem Names.copyLabel {p array name : Bytes} {n off pos : Nat} (h : Names array pos name)
    (hread : off + n ≤ p.length) (hroom : pos + n < nameSize) :
    let label := (p.drop off).take n
    if label.any (fun c => c == 0 || c == 46) then copyLabelIn p n off array pos = .ok none
    else ∃ array', copyLabelIn p n off array pos = .ok (some array') ∧
      Names array' (pos + n) (name ++ label.map lowered) := by
  induction n generalizing off array name pos with
  | zero => exact ⟨array, rfl, by rwa [List.take_zero, List.map_nil, List.append_nil]⟩
  | succ n ih =>
    have hin : off < p.length := by omega
    have hlabel : (p.drop off).take (n + 1) = p[off] :: (p.drop (off + 1)).take n := by
      rw [List.drop_eq_getElem_cons hin, List.take_succ_cons]
    have hload : load p off = .ok p[off].toNat := by
      rw [load_ok hin, List.getD_eq_getElem?_getD, List.getElem?_eq_getElem hin, Option.getD_some]
    have hsame : (p[off].toNat = 0 ∨ p[off].toNat = 46) ↔ (p[off] = 0 ∨ p[off] = 46) := by
      rw [← UInt8.toNat_inj, ← UInt8.toNat_inj]
      rfl
    dsimp only
    rw [hlabel, List.any_cons, copyLabelIn, hload]
    change if _ then (if _ then _ else _) = _ else ∃ array', (if _ then _ else _) = _ ∧ _
    by_cases hbad : p[off] = 0 ∨ p[off] = 46
    · have htest : (p[off] == 0 || p[off] == 46) = true := by simpa using hbad
      rw [htest, Bool.true_or, if_pos rfl, if_pos (hsame.mpr hbad)]
    have htest : (p[off] == 0 || p[off] == 46) = false := by simpa using hbad
    obtain ⟨array', hstore, hnames⟩ := h.put (by omega)
      (if 65 ≤ p[off].toNat ∧ p[off].toNat ≤ 90 then p[off].toNat + 32 else p[off].toNat)
    rw [lowered_load] at hnames
    rw [htest, Bool.false_or, if_neg fun hother => hbad (hsame.mp hother), hstore]
    have hrest := ih hnames (show off + 1 + n ≤ p.length by omega)
      (show pos + 1 + n < nameSize by omega)
    rw [List.map_cons, List.append_cons]
    rw [Nat.add_right_comm pos 1 n] at hrest
    exact hrest

theorem load_octet {p : Bytes} {i : Nat} (h : i < p.length) : load p i = .ok (byteAt p i) :=
  load_ok h

/-- What is stored is the question. -/
structure Stores (stored : StoredQuestion) (q : Question) : Prop where
  size : stored.name.length = nameSize
  name : stored.name.take (q.name.length + 1) = q.name ++ [0]
  room : q.name.length < nameSize
  type : stored.type = q.type
  klass : stored.klass = q.klass
  stop : stored.stop = q.stop

/-- The call stores the question that there is, and otherwise returns false. -/
def Returns : Option StoredQuestion → Option Question → Prop
  | none, none => True
  | some stored, some q => Stores stored q
  | _, _ => False

theorem questionLoopIn_ok {p array name : Bytes} {hops off pos stop : Nat}
    (h : Names array pos name) (hpos : pos < nameSize) :
    ∃ result, questionLoopIn p hops off array pos stop = .ok result ∧
      Returns result (questionLoop p hops off name stop) := by
  induction hops generalizing off array name pos stop with
  | zero => exact ⟨none, rfl, trivial⟩
  | succ hops ih =>
    rw [questionLoopIn, questionLoop]
    by_cases hend : p.length ≤ off
    case pos => exact ⟨none, by rw [if_pos hend], by rw [if_pos hend]; trivial⟩
    rw [if_neg hend, if_neg hend, load_octet (by omega)]
    change ∃ result, (if 192 ≤ byteAt p off then _ else _) = _ ∧ _
    by_cases hpointer : 192 ≤ byteAt p off
    · rw [if_pos hpointer]
      dsimp only
      rw [if_pos hpointer]
      by_cases hlast : p.length ≤ off + 1
      case pos => exact ⟨none, by rw [if_pos hlast], by rw [if_pos hlast]; trivial⟩
      rw [if_neg hlast, if_neg hlast, load_octet (by omega)]
      simp only [Except.bind]
      by_cases htarget : off ≤ 256 * (byteAt p off % 64) + byteAt p (off + 1) ∨
          256 * (byteAt p off % 64) + byteAt p (off + 1) < 12
      case pos => exact ⟨none, by rw [if_pos htarget], by rw [if_pos htarget]; trivial⟩
      rw [if_neg htarget, if_neg htarget]
      exact ih h hpos
    rw [if_neg hpointer]
    dsimp only
    rw [if_neg hpointer]
    by_cases hlong : 63 < byteAt p off ∨ p.length < off + 1 + byteAt p off
    case pos => exact ⟨none, by rw [if_pos hlong], by rw [if_pos hlong]; trivial⟩
    rw [if_neg hlong, if_neg hlong]
    by_cases hroot : byteAt p off = 0
    · rw [if_pos hroot, if_pos hroot]
      generalize (if stop = 0 then off + 1 else stop) = stop
      by_cases hshort : p.length < stop + 4
      case pos => exact ⟨none, by rw [if_pos hshort], by rw [if_pos hshort]; trivial⟩
      obtain ⟨array', hstore, hnames⟩ := h.put hpos 0
      rw [if_neg hshort, if_neg hshort, hstore]
      refine ⟨some ⟨array', wordAt p stop, wordAt p (stop + 2), stop + 4⟩, ?_, ?_⟩
      · change (load16 p stop).bind _ = _
        rw [load16_ok (by omega)]
        change (load16 p (stop + 2)).map _ = _
        rw [load16_ok (by omega)]
        rfl
      · refine ⟨hnames.size, ?_, by rwa [h.length], rfl, rfl, rfl⟩
        change array'.take (name.length + 1) = _
        rw [h.length]
        exact hnames.front
    rw [if_neg hroot, if_neg hroot]
    obtain ⟨array', pos', hdot, hnames⟩ := h.putDot
    rw [hdot]
    change ∃ result, (if nameSize ≤ pos' + byteAt p off then _ else _) = _ ∧ _
    rw [hnames.length]
    by_cases hfull : nameSize ≤ pos' + byteAt p off
    case pos => exact ⟨none, by rw [if_pos hfull], by rw [if_pos hfull]; trivial⟩
    rw [if_neg hfull, if_neg hfull]
    have hcopy := @Names.copyLabel p array' (dotted name) (byteAt p off) (off + 1) pos' hnames
      (by omega) (by omega)
    dsimp only at hcopy
    split at hcopy
    case isTrue hbad =>
      rw [hcopy, if_pos hbad]
      exact ⟨none, rfl, trivial⟩
    case isFalse hclean =>
      obtain ⟨array'', hcopied, hnamed⟩ := hcopy
      rw [hcopied, if_neg hclean]
      exact ih hnamed (by omega)

/-- No access of the call is outside of the message or of the name's array, whatever the message
is; it returns what the loop without checks finds. -/
theorem questionIn_ok (p : Bytes) {array : Bytes} (h : array.length = nameSize) :
    ∃ result, questionIn p array = .ok result ∧ Returns result (question p) := by
  have hnames : Names array 0 [] := ⟨h, rfl, rfl⟩
  obtain ⟨result, hloop, hreturns⟩ := @questionLoopIn_ok p array [] 128 12 0 0 hnames (by decide)
  unfold questionIn question
  by_cases hshort : p.length < 17
  case pos => exact ⟨none, by rw [if_pos hshort], by rw [if_pos (.inl hshort)]; trivial⟩
  rw [if_neg hshort, load_octet (by omega), load_octet (by omega), load_octet (by omega)]
  change ∃ result, (if byteAt p 4 ≠ 0 then _ else if byteAt p 5 ≠ 1 then _ else
    if byteAt p 2 / 8 % 16 ≠ 0 then _ else _) = _ ∧ _
  by_cases hhigh : byteAt p 4 ≠ 0
  case pos => exact ⟨none, by rw [if_pos hhigh], by rw [if_pos (.inr (.inl hhigh))]; trivial⟩
  by_cases hlow : byteAt p 5 ≠ 1
  case pos =>
    exact ⟨none, by rw [if_neg hhigh, if_pos hlow], by rw [if_pos (.inr (.inr (.inl hlow)))]; trivial⟩
  by_cases hflags : byteAt p 2 / 8 % 16 ≠ 0
  case pos =>
    exact ⟨none, by rw [if_neg hhigh, if_neg hlow, if_pos hflags],
      by rw [if_pos (.inr (.inr (.inr hflags)))]; trivial⟩
  have hgood : ¬(p.length < 17 ∨ byteAt p 4 ≠ 0 ∨ byteAt p 5 ≠ 1 ∨ byteAt p 2 / 8 % 16 ≠ 0) := by
    simp only [hshort, hhigh, hlow, hflags, or_self, not_false_eq_true]
  rw [if_neg hhigh, if_neg hlow, if_neg hflags, if_neg hgood]
  exact ⟨result, hloop, hreturns⟩

end Meshpn.Device.Dns
