import Meshpn.Dns.WireParts
import Meshpn.Lib.DomainName
import Meshpn.Lib.Text

/-!
The loop of `nameAt` beside the labels that a name denotes. A pass reads a zero byte, a
label or a pointer. The bound of 128 passes is enough for every name of 255 bytes without a
pointer, and one pass short for the longest one behind a pointer.
-/

namespace Meshpn.Dns.Wire

open Meshpn.Lib Meshpn.Lib.Fallible Meshpn.Lib.DomainName

def foldedLabels (labels : List Bytes) : List Bytes := labels.map fun label => label.map folded

def NameWalk.jump (w : NameWalk) (pos : Nat) : NameWalk :=
  { w with
    pos := pos
    stop := some (w.stop.getD (w.pos + 2))
    compressed := true
    visited := w.pos :: w.visited }

def NameWalk.pass (w : NameWalk) (label : Bytes) : NameWalk :=
  { w with
    pos := w.pos + 1 + label.length
    size := w.size + label.length + 1
    labels := w.labels ++ [label.map folded]
    visited := w.pos :: w.visited }

/-- What a pass of the loop has read. -/
inductive NameRead (packet : Bytes) (w : NameWalk) : NameWalk ⊕ Name → Prop where
  | root (h : packet[w.pos]? = some 0) :
      NameRead packet w (.inr ⟨w.labels, w.stop.getD (w.pos + 1), w.compressed⟩)
  | label {label : Bytes} (h : LabelAt packet w.pos label)
      (hsize : w.size + label.length + 1 ≤ 255) : NameRead packet w (.inl (w.pass label))
  | pointer {high low : UInt8} (h : PointerAt packet w.pos high low)
      (hmin : 12 ≤ target high low) (hback : target high low < w.pos) :
      NameRead packet w (.inl (w.jump (target high low)))

theorem nameStep_read {packet : Bytes} {w : NameWalk} {next : NameWalk ⊕ Name}
    (h : nameStep packet w = .ok next) : w.pos ∉ w.visited ∧ NameRead packet w next := by
  simp only [nameStep, bind_eq_ok, need_eq_ok, Bool.and_eq_true, decide_eq_true_eq,
    Bool.not_eq_true', List.contains_eq_mem, decide_eq_false_iff_not] at h
  obtain ⟨-, ⟨-, hnew⟩, n, hn, h⟩ := h
  refine ⟨hnew, ?_⟩
  obtain ⟨byte, hbyte, rfl⟩ := byteAt_eq_ok.mp hn
  split at h
  case isTrue hbits =>
    simp only [bind_eq_ok, need_eq_ok, decide_eq_true_eq, Bool.and_eq_true, pure_eq_ok] at h
    obtain ⟨-, -, n, hread, -, ⟨hmin, hback⟩, rfl⟩ := h
    obtain ⟨low, hlow, rfl⟩ := byteAt_eq_ok.mp hread
    exact .pointer ⟨hbits, hbyte, hlow⟩ hmin hback
  case isFalse =>
    simp only [bind_eq_ok, need_eq_ok, decide_eq_true_eq, Bool.and_eq_true] at h
    obtain ⟨-, ⟨hshort, hroom⟩, h⟩ := h
    split at h
    case isTrue hzero =>
      rw [pure_eq_ok] at h
      subst h
      have hnull : byte = 0 := UInt8.toNat_inj.mp hzero
      exact .root (hnull ▸ hbyte)
    case isFalse hlong =>
      simp only [bind_eq_ok, need_eq_ok, decide_eq_true_eq, pure_eq_ok] at h
      obtain ⟨-, hsize, rfl⟩ := h
      have hlength : ((packet.drop (w.pos + 1)).take byte.toNat).length = byte.toNat := by
        rw [List.length_take, List.length_drop]
        omega
      have hread : NameRead packet w
          (.inl (w.pass ((packet.drop (w.pos + 1)).take byte.toNat))) := by
        refine .label ⟨by omega, by omega, ?_, by rw [hlength]⟩ (by rw [hlength]; exact hsize)
        rw [hlength, UInt8.ofNat_toNat]
        exact hbyte
      rw [NameWalk.pass, hlength] at hread
      exact hread

theorem nameStep_of_read {packet : Bytes} {w : NameWalk} {next : NameWalk ⊕ Name}
    (hnew : w.pos ∉ w.visited) (h : NameRead packet w next) : nameStep packet w = .ok next := by
  have hnew : w.visited.contains w.pos = false := by simpa using hnew
  cases h with
  | root h => exact nameStep_finish hnew h
  | @label label h hsize =>
    have hbyte := h.toNat_size
    have hpos := h.nonempty
    have hshort := h.short
    have hroom := h.inside
    rw [nameStep_label hnew h.size (by omega) (by omega) (by omega) (by omega), hbyte, h.content]
    rfl
  | @pointer high low h hmin hback =>
    have hfirst : byteAt packet w.pos = .ok high.toNat := byteAt_eq_ok.mpr ⟨high, h.first, rfl⟩
    have hsecond : byteAt packet (w.pos + 1) = .ok low.toNat :=
      byteAt_eq_ok.mpr ⟨low, h.second, rfl⟩
    have hroom := (List.getElem?_eq_some_iff.mp h.second).1
    simp only [nameStep, bind_eq_ok, need_eq_ok, Bool.and_eq_true, decide_eq_true_eq,
      Bool.not_eq_true']
    refine ⟨(), ⟨by omega, hnew⟩, high.toNat, hfirst, ?_⟩
    rw [if_pos h.bits, bind_eq_ok]
    refine ⟨(), need_eq_ok.mpr (by simpa using hroom), ?_⟩
    rw [hsecond, ok_bind, bind_eq_ok]
    exact ⟨(), need_eq_ok.mpr (by simpa using ⟨hmin, hback⟩), rfl⟩

section

variable {packet : Bytes} {steps : Nat} {w : NameWalk} {name : Name} {labels : List Bytes}

theorem nameLoop_succ (h : nameLoop packet steps w = .ok name) :
    ∃ rest, steps = rest + 1 ∧ w.pos ∉ w.visited ∧
      ((packet[w.pos]? = some 0 ∧ name = ⟨w.labels, w.stop.getD (w.pos + 1), w.compressed⟩) ∨
      (∃ label, LabelAt packet w.pos label ∧ w.size + label.length + 1 ≤ 255 ∧
        nameLoop packet rest (w.pass label) = .ok name) ∨
      (∃ high low, PointerAt packet w.pos high low ∧ 12 ≤ target high low ∧
        target high low < w.pos ∧
        nameLoop packet rest (w.jump (target high low)) = .ok name)) := by
  rcases steps with _ | rest
  · cases h
  rw [nameLoop, bind_eq_ok] at h
  obtain ⟨next, hnext, h⟩ := h
  obtain ⟨hnew, hread⟩ := nameStep_read hnext
  refine ⟨rest, rfl, hnew, ?_⟩
  cases hread with
  | root hroot => exact .inl ⟨hroot, (pure_eq_ok.mp h).symm⟩
  | label hlabel hsize => exact .inr (.inl ⟨_, hlabel, hsize, h⟩)
  | pointer hpointer hmin hback => exact .inr (.inr ⟨_, _, hpointer, hmin, hback, h⟩)

theorem nameLoop_denotes (hsize : w.size ≤ 255) (h : nameLoop packet steps w = .ok name) :
    ∃ labels, Denotes packet w.pos labels ∧ name.labels = w.labels ++ foldedLabels labels ∧
      w.size + wireSize labels ≤ 256 := by
  induction steps generalizing w with
  | zero => cases h
  | succ steps ih =>
    obtain ⟨rest, hsteps, -, hcases⟩ := nameLoop_succ h
    cases hsteps
    rcases hcases with ⟨hroot, rfl⟩ | ⟨label, hlabel, hsize, hrest⟩ |
      ⟨high, low, hpointer, -, -, hrest⟩
    · exact ⟨[], .root hroot, (List.append_nil _).symm, Nat.succ_le_succ hsize⟩
    · obtain ⟨labels, hdenotes, hnames, hlength⟩ := ih hsize hrest
      refine ⟨label :: labels, .label hlabel hdenotes, ?_, ?_⟩
      · rw [hnames]
        simp [NameWalk.pass, foldedLabels]
      · rw [wireSize_cons]
        simp only [NameWalk.pass] at hlength
        omega
    · obtain ⟨labels, hdenotes, hnames, hlength⟩ := ih (w := w.jump (target high low)) hsize hrest
      exact ⟨labels, .pointer hpointer hdenotes, hnames, hlength⟩

variable {start : Nat}

theorem nameAt_denotes (h : nameAt packet start = .ok name) :
    ∃ labels, Denotes packet start labels ∧ name.labels = foldedLabels labels ∧
      wireSize labels ≤ 255 := by
  obtain ⟨labels, hdenotes, hnames, hsize⟩ := nameLoop_denotes (by simp) h
  exact ⟨labels, hdenotes, hnames, by dsimp only at hsize; omega⟩

theorem nameLoop_stop (h : nameLoop packet steps w = .ok name) :
    (∀ stop, w.stop = some stop → name.stop = stop) ∧
      (w.stop = none → Ends packet w.pos name.stop) := by
  induction steps generalizing w with
  | zero => cases h
  | succ steps ih =>
    obtain ⟨rest, hsteps, -, hcases⟩ := nameLoop_succ h
    cases hsteps
    rcases hcases with ⟨hroot, rfl⟩ | ⟨label, hlabel, -, hrest⟩ |
      ⟨high, low, hpointer, -, -, hrest⟩
    · refine ⟨fun stop hstop => by rw [hstop]; rfl, fun hnone => ?_⟩
      rw [hnone]
      exact .root hroot
    · obtain ⟨hsome, hnone⟩ := ih hrest
      exact ⟨hsome, fun hstop => .label hlabel (hnone hstop)⟩
    · obtain ⟨hsome, -⟩ := ih hrest
      have hstop := hsome _ rfl
      refine ⟨fun stop hbefore => by rw [hstop, hbefore]; rfl, fun hbefore => ?_⟩
      rw [hstop, hbefore]
      exact .pointer hpointer

theorem nameAt_ends (h : nameAt packet start = .ok name) :
    Ends packet start name.stop := (nameLoop_stop h).2 rfl

theorem nameLoop_reads {other : Bytes} (h : nameLoop packet steps w = .ok name)
    (hsame : ∀ i, Reads packet w.pos i → other[i]? = packet[i]?) :
    nameLoop other steps w = .ok name := by
  induction steps generalizing w with
  | zero => cases h
  | succ steps ih =>
    obtain ⟨rest, hsteps, hnew, hcases⟩ := nameLoop_succ h
    cases hsteps
    rcases hcases with ⟨hroot, rfl⟩ | ⟨label, hlabel, hsize, hrest⟩ |
      ⟨high, low, hpointer, hmin, hback, hrest⟩
    · rw [nameLoop, nameStep_of_read hnew (.root ((hsame _ (.here _)).trans hroot)), ok_bind]
      rfl
    · have hlabel' : LabelAt other w.pos label := hlabel.congr fun i hlow hhigh => by
        rcases Nat.eq_or_lt_of_le hlow with rfl | hlow
        · exact hsame _ (.here _)
        · exact hsame i (.content hlabel hlow hhigh)
      rw [nameLoop, nameStep_of_read hnew (.label hlabel' hsize), ok_bind]
      exact ih hrest fun i hi => hsame i (.label hlabel hi)
    · have hpointer' : PointerAt other w.pos high low :=
        hpointer.congr (hsame _ (.here _)) (hsame _ (.low hpointer))
      rw [nameLoop, nameStep_of_read hnew (.pointer hpointer' hmin hback), ok_bind]
      exact ih hrest fun i hi => hsame i (.pointer hpointer hi)

theorem nameLoop_of_read {next : NameWalk} (hnew : w.pos ∉ w.visited)
    (hread : NameRead packet w (.inl next)) :
    nameLoop packet (steps + 1) w = nameLoop packet steps next := by
  rw [nameLoop, nameStep_of_read hnew hread, ok_bind]

theorem nameLoop_plain (hplain : Plain packet w.pos labels) (hsteps : labels.length < steps)
    (hsize : w.size + wireSize labels ≤ 256)
    (hnew : ∀ seen ∈ w.visited, seen < w.pos ∨ ∀ others, ¬ Plain packet seen others) :
    ∃ name, nameLoop packet steps w = .ok name := by
  induction steps generalizing w labels with
  | zero => omega
  | succ steps ih =>
    have hunseen : w.pos ∉ w.visited := by
      intro hseen
      rcases hnew w.pos hseen with hbefore | hnot
      · omega
      · exact hnot labels hplain
    cases hplain with
    | root hroot =>
      rw [nameLoop, nameStep_of_read hunseen (.root hroot), ok_bind]
      exact ⟨_, rfl⟩
    | @label _ label labels hlabel hrest =>
      have hpos := wireSize_pos labels
      rw [wireSize_cons] at hsize
      rw [List.length_cons] at hsteps
      rw [nameLoop_of_read hunseen (.label hlabel (by omega))]
      refine ih hrest (by omega) (by simp only [NameWalk.pass]; omega) fun seen hseen => ?_
      rcases List.mem_cons.mp hseen with rfl | hseen
      · exact .inl (by simp only [NameWalk.pass]; omega)
      rcases hnew seen hseen with hbefore | hnot
      · exact .inl (by simp only [NameWalk.pass]; omega)
      · exact .inr hnot

/-- No place before the pointer is met again: a name without a pointer begins behind it. -/
theorem nameLoop_jumps (hjumps : Jumps packet 12 w.pos labels)
    (hsteps : labels.length + 1 < steps) (hsize : w.size + wireSize labels ≤ 256)
    (hnew : ∀ seen ∈ w.visited, seen < w.pos ∧ ∀ others, ¬ Plain packet seen others) :
    ∃ name, nameLoop packet steps w = .ok name := by
  induction steps generalizing w labels with
  | zero => omega
  | succ steps ih =>
    have hunseen : w.pos ∉ w.visited := fun hseen => by
      have hbefore := (hnew w.pos hseen).1
      omega
    have hhere : ∀ others, ¬ Plain packet w.pos others := fun _ => hjumps.not_plain
    cases hjumps with
    | @pointer _ high low _ hpointer hmin hback hplain =>
      rw [nameLoop_of_read hunseen (.pointer hpointer hmin hback)]
      refine nameLoop_plain (w := w.jump (target high low)) hplain (by omega) hsize ?_
      intro seen hseen
      rcases List.mem_cons.mp hseen with rfl | hseen
      · exact .inr hhere
      · exact .inr (hnew seen hseen).2
    | @label _ label labels hlabel hrest =>
      have hpos := wireSize_pos labels
      rw [wireSize_cons] at hsize
      rw [List.length_cons] at hsteps
      rw [nameLoop_of_read hunseen (.label hlabel (by omega))]
      refine ih hrest (by omega) (by simp only [NameWalk.pass]; omega) fun seen hseen => ?_
      rcases List.mem_cons.mp hseen with rfl | hseen
      · exact ⟨by simp only [NameWalk.pass]; omega, hhere⟩
      · have hbefore := (hnew seen hseen).1
        exact ⟨by simp only [NameWalk.pass]; omega, (hnew seen hseen).2⟩

theorem nameAt_plain (hplain : Plain packet start labels)
    (hsize : wireSize labels ≤ 255) : ∃ name, nameAt packet start = .ok name := by
  have hlength := two_mul_length_lt_wireSize fun label hmem => (hplain.denotes.sizes label hmem).1
  exact nameLoop_plain (w := ⟨start, none, 1, false, [], []⟩) hplain (by omega)
    (by dsimp only; omega) fun seen hseen => (by cases hseen)

theorem nameLoop_plain_steps (hplain : Plain packet w.pos labels)
    (h : nameLoop packet steps w = .ok name) : labels.length < steps := by
  induction steps generalizing w labels with
  | zero => cases h
  | succ steps ih =>
    obtain ⟨rest, hsteps, -, hcases⟩ := nameLoop_succ h
    cases hsteps
    cases hplain with
    | root => exact Nat.succ_pos _
    | label hlabel hrest =>
      rcases hcases with ⟨hroot, -⟩ | ⟨other, hother, -, hloop⟩ | ⟨high, low, hpointer, -⟩
      · exact absurd hroot hlabel.not_root
      · cases hlabel.unique hother
        exact Nat.succ_lt_succ (ih hrest hloop)
      · exact absurd hpointer hlabel.not_pointer

theorem nameLoop_jumps_steps (hjumps : Jumps packet 12 w.pos labels)
    (h : nameLoop packet steps w = .ok name) : labels.length + 1 < steps := by
  induction steps generalizing w labels with
  | zero => cases h
  | succ steps ih =>
    obtain ⟨rest, hsteps, -, hcases⟩ := nameLoop_succ h
    cases hsteps
    cases hjumps with
    | pointer hpointer hmin hback hplain =>
      rcases hcases with ⟨hroot, -⟩ | ⟨other, hother, -⟩ | ⟨high, low, hsame, -, -, hloop⟩
      · exact absurd hroot hpointer.not_root
      · exact absurd hpointer hother.not_pointer
      · obtain ⟨rfl, rfl⟩ := hpointer.unique hsame
        exact Nat.succ_lt_succ (nameLoop_plain_steps hplain hloop)
    | label hlabel hrest =>
      rcases hcases with ⟨hroot, -⟩ | ⟨other, hother, -, hloop⟩ | ⟨high, low, hpointer, -⟩
      · exact absurd hroot hlabel.not_root
      · cases hlabel.unique hother
        exact Nat.succ_lt_succ (ih hrest hloop)
      · exact absurd hpointer hlabel.not_pointer

theorem nameAt_jumps (hjumps : Jumps packet 12 start labels)
    (hsize : wireSize labels ≤ 255) :
    (∃ name, nameAt packet start = .ok name) ↔ labels.length ≠ 127 := by
  have hlength := two_mul_length_lt_wireSize fun label hmem => (hjumps.denotes.sizes label hmem).1
  constructor
  · rintro ⟨name, hname⟩ hlong
    have hsteps := nameLoop_jumps_steps (w := ⟨start, none, 1, false, [], []⟩) hjumps hname
    omega
  · intro hshort
    exact nameLoop_jumps (w := ⟨start, none, 1, false, [], []⟩) hjumps (by omega)
      (by dsimp only; omega) fun seen hseen => (by cases hseen)

end

def hexLabel (label : Bytes) : List Char := label.flatMap hexByte

def labelsKey (labels : List Bytes) : List Char := List.intercalate ['.'] (labels.map hexLabel)

theorem hexByte_injective {a b : UInt8} (h : hexByte a = hexByte b) : a = b := by
  have hdigits : ∀ m < 16, ∀ n < 16, Nat.digitChar m = Nat.digitChar n → m = n := by decide
  have ha := a.toNat_lt
  have hb := b.toNat_lt
  simp only [hexByte, List.cons.injEq, and_true] at h
  have hhigh := hdigits _ (by omega) _ (by omega) h.1
  have hlow := hdigits _ (by omega) _ (by omega) h.2
  exact UInt8.toNat_inj.mp (by omega)

theorem dot_not_mem_hexLabel (label : Bytes) : '.' ∉ hexLabel label := by
  have hdigit : ∀ n, n < 16 → '.' ≠ Nat.digitChar n := by decide
  intro h
  obtain ⟨byte, -, hbyte⟩ := List.mem_flatMap.mp h
  have hlt := byte.toNat_lt
  rcases List.mem_pair.mp hbyte with hhigh | hlow
  · exact hdigit _ (by omega) hhigh
  · exact hdigit _ (by omega) hlow

theorem hexLabel_injective {a b : Bytes} (h : hexLabel a = hexLabel b) : a = b := by
  induction a generalizing b with
  | nil =>
    cases b with
    | nil => rfl
    | cons y b => exact absurd h (List.cons_ne_nil _ _).symm
  | cons x a ih =>
    rcases b with _ | ⟨y, b⟩
    · exact absurd h (List.cons_ne_nil _ _)
    have hparts : hexByte x ++ hexLabel a = hexByte y ++ hexLabel b := h
    obtain ⟨hbyte, hrest⟩ := List.append_inj hparts rfl
    rw [hexByte_injective hbyte, ih hrest]

theorem hexLabel_ne_nil {label : Bytes} (h : 0 < label.length) : hexLabel label ≠ [] := by
  cases label with
  | nil => exact absurd h (Nat.lt_irrefl 0)
  | cons byte rest => exact List.cons_ne_nil _ _

variable {labels : List Bytes}

theorem cut_labelsKey (h : labels ≠ []) :
    Text.cut '.' (labelsKey labels) = labels.map hexLabel := by
  refine Text.cut_intercalate (fun part hpart => ?_) fun hnil => h (List.map_eq_nil_iff.mp hnil)
  obtain ⟨label, -, rfl⟩ := List.mem_map.mp hpart
  exact dot_not_mem_hexLabel label

theorem labelsKey_eq_nil (hlabels : ∀ label ∈ labels, 0 < label.length)
    (h : labelsKey labels = []) : labels = [] := by
  rcases labels with _ | ⟨label, rest⟩
  · rfl
  have hcut := cut_labelsKey (List.cons_ne_nil label rest)
  rw [h, List.map_cons] at hcut
  have hhead : [] = hexLabel label := (List.cons.inj hcut).1
  exact absurd hhead.symm (hexLabel_ne_nil (hlabels label List.mem_cons_self))

theorem labelsKey_injective {labels others : List Bytes}
    (hlabels : ∀ label ∈ labels, 0 < label.length) (hothers : ∀ label ∈ others, 0 < label.length)
    (h : labelsKey labels = labelsKey others) : labels = others := by
  rcases labels with _ | ⟨label, rest⟩
  · exact (labelsKey_eq_nil hothers h.symm).symm
  have hne : others ≠ [] := fun hnil => by
    rw [hnil] at h
    exact absurd (labelsKey_eq_nil hlabels h) (List.cons_ne_nil _ _)
  have hcut := congrArg (Text.cut '.') h
  rw [cut_labelsKey (List.cons_ne_nil _ _), cut_labelsKey hne] at hcut
  exact List.map_injective_iff.mpr (fun _ _ => hexLabel_injective) hcut

def SameLetter (a b : UInt8) : Prop :=
  a = b ∨ (65 ≤ a ∧ a ≤ 90 ∧ b = a + 32) ∨ (65 ≤ b ∧ b ≤ 90 ∧ a = b + 32)

def SameName (labels others : List Bytes) : Prop :=
  List.Forall₂ (List.Forall₂ SameLetter) labels others

theorem folded_eq_iff {a b : UInt8} : folded a = folded b ↔ SameLetter a b := by
  unfold folded SameLetter
  grind

theorem foldedLabels_eq_iff {labels others : List Bytes} :
    foldedLabels labels = foldedLabels others ↔ SameName labels others := by
  have hlabel : (fun a b : Bytes => a.map folded = b.map folded) =
      List.Forall₂ SameLetter := by
    funext a b
    rw [← List.forall₂_eq_eq_eq, List.forall₂_map_left_iff, List.forall₂_map_right_iff]
    simp only [folded_eq_iff]
  rw [SameName, ← hlabel, foldedLabels, foldedLabels, ← List.forall₂_eq_eq_eq,
    List.forall₂_map_left_iff, List.forall₂_map_right_iff]

theorem foldedLabels_sizes (h : ∀ label ∈ labels, 0 < label.length) :
    ∀ label ∈ foldedLabels labels, 0 < label.length := by
  intro label hmem
  obtain ⟨other, hother, rfl⟩ := List.mem_map.mp hmem
  rw [List.length_map]
  exact h other hother

end Meshpn.Dns.Wire
