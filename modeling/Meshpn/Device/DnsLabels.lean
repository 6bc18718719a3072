import Meshpn.Device.DnsQuestion

/-!
The labels of a name in a message, with what a pointer leads to, and the loop over them in
terms of these: the name is the labels with dots between them, and nothing but the bytes
up to the furthest one that the labels take has a say in it.
-/

namespace Meshpn.Device.Dns

open Meshpn.Lib List

def targetAt (p : Bytes) (off : Nat) : Nat := 256 * (byteAt p off % 64) + byteAt p (off + 1)

/-- The label at `off`. -/
def labelAt (p : Bytes) (off : Nat) : Bytes := (p.drop (off + 1)).take (byteAt p off)

/-- The name at `off` has these labels. It ends ahead of `stop` where it stands, and its bytes are
ahead of `reach`. -/
inductive Spells (p : Bytes) : Nat → List Bytes → Nat → Nat → Prop where
  | root {off : Nat} : off < p.length → byteAt p off = 0 → Spells p off [] (off + 1) (off + 1)
  | label {off stop reach : Nat} {labels : List Bytes} : 0 < byteAt p off → byteAt p off ≤ 63 →
      off + 1 + byteAt p off ≤ p.length →
      Spells p (off + 1 + byteAt p off) labels stop reach →
      Spells p off (labelAt p off :: labels) stop reach
  | pointer {off stop reach : Nat} {labels : List Bytes} : off + 1 < p.length →
      192 ≤ byteAt p off → 12 ≤ targetAt p off → targetAt p off < off →
      Spells p (targetAt p off) labels stop reach →
      Spells p off labels (off + 2) (max (off + 2) reach)

variable {labels : List Bytes} {p : Bytes} {q : Question} {name : Bytes}

theorem Spells.unique {off stop stop' reach reach' : Nat} {labels labels' : List Bytes}
    (h : Spells p off labels stop reach) (h' : Spells p off labels' stop' reach') :
    labels = labels' ∧ stop = stop' ∧ reach = reach' := by
  induction h generalizing labels' stop' reach' with
  | root _ hzero =>
    cases h' with
    | root => exact ⟨rfl, rfl, rfl⟩
    | label hpos => omega
    | pointer _ hhigh => omega
  | label hpos hsmall _ _ ih =>
    cases h' with
    | root _ hzero => omega
    | label _ _ _ hrest =>
      obtain ⟨rfl, rfl, rfl⟩ := ih hrest
      exact ⟨rfl, rfl, rfl⟩
    | pointer _ hhigh => omega
  | pointer _ hhigh _ _ _ ih =>
    cases h' with
    | root _ hzero => omega
    | label _ hsmall => omega
    | pointer _ _ _ _ hrest =>
      obtain ⟨rfl, -, rfl⟩ := ih hrest
      exact ⟨rfl, rfl, rfl⟩

theorem Spells.reach_le {off stop reach : Nat}
    (h : Spells p off labels stop reach) : off < reach ∧ reach ≤ p.length := by
  induction h with
  | root hin => exact ⟨by omega, by omega⟩
  | label _ _ _ _ ih => exact ⟨by omega, ih.2⟩
  | pointer hin _ _ _ _ ih => exact ⟨by omega, by omega⟩

theorem Spells.off_lt_stop {off stop reach : Nat}
    (h : Spells p off labels stop reach) : off < stop := by
  induction h with
  | root => omega
  | label _ _ _ _ ih => omega
  | pointer => omega

def spelled : Bytes → List Bytes → Bytes
  | name, [] => name
  | name, label :: labels =>
    spelled ((if name = [] then [] else name ++ [46]) ++ label.map lowered) labels

/-- A label without the bytes that would end the name or a label of it. -/
structure Clean (label : Bytes) : Prop where
  nonempty : label ≠ []
  bytes : ∀ c ∈ label, c ≠ 0 ∧ c ≠ 46

/-- What the loop makes of a message. -/
structure Reads (p : Bytes) (off : Nat) (name : Bytes) (stop : Nat) (q : Question)
    (labels : List Bytes) (last reach : Nat) : Prop where
  spells : Spells p off labels last reach
  clean : ∀ label ∈ labels, Clean label
  name : q.name = spelled name labels
  stop : q.stop = (if stop = 0 then last else stop) + 4
  room : q.stop ≤ p.length

theorem dotted_fits {n : Nat} (hn : 0 < n)
    (h : ¬nameSize ≤ (dotted name).length + n) :
    dotted name = if name = [] then [] else name ++ [46] := by
  unfold dotted at h ⊢
  by_cases hempty : name = []
  · rw [if_pos hempty, if_neg fun hboth => hboth.1 hempty, hempty]
  by_cases hroom : name.length + 1 < nameSize
  · rw [if_pos ⟨hempty, hroom⟩, if_neg hempty]
  · rw [if_neg fun hboth => hroom hboth.2] at h
    omega

theorem labelAt_length {off : Nat} (h : off + 1 + byteAt p off ≤ p.length) :
    (labelAt p off).length = byteAt p off := by
  rw [labelAt, length_take, length_drop]
  omega

theorem clean_labelAt {off : Nat} (hpos : 0 < byteAt p off)
    (hin : off + 1 + byteAt p off ≤ p.length)
    (h : ¬(labelAt p off).any (fun c => c == 0 || c == 46) = true) : Clean (labelAt p off) where
  nonempty hnil := by
    have hlength := labelAt_length hin
    rw [hnil, length_nil] at hlength
    omega
  bytes c hc := by
    have hall : ¬(c == 0 || c == 46) = true := fun hbad => h (any_eq_true.mpr ⟨c, hc, hbad⟩)
    simpa using hall

theorem questionLoop_reads {hops off stop : Nat}
    (h : questionLoop p hops off name stop = some q) :
    ∃ labels last reach, Reads p off name stop q labels last reach := by
  induction hops generalizing off name stop with
  | zero => cases h
  | succ hops ih =>
    rw [questionLoop] at h
    split at h
    case isTrue => cases h
    rename_i hin
    dsimp only at h
    split at h
    case isTrue hpointer =>
      split at h
      case isTrue => cases h
      rename_i hlast
      split at h
      case isTrue => cases h
      rename_i htarget
      obtain ⟨labels, last, reach, hreads⟩ := ih h
      refine ⟨labels, off + 2, max (off + 2) reach, ?_, hreads.clean, hreads.name, ?_, hreads.room⟩
      · exact .pointer (by omega) hpointer (Nat.not_lt.mp fun hlow => htarget (.inr hlow))
          (Nat.not_le.mp fun hhigh => htarget (.inl hhigh)) hreads.spells
      · rw [hreads.stop]
        split <;> simp_all
    case isFalse hpointer =>
      split at h
      case isTrue => cases h
      rename_i hlong
      split at h
      case isTrue hroot =>
        by_cases hroom : p.length < (if stop = 0 then off + 1 else stop) + 4
        case pos =>
          rw [if_pos hroom] at h
          cases h
        case neg =>
          rw [if_neg hroom] at h
          obtain rfl := Option.some.inj h
          exact ⟨[], off + 1, off + 1, .root (by omega) hroot, by simp, rfl, rfl,
            Nat.not_lt.mp hroom⟩
      case isFalse hroot =>
        split at h
        case isTrue => cases h
        rename_i hfits
        split at h
        case isTrue => cases h
        rename_i hbytes
        obtain ⟨labels, last, reach, hreads⟩ := ih h
        refine ⟨labelAt p off :: labels, last, reach, ?_, ?_, ?_, hreads.stop, hreads.room⟩
        · exact .label (by omega) (by omega) (by omega) hreads.spells
        · intro label hlabel
          rcases mem_cons.mp hlabel with rfl | hlabel
          · exact clean_labelAt (by omega) (by omega) hbytes
          · exact hreads.clean label hlabel
        · rw [hreads.name, spelled, dotted_fits (by omega) hfits]
          rfl

theorem question_some : question p = some q ↔
    17 ≤ p.length ∧ byteAt p 4 = 0 ∧ byteAt p 5 = 1 ∧ byteAt p 2 / 8 % 16 = 0 ∧
      questionLoop p 128 12 [] 0 = some q := by
  unfold question
  split
  case isTrue hbad => exact ⟨nofun, fun h => by omega⟩
  case isFalse hgood => exact ⟨fun h => ⟨by omega, by omega, by omega, by omega, h⟩, fun h => h.2.2.2.2⟩

theorem question_reads (h : question p = some q) :
    ∃ labels last reach, Reads p 12 [] 0 q labels last reach :=
  questionLoop_reads (question_some.mp h).2.2.2.2

theorem lowered_clean {c : UInt8} (h : c ≠ 0 ∧ c ≠ 46) : lowered c ≠ 0 ∧ lowered c ≠ 46 := by
  unfold lowered
  split
  case isTrue hupper =>
    have hlow : 65 ≤ c.toNat := hupper.1
    have hhigh : c.toNat ≤ 90 := hupper.2
    have hsum : (c + 32).toNat = c.toNat + 32 := by
      rw [UInt8.toNat_add]
      exact Nat.mod_eq_of_lt (show c.toNat + 32 < 256 by omega)
    constructor <;> intro heq <;> rw [heq] at hsum
    · exact absurd hsum (show ¬0 = c.toNat + 32 by omega)
    · exact absurd hsum (show ¬46 = c.toNat + 32 by omega)
  case isFalse => exact h

theorem intercalate_append (sep front first : Bytes) (rest : List Bytes) :
    sep.intercalate ((front ++ first) :: rest) = front ++ sep.intercalate (first :: rest) := by
  cases rest with
  | nil => simp [intercalate_singleton]
  | cons second rest => simp [intercalate_cons_cons]

theorem spelled_behind (h : name ≠ [])
    (hclean : ∀ label ∈ labels, Clean label) :
    spelled name labels = List.intercalate [46] (name :: labels.map (List.map lowered)) := by
  induction labels generalizing name with
  | nil => exact intercalate_singleton.symm
  | cons label labels ih =>
    have hnext : name ++ [46] ++ label.map lowered ≠ [] := by simp
    rw [spelled, if_neg h, ih hnext fun other hother => hclean other (mem_cons_of_mem _ hother),
      intercalate_append, map_cons, intercalate_cons_cons, append_assoc]

theorem spelled_nil (hclean : ∀ label ∈ labels, Clean label) :
    spelled [] labels = List.intercalate [46] (labels.map (List.map lowered)) := by
  rcases labels with _ | ⟨label, labels⟩
  · rfl
  have hfirst : label.map lowered ≠ [] := by
    simpa using (hclean label mem_cons_self).nonempty
  rw [spelled, if_pos rfl, nil_append, map_cons,
    spelled_behind hfirst fun other hother => hclean other (mem_cons_of_mem _ hother)]

theorem splitOn_spelled (hclean : ∀ label ∈ labels, Clean label)
    (hlabels : labels ≠ []) :
    (spelled [] labels).splitOn 46 = labels.map (List.map lowered) := by
  rw [spelled_nil hclean]
  refine splitOn_intercalate 46 ?_ fun hnil => hlabels (map_eq_nil_iff.mp hnil)
  intro part hpart hdot
  obtain ⟨label, hlabel, rfl⟩ := mem_map.mp hpart
  obtain ⟨c, hc, hlower⟩ := mem_map.mp hdot
  exact (lowered_clean ((hclean label hlabel).bytes c hc)).2 hlower

theorem spelled_eq_nil (hclean : ∀ label ∈ labels, Clean label) :
    spelled [] labels = [] ↔ labels = [] := by
  constructor
  · intro hnil
    by_contra hlabels
    have hsplit := splitOn_spelled hclean hlabels
    rw [hnil, splitOn_nil] at hsplit
    rcases labels with _ | ⟨label, labels⟩
    · exact hlabels rfl
    have hfirst := (hclean label mem_cons_self).nonempty
    rw [map_cons] at hsplit
    have hempty := (List.cons.inj hsplit).1
    exact hfirst (map_eq_nil_iff.mp hempty.symm)
  · rintro rfl
    rfl

theorem spelled_eq_iff {labels labels' : List Bytes} (hclean : ∀ label ∈ labels, Clean label)
    (hclean' : ∀ label ∈ labels', Clean label) :
    spelled [] labels = spelled [] labels' ↔
      labels.map (List.map lowered) = labels'.map (List.map lowered) := by
  constructor
  · intro hsame
    by_cases hlabels : labels = []
    · rw [(spelled_eq_nil hclean).mpr hlabels] at hsame
      rw [hlabels, (spelled_eq_nil hclean').mp hsame.symm]
    · have hlabels' : labels' ≠ [] := by
        rw [ne_eq, ← spelled_eq_nil hclean', ← hsame, spelled_eq_nil hclean]
        exact hlabels
      rw [← splitOn_spelled hclean hlabels, hsame, splitOn_spelled hclean' hlabels']
  · intro hsame
    rw [spelled_nil hclean, spelled_nil hclean', hsame]

theorem spelled_nonzero (hclean : ∀ label ∈ labels, Clean label)
    (hname : ∀ c ∈ name, c ≠ 0) : ∀ c ∈ spelled name labels, c ≠ 0 := by
  induction labels generalizing name with
  | nil => exact hname
  | cons label labels ih =>
    rw [spelled]
    refine ih (fun other hother => hclean other (mem_cons_of_mem _ hother)) fun c hc => ?_
    rcases mem_append.mp hc with hfront | hlabel
    · split at hfront
      case isTrue => cases hfront
      case isFalse =>
        rcases mem_append.mp hfront with hold | hdot
        · exact hname c hold
        · rw [mem_singleton.mp hdot]
          decide
    · obtain ⟨b, hb, rfl⟩ := mem_map.mp hlabel
      exact (lowered_clean ((hclean label mem_cons_self).bytes b hb)).1

def arrayText (array : Bytes) : Bytes := array.takeWhile (· != 0)

theorem Stores.text {stored : StoredQuestion} (h : Stores stored q)
    (hread : question p = some q) : arrayText stored.name = q.name := by
  obtain ⟨labels, last, reach, hreads⟩ := question_reads hread
  have hnonzero : ∀ c ∈ q.name, (c != 0) = true := by
    rw [hreads.name]
    exact fun c hc => bne_iff_ne.mpr (spelled_nonzero hreads.clean (by simp) c hc)
  have hsplit := take_append_drop (q.name.length + 1) stored.name
  rw [h.name, append_assoc] at hsplit
  rw [arrayText, ← hsplit, takeWhile_append_of_pos hnonzero]
  simp

end Meshpn.Device.Dns
