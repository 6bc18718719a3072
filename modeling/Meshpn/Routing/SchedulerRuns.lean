import Meshpn.Routing.Scheduler

/-!
Selections of the scheduler go round the list of paths. The index they start from is kept when
the list is replaced, and it may lie past the end of a shorter list; while it does not, and the
paths have different keys, the copies of a packet take different paths under a number that no
other packet has, and the receiver passes one of them on.
-/

namespace Meshpn.Routing

open Meshpn.Lib

namespace MultipathScheduler

/-- The keys of the paths differ, and each has a weight. -/
structure Sound (s : MultipathScheduler) : Prop where
  keys : (s.paths.map getPathKey).Nodup
  weights : ∀ path ∈ s.paths, s.pathWeights.has (getPathKey path) = true

def InRange (s : MultipathScheduler) : Prop := s.paths = [] ∨ s.currentPathIndex < s.paths.length

section Changes

variable {s : MultipathScheduler}

theorem registerAll_fields (paths : List Path) (s : MultipathScheduler) :
    (paths.foldl register s).paths = s.paths ∧
      (paths.foldl register s).currentPathIndex = s.currentPathIndex ∧
      (paths.foldl register s).sequenceNumber = s.sequenceNumber ∧
      (paths.foldl register s).flowId = s.flowId ∧
      ∀ key, (paths.foldl register s).pathWeights.has key = true ↔
        key ∈ paths.map getPathKey ∨ s.pathWeights.has key = true := by
  induction paths generalizing s with
  | nil => exact ⟨rfl, rfl, rfl, rfl, by simp⟩
  | cons path rest ih =>
    obtain ⟨hpaths, hindex, hseq, hflow, hweights⟩ := ih (s.register path)
    refine ⟨hpaths, hindex, hseq, hflow, fun key => ?_⟩
    rw [List.foldl_cons, hweights key, register, Table.has_set, Bool.or_eq_true,
      decide_eq_true_eq, List.map_cons, List.mem_cons]
    tauto

theorem Sound.setPaths {paths : List Path} (h : (paths.map getPathKey).Nodup) :
    (s.setPaths paths).Sound := by
  obtain ⟨hpaths, -, -, -, hweights⟩ :=
    registerAll_fields paths { s with paths, pathWeights := .empty, pathStats := .empty }
  unfold MultipathScheduler.setPaths
  refine ⟨by rw [hpaths]; exact h, fun path hpath => ?_⟩
  rw [hpaths] at hpath
  exact (hweights _).mpr (.inl (List.mem_map_of_mem hpath))

theorem Sound.addPath (h : s.Sound) (path : Path) : (s.addPath path).Sound := by
  unfold MultipathScheduler.addPath
  split
  case isTrue => exact h
  rename_i hnew
  constructor
  · change ((s.paths ++ [path]).map getPathKey).Nodup
    rw [List.map_append, List.nodup_append]
    refine ⟨h.keys, List.nodup_singleton _, ?_⟩
    rintro _ ha _ hb rfl
    obtain ⟨other, hother, hkey⟩ := List.mem_map.mp ha
    rw [List.map_singleton, List.mem_singleton] at hb
    exact hnew (hb ▸ hkey ▸ h.weights other hother)
  · intro other hother
    change other ∈ s.paths ++ [path] at hother
    rw [register, Table.has_set, Bool.or_eq_true, decide_eq_true_eq]
    rcases List.mem_append.mp hother with hold | hlast
    · exact .inr (h.weights other hold)
    · rw [List.mem_singleton.mp hlast]
      exact .inl rfl

theorem Sound.removePath (h : s.Sound) (path : Path) : (s.removePath path).Sound := by
  unfold MultipathScheduler.removePath
  split
  case h_1 => exact h
  rename_i index hindex
  obtain ⟨hlt, hkey, -⟩ := List.findIdx?_eq_some_iff_getElem.mp hindex
  rw [decide_eq_true_eq] at hkey
  refine ⟨h.keys.sublist ((List.eraseIdx_sublist s.paths index).map getPathKey), ?_⟩
  intro other hother
  change other ∈ s.paths.eraseIdx index at hother
  rw [List.eraseIdx_eq_take_drop_succ, List.mem_append] at hother
  have hsplit := List.take_append_drop index s.paths
  rw [List.drop_eq_getElem_cons hlt] at hsplit
  have hkeys := h.keys
  rw [← hsplit, List.map_append, List.map_cons, List.nodup_middle, List.nodup_cons,
    List.mem_append, hkey] at hkeys
  rw [Table.has_delete, Bool.and_eq_true, Bool.not_eq_true', decide_eq_false_iff_not]
  refine ⟨fun hsame => hkeys.1 (hother.imp ?_ ?_), h.weights other ?_⟩
  · exact fun hfront => List.mem_map.mpr ⟨other, hfront, hsame.symm⟩
  · exact fun hback => List.mem_map.mpr ⟨other, hback, hsame.symm⟩
  · exact hother.elim List.mem_of_mem_take List.mem_of_mem_drop

theorem adjustWeight_fields (s : MultipathScheduler) (pathKey : String) :
    (s.adjustWeight pathKey).paths = s.paths ∧
      (s.adjustWeight pathKey).currentPathIndex = s.currentPathIndex ∧
      (s.adjustWeight pathKey).sequenceNumber = s.sequenceNumber ∧
      (s.adjustWeight pathKey).flowId = s.flowId ∧
      ∀ key, s.pathWeights.has key = true → (s.adjustWeight pathKey).pathWeights.has key = true := by
  unfold adjustWeight
  split
  · exact ⟨rfl, rfl, rfl, rfl, fun _ => id⟩
  refine ⟨rfl, rfl, rfl, rfl, fun key hkey => ?_⟩
  dsimp only
  rw [Table.has_set, hkey, Bool.or_true]

end Changes

/-- What a call does that chooses `count` paths: it goes on round the list. -/
structure Chooses (s : MultipathScheduler) (outcome : Outcome) (count : Nat) : Prop where
  paths : outcome.scheduler.paths = s.paths
  weights : ∀ key, s.pathWeights.has key = true → outcome.scheduler.pathWeights.has key = true
  index : outcome.scheduler.currentPathIndex % s.paths.length =
    (s.currentPathIndex + count) % s.paths.length
  chosen : outcome.chosen = rounds s.paths s.currentPathIndex count
  quiet : outcome.throws = false
  nobody : s.paths = [] → count = 0

theorem Chooses.sound {s : MultipathScheduler} {outcome : Outcome} {count : Nat}
    (h : s.Chooses outcome count) (hs : s.Sound) : outcome.scheduler.Sound :=
  ⟨by rw [h.paths]; exact hs.keys, fun path hpath => by
    rw [h.paths] at hpath
    exact h.weights _ (hs.weights path hpath)⟩

section Choices

variable {s : MultipathScheduler}

theorem countSent_fields (s : MultipathScheduler) (path : Path) :
    (s.countSent path).paths = s.paths ∧ (s.countSent path).pathWeights = s.pathWeights ∧
      (s.countSent path).currentPathIndex = s.currentPathIndex ∧
      (s.countSent path).sequenceNumber = s.sequenceNumber ∧
      (s.countSent path).flowId = s.flowId := by
  unfold countSent
  split
  · exact ⟨rfl, rfl, rfl, rfl, rfl⟩
  · exact ⟨rfl, rfl, rfl, rfl, rfl⟩

theorem selectPath_some (hne : s.paths ≠ []) (hrange : s.currentPathIndex < s.paths.length) :
    ∃ path, s.paths[s.currentPathIndex]? = some path ∧
      s.selectPath = (some path,
        { s with currentPathIndex := (s.currentPathIndex + 1) % s.paths.length }) := by
  have hget := List.getElem?_eq_getElem hrange
  refine ⟨_, hget, ?_⟩
  rw [selectPath, if_neg (by simpa using hne), selectRoundRobin, hget]

theorem rounds_one (hrange : s.currentPathIndex < s.paths.length) :
    rounds s.paths s.currentPathIndex 1 = [s.paths[s.currentPathIndex]?] := by
  rw [rounds_succ, Nat.mod_eq_of_lt hrange]
  rfl

theorem selectPath_chooses (hrange : s.InRange) :
    ∃ count, s.Chooses (s.step .selectPath) count := by
  unfold step
  rcases hrange with hempty | hrange
  · rw [selectPath, if_pos (by simp [hempty]), if_pos (by simp [hempty])]
    exact ⟨0, rfl, fun _ => id, rfl, rfl, rfl, fun _ => rfl⟩
  · have hne : s.paths ≠ [] := List.ne_nil_of_length_pos (by omega)
    obtain ⟨path, hpath, hselect⟩ := selectPath_some hne hrange
    rw [hselect, if_neg (by simpa using hne)]
    refine ⟨1, rfl, fun _ => id, Nat.mod_mod _ _, ?_, rfl, fun hempty => absurd hempty hne⟩
    rw [rounds_one hrange, hpath]

theorem schedulePacket_spec (hrange : s.InRange) (payload : List UInt8) :
    (∃ count, s.Chooses (s.schedulePacket payload) count) ∧
      (s.schedulePacket payload).scheduler.flowId = s.flowId ∧
      ((s.schedulePacket payload).packets = [] ∧
          (s.schedulePacket payload).scheduler.sequenceNumber = s.sequenceNumber ∨
        (s.schedulePacket payload).scheduler.sequenceNumber = s.sequenceNumber + 1) ∧
      ∀ p ∈ (s.schedulePacket payload).packets,
        p.flowId = s.flowId ∧ p.seq = s.sequenceNumber ∧ p.copy = none := by
  unfold schedulePacket
  rcases hrange with hempty | hrange
  · rw [selectPath, if_pos (by simp [hempty])]
    dsimp only
    rw [if_pos (by simp [hempty])]
    exact ⟨⟨0, rfl, fun _ => id, rfl, rfl, rfl, fun _ => rfl⟩, rfl, .inl ⟨rfl, rfl⟩,
      fun _ hp => by cases hp⟩
  · have hne : s.paths ≠ [] := List.ne_nil_of_length_pos (by omega)
    obtain ⟨path, hpath, hselect⟩ := selectPath_some hne hrange
    rw [hselect]
    dsimp only
    obtain ⟨hpaths, hweights, hindex, hseq, hflow⟩ := countSent_fields
      { s with
        currentPathIndex := (s.currentPathIndex + 1) % s.paths.length
        sequenceNumber := s.sequenceNumber + 1 } path
    refine ⟨⟨1, hpaths, fun key hkey => ?_, ?_, ?_, rfl, fun hempty => absurd hempty hne⟩, hflow,
      .inr hseq, fun p hp => ?_⟩
    · dsimp only
      rw [hweights]
      exact hkey
    · dsimp only
      rw [hindex, Nat.mod_mod]
    · rw [rounds_one hrange, hpath]
    · obtain rfl := List.mem_singleton.mp hp
      exact ⟨rfl, rfl, rfl⟩

end Choices

/-- The variables of `schedulePacketMultipath` after `i` passes. -/
structure UpTo (s : MultipathScheduler) (payload : List UInt8) (total i : Nat) (copies : Copies) :
    Prop where
  quiet : copies.outcome.throws = false
  used : copies.used = (copies.outcome.packets.map fun p => getPathKey p.path).reverse
  taken : copies.outcome.packets.map (fun p => some p.path) = rounds s.paths s.currentPathIndex i
  chosen : copies.outcome.chosen = rounds s.paths s.currentPathIndex i
  paths : copies.outcome.scheduler.paths = s.paths
  weights : copies.outcome.scheduler.pathWeights = s.pathWeights
  index : copies.outcome.scheduler.currentPathIndex = (s.currentPathIndex + i) % s.paths.length
  number : copies.outcome.scheduler.sequenceNumber = s.sequenceNumber + 1
  flow : copies.outcome.scheduler.flowId = s.flowId
  marks : ∀ p ∈ copies.outcome.packets, p.flowId = s.flowId ∧ p.seq = s.sequenceNumber ∧
    p.payload = payload ∧ ∃ j, p.copy = some (j, total)

section Copies

variable {s : MultipathScheduler} {payload : List UInt8} {total i : Nat} {copies : Copies}

theorem UpTo.fresh (h : UpTo s payload total i copies) (hkeys : (s.paths.map getPathKey).Nodup)
    (hi : i < s.paths.length) : ∃ path, s.paths[(s.currentPathIndex + i) % s.paths.length]? =
      some path ∧ getPathKey path ∉ copies.used := by
  have hmod := Nat.mod_lt (s.currentPathIndex + i) (Nat.zero_lt_of_lt hi)
  have hget := List.getElem?_eq_getElem hmod
  refine ⟨_, hget, fun hused => ?_⟩
  -- the keys of the first positions, and that of the next one
  have hnodup : ((rounds s.paths s.currentPathIndex (i + 1)).map (Option.map getPathKey)).Nodup := by
    have hrounds : (rounds s.paths s.currentPathIndex (i + 1)).map (Option.map getPathKey) =
        rounds (s.paths.map getPathKey) s.currentPathIndex (i + 1) := by
      simp only [rounds, List.map_map, List.length_map]
      refine List.map_congr_left fun j _ => ?_
      rw [Function.comp_apply, List.getElem?_map]
    rw [hrounds]
    exact rounds_nodup hkeys _ (by rw [List.length_map]; omega)
  have hone : rounds s.paths (s.currentPathIndex + i) 1 =
      [s.paths[(s.currentPathIndex + i) % s.paths.length]?] := by
    rw [rounds_succ]
    rfl
  rw [← rounds_append, hone, hget, List.map_append, ← h.taken, List.map_map,
    List.nodup_append] at hnodup
  rw [h.used, List.mem_reverse] at hused
  obtain ⟨p, hp, hkey⟩ := List.mem_map.mp hused
  refine hnodup.2.2 (some (getPathKey p.path)) (List.mem_map.mpr ⟨p, hp, rfl⟩) _
    (List.mem_singleton_self _) ?_
  rw [hkey]
  rfl

theorem pick_fresh {used : List String} {path : Path} (left : Nat)
    (hne : s.paths ≠ []) (hpath : s.paths[s.currentPathIndex]? = some path)
    (hfresh : getPathKey path ∉ used) :
    pick used left s = (some path, [some path],
      { s with currentPathIndex := (s.currentPathIndex + 1) % s.paths.length }) := by
  have hrange := (List.getElem?_eq_some_iff.mp hpath).1
  obtain ⟨found, hfound, hselect⟩ := selectPath_some hne hrange
  rw [hpath] at hfound
  obtain rfl := Option.some.inj hfound
  unfold pick
  rw [hselect]
  cases left with
  | zero => rfl
  | succ left => exact if_neg hfresh

theorem UpTo.next (h : UpTo s payload total i copies) (hkeys : (s.paths.map getPathKey).Nodup)
    (hi : i < s.paths.length) :
    UpTo s payload total (i + 1) (addCopy s.sequenceNumber payload total copies i) := by
  obtain ⟨path, hpath, hfresh⟩ := h.fresh hkeys hi
  have hne : copies.outcome.scheduler.paths ≠ [] := by
    rw [h.paths]
    exact List.ne_nil_of_length_pos (by omega)
  have hhere : copies.outcome.scheduler.paths[copies.outcome.scheduler.currentPathIndex]? =
      some path := by
    rw [h.paths, h.index]
    exact hpath
  have hmore : rounds s.paths s.currentPathIndex (i + 1) =
      rounds s.paths s.currentPathIndex i ++ [some path] := by
    rw [← rounds_append, rounds_succ, hpath]
    rfl
  unfold addCopy
  rw [h.quiet, if_neg Bool.false_ne_true]
  dsimp only
  rw [pick_fresh _ hne hhere hfresh]
  dsimp only
  obtain ⟨hpaths, hweights, hindex, hseq, hflow⟩ := countSent_fields
    { copies.outcome.scheduler with
      currentPathIndex := (copies.outcome.scheduler.currentPathIndex + 1) %
        copies.outcome.scheduler.paths.length } path
  refine ⟨rfl, ?_, ?_, ?_, hpaths.trans h.paths, hweights.trans h.weights, ?_,
    hseq.trans h.number, hflow.trans h.flow, ?_⟩
  · rw [List.map_append, List.reverse_append, h.used]
    rfl
  · rw [List.map_append, h.taken, hmore]
    rfl
  · rw [h.chosen, hmore]
  · rw [hindex]
    dsimp only
    rw [h.index, h.paths, Nat.mod_add_mod, Nat.add_assoc]
  · intro p hp
    rcases List.mem_append.mp hp with hold | hlast
    · exact h.marks p hold
    · obtain rfl := List.mem_singleton.mp hlast
      exact ⟨h.flow, rfl, rfl, i, rfl⟩

theorem upTo_foldl (payload : List UInt8) (total : Nat) (hkeys : (s.paths.map getPathKey).Nodup)
    (hrange : s.currentPathIndex < s.paths.length) (hi : i ≤ s.paths.length) :
    UpTo s payload total i ((List.range i).foldl (addCopy s.sequenceNumber payload total)
      ⟨[], { s with sequenceNumber := s.sequenceNumber + 1 }, [], [], false⟩) := by
  induction i with
  | zero =>
    exact ⟨rfl, rfl, rfl, rfl, rfl, rfl, (Nat.mod_eq_of_lt hrange).symm, rfl, rfl,
      fun _ hp => by cases hp⟩
  | succ i ih =>
    rw [List.range_succ, List.foldl_append]
    exact (ih (by omega)).next hkeys (by omega)

/-- What a call with copies returns and leaves. -/
structure Sends (s : MultipathScheduler) (payload : List UInt8) (total : Nat)
    (outcome : Outcome) : Prop where
  chooses : s.Chooses outcome total
  taken : outcome.packets.map (fun p => some p.path) = rounds s.paths s.currentPathIndex total
  number : outcome.packets = [] ∧ outcome.scheduler.sequenceNumber = s.sequenceNumber ∨
    outcome.scheduler.sequenceNumber = s.sequenceNumber + 1
  flow : outcome.scheduler.flowId = s.flowId
  marks : ∀ p ∈ outcome.packets, p.flowId = s.flowId ∧ p.seq = s.sequenceNumber ∧
    p.payload = payload ∧ ∃ j, p.copy = some (j, total)

theorem schedulePacketMultipath_sends (hkeys : (s.paths.map getPathKey).Nodup)
    (hrange : s.InRange) (payload : List UInt8) (pathCount : Nat) :
    Sends s payload (min pathCount s.paths.length)
      (s.schedulePacketMultipath payload pathCount) := by
  unfold schedulePacketMultipath
  rcases hrange with hempty | hrange
  · rw [if_pos (by simp [hempty]), hempty]
    exact ⟨⟨rfl, fun _ => id, by rw [List.length_nil, Nat.min_zero]; rfl, by simp [rounds], rfl,
        fun _ => Nat.min_zero _⟩,
      by simp [rounds], .inl ⟨rfl, rfl⟩, rfl, fun _ hp => by cases hp⟩
  · rw [if_neg (by omega)]
    have h := upTo_foldl payload (min pathCount s.paths.length) hkeys hrange
      (Nat.min_le_right pathCount s.paths.length)
    dsimp only
    generalize (List.range (min pathCount s.paths.length)).foldl _ _ = copies at h ⊢
    obtain ⟨used, scheduler, chosen, packets, throws⟩ := copies
    obtain rfl : throws = false := h.quiet
    rw [if_neg Bool.false_ne_true]
    exact ⟨⟨h.paths, fun key hkey => by rw [h.weights]; exact hkey,
      by rw [h.index, Nat.mod_mod], h.chosen, h.quiet, fun hempty => by rw [hempty, List.length_nil, Nat.min_zero]⟩,
      h.taken, .inr h.number, h.flow, h.marks⟩

theorem Sends.keys_nodup {outcome : Outcome} (h : Sends s payload total outcome)
    (hkeys : (s.paths.map getPathKey).Nodup) (htotal : total ≤ s.paths.length) :
    (outcome.packets.map fun p => getPathKey p.path).Nodup := by
  have hrounds : (outcome.packets.map fun p => getPathKey p.path).map some =
      rounds (s.paths.map getPathKey) s.currentPathIndex total := by
    have hmap : (outcome.packets.map fun p => getPathKey p.path).map some =
        (outcome.packets.map fun p => some p.path).map (Option.map getPathKey) := by
      rw [List.map_map, List.map_map]
      rfl
    rw [hmap, h.taken]
    simp only [rounds, List.map_map, List.length_map]
    refine List.map_congr_left fun j _ => ?_
    rw [Function.comp_apply, List.getElem?_map]
  have hnodup := rounds_nodup hkeys s.currentPathIndex
    (show total ≤ (s.paths.map getPathKey).length by rwa [List.length_map])
  rw [← hrounds] at hnodup
  exact hnodup.of_map some

/-- With an index past the end of the list nothing is selected, and the key of nothing throws. -/
theorem out_of_range_throws (h : ¬ s.InRange) :
    s.paths ≠ [] ∧ s.selectPath.1 = none ∧ ∀ payload pathCount, 0 < pathCount →
      (s.schedulePacketMultipath payload pathCount).throws = true := by
  obtain ⟨hne, hpast⟩ := not_or.mp h
  have hlength : s.paths.length ≠ 0 := fun hzero => hne (List.length_eq_zero_iff.mp hzero)
  have hnone : s.paths[s.currentPathIndex]? = none := List.getElem?_eq_none (Nat.not_lt.mp hpast)
  refine ⟨hne, ?_, fun payload pathCount hcount => ?_⟩
  · rw [selectPath, if_neg hlength, selectRoundRobin, hnone]
  have hstays : ∀ (passes : List Nat) (copies : Copies), copies.outcome.throws = true →
      (passes.foldl (addCopy s.sequenceNumber payload (min pathCount s.paths.length))
        copies).outcome.throws = true := by
    intro passes
    induction passes with
    | nil => exact fun _ hthrows => hthrows
    | cons i rest ih =>
      intro copies hthrows
      refine ih _ ?_
      rw [addCopy, if_pos hthrows]
      exact hthrows
  obtain ⟨total, htotal⟩ := Nat.exists_eq_succ_of_ne_zero
    (show min pathCount s.paths.length ≠ 0 by omega)
  rw [schedulePacketMultipath, if_neg hlength]
  dsimp only
  rw [htotal, Nat.succ_eq_add_one, List.range_succ_eq_map, List.foldl_cons, ← Nat.succ_eq_add_one,
    ← htotal]
  refine hstays _ _ ?_
  have hselect : selectPath { s with sequenceNumber := s.sequenceNumber + 1 } = (none,
      { s with
        sequenceNumber := s.sequenceNumber + 1
        currentPathIndex := (s.currentPathIndex + 1) % s.paths.length }) := by
    rw [selectPath, if_neg hlength, selectRoundRobin]
    exact congrArg (fun found => (found, _)) hnone
  rw [addCopy, if_neg Bool.false_ne_true]
  dsimp only
  unfold pick
  rw [hselect]

end Copies

end MultipathScheduler

open MultipathScheduler

def SchedulerOp.drawn : SchedulerOp → Option String
  | .reset flowId => some flowId
  | _ => none

def SchedulerOp.keepsPaths : SchedulerOp → Bool
  | .setPaths _ | .addPath _ | .removePath _ | .reset _ => false
  | _ => true

namespace MultipathScheduler

/-- Paths are set with different keys, and a path is chosen only with an index that is in range. -/
def Fits (s : MultipathScheduler) : SchedulerOp → Prop
  | .setPaths paths => (paths.map getPathKey).Nodup
  | .selectPath | .schedulePacket _ | .schedulePacketMultipath _ _ => s.InRange
  | _ => True

def Covered (s : MultipathScheduler) : List SchedulerOp → Prop
  | [] => True
  | op :: ops => s.Fits op ∧ Covered (s.step op).scheduler ops

section Steps

variable {s : MultipathScheduler} {op : SchedulerOp}

theorem record_chooses {next : MultipathScheduler} (hpaths : next.paths = s.paths)
    (hindex : next.currentPathIndex = s.currentPathIndex)
    (hweights : ∀ key, s.pathWeights.has key = true → next.pathWeights.has key = true) :
    s.Chooses ⟨next, [], [], false⟩ 0 :=
  ⟨hpaths, hweights, by rw [hindex]; rfl, rfl, rfl, fun _ => rfl⟩

theorem recordAck_fields (s : MultipathScheduler) (pathKey : String) (latency : ℚ) :
    (s.recordAck pathKey latency).paths = s.paths ∧
      (s.recordAck pathKey latency).currentPathIndex = s.currentPathIndex ∧
      (s.recordAck pathKey latency).sequenceNumber = s.sequenceNumber ∧
      (s.recordAck pathKey latency).flowId = s.flowId ∧ ∀ key, s.pathWeights.has key = true →
        (s.recordAck pathKey latency).pathWeights.has key = true := by
  unfold recordAck
  split
  · exact ⟨rfl, rfl, rfl, rfl, fun _ => id⟩
  · exact adjustWeight_fields _ pathKey

theorem recordLoss_fields (s : MultipathScheduler) (pathKey : String) :
    (s.recordLoss pathKey).paths = s.paths ∧
      (s.recordLoss pathKey).currentPathIndex = s.currentPathIndex ∧
      (s.recordLoss pathKey).sequenceNumber = s.sequenceNumber ∧
      (s.recordLoss pathKey).flowId = s.flowId ∧ ∀ key, s.pathWeights.has key = true →
        (s.recordLoss pathKey).pathWeights.has key = true := by
  unfold recordLoss
  split
  · exact ⟨rfl, rfl, rfl, rfl, fun _ => id⟩
  · exact adjustWeight_fields _ pathKey

theorem step_chooses (hs : s.Sound) (hfits : s.Fits op) (hkeeps : op.keepsPaths = true) :
    ∃ count, s.Chooses (s.step op) count := by
  cases op with
  | setPaths paths => cases hkeeps
  | addPath path => cases hkeeps
  | removePath path => cases hkeeps
  | selectPath => exact selectPath_chooses hfits
  | schedulePacket payload => exact (schedulePacket_spec hfits payload).1
  | schedulePacketMultipath payload pathCount =>
    exact ⟨_, (schedulePacketMultipath_sends hs.keys hfits payload pathCount).chooses⟩
  | recordAck pathKey latency =>
    obtain ⟨hpaths, hindex, -, -, hweights⟩ := recordAck_fields s pathKey latency
    exact ⟨0, record_chooses hpaths hindex hweights⟩
  | recordLoss pathKey =>
    obtain ⟨hpaths, hindex, -, -, hweights⟩ := recordLoss_fields s pathKey
    exact ⟨0, record_chooses hpaths hindex hweights⟩
  | reset flowId => cases hkeeps

theorem step_sound (hs : s.Sound) (hfits : s.Fits op) :
    (s.step op).scheduler.Sound ∧ (s.step op).throws = false ∧
      ∀ found ∈ (s.step op).chosen, ∃ path ∈ s.paths, found = some path := by
  cases hkeeps : op.keepsPaths with
  | true =>
    obtain ⟨count, hchooses⟩ := step_chooses hs hfits hkeeps
    refine ⟨hchooses.sound hs, hchooses.quiet, fun found hfound => ?_⟩
    rw [hchooses.chosen] at hfound
    by_cases hne : s.paths = []
    · rw [hchooses.nobody hne] at hfound
      cases hfound
    · obtain ⟨path, rfl⟩ := some_of_mem_rounds hne hfound
      exact ⟨path, mem_of_mem_rounds hfound, rfl⟩
  | false =>
    cases op with
    | setPaths paths => exact ⟨Sound.setPaths hfits, rfl, fun _ hfound => by cases hfound⟩
    | addPath path => exact ⟨hs.addPath path, rfl, fun _ hfound => by cases hfound⟩
    | removePath path => exact ⟨hs.removePath path, rfl, fun _ hfound => by cases hfound⟩
    | reset flowId => exact ⟨⟨hs.keys, hs.weights⟩, rfl, fun _ hfound => by cases hfound⟩
    | selectPath => cases hkeeps
    | schedulePacket payload => cases hkeeps
    | schedulePacketMultipath payload pathCount => cases hkeeps
    | recordAck pathKey latency => cases hkeeps
    | recordLoss pathKey => cases hkeeps

/-- The packets of a step have the flow id and the number of the state before it. -/
structure Numbers (s : MultipathScheduler) (outcome : Outcome) : Prop where
  flow : outcome.scheduler.flowId = s.flowId
  number : outcome.packets = [] ∧ outcome.scheduler.sequenceNumber = s.sequenceNumber ∨
    outcome.scheduler.sequenceNumber = s.sequenceNumber + 1
  marks : ∀ p ∈ outcome.packets, p.flowId = s.flowId ∧ p.seq = s.sequenceNumber

theorem numbers_silent {outcome : Outcome} (hpackets : outcome.packets = [])
    (hflow : outcome.scheduler.flowId = s.flowId)
    (hnumber : outcome.scheduler.sequenceNumber = s.sequenceNumber) : s.Numbers outcome :=
  ⟨hflow, .inl ⟨hpackets, hnumber⟩, fun p hp => by rw [hpackets] at hp; cases hp⟩

theorem step_numbers (hs : s.Sound) (hfits : s.Fits op) (hdrawn : op.drawn = none) :
    s.Numbers (s.step op) := by
  cases op with
  | setPaths paths =>
    obtain ⟨-, -, hnumber, hflow, -⟩ :=
      registerAll_fields paths { s with paths, pathWeights := .empty, pathStats := .empty }
    exact numbers_silent rfl hflow hnumber
  | addPath path =>
    refine numbers_silent rfl ?_ ?_
    · change (s.addPath path).flowId = s.flowId
      unfold addPath
      split <;> rfl
    · change (s.addPath path).sequenceNumber = s.sequenceNumber
      unfold addPath
      split <;> rfl
  | removePath path =>
    refine numbers_silent rfl ?_ ?_
    · change (s.removePath path).flowId = s.flowId
      unfold removePath
      split <;> rfl
    · change (s.removePath path).sequenceNumber = s.sequenceNumber
      unfold removePath
      split <;> rfl
  | selectPath =>
    refine numbers_silent rfl ?_ ?_
    · change s.selectPath.2.flowId = s.flowId
      unfold selectPath
      split <;> rfl
    · change s.selectPath.2.sequenceNumber = s.sequenceNumber
      unfold selectPath
      split <;> rfl
  | schedulePacket payload =>
    obtain ⟨-, hflow, hnumber, hmarks⟩ := schedulePacket_spec hfits payload
    exact ⟨hflow, hnumber, fun p hp => ⟨(hmarks p hp).1, (hmarks p hp).2.1⟩⟩
  | schedulePacketMultipath payload pathCount =>
    have hsends := schedulePacketMultipath_sends hs.keys hfits payload pathCount
    exact ⟨hsends.flow, hsends.number,
      fun p hp => ⟨(hsends.marks p hp).1, (hsends.marks p hp).2.1⟩⟩
  | recordAck pathKey latency =>
    obtain ⟨-, -, hnumber, hflow, -⟩ := recordAck_fields s pathKey latency
    exact numbers_silent rfl hflow hnumber
  | recordLoss pathKey =>
    obtain ⟨-, -, hnumber, hflow, -⟩ := recordLoss_fields s pathKey
    exact numbers_silent rfl hflow hnumber
  | reset flowId => cases hdrawn

end Steps

section Runs

variable {s : MultipathScheduler}

theorem after_append (s : MultipathScheduler) (first rest : List SchedulerOp) :
    s.after (first ++ rest) = (s.after first).after rest := List.foldl_append

theorem emitted_append (s : MultipathScheduler) (first rest : List SchedulerOp) :
    s.emitted (first ++ rest) = s.emitted first ++ (s.after first).emitted rest := by
  induction first generalizing s with
  | nil => rfl
  | cons op ops ih =>
    rw [List.cons_append, emitted, ih, emitted, List.append_assoc]
    rfl

theorem covered_append {first rest : List SchedulerOp} (hs : s.Sound)
    (h : s.Covered (first ++ rest)) :
    s.Covered first ∧ (s.after first).Sound ∧ (s.after first).Covered rest := by
  induction first generalizing s with
  | nil => exact ⟨trivial, hs, h⟩
  | cons op ops ih =>
    obtain ⟨hfirst, hrest⟩ := ih (step_sound hs h.1).1 h.2
    exact ⟨⟨h.1, hfirst⟩, hrest⟩

variable {ops : List SchedulerOp}

theorem selections_rounds (hs : s.Sound) (hcovered : s.Covered ops)
    (hkeep : ∀ op ∈ ops, op.keepsPaths = true) :
    ∃ count, s.selections ops = rounds s.paths s.currentPathIndex count := by
  induction ops generalizing s with
  | nil => exact ⟨0, rfl⟩
  | cons op rest ih =>
    obtain ⟨count, hchooses⟩ := step_chooses hs hcovered.1 (hkeep op List.mem_cons_self)
    obtain ⟨later, hlater⟩ := ih (hchooses.sound hs) hcovered.2
      fun other hother => hkeep other (List.mem_cons_of_mem _ hother)
    refine ⟨count + later, ?_⟩
    rw [selections, hchooses.chosen, hlater, hchooses.paths,
      ← rounds_mod s.paths (s.step op).scheduler.currentPathIndex, hchooses.index, rounds_mod,
      rounds_append]

theorem after_flowId (hs : s.Sound) (hcovered : s.Covered ops) :
    (s.after ops).flowId ∈ s.flowId :: ops.filterMap SchedulerOp.drawn := by
  induction ops generalizing s with
  | nil => exact List.mem_singleton_self _
  | cons op rest ih =>
    have hnext := ih (step_sound hs hcovered.1).1 hcovered.2
    cases hdrawn : op.drawn with
    | none =>
      rw [(step_numbers hs hcovered.1 hdrawn).flow] at hnext
      rw [List.filterMap_cons_none hdrawn]
      exact hnext
    | some flowId =>
      rw [List.filterMap_cons_some hdrawn]
      cases op with
      | reset drawn =>
        obtain rfl := Option.some.inj hdrawn
        exact List.mem_cons_of_mem _ hnext
      | _ => cases hdrawn

theorem emitted_later (hs : s.Sound) (hcovered : s.Covered ops) :
    ∀ p ∈ s.emitted ops, p.flowId = s.flowId ∧ s.sequenceNumber ≤ p.seq ∨
      p.flowId ∈ ops.filterMap SchedulerOp.drawn := by
  induction ops generalizing s with
  | nil => exact fun _ hp => by cases hp
  | cons op rest ih =>
    intro p hp
    have hnext := ih (step_sound hs hcovered.1).1 hcovered.2 p
    cases hdrawn : op.drawn with
    | none =>
      have hnumbers := step_numbers hs hcovered.1 hdrawn
      rw [List.filterMap_cons_none hdrawn]
      rcases List.mem_append.mp hp with hhere | hlater
      · obtain ⟨hflow, hseq⟩ := hnumbers.marks p hhere
        exact .inl ⟨hflow, hseq.ge⟩
      rcases hnext hlater with ⟨hflow, hseq⟩ | hreset
      · refine .inl ⟨hflow.trans hnumbers.flow, ?_⟩
        rcases hnumbers.number with ⟨-, hsame⟩ | hmore
        · omega
        · omega
      · exact .inr hreset
    | some flowId =>
      rw [List.filterMap_cons_some hdrawn, List.mem_cons]
      cases op with
      | reset drawn =>
        obtain rfl := Option.some.inj hdrawn
        rcases hnext hp with ⟨hflow, -⟩ | hreset
        · exact .inr (.inl hflow)
        · exact .inr (.inr hreset)
      | _ => cases hdrawn

theorem emitted_earlier (sent : List Packet) (hs : s.Sound)
    (hcovered : s.Covered ops)
    (hflows : (s.flowId :: ops.filterMap SchedulerOp.drawn).Nodup)
    (hsent : ∀ p ∈ sent, p.flowId = s.flowId → p.seq < s.sequenceNumber)
    (hknown : ∀ p ∈ sent, p.flowId ∉ ops.filterMap SchedulerOp.drawn) :
    ∀ p ∈ sent ++ s.emitted ops, p.flowId = (s.after ops).flowId →
      p.seq < (s.after ops).sequenceNumber := by
  induction ops generalizing s sent with
  | nil =>
    rw [emitted, List.append_nil]
    exact hsent
  | cons op rest ih =>
    rw [emitted, ← List.append_assoc]
    obtain ⟨hnow, hlater⟩ := List.nodup_cons.mp hflows
    cases hdrawn : op.drawn with
    | none =>
      have hnumbers := step_numbers hs hcovered.1 hdrawn
      rw [List.filterMap_cons_none hdrawn] at hnow hlater hknown
      refine ih _ (step_sound hs hcovered.1).1 hcovered.2 ?_ ?_ ?_
      · rw [hnumbers.flow]
        exact List.nodup_cons.mpr ⟨hnow, hlater⟩
      · intro p hp hflow
        rw [hnumbers.flow] at hflow
        rcases List.mem_append.mp hp with hold | hhere
        · have hless := hsent p hold hflow
          rcases hnumbers.number with ⟨-, hsame⟩ | hmore
          · omega
          · omega
        · have hseq := (hnumbers.marks p hhere).2
          rcases hnumbers.number with ⟨hnone, -⟩ | hmore
          · rw [hnone] at hhere
            cases hhere
          · omega
      · intro p hp
        rcases List.mem_append.mp hp with hold | hhere
        · exact hknown p hold
        · rw [(hnumbers.marks p hhere).1]
          exact hnow
    | some flowId =>
      rw [List.filterMap_cons_some hdrawn] at hnow hlater hknown
      cases op with
      | reset drawn =>
        obtain rfl := Option.some.inj hdrawn
        refine ih _ (step_sound hs hcovered.1).1 hcovered.2 hlater ?_ ?_
        · intro p hp hflow
          rw [show (s.step (.reset drawn)).packets = [] from rfl, List.append_nil] at hp
          exact absurd (hflow ▸ List.mem_cons_self) (hknown p hp)
        · intro p hp
          rw [show (s.step (.reset drawn)).packets = [] from rfl, List.append_nil] at hp
          exact fun hin => hknown p hp (List.mem_cons_of_mem _ hin)
      | _ => cases hdrawn

end Runs

end MultipathScheduler

end Meshpn.Routing
