import Meshpn.Dns.Names
import Meshpn.Dns.WireAnswers

/-!
What `parseDns` accepts. Nothing is read outside the message, the records lie one behind the
other from the question to the end, and the question has the labels that its place denotes.
-/

namespace Meshpn.Dns.Wire

open Meshpn.Lib Meshpn.Lib.Fallible Meshpn.Lib.DomainName

section

variable {packet : Bytes} {i k : Nat}

theorem byteAt_drop : byteAt (packet.drop i) k = byteAt packet (i + k) := by
  rw [byteAt, byteAt, List.getElem?_drop]

theorem readUInt16_drop : readUInt16 (packet.drop i) k = readUInt16 packet (i + k) := by
  rw [readUInt16, readUInt16, byteAt_drop, byteAt_drop, Nat.add_assoc]

theorem readUInt32_drop : readUInt32 (packet.drop i) k = readUInt32 packet (i + k) := by
  rw [readUInt32, readUInt32, readUInt16_drop, readUInt16_drop, Nat.add_assoc]

end

section Inside

variable {packet : Bytes}

theorem need_ne_range (condition : Bool) : need condition ≠ .error .range := by
  cases condition <;> decide

theorem byteAt_ne_range {i : Nat} (h : i < packet.length) : byteAt packet i ≠ .error .range := by
  rw [byteAt, List.getElem?_eq_getElem h]
  exact fun h => by cases h

theorem readUInt16_ne_range {i : Nat} (h : i + 2 ≤ packet.length) :
    readUInt16 packet i ≠ .error .range :=
  bind_ne_error (byteAt_ne_range (by omega)) fun _ _ =>
    bind_ne_error (byteAt_ne_range (by omega)) fun _ _ h => by cases h

theorem readUInt32_ne_range {i : Nat} (h : i + 4 ≤ packet.length) :
    readUInt32 packet i ≠ .error .range :=
  bind_ne_error (readUInt16_ne_range (by omega)) fun _ _ =>
    bind_ne_error (readUInt16_ne_range (by omega)) fun _ _ h => by cases h

theorem nameStep_ne_range (w : NameWalk) : nameStep packet w ≠ .error .range := by
  refine bind_ne_error (need_ne_range _) fun _ hroom => ?_
  rw [need_eq_ok, Bool.and_eq_true, decide_eq_true_eq] at hroom
  refine bind_ne_error (byteAt_ne_range hroom.1) fun n _ => ?_
  split
  · refine bind_ne_error (need_ne_range _) fun _ hnext => ?_
    rw [need_eq_ok, decide_eq_true_eq] at hnext
    exact bind_ne_error (byteAt_ne_range hnext) fun _ _ =>
      bind_ne_error (need_ne_range _) fun _ _ h => by cases h
  · refine bind_ne_error (need_ne_range _) fun _ _ => ?_
    split
    · exact fun h => by cases h
    · exact bind_ne_error (need_ne_range _) fun _ _ h => by cases h

theorem nameLoop_ne_range (steps : Nat) (w : NameWalk) :
    nameLoop packet steps w ≠ .error .range := by
  induction steps generalizing w with
  | zero => exact fun h => by cases h
  | succ steps ih =>
    refine bind_ne_error (nameStep_ne_range w) fun next _ => ?_
    cases next with
    | inl next => exact ih next
    | inr name => exact fun h => by cases h

theorem nameAt_ne_range (start : Nat) : nameAt packet start ≠ .error .range :=
  nameLoop_ne_range 128 _

theorem readQuestion_ne_range : readQuestion packet ≠ .error .range := by
  refine bind_ne_error (need_ne_range _) fun _ hlength => ?_
  rw [need_eq_ok, Bool.and_eq_true, decide_eq_true_eq] at hlength
  refine bind_ne_error (readUInt16_ne_range (by omega)) fun _ _ => ?_
  refine bind_ne_error (readUInt16_ne_range (by omega)) fun _ _ => ?_
  refine bind_ne_error (need_ne_range _) fun _ _ => ?_
  refine bind_ne_error (nameAt_ne_range 12) fun name _ => ?_
  refine bind_ne_error (need_ne_range _) fun _ hroom => ?_
  rw [need_eq_ok, decide_eq_true_eq] at hroom
  refine bind_ne_error (readUInt16_ne_range (by omega)) fun _ _ => ?_
  refine bind_ne_error (readUInt16_ne_range (by omega)) fun _ _ => ?_
  refine bind_ne_error (need_ne_range _) fun _ _ => ?_
  exact bind_ne_error (readUInt16_ne_range (by omega)) fun _ _ h => by cases h

theorem optionLoop_ne_range {stop : Nat} (hstop : stop ≤ packet.length) (fuel option : Nat) :
    optionLoop packet stop fuel option ≠ .error .range := by
  induction fuel generalizing option with
  | zero => exact fun h => by cases h
  | succ fuel ih =>
    rw [optionLoop]
    split
    · refine bind_ne_error (need_ne_range _) fun _ hroom => ?_
      rw [need_eq_ok, decide_eq_true_eq] at hroom
      exact bind_ne_error (readUInt16_ne_range (by omega)) fun _ _ =>
        bind_ne_error (need_ne_range _) fun _ _ => ih _
    · exact fun h => by cases h

theorem noteEdns_ne_range {name : Name} {rr : Record} {w : Walk}
    (hinside : rr.offset + rr.length ≤ packet.length) :
    noteEdns packet name rr w ≠ .error .range := by
  unfold noteEdns
  split
  · exact bind_ne_error (need_ne_range _) fun _ _ =>
      bind_ne_error (optionLoop_ne_range hinside _ _) fun _ _ h => by cases h
  · exact fun h => by cases h

theorem readRecord_ne_range (w : Walk) (part : Nat) :
    readRecord packet w part ≠ .error .range := by
  refine bind_ne_error (nameAt_ne_range _) fun name _ => ?_
  refine bind_ne_error (need_ne_range _) fun _ hroom => ?_
  rw [need_eq_ok, decide_eq_true_eq] at hroom
  refine bind_ne_error (readUInt16_ne_range (by omega)) fun _ _ => ?_
  refine bind_ne_error (readUInt16_ne_range (by omega)) fun _ _ => ?_
  refine bind_ne_error (readUInt32_ne_range (by omega)) fun _ _ => ?_
  refine bind_ne_error (readUInt16_ne_range (by omega)) fun length _ => ?_
  refine bind_ne_error (need_ne_range _) fun _ hinside => ?_
  rw [need_eq_ok, decide_eq_true_eq] at hinside
  refine bind_ne_error (need_ne_range _) fun _ _ => ?_
  refine bind_ne_error (need_ne_range _) fun _ _ => ?_
  exact bind_ne_error (noteEdns_ne_range hinside) fun _ _ h => by cases h

theorem parseDns_ne_range : parseDns packet ≠ .error .range := by
  refine bind_ne_error readQuestion_ne_range fun question hquestion => ?_
  have hlength := readQuestion_length hquestion
  refine bind_ne_error (readUInt16_ne_range (by omega)) fun _ _ => ?_
  refine bind_ne_error (readUInt16_ne_range (by omega)) fun _ _ => ?_
  refine bind_ne_error (readUInt16_ne_range (by omega)) fun _ _ => ?_
  refine bind_ne_error (need_ne_range _) fun _ _ => ?_
  refine bind_ne_error (foldlM_ne_error (P := fun _ => True)
    (fun part w _ => readRecord_ne_range w part) (fun _ _ _ _ _ => trivial) trivial) fun _ _ => ?_
  exact bind_ne_error (need_ne_range _) fun _ _ h => by cases h

end Inside

/-- The fields of a record behind its owner name, which ends at `stop`. -/
structure RecordAt (packet : Bytes) (stop : Nat) (rr : Record) : Prop where
  type : readUInt16 packet stop = .ok rr.type
  klass : readUInt16 packet (stop + 2) = .ok rr.klass
  ttl : readUInt32 packet (stop + 4) = .ok rr.ttl
  length : readUInt16 packet (stop + 8) = .ok rr.length
  offset : rr.offset = stop + 10
  inside : rr.offset + rr.length ≤ packet.length

theorem RecordAt.congr {packet other : Bytes} {stop ttl : Nat} {rr : Record}
    (h : RecordAt packet stop rr) (hlength : other.length = packet.length)
    (hsame : ∀ i, stop ≤ i → i < stop + 10 → i < stop + 4 ∨ stop + 8 ≤ i →
      other[i]? = packet[i]?)
    (httl : readUInt32 other (stop + 4) = .ok ttl) :
    RecordAt other stop { rr with ttl := ttl } where
  type := by
    rw [← h.type]
    exact readUInt16_congr (hsame _ (by omega) (by omega) (by omega))
      (hsame _ (by omega) (by omega) (by omega))
  klass := by
    rw [← h.klass]
    exact readUInt16_congr (hsame _ (by omega) (by omega) (by omega))
      (hsame _ (by omega) (by omega) (by omega))
  ttl := httl
  length := by
    rw [← h.length]
    exact readUInt16_congr (hsame _ (by omega) (by omega) (by omega))
      (hsame _ (by omega) (by omega) (by omega))
  offset := h.offset
  inside := hlength ▸ h.inside

theorem RecordAt.unique {packet : Bytes} {stop : Nat} {rr other : Record}
    (h : RecordAt packet stop rr) (h' : RecordAt packet stop other)
    (hpart : rr.part = other.part) : rr = other := by
  rw [Record.mk.injEq]
  exact ⟨hpart, Except.ok.inj (h.type.symm.trans h'.type),
    Except.ok.inj (h.klass.symm.trans h'.klass), Except.ok.inj (h.ttl.symm.trans h'.ttl),
    h.offset.trans h'.offset.symm, Except.ok.inj (h.length.symm.trans h'.length)⟩

/-- What a pass of the loop over the records has read. -/
structure RecordRead (packet : Bytes) (w : Walk) (part : Nat) (name : Name) (rr : Record)
    (next : Walk) : Prop where
  owner : nameAt packet w.pos = .ok name
  record : RecordAt packet name.stop rr
  part : rr.part = part
  address : rr.type = 1 → rr.length = 4
  address6 : rr.type = 28 → rr.length = 16
  noted : ∃ noted, noteEdns packet name rr w = .ok noted ∧
    next = { noted with pos := rr.offset + rr.length, records := noted.records ++ [rr] }

theorem readRecord_iff {packet : Bytes} {w next : Walk} {part : Nat} :
    readRecord packet w part = .ok next ↔ ∃ name rr, RecordRead packet w part name rr next := by
  constructor
  · intro h
    simp only [readRecord, bind_eq_ok, need_eq_ok, decide_eq_true_eq, pure_eq_ok,
      Bool.or_eq_true] at h
    obtain ⟨name, hname, -, -, type, htype, klass, hklass, ttl, httl, length, hlength, -, hinside,
      -, haddress, -, haddress6, noted, hnoted, rfl⟩ := h
    exact ⟨name, ⟨part, type, klass, ttl, name.stop + 10, length⟩,
      { owner := hname
        record := ⟨htype, hklass, httl, hlength, rfl, hinside⟩
        part := rfl
        address := fun h => haddress.resolve_left fun hne => hne h
        address6 := fun h => haddress6.resolve_left fun hne => hne h
        noted := ⟨noted, hnoted, rfl⟩ }⟩
  · rintro ⟨name, rr, h⟩
    obtain ⟨part', type, klass, ttl, offset, length⟩ := rr
    obtain ⟨noted, hnoted, rfl⟩ := h.noted
    cases h.part
    cases h.record.offset
    have hinside : name.stop + 10 + length ≤ packet.length := h.record.inside
    simp only [readRecord, bind_eq_ok, need_eq_ok, decide_eq_true_eq, pure_eq_ok,
      Bool.or_eq_true]
    exact ⟨name, h.owner, (), by omega, type, h.record.type, klass, h.record.klass, ttl,
      h.record.ttl, length, h.record.length, (), hinside,
      (), Decidable.not_or_of_imp h.address, (), Decidable.not_or_of_imp h.address6,
      noted, hnoted, rfl⟩

/-- Records one behind the other. -/
inductive Tiles (packet : Bytes) : Nat → List Record → Nat → Prop where
  | nil (pos : Nat) : Tiles packet pos [] pos
  | cons {pos stop last : Nat} {rr : Record} {records : List Record}
      (hname : Ends packet pos stop) (hrecord : RecordAt packet stop rr)
      (hrest : Tiles packet (rr.offset + rr.length) records last) :
      Tiles packet pos (rr :: records) last

section

variable {packet : Bytes}

theorem walk_tiles {sections : List Nat} {w next : Walk}
    (h : sections.foldlM (readRecord packet) w = .ok next) :
    ∃ found, next.records = w.records ++ found ∧ Tiles packet w.pos found next.pos ∧
      found.map Record.part = sections := by
  induction sections generalizing w with
  | nil =>
    rw [List.foldlM_nil, pure_eq_ok] at h
    exact ⟨[], by rw [h, List.append_nil], h ▸ .nil w.pos, rfl⟩
  | cons part rest ih =>
    rw [List.foldlM_cons, bind_eq_ok] at h
    obtain ⟨middle, hmiddle, h⟩ := h
    obtain ⟨name, rr, hread⟩ := readRecord_iff.mp hmiddle
    obtain ⟨noted, hnoted, rfl⟩ := hread.noted
    obtain ⟨found, hfound, htiles, hparts⟩ := ih h
    refine ⟨rr :: found, ?_, .cons (nameAt_ends hread.owner) hread.record htiles, ?_⟩
    · rw [hfound, (noteEdns_cases hnoted).1, List.append_assoc, List.singleton_append]
    · rw [List.map_cons, hread.part, hparts]

theorem parseDns_tiles {m : Message} (h : parseDns packet = .ok m) :
    Tiles packet m.question.stop m.records packet.length ∧
      m.records.map Record.part = parts m.counts := by
  simp only [parseDns, bind_eq_ok, pure_eq_ok, need_eq_ok, decide_eq_true_eq] at h
  obtain ⟨question, -, _, -, _, -, _, -, _, -, walk, hwalk, _, hend, rfl⟩ := h
  obtain ⟨found, hfound, htiles, hparts⟩ := walk_tiles hwalk
  rw [List.nil_append] at hfound
  dsimp only
  rw [hfound, ← hend]
  exact ⟨htiles, hparts⟩

def ednsOf (rr : Record) : Edns := ⟨rr.ttl / 16777216, rr.ttl / 65536 % 256, rr.ttl % 65536⟩

theorem walk_opt {sections : List Nat} {stop : Nat} {walk : Walk}
    (h : sections.foldlM (readRecord packet) ⟨stop, 512, none, []⟩ = .ok walk) :
    walk.edns = (walk.records.find? fun rr => rr.type = 41).map ednsOf := by
  refine foldlM_keeps (P := fun w => w.edns =
    (w.records.find? fun rr => rr.type = 41).map ednsOf) (fun part _ w next hnext hw => ?_) rfl h
  obtain ⟨rr, hpass⟩ := readRecord_pass hnext
  rw [hpass.records, List.find?_append]
  rcases hpass.edns with ⟨htype, hnone, -, hedns⟩ | ⟨htype, -, hedns⟩
  · rw [hnone] at hw
    rw [Option.map_eq_none_iff.mp hw.symm, hedns, Option.none_or, List.find?_singleton,
      if_pos (by simpa using htype)]
    rfl
  · rw [hedns, hw, List.find?_singleton, if_neg (by simpa using htype), Option.or_none]

theorem parseDns_opt {m : Message} (h : parseDns packet = .ok m) :
    m.edns = (m.records.find? fun rr => rr.type = 41).map ednsOf := by
  simp only [parseDns, bind_eq_ok, pure_eq_ok] at h
  obtain ⟨_, -, _, -, _, -, _, -, _, -, walk, hwalk, _, -, rfl⟩ := h
  exact walk_opt hwalk

theorem parseDns_name {m : Message} (h : parseDns packet = .ok m) :
    nameAt packet 12 = .ok m.question.name := by
  have hquestion := parseDns_question h
  simp only [readQuestion, bind_eq_ok, pure_eq_ok] at hquestion
  obtain ⟨_, -, _, -, _, -, _, -, name, hname, _, -, _, -, _, -, _, -, _, -, heq⟩ := hquestion
  rw [← heq]
  exact hname

end

/-- A name of at most 255 bytes, without a pointer or with one at its end, back to a name
without one behind the header. -/
def Legal (packet : Bytes) (start : Nat) (labels : List Bytes) : Prop :=
  (Plain packet start labels ∨ Jumps packet 12 start labels) ∧ wireSize labels ≤ 255

theorem nameAt_legal {packet : Bytes} {start : Nat} {labels : List Bytes}
    (h : Legal packet start labels) :
    (∃ name, nameAt packet start = .ok name ∧ name.labels = foldedLabels labels) ↔
      ¬ (Jumps packet 12 start labels ∧ labels.length = 127) := by
  obtain ⟨hshape, hsize⟩ := h
  have hdenotes : Denotes packet start labels := hshape.elim Plain.denotes Jumps.denotes
  have hlabels : (∃ name, nameAt packet start = .ok name ∧ name.labels = foldedLabels labels) ↔
      ∃ name, nameAt packet start = .ok name := by
    refine exists_congr fun name => and_iff_left_of_imp fun hname => ?_
    obtain ⟨found, hfound, hnames, -⟩ := nameAt_denotes hname
    rw [hnames, hfound.unique hdenotes]
  rw [hlabels]
  rcases hshape with hplain | hjumps
  · exact iff_of_true (nameAt_plain hplain hsize) fun hlong => hlong.1.not_plain hplain
  · rw [nameAt_jumps hjumps hsize, not_and]
    exact ⟨fun h _ => h, fun h => h hjumps⟩

theorem nameKey_eq_iff {packet other : Bytes} {m m' : Message} {labels labels' : List Bytes}
    (h : parseDns packet = .ok m) (h' : parseDns other = .ok m')
    (hlabels : Denotes packet 12 labels) (hlabels' : Denotes other 12 labels') :
    m.nameKey = m'.nameKey ↔ SameName labels labels' := by
  obtain ⟨found, hfound, hnames, -⟩ := nameAt_denotes (parseDns_name h)
  obtain ⟨found', hfound', hnames', -⟩ := nameAt_denotes (parseDns_name h')
  cases hfound.unique hlabels
  cases hfound'.unique hlabels'
  change labelsKey m.question.name.labels = labelsKey m'.question.name.labels ↔ _
  rw [hnames, hnames', ← foldedLabels_eq_iff]
  exact ⟨labelsKey_injective (foldedLabels_sizes fun label hmem => (hlabels.sizes label hmem).1)
    (foldedLabels_sizes fun label hmem => (hlabels'.sizes label hmem).1), congrArg labelsKey⟩

/-- Whatever the bytes, the reader stays inside them; what it accepts is the question that
stands there and records up to the end. Of the legal names it misses one kind only: 127
labels that end in a pointer. -/
theorem messages_parsed (packet : Bytes) :
    parseDns packet ≠ .error .range ∧
    (∀ m, parseDns packet = .ok m →
      (∃ labels, Denotes packet 12 labels ∧ m.question.name.labels = foldedLabels labels ∧
        wireSize labels ≤ 255) ∧
      (∀ other m', parseDns other = .ok m' → ∀ labels labels', Denotes packet 12 labels →
        Denotes other 12 labels' → (m.nameKey = m'.nameKey ↔ SameName labels labels')) ∧
      Tiles packet m.question.stop m.records packet.length) ∧
    ∀ start labels, Legal packet start labels →
      ((∃ name, nameAt packet start = .ok name ∧ name.labels = foldedLabels labels) ↔
        ¬ (Jumps packet 12 start labels ∧ labels.length = 127)) :=
  ⟨parseDns_ne_range,
    fun _ h => ⟨nameAt_denotes (parseDns_name h), fun _ _ h' _ _ => nameKey_eq_iff h h',
      (parseDns_tiles h).1⟩,
    fun _ _ => nameAt_legal⟩

/-- A response to a question of 126 labels, with a record of one label more. -/
def longestName : Bytes :=
  [0, 0, 128, 0, 0, 1, 0, 1, 0, 0, 0, 0] ++ wire (List.replicate 126 [97]) ++ [0, 1, 0, 1] ++
    [1, 97, 192, 12, 0, 1, 0, 1, 0, 0, 0, 0, 0, 4, 192, 0, 2, 1]

/-- The owner of the record is a legal name of 255 bytes, and the message is not accepted. -/
theorem longest_name_rejected :
    Legal longestName 269 (List.replicate 127 [97]) ∧
      nameAt longestName 269 = .error .wire ∧ parseDns longestName = .error .wire := by
  have hsizes : ∀ label ∈ List.replicate 126 ([97] : Bytes),
      0 < label.length ∧ label.length ≤ 63 := fun label hmem => by
    cases List.eq_of_mem_replicate hmem
    decide
  have hquestion : Plain longestName 12 (List.replicate 126 [97]) :=
    .of_wire hsizes (show longestName.drop 12 =
      wire (List.replicate 126 [97]) ++ longestName.drop 265 by decide +kernel)
  have hlabel : LabelAt longestName 269 [97] := by
    constructor <;> decide +kernel
  have hpointer : PointerAt longestName 271 192 12 := by
    constructor <;> decide +kernel
  have htarget : target 192 12 = 12 := by decide
  refine ⟨⟨.inr (.label hlabel (.pointer hpointer htarget.ge ?_ ?_)), by decide +kernel⟩, ?_, ?_⟩
  · rw [htarget]
    decide
  · rw [htarget]
    exact hquestion
  · decide +kernel
  · decide +kernel

end Meshpn.Dns.Wire
