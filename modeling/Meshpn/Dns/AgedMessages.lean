import Meshpn.Dns.Ageing

/-!
When an aged message reads as the message that it was made from. Everything but its names
does: a name may come through the TTL of an earlier record, which ageing has changed.
-/

namespace Meshpn.Dns.Wire

open Meshpn.Lib Meshpn.Lib.Fallible Meshpn.Lib.DomainName

/-- Where the owner names of records begin that lie from `pos` on. -/
def starts : Nat → List Record → List Nat
  | _, [] => []
  | pos, rr :: rest => pos :: starts (rr.offset + rr.length) rest

def nameStarts (m : Message) : List Nat := 12 :: starts m.question.stop m.records

def agedRecord (value : Record → Nat) (rr : Record) : Record :=
  if rr.type = 41 then rr else { rr with ttl := value rr }

section

variable {packet other : Bytes} {value : Record → Nat}

theorem agedRecord_fields (value : Record → Nat) (rr : Record) :
    (agedRecord value rr).part = rr.part ∧ (agedRecord value rr).type = rr.type ∧
      (agedRecord value rr).offset = rr.offset ∧ (agedRecord value rr).length = rr.length := by
  unfold agedRecord
  split <;> exact ⟨rfl, rfl, rfl, rfl⟩

theorem optionLoop_same {stop : Nat} (fuel : Nat) {option : Nat}
    (hsame : ∀ i, option ≤ i → i < stop → other[i]? = packet[i]?) :
    optionLoop other stop fuel option = optionLoop packet stop fuel option := by
  induction fuel generalizing option with
  | zero => rfl
  | succ fuel ih =>
    rw [optionLoop, optionLoop]
    split
    case isFalse => rfl
    by_cases hroom : option + 4 ≤ stop
    · rw [readUInt16_congr (hsame (option + 2) (by omega) (by omega))
        (hsame (option + 2 + 1) (by omega) (by omega))]
      refine bind_congr fun _ => bind_congr fun length => bind_congr fun _ => ?_
      exact ih fun i hlow hhigh => hsame i (by omega) hhigh
    · simp only [need, hroom, decide_false]
      rfl

theorem noteEdns_again {name : Name} {rr : Record} {w noted : Walk} {records : List Record}
    (h : noteEdns packet name rr w = .ok noted)
    (hsame : ∀ i, rr.offset ≤ i → i < rr.offset + rr.length → other[i]? = packet[i]?) :
    noteEdns other name (agedRecord value rr) { w with records := records } =
      .ok { noted with records := records } := by
  rw [noteEdns, (agedRecord_fields value rr).2.1]
  rw [noteEdns] at h
  split at h
  case isTrue htype =>
    rw [if_pos htype, agedRecord, if_pos htype]
    simp only [readOpt, bind_eq_ok, pure_eq_ok] at h ⊢
    obtain ⟨_, hneed, _, hoptions, rfl⟩ := h
    exact ⟨_, hneed, _, (optionLoop_same _ hsame).trans hoptions, rfl⟩
  case isFalse htype =>
    cases h
    rw [if_neg htype]

theorem recordAt_again {stop : Nat} {rr : Record} (h : RecordAt packet stop rr)
    (hlength : other.length = packet.length)
    (hsame : ∀ i, stop ≤ i → i < rr.offset →
      (rr.type ≠ 41 → i + 6 < rr.offset ∨ rr.offset ≤ i + 2) → other[i]? = packet[i]?)
    (httl : rr.type ≠ 41 → readUInt32 other (rr.offset - 6) = .ok (value rr)) :
    RecordAt other stop (agedRecord value rr) := by
  have hoffset := h.offset
  have hfields : ∀ ttl, readUInt32 other (stop + 4) = .ok ttl →
      RecordAt other stop { rr with ttl := ttl } := fun _ =>
    h.congr hlength fun i hlow hhigh hfield => hsame i hlow (by omega) fun _ => by omega
  rw [agedRecord]
  split
  case isTrue htype =>
    refine hfields rr.ttl ?_
    rw [← h.ttl]
    exact readUInt32_congr fun k hk =>
      hsame (stop + 4 + k) (by omega) (by omega) fun hne => absurd htype hne
  case isFalse htype =>
    refine hfields (value rr) ?_
    rw [show stop + 4 = rr.offset - 6 by omega]
    exact httl htype

theorem walk_starts {sections : List Nat} {w next : Walk} {found : List Record}
    (h : sections.foldlM (readRecord packet) w = .ok next)
    (hfound : next.records = w.records ++ found) :
    ∀ pos ∈ starts w.pos found, ∃ name, nameAt packet pos = .ok name := by
  induction sections generalizing w found with
  | nil =>
    rw [List.foldlM_nil, pure_eq_ok] at h
    rw [h] at hfound
    rw [List.self_eq_append_right.mp hfound]
    exact fun pos hpos => by cases hpos
  | cons part rest ih =>
    obtain ⟨middle, hmiddle, hrest⟩ := bind_eq_ok.mp ((List.foldlM_cons ..).symm.trans h)
    obtain ⟨name, rr, hread⟩ := readRecord_iff.mp hmiddle
    obtain ⟨noted, hnoted, rfl⟩ := hread.noted
    obtain ⟨behind, hbehind, -⟩ := walk_tiles hrest
    rw [(noteEdns_cases hnoted).1] at hbehind
    rw [hbehind, List.append_assoc] at hfound
    cases List.append_cancel_left hfound
    intro pos hpos
    rcases List.mem_cons.mp hpos with rfl | hpos
    · exact ⟨name, hread.owner⟩
    · rw [← (noteEdns_cases hnoted).1] at hbehind
      exact ih hrest hbehind pos hpos

theorem walk_again {sections : List Nat} {w next : Walk} {found : List Record}
    (h : sections.foldlM (readRecord packet) w = .ok next)
    (hfound : next.records = w.records ++ found) (hlength : other.length = packet.length)
    (hnames : ∀ pos ∈ starts w.pos found, nameAt other pos = nameAt packet pos)
    (hsame : ∀ i, w.pos ≤ i → i < next.pos → ¬ TtlByte found i → other[i]? = packet[i]?)
    (httl : ∀ rr ∈ found, rr.type ≠ 41 → readUInt32 other (rr.offset - 6) = .ok (value rr)) :
    sections.foldlM (readRecord other) { w with records := w.records.map (agedRecord value) } =
      .ok { next with records := next.records.map (agedRecord value) } := by
  induction sections generalizing w found with
  | nil =>
    rw [List.foldlM_nil, pure_eq_ok] at h
    rw [h]
    rfl
  | cons part rest ih =>
    rw [List.foldlM_cons, bind_eq_ok] at h ⊢
    obtain ⟨middle, hmiddle, h⟩ := h
    obtain ⟨name, rr, hread⟩ := readRecord_iff.mp hmiddle
    obtain ⟨noted, hnoted, rfl⟩ := hread.noted
    obtain ⟨behind, hbehind, htiles, -⟩ := walk_tiles h
    rw [(noteEdns_cases hnoted).1] at hbehind
    have hsplit : found = rr :: behind := by
      rw [hbehind, List.append_assoc] at hfound
      exact (List.append_cancel_left hfound).symm
    subst hsplit
    have hstop := (nameAt_ends hread.owner).behind
    have hoffset := hread.record.offset
    have hown := fun i => htiles.own_bytes (i := i) hsame
    obtain ⟨hpart, htype, hplace, hsize⟩ := agedRecord_fields value rr
    have hagain : readRecord other { w with records := w.records.map (agedRecord value) } part =
        .ok { noted with
          pos := rr.offset + rr.length
          records := (noted.records ++ [rr]).map (agedRecord value) } := by
      refine readRecord_iff.mpr ⟨name, agedRecord value rr,
        { owner := (hnames _ List.mem_cons_self).trans hread.owner
          record := recordAt_again hread.record hlength
            (fun i hlow hhigh hfield => hown i (by omega) (by omega) hfield)
            (httl rr List.mem_cons_self)
          part := hpart.trans hread.part
          address := by
            rw [htype, hsize]
            exact hread.address
          address6 := by
            rw [htype, hsize]
            exact hread.address6
          noted := ⟨_, noteEdns_again hnoted fun i hlow hhigh =>
            hown i (by omega) hhigh fun _ => by omega, ?_⟩ }⟩
      rw [hplace, hsize, (noteEdns_cases hnoted).1, List.map_append]
      rfl
    rw [← (noteEdns_cases hnoted).1] at hbehind
    refine ⟨_, hagain, ih h hbehind (fun pos hpos => hnames pos ?_)
      (fun i hlow hhigh hi => hsame i ?_ hhigh ?_)
      fun other hother => httl other (List.mem_cons_of_mem _ hother)⟩
    · exact List.mem_cons_of_mem _ hpos
    · dsimp only at hlow
      omega
    · exact ttlByte_cons_of_behind hlow hi

theorem readQuestion_again {q : Question} (h : readQuestion packet = .ok q)
    (hlength : other.length = packet.length)
    (hsame : ∀ i, i < q.stop → other[i]? = packet[i]?)
    (hname : nameAt other 12 = nameAt packet 12) : readQuestion other = .ok q := by
  obtain ⟨hlow, -⟩ := readQuestion_stop h
  obtain ⟨hfound, hstop⟩ := readQuestion_name h
  have hbehind := (nameAt_bounded hfound).behind
  have hread : ∀ i, i + 1 < q.stop → readUInt16 other i = readUInt16 packet i := fun i hi =>
    readUInt16_congr (hsame i (by omega)) (hsame (i + 1) hi)
  rw [← h]
  simp only [readQuestion, hname, hfound, hlength, ok_bind, hread 2 (by omega),
    hread 4 (by omega), hread 0 (by omega), hread q.name.stop (by omega),
    hread (q.name.stop + 2) (by omega)]

/-- A message with other TTLs and names that read the same is the same message, but for the
TTLs. -/
theorem parse_again {m : Message} (hparse : parseDns packet = .ok m)
    (hout : SameOutside m.records packet other)
    (hnames : ∀ pos ∈ nameStarts m, nameAt other pos = nameAt packet pos)
    (httl : ∀ rr ∈ m.records, rr.type ≠ 41 →
      readUInt32 other (rr.offset - 6) = .ok (value rr)) :
    parseDns other = .ok { m with records := m.records.map (agedRecord value) } := by
  have hquestion := parseDns_question hparse
  obtain ⟨hlow, -⟩ := readQuestion_stop hquestion
  have hquestion' := readQuestion_again hquestion hout.length
    (fun i hi => hout.front hparse (Nat.le_of_lt hi)) (hnames 12 List.mem_cons_self)
  have hread : ∀ i, i < 16 → readUInt16 other i = readUInt16 packet i := fun i hi =>
    readUInt16_congr (hout.front hparse (by omega)) (hout.front hparse (by omega))
  simp only [parseDns, bind_eq_ok, pure_eq_ok] at hparse ⊢
  obtain ⟨question, hfound, answers, hanswers, authorities, hauthorities, additional, hadditional,
    _, hcounts, walk, hwalk, _, hend, rfl⟩ := hparse
  rw [← hread _ (by omega)] at hanswers hauthorities hadditional
  rw [← hout.length] at hend
  refine ⟨question, hquestion', answers, hanswers, authorities, hauthorities, additional,
    hadditional, _, hcounts, { walk with records := walk.records.map (agedRecord value) },
    walk_again hwalk rfl hout.length
      (fun pos hpos => hnames pos (List.mem_cons_of_mem _ hpos)) (fun i _ _ hi => hout.bytes i hi)
      httl, _, hend, rfl⟩

end

/-- The aged message is accepted as the message that it was made from, its TTLs counted
down. -/
structure ReadsAged (packet : Bytes) (m : Message) (seconds : Nat) (aged : Bytes)
    (m' : Message) : Prop where
  parse : parseDns aged = .ok m'
  question : m'.question = m.question
  counts : m'.counts = m.counts
  edns : m'.edns = m.edns ∧ m'.udpSize = m.udpSize
  records : m'.records =
    m.records.map (agedRecord fun rr => remaining packet m.rcode rr - seconds)
  owners : ∀ pos ∈ nameStarts m, nameAt aged pos = nameAt packet pos
  data : ∀ rr ∈ m.records, dataOf aged rr = dataOf packet rr

section

variable {packet aged : Bytes} {m : Message} {seconds : Nat}

theorem nameStarts_read (hparse : parseDns packet = .ok m) :
    ∀ pos ∈ nameStarts m, ∃ name, nameAt packet pos = .ok name := by
  intro pos hpos
  rcases List.mem_cons.mp hpos with rfl | hpos
  · exact ⟨m.question.name, parseDns_name hparse⟩
  simp only [parseDns, bind_eq_ok, pure_eq_ok] at hparse
  obtain ⟨_, -, _, -, _, -, _, -, _, -, walk, hwalk, _, -, rfl⟩ := hparse
  exact walk_starts hwalk rfl pos hpos

theorem readsAged_iff (hparse : parseDns packet = .ok m)
    (h : ageDnsResponse packet seconds = .ok aged) :
    (∃ m', ReadsAged packet m seconds aged m') ↔
      ∀ pos ∈ nameStarts m, (∃ i, TtlByte m.records i ∧ Reads packet pos i) →
        nameAt (countedDown packet m seconds) pos = nameAt packet pos := by
  have haged := ageDnsResponse_countedDown hparse h
  have hout : SameOutside m.records packet aged := haged ▸ countedDown_outside hparse seconds
  constructor
  · rintro ⟨m', hreads⟩ pos hpos -
    rw [← haged]
    exact hreads.owners pos hpos
  · intro hthrough
    have hnames : ∀ pos ∈ nameStarts m, nameAt aged pos = nameAt packet pos := by
      intro pos hpos
      by_cases htouched : ∃ i, TtlByte m.records i ∧ Reads packet pos i
      · rw [haged]
        exact hthrough pos hpos htouched
      · obtain ⟨name, hname⟩ := nameStarts_read hparse pos hpos
        rw [hname]
        exact nameLoop_reads hname fun i hi => hout.bytes i fun hfield => htouched ⟨i, hfield, hi⟩
    exact ⟨_, parse_again hparse hout hnames
      (fun rr hrr htype => haged ▸ countedDown_ttl hparse seconds hrr htype), rfl, rfl, ⟨rfl, rfl⟩,
      rfl, hnames, fun rr hrr => hout.data (parseDns_tiles hparse).1 hrr⟩

/-- Ageing writes TTLs and nothing else, each of them counted down, and twice is once by the
sum. The aged message reads as the same one unless a name is read through a TTL. -/
theorem ageing_counts_down (hparse : parseDns packet = .ok m)
    (h : ageDnsResponse packet seconds = .ok aged) :
    SameOutside m.records packet aged ∧
    (∀ rr ∈ m.records, rr.type ≠ 41 → readUInt32 aged (rr.offset - 6) =
      .ok (remaining packet m.rcode rr - seconds)) ∧
    (∀ more second both, ageDnsResponse aged more = .ok second →
      ageDnsResponse packet (seconds + more) = .ok both → second = both) ∧
    ((∃ m', ReadsAged packet m seconds aged m') ↔
      ∀ pos ∈ nameStarts m, (∃ i, TtlByte m.records i ∧ Reads packet pos i) →
        nameAt (countedDown packet m seconds) pos = nameAt packet pos) := by
  have haged := ageDnsResponse_countedDown hparse h
  exact ⟨haged ▸ countedDown_outside hparse seconds,
    fun rr hrr htype => haged ▸ countedDown_ttl hparse seconds hrr htype,
    fun more second both hmore hboth => ageing_adds hparse h hmore hboth,
    readsAged_iff hparse h⟩

end

/-- A question for the root, and an address that lives 300 seconds. -/
theorem ageing_counts_down_address :
    ∃ packet aged m, parseDns packet = .ok m ∧ ageDnsResponse packet 100 = .ok aged ∧
      SameOutside m.records packet aged ∧ readUInt32 aged 22 = .ok 200 := by
  have hparse : parseDns [0, 0, 128, 0, 0, 1, 0, 1, 0, 0, 0, 0, 0, 0, 1, 0, 1,
      0, 0, 1, 0, 1, 0, 0, 1, 44, 0, 4, 192, 0, 2, 1] = .ok
      ⟨⟨0, 32768, ⟨[], 13, false⟩, 1, 1, 17⟩, [1, 0, 0], [⟨0, 1, 1, 300, 28, 4⟩], 512, none⟩ := by
    decide +kernel
  have haged : ageDnsResponse [0, 0, 128, 0, 0, 1, 0, 1, 0, 0, 0, 0, 0, 0, 1, 0, 1,
      0, 0, 1, 0, 1, 0, 0, 1, 44, 0, 4, 192, 0, 2, 1] 100 = .ok
      [0, 0, 128, 0, 0, 1, 0, 1, 0, 0, 0, 0, 0, 0, 1, 0, 1,
        0, 0, 1, 0, 1, 0, 0, 0, 200, 0, 4, 192, 0, 2, 1] := by decide +kernel
  obtain ⟨hout, httl, -⟩ := ageing_counts_down hparse haged
  exact ⟨_, _, _, hparse, haged, hout, httl _ List.mem_cons_self (by decide)⟩

/-- Two records without data. The owner of the second is a pointer to the TTL of the first,
where a label of one letter and a zero byte stand. -/
def ownerInTtl : Bytes :=
  [0, 0, 128, 0, 0, 1, 0, 2, 0, 0, 0, 0, 0, 0, 1, 0, 1,
    0, 0, 16, 0, 1, 1, 97, 0, 0, 0, 0,
    192, 22, 0, 16, 0, 1, 0, 0, 0, 0, 0, 0]

/-- The message is accepted, and a second later it is not a message any more. -/
theorem aged_not_accepted :
    (parseDns ownerInTtl).toBool = true ∧
      ∃ aged, ageDnsResponse ownerInTtl 1 = .ok aged ∧ parseDns aged = .error .wire := by
  refine ⟨by decide +kernel, writeUInt32 (writeUInt32 ownerInTtl 22 0x160ffff) 34 0, ?_, ?_⟩
  · decide +kernel
  · decide +kernel

end Meshpn.Dns.Wire
