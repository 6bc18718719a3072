import Meshpn.Dns.TtlFields

/-!
Ageing as counting the TTL fields down. What is written depends on the message before the
first write only, and ageing twice is ageing once by the sum. Whether the aged message reads
as the same records is another matter: a name may be read through a TTL.
-/

namespace Meshpn.Dns.Wire

open Meshpn.Lib Meshpn.Lib.Fallible Meshpn.Lib.DomainName

def dataOf (packet : Bytes) (rr : Record) : Bytes := (packet.drop rr.offset).take rr.length

def minimumAt (packet : Bytes) (rr : Record) : Nat :=
  match readUInt32 (dataOf packet rr) (rr.length - 4) with
  | .ok minimum => minimum
  | .error _ => 0

def remaining (packet : Bytes) (rcode : Nat) (rr : Record) : Nat :=
  if rr.type = 6 ∧ rr.part = 1 ∧ (rcode = 0 ∨ rcode = 3) then
    min (ttlValue rr.ttl) (ttlValue (minimumAt packet rr))
  else ttlValue rr.ttl

def countedDown (packet : Bytes) (m : Message) (seconds : Nat) : Bytes :=
  writeTtls (fun rr => remaining packet m.rcode rr - seconds) packet m.records

theorem ttlValue_le (value : Nat) : ttlValue value ≤ 0x7fffffff := by
  unfold ttlValue
  split <;> omega

theorem ttlValue_of_le {value : Nat} (h : value ≤ 0x7fffffff) : ttlValue value = value :=
  if_neg (by omega)

theorem remaining_le (packet : Bytes) (rcode : Nat) (rr : Record) :
    remaining packet rcode rr ≤ 0x7fffffff := by
  have httl := ttlValue_le rr.ttl
  unfold remaining
  split <;> omega

section

variable {packet other aged : Bytes} {pos last rcode seconds : Nat} {rr : Record}
  {records : List Record}

theorem SameOutside.data (htiles : Tiles packet pos records last)
    (h : SameOutside records packet other) (hrr : rr ∈ records) :
    dataOf other rr = dataOf packet rr :=
  take_drop_congr fun i hlow hhigh => h.bytes i (htiles.data hrr hlow hhigh)

theorem readUInt32_dataOf {k : Nat} (hk : k + 4 ≤ rr.length) :
    readUInt32 (dataOf packet rr) k = readUInt32 packet (rr.offset + k) := by
  rw [← readUInt32_drop]
  exact readUInt32_congr fun j hj => List.getElem?_take_of_lt (by omega)

theorem soaMinimum_minimumAt (htiles : Tiles packet pos records last)
    (h : SameOutside records packet other) (hrr : rr ∈ records) {minimum : Nat}
    (hread : soaMinimum other rr = .ok minimum) : minimum = minimumAt packet rr := by
  simp only [soaMinimum, bind_eq_ok, need_eq_ok, decide_eq_true_eq] at hread
  obtain ⟨mname, hmname, -, -, rname, hrname, -, hend, hread⟩ := hread
  have hfirst := (nameAt_bounded hmname).behind
  have hsecond := (nameAt_bounded hrname).behind
  rw [Nat.add_sub_assoc (by omega), ← readUInt32_dataOf (by omega), h.data htiles hrr] at hread
  rw [minimumAt, hread]

theorem lifetime_remaining (htiles : Tiles packet pos records last)
    (h : SameOutside records packet other) (hrr : rr ∈ records) {ttl : Nat}
    (hread : lifetime other rcode rr = .ok ttl) : ttl = remaining packet rcode rr := by
  simp only [lifetime, Bool.and_eq_true, Bool.or_eq_true, decide_eq_true_eq, and_assoc] at hread
  rw [remaining]
  split at hread
  case isTrue hsoa =>
    rw [if_pos hsoa]
    simp only [bind_eq_ok, pure_eq_ok] at hread
    obtain ⟨minimum, hminimum, rfl⟩ := hread
    rw [soaMinimum_minimumAt htiles h hrr hminimum]
  case isFalse hother =>
    rw [if_neg hother]
    cases hread
    rfl

theorem ageing_writes (htiles : Tiles packet pos records last) {rest : List Record}
    (hrest : ∀ rr ∈ rest, rr ∈ records) (h : SameOutside records packet other)
    (hfold : rest.foldlM (ageRecord rcode seconds) other = .ok aged) :
    aged = writeTtls (fun rr => remaining packet rcode rr - seconds) other rest := by
  induction rest generalizing other with
  | nil =>
    rw [List.foldlM_nil, pure_eq_ok] at hfold
    exact hfold.symm
  | cons rr rest ih =>
    have hrr := hrest rr List.mem_cons_self
    have hplaced := htiles.placed rr hrr
    rw [List.foldlM_cons, bind_eq_ok] at hfold
    obtain ⟨next, hnext, hfold⟩ := hfold
    rw [writeTtls, List.foldl_cons]
    rw [ageRecord] at hnext
    split at hnext
    case isTrue htype =>
      cases hnext
      rw [if_pos htype]
      exact ih (fun other hother => hrest other (List.mem_cons_of_mem _ hother)) h hfold
    case isFalse htype =>
      rw [bind_eq_ok] at hnext
      obtain ⟨ttl, httl, hnext⟩ := hnext
      rw [pure_eq_ok] at hnext
      rw [if_neg htype, ← lifetime_remaining htiles h hrr httl, hnext]
      refine ih (fun other hother => hrest other (List.mem_cons_of_mem _ hother)) ?_ hfold
      rw [← hnext]
      exact h.trans (sameOutside_write hrr htype (by omega) (h.length ▸ hplaced.2) _)

theorem ageDnsResponse_countedDown {m : Message} (hparse : parseDns packet = .ok m)
    (h : ageDnsResponse packet seconds = .ok aged) : aged = countedDown packet m seconds := by
  simp only [ageDnsResponse, bind_eq_ok, hparse, Except.ok.injEq] at h
  obtain ⟨-, -, _, rfl, h⟩ := h
  exact ageing_writes (parseDns_tiles hparse).1 (fun rr hrr => hrr) (.refl _ _) h

theorem countedDown_outside {m : Message} (hparse : parseDns packet = .ok m) (seconds : Nat) :
    SameOutside m.records packet (countedDown packet m seconds) :=
  writeTtls_outside (parseDns_tiles hparse).1.placed

theorem countedDown_ttl {m : Message} (hparse : parseDns packet = .ok m) (seconds : Nat)
    (hrr : rr ∈ m.records) (htype : rr.type ≠ 41) :
    readUInt32 (countedDown packet m seconds) (rr.offset - 6) =
      .ok (remaining packet m.rcode rr - seconds) :=
  writeTtls_value (parseDns_tiles hparse).1 (fun rr => by
    have hle := remaining_le packet m.rcode rr
    omega) rfl hrr htype

end

def Recast (rr other : Record) : Prop :=
  other = { rr with ttl := other.ttl } ∧ (rr.type = 41 → other = rr)

section

variable {packet other : Bytes} {pos last last' : Nat} {records others : List Record}

theorem Tiles.recast (h : Tiles packet pos records last) (h' : Tiles other pos others last')
    (hparts : others.map Record.part = records.map Record.part)
    (hlength : other.length = packet.length)
    (hsame : ∀ i, pos ≤ i → i < last → ¬ TtlByte records i → other[i]? = packet[i]?) :
    List.Forall₂ Recast records others := by
  induction h generalizing others with
  | nil =>
    cases h' with
    | nil => exact .nil
    | cons => cases hparts
  | @cons pos stop last rr rest hname hrecord hrest ih =>
    cases h' with
    | nil => cases hparts
    | @cons _ stop' _ rr' rest' hname' hrecord' hrest' =>
      have hbehind := hname.behind
      have hoffset := hrecord.offset
      have hown := fun i => hrest.own_bytes (i := i) hsame
      have hstop : stop' = stop := hname'.unique
        (hname.congr fun i hlow hhigh => hown i hlow (by omega) fun _ => by omega)
      subst hstop
      obtain ⟨hpart, hparts⟩ := List.cons.inj hparts
      have hread := hrecord.congr hlength
        (fun i hlow hhigh hfield => hown i (by omega) (by omega) fun _ => by omega) hrecord'.ttl
      have hcast : rr' = { rr with ttl := rr'.ttl } := hrecord'.unique hread hpart
      refine .cons ⟨hcast, fun hopt => ?_⟩ ?_
      · have hfield := hrecord'.ttl
        have hsamettl : readUInt32 other (stop' + 4) = readUInt32 packet (stop' + 4) :=
          readUInt32_congr fun k hk => hown (stop' + 4 + k) (by omega) (by omega)
            fun hne => absurd hopt hne
        rw [hsamettl, hrecord.ttl] at hfield
        rw [hcast, ← Except.ok.inj hfield]
      · rw [hcast] at hrest'
        refine ih hrest' hparts fun i hlow hhigh hi => ?_
        exact hsame i (by omega) hhigh (ttlByte_cons_of_behind hlow hi)

theorem Tiles.record (h : Tiles packet pos records last) {rr : Record} (hrr : rr ∈ records) :
    RecordAt packet (rr.offset - 10) rr := by
  induction h with
  | nil => cases hrr
  | cons hname hrecord _ ih =>
    rcases List.mem_cons.mp hrr with rfl | hrr
    · rw [hrecord.offset, Nat.add_sub_cancel]
      exact hrecord
    · exact ih hrr

theorem forall₂_mem {rr : Record} (h : List.Forall₂ Recast records others) (hrr : rr ∈ records) :
    ∃ rr' ∈ others, Recast rr rr' := by
  induction h with
  | nil => cases hrr
  | @cons first first' rest rest' hfirst _ ih =>
    rcases List.mem_cons.mp hrr with rfl | hrr
    · exact ⟨first', List.mem_cons_self, hfirst⟩
    · obtain ⟨rr', hrr', hcast⟩ := ih hrr
      exact ⟨rr', List.mem_cons_of_mem _ hrr', hcast⟩

theorem Recast.type {rr rr' : Record} (h : Recast rr rr') : rr'.type = rr.type := by rw [h.1]

theorem Recast.offset {rr rr' : Record} (h : Recast rr rr') : rr'.offset = rr.offset := by
  rw [h.1]

theorem recast_opt (h : List.Forall₂ Recast records others) :
    (others.find? fun rr => rr.type = 41) = records.find? fun rr => rr.type = 41 := by
  induction h with
  | nil => rfl
  | @cons rr rr' rest rest' hfirst _ ih =>
    rw [List.find?_cons, List.find?_cons, hfirst.type, ih]
    by_cases hopt : rr.type = 41
    · rw [hfirst.2 hopt]
    · simp only [hopt, decide_false]

theorem recast_ttlByte (h : List.Forall₂ Recast records others) {i : Nat} :
    TtlByte others i ↔ TtlByte records i := by
  induction h with
  | nil => rfl
  | @cons rr rr' rest rest' hfirst _ ih =>
    simp only [TtlByte, List.mem_cons, exists_eq_or_imp, hfirst.type, hfirst.offset] at ih ⊢
    exact or_congr Iff.rfl ih

theorem remaining_recast {rr rr' : Record} {rcode seconds : Nat} (hcast : Recast rr rr')
    (hminimum : minimumAt other rr' = minimumAt packet rr)
    (hleft : rr'.ttl = remaining packet rcode rr - seconds) :
    remaining other rcode rr' = remaining packet rcode rr - seconds := by
  have hle := remaining_le packet rcode rr
  have hpart : rr'.part = rr.part := by rw [hcast.1]
  have hvalue : ttlValue rr'.ttl = rr'.ttl := ttlValue_of_le (by omega)
  rw [remaining, hcast.type, hpart, hvalue, hminimum, hleft]
  split
  case isTrue hsoa =>
    have hbound : remaining packet rcode rr ≤ ttlValue (minimumAt packet rr) := by
      rw [remaining, if_pos hsoa]
      exact Nat.min_le_right _ _
    omega
  case isFalse => rfl

end

section

variable {packet other : Bytes} {m m' : Message}

theorem parseDns_counts (h : parseDns packet = .ok m) :
    ∃ answers authorities additional, readUInt16 packet 6 = .ok answers ∧
      readUInt16 packet 8 = .ok authorities ∧ readUInt16 packet 10 = .ok additional ∧
      m.counts = [answers, authorities, additional] := by
  simp only [parseDns, bind_eq_ok, pure_eq_ok] at h
  obtain ⟨_, -, answers, hanswers, authorities, hauthorities, additional, hadditional, _, -, _, -,
    _, -, rfl⟩ := h
  exact ⟨answers, authorities, additional, hanswers, hauthorities, hadditional, rfl⟩

theorem readQuestion_flags {q : Question} (h : readQuestion packet = .ok q) :
    readUInt16 packet 2 = .ok q.flags := by
  simp only [readQuestion, bind_eq_ok, pure_eq_ok] at h
  obtain ⟨_, -, flags, hflags, _, -, _, -, _, -, _, -, _, -, _, -, _, -, _, -, rfl⟩ := h
  exact hflags

theorem readQuestion_name {q : Question} (h : readQuestion packet = .ok q) :
    nameAt packet 12 = .ok q.name ∧ q.stop = q.name.stop + 4 := by
  simp only [readQuestion, bind_eq_ok, pure_eq_ok] at h
  obtain ⟨_, -, _, -, _, -, _, -, name, hname, _, -, _, -, _, -, _, -, _, -, rfl⟩ := h
  exact ⟨hname, rfl⟩

theorem SameOutside.front (hparse : parseDns packet = .ok m)
    (h : SameOutside m.records packet other) {i : Nat} (hi : i ≤ m.question.stop) :
    other[i]? = packet[i]? :=
  h.bytes i fun hfield => by
    have hrange := (parseDns_tiles hparse).1.ttl_range hfield
    omega

/-- A message with other TTLs, where it is accepted, has the same records at the same places. -/
theorem parse_recast (hparse : parseDns packet = .ok m) (h : SameOutside m.records packet other)
    (hparse' : parseDns other = .ok m') :
    List.Forall₂ Recast m.records m'.records ∧ m'.rcode = m.rcode := by
  obtain ⟨hlow, -⟩ := readQuestion_stop (parseDns_question hparse)
  have hread : ∀ i, i < 16 → readUInt16 other i = readUInt16 packet i := fun i hi =>
    readUInt16_congr (h.front hparse (by omega)) (h.front hparse (by omega))
  obtain ⟨htiles, hparts⟩ := parseDns_tiles hparse
  obtain ⟨htiles', hparts'⟩ := parseDns_tiles hparse'
  have hcounts : m'.counts = m.counts := by
    obtain ⟨a, b, c, ha, hb, hc, heq⟩ := parseDns_counts hparse
    obtain ⟨a', b', c', ha', hb', hc', heq'⟩ := parseDns_counts hparse'
    rw [hread 6 (by omega), ha] at ha'
    rw [hread 8 (by omega), hb] at hb'
    rw [hread 10 (by omega), hc] at hc'
    rw [heq, heq', Except.ok.inj ha', Except.ok.inj hb', Except.ok.inj hc']
  have hflags : m'.flags = m.flags := by
    have hfound := readQuestion_flags (parseDns_question hparse')
    rw [hread 2 (by omega), readQuestion_flags (parseDns_question hparse)] at hfound
    exact (Except.ok.inj hfound).symm
  have hstop : m'.question.stop = m.question.stop := by
    obtain ⟨hname, hstop⟩ := readQuestion_name (parseDns_question hparse)
    obtain ⟨hname', hstop'⟩ := readQuestion_name (parseDns_question hparse')
    have hends := (nameAt_ends hname).congr fun i _ hhigh => h.front hparse (i := i) (by omega)
    rw [hstop, hstop', (nameAt_ends hname').unique hends]
  rw [hstop] at htiles'
  have hrecast := htiles.recast htiles' (by rw [hparts, hparts', hcounts])
    h.length fun i _ _ hi => h.bytes i hi
  refine ⟨hrecast, ?_⟩
  rw [Message.rcode, Message.rcode, hflags, parseDns_opt hparse, parseDns_opt hparse',
    recast_opt hrecast]

theorem ageing_adds {first second both : Bytes} {a b : Nat} (hparse : parseDns packet = .ok m)
    (hfirst : ageDnsResponse packet a = .ok first) (hsecond : ageDnsResponse first b = .ok second)
    (hboth : ageDnsResponse packet (a + b) = .ok both) : second = both := by
  have hfirst := ageDnsResponse_countedDown hparse hfirst
  have hboth := ageDnsResponse_countedDown hparse hboth
  have hout : SameOutside m.records packet first := hfirst ▸ countedDown_outside hparse a
  obtain ⟨m', hparse'⟩ : ∃ m', parseDns first = .ok m' := by
    simp only [ageDnsResponse, bind_eq_ok] at hsecond
    obtain ⟨-, -, m', hparse', -⟩ := hsecond
    exact ⟨m', hparse'⟩
  have hsecond := ageDnsResponse_countedDown hparse' hsecond
  obtain ⟨hrecast, hrcode⟩ := parse_recast hparse hout hparse'
  obtain ⟨htiles, -⟩ := parseDns_tiles hparse
  obtain ⟨htiles', -⟩ := parseDns_tiles hparse'
  have hagain : SameOutside m.records first second := by
    have hout' := hsecond ▸ countedDown_outside hparse' b
    exact ⟨hout'.length, fun i hi =>
      hout'.bytes i fun hfield => hi ((recast_ttlByte hrecast).mp hfield)⟩
  refine SameOutside.ext htiles (hout.trans hagain) (hboth ▸ countedDown_outside hparse (a + b))
    fun rr hrr htype => ⟨_, ?_, hboth ▸ countedDown_ttl hparse (a + b) hrr htype⟩
  obtain ⟨rr', hrr', hcast⟩ := forall₂_mem hrecast hrr
  have hread := countedDown_ttl hparse' b hrr' (hcast.type ▸ htype)
  rw [← hsecond, hcast.offset] at hread
  rw [hread]
  have hplaced := htiles.placed rr hrr
  -- the TTL that the second ageing starts from is what the first one has left
  have hleft : rr'.ttl = remaining packet m.rcode rr - a := by
    have hfield := (htiles'.record hrr').ttl
    rw [hcast.offset, show rr.offset - 10 + 4 = rr.offset - 6 by omega, hfirst,
      countedDown_ttl hparse a hrr htype] at hfield
    exact (Except.ok.inj hfield).symm
  have hminimum : minimumAt first rr' = minimumAt packet rr := by
    have hdata : dataOf first rr' = dataOf packet rr := by
      rw [← hout.data htiles hrr, hcast.1]
      rfl
    rw [minimumAt, minimumAt, hdata, hcast.1]
  rw [hrcode, remaining_recast hcast hminimum hleft, Nat.sub_sub]

end

end Meshpn.Dns.Wire
