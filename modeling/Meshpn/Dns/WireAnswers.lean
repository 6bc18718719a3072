import Meshpn.Dns.WireParts

/-!
Messages that are made from others: with another identifier, as a failure of a query, cut
down to its question, or aged. What all of them keep is the question.
-/

namespace Meshpn.Dns.Wire

open Meshpn.Lib Meshpn.Lib.Fallible List

section Write

variable {packet bytes : Bytes} {i j n : Nat}

theorem writeAt_length (hroom : i + bytes.length ≤ packet.length) :
    (writeAt packet i bytes).length = packet.length := by
  simp only [writeAt, length_append, length_take, length_drop]
  omega

theorem writeAt_before (hroom : i ≤ packet.length) (hj : j < i) :
    (writeAt packet i bytes)[j]? = packet[j]? := by
  have htake : (packet.take i).length = i := length_take_of_le hroom
  rw [writeAt, append_assoc, getElem?_append_left (by omega),
    getElem?_take_of_lt hj]

theorem writeAt_inside (hroom : i ≤ packet.length) (hj : j < bytes.length) :
    (writeAt packet i bytes)[i + j]? = bytes[j]? := by
  have htake : (packet.take i).length = i := length_take_of_le hroom
  rw [writeAt, append_assoc, getElem?_append_right (by omega), htake,
    Nat.add_sub_cancel_left, getElem?_append_left hj]

theorem writeAt_behind (hroom : i ≤ packet.length) (hj : i + bytes.length ≤ j) :
    (writeAt packet i bytes)[j]? = packet[j]? := by
  have htake : (packet.take i).length = i := length_take_of_le hroom
  rw [writeAt, append_assoc, getElem?_append_right (by omega), htake,
    getElem?_append_right (by omega), getElem?_drop]
  congr 1
  omega

theorem readUInt16_writeUInt16 (hroom : i ≤ packet.length) (hn : n < 65536) :
    readUInt16 (writeUInt16 packet i n) i = .ok n := by
  have hhigh : (writeUInt16 packet i n)[i]? = some (UInt8.ofNat (n / 256)) :=
    writeAt_inside (j := 0) hroom (by simp)
  have hlow : (writeUInt16 packet i n)[i + 1]? = some (UInt8.ofNat (n % 256)) :=
    writeAt_inside (j := 1) hroom (by simp)
  rw [readUInt16, byteAt, byteAt, hhigh, hlow]
  exact congrArg Except.ok (Bytes.toUInt16_ofNat hn)

end Write

def Message.withId (m : Message) (id : Nat) : Message :=
  { m with question := { m.question with id := id } }

variable {packet : Bytes} {m : Message} {q : Question}

theorem sameFrom_writeId (id : Nat) (hlength : 2 ≤ packet.length) :
    SameFrom 2 packet (writeUInt16 packet 0 id) where
  left := (writeAt_length (by simpa using hlength)).symm
  right := fun _ hi => (writeAt_behind (Nat.zero_le _) (by simpa using hi)).symm

theorem readQuestion_length (h : readQuestion packet = .ok q) :
    12 ≤ packet.length ∧ packet.length ≤ maxBytes := by
  simp only [readQuestion, bind_eq_ok, need_eq_ok, Bool.and_eq_true, decide_eq_true_eq] at h
  obtain ⟨-, hlength, -⟩ := h
  exact hlength

theorem readQuestion_writeId {id : Nat} (hid : id < 65536)
    (h : readQuestion packet = .ok q) :
    readQuestion (writeUInt16 packet 0 id) = .ok { q with id := id } := by
  have hsame := sameFrom_writeId id (show 2 ≤ packet.length by
    have hlength := readQuestion_length h
    omega)
  have hwritten : readUInt16 (writeUInt16 packet 0 id) 0 = .ok id :=
    readUInt16_writeUInt16 (Nat.zero_le _) hid
  simp only [readQuestion, bind_eq_ok, pure_eq_ok] at h ⊢
  obtain ⟨_, hlength, flags, hflags, questions, hquestions, _, hone, name, hname, _, hroom,
    type, htype, klass, hklass, _, hordinary, _, -, rfl⟩ := h
  have hstop := (nameAt_bounded hname).behind
  rw [hsame.1] at hlength hroom
  rw [hsame.readUInt16 (by omega)] at hflags hquestions htype hklass
  rw [hsame.nameAt (by omega) (by omega)] at hname
  exact ⟨_, hlength, flags, hflags, questions, hquestions, _, hone, name, hname, _, hroom,
    type, htype, klass, hklass, _, hordinary, id, hwritten, rfl⟩

/-- What a pass of the loop over the records has read and how it goes on. -/
structure RecordPass (packet : Bytes) (w : Walk) (part : Nat) (rr : Record) (next : Walk) :
    Prop where
  part : rr.part = part
  behind : w.pos + 11 ≤ rr.offset
  inside : rr.offset + rr.length ≤ packet.length
  ttl : rr.ttl < 4294967296
  pos : next.pos = rr.offset + rr.length
  records : next.records = w.records ++ [rr]
  edns : (rr.type = 41 ∧ w.edns = none ∧ next.udpSize = min udpMaxBytes (max 512 rr.klass) ∧
      next.edns = some ⟨rr.ttl / 16777216, rr.ttl / 65536 % 256, rr.ttl % 65536⟩) ∨
    (rr.type ≠ 41 ∧ next.udpSize = w.udpSize ∧ next.edns = w.edns)

theorem noteEdns_cases {name : Name} {rr : Record} {w next : Walk}
    (h : noteEdns packet name rr w = .ok next) :
    next.records = w.records ∧
    ((rr.type = 41 ∧ w.edns = none ∧ next.udpSize = min udpMaxBytes (max 512 rr.klass) ∧
      next.edns = some ⟨rr.ttl / 16777216, rr.ttl / 65536 % 256, rr.ttl % 65536⟩) ∨
    (rr.type ≠ 41 ∧ next.udpSize = w.udpSize ∧ next.edns = w.edns)) := by
  unfold noteEdns at h
  split at h
  case isTrue htype =>
    simp only [readOpt, bind_eq_ok, need_eq_ok, Bool.and_eq_true, Option.isNone_iff_eq_none,
      pure_eq_ok] at h
    obtain ⟨-, ⟨⟨⟨-, hnone⟩, -⟩, -⟩, -, -, rfl⟩ := h
    exact ⟨rfl, .inl ⟨htype, hnone, rfl, rfl⟩⟩
  case isFalse htype =>
    cases h
    exact ⟨rfl, .inr ⟨htype, rfl, rfl⟩⟩

theorem readRecord_pass {w next : Walk} {part : Nat}
    (h : readRecord packet w part = .ok next) : ∃ rr, RecordPass packet w part rr next := by
  simp only [readRecord, bind_eq_ok, need_eq_ok, decide_eq_true_eq, pure_eq_ok] at h
  obtain ⟨name, hname, -, -, type, -, klass, -, ttl, httl, length, -, -, hinside, -, -, -, -,
    noted, hnoted, rfl⟩ := h
  have hstop := (nameAt_bounded hname).behind
  obtain ⟨hrecords, hedns⟩ := noteEdns_cases hnoted
  exact ⟨⟨part, type, klass, ttl, name.stop + 10, length⟩,
    { part := rfl
      behind := by
        dsimp only
        omega
      inside := hinside
      ttl := readUInt32_lt httl
      pos := rfl
      records := by rw [hrecords]
      edns := hedns }⟩

theorem walk_records {sections : List Nat} {stop : Nat} {walk : Walk}
    (h : sections.foldlM (readRecord packet) ⟨stop, 512, none, []⟩ = .ok walk) :
    ∀ rr ∈ walk.records, stop + 11 ≤ rr.offset ∧ rr.offset + rr.length ≤ packet.length := by
  have hkept : stop ≤ walk.pos ∧
      ∀ rr ∈ walk.records, stop + 11 ≤ rr.offset ∧ rr.offset + rr.length ≤ packet.length := by
    refine foldlM_keeps (P := fun w => stop ≤ w.pos ∧
      ∀ rr ∈ w.records, stop + 11 ≤ rr.offset ∧ rr.offset + rr.length ≤ packet.length)
      (fun part _ w next hnext hw => ?_) ⟨le_rfl, fun rr hrr => (by cases hrr)⟩ h
    obtain ⟨rr, hpass⟩ := readRecord_pass hnext
    have hbehind := hpass.behind
    refine ⟨by rw [hpass.pos]; omega, fun other hother => ?_⟩
    rw [hpass.records, mem_append, mem_singleton] at hother
    rcases hother with hold | rfl
    · exact hw.2 other hold
    · exact ⟨by omega, hpass.inside⟩
  exact hkept.2

theorem walk_edns {sections : List Nat} {stop : Nat} {walk : Walk}
    (h : sections.foldlM (readRecord packet) ⟨stop, 512, none, []⟩ = .ok walk) :
    (∀ edns ∈ walk.edns, edns.extendedRcode < 256) ∧ 512 ≤ walk.udpSize ∧
      walk.udpSize ≤ udpMaxBytes := by
  refine foldlM_keeps (P := fun w => (∀ edns ∈ w.edns, edns.extendedRcode < 256) ∧
    512 ≤ w.udpSize ∧ w.udpSize ≤ udpMaxBytes) (fun part _ w next hnext hw => ?_)
    ⟨fun edns hedns => (by cases hedns), le_rfl, (by simp [udpMaxBytes])⟩ h
  obtain ⟨rr, hpass⟩ := readRecord_pass hnext
  rcases hpass.edns with ⟨-, -, hsize, hedns⟩ | ⟨-, hsize, hedns⟩
  · rw [hsize, hedns]
    refine ⟨fun edns hmem => ?_, ?_, Nat.min_le_left _ _⟩
    · cases hmem
      have httl := hpass.ttl
      dsimp only
      omega
    · exact Nat.le_min.mpr ⟨by decide, Nat.le_max_left _ _⟩
  · rw [hsize, hedns]
    exact hw

theorem parseDns_question (h : parseDns packet = .ok m) :
    readQuestion packet = .ok m.question := by
  simp only [parseDns, bind_eq_ok, pure_eq_ok] at h
  obtain ⟨question, hquestion, _, -, _, -, _, -, _, -, _, -, _, -, rfl⟩ := h
  exact hquestion

theorem parseDns_records (h : parseDns packet = .ok m) :
    ∀ rr ∈ m.records,
      m.question.stop + 11 ≤ rr.offset ∧ rr.offset + rr.length ≤ packet.length := by
  simp only [parseDns, bind_eq_ok, pure_eq_ok] at h
  obtain ⟨question, -, _, -, _, -, _, -, _, -, walk, hwalk, _, -, rfl⟩ := h
  exact walk_records hwalk

theorem parseDns_edns (h : parseDns packet = .ok m) :
    (∀ edns ∈ m.edns, edns.extendedRcode < 256) ∧ 512 ≤ m.udpSize ∧ m.udpSize ≤ udpMaxBytes := by
  simp only [parseDns, bind_eq_ok, pure_eq_ok] at h
  obtain ⟨question, -, _, -, _, -, _, -, _, -, walk, hwalk, _, -, rfl⟩ := h
  exact walk_edns hwalk

theorem parseDns_writeId {id : Nat} (hid : id < 65536)
    (h : parseDns packet = .ok m) :
    parseDns (writeUInt16 packet 0 id) = .ok (m.withId id) := by
  have hsame := sameFrom_writeId id (show 2 ≤ packet.length by
    have hlength := readQuestion_length (parseDns_question h)
    omega)
  simp only [parseDns, bind_eq_ok, pure_eq_ok] at h ⊢
  obtain ⟨question, hquestion, answers, hanswers, authorities, hauthorities, additional,
    hadditional, _, hcounts, walk, hwalk, _, hend, rfl⟩ := h
  have hbehind := (readQuestion_writeId hid hquestion)
  rw [hsame.readUInt16 (by omega)] at hanswers hauthorities hadditional
  rw [hsame.1] at hend
  have hstop : 2 ≤ question.stop := by
    simp only [readQuestion, bind_eq_ok, pure_eq_ok] at hquestion
    obtain ⟨_, -, _, -, _, -, _, -, name, -, _, -, _, -, _, -, _, -, _, -, rfl⟩ := hquestion
    dsimp only
    omega
  rw [foldlM_congr (P := fun w => 2 ≤ w.pos)
    (fun part w hw => hsame.readRecord (by omega) hw) (fun part w next hnext hw => ?_)
    hstop] at hwalk
  · exact ⟨_, hbehind, answers, hanswers, authorities, hauthorities, additional, hadditional, _,
      hcounts, walk, hwalk, _, hend, rfl⟩
  · obtain ⟨rr, hpass⟩ := readRecord_pass hnext
    have hfar := hpass.behind
    rw [hpass.pos]
    omega

section Region

variable {packet other : Bytes} {stop : Nat}

variable {w : NameWalk}

theorem nameLoop_compressed {steps : Nat} {name : Name}
    (hw : w.compressed = true) (h : nameLoop packet steps w = .ok name) :
    name.compressed = true := by
  induction steps generalizing w with
  | zero => cases h
  | succ steps ih =>
    rw [nameLoop, bind_eq_ok] at h
    obtain ⟨next, hnext, h⟩ := h
    have hpass := nameStep_pass hnext
    cases hpass with
    | jump => exact ih rfl h
    | finish => exact pure_eq_ok.mp h ▸ hw
    | label => exact ih (by exact hw) h

theorem nameLoop_behind {steps : Nat} {name : Name} (hw : w.stop = none)
    (hplain : name.compressed = false) (h : nameLoop packet steps w = .ok name) :
    w.pos < name.stop := by
  induction steps generalizing w with
  | zero => cases h
  | succ steps ih =>
    rw [nameLoop, bind_eq_ok] at h
    obtain ⟨next, hnext, h⟩ := h
    have hpass := nameStep_pass hnext
    cases hpass with
    | jump =>
      rw [nameLoop_compressed rfl h] at hplain
      cases hplain
    | finish =>
      rw [← pure_eq_ok.mp h]
      simp only [hw, Option.getD_none]
      omega
    | label =>
      have hnext : w.pos + 1 + _ < name.stop := ih (by exact hw) h
      omega

theorem take_drop_congr {i n : Nat}
    (hagree : ∀ j, i ≤ j → j < i + n → packet[j]? = other[j]?) :
    (packet.drop i).take n = (other.drop i).take n := by
  apply ext_getElem?
  intro j
  rcases Nat.lt_or_ge j n with hj | hj
  · rw [getElem?_take_of_lt hj, getElem?_take_of_lt hj, getElem?_drop,
      getElem?_drop]
    exact hagree (i + j) (by omega) (by omega)
  · rw [getElem?_take_eq_none hj, getElem?_take_eq_none hj]

theorem nameLoop_region (hroom : stop ≤ other.length)
    (hagree : ∀ i, 12 ≤ i → i < stop → packet[i]? = other[i]?) {steps : Nat}
    {name : Name} (hpos : 12 ≤ w.pos) (hw : w.stop = none) (hplain : name.compressed = false)
    (hstop : name.stop ≤ stop) (h : nameLoop packet steps w = .ok name) :
    nameLoop other steps w = .ok name := by
  induction steps generalizing w with
  | zero => cases h
  | succ steps ih =>
    have hbehind := nameLoop_behind hw hplain h
    rw [nameLoop, bind_eq_ok] at h ⊢
    obtain ⟨next, hnext, h⟩ := h
    have hpass := nameStep_pass hnext
    have hsame := hagree w.pos hpos (by omega)
    cases hpass with
    | jump =>
      rw [nameLoop_compressed rfl h] at hplain
      cases hplain
    | finish hnew hbyte => exact ⟨_, nameStep_finish hnew (hsame ▸ hbyte), h⟩
    | @label byte hnew hbyte hmin hshort hroom' hsize =>
      have hfar : w.pos + 1 + byte.toNat < name.stop := nameLoop_behind (by exact hw) hplain h
      refine ⟨_, nameStep_label hnew (hsame ▸ hbyte) hmin hshort (by omega) hsize, ?_⟩
      have hlabel : (packet.drop (w.pos + 1)).take byte.toNat =
          (other.drop (w.pos + 1)).take byte.toNat :=
        take_drop_congr fun i hlow hhigh => hagree i (by omega) (by omega)
      rw [← hlabel]
      exact ih (by dsimp only; omega) hw h

/-- A message with the question of another one, and a header of its own, reads as that
question. -/
theorem readQuestion_region {q : Question} {id flags : Nat} (h : readQuestion packet = .ok q)
    (hplain : q.name.compressed = false) (hroom : q.stop ≤ other.length)
    (hmax : other.length ≤ maxBytes) (hid : readUInt16 other 0 = .ok id)
    (hflags : readUInt16 other 2 = .ok flags) (hordinary : flags &&& 0x7840 = 0)
    (hone : readUInt16 other 4 = .ok 1)
    (hagree : ∀ i, 12 ≤ i → i < q.stop → packet[i]? = other[i]?) :
    readQuestion other = .ok { q with id := id, flags := flags } := by
  simp only [readQuestion, bind_eq_ok, pure_eq_ok] at h ⊢
  obtain ⟨_, -, _, -, _, -, _, -, name, hname, _, -, type, htype, klass, hklass, _, hclass,
    _, -, rfl⟩ := h
  have hbehind := (nameAt_bounded hname).behind
  dsimp only at hplain hroom hagree
  have hname' : nameAt other 12 = .ok name :=
    nameLoop_region hroom hagree le_rfl rfl hplain (by omega) hname
  rw [readUInt16_congr (hagree name.stop (by omega) (by omega))
    (hagree (name.stop + 1) (by omega) (by omega))] at htype
  rw [readUInt16_congr (hagree (name.stop + 2) (by omega) (by omega))
    (hagree (name.stop + 2 + 1) (by omega) (by omega))] at hklass
  exact ⟨(), by simp; omega, flags, hflags, 1, hone, (), by simpa using hordinary, name, hname',
    (), by simpa using hroom, type, htype, klass, hklass, (), hclass, id, hid, rfl⟩

end Region

theorem readQuestion_stop (h : readQuestion packet = .ok q) :
    17 ≤ q.stop ∧ q.stop ≤ packet.length ∧ (q.name.compressed = false → q.stop ≤ 271) := by
  simp only [readQuestion, bind_eq_ok, need_eq_ok, decide_eq_true_eq, pure_eq_ok] at h
  obtain ⟨_, -, _, -, _, -, _, -, name, hname, _, hroom, _, -, _, -, _, -, _, -, rfl⟩ := h
  have hbounded := nameAt_bounded hname
  have hbehind := hbounded.behind
  refine ⟨by dsimp only; omega, hroom, fun hplain => ?_⟩
  have hshort := hbounded.plain hplain
  dsimp only
  omega

/-- The message has the identifier and the question of the query, and the bit of an answer. -/
structure Answers (q : Message) (reply : Bytes) (r : Question) : Prop where
  read : readQuestion reply = .ok r
  answer : r.flags &&& 0x8000 ≠ 0
  id : r.id = q.id
  nameKey : r.name.key = q.nameKey
  type : r.type = q.question.type
  klass : r.klass = q.question.klass

/-- A short message with the identifier and the question bytes of a query. -/
structure Echo (query : Bytes) (q : Message) (flags : Nat) (reply : Bytes) : Prop where
  short : reply.length ≤ 282
  long : q.question.stop ≤ reply.length
  id : readUInt16 reply 0 = .ok q.id
  flags : readUInt16 reply 2 = .ok flags
  questions : readUInt16 reply 4 = .ok 1
  agree : ∀ i, 12 ≤ i → i < q.question.stop → query[i]? = reply[i]?

theorem parseDnsQuery_parse {query : Bytes} {q : Message} (h : parseDnsQuery query = .ok q) :
    parseDns query = .ok q ∧ q.question.name.compressed = false := by
  simp only [parseDnsQuery, bind_eq_ok, need_eq_ok, Bool.and_eq_true, Bool.not_eq_true',
    pure_eq_ok] at h
  obtain ⟨found, hfound, -, -, -, -, -, ⟨hplain, -⟩, rfl⟩ := h
  exact ⟨hfound, hplain⟩

theorem readQuestion_header (h : readQuestion packet = .ok q) :
    readUInt16 packet 0 = .ok q.id ∧ readUInt16 packet 4 = .ok 1 := by
  simp only [readQuestion, bind_eq_ok, need_eq_ok, Bool.and_eq_true, decide_eq_true_eq,
    pure_eq_ok] at h
  obtain ⟨_, -, _, -, questions, hquestions, _, ⟨-, rfl⟩, _, -, _, -, _, -, _, -, _, -, id, hid,
    rfl⟩ := h
  exact ⟨hid, hquestions⟩

section Echo

variable {query : Bytes} {q : Message} {flags : Nat} {reply : Bytes}

theorem Echo.answers (hquery : parseDnsQuery query = .ok q) (h : Echo query q flags reply)
    (hordinary : flags &&& 0x7840 = 0) (hanswer : flags &&& 0x8000 ≠ 0) :
    Answers q reply { q.question with flags := flags } := by
  obtain ⟨hparse, hplain⟩ := parseDnsQuery_parse hquery
  have hshort := h.short
  have hread := readQuestion_region (parseDns_question hparse) hplain h.long
    (by simp only [maxBytes]; omega) h.id h.flags hordinary h.questions h.agree
  exact ⟨hread, hanswer, rfl, rfl, rfl, rfl⟩

theorem Echo.writeFlags (hparse : parseDns query = .ok q) (h : Echo query q flags reply)
    {other : Nat} (hother : other < 65536) :
    Echo query q other (writeUInt16 reply 2 other) := by
  have hlong := h.long
  have hstop := (readQuestion_stop (parseDns_question hparse)).1
  have hbefore : ∀ j, j < 2 → (writeUInt16 reply 2 other)[j]? = reply[j]? :=
    fun j hj => writeAt_before (by omega) hj
  have hbehind : ∀ j, 4 ≤ j → (writeUInt16 reply 2 other)[j]? = reply[j]? :=
    fun j hj => writeAt_behind (by omega) hj
  have hlength : (writeUInt16 reply 2 other).length = reply.length :=
    writeAt_length (by rw [Bytes.ofUInt16_length]; omega)
  constructor
  · rw [hlength]
    exact h.short
  · rw [hlength]
    exact h.long
  · rw [readUInt16_congr (hbefore 0 (by omega)) (hbefore 1 (by omega))]
    exact h.id
  · exact readUInt16_writeUInt16 (by omega) hother
  · rw [readUInt16_congr (hbehind 4 (by omega)) (hbehind 5 (by omega))]
    exact h.questions
  · intro i hlow hhigh
    rw [hbehind i (by omega)]
    exact h.agree i hlow hhigh

/-- The flags that `dnsFailure` writes. -/
def failureFlags (flags rcode : Nat) (truncated : Bool) : Nat :=
  0x8080 ||| (flags &&& 0x0110) ||| (rcode % 16) ||| if truncated then 0x0200 else 0

theorem failureFlags_lt (flags rcode : Nat) (truncated : Bool) :
    failureFlags flags rcode truncated < 65536 := by
  have hquery : flags &&& 0x0110 < 2 ^ 16 := Nat.lt_of_le_of_lt Nat.and_le_right (by decide)
  have hcode : rcode % 16 < 2 ^ 16 := Nat.lt_of_lt_of_le (Nat.mod_lt _ (by decide)) (by decide)
  have hbit : (if truncated then 0x0200 else 0) < 2 ^ 16 := by cases truncated <;> decide
  exact Nat.or_lt_two_pow (Nat.or_lt_two_pow (Nat.or_lt_two_pow (by decide) hquery) hcode) hbit

theorem failureFlags_bits (flags rcode : Nat) (truncated : Bool) :
    failureFlags flags rcode truncated &&& 0x7840 = 0 ∧
      failureFlags flags rcode truncated &&& 0x8000 ≠ 0 := by
  have hcode : ∀ code, code < 16 → code &&& 0x7840 = 0 ∧ code &&& 0x8000 = 0 := by decide
  obtain ⟨hlow, hhigh⟩ := hcode (rcode % 16) (Nat.mod_lt _ (by decide))
  have hquery : flags &&& 0x0110 &&& 0x7840 = 0 ∧ flags &&& 0x0110 &&& 0x8000 = 0 := by
    rw [Nat.and_assoc, Nat.and_assoc]
    exact ⟨Nat.and_zero flags, Nat.and_zero flags⟩
  unfold failureFlags
  simp only [Nat.and_or_distrib_right, hlow, hhigh, hquery]
  cases truncated <;> decide

theorem failureHead_echo (hquery : parseDnsQuery query = .ok q) (rcode : Nat) (truncated : Bool) :
    (failureHead query q rcode truncated).length = q.question.stop ∧
      Echo query q (failureFlags q.flags rcode truncated)
        (failureHead query q rcode truncated) := by
  obtain ⟨hparse, hplain⟩ := parseDnsQuery_parse hquery
  obtain ⟨hlow, hroom, hshort⟩ := readQuestion_stop (parseDns_question hparse)
  obtain ⟨hid, hquestions⟩ := readQuestion_header (parseDns_question hparse)
  have hcut : (query.take q.question.stop).length = q.question.stop := length_take_of_le hroom
  have hin : ∀ j, j < q.question.stop → (query.take q.question.stop)[j]? = query[j]? :=
    fun j hj => getElem?_take_of_lt hj
  have hflags : (writeUInt16 (query.take q.question.stop) 2
      (failureFlags q.flags rcode truncated)).length = q.question.stop :=
    (writeAt_length (by rw [Bytes.ofUInt16_length]; omega)).trans hcut
  have hlength : (failureHead query q rcode truncated).length = q.question.stop :=
    (writeAt_length (by
      change 6 + 6 ≤ (writeUInt16 (query.take q.question.stop) 2
        (failureFlags q.flags rcode truncated)).length
      omega)).trans hflags
  have hfront : ∀ j, j < 6 → (failureHead query q rcode truncated)[j]? =
      (writeUInt16 (query.take q.question.stop) 2 (failureFlags q.flags rcode truncated))[j]? :=
    fun j hj => writeAt_before (Nat.le_of_lt (Nat.lt_of_lt_of_eq (by omega) hflags.symm)) hj
  have hback : ∀ j, 12 ≤ j → (failureHead query q rcode truncated)[j]? =
      (writeUInt16 (query.take q.question.stop) 2 (failureFlags q.flags rcode truncated))[j]? :=
    fun j hj => writeAt_behind (Nat.le_of_lt (Nat.lt_of_lt_of_eq (by omega) hflags.symm))
      (by simpa using hj)
  have hbefore : ∀ j, j < 2 → (writeUInt16 (query.take q.question.stop) 2
      (failureFlags q.flags rcode truncated))[j]? = query[j]? := fun j hj =>
    (writeAt_before (by omega) hj).trans (hin j (by omega))
  have hbehind : ∀ j, 4 ≤ j → j < q.question.stop → (writeUInt16 (query.take q.question.stop) 2
      (failureFlags q.flags rcode truncated))[j]? = query[j]? := fun j hj hstop =>
    (writeAt_behind (by omega) (by simpa using hj)).trans (hin j hstop)
  refine ⟨hlength, ?_⟩
  constructor
  · have := hshort hplain
    omega
  · exact hlength.ge
  · rw [readUInt16_congr ((hfront 0 (by omega)).trans (hbefore 0 (by omega)))
      ((hfront 1 (by omega)).trans (hbefore 1 (by omega)))]
    exact hid
  · rw [readUInt16_congr (hfront 2 (by omega)) (hfront 3 (by omega))]
    exact readUInt16_writeUInt16 (by omega) (failureFlags_lt _ _ _)
  · rw [readUInt16_congr ((hfront 4 (by omega)).trans (hbehind 4 (by omega) (by omega)))
      ((hfront 5 (by omega)).trans (hbehind 5 (by omega) (by omega)))]
    exact hquestions
  · intro i hmin hmax
    exact ((hback i hmin).trans (hbehind i (by omega) hmax)).symm

theorem dnsFailure_echo (hquery : parseDnsQuery query = .ok q) {rcode : Nat} (truncated : Bool)
    (hmax : rcode ≤ 4095) (hcode : rcode ≤ 15 ∨ q.edns.isSome = true) :
    ∃ reply, dnsFailure query rcode truncated = .ok reply ∧
      Echo query q (failureFlags q.flags rcode truncated) reply := by
  obtain ⟨hlength, hhead⟩ := failureHead_echo hquery rcode truncated
  obtain ⟨hparse, hplain⟩ := parseDnsQuery_parse hquery
  obtain ⟨hlow, hroom, hshort⟩ := readQuestion_stop (parseDns_question hparse)
  have hallowed : need (rcode ≤ 4095 && (rcode ≤ 15 || q.edns.isSome)) = .ok () :=
    need_eq_ok.mpr (by simpa using ⟨hmax, hcode⟩)
  unfold dnsFailure
  rw [hquery, ok_bind, hallowed, ok_bind]
  cases hopt : q.records.find? fun rr => rr.type = 41 with
  | none => exact ⟨_, rfl, hhead⟩
  | some opt =>
    refine ⟨_, rfl, ?_⟩
    have hwritten : (writeUInt16 (failureHead query q rcode truncated) 10 1).length =
        q.question.stop := (writeAt_length (by rw [Bytes.ofUInt16_length]; omega)).trans hlength
    have hsame : ∀ j, j < q.question.stop → j < 10 ∨ 12 ≤ j →
        (writeUInt16 (failureHead query q rcode truncated) 10 1 ++
          optBytes q.udpSize rcode opt.ttl)[j]? = (failureHead query q rcode truncated)[j]? := by
      intro j hstop hside
      rw [getElem?_append_left (by omega)]
      rcases hside with hbefore | hbehind
      · exact writeAt_before (by omega) hbefore
      · exact writeAt_behind (by omega) (by simpa using hbehind)
    constructor
    · have hfit := hshort hplain
      rw [length_append, hwritten]
      change q.question.stop + 11 ≤ 282
      omega
    · rw [length_append, hwritten]
      exact Nat.le_add_right _ _
    · rw [readUInt16_congr (hsame 0 (by omega) (by omega)) (hsame 1 (by omega) (by omega))]
      exact hhead.id
    · rw [readUInt16_congr (hsame 2 (by omega) (by omega)) (hsame 3 (by omega) (by omega))]
      exact hhead.flags
    · rw [readUInt16_congr (hsame 4 (by omega) (by omega)) (hsame 5 (by omega) (by omega))]
      exact hhead.questions
    · intro i hmin hstop
      rw [hsame i hstop (.inr hmin)]
      exact hhead.agree i hmin hstop

end Echo

theorem dnsFailure_answers {query : Bytes} {q : Message} (hquery : parseDnsQuery query = .ok q)
    {rcode : Nat} (truncated : Bool) (hmax : rcode ≤ 4095)
    (hcode : rcode ≤ 15 ∨ q.edns.isSome = true) :
    ∃ reply r, dnsFailure query rcode truncated = .ok reply ∧ reply.length ≤ 282 ∧
      Answers q reply r := by
  obtain ⟨reply, hreply, hecho⟩ := dnsFailure_echo hquery truncated hmax hcode
  obtain ⟨hordinary, hanswer⟩ := failureFlags_bits q.flags rcode truncated
  exact ⟨reply, _, hreply, hecho.short, hecho.answers hquery hordinary hanswer⟩

theorem validate_message {query response : Bytes} {r : Message}
    (h : validateDnsResponse response query = .ok r) :
    ∃ q, parseDnsQuery query = .ok q ∧ parseDns response = .ok r ∧
      Answers q response r.question ∧ (∀ edns ∈ r.edns, q.edns.isSome = true) := by
  simp only [validateDnsResponse, bind_eq_ok, need_eq_ok, Bool.and_eq_true, decide_eq_true_eq,
    pure_eq_ok] at h
  obtain ⟨q, hq, found, hfound, -, ⟨⟨⟨⟨hanswer, hid⟩, hkey⟩, htype⟩, hklass⟩, -, hedns, rfl⟩ := h
  refine ⟨q, hq, hfound, ⟨parseDns_question hfound, hanswer, hid, hkey, htype, hklass⟩, ?_⟩
  intro edns hmem
  rw [Option.mem_def] at hmem
  rw [hmem, Option.all_some, Bool.and_eq_true] at hedns
  exact hedns.1

theorem truncate_answers {query response : Bytes}
    (h : validateDnsResponse response query = .ok m) :
    ∃ q reply r, parseDnsQuery query = .ok q ∧ truncateDnsResponse query response = .ok reply ∧
      reply.length ≤ 282 ∧ Answers q reply r := by
  obtain ⟨q, hquery, hparse, -, hedns⟩ := validate_message h
  have hcode : m.rcode ≤ 4095 ∧ (m.rcode ≤ 15 ∨ q.edns.isSome = true) := by
    unfold Message.rcode
    cases hsome : m.edns with
    | none =>
      simp only [Option.elim_none]
      omega
    | some edns =>
      have height := (parseDns_edns hparse).1 edns hsome
      simp only [Option.elim_some]
      exact ⟨by omega, .inr (hedns edns hsome)⟩
  obtain ⟨reply, hreply, hecho⟩ := dnsFailure_echo hquery true hcode.1 hcode.2
  have hflags : 0x8200 ||| (m.flags &&& 0x019f) < 65536 :=
    Nat.or_lt_two_pow (n := 16) (by decide) (Nat.lt_of_le_of_lt Nat.and_le_right (by decide))
  have hbits : (0x8200 ||| (m.flags &&& 0x019f)) &&& 0x7840 = 0 ∧
      (0x8200 ||| (m.flags &&& 0x019f)) &&& 0x8000 ≠ 0 := by
    rw [Nat.and_or_distrib_right, Nat.and_or_distrib_right, Nat.and_assoc, Nat.and_assoc]
    change 0 ||| (m.flags &&& 0) = 0 ∧ 0x8000 ||| (m.flags &&& 0) ≠ 0
    rw [Nat.and_zero]
    decide
  have hwritten := hecho.writeFlags (parseDnsQuery_parse hquery).1 hflags
  refine ⟨q, _, _, hquery, ?_, hwritten.short, hwritten.answers hquery hbits.1 hbits.2⟩
  simp only [truncateDnsResponse, h, hreply, ok_bind]
  rfl

theorem ageRecord_writes {packet aged : Bytes} {rcode seconds : Nat} {rr : Record}
    (h : ageRecord rcode seconds packet rr = .ok aged) :
    aged = packet ∨ ∃ ttl, aged = writeUInt32 packet (rr.offset - 6) ttl := by
  unfold ageRecord at h
  split at h
  · cases h
    exact .inl rfl
  · rw [bind_eq_ok] at h
    obtain ⟨ttl, -, h⟩ := h
    rw [pure_eq_ok] at h
    exact .inr ⟨ttl - seconds, h.symm⟩

theorem ageDnsResponse_region {packet aged : Bytes} {seconds : Nat}
    (hparse : parseDns packet = .ok m) (h : ageDnsResponse packet seconds = .ok aged) :
    aged.length = packet.length ∧
      ∀ i, i < m.question.stop → aged[i]? = packet[i]? := by
  simp only [ageDnsResponse, bind_eq_ok, hparse, Except.ok.injEq] at h
  obtain ⟨-, -, m', rfl, h⟩ := h
  refine foldlM_keeps (P := fun b : Bytes => b.length = packet.length ∧
    ∀ i, i < m.question.stop → b[i]? = packet[i]?) (fun rr hrr b b' hstep hb => ?_)
    ⟨rfl, fun _ _ => rfl⟩ h
  obtain ⟨hbehind, hinside⟩ := parseDns_records hparse rr hrr
  rcases ageRecord_writes hstep with rfl | ⟨ttl, rfl⟩
  · exact hb
  have hroom : rr.offset - 6 + 4 ≤ b.length := by
    rw [hb.1]
    omega
  refine ⟨(writeAt_length (by rw [Bytes.ofUInt32_length]; exact hroom)).trans hb.1, ?_⟩
  intro i hi
  exact (writeAt_before (by omega) (by omega)).trans (hb.2 i hi)

theorem ageDnsResponse_question {packet aged : Bytes} {seconds : Nat}
    (hparse : parseDns packet = .ok m) (h : ageDnsResponse packet seconds = .ok aged)
    (hplain : m.question.name.compressed = false) :
    readQuestion aged = .ok m.question := by
  obtain ⟨hlength, hsame⟩ := ageDnsResponse_region hparse h
  have hquestion := parseDns_question hparse
  obtain ⟨hlow, hroom, -⟩ := readQuestion_stop hquestion
  have hread : ∀ i n, i + 1 < m.question.stop → readUInt16 packet i = .ok n →
      readUInt16 aged i = .ok n := fun i n hi hn =>
    (readUInt16_congr (hsame i (by omega)) (hsame (i + 1) hi)).trans hn
  obtain ⟨hid, hquestions⟩ := readQuestion_header hquestion
  have hflags : readUInt16 packet 2 = .ok m.question.flags ∧ m.question.flags &&& 0x7840 = 0 := by
    simp only [readQuestion, bind_eq_ok, need_eq_ok, Bool.and_eq_true, decide_eq_true_eq,
      pure_eq_ok] at hquestion
    obtain ⟨_, -, flags, hflags, _, -, _, ⟨hordinary, -⟩, _, -, _, -, _, -, _, -, _, -, _, -,
      heq⟩ := hquestion
    rw [← heq]
    exact ⟨hflags, hordinary⟩
  exact readQuestion_region hquestion hplain (hlength ▸ hroom)
    (hlength ▸ (readQuestion_length hquestion).2) (hread 0 _ (by omega) hid)
    (hread 2 _ (by omega) hflags.1) hflags.2 (hread 4 _ (by omega) hquestions)
    fun i hmin hstop => (hsame i hstop).symm

end Meshpn.Dns.Wire
