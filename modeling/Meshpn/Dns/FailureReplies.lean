import Meshpn.Dns.Parsing

/-!
The replies that `dnsFailure` and `truncateDnsResponse` build. Behind the header and the
question of the query stands nothing or one OPT record, so that a reply reads back as the
question, the flags that were written, and the two halves of its code.
-/

namespace Meshpn.Dns.Wire

open Meshpn.Lib Meshpn.Lib.Fallible Meshpn.Lib.DomainName

/-- The TTL field of the record: the high bits of the code, and the flag DO. -/
def optTtl (rcode ttl : Nat) : Nat := rcode / 16 * 0x1000000 + (ttl &&& 0x8000)

section

variable {size rcode ttl : Nat}

theorem optTtl_parts (ttl : Nat) (hcode : rcode ≤ 4095) :
    optTtl rcode ttl < 4294967296 ∧ optTtl rcode ttl / 16777216 = rcode / 16 ∧
      optTtl rcode ttl / 65536 % 256 = 0 := by
  have hflag : ttl &&& 0x8000 ≤ 0x8000 := Nat.and_le_right
  unfold optTtl
  omega

theorem optBytes_type : readUInt16 (optBytes size rcode ttl) 1 = .ok 41 := rfl

theorem optBytes_klass (hsize : size < 65536) :
    readUInt16 (optBytes size rcode ttl) 3 = .ok size :=
  congrArg Except.ok (Bytes.toUInt16_ofNat hsize)

theorem optBytes_ttl (hcode : rcode ≤ 4095) :
    readUInt32 (optBytes size rcode ttl) 5 = .ok (optTtl rcode ttl) :=
  congrArg Except.ok (Bytes.toUInt32_ofNat (optTtl_parts ttl hcode).1)

theorem optBytes_data : readUInt16 (optBytes size rcode ttl) 9 = .ok 0 := rfl

end

/-- The OPT record of a reply, which begins at `stop`. -/
def optRecord (stop size rcode ttl : Nat) : Record :=
  ⟨2, 41, size, optTtl rcode ttl, stop + 11, 0⟩

theorem nameAt_root {packet : Bytes} {start : Nat} (h : packet[start]? = some 0) :
    nameAt packet start = .ok ⟨[], start + 1, false⟩ := by
  rw [nameAt, nameLoop, nameStep_finish rfl h]
  rfl

theorem readRecord_opt {packet : Bytes} {stop size rcode ttl : Nat} (hsize : size < 65536)
    (hcode : rcode ≤ 4095) (hopt : packet.drop stop = optBytes size rcode ttl) :
    readRecord packet ⟨stop, 512, none, []⟩ 2 = .ok
      ⟨packet.length, min udpMaxBytes (max 512 size),
        some (ednsOf (optRecord stop size rcode ttl)), [optRecord stop size rcode ttl]⟩ := by
  have hlength : packet.length = stop + 11 := by
    have hdrop := congrArg List.length hopt
    rw [List.length_drop] at hdrop
    change packet.length - stop = 11 at hdrop
    omega
  have hroot : packet[stop]? = some 0 := by
    rw [← Nat.add_zero stop, ← List.getElem?_drop, hopt]
    rfl
  have hread : ∀ k, readUInt16 packet (stop + 1 + k) =
      readUInt16 (optBytes size rcode ttl) (1 + k) := fun k => by
    rw [← hopt, readUInt16_drop, Nat.add_assoc]
  refine readRecord_iff.mpr ⟨⟨[], stop + 1, false⟩, optRecord stop size rcode ttl,
    { owner := nameAt_root hroot
      record := ⟨(hread 0).trans optBytes_type, (hread 2).trans (optBytes_klass hsize), ?_,
        (hread 8).trans optBytes_data, rfl, hlength.ge⟩
      part := rfl
      address := fun h => by cases h
      address6 := fun h => by cases h
      noted := ⟨_, rfl, ?_⟩ }⟩
  · rw [Nat.add_assoc, ← readUInt32_drop, hopt]
    exact optBytes_ttl hcode
  · rw [hlength]
    rfl

/-- A reply with the question of the query, and what its additional section holds. -/
structure Framed (query : Bytes) (q : Message) (flags rcode : Nat) (reply : Bytes) : Prop where
  echo : Echo query q flags reply
  answers : readUInt16 reply 6 = .ok 0
  authorities : readUInt16 reply 8 = .ok 0
  additional : (q.edns = none ∧ readUInt16 reply 10 = .ok 0 ∧ reply.length = q.question.stop) ∨
    (q.edns.isSome = true ∧ readUInt16 reply 10 = .ok 1 ∧
      ∃ ttl, reply.drop q.question.stop = optBytes q.udpSize rcode ttl)

section Framed

variable {query reply : Bytes} {q : Message} {flags rcode : Nat}

theorem failureHead_counts (hroom : 12 ≤ (query.take q.question.stop).length) (truncated : Bool)
    {i : Nat} (hlow : 6 ≤ i) (hhigh : i ≤ 10) :
    readUInt16 (failureHead query q rcode truncated) i = .ok 0 := by
  have hzero : ∀ j, j < 6 → (failureHead query q rcode truncated)[6 + j]? = some 0 := by
    intro j hj
    have hlength : (writeUInt16 (query.take q.question.stop) 2
        (failureFlags q.flags rcode truncated)).length = (query.take q.question.stop).length :=
      writeAt_length (by rw [Bytes.ofUInt16_length]; omega)
    refine (writeAt_inside (Nat.le_of_lt (Nat.lt_of_lt_of_le (by omega) (hlength ▸ hroom)))
      (by simpa using hj)).trans ?_
    rw [List.getElem?_replicate, if_pos hj]
  obtain ⟨j, rfl⟩ := Nat.exists_eq_add_of_le hlow
  rw [readUInt16, byteAt, byteAt, hzero j (by omega), Nat.add_assoc, hzero (j + 1) (by omega)]
  rfl

theorem dnsFailure_framed (hquery : parseDnsQuery query = .ok q) (truncated : Bool)
    (hmax : rcode ≤ 4095) (hcode : rcode ≤ 15 ∨ q.edns.isSome = true) :
    ∃ reply, dnsFailure query rcode truncated = .ok reply ∧
      Framed query q (failureFlags q.flags rcode truncated) rcode reply := by
  obtain ⟨reply, hreply, hecho⟩ := dnsFailure_echo hquery truncated hmax hcode
  refine ⟨reply, hreply, ?_⟩
  obtain ⟨hparse, -⟩ := parseDnsQuery_parse hquery
  obtain ⟨hlow, hinside, -⟩ := readQuestion_stop (parseDns_question hparse)
  have hlength := (failureHead_echo hquery rcode truncated).1
  have hroom : 12 ≤ (query.take q.question.stop).length := by
    rw [List.length_take_of_le hinside]
    omega
  have hcounts := @failureHead_counts query q rcode hroom truncated
  have hopt := parseDns_opt hparse
  simp only [dnsFailure, bind_eq_ok, hquery, Except.ok.injEq] at hreply
  obtain ⟨_, rfl, -, -, hreply⟩ := hreply
  cases hfind : q.records.find? fun rr => rr.type = 41 with
  | none =>
    rw [hfind] at hreply hopt
    cases pure_eq_ok.mp hreply
    exact ⟨hecho, hcounts (by omega) (by omega), hcounts (by omega) (by omega),
      .inl ⟨hopt, hcounts (by omega) (by omega), hlength⟩⟩
  | some opt =>
    rw [hfind] at hreply hopt
    cases pure_eq_ok.mp hreply
    have hwritten : (writeUInt16 (failureHead query q rcode truncated) 10 1).length =
        q.question.stop := (writeAt_length (by rw [Bytes.ofUInt16_length]; omega)).trans hlength
    have hsame : ∀ j, j < 10 → (writeUInt16 (failureHead query q rcode truncated) 10 1 ++
        optBytes q.udpSize rcode opt.ttl)[j]? = (failureHead query q rcode truncated)[j]? := by
      intro j hj
      rw [List.getElem?_append_left (by omega)]
      exact writeAt_before (by omega) hj
    refine ⟨hecho, ?_, ?_, .inr ⟨by rw [hopt]; rfl, ?_, opt.ttl, ?_⟩⟩
    · rw [readUInt16_congr (hsame 6 (by omega)) (hsame 7 (by omega))]
      exact hcounts (by omega) (by omega)
    · rw [readUInt16_congr (hsame 8 (by omega)) (hsame 9 (by omega))]
      exact hcounts (by omega) (by omega)
    · rw [readUInt16_congr (List.getElem?_append_left (by omega))
        (List.getElem?_append_left (by omega))]
      exact readUInt16_writeUInt16 (by omega) (by decide)
    · rw [← hwritten, List.drop_left]

theorem Framed.writeFlags (hparse : parseDns query = .ok q) (h : Framed query q flags rcode reply)
    {other : Nat} (hother : other < 65536) :
    Framed query q other rcode (writeUInt16 reply 2 other) := by
  have hlong := h.echo.long
  have hstop := (readQuestion_stop (parseDns_question hparse)).1
  have hlength : (writeUInt16 reply 2 other).length = reply.length :=
    writeAt_length (by rw [Bytes.ofUInt16_length]; omega)
  have hbehind : ∀ j, 4 ≤ j → (writeUInt16 reply 2 other)[j]? = reply[j]? :=
    fun j hj => writeAt_behind (by omega) hj
  have hread : ∀ i, 4 ≤ i → readUInt16 (writeUInt16 reply 2 other) i = readUInt16 reply i :=
    fun i hi => readUInt16_congr (hbehind i hi) (hbehind (i + 1) (by omega))
  refine ⟨h.echo.writeFlags hparse hother, (hread 6 (by omega)).trans h.answers,
    (hread 8 (by omega)).trans h.authorities, ?_⟩
  rw [hread 10 (by omega), hlength]
  rcases h.additional with hnone | ⟨hsome, hcount, ttl, hopt⟩
  · exact .inl hnone
  refine .inr ⟨hsome, hcount, ttl, ?_⟩
  rw [← hopt]
  apply List.ext_getElem?
  intro j
  rw [List.getElem?_drop, List.getElem?_drop]
  exact hbehind _ (by omega)

/-- What a reply reads back as. -/
structure Replied (q : Message) (flags rcode : Nat) (r : Message) : Prop where
  question : r.question = { q.question with flags := flags }
  counts : r.counts = [0, 0, if q.edns.isSome then 1 else 0]
  records : r.records.map Record.type = if q.edns.isSome then [41] else []
  edns : r.edns.isSome = q.edns.isSome ∧
    ∀ edns, r.edns = some edns → edns.extendedRcode = rcode / 16 ∧ edns.version = 0

theorem Framed.parse (hquery : parseDnsQuery query = .ok q) (h : Framed query q flags rcode reply)
    (hordinary : flags &&& 0x7840 = 0) (hcode : rcode ≤ 4095) :
    ∃ r, parseDns reply = .ok r ∧ Replied q flags rcode r := by
  obtain ⟨hparse, hplain⟩ := parseDnsQuery_parse hquery
  have hshort := h.echo.short
  have hsize := (parseDns_edns hparse).2.2
  have hread := readQuestion_region (parseDns_question hparse) hplain h.echo.long
    (by simp only [maxBytes]; omega) h.echo.id h.echo.flags hordinary h.echo.questions h.echo.agree
  simp only [parseDns, hread, h.answers, h.authorities, ok_bind]
  rcases h.additional with ⟨hnone, hcount, hend⟩ | ⟨hsome, hcount, ttl, hopt⟩
  · rw [hcount, ok_bind, hend]
    refine ⟨_, by simp [need, parts]; rfl, ⟨rfl, ?_, ?_, ?_⟩⟩
    · rw [hnone]
      rfl
    · rw [hnone]
      rfl
    · rw [hnone]
      exact ⟨rfl, fun edns hedns => by cases hedns⟩
  · have hrecord := readRecord_opt (show q.udpSize < 65536 by
      simp only [udpMaxBytes] at hsize; omega) hcode hopt
    obtain ⟨-, hhigh, hversion⟩ := optTtl_parts ttl hcode
    rw [hcount, ok_bind]
    have hparts : parts [0, 0, 1] = [2] := rfl
    simp only [hparts, List.foldlM_cons, List.foldlM_nil, hrecord]
    refine ⟨_, by simp [need]; rfl, ⟨rfl, ?_, ?_, ?_⟩⟩
    · rw [hsome]
      rfl
    · rw [hsome]
      rfl
    · rw [hsome]
      exact ⟨rfl, fun edns hedns => by cases hedns; exact ⟨hhigh, hversion⟩⟩

end Framed

theorem and_fifteen (n : Nat) : n &&& 15 = n % 16 := Nat.and_two_pow_sub_one_eq_mod n 4

theorem failureFlags_fields (flags rcode : Nat) (truncated : Bool) :
    failureFlags flags rcode truncated % 16 = rcode % 16 ∧
      failureFlags flags rcode truncated &&& 0x0110 = flags &&& 0x0110 ∧
      failureFlags flags rcode truncated &&& 0x0420 = 0 ∧
      (failureFlags flags rcode truncated &&& 0x0200 ≠ 0 ↔ truncated = true) := by
  have hcode : ∀ code < 16, code &&& 15 = code ∧ code &&& 0x0110 = 0 ∧ code &&& 0x0420 = 0 ∧
      code &&& 0x0200 = 0 := by decide
  obtain ⟨hlow, hquery, hclear, hcut⟩ := hcode (rcode % 16) (Nat.mod_lt _ (by decide))
  rw [← and_fifteen]
  unfold failureFlags
  simp only [Nat.and_or_distrib_right, Nat.and_assoc, hlow, hquery, hclear, hcut]
  cases truncated <;> simp

theorem truncatedFlags_fields (flags : Nat) :
    0x8200 ||| (flags &&& 0x019f) < 65536 ∧ (0x8200 ||| (flags &&& 0x019f)) &&& 0x7840 = 0 ∧
      (0x8200 ||| (flags &&& 0x019f)) &&& 0x8000 ≠ 0 ∧
      (0x8200 ||| (flags &&& 0x019f)) % 16 = flags % 16 ∧
      (0x8200 ||| (flags &&& 0x019f)) &&& 0x0110 = flags &&& 0x0110 ∧
      (0x8200 ||| (flags &&& 0x019f)) &&& 0x0420 = 0 ∧
      (0x8200 ||| (flags &&& 0x019f)) &&& 0x0200 ≠ 0 := by
  refine ⟨Nat.or_lt_two_pow (n := 16) (by decide)
    (Nat.lt_of_le_of_lt Nat.and_le_right (by decide)), ?_⟩
  rw [← and_fifteen, ← and_fifteen]
  simp only [Nat.and_or_distrib_right, Nat.and_assoc]
  simp

/-- A valid reply with no records but the OPT record that the query asks for, in a short
message, with neither AA nor AD. -/
structure Synthesised (query : Bytes) (q : Message) (reply : Bytes) (r : Message) : Prop where
  valid : validateDnsResponse reply query = .ok r
  counts : r.counts = [0, 0, if q.edns.isSome then 1 else 0]
  records : r.records.map Record.type = if q.edns.isSome then [41] else []
  short : reply.length ≤ 512
  clear : r.flags &&& 0x0420 = 0

theorem Framed.synthesised {query reply : Bytes} {q : Message} {flags rcode : Nat}
    (hquery : parseDnsQuery query = .ok q) (h : Framed query q flags rcode reply)
    (hordinary : flags &&& 0x7840 = 0) (hanswer : flags &&& 0x8000 ≠ 0)
    (hclear : flags &&& 0x0420 = 0) (hmax : rcode ≤ 4095)
    (hcode : rcode ≤ 15 ∨ q.edns.isSome = true) (hlow : flags % 16 = rcode % 16) :
    ∃ r, Synthesised query q reply r ∧ r.rcode = rcode ∧ r.flags = flags := by
  obtain ⟨r, hparse, hr⟩ := h.parse hquery hordinary hmax
  have hflags : r.flags = flags := congrArg Question.flags hr.question
  have hshort := h.echo.short
  have hsame : r.id = q.id ∧ r.nameKey = q.nameKey ∧ r.question.type = q.question.type ∧
      r.question.klass = q.question.klass := by
    simp only [Message.id, Message.nameKey, hr.question, and_self]
  refine ⟨r, ⟨?_, hr.counts, hr.records, by omega, hflags ▸ hclear⟩, ?_, hflags⟩
  · have hedns : (r.edns.all fun edns => q.edns.isSome && edns.version = 0) = true := by
      rcases hsome : r.edns with _ | edns
      · rfl
      have hquery := hr.edns.1
      rw [hsome, Option.isSome_some] at hquery
      rw [Option.all_some, ← hquery, (hr.edns.2 edns hsome).2]
      rfl
    simp only [validateDnsResponse, hquery, hparse, ok_bind, bind_eq_ok, need_eq_ok,
      Bool.and_eq_true, decide_eq_true_eq, pure_eq_ok]
    exact ⟨(), ⟨⟨⟨⟨hflags ▸ hanswer, hsame.1⟩, hsame.2.1⟩, hsame.2.2.1⟩, hsame.2.2.2⟩, (),
      hedns, trivial⟩
  · rw [Message.rcode, hflags, hlow]
    cases hsome : r.edns with
    | none =>
      have hquery := hr.edns.1
      rw [hsome, Option.isSome_none] at hquery
      rw [← hquery] at hcode
      have hsmall : rcode ≤ 15 := hcode.resolve_right (by decide)
      simp only [Option.elim_none]
      omega
    | some edns =>
      rw [Option.elim_some, (hr.edns.2 edns hsome).1]
      omega

theorem validate_rcode {query response : Bytes} {q m : Message}
    (hquery : parseDnsQuery query = .ok q) (h : validateDnsResponse response query = .ok m) :
    m.rcode ≤ 4095 ∧ (m.rcode ≤ 15 ∨ q.edns.isSome = true) ∧ m.flags % 16 = m.rcode % 16 := by
  obtain ⟨other, hother, hparse, -, hedns⟩ := validate_message h
  cases hquery.symm.trans hother
  unfold Message.rcode
  cases hsome : m.edns with
  | none =>
    simp only [Option.elim_none]
    omega
  | some edns =>
    have hbyte := (parseDns_edns hparse).1 edns hsome
    simp only [Option.elim_some]
    exact ⟨by omega, .inr (hedns edns hsome), by omega⟩

/-- The replies made for an accepted query are valid answers to it, with the code, RD and CD
that they are made for. -/
theorem replies_synthesised (query : Bytes) (q : Message) (hquery : parseDnsQuery query = .ok q) :
    (∀ rcode truncated, rcode ≤ 4095 → (rcode ≤ 15 ∨ q.edns.isSome = true) →
      ∃ reply r, dnsFailure query rcode truncated = .ok reply ∧ Synthesised query q reply r ∧
        r.rcode = rcode ∧ r.flags &&& 0x0110 = q.flags &&& 0x0110 ∧
        (r.flags &&& 0x0200 ≠ 0 ↔ truncated = true)) ∧
    ∀ response m, validateDnsResponse response query = .ok m →
      ∃ reply r, truncateDnsResponse query response = .ok reply ∧ Synthesised query q reply r ∧
        r.rcode = m.rcode ∧ r.flags &&& 0x0110 = m.flags &&& 0x0110 ∧
        r.flags &&& 0x0200 ≠ 0 := by
  constructor
  · intro rcode truncated hmax hcode
    obtain ⟨reply, hreply, hframed⟩ := dnsFailure_framed hquery truncated hmax hcode
    obtain ⟨hordinary, hanswer⟩ := failureFlags_bits q.flags rcode truncated
    obtain ⟨hlow, hkept, hclear, hcut⟩ := failureFlags_fields q.flags rcode truncated
    obtain ⟨r, hr, hrcode, hflags⟩ :=
      hframed.synthesised hquery hordinary hanswer hclear hmax hcode hlow
    exact ⟨reply, r, hreply, hr, hrcode, hflags ▸ hkept, hflags ▸ hcut⟩
  · intro response m hresponse
    obtain ⟨hmax, hcode, hlow⟩ := validate_rcode hquery hresponse
    obtain ⟨reply, hreply, hframed⟩ := dnsFailure_framed hquery true hmax hcode
    obtain ⟨hlt, hordinary, hanswer, hfield, hkept, hclear, hcut⟩ := truncatedFlags_fields m.flags
    have hwritten := hframed.writeFlags (parseDnsQuery_parse hquery).1 hlt
    obtain ⟨r, hr, hrcode, hflags⟩ :=
      hwritten.synthesised hquery hordinary hanswer hclear hmax hcode (hfield.trans hlow)
    refine ⟨_, r, ?_, hr, hrcode, hflags ▸ hkept, hflags ▸ hcut⟩
    simp only [truncateDnsResponse, hresponse, hreply, ok_bind]
    rfl

/-- A query for the root with an OPT record of 1232 bytes, answered with BADVERS. -/
theorem replies_synthesised_root :
    ∃ query reply q r, dnsFailure query 16 false = .ok reply ∧ Synthesised query q reply r ∧
      r.rcode = 16 := by
  have hquery : parseDnsQuery [0, 1, 1, 0, 0, 1, 0, 0, 0, 0, 0, 1, 0, 0, 1, 0, 1,
      0, 0, 41, 4, 208, 0, 1, 0, 0, 0, 0] = .ok
      ⟨⟨1, 256, ⟨[], 13, false⟩, 1, 1, 17⟩, [0, 0, 1], [⟨2, 41, 1232, 65536, 28, 0⟩], 1232,
        some ⟨0, 1, 0⟩⟩ := by decide +kernel
  obtain ⟨reply, r, hreply, hr, hrcode, -⟩ :=
    (replies_synthesised _ _ hquery).1 16 false (by decide) (.inr rfl)
  exact ⟨_, reply, _, r, hreply, hr, hrcode⟩

end Meshpn.Dns.Wire
