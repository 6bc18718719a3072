import Meshpn.Device.DnsLabels

/-!
`meshvpn_dns_reply`: its question is copied up to where it ends. What is read from the copy
is the question of the query as long as no label of the name goes beyond that end; a name
that a pointer leads back into may run over the pointer itself and past it.
-/

namespace Meshpn.Device.Dns

open Meshpn.Lib

/-- The messages have the same bytes behind the header, as far as `m`. -/
def Agree (p other : Bytes) (m : Nat) : Prop :=
  ∀ i, 12 ≤ i → i < m → p.getD i 0 = other.getD i 0

section Agree

variable {p other : Bytes} {m : Nat}

theorem Agree.byteAt (h : Agree p other m) {i : Nat} (hlow : 12 ≤ i) (hhigh : i < m) :
    byteAt p i = byteAt other i := congrArg UInt8.toNat (h i hlow hhigh)

theorem Agree.wordAt (h : Agree p other m) {i : Nat} (hlow : 12 ≤ i) (hhigh : i + 1 < m) :
    wordAt p i = wordAt other i := by
  rw [Dns.wordAt, Dns.wordAt, h i hlow (by omega), h (i + 1) (by omega) hhigh]

theorem Agree.piece (h : Agree p other m) (hp : m ≤ p.length) (hother : m ≤ other.length) {i n : Nat}
    (hlow : 12 ≤ i) (hhigh : i + n ≤ m) : (p.drop i).take n = (other.drop i).take n := by
  apply List.ext_getElem?
  intro j
  rw [List.getElem?_take, List.getElem?_take, List.getElem?_drop, List.getElem?_drop]
  by_cases hj : j < n
  case neg => rw [if_neg hj, if_neg hj]
  have hsame := h (i + j) (by omega) (by omega)
  rw [List.getD_eq_getElem?_getD, List.getD_eq_getElem?_getD,
    List.getElem?_eq_getElem (by omega), List.getElem?_eq_getElem (by omega)] at hsame
  rw [if_pos hj, if_pos hj, List.getElem?_eq_getElem (by omega), List.getElem?_eq_getElem (by omega)]
  exact congrArg some hsame

theorem Spells.mono {off stop reach : Nat} {labels : List Bytes}
    (hs : Spells p off labels stop reach) (h : Agree p other p.length)
    (hlength : p.length ≤ other.length) (hoff : 12 ≤ off) : Spells other off labels stop reach := by
  induction hs with
  | root hin hzero => exact .root (by omega) (by rwa [← h.byteAt hoff hin])
  | @label off stop reach labels hpos hsmall hin _ ih =>
    have hbyte := h.byteAt hoff (show off < p.length by omega)
    have hlabel : labelAt p off = labelAt other off := by
      rw [labelAt, labelAt, ← hbyte]
      exact h.piece (Nat.le_refl _) hlength (by omega) (by omega)
    have hrest := ih (by omega)
    rw [hbyte] at hpos hsmall hin hrest
    rw [hlabel]
    exact .label hpos hsmall (by omega) hrest
  | @pointer off stop reach labels hin hhigh hlow hback _ ih =>
    have hbyte := h.byteAt hoff (show off < p.length by omega)
    have htarget : targetAt p off = targetAt other off := by
      rw [targetAt, targetAt, hbyte, h.byteAt (by omega) hin]
    have hrest := ih hlow
    rw [hbyte] at hhigh
    rw [htarget] at hlow hback hrest
    exact .pointer (by omega) hhigh hlow hback hrest

/-- What the loop finds ahead of `m` it finds in every message that is the same up to there. -/
theorem questionLoop_agree (h : Agree p other m) (hp : m ≤ p.length) (hother : m ≤ other.length)
    {hops off stop last reach : Nat} {name : Bytes} {labels : List Bytes} {q : Question}
    (hs : Spells p off labels last reach) (hread : questionLoop p hops off name stop = some q)
    (hoff : 12 ≤ off) (hstop : stop = 0 ∨ 12 ≤ stop) (hreach : reach ≤ m) (hend : q.stop ≤ m) :
    questionLoop other hops off name stop = some q := by
  induction hops generalizing off name stop labels last reach with
  | zero => cases hread
  | succ hops ih =>
    have hin := hs.reach_le
    have hbyte := h.byteAt hoff (show off < m by omega)
    rw [questionLoop, if_neg (by omega)] at hread ⊢
    dsimp only at hread ⊢
    rw [← hbyte]
    cases hs with
    | root _ hzero =>
      have hplain : ¬192 ≤ byteAt p off := by omega
      have hfits : ¬(63 < byteAt p off ∨ p.length < off + 1 + byteAt p off) := by omega
      have hfits' : ¬(63 < byteAt p off ∨ other.length < off + 1 + byteAt p off) := by omega
      rw [if_neg hplain, if_neg hfits, if_pos hzero] at hread
      rw [if_neg hplain, if_neg hfits', if_pos hzero]
      have hlast : 12 ≤ (if stop = 0 then off + 1 else stop) := by
        split <;> omega
      generalize (if stop = 0 then off + 1 else stop) = stop at hread hlast ⊢
      split at hread
      case isTrue => cases hread
      obtain rfl := Option.some.inj hread
      change stop + 4 ≤ m at hend
      rw [if_neg (by omega), ← h.wordAt hlast (by omega), ← h.wordAt (by omega) (by omega)]
    | @label _ _ _ labels hpos hsmall hlabel hrest =>
      have hplain : ¬192 ≤ byteAt p off := by omega
      have hroom := hrest.reach_le.1
      have hfits : ¬(63 < byteAt p off ∨ p.length < off + 1 + byteAt p off) := by omega
      have hfits' : ¬(63 < byteAt p off ∨ other.length < off + 1 + byteAt p off) := by omega
      have hpiece := h.piece hp hother (show 12 ≤ off + 1 by omega)
        (show off + 1 + byteAt p off ≤ m by omega)
      rw [if_neg hplain, if_neg hfits, if_neg (by omega)] at hread
      rw [if_neg hplain, if_neg hfits', if_neg (by omega), ← hpiece]
      split at hread
      case isTrue => cases hread
      rename_i hname
      split at hread
      case isTrue => cases hread
      rename_i hclean
      rw [if_neg hname, if_neg hclean]
      exact ih hrest hread (by omega) hstop hreach
    | @pointer _ _ reach _ hlast hhigh hlow hback hrest =>
      have htarget : 256 * (byteAt p off % 64) + byteAt p (off + 1) =
          256 * (byteAt p off % 64) + byteAt other (off + 1) := by
        rw [h.byteAt (show 12 ≤ off + 1 by omega) (by omega)]
      rw [if_pos hhigh, if_neg (by omega)] at hread ⊢
      rw [← htarget]
      have hgood : ¬(off ≤ targetAt p off ∨ targetAt p off < 12) := by omega
      rw [targetAt] at hgood
      rw [if_neg hgood] at hread ⊢
      refine ih hrest hread hlow ?_ (by omega)
      split <;> omega

end Agree

/-- An address is given for an A/IN question, without an error and in full. -/
def answers (q : Question) (rcode : Nat) (truncated : Bool) (ipv4 : Vector UInt8 4) : Bool :=
  ipv4.toList.any (· != 0) && q.type == 1 && q.klass == 1 && rcode == 0 && !truncated

def addressRecord (ipv4 : Vector UInt8 4) : Bytes :=
  [0xc0, 0x0c, 0, 1, 0, 1, 0, 0, 0, 30, 0, 4] ++ ipv4.toList

def replyFront (query : Bytes) (stop flags code count : Nat) : Bytes :=
  query.take 2 ++ [UInt8.ofNat flags, UInt8.ofNat code] ++ (query.drop 4).take 2 ++
    [0, UInt8.ofNat count, 0, 0, 0, 0] ++ (query.take stop).drop 12

/-- What the claim asks of a reply that is not empty. -/
structure Answers (query : Bytes) (q : Question) (answer : Bool) (ipv4 : Vector UInt8 4)
    (out : Bytes) : Prop where
  id : wordAt out 0 = wordAt query 0
  question : ∃ q', question out = some q' ∧ q'.name = q.name ∧ q'.type = q.type ∧ q'.klass = q.klass
  records : wordAt out 6 = answer.toNat
  authority : wordAt out 8 = 0
  additional : wordAt out 10 = 0
  record : out.drop q.stop = if answer then addressRecord ipv4 else []

theorem reply_eq {query : Bytes} {q : Question} (h : question query = some q) (cap rcode : Nat)
    (truncated : Bool) (ipv4 : Vector UInt8 4) :
    let answer := answers q rcode truncated ipv4
    reply query cap rcode truncated ipv4 =
      if cap < q.stop + (if answer then 16 else 0) then []
      else
        replyFront query q.stop (128 + byteAt query 2 % 2 + if truncated then 2 else 0)
          (128 + rcode % 16) answer.toNat ++ if answer then addressRecord ipv4 else [] := by
  rw [reply, h]
  dsimp only
  rw [← answers]
  cases answers q rcode truncated ipv4 with
  | true => simp [replyFront, addressRecord]
  | false => simp [replyFront]

section Front

variable {query : Bytes} {stop flags code count : Nat}

theorem replyFront_cons (h : 12 ≤ query.length) :
    replyFront query stop flags code count = query.getD 0 0 :: query.getD 1 0 :: UInt8.ofNat flags ::
      UInt8.ofNat code :: query.getD 4 0 :: query.getD 5 0 :: 0 :: UInt8.ofNat count :: 0 :: 0 :: 0 ::
      0 :: (query.take stop).drop 12 := by
  match query, h with
  | b0 :: b1 :: b2 :: b3 :: b4 :: b5 :: rest, _ => rfl

theorem replyFront_length (h : stop ≤ query.length) (hstop : 12 ≤ stop) :
    (replyFront query stop flags code count).length = stop := by
  rw [replyFront_cons (by omega)]
  simp only [List.length_cons, List.length_drop, List.length_take]
  omega

theorem replyFront_agree (h : stop ≤ query.length) (hstop : 12 ≤ stop) (rest : Bytes) :
    Agree query (replyFront query stop flags code count ++ rest) stop := by
  intro i hlow hhigh
  obtain ⟨j, rfl⟩ : ∃ j, i = j + 12 := ⟨i - 12, by omega⟩
  have hin : j + 12 < (replyFront query stop flags code count).length := by
    rwa [replyFront_length h hstop]
  rw [List.getD_eq_getElem?_getD, List.getD_eq_getElem?_getD, List.getElem?_append_left hin,
    replyFront_cons (by omega)]
  simp only [List.getElem?_cons_succ, List.getElem?_drop, List.getElem?_take]
  rw [if_pos (by omega), Nat.add_comm 12 j]

end Front

/-- No label of the name goes beyond the type and the class, which are behind the place where the
name ends. -/
def NameInside (query : Bytes) : Prop :=
  ∃ labels last reach, Spells query 12 labels last reach ∧ reach ≤ last + 4

section Reply

variable {query : Bytes} {q : Question} (h : question query = some q)

include h

theorem stop_bounds : 17 ≤ q.stop ∧ q.stop ≤ query.length := by
  obtain ⟨labels, last, reach, hreads⟩ := question_reads h
  have hlast := hreads.spells.off_lt_stop
  have hstop := hreads.stop
  rw [if_pos rfl] at hstop
  exact ⟨by omega, hreads.room⟩

theorem reply_question (hinside : NameInside query) {flags code count : Nat}
    (hflags : flags % 256 / 8 % 16 = 0) (rest : Bytes) :
    question (replyFront query q.stop flags code count ++ rest) = some q := by
  obtain ⟨hlow, hroom⟩ := stop_bounds h
  obtain ⟨-, hhigh, hcount, -, hloop⟩ := question_some.mp h
  obtain ⟨labels, last, reach, hreads⟩ := question_reads h
  have hstop := hreads.stop
  rw [if_pos rfl] at hstop
  obtain ⟨labels', last', reach', hspells, hreach⟩ := hinside
  obtain ⟨rfl, rfl, rfl⟩ := hreads.spells.unique hspells
  have hlength := @replyFront_length query q.stop flags code count hroom (by omega)
  have hall : q.stop ≤ (replyFront query q.stop flags code count ++ rest).length := by
    rw [List.length_append, hlength]
    omega
  refine question_some.mpr ⟨by omega, ?_, ?_, ?_, ?_⟩
  · rw [replyFront_cons (by omega)]
    exact hhigh
  · rw [replyFront_cons (by omega)]
    exact hcount
  · rw [replyFront_cons (by omega)]
    exact hflags
  · exact questionLoop_agree (replyFront_agree hroom (by omega) rest) hroom hall hreads.spells hloop
      (Nat.le_refl 12) (.inl rfl) (by omega) (Nat.le_refl _)

theorem reply_answered (hinside : NameInside query) (cap rcode : Nat) (truncated : Bool)
    (ipv4 : Vector UInt8 4) : reply query cap rcode truncated ipv4 = [] ∨
      Answers query q (answers q rcode truncated ipv4) ipv4 (reply query cap rcode truncated ipv4) := by
  obtain ⟨hlow, hroom⟩ := stop_bounds h
  rw [reply_eq h]
  generalize answers q rcode truncated ipv4 = answer
  by_cases hfits : cap < q.stop + (if answer then 16 else 0)
  case pos => exact .inl (if_pos hfits)
  case neg =>
    rw [if_neg hfits]
    have hflags : (128 + byteAt query 2 % 2 + if truncated then 2 else 0) % 256 / 8 % 16 = 0 := by
      cases truncated <;> simp <;> omega
    right
    exact {
      id := by
        rw [replyFront_cons (by omega)]
        rfl
      question := ⟨q, reply_question h hinside hflags _, rfl, rfl, rfl⟩
      records := by
        rw [replyFront_cons (by omega)]
        cases answer <;> rfl
      authority := by
        rw [replyFront_cons (by omega)]
        rfl
      additional := by
        rw [replyFront_cons (by omega)]
        rfl
      record := by
        rw [List.drop_left' (replyFront_length hroom (by omega))] }

theorem inside_of_refusal (ipv4 : Vector UInt8 4)
    (hreplies : reply query q.stop 3 false ipv4 = [] ∨
      Answers query q (answers q 3 false ipv4) ipv4 (reply query q.stop 3 false ipv4)) :
    NameInside query := by
  obtain ⟨hlow, hroom⟩ := stop_bounds h
  have hanswer : answers q 3 false ipv4 = false := by
    rw [answers]
    simp
  have hreply := reply_eq h q.stop 3 false ipv4
  dsimp only at hreply
  rw [hanswer, if_neg Bool.false_ne_true, if_neg Bool.false_ne_true, if_neg Bool.false_ne_true,
    Nat.add_zero, if_neg (Nat.lt_irrefl _)] at hreply
  have hagree := @replyFront_agree query q.stop (128 + byteAt query 2 % 2 + 0) (128 + 3 % 16)
    false.toNat hroom (by omega) []
  rw [hreply] at hreplies
  generalize hout : replyFront query q.stop (128 + byteAt query 2 % 2 + 0) (128 + 3 % 16)
    false.toNat ++ [] = out at hreplies hagree
  have hlength : out.length = q.stop := by
    rw [← hout, List.append_nil, replyFront_length hroom (by omega)]
  rcases hreplies with hnone | hanswers
  · rw [hnone, List.length_nil] at hlength
    omega
  · obtain ⟨q', hq', -⟩ := hanswers.question
    obtain ⟨labels, last, reach, hreads⟩ := question_reads hq'
    have hback : Agree out query out.length := by
      rw [hlength]
      exact fun i hi hm => (hagree i hi hm).symm
    have hspells := hreads.spells.mono hback (by omega) (Nat.le_refl 12)
    have hreach := hreads.spells.reach_le.2
    obtain ⟨labels', last', reach', hreads'⟩ := question_reads h
    obtain ⟨rfl, rfl, rfl⟩ := hreads'.spells.unique hspells
    have hstop := hreads'.stop
    rw [if_pos rfl] at hstop
    exact ⟨_, _, _, hspells, by omega⟩

end Reply

theorem reply_cap (query : Bytes) (cap rcode : Nat) (truncated : Bool) (ipv4 : Vector UInt8 4) :
    (reply query cap rcode truncated ipv4).length ≤ cap := by
  cases hread : question query with
  | none =>
    rw [reply, hread]
    exact Nat.zero_le _
  | some q =>
    obtain ⟨hlow, hroom⟩ := stop_bounds hread
    rw [reply_eq hread]
    generalize answers q rcode truncated ipv4 = answer
    by_cases hfits : cap < q.stop + (if answer then 16 else 0)
    case pos =>
      rw [if_pos hfits]
      exact Nat.zero_le _
    case neg =>
      rw [if_neg hfits, List.length_append, replyFront_length hroom (by omega)]
      cases answer with
      | true =>
        rw [if_pos rfl] at hfits ⊢
        simp only [addressRecord, List.length_append, List.length_cons, List.length_nil,
          Vector.length_toList]
        omega
      | false =>
        rw [if_neg Bool.false_ne_true] at hfits ⊢
        rw [List.length_nil]
        omega

/-- What is asked of the parser and of the replies, for one message. -/
structure Sound (query : Bytes) : Prop where
  accesses : ∀ array : Bytes, array.length = nameSize →
    ∃ result, questionIn query array = .ok result ∧ Returns result (question query) ∧
      ∀ stored q, result = some stored → question query = some q → arrayText stored.name = q.name
  names : ∀ other q q', question query = some q → question other = some q' →
    ∃ labels last reach labels' last' reach', Spells query 12 labels last reach ∧
      Spells other 12 labels' last' reach' ∧
      (q.name = q'.name ↔ labels.map (List.map lowered) = labels'.map (List.map lowered))
  replies : ∀ q, question query = some q → ∀ cap rcode truncated ipv4,
    (reply query cap rcode truncated ipv4).length ≤ cap ∧
      (reply query cap rcode truncated ipv4 = [] ∨
        Answers query q (answers q rcode truncated ipv4) ipv4 (reply query cap rcode truncated ipv4))

theorem accesses_ok (query : Bytes) {array : Bytes} (h : array.length = nameSize) :
    ∃ result, questionIn query array = .ok result ∧ Returns result (question query) ∧
      ∀ stored q, result = some stored → question query = some q → arrayText stored.name = q.name := by
  obtain ⟨result, hread, hreturns⟩ := questionIn_ok query h
  refine ⟨result, hread, hreturns, ?_⟩
  rintro stored q rfl hq
  rw [hq] at hreturns
  exact Stores.text hreturns hq

theorem names_ok {query other : Bytes} {q q' : Question} (h : question query = some q)
    (h' : question other = some q') :
    ∃ labels last reach labels' last' reach', Spells query 12 labels last reach ∧
      Spells other 12 labels' last' reach' ∧
      (q.name = q'.name ↔ labels.map (List.map lowered) = labels'.map (List.map lowered)) := by
  obtain ⟨labels, last, reach, hreads⟩ := question_reads h
  obtain ⟨labels', last', reach', hreads'⟩ := question_reads h'
  refine ⟨labels, last, reach, labels', last', reach', hreads.spells, hreads'.spells, ?_⟩
  rw [hreads.name, hreads'.name]
  exact spelled_eq_iff hreads.clean hreads'.clean

/-- All of it holds of a message just where its name, if it has one, ends in time. -/
theorem dns_sound_iff (query : Bytes) : Sound query ↔ (question query ≠ none → NameInside query) := by
  constructor
  · intro h haccepted
    obtain ⟨q, hq⟩ := Option.ne_none_iff_exists'.mp haccepted
    exact inside_of_refusal hq (Vector.replicate 4 0) (h.replies q hq _ _ _ _).2
  · intro h
    refine ⟨fun _ harray => accesses_ok query harray, fun _ _ _ hq hq' => names_ok hq hq', ?_⟩
    intro q hq cap rcode truncated ipv4
    have hinside := h (by simp [hq])
    exact ⟨reply_cap query cap rcode truncated ipv4,
      reply_answered hq hinside cap rcode truncated ipv4⟩

/-- A query whose pointer leads into its own first label, from where the next label takes the
pointer and the type with it. -/
def runningQuery : Bytes :=
  [0x12, 0x34, 1, 0, 0, 1, 0, 0, 0, 0, 0, 0, 2, 5, 0x61, 0xc0, 13, 1, 1, 1, 1, 0]

/-- The refusal that is sent for it has no question that can be read. -/
theorem running_query_refused :
    (question runningQuery).isSome = true ∧
      (reply runningQuery 512 3 false (Vector.replicate 4 0)).length = 21 ∧
      question (reply runningQuery 512 3 false (Vector.replicate 4 0)) = none ∧
      ¬Sound runningQuery := by
  have hread : question runningQuery =
      some ⟨[5, 0x61, 46, 0x61, 0xc0, 13, 1, 1, 46, 1], 257, 257, 21⟩ := by decide
  have hlength : (reply runningQuery 512 3 false (Vector.replicate 4 0)).length = 21 := by decide
  have hrefused : question (reply runningQuery 512 3 false (Vector.replicate 4 0)) = none := by decide
  refine ⟨by rw [hread]; rfl, hlength, hrefused, fun hsound => ?_⟩
  obtain ⟨-, hnone | hanswers⟩ := hsound.replies _ hread 512 3 false (Vector.replicate 4 0)
  · rw [hnone] at hlength
    cases hlength
  · obtain ⟨q', hq', -⟩ := hanswers.question
    rw [hrefused] at hq'
    cases hq'

end Meshpn.Device.Dns
