import Meshpn.Lib.Bytes

/-!
Reading and answering DNS messages, `meshvpn_dns_wire.c`. A question has one name,
which may go on at an earlier place of the message. Records are walked once from the
front; the loop only reads what is ahead of it, so that an aged message is put together
from the pieces that it leaves behind. A message that is not to be kept is `none`.
-/

namespace Meshpn.Device.Dns

open Meshpn.Lib

/-- `p[i]`, of a byte that is there. -/
def byteAt (p : Bytes) (i : Nat) : Nat := (p.getD i 0).toNat

/-- Two bytes of the message as a number. -/
def wordAt (p : Bytes) (i : Nat) : Nat := Bytes.toUInt16 (p.getD i 0) (p.getD (i + 1) 0)

structure Question where
  name : Bytes
  type : Nat
  klass : Nat
  stop : Nat
  deriving DecidableEq, Repr

/-- Upper case letters are read as lower case. -/
def lowered (c : UInt8) : UInt8 := if 65 ≤ c ∧ c ≤ 90 then c + 32 else c

/-- `sizeof(q->name)`. -/
def nameSize : Nat := 256

/-- The name so far and the dot behind it, where there is room for one. -/
def dotted (name : Bytes) : Bytes :=
  if name ≠ [] ∧ name.length + 1 < nameSize then name ++ [46] else name

/-- The loop of `meshvpn_dns_question`. `stop` is zero until the name first goes elsewhere. -/
def questionLoop (p : Bytes) : Nat → Nat → Bytes → Nat → Option Question
  | 0, _, _, _ => none
  | hops + 1, off, name, stop =>
    if p.length ≤ off then none
    else
      let n := byteAt p off
      if 192 ≤ n then
        if p.length ≤ off + 1 then none
        else
          let target := 256 * (n % 64) + byteAt p (off + 1)
          if off ≤ target ∨ target < 12 then none
          else questionLoop p hops target name (if stop = 0 then off + 2 else stop)
      else if 63 < n ∨ p.length < off + 1 + n then none
      else if n = 0 then
        let stop := if stop = 0 then off + 1 else stop
        if p.length < stop + 4 then none
        else some ⟨name, wordAt p stop, wordAt p (stop + 2), stop + 4⟩
      else
        let label := (p.drop (off + 1)).take n
        if nameSize ≤ (dotted name).length + n then none
        else if label.any (fun c => c == 0 || c == 46) then none
        else questionLoop p hops (off + 1 + n) (dotted name ++ label.map lowered) stop

/-- `meshvpn_dns_question`. -/
def question (p : Bytes) : Option Question :=
  if p.length < 17 ∨ byteAt p 4 ≠ 0 ∨ byteAt p 5 ≠ 1 ∨ byteAt p 2 / 8 % 16 ≠ 0 then none
  else questionLoop p 128 12 [] 0

/-- The loop over the labels of a record's name, at the offset of what is still ahead. -/
def skipName : Nat → Nat → Bytes → Option (Bytes × Bytes)
  | 0, _, _ => none
  | _, _, [] => none
  | labels + 1, off, n :: rest =>
    if n = 0 then some ([n], rest)
    else if 192 ≤ n.toNat then
      match rest with
      | [] => none
      | low :: rest =>
        if off ≤ 256 * (n.toNat % 64) + low.toNat then none else some ([n, low], rest)
    else if 63 < n.toNat ∨ rest.length < n.toNat then none
    else
      (skipName labels (off + 1 + n.toNat) (rest.drop n.toNat)).map fun (name, left) =>
        (n :: rest.take n.toNat ++ name, left)

/-- What the loop over the records leaves behind: the times to live, the bytes, and what
is still ahead. -/
structure Walk where
  ttls : List Nat
  done : Bytes
  left : Bytes

/-- `type` 41, whose field for the time to live is used otherwise. -/
def optType : Nat := 41

/-- One record behind its name. -/
def ageRecord (elapsed : Nat) : Bytes → Option (Walk × Nat)
  | t1 :: t0 :: c1 :: c0 :: x3 :: x2 :: x1 :: x0 :: l1 :: l0 :: data =>
    let rdlen := Bytes.toUInt16 l1 l0
    if data.length < rdlen then none
    else
      let ttl := Bytes.toUInt32 x3 x2 x1 x0 - elapsed
      let opt := Bytes.toUInt16 t1 t0 = optType
      let field := if opt then [x3, x2, x1, x0] else Bytes.ofUInt32 ttl
      some (⟨if opt then [] else [ttl], [t1, t0, c1, c0] ++ field ++ [l1, l0] ++ data.take rdlen,
        data.drop rdlen⟩, 10 + rdlen)
  | _ => none

/-- The loop of `meshvpn_dns_age_ttls`. -/
def ageRecords (elapsed : Nat) : Nat → Nat → Bytes → Option Walk
  | 0, _, rest => some ⟨[], [], rest⟩
  | count + 1, off, rest =>
    (skipName 128 off rest).bind fun (name, rest) =>
      (ageRecord elapsed rest).bind fun (one, size) =>
        (ageRecords elapsed count (off + name.length + size) one.left).map fun walk =>
          ⟨one.ttls ++ walk.ttls, name ++ one.done ++ walk.done, walk.left⟩

def uint32Max : Nat := 4294967295

/-- `meshvpn_dns_age_ttls`: the least time to live, and the message with what is left of
every one of them. -/
def ageTtls (p : Bytes) (elapsed : Nat) : Option (Nat × Bytes) :=
  (question p).bind fun q =>
    if byteAt p 3 % 16 ≠ 0 ∨ byteAt p 2 / 2 % 2 ≠ 0 ∨ wordAt p 6 = 0 then none
    else if 128 < wordAt p 6 + wordAt p 8 + wordAt p 10 then none
    else
      (ageRecords elapsed (wordAt p 6 + wordAt p 8 + wordAt p 10) q.stop (p.drop q.stop)).bind
        fun walk =>
          let minimum := walk.ttls.foldl min uint32Max
          if walk.left = [] ∧ minimum ≠ uint32Max ∧ minimum ≠ 0 then
            some (minimum, p.take q.stop ++ walk.done)
          else none

/-- `meshvpn_dns_reply`; nothing where the query cannot be read or the reply does not fit.
The address stands as the bytes that it has in memory. -/
def reply (query : Bytes) (cap rcode : Nat) (truncated : Bool) (ipv4 : Vector UInt8 4) : Bytes :=
  match question query with
  | none => []
  | some q =>
    let answer := ipv4.toList.any (· != 0) && q.type == 1 && q.klass == 1 && rcode == 0 &&
      !truncated
    if cap < q.stop + (if answer then 16 else 0) then []
    else
      let flags := [UInt8.ofNat (128 + byteAt query 2 % 2 + if truncated then 2 else 0),
        UInt8.ofNat (128 + rcode % 16)]
      let front := query.take 2 ++ flags ++ (query.drop 4).take 2 ++
        [0, if answer then 1 else 0, 0, 0, 0, 0] ++ (query.take q.stop).drop 12
      if answer then front ++ [0xc0, 0x0c, 0, 1, 0, 1, 0, 0, 0, 30, 0, 4] ++ ipv4.toList
      else front

/-- How far the loop may have come: each label takes its bytes and one more, and so does
the dot in front of it. -/
structure Within (off : Nat) (name : Bytes) (stop : Nat) : Prop where
  short : name.length < nameSize
  near : stop = 0 → off ≤ 12 + if name = [] then 0 else name.length + 1
  bounded : stop ≤ 270

variable {p other : Bytes} {q : Question} {i : Nat}

theorem questionLoop_stop {p : Bytes} {hops off stop : Nat} {name : Bytes}
    (hwithin : Within off name stop) (h : questionLoop p hops off name stop = some q) :
    q.stop ≤ p.length ∧ q.stop ≤ 274 ∧ 4 ≤ q.stop := by
  induction hops generalizing off name stop with
  | zero => cases h
  | succ hops ih =>
    have hname := hwithin.short
    have hstop := hwithin.bounded
    have hnear : stop = 0 → off ≤ 268 := by
      intro hzero
      have hoff := hwithin.near hzero
      unfold nameSize at hname
      split at hoff <;> omega
    rw [questionLoop] at h
    split at h
    case isTrue => cases h
    dsimp only at h
    split at h
    case isTrue =>
      split at h
      case isTrue => cases h
      split at h
      case isTrue => cases h
      refine ih ⟨hname, ?_, ?_⟩ h
      · intro hzero
        split at hzero <;> omega
      · split
        case isTrue hzero =>
          have hoff := hnear hzero
          omega
        case isFalse => exact hstop
    case isFalse =>
      split at h
      case isTrue => cases h
      split at h
      case isTrue =>
        generalize hend : (if stop = 0 then off + 1 else stop) = last at h
        have hlast : last ≤ 270 := by
          rw [← hend]
          split
          case isTrue hzero =>
            have hoff := hnear hzero
            omega
          case isFalse => exact hstop
        split at h
        case isTrue => cases h
        rename_i hroom
        obtain rfl := Option.some.inj h
        dsimp only
        exact ⟨by omega, by omega, by omega⟩
      case isFalse =>
        split at h
        case isTrue => cases h
        rename_i hfits
        split at h
        case isTrue => cases h
        have hlong : p.length < off + 1 + byteAt p off → False := by
          intro hshort
          omega
        have hlabel : ((p.drop (off + 1)).take (byteAt p off)).length = byteAt p off := by
          rw [List.length_take, List.length_drop]
          omega
        have hlength : (dotted name ++ ((p.drop (off + 1)).take (byteAt p off)).map
            lowered).length = (dotted name).length + byteAt p off := by
          rw [List.length_append, List.length_map, hlabel]
        refine ih ⟨by rw [hlength]; omega, ?_, hstop⟩ h
        intro hzero
        have hoff := hwithin.near hzero
        have hnamed : dotted name ++ ((p.drop (off + 1)).take (byteAt p off)).map
            lowered ≠ [] := by
          intro hnil
          rw [hnil, List.length_nil] at hlength
          omega
        rw [if_neg hnamed, hlength]
        have hdot : name ≠ [] → (dotted name).length = name.length + 1 := by
          intro hne
          unfold dotted
          split
          case isTrue => rw [List.length_append, List.length_singleton]
          rename_i hroom
          have hfull : dotted name = name := if_neg hroom
          rw [hfull] at hfits
          have hlast : ¬name.length + 1 < nameSize := fun hlt => hroom ⟨hne, hlt⟩
          omega
        split at hoff
        case isTrue => omega
        rename_i hne
        have hlen := hdot hne
        omega

theorem question_stop {p : Bytes} (h : question p = some q) :
    q.stop ≤ p.length ∧ q.stop ≤ 274 ∧ 4 ≤ q.stop := by
  unfold question at h
  split at h
  case isTrue => cases h
  case isFalse => exact questionLoop_stop ⟨by decide, fun _ => by simp, by decide⟩ h

theorem question_long {p : Bytes} (h : question p = some q) : 17 ≤ p.length := by
  unfold question at h
  split at h
  case isTrue => cases h
  case isFalse hgood => omega

theorem reply_length {query : Bytes} {cap rcode : Nat} {truncated : Bool}
    {ipv4 : Vector UInt8 4} : (reply query cap rcode truncated ipv4).length ≤ 290 := by
  unfold reply
  rcases hread : question query with _ | q
  · exact Nat.zero_le _
  obtain ⟨hfits, hstop, -⟩ := question_stop hread
  dsimp only
  generalize (ipv4.toList.any (· != 0) && q.type == 1 && q.klass == 1 && rcode == 0 &&
    !truncated) = answer
  cases answer with
  | true =>
    simp only [if_true]
    split
    case isTrue => exact Nat.zero_le _
    simp only [List.length_append, List.length_cons, List.length_nil, List.length_take,
      List.length_drop, Vector.length_toList]
    omega
  | false =>
    simp only [Bool.false_eq_true, if_false]
    split
    case isTrue => exact Nat.zero_le _
    simp only [List.length_append, List.length_cons, List.length_nil, List.length_take,
      List.length_drop]
    omega

/-- The messages are the same but for the transaction id. -/
def SameBody (p other : Bytes) : Prop := p.length = other.length ∧ p.drop 2 = other.drop 2

theorem SameBody.getD (h : SameBody p other) (hi : 2 ≤ i) :
    p.getD i 0 = other.getD i 0 := by
  obtain ⟨j, rfl⟩ : ∃ j, i = 2 + j := ⟨i - 2, by omega⟩
  rw [List.getD_eq_getElem?_getD, List.getD_eq_getElem?_getD, ← List.getElem?_drop,
    ← List.getElem?_drop, h.2]

theorem SameBody.byteAt (h : SameBody p other) (hi : 2 ≤ i) :
    byteAt p i = byteAt other i := by
  rw [Dns.byteAt, Dns.byteAt, h.getD hi]

theorem SameBody.wordAt (h : SameBody p other) (hi : 2 ≤ i) :
    wordAt p i = wordAt other i := by
  rw [Dns.wordAt, Dns.wordAt, h.getD hi, h.getD (by omega)]

theorem SameBody.drop (h : SameBody p other) (hi : 2 ≤ i) :
    p.drop i = other.drop i := by
  obtain ⟨j, rfl⟩ : ∃ j, i = 2 + j := ⟨i - 2, by omega⟩
  rw [← List.drop_drop, ← List.drop_drop, h.2]

theorem SameBody.questionLoop (h : SameBody p other) {hops off stop : Nat}
    {name : Bytes} (hoff : 12 ≤ off) (hstop : stop = 0 ∨ 12 ≤ stop) :
    questionLoop p hops off name stop = questionLoop other hops off name stop := by
  induction hops generalizing off name stop with
  | zero => rfl
  | succ hops ih =>
    rw [Dns.questionLoop, Dns.questionLoop, h.1, h.byteAt (by omega : 2 ≤ off),
      h.byteAt (by omega : 2 ≤ off + 1), h.drop (by omega : 2 ≤ off + 1)]
    dsimp only
    refine ite_congr rfl (fun _ => rfl) fun _ => ite_congr rfl (fun _ => ?_) fun _ => ?_
    · refine ite_congr rfl (fun _ => rfl) fun _ => ite_congr rfl (fun _ => rfl) fun htarget => ?_
      refine ih (by omega) ?_
      split <;> omega
    · refine ite_congr rfl (fun _ => rfl) fun _ => ite_congr rfl (fun _ => ?_) fun _ => ?_
      · have hend : 2 ≤ (if stop = 0 then off + 1 else stop) := by
          split <;> omega
        rw [h.wordAt hend, h.wordAt (by omega : 2 ≤ (if stop = 0 then off + 1 else stop) + 2)]
      · exact ite_congr rfl (fun _ => rfl) fun _ => ite_congr rfl (fun _ => rfl) fun _ =>
          ih (by omega) hstop

theorem SameBody.question (h : SameBody p other) :
    question p = question other := by
  rw [Dns.question, Dns.question, h.1, h.byteAt (by decide), h.byteAt (by decide),
    h.byteAt (by decide), h.questionLoop (by decide) (.inl rfl)]

/-- A record of a message, whose name may be compressed. -/
structure Record where
  name : Bytes
  type : Nat
  klass : Nat
  ttl : Nat
  data : Bytes

def Record.encode (r : Record) : Bytes :=
  r.name ++ Bytes.ofUInt16 r.type ++ Bytes.ofUInt16 r.klass ++ Bytes.ofUInt32 r.ttl ++
    Bytes.ofUInt16 r.data.length ++ r.data

def encodeAll (records : List Record) : Bytes := records.flatMap Record.encode

/-- A record with a time to live. -/
def Record.lives (r : Record) : Bool := r.type != optType

/-- The record after so many seconds. -/
def Record.aged (elapsed : Nat) (r : Record) : Record :=
  if r.lives then { r with ttl := r.ttl - elapsed } else r

/-- What a walk over these records leaves behind. -/
def walkOf (elapsed : Nat) (records : List Record) (left : Bytes) : Walk :=
  ⟨(records.filter Record.lives).map fun r => r.ttl - elapsed,
    encodeAll (records.map (Record.aged elapsed)), left⟩

theorem skipName_eq {labels off : Nat} {bytes name left : Bytes}
    (h : skipName labels off bytes = some (name, left)) : bytes = name ++ left := by
  induction labels generalizing off bytes name with
  | zero => cases h
  | succ labels ih =>
    rcases bytes with _ | ⟨n, rest⟩
    · cases h
    unfold skipName at h
    split at h
    case isTrue =>
      cases h
      rfl
    case isFalse =>
      split at h
      case isTrue =>
        split at h
        case h_1 => cases h
        split at h
        case isTrue => cases h
        cases h
        rfl
      case isFalse =>
        split at h
        case isTrue => cases h
        obtain ⟨⟨more, behind⟩, hmore, hsame⟩ := Option.map_eq_some_iff.mp h
        cases hsame
        simp only [List.cons_append, List.append_assoc, ← ih hmore, List.take_append_drop]

theorem ageRecord_spec {bytes : Bytes} : (∀ elapsed, ageRecord elapsed bytes = none) ∨
    ∃ r : Record, r.name = [] ∧ ∃ left, bytes = r.encode ++ left ∧
      ∀ elapsed, ageRecord elapsed bytes =
        some (walkOf elapsed [r] left, 10 + r.data.length) := by
  match bytes with
  | t1 :: t0 :: c1 :: c0 :: x3 :: x2 :: x1 :: x0 :: l1 :: l0 :: data =>
    by_cases hshort : data.length < Bytes.toUInt16 l1 l0
    case pos => exact .inl fun elapsed => if_pos hshort
    right
    have hdata : (data.take (Bytes.toUInt16 l1 l0)).length = Bytes.toUInt16 l1 l0 := by
      rw [List.length_take]
      omega
    refine ⟨⟨[], Bytes.toUInt16 t1 t0, Bytes.toUInt16 c1 c0, Bytes.toUInt32 x3 x2 x1 x0,
      data.take (Bytes.toUInt16 l1 l0)⟩, rfl, data.drop (Bytes.toUInt16 l1 l0), ?_, ?_⟩
    · simp only [Record.encode, hdata, Bytes.ofUInt16_toUInt16, Bytes.ofUInt32_toUInt32,
        List.nil_append, List.cons_append, List.take_append_drop]
    · intro elapsed
      rw [ageRecord]
      dsimp only
      rw [if_neg hshort]
      have htype := Bytes.ofUInt16_toUInt16 t1 t0
      have hklass := Bytes.ofUInt16_toUInt16 c1 c0
      have hlength := Bytes.ofUInt16_toUInt16 l1 l0
      by_cases hopt : Bytes.toUInt16 t1 t0 = optType
      case pos =>
        have httl := Bytes.ofUInt32_toUInt32 x3 x2 x1 x0
        rw [hopt] at htype
        simp [hopt, walkOf, Record.lives, Record.aged, encodeAll, Record.encode, hdata, htype,
          hklass, hlength, httl]
      case neg =>
        have hlives : (Bytes.toUInt16 t1 t0 != optType) = true := bne_iff_ne.mpr hopt
        simp [hopt, hlives, walkOf, Record.lives, Record.aged, encodeAll, Record.encode, hdata, htype,
          hklass, hlength]
  | [] | [_] | [_, _] | [_, _, _] | [_, _, _, _] | [_, _, _, _, _] | [_, _, _, _, _, _]
  | [_, _, _, _, _, _, _] | [_, _, _, _, _, _, _, _] | [_, _, _, _, _, _, _, _, _] =>
    exact .inl fun _ => rfl

theorem ageRecords_named {elapsed count off : Nat} {bytes name rest : Bytes}
    (h : skipName 128 off bytes = some (name, rest)) :
    ageRecords elapsed (count + 1) off bytes = (ageRecord elapsed rest).bind fun (one, size) =>
      (ageRecords elapsed count (off + name.length + size) one.left).map fun walk =>
        ⟨one.ttls ++ walk.ttls, name ++ one.done ++ walk.done, walk.left⟩ := by
  simp only [ageRecords, h, Option.bind_some]

theorem ageRecords_spec {count off : Nat} {bytes : Bytes} :
    (∀ elapsed, ageRecords elapsed count off bytes = none) ∨
      ∃ records left, bytes = encodeAll records ++ left ∧
        ∀ elapsed, ageRecords elapsed count off bytes = some (walkOf elapsed records left) := by
  induction count generalizing off bytes with
  | zero => exact .inr ⟨[], bytes, rfl, fun _ => rfl⟩
  | succ count ih =>
    rcases hname : skipName 128 off bytes with _ | skipped
    · exact .inl fun _ => by rw [ageRecords, hname, Option.bind_none]
    obtain ⟨name, rest⟩ := skipped
    have hbytes := skipName_eq hname
    rcases @ageRecord_spec rest with hnone | ⟨r, hunnamed, after, hrest, hone⟩
    · exact .inl fun elapsed => by
        rw [ageRecords_named hname, hnone, Option.bind_none]
    · rcases @ih (off + name.length + (10 + r.data.length)) after with
        hnone | ⟨records, left, hafter, hmore⟩
      · exact .inl fun elapsed => by
          rw [ageRecords_named hname, hone, Option.bind_some]
          dsimp only [walkOf]
          rw [hnone, Option.map_none]
      · refine .inr ⟨{ r with name } :: records, left, ?_, fun elapsed => ?_⟩
        · rw [hbytes, hrest, hafter]
          simp [encodeAll, Record.encode, hunnamed]
        · rw [ageRecords_named hname, hone, Option.bind_some]
          dsimp only [walkOf]
          rw [hmore, Option.map_some]
          have hlives : Record.lives { r with name } = r.lives := rfl
          by_cases hr : r.lives = true
          case pos =>
            simp [walkOf, encodeAll, Record.encode, Record.aged, hr, hlives, hunnamed]
          case neg =>
            simp [walkOf, encodeAll, Record.encode, Record.aged, hr, hlives, hunnamed]

/-- The least time to live. -/
def leastTtl (ttls : List Nat) : Nat := ttls.foldl min uint32Max

theorem leastTtl_le {ttls : List Nat} {ttl : Nat} (h : ttl ∈ ttls) : leastTtl ttls ≤ ttl := by
  have hfold : ∀ (ttls : List Nat) (start : Nat), ttls.foldl min start ≤ start ∧
      ∀ ttl ∈ ttls, ttls.foldl min start ≤ ttl := by
    intro ttls
    induction ttls with
    | nil => exact fun start => ⟨Nat.le_refl _, by simp⟩
    | cons first rest ih =>
      intro start
      obtain ⟨hstart, hrest⟩ := ih (min start first)
      refine ⟨le_trans hstart (Nat.min_le_left _ _), ?_⟩
      intro ttl hmem
      rcases List.mem_cons.mp hmem with rfl | hmem
      · exact le_trans hstart (Nat.min_le_right _ _)
      · exact hrest ttl hmem
  exact (hfold ttls uint32Max).2 ttl h

/-- A message that can be kept: its front, its records, and the least time they have. -/
structure Kept (p : Bytes) (stop : Nat) (records : List Record) (least : Nat) : Prop where
  bytes : p = p.take stop ++ encodeAll records
  least : least = leastTtl ((records.filter Record.lives).map Record.ttl)
  nonempty : records.filter Record.lives ≠ []

theorem ageTtls_some {p out : Bytes} {elapsed least : Nat}
    (h : ageTtls p elapsed = some (least, out)) :
    ∃ q records, question p = some q ∧ p.drop q.stop = encodeAll records ∧
      (∀ seconds, ageRecords seconds (wordAt p 6 + wordAt p 8 + wordAt p 10) q.stop
        (p.drop q.stop) = some (walkOf seconds records [])) ∧
      out = p.take q.stop ++ encodeAll (records.map (Record.aged elapsed)) ∧
      least = leastTtl (walkOf elapsed records []).ttls ∧ least ≠ uint32Max := by
  obtain ⟨q, hq, h⟩ := Option.bind_eq_some_iff.mp h
  split at h
  case isTrue => cases h
  split at h
  case isTrue => cases h
  obtain ⟨walk, hwalk, h⟩ := Option.bind_eq_some_iff.mp h
  dsimp only at h
  split at h
  case isFalse => cases h
  rename_i hkept
  rcases @ageRecords_spec (wordAt p 6 + wordAt p 8 + wordAt p 10) q.stop (p.drop q.stop) with
    hnone | ⟨records, left, hbytes, hall⟩
  · rw [hnone] at hwalk
    cases hwalk
  · rw [hall] at hwalk
    cases hwalk
    obtain ⟨hleft, hbound, -⟩ := hkept
    have hempty : left = [] := hleft
    subst hempty
    cases h
    exact ⟨q, records, hq, by rw [hbytes, List.append_nil], hall, rfl, rfl, hbound⟩

/-- A message that can be kept has records of its own, and another message with its body is
aged by ageing them. -/
theorem ageTtls_spec {p out : Bytes} {least : Nat} (h : ageTtls p 0 = some (least, out)) :
    ∃ stop records, Kept p stop records least ∧
      ∀ other elapsed m aged, SameBody other p → ageTtls other elapsed = some (m, aged) →
        aged = other.take stop ++ encodeAll (records.map (Record.aged elapsed)) := by
  obtain ⟨q, records, hq, hbytes, hwalk, -, hleast, hbound⟩ := ageTtls_some h
  obtain ⟨-, -, hlow⟩ := question_stop hq
  refine ⟨q.stop, records, ⟨?_, ?_, ?_⟩, ?_⟩
  · rw [← hbytes, List.take_append_drop]
  · rw [hleast]
    rfl
  · intro hnil
    rw [walkOf, hnil] at hleast
    exact hbound hleast
  · intro other elapsed m aged hsame haged
    obtain ⟨q', records', hq', -, hwalk', hout, -, -⟩ := ageTtls_some haged
    rw [hsame.question, hq] at hq'
    cases hq'
    have hwalks := hwalk' elapsed
    rw [hsame.wordAt (by decide), hsame.wordAt (by decide), hsame.wordAt (by decide),
      hsame.drop (by omega), hwalk elapsed, Option.some.injEq] at hwalks
    have hdone : encodeAll (records.map (Record.aged elapsed)) =
        encodeAll (records'.map (Record.aged elapsed)) := congrArg Walk.done hwalks
    rw [hout, hdone]

end Meshpn.Device.Dns
