import Meshpn.Lib.Bytes
import Meshpn.Tls.HelloBody
import Meshpn.Tls.Fingerprints

/-!
A ClientHello body as the lists that are in it, and the walks over it in terms of
these: what the walks accept is made of parts, and made of parts it is accepted.
-/

namespace Meshpn.Tls.Fingerprint

open Meshpn.Lib List
open Meshpn.Lib.Bytes
open Meshpn.Lib.Words

/-- An extension; its type and its length fit their fields. -/
structure Ext where
  type : Nat
  data : Bytes
  type_lt : type < 65536
  data_lt : data.length < 65536

def Ext.encode (e : Ext) : Bytes := ofUInt16 e.type ++ (ofUInt16 e.data.length ++ e.data)

def encodeExts (exts : List Ext) : Bytes := exts.flatMap Ext.encode

theorem encodeExts_cons (e : Ext) (exts : List Ext) :
    encodeExts (e :: exts) = e.encode ++ encodeExts exts := flatMap_cons

def encodeSuites (suites : List UInt16) : Bytes := suites.flatMap fun s => ofUInt16 s.toNat

/-- A body: what is ahead of the cipher suites, the suites, and whether their length is one short;
the compression methods with their length, the extensions, and what is behind them. -/
structure HelloParts where
  head : Bytes
  suites : List UInt16
  short : Bool
  compression : Bytes
  exts : List Ext
  trailing : Bytes

namespace HelloParts

def cipherLength (p : HelloParts) : Nat := 2 * p.suites.length - p.short.toNat

def encode (p : HelloParts) : Bytes :=
  p.head ++ (ofUInt16 p.cipherLength ++ (encodeSuites p.suites ++ (p.compression ++
    (ofUInt16 (encodeExts p.exts).length ++ (encodeExts p.exts ++ p.trailing)))))

/-- The lengths lead from one part to the next, and fit their fields. -/
structure WellFormed (p : HelloParts) : Prop where
  head : ∃ sidLen, index p.head (.int 34) = .int sidLen ∧ p.head.length = 35 + sidLen
  short : p.short = true → p.suites ≠ []
  cipher : p.cipherLength < 65536
  compression : ∃ compLen rest, p.compression = compLen :: rest ∧ rest.length = compLen.toNat
  block : (encodeExts p.exts).length < 65536

end HelloParts

theorem encodeSuites_length (suites : List UInt16) :
    (encodeSuites suites).length = 2 * suites.length := by
  induction suites with
  | nil => rfl
  | cons s suites ih =>
    rw [encodeSuites, flatMap_cons, length_append, ofUInt16_length, length_cons]
    rw [encodeSuites] at ih
    omega

theorem readCiphers_parts {body : Bytes} {cipherEnd : Nat} (suites : List UInt16) {fuel o : Nat}
    {rest : Bytes} (hdrop : body.drop o = encodeSuites suites ++ rest) (hfuel : suites.length < fuel)
    (hlow : o + 2 * suites.length ≤ cipherEnd + 1) (hhigh : cipherEnd ≤ o + 2 * suites.length)
    (found : List Nat) :
    readCiphers body cipherEnd fuel o found = .ok (o + 2 * suites.length,
      found ++ (suites.map UInt16.toNat).filter fun n => !isGrease n) := by
  induction suites generalizing fuel o found with
  | nil =>
    obtain ⟨fuel, rfl⟩ : ∃ m, fuel = m + 1 := ⟨fuel - 1, by simp at hfuel; omega⟩
    have hend : ¬o < cipherEnd := by
      simp only [length_nil, Nat.mul_zero, Nat.add_zero] at hhigh
      omega
    rw [readCiphers, if_neg hend]
    simp
  | cons s suites ih =>
    obtain ⟨fuel, rfl⟩ : ∃ m, fuel = m + 1 := ⟨fuel - 1, by simp at hfuel; omega⟩
    rw [length_cons] at hlow hhigh hfuel
    have hmore : o < cipherEnd := by omega
    have hread : readUInt16BE body (.int o) = .ok s.toNat := by
      have hat := @readUInt16BE_at body (encodeSuites suites ++ rest) o (UInt8.ofNat (s.toNat / 256))
        (UInt8.ofNat (s.toNat % 256)) 0 [] rfl hdrop
      rw [Nat.add_zero] at hat
      rw [hat, toUInt16_ofNat s.toNat_lt]
    have hnext : body.drop (o + 2) = encodeSuites suites ++ rest := by
      have hstep := @drop_at body (encodeSuites suites ++ rest) o (ofUInt16 s.toNat) (by
        rw [hdrop, encodeSuites, flatMap_cons, append_assoc]
        rfl)
      rwa [ofUInt16_length] at hstep
    rw [readCiphers, if_pos hmore, hread]
    change readCiphers body cipherEnd fuel (o + 2) _ = _
    rw [ih hnext (by omega) (by omega) (by omega), length_cons, map_cons, filter_cons]
    have hsum : o + 2 + 2 * suites.length = o + 2 * (suites.length + 1) := by omega
    rw [hsum]
    cases isGrease s.toNat <;> simp

variable {body : Bytes}

theorem suites_of_readCiphers {cipherEnd fuel o stop : Nat} {found ciphers : List Nat}
    (h : readCiphers body cipherEnd fuel o found = .ok (stop, ciphers)) (ho : o ≤ cipherEnd) :
    ∃ suites, body.drop o = encodeSuites suites ++ body.drop stop ∧
      stop = o + 2 * suites.length ∧ cipherEnd ≤ stop ∧ stop ≤ cipherEnd + 1 := by
  induction fuel generalizing o found with
  | zero => cases h
  | succ fuel ih =>
    rw [readCiphers] at h
    split at h
    case isFalse hend =>
      cases h
      exact ⟨[], rfl, rfl, by omega, by omega⟩
    rename_i hmore
    cases hread : readUInt16BE body (.int o) with
    | error fault =>
      rw [hread] at h
      cases h
    | ok cs =>
      rw [hread] at h
      obtain ⟨high, low, hdrop, rfl⟩ := HelloPieces.two_of_read hread
      by_cases hlast : o + 2 ≤ cipherEnd
      · obtain ⟨suites, hsuites, hstop, hlow, hhigh⟩ := ih h hlast
        refine ⟨UInt16.ofNat (toUInt16 high low) :: suites, ?_, ?_, hlow, hhigh⟩
        · rw [hdrop, hsuites, encodeSuites, encodeSuites, flatMap_cons,
            UInt16.toNat_ofNat_of_lt' (toUInt16_lt high low), ofUInt16_toUInt16]
          rfl
        · rw [length_cons]
          omega
      · have hstop : stop = o + 2 := by
          change readCiphers body cipherEnd fuel (o + 2) _ = _ at h
          cases fuel with
          | zero => cases h
          | succ fuel =>
            rw [readCiphers, if_neg (by omega)] at h
            exact (Prod.mk.inj (Except.ok.inj h)).1.symm
        subst hstop
        refine ⟨[UInt16.ofNat (toUInt16 high low)], ?_, rfl, by omega, by omega⟩
        rw [hdrop, encodeSuites, flatMap_cons,
          UInt16.toNat_ofNat_of_lt' (toUInt16_lt high low), ofUInt16_toUInt16]
        rfl

def kept (exts : List Ext) : List Ext := exts.filter fun e => !skipped e.type

theorem encode_length (e : Ext) : e.encode.length = 4 + e.data.length := by
  simp only [Ext.encode, length_append, ofUInt16_length]
  omega

section Walk

variable {α : Type} {cut mismatch : String} {step : α → Nat → Bytes → Except Thrown α} {body : Bytes}
  {extEnd : Nat}

theorem walk_parts (exts : List Ext) {fuel o : Nat} {rest : Bytes} (found : α)
    (hdrop : body.drop o = encodeExts exts ++ rest) (ho : o ≤ body.length)
    (hend : extEnd = o + (encodeExts exts).length) (hfuel : exts.length < fuel) :
    walk cut mismatch step body extEnd fuel o found =
      (kept exts).foldlM (fun found e => step found e.type e.data) found := by
  have hlength := length_at hdrop ho
  induction exts generalizing fuel o found with
  | nil =>
    obtain ⟨fuel, rfl⟩ : ∃ m, fuel = m + 1 := ⟨fuel - 1, by simp at hfuel; omega⟩
    change extEnd = o at hend
    rw [walk, if_neg (by omega), if_neg (by omega)]
    rfl
  | cons e exts ih =>
    obtain ⟨fuel, rfl⟩ : ∃ m, fuel = m + 1 := ⟨fuel - 1, by simp at hfuel; omega⟩
    rw [encodeExts_cons] at hdrop hend hlength
    rw [length_append, encode_length] at hend
    rw [length_append, length_append, encode_length] at hlength
    rw [length_cons] at hfuel
    have hleft : body.drop o = [] ++ UInt8.ofNat (e.type / 256) :: UInt8.ofNat (e.type % 256) ::
        (ofUInt16 e.data.length ++ (e.data ++ (encodeExts exts ++ rest))) := by
      rw [hdrop, Ext.encode]
      simp [ofUInt16]
    have htype := readUInt16BE_at 0 [] rfl hleft
    have hsize : readUInt16BE body (.int (o + 2)) = .ok e.data.length := by
      have hat := @readUInt16BE_at body (e.data ++ (encodeExts exts ++ rest)) o
        (UInt8.ofNat (e.data.length / 256)) (UInt8.ofNat (e.data.length % 256)) 2
        (ofUInt16 e.type) rfl hleft
      rw [hat, toUInt16_ofNat e.data_lt]
    have hdata : subarray body (o + 4) (o + 4 + e.data.length) = e.data :=
      subarray_at 4 (ofUInt16 e.type ++ ofUInt16 e.data.length) rfl hleft
    have hnext : body.drop (o + 4 + e.data.length) = encodeExts exts ++ rest := by
      have hstep := @drop_at body (encodeExts exts ++ rest) o e.encode (by
        rw [hdrop, append_assoc])
      rwa [encode_length, ← Nat.add_assoc] at hstep
    rw [Nat.add_zero, toUInt16_ofNat e.type_lt] at htype
    have hfits : ¬(body.length < o + 4 + e.data.length ∨ extEnd < o + 4 + e.data.length) := by omega
    rw [walk, if_pos (by omega), htype, hsize]
    change (if _ then _ else _) = _
    rw [if_neg hfits, hdata]
    have htail := fun found => @ih fuel (o + 4 + e.data.length) found hnext (by omega) (by omega)
      (by omega) (by rw [length_at hnext (by omega), length_append])
    rw [kept, filter_cons]
    cases hskip : skipped e.type with
    | true =>
      rw [if_pos rfl, htail]
      rfl
    | false =>
      rw [if_neg Bool.false_ne_true, Bool.not_false, if_pos rfl, foldlM_cons]
      change Except.bind _ _ = Except.bind _ _
      congr 1
      funext found
      exact htail found

theorem exts_of_walk {fuel o : Nat} {found last : α}
    (h : walk cut mismatch step body extEnd fuel o found = .ok last) (ho : o ≤ body.length) :
    ∃ exts, body.drop o = encodeExts exts ++ body.drop extEnd ∧
      extEnd = o + (encodeExts exts).length ∧ extEnd ≤ body.length := by
  induction fuel generalizing o found with
  | zero => cases h
  | succ fuel ih =>
    rw [walk] at h
    split at h
    case isFalse =>
      split at h
      case isTrue => cases h
      rename_i hexact
      have heq : o = extEnd := not_not.mp hexact
      subst heq
      exact ⟨[], rfl, rfl, ho⟩
    case isTrue hguard =>
      obtain ⟨t1, t0, high, low, rest, hleft⟩ := four_of_guard hguard.2
      have hlength := length_at hleft ho
      simp only [length_cons] at hlength
      have htype : readUInt16BE body (.int o) = .ok (toUInt16 t1 t0) := readUInt16BE_at 0 [] rfl hleft
      rw [htype, readUInt16BE_at 2 [t1, t0] rfl hleft] at h
      change (if _ then _ else _) = _ at h
      split at h
      case isTrue => cases h
      rename_i hfits
      have hdata : (rest.take (toUInt16 high low)).length = toUInt16 high low := by
        rw [length_take]
        omega
      have hdrop : body.drop (o + 4 + toUInt16 high low) = rest.drop (toUInt16 high low) := by
        rw [← drop_drop, ← drop_drop, hleft]
        rfl
      let e : Ext := ⟨toUInt16 t1 t0, rest.take (toUInt16 high low), toUInt16_lt t1 t0,
        by rw [hdata]; exact toUInt16_lt high low⟩
      have hencode : e.encode = t1 :: t0 :: high :: low :: rest.take (toUInt16 high low) := by
        rw [Ext.encode, show e.data.length = toUInt16 high low from hdata, ofUInt16_toUInt16,
          ofUInt16_toUInt16]
        rfl
      have hrest : ∃ found, walk cut mismatch step body extEnd fuel (o + 4 + toUInt16 high low) found =
          .ok last := by
        split at h
        case isTrue => exact ⟨found, h⟩
        cases hstep : step found (toUInt16 t1 t0)
            (subarray body (o + 4) (o + 4 + toUInt16 high low)) with
        | error thrown =>
          rw [hstep] at h
          cases h
        | ok next =>
          rw [hstep] at h
          exact ⟨next, h⟩
      obtain ⟨found, hwalk⟩ := hrest
      obtain ⟨exts, hexts, hend, hwithin⟩ := ih hwalk (by omega)
      refine ⟨e :: exts, ?_, ?_, hwithin⟩
      · rw [encodeExts_cons, append_assoc, ← hexts, hdrop, hencode,
          hleft]
        simp [take_append_drop]
      · rw [encodeExts_cons, length_append, encode_length, hend]
        change _ = o + (4 + (rest.take (toUInt16 high low)).length + _)
        omega

end Walk

namespace HelloParts

variable {p : HelloParts}

def start (p : HelloParts) : Nat :=
  p.head.length + 2 + 2 * p.suites.length + p.compression.length + 2

def legacyVersion (p : HelloParts) : Nat := toUInt16 (p.head.getD 0 0) (p.head.getD 1 0)

def ciphers (p : HelloParts) : List Nat := (p.suites.map UInt16.toNat).filter fun n => !isGrease n

theorem drop_head (p : HelloParts) : p.encode.drop p.head.length =
    ofUInt16 p.cipherLength ++ (encodeSuites p.suites ++ (p.compression ++
      (ofUInt16 (encodeExts p.exts).length ++ (encodeExts p.exts ++ p.trailing)))) := by
  rw [encode, drop_left]

theorem drop_suites (p : HelloParts) : p.encode.drop (p.head.length + 2) =
    encodeSuites p.suites ++ (p.compression ++
      (ofUInt16 (encodeExts p.exts).length ++ (encodeExts p.exts ++ p.trailing))) := by
  have h := drop_at p.drop_head
  rwa [ofUInt16_length] at h

theorem drop_compression (p : HelloParts) : p.encode.drop (p.head.length + 2 + 2 * p.suites.length) =
    p.compression ++ (ofUInt16 (encodeExts p.exts).length ++ (encodeExts p.exts ++ p.trailing)) := by
  have h := drop_at p.drop_suites
  rwa [encodeSuites_length] at h

theorem drop_total (p : HelloParts) :
    p.encode.drop (p.head.length + 2 + 2 * p.suites.length + p.compression.length) =
      ofUInt16 (encodeExts p.exts).length ++ (encodeExts p.exts ++ p.trailing) :=
  drop_at p.drop_compression

theorem drop_start (p : HelloParts) :
    p.encode.drop p.start = encodeExts p.exts ++ p.trailing := by
  have h := drop_at p.drop_total
  rwa [ofUInt16_length] at h

theorem encode_length (p : HelloParts) :
    p.encode.length = p.start + (encodeExts p.exts).length + p.trailing.length := by
  simp only [encode, start, length_append, ofUInt16_length, encodeSuites_length]
  omega

theorem cipherLength_facts (h : p.WellFormed) :
    p.cipherLength ≤ 2 * p.suites.length ∧ 2 * p.suites.length ≤ p.cipherLength + 1 := by
  unfold cipherLength
  cases hshort : p.short with
  | true =>
    have hpos : 0 < p.suites.length := length_pos_iff.mpr (h.short hshort)
    rw [Bool.toNat_true]
    omega
  | false =>
    rw [Bool.toNat_false]
    omega

theorem read_at {buf rest : Bytes} {o n : Nat} (hn : n < 65536)
    (h : buf.drop o = ofUInt16 n ++ rest) : readUInt16BE buf (.int o) = .ok n := by
  have hat := @readUInt16BE_at buf rest o (UInt8.ofNat (n / 256)) (UInt8.ofNat (n % 256)) 0 [] rfl h
  rw [Nat.add_zero] at hat
  rw [hat, toUInt16_ofNat hn]

theorem index_head {o : Nat} (h : o < p.head.length) :
    index p.encode (.int o) = index p.head (.int o) := by
  simp only [index, encode, getElem?_append_left h]

theorem read_version (h : p.WellFormed) : readUInt16BE p.encode (.int 0) = .ok p.legacyVersion := by
  obtain ⟨sidLen, -, hlength⟩ := h.head
  have hdrop : p.encode.drop 0 = [] ++ p.head.getD 0 0 :: p.head.getD 1 0 :: p.encode.drop 2 := by
    rw [encode]
    match hhead : p.head with
    | [] => rw [hhead, length_nil] at hlength; omega
    | [_] => rw [hhead, length_singleton] at hlength; omega
    | _ :: _ :: _ => rfl
  exact readUInt16BE_at 0 [] rfl hdrop

theorem readFront_encode (noBlock : String) (h : p.WellFormed) :
    readFront noBlock p.encode =
      .ok ⟨p.legacyVersion, p.ciphers, p.start, p.start + (encodeExts p.exts).length⟩ := by
  obtain ⟨sidLen, hsid, hlength⟩ := h.head
  obtain ⟨compLen, methods, hcomp, hmethods⟩ := h.compression
  obtain ⟨hlow, hhigh⟩ := cipherLength_facts h
  have hsum : 34 + (1 + sidLen) = p.head.length := by omega
  have hwhole := p.encode_length
  have hciphers := @readCiphers_parts p.encode _ p.suites (p.encode.length + 1) _ _ p.drop_suites
    (by unfold start at hwhole; omega)
    (show p.head.length + 2 + 2 * p.suites.length ≤ p.head.length + 2 + p.cipherLength + 1 by omega)
    (by omega) []
  have hindex : index p.encode (.int (p.head.length + 2 + 2 * p.suites.length)) = .int compLen.toNat := by
    have hdrop := p.drop_compression
    rw [hcomp, cons_append] at hdrop
    exact index_at hdrop
  have hplace : p.head.length + 2 + 2 * p.suites.length + (1 + compLen.toNat) =
      p.head.length + 2 + 2 * p.suites.length + p.compression.length := by
    rw [hcomp, length_cons]
    omega
  have htotal := read_at h.block p.drop_total
  have hfits : ¬p.encode.length <
      p.head.length + 2 + 2 * p.suites.length + p.compression.length + 2 := by
    unfold start at hwhole
    omega
  rw [readFront, read_version h, index_head (by omega), hsid]
  simp only [raise, Except.bind, Num.int_add, hsum, read_at h.cipher p.drop_head, hciphers, hindex,
    hplace, Num.exceeds_int, hfits, decide_false, Bool.false_eq_true, if_false, htotal]
  rfl

end HelloParts

theorem readFront_ok {noBlock : String} {front : Front}
    (h : readFront noBlock body = .ok front) :
    ∃ sidLen cipherLen stop compLen extTotal, index body (.int 34) = .int sidLen ∧
      readUInt16BE body (.int (35 + sidLen)) = .ok cipherLen ∧
      readCiphers body (35 + sidLen + 2 + cipherLen) (body.length + 1) (35 + sidLen + 2) [] =
        .ok (stop, front.ciphers) ∧
      index body (.int stop) = .int compLen ∧
      readUInt16BE body (.int (stop + 1 + compLen)) = .ok extTotal ∧
      front.start = stop + 1 + compLen + 2 ∧ front.extEnd = front.start + extTotal := by
  unfold readFront at h
  rcases hversion : readUInt16BE body (.int 0) with fault | version
  · rw [hversion] at h; cases h
  rw [hversion] at h
  simp only [raise, Except.bind] at h
  cases hsid : index body (.int 34) with
  | nan => rw [hsid] at h; cases h
  | int sidLen =>
    have hplace : Num.int 34 + (.int 1 + .int sidLen) = .int (35 + sidLen) := by
      simp only [Num.int_add, Num.int.injEq]
      omega
    rw [hsid, hplace] at h
    rcases hcs : readUInt16BE body (.int (35 + sidLen)) with fault | cipherLen
    · rw [hcs] at h; cases h
    rw [hcs] at h
    simp only [Num.int_add] at h
    cases hciphers : readCiphers body (35 + sidLen + 2 + cipherLen) (body.length + 1)
        (35 + sidLen + 2) [] with
    | error thrown => rw [hciphers] at h; cases h
    | ok result =>
      obtain ⟨stop, ciphers⟩ := result
      rw [hciphers] at h
      dsimp only at h
      cases hcomp : index body (.int stop) with
      | nan => rw [hcomp] at h; cases h
      | int compLen =>
        have hbehind : Num.int stop + (.int 1 + .int compLen) = .int (stop + 1 + compLen) := by
          simp only [Num.int_add, Num.int.injEq]
          omega
        rw [hcomp, hbehind] at h
        split at h
        case isTrue => cases h
        rcases htotal : readUInt16BE body (.int (stop + 1 + compLen)) with fault | extTotal
        · rw [htotal] at h; cases h
        rw [htotal] at h
        cases h
        exact ⟨sidLen, cipherLen, stop, compLen, extTotal, rfl, hcs, hciphers, hcomp, htotal,
          rfl, rfl⟩

theorem length_of_index {o n : Nat} (h : index body (.int o) = .int n) :
    o < body.length := by
  by_contra hge
  rw [index_end (by omega)] at h
  cases h

theorem length_of_read {o n : Nat} (h : readUInt16BE body (.int o) = .ok n) :
    o + 2 ≤ body.length ∧ n < 65536 := by
  obtain ⟨high, low, hdrop, rfl⟩ := HelloPieces.two_of_read h
  have hlength := congrArg List.length hdrop
  simp only [length_drop, length_cons] at hlength
  exact ⟨by omega, toUInt16_lt high low⟩

theorem drop_of_read {o n : Nat} (h : readUInt16BE body (.int o) = .ok n) :
    body.drop o = ofUInt16 n ++ body.drop (o + 2) := by
  obtain ⟨high, low, hdrop, rfl⟩ := HelloPieces.two_of_read h
  rw [ofUInt16_toUInt16, hdrop]
  rfl

section Fields

variable {body : Bytes} {sidLen cipherLen stop compLen extTotal : Nat} {suites : List UInt16}
  {exts : List Ext}

theorem parts_of_fields (hsid : index body (.int 34) = .int sidLen)
    (hcs : readUInt16BE body (.int (35 + sidLen)) = .ok cipherLen)
    (hsuites : body.drop (35 + sidLen + 2) = encodeSuites suites ++ body.drop stop)
    (hstop : stop = 35 + sidLen + 2 + 2 * suites.length) (hlow : cipherLen ≤ 2 * suites.length)
    (hhigh : 2 * suites.length ≤ cipherLen + 1) (hcomp : index body (.int stop) = .int compLen)
    (htotal : readUInt16BE body (.int (stop + 1 + compLen)) = .ok extTotal)
    (hdrop : body.drop (stop + 1 + compLen + 2) =
      encodeExts exts ++ body.drop (stop + 1 + compLen + 2 + extTotal))
    (hblock : (encodeExts exts).length = extTotal) :
    ∃ p : HelloParts, p.WellFormed ∧ p.encode = body ∧ p.exts = exts ∧
      p.short = decide (2 * suites.length ≠ cipherLen) := by
  obtain ⟨hcipherIn, hcipherLt⟩ := length_of_read hcs
  obtain ⟨htotalIn, htotalLt⟩ := length_of_read htotal
  have hmethods : body.drop stop = (body.drop stop).take (1 + compLen) ++
      body.drop (stop + 1 + compLen) := by
    rw [Nat.add_assoc, ← drop_drop, take_append_drop]
  let p : HelloParts := ⟨body.take (35 + sidLen), suites, decide (2 * suites.length ≠ cipherLen),
    (body.drop stop).take (1 + compLen), exts, body.drop (stop + 1 + compLen + 2 + extTotal)⟩
  have hlength : p.cipherLength = cipherLen := by
    change 2 * suites.length - (decide (2 * suites.length ≠ cipherLen)).toNat = cipherLen
    by_cases heq : 2 * suites.length = cipherLen
    · simp [heq]
    · simp only [ne_eq, heq, not_false_eq_true, decide_true, Bool.toNat_true]
      omega
  have hhead : (body.take (35 + sidLen)).length = 35 + sidLen := length_take_of_le (by omega)
  refine ⟨p, ⟨?_, ?_, ?_, ?_, ?_⟩, ?_, rfl, rfl⟩
  · refine ⟨sidLen, ?_, hhead⟩
    rw [← hsid]
    change index (body.take (35 + sidLen)) (.int 34) = _
    rw [index, index, getElem?_take_of_lt (by omega)]
  · intro hshort hnil
    have hne : 2 * suites.length ≠ cipherLen := of_decide_eq_true hshort
    change suites = [] at hnil
    rw [hnil] at hne hlow
    simp only [length_nil, Nat.mul_zero] at hne hlow
    omega
  · rw [hlength]
    exact hcipherLt
  · have hin := length_of_index hcomp
    obtain ⟨c, rest, hrest⟩ : ∃ c rest, body.drop stop = c :: rest :=
      ⟨_, _, drop_eq_getElem_cons hin⟩
    have hbyte := index_at hrest
    rw [hcomp, Num.int.injEq] at hbyte
    refine ⟨c, rest.take compLen, ?_, ?_⟩
    · change (body.drop stop).take (1 + compLen) = _
      rw [hrest, Nat.add_comm, take_succ_cons]
    · have hroom := congrArg List.length hrest
      rw [length_drop, length_cons] at hroom
      rw [length_take, hbyte]
      omega
  · change (encodeExts exts).length < 65536
    omega
  · change body.take (35 + sidLen) ++ (ofUInt16 p.cipherLength ++ (encodeSuites suites ++
      ((body.drop stop).take (1 + compLen) ++ (ofUInt16 (encodeExts exts).length ++
        (encodeExts exts ++ body.drop (stop + 1 + compLen + 2 + extTotal)))))) = body
    rw [← hdrop, hlength, hblock, ← drop_of_read htotal, ← hmethods, ← hsuites,
      ← drop_of_read hcs, take_append_drop]

end Fields

theorem parts_of_front {noBlock : String} {front : Front}
    (h : readFront noBlock body = .ok front) {exts : List Ext}
    (hdrop : body.drop front.start = encodeExts exts ++ body.drop front.extEnd)
    (hend : front.extEnd = front.start + (encodeExts exts).length) :
    ∃ p : HelloParts, p.WellFormed ∧ p.encode = body ∧ p.exts = exts := by
  obtain ⟨sidLen, cipherLen, stop, compLen, extTotal, hsid, hcs, hciphers, hcomp, htotal, hstart,
    hextEnd⟩ := readFront_ok h
  obtain ⟨suites, hsuites, hstop, hlow, hhigh⟩ := suites_of_readCiphers hciphers (by omega)
  rw [hextEnd, hstart] at hdrop
  obtain ⟨p, hp, hencode, hexts, -⟩ := parts_of_fields hsid hcs hsuites hstop (by omega) (by omega)
    hcomp htotal hdrop (by omega)
  exact ⟨p, hp, hencode, hexts⟩

end Meshpn.Tls.Fingerprint
