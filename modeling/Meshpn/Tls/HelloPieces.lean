import Meshpn.Tls.SniRewrite

/-!
The pieces of an extension block around its first server name. The walks over
the block see the pieces only through their lengths, so that a block with another
name, and with the lengths that go with it, is walked in the same way.
-/

namespace Meshpn.Tls

open Meshpn.Lib List
open Meshpn.Lib.Bytes

section Reads

variable {buf rest : Bytes} {o : Nat}

theorem index_at {b0 : UInt8} (h : buf.drop o = b0 :: rest) :
    index buf (.int o) = .int b0.toNat := by
  have hget : buf[o]? = some b0 := by
    rw [← Nat.add_zero o, ← getElem?_drop, h]
    rfl
  simp [index, hget]

theorem readUInt16BE_at {b1 b0 : UInt8} (i : Nat) (before : Bytes) (hlength : before.length = i)
    (h : buf.drop o = before ++ b1 :: b0 :: rest) :
    readUInt16BE buf (.int (o + i)) = .ok (toUInt16 b1 b0) := by
  have hhigh : buf[o + i]? = some b1 := by
    rw [← getElem?_drop, h, ← hlength]
    simp
  have hlow : buf[o + i + 1]? = some b0 := by
    rw [Nat.add_assoc, ← getElem?_drop, h, ← hlength]
    simp
  simp [readUInt16BE, hhigh, hlow]

theorem length_at {left : Bytes} (h : buf.drop o = left) (ho : o ≤ buf.length) :
    buf.length = o + left.length := by
  rw [← h, length_drop]
  omega

theorem subarray_at {piece : Bytes} (i : Nat) (before : Bytes) (hlength : before.length = i)
    (h : buf.drop o = before ++ (piece ++ rest)) :
    subarray buf (o + i) (o + i + piece.length) = piece := by
  rw [subarray, drop_take, Nat.add_sub_cancel_left, ← drop_drop, h, ← hlength,
    drop_left, take_left]

theorem drop_at {piece : Bytes} (h : buf.drop o = piece ++ rest) :
    buf.drop (o + piece.length) = rest := by
  rw [← drop_drop, h, drop_left]

end Reads

/-- Entries of a server name list that are not host names. -/
inductive OtherNames : Bytes → Prop where
  | nil : OtherNames []
  | cons {kind high low : UInt8} {name rest : Bytes} : kind ≠ 0 →
      name.length = toUInt16 high low → OtherNames rest →
      OtherNames (kind :: high :: low :: (name ++ rest))

section Names

variable {ed : Bytes}

theorem three_of_guard {so : Nat} (h : so + 3 ≤ ed.length) :
    ∃ kind high low rest, ed.drop so = kind :: high :: low :: rest := by
  have hlength : 3 ≤ (ed.drop so).length := by
    rw [length_drop]
    omega
  generalize ed.drop so = left at hlength ⊢
  rcases left with _ | ⟨kind, _ | ⟨high, _ | ⟨low, rest⟩⟩⟩
  case cons.cons.cons => exact ⟨kind, high, low, rest, rfl⟩
  all_goals simp at hlength

theorem kind_eq_zero {kind : UInt8} : Num.int kind.toNat = .int 0 ↔ kind = 0 := by
  rw [Num.int.injEq, ← UInt8.toNat_inj]
  rfl

theorem findName_some {fuel so p nl : Nat} {listLen : Int}
    (h : findName ed fuel so listLen = .ok (some (p, nl))) :
    ∃ others high low host rest, ed.drop so = others ++ 0 :: high :: low :: (host ++ rest) ∧
      OtherNames others ∧ host.length = toUInt16 high low ∧ nl = host.length ∧
      p = so + others.length + 3 ∧ ((others.length + 3 : Nat) : Int) ≤ listLen := by
  induction fuel generalizing so listLen with
  | zero => cases h
  | succ fuel ih =>
    rw [findName] at h
    split at h
    case isFalse => cases h
    rename_i hguard
    obtain ⟨kind, high, low, rest, hleft⟩ := three_of_guard hguard.1
    have hlength := length_at hleft (by omega)
    simp only [length_cons] at hlength
    rw [readUInt16BE_at 1 [kind] rfl hleft, index_at hleft] at h
    simp only [Except.bind] at h
    split at h
    case isTrue => cases h
    rename_i hfits
    have hname : (rest.take (toUInt16 high low)).length = toUInt16 high low := by
      rw [length_take]
      omega
    have hcut := take_append_drop (toUInt16 high low) rest
    split at h
    case isTrue hhost =>
      simp only [Except.ok.injEq, Option.some.injEq, Prod.mk.injEq] at h
      obtain ⟨rfl, rfl⟩ := h
      have hkind : kind = 0 := kind_eq_zero.mp hhost
      refine ⟨[], high, low, rest.take (toUInt16 high low), rest.drop (toUInt16 high low), ?_,
        .nil, hname, hname.symm, rfl, ?_⟩
      · rw [hleft, hcut, hkind]
        rfl
      · simp only [length_nil, Nat.zero_add]
        omega
    case isFalse hother =>
      obtain ⟨others, high', low', host, rest', hrest, hothers, hhost, hnl, hp, hlist⟩ := ih h
      have hdrop : ed.drop (so + 3 + toUInt16 high low) = rest.drop (toUInt16 high low) := by
        rw [← drop_drop, ← drop_drop, hleft]
        rfl
      refine ⟨kind :: high :: low :: (rest.take (toUInt16 high low) ++ others), high', low',
        host, rest', ?_, .cons (fun h => hother (kind_eq_zero.mpr h)) hname hothers, hhost, hnl,
        ?_, ?_⟩
      · rw [hleft]
        rw [hdrop] at hrest
        simp only [cons_append, append_assoc]
        rw [← hrest, hcut]
      · simp only [length_cons, length_append, hname]
        omega
      · simp only [length_cons, length_append, hname]
        omega

theorem readNames_keeps {fuel so : Nat} {listLen : Int} {sni names : List Bytes}
    (h : readNames ed fuel so listLen sni = .ok names) : ∃ more, names = sni ++ more := by
  induction fuel generalizing so listLen sni with
  | zero => cases h
  | succ fuel ih =>
    rw [readNames] at h
    split at h
    case isFalse =>
      cases h
      exact ⟨[], (append_nil _).symm⟩
    rename_i hguard
    obtain ⟨nl, _, hread⟩ := readUInt16BE_int ed (so + 1) (by omega)
    rw [hread] at h
    simp only [Except.bind] at h
    split at h
    case isTrue =>
      cases h
      exact ⟨[], (append_nil _).symm⟩
    case isFalse =>
      obtain ⟨more, hmore⟩ := ih h
      split at hmore
      · exact ⟨_ :: more, by rw [hmore, append_assoc, singleton_append]⟩
      · exact ⟨more, hmore⟩

theorem readNames_of_none {fuel so : Nat} {listLen : Int}
    (h : findName ed fuel so listLen = .ok none) (sni : List Bytes) :
    readNames ed fuel so listLen sni = .ok sni := by
  induction fuel generalizing so listLen with
  | zero => cases h
  | succ fuel ih =>
    rw [findName] at h
    rw [readNames]
    split at h
    case isFalse hguard => rw [if_neg hguard]
    rename_i hguard
    obtain ⟨nl, _, hread⟩ := readUInt16BE_int ed (so + 1) (by omega)
    rw [if_pos hguard]
    rw [hread] at h ⊢
    simp only [Except.bind] at h ⊢
    split at h
    case isTrue hover => rw [if_pos hover]
    rename_i hfits
    rw [if_neg hfits]
    split at h
    case isTrue => cases h
    rename_i hother
    rw [if_neg hother]
    exact ih h

theorem names_of {others host rest : Bytes} {high low : UInt8} (hothers : OtherNames others)
    (hhost : host.length = toUInt16 high low) {fuel so : Nat} {listLen : Int}
    (hleft : ed.drop so = others ++ 0 :: high :: low :: (host ++ rest)) (hso : so ≤ ed.length)
    (hlist : ((others.length + 3 : Nat) : Int) ≤ listLen) (hfuel : ed.length < fuel + so) :
    findName ed fuel so listLen = .ok (some (so + others.length + 3, host.length)) ∧
      ∀ sni, ∃ more, readNames ed fuel so listLen sni = .ok (sni ++ host :: more) := by
  induction hothers generalizing fuel so listLen with
  | nil =>
    have hlength := length_at hleft hso
    simp only [nil_append, length_cons, length_append] at hlength
    rcases fuel with _ | fuel
    · omega
    have hguard : so + 3 ≤ ed.length ∧ 3 ≤ listLen := by
      simp only [length_nil] at hlist
      omega
    have hfits : ¬ed.length < so + 3 + host.length := by omega
    have hread := readUInt16BE_at 1 [0] rfl hleft
    have hname := subarray_at 3 [0, high, low] rfl hleft
    rw [findName, if_pos hguard, hread, index_at hleft]
    simp only [Except.bind, ← hhost, if_neg hfits, UInt8.toNat_zero, if_true]
    refine ⟨rfl, fun sni => ?_⟩
    obtain ⟨names, hnames⟩ := readNames_ok ed fuel (so + 3 + host.length)
      (listLen - (3 + host.length)) (sni ++ [subarray ed (so + 3) (so + 3 + host.length)])
      (by omega) (by omega)
    obtain ⟨more, rfl⟩ := readNames_keeps hnames
    refine ⟨more, ?_⟩
    rw [readNames, if_pos hguard, hread, index_at hleft]
    simp only [Except.bind, ← hhost, if_neg hfits, UInt8.toNat_zero, if_true]
    rw [hnames, hname, append_assoc, singleton_append]
  | @cons kind high' low' name others hkind hname hothers ih =>
    have hlength := length_at hleft hso
    simp only [cons_append, length_cons, length_append] at hlength
    rcases fuel with _ | fuel
    · omega
    simp only [length_cons, length_append] at hlist
    have hguard : so + 3 ≤ ed.length ∧ 3 ≤ listLen := by omega
    have hfits : ¬ed.length < so + 3 + name.length := by omega
    have hother : ¬Num.int kind.toNat = .int 0 := fun h => hkind (kind_eq_zero.mp h)
    have hread := readUInt16BE_at 1 [kind] rfl hleft
    have hnext : ed.drop (so + 3 + name.length) =
        others ++ 0 :: high :: low :: (host ++ rest) := by
      have hentry : ed.drop so = (kind :: high' :: low' :: name) ++
          (others ++ 0 :: high :: low :: (host ++ rest)) := by
        rw [hleft]
        simp
      have hdrop := drop_at hentry
      rw [← hdrop]
      congr 1
      simp only [length_cons]
      omega
    obtain ⟨hfind, hnames⟩ := @ih fuel (so + 3 + name.length) (listLen - (3 + name.length))
      hnext (by omega) (by omega) (by omega)
    rw [findName, if_pos hguard, hread, index_at hleft]
    simp only [Except.bind, ← hname, if_neg hfits, if_neg hother]
    refine ⟨?_, fun sni => ?_⟩
    · rw [hfind]
      congr 3
      simp only [length_cons, length_append]
      omega
    · obtain ⟨more, hmore⟩ := hnames sni
      refine ⟨more, ?_⟩
      rw [readNames, if_pos hguard, hread, index_at hleft]
      simp only [Except.bind, ← hname, if_neg hfits, if_neg hother]
      exact hmore

end Names

/-- Extensions one after the other. -/
inductive Exts : Bytes → Prop where
  | nil : Exts []
  | cons {t1 t0 high low : UInt8} {ed rest : Bytes} : ed.length = toUInt16 high low → Exts rest →
      Exts (t1 :: t0 :: high :: low :: (ed ++ rest))

/-- Extensions in which no host name is found. -/
inductive OtherExts : Bytes → Prop where
  | nil : OtherExts []
  | cons {t1 t0 high low : UInt8} {ed rest : Bytes} : ed.length = toUInt16 high low →
      nameOf (toUInt16 t1 t0) ed = .ok none → OtherExts rest →
      OtherExts (t1 :: t0 :: high :: low :: (ed ++ rest))

section Extensions

variable {block : Bytes}

theorem four_of_guard {eo : Nat} (h : eo + 4 ≤ block.length) :
    ∃ t1 t0 high low rest, block.drop eo = t1 :: t0 :: high :: low :: rest := by
  have hlength : 4 ≤ (block.drop eo).length := by
    rw [length_drop]
    omega
  generalize block.drop eo = left at hlength ⊢
  rcases left with _ | ⟨t1, _ | ⟨t0, _ | ⟨high, _ | ⟨low, rest⟩⟩⟩⟩
  case cons.cons.cons.cons => exact ⟨t1, t0, high, low, rest, rfl⟩
  all_goals simp at hlength

theorem readExtension_other {et : Nat} {ed : Bytes} {found next : Extensions}
    (hname : ¬(et = 0 ∧ 2 ≤ ed.length)) (h : readExtension et ed found = .ok next) :
    next.sni = found.sni := by
  rw [readExtension, if_neg hname] at h
  split at h
  case isTrue hprotocol =>
    obtain ⟨listLen, _, hread⟩ := readUInt16BE_int ed 0 (by omega)
    obtain ⟨names, hnames⟩ :=
      readProtocols_ok ed (ed.length + 1) 2 listLen found.alpn (by omega) (by omega)
    simp only [hread, hnames, Except.bind, Except.map, Except.ok.injEq] at h
    rw [← h]
  case isFalse =>
    split at h
    case isTrue hversion =>
      obtain ⟨versions, hversions⟩ := readVersions_ok ed
        (Nat.min_le_left ed.length (1 + ed[0].toNat)) (ed.length + 1) 1
        found.supportedVersions (by omega) (by omega)
      rw [index_int (show 0 < ed.length by omega)] at h
      simp only [hversions, Except.map, Except.ok.injEq] at h
      rw [← h]
    case isFalse =>
      cases h
      rfl

theorem readExtension_keeps {et : Nat} {ed : Bytes} {found next : Extensions}
    (h : readExtension et ed found = .ok next) : ∃ more, next.sni = found.sni ++ more := by
  by_cases hname : et = 0 ∧ 2 ≤ ed.length
  · rw [readExtension, if_pos hname] at h
    obtain ⟨listLen, _, hread⟩ := readUInt16BE_int ed 0 (by omega)
    obtain ⟨names, hnames⟩ :=
      readNames_ok ed (ed.length + 1) 2 listLen found.sni (by omega) (by omega)
    simp only [hread, hnames, Except.bind, Except.map, Except.ok.injEq] at h
    subst h
    exact readNames_keeps hnames
  · exact ⟨[], by rw [readExtension_other hname h, append_nil]⟩

theorem readExtension_of_none {et : Nat} {ed : Bytes} {found next : Extensions}
    (hnone : nameOf et ed = .ok none) (h : readExtension et ed found = .ok next) :
    next.sni = found.sni := by
  by_cases hname : et = 0 ∧ 2 ≤ ed.length
  · rw [readExtension, if_pos hname] at h
    rw [nameOf, if_pos hname] at hnone
    obtain ⟨listLen, _, hread⟩ := readUInt16BE_int ed 0 (by omega)
    rw [hread] at h hnone
    simp only [Except.bind] at h hnone
    rw [readNames_of_none hnone] at h
    simp only [Except.map, Except.ok.injEq] at h
    rw [← h]
  · exact readExtension_other hname h

theorem exts_of_read {fuel eo : Nat} {found exts : Extensions}
    (h : readExtensions true block fuel eo found = .ok (.ok exts)) (heo : eo ≤ block.length) :
    Exts (block.drop eo) := by
  induction fuel generalizing eo found with
  | zero => cases h
  | succ fuel ih =>
    rw [readExtensions] at h
    split at h
    case isFalse hend =>
      split at h
      case isTrue => cases h
      rename_i hwhole
      have hexact : eo = block.length := by simpa using hwhole
      rw [hexact, drop_length]
      exact .nil
    case isTrue hguard =>
      obtain ⟨t1, t0, high, low, rest, hleft⟩ := four_of_guard hguard
      have hlength := length_at hleft heo
      simp only [length_cons] at hlength
      have htype : readUInt16BE block (.int eo) = .ok (toUInt16 t1 t0) :=
        readUInt16BE_at 0 [] rfl hleft
      rw [htype, readUInt16BE_at 2 [t1, t0] rfl hleft] at h
      simp only [Except.bind] at h
      split at h
      case isTrue => simp at h
      rename_i hfits
      obtain ⟨next, hnext⟩ :=
        readExtension_ok (toUInt16 t1 t0) (subarray block (eo + 4) (eo + 4 + toUInt16 high low))
          found
      rw [hnext] at h
      have hrest := ih h (by omega)
      have hed : (rest.take (toUInt16 high low)).length = toUInt16 high low := by
        rw [length_take]
        omega
      have hdrop : block.drop (eo + 4 + toUInt16 high low) = rest.drop (toUInt16 high low) := by
        rw [← drop_drop, ← drop_drop, hleft]
        rfl
      rw [hdrop] at hrest
      rw [hleft, ← take_append_drop (toUInt16 high low) rest]
      exact .cons hed hrest

theorem readExtensions_of {left : Bytes} (hexts : Exts left) {fuel eo : Nat} (found : Extensions)
    (hleft : block.drop eo = left) (heo : eo ≤ block.length) (hfuel : block.length < fuel + eo) :
    ∃ exts, readExtensions true block fuel eo found = .ok (.ok exts) ∧
      ∃ more, exts.sni = found.sni ++ more := by
  induction hexts generalizing fuel eo found with
  | nil =>
    have hlength := length_at hleft heo
    simp only [length_nil, Nat.add_zero] at hlength
    rcases fuel with _ | fuel
    · omega
    refine ⟨found, ?_, [], (append_nil _).symm⟩
    rw [readExtensions, if_neg (by omega)]
    simp [hlength]
  | @cons t1 t0 high low ed rest hed hrest ih =>
    have hlength := length_at hleft heo
    simp only [length_cons, length_append] at hlength
    rcases fuel with _ | fuel
    · omega
    have htype : readUInt16BE block (.int eo) = .ok (toUInt16 t1 t0) :=
      readUInt16BE_at 0 [] rfl hleft
    have hfits : ¬block.length < eo + 4 + ed.length := by omega
    have hdrop : block.drop (eo + 4 + ed.length) = rest := by
      rw [← drop_drop, ← drop_drop, hleft]
      simp
    obtain ⟨next, hnext⟩ := readExtension_ok (toUInt16 t1 t0) ed found
    obtain ⟨names, hnames⟩ := readExtension_keeps hnext
    obtain ⟨exts, hread, more, hmore⟩ := @ih fuel (eo + 4 + ed.length) next hdrop (by omega)
      (by omega)
    refine ⟨exts, ?_, names ++ more, by rw [hmore, hnames, append_assoc]⟩
    rw [readExtensions, if_pos (by omega), htype, readUInt16BE_at 2 [t1, t0] rfl hleft]
    simp only [Except.bind, ← hed, if_neg hfits]
    rw [subarray_at 4 [t1, t0, high, low] rfl hleft, hnext]
    exact hread

theorem findSni_some {start fuel eo : Nat} {found exts : Extensions} {layout : SniLayout}
    (hread : readExtensions true block fuel eo found = .ok (.ok exts)) (heo : eo ≤ block.length)
    (hfind : findSni start block fuel eo = .ok (some layout)) :
    ∃ before high low ed after so nl,
      block.drop eo = before ++ 0 :: 0 :: high :: low :: (ed ++ after) ∧ OtherExts before ∧
      Exts after ∧ ed.length = toUInt16 high low ∧ nameOf 0 ed = .ok (some (so, nl)) ∧
      layout = ⟨start + (eo + before.length + 4) + so, nl, start + (eo + before.length + 4),
        start + (eo + before.length + 4) - 2, start - 2⟩ := by
  induction fuel generalizing eo found with
  | zero => cases hfind
  | succ fuel ih =>
    rw [readExtensions] at hread
    rw [findSni] at hfind
    split at hfind
    case isFalse => cases hfind
    rename_i hguard
    obtain ⟨t1, t0, high, low, rest, hleft⟩ := four_of_guard hguard
    have hlength := length_at hleft heo
    simp only [length_cons] at hlength
    have htype : readUInt16BE block (.int eo) = .ok (toUInt16 t1 t0) :=
      readUInt16BE_at 0 [] rfl hleft
    rw [if_pos hguard, htype, readUInt16BE_at 2 [t1, t0] rfl hleft] at hread
    rw [htype, readUInt16BE_at 2 [t1, t0] rfl hleft] at hfind
    simp only [Except.bind] at hread hfind
    split at hread
    case isTrue => simp at hread
    rename_i hfits
    have hed : (rest.take (toUInt16 high low)).length = toUInt16 high low := by
      rw [length_take]
      omega
    have hcut := take_append_drop (toUInt16 high low) rest
    have hpiece : subarray block (eo + 4) (eo + 4 + toUInt16 high low) =
        rest.take (toUInt16 high low) := by
      have hat := @subarray_at block (rest.drop (toUInt16 high low)) eo
        (rest.take (toUInt16 high low)) 4 [t1, t0, high, low] rfl
        (by rw [hcut]; exact hleft)
      rwa [hed] at hat
    have hdrop : block.drop (eo + 4 + toUInt16 high low) = rest.drop (toUInt16 high low) := by
      rw [← drop_drop, ← drop_drop, hleft]
      rfl
    obtain ⟨next, hnext⟩ :=
      readExtension_ok (toUInt16 t1 t0) (subarray block (eo + 4) (eo + 4 + toUInt16 high low))
        found
    rw [hnext] at hread
    rw [hpiece] at hfind
    obtain ⟨name, hname⟩ := nameOf_ok (toUInt16 t1 t0) (rest.take (toUInt16 high low))
    rw [hname] at hfind
    cases name with
    | some name =>
      obtain ⟨so, nl⟩ := name
      simp only [Except.ok.injEq, Option.some.injEq] at hfind
      have hzero : toUInt16 t1 t0 = 0 := by
        by_contra hother
        rw [nameOf, if_neg fun h => hother h.1] at hname
        cases hname
      have hbytes : t1 = 0 ∧ t0 = 0 := by
        unfold toUInt16 at hzero
        rw [← UInt8.toNat_inj, ← UInt8.toNat_inj]
        simp only [UInt8.toNat_zero]
        omega
      rw [hzero] at hname
      have hexts := exts_of_read hread (by omega)
      rw [hdrop] at hexts
      refine ⟨[], high, low, _, _, so, nl, ?_, .nil, hexts, hed, hname, ?_⟩
      · rw [hleft, hcut, hbytes.1, hbytes.2]
        rfl
      · rw [← hfind]
        simp
    | none =>
      obtain ⟨before, high', low', ed, after, so, nl, hblock, hbefore, hafter, hed', hname',
        hlayout⟩ := ih hread (by omega) hfind
      refine ⟨t1 :: t0 :: high :: low :: (rest.take (toUInt16 high low) ++ before), high', low',
        ed, after, so, nl, ?_, .cons hed hname hbefore, hafter, hed', hname', ?_⟩
      · rw [hleft]
        rw [hdrop] at hblock
        simp only [cons_append, append_assoc]
        rw [← hblock, hcut]
      · have hshift : eo + 4 + toUInt16 high low + before.length =
            eo + (t1 :: t0 :: high :: low ::
              (rest.take (toUInt16 high low) ++ before)).length := by
          simp only [length_cons, length_append, hed]
          omega
        rw [hlayout, hshift]

theorem block_of {before ed after host : Bytes} {high low : UInt8} {so nl : Nat}
    (hbefore : OtherExts before) (hafter : Exts after) (hed : ed.length = toUInt16 high low)
    (hname : nameOf 0 ed = .ok (some (so, nl)))
    (hnames : ∀ found, ∃ next, readExtension 0 ed found = .ok next ∧
      ∃ more, next.sni = found.sni ++ host :: more)
    {start fuel eo : Nat} (found : Extensions)
    (hleft : block.drop eo = before ++ 0 :: 0 :: high :: low :: (ed ++ after))
    (heo : eo ≤ block.length) (hfuel : block.length < fuel + eo) :
    findSni start block fuel eo =
        .ok (some ⟨start + (eo + before.length + 4) + so, nl, start + (eo + before.length + 4),
          start + (eo + before.length + 4) - 2, start - 2⟩) ∧
      ∃ exts, readExtensions true block fuel eo found = .ok (.ok exts) ∧
        ∃ more, exts.sni = found.sni ++ host :: more := by
  induction hbefore generalizing fuel eo found with
  | nil =>
    have hlength := length_at hleft heo
    simp only [nil_append, length_cons, length_append] at hlength
    rcases fuel with _ | fuel
    · omega
    have htype : readUInt16BE block (.int eo) = .ok 0 := readUInt16BE_at 0 [] rfl hleft
    have hsize := readUInt16BE_at 2 [0, 0] rfl hleft
    have hpiece := subarray_at 4 [0, 0, high, low] rfl hleft
    have hfits : ¬block.length < eo + 4 + ed.length := by omega
    have hdrop : block.drop (eo + 4 + ed.length) = after := by
      rw [← drop_drop, ← drop_drop, hleft]
      simp
    obtain ⟨next, hnext, names, hsni⟩ := hnames found
    obtain ⟨exts, hread, more, hmore⟩ :=
      @readExtensions_of block after hafter fuel _ next hdrop (by omega) (by omega)
    refine ⟨?_, exts, ?_, names ++ more, ?_⟩
    · rw [findSni, if_pos (by omega), htype, hsize]
      simp only [Except.bind, ← hed, hpiece, hname, length_nil, Nat.add_zero]
    · rw [readExtensions, if_pos (by omega), htype, hsize]
      simp only [Except.bind, ← hed, if_neg hfits, hpiece, hnext]
      exact hread
    · rw [hmore, hsni, append_assoc, cons_append]
  | @cons t1 t0 high' low' ed' rest hed' hnone hrest ih =>
    have hlength := length_at hleft heo
    simp only [cons_append, length_cons, length_append] at hlength
    rcases fuel with _ | fuel
    · omega
    have hleft' : block.drop eo = t1 :: t0 :: high' :: low' ::
        (ed' ++ (rest ++ 0 :: 0 :: high :: low :: (ed ++ after))) := by
      rw [hleft]
      simp
    have htype : readUInt16BE block (.int eo) = .ok (toUInt16 t1 t0) :=
      readUInt16BE_at 0 [] rfl hleft'
    have hsize := readUInt16BE_at 2 [t1, t0] rfl hleft'
    have hpiece := subarray_at 4 [t1, t0, high', low'] rfl hleft'
    have hfits : ¬block.length < eo + 4 + ed'.length := by omega
    have hdrop : block.drop (eo + 4 + ed'.length) =
        rest ++ 0 :: 0 :: high :: low :: (ed ++ after) := by
      rw [← drop_drop, ← drop_drop, hleft']
      simp
    obtain ⟨next, hnext⟩ := readExtension_ok (toUInt16 t1 t0) ed' found
    obtain ⟨hfind, exts, hread, more, hmore⟩ := @ih fuel (eo + 4 + ed'.length) next hdrop
      (by omega) (by omega)
    refine ⟨?_, exts, ?_, more, ?_⟩
    · rw [findSni, if_pos (by omega), htype, hsize]
      simp only [Except.bind, ← hed', hpiece, hnone]
      have hshift : eo + 4 + ed'.length + rest.length =
          eo + (t1 :: t0 :: high' :: low' :: (ed' ++ rest)).length := by
        simp only [length_cons, length_append]
        omega
      rw [hfind, hshift]
    · rw [readExtensions, if_pos (by omega), htype, hsize]
      simp only [Except.bind, ← hed', if_neg hfits, hpiece, hnext]
      exact hread
    · rw [hmore, readExtension_of_none hnone hnext]

end Extensions

end Meshpn.Tls
