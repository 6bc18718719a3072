import Meshpn.Tls.HelloBody

/-!
All host names of a ClientHello, and what the rewriting does to them: the first
one is replaced and the others stay. Where the list of names no longer reaches
the first one, its names are gone and those of later extensions stay.
-/

namespace Meshpn.Tls

open Meshpn.Lib List
open Meshpn.Lib.Bytes

/-- The host names read from what is left of a list, of which `listLen` bytes are declared. -/
def NamesIn (left : Bytes) (listLen : Int) (names : List Bytes) : Prop :=
  ∀ (ed : Bytes) (so fuel : Nat), ed.drop so = left → so ≤ ed.length → ed.length < fuel + so →
    ∀ sni, readNames ed fuel so listLen sni = .ok (sni ++ names)

theorem namesIn_stop {left : Bytes} {listLen : Int} (h : left.length < 3 ∨ listLen < 3) :
    NamesIn left listLen [] := by
  intro ed so fuel hleft hso hfuel sni
  have hlength := length_at hleft hso
  cases fuel with
  | zero => omega
  | succ fuel =>
    rw [readNames, if_neg (by omega), append_nil]

theorem namesIn_cons {kind high low : UInt8} {name rest : Bytes} {listLen : Int}
    {names : List Bytes} (hname : name.length = toUInt16 high low) (hlist : 3 ≤ listLen)
    (h : NamesIn rest (listLen - (3 + name.length)) names) :
    NamesIn (kind :: high :: low :: (name ++ rest)) listLen
      ((if kind = 0 then [name] else []) ++ names) := by
  intro ed so fuel hleft hso hfuel sni
  have hlength := length_at hleft hso
  simp only [length_cons, length_append] at hlength
  rcases fuel with _ | fuel
  · omega
  have hread := readUInt16BE_at 1 [kind] rfl hleft
  have hpiece := subarray_at 3 [kind, high, low] rfl hleft
  have hdrop : ed.drop (so + 3 + name.length) = rest := by
    rw [← drop_drop, ← drop_drop, hleft]
    simp
  have hrest := h ed (so + 3 + name.length) fuel hdrop (by omega) (by omega)
  have hfits : ¬ed.length < so + 3 + name.length := by omega
  rw [readNames, if_pos ⟨by omega, hlist⟩, hread, index_at hleft]
  simp only [Except.bind, ← hname, if_neg hfits]
  rw [hrest]
  by_cases hkind : kind = 0
  · rw [if_pos hkind, if_pos (kind_eq_zero.mpr hkind), hpiece, append_assoc]
  · rw [if_neg hkind, if_neg fun heq => hkind (kind_eq_zero.mp heq), nil_append]

theorem namesIn_cut {kind high low : UInt8} {rest : Bytes} {listLen : Int}
    (hcut : rest.length < toUInt16 high low) :
    NamesIn (kind :: high :: low :: rest) listLen [] := by
  intro ed so fuel hleft hso hfuel sni
  have hlength := length_at hleft hso
  simp only [length_cons] at hlength
  rcases fuel with _ | fuel
  · omega
  have hover : ed.length < so + 3 + toUInt16 high low := by omega
  rw [readNames, readUInt16BE_at 1 [kind] rfl hleft]
  simp only [Except.bind, if_pos hover, append_nil, ite_self]

theorem exists_namesIn (left : Bytes) (listLen : Int) : ∃ names, NamesIn left listLen names := by
  induction hsize : left.length using Nat.strong_induction_on generalizing left listLen with
  | _ size ih =>
    by_cases hstop : left.length < 3 ∨ listLen < 3
    case pos => exact ⟨[], namesIn_stop hstop⟩
    rcases left with _ | ⟨kind, _ | ⟨high, _ | ⟨low, rest⟩⟩⟩
    case cons.cons.cons =>
      by_cases hcut : rest.length < toUInt16 high low
      case pos => exact ⟨[], namesIn_cut hcut⟩
      have hname : (rest.take (toUInt16 high low)).length = toUInt16 high low := by
        rw [length_take]
        omega
      obtain ⟨names, hnames⟩ := ih (rest.drop (toUInt16 high low)).length
        (by simp only [length_drop, length_cons] at hsize ⊢; omega)
        (rest.drop (toUInt16 high low))
        (listLen - (3 + (rest.take (toUInt16 high low)).length)) rfl
      have hcons := @namesIn_cons kind high low _ _ listLen _ hname (by omega) hnames
      rw [take_append_drop] at hcons
      exact ⟨_, hcons⟩
    all_goals exact absurd (Or.inl (by simp)) hstop

theorem namesIn_host {others host names : Bytes} {more : List Bytes} {high low : UInt8}
    {listLen : Int} (hothers : OtherNames others) (hhost : host.length = toUInt16 high low)
    (hcovers : ((others.length + 3 : Nat) : Int) ≤ listLen)
    (h : NamesIn names (listLen - ((others.length + 3 : Nat) + host.length)) more) :
    NamesIn (others ++ 0 :: high :: low :: (host ++ names)) listLen (host :: more) := by
  induction hothers generalizing listLen with
  | nil =>
    simp only [length_nil, Nat.zero_add] at hcovers h
    exact namesIn_cons hhost (by omega) (by simpa using h)
  | @cons kind high' low' name others hkind hname hothers ih =>
    simp only [length_cons, length_append] at hcovers h
    have hrest := @ih (listLen - (3 + name.length)) (by omega) (by
      convert h using 1
      omega)
    have hcons := @namesIn_cons kind high' low' name _ listLen _ hname (by omega) hrest
    rw [if_neg hkind, nil_append] at hcons
    simpa using hcons

theorem namesIn_short {others rest : Bytes} {listLen : Int} (hothers : OtherNames others)
    (hshort : listLen < ((others.length + 3 : Nat) : Int)) : NamesIn (others ++ rest) listLen [] := by
  induction hothers generalizing listLen with
  | nil => exact namesIn_stop (Or.inr (by simpa using hshort))
  | @cons kind high low name others hkind hname hothers ih =>
    simp only [length_cons, length_append] at hshort
    by_cases hstop : listLen < 3
    · exact namesIn_stop (Or.inr hstop)
    have hrest := @ih (listLen - (3 + name.length)) (by omega)
    have hcons := @namesIn_cons kind high low name _ listLen _ hname (by omega) hrest
    rw [if_neg hkind, nil_append] at hcons
    simpa using hcons

/-- The host names read from extensions one after the other. -/
def ExtNamesIn (left : Bytes) (names : List Bytes) : Prop :=
  ∀ (block : Bytes) (eo fuel : Nat), block.drop eo = left → eo ≤ block.length →
    block.length < fuel + eo → ∀ found, ∃ exts,
      readExtensions true block fuel eo found = .ok (.ok exts) ∧ exts.sni = found.sni ++ names

def Adds (et : Nat) (ed : Bytes) (names : List Bytes) : Prop :=
  ∀ found, ∃ next, readExtension et ed found = .ok next ∧ next.sni = found.sni ++ names

theorem adds_names {ed : Bytes} {list : Nat} {names : List Bytes} (hlong : 2 ≤ ed.length)
    (hlist : readUInt16BE ed (.int 0) = .ok list) (h : NamesIn (ed.drop 2) list names) :
    Adds 0 ed names := by
  intro found
  refine ⟨{ found with sni := found.sni ++ names }, ?_, rfl⟩
  rw [readExtension, if_pos ⟨rfl, hlong⟩, hlist]
  simp only [Except.bind, h ed 2 (ed.length + 1) rfl hlong (by omega) found.sni, Except.map]

theorem exists_adds (et : Nat) (ed : Bytes) : ∃ names, Adds et ed names := by
  by_cases hname : et = 0 ∧ 2 ≤ ed.length
  case pos =>
    obtain ⟨rfl, hlong⟩ := hname
    obtain ⟨list, _, hlist⟩ := readUInt16BE_int ed 0 (by omega)
    obtain ⟨names, hnames⟩ := exists_namesIn (ed.drop 2) list
    exact ⟨names, adds_names hlong hlist hnames⟩
  case neg =>
    refine ⟨[], fun found => ?_⟩
    obtain ⟨next, hnext⟩ := readExtension_ok et ed found
    exact ⟨next, hnext, by rw [readExtension_other hname hnext, append_nil]⟩

theorem extNamesIn_nil : ExtNamesIn [] [] := by
  intro block eo fuel hleft heo hfuel found
  have hlength := length_at hleft heo
  simp only [length_nil, Nat.add_zero] at hlength
  rcases fuel with _ | fuel
  · omega
  refine ⟨found, ?_, (append_nil _).symm⟩
  rw [readExtensions, if_neg (by omega)]
  simp [hlength]

theorem extNamesIn_cons {t1 t0 high low : UInt8} {ed rest : Bytes} {names more : List Bytes}
    (hed : ed.length = toUInt16 high low) (hadds : Adds (toUInt16 t1 t0) ed names)
    (h : ExtNamesIn rest more) :
    ExtNamesIn (t1 :: t0 :: high :: low :: (ed ++ rest)) (names ++ more) := by
  intro block eo fuel hleft heo hfuel found
  have hlength := length_at hleft heo
  simp only [length_cons, length_append] at hlength
  rcases fuel with _ | fuel
  · omega
  have htype : readUInt16BE block (.int eo) = .ok (toUInt16 t1 t0) :=
    readUInt16BE_at 0 [] rfl hleft
  have hfits : ¬block.length < eo + 4 + ed.length := by omega
  have hdrop : block.drop (eo + 4 + ed.length) = rest := by
    rw [← drop_drop, ← drop_drop, hleft]
    simp
  obtain ⟨next, hnext, hsni⟩ := hadds found
  obtain ⟨exts, hread, hmore⟩ := h block (eo + 4 + ed.length) fuel hdrop (by omega) (by omega) next
  refine ⟨exts, ?_, by rw [hmore, hsni, append_assoc]⟩
  rw [readExtensions, if_pos (by omega), htype, readUInt16BE_at 2 [t1, t0] rfl hleft]
  simp only [Except.bind, ← hed, if_neg hfits]
  rw [subarray_at 4 [t1, t0, high, low] rfl hleft, hnext]
  exact hread

theorem exists_extNamesIn {left : Bytes} (h : Exts left) : ∃ names, ExtNamesIn left names := by
  induction h with
  | nil => exact ⟨[], extNamesIn_nil⟩
  | @cons t1 t0 high low ed rest hed hrest ih =>
    obtain ⟨more, hmore⟩ := ih
    obtain ⟨names, hnames⟩ := exists_adds (toUInt16 t1 t0) ed
    exact ⟨names ++ more, extNamesIn_cons hed hnames hmore⟩

theorem extNamesIn_before {before rest : Bytes} {names : List Bytes} (hbefore : OtherExts before)
    (h : ExtNamesIn rest names) : ExtNamesIn (before ++ rest) names := by
  induction hbefore with
  | nil => exact h
  | @cons t1 t0 high low ed before hed hnone hbefore ih =>
    have hadds : Adds (toUInt16 t1 t0) ed [] := by
      intro found
      obtain ⟨next, hnext⟩ := readExtension_ok (toUInt16 t1 t0) ed found
      exact ⟨next, hnext, by rw [readExtension_of_none hnone hnext, append_nil]⟩
    have hcons := extNamesIn_cons hed hadds ih
    simpa using hcons

namespace HelloPieces

variable {p : HelloPieces}

theorem ext_adds (hothers : OtherNames p.others) (hlist : p.list < 65536)
    (hhost : p.host.length < 65536) {more : List Bytes}
    (hmore : NamesIn p.names
      (p.list - (((p.others.length + 3 : Nat) : Int) + p.host.length)) more) :
    Adds 0 p.ext (if p.others.length + 3 ≤ p.list then p.host :: more else []) := by
  have hread : readUInt16BE p.ext (.int 0) = .ok p.list := by
    have hat := @readUInt16BE_at p.ext
      (p.others ++ 0 :: (ofUInt16 p.host.length ++ (p.host ++ p.names))) 0
      (UInt8.ofNat (p.list / 256)) (UInt8.ofNat (p.list % 256)) 0 [] rfl rfl
    rw [Nat.zero_add] at hat
    rw [hat, toUInt16_ofNat hlist]
  have hlength := ext_length p
  refine adds_names (by omega) hread ?_
  split
  case isTrue hcovers =>
    exact namesIn_host hothers (toUInt16_ofNat hhost).symm (by exact_mod_cast hcovers) hmore
  case isFalse hshort =>
    have hdrop : p.ext.drop 2 =
        p.others ++ 0 :: (ofUInt16 p.host.length ++ (p.host ++ p.names)) := rfl
    rw [hdrop]
    exact namesIn_short hothers (by omega)

/-- All names of a body: those of the first extension with a host name, and those of the
extensions after it. -/
theorem body_names (hfront : Fronts p.front) (hbefore : OtherExts p.before)
    (hsize : p.block.length < 65536) {names last : List Bytes} (hadds : Adds 0 p.ext names)
    (hlast : ExtNamesIn p.after last) :
    ∃ exts, readHello true p.body = .ok (.ok exts) ∧ exts.sni = names ++ last := by
  have hext : p.ext.length < 65536 := by
    rw [block_length] at hsize
    omega
  have hfrom := @extNamesIn_cons 0 0 _ _ p.ext p.after names last (toUInt16_ofNat hext).symm hadds
    hlast
  have hall : ExtNamesIn p.block (names ++ last) := extNamesIn_before hbefore hfrom
  obtain ⟨exts, hread, hsni⟩ := hall p.block 0 (p.block.length + 1) drop_zero (Nat.zero_le _)
    (by omega) ⟨[], [], []⟩
  refine ⟨exts, ?_, hsni⟩
  rw [readHello, extensionBlock_body hfront hsize]
  exact hread

theorem rename_names {name : Bytes} {exts : Extensions} (h : p.WellFormed) (hfits : p.Fits name)
    (hread : readHello true p.body = .ok (.ok exts)) (hone : exts.sni.length = 1) :
    ∃ renamed, readHello true (p.rename name).body = .ok (.ok renamed) ∧
      renamed.sni = if p.others.length + 3 + p.host.length ≤ p.list + name.length
        then [name] else [] := by
  obtain ⟨more, hmore⟩ := exists_namesIn p.names
    (p.list - (((p.others.length + 3 : Nat) : Int) + p.host.length))
  obtain ⟨last, hlast⟩ := exists_extNamesIn h.after
  have hlow := hfits.listLow
  have hhigh := hfits.listHigh
  have hname : (p.rename name).host = name := rfl
  have hlist : ((p.rename name).list : Int) = p.list + (name.length - p.host.length) := by
    simp only [rename]
    omega
  have hshort := hfits.short
  have hadds := ext_adds h.others h.list h.host hmore
  rw [if_pos h.covers] at hadds
  obtain ⟨exts', hread', hsni⟩ := body_names h.front h.before h.block hadds hlast
  rw [hread] at hread'
  cases hread'
  -- one name in all, so that none follows the first one
  have hnone : more = [] ∧ last = [] := by
    rw [hsni] at hone
    simp only [length_append, length_cons] at hone
    exact ⟨length_eq_zero_iff.mp (by omega), length_eq_zero_iff.mp (by omega)⟩
  obtain ⟨rfl, rfl⟩ := hnone
  have hsame : (p.list : Int) - (((p.others.length + 3 : Nat) : Int) + p.host.length) =
      (p.rename name).list - ((((p.rename name).others.length + 3 : Nat) : Int) +
        (p.rename name).host.length) := by
    rw [hlist, hname]
    simp only [rename]
    omega
  rw [hsame] at hmore
  have hrenamed := @ext_adds (p.rename name) h.others (by omega) (by rw [hname]; omega) _ hmore
  have hblock := rename_block_length p name
  have hsize := hfits.block
  obtain ⟨renamed, hread', hnames⟩ :=
    @body_names (p.rename name) h.front h.before (by omega) _ _ hrenamed hlast
  refine ⟨renamed, hread', ?_⟩
  rw [hnames, append_nil, hname]
  have hothers : (p.rename name).others = p.others := rfl
  rw [hothers]
  congr 1
  simp only [eq_iff_iff]
  omega

end HelloPieces

end Meshpn.Tls
