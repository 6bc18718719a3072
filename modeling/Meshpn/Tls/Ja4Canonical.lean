import Mathlib.Data.List.Sort
import Mathlib.Logic.Relation
import Meshpn.Tls.FingerprintParts

/-!
JA4 is the same for all the hellos that a client may send for one another: the order of
the suites and of the extensions, and GREASE anywhere, leave no trace in it. The sorted
digest of JA3 does not see them either.
-/

namespace Meshpn.Tls.Fingerprint

open Meshpn.Lib List
open Meshpn.Lib.Bytes
open Meshpn.Lib.Words

/-- A GREASE value is put between the values that an extension lists, and the list's length is
adjusted. -/
inductive Greased (e e' : Ext) : Prop where
  | words {n g : Nat} {front rest : Bytes} : e'.type = e.type → e.type ∈ [10, 13, 50] →
      isGrease g = true → front.length % 2 = 0 → front.length ≤ rounded n → n + 2 < 65536 →
      e.data = ofUInt16 n ++ (front ++ rest) →
      e'.data = ofUInt16 (n + 2) ++ (front ++ (ofUInt16 g ++ rest)) → Greased e e'
  | versions {slen g : Nat} {front rest : Bytes} : e'.type = e.type → e.type = 43 →
      isGrease g = true → front.length % 2 = 0 → front.length ≤ slen → slen + 2 < 256 →
      e.data = UInt8.ofNat slen :: (front ++ rest) →
      e'.data = UInt8.ofNat (slen + 2) :: (front ++ (ofUInt16 g ++ rest)) → Greased e e'

def ordered (exts : List Ext) : List Ext := exts.filter fun e => [13, 50].contains e.type

/-- One change of a hello; `inOrder` if the extensions with signature algorithms stay in their
order. -/
inductive Change (inOrder : Bool) : HelloParts → HelloParts → Prop where
  | suites {p : HelloParts} {suites : List UInt16} : p.suites.Perm suites →
      Change inOrder p { p with suites := suites }
  | exts {p : HelloParts} {exts : List Ext} : p.exts.Perm exts →
      (inOrder = true → ordered p.exts = ordered exts) → Change inOrder p { p with exts := exts }
  | grease_suite {p : HelloParts} {front rest : List UInt16} {g : UInt16} :
      p.suites = front ++ rest → isGrease g.toNat = true →
      Change inOrder p { p with suites := front ++ g :: rest }
  | grease_ext {p : HelloParts} {front rest : List Ext} {e : Ext} : p.exts = front ++ rest →
      isGrease e.type = true → Change inOrder p { p with exts := front ++ e :: rest }
  | grease_value {p : HelloParts} {front rest : List Ext} {e e' : Ext} :
      p.exts = front ++ e :: rest → Greased e e' →
      Change inOrder p { p with exts := front ++ e' :: rest }

def Varies (inOrder : Bool) : HelloParts → HelloParts → Prop := Relation.EqvGen (Change inOrder)

def Distinct (p : HelloParts) : Prop := ((kept p.exts).map Ext.type).Nodup

variable {p : HelloParts} {e e' : Ext} {α : Type} {exts : List Ext}

theorem sort_of_perm [LinearOrder α] {xs ys : List α} (h : xs.Perm ys) :
    xs.mergeSort (fun a b => decide (a ≤ b)) = ys.mergeSort fun a b => decide (a ≤ b) :=
  ((mergeSort_perm _ _).trans (h.trans (mergeSort_perm _ _).symm)).eq_of_pairwise'
    (pairwise_mergeSort' (· ≤ ·) xs) (pairwise_mergeSort' (· ≤ ·) ys)

theorem ascending_of_perm {ns ms : List Nat} (h : ns.Perm ms) : ascending ns = ascending ms :=
  sort_of_perm h

theorem sortedHex_of_perm {ns ms : List Nat} (h : ns.Perm ms) : sortedHex ns = sortedHex ms :=
  sort_of_perm (h.map hex4)

theorem eq_of_perm_short {xs ys : List α} (h : xs.Perm ys) (hshort : xs.length ≤ 1) :
    xs = ys := by
  match xs, hshort with
  | [], _ => exact (nil_perm.mp h).symm
  | [x], _ => exact singleton_perm.mp h

theorem kept_cons (e : Ext) (exts : List Ext) :
    kept (e :: exts) = if skipped e.type then kept exts else e :: kept exts := by
  rw [kept, filter_cons]
  cases skipped e.type <;> rfl

theorem kept_append (front rest : List Ext) : kept (front ++ rest) = kept front ++ kept rest :=
  filter_append _ _

theorem ofType_append (types : List Nat) (list : Bytes → List α) (front rest : List Ext) :
    ofType types list (front ++ rest) = ofType types list front ++ ofType types list rest := by
  rw [ofType, filter_append, flatMap_append]
  rfl

theorem ofType_replace {types : List Nat} {list : Bytes → List α}
    (htype : e'.type = e.type) (hlist : types.contains e.type = true → list e.data = list e'.data)
    (front rest : List Ext) : ofType types list (kept (front ++ e :: rest)) =
      ofType types list (kept (front ++ e' :: rest)) := by
  rw [kept_append, kept_append, ofType_append, ofType_append, kept_cons, kept_cons, htype]
  cases skipped e.type with
  | true => rfl
  | false =>
    rw [if_neg Bool.false_ne_true, if_neg Bool.false_ne_true, ofType_cons, ofType_cons, htype]
    split
    case isTrue hin => rw [hlist hin]
    case isFalse => rfl

theorem one_of_type (h : (exts.map Ext.type).Nodup) (t : Nat) :
    (exts.filter fun e => [t].contains e.type).length ≤ 1 := by
  have hnodup : ((exts.filter fun e => [t].contains e.type).map Ext.type).Nodup :=
    (filter_sublist.map Ext.type).nodup h
  have hall : ∀ e ∈ exts.filter fun e => [t].contains e.type, e.type = t := fun e he => by
    simpa using (mem_filter.mp he).2
  generalize exts.filter (fun e => [t].contains e.type) = found at hnodup hall ⊢
  match found with
  | [] => exact Nat.zero_le 1
  | [_] => exact Nat.le_refl 1
  | a :: b :: more =>
    rw [map_cons, map_cons, hall a (by simp), hall b (by simp)] at hnodup
    exact absurd mem_cons_self (nodup_cons.mp hnodup).1

theorem ofType_of_perm {exts exts' : List Ext} (h : exts.Perm exts')
    (hdistinct : (exts.map Ext.type).Nodup) (t : Nat) (list : Bytes → List α) :
    ofType [t] list exts = ofType [t] list exts' := by
  rw [ofType, ofType, eq_of_perm_short (h.filter _) (one_of_type hdistinct t)]

theorem ofType_perm {exts exts' : List Ext} (h : exts.Perm exts') (types : List Nat)
    (list : Bytes → List α) : (ofType types list exts).Perm (ofType types list exts') :=
  (h.filter _).flatMap_right _

theorem wordList_ofUInt16 {n : Nat} (hn : n < 65536) (rest : Bytes) :
    wordList (ofUInt16 n ++ rest) = (pairs (rest.take (rounded n))).filter fun n => !isGrease n := by
  rw [ofUInt16, cons_append, cons_append, nil_append, wordList, toUInt16_ofNat hn]

theorem isGrease_lt {g : Nat} (h : isGrease g = true) : g < 65536 := by
  have hall : (greaseValues.all fun g => decide (g < 65536)) = true := by decide
  exact of_decide_eq_true (all_eq_true.mp hall g (contains_iff_mem.mp h))

def cleanVersions (data : Bytes) : List Nat := (versionList data).filter fun v => !isGrease v

theorem Greased.type_eq (h : Greased e e') : e'.type = e.type := by
  cases h <;> assumption

theorem Greased.words_eq (h : Greased e e') (htype : e.type ≠ 43) :
    wordList e.data = wordList e'.data := by
  cases h with
  | versions _ h43 => exact absurd h43 htype
  | @words n g front rest _ _ hg heven hlimit hn hdata hdata' =>
    obtain ⟨hwith, hwithout⟩ := @pairs_take_insert _ rest _ _ (isGrease_lt hg) heven hlimit
    rw [hdata, hdata', wordList_ofUInt16 (by omega), wordList_ofUInt16 hn, rounded_add_two, hwith,
      hwithout, filter_append, filter_append, filter_cons, hg]
    rfl

theorem Greased.versions_eq (h : Greased e e') (htype : e.type = 43) :
    cleanVersions e.data = cleanVersions e'.data := by
  cases h with
  | words _ hin =>
    rw [htype] at hin
    simp at hin
  | @versions slen g front rest _ _ hg heven hlimit hn hdata hdata' =>
    obtain ⟨hwith, hwithout⟩ := @pairs_take_insert _ rest _ _ (isGrease_lt hg) heven hlimit
    have hlen : (UInt8.ofNat slen).toNat = slen := UInt8.toNat_ofNat_of_lt' (show slen < 256 by omega)
    have hlen' : (UInt8.ofNat (slen + 2)).toNat = slen + 2 := UInt8.toNat_ofNat_of_lt' hn
    rw [hdata, hdata', cleanVersions, cleanVersions, versionList, versionList, hlen, hlen', hwith,
      hwithout, filter_append, filter_append, filter_cons, hg]
    rfl

theorem Greased.not_other (h : Greased e e') : e.type ≠ 16 ∧ e.type ≠ 11 := by
  cases h with
  | words _ hin =>
    simp only [mem_cons, not_mem_nil, or_false] at hin
    omega
  | versions _ h43 => omega

/-- The two hellos are the same to the sorted digest of JA3. -/
structure Similar (p q : HelloParts) : Prop where
  legacyVersion : p.legacyVersion = q.legacyVersion
  ciphers : p.ciphers.Perm q.ciphers
  types : ((kept p.exts).map Ext.type).Perm ((kept q.exts).map Ext.type)
  curves : (ofType [10] wordList (kept p.exts)).Perm (ofType [10] wordList (kept q.exts))
  formats : (ofType [11] formatList (kept p.exts)).Perm (ofType [11] formatList (kept q.exts))

/-- The two hellos are the same to JA4 as well. -/
structure Alike (p q : HelloParts) : Prop extends Similar p q where
  protocols : ofType [16] protocolNames (kept p.exts) = ofType [16] protocolNames (kept q.exts)
  versions : ofType [43] cleanVersions (kept p.exts) = ofType [43] cleanVersions (kept q.exts)
  signatures : ofType [13, 50] wordList (kept p.exts) = ofType [13, 50] wordList (kept q.exts)

theorem Similar.refl (p : HelloParts) : Similar p p := ⟨rfl, .refl _, .refl _, .refl _, .refl _⟩

theorem Similar.symm {p q : HelloParts} (h : Similar p q) : Similar q p :=
  ⟨h.legacyVersion.symm, h.ciphers.symm, h.types.symm, h.curves.symm, h.formats.symm⟩

theorem Similar.trans {p q r : HelloParts} (h : Similar p q) (h' : Similar q r) : Similar p r :=
  ⟨h.legacyVersion.trans h'.legacyVersion, h.ciphers.trans h'.ciphers, h.types.trans h'.types,
    h.curves.trans h'.curves, h.formats.trans h'.formats⟩

theorem Alike.refl (p : HelloParts) : Alike p p := ⟨.refl p, rfl, rfl, rfl⟩

theorem Alike.symm {p q : HelloParts} (h : Alike p q) : Alike q p :=
  ⟨h.toSimilar.symm, h.protocols.symm, h.versions.symm, h.signatures.symm⟩

theorem Alike.trans {p q r : HelloParts} (h : Alike p q) (h' : Alike q r) : Alike p r :=
  ⟨h.toSimilar.trans h'.toSimilar, h.protocols.trans h'.protocols, h.versions.trans h'.versions,
    h.signatures.trans h'.signatures⟩

theorem Alike.of_suites {suites : List UInt16}
    (h : p.ciphers.Perm { p with suites := suites }.ciphers) : Alike p { p with suites := suites } :=
  { Alike.refl p with ciphers := h }

theorem Alike.of_kept (h : kept p.exts = kept exts) :
    Alike p { p with exts := exts } where
  legacyVersion := rfl
  ciphers := .refl _
  types := .of_eq (congrArg _ h)
  curves := .of_eq (congrArg _ h)
  formats := .of_eq (congrArg _ h)
  protocols := congrArg _ h
  versions := congrArg _ h
  signatures := congrArg _ h

theorem ciphers_of_perm {suites : List UInt16} (h : p.suites.Perm suites) :
    p.ciphers.Perm { p with suites := suites }.ciphers := (h.map _).filter _

theorem ciphers_of_grease {front rest : List UInt16} {g : UInt16}
    (h : p.suites = front ++ rest) (hg : isGrease g.toNat = true) :
    p.ciphers = { p with suites := front ++ g :: rest }.ciphers := by
  simp only [HelloParts.ciphers, h, map_append, map_cons, filter_append,
    filter_cons, hg, Bool.not_true, Bool.false_eq_true, if_false]

theorem kept_of_grease {front rest : List Ext} {e : Ext} (h : isGrease e.type = true) :
    kept (front ++ rest) = kept (front ++ e :: rest) := by
  rw [kept_append, kept_append, kept_cons, skipped_eq e.type_lt, h, if_pos rfl]

theorem ordered_kept (exts : List Ext) : (kept exts).filter (fun e => [13, 50].contains e.type) =
    kept (ordered exts) := by
  rw [kept, kept, ordered, filter_comm]

theorem Similar.of_perm (h : p.exts.Perm exts) :
    Similar p { p with exts := exts } :=
  have hkept : (kept p.exts).Perm (kept exts) := h.filter _
  ⟨rfl, .refl _, hkept.map _, ofType_perm hkept _ _, ofType_perm hkept _ _⟩

theorem Alike.of_perm (h : p.exts.Perm exts)
    (hordered : ordered p.exts = ordered exts) (hdistinct : Distinct p) :
    Alike p { p with exts := exts } :=
  have hkept : (kept p.exts).Perm (kept exts) := h.filter _
  { Similar.of_perm h with
    protocols := ofType_of_perm hkept hdistinct 16 _
    versions := ofType_of_perm hkept hdistinct 43 _
    signatures := by rw [ofType, ofType, ordered_kept, ordered_kept, hordered] }

theorem Alike.of_greased {front rest : List Ext}
    (hexts : p.exts = front ++ e :: rest) (hgreased : Greased e e') :
    Alike p { p with exts := front ++ e' :: rest } := by
  have htype := hgreased.type_eq
  obtain ⟨hprotocols, hformats⟩ := hgreased.not_other
  have hwords : [13, 50].contains e.type = true ∨ [10].contains e.type = true →
      wordList e.data = wordList e'.data := fun hin => hgreased.words_eq fun h43 => by
    rw [h43] at hin
    rcases hin with hin | hin <;> cases hin
  have htypes : (kept p.exts).map Ext.type = (kept (front ++ e' :: rest)).map Ext.type := by
    rw [hexts, kept_append, kept_append, kept_cons, kept_cons, htype]
    cases skipped e.type <;> simp [htype]
  exact {
    legacyVersion := rfl
    ciphers := .refl _
    types := .of_eq htypes
    curves := by
      rw [hexts]
      exact .of_eq (ofType_replace htype (fun hin => hwords (.inr hin)) _ _)
    formats := by
      rw [hexts]
      exact .of_eq (ofType_replace htype (fun hin => absurd (by simpa using hin) hformats) _ _)
    protocols := by
      rw [hexts]
      exact ofType_replace htype (fun hin => absurd (by simpa using hin) hprotocols) _ _
    versions := by
      rw [hexts]
      exact ofType_replace htype (fun hin => hgreased.versions_eq (by simpa using hin)) _ _
    signatures := by
      rw [hexts]
      exact ofType_replace htype (fun hin => hwords (.inl hin)) _ _ }

theorem Change.similar {inOrder : Bool} {p q : HelloParts} (h : Change inOrder p q) : Similar p q := by
  cases h with
  | suites hperm => exact (Alike.of_suites (ciphers_of_perm hperm)).toSimilar
  | exts hperm => exact .of_perm hperm
  | grease_suite hsuites hg =>
    exact (Alike.of_suites (.of_eq (ciphers_of_grease hsuites hg))).toSimilar
  | grease_ext hexts he => exact (Alike.of_kept (hexts ▸ kept_of_grease he)).toSimilar
  | grease_value hexts hgreased => exact (Alike.of_greased hexts hgreased).toSimilar

theorem Change.alike {p q : HelloParts} (h : Change true p q) (hdistinct : Distinct p) :
    Alike p q := by
  cases h with
  | suites hperm => exact .of_suites (ciphers_of_perm hperm)
  | exts hperm hordered => exact .of_perm hperm (hordered rfl) hdistinct
  | grease_suite hsuites hg => exact .of_suites (.of_eq (ciphers_of_grease hsuites hg))
  | grease_ext hexts he => exact .of_kept (hexts ▸ kept_of_grease he)
  | grease_value hexts hgreased => exact .of_greased hexts hgreased

theorem Varies.similar {inOrder : Bool} {p q : HelloParts} (h : Varies inOrder p q) : Similar p q := by
  induction h with
  | rel p q hchange => exact hchange.similar
  | refl p => exact .refl p
  | symm p q _ ih => exact ih.symm
  | trans p q r _ _ ih ih' => exact ih.trans ih'

theorem Similar.distinct {p q : HelloParts} (h : Similar p q) (hdistinct : Distinct p) : Distinct q :=
  h.types.nodup hdistinct

theorem Varies.alike {p q : HelloParts} (h : Varies true p q) (hdistinct : Distinct p) : Alike p q := by
  induction h with
  | rel p q hchange => exact hchange.alike hdistinct
  | refl p => exact .refl p
  | symm p q hvaries ih => exact (ih ((Varies.similar hvaries).symm.distinct hdistinct)).symm
  | trans p q r hvaries _ ih ih' =>
    exact (ih hdistinct).trans (ih' ((Varies.similar hvaries).distinct hdistinct))

def ja4View (p : HelloParts) : Ja4Components :=
  addJa4 ⟨p.legacyVersion, p.ciphers, false, none, [], [], []⟩ (kept p.exts)

def ja3View (p : HelloParts) : Ja3Components :=
  addJa3 ⟨p.legacyVersion, p.ciphers, [], [], []⟩ (kept p.exts)

/-- The fields of `Ja4` that are built from sorted lists. -/
structure SameJa4 (r r' : Ja4) : Prop where
  fingerprint : r.fingerprint = r'.fingerprint
  fingerprintAlt : r.fingerprintAlt = r'.fingerprintAlt
  rawR : r.rawR = r'.rawR
  rawRAlt : r.rawRAlt = r'.rawRAlt

theorem resolved_clean (versions : List Nat) (legacyVersion : Nat) :
    ja4ResolvedTlsVersion versions legacyVersion =
      ja4ResolvedTlsVersion (versions.filter fun v => !isGrease v) legacyVersion := by
  simp only [ja4ResolvedTlsVersion, filter_filter, Bool.and_self]

theorem clean_ofType (exts : List Ext) :
    (ofType [43] versionList exts).filter (fun v => !isGrease v) = ofType [43] cleanVersions exts := by
  rw [ofType, ofType, filter_flatMap]
  rfl

theorem hasSni_eq (exts : List Ext) :
    (exts.any fun e => e.type == 0) = (exts.map Ext.type).any fun t => t == 0 := by
  rw [any_map]
  rfl

section Alike

variable {p q : HelloParts} (h : Alike p q)

include h

theorem Alike.version :
    ja4ResolvedTlsVersion (ja4View p).supportedVersions (ja4View p).legacyVersion =
      ja4ResolvedTlsVersion (ja4View q).supportedVersions (ja4View q).legacyVersion := by
  change ja4ResolvedTlsVersion (ofType [43] versionList (kept p.exts)) p.legacyVersion =
    ja4ResolvedTlsVersion (ofType [43] versionList (kept q.exts)) q.legacyVersion
  rw [resolved_clean, clean_ofType, h.versions, h.legacyVersion, ← clean_ofType, ← resolved_clean]

theorem Alike.hasSni : (ja4View p).hasSniExtension = (ja4View q).hasSniExtension := by
  change ((kept p.exts).any fun e => e.type == 0) = (kept q.exts).any fun e => e.type == 0
  rw [hasSni_eq, hasSni_eq, h.types.any_eq]

theorem Alike.firstAlpn : (ja4View p).firstAlpnBytes = (ja4View q).firstAlpnBytes :=
  congrArg List.head? h.protocols

theorem Alike.ja4Signatures : (ja4View p).signatureAlgorithms = (ja4View q).signatureAlgorithms :=
  h.signatures

theorem Alike.ja4Ciphers : (ja4View p).ciphers.Perm (ja4View q).ciphers := h.ciphers

theorem Alike.ja4Types : (ja4View p).extTypes.Perm (ja4View q).extTypes := h.types

theorem Alike.ja4 (sha256Trunc12 : String → String) :
    SameJa4 (ja4Render sha256Trunc12 (ja4View p)) (ja4Render sha256Trunc12 (ja4View q)) := by
  have hciphers := h.ja4Ciphers
  have htypes := h.ja4Types
  have hsorted := sortedHex_of_perm hciphers
  have hforC := sortedHex_of_perm (htypes.filter fun t => t != 0 && t != 16)
  have hmiddle := sortedHex_of_perm (htypes.filter fun t => t != 16)
  constructor <;>
    simp only [ja4Render, h.version, h.hasSni, h.firstAlpn, h.ja4Signatures, hciphers.length_eq,
      htypes.length_eq, hsorted, hforC, hmiddle]

end Alike

theorem Similar.ja3Sorted {p q : HelloParts} (h : Similar p q) :
    ja3SortedString (ja3View p) = ja3SortedString (ja3View q) := by
  have hversion : (ja3View p).legacyVersion = (ja3View q).legacyVersion := h.legacyVersion
  have hciphers : ascending (ja3View p).ciphers = ascending (ja3View q).ciphers :=
    ascending_of_perm h.ciphers
  have htypes : ascending (ja3View p).extTypes = ascending (ja3View q).extTypes :=
    ascending_of_perm h.types
  have hcurves : ascending (ja3View p).curves = ascending (ja3View q).curves :=
    ascending_of_perm h.curves
  have hformats : ascending (ja3View p).ecPointFormats = ascending (ja3View q).ecPointFormats :=
    ascending_of_perm h.formats
  rw [ja3SortedString, hversion, hciphers, htypes, hcurves, hformats, ja3SortedString]

theorem ja4_encode (sha256Trunc12 : String → String) (h : p.WellFormed) :
    ja4FromClientHelloBody sha256Trunc12 p.encode = .ok (ja4Render sha256Trunc12 (ja4View p)) := by
  rw [ja4FromClientHelloBody, ja4Components_encode h]
  rfl

theorem ja3_encode (md5 : String → String) (h : p.WellFormed) :
    ja3ComponentsFromClientHelloBody md5 p.encode =
      .ok ⟨ja3View p, md5 (ja3String (ja3View p)), md5 (ja3SortedString (ja3View p))⟩ := by
  rw [ja3ComponentsFromClientHelloBody, ja3Components_encode h]
  rfl

/-- JA4 is canonical. A body that it accepts is made of parts; with distinct extensions, whatever
the parts are varied to has the same JA4. The sorted digest of JA3 does not even see the order of
the signature algorithms' extensions. -/
theorem ja4_canonical (sha256Trunc12 md5 : String → String) {body : Bytes} {r : Ja4}
    (h : ja4FromClientHelloBody sha256Trunc12 body = .ok r) :
    (∃ p : HelloParts, p.WellFormed ∧ p.encode = body) ∧
    ∀ p q : HelloParts, p.WellFormed → p.encode = body → q.WellFormed →
      (Distinct p → Varies true p q →
        ∃ r', ja4FromClientHelloBody sha256Trunc12 q.encode = .ok r' ∧ SameJa4 r r') ∧
      (Varies false p q →
        ∃ j j', ja3ComponentsFromClientHelloBody md5 body = .ok j ∧
          ja3ComponentsFromClientHelloBody md5 q.encode = .ok j' ∧
          j.ja3SortedDigest = j'.ja3SortedDigest) := by
  constructor
  · cases hread : ja4Components body with
    | error thrown =>
      rw [ja4FromClientHelloBody, hread] at h
      cases h
    | ok c => exact parts_of_ja4 hread
  · rintro p q hp rfl hq
    constructor
    · intro hdistinct hvaries
      rw [ja4_encode sha256Trunc12 hp] at h
      cases h
      exact ⟨_, ja4_encode sha256Trunc12 hq, (hvaries.alike hdistinct).ja4 sha256Trunc12⟩
    · intro hvaries
      exact ⟨_, _, ja3_encode md5 hp, ja3_encode md5 hq, congrArg md5 hvaries.similar.ja3Sorted⟩

def plainHello : HelloParts :=
  ⟨[3, 3] ++ List.replicate 32 0 ++ [0], [0x1301, 0x1302], false, [1, 0],
    [⟨43, [2, 3, 4], by decide, by decide⟩, ⟨13, [0, 2, 4, 3], by decide, by decide⟩], []⟩

theorem plainHello_wellFormed : plainHello.WellFormed :=
  ⟨⟨0, by decide, by decide⟩, by decide, by decide, ⟨1, [0], rfl, rfl⟩, by decide⟩

def variedHello : HelloParts :=
  { plainHello with
    suites := [0x1302, 0x1301]
    exts := ⟨0x2a2a, [], by decide, by decide⟩ :: plainHello.exts }

theorem variedHello_wellFormed : variedHello.WellFormed :=
  ⟨⟨0, by decide, by decide⟩, by decide, by decide, ⟨1, [0], rfl, rfl⟩, by decide⟩

theorem ja4_canonical_varied :
    ∃ r', ja4FromClientHelloBody id variedHello.encode = .ok r' ∧
      SameJa4 (ja4Render id (ja4View plainHello)) r' := by
  have hsuites : Change true plainHello { plainHello with suites := [0x1302, 0x1301] } :=
    .suites (.swap _ _ _)
  have hgrease : Change true { plainHello with suites := [0x1302, 0x1301] } variedHello :=
    @Change.grease_ext true { plainHello with suites := [0x1302, 0x1301] } [] plainHello.exts
      ⟨0x2a2a, [], by decide, by decide⟩ rfl rfl
  exact ((ja4_canonical id id (ja4_encode id plainHello_wellFormed)).2 plainHello variedHello
    plainHello_wellFormed rfl variedHello_wellFormed).1
    (show ((kept plainHello.exts).map Ext.type).Nodup by decide)
    (.trans _ _ _ (.rel _ _ hsuites) (.rel _ _ hgrease))

end Meshpn.Tls.Fingerprint
