import Meshpn.Tls.HelloParts

/-!
What the fingerprint functions make of a body, in terms of the extensions that they
look at. No step throws, so that each function is a sum over the extensions.
-/

namespace Meshpn.Tls.Fingerprint

open Meshpn.Lib List
open Meshpn.Lib.Bytes
open Meshpn.Lib.Words

def wordList : Bytes → List Nat
  | high :: low :: rest =>
    (pairs (rest.take (rounded (toUInt16 high low)))).filter fun n => !isGrease n
  | _ => []

def versionList : Bytes → List Nat
  | slen :: rest => pairs (rest.take slen.toNat)
  | [] => []

def formatList : Bytes → List Nat
  | flen :: rest => (rest.take flen.toNat).map UInt8.toNat
  | [] => []

def protocolNames (data : Bytes) : List Bytes :=
  if data.length < 2 then []
  else
    match (readUInt16BE data (.int 0)).bind fun listLen =>
      readProtocols data (data.length + 1) 2 listLen [] with
    | .ok names => names
    | .error _ => []

theorem two_at {data : Bytes} {i : Nat} (h : i + 2 ≤ data.length) :
    ∃ high low, data.drop i = high :: low :: data.drop (i + 2) ∧
      readUInt16BE data (.int i) = .ok (toUInt16 high low) := by
  obtain ⟨n, -, hread⟩ := readUInt16BE_int data i h
  obtain ⟨high, low, hdrop, rfl⟩ := HelloPieces.two_of_read hread
  exact ⟨high, low, hdrop, hread⟩

variable {data : Bytes} {α : Type}

theorem readWords_eq {stop fuel i : Nat} (hfuel : data.length < fuel + i)
    (hi : i ≤ data.length) (found : List Nat) :
    readWords data stop fuel i found = .ok (found ++
      (pairs ((data.drop i).take (rounded (stop - i)))).filter fun n => !isGrease n) := by
  induction fuel generalizing i found with
  | zero => omega
  | succ fuel ih =>
    rw [readWords]
    by_cases hmore : i < stop ∧ i + 2 ≤ data.length
    · obtain ⟨high, low, hdrop, hread⟩ := two_at hmore.2
      rw [if_pos hmore, hread]
      change readWords data stop fuel (i + 2) _ = _
      have hrounded : rounded (stop - i) = rounded (stop - (i + 2)) + 2 := by
        unfold rounded
        omega
      rw [ih (by omega) hmore.2, hdrop, hrounded, pairs_take_two, filter_cons]
      cases isGrease (toUInt16 high low) <;> simp
    · rw [if_neg hmore]
      have hnone : pairs ((data.drop i).take (rounded (stop - i))) = [] := by
        refine pairs_of_short ?_
        rw [length_take, length_drop]
        unfold rounded
        omega
      rw [hnone, filter_nil, append_nil]

theorem readWordList_eq (h : 2 ≤ data.length) (found : List Nat) :
    readWordList data found = .ok (found ++ wordList data) := by
  obtain ⟨high, low, hdrop, hread⟩ := @two_at data 0 h
  rw [readWordList, hread]
  change readWords data _ _ _ _ = _
  rw [readWords_eq (by omega) h, Nat.add_sub_cancel_left]
  rw [drop_zero] at hdrop
  rw [hdrop]
  rfl

theorem wordList_short (h : ¬2 ≤ data.length) : wordList data = [] := by
  match data, h with
  | [], _ => rfl
  | [_], _ => rfl
  | _ :: _ :: rest, h => exact absurd (Nat.le_add_left 2 rest.length) h

theorem readVersions_eq {stop fuel pos : Nat} (hstop : stop ≤ data.length)
    (hfuel : data.length < fuel + pos) (hpos : pos ≤ data.length) (versions : List Nat) :
    readVersions data stop fuel pos versions =
      .ok (versions ++ pairs ((data.drop pos).take (stop - pos))) := by
  induction fuel generalizing pos versions with
  | zero => omega
  | succ fuel ih =>
    rw [readVersions]
    by_cases hmore : pos + 1 < stop
    · obtain ⟨high, low, hdrop, hread⟩ := @two_at data pos (by omega)
      rw [if_pos hmore, hread]
      change readVersions data stop fuel (pos + 2) _ = _
      have hrest : stop - pos = stop - (pos + 2) + 2 := by omega
      rw [ih (by omega) (by omega), hdrop, hrest, pairs_take_two, append_assoc]
      rfl
    · rw [if_neg hmore]
      have hnone : pairs ((data.drop pos).take (stop - pos)) = [] := by
        refine pairs_of_short ?_
        rw [length_take]
        omega
      rw [hnone, append_nil]

def ofType {α : Type} (types : List Nat) (list : Bytes → List α) (exts : List Ext) : List α :=
  (exts.filter fun e => types.contains e.type).flatMap fun e => list e.data

theorem ofType_nil (types : List Nat) (list : Bytes → List α) : ofType types list [] = [] :=
  rfl

theorem ofType_cons (types : List Nat) (list : Bytes → List α) (e : Ext) (exts : List Ext) :
    ofType types list (e :: exts) =
      (if types.contains e.type then list e.data else []) ++ ofType types list exts := by
  rw [ofType, ofType, filter_cons]
  cases types.contains e.type <;> simp

theorem foldlM_of {step : α → Nat → Bytes → Except Thrown α} {add : α → List Ext → α}
    (hnil : ∀ found, add found [] = found)
    (hcons : ∀ found e exts, step found e.type e.data = .ok (add found [e]) ∧
      add (add found [e]) exts = add found (e :: exts)) (exts : List Ext) (found : α) :
    exts.foldlM (fun found e => step found e.type e.data) found = .ok (add found exts) := by
  induction exts generalizing found with
  | nil =>
    rw [hnil]
    rfl
  | cons e exts ih =>
    obtain ⟨hstep, hsum⟩ := hcons found e exts
    rw [foldlM_cons, hstep]
    change exts.foldlM _ (add found [e]) = _
    rw [ih, hsum]

/-- What JA3 has found behind these extensions. -/
def addJa3 (found : Ja3Components) (exts : List Ext) : Ja3Components where
  legacyVersion := found.legacyVersion
  ciphers := found.ciphers
  extTypes := found.extTypes ++ exts.map Ext.type
  curves := found.curves ++ ofType [10] wordList exts
  ecPointFormats := found.ecPointFormats ++ ofType [11] formatList exts

theorem addJa3_cons (found : Ja3Components) (e : Ext) (exts : List Ext) :
    addJa3 (addJa3 found [e]) exts = addJa3 found (e :: exts) := by
  simp [addJa3, ofType_cons, ofType_nil]

theorem ja3Step_eq (found : Ja3Components) (e : Ext) :
    ja3Step found e.type e.data = .ok (addJa3 found [e]) := by
  simp only [addJa3, ofType_cons, ofType_nil, append_nil, map_cons, map_nil,
    contains_cons, contains_nil, Bool.or_false, beq_iff_eq]
  unfold ja3Step
  by_cases hcurves : e.type = 10
  · by_cases hlength : 2 ≤ e.data.length
    · rw [if_pos ⟨hcurves, hlength⟩, readWordList_eq hlength]
      simp [hcurves, Except.map]
    · rw [if_neg fun h => hlength h.2, if_neg (by omega)]
      simp [hcurves, wordList_short hlength]
  · rw [if_neg fun h => hcurves h.1]
    by_cases hformats : e.type = 11
    · match hdata : e.data with
      | [] => simp [hformats, formatList]
      | flen :: rest =>
        rw [if_pos ⟨hformats, Nat.le_add_left 1 rest.length⟩]
        simp [hformats, formatList, index, subarray, Nat.add_comm 1]
    · rw [if_neg fun h => hformats h.1]
      simp [hcurves, hformats]

/-- What JA4 has found behind these extensions. -/
def addJa4 (found : Ja4Components) (exts : List Ext) : Ja4Components where
  legacyVersion := found.legacyVersion
  ciphers := found.ciphers
  hasSniExtension := found.hasSniExtension || exts.any fun e => e.type == 0
  firstAlpnBytes := found.firstAlpnBytes.or (ofType [16] protocolNames exts).head?
  supportedVersions := found.supportedVersions ++ ofType [43] versionList exts
  signatureAlgorithms := found.signatureAlgorithms ++ ofType [13, 50] wordList exts
  extTypes := found.extTypes ++ exts.map Ext.type

theorem addJa4_cons (found : Ja4Components) (e : Ext) (exts : List Ext) :
    addJa4 (addJa4 found [e]) exts = addJa4 found (e :: exts) := by
  simp [addJa4, ofType_cons, ofType_nil, Bool.or_assoc, head?_append, Option.or_assoc]

theorem protocolNames_eq (h : 2 ≤ data.length) :
    ∃ listLen, readUInt16BE data (.int 0) = .ok listLen ∧
      readProtocols data (data.length + 1) 2 listLen [] = .ok (protocolNames data) := by
  obtain ⟨listLen, -, hread⟩ := readUInt16BE_int data 0 h
  obtain ⟨names, hnames⟩ := readProtocols_ok data (data.length + 1) 2 listLen [] (by omega) h
  refine ⟨listLen, hread, ?_⟩
  rw [protocolNames, if_neg (Nat.not_lt.mpr h), hread]
  simp only [Except.bind, hnames]

theorem protocolNames_short (h : ¬2 ≤ data.length) : protocolNames data = [] :=
  if_pos (Nat.lt_of_not_le h)

theorem readVersionList_eq {slen : UInt8} {rest : Bytes} (found : List Nat) :
    readVersions (slen :: rest) (min (slen :: rest).length (1 + slen.toNat)) ((slen :: rest).length + 1) 1
      found = .ok (found ++ versionList (slen :: rest)) := by
  rw [readVersions_eq (Nat.min_le_left _ _) (by omega) (Nat.le_add_left 1 rest.length)]
  have hroom : min (slen :: rest).length (1 + slen.toNat) - 1 = min rest.length slen.toNat := by
    rw [length_cons]
    omega
  rw [hroom, drop_one, tail_cons, versionList, Nat.min_comm, ← take_eq_take_min]

theorem signatures_step {found : Ja4Components} {e : Ext} (h : e.type = 13 ∨ e.type = 50) :
    (if 2 ≤ e.data.length then
      (readWordList e.data found.signatureAlgorithms).map
        ({ found with signatureAlgorithms := ·, extTypes := found.extTypes ++ [e.type] })
      else .ok { found with extTypes := found.extTypes ++ [e.type] }) = .ok (addJa4 found [e]) := by
  have hadd : addJa4 found [e] = { found with
      signatureAlgorithms := found.signatureAlgorithms ++ wordList e.data
      extTypes := found.extTypes ++ [e.type] } := by
    rcases h with h | h <;> simp [addJa4, ofType_cons, ofType_nil, h]
  rw [hadd]
  split
  case isTrue hlength =>
    rw [readWordList_eq hlength]
    rfl
  case isFalse hlength => rw [wordList_short hlength, append_nil]

theorem ja4Step_eq (found : Ja4Components) (e : Ext) :
    ja4Step found e.type e.data = .ok (addJa4 found [e]) := by
  unfold ja4Step
  by_cases hsni : e.type = 0
  · rw [if_pos hsni]
    simp [addJa4, ofType_cons, ofType_nil, hsni]
  rw [if_neg hsni]
  by_cases halpn : e.type = 16
  · by_cases hlength : 2 ≤ e.data.length
    · obtain ⟨listLen, hread, hnames⟩ := protocolNames_eq hlength
      rw [if_pos ⟨halpn, hlength⟩, hread]
      simp [addJa4, ofType_cons, ofType_nil, halpn, raise, Except.bind, Except.map, hnames]
    · rw [if_neg fun h => hlength h.2]
      simp [addJa4, ofType_cons, ofType_nil, halpn, protocolNames_short hlength]
  rw [if_neg fun h => halpn h.1]
  by_cases hversions : e.type = 43
  · rcases hdata : e.data with _ | ⟨slen, rest⟩
    · simp [addJa4, ofType_cons, ofType_nil, hversions, hdata, versionList]
    · rw [if_pos ⟨hversions, Nat.le_add_left 1 rest.length⟩, index_int (Nat.zero_lt_succ _)]
      simp only [getElem_cons_zero, readVersionList_eq, raise, Except.map]
      simp [addJa4, ofType_cons, ofType_nil, hversions, hdata]
  rw [if_neg fun h => hversions h.1]
  by_cases hsigs : e.type = 13
  · rw [← signatures_step (.inl hsigs)]
    simp only [hsigs, true_and]
    split
    case isTrue => rfl
    case isFalse => simp
  by_cases hcert : e.type = 50
  · rw [← signatures_step (.inr hcert)]
    simp only [hcert, true_and]
    rw [if_neg (by omega)]
  · simp [addJa4, ofType_cons, ofType_nil, hsni, halpn, hversions, hsigs, hcert]

/-- What is found of signature algorithms. -/
def addSig (found : SignatureAlgorithms) (exts : List Ext) : SignatureAlgorithms where
  signatureAlgorithms := found.signatureAlgorithms ++ ofType [13] wordList exts
  signatureAlgorithmsCert := found.signatureAlgorithmsCert ++ ofType [50] wordList exts
  ja4Wire := found.ja4Wire ++ ofType [13, 50] wordList exts

theorem addSig_cons (found : SignatureAlgorithms) (e : Ext) (exts : List Ext) :
    addSig (addSig found [e]) exts = addSig found (e :: exts) := by
  simp [addSig, ofType_cons, ofType_nil]

theorem sigStep_eq (found : SignatureAlgorithms) (e : Ext) :
    sigStep found e.type e.data = .ok (addSig found [e]) := by
  unfold sigStep
  by_cases hlength : 2 ≤ e.data.length
  · by_cases hsigs : e.type = 13
    · rw [if_pos ⟨hsigs, hlength⟩, readWordList_eq hlength]
      simp [addSig, ofType_cons, ofType_nil, hsigs, Except.map]
    · rw [if_neg fun h => hsigs h.1]
      by_cases hcert : e.type = 50
      · rw [if_pos ⟨hcert, hlength⟩, readWordList_eq hlength]
        simp [addSig, ofType_cons, ofType_nil, hcert, Except.map]
      · rw [if_neg fun h => hcert h.1]
        simp [addSig, ofType_cons, ofType_nil, hsigs, hcert]
  · rw [if_neg fun h => hlength h.2, if_neg fun h => hlength h.2]
    simp [addSig, ofType_cons, ofType_nil, wordList_short hlength]

theorem skipped_eq {et : Nat} (h : et < 65536) : skipped et = isGrease et := by
  have hall : ((List.range 256).all fun b => skipped (257 * b) == isGrease (257 * b)) = true := by
    decide +kernel
  by_cases hbytes : et / 256 = et % 256
  · have hsame : et = 257 * (et % 256) := by omega
    rw [hsame]
    have hone := all_eq_true.mp hall (et % 256) (mem_range.mpr (Nat.mod_lt _ (by decide)))
    exact beq_iff_eq.mp hone
  have hno : tlsExtensionTypeIsGrease et = false := by
    rw [tlsExtensionTypeIsGrease, Bool.and_eq_false_iff]
    right
    rw [beq_eq_false_iff_ne, Nat.shiftRight_eq_div_pow]
    have hhigh : et / 2 ^ 8 &&& 0xff = et / 256 := by
      rw [show (0xff : Nat) = 2 ^ 8 - 1 from rfl, Nat.and_two_pow_sub_one_eq_mod]
      omega
    have hlow : et &&& 0xff = et % 256 := by
      rw [show (0xff : Nat) = 2 ^ 8 - 1 from rfl, Nat.and_two_pow_sub_one_eq_mod]
    rw [hhigh, hlow]
    exact hbytes
  rw [skipped, hno, Bool.or_false]

theorem exts_le_length (exts : List Ext) : exts.length ≤ (encodeExts exts).length := by
  induction exts with
  | nil => exact Nat.le_refl 0
  | cons e exts ih =>
    rw [encodeExts_cons, length_append, encode_length, length_cons]
    omega

theorem walk_encode {cut mismatch : String} {step : α → Nat → Bytes → Except Thrown α}
    (p : HelloParts) (found : α) : walk cut mismatch step p.encode (p.start + (encodeExts p.exts).length)
      (p.encode.length + 1) p.start found =
    (kept p.exts).foldlM (fun found e => step found e.type e.data) found := by
  have hwhole := p.encode_length
  refine walk_parts p.exts found p.drop_start (by omega) rfl ?_
  have hexts := exts_le_length p.exts
  omega

section Whole

variable {p : HelloParts} (h : p.WellFormed)

include h

theorem ja3Components_encode : ja3Components p.encode =
    .ok (addJa3 ⟨p.legacyVersion, p.ciphers, [], [], []⟩ (kept p.exts)) := by
  rw [ja3Components, HelloParts.readFront_encode _ h]
  change walk _ _ _ _ _ _ _ _ = _
  rw [walk_encode]
  exact foldlM_of (fun _ => by simp [addJa3, ofType_nil])
    (fun found e exts => ⟨ja3Step_eq found e, addJa3_cons found e exts⟩) _ _

theorem ja4Components_encode : ja4Components p.encode =
    .ok (addJa4 ⟨p.legacyVersion, p.ciphers, false, none, [], [], []⟩ (kept p.exts)) := by
  rw [ja4Components, HelloParts.readFront_encode _ h]
  change walk _ _ _ _ _ _ _ _ = _
  rw [walk_encode]
  exact foldlM_of (fun _ => by simp [addJa4, ofType_nil])
    (fun found e exts => ⟨ja4Step_eq found e, addJa4_cons found e exts⟩) _ _

end Whole

theorem parts_of_ja4 {body : Bytes} {c : Ja4Components} (h : ja4Components body = .ok c) :
    ∃ p : HelloParts, p.WellFormed ∧ p.encode = body := by
  unfold ja4Components at h
  rcases hfront : readFront "ja4: нет блока расширений" body with thrown | front
  · rw [hfront] at h; cases h
  rw [hfront] at h
  change walk _ _ _ _ _ _ _ _ = _ at h
  obtain ⟨sidLen, cipherLen, stop, compLen, extTotal, -, -, -, -, htotal, hstart, -⟩ :=
    readFront_ok hfront
  have hin := (length_of_read htotal).1
  obtain ⟨exts, hdrop, hend, -⟩ := exts_of_walk h (by omega)
  obtain ⟨p, hp, hencode, -⟩ := parts_of_front hfront hdrop hend
  exact ⟨p, hp, hencode⟩

end Meshpn.Tls.Fingerprint
