import Meshpn.Tls.FingerprintParts

/-!
The functions that walk over a ClientHello body see the same body, where the length of
the cipher suites is even; the reader that lets a hello in does not look at it.
-/

namespace Meshpn.Tls.Fingerprint

open Meshpn.Lib List
open Meshpn.Lib.Bytes
open Meshpn.Lib.Words

/-- Where the lengths lead in a body whose suites are all there. -/
structure Fields (body : Bytes) (sidLen csLen compLen extLen : Nat) : Prop where
  sid : index body (.int 34) = .int sidLen
  suites : readUInt16BE body (.int (35 + sidLen)) = .ok csLen
  compression : index body (.int (35 + sidLen + 2 + csLen)) = .int compLen
  total : readUInt16BE body (.int (35 + sidLen + 2 + csLen + 1 + compLen)) = .ok extLen
  whole : 35 + sidLen + 2 + csLen + 1 + compLen + 2 + extLen ≤ body.length

theorem fields_of_encode {p : HelloParts} (h : p.WellFormed) (hshort : p.short = false) :
    ∃ sidLen compLen, Fields p.encode sidLen (2 * p.suites.length) compLen (encodeExts p.exts).length ∧
      35 + sidLen + 2 + 2 * p.suites.length + 1 + compLen + 2 = p.start := by
  obtain ⟨sidLen, hsid, hlength⟩ := h.head
  obtain ⟨compLen, methods, hcomp, hmethods⟩ := h.compression
  have hcipher : p.cipherLength = 2 * p.suites.length := by
    rw [HelloParts.cipherLength, hshort]
    rfl
  have hwhole := p.encode_length
  have hindex := p.drop_compression
  have hsize : p.compression.length = 1 + compLen.toNat := by
    rw [hcomp, length_cons]
    omega
  rw [hcomp, cons_append, hlength] at hindex
  have htotal := HelloParts.read_at h.block p.drop_total
  have hplace : p.head.length + 2 + 2 * p.suites.length + p.compression.length =
      35 + sidLen + 2 + 2 * p.suites.length + 1 + compLen.toNat := by omega
  have hsuites := HelloParts.read_at h.cipher p.drop_head
  have hstart : 35 + sidLen + 2 + 2 * p.suites.length + 1 + compLen.toNat + 2 = p.start := by
    unfold HelloParts.start
    omega
  rw [hplace] at htotal
  rw [hlength, hcipher] at hsuites
  refine ⟨sidLen, compLen.toNat, ⟨?_, hsuites, index_at hindex, htotal, by omega⟩, hstart⟩
  rw [HelloParts.index_head (by omega), hsid]

section Fields

variable {body : Bytes} {sidLen csLen compLen extLen : Nat}

theorem Fields.extensionBlock (h : Fields body sidLen csLen compLen extLen) :
    extensionBlock body = .ok (.ok (35 + sidLen + 2 + csLen + 1 + compLen + 2,
      subarray body (35 + sidLen + 2 + csLen + 1 + compLen + 2)
        (35 + sidLen + 2 + csLen + 1 + compLen + 2 + extLen))) := by
  have hwhole := h.whole
  have hlong : ¬body.length < 34 := by omega
  have hsid : ¬body.length < 35 + sidLen + 2 := by omega
  have hcs : ¬body.length < 35 + sidLen + 2 + csLen + 1 := by omega
  have hcomp : ¬body.length < 35 + sidLen + 2 + csLen + 1 + compLen + 2 := by omega
  have hext : ¬body.length < 35 + sidLen + 2 + csLen + 1 + compLen + 2 + extLen := by omega
  rw [Meshpn.Tls.extensionBlock, if_neg hlong]
  simp only [h.sid, Num.int_add, Num.exceeds_int, hsid, decide_false, Bool.false_eq_true, if_false,
    h.suites, Except.bind, hcs, h.compression, hcomp, h.total, hext]

theorem Fields.signatures (h : Fields body sidLen csLen compLen extLen) :
    signatureAlgorithmsFromClientHelloBody body =
      if csLen % 2 ≠ 0 then .error (.message "sigalgs: обрезано (cipher list)")
      else walk "sigalgs: обрезанное расширение" "sigalgs: длина блока расширений не сходится" sigStep
        body (35 + sidLen + 2 + csLen + 1 + compLen + 2 + extLen) (body.length + 1)
        (35 + sidLen + 2 + csLen + 1 + compLen + 2) ⟨[], [], []⟩ := by
  have hwhole := h.whole
  have hlong : ¬body.length < 2 := by omega
  have hsid : ¬body.length < 35 + sidLen + 2 := by omega
  have hcs : ¬body.length < 35 + sidLen + 2 + csLen + 1 := by omega
  have hcomp : ¬body.length < 35 + sidLen + 2 + csLen + 1 + compLen + 2 := by omega
  have hext : ¬body.length < 35 + sidLen + 2 + csLen + 1 + compLen + 2 + extLen := by omega
  rw [signatureAlgorithmsFromClientHelloBody, if_neg hlong]
  simp only [h.sid, Num.int_add, Num.exceeds_int, hsid, decide_false, Bool.false_eq_true, if_false,
    h.suites, raise, Except.bind, hcs, or_false, h.compression, hcomp, h.total, hext]

end Fields

theorem encodeExts_of {left : Bytes} (h : Exts left) : ∃ exts, left = encodeExts exts := by
  induction h with
  | nil => exact ⟨[], rfl⟩
  | @cons t1 t0 high low ed rest hed _ ih =>
    obtain ⟨exts, rfl⟩ := ih
    refine ⟨⟨toUInt16 t1 t0, ed, toUInt16_lt t1 t0, hed ▸ toUInt16_lt high low⟩ :: exts, ?_⟩
    have hsize : ofUInt16 ed.length = [high, low] := by rw [hed, ofUInt16_toUInt16]
    have htype : ofUInt16 (toUInt16 t1 t0) = [t1, t0] := ofUInt16_toUInt16 t1 t0
    rw [encodeExts_cons]
    change _ = ofUInt16 (toUInt16 t1 t0) ++ (ofUInt16 ed.length ++ ed) ++ encodeExts exts
    rw [hsize, htype]
    simp

theorem encodeSuites_of {bytes : Bytes} (h : bytes.length % 2 = 0) :
    ∃ suites, bytes = encodeSuites suites := by
  induction bytes using pairs.induct with
  | case1 high low rest ih =>
    rw [length_cons, length_cons] at h
    obtain ⟨suites, hrest⟩ := ih (by omega)
    refine ⟨UInt16.ofNat (toUInt16 high low) :: suites, ?_⟩
    rw [encodeSuites, flatMap_cons, ← encodeSuites, ← hrest,
      UInt16.toNat_ofNat_of_lt' (toUInt16_lt high low), ofUInt16_toUInt16]
    rfl
  | case2 bytes hshort =>
    rcases bytes with _ | ⟨high, _ | ⟨low, rest⟩⟩
    · exact ⟨[], rfl⟩
    · cases h
    · exact absurd rfl (hshort high low rest)

/-- What the strict reader accepts has its fields, and extensions one after the other. -/
theorem fields_of_accepted {body : Bytes} {found : Extensions}
    (h : parseTlsClientHelloReadableExtensions body = .ok (.ok found)) :
    ∃ sidLen csLen compLen extLen exts, Fields body sidLen csLen compLen extLen ∧
      body.drop (35 + sidLen + 2 + csLen + 1 + compLen + 2) = encodeExts exts ++
        body.drop (35 + sidLen + 2 + csLen + 1 + compLen + 2 + extLen) ∧
      (encodeExts exts).length = extLen := by
  rw [parseTlsClientHelloReadableExtensions, readHello] at h
  rcases hblock : extensionBlock body with fault | result
  · rw [hblock] at h; cases h
  rw [hblock] at h
  rcases result with reason | ⟨start, extBlock⟩
  · cases h
  obtain ⟨sidLen, csLen, compLen, extLen, -, hsid, hcs, hcomp, htotal, rfl, hwhole, rfl⟩ :=
    extensionBlock_fields hblock
  obtain ⟨exts, hexts⟩ := encodeExts_of (exts_of_read h (Nat.zero_le _))
  rw [drop_zero, subarray, drop_take, Nat.add_sub_cancel_left] at hexts
  refine ⟨sidLen, csLen, compLen, extLen, exts, ⟨hsid, hcs, hcomp, htotal, hwhole⟩, ?_, ?_⟩
  · rw [← hexts, ← @drop_drop _ extLen, take_append_drop]
  · rw [← hexts, length_take, length_drop]
    omega

theorem parts_of_even {body : Bytes} {sidLen csLen compLen extLen : Nat} {exts : List Ext}
    (h : Fields body sidLen csLen compLen extLen) (heven : csLen % 2 = 0)
    (hdrop : body.drop (35 + sidLen + 2 + csLen + 1 + compLen + 2) = encodeExts exts ++
      body.drop (35 + sidLen + 2 + csLen + 1 + compLen + 2 + extLen))
    (hblock : (encodeExts exts).length = extLen) :
    ∃ p : HelloParts, p.WellFormed ∧ p.encode = body ∧ p.exts = exts ∧ p.short = false := by
  have hwhole := h.whole
  have hlength : ((body.drop (35 + sidLen + 2)).take csLen).length = csLen := by
    rw [length_take, length_drop]
    omega
  obtain ⟨suites, hsuites⟩ := encodeSuites_of (hlength.symm ▸ heven)
  have hsize := congrArg List.length hsuites
  rw [hlength, encodeSuites_length] at hsize
  obtain ⟨p, hp, hencode, hexts, hshort⟩ := parts_of_fields h.sid h.suites
    (by rw [← hsuites, ← @drop_drop _ csLen, take_append_drop]) (by omega) (by omega) (by omega)
    h.compression h.total hdrop hblock
  exact ⟨p, hp, hencode, hexts, by rw [hshort, hsize]; simp⟩

def listed (exts : List Ext) : List Ext :=
  (kept exts).filter fun e => !opaqueSkipTypes.contains e.type

theorem listed_cons (e : Ext) (exts : List Ext) : listed (e :: exts) =
    if skipped e.type then listed exts
    else if opaqueSkipTypes.contains e.type then listed exts else e :: listed exts := by
  rw [listed, kept, filter_cons]
  cases skipped e.type with
  | true => rfl
  | false =>
    rw [Bool.not_false, if_pos rfl, filter_cons]
    cases opaqueSkipTypes.contains e.type <;> rfl

theorem opaqueLoop_of (exts : List Ext) {block : Bytes} {fuel eo : Nat}
    (hdrop : block.drop eo = encodeExts exts) (heo : eo ≤ block.length) (hfuel : exts.length < fuel) :
    opaqueLoop block fuel eo = .ok ((listed exts).map fun e => (e.type, hexBytes e.data)) := by
  have hlength := length_at hdrop heo
  induction exts generalizing fuel eo with
  | nil =>
    obtain ⟨fuel, rfl⟩ : ∃ m, fuel = m + 1 := ⟨fuel - 1, by simp at hfuel; omega⟩
    change block.length = eo at hlength
    rw [opaqueLoop, if_neg (by omega)]
    rfl
  | cons e exts ih =>
    obtain ⟨fuel, rfl⟩ : ∃ m, fuel = m + 1 := ⟨fuel - 1, by simp at hfuel; omega⟩
    rw [encodeExts_cons] at hdrop hlength
    rw [length_append, encode_length] at hlength
    rw [length_cons] at hfuel
    have hleft : block.drop eo = [] ++ UInt8.ofNat (e.type / 256) :: UInt8.ofNat (e.type % 256) ::
        (ofUInt16 e.data.length ++ (e.data ++ encodeExts exts)) := by
      rw [hdrop, Ext.encode]
      simp [ofUInt16]
    have htype := readUInt16BE_at 0 [] rfl hleft
    have hsize : readUInt16BE block (.int (eo + 2)) = .ok e.data.length := by
      have hat := @readUInt16BE_at block (e.data ++ encodeExts exts) eo
        (UInt8.ofNat (e.data.length / 256)) (UInt8.ofNat (e.data.length % 256)) 2
        (ofUInt16 e.type) rfl hleft
      rw [hat, toUInt16_ofNat e.data_lt]
    have hdata : subarray block (eo + 4) (eo + 4 + e.data.length) = e.data :=
      subarray_at 4 (ofUInt16 e.type ++ ofUInt16 e.data.length) rfl hleft
    have hnext : block.drop (eo + 4 + e.data.length) = encodeExts exts := by
      have hstep := drop_at hdrop
      rwa [encode_length, ← Nat.add_assoc] at hstep
    rw [Nat.add_zero, toUInt16_ofNat e.type_lt] at htype
    have htail := ih hnext (by omega) (show exts.length < fuel by omega)
      (length_at hnext (by omega))
    rw [opaqueLoop, if_pos (by omega), htype, hsize]
    change (if _ then _ else _) = _
    rw [if_neg (by omega), hdata, htail, listed_cons]
    change Except.ok _ = _
    cases skipped e.type <;> cases opaqueSkipTypes.contains e.type <;> rfl

def EvenSuites (body : Bytes) : Prop :=
  ∃ sidLen csLen, index body (.int 34) = .int sidLen ∧
    readUInt16BE body (.int (35 + sidLen)) = .ok csLen ∧ csLen % 2 = 0

/-- The block of extensions is `exts`, and each function goes over those of them that are not
GREASE. -/
structure Agreement (md5 sha256Trunc12 : String → String) (body : Bytes) (exts : List Ext) :
    Prop where
  block : ∃ start, extensionBlock body = .ok (.ok (start, encodeExts exts))
  ja3 : ∃ r, ja3ComponentsFromClientHelloBody md5 body = .ok r ∧
    r.components.extTypes = (kept exts).map Ext.type
  ja4 : ∃ c sigs, ja4Components body = .ok c ∧ c.extTypes = (kept exts).map Ext.type ∧
    ja4FromClientHelloBody sha256Trunc12 body = .ok (ja4Render sha256Trunc12 c) ∧
    signatureAlgorithmsFromClientHelloBody body = .ok sigs ∧
    c.signatureAlgorithms = sigs.ja4Wire
  signatures : ∃ sigs, signatureAlgorithmsFromClientHelloBody body = .ok sigs ∧
    sigs.signatureAlgorithms = ofType [13] wordList (kept exts) ∧
    sigs.signatureAlgorithmsCert = ofType [50] wordList (kept exts) ∧
    sigs.ja4Wire = ofType [13, 50] wordList (kept exts)
  opaque_list : extractClientHelloOpaqueExtensionsForProfile body =
    .ok ((listed exts).map fun e => (e.type, hexBytes e.data))

theorem encode_block {p : HelloParts} (h : p.WellFormed) (hshort : p.short = false) :
    extensionBlock p.encode = .ok (.ok (p.start, encodeExts p.exts)) := by
  obtain ⟨sidLen, compLen, hfields, hstart⟩ := fields_of_encode h hshort
  rw [hfields.extensionBlock, hstart, subarray, drop_take, Nat.add_sub_cancel_left,
    p.drop_start, take_left]

theorem encode_signatures {p : HelloParts} (h : p.WellFormed) (hshort : p.short = false) :
    signatureAlgorithmsFromClientHelloBody p.encode = .ok (addSig ⟨[], [], []⟩ (kept p.exts)) := by
  obtain ⟨sidLen, compLen, hfields, hstart⟩ := fields_of_encode h hshort
  have heven : ¬2 * p.suites.length % 2 ≠ 0 := by omega
  rw [hfields.signatures, if_neg heven, hstart, walk_encode]
  exact foldlM_of (fun _ => by simp [addSig, ofType_nil])
    (fun found e exts => ⟨sigStep_eq found e, addSig_cons found e exts⟩) _ _

theorem encode_opaque {p : HelloParts} (h : p.WellFormed) (hshort : p.short = false) :
    extractClientHelloOpaqueExtensionsForProfile p.encode =
      .ok ((listed p.exts).map fun e => (e.type, hexBytes e.data)) := by
  rw [extractClientHelloOpaqueExtensionsForProfile, encode_block h hshort]
  exact opaqueLoop_of p.exts rfl (Nat.zero_le _) (Nat.lt_succ_of_le (exts_le_length p.exts))

theorem encode_agreement (md5 sha256Trunc12 : String → String) {p : HelloParts} (h : p.WellFormed)
    (hshort : p.short = false) : Agreement md5 sha256Trunc12 p.encode p.exts where
  block := ⟨p.start, encode_block h hshort⟩
  ja3 := by
    refine ⟨_, by rw [ja3ComponentsFromClientHelloBody, ja3Components_encode h]; rfl, ?_⟩
    exact nil_append _
  ja4 := by
    refine ⟨_, _, ja4Components_encode h, nil_append _, ?_, encode_signatures h hshort, rfl⟩
    rw [ja4FromClientHelloBody, ja4Components_encode h]
    rfl
  signatures := ⟨_, encode_signatures h hshort, nil_append _, nil_append _,
    nil_append _⟩
  opaque_list := encode_opaque h hshort

/-- All of them agree on a body that the gate lets in, just where the length of its suites is
even. -/
theorem hello_parsers_agree_iff (md5 sha256Trunc12 : String → String) {body : Bytes}
    {found : Extensions} (h : parseTlsClientHelloReadableExtensions body = .ok (.ok found)) :
    (∃ exts, Agreement md5 sha256Trunc12 body exts) ↔ EvenSuites body := by
  obtain ⟨sidLen, csLen, compLen, extLen, exts, hfields, hdrop, hblock⟩ := fields_of_accepted h
  constructor
  · rintro ⟨exts, hagree⟩
    refine ⟨sidLen, csLen, hfields.sid, hfields.suites, ?_⟩
    by_contra hodd
    obtain ⟨sigs, hsigs, -⟩ := hagree.signatures
    rw [hfields.signatures, if_pos hodd] at hsigs
    cases hsigs
  · rintro ⟨sidLen', csLen', hsid, hcs, heven⟩
    have hsame : sidLen' = sidLen := Num.int.inj (hsid.symm.trans hfields.sid)
    rw [hsame, hfields.suites] at hcs
    obtain ⟨p, hp, rfl, -, hshort⟩ := parts_of_even hfields (Except.ok.inj hcs ▸ heven) hdrop hblock
    exact ⟨p.exts, encode_agreement md5 sha256Trunc12 hp hshort⟩

/-- A hello with one suite, a GREASE extension, signature algorithms and one that is opaque. -/
def evenHello : Bytes :=
  [3, 3] ++ List.replicate 32 0 ++ [0, 0, 2, 0x13, 0x01, 1, 0, 0, 18, 0x0a, 0x0a, 0, 0,
    0, 13, 0, 4, 0, 2, 4, 3, 0, 27, 0, 2, 2, 0]

theorem hello_parsers_agree_iff_even : (∃ exts, Agreement id id evenHello exts) ↔ EvenSuites evenHello :=
  @hello_parsers_agree_iff id id evenHello ⟨[], [], []⟩ (by decide)

def oddHello : Bytes := [3, 3] ++ List.replicate 32 0 ++ [0, 0, 1, 0x13, 1, 0, 0, 0]

/-- The gate lets it in and JA3 takes the byte that follows for a suite; the signature algorithms
throw. -/
theorem odd_hello_disagrees :
    parseTlsClientHelloReadableExtensions oddHello = .ok (.ok ⟨[], [], []⟩) ∧
      ja3Components oddHello = .ok ⟨0x0303, [0x1301], [], [], []⟩ ∧
      signatureAlgorithmsFromClientHelloBody oddHello =
        .error (.message "sigalgs: обрезано (cipher list)") ∧
      ¬∃ exts, Agreement id id oddHello exts := by
  have hthrows : signatureAlgorithmsFromClientHelloBody oddHello =
      .error (.message "sigalgs: обрезано (cipher list)") := by rfl
  refine ⟨by decide, by decide, hthrows, ?_⟩
  rintro ⟨exts, hagree⟩
  obtain ⟨sigs, hsigs, -⟩ := hagree.signatures
  rw [hthrows] at hsigs
  cases hsigs

end Meshpn.Tls.Fingerprint
