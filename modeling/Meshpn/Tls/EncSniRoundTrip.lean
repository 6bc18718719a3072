import Meshpn.Tls.EncSni

/-!
What an encrypted server name carries. The decoder undoes the steps of the
encoder in another order: it strips the public suffix by its length, joins
whatever labels it finds, reads the number they spell, and opens the token.

Base 62 on its own. Bytes that are all zero are written with one zero too many, and read
with another; all others come back.
-/

open List

namespace Meshpn.Tls.EncSni

open Meshpn.Lib
open Meshpn.Lib.Bytes

theorem digitOf_symbol {digit : Nat} (h : digit < 62) : digitOf (symbol digit) = some digit := by
  have hall : ∀ digit < 62, digitOf (symbol digit) = some digit := by decide
  exact hall digit h

theorem symbol_mem {digit : Nat} (h : digit < 62) : symbol digit ∈ alphabet := by
  have hall : ∀ digit < 62, symbol digit ∈ alphabet := by decide
  exact hall digit h

theorem symbol_eq_zero {digit : Nat} (h : digit < 62) : symbol digit = symbol 0 ↔ digit = 0 := by
  constructor
  · intro hsame
    have hdigit := digitOf_symbol h
    rw [hsame, digitOf_symbol (by decide)] at hdigit
    exact (Option.some.inj hdigit).symm
  · rintro rfl
    rfl

variable {labels : List Units} {buf : Bytes} {port : PortOption} {digits : List Nat}
  {hostname : Units} {now : Int}

theorem base62Digits_map (h : ∀ digit ∈ digits, digit < 62) :
    base62Digits (digits.map symbol) = .ok digits := by
  induction digits with
  | nil => rfl
  | cons digit digits ih =>
    rw [map_cons, base62Digits, digitOf_symbol (h digit mem_cons_self)]
    rw [ih fun other hother => h other (mem_cons_of_mem _ hother)]
    rfl

theorem takeWhile_symbol (h : ∀ digit ∈ digits, digit < 62) :
    (digits.map symbol).takeWhile (fun u => decide (u = symbol 0)) =
      (digits.takeWhile fun digit => decide (digit = 0)).map symbol := by
  induction digits with
  | nil => rfl
  | cons digit digits ih =>
    have hiff := symbol_eq_zero (h digit mem_cons_self)
    have hrest := ih fun other hother => h other (mem_cons_of_mem _ hother)
    by_cases hzero : digit = 0
    · simp [hzero, hrest]
    · simp [hiff, hzero]

theorem toNat_eq_zero (b : UInt8) : b.toNat = 0 ↔ b = 0 := by
  rw [← UInt8.toNat_inj]
  rfl

theorem takeWhile_toNat (buf : Bytes) :
    (buf.map UInt8.toNat).takeWhile (fun item => decide (item = 0)) =
      (buf.takeWhile fun b => decide (b = 0)).map UInt8.toNat := by
  rw [takeWhile_map]
  congr 1
  refine congrArg (fun p => buf.takeWhile p) (funext fun b => ?_)
  exact decide_eq_decide.mpr (toNat_eq_zero b)

theorem base62Encode_eq (h : buf ≠ []) :
    base62Encode buf = (Radix.recode 256 62 (buf.map UInt8.toNat)).map symbol := by
  have hzeros : (buf.takeWhile fun b => decide (b = 0)).map (fun _ => symbol 0) =
      ((buf.map UInt8.toNat).takeWhile fun item => decide (item = 0)).map symbol := by
    rw [takeWhile_toNat, map_map]
    refine map_congr_left fun b hb => ?_
    have hb0 := @mem_takeWhile_imp _ (fun b => decide (b = 0)) _ b hb
    rw [Function.comp_apply, of_decide_eq_true hb0]
    rfl
  have hout : (buf.takeWhile fun b => decide (b = 0)).map (fun _ => symbol 0) ++
      (Radix.convert 256 62 (buf.map UInt8.toNat)).reverse.map symbol =
      (Radix.recode 256 62 (buf.map UInt8.toNat)).map symbol := by
    rw [hzeros, ← Radix.convert_dropWhile (by decide) (by decide), ← map_append, Radix.recode]
  rw [base62Encode, if_neg h]
  dsimp only
  rw [hout, if_neg]
  intro hnil
  exact Radix.recode_ne_nil (by decide) (by decide) _ (map_eq_nil_iff.mp hnil)

theorem base62Decode_eq (hlt : ∀ digit ∈ digits, digit < 62)
    (hne : digits ≠ []) :
    base62Decode (digits.map symbol) = .ok ((Radix.recode 62 256 digits).map UInt8.ofNat) := by
  rw [base62Decode, if_neg (fun hnil => hne (map_eq_nil_iff.mp hnil))]
  dsimp only
  have hdrop : digits.drop (digits.takeWhile fun digit => decide (digit = 0)).length =
      digits.dropWhile fun digit => decide (digit = 0) := by
    conv_lhs =>
      arg 2
      rw [← @takeWhile_append_dropWhile _ (fun digit => decide (digit = 0)) digits]
    exact drop_left
  have hzeros : (digits.takeWhile fun digit => decide (digit = 0)).map UInt8.ofNat =
      List.replicate (digits.takeWhile fun digit => decide (digit = 0)).length 0 := by
    refine eq_replicate_iff.mpr ⟨length_map _, fun b hb => ?_⟩
    obtain ⟨digit, hdigit, rfl⟩ := mem_map.mp hb
    have hzero := @mem_takeWhile_imp _ (fun digit => decide (digit = 0)) _ digit hdigit
    rw [of_decide_eq_true hzero]
    rfl
  rw [takeWhile_symbol hlt, length_map, ← map_drop, hdrop, base62Digits_map
    (fun digit hdigit => hlt digit ((dropWhile_sublist _).mem hdigit)), Radix.recode,
    map_append, hzeros]
  rfl

theorem base62_round_trip (h : ∃ b ∈ buf, b ≠ 0) :
    base62Decode (base62Encode buf) = .ok buf := by
  have hne : buf ≠ [] := by
    rintro rfl
    obtain ⟨b, hb, _⟩ := h
    cases hb
  have hlt : ∀ digit ∈ Radix.recode 256 62 (buf.map UInt8.toNat), digit < 62 :=
    fun digit hdigit => Radix.recode_lt (by decide) (by decide) hdigit
  rw [base62Encode_eq hne,
    base62Decode_eq hlt (Radix.recode_ne_nil (by decide) (by decide) _)]
  rw [Radix.recode_recode (by decide) (by decide)]
  · rw [map_map]
    refine congrArg Except.ok ((map_congr_left fun b _ => ?_).trans (map_id buf))
    exact UInt8.ofNat_toNat
  · intro item hitem
    obtain ⟨b, _, rfl⟩ := mem_map.mp hitem
    exact b.toNat_lt
  · obtain ⟨b, hb, hzero⟩ := h
    exact ⟨b.toNat, mem_map_of_mem hb, fun hnat => hzero ((toNat_eq_zero b).mp hnat)⟩

theorem mem_base62Encode {u : UInt16} (h : u ∈ base62Encode buf) : u ∈ alphabet := by
  by_cases hne : buf = []
  · subst hne
    cases h
  · rw [base62Encode_eq hne] at h
    obtain ⟨digit, hdigit, rfl⟩ := mem_map.mp h
    exact symbol_mem (Radix.recode_lt (by decide) (by decide) hdigit)

theorem base62Encode_ne_nil (h : buf ≠ []) : base62Encode buf ≠ [] := by
  rw [base62Encode_eq h]
  intro hnil
  exact Radix.recode_ne_nil (by decide) (by decide) _ (map_eq_nil_iff.mp hnil)

theorem dot_not_mem_alphabet : dot ∉ alphabet := by decide

theorem cutLabels_flatten {fuel : Nat} {blob : Units} (h : blob.length ≤ fuel) :
    (cutLabels fuel blob).flatten = blob := by
  induction fuel generalizing blob with
  | zero => rw [length_eq_zero_iff.mp (Nat.le_zero.mp h), cutLabels, flatten_nil]
  | succ fuel ih =>
    rw [cutLabels]
    split
    case isTrue hnil => rw [hnil, flatten_nil]
    rw [flatten_cons, ih, take_append_drop]
    rw [length_drop, dnsLabelMax]
    omega

theorem mem_cutLabels {fuel : Nat} {blob label : Units} (h : label ∈ cutLabels fuel blob) :
    label ≠ [] ∧ label.length ≤ dnsLabelMax ∧ ∀ u ∈ label, u ∈ blob := by
  induction fuel generalizing blob with
  | zero => cases h
  | succ fuel ih =>
    rw [cutLabels] at h
    split at h
    case isTrue => cases h
    rename_i hne
    rcases mem_cons.mp h with rfl | hrest
    · refine ⟨fun hnil => ?_, length_take_le _ _, fun u hu => mem_of_mem_take hu⟩
      rcases take_eq_nil_iff.mp hnil with hzero | hnil
      · cases hzero
      · exact hne hnil
    · obtain ⟨hlabel, hlength, hunits⟩ := ih hrest
      exact ⟨hlabel, hlength, fun u hu => mem_of_mem_drop (hunits u hu)⟩

theorem assertRelayHostname_ok (h : assertRelayHostname hostname = .ok ()) :
    1 ≤ hostname.length ∧ hostname.length ≤ hostnameMax ∧ Units.IsAscii hostname := by
  unfold assertRelayHostname at h
  split at h
  · cases h
  rename_i hlength
  split at h
  · cases h
  split at h
  case isTrue hunits =>
    push Not at hlength
    refine ⟨length_pos_iff.mpr hlength.1, hlength.2, fun u hu => ?_⟩
    have hunit := all_eq_true.mp hunits u hu
    simp only [isHostUnit, Bool.or_eq_true, Bool.and_eq_true, decide_eq_true_eq, beq_iff_eq,
      UInt16.le_iff_toNat_le] at hunit
    rcases hunit with ((⟨_, hle⟩ | ⟨_, hle⟩) | rfl) | rfl
    · exact hle.trans_lt (by decide)
    · exact hle.trans_lt (by decide)
    · decide
    · decide
  case isFalse => cases h

theorem buildPlaintext_ok {pt : Bytes}
    (h : buildPlaintext hostname port now = .ok pt) :
    assertRelayHostname hostname = .ok () ∧ (0 ≤ now / 1000 ∧ now / 1000 < 2 ^ 32) ∧
      ∃ p, port.number = some p ∧
        pt = version :: (ofUInt32 (now / 1000).toNat ++ ofUInt16 p ++
          [UInt8.ofNat hostname.length] ++ Units.asciiBytes hostname) := by
  unfold buildPlaintext at h
  cases hassert : assertRelayHostname hostname with
  | error code =>
    rw [hassert] at h
    cases h
  | ok _ =>
    rw [hassert] at h
    simp only [Except.bind] at h
    split at h
    · cases h
    rename_i p hport
    split at h
    · cases h
    split at h
    · cases h
    rename_i hrange
    cases h
    push Not at hrange
    refine ⟨rfl, hrange, p, hport, ?_⟩
    rw [show (Units.asciiBytes hostname).length = hostname.length from length_map _]

theorem PortOption.number_lt {port : PortOption} {p : Nat} (h : port.number = some p) :
    p < 65536 := by
  cases port with
  | absent =>
    cases h
    decide
  | integer n =>
    simp only [number] at h
    split at h
    · cases h
    · cases h
      omega
  | other => cases h

/-- The plaintext of a host and a port is parsed into them while its time is in the window. -/
theorem parsePlaintext_build {now later : Int} {pt : Bytes}
    (h : buildPlaintext hostname port now = .ok pt)
    (hwindow : |later / 1000 - now / 1000| ≤ tsWindowSeconds) :
    8 ≤ pt.length ∧ ∃ p, port.number = some p ∧
      parsePlaintext pt later = .ok ⟨hostname, p, (now / 1000).toNat⟩ := by
  obtain ⟨hassert, ⟨hlow, hhigh⟩, p, hport, rfl⟩ := buildPlaintext_ok h
  obtain ⟨_, hmax, hascii⟩ := assertRelayHostname_ok hassert
  have hissued : toUInt32 (UInt8.ofNat ((now / 1000).toNat / 65536 / 256))
      (UInt8.ofNat ((now / 1000).toNat / 65536 % 256))
      (UInt8.ofNat ((now / 1000).toNat % 65536 / 256))
      (UInt8.ofNat ((now / 1000).toNat % 65536 % 256)) = (now / 1000).toNat :=
    toUInt32_ofNat (by omega)
  have hp := toUInt16_ofNat (PortOption.number_lt hport)
  have hhl : (UInt8.ofNat hostname.length).toNat = hostname.length :=
    Bytes.toNat_ofNat (by rw [hostnameMax] at hmax; omega)
  have hcast : ((now / 1000).toNat : Int) = now / 1000 := Int.toNat_of_nonneg hlow
  refine ⟨?_, p, hport, ?_⟩
  · simp only [length_cons, length_append, ofUInt32_length, ofUInt16_length]
    omega
  · have hbytes : (Units.asciiBytes hostname).length = hostname.length := length_map _
    simp only [ofUInt32, ofUInt16, cons_append, nil_append, parsePlaintext, hissued, hp,
      hhl, hcast, length_cons, hbytes]
    rw [if_neg (fun hversion => hversion rfl), if_neg (not_lt.mpr hwindow), if_neg (by omega),
      Units.ofBytes_asciiBytes hascii, hassert]
    rfl

variable {crypto : Crypto}

theorem token_length (hlawful : crypto.Lawful) (key : Bytes) (nonce : Nonce) (pt : Bytes) :
    (crypto.token key nonce pt).length = nonceLen + pt.length + tagLen := by
  rw [Crypto.token, length_append, length_append, nonce.2, hlawful.encrypt_length,
    hlawful.tag_length]

theorem decodeRelaySniLabel_token (hlawful : crypto.Lawful) {psk pt : Bytes} {nonce : Nonce} {later : Int} (hlength : 8 ≤ pt.length)
    (hnonzero : ∃ b ∈ crypto.token (deriveEncSniKey crypto psk) nonce pt, b ≠ 0)
    (hlabels : labels.flatten =
      base62Encode (crypto.token (deriveEncSniKey crypto psk) nonce pt)) :
    decodeRelaySniLabel crypto psk labels later = (parsePlaintext pt later).map fun parsed =>
      ⟨parsed, hex (crypto.sha256 (crypto.token (deriveEncSniKey crypto psk) nonce pt))⟩ := by
  have htotal := token_length hlawful (deriveEncSniKey crypto psk) nonce pt
  rw [decodeRelaySniLabel, hlabels, base62_round_trip hnonzero]
  simp only [Except.bind]
  rw [if_neg (by omega)]
  have hctEnd : (crypto.token (deriveEncSniKey crypto psk) nonce pt).length - tagLen =
      (nonce.1 ++ (crypto.encrypt (deriveEncSniKey crypto psk) nonce.1 pt).1).length := by
    rw [htotal, length_append, nonce.2, hlawful.encrypt_length, Nat.add_sub_cancel]
  rw [hctEnd]
  have hnonce : (crypto.token (deriveEncSniKey crypto psk) nonce pt).take nonceLen = nonce.1 := by
    rw [Crypto.token, append_assoc, take_left' nonce.2]
  have hct : ((crypto.token (deriveEncSniKey crypto psk) nonce pt).take
      (nonce.1 ++ (crypto.encrypt (deriveEncSniKey crypto psk) nonce.1 pt).1).length).drop nonceLen =
      (crypto.encrypt (deriveEncSniKey crypto psk) nonce.1 pt).1 := by
    rw [Crypto.token, take_left, drop_left' nonce.2]
  have htag : (crypto.token (deriveEncSniKey crypto psk) nonce pt).drop
      (nonce.1 ++ (crypto.encrypt (deriveEncSniKey crypto psk) nonce.1 pt).1).length =
      (crypto.encrypt (deriveEncSniKey crypto psk) nonce.1 pt).2 := by
    rw [Crypto.token, drop_left]
  rw [hnonce, hct, htag, hlawful.decrypt_encrypt]

theorem decodeRelaySniLabel_ok (hlawful : crypto.Lawful) {psk : Bytes} {decoded : Decoded} (h : decodeRelaySniLabel crypto psk labels now = .ok decoded) :
    ∃ wire, base62Decode labels.flatten = .ok wire ∧
      decoded.replayId = hex (crypto.sha256 wire) ∧
      ∃ nonce pt, wire = crypto.token (deriveEncSniKey crypto psk) nonce pt := by
  rw [decodeRelaySniLabel] at h
  cases hwire : base62Decode labels.flatten with
  | error code =>
    rw [hwire] at h
    cases h
  | ok wire =>
    rw [hwire] at h
    simp only [Except.bind] at h
    split at h
    · cases h
    split at h
    · cases h
    rename_i pt hpt
    cases hparsed : parsePlaintext pt now with
    | error code =>
      rw [hparsed] at h
      cases h
    | ok parsed =>
      rw [hparsed] at h
      cases h
      have hsealed := hlawful.encrypt_of_decrypt _ _ _ _ _ hpt
      have hnonce : (wire.take nonceLen).length = nonceLen := by
        rw [length_take]
        omega
      have hfront : wire.take nonceLen =
          (wire.take (wire.length - tagLen)).take nonceLen := by
        rw [take_take, Nat.min_eq_left (by omega)]
      refine ⟨wire, rfl, rfl, ⟨wire.take nonceLen, hnonce⟩, pt, ?_⟩
      simp only [Crypto.token, hsealed]
      conv_rhs => rw [hfront]
      rw [take_append_drop, take_append_drop]

theorem hexDigit_inj {m n : Nat} (hm : m < 16) (hn : n < 16) (h : hexDigit m = hexDigit n) :
    m = n := by
  have hall : ∀ m < 16, ∀ n < 16, hexDigit m = hexDigit n → m = n := by decide
  exact hall m hm n hn h

theorem hex_injective : Function.Injective hex := by
  intro a b h
  induction a generalizing b with
  | nil =>
    cases b with
    | nil => rfl
    | cons y b => cases h
  | cons x a ih =>
    rcases b with _ | ⟨y, b⟩
    · cases h
    simp only [hex, flatMap_cons, cons_append, List.cons.injEq] at h
    obtain ⟨hhigh, hlow, hrest⟩ := h
    have hx := x.toNat_lt
    have hy := y.toNat_lt
    have hdiv := hexDigit_inj (by omega) (by omega) hhigh
    have hmod := hexDigit_inj (Nat.mod_lt _ (by decide)) (Nat.mod_lt _ (by decide)) hlow
    have hsame : x = y := by
      apply UInt8.toNat_inj.mp
      omega
    rw [hsame, ih hrest]

/-- The text is a letter case of the suffix: it has as many units, and lower-casing a name that
ends with it gives one that ends with the suffix. -/
def IsCaseOf (crypto : Crypto) (text pn : Units) : Prop :=
  text.length = pn.length ∧ ∀ front, Units.IsAscii front →
    crypto.toLowerCase (front ++ text) = front.map Units.lowerAscii ++ pn

theorem isCaseOf_ascii
    (hlower : ∀ text, Units.IsAscii text → crypto.toLowerCase text = text.map Units.lowerAscii)
    {text pn : Units} (hascii : Units.IsAscii text) (hpn : text.map Units.lowerAscii = pn) :
    IsCaseOf crypto text pn := by
  refine ⟨by rw [← hpn, length_map], fun front hfront => ?_⟩
  rw [hlower, map_append, hpn]
  intro u hu
  rcases mem_append.mp hu with hmem | hmem
  · exact hfront u hmem
  · exact hascii u hmem

theorem alphabet_ascii : Units.IsAscii alphabet := by decide

/-- The labels are found whatever the letter case of the suffix and wherever the payload is cut. -/
theorem parseRelayEncLabels_cut {publicName text : Units} {cut : List Units}
    (hpn : publicSuffix crypto publicName ≠ [])
    (hcase : IsCaseOf crypto text (publicSuffix crypto publicName))
    (hunits : ∀ label ∈ cut, ∀ u ∈ label, u ∈ alphabet)
    (hlength : ∀ label ∈ cut, label.length ≤ dnsLabelMax) (hne : cut.flatten ≠ []) :
    parseRelayEncLabels crypto ([dot].intercalate (cut ++ [text])) publicName =
      some (cut.filter (· ≠ [])) := by
  obtain ⟨hsame, hlower⟩ := hcase
  have hcut : cut ≠ [] := by
    rintro rfl
    exact hne rfl
  have hnodot : ∀ label ∈ cut, dot ∉ label := fun label hlabel hdot =>
    dot_not_mem_alphabet (hunits label hlabel dot hdot)
  have hsni : [dot].intercalate (cut ++ [text]) = [dot].intercalate cut ++ [dot] ++ text := by
    rw [Units.intercalate_append _ hcut (cons_ne_nil _ _), intercalate_singleton]
  have hascii : Units.IsAscii ([dot].intercalate cut ++ [dot]) := by
    intro u hu
    rcases mem_append.mp hu with hfront | hdot
    · rcases Units.mem_intercalate hfront with ⟨label, hlabel, hmem⟩ | hdot
      · exact alphabet_ascii u (hunits label hlabel u hmem)
      · rw [mem_singleton.mp hdot]
        decide
    · rw [mem_singleton.mp hdot]
      decide
  have hsuffix : dot :: publicSuffix crypto publicName <:+
      crypto.toLowerCase ([dot].intercalate cut ++ [dot] ++ text) := by
    rw [hlower _ hascii, map_append, append_assoc]
    exact suffix_append _ _
  have hfront : Units.sliceTo ([dot].intercalate cut ++ [dot] ++ text)
      (([dot].intercalate cut ++ [dot] ++ text).length -
        (dot :: publicSuffix crypto publicName).length) = [dot].intercalate cut := by
    have hstop : ((([dot].intercalate cut ++ [dot] ++ text).length : Int) -
        (dot :: publicSuffix crypto publicName).length) = ([dot].intercalate cut).length := by
      simp only [length_append, length_cons, length_nil]
      omega
    rw [hstop, Units.sliceTo, if_pos (Int.natCast_nonneg _), Int.toNat_natCast,
      append_assoc, take_left]
  have hsplit : ([dot].intercalate cut).splitOn dot = cut :=
    splitOn_intercalate dot hnodot hcut
  have hlabels : cut.filter (· ≠ []) ≠ [] := by
    intro hnil
    apply hne
    rw [← flatten_filter_ne_nil, hnil, flatten_nil]
  have hfrontNe : [dot].intercalate cut ≠ [] := by
    intro hnil
    rw [hnil] at hsplit
    rw [← hsplit] at hne
    exact hne rfl
  have hshort : ¬(cut.filter (· ≠ [])).any (dnsLabelMax < ·.length) = true := by
    rw [any_eq_true]
    rintro ⟨label, hlabel, hlong⟩
    have hbound := hlength label (mem_filter.mp hlabel).1
    exact absurd (of_decide_eq_true hlong) (not_lt.mpr hbound)
  have hsniNe : [dot].intercalate cut ++ [dot] ++ text ≠ [] := by simp
  rw [hsni, parseRelayEncLabels]
  rw [if_neg (not_or.mpr ⟨hpn, hsniNe⟩), if_neg (not_not.mpr hsuffix), hfront, if_neg hfrontNe,
    hsplit, if_neg hlabels, if_neg hshort]

theorem buildRelayHostname_ok {publicName host : Units}
    (h : buildRelayHostname crypto labels publicName = .ok host) :
    publicSuffix crypto publicName ≠ [] ∧ host.length ≤ hostnameMax ∧
      host = [dot].intercalate (labels ++ [publicSuffix crypto publicName]) := by
  unfold buildRelayHostname at h
  dsimp only at h
  split at h
  · cases h
  rename_i hpn
  split at h
  · cases h
  split at h
  · cases h
  case isFalse hlength =>
    cases h
    exact ⟨hpn, (Units.length_le_byteLength _).trans (not_lt.mp hlength), rfl⟩

theorem encodeRelayHostname_ok {psk : Bytes} {hostname publicName host : Units} {nonce : Nonce}
    (h : encodeRelayHostname crypto psk hostname port publicName now nonce = .ok host) :
    ∃ pt, buildPlaintext hostname port now = .ok pt ∧
      buildRelayHostname crypto (splitDnsLabels (base62Encode
        (crypto.token (deriveEncSniKey crypto psk) nonce pt))) publicName = .ok host := by
  unfold encodeRelayHostname encodeRelaySniLabel at h
  cases hpt : buildPlaintext hostname port now with
  | error code =>
    rw [hpt] at h
    cases h
  | ok pt =>
    rw [hpt] at h
    simp only [Except.bind] at h
    split at h
    · cases h
    rename_i labels hlabels
    split at hlabels
    · cases hlabels
    · cases hlabels
      exact ⟨pt, rfl, h⟩

def carriedToken (crypto : Crypto) (sni publicName : Units) : Option Bytes :=
  (parseRelayEncLabels crypto sni publicName).bind fun labels =>
    (base62Decode labels.flatten).toOption

theorem decodeRelayFromHostname_ok (hlawful : crypto.Lawful) {psk : Bytes} {sni publicName : Units} {d : DecodedHostname}
    (h : decodeRelayFromHostname crypto sni publicName psk now = .ok d) :
    ∃ wire, carriedToken crypto sni publicName = some wire ∧
      d.decoded.replayId = hex (crypto.sha256 wire) ∧
      ∃ nonce pt, wire = crypto.token (deriveEncSniKey crypto psk) nonce pt := by
  unfold decodeRelayFromHostname at h
  split at h
  · cases h
  rename_i labels hlabels
  cases hdecoded : decodeRelaySniLabel crypto psk labels now with
  | error code =>
    rw [hdecoded] at h
    cases h
  | ok decoded =>
    rw [hdecoded] at h
    cases h
    obtain ⟨wire, hwire, hid, hsealed⟩ := decodeRelaySniLabel_ok hlawful hdecoded
    refine ⟨wire, ?_, hid, hsealed⟩
    rw [carriedToken, hlabels, Option.bind_some, hwire]
    rfl

theorem splitOn_hostname {blob pn : Units} (hblob : ∀ u ∈ blob, u ∈ alphabet) (hne : blob ≠ []) :
    ([dot].intercalate (splitDnsLabels blob ++ [pn])).splitOn dot =
      splitDnsLabels blob ++ pn.splitOn dot := by
  have hlabels : splitDnsLabels blob ≠ [] := by
    intro hnil
    have hflatten := @cutLabels_flatten blob.length blob le_rfl
    rw [← splitDnsLabels, hnil] at hflatten
    exact hne hflatten.symm
  have hpn : pn.splitOn dot ≠ [] := splitOn_ne_nil dot pn
  have hjoined : [dot].intercalate (splitDnsLabels blob ++ [pn]) =
      [dot].intercalate (splitDnsLabels blob ++ pn.splitOn dot) := by
    rw [Units.intercalate_append _ hlabels (cons_ne_nil _ _),
      Units.intercalate_append _ hlabels hpn, intercalate_splitOn, intercalate_singleton]
  rw [hjoined]
  refine splitOn_intercalate dot ?_ (by simp [hlabels])
  intro label hlabel hdot
  rcases mem_append.mp hlabel with hpayload | hsuffix
  · exact dot_not_mem_alphabet (hblob dot ((mem_cutLabels hpayload).2.2 dot hdot))
  · exact Units.not_mem_of_mem_splitOn hsuffix hdot

def xorMask : Bytes → Bytes → Bytes
  | mask :: masks, b :: bytes => (b ^^^ mask) :: xorMask masks bytes
  | _, bytes => bytes

theorem xorMask_xorMask (masks bytes : Bytes) : xorMask masks (xorMask masks bytes) = bytes := by
  induction masks generalizing bytes with
  | nil => rfl
  | cons mask masks ih =>
    cases bytes with
    | nil => rfl
    | cons b bytes =>
      rw [xorMask, xorMask, ih, UInt8.xor_assoc, UInt8.xor_self, UInt8.xor_zero]

theorem xorMask_length (masks bytes : Bytes) : (xorMask masks bytes).length = bytes.length := by
  induction masks generalizing bytes with
  | nil => rfl
  | cons mask masks ih =>
    cases bytes with
    | nil => rfl
    | cons b bytes => rw [xorMask, length_cons, ih, length_cons]

/-- A cipher that adds a mask, and the lower-casing of ASCII and of the capital I with a dot. -/
def sampleCrypto (mask : Bytes) : Crypto where
  hmac _ _ := []
  encrypt _ _ pt := (xorMask mask pt, List.replicate 16 0)
  decrypt _ _ ct tag := if tag = List.replicate 16 0 then some (xorMask mask ct) else none
  sha256 wire := wire
  toLowerCase text := text.flatMap fun u => if u = 0x130 then [0x69, 0x307] else [Units.lowerAscii u]

theorem sampleCrypto_lawful (mask : Bytes) : (sampleCrypto mask).Lawful where
  encrypt_length _ _ pt := xorMask_length mask pt
  tag_length _ _ _ := rfl
  decrypt_encrypt _ _ pt := by
    simp only [sampleCrypto, if_pos, xorMask_xorMask]
  encrypt_of_decrypt key nonce ct tag pt h := by
    simp only [sampleCrypto] at h ⊢
    split at h
    case isTrue htag =>
      cases h
      rw [xorMask_xorMask, htag]
    case isFalse => cases h
  collisionFree _ _ _ _ h := h

def sampleNonce (b : UInt8) : Nonce := ⟨List.replicate 12 b, List.length_replicate⟩

/-- The plaintext for port 443 of the host `a`, in the first second. -/
def samplePlaintext : Bytes := [2, 0, 0, 0, 0, 1, 0xbb, 1, 0x61]

def sampleBlob (mask : Bytes) (b : UInt8) : Units :=
  base62Encode ((sampleCrypto mask).token [] (sampleNonce b) samplePlaintext)

theorem sampleCrypto_lower (mask : Bytes) {text : Units} (hascii : Units.IsAscii text) :
    (sampleCrypto mask).toLowerCase text = text.map Units.lowerAscii := by
  induction text with
  | nil => rfl
  | cons u text ih =>
    have hu : u ≠ 0x130 := by
      rintro rfl
      exact absurd (hascii 0x130 mem_cons_self) (by decide)
    have hrest := ih fun v hv => hascii v (mem_cons_of_mem _ hv)
    simp only [sampleCrypto] at hrest ⊢
    rw [flatMap_cons, if_neg hu, map_cons, hrest, singleton_append]

end Meshpn.Tls.EncSni

namespace Meshpn.Tls.EncSni

open Meshpn.Lib

theorem symbols_injective {digits other : List Nat} (h : ∀ digit ∈ digits, digit < 62)
    (h' : ∀ digit ∈ other, digit < 62) (hsame : digits.map symbol = other.map symbol) :
    digits = other := by
  have hdigits := base62Digits_map h
  rw [hsame, base62Digits_map h'] at hdigits
  exact (Except.ok.inj hdigits).symm

theorem recoded_lt (buf : Bytes) :
    ∀ digit ∈ Radix.recode 256 62 (buf.map UInt8.toNat), digit < 62 :=
  fun _ hdigit => Radix.recode_lt (by decide) (by decide) hdigit

theorem zeros_or_not (buf : Bytes) : (∃ b ∈ buf, b ≠ 0) ∨ buf = List.replicate buf.length 0 := by
  by_cases h : ∃ b ∈ buf, b ≠ 0
  · exact .inl h
  refine .inr (eq_replicate_iff.mpr ⟨rfl, fun b hb => ?_⟩)
  by_contra hne
  exact h ⟨b, hb, hne⟩

theorem recode_zero_bytes (n : Nat) :
    Radix.recode 256 62 ((List.replicate n (0 : UInt8)).map UInt8.toNat) =
      List.replicate (n + 1) 0 := by
  rw [map_replicate]
  exact Radix.recode_zeros n

theorem decode_zeros {n : Nat} (hn : n ≠ 0) :
    base62Decode (base62Encode (List.replicate n 0)) = .ok (List.replicate (n + 2) 0) := by
  have hne : List.replicate n (0 : UInt8) ≠ [] := fun hnil => hn (by simpa using hnil)
  have hlt : ∀ digit ∈ List.replicate (n + 1) 0, digit < 62 := fun digit hdigit => by
    rw [eq_of_mem_replicate hdigit]
    decide
  rw [base62Encode_eq hne, recode_zero_bytes, base62Decode_eq hlt (by simp), Radix.recode_zeros,
    map_replicate]
  rfl

theorem base62Encode_injective {buf other : Bytes} (h : base62Encode other = base62Encode buf) :
    other = buf := by
  by_cases hbuf : buf = []
  case pos =>
    subst hbuf
    by_contra hne
    exact base62Encode_ne_nil hne h
  have hother : other ≠ [] := by
    rintro rfl
    exact base62Encode_ne_nil hbuf h.symm
  obtain hnonzero | hzeros := zeros_or_not buf <;>
    obtain hnonzero' | hzeros' := zeros_or_not other
  · have hback := base62_round_trip hnonzero'
    rw [h, base62_round_trip hnonzero] at hback
    exact (Except.ok.inj hback).symm
  · have hback := base62_round_trip hnonzero
    have hlength := length_pos_iff.mpr hother
    rw [← h, hzeros', decode_zeros (by omega)] at hback
    obtain ⟨b, hb, hne⟩ := hnonzero
    rw [← Except.ok.inj hback] at hb
    exact absurd (eq_of_mem_replicate hb) hne
  · have hback := base62_round_trip hnonzero'
    have hlength := length_pos_iff.mpr hbuf
    rw [h, hzeros, decode_zeros (by omega)] at hback
    obtain ⟨b, hb, hne⟩ := hnonzero'
    rw [← Except.ok.inj hback] at hb
    exact absurd (eq_of_mem_replicate hb) hne
  · rw [base62Encode_eq hother, base62Encode_eq hbuf] at h
    have hsame := symbols_injective (recoded_lt other) (recoded_lt buf) h
    rw [hzeros, hzeros', recode_zero_bytes, recode_zero_bytes] at hsame
    have hlength := congrArg List.length hsame
    rw [length_replicate, length_replicate] at hlength
    rw [hzeros, hzeros']
    exact congrArg (fun n => List.replicate n (0 : UInt8)) (by omega)

theorem base62Digits_lt {str : Units} {digits : List Nat} (h : base62Digits str = .ok digits) :
    ∀ digit ∈ digits, digit < 62 := by
  induction str generalizing digits with
  | nil =>
    rw [← Except.ok.inj h]
    exact fun _ hdigit => by cases hdigit
  | cons u rest ih =>
    rw [base62Digits] at h
    cases hu : digitOf u with
    | none =>
      rw [hu] at h
      cases h
    | some digit =>
      rw [hu] at h
      cases hrest : base62Digits rest with
      | error =>
        rw [hrest] at h
        cases h
      | ok tail =>
        rw [hrest] at h
        rw [← Except.ok.inj h]
        intro other hother
        rcases mem_cons.mp hother with rfl | hmem
        · unfold digitOf at hu
          split at hu
          case isTrue hlt =>
            rw [← Option.some.inj hu]
            exact hlt
          case isFalse => cases hu
        · exact ih hrest other hmem

/-- Bytes come back exactly when they are none or not all zero. No two have the same text, and
what the loops of both directions add up is exact in 32 bits. -/
theorem base62_faithful (buf : Bytes) :
    (base62Decode (base62Encode buf) = .ok buf ↔ buf = [] ∨ ∃ b ∈ buf, b ≠ 0) ∧
    (∀ other, base62Encode other = base62Encode buf → other = buf) ∧
    Radix.Carries 2147483648 256 62 (buf.map UInt8.toNat) ∧
    ∀ (str : Units) (digits : List Nat), base62Digits str = .ok digits →
      Radix.Carries 2147483648 62 256 digits := by
  refine ⟨⟨fun hback => ?_, ?_⟩, fun other => base62Encode_injective, ?_, fun str digits h => ?_⟩
  · obtain hnonzero | hzeros := zeros_or_not buf
    · exact .inr hnonzero
    · by_contra hnot
      have hne : buf.length ≠ 0 := fun hnil => hnot (.inl (List.length_eq_zero_iff.mp hnil))
      rw [hzeros, decode_zeros hne] at hback
      have hlength := congrArg List.length (Except.ok.inj hback)
      rw [List.length_replicate, List.length_replicate] at hlength
      omega
  · rintro (rfl | hnonzero)
    · rfl
    · exact base62_round_trip hnonzero
  · refine Radix.carries_of_lt (by decide) (by decide) (by decide) fun item hitem => ?_
    obtain ⟨b, -, rfl⟩ := List.mem_map.mp hitem
    exact b.toNat_lt
  · exact Radix.carries_of_lt (by decide) (by decide) (by decide) (base62Digits_lt h)

/-- One zero byte comes back as three. -/
theorem base62_zero_grows :
    base62Decode (base62Encode [0]) = .ok [0, 0, 0] ∧
    ¬∀ buf : Bytes, base62Decode (base62Encode buf) = .ok buf := by
  have hzero : base62Decode (base62Encode [0]) = .ok [0, 0, 0] := decode_zeros Nat.one_ne_zero
  refine ⟨hzero, fun hall => ?_⟩
  have hlength := congrArg List.length (Except.ok.inj (hzero.symm.trans (hall [0])))
  exact absurd hlength (by decide)

end Meshpn.Tls.EncSni
