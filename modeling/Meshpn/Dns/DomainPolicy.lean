import Meshpn.Dns.Parsing
import Meshpn.Lib.Utf8

/-!
The deny policy of `dns-domain-policy.mjs`. A suffix of the configuration and a question of
the wire meet as hexadecimal labels between dots, and the question loses one label a time
until its rest is listed. Dots inside a label are hexadecimal digits by then.
-/

namespace Meshpn.Dns.DomainPolicy

open Meshpn.Lib Meshpn.Dns.Wire Meshpn.Lib.DomainName List

/-- A value of the configuration, as far as the policy looks at it. The fields of a record
have different keys. -/
inductive Value where
  | text (units : Units)
  | number (n : Int)
  | list (items : List Value)
  | record (fields : List (String × Value))
  | other

def dot : UInt16 := 0x2e

/-- `replace(/\.$/, '')`. -/
def stripDot (text : Units) : Units := if text.getLast? = some dot then text.dropLast else text

/-- `[a-z0-9_]`. -/
def isWord (u : UInt16) : Bool := (0x61 ≤ u && u ≤ 0x7a) || (0x30 ≤ u && u ≤ 0x39) || u == 0x5f

/-- `/^[a-z0-9_](?:[a-z0-9_-]{0,61}[a-z0-9_])?$/`. -/
def isLabel (label : Units) : Bool :=
  1 ≤ label.length && label.length ≤ 63 && label.all (fun u => isWord u || u == 0x2d) &&
    label.head?.all isWord && label.getLast?.all isWord

/-- `Buffer.from(label, 'ascii')`. -/
def asciiBytes (label : Units) : Bytes := label.map UInt16.toUInt8

/-- The labels of a listed suffix. -/
def suffixLabels (toLowerCase : Units → Units) (value : Units) : List Bytes :=
  ((toLowerCase (stripDot value)).splitOn dot).map asciiBytes

/-- A pass of the loop over the suffixes. -/
def addSuffix (toLowerCase : Units → Units) (keys : List (List Char)) :
    Value → Option (List (List Char))
  | .text value =>
    let domain := toLowerCase (stripDot value)
    let key := labelsKey (suffixLabels toLowerCase value)
    if value.length > 254 then none
    else if domain.length > 253 || !(domain.splitOn dot).all isLabel then none
    else if keys.contains key then none
    else some (key :: keys)
  | _ => none

/-- The keys of the policy; `none` where the configuration is refused. -/
def compileDnsDomainPolicy (toLowerCase : Units → Units) : Value → Option (List (List Char))
  | .record fields =>
    match fields.lookup "schema", fields.lookup "denySuffixes" with
    | some (.number 1), some (.list values) =>
      -- two fields in all, so no others than these
      if fields.length = 2 && 1 ≤ values.length && values.length ≤ 128 then
        values.foldlM (addSuffix toLowerCase) []
      else none
    | _, _ => none
  | _ => none

/-- `key.slice(key.indexOf('.') + 1)`, if there is a dot. -/
def afterDot : List Char → Option (List Char)
  | [] => none
  | c :: rest => if c = '.' then some rest else afterDot rest

/-- The loop of `denies`; a pass that goes on has a shorter key. -/
def deniesLoop (keys : List (List Char)) : Nat → List Char → Bool
  | 0, _ => false
  | passes + 1, key =>
    keys.contains key ||
      match afterDot key with
      | some rest => deniesLoop keys passes rest
      | none => false

def denies (keys : List (List Char)) (query : Message) : Bool :=
  deniesLoop keys (query.nameKey.length + 1) query.nameKey

/-- The texts that a configuration lists. -/
def listed : Value → List Units
  | .record fields =>
    match fields.lookup "denySuffixes" with
    | some (.list values) => values.filterMap fun value =>
      match value with
      | .text units => some units
      | _ => none
    | _ => []
  | _ => []

/-- The labels of a text as it is written, one dot at its end apart. -/
def textLabels (value : Units) : List Bytes := ((stripDot value).splitOn dot).map asciiBytes

section

variable {toLowerCase : Units → Units} {keys : List (List Char)}

theorem isLabel_length {label : Units} (h : isLabel label = true) : 0 < label.length := by
  simp only [isLabel, Bool.and_eq_true, decide_eq_true_eq] at h
  exact h.1.1.1.1

theorem addSuffix_eq_some {next : List (List Char)} {value : Value}
    (h : addSuffix toLowerCase keys value = some next) :
    ∃ text, value = .text text ∧ next = labelsKey (suffixLabels toLowerCase text) :: keys ∧
      ∀ label ∈ suffixLabels toLowerCase text, 0 < label.length := by
  cases value with
  | text text =>
    simp only [addSuffix, Bool.or_eq_true, decide_eq_true_eq, Bool.not_eq_true',
      Option.ite_none_left_eq_some, Option.some.injEq, not_or, Bool.not_eq_false] at h
    obtain ⟨-, ⟨-, hlabels⟩, -, rfl⟩ := h
    refine ⟨text, rfl, rfl, fun label hmem => ?_⟩
    obtain ⟨units, hunits, rfl⟩ := mem_map.mp hmem
    rw [asciiBytes, length_map]
    exact isLabel_length (all_eq_true.mp hlabels units hunits)
  | number | list | record | other => cases h

theorem foldlM_addSuffix {values : List Value} {found : List (List Char)}
    (h : values.foldlM (addSuffix toLowerCase) keys = some found) (key : List Char) :
    key ∈ found ↔ key ∈ keys ∨ ∃ text, .text text ∈ values ∧
      key = labelsKey (suffixLabels toLowerCase text) := by
  induction values generalizing keys with
  | nil =>
    cases h
    simp
  | cons value rest ih =>
    rw [foldlM_cons, Option.bind_eq_bind, Option.bind_eq_some_iff] at h
    obtain ⟨next, hnext, hrest⟩ := h
    obtain ⟨text, rfl, rfl, -⟩ := addSuffix_eq_some hnext
    rw [ih hrest]
    simp only [mem_cons, Value.text.injEq]
    grind

theorem foldlM_sizes {values : List Value} {found : List (List Char)}
    (h : values.foldlM (addSuffix toLowerCase) keys = some found) {text : Units}
    (htext : .text text ∈ values) :
    ∀ label ∈ suffixLabels toLowerCase text, 0 < label.length := by
  induction values generalizing keys with
  | nil => cases htext
  | cons value rest ih =>
    rw [foldlM_cons, Option.bind_eq_bind, Option.bind_eq_some_iff] at h
    obtain ⟨next, hnext, hrest⟩ := h
    rcases mem_cons.mp htext with rfl | htext
    · obtain ⟨other, heq, -, hsizes⟩ := addSuffix_eq_some hnext
      cases heq
      exact hsizes
    · exact ih hrest htext

theorem compile_keys {input : Value}
    (h : compileDnsDomainPolicy toLowerCase input = some keys) :
    (∀ key, key ∈ keys ↔ ∃ text ∈ listed input,
      key = labelsKey (suffixLabels toLowerCase text)) ∧
    ∀ text ∈ listed input, ∀ label ∈ suffixLabels toLowerCase text, 0 < label.length := by
  cases input with
  | record fields =>
    rw [compileDnsDomainPolicy] at h
    split at h
    case h_1 values _ hvalues =>
      rw [Option.ite_none_right_eq_some] at h
      have hlisted : ∀ text, text ∈ listed (.record fields) ↔ .text text ∈ values := by
        intro text
        simp only [listed, hvalues, mem_filterMap]
        constructor
        · rintro ⟨value, hmem, hvalue⟩
          cases value with
          | text units => cases hvalue; exact hmem
          | number | list | record | other => cases hvalue
        · exact fun hmem => ⟨_, hmem, rfl⟩
      refine ⟨fun key => ?_, fun text htext => foldlM_sizes h.2 ((hlisted text).mp htext)⟩
      rw [foldlM_addSuffix h.2 key]
      simp [hlisted]
    case h_2 => cases h
  | text | number | list | other => cases h

end

theorem afterDot_append {part rest : List Char} (h : '.' ∉ part) :
    afterDot (part ++ '.' :: rest) = some rest := by
  induction part with
  | nil => rfl
  | cons c part ih =>
    have hc : c ≠ '.' := fun heq => h (heq ▸ mem_cons_self)
    rw [cons_append, afterDot, if_neg hc, ih fun hin => h (mem_cons_of_mem _ hin)]

theorem afterDot_of_no_dot {part : List Char} (h : '.' ∉ part) : afterDot part = none := by
  induction part with
  | nil => rfl
  | cons c part ih =>
    have hc : c ≠ '.' := fun heq => h (heq ▸ mem_cons_self)
    rw [afterDot, if_neg hc, ih fun hin => h (mem_cons_of_mem _ hin)]

theorem labelsKey_cons_cons (label next : Bytes) (rest : List Bytes) :
    labelsKey (label :: next :: rest) = hexLabel label ++ '.' :: labelsKey (next :: rest) := by
  rw [labelsKey, map_cons, map_cons, intercalate_cons_cons, append_assoc]
  rfl

theorem labelsKey_singleton (label : Bytes) : labelsKey [label] = hexLabel label :=
  intercalate_singleton

theorem deniesLoop_iff {keys : List (List Char)} (hempty : [] ∉ keys) {labels : List Bytes}
    {passes : Nat} (hpasses : labels.length < passes) :
    deniesLoop keys passes (labelsKey labels) = true ↔
      ∃ tail, tail <:+ labels ∧ labelsKey tail ∈ keys := by
  have hnone : ¬ ∃ tail, tail <:+ ([] : List Bytes) ∧ labelsKey tail ∈ keys := by
    rintro ⟨tail, htail, hmem⟩
    cases suffix_nil.mp htail
    exact hempty hmem
  induction labels generalizing passes with
  | nil =>
    rcases passes with _ | passes
    · omega
    refine iff_of_false (fun h => ?_) hnone
    rw [deniesLoop] at h
    have hmem : keys.contains [] = true := by simpa [labelsKey, afterDot] using h
    exact hempty (by simpa using hmem)
  | cons label rest ih =>
    rcases passes with _ | passes
    · omega
    have hsplit : (∃ tail, tail <:+ label :: rest ∧ labelsKey tail ∈ keys) ↔
        labelsKey (label :: rest) ∈ keys ∨ ∃ tail, tail <:+ rest ∧ labelsKey tail ∈ keys := by
      simp only [suffix_cons_iff, or_and_right, exists_or, exists_eq_left]
    rw [hsplit, deniesLoop, Bool.or_eq_true, contains_iff_mem]
    refine or_congr Iff.rfl ?_
    cases rest with
    | nil =>
      rw [labelsKey_singleton, afterDot_of_no_dot (dot_not_mem_hexLabel label)]
      exact iff_of_false (fun h => by cases h) hnone
    | cons next rest =>
      rw [labelsKey_cons_cons, afterDot_append (dot_not_mem_hexLabel label)]
      exact ih (by simpa using hpasses)

theorem length_le_labelsKey {labels : List Bytes} (h : ∀ label ∈ labels, 0 < label.length) :
    labels.length ≤ (labelsKey labels).length := by
  induction labels with
  | nil => exact Nat.zero_le _
  | cons label rest ih =>
    have hlabel := length_pos_of_ne_nil (hexLabel_ne_nil (h label mem_cons_self))
    have hrest := ih fun other hmem => h other (mem_cons_of_mem _ hmem)
    cases rest with
    | nil =>
      rw [labelsKey_singleton]
      exact hlabel
    | cons next rest =>
      rw [labelsKey_cons_cons]
      simp only [length_append, length_cons] at hrest ⊢
      omega

theorem lowerAscii_dot (u : UInt16) : (Units.lowerAscii u == dot) = (u == dot) := by
  unfold Units.lowerAscii dot
  grind

theorem folded_toUInt8 {u : UInt16} (h : u < 0x80) :
    (Units.lowerAscii u).toUInt8 = folded u.toUInt8 := by
  have hall : ∀ n : Fin 128, (Units.lowerAscii (UInt16.ofNat n.val)).toUInt8 =
      folded (UInt16.ofNat n.val).toUInt8 := by decide +kernel
  have hlt : u.toNat < 128 := h
  have hu := hall ⟨u.toNat, hlt⟩
  rwa [UInt16.ofNat_toNat] at hu

theorem splitOn_lowerAscii (text : Units) :
    (text.map Units.lowerAscii).splitOn dot = (text.splitOn dot).map (List.map Units.lowerAscii) := by
  induction text with
  | nil => rfl
  | cons u text ih =>
    rw [map_cons, splitOn_cons_eq_if_modifyHead, splitOn_cons_eq_if_modifyHead,
      lowerAscii_dot, ih]
    split
    case isTrue => rfl
    cases text.splitOn dot with
    | nil => rfl
    | cons first parts => rfl

theorem mem_of_mem_splitOn {text part : Units} (h : part ∈ text.splitOn dot) :
    ∀ u ∈ part, u ∈ text := by
  induction text generalizing part with
  | nil =>
    rw [splitOn_nil, mem_singleton] at h
    exact fun u hu => h ▸ hu
  | cons v text ih =>
    rw [splitOn_cons_eq_if_modifyHead] at h
    split at h
    case isTrue =>
      rcases mem_cons.mp h with rfl | hrest
      · exact fun u hu => by cases hu
      · exact fun u hu => mem_cons_of_mem _ (ih hrest u hu)
    case isFalse =>
      rcases hparts : text.splitOn dot with _ | ⟨first, parts⟩
      · exact absurd hparts (splitOn_ne_nil _ _)
      rw [hparts, modifyHead_cons] at h
      rw [hparts] at ih
      rcases mem_cons.mp h with rfl | hrest
      · exact fun u hu => mem_cons.mpr
          ((mem_cons.mp hu).imp_right (ih mem_cons_self u))
      · exact fun u hu => mem_cons_of_mem _ (ih (mem_cons_of_mem _ hrest) u hu)

theorem suffixLabels_ascii {toLowerCase : Units → Units}
    (hlower : ∀ text, Units.IsAscii text → toLowerCase text = text.map Units.lowerAscii)
    {value : Units} (hascii : Units.IsAscii value) :
    suffixLabels toLowerCase value = foldedLabels (textLabels value) := by
  have hstrip : Units.IsAscii (stripDot value) := by
    intro u hu
    unfold stripDot at hu
    split at hu
    · exact hascii u (mem_of_mem_dropLast hu)
    · exact hascii u hu
  rw [suffixLabels, hlower _ hstrip, splitOn_lowerAscii, foldedLabels, textLabels, map_map,
    map_map]
  refine map_congr_left fun part hpart => ?_
  simp only [Function.comp_apply, asciiBytes, map_map]
  exact map_congr_left fun u hu => folded_toUInt8 (hstrip u (mem_of_mem_splitOn hpart u hu))

/-- A question is denied exactly when its last labels are those of a listed suffix, up to the
case of ASCII letters. -/
theorem denies_iff (toLowerCase : Units → Units)
    (hlower : ∀ text, Units.IsAscii text → toLowerCase text = text.map Units.lowerAscii)
    (input : Value) (keys : List (List Char))
    (hcompile : compileDnsDomainPolicy toLowerCase input = some keys)
    (hascii : ∀ text ∈ listed input, Units.IsAscii text) (packet : Bytes) (m : Message)
    (hparse : parseDns packet = .ok m) (labels : List Bytes)
    (hlabels : Denotes packet 12 labels) :
    denies keys m = true ↔
      ∃ text ∈ listed input, ∃ tail, tail <:+ labels ∧ SameName (textLabels text) tail := by
  obtain ⟨hkeys, hsizes⟩ := compile_keys hcompile
  obtain ⟨found, hfound, hnames, -⟩ := nameAt_denotes (parseDns_name hparse)
  cases hfound.unique hlabels
  have hlong := foldedLabels_sizes fun label hmem => (hlabels.sizes label hmem).1
  have hempty : [] ∉ keys := by
    intro hnil
    obtain ⟨text, htext, heq⟩ := (hkeys []).mp hnil
    have hnone := labelsKey_eq_nil (hsizes text htext) heq.symm
    exact List.splitOn_ne_nil _ _ (List.map_eq_nil_iff.mp hnone)
  have hkey : m.nameKey = labelsKey (foldedLabels labels) := congrArg labelsKey hnames
  have hpasses := length_le_labelsKey hlong
  rw [denies, hkey, deniesLoop_iff hempty (Nat.lt_succ_of_le hpasses)]
  simp only [hkeys]
  constructor
  · rintro ⟨tail, htail, text, htext, heq⟩
    obtain ⟨rest, hrest, rfl⟩ := List.suffix_map_iff.mp htail
    refine ⟨text, htext, rest, hrest, foldedLabels_eq_iff.mp ?_⟩
    rw [← suffixLabels_ascii hlower (hascii text htext)]
    exact (labelsKey_injective (fun label hmem => hlong label (htail.subset hmem))
      (hsizes text htext) heq).symm
  · rintro ⟨text, htext, tail, htail, hsame⟩
    refine ⟨foldedLabels tail, List.suffix_map_iff.mpr ⟨tail, htail, rfl⟩, text, htext, ?_⟩
    rw [suffixLabels_ascii hlower (hascii text htext), foldedLabels_eq_iff.mpr hsame]

/-- The suffix `b.` denies the question `w.B`. -/
theorem denies_iff_folded :
    ∃ packet keys m, compileDnsDomainPolicy (List.map Units.lowerAscii)
        (.record [("schema", .number 1), ("denySuffixes", .list [.text [0x62, 0x2e]])]) =
          some keys ∧
      parseDns packet = .ok m ∧ denies keys m = true ∧
      ∃ tail, tail <:+ [[119], [66]] ∧ SameName [[98]] tail := by
  have hparse : parseDns [0, 0, 1, 0, 0, 1, 0, 0, 0, 0, 0, 0, 1, 119, 1, 66, 0, 0, 1, 0, 1] = .ok
      ⟨⟨0, 256, ⟨[[119], [98]], 17, false⟩, 1, 1, 21⟩, [0, 0, 0], [], 512, none⟩ := by
    decide +kernel
  have hlabels : Denotes [0, 0, 1, 0, 0, 1, 0, 0, 0, 0, 0, 0, 1, 119, 1, 66, 0, 0, 1, 0, 1] 12
      [[119], [66]] := by
    have hplain : Plain [0, 0, 1, 0, 0, 1, 0, 0, 0, 0, 0, 0, 1, 119, 1, 66, 0, 0, 1, 0, 1] 12
        [[119], [66]] := @Plain.of_wire _ _ _ [0, 1, 0, 1] (by decide) rfl
    exact hplain.denotes
  have hlisted : listed (.record [("schema", .number 1),
      ("denySuffixes", .list [.text [0x62, 0x2e]])]) = [[0x62, 0x2e]] := rfl
  have hdenies := denies_iff (List.map Units.lowerAscii) (fun _ _ => rfl)
    (.record [("schema", .number 1), ("denySuffixes", .list [.text [0x62, 0x2e]])])
    [['6', '2']] (by decide +kernel) (by rw [hlisted]; decide) _ _ hparse _ hlabels
  refine ⟨_, [['6', '2']], _, by decide +kernel, hparse, by decide +kernel, ?_⟩
  obtain ⟨text, htext, tail, htail, hsame⟩ := hdenies.mp (by decide +kernel)
  rw [hlisted, List.mem_singleton] at htext
  subst htext
  exact ⟨tail, htail, hsame⟩

end Meshpn.Dns.DomainPolicy
