import Meshpn.Lib.Runs

/-!
The DTLS fingerprint of a session description. The signed bind names one
fingerprint; an offer or an answer is compared with it through the first
`a=fingerprint:` attribute that the pattern finds in the text. Any later
fingerprint line is not looked at, and the pattern may run over line ends.

Lower-casing of arbitrary text is a parameter: nothing here depends on what it does.
-/

namespace Meshpn.Signaling

open Meshpn.Lib List

abbrev Text := List Char

/-- The class `\s`, which is also what `trim` removes. -/
def isSpace (c : Char) : Bool :=
  (0x09 ≤ c.toNat && c.toNat ≤ 0x0d) || c.toNat == 0x20 || c.toNat == 0xa0 || c.toNat == 0x1680 ||
    (0x2000 ≤ c.toNat && c.toNat ≤ 0x200a) || c.toNat == 0x2028 || c.toNat == 0x2029 ||
    c.toNat == 0x202f || c.toNat == 0x205f || c.toNat == 0x3000 || c.toNat == 0xfeff

/-- Where `^` and `$` of a multi-line pattern may stand. -/
def isLineTerminator (c : Char) : Bool :=
  c.toNat == 0x0a || c.toNat == 0x0d || c.toNat == 0x2028 || c.toNat == 0x2029

/-- `[0-9A-Fa-f]`. -/
def isHexDigit (c : Char) : Bool := c.isDigit || ('A' ≤ c && c ≤ 'F') || ('a' ≤ c && c ≤ 'f')

/-- `[0-9A-Fa-f:]`. -/
def isHashChar (c : Char) : Bool := isHexDigit c || c == ':'

def fingerprintAttribute : Text := "a=fingerprint:".toList

/-- A match of `a=fingerprint:\s*([^\s]+)\s+([0-9A-Fa-f:]+)\s*$` at the start of the text,
with its two groups. -/
structure Matches (text algorithm hash : Text) (lead gap ending after : Text) : Prop where
  split : text =
    fingerprintAttribute ++ (lead ++ (algorithm ++ (gap ++ (hash ++ (ending ++ after)))))
  lead : ∀ c ∈ lead, isSpace c = true
  algorithm : algorithm ≠ [] ∧ ∀ c ∈ algorithm, isSpace c = false
  gap : gap ≠ [] ∧ ∀ c ∈ gap, isSpace c = true
  hash : hash ≠ [] ∧ ∀ c ∈ hash, isHashChar c = true
  ending : ∀ c ∈ ending, isSpace c = true
  after : ∀ c ∈ after.head?, isLineTerminator c = true

/-- The two groups of a match at the start of the text. Every run but the last is followed
by a character outside its class, so that no shorter run leads to a match; the last one may
stop at any line end that it holds. -/
def matchAttribute (text : Text) : Option (Text × Text) :=
  if fingerprintAttribute <+: text then
    let value := (text.drop fingerprintAttribute.length).dropWhile isSpace
    let algorithm := value.takeWhile (fun c => !isSpace c)
    let parted := value.dropWhile (fun c => !isSpace c)
    let hash := (parted.dropWhile isSpace).takeWhile isHashChar
    let tail := (parted.dropWhile isSpace).dropWhile isHashChar
    if algorithm ≠ [] ∧ hash ≠ [] ∧
        (tail.dropWhile isSpace = [] ∨ (tail.takeWhile isSpace).any isLineTerminator = true) then
      some (algorithm, hash)
    else none
  else none

/-- The text from every place on where `^` holds. -/
def lineStarts (text : Text) : List Text := text :: go text
where
  go : Text → List Text
    | [] => []
    | c :: rest => if isLineTerminator c then rest :: go rest else go rest

def toUpperHash (hash : Text) : Text := hash.map Char.toUpper

def trim (text : Text) : Text :=
  ((text.dropWhile isSpace).reverse.dropWhile isSpace).reverse

/-- `replace(/\s+/g, ' ')`. -/
def collapse : Text → Text
  | [] => []
  | [c] => if isSpace c then [' '] else [c]
  | c :: next :: rest =>
    if isSpace c then
      if isSpace next then collapse (next :: rest) else ' ' :: collapse (next :: rest)
    else c :: collapse (next :: rest)

section Helpers

variable (toLowerCase : Text → Text)

def extractDtlsFingerprintFromSdp (sdp : Text) : Option Text :=
  ((lineStarts sdp).findSome? matchAttribute).map fun groups =>
    toLowerCase groups.1 ++ ' ' :: toUpperHash groups.2

def norm (text : Text) : Text := collapse (toLowerCase (trim text))

/-- An absent or an empty fingerprint equals nothing. -/
def signalingFingerprintsEqual : Option Text → Option Text → Bool
  | some a, some b => a ≠ [] && b ≠ [] && norm toLowerCase a == norm toLowerCase b
  | _, _ => false

end Helpers

section Matching

variable {text algorithm hash lead gap ending after : Text}

theorem isSpace_of_isLineTerminator {c : Char} (hc : isLineTerminator c = true) :
    isSpace c = true := by
  simp only [isLineTerminator, Bool.or_eq_true, beq_iff_eq] at hc
  rcases hc with ((h | h) | h) | h <;> simp [isSpace, h]

theorem isSpace_of_isHashChar {c : Char} (hc : isHashChar c = true) : isSpace c = false := by
  have hrange : 0x30 ≤ c.toNat ∧ c.toNat ≤ 0x66 := by
    simp only [isHashChar, isHexDigit, Char.isDigit, Bool.or_eq_true, Bool.and_eq_true,
      decide_eq_true_eq, beq_iff_eq, Char.le_def, ge_iff_le, UInt32.le_iff_toNat_le] at hc
    rcases hc with ((h | h) | h) | rfl
    · change 48 ≤ c.toNat ∧ c.toNat ≤ 57 at h
      omega
    · change 65 ≤ c.toNat ∧ c.toNat ≤ 70 at h
      omega
    · change 97 ≤ c.toNat ∧ c.toNat ≤ 102 at h
      omega
    · decide
  simp only [isSpace, Bool.or_eq_false_iff, Bool.and_eq_false_iff, decide_eq_false_iff_not,
    beq_eq_false_iff_ne, ne_eq]
  omega

theorem Matches.computes (hmatch : Matches text algorithm hash lead gap ending after) :
    matchAttribute text = some (algorithm, hash) := by
  obtain ⟨hsplit, hlead, ⟨hsome, halgorithm⟩, ⟨hparted, hgap⟩, ⟨hfull, hhash⟩, hending, hafter⟩ :=
    hmatch
  have hstart : Runs.Stops isSpace (algorithm ++ (gap ++ (hash ++ (ending ++ after)))) := by
    rw [Runs.stops_append hsome]
    intro c hc
    exact halgorithm c (mem_of_mem_head? hc)
  have hblank : Runs.Stops (fun c => !isSpace c) (gap ++ (hash ++ (ending ++ after))) := by
    rw [Runs.stops_append hparted]
    intro c hc
    simp [hgap c (mem_of_mem_head? hc)]
  have hvalue : Runs.Stops isSpace (hash ++ (ending ++ after)) := by
    rw [Runs.stops_append hfull]
    intro c hc
    exact isSpace_of_isHashChar (hhash c (mem_of_mem_head? hc))
  have htail : Runs.Stops isHashChar (ending ++ after) := by
    intro c hc
    have hspace : isSpace c = true := by
      cases ending with
      | nil => exact isSpace_of_isLineTerminator (hafter c hc)
      | cons first rest =>
        cases hc
        exact hending c mem_cons_self
    cases hhashed : isHashChar c with
    | false => rfl
    | true => rw [isSpace_of_isHashChar hhashed] at hspace; cases hspace
  have hclosed : (ending ++ after).dropWhile isSpace = [] ∨
      ((ending ++ after).takeWhile isSpace).any isLineTerminator = true := by
    rw [takeWhile_append_of_pos hending, dropWhile_append_of_pos hending]
    cases after with
    | nil => exact .inl rfl
    | cons c rest =>
      have hc := hafter c rfl
      exact .inr (any_eq_true.mpr ⟨c, by simp [isSpace_of_isLineTerminator hc], hc⟩)
  rw [matchAttribute, hsplit, if_pos (prefix_append _ _)]
  simp only [drop_left, Runs.dropWhile_run hlead hstart]
  rw [Runs.takeWhile_run (by simpa using halgorithm) hblank,
    Runs.dropWhile_run (by simpa using halgorithm) hblank, Runs.dropWhile_run hgap hvalue,
    Runs.takeWhile_run hhash htail, Runs.dropWhile_run hhash htail]
  exact if_pos ⟨hsome, hfull, hclosed⟩

theorem stops_at_line_end (tail : Text) (hclosed : tail.dropWhile isSpace = [] ∨
      (tail.takeWhile isSpace).any isLineTerminator = true) :
    ∃ ending after, tail = ending ++ after ∧ (∀ c ∈ ending, isSpace c = true) ∧
      ∀ c ∈ after.head?, isLineTerminator c = true := by
  have hcut := takeWhile_append_dropWhile (p := isSpace) (l := tail)
  rcases hclosed with hend | hline
  · refine ⟨tail.takeWhile isSpace, [], by rw [hend] at hcut; exact hcut.symm,
      fun c => mem_takeWhile_imp, ?_⟩
    intro c hc
    cases hc
  · obtain ⟨c, hc, hterminator⟩ := any_eq_true.mp hline
    obtain ⟨ending, more, hrun⟩ := append_of_mem hc
    refine ⟨ending, c :: more ++ tail.dropWhile isSpace, ?_, ?_, ?_⟩
    · rw [← append_assoc, ← hrun, hcut]
    · intro other hother
      refine mem_takeWhile_imp (l := tail) ?_
      rw [hrun]
      exact mem_append_left _ hother
    · intro other hother
      cases hother
      exact hterminator

theorem matchAttribute_matches (hfound : matchAttribute text = some (algorithm, hash)) :
    ∃ lead gap ending after, Matches text algorithm hash lead gap ending after := by
  unfold matchAttribute at hfound
  split at hfound
  case isFalse => cases hfound
  rename_i hattribute
  obtain ⟨body, rfl⟩ := hattribute
  simp only [drop_left] at hfound
  split at hfound
  case isFalse => cases hfound
  rename_i hshape
  obtain ⟨hsome, hfull, hclosed⟩ := hshape
  cases hfound
  generalize hvalue : body.dropWhile isSpace = value at *
  generalize hparted : value.dropWhile (fun c => !isSpace c) = parted at *
  generalize htail : (parted.dropWhile isSpace).dropWhile isHashChar = tail at *
  obtain ⟨ending, after, htext, hending, hafter⟩ := stops_at_line_end tail hclosed
  refine ⟨body.takeWhile isSpace, parted.takeWhile isSpace, ending, after, ?_,
    fun c => mem_takeWhile_imp, ⟨hsome, ?_⟩, ⟨?_, fun c => mem_takeWhile_imp⟩,
    ⟨hfull, fun c => mem_takeWhile_imp⟩, hending, hafter⟩
  · rw [← htext, ← htail, takeWhile_append_dropWhile, takeWhile_append_dropWhile,
      ← hparted, takeWhile_append_dropWhile, ← hvalue, takeWhile_append_dropWhile]
  · intro c hc
    simpa using mem_takeWhile_imp hc
  · -- what follows the algorithm is a space, unless the text ends there
    intro hgap
    have hstops := Runs.stops_dropWhile (p := fun c => !isSpace c) value
    rw [hparted] at hstops
    cases parted with
    | nil => exact hfull rfl
    | cons c rest =>
      have hc : isSpace c = true := by simpa using Runs.stops_cons.mp hstops
      simp [hc] at hgap

end Matching

end Meshpn.Signaling
