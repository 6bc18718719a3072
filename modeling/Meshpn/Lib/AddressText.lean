import Meshpn.Lib.Text

/-!
How addresses are written. An address of version 4 is four numbers without leading
zeros, between dots; one of version 6 is eight groups of hexadecimal digits, of which
two colons may stand for one or more that are zero, and the last two may be written as
an address of version 4.
-/

namespace Meshpn.Lib.AddressText

open Meshpn.Lib.Scan Meshpn.Lib.Text

def Octet (s : List Char) : Prop := ∃ n < 256, s = decimal n

/-- So many dots, with numbers between them. -/
inductive Dotted : Nat → List Char → Prop where
  | last {s : List Char} : Octet s → Dotted 0 s
  | cons {n : Nat} {s rest : List Char} : Octet s → Dotted n rest → Dotted (n + 1) (s ++ '.' :: rest)

def IPv4 (s : List Char) : Prop := Dotted 3 s

variable {s : List Char}

theorem Octet.digits (h : Octet s) : ∀ c ∈ s, c.isDigit = true := by
  obtain ⟨n, -, rfl⟩ := h
  exact decimal_digits n

theorem stops_nil (p : Char → Bool) : Stops p [] := fun _ h => by cases h

theorem stops_cons {p : Char → Bool} {c : Char} {rest : List Char} (h : p c = false) :
    Stops p (c :: rest) := by
  rintro d ⟨⟩
  exact h

theorem dotted_zero_iff :
    Dotted 0 s ↔ Octet (s.takeWhile Char.isDigit) ∧ s.dropWhile Char.isDigit = [] := by
  constructor
  · rintro (h | _)
    have htake := @takeWhile_append _ s [] h.digits (stops_nil _)
    have hdrop := @dropWhile_append _ s [] h.digits (stops_nil _)
    rw [List.append_nil] at htake hdrop
    rw [htake, hdrop]
    exact ⟨h, rfl⟩
  · rintro ⟨hoctet, hdrop⟩
    have hwhole := List.takeWhile_append_dropWhile (p := Char.isDigit) (l := s)
    rw [hdrop, List.append_nil] at hwhole
    rw [hwhole] at hoctet
    exact .last hoctet

theorem dotted_succ_iff {n : Nat} :
    Dotted (n + 1) s ↔ Octet (s.takeWhile Char.isDigit) ∧
      ∃ rest, s.dropWhile Char.isDigit = '.' :: rest ∧ Dotted n rest := by
  constructor
  · intro h
    cases h with
    | @cons _ first rest hoctet hrest =>
      have hstop : Stops Char.isDigit ('.' :: rest) := stops_cons (by decide)
      rw [takeWhile_append hoctet.digits hstop, dropWhile_append hoctet.digits hstop]
      exact ⟨hoctet, rest, rfl, hrest⟩
  · rintro ⟨hoctet, rest, hdrop, hrest⟩
    have hwhole := List.takeWhile_append_dropWhile (p := Char.isDigit) (l := s)
    rw [hdrop] at hwhole
    rw [← hwhole]
    exact .cons hoctet hrest

/-- The value that digits stand for. -/
def value (s : List Char) : Nat := Nat.ofDigitChars 10 s 0

theorem octet_decimal_facts {n : Nat} (h : n < 256) :
    (decimal n).length ≤ 3 ∧ ((decimal n).length = 1 ∨ (decimal n).head? ≠ some '0') := by
  have hall : ∀ n : Fin 256, (decimal n.val).length ≤ 3 ∧
      ((decimal n.val).length = 1 ∨ (decimal n.val).head? ≠ some '0') := by decide +kernel
  exact hall ⟨n, h⟩

theorem digit_cases {c : Char} (h : c.isDigit = true) : ∃ k : Fin 10, Nat.digitChar k = c := by
  obtain ⟨hlow, hhigh⟩ := Char.isDigit_iff_toNat.mp h
  change 48 ≤ c.toNat at hlow
  change c.toNat ≤ 57 at hhigh
  have hall : ∀ k : Fin 10, Nat.digitChar k = Char.ofNat (48 + k) := by decide
  refine ⟨⟨c.toNat - 48, by omega⟩, ?_⟩
  rw [hall, Nat.add_sub_cancel' hlow, Char.ofNat_toNat]

theorem octet_iff (hs : ∀ c ∈ s, c.isDigit = true) :
    Octet s ↔ s.length ≤ 3 ∧ value s ≤ 255 ∧ s ≠ [] ∧ (s.length = 1 ∨ s.head? ≠ some '0') := by
  constructor
  · rintro ⟨n, hn, rfl⟩
    obtain ⟨hlength, hhead⟩ := octet_decimal_facts hn
    refine ⟨hlength, ?_, decimal_ne_nil n, hhead⟩
    have hvalue : value (decimal n) = n := Nat.ofDigitChars_toDigits (by decide) (by decide)
    omega
  · rintro ⟨hlength, hvalue, hne, hhead⟩
    refine ⟨value s, by omega, ?_⟩
    match s, hs, hlength, hne, hhead with
    | [], _, _, hne, _ => exact absurd rfl hne
    | [c], hs, _, _, _ =>
      obtain ⟨i, rfl⟩ := digit_cases (hs c (by simp))
      have hall : ∀ i : Fin 10, [Nat.digitChar i] = decimal (value [Nat.digitChar i]) := by
        decide +kernel
      exact hall i
    | [c, d], hs, _, _, hhead =>
      obtain ⟨i, rfl⟩ := digit_cases (hs c (by simp))
      obtain ⟨j, rfl⟩ := digit_cases (hs d (by simp))
      have hall : ∀ i j : Fin 10, [Nat.digitChar i, Nat.digitChar j].head? ≠ some '0' →
          [Nat.digitChar i, Nat.digitChar j] =
            decimal (value [Nat.digitChar i, Nat.digitChar j]) := by
        decide +kernel
      exact hall i j (hhead.resolve_left (by simp))
    | [c, d, e], hs, _, _, hhead =>
      obtain ⟨i, rfl⟩ := digit_cases (hs c (by simp))
      obtain ⟨j, rfl⟩ := digit_cases (hs d (by simp))
      obtain ⟨k, rfl⟩ := digit_cases (hs e (by simp))
      have hall : ∀ i j k : Fin 10,
          [Nat.digitChar i, Nat.digitChar j, Nat.digitChar k].head? ≠ some '0' →
          [Nat.digitChar i, Nat.digitChar j, Nat.digitChar k] =
            decimal (value [Nat.digitChar i, Nat.digitChar j, Nat.digitChar k]) := by
        decide +kernel
      exact hall i j k (hhead.resolve_left (by simp))
    | _ :: _ :: _ :: _ :: _, _, hlength, _, _ =>
      simp only [List.length_cons] at hlength
      omega

theorem IPv4.length_le (h : IPv4 s) : s.length ≤ 15 := by
  have hall : ∀ (n : Nat) (s : List Char), Dotted n s → s.length ≤ 4 * n + 3 := by
    intro n s h
    induction h with
    | last hoctet =>
      obtain ⟨n, hn, rfl⟩ := hoctet
      exact (octet_decimal_facts hn).1
    | cons hoctet _ ih =>
      obtain ⟨n, hn, rfl⟩ := hoctet
      have := (octet_decimal_facts hn).1
      simp only [List.length_append, List.length_cons]
      omega
  exact hall 3 s h

/-- One to four hexadecimal digits. -/
def Group (s : List Char) : Prop := s ≠ [] ∧ s.length ≤ 4 ∧ ∀ c ∈ s, c.isHexDigit = true

/-- So many groups with colons between them; the last two may be an address of version 4 where it
is `mixed`. -/
inductive Groups (mixed : Prop) : Nat → List Char → Prop where
  | last {s : List Char} : Group s → Groups mixed 1 s
  | embedded {s : List Char} : mixed → IPv4 s → Groups mixed 2 s
  | cons {n : Nat} {s rest : List Char} :
      Group s → Groups mixed n rest → Groups mixed (n + 1) (s ++ ':' :: rest)

/-- As many groups, or nothing for none. -/
def Side (mixed : Prop) (n : Nat) (s : List Char) : Prop := n = 0 ∧ s = [] ∨ Groups mixed n s

def IPv6 (s : List Char) : Prop :=
  Groups True 8 s ∨ ∃ left right : List Char, ∃ m n : Nat,
    s = left ++ ':' :: ':' :: right ∧ Side False m left ∧ Side True n right ∧ m + n < 8

theorem isHexDigit_of_isDigit {c : Char} (h : c.isDigit = true) : c.isHexDigit = true := by
  rw [Char.isHexDigit, h, Bool.true_or, Bool.true_or]

theorem IPv4.start (h : IPv4 s) :
    ∃ rest, s.dropWhile Char.isHexDigit = '.' :: rest := by
  cases h with
  | @cons _ first rest hoctet _ =>
    exact ⟨rest, dropWhile_append (fun c hc => isHexDigit_of_isDigit (hoctet.digits c hc))
      (stops_cons (by decide))⟩

theorem Group.split {s rest : List Char} (h : Group s) :
    (s ++ ':' :: rest).takeWhile Char.isHexDigit = s ∧
      (s ++ ':' :: rest).dropWhile Char.isHexDigit = ':' :: rest :=
  ⟨takeWhile_append h.2.2 (stops_cons (by decide)), dropWhile_append h.2.2 (stops_cons (by decide))⟩

section Split

variable {mixed : Prop} {n : Nat} {s g rest : List Char}

theorem groups_iff (hg : s.takeWhile Char.isHexDigit = g)
    (hrest : s.dropWhile Char.isHexDigit = rest) :
    Groups mixed n s ↔ (mixed ∧ n = 2 ∧ IPv4 s) ∨ (Group g ∧ n = 1 ∧ rest = []) ∨
      (Group g ∧ ∃ m t, n = m + 1 ∧ rest = ':' :: t ∧ Groups mixed m t) := by
  have hwhole := List.takeWhile_append_dropWhile (p := Char.isHexDigit) (l := s)
  rw [hg, hrest] at hwhole
  constructor
  · intro h
    cases h with
    | last hgroup =>
      have htake := @takeWhile_append Char.isHexDigit s [] hgroup.2.2 (stops_nil _)
      have hdrop := @dropWhile_append Char.isHexDigit s [] hgroup.2.2 (stops_nil _)
      rw [List.append_nil] at htake hdrop
      rw [← hg, ← hrest, htake, hdrop]
      exact .inr (.inl ⟨hgroup, rfl, rfl⟩)
    | embedded hmixed hv4 => exact .inl ⟨hmixed, rfl, hv4⟩
    | @cons m first t hgroup ht =>
      obtain ⟨htake, hdrop⟩ := @Group.split first t hgroup
      rw [← hg, ← hrest, htake, hdrop]
      exact .inr (.inr ⟨hgroup, m, t, rfl, rfl, ht⟩)
  · rintro (⟨hmixed, rfl, hv4⟩ | ⟨hgroup, rfl, rfl⟩ | ⟨hgroup, m, t, rfl, rfl, ht⟩)
    · exact .embedded hmixed hv4
    · rw [List.append_nil] at hwhole
      rw [← hwhole]
      exact .last hgroup
    · rw [← hwhole]
      exact .cons hgroup ht

/-- At least one group, then two colons, and groups behind them: so many together. -/
def Short (k : Nat) (s : List Char) : Prop :=
  ∃ left right : List Char, ∃ m n : Nat, s = left ++ ':' :: ':' :: right ∧
    Groups False m left ∧ Side True n right ∧ m + n = k

theorem short_iff {k : Nat} (hg : s.takeWhile Char.isHexDigit = g)
    (hrest : s.dropWhile Char.isHexDigit = rest) :
    Short k s ↔ Group g ∧ ∃ t, rest = ':' :: t ∧
      ((∃ right n, t = ':' :: right ∧ Side True n right ∧ k = n + 1) ∨
        ∃ m, Short m t ∧ k = m + 1) := by
  have hwhole := List.takeWhile_append_dropWhile (p := Char.isHexDigit) (l := s)
  rw [hg, hrest] at hwhole
  constructor
  · rintro ⟨left, right, m, n, rfl, hleft, hright, rfl⟩
    cases hleft with
    | last hgroup =>
      obtain ⟨htake, hdrop⟩ := @Group.split left (':' :: right) hgroup
      rw [← hg, ← hrest, htake, hdrop]
      exact ⟨hgroup, _, rfl, .inl ⟨right, n, rfl, hright, by omega⟩⟩
    | embedded hmixed _ => exact hmixed.elim
    | @cons m first t hgroup ht =>
      have hassoc : first ++ ':' :: t ++ ':' :: ':' :: right =
          first ++ ':' :: (t ++ ':' :: ':' :: right) := by
        rw [List.append_assoc, List.cons_append]
      obtain ⟨htake, hdrop⟩ := @Group.split first (t ++ ':' :: ':' :: right) hgroup
      rw [← hg, ← hrest, hassoc, htake, hdrop]
      exact ⟨hgroup, _, rfl, .inr ⟨m + n, ⟨t, right, m, n, rfl, ht, hright, rfl⟩, by omega⟩⟩
  · rintro ⟨hgroup, t, rfl, ⟨right, n, rfl, hright, rfl⟩ | ⟨m, ⟨left, right, a, b, rfl, hleft,
      hright, rfl⟩, rfl⟩⟩
    · exact ⟨g, right, 1, n, hwhole.symm, .last hgroup, hright, by omega⟩
    · refine ⟨g ++ ':' :: left, right, a + 1, b, ?_, .cons hgroup hleft, hright, by omega⟩
      rw [← hwhole, List.append_assoc, List.cons_append]

end Split

end Meshpn.Lib.AddressText
