import Meshpn.Lib.AddressText
import Meshpn.Lib.CString

/-!
The addresses of a tunnel's profile: a list with exactly one address of version 4, which
is the one that is used. Every function reads its text through a pointer.

The scanners of the profile accept exactly the addresses as they are written, and read
nothing behind a terminator.
-/

namespace Meshpn.Device.VpnProfile

open Meshpn.Lib Meshpn.Lib.Checked Meshpn.Lib.CString

/-- The digits of one number: how many there are, and what is left; `none` where the whole address
is refused at once. -/
def octetLoop (count n : Nat) : List Char → Except Checked.Fault (Option (Nat × List Char))
  | [] => .error .range
  | c :: rest =>
    if c.isDigit then
      let n := n * 10 + (c.toNat - '0'.toNat)
      if count + 1 > 3 || n > 255 then .ok none else octetLoop (count + 1) n rest
    else .ok (some (count, c :: rest))

/-- The parts of `ipv4_valid`, of which so many are left. -/
def ipv4Parts (left : Nat) (s : List Char) : Except Checked.Fault Bool := do
  match ← octetLoop 0 0 s with
  | none => return false
  | some (count, rest) =>
    if count == 0 || (count > 1 && (← char s) == '0') then return false
    else match left with
      | 0 => return (← char rest) == '\x00'
      | left + 1 => if (← char rest) != '.' then return false else ipv4Parts left rest.tail

def ipv4Valid (s : List Char) : Except Checked.Fault Bool := ipv4Parts 3 s

def hex (c : Char) : Bool :=
  '0' ≤ c && c ≤ '9' || 'a' ≤ c && c ≤ 'f' || 'A' ≤ c && c ≤ 'F'

/-- What both ends of `ipv6_valid` return. -/
def enough (compressed : Bool) (groups : Nat) : Bool :=
  if compressed then groups < 8 else groups == 8

/-- The loop of `ipv6_valid`, where `groups` is what eight is less `left`. -/
def ipv6Loop (left : Nat) (compressed : Bool) (s : List Char) : Except Checked.Fault Bool := do
  if (← char s) == '\x00' then return enough compressed (8 - left)
  else
    let (start, rest) ← passWhile hex s
    let c ← char rest
    if c == '.' then
      if !(← ipv4Valid s) then return false else return enough compressed (8 - left + 2)
    else if start.length == 0 || start.length > 4 then return false
    else match left with
      | 0 => return false
      | left + 1 =>
        if c == '\x00' then return enough compressed (8 - left)
        else if c != ':' then return false
        else
          let next := rest.tail
          let c ← char next
          if c == ':' then
            if compressed then return false
            else if (← char next.tail) == '\x00' then return enough true (8 - left)
            else ipv6Loop left true next.tail
          else if c == '\x00' then return false
          else ipv6Loop left compressed next

def ipv6Valid (s : List Char) : Except Checked.Fault Bool := do
  if (← char s) == ':' then
    if (← char s.tail) != ':' then return false
    else if (← char s.tail.tail) == '\x00' then return true
    else ipv6Loop 8 true s.tail.tail
  else ipv6Loop 8 false s

def space (c : Char) : Bool := c == ' ' || c == '\t' || c == '\r' || c == '\n'

/-- The digits behind a slash, which may be followed by nothing. -/
def prefixLoop (bound n digits : Nat) : List Char → Except Checked.Fault Bool
  | [] => .error .range
  | c :: rest =>
    if c.isDigit then
      if digits + 1 > 3 then .ok false
      else prefixLoop bound (n * 10 + (c.toNat - '0'.toNat)) (digits + 1) rest
    else .ok !(digits == 0 || c != '\x00' || n > bound)

/-- `while (size < 160 && value[size]) size++`, with so much room left; true where it is all used. -/
def tooLong : Nat → List Char → Except Checked.Fault Bool
  | 0, _ => .ok true
  | room + 1, s => do if (← char s) == '\x00' then return false else tooLong room s.tail

/-- One item between the commas, blanks taken off: `none` where it is refused, else the address of
version 4 that is selected from here on. -/
def itemStep (selected item : List Char) : Except Checked.Fault (Option (List Char)) := do
  if item.length == 0 || item.length ≥ 64 then return none
  else
    let token ← copy 64 (stored item)
    let v6 := item.contains ':'
    -- The slash is overwritten by a terminator.
    let host := stored (item.takeWhile (· != '/'))
    let bound := if v6 then 128 else 32
    let valid ← if item.contains '/' then prefixLoop bound 0 0 (token.dropWhile (· != '/')).tail
      else pure true
    if !valid then return none
    else if v6 then
      if !(← ipv6Valid host) then return none else return some selected
    else if !selected.isEmpty then return none
    else if !(← ipv4Valid host) then return none
    else return some ((← copy 16 host).dropLast)

/-- The loop of `meshvpn_vpn_profile_address`, of so many turns at most. -/
def addressLoop (selected : List Char) : Nat → List Char → Except Checked.Fault (Option (List Char))
  | 0, _ => .error .stuck
  | turns + 1, p => do
    let (_, start) ← passWhile space p
    let (item, p) ← passWhile (fun c => c != '\x00' && c != ',') start
    let item := (item.reverse.dropWhile space).reverse
    match ← itemStep selected item with
    | none => return none
    | some selected =>
      if (← char p) == '\x00' then return some selected else addressLoop selected turns p.tail

/-- `meshvpn_vpn_profile_address`: whether the value is accepted, and the array afterwards. -/
def vpnProfileAddress (value ipv4 : List Char) : Except Checked.Fault (Bool × List Char) := do
  if ← tooLong 160 value then return (false, ipv4)
  else
    match ← addressLoop [] value.length value with
    | none => return (false, ipv4)
    | some selected =>
      if selected.isEmpty then return (false, ipv4)
      else return (true, selected ++ List.replicate (16 - selected.length) '\x00')

open Meshpn.Lib Meshpn.Lib.AddressText Meshpn.Lib.Checked Meshpn.Lib.CString Meshpn.Lib.Scan
open Meshpn.Lib.Text

/-- The scanner ends without a fault, and with true exactly in this case. -/
def Decides (result : Except Checked.Fault Bool) (p : Prop) : Prop := ∃ b, result = .ok b ∧ (b = true ↔ p)

theorem Decides.of_false {p : Prop} (h : ¬p) : Decides (.ok false) p :=
  ⟨false, rfl, (fun heq => by cases heq), fun hp => absurd hp h⟩

theorem Decides.congr {result : Except Checked.Fault Bool} {p q : Prop} (h : Decides result p)
    (hiff : p ↔ q) : Decides result q := by
  obtain ⟨b, hb, hp⟩ := h
  exact ⟨b, hb, hp.trans hiff⟩

theorem le_ofDigitChars (s : List Char) (n : Nat) : n ≤ Nat.ofDigitChars 10 s n := by
  induction s generalizing n with
  | nil => exact Nat.le_refl n
  | cons c s ih =>
    rw [Nat.ofDigitChars_cons]
    exact Nat.le_trans (by omega) (ih _)

theorem octetLoop_spec (s : List Char) {count n : Nat} (hcount : count ≤ 3) (hn : n ≤ 255) :
    octetLoop count n (stored s) =
      .ok (if count + (s.takeWhile Char.isDigit).length ≤ 3 ∧
          Nat.ofDigitChars 10 (s.takeWhile Char.isDigit) n ≤ 255 then
        some (count + (s.takeWhile Char.isDigit).length, stored (s.dropWhile Char.isDigit))
        else none) := by
  induction s generalizing count n with
  | nil =>
    rw [List.takeWhile_nil, Nat.ofDigitChars_nil, if_pos ⟨hcount, hn⟩]
    rfl
  | cons c s ih =>
    change octetLoop count n (c :: stored s) = _
    rw [octetLoop]
    cases hc : c.isDigit with
    | false =>
      have hnot : ¬c.isDigit = true := by rw [hc]; exact Bool.false_ne_true
      rw [if_neg Bool.false_ne_true, List.takeWhile_cons_of_neg hnot, List.dropWhile_cons_of_neg hnot,
        Nat.ofDigitChars_nil, if_pos ⟨hcount, hn⟩]
      rfl
    | true =>
      rw [List.takeWhile_cons_of_pos hc, List.dropWhile_cons_of_pos hc, Nat.ofDigitChars_cons,
        List.length_cons, Nat.mul_comm 10 n, if_pos rfl]
      dsimp only
      have hmore := le_ofDigitChars (s.takeWhile Char.isDigit) (n * 10 + (c.toNat - '0'.toNat))
      by_cases hstop : count + 1 > 3 ∨ n * 10 + (c.toNat - '0'.toNat) > 255
      · rw [if_pos (by simpa using hstop), if_neg (by omega)]
      rw [if_neg (by simpa using hstop), ih (by omega) (by omega)]
      have hsum : count + 1 + (s.takeWhile Char.isDigit).length =
          count + ((s.takeWhile Char.isDigit).length + 1) := by omega
      rw [hsum]

theorem takeWhile_digits (s : List Char) : ∀ c ∈ s.takeWhile Char.isDigit, c.isDigit = true :=
  fun _ hc => List.all_eq_true.mp List.all_takeWhile _ hc

variable {s : List Char}

/-- What is checked behind the digits, where neither their number nor their value was too large. -/
theorem octet_checked (hlength : (s.takeWhile Char.isDigit).length ≤ 3)
    (hvalue : value (s.takeWhile Char.isDigit) ≤ 255) :
    ((s.takeWhile Char.isDigit).length == 0 ||
      decide ((s.takeWhile Char.isDigit).length > 1) && s.headD '\x00' == '0') = false ↔
      Octet (s.takeWhile Char.isDigit) := by
  rw [octet_iff (takeWhile_digits s)]
  rcases s with _ | ⟨c, s⟩
  · simp
  rcases hc : c.isDigit with _ | _
  · simp [hc]
  simp only [List.takeWhile_cons, hc, if_true, List.length_cons, List.headD_cons] at hlength hvalue ⊢
  simp only [List.head?_cons, ne_eq, Option.some.injEq, Bool.or_eq_false_iff, beq_eq_false_iff_ne,
    Bool.and_eq_false_iff, decide_eq_false_iff_not, List.cons_ne_nil, not_false_eq_true, true_and]
  constructor
  · rintro ⟨-, h | h⟩
    · exact ⟨hlength, hvalue, .inl (by omega)⟩
    · exact ⟨hlength, hvalue, .inr h⟩
  · rintro ⟨-, -, h | h⟩
    · exact ⟨by omega, .inl (by omega)⟩
    · exact ⟨by omega, .inr h⟩

section Parts

variable (left : Nat) {s : List Char}

theorem ipv4Parts_refused (h : ¬Octet (s.takeWhile Char.isDigit)) :
    ipv4Parts left (stored s) = .ok false := by
  unfold ipv4Parts
  rw [octetLoop_spec s (by decide) (by decide), char_stored]
  simp only [Nat.zero_add]
  split
  case isFalse => rfl
  rename_i hsmall
  have hcheck := mt (octet_checked hsmall.1 hsmall.2).mp h
  rw [Bool.not_eq_false] at hcheck
  change (if _ then _ else _) = _
  exact if_pos hcheck

theorem ipv4Parts_taken (h : Octet (s.takeWhile Char.isDigit)) :
    ipv4Parts left (stored s) =
      match left with
      | 0 => .ok ((s.dropWhile Char.isDigit).headD '\x00' == '\x00')
      | left + 1 =>
        if (s.dropWhile Char.isDigit).headD '\x00' != '.' then .ok false
        else ipv4Parts left (stored (s.dropWhile Char.isDigit)).tail := by
  have hsmall := (octet_iff (takeWhile_digits s)).mp h
  have hcheck := (octet_checked hsmall.1 hsmall.2.1).mpr h
  rw [ipv4Parts, octetLoop_spec s (by decide) (by decide), char_stored]
  simp only [Nat.zero_add]
  rw [if_pos ⟨hsmall.1, hsmall.2.1⟩]
  change (if _ then _ else _) = _
  rw [if_neg (by rw [hcheck]; exact Bool.false_ne_true)]
  cases left <;> rw [char_stored] <;> rfl

end Parts

theorem ipv4Parts_spec (left : Nat) (hs : '\x00' ∉ s) :
    Decides (ipv4Parts left (stored s)) (Dotted left s) := by
  induction left generalizing s with
  | zero =>
    by_cases hoctet : Octet (s.takeWhile Char.isDigit)
    · rw [ipv4Parts_taken 0 hoctet]
      refine ⟨_, rfl, ?_⟩
      rw [beq_iff_eq, head_end_iff (dropWhile_ends hs), dotted_zero_iff, and_iff_right hoctet]
    · rw [ipv4Parts_refused 0 hoctet]
      exact .of_false fun h => hoctet (dotted_zero_iff.mp h).1
  | succ left ih =>
    by_cases hoctet : Octet (s.takeWhile Char.isDigit)
    · rw [ipv4Parts_taken _ hoctet]
      have hends := @dropWhile_ends Char.isDigit s hs
      cases hrest : s.dropWhile Char.isDigit with
      | nil =>
        refine .of_false fun h => ?_
        obtain ⟨-, rest, heq, -⟩ := dotted_succ_iff.mp h
        rw [hrest] at heq
        cases heq
      | cons c rest =>
        rw [hrest] at hends
        by_cases hc : c = '.'
        · subst hc
          refine (ih (rest_ends hends)).congr ?_
          rw [dotted_succ_iff, hrest, and_iff_right hoctet]
          exact ⟨fun h => ⟨rest, rfl, h⟩, fun ⟨_, heq, h⟩ => (List.cons.inj heq).2 ▸ h⟩
        · have hother : ((c :: rest).headD '\x00' != '.') = true := bne_iff_ne.mpr hc
          change Decides (if ((c :: rest).headD '\x00' != '.') = true then _ else _) _
          rw [if_pos hother]
          refine .of_false fun h => ?_
          obtain ⟨-, rest, heq, -⟩ := dotted_succ_iff.mp h
          rw [hrest] at heq
          exact hc (List.cons.inj heq).1
    · rw [ipv4Parts_refused _ hoctet]
      exact .of_false fun h => hoctet (dotted_succ_iff.mp h).1

theorem ipv4Valid_spec (hs : '\x00' ∉ s) :
    Decides (ipv4Valid (stored s)) (IPv4 s) := ipv4Parts_spec 3 hs

theorem hex_eq : hex = Char.isHexDigit := by
  funext c
  rw [Bool.eq_iff_iff, Char.isHexDigit, Char.isDigit]
  simp only [hex, Bool.or_eq_true, Bool.and_eq_true, decide_eq_true_eq, Char.le_def, UInt32.le_iff_toNat_le]

/-- What may come after so many of the eight groups less `left`. -/
def Rest (left : Nat) (compressed : Bool) (s : List Char) : Prop :=
  if compressed then ∃ n < left, Groups True n s
  else Groups True left s ∨ ∃ k < left, Short k s

section Rest

variable {left : Nat} {compressed : Bool} {s g rest : List Char}

theorem not_ipv4_of_rest (hrest : s.dropWhile Char.isHexDigit = rest)
    (hdot : rest.head? ≠ some '.') : ¬IPv4 s := by
  intro h
  obtain ⟨t, ht⟩ := h.start
  rw [← hrest, ht] at hdot
  exact hdot rfl

theorem rest_dot (hleft : left ≤ 8) (hrest : s.dropWhile Char.isHexDigit = '.' :: rest) :
    Rest left compressed s ↔ IPv4 s ∧ enough compressed (8 - left + 2) = true := by
  have hgroups : ∀ n, Groups True n s ↔ n = 2 ∧ IPv4 s := by
    intro n
    rw [groups_iff rfl hrest]
    simp
  have hshort : ∀ k, ¬Short k s := by
    intro k
    rw [short_iff rfl hrest]
    simp
  cases compressed with
  | true =>
    simp only [Rest, if_true, hgroups, enough, decide_eq_true_eq]
    constructor
    · rintro ⟨n, hn, rfl, hv4⟩
      exact ⟨hv4, by omega⟩
    · rintro ⟨hv4, hn⟩
      exact ⟨2, by omega, rfl, hv4⟩
  | false =>
    simp only [Rest, Bool.false_eq_true, if_false, hgroups, hshort, and_false, exists_false, or_false,
      enough, beq_iff_eq]
    rw [and_comm]
    exact and_congr_right fun _ => by omega

variable {n : Nat}

theorem groups_behind (hg : s.takeWhile Char.isHexDigit = g)
    (hrest : s.dropWhile Char.isHexDigit = rest) (hdot : rest.head? ≠ some '.') :
    Groups True n s ↔ Group g ∧
      (n = 1 ∧ rest = [] ∨ ∃ m t, n = m + 1 ∧ rest = ':' :: t ∧ Groups True m t) := by
  have hv4 := not_ipv4_of_rest hrest hdot
  rw [groups_iff hg hrest, and_or_left]
  simp only [hv4, and_false, false_or]

theorem group_of_rest (hg : s.takeWhile Char.isHexDigit = g)
    (hrest : s.dropWhile Char.isHexDigit = rest) (hdot : rest.head? ≠ some '.')
    (h : Rest left compressed s) : Group g := by
  cases compressed with
  | true =>
    obtain ⟨n, -, hgroups⟩ := h
    exact ((groups_behind hg hrest hdot).mp hgroups).1
  | false =>
    rcases h with hgroups | ⟨k, -, hshort⟩
    · exact ((groups_behind hg hrest hdot).mp hgroups).1
    · exact ((short_iff hg hrest).mp hshort).1

theorem rest_zero (hrest : s.dropWhile Char.isHexDigit = rest) (hdot : rest.head? ≠ some '.') :
    ¬Rest 0 compressed s := by
  cases compressed with
  | true => rintro ⟨n, hn, -⟩; exact absurd hn (Nat.not_lt_zero n)
  | false =>
    rintro (hgroups | ⟨k, hk, -⟩)
    · obtain ⟨-, ⟨hn, -⟩ | ⟨m, -, hm, -⟩⟩ := (groups_behind rfl hrest hdot).mp hgroups <;> omega
    · exact absurd hk (Nat.not_lt_zero k)

theorem rest_end (hleft : left < 8) (hg : s.takeWhile Char.isHexDigit = g)
    (hrest : s.dropWhile Char.isHexDigit = []) (hgroup : Group g) :
    Rest (left + 1) compressed s ↔ enough compressed (8 - left) = true := by
  have hgroups : ∀ n, Groups True n s ↔ n = 1 := by
    intro n
    rw [groups_behind hg hrest (by simp)]
    simp [hgroup]
  have hshort : ∀ k, ¬Short k s := by
    intro k
    rw [short_iff hg hrest]
    simp
  cases compressed with
  | true =>
    simp only [Rest, if_true, hgroups, enough, decide_eq_true_eq, exists_eq_right]
    omega
  | false =>
    simp only [Rest, Bool.false_eq_true, if_false, hgroups, hshort, and_false, exists_false, or_false,
      enough, beq_iff_eq]
    omega

theorem rest_other {c : Char} (hrest : s.dropWhile Char.isHexDigit = c :: rest) (hdot : c ≠ '.')
    (hcolon : c ≠ ':') : ¬Rest left compressed s := by
  have hgroups : ∀ n, ¬Groups True n s := by
    intro n
    rw [groups_behind rfl hrest (by simpa using hdot)]
    simp [hcolon]
  have hshort : ∀ k, ¬Short k s := by
    intro k
    rw [short_iff rfl hrest]
    simp [hcolon]
  cases compressed with
  | true => rintro ⟨n, -, h⟩; exact hgroups n h
  | false =>
    rintro (h | ⟨k, -, h⟩)
    · exact hgroups _ h
    · exact hshort k h

theorem not_groups_colon : ¬Groups True n (':' :: rest) := by
  rw [groups_behind rfl (List.dropWhile_cons_of_neg (by decide)) (by simp)]
  rintro ⟨hgroup, -⟩
  rw [List.takeWhile_cons_of_neg (by decide)] at hgroup
  exact hgroup.1 rfl

theorem not_short_colon {k : Nat} : ¬Short k (':' :: rest) := by
  rw [short_iff rfl (List.dropWhile_cons_of_neg (by decide))]
  rintro ⟨hgroup, -⟩
  rw [List.takeWhile_cons_of_neg (by decide)] at hgroup
  exact hgroup.1 rfl

theorem not_rest_nil : ¬Rest left compressed [] :=
  fun h => (group_of_rest rfl rfl (by simp) h).1 rfl

theorem side_nil_iff : Side True n [] ↔ n = 0 := by
  constructor
  · rintro (⟨hn, -⟩ | h)
    · exact hn
    · exact absurd rfl ((groups_behind rfl rfl (by simp)).mp h).1.1
  · rintro rfl
    exact .inl ⟨rfl, rfl⟩

theorem side_cons_iff {c : Char} : Side True n (c :: s) ↔ Groups True n (c :: s) := by
  simp [Side]

theorem rest_colon {t : List Char} (hg : s.takeWhile Char.isHexDigit = g)
    (hrest : s.dropWhile Char.isHexDigit = ':' :: t) (hgroup : Group g) (ht : t.head? ≠ some ':') :
    Rest (left + 1) compressed s ↔ Rest left compressed t := by
  have hgroups : ∀ n, Groups True n s ↔ ∃ m, n = m + 1 ∧ Groups True m t := by
    intro n
    rw [groups_behind hg hrest (by simp)]
    simp [hgroup]
  have hshort : ∀ k, Short k s ↔ ∃ m, k = m + 1 ∧ Short m t := by
    intro k
    rw [short_iff hg hrest]
    constructor
    · rintro ⟨-, t', heq, ⟨right, n, rfl, -⟩ | ⟨m, hm, rfl⟩⟩
      · exact absurd (congrArg List.head? (List.cons.inj heq).2) ht
      · exact ⟨m, rfl, (List.cons.inj heq).2 ▸ hm⟩
    · rintro ⟨m, rfl, hm⟩
      exact ⟨hgroup, t, rfl, .inr ⟨m, hm, rfl⟩⟩
  cases compressed with
  | true =>
    simp only [Rest, if_true, hgroups]
    constructor
    · rintro ⟨n, hn, m, rfl, hm⟩
      exact ⟨m, by omega, hm⟩
    · rintro ⟨m, hn, hm⟩
      exact ⟨m + 1, by omega, m, rfl, hm⟩
  | false =>
    simp only [Rest, Bool.false_eq_true, if_false, hgroups, hshort]
    constructor
    · rintro (⟨m, hm, h⟩ | ⟨k, hk, m, rfl, h⟩)
      · exact .inl (by rwa [Nat.succ.inj hm])
      · exact .inr ⟨m, by omega, h⟩
    · rintro (h | ⟨k, hk, h⟩)
      · exact .inl ⟨left, rfl, h⟩
      · exact .inr ⟨k + 1, by omega, k, rfl, h⟩

theorem rest_colons {u : List Char} (hg : s.takeWhile Char.isHexDigit = g)
    (hrest : s.dropWhile Char.isHexDigit = ':' :: ':' :: u) (hgroup : Group g) :
    Rest (left + 1) compressed s ↔ compressed = false ∧ ∃ n < left, Side True n u := by
  have hgroups : ∀ n, ¬Groups True n s := by
    intro n
    rw [groups_behind hg hrest (by simp)]
    rintro ⟨-, ⟨-, h⟩ | ⟨m, t, -, heq, h⟩⟩
    · cases h
    · rw [← (List.cons.inj heq).2] at h
      exact not_groups_colon h
  have hshort : ∀ k, Short k s ↔ ∃ n, k = n + 1 ∧ Side True n u := by
    intro k
    rw [short_iff hg hrest]
    constructor
    · rintro ⟨-, t, heq, ⟨right, n, rfl, hside, rfl⟩ | ⟨m, hm, rfl⟩⟩
      · obtain ⟨-, heq⟩ := List.cons.inj heq
        exact ⟨n, rfl, (List.cons.inj heq).2 ▸ hside⟩
      · rw [← (List.cons.inj heq).2] at hm
        exact absurd hm not_short_colon
    · rintro ⟨n, rfl, hside⟩
      exact ⟨hgroup, _, rfl, .inl ⟨u, n, rfl, hside, rfl⟩⟩
  cases compressed with
  | true => simp [Rest, hgroups]
  | false =>
    simp only [Rest, Bool.false_eq_true, if_false, hgroups, hshort, false_or, true_and]
    constructor
    · rintro ⟨k, hk, n, rfl, h⟩
      exact ⟨n, by omega, h⟩
    · rintro ⟨n, hn, h⟩
      exact ⟨n + 1, by omega, n, rfl, h⟩

end Rest

section Loop

variable {left : Nat} {compressed : Bool} {s g rest : List Char}

theorem ipv6Loop_digits (hs : '\x00' ∉ s) (hne : s ≠ []) :
    char (stored s) = .ok (s.headD '\x00') ∧ ¬(s.headD '\x00' == '\x00') = true ∧
      passWhile hex (stored s) =
        .ok (s.takeWhile Char.isHexDigit, stored (s.dropWhile Char.isHexDigit)) := by
  refine ⟨char_stored s, ?_, ?_⟩
  · rw [beq_iff_eq, head_end_iff hs]
    exact hne
  · rw [hex_eq]
    exact passWhile_stored (by decide) s

theorem ipv6Loop_dot (hs : '\x00' ∉ s) (hne : s ≠ [])
    (hrest : s.dropWhile Char.isHexDigit = '.' :: rest) :
    ipv6Loop left compressed (stored s) =
      (ipv4Valid (stored s)).map fun valid => valid && enough compressed (8 - left + 2) := by
  obtain ⟨hfirst, hmore, hpass⟩ := ipv6Loop_digits hs hne
  rw [hrest] at hpass
  rw [ipv6Loop.eq_def, hfirst, hpass]
  change (if _ then _ else _) = _
  rw [if_neg hmore]
  change (ipv4Valid _ >>= _) = _
  cases ipv4Valid (stored s) with
  | error fault => rfl
  | ok valid => cases valid <;> rfl

theorem group_checked (hrest : s.dropWhile Char.isHexDigit = rest) (hdot : rest.head? ≠ some '.') :
    ¬((rest.headD '\x00' == '.') = true) ∧
      ((((s.takeWhile Char.isHexDigit).length == 0 ||
        decide ((s.takeWhile Char.isHexDigit).length > 4)) = true) ↔
          ¬Group (s.takeWhile Char.isHexDigit)) := by
  constructor
  · cases rest with
    | nil => decide
    | cons c rest =>
      rw [beq_iff_eq]
      exact fun h => hdot (congrArg some h)
  · have hall : ∀ c ∈ s.takeWhile Char.isHexDigit, c.isHexDigit = true :=
      fun _ hc => List.all_eq_true.mp List.all_takeWhile _ hc
    simp only [AddressText.Group, Bool.or_eq_true, beq_iff_eq, List.length_eq_zero_iff, decide_eq_true_eq,
      and_iff_left hall, not_and_or, not_not, Nat.not_le, gt_iff_lt, ne_eq]

theorem ipv6Loop_refused (hs : '\x00' ∉ s) (hne : s ≠ [])
    (hrest : s.dropWhile Char.isHexDigit = rest) (hdot : rest.head? ≠ some '.')
    (hgroup : ¬Group (s.takeWhile Char.isHexDigit)) :
    ipv6Loop left compressed (stored s) = .ok false := by
  obtain ⟨hfirst, hmore, hpass⟩ := ipv6Loop_digits hs hne
  obtain ⟨hno, hcheck⟩ := group_checked hrest hdot
  rw [hrest] at hpass
  rw [ipv6Loop.eq_def, hfirst, hpass]
  change (if _ then _ else _) = _
  rw [if_neg hmore]
  change (char _ >>= _) = _
  rw [char_stored]
  change (if _ then _ else _) = _
  rw [if_neg hno]
  exact if_pos (hcheck.mpr hgroup)

theorem ipv6Loop_zero (hs : '\x00' ∉ s) (hne : s ≠ [])
    (hrest : s.dropWhile Char.isHexDigit = rest) (hdot : rest.head? ≠ some '.')
    (hgroup : Group (s.takeWhile Char.isHexDigit)) :
    ipv6Loop 0 compressed (stored s) = .ok false := by
  obtain ⟨hfirst, hmore, hpass⟩ := ipv6Loop_digits hs hne
  obtain ⟨hno, hcheck⟩ := group_checked hrest hdot
  rw [hrest] at hpass
  rw [ipv6Loop.eq_def, hfirst, hpass]
  change (if _ then _ else _) = _
  rw [if_neg hmore]
  change (char _ >>= _) = _
  rw [char_stored]
  change (if _ then _ else _) = _
  rw [if_neg hno]
  exact if_neg fun h => hcheck.mp h hgroup

/-- What `ipv6_valid` does behind a group, by the text that is left there. -/
def behindGroup (left : Nat) (compressed : Bool) : List Char → Except Checked.Fault Bool
  | [] => .ok (enough compressed (8 - left))
  | c :: [] => if c != ':' then .ok false else .ok false
  | c :: d :: u =>
    if c != ':' then .ok false
    else if d == ':' then
      if compressed then .ok false
      else if u.isEmpty then .ok (enough true (8 - left)) else ipv6Loop left true (stored u)
    else ipv6Loop left compressed (stored (d :: u))

theorem ipv6Loop_taken (hs : '\x00' ∉ s) (hne : s ≠ [])
    (hrest : s.dropWhile Char.isHexDigit = rest) (hdot : rest.head? ≠ some '.')
    (hgroup : Group (s.takeWhile Char.isHexDigit)) :
    ipv6Loop (left + 1) compressed (stored s) = behindGroup left compressed rest := by
  obtain ⟨hfirst, hmore, hpass⟩ := ipv6Loop_digits hs hne
  obtain ⟨hno, hcheck⟩ := group_checked hrest hdot
  have hends : '\x00' ∉ rest := hrest ▸ dropWhile_ends hs
  rw [hrest] at hpass
  rw [ipv6Loop.eq_def, hfirst, hpass]
  change (if _ then _ else _) = _
  rw [if_neg hmore]
  change (char _ >>= _) = _
  rw [char_stored]
  change (if _ then _ else _) = _
  rw [if_neg hno]
  change (if _ then _ else _) = _
  rw [if_neg (fun h => hcheck.mp h hgroup)]
  match rest with
  | [] => rfl
  | c :: [] =>
    have hc : ¬((c :: []).headD '\x00' == '\x00') = true := by
      rw [beq_iff_eq, head_end_iff hends]
      exact List.cons_ne_nil c _
    exact if_neg hc
  | c :: d :: u =>
    have hc : ¬((c :: d :: u).headD '\x00' == '\x00') = true := by
      rw [beq_iff_eq, head_end_iff hends]
      exact List.cons_ne_nil c _
    have hd : ¬(d == '\x00') = true := by
      rw [beq_iff_eq]
      exact char_ne_end (rest_ends hends)
    have hu : (u.headD '\x00' == '\x00') = u.isEmpty := by
      rw [Bool.eq_iff_iff, beq_iff_eq, head_end_iff (rest_ends (rest_ends hends)), List.isEmpty_iff]
    change (if _ then _ else _) = _
    rw [if_neg hc]
    change (if (c != ':') = true then _ else if (d == ':') = true then
      (if compressed = true then _ else char (stored u) >>= _) else _) =
        if (c != ':') = true then _ else _
    rw [char_stored]
    refine if_congr Iff.rfl rfl (if_congr Iff.rfl (if_congr Iff.rfl rfl ?_) (if_neg hd))
    change (if (u.headD '\x00' == '\x00') = true then _ else _) = _
    rw [hu]
    rfl

theorem ipv6Loop_dot_spec (hleft : left ≤ 8) (hs : '\x00' ∉ s) (hne : s ≠ [])
    (hrest : s.dropWhile Char.isHexDigit = '.' :: rest) :
    Decides (ipv6Loop left compressed (stored s)) (Rest left compressed s) := by
  obtain ⟨valid, hv4, hvalid⟩ := ipv4Valid_spec hs
  rw [ipv6Loop_dot hs hne hrest, hv4, rest_dot hleft hrest, ← hvalid]
  exact ⟨_, rfl, Bool.and_eq_true _ _ ▸ Iff.rfl⟩

theorem behindGroup_spec (hleft : left < 8)
    (ih : ∀ {compressed : Bool} {s : List Char}, '\x00' ∉ s → s ≠ [] →
      Decides (ipv6Loop left compressed (stored s)) (Rest left compressed s))
    (hends : '\x00' ∉ rest) (hrest : s.dropWhile Char.isHexDigit = rest)
    (hdot : rest.head? ≠ some '.') (hgroup : Group (s.takeWhile Char.isHexDigit)) :
    Decides (behindGroup left compressed rest) (Rest (left + 1) compressed s) := by
  match rest with
  | [] => exact ⟨_, rfl, (rest_end hleft rfl hrest hgroup).symm⟩
  | c :: [] =>
    have hrefused : behindGroup left compressed (c :: []) = .ok false := ite_self _
    rw [hrefused]
    by_cases hc : c = ':'
    · subst hc
      refine .of_false ?_
      rw [rest_colon rfl hrest hgroup (by simp)]
      exact not_rest_nil
    · exact .of_false (rest_other hrest (fun h => hdot (congrArg some h)) hc)
  | c :: d :: u =>
    by_cases hc : c = ':'
    · subst hc
      by_cases hd : d = ':'
      · subst hd
        rw [rest_colons rfl hrest hgroup]
        cases compressed with
        | true => exact .of_false fun h => Bool.noConfusion h.1
        | false =>
          cases u with
          | nil =>
            refine ⟨enough true (8 - left), rfl, ?_⟩
            simp only [side_nil_iff, exists_eq_right, true_and, enough, if_true, decide_eq_true_eq]
            omega
          | cons e u =>
            refine (ih (rest_ends (rest_ends hends)) (List.cons_ne_nil e u)).congr ?_
            simp only [Rest, if_true, side_cons_iff, true_and]
      · have hother : ¬(d == ':') = true := by rwa [beq_iff_eq]
        rw [rest_colon rfl hrest hgroup (by simpa using hd)]
        change Decides (if (d == ':') = true then _ else _) _
        rw [if_neg hother]
        exact ih (rest_ends hends) (List.cons_ne_nil d u)
    · have hother : (c != ':') = true := bne_iff_ne.mpr hc
      change Decides (if (c != ':') = true then _ else _) _
      rw [if_pos hother]
      exact .of_false (rest_other hrest (fun h => hdot (congrArg some h)) hc)

theorem ipv6Loop_spec (hleft : left ≤ 8) (hs : '\x00' ∉ s) (hne : s ≠ []) :
    Decides (ipv6Loop left compressed (stored s)) (Rest left compressed s) := by
  induction left generalizing compressed s with
  | zero =>
    obtain ⟨rest, hrest⟩ : ∃ rest, s.dropWhile Char.isHexDigit = rest := ⟨_, rfl⟩
    by_cases hdot : rest.head? = some '.'
    · obtain ⟨t, rfl⟩ := List.head?_eq_some_iff.mp hdot
      exact ipv6Loop_dot_spec hleft hs hne hrest
    · by_cases hgroup : Group (s.takeWhile Char.isHexDigit)
      · rw [ipv6Loop_zero hs hne hrest hdot hgroup]
        exact .of_false (rest_zero hrest hdot)
      · rw [ipv6Loop_refused hs hne hrest hdot hgroup]
        exact .of_false (rest_zero hrest hdot)
  | succ left ih =>
    obtain ⟨rest, hrest⟩ : ∃ rest, s.dropWhile Char.isHexDigit = rest := ⟨_, rfl⟩
    by_cases hdot : rest.head? = some '.'
    · obtain ⟨t, rfl⟩ := List.head?_eq_some_iff.mp hdot
      exact ipv6Loop_dot_spec hleft hs hne hrest
    by_cases hgroup : Group (s.takeWhile Char.isHexDigit)
    · rw [ipv6Loop_taken hs hne hrest hdot hgroup]
      exact behindGroup_spec hleft (ih (Nat.le_of_succ_le hleft)) (hrest ▸ dropWhile_ends hs) hrest
        hdot hgroup
    · rw [ipv6Loop_refused hs hne hrest hdot hgroup]
      exact .of_false fun h => hgroup (group_of_rest rfl hrest hdot h)

end Loop

theorem rest_start_iff (hcolon : s.head? ≠ some ':') :
    Rest 8 false s ↔ IPv6 s := by
  simp only [Rest, Bool.false_eq_true, if_false]
  refine or_congr_right ⟨?_, ?_⟩
  · rintro ⟨k, hk, left, right, m, n, rfl, hleft, hright, rfl⟩
    exact ⟨left, right, m, n, rfl, .inr hleft, hright, hk⟩
  · rintro ⟨left, right, m, n, rfl, ⟨rfl, rfl⟩ | hleft, hright, hk⟩
    · exact absurd rfl hcolon
    · exact ⟨m + n, hk, left, right, m, n, rfl, hleft, hright, rfl⟩

theorem groups_head {n : Nat} (h : Groups False n s) :
    ∃ c t, s = c :: t ∧ c.isHexDigit = true := by
  have hgroup : ∀ {g t : List Char}, Group g → ∃ c u, g ++ t = c :: u ∧ c.isHexDigit = true := by
    intro g t hg
    obtain ⟨c, u, rfl⟩ := List.exists_cons_of_ne_nil hg.1
    exact ⟨c, u ++ t, rfl, hg.2.2 c List.mem_cons_self⟩
  cases h with
  | last hg => exact List.append_nil s ▸ hgroup hg
  | embedded hmixed => exact hmixed.elim
  | cons hg _ => exact hgroup hg

theorem ipv6_colon_iff {t : List Char} :
    IPv6 (':' :: t) ↔ ∃ u, t = ':' :: u ∧ ∃ n < 8, Side True n u := by
  constructor
  · rintro (h | ⟨left, right, m, n, heq, ⟨rfl, rfl⟩ | hleft, hright, hk⟩)
    · exact absurd h not_groups_colon
    · exact ⟨right, (List.cons.inj heq).2, n, by omega, hright⟩
    · obtain ⟨c, u, rfl, hc⟩ := groups_head hleft
      rw [← (List.cons.inj heq).1] at hc
      exact absurd hc (by decide)
  · rintro ⟨u, rfl, n, hn, hright⟩
    exact .inr ⟨[], u, 0, n, rfl, .inl ⟨rfl, rfl⟩, hright, by omega⟩

theorem not_ipv6_nil : ¬IPv6 [] := by
  rintro (h | ⟨left, right, m, n, heq, -⟩)
  · exact absurd rfl ((groups_behind rfl rfl (by simp)).mp h).1.1
  · exact absurd heq.symm (List.append_ne_nil_of_right_ne_nil _ (List.cons_ne_nil _ _))

theorem ipv6Valid_spec (hs : '\x00' ∉ s) :
    Decides (ipv6Valid (stored s)) (IPv6 s) := by
  by_cases hcolon : s.head? = some ':'
  · obtain ⟨t, rfl⟩ := List.head?_eq_some_iff.mp hcolon
    rw [ipv6_colon_iff]
    match t with
    | [] =>
      refine .of_false ?_
      rintro ⟨u, heq, -⟩
      cases heq
    | c :: u =>
      by_cases hc : c = ':'
      · subst hc
        rcases u with _ | ⟨d, u⟩
        · exact ⟨true, rfl, fun _ => ⟨[], rfl, 0, by omega, side_nil_iff.mpr rfl⟩, fun _ => rfl⟩
        have hends := rest_ends (rest_ends hs)
        have hd : ¬(d == '\x00') = true := by
          rw [beq_iff_eq]
          exact char_ne_end hends
        change Decides (if (d == '\x00') = true then _ else _) _
        rw [if_neg hd]
        refine (ipv6Loop_spec (Nat.le_refl 8) hends (List.cons_ne_nil d u)).congr ?_
        constructor
        · rintro ⟨n, hn, h⟩
          exact ⟨_, rfl, n, hn, side_cons_iff.mpr h⟩
        · rintro ⟨v, heq, n, hn, h⟩
          rw [← (List.cons.inj heq).2] at h
          exact ⟨n, hn, side_cons_iff.mp h⟩
      · have hother : (c != ':') = true := bne_iff_ne.mpr hc
        change Decides (if (c != ':') = true then _ else _) _
        rw [if_pos hother]
        refine .of_false ?_
        rintro ⟨v, heq, -⟩
        exact hc (List.cons.inj heq).1
  · have hstart : ¬(s.headD '\x00' == ':') = true := by
      rw [beq_iff_eq]
      cases s with
      | nil => decide
      | cons c s => exact fun h => hcolon (congrArg some h)
    unfold ipv6Valid
    rw [char_stored]
    change Decides (if _ then _ else _) _
    rw [if_neg hstart]
    cases s with
    | nil => exact .of_false not_ipv6_nil
    | cons c s =>
      exact (ipv6Loop_spec (Nat.le_refl 8) hs (List.cons_ne_nil c s)).congr (rest_start_iff hcolon)

end Meshpn.Device.VpnProfile
