import Mathlib.Algebra.Group.Nat.Defs
import Mathlib.Data.List.Basic

/-!
Text checks shared by the validators: the anchored regular expressions of the
source written as decidable conditions on the list of characters; and numbers written
in decimal between dots.

Numbers as the library of C reads them from a text: blanks and a sign in front, then as
many digits as there are. What comes behind a number is left for the next reader.
-/

open List

namespace Meshpn.Lib.Text

def isHex (c : Char) : Bool := c.isDigit || ('a' ≤ c && c ≤ 'f')

/-- `/^[a-f0-9]{n}$/`. -/
def hex (n : Nat) (s : String) : Bool := s.toList.length == n && s.toList.all isHex

/-- `/^\d+$/`. -/
def digits (cs : List Char) : Bool := !cs.isEmpty && cs.all Char.isDigit

/-- `/^key:\[\d+\]$/`, the form of a namespace link. -/
def namespaceLink (key s : String) : Bool :=
  let opening := (key ++ ":[").toList
  opening.isPrefixOf s.toList && s.toList.getLast? == some ']' &&
    digits (s.toList.drop opening.length).dropLast

/-- The text cut at every occurrence of the separator. -/
def cut (separator : Char) : List Char → List (List Char)
  | [] => [[]]
  | c :: rest =>
    if c = separator then [] :: cut separator rest
    else
      match cut separator rest with
      | [] => [[c]]
      | first :: others => (c :: first) :: others

def splitOn (separator : Char) (s : String) : List (List Char) := cut separator s.toList

/-- `/^[a-f0-9]{8}(?:-[a-f0-9]{4}){3}-[a-f0-9]{12}$/`. -/
def uuid (s : String) : Bool :=
  let parts := splitOn '-' s
  parts.map List.length == [8, 4, 4, 4, 12] && parts.all (·.all isHex)

/-- `/^(?:[a-f0-9]{2}:){5}[a-f0-9]{2}$/`. -/
def macAddress (s : String) : Bool :=
  let parts := splitOn ':' s
  parts.map List.length == [2, 2, 2, 2, 2, 2] && parts.all (·.all isHex)

/-- `/^\d+:\d+$/`. -/
def numberPair (s : String) : Bool :=
  let parts := splitOn ':' s
  parts.length == 2 && parts.all digits

/-- `/^:\d+\.\d+$/`, a unique bus name. -/
def busOwner (s : String) : Bool :=
  match s.toList with
  | ':' :: rest => let parts := cut '.' rest
                   parts.length == 2 && parts.all digits
  | _ => false

def octet (cs : List Char) : Option Nat :=
  if digits cs && (cs.length == 1 || cs.head? != some '0') && cs.length ≤ 3 then
    let n := cs.foldl (fun n c => 10 * n + (c.toNat - '0'.toNat)) 0
    if n ≤ 255 then some n else none
  else none

/-- The four octets of a dotted address; `none` where `net.isIPv4` is false. -/
def ipv4 (s : String) : Option (List Nat) :=
  let parts := (splitOn '.' s).map octet
  if parts.length == 4 && parts.all Option.isSome then some (parts.filterMap id) else none

def isIPv4 (s : String) : Bool := (ipv4 s).isSome

/-- The address as a number of 32 bits, first octet first. -/
def ipv4Value (s : String) : Nat := ((ipv4 s).getD []).foldl (fun n octet => 256 * n + octet) 0

/-- Two addresses that agree in their first `bits` bits. -/
def sameNetwork (bits a b : Nat) : Bool := a >>> (32 - bits) == b >>> (32 - bits)

/-- `String(n)`. -/
def decimal (n : Nat) : List Char := Nat.toDigits 10 n

theorem decimal_injective {m n : Nat} (h : decimal m = decimal n) : m = n := by
  have hm := @Nat.ofDigitChars_toDigits 10 m (by decide) (by decide)
  have hn := @Nat.ofDigitChars_toDigits 10 n (by decide) (by decide)
  unfold decimal at h
  rw [h, hn] at hm
  exact hm.symm

theorem dot_not_mem_decimal (n : Nat) : '.' ∉ decimal n := by
  intro h
  have hdigit := Nat.isDigit_of_mem_toDigits (by decide) (by decide) h
  exact absurd hdigit (by decide)

theorem append_dot_inj {a b rest other : List Char} (ha : '.' ∉ a) (hb : '.' ∉ b)
    (h : a ++ '.' :: rest = b ++ '.' :: other) : a = b ∧ rest = other := by
  induction a generalizing b with
  | nil =>
    cases b with
    | nil => exact ⟨rfl, by simpa using h⟩
    | cons c b =>
      rw [nil_append, cons_append, List.cons.injEq] at h
      exact absurd (h.1 ▸ mem_cons_self) hb
  | cons c a ih =>
    cases b with
    | nil =>
      rw [nil_append, cons_append, List.cons.injEq] at h
      exact absurd (h.1 ▸ mem_cons_self) ha
    | cons d b =>
      rw [cons_append, cons_append, List.cons.injEq] at h
      obtain ⟨rfl, hrest⟩ := ih (fun hin => ha (mem_cons_of_mem _ hin))
        (fun hin => hb (mem_cons_of_mem _ hin)) h.2
      exact ⟨by rw [h.1], hrest⟩

theorem cut_append_dot {a rest : List Char} (ha : '.' ∉ a) :
    cut '.' (a ++ '.' :: rest) = a :: cut '.' rest := by
  induction a with
  | nil => rfl
  | cons c a ih =>
    have hc : c ≠ '.' := fun h => ha (h ▸ mem_cons_self)
    rw [cons_append, cut, if_neg hc, ih fun hin => ha (mem_cons_of_mem _ hin)]

theorem cut_of_no_dot {a : List Char} (ha : '.' ∉ a) : cut '.' a = [a] := by
  induction a with
  | nil => rfl
  | cons c a ih =>
    have hc : c ≠ '.' := fun h => ha (h ▸ mem_cons_self)
    rw [cut, if_neg hc, ih fun hin => ha (mem_cons_of_mem _ hin)]

theorem cut_intercalate {parts : List (List Char)} (hparts : ∀ part ∈ parts, '.' ∉ part)
    (hne : parts ≠ []) : cut '.' (List.intercalate ['.'] parts) = parts := by
  induction parts with
  | nil => exact absurd rfl hne
  | cons part rest ih =>
    have hpart := hparts part mem_cons_self
    cases rest with
    | nil =>
      rw [intercalate_singleton]
      exact cut_of_no_dot hpart
    | cons next rest =>
      have hrest := ih (fun other hmem => hparts other (mem_cons_of_mem _ hmem))
        (cons_ne_nil next rest)
      rw [intercalate_cons_cons, append_assoc, cons_append, nil_append,
        cut_append_dot hpart, hrest]

theorem cut_eq (separator : Char) (s : List Char) :
    cut separator s = s.takeWhile (· != separator) ::
      match s.dropWhile (· != separator) with
      | [] => []
      | _ :: rest => cut separator rest := by
  induction s with
  | nil => rfl
  | cons c s ih =>
    by_cases hc : c = separator
    · have hno : (c != separator) = false := bne_eq_false_iff_eq.mpr hc
      simp only [cut, if_pos hc, takeWhile_cons, dropWhile_cons, hno,
        Bool.false_eq_true, if_false]
    · have hyes : (c != separator) = true := bne_iff_ne.mpr hc
      simp only [cut, if_neg hc, takeWhile_cons, dropWhile_cons, hyes, if_true, ih]

theorem octet_decimal {n : Nat} (h : n < 256) : octet (decimal n) = some n := by
  have hall : ∀ n : Fin 256, octet (decimal n) = some n.val := by decide +kernel
  exact hall ⟨n, h⟩

end Meshpn.Lib.Text

namespace Meshpn.Lib.Scan

open Meshpn.Lib.Text

/-- `isspace` in the C locale. -/
def isSpace (c : Char) : Bool :=
  c == ' ' || c == '\t' || c == '\n' || c == '\x0b' || c == '\x0c' || c == '\r'

/-- A sign that may be there, true for a minus. -/
def sign : List Char → Bool × List Char
  | '-' :: rest => (true, rest)
  | '+' :: rest => (false, rest)
  | cs => (false, cs)

/-- The value of the digits in front. -/
def leading (cs : List Char) : Nat := Nat.ofDigitChars 10 (cs.takeWhile Char.isDigit) 0

/-- `atoi`, of a number that an `int` can hold. -/
def atoi (cs : List Char) : Int :=
  let (negative, cs) := sign (cs.dropWhile isSpace)
  if negative then -leading cs else leading cs

/-- The conversion `%hhu`: the number modulo 256, and what comes behind it. One that is too
large for `unsigned long` is the largest of these. -/
def scanByte (cs : List Char) : Option (BitVec 8 × List Char) :=
  let (negative, cs) := sign (cs.dropWhile isSpace)
  if (cs.takeWhile Char.isDigit).isEmpty then none
  else
    let n : Int := if 2 ^ 32 ≤ leading cs then 255
      else if negative then -leading cs else leading cs
    some (BitVec.ofInt 8 n, cs.dropWhile Char.isDigit)

/-- `sscanf` with the format `%hhu.%hhu.%hhu.%hhu`, where all four are there. -/
def scanDotted (cs : List Char) : Option (BitVec 8 × BitVec 8 × BitVec 8 × BitVec 8) := do
  let (a, cs) ← scanByte cs
  let cs ← dot cs
  let (b, cs) ← scanByte cs
  let cs ← dot cs
  let (c, cs) ← scanByte cs
  let cs ← dot cs
  let (d, _) ← scanByte cs
  return (a, b, c, d)
where
  /-- A dot that the format asks for. -/
  dot : List Char → Option (List Char)
    | '.' :: rest => some rest
    | _ => none

theorem decimal_digits (n : Nat) : ∀ c ∈ decimal n, c.isDigit = true :=
  fun _ hc => Nat.isDigit_of_mem_toDigits (by decide) (by decide) hc

theorem decimal_ne_nil (n : Nat) : decimal n ≠ [] := Nat.toDigits_ne_nil

/-- What cannot be taken for more of what was read. -/
def Stops (p : Char → Bool) (rest : List Char) : Prop := ∀ c ∈ rest.head?, p c = false

theorem takeWhile_append {p : Char → Bool} {a rest : List Char} (ha : ∀ c ∈ a, p c = true)
    (hrest : Stops p rest) : (a ++ rest).takeWhile p = a := by
  rw [takeWhile_append_of_pos ha]
  cases rest with
  | nil => rw [takeWhile_nil, append_nil]
  | cons c rest =>
    have hc : p c = false := hrest c rfl
    rw [takeWhile_cons_of_neg (by rw [hc]; exact Bool.false_ne_true), append_nil]

theorem dropWhile_append {p : Char → Bool} {a rest : List Char} (ha : ∀ c ∈ a, p c = true)
    (hrest : Stops p rest) : (a ++ rest).dropWhile p = rest := by
  rw [dropWhile_append_of_pos ha]
  cases rest with
  | nil => rfl
  | cons c rest =>
    have hc : p c = false := hrest c rfl
    rw [dropWhile_cons_of_neg (by rw [hc]; exact Bool.false_ne_true)]

theorem leading_decimal {n : Nat} {rest : List Char} (hrest : Stops Char.isDigit rest) :
    leading (decimal n ++ rest) = n := by
  rw [leading, takeWhile_append (decimal_digits n) hrest]
  exact Nat.ofDigitChars_toDigits (by decide) (by decide)

theorem sign_of_digit {c : Char} {rest : List Char} (hc : c.isDigit = true) :
    sign ((c :: rest).dropWhile isSpace) = (false, c :: rest) := by
  have hspace : isSpace c = false := by
    rw [Bool.eq_false_iff]
    intro hspace
    simp only [isSpace, Bool.or_eq_true, beq_iff_eq] at hspace
    rcases hspace with ((((rfl | rfl) | rfl) | rfl) | rfl) | rfl <;> exact absurd hc (by decide)
  rw [dropWhile_cons_of_neg (by rw [hspace]; exact Bool.false_ne_true)]
  unfold sign
  split
  case h_1 heq => rw [(List.cons.inj heq).1] at hc; exact absurd hc (by decide)
  case h_2 heq => rw [(List.cons.inj heq).1] at hc; exact absurd hc (by decide)
  case h_3 => rfl

theorem sign_decimal (n : Nat) (rest : List Char) :
    sign ((decimal n ++ rest).dropWhile isSpace) = (false, decimal n ++ rest) := by
  obtain ⟨c, tail, hn⟩ := exists_cons_of_ne_nil (decimal_ne_nil n)
  have hc : c.isDigit = true := decimal_digits n c (by rw [hn]; exact mem_cons_self)
  rw [hn, cons_append]
  exact sign_of_digit hc

theorem atoi_decimal {n : Nat} {rest : List Char} (hrest : Stops Char.isDigit rest) :
    atoi (decimal n ++ rest) = n := by
  unfold atoi
  rw [sign_decimal]
  exact congrArg Int.ofNat (leading_decimal hrest)

theorem scanByte_decimal (a : BitVec 8) {rest : List Char} (hrest : Stops Char.isDigit rest) :
    scanByte (decimal a.toNat ++ rest) = some (a, rest) := by
  have hsmall : ¬2 ^ 32 ≤ a.toNat := by
    have := a.isLt
    omega
  have hsome : (decimal a.toNat).isEmpty = false :=
    isEmpty_eq_false_iff.mpr (decimal_ne_nil _)
  have hback : BitVec.ofInt 8 (a.toNat : Int) = a := by
    rw [BitVec.ofInt_natCast, BitVec.ofNat_toNat, BitVec.setWidth_eq]
  unfold scanByte
  rw [sign_decimal]
  dsimp only
  rw [takeWhile_append (decimal_digits _) hrest, hsome, leading_decimal hrest,
    dropWhile_append (decimal_digits _) hrest,
    if_neg hsmall, if_neg Bool.false_ne_true, if_neg Bool.false_ne_true, hback]

theorem scanDotted_decimal (a b c d : BitVec 8) {rest : List Char} (hrest : Stops Char.isDigit rest) :
    scanDotted (decimal a.toNat ++ '.' :: (decimal b.toNat ++ '.' :: (decimal c.toNat ++
      '.' :: (decimal d.toNat ++ rest)))) = some (a, b, c, d) := by
  have hdot : ∀ rest, Stops Char.isDigit ('.' :: rest) := by
    rintro rest c ⟨⟩
    rfl
  unfold scanDotted
  simp only [scanByte_decimal _ (hdot _), scanByte_decimal _ hrest, scanDotted.dot,
    Option.bind_eq_bind, Option.bind_some, Option.pure_def]

end Meshpn.Lib.Scan
