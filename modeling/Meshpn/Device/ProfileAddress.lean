import Mathlib.Data.List.Forall2
import Mathlib.Data.List.TakeWhile
import Meshpn.Device.VpnProfile

/-!
The address of a profile: the lists that are accepted, and that the parser accepts
exactly these, with the one address of version 4 in them.
-/

namespace Meshpn.Device.VpnProfile

open Meshpn.Lib Meshpn.Lib.AddressText Meshpn.Lib.Checked Meshpn.Lib.CString Meshpn.Lib.Scan
open Meshpn.Lib.Text

/-- What may follow an address: nothing, or a slash and a number within the bound. -/
def Suffix (bound : Nat) (s : List Char) : Prop :=
  s = [] ∨ ∃ digits, s = '/' :: digits ∧ digits ≠ [] ∧ digits.length ≤ 3 ∧
    (∀ c ∈ digits, c.isDigit = true) ∧ value digits ≤ bound

/-- An item of a list, and its address where that is one of version 4. -/
inductive Item : List Char → Option (List Char) → Prop where
  | v4 {host suffix : List Char} : IPv4 host → Suffix 32 suffix → Item (host ++ suffix) (some host)
  | v6 {host suffix : List Char} : IPv6 host → Suffix 128 suffix → Item (host ++ suffix) none

def trim (s : List Char) : List Char := ((s.dropWhile space).reverse.dropWhile space).reverse

def Listed (item : List Char) (kind : Option (List Char)) : Prop := item.length < 64 ∧ Item item kind

def Accepts (text ip : List Char) : Prop :=
  text.length < 160 ∧ ∃ kinds, List.Forall₂ Listed ((cut ',' text).map trim) kinds ∧
    kinds.filterMap id = [ip]

variable {s : List Char} {item : List Char}

theorem Dotted.chars {n : Nat} (h : Dotted n s) :
    ∀ c ∈ s, c.isDigit = true ∨ c = '.' := by
  induction h with
  | last hoctet => exact fun c hc => .inl (hoctet.digits c hc)
  | cons hoctet _ ih =>
    intro c hc
    rcases List.mem_append.mp hc with hc | hc
    · exact .inl (hoctet.digits c hc)
    · exact (List.mem_cons.mp hc).elim .inr (ih c)

theorem Groups.chars {mixed : Prop} {n : Nat} (h : Groups mixed n s) :
    ∀ c ∈ s, c.isHexDigit = true ∨ c = '.' ∨ c = ':' := by
  induction h with
  | last hgroup => exact fun c hc => .inl (hgroup.2.2 c hc)
  | embedded _ hv4 =>
    exact fun c hc => (Dotted.chars hv4 c hc).imp isHexDigit_of_isDigit .inl
  | cons hgroup _ ih =>
    intro c hc
    rcases List.mem_append.mp hc with hc | hc
    · exact .inl (hgroup.2.2 c hc)
    · exact (List.mem_cons.mp hc).elim (fun h => .inr (.inr h)) (ih c)

theorem Side.chars {mixed : Prop} {n : Nat} (h : Side mixed n s) :
    ∀ c ∈ s, c.isHexDigit = true ∨ c = '.' ∨ c = ':' := by
  rcases h with ⟨-, rfl⟩ | h
  · exact fun c hc => absurd hc List.not_mem_nil
  · exact Groups.chars h

theorem ipv6_chars (h : IPv6 s) :
    ∀ c ∈ s, c.isHexDigit = true ∨ c = '.' ∨ c = ':' := by
  rcases h with h | ⟨left, right, m, n, rfl, hleft, hright, -⟩
  · exact Groups.chars h
  intro c hc
  rcases List.mem_append.mp hc with hc | hc
  · exact Side.chars hleft c hc
  rcases List.mem_cons.mp hc with rfl | hc
  · exact .inr (.inr rfl)
  · exact (List.mem_cons.mp hc).elim (fun h => .inr (.inr h)) (Side.chars hright c)

theorem ipv4_no_slash (h : IPv4 s) : '/' ∉ s :=
  fun hmem => (Dotted.chars h _ hmem).elim (by decide) (by decide)

theorem ipv4_no_colon (h : IPv4 s) : ':' ∉ s :=
  fun hmem => (Dotted.chars h _ hmem).elim (by decide) (by decide)

theorem ipv6_no_slash (h : IPv6 s) : '/' ∉ s :=
  fun hmem => (ipv6_chars h _ hmem).elim (by decide) fun h => h.elim (by decide) (by decide)

theorem ipv6_colon (h : IPv6 s) : ':' ∈ s := by
  rcases h with h | ⟨left, right, m, n, rfl, -⟩
  · cases h with
    | cons _ _ => exact List.mem_append_right _ List.mem_cons_self
  · exact List.mem_append_right _ List.mem_cons_self

theorem ipv4_ne_nil (h : IPv4 s) : s ≠ [] := by
  rintro rfl
  obtain ⟨rest, hrest⟩ := h.start
  cases hrest

theorem Suffix.stops {bound : Nat} (h : Suffix bound s) : Stops (· != '/') s := by
  rcases h with rfl | ⟨digits, rfl, -⟩
  · exact stops_nil _
  · exact stops_cons (by decide)

theorem Suffix.no_colon {bound : Nat} (h : Suffix bound s) : ':' ∉ s := by
  rcases h with rfl | ⟨digits, rfl, -, -, hdigits, -⟩
  · exact List.not_mem_nil
  intro hmem
  rcases List.mem_cons.mp hmem with h | h
  · exact absurd h (by decide)
  · exact absurd (hdigits _ h) (by decide)

theorem host_split {host suffix : List Char} {bound : Nat} (hhost : '/' ∉ host)
    (hsuffix : Suffix bound suffix) :
    (host ++ suffix).takeWhile (· != '/') = host ∧ (host ++ suffix).dropWhile (· != '/') = suffix := by
  have hall : ∀ c ∈ host, (c != '/') = true := fun c hc => bne_iff_ne.mpr fun h => hhost (h ▸ hc)
  exact ⟨takeWhile_append hall hsuffix.stops, dropWhile_append hall hsuffix.stops⟩

theorem item_some_iff {item host : List Char} :
    Item item (some host) ↔ ':' ∉ item ∧ host = item.takeWhile (· != '/') ∧ IPv4 host ∧
      Suffix 32 (item.dropWhile (· != '/')) := by
  constructor
  · intro h
    cases h with
    | @v4 _ suffix hv4 hsuffix =>
      obtain ⟨htake, hdrop⟩ := host_split (ipv4_no_slash hv4) hsuffix
      rw [htake, hdrop]
      refine ⟨fun hmem => ?_, rfl, hv4, hsuffix⟩
      exact (List.mem_append.mp hmem).elim (ipv4_no_colon hv4) hsuffix.no_colon
  · rintro ⟨-, rfl, hv4, hsuffix⟩
    have h := Item.v4 hv4 hsuffix
    rwa [List.takeWhile_append_dropWhile] at h

theorem item_none_iff :
    Item item none ↔ ':' ∈ item ∧ IPv6 (item.takeWhile (· != '/')) ∧
      Suffix 128 (item.dropWhile (· != '/')) := by
  constructor
  · intro h
    cases h with
    | @v6 host suffix hv6 hsuffix =>
      obtain ⟨htake, hdrop⟩ := host_split (ipv6_no_slash hv6) hsuffix
      rw [htake, hdrop]
      exact ⟨List.mem_append_left _ (ipv6_colon hv6), hv6, hsuffix⟩
  · rintro ⟨-, hv6, hsuffix⟩
    have h := Item.v6 hv6 hsuffix
    rwa [List.takeWhile_append_dropWhile] at h

theorem prefixLoop_spec {bound n digits : Nat} (hdigits : digits ≤ 3)
    (hs : '\x00' ∉ s) :
    Decides (prefixLoop bound n digits (stored s))
      (digits + s.length ≠ 0 ∧ digits + s.length ≤ 3 ∧ (∀ c ∈ s, c.isDigit = true) ∧
        Nat.ofDigitChars 10 s n ≤ bound) := by
  induction s generalizing n digits with
  | nil =>
    refine ⟨!(digits == 0 || n > bound), ?_, ?_⟩
    · change prefixLoop bound n digits ['\x00'] = _
      rw [prefixLoop, if_neg (by decide)]
      simp
    · simp [hdigits]
  | cons c s ih =>
    change Decides (prefixLoop bound n digits (c :: stored s)) _
    rw [prefixLoop]
    cases hc : c.isDigit with
    | false =>
      rw [if_neg Bool.false_ne_true]
      have hend : (c != '\x00') = true := bne_iff_ne.mpr (char_ne_end hs)
      rw [hend, Bool.or_true, Bool.true_or]
      refine .of_false fun h => ?_
      rw [h.2.2.1 c List.mem_cons_self] at hc
      cases hc
    | true =>
      rw [if_pos rfl]
      by_cases hmore : digits + 1 > 3
      · rw [if_pos hmore]
        refine .of_false fun h => ?_
        have := h.2.1
        rw [List.length_cons] at this
        omega
      · rw [if_neg hmore]
        refine (ih (by omega) (rest_ends hs)).congr ?_
        rw [List.length_cons, Nat.ofDigitChars_cons, Nat.mul_comm 10 n, List.forall_mem_cons,
          and_iff_right hc]
        have hsum : digits + 1 + s.length = digits + (s.length + 1) := by omega
        rw [hsum]

theorem tooLong_spec (room : Nat) (hs : '\x00' ∉ s) :
    Decides (tooLong room (stored s)) (room ≤ s.length) := by
  induction room generalizing s with
  | zero => exact ⟨true, rfl, fun _ => Nat.zero_le _, fun _ => rfl⟩
  | succ room ih =>
    rcases s with _ | ⟨c, s⟩
    · exact .of_false (Nat.not_succ_le_zero room)
    have hc : ¬(c == '\x00') = true := by
      rw [beq_iff_eq]
      exact char_ne_end hs
    change Decides (if (c == '\x00') = true then _ else _) _
    rw [if_neg hc]
    exact (ih (rest_ends hs)).congr Nat.succ_le_succ_iff.symm

def suffixValid (bound : Nat) (item : List Char) : Except Checked.Fault Bool :=
  if item.contains '/' then prefixLoop bound 0 0 ((stored item).dropWhile (· != '/')).tail
  else pure true

theorem suffixValid_spec (bound : Nat) (hs : '\x00' ∉ item) :
    Decides (suffixValid bound item) (Suffix bound (item.dropWhile (· != '/'))) := by
  unfold suffixValid
  cases hdrop : item.dropWhile (· != '/') with
  | nil =>
    have hno : item.contains '/' = false := by
      rw [List.contains_eq_mem, decide_eq_false_iff_not]
      intro hmem
      exact absurd (List.dropWhile_eq_nil_iff.mp hdrop _ hmem) (by decide)
    rw [hno, if_neg Bool.false_ne_true]
    exact ⟨true, rfl, fun _ => .inl rfl, fun _ => rfl⟩
  | cons c digits =>
    have hc : c = '/' := by
      have hhead := List.head?_dropWhile_not (· != '/') item
      rw [hdrop] at hhead
      simpa using hhead
    subst hc
    have hmem : '/' ∈ item := (List.dropWhile_suffix _).subset (hdrop ▸ List.mem_cons_self)
    have hyes : item.contains '/' = true := by rw [List.contains_eq_mem, decide_eq_true hmem]
    have htail : ((stored item).dropWhile (· != '/')).tail = stored digits := by
      rw [stored, List.dropWhile_append, hdrop]
      rfl
    have hends : '\x00' ∉ digits := rest_ends (hdrop ▸ dropWhile_ends hs)
    rw [hyes, if_pos rfl, htail]
    refine (prefixLoop_spec (Nat.zero_le 3) hends).congr ?_
    rw [Nat.zero_add, ne_eq, List.length_eq_zero_iff]
    constructor
    · rintro ⟨hne, hlength, hdigits, hvalue⟩
      exact .inr ⟨digits, rfl, hne, hlength, hdigits, hvalue⟩
    · rintro (h | ⟨_, heq, hne, hlength, hdigits, hvalue⟩)
      · cases h
      · rw [(List.cons.inj heq).2]
        exact ⟨hne, hlength, hdigits, hvalue⟩

section ItemStep

variable (selected : List Char) {item host : List Char}

theorem itemStep_long (h : ¬(item.length ≠ 0 ∧ item.length < 64)) :
    itemStep selected item = .ok none := by
  have hrefused : (item.length == 0 || decide (item.length ≥ 64)) = true := by
    rw [Bool.or_eq_true, beq_iff_eq, decide_eq_true_eq]
    omega
  exact if_pos hrefused

theorem itemStep_short (hne : item.length ≠ 0) (hshort : item.length < 64) :
    itemStep selected item = do
      let v6 := item.contains ':'
      let host := stored (item.takeWhile (· != '/'))
      let valid ← suffixValid (if v6 then 128 else 32) item
      if !valid then return none
      else if v6 then
        if !(← ipv6Valid host) then return none else return some selected
      else if !selected.isEmpty then return none
      else if !(← ipv4Valid host) then return none
      else return some ((← copy 16 host).dropLast) := by
  have hfits : ¬(item.length == 0 || decide (item.length ≥ 64)) = true := by
    rw [Bool.or_eq_true, beq_iff_eq, decide_eq_true_eq]
    omega
  have hcopy : copy 64 (stored item) = .ok (stored item) := by
    refine copy_ok ?_
    rw [stored, List.length_append]
    exact hshort
  rw [itemStep, if_neg hfits, hcopy]
  unfold suffixValid
  cases item.contains '/' <;> rfl

theorem itemStep_colon (hs : '\x00' ∉ item) (hcolon : ':' ∈ item) :
    (Listed item none → itemStep selected item = .ok (some selected)) ∧
      (¬Listed item none → itemStep selected item = .ok none) := by
  by_cases hlength : item.length ≠ 0 ∧ item.length < 64
  · have hyes : item.contains ':' = true := by rw [List.contains_eq_mem, decide_eq_true hcolon]
    obtain ⟨valid, hvalid, hsuffix⟩ := suffixValid_spec 128 hs
    obtain ⟨v6, hv6, hipv6⟩ := ipv6Valid_spec (s := item.takeWhile (· != '/'))
      fun hmem => hs ((List.takeWhile_prefix _).subset hmem)
    have hstep : itemStep selected item =
        .ok (if valid = true ∧ v6 = true then some selected else none) := by
      rw [itemStep_short selected hlength.1 hlength.2, hyes]
      dsimp only
      rw [if_pos rfl, hvalid, hv6]
      cases valid <;> cases v6 <;> rfl
    rw [Listed, item_none_iff, ← hsuffix, ← hipv6, hstep]
    constructor
    · rintro ⟨-, -, h6, hv⟩
      rw [if_pos ⟨hv, h6⟩]
    · intro h
      rw [if_neg fun hboth => h ⟨hlength.2, hcolon, hboth.2, hboth.1⟩]
  · refine ⟨?_, fun _ => itemStep_long selected hlength⟩
    rintro ⟨hshort, -⟩
    refine absurd ⟨fun hzero => ?_, hshort⟩ hlength
    rw [List.length_eq_zero_iff.mp hzero] at hcolon
    cases hcolon

theorem itemStep_plain (hs : '\x00' ∉ item) (hcolon : ':' ∉ item) :
    (∀ host, Listed item (some host) →
      itemStep selected item = .ok (if selected.isEmpty then some host else none)) ∧
      ((∀ host, ¬Listed item (some host)) → itemStep selected item = .ok none) := by
  by_cases hlength : item.length ≠ 0 ∧ item.length < 64
  · have hno : item.contains ':' = false := by
      rw [List.contains_eq_mem, decide_eq_false_iff_not]
      exact hcolon
    obtain ⟨valid, hvalid, hsuffix⟩ := suffixValid_spec 32 hs
    obtain ⟨v4, hv4, hipv4⟩ := ipv4Valid_spec (s := item.takeWhile (· != '/'))
      fun hmem => hs ((List.takeWhile_prefix _).subset hmem)
    have hstep : itemStep selected item =
        .ok (if valid = true ∧ selected.isEmpty = true ∧ v4 = true then
          some (item.takeWhile (· != '/')) else none) := by
      rw [itemStep_short selected hlength.1 hlength.2, hno]
      dsimp only
      rw [if_neg Bool.false_ne_true, hvalid, hv4]
      cases hv : valid
      · rfl
      · cases hempty : selected.isEmpty
        · rfl
        · cases h4 : v4
          · rfl
          · have hcopy : copy 16 (stored (item.takeWhile (· != '/'))) =
                .ok (stored (item.takeWhile (· != '/'))) := by
              refine copy_ok ?_
              have := (hipv4.mp h4).length_le
              rw [stored, List.length_append]
              exact Nat.succ_le_succ this
            change (copy 16 _ >>= _) = _
            rw [hcopy]
            change Except.ok (some (stored _).dropLast) = _
            rw [stored, List.dropLast_concat]
            rfl
    constructor
    · rintro host ⟨-, hitem⟩
      obtain ⟨-, rfl, h4, hv⟩ := item_some_iff.mp hitem
      rw [hstep, hsuffix.mpr hv, hipv4.mpr h4]
      simp
    · intro h
      rw [hstep, if_neg]
      rintro ⟨hv, -, h4⟩
      exact h _ ⟨hlength.2, item_some_iff.mpr ⟨hcolon, rfl, hipv4.mp h4, hsuffix.mp hv⟩⟩
  · refine ⟨?_, fun _ => itemStep_long selected hlength⟩
    rintro host ⟨hshort, hitem⟩
    refine absurd ⟨fun hzero => ?_, hshort⟩ hlength
    obtain ⟨-, rfl, h4, -⟩ := item_some_iff.mp hitem
    rw [List.length_eq_zero_iff.mp hzero] at h4
    exact ipv4_ne_nil h4 rfl

end ItemStep

def one (s : List Char) : List (List Char) := if s.isEmpty then [] else [s]

/-- The items leave this selected, where something may have been selected before. -/
def Selects (selected : List Char) (items : List (List Char)) (result : List Char) : Prop :=
  ∃ kinds, List.Forall₂ Listed items kinds ∧ one selected ++ kinds.filterMap id = one result

theorem one_of_ne_nil (h : s ≠ []) : one s = [s] :=
  if_neg fun hempty => h (List.isEmpty_iff.mp hempty)

theorem selects_nil_iff {selected result : List Char} :
    Selects selected [] result ↔ one selected = one result := by
  constructor
  · rintro ⟨kinds, hkinds, h⟩
    cases hkinds
    simpa using h
  · intro h
    exact ⟨[], .nil, by simpa using h⟩

theorem selects_cons_iff {selected result item : List Char} {items : List (List Char)} :
    Selects selected (item :: items) result ↔ ∃ kind, Listed item kind ∧ ∃ kinds,
      List.Forall₂ Listed items kinds ∧
        one selected ++ (kind.toList ++ kinds.filterMap id) = one result := by
  have hshape : ∀ (kind : Option (List Char)) (kinds : List (Option (List Char))),
      (kind :: kinds).filterMap id = kind.toList ++ kinds.filterMap id := by
    intro kind kinds
    cases kind <;> rfl
  constructor
  · rintro ⟨_, hkinds, h⟩
    cases hkinds with
    | @cons _ kind _ kinds hkind hkinds => exact ⟨kind, hkind, kinds, hkinds, hshape kind kinds ▸ h⟩
  · rintro ⟨kind, hkind, kinds, hkinds, h⟩
    exact ⟨kind :: kinds, .cons hkind hkinds, (hshape kind kinds).symm ▸ h⟩

/-- One item: it is refused where no selection comes of it, else the rest goes on from what is
selected behind it. -/
theorem itemStep_spec (selected : List Char) (hs : '\x00' ∉ item) :
    ∃ next, itemStep selected item = .ok next ∧ ∀ items result,
      Selects selected (item :: items) result ↔ ∃ s, next = some s ∧ Selects s items result := by
  have hrefused : (∀ kind, ¬Listed item kind) → ∀ items result,
      Selects selected (item :: items) result ↔ ∃ s, none = some s ∧ Selects s items result := by
    intro hnone items result
    rw [selects_cons_iff]
    exact ⟨fun ⟨kind, hkind, _⟩ => absurd hkind (hnone kind), fun ⟨s, h, _⟩ => by cases h⟩
  by_cases hcolon : ':' ∈ item
  · have hsome : ∀ host, ¬Listed item (some host) :=
      fun host h => (item_some_iff.mp h.2).1 hcolon
    obtain ⟨htaken, hnot⟩ := itemStep_colon selected hs hcolon
    by_cases hlisted : Listed item none
    · refine ⟨_, htaken hlisted, fun items result => ?_⟩
      rw [selects_cons_iff]
      constructor
      · rintro ⟨kind, hkind, kinds, hkinds, h⟩
        cases kind with
        | none => exact ⟨selected, rfl, kinds, hkinds, h⟩
        | some host => exact absurd hkind (hsome host)
      · rintro ⟨s, hs, kinds, hkinds, h⟩
        cases hs
        exact ⟨none, hlisted, kinds, hkinds, h⟩
    · refine ⟨_, hnot hlisted, hrefused fun kind => ?_⟩
      cases kind with
      | none => exact hlisted
      | some host => exact hsome host
  · have hno : ¬Listed item none := fun h => hcolon (item_none_iff.mp h.2).1
    obtain ⟨htaken, hnot⟩ := itemStep_plain selected hs hcolon
    by_cases hlisted : ∃ host, Listed item (some host)
    · obtain ⟨host, hhost⟩ := hlisted
      refine ⟨_, htaken host hhost, fun items result => ?_⟩
      have hne : host ≠ [] := by
        have h := item_some_iff.mp hhost.2
        exact ipv4_ne_nil h.2.2.1
      have honly : ∀ kind, Listed item kind → kind = some host := by
        intro kind hkind
        cases kind with
        | none => exact absurd hkind hno
        | some other =>
          rw [(item_some_iff.mp hkind.2).2.1, (item_some_iff.mp hhost.2).2.1]
      rw [selects_cons_iff]
      cases selected with
      | nil =>
        rw [if_pos List.isEmpty_nil]
        constructor
        · rintro ⟨kind, hkind, kinds, hkinds, h⟩
          rw [honly kind hkind] at h
          exact ⟨host, rfl, kinds, hkinds, by rw [one_of_ne_nil hne]; exact h⟩
        · rintro ⟨s, hs, kinds, hkinds, h⟩
          cases hs
          rw [one_of_ne_nil hne] at h
          exact ⟨some host, hhost, kinds, hkinds, h⟩
      | cons c selected =>
        rw [if_neg (by rw [List.isEmpty_cons]; exact Bool.false_ne_true)]
        constructor
        · rintro ⟨kind, hkind, kinds, -, h⟩
          rw [honly kind hkind] at h
          have hlength := congrArg List.length h
          simp only [one, List.isEmpty_cons, Bool.false_eq_true, if_false, Option.toList,
            List.length_append, List.length_cons, List.length_nil] at hlength
          split at hlength <;> simp at hlength
        · rintro ⟨s, hs, -⟩
          cases hs
    · refine ⟨_, hnot fun host h => hlisted ⟨host, h⟩, hrefused fun kind => ?_⟩
      cases kind with
      | none => exact hno
      | some host => exact fun h => hlisted ⟨host, h⟩

theorem takeWhile_blanks (s : List Char) :
    (s.dropWhile space).takeWhile (· != ',') = (s.takeWhile (· != ',')).dropWhile space ∧
      (s.dropWhile space).dropWhile (· != ',') = s.dropWhile (· != ',') := by
  induction s with
  | nil => exact ⟨rfl, rfl⟩
  | cons c s ih =>
    cases hc : space c with
    | true =>
      have hcomma : (c != ',') = true := by
        rw [bne_iff_ne]
        rintro rfl
        exact absurd hc (by decide)
      simp only [List.takeWhile_cons, List.dropWhile_cons, hc, hcomma, if_true]
      exact ih
    | false =>
      cases hcomma : c != ',' <;>
        simp only [List.takeWhile_cons, List.dropWhile_cons, hc, hcomma, if_true,
          Bool.false_eq_true, if_false, List.dropWhile_nil, and_self]

theorem passWhile_item (hs : '\x00' ∉ s) :
    passWhile (fun c => c != '\x00' && c != ',') (stored s) =
      .ok (s.takeWhile (· != ','), stored (s.dropWhile (· != ','))) := by
  have hsame : s.takeWhile (fun c => c != '\x00' && c != ',') = s.takeWhile (· != ',') ∧
      s.dropWhile (fun c => c != '\x00' && c != ',') = s.dropWhile (· != ',') := by
    induction s with
    | nil => exact ⟨rfl, rfl⟩
    | cons c s ih =>
      obtain ⟨htake, hdrop⟩ := ih (rest_ends hs)
      have hc : (c != '\x00') = true := bne_iff_ne.mpr (char_ne_end hs)
      simp only [List.takeWhile_cons, List.dropWhile_cons, hc, Bool.true_and, htake, hdrop, and_self]
  rw [passWhile_stored (by decide), hsame.1, hsame.2]

theorem trim_ends (hs : '\x00' ∉ s) : '\x00' ∉ trim s := by
  intro hmem
  have hback := List.mem_reverse.mp hmem
  have hfront := List.mem_reverse.mp ((List.dropWhile_suffix _).subset hback)
  exact hs ((List.dropWhile_suffix _).subset hfront)

theorem addressLoop_turn (selected : List Char) (turns : Nat) (hs : '\x00' ∉ s) :
    addressLoop selected (turns + 1) (stored s) = (do
      match ← itemStep selected (trim (s.takeWhile (· != ','))) with
      | none => return none
      | some selected =>
        match s.dropWhile (· != ',') with
        | [] => return some selected
        | _ :: rest => addressLoop selected turns (stored rest)) := by
  obtain ⟨htake, hdrop⟩ := takeWhile_blanks s
  rw [addressLoop, passWhile_stored (by decide)]
  change (passWhile _ _ >>= _) = _
  rw [passWhile_item (dropWhile_ends hs), htake, hdrop]
  change (itemStep selected (trim (s.takeWhile (· != ','))) >>= _) = _
  congr 1
  funext next
  rcases next with _ | next
  · rfl
  have hends := @dropWhile_ends (· != ',') s hs
  rcases hrest : s.dropWhile (· != ',') with _ | ⟨c, rest⟩
  · rfl
  rw [hrest] at hends
  have hc : ¬(c == '\x00') = true := by
    rw [beq_iff_eq]
    exact char_ne_end hends
  exact if_neg hc

theorem addressLoop_spec {turns : Nat} (hturns : s.length < turns) (hs : '\x00' ∉ s)
    (selected : List Char) :
    ∃ last, addressLoop selected turns (stored s) = .ok last ∧ ∀ result,
      Selects selected ((cut ',' s).map trim) result ↔ ∃ s, last = some s ∧ one s = one result := by
  induction turns generalizing s selected with
  | zero => exact absurd hturns (Nat.not_lt_zero _)
  | succ turns ih =>
    have hitem : '\x00' ∉ trim (s.takeWhile (· != ',')) :=
      trim_ends fun hmem => hs ((List.takeWhile_prefix _).subset hmem)
    obtain ⟨next, hnext, hselects⟩ := itemStep_spec selected hitem
    rw [addressLoop_turn selected turns hs, hnext, cut_eq]
    cases next with
    | none =>
      refine ⟨none, rfl, fun result => ?_⟩
      rw [List.map_cons, hselects]
      constructor
      · rintro ⟨_, h, -⟩
        cases h
      · rintro ⟨_, h, -⟩
        cases h
    | some next =>
      have hsplit : ∀ items result, Selects selected (trim (s.takeWhile (· != ',')) :: items) result ↔
          Selects next items result := by
        intro items result
        rw [hselects]
        constructor
        · rintro ⟨_, h, hs⟩
          cases h
          exact hs
        · exact fun h => ⟨next, rfl, h⟩
      have hends := @dropWhile_ends (· != ',') s hs
      have hlength := (List.dropWhile_suffix (l := s) (· != ',')).length_le
      cases hrest : s.dropWhile (· != ',') with
      | nil =>
        refine ⟨some next, rfl, fun result => ?_⟩
        rw [List.map_cons, hsplit]
        refine selects_nil_iff.trans ⟨fun h => ⟨next, rfl, h⟩, ?_⟩
        rintro ⟨_, h, hs⟩
        cases h
        exact hs
      | cons c rest =>
        rw [hrest] at hends hlength
        rw [List.length_cons] at hlength
        obtain ⟨last, hlast, hiff⟩ := ih (by omega) (rest_ends hends) next
        refine ⟨last, hlast, fun result => ?_⟩
        rw [List.map_cons, hsplit]
        exact hiff result

theorem one_injective {a b : List Char} (h : one a = one b) : a = b := by
  cases a <;> cases b
  case nil.nil => rfl
  case cons.cons => exact (List.cons.inj h).1
  case nil.cons => cases h
  case cons.nil => cases h

theorem kinds_ipv4 {items : List (List Char)} {kinds : List (Option (List Char))}
    (h : List.Forall₂ Listed items kinds) : ∀ ip ∈ kinds.filterMap id, IPv4 ip := by
  induction h with
  | nil => exact fun ip hmem => absurd hmem List.not_mem_nil
  | @cons item kind items kinds hkind _ ih =>
    intro ip hmem
    rcases kind with _ | host
    · exact ih ip hmem
    rcases List.mem_cons.mp hmem with rfl | hmem
    · exact (item_some_iff.mp hkind.2).2.2.1
    · exact ih ip hmem

theorem Accepts.ipv4 {text ip : List Char} (h : Accepts text ip) : IPv4 ip := by
  obtain ⟨-, kinds, hkinds, hone⟩ := h
  exact kinds_ipv4 hkinds ip (hone ▸ List.mem_cons_self)

theorem accepts_iff {text ip : List Char} :
    Accepts text ip ↔ text.length < 160 ∧ ip ≠ [] ∧ Selects [] ((cut ',' text).map trim) ip := by
  constructor
  · intro h
    have hne := ipv4_ne_nil h.ipv4
    obtain ⟨hshort, kinds, hkinds, hone⟩ := h
    exact ⟨hshort, hne, kinds, hkinds, hone.trans (one_of_ne_nil hne).symm⟩
  · rintro ⟨hshort, hne, kinds, hkinds, h⟩
    exact ⟨hshort, kinds, hkinds, h.trans (one_of_ne_nil hne)⟩

def outcome (out : List Char) : Option (List Char) → Bool × List Char
  | none => (false, out)
  | some selected =>
    if selected.isEmpty then (false, out)
    else (true, selected ++ List.replicate (16 - selected.length) '\x00')

/-- The parser accepts exactly these lists, and then it returns the address of version 4; else the
array is left as it was. -/
theorem profile_address_exact (value : CString) (out : List Char) :
    (∀ ip, Accepts value.text ip → ip.length < 16 ∧
      vpnProfileAddress (stored value.text) out =
        .ok (true, ip ++ List.replicate (16 - ip.length) '\x00')) ∧
    ((¬∃ ip, Accepts value.text ip) →
      vpnProfileAddress (stored value.text) out = .ok (false, out)) := by
  obtain ⟨text, hends⟩ := value
  obtain ⟨long, hlong, hlength⟩ := tooLong_spec 160 hends
  have hturns : text.length < (stored text).length := by
    rw [stored, List.length_append]
    exact Nat.lt_succ_self _
  obtain ⟨last, hlast, hselects⟩ := addressLoop_spec hturns hends []
  have hrun : vpnProfileAddress (stored text) out =
      .ok (if long then (false, out) else outcome out last) := by
    unfold vpnProfileAddress
    rw [hlong, hlast]
    cases long with
    | true => rfl
    | false =>
      cases last with
      | none => rfl
      | some selected => cases selected <;> rfl
  rw [hrun]
  constructor
  · intro ip hip
    have hv4 := hip.ipv4.length_le
    obtain ⟨hshort, hne, hsel⟩ := accepts_iff.mp hip
    have hroom : ¬long = true := fun h => absurd hshort (Nat.not_lt.mpr (hlength.mp h))
    obtain ⟨selected, rfl, hone⟩ := (hselects ip).mp hsel
    obtain rfl := one_injective hone
    refine ⟨by omega, ?_⟩
    rw [if_neg hroom, outcome, if_neg fun hempty => hne (List.isEmpty_iff.mp hempty)]
  · intro hnone
    cases hroom : long with
    | true => rfl
    | false =>
      have hshort : text.length < 160 := by
        rw [← Nat.not_le, ← hlength, hroom]
        exact Bool.false_ne_true
      cases last with
      | none => rfl
      | some selected =>
        cases selected with
        | nil => rfl
        | cons c selected =>
          have hsel := (hselects (c :: selected)).mpr ⟨_, rfl, rfl⟩
          exact absurd ⟨_, accepts_iff.mpr ⟨hshort, List.cons_ne_nil _ _, hsel⟩⟩ hnone

end Meshpn.Device.VpnProfile
