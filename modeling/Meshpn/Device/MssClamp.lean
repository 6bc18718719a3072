import Meshpn.Device.Frame
import Meshpn.Lib.Checked
import Meshpn.Lib.InternetChecksum

/-!
The functions of the device that look at a packet, with every access to it checked,
and what a packet that they take for a valid one is known to have.

The segment size of a SYN that goes through the tunnel, clamped in place and with every
access checked. The checksum is not computed again but adjusted by the difference of
the old and the new size, so that a segment that was right stays right, wherever in
the options the size stands.
-/

namespace Meshpn.Device

open Meshpn.Lib List
open Meshpn.Lib.Checked

/-- `meshvpn_vpn_ipv4_valid`, access by access. -/
def ipv4ValidIn (p : Bytes) : Except Checked.Fault Bool :=
  let n := p.length
  if n < 20 then .ok false
  else
    (load p 0).bind fun first =>
      let h := first % 16 * 4
      if first / 16 ≠ 4 ∨ h < 20 ∨ h > n then .ok false
      else
        (load16 p 2).bind fun total =>
          if total ≠ n then .ok false
          else
            (load16 p 6).bind fun offset =>
              if offset % 0x4000 ≠ 0 then .ok true
              else
                (load p 9).bind fun protocol =>
                  match protocol with
                  | 6 =>
                    if n < h + 20 then .ok false
                    else
                      (load p (h + 12)).map fun data =>
                        let th := data / 16 * 4
                        decide (20 ≤ th ∧ th ≤ n - h)
                  | 17 =>
                    if n < h + 8 then .ok false
                    else (load16 p (h + 4)).map fun length => decide (length = n - h)
                  | 1 => .ok (decide (n ≥ h + 8))
                  | _ => .ok false

theorem load_byteAt {p : Bytes} {i : Nat} (h : i < p.length) : load p i = .ok (byteAt p i) :=
  load_ok h

theorem load16_be16 {p : Bytes} {i : Nat} (h : i + 1 < p.length) :
    load16 p i = .ok (be16 p i) := load16_ok h

theorem store16_put16 {p : Bytes} {i : Nat} (h : i + 1 < p.length) (v : Nat) :
    store16 p i v = .ok (put16 p i v) := store16_ok h v

theorem ipv4ValidIn_eq (p : Bytes) : ipv4ValidIn p = .ok (ipv4Valid p) := by
  unfold ipv4ValidIn ipv4Valid
  by_cases hshort : p.length < 20
  case pos => simp only [hshort, true_or, if_true]
  dsimp only
  rw [if_neg hshort, load_byteAt (by omega)]
  simp only [Except.bind, hshort, false_or]
  by_cases hfirst : byteAt p 0 / 16 ≠ 4
  case pos =>
    have hfirst' : (p.getD 0 0).toNat / 16 ≠ 4 := hfirst
    rw [if_pos (.inl hfirst), if_pos hfirst']
  have hfirst' : ¬(p.getD 0 0).toNat / 16 ≠ 4 := hfirst
  have hheader : byteAt p 0 % 16 * 4 = headerLength p := rfl
  rw [if_neg hfirst', hheader]
  by_cases hfits : headerLength p < 20 ∨ headerLength p > p.length
  case pos =>
    rw [if_pos (.inr hfits), if_pos (hfits.elim .inl fun hlong => .inr (.inl hlong))]
  rw [if_neg (by tauto), load16_be16 (by omega)]
  simp only
  by_cases htotal : be16 p 2 ≠ p.length
  case pos => rw [if_pos htotal, if_pos (.inr (.inr htotal))]
  have hwhole : ¬(headerLength p < 20 ∨ headerLength p > p.length ∨
      be16 p 2 ≠ p.length) := by tauto
  rw [if_neg htotal, if_neg hwhole, load16_be16 (by omega)]
  simp only
  by_cases hfragment : fragment p = true
  case pos =>
    have hoffset : be16 p 6 % 0x4000 ≠ 0 := of_decide_eq_true hfragment
    rw [if_pos hoffset, if_pos hfragment]
  have hoffset : ¬be16 p 6 % 0x4000 ≠ 0 := fun h => hfragment (decide_eq_true h)
  rw [if_neg hoffset, if_neg hfragment, load_byteAt (by omega)]
  have hprotocol : (p.getD 9 0).toNat = byteAt p 9 := rfl
  simp only [hprotocol]
  generalize byteAt p 9 = protocol
  split
  case h_1 =>
    split
    case isTrue => rfl
    rename_i hroom
    rw [load_byteAt (by omega)]
    rfl
  case h_2 =>
    change (if p.length < headerLength p + 8 then _ else _) = Except.ok (decide _)
    split
    case isTrue hroom =>
      rw [decide_eq_false (by omega)]
    rename_i hroom
    rw [load16_be16 (by omega)]
    simp only [Except.map]
    congr 2
    simp only [eq_iff_iff, iff_and_self]
    omega
  case h_3 => rfl
  case h_4 hother hudp hicmp =>
    first
    | rfl
    | split
      · exact absurd rfl hother
      · exact absurd rfl hudp
      · exact absurd rfl hicmp
      · rfl

section Valid

variable {p : Bytes}

theorem valid_header (hvalid : ipv4Valid p = true) :
    20 ≤ headerLength p ∧ headerLength p ≤ p.length ∧ p.length = be16 p 2 := by
  unfold ipv4Valid at hvalid
  dsimp only at hvalid
  split at hvalid
  case isTrue => cases hvalid
  split at hvalid
  case isTrue => cases hvalid
  case isFalse h => omega

theorem be16_lt (p : Bytes) (i : Nat) : be16 p i < 65536 := Bytes.toUInt16_lt _ _

theorem valid_size (hvalid : ipv4Valid p = true) : p.length < 65536 :=
  (valid_header hvalid).2.2 ▸ be16_lt p 2

theorem valid_transport (hvalid : ipv4Valid p = true) (hwhole : fragment p = false) :
    (byteAt p 9 = 6 ∧ headerLength p + 20 ≤ p.length ∧
      20 ≤ byteAt p (headerLength p + 12) / 16 * 4 ∧
      headerLength p + byteAt p (headerLength p + 12) / 16 * 4 ≤ p.length) ∨
    (byteAt p 9 = 17 ∧ headerLength p + 8 ≤ p.length) ∨
    (byteAt p 9 = 1 ∧ headerLength p + 8 ≤ p.length) := by
  unfold ipv4Valid at hvalid
  dsimp only at hvalid
  split at hvalid
  case isTrue => cases hvalid
  split at hvalid
  case isTrue => cases hvalid
  rename_i hheader
  rw [hwhole] at hvalid
  simp only [Bool.false_eq_true, if_false] at hvalid
  split at hvalid
  case h_1 htcp =>
    split at hvalid
    case isTrue => cases hvalid
    rename_i hroom
    have hdata := of_decide_eq_true hvalid
    change 20 ≤ byteAt p _ / 16 * 4 ∧ byteAt p _ / 16 * 4 ≤ _ at hdata
    exact .inl ⟨htcp, by omega, hdata.1, by omega⟩
  case h_2 hudp =>
    have hroom := of_decide_eq_true hvalid
    exact .inr (.inl ⟨hudp, hroom.1⟩)
  case h_3 hicmp => exact .inr (.inr ⟨hicmp, of_decide_eq_true hvalid⟩)
  case h_4 => cases hvalid

end Valid

open Meshpn.Lib.InternetChecksum

/-- `clampAt`, access by access. -/
def clampIn (h i : Nat) (p : Bytes) : Except Checked.Fault Bytes :=
  (load16 p (i + 2)).bind fun old =>
    if old > tunnelMss then
      let odd := (i + 2 - h) % 2 = 1
      let oldWord := if odd then swapWord old else old
      let newWord := if odd then swapWord tunnelMss else tunnelMss
      (load16 p (h + 16)).bind fun checksum =>
        let sum := (65535 - checksum) + (65535 - oldWord) + newWord
        let c := 65535 - foldCarry (foldCarry sum) % 65536
        (store16 p (h + 16) c).bind fun p => store16 p (i + 2) tunnelMss
    else .ok p

/-- The loop over the options, with what it returns and the packet that it leaves. -/
def clampLoop (h stop : Nat) : Nat → Nat → Bytes → Except Checked.Fault (Bool × Bytes)
  | 0, _, _ => .error .stuck
  | fuel + 1, i, p =>
    if stop ≤ i then .ok (true, p)
    else
      (load p i).bind fun kind =>
        if kind = 0 then .ok (true, p)
        else if kind = 1 then clampLoop h stop fuel (i + 1) p
        else if stop < i + 2 then .ok (false, p)
        else
          (load p (i + 1)).bind fun size =>
            if size < 2 ∨ stop < i + size then .ok (false, p)
            else
              (if kind = 2 ∧ size = 4 then clampIn h i p else .ok p).bind fun p =>
                (load p (i + 1)).bind fun size => clampLoop h stop fuel (i + size) p

/-- `meshvpn_vpn_clamp_mss`, in place. -/
def clampMssIn (p : Bytes) : Except Checked.Fault (Bool × Bytes) :=
  (ipv4ValidIn p).bind fun valid =>
    if valid = false then .ok (false, p)
    else
      (load p 9).bind fun protocol =>
        (load16 p 6).bind fun offset =>
          if protocol ≠ 6 ∨ offset % 0x4000 ≠ 0 then .ok (true, p)
          else
            (load p 0).bind fun first =>
              let h := first % 16 * 4
              (load p (h + 13)).bind fun flags =>
                if flags / 2 % 2 = 0 then .ok (true, p)
                else
                  (load p (h + 12)).bind fun data =>
                    clampLoop h (h + data / 16 * 4) (p.length + 1) (h + 20) p

/-- An unfragmented SYN. -/
structure Syn (p : Bytes) : Prop where
  valid : ipv4Valid p = true
  tcp : byteAt p 9 = 6
  whole : fragment p = false
  flag : byteAt p (headerLength p + 13) / 2 % 2 = 1

def optionsEnd (p : Bytes) : Nat := headerLength p + byteAt p (headerLength p + 12) / 16 * 4

/-- From an option at `i` the ones behind it lead to `j`, none of them the end of the options. -/
inductive Walks (p : Bytes) (stop : Nat) : Nat → Nat → Prop where
  | here {i : Nat} : Walks p stop i i
  | noOperation {i j : Nat} : i < stop → byteAt p i = 1 → Walks p stop (i + 1) j → Walks p stop i j
  | option {i j : Nat} : 2 ≤ byteAt p i → 2 ≤ byteAt p (i + 1) → i + byteAt p (i + 1) ≤ stop →
      Walks p stop (i + byteAt p (i + 1)) j → Walks p stop i j

/-- An option of four bytes for the segment size. -/
structure MssOption (p : Bytes) (stop i j : Nat) : Prop where
  reached : Walks p stop i j
  kind : byteAt p j = 2
  size : byteAt p (j + 1) = 4
  fits : j + 4 ≤ stop

def tcpSum (p : Bytes) : Nat :=
  wordSum ((p.drop 12).take 8) + 6 + (p.length - headerLength p) + wordSum (p.drop (headerLength p))

def TcpVerifies (p : Bytes) : Prop := fold (tcpSum p) = 65535

section Sums

variable {p : Bytes} {h k : Nat}

theorem byteAt_set {i : Nat} (v : UInt8) (hne : k ≠ i) : byteAt (p.set i v) k = byteAt p k := by
  unfold byteAt
  rw [getD_eq_getElem?_getD, getD_eq_getElem?_getD, getElem?_set_ne (Ne.symm hne)]

theorem byteAt_put16 {i : Nat} (v : Nat) (hne : k ≠ i) (hne' : k ≠ i + 1) :
    byteAt (put16 p i v) k = byteAt p k := by
  rw [put16, byteAt_set _ hne', byteAt_set _ hne]

theorem be16_eq (p : Bytes) (i : Nat) : be16 p i = 256 * byteAt p i + byteAt p (i + 1) := rfl

theorem byteAt_set_self {v : UInt8} (hk : k < p.length) : byteAt (p.set k v) k = v.toNat := by
  unfold byteAt
  rw [getD_eq_getElem?_getD, getElem?_set_self hk]
  rfl

theorem be16_put16 {v : Nat} (hk : k + 1 < p.length) (hv : v < 65536) :
    be16 (put16 p k v) k = v := by
  have hlength : k + 1 < (p.set k (UInt8.ofNat (v / 256))).length := by rwa [length_set]
  rw [be16_eq, put16, byteAt_set_self hlength, byteAt_set _ (by omega),
    byteAt_set_self (by omega), Bytes.toNat_ofNat (by omega), UInt8.toNat_ofNat']
  omega

/-- The place of two bytes in the words of the sum: in one word, or across two of them. -/
def sumShare (i v : Nat) : Nat := if i % 2 = 1 then swapWord v else v

theorem wordSum_drop_set (v : UInt8) (hk : h + k < p.length) :
    wordSum ((p.set (h + k) v).drop h) + weight k * byteAt p (h + k) =
      wordSum (p.drop h) + weight k * v.toNat := by
  have hlength : k < (p.drop h).length := by
    rw [length_drop]
    omega
  have hset : (p.set (h + k) v).drop h = (p.drop h).set k v := by
    rw [drop_set, if_neg (by omega), Nat.add_sub_cancel_left]
  have hbyte : ((p.drop h).getD k 0).toNat = byteAt p (h + k) := by
    rw [byteAt, getD_eq_getElem?_getD, getElem?_drop, getD_eq_getElem?_getD]
  rw [hset, ← hbyte]
  exact wordSum_set hlength v

theorem wordSum_put16 {v : Nat} (hk : h + k + 1 < p.length) (hv : v < 65536) :
    wordSum ((put16 p (h + k) v).drop h) + sumShare k (be16 p (h + k)) =
      wordSum (p.drop h) + sumShare k v := by
  have hlength : h + (k + 1) < (p.set (h + k) (UInt8.ofNat (v / 256))).length := by
    rw [length_set]
    omega
  have hhigh := wordSum_drop_set (UInt8.ofNat (v / 256)) (by omega : h + k < p.length)
  have hlow := wordSum_drop_set (UInt8.ofNat v) hlength
  rw [byteAt_set _ (by omega)] at hlow
  rw [Bytes.toNat_ofNat (by omega)] at hhigh
  rw [UInt8.toNat_ofNat'] at hlow
  have hfirst := (p.getD (h + k) 0).toNat_lt
  have hsecond := (p.getD (h + k + 1) 0).toNat_lt
  change byteAt p (h + k) < 256 at hfirst
  change byteAt p (h + k + 1) < 256 at hsecond
  rw [put16, be16_eq]
  rw [← Nat.add_assoc] at hlow
  unfold sumShare swapWord
  rcases Nat.mod_two_eq_zero_or_one k with heven | hodd
  · have hweight : weight k = 256 := if_pos heven
    have hweight' : weight (k + 1) = 1 := if_neg (by omega)
    rw [hweight] at hhigh
    rw [hweight'] at hlow
    rw [if_neg (by omega), if_neg (by omega)]
    omega
  · have hweight : weight k = 1 := if_neg (by omega)
    have hweight' : weight (k + 1) = 256 := if_pos (by omega)
    rw [hweight] at hhigh
    rw [hweight'] at hlow
    rw [if_pos hodd, if_pos hodd]
    omega

end Sums

section Option

variable {p q : Bytes} {h stop i j : Nat}

theorem clampIn_eq (hsize : i + 3 < p.length) (hchecksum : h + 17 < p.length) :
    clampIn h i p = .ok (clampAt h i p) := by
  unfold clampIn clampAt
  rw [load16_be16 (by omega)]
  simp only [Except.bind]
  split
  case isTrue =>
    rw [load16_be16 (by omega)]
    simp only
    rw [store16_put16 (by omega)]
    simp only
    rw [store16_put16 (by rw [put16_length]; omega)]
  case isFalse => rfl

theorem clampAt_other (hchecksum : j ≠ h + 16) (hchecksum' : j ≠ h + 17) (hsize : j ≠ i + 2)
    (hsize' : j ≠ i + 3) : byteAt (clampAt h i p) j = byteAt p j := by
  unfold clampAt
  dsimp only
  split
  case isTrue => rw [byteAt_put16 _ hsize hsize', byteAt_put16 _ hchecksum hchecksum']
  case isFalse => rfl

theorem clampAt_size (hsize : i + 3 < p.length) :
    be16 (clampAt h i p) (i + 2) = min (be16 p (i + 2)) tunnelMss := by
  unfold clampAt
  dsimp only
  split
  case isTrue hlarge =>
    rw [be16_put16 (by rw [put16_length]; omega) (by decide)]
    omega
  case isFalse hsmall => omega

theorem foldCarry_mod (sum : Nat) : foldCarry sum % 65535 = sum % 65535 := by
  unfold foldCarry
  omega

theorem foldCarry_twice_le {sum : Nat} (h : sum < 4294967296) :
    foldCarry (foldCarry sum) ≤ 65535 := by
  have hfirst : foldCarry sum ≤ 131070 := by
    unfold foldCarry
    omega
  generalize foldCarry sum = folded at hfirst
  unfold foldCarry
  omega

theorem clampAt_sum (hi : h + 20 ≤ i) (hsize : i + 3 < p.length) :
    wordSum ((clampAt h i p).drop h) % 65535 = wordSum (p.drop h) % 65535 := by
  unfold clampAt
  dsimp only
  split
  case isFalse => rfl
  rename_i hlarge
  have hplace : i + 2 = h + (i + 2 - h) := by omega
  have hshare : ∀ v, (if (i + 2 - h) % 2 = 1 then swapWord v else v) =
      sumShare (i + 2 - h) v := fun _ => rfl
  have hbound : ∀ v < 65536, sumShare (i + 2 - h) v ≤ 65535 := by
    intro v hv
    unfold sumShare swapWord
    split <;> omega
  simp only [hshare]
  have hold := be16_lt p (i + 2)
  have hchecksum := be16_lt p (h + 16)
  have holdShare := hbound _ hold
  have hnewShare := hbound tunnelMss (by decide)
  generalize hsum : (65535 - be16 p (h + 16)) + (65535 - sumShare (i + 2 - h) (be16 p (i + 2))) +
    sumShare (i + 2 - h) tunnelMss = sum
  generalize hc : 65535 - foldCarry (foldCarry sum) % 65536 = c
  have hfirst := @wordSum_put16 p h 16 c (by omega) (by omega)
  have hsecond := @wordSum_put16 (put16 p (h + 16) c) h (i + 2 - h) tunnelMss
    (by rw [put16_length]; omega) (by decide)
  have hkept : be16 (put16 p (h + 16) c) (i + 2) = be16 p (i + 2) := by
    rw [be16_eq, be16_eq, byteAt_put16 _ (by omega) (by omega),
      byteAt_put16 _ (by omega) (by omega)]
  have heven : ∀ v, sumShare 16 v = v := fun _ => rfl
  rw [← hplace, hkept] at hsecond
  rw [heven, heven] at hfirst
  have hfolded := foldCarry_twice_le (by omega : sum < 4294967296)
  have hmod : foldCarry (foldCarry sum) % 65535 = sum % 65535 := by
    rw [foldCarry_mod, foldCarry_mod]
  omega

end Option

section Walk

variable {p q : Bytes} {stop i j : Nat}

theorem Walks.le (h : Walks p stop i j) : i ≤ j := by
  induction h with
  | here => exact Nat.le_refl _
  | noOperation _ _ _ ih => omega
  | option _ _ _ _ ih => omega

theorem Walks.congr (h : Walks p stop i j) (hsame : ∀ k, i ≤ k → byteAt q k = byteAt p k) :
    Walks q stop i j := by
  induction h with
  | here => exact .here
  | @noOperation i j hi hkind hwalk ih =>
    refine .noOperation hi ?_ (ih fun k hk => hsame k (by omega))
    rw [hsame i (Nat.le_refl i), hkind]
  | @option i j hkind hsize hfits hwalk ih =>
    have hlength : byteAt q (i + 1) = byteAt p (i + 1) := hsame _ (by omega)
    refine .option ?_ ?_ ?_ ?_
    · rwa [hsame i (Nat.le_refl i)]
    · rwa [hlength]
    · rwa [hlength]
    · rw [hlength]
      exact ih fun k hk => hsame k (by omega)

theorem MssOption.congr (h : MssOption p stop i j) (hsame : ∀ k, i ≤ k → byteAt q k = byteAt p k) :
    MssOption q stop i j := by
  have hij := h.reached.le
  refine ⟨h.reached.congr hsame, ?_, ?_, h.fits⟩
  · rw [hsame j hij, h.kind]
  · rw [hsame (j + 1) (by omega), h.size]

theorem MssOption.not_end (h : MssOption p stop i j) (hend : byteAt p i = 0) : False := by
  have hkind := h.kind
  cases h.reached with
  | here => omega
  | noOperation _ hone _ => omega
  | option htwo _ _ _ => omega

theorem MssOption.noOperation (h : MssOption p stop i j) (hone : byteAt p i = 1) :
    MssOption p stop (i + 1) j := by
  have hkind := h.kind
  refine ⟨?_, h.kind, h.size, h.fits⟩
  cases h.reached with
  | here => omega
  | noOperation _ _ hwalk => exact hwalk
  | option htwo _ _ _ => omega

theorem MssOption.option (h : MssOption p stop i j) (htwo : 2 ≤ byteAt p i) :
    (j = i ∧ byteAt p i = 2 ∧ byteAt p (i + 1) = 4) ∨
      MssOption p stop (i + byteAt p (i + 1)) j := by
  cases h.reached with
  | here => exact .inl ⟨rfl, h.kind, h.size⟩
  | noOperation _ hone _ => omega
  | option _ _ _ hwalk => exact .inr ⟨hwalk, h.kind, h.size, h.fits⟩

theorem Walks.trans {k : Nat} (h : Walks p stop i j) (h' : Walks p stop j k) :
    Walks p stop i k := by
  induction h with
  | here => exact h'
  | noOperation hi hone _ ih => exact .noOperation hi hone (ih h')
  | option htwo hlong hfits _ ih => exact .option htwo hlong hfits (ih h')

theorem MssOption.apart {k : Nat} (h : MssOption p stop i j) (hwalk : Walks p stop i k) :
    k ≤ j ∨ j + 4 ≤ k := by
  induction hwalk with
  | here => exact .inl h.reached.le
  | noOperation _ hone _ ih => exact ih (h.noOperation hone)
  | @option i k htwo hlong hfits hrest ih =>
    rcases h.option htwo with ⟨rfl, -, hsize⟩ | hlater
    · have hle := hrest.le
      omega
    · exact ih hlater

def OnTheWay (p q : Bytes) (stop start : Nat) : Prop :=
  ∀ m, Walks p stop start m → byteAt q m = byteAt p m ∧ byteAt q (m + 1) = byteAt p (m + 1)

theorem Walks.iff_of_same {start : Nat} (hsame : OnTheWay p q stop start)
    (hstart : Walks p stop start i) : Walks q stop i j ↔ Walks p stop i j := by
  constructor
  · intro h
    induction h with
    | here => exact .here
    | @noOperation i j hi hone _ ih =>
      have hkind := (hsame i hstart).1
      have hstep : Walks p stop i (i + 1) := .noOperation hi (by omega) .here
      exact hstep.trans (ih (hstart.trans hstep))
    | @option i j htwo hlong hfits _ ih =>
      obtain ⟨hkind, hsize⟩ := hsame i hstart
      rw [hsize] at hlong hfits ih
      have hstep : Walks p stop i (i + byteAt p (i + 1)) := .option (by omega) hlong hfits .here
      exact hstep.trans (ih (hstart.trans hstep))
  · intro h
    induction h with
    | here => exact .here
    | @noOperation i j hi hone _ ih =>
      have hkind := (hsame i hstart).1
      have hstep : Walks p stop i (i + 1) := .noOperation hi hone .here
      exact .noOperation hi (by omega) (ih (hstart.trans hstep))
    | @option i j htwo hlong hfits _ ih =>
      obtain ⟨hkind, hsize⟩ := hsame i hstart
      have hstep : Walks p stop i (i + byteAt p (i + 1)) := .option htwo hlong hfits .here
      have hrest := ih (hstart.trans hstep)
      rw [← hsize] at hlong hfits hrest
      exact .option (by omega) hlong hfits hrest

theorem MssOption.iff_of_same (hsame : OnTheWay p q stop i) :
    MssOption q stop i j ↔ MssOption p stop i j := by
  constructor
  · intro h
    have hreached := (Walks.iff_of_same hsame .here).mp h.reached
    obtain ⟨hkind, hsize⟩ := hsame j hreached
    exact ⟨hreached, hkind ▸ h.kind, hsize ▸ h.size, h.fits⟩
  · intro h
    obtain ⟨hkind, hsize⟩ := hsame j h.reached
    exact ⟨(Walks.iff_of_same hsame .here).mpr h.reached, hkind.trans h.kind,
      hsize.trans h.size, h.fits⟩

end Walk

/-- What the options from `i` on make of a packet. -/
structure Clamped (h stop i : Nat) (p q : Bytes) (flag : Bool) : Prop where
  length : q.length = p.length
  other : ∀ k, k ≠ h + 16 → k ≠ h + 17 →
    (∀ j, MssOption p stop i j → k ≠ j + 2 ∧ k ≠ j + 3) → byteAt q k = byteAt p k
  size : flag = true → ∀ j, MssOption p stop i j →
    be16 q (j + 2) = min (be16 p (j + 2)) tunnelMss
  sum : wordSum (q.drop h) % 65535 = wordSum (p.drop h) % 65535

section Loop

variable {h stop i : Nat} {p q : Bytes} {flag : Bool}

theorem Clamped.same (hnone : flag = true → ∀ j, ¬MssOption p stop i j) :
    Clamped h stop i p p flag :=
  ⟨rfl, fun _ _ _ _ => rfl, fun hflag j hj => absurd hj (hnone hflag j), rfl⟩

theorem Clamped.noOperation (hi : i < stop) (hone : byteAt p i = 1)
    (hrest : Clamped h stop (i + 1) p q flag) : Clamped h stop i p q flag where
  length := hrest.length
  other k hk hk' hnot := hrest.other k hk hk' fun j hj =>
    hnot j ⟨.noOperation hi hone hj.reached, hj.kind, hj.size, hj.fits⟩
  size hflag j hj := hrest.size hflag j (hj.noOperation hone)
  sum := hrest.sum

theorem Clamped.skipped (htwo : 2 ≤ byteAt p i) (hlong : 2 ≤ byteAt p (i + 1))
    (hfits : i + byteAt p (i + 1) ≤ stop) (hnot : ¬(byteAt p i = 2 ∧ byteAt p (i + 1) = 4))
    (hrest : Clamped h stop (i + byteAt p (i + 1)) p q flag) : Clamped h stop i p q flag where
  length := hrest.length
  other k hk hk' hother := hrest.other k hk hk' fun j hj =>
    hother j ⟨.option htwo hlong hfits hj.reached, hj.kind, hj.size, hj.fits⟩
  size hflag j hj := by
    rcases hj.option htwo with ⟨-, hmss⟩ | hlater
    · exact absurd hmss hnot
    · exact hrest.size hflag j hlater
  sum := hrest.sum

theorem Clamped.mss (hi : h + 20 ≤ i) (hkind : byteAt p i = 2) (hsize : byteAt p (i + 1) = 4)
    (hfits : i + 4 ≤ stop) (hstop : stop ≤ p.length)
    (hrest : Clamped h stop (i + 4) (clampAt h i p) q flag) : Clamped h stop i p q flag := by
  have hbehind : ∀ k, i + 4 ≤ k → byteAt (clampAt h i p) k = byteAt p k := by
    intro k hk
    exact clampAt_other (by omega) (by omega) (by omega) (by omega)
  have hwalk : Walks p stop i (i + 4) := by
    have hnext : Walks p stop (i + byteAt p (i + 1)) (i + 4) := by
      rw [hsize]
      exact .here
    exact .option (by omega) (by omega) (by omega) hnext
  have hlater : ∀ {j}, MssOption (clampAt h i p) stop (i + 4) j → MssOption p stop i j := by
    intro j hj
    have hback := hj.congr fun k hk => (hbehind k hk).symm
    refine ⟨.option (by omega) (by omega) (by omega) ?_, hback.kind, hback.size, hback.fits⟩
    rw [hsize]
    exact hback.reached
  refine ⟨hrest.length.trans (clampAt_length h i p), ?_, ?_, ?_⟩
  · intro k hk hk' hother
    have hhere := hother i ⟨.here, hkind, hsize, hfits⟩
    rw [hrest.other k hk hk' fun j hj => hother j (hlater hj),
      clampAt_other hk hk' hhere.1 hhere.2]
  · intro hflag j hj
    rcases hj.option (by omega) with ⟨rfl, -⟩ | hback
    · -- the later options leave this one alone
      have hkept : ∀ k, j + 2 ≤ k → k < j + 4 →
          byteAt q k = byteAt (clampAt h j p) k := by
        intro k hk hk'
        refine hrest.other k (by omega) (by omega) fun other hother => ?_
        have hother' := hother.reached.le
        omega
      rw [be16_eq, hkept _ (by omega) (by omega), hkept _ (by omega) (by omega), ← be16_eq]
      exact clampAt_size (by omega)
    · rw [hsize] at hback
      have hsame := hrest.size hflag j (hback.congr fun k hk => hbehind k hk)
      have hle := hback.reached.le
      rw [hsame, be16_eq, hbehind _ (by omega), hbehind _ (by omega), be16_eq]
  · rw [hrest.sum]
    exact clampAt_sum hi (by omega)

theorem clampLoop_spec {fuel : Nat} (hi : h + 20 ≤ i) (hstop : stop ≤ p.length) (hfuel : 1 ≤ fuel)
    (henough : stop + 1 ≤ fuel + i) :
    ∃ flag q, clampLoop h stop fuel i p = .ok (flag, q) ∧ Clamped h stop i p q flag := by
  induction fuel generalizing i p with
  | zero => omega
  | succ fuel ih =>
    rw [clampLoop]
    split
    case isTrue hend =>
      refine ⟨true, p, rfl, Clamped.same fun _ j hj => ?_⟩
      have hle := hj.reached.le
      have hfits := hj.fits
      omega
    case isFalse hinside =>
      rw [load_byteAt (by omega)]
      simp only [Except.bind]
      split
      case isTrue hzero => exact ⟨true, p, rfl, Clamped.same fun _ j hj => hj.not_end hzero⟩
      rename_i hnonzero
      split
      case isTrue hone =>
        obtain ⟨flag, q, hloop, hspec⟩ := @ih (i + 1) p (by omega) hstop (by omega) (by omega)
        exact ⟨flag, q, hloop, hspec.noOperation (by omega) hone⟩
      rename_i hnotOne
      split
      case isTrue hcut => exact ⟨false, p, rfl, Clamped.same fun h => by cases h⟩
      rename_i hheader
      rw [load_byteAt (by omega)]
      simp only
      split
      case isTrue hbad => exact ⟨false, p, rfl, Clamped.same fun h => by cases h⟩
      rename_i hgood
      by_cases hmss : byteAt p i = 2 ∧ byteAt p (i + 1) = 4
      case pos =>
        rw [if_pos hmss]
        have hsame : byteAt (clampAt h i p) (i + 1) = 4 := by
          rw [clampAt_other (by omega) (by omega) (by omega) (by omega), hmss.2]
        have hlength := clampAt_length h i p
        rw [clampIn_eq (by omega) (by omega)]
        simp only
        rw [load_byteAt (by omega), hsame]
        simp only
        obtain ⟨flag, q, hloop, hspec⟩ :=
          @ih (i + 4) (clampAt h i p) (by omega) (by omega) (by omega) (by omega)
        exact ⟨flag, q, hloop, hspec.mss hi hmss.1 hmss.2 (by omega) hstop⟩
      case neg =>
        rw [if_neg hmss]
        simp only
        rw [load_byteAt (by omega)]
        simp only
        obtain ⟨flag, q, hloop, hspec⟩ :=
          @ih (i + byteAt p (i + 1)) p (by omega) hstop (by omega) (by omega)
        exact ⟨flag, q, hloop, hspec.skipped (by omega) (by omega) (by omega) hmss⟩

end Loop

/-- The clamp of a SYN is the loop over its options; every other packet is left alone. -/
theorem clampMssIn_spec (p : Bytes) :
    ∃ flag q, clampMssIn p = .ok (flag, q) ∧ (¬Syn p → q = p) ∧
      (Syn p → Clamped (headerLength p) (optionsEnd p) (headerLength p + 20) p q flag) := by
  unfold clampMssIn
  rw [ipv4ValidIn_eq]
  simp only [Except.bind]
  split
  case isTrue hinvalid =>
    refine ⟨false, p, rfl, fun _ => rfl, fun hsyn => ?_⟩
    rw [hsyn.valid] at hinvalid
    cases hinvalid
  rename_i hnot
  have hvalid : ipv4Valid p = true := by simpa using hnot
  have hlong := ipv4Valid_length hvalid
  have hfragment : fragment p = decide (be16 p 6 % 0x4000 ≠ 0) := rfl
  rw [load_byteAt (by omega), load16_be16 (by omega)]
  simp only
  split
  case isTrue hother =>
    refine ⟨true, p, rfl, fun _ => rfl, fun hsyn => ?_⟩
    have hwhole := hsyn.whole
    rw [hfragment, decide_eq_false_iff_not] at hwhole
    have htcp := hsyn.tcp
    omega
  case isFalse htcp =>
    have hkind : byteAt p 9 = 6 := by omega
    have hwhole : fragment p = false := by
      rw [hfragment, decide_eq_false_iff_not]
      omega
    rcases valid_transport hvalid hwhole with ⟨-, hroom, hdata, hoptions⟩ | hudp | hicmp
    case inr.inl => omega
    case inr.inr => omega
    have hheader : byteAt p 0 % 16 * 4 = headerLength p := rfl
    rw [load_byteAt (by omega)]
    simp only [hheader]
    rw [load_byteAt (by omega)]
    simp only
    split
    case isTrue hflag =>
      refine ⟨true, p, rfl, fun _ => rfl, fun hsyn => ?_⟩
      have hset := hsyn.flag
      omega
    case isFalse hflag =>
      have hsyn : Syn p := ⟨hvalid, hkind, hwhole, by omega⟩
      rw [load_byteAt (by omega)]
      simp only
      obtain ⟨flag, q, hloop, hspec⟩ :=
        @clampLoop_spec (headerLength p) (optionsEnd p) (headerLength p + 20) p (p.length + 1)
          (Nat.le_refl _) hoptions (by omega) (by unfold optionsEnd; omega)
      exact ⟨flag, q, hloop, fun hnot => absurd hsyn hnot, fun _ => hspec⟩

section Result

variable {p q : Bytes} {flag : Bool}

theorem Clamped.header
    (h : Clamped (headerLength p) (optionsEnd p) (headerLength p + 20) p q flag) {k : Nat}
    (hk : k < headerLength p + 16) : byteAt q k = byteAt p k := by
  refine h.other k (by omega) (by omega) fun j hj => ?_
  have hle := hj.reached.le
  omega

theorem Clamped.verifies (hvalid : ipv4Valid p = true)
    (h : Clamped (headerLength p) (optionsEnd p) (headerLength p + 20) p q flag)
    (hbefore : TcpVerifies p) : TcpVerifies q := by
  obtain ⟨hlow, hhigh, -⟩ := valid_header hvalid
  have hheader : headerLength q = headerLength p := by
    have hfirst := h.header (by omega : 0 < headerLength p + 16)
    change byteAt q 0 % 16 * 4 = byteAt p 0 % 16 * 4
    rw [hfirst]
  have hpseudo : (q.drop 12).take 8 = (p.drop 12).take 8 := by
    apply ext_getElem
    · rw [length_take, length_take, length_drop, length_drop, h.length]
    intro k hk hk'
    rw [length_take, length_drop] at hk hk'
    have hbyte := h.header (by omega : 12 + k < headerLength p + 16)
    have hread : q.getD (12 + k) 0 = p.getD (12 + k) 0 := UInt8.toNat_inj.mp hbyte
    rw [getD_eq_getElem?_getD, getD_eq_getElem?_getD,
      getElem?_eq_getElem (by omega), getElem?_eq_getElem (by omega)] at hread
    rw [getElem_take, getElem_take, getElem_drop, getElem_drop]
    exact hread
  have hsum : tcpSum q % 65535 = tcpSum p % 65535 := by
    have hsegment := h.sum
    unfold tcpSum
    rw [hheader, hpseudo, h.length]
    omega
  unfold TcpVerifies at hbefore ⊢
  rw [fold_eq_max] at hbefore ⊢
  refine ⟨?_, Nat.dvd_of_mod_eq_zero ?_⟩
  · unfold tcpSum
    omega
  · rw [hsum]
    exact Nat.mod_eq_zero_of_dvd hbefore.2

theorem Clamped.options
    (h : Clamped (headerLength p) (optionsEnd p) (headerLength p + 20) p q flag) (j : Nat) :
    MssOption q (optionsEnd p) (headerLength p + 20) j ↔
      MssOption p (optionsEnd p) (headerLength p + 20) j := by
  refine MssOption.iff_of_same fun m hm => ?_
  have hle := hm.le
  constructor
  · refine h.other m (by omega) (by omega) fun other hother => ?_
    have hapart := hother.apart hm
    omega
  · refine h.other (m + 1) (by omega) (by omega) fun other hother => ?_
    have hapart := hother.apart hm
    omega

end Result

/-- The clamp ends and stays within the packet, whatever the bytes are. What it does to a SYN
keeps the checksum right and leaves no segment size above 1360 and none above what it was; it
touches nothing but these sizes and the checksum, and no other packet at all. -/
theorem mss_clamped (p : Bytes) :
    ∃ flag q, clampMssIn p = .ok (flag, q) ∧ q.length = p.length ∧
      (flag = true → Syn p → TcpVerifies p → TcpVerifies q) ∧
      (flag = true → Syn p → ∀ j, MssOption q (optionsEnd p) (headerLength p + 20) j →
        be16 q (j + 2) ≤ 1360 ∧ be16 q (j + 2) ≤ be16 p (j + 2)) ∧
      (∀ j, MssOption q (optionsEnd p) (headerLength p + 20) j ↔
        MssOption p (optionsEnd p) (headerLength p + 20) j) ∧
      (∀ k, k ≠ headerLength p + 16 → k ≠ headerLength p + 17 →
        (∀ j, MssOption p (optionsEnd p) (headerLength p + 20) j → k ≠ j + 2 ∧ k ≠ j + 3) →
        byteAt q k = byteAt p k) ∧
      (¬Syn p → q = p) := by
  obtain ⟨flag, q, hclamp, hother, hspec⟩ := clampMssIn_spec p
  refine ⟨flag, q, hclamp, ?_⟩
  by_cases hsyn : Syn p
  case neg =>
    obtain rfl := hother hsyn
    exact ⟨rfl, fun _ h => absurd h hsyn, fun _ h => absurd h hsyn, fun _ => Iff.rfl,
      fun _ _ _ _ => rfl, fun _ => rfl⟩
  case pos =>
    have h := hspec hsyn
    refine ⟨h.length, fun _ _ hbefore => h.verifies hsyn.valid hbefore, ?_, h.options, h.other,
      fun hnot => absurd hsyn hnot⟩
    intro hflag _ j hj
    have hsize := h.size hflag j ((h.options j).mp hj)
    have hmss : tunnelMss = 1360 := rfl
    omega

end Meshpn.Device
