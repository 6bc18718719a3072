import Meshpn.Lib.Bytes
import Meshpn.Lib.Text
import Meshpn.Lib.Windows

/-!
The Bearer token of the TLS transport, a MAC over the number of the current
window. The verifier tries its own window and the two beside it, with the
exporter of the session first and without it after that. Every message ends
with the number of its window, so a token of a window further away is
rejected where the MAC keeps the messages apart.
-/

namespace Meshpn.Tls.BearerToken

open Meshpn.Lib List

/-- `String(n)`, as bytes. -/
def digitBytes (n : Nat) : Bytes := (Text.decimal n).map fun c => UInt8.ofNat c.toNat

def numberText (n : Int) : Bytes :=
  if n < 0 then 45 :: digitBytes n.natAbs else digitBytes n.natAbs

def contextV1 : Bytes := "clean-vpn-tls-v1".toUTF8.toList
def contextV2 : Bytes := "clean-vpn-tls-v2".toUTF8.toList

def colon : UInt8 := 58

/-- What goes into the MAC for a window. An absent or empty exporter gives the older form. -/
def message (exporterBuf : Bytes) (window : Int) : Bytes :=
  if exporterBuf.isEmpty then contextV1 ++ colon :: numberText window
  else contextV2 ++ colon :: (exporterBuf ++ colon :: numberText window)

section Mac

variable (mac : Bytes → Bytes → Bytes) (windowMs : ℚ) (secret exporterBuf : Bytes) (now : ℚ)

/-- `computeTlsVpnBearerToken`, before its bytes are written in hexadecimal. -/
def computeTlsVpnBearerToken (windowOffset : Int) : Bytes :=
  (mac secret (message exporterBuf (window windowMs now + windowOffset))).take 16

structure Verdict where
  ok : Bool
  windowOffset : Option Int
  legacy : Bool
deriving DecidableEq, Repr

def Verdict.refused : Verdict := ⟨false, none, false⟩

/-- The first of the three offsets whose token is the provided one. -/
def tryOffsets (provided : Bytes) : Option Int :=
  [0, -1, 1].find? fun offset =>
    computeTlsVpnBearerToken mac windowMs secret exporterBuf now offset == provided

/-- `verifyTlsVpnBearerToken`, for the bytes of a token; a token of another length is refused. -/
def verifyTlsVpnBearerToken (provided : Bytes) : Verdict :=
  if provided.length ≠ 16 then .refused
  else
    match if exporterBuf.isEmpty then none
        else tryOffsets mac windowMs secret exporterBuf now provided with
    | some offset => ⟨true, some offset, false⟩
    | none =>
      match tryOffsets mac windowMs secret [] now provided with
      | some offset => ⟨true, some offset, true⟩
      | none => .refused

end Mac

theorem digit_bounds {n : Nat} {c : Char} (hc : c ∈ Text.decimal n) :
    48 ≤ c.toNat ∧ c.toNat ≤ 57 := by
  have hdigit := Nat.isDigit_of_mem_toDigits (by decide) (by decide) hc
  rw [Char.isDigit, Bool.and_eq_true, decide_eq_true_eq, decide_eq_true_eq] at hdigit
  exact ⟨hdigit.1, hdigit.2⟩

theorem digitBytes_bounds {n : Nat} {b : UInt8} (hb : b ∈ digitBytes n) :
    48 ≤ b.toNat ∧ b.toNat ≤ 57 := by
  obtain ⟨c, hc, rfl⟩ := mem_map.mp hb
  have hbounds := digit_bounds hc
  rw [Bytes.toNat_ofNat (by omega)]
  exact hbounds

theorem digitBytes_injective {m n : Nat} (h : digitBytes m = digitBytes n) : m = n := by
  have hback : ∀ k, (digitBytes k).map (fun b => Char.ofNat b.toNat) = Text.decimal k := by
    intro k
    rw [digitBytes, map_map]
    refine (map_congr_left fun c hc => ?_).trans (map_id _)
    have hbounds := digit_bounds hc
    simp only [Function.comp_apply, id_eq]
    rw [Bytes.toNat_ofNat (by omega), Char.ofNat_toNat]
  apply Text.decimal_injective
  rw [← hback m, h, hback n]

theorem numberText_injective {m n : Int} (h : numberText m = numberText n) : m = n := by
  have hminus : ∀ k, 45 ∉ digitBytes k := by
    intro k hin
    have hbounds := (digitBytes_bounds hin).1
    exact absurd hbounds (by decide)
  unfold numberText at h
  split at h <;> split at h
  · have habs := digitBytes_injective (List.cons.inj h).2
    omega
  · exact absurd (h ▸ mem_cons_self) (hminus _)
  · exact absurd (h ▸ mem_cons_self) (hminus _)
  · have habs := digitBytes_injective h
    omega

theorem colon_not_mem_numberText (n : Int) : colon ∉ numberText n := by
  have hcolon : ∀ k, colon ∉ digitBytes k := by
    intro k hin
    have hbounds := (digitBytes_bounds hin).2
    exact absurd hbounds (by decide)
  unfold numberText
  split
  · rw [mem_cons, not_or]
    exact ⟨by decide, hcolon _⟩
  · exact hcolon _

theorem behind_separator {c last other : Bytes} (hlast : colon ∉ last)
    (h : colon :: last = c ++ colon :: other) : last = other := by
  rcases c with _ | ⟨b, c⟩
  · exact (List.cons.inj h).2
  have hin : colon ∈ last := by
    rw [(List.cons.inj h).2]
    exact mem_append_right c mem_cons_self
  exact absurd hin hlast

theorem last_part {front back last other : Bytes} (hlast : colon ∉ last) (hother : colon ∉ other)
    (h : front ++ colon :: last = back ++ colon :: other) : last = other := by
  rcases append_eq_append_iff.mp h with ⟨c, -, hc⟩ | ⟨c, -, hc⟩
  · exact behind_separator hlast hc
  · exact (behind_separator hother hc).symm

theorem message_window {exporter other : Bytes} {m n : Int}
    (h : message exporter m = message other n) : m = n := by
  have hform : ∀ (e : Bytes) k, ∃ front, message e k = front ++ colon :: numberText k := by
    intro e k
    unfold message
    split
    · exact ⟨contextV1, rfl⟩
    · exact ⟨contextV2 ++ colon :: e, by rw [append_assoc, cons_append]⟩
  obtain ⟨front, hfront⟩ := hform exporter m
  obtain ⟨back, hback⟩ := hform other n
  rw [hfront, hback] at h
  exact numberText_injective
    (last_part (colon_not_mem_numberText m) (colon_not_mem_numberText n) h)

section Distant

variable {mac : Bytes → Bytes → Bytes} {windowMs : ℚ} {secret exporterBuf : Bytes}

/-- The MAC keeps the message that was sent apart from the others that a verifier tries. -/
def KeepsApart (mac : Bytes → Bytes → Bytes) (secret exporterBuf : Bytes) (verifier : Int)
    (sent : Bytes) : Prop :=
  ∀ exporter ∈ [exporterBuf, []], ∀ offset ∈ [(0 : Int), -1, 1],
    (mac secret (message exporter (verifier + offset))).take 16 = (mac secret sent).take 16 →
      message exporter (verifier + offset) = sent

theorem tryOffsets_distant {clientExporter exporter : Bytes} {sentWall now : ℚ}
    (hexporter : exporter ∈ [exporterBuf, []])
    (hmac : KeepsApart mac secret exporterBuf (window windowMs now)
      (message clientExporter (window windowMs sentWall)))
    (hdistant : 1 < |window windowMs sentWall - window windowMs now|) :
    tryOffsets mac windowMs secret exporter now
      (computeTlsVpnBearerToken mac windowMs secret clientExporter sentWall 0) = none := by
  rw [tryOffsets, find?_eq_none]
  intro offset hoffset hsame
  rw [beq_iff_eq, computeTlsVpnBearerToken, computeTlsVpnBearerToken, Int.add_zero] at hsame
  have hwindow := message_window (hmac exporter hexporter offset hoffset hsame)
  rw [lt_abs] at hdistant
  simp only [mem_cons, not_mem_nil, or_false] at hoffset
  omega

theorem verify_distant {clientExporter : Bytes} {sentWall now : ℚ}
    (hmac : KeepsApart mac secret exporterBuf (window windowMs now)
      (message clientExporter (window windowMs sentWall)))
    (hdistant : 1 < |window windowMs sentWall - window windowMs now|) :
    (verifyTlsVpnBearerToken mac windowMs secret exporterBuf now
      (computeTlsVpnBearerToken mac windowMs secret clientExporter sentWall 0)).ok = false := by
  rw [verifyTlsVpnBearerToken, tryOffsets_distant mem_cons_self hmac hdistant,
    tryOffsets_distant (mem_cons_of_mem _ mem_cons_self) hmac hdistant, ite_self]
  split
  · rfl
  · rfl

end Distant

end Meshpn.Tls.BearerToken
