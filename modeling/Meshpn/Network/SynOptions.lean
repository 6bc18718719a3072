import Meshpn.Network.IpRoundTrip

/-!
The walk over the options of a SYN. Each turn moves on by a byte at least, so
the turns given to the loop suffice. The options that answer a SYN are a row of chunks, and
each chunk is one or more whole turns.
-/

namespace Meshpn.Network.IpPackets

open Meshpn.Lib
open Meshpn.Lib.Bytes

section Turns

variable {ipBuffer : Bytes} {optEnd o : Nat} {found : SynOptions}

theorem walkOptions_end (fuel : Nat) (hdone : optEnd ≤ o) :
    walkOptions ipBuffer optEnd fuel o found = found := by
  cases fuel with
  | zero => rfl
  | succ fuel => rw [walkOptions, if_neg (Nat.not_lt.mpr hdone)]

theorem walkOptions_enough {fuel more : Nat} (hfuel : optEnd - o ≤ fuel)
    (hmore : optEnd - o ≤ more) :
    walkOptions ipBuffer optEnd fuel o found = walkOptions ipBuffer optEnd more o found := by
  induction fuel generalizing more o found with
  | zero => rw [walkOptions_end 0 (by omega), walkOptions_end more (by omega)]
  | succ fuel ih =>
    rcases Nat.lt_or_ge o optEnd with hinside | hdone
    case inr => rw [walkOptions_end _ hdone, walkOptions_end _ hdone]
    obtain ⟨more, rfl⟩ : ∃ n, more = n + 1 := ⟨more - 1, by omega⟩
    have hnext : ∀ len next, 0 < len →
        walkOptions ipBuffer optEnd fuel (o + len) next =
          walkOptions ipBuffer optEnd more (o + len) next :=
      fun len next hlen => ih (by omega) (by omega)
    simp only [walkOptions, if_pos hinside]
    by_cases hstop : byteAt ipBuffer o = 0
    · rw [if_pos hstop, if_pos hstop]
    by_cases hnop : byteAt ipBuffer o = 1
    · rw [if_neg hstop, if_neg hstop, if_pos hnop, if_pos hnop, hnext 1 found Nat.one_pos]
    rw [if_neg hstop, if_neg hstop, if_neg hnop, if_neg hnop]
    rcases ipBuffer[o + 1]? with _ | len
    · rfl
    by_cases hbad : len.toNat < 2 ∨ optEnd < o + len.toNat
    · simp only [if_pos hbad]
    · simp only [if_neg hbad]
      exact hnext len.toNat _ (by omega)

theorem optionsFrom_succ (hinside : o < optEnd) :
    optionsFrom ipBuffer optEnd o found =
      walkOptions ipBuffer optEnd (optEnd - o - 1 + 1) o found := by
  rw [optionsFrom, Nat.sub_add_cancel (by omega)]

theorem optionsFrom_end (hdone : optEnd ≤ o) : optionsFrom ipBuffer optEnd o found = found :=
  walkOptions_end _ hdone

theorem optionsFrom_zero (hinside : o < optEnd) (hkind : byteAt ipBuffer o = 0) :
    optionsFrom ipBuffer optEnd o found = found := by
  rw [optionsFrom_succ hinside, walkOptions, if_pos hinside]
  exact if_pos hkind

theorem optionsFrom_nop (hinside : o < optEnd) (hkind : byteAt ipBuffer o = 1) :
    optionsFrom ipBuffer optEnd o found = optionsFrom ipBuffer optEnd (o + 1) found := by
  have hstop : ¬ byteAt ipBuffer o = 0 := by
    rw [hkind]
    decide
  rw [optionsFrom_succ hinside, walkOptions, if_pos hinside]
  simp only [if_neg hstop, if_pos hkind]
  exact walkOptions_enough (by omega) (Nat.le_refl _)

theorem optionsFrom_option {len : UInt8} (hstop : byteAt ipBuffer o ≠ 0)
    (hnop : byteAt ipBuffer o ≠ 1) (hlen : ipBuffer[o + 1]? = some len) (htwo : 2 ≤ len.toNat)
    (hroom : o + len.toNat ≤ optEnd) :
    optionsFrom ipBuffer optEnd o found =
      optionsFrom ipBuffer optEnd (o + len.toNat)
        (found.read ipBuffer o (byteAt ipBuffer o) len.toNat) := by
  have hinside : o < optEnd := by omega
  have hgood : ¬ (len.toNat < 2 ∨ optEnd < o + len.toNat) := by omega
  rw [optionsFrom_succ hinside, walkOptions, if_pos hinside]
  simp only [if_neg hstop, if_neg hnop, hlen, if_neg hgood]
  exact walkOptions_enough (by omega) (Nat.le_refl _)

end Turns

/-- From `o` to the end of the options stand the bytes `rest`. -/
def Ahead (ipBuffer : Bytes) (optEnd o : Nat) (rest : Bytes) : Prop :=
  optEnd = o + rest.length ∧ ∃ tail, ipBuffer.drop o = rest ++ tail

section Chunks

variable {ipBuffer : Bytes} {optEnd o : Nat} {found : SynOptions} {rest : Bytes}

namespace Ahead

theorem get (hahead : Ahead ipBuffer optEnd o rest) {i : Nat} (hi : i < rest.length) :
    ipBuffer[o + i]? = rest[i]? := by
  obtain ⟨-, tail, htail⟩ := hahead
  rw [← List.getElem?_drop, htail, List.getElem?_append_left hi]

theorem byte (hahead : Ahead ipBuffer optEnd o rest) {i : Nat} (hi : i < rest.length) :
    byteAt ipBuffer (o + i) = byteAt rest i := by
  rw [byteAt, byteAt, List.getD_eq_getElem?_getD, List.getD_eq_getElem?_getD, hahead.get hi]

theorem behind (chunk : Bytes) {rest : Bytes} (hahead : Ahead ipBuffer optEnd o (chunk ++ rest)) :
    Ahead ipBuffer optEnd (o + chunk.length) rest := by
  obtain ⟨hend, tail, htail⟩ := hahead
  constructor
  · rw [hend, List.length_append, Nat.add_assoc]
  · refine ⟨tail, ?_⟩
    rw [← List.drop_drop, htail, List.append_assoc, List.drop_left]

theorem option {kind len : UInt8} (body : Bytes)
    (hahead : Ahead ipBuffer optEnd o (kind :: len :: body ++ rest)) (hstop : kind ≠ 0)
    (hnop : kind ≠ 1) (hlen : len.toNat = body.length + 2) :
    optionsFrom ipBuffer optEnd o found =
        optionsFrom ipBuffer optEnd (o + (kind :: len :: body).length)
          (found.read ipBuffer o kind len.toNat) ∧
      Ahead ipBuffer optEnd (o + (kind :: len :: body).length) rest := by
  have htwo : 1 < (kind :: len :: body ++ rest).length := by
    simp only [List.cons_append, List.length_cons]
    omega
  have hkind : byteAt ipBuffer o = kind := hahead.byte (i := 0) (by omega)
  have hlength : ipBuffer[o + 1]? = some len := hahead.get htwo
  have hsize : (kind :: len :: body).length = len.toNat := by
    rw [hlen]
    rfl
  have hbehind := hahead.behind (kind :: len :: body)
  rw [hsize] at hbehind ⊢
  have hroom : o + len.toNat ≤ optEnd := by
    have hend := hbehind.1
    omega
  refine ⟨?_, hbehind⟩
  rw [optionsFrom_option (hkind ▸ hstop) (hkind ▸ hnop) hlength (by omega) hroom, hkind]

theorem uint16 (hahead : Ahead ipBuffer optEnd o rest) {i : Nat} (hi : i + 1 < rest.length) :
    uint16At ipBuffer (o + i) = uint16At rest i := by
  rw [uint16At, uint16At, Nat.add_assoc, hahead.byte (by omega), hahead.byte hi]

theorem uint32 (hahead : Ahead ipBuffer optEnd o rest) {i : Nat} (hi : i + 3 < rest.length) :
    uint32At ipBuffer (o + i) = uint32At rest i := by
  simp only [uint32At, Nat.add_assoc]
  rw [hahead.byte (by omega), hahead.byte (by omega), hahead.byte (by omega), hahead.byte hi]

theorem nop (hahead : Ahead ipBuffer optEnd o (1 :: rest)) :
    optionsFrom ipBuffer optEnd o found = optionsFrom ipBuffer optEnd (o + 1) found ∧
      Ahead ipBuffer optEnd (o + 1) rest := by
  have hend := hahead.1
  have hkind : byteAt ipBuffer o = 1 := hahead.byte (i := 0) (Nat.succ_pos _)
  rw [List.length_cons] at hend
  exact ⟨optionsFrom_nop (by omega) hkind, hahead.behind [1]⟩

theorem mss (found : SynOptions) {mss : Option Nat}
    (hahead : Ahead ipBuffer optEnd o (mssChunk mss ++ rest)) :
    ∃ next, Ahead ipBuffer optEnd next rest ∧
      optionsFrom ipBuffer optEnd o found =
        optionsFrom ipBuffer optEnd next { found with mss := some (answeredMss mss) } := by
  have hsmall : answeredMss mss < 65536 := by
    unfold answeredMss
    omega
  have hvalue : uint16At ipBuffer (o + 2) = answeredMss mss := by
    rw [hahead.uint16 (by
      rw [List.length_append]
      change 2 + 1 < 4 + rest.length
      omega)]
    exact toUInt16_ofNat hsmall
  obtain ⟨hturn, hnext⟩ := option (ofUInt16 (answeredMss mss)) hahead (by decide) (by decide) rfl
  refine ⟨_, hnext, hturn.trans ?_⟩
  rw [SynOptions.read, if_pos ⟨rfl, by decide⟩, hvalue]

theorem sack (found : SynOptions) {sackPerm : Bool} (hfresh : found.sackPerm = false)
    (hahead : Ahead ipBuffer optEnd o (sackChunk sackPerm ++ rest)) :
    ∃ next, Ahead ipBuffer optEnd next rest ∧
      optionsFrom ipBuffer optEnd o found =
        optionsFrom ipBuffer optEnd next { found with sackPerm } := by
  cases sackPerm with
  | false =>
    refine ⟨o, hahead, ?_⟩
    rw [← hfresh]
  | true =>
    obtain ⟨hturn, hnext⟩ := option [] hahead (by decide) (by decide) rfl
    exact ⟨_, hnext, hturn⟩

theorem timestamp (found : SynOptions) {seconds : Nat} {tsval : Option Nat}
    (hfresh : found.tsval = none)
    (hahead : Ahead ipBuffer optEnd o (timestampChunk seconds tsval ++ rest)) :
    ∃ next, Ahead ipBuffer optEnd next rest ∧
      optionsFrom ipBuffer optEnd o found =
        optionsFrom ipBuffer optEnd next
          { found with tsval := tsval.map fun _ => toUint32 seconds } := by
  cases tsval with
  | none =>
    refine ⟨o, hahead, ?_⟩
    rw [Option.map_none, ← hfresh]
  | some tsval =>
    have hvalue : uint32At ipBuffer (o + 2) = toUint32 seconds := by
      rw [hahead.uint32 (by
        rw [List.length_append]
        change 2 + 3 < 10 + rest.length
        omega)]
      exact toUInt32_ofNat (toUint32_lt seconds)
    obtain ⟨hturn, hnext⟩ := option (ofUInt32 (toUint32 seconds) ++ ofUInt32 (toUint32 tsval)) hahead
      (by decide) (by decide) rfl
    refine ⟨_, hnext, hturn.trans ?_⟩
    rw [← hvalue]
    rfl

theorem wscale (found : SynOptions) {wscale : Option Nat} (hfresh : found.wscale = none)
    (hahead : Ahead ipBuffer optEnd o (wscaleChunk wscale ++ rest)) :
    ∃ next, Ahead ipBuffer optEnd next rest ∧
      optionsFrom ipBuffer optEnd o found =
        optionsFrom ipBuffer optEnd next { found with wscale := wscale.filter (· ≤ 14) } := by
  have habsent : wscaleChunk wscale = [] → wscale.filter (· ≤ 14) = none →
      ∃ next, Ahead ipBuffer optEnd next rest ∧
        optionsFrom ipBuffer optEnd o found =
          optionsFrom ipBuffer optEnd next { found with wscale := wscale.filter (· ≤ 14) } := by
    intro hchunk hfilter
    rw [hchunk] at hahead
    refine ⟨o, hahead, ?_⟩
    rw [hfilter, ← hfresh]
  rcases wscale with _ | wscale
  · exact habsent rfl rfl
  by_cases hsmall : wscale ≤ 14
  case neg => exact habsent (if_neg hsmall) (by simp [Option.filter, hsmall])
  rw [wscaleChunk, if_pos hsmall] at hahead
  obtain ⟨hnop1, hahead⟩ := nop hahead
  obtain ⟨hnop2, hahead⟩ := nop hahead
  obtain ⟨hnop3, hahead⟩ := nop hahead
  obtain ⟨hnop4, hahead⟩ := nop hahead
  have hvalue : (byteAt ipBuffer (o + 1 + 1 + 1 + 1 + 2)).toNat = wscale := by
    rw [hahead.byte (by simp)]
    exact toNat_ofNat (by omega)
  obtain ⟨hturn, hnext⟩ := option [UInt8.ofNat wscale] hahead (by decide) (by decide) rfl
  refine ⟨_, hnext, hnop1.trans (hnop2.trans (hnop3.trans (hnop4.trans (hturn.trans ?_))))⟩
  have hread : found.read ipBuffer (o + 1 + 1 + 1 + 1) 3 (3 : UInt8).toNat =
      { found with wscale := some wscale } := by
    simp [SynOptions.read, hvalue, hsmall]
  rw [hread]
  simp [Option.filter, hsmall]

theorem zeros {count : Nat} (hahead : Ahead ipBuffer optEnd o (List.replicate count 0)) :
    optionsFrom ipBuffer optEnd o found = found := by
  rcases count with _ | count
  · exact optionsFrom_end (Nat.le_of_eq hahead.1)
  have hend := hahead.1
  rw [List.length_replicate] at hend
  exact optionsFrom_zero (by omega) (hahead.byte (i := 0) (by simp))

end Ahead

theorem optionsFrom_synAck {seconds : Nat} {negotiation : SynOptions}
    (hahead : Ahead ipBuffer optEnd o (buildSynAckOptions seconds negotiation)) :
    optionsFrom ipBuffer optEnd o .empty =
      { mss := some (answeredMss negotiation.mss)
        wscale := negotiation.wscale.filter (· ≤ 14)
        sackPerm := negotiation.sackPerm
        tsval := negotiation.tsval.map fun _ => toUint32 seconds } := by
  rw [buildSynAckOptions] at hahead
  simp only [List.append_assoc] at hahead
  let mss := some (answeredMss negotiation.mss)
  let tsval := negotiation.tsval.map fun _ => toUint32 seconds
  obtain ⟨_, hahead, hmss⟩ := hahead.mss .empty
  obtain ⟨_, hahead, hsack⟩ := hahead.sack ⟨mss, none, false, none⟩ rfl
  obtain ⟨_, hahead, htimestamp⟩ :=
    hahead.timestamp ⟨mss, none, negotiation.sackPerm, none⟩ rfl
  obtain ⟨_, hahead, hwscale⟩ := hahead.wscale ⟨mss, none, negotiation.sackPerm, tsval⟩ rfl
  exact hmss.trans (hsack.trans (htimestamp.trans (hwscale.trans hahead.zeros)))

end Chunks

end Meshpn.Network.IpPackets
