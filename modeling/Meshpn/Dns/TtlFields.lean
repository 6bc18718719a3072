import Meshpn.Dns.Parsing

/-!
Ageing rewrites four bytes of every record that is not an OPT record. The fields do not
overlap, and no name's own bytes and no data lie in them, so that what is written can be
said from the message before the first write.
-/

namespace Meshpn.Dns.Wire

open Meshpn.Lib Meshpn.Lib.Fallible Meshpn.Lib.DomainName

def TtlByte (records : List Record) (i : Nat) : Prop :=
  ∃ rr ∈ records, rr.type ≠ 41 ∧ rr.offset ≤ i + 6 ∧ i + 2 < rr.offset

/-- The message holds the same bytes, those of the TTLs apart. -/
structure SameOutside (records : List Record) (packet other : Bytes) : Prop where
  length : other.length = packet.length
  bytes : ∀ i, ¬ TtlByte records i → other[i]? = packet[i]?

section Tiles

variable {packet : Bytes} {pos stop last i : Nat} {rr : Record} {records : List Record}

theorem Tiles.range (h : Tiles packet pos records last) :
    pos ≤ last ∧ ∀ rr ∈ records, pos + 11 ≤ rr.offset ∧ rr.offset + rr.length ≤ last := by
  induction h with
  | nil => exact ⟨le_rfl, fun rr hrr => by cases hrr⟩
  | cons hname hrecord _ ih =>
    have hbehind := hname.behind
    have hoffset := hrecord.offset
    refine ⟨by omega, fun other hother => ?_⟩
    rcases List.mem_cons.mp hother with rfl | hother
    · exact ⟨by omega, ih.1⟩
    · have hrange := ih.2 other hother
      exact ⟨by omega, hrange.2⟩

theorem Tiles.inside (h : Tiles packet pos records last) :
    ∀ rr ∈ records, rr.offset + rr.length ≤ packet.length := by
  induction h with
  | nil => exact fun rr hrr => by cases hrr
  | cons _ hrecord _ ih =>
    intro other hother
    rcases List.mem_cons.mp hother with rfl | hother
    · exact hrecord.inside
    · exact ih other hother

theorem Tiles.ttl_range (h : Tiles packet pos records last) (hi : TtlByte records i) :
    pos < i ∧ i < last := by
  obtain ⟨rr, hrr, -, hlow, hhigh⟩ := hi
  have hrange := h.range.2 rr hrr
  omega

theorem Tiles.own_ttl (hrest : Tiles packet (rr.offset + rr.length) records last)
    (hhigh : i < rr.offset + rr.length) (hi : TtlByte (rr :: records) i) :
    rr.type ≠ 41 ∧ rr.offset ≤ i + 6 ∧ i + 2 < rr.offset := by
  obtain ⟨other, hother, hfield⟩ := hi
  rcases List.mem_cons.mp hother with rfl | hother
  · exact hfield
  · have hrange := hrest.ttl_range ⟨other, hother, hfield⟩
    omega

theorem Tiles.own_bytes {other : Bytes} (hrest : Tiles packet (rr.offset + rr.length) records last)
    (hsame : ∀ i, pos ≤ i → i < last → ¬ TtlByte (rr :: records) i → other[i]? = packet[i]?)
    (hlow : pos ≤ i) (hhigh : i < rr.offset + rr.length)
    (hfield : rr.type ≠ 41 → i + 6 < rr.offset ∨ rr.offset ≤ i + 2) :
    other[i]? = packet[i]? := by
  have hend := hrest.range.1
  refine hsame i hlow (by omega) fun hi => ?_
  obtain ⟨htype, hplace⟩ := hrest.own_ttl hhigh hi
  have hside := hfield htype
  omega

theorem ttlByte_cons_of_behind (hlow : rr.offset + rr.length ≤ i) (h : ¬ TtlByte records i) :
    ¬ TtlByte (rr :: records) i := by
  rintro ⟨other, hother, hfield⟩
  rcases List.mem_cons.mp hother with rfl | hother
  · omega
  · exact h ⟨other, hother, hfield⟩

theorem Tiles.data (h : Tiles packet pos records last) (hrr : rr ∈ records)
    (hlow : rr.offset ≤ i) (hhigh : i < rr.offset + rr.length) : ¬ TtlByte records i := by
  induction h with
  | nil => cases hrr
  | @cons pos stop last first rest hname hrecord hrest ih =>
    rcases List.mem_cons.mp hrr with rfl | hrr
    · intro hi
      have hown := hrest.own_ttl hhigh hi
      omega
    · have hrange := hrest.range.2 rr hrr
      exact ttlByte_cons_of_behind (by omega) (ih hrr)

end Tiles

section Write

variable {packet : Bytes} {i j n : Nat}

theorem readUInt32_congr {other : Bytes} (h : ∀ k, k < 4 → packet[i + k]? = other[i + k]?) :
    readUInt32 packet i = readUInt32 other i := by
  have hhigh : readUInt16 packet i = readUInt16 other i :=
    readUInt16_congr (h 0 (by omega)) (h 1 (by omega))
  have hlow : readUInt16 packet (i + 2) = readUInt16 other (i + 2) :=
    readUInt16_congr (h 2 (by omega)) (h 3 (by omega))
  rw [readUInt32, readUInt32, hhigh, hlow]

theorem readUInt32_writeUInt32 (hroom : i + 4 ≤ packet.length) (hn : n < 4294967296) :
    readUInt32 (writeUInt32 packet i n) i = .ok n := by
  have hbyte : ∀ k, k < 4 → (writeUInt32 packet i n)[i + k]? = (Bytes.ofUInt32 n)[k]? :=
    fun k hk => writeAt_inside (by omega) (by simpa using hk)
  have h0 : (writeUInt32 packet i n)[i]? = some (UInt8.ofNat (n / 65536 / 256)) := hbyte 0 (by omega)
  have h1 : (writeUInt32 packet i n)[i + 1]? = some (UInt8.ofNat (n / 65536 % 256)) :=
    hbyte 1 (by omega)
  have h2 : (writeUInt32 packet i n)[i + 2]? = some (UInt8.ofNat (n % 65536 / 256)) :=
    hbyte 2 (by omega)
  have h3 : (writeUInt32 packet i n)[i + 2 + 1]? = some (UInt8.ofNat (n % 65536 % 256)) :=
    hbyte 3 (by omega)
  simp only [readUInt32, readUInt16, byteAt, h0, h1, h2, h3]
  exact congrArg Except.ok (Bytes.toUInt32_ofNat hn)

theorem writeUInt32_length (hroom : i + 4 ≤ packet.length) :
    (writeUInt32 packet i n).length = packet.length :=
  writeAt_length (by rw [Bytes.ofUInt32_length]; exact hroom)

theorem writeUInt32_outside (hroom : i + 4 ≤ packet.length) (hj : j < i ∨ i + 4 ≤ j) :
    (writeUInt32 packet i n)[j]? = packet[j]? :=
  hj.elim (writeAt_before (by omega)) fun hj => writeAt_behind (by omega) hj

theorem readUInt32_bytes {other : Bytes} (h : readUInt32 packet i = .ok n)
    (h' : readUInt32 other i = .ok n) {k : Nat} (hk : k < 4) :
    packet[i + k]? = other[i + k]? := by
  simp only [readUInt32, readUInt16, bind_eq_ok, pure_eq_ok, byteAt_eq_ok] at h h'
  obtain ⟨_, ⟨_, ⟨a0, h0, rfl⟩, _, ⟨a1, h1, rfl⟩, rfl⟩, _, ⟨_, ⟨a2, h2, rfl⟩, _, ⟨a3, h3, rfl⟩,
    rfl⟩, hn⟩ := h
  obtain ⟨_, ⟨_, ⟨b0, h0', rfl⟩, _, ⟨b1, h1', rfl⟩, rfl⟩, _, ⟨_, ⟨b2, h2', rfl⟩, _,
    ⟨b3, h3', rfl⟩, rfl⟩, hn'⟩ := h'
  have ha0 := a0.toNat_lt
  have ha1 := a1.toNat_lt
  have ha2 := a2.toNat_lt
  have ha3 := a3.toNat_lt
  have hb0 := b0.toNat_lt
  have hb1 := b1.toNat_lt
  have hb2 := b2.toNat_lt
  have hb3 := b3.toNat_lt
  have h0eq : a0 = b0 := UInt8.toNat_inj.mp (by omega)
  have h1eq : a1 = b1 := UInt8.toNat_inj.mp (by omega)
  have h2eq : a2 = b2 := UInt8.toNat_inj.mp (by omega)
  have h3eq : a3 = b3 := UInt8.toNat_inj.mp (by omega)
  obtain rfl | rfl | rfl | rfl : k = 0 ∨ k = 1 ∨ k = 2 ∨ k = 3 := by omega
  · rw [Nat.add_zero, h0, h0', h0eq]
  · rw [h1, h1', h1eq]
  · rw [h2, h2', h2eq]
  · exact h3.trans (h3eq ▸ h3'.symm)

end Write

/-- The message with a new TTL for every record that is not an OPT record. -/
def writeTtls (value : Record → Nat) (packet : Bytes) (records : List Record) : Bytes :=
  records.foldl (fun packet rr =>
    if rr.type = 41 then packet else writeUInt32 packet (rr.offset - 6) (value rr)) packet

section WriteTtls

variable {packet other : Bytes} {value : Record → Nat} {records : List Record}

/-- Every record has its fixed fields in front of its data, which lies in the message. -/
def Placed (records : List Record) (packet : Bytes) : Prop :=
  ∀ rr ∈ records, 11 ≤ rr.offset ∧ rr.offset ≤ packet.length

theorem Tiles.placed {pos last : Nat} (h : Tiles packet pos records last) :
    Placed records packet := fun rr hrr => by
  have hrange := h.range.2 rr hrr
  have hinside := h.inside rr hrr
  omega

theorem SameOutside.refl (records : List Record) (packet : Bytes) :
    SameOutside records packet packet := ⟨rfl, fun _ _ => rfl⟩

theorem SameOutside.trans {third : Bytes} (h : SameOutside records packet other)
    (h' : SameOutside records other third) : SameOutside records packet third :=
  ⟨h'.length.trans h.length, fun i hi => (h'.bytes i hi).trans (h.bytes i hi)⟩

theorem SameOutside.mono {more : List Record} (hmore : ∀ rr ∈ records, rr ∈ more)
    (h : SameOutside records packet other) : SameOutside more packet other := by
  refine ⟨h.length, fun i hi => h.bytes i fun hfield => hi ?_⟩
  obtain ⟨rr, hrr, hplace⟩ := hfield
  exact ⟨rr, hmore rr hrr, hplace⟩

theorem sameOutside_write {rr : Record} (hrr : rr ∈ records) (htype : rr.type ≠ 41)
    (hlow : 11 ≤ rr.offset) (hhigh : rr.offset ≤ packet.length) (n : Nat) :
    SameOutside records packet (writeUInt32 packet (rr.offset - 6) n) := by
  refine ⟨writeUInt32_length (by omega), fun i hi => writeUInt32_outside (by omega) ?_⟩
  by_contra hin
  exact hi ⟨rr, hrr, htype, by omega, by omega⟩

theorem writeTtls_outside (h : Placed records packet) :
    SameOutside records packet (writeTtls value packet records) := by
  induction records generalizing packet with
  | nil => exact .refl _ _
  | cons rr rest ih =>
    obtain ⟨hlow, hhigh⟩ := h rr List.mem_cons_self
    rw [writeTtls, List.foldl_cons]
    split
    case isTrue =>
      exact (ih fun other hother => h other (List.mem_cons_of_mem _ hother)).mono
        fun other hother => List.mem_cons_of_mem _ hother
    case isFalse htype =>
      have hwrite := sameOutside_write (List.mem_cons_self (a := rr) (l := rest)) htype hlow hhigh
        (value rr)
      refine hwrite.trans ((ih fun other hother => ?_).mono
        fun other hother => List.mem_cons_of_mem _ hother)
      rw [hwrite.length]
      exact h other (List.mem_cons_of_mem _ hother)

theorem writeTtls_value {pos last : Nat} (h : Tiles packet pos records last)
    (hvalue : ∀ rr, value rr < 4294967296) (hlength : other.length = packet.length) {rr : Record}
    (hrr : rr ∈ records) (htype : rr.type ≠ 41) :
    readUInt32 (writeTtls value other records) (rr.offset - 6) = .ok (value rr) := by
  induction h generalizing other with
  | nil => cases hrr
  | @cons pos stop last first rest hname hrecord hrest ih =>
    have hroom := hrecord.inside
    have hplaced : Placed rest other := fun rr hrr => hlength ▸ hrest.placed rr hrr
    rw [writeTtls, List.foldl_cons]
    rcases List.mem_cons.mp hrr with rfl | hrr
    · rw [if_neg htype]
      have hoffset := hrecord.offset
      have hwritten : (writeUInt32 other (rr.offset - 6) (value rr)).length = other.length :=
        writeUInt32_length (by omega)
      have hrest' : SameOutside rest (writeUInt32 other (rr.offset - 6) (value rr))
          (writeTtls value (writeUInt32 other (rr.offset - 6) (value rr)) rest) :=
        writeTtls_outside fun rr hrr => hwritten ▸ hplaced rr hrr
      refine (readUInt32_congr fun k hk => hrest'.bytes _ fun hi => ?_).trans
        (readUInt32_writeUInt32 (by omega) (hvalue rr))
      have hrange := hrest.ttl_range hi
      omega
    · split
      case isTrue => exact ih hlength hrr
      case isFalse =>
        have hoffset := hrecord.offset
        exact ih ((writeUInt32_length (by omega)).trans hlength) hrr

theorem SameOutside.ext {left right : Bytes} {pos last : Nat}
    (h : Tiles packet pos records last)
    (hleft : SameOutside records packet left) (hright : SameOutside records packet right)
    (hvalue : ∀ rr ∈ records, rr.type ≠ 41 →
      ∃ n, readUInt32 left (rr.offset - 6) = .ok n ∧ readUInt32 right (rr.offset - 6) = .ok n) :
    left = right := by
  apply List.ext_getElem?
  intro i
  by_cases hi : TtlByte records i
  · obtain ⟨rr, hrr, htype, hlow, hhigh⟩ := hi
    obtain ⟨n, hn, hn'⟩ := hvalue rr hrr htype
    have hplaced := h.placed rr hrr
    have hbyte := readUInt32_bytes hn hn' (show i - (rr.offset - 6) < 4 by omega)
    rwa [show rr.offset - 6 + (i - (rr.offset - 6)) = i by omega] at hbyte
  · rw [hleft.bytes i hi, hright.bytes i hi]

end WriteTtls

end Meshpn.Dns.Wire
