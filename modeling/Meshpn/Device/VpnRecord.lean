import Meshpn.Lib.Buffer

/-!
The stored settings of the tunnel, `meshvpn_config_load_vpn`. Older records are a prefix
of the newest one; the first two versions are kept apart, and brought over member by
member. What the store holds is arbitrary.

What is loaded comes from the newest record that is there, and from nothing else:
members that this record does not have are what the defaults make of them.
-/

namespace Meshpn.Device.VpnRecord

open Meshpn.Lib Meshpn.Lib.Regions List

/-- The members of `meshvpn_vpn_config_t`. -/
inductive Field where
  | server | tlsServerName | transport | enabled
  | wgPrivateKey | wgPublicKey | wgPresharedKey | wgAddress | wgDns | wgKeepalive
  | allowDirect | reservedV3Padding | wgAddressInput
  deriving DecidableEq, Repr

def Field.size : Field → Nat
  | .server => 129
  | .tlsServerName => 129
  | .transport => 32
  | .enabled => 1
  | .wgPrivateKey => 45
  | .wgPublicKey => 45
  | .wgPresharedKey => 45
  | .wgAddress => 16
  | .wgDns => 16
  | .wgKeepalive => 2
  | .allowDirect => 1
  | .reservedV3Padding => 1
  | .wgAddressInput => 160

/-- `offsetof`; no member needs padding in front of it. -/
def Field.offset : Field → Nat
  | .server => 0
  | .tlsServerName => 129
  | .transport => 258
  | .enabled => 290
  | .wgPrivateKey => 291
  | .wgPublicKey => 336
  | .wgPresharedKey => 381
  | .wgAddress => 426
  | .wgDns => 442
  | .wgKeepalive => 458
  | .allowDirect => 460
  | .reservedV3Padding => 461
  | .wgAddressInput => 462

/-- `sizeof(meshvpn_vpn_config_t)`. -/
def sizeofConfig : Nat := 622

def Field.read (f : Field) (record : Bytes) : Bytes := region f.offset f.size record

def Field.write (f : Field) (bytes record : Bytes) : Bytes := put f.offset bytes record

/-- `memchr(member, 0, sizeof(member))`. -/
def Field.ends (f : Field) (record : Bytes) : Bool := (f.read record).contains 0

inductive Err where
  | notFound | invalidLength | other
  deriving DecidableEq, Repr

/-- What is stored under a key, or why it cannot be read. Texts are stored with a terminator. -/
structure Nvs where
  blob : String → Except Err Bytes
  str : String → Except Err { s : Bytes // (0 : UInt8) ∉ s }
  u8 : String → Except Err UInt8

/-- `nvs_get_blob`, with so much room. -/
def getBlob (nvs : Nvs) (key : String) (room : Nat) : Except Err Bytes := do
  let bytes ← nvs.blob key
  if bytes.length ≤ room then return bytes else throw .invalidLength

/-- `nvs_get_str`. -/
def getStr (nvs : Nvs) (key : String) (room : Nat) : Except Err Bytes := do
  let s ← nvs.str key
  if s.val.length + 1 ≤ room then return s.val ++ [0] else throw .invalidLength

inductive Status where
  | espOk | espFail
  deriving DecidableEq, Repr

def tcp : Bytes := [116, 99, 112]

def socket : Bytes := [115, 111, 99, 107, 101, 116]

def legacyUnsupported : Bytes :=
  [108, 101, 103, 97, 99, 121, 45, 117, 110, 115, 117, 112, 112, 111, 114, 116, 101, 100]

/-- `"1.1.1.1"`. -/
def publicDns : Bytes := [49, 46, 49, 46, 49, 46, 49]

def zeros : Bytes := List.replicate sizeofConfig 0

def strcpy (f : Field) (s record : Bytes) : Bytes := f.write (s ++ [0]) record

def socketAsTcp (out : Bytes) : Bytes :=
  if text (Field.transport.read out) = socket then strcpy .transport tcp out else out

/-- The newest of the records that are prefixes of the structure, and the length that is expected. -/
def readRecord (nvs : Nvs) : Nat × Except Err Bytes :=
  match getBlob nvs "vpn_cfg4" sizeofConfig with
  | .error .notFound =>
    match getBlob nvs "vpn_cfg3" Field.wgAddressInput.offset with
    | .error .notFound =>
      (Field.allowDirect.offset, getBlob nvs "vpn_cfg2" Field.allowDirect.offset)
    | read => (Field.wgAddressInput.offset, read)
  | read => (sizeofConfig, read)

/-- The members that are searched for a terminator. -/
def checked : List Field :=
  [.server, .transport, .wgPrivateKey, .wgPublicKey, .wgPresharedKey, .wgAddress, .wgDns,
    .wgAddressInput]

/-- What older settings start from. -/
def oldDefaults : Bytes := Field.wgKeepalive.write [25, 0] (strcpy .wgDns publicDns zeros)

/-- `sizeof(old)`: its members are the first four of the structure, with the same sizes. -/
def sizeofOld : Nat := 291

/-- A text that was stored by itself; where it cannot be read, the member is empty. -/
def loadText (nvs : Nvs) (key : String) (f : Field) (out : Bytes) : Bytes :=
  match getStr nvs key f.size with
  | .error _ => f.write [0] out
  | .ok s => f.write s out

def loadTransport (out : Bytes) : Except Err Bytes → Bytes
  | .error _ => strcpy .transport tcp out
  | .ok s => socketAsTcp (Field.transport.write s out)

/-- The flag that was stored by itself. -/
def storedEnable (nvs : Nvs) : UInt8 :=
  match nvs.u8 "vpn_en" with
  | .error _ => 0
  | .ok en => en

/-- An old flag without a transport is no consent to plaintext. -/
def refuseLegacy (en : UInt8) (out : Bytes) : Except Err Bytes → Bytes
  | .error _ => if en != 0 then strcpy .transport legacyUnsupported out else out
  | .ok _ => out

/-- The settings that were stored one by one. -/
def loadStrings (nvs : Nvs) (out : Bytes) : Bytes :=
  let out := Field.transport.write (tcp ++ List.replicate 28 0) out
  let transport := getStr nvs "vpn_transport" Field.transport.size
  let out := loadTransport out transport
  let out := loadText nvs "vpn_server" .server out
  let out := loadText nvs "vpn_sni" .tlsServerName out
  let en := storedEnable nvs
  let out := Field.enabled.write [if en != 0 then 1 else 0] out
  refuseLegacy en out transport

/-- The record of the first version, and what was there before it. -/
def loadOld (nvs : Nvs) : Status × Bytes :=
  let out := oldDefaults
  match getBlob nvs "vpn_cfg1" sizeofOld with
  | .ok old =>
    if old.length == sizeofOld && Field.server.ends old && Field.transport.ends old then
      let out := Field.server.write (Field.server.read old) out
      let out := Field.tlsServerName.write (Field.tlsServerName.read old) out
      let out := Field.transport.write (Field.transport.read old) out
      let out := Field.enabled.write (Field.enabled.read old) out
      (.espOk, socketAsTcp out)
    else (.espFail, out)
  | .error .notFound => (.espOk, loadStrings nvs out)
  | .error _ => (.espFail, out)

/-- `meshvpn_config_load_vpn`: what it returns, and the structure afterwards. -/
def loadVpn (nvs : Nvs) : Status × Bytes :=
  let (expected, read) := readRecord nvs
  match read with
  | .ok record =>
    let out := put 0 record zeros
    if record.length == expected && checked.all (·.ends out) then (.espOk, socketAsTcp out)
    else (.espFail, out)
  | .error .notFound => loadOld nvs
  | .error _ => (.espFail, zeros)

theorem Field.fits (f : Field) : f.offset + f.size ≤ sizeofConfig := by
  cases f <;> decide

theorem Field.apart {f g : Field} (h : f ≠ g) :
    f.offset + f.size ≤ g.offset ∨ g.offset + g.size ≤ f.offset := by
  revert h
  cases f <;> cases g <;> decide

section Write

variable {f g : Field} {bytes record : Bytes}

theorem write_length (hrecord : record.length = sizeofConfig) (hbytes : bytes.length ≤ f.size) :
    (f.write bytes record).length = sizeofConfig := by
  have hfits := f.fits
  rw [Field.write, put_length (by omega), hrecord]

theorem read_write_other (hrecord : record.length = sizeofConfig) (hbytes : bytes.length ≤ g.size)
    (h : f ≠ g) : f.read (g.write bytes record) = f.read record := by
  have hfits := g.fits
  rcases Field.apart h with hbefore | hbehind
  · exact region_put_before (by omega) hbefore
  · exact region_put_behind (by omega) (by omega)

theorem read_write_same (hrecord : record.length = sizeofConfig) (hbytes : bytes.length ≤ f.size) :
    f.read (f.write bytes record) =
      bytes ++ region (f.offset + bytes.length) (f.size - bytes.length) record := by
  have hfits := f.fits
  exact region_put_start (by omega) hbytes

theorem read_write_whole (hrecord : record.length = sizeofConfig) (hbytes : bytes.length = f.size) :
    f.read (f.write bytes record) = bytes := by
  rw [read_write_same hrecord (by omega), hbytes, Nat.sub_self]
  exact append_nil bytes

theorem strcpy_text {s : Bytes} (hrecord : record.length = sizeofConfig) (hs : (0 : UInt8) ∉ s)
    (hfits : s.length < f.size) :
    text (f.read (strcpy f s record)) = s ∧ f.ends (strcpy f s record) = true := by
  have hlength : (s ++ [0]).length ≤ f.size := by
    rw [length_append]
    exact hfits
  have hread := @read_write_same f (s ++ [0]) record hrecord hlength
  rw [append_assoc, singleton_append] at hread
  constructor
  · rw [strcpy, hread, text_stored hs]
  · rw [Field.ends, strcpy, hread, contains_eq_mem, decide_eq_true_eq]
    exact mem_append_right _ mem_cons_self

end Write

theorem zeros_length : zeros.length = sizeofConfig := length_replicate

section Transport

variable {out : Bytes} (hout : out.length = sizeofConfig)

include hout

theorem socketAsTcp_length : (socketAsTcp out).length = sizeofConfig := by
  unfold socketAsTcp
  split
  · exact write_length hout (by decide)
  · exact hout

theorem socketAsTcp_other {f : Field} (h : f ≠ .transport) :
    f.read (socketAsTcp out) = f.read out := by
  unfold socketAsTcp
  split
  · exact read_write_other hout (by decide) h
  · rfl

theorem socketAsTcp_ends {f : Field} (h : f.ends out = true) : f.ends (socketAsTcp out) = true := by
  by_cases heq : f = .transport
  · subst heq
    unfold socketAsTcp
    split
    · exact (strcpy_text hout (by decide) (by decide)).2
    · exact h
  · rw [Field.ends, socketAsTcp_other hout heq]
    exact h

end Transport

theorem socketAsTcp_tcp {out : Bytes} (h : text (Field.transport.read (socketAsTcp out)) = tcp) :
    text (Field.transport.read out) = tcp ∨ text (Field.transport.read out) = socket := by
  unfold socketAsTcp at h
  split at h
  case isTrue hsocket => exact .inr hsocket
  case isFalse => exact .inl h

inductive Version where
  | v4 | v3 | v2 | v1
  deriving DecidableEq, Repr

def Version.key : Version → String
  | .v4 => "vpn_cfg4"
  | .v3 => "vpn_cfg3"
  | .v2 => "vpn_cfg2"
  | .v1 => "vpn_cfg1"

def Version.length : Version → Nat
  | .v4 => 622
  | .v3 => 462
  | .v2 => 460
  | .v1 => 291

def present (nvs : Nvs) (v : Version) : Bool :=
  match nvs.blob v.key with
  | .error .notFound => false
  | _ => true

def newest (nvs : Nvs) : Option Version := [Version.v4, .v3, .v2, .v1].find? (present nvs)

/-- The members that the record has; without a record they are stored one by one. -/
def Has : Option Version → Field → Prop
  | some v, f => f.offset + f.size ≤ v.length
  | none, f => f = .server ∨ f = .tlsServerName ∨ f = .transport ∨ f = .enabled

def defaults : Option Version → Bytes
  | some .v1 | none => oldDefaults
  | _ => zeros

/-- The text of the transport that was stored. -/
def said (nvs : Nvs) : Option Version → Option Bytes
  | some v =>
    match nvs.blob v.key with
    | .ok record => some (text (Field.transport.read record))
    | .error _ => none
  | none =>
    match nvs.str "vpn_transport" with
    | .ok s => some s.val
    | .error _ => none

/-- What the two stores hold under the names that the version is read from. -/
def SameSource (nvs other : Nvs) : Option Version → Prop
  | some v => nvs.blob v.key = other.blob v.key
  | none => nvs.str = other.str ∧ nvs.u8 = other.u8

/-- What `meshvpn_config_load_vpn` makes of a record of the last three versions. -/
def ofRecord (expected : Nat) : Except Err Bytes → Status × Bytes
  | .ok record =>
    if record.length == expected && checked.all (·.ends (put 0 record zeros)) then
      (.espOk, socketAsTcp (put 0 record zeros))
    else (.espFail, put 0 record zeros)
  | .error _ => (.espFail, zeros)

/-- What is brought over from a record of the first version. -/
def broughtOver (old : Bytes) : Bytes :=
  Field.enabled.write (Field.enabled.read old) <|
    Field.transport.write (Field.transport.read old) <|
      Field.tlsServerName.write (Field.tlsServerName.read old) <|
        Field.server.write (Field.server.read old) oldDefaults

def ofOld : Except Err Bytes → Status × Bytes
  | .ok old =>
    if old.length == sizeofOld && Field.server.ends old && Field.transport.ends old then
      (.espOk, socketAsTcp (broughtOver old))
    else (.espFail, oldDefaults)
  | .error _ => (.espFail, oldDefaults)

theorem getBlob_absent {nvs : Nvs} {v : Version} {room : Nat} (h : present nvs v = false) :
    getBlob nvs v.key room = .error .notFound := by
  have hblob : nvs.blob v.key = .error .notFound := by
    unfold present at h
    split at h
    case h_1 heq => exact heq
    case h_2 => cases h
  rw [getBlob, hblob]
  rfl

theorem getBlob_present {nvs : Nvs} {v : Version} {room : Nat} (h : present nvs v = true) :
    getBlob nvs v.key room ≠ .error .notFound := by
  intro hread
  cases hblob : nvs.blob v.key with
  | ok record =>
    rw [getBlob, hblob] at hread
    change (if _ then _ else _) = _ at hread
    split at hread <;> cases hread
  | error err =>
    rw [getBlob, hblob] at hread
    cases hread
    rw [present, hblob] at h
    cases h

section Newest

variable {nvs : Nvs}

theorem readRecord_v4 (h4 : present nvs .v4 = true) :
    readRecord nvs = (Version.v4.length, getBlob nvs Version.v4.key Version.v4.length) := by
  have hread := @getBlob_present nvs .v4 Version.v4.length h4
  change (match getBlob nvs Version.v4.key Version.v4.length with
    | .error .notFound => _
    | read => (sizeofConfig, read)) = _
  generalize getBlob nvs Version.v4.key Version.v4.length = read at hread ⊢
  rcases read with (_ | _ | _) | _
  case error.notFound => exact absurd rfl hread
  all_goals rfl

theorem readRecord_v3 (h4 : present nvs .v4 = false) (h3 : present nvs .v3 = true) :
    readRecord nvs = (Version.v3.length, getBlob nvs Version.v3.key Version.v3.length) := by
  have habsent := @getBlob_absent nvs .v4 sizeofConfig h4
  have hread := @getBlob_present nvs .v3 Version.v3.length h3
  unfold readRecord
  rw [show getBlob nvs "vpn_cfg4" sizeofConfig = .error .notFound from habsent]
  change (match getBlob nvs Version.v3.key Version.v3.length with
    | .error .notFound => _
    | read => (Field.wgAddressInput.offset, read)) = _
  generalize getBlob nvs Version.v3.key Version.v3.length = read at hread ⊢
  rcases read with (_ | _ | _) | _
  case error.notFound => exact absurd rfl hread
  all_goals rfl

theorem readRecord_v2 (h4 : present nvs .v4 = false) (h3 : present nvs .v3 = false) :
    readRecord nvs = (Version.v2.length, getBlob nvs Version.v2.key Version.v2.length) := by
  unfold readRecord
  rw [show getBlob nvs "vpn_cfg4" sizeofConfig = .error .notFound from getBlob_absent h4]
  rw [show getBlob nvs "vpn_cfg3" Field.wgAddressInput.offset = .error .notFound from
    getBlob_absent h3]
  rfl

theorem loadVpn_record {expected : Nat} {read : Except Err Bytes}
    (hrecord : readRecord nvs = (expected, read)) (hread : read ≠ .error .notFound) :
    loadVpn nvs = ofRecord expected read := by
  unfold loadVpn
  rw [hrecord]
  rcases read with (_ | _ | _) | _
  case error.notFound => exact absurd rfl hread
  all_goals rfl

theorem loadVpn_old (h4 : present nvs .v4 = false) (h3 : present nvs .v3 = false)
    (h2 : present nvs .v2 = false) : loadVpn nvs = loadOld nvs := by
  unfold loadVpn
  rw [readRecord_v2 h4 h3, getBlob_absent h2]

theorem loadOld_v1 (h1 : present nvs .v1 = true) :
    loadOld nvs = ofOld (getBlob nvs Version.v1.key sizeofOld) := by
  have hread := @getBlob_present nvs .v1 sizeofOld h1
  change (match getBlob nvs Version.v1.key sizeofOld with
    | .ok old => _
    | .error .notFound => _
    | .error _ => _) = _
  generalize getBlob nvs Version.v1.key sizeofOld = read at hread ⊢
  rcases read with (_ | _ | _) | _
  case error.notFound => exact absurd rfl hread
  all_goals rfl

theorem loadOld_strings (h1 : present nvs .v1 = false) :
    loadOld nvs = (.espOk, loadStrings nvs oldDefaults) := by
  unfold loadOld
  rw [show getBlob nvs "vpn_cfg1" sizeofOld = .error .notFound from getBlob_absent h1]

end Newest

theorem loadVpn_eq (nvs : Nvs) :
    loadVpn nvs = match newest nvs with
      | none => (.espOk, loadStrings nvs oldDefaults)
      | some .v1 => ofOld (getBlob nvs Version.v1.key sizeofOld)
      | some v => ofRecord v.length (getBlob nvs v.key v.length) := by
  cases h4 : present nvs .v4 with
  | true =>
    rw [newest, find?_cons, h4]
    exact loadVpn_record (readRecord_v4 h4) (getBlob_present h4)
  | false =>
    cases h3 : present nvs .v3 with
    | true =>
      rw [newest, find?_cons, h4, find?_cons, h3]
      exact loadVpn_record (readRecord_v3 h4 h3) (getBlob_present h3)
    | false =>
      cases h2 : present nvs .v2 with
      | true =>
        rw [newest, find?_cons, h4, find?_cons, h3, find?_cons, h2]
        exact loadVpn_record (readRecord_v2 h4 h3) (getBlob_present h2)
      | false =>
        rw [loadVpn_old h4 h3 h2, newest, find?_cons, h4, find?_cons, h3, find?_cons, h2,
          find?_cons]
        cases h1 : present nvs .v1 with
        | true => exact loadOld_v1 h1
        | false => exact loadOld_strings h1

section Record

variable {v : Version} {f : Field} {record : Bytes}

theorem length_le (v : Version) : v.length ≤ sizeofConfig := by
  cases v <;> decide

theorem whole_or_absent (v : Version) (f : Field) :
    f.offset + f.size ≤ v.length ∨ v.length ≤ f.offset := by
  cases v <;> cases f <;> decide

theorem prefix_length (h : record.length = v.length) : (put 0 record zeros).length = sizeofConfig := by
  have hle := length_le v
  rw [put_length (by rw [zeros_length]; omega), zeros_length]

theorem prefix_has (h : record.length = v.length) (hf : Has (some v) f) :
    f.read (put 0 record zeros) = f.read record :=
  region_put_inside (Nat.zero_le _) (Nat.zero_le _) (by
    rw [Nat.zero_add, h]
    exact hf)

theorem prefix_absent (h : record.length = v.length) (hf : ¬Has (some v) f) :
    f.read (put 0 record zeros) = f.read zeros :=
  region_put_behind (Nat.zero_le _) (by
    rw [Nat.zero_add, h]
    exact (whole_or_absent v f).resolve_left hf)

theorem getBlob_ok {nvs : Nvs} {key : String} {room : Nat} (h : getBlob nvs key room = .ok record) :
    nvs.blob key = .ok record := by
  unfold getBlob at h
  rcases hblob : nvs.blob key with err | bytes
  · rw [hblob] at h; cases h
  rw [hblob] at h
  change (if _ then _ else _) = _ at h
  split at h
  case isTrue => exact h
  case isFalse => cases h

theorem ofRecord_ok {expected : Nat} {read : Except Err Bytes} {out : Bytes}
    (h : ofRecord expected read = (.espOk, out)) :
    ∃ record, read = .ok record ∧ record.length = expected ∧
      checked.all (·.ends (put 0 record zeros)) = true ∧ out = socketAsTcp (put 0 record zeros) := by
  unfold ofRecord at h
  split at h
  case h_2 => cases (Prod.mk.inj h).1
  rename_i record
  split at h
  case isFalse => cases (Prod.mk.inj h).1
  case isTrue hchecks =>
    rw [Bool.and_eq_true, beq_iff_eq] at hchecks
    exact ⟨record, rfl, hchecks.1, hchecks.2, (Prod.mk.inj h).2.symm⟩

end Record

section Old

variable {f : Field} {old : Bytes}

theorem oldDefaults_length : oldDefaults.length = sizeofConfig :=
  write_length (write_length zeros_length (by decide)) (by decide)

theorem read_length {record : Bytes} (h : f.offset + f.size ≤ record.length) :
    (f.read record).length = f.size := by
  rw [Field.read, region, length_take, length_drop]
  omega

theorem ofOld_ok {read : Except Err Bytes} {out : Bytes} (h : ofOld read = (.espOk, out)) :
    ∃ old, read = .ok old ∧ old.length = sizeofOld ∧ Field.server.ends old = true ∧
      Field.transport.ends old = true ∧ out = socketAsTcp (broughtOver old) := by
  unfold ofOld at h
  split at h
  case h_2 => cases (Prod.mk.inj h).1
  rename_i old
  split at h
  case isFalse => cases (Prod.mk.inj h).1
  case isTrue hchecks =>
    rw [Bool.and_eq_true, Bool.and_eq_true, beq_iff_eq] at hchecks
    exact ⟨old, rfl, hchecks.1.1, hchecks.1.2, hchecks.2, (Prod.mk.inj h).2.symm⟩

theorem has_v1_iff : Has (some .v1) f ↔
    f = .server ∨ f = .tlsServerName ∨ f = .transport ∨ f = .enabled := by
  unfold Has
  cases f <;> decide

theorem read_length_le (f : Field) (record : Bytes) : (f.read record).length ≤ f.size := by
  rw [Field.read, region, length_take]
  exact Nat.min_le_left _ _

theorem broughtOver_length (old : Bytes) : (broughtOver old).length = sizeofConfig :=
  write_length (write_length (write_length (write_length oldDefaults_length (read_length_le _ _))
    (read_length_le _ _)) (read_length_le _ _)) (read_length_le _ _)

theorem broughtOver_absent (hf : ¬Has (some .v1) f) :
    f.read (broughtOver old) = f.read oldDefaults := by
  rw [has_v1_iff, not_or, not_or, not_or] at hf
  obtain ⟨hserver, hsni, htransport, henabled⟩ := hf
  have hlen := read_length_le
  have h1 := write_length oldDefaults_length (hlen .server old)
  have h2 := write_length h1 (hlen .tlsServerName old)
  have h3 := write_length h2 (hlen .transport old)
  rw [broughtOver, read_write_other h3 (hlen _ _) henabled, read_write_other h2 (hlen _ _) htransport,
    read_write_other h1 (hlen _ _) hsni, read_write_other oldDefaults_length (hlen _ _) hserver]

theorem broughtOver_has (h : old.length = sizeofOld) (hf : Has (some .v1) f) :
    f.read (broughtOver old) = f.read old := by
  have hlen := read_length_le
  have h1 := write_length oldDefaults_length (hlen .server old)
  have h2 := write_length h1 (hlen .tlsServerName old)
  have h3 := write_length h2 (hlen .transport old)
  have hwhole : (f.read old).length = f.size := read_length (by rw [h]; exact hf)
  rcases has_v1_iff.mp hf with rfl | rfl | rfl | rfl
  · rw [broughtOver, read_write_other h3 (hlen _ _) (by decide),
      read_write_other h2 (hlen _ _) (by decide), read_write_other h1 (hlen _ _) (by decide)]
    exact read_write_whole oldDefaults_length hwhole
  · rw [broughtOver, read_write_other h3 (hlen _ _) (by decide),
      read_write_other h2 (hlen _ _) (by decide)]
    exact read_write_whole h1 hwhole
  · rw [broughtOver, read_write_other h3 (hlen _ _) (by decide)]
    exact read_write_whole h2 hwhole
  · exact read_write_whole h3 hwhole

end Old

section Strings

variable {nvs : Nvs} {f g : Field} {key : String} {out s : Bytes}

theorem getStr_ok {room : Nat} (h : getStr nvs key room = .ok s) :
    ∃ value, nvs.str key = .ok value ∧ s = value.val ++ [0] ∧ s.length ≤ room := by
  unfold getStr at h
  rcases hstr : nvs.str key with err | value
  · rw [hstr] at h; cases h
  rw [hstr] at h
  change (if _ then _ else _) = _ at h
  split at h
  case isFalse => cases h
  cases h
  exact ⟨value, rfl, rfl, by rwa [length_append]⟩

theorem loadText_write (nvs : Nvs) (key : String) (f : Field) (out : Bytes) (hsize : 1 ≤ f.size) :
    ∃ s, loadText nvs key f out = f.write s out ∧ s.length ≤ f.size ∧ (0 : UInt8) ∈ s := by
  unfold loadText
  cases hstr : getStr nvs key f.size with
  | error err => exact ⟨[0], rfl, hsize, mem_cons_self⟩
  | ok s =>
    obtain ⟨value, -, rfl, hlength⟩ := getStr_ok hstr
    exact ⟨_, rfl, hlength, mem_append_right _ mem_cons_self⟩

theorem write_ends (hout : out.length = sizeofConfig) (hs : s.length ≤ f.size)
    (hzero : (0 : UInt8) ∈ s) : f.ends (f.write s out) = true := by
  rw [Field.ends, read_write_same hout hs, contains_eq_mem, decide_eq_true_eq]
  exact mem_append_left _ hzero

theorem loadTransport_facts (hout : out.length = sizeofConfig) (read : Except Err Bytes)
    (hread : ∀ s, read = .ok s → s.length ≤ Field.transport.size ∧ (0 : UInt8) ∈ s) :
    (loadTransport out read).length = sizeofConfig ∧
      Field.transport.ends (loadTransport out read) = true ∧
      ∀ f : Field, f ≠ .transport → f.read (loadTransport out read) = f.read out := by
  cases read with
  | error err =>
    exact ⟨write_length hout (by decide), (strcpy_text hout (by decide) (by decide)).2,
      fun f hf => read_write_other hout (by decide) hf⟩
  | ok s =>
    obtain ⟨hlength, hzero⟩ := hread s rfl
    have hwritten := write_length hout hlength
    refine ⟨socketAsTcp_length hwritten, socketAsTcp_ends hwritten (write_ends hout hlength hzero), ?_⟩
    intro f hf
    exact (socketAsTcp_other hwritten hf).trans (read_write_other hout hlength hf)

theorem loadTransport_tcp (hout : out.length = sizeofConfig)
    (hread : getStr nvs key Field.transport.size = .ok s)
    (h : text (Field.transport.read (loadTransport out (.ok s))) = tcp) :
    ∃ value, nvs.str key = .ok value ∧ (value.val = tcp ∨ value.val = socket) := by
  obtain ⟨value, hstr, rfl, hlength⟩ := getStr_ok hread
  have hvalue : value.val.length < Field.transport.size := by
    rw [length_append] at hlength
    exact hlength
  have hsaid := (@strcpy_text .transport out value.val hout value.property hvalue).1
  refine ⟨value, hstr, ?_⟩
  rcases socketAsTcp_tcp h with htcp | hsocket
  · exact .inl (hsaid.symm.trans htcp)
  · exact .inr (hsaid.symm.trans hsocket)

def loadOthers (nvs : Nvs) (en : UInt8) (out : Bytes) : Bytes :=
  Field.enabled.write [if en != 0 then 1 else 0]
    (loadText nvs "vpn_sni" .tlsServerName (loadText nvs "vpn_server" .server out))

theorem loadOthers_facts (nvs : Nvs) (en : UInt8) (hout : out.length = sizeofConfig) :
    (loadOthers nvs en out).length = sizeofConfig ∧
      Field.server.ends (loadOthers nvs en out) = true ∧
      Field.enabled.read (loadOthers nvs en out) = [if en != 0 then 1 else 0] ∧
      ∀ f : Field, f ≠ .server → f ≠ .tlsServerName → f ≠ .enabled →
        f.read (loadOthers nvs en out) = f.read out := by
  obtain ⟨server, hserver, hserverLength, hserverZero⟩ :=
    loadText_write nvs "vpn_server" .server out (by decide)
  obtain ⟨sni, hsni, hsniLength, -⟩ := loadText_write nvs "vpn_sni" .tlsServerName
    (Field.server.write server out) (by decide)
  have h1 := write_length hout hserverLength
  have h2 := write_length h1 hsniLength
  have hflag : [if en != 0 then (1 : UInt8) else 0].length ≤ Field.enabled.size := Nat.le_refl 1
  rw [loadOthers, hserver, hsni]
  refine ⟨write_length h2 hflag, ?_, read_write_whole h2 rfl, ?_⟩
  · rw [Field.ends, read_write_other h2 hflag (by decide), read_write_other h1 hsniLength (by decide)]
    exact write_ends hout hserverLength hserverZero
  · intro f hf hsniNe hen
    rw [read_write_other h2 hflag hen, read_write_other h1 hsniLength hsniNe,
      read_write_other hout hserverLength hf]

theorem refuseLegacy_facts (en : UInt8) (hout : out.length = sizeofConfig) (read : Except Err Bytes) :
    (refuseLegacy en out read).length = sizeofConfig ∧
      (Field.transport.ends out = true → Field.transport.ends (refuseLegacy en out read) = true) ∧
      (∀ f : Field, f ≠ .transport → f.read (refuseLegacy en out read) = f.read out) ∧
      (en ≠ 0 → text (Field.transport.read (refuseLegacy en out read)) = tcp →
        ∃ s, read = .ok s ∧ text (Field.transport.read out) = tcp) := by
  cases read with
  | ok s => exact ⟨hout, id, fun _ _ => rfl, fun _ h => ⟨s, rfl, h⟩⟩
  | error err =>
    unfold refuseLegacy
    dsimp only
    split
    case isFalse hzero =>
      refine ⟨hout, id, fun _ _ => rfl, fun hen => absurd (bne_iff_ne.mpr hen) hzero⟩
    have htext := @strcpy_text .transport out legacyUnsupported hout (by decide) (by decide)
    refine ⟨write_length hout (by decide), fun _ => htext.2,
      fun f hf => read_write_other hout (by decide) hf, fun _ h => ?_⟩
    rw [htext.1] at h
    exact absurd h (by decide)

/-- What the four members are set to that are stored one by one, and that no other is touched. -/
theorem loadStrings_facts (nvs : Nvs) (hout : out.length = sizeofConfig) :
    (loadStrings nvs out).length = sizeofConfig ∧
      (∀ f, ¬Has none f → f.read (loadStrings nvs out) = f.read out) ∧
      Field.server.ends (loadStrings nvs out) = true ∧
      Field.transport.ends (loadStrings nvs out) = true ∧
      (Field.enabled.read (loadStrings nvs out) ≠ [0] →
        text (Field.transport.read (loadStrings nvs out)) = tcp →
        said nvs none = some tcp ∨ said nvs none = some socket) := by
  have hstart := @write_length .transport (tcp ++ List.replicate 28 0) out hout (by decide)
  obtain ⟨read, hread⟩ : ∃ read, getStr nvs "vpn_transport" Field.transport.size = read := ⟨_, rfl⟩
  have hfit : ∀ s, read = .ok s → s.length ≤ Field.transport.size ∧ (0 : UInt8) ∈ s := by
    intro s hs
    obtain ⟨value, -, rfl, hlength⟩ := getStr_ok (hread.trans hs)
    exact ⟨hlength, mem_append_right _ mem_cons_self⟩
  obtain ⟨hlen, hends, hother⟩ := loadTransport_facts hstart read hfit
  obtain ⟨hlast, hserver, henabled, hkept⟩ := loadOthers_facts nvs (storedEnable nvs) hlen
  obtain ⟨hlength, hendsLast, hotherLast, htcp⟩ := refuseLegacy_facts (storedEnable nvs) hlast read
  have htransport := hkept .transport (by decide) (by decide) (by decide)
  have hrun : loadStrings nvs out = refuseLegacy (storedEnable nvs) (loadOthers nvs (storedEnable nvs)
      (loadTransport (Field.transport.write (tcp ++ List.replicate 28 0) out) read)) read := by
    rw [← hread]
    rfl
  rw [hrun]
  refine ⟨hlength, ?_, ?_, ?_, ?_⟩
  · intro f hf
    simp only [Has, not_or] at hf
    rw [hotherLast f hf.2.2.1, hkept f hf.1 hf.2.1 hf.2.2.2, hother f hf.2.2.1,
      read_write_other hout (by decide) hf.2.2.1]
  · rw [Field.ends, hotherLast .server (by decide)]
    exact hserver
  · refine hendsLast ?_
    rw [Field.ends, htransport]
    exact hends
  · intro hflag htext
    rw [hotherLast .enabled (by decide), henabled] at hflag
    have hen : storedEnable nvs ≠ 0 := by
      intro hzero
      rw [hzero] at hflag
      exact hflag rfl
    obtain ⟨s, rfl, hsaid⟩ := htcp hen htext
    rw [htransport] at hsaid
    obtain ⟨value, hstr, hvalue⟩ := loadTransport_tcp hstart hread hsaid
    rw [said, hstr]
    exact hvalue.imp (congrArg some) (congrArg some)

end Strings

def strings : List Field :=
  [.server, .tlsServerName, .transport, .wgPrivateKey, .wgPublicKey, .wgPresharedKey, .wgAddress,
    .wgDns, .wgAddressInput]

/-- Settings as they are meant to come out of the store. The name for TLS is left out of the first
part. -/
structure Loaded (nvs : Nvs) (out : Bytes) : Prop where
  terminated : ∀ f ∈ strings, f ≠ .tlsServerName → (0 : UInt8) ∈ f.read out
  kept : ∀ v record, newest nvs = some v → nvs.blob v.key = .ok record → ∀ f, Has (some v) f →
    f ≠ .transport → f.read out = f.read record
  absent : ∀ f, ¬Has (newest nvs) f → f.read out = f.read (defaults (newest nvs))
  direct : newest nvs ≠ some .v4 → newest nvs ≠ some .v3 → Field.allowDirect.read out = [0]
  tcp : Field.enabled.read out ≠ [0] → text (Field.transport.read out) = tcp →
    said nvs (newest nvs) = some tcp ∨ said nvs (newest nvs) = some socket

section Loaded

variable {nvs : Nvs} {out : Bytes} {v : Version}

theorem checked_of_strings {f : Field} (h : f ∈ strings) (hne : f ≠ .tlsServerName) :
    f ∈ checked := by
  revert h hne
  cases f <;> decide

theorem mem_of_ends {f : Field} (h : f.ends out = true) : (0 : UInt8) ∈ f.read out := by
  rwa [Field.ends, contains_eq_mem, decide_eq_true_eq] at h

theorem oldDefaults_ends {f : Field} (h : f ∈ checked) : f.ends oldDefaults = true := by
  have hall : (checked.all fun f => f.ends oldDefaults) = true := by decide +kernel
  exact all_eq_true.mp hall f h

theorem direct_of_absent (habsent : ∀ f, ¬Has (newest nvs) f →
      f.read out = f.read (defaults (newest nvs)))
    (h4 : newest nvs ≠ some .v4) (h3 : newest nvs ≠ some .v3) :
    Field.allowDirect.read out = [0] := by
  have hzero : Field.allowDirect.read oldDefaults = [0] ∧ Field.allowDirect.read zeros = [0] := by
    decide +kernel
  cases hnewest : newest nvs with
  | none =>
    rw [hnewest] at habsent
    rw [habsent .allowDirect (by unfold Has; decide)]
    exact hzero.1
  | some v =>
    rw [hnewest] at habsent h4 h3
    cases v with
    | v4 => exact absurd rfl h4
    | v3 => exact absurd rfl h3
    | v2 =>
      rw [habsent .allowDirect (by unfold Has; decide)]
      exact hzero.2
    | v1 =>
      rw [habsent .allowDirect (by unfold Has; decide)]
      exact hzero.1

theorem ofRecord_loaded (hnewest : newest nvs = some v) (hdefaults : defaults (some v) = zeros)
    (htransport : Has (some v) .transport)
    (h : ofRecord v.length (getBlob nvs v.key v.length) = (.espOk, out)) : Loaded nvs out := by
  obtain ⟨record, hread, hlength, hchecked, rfl⟩ := ofRecord_ok h
  have hblob := getBlob_ok hread
  have hmemory := prefix_length hlength
  have habsent : ∀ f, ¬Has (newest nvs) f →
      f.read (socketAsTcp (put 0 record zeros)) = f.read (defaults (newest nvs)) := by
    intro f hf
    rw [hnewest] at hf ⊢
    rw [hdefaults, socketAsTcp_other hmemory (fun heq : f = .transport => hf (heq ▸ htransport))]
    exact prefix_absent hlength hf
  refine ⟨?_, ?_, habsent, direct_of_absent habsent, ?_⟩
  · intro f hf hne
    have hends := all_eq_true.mp hchecked f (checked_of_strings hf hne)
    exact mem_of_ends (socketAsTcp_ends hmemory hends)
  · intro w other hw hother f hf hne
    rw [hnewest] at hw
    cases hw
    rw [hblob] at hother
    cases hother
    rw [socketAsTcp_other hmemory hne]
    exact prefix_has hlength hf
  · intro _ htext
    rw [hnewest, said, hblob]
    have hsaid := socketAsTcp_tcp htext
    rw [prefix_has hlength htransport] at hsaid
    exact hsaid.imp (congrArg some) (congrArg some)

theorem ofOld_loaded (hnewest : newest nvs = some .v1)
    (h : ofOld (getBlob nvs Version.v1.key sizeofOld) = (.espOk, out)) : Loaded nvs out := by
  obtain ⟨old, hread, hlength, hserver, htransport, rfl⟩ := ofOld_ok h
  have hblob := getBlob_ok hread
  have hmemory := broughtOver_length old
  have hends : ∀ f ∈ checked, f.ends (broughtOver old) = true := by
    intro f hf
    by_cases hhas : Has (some .v1) f
    · rw [Field.ends, broughtOver_has hlength hhas]
      rcases has_v1_iff.mp hhas with rfl | rfl | rfl | rfl
      · exact hserver
      · exact absurd hf (by decide)
      · exact htransport
      · exact absurd hf (by decide)
    · rw [Field.ends, broughtOver_absent hhas]
      exact oldDefaults_ends hf
  have habsent : ∀ f, ¬Has (newest nvs) f →
      f.read (socketAsTcp (broughtOver old)) = f.read (defaults (newest nvs)) := by
    intro f hf
    rw [hnewest] at hf ⊢
    have hne : f ≠ .transport := fun heq => hf (has_v1_iff.mpr (.inr (.inr (.inl heq))))
    rw [socketAsTcp_other hmemory hne]
    exact broughtOver_absent hf
  refine ⟨?_, ?_, habsent, direct_of_absent habsent, ?_⟩
  · intro f hf hne
    exact mem_of_ends (socketAsTcp_ends hmemory (hends f (checked_of_strings hf hne)))
  · intro w other hw hother f hf hne
    rw [hnewest] at hw
    cases hw
    rw [hblob] at hother
    cases hother
    rw [socketAsTcp_other hmemory hne]
    exact broughtOver_has hlength hf
  · intro _ htext
    rw [hnewest, said, hblob]
    have hsaid := socketAsTcp_tcp htext
    rw [broughtOver_has hlength (has_v1_iff.mpr (by simp))] at hsaid
    exact hsaid.imp (congrArg some) (congrArg some)

theorem loadStrings_loaded (hnewest : newest nvs = none) : Loaded nvs (loadStrings nvs oldDefaults) := by
  obtain ⟨-, hothers, hserver, htransport, htcp⟩ := loadStrings_facts nvs oldDefaults_length
  have habsent : ∀ f, ¬Has (newest nvs) f →
      f.read (loadStrings nvs oldDefaults) = f.read (defaults (newest nvs)) := by
    rw [hnewest]
    exact hothers
  refine ⟨?_, ?_, habsent, direct_of_absent habsent, ?_⟩
  · intro f hf hne
    have hends : f.ends (loadStrings nvs oldDefaults) = true := by
      by_cases hhas : Has none f
      · rcases hhas with rfl | rfl | rfl | rfl
        · exact hserver
        · exact absurd rfl hne
        · exact htransport
        · exact absurd hf (by decide)
      · rw [Field.ends, hothers f hhas]
        exact oldDefaults_ends (checked_of_strings hf hne)
    exact mem_of_ends hends
  · intro v record hv
    rw [hnewest] at hv
    cases hv
  · rw [hnewest]
    exact htcp

end Loaded

def onlyOld (old : Bytes) : Nvs where
  blob key := if key = Version.v1.key then .ok old else .error .notFound
  str _ := .error .notFound
  u8 _ := .error .notFound

end Meshpn.Device.VpnRecord
