import Mathlib.Data.List.Basic
import Meshpn.Lib.Prefixes

/-!
The subnets of the device: the uplink's, and those of its USB and access point LANs. When
the uplink gets an address, each LAN that conflicts is moved to a private subnet, first
the one and then the other. Addresses are taken in host order.
-/

namespace Meshpn.Device.Lan

open Meshpn.Lib.Prefixes

abbrev Address := BitVec 32

/-- `esp_netif_ip_info_t`. -/
structure IpInfo where
  ip : Address
  netmask : Address
  gw : Address
  deriving DecidableEq

def subnetsOverlap (a amask b bmask : Address) : Bool :=
  let common := amask &&& bmask
  a &&& common == b &&& common

/-- The netmask of every LAN. -/
def lanMask : Address := 0xffffff00#32

def prefixes : List Address := [0xc0a80000#32, 0x0acb0000#32, 0xac1f0000#32]

/-- One of the subnets that a LAN may be moved to, with its gateway's number. -/
def candidate (family : Address) (subnet : Nat) : Address :=
  family ||| BitVec.ofNat 32 subnet <<< 8 ||| 1#32

/-- The candidates, in the order of the two loops. -/
def candidates : List Address :=
  prefixes.flatMap fun family => (List.range' 7 248).map (candidate family)

/-- The candidate is passed over. -/
def taken (wan wanmask other othermask c : Address) : Bool :=
  subnetsOverlap c lanMask wan wanmask || other != 0#32 && subnetsOverlap c lanMask other othermask

def pickLanIp (wan wanmask other othermask : Address) : Option Address :=
  candidates.find? fun c => !taken wan wanmask other othermask c

/-- `meshvpn_net_resolve_lan_conflict`, where the new address is accepted. An interface that is
not there has no subnet. -/
def resolveLanConflict (lan other : Option IpInfo) (uplink : IpInfo) : Option IpInfo :=
  lan.map fun current =>
    let peer := other.getD ⟨0#32, 0#32, 0#32⟩
    if !subnetsOverlap current.ip current.netmask uplink.ip uplink.netmask &&
        (peer.ip == 0#32 || !subnetsOverlap current.ip current.netmask peer.ip peer.netmask) then
      current
    else
      match pickLanIp uplink.ip uplink.netmask peer.ip peer.netmask with
      | none => current
      | some selected => ⟨selected, lanMask, selected⟩

/-- The part of `meshvpn_net_on_event` that is about the LANs, on a new address of the uplink:
what becomes of the USB LAN and of the one of the access point. -/
def gotIp (usb ap : Option IpInfo) (uplink : IpInfo) : Option IpInfo × Option IpInfo :=
  let usb := resolveLanConflict usb ap uplink
  (usb, resolveLanConflict ap usb uplink)

/-- The addresses of a subnet. -/
def IpInfo.Contains (info : IpInfo) (x : Address) : Prop := Covers info.ip info.netmask x

def IpInfo.Meets (info other : IpInfo) : Prop := ∃ x, info.Contains x ∧ other.Contains x

/-- The netmask has its ones in front. -/
def IpInfo.Contiguous (info : IpInfo) : Prop := ∃ n, info.netmask = mask 32 n

theorem lanMask_eq : lanMask = mask 32 24 := by decide

theorem subnetsOverlap_iff {info other : IpInfo} (h : info.Contiguous) (h' : other.Contiguous) :
    subnetsOverlap info.ip info.netmask other.ip other.netmask = true ↔ info.Meets other := by
  obtain ⟨m, hm⟩ := h
  obtain ⟨n, hn⟩ := h'
  unfold subnetsOverlap IpInfo.Meets IpInfo.Contains
  rw [hm, hn, beq_iff_eq]
  exact meet_iff _ _

theorem IpInfo.Meets.symm {info other : IpInfo} (h : info.Meets other) : other.Meets info := by
  obtain ⟨x, hx, hx'⟩ := h
  exact ⟨x, hx', hx⟩

/-- The subnet that a candidate stands for. -/
def moved (selected : Address) : IpInfo := ⟨selected, lanMask, selected⟩

theorem moved_contiguous (selected : Address) : (moved selected).Contiguous := ⟨24, lanMask_eq⟩

/-- A LAN has a netmask of 24 bits. -/
def IsLan (info : IpInfo) : Prop := info.netmask = lanMask

theorem IsLan.contiguous {info : IpInfo} (h : IsLan info) : info.Contiguous :=
  ⟨24, h.trans lanMask_eq⟩

section Candidates

variable {uplink : IpInfo} {n : Nat}

theorem apart_of_first_bit (hn : 1 ≤ n) (hmask : uplink.netmask = mask 32 n) {c : Address}
    (hfirst : c.getLsbD 31 ≠ uplink.ip.getLsbD 31) :
    subnetsOverlap c lanMask uplink.ip uplink.netmask = false := by
  rw [subnetsOverlap, hmask, lanMask_eq, mask_and_mask, beq_eq_false_iff_ne]
  intro hsame
  exact hfirst ((and_mask_eq_iff _ _ _).mp hsame 31 (by omega) (by omega))

theorem not_both {c c' other : Address} (hne : c &&& lanMask ≠ c' &&& lanMask) :
    subnetsOverlap c lanMask other lanMask = false ∨
      subnetsOverlap c' lanMask other lanMask = false := by
  by_contra hboth
  rw [not_or, Bool.not_eq_false, Bool.not_eq_false] at hboth
  unfold subnetsOverlap at hboth
  rw [beq_iff_eq, beq_iff_eq, BitVec.and_self] at hboth
  exact hne (hboth.1.trans hboth.2.symm)

theorem pick_of_family (hn : 1 ≤ n) (hmask : uplink.netmask = mask 32 n) {peer : IpInfo}
    (hpeer : peer.ip = 0#32 ∨ peer.netmask = lanMask) {c c' : Address} (hc : c ∈ candidates)
    (hc' : c' ∈ candidates) (hne : c &&& lanMask ≠ c' &&& lanMask)
    (hfirst : c.getLsbD 31 ≠ uplink.ip.getLsbD 31)
    (hfirst' : c'.getLsbD 31 ≠ uplink.ip.getLsbD 31) :
    ∃ selected, pickLanIp uplink.ip uplink.netmask peer.ip peer.netmask = some selected := by
  have hfree : ∃ free ∈ candidates,
      taken uplink.ip uplink.netmask peer.ip peer.netmask free = false := by
    have hwan := apart_of_first_bit hn hmask hfirst
    have hwan' := apart_of_first_bit hn hmask hfirst'
    rcases hpeer with hzero | hlan
    · refine ⟨c, hc, ?_⟩
      rw [taken, hwan, hzero]
      rfl
    · rcases @not_both c c' peer.ip hne with hother | hother
      · refine ⟨c, hc, ?_⟩
        rw [taken, hwan, hlan, hother, Bool.and_false]
        rfl
      · refine ⟨c', hc', ?_⟩
        rw [taken, hwan', hlan, hother, Bool.and_false]
        rfl
  obtain ⟨free, hmem, hnot⟩ := hfree
  refine Option.isSome_iff_exists.mp (List.find?_isSome.mpr ⟨free, hmem, ?_⟩)
  rw [hnot]
  rfl

theorem mem_candidates {family : Address} {subnet : Nat} (hfamily : family ∈ prefixes)
    (hlow : 7 ≤ subnet) (hhigh : subnet ≤ 254) : candidate family subnet ∈ candidates := by
  refine List.mem_flatMap.mpr ⟨family, hfamily, List.mem_map.mpr ⟨subnet, ?_, rfl⟩⟩
  rw [List.mem_range'_1]
  omega

theorem pick_of_first_bit (hn : 1 ≤ n) (hmask : uplink.netmask = mask 32 n) {peer : IpInfo}
    (hpeer : peer.ip = 0#32 ∨ peer.netmask = lanMask) {family : Address}
    (hfamily : family ∈ prefixes) (hfirst : family.getLsbD 31 = !uplink.ip.getLsbD 31) :
    ∃ selected, pickLanIp uplink.ip uplink.netmask peer.ip peer.netmask = some selected := by
  have hother : ∀ subnet ∈ [7, 8],
      (candidate family subnet).getLsbD 31 ≠ uplink.ip.getLsbD 31 := by
    intro subnet hsubnet
    have hsame : (candidate family subnet).getLsbD 31 = family.getLsbD 31 := by
      rcases List.mem_pair.mp hsubnet with rfl | rfl <;> simp [candidate]
    rw [hsame, hfirst]
    cases uplink.ip.getLsbD 31 <;> decide
  have hne : candidate family 7 &&& lanMask ≠ candidate family 8 &&& lanMask := by
    have hall : prefixes.all (fun family =>
        candidate family 7 &&& lanMask != candidate family 8 &&& lanMask) = true := by decide
    exact bne_iff_ne.mp (List.all_eq_true.mp hall family hfamily)
  exact pick_of_family hn hmask hpeer (mem_candidates hfamily (by decide) (by decide))
    (mem_candidates hfamily (by decide) (by decide)) hne (hother 7 (by decide))
    (hother 8 (by decide))

theorem pick_exists (hn : 1 ≤ n) (hmask : uplink.netmask = mask 32 n) {peer : IpInfo}
    (hpeer : peer.ip = 0#32 ∨ peer.netmask = lanMask) :
    ∃ selected, pickLanIp uplink.ip uplink.netmask peer.ip peer.netmask = some selected := by
  cases hfirst : uplink.ip.getLsbD 31 with
  | false =>
    have hmem : (0xc0a80000#32 : Address) ∈ prefixes := List.mem_cons_self
    exact pick_of_first_bit hn hmask hpeer hmem (by rw [hfirst]; decide)
  | true =>
    have hmem : (0x0acb0000#32 : Address) ∈ prefixes := List.mem_cons_of_mem _ List.mem_cons_self
    exact pick_of_first_bit hn hmask hpeer hmem (by rw [hfirst]; decide)

end Candidates

theorem candidate_nonzero {c : Address} (hc : c ∈ candidates) : c &&& lanMask ≠ 0#32 := by
  obtain ⟨family, hfamily, hmem⟩ := List.mem_flatMap.mp hc
  obtain ⟨subnet, -, rfl⟩ := List.mem_map.mp hmem
  intro hzero
  have hnone : family &&& lanMask = 0#32 := by
    apply BitVec.eq_of_getLsbD_eq
    intro i hi
    have hbit := congrArg (fun v => v.getLsbD i) hzero
    simp only [candidate, BitVec.getLsbD_and, BitVec.getLsbD_or, BitVec.getLsbD_zero,
      Bool.and_eq_false_iff, Bool.or_eq_false_iff] at hbit
    rw [BitVec.getLsbD_and, BitVec.getLsbD_zero, Bool.and_eq_false_iff]
    exact hbit.imp (fun hfields => hfields.1.1) id
  have hall : prefixes.all (fun family => family &&& lanMask != 0#32) = true := by decide
  exact bne_iff_ne.mp (List.all_eq_true.mp hall family hfamily) hnone

theorem moved_apart_zero {c : Address} (hc : c ∈ candidates) {lan : IpInfo} (hlan : IsLan lan)
    (hzero : lan.ip = 0#32) : ¬(moved c).Meets lan := by
  rintro ⟨x, hmoved, hother⟩
  have hcovered : x &&& lanMask = c &&& lanMask := hmoved
  have hnone : x &&& lanMask = lan.ip &&& lanMask := by
    unfold IpInfo.Contains Covers at hother
    rwa [hlan] at hother
  rw [hzero, BitVec.zero_and] at hnone
  exact candidate_nonzero hc (hcovered.symm.trans hnone)

/-- What becomes of one LAN. -/
inductive Resolved (current : IpInfo) (other : Option IpInfo) (uplink : IpInfo) : IpInfo → Prop where
  | kept : ¬current.Meets uplink → (∀ peer ∈ other, peer.ip ≠ 0#32 → ¬current.Meets peer) →
      Resolved current other uplink current
  | moved {c : Address} : (current.Meets uplink ∨ ∃ peer ∈ other, current.Meets peer) →
      ¬(moved c).Meets uplink → (∀ peer ∈ other, ¬(moved c).Meets peer) →
      c ∈ candidates → Resolved current other uplink (moved c)

section Resolve

variable {uplink current : IpInfo} {other : Option IpInfo} {n : Nat}

theorem peer_cases (hother : ∀ lan ∈ other, IsLan lan) :
    (other.getD ⟨0#32, 0#32, 0#32⟩).ip = 0#32 ∧ (∀ peer ∈ other, peer.ip = 0#32) ∨
      ∃ peer, other = some peer ∧ peer.ip ≠ 0#32 ∧ IsLan peer := by
  rcases other with _ | peer
  · exact .inl ⟨rfl, fun _ h => by cases h⟩
  by_cases hzero : peer.ip = 0#32
  · refine .inl ⟨hzero, fun p hp => ?_⟩
    rwa [← Option.some.inj hp]
  · exact .inr ⟨peer, rfl, hzero, hother peer rfl⟩

/-- What is picked is a candidate that the uplink does not meet, nor a peer with an address. -/
theorem picked {wan peer : IpInfo} {c : Address}
    (h : pickLanIp wan.ip wan.netmask peer.ip peer.netmask = some c) :
    c ∈ candidates ∧ (wan.Contiguous → ¬(moved c).Meets wan) ∧
      (peer.ip ≠ 0#32 → peer.Contiguous → ¬(moved c).Meets peer) := by
  have hfree := List.find?_some h
  unfold taken at hfree
  rw [Bool.not_eq_true', Bool.or_eq_false_iff] at hfree
  refine ⟨List.mem_of_find?_eq_some h, fun hwan hmeets => ?_, fun hne hpeer hmeets => ?_⟩
  · have hoverlap : subnetsOverlap c lanMask wan.ip wan.netmask = true :=
      (subnetsOverlap_iff (moved_contiguous c) hwan).mpr hmeets
    rw [hoverlap] at hfree
    cases hfree.1
  · have hoverlap : subnetsOverlap c lanMask peer.ip peer.netmask = true :=
      (subnetsOverlap_iff (moved_contiguous c) hpeer).mpr hmeets
    rw [hoverlap, Bool.and_true, bne_eq_false_iff_eq] at hfree
    exact hne hfree.2

theorem resolve_some (hn : 1 ≤ n) (hmask : uplink.netmask = mask 32 n) (hlan : IsLan current)
    (hother : ∀ lan ∈ other, IsLan lan) :
    ∃ info, resolveLanConflict (some current) other uplink = some info ∧
      Resolved current other uplink info := by
  have hup : uplink.Contiguous := ⟨n, hmask⟩
  have hcurrent := subnetsOverlap_iff hlan.contiguous hup
  unfold resolveLanConflict
  rw [Option.map_some]
  dsimp only
  obtain ⟨hnone, hpeers⟩ | ⟨peer, rfl, hsome, hpeer⟩ := peer_cases hother
  · obtain ⟨selected, hpick⟩ := pick_exists hn hmask (.inl hnone)
    obtain ⟨hmem, hapart, -⟩ := picked hpick
    rw [hpick, hnone]
    simp only [beq_self_eq_true, Bool.true_or, Bool.and_true]
    split
    case isTrue hfree =>
      refine ⟨current, rfl, .kept (fun hmeets => ?_) fun p hp hne => absurd (hpeers p hp) hne⟩
      rw [hcurrent.mpr hmeets] at hfree
      cases hfree
    case isFalse hbusy =>
      rw [Bool.not_eq_true', Bool.not_eq_false] at hbusy
      exact ⟨moved selected, rfl, .moved (.inl (hcurrent.mp hbusy)) (hapart hup)
        (fun p hp => moved_apart_zero hmem (hother p hp) (hpeers p hp)) hmem⟩
  · have hpair := subnetsOverlap_iff hlan.contiguous hpeer.contiguous
    have hget : (some peer).getD ⟨0#32, 0#32, 0#32⟩ = peer := rfl
    obtain ⟨selected, hpick⟩ := @pick_exists _ _ hn hmask peer (.inr hpeer)
    obtain ⟨hmem, hapart, hapart'⟩ := picked hpick
    have hzero : (peer.ip == 0#32) = false := beq_eq_false_iff_ne.mpr hsome
    rw [hget, hpick, hzero, Bool.false_or]
    split
    case isTrue hfree =>
      rw [Bool.and_eq_true, Bool.not_eq_true', Bool.not_eq_true'] at hfree
      refine ⟨current, rfl, .kept (fun hmeets => ?_) fun p hp _ hmeets => ?_⟩
      · rw [hcurrent.mpr hmeets] at hfree
        cases hfree.1
      · obtain rfl := Option.some.inj hp
        rw [hpair.mpr hmeets] at hfree
        cases hfree.2
    case isFalse hbusy =>
      have hmeets : current.Meets uplink ∨ ∃ p ∈ some peer, current.Meets p := by
        rw [Bool.and_eq_true, not_and_or, Bool.not_eq_true', Bool.not_eq_true',
          Bool.not_eq_false, Bool.not_eq_false] at hbusy
        rcases hbusy with h | h
        · exact .inl (hcurrent.mp h)
        · exact .inr ⟨peer, rfl, hpair.mp h⟩
      refine ⟨moved selected, rfl, .moved hmeets (hapart hup) (fun p hp hagain => ?_) hmem⟩
      obtain rfl := Option.some.inj hp
      exact hapart' hsome hpeer.contiguous hagain

theorem Resolved.isLan {info : IpInfo} (h : Resolved current other uplink info)
    (hlan : IsLan current) : IsLan info := by
  cases h with
  | kept => exact hlan
  | moved => rfl

theorem Resolved.apart {info : IpInfo} (h : Resolved current other uplink info) :
    ¬info.Meets uplink := by
  cases h with
  | kept hnot _ => exact hnot
  | moved _ hnot _ _ => exact hnot

theorem Resolved.unchanged {info : IpInfo} (h : Resolved current other uplink info)
    (hup : ¬current.Meets uplink) (hpeers : ∀ peer ∈ other, ¬current.Meets peer) :
    info = current := by
  cases h with
  | kept => rfl
  | moved hconflict _ _ _ =>
    rcases hconflict with hmeets | ⟨peer, hpeer, hmeets⟩
    · exact absurd hmeets hup
    · exact absurd hmeets (hpeers peer hpeer)

theorem Resolved.apart_peer {info : IpInfo} (h : Resolved current other uplink info)
    {peer : IpInfo} (hpeer : peer ∈ other) (hne : peer.ip ≠ 0#32) : ¬info.Meets peer := by
  cases h with
  | kept _ hnot => exact hnot peer hpeer hne
  | moved _ _ hnot _ => exact hnot peer hpeer

end Resolve

section Both

variable {uplink : IpInfo} {usb ap : Option IpInfo} {n : Nat}

theorem resolve_mem (hn : 1 ≤ n) (hmask : uplink.netmask = mask 32 n)
    {lan other : Option IpInfo} (hlan : ∀ info ∈ lan, IsLan info)
    (hother : ∀ info ∈ other, IsLan info) {info : IpInfo}
    (h : info ∈ resolveLanConflict lan other uplink) :
    ∃ current ∈ lan, Resolved current other uplink info := by
  rcases lan with _ | current
  · cases h
  obtain ⟨after, hafter, hresolved⟩ := @resolve_some _ current other _ hn hmask
    (hlan current rfl) hother
  rw [hafter] at h
  obtain rfl := Option.some.inj h
  exact ⟨current, rfl, hresolved⟩

theorem resolve_lans (hn : 1 ≤ n) (hmask : uplink.netmask = mask 32 n)
    {lan other : Option IpInfo} (hlan : ∀ info ∈ lan, IsLan info)
    (hother : ∀ info ∈ other, IsLan info) :
    ∀ info ∈ resolveLanConflict lan other uplink, IsLan info := by
  intro info hinfo
  obtain ⟨current, hcurrent, hresolved⟩ := resolve_mem hn hmask hlan hother hinfo
  exact hresolved.isLan (hlan current hcurrent)

theorem resolved_apart {first second first' second' : IpInfo}
    (h : Resolved first (some second) uplink first')
    (h' : Resolved second (some first') uplink second')
    (hsome : first'.ip ≠ 0#32 ∨ second'.ip ≠ 0#32) : ¬first'.Meets second' := by
  intro hmeets
  by_cases hzero : first'.ip = 0#32
  case neg => exact h'.apart_peer rfl hzero hmeets.symm
  have hsecond : second'.ip ≠ 0#32 := hsome.resolve_left fun hne => hne hzero
  cases h' with
  | kept => exact h.apart_peer rfl hsecond hmeets
  | moved _ _ hnot _ => exact hnot first' rfl hmeets.symm

/-- When the uplink has an address with a netmask of at least one bit, the LANs are moved out of
its way and out of each other's, those that are in nobody's way stay, and a search without a
result has found every candidate taken. An interface whose address is zero has none. -/
theorem lan_conflict_resolved (hn : 1 ≤ n) (hmask : uplink.netmask = mask 32 n)
    (husb : ∀ lan ∈ usb, IsLan lan) (hap : ∀ lan ∈ ap, IsLan lan) :
    (∀ lan ∈ (gotIp usb ap uplink).1, ¬lan.Meets uplink) ∧
    (∀ lan ∈ (gotIp usb ap uplink).2, ¬lan.Meets uplink) ∧
    (∀ lan ∈ (gotIp usb ap uplink).1, ∀ lan' ∈ (gotIp usb ap uplink).2,
      lan.ip ≠ 0#32 ∨ lan'.ip ≠ 0#32 → ¬lan.Meets lan') ∧
    (∀ lan ∈ usb, ¬lan.Meets uplink → (∀ other ∈ ap, ¬lan.Meets other) →
      (gotIp usb ap uplink).1 = some lan) ∧
    (∀ lan ∈ ap, ¬lan.Meets uplink → (∀ other ∈ usb, ¬lan.Meets other) →
      (gotIp usb ap uplink).2 = some lan) ∧
    ∀ wan other : IpInfo, wan.Contiguous → other.Contiguous →
      pickLanIp wan.ip wan.netmask other.ip other.netmask = none →
      ∀ c ∈ candidates, (moved c).Meets wan ∨ (moved c).Meets other := by
  have hlans := resolve_lans hn hmask husb hap
  refine ⟨fun lan hlan => ?_, fun lan hlan => ?_, fun lan hlan lan' hlan' hsome => ?_,
    fun lan hlan hup hpeers => ?_, fun lan hlan hup hpeers => ?_,
    fun wan other hwan hother hnone c hc => ?_⟩
  · obtain ⟨_, _, hresolved⟩ := resolve_mem hn hmask husb hap hlan
    exact hresolved.apart
  · obtain ⟨_, _, hresolved⟩ := resolve_mem hn hmask hap hlans hlan
    exact hresolved.apart
  · obtain ⟨first, hfirst, hresolved⟩ := resolve_mem hn hmask husb hap hlan
    obtain ⟨second, hsecond, hresolved'⟩ := resolve_mem hn hmask hap hlans hlan'
    have hsame : resolveLanConflict usb ap uplink = some lan := hlan
    rw [hsame] at hresolved'
    obtain rfl : ap = some second := hsecond
    exact resolved_apart hresolved hresolved' hsome
  · obtain rfl : usb = some lan := hlan
    obtain ⟨info, hinfo, hresolved⟩ := @resolve_some _ lan ap _ hn hmask (husb lan rfl) hap
    rw [hresolved.unchanged hup hpeers] at hinfo
    exact hinfo
  · obtain rfl : ap = some lan := hlan
    obtain ⟨info, hinfo, hresolved⟩ := @resolve_some _ lan (resolveLanConflict usb (some lan) uplink)
      _ hn hmask (hap lan rfl) hlans
    have hapart : ∀ other ∈ resolveLanConflict usb (some lan) uplink, ¬lan.Meets other := by
      intro other hother hmeets
      obtain ⟨current, hcurrent, hmade⟩ := resolve_mem hn hmask husb hap hother
      cases hmade with
      | kept => exact hpeers _ hcurrent hmeets
      | moved _ _ hnot _ => exact hnot lan rfl hmeets.symm
    rw [hresolved.unchanged hup hapart] at hinfo
    exact hinfo
  · have htaken := List.find?_eq_none.mp hnone c hc
    rw [Bool.not_eq_true, Bool.not_eq_false', taken, Bool.or_eq_true, Bool.and_eq_true] at htaken
    rcases htaken with h | ⟨-, h⟩
    · exact .inl ((subnetsOverlap_iff (moved_contiguous c) hwan).mp h)
    · exact .inr ((subnetsOverlap_iff (moved_contiguous c) hother).mp h)

/-- Both LANs are 192.168.4.0, and the uplink is the first candidate. -/
theorem lan_conflict_resolved_equal :
    (gotIp (some (moved 0xc0a80401#32)) (some (moved 0xc0a80401#32))
      ⟨0xc0a80705#32, 0xffffff00#32, 0xc0a80701#32⟩).1 = some (moved 0xc0a80801#32) ∧
    ∀ lan ∈ (gotIp (some (moved 0xc0a80401#32)) (some (moved 0xc0a80401#32))
      ⟨0xc0a80705#32, 0xffffff00#32, 0xc0a80701#32⟩).2,
      ¬lan.Meets ⟨0xc0a80705#32, 0xffffff00#32, 0xc0a80701#32⟩ :=
  ⟨by decide +kernel, (@lan_conflict_resolved ⟨0xc0a80705#32, 0xffffff00#32, 0xc0a80701#32⟩ _ _ 24
    (by decide) (by decide) (fun _ h => by rw [← Option.some.inj h]; rfl)
    (fun _ h => by rw [← Option.some.inj h]; rfl)).2.1⟩

end Both

end Meshpn.Device.Lan
