import Meshpn.Lib.Utf8
import Meshpn.Tls.Destination

/-!
What the policy lets a request connect to. A target is justified by the request
that tries it: by the pin of its host, by its host being an address, or by the one
answer of its lookup.
-/

namespace Meshpn.Tls.Destination

variable {net : Net}

theorem single_contains {allowed ip : IpAddress} :
    (Subnet.single allowed).contains ip = true ↔ ip.number = allowed.number := by
  cases allowed <;> simp [Subnet.single, Subnet.contains, Subnet.hostBits]

/-- Two targets with different addresses, however they are written. -/
def Different (net : Net) (a b : Target) : Prop :=
  ∀ x y, net.parseIp a.address = some x → net.parseIp b.address = some y → x.number ≠ y.number

theorem candidatesFrom_spec (port : Int) (answers : List (Text × Nat)) (seen : BlockList) :
    (∀ target ∈ candidatesFrom net port answers seen, target.port = port ∧
      (target.address, target.family) ∈ answers ∧
      ∃ ip, net.parseIp target.address = some ip ∧ BlockList.check seen ip = false) ∧
    (candidatesFrom net port answers seen).Pairwise (Different net) := by
  induction answers generalizing seen with
  | nil => exact ⟨fun _ h => absurd h List.not_mem_nil, List.Pairwise.nil⟩
  | cons answer answers ih =>
    obtain ⟨address, family⟩ := answer
    have hlater : ∀ seen, (∀ target ∈ candidatesFrom net port answers seen, target.port = port ∧
        (target.address, target.family) ∈ (address, family) :: answers ∧
        ∃ ip, net.parseIp target.address = some ip ∧ BlockList.check seen ip = false) ∧
        (candidatesFrom net port answers seen).Pairwise (Different net) := by
      intro seen
      obtain ⟨hall, hpairwise⟩ := ih seen
      refine ⟨fun target htarget => ?_, hpairwise⟩
      obtain ⟨hport, hmem, hip⟩ := hall target htarget
      exact ⟨hport, List.mem_cons_of_mem _ hmem, hip⟩
    rw [candidatesFrom]
    split
    case h_1 => exact hlater seen
    rename_i ip hip
    split
    case isTrue => exact hlater seen
    rename_i hfresh
    obtain ⟨hall, hpairwise⟩ := hlater (seen ++ [Subnet.single ip])
    -- what comes later is neither among the seen ones nor this one
    have hnew : ∀ target ∈ candidatesFrom net port answers (seen ++ [Subnet.single ip]),
        ∃ other, net.parseIp target.address = some other ∧
          BlockList.check seen other = false ∧ other.number ≠ ip.number := by
      intro target htarget
      obtain ⟨_, _, other, hother, hcheck⟩ := hall target htarget
      rw [BlockList.check, List.any_append, Bool.or_eq_false_iff] at hcheck
      refine ⟨other, hother, hcheck.1, fun hsame => ?_⟩
      have hcontains := single_contains.mpr hsame
      simp [hcontains] at hcheck
    refine ⟨?_, List.pairwise_cons.mpr ⟨?_, hpairwise⟩⟩
    · intro target htarget
      rcases List.mem_cons.mp htarget with rfl | hrest
      · exact ⟨rfl, List.mem_cons_self, ip, hip, Bool.eq_false_iff.mpr hfresh⟩
      · obtain ⟨other, hother, hunseen, _⟩ := hnew target hrest
        exact ⟨(hall target hrest).1, (hall target hrest).2.1, other, hother, hunseen⟩
    · intro target htarget x y hx hy hsame
      obtain ⟨other, hother, _, hdifferent⟩ := hnew target htarget
      rw [hip, Option.some.injEq] at hx
      rw [hother, Option.some.injEq] at hy
      rw [hx, hy] at hdifferent
      exact hdifferent hsame.symm

theorem pinnedCandidates_spec (answers : List (Text × Nat)) (port : Int) :
    (∀ target ∈ pinnedCandidates net answers port, target.port = port ∧
      (target.address, target.family) ∈ answers) ∧
    (pinnedCandidates net answers port).Pairwise (Different net) := by
  obtain ⟨hall, hpairwise⟩ := candidatesFrom_spec port answers []
  exact ⟨fun target htarget => ⟨(hall target htarget).1, (hall target htarget).2.1⟩, hpairwise⟩

/-- The text is the address of a host on the public internet. -/
def IsPublic (net : Net) (text : Text) : Prop :=
  ∃ ip, net.parseIp text = some ip ∧ ip.isPublic = true

theorem isPublic_of_check {text : Text} (h : isPublicRelayAddress net text = true) :
    IsPublic net text := by
  unfold isPublicRelayAddress at h
  split at h
  · cases h
  split at h
  · cases h
  case h_2 ip hip => exact ⟨ip, hip, h⟩

/-- An answer that the policy accepts: not empty, not too long, and with public addresses only. -/
def Acceptable (net : Net) (answer : Answer) : Prop :=
  ∃ entries, answer = .entries entries ∧ entries ≠ [] ∧ entries.length ≤ exitDnsMaxAnswers ∧
    ∀ entry ∈ entries, ∃ address, entry = some ⟨some address, some (net.isIP address)⟩ ∧
      IsPublic net address

/-- The address is one of the answer. -/
def Answer.has (answer : Answer) (address : Text) : Prop :=
  ∃ entries family, answer = .entries entries ∧ some ⟨some address, family⟩ ∈ entries

/-- The host has a pinned route with this address. -/
def PinnedTo (route : Option PinnedRoute) (hostname address : Text) : Prop :=
  ∃ pin, route = some pin ∧ toLowerCase hostname = toLowerCase pin.hostname ∧
    ∃ family port, (some address, family, port) ∈ pin.addresses

/-- Why the request may connect to the target. -/
structure Justified (net : Net) (route : Option PinnedRoute) (request : Request) (target : Target) :
    Prop where
  port : request.port = some target.port
  isPublic : IsPublic net target.address
  source :
    (request.answer = none ∧ PinnedTo route request.hostname target.address) ∨
    (request.answer = none ∧ target.address = request.hostname ∧
      ∃ bits, net.parseIp request.hostname = some (.v4 bits)) ∨
    ∃ answer, request.answer = some answer ∧ Acceptable net answer ∧ answer.has target.address

structure Allowed (net : Net) (route : Option PinnedRoute) (request : Request)
    (targets : List Target) : Prop where
  justified : ∀ target ∈ targets, Justified net route request target
  different : targets.Pairwise (Different net)

variable {route : Option PinnedRoute} {request : Request} {port : Option Int} {policy : Policy}
  {hostname : Text}

theorem Allowed.nil :
    Allowed net route request [] :=
  ⟨fun _ h => absurd h List.not_mem_nil, List.Pairwise.nil⟩

theorem mapM_spec {α β : Type} {f : α → Option β} {items : List α} {results : List β}
    (h : items.mapM f = some results) :
    (∀ item ∈ items, ∃ result, f item = some result) ∧
      ∀ result ∈ results, ∃ item ∈ items, f item = some result := by
  induction items generalizing results with
  | nil =>
    cases h
    exact ⟨fun _ h => absurd h List.not_mem_nil, fun _ h => absurd h List.not_mem_nil⟩
  | cons item items ih =>
    rw [List.mapM_cons] at h
    cases hfirst : f item with
    | none =>
      rw [hfirst] at h
      cases h
    | some result =>
      cases hrest : items.mapM f with
      | none =>
        rw [hfirst, hrest] at h
        cases h
      | some rest =>
        rw [hfirst, hrest] at h
        cases h
        obtain ⟨hall, hfrom⟩ := ih hrest
        constructor
        · intro other hother
          rcases List.mem_cons.mp hother with rfl | hmem
          · exact ⟨result, hfirst⟩
          · exact hall other hmem
        · intro other hother
          rcases List.mem_cons.mp hother with rfl | hmem
          · exact ⟨item, List.mem_cons_self, hfirst⟩
          · obtain ⟨source, hsource, hsome⟩ := hfrom other hmem
            exact ⟨source, List.mem_cons_of_mem _ hsource, hsome⟩

/-- A policy without the pin of the tests, whose pinned targets come from the route. -/
structure PolicyOf (net : Net) (route : Option PinnedRoute) (policy : Policy) : Prop where
  loopback : policy.loopback = none
  pinned : ∀ pinned, policy.pinned = some pinned →
    (∀ hostname, toLowerCase hostname = pinned.hostname → ∀ target ∈ pinned.targets,
      target.port = pinned.port ∧ IsPublic net target.address ∧
        PinnedTo route hostname target.address) ∧
    pinned.targets.Pairwise (Different net)

theorem checkedTarget_some {port : Int} {item : Option Text × Option Nat × Option Int}
    {address : Text} {family : Nat} (h : checkedTarget net port item = some (address, family)) :
    IsPublic net address ∧ item.1 = some address := by
  unfold checkedTarget at h
  split at h
  · split at h
    case isTrue hok =>
      cases h
      exact ⟨isPublic_of_check hok.1, rfl⟩
    case isFalse => cases h
  · cases h

theorem createPolicy_of
    (h : createPolicy net none route = .ok policy) : PolicyOf net route policy := by
  unfold createPolicy at h
  split at h
  · cases h
  dsimp only at h
  split at h
  case h_1 =>
    cases h
    exact ⟨rfl, fun _ hpinned => by cases hpinned⟩
  rename_i pin
  split at h
  · cases h
  rename_i port hport
  split at h
  · cases h
  split at h
  · cases h
  rename_i addresses haddresses
  cases h
  refine ⟨rfl, fun pinned hpinned => ?_⟩
  cases hpinned
  obtain ⟨hall, hpairwise⟩ := @pinnedCandidates_spec net addresses port
  refine ⟨fun hostname hname target htarget => ?_, hpairwise⟩
  obtain ⟨htargetPort, hmem⟩ := hall target htarget
  obtain ⟨⟨text, family, p⟩, hitem, hchecked⟩ := (mapM_spec haddresses).2 _ hmem
  obtain ⟨hpublic, hsame⟩ := checkedTarget_some hchecked
  refine ⟨htargetPort, hpublic, pin, rfl, hname, family, p, ?_⟩
  rw [← hsame]
  exact hitem

theorem colon_not_mem (h : validRoute hostname port = true) :
    ':' ∉ hostname := by
  intro hcolon
  simp only [validRoute, Bool.and_eq_true] at h
  rw [← @List.intercalate_splitOn _ hostname _ _ '.'] at hcolon
  rcases Lib.Units.mem_intercalate hcolon with ⟨label, hlabel, hmem⟩ | hdot
  · have hok := List.all_eq_true.mp h.1.2 label hlabel
    simp only [isLabel, Bool.and_eq_true] at hok
    have hc := List.all_eq_true.mp hok.1.1.1 ':' hmem
    revert hc
    decide
  · revert hdot
    decide

theorem resolve_ok (hpolicy : PolicyOf net route policy)
    {pending : Nat} {targets : List Target}
    (h : resolve net policy pending hostname port = .ok (some targets))
    (hhost : request.hostname = hostname) (hport : request.port = port)
    (hanswer : request.answer = none) : Allowed net route request targets := by
  unfold resolve at h
  split at h
  · cases h
  rename_i p
  split at h
  · cases h
  rename_i hvalid
  rw [not_not] at hvalid
  rw [hpolicy.loopback] at h
  dsimp only at h
  split at h
  case h_1 pinned hpinned =>
    split at h
    · cases h
    rename_i hsame
    cases h
    obtain ⟨hsome, hname⟩ := Option.filter_eq_some_iff.mp hpinned
    obtain ⟨hall, hpairwise⟩ := hpolicy.pinned pinned hsome
    refine ⟨fun target htarget => ?_, hpairwise⟩
    obtain ⟨htarget, hpublic, hpin⟩ :=
      hall hostname (of_decide_eq_true hname) target htarget
    refine ⟨?_, hpublic, Or.inl ⟨hanswer, hhost ▸ hpin⟩⟩
    rw [hport, htarget, not_not.mp hsame]
  case h_2 =>
    split at h
    case isTrue hip =>
      split at h
      case isTrue hchecked =>
        cases h
        obtain ⟨hall, hpairwise⟩ := @pinnedCandidates_spec net [(hostname, 4)] p
        refine ⟨fun target htarget => ?_, hpairwise⟩
        obtain ⟨htargetPort, hmem⟩ := hall target htarget
        rw [List.mem_singleton, Prod.mk.injEq] at hmem
        obtain ⟨ip, hparsed, hpublic⟩ := isPublic_of_check hchecked
        refine ⟨by rw [hport, htargetPort], ⟨ip, by rw [hmem.1, hparsed], hpublic⟩,
          Or.inr (Or.inl ⟨hanswer, by rw [hmem.1, hhost], ?_⟩)⟩
        cases ip with
        | v4 bits => exact ⟨bits, by rw [hhost, hparsed]⟩
        | v6 bits => exact absurd (net.colon _ _ hparsed) (colon_not_mem hvalid)
      case isFalse => cases h
    case isFalse =>
      split at h
      · cases h
      split at h
      · cases h
      · cases h

theorem resolve_lookup {pending : Nat}
    (h : resolve net policy pending hostname port = .ok none) :
    port.isSome = true ∧ pending < exitDnsMaxPending := by
  unfold resolve at h
  split at h
  · cases h
  rename_i p
  refine ⟨rfl, ?_⟩
  split at h
  · cases h
  split at h
  · split at h <;> cases h
  split at h
  · split at h <;> cases h
  · split at h
    · split at h <;> cases h
    · split at h
      · cases h
      · split at h
        · cases h
        case isFalse hroom => exact not_le.mp hroom

theorem checkedEntry_some {entry : Option Entry} {address : Text} {family : Nat}
    (h : checkedEntry net entry = some (address, family)) :
    entry = some ⟨some address, some (net.isIP address)⟩ ∧ IsPublic net address := by
  unfold checkedEntry at h
  split at h
  · split at h
    case isTrue hok =>
      cases h
      exact ⟨by rw [hok.1], isPublic_of_check hok.2⟩
    case isFalse => cases h
  · cases h

theorem resolveAnswer_ok {answer : Answer} {port : Int}
    {targets : List Target} (h : resolveAnswer net answer port = .ok targets)
    (hport : request.port = some port) (hanswer : request.answer = some answer) :
    Allowed net route request targets := by
  unfold resolveAnswer at h
  split at h
  · cases h
  · cases h
  rename_i entries
  split at h
  · cases h
  rename_i hlength
  push Not at hlength
  split at h
  · cases h
  rename_i answers hanswers
  cases h
  obtain ⟨hentries, hfrom⟩ := mapM_spec hanswers
  have hacceptable : Acceptable net (.entries entries) := by
    refine ⟨entries, rfl, hlength.1, hlength.2, fun entry hentry => ?_⟩
    obtain ⟨⟨address, family⟩, hchecked⟩ := hentries entry hentry
    exact ⟨address, checkedEntry_some hchecked⟩
  obtain ⟨hall, hpairwise⟩ := @pinnedCandidates_spec net answers port
  refine ⟨fun target htarget => ?_, hpairwise⟩
  obtain ⟨htargetPort, hmem⟩ := hall target htarget
  obtain ⟨entry, hentry, hchecked⟩ := hfrom _ hmem
  obtain ⟨hentryEq, hpublic⟩ := checkedEntry_some hchecked
  refine ⟨by rw [hport, htargetPort], hpublic, Or.inr (Or.inr ⟨_, hanswer, hacceptable,
    entries, some (net.isIP target.address), rfl, ?_⟩)⟩
  rw [← hentryEq]
  exact hentry

end Meshpn.Tls.Destination
