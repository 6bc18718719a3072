import Meshpn.Lib.Bytes
import Meshpn.Lib.Prefixes
import Meshpn.Lib.Text

/-!
The routing rules of the device, and the addresses of looked up domains that come before
them. An address on the wire is a word in network byte order, which a CPU that keeps the
low byte first reads backwards.
-/

namespace Meshpn.Device.Rules

open Meshpn.Lib.ByteOrder Meshpn.Lib.Prefixes Meshpn.Lib.Scan Meshpn.Lib.Text List

/-- `meshvpn_route_action_t`. -/
inductive Action where
  | direct
  | vpn
  | block
  deriving DecidableEq

/-- `meshvpn_rule_type_t`. -/
inductive RuleType where
  | ipCidr
  | domain
  | geo
  | default
  deriving DecidableEq

/-- `meshvpn_route_rule_t`, its text up to the terminator or the end of the field. -/
structure Rule where
  type : RuleType
  action : Action
  text : List Char
  enabled : Bool
  deriving DecidableEq

/-- `meshvpn_dns_cache_entry_t`. -/
structure CacheEntry where
  ipBe : BitVec 32
  action : Action
  expiresMs : BitVec 32
  deriving DecidableEq

/-- The tables of the module. -/
structure Tables where
  rules : List Rule
  defaultAction : Action
  dnsCache : List CacheEntry

/-- `meshvpn_parse_cidr`: the network and its mask. -/
def parseCidr (cidr : List Char) : Option (BitVec 32 × BitVec 32) := do
  let buf := cidr.take 95
  guard ('/' ∈ buf)
  let bits := atoi ((buf.dropWhile (· != '/')).drop 1)
  guard (0 ≤ bits ∧ bits ≤ 32)
  let (a, b, c, d) ← scanDotted (buf.takeWhile (· != '/'))
  let mask := if bits = 0 then 0#32
    else if bits = 32 then 0xffffffff#32
    else htonl (0xffffffff#32 <<< (32 - bits).toNat)
  return (word a b c d, mask)

/-- `meshvpn_routing_dns_cache_domain`, for a table of `maxDomains` entries. -/
def dnsCacheDomain (maxDomains : Nat) (cache : List CacheEntry) (ipv4Be ttlSec : BitVec 32) :
    List CacheEntry :=
  if maxDomains ≤ cache.length then cache else cache ++ [⟨ipv4Be, .vpn, ttlSec * 1000#32⟩]

/-- The rule is the one that decides. -/
def Rule.decides (rule : Rule) (dstBe : BitVec 32) : Bool :=
  rule.enabled &&
    match rule.type with
    | .ipCidr =>
      match parseCidr rule.text with
      | some (net, mask) => dstBe &&& mask == net &&& mask
      | none => false
    | .domain | .geo => false
    | .default => true

/-- `meshvpn_routing_classify_ipv4`. -/
def classifyIpv4 (tables : Tables) (dstBe : BitVec 32) : Action :=
  match tables.dnsCache.find? (·.ipBe == dstBe) with
  | some entry => entry.action
  | none =>
    match tables.rules.find? (·.decides dstBe) with
    | some rule => rule.action
    | none => tables.defaultAction

/-- What a text of the form `a.b.c.d/p` says. -/
structure Cidr where
  a : BitVec 8
  b : BitVec 8
  c : BitVec 8
  d : BitVec 8
  bits : Nat
  bits_le : bits ≤ 32

def Cidr.text (cidr : Cidr) : List Char :=
  decimal cidr.a.toNat ++ '.' :: (decimal cidr.b.toNat ++ '.' :: (decimal cidr.c.toNat ++
    '.' :: (decimal cidr.d.toNat ++ '/' :: decimal cidr.bits)))

/-- The first bits of the address are those of `a.b.c.d`. -/
def Cidr.Contains (cidr : Cidr) (x : BitVec 32) : Prop :=
  ∀ i < cidr.bits, x.getMsbD i = (word cidr.a cidr.b cidr.c cidr.d).getMsbD i

/-- The text with its four numbers from the end. -/
def Cidr.backwards (cidr : Cidr) : Cidr :=
  ⟨cidr.d, cidr.c, cidr.b, cidr.a, cidr.bits, cidr.bits_le⟩

theorem decimal_length {n : Nat} (h : n < 256) : (decimal n).length ≤ 3 := by
  have hall : ∀ n : Fin 256, (decimal n.val).length ≤ 3 := by decide +kernel
  exact hall ⟨n, h⟩

theorem Cidr.text_length (cidr : Cidr) : cidr.text.length ≤ 95 := by
  have ha := @decimal_length cidr.a.toNat cidr.a.isLt
  have hb := @decimal_length cidr.b.toNat cidr.b.isLt
  have hc := @decimal_length cidr.c.toNat cidr.c.isLt
  have hd := @decimal_length cidr.d.toNat cidr.d.isLt
  have hbits := @decimal_length cidr.bits (by have := cidr.bits_le; omega)
  simp only [Cidr.text, length_append, length_cons]
  omega

theorem slash_not_mem_decimal (n : Nat) : '/' ∉ decimal n := by
  intro hmem
  exact absurd (decimal_digits n _ hmem) (by decide)

/-- The four numbers of a text, with the dots between them. -/
def Cidr.dotted (cidr : Cidr) : List Char :=
  decimal cidr.a.toNat ++ '.' :: (decimal cidr.b.toNat ++ '.' :: (decimal cidr.c.toNat ++
    '.' :: (decimal cidr.d.toNat ++ [])))

theorem Cidr.text_eq (cidr : Cidr) : cidr.text = cidr.dotted ++ '/' :: decimal cidr.bits := by
  simp only [Cidr.text, Cidr.dotted, append_assoc, cons_append, append_nil]

theorem Cidr.dotted_passes (cidr : Cidr) : ∀ c ∈ cidr.dotted, (c != '/') = true := by
  have hslash : '/' ∉ cidr.dotted := by
    simp only [Cidr.dotted, mem_append, mem_cons, slash_not_mem_decimal, false_or,
      not_mem_nil, or_false]
    decide
  intro c hc
  exact bne_iff_ne.mpr fun heq => hslash (heq ▸ hc)

theorem Cidr.take_text (cidr : Cidr) :
    cidr.text.take 95 = cidr.dotted ++ '/' :: decimal cidr.bits := by
  rw [take_of_length_le cidr.text_length, cidr.text_eq]

theorem Cidr.takeWhile_text (cidr : Cidr) :
    (cidr.text.take 95).takeWhile (· != '/') = cidr.dotted := by
  rw [cidr.take_text, takeWhile_append_of_pos cidr.dotted_passes,
    takeWhile_cons_of_neg (by decide), append_nil]

theorem Cidr.dropWhile_text (cidr : Cidr) :
    (cidr.text.take 95).dropWhile (· != '/') = '/' :: decimal cidr.bits := by
  rw [cidr.take_text, dropWhile_append_of_pos cidr.dotted_passes,
    dropWhile_cons_of_neg (by decide)]

theorem mask_eq (n : Nat) (hn : n ≤ 32) :
    (if (n : Int) = 0 then 0#32 else if (n : Int) = 32 then 0xffffffff#32
      else htonl (0xffffffff#32 <<< (32 - (n : Int)).toNat)) = htonl (mask 32 n) := by
  by_cases hzero : n = 0
  · rw [hzero]
    decide
  rw [if_neg (by omega)]
  by_cases hfull : n = 32
  · rw [hfull]
    decide
  · rw [if_neg (by omega), mask]
    have hshift : (32 - (n : Int)).toNat = 32 - n := by omega
    rw [hshift]
    rfl

theorem Cidr.parse (cidr : Cidr) : parseCidr cidr.text =
    some (word cidr.a cidr.b cidr.c cidr.d, htonl (mask 32 cidr.bits)) := by
  have hslash : '/' ∈ cidr.text.take 95 := by
    rw [cidr.take_text]
    exact mem_append_right _ mem_cons_self
  have hnumber : atoi (decimal cidr.bits) = cidr.bits := by
    have h := @atoi_decimal cidr.bits [] (fun _ h => by cases h)
    rwa [append_nil] at h
  have hnumbers : scanDotted cidr.dotted = some (cidr.a, cidr.b, cidr.c, cidr.d) :=
    scanDotted_decimal cidr.a cidr.b cidr.c cidr.d (fun _ h => by cases h)
  have hrange : (0 : Int) ≤ cidr.bits ∧ (cidr.bits : Int) ≤ 32 := by
    have := cidr.bits_le
    omega
  unfold parseCidr
  dsimp only
  rw [cidr.dropWhile_text, cidr.takeWhile_text, drop_one, tail_cons, hnumber, hnumbers,
    guard, guard, if_pos hslash, if_pos hrange]
  exact congrArg (fun m => some (word cidr.a cidr.b cidr.c cidr.d, m)) (mask_eq _ cidr.bits_le)

theorem Cidr.decides_iff (cidr : Cidr) {rule : Rule} (htype : rule.type = .ipCidr)
    (htext : rule.text = cidr.text) (dstBe : BitVec 32) :
    rule.decides dstBe = true ↔ rule.enabled = true ∧ cidr.backwards.Contains (htonl dstBe) := by
  have hcovers : (dstBe &&& htonl (mask 32 cidr.bits) ==
      word cidr.a cidr.b cidr.c cidr.d &&& htonl (mask 32 cidr.bits)) = true ↔
      cidr.backwards.Contains (htonl dstBe) := by
    rw [beq_iff_eq, ← htonl_inj, htonl_and, htonl_and, htonl_htonl, htonl_word]
    exact covers_mask_iff cidr.bits_le _ _
  unfold Rule.decides
  rw [htype, htext, cidr.parse, Bool.and_eq_true]
  exact and_congr_right fun _ => hcovers

/-- A rule of type CIDR has such a text. -/
def Rule.WellFormed (rule : Rule) : Prop :=
  rule.enabled = true → rule.type = .ipCidr → ∃ cidr : Cidr, rule.text = cidr.text

/-- The rule is enabled and matches, its text being about the addresses of `within`. -/
def Rule.Matches (rule : Rule) (within : Cidr → Prop) : Prop :=
  rule.enabled = true ∧
    (rule.type = .default ∨
      rule.type = .ipCidr ∧ ∃ cidr : Cidr, rule.text = cidr.text ∧ within cidr)

/-- The action of the first rule that matches. -/
inductive First (within : Cidr → Prop) (fallback : Action) : List Rule → Action → Prop where
  | none : First within fallback [] fallback
  | here {rule : Rule} {rest : List Rule} :
      rule.Matches within → First within fallback (rule :: rest) rule.action
  | later {rule : Rule} {rest : List Rule} {action : Action} :
      ¬rule.Matches within → First within fallback rest action →
        First within fallback (rule :: rest) action

/-- A domain was looked up, at a time in milliseconds. -/
structure Lookup where
  ipv4Be : BitVec 32
  ttlSec : BitVec 32
  time : Nat

/-- The cache after the lookups since it was empty. -/
def cacheOf (maxDomains : Nat) (lookups : List Lookup) : List CacheEntry :=
  lookups.foldl (fun cache lookup => dnsCacheDomain maxDomains cache lookup.ipv4Be lookup.ttlSec) []

/-- The lookups that there was room for. -/
def kept (maxDomains : Nat) (lookups : List Lookup) : List Lookup := lookups.take maxDomains

/-- The address was cached. -/
def Cached (maxDomains : Nat) (lookups : List Lookup) (dstBe : BitVec 32) : Prop :=
  ∃ lookup ∈ kept maxDomains lookups, lookup.ipv4Be = dstBe

/-- It was cached, and its time to live has not passed. -/
def Live (maxDomains : Nat) (lookups : List Lookup) (now : Nat) (dstBe : BitVec 32) : Prop :=
  ∃ lookup ∈ kept maxDomains lookups, lookup.ipv4Be = dstBe ∧
    now < lookup.time + lookup.ttlSec.toNat * 1000

/-- What is to be done with a packet to the address. -/
inductive Classified (maxDomains : Nat) (lookups : List Lookup) (now : Nat) (rules : List Rule)
    (fallback : Action) (dstBe : BitVec 32) : Action → Prop where
  | cached : Live maxDomains lookups now dstBe →
      Classified maxDomains lookups now rules fallback dstBe .vpn
  | ruled {action : Action} : ¬Live maxDomains lookups now dstBe →
      First (fun cidr => cidr.Contains (htonl dstBe)) fallback rules action →
        Classified maxDomains lookups now rules fallback dstBe action

/-- Up to the first rule that matches in one of two readings, the readings agree. -/
inductive Alike (within within' : Cidr → Prop) : List Rule → Prop where
  | none : Alike within within' []
  | both {rule : Rule} {rest : List Rule} :
      rule.Matches within → rule.Matches within' → Alike within within' (rule :: rest)
  | neither {rule : Rule} {rest : List Rule} :
      ¬rule.Matches within → ¬rule.Matches within' → Alike within within' rest →
        Alike within within' (rule :: rest)

/-- The rule with another action. -/
def Rule.withAction (label : Rule → Action) (rule : Rule) : Rule :=
  { rule with action := label rule }

section First

variable {within within' : Cidr → Prop} {fallback : Action} {rules : List Rule}

theorem First.transfer {action : Action} (h : First within fallback rules action)
    (halike : Alike within within' rules) : First within' fallback rules action := by
  induction halike generalizing action with
  | none =>
    cases h
    exact .none
  | both hmatch hmatch' =>
    cases h with
    | here => exact .here hmatch'
    | later hnot => exact absurd hmatch hnot
  | neither hnot hnot' _ ih =>
    cases h with
    | here hmatch => exact absurd hmatch hnot
    | later _ hrest => exact .later hnot' (ih hrest)

theorem Alike.symm (h : Alike within within' rules) : Alike within' within rules := by
  induction h with
  | none => exact .none
  | both hmatch hmatch' => exact .both hmatch' hmatch
  | neither hnot hnot' _ ih => exact .neither hnot' hnot ih

theorem Alike.map (label : Rule → Action) (h : Alike within within' rules) :
    Alike within within' (rules.map (Rule.withAction label)) := by
  induction h with
  | none => exact .none
  | both hmatch hmatch' => exact .both hmatch hmatch'
  | neither hnot hnot' _ ih => exact .neither hnot hnot' ih

theorem First.mem {action : Action} (h : First within fallback rules action) :
    action = fallback ∨ ∃ rule ∈ rules, rule.Matches within ∧ rule.action = action := by
  induction h with
  | none => exact .inl rfl
  | here hmatch => exact .inr ⟨_, mem_cons_self, hmatch, rfl⟩
  | later _ _ ih =>
    refine ih.imp id ?_
    rintro ⟨rule, hmem, hmatch, haction⟩
    exact ⟨rule, mem_cons_of_mem _ hmem, hmatch, haction⟩

/-- With one action for the rule and another for all others, a list that the rule does not match
in gives the other. -/
theorem First.marked {rule : Rule} (hnot : ¬rule.Matches within) {action : Action}
    (h : First within .direct
      (rules.map (Rule.withAction fun other => if other = rule then .vpn else .direct)) action) :
    action = .direct := by
  obtain hfallback | ⟨labelled, hmem, hmatch, haction⟩ := h.mem
  · exact hfallback
  obtain ⟨other, -, rfl⟩ := mem_map.mp hmem
  have hother : other ≠ rule := fun heq => hnot (heq ▸ hmatch)
  rw [← haction, Rule.withAction, if_neg hother]

/-- Two readings that give the same action, whatever the actions of the rules are, agree. -/
theorem alike_of_actions
    (h : ∀ (label : Rule → Action) (fallback : Action), ∃ action,
      First within fallback (rules.map (Rule.withAction label)) action ∧
      First within' fallback (rules.map (Rule.withAction label)) action) :
    Alike within within' rules := by
  induction rules with
  | nil => exact .none
  | cons rule rest ih =>
    by_cases hmatch : rule.Matches within <;> by_cases hmatch' : rule.Matches within'
    · exact .both hmatch hmatch'
    · obtain ⟨action, hfirst, hfirst'⟩ :=
        h (fun other => if other = rule then .vpn else .direct) .direct
      have hdirect := @First.marked within' (rule :: rest) rule hmatch' action hfirst'
      cases hfirst with
      | here => simp [Rule.withAction] at hdirect
      | later hnot => exact absurd hmatch hnot
    · obtain ⟨action, hfirst, hfirst'⟩ :=
        h (fun other => if other = rule then .vpn else .direct) .direct
      have hdirect := @First.marked within (rule :: rest) rule hmatch action hfirst
      cases hfirst' with
      | here => simp [Rule.withAction] at hdirect
      | later hnot => exact absurd hmatch' hnot
    · refine .neither hmatch hmatch' (ih fun label fallback => ?_)
      obtain ⟨action, hfirst, hfirst'⟩ := h label fallback
      cases hfirst with
      | here hagain => exact absurd hagain hmatch
      | later _ hrest =>
        cases hfirst' with
        | here hagain => exact absurd hagain hmatch'
        | later _ hrest' => exact ⟨action, hrest, hrest'⟩

end First

section Code

variable {maxDomains now : Nat} {lookups : List Lookup} {rules : List Rule} {dstBe : BitVec 32}

theorem Rule.WellFormed.decides_iff {rule : Rule} (h : rule.WellFormed) (dstBe : BitVec 32) :
    rule.decides dstBe = true ↔
      rule.Matches fun cidr => cidr.backwards.Contains (htonl dstBe) := by
  cases htype : rule.type with
  | ipCidr =>
    constructor
    · intro hdecides
      have henabled : rule.enabled = true := by
        unfold Rule.decides at hdecides
        rw [Bool.and_eq_true] at hdecides
        exact hdecides.1
      obtain ⟨cidr, htext⟩ := h henabled htype
      have hcontains := ((cidr.decides_iff htype htext dstBe).mp hdecides).2
      exact ⟨henabled, .inr ⟨htype, cidr, htext, hcontains⟩⟩
    · rintro ⟨henabled, hdefault | ⟨-, cidr, htext, hcontains⟩⟩
      · rw [htype] at hdefault
        cases hdefault
      · exact (cidr.decides_iff htype htext dstBe).mpr ⟨henabled, hcontains⟩
  | domain => simp [Rule.decides, Rule.Matches, htype]
  | geo => simp [Rule.decides, Rule.Matches, htype]
  | default => simp [Rule.decides, Rule.Matches, htype]

theorem find_first (fallback : Action) (hwell : ∀ rule ∈ rules, rule.WellFormed) :
    First (fun cidr => cidr.backwards.Contains (htonl dstBe)) fallback rules
      (match rules.find? (·.decides dstBe) with
        | some rule => rule.action
        | none => fallback) := by
  induction rules with
  | nil => exact .none
  | cons rule rest ih =>
    have hiff := (hwell rule mem_cons_self).decides_iff dstBe
    cases hdecides : rule.decides dstBe with
    | true =>
      simp only [find?_cons, hdecides]
      exact .here (hiff.mp hdecides)
    | false =>
      have hnot : ¬rule.decides dstBe = true := by rw [hdecides]; exact Bool.false_ne_true
      simp only [find?_cons, hdecides]
      exact .later (fun hmatch => hnot (hiff.mpr hmatch))
        (ih fun other hmem => hwell other (mem_cons_of_mem _ hmem))

/-- What the cache keeps of a lookup. -/
def Lookup.entry (lookup : Lookup) : CacheEntry :=
  ⟨lookup.ipv4Be, .vpn, lookup.ttlSec * 1000#32⟩

theorem cache_full (cache : List CacheEntry) (hfull : maxDomains ≤ cache.length) :
    lookups.foldl (fun cache lookup =>
      dnsCacheDomain maxDomains cache lookup.ipv4Be lookup.ttlSec) cache = cache := by
  induction lookups with
  | nil => rfl
  | cons lookup rest ih =>
    rw [foldl_cons, dnsCacheDomain, if_pos hfull, ih]

theorem cache_from (cache : List CacheEntry) :
    lookups.foldl (fun cache lookup =>
      dnsCacheDomain maxDomains cache lookup.ipv4Be lookup.ttlSec) cache =
      cache ++ (lookups.take (maxDomains - cache.length)).map Lookup.entry := by
  induction lookups generalizing cache with
  | nil => rw [take_nil, map_nil, append_nil, foldl_nil]
  | cons lookup rest ih =>
    by_cases hfull : maxDomains ≤ cache.length
    · rw [cache_full cache hfull, Nat.sub_eq_zero_of_le hfull, take_zero, map_nil,
        append_nil]
    · have hroom : maxDomains - cache.length = maxDomains - (cache.length + 1) + 1 := by omega
      rw [foldl_cons, dnsCacheDomain, if_neg hfull, ih, hroom, take_succ_cons,
        map_cons, append_assoc, length_append, length_singleton]
      rfl

theorem cacheOf_eq : cacheOf maxDomains lookups = (kept maxDomains lookups).map Lookup.entry := by
  have h := @cache_from maxDomains lookups []
  rwa [nil_append] at h

theorem Live.cached (h : Live maxDomains lookups now dstBe) : Cached maxDomains lookups dstBe := by
  obtain ⟨lookup, hmem, hip, -⟩ := h
  exact ⟨lookup, hmem, hip⟩

theorem classify_cached (h : Cached maxDomains lookups dstBe) (rules : List Rule)
    (fallback : Action) :
    classifyIpv4 ⟨rules, fallback, cacheOf maxDomains lookups⟩ dstBe = .vpn := by
  obtain ⟨lookup, hmem, hip⟩ := h
  have hfound : ((cacheOf maxDomains lookups).find? (·.ipBe == dstBe)).isSome = true := by
    rw [find?_isSome, cacheOf_eq]
    exact ⟨lookup.entry, mem_map_of_mem hmem, beq_iff_eq.mpr hip⟩
  obtain ⟨entry, hentry⟩ := Option.isSome_iff_exists.mp hfound
  have hin := mem_of_find?_eq_some hentry
  rw [cacheOf_eq] at hin
  obtain ⟨other, -, rfl⟩ := mem_map.mp hin
  unfold classifyIpv4
  dsimp only
  rw [hentry]
  rfl

theorem classify_uncached (h : ¬Cached maxDomains lookups dstBe) (fallback : Action)
    (hwell : ∀ rule ∈ rules, rule.WellFormed) :
    First (fun cidr => cidr.backwards.Contains (htonl dstBe)) fallback rules
      (classifyIpv4 ⟨rules, fallback, cacheOf maxDomains lookups⟩ dstBe) := by
  have hnone : (cacheOf maxDomains lookups).find? (·.ipBe == dstBe) = none := by
    rw [find?_eq_none, cacheOf_eq]
    intro entry hentry hip
    obtain ⟨lookup, hmem, rfl⟩ := mem_map.mp hentry
    exact h ⟨lookup, hmem, beq_iff_eq.mp hip⟩
  unfold classifyIpv4
  dsimp only
  rw [hnone]
  exact find_first fallback hwell

theorem wellFormed_withAction (label : Rule → Action) (hwell : ∀ rule ∈ rules, rule.WellFormed) :
    ∀ rule ∈ rules.map (Rule.withAction label), rule.WellFormed := by
  intro rule hmem
  obtain ⟨other, hother, rfl⟩ := mem_map.mp hmem
  exact hwell other hother

/-- Whatever the actions of the rules are, a packet is classified as it should be exactly when its
address has been looked up and may still be kept; or has never been looked up, and the first rule
that matches it when the four numbers of a text are read forwards or backwards matches in both. -/
theorem route_classified (hwell : ∀ rule ∈ rules, rule.WellFormed) :
    (∀ (label : Rule → Action) (fallback : Action),
      Classified maxDomains lookups now (rules.map (Rule.withAction label)) fallback dstBe
        (classifyIpv4 ⟨rules.map (Rule.withAction label), fallback, cacheOf maxDomains lookups⟩
          dstBe)) ↔
      Live maxDomains lookups now dstBe ∨ ¬Cached maxDomains lookups dstBe ∧
        Alike (fun cidr => cidr.Contains (htonl dstBe))
          (fun cidr => cidr.backwards.Contains (htonl dstBe)) rules := by
  constructor
  · intro h
    by_cases hlive : Live maxDomains lookups now dstBe
    case pos => exact .inl hlive
    case neg =>
      have hruled : ∀ (label : Rule → Action) (fallback : Action),
          First (fun cidr => cidr.Contains (htonl dstBe)) fallback
            (rules.map (Rule.withAction label))
            (classifyIpv4 ⟨rules.map (Rule.withAction label), fallback,
              cacheOf maxDomains lookups⟩ dstBe) := by
        intro label fallback
        generalize hresult : classifyIpv4 _ dstBe = action
        have hclassified := h label fallback
        rw [hresult] at hclassified
        cases hclassified with
        | cached hagain => exact absurd hagain hlive
        | ruled _ hfirst => exact hfirst
      have hnot : ¬Cached maxDomains lookups dstBe := by
        intro hcached
        -- Rules that all say "direct" cannot give the action of a cached address.
        have hfirst := hruled (fun _ => .direct) .direct
        rw [classify_cached hcached] at hfirst
        obtain hfallback | ⟨rule, hmem, -, haction⟩ := hfirst.mem
        · cases hfallback
        · obtain ⟨other, -, rfl⟩ := List.mem_map.mp hmem
          cases haction
      exact .inr ⟨hnot, alike_of_actions fun label fallback =>
        ⟨_, hruled label fallback,
          classify_uncached hnot fallback (wellFormed_withAction label hwell)⟩⟩
  · rintro (hlive | ⟨hnot, halike⟩) label fallback
    · rw [classify_cached hlive.cached]
      exact .cached hlive
    · have hfirst := classify_uncached hnot fallback (wellFormed_withAction label hwell)
      exact .ruled (fun hlive => hnot hlive.cached) (hfirst.transfer (halike.map label).symm)

/-- The network of the numbers, all of it to the tunnel. -/
def toTunnel (a b c d : BitVec 8) (bits : Nat) (hbits : bits ≤ 32) : Rule :=
  ⟨.ipCidr, .vpn, (Cidr.mk a b c d bits hbits).text, true⟩

theorem toTunnel_wellFormed (a b c d : BitVec 8) {bits : Nat} (hbits : bits ≤ 32) :
    (toTunnel a b c d bits hbits).WellFormed := fun _ _ => ⟨_, rfl⟩

/-- Rules and packets of which the numbers are the same from both ends. -/
theorem route_classified_same :
    (∀ rule ∈ [toTunnel 7 7 7 7 32 (by decide)], rule.WellFormed) ∧
    ∀ (label : Rule → Action) (fallback : Action),
      Classified 64 [] 0
        ([toTunnel 7 7 7 7 32 (by decide)].map (Rule.withAction label)) fallback 0x07070707#32
        (classifyIpv4 ⟨[toTunnel 7 7 7 7 32 (by decide)].map (Rule.withAction label), fallback,
          cacheOf 64 []⟩ 0x07070707#32) := by
  have hwell : ∀ rule ∈ [toTunnel 7 7 7 7 32 (by decide)], rule.WellFormed := by
    intro rule hmem
    rw [List.mem_singleton.mp hmem]
    exact toTunnel_wellFormed 7 7 7 7 _
  have hcontains : (Cidr.mk 7 7 7 7 32 (by decide)).Contains (htonl 0x07070707#32) := by
    unfold Cidr.Contains
    decide
  refine ⟨hwell, (route_classified hwell).mpr (.inr ⟨?_, .both ?_ ?_⟩)⟩
  · rintro ⟨lookup, hmem, -⟩
    cases hmem
  · exact ⟨rfl, .inr ⟨rfl, _, rfl, hcontains⟩⟩
  · exact ⟨rfl, .inr ⟨rfl, _, rfl, hcontains⟩⟩

/-- A packet to 10.1.2.3 is not tunnelled for a rule about 10.0.0.0/8; and one to an address that
was to be kept for a minute still is, a minute later. -/
theorem route_misclassified :
    (∀ rule ∈ [toTunnel 10 0 0 0 8 (by decide)], rule.WellFormed) ∧
    ¬Classified 64 [] 0 [toTunnel 10 0 0 0 8 (by decide)] .direct 0x0302010a#32
      (classifyIpv4 ⟨[toTunnel 10 0 0 0 8 (by decide)], .direct, cacheOf 64 []⟩ 0x0302010a#32) ∧
    ¬Classified 64 [⟨0x0302010a#32, 60#32, 0⟩] 60000 [] .direct 0x0302010a#32
      (classifyIpv4 ⟨[], .direct, cacheOf 64 [⟨0x0302010a#32, 60#32, 0⟩]⟩ 0x0302010a#32) := by
  refine ⟨fun rule hmem => ?_, ?_, ?_⟩
  · rw [List.mem_singleton.mp hmem]
    exact toTunnel_wellFormed 10 0 0 0 _
  · have hresult : classifyIpv4 ⟨[toTunnel 10 0 0 0 8 (by decide)], .direct, cacheOf 64 []⟩
        0x0302010a#32 = .direct := by decide
    have hcontains : (Cidr.mk 10 0 0 0 8 (by decide)).Contains (htonl 0x0302010a#32) := by
      unfold Cidr.Contains
      decide
    rw [hresult]
    intro h
    cases h with
    | ruled _ hfirst =>
      cases hfirst with
      | later hnot _ => exact hnot ⟨rfl, .inr ⟨rfl, _, rfl, hcontains⟩⟩
  · have hresult : classifyIpv4 ⟨[], .direct, cacheOf 64 [⟨0x0302010a#32, 60#32, 0⟩]⟩
        0x0302010a#32 = .vpn := by decide
    rw [hresult]
    intro h
    cases h with
    | cached hlive =>
      obtain ⟨lookup, hmem, -, hnow⟩ := hlive
      rw [List.mem_singleton.mp hmem] at hnow
      exact absurd hnow (by decide)
    | ruled _ hfirst => cases hfirst

end Code

end Meshpn.Device.Rules
