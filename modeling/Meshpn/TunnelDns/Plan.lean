import Meshpn.Lib.Text

/-!
The fixed network plan of plain tunnel DNS (`dns-tunnel-plan.mjs`): the
firewall rules, routes and policies that force DNS through the TUN, in the
order they are installed, and the temporary gate that stays closed while the
plan is not complete.

An operation is represented by the item it puts into the kernel. Removal names
the same item, as `operationKey` does for the commands of the source.
-/

namespace Meshpn.TunnelDns

open Meshpn.Lib

/-- Local DNS of this host, or of the peers behind one selected ingress. -/
inductive Ingress where
  | host : Ingress
  | fromTun : String → Ingress
  | lan : (subnet : String) → (interface : String) → Ingress
  deriving DecidableEq, Repr

namespace Ingress

def tun : Ingress → Option String
  | .fromTun name => some name
  | _ => none

def lanSubnet : Ingress → Option String
  | .lan subnet _ => some subnet
  | _ => none

def lanInterface : Ingress → Option String
  | .lan _ interface => some interface
  | _ => none

/-- The three fields of a configuration that say which ingress is selected. -/
def fields (ingress : Ingress) : Option String × Option String × Option String :=
  (ingress.tun, ingress.lanSubnet, ingress.lanInterface)

/-- Any other combination of the three fields is refused. -/
def ofFields : Option String → Option String → Option String → Option Ingress
  | none, none, none => some .host
  | some name, none, none => some (.fromTun name)
  | none, some subnet, some interface => some (.lan subnet interface)
  | _, _, _ => none

/-- The match of packets that arrive from the selected ingress. -/
def selected : Ingress → Option (List String)
  | .host => none
  | .fromTun name => some ["-i", name]
  | .lan subnet interface => some ["-i", interface, "-s", subnet]

/-- `fromTun ?? lanInterface`. -/
def selectedInterface : Ingress → Option String
  | .host => none
  | .fromTun name => some name
  | .lan _ interface => some interface

theorem fields_injective {a b : Ingress} (h : a.fields = b.fields) : a = b := by
  cases a <;> cases b <;> simp_all [fields, tun, lanSubnet, lanInterface]

end Ingress

structure Config where
  tun : String
  primary : String
  ingress : Ingress
  deriving DecidableEq, Repr

/-- What a caller passes; absent fields take the defaults of the source. -/
structure Input where
  tun : String
  primary : Option String
  fromTun : Option String
  lanSubnet : Option String
  lanInterface : Option String
  deriving DecidableEq, Repr

/-- `/^[a-zA-Z0-9_][a-zA-Z0-9_.-]{0,14}$/` without the loopback. -/
def iface (name : String) : Bool :=
  let word := fun c : Char => c.isAlphanum || c == '_'
  (name.toList.head?.map word).getD false && name.toList.length ≤ 15 &&
    name.toList.all (fun c => word c || c == '.' || c == '-') && name != "lo"

/-- The address part and the bits of a network, cut at the slash. -/
def cidrParts (v : String) : Option (String × Nat) :=
  match Text.splitOn '/' v with
  | [address, bits] => (Text.octet bits).map (fun n => (String.ofList address, n))
  | _ => none

/-- `cidr`: a network address of 1 to 32 bits. -/
def cidr (v : String) : Bool :=
  match cidrParts v with
  | some (address, bits) =>
    Text.isIPv4 address && 1 ≤ bits && bits ≤ 32 &&
      (Text.ipv4Value address >>> (32 - bits)) <<< (32 - bits) == Text.ipv4Value address
  | none => false

def excluded4 : List (String × Nat) :=
  [("0.0.0.0", 8), ("10.0.0.0", 8), ("100.64.0.0", 10), ("127.0.0.0", 8), ("169.254.0.0", 16),
    ("172.16.0.0", 12), ("192.0.0.0", 24), ("192.0.2.0", 24), ("192.88.99.0", 24),
    ("192.168.0.0", 16), ("198.18.0.0", 15), ("198.51.100.0", 24), ("203.0.113.0", 24),
    ("224.0.0.0", 3)]

/-- `isPublicRelayAddress` on an IPv4 address. -/
def isPublicRelayAddress (address : String) : Bool :=
  excluded4.all (fun (base, bits) =>
    !Text.sameNetwork bits (Text.ipv4Value address) (Text.ipv4Value base))

def defaultServers : String × String := ("1.1.1.1", "8.8.8.8")

/-- `tunnelDnsServers` of a primary that passed its check: the backup is not
asked a second time when it is the primary. -/
def servers (primary : String) : List String :=
  if primary = defaultServers.2 then [primary] else [primary, defaultServers.2]

def validServer (primary : String) : Bool := Text.isIPv4 primary && isPublicRelayAddress primary

/-- The assertions of `compileTunnelDnsPlan`. -/
def Config.valid (config : Config) : Bool :=
  iface config.tun && validServer config.primary &&
    match config.ingress with
    | .host => true
    | .fromTun name => iface name && config.tun != name
    | .lan subnet interface => cidr subnet && iface interface && config.tun != interface

def configOf (input : Input) : Option Config :=
  match Ingress.ofFields input.fromTun input.lanSubnet input.lanInterface with
  | none => none
  | some ingress =>
    let config : Config := ⟨input.tun, input.primary.getD defaultServers.1, ingress⟩
    if config.valid then some config else none

variable {config : Config} {id : String}

theorem configOf_valid {input : Input} (h : configOf input = some config) :
    config.valid = true := by
  rw [configOf] at h
  cases hingress : Ingress.ofFields input.fromTun input.lanSubnet input.lanInterface with
  | none => simp [hingress] at h
  | some ingress =>
    simp only [hingress, Option.ite_none_right_eq_some, Option.some.injEq] at h
    obtain ⟨hvalid, rfl⟩ := h
    exact hvalid

inductive Stage where
  | guard | route | activate
  deriving DecidableEq, Repr

inductive Tool where
  | iptables | ip6tables
  deriving DecidableEq, Repr

inductive Table where
  | filter | nat
  deriving DecidableEq, Repr

/-- `CVPN-DNS-OUT`, `CVPN-DNS-IN` and `CVPN-DNS-NAT`. -/
inductive OwnChain where
  | out | input | nat
  deriving DecidableEq, Repr

inductive Chain where
  | output | input | forward | prerouting
  | own : OwnChain → Chain
  deriving DecidableEq, Repr

/-- `dnat` goes to the address and port of the listener. -/
inductive Target where
  | ret | reject | accept | drop | dnat
  | jump : OwnChain → Target
  deriving DecidableEq, Repr

/-- The comment of a rule: `clean-vpn-dns-tunnel-` or `clean-vpn-dns-hold-`
followed by the journal's identifier. -/
inductive Tag where
  | tunnel : String → Tag
  | hold : String → Tag
  deriving DecidableEq, Repr

structure Rule where
  tool : Tool
  table : Table
  chain : Chain
  tag : Tag
  spec : List String
  target : Target
  deriving DecidableEq, Repr

/-- Everything in the space of tags, chains, the table 19998 and the two
priorities that `readNetwork` reports. -/
inductive Item where
  | chain : Table → OwnChain → Item
  | rule : Rule → Item
  | unreachable : Item
  | route : (server : String) → (tun : String) → Item
  | policy : (priority : Nat) → (server : String) → Item
  deriving DecidableEq, Repr

/-- `first` inserts a rule before the others of its chain. -/
structure Op where
  stage : Stage
  item : Item
  first : Bool
  deriving DecidableEq, Repr

def address : String := "10.99.0.2"

def port : String := "1053"

inductive Protocol where
  | udp | tcp
  deriving DecidableEq, Repr

def Protocol.name : Protocol → String
  | .udp => "udp"
  | .tcp => "tcp"

def protocols : List Protocol := [.udp, .tcp]

def priorities : List Nat := [10996, 10997]

section Plan

variable (config : Config) (id : String)

def chain (stage : Stage) (table : Table) (name : OwnChain) : Op :=
  ⟨stage, .chain table name, false⟩

def append (stage : Stage) (tool : Tool) (table : Table) (chain : Chain) (spec : List String)
    (target : Target) : Op :=
  ⟨stage, .rule ⟨tool, table, chain, .tunnel id, spec, target⟩, false⟩

def insert (stage : Stage) (tool : Tool) (table : Table) (chain : Chain) (spec : List String)
    (target : Target) : Op :=
  ⟨stage, .rule ⟨tool, table, chain, .tunnel id, spec, target⟩, true⟩

/-- Rules that only local DNS of this host needs. -/
def unlessTun (ops : List Op) : List Op := if config.ingress.tun.isSome then [] else ops

/-- The chain that decides which DNS may leave, and the closed listener. -/
def guardChains : List Op :=
  chain .guard .filter .out ::
  (servers config.primary).map (fun server => append id .guard .iptables .filter (.own .out)
    ["-s", address, "-o", config.tun, "-d", server] .ret) ++
  unlessTun config [append id .guard .iptables .filter (.own .out) ["-d", "127.0.0.0/8"] .ret] ++
  [append id .guard .iptables .filter (.own .out) [] .reject]

def listenerChain : List Op :=
  [chain .guard .filter .input, append id .guard .iptables .filter (.own .input) [] .reject]

def selectedGuards (protocol : Protocol) : List Op :=
  let dns := ["-p", protocol.name, "--dport", "53"]
  let listener := ["-p", protocol.name, "--dport", port]
  match config.ingress.selected, config.ingress.selectedInterface with
  | some selected, some interface =>
    insert id .guard .iptables .filter .forward (selected ++ ["-d", address] ++ listener) .reject ::
    [Chain.input, Chain.forward].flatMap (fun hook =>
      [insert id .guard .iptables .filter hook (selected ++ dns) .reject,
        insert id .guard .ip6tables .filter hook (["-i", interface] ++ dns) .reject])
  | _, _ => []

def protocolGuards (protocol : Protocol) : List Op :=
  let dns := ["-p", protocol.name, "--dport", "53"]
  let listener := ["-p", protocol.name, "--dport", port]
  [insert id .guard .iptables .filter .output
      ((if config.ingress.tun.isSome then ["-s", address] else []) ++ dns) (.jump .out),
    insert id .guard .iptables .filter .output
      (["-d", address, "-m", "addrtype", "!", "--dst-type", "LOCAL"] ++ listener) .reject,
    insert id .guard .iptables .filter .input (["-d", address] ++ listener) (.jump .input)] ++
  unlessTun config [insert id .guard .ip6tables .filter .output
    (["!", "-d", "::1/128"] ++ dns) .reject] ++
  selectedGuards config id protocol

def routes : List Op :=
  ⟨.route, .unreachable, false⟩ ::
  ((servers config.primary).zip priorities).flatMap (fun (server, priority) =>
    [⟨.route, .route server config.tun, false⟩, ⟨.route, .policy priority server, false⟩])

/-- The listener opens for the selected clients only. -/
def openListener : List Op :=
  unlessTun config [insert id .activate .iptables .filter (.own .input) ["-i", "lo"] .accept] ++
  match config.ingress.selected with
  | some selected => protocols.map (fun protocol =>
      insert id .activate .iptables .filter (.own .input)
        (selected ++ ["-p", protocol.name, "-m", "conntrack", "--ctstate", "DNAT",
          "--ctorigdstport", "53"]) .accept)
  | none => []

def capture (protocol : Protocol) : List Op :=
  let dns := ["-p", protocol.name, "--dport", "53"]
  append id .activate .iptables .nat (.own .nat) ["-p", protocol.name] .dnat ::
  unlessTun config [insert id .activate .iptables .nat .output
    (["!", "-s", address, "!", "-d", "127.0.0.0/8"] ++ dns) (.jump .nat)] ++
  match config.ingress.selected with
  | some selected => [insert id .activate .iptables .nat .prerouting (selected ++ dns) (.jump .nat)]
  | none => []

/-- `compileTunnelDnsPlan(config).operations` under the tag of a journal. -/
def compileTunnelDnsPlan : List Op :=
  guardChains config id ++ listenerChain id ++ protocols.flatMap (protocolGuards config id) ++
    routes config ++ openListener config id ++
    [chain .activate .nat .nat] ++ protocols.flatMap (capture config id)

end Plan

/-- `compileTunnelDnsHold`: the closed gate, in the order it is put up. -/
def compileTunnelDnsHold (ingress : Ingress) (id : String) : List Item :=
  let add := fun (tool : Tool) (chain : Chain) (spec : List String) =>
    Item.rule ⟨tool, .filter, chain, .hold id, spec, .drop⟩
  protocols.flatMap (fun protocol =>
    [add .iptables .output
        ((if ingress.tun.isSome then ["-s", address] else []) ++
          ["-p", protocol.name, "--dport", "53"]),
      add .iptables .output ["-d", address, "-p", protocol.name, "--dport", port]] ++
    (if ingress.tun.isSome then []
      else [add .ip6tables .output ["-p", protocol.name, "--dport", "53"]]) ++
    match ingress.selected, ingress.selectedInterface with
    | some selected, some interface => [Chain.input, Chain.forward].flatMap (fun hook =>
        [add .iptables hook
            (selected ++ ["-p", protocol.name, "-m", "multiport", "--dports", "53," ++ port]),
          add .ip6tables hook ["-i", interface, "-p", protocol.name, "--dport", "53"]])
    | _, _ => [])

def Item.isHold : Item → Bool
  | .rule ⟨_, _, _, .hold _, _, _⟩ => true
  | _ => false

/-- The rule stands in the chain or jumps to it. -/
def Item.uses (table : Table) (name : OwnChain) : Item → Bool
  | .rule r => r.table == table && (r.chain == .own name || r.target == .jump name)
  | _ => false

theorem hold_isHold {ingress : Ingress} :
    ∀ item ∈ compileTunnelDnsHold ingress id, item.isHold = true := by
  cases ingress <;>
    simp [compileTunnelDnsHold, protocols, Ingress.tun, Ingress.selected,
      Ingress.selectedInterface, Item.isHold]

theorem hold_nonempty (ingress : Ingress) (id : String) :
    compileTunnelDnsHold ingress id ≠ [] := by
  simp [compileTunnelDnsHold, protocols]

/-- Rules of a plan carry its tag and its routes go to its TUN. -/
def Item.ofPlan (config : Config) (id : String) : Item → Bool
  | .rule r => r.tag == .tunnel id
  | .route _ tun => tun == config.tun
  | _ => true

theorem routes_ofPlan (config : Config) (id : String) :
    ∀ op ∈ routes config, op.item.ofPlan config id = true := by
  intro op hop
  simp only [routes, List.mem_cons, List.mem_flatMap, List.not_mem_nil, or_false] at hop
  rcases hop with rfl | ⟨⟨server, priority⟩, _, rfl | rfl⟩ <;> simp [Item.ofPlan]

theorem plan_ofPlan :
    ∀ op ∈ compileTunnelDnsPlan config id, op.item.ofPlan config id = true := by
  have hroutes := routes_ofPlan config id
  rcases config with ⟨tun, primary, ingress⟩
  simp only [compileTunnelDnsPlan, List.forall_mem_append]
  refine ⟨⟨⟨⟨⟨⟨?_, ?_⟩, ?_⟩, hroutes⟩, ?_⟩, ?_⟩, ?_⟩ <;> cases ingress <;>
    simp [guardChains, listenerChain, protocolGuards, selectedGuards, openListener, capture,
      unlessTun, chain, append, insert, protocols, Ingress.tun, Ingress.selected,
      Ingress.selectedInterface, Item.ofPlan, or_imp, forall_and]

theorem plan_not_hold {op : Op}
    (h : op ∈ compileTunnelDnsPlan config id) : op.item.isHold = false := by
  have hplan := plan_ofPlan op h
  rcases op with ⟨stage, item, first⟩
  cases item with
  | rule r =>
    rcases r with ⟨_, _, _, tag, _, _⟩
    cases tag <;> simp_all [Item.ofPlan, Item.isHold]
  | chain => rfl
  | unreachable => rfl
  | route => rfl
  | policy => rfl

/-- No operation before the creation of a chain uses it, so that undoing the
plan from its end finds every chain unused. -/
def Fresh (a b : Op) : Prop :=
  ∀ table name, b.item = .chain table name → a.item.uses table name = false

/-- A segment that creates no chains. -/
def Quiet (ops : List Op) : Prop := ∀ op ∈ ops, ∀ table name, op.item ≠ .chain table name

theorem pairwise_fresh_append {ops more : List Op} (h : ops.Pairwise Fresh) (hquiet : Quiet more) :
    (ops ++ more).Pairwise Fresh := by
  rw [List.pairwise_append]
  refine ⟨h, List.pairwise_of_forall_mem_list ?_, ?_⟩
  · intro a _ b hb table name hchain
    exact absurd hchain (hquiet b hb table name)
  · intro a _ b hb table name hchain
    exact absurd hchain (hquiet b hb table name)

theorem pairwise_fresh_chain {ops : List Op} (stage : Stage) {table : Table} {name : OwnChain}
    (h : ops.Pairwise Fresh) (hunused : ∀ op ∈ ops, op.item.uses table name = false) :
    (ops ++ [chain stage table name]).Pairwise Fresh := by
  rw [List.pairwise_append]
  refine ⟨h, List.pairwise_singleton _ _, ?_⟩
  intro a ha b hb other found hchain
  rw [List.mem_singleton] at hb
  subst hb
  simp only [chain, Item.chain.injEq] at hchain
  obtain ⟨rfl, rfl⟩ := hchain
  exact hunused a ha

theorem routes_quiet (config : Config) : Quiet (routes config) := by
  intro op hop
  simp only [routes, List.mem_cons, List.mem_flatMap, List.not_mem_nil, or_false] at hop
  rcases hop with rfl | ⟨⟨server, priority⟩, _, rfl | rfl⟩ <;> simp

theorem routes_unused (config : Config) (table : Table) (name : OwnChain) :
    ∀ op ∈ routes config, op.item.uses table name = false := by
  intro op hop
  simp only [routes, List.mem_cons, List.mem_flatMap, List.not_mem_nil, or_false] at hop
  rcases hop with rfl | ⟨⟨server, priority⟩, _, rfl | rfl⟩ <;> rfl

theorem rules_quiet (config : Config) (id : String) :
    Quiet (guardChains config id).tail ∧ Quiet (listenerChain id).tail ∧
      Quiet (protocols.flatMap (protocolGuards config id)) ∧ Quiet (openListener config id) ∧
      Quiet (protocols.flatMap (capture config id)) := by
  rcases config with ⟨tun, primary, ingress⟩
  cases ingress <;>
    simp [Quiet, guardChains, listenerChain, protocolGuards, selectedGuards, openListener, capture,
      unlessTun, append, insert, protocols, Ingress.tun, Ingress.selected,
      Ingress.selectedInterface, or_imp, forall_and]

theorem rules_unused (config : Config) (id : String) :
    (∀ op ∈ guardChains config id, op.item.uses .filter .input = false) ∧
      ∀ op ∈ guardChains config id ++ listenerChain id ++
        protocols.flatMap (protocolGuards config id) ++ openListener config id,
        op.item.uses .nat .nat = false := by
  rcases config with ⟨tun, primary, ingress⟩
  cases ingress <;>
    simp [guardChains, listenerChain, protocolGuards, selectedGuards, openListener, unlessTun,
      chain, append, insert, protocols, Ingress.tun, Ingress.selected, Ingress.selectedInterface,
      Item.uses, or_imp, forall_and]

theorem plan_fresh (config : Config) (id : String) :
    (compileTunnelDnsPlan config id).Pairwise Fresh := by
  obtain ⟨hout, hin, hguards, hopen, hcapture⟩ := rules_quiet config id
  obtain ⟨hinput, hnat⟩ := rules_unused config id
  have hchains : (guardChains config id).Pairwise Fresh := by
    have hall := pairwise_fresh_append
      (List.pairwise_singleton Fresh (chain .guard .filter .out)) hout
    exact hall
  have hlistener : (guardChains config id ++ listenerChain id).Pairwise Fresh := by
    have hall := pairwise_fresh_append (pairwise_fresh_chain .guard hchains hinput) hin
    rwa [List.append_assoc] at hall
  have hfilter : (guardChains config id ++ listenerChain id ++
      protocols.flatMap (protocolGuards config id) ++ routes config ++
      openListener config id).Pairwise Fresh :=
    pairwise_fresh_append (pairwise_fresh_append (pairwise_fresh_append hlistener hguards)
      (routes_quiet config)) hopen
  refine pairwise_fresh_append (pairwise_fresh_chain .activate hfilter ?_) hcapture
  simp only [List.forall_mem_append] at hnat ⊢
  exact ⟨⟨hnat.1, routes_unused config .nat .nat⟩, hnat.2⟩

theorem plan_chain_unused {n : Nat} {op : Op} {table : Table}
    {name : OwnChain} (h : (compileTunnelDnsPlan config id)[n]? = some op)
    (hchain : op.item = .chain table name) :
    ∀ earlier ∈ (compileTunnelDnsPlan config id).take n,
      earlier.item.uses table name = false := by
  intro earlier hearlier
  obtain ⟨m, hm, rfl⟩ := List.mem_iff_getElem.mp hearlier
  obtain ⟨hn, rfl⟩ := List.getElem?_eq_some_iff.mp h
  simp only [List.length_take, Nat.lt_min] at hm
  rw [List.getElem_take]
  exact List.pairwise_iff_getElem.mp (plan_fresh config id) m n hm.2 hn hm.1 table name hchain

end Meshpn.TunnelDns
