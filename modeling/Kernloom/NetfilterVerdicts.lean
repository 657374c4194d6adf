import Kernloom.FirstMatch
import Kernloom.NetfilterRender

/-! What the rendered rules of a chain do to a packet. Both renderers let management traffic through
and enforce the level of every other source, as long as no entry of the allowlist is empty. -/

namespace Kernloom

namespace Netfilter

open FirstMatch

section Addresses

/-- An IPv4 network in CIDR notation; an address alone is a network of one. -/
@[irreducible] def parseCIDR4 (s : String) : Option (Nat × Nat) :=
  match splitRunes (· = '/') s.toList with
  | [addr] => (parseIPv4Fields addr).map (·, 32)
  | [addr, len] =>
    match parseIPv4Fields addr, digitsValue len with
    | some n, some len => if len ≤ 32 then some (n, len) else none
    | _, _ => none
  | _ => none

/-- The address is in the network that a text names. -/
def inCIDR4 (s : String) (a : Addr4) : Bool :=
  match parseCIDR4 s with
  | some (n, len) => n / 2 ^ (32 - len) = a.toNat / 2 ^ (32 - len)
  | none => false

theorem parseOctet_digits : ∀ n < 256, parseOctet (Nat.toDigits 10 n) = some n := by decide +kernel

theorem parseOctet_isDigit {cs : List Char} {n : Nat} (h : parseOctet cs = some n) : ∀ c ∈ cs, c.isDigit = true := by
  unfold parseOctet digitsValue at h
  by_cases hdigits : cs ≠ [] ∧ cs.all Char.isDigit = true
  · exact List.all_eq_true.mp hdigits.2
  · rw [if_neg hdigits] at h
    cases h

theorem parseIPv4Fields_isDigit {cs : List Char} {n : Nat} (h : parseIPv4Fields cs = some n) :
    ∀ c ∈ cs, c = '.' ∨ c.isDigit = true := by
  intro c hc
  by_cases hdot : c = '.'
  · exact .inl hdot
  right
  obtain ⟨piece, hpiece, hmem⟩ := mem_splitRunes (fun c => decide (c = '.')) hc (by simp [hdot])
  unfold parseIPv4Fields at h
  split at h
  next a b c' d hfields =>
    have hparsed : parseOctet piece ∈ [some a, some b, some c', some d] :=
      hfields ▸ List.mem_map_of_mem hpiece
    obtain ⟨m, hm⟩ : ∃ m, parseOctet piece = some m := by
      simp only [List.mem_cons, List.not_mem_nil, or_false] at hparsed
      rcases hparsed with h | h | h | h <;> exact ⟨_, h⟩
    exact parseOctet_isDigit hm c hmem
  next => cases h

theorem inCIDR4_colon {s : String} (h : ':' ∈ s.toList) (a : Addr4) : inCIDR4 s a = false := by
  have hnone : parseCIDR4 s = none := by
    rw [Option.eq_none_iff_forall_ne_some]
    intro r hr
    obtain ⟨piece, hpiece, hmem⟩ := mem_splitRunes (fun c => decide (c = '/')) h (by decide)
    unfold parseCIDR4 at hr
    split at hr
    next addr hsplit =>
      rw [hsplit] at hpiece
      obtain rfl := List.mem_singleton.mp hpiece
      obtain ⟨n, hn, -⟩ := Option.map_eq_some_iff.mp hr
      rcases parseIPv4Fields_isDigit hn ':' hmem with h | h <;> exact absurd h (by decide)
    next addr len hsplit =>
      split at hr
      next n k haddr hlen =>
        rw [hsplit] at hpiece
        rcases List.mem_cons.mp hpiece with rfl | hpiece
        · rcases parseIPv4Fields_isDigit haddr ':' hmem with h | h <;> exact absurd h (by decide)
        · obtain rfl := List.mem_singleton.mp hpiece
          unfold digitsValue at hlen
          by_cases hdigits : piece ≠ [] ∧ piece.all Char.isDigit = true
          · exact absurd (List.all_eq_true.mp hdigits.2 ':' hmem) (by decide)
          · rw [if_neg hdigits] at hlen
            cases hlen
      next => cases hr
    next => cases hr
  simp [inCIDR4, hnone]

theorem toList_ipString4 (a : Addr4) : (ipString4 a).toList =
    Nat.toDigits 10 (a.toNat / 2 ^ 24) ++ '.' :: (Nat.toDigits 10 (a.toNat / 2 ^ 16 % 256) ++
      '.' :: (Nat.toDigits 10 (a.toNat / 2 ^ 8 % 256) ++ '.' :: Nat.toDigits 10 (a.toNat % 256))) := by
  have hitoa : ∀ n : Nat, (itoa n).toList = Nat.toDigits 10 n := toList_repr
  have hjoin : ∀ a b c d : String, joinText [a, b, c, d] "." = a ++ "." ++ b ++ "." ++ c ++ "." ++ d :=
    fun _ _ _ _ => by unfold joinText; rfl
  unfold ipString4
  rw [List.map_cons, List.map_cons, List.map_cons, List.map_cons, List.map_nil, hjoin]
  simp only [String.toList_append, hitoa, List.append_assoc]
  rfl

theorem parseIPv4Fields_ipString4 (a : Addr4) : parseIPv4Fields (ipString4 a).toList = some a.toNat := by
  have hdigit : ∀ n, ∀ c ∈ Nat.toDigits 10 n, decide (c = '.') = false := fun n c hc => by
    have hd : c.isDigit = true := Nat.isDigit_of_mem_toDigits (by decide) (by decide) hc
    rw [decide_eq_false_iff_not]
    rintro rfl
    exact absurd hd (by decide)
  have hlt := a.isLt
  have hdot : decide ('.' = '.') = true := rfl
  unfold parseIPv4Fields
  rw [toList_ipString4, splitRunes_append (hdigit _) hdot, splitRunes_append (hdigit _) hdot,
    splitRunes_append (hdigit _) hdot, splitRunes_self (hdigit _)]
  simp only [List.map_cons, List.map_nil]
  rw [parseOctet_digits _ (by omega), parseOctet_digits _ (by omega), parseOctet_digits _ (by omega),
    parseOctet_digits _ (by omega)]
  simp only [Option.some.injEq]
  omega

theorem ipString4_inj {a b : Addr4} (h : ipString4 a = ipString4 b) : a = b := by
  have hparsed := parseIPv4Fields_ipString4 a
  rw [h, parseIPv4Fields_ipString4] at hparsed
  exact BitVec.eq_of_toNat_eq (Option.some.inj hparsed).symm

theorem ipString4_chars (a : Addr4) : ∀ c ∈ (ipString4 a).toList, c = '.' ∨ c.isDigit = true :=
  parseIPv4Fields_isDigit (parseIPv4Fields_ipString4 a)

theorem inCIDR4_ipString4 (a b : Addr4) : inCIDR4 (ipString4 b) a = decide (b = a) := by
  have hslash : ∀ c ∈ (ipString4 b).toList, decide (c = '/') = false := fun c hc => by
    rw [decide_eq_false_iff_not]
    rintro rfl
    rcases ipString4_chars b '/' hc with h | h <;> exact absurd h (by decide)
  have hparse : parseCIDR4 (ipString4 b) = some (b.toNat, 32) := by
    unfold parseCIDR4
    rw [splitRunes_self hslash]
    simp [parseIPv4Fields_ipString4]
  simp [inCIDR4, hparse, BitVec.toNat_inj]

theorem ipString4_ne_nil (a : Addr4) : ipString4 a ≠ "" := by
  intro h
  have hlist := toList_ipString4 a
  rw [h] at hlist
  simp at hlist

end Addresses

/-- What rules look at; the membership of addresses in sets is the kernel's. -/
structure Packet where
  iface : String := ""
  proto : String := ""
  src : Addr4
  dst : Addr4 := 0
  sport : Option Nat := none
  dport : Option Nat := none
  inSet : String → Addr4 → Bool := fun _ _ => false

/-- A rate with its burst. -/
abbrev Limit := UInt64 × UInt64

def RateLimitParams.limit (rl : RateLimitParams) : Limit := (rl.ratePPS, rl.effectiveBurst)

section Iptables

variable (p : Packet)

def IptMatch.holds : IptMatch → Bool
  | .iface name => p.iface = name
  | .proto name => p.proto = name
  | .srcSet name => p.inSet name p.src
  | .src addr => inCIDR4 addr p.src
  | .dstSet name => p.inSet name p.dst
  | .dst addr => inCIDR4 addr p.dst
  | .sport port => p.sport = some port
  | .dport port => p.dport = some port
  | .comment _ | .hashlimit _ => true

def IptRule.holds (rule : IptRule) : Bool := rule.conditions.all (·.holds p)

def IptMatch.limiter : IptMatch → Option RateLimitParams
  | .hashlimit rl => some rl
  | _ => none

/-- What the target does; any other target goes on with the next rule. -/
def targetFate (target : String) (rest : Fate Limit) : Fate Limit :=
  if target = "DROP" then .dropped else if target = "ACCEPT" then .accepted
  else if target = "RETURN" then .through else rest

/-- A rule with a limiter acts on the packets above the rate alone. -/
def IptRule.act (rule : IptRule) (rest : Fate Limit) : Fate Limit :=
  match rule.conditions.findSome? (·.limiter) with
  | some rl => .limited rl.limit (targetFate rule.target rest) rest
  | none => targetFate rule.target rest

/-- What the chain of the iptables renderer does to a packet. -/
def iptFate (commentPrefix : String) (rules : List RulePlan) (chain : ChainPlan) : Fate Limit :=
  evaluate (IptRule.holds p) IptRule.act (iptChain commentPrefix rules chain.name) .through

end Iptables

section Nftables

variable (p : Packet)

/-- An expression of the other family holds of no IPv4 packet. -/
def NftExpr.holds : NftExpr → Bool
  | .iifname name => p.iface = name
  | .saddrSet family name => family = "ip" ∧ p.inSet name p.src
  | .saddr family addr => family = "ip" ∧ inCIDR4 addr p.src
  | .daddrSet family name => family = "ip" ∧ p.inSet name p.dst
  | .daddr family addr => family = "ip" ∧ inCIDR4 addr p.dst
  | .proto name => p.proto = name
  | .sport port => p.sport = some port
  | .dport port => p.dport = some port
  | .counter | .comment _ | .meter _ => true

def NftRule.holds (rule : NftRule) : Bool := rule.conditions.all (·.holds p)

def NftExpr.limiter : NftExpr → Option RateLimitParams
  | .meter rl => some rl
  | _ => none

def verdictFate (verdict : String) (rest : Fate Limit) : Fate Limit :=
  if verdict = "drop" then .dropped else if verdict = "accept" then .accepted
  else if verdict = "return" then .through else rest

def NftRule.act (rule : NftRule) (rest : Fate Limit) : Fate Limit :=
  match rule.conditions.findSome? (·.limiter) with
  | some rl => .limited rl.limit (verdictFate rule.verdict rest) rest
  | none => verdictFate rule.verdict rest

/-- What the chain of the nftables renderer does to a packet. -/
def nftFate (commentPrefix : String) (rules : List RulePlan) (chain : ChainPlan) : Fate Limit :=
  evaluate (NftRule.holds p) NftRule.act (nftChain commentPrefix rules chain) .through

end Nftables

section Levels

variable (a : Adapter)

/-- What the rule of a source does. -/
def levelFate (level : Level) : Fate Limit :=
  match level with
  | .observe => .through
  | .block => .dropped
  | .soft | .hard =>
    if a.probe.hasRL then .limited (a.cfg.ratePPSForLevel level, a.cfg.ratePPSForLevel level * 2) .dropped .through
    else .dropped

/-- The address is inside a network of the allowlist. -/
def IsManagement (src : Addr4) : Prop := ∃ cidr ∈ a.cfg.managementAllowlist, inCIDR4 cidr src = true

instance (src : Addr4) : Decidable (IsManagement a src) := inferInstanceAs (Decidable (∃ cidr ∈ _, _))

/-- The level that a table enforces on an address. -/
def RuleTable.levelOf (rules : RuleTable) (src : Addr4) : Level :=
  (rules.lookup (ipString4 src)).elim .observe (·.level)

/-- What is meant for a packet: management traffic is let through, any other source has its level. -/
def meantFate (rules : RuleTable) (src : Addr4) : Fate Limit :=
  if IsManagement a src then .through else levelFate a (rules.levelOf src)

/-- Each rule is kept under its source, which is an IPv4 address. -/
structure RuleTable.IPv4 (rules : RuleTable) : Prop where
  keyed : ∀ entry ∈ rules.entries, entry.2.srcIP = entry.1
  address : ∀ entry ∈ rules.entries, ∃ addr, entry.1 = ipString4 addr

end Levels

section Chains

variable {a : Adapter} {c c' chain : ChainPlan} {p : Packet} {rules : List ActiveRule}

theorem mem_chains (h : c ∈ a.cfg.chains) : c = ⟨a.cfg.chainPrefix ++ "_INPUT", "input", 0⟩ ∨
    c = ⟨a.cfg.chainPrefix ++ "_FORWARD", "forward", 0⟩ ∨ c = ⟨a.cfg.chainPrefix ++ "_OUTPUT", "output", 0⟩ := by
  unfold Config.chains at h
  simp only [List.mem_append, List.mem_ite_nil_right, List.mem_singleton] at h
  tauto

theorem chain_name_inj (h : c ∈ a.cfg.chains) (h' : c' ∈ a.cfg.chains) (hname : c.name = c'.name) : c = c' := by
  rcases mem_chains h with rfl | rfl | rfl <;> rcases mem_chains h' with rfl | rfl | rfl <;>
    first
      | rfl
      | exact absurd ((String.append_right_inj _).mp hname) (by decide)

theorem chain_hook_inj (h : c ∈ a.cfg.chains) (h' : c' ∈ a.cfg.chains)
    (hhook : toLower c.hook = toLower c'.hook) : c = c' := by
  rcases mem_chains h with rfl | rfl | rfl <;> rcases mem_chains h' with rfl | rfl | rfl <;>
    first
      | rfl
      | exact absurd hhook (by dsimp only; decide +kernel)

theorem chain_hook_ne (h : c ∈ a.cfg.chains) : c.hook ≠ "" := by
  rcases mem_chains h with rfl | rfl | rfl <;> simp

theorem chains_nodup (a : Adapter) : a.cfg.chains.Nodup := by
  have hne : ∀ n n' k k' : String, k ≠ k' → (⟨n, k, 0⟩ : ChainPlan) ≠ ⟨n', k', 0⟩ := fun _ _ _ _ h heq =>
    h (congrArg ChainPlan.hook heq)
  unfold Config.chains
  cases a.cfg.input <;> cases a.cfg.forward <;> cases a.cfg.output <;> simp

end Chains

section Rendered

variable {a : Adapter} {chain : ChainPlan} {p : Packet} {inChain holds : RulePlan → Bool}
  {table : RuleTable} {visited : List ActiveRule}

/-- What is done to a packet: an empty entry of the allowlist lets everything through. -/
def renderedFate (a : Adapter) (table : RuleTable) (src : Addr4) : Fate Limit :=
  if a.cfg.managementAllowlist.any (fun cidr => cidr = "" ∨ inCIDR4 cidr src) then .through
  else levelFate a (table.levelOf src)

/-- What a rule of a plan does. -/
def RulePlan.fate (rule : RulePlan) (rest : Fate Limit) : Fate Limit :=
  match rule.limiter with
  | some rl => .limited rl.limit .dropped rest
  | none =>
    match rule.verdict with
    | .drop => .dropped
    | .accept => .accepted
    | .ret => .through
    | .log | .rateLimit => rest

theorem managementRule_fate (cidr : String) (rest : Fate Limit) : (managementRule a chain cidr).fate rest = .through :=
  rfl

theorem sourceRule_fate (rule : ActiveRule) : (sourceRule a rule chain).fate .through = levelFate a rule.level := by
  cases hlevel : rule.level <;> cases hrl : a.probe.hasRL <;>
    simp [RulePlan.fate, sourceRule, RulePlan.limiter, levelToVerdict, hlevel, hrl, levelFate,
      RateLimitParams.limit, RateLimitParams.effectiveBurst]

/-- How a renderer places the rules of the adapter in one chain, and when they hold. -/
structure Renders (a : Adapter) (chain : ChainPlan) (p : Packet) (inChain holds : RulePlan → Bool) : Prop where
  management_in : ∀ c ∈ a.cfg.chains, ∀ cidr, inChain (managementRule a c cidr) = true ↔ c = chain
  source_in : ∀ c ∈ a.cfg.chains, ∀ rule, inChain (sourceRule a rule c) = true ↔ c = chain
  management_holds : ∀ cidr, holds (managementRule a chain cidr) = decide (cidr = "" ∨ inCIDR4 cidr p.src = true)
  source_holds : ∀ rule addr, rule.srcIP = ipString4 addr →
    holds (sourceRule a rule chain) = decide (addr = p.src)

/-- The rules of a chain: those of the allowlist and one for each source. -/
theorem Renders.rules_perm (h : Renders a chain p inChain holds) (hchain : chain ∈ a.cfg.chains)
    (s : SortedRules (buildPlan a visited)) : (s.rules.filter inChain).Perm
      (a.cfg.managementAllowlist.map (managementRule a chain) ++ visited.map (sourceRule a · chain)) := by
  refine (s.perm.filter inChain).trans (.of_eq ?_)
  simp only [buildPlan, List.filter_append]
  congr 1
  · refine filter_flatMap (chains_nodup a) hchain fun c hc rule hrule => ?_
    obtain ⟨cidr, -, rfl⟩ := List.mem_map.mp hrule
    exact h.management_in c hc cidr
  · have hone : ∀ rule, (a.cfg.chains.map (sourceRule a rule)).filter inChain = [sourceRule a rule chain] := by
      intro rule
      rw [List.map_eq_flatMap]
      refine filter_flatMap (f := fun c => [sourceRule a rule c]) (chains_nodup a) hchain fun c hc r hr => ?_
      obtain rfl := List.mem_singleton.mp hr
      exact h.source_in c hc rule
    rw [List.filter_flatMap, List.map_eq_flatMap]
    exact congrArg (visited.flatMap ·) (funext hone)

theorem filter_key {entries : List (Sigma fun _ : String => ActiveRule)} (h : entries.NodupKeys) (ip : String) :
    (entries.filter fun entry => entry.1 = ip).map (·.2) = (entries.dlookup ip).toList := by
  induction entries with
  | nil => rfl
  | cons entry entries ih =>
    obtain ⟨k, rule⟩ := entry
    obtain ⟨hnotin, hnodup⟩ := List.nodupKeys_cons.mp h
    by_cases hk : k = ip
    · subst hk
      have hnone : entries.filter (fun entry => entry.1 = k) = [] := List.filter_eq_nil_iff.mpr fun entry he hk => by
        rw [decide_eq_true_eq] at hk
        exact hnotin (hk ▸ List.mem_map.mpr ⟨entry, he, rfl⟩)
      simp [hnone, List.dlookup_cons_eq]
    · rw [List.filter_cons_of_neg (by simpa using hk), List.dlookup_cons_ne _ (⟨k, rule⟩ : Sigma fun _ : String => ActiveRule) (Ne.symm hk)]
      exact ih hnodup

theorem values_filter (htable : table.IPv4) (src : Addr4) :
    table.values.filter (fun rule => rule.srcIP = ipString4 src) = (table.lookup (ipString4 src)).toList := by
  rw [AList.lookup, ← filter_key table.nodupKeys, RuleTable.values, List.filter_map]
  congr 1
  refine List.filter_congr fun entry hentry => ?_
  simp only [Function.comp, htable.keyed entry hentry]

theorem Renders.fate (h : Renders a chain p inChain holds) (hchain : chain ∈ a.cfg.chains)
    (htable : table.IPv4) (hvisited : visited.Perm table.values) (s : SortedRules (buildPlan a visited)) :
    evaluate holds RulePlan.fate (s.rules.filter inChain) .through = renderedFate a table p.src := by
  have hperm := h.rules_perm hchain s
  have hordered : (s.rules.filter inChain).Pairwise fun r s =>
      decide (s.priority < 0) = true → decide (r.priority < 0) = true := by
    refine (s.ordered.filter inChain).imp fun {r s} hless hlow => ?_
    simp only [RulePlan.less, decide_eq_false_iff_not, decide_eq_true_eq] at hless hlow ⊢
    omega
  rw [evaluate_sorted hordered]
  have hlow : ((s.rules.filter inChain).filter fun r => decide (r.priority < 0)).Perm
      (a.cfg.managementAllowlist.map (managementRule a chain)) := by
    refine (hperm.filter _).trans (.of_eq ?_)
    rw [List.filter_append, List.filter_eq_self.mpr, List.filter_eq_nil_iff.mpr, List.append_nil]
    · intro r hr
      obtain ⟨rule, -, rfl⟩ := List.mem_map.mp hr
      simp [sourceRule]
    · intro r hr
      obtain ⟨cidr, -, rfl⟩ := List.mem_map.mp hr
      simp [managementRule]
  have hhigh : ((s.rules.filter inChain).filter fun r => !decide (r.priority < 0)).Perm
      (visited.map (sourceRule a · chain)) := by
    refine (hperm.filter _).trans (.of_eq ?_)
    rw [List.filter_append, List.filter_eq_nil_iff.mpr, List.filter_eq_self.mpr, List.nil_append]
    · intro r hr
      obtain ⟨rule, -, rfl⟩ := List.mem_map.mp hr
      simp [sourceRule]
    · intro r hr
      obtain ⟨cidr, -, rfl⟩ := List.mem_map.mp hr
      simp [managementRule]
  generalize (s.rules.filter inChain).filter (fun r => decide (r.priority < 0)) = low at hlow ⊢
  generalize (s.rules.filter inChain).filter (fun r => !decide (r.priority < 0)) = high at hhigh ⊢
  rw [evaluate_final fun r hr _ rest => ?final]
  case final =>
    obtain ⟨cidr, -, rfl⟩ := List.mem_map.mp (hlow.mem_iff.mp hr)
    exact managementRule_fate cidr rest
  have hany : low.any holds = a.cfg.managementAllowlist.any fun cidr => cidr = "" ∨ inCIDR4 cidr p.src = true := by
    rw [hlow.any_eq, List.any_map]
    exact congrArg (a.cfg.managementAllowlist.any ·) (funext h.management_holds)
  have hfound : (high.filter holds).Perm
      ((table.lookup (ipString4 p.src)).map (sourceRule a · chain)).toList := by
    have haddress : ∀ rule ∈ visited, holds (sourceRule a rule chain) = decide (rule.srcIP = ipString4 p.src) := by
      intro rule hrule
      obtain ⟨entry, hentry, rfl⟩ := List.mem_map.mp (hvisited.mem_iff.mp hrule)
      obtain ⟨addr, haddr⟩ := htable.address entry hentry
      have hsrc := (htable.keyed entry hentry).trans haddr
      rw [h.source_holds _ addr hsrc, hsrc]
      exact decide_eq_decide.mpr ⟨fun h => h ▸ rfl, ipString4_inj⟩
    refine (hhigh.filter holds).trans ?_
    rw [List.filter_map, Option.toList_map, ← values_filter htable]
    refine List.Perm.map _ (.trans (.of_eq ?_) (hvisited.filter _))
    exact List.filter_congr haddress
  rw [hany, evaluate_of_perm hfound, renderedFate]
  congr 1
  cases hlookup : table.lookup (ipString4 p.src) with
  | none => simp [RuleTable.levelOf, hlookup, levelFate]
  | some rule =>
    simp only [Option.map_some, Option.elim_some, RuleTable.levelOf, hlookup]
    exact sourceRule_fate rule

theorem iptSelector_limiter (sel : Selector) : (iptSelector sel).findSome? (·.limiter) = none := by
  refine List.findSome?_eq_none_iff.mpr fun m hm => ?_
  simp only [iptSelector, List.mem_append] at hm
  rcases hm with ((((hm | hm) | hm) | hm) | hm) | hm
  all_goals split_ifs at hm <;> simp at hm
  all_goals first
    | (subst hm; rfl)
    | (obtain ⟨port, -, rfl⟩ := hm; rfl)

theorem iptRule_limiter (commentPrefix : String) (rule : RulePlan) :
    (renderIptRule commentPrefix rule).conditions.findSome? (·.limiter) = rule.limiter := by
  simp only [renderIptRule, List.findSome?_append, iptSelector_limiter]
  cases rule.limiter <;> rfl

theorem nftSelector_limiter (sel : Selector) : (nftSelector sel).findSome? (·.limiter) = none := by
  refine List.findSome?_eq_none_iff.mpr fun m hm => ?_
  simp only [nftSelector, List.mem_append] at hm
  rcases hm with ((((hm | hm) | hm) | hm) | hm) | hm
  all_goals first
    | (split_ifs at hm <;> simp at hm <;> subst hm <;> rfl)
    | (simp at hm; obtain ⟨port, -, rfl⟩ := hm; rfl)

theorem nftRule_limiter (commentPrefix : String) (rule : RulePlan) :
    (renderNftRule commentPrefix rule).conditions.findSome? (·.limiter) = rule.limiter := by
  simp only [renderNftRule, List.findSome?_append, nftSelector_limiter]
  cases rule.limiter <;> rfl

/-- The rules of the iptables renderer do what the plan says. -/
theorem iptRule_act (commentPrefix : String) : (fun rule => (renderIptRule commentPrefix rule).act) = RulePlan.fate := by
  funext rule rest
  rw [IptRule.act, iptRule_limiter, RulePlan.fate]
  cases hlimit : rule.limiter with
  | some rl => simp [renderIptRule, hlimit, targetFate]
  | none =>
    simp only [renderIptRule, hlimit]
    cases rule.verdict <;> rfl

theorem nftRule_act (commentPrefix : String) : (fun rule => (renderNftRule commentPrefix rule).act) = RulePlan.fate := by
  have hlower : toLower "DROP" = "drop" ∧ toLower "ACCEPT" = "accept" ∧ toLower "RETURN" = "return" ∧
      toLower "LOG" = "log" ∧ toLower "RATE_LIMIT" = "rate_limit" := by decide +kernel
  funext rule rest
  rw [NftRule.act, nftRule_limiter, RulePlan.fate]
  cases hlimit : rule.limiter with
  | some rl => simp [renderNftRule, hlimit, verdictFate]
  | none =>
    obtain ⟨hdrop, haccept, hreturn, hlog, hlimit'⟩ := hlower
    cases hverdict : rule.verdict <;>
      simp [renderNftRule, hlimit, hverdict, verdictFate, Verdict.text, hdrop, haccept, hreturn, hlog, hlimit']

theorem iptRule_holds (commentPrefix : String) (rule : RulePlan) :
    (renderIptRule commentPrefix rule).holds p = (iptSelector rule.selector).all (·.holds p) := by
  simp only [IptRule.holds, renderIptRule, List.all_append]
  cases rule.limiter <;> simp [IptMatch.holds]

theorem nftRule_holds (commentPrefix : String) (rule : RulePlan) :
    (renderNftRule commentPrefix rule).holds p = (nftSelector rule.selector).all (·.holds p) := by
  simp only [NftRule.holds, renderNftRule, List.all_append]
  cases rule.limiter <;> simp [NftExpr.holds]

/-- An address is matched whatever family its text is taken for. -/
theorem saddr_holds (addr : String) : (NftExpr.saddr (ipFamily addr) addr).holds p = inCIDR4 addr p.src := by
  simp only [NftExpr.holds, ipFamily]
  by_cases hcolon : ':' ∈ addr.toList
  · simp [hcolon, inCIDR4_colon hcolon]
  · simp [hcolon]

/-- A renderer whose rules match the source address that their selector names. -/
theorem renders_of_selector (hmanagement : ∀ c ∈ a.cfg.chains, ∀ cidr, inChain (managementRule a c cidr) = true ↔ c = chain)
    (hsource : ∀ c ∈ a.cfg.chains, ∀ rule, inChain (sourceRule a rule c) = true ↔ c = chain)
    (hcidr : ∀ cidr, holds (managementRule a chain cidr) = decide (cidr = "" ∨ inCIDR4 cidr p.src = true))
    (hip : ∀ rule, rule.srcIP ≠ "" → holds (sourceRule a rule chain) = inCIDR4 rule.srcIP p.src) :
    Renders a chain p inChain holds where
  management_in := hmanagement
  source_in := hsource
  management_holds := hcidr
  source_holds rule addr hsrc := by
    rw [hip rule (hsrc ▸ ipString4_ne_nil addr), hsrc, inCIDR4_ipString4]

theorem ipt_renders (hchain : chain ∈ a.cfg.chains) : Renders a chain p (fun r => r.chain = chain.name)
    (fun r => (renderIptRule a.cfg.commentPrefix r).holds p) := by
  refine renders_of_selector (fun c hc cidr => ?_) (fun c hc rule => ?_) (fun cidr => ?_) fun rule hrule => ?_
  · rw [decide_eq_true_eq]
    exact ⟨chain_name_inj hc hchain, fun h => h ▸ rfl⟩
  · rw [decide_eq_true_eq]
    exact ⟨chain_name_inj hc hchain, fun h => h ▸ rfl⟩
  · rw [iptRule_holds]
    by_cases hempty : cidr = "" <;> simp [iptSelector, managementRule, IptMatch.holds, hempty]
  · rw [iptRule_holds]
    simp [iptSelector, sourceRule, IptMatch.holds, hrule]

theorem nft_renders (hchain : chain ∈ a.cfg.chains) : Renders a chain p (ruleInChain · chain)
    (fun r => (renderNftRule a.cfg.commentPrefix r).holds p) := by
  have hin : ∀ c ∈ a.cfg.chains, (c.hook = "" ∨ toLower c.hook = toLower chain.hook) ↔ c = chain := fun c hc =>
    ⟨fun h => chain_hook_inj hc hchain (h.resolve_left (chain_hook_ne hc)), fun h => .inr (h ▸ rfl)⟩
  refine renders_of_selector (fun c hc cidr => ?_) (fun c hc rule => ?_) (fun cidr => ?_) fun rule hrule => ?_
  · rw [ruleInChain, decide_eq_true_eq]
    exact hin c hc
  · rw [ruleInChain, decide_eq_true_eq]
    exact hin c hc
  · rw [nftRule_holds]
    by_cases hempty : cidr = "" <;> simp [nftSelector, managementRule, saddr_holds, hempty]
  · rw [nftRule_holds]
    simp [nftSelector, sourceRule, saddr_holds, hrule]

theorem iptFate_eq (hchain : chain ∈ a.cfg.chains) (htable : table.IPv4) (hvisited : visited.Perm table.values)
    (s : SortedRules (buildPlan a visited)) :
    iptFate p a.cfg.commentPrefix s.rules chain = renderedFate a table p.src := by
  rw [iptFate, iptChain, evaluate_map, iptRule_act]
  exact (ipt_renders hchain).fate hchain htable hvisited s

theorem nftFate_eq (hchain : chain ∈ a.cfg.chains) (htable : table.IPv4) (hvisited : visited.Perm table.values)
    (s : SortedRules (buildPlan a visited)) :
    nftFate p a.cfg.commentPrefix s.rules chain = renderedFate a table p.src := by
  rw [nftFate, nftChain, evaluate_map, nftRule_act]
  exact (nft_renders hchain).fate hchain htable hvisited s

theorem levelFate_eq_through (level : Level) : levelFate a level = .through ↔ level = .observe := by
  cases level <;> cases hrl : a.probe.hasRL <;> simp [levelFate, hrl]

/-- What both renderers do to a packet is what is meant for it, unless an empty entry of the allowlist
lets the traffic of an enforced source through. -/
theorem rendered_as_meant_iff (hchain : chain ∈ a.cfg.chains) (htable : table.IPv4)
    (hvisited : visited.Perm table.values) (s s' : SortedRules (buildPlan a visited)) (p : Packet) :
    (iptFate p a.cfg.commentPrefix s.rules chain = meantFate a table p.src ∧
      nftFate p a.cfg.commentPrefix s'.rules chain = meantFate a table p.src) ↔
    "" ∉ a.cfg.managementAllowlist ∨ IsManagement a p.src ∨ table.levelOf p.src = .observe := by
  rw [iptFate_eq hchain htable hvisited, nftFate_eq hchain htable hvisited, and_self, renderedFate, meantFate]
  have hany : a.cfg.managementAllowlist.any (fun cidr => decide (cidr = "" ∨ inCIDR4 cidr p.src = true)) = true ↔
      "" ∈ a.cfg.managementAllowlist ∨ IsManagement a p.src := by
    simp only [List.any_eq_true, decide_eq_true_eq, IsManagement]
    constructor
    · rintro ⟨cidr, hcidr, rfl | hin⟩
      · exact .inl hcidr
      · exact .inr ⟨cidr, hcidr, hin⟩
    · rintro (hempty | ⟨cidr, hcidr, hin⟩)
      · exact ⟨"", hempty, .inl rfl⟩
      · exact ⟨cidr, hcidr, .inr hin⟩
  by_cases hmanagement : IsManagement a p.src
  · rw [if_pos hmanagement, if_pos (hany.mpr (.inr hmanagement))]
    exact ⟨fun _ => .inr (.inl hmanagement), fun _ => rfl⟩
  rw [if_neg hmanagement]
  by_cases hempty : "" ∈ a.cfg.managementAllowlist
  · rw [if_pos (hany.mpr (.inl hempty)), eq_comm, levelFate_eq_through]
    exact ⟨fun h => .inr (.inr h), fun h => (h.resolve_left (not_not.mpr hempty)).resolve_left hmanagement⟩
  · rw [if_neg fun h => (hany.mp h).elim hempty hmanagement]
    exact ⟨fun _ => .inl hempty, fun _ => rfl⟩

/-- The adapter with an input chain and some allowlist. -/
def guardingAdapter (allowlist : List String) : Adapter :=
  ⟨{ managementAllowlist := allowlist }, { selected := .iptablesNFT, hasLimit := true }, fun _ => "0123456789abcdef"⟩

def inputChain : ChainPlan := ⟨"KERNLOOM_INPUT", "input", 0⟩

def blockedPeer : Packet := { src := 0xc0000207 }

def blockedTable : RuleTable := AList.singleton "192.0.2.7" ⟨"192.0.2.7", .block, 0⟩

theorem blockedTable_ipv4 : blockedTable.IPv4 where
  keyed entry hentry := by
    obtain rfl := List.mem_singleton.mp hentry
    rfl
  address entry hentry := by
    obtain rfl := List.mem_singleton.mp hentry
    exact ⟨blockedPeer.src, by decide +kernel⟩

theorem blocked_meant : meantFate (guardingAdapter [""]) blockedTable blockedPeer.src = .dropped ∧
    renderedFate (guardingAdapter [""]) blockedTable blockedPeer.src = .through ∧
    inputChain ∈ (guardingAdapter [""]).cfg.chains ∧ inputChain ∈ (guardingAdapter ["10.0.0.0/8"]).cfg.chains := by
  decide +kernel

theorem peer_blocked :
    iptFate blockedPeer "kernloom" (sortRules (buildPlan (guardingAdapter ["10.0.0.0/8"]) blockedTable.values)).rules
        inputChain = meantFate (guardingAdapter ["10.0.0.0/8"]) blockedTable blockedPeer.src ∧
      nftFate blockedPeer "kernloom" (sortRules (buildPlan (guardingAdapter ["10.0.0.0/8"]) blockedTable.values)).rules
        inputChain = meantFate (guardingAdapter ["10.0.0.0/8"]) blockedTable blockedPeer.src :=
  (rendered_as_meant_iff blocked_meant.2.2.2 blockedTable_ipv4 (.refl _) _ _ blockedPeer).mpr (.inl (by decide))

/-- An empty entry of the allowlist is a rule that returns for every packet, a blocked source's among them. -/
theorem blocked_peer_returns : ¬ ∀ (a : Adapter) (table : RuleTable) (visited : List ActiveRule) (chain : ChainPlan)
    (s s' : SortedRules (buildPlan a visited)) (p : Packet), chain ∈ a.cfg.chains → table.IPv4 →
      visited.Perm table.values →
      iptFate p a.cfg.commentPrefix s.rules chain = meantFate a table p.src ∧
        nftFate p a.cfg.commentPrefix s'.rules chain = meantFate a table p.src := by
  intro h
  obtain ⟨hmeant, hrendered, hchain, -⟩ := blocked_meant
  have hipt := (h (guardingAdapter [""]) blockedTable _ inputChain (sortRules _) (sortRules _) blockedPeer hchain
    blockedTable_ipv4 (.refl _)).1
  rw [iptFate_eq hchain blockedTable_ipv4 (.refl _), hmeant, hrendered] at hipt
  cases hipt

end Rendered

end Netfilter

end Kernloom
