import Kernloom.Action
import Kernloom.NetIP

/-! The Netfilter adapter: its table of enforced sources, and the plan of chains and rules that it
builds from the table. -/

namespace Kernloom

section Text

/-- `IP.String` of an IPv4 address. -/
@[irreducible] def ipString4 (a : Addr4) : String :=
  joinText ([a.toNat / 2 ^ 24, a.toNat / 2 ^ 16 % 256, a.toNat / 2 ^ 8 % 256, a.toNat % 256].map fun n : Nat => itoa n) "."

/-- The eight groups of an address. -/
def groups6 (a : Addr6) : List Nat := (List.range 8).map fun i => a.toNat / 2 ^ (16 * (7 - i)) % 2 ^ 16

/-- The zeros that some groups begin with. -/
def zeroRun (groups : List Nat) : Nat := (groups.takeWhile (· = 0)).length

/-- The first of the longest runs of zeros: where it begins and how long it is. -/
def longestZeroRun (groups : List Nat) : Nat × Nat :=
  (List.range 8).foldl (fun best i =>
    if best.2 < zeroRun (groups.drop i) then (i, zeroRun (groups.drop i)) else best) (0, 0)

def hexText (n : Nat) : String := String.ofList (Nat.toDigits 16 n)

/-- `IP.String`. -/
@[irreducible] def ipString (a : Addr6) : String :=
  match to4 a with
  | some a4 => ipString4 a4
  | none =>
    let groups := groups6 a
    let (start, run) := longestZeroRun groups
    if run < 2 then joinText (groups.map hexText) ":"
    else joinText ((groups.take start).map hexText) ":" ++ "::" ++
      joinText ((groups.drop (start + run)).map hexText) ":"

example : (parseIP "2001:DB8:0:0:1:0:0:1").map ipString = some "2001:db8::1:0:0:1" ∧
    (parseIP "::ffff:10.0.0.1").map ipString = some "10.0.0.1" ∧ (parseIP "::").map ipString = some "::" ∧
    (parseIP "1:0:2:3:4:5:6:0").map ipString = some "1:0:2:3:4:5:6:0" := by decide +kernel

end Text

namespace Netfilter

inductive Verdict where
  | drop | accept | ret | log | rateLimit
  deriving DecidableEq

def Verdict.text : Verdict → String
  | .drop => "DROP"
  | .accept => "ACCEPT"
  | .ret => "RETURN"
  | .log => "LOG"
  | .rateLimit => "RATE_LIMIT"

/-- What a rule matches; an empty field matches anything. -/
structure Selector where
  srcIP : String := ""
  srcCIDR : String := ""
  dstIP : String := ""
  dstCIDR : String := ""
  proto : String := ""
  srcPort : Option Nat := none
  dstPort : Option Nat := none
  direction : String := ""
  interface : String := ""
  setName : String := ""
  setDir : String := ""
  deriving DecidableEq

/-- The verb `%v` of a selector. No rule of the adapter has a port, which would print as a pointer. -/
def Selector.text (sel : Selector) : String :=
  "\x7b" ++ joinText [sel.srcIP, sel.srcCIDR, sel.dstIP, sel.dstCIDR, sel.proto, "<nil>", "<nil>",
    sel.direction, sel.interface, sel.setName, sel.setDir] " " ++ "\x7d"

structure RateLimitParams where
  ratePPS : UInt64
  burst : UInt64 := 0
  name : String
  deriving DecidableEq

def RateLimitParams.effectiveBurst (r : RateLimitParams) : UInt64 :=
  if 0 < r.burst then r.burst else r.ratePPS * 2

structure RulePlan where
  id : String
  chain : String
  selector : Selector
  verdict : Verdict
  rateLimit : Option RateLimitParams := none
  comment : String := ""
  priority : Int := 0
  deriving DecidableEq

structure ChainPlan where
  name : String
  hook : String
  priority : Int := 0
  deriving DecidableEq

structure NetfilterPlan where
  tableName : String
  chains : List ChainPlan := []
  rules : List RulePlan := []
  deriving DecidableEq

inductive BackendType where
  | auto | nftables | iptablesNFT | iptablesLegacy
  deriving DecidableEq

/-- What the adapter reads of the probe. -/
structure ProbeResult where
  selected : BackendType
  meters : Bool := false
  hasLimit : Bool := false

structure Config where
  dryRun : Bool := false
  tableName : String := "kernloom"
  chainPrefix : String := "KERNLOOM"
  commentPrefix : String := "kernloom"
  input : Bool := true
  forward : Bool := false
  output : Bool := false
  softRatePPS : UInt64 := 100
  hardRatePPS : UInt64 := 20
  managementAllowlist : List String := []

/-- An enforced source; an expiry of zero is none. -/
structure ActiveRule where
  srcIP : String
  level : Level
  expires : Time := 0
  deriving DecidableEq

/-- The adapter over the digest that rules are named by. -/
structure Adapter where
  cfg : Config
  probe : ProbeResult
  sha256 : String → String

section Plan

variable (a : Adapter)

def adapterID : String := "kernloom.netfilter"

/-- The name of a rule without constraints. -/
def ruleID (capability : String) (sel : Selector) (verdict : Verdict) : String :=
  String.ofList ((a.sha256 (adapterID ++ "|" ++ capability ++ "|" ++ sel.text ++ "|" ++ verdict.text ++
    "|map[]")).toList.take 12)

/-- The backend can limit rates. -/
def ProbeResult.hasRL (p : ProbeResult) : Bool :=
  (p.selected = .nftables ∧ p.meters) ∨ (p.selected ≠ .nftables ∧ p.hasLimit)

def levelToVerdict (level : Level) (probe : ProbeResult) : Verdict :=
  match level with
  | .block => .drop
  | .soft | .hard => if probe.hasRL then .rateLimit else .drop
  | .observe => .ret

def levelToCapability : Level → String
  | .block => "enforce.network.deny"
  | .soft | .hard => "enforce.network.rate_limit"
  | .observe => ""

def Config.ratePPSForLevel (cfg : Config) : Level → UInt64
  | .hard => if 0 < cfg.hardRatePPS then cfg.hardRatePPS else 20
  | _ => if 0 < cfg.softRatePPS then cfg.softRatePPS else 100

def Config.chains (cfg : Config) : List ChainPlan :=
  (if cfg.input then [⟨cfg.chainPrefix ++ "_INPUT", "input", 0⟩] else []) ++
  (if cfg.forward then [⟨cfg.chainPrefix ++ "_FORWARD", "forward", 0⟩] else []) ++
  if cfg.output then [⟨cfg.chainPrefix ++ "_OUTPUT", "output", 0⟩] else []

/-- The rule that keeps management traffic out of the rules of a chain. -/
def managementRule (chain : ChainPlan) (cidr : String) : RulePlan :=
  let sel : Selector := { srcCIDR := cidr, direction := chain.hook }
  { id := ruleID a "management" sel .ret, chain := chain.name, selector := sel, verdict := .ret, priority := -100 }

/-- The rule of a source in a chain. -/
def sourceRule (rule : ActiveRule) (chain : ChainPlan) : RulePlan :=
  let verdict := levelToVerdict rule.level a.probe
  let sel : Selector := { srcIP := rule.srcIP, direction := chain.hook }
  let id := ruleID a (levelToCapability rule.level) sel verdict
  { id, chain := chain.name, selector := sel, verdict
    rateLimit :=
      if verdict = .rateLimit then
        some ⟨a.cfg.ratePPSForLevel rule.level, 0, "kl_" ++ String.ofList (id.toList.take 8)⟩
      else none }

/-- The plan for the rules of the table, in the order in which the table is ranged over. -/
def buildPlan (rules : List ActiveRule) : NetfilterPlan where
  tableName := if a.cfg.tableName = "" then "filter" else a.cfg.tableName
  chains := a.cfg.chains
  rules := (a.cfg.chains.flatMap fun chain => a.cfg.managementAllowlist.map (managementRule a chain)) ++
    rules.flatMap fun rule => a.cfg.chains.map (sourceRule a rule)

/-- The same plan up to the order of its rules. -/
structure SamePlan (p q : NetfilterPlan) : Prop where
  tableName : p.tableName = q.tableName
  chains : p.chains = q.chains
  rules : p.rules.Perm q.rules

variable {a}

theorem SamePlan.refl (p : NetfilterPlan) : SamePlan p p := ⟨rfl, rfl, .refl _⟩

theorem SamePlan.symm {p q : NetfilterPlan} (h : SamePlan p q) : SamePlan q p :=
  ⟨h.tableName.symm, h.chains.symm, h.rules.symm⟩

theorem SamePlan.trans {p q r : NetfilterPlan} (h : SamePlan p q) (h' : SamePlan q r) : SamePlan p r :=
  ⟨h.tableName.trans h'.tableName, h.chains.trans h'.chains, h.rules.trans h'.rules⟩

/-- The order of the table is that of the rules of the plan. -/
theorem buildPlan_perm {rules rules' : List ActiveRule} (h : rules.Perm rules') :
    SamePlan (buildPlan a rules) (buildPlan a rules') where
  tableName := rfl
  chains := rfl
  rules := (h.flatMap_right _).append_left _

end Plan

section Table

abbrev RuleTable := GoMap ActiveRule

def RuleTable.values (rules : RuleTable) : List ActiveRule := rules.entries.map (·.2)

/-- The table after a transition of a source. -/
def RuleTable.transition (rules : RuleTable) (ip : String) (next : Level) (ttl : Duration) (now : Time) :
    RuleTable :=
  match next with
  | .observe => rules.erase ip
  | _ => rules.insert ip ⟨ip, next, if 0 < ttl then now + ttl else 0⟩

def ActiveRule.isExpired (now : Time) (rule : ActiveRule) : Bool := rule.expires ≠ 0 ∧ rule.expires < now

/-- The table without the expired rules. -/
def RuleTable.expire (rules : RuleTable) (now : Time) : RuleTable :=
  ⟨rules.entries.filter fun entry => !entry.2.isExpired now, rules.nodupKeys.sublist List.filter_sublist⟩

/-- How many rules have expired. -/
def RuleTable.removed (rules : RuleTable) (now : Time) : Nat :=
  rules.entries.countP fun entry => entry.2.isExpired now

variable {rules : RuleTable} {now : Time}

theorem dlookup_filter {entries : List (Sigma fun _ : String => ActiveRule)} (h : entries.NodupKeys)
    (keep : ActiveRule → Bool) (ip : String) :
    (entries.filter fun entry => keep entry.2).dlookup ip = (entries.dlookup ip).filter keep := by
  induction entries with
  | nil => rfl
  | cons entry entries ih =>
    obtain ⟨k, rule⟩ := entry
    obtain ⟨hnotin, hnodup⟩ := List.nodupKeys_cons.mp h
    by_cases hk : k = ip
    · subst hk
      have hnone : (entries.filter fun entry => keep entry.2).dlookup k = none := by
        rw [ih hnodup, List.dlookup_eq_none.mpr hnotin]
        rfl
      rw [List.dlookup_cons_eq]
      cases hkeep : keep rule with
      | false =>
        rw [List.filter_cons_of_neg (by simp [hkeep]), hnone]
        simp [Option.filter, hkeep]
      | true =>
        rw [List.filter_cons_of_pos (by simp [hkeep]), List.dlookup_cons_eq]
        simp [Option.filter, hkeep]
    · have hskip := List.dlookup_cons_ne entries (⟨k, rule⟩ : Sigma fun _ : String => ActiveRule) (Ne.symm hk)
      rw [hskip, ← ih hnodup]
      cases hkeep : keep rule with
      | false => rw [List.filter_cons_of_neg (by simp [hkeep])]
      | true =>
        rw [List.filter_cons_of_pos (by simp [hkeep])]
        exact List.dlookup_cons_ne _ (⟨k, rule⟩ : Sigma fun _ : String => ActiveRule) (Ne.symm hk)

theorem lookup_expire (ip : String) : (rules.expire now).lookup ip =
    (rules.lookup ip).filter fun rule => !rule.isExpired now :=
  dlookup_filter rules.nodupKeys (fun rule => !rule.isExpired now) ip

end Table

end Netfilter

end Kernloom
