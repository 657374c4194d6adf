import Kernloom.Netfilter

/-! The rules of a plan as the iptables and the nftables renderer write them, in the order in which the
renderers sort them. -/

namespace Kernloom

namespace Netfilter

/-- The verdict that a rule is commented with. -/
def Verdict.action : Verdict → String
  | .drop => "deny"
  | .accept => "allow"
  | .ret => "allow_return"
  | .rateLimit => "rate_limit"
  | .log => "log"

def buildComment (commentPrefix : String) (rule : RulePlan) : String :=
  let s := commentPrefix ++ " action=" ++ rule.verdict.action ++ " id=" ++ rule.id
  if rule.comment = "" then s else s ++ " " ++ rule.comment

/-- The limiter of a rule that has one. -/
def RulePlan.limiter (rule : RulePlan) : Option RateLimitParams :=
  if rule.verdict = .rateLimit then
    rule.rateLimit.map fun rl => { rl with name := if rl.name = "" then "kl_" ++ rule.id else rl.name }
  else none

section Sorting

/-- Lower priorities first, then by name. -/
def RulePlan.less (r s : RulePlan) : Bool := r.priority < s.priority ∨ (r.priority = s.priority ∧ r.id < s.id)

/-- A result of `sort.Slice`, which keeps no order among rules that are not less than one another. -/
structure SortedRules (plan : NetfilterPlan) where
  rules : List RulePlan
  perm : rules.Perm plan.rules
  ordered : rules.Pairwise fun r s => s.less r = false

theorem less_iff (r s : RulePlan) :
    r.less s = true ↔ r.priority < s.priority ∨ (r.priority = s.priority ∧ r.id < s.id) := decide_eq_true_iff

/-- A stable sort is one of the results. -/
def sortRules (plan : NetfilterPlan) : SortedRules plan where
  rules := plan.rules.mergeSort fun r s => !s.less r
  perm := List.mergeSort_perm ..
  ordered := by
    refine (List.pairwise_mergeSort (fun r s t hrs hst => ?_) (fun r s => ?_) plan.rules).imp fun h => by simpa using h
    · simp only [Bool.not_eq_true', ← Bool.not_eq_true, less_iff, not_or, not_lt, not_and] at hrs hst ⊢
      refine ⟨hrs.1.trans hst.1, fun heq => ?_⟩
      have hsr : s.priority = r.priority := le_antisymm (hst.1.trans heq.le) hrs.1
      exact (hrs.2 hsr).trans (hst.2 (heq.trans hsr.symm))
    · simp only [Bool.or_eq_true, Bool.not_eq_true', ← Bool.not_eq_true, less_iff, not_or, not_lt, not_and]
      rcases lt_trichotomy r.priority s.priority with hlt | heq | hlt
      · exact .inl ⟨hlt.le, fun h => absurd h hlt.ne'⟩
      · rcases le_total r.id s.id with hid | hid
        · exact .inl ⟨heq.le, fun _ => hid⟩
        · exact .inr ⟨heq.ge, fun _ => hid⟩
      · exact .inr ⟨hlt.le, fun h => absurd h hlt.ne'⟩

end Sorting

section Iptables

inductive IptMatch where
  | iface (name : String)
  | proto (name : String)
  | srcSet (name : String)
  | src (addr : String)
  | dstSet (name : String)
  | dst (addr : String)
  | sport (port : Nat)
  | dport (port : Nat)
  | comment (text : String)
  | hashlimit (rl : RateLimitParams)
  deriving DecidableEq

def IptMatch.args : IptMatch → List String
  | .iface name => ["-i", name]
  | .proto name => ["-p", name]
  | .srcSet name => ["-m", "set", "--match-set", name, "src"]
  | .src addr => ["-s", addr]
  | .dstSet name => ["-m", "set", "--match-set", name, "dst"]
  | .dst addr => ["-d", addr]
  | .sport port => ["--sport", itoa port]
  | .dport port => ["--dport", itoa port]
  | .comment text => ["-m", "comment", "--comment", quote text]
  | .hashlimit rl =>
    ["-m", "hashlimit", "--hashlimit-above " ++ itoa rl.ratePPS.toNat ++ "/second",
      "--hashlimit-burst " ++ itoa rl.effectiveBurst.toNat, "--hashlimit-mode", "srcip",
      "--hashlimit-name " ++ rl.name]

/-- A rule of a chain: what it matches, and the target it jumps to. -/
structure IptRule where
  conditions : List IptMatch := []
  target : String
  deriving DecidableEq

def IptRule.args (rule : IptRule) : List String :=
  rule.conditions.flatMap (·.args) ++ ["-j", rule.target]

/-- What a selector has a rule match. -/
def iptSelector (sel : Selector) : List IptMatch :=
  (if sel.interface ≠ "" then [.iface sel.interface] else []) ++
  (if sel.proto ≠ "" then [.proto sel.proto] else []) ++
  (if sel.setName ≠ "" ∧ sel.setDir = "src" then [.srcSet sel.setName]
    else if sel.srcCIDR ≠ "" then [.src sel.srcCIDR]
    else if sel.srcIP ≠ "" then [.src sel.srcIP] else []) ++
  (if sel.setName ≠ "" ∧ sel.setDir = "dst" then [.dstSet sel.setName]
    else if sel.dstCIDR ≠ "" then [.dst sel.dstCIDR]
    else if sel.dstIP ≠ "" then [.dst sel.dstIP] else []) ++
  (if sel.proto ≠ "" then (sel.srcPort.map IptMatch.sport).toList else []) ++
  (if sel.proto ≠ "" then (sel.dstPort.map IptMatch.dport).toList else [])

/-- The line of a rule without its chain. -/
def renderIptRule (commentPrefix : String) (rule : RulePlan) : IptRule where
  conditions := iptSelector rule.selector ++ [.comment (buildComment commentPrefix rule)] ++
    (rule.limiter.map IptMatch.hashlimit).toList
  target := if rule.limiter.isSome then "DROP" else rule.verdict.text

/-- The rules appended to a chain. -/
def iptChain (commentPrefix : String) (rules : List RulePlan) (chain : String) : List IptRule :=
  (rules.filter (·.chain = chain)).map (renderIptRule commentPrefix)

end Iptables

section Nftables

inductive NftExpr where
  | iifname (name : String)
  | saddrSet (family name : String)
  | saddr (family addr : String)
  | daddrSet (family name : String)
  | daddr (family addr : String)
  | proto (name : String)
  | sport (port : Nat)
  | dport (port : Nat)
  | counter
  | comment (text : String)
  | meter (rl : RateLimitParams)
  deriving DecidableEq

def NftExpr.text : NftExpr → String
  | .iifname name => "iifname " ++ quote name
  | .saddrSet family name => family ++ " saddr @" ++ name
  | .saddr family addr => family ++ " saddr " ++ addr
  | .daddrSet family name => family ++ " daddr @" ++ name
  | .daddr family addr => family ++ " daddr " ++ addr
  | .proto name => name
  | .sport port => "sport " ++ itoa port
  | .dport port => "dport " ++ itoa port
  | .counter => "counter"
  | .comment text => "comment " ++ quote text
  | .meter rl => "meter " ++ rl.name ++ " \x7b ip saddr limit rate over " ++ itoa rl.ratePPS.toNat ++
      "/second burst " ++ itoa rl.effectiveBurst.toNat ++ " packets \x7d"

structure NftRule where
  conditions : List NftExpr
  verdict : String
  deriving DecidableEq

def NftRule.text (rule : NftRule) : String :=
  joinText (rule.conditions.map (·.text) ++ [rule.verdict]) " "

def ipFamily (addr : String) : String := if ':' ∈ addr.toList then "ip6" else "ip"

def setFamily (name : String) : String := if '6' ∈ name.toList then "ip6" else "ip"

def nftSelector (sel : Selector) : List NftExpr :=
  (if sel.interface ≠ "" then [.iifname sel.interface] else []) ++
  (if sel.setName ≠ "" ∧ sel.setDir = "src" then [.saddrSet (setFamily sel.setName) sel.setName]
    else if sel.srcCIDR ≠ "" then [.saddr (ipFamily sel.srcCIDR) sel.srcCIDR]
    else if sel.srcIP ≠ "" then [.saddr (ipFamily sel.srcIP) sel.srcIP] else []) ++
  (if sel.setName ≠ "" ∧ sel.setDir = "dst" then [.daddrSet (setFamily sel.setName) sel.setName]
    else if sel.dstCIDR ≠ "" then [.daddr (ipFamily sel.dstCIDR) sel.dstCIDR]
    else if sel.dstIP ≠ "" then [.daddr (ipFamily sel.dstIP) sel.dstIP] else []) ++
  (if sel.proto ≠ "" then [.proto sel.proto] else []) ++
  (sel.srcPort.map NftExpr.sport).toList ++ (sel.dstPort.map NftExpr.dport).toList

def renderNftRule (commentPrefix : String) (rule : RulePlan) : NftRule where
  conditions := nftSelector rule.selector ++ [.counter, .comment (buildComment commentPrefix rule)] ++
    (rule.limiter.map NftExpr.meter).toList
  verdict := if rule.limiter.isSome then "drop" else toLower rule.verdict.text

/-- A rule without a direction is in every chain. -/
def ruleInChain (rule : RulePlan) (chain : ChainPlan) : Bool :=
  rule.selector.direction = "" ∨ toLower rule.selector.direction = toLower chain.hook

/-- The rules written into a chain. -/
def nftChain (commentPrefix : String) (rules : List RulePlan) (chain : ChainPlan) : List NftRule :=
  (rules.filter (ruleInChain · chain)).map (renderNftRule commentPrefix)

end Nftables

section Lines

def fixtureAdapter : Adapter :=
  ⟨{}, { selected := .nftables, meters := true, hasLimit := true }, fun _ => "0123456789abcdef"⟩

example : joinText (renderIptRule "kernloom"
      (sourceRule fixtureAdapter ⟨"192.0.2.10", .hard, 0⟩ ⟨"KERNLOOM_INPUT", "input", 0⟩)).args " " =
    "-s 192.0.2.10 -m comment --comment \"kernloom action=rate_limit id=0123456789ab\" -m hashlimit " ++
    "--hashlimit-above 20/second --hashlimit-burst 40 --hashlimit-mode srcip --hashlimit-name kl_01234567 -j DROP" ∧
    (renderNftRule "kernloom"
      (sourceRule fixtureAdapter ⟨"192.0.2.10", .hard, 0⟩ ⟨"KERNLOOM_INPUT", "input", 0⟩)).text =
    "ip saddr 192.0.2.10 counter comment \"kernloom action=rate_limit id=0123456789ab\" " ++
    "meter kl_01234567 \x7b ip saddr limit rate over 20/second burst 40 packets \x7d drop" := by decide +kernel

end Lines

end Netfilter

end Kernloom
