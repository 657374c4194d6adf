import Kernloom.NetfilterRender
import Kernloom.TargetCodec

/-! The iptables backend over the filter table: the chains that it ensures, the script that it has
restored, and its cleanup. A plan's jumps are inserted on top of those that are there already. -/

namespace Kernloom

namespace Netfilter

section Ruleset

/-- The chains of the filter table, built-in ones included. -/
abbrev Ruleset := GoMap (List IptRule)

namespace Ruleset

variable (r : Ruleset) (chain : String) (rule : IptRule)

/-- `-N`, which fails if the chain is there. -/
def newChain : Option Ruleset :=
  match r.lookup chain with
  | some _ => none
  | none => some (r.insert chain [])

/-- `-C`. -/
def check : Bool := (r.lookup chain).any fun rules => rule ∈ rules

/-- `-I` at the first position. -/
def insertHead : Option Ruleset := (r.lookup chain).map fun rules => r.insert chain (rule :: rules)

/-- `-A`. -/
def appendRule : Option Ruleset := (r.lookup chain).map fun rules => r.insert chain (rules ++ [rule])

/-- `-D`, of the first rule that matches. -/
def deleteRule : Option Ruleset :=
  match r.lookup chain with
  | some rules => if rule ∈ rules then some (r.insert chain (rules.erase rule)) else none
  | none => none

/-- `-F`. -/
def flush : Option Ruleset := (r.lookup chain).map fun _ => r.insert chain []

def isReferenced : Bool := r.entries.any fun entry => entry.2.any fun rule => rule.target = chain

/-- `-X`, which fails if the chain has rules or is jumped to. -/
def deleteChain : Option Ruleset :=
  match r.lookup chain with
  | some [] => if r.isReferenced chain then none else some (r.erase chain)
  | _ => none

end Ruleset

/-- A line of a script, between the name of the table and the commit. -/
inductive RestoreLine where
  | declare (chain : String)
  | flush (chain : String)
  | insertHead (chain : String) (rule : IptRule)
  | appendRule (chain : String) (rule : IptRule)

def RestoreLine.text : RestoreLine → String
  | .declare chain => ":" ++ chain ++ " - [0:0]\n"
  | .flush chain => "-F " ++ chain ++ "\n"
  | .insertHead chain rule => "-I " ++ chain ++ " 1 " ++ joinText rule.args " " ++ "\n"
  | .appendRule chain rule => joinText ("-A" :: chain :: rule.args) " " ++ "\n"

/-- A declared chain is there and empty. -/
def Ruleset.line (r : Ruleset) : RestoreLine → Option Ruleset
  | .declare chain => some (r.insert chain [])
  | .flush chain => r.flush chain
  | .insertHead chain rule => r.insertHead chain rule
  | .appendRule chain rule => r.appendRule chain rule

/-- `iptables-restore --noflush`: all lines or none. -/
def Ruleset.restore (r : Ruleset) (lines : List RestoreLine) : Option Ruleset := lines.foldlM Ruleset.line r

end Ruleset

section Backend

/-- `strings.ToUpper` of ASCII. -/
@[irreducible] def toUpper (s : String) : String := String.ofList (s.toList.map Char.toUpper)

def jumpTo (chain : String) : IptRule := { target := chain }

/-- `hookChain`. -/
@[irreducible] def hookChain (hook : String) : String :=
  if toLower hook = "input" then "INPUT"
  else if toLower hook = "forward" then "FORWARD"
  else if toLower hook = "output" then "OUTPUT"
  else toUpper hook

/-- `hookForChain`. -/
@[irreducible] def hookForChain (chain chainPrefix : String) : String :=
  let suffix := toUpper (trimPrefix chain (chainPrefix ++ "_"))
  if suffix = "INPUT" then "INPUT"
  else if suffix = "FORWARD" then "FORWARD"
  else if suffix = "OUTPUT" then "OUTPUT"
  else "INPUT"

def Config.kernloomChains (cfg : Config) : List String :=
  (if cfg.input then [cfg.chainPrefix ++ "_INPUT"] else []) ++
  (if cfg.forward then [cfg.chainPrefix ++ "_FORWARD"] else []) ++
  if cfg.output then [cfg.chainPrefix ++ "_OUTPUT"] else []

variable (cfg : Config)

/-- The script for a plan, with its rules in the order they are sorted in. -/
def renderLines (plan : NetfilterPlan) (rules : List RulePlan) : List RestoreLine :=
  plan.chains.map (fun chain => .declare chain.name) ++ plan.chains.map (fun chain => .flush chain.name) ++
  plan.chains.map (fun chain => .insertHead (hookChain chain.hook) (jumpTo chain.name)) ++
  rules.map fun rule => .appendRule rule.chain (renderIptRule cfg.commentPrefix rule)

def render (plan : NetfilterPlan) (rules : List RulePlan) : String :=
  "*filter\n" ++ joinText ((renderLines cfg plan rules).map (·.text)) "" ++ "COMMIT\n"

/-- The chain and the jump to it; `none` is the error. -/
def ensureChain (r : Ruleset) (chain : String) : Option Ruleset :=
  let r := (r.newChain chain).getD r
  let hook := hookForChain chain cfg.chainPrefix
  if r.check hook (jumpTo chain) then some r else r.insertHead hook (jumpTo chain)

def ensureChains (r : Ruleset) : Option Ruleset :=
  if cfg.dryRun then some r else cfg.kernloomChains.foldlM (ensureChain cfg) r

/-- `Backend.Apply` of a plan without sets. A script that is refused changes nothing. -/
def applyPlan (plan : NetfilterPlan) (rules : List RulePlan) (r : Ruleset) : Option Ruleset :=
  (ensureChains cfg r).bind fun r =>
    if cfg.dryRun then some r else r.restore (renderLines cfg plan rules)

/-- Errors are ignored. -/
def cleanupChain (r : Ruleset) (chain : String) : Ruleset :=
  let r := (r.deleteRule (hookForChain chain cfg.chainPrefix) (jumpTo chain)).getD r
  let r := (r.flush chain).getD r
  (r.deleteChain chain).getD r

/-- `Backend.Cleanup`. -/
def cleanup (r : Ruleset) : Ruleset :=
  if cfg.dryRun then r else cfg.kernloomChains.foldl (cleanupChain cfg) r

end Backend

section Hooks

inductive Hook where
  | input | forward | output
  deriving DecidableEq

namespace Hook

def builtin : Hook → String
  | input => "INPUT"
  | forward => "FORWARD"
  | output => "OUTPUT"

def text : Hook → String
  | input => "input"
  | forward => "forward"
  | output => "output"

def suffix : Hook → String
  | input => "_INPUT"
  | forward => "_FORWARD"
  | output => "_OUTPUT"

/-- The chain of a hook. -/
def chainName (chainPrefix : String) (h : Hook) : String := chainPrefix ++ h.suffix

def plan (chainPrefix : String) (h : Hook) : ChainPlan := ⟨h.chainName chainPrefix, h.text, 0⟩

variable {chainPrefix : String} {h h' : Hook}

theorem builtin_inj (heq : h.builtin = h'.builtin) : h = h' := by
  cases h <;> cases h' <;> first | rfl | exact absurd heq (by decide)

theorem chainName_inj (heq : h.chainName chainPrefix = h'.chainName chainPrefix) : h = h' := by
  have hsuffix := (String.append_right_inj chainPrefix).mp heq
  cases h <;> cases h' <;> first | rfl | exact absurd hsuffix (by decide)

theorem chainName_ne {s : String} (hs : '_' ∉ s.toList) : h.chainName chainPrefix ≠ s := by
  rintro rfl
  refine hs ?_
  rw [chainName, String.toList_append, List.mem_append]
  exact .inr (by cases h <;> decide)

theorem chainName_ne_builtin : h.chainName chainPrefix ≠ h'.builtin :=
  chainName_ne (by cases h' <;> decide)

theorem hookChain_text (h : Hook) : hookChain h.text = h.builtin := by
  cases h <;> decide +kernel

theorem hookForChain_chainName : hookForChain (h.chainName chainPrefix) chainPrefix = h.builtin := by
  have hsuffix : ∀ s, trimPrefix (chainPrefix ++ ("_" ++ s)) (chainPrefix ++ "_") = s := fun s => by
    rw [← String.append_assoc, trimPrefix_append]
  have hupper : toUpper "INPUT" = "INPUT" ∧ toUpper "FORWARD" = "FORWARD" ∧ toUpper "OUTPUT" = "OUTPUT" := by
    decide +kernel
  obtain ⟨hinput, hforward, houtput⟩ := hupper
  have htrim : trimPrefix (h.chainName chainPrefix) (chainPrefix ++ "_") = h.builtin := by
    cases h
    · exact hsuffix "INPUT"
    · exact hsuffix "FORWARD"
    · exact hsuffix "OUTPUT"
  unfold hookForChain
  rw [htrim]
  cases h <;> simp [builtin, hinput, hforward, houtput]

end Hook

/-- The hooks that the configuration has a chain for. -/
def Config.hooks (cfg : Config) : List Hook :=
  (if cfg.input then [.input] else []) ++ (if cfg.forward then [.forward] else []) ++
  if cfg.output then [.output] else []

theorem kernloomChains_eq (cfg : Config) :
    cfg.kernloomChains = cfg.hooks.map (·.chainName cfg.chainPrefix) := by
  unfold Config.kernloomChains Config.hooks
  cases cfg.input <;> cases cfg.forward <;> cases cfg.output <;> rfl

theorem hooks_nodup (cfg : Config) : cfg.hooks.Nodup := by
  unfold Config.hooks
  cases cfg.input <;> cases cfg.forward <;> cases cfg.output <;> simp

/-- A plan over the chains of some hooks. -/
structure KernloomPlan (chainPrefix : String) extends NetfilterPlan where
  hooks : List Hook
  nodup : hooks.Nodup
  chains_eq : chains = hooks.map (·.plan chainPrefix)
  rules_in : ∀ rule ∈ rules, ∃ h ∈ hooks, rule.chain = h.chainName chainPrefix

end Hooks

end Netfilter

end Kernloom
