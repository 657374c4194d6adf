import Kernloom.GoText
import Kernloom.RuntimeContracts

/-! A runtime policy pack written into the node's configuration: its effective rules, the
capabilities it asks for and the ceiling derived from their severities. -/

namespace Kernloom

section Rules

/-- The dash is held back, so that none ends the text. -/
def sanitizeRunes : Bool → List Char → List Char
  | _, [] => []
  | dash, c :: cs =>
    if ('a' ≤ c ∧ c ≤ 'z') ∨ ('0' ≤ c ∧ c ≤ '9') then
      if dash then '-' :: c :: sanitizeRunes false cs else c :: sanitizeRunes false cs
    else sanitizeRunes true cs

/-- Runs of other characters become one dash; a dash at either end is trimmed. -/
@[irreducible] def sanitizeRuleID (value : String) : String :=
  match sanitizeRunes false (toLower (trimSpace value)).toList with
  | [] => "rule"
  | '-' :: cs => String.ofList cs
  | cs => String.ofList cs

def celStringList (values : List String) : String :=
  joinText (((values.map trimSpace).filter (· ≠ "")).map quote) ", "

def autonomyHoldExpression (hold : RuntimeAutonomyHoldRule) : String :=
  let levels := compactStrings hold.levels
  let levels := if levels = [] then ["soft", "hard", "block"] else levels
  "fsm.current_level in [" ++ celStringList levels ++ "] && signals.enforcement.active"

def autonomyHoldRule (lifecycle : RuntimeAutonomyLifecycleSpec) (hold : RuntimeAutonomyHoldRule) :
    RuntimePolicyRule :=
  let id := trimSpace hold.id
  { id := "autonomy-" ++ if id = "" then "hold-" ++ sanitizeRuleID hold.action.capability else id
    when := autonomyHoldExpression hold
    action := hold.action
    reasonCodes := compactStrings ("autonomy_lifecycle_hold" :: lifecycle.reasonCodes ++ hold.reasonCodes) }

def autonomyLifecycleRules (pack : RuntimePolicyPack) : List RuntimePolicyRule :=
  match pack.autonomyLifecycle with
  | none => []
  | some lifecycle =>
    (lifecycle.hold.filter (·.enforcementFeedbackActive)).map (autonomyHoldRule lifecycle)

/-- The rules the decision point evaluates: the lifecycle's holds before the authored rules. -/
def effectiveRules (pack : RuntimePolicyPack) : List RuntimePolicyRule :=
  autonomyLifecycleRules pack ++ pack.rules

end Rules

section Severity

/-- Severities of capabilities: 1 limits softly, 2 hard, 3 blocks. -/
abbrev Severities := String → Option Int

/-- The last entry of a capability counts. -/
def capabilitySeverityFromSnapshot (snapshot : RegistrySnapshot) : Severities := fun id =>
  (snapshot.capabilities.filter fun c => c.runtimeAction ∧ c.id = id).getLast?.map (·.severity)

def Severities.get (severities : Severities) (id : String) : Int := (severities id).getD 0

def normalizeCapabilityID (id : String) : String :=
  let id := trimSpace id
  if id = "network.rate_limit_source" then "enforce.traffic.rate_limit"
  else if id = "network.block_source" then "enforce.access.deny"
  else if id = "network.allow_source" then "enforce.access.allow"
  else id

variable (severities : Severities)

def isBlockAllowed (caps : List String) : Bool := caps.any fun cap => 3 ≤ severities.get cap

def runtimeActionLevel (action : RuntimeActionSpec) : String :=
  let level := trimSpace action.level
  if level ≠ "" then level
  else match severities.get (normalizeCapabilityID action.capability) with
    | 3 => "block"
    | 2 => "hard"
    | 1 => "soft"
    | _ => ""

/-- Adds a capability that is neither empty nor there already. -/
def addCapability (caps : List String) (cap : String) : List String :=
  if cap = "" ∨ cap ∈ caps then caps else caps ++ [cap]

def runtimePolicyCapabilities (pack : RuntimePolicyPack) : List String :=
  let required := pack.capabilitiesRequired ++ (effectiveRules pack).map (·.action.capability)
  let responses := (pack.responseRules.flatMap (·.actions)).map (·.id)
  let access :=
    if pack.accessPolicies = [] then [] else ["access.policy.apply", "access.policy.drift_check"]
  let wanted := required ++ responses.filter (hasPrefix · "enforce.") ++ access
  (wanted.map normalizeCapabilityID).foldl addCapability []

def runtimePolicyAllowsBlock (pack : RuntimePolicyPack) (caps : List String) : Bool :=
  isBlockAllowed severities caps ||
    (effectiveRules pack).any fun rule => runtimeActionLevel severities rule.action = "block"

/-- The severity a rule counts with: its level raises that of its capability. -/
def ruleSeverity (rule : RuntimePolicyRule) : Int :=
  let sev := severities.get (normalizeCapabilityID rule.action.capability)
  match runtimeActionLevel severities rule.action with
  | "block" => 3
  | "hard" => max sev 2
  | "soft" => max sev 1
  | _ => sev

def maxActionOfSeverity (sev : Int) : String :=
  if sev = 0 then "observe"
  else if sev = 1 then "rate_limit"
  else if sev = 2 then "rate_limit_hard"
  else ""

def deriveRuntimePolicyMaxAction (pack : RuntimePolicyPack) (caps : List String) : String :=
  let sevs := caps.map severities.get ++ (effectiveRules pack).map (ruleSeverity severities)
  maxActionOfSeverity (sevs.foldl max 0)

end Severity

section Config

/-- The configuration a policy reaches. An empty ceiling is no ceiling. -/
structure Cfg where
  mode : String := ""
  policyVerifyKeyPath : String := ""
  statePath : String := ""
  hasPolicyPack : Bool := false
  policyMaxAction : String := ""
  capabilitiesRequired : List String := []
  runtimeGuardrails : List RuntimeGuardrail := []
  runtimeDetectionRules : List RuntimeDetectionRule := []
  runtimeResponseRules : List RuntimeResponseRule := []
  runtimeAlertRoutes : List RuntimeAlertRoute := []
  runtimeAccessPolicies : List RuntimeAccessPolicy := []
  runtimeAutonomyLifecycle : Option RuntimeAutonomyLifecycleSpec := none
  graphFreezeAllowBlock : Bool := false
  graphFreezeMaxAction : String := ""
  failMode : String := ""
  profileName : String := ""
  adapters : String := ""
  deriving DecidableEq

/-- The part of a pack that is written in any case. -/
def applyRuntimeRulesToCfg (pack : RuntimePolicyPack) (c : Cfg) : Cfg :=
  { c with
    runtimeGuardrails := pack.guardrails
    runtimeDetectionRules := pack.detectionRules
    runtimeResponseRules := pack.responseRules
    runtimeAlertRoutes := pack.alertRoutes
    runtimeAccessPolicies := pack.accessPolicies
    runtimeAutonomyLifecycle := pack.autonomyLifecycle
    hasPolicyPack := true }

/-- A pack without capabilities leaves the ceiling and the allowlist as they are. -/
def applyRuntimePolicyPackToCfg (severities : Severities) (pack : RuntimePolicyPack) (c : Cfg) : Cfg :=
  let caps := runtimePolicyCapabilities pack
  let c := applyRuntimeRulesToCfg pack c
  if caps = [] then c
  else
    let maxAction := deriveRuntimePolicyMaxAction severities pack caps
    { c with
      capabilitiesRequired := caps
      policyMaxAction := maxAction
      graphFreezeAllowBlock := runtimePolicyAllowsBlock severities pack caps
      graphFreezeMaxAction := maxAction }

end Config

end Kernloom
