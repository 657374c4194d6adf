import Kernloom.BrokerOps

/-! The runtime contracts a node receives: the policy pack with its rules, autonomy lifecycle,
guardrails and response rules, and the bundle that carries it. -/

namespace Kernloom

section Pack

def runtimeAPIVersion : String := "kernloom.io/runtime/v1alpha1"

def kindRuntimePolicyPack : String := "RuntimePolicyPack"

structure RuntimeActionSpec where
  capability : String := ""
  level : String := ""
  ttl : Duration := 0
  deriving DecidableEq

structure RuntimePolicyRule where
  id : String := ""
  when : String := ""
  action : RuntimeActionSpec := {}
  reasonCodes : List String := []
  deriving DecidableEq

structure RuntimeAutonomyHoldRule where
  id : String := ""
  enforcementFeedbackActive : Bool := false
  levels : List String := []
  action : RuntimeActionSpec := {}
  reasonCodes : List String := []
  deriving DecidableEq

structure RuntimeAutonomySubject where
  type : String := ""
  ref : String := ""
  deriving DecidableEq

/-- An allowance with the subject only the resolver reads; the broker reads the rest. -/
structure RuntimeAutonomyAllowance extends AutonomyAllowance where
  subject : RuntimeAutonomySubject := {}
  deriving DecidableEq

structure RuntimeAutonomyActionDurationLimit where
  action : String
  duration : Duration
  deriving DecidableEq

structure RuntimeAutonomyLifecycleSpec where
  allow : List RuntimeAutonomyAllowance := []
  hold : List RuntimeAutonomyHoldRule := []
  approvalRequired : List String := []
  maxActionDuration : List RuntimeAutonomyActionDurationLimit := []
  maxRenewals : Int := 0
  requiresAudit : Bool := false
  reasonCodes : List String := []
  deriving DecidableEq

structure RuntimeGuardrailSubject where
  type : String := ""
  ref : String := ""
  deriving DecidableEq

structure RuntimeGuardrail where
  id : String := ""
  type : String := ""
  subject : RuntimeGuardrailSubject := {}
  forbiddenActions : List String := []
  unknownBehavior : String := ""
  deriving DecidableEq

structure RuntimeDetectionRule where
  id : String
  deriving DecidableEq

structure RuntimeResponseAction where
  id : String := ""
  route : String := ""
  severity : String := ""
  dedupe : Duration := 0
  ttl : Duration := 0
  deriving DecidableEq

structure RuntimeResponseRule where
  id : String := ""
  detection : String := ""
  actions : List RuntimeResponseAction := []
  deriving DecidableEq

structure RuntimeAlertRoute where
  id : String := ""
  deduplicationWindow : Duration := 0
  deriving DecidableEq

structure RuntimeAccessPolicy where
  id : String
  deriving DecidableEq

structure RuntimePolicyPack where
  apiVersion : String := runtimeAPIVersion
  kind : String := kindRuntimePolicyPack
  issuedAt : Time := 0
  capabilitiesRequired : List String := []
  rules : List RuntimePolicyRule := []
  guardrails : List RuntimeGuardrail := []
  detectionRules : List RuntimeDetectionRule := []
  responseRules : List RuntimeResponseRule := []
  alertRoutes : List RuntimeAlertRoute := []
  accessPolicies : List RuntimeAccessPolicy := []
  autonomyLifecycle : Option RuntimeAutonomyLifecycleSpec := none
  deriving DecidableEq

end Pack

section Registry

structure CapabilityEntry where
  id : String
  runtimeAction : Bool := true
  severity : Int := 0
  effect : String := ""
  actionContract : String := ""
  deriving DecidableEq

structure RuntimeActionContractEntry where
  id : String
  effect : String := ""
  runtimeAllowed : Bool := true
  canGrantAccess : Bool := false
  requiresTTL : Bool := false
  maxTTL : String := ""
  deriving DecidableEq

structure ActionLevelEntry where
  id : String
  maxSeverity : Int
  deriving DecidableEq

structure RegistrySnapshot where
  refName : String := ""
  capabilities : List CapabilityEntry := []
  actionContracts : List RuntimeActionContractEntry := []
  actionLevels : List ActionLevelEntry := []
  contextKeys : List String := []
  deriving DecidableEq

end Registry

section Bundle

structure BaselineLifecycle where
  mode : String := ""
  learningWindow : Duration := 0
  minCleanRuntime : Duration := 0
  deriving DecidableEq

structure GraphLifecycle where
  mode : String := ""
  minCleanLearning : Duration := 0
  minLearnedEdges : Int := 0
  requireNoBlockFor : Duration := 0
  freezeApproval : String := ""
  includeEdgeBaselines : Bool := false
  observeAfterFreeze : Duration := 0
  finalPhase : String := ""
  deriving DecidableEq

structure EnforcementBounds where
  allowBlock : Bool := false
  maxActionDuringBootstrap : String := ""
  maxActionDuringFrozenObserve : String := ""
  maxActionDuringFrozenEnforce : String := ""
  deriving DecidableEq

structure RuntimePDPProfile where
  name : String := ""
  mode : String := ""
  deriving DecidableEq

structure RuntimeBundle where
  nodeID : String
  generation : Int
  registrySnapshot : RegistrySnapshot
  runtimePDPProfile : RuntimePDPProfile := {}
  preferredAdapters : List String := []
  runtimePolicyPack : RuntimePolicyPack
  baselineLifecycle : BaselineLifecycle := {}
  graphLifecycle : GraphLifecycle := {}
  enforcementBounds : EnforcementBounds := {}
  failoverBehavior : String := ""
  deriving DecidableEq

end Bundle

end Kernloom
