import Kernloom.Conformance
import Kernloom.Lifecycle
import Kernloom.PolicyResolver

/-! The update of a node by a runtime bundle: trust and conformance, rollback protection, the
configuration, the gate and the controllers rebuilt from the bundle, and the hand-off of its pack. -/

namespace Kernloom

/-- What the update calls outside the node: the digest and the parser of raw bundles `ρ`, the
checks of the contracts library under keys `κ`, and the expression compiler. -/
structure BundleServices (ρ κ : Type) where
  bundleHash : ρ → String
  parseBundle : ρ → Except String RuntimeBundle
  loadPublicKey : String → Except String κ
  verifyRuntimeBundle : RuntimeBundle → κ → Time → Check
  validateRuntimeBundle : RuntimeBundle → Time → Check
  celProgram : String → Check

section Adapters

def canonicalAdapterID (adapterID : String) : String :=
  if adapterID ∈ ["", "klshield", "klshield-runtime"] then "klshield" else adapterID

/-- The names of the configured adapters, canonical and without repetitions. -/
def Cfg.adapterNames (c : Cfg) : List String :=
  (((splitText c.adapters ',').map trimSpace).filter (· ≠ "")).foldl (fun names name =>
    let name := canonicalAdapterID name
    if name ∈ names then names else names ++ [name]) []

end Adapters

section Trust

def adapterCapabilities (adapterID : String) : List String :=
  let id := canonicalAdapterID (trimSpace adapterID)
  if id = "klshield" then
    ["observe.network.flow", "observe.network.drop", "observe.network.rate_limit",
      "enforce.traffic.rate_limit", "enforce.traffic.drop", "enforce.access.deny",
      "access.policy.apply", "access.policy.drift_check"]
  else if id = "netfilter" then ["enforce.network.rate_limit", "enforce.network.deny"]
  else []

def runtimeCapabilitiesForBundle (rb : RuntimeBundle) (c : Cfg) : List String :=
  let adapters := if rb.preferredAdapters = [] then c.adapterNames else rb.preferredAdapters
  adapters.flatMap adapterCapabilities

/-- The ceiling a bundle is checked against is the one in force, when there is one. -/
def maxActionForBundleConformance (rb : RuntimeBundle) (c : Cfg) : String :=
  if c.policyMaxAction ≠ "" then c.policyMaxAction
  else if ¬ rb.enforcementBounds.allowBlock then "rate_limit_hard"
  else ""

def nodeRuntimeForBundle (rb : RuntimeBundle) (c : Cfg) (nodeID : String) : NodeRuntime where
  nodeID := nodeID
  capabilities := runtimeCapabilitiesForBundle rb c
  maxAction := maxActionForBundleConformance rb c
  supportedPDPModes := ["shadow", "active"]

variable {ρ κ : Type} (services : BundleServices ρ κ)

def validateRuntimeBundle (rb : RuntimeBundle) (key : κ) (node : NodeRuntime) (now : Time) : Check := do
  services.verifyRuntimeBundle rb key now
  check (node.nodeID = "" ∨ rb.nodeID = node.nodeID)
    ("runtime bundle node_id " ++ quote rb.nodeID ++ " does not match node " ++ quote node.nodeID)
  check (rb.runtimePDPProfile.mode = "" ∨ rb.runtimePDPProfile.mode ∈ node.supportedPDPModes)
    ("runtime PDP mode " ++ quote rb.runtimePDPProfile.mode ++ " is not supported")
  check (rb.registrySnapshot.refName ≠ "") "runtime bundle registry snapshot is required"
  validateRuntimePolicyPack services.celProgram rb.runtimePolicyPack rb.registrySnapshot node

/-- The checks of a parsed bundle: signed ones on a managed node or where a key is configured. -/
def trustRuntimeBundle (rb : RuntimeBundle) (c : Cfg) (nodeID : String) (now : Time) : Check :=
  let node := nodeRuntimeForBundle rb c nodeID
  if c.mode = "managed" ∨ c.policyVerifyKeyPath ≠ "" then
    if c.policyVerifyKeyPath = "" then
      .error "managed mode requires --policy-verify-key to verify runtime bundle signature"
    else match services.loadPublicKey c.policyVerifyKeyPath with
      | .error err => .error ("load runtime bundle verify key: " ++ err)
      | .ok key => validateRuntimeBundle services rb key node now
  else do
    services.validateRuntimeBundle rb now
    validateRuntimePolicyPack services.celProgram rb.runtimePolicyPack rb.registrySnapshot node

/-- A trusted bundle, and the severities its registry gives the node's capability table. -/
def parseTrustedRuntimeBundle (raw : ρ) (c : Cfg) (nodeID : String) (now : Time) :
    Except String (RuntimeBundle × Severities) :=
  match services.parseBundle raw with
  | .error err => .error ("parse contracts runtime bundle: " ++ err)
  | .ok rb =>
    match trustRuntimeBundle services rb c nodeID now with
    | .error err => .error err
    | .ok () => .ok (rb, capabilitySeverityFromSnapshot rb.registrySnapshot)

end Trust

section Writes

def Cfg.buildPolicyResolver (c : Cfg) : PolicyResolver where
  mode := c.mode
  hasPolicyPack := c.hasPolicyPack
  policyMaxAction := c.policyMaxAction
  capabilitiesAllowed := c.capabilitiesRequired
  runtimeGuardrails := c.runtimeGuardrails
  runtimeAutonomyLifecycle := c.runtimeAutonomyLifecycle

def runtimeAutonomyAllowances (lifecycle : Option RuntimeAutonomyLifecycleSpec) :
    List RuntimeAutonomyAllowance := lifecycle.elim [] (·.allow)

def runtimeAutonomyMaxRenewals (lifecycle : Option RuntimeAutonomyLifecycleSpec) : Int :=
  lifecycle.elim 0 fun l => max l.maxRenewals 0

def runtimeAutonomyRequiresAudit (lifecycle : Option RuntimeAutonomyLifecycleSpec) : Bool :=
  lifecycle.any (·.requiresAudit)

def Broker.updateAutonomyConstraints (allowances : List RuntimeAutonomyAllowance) (maxRenewals : Int)
    (requireAuditReceipt : Bool) (b : Broker) : Broker :=
  { b with
    autonomyAllowances := allowances.map (·.toAutonomyAllowance)
    maxRenewals := maxRenewals
    requireAuditReceipt := requireAuditReceipt }

def syncActionBrokerAutonomy (lifecycle : Option RuntimeAutonomyLifecycleSpec) (brokers : List Broker) :
    List Broker :=
  brokers.map (Broker.updateAutonomyConstraints (runtimeAutonomyAllowances lifecycle)
    (runtimeAutonomyMaxRenewals lifecycle) (runtimeAutonomyRequiresAudit lifecycle))

def applyBaselineLifecycle (plan : BaselineLifecycle) (now : Time) (ctl : Bootstrap.Controller) :
    Bootstrap.Controller :=
  if trimSpace plan.mode = "" then ctl
  else .new (Bootstrap.fromBaselineLifecycle plan) (some ctl.state) now

/-- A phase is kept, but enabling the lifecycle starts it anew. -/
def applyGraphLifecycle (plan : GraphLifecycle) (now : Time) (ctl : Graph.Controller) :
    Graph.Controller :=
  if trimSpace plan.mode = "" then ctl
  else
    let cfg := Graph.fromBundle plan
    let persistedPhase := if ctl.phase = .disabled ∧ cfg.enabled then none else some ctl.phase
    .new cfg persistedPhase ctl.startedAt now

def applyEnforcementBoundsToCfg (bounds : EnforcementBounds) (graphCtl : Graph.Controller) (c : Cfg) :
    Cfg :=
  let maxAct := graphCtl.maxAction bounds
  { c with
    policyMaxAction :=
      if maxAct ≠ "" then maxAct
      else if ¬ bounds.allowBlock ∧ c.policyMaxAction = "" then "rate_limit_hard"
      else c.policyMaxAction
    graphFreezeAllowBlock := bounds.allowBlock && c.graphFreezeAllowBlock }

def applyFailoverToCfg (behavior : String) (c : Cfg) : Cfg :=
  { c with failMode := if behavior ≠ "" then behavior else c.failMode }

def applyProfileToCfg (name : String) (c : Cfg) : Cfg :=
  { c with profileName := if name ≠ "" then name else c.profileName }

def applyAdaptersToCfg (adapters : String) (c : Cfg) : Cfg :=
  { c with adapters := if adapters ≠ "" then adapters else c.adapters }

end Writes

/-- The generation and the digest of the bundle in force. -/
structure ManagedState where
  bundleGeneration : Int := 0
  bundleHash : String := ""
  deriving DecidableEq

/-- The part of a node a bundle reaches. `updates` holds the packs sent to the decision point and
not yet received; `bundleFile` is the last known good bundle on disk. -/
structure Node (ρ : Type) where
  cfg : Cfg
  resolver : PolicyResolver
  severities : Severities
  bsCtl : Bootstrap.Controller
  graphCtl : Graph.Controller
  ms : ManagedState := {}
  brokers : List Broker := []
  updates : List RuntimePolicyPack := []
  bundleFile : Option ρ := none

inductive Rejection where
  | untrusted (err : String)
  | rollback (generation current : Int)
  | mutation (generation : Int) (currentHash newHash : String)
  deriving DecidableEq

inductive BundleOutcome where
  | unchanged
  | rejected (reason : Rejection)
  | accepted (rb : RuntimeBundle)
  deriving DecidableEq

def channelCapacity : Nat := 8

/-- A send that does not wait: a full channel drops the pack. -/
def offerPack (updates : List RuntimePolicyPack) (pack : RuntimePolicyPack) : List RuntimePolicyPack :=
  if updates.length < channelCapacity then updates ++ [pack] else updates

section Update

variable {ρ κ : Type} (services : BundleServices ρ κ)

/-- The configuration after an accepted bundle. -/
def bundleCfg (rb : RuntimeBundle) (severities : Severities) (graphCtl : Graph.Controller) (c : Cfg) :
    Cfg :=
  let c := applyRuntimePolicyPackToCfg severities rb.runtimePolicyPack c
  let c := applyEnforcementBoundsToCfg rb.enforcementBounds graphCtl c
  let c := applyFailoverToCfg rb.failoverBehavior c
  let c := applyProfileToCfg rb.runtimePDPProfile.name c
  applyAdaptersToCfg (joinText rb.preferredAdapters ",") c

/-- Everything an accepted bundle writes before its pack is handed off. The gate is built as soon
as the pack is written, before the bounds of the bundle are. -/
def acceptBundle (raw : ρ) (rb : RuntimeBundle) (now : Time) (n : Node ρ) : Node ρ :=
  let packed := applyRuntimePolicyPackToCfg n.severities rb.runtimePolicyPack n.cfg
  let graphCtl := applyGraphLifecycle rb.graphLifecycle now n.graphCtl
  { n with
    cfg := bundleCfg rb n.severities graphCtl n.cfg
    resolver := packed.buildPolicyResolver
    brokers := syncActionBrokerAutonomy packed.runtimeAutonomyLifecycle n.brokers
    bsCtl := applyBaselineLifecycle rb.baselineLifecycle now n.bsCtl
    graphCtl := graphCtl
    ms := ⟨rb.generation, services.bundleHash raw⟩
    bundleFile := if n.cfg.statePath ≠ "" then some raw else n.bundleFile }

/-- The checks before anything but the capability table is written. -/
def admitBundle (nodeID : String) (raw : ρ) (now : Time) (n : Node ρ) : BundleOutcome × Node ρ :=
  let newHash := services.bundleHash raw
  if newHash = n.ms.bundleHash then (.unchanged, n)
  else match parseTrustedRuntimeBundle services raw n.cfg nodeID now with
    | .error err => (.rejected (.untrusted err), n)
    | .ok (rb, severities) =>
      let n := { n with severities := severities }
      if 0 < n.ms.bundleGeneration ∧ rb.generation < n.ms.bundleGeneration then
        (.rejected (.rollback rb.generation n.ms.bundleGeneration), n)
      else if 0 < n.ms.bundleGeneration ∧ rb.generation = n.ms.bundleGeneration ∧
          n.ms.bundleHash ≠ "" ∧ newHash ≠ n.ms.bundleHash then
        (.rejected (.mutation rb.generation n.ms.bundleHash newHash), n)
      else (.accepted rb, n)

/-- The update but for the hand-off of the pack. -/
def recordBundle (nodeID : String) (raw : ρ) (now : Time) (n : Node ρ) : BundleOutcome × Node ρ :=
  match admitBundle services nodeID raw now n with
  | (.accepted rb, n) => (.accepted rb, acceptBundle services raw rb now n)
  | (outcome, n) => (outcome, n)

def applyBundleUpdate (nodeID : String) (raw : ρ) (now : Time) (n : Node ρ) :
    BundleOutcome × Node ρ :=
  match recordBundle services nodeID raw now n with
  | (.accepted rb, n) =>
    (.accepted rb, { n with updates := offerPack n.updates rb.runtimePolicyPack })
  | (outcome, n) => (outcome, n)

/-- One raw bundle received at a time. -/
def BundleStep (nodeID : String) (n : Node ρ) (e : ρ × Time) (n' : Node ρ) : Prop :=
  (applyBundleUpdate services nodeID e.1 e.2 n).2 = n'

end Update

section Fixture

/-- A raw bundle is its digest with its content, and every signature is good. -/
def fixtureServices : BundleServices (String × RuntimeBundle) Unit where
  bundleHash raw := raw.1
  parseBundle raw := .ok raw.2
  loadPublicKey _ := .ok ()
  verifyRuntimeBundle _ _ _ := .ok ()
  validateRuntimeBundle _ _ := .ok ()
  celProgram _ := .ok ()

def fixtureSnapshot : RegistrySnapshot where
  refName := "kernloom-registries"
  capabilities :=
    [{ id := "enforce.traffic.rate_limit", severity := 2 }, { id := "enforce.access.deny", severity := 3 }]
  actionContracts :=
    [{ id := "enforce.traffic.rate_limit", requiresTTL := true },
      { id := "enforce.access.deny", requiresTTL := true }]
  actionLevels := [⟨"observe", 0⟩, ⟨"soft", 1⟩, ⟨"hard", 2⟩, ⟨"block", 3⟩]

def fixtureRule (capability level : String) : RuntimePolicyRule where
  id := "risk-high"
  when := "risk.level in ['high', 'critical']"
  action := ⟨capability, level, 60 * Duration.second⟩

/-- A pack that asks for one capability and has one rule. -/
def fixturePack (capability level : String) : RuntimePolicyPack where
  capabilitiesRequired := [capability]
  rules := [fixtureRule capability level]

def fixtureBundle (generation : Int) : RuntimeBundle where
  nodeID := "node-test"
  generation := generation
  registrySnapshot := fixtureSnapshot
  runtimePDPProfile := ⟨"contracts-runtime", "active"⟩
  preferredAdapters := ["klshield"]
  runtimePolicyPack := fixturePack "enforce.traffic.rate_limit" "hard"
  baselineLifecycle := { mode := "managed", learningWindow := 48 * Graph.hour }
  graphLifecycle := { mode := "managed", minLearnedEdges := 5, finalPhase := "frozen_enforce" }
  failoverBehavior := "fail_static"

/-- A bundle whose bounds cap the bootstrap below the ceiling of its own pack. -/
def cappedBundle (generation : Int) : RuntimeBundle :=
  { fixtureBundle generation with enforcementBounds := { maxActionDuringBootstrap := "rate_limit" } }

/-- A managed node before its first bundle. -/
def fixtureNode : Node (String × RuntimeBundle) where
  cfg := { mode := "managed", policyVerifyKeyPath := "policy.pub" }
  resolver := { mode := "managed" }
  severities := capabilitySeverityFromSnapshot fixtureSnapshot
  bsCtl := .new {} none Duration.second
  graphCtl := .new { enabled := true } none 0 Duration.second

end Fixture

end Kernloom
