import Kernloom.Action
import Kernloom.RuntimePolicy

/-! The last gate before an enforcement: a proposal is capped by the ceiling of the policy and
denied when the allowlist, a guardrail, its blast radius or the autonomy lifecycle forbids it. -/

namespace Kernloom

/-- What a proposal's `blast_radius` map says, as texts; a missing entry reads `<nil>`. -/
structure BlastRadius where
  unknownBehavior : String := "<nil>"
  excludes : List RuntimeGuardrailSubject := []

structure ActionProposal where
  id : String := ""
  desiredAction : String
  desiredLevel : String
  target : ActionTarget
  parameters : GoMap ParamValue := ∅
  blastRadius : Option BlastRadius := none
  ttl : Duration := 0

section Guardrails

def normalizeGuardrailAction (action : String) : String :=
  let action := trimSpace (replaceRune action ' ' '_')
  if action ∈ ["network.flow_deny", "network.block_source", "deny", "network_deny"] then
    "enforce.access.deny"
  else if action ∈ ["block", "temporary_block"] then "enforce.traffic.drop"
  else if action ∈ ["quarantine", "network_quarantine"] then "enforce.network.quarantine"
  else if action ∈ ["disable_identity", "identity_disable", "identity.disable"] then
    "enforce.identity.disable"
  else action

def blockingActions : List String :=
  ["enforce.access.deny", "enforce.traffic.drop", "enforce.network.quarantine",
    "enforce.identity.disable"]

def guardrailActionMatches (forbidden action level : String) : Bool :=
  let forbidden := normalizeGuardrailAction forbidden
  let action := normalizeGuardrailAction action
  if forbidden = "" then false
  else if forbidden = "auto_block" then level = "block" ∨ action ∈ blockingActions
  else forbidden = action

def isHardRuntimeAction (action level : String) : Bool :=
  level = "hard" ∨ level = "block" ∨ normalizeGuardrailAction action ∈ blockingActions

/-- The first attribute that is not blank. -/
def firstAttr (attrs : GoMap String) (keys : List String) : String :=
  ((keys.map fun key => trimSpace (attrs.get key)).find? (· ≠ "")).getD ""

def listContains (values want : String) : Bool :=
  (fieldsFunc values fun c => c = ',' || c = ' ' || c = ';').any (trimSpace · = want)

/-- Whether a target is a subject, and whether that is unknown. A target without attributes has
the empty map. -/
def guardrailSubjectMatch (subject : RuntimeGuardrailSubject) (target : ActionTarget) : Bool × Bool :=
  if subject.type = "" ∨ subject.ref = "" then (false, false)
  else if target.granularity = "subject" ∧
      (target.value = subject.ref ∨ target.value = subject.type ++ ":" ++ subject.ref) then (true, false)
  else
    let subjectType := firstAttr target.attributes ["subject_type", "subject.type", "subjectType"]
    let subjectRef := firstAttr target.attributes ["subject_ref", "subject.ref", "subjectRef"]
    let groups := firstAttr target.attributes
      ["subject.groups", "subject_groups", "subjectGroups", "group"]
    if subjectType ≠ "" ∨ subjectRef ≠ "" then
      (subjectType = subject.type ∧ subjectRef = subject.ref, false)
    else if subject.type = "group" ∧ groups ≠ "" then (listContains groups subject.ref, false)
    else (false, true)

def guardrailUnknownRejectsHardAction (g : RuntimeGuardrail) (action level : String) : Bool :=
  let behavior := if g.unknownBehavior = "" then "reject_hard_action" else g.unknownBehavior
  behavior = "reject_action" ∨ (behavior = "reject_hard_action" ∧ isHardRuntimeAction action level)

def guardrailVerdict (action level : String) (target : ActionTarget) (g : RuntimeGuardrail) :
    Option String :=
  if trimSpace g.type ≠ "never" ∨
      ¬ g.forbiddenActions.any (guardrailActionMatches · action level) then none
  else
    let found := guardrailSubjectMatch g.subject target
    if found.1 then some ("guardrail_violation(" ++ g.id ++ ")")
    else if found.2 ∧ guardrailUnknownRejectsHardAction g action level then
      some ("guardrail_unknown_match_for_hard_action(" ++ g.id ++ ")")
    else none

end Guardrails

section BlastRadius

def blastRadiusUnknownRejects (behavior action level : String) : Bool :=
  let behavior := if behavior = "" then "reject_hard_action" else behavior
  let behavior := replaceRune (toLower (trimSpace behavior)) '-' '_'
  behavior = "reject_action" ∨ (behavior = "reject_hard_action" ∧ isHardRuntimeAction action level)

def actionBlastRadiusSubjects (p : ActionProposal) : List RuntimeGuardrailSubject × String :=
  let excluded := match p.blastRadius with
    | none => ([], "")
    | some radius =>
      ((radius.excludes.map fun s => ⟨trimSpace s.type, trimSpace s.ref⟩).filter
        fun s : RuntimeGuardrailSubject => s.type ≠ "" ∧ s.ref ≠ "", trimSpace radius.unknownBehavior)
  let group := trimSpace (p.parameters.get "requires_target_excludes_group").sprint
  if group ≠ "" ∧ group ≠ "<nil>" then
    (excluded.1 ++ [⟨"group", group⟩], if excluded.2 = "" then "reject_hard_action" else excluded.2)
  else excluded

def actionBlastRadiusDenyReason (p : ActionProposal) (action level : String) : Option String :=
  let subjects := actionBlastRadiusSubjects p
  subjects.1.findSome? fun subject =>
    let found := guardrailSubjectMatch subject p.target
    if found.1 then some "blast_radius_protected_subject"
    else if found.2 ∧ blastRadiusUnknownRejects subjects.2 action level then
      some "blast_radius_unknown_target"
    else none

end BlastRadius

/-- The gate; an empty allowlist allows every capability. -/
structure PolicyResolver where
  mode : String := ""
  hasPolicyPack : Bool := false
  policyMaxAction : String := ""
  capabilitiesAllowed : List String := []
  runtimeGuardrails : List RuntimeGuardrail := []
  runtimeAutonomyLifecycle : Option RuntimeAutonomyLifecycleSpec := none
  deriving DecidableEq

namespace PolicyResolver

variable (r : PolicyResolver)

section Autonomy

def boolAny : ParamValue → Bool
  | .bool b => b
  | .string s => parseBool (trimSpace s) = some true
  | _ => false

def approvalGranted (params : GoMap ParamValue) : Bool :=
  ["approval_granted", "operator_approved", "approved"].any fun key => boolAny (params.get key)

def sourceClassifiesAsUnknown (p : ActionProposal) : Bool :=
  ["source_class", "source_selector", "selector"].any fun key =>
    trimSpace (p.parameters.get key).sprint ∈ ["unknown", "unknown_source"] ||
      trimSpace (p.target.attributes.get key) ∈ ["unknown", "unknown_source"]

/-- Only the first allowance for unknown sources decides. -/
def autonomySubjectAllowanceDenyReason (lifecycle : RuntimeAutonomyLifecycleSpec) (action : String)
    (p : ActionProposal) : Option String :=
  match lifecycle.allow.find? fun a =>
      trimSpace a.action = action ∧ a.subject.type = "source" ∧ a.subject.ref = "unknown" with
  | none => none
  | some _ =>
    if sourceClassifiesAsUnknown p then none else some "autonomy_subject_not_allowed(source:unknown)"

def autonomyApprovalDenyReason (lifecycle : RuntimeAutonomyLifecycleSpec) (action : String)
    (params : GoMap ParamValue) : Option String :=
  if lifecycle.approvalRequired.any (trimSpace · = action) ∧ ¬ approvalGranted params then
    some ("autonomy_approval_required(" ++ action ++ ")")
  else none

/-- Without a lifecycle or an action nothing is asked. -/
def autonomyDenyReason (action : String) (p : ActionProposal) : Option String :=
  match r.runtimeAutonomyLifecycle with
  | none => none
  | some lifecycle =>
    if action = "" then none
    else (autonomySubjectAllowanceDenyReason lifecycle action p).or
      (autonomyApprovalDenyReason lifecycle action p.parameters)

def autonomyMaxActionDuration (action : String) : Duration :=
  match r.runtimeAutonomyLifecycle with
  | none => 0
  | some lifecycle =>
    if action = "" then 0
    else ((lifecycle.maxActionDuration.find? fun limit =>
      trimSpace limit.action = action ∧ 0 < limit.duration).map (·.duration)).getD 0

def autonomyRequiresAudit : Bool := r.runtimeAutonomyLifecycle.any (·.requiresAudit)

end Autonomy

def guardrailDenyReason (action level : String) (target : ActionTarget) : Option String :=
  if action = "" ∨ level = "observe" then none
  else r.runtimeGuardrails.findSome? (guardrailVerdict action level target)

def capabilityDenyReason (action : String) : Option String :=
  if r.capabilitiesAllowed ≠ [] ∧ action ≠ "" ∧ action ∉ r.capabilitiesAllowed then
    some ("capability_not_in_policy_pack(" ++ action ++ ")")
  else none

/-- The action and the level under the ceiling, and why they were lowered. -/
def capped (p : ActionProposal) : String × String × String :=
  if r.policyMaxAction = "rate_limit" ∧ (p.desiredLevel = "block" ∨ p.desiredLevel = "hard") then
    ("enforce.traffic.rate_limit", "soft", "policy_max_action_ceiling")
  else if r.policyMaxAction = "rate_limit_hard" ∧ p.desiredLevel = "block" then
    ("enforce.traffic.rate_limit", "hard", "policy_max_action_ceiling")
  else (p.desiredAction, p.desiredLevel, "")

def appendResolutionReason (existing reason : String) : String :=
  if existing = "" then reason else existing ++ "," ++ reason

/-- Why a proposal is denied after the ceiling; the checks are made in this order. -/
def denyReason (p : ActionProposal) (action level : String) : Option String :=
  (((r.capabilityDenyReason action).or (r.guardrailDenyReason action level p.target)).or
    (actionBlastRadiusDenyReason p action level)).or (r.autonomyDenyReason action p)

/-- A proposal that passed every check, with its lifetime clamped. -/
def authorised (p : ActionProposal) (base : ActionResolution) (exec : String × String × String) :
    ActionResolution :=
  let maxDuration := r.autonomyMaxActionDuration exec.1
  let clamped := 0 < maxDuration ∧ maxDuration < p.ttl
  { base with
    allowed := true
    executableAction := exec.1
    executableLevel := exec.2.1
    denyReason := if clamped then appendResolutionReason exec.2.2 "autonomy_max_action_duration_clamped"
      else exec.2.2
    ttl := if clamped then maxDuration else p.ttl
    parameters := if r.autonomyRequiresAudit then
      p.parameters.insert "requires_audit_receipt" (.bool true) else p.parameters }

def resolve (p : ActionProposal) : ActionResolution :=
  let base : ActionResolution :=
    { proposalID := p.id
      allowed := true
      requestedAction := p.desiredAction
      requestedLevel := p.desiredLevel
      target := p.target
      parameters := p.parameters
      ttl := p.ttl }
  if r.mode ≠ "managed" then
    { base with executableAction := p.desiredAction, executableLevel := p.desiredLevel }
  else if ¬ r.hasPolicyPack then
    { base with executableLevel := "observe", denyReason := "managed_no_policy_pack" }
  else if r.policyMaxAction = "observe" then
    { base with
      executableLevel := "observe"
      denyReason := if p.desiredLevel ≠ "observe" then "policy_max_action_observe" else "" }
  else
    let exec := r.capped p
    match r.denyReason p exec.1 exec.2.1 with
    | some reason =>
      { base with allowed := false, denyReason := reason, executableLevel := "observe" }
    | none => r.authorised p base exec

section Ceiling

/-- How much a ceiling permits; a text that is none of the ceilings caps nothing. -/
def ceilingRank (maxAction : String) : Nat :=
  if maxAction = "observe" then 0
  else if maxAction = "rate_limit" then 1
  else if maxAction = "rate_limit_hard" then 2
  else 3

theorem capped_level_ne_block (h : ceilingRank r.policyMaxAction ≤ 2) (hobs : r.policyMaxAction ≠ "observe")
    (p : ActionProposal) : (r.capped p).2.1 ≠ "block" := by
  have hceiling : r.policyMaxAction = "rate_limit" ∨ r.policyMaxAction = "rate_limit_hard" := by
    by_contra hne
    rw [not_or] at hne
    simp [ceilingRank, hobs, hne.1, hne.2] at h
  rcases hceiling with hc | hc
  · by_cases hlevel : p.desiredLevel = "block" ∨ p.desiredLevel = "hard"
    · simp [capped, hc, hlevel]
    · rw [not_or] at hlevel
      simp [capped, hc, hlevel.1, hlevel.2]
  · by_cases hlevel : p.desiredLevel = "block"
    · simp [capped, hc, hlevel]
    · simp [capped, hc, hlevel]

/-- Under a ceiling a managed node never authorises a block. -/
theorem resolve_level_ne_block (hmode : r.mode = "managed") (h : ceilingRank r.policyMaxAction ≤ 2)
    (p : ActionProposal) : (r.resolve p).executableLevel ≠ "block" := by
  unfold resolve
  simp only [hmode, ne_eq, not_true_eq_false, if_false]
  split
  · simp
  split
  · simp
  · rename_i hobs
    have hlevel := r.capped_level_ne_block h hobs p
    split
    · simp
    · simpa [authorised] using hlevel

end Ceiling

end PolicyResolver

end Kernloom
