import Kernloom.PolicyResolver
import Kernloom.TargetCodec

/-! Decisions of the runtime PDP and the proposals they are mapped to. -/

namespace Kernloom

/-- The action of a decision; `blastRadius` is what its parameters hold under that key. -/
structure RuntimeDecisionAction extends RuntimeActionSpec where
  params : GoMap ParamValue := ∅
  blastRadius : Option BlastRadius := none

structure RuntimeDecision where
  id : String := ""
  effect : String
  subjectID : String := ""
  action : RuntimeDecisionAction
  validUntil : Time := 0

section Params

def stringParam (params : GoMap ParamValue) (key : String) : String :=
  match params.lookup key with
  | none => ""
  | some v => trimSpace v.sprint

def firstStringParam (params : GoMap ParamValue) (keys : List String) : String :=
  ((keys.map (stringParam params)).find? (· ≠ "")).getD ""

def firstNonEmpty (values : List String) : String := ((values.map trimSpace).find? (· ≠ "")).getD ""

def copyStringParams (params : GoMap ParamValue) : GoMap String :=
  GoMap.ofList (params.entries.map fun e => (e.1, e.2.sprint))

end Params

section Targets

/-- The attributes of the relationship that parameters name. -/
def relationshipParamAttributes (params : GoMap ParamValue) : GoMap String :=
  let attrs := GoMap.ofList (params.entries.filterMap fun e =>
    if hasPrefix e.1 "dimension." then some (e.1, e.2.sprint) else none)
  let targetID := firstStringParam params ["target_id", "target", "object_id", "service_id"]
  if targetID ≠ "" then attrs.insert "target_id" targetID else attrs

/-- The source under the first of some keys, else the subject of the decision. -/
def decisionSourceID (dec : RuntimeDecision) (fallbackSubjectID : String) (keys : List String) : String :=
  let named := firstStringParam dec.action.params keys
  if named = "" then firstNonEmpty [dec.subjectID, fallbackSubjectID] else named

/-- The target a decision names, or the reason it names none. -/
def runtimeDecisionTarget (dec : RuntimeDecision) (fallbackSubjectID : String) : Except String ActionTarget :=
  let params := dec.action.params
  let granularity := toLower (stringParam params "target_granularity")
  if granularity = targetGranularityRelationship then
    let sourceID := decisionSourceID dec fallbackSubjectID ["subject_id", "source_id", "source", "source_ip"]
    match relationshipTargetFromAttributes sourceID (relationshipParamAttributes params) with
    | none => .error "runtime_relationship_target_invalid"
    | some target => .ok target.proposal
  else if granularity = "" ∨ granularity = targetGranularitySource then
    let sourceID := decisionSourceID dec fallbackSubjectID ["source_id", "source", "source_ip", "ip", "subject_id"]
    if sourceID = "" then .error "runtime_source_target_missing"
    else .ok ⟨targetGranularitySource, sourceID, copyStringParams params⟩
  else .error "runtime_target_granularity_unsupported"

/-- Whether a fallback target takes the place of the one a decision names. -/
def shouldUseRuntimeFallbackTarget (dec : RuntimeDecision) : Except String ActionTarget → Bool
  | .error _ => true
  | .ok target =>
    if toLower (stringParam dec.action.params "target_granularity") = targetGranularityRelationship then
      target.granularity ≠ targetGranularityRelationship
    else normalizeCapabilityID dec.action.capability = "enforce.access.deny" ∧
      target.granularity ≠ targetGranularityRelationship

def targetWithFallback (dec : RuntimeDecision) (fallbackSubjectID : String)
    (fallbackTarget : Option ActionTarget) : Except String ActionTarget :=
  let target := runtimeDecisionTarget dec fallbackSubjectID
  match fallbackTarget with
  | none => target
  | some fallback => if shouldUseRuntimeFallbackTarget dec target then .ok fallback else target

end Targets

section Proposals

variable (severities : Severities)

/-- The longest duration a subtraction of times returns. -/
def maxDuration : Duration := 2 ^ 63 - 1

def runtimeDecisionTTL (dec : RuntimeDecision) (now : Time) : Duration :=
  if 0 < dec.action.ttl then dec.action.ttl
  else if now < dec.validUntil then min (dec.validUntil - now) maxDuration
  else 30 * Duration.second

def runtimeDecisionToActionProposalWithFallbackTarget (dec : RuntimeDecision) (fallbackSubjectID : String)
    (fallbackTarget : Option ActionTarget) (now : Time) : Except String ActionProposal :=
  let level := runtimeActionLevel severities dec.action.toRuntimeActionSpec
  let capability := normalizeCapabilityID dec.action.capability
  if dec.effect ≠ "apply" ∧ dec.effect ≠ "restrict" then .error "runtime_decision_effect_not_enforcing"
  else if level = "" then .error "runtime_decision_non_enforcing_level"
  else if capability = "" ∧ level ≠ "observe" then .error "runtime_decision_missing_capability"
  else match targetWithFallback dec fallbackSubjectID fallbackTarget with
    | .error reason => .error reason
    | .ok target => .ok
      { id := dec.id
        desiredAction := capability
        desiredLevel := level
        target := target
        parameters := dec.action.params
        blastRadius := dec.action.blastRadius
        ttl := runtimeDecisionTTL dec now }

def runtimeDecisionToActionProposal (dec : RuntimeDecision) (fallbackSubjectID : String) (now : Time) :
    Except String ActionProposal :=
  runtimeDecisionToActionProposalWithFallbackTarget severities dec fallbackSubjectID none now

/-- A proposal with the drop rate seen, when there is one. -/
def runtimePDPActionProposalWithEvidence (prop : ActionProposal) : Option ParamValue → ActionProposal
  | none => prop
  | some dropRate => { prop with parameters := prop.parameters.insert "evidence_drop_rl_rate" dropRate }

@[simp] theorem withEvidence_target (prop : ActionProposal) (dropRate : Option ParamValue) :
    (runtimePDPActionProposalWithEvidence prop dropRate).target = prop.target := by
  cases dropRate <;> rfl

end Proposals

section Aims

/-- A target that a decision may name: a source, or a relationship that can be decoded. -/
inductive Aimed : ActionTarget → Prop
  | source {value : String} (attributes : GoMap String) : value ≠ "" →
      Aimed ⟨targetGranularitySource, value, attributes⟩
  | relationship {t : RelationshipTarget} : t.WellFormed → Aimed t.proposal

variable {severities : Severities} {dec : RuntimeDecision} {fallbackSubjectID : String} {now : Time}
  {fallbackTarget : Option ActionTarget}

theorem aimed_of_decision {target : ActionTarget}
    (h : runtimeDecisionTarget dec fallbackSubjectID = .ok target) : Aimed target := by
  unfold runtimeDecisionTarget at h
  dsimp only at h
  split_ifs at h with hrel hsource hnone
  · cases ht : relationshipTargetFromAttributes (decisionSourceID dec fallbackSubjectID
        ["subject_id", "source_id", "source", "source_ip"]) (relationshipParamAttributes dec.action.params) with
    | none => simp [ht] at h
    | some t =>
      rw [ht] at h
      obtain rfl := Except.ok.inj h
      exact .relationship (wellFormed_of_attributes ht)
  · obtain rfl := Except.ok.inj h
    exact .source _ hnone

theorem proposal_target {prop : ActionProposal}
    (h : runtimeDecisionToActionProposalWithFallbackTarget severities dec fallbackSubjectID fallbackTarget now =
      .ok prop) : targetWithFallback dec fallbackSubjectID fallbackTarget = .ok prop.target := by
  unfold runtimeDecisionToActionProposalWithFallbackTarget at h
  dsimp only at h
  split_ifs at h
  cases htarget : targetWithFallback dec fallbackSubjectID fallbackTarget with
  | error reason => simp [htarget] at h
  | ok target =>
    rw [htarget] at h
    obtain rfl := Except.ok.inj h
    rfl

theorem aimed_of_proposal {prop : ActionProposal}
    (h : runtimeDecisionToActionProposalWithFallbackTarget severities dec fallbackSubjectID fallbackTarget now =
      .ok prop) (hfallback : ∀ fallback, fallbackTarget = some fallback → Aimed fallback) :
    Aimed prop.target := by
  have htarget := proposal_target h
  unfold targetWithFallback at htarget
  cases fallbackTarget with
  | none => exact aimed_of_decision htarget
  | some fallback =>
    dsimp only at htarget
    split_ifs at htarget with huse
    · obtain rfl := Except.ok.inj htarget
      exact hfallback _ rfl
    · exact aimed_of_decision htarget

end Aims

end Kernloom
