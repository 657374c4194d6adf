import Kernloom.Lease
import Kernloom.BrokerOps

/-! The executor of authorised source actions, over any source PEP. -/

namespace Kernloom

/-- A source PEP with states `σ`: a transition answers with the next FSM state or an error. -/
structure SourcePEP (σ : Type) where
  transitionSource : SourceTarget → FsmState → Level → Time → EnforcementParams → σ → Fallible FsmState × σ

/-- The FSM state the shield adapter returns after a transition. -/
def applyStateFields (st : FsmState) (target : Level) (now : Time) (p : EnforcementParams) : FsmState :=
  { st with
    level := target
    cooldownUntil := now + p.cooldown
    expiresAt := match target with
      | .observe => 0
      | .soft => now + p.softTTL
      | .hard => now + p.hardTTL
      | .block => now + p.blockTTL }

namespace SourceActionExecutor

variable {σ : Type} (pep : SourcePEP σ)

/-- Applies a resolution to a source. A denied source is moved to observe. -/
def applySource (target : SourceTarget) (st : FsmState) (r : ActionResolution)
    (params : EnforcementParams) (now : Time) (s : σ) : (FsmState × ActionResult) × σ :=
  let result : ActionResult :=
    { proposalID := r.proposalID, decisionID := r.decisionID, action := r.requestedAction
      appliedAt := now }
  if ¬ r.allowed then
    match pep.transitionSource target st .observe now params s with
    | (.ok st', s') => ((st', { result with status := .denied, reason := r.denyReason }), s')
    | (.error err, s') => ((st, { result with status := .failed, reason := err }), s')
  else
    match pep.transitionSource target st (parseFSMLevel r.executableLevel) now params s with
    | (.ok st', s') =>
      ((st', { result with
        status := if r.denyReason ≠ "" then .downgraded else .applied
        action := r.executableAction
        reason := r.denyReason }), s')
    | (.error err, s') => ((st, { result with status := .failed, reason := err }), s')

/-- Moves a source to observe; an error of the PEP leaves the FSM state as it was. -/
def applyDeEnforceSource (target : SourceTarget) (st : FsmState) (params : EnforcementParams)
    (now : Time) (s : σ) : FsmState × σ :=
  match pep.transitionSource target st .observe now params s with
  | (.ok st', s') => (st', s')
  | (.error _, s') => (st, s')

theorem applySource_snd (target : SourceTarget) (st : FsmState) (r : ActionResolution)
    (params : EnforcementParams) (now : Time) (s : σ) : (applySource pep target st r params now s).2 =
      (pep.transitionSource target st
        (if r.allowed then parseFSMLevel r.executableLevel else .observe) now params s).2 := by
  unfold applySource
  cases hr : r.allowed <;> simp only [not_true, Bool.false_eq_true, not_false_eq_true, if_true, if_false] <;>
    split <;> simp_all

theorem applyDeEnforceSource_snd (target : SourceTarget) (st : FsmState) (params : EnforcementParams)
    (now : Time) (s : σ) : (applyDeEnforceSource pep target st params now s).2 =
      (pep.transitionSource target st .observe now params s).2 := by
  unfold applyDeEnforceSource
  split <;> simp_all

end SourceActionExecutor

section Params

/-- The parameters with the TTL and the rates a resolution carries. -/
def enforcementParamsForResolution (params : EnforcementParams) (r : ActionResolution) :
    EnforcementParams :=
  let level := parseFSMLevel r.executableLevel
  let params :=
    if 0 < r.ttl then
      match level with
      | .soft => { params with softTTL := r.ttl }
      | .hard => { params with hardTTL := r.ttl }
      | .block => { params with blockTTL := r.ttl }
      | .observe => params
    else params
  let rate := uint64Param r.parameters "rate_pps"
  if rate = 0 then params
  else
    let burst :=
      if uint64Param r.parameters "burst" = 0 then rate * 2 else uint64Param r.parameters "burst"
    match level with
    | .soft => { params with softRate := rate, softBurst := burst }
    | .hard => { params with hardRate := rate, hardBurst := burst }
    | _ => params

/-- The parameters a resolution is executed with, as it records them. -/
def executionParameters (params : EnforcementParams) : List (String × ParamValue) :=
  [("execution_dry_run", .bool params.dryRun), ("execution_soft_rate", .uint64 params.softRate),
    ("execution_soft_burst", .uint64 params.softBurst), ("execution_hard_rate", .uint64 params.hardRate),
    ("execution_hard_burst", .uint64 params.hardBurst)]

def resolutionWithExecutionMetadata (r : ActionResolution) (params : EnforcementParams) :
    ActionResolution :=
  { r with parameters := r.parameters.insertAll (executionParameters params) }

def shouldBrokerLease (r : ActionResolution) : Prop :=
  r.allowed ∧ 0 < r.ttl ∧ r.executableLevel ≠ "" ∧ r.executableLevel ≠ "observe"

instance (r : ActionResolution) : Decidable (shouldBrokerLease r) :=
  inferInstanceAs (Decidable (_ ∧ _ ∧ _ ∧ _))

end Params

end Kernloom
