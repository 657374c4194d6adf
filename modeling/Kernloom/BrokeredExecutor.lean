import Kernloom.BrokeredPEP
import Kernloom.BrokerWorld

/-! The executor that puts source and relationship actions under leases. Both brokers share one
lease table. -/

namespace Kernloom

open Effects

/-- The two brokered PEPs of a node. -/
structure BrokeredPEPs (σ ρ : Type) where
  source : BrokeredSourcePEP σ
  relationship : BrokeredRelationshipPEP ρ

/-- `params` is the configuration a revert reads. -/
structure BrokeredActionExecutor (σ ρ : Type) where
  sourcePEP : SourcePEP σ
  params : EnforcementParams := {}
  sourceBroker : Broker
  relationshipPEP : RelationshipPEP ρ
  relationshipBroker : Option Broker := none

abbrev NodeWorld (σ ρ : Type) := World (BrokeredPEPs σ ρ)

def World.withSource {σ ρ : Type} (w : NodeWorld σ ρ) (s : BrokeredSourcePEP σ) : NodeWorld σ ρ :=
  { w with pep := { w.pep with source := s } }

namespace BrokeredActionExecutor

variable {σ ρ : Type} (e : BrokeredActionExecutor σ ρ)

def sourceHandle (now : Time) (op : PepOp) (p : BrokeredPEPs σ ρ) : op.Answer × BrokeredPEPs σ ρ :=
  let (r, s) := BrokeredSourcePEP.handle e.sourcePEP e.params now op p.source
  (r, { p with source := s })

def relationshipHandle (now : Time) (op : PepOp) (p : BrokeredPEPs σ ρ) :
    op.Answer × BrokeredPEPs σ ρ :=
  let (r, s) := BrokeredRelationshipPEP.handle e.relationshipPEP now op p.relationship
  (r, { p with relationship := s })

/-- A transition of the source PEP that no lease stands for. -/
def applyUnbrokered (target : SourceTarget) (st : FsmState) (r : ActionResolution)
    (params : EnforcementParams) (now : Time) (w : NodeWorld σ ρ) :
    (FsmState × ActionResult) × NodeWorld σ ρ :=
  let (out, adapter) :=
    SourceActionExecutor.applySource e.sourcePEP target st r params now w.pep.source.adapter
  (out, w.withSource { w.pep.source with adapter })

def sourceApplyOutcomeFromLease (ctx : ApplyContext) (lease : ActionLease) : FsmState × ActionResult :=
  ({ ctx.state with level := parseFSMLevel lease.level, expiresAt := lease.expiresAt },
    { proposalID := ctx.resolution.proposalID
      decisionID := ctx.resolution.decisionID
      action := lease.action
      status := .applied
      reason := "lease renewed"
      appliedAt := ctx.now })

/-- What a brokered application returns, from the broker's answer and the PEP's last outcome. -/
def brokeredOutcome (ctx : ApplyContext) (ret : Broker.ApplyReturn) (applied : ApplyOutcome) :
    FsmState × ActionResult :=
  let result : ActionResult :=
    { proposalID := ctx.resolution.proposalID
      decisionID := ctx.resolution.decisionID
      action := ctx.resolution.executableAction
      appliedAt := ctx.now }
  match ret.err with
  | some err =>
    (ctx.state, if applied.result.status ≠ .unset then applied.result
      else { result with status := .failed, reason := err })
  | none =>
    match ret.lease with
    | none => (ctx.state, { result with status := .skipped, reason := "broker produced no lease" })
    | some lease =>
      if lease.leaseID = "" then
        (ctx.state, { result with status := .skipped, reason := "broker produced no lease" })
      else if applied.result.status = .unset then sourceApplyOutcomeFromLease ctx lease
      else (applied.state, applied.result)

def applyBrokered (ids : GeneratedIDs) (ctx : ApplyContext) (w : NodeWorld σ ρ) :
    (FsmState × ActionResult) × NodeWorld σ ρ :=
  let ctx := { ctx with resolution := resolutionWithExecutionMetadata ctx.resolution ctx.params }
  let (ret, w) := exec (brokerHandle (e.sourceHandle w.clock) .none)
    (e.sourceBroker.apply ids ctx.resolution) (w.withSource (w.pep.source.begin ctx))
  let (applied, source) := w.pep.source.finish
  (brokeredOutcome ctx ret applied, w.withSource source)

def applySource (ids : GeneratedIDs) (target : SourceTarget) (st : FsmState) (r : ActionResolution)
    (params : EnforcementParams) (now : Time) (w : NodeWorld σ ρ) :
    (FsmState × ActionResult) × NodeWorld σ ρ :=
  let params := enforcementParamsForResolution params r
  if shouldBrokerLease r then e.applyBrokered ids ⟨target, st, r, params, now⟩ w
  else e.applyUnbrokered target st r params now w

/-- The resolution of an operator's override. -/
def observeOverride (target : SourceTarget) (now : Time) (reason : String) : ActionResolution :=
  { proposalID := "operator-override"
    decisionID := "operator-" ++ rfc3339Nano now ++ "-" ++ target.sourceID
    allowed := true
    requestedAction := "operator.observe"
    requestedLevel := "observe"
    executableAction := "operator.observe"
    executableLevel := "observe"
    target := ⟨targetGranularitySource, target.sourceID, target.attributes⟩
    denyReason := reason
    policyID := "operator.override" }

def applySourceObserveOverride (target : SourceTarget) (st : FsmState) (params : EnforcementParams)
    (now : Time) (reason : String) (w : NodeWorld σ ρ) : (FsmState × ActionResult) × NodeWorld σ ρ :=
  let target :=
    if target.sourceID = "" then { target with sourceID := target.subjectID } else target
  e.applyUnbrokered target st (observeOverride target now reason) params now w

def revertExpiredSources (now : Time) (w : NodeWorld σ ρ) : Broker.SweepReturn × NodeWorld σ ρ :=
  exec (brokerHandle (e.sourceHandle w.clock) .none) (e.sourceBroker.revertExpired now) w

/-- Sweeps the source leases, then the relationship leases; an error of one is only logged. -/
def revertExpired (now : Time) (w : NodeWorld σ ρ) : NodeWorld σ ρ :=
  let w := (e.revertExpiredSources now w).2
  match e.relationshipBroker with
  | none => w
  | some broker =>
    (exec (brokerHandle (e.relationshipHandle w.clock) .none) (broker.revertExpired now) w).2

end BrokeredActionExecutor

end Kernloom
