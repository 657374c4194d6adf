import Kernloom.BrokeredExecutor

/-! Relationship actions under leases: the half of the executor that denies relationships. -/

namespace Kernloom

open Effects Effects.Program

def World.withRelationship {σ ρ : Type} (w : NodeWorld σ ρ) (s : BrokeredRelationshipPEP ρ) : NodeWorld σ ρ :=
  { w with pep := { w.pep with relationship := s } }

namespace BrokeredActionExecutor

variable {σ ρ : Type} (e : BrokeredActionExecutor σ ρ)

def relationshipSkippedResult (r : ActionResolution) (now : Time) (reason : String) : ActionResult :=
  { proposalID := r.proposalID
    decisionID := r.decisionID
    action := r.requestedAction
    status := .skipped
    reason := if reason = "" then r.denyReason else reason
    appliedAt := now }

/-- What a relationship application returns, from the broker's answer and the PEP's last result. -/
def relationshipOutcome (r : ActionResolution) (now : Time) (answer : Broker.ApplyReturn)
    (applied : ActionResult) : ActionResult :=
  let result : ActionResult :=
    { proposalID := r.proposalID
      decisionID := r.decisionID
      action := r.executableAction
      appliedAt := now }
  match answer.err with
  | some err => if applied.status = .unset then { result with status := .failed, reason := err } else applied
  | none =>
    match answer.lease with
    | none => relationshipSkippedResult r now "broker produced no relationship lease"
    | some lease =>
      if lease.leaseID = "" then relationshipSkippedResult r now "broker produced no relationship lease"
      else if applied.status = .unset then { result with status := .applied }
      else applied

def applyRelationship (ids : GeneratedIDs) (target : RelationshipTarget) (r : ActionResolution)
    (now : Time) (w : NodeWorld σ ρ) : ActionResult × NodeWorld σ ρ :=
  if ¬ r.allowed then
    ({ proposalID := r.proposalID
       decisionID := r.decisionID
       action := r.requestedAction
       status := .denied
       reason := r.denyReason
       appliedAt := now }, w)
  else if r.executableLevel ≠ "block" then (relationshipSkippedResult r now r.denyReason, w)
  else if r.ttl ≤ 0 then (relationshipSkippedResult r now "relationship action requires TTL", w)
  else
    match e.relationshipBroker with
    | none => (relationshipSkippedResult r now "relationship broker unavailable", w)
    | some broker =>
      let (answer, w) := exec (brokerHandle (e.relationshipHandle w.clock) .none) (broker.apply ids r)
        (w.withRelationship (w.pep.relationship.begin target))
      let (applied, relationship) := w.pep.relationship.finish
      (relationshipOutcome r now answer applied, w.withRelationship relationship)

end BrokeredActionExecutor

end Kernloom
