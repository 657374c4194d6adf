import Kernloom.SourceExecutor
import Kernloom.RelationshipTarget

/-! The two PEPs behind a broker. Each remembers in memory the fencing token of the lease it last
applied to a target; a target without a token reads as held by whatever lease asks. -/

namespace Kernloom

/-- The key a lease's token is kept under. -/
def leaseFencingKey (lease : ActionLease) : String :=
  if lease.target ≠ "" then lease.target
  else targetString (targetFromLease lease)

/-- The tokens of the leases in force, by target. -/
abbrev FencingTokens := GoMap String

namespace FencingTokens

def current (tokens : FencingTokens) (lease : ActionLease) : String :=
  if tokens.get (leaseFencingKey lease) ≠ "" then tokens.get (leaseFencingKey lease)
  else lease.fencingToken

def setCurrent (tokens : FencingTokens) (lease : ActionLease) : FencingTokens :=
  tokens.insert (leaseFencingKey lease) lease.fencingToken

def clearCurrent (tokens : FencingTokens) (lease : ActionLease) : FencingTokens :=
  if tokens.get (leaseFencingKey lease) = lease.fencingToken then tokens.erase (leaseFencingKey lease)
  else tokens

theorem get_setCurrent (tokens : FencingTokens) (lease : ActionLease) (target : String) :
    GoMap.get (tokens.setCurrent lease) target =
      if target = leaseFencingKey lease then lease.fencingToken else tokens.get target := by
  by_cases h : target = leaseFencingKey lease
  · subst h
    simp [setCurrent]
  · simp [setCurrent, h, GoMap.get_insert_ne]

theorem get_clearCurrent (tokens : FencingTokens) (lease : ActionLease) (target : String) :
    GoMap.get (tokens.clearCurrent lease) target =
      if target = leaseFencingKey lease ∧ tokens.get (leaseFencingKey lease) = lease.fencingToken then ""
      else tokens.get target := by
  by_cases h : tokens.get (leaseFencingKey lease) = lease.fencingToken
  · simp only [clearCurrent, h, if_true, and_true, GoMap.get_erase]
    rfl
  · simp [clearCurrent, h]

end FencingTokens

section Source

/-- The transition a brokered application is made for. -/
structure ApplyContext where
  target : SourceTarget
  state : FsmState
  resolution : ActionResolution
  params : EnforcementParams
  now : Time

structure ApplyOutcome where
  state : FsmState := {}
  result : ActionResult := {}

/-- The brokered source PEP and the adapter behind it. -/
structure BrokeredSourcePEP (σ : Type) where
  adapter : σ
  currentTokens : FencingTokens := ∅
  active : Option ApplyContext := none
  last : ApplyOutcome := {}

namespace BrokeredSourcePEP

variable {σ : Type}

def adapterID : String := "kliq-source-pep"

def begin (s : BrokeredSourcePEP σ) (ctx : ApplyContext) : BrokeredSourcePEP σ :=
  { s with active := some ctx, last := {} }

def finish (s : BrokeredSourcePEP σ) : ApplyOutcome × BrokeredSourcePEP σ :=
  (s.last, { s with active := none, last := {} })

/-- The calls of the broker; `params` and `now` are what a revert reads. -/
def handle (pep : SourcePEP σ) (params : EnforcementParams) (now : Time) :
    (op : PepOp) → BrokeredSourcePEP σ → op.Answer × BrokeredSourcePEP σ
  | .apply lease, s =>
    match s.active with
    | none => (.error "brokered source pep apply without active transition context", s)
    | some ctx =>
      let (last, adapter) :=
        SourceActionExecutor.applySource pep ctx.target ctx.state ctx.resolution ctx.params ctx.now s.adapter
      let s := { s with adapter, last := ⟨last.1, last.2⟩ }
      if last.2.status = .failed then (.error last.2.reason, s)
      else (.ok lease.fencingToken, { s with currentTokens := s.currentTokens.setCurrent lease })
  | .currentFencingToken lease, s => (.ok (s.currentTokens.current lease), s)
  | .revert lease, s =>
    let target := targetFromLease lease
    if target.value = "" then
      (.error ("source revert target missing for lease " ++ lease.leaseID), s)
    else
      let (_, adapter) := SourceActionExecutor.applyDeEnforceSource pep
        { sourceID := target.value, subjectID := target.value, attributes := target.attributes }
        { level := parseFSMLevel lease.level } params now s.adapter
      (.ok (), { s with adapter, currentTokens := s.currentTokens.clearCurrent lease })

end BrokeredSourcePEP

end Source

section Relationship

structure BrokeredRelationshipPEP (ρ : Type) where
  adapter : ρ
  tokens : FencingTokens := ∅
  active : Option RelationshipTarget := none
  last : ActionResult := {}

namespace BrokeredRelationshipPEP

variable {ρ : Type}

def adapterID : String := "kliq-relationship-pep"

def begin (s : BrokeredRelationshipPEP ρ) (target : RelationshipTarget) : BrokeredRelationshipPEP ρ :=
  { s with active := some target, last := {} }

def finish (s : BrokeredRelationshipPEP ρ) : ActionResult × BrokeredRelationshipPEP ρ :=
  (s.last, { s with active := none, last := {} })

def handle (pep : RelationshipPEP ρ) (now : Time) :
    (op : PepOp) → BrokeredRelationshipPEP ρ → op.Answer × BrokeredRelationshipPEP ρ
  | .apply lease, s =>
    if ¬ pep.available s.adapter then (.error "relationship pep unavailable", s)
    else
      match s.active with
      | none => (.error "relationship pep apply without active target context", s)
      | some target =>
        let result : ActionResult :=
          { proposalID := lease.proposalID, decisionID := lease.decisionID, action := lease.action
            appliedAt := now }
        match pep.denyRelationship target s.adapter with
        | (.error err, adapter) =>
          (.error err, { s with adapter, last := { result with status := .failed, reason := err } })
        | (.ok (), adapter) =>
          (.ok lease.fencingToken, { s with
            adapter, last := { result with status := .applied }, tokens := s.tokens.setCurrent lease })
  | .currentFencingToken lease, s => (.ok (s.tokens.current lease), s)
  | .revert lease, s =>
    if ¬ pep.available s.adapter then (.error "relationship pep unavailable", s)
    else
      match relationshipTargetFromActionTarget (targetFromLease lease) with
      | none => (.error ("relationship revert target invalid for lease " ++ lease.leaseID), s)
      | some target =>
        match pep.allowRelationship target s.adapter with
        | (.error err, adapter) => (.error err, { s with adapter })
        | (.ok (), adapter) => (.ok (), { s with adapter, tokens := s.tokens.clearCurrent lease })

end BrokeredRelationshipPEP

end Relationship

end Kernloom
