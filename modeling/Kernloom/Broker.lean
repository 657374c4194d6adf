import Kernloom.LeaseMetadata

/-! The action broker: applying a resolution under a lease, renewing and superseding leases,
reverting expired ones and reconciling those left pending. -/

namespace Kernloom

open Effects Effects.Program

namespace Broker

variable (b : Broker)

section Gates

def hasActiveActionLease (target action : String) : List String → BrokerProgram (Fallible Bool)
  | [] => return .ok false
  | level :: levels => do
    match ← findActiveActionLease b.adapterID target action level with
    | .error err => return .error err
    | .ok (some _) => return .ok true
    | .ok none => hasActiveActionLease target action levels

/-- The reason the autonomy allowances deny the resolution; empty when they do not. -/
def autonomyPrerequisiteDenyReason (r : ActionResolution) (target : String) :
    List AutonomyAllowance → BrokerProgram (Fallible String)
  | [] => return .ok ""
  | allowance :: rest =>
    if trimSpace allowance.action ≠ r.executableAction then autonomyPrerequisiteDenyReason r target rest
    else
      let previous := trimSpace allowance.requiresPreviousAction
      if previous = "" then autonomyPrerequisiteDenyReason r target rest
      else do
        match ← b.hasActiveActionLease target previous ["soft", "hard", "block"] with
        | .error err => return .error err
        | .ok false => return .ok ("autonomy_previous_action_not_active(" ++ previous ++ ")")
        | .ok true => autonomyPrerequisiteDenyReason r target rest

/-- The strongest of the leases found by the probes, starting from `strongest`. -/
def strongestActiveLease (target : String) (strongest : Option ActionLease) :
    List (String × String) → BrokerProgram (Fallible (Option ActionLease))
  | [] => return .ok strongest
  | (action, level) :: rest => do
    match ← findActiveActionLease b.adapterID target action level with
    | .error err => return .error err
    | .ok none => strongestActiveLease target strongest rest
    | .ok (some lease) =>
      if (strongest.elim 0 ActionLease.strength) < lease.strength then
        strongestActiveLease target (some lease) rest
      else strongestActiveLease target strongest rest

def strongerActiveLeaseDenyReason (r : ActionResolution) (target : String) :
    BrokerProgram (Fallible String) :=
  let requested := actionLeaseStrength r.executableAction r.executableLevel
  if requested = 0 then return .ok ""
  else do
    match ← b.strongestActiveLease target none (probes r.executableAction ["block", "hard", "soft"]) with
    | .error err => return .error err
    | .ok none => return .ok ""
    | .ok (some strongest) =>
      if strongest.strength ≤ requested then return .ok ""
      else return .ok ("stronger_action_active(" ++ strongest.action ++ ":" ++ strongest.level ++ ")")

end Gates

def supersedeWeaker (applied : ActionLease) (now : Time) :
    List (String × String) → BrokerProgram (Fallible Unit)
  | [] => return .ok ()
  | (action, level) :: rest => do
    match ← findActiveActionLease b.adapterID applied.target action level with
    | .error err => return .error err
    | .ok none => supersedeWeaker applied now rest
    | .ok (some lease) =>
      if lease.leaseID = applied.leaseID ∨ applied.strength ≤ lease.strength then
        supersedeWeaker applied now rest
      else
        match ← updateActionLeaseStatus { lease with
            status := .superseded
            lastError := "superseded by stronger action " ++ applied.action ++ ":" ++ applied.level
            revertedAt := some now } with
        | .error err => return .error err
        | .ok () => supersedeWeaker applied now rest

def supersedeWeakerActiveLeases (applied : ActionLease) (now : Time) : BrokerProgram (Fallible Unit) :=
  if applied.strength = 0 then return .ok ()
  else b.supersedeWeaker applied now (probes applied.action ["soft", "hard", "block"])

/-- What a renewal returns: a lease, whether it stands for the resolution, the reason it was left
as it is, and an error. -/
structure Renewal where
  lease : Option ActionLease := none
  renewed : Bool := false
  skipReason : String := ""
  err : Option String := none

def renewed (existing : ActionLease) (r : ActionResolution) (decisionID : String)
    (metadata : GoMap String) (now : Time) : ActionLease :=
  { existing with
    decisionID := decisionID
    proposalID := r.proposalID
    policyID := r.policyID
    reason := r.denyReason
    expiresAt := now + r.ttl
    metadata := metadata.insert "broker.renewal_count" (itoa (leaseRenewalCount existing.metadata + 1))
    status := .active
    lastError := ""
    revertedAt := none }

def renewActiveLease (r : ActionResolution) (decisionID target : String) (metadata : GoMap String)
    (now : Time) : BrokerProgram Renewal := do
  match ← findActiveActionLease b.adapterID target r.executableAction r.executableLevel with
  | .error err => return { err := some err }
  | .ok none => return {}
  | .ok (some existing) =>
    match executionMetadataChanged existing.metadata metadata with
    | some key =>
      let superseded := { existing with
        status := .superseded
        lastError := "superseded by execution metadata change: " ++ key
        revertedAt := some now }
      match ← updateActionLeaseStatus superseded with
      | .error err => return { lease := some superseded, err := some err }
      | .ok () => return {}
    | none =>
      match ← currentFencingToken existing with
      | .error err => return { lease := some existing, err := some err }
      | .ok currentToken =>
        if currentToken ≠ existing.fencingToken then
          let conflict := { existing with
            status := .conflict
            lastError := tokenMismatch "fencing token mismatch during renewal" existing.fencingToken
              currentToken
            revertedAt := some now }
          match ← updateActionLeaseStatus conflict with
          | .error err => return { lease := some conflict, err := some err }
          | .ok () => return {}
        else if 0 < b.maxRenewals ∧ b.maxRenewals ≤ leaseRenewalCount existing.metadata then
          return { lease := some existing, renewed := true, skipReason := "autonomy_max_renewals_exceeded" }
        else
          let lease := renewed existing r decisionID metadata now
          match ← upsertActionLease lease with
          | .error err => return { lease := some lease, err := some err }
          | .ok () => return { lease := some lease, renewed := true }

structure ApplyReturn where
  lease : Option ActionLease := none
  receipt : EnforcementReceipt
  err : Option String := none

/-- A receipt linked to a returned lease; a call without a lease returns the zero lease. -/
def linkLease (receipt : EnforcementReceipt) : Option ActionLease → EnforcementReceipt
  | some lease => receipt.setLease lease
  | none => { receipt with
      leaseID := "", action := "", target := "", fencingToken := "", expiresAt := some 0, revertedAt := none }

def failedReturn (receipt : EnforcementReceipt) (lease : Option ActionLease) (err : String) : ApplyReturn :=
  { lease, receipt := linkLease { receipt with status := .failed, message := err } lease, err := some err }

def buildFencingToken (lease : ActionLease) : String :=
  String.ofList ((b.sha256 (lease.adapterID ++ "|" ++ lease.target ++ "|" ++ lease.action ++ "|" ++
    lease.level ++ "|" ++ lease.decisionID ++ "|" ++ lease.leaseID)).toList.take 32)

/-- The pending lease of a resolution. -/
def newLease (ids : GeneratedIDs) (r : ActionResolution) (decisionID target : String)
    (metadata : GoMap String) (now : Time) : ActionLease :=
  let lease : ActionLease :=
    { leaseID := "lease-" ++ ids.lease
      decisionID := decisionID
      proposalID := r.proposalID
      nodeID := b.nodeID
      adapterID := b.adapterID
      target := target
      action := r.executableAction
      level := r.executableLevel
      status := .pending
      fencingToken := ""
      policyID := r.policyID
      reason := r.denyReason
      appliedAt := now
      expiresAt := now + r.ttl
      metadata := metadata }
  { lease with fencingToken := b.buildFencingToken lease }

/-- Writes a new lease as pending, applies it and writes the outcome. -/
def createLease (lease : ActionLease) (receipt : EnforcementReceipt) (now : Time) :
    BrokerProgram ApplyReturn := do
  match ← upsertActionLease lease with
  | .error err => return failedReturn receipt (some lease) err
  | .ok () =>
    match ← pepApply lease with
    | .error err =>
      let failed := { lease with status := .failed, lastError := err }
      let _ ← updateActionLeaseStatus failed
      return failedReturn receipt (some failed) err
    | .ok fencingToken =>
      if fencingToken ≠ "" ∧ fencingToken ≠ lease.fencingToken then
        let err := tokenMismatch "PEP returned unexpected fencing token" lease.fencingToken fencingToken
        let conflict := { lease with status := .conflict, lastError := err }
        let _ ← updateActionLeaseStatus conflict
        return failedReturn receipt (some conflict) err
      else
        let active := { lease with status := .active }
        match ← updateActionLeaseStatus active with
        | .error err => return failedReturn receipt (some active) err
        | .ok () =>
          match ← b.supersedeWeakerActiveLeases active now with
          | .error err => return failedReturn receipt (some active) err
          | .ok () =>
            return { lease := some active
                     receipt := { receipt with
                       status := .applied
                       message := receiptMessageWithExecutionSummary "" lease.metadata }.setLease active }

/-- Returns the renewed lease, or creates one when nothing was renewed. -/
def afterRenewal (ids : GeneratedIDs) (r : ActionResolution) (decisionID : String)
    (receipt : EnforcementReceipt) (now : Time) : Renewal → BrokerProgram ApplyReturn
  | { lease, err := some err, .. } => return failedReturn receipt lease err
  | { lease, renewed, skipReason, err := none } =>
    let metadata := b.leaseMetadata r
    if skipReason ≠ "" then
      return { lease, receipt := linkLease { receipt with
        status := .skipped, message := skipReason } lease }
    else if renewed then
      return { lease, receipt := linkLease { receipt with
        status := .applied
        message := receiptMessageWithExecutionSummary "lease renewed" metadata } lease }
    else b.createLease (b.newLease ids r decisionID (targetString r.target) metadata now) receipt now

def applyLeased (ids : GeneratedIDs) (r : ActionResolution) (decisionID : String)
    (receipt : EnforcementReceipt) (now : Time) : BrokerProgram ApplyReturn := do
  let metadata := b.leaseMetadata r
  let target := targetString r.target
  let skipped (reason : String) : ApplyReturn :=
    { receipt := { receipt with
        status := .skipped, action := r.executableAction, target := target, message := reason } }
  match ← b.autonomyPrerequisiteDenyReason r target b.autonomyAllowances with
  | .error err => return { receipt := { receipt with status := .failed, message := err }, err := some err }
  | .ok reason =>
    if reason ≠ "" then return skipped reason
    else
      match ← b.strongerActiveLeaseDenyReason r target with
      | .error err => return { receipt := { receipt with status := .failed, message := err }, err := some err }
      | .ok reason =>
        if reason ≠ "" then return skipped reason
        else
          b.afterRenewal ids r decisionID receipt now
            (← b.renewActiveLease r decisionID target metadata now)

def decisionIDFor (ids : GeneratedIDs) (r : ActionResolution) : String :=
  if r.decisionID = "" then "decision-" ++ ids.decision else r.decisionID

/-- The receipt of an action that needs no lease. -/
def unleasedReceipt (receipt : EnforcementReceipt) (r : ActionResolution) : EnforcementReceipt :=
  { receipt with
    status := .applied
    action := r.executableAction
    target := targetString r.target
    message := if r.ttl ≤ 0 then "no lease: action has no TTL" else receipt.message }

/-- Applies a resolution; returns the local lease, if one was needed, and a receipt. -/
def apply (ids : GeneratedIDs) (r : ActionResolution) : BrokerProgram ApplyReturn := do
  let now ← clockNow
  let decisionID := decisionIDFor ids r
  let receipt : EnforcementReceipt :=
    { decisionID, nodeID := b.nodeID, adapterID := b.adapterID, status := .skipped, appliedAt := now }
  if ¬ r.allowed then return { receipt := { receipt with message := r.denyReason } }
  else if r.executableLevel = "" ∨ r.executableLevel = "observe" ∨ r.ttl ≤ 0 then
    return { receipt := unleasedReceipt receipt r }
  else b.applyLeased ids r decisionID receipt now

structure RevertReturn where
  receipt : EnforcementReceipt
  err : Option String := none

/-- Removes the enforcement of a lease, unless the adapter holds another fencing token. -/
def revert (lease : ActionLease) : BrokerProgram RevertReturn := do
  let now ← clockNow
  let receipt : EnforcementReceipt :=
    { ({ decisionID := lease.decisionID, nodeID := b.nodeID, adapterID := lease.adapterID,
         status := .reverted, appliedAt := 0 } : EnforcementReceipt).setLease lease with
      appliedAt := lease.appliedAt, revertedAt := some now }
  let failed (err : String) : BrokerProgram RevertReturn := do
    let _ ← updateActionLeaseStatus { lease with
      status := .failed, lastError := err, revertedAt := some now }
    return { receipt := { receipt with status := .failed, revertStatus := some .failed, message := err }
             err := some err }
  match ← currentFencingToken lease with
  | .error err => failed err
  | .ok currentToken =>
    if currentToken ≠ lease.fencingToken then
      let mismatch := tokenMismatch "fencing token mismatch" lease.fencingToken currentToken
      let receipt := { receipt with
        status := .conflict, revertStatus := some .conflict, message := mismatch }
      match ← updateActionLeaseStatus { lease with
          status := .conflict, lastError := mismatch, revertedAt := some now } with
      | .error err => return { receipt, err := some err }
      | .ok () => return { receipt }
    else
      match ← pepRevert lease with
      | .error err => failed err
      | .ok () =>
        let receipt := { receipt with status := .reverted, revertStatus := some .reverted }
        match ← updateActionLeaseStatus { lease with status := .reverted, revertedAt := some now } with
        | .error err => return { receipt, err := some err }
        | .ok () => return { receipt }

structure SweepReturn where
  receipts : List EnforcementReceipt := []
  err : Option String := none

def revertAll (receipts : List EnforcementReceipt) : List ActionLease → BrokerProgram SweepReturn
  | [] => return { receipts }
  | lease :: rest => do
    match ← b.revert lease with
    | { receipt, err := some err } => return { receipts := receipts ++ [receipt], err := some err }
    | { receipt, err := none } => revertAll (receipts ++ [receipt]) rest

/-- Reverts every active lease whose expiry is at or before `now`. -/
def revertExpired (now : Time) : BrokerProgram SweepReturn := do
  match ← listExpiredActionLeases now with
  | .error err => return { err := some err }
  | .ok leases => b.revertAll [] leases

def failAll (now : Time) (receipts : List EnforcementReceipt) :
    List ActionLease → BrokerProgram SweepReturn
  | [] => return { receipts }
  | lease :: rest => do
    let failed := { lease with
      status := .failed
      lastError := "pending lease found during broker startup; apply outcome unknown" }
    let receipt : EnforcementReceipt :=
      { ({ decisionID := lease.decisionID, nodeID := b.nodeID, adapterID := lease.adapterID,
           status := .failed, appliedAt := 0 } : EnforcementReceipt).setLease failed with
        appliedAt := lease.appliedAt
        revertedAt := some now
        revertStatus := some .failed
        message := failed.lastError }
    match ← updateActionLeaseStatus failed with
    | .error err => return { receipts, err := some err }
    | .ok () => failAll now (receipts ++ [receipt]) rest

/-- Marks the leases that a crash left pending as failed, without guessing whether their
enforcement happened. -/
def reconcilePending : BrokerProgram SweepReturn := do
  match ← listActionLeasesByStatus .pending with
  | .error err => return { err := some err }
  | .ok leases =>
    let now ← clockNow
    b.failAll now [] leases

end Broker

end Kernloom
