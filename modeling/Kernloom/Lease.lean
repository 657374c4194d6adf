import Kernloom.Action

/-! Leases of bounded enforcement actions and the receipts of attempts to apply or revert them. -/

namespace Kernloom

inductive LeaseStatus where
  | pending | active | reverted | expired | superseded | failed | conflict
  deriving DecidableEq, Repr

/-- The durable journal record of a bounded enforcement action. -/
structure ActionLease where
  leaseID : String
  decisionID : String := ""
  proposalID : String := ""
  nodeID : String := ""
  adapterID : String
  target : String
  action : String
  level : String
  status : LeaseStatus
  fencingToken : String
  policyID : String := ""
  reason : String := ""
  appliedAt : Time
  expiresAt : Time
  revertedAt : Option Time := none
  lastError : String := ""
  metadata : GoMap String := ∅
  deriving DecidableEq

inductive ReceiptStatus where
  | applied | failed | skipped | unsupported | dryRun | reverted | conflict
  deriving DecidableEq, Repr

inductive RevertStatus where
  | pending | reverted | failed | conflict
  deriving DecidableEq, Repr

/-- Documents whether a PEP applied or reverted an action. -/
structure EnforcementReceipt where
  decisionID : String
  leaseID : String := ""
  nodeID : String
  adapterID : String
  status : ReceiptStatus
  revertStatus : Option RevertStatus := none
  message : String := ""
  action : String := ""
  target : String := ""
  fencingToken : String := ""
  appliedAt : Time
  expiresAt : Option Time := none
  revertedAt : Option Time := none
  deriving DecidableEq

def EnforcementReceipt.setLease (r : EnforcementReceipt) (lease : ActionLease) : EnforcementReceipt :=
  { r with
    leaseID := lease.leaseID
    action := lease.action
    target := lease.target
    fencingToken := lease.fencingToken
    expiresAt := some lease.expiresAt
    revertedAt := lease.revertedAt }

/-- The text every error and log line of the broker gives a fencing token mismatch. -/
def tokenMismatch (what expected got : String) : String :=
  what ++ ": expected \"" ++ expected ++ "\" got \"" ++ got ++ "\""

/-- The entries of the metadata under a prefix, under the rest of their key. -/
def metadataUnder (metadata : GoMap String) (pre : String) : GoMap String :=
  GoMap.ofList (metadata.entries.filterMap fun e => (cutPrefix e.1 pre).map fun k => (k, e.2))

def targetFromLease (lease : ActionLease) : ActionTarget :=
  let attrs := metadataUnder lease.metadata "target_attr."
  let granularity := lease.metadata.get "target_granularity"
  let value := lease.metadata.get "target_value"
  if granularity = "" ∨ value = "" then
    match cut lease.target ':' with
    | some (before, after) => ⟨before, after, attrs⟩
    | none => ⟨granularity, lease.target, attrs⟩
  else ⟨granularity, value, attrs⟩

end Kernloom
