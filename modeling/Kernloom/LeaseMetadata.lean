import Kernloom.BrokerOps

/-! The strength of a lease, the probes for other leases of its target, and the metadata a lease
records about its execution. -/

namespace Kernloom

section Strength

def orderedRuntimeActions : List String :=
  ["enforce.traffic.drop", "enforce.access.deny", "enforce.network.quarantine",
    "enforce.identity.disable", "enforce.traffic.rate_limit"]

def addAction (actions : List String) (action : String) : List String :=
  if trimSpace action = "" ∨ trimSpace action ∈ actions then actions
  else actions ++ [trimSpace action]

def runtimeActionsWithRequested (requested : String) : List String :=
  (requested :: orderedRuntimeActions).foldl addAction []

def actionLeaseStrength (action level : String) : Nat :=
  if trimSpace action ∈ ["enforce.traffic.drop", "enforce.access.deny", "enforce.network.quarantine",
      "enforce.identity.disable"] then 300
  else if trimSpace level = "block" then 300
  else if trimSpace level = "hard" then 200
  else if trimSpace level = "soft" then 100
  else 0

def ActionLease.strength (lease : ActionLease) : Nat := actionLeaseStrength lease.action lease.level

/-- The pairs of action and level that a probe for other leases asks for. -/
def probes (requested : String) (levels : List String) : List (String × String) :=
  (runtimeActionsWithRequested requested).flatMap fun action => levels.map fun level => (action, level)

end Strength

section Metadata

def executionPrefix : String := "param.execution_"

/-- The first execution parameter, in key order, that differs. -/
def executionMetadataChanged (existing next : GoMap String) : Option String :=
  let keys := ((existing.keys ++ next.keys).filter (hasPrefix · executionPrefix)).dedup
  (keys.insertionSort (· ≤ ·)).find? fun key => existing.get key ≠ next.get key

def leaseRenewalCount (metadata : GoMap String) : Int :=
  match atoi (trimSpace (metadata.get "broker.renewal_count")) with
  | some n => if n < 0 then 0 else n
  | none => 0

def nonZeroMetadataValue (metadata : GoMap String) (key : String) : String :=
  let value := trimSpace (metadata.get key)
  if value = "" ∨ value = "0" then "" else value

def executionMetadataSummary (metadata : GoMap String) : String :=
  let part (label key : String) : List String :=
    let value := nonZeroMetadataValue metadata key
    if value ≠ "" then [label ++ "=" ++ value] else []
  let rates :=
    if trimSpace (metadata.get "requested_action") = "enforce.traffic.rate_limit" then
      part "soft_rate_pps" "param.execution_soft_rate" ++ part "soft_burst" "param.execution_soft_burst" ++
        part "hard_rate_pps" "param.execution_hard_rate" ++ part "hard_burst" "param.execution_hard_burst"
    else []
  " ".intercalate (part "drop_rl_rate" "param.evidence_drop_rl_rate" ++ rates)

def receiptMessageWithExecutionSummary (base : String) (metadata : GoMap String) : String :=
  let summary := executionMetadataSummary metadata
  if base = "" then summary
  else if summary = "" then base
  else base ++ " " ++ summary

/-- The metadata of a lease for a resolution. A nil parameter is left out. -/
def Broker.leaseMetadata (b : Broker) (r : ActionResolution) : GoMap String :=
  let base : GoMap String := GoMap.ofList
    [("requested_action", r.requestedAction), ("requested_level", r.requestedLevel),
      ("target_granularity", r.target.granularity), ("target_value", r.target.value),
      ("broker.renewal_count", "0")]
  let attributes := r.target.attributes.entries.map fun e => ("target_attr." ++ e.1, e.2)
  let parameters := r.parameters.entries.filterMap fun e =>
    if e.2 = .nil then none else some ("param." ++ e.1, e.2.sprint)
  let audit := if b.requireAuditReceipt then [("policy.requires_audit_receipt", "true")] else []
  ((base.insertAll attributes).insertAll parameters).insertAll audit

end Metadata

end Kernloom
