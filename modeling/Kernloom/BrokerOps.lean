import Kernloom.Program
import Kernloom.LeaseStore

/-! The calls a broker makes. Every read of the clock and every call of the state store or of the
enforcement adapter is one of them, so that each may fail and a crash may fall between any two. -/

namespace Kernloom

open Effects Effects.Program

inductive StoreOp where
  | upsert (lease : ActionLease)
  | findActive (adapterID target action level : String)
  | listByStatus (status : LeaseStatus)
  | listExpired (now : Time)
  | updateStatus (lease : ActionLease)

inductive PepOp where
  | apply (lease : ActionLease)
  | currentFencingToken (lease : ActionLease)
  | revert (lease : ActionLease)

inductive BrokerOp where
  | now
  | store (op : StoreOp)
  | pep (op : PepOp)

/-- Errors are their texts. -/
abbrev Fallible (α : Type) := Except String α

@[reducible] def StoreOp.Answer : StoreOp → Type
  | upsert _ | updateStatus _ => Fallible Unit
  | findActive .. => Fallible (Option ActionLease)
  | listByStatus _ | listExpired _ => Fallible (List ActionLease)

@[reducible] def PepOp.Answer : PepOp → Type
  | apply _ | currentFencingToken _ => Fallible String
  | revert _ => Fallible Unit

@[reducible] def BrokerOp.Answer : BrokerOp → Type
  | now => Time
  | store op => op.Answer
  | pep op => op.Answer

abbrev BrokerProgram := Program BrokerOp BrokerOp.Answer

abbrev clockNow : BrokerProgram Time := perform BrokerOp.now

abbrev upsertActionLease (lease : ActionLease) : BrokerProgram (Fallible Unit) :=
  perform (BrokerOp.store (.upsert lease))

abbrev findActiveActionLease (adapterID target action level : String) :
    BrokerProgram (Fallible (Option ActionLease)) :=
  perform (BrokerOp.store (.findActive adapterID target action level))

abbrev listActionLeasesByStatus (status : LeaseStatus) : BrokerProgram (Fallible (List ActionLease)) :=
  perform (BrokerOp.store (.listByStatus status))

abbrev listExpiredActionLeases (now : Time) : BrokerProgram (Fallible (List ActionLease)) :=
  perform (BrokerOp.store (.listExpired now))

abbrev updateActionLeaseStatus (lease : ActionLease) : BrokerProgram (Fallible Unit) :=
  perform (BrokerOp.store (.updateStatus lease))

abbrev pepApply (lease : ActionLease) : BrokerProgram (Fallible String) :=
  perform (BrokerOp.pep (.apply lease))

abbrev currentFencingToken (lease : ActionLease) : BrokerProgram (Fallible String) :=
  perform (BrokerOp.pep (.currentFencingToken lease))

abbrev pepRevert (lease : ActionLease) : BrokerProgram (Fallible Unit) :=
  perform (BrokerOp.pep (.revert lease))

structure AutonomyAllowance where
  action : String
  requiresPreviousAction : String
  deriving DecidableEq

/-- `sha256` is the hexadecimal digest of a text. -/
structure Broker where
  nodeID : String
  adapterID : String
  autonomyAllowances : List AutonomyAllowance := []
  maxRenewals : Int := 0
  requireAuditReceipt : Bool := false
  sha256 : String → String

/-- The digests of some texts. -/
def digestsOf (entries : List (String × String)) (text : String) : String :=
  (entries.lookup text).getD ""

/-- The random identifiers drawn by one call. -/
structure GeneratedIDs where
  decision : String
  lease : String

end Kernloom
