import Kernloom.GoValue

/-! Enforcement levels, action resolutions and the parameters they are executed with. -/

namespace Kernloom

/-- The enforcement level of a source. -/
inductive Level where
  | observe | soft | hard | block
  deriving DecidableEq, Repr

def parseFSMLevel (s : String) : Level :=
  if s = "soft" then .soft
  else if s = "hard" then .hard
  else if s = "block" then .block
  else .observe

structure FsmState where
  level : Level := .observe
  strikes : Int := 0
  expiresAt : Time := 0
  cooldownUntil : Time := 0
  lastTrigger : Time := 0
  highSevSince : Time := 0
  lastSeenWallTime : Time := 0
  upStreak : Int := 0
  downStreak : Int := 0
  nonCompTicks : Int := 0
  forceBlock : Bool := false
  deriving DecidableEq

/-- A value of a parameter map. A float carries its printed text and its conversion to an
unsigned integer. -/
inductive ParamValue where
  | nil
  | bool (b : Bool)
  | uint64 (n : UInt64)
  | uint (n : UInt64)
  | int (n : Int)
  | int64 (n : Int)
  | float64 (text : String) (positive : Bool) (toUint64 : UInt64)
  | string (s : String)
  | other (text : String)
  deriving DecidableEq

instance : Inhabited ParamValue := ⟨.nil⟩

/-- `fmt.Sprint`. -/
def ParamValue.sprint : ParamValue → String
  | nil => "<nil>"
  | bool b => if b then "true" else "false"
  | uint64 n | uint n => itoa n.toNat
  | int n | int64 n => itoa n
  | float64 text _ _ => text
  | string s => s
  | other text => text

def uint64Param (params : GoMap ParamValue) (key : String) : UInt64 :=
  match params.get key with
  | .uint64 n => n
  | .uint n => n
  | .int n => if 0 < n then UInt64.ofNat n.toNat else 0
  | .int64 n => if 0 < n then UInt64.ofNat n.toNat else 0
  | .float64 _ positive n => if positive then n else 0
  | .string s => (parseUint64 (trimSpace s)).getD 0
  | _ => 0

/-- What an action is aimed at: a source or a relationship. -/
structure ActionTarget where
  granularity : String
  value : String
  attributes : GoMap String := ∅

def targetGranularitySource : String := "source"

/-- An authorised or denied action. `executableAction` and `executableLevel` may be weaker than
what was requested. -/
structure ActionResolution where
  proposalID : String := ""
  allowed : Bool
  denyReason : String := ""
  requestedAction : String
  requestedLevel : String
  executableAction : String := ""
  executableLevel : String := ""
  target : ActionTarget
  parameters : GoMap ParamValue := ∅
  ttl : Duration := 0
  policyID : String := ""
  decisionID : String := ""

inductive ActionStatus where
  | unset | applied | downgraded | denied | skipped | failed
  deriving DecidableEq, Repr

structure ActionResult where
  proposalID : String := ""
  decisionID : String := ""
  action : String := ""
  status : ActionStatus := .unset
  reason : String := ""
  appliedAt : Time := 0
  deriving DecidableEq

/-- The source a PEP transition is aimed at. -/
structure SourceTarget where
  sourceID : String
  subjectID : String := ""
  attributes : GoMap String := ∅

/-- The source a transition moves. -/
def SourceTarget.id (target : SourceTarget) : String :=
  if target.sourceID = "" then target.subjectID else target.sourceID

structure EnforcementParams where
  dryRun : Bool := false
  softRate : UInt64 := 0
  softBurst : UInt64 := 0
  softTTL : Duration := 0
  hardRate : UInt64 := 0
  hardBurst : UInt64 := 0
  hardTTL : Duration := 0
  blockTTL : Duration := 0
  cooldown : Duration := 0
  deriving DecidableEq

def targetString (t : ActionTarget) : String :=
  if t.granularity = "" then t.value else t.granularity ++ ":" ++ t.value

end Kernloom
