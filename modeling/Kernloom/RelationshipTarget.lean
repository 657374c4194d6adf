import Kernloom.BrokerOps
import Kernloom.GoText

/-! Targets of relationship actions and the PEP contract for them. -/

namespace Kernloom

def targetGranularityRelationship : String := "relationship"

structure RelationshipTarget where
  subjectID : String
  targetID : String
  dimension : GoMap String
  attributes : GoMap String

/-- The stable key of a relationship. -/
def RelationshipTarget.canonical (target : RelationshipTarget) : String :=
  let keys := (target.dimension.entries.map (·.1)).insertionSort (· ≤ ·)
  joinText (["subject=" ++ quote target.subjectID, "target=" ++ quote target.targetID] ++
    keys.map fun k => "dimension." ++ quote k ++ "=" ++ quote (target.dimension.get k)) "|"

structure RelationshipPEP (ρ : Type) where
  available : ρ → Bool
  denyRelationship : RelationshipTarget → ρ → Fallible Unit × ρ
  allowRelationship : RelationshipTarget → ρ → Fallible Unit × ρ

/-- The first of the spellings of a target ID that is not blank. -/
def relationshipTargetID (attrs : GoMap String) : String :=
  let spellings := ["target_id", "object_id", "object_entity_id", "target_id"]
  ((spellings.map fun key => trimSpace (attrs.get key)).find? (· ≠ "")).getD ""

def relationshipDimensions (attrs : GoMap String) : GoMap String :=
  GoMap.ofList <| attrs.entries.filterMap fun e =>
    if hasPrefix e.1 "dimension." ∧ trimPrefix e.1 "dimension." ≠ "" ∧ trimSpace e.2 ≠ "" then
      some (trimPrefix e.1 "dimension.", trimSpace e.2)
    else none

/-- The relationship of a source and attributes; `none` when they name no other end. -/
def relationshipTargetFromAttributes (sourceID : String) (attrs : GoMap String) :
    Option RelationshipTarget :=
  let targetID := relationshipTargetID attrs
  let dimension := relationshipDimensions attrs
  if trimSpace sourceID = "" ∨ (targetID = "" ∧ dimension.entries = []) then none
  else some ⟨trimSpace sourceID, targetID, dimension, attrs⟩

def relationshipTargetFromActionTarget (target : ActionTarget) : Option RelationshipTarget :=
  if target.granularity ≠ targetGranularityRelationship then none
  else
    let subjectID := target.attributes.get "subject_id"
    relationshipTargetFromAttributes
      (if subjectID = "" then target.attributes.get "source_id" else subjectID) target.attributes

end Kernloom
