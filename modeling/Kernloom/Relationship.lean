import Kernloom.GoValue
import Kernloom.KeyedTable

/-! Relationships of the trust graph and the table the state store keeps them in. -/

namespace Kernloom

open Keyed

inductive RelationshipState
  | candidate
  | learned
  | approved
  | frozen
  | denied
  | expired
  deriving DecidableEq

/-- The states an operator gives a relationship. -/
def RelationshipState.IsDecision (s : RelationshipState) : Prop :=
  s = .approved ∨ s = .frozen ∨ s = .denied

instance (s : RelationshipState) : Decidable s.IsDecision :=
  inferInstanceAs (Decidable (s = .approved ∨ s = .frozen ∨ s = .denied))

inductive LearnedBy
  | localObservation
  | forge
  | admin
  | correlate
  deriving DecidableEq

/-- The columns that tell relationships apart. -/
structure RelationshipKey where
  nodeID : String
  subjectEntityID : String
  predicate : String
  objectEntityID : String
  scopeType : String := ""
  scopeID : String := ""
  dimensionsHash : String := ""
  deriving DecidableEq

structure Relationship extends RelationshipKey where
  id : String := ""
  state : RelationshipState := .candidate
  confidence : Rat := 0
  seenCount : Nat
  distinctWindows : Int
  firstSeenAt : Time
  lastSeenAt : Time
  learnedBy : LearnedBy := .localObservation
  subjectLabel : String := ""
  subjectKind : String := ""
  objectLabel : String := ""
  objectKind : String := ""
  deriving DecidableEq

/-- The key of the learner's cache. -/
@[irreducible] def stableKey (k : RelationshipKey) : String :=
  k.nodeID ++ "|" ++ k.subjectEntityID ++ "|" ++ k.predicate ++ "|" ++ k.objectEntityID ++ "|" ++
    k.scopeType ++ "|" ++ k.scopeID ++ "|" ++ k.dimensionsHash

/-- The relationship table; its unique index is the relationship's key. -/
abbrev RelationshipTable := Table Relationship.toRelationshipKey

namespace RelationshipTable

/-- What the columns hold of a relationship: labels are not stored, a zero time is stored as `now`. -/
def stored (now : Time) (r : Relationship) : Relationship :=
  { r with
    firstSeenAt := if r.firstSeenAt = 0 then now else r.firstSeenAt
    lastSeenAt := if r.lastSeenAt = 0 then now else r.lastSeenAt
    subjectLabel := "", subjectKind := "", objectLabel := "", objectKind := "" }

/-- The columns that the conflict clause writes. -/
def merge (now : Time) (r row : Relationship) : Relationship :=
  { row with
    seenCount := row.seenCount + r.seenCount
    distinctWindows := row.distinctWindows + r.distinctWindows
    lastSeenAt := (stored now r).lastSeenAt
    state := r.state
    confidence := r.confidence }

/-- `none` is the error: a new row may not have the ID of another one. -/
def upsertRelationship (t : RelationshipTable) (now : Time) (r : Relationship) : Option RelationshipTable :=
  match t.find r.toRelationshipKey with
  | some row => some (t.upsert (merge now r row))
  | none => if ∃ row ∈ t.rows, row.id = r.id then none else some (t.upsert (stored now r))

def setState (id : String) (state : RelationshipState) (confidence : Rat) (row : Relationship) :
    Relationship :=
  if row.id = id then { row with state := state, confidence := confidence } else row

@[simp] theorem setState_key (id : String) (state : RelationshipState) (confidence : Rat)
    (row : Relationship) :
    (setState id state confidence row).toRelationshipKey = row.toRelationshipKey := by
  unfold setState
  split <;> rfl

def setRelationshipState (t : RelationshipTable) (id : String) (state : RelationshipState)
    (confidence : Rat) : RelationshipTable :=
  t.map (setState id state confidence) (setState_key id state confidence)

def freezeRow (nodeID : String) (row : Relationship) : Relationship :=
  if row.nodeID = nodeID ∧ (row.state = .learned ∨ row.state = .approved)
  then { row with state := .frozen } else row

@[simp] theorem freezeRow_key (nodeID : String) (row : Relationship) :
    (freezeRow nodeID row).toRelationshipKey = row.toRelationshipKey := by
  unfold freezeRow
  split <;> rfl

def freezeRelationships (t : RelationshipTable) (nodeID : String) : RelationshipTable :=
  t.map (freezeRow nodeID) (freezeRow_key nodeID)

def deleteRelationships (t : RelationshipTable) (nodeID : String) (keepStates : List RelationshipState) :
    RelationshipTable :=
  t.filter fun row => ¬ (row.nodeID = nodeID ∧ row.state ∉ keepStates)

def lastSeenBefore (r r' : Relationship) : Prop := formatTime r'.lastSeenAt ≤ formatTime r.lastSeenAt

instance : DecidableRel lastSeenBefore := fun r r' =>
  inferInstanceAs (Decidable (formatTime r'.lastSeenAt ≤ formatTime r.lastSeenAt))

/-- The relationships of a node, the one seen last first. -/
def listRelationships (t : RelationshipTable) (nodeID : String) : List Relationship :=
  (t.rows.filter fun row => row.nodeID = nodeID).insertionSort lastSeenBefore

theorem mem_listRelationships {t : RelationshipTable} {nodeID : String} {r : Relationship} :
    r ∈ t.listRelationships nodeID ↔ r ∈ t ∧ r.nodeID = nodeID := by
  simp [listRelationships, Table.mem_rows]

/-- A write either updates the row of its relationship or adds the relationship. -/
theorem upsertRelationship_cases {t t' : RelationshipTable} {now : Time} {r : Relationship}
    (h : t.upsertRelationship now r = some t') :
    (∃ row ∈ t, row.toRelationshipKey = r.toRelationshipKey ∧ t' = t.upsert (merge now r row)) ∨
    ((∀ row ∈ t, row.toRelationshipKey ≠ r.toRelationshipKey) ∧ (∀ row ∈ t, row.id ≠ r.id) ∧
      t' = t.upsert (stored now r)) := by
  unfold upsertRelationship at h
  cases hfind : t.find r.toRelationshipKey with
  | some row =>
    rw [hfind] at h
    obtain ⟨hrow, hkey⟩ := Table.find_eq_some.mp hfind
    exact .inl ⟨row, hrow, hkey, (Option.some.inj h).symm⟩
  | none =>
    simp only [hfind] at h
    by_cases hid : ∃ row ∈ t.rows, row.id = r.id
    · rw [if_pos hid] at h
      cases h
    · rw [if_neg hid] at h
      refine .inr ⟨Table.find_eq_none.mp hfind, fun row hrow heq => ?_, (Option.some.inj h).symm⟩
      exact hid ⟨row, hrow, heq⟩

end RelationshipTable

end Kernloom
