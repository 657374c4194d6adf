import Kernloom.GoValue
import Kernloom.KeyedTable

/-! The learning guard: exclusions in a cache with a time to live, in front of the table of the
state store. -/

namespace Kernloom

open Keyed

inductive EligibilityDecision
  | allowLearning
  | denyLearning
  | evidenceOnly
  | candidateOnly
  deriving DecidableEq

inductive ExclusionReason
  | enforcementActive
  | rateLimited
  | blocked
  | suspiciousSignal
  | downstreamCensored
  | adminOverride
  | forgePolicy
  | correlateAlert
  | attestationFailure
  | other (text : String)
  deriving DecidableEq

def ExclusionReason.text : ExclusionReason → String
  | .enforcementActive => "enforcement_active"
  | .rateLimited => "rate_limited"
  | .blocked => "blocked"
  | .suspiciousSignal => "suspicious_signal"
  | .downstreamCensored => "downstream_censored"
  | .adminOverride => "admin_override"
  | .forgePolicy => "forge_policy"
  | .correlateAlert => "correlate_alert"
  | .attestationFailure => "attestation_failure"
  | .other text => text

inductive AppliesTo
  | metricBaseline
  | relationshipLearning
  | graphAcceptance
  | entityPromotion
  deriving DecidableEq

inductive ExclusionStatus
  | active
  | expired
  | revoked
  deriving DecidableEq

structure Exclusion where
  id : String
  entityID : String
  reason : ExclusionReason
  appliesTo : List AppliesTo
  expiresAt : Time
  status : ExclusionStatus := .active
  deriving DecidableEq

/-- The exclusion table; its primary key is the exclusion ID. -/
abbrev ExclusionTable := Table Exclusion.id

/-- The order the store returns rows in, which its query leaves open. -/
structure RowOrder where
  arrange : List Exclusion → List Exclusion
  perm : ∀ rows, (arrange rows).Perm rows

namespace ExclusionTable

/-- A row that exists keeps its entity and its reason. -/
def replaced (e row : Exclusion) : Exclusion :=
  { row with expiresAt := e.expiresAt, status := e.status, appliesTo := e.appliesTo }

def upsertExclusion (t : ExclusionTable) (e : Exclusion) : ExclusionTable :=
  match t.find e.id with
  | some row => t.upsert (replaced e row)
  | none => t.upsert e

def revokeRow (id : String) (row : Exclusion) : Exclusion :=
  if row.id = id then { row with status := .revoked } else row

@[simp] theorem revokeRow_id (id : String) (row : Exclusion) : (revokeRow id row).id = row.id := by
  unfold revokeRow
  split <;> rfl

def revokeExclusion (t : ExclusionTable) (id : String) : ExclusionTable :=
  t.map (revokeRow id) (revokeRow_id id)

/-- The active exclusions of an entity; their expiry is compared as text. -/
def activeExclusionsFor (order : RowOrder) (t : ExclusionTable) (entityID : String) (now : Time) :
    List Exclusion :=
  order.arrange (t.rows.filter fun row =>
    row.entityID = entityID ∧ row.status = .active ∧ rfc3339Nano now < rfc3339Nano row.expiresAt)

theorem mem_activeExclusionsFor {order : RowOrder} {t : ExclusionTable} {entityID : String} {now : Time}
    {e : Exclusion} : e ∈ t.activeExclusionsFor order entityID now ↔
      e ∈ t ∧ e.entityID = entityID ∧ e.status = .active ∧ rfc3339Nano now < rfc3339Nano e.expiresAt := by
  simp [activeExclusionsFor, (order.perm _).mem_iff, Table.mem_rows]

end ExclusionTable

/-- The sources marked as suspicious, with the end of their marking. -/
abbrev SuspiciousRegistry := GoMap Time

/-- A marking that has ended is evicted and not reported. -/
def SuspiciousRegistry.isSourceSuspicious (r : SuspiciousRegistry) (src : String) (now : Time) : Bool :=
  match r.lookup src with
  | none => false
  | some expiresAt => now ≤ expiresAt

structure CachedExclusions where
  exclusions : List Exclusion
  loadedAt : Time
  deriving DecidableEq

structure LearningGuard where
  cacheTTL : Duration
  store : Option ExclusionTable
  suspicious : Option SuspiciousRegistry
  /-- The cache, by entity. -/
  cache : GoMap CachedExclusions

structure CheckResult where
  decision : EligibilityDecision
  reason : Option ExclusionReason := none
  details : String := ""
  deriving DecidableEq

def decisionFromReason : ExclusionReason → EligibilityDecision
  | .suspiciousSignal | .correlateAlert => .evidenceOnly
  | _ => .denyLearning

/-- An empty list applies to every dimension. -/
def appliesToDimension (applies : List AppliesTo) (dim : AppliesTo) : Prop :=
  applies = [] ∨ dim ∈ applies

instance (applies : List AppliesTo) (dim : AppliesTo) : Decidable (appliesToDimension applies dim) :=
  inferInstanceAs (Decidable (applies = [] ∨ dim ∈ applies))

namespace LearningGuard

def new (cacheTTL : Duration) (store : Option ExclusionTable) (suspicious : Option SuspiciousRegistry) :
    LearningGuard where
  cacheTTL := if cacheTTL ≤ 0 then 10 * Duration.second else cacheTTL
  store := store
  suspicious := suspicious
  cache := ∅

def invalidateCache (entityID : String) (g : LearningGuard) : LearningGuard :=
  { g with cache := g.cache.erase entityID }

/-- Puts a new exclusion into the cache entry of its entity. -/
def cacheExclusion (e : Exclusion) (now : Time) (g : LearningGuard) : LearningGuard :=
  let entry := (g.cache.lookup e.entityID).getD ⟨[], 0⟩
  { g with cache := g.cache.insert e.entityID ⟨entry.exclusions ++ [e], now⟩ }

/-- `fails` is an error of the store; the second component says that there was none. -/
def addExclusion (fails : Bool) (e : Exclusion) (now : Time) (g : LearningGuard) : LearningGuard × Bool :=
  let g := g.invalidateCache e.entityID
  match g.store with
  | none => (g.cacheExclusion e now, true)
  | some rows =>
    if fails then (g, false)
    else (LearningGuard.cacheExclusion e now { g with store := some (rows.upsertExclusion e) }, true)

def revokeExclusion (fails : Bool) (id : String) (g : LearningGuard) : LearningGuard × Bool :=
  match g.store with
  | none => ({ g with cache := ∅ }, true)
  | some rows =>
    if fails then (g, false)
    else ({ g with store := some (rows.revokeExclusion id), cache := ∅ }, true)

/-- The cached exclusions of an entity while they are fresh. -/
def fresh (entityID : String) (now : Time) (g : LearningGuard) : Option (List Exclusion) :=
  match g.cache.lookup entityID with
  | some entry => if now - entry.loadedAt < g.cacheTTL then some entry.exclusions else none
  | none => none

/-- The exclusions of an entity from the cache, or from the store when the cache is stale; an error
of the store yields none. -/
def loadExclusions (order : RowOrder) (fails : Bool) (entityID : String) (now : Time)
    (g : LearningGuard) : List Exclusion × LearningGuard :=
  match g.fresh entityID now with
  | some exclusions => (exclusions, g)
  | none =>
    match g.store with
    | none => ([], g)
    | some rows =>
      if fails then ([], g)
      else
        let exclusions := rows.activeExclusionsFor order entityID now
        (exclusions, { g with cache := g.cache.insert entityID ⟨exclusions, now⟩ })

/-- The result the first exclusion that applies gives. -/
def verdict (dim : AppliesTo) (now : Time) (exclusions : List Exclusion) : CheckResult :=
  match exclusions.find? fun e =>
    e.status = .active ∧ ¬ e.expiresAt < now ∧ appliesToDimension e.appliesTo dim with
  | some e => ⟨decisionFromReason e.reason, some e.reason, "active exclusion: " ++ e.reason.text⟩
  | none => ⟨.allowLearning, none, ""⟩

def check (order : RowOrder) (fails : Bool) (entityID : String) (dim : AppliesTo) (now : Time)
    (g : LearningGuard) : CheckResult × LearningGuard :=
  if g.suspicious.any fun r => r.isSourceSuspicious entityID now then
    (⟨.denyLearning, some .suspiciousSignal, "entity in SuspiciousRegistry"⟩, g)
  else
    let (exclusions, g) := g.loadExclusions order fails entityID now
    (verdict dim now exclusions, g)

end LearningGuard

end Kernloom
