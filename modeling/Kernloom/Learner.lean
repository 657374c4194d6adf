import Kernloom.LearningGuard
import Kernloom.Relationship

/-! The relationship learner: its cache of relationships, the promotion of candidates, and what
a flush takes out of the cache. -/

namespace Kernloom

open Keyed

inductive LearnerMode
  | learn
  | frozenObserve
  | frozenEnforce
  deriving DecidableEq

structure PromotionConfig where
  minSeenCount : Nat
  minDistinctWindows : Int
  minAge : Duration
  deriving DecidableEq

structure LearnerConfig where
  nodeID : String
  mode : LearnerMode := .learn
  promotion : PromotionConfig := ⟨5, 3, 300 * Duration.second⟩
  maxCachedRelationships : Nat := 50000
  deriving DecidableEq

structure CacheEntry where
  key : String
  rel : Relationship
  dirtyAt : Option Time
  firstSeen : Time
  lastSignalAt : Time := 0
  deriving DecidableEq

def freezeSignalCooldown : Duration := 300 * Duration.second

structure FreezeSignal where
  subjectKind : String
  subjectID : String
  score : Nat
  predicate : String
  objectEntityID : String
  deriving DecidableEq

structure Learner where
  cfg : LearnerConfig
  /-- Whether there is a bus to publish signals on. -/
  pub : Bool
  cache : Table CacheEntry.key
  published : List FreezeSignal

def Learner.new (cfg : LearnerConfig) (pub : Bool) : Learner :=
  { cfg := if cfg.maxCachedRelationships = 0 then { cfg with maxCachedRelationships := 50000 } else cfg
    pub := pub
    cache := .empty
    published := [] }

def shouldPromote (p : PromotionConfig) (e : CacheEntry) (now : Time) : Bool :=
  ¬ (0 < p.minSeenCount ∧ e.rel.seenCount < p.minSeenCount) ∧
    ¬ (0 < p.minDistinctWindows ∧ e.rel.distinctWindows < p.minDistinctWindows) ∧
    ¬ (0 < p.minAge ∧ now - e.firstSeen < p.minAge)

def subjectRef (r : Relationship) : String × String :=
  (if r.subjectKind = "" then "ip" else r.subjectKind,
    if r.subjectLabel = "" then r.subjectEntityID else r.subjectLabel)

def freezeSignal (mode : LearnerMode) (r : Relationship) : FreezeSignal :=
  { subjectKind := (subjectRef r).1
    subjectID := (subjectRef r).2
    score := if mode = .frozenEnforce then 95 else 70
    predicate := r.predicate
    objectEntityID := r.objectEntityID }

namespace CacheEntry

/-- The entry of a relationship not cached before. -/
def first (cfg : LearnerConfig) (freshID : String) (c : Relationship) (now : Time) : CacheEntry :=
  { key := stableKey c.toRelationshipKey
    rel := { c with
      id := if c.id = "" then freshID else c.id
      nodeID := cfg.nodeID
      firstSeenAt := if c.firstSeenAt = 0 then now else c.firstSeenAt
      lastSeenAt := now
      state := .candidate
      learnedBy := .localObservation }
    dirtyAt := none
    firstSeen := now }

/-- The entry of a stored relationship. -/
def loaded (r : Relationship) : CacheEntry :=
  { key := stableKey r.toRelationshipKey, rel := r, dirtyAt := none, firstSeen := r.firstSeenAt }

/-- Counts one more observation; missing labels are taken from it. -/
def observe (c : Relationship) (now : Time) (e : CacheEntry) : CacheEntry :=
  let subject := if e.rel.subjectLabel = "" ∧ c.subjectLabel ≠ ""
    then (c.subjectLabel, c.subjectKind) else (e.rel.subjectLabel, e.rel.subjectKind)
  let object := if e.rel.objectLabel = "" ∧ c.objectLabel ≠ ""
    then (c.objectLabel, c.objectKind) else (e.rel.objectLabel, e.rel.objectKind)
  { e with rel := { e.rel with
      seenCount := e.rel.seenCount + 1
      distinctWindows := e.rel.distinctWindows + 1
      lastSeenAt := now
      subjectLabel := subject.1, subjectKind := subject.2
      objectLabel := object.1, objectKind := object.2 } }

/-- Whether the entry is promoted at `now`. -/
def Promotes (cfg : LearnerConfig) (now : Time) (e : CacheEntry) : Prop :=
  cfg.mode = .learn ∧ e.rel.state = .candidate ∧ shouldPromote cfg.promotion e now = true

instance (cfg : LearnerConfig) (now : Time) (e : CacheEntry) : Decidable (e.Promotes cfg now) :=
  inferInstanceAs (Decidable (_ ∧ _ ∧ _))

/-- Whether an observation of the entry is signalled. -/
def Signals (cfg : LearnerConfig) (now : Time) (e : CacheEntry) : Prop :=
  cfg.mode ≠ .learn ∧ e.rel.state ≠ .frozen ∧ e.rel.state ≠ .approved ∧
    freezeSignalCooldown ≤ now - e.lastSignalAt

instance (cfg : LearnerConfig) (now : Time) (e : CacheEntry) : Decidable (e.Signals cfg now) :=
  inferInstanceAs (Decidable (_ ∧ _ ∧ _ ∧ _))

def promote (cfg : LearnerConfig) (now : Time) (e : CacheEntry) : CacheEntry :=
  if e.Promotes cfg now then { e with rel := { e.rel with state := .learned, confidence := 4 / 5 } } else e

/-- What an observation leaves of its entry once it is counted. -/
def settle (cfg : LearnerConfig) (now : Time) (e : CacheEntry) : CacheEntry :=
  { e.promote cfg now with
    dirtyAt := some now
    lastSignalAt := if (e.promote cfg now).Signals cfg now then now else e.lastSignalAt }

/-- The promotion that a flush makes before it writes. -/
def flushed (cfg : LearnerConfig) (now : Time) (e : CacheEntry) : CacheEntry :=
  if e.Promotes cfg now then { e.promote cfg now with dirtyAt := some now } else e

def frozen (now : Time) (e : CacheEntry) : CacheEntry :=
  if e.rel.state = .learned ∨ e.rel.state = .approved
  then { e with rel := { e.rel with state := .frozen }, dirtyAt := some now } else e

@[simp] theorem observe_key (c : Relationship) (now : Time) (e : CacheEntry) :
    (e.observe c now).key = e.key := rfl

@[simp] theorem observe_state (c : Relationship) (now : Time) (e : CacheEntry) :
    (e.observe c now).rel.state = e.rel.state := rfl

@[simp] theorem observe_relKey (c : Relationship) (now : Time) (e : CacheEntry) :
    (e.observe c now).rel.toRelationshipKey = e.rel.toRelationshipKey := rfl

@[simp] theorem observe_seenCount (c : Relationship) (now : Time) (e : CacheEntry) :
    (e.observe c now).rel.seenCount = e.rel.seenCount + 1 := rfl

@[simp] theorem promote_key (cfg : LearnerConfig) (now : Time) (e : CacheEntry) :
    (e.promote cfg now).key = e.key := by
  unfold promote
  split <;> rfl

@[simp] theorem promote_relKey (cfg : LearnerConfig) (now : Time) (e : CacheEntry) :
    (e.promote cfg now).rel.toRelationshipKey = e.rel.toRelationshipKey := by
  unfold promote
  split <;> rfl

@[simp] theorem promote_seenCount (cfg : LearnerConfig) (now : Time) (e : CacheEntry) :
    (e.promote cfg now).rel.seenCount = e.rel.seenCount := by
  unfold promote
  split <;> rfl

theorem promote_state (cfg : LearnerConfig) (now : Time) (e : CacheEntry) :
    (e.promote cfg now).rel.state = if e.Promotes cfg now then .learned else e.rel.state := by
  unfold promote
  split <;> rfl

theorem settle_rel (cfg : LearnerConfig) (now : Time) (e : CacheEntry) :
    (e.settle cfg now).rel = (e.promote cfg now).rel := rfl

@[simp] theorem settle_key (cfg : LearnerConfig) (now : Time) (e : CacheEntry) :
    (e.settle cfg now).key = e.key := promote_key cfg now e

@[simp] theorem settle_dirtyAt (cfg : LearnerConfig) (now : Time) (e : CacheEntry) :
    (e.settle cfg now).dirtyAt = some now := rfl

theorem flushed_rel (cfg : LearnerConfig) (now : Time) (e : CacheEntry) :
    (e.flushed cfg now).rel = (e.promote cfg now).rel := by
  unfold flushed
  split
  · rfl
  · next h => rw [promote, if_neg h]

@[simp] theorem flushed_key (cfg : LearnerConfig) (now : Time) (e : CacheEntry) :
    (e.flushed cfg now).key = e.key := by
  unfold flushed
  split
  · exact promote_key cfg now e
  · rfl

@[simp] theorem frozen_key (now : Time) (e : CacheEntry) : (e.frozen now).key = e.key := by
  unfold frozen
  split <;> rfl

@[simp] theorem frozen_relKey (now : Time) (e : CacheEntry) :
    (e.frozen now).rel.toRelationshipKey = e.rel.toRelationshipKey := by
  unfold frozen
  split <;> rfl

@[simp] theorem frozen_seenCount (now : Time) (e : CacheEntry) :
    (e.frozen now).rel.seenCount = e.rel.seenCount := by
  unfold frozen
  split <;> rfl

theorem frozen_state (now : Time) (e : CacheEntry) :
    (e.frozen now).rel.state =
      if e.rel.state = .learned ∨ e.rel.state = .approved then .frozen else e.rel.state := by
  unfold frozen
  split <;> rfl

end CacheEntry

namespace Learner

/-- Puts the entry of an observation into the cache once it is counted. -/
def settle (now : Time) (e : CacheEntry) (l : Learner) : Learner :=
  { l with
    cache := l.cache.upsert (e.settle l.cfg now)
    published := if l.pub ∧ (e.promote l.cfg now).Signals l.cfg now
      then l.published ++ [freezeSignal l.cfg.mode (e.promote l.cfg now).rel] else l.published }

/-- One observation under the verdict of the guard; without a guard that is `allowLearning`. -/
def learn (freshID : String) (verdict : EligibilityDecision) (c : Relationship) (now : Time)
    (l : Learner) : Learner :=
  if verdict = .denyLearning then l
  else
    let c := if verdict = .evidenceOnly ∨ verdict = .candidateOnly
      then { c with state := .candidate } else c
    match l.cache.find (stableKey c.toRelationshipKey) with
    | none =>
      if l.cfg.maxCachedRelationships ≤ l.cache.rows.length then l
      else l.settle now (.first l.cfg freshID c now)
    | some e => l.settle now (e.observe c now)

/-- The entry that an observation counts on, before it is settled. -/
def counted (freshID : String) (verdict : EligibilityDecision) (c : Relationship) (now : Time)
    (l : Learner) : Option CacheEntry :=
  if verdict = .denyLearning then none
  else match l.cache.find (stableKey c.toRelationshipKey) with
    | none =>
      if l.cfg.maxCachedRelationships ≤ l.cache.rows.length then none
      else some (.first l.cfg freshID c now)
    | some e => some (e.observe c now)

/-- What a flush does under the lock: the dirty relationships it is going to write. -/
def beginFlush (now : Time) (l : Learner) : Learner × List Relationship :=
  let cache := l.cache.map (.flushed l.cfg now) fun e => e.flushed_key l.cfg now
  ({ l with cache := cache.map (fun e => { e with dirtyAt := none }) fun _ => rfl },
    (cache.rows.filter fun e => e.dirtyAt ≠ none).map CacheEntry.rel)

/-- Loads one stored relationship; an entry that exists is not overwritten. -/
def load (l : Learner) (r : Relationship) : Learner :=
  match l.cache.find (stableKey r.toRelationshipKey) with
  | some _ => l
  | none =>
    if l.cfg.maxCachedRelationships ≤ l.cache.rows.length then l
    else { l with cache := l.cache.upsert (.loaded r) }

/-- `fails` is an error of the listing. -/
def loadFromStore (rows : RelationshipTable) (fails : Bool) (l : Learner) : Learner :=
  if fails then l else (rows.listRelationships l.cfg.nodeID).foldl load l

/-- What `Freeze` does under the lock. -/
def freezeCache (now : Time) (l : Learner) : Learner :=
  { l with
    cfg := { l.cfg with mode := .frozenObserve }
    cache := l.cache.map (.frozen now) (CacheEntry.frozen_key now) }

theorem mem_settle {l : Learner} {now : Time} {e e' : CacheEntry} :
    e' ∈ (l.settle now e).cache ↔ e' = e.settle l.cfg now ∨ (e' ∈ l.cache ∧ e'.key ≠ e.key) := by
  rw [settle, Table.mem_upsert, CacheEntry.settle_key]

/-- The state that a verdict sets is overwritten in a new entry and not read for a known one. -/
theorem learn_eq (freshID : String) (verdict : EligibilityDecision) (c : Relationship) (now : Time)
    (l : Learner) : l.learn freshID verdict c now =
      match l.counted freshID verdict c now with
      | none => l
      | some e => l.settle now e := by
  unfold learn counted
  by_cases hdeny : verdict = .denyLearning
  · simp only [hdeny, if_true]
  · simp only [hdeny, if_false]
    by_cases hforbid : verdict = .evidenceOnly ∨ verdict = .candidateOnly
    all_goals
      simp only [hforbid, if_true, if_false]
      cases l.cache.find (stableKey c.toRelationshipKey) with
      | none => dsimp only; split <;> rfl
      | some e => rfl

/-- The entries an observation can count on: a new one, or the one cached under its text. -/
theorem counted_cases {freshID : String} {verdict : EligibilityDecision} {c : Relationship} {now : Time}
    {l : Learner} {e : CacheEntry} (h : l.counted freshID verdict c now = some e) :
    (l.cache.find (stableKey c.toRelationshipKey) = none ∧ e = .first l.cfg freshID c now) ∨
    ∃ e₀, l.cache.find (stableKey c.toRelationshipKey) = some e₀ ∧ e = e₀.observe c now := by
  unfold counted at h
  split at h
  · cases h
  · cases hfind : l.cache.find (stableKey c.toRelationshipKey) with
    | none =>
      simp only [hfind] at h
      split at h
      · cases h
      · exact .inl ⟨rfl, (Option.some.inj h).symm⟩
    | some e₀ =>
      simp only [hfind] at h
      exact .inr ⟨e₀, rfl, (Option.some.inj h).symm⟩

theorem counted_eq_none {freshID : String} {verdict : EligibilityDecision} {c : Relationship} {now : Time}
    {l : Learner} (h : l.counted freshID verdict c now = none) : verdict = .denyLearning ∨
    (l.cache.find (stableKey c.toRelationshipKey) = none ∧
      l.cfg.maxCachedRelationships ≤ l.cache.rows.length) := by
  unfold counted at h
  by_cases hdeny : verdict = .denyLearning
  · exact .inl hdeny
  · rw [if_neg hdeny] at h
    cases hfind : l.cache.find (stableKey c.toRelationshipKey) with
    | none =>
      simp only [hfind, ite_eq_left_iff, reduceCtorEq, imp_false, not_not] at h
      exact .inr ⟨rfl, h⟩
    | some e =>
      simp only [hfind] at h
      cases h

theorem counted_of_deny {freshID : String} {c : Relationship} {now : Time} {l : Learner} :
    l.counted freshID .denyLearning c now = none := if_pos rfl

theorem mem_load_of_mem {l : Learner} {r : Relationship} {e : CacheEntry} (h : e ∈ l.cache) :
    e ∈ (l.load r).cache := by
  unfold load
  cases hfind : l.cache.find (stableKey r.toRelationshipKey) with
  | some _ => exact h
  | none =>
    dsimp only
    split
    · exact h
    · exact Table.mem_upsert_of_mem h (Table.find_eq_none.mp hfind e h)

theorem mem_load {l : Learner} {r : Relationship} {e : CacheEntry} (h : e ∈ (l.load r).cache) :
    e ∈ l.cache ∨ e = .loaded r := by
  unfold load at h
  cases hfind : l.cache.find (stableKey r.toRelationshipKey) with
  | some _ =>
    rw [hfind] at h
    exact .inl h
  | none =>
    simp only [hfind] at h
    split at h
    · exact .inl h
    · rcases Table.mem_upsert.mp h with rfl | ⟨h, -⟩
      · exact .inr rfl
      · exact .inl h

@[simp] theorem load_cfg (l : Learner) (r : Relationship) : (l.load r).cfg = l.cfg := by
  unfold load
  split
  · rfl
  · split <;> rfl

theorem mem_foldl_load_of_mem {rows : List Relationship} {l : Learner} {e : CacheEntry}
    (h : e ∈ l.cache) : e ∈ (rows.foldl load l).cache := by
  induction rows generalizing l with
  | nil => exact h
  | cons r rows ih => exact ih (mem_load_of_mem h)

theorem mem_foldl_load {rows : List Relationship} {l : Learner} {e : CacheEntry}
    (h : e ∈ (rows.foldl load l).cache) : e ∈ l.cache ∨ ∃ r ∈ rows, e = .loaded r := by
  induction rows generalizing l with
  | nil => exact .inl h
  | cons r rows ih =>
    rcases ih h with h | ⟨r', hr', rfl⟩
    · rcases mem_load h with h | rfl
      · exact .inl h
      · exact .inr ⟨r, List.mem_cons_self, rfl⟩
    · exact .inr ⟨r', List.mem_cons_of_mem r hr', rfl⟩

@[simp] theorem foldl_load_cfg (rows : List Relationship) (l : Learner) :
    (rows.foldl load l).cfg = l.cfg := by
  induction rows generalizing l with
  | nil => rfl
  | cons r rows ih => rw [List.foldl_cons, ih, load_cfg]

@[simp] theorem loadFromStore_cfg (rows : RelationshipTable) (fails : Bool) (l : Learner) :
    (l.loadFromStore rows fails).cfg = l.cfg := by
  unfold loadFromStore
  split
  · rfl
  · exact foldl_load_cfg _ l

theorem mem_loadFromStore_of_mem {rows : RelationshipTable} {fails : Bool} {l : Learner} {e : CacheEntry}
    (h : e ∈ l.cache) : e ∈ (l.loadFromStore rows fails).cache := by
  unfold loadFromStore
  split
  · exact h
  · exact mem_foldl_load_of_mem h

theorem mem_loadFromStore {rows : RelationshipTable} {fails : Bool} {l : Learner} {e : CacheEntry}
    (h : e ∈ (l.loadFromStore rows fails).cache) : e ∈ l.cache ∨ ∃ r ∈ rows, e = .loaded r := by
  unfold loadFromStore at h
  split at h
  · exact .inl h
  · rcases mem_foldl_load h with h | ⟨r, hr, rfl⟩
    · exact .inl h
    · exact .inr ⟨r, (RelationshipTable.mem_listRelationships.mp hr).1, rfl⟩

theorem mem_beginFlush {l : Learner} {now : Time} {e : CacheEntry} :
    e ∈ (l.beginFlush now).1.cache ↔ ∃ e₀ ∈ l.cache, { e₀.flushed l.cfg now with dirtyAt := none } = e := by
  simp only [beginFlush, Table.mem_map, exists_exists_and_eq_and]

theorem mem_beginFlush_writes {l : Learner} {now : Time} {r : Relationship} :
    r ∈ (l.beginFlush now).2 ↔
      ∃ e ∈ l.cache, (e.flushed l.cfg now).dirtyAt ≠ none ∧ (e.promote l.cfg now).rel = r := by
  simp only [beginFlush, List.mem_map, List.mem_filter, Table.mem_rows, Table.mem_map,
    ← CacheEntry.flushed_rel]
  simp [and_assoc]

theorem mem_freezeCache {l : Learner} {now : Time} {e : CacheEntry} :
    e ∈ (l.freezeCache now).cache ↔ ∃ e₀ ∈ l.cache, e₀.frozen now = e := by
  simp only [freezeCache, Table.mem_map]

end Learner

end Kernloom
