import Kernloom.Learner
import Kernloom.Transition

/-! Runs of the learner over the relationship table. A flush takes its writes out of the cache in
one step and makes them one by one, in any order, while everything else goes on. -/

namespace Kernloom

open Keyed Transition

/-- What the operator's commands write. -/
inductive OperatorWrite
  | setState (id : String) (state : RelationshipState) (confidence : Rat)
  | freeze (nodeID : String)
  | reset (nodeID : String) (keepStates : List RelationshipState)

namespace OperatorWrite

def apply (rows : RelationshipTable) : OperatorWrite → RelationshipTable
  | .setState id state confidence => rows.setRelationshipState id state confidence
  | .freeze nodeID => rows.freezeRelationships nodeID
  | .reset nodeID keepStates => rows.deleteRelationships nodeID keepStates

/-- The rows the command writes to. -/
def touches (row : Relationship) : OperatorWrite → Bool
  | .setState id _ _ => row.id = id
  | .freeze nodeID => row.nodeID = nodeID ∧ (row.state = .learned ∨ row.state = .approved)
  | .reset nodeID keepStates => row.nodeID = nodeID ∧ row.state ∉ keepStates

/-- The decision the command leaves in them. -/
def decision : OperatorWrite → Option RelationshipState
  | .setState _ state _ => if state.IsDecision then some state else none
  | .freeze _ => some .frozen
  | .reset _ _ => none

end OperatorWrite

structure LearnerWorld where
  learner : Learner
  rows : RelationshipTable
  /-- The writes still to be made by the flushes under way. -/
  writes : List Relationship
  /-- The observations let through by the guard so far. -/
  observed : List RelationshipKey
  /-- What the operator last decided on each relationship that is stored. -/
  decided : RelationshipKey → Option RelationshipState

inductive LearnerEvent
  | learn (freshID : String) (verdict : EligibilityDecision) (c : Relationship) (now : Time)
  | beginFlush (now : Time)
  | write (i : Nat) (now : Time) (fails : Bool)
  | freeze (now : Time)
  | reload (fails : Bool)
  | restart (cfg : LearnerConfig) (pub fails : Bool)
  | operator (op : OperatorWrite)

namespace LearnerWorld

/-- Before anything is observed, over an empty table. -/
def start (cfg : LearnerConfig) (pub : Bool) : LearnerWorld where
  learner := .new cfg pub
  rows := .empty
  writes := []
  observed := []
  decided _ := none

/-- A write that fails leaves the table as it is. -/
def written (w : LearnerWorld) (now : Time) (fails : Bool) (r : Relationship) : RelationshipTable :=
  if fails then w.rows else (w.rows.upsertRelationship now r).getD w.rows

/-- What the operator has decided after a command. -/
def decidedAfter (w : LearnerWorld) (op : OperatorWrite) (k : RelationshipKey) :
    Option RelationshipState :=
  if ∃ row ∈ w.rows.rows, row.toRelationshipKey = k ∧ op.touches row then op.decision else w.decided k

end LearnerWorld

def learnerStep (w : LearnerWorld) : LearnerEvent → Option LearnerWorld
  | .learn freshID verdict c now => some { w with
      learner := w.learner.learn freshID verdict c now
      observed := if verdict = .denyLearning then w.observed
        else w.observed ++ [c.toRelationshipKey] }
  | .beginFlush now => some { w with
      learner := (w.learner.beginFlush now).1
      writes := w.writes ++ (w.learner.beginFlush now).2 }
  | .write i now fails =>
    w.writes[i]?.map fun r => { w with rows := w.written now fails r, writes := w.writes.eraseIdx i }
  | .freeze now => some { w with learner := w.learner.freezeCache now }
  | .reload fails => some { w with learner := w.learner.loadFromStore w.rows fails }
  | .restart cfg pub fails => some { w with
      learner := (Learner.new cfg pub).loadFromStore w.rows fails
      writes := [] }
  | .operator op => some { w with rows := op.apply w.rows, decided := w.decidedAfter op }

abbrev LearnerStep (w : LearnerWorld) (e : LearnerEvent) (w' : LearnerWorld) : Prop :=
  learnerStep w e = some w'

theorem not_mem_new_cache {cfg : LearnerConfig} {pub : Bool} {e : CacheEntry} :
    e ∉ (Learner.new cfg pub).cache := Table.not_mem_empty

theorem written_cases (w : LearnerWorld) (now : Time) (fails : Bool) (r : Relationship) :
    w.written now fails r = w.rows ∨
    (∃ row ∈ w.rows, row.toRelationshipKey = r.toRelationshipKey ∧
      w.written now fails r = w.rows.upsert (RelationshipTable.merge now r row)) ∨
    w.written now fails r = w.rows.upsert (RelationshipTable.stored now r) := by
  unfold LearnerWorld.written
  cases fails with
  | true => exact .inl (if_pos rfl)
  | false =>
    simp only [Bool.false_eq_true, if_false]
    cases hrows : w.rows.upsertRelationship now r with
    | none => exact .inl rfl
    | some rows =>
      rcases RelationshipTable.upsertRelationship_cases hrows with ⟨row, hrow, hkey, rfl⟩ | ⟨-, -, rfl⟩
      · exact .inr (.inl ⟨row, hrow, hkey, rfl⟩)
      · exact .inr (.inr rfl)

/-- A command writes one row at a time, and only the rows it touches. -/
theorem mem_operatorWrite {op : OperatorWrite} {rows : RelationshipTable} {row' : Relationship}
    (h : row' ∈ op.apply rows) :
    ∃ row ∈ rows, row'.toRelationshipKey = row.toRelationshipKey ∧ row'.seenCount = row.seenCount ∧
      if op.touches row then op.decision = if row'.state.IsDecision then some row'.state else none
      else row' = row := by
  cases op with
  | setState id state confidence =>
    obtain ⟨row, hrow, rfl⟩ := (Table.mem_map (RelationshipTable.setState_key id state confidence)).mp h
    refine ⟨row, hrow, RelationshipTable.setState_key id state confidence row, ?_⟩
    by_cases hid : row.id = id <;>
      simp [OperatorWrite.touches, OperatorWrite.decision, RelationshipTable.setState, hid]
  | freeze nodeID =>
    obtain ⟨row, hrow, rfl⟩ := (Table.mem_map (RelationshipTable.freezeRow_key nodeID)).mp h
    refine ⟨row, hrow, RelationshipTable.freezeRow_key nodeID row, ?_⟩
    by_cases hid : row.nodeID = nodeID ∧ (row.state = .learned ∨ row.state = .approved) <;>
      simp [OperatorWrite.touches, OperatorWrite.decision, RelationshipTable.freezeRow,
        RelationshipState.IsDecision, hid]
  | reset nodeID keepStates =>
    obtain ⟨hrow, hkeep⟩ := Table.mem_filter.mp h
    refine ⟨row', hrow, rfl, rfl, ?_⟩
    rw [if_neg]
    simpa [OperatorWrite.touches, or_iff_not_imp_left] using hkeep

/-- A command keeps the relationship and the count of a row unless it deletes the row. -/
theorem exists_mem_operatorWrite {op : OperatorWrite} {rows : RelationshipTable} {row : Relationship}
    (hop : (∀ nodeID keepStates, op ≠ .reset nodeID keepStates) ∨ ¬ op.touches row) (h : row ∈ rows) :
    ∃ row' ∈ op.apply rows, row'.toRelationshipKey = row.toRelationshipKey ∧
      row'.seenCount = row.seenCount := by
  cases op with
  | setState id state confidence =>
    refine ⟨_, (Table.mem_map (RelationshipTable.setState_key id state confidence)).mpr ⟨row, h, rfl⟩,
      RelationshipTable.setState_key id state confidence row, ?_⟩
    unfold RelationshipTable.setState
    split <;> rfl
  | freeze nodeID =>
    refine ⟨_, (Table.mem_map (RelationshipTable.freezeRow_key nodeID)).mpr ⟨row, h, rfl⟩,
      RelationshipTable.freezeRow_key nodeID row, ?_⟩
    unfold RelationshipTable.freezeRow
    split <;> rfl
  | reset nodeID keepStates =>
    have hkeep := hop.resolve_left fun hne => hne nodeID keepStates rfl
    refine ⟨row, Table.mem_filter.mpr ⟨h, ?_⟩, rfl, rfl⟩
    simpa [OperatorWrite.touches, or_iff_not_imp_left] using hkeep

theorem OperatorWrite.isDecision {op : OperatorWrite} {s : RelationshipState}
    (h : op.decision = some s) : s.IsDecision := by
  cases op with
  | setState _ state _ =>
    simp only [OperatorWrite.decision] at h
    split at h
    · next hstate => exact Option.some.inj h ▸ hstate
    · cases h
  | freeze _ => exact Option.some.inj h ▸ .inr (.inl rfl)
  | reset _ _ => cases h

/-- Every copy of a relationship, cached, under way or stored, is in a state that fits its key. -/
structure Copies (fits : RelationshipKey → RelationshipState → Prop) (w : LearnerWorld) : Prop where
  cache : ∀ e ∈ w.learner.cache, fits e.rel.toRelationshipKey e.rel.state
  writes : ∀ r ∈ w.writes, fits r.toRelationshipKey r.state
  rows : ∀ row ∈ w.rows, fits row.toRelationshipKey row.state

namespace Copies

variable {fits : RelationshipKey → RelationshipState → Prop} {w : LearnerWorld}

theorem start (cfg : LearnerConfig) (pub : Bool) : Copies fits (.start cfg pub) where
  cache _ he := absurd he not_mem_new_cache
  writes _ hr := absurd hr List.not_mem_nil
  rows _ hrow := absurd hrow Table.not_mem_empty

theorem promote {e : CacheEntry} {cfg : LearnerConfig} {now : Time}
    (h : fits e.rel.toRelationshipKey e.rel.state)
    (hpromotes : e.Promotes cfg now → fits e.rel.toRelationshipKey .learned) :
    fits (e.promote cfg now).rel.toRelationshipKey (e.promote cfg now).rel.state := by
  rw [CacheEntry.promote_relKey, CacheEntry.promote_state]
  by_cases hp : e.Promotes cfg now
  · rw [if_pos hp]
    exact hpromotes hp
  · rw [if_neg hp]
    exact h

theorem learn {freshID : String} {verdict : EligibilityDecision} {c : Relationship} {now : Time}
    {observed : List RelationshipKey} (h : Copies fits w)
    (hcounted : ∀ e ∈ w.learner.counted freshID verdict c now, fits e.rel.toRelationshipKey e.rel.state ∧
      (e.Promotes w.learner.cfg now → fits e.rel.toRelationshipKey .learned)) :
    Copies fits { w with
      learner := w.learner.learn freshID verdict c now
      observed := observed } := by
  refine ⟨fun e he => ?_, h.writes, h.rows⟩
  change e ∈ (w.learner.learn freshID verdict c now).cache at he
  rw [Learner.learn_eq] at he
  cases hc : w.learner.counted freshID verdict c now with
  | none =>
    rw [hc] at he
    exact h.cache e he
  | some e₀ =>
    rw [hc] at he
    rcases Learner.mem_settle.mp he with rfl | ⟨he, -⟩
    · rw [CacheEntry.settle_rel]
      exact promote (hcounted e₀ hc).1 (hcounted e₀ hc).2
    · exact h.cache e he

theorem beginFlush {now : Time} (h : Copies fits w)
    (hpromotes : ∀ e ∈ w.learner.cache, e.Promotes w.learner.cfg now →
      fits e.rel.toRelationshipKey .learned) :
    Copies fits { w with
      learner := (w.learner.beginFlush now).1
      writes := w.writes ++ (w.learner.beginFlush now).2 } := by
  refine ⟨fun e he => ?_, fun r hr => ?_, h.rows⟩
  · obtain ⟨e₀, he₀, rfl⟩ := Learner.mem_beginFlush.mp he
    rw [CacheEntry.flushed_rel]
    exact promote (h.cache e₀ he₀) (hpromotes e₀ he₀)
  · rcases List.mem_append.mp hr with hr | hr
    · exact h.writes r hr
    · obtain ⟨e, he, -, rfl⟩ := Learner.mem_beginFlush_writes.mp hr
      exact promote (h.cache e he) (hpromotes e he)

theorem write {i : Nat} {now : Time} {fails : Bool} {r : Relationship} (h : Copies fits w)
    (hr : w.writes[i]? = some r) :
    Copies fits { w with rows := w.written now fails r, writes := w.writes.eraseIdx i } := by
  have hfits := h.writes r (List.mem_of_getElem? hr)
  refine ⟨h.cache, fun r' hr' => h.writes r' (List.mem_of_mem_eraseIdx hr'), fun row hrow => ?_⟩
  change row ∈ w.written now fails r at hrow
  rcases written_cases w now fails r with heq | ⟨row₀, -, hkey, heq⟩ | heq <;> rw [heq] at hrow
  · exact h.rows row hrow
  · rcases Table.mem_upsert.mp hrow with rfl | ⟨hrow, -⟩
    · rw [← hkey] at hfits
      exact hfits
    · exact h.rows row hrow
  · rcases Table.mem_upsert.mp hrow with rfl | ⟨hrow, -⟩
    · exact hfits
    · exact h.rows row hrow

theorem freeze {now : Time} (h : Copies fits w)
    (hfreezes : ∀ e ∈ w.learner.cache, e.rel.state = .learned ∨ e.rel.state = .approved →
      fits e.rel.toRelationshipKey .frozen) :
    Copies fits { w with learner := w.learner.freezeCache now } := by
  refine ⟨fun e he => ?_, h.writes, h.rows⟩
  obtain ⟨e₀, he₀, rfl⟩ := Learner.mem_freezeCache.mp he
  rw [CacheEntry.frozen_relKey, CacheEntry.frozen_state]
  by_cases hs : e₀.rel.state = .learned ∨ e₀.rel.state = .approved
  · rw [if_pos hs]
    exact hfreezes e₀ he₀ hs
  · rw [if_neg hs]
    exact h.cache e₀ he₀

theorem reload {fails : Bool} (h : Copies fits w) :
    Copies fits { w with learner := w.learner.loadFromStore w.rows fails } := by
  refine ⟨fun e he => ?_, h.writes, h.rows⟩
  rcases Learner.mem_loadFromStore he with he | ⟨row, hrow, rfl⟩
  · exact h.cache e he
  · exact h.rows row hrow

theorem restart {cfg : LearnerConfig} {pub fails : Bool} (h : Copies fits w) :
    Copies fits { w with
      learner := (Learner.new cfg pub).loadFromStore w.rows fails
      writes := [] } := by
  refine ⟨fun e he => ?_, fun r hr => absurd hr List.not_mem_nil, h.rows⟩
  obtain ⟨row, hrow, rfl⟩ := (Learner.mem_loadFromStore he).resolve_left not_mem_new_cache
  exact h.rows row hrow

end Copies

/-- A flow between two hosts, as the extractor reports it. -/
def fixtureFlow : Relationship where
  nodeID := "node-1"
  subjectEntityID := "src-1"
  predicate := "network.connects_to"
  objectEntityID := "dst-1"
  seenCount := 1
  distinctWindows := 1
  firstSeenAt := Duration.second
  lastSeenAt := Duration.second

def seenAt (n : Nat) (verdict : EligibilityDecision) : LearnerEvent :=
  .learn "rel-1" verdict fixtureFlow (n * Duration.second)

def flushAt (n : Nat) (fails : Bool) : List LearnerEvent :=
  [.beginFlush (n * Duration.second), .write 0 (n * Duration.second) fails]

def fixtureLearner : LearnerWorld := .start { nodeID := "node-1" } false

end Kernloom
