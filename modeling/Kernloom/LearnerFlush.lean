import Kernloom.FlushResult
import Kernloom.Learner
import Kernloom.Transition

/-! The relationship learner over the state store: what its flushes keep. -/

namespace Kernloom

open Keyed Transition WriteBehind

/-- A flush that makes the writes `attempts`, each with whether the store fails it. -/
def Learner.flushDirty (now : Time) (attempts : List (Relationship × Bool)) (rows : RelationshipTable)
    (l : Learner) :
    Learner × RelationshipTable × FlushResult :=
  let out := writeAll (fun t => RelationshipTable.upsertRelationship t now) rows attempts
  ((l.beginFlush now).1, out.1, (out.2.map Prod.snd).foldl FlushResult.countDirty {})

structure LearnerStore where
  learner : Learner
  rows : RelationshipTable
  /-- The texts of the entries that the observations so far were counted on. -/
  observed : List String
  /-- The relationships whose last write failed. -/
  failed : List RelationshipKey

inductive LearnerStoreEvent
  | learn (freshID : String) (verdict : EligibilityDecision) (c : Relationship) (now : Time)
  | freeze (now : Time) (fails : Bool)
  | flush (now : Time) (attempts : List (Relationship × Bool))

namespace LearnerStore

def start (cfg : LearnerConfig) (pub : Bool) : LearnerStore := ⟨.new cfg pub, .empty, [], []⟩

/-- What became of the writes of a flush. -/
def outcomes (w : LearnerStore) (now : Time) (attempts : List (Relationship × Bool)) :
    List (Relationship × Bool) :=
  (writeAll (fun t => RelationshipTable.upsertRelationship t now) w.rows attempts).2

/-- A flush writes the dirty relationships in any order. -/
def step (w : LearnerStore) : LearnerStoreEvent → Option LearnerStore
  | .learn freshID verdict c now => some { w with
      learner := w.learner.learn freshID verdict c now
      observed := (w.learner.counted freshID verdict c now).toList.map CacheEntry.key ++ w.observed }
  | .freeze now fails => some { w with
      learner := w.learner.freezeCache now
      rows := if fails then w.rows else w.rows.freezeRelationships w.learner.cfg.nodeID }
  | .flush now attempts =>
    if (attempts.map Prod.fst).Perm (w.learner.beginFlush now).2 then some { w with
      learner := (w.learner.flushDirty now attempts w.rows).1
      rows := (w.learner.flushDirty now attempts w.rows).2.1
      failed := failedAfter Relationship.toRelationshipKey w.failed (w.outcomes now attempts) }
    else none

abbrev Step (w : LearnerStore) (e : LearnerStoreEvent) (w' : LearnerStore) : Prop := w.step e = some w'

/-- The columns of a relationship; its labels are not stored. -/
def unlabelled (r : Relationship) : Relationship :=
  { r with subjectLabel := "", subjectKind := "", objectLabel := "", objectKind := "" }

/-- Every entry is stored as it is, and counts the observations made of it. -/
def Saved (w : LearnerStore) : Prop :=
  ∀ e ∈ w.learner.cache, unlabelled e.rel ∈ w.rows ∧ e.rel.seenCount = w.observed.count e.key

/-- Observations are made on the learner's node, one at a time; at most one write of a flush fails;
the others are of relationships not stored before; and a flush without a failure writes whatever
had failed. -/
def Fits (w : LearnerStore) : LearnerStoreEvent → Prop
  | .learn _ _ c now => c.nodeID = w.learner.cfg.nodeID ∧ c.seenCount = 1 ∧ now ≠ 0
  | .freeze _ _ => True
  | .flush now attempts => ((w.outcomes now attempts).map Prod.snd).count true ≤ 1 ∧
      (∀ o ∈ w.outcomes now attempts, o.2 = false → ∀ row ∈ w.rows.rows,
        row.toRelationshipKey ≠ o.1.toRelationshipKey) ∧
      ((∀ o ∈ w.outcomes now attempts, o.2 = false) → ∀ e ∈ w.learner.cache.rows,
        e.rel.toRelationshipKey ∈ w.failed → (e.flushed w.learner.cfg now).dirtyAt ≠ none)

def view (w : LearnerStore) : View RelationshipKey Relationship where
  memory := { r | ∃ e ∈ w.learner.cache, e.rel = r }
  marked := { k | ∃ e ∈ w.learner.cache, e.rel.toRelationshipKey = k ∧ e.dirtyAt ≠ none }
  failed := { k | k ∈ w.failed }
  stored := { r | unlabelled r ∈ w.rows }

/-- The entries are cached under their own texts and count their observations, and what is neither
marked nor failed is stored. -/
structure Inv (w : LearnerStore) : Prop where
  texts : ∀ e ∈ w.learner.cache, e.key = stableKey e.rel.toRelationshipKey
  times : ∀ e ∈ w.learner.cache, e.rel.firstSeenAt ≠ 0 ∧ e.rel.lastSeenAt ≠ 0
  counts : ∀ e ∈ w.learner.cache, e.rel.seenCount = w.observed.count e.key
  entries : ∀ text ∈ w.observed, ∃ e ∈ w.learner.cache, e.key = text
  kept : w.view.Kept Relationship.toRelationshipKey

variable {w w' : LearnerStore}

theorem Inv.eq_of_key (h : w.Inv) {e e' : CacheEntry} (he : e ∈ w.learner.cache) (he' : e' ∈ w.learner.cache)
    (hkey : e.rel.toRelationshipKey = e'.rel.toRelationshipKey) : e = e' :=
  Table.eq_of_key_eq he he' (by rw [h.texts e he, h.texts e' he', hkey])

theorem start_inv (cfg : LearnerConfig) (pub : Bool) : (start cfg pub).Inv where
  texts _ he := absurd he Table.not_mem_empty
  times _ he := absurd he Table.not_mem_empty
  counts _ he := absurd he Table.not_mem_empty
  entries _ ht := absurd ht List.not_mem_nil
  kept := by
    rintro _ ⟨e, he, -⟩
    exact absurd he Table.not_mem_empty

/-- An observation of a relationship whose entry is settled: the entry is marked. -/
theorem Inv.settle {e : CacheEntry} {now : Time} (h : w.Inv)
    (htext : e.key = stableKey e.rel.toRelationshipKey)
    (htimes : e.rel.firstSeenAt ≠ 0 ∧ e.rel.lastSeenAt ≠ 0)
    (hcount : e.rel.seenCount = w.observed.count e.key + 1) :
    Inv { w with learner := w.learner.settle now e, observed := e.key :: w.observed } := by
  have hmem (e' : CacheEntry) : e' ∈ (w.learner.settle now e).cache ↔
      e' = e.settle w.learner.cfg now ∨ (e' ∈ w.learner.cache ∧ e'.key ≠ e.key) := Learner.mem_settle
  have hpromote : (e.promote w.learner.cfg now).rel.firstSeenAt = e.rel.firstSeenAt ∧
      (e.promote w.learner.cfg now).rel.lastSeenAt = e.rel.lastSeenAt := by
    unfold CacheEntry.promote
    split <;> exact ⟨rfl, rfl⟩
  refine ⟨fun e' he' => ?_, fun e' he' => ?_, fun e' he' => ?_, fun text ht => ?_,
    h.kept.touches ⟨?_, ?_, ?_⟩⟩
  · rcases (hmem e').mp he' with rfl | ⟨he', -⟩
    · rw [CacheEntry.settle_key, CacheEntry.settle_rel, CacheEntry.promote_relKey, htext]
    · exact h.texts e' he'
  · rcases (hmem e').mp he' with rfl | ⟨he', -⟩
    · rw [CacheEntry.settle_rel, hpromote.1, hpromote.2]
      exact htimes
    · exact h.times e' he'
  · rcases (hmem e').mp he' with rfl | ⟨he', hne⟩
    · rw [CacheEntry.settle_key, CacheEntry.settle_rel, CacheEntry.promote_seenCount, List.count_cons_self,
        hcount]
    · rw [List.count_cons_of_ne (Ne.symm hne)]
      exact h.counts e' he'
  · rcases List.mem_cons.mp ht with rfl | ht
    · exact ⟨_, (hmem _).mpr (.inl rfl), CacheEntry.settle_key _ _ _⟩
    · obtain ⟨e', he', rfl⟩ := h.entries text ht
      by_cases hne : e'.key = e.key
      · exact ⟨_, (hmem _).mpr (.inl rfl), (CacheEntry.settle_key _ _ _).trans hne.symm⟩
      · exact ⟨e', (hmem e').mpr (.inr ⟨he', hne⟩), rfl⟩
  · rintro _ ⟨e', he', rfl⟩ hclean
    rcases (hmem e').mp he' with rfl | ⟨hold, -⟩
    · exact absurd ⟨_, he', rfl, by simp⟩ hclean
    · refine ⟨⟨e', hold, rfl⟩, ?_⟩
      rintro ⟨e'', he'', hkey, hdirty⟩
      obtain rfl := h.eq_of_key he'' hold hkey
      exact hclean ⟨e'', he', rfl, hdirty⟩
  · exact subset_rfl
  · exact fun _ _ _ hstored => hstored

theorem Inv.learn {freshID : String} {verdict : EligibilityDecision} {c : Relationship} {now : Time}
    (h : w.Inv)
    (hfit : w.Fits (.learn freshID verdict c now)) (hstep : w.Step (.learn freshID verdict c now) w') :
    w'.Inv := by
  obtain rfl := Option.some.inj hstep
  obtain ⟨hnode, hone, hnow⟩ := hfit
  rw [Learner.learn_eq]
  cases hcounted : w.learner.counted freshID verdict c now with
  | none => exact h
  | some e =>
    rcases Learner.counted_cases hcounted with ⟨hfind, rfl⟩ | ⟨e₀, hfind, rfl⟩
    · refine h.settle ?_ ⟨?_, hnow⟩ ?_
      · simp only [CacheEntry.first, ← hnode]
      · show (if c.firstSeenAt = 0 then now else c.firstSeenAt) ≠ 0
        split
        · exact hnow
        · assumption
      · have hnew : stableKey c.toRelationshipKey ∉ w.observed := by
          intro hold
          obtain ⟨e, he, hkey⟩ := h.entries _ hold
          exact Table.find_eq_none.mp hfind e he hkey
        exact hone.trans (by rw [CacheEntry.first, List.count_eq_zero.mpr hnew])
    · obtain ⟨he, -⟩ := Table.find_eq_some.mp hfind
      refine h.settle ?_ ⟨(h.times e₀ he).1, hnow⟩ ?_
      · rw [CacheEntry.observe_key, CacheEntry.observe_relKey, h.texts e₀ he]
      · rw [CacheEntry.observe_seenCount, CacheEntry.observe_key, h.counts e₀ he]

theorem Inv.freeze {now : Time} {fails : Bool} (h : w.Inv) (hstep : w.Step (.freeze now fails) w') :
    w'.Inv := by
  obtain rfl := Option.some.inj hstep
  have hmem (e' : CacheEntry) : e' ∈ (w.learner.freezeCache now).cache ↔ ∃ e ∈ w.learner.cache,
      e.frozen now = e' :=
    Table.mem_map (CacheEntry.frozen_key now)
  have hclean {e : CacheEntry} (he : e ∈ w.learner.cache)
      (hmark : ¬ ∃ e' ∈ (w.learner.freezeCache now).cache,
        e'.rel.toRelationshipKey = (e.frozen now).rel.toRelationshipKey ∧ e'.dirtyAt ≠ none) :
      e.frozen now = e ∧ ¬ (e.rel.state = .learned ∨ e.rel.state = .approved) ∧ e.dirtyAt = none := by
    have hdirty : (e.frozen now).dirtyAt = none := by
      by_contra hdirty
      exact hmark ⟨_, (hmem _).mpr ⟨e, he, rfl⟩, rfl, hdirty⟩
    unfold CacheEntry.frozen at hdirty ⊢
    split at hdirty
    · cases hdirty
    · next hstate => exact ⟨if_neg hstate, hstate, hdirty⟩
  have hframe (e : CacheEntry) : (e.frozen now).rel.firstSeenAt = e.rel.firstSeenAt ∧
      (e.frozen now).rel.lastSeenAt = e.rel.lastSeenAt := by
    unfold CacheEntry.frozen
    split <;> exact ⟨rfl, rfl⟩
  refine ⟨fun e' he' => ?_, fun e' he' => ?_, fun e' he' => ?_, fun text ht => ?_,
    h.kept.touches ⟨?_, ?_, ?_⟩⟩
  · obtain ⟨e, he, rfl⟩ := (hmem e').mp he'
    rw [CacheEntry.frozen_key, CacheEntry.frozen_relKey, h.texts e he]
  · obtain ⟨e, he, rfl⟩ := (hmem e').mp he'
    rw [(hframe e).1, (hframe e).2]
    exact h.times e he
  · obtain ⟨e, he, rfl⟩ := (hmem e').mp he'
    rw [CacheEntry.frozen_key, CacheEntry.frozen_seenCount]
    exact h.counts e he
  · obtain ⟨e, he, rfl⟩ := h.entries text ht
    exact ⟨_, (hmem _).mpr ⟨e, he, rfl⟩, CacheEntry.frozen_key now e⟩
  · rintro _ ⟨e', he', rfl⟩ hmark
    obtain ⟨e, he, rfl⟩ := (hmem e').mp he'
    obtain ⟨heq, -, hdirty⟩ := hclean he hmark
    rw [heq]
    refine ⟨⟨e, he, rfl⟩, ?_⟩
    rintro ⟨e'', he'', hkey, hmarked⟩
    obtain rfl := h.eq_of_key he'' he hkey
    exact hmarked hdirty
  · exact subset_rfl
  · rintro _ ⟨e', he', rfl⟩ hmark hstored
    obtain ⟨e, he, rfl⟩ := (hmem e').mp he'
    obtain ⟨heq, hstate, -⟩ := hclean he hmark
    rw [heq] at hstored ⊢
    show unlabelled e.rel ∈ if fails then w.rows else w.rows.freezeRelationships w.learner.cfg.nodeID
    cases fails with
    | true => exact hstored
    | false =>
      refine (Table.mem_map (RelationshipTable.freezeRow_key _)).mpr ⟨_, hstored, ?_⟩
      exact if_neg fun hrow => hstate hrow.2

/-- A write stores a relationship that is not stored yet, and leaves the others. -/
theorem upsert_writes (now : Time) : Writes (fun t => RelationshipTable.upsertRelationship t now)
    Relationship.toRelationshipKey
    (fun t r => (∀ row ∈ t, row.toRelationshipKey ≠ r.toRelationshipKey) ∧ r.firstSeenAt ≠ 0 ∧
    r.lastSeenAt ≠ 0)
    (fun t r => unlabelled r ∈ t) where
  store := by
    intro t t' r hready h
    obtain ⟨hnew, hfirst, hlast⟩ := hready
    rcases RelationshipTable.upsertRelationship_cases h with ⟨row, hrow, hkey, -⟩ | ⟨-, -, rfl⟩
    · exact absurd hkey (hnew row hrow)
    · have heq : RelationshipTable.stored now r = unlabelled r := by
        simp only [RelationshipTable.stored, unlabelled, if_neg hfirst, if_neg hlast]
      exact heq ▸ Table.mem_upsert_self t _
  keep := by
    intro t t' r r' h hne hstored
    rcases RelationshipTable.upsertRelationship_cases h with ⟨row, -, hkey, rfl⟩ | ⟨-, -, rfl⟩
    · exact Table.mem_upsert_of_mem hstored fun heq => hne (heq.trans hkey)
    · exact Table.mem_upsert_of_mem hstored hne
  ready := by
    rintro t t' r r' h hne ⟨hnew, htimes⟩
    refine ⟨fun row hrow => ?_, htimes⟩
    rcases RelationshipTable.upsertRelationship_cases h with ⟨old, -, hkey, rfl⟩ | ⟨-, -, rfl⟩
    all_goals rcases Table.mem_upsert.mp hrow with rfl | ⟨hold, -⟩
    · exact fun heq => hne (heq.symm.trans hkey)
    · exact hnew row hold
    · exact fun heq => hne heq.symm
    · exact hnew row hold

/-- The learner once a flush has promoted its candidates, before the marks are taken off. -/
def promoted (now : Time) (w : LearnerStore) : LearnerStore :=
  { w with learner := { w.learner with
      cache := w.learner.cache.map (.flushed w.learner.cfg now) fun e => e.flushed_key w.learner.cfg now } }

theorem mem_promoted {now : Time} {e : CacheEntry} : e ∈ (w.promoted now).learner.cache ↔
    ∃ e₀ ∈ w.learner.cache, e₀.flushed w.learner.cfg now = e :=
  Table.mem_map fun e => e.flushed_key w.learner.cfg now

theorem flushed_clean {cfg : LearnerConfig} {now : Time} {e : CacheEntry}
    (h : (e.flushed cfg now).dirtyAt = none) :
    e.flushed cfg now = e := by
  unfold CacheEntry.flushed at h ⊢
  split at h
  · cases h
  · next hkeep => exact if_neg hkeep

theorem flushed_frame (cfg : LearnerConfig) (now : Time) (e : CacheEntry) :
    (e.flushed cfg now).rel.toRelationshipKey = e.rel.toRelationshipKey ∧
    (e.flushed cfg now).rel.firstSeenAt = e.rel.firstSeenAt ∧
    (e.flushed cfg now).rel.lastSeenAt = e.rel.lastSeenAt ∧
    (e.flushed cfg now).rel.seenCount = e.rel.seenCount := by
  unfold CacheEntry.flushed CacheEntry.promote
  split
  · exact ⟨rfl, rfl, rfl, rfl⟩
  · exact ⟨rfl, rfl, rfl, rfl⟩

theorem Inv.promote (now : Time) (h : w.Inv) : (w.promoted now).Inv := by
  refine ⟨fun e' he' => ?_, fun e' he' => ?_, fun e' he' => ?_, fun text ht => ?_,
    h.kept.touches ⟨?_, ?_, ?_⟩⟩
  · obtain ⟨e, he, rfl⟩ := mem_promoted.mp he'
    rw [CacheEntry.flushed_key, (flushed_frame _ _ e).1, h.texts e he]
  · obtain ⟨e, he, rfl⟩ := mem_promoted.mp he'
    rw [(flushed_frame _ _ e).2.1, (flushed_frame _ _ e).2.2.1]
    exact h.times e he
  · obtain ⟨e, he, rfl⟩ := mem_promoted.mp he'
    rw [CacheEntry.flushed_key, (flushed_frame _ _ e).2.2.2]
    exact h.counts e he
  · obtain ⟨e, he, rfl⟩ := h.entries text ht
    exact ⟨_, mem_promoted.mpr ⟨e, he, rfl⟩, CacheEntry.flushed_key _ _ e⟩
  · rintro _ ⟨e', he', rfl⟩ hmark
    have hdirty : e'.dirtyAt = none := by
      by_contra hdirty
      exact hmark ⟨e', he', rfl, hdirty⟩
    obtain ⟨e, he, rfl⟩ := mem_promoted.mp he'
    have heq := flushed_clean hdirty
    rw [heq] at hdirty ⊢
    refine ⟨⟨e, he, rfl⟩, ?_⟩
    rintro ⟨e'', he'', hkey, hmarked⟩
    obtain rfl := h.eq_of_key he'' he hkey
    exact hmarked hdirty
  · exact subset_rfl
  · exact fun _ _ _ hstored => hstored

theorem mem_flush {now : Time} {r : Relationship} : r ∈ (w.learner.beginFlush now).2 ↔
    ∃ e ∈ (w.promoted now).learner.cache, e.dirtyAt ≠ none ∧ e.rel = r := by
  simp only [Learner.beginFlush, promoted, List.mem_map, List.mem_filter, Table.mem_rows, decide_eq_true_eq,
    and_assoc]

theorem mem_cleared {now : Time} {e : CacheEntry} : e ∈ (w.learner.beginFlush now).1.cache ↔
    ∃ e₀ ∈ (w.promoted now).learner.cache, { e₀ with dirtyAt := none } = e :=
  Table.mem_map (f := fun e : CacheEntry => { e with dirtyAt := none }) fun _ => rfl

/-- What a flush does to the promoted entries and to the table. -/
theorem Inv.flushes {now : Time} {attempts : List (Relationship × Bool)} (h : w.Inv)
    (hfit : w.Fits (.flush now attempts)) (hstep : w.Step (.flush now attempts) w') :
    (w.promoted now).view.Flushes Relationship.toRelationshipKey w'.view (w.outcomes now attempts) := by
  obtain ⟨hperm, hw'⟩ := Option.ite_none_right_eq_some.mp hstep
  obtain rfl := Option.some.inj hw'
  have hprom := h.promote now
  have hmem (r : Relationship) : (∃ o ∈ w.outcomes now attempts, o.1 = r) ↔
      r ∈ (w.learner.beginFlush now).2 := by
    rw [← hperm.mem_iff,
      ← writeAll_rows (fun t => RelationshipTable.upsertRelationship t now) attempts w.rows]
    exact List.mem_map.symm
  have hcurrent : ∀ o ∈ w.outcomes now attempts, ∃ e ∈ (w.promoted now).learner.cache, e.dirtyAt ≠ none ∧
      e.rel = o.1 :=
    fun o ho => mem_flush.mp ((hmem o.1).mp ⟨o, ho, rfl⟩)
  have hkeys : (attempts.map fun a => a.1.toRelationshipKey).Nodup := by
    have hentries : (((w.promoted now).learner.cache.rows.filter fun e => e.dirtyAt ≠ none).map
        fun e => e.rel.toRelationshipKey).Nodup := by
      refine List.Nodup.map_on (fun e he e' he' hkey => ?_)
        ((List.Nodup.of_map _ (w.promoted now).learner.cache.nodup).filter _)
      exact hprom.eq_of_key (List.mem_of_mem_filter he) (List.mem_of_mem_filter he') hkey
    have hnodup := (hperm.map Relationship.toRelationshipKey).nodup_iff
    rw [Learner.beginFlush, List.map_map, List.map_map] at hnodup
    exact hnodup.mpr hentries
  refine ⟨?_, ?_, ?_, fun k => mem_failedAfter, ?_, ?_⟩
  · rintro _ ⟨e', he', rfl⟩
    obtain ⟨e, he, rfl⟩ := mem_cleared.mp he'
    exact ⟨e, he, rfl⟩
  · rintro _ ⟨e, he, rfl⟩ ⟨e', he', hkey, hdirty⟩
    obtain rfl := hprom.eq_of_key he' he hkey
    obtain ⟨o, ho, heq⟩ := (hmem _).mpr (mem_flush.mpr ⟨e', he', hdirty, rfl⟩)
    exact ⟨o, ho, congrArg Relationship.toRelationshipKey heq⟩
  · rintro o ho _ ⟨e, he, rfl⟩ hkey
    obtain ⟨e', he', -, heq⟩ := hcurrent o ho
    rw [← heq] at hkey ⊢
    rw [hprom.eq_of_key he' he hkey]
  · rintro ⟨r, _⟩ ho rfl
    refine (upsert_writes now).writeAll_stored attempts hkeys (fun o ho hok => ?_) ho
    obtain ⟨e, he, -, heq⟩ := hcurrent o ho
    exact ⟨hfit.2.1 o ho hok, heq ▸ hprom.times e he⟩
  · intro r _ hrest hstored
    refine (upsert_writes now).writeAll_keep attempts (fun a ha => ?_) hstored
    have hrow : a.1 ∈ (w.learner.beginFlush now).2 := hperm.subset (List.mem_map_of_mem ha)
    obtain ⟨o, ho, heq⟩ := (hmem a.1).mpr hrow
    exact heq ▸ hrest o ho

theorem Inv.flush {now : Time} {attempts : List (Relationship × Bool)} (h : w.Inv)
    (hfit : w.Fits (.flush now attempts)) (hstep : w.Step (.flush now attempts) w') : w'.Inv := by
  have hprom := h.promote now
  have hkept := hprom.kept.flushes (h.flushes hfit hstep)
  obtain ⟨-, hw'⟩ := Option.ite_none_right_eq_some.mp hstep
  obtain rfl := Option.some.inj hw'
  refine ⟨fun e' he' => ?_, fun e' he' => ?_, fun e' he' => ?_, fun text ht => ?_, hkept⟩
  · obtain ⟨e, he, rfl⟩ := mem_cleared.mp he'
    exact hprom.texts e he
  · obtain ⟨e, he, rfl⟩ := mem_cleared.mp he'
    exact hprom.times e he
  · obtain ⟨e, he, rfl⟩ := mem_cleared.mp he'
    exact hprom.counts e he
  · obtain ⟨e, he, rfl⟩ := hprom.entries text ht
    exact ⟨_, mem_cleared.mpr ⟨e, he, rfl⟩, rfl⟩

theorem Inv.step {e : LearnerStoreEvent} (h : w.Inv) (hfit : w.Fits e) (hstep : w.Step e w') : w'.Inv := by
  cases e with
  | learn freshID verdict c now => exact h.learn hfit hstep
  | freeze now fails => exact h.freeze hstep
  | flush now attempts => exact h.flush hfit hstep

/-- A flush counts the writes that succeeded; without a failure it leaves everything stored. -/
theorem Inv.flush_saved {now : Time} {attempts : List (Relationship × Bool)} (h : w.Inv)
    (hfit : w.Fits (.flush now attempts)) (hstep : w.Step (.flush now attempts) w') :
    (w.learner.flushDirty now attempts w.rows).2.2.flushed =
        ((w.outcomes now attempts).map Prod.snd).count false ∧
      ((∀ o ∈ w.outcomes now attempts, o.2 = false) → w'.Saved) := by
  refine ⟨(FlushResult.countDirty_eq_iff _).mpr hfit.1, fun hok e he =>
    ⟨?_, (h.flush hfit hstep).counts e he⟩⟩
  have hflush := h.flushes hfit hstep
  refine (h.promote now).kept.saved hflush hok ?_ ⟨e, he, rfl⟩
  rintro _ ⟨e', he', rfl⟩ hfailed
  refine hflush.marked _ ⟨e', he', rfl⟩ ⟨e', he', rfl, ?_⟩
  obtain ⟨e₀, he₀, rfl⟩ := mem_promoted.mp he'
  refine hfit.2.2 hok e₀ he₀ ?_
  rwa [(flushed_frame _ _ e₀).1] at hfailed

end LearnerStore

end Kernloom
