import Kernloom.LearnerFlush
import Kernloom.MetricFlush
import Kernloom.SourceFlush

/-! Runs of updates and flushes over the three write-behind caches. -/

namespace Kernloom

open Transition

/-- Every flush of a run counts the writes that succeed, and one without a failure leaves all stored. -/
def LearnerStore.FlushesKeep (guard : LearnerStore → LearnerStoreEvent → Prop) : Prop :=
  ∀ cfg pub es w now attempts w', Run (Guarded guard LearnerStore.Step) (.start cfg pub) es w →
    Guarded guard LearnerStore.Step w (.flush now attempts) w' →
    (w.learner.flushDirty now attempts w.rows).2.2.flushed = ((w.outcomes now attempts).map Prod.snd).count
      false ∧
      ((∀ o ∈ w.outcomes now attempts, o.2 = false) → w'.Saved)

/-- The same of the metric baselines. -/
def MetricStore.FlushesKeep (sha256 : String → String) (guard : MetricStore → MetricStoreEvent → Prop) :
    Prop :=
  ∀ cfg es w now attempts w', Run (Guarded guard (MetricStore.Step sha256)) (.start cfg) es w →
    Guarded guard (MetricStore.Step sha256) w (.flush now attempts) w' →
    (w.cache.flushDirty sha256 now attempts w.rows).2.2.flushed =
        ((w.outcomes sha256 now attempts).map Prod.snd).count false ∧
      ((∀ o ∈ w.outcomes sha256 now attempts, o.2 = false) → w'.Saved sha256)

/-- The same of the source baselines. -/
def SourceStore.FlushesKeep (sha256 : String → String) (interval : Duration)
    (guard : SourceStore → SourceStoreEvent → Prop) : Prop :=
  ∀ cfg es w all now attempts w', Run (Guarded guard (SourceStore.Step sha256 interval)) (.start cfg) es w →
    Guarded guard (SourceStore.Step sha256 interval) w (.flush all now attempts) w' →
    (w.cache.flushRuntimeSourceBaselines sha256 interval all now attempts w.rows).2.2.flushed =
        ((w.outcomes sha256 now attempts).map Prod.snd).count false ∧
      ((∀ o ∈ w.outcomes sha256 now attempts, o.2 = false) → w'.Saved interval)

section Fixtures

def fixtureCandidate : Relationship where
  nodeID := "node-1"
  subjectEntityID := "src-1"
  predicate := "network.connects_to"
  objectEntityID := "dst-1"
  seenCount := 1
  distinctWindows := 1
  firstSeenAt := 1
  lastSeenAt := 1

/-- A learner that has seen one relationship. -/
def seenOnce : LearnerStore :=
  ((LearnerStore.start { nodeID := "node-1" } false).step
    (.learn "rel-1" .allowLearning fixtureCandidate 1)).get
    (by decide +kernel)

def LearnerStore.flushAll (w : LearnerStore) (now : Time) (fails : Bool) : LearnerStoreEvent :=
  .flush now ((w.learner.beginFlush now).2.map fun r => (r, fails))

/-- After a flush whose write fails. -/
def unwrittenOnce : LearnerStore := (seenOnce.step (seenOnce.flushAll 2 true)).get (by decide +kernel)

/-- After one more flush, which has nothing to write. -/
def lostRelationship : LearnerStore := (unwrittenOnce.step (.flush 3 [])).get (by decide +kernel)

theorem perm_stored (entries : List (String × MetricProfile)) : (id entries).Perm entries := .refl _

def fixtureOrder : ProfileOrder := ⟨id, perm_stored⟩

def fixtureKey : BaselineKey := { metricID := "network.xdp.edge.packets_per_second", subjectEntityID :=
    "src-1" }

/-- An engine that was given one value. -/
def updatedOnce : MetricStore :=
  ((MetricStore.start {}).step id (.update fixtureOrder fixtureKey 5 false 1)).get (by decide +kernel)

def MetricStore.flushAll (w : MetricStore) (now : Time) (fails : Bool) : MetricStoreEvent :=
  .flush now (w.cache.dirtyRows.map fun row => (row, fails))

def unflushedOnce : MetricStore := (updatedOnce.step id (updatedOnce.flushAll 2 true)).get (by decide +kernel)

def lostMetric : MetricStore := (unflushedOnce.step id (.flush 3 [])).get (by decide +kernel)

/-- A source with one observation. -/
def observedOnce : SourceStore :=
  ((SourceStore.start {}).step id Duration.second (.update "10.0.0.1" 5 5 5 5 false 1 1)).get
    (by decide +kernel)

def SourceStore.flushAll (w : SourceStore) (all : Bool) (now : Time) (fails : Bool) : SourceStoreEvent :=
  .flush all now ((w.cache.flushRows Duration.second all).1.map fun row => (row, fails))

def unstoredOnce : SourceStore :=
  (observedOnce.step id Duration.second (observedOnce.flushAll false 2 true)).get (by decide +kernel)

def lostSource : SourceStore := (unstoredOnce.step id Duration.second (.flush false 3 [])).get
    (by decide +kernel)

theorem lost_facts : (∃ e ∈ lostRelationship.learner.cache.rows,
    LearnerStore.unlabelled e.rel ∉ lostRelationship.rows.rows) ∧
    (lostMetric.rows.rows = [] ∧ lostMetric.updated = [fixtureKey] ∧
    (lostMetric.profile id fixtureKey).isSome = true) ∧
    lostSource.rows.rows = [] ∧ (lostSource.cache.profiles.lookup "10.0.0.1").isSome = true := by
  decide +kernel

end Fixtures

section Retried

instance (w : LearnerStore) (e : LearnerStoreEvent) : Decidable (w.Fits e) := by
  cases e <;> unfold LearnerStore.Fits <;> infer_instance

instance (w : MetricStore) (e : MetricStoreEvent) : Decidable (w.Fits id e) := by
  cases e <;> unfold MetricStore.Fits <;> infer_instance

instance (w : SourceStore) (e : SourceStoreEvent) : Decidable (w.Fits id e) := by
  cases e <;> unfold SourceStore.Fits <;> infer_instance

/-- Seen again after the flush that failed. -/
def seenTwice : LearnerStore :=
  (unwrittenOnce.step (.learn "rel-1" .allowLearning fixtureCandidate 3)).get (by decide +kernel)

def writtenTwice : LearnerStore := (seenTwice.step (seenTwice.flushAll 4 false)).get (by decide +kernel)

def updatedTwice : MetricStore :=
  (unflushedOnce.step id (.update fixtureOrder fixtureKey 5 false 3)).get (by decide +kernel)

def flushedTwice : MetricStore := (updatedTwice.step id (updatedTwice.flushAll 4 false)).get
    (by decide +kernel)

def storedAll : SourceStore :=
  (unstoredOnce.step id Duration.second (unstoredOnce.flushAll true 4 false)).get (by decide +kernel)

theorem retried_facts :
    ((seenTwice.outcomes 4 ((seenTwice.learner.beginFlush 4).2.map fun r => (r, false))).all fun o => !o.2) ∧
    ((updatedTwice.outcomes id 4 (updatedTwice.cache.dirtyRows.map fun row => (row, false))).all fun o =>
    !o.2) ∧
    ((unstoredOnce.outcomes id 4
      ((unstoredOnce.cache.flushRows Duration.second true).1.map fun row => (row, false))).all fun o =>
      !o.2) := by
  decide +kernel

end Retried

theorem flushes_keep (sha256 : String → String) (interval : Duration) :
    LearnerStore.FlushesKeep LearnerStore.Fits ∧
    MetricStore.FlushesKeep sha256 (MetricStore.Fits sha256) ∧
    SourceStore.FlushesKeep sha256 interval (SourceStore.Fits sha256) := by
  refine ⟨?_, ?_, ?_⟩
  · intro cfg pub es w now attempts w' hrun hflush
    have hinv : w.Inv := hrun.invariant (LearnerStore.start_inv cfg pub) fun h hstep => h.step hstep.1 hstep.2
    exact hinv.flush_saved hflush.1 hflush.2
  · intro cfg es w now attempts w' hrun hflush
    have hinv : w.Inv sha256 := hrun.invariant (MetricStore.start_inv cfg) fun h hstep =>
        h.step hstep.1 hstep.2
    exact hinv.flush_saved hflush.1 hflush.2
  · intro cfg es w all now attempts w' hrun hflush
    have hinv : w.Inv interval := hrun.invariant (SourceStore.start_inv cfg) fun h hstep =>
        h.step hstep.1 hstep.2
    exact hinv.flush_saved hflush.1 hflush.2

/-- What a flush lost is stored once it is updated again, or when everything is written. -/
theorem retried_saved : writtenTwice.Saved ∧ flushedTwice.Saved id ∧ storedAll.Saved Duration.second := by
  obtain ⟨hlearner, hmetric, hsource⟩ := flushes_keep id Duration.second
  obtain ⟨hseen, hupdated, hstored⟩ := retried_facts
  refine ⟨?_, ?_, ?_⟩
  · have hrun : Run (Guarded LearnerStore.Fits LearnerStore.Step) (.start { nodeID := "node-1" } false) _
        seenTwice :=
      .cons ⟨by decide +kernel, (Option.some_get _).symm⟩ (.cons ⟨by decide +kernel, (Option.some_get _).symm⟩
        (.cons ⟨by decide +kernel, (Option.some_get _).symm⟩ .nil))
    refine (hlearner _ _ _ _ 4 _ writtenTwice hrun ⟨by decide +kernel, (Option.some_get _).symm⟩).2 ?_
    exact fun o ho => by simpa using List.all_eq_true.mp hseen o ho
  · have hrun : Run (Guarded (MetricStore.Fits id) (MetricStore.Step id)) (.start {}) _ updatedTwice :=
      .cons ⟨by decide +kernel, (Option.some_get _).symm⟩ (.cons ⟨by decide +kernel, (Option.some_get _).symm⟩
        (.cons ⟨by decide +kernel, (Option.some_get _).symm⟩ .nil))
    refine (hmetric _ _ _ 4 _ flushedTwice hrun ⟨by decide +kernel, (Option.some_get _).symm⟩).2 ?_
    exact fun o ho => by simpa using List.all_eq_true.mp hupdated o ho
  · have hrun : Run (Guarded (SourceStore.Fits id) (SourceStore.Step id Duration.second)) (.start {}) _
        unstoredOnce :=
      .cons ⟨by decide +kernel, (Option.some_get _).symm⟩
        (.cons ⟨by decide +kernel, (Option.some_get _).symm⟩ .nil)
    refine (hsource _ _ _ true 4 _ storedAll hrun ⟨by decide +kernel, (Option.some_get _).symm⟩).2 ?_
    exact fun o ho => by simpa using List.all_eq_true.mp hstored o ho

/-- One update, a flush that fails, and a flush with nothing to write: the row is not there. -/
theorem failed_flush_lost : (¬ LearnerStore.FlushesKeep fun _ _ => True) ∧
    (¬ MetricStore.FlushesKeep id fun _ _ => True) ∧
    ¬ SourceStore.FlushesKeep id Duration.second fun _ _ => True := by
  obtain ⟨⟨e, he, hrow⟩, ⟨hmetric, hupdated, hprofile⟩, hsource, hlearned⟩ := lost_facts
  refine ⟨fun h => ?_, fun h => ?_, fun h => ?_⟩
  · have hrun : Run (Guarded (fun _ _ => True) LearnerStore.Step) (.start { nodeID := "node-1" } false) _
        unwrittenOnce :=
      .cons ⟨trivial, (Option.some_get _).symm⟩ (.cons ⟨trivial, (Option.some_get _).symm⟩ .nil)
    have hsaved := (h _ _ _ _ 3 [] lostRelationship hrun ⟨trivial, (Option.some_get _).symm⟩).2 fun o ho =>
        nomatch ho
    exact hrow (hsaved e he).1
  · have hrun : Run (Guarded (fun _ _ => True) (MetricStore.Step id)) (.start {}) _ unflushedOnce :=
      .cons ⟨trivial, (Option.some_get _).symm⟩ (.cons ⟨trivial, (Option.some_get _).symm⟩ .nil)
    have hsaved := (h _ _ _ 3 [] lostMetric hrun ⟨trivial, (Option.some_get _).symm⟩).2 fun o ho => nomatch ho
    obtain ⟨p, hp⟩ := Option.isSome_iff_exists.mp hprofile
    obtain ⟨row, hrow, -⟩ := hsaved fixtureKey (hupdated ▸ List.mem_cons_self) p hp
    rw [← Keyed.Table.mem_rows, hmetric] at hrow
    cases hrow
  · have hrun : Run (Guarded (fun _ _ => True) (SourceStore.Step id Duration.second)) (.start {}) _
        unstoredOnce :=
      .cons ⟨trivial, (Option.some_get _).symm⟩ (.cons ⟨trivial, (Option.some_get _).symm⟩ .nil)
    have hsaved := (h _ _ _ false 3 [] lostSource hrun ⟨trivial, (Option.some_get _).symm⟩).2 fun o ho =>
        nomatch ho
    obtain ⟨p, hp⟩ := Option.isSome_iff_exists.mp hlearned
    obtain ⟨row, hrow, -⟩ := (hsaved "10.0.0.1" p hp).1 _ List.mem_cons_self
    rw [← Keyed.Table.mem_rows, hsource] at hrow
    cases hrow

end Kernloom
