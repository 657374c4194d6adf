import Kernloom.LearnerRuns

/-! Relationships that are only observed under verdicts that forbid learning. -/

namespace Kernloom

open Keyed Transition

def ForbidsLearning (verdict : EligibilityDecision) : Prop :=
  verdict = .denyLearning ∨ verdict = .evidenceOnly ∨ verdict = .candidateOnly

/-- No copy of the relationship is learned. -/
abbrev NotLearned (k : RelationshipKey) (w : LearnerWorld) : Prop :=
  Copies (fun k' s => k' = k → s ≠ .learned) w

/-- The relationship is observed under such verdicts only, and no command sets it learned. -/
def Forbidding (k : RelationshipKey) (_ : LearnerWorld) : LearnerEvent → Prop
  | .learn _ verdict c _ => c.toRelationshipKey = k → ForbidsLearning verdict
  | .operator (.setState _ state _) => state ≠ .learned
  | _ => True

instance (k : RelationshipKey) (w : LearnerWorld) (e : LearnerEvent) : Decidable (Forbidding k w e) := by
  rcases e with _ | _ | _ | _ | _ | _ | (_ | _ | _) <;> unfold Forbidding ForbidsLearning <;>
    infer_instance

/-- What is counted on the relationship stays below the thresholds, or the learner does not learn. -/
def Immature (k : RelationshipKey) (w : LearnerWorld) : LearnerEvent → Prop
  | .learn freshID verdict c now => ∀ e ∈ w.learner.counted freshID verdict c now,
      e.rel.toRelationshipKey = k → ¬ e.Promotes w.learner.cfg now
  | .beginFlush now => ∀ e ∈ w.learner.cache.rows,
      e.rel.toRelationshipKey = k → ¬ e.Promotes w.learner.cfg now
  | _ => True

instance (k : RelationshipKey) (w : LearnerWorld) (e : LearnerEvent) : Decidable (Immature k w e) := by
  cases e <;> unfold Immature <;> infer_instance

section Steps

variable {k : RelationshipKey} {w w' : LearnerWorld}

theorem counted_notLearned {freshID : String} {verdict : EligibilityDecision} {c : Relationship}
    {now : Time} {e : CacheEntry} (h : NotLearned k w)
    (he : w.learner.counted freshID verdict c now = some e) (hk : e.rel.toRelationshipKey = k) :
    e.rel.state ≠ .learned := by
  rcases Learner.counted_cases he with ⟨-, rfl⟩ | ⟨e₀, hfind, rfl⟩
  · simp [CacheEntry.first]
  · exact h.cache e₀ (Table.find_eq_some.mp hfind).1 hk

theorem NotLearned.learn_iff {freshID : String} {verdict : EligibilityDecision} {c : Relationship}
    {now : Time} {observed : List RelationshipKey} (h : NotLearned k w) :
    NotLearned k { w with
      learner := w.learner.learn freshID verdict c now
      observed := observed } ↔ Immature k w (.learn freshID verdict c now) := by
  constructor
  · intro hnot e he hk hp
    have hself : e.settle w.learner.cfg now ∈ (w.learner.learn freshID verdict c now).cache := by
      rw [Learner.learn_eq, he]
      exact Learner.mem_settle.mpr (.inl rfl)
    refine hnot.cache _ hself ?_ ?_
    · rw [CacheEntry.settle_rel, CacheEntry.promote_relKey, hk]
    · rw [CacheEntry.settle_rel, CacheEntry.promote_state, if_pos hp]
  · intro himmature
    refine h.learn fun e he => ⟨counted_notLearned h he, fun hp hk => ?_⟩
    exact absurd hp (himmature e he hk)

theorem NotLearned.beginFlush_iff {now : Time} (h : NotLearned k w) :
    NotLearned k { w with
      learner := (w.learner.beginFlush now).1
      writes := w.writes ++ (w.learner.beginFlush now).2 } ↔ Immature k w (.beginFlush now) := by
  constructor
  · intro hnot e he hk hp
    refine hnot.cache _ (Learner.mem_beginFlush.mpr ⟨e, he, rfl⟩) ?_ ?_
    · rw [CacheEntry.flushed_rel, CacheEntry.promote_relKey, hk]
    · rw [CacheEntry.flushed_rel, CacheEntry.promote_state, if_pos hp]
  · intro himmature
    exact h.beginFlush fun e he hp hk => absurd hp (himmature e he hk)

theorem NotLearned.operator {op : OperatorWrite} (h : NotLearned k w)
    (hforbids : Forbidding k w (.operator op)) :
    NotLearned k { w with rows := op.apply w.rows, decided := w.decidedAfter op } := by
  refine ⟨h.cache, h.writes, fun row' hrow' hk hs => ?_⟩
  cases op with
  | setState id state confidence =>
    obtain ⟨row, hrow, rfl⟩ :=
      (Table.mem_map (RelationshipTable.setState_key id state confidence)).mp hrow'
    rw [RelationshipTable.setState_key] at hk
    unfold RelationshipTable.setState at hs
    split at hs
    · exact hforbids hs
    · exact h.rows row hrow hk hs
  | freeze nodeID =>
    obtain ⟨row, hrow, rfl⟩ := (Table.mem_map (RelationshipTable.freezeRow_key nodeID)).mp hrow'
    rw [RelationshipTable.freezeRow_key] at hk
    unfold RelationshipTable.freezeRow at hs
    split at hs
    · cases hs
    · exact h.rows row hrow hk hs
  | reset nodeID keepStates => exact h.rows row' (Table.mem_filter.mp hrow').1 hk hs

/-- One step learns the relationship exactly when what is counted on it is mature. -/
theorem NotLearned.step_iff {e : LearnerEvent} (h : NotLearned k w) (hforbids : Forbidding k w e)
    (hstep : LearnerStep w e w') : NotLearned k w' ↔ Immature k w e := by
  cases e with
  | learn freshID verdict c now =>
    obtain rfl := Option.some.inj hstep
    exact h.learn_iff
  | beginFlush now =>
    obtain rfl := Option.some.inj hstep
    exact h.beginFlush_iff
  | write i now fails =>
    obtain ⟨r, hr, rfl⟩ := Option.map_eq_some_iff.mp hstep
    exact iff_of_true (h.write hr) trivial
  | freeze now =>
    obtain rfl := Option.some.inj hstep
    refine iff_of_true (h.freeze fun e he hs hk => ?_) trivial
    simp
  | reload fails =>
    obtain rfl := Option.some.inj hstep
    exact iff_of_true h.reload trivial
  | restart cfg pub fails =>
    obtain rfl := Option.some.inj hstep
    exact iff_of_true h.restart trivial
  | operator op =>
    obtain rfl := Option.some.inj hstep
    exact iff_of_true (h.operator hforbids) trivial

end Steps

/-- In a run that observes a relationship under forbidding verdicts only, it is never learned
exactly when what is counted on it never is mature. -/
theorem never_learned_iff {cfg : LearnerConfig} {pub : Bool} {w : LearnerWorld} {es : List LearnerEvent}
    {k : RelationshipKey} (h : Run (Guarded (Forbidding k) LearnerStep) (.start cfg pub) es w) :
    (∀ es₁ es₂ u, es = es₁ ++ es₂ → Run LearnerStep (.start cfg pub) es₁ u → NotLearned k u) ↔
      Run (Guarded (Immature k) LearnerStep) (.start cfg pub) es w := by
  have hstart : NotLearned k (.start cfg pub) := .start cfg pub
  generalize LearnerWorld.start cfg pub = s at h hstart
  constructor
  · intro hnever
    induction h with
    | nil => exact .nil
    | @cons s u t e es hst _ ih =>
      have hu : NotLearned k u := hnever [e] es u rfl (.singleton hst.2)
      refine .cons ⟨(hstart.step_iff hst.1 hst.2).mp hu, hst.2⟩ (ih hu fun es₁ es₂ v heq hv => ?_)
      exact hnever (e :: es₁) es₂ v (congrArg (e :: ·) heq) (.cons hst.2 hv)
  · intro himmature es₁ es₂ u heq hu
    subst heq
    induction hu with
    | nil => exact hstart
    | @cons s u v e es₁ hst _ ih =>
      rcases h with _ | ⟨hforbids, hrest⟩
      rcases himmature with _ | ⟨himm, himmrest⟩
      have hu : ∀ u', LearnerStep s e u' → u' = u := fun u' hu' =>
        Option.some.inj (hu'.symm.trans hst)
      obtain rfl := hu _ hforbids.2
      obtain rfl := hu _ himm.2
      exact ih ((hstart.step_iff hforbids.1 hst).mpr himm.1) hrest himmrest

def seenAsEvidence (n : Nat) : List LearnerEvent :=
  (List.range n).map fun i => seenAt (i + 1) .evidenceOnly

/-- Four observations stay below the default threshold of five. -/
def runFourAsEvidence : Option LearnerWorld :=
  (seenAsEvidence 4 ++ flushAt 5 false).foldlM (fun w e =>
    if Forbidding fixtureFlow.toRelationshipKey w e ∧ Immature fixtureFlow.toRelationshipKey w e
    then learnerStep w e else none) fixtureLearner

theorem four_facts :
    (runFourAsEvidence.any fun w => w.rows.rows.map Relationship.seenCount = [4]) = true := by
  decide +kernel

theorem four_never_learned : ∃ es w, Run LearnerStep fixtureLearner es w ∧
    w.rows.rows.map Relationship.seenCount = [4] ∧
    ∀ es₁ es₂ u, es = es₁ ++ es₂ → Run LearnerStep fixtureLearner es₁ u →
      NotLearned fixtureFlow.toRelationshipKey u := by
  have hfacts := four_facts
  rcases hw : runFourAsEvidence with _ | w
  · simp [hw] at hfacts
  · rw [hw, Option.any_some] at hfacts
    have hrun := guarded_of_foldlM hw
    have hforbids := hrun.mono fun hst => (⟨hst.1.1, hst.2⟩ : Guarded (Forbidding _) LearnerStep _ _ _)
    have himmature := hrun.mono fun hst => (⟨hst.1.2, hst.2⟩ : Guarded (Immature _) LearnerStep _ _ _)
    exact ⟨_, w, hrun.mono fun hst => hst.2, of_decide_eq_true hfacts,
      (never_learned_iff hforbids).mpr himmature⟩

/-- The same with a threshold of three observations in two windows. -/
def runThreeAsEvidence : Option LearnerWorld :=
  (seenAsEvidence 3 ++ flushAt 4 false).foldlM (fun w e =>
    if Forbidding fixtureFlow.toRelationshipKey w e then learnerStep w e else none)
    (.start { nodeID := "node-1", promotion := ⟨3, 2, 0⟩ } false)

theorem three_facts :
    (runThreeAsEvidence.any fun w => w.rows.rows.map (fun row => (row.toRelationshipKey, row.state)) =
      [(fixtureFlow.toRelationshipKey, .learned)]) = true := by
  decide +kernel

/-- Observations that are evidence only are promoted and stored as learned. -/
theorem evidence_promoted :
    ¬ ∀ (cfg : LearnerConfig) (pub : Bool) (w : LearnerWorld) (es : List LearnerEvent)
      (k : RelationshipKey), Run (Guarded (Forbidding k) LearnerStep) (.start cfg pub) es w →
      NotLearned k w := by
  intro h
  have hfacts := three_facts
  rcases hw : runThreeAsEvidence with _ | w
  · simp [hw] at hfacts
  · rw [hw, Option.any_some] at hfacts
    have hrows := of_decide_eq_true hfacts
    have hnot := h _ _ w _ fixtureFlow.toRelationshipKey (guarded_of_foldlM hw)
    have hin : (fixtureFlow.toRelationshipKey, RelationshipState.learned) ∈
        w.rows.rows.map fun row => (row.toRelationshipKey, row.state) := by
      rw [hrows]
      exact List.mem_singleton_self _
    obtain ⟨row, hrow, heq⟩ := List.mem_map.mp hin
    obtain ⟨hk, hs⟩ := Prod.mk.inj heq
    exact hnot.rows row hrow hk hs

end Kernloom
