import Kernloom.LearnerRuns

/-! Decisions of the operator against the learner's own copies of the relationships. -/

namespace Kernloom

open Keyed Transition

/-- Every decision of the operator is the stored state of its relationship. -/
def LearnerWorld.DecisionsKept (w : LearnerWorld) : Prop :=
  ∀ k s, w.decided k = some s → ∃ row ∈ w.rows, row.toRelationshipKey = k ∧ row.state = s

/-- When the operator decides on a relationship the learner holds no copy of it in another state,
and it caches no relationship anew that is decided on. -/
def NoStaleCopy (w : LearnerWorld) : LearnerEvent → Prop
  | .learn _ _ c _ => w.learner.cache.find (stableKey c.toRelationshipKey) = none →
      w.decided { c.toRelationshipKey with nodeID := w.learner.cfg.nodeID } = none
  | .freeze _ => ∀ e ∈ w.learner.cache.rows, e.rel.state = .approved →
      w.decided e.rel.toRelationshipKey = none
  | .operator op => ∀ s ∈ op.decision, ∀ row ∈ w.rows.rows, op.touches row →
      (∀ e ∈ w.learner.cache.rows, e.rel.toRelationshipKey = row.toRelationshipKey → e.rel.state = s) ∧
      ∀ r ∈ w.writes, r.toRelationshipKey = row.toRelationshipKey → r.state = s
  | _ => True

instance (w : LearnerWorld) (e : LearnerEvent) : Decidable (NoStaleCopy w e) :=
  match e with
  | .learn _ _ c _ => inferInstanceAs (Decidable (w.learner.cache.find (stableKey c.toRelationshipKey) = none →
      w.decided { c.toRelationshipKey with nodeID := w.learner.cfg.nodeID } = none))
  | .freeze _ => inferInstanceAs (Decidable (∀ e ∈ w.learner.cache.rows, e.rel.state = .approved →
      w.decided e.rel.toRelationshipKey = none))
  | .operator op => inferInstanceAs (Decidable (∀ s ∈ op.decision, ∀ row ∈ w.rows.rows, op.touches row →
      (∀ e ∈ w.learner.cache.rows, e.rel.toRelationshipKey = row.toRelationshipKey → e.rel.state = s) ∧
      ∀ r ∈ w.writes, r.toRelationshipKey = row.toRelationshipKey → r.state = s))
  | .beginFlush _ | .write .. | .reload _ | .restart .. => isTrue trivial

/-- Whatever is decided on, every copy agrees with the decision. -/
abbrev Agrees (w : LearnerWorld) (k : RelationshipKey) (s : RelationshipState) : Prop :=
  ∀ d, w.decided k = some d → s = d

structure Decided (w : LearnerWorld) : Prop where
  copies : Copies (Agrees w) w
  stored : ∀ k, w.decided k ≠ none → ∃ row ∈ w.rows, row.toRelationshipKey = k
  decision : ∀ k d, w.decided k = some d → d.IsDecision

namespace Decided

variable {w : LearnerWorld}

theorem start (cfg : LearnerConfig) (pub : Bool) : Decided (.start cfg pub) where
  copies := .start cfg pub
  stored _ hk := absurd rfl hk
  decision _ _ hd := nomatch hd

theorem decisionsKept (h : Decided w) : w.DecisionsKept := by
  intro k s hs
  obtain ⟨row, hrow, rfl⟩ := h.stored k (by simp [hs])
  exact ⟨row, hrow, rfl, h.copies.rows row hrow s hs⟩

theorem promotes (h : Decided w) {e : CacheEntry} {cfg : LearnerConfig} {now : Time}
    (he : Agrees w e.rel.toRelationshipKey e.rel.state) (hp : e.Promotes cfg now) :
    Agrees w e.rel.toRelationshipKey .learned := by
  intro d hd
  have hstate := he d hd
  rw [hp.2.1] at hstate
  subst hstate
  have hcandidate := h.decision _ _ hd
  simp [RelationshipState.IsDecision] at hcandidate

theorem learn {freshID : String} {verdict : EligibilityDecision} {c : Relationship} {now : Time}
    {observed : List RelationshipKey} (h : Decided w)
    (hfit : NoStaleCopy w (.learn freshID verdict c now)) :
    Decided { w with
      learner := w.learner.learn freshID verdict c now
      observed := observed } := by
  refine ⟨h.copies.learn fun e he => ?_, h.stored, h.decision⟩
  have hagrees : Agrees w e.rel.toRelationshipKey e.rel.state := by
    rcases Learner.counted_cases he with ⟨hfind, rfl⟩ | ⟨e₀, hfind, rfl⟩
    · intro d hd
      have hnone := hfit hfind
      exact nomatch hnone.symm.trans hd
    · exact h.copies.cache e₀ (Table.find_eq_some.mp hfind).1
  exact ⟨hagrees, h.promotes hagrees⟩

theorem freeze {now : Time} (h : Decided w) (hfit : NoStaleCopy w (.freeze now)) :
    Decided { w with learner := w.learner.freezeCache now } := by
  refine ⟨h.copies.freeze fun e he hs d hd => ?_, h.stored, h.decision⟩
  rcases hs with hs | hs
  · have hstate := h.copies.cache e he d hd
    rw [hs] at hstate
    subst hstate
    have hlearned := h.decision _ _ hd
    simp [RelationshipState.IsDecision] at hlearned
  · have hnone := hfit e he hs
    rw [hnone] at hd
    cases hd

theorem write {i : Nat} {now : Time} {fails : Bool} {r : Relationship} (h : Decided w)
    (hr : w.writes[i]? = some r) :
    Decided { w with rows := w.written now fails r, writes := w.writes.eraseIdx i } := by
  refine ⟨h.copies.write hr, fun k hk => ?_, h.decision⟩
  obtain ⟨row, hrow, hkey⟩ := h.stored k hk
  have hupsert (r' : Relationship) (hr' : r'.toRelationshipKey = r.toRelationshipKey) :
      ∃ row ∈ w.rows.upsert r', row.toRelationshipKey = k := by
    by_cases hsame : row.toRelationshipKey = r'.toRelationshipKey
    · exact ⟨r', Table.mem_upsert_self w.rows r', hsame.symm.trans hkey⟩
    · exact ⟨row, Table.mem_upsert_of_mem hrow hsame, hkey⟩
  rcases written_cases w now fails r with heq | ⟨row₀, -, hkey₀, heq⟩ | heq
  · exact ⟨row, by rw [heq]; exact hrow, hkey⟩
  · have hex := hupsert (RelationshipTable.merge now r row₀) hkey₀
    rwa [← heq] at hex
  · have hex := hupsert (RelationshipTable.stored now r) rfl
    rwa [← heq] at hex

theorem operator {op : OperatorWrite} (h : Decided w) (hfit : NoStaleCopy w (.operator op)) :
    Decided { w with rows := op.apply w.rows, decided := w.decidedAfter op } := by
  -- After the command a relationship is decided on by it, or as before.
  have hafter {k : RelationshipKey} {d : RelationshipState} (hd : w.decidedAfter op k = some d) :
      (op.decision = some d ∧ ∃ row ∈ w.rows, row.toRelationshipKey = k ∧ op.touches row) ∨
      (w.decided k = some d ∧ ∀ row ∈ w.rows, row.toRelationshipKey = k → ¬ op.touches row) := by
    unfold LearnerWorld.decidedAfter at hd
    split at hd
    · next htouched => exact .inl ⟨hd, htouched⟩
    · next huntouched => exact .inr ⟨hd, fun row hrow hk ht => huntouched ⟨row, hrow, hk, ht⟩⟩
  refine ⟨⟨fun e he d hd => ?_, fun r hr d hd => ?_, fun row' hrow' d hd => ?_⟩, fun k hk => ?_,
    fun k d hd => ?_⟩
  · rcases hafter hd with ⟨hdecision, row, hrow, hk, ht⟩ | ⟨hd, -⟩
    · exact (hfit d hdecision row hrow ht).1 e he hk.symm
    · exact h.copies.cache e he d hd
  · rcases hafter hd with ⟨hdecision, row, hrow, hk, ht⟩ | ⟨hd, -⟩
    · exact (hfit d hdecision row hrow ht).2 r hr hk.symm
    · exact h.copies.writes r hr d hd
  · obtain ⟨row, hrow, hkey, -, hwrite⟩ := mem_operatorWrite hrow'
    rw [hkey] at hd
    rcases hafter hd with ⟨hdecision, row₁, hrow₁, hk, ht⟩ | ⟨hd, huntouched⟩
    · rw [Table.eq_of_key_eq hrow₁ hrow hk] at ht
      rw [if_pos ht, hdecision] at hwrite
      split at hwrite
      · exact (Option.some.inj hwrite).symm
      · cases hwrite
    · rw [if_neg (huntouched row hrow rfl)] at hwrite
      rw [hwrite]
      exact h.copies.rows row hrow d hd
  · obtain ⟨d, hd⟩ := Option.ne_none_iff_exists'.mp hk
    rcases hafter hd with ⟨hdecision, row, hrow, rfl, -⟩ | ⟨hd, huntouched⟩
    · have hop (nodeID : String) (keepStates : List RelationshipState) :
          op ≠ .reset nodeID keepStates := by
        rintro rfl
        cases hdecision
      obtain ⟨row', hrow', hk', -⟩ := exists_mem_operatorWrite (.inl hop) hrow
      exact ⟨row', hrow', hk'⟩
    · obtain ⟨row, hrow, rfl⟩ := h.stored k (by simp [hd])
      obtain ⟨row', hrow', hk', -⟩ := exists_mem_operatorWrite (.inr (huntouched row hrow rfl)) hrow
      exact ⟨row', hrow', hk'⟩
  · rcases hafter hd with ⟨hdecision, -⟩ | ⟨hd, -⟩
    · exact OperatorWrite.isDecision hdecision
    · exact h.decision k d hd

theorem step {w' : LearnerWorld} {e : LearnerEvent} (h : Decided w) (hfit : NoStaleCopy w e)
    (hstep : LearnerStep w e w') : Decided w' := by
  cases e with
  | learn freshID verdict c now =>
    obtain rfl := Option.some.inj hstep
    exact h.learn hfit
  | beginFlush now =>
    obtain rfl := Option.some.inj hstep
    exact ⟨h.copies.beginFlush fun e he => h.promotes (h.copies.cache e he), h.stored, h.decision⟩
  | write i now fails =>
    obtain ⟨r, hr, rfl⟩ := Option.map_eq_some_iff.mp hstep
    exact h.write hr
  | freeze now =>
    obtain rfl := Option.some.inj hstep
    exact h.freeze hfit
  | reload fails =>
    obtain rfl := Option.some.inj hstep
    exact ⟨h.copies.reload, h.stored, h.decision⟩
  | restart cfg pub fails =>
    obtain rfl := Option.some.inj hstep
    exact ⟨h.copies.restart, h.stored, h.decision⟩
  | operator op =>
    obtain rfl := Option.some.inj hstep
    exact h.operator hfit

end Decided

/-- In every run without a stale copy, the stored state of a relationship the operator decided on
is the decision, until the operator writes it again. -/
theorem decisions_kept {cfg : LearnerConfig} {pub : Bool} {w : LearnerWorld} {es : List LearnerEvent}
    (h : Run (Guarded NoStaleCopy LearnerStep) (.start cfg pub) es w) : w.DecisionsKept := by
  have hdecided : Decided w := h.invariant (Decided.start cfg pub) fun hs hstep =>
    hs.step hstep.1 hstep.2
  exact hdecided.decisionsKept

def approve : LearnerEvent := .operator (.setState "rel-1" .approved 1)

/-- The operator approves while the learner is down; the learner then loads the decision. -/
def runApprovedWhileDown : Option LearnerWorld :=
  ([seenAt 1 .allowLearning] ++ flushAt 2 false ++
    [.restart { nodeID := "node-1" } false true, approve, .reload false, seenAt 3 .allowLearning] ++
    flushAt 4 false).foldlM (fun w e => if NoStaleCopy w e then learnerStep w e else none) fixtureLearner

theorem approved_while_down_facts :
    (runApprovedWhileDown.any fun w =>
      w.decided fixtureFlow.toRelationshipKey = some .approved) = true := by
  decide +kernel

theorem approved_while_down_kept : ∃ w, runApprovedWhileDown = some w ∧
    ∃ row ∈ w.rows, row.toRelationshipKey = fixtureFlow.toRelationshipKey ∧ row.state = .approved := by
  have hfacts := approved_while_down_facts
  rcases hw : runApprovedWhileDown with _ | w
  · simp [hw] at hfacts
  · rw [hw, Option.any_some] at hfacts
    exact ⟨w, rfl, decisions_kept (guarded_of_foldlM hw) _ _ (of_decide_eq_true hfacts)⟩

/-- The operator approves while the learner has the relationship in its cache. -/
def runApprovedWhileCached : Option LearnerWorld :=
  ([seenAt 1 .allowLearning] ++ flushAt 2 false ++ [approve, seenAt 3 .allowLearning] ++
    flushAt 4 false).foldlM learnerStep fixtureLearner

theorem approved_while_cached_facts :
    (runApprovedWhileCached.any fun w =>
      w.decided fixtureFlow.toRelationshipKey = some .approved ∧
      w.rows.rows.map Relationship.state = [.candidate]) = true := by
  decide +kernel

/-- The next flush makes an approved relationship a candidate again. -/
theorem approval_overwritten :
    ¬ ∀ (cfg : LearnerConfig) (pub : Bool) (w : LearnerWorld) (es : List LearnerEvent),
      Run LearnerStep (.start cfg pub) es w → w.DecisionsKept := by
  intro h
  have hfacts := approved_while_cached_facts
  rcases hw : runApprovedWhileCached with _ | w
  · simp [hw] at hfacts
  · rw [hw, Option.any_some] at hfacts
    obtain ⟨hdecided, hrows⟩ := of_decide_eq_true hfacts
    obtain ⟨row, hrow, -, hstate⟩ := h _ _ w _ (run_of_foldlM hw) _ _ hdecided
    have hcandidate : row.state ∈ w.rows.rows.map Relationship.state := List.mem_map_of_mem hrow
    rw [hrows, List.mem_singleton, hstate] at hcandidate
    cases hcandidate

end Kernloom
