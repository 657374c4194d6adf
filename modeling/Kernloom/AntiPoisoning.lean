import Kernloom.GraphPipeline

/-! Attack signals and what the pipeline learns after them. -/

namespace Kernloom

open Keyed

namespace LearningGuard

variable {order : RowOrder} {fails : Bool} {entityID : String} {dim : AppliesTo} {now : Time} {g : LearningGuard}

/-- An exclusion that applies at a time. -/
def Applies (dim : AppliesTo) (now : Time) (e : Exclusion) : Prop :=
  e.status = .active ∧ ¬ e.expiresAt < now ∧ appliesToDimension e.appliesTo dim

instance (e : Exclusion) : Decidable (Applies dim now e) := inferInstanceAs (Decidable (_ ∧ _ ∧ _))

def Marked (entityID : String) (now : Time) (g : LearningGuard) : Prop :=
  (g.suspicious.any fun r => r.isSourceSuspicious entityID now) = true

/-- The guard has a mark or an exclusion on record for an entity. -/
def Refuses (order : RowOrder) (fails : Bool) (entityID : String) (dim : AppliesTo) (now : Time)
    (g : LearningGuard) : Prop :=
  g.Marked entityID now ∨ ∃ e ∈ (g.loadExclusions order fails entityID now).1, Applies dim now e

/-- The first exclusion that applies forbids learning, not only promotion. -/
def Denies (order : RowOrder) (fails : Bool) (entityID : String) (dim : AppliesTo) (now : Time)
    (g : LearningGuard) : Prop :=
  g.Marked entityID now ∨ ∃ e, (g.loadExclusions order fails entityID now).1.find? (Applies dim now) = some e ∧
    decisionFromReason e.reason = .denyLearning

theorem decisionFromReason_ne (reason : ExclusionReason) : decisionFromReason reason ≠ .allowLearning := by
  cases reason <;> simp [decisionFromReason]

theorem check_of_marked (h : g.Marked entityID now) :
    (g.check order fails entityID dim now).1.decision = .denyLearning := by
  unfold Marked at h
  unfold check
  rw [if_pos h]

theorem check_decision (h : ¬ g.Marked entityID now) : (g.check order fails entityID dim now).1.decision =
    match (g.loadExclusions order fails entityID now).1.find? (Applies dim now) with
    | some e => decisionFromReason e.reason
    | none => .allowLearning := by
  unfold Marked at h
  unfold check
  rw [if_neg h]
  simp only [verdict]
  have hsame : (fun e : Exclusion => decide (e.status = .active ∧ ¬ e.expiresAt < now ∧
      appliesToDimension e.appliesTo dim)) = fun e => decide (Applies dim now e) := rfl
  rw [hsame]
  cases (g.loadExclusions order fails entityID now).1.find? (Applies dim now) <;> rfl

theorem check_refuses_iff : (g.check order fails entityID dim now).1.decision ≠ .allowLearning ↔
    g.Refuses order fails entityID dim now := by
  by_cases hmarked : g.Marked entityID now
  · rw [check_of_marked hmarked]
    exact iff_of_true (by decide) (.inl hmarked)
  · rw [check_decision hmarked]
    cases hfind : (g.loadExclusions order fails entityID now).1.find? (Applies dim now) with
    | some e =>
      refine iff_of_true (decisionFromReason_ne e.reason) (.inr ⟨e, List.mem_of_find?_eq_some hfind, ?_⟩)
      simpa using List.find?_some hfind
    | none =>
      refine iff_of_false (by simp) ?_
      rintro (hmark | ⟨e, he, happlies⟩)
      · exact hmarked hmark
      · simpa [happlies] using List.find?_eq_none.mp hfind e he

theorem check_denies_iff : (g.check order fails entityID dim now).1.decision = .denyLearning ↔
    g.Denies order fails entityID dim now := by
  by_cases hmarked : g.Marked entityID now
  · exact iff_of_true (check_of_marked hmarked) (.inl hmarked)
  · rw [check_decision hmarked, Denies, or_iff_right hmarked]
    cases (g.loadExclusions order fails entityID now).1.find? (Applies dim now) with
    | some e => simp
    | none => simp

/-- Nothing is on record for an entity. -/
structure Unrecorded (entityID : String) (g : LearningGuard) : Prop where
  marks : ∀ r, g.suspicious = some r → r.lookup entityID = none
  cached : ∀ entry, g.cache.lookup entityID = some entry → entry.exclusions = []
  stored : ∀ rows, g.store = some rows → ∀ row ∈ rows, row.entityID ≠ entityID

namespace Unrecorded

variable {other : String} {e : Exclusion}

theorem not_marked (h : g.Unrecorded entityID) : ¬ g.Marked entityID now := by
  unfold Marked
  cases hs : g.suspicious with
  | none => simp
  | some r => simp [SuspiciousRegistry.isSourceSuspicious, h.marks r hs]

theorem activeExclusions {rows : ExclusionTable} (h : ∀ row ∈ rows, row.entityID ≠ entityID) :
    rows.activeExclusionsFor order entityID now = [] := by
  refine List.eq_nil_iff_forall_not_mem.mpr fun e he => ?_
  have hrow := ExclusionTable.mem_activeExclusionsFor.mp he
  exact h e hrow.1 hrow.2.1

theorem load (h : g.Unrecorded entityID) : (g.loadExclusions order fails entityID now).1 = [] := by
  unfold loadExclusions
  cases hfresh : g.fresh entityID now with
  | some exclusions =>
    unfold fresh at hfresh
    split at hfresh
    · next entry hentry =>
      split_ifs at hfresh
      rw [← Option.some.inj hfresh]
      exact h.cached entry hentry
    · cases hfresh
  | none =>
    cases hstore : g.store with
    | none => rfl
    | some rows =>
      dsimp only
      split_ifs
      · rfl
      · exact activeExclusions (h.stored rows hstore)

theorem loaded (h : g.Unrecorded entityID) : (g.loadExclusions order fails other now).2.Unrecorded entityID := by
  unfold loadExclusions
  cases g.fresh other now with
  | some exclusions => exact h
  | none =>
    cases hstore : g.store with
    | none => exact h
    | some rows =>
      dsimp only
      split_ifs
      · exact h
      · refine ⟨h.marks, fun entry hentry => ?_, fun rows' hrows' => h.stored rows' (hstore.trans hrows')⟩
        by_cases hsame : entityID = other
        · subst hsame
          rw [AList.lookup_insert] at hentry
          rw [← Option.some.inj hentry]
          exact activeExclusions (h.stored rows hstore)
        · rw [AList.lookup_insert_ne hsame] at hentry
          exact h.cached entry hentry

theorem check (h : g.Unrecorded entityID) :
    (g.check order fails other dim now).2.Unrecorded entityID := by
  unfold LearningGuard.check
  split_ifs
  · exact h
  · exact h.loaded

theorem not_refuses (h : g.Unrecorded entityID) : ¬ g.Refuses order fails entityID dim now := by
  rintro (hmark | ⟨e, he, -⟩)
  · exact h.not_marked hmark
  · rw [h.load] at he
    cases he

theorem not_denies (h : g.Unrecorded entityID) : ¬ g.Denies order fails entityID dim now := by
  rintro (hmark | ⟨e, he, -⟩)
  · exact h.not_marked hmark
  · rw [h.load] at he
    cases he

theorem invalidate (h : g.Unrecorded entityID) : (g.invalidateCache other).Unrecorded entityID := by
  refine ⟨h.marks, fun entry hentry => ?_, h.stored⟩
  by_cases hsame : entityID = other
  · subst hsame
    simp [invalidateCache] at hentry
  · rw [invalidateCache, AList.lookup_erase_ne hsame] at hentry
    exact h.cached entry hentry

theorem cache (h : g.Unrecorded entityID) (hne : e.entityID ≠ entityID) :
    (g.cacheExclusion e now).Unrecorded entityID := by
  refine ⟨h.marks, fun entry hentry => ?_, h.stored⟩
  simp only [cacheExclusion] at hentry
  rw [AList.lookup_insert_ne (Ne.symm hne)] at hentry
  exact h.cached entry hentry

theorem upsert {rows : ExclusionTable} (h : ∀ row ∈ rows, row.entityID ≠ entityID) (hne : e.entityID ≠ entityID) :
    ∀ row ∈ rows.upsertExclusion e, row.entityID ≠ entityID := by
  unfold ExclusionTable.upsertExclusion
  cases hfind : rows.find e.id with
  | none =>
    intro row hrow
    rcases Table.mem_upsert.mp hrow with rfl | ⟨hrow, -⟩
    · exact hne
    · exact h row hrow
  | some old =>
    intro row hrow
    rcases Table.mem_upsert.mp hrow with rfl | ⟨hrow, -⟩
    · exact h old (Table.find_eq_some.mp hfind).1
    · exact h row hrow

/-- An exclusion of one entity leaves no record for another. -/
theorem addExclusion (h : g.Unrecorded entityID) (hne : e.entityID ≠ entityID) :
    (g.addExclusion fails e now).1.Unrecorded entityID := by
  have hcleared : (g.invalidateCache e.entityID).Unrecorded entityID := h.invalidate
  unfold LearningGuard.addExclusion
  generalize g.invalidateCache e.entityID = g' at hcleared
  dsimp only
  cases hstore : g'.store with
  | none => exact hcleared.cache hne
  | some rows =>
    dsimp only
    split_ifs
    · exact hcleared
    · refine cache ⟨hcleared.marks, hcleared.cached, fun rows' hrows' => ?_⟩ hne
      rw [← Option.some.inj hrows']
      exact upsert (hcleared.stored rows hstore) hne

end Unrecorded

end LearningGuard

section Learning

/-- A relationship that was not learned is learned. -/
def BecomesLearned (l l' : Learner) : Prop :=
  ∃ e' ∈ l'.cache, e'.rel.state = .learned ∧ ∀ e ∈ l.cache, e.key = e'.key → e.rel.state ≠ .learned

/-- The observed relationship is due for promotion. -/
def Due (l : Learner) (freshID : String) (c : Relationship) (now : Time) : Prop :=
  ∃ e, l.counted freshID .allowLearning c now = some e ∧ e.Promotes l.cfg now

variable {l : Learner} {freshID : String} {verdict : EligibilityDecision} {c : Relationship} {now : Time}

theorem counted_of_ne (h : verdict ≠ .denyLearning) :
    l.counted freshID verdict c now = l.counted freshID .allowLearning c now := by
  have hallow : EligibilityDecision.allowLearning ≠ .denyLearning := by decide
  unfold Learner.counted
  rw [if_neg h, if_neg hallow]

/-- An observation learns a relationship exactly when it is due and learning is not denied. -/
theorem becomesLearned_iff : BecomesLearned l (l.learn freshID verdict c now) ↔
    verdict ≠ .denyLearning ∧ Due l freshID c now := by
  by_cases hdeny : verdict = .denyLearning
  · subst hdeny
    rw [Learner.learn_eq, Learner.counted_of_deny]
    refine iff_of_false ?_ fun h => h.1 rfl
    rintro ⟨e, he, hlearned, hnot⟩
    exact hnot e he rfl hlearned
  rw [Learner.learn_eq, counted_of_ne hdeny, Due, and_iff_right hdeny]
  cases hcounted : l.counted freshID .allowLearning c now with
  | none =>
    refine iff_of_false ?_ (by simp)
    rintro ⟨e, he, hlearned, hnot⟩
    exact hnot e he rfl hlearned
  | some e =>
    have hstate : ∀ e₀ ∈ l.cache, e₀.key = e.key → e₀.rel.state = e.rel.state := by
      intro e₀ he₀ hkey
      rcases Learner.counted_cases hcounted with ⟨hfind, rfl⟩ | ⟨e₁, hfind, rfl⟩
      · exact absurd hkey (Table.find_eq_none.mp hfind e₀ he₀)
      · obtain ⟨he₁, hkey₁⟩ := Table.find_eq_some.mp hfind
        rw [Table.eq_of_key_eq he₀ he₁ hkey]
        rfl
    constructor
    · rintro ⟨e', he', hlearned, hnot⟩
      rcases Learner.mem_settle.mp he' with rfl | ⟨he', -⟩
      · rw [CacheEntry.settle_rel, CacheEntry.promote_state] at hlearned
        by_cases hpromotes : e.Promotes l.cfg now
        · exact ⟨e, rfl, hpromotes⟩
        · rw [if_neg hpromotes] at hlearned
          rcases Learner.counted_cases hcounted with ⟨-, rfl⟩ | ⟨e₁, hfind, rfl⟩
          · simp [CacheEntry.first] at hlearned
          · exact absurd hlearned (hnot e₁ (Table.find_eq_some.mp hfind).1 (by simp))
      · exact absurd hlearned (hnot e' he' rfl)
    · rintro ⟨e', he', hpromotes⟩
      obtain rfl := Option.some.inj he'
      refine ⟨e.settle l.cfg now, Learner.mem_settle.mpr (.inl rfl), ?_, ?_⟩
      · rw [CacheEntry.settle_rel, CacheEntry.promote_state, if_pos hpromotes]
      · intro e₀ he₀ hkey
        rw [CacheEntry.settle_key] at hkey
        rw [hstate e₀ he₀ hkey, hpromotes.2.1]
        decide

end Learning

namespace GraphPipeline

variable (services : PipelineServices)

/-- What the engine is given on an observation. -/
def fed (o : Observation) (relFails metricFails : Bool) (now : Time) (p : GraphPipeline) : List (String × Rat × Bool) :=
  match p.cfg.extractor.extract services.sha256 o now with
  | none => []
  | some c => samples services o c (checks services c.rel relFails metricFails now p.guard).2.1 p

theorem handle_engine (o : Observation) (freshID : String) (relFails metricFails : Bool) (now : Time)
    (p : GraphPipeline) : (p.handle services o freshID relFails metricFails now).engine =
      (p.fed services o relFails metricFails now).foldl
        (fun e s => e.update services.profiles s.1 s.2.1 s.2.2 now) p.engine := by
  unfold handle fed
  cases p.cfg.extractor.extract services.sha256 o now <;> rfl

/-- An observation that no baseline learns and that teaches no relationship. -/
structure TeachesNothing (o : Observation) (freshID : String) (relFails metricFails : Bool) (now : Time)
    (p : GraphPipeline) : Prop where
  baseline : ∀ s ∈ p.fed services o relFails metricFails now, s.2.2 = true
  relationship : ¬ BecomesLearned p.learner (p.handle services o freshID relFails metricFails now).learner

/-- The source of the observation is on record under its stable ID, or its traffic is no baseline
and its relationship is not due. -/
def Screened (o : Observation) (freshID : String) (relFails metricFails : Bool) (now : Time) (p : GraphPipeline) :
    Prop :=
  ∀ c, p.cfg.extractor.extract services.sha256 o now = some c →
    let source := stableEntityID services.sha256 "ip" o.subjectID ""
    let guard := (p.guard.check services.rows relFails source .relationshipLearning now).2
    (guard.Refuses services.rows metricFails source .metricBaseline now ∨ baselineClean p.cfg o = false) ∧
      (p.guard.Denies services.rows relFails source .relationshipLearning now ∨ ¬ Due p.learner freshID c.rel now)

/-- A source is protected from the attack signal on it to the end of the signal's lifetime. -/
def Protected (seen : List PipelineEvent) (source : String) (now : Time) : Prop :=
  ∃ sig id fails t, .signal sig id fails t ∈ seen ∧ sig.isAttack ∧ sig.subjectID = source ∧
    t ≤ now ∧ now < t + sig.lifetime

variable {services} {o : Observation} {freshID : String} {relFails metricFails : Bool} {now : Time} {p : GraphPipeline}

theorem extract_subject {cfg : ExtractorConfig} {sha256 : String → String} {c : CandidateRelationship}
    (h : cfg.extract sha256 o now = some c) : c.rel.subjectEntityID = stableEntityID sha256 "ip" o.subjectID "" := by
  unfold ExtractorConfig.extract at h
  split_ifs at h
  rw [← Option.some.inj h]

/-- What an observation teaches is decided by the records under the stable ID. -/
theorem teachesNothing_iff : p.TeachesNothing services o freshID relFails metricFails now ↔
    p.Screened services o freshID relFails metricFails now := by
  cases hextract : p.cfg.extractor.extract services.sha256 o now with
  | none =>
    have hsame : p.handle services o freshID relFails metricFails now = p := by
      unfold handle
      rw [hextract]
    refine iff_of_true ⟨by simp [fed, hextract], ?_⟩ fun c hc => by simp [hextract] at hc
    rw [hsame]
    rintro ⟨e, he, hlearned, hnot⟩
    exact hnot e he rfl hlearned
  | some c =>
    have hsource := extract_subject hextract
    have hlearner : (p.handle services o freshID relFails metricFails now).learner =
        p.learner.learn freshID (checks services c.rel relFails metricFails now p.guard).1.decision c.rel now := by
      unfold handle
      rw [hextract]
    have hbaseline : (∀ s ∈ p.fed services o relFails metricFails now, s.2.2 = true) ↔
        (checks services c.rel relFails metricFails now p.guard).2.1.decision ≠ .allowLearning ∨
          baselineClean p.cfg o = false := by
      simp [fed, hextract, samples]
    have hmetric : ∀ g : LearningGuard,
        (g.check services.rows metricFails c.rel.subjectEntityID .metricBaseline now).1.decision ≠ .allowLearning ↔
          g.Refuses services.rows metricFails c.rel.subjectEntityID .metricBaseline now :=
      fun _ => LearningGuard.check_refuses_iff
    have hrel : (p.guard.check services.rows relFails c.rel.subjectEntityID .relationshipLearning now).1.decision =
        .denyLearning ↔ p.guard.Denies services.rows relFails c.rel.subjectEntityID .relationshipLearning now :=
      LearningGuard.check_denies_iff
    have hlearns : ¬ BecomesLearned p.learner (p.handle services o freshID relFails metricFails now).learner ↔
        p.guard.Denies services.rows relFails c.rel.subjectEntityID .relationshipLearning now ∨
          ¬ Due p.learner freshID c.rel now := by
      rw [hlearner, becomesLearned_iff, not_and_or, not_not]
      exact or_congr_left hrel
    have hscreened : p.Screened services o freshID relFails metricFails now ↔
        ((p.guard.check services.rows relFails c.rel.subjectEntityID .relationshipLearning now).2.Refuses
            services.rows metricFails c.rel.subjectEntityID .metricBaseline now ∨ baselineClean p.cfg o = false) ∧
          (p.guard.Denies services.rows relFails c.rel.subjectEntityID .relationshipLearning now ∨
            ¬ Due p.learner freshID c.rel now) := by
      rw [hsource]
      constructor
      · exact fun h => h c hextract
      · rintro h c' hc'
        rw [hextract] at hc'
        obtain rfl := Option.some.inj hc'
        exact h
    rw [hscreened, ← hmetric]
    constructor
    · rintro ⟨hb, hr⟩
      exact ⟨hbaseline.mp hb, hlearns.mp hr⟩
    · rintro ⟨hb, hr⟩
      exact ⟨hbaseline.mpr hb, hlearns.mpr hr⟩

/-- A run keeps protected sources out of what it learns exactly when their observations are screened. -/
theorem protected_sources_iff (p : GraphPipeline) (events : List PipelineEvent) :
    (∀ pre o freshID relFails metricFails now post,
      events = pre ++ .observe o freshID relFails metricFails now :: post → Protected pre o.subjectID now →
        (p.after services pre).TeachesNothing services o freshID relFails metricFails now) ↔
    ∀ pre o freshID relFails metricFails now post,
      events = pre ++ .observe o freshID relFails metricFails now :: post → Protected pre o.subjectID now →
        (p.after services pre).Screened services o freshID relFails metricFails now := by
  refine forall_congr' fun pre => forall_congr' fun o => forall_congr' fun freshID => forall_congr' fun relFails => ?_
  refine forall_congr' fun metricFails => forall_congr' fun now => forall_congr' fun post => ?_
  exact imp_congr_right fun _ => imp_congr_right fun _ => teachesNothing_iff

/-- The record of an entity that no signal names stays empty. -/
theorem after_unrecorded {entityID : String} {events : List PipelineEvent} (h : p.guard.Unrecorded entityID)
    (hsignals : ∀ sig id fails t, .signal sig id fails t ∈ events → sig.subjectID ≠ entityID) :
    (p.after services events).guard.Unrecorded entityID := by
  induction events generalizing p with
  | nil => exact h
  | cons event events ih =>
    refine ih ?_ fun sig id fails t hmem => hsignals sig id fails t (List.mem_cons_of_mem _ hmem)
    cases event with
    | signal sig id fails t =>
      have hne := hsignals sig id fails t List.mem_cons_self
      show (p.handleSignal sig id fails t).guard.Unrecorded entityID
      unfold handleSignal
      split_ifs
      · exact h
      · exact h
      · exact h.addExclusion hne
    | observe o freshID relFails metricFails t =>
      show (p.handle services o freshID relFails metricFails t).guard.Unrecorded entityID
      unfold handle
      cases p.cfg.extractor.extract services.sha256 o t with
      | none => exact h
      | some c => exact h.check.check

/-- Without a record under its stable ID a source is screened by its traffic and its age alone. -/
theorem screened_iff_of_unrecorded
    (h : p.guard.Unrecorded (stableEntityID services.sha256 "ip" o.subjectID "")) :
    p.Screened services o freshID relFails metricFails now ↔
      ∀ c, p.cfg.extractor.extract services.sha256 o now = some c →
        baselineClean p.cfg o = false ∧ ¬ Due p.learner freshID c.rel now := by
  refine forall_congr' fun c => imp_congr_right fun _ => and_congr ?_ ?_
  · exact or_iff_right h.check.not_refuses
  · exact or_iff_right h.not_denies

/-- The SHA-256 digests of the two addresses and of the dimensions; other texts are not read back. -/
def recordedDigest (text : String) : String :=
  if text = "ip:203.0.113.9:" then "bf47a39067d5f0b5fe553b6f5050a6f869c6cc31527caf3e5e3f22d28a48f6e4"
  else if text = "ip:192.0.2.1:" then "c35f51a0457486db1134f86ed57030b9e4865b5f8677c37191faa261a370e5f9"
  else if text = "destination_port=53;direction=ingress;protocol=udp;" then
    "17e1b31f7cf2e7ccdd81745060020ac9f99bc52ac9e26b13d45478caca19eb87"
  else text

def quietServices : PipelineServices := ⟨recordedDigest, ⟨id, fun rows => .refl rows⟩, ⟨id, fun entries => .refl entries⟩⟩

/-- A pipeline without triggers, over a guard without a store. -/
def quietPipeline : GraphPipeline :=
  new ⟨{ nodeID := "node-1" }, ∅, ∅⟩ {} (.new { nodeID := "node-1" } false) (.new (10 * Duration.second) none none)

def floodSignal : PipelineSignal := ⟨.ppsHigh, "203.0.113.9", 0⟩

def floodReceived : PipelineEvent := .signal floodSignal "exclusion-1" false 0

/-- A flow of the source of the signal to the name server of the node. -/
def floodObservation : Observation where
  nodeID := "node-1"
  type := .flow
  subjectID := "203.0.113.9"
  objectID := "192.0.2.1"
  metrics := GoMap.ofList [("pps", 900), ("bps", 500000)]
  attributes := GoMap.ofList [("protocol", "udp"), ("destination_port", "53")]

theorem floodObservation_relevant : quietPipeline.cfg.extractor.relevant floodObservation = true := by
  decide +kernel

/-- One second after the signal the source's traffic is a clean sample. -/
theorem flood_is_learned : ¬ ∀ (services : PipelineServices) (p : GraphPipeline) (events : List PipelineEvent),
    events.Pairwise (fun e e' => e.now ≤ e'.now) → ∀ pre o freshID relFails metricFails now post,
      events = pre ++ .observe o freshID relFails metricFails now :: post → Protected pre o.subjectID now →
        (p.after services pre).TeachesNothing services o freshID relFails metricFails now := by
  intro h
  have hteaches := h quietServices quietPipeline
    [floodReceived, .observe floodObservation "edge-1" false false Duration.second]
    (by simp [floodReceived, PipelineEvent.now, Duration.second])
    [floodReceived] floodObservation "edge-1" false false Duration.second [] rfl
    ⟨floodSignal, "exclusion-1", false, 0, List.mem_singleton_self _, by decide, rfl, by decide, by decide⟩
  have hstart : quietPipeline.guard.Unrecorded (recordedDigest "ip:203.0.113.9:") := by
    refine ⟨fun r hr => ?_, fun entry hentry => ?_, fun rows hrows => ?_⟩
    · cases hr
    · cases hentry
    · cases hrows
  have hrecord : (quietPipeline.after quietServices [floodReceived]).guard.Unrecorded
      (stableEntityID quietServices.sha256 "ip" floodObservation.subjectID "") := by
    refine after_unrecorded hstart fun sig id fails t hmem => ?_
    obtain ⟨rfl, -⟩ := PipelineEvent.signal.inj (List.mem_singleton.mp hmem)
    decide
  obtain ⟨c, hc⟩ : ∃ c, (quietPipeline.after quietServices [floodReceived]).cfg.extractor.extract quietServices.sha256
      floodObservation Duration.second = some c := by
    refine ⟨_, if_neg ?_⟩
    rw [not_not]
    exact floodObservation_relevant
  have hscreened := (screened_iff_of_unrecorded hrecord).mp (teachesNothing_iff.mp hteaches) c hc
  exact absurd hscreened.1 (by decide +kernel)

end GraphPipeline

end Kernloom
