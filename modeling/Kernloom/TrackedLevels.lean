import Kernloom.LevelChanges
import Kernloom.SourceRuns
import Kernloom.SourceTable
import Kernloom.Transition

/-! The level that the table records for a source against the level that the PEP enforces. The two
stay the same in every run in which each evaluation reports what is enforced and no sweep reverts
the lease of a source that is recorded above observe. -/

namespace Kernloom

open Effects LeaseTable Transition

namespace LoopState

variable {σ ρ : Type} {e : LevelledExecutor σ ρ} {c : LoopConfig} {s : LoopState σ ρ}

/-- The table records what the PEP enforces. -/
structure Tracks (e : LevelledExecutor σ ρ) (s : LoopState σ ρ) : Prop where
  named : ∀ id entry, s.entries.lookup id = some entry → entry.target.id = id
  level : ∀ id, s.levelOf id = e.levelOn s.world id

section Entries

theorem levelOf_of_lookup {id : String} {entry : SourceEntry} (h : s.entries.lookup id = some entry) :
    s.levelOf id = entry.state.level := by
  simp [levelOf, h]

theorem levelOf_insert {w : NodeWorld σ ρ} {id : String} {entry : SourceEntry} :
    levelOf { s with entries := s.entries.insert id entry, world := w } =
      Function.update s.levelOf id entry.state.level := by
  funext id'
  rw [Function.update_apply]
  by_cases h : id' = id
  · subst h
    simp [levelOf]
  · simp [levelOf, h, AList.lookup_insert_ne]

theorem ensure_level (id : String) (target : SourceTarget) : (ensure s id target).state.level = s.levelOf id := by
  unfold ensure levelOf
  cases s.entries.lookup id with
  | none => rfl
  | some entry => by_cases h : entry.target.sourceID = "" <;> simp [h]

/-- A written entry keeps the record true exactly when the PEP enforces what it says. -/
theorem Tracks.write_iff (h : Tracks e s) {w : NodeWorld σ ρ} {id : String} {entry : SourceEntry}
    (hid : entry.target.id = id) : Tracks e { s with entries := s.entries.insert id entry, world := w } ↔
      Function.update (e.levelOn s.world) id entry.state.level = e.levelOn w := by
  have hlevels : s.levelOf = e.levelOn s.world := funext h.level
  constructor
  · intro h'
    rw [← hlevels, ← levelOf_insert (w := w)]
    exact funext h'.level
  · intro hlevel
    refine ⟨fun id' entry' h' => ?_, fun id' => ?_⟩
    · by_cases hsame : id' = id
      · subst hsame
        rw [AList.lookup_insert] at h'
        exact Option.some.inj h' ▸ hid
      · rw [AList.lookup_insert_ne hsame] at h'
        exact h.named id' entry' h'
    · rw [levelOf_insert, hlevels, hlevel]

theorem Tracks.write (h : Tracks e s) {w : NodeWorld σ ρ} {id : String} {entry : SourceEntry}
    (hid : entry.target.id = id)
    (hlevel : Function.update (e.levelOn s.world) id entry.state.level = e.levelOn w) :
    Tracks e { s with entries := s.entries.insert id entry, world := w } := (h.write_iff hid).mpr hlevel

theorem Tracks.congr (h : Tracks e s) {s' : LoopState σ ρ} (hentries : s'.entries = s.entries)
    (hlevel : ∀ id, s.levelOf id = e.levelOn s.world id → e.levelOn s'.world id = e.levelOn s.world id) :
    Tracks e s' where
  named := hentries ▸ h.named
  level id := by
    rw [hlevel id (h.level id), ← h.level id]
    simp only [levelOf, hentries]

end Entries

section Overrides

theorem Tracks.deEnforce (h : Tracks e s) {id : String} {entry : SourceEntry}
    (hentry : s.entries.lookup id = some entry) (clear : FsmState → FsmState) (hclear : ∀ st, (clear st).level = st.level) (now : Time)
    (reason : String) : Tracks e (deEnforce e.toBrokeredActionExecutor c s now id entry clear reason) := by
  have hid : SourceTarget.id (if entry.target.sourceID = "" then
      { entry.target with sourceID := entry.target.subjectID } else entry.target) = id := by
    rw [← h.named id entry hentry]
    by_cases hs : entry.target.sourceID = "" <;> simp [SourceTarget.id, hs]
  obtain ⟨_, hlevel, hlevels⟩ := LevelledExecutor.applyUnbrokered_levels (e := e) (w := s.world)
    (if entry.target.sourceID = "" then { entry.target with sourceID := entry.target.subjectID } else entry.target)
    entry.state (BrokeredActionExecutor.observeOverride (if entry.target.sourceID = "" then
      { entry.target with sourceID := entry.target.subjectID } else entry.target) now reason) c.pepParams now
  rw [hid] at hlevels
  refine h.write (h.named id entry hentry) ?_
  rw [hclear]
  exact (congrArg _ hlevel).trans hlevels.symm

theorem Tracks.resetEntry (h : Tracks e s) (now : Time) (id : String) :
    Tracks e (resetEntry e.toBrokeredActionExecutor c s now id) := by
  unfold LoopState.resetEntry
  cases hentry : s.entries.lookup id with
  | none => exact h
  | some entry =>
    dsimp only
    by_cases hobserve : entry.state.level = .observe
    · rw [if_pos hobserve]
      exact h
    · rw [if_neg hobserve]
      exact h.deEnforce hentry clearCounters (fun _ => rfl) now _

theorem Tracks.reset (h : Tracks e s) (now : Time) (order : RangeOrder) :
    Tracks e (reset e.toBrokeredActionExecutor c s now order) :=
  List.foldlRecOn _ _ h fun _ hs id _ => hs.resetEntry now id

theorem Tracks.feedbackFrom (h : Tracks e s) (now : Time) (matchSource : String → Bool) (budget : Int)
    (ids : List String) :
    Tracks e (feedbackFrom e.toBrokeredActionExecutor c now matchSource budget s ids) := by
  induction ids generalizing s budget with
  | nil => exact h
  | cons id ids ih =>
    unfold LoopState.feedbackFrom
    cases hentry : s.entries.lookup id with
    | none => exact ih h budget
    | some entry =>
      dsimp only
      by_cases hskip : entry.state.level = .observe ∨ ¬ matchSource id
      · rw [if_pos hskip]
        exact ih h budget
      rw [if_neg hskip]
      by_cases hspent : c.feedbackSweep ∧ budget ≤ 0
      · rw [if_pos hspent]
        exact h
      · rw [if_neg hspent]
        exact ih (h.deEnforce hentry clearState (fun _ => rfl) now _) _

theorem Tracks.applyFeedback (h : Tracks e s) (now : Time) (fb : FeedbackFilter) (order : RangeOrder) :
    Tracks e (applyFeedback e.toBrokeredActionExecutor c s now fb order) := by
  unfold LoopState.applyFeedback
  by_cases hactive : ¬ fb.active
  · rw [if_pos hactive]
    exact h
  rw [if_neg hactive]
  by_cases hdue : c.feedbackSweep ∧ (c.feedbackMax ≤ 0 ∨ c.feedbackEvery ≤ 0 ∨ ¬ fb.beginSweep)
  · rw [if_pos hdue]
    exact h
  · rw [if_neg hdue]
    exact h.feedbackFrom now _ _ _

theorem ensure_id (h : Tracks e s) {id : String} {target : SourceTarget} (htarget : target.id = id) :
    (ensure s id target).target.id = id := by
  unfold ensure
  cases hentry : s.entries.lookup id with
  | none => exact htarget
  | some entry =>
    dsimp only
    by_cases hs : entry.target.sourceID = ""
    · rw [if_pos hs]
      exact htarget
    · rw [if_neg hs]
      exact h.named id entry hentry

theorem applyGraphStrikeState_level (st : FsmState) (gs : GraphStrike) (now : Time) :
    (applyGraphStrikeState c st gs now).level = st.level := by
  unfold applyGraphStrikeState
  by_cases hforce : gs.forceBlock <;> simp [hforce]

theorem Tracks.applyGraphStrike (h : Tracks e s) (now : Time) (gs : GraphStrike) :
    Tracks e (applyGraphStrike c s now gs) := by
  unfold LoopState.applyGraphStrike
  by_cases hempty : gs.sourceID = ""
  · rw [if_pos hempty]
    exact h
  · rw [if_neg hempty]
    have hid : (sourceTargetFromID gs.sourceID).id = gs.sourceID := if_neg hempty
    refine h.write (ensure_id h hid) ?_
    dsimp only
    rw [applyGraphStrikeState_level, ensure_level, h.level]
    exact Function.update_eq_self _ _

theorem Tracks.prologue (h : Tracks e s) (tk : Tick) : Tracks e (prologue e.toBrokeredActionExecutor c s tk) := by
  have hclock : Tracks e { s with world := { s.world with clock := tk.clock } } := h.congr rfl fun _ _ => rfl
  have hreset : Tracks e (if tk.reset then LoopState.reset e.toBrokeredActionExecutor c
      { s with world := { s.world with clock := tk.clock } } tk.now tk.order
      else { s with world := { s.world with clock := tk.clock } }) := by
    split_ifs
    · exact hclock.reset tk.now tk.order
    · exact hclock
  have hfeedback := hreset.applyFeedback (c := c) tk.now tk.feedback tk.order
  unfold LoopState.prologue
  dsimp only
  by_cases hobserved : tk.observed
  · rw [if_pos hobserved]
    exact List.foldlRecOn _ _ hfeedback fun _ hs gs _ => hs.applyGraphStrike tk.now gs
  · rw [if_neg hobserved]
    exact hfeedback

theorem Tracks.evictEntry (h : Tracks e s) (now : Time) (id : String) : Tracks e (evictEntry c s now id) := by
  unfold LoopState.evictEntry
  cases hentry : s.entries.lookup id with
  | none => exact h
  | some entry =>
    dsimp only
    by_cases hidle : isIdle c now entry = true
    · rw [if_pos hidle]
      have hobserve : entry.state.level = .observe := by
        simp only [isIdle, decide_eq_true_eq] at hidle
        exact hidle.1
      refine ⟨fun id' entry' h' => ?_, fun id' => ?_⟩
      · by_cases hsame : id' = id
        · subst hsame
          simp at h'
        · rw [AList.lookup_erase_ne hsame] at h'
          exact h.named id' entry' h'
      · rw [← h.level id']
        by_cases hsame : id' = id
        · subst hsame
          simp [levelOf, hentry, hobserve]
        · simp [levelOf, AList.lookup_erase_ne hsame]
    · rw [if_neg hidle]
      exact h

theorem Tracks.evictIdle (h : Tracks e s) (now : Time) (order : RangeOrder) : Tracks e (evictIdle c s now order) :=
  List.foldlRecOn _ _ h fun _ hs id _ => hs.evictEntry now id

end Overrides

section Evaluations

/-- The level that the facts of a source tell, if they tell one. -/
def toldLevel (actionFacts : GoMap FactValue) : Option Level :=
  match activeRuntimeActionFact actionFacts ["enforce_traffic_drop", "enforce_access_deny",
      "enforce_network_quarantine", "enforce_identity_disable"] with
  | some _ => some .block
  | none => (activeRuntimeActionFact actionFacts ["enforce_traffic_rate_limit"]).map fun fact =>
      if parseFSMLevel fact.level = .observe then .hard else parseFSMLevel fact.level

theorem runtimeStateFromActionFacts_level (st : FsmState) (actionFacts : GoMap FactValue) :
    (runtimeStateFromActionFacts st actionFacts).map (·.level) = toldLevel actionFacts := by
  unfold runtimeStateFromActionFacts toldLevel
  cases activeRuntimeActionFact actionFacts ["enforce_traffic_drop", "enforce_access_deny",
    "enforce_network_quarantine", "enforce_identity_disable"] with
  | some fact => rfl
  | none => cases activeRuntimeActionFact actionFacts ["enforce_traffic_rate_limit"] <;> rfl

/-- The facts that a candidate is shown. -/
def factsShown (s : LoopState σ ρ) (target : SourceTarget) (now : Time) : GoMap FactValue :=
  (candidateFacts storeAnswers s.world.leases ⟨target.sourceID, target.subjectID⟩ now).1.actions

theorem projected_level {target : SourceTarget} (hid : target.id ≠ "") (st : FsmState) (now : Time) :
    (projected s target st now).level = (toldLevel (factsShown s target now)).getD st.level := by
  have hsource : ¬ SourceMetrics.sourceID ⟨target.sourceID, target.subjectID⟩ = "" := by
    unfold SourceTarget.id at hid
    by_cases hs : target.sourceID = ""
    · rw [if_pos hs] at hid
      simpa [SourceMetrics.sourceID, hs] using hid
    · simp [SourceMetrics.sourceID, hs]
  unfold projected projectRuntimePDPLeaseState
  rw [if_neg hsource, ← runtimeStateFromActionFacts_level { st with lastSeenWallTime := now }]
  simp only [candidateFacts, storeAnswers, factsShown]
  cases runtimeStateFromActionFacts _ _ <;> rfl

/-- What an evaluation does to the level of its source and to the levels enforced. -/
def evaluationChange (e : LevelledExecutor σ ρ) (c : LoopConfig) (target : SourceTarget) (answer : PdpAnswer)
    (now : Time) (w : NodeWorld σ ρ) : LevelChange :=
  match request c target answer now with
  | some ⟨res, .source t⟩ => e.change res w t c.pepParams
  | _ => .keeps

theorem processRuntimePDPDecisionForCandidate_change (target : SourceTarget) (current signal : FsmState)
    (answer : PdpAnswer) (now : Time) (w : NodeWorld σ ρ) :
    (processRuntimePDPDecisionForCandidate e.toBrokeredActionExecutor c target current signal answer now w).1.level =
        (evaluationChange e c target answer now w).level current.level ∧
      e.levelOn (processRuntimePDPDecisionForCandidate e.toBrokeredActionExecutor c target current signal answer
          now w).2 = (evaluationChange e c target answer now w).enforced (e.levelOn w) := by
  unfold processRuntimePDPDecisionForCandidate evaluationChange
  rcases request c target answer now with _ | ⟨res, t | t⟩
  · exact ⟨rfl, rfl⟩
  · obtain ⟨hlevel, hlevels⟩ := LevelledExecutor.applySource_change (e := e) answer.ids t current res c.pepParams now w
    dsimp only
    by_cases hfailed : (e.applySource answer.ids t current res c.pepParams now w).1.2.status = .failed
    · rw [if_pos hfailed] at hlevel ⊢
      exact ⟨hlevel, hlevels⟩
    · rw [if_neg hfailed] at hlevel ⊢
      exact ⟨hlevel, hlevels⟩
  · exact ⟨rfl, LevelledExecutor.applyRelationship_levels answer.ids t res now w⟩

/-- What a candidate's evaluation reports for it, and does, leaves its source recorded as enforced. -/
def CandidateAgrees (e : LevelledExecutor σ ρ) (c : LoopConfig) (now : Time) (s : LoopState σ ρ)
    (cand : Candidate) : Prop :=
  cand.target.id ≠ "" →
    (evaluationChange e c cand.target cand.answer now { s.world with clock := cand.answer.clock }).Agrees
      (e.levelOn s.world) cand.target.id
      ((toldLevel (factsShown s cand.target now)).getD (e.levelOn s.world cand.target.id))

/-- The same of a source that was not observed in this pass. -/
def SweepAgrees (e : LevelledExecutor σ ρ) (c : LoopConfig) (processed : List String) (now : Time)
    (answer : String → PdpAnswer) (s : LoopState σ ρ) (id : String) : Prop :=
  ∀ entry, s.entries.lookup id = some entry → entry.state.level ≠ .observe → id ∉ processed →
    (evaluationChange e c (sweepTarget id entry.target) (answer id) now
      { s.world with clock := (answer id).clock }).Agrees (e.levelOn s.world) id (e.levelOn s.world id)

/-- An evaluation keeps the record true exactly when it agrees. -/
theorem processCandidate_tracks_iff (h : Tracks e s) (now : Time) (cand : Candidate) :
    Tracks e (processCandidate e.toBrokeredActionExecutor c s now cand) ↔ CandidateAgrees e c now s cand := by
  unfold processCandidate CandidateAgrees
  by_cases hid : cand.target.id = ""
  · simp only [hid, if_true, ne_eq, not_true, false_imp_iff, iff_true]
    exact h
  rw [if_neg hid]
  let st := projected s cand.target (ensure s cand.target.id cand.target).state now
  have hst : st.level = (toldLevel (factsShown s cand.target now)).getD (e.levelOn s.world cand.target.id) := by
    rw [projected_level hid, ensure_level, h.level]
  obtain ⟨hlevel, hlevels⟩ := processRuntimePDPDecisionForCandidate_change (e := e) (c := c) cand.target st
    (evaluateFSMIntent cand.metrics st now c.fsm).signalState cand.answer now
    { s.world with clock := cand.answer.clock }
  rw [hst] at hlevel
  dsimp only
  generalize processRuntimePDPDecisionForCandidate e.toBrokeredActionExecutor c cand.target st
    (evaluateFSMIntent cand.metrics st now c.fsm).signalState cand.answer now
    { s.world with clock := cand.answer.clock } = out at hlevel hlevels ⊢
  obtain ⟨next, world⟩ := out
  have hwrite := h.write_iff (w := world) (show SourceTarget.id (SourceEntry.mk cand.target next).target =
    cand.target.id from rfl)
  rw [hlevels] at hwrite
  refine hwrite.trans ?_
  rw [hlevel]
  exact (LevelChange.update_eq_enforced_iff _).trans ⟨fun h _ => h, fun h => h hid⟩

/-- The same of the evaluation of a source that was not observed. -/
theorem sweepEntry_tracks_iff (h : Tracks e s) (processed : List String) (now : Time)
    (answer : String → PdpAnswer) (id : String) :
    Tracks e (sweepEntry e.toBrokeredActionExecutor c s processed now answer id) ↔
      SweepAgrees e c processed now answer s id := by
  unfold sweepEntry SweepAgrees
  cases hentry : s.entries.lookup id with
  | none => exact ⟨fun _ _ h' => absurd h' (by simp), fun _ => h⟩
  | some entry =>
    dsimp only
    by_cases hskip : entry.state.level = .observe ∨ id ∈ processed
    · rw [if_pos hskip]
      refine ⟨fun _ entry' h' hlevel hprocessed => ?_, fun _ => h⟩
      obtain rfl := Option.some.inj h'
      exact absurd hskip (not_or.mpr ⟨hlevel, hprocessed⟩)
    rw [if_neg hskip]
    obtain ⟨hlevel, hprocessed⟩ := not_or.mp hskip
    have hst : entry.state.level = e.levelOn s.world id := by rw [← h.level, levelOf_of_lookup hentry]
    obtain ⟨hnext, hlevels⟩ := processRuntimePDPDecisionForCandidate_change (e := e) (c := c)
      (sweepTarget id entry.target) entry.state (evaluateFSMIntent {} entry.state now c.fsm).signalState (answer id)
      now { s.world with clock := (answer id).clock }
    rw [hst] at hnext
    generalize processRuntimePDPDecisionForCandidate e.toBrokeredActionExecutor c (sweepTarget id entry.target)
      entry.state (evaluateFSMIntent {} entry.state now c.fsm).signalState (answer id) now
      { s.world with clock := (answer id).clock } = out at hnext hlevels ⊢
    obtain ⟨next, world⟩ := out
    have hwrite := h.write_iff (w := world) (show SourceTarget.id (SourceEntry.mk entry.target next).target = id from
      h.named id entry hentry)
    rw [hlevels] at hwrite
    refine hwrite.trans ?_
    rw [hnext]
    refine (LevelChange.update_eq_enforced_iff _).trans ⟨fun h' entry' hsome _ _ => ?_, fun h' => ?_⟩
    · obtain rfl := Option.some.inj hsome
      exact h'
    · exact h' entry rfl hlevel hprocessed

/-- The sweep of the leases reverts none of a source that is recorded above observe. -/
def ExpiryAgrees (c : LoopConfig) (now clock : Time) (s : LoopState σ ρ) : Prop :=
  s.lastBrokerRevert = 0 ∨ c.interval ≤ now - s.lastBrokerRevert →
    ∀ source l, LevelledExecutor.RevertedFor now { s.world with clock } source l → s.levelOf source = .observe

theorem Tracks.revertExpired (h : Tracks e s) {now clock : Time} (hagrees : ExpiryAgrees c now clock s) :
    Tracks e (revertExpired e.toBrokeredActionExecutor c s now clock) := by
  unfold LoopState.revertExpired
  by_cases hdue : s.lastBrokerRevert = 0 ∨ c.interval ≤ now - s.lastBrokerRevert
  · rw [if_pos hdue]
    refine h.congr rfl fun source hlevel => ?_
    rcases LevelledExecutor.revertExpired_levels (e := e) now { s.world with clock } source with
      hkept | ⟨hobserve, l, hl⟩
    · exact hkept
    · exact hobserve.trans ((hagrees hdue source l hl).symm.trans hlevel)
  · rw [if_neg hdue]
    exact h

end Evaluations

section Passes

/-- Every evaluation of a pass agrees with what is enforced, and so does its sweep of the leases. -/
structure TickAgrees (e : LevelledExecutor σ ρ) (c : LoopConfig) (s : LoopState σ ρ) (tk : Tick) : Prop where
  candidates : Along (fun s cand => processCandidate e.toBrokeredActionExecutor c s tk.now cand)
    (CandidateAgrees e c tk.now) (prologue e.toBrokeredActionExecutor c s tk) tk.cands
  sweep : Along
    (fun s id => sweepEntry e.toBrokeredActionExecutor c s (tk.cands.map (·.target.id)) tk.now tk.answer id)
    (SweepAgrees e c (tk.cands.map (·.target.id)) tk.now tk.answer) (evaluated e.toBrokeredActionExecutor c s tk)
    (tk.order.visit (evaluated e.toBrokeredActionExecutor c s tk).entries.keys)
  expiry : ExpiryAgrees c tk.now tk.clock (swept e.toBrokeredActionExecutor c s tk)

theorem Tracks.tick (h : Tracks e s) {tk : Tick} (hagrees : tk.observed → TickAgrees e c s tk) :
    Tracks e (tick e.toBrokeredActionExecutor c s tk) := by
  have hprologue := h.prologue (c := c) tk
  unfold LoopState.tick
  by_cases hobserved : tk.observed
  · rw [if_neg (not_not.mpr hobserved)]
    obtain ⟨hcands, hsweep, hexpiry⟩ := hagrees hobserved
    have hevaluated : Tracks e (evaluated e.toBrokeredActionExecutor c s tk) :=
      hcands.invariant hprologue fun hs hc => (processCandidate_tracks_iff hs tk.now _).mpr hc
    have hswept : Tracks e (swept e.toBrokeredActionExecutor c s tk) :=
      hsweep.invariant hevaluated fun hs hc => (sweepEntry_tracks_iff hs _ tk.now tk.answer _).mpr hc
    exact (hswept.revertExpired hexpiry).evictIdle tk.now tk.order
  · rw [if_pos hobserved]
    exact hprologue

/-- The loop's runs, one pass at a time. -/
def TickStep (e : LevelledExecutor σ ρ) (c : LoopConfig) (s : LoopState σ ρ) (tk : Tick) (s' : LoopState σ ρ) : Prop :=
  s' = tick e.toBrokeredActionExecutor c s tk

/-- An empty table, over a PEP that enforces nothing. -/
def Started (e : LevelledExecutor σ ρ) (s : LoopState σ ρ) : Prop :=
  s.entries = ∅ ∧ ∀ source, e.levelOn s.world source = .observe

theorem Started.tracks (h : Started e s) : Tracks e s := by
  refine ⟨fun id entry hentry => ?_, fun id => ?_⟩
  · rw [h.1] at hentry
    simp at hentry
  · rw [h.2, levelOf, h.1]
    simp

/-- In every run whose passes agree with what is enforced, the table records at the end of each pass
what the PEP enforces. -/
theorem run_tracks {s₀ : LoopState σ ρ} {ticks : List Tick} (h₀ : Started e s₀)
    (hrun : Run (Guarded (fun s tk => tk.observed → TickAgrees e c s tk) (TickStep e c)) s₀ ticks s) (source : String) :
    s.levelOf source = e.levelOn s.world source := by
  refine (hrun.invariant h₀.tracks fun hs hstep => ?_).level source
  obtain ⟨hagrees, rfl⟩ := hstep
  exact hs.tick hagrees

end Passes

section BlockedPeer

/-- The text that the lease of the block is fenced with. -/
def blockText : String :=
  "kliq-source-pep|source:10.0.0.1|enforce.traffic.drop|block|decision-1|lease-00000000-0000-4000-8000-000000000001"

def blockDigest (text : String) : String :=
  if text = blockText then "204c5dfed000b463f21357dd66edcefe73ecc932157d3049cd22ab4278b06706" else ""

def blockingNode : LevelledExecutor (GoMap Enforcement) Unit where
  toReliableExecutor :=
    recordingExecutor { nodeID := "node-1", adapterID := "kliq-source-pep", sha256 := blockDigest }
  transition_level h := by
    obtain rfl := Except.ok.inj h
    rfl

def blockingConfig : LoopConfig := { severities := fun _ => none, resolver := managedResolver }

def blockingStart : LoopState (GoMap Enforcement) Unit :=
  { world := ⟨Keyed.Table.empty, 63864979200000000000, { adapter := ∅ }, { adapter := () }⟩ }

def peer : SourceTarget := { sourceID := "10.0.0.1" }

/-- The peer is blocked for one minute. -/
def blockPass : Tick where
  now := 63864979200000000000
  clock := 63864979200000000000
  order := ⟨id, fun _ => .refl _⟩
  cands :=
    [{ target := peer
       answer := {
         decision := some {
           effect := "apply"
           action := { capability := "enforce.traffic.drop", level := "block", ttl := 60 * Duration.second } }
         ids := ⟨"1", "00000000-0000-4000-8000-000000000001"⟩
         clock := 63864979200000000000 } }]

/-- A second after the block has expired. -/
def expiryPass : Tick where
  now := 63864979261000000000
  clock := 63864979261000000000
  order := ⟨id, fun _ => .refl _⟩

/-- The operator takes the peer back while its lease is active, and the peer is observed again. -/
def feedbackPass : Tick where
  now := 63864979201000000000
  clock := 63864979201000000000
  order := ⟨id, fun _ => .refl _⟩
  feedback := { active := true, matchSource := fun id => id = "10.0.0.1" }
  cands := [{ target := peer, answer := { clock := 63864979201000000000 } }]

def pass (s : LoopState (GoMap Enforcement) Unit) (tk : Tick) : LoopState (GoMap Enforcement) Unit :=
  tick blockingNode.toBrokeredActionExecutor blockingConfig s tk

def blockedState : LoopState (GoMap Enforcement) Unit := pass blockingStart blockPass

theorem blocked_facts :
    (blockedState.levelOf "10.0.0.1" = .block ∧ blockingNode.levelOn blockedState.world "10.0.0.1" = .block) ∧
    ((pass blockedState expiryPass).levelOf "10.0.0.1" = .block ∧
      blockingNode.levelOn (pass blockedState expiryPass).world "10.0.0.1" = .observe ∧
      (pass blockedState expiryPass).activeBlocks = 1) ∧
    (pass blockedState feedbackPass).levelOf "10.0.0.1" = .block ∧
      blockingNode.levelOn (pass blockedState feedbackPass).world "10.0.0.1" = .observe := by
  decide +kernel

theorem blockPass_agrees : TickAgrees blockingNode blockingConfig blockingStart blockPass where
  candidates := ⟨fun _ => by decide +kernel, trivial⟩
  sweep := by
    have hkeys : (evaluated blockingNode.toBrokeredActionExecutor blockingConfig blockingStart blockPass).entries.keys =
        ["10.0.0.1"] := by decide +kernel
    rw [hkeys]
    exact ⟨fun entry _ _ hprocessed => absurd (by decide +kernel) hprocessed, trivial⟩
  expiry := by
    intro _ source l hl
    have hnone : (swept blockingNode.toBrokeredActionExecutor blockingConfig blockingStart
        blockPass).world.leases.listExpiredActionLeases blockPass.now = [] :=
      List.isEmpty_iff.mp (by decide +kernel)
    have hexpired := hl.expired
    rw [hnone] at hexpired
    simp at hexpired

theorem blocking_started : Started blockingNode blockingStart := ⟨rfl, fun _ => rfl⟩

/-- The block is recorded as it is enforced. -/
theorem blocked_tracked : blockedState.levelOf "10.0.0.1" = blockingNode.levelOn blockedState.world "10.0.0.1" :=
  run_tracks blocking_started (.singleton ⟨fun _ => blockPass_agrees, rfl⟩) "10.0.0.1"

/-- The source is still recorded as blocked when its lease has expired and the PEP observes it. -/
theorem blocked_untracked : ¬ ∀ ticks s, Run (TickStep blockingNode blockingConfig) blockingStart ticks s →
    ∀ source, s.levelOf source = blockingNode.levelOn s.world source := by
  intro h
  obtain ⟨-, ⟨hlevel, henforced, -⟩, -⟩ := blocked_facts
  have htracked := h [blockPass, expiryPass] _ (.cons rfl (.singleton rfl)) "10.0.0.1"
  exact absurd (hlevel.symm.trans (htracked.trans henforced)) (by decide)

/-- The lease that an override leaves active tells the next candidate that its source is blocked. -/
theorem override_undone : ∃ s, Run (TickStep blockingNode blockingConfig) blockingStart [blockPass, feedbackPass] s ∧
    s.levelOf "10.0.0.1" = .block ∧ blockingNode.levelOn s.world "10.0.0.1" = .observe :=
  ⟨_, .cons rfl (.singleton rfl), blocked_facts.2.2⟩

end BlockedPeer

end LoopState

end Kernloom
