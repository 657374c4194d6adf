import Kernloom.Channels
import Kernloom.FsmTicks
import Kernloom.LocalRisk
import Kernloom.TrackedLevels

/-! Violations of the frozen graph. Their signals put strikes into a channel; every pass of the main loop
drains it after its cut to the top sources, and the sources of the strikes are evaluated with the others. -/

namespace Kernloom

open Channels Transition

section Candidates

/-- What an adapter observed of a source. -/
structure SourceObservation where
  sourceID : String := ""
  subjectID : String := ""
  score : ℚ := 0
  metrics : GoMap ℚ := ∅
  attributes : GoMap String := ∅

/-- What the loop evaluates a source on. -/
structure Metrics where
  target : SourceTarget
  score : ℚ := 0
  signals : GoMap ℚ := ∅

namespace Metrics

variable (m : Metrics)

def signalValue (id : String) : ℚ := GoMap.get m.signals id

def primarySortValue : ℚ := m.signalValue "network.packets_per_second"

def enforcementFeedbackRate : ℚ := m.signalValue "network.rate_limit_drop_rate"

def toFSMMetrics : FsmMetrics := ⟨m.enforcementFeedbackRate, m.score⟩

/-- By score, then by packets. -/
def Before (m' : Metrics) : Prop :=
  m'.score < m.score ∨ (m.score = m'.score ∧ m'.primarySortValue < m.primarySortValue)

instance (m m' : Metrics) : Decidable (m.Before m') := inferInstanceAs (Decidable (_ ∨ _))

end Metrics

def metricsFromObservation (obs : SourceObservation) : Option Metrics :=
  let sourceID := if obs.sourceID = "" then obs.subjectID else obs.sourceID
  if sourceID = "" then none
  else some ⟨⟨sourceID, obs.subjectID, obs.attributes⟩, obs.score, obs.metrics⟩

/-- A sort of the candidates; those that rank alike come in any order. -/
structure Ranking where
  arrange : List Metrics → List Metrics
  perm : ∀ ms, (arrange ms).Perm ms
  ranked : ∀ ms, (arrange ms).Pairwise fun m m' => ¬ m'.Before m

end Candidates

section Strikes

structure GraphStrikeMsg extends GraphStrike where
  signalScore : Int
  addToCands : Bool

def graphStrikesFromScore (score : Int) : Int := if 90 ≤ score then 3 else if 75 ≤ score then 2 else 1

def isGraphBaselineSignal (type : String) : Bool :=
  type = "graph.edge_metric_deviation" || type = "graph.edge_metric_peak_exceeds"

variable (ch : Channel GraphStrikeMsg) (sig : Signal)

def sendStrike (subjectID : String) (n : Int) (forceBlock addToCands : Bool) (signalScore : Int) :
    Channel GraphStrikeMsg :=
  if subjectID = "" then ch else ch.offer ⟨⟨subjectID, n, forceBlock⟩, signalScore, addToCands⟩

/-- The strikes that a signal sends. -/
def handleRuntimeSignal : Channel GraphStrikeMsg :=
  let ch :=
    if sig.type = "graph.new_edge_after_freeze" ∧ sig.subject.id ≠ "" then
      sendStrike ch sig.subject.id (graphStrikesFromScore sig.score) (90 ≤ sig.score) true sig.score
    else ch
  if isGraphBaselineSignal sig.type ∧ sig.subject.id ≠ "" then
    sendStrike ch sig.subject.id 0 false true sig.score
  else ch

/-- A new edge counts by its score and forces a block from 90 on; a deviation only has its source looked at. -/
def strikeOf : Option GraphStrikeMsg :=
  if sig.subject.id = "" then none
  else if sig.type = "graph.new_edge_after_freeze" then
    some ⟨⟨sig.subject.id, graphStrikesFromScore sig.score, 90 ≤ sig.score⟩, sig.score, true⟩
  else if isGraphBaselineSignal sig.type then some ⟨⟨sig.subject.id, 0, false⟩, sig.score, true⟩
  else none

def graphFSMSeverityFromScore (score : Int) (cfg : FsmConfig) : ℚ :=
  if 90 ≤ score ∧ 0 < cfg.sevStep3 then cfg.sevStep3
  else if 75 ≤ score ∧ 0 < cfg.sevStep2 then cfg.sevStep2
  else if 0 < cfg.sevStep1 then cfg.sevStep1
  else 1

variable (gs : GraphStrikeMsg) (cfg : FsmConfig)

def markSignals (signals : GoMap ℚ) : GoMap ℚ :=
  (signals.insert "graph.signal_score" (gs.signalScore : ℚ)).insert "graph.fsm_severity"
    (graphFSMSeverityFromScore gs.signalScore cfg)

def graphStrikeMetrics (target : SourceTarget) : Metrics :=
  ⟨target, graphFSMSeverityFromScore gs.signalScore cfg, markSignals gs cfg ∅⟩

def Metrics.raise (m : Metrics) : Metrics :=
  let severity := graphFSMSeverityFromScore gs.signalScore cfg
  { m with
    score := if m.score < severity then severity else m.score
    signals := markSignals gs cfg m.signals }

/-- The first candidate that is the source is raised to the severity of the signal. -/
def promoteCandidateForGraphStrike : List Metrics → Option (List Metrics)
  | [] => none
  | m :: ms =>
    if m.target.id = gs.sourceID then some (m.raise gs cfg :: ms)
    else (promoteCandidateForGraphStrike ms).map (m :: ·)

end Strikes

section Passes

/-- What one pass of the loop meets: what the adapters report, and what answers the evaluations. -/
structure Pass where
  now : Time
  clock : Time := 0
  reset : Bool := false
  feedback : FeedbackFilter := {}
  observeFailed : Bool := false
  observedAny : Bool := true
  observed : List SourceObservation := []
  ranking : Ranking
  order : RangeOrder
  answers : Nat → PdpAnswer := fun _ => {}
  answer : String → PdpAnswer := fun _ => {}

def Pass.Idle (p : Pass) : Prop := p.observeFailed ∧ ¬ p.observedAny

instance (p : Pass) : Decidable p.Idle := inferInstanceAs (Decidable (_ ∧ _))

variable {σ ρ : Type} (e : BrokeredActionExecutor σ ρ) (c : LoopConfig) (topN : Nat)

/-- A strike on the table and on the candidates. -/
def applyGraphStrike (now : Time) (d : LoopState σ ρ × List Metrics) (gs : GraphStrikeMsg) :
    LoopState σ ρ × List Metrics :=
  let target := (LoopState.ensure d.1 gs.sourceID (sourceTargetFromID gs.sourceID)).target
  (LoopState.applyGraphStrike c d.1 now gs.toGraphStrike,
    if gs.sourceID = "" ∨ ¬ gs.addToCands then d.2
    else (promoteCandidateForGraphStrike gs c.fsm d.2).getD (d.2 ++ [graphStrikeMetrics gs c.fsm target]))

namespace Pass

variable (s : LoopState σ ρ) (p : Pass) (taken : List GraphStrikeMsg)

/-- The pass without its candidates. -/
def base : Tick where
  now := p.now
  clock := p.clock
  reset := p.reset
  feedback := p.feedback
  observed := ¬ p.Idle
  order := p.order
  answer := p.answer

def kept : List Metrics := (p.ranking.arrange (p.observed.filterMap metricsFromObservation)).take topN

def candidates (ms : List Metrics) : List Candidate :=
  ms.zipIdx.map fun m => ⟨m.1.target, m.1.toFSMMetrics, p.answers m.2⟩

def drain : LoopState σ ρ × List Metrics :=
  taken.foldl (applyGraphStrike c p.now) (LoopState.prologue e c s p.base, p.kept topN)

/-- The pass with the strikes it drained. -/
def tick : Tick :=
  { p.base with
    strikes := taken.map (·.toGraphStrike)
    cands := p.candidates (p.drain e c topN s taken).2 }

end Pass

/-- A pass that was made: the loop before it, and the strikes it drained. -/
structure PassRecord (σ ρ : Type) where
  loop : LoopState σ ρ
  pass : Pass
  taken : List GraphStrikeMsg

/-- The channel of strikes between the consumer of signals and the loop, and the pass that drains it. -/
structure StrikeWorld (σ ρ : Type) where
  strikes : Channel GraphStrikeMsg
  loop : LoopState σ ρ
  draining : Option (Pass × List GraphStrikeMsg)
  passes : List (PassRecord σ ρ)

inductive StrikeEvent
  | signal (sig : Signal)
  | observe (p : Pass)
  | take
  | drained

namespace StrikeWorld

def start (w : NodeWorld σ ρ) : StrikeWorld σ ρ := ⟨.make 512, { world := w }, none, []⟩

/-- One event. A pass in which no adapter answered leaves the strikes in the channel. -/
def step (w : StrikeWorld σ ρ) : StrikeEvent → Option (StrikeWorld σ ρ)
  | .signal sig => some { w with strikes := handleRuntimeSignal w.strikes sig }
  | .observe p =>
    if w.draining.isSome then none
    else if p.Idle then some { w with loop := LoopState.tick e c w.loop p.base }
    else some { w with draining := some (p, []) }
  | .take =>
    w.draining.bind fun d => w.strikes.receive.map fun r =>
      { w with strikes := r.2, draining := some (d.1, d.2 ++ [r.1]) }
  | .drained =>
    w.draining.bind fun d =>
      if w.strikes.queue = [] then some { w with
        loop := LoopState.tick e c w.loop (d.1.tick e c topN w.loop d.2)
        draining := none
        passes := w.passes ++ [⟨w.loop, d.1, d.2⟩] }
      else none

def Step (w : StrikeWorld σ ρ) (ev : StrikeEvent) (w' : StrikeWorld σ ρ) : Prop := w.step e c topN ev = some w'

/-- What the pass in progress took out of the channel. -/
def taking (w : StrikeWorld σ ρ) : List GraphStrikeMsg := w.draining.elim [] (·.2)

end StrikeWorld

/-- The signals that the consumer was handed. -/
def signalsOf (es : List StrikeEvent) : List Signal :=
  es.filterMap fun
    | .signal sig => some sig
    | _ => none

end Passes

section Sending

theorem handleRuntimeSignal_eq (ch : Channel GraphStrikeMsg) (sig : Signal) :
    handleRuntimeSignal ch sig = (strikeOf sig).elim ch ch.offer := by
  unfold handleRuntimeSignal strikeOf sendStrike
  by_cases hid : sig.subject.id = ""
  · simp [hid]
  · by_cases hedge : sig.type = "graph.new_edge_after_freeze"
    · have hbaseline : ¬ isGraphBaselineSignal "graph.new_edge_after_freeze" = true := by decide
      simp [hid, hedge, hbaseline]
    · by_cases hbaseline : isGraphBaselineSignal sig.type <;> simp [hid, hedge, hbaseline]

theorem strikeOf_eq_some {sig : Signal} {gs : GraphStrikeMsg} (h : strikeOf sig = some gs) :
    gs.sourceID = sig.subject.id ∧ gs.sourceID ≠ "" ∧ 0 ≤ gs.n ∧ gs.addToCands ∧ gs.signalScore = sig.score := by
  unfold strikeOf at h
  split_ifs at h with hid hedge hbaseline
  · obtain rfl := Option.some.inj h
    refine ⟨rfl, hid, ?_, rfl, rfl⟩
    simp only [graphStrikesFromScore]
    split_ifs <;> decide
  · obtain rfl := Option.some.inj h
    exact ⟨rfl, hid, le_rfl, rfl, rfl⟩

end Sending

section Promotion

variable {gs gs' : GraphStrikeMsg} {cfg : FsmConfig} {ms ms' : List Metrics} {m : Metrics} {id : String}

/-- The first candidate that is a source. -/
def candidateOf (id : String) (ms : List Metrics) : Option Metrics := ms.find? fun m => m.target.id = id

theorem candidateOf_cons (id : String) (m : Metrics) (ms : List Metrics) :
    candidateOf id (m :: ms) = if m.target.id = id then some m else candidateOf id ms := by
  unfold candidateOf
  by_cases h : m.target.id = id <;> simp [h]

theorem candidateOf_append (id : String) (ms ms' : List Metrics) :
    candidateOf id (ms ++ ms') = (candidateOf id ms).or (candidateOf id ms') := List.find?_append

theorem promote_eq_none (h : promoteCandidateForGraphStrike gs cfg ms = none) : candidateOf gs.sourceID ms = none := by
  induction ms with
  | nil => rfl
  | cons m ms ih =>
    unfold promoteCandidateForGraphStrike at h
    split_ifs at h with hid
    rw [candidateOf_cons, if_neg hid]
    exact ih (Option.map_eq_none_iff.mp h)

theorem promote_eq_some (h : promoteCandidateForGraphStrike gs cfg ms = some ms') :
    ∃ m, candidateOf gs.sourceID ms = some m ∧ ∀ id, candidateOf id ms' =
      if id = gs.sourceID then some (m.raise gs cfg) else candidateOf id ms := by
  induction ms generalizing ms' with
  | nil => cases h
  | cons m ms ih =>
    unfold promoteCandidateForGraphStrike at h
    by_cases hid : m.target.id = gs.sourceID
    · rw [if_pos hid] at h
      obtain rfl := Option.some.inj h
      refine ⟨m, by rw [candidateOf_cons, if_pos hid], fun id => ?_⟩
      have hraised : (m.raise gs cfg).target.id = gs.sourceID := hid
      rw [candidateOf_cons, candidateOf_cons, hraised, hid]
      by_cases hsame : gs.sourceID = id
      · rw [if_pos hsame, if_pos hsame.symm]
      · rw [if_neg hsame, if_neg fun heq => hsame heq.symm, if_neg hsame]
    · rw [if_neg hid] at h
      obtain ⟨rest, hrest, rfl⟩ := Option.map_eq_some_iff.mp h
      obtain ⟨found, hfound, hothers⟩ := ih hrest
      refine ⟨found, by rw [candidateOf_cons, if_neg hid, hfound], fun id => ?_⟩
      rw [candidateOf_cons, candidateOf_cons, hothers]
      by_cases hsame : id = gs.sourceID
      · subst hsame
        rw [if_neg hid, if_pos rfl, if_pos rfl]
      · simp only [if_neg hsame]

theorem score_le_raise (m : Metrics) : m.score ≤ (m.raise gs cfg).score ∧
    graphFSMSeverityFromScore gs.signalScore cfg ≤ (m.raise gs cfg).score := by
  unfold Metrics.raise
  dsimp only
  split_ifs with h
  · exact ⟨h.le, le_rfl⟩
  · exact ⟨le_rfl, not_lt.mp h⟩

/-- The severity that every source of a strike is raised to reaches the first step. -/
theorem sevStep1_le_severity (h : cfg.sevStep1 ≤ cfg.sevStep2 ∧ cfg.sevStep1 ≤ cfg.sevStep3) (score : Int) :
    cfg.sevStep1 ≤ graphFSMSeverityFromScore score cfg := by
  unfold graphFSMSeverityFromScore
  split_ifs with hhigh hmiddle hlow
  · exact h.2
  · exact h.1
  · exact le_rfl
  · exact (not_lt.mp hlow).trans zero_le_one

end Promotion

namespace Fsm

variable {m : FsmMetrics} {st : FsmState} {now : Time} {cfg : FsmConfig}

theorem strikes_le_count (m : FsmMetrics) (st : FsmState) (now : Time) (cfg : FsmConfig) :
    st.strikes ≤ (count m st now cfg).strikes + 1 := by
  have hstreaks : (streaks m st cfg).strikes = st.strikes := by rw [streaks_eq]
  rw [count_strikes, ← hstreaks]
  unfold strike
  split_ifs <;> grind

theorem target_of_forced (hforce : st.forceBlock) (hstrikes : cfg.blockAt ≤ st.strikes) :
    target st now cfg = .block := by
  have hdesired : desired st cfg = .block := by
    unfold desired strikeTarget
    simp [hstrikes, hforce]
  have hnot : ¬ Level.block < st.level := by
    cases st.level <;> decide
  simp [target, hdesired, holdBlock, gateBlock, hnot, hforce]

/-- Nothing lapses in a tick of high severity. -/
theorem not_lapsed_of_high (hhigh : highTick m cfg) (hdown : 0 < cfg.downNeed) (level : Level) (minHold : Duration) :
    ¬ lapsed (count m st now cfg) now cfg level minHold := by
  rintro ⟨-, -, -, hquiet, -⟩
  rw [count_downStreak, streaks, if_pos hhigh] at hquiet
  exact absurd hquiet (not_le.mpr hdown)

theorem evaluateFSMIntent_of_high (st : FsmState) (now : Time) (hhigh : highTick m cfg) (hdown : 0 < cfg.downNeed) :
    evaluateFSMIntent m st now cfg =
      if target (count m st now cfg) now cfg ≠ st.level ∧ st.cooldownUntil < now then
        ⟨{ syntheticFSMTransition (count m st now cfg) (target (count m st now cfg) now cfg) now cfg with
            forceBlock := false }, target (count m st now cfg) now cfg, true⟩
      else ⟨count m st now cfg, st.level, false⟩ := by
  have hheld : ∀ level minHold, ¬ lapsed (count m st now cfg) now cfg level minHold :=
    not_lapsed_of_high hhigh hdown
  unfold evaluateFSMIntent advance
  simp only [stepDown, if_neg (hheld _ _), pure_bind, count_level, count_cooldownUntil]
  split_ifs with hchange
  · rfl
  · simp [pure, StateT.pure, count_level]

end Fsm

section Intents

variable {m : FsmMetrics} {st : FsmState} {now : Time} {cfg : FsmConfig}

/-- An evaluation asks for a block, but for a source that is cooling down; that one keeps the force. -/
structure AsksBlock (m : FsmMetrics) (st : FsmState) (now : Time) (cfg : FsmConfig) : Prop where
  asks : st.cooldownUntil < now → (evaluateFSMIntent m st now cfg).proposedLevel = .block
  waits : now ≤ st.cooldownUntil → (evaluateFSMIntent m st now cfg).proposedLevel = st.level ∧
    (evaluateFSMIntent m st now cfg).signalState.forceBlock

theorem asksBlock_of_forced (hhigh : Fsm.highTick m cfg) (hdown : 0 < cfg.downNeed) (hforce : st.forceBlock)
    (hstrikes : cfg.blockAt < st.strikes) : AsksBlock m st now cfg := by
  have htarget : Fsm.target (Fsm.count m st now cfg) now cfg = .block := by
    have hcount := Fsm.strikes_le_count m st now cfg
    exact Fsm.target_of_forced (by rw [Fsm.count_forceBlock]; exact hforce) (by omega)
  have hintent := Fsm.evaluateFSMIntent_of_high st now hhigh hdown
  rw [htarget] at hintent
  constructor
  · intro hcool
    rw [hintent]
    split_ifs with hchange
    · rfl
    · exact (not_not.mp fun hne => hchange ⟨hne, hcool⟩).symm
  · intro hcooling
    rw [hintent, if_neg fun hchange => absurd hchange.2 (not_lt.mpr hcooling)]
    exact ⟨rfl, by rw [Fsm.count_forceBlock]; exact hforce⟩

end Intents

namespace LoopState

variable {σ ρ : Type} {e : BrokeredActionExecutor σ ρ} {c : LoopConfig} {s s' : LoopState σ ρ} {id : String}
  {entry : SourceEntry}

/-- Every entry is kept under its own source. -/
def Named (s : LoopState σ ρ) : Prop := ∀ id entry, s.entries.lookup id = some entry → entry.target.id = id

section Names

theorem Named.congr (h : Named s) (hs' : s'.entries = s.entries) : Named s' :=
  fun id entry hentry => h id entry (hs' ▸ hentry)

theorem Named.write (h : Named s) {w : NodeWorld σ ρ} (hid : entry.target.id = id) :
    Named { s with entries := s.entries.insert id entry, world := w } := by
  intro id' entry' hentry
  dsimp only at hentry
  by_cases hsame : id' = id
  · subst hsame
    rw [AList.lookup_insert] at hentry
    rw [← Option.some.inj hentry]
    exact hid
  · rw [AList.lookup_insert_ne hsame] at hentry
    exact h id' entry' hentry

theorem Named.resetEntry (h : Named s) (now : Time) (id : String) : Named (resetEntry e c s now id) := by
  unfold LoopState.resetEntry
  cases hentry : s.entries.lookup id with
  | none => exact h
  | some entry =>
    dsimp only
    split_ifs
    · exact h
    · refine h.write ?_
      exact h id entry hentry

theorem Named.feedbackFrom (h : Named s) (now : Time) (matchSource : String → Bool) (budget : Int)
    (ids : List String) : Named (feedbackFrom e c now matchSource budget s ids) := by
  induction ids generalizing budget s with
  | nil => exact h
  | cons id ids ih =>
    unfold LoopState.feedbackFrom
    cases hentry : s.entries.lookup id with
    | none => exact ih h _
    | some entry =>
      dsimp only
      by_cases hskip : entry.state.level = .observe ∨ ¬ matchSource id
      · rw [if_pos hskip]
        exact ih h _
      · rw [if_neg hskip]
        by_cases hspent : c.feedbackSweep ∧ budget ≤ 0
        · rw [if_pos hspent]
          exact h
        · rw [if_neg hspent]
          refine ih (h.write ?_) _
          exact h id entry hentry

theorem Named.applyFeedback (h : Named s) (now : Time) (fb : FeedbackFilter) (order : RangeOrder) :
    Named (applyFeedback e c s now fb order) := by
  unfold LoopState.applyFeedback
  by_cases hoff : ¬ fb.active
  · rw [if_pos hoff]
    exact h
  · rw [if_neg hoff]
    by_cases hdue : c.feedbackSweep ∧ (c.feedbackMax ≤ 0 ∨ c.feedbackEvery ≤ 0 ∨ ¬ fb.beginSweep)
    · rw [if_pos hdue]
      exact h
    · rw [if_neg hdue]
      exact h.feedbackFrom now _ _ _

theorem Named.ensure (h : Named s) {target : SourceTarget} (htarget : target.id = id) :
    (ensure s id target).target.id = id := by
  unfold LoopState.ensure
  cases hentry : s.entries.lookup id with
  | none => exact htarget
  | some entry =>
    dsimp only
    split_ifs
    · exact htarget
    · exact h id entry hentry

theorem sourceTargetFromID_id (hid : id ≠ "") : (sourceTargetFromID id).id = id := if_neg hid

theorem Named.applyGraphStrike (h : Named s) (now : Time) (gs : GraphStrike) :
    Named (applyGraphStrike c s now gs) := by
  unfold LoopState.applyGraphStrike
  split_ifs with hid
  · exact h
  · refine h.write ?_
    exact h.ensure (sourceTargetFromID_id hid)

theorem Named.prologue (h : Named s) (tk : Tick) : Named (prologue e c s tk) := by
  have hclock : Named { s with world := { s.world with clock := tk.clock } } := h.congr rfl
  have hreset : Named (if tk.reset then reset e c { s with world := { s.world with clock := tk.clock } } tk.now
      tk.order else { s with world := { s.world with clock := tk.clock } }) := by
    split_ifs
    · exact List.foldlRecOn _ _ hclock fun _ hs id _ => hs.resetEntry tk.now id
    · exact hclock
  have hfeedback := hreset.applyFeedback (e := e) (c := c) tk.now tk.feedback tk.order
  unfold LoopState.prologue
  dsimp only
  by_cases hobserved : tk.observed
  · rw [if_pos hobserved]
    exact List.foldlRecOn _ _ hfeedback fun _ hs gs _ => hs.applyGraphStrike tk.now gs
  · rw [if_neg hobserved]
    exact hfeedback

theorem Named.processCandidate (h : Named s) (now : Time) (cand : Candidate) :
    Named (processCandidate e c s now cand) := by
  unfold LoopState.processCandidate
  dsimp only
  split_ifs
  · exact h
  · refine h.write ?_
    rfl

theorem Named.processCandidates (h : Named s) (now : Time) (cands : List Candidate) :
    Named (processCandidates e c s now cands) :=
  List.foldlRecOn _ _ h fun _ hs cand _ => hs.processCandidate now cand

theorem Named.sweepEntry (h : Named s) (processed : List String) (now : Time) (answer : String → PdpAnswer)
    (id : String) : Named (sweepEntry e c s processed now answer id) := by
  unfold LoopState.sweepEntry
  cases hentry : s.entries.lookup id with
  | none => exact h
  | some entry =>
    dsimp only
    split_ifs
    · exact h
    · refine h.write ?_
      exact h id entry hentry

theorem Named.evictEntry (h : Named s) (now : Time) (id : String) : Named (evictEntry c s now id) := by
  unfold LoopState.evictEntry
  cases s.entries.lookup id with
  | none => exact h
  | some entry =>
    dsimp only
    split_ifs
    · intro id' entry' hentry
      dsimp only at hentry
      by_cases hsame : id' = id
      · subst hsame
        rw [AList.lookup_erase] at hentry
        cases hentry
      · rw [AList.lookup_erase_ne hsame] at hentry
        exact h id' entry' hentry
    · exact h

theorem Named.tick (h : Named s) (tk : Tick) : Named (tick e c s tk) := by
  have hprologue : Named (LoopState.prologue e c s tk) := h.prologue tk
  unfold LoopState.tick
  by_cases hobserved : ¬ tk.observed
  · rw [if_pos hobserved]
    exact hprologue
  · rw [if_neg hobserved]
    have hswept : Named (swept e c s tk) := List.foldlRecOn _ _ (hprologue.processCandidates tk.now tk.cands)
      fun _ hs id _ => hs.sweepEntry _ tk.now tk.answer id
    have hreverted : Named (revertExpired e c (swept e c s tk) tk.now tk.clock) := by
      unfold LoopState.revertExpired
      split_ifs
      · exact hswept.congr (by rfl)
      · exact hswept
    exact List.foldlRecOn _ _ hreverted fun _ hs id _ => hs.evictEntry tk.now id

end Names

section Forced

/-- A source that is to be blocked at its next evaluation. -/
structure Forced (c : LoopConfig) (s : LoopState σ ρ) (id : String) (entry : SourceEntry) : Prop where
  listed : s.entries.lookup id = some entry
  force : entry.state.forceBlock
  strikes : c.fsm.blockAt < entry.state.strikes

theorem applyGraphStrike_forces (now : Time) {gs : GraphStrike} (hid : gs.sourceID ≠ "") (hforce : gs.forceBlock) :
    ∃ entry, Forced c (applyGraphStrike c s now gs) gs.sourceID entry := by
  unfold LoopState.applyGraphStrike
  rw [if_neg hid]
  refine ⟨_, AList.lookup_insert _, ?_, ?_⟩
  · simp [applyGraphStrikeState, hforce]
  · simp only [applyGraphStrikeState, hforce, if_true]
    split_ifs <;> omega

theorem ensure_of_lookup (h : s.entries.lookup id = some entry) (target : SourceTarget) :
    (ensure s id target).state = entry.state := by
  unfold ensure
  rw [h]
  dsimp only
  split_ifs <;> rfl

theorem Forced.applyGraphStrike (h : Forced c s id entry) (now : Time) {gs : GraphStrike} (hn : 0 ≤ gs.n) :
    ∃ entry, Forced c (applyGraphStrike c s now gs) id entry := by
  by_cases hempty : gs.sourceID = ""
  · refine ⟨entry, ?_⟩
    rwa [LoopState.applyGraphStrike, if_pos hempty]
  · by_cases hsame : gs.sourceID = id
    · subst hsame
      by_cases hforce : gs.forceBlock
      · exact applyGraphStrike_forces now hempty hforce
      · have hentry : (ensure s gs.sourceID (sourceTargetFromID gs.sourceID)).state = entry.state := by
          unfold ensure
          rw [h.listed]
          dsimp only
          split_ifs <;> rfl
        have hstrikes := h.strikes
        unfold LoopState.applyGraphStrike
        rw [if_neg hempty]
        refine ⟨_, AList.lookup_insert _, ?_, ?_⟩
        · simp only [applyGraphStrikeState, hforce, hentry]
          exact h.force
        · simp only [applyGraphStrikeState, hforce, hentry]
          grind
    · refine ⟨entry, ?_, h.force, h.strikes⟩
      unfold LoopState.applyGraphStrike
      rw [if_neg hempty]
      dsimp only
      rw [AList.lookup_insert_ne (Ne.symm hsame)]
      exact h.listed

theorem lookup_processCandidates {cands : List Candidate} (h : ∀ cand ∈ cands, cand.target.id ≠ id) (now : Time) :
    (processCandidates e c s now cands).entries.lookup id = s.entries.lookup id := by
  induction cands generalizing s with
  | nil => rfl
  | cons cand cands ih =>
    rw [List.forall_mem_cons] at h
    refine (ih h.2).trans ?_
    unfold LoopState.processCandidate
    dsimp only
    split_ifs
    · rfl
    · exact AList.lookup_insert_ne h.1.symm

theorem projected_force (s : LoopState σ ρ) (target : SourceTarget) (st : FsmState) (now : Time) :
    (projected s target st now).forceBlock = st.forceBlock ∧ (projected s target st now).strikes = st.strikes := by
  unfold projected projectRuntimePDPLeaseState
  split_ifs
  · exact ⟨rfl, rfl⟩
  · simp only [candidateFacts, storeAnswers, runtimeStateFromActionFacts, runtimeStateWithActionFact]
    split
    · exact ⟨rfl, rfl⟩
    · split <;> exact ⟨rfl, rfl⟩

end Forced

end LoopState

section Drain

variable {σ ρ : Type} {e : BrokeredActionExecutor σ ρ} {c : LoopConfig} {topN : Nat} {now : Time}
  {d : LoopState σ ρ × List Metrics} {gs gs' : GraphStrikeMsg}

/-- What every strike of a signal is like. -/
structure GraphStrikeMsg.Sound (gs : GraphStrikeMsg) : Prop where
  source : gs.sourceID ≠ ""
  credit : 0 ≤ gs.n
  listed : gs.addToCands

/-- The source of a strike is a candidate of the severity of its signal, and forced if the strike is. -/
structure Struck (c : LoopConfig) (gs : GraphStrikeMsg) (d : LoopState σ ρ × List Metrics) : Prop where
  candidate : ∃ m, candidateOf gs.sourceID d.2 = some m ∧ graphFSMSeverityFromScore gs.signalScore c.fsm ≤ m.score
  forced : gs.forceBlock → ∃ entry, LoopState.Forced c d.1 gs.sourceID entry

theorem applyGraphStrike_struck (hgs : gs.Sound) (hnamed : d.1.Named) : Struck c gs (applyGraphStrike c now d gs) := by
  refine ⟨?_, LoopState.applyGraphStrike_forces now hgs.source⟩
  unfold applyGraphStrike
  dsimp only
  rw [if_neg fun h => h.elim hgs.source fun hnot => hnot hgs.listed]
  cases hpromote : promoteCandidateForGraphStrike gs c.fsm d.2 with
  | some ms =>
    obtain ⟨m, -, hms⟩ := promote_eq_some hpromote
    exact ⟨m.raise gs c.fsm, by rw [Option.getD_some, hms, if_pos rfl], (score_le_raise m).2⟩
  | none =>
    have hid := hnamed.ensure (LoopState.sourceTargetFromID_id hgs.source)
    refine ⟨graphStrikeMetrics gs c.fsm
      (LoopState.ensure d.1 gs.sourceID (sourceTargetFromID gs.sourceID)).target, ?_, le_rfl⟩
    rw [Option.getD_none, candidateOf_append, promote_eq_none hpromote, Option.none_or, candidateOf_cons]
    exact if_pos hid

theorem Struck.applyGraphStrike (h : Struck c gs d) (hgs' : gs'.Sound) :
    Struck c gs (applyGraphStrike c now d gs') := by
  refine ⟨?_, fun hforce => ?_⟩
  · obtain ⟨m, hm, hscore⟩ := h.candidate
    unfold Kernloom.applyGraphStrike
    dsimp only
    rw [if_neg fun h => h.elim hgs'.source fun hnot => hnot hgs'.listed]
    cases hpromote : promoteCandidateForGraphStrike gs' c.fsm d.2 with
    | some ms =>
      obtain ⟨m', hm', hms⟩ := promote_eq_some hpromote
      rw [Option.getD_some, hms]
      by_cases hsame : gs.sourceID = gs'.sourceID
      · rw [if_pos hsame]
        rw [← hsame, hm] at hm'
        obtain rfl := Option.some.inj hm'
        exact ⟨_, rfl, hscore.trans (score_le_raise m).1⟩
      · rw [if_neg hsame]
        exact ⟨m, hm, hscore⟩
    | none =>
      rw [Option.getD_none, candidateOf_append, hm]
      exact ⟨m, rfl, hscore⟩
  · obtain ⟨entry, hentry⟩ := h.forced hforce
    exact hentry.applyGraphStrike now hgs'.credit

/-- After the drain every strike of it has struck. -/
theorem foldl_struck {taken : List GraphStrikeMsg} (hnamed : d.1.Named) (htaken : ∀ gs ∈ taken, gs.Sound) :
    (taken.foldl (applyGraphStrike c now) d).1.Named ∧
      ∀ gs ∈ taken, Struck c gs (taken.foldl (applyGraphStrike c now) d) := by
  induction taken using List.reverseRecOn with
  | nil => exact ⟨hnamed, fun gs hgs => absurd hgs List.not_mem_nil⟩
  | append_singleton taken last ih =>
    obtain ⟨hstate, hstruck⟩ := ih fun gs hgs => htaken gs (List.mem_append_left _ hgs)
    have hlast : last.Sound := htaken last (List.mem_append_right _ (List.mem_singleton_self last))
    rw [List.foldl_append, List.foldl_cons, List.foldl_nil]
    refine ⟨hstate.applyGraphStrike now _, fun gs hgs => ?_⟩
    rcases List.mem_append.mp hgs with hgs | hgs
    · exact (hstruck gs hgs).applyGraphStrike hlast
    · rw [List.mem_singleton.mp hgs]
      exact applyGraphStrike_struck hlast hstate

theorem prologue_tick (s : LoopState σ ρ) {p : Pass} (h : ¬ p.Idle) (taken : List GraphStrikeMsg) :
    LoopState.prologue e c s (p.tick e c topN s taken) = (p.drain e c topN s taken).1 := by
  have hfold : (p.drain e c topN s taken).1 =
      taken.foldl (fun s gs => LoopState.applyGraphStrike c s p.now gs.toGraphStrike)
        (LoopState.prologue e c s p.base) :=
    (List.foldl_hom Prod.fst fun _ _ => rfl).symm
  have hbase : p.base.observed := decide_eq_true h
  have htick : (p.tick e c topN s taken).observed := hbase
  have hstrikes : (p.tick e c topN s taken).strikes = taken.map (·.toGraphStrike) := rfl
  rw [hfold]
  unfold LoopState.prologue
  dsimp only
  rw [if_pos htick, if_pos hbase, hstrikes, List.foldl_map]
  rfl

/-- What the cut leaves out ranks no higher than what it keeps. -/
theorem not_before_of_cut {p : Pass} {m m' : Metrics} (hm : m ∈ p.kept topN)
    (hm' : m' ∈ (p.ranking.arrange (p.observed.filterMap metricsFromObservation)).drop topN) : ¬ m'.Before m := by
  have hranked := p.ranking.ranked (p.observed.filterMap metricsFromObservation)
  rw [← List.take_append_drop topN (p.ranking.arrange _), List.pairwise_append] at hranked
  exact hranked.2.2 m hm m' hm'

end Drain

section Evaluation

variable {σ ρ : Type} (e : BrokeredActionExecutor σ ρ) (c : LoopConfig) (topN : Nat)

namespace PassRecord

variable (r : PassRecord σ ρ)

def tick : Tick := r.pass.tick e c topN r.loop r.taken

/-- The state that a candidate is evaluated in, after the candidates before it. -/
def evaluated (before : List Candidate) (cand : Candidate) : FsmState :=
  let s := LoopState.processCandidates e c (LoopState.prologue e c r.loop (r.tick e c topN)) r.pass.now before
  LoopState.projected s cand.target (LoopState.ensure s cand.target.id cand.target).state r.pass.now

/-- The pass evaluates the source of a strike, at a severity that the signal is worth at least, and a forced
strike makes it ask for a block. -/
structure Evaluates (gs : GraphStrikeMsg) (before : List Candidate) (cand : Candidate) (after : List Candidate) :
    Prop where
  cands : (r.tick e c topN).cands = before ++ cand :: after
  source : cand.target.id = gs.sourceID
  first : ∀ other ∈ before, other.target.id ≠ gs.sourceID
  severity : graphFSMSeverityFromScore gs.signalScore c.fsm ≤ cand.metrics.severity
  forced : gs.forceBlock → AsksBlock cand.metrics (r.evaluated e c topN before cand) r.pass.now c.fsm

end PassRecord

variable {e c topN}

theorem candidates_append (p : Pass) (ms ms' : List Metrics) (m : Metrics) : p.candidates (ms ++ m :: ms') =
    p.candidates ms ++ ⟨m.target, m.toFSMMetrics, p.answers ms.length⟩ ::
      (ms'.zipIdx (ms.length + 1)).map fun m => ⟨m.1.target, m.1.toFSMMetrics, p.answers m.2⟩ := by
  unfold Pass.candidates
  rw [List.zipIdx_append, List.zipIdx_cons, List.map_append, List.map_cons, Nat.zero_add]

theorem target_of_mem_candidates {p : Pass} {ms : List Metrics} {cand : Candidate} (h : cand ∈ p.candidates ms) :
    ∃ m ∈ ms, cand.target = m.target := by
  obtain ⟨indexed, hindexed, rfl⟩ := List.mem_map.mp h
  exact ⟨indexed.1, List.fst_mem_of_mem_zipIdx hindexed, rfl⟩

theorem evaluates (hsteps : c.fsm.sevStep1 ≤ c.fsm.sevStep2 ∧ c.fsm.sevStep1 ≤ c.fsm.sevStep3)
    (hdown : 0 < c.fsm.downNeed) {r : PassRecord σ ρ} (hnamed : r.loop.Named) (hobserved : ¬ r.pass.Idle)
    (htaken : ∀ gs ∈ r.taken, gs.Sound) {gs : GraphStrikeMsg} (hgs : gs ∈ r.taken) :
    ∃ before cand after, r.Evaluates e c topN gs before cand after := by
  have hdrained : Struck c gs (r.pass.drain e c topN r.loop r.taken) := (foldl_struck (hnamed.prologue _) htaken).2 gs hgs
  obtain ⟨m, hm, hscore⟩ := hdrained.candidate
  obtain ⟨hid, ms, ms', hms, hfirst⟩ := List.find?_eq_some_iff_append.mp hm
  have hsource : m.target.id = gs.sourceID := of_decide_eq_true hid
  have hcands : (r.tick e c topN).cands = r.pass.candidates (ms ++ m :: ms') := congrArg r.pass.candidates hms
  rw [candidates_append] at hcands
  have hothers : ∀ other ∈ r.pass.candidates ms, other.target.id ≠ gs.sourceID := by
    intro other hother
    obtain ⟨found, hfound, htarget⟩ := target_of_mem_candidates hother
    have hnot := hfirst found hfound
    rw [htarget]
    simpa using hnot
  refine ⟨_, _, _, hcands, hsource, hothers, hscore, fun hforce => ?_⟩
  obtain ⟨entry, hentry⟩ := hdrained.forced hforce
  have hlookup : (LoopState.processCandidates e c (LoopState.prologue e c r.loop (r.tick e c topN)) r.pass.now
      (r.pass.candidates ms)).entries.lookup m.target.id = some entry := by
    rw [hsource, LoopState.lookup_processCandidates hothers, PassRecord.tick, prologue_tick r.loop hobserved]
    exact hentry.listed
  have hhigh : Fsm.highTick m.toFSMMetrics c.fsm := .inl ((sevStep1_le_severity hsteps _).trans hscore)
  have hstate := LoopState.ensure_of_lookup hlookup m.target
  unfold PassRecord.evaluated
  dsimp only
  rw [hstate]
  obtain ⟨hforced, hstrikes⟩ := LoopState.projected_force (LoopState.processCandidates e c
    (LoopState.prologue e c r.loop (r.tick e c topN)) r.pass.now (r.pass.candidates ms)) m.target entry.state
    r.pass.now
  exact asksBlock_of_forced hhigh hdown (hforced.trans hentry.force) (hstrikes ▸ hentry.strikes)

end Evaluation

section Runs

variable {σ ρ : Type} {e : BrokeredActionExecutor σ ρ} {c : LoopConfig} {topN : Nat} {w w' : StrikeWorld σ ρ}
  {es : List StrikeEvent}

theorem signalsOf_cons (ev : StrikeEvent) (es : List StrikeEvent) :
    signalsOf (ev :: es) = signalsOf [ev] ++ signalsOf es := by
  cases ev <;> rfl

/-- What is known of the channel and of the passes at every step. -/
structure StrikeWorld.Sound (w : StrikeWorld σ ρ) : Prop where
  cap : w.strikes.cap = 512
  named : w.loop.Named
  offered : ∀ o ∈ w.strikes.offers, o.item.Sound
  received : w.strikes.received = w.passes.flatMap PassRecord.taken ++ w.taking
  draining : ∀ d ∈ w.draining, ¬ d.1.Idle
  passes : ∀ r ∈ w.passes, r.loop.Named ∧ ¬ r.pass.Idle

theorem StrikeWorld.step_offers {ev : StrikeEvent} (h : w.Step e c topN ev w') :
    w'.strikes.offers.map Offer.item = w.strikes.offers.map Offer.item ++ (signalsOf [ev]).filterMap strikeOf := by
  cases ev with
  | signal sig =>
    obtain rfl := Option.some.inj h
    dsimp only
    rw [handleRuntimeSignal_eq]
    have hsignals : signalsOf [.signal sig] = [sig] := rfl
    rw [hsignals]
    cases hstrike : strikeOf sig with
    | none => simp [hstrike]
    | some gs => simp [hstrike]
  | observe p =>
    unfold StrikeWorld.Step StrikeWorld.step at h
    dsimp only at h
    split_ifs at h
    · obtain rfl := Option.some.inj h
      exact (List.append_nil _).symm
    · obtain rfl := Option.some.inj h
      exact (List.append_nil _).symm
  | take =>
    obtain ⟨d, -, hr⟩ := Option.bind_eq_some_iff.mp h
    obtain ⟨⟨gs, ch⟩, hreceive, rfl⟩ := Option.map_eq_some_iff.mp hr
    dsimp only
    rw [(Channel.receive_eq_some hreceive).2.2.1]
    exact (List.append_nil _).symm
  | drained =>
    obtain ⟨d, -, hd⟩ := Option.bind_eq_some_iff.mp h
    split_ifs at hd
    obtain rfl := Option.some.inj hd
    exact (List.append_nil _).symm

theorem StrikeWorld.run_offers (h : Run (StrikeWorld.Step e c topN) w es w') : w'.strikes.offers.map Offer.item =
    w.strikes.offers.map Offer.item ++ (signalsOf es).filterMap strikeOf := by
  induction h with
  | nil => exact (List.append_nil _).symm
  | @cons s t u ev es hstep _ ih =>
    rw [ih, step_offers hstep, signalsOf_cons ev es, List.filterMap_append, List.append_assoc]

theorem StrikeWorld.Sound.step {ev : StrikeEvent} (hw : w.Sound) (h : w.Step e c topN ev w') : w'.Sound := by
  cases ev with
  | signal sig =>
    obtain rfl := Option.some.inj h
    rw [handleRuntimeSignal_eq]
    cases hstrike : strikeOf sig with
    | none => exact hw
    | some gs =>
      obtain ⟨-, hid, hn, hlisted, -⟩ := strikeOf_eq_some hstrike
      refine { hw with cap := ?_, offered := fun o ho => ?_, received := ?_ }
      · exact (Channel.offer_cap _ _).trans hw.cap
      · rw [Option.elim_some, Channel.offer_offers] at ho
        rcases List.mem_append.mp ho with ho | ho
        · exact hw.offered o ho
        · rw [List.mem_singleton.mp ho]
          exact ⟨hid, hn, hlisted⟩
      · exact (Channel.offer_received _ _).trans hw.received
  | observe p =>
    unfold StrikeWorld.Step StrikeWorld.step at h
    dsimp only at h
    split_ifs at h with hdraining hidle
    · obtain rfl := Option.some.inj h
      exact { hw with named := hw.named.tick _ }
    · obtain rfl := Option.some.inj h
      have hnone : w.draining = none := Option.not_isSome_iff_eq_none.mp hdraining
      refine { hw with received := ?_, draining := fun d hd => ?_ }
      · rw [hw.received, StrikeWorld.taking, hnone]
        rfl
      · rw [← Option.some.inj hd]
        exact hidle
  | take =>
    obtain ⟨d, hd, hr⟩ := Option.bind_eq_some_iff.mp h
    obtain ⟨⟨gs, ch⟩, hreceive, rfl⟩ := Option.map_eq_some_iff.mp hr
    obtain ⟨-, hreceived, hoffers, hcap⟩ := Channel.receive_eq_some hreceive
    refine { hw with cap := hcap.trans hw.cap, offered := ?_, received := ?_, draining := fun d' hd' => ?_ }
    · exact hoffers ▸ hw.offered
    · rw [hreceived, hw.received, StrikeWorld.taking, hd, List.append_assoc]
      rfl
    · rw [← Option.some.inj hd']
      exact hw.draining d hd
  | drained =>
    obtain ⟨d, hd, hdrained⟩ := Option.bind_eq_some_iff.mp h
    split_ifs at hdrained
    obtain rfl := Option.some.inj hdrained
    refine { hw with named := hw.named.tick _, received := ?_, draining := fun d' hd' => ?_, passes := ?_ }
    · rw [hw.received, StrikeWorld.taking, hd, List.flatMap_append]
      simp [StrikeWorld.taking]
    · cases hd'
    · intro r hr
      rcases List.mem_append.mp hr with hr | hr
      · exact hw.passes r hr
      · rw [List.mem_singleton.mp hr]
        exact ⟨hw.named, hw.draining d hd⟩

theorem StrikeWorld.start_sound (w : NodeWorld σ ρ) : (StrikeWorld.start w).Sound where
  cap := rfl
  named := fun id entry hentry => by
    rw [start, AList.lookup_empty] at hentry
    cases hentry
  offered := fun o ho => absurd ho List.not_mem_nil
  received := rfl
  draining := fun d hd => by cases hd
  passes := fun r hr => absurd hr List.not_mem_nil

end Runs

section Example

theorem before_iff (m m' : Metrics) :
    m.Before m' ↔ toLex (m'.score, m'.primarySortValue) < toLex (m.score, m.primarySortValue) := by
  rw [Prod.Lex.toLex_lt_toLex, Metrics.Before, eq_comm]

instance : Std.Total fun m m' : Metrics => ¬ m'.Before m where
  total m m' := by
    simp only [before_iff, not_lt]
    exact le_total _ _

instance : IsTrans Metrics fun m m' => ¬ m'.Before m where
  trans m m' m'' h h' := by
    simp only [before_iff, not_lt] at h h' ⊢
    exact h'.trans h

def insertionRanking : Ranking where
  arrange := List.insertionSort fun m m' => ¬ m'.Before m
  perm := List.perm_insertionSort _
  ranked := List.pairwise_insertionSort _

open LoopState

def graphConfig : LoopConfig :=
  { blockingConfig with fsm := { sevStep1 := 1, sevStep2 := 2, sevStep3 := 3, blockAt := 12, downNeed := 8 } }

def edgeViolation : Signal :=
  { type := "graph.new_edge_after_freeze", subject := { id := "10.0.0.1" }, score := 95 }

def quietPass : Pass where
  now := 63864979200000000000
  clock := 63864979200000000000
  ranking := insertionRanking
  order := blockPass.order

/-- A violation, and a pass that observes nothing and keeps no candidates. -/
def struckWorld : Option (StrikeWorld (GoMap Enforcement) Unit) :=
  [.signal edgeViolation, .observe quietPass, .take, .drained].foldlM
    (StrikeWorld.step blockingNode.toBrokeredActionExecutor graphConfig 0) (.start blockingStart.world)

theorem struckWorld_facts : struckWorld.any fun w =>
    w.passes.any fun r => r.taken.any fun gs => gs.sourceID = "10.0.0.1" ∧ gs.forceBlock := by decide +kernel

end Example

end Kernloom
