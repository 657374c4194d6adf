import Kernloom.EnforcedTargets
import Kernloom.Fsm
import Kernloom.RuntimeFacts

/-! The table of sources that the main loop keeps, and one pass of the loop over it with the
decision point active. -/

namespace Kernloom

open Effects

structure SourceEntry where
  target : SourceTarget
  state : FsmState := {}

/-- The order in which a map is ranged over. -/
structure RangeOrder where
  visit : List String → List String
  perm : ∀ keys, (visit keys).Perm keys

/-- What answers one evaluation: the decision of the pack if a rule matches, the evidence it is
resolved with, the identifiers drawn and the clock of the broker. -/
structure PdpAnswer where
  decision : Option RuntimeDecision := none
  dropRate : Option ParamValue := none
  ids : GeneratedIDs := ⟨"", ""⟩
  clock : Time := 0

structure Candidate where
  target : SourceTarget
  metrics : FsmMetrics := {}
  answer : PdpAnswer := {}

/-- A credit of strikes from the graph learner. -/
structure GraphStrike where
  sourceID : String
  n : Int := 0
  forceBlock : Bool := false

/-- The operator's feedback file during one pass. -/
structure FeedbackFilter where
  active : Bool := false
  beginSweep : Bool := false
  matchSource : String → Bool := fun _ => false

structure LoopConfig where
  fsm : FsmConfig := {}
  pepParams : EnforcementParams := {}
  severities : Severities
  resolver : PolicyResolver
  interval : Duration := 0
  stateTTL : Duration := 0
  feedbackSweep : Bool := false
  feedbackEvery : Duration := 0
  feedbackMax : Int := 0

structure LoopState (σ ρ : Type) where
  entries : GoMap SourceEntry := ∅
  world : NodeWorld σ ρ
  lastBrokerRevert : Time := 0

/-- What happens in one pass of the loop. A pass without any observation ends early. -/
structure Tick where
  now : Time
  clock : Time
  reset : Bool := false
  feedback : FeedbackFilter := {}
  observed : Bool := true
  strikes : List GraphStrike := []
  cands : List Candidate := []
  order : RangeOrder
  answer : String → PdpAnswer := fun _ => {}

namespace LoopState

variable {σ ρ : Type} (e : BrokeredActionExecutor σ ρ) (c : LoopConfig) (s : LoopState σ ρ)

section Overrides

variable (now : Time) (id : String) (entry : SourceEntry)

/-- An override of one source: it is moved to observe and its counters are cleared. -/
def deEnforce (clear : FsmState → FsmState) (reason : String) : LoopState σ ρ :=
  let ((st, _), world) :=
    e.applySourceObserveOverride entry.target entry.state c.pepParams now reason s.world
  { s with entries := s.entries.insert id { entry with state := clear st }, world }

def clearCounters (st : FsmState) : FsmState :=
  { st with strikes := 0, upStreak := 0, downStreak := 0, nonCompTicks := 0 }

def clearState (st : FsmState) : FsmState :=
  { clearCounters st with highSevSince := 0, expiresAt := 0, cooldownUntil := 0 }

def resetEntry : LoopState σ ρ :=
  match s.entries.lookup id with
  | none => s
  | some entry =>
    if entry.state.level = .observe then s else deEnforce e c s now id entry clearCounters "operator_reset"

def reset (order : RangeOrder) : LoopState σ ρ :=
  (order.visit s.entries.keys).foldl (fun s id => resetEntry e c s now id) s

/-- The loop over the table; a sweep stops when its budget is used up. -/
def feedbackFrom (matchSource : String → Bool) : Int → LoopState σ ρ → List String → LoopState σ ρ
  | _, s, [] => s
  | budget, s, id :: ids =>
    match s.entries.lookup id with
    | none => feedbackFrom matchSource budget s ids
    | some entry =>
      if entry.state.level = .observe ∨ ¬ matchSource id then feedbackFrom matchSource budget s ids
      else if c.feedbackSweep ∧ budget ≤ 0 then s
      else feedbackFrom matchSource (if c.feedbackSweep then budget - 1 else budget)
        (deEnforce e c s now id entry clearState "operator_feedback") ids

def applyFeedback (fb : FeedbackFilter) (order : RangeOrder) : LoopState σ ρ :=
  if ¬ fb.active then s
  else if c.feedbackSweep ∧ (c.feedbackMax ≤ 0 ∨ c.feedbackEvery ≤ 0 ∨ ¬ fb.beginSweep) then s
  else feedbackFrom e c now fb.matchSource c.feedbackMax s (order.visit s.entries.keys)

end Overrides

section Entries

def ensure (id : String) (target : SourceTarget) : SourceEntry :=
  match s.entries.lookup id with
  | some entry => if entry.target.sourceID = "" then { entry with target } else entry
  | none => { target }

def applyGraphStrikeState (st : FsmState) (gs : GraphStrike) (now : Time) : FsmState :=
  let st :=
    if gs.forceBlock then
      { st with
        strikes := if st.strikes < c.fsm.blockAt + 1 then c.fsm.blockAt + 1 else st.strikes
        forceBlock := true }
    else { st with strikes := st.strikes + gs.n }
  { st with
    upStreak := if st.upStreak < c.fsm.upNeed then c.fsm.upNeed else st.upStreak
    highSevSince := if st.highSevSince = 0 then now else st.highSevSince
    lastTrigger := now }

/-- The candidate that a strike may add is among those of the pass. -/
def applyGraphStrike (now : Time) (gs : GraphStrike) : LoopState σ ρ :=
  if gs.sourceID = "" then s
  else
    let entry := ensure s gs.sourceID (sourceTargetFromID gs.sourceID)
    let entry := { entry with state := applyGraphStrikeState c entry.state gs now }
    { s with entries := s.entries.insert gs.sourceID entry }

def isIdle (now : Time) (entry : SourceEntry) : Bool :=
  entry.state.level = .observe ∧ entry.state.strikes = 0 ∧ entry.state.lastSeenWallTime ≠ 0 ∧
    c.stateTTL < now - entry.state.lastSeenWallTime

def evictEntry (now : Time) (id : String) : LoopState σ ρ :=
  match s.entries.lookup id with
  | none => s
  | some entry => if isIdle c now entry then { s with entries := s.entries.erase id } else s

def evictIdle (now : Time) (order : RangeOrder) : LoopState σ ρ :=
  (order.visit s.entries.keys).foldl (fun s id => evictEntry c s now id) s

end Entries

section Evaluation

/-- The request that the answer for a source leads to. -/
def request (target : SourceTarget) (answer : PdpAnswer) (now : Time) : Option PepRequest :=
  answer.decision.bind fun dec =>
    Kernloom.processRuntimePDPDecisionForCandidate c.severities c.resolver dec now target answer.dropRate

/-- The state after a decision: what an application answers, else the state it was made in. -/
def processRuntimePDPDecisionForCandidate (target : SourceTarget) (current signal : FsmState)
    (answer : PdpAnswer) (now : Time) (w : NodeWorld σ ρ) : FsmState × NodeWorld σ ρ :=
  match request c target answer now with
  | none => (mergeFSMRuntimeState current signal, w)
  | some ⟨res, .source t⟩ =>
    let ((st, result), w) := e.applySource answer.ids t current res c.pepParams now w
    if result.status = .failed then (mergeFSMRuntimeState current signal, w)
    else (mergeFSMRuntimeState st signal, w)
  | some ⟨res, .relationship t⟩ =>
    (mergeFSMRuntimeState current signal, (e.applyRelationship answer.ids t res now w).2)

/-- The store answers every lookup of facts. -/
def storeAnswers : StoreAnswers Unit := ⟨(), none, none⟩

def projected (target : SourceTarget) (st : FsmState) (now : Time) : FsmState :=
  projectRuntimePDPLeaseState { st with lastSeenWallTime := now } storeAnswers s.world.leases
    ⟨target.sourceID, target.subjectID⟩ now

/-- The reactions to a candidate raise alerts and hand its state back as it is. -/
def processCandidate (now : Time) (cand : Candidate) : LoopState σ ρ :=
  let id := cand.target.id
  if id = "" then s
  else
    let entry := ensure s id cand.target
    let st := projected s cand.target entry.state now
    let signal := (evaluateFSMIntent cand.metrics st now c.fsm).signalState
    let (next, world) := processRuntimePDPDecisionForCandidate e c cand.target st signal cand.answer now
      { s.world with clock := cand.answer.clock }
    { s with entries := s.entries.insert id ⟨cand.target, next⟩, world }

def processCandidates (now : Time) (cands : List Candidate) : LoopState σ ρ :=
  cands.foldl (fun s cand => processCandidate e c s now cand) s

def sweepTarget (id : String) (target : SourceTarget) : SourceTarget :=
  if target.sourceID = "" then sourceTargetFromID id else target

def sweepEntry (processed : List String) (now : Time) (answer : String → PdpAnswer) (id : String) :
    LoopState σ ρ :=
  match s.entries.lookup id with
  | none => s
  | some entry =>
    if entry.state.level = .observe ∨ id ∈ processed then s
    else
      let signal := (evaluateFSMIntent {} entry.state now c.fsm).signalState
      let (next, world) := processRuntimePDPDecisionForCandidate e c (sweepTarget id entry.target)
        entry.state signal (answer id) now { s.world with clock := (answer id).clock }
      { s with entries := s.entries.insert id { entry with state := next }, world }

def sweepInactive (processed : List String) (now : Time) (answer : String → PdpAnswer) (order : RangeOrder) :
    LoopState σ ρ :=
  (order.visit s.entries.keys).foldl (fun s id => sweepEntry e c s processed now answer id) s

end Evaluation

section Pass

variable (tk : Tick)

/-- The pass up to the candidates. -/
def prologue : LoopState σ ρ :=
  let s := { s with world := { s.world with clock := tk.clock } }
  let s := if tk.reset then reset e c s tk.now tk.order else s
  let s := applyFeedback e c s tk.now tk.feedback tk.order
  if tk.observed then tk.strikes.foldl (fun s gs => applyGraphStrike c s tk.now gs) s else s

def evaluated : LoopState σ ρ := processCandidates e c (prologue e c s tk) tk.now tk.cands

def swept : LoopState σ ρ :=
  sweepInactive e c (evaluated e c s tk) (tk.cands.map (·.target.id)) tk.now tk.answer tk.order

def revertExpired (now clock : Time) : LoopState σ ρ :=
  if s.lastBrokerRevert = 0 ∨ c.interval ≤ now - s.lastBrokerRevert then
    { s with world := e.revertExpired now { s.world with clock }, lastBrokerRevert := now }
  else s

/-- One pass of the main loop. -/
def tick : LoopState σ ρ :=
  if ¬ tk.observed then prologue e c s tk
  else evictIdle c (revertExpired e c (swept e c s tk) tk.now tk.clock) tk.now tk.order

/-- Blocked sources hold off learning. -/
def activeBlocks : Nat := (s.entries.entries.filter fun entry => entry.2.state.level = .block).length

/-- The level that the table records for a source. -/
def levelOf (id : String) : Level := (s.entries.lookup id).elim .observe (·.state.level)

end Pass

end LoopState

end Kernloom
