import Kernloom.GoText
import Kernloom.RuntimeContracts

/-! The lifecycle controllers a bundle rebuilds: the phases of graph learning with the ceiling each
allows, and the bootstrap of the baseline. -/

namespace Kernloom

def lifecycleModeEnabled (mode : String) : Bool :=
  trimSpace (toLower mode) ∉ ["", "disabled", "off", "none"]

namespace Graph

/-- A phase; a state file may also hold a text that is none of them. -/
inductive Phase where
  | disabled | learning | freezeReady | freezePending | frozenObserve | frozenEnforce
  | unknown (text : String)
  deriving DecidableEq

/-- What the caller reports about the graph. `coverageBelowMinimum` stands for the comparison of
two floating-point ratios. -/
structure GraphStats where
  learnedEdges : Int := 0
  lastBlockEventAt : Time := 0
  cleanLearningSec : Int := 0
  bootstrapPhase : String := ""
  coverageBelowMinimum : Bool := false
  deriving DecidableEq

def hour : Duration := 3600 * 10 ^ 9

structure Config where
  enabled : Bool := false
  mode : String := "managed"
  minCleanLearning : Duration := 240 * hour
  minLearnedEdges : Int := 5
  requireAutotunePhase : String := "steady"
  requireNoBlockFor : Duration := 24 * hour
  autoFreeze : Bool := true
  approval : String := "forge-auto"
  proposalUpload : Bool := true
  includeEdgeBaselines : Bool := true
  observeAfterFreeze : Duration := 7 * 24 * hour
  finalPhase : String := "frozen_enforce"
  deriving DecidableEq

def defaultConfig : Config := {}

def fromBundle (plan : GraphLifecycle) : Config :=
  let c := defaultConfig
  { c with
    enabled := lifecycleModeEnabled plan.mode
    mode := if plan.mode ≠ "" then plan.mode else c.mode
    minCleanLearning := if 0 < plan.minCleanLearning then plan.minCleanLearning else c.minCleanLearning
    minLearnedEdges := if 0 < plan.minLearnedEdges then plan.minLearnedEdges else c.minLearnedEdges
    requireNoBlockFor :=
      if 0 < plan.requireNoBlockFor then plan.requireNoBlockFor else c.requireNoBlockFor
    approval := if plan.freezeApproval ≠ "" then plan.freezeApproval else c.approval
    includeEdgeBaselines := plan.includeEdgeBaselines || c.includeEdgeBaselines
    observeAfterFreeze :=
      if 0 < plan.observeAfterFreeze then plan.observeAfterFreeze else c.observeAfterFreeze
    finalPhase := if plan.finalPhase ≠ "" then plan.finalPhase else c.finalPhase }

structure Controller where
  cfg : Config
  phase : Phase
  startedAt : Time
  frozenAt : Time := 0
  proposalSentAt : Time := 0
  deriving DecidableEq

namespace Controller

/-- A new controller; a persisted phase is restored. -/
def new (cfg : Config) (persistedPhase : Option Phase) (startedAt now : Time) : Controller where
  cfg := cfg
  phase := if cfg.enabled then persistedPhase.getD .learning else .disabled
  startedAt := if startedAt = 0 then now else startedAt

variable (c : Controller)

def readinessCheck (stats : GraphStats) (now : Time) : List String :=
  if c.phase ≠ .learning then []
  else
    (if stats.cleanLearningSec * Duration.second < c.cfg.minCleanLearning then
      ["clean_learning_duration_insufficient"] else []) ++
    (if stats.learnedEdges < c.cfg.minLearnedEdges then ["learned_edges_below_minimum"] else []) ++
    (if stats.coverageBelowMinimum then ["edge_baseline_coverage_below_minimum"] else []) ++
    (if c.cfg.requireAutotunePhase = "steady" ∧ stats.bootstrapPhase ≠ "steady" then
      ["bootstrap_autotune_not_steady"] else []) ++
    (if 0 < c.cfg.requireNoBlockFor ∧ stats.lastBlockEventAt ≠ 0 ∧
        now - stats.lastBlockEventAt < c.cfg.requireNoBlockFor then ["recent_block_event"] else [])

def tick (stats : GraphStats) (now : Time) : Controller :=
  match c.phase with
  | .learning =>
    if c.cfg.autoFreeze ∧ c.readinessCheck stats now = [] then { c with phase := .freezeReady } else c
  | .frozenObserve =>
    if c.cfg.finalPhase = "frozen_enforce" ∧ 0 < c.cfg.observeAfterFreeze ∧ c.frozenAt ≠ 0 ∧
        c.cfg.observeAfterFreeze ≤ now - c.frozenAt then { c with phase := .frozenEnforce }
    else c
  | _ => c

def markProposalSent (now : Time) : Controller :=
  if c.phase = .freezeReady then { c with phase := .freezePending, proposalSentAt := now } else c

def applyFreeze (now : Time) : Controller := { c with phase := .frozenObserve, frozenAt := now }

def applyEnforce : Controller :=
  if c.phase = .frozenObserve then { c with phase := .frozenEnforce } else c

/-- The ceiling of the phase; empty when the bounds name none. -/
def maxAction (bounds : EnforcementBounds) : String :=
  match c.phase with
  | .disabled | .learning | .freezeReady | .freezePending => bounds.maxActionDuringBootstrap
  | .frozenObserve => bounds.maxActionDuringFrozenObserve
  | .frozenEnforce => bounds.maxActionDuringFrozenEnforce
  | .unknown _ => ""

end Controller

end Graph

namespace Bootstrap

structure Config where
  enabled : Bool := true
  window : Duration := 14 * 24 * Graph.hour
  deriving DecidableEq

def fromBaselineLifecycle (plan : BaselineLifecycle) : Config :=
  let window := if 0 < plan.learningWindow then plan.learningWindow else ({} : Config).window
  { enabled := lifecycleModeEnabled plan.mode
    window := if window < plan.minCleanRuntime then plan.minCleanRuntime else window }

/-- What is kept of a controller when it is rebuilt. -/
structure State where
  enabled : Bool := false
  startedAt : Time := 0
  observedSeconds : Nat := 0
  completedWindows : Nat := 0
  distinctSources : List String := []
  deriving DecidableEq

structure Controller where
  cfg : Config
  state : State
  cleanTicks : Nat := 0
  totalTicks : Nat := 0
  deriving DecidableEq

def Controller.new (cfg : Config) (state : Option State) (now : Time) : Controller :=
  let state := state.getD { enabled := cfg.enabled }
  { cfg := cfg
    state := { state with startedAt :=
      if state.startedAt = 0 ∧ cfg.enabled then now else state.startedAt } }

end Bootstrap

end Kernloom
