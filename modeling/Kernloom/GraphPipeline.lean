import Kernloom.Learner
import Kernloom.MetricBaseline
import Kernloom.NetworkExtractor

/-! The graph pipeline: observations are learned as relationships and as metric baselines, attack
signals exclude their subject from learning. -/

namespace Kernloom

open Keyed

inductive SignalType
  | ppsHigh
  | bpsHigh
  | synRateHigh
  | scanSuspected
  | rateLimitDropsSustained
  | edgeMetricDeviation
  | edgeMetricPeakExceeds
  | other (text : String)
  deriving DecidableEq

/-- A signal, as far as the pipeline reads it. -/
structure PipelineSignal where
  type : SignalType
  subjectID : String
  ttl : Duration

/-- Signals of any other type are topology news. -/
def PipelineSignal.isAttack (sig : PipelineSignal) : Prop := ∀ text, sig.type ≠ .other text

instance (sig : PipelineSignal) : Decidable sig.isAttack := by
  cases h : sig.type with
  | other text => exact .isFalse fun hattack => hattack text h
  | _ => exact .isTrue fun text => by simp [h]

def PipelineSignal.lifetime (sig : PipelineSignal) : Duration :=
  if sig.ttl ≤ 0 then 300 * Duration.second else sig.ttl

def exclusionCooldown : Duration := 120 * Duration.second

structure PipelineConfig where
  extractor : ExtractorConfig
  /-- Host-level triggers and minima of the baselines, by metric ID. -/
  baselineTriggers : GoMap Rat
  baselineMinUpdates : GoMap Rat

structure GraphPipeline where
  cfg : PipelineConfig
  learner : Learner
  guard : LearningGuard
  engine : MetricEngine
  lastExclusionAt : GoMap Time

/-- What surrounds the pipeline: the digest, the order of rows and of profiles. -/
structure PipelineServices where
  sha256 : String → String
  rows : RowOrder
  profiles : ProfileOrder

/-- One call of the pipeline: generated IDs and store errors are inputs. -/
inductive PipelineEvent
  | signal (sig : PipelineSignal) (id : String) (fails : Bool) (now : Time)
  | observe (o : Observation) (freshID : String) (relFails metricFails : Bool) (now : Time)

def PipelineEvent.now : PipelineEvent → Time
  | .signal _ _ _ now => now
  | .observe _ _ _ _ now => now

namespace GraphPipeline

/-- A pipeline that has seen nothing. -/
def new (cfg : PipelineConfig) (metric : MetricConfig) (learner : Learner) (guard : LearningGuard) : GraphPipeline where
  cfg := cfg
  learner := learner
  guard := guard
  engine := ⟨metric, ∅⟩
  lastExclusionAt := ∅

/-- The exclusion that a signal leads to. -/
def exclusionOf (sig : PipelineSignal) (id : String) (now : Time) : Exclusion where
  id := id
  entityID := sig.subjectID
  reason := .suspiciousSignal
  appliesTo := [.metricBaseline, .relationshipLearning]
  expiresAt := now + sig.lifetime

def handleSignal (sig : PipelineSignal) (id : String) (fails : Bool) (now : Time) (p : GraphPipeline) :
    GraphPipeline :=
  if ¬ sig.isAttack ∨ sig.subjectID = "" then p
  else if (p.lastExclusionAt.lookup sig.subjectID).any fun last => now - last < exclusionCooldown then p
  else
    { p with
      lastExclusionAt := p.lastExclusionAt.insert sig.subjectID now
      guard := (p.guard.addExclusion fails (exclusionOf sig id now) now).1 }

/-- Traffic above the triggers of the host, or below the minima, is no baseline. -/
def baselineClean (cfg : PipelineConfig) (o : Observation) : Bool :=
  let pps := o.metrics.get "pps"
  let bps := o.metrics.get "bps"
  let trigPPS := cfg.baselineTriggers.get "network.packets_per_second"
  let trigBPS := cfg.baselineTriggers.get "network.bytes_per_second"
  let minPPS := cfg.baselineMinUpdates.get "network.packets_per_second"
  let minBPS := cfg.baselineMinUpdates.get "network.bytes_per_second"
  ¬ (0 < trigPPS ∧ trigPPS < pps) ∧ ¬ (0 < trigBPS ∧ trigBPS < bps) ∧
    ¬ (0 < minPPS ∧ pps < minPPS) ∧ ¬ (0 < minBPS ∧ bps < minBPS)

/-- The text of the baseline key of a relationship's metric. -/
def edgeBaselineKey (r : Relationship) (metricID : String) : String :=
  metricID ++ "|relationship|" ++ r.dimensionsHash ++ "|" ++ r.subjectEntityID ++ "|" ++ r.objectEntityID ++ "|" ++
    r.dimensionsHash ++ "|xdp|pre_stack_ingress|counter_delta|primary_packet_observation|60"

variable (services : PipelineServices)

/-- The guard's answers on a relationship and on its metrics, and the guard after both. -/
def checks (r : Relationship) (relFails metricFails : Bool) (now : Time) (g : LearningGuard) :
    CheckResult × CheckResult × LearningGuard :=
  let (rel, g) := g.check services.rows relFails r.subjectEntityID .relationshipLearning now
  let (metric, g) := g.check services.rows metricFails r.subjectEntityID .metricBaseline now
  (rel, metric, g)

/-- The values an observation gives the baselines, and whether they are suspicious. -/
def samples (o : Observation) (c : CandidateRelationship) (metric : CheckResult) (p : GraphPipeline) :
    List (String × Rat × Bool) :=
  let suspicious := metric.decision ≠ .allowLearning ∨ ¬ baselineClean p.cfg o
  [("bk:" ++ services.sha256 (edgeBaselineKey c.rel "network.xdp.edge.packets_per_second"), o.metrics.get "pps",
      decide suspicious),
    ("bk:" ++ services.sha256 (edgeBaselineKey c.rel "network.xdp.edge.bytes_per_second"), o.metrics.get "bps",
      decide suspicious)]

def handle (o : Observation) (freshID : String) (relFails metricFails : Bool) (now : Time) (p : GraphPipeline) :
    GraphPipeline :=
  match p.cfg.extractor.extract services.sha256 o now with
  | none => p
  | some c =>
    let (rel, metric, guard) := checks services c.rel relFails metricFails now p.guard
    { p with
      learner := p.learner.learn freshID rel.decision c.rel now
      guard := guard
      engine := (samples services o c metric p).foldl
        (fun e s => e.update services.profiles s.1 s.2.1 s.2.2 now) p.engine }

def step (p : GraphPipeline) : PipelineEvent → GraphPipeline
  | .signal sig id fails now => p.handleSignal sig id fails now
  | .observe o freshID relFails metricFails now => p.handle services o freshID relFails metricFails now

def after (p : GraphPipeline) (events : List PipelineEvent) : GraphPipeline := events.foldl (step services) p

end GraphPipeline

end Kernloom
