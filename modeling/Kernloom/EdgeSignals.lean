import Kernloom.AntiPoisoning
import Kernloom.BaselineRestarts
import Kernloom.ShieldSensor

/-! The signals of the graph pipeline. Each observation of an edge is scored against the edge's baselines after
it has been learned: what that leaves of a deviation, and of a peak. -/

namespace Kernloom

section Settings

/-- The settings of the edge baselines. -/
structure EdgeConfig where
  baselineAlpha : ℚ := 0
  baselineAlphaBootstrap : ℚ := 0
  baselineMinObservations : Nat := 0
  baselineDeviationThreshold : ℚ := 0
  baselinePeakTolerance : ℚ := 0

namespace EdgeConfig

variable (cfg : EdgeConfig)

def applyDefaults : EdgeConfig where
  baselineAlpha := if cfg.baselineAlpha ≤ 0 then 1 / 10 else cfg.baselineAlpha
  baselineAlphaBootstrap := if cfg.baselineAlphaBootstrap ≤ 0 then 1 / 10 else cfg.baselineAlphaBootstrap
  baselineMinObservations := if cfg.baselineMinObservations = 0 then 30 else cfg.baselineMinObservations
  baselineDeviationThreshold := if cfg.baselineDeviationThreshold ≤ 0 then 5 else cfg.baselineDeviationThreshold
  baselinePeakTolerance := if cfg.baselinePeakTolerance ≤ 0 then 3 / 2 else cfg.baselinePeakTolerance

/-- The engine is slow before promotion and bootstraps after it. -/
def scoring : ScoreConfig where
  alpha := cfg.baselineAlpha
  alphaPromoted := cfg.baselineAlphaBootstrap
  minCount := cfg.baselineMinObservations
  deviationThreshold := cfg.baselineDeviationThreshold

theorem applyDefaults_threshold : 0 < cfg.applyDefaults.baselineDeviationThreshold := by
  unfold applyDefaults
  dsimp only
  split_ifs with h
  · norm_num
  · exact not_le.mp h

end EdgeConfig

end Settings

section Signals

/-- The value over the peak of a trusted profile. -/
def peakFactor (r : MetricResult) : ℚ := if ¬ r.promoted ∨ r.peak ≤ 0 then 0 else r.value / r.peak

/-- The factor that leads and the one that comes second, with their metrics. -/
structure EdgeLead where
  factor : ℚ
  metricID : String
  secondaryFactor : ℚ
  secondaryMetricID : String

def packetMetricID : String := "network.xdp.edge.packets_per_second"

def byteMetricID : String := "network.xdp.edge.bytes_per_second"

def edgeLead (pps bps : ℚ) : EdgeLead :=
  if pps < bps then ⟨bps, byteMetricID, pps, packetMetricID⟩ else ⟨pps, packetMetricID, bps, byteMetricID⟩

variable (decimal : Nat → ℚ → String) (draw : SignalDraw) (cfg : EdgeConfig)
variable (subject : SignalSubject) (dims : GoMap String) (pps bps : MetricResult)

def deviationSignal : Option Signal :=
  let thresh := cfg.baselineDeviationThreshold
  let lead := edgeLead pps.deviationScore bps.deviationScore
  let s := newSignal draw "graph.edge_metric_deviation" subject
  if 0 < thresh ∧ (thresh < pps.deviationScore ∨ thresh < bps.deviationScore) then
    some (Signal.setScore (min (50 + intOf ((lead.factor - thresh) * 10)) 99) { s with
      confidence := 80
      ttl := 2 * 60 * Duration.second
      reasonCodes := ["baseline_edge_deviation"]
      attributes := GoMap.insertAll ∅ [("edge", dims.get "destination_port" ++ "/" ++ dims.get "protocol"),
        ("metric_id", lead.metricID), ("deviation_score", decimal 1 lead.factor),
        ("secondary_metric_id", lead.secondaryMetricID),
        ("secondary_deviation_score", decimal 1 lead.secondaryFactor)] })
  else none

def peakSignal : Option Signal :=
  let peakTol := cfg.baselinePeakTolerance
  let lead := edgeLead (peakFactor pps) (peakFactor bps)
  let s := newSignal draw "graph.edge_metric_peak_exceeds" subject
  if 0 < peakTol ∧ (peakTol < peakFactor pps ∨ peakTol < peakFactor bps) then
    some (Signal.setScore (min (60 + intOf ((lead.factor - peakTol) * 20)) 99) { s with
      confidence := 85
      ttl := 2 * 60 * Duration.second
      reasonCodes := ["baseline_edge_peak_exceeded"]
      attributes := GoMap.insertAll ∅ [("metric_id", lead.metricID), ("peak_factor", decimal 2 lead.factor),
        ("secondary_metric_id", lead.secondaryMetricID),
        ("secondary_peak_factor", decimal 2 lead.secondaryFactor)] })
  else none

/-- The signals of an observation by what its two metrics came to. -/
def edgeSignals : List Signal :=
  if ¬ pps.promoted ∧ ¬ bps.promoted then []
  else (deviationSignal decimal draw cfg subject dims pps bps).toList ++
    (peakSignal decimal draw cfg subject pps bps).toList

end Signals

section Pipeline

/-- One update of the engine. -/
structure EdgeUpdate where
  engine : MetricEngine
  key : String
  value : ℚ
  suspicious : Bool

namespace EdgeUpdate

variable (order : ProfileOrder) (now : Time) (u : EdgeUpdate)

/-- The profile that is updated, and what becomes of it. -/
def before : MetricProfile := (u.engine.profile order u.key now).1

def profile : MetricProfile := (u.before order now).update u.engine.cfg u.value u.suspicious now

def after : MetricEngine := u.engine.update order u.key u.value u.suspicious now

def result (sqrt : ℚ → ℚ) (cfg : ScoreConfig) : MetricResult :=
  u.engine.updateResult sqrt cfg order u.key u.value u.suspicious now

theorem result_eq (sqrt : ℚ → ℚ) (cfg : ScoreConfig) : u.result order now sqrt cfg =
    (u.profile order now).result sqrt cfg u.value u.suspicious (!u.suspicious) := rfl

end EdgeUpdate

/-- An observation of an edge: its packets are learned before its bytes. -/
structure EdgeObservation where
  dimensions : GoMap String
  packets : EdgeUpdate
  bytes : EdgeUpdate

namespace GraphPipeline

variable (services : PipelineServices) (o : Observation) (relFails metricFails : Bool) (now : Time)
variable (p : GraphPipeline)

def edgeObservation : Option EdgeObservation :=
  (p.cfg.extractor.extract services.sha256 o now).map fun c =>
    let metric := (checks services c.rel relFails metricFails now p.guard).2.1
    let suspicious := decide (metric.decision ≠ .allowLearning ∨ ¬ baselineClean p.cfg o)
    let key (metricID : String) := "bk:" ++ services.sha256 (edgeBaselineKey c.rel metricID)
    let packets : EdgeUpdate := ⟨p.engine, key packetMetricID, o.metrics.get "pps", suspicious⟩
    ⟨c.dimensions, packets,
      ⟨packets.after services.profiles now, key byteMetricID, o.metrics.get "bps", suspicious⟩⟩

variable (sqrt : ℚ → ℚ) (decimal : Nat → ℚ → String) (draw : SignalDraw) (cfg : EdgeConfig)

/-- The signals that an observation has the pipeline publish. -/
def published : List Signal :=
  (p.edgeObservation services o relFails metricFails now).elim [] fun x =>
    edgeSignals decimal draw cfg { id := o.subjectID } x.dimensions
      (x.packets.result services.profiles now sqrt cfg.scoring) (x.bytes.result services.profiles now sqrt cfg.scoring)

variable {services o relFails metricFails now p}

/-- These are the updates that the pipeline makes. -/
theorem handle_edgeObservation (freshID : String) :
    (p.handle services o freshID relFails metricFails now).engine =
      (p.edgeObservation services o relFails metricFails now).elim p.engine
        fun x => x.bytes.after services.profiles now := by
  rw [handle_engine]
  unfold fed edgeObservation
  cases p.cfg.extractor.extract services.sha256 o now <;> rfl

theorem edgeObservation_suspicious {x : EdgeObservation}
    (h : p.edgeObservation services o relFails metricFails now = some x) :
    x.bytes.suspicious = x.packets.suspicious ∧ x.packets.engine = p.engine ∧
      x.bytes.engine = x.packets.after services.profiles now ∧ o.subjectID ≠ "" := by
  obtain ⟨c, hc, rfl⟩ := Option.map_eq_some_iff.mp h
  refine ⟨rfl, rfl, rfl, ?_⟩
  unfold ExtractorConfig.extract at hc
  split_ifs at hc with hrelevant
  exact (of_decide_eq_true hrelevant).2.1

end GraphPipeline

end Pipeline

section Soundness

/-- What holds of a new profile and is kept by every update. -/
structure MetricProfile.Kept (cfg : MetricConfig) (P : MetricProfile → Prop) : Prop where
  fresh : ∀ now, P { firstSeen := now }
  update : ∀ p value suspicious now, P p → P (p.update cfg value suspicious now)

theorem MetricProfile.kept_counts (cfg : MetricConfig) : Kept cfg Counts where
  fresh _ := ⟨le_rfl, fun h => (Bool.false_ne_true h).elim, fun _ => rfl, fun _ => rfl⟩
  update _ _ suspicious _ h := h.update suspicious

theorem MetricProfile.kept_variance {cfg : MetricConfig} (hrates : LearningRates cfg.alpha cfg.alphaPromoted) :
    Kept cfg fun p => 0 ≤ p.ewmaVariance where
  fresh _ := le_rfl
  update p value suspicious now h := by
    cases suspicious with
    | true => exact h
    | false =>
      by_cases hfirst : p.learnedCount = 0
      · obtain ⟨t, ht⟩ := update_first cfg value now hfirst
        rw [ht, (checkPromotion_frame _ _).2.1]
      · have ha := hrates.ite (p.promoted = true)
        rw [(update_learns hfirst).ewmaVariance, mul_assoc]
        exact add_nonneg (mul_nonneg (sub_nonneg.mpr ha.2) h) (mul_nonneg ha.1.le (mul_self_nonneg _))

namespace MetricEngine

/-- The engine has its settings, and something holds of all its profiles. -/
structure Holds (cfg : MetricConfig) (P : MetricProfile → Prop) (e : MetricEngine) : Prop where
  cfg : e.cfg = cfg
  profiles : ∀ key p, e.profiles.lookup key = some p → P p

variable {cfg : MetricConfig} {P : MetricProfile → Prop} {e : MetricEngine}

theorem Holds.profile (h : e.Holds cfg P) (hkept : MetricProfile.Kept cfg P) (order : ProfileOrder) (key : String)
    (now : Time) : P (e.profile order key now).1 := by
  unfold MetricEngine.profile
  cases hlookup : e.profiles.lookup key with
  | some p => exact h.profiles key p hlookup
  | none => exact hkept.fresh now

theorem Holds.update (h : e.Holds cfg P) (hkept : MetricProfile.Kept cfg P) (order : ProfileOrder) (key : String)
    (value : ℚ) (suspicious : Bool) (now : Time) : (e.update order key value suspicious now).Holds cfg P where
  cfg := (profile_cfg ..).trans h.cfg
  profiles key' p hp := by
    by_cases hkey : key' = key
    · subst hkey
      rw [MetricEngine.update, AList.lookup_insert] at hp
      obtain rfl := Option.some.inj hp
      rw [profile_cfg, h.cfg]
      exact hkept.update _ value suspicious now (h.profile hkept order key' now)
    · exact h.profiles key' p ((lookup_update ..).2 key' hkey p hp)

end MetricEngine

namespace GraphPipeline

variable {services : PipelineServices} {p : GraphPipeline} {metric : MetricConfig} {P : MetricProfile → Prop}

theorem holds_step (h : p.engine.Holds metric P) (hkept : MetricProfile.Kept metric P) (event : PipelineEvent) :
    (p.step services event).engine.Holds metric P := by
  cases event with
  | signal sig id fails now =>
    show (p.handleSignal sig id fails now).engine.Holds metric P
    unfold handleSignal
    split_ifs
    all_goals exact h
  | observe o freshID relFails metricFails now =>
    show (p.handle services o freshID relFails metricFails now).engine.Holds metric P
    rw [handle_engine]
    exact List.foldlRecOn _ _ h fun e he s _ => he.update hkept ..

theorem holds_after (h : p.engine.Holds metric P) (hkept : MetricProfile.Kept metric P) (events : List PipelineEvent) :
    (p.after services events).engine.Holds metric P := by
  induction events generalizing p with
  | nil => exact h
  | cons event events ih => exact ih (holds_step h hkept event)

/-- In every run from a new pipeline it holds of the profiles that an observation updates. -/
theorem holds_edgeObservation (hkept : MetricProfile.Kept metric P) {cfg : PipelineConfig} {learner : Learner}
    {guard : LearningGuard} {events : List PipelineEvent} {o : Observation} {relFails metricFails : Bool} {now : Time}
    {x : EdgeObservation}
    (h : ((new cfg metric learner guard).after services events).edgeObservation services o relFails metricFails now =
      some x) : x.packets.engine.Holds metric P ∧ x.bytes.engine.Holds metric P := by
  obtain ⟨-, hpackets, hbytes, -⟩ := edgeObservation_suspicious h
  have hnew : (new cfg metric learner guard).engine.Holds metric P := ⟨rfl, fun _ _ h => by cases h⟩
  have hengine : x.packets.engine.Holds metric P := hpackets ▸ holds_after hnew hkept events
  exact ⟨hengine, hbytes ▸ hengine.update hkept ..⟩

end GraphPipeline

end Soundness

section Scores

open Set

variable {decimal : Nat → ℚ → String} {draw : SignalDraw} {cfg : EdgeConfig}
variable {subject : SignalSubject} {dims : GoMap String} {pps bps : MetricResult} {sig : Signal}

theorem edgeLead_factor (a b : ℚ) : (edgeLead a b).factor = max a b := by
  unfold edgeLead
  split_ifs with h
  · exact (max_eq_right h.le).symm
  · exact (max_eq_left (not_lt.mp h)).symm

/-- A score above its base, as a signal has it. -/
theorem edgeScore_mem {base : Int} (hbase : base ∈ Icc 0 99) {x : ℚ} (hx : 0 ≤ x) :
    clampScore (min (base + intOf x) 99) ∈ Icc base 99 := by
  have hfloor : 0 ≤ intOf x := by
    rw [intOf, if_pos hx]
    exact Int.floor_nonneg.mpr hx
  obtain ⟨hlow, hhigh⟩ := hbase
  unfold clampScore
  constructor
  · split_ifs <;> omega
  · split_ifs <;> omega

/-- What a signal of an edge says: of its subject, and by how much. -/
structure Signal.OfEdge (sigType : String) (subject : SignalSubject) (base : Int) (sig : Signal) : Prop where
  type : sig.type = sigType
  subject : sig.subject = subject
  score : sig.score ∈ Icc base 99

theorem deviationSignal_eq_some (h : deviationSignal decimal draw cfg subject dims pps bps = some sig) :
    sig.OfEdge "graph.edge_metric_deviation" subject 50 ∧
      cfg.baselineDeviationThreshold < max pps.deviationScore bps.deviationScore := by
  unfold deviationSignal at h
  dsimp only at h
  split_ifs at h with hover
  obtain rfl := Option.some.inj h
  have hmax := lt_max_iff.mpr hover.2
  refine ⟨⟨rfl, rfl, edgeScore_mem (by decide) ?_⟩, hmax⟩
  rw [edgeLead_factor]
  exact mul_nonneg (sub_nonneg.mpr hmax.le) (by norm_num)

theorem peakSignal_eq_some (h : peakSignal decimal draw cfg subject pps bps = some sig) :
    sig.OfEdge "graph.edge_metric_peak_exceeds" subject 60 ∧
      cfg.baselinePeakTolerance < max (peakFactor pps) (peakFactor bps) := by
  unfold peakSignal at h
  dsimp only at h
  split_ifs at h with hover
  obtain rfl := Option.some.inj h
  have hmax := lt_max_iff.mpr hover.2
  refine ⟨⟨rfl, rfl, edgeScore_mem (by decide) ?_⟩, hmax⟩
  rw [edgeLead_factor]
  exact mul_nonneg (sub_nonneg.mpr hmax.le) (by norm_num)

theorem mem_edgeSignals : sig ∈ edgeSignals decimal draw cfg subject dims pps bps ↔
    (pps.promoted ∨ bps.promoted) ∧ (deviationSignal decimal draw cfg subject dims pps bps = some sig ∨
      peakSignal decimal draw cfg subject pps bps = some sig) := by
  unfold edgeSignals
  split_ifs with hpromoted
  · refine iff_of_false (List.not_mem_nil) fun h => ?_
    exact h.1.elim hpromoted.1 hpromoted.2
  · rw [List.mem_append, Option.mem_toList, Option.mem_toList]
    refine ⟨fun h => ⟨?_, h⟩, And.right⟩
    by_cases hpps : pps.promoted
    · exact .inl hpps
    · exact .inr (not_not.mp fun hbps => hpromoted ⟨hpps, hbps⟩)

/-- The strike of a signal of an edge has its source looked at, and counts for nothing. -/
theorem Signal.OfEdge.strikeOf {sigType : String} {base : Int} (h : sig.OfEdge sigType subject base)
    (htype : isGraphBaselineSignal sigType) (hsubject : subject.id ≠ "") :
    strikeOf sig = some ⟨⟨subject.id, 0, false⟩, sig.score, true⟩ := by
  have hedge : sigType ≠ "graph.new_edge_after_freeze" := by
    rintro rfl
    exact absurd htype (by decide)
  rw [Kernloom.strikeOf, h.subject, h.type, if_neg hsubject, if_neg hedge, if_pos htype]

end Scores

section Peaks

namespace EdgeUpdate

/-- A clean update that makes its profile a trusted one. -/
structure Promotes (order : ProfileOrder) (now : Time) (u : EdgeUpdate) : Prop where
  clean : u.suspicious = false
  before : (u.before order now).promoted = false
  after : (u.profile order now).promoted = true

variable {sqrt : ℚ → ℚ} {cfg : ScoreConfig} {order : ProfileOrder} {now : Time} {u : EdgeUpdate}

/-- The peak of a trusted profile has a value that is learned in it. -/
theorem peakFactor_le_one (hcounts : (u.before order now).Counts) (hclean : u.suspicious = false)
    (hpromoted : (u.before order now).promoted = true) : peakFactor (u.result order now sqrt cfg) ≤ 1 := by
  have hpeak : u.value ≤ (u.profile order now).peak := by
    rw [profile, hclean, (MetricProfile.update_learns (hcounts.promoted hpromoted)).peak, if_pos hpromoted]
    split_ifs with hhigher
    · exact le_rfl
    · exact not_lt.mp hhigher
  unfold peakFactor
  split_ifs with huntrusted
  · norm_num
  · have hpos : 0 < (u.profile order now).peak := not_le.mp fun h => huntrusted (.inr h)
    exact (div_le_one hpos).mpr hpeak

/-- A profile stays a trusted one. -/
theorem profile_promoted (hcounts : (u.before order now).Counts) (hclean : u.suspicious = false)
    (hpromoted : (u.before order now).promoted = true) : (u.profile order now).promoted = true := by
  rw [profile, hclean, (MetricProfile.update_learns (hcounts.promoted hpromoted)).promoted, hpromoted, Bool.true_or]

theorem promotes_of_peak (hcounts : (u.before order now).Counts) (hclean : u.suspicious = false)
    (h : 1 < peakFactor (u.result order now sqrt cfg)) : u.Promotes order now where
  clean := hclean
  before := Bool.eq_false_iff.mpr fun hpromoted => absurd (peakFactor_le_one hcounts hclean hpromoted) (not_le.mpr h)
  after := by
    by_contra huntrusted
    rw [peakFactor, if_pos (.inl huntrusted)] at h
    exact absurd h (by norm_num)

end EdgeUpdate

end Peaks

section Deviations

/-- A square root up to a relative error of its square. -/
structure RootWithin (sqrt : ℚ → ℚ) (ε : ℚ) : Prop where
  nonneg : ∀ y, 0 ≤ y → 0 ≤ sqrt y
  lower : ∀ y, 0 ≤ y → (1 - ε) * y ≤ sqrt y ^ 2
  upper : ∀ y, 0 ≤ y → sqrt y ^ 2 ≤ (1 + ε) * y

variable {sqrt : ℚ → ℚ} {ε : ℚ} {cfg : ScoreConfig} {p : MetricProfile} {value : ℚ} {now : Time}

/-- The score is in hundredths of the threshold, and is compared with the threshold itself. -/
theorem lt_score_iff (hthreshold : 0 < cfg.deviationThreshold) (hfloor : 0 < cfg.sigmaFloor) (hp : p.promoted = true) :
    cfg.deviationThreshold < p.score sqrt cfg value ↔ cfg.deviationThreshold < 100 ∧
      cfg.deviationThreshold ^ 2 * p.sigma sqrt cfg.sigmaFloor < 100 * |value - p.ewma| := by
  have hsigma : 0 < p.sigma sqrt cfg.sigmaFloor := by
    unfold MetricProfile.sigma
    split_ifs with hlow
    · exact hfloor
    · exact hfloor.trans_le (not_lt.mp hlow)
  unfold MetricProfile.score
  rw [if_neg (not_not.mpr hp), lt_min_iff, and_comm, div_div, div_mul_eq_mul_div,
    lt_div_iff₀ (mul_pos hsigma hthreshold)]
  refine and_congr_right fun _ => ?_
  have hleft : cfg.deviationThreshold * (p.sigma sqrt cfg.sigmaFloor * cfg.deviationThreshold) =
      cfg.deviationThreshold ^ 2 * p.sigma sqrt cfg.sigmaFloor := by ring
  rw [hleft, mul_comm 100]

variable (cfg value now) in
/-- What a clean update leaves of a deviation: less than all of the value, and a variance that has it. -/
theorem update_deviation (hlearned : p.learnedCount ≠ 0) {a : ℚ}
    (ha : a = if p.promoted then cfg.alphaPromoted else cfg.alpha) (hle : a ≤ 1) :
    |value - (p.update cfg.toMetricConfig value false now).ewma| = (1 - a) * |value - p.ewma| ∧
      (p.update cfg.toMetricConfig value false now).ewmaVariance =
        (1 - a) * p.ewmaVariance + a * (value - p.ewma) ^ 2 := by
  have hl : MetricProfile.Learns cfg.toMetricConfig value p (p.update cfg.toMetricConfig value false now) :=
    MetricProfile.update_learns hlearned
  constructor
  · have hleft : value - (p.ewma + a * (value - p.ewma)) = (1 - a) * (value - p.ewma) := by ring
    rw [hl.ewma, ← ha, hleft, abs_mul, abs_of_nonneg (sub_nonneg.mpr hle)]
  · rw [hl.ewmaVariance, ← ha]
    ring

/-- A value far enough from the average of a trusted profile, with its own part in the variance. -/
def MetricProfile.Above (cfg : ScoreConfig) (ε value : ℚ) (p : MetricProfile) : Prop :=
  let a := cfg.alphaPromoted
  cfg.deviationThreshold < 100 ∧
    cfg.deviationThreshold ^ 2 * cfg.sigmaFloor < 100 * ((1 - a) * |value - p.ewma|) ∧
    cfg.deviationThreshold ^ 4 * ((1 + ε) * ((1 - a) * p.ewmaVariance + a * (value - p.ewma) ^ 2)) <
      (100 * ((1 - a) * |value - p.ewma|)) ^ 2

instance (cfg : ScoreConfig) (ε value : ℚ) (p : MetricProfile) : Decidable (p.Above cfg ε value) :=
  inferInstanceAs (Decidable (_ ∧ _ ∧ _))

theorem lt_score_of_above (hroot : RootWithin sqrt ε) (hthreshold : 0 < cfg.deviationThreshold)
    (hfloor : 0 < cfg.sigmaFloor) (hrates : LearningRates cfg.alpha cfg.alphaPromoted) (hcounts : p.Counts)
    (hvariance : 0 ≤ p.ewmaVariance) (hp : p.promoted = true) (h : p.Above cfg ε value) :
    cfg.deviationThreshold < (p.update cfg.toMetricConfig value false now).score sqrt cfg value := by
  have hlearned := hcounts.promoted hp
  have hpromoted : (p.update cfg.toMetricConfig value false now).promoted = true := by
    rw [(MetricProfile.update_learns hlearned).promoted, hp, Bool.true_or]
  obtain ⟨hdeviation, hspread⟩ := update_deviation cfg value now hlearned
    (if_pos hp).symm hrates.alphaPromoted.2
  obtain ⟨hlow, hoverFloor, hoverRoot⟩ := h
  have ha := hrates.alphaPromoted
  have hnext : 0 ≤ (p.update cfg.toMetricConfig value false now).ewmaVariance :=
    (MetricProfile.kept_variance hrates).update p value false now hvariance
  refine (lt_score_iff hthreshold hfloor hpromoted).mpr ⟨hlow, ?_⟩
  rw [hdeviation]
  unfold MetricProfile.sigma
  split_ifs
  · exact hoverFloor
  · have hright : 0 ≤ 100 * ((1 - cfg.alphaPromoted) * |value - p.ewma|) :=
      mul_nonneg (by norm_num) (mul_nonneg (sub_nonneg.mpr ha.2) (abs_nonneg _))
    refine lt_of_pow_lt_pow_left₀ 2 hright (lt_of_le_of_lt ?_ hoverRoot)
    rw [mul_pow, ← pow_mul, ← hspread]
    exact mul_le_mul_of_nonneg_left (hroot.upper _ hnext) (by positivity)

/-- At a large threshold a value's own part in the variance outweighs it, however far it is. -/
def ScoreConfig.Insensitive (cfg : ScoreConfig) (ε : ℚ) : Prop :=
  ∀ a, a = cfg.alpha ∨ a = cfg.alphaPromoted →
    10000 * (1 - a) ^ 2 ≤ cfg.deviationThreshold ^ 4 * ((1 - ε) * a)

theorem score_update_le (hroot : RootWithin sqrt ε) (hε : ε ≤ 1) (hthreshold : 0 < cfg.deviationThreshold)
    (hfloor : 0 < cfg.sigmaFloor) (hrates : LearningRates cfg.alpha cfg.alphaPromoted)
    (hvariance : 0 ≤ p.ewmaVariance) (h : cfg.Insensitive ε) :
    (p.update cfg.toMetricConfig value false now).score sqrt cfg value ≤ cfg.deviationThreshold := by
  by_contra hover
  have hpromoted : (p.update cfg.toMetricConfig value false now).promoted = true := by
    by_contra huntrusted
    rw [MetricProfile.score, if_pos huntrusted] at hover
    exact hover hthreshold.le
  obtain ⟨-, hdeviates⟩ := (lt_score_iff hthreshold hfloor hpromoted).mp (not_le.mp hover)
  have hnext : 0 ≤ (p.update cfg.toMetricConfig value false now).ewmaVariance :=
    (MetricProfile.kept_variance hrates).update p value false now hvariance
  have hsigma : sqrt (p.update cfg.toMetricConfig value false now).ewmaVariance ≤
      (p.update cfg.toMetricConfig value false now).sigma sqrt cfg.sigmaFloor := by
    unfold MetricProfile.sigma
    split_ifs with hlow
    · exact hlow.le
    · exact le_rfl
  have hroots : 0 ≤ cfg.deviationThreshold ^ 2 * sqrt (p.update cfg.toMetricConfig value false now).ewmaVariance :=
    mul_nonneg (sq_nonneg _) (hroot.nonneg _ hnext)
  have hless := lt_of_le_of_lt (mul_le_mul_of_nonneg_left hsigma (sq_nonneg cfg.deviationThreshold)) hdeviates
  by_cases hfirst : p.learnedCount = 0
  · -- the first value is its own average
    obtain ⟨t, ht⟩ := MetricProfile.update_first cfg.toMetricConfig value now hfirst
    have hewma : (p.update cfg.toMetricConfig value false now).ewma = value := by
      rw [ht, (MetricProfile.checkPromotion_frame _ _).1]
    rw [hewma, sub_self, abs_zero, mul_zero] at hless
    exact absurd hroots (not_le.mpr hless)
  · have ha := hrates.ite (p.promoted = true)
    have hinsensitive := h (if p.promoted then cfg.alphaPromoted else cfg.alpha) (by split_ifs <;> simp)
    obtain ⟨hdeviation, hspread⟩ := update_deviation cfg value now hfirst rfl ha.2
    generalize (if p.promoted then cfg.alphaPromoted else cfg.alpha) = a at *
    have hsquares := pow_lt_pow_left₀ hless hroots two_ne_zero
    rw [hdeviation, mul_pow, ← pow_mul, mul_pow, mul_pow, sq_abs] at hsquares
    have hkept : a * (value - p.ewma) ^ 2 ≤ (p.update cfg.toMetricConfig value false now).ewmaVariance := by
      rw [hspread]
      exact le_add_of_nonneg_left (mul_nonneg (sub_nonneg.mpr ha.2) hvariance)
    have hlower : (1 - ε) * (a * (value - p.ewma) ^ 2) ≤
        sqrt (p.update cfg.toMetricConfig value false now).ewmaVariance ^ 2 :=
      (mul_le_mul_of_nonneg_left hkept (sub_nonneg.mpr hε)).trans (hroot.lower _ hnext)
    refine absurd hsquares (not_lt.mpr ?_)
    calc (100 : ℚ) ^ 2 * ((1 - a) ^ 2 * (value - p.ewma) ^ 2)
        = 10000 * (1 - a) ^ 2 * (value - p.ewma) ^ 2 := by ring
      _ ≤ cfg.deviationThreshold ^ 4 * ((1 - ε) * a) * (value - p.ewma) ^ 2 :=
          mul_le_mul_of_nonneg_right hinsensitive (sq_nonneg _)
      _ = cfg.deviationThreshold ^ 4 * ((1 - ε) * (a * (value - p.ewma) ^ 2)) := by ring
      _ ≤ cfg.deviationThreshold ^ 4 * sqrt (p.update cfg.toMetricConfig value false now).ewmaVariance ^ 2 :=
          mul_le_mul_of_nonneg_left hlower (by positivity)

end Deviations

section Runs

open Set

theorem deviationSignal_of_lt (decimal : Nat → ℚ → String) (draw : SignalDraw) {cfg : EdgeConfig}
    (subject : SignalSubject) (dims : GoMap String) {pps bps : MetricResult}
    (hpositive : 0 < cfg.baselineDeviationThreshold)
    (h : cfg.baselineDeviationThreshold < pps.deviationScore ∨ cfg.baselineDeviationThreshold < bps.deviationScore) :
    ∃ sig, deviationSignal decimal draw cfg subject dims pps bps = some sig := by
  unfold deviationSignal
  dsimp only
  rw [if_pos ⟨hpositive, h⟩]
  exact ⟨_, rfl⟩

theorem EdgeConfig.applyDefaults_rates {cfg : EdgeConfig} (halpha : cfg.baselineAlpha ≤ 1)
    (hbootstrap : cfg.baselineAlphaBootstrap ≤ 1) :
    LearningRates cfg.applyDefaults.scoring.alpha cfg.applyDefaults.scoring.alphaPromoted := by
  have hrate {a : ℚ} (h : a ≤ 1) : (if a ≤ 0 then 1 / 10 else a) ∈ Ioc (0 : ℚ) 1 := by
    split_ifs with hoff
    · norm_num
    · exact ⟨not_le.mp hoff, h⟩
  exact ⟨hrate halpha, hrate hbootstrap⟩

namespace GraphPipeline

variable {services : PipelineServices} {sqrt : ℚ → ℚ} {ε : ℚ} {decimal : Nat → ℚ → String} {draw : SignalDraw}
variable {o : Observation} {relFails metricFails : Bool} {now : Time} {p : GraphPipeline} {cfg : EdgeConfig}
variable {sig : Signal}

theorem mem_published : sig ∈ p.published services o relFails metricFails now sqrt decimal draw cfg ↔
    ∃ x, p.edgeObservation services o relFails metricFails now = some x ∧
      sig ∈ edgeSignals decimal draw cfg { id := o.subjectID } x.dimensions
        (x.packets.result services.profiles now sqrt cfg.scoring)
        (x.bytes.result services.profiles now sqrt cfg.scoring) := by
  unfold published
  cases p.edgeObservation services o relFails metricFails now <;> simp

/-- In every run of the pipeline its signals have their source looked at and strike nothing, and a peak is
reported only of an observation that is not learned, or by which a baseline is first trusted. -/
theorem edge_signals (services : PipelineServices) (sqrt : ℚ → ℚ) (decimal : Nat → ℚ → String) (draw : SignalDraw)
    (settings : PipelineConfig) (cfg : EdgeConfig) (learner : Learner) (guard : LearningGuard)
    (events : List PipelineEvent) (o : Observation) (freshID : String) (relFails metricFails : Bool) (now : Time) :
    let edge := cfg.applyDefaults
    let p := (new settings edge.scoring.toMetricConfig learner guard).after services events
    ∀ sig ∈ p.published services o relFails metricFails now sqrt decimal draw edge,
      strikeOf sig = some ⟨⟨o.subjectID, 0, false⟩, sig.score, true⟩ ∧ sig.score ∈ Icc 50 99 ∧
      ∃ x, p.edgeObservation services o relFails metricFails now = some x ∧
        (p.handle services o freshID relFails metricFails now).engine = x.bytes.after services.profiles now ∧
        (sig.type = "graph.edge_metric_peak_exceeds" → 1 ≤ edge.baselinePeakTolerance →
          x.packets.suspicious = true ∨ x.packets.Promotes services.profiles now ∨
            x.bytes.Promotes services.profiles now) := by
  intro edge p sig hsig
  obtain ⟨x, hx, hmem⟩ := mem_published.mp hsig
  obtain ⟨hsame, -, -, hsubject⟩ := edgeObservation_suspicious hx
  have hhandled : (p.handle services o freshID relFails metricFails now).engine =
      x.bytes.after services.profiles now := by
    rw [handle_edgeObservation, hx, Option.elim_some]
  have hkept := MetricProfile.kept_counts edge.scoring.toMetricConfig
  obtain ⟨hpackets, hbytes⟩ := holds_edgeObservation hkept hx
  obtain ⟨-, hdeviation | hpeak⟩ := mem_edgeSignals.mp hmem
  · obtain ⟨hedge, -⟩ := deviationSignal_eq_some hdeviation
    refine ⟨hedge.strikeOf (by decide) hsubject, hedge.score, x, hx, hhandled, fun htype => ?_⟩
    rw [hedge.type] at htype
    exact absurd htype (by decide)
  · obtain ⟨hedge, hover⟩ := peakSignal_eq_some hpeak
    have hscore : sig.score ∈ Icc 50 99 := ⟨le_trans (by decide) hedge.score.1, hedge.score.2⟩
    refine ⟨hedge.strikeOf (by decide) hsubject, hscore, x, hx, hhandled, fun _ htolerance => ?_⟩
    cases hclean : x.packets.suspicious with
    | true => exact .inl rfl
    | false =>
      rcases lt_max_iff.mp (htolerance.trans_lt hover) with hpps | hbps
      · exact .inr (.inl (EdgeUpdate.promotes_of_peak (hpackets.profile hkept ..) hclean hpps))
      · exact .inr (.inr (EdgeUpdate.promotes_of_peak (hbytes.profile hkept ..) (hsame.trans hclean) hbps))

theorem deviationScore_eq {metric : MetricConfig} {u : EdgeUpdate} {order : ProfileOrder}
    (hcfg : u.engine.cfg = metric) (hclean : u.suspicious = false) (scoring : ScoreConfig) :
    (u.result order now sqrt scoring).deviationScore =
      ((u.before order now).update metric u.value false now).score sqrt scoring u.value := by
  rw [EdgeUpdate.result_eq, EdgeUpdate.profile, hcfg, hclean]
  rfl

/-- In every run of the pipeline an observation that is learned is reported as a deviation if a trusted metric
of it is far enough from its average, which may be a fraction of the spread; with an insensitive threshold
none is, however far. -/
theorem deviation_band (hroot : RootWithin sqrt ε) (hε : ε ≤ 1) (halpha : cfg.baselineAlpha ≤ 1)
    (hbootstrap : cfg.baselineAlphaBootstrap ≤ 1) (settings : PipelineConfig) (learner : Learner)
    (guard : LearningGuard) (events : List PipelineEvent) (o : Observation) (relFails metricFails : Bool) (now : Time)
    (decimal : Nat → ℚ → String) (draw : SignalDraw) :
    let edge := cfg.applyDefaults
    let p := (new settings edge.scoring.toMetricConfig learner guard).after services events
    let deviates := ∃ sig ∈ p.published services o relFails metricFails now sqrt decimal draw edge,
      sig.type = "graph.edge_metric_deviation"
    ∀ x, p.edgeObservation services o relFails metricFails now = some x → x.packets.suspicious = false →
      (∀ u, u = x.packets ∨ u = x.bytes → (u.before services.profiles now).promoted = true →
        (u.before services.profiles now).Above edge.scoring ε u.value → deviates) ∧
      (edge.scoring.Insensitive ε → ¬ deviates) := by
  intro edge p deviates x hx hclean
  obtain ⟨hsame, -, -, -⟩ := edgeObservation_suspicious hx
  have hrates : LearningRates edge.scoring.alpha edge.scoring.alphaPromoted :=
    EdgeConfig.applyDefaults_rates halpha hbootstrap
  have hthreshold : 0 < edge.scoring.deviationThreshold := cfg.applyDefaults_threshold
  have hfloor : 0 < edge.scoring.sigmaFloor := by
    change (0 : ℚ) < 1 / 100
    norm_num
  have hcounts := MetricProfile.kept_counts edge.scoring.toMetricConfig
  have hvariance : MetricProfile.Kept edge.scoring.toMetricConfig fun p => 0 ≤ p.ewmaVariance :=
    MetricProfile.kept_variance hrates
  obtain ⟨hpackets, hbytes⟩ := holds_edgeObservation hcounts hx
  obtain ⟨hpackets', hbytes'⟩ := holds_edgeObservation hvariance hx
  constructor
  · intro u hu hpromoted habove
    have hup : u.suspicious = false ∧ u.engine.Holds edge.scoring.toMetricConfig MetricProfile.Counts ∧
        u.engine.Holds edge.scoring.toMetricConfig fun p => 0 ≤ p.ewmaVariance := by
      rcases hu with rfl | rfl
      · exact ⟨hclean, hpackets, hpackets'⟩
      · exact ⟨hsame.trans hclean, hbytes, hbytes'⟩
    obtain ⟨hu', hholds, hholds'⟩ := hup
    have hscore : edge.scoring.deviationThreshold <
        (u.result services.profiles now sqrt edge.scoring).deviationScore := by
      rw [deviationScore_eq hholds.cfg hu']
      exact lt_score_of_above hroot hthreshold hfloor hrates (hholds.profile hcounts ..) (hholds'.profile hvariance ..)
        hpromoted habove
    have htrusted : (u.result services.profiles now sqrt edge.scoring).promoted = true :=
      EdgeUpdate.profile_promoted (hholds.profile hcounts ..) hu' hpromoted
    have hover :
        edge.baselineDeviationThreshold < (x.packets.result services.profiles now sqrt edge.scoring).deviationScore ∨
        edge.baselineDeviationThreshold < (x.bytes.result services.profiles now sqrt edge.scoring).deviationScore := by
      rcases hu with rfl | rfl
      · exact .inl hscore
      · exact .inr hscore
    have hone : (x.packets.result services.profiles now sqrt edge.scoring).promoted ∨
        (x.bytes.result services.profiles now sqrt edge.scoring).promoted := by
      rcases hu with rfl | rfl
      · exact .inl htrusted
      · exact .inr htrusted
    obtain ⟨sig, hsig⟩ := deviationSignal_of_lt decimal draw { id := o.subjectID } x.dimensions hthreshold hover
    have hmem := mem_published.mpr ⟨x, hx, mem_edgeSignals.mpr ⟨hone, .inl hsig⟩⟩
    exact ⟨sig, hmem, (deviationSignal_eq_some hsig).1.type⟩
  · rintro hinsensitive ⟨sig, hsig, htype⟩
    obtain ⟨x', hx', hmem⟩ := mem_published.mp hsig
    obtain rfl := Option.some.inj (hx'.symm.trans hx)
    rcases (mem_edgeSignals.mp hmem).2 with hdeviation | hpeak
    · refine absurd (deviationSignal_eq_some hdeviation).2 (not_lt.mpr (max_le ?_ ?_))
      · rw [deviationScore_eq hpackets.cfg hclean]
        exact score_update_le hroot hε hthreshold hfloor hrates (hpackets'.profile hvariance ..) hinsensitive
      · rw [deviationScore_eq hbytes.cfg (hsame.trans hclean)]
        exact score_update_le hroot hε hthreshold hfloor hrates (hbytes'.profile hvariance ..) hinsensitive
    · rw [(peakSignal_eq_some hpeak).1.type] at htype
      exact absurd htype (by decide)

/-- A root of twenty-six binary digits. -/
def ratSqrt (y : ℚ) : ℚ := Nat.sqrt (y.num.toNat * y.den * 4 ^ 26) / (y.den * 2 ^ 26)

theorem ratSqrt_within : RootWithin ratSqrt (1 / 2 ^ 25) := by
  have hsquare (y : ℚ) (hy : 0 ≤ y) : ∃ x s : ℕ, ∃ d : ℚ, 0 < d ∧ y = x / d ^ 2 ∧ ratSqrt y ^ 2 = s ^ 2 / d ^ 2 ∧
      s ^ 2 ≤ x ∧ 2 ^ 25 * x ≤ 2 ^ 25 * s ^ 2 + x := by
    have hnum : (y.num.toNat : ℚ) = y.num := by exact_mod_cast Int.toNat_of_nonneg (Rat.num_nonneg.mpr hy)
    have hden : (0 : ℚ) < y.den := by exact_mod_cast y.den_pos
    refine ⟨y.num.toNat * y.den * 4 ^ 26, _, y.den * 2 ^ 26, by positivity, ?_, div_pow .., Nat.sqrt_le' _, ?_⟩
    · push_cast
      rw [hnum, eq_div_iff (by positivity)]
      nth_rewrite 1 [← Rat.num_div_den y]
      field_simp
      norm_num
    · generalize hx : y.num.toNat * y.den * 4 ^ 26 = x
      have hlow := Nat.sqrt_le' x
      have hhigh : x < (Nat.sqrt x + 1) ^ 2 := Nat.lt_succ_sqrt' x
      rcases Nat.eq_zero_or_pos (y.num.toNat * y.den) with hzero | hpos
      · rw [← hx, hzero]
        simp
      · have hlarge : (2 ^ 26) ^ 2 ≤ x := by
          rw [← hx]
          exact Nat.le_mul_of_pos_left _ hpos
        have hroot : 2 ^ 26 ≤ Nat.sqrt x := Nat.le_sqrt'.mpr hlarge
        nlinarith
  constructor
  · intro y hy
    unfold ratSqrt
    positivity
  · intro y hy
    obtain ⟨x, s, d, hd, hy', hroot, -, hclose⟩ := hsquare y hy
    have hclose' : (2 : ℚ) ^ 25 * x ≤ 2 ^ 25 * s ^ 2 + x := by exact_mod_cast hclose
    rw [hroot, hy', ← mul_div_assoc, div_le_div_iff_of_pos_right (pow_pos hd 2)]
    linarith
  · intro y hy
    obtain ⟨x, s, d, hd, hy', hroot, hle, -⟩ := hsquare y hy
    have hle' : (s : ℚ) ^ 2 ≤ x := by exact_mod_cast hle
    have hx : (0 : ℚ) ≤ x := Nat.cast_nonneg x
    rw [hroot, hy', ← mul_div_assoc, div_le_div_iff_of_pos_right (pow_pos hd 2)]
    linarith

def edgeTraffic (pps : ℚ) : Observation :=
  { floodObservation with metrics := GoMap.ofList [("pps", pps), ("bps", 1000 * pps)] }

/-- The usual settings, but that two observations are enough. -/
def quickEdges : EdgeConfig := { baselineMinObservations := 2 }

def warmTraffic : List PipelineEvent :=
  [.observe (edgeTraffic 100) "r1" false false 60000000000, .observe (edgeTraffic 110) "r2" false false 120000000000]

def warmPipeline : GraphPipeline :=
  (new ⟨{ nodeID := "node-1" }, ∅, ∅⟩ quickEdges.applyDefaults.scoring.toMetricConfig quietPipeline.learner
    quietPipeline.guard).after quietServices warmTraffic

theorem warmPipeline_facts :
    (warmPipeline.edgeObservation quietServices (edgeTraffic 105) false false 180000000000).any fun x =>
      x.packets.suspicious = false ∧ (x.packets.before quietServices.profiles 180000000000).promoted = true ∧
        (x.packets.before quietServices.profiles 180000000000).Above quickEdges.applyDefaults.scoring (1 / 2 ^ 25)
          x.packets.value := by decide +kernel

/-- A value between the two that were learned is a deviation. -/
theorem near_value_flagged : ∃ sig ∈ warmPipeline.published quietServices (edgeTraffic 105) false false 180000000000
    ratSqrt (fun _ _ => "") (fun _ => ("", 0)) quickEdges.applyDefaults, sig.type = "graph.edge_metric_deviation" := by
  obtain ⟨x, hx, hfacts⟩ := (Option.any_eq_true _ _).mp warmPipeline_facts
  obtain ⟨hclean, hpromoted, habove⟩ := of_decide_eq_true hfacts
  have hband := deviation_band ratSqrt_within (by norm_num) (by norm_num [quickEdges]) (by norm_num [quickEdges])
    ⟨{ nodeID := "node-1" }, ∅, ∅⟩ quietPipeline.learner quietPipeline.guard warmTraffic (edgeTraffic 105) false false
    180000000000 (fun _ _ => "") (fun _ => ("", 0)) x hx hclean
  exact hband.1 x.packets (.inl rfl) hpromoted habove

end GraphPipeline

end Runs

end Kernloom
