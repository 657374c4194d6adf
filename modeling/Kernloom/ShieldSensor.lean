import Kernloom.Autotuner
import Kernloom.BaselineBounds
import Kernloom.CounterRates
import Kernloom.GraphStrikes

/-! The sensor of the shield. Its runtime adapter reads the counters of every source, scores the rates
against triggers that the baseline of the source may raise, and has the baseline learn the reads that raised
no signal. -/

namespace Kernloom

open SourceBaselines

deriving instance DecidableEq for Rate

section Engine

/-- What the signal engine is tuned to. -/
structure EngineConfig where
  nodeID : String := ""
  trig : Rate → ℚ
  weight : Rate → ℚ
  sevCap : ℚ := 0
  signalTTL : Duration := 0

def EngineConfig.applyDefaults (cfg : EngineConfig) : EngineConfig :=
  { cfg with
    sevCap := if cfg.sevCap ≤ 0 then 3 else cfg.sevCap
    signalTTL := if cfg.signalTTL ≤ 0 then 2 * 60 * Duration.second else cfg.signalTTL }

/-- The rate of a sample that a trigger is for. -/
def RateSample.value (s : RateSample) (rate : Rate) : ℚ := rate.observed s.pps s.bps s.synRate s.scanRate

def normalised (value trig cap : ℚ) : ℚ := if 0 < trig then min (value / trig) cap else 0

def calcSeverity (value trig weight : Rate → ℚ) (cap : ℚ) : ℚ :=
  let n (rate : Rate) : ℚ := normalised (value rate) (trig rate) cap
  weight .pps * n .pps + weight .syn * n .syn + weight .scan * n .scan + weight .bps * n .bps

/-- The integer of a number, towards zero. -/
def intOf (x : ℚ) : Int := if 0 ≤ x then ⌊x⌋ else ⌈x⌉

def normToScore (norm cap : ℚ) : Int :=
  let cap := if cap ≤ 1 then 3 else cap
  clampScore (intOf (50 + (norm - 1) / (cap - 1) * 50))

/-- How the engine reports a rate. -/
structure RateReport where
  type : String
  confidence : Int
  reasonCode : String
  rateKey : String
  trigKey : String
  decimals : Nat

def rateReport : Rate → RateReport
  | .pps => ⟨"source.pps_high", 80, "pps_high", "pps", "trig_pps", 1⟩
  | .syn => ⟨"source.syn_rate_high", 85, "syn_rate_high", "syn_rate", "trig_syn", 1⟩
  | .bps => ⟨"source.bps_high", 75, "bps_high", "bps", "trig_bps", 0⟩
  | .scan => ⟨"source.scan_suspected", 75, "scan_rate_high", "scan_rate", "trig_scan", 1⟩

/-- The identifier and the time that a new signal of a type draws. -/
abbrev SignalDraw := String → String × Time

def newSignal (draw : SignalDraw) (sigType : String) (subject : SignalSubject) : Signal :=
  { id := (draw sigType).1, time := (draw sigType).2, type := sigType, subject }

def Signal.setScore (score : Int) (s : Signal) : Signal := { s with score := clampScore score }

variable (decimal : Nat → ℚ → String)

/-- Bytes are watched only where they count in the severity. -/
def EngineConfig.Exceeded (cfg : EngineConfig) (sample : RateSample) (rate : Rate) : Prop :=
  0 < cfg.trig rate ∧ (rate = .bps → 0 < cfg.weight .bps) ∧ cfg.trig rate ≤ sample.value rate

instance (cfg : EngineConfig) (sample : RateSample) (rate : Rate) : Decidable (cfg.Exceeded sample rate) :=
  inferInstanceAs (Decidable (_ ∧ _ ∧ _))

def rateSignal (cfg : EngineConfig) (draw : SignalDraw) (subject : SignalSubject) (sample : RateSample) (sev : ℚ)
    (rate : Rate) : Option Signal :=
  let report := rateReport rate
  let s := newSignal draw report.type subject
  if cfg.Exceeded sample rate then
    some (Signal.setScore (normToScore (sample.value rate / cfg.trig rate) cfg.sevCap) { s with
      confidence := report.confidence
      ttl := cfg.signalTTL
      reasonCodes := [report.reasonCode]
      attributes := GoMap.insertAll ∅ [(report.rateKey, decimal report.decimals (sample.value rate)),
        (report.trigKey, decimal report.decimals (cfg.trig rate)), ("severity", decimal 3 sev),
        ("node_id", cfg.nodeID)] })
  else none

def dropSignal (cfg : EngineConfig) (draw : SignalDraw) (subject : SignalSubject) (sample : RateSample) (sev : ℚ) :
    Option Signal :=
  let s := newSignal draw "source.rate_limit_drops_sustained" subject
  if 0 < sample.dropRLRate then
    some (Signal.setScore (clampScore (intOf (min (sev / cfg.sevCap * 100) 100) + 15)) { s with
      confidence := 90
      ttl := cfg.signalTTL
      reasonCodes := ["rate_limit_drops_sustained"]
      attributes := GoMap.insertAll ∅ [("drop_rl_rate", decimal 2 sample.dropRLRate),
        ("severity", decimal 3 sev), ("node_id", cfg.nodeID)] })
  else none

/-- The severity of a sample and the signals it raises. -/
def evaluateWith (cfg : EngineConfig) (draw : SignalDraw) (subject : SignalSubject) (sample : RateSample) :
    ℚ × List Signal :=
  let sev := calcSeverity sample.value cfg.trig cfg.weight cfg.sevCap
  (sev, [Rate.pps, .syn, .bps, .scan].filterMap (rateSignal decimal cfg draw subject sample sev) ++
    (dropSignal decimal cfg draw subject sample sev).toList)

end Engine

section Adapter

namespace SourceBaselines

/-- The triggers of a source, in the order they are asked for. -/
def effectiveTriggers (srcIP : String) (trig : Rate → ℚ) (c : SourceBaselines) : (Rate → ℚ) × SourceBaselines :=
  let pps := c.effectiveTrigPPS srcIP (trig .pps)
  let bps := pps.2.effectiveTrigBPS srcIP (trig .bps)
  let syn := bps.2.effectiveTrigSyn srcIP (trig .syn)
  let scan := syn.2.effectiveTrigScan srcIP (trig .scan)
  (fun rate => rate.observed pps.1 bps.1 syn.1 scan.1, scan.2)

/-- Forgets the profiles not seen since the cutoff. -/
def evict (cutoff : Time) (c : SourceBaselines) : SourceBaselines :=
  let stale := (c.profiles.entries.filter fun e => e.2.lastSeen < cutoff).map Sigma.fst
  { c with
    profiles := stale.foldl (fun m id => m.erase id) c.profiles
    dirty := c.dirty.filter fun id => id ∉ stale }

end SourceBaselines

structure SensorConfig where
  nodeID : String := ""
  interval : Duration := 0
  prevTTL : Duration := 0
  minPPS : ℚ := 0
  minSeverity : ℚ := 0
  engine : EngineConfig

structure RuntimeAdapter where
  nodeID : String
  interval : Duration
  prevTTL : Duration
  minPPS : ℚ
  minSeverity : ℚ
  engine : EngineConfig
  baseline : Option SourceBaselines
  prev4 : PrevSnapshots Addr4 := fun _ => none
  prev6 : PrevSnapshots Addr6 := fun _ => none

/-- What the adapter made of one source. -/
structure SourceReading where
  sample : RateSample
  trig : Rate → ℚ
  severity : ℚ
  signals : List Signal
  skipReason : String
  observation : Option SourceObservation

def sampleMetrics (s : RateSample) : GoMap ℚ :=
  GoMap.insertAll ∅ [("network.packets_per_second", s.pps), ("network.bytes_per_second", s.bps),
    ("network.syn_rate", s.synRate), ("network.destination_port_change_rate", s.scanRate),
    ("network.rate_limit_drop_rate", s.dropRLRate), ("network.pass_rate", s.passRate),
    ("network.drop_allow_rate", s.dropAllowRate), ("network.drop_deny_rate", s.dropDenyRate),
    ("network.drop_total_rate", s.dropTotalRate)]

def rateMetric : Rate → String
  | .pps => "network.packets_per_second"
  | .bps => "network.bytes_per_second"
  | .syn => "network.syn_rate"
  | .scan => "network.destination_port_change_rate"

def sourceBaselineSkipReason (severity : ℚ) (signalCount : Nat) (dropRLRate : ℚ) : String :=
  if 0 < dropRLRate then "enforcement_feedback"
  else if 0 < signalCount then "signal_emitted"
  else if 1 ≤ severity then "severity_high"
  else ""

variable (decimal : Nat → ℚ → String)

def SourceReading.attributes (r : SourceReading) (ipVersion : String) : GoMap String :=
  let formatFloat := decimal 6
  GoMap.insertAll ∅ [("ip_version", ipVersion), ("klshield.pps", formatFloat r.sample.pps),
    ("klshield.bps", formatFloat r.sample.bps), ("klshield.syn_rate", formatFloat r.sample.synRate),
    ("klshield.scan_rate", formatFloat r.sample.scanRate), ("klshield.pass_rate", formatFloat r.sample.passRate),
    ("klshield.drop_allow_rate", formatFloat r.sample.dropAllowRate),
    ("klshield.drop_deny_rate", formatFloat r.sample.dropDenyRate),
    ("klshield.drop_rl_rate", formatFloat r.sample.dropRLRate),
    ("klshield.drop_total_rate", formatFloat r.sample.dropTotalRate),
    ("klshield.severity", formatFloat r.severity), ("klshield.trig_pps", formatFloat (r.trig .pps)),
    ("klshield.trig_bps", formatFloat (r.trig .bps)), ("klshield.trig_syn", formatFloat (r.trig .syn)),
    ("klshield.trig_scan", formatFloat (r.trig .scan)),
    ("klshield.source_baseline.learn_skipped", if r.skipReason ≠ "" then "true" else "false"),
    ("klshield.source_baseline.skip_reason", r.skipReason)]

def PollEvent.now : PollEvent → Time
  | .source4 now _ _ => now
  | .source6 now _ _ => now
  | .housekeeping now => now

namespace RuntimeAdapter

def new (cfg : SensorConfig) (baseline : Option SourceBaselines) : RuntimeAdapter where
  nodeID := cfg.nodeID
  interval := if cfg.interval ≤ 0 then Duration.second else cfg.interval
  prevTTL := if cfg.prevTTL ≤ 0 then 600 * Duration.second else cfg.prevTTL
  minPPS := cfg.minPPS
  minSeverity := cfg.minSeverity
  engine := EngineConfig.applyDefaults
    { cfg.engine with nodeID := if cfg.engine.nodeID = "" then cfg.nodeID else cfg.engine.nodeID }
  baseline := baseline

variable (a : RuntimeAdapter)

def updateEngineConfig (cfg : EngineConfig) : RuntimeAdapter :=
  let nodeID := if cfg.nodeID = "" then a.nodeID else cfg.nodeID
  { a with engine := EngineConfig.applyDefaults { cfg with nodeID } }

def applyAutotuneResult (thresholds : Autotune.Thresholds) : RuntimeAdapter :=
  let trig (rate : Rate) :=
    rate.observed thresholds.trigPPS thresholds.trigBPS thresholds.trigSyn thresholds.trigScan
  a.updateEngineConfig { a.engine with trig }

/-- An update of the triggers that names some of the metrics. -/
def applyRuntimeUpdate (values : GoMap ℚ) : RuntimeAdapter :=
  a.updateEngineConfig { a.engine with trig := fun rate => (values.lookup (rateMetric rate)).getD (a.engine.trig rate) }

/-- The severity of a source and its signals, and the baseline that learned the sample unless there is a
reason to skip it. -/
def observationFor (subjectID ipVersion : String) (sample : RateSample) (now clock : Time) (draw : SignalDraw) :
    SourceReading × RuntimeAdapter :=
  let asked := a.baseline.map fun c => c.effectiveTriggers subjectID a.engine.trig
  let trig := asked.elim a.engine.trig Prod.fst
  let scored := evaluateWith decimal { a.engine with trig } draw ⟨"ip", subjectID, ""⟩ sample
  let skipReason :=
    if asked.isSome then sourceBaselineSkipReason scored.1 scored.2.length sample.dropRLRate else ""
  let reading : SourceReading := ⟨sample, trig, scored.1, scored.2, skipReason, none⟩
  let quiet := sample.pps < a.minPPS ∧ ¬ (0 < a.minSeverity ∧ a.minSeverity ≤ scored.1) ∧ sample.dropRLRate = 0
  ({ reading with
      observation := if quiet then none else some {
        sourceID := subjectID
        subjectID := subjectID
        score := scored.1
        metrics := sampleMetrics sample
        attributes := reading.attributes decimal ipVersion } },
    { a with baseline := asked.map fun r =>
        r.2.update subjectID sample.pps sample.bps sample.synRate sample.scanRate (skipReason ≠ "") now clock })

/-- The rates of a source of a poll since it was last read, and the snapshots with this one. -/
def sample (interval : Duration) : PollEvent → Option RateSample × RuntimeAdapter
  | .source4 now key counters =>
    let r := observeSource (if interval ≤ 0 then a.interval else interval) now key counters a.prev4
    (r.1, { a with prev4 := r.2 })
  | .source6 now key counters =>
    let r := observeSource (if interval ≤ 0 then a.interval else interval) now key counters a.prev6
    (r.1, { a with prev6 := r.2 })
  | .housekeeping now =>
    (none, { a with prev4 := evictPrev a.prevTTL now a.prev4, prev6 := evictPrev a.prevTTL now a.prev6 })

/-- One source of a poll. Its signals are published as they are raised. -/
def read (interval : Duration) (clock : Time) (draw : SignalDraw) (e : PollEvent) :
    Option SourceReading × RuntimeAdapter :=
  let sampled := a.sample interval e
  let observed := sampled.1.map fun s =>
    sampled.2.observationFor decimal e.subjectID e.ipVersion s e.now clock draw
  (observed.map Prod.fst, observed.elim sampled.2 Prod.snd)

end RuntimeAdapter

inductive SensorEvent
  | read (interval : Duration) (clock : Time) (draw : SignalDraw) (e : PollEvent)
  | configured (cfg : EngineConfig)
  | tuned (thresholds : Autotune.Thresholds)
  | updated (values : GoMap ℚ)
  | evicted (cutoff : Time)

def RuntimeAdapter.turn (a : RuntimeAdapter) : SensorEvent → RuntimeAdapter
  | .read interval clock draw e => (a.read decimal interval clock draw e).2
  | .configured cfg => a.updateEngineConfig cfg
  | .tuned thresholds => a.applyAutotuneResult thresholds
  | .updated values => a.applyRuntimeUpdate values
  | .evicted cutoff => { a with baseline := a.baseline.map fun c => c.evict cutoff }

end Adapter

section Learned

/-- A profile without the triggers that were last asked for. -/
def SourceProfile.learned (p : SourceProfile) : SourceProfile :=
  let untriggered (r : RateBaseline) : RateBaseline := { r with globalTrigger := 0, effectiveTrigger := 0 }
  { p with
    pps := untriggered p.pps
    bps := untriggered p.bps
    syn := untriggered p.syn
    scan := untriggered p.scan }

/-- The highest trigger that a profile asks for a rate, where the configured one is at most `T`. -/
def SourceProfile.ceiling (T peakMultiplier : ℚ) (rate : Rate) (p : SourceProfile) : ℚ :=
  if p.promoted then max T ((rate.baseline p).peak * peakMultiplier) else T

theorem SourceProfile.record_learned (global effective : ℚ) (rate : Rate) (p : SourceProfile) :
    (rate.record global effective p).learned = p.learned := by
  cases rate <;> rfl

theorem SourceProfile.ceiling_learned (T peakMultiplier : ℚ) (rate : Rate) (p : SourceProfile) :
    p.learned.ceiling T peakMultiplier rate = p.ceiling T peakMultiplier rate := by
  cases rate <;> rfl

theorem SourceProfile.le_ceiling (T peakMultiplier : ℚ) (rate : Rate) (p : SourceProfile) :
    T ≤ p.ceiling T peakMultiplier rate := by
  unfold ceiling
  split_ifs
  · exact le_max_left _ _
  · exact le_rfl

namespace SourceBaselines

def learned (c : SourceBaselines) (id : String) : Option SourceProfile :=
  (c.profiles.lookup id).map SourceProfile.learned

def ceiling (T : ℚ) (rate : Rate) (srcIP : String) (c : SourceBaselines) : ℚ :=
  (c.learned srcIP).elim T (SourceProfile.ceiling T c.cfg.peakMultiplier rate)

variable {srcIP : String} {rate : Rate} {c : SourceBaselines} {p : SourceProfile} {T globalTrig : ℚ}

theorem learned_insert (p : SourceProfile) (dirty : List String) (id : String) :
    learned ⟨c.cfg, c.profiles.insert srcIP p, dirty⟩ id = if id = srcIP then some p.learned else c.learned id := by
  split_ifs with h
  · subst h
    simp [learned]
  · simp [learned, AList.lookup_insert_ne h]

theorem recordTriggerLocked_learned (hp : p ∈ c.profiles.lookup srcIP) (global effective : ℚ) :
    (c.recordTriggerLocked srcIP p global effective rate).learned = c.learned := by
  have hsame (dirty : List String) :
      learned ⟨c.cfg, c.profiles.insert srcIP (rate.record global effective p), dirty⟩ = c.learned := by
    funext id
    rw [learned_insert, SourceProfile.record_learned]
    split_ifs with h
    · rw [h, learned, Option.mem_def.mp hp]
      rfl
    · rfl
  unfold recordTriggerLocked
  dsimp only
  split_ifs
  · exact hsame _
  · exact hsame _

/-- To ask for a trigger changes nothing that was learned. -/
theorem effectiveTrig_learned : (c.effectiveTrig rate srcIP globalTrig).2.learned = c.learned := by
  unfold effectiveTrig recordDisabledTrigger effectiveTrigger
  split_ifs
  · split
    · rfl
    · exact recordTriggerLocked_learned ‹_› 0 0
  · split
    · rfl
    · dsimp only
      split_ifs <;> exact recordTriggerLocked_learned ‹_› _ _

theorem effectiveTrig_le_ceiling (hpos : 0 < globalTrig) (hle : globalTrig ≤ T) :
    (c.effectiveTrig rate srcIP globalTrig).1 ≤ c.ceiling T rate srcIP := by
  unfold effectiveTrig effectiveTrigger ceiling learned
  rw [if_neg hpos.not_ge]
  cases hp : c.profiles.lookup srcIP with
  | none => exact hle
  | some p =>
    have hceiling := hle.trans (p.le_ceiling T c.cfg.peakMultiplier rate)
    simp only [Option.map_some, Option.elim_some, SourceProfile.ceiling_learned]
    split_ifs with hunsure hraised
    · exact hceiling
    · have hpromoted : p.promoted = true := by simpa using (not_or.mp hunsure).1
      rw [SourceProfile.ceiling, if_pos hpromoted]
      cases rate <;> exact le_max_right _ _
    · exact hceiling

/-- Each of the triggers is asked of a cache that has learned the same. -/
theorem effectiveTriggers_apply (srcIP : String) (trig : Rate → ℚ) (c : SourceBaselines) (rate : Rate) :
    ∃ c' : SourceBaselines, c'.learned = c.learned ∧ c'.cfg = c.cfg ∧
      (c.effectiveTriggers srcIP trig).1 rate = (c'.effectiveTrig rate srcIP (trig rate)).1 := by
  let pps := c.effectiveTrigPPS srcIP (trig .pps)
  let bps := pps.2.effectiveTrigBPS srcIP (trig .bps)
  let syn := bps.2.effectiveTrigSyn srcIP (trig .syn)
  have hpps : pps.2.learned = c.learned ∧ pps.2.cfg = c.cfg := ⟨effectiveTrig_learned, effectiveTrig_cfg⟩
  have hbps : bps.2.learned = c.learned ∧ bps.2.cfg = c.cfg :=
    ⟨effectiveTrig_learned.trans hpps.1, effectiveTrig_cfg.trans hpps.2⟩
  have hsyn : syn.2.learned = c.learned ∧ syn.2.cfg = c.cfg :=
    ⟨effectiveTrig_learned.trans hbps.1, effectiveTrig_cfg.trans hbps.2⟩
  cases rate with
  | pps => exact ⟨c, rfl, rfl, rfl⟩
  | bps => exact ⟨pps.2, hpps.1, hpps.2, rfl⟩
  | syn => exact ⟨bps.2, hbps.1, hbps.2, rfl⟩
  | scan => exact ⟨syn.2, hsyn.1, hsyn.2, rfl⟩

theorem effectiveTriggers_frame (srcIP : String) (trig : Rate → ℚ) (c : SourceBaselines) :
    (c.effectiveTriggers srcIP trig).2.learned = c.learned ∧ (c.effectiveTriggers srcIP trig).2.cfg = c.cfg := by
  refine ⟨?_, ?_⟩
  · exact effectiveTrig_learned.trans (effectiveTrig_learned.trans (effectiveTrig_learned.trans effectiveTrig_learned))
  · exact effectiveTrig_cfg.trans (effectiveTrig_cfg.trans (effectiveTrig_cfg.trans effectiveTrig_cfg))

theorem le_effectiveTriggers (srcIP : String) (trig : Rate → ℚ) (c : SourceBaselines) (rate : Rate) :
    trig rate ≤ (c.effectiveTriggers srcIP trig).1 rate := by
  obtain ⟨c', -, -, heq⟩ := effectiveTriggers_apply srcIP trig c rate
  rw [heq]
  exact le_effectiveTrig

theorem effectiveTriggers_le {trig : Rate → ℚ} (hpos : 0 < trig rate) (hle : trig rate ≤ T) :
    (c.effectiveTriggers srcIP trig).1 rate ≤ c.ceiling T rate srcIP := by
  obtain ⟨c', hlearned, hcfg, heq⟩ := effectiveTriggers_apply srcIP trig c rate
  have hasked : (c'.effectiveTrig rate srcIP (trig rate)).1 ≤ c'.ceiling T rate srcIP :=
    effectiveTrig_le_ceiling hpos hle
  rw [ceiling, hlearned, hcfg] at hasked
  exact heq.trans_le hasked

end SourceBaselines

end Learned

section Creep

/-- How far a rate of a profile may have crept in its observations, where the configured triggers are at
most `T` and each observation is below the trigger it was asked with. -/
structure SourceProfile.Crept (T K : ℚ) (minObs reads : Nat) (rate : Rate) (p : SourceProfile) : Prop where
  obsCount : p.obsCount ≤ reads
  candidate : p.promoted = false → (rate.baseline p).ewma ≤ T
  promoted : p.promoted = true → minObs ≤ p.obsCount
  peak : p.promoted = true → (rate.baseline p).peak ≤ 3 / 2 * T * K ^ (p.obsCount - minObs)

namespace SourceProfile

variable {T K : ℚ} {minObs reads : Nat} {rate : Rate} {p : SourceProfile} {cfg : SourceBaselineConfig}
variable {pps bps syn scan : ℚ} {now clock : Time}

theorem crept_learned : p.learned.Crept T K minObs reads rate ↔ p.Crept T K minObs reads rate := by
  cases rate <;> exact ⟨fun h => ⟨h.1, h.2, h.3, h.4⟩, fun h => ⟨h.1, h.2, h.3, h.4⟩⟩

theorem crept_fresh (hT : 0 ≤ T) : Crept T K minObs reads rate { firstSeen := now } where
  obsCount := Nat.zero_le _
  candidate _ := by cases rate <;> exact hT
  promoted h := nomatch h
  peak h := nomatch h

theorem Crept.mono {reads' : Nat} (h : p.Crept T K minObs reads rate) (hle : reads ≤ reads') :
    p.Crept T K minObs reads' rate :=
  { h with obsCount := h.obsCount.trans hle }

theorem le_crept_bound (hT : 0 ≤ T) (hK : 1 ≤ K) (n : Nat) : T ≤ 3 / 2 * T * K ^ n := by
  have hpow : 1 ≤ K ^ n := one_le_pow₀ hK
  nlinarith

theorem Crept.ceiling_le (h : p.Crept T K minObs reads rate) (hT : 0 ≤ T) (hK : 1 ≤ K) {peakMultiplier : ℚ}
    (hpm : 0 < peakMultiplier) (hle : peakMultiplier ≤ K) :
    p.ceiling T peakMultiplier rate ≤ 3 / 2 * T * K ^ (p.obsCount + 1 - minObs) := by
  unfold ceiling
  split_ifs with hpromoted
  · refine max_le (le_crept_bound hT hK _) ?_
    have hnonneg : 0 ≤ 3 / 2 * T * K ^ (p.obsCount - minObs) := by positivity
    calc (rate.baseline p).peak * peakMultiplier
        ≤ 3 / 2 * T * K ^ (p.obsCount - minObs) * peakMultiplier :=
          mul_le_mul_of_nonneg_right (h.peak hpromoted) hpm.le
      _ ≤ 3 / 2 * T * K ^ (p.obsCount - minObs) * K := mul_le_mul_of_nonneg_left hle hnonneg
      _ = 3 / 2 * T * K ^ (p.obsCount + 1 - minObs) := by
          rw [Nat.sub_add_comm (h.promoted hpromoted), pow_succ]
          ring
  · exact le_crept_bound hT hK _

theorem baseline_promote (minObs : Nat) : rate.baseline (p.promote minObs) =
    if ¬ p.promoted ∧ minObs ≤ p.obsCount then (rate.baseline p).seedPeak else rate.baseline p := by
  unfold promote
  split_ifs
  · cases rate <;> rfl
  · rfl

theorem promoted_promote (minObs : Nat) :
    (p.promote minObs).promoted = (p.promoted || decide (minObs ≤ p.obsCount)) := by
  unfold promote
  split_ifs with h
  · simp [h.2]
  · cases hp : p.promoted with
    | true => rfl
    | false => simp_all

/-- The profile of an observation before it is promoted. -/
def counted (cfg : SourceBaselineConfig) (pps bps syn scan : ℚ) (now : Time) (p : SourceProfile) : SourceProfile :=
  { p.learnRates (if p.promoted then cfg.alphaPromoted else cfg.alpha) pps bps syn scan with
    obsCount := p.obsCount + 1, windows := p.windows + 1, lastSeen := now }

theorem baseline_counted : rate.baseline (p.counted cfg pps bps syn scan now) =
    (rate.baseline p).learn (p.obsCount = 0) p.promoted (if p.promoted then cfg.alphaPromoted else cfg.alpha)
      (rate.observed pps bps syn scan) := by
  cases rate <;> rfl

theorem baseline_observe : rate.baseline (p.observe cfg pps bps syn scan now clock) =
    rate.baseline ((p.counted cfg pps bps syn scan now).promote cfg.minObs) := by
  cases rate <;> rfl

theorem promoted_observe : (p.observe cfg pps bps syn scan now clock).promoted =
    (p.promoted || decide (cfg.minObs ≤ p.obsCount + 1)) :=
  promoted_promote (p := p.counted cfg pps bps syn scan now) cfg.minObs

/-- An observation that stays below the ceiling of its rate lets the baseline creep by one step. -/
theorem Crept.observe (h : p.Crept T K cfg.minObs reads rate) (hT : 0 ≤ T) (hK : 1 ≤ K)
    (hpm : 0 < cfg.peakMultiplier) (hle : cfg.peakMultiplier ≤ K) (ha : cfg.alpha ∈ Set.Ioc 0 1)
    (hx : rate.observed pps bps syn scan ≤ p.ceiling T cfg.peakMultiplier rate) :
    (p.observe cfg pps bps syn scan now clock).Crept T K cfg.minObs (reads + 1) rate := by
  have hcount := (p.observe_frame cfg pps bps syn scan now clock).1
  have hceiling := hx.trans (h.ceiling_le hT hK hpm hle)
  have hobs : (p.observe cfg pps bps syn scan now clock).obsCount ≤ reads + 1 :=
    hcount.trans_le (Nat.succ_le_succ h.obsCount)
  cases hp : p.promoted with
  | true =>
    have hminObs := h.promoted hp
    refine ⟨hobs, fun hno => ?_, fun _ => by omega, fun _ => ?_⟩
    · rw [promoted_observe, hp] at hno
      cases hno
    · have hkept : (rate.baseline p).peak ≤ 3 / 2 * T * K ^ (p.obsCount + 1 - cfg.minObs) := by
        refine (h.peak hp).trans (mul_le_mul_of_nonneg_left ?_ (by positivity))
        exact pow_le_pow_right₀ hK (by omega)
      have hlearned : rate.baseline (p.observe cfg pps bps syn scan now clock) =
          (rate.baseline p).learn (p.obsCount = 0) true cfg.alphaPromoted (rate.observed pps bps syn scan) := by
        rw [baseline_observe, baseline_promote, if_neg fun hboth => hboth.1 hp, baseline_counted, hp]
        rfl
      rw [hlearned, hcount, RateBaseline.learn]
      dsimp only
      split_ifs
      · exact hceiling
      · exact hkept
  | false =>
    have hceiling : rate.observed pps bps syn scan ≤ T := by
      rwa [ceiling, hp, if_neg Bool.false_ne_true] at hx
    let r := (rate.baseline p).learn (p.obsCount = 0) false cfg.alpha (rate.observed pps bps syn scan)
    have hewma : r.ewma ≤ T := by
      have hbefore := h.candidate hp
      dsimp only [r, RateBaseline.learn]
      split_ifs
      · exact hceiling
      · nlinarith [ha.1, ha.2]
    have hlearned : rate.baseline (p.observe cfg pps bps syn scan now clock) =
        if cfg.minObs ≤ p.obsCount + 1 then r.seedPeak else r := by
      rw [baseline_observe, baseline_promote, baseline_counted]
      simp [r, hp, counted, learnRates]
    refine ⟨hobs, fun _ => ?_, fun hyes => ?_, fun hyes => ?_⟩
    · rw [hlearned]
      split_ifs <;> exact hewma
    · rw [promoted_observe, hp] at hyes
      rw [hcount]
      simpa using hyes
    · rw [promoted_observe, hp] at hyes
      rw [hlearned, if_pos (by simpa using hyes), RateBaseline.seedPeak]
      have hpow := le_crept_bound hT hK (n := (p.observe cfg pps bps syn scan now clock).obsCount - cfg.minObs)
      have hone : 1 ≤ K ^ ((p.observe cfg pps bps syn scan now clock).obsCount - cfg.minObs) := one_le_pow₀ hK
      nlinarith

end SourceProfile

namespace SourceBaselines

variable {T : ℚ} {rate : Rate} {reads reads' : String → Nat} {c c' : SourceBaselines} {srcIP : String}

/-- Every profile has crept no further than the reads of its source let it. -/
def Kept (T : ℚ) (rate : Rate) (reads : String → Nat) (c : SourceBaselines) : Prop :=
  ∀ id, ∀ p ∈ c.learned id, p.Crept T (max 1 c.cfg.peakMultiplier) c.cfg.minObs (reads id) rate

theorem Kept.congr (h : c.Kept T rate reads) (hlearned : c'.learned = c.learned) (hcfg : c'.cfg = c.cfg) :
    c'.Kept T rate reads := by
  intro id p hp
  rw [hlearned] at hp
  rw [hcfg]
  exact h id p hp

theorem Kept.lookup (h : c.Kept T rate reads) {id : String} {p : SourceProfile} (hp : p ∈ c.profiles.lookup id) :
    p.Crept T (max 1 c.cfg.peakMultiplier) c.cfg.minObs (reads id) rate :=
  SourceProfile.crept_learned.mp (h id _ (Option.mem_map_of_mem _ hp))

theorem Kept.mono (h : c.Kept T rate reads) (hle : ∀ id, reads id ≤ reads' id) : c.Kept T rate reads' :=
  fun id p hp => (h id p hp).mono (hle id)

/-- A rate that no trigger of a source can exceed after some reads of it. -/
def surgeBound (cfg : SourceBaselineConfig) (T : ℚ) (reads : Nat) : ℚ :=
  3 / 2 * T * max 1 cfg.peakMultiplier ^ (reads + 1 - cfg.minObs)

theorem Kept.ceiling_le (h : c.Kept T rate reads) (hT : 0 ≤ T) (hpm : 0 < c.cfg.peakMultiplier) :
    c.ceiling T rate srcIP ≤ surgeBound c.cfg T (reads srcIP) := by
  have hK : 1 ≤ max 1 c.cfg.peakMultiplier := le_max_left _ _
  unfold ceiling surgeBound
  cases hp : c.learned srcIP with
  | none => exact SourceProfile.le_crept_bound hT hK _
  | some p =>
    have hcrept := h srcIP p hp
    have hexponent : p.obsCount + 1 - c.cfg.minObs ≤ reads srcIP + 1 - c.cfg.minObs :=
      Nat.sub_le_sub_right (Nat.succ_le_succ hcrept.obsCount) _
    refine (hcrept.ceiling_le hT hK hpm (le_max_right _ _)).trans ?_
    exact mul_le_mul_of_nonneg_left (pow_le_pow_right₀ hK hexponent) (by positivity)

theorem Kept.put (h : c.Kept T rate reads) {p : SourceProfile}
    (hp : p.Crept T (max 1 c.cfg.peakMultiplier) c.cfg.minObs (reads srcIP) rate) :
    (c.put srcIP p).Kept T rate reads := by
  intro id q hq
  rw [SourceBaselines.put, learned_insert] at hq
  split_ifs at hq with hid
  · obtain rfl := Option.some.inj hq
    rw [hid]
    exact SourceProfile.crept_learned.mpr hp
  · exact h id q hq

/-- An update of a source that was read once more, with a rate below its ceiling unless it is skipped. -/
theorem Kept.update {pps bps syn scan : ℚ} {isSuspicious : Bool} {now clock : Time} (h : c.Kept T rate reads)
    (hT : 0 ≤ T) (hpm : 0 < c.cfg.peakMultiplier) (ha : c.cfg.alpha ∈ Set.Ioc 0 1)
    (hle : ∀ id, reads id ≤ reads' id) (hread : reads srcIP + 1 ≤ reads' srcIP)
    (hx : isSuspicious = false → rate.observed pps bps syn scan ≤ c.ceiling T rate srcIP) :
    (c.update srcIP pps bps syn scan isSuspicious now clock).Kept T rate reads' := by
  have hkept := h.mono hle
  have hK : 1 ≤ max 1 c.cfg.peakMultiplier := le_max_left _ _
  unfold SourceBaselines.update
  split
  · exact hkept
  · rename_i hsuspicious
    have hx := hx (Bool.eq_false_iff.mpr hsuspicious)
    split
    · exact hkept
    · split
      · rename_i p hp
        have hceiling : c.ceiling T rate srcIP = p.ceiling T c.cfg.peakMultiplier rate := by
          rw [ceiling, learned, hp]
          exact p.ceiling_learned T _ rate
        rw [hceiling] at hx
        exact hkept.put (((h.lookup hp).observe hT hK hpm (le_max_right _ _) ha hx).mono hread)
      · rename_i hp
        have hceiling : c.ceiling T rate srcIP = T := by
          rw [ceiling, learned, hp]
          rfl
        have hfresh : SourceProfile.Crept T (max 1 c.cfg.peakMultiplier) c.cfg.minObs (reads srcIP) rate
            { firstSeen := now } := SourceProfile.crept_fresh hT
        rw [hceiling] at hx
        split
        · exact hkept
        · exact hkept.put ((hfresh.observe hT hK hpm (le_max_right _ _) ha hx).mono hread)

theorem mem_evict {cutoff : Time} {id : String} {p : SourceProfile} (hp : p ∈ (c.evict cutoff).learned id) :
    p ∈ c.learned id := by
  have herase : ∀ (stale : List String) (m : GoMap SourceProfile),
      ∀ q ∈ (stale.foldl (fun m id => m.erase id) m).lookup id, q ∈ m.lookup id := by
    intro stale
    induction stale with
    | nil => exact fun m q hq => hq
    | cons id' stale ih =>
      intro m q hq
      have hq := ih _ q hq
      by_cases hid : id = id'
      · subst hid
        rw [AList.lookup_erase] at hq
        cases hq
      · rwa [AList.lookup_erase_ne hid] at hq
  obtain ⟨q, hq, rfl⟩ := Option.mem_map.mp hp
  exact Option.mem_map_of_mem _ (herase _ _ q hq)

theorem Kept.evict (h : c.Kept T rate reads) (cutoff : Time) : (c.evict cutoff).Kept T rate reads :=
  fun id p hp => h id p (mem_evict hp)

end SourceBaselines

end Creep

section Surges

variable {decimal : Nat → ℚ → String} {T : ℚ} {rate : Rate} {base : SourceBaselineConfig}

theorem fifty_le_normToScore {norm : ℚ} (h : 1 ≤ norm) (cap : ℚ) : 50 ≤ normToScore norm cap := by
  unfold normToScore
  dsimp only
  set cap' : ℚ := if cap ≤ 1 then 3 else cap
  have hcap : 1 < cap' := by
    simp only [cap']
    split_ifs with h'
    · norm_num
    · exact not_le.mp h'
  have hrise : 0 ≤ (norm - 1) / (cap' - 1) * 50 := by
    have hdiv := div_nonneg (sub_nonneg.mpr h) (sub_nonneg.mpr hcap.le)
    positivity
  have hint : 50 ≤ intOf (50 + (norm - 1) / (cap' - 1) * 50) := by
    rw [intOf, if_pos (by linarith)]
    exact Int.le_floor.mpr (by push_cast; linarith)
  unfold clampScore
  split_ifs <;> omega

theorem sourceBaselineSkipReason_eq_empty {severity dropRLRate : ℚ} {signalCount : Nat}
    (h : sourceBaselineSkipReason severity signalCount dropRLRate = "") : signalCount = 0 := by
  unfold sourceBaselineSkipReason at h
  split_ifs at h with _ hsignals
  · exact absurd h (by decide)
  · exact absurd h (by decide)
  · exact absurd h (by decide)
  · omega

/-- A watched rate at or above its trigger raises its signal. -/
theorem signal_of_exceeded {cfg : EngineConfig} {sample : RateSample} (decimal : Nat → ℚ → String)
    (h : cfg.Exceeded sample rate) (draw : SignalDraw) (subject : SignalSubject) :
    ∃ sig ∈ (evaluateWith decimal cfg draw subject sample).2,
      sig.type = (rateReport rate).type ∧ sig.subject = subject ∧ 50 ≤ sig.score := by
  have hnorm : 1 ≤ sample.value rate / cfg.trig rate := (one_le_div h.1).mpr h.2.2
  have hscore := fifty_le_normToScore hnorm cfg.sevCap
  let sev := calcSeverity sample.value cfg.trig cfg.weight cfg.sevCap
  obtain ⟨sig, hsig⟩ : ∃ sig, rateSignal decimal cfg draw subject sample sev rate = some sig :=
    ⟨_, if_pos h⟩
  have hmem : sig ∈ (evaluateWith decimal cfg draw subject sample).2 := by
    refine List.mem_append_left _ (List.mem_filterMap.mpr ⟨rate, ?_, hsig⟩)
    cases rate <;> decide
  rw [rateSignal, if_pos h] at hsig
  obtain rfl := Option.some.inj hsig
  refine ⟨_, hmem, rfl, rfl, ?_⟩
  change 50 ≤ clampScore _
  unfold clampScore
  split_ifs <;> omega

/-- The trigger of the rate is on, and it is at most `T`. -/
structure EngineConfig.Watches (T : ℚ) (rate : Rate) (cfg : EngineConfig) : Prop where
  pos : 0 < cfg.trig rate
  le : cfg.trig rate ≤ T
  weight : rate = .bps → 0 < cfg.weight .bps

def SensorEvent.Watches (T : ℚ) (rate : Rate) : SensorEvent → Prop
  | .configured cfg => cfg.Watches T rate
  | .tuned th => rate.observed th.trigPPS th.trigBPS th.trigSyn th.trigScan ∈ Set.Ioc 0 T
  | .updated values => ∀ v ∈ values.lookup (rateMetric rate), v ∈ Set.Ioc 0 T
  | _ => True

def SensorEvent.reads (id : String) : SensorEvent → Bool
  | .read _ _ _ e => e.subjectID = id
  | _ => false

namespace RuntimeAdapter

variable {a : RuntimeAdapter} {reads reads' : String → Nat} {subjectID ipVersion : String} {s : RateSample}
variable {now clock : Time} {draw : SignalDraw}

/-- What the baseline learned of a source. -/
def learned (a : RuntimeAdapter) (id : String) : Option SourceProfile := a.baseline.bind fun c => c.learned id

structure Guards (base : SourceBaselineConfig) (T : ℚ) (rate : Rate) (reads : String → Nat) (a : RuntimeAdapter) :
    Prop where
  engine : a.engine.Watches T rate
  cfg : ∀ c ∈ a.baseline, c.cfg = base
  kept : ∀ c ∈ a.baseline, c.Kept T rate reads

theorem Guards.nonneg (h : a.Guards base T rate reads) : 0 ≤ T := h.engine.pos.le.trans h.engine.le

theorem Guards.mono (h : a.Guards base T rate reads) (hle : ∀ id, reads id ≤ reads' id) :
    a.Guards base T rate reads' :=
  { h with kept := fun c hc => (h.kept c hc).mono hle }

/-- A sample scored with the triggers that a baseline has for its source. -/
def scored (decimal : Nat → ℚ → String) (subjectID : String) (s : RateSample) (draw : SignalDraw)
    (c : SourceBaselines) (a : RuntimeAdapter) : ℚ × List Signal :=
  evaluateWith decimal { a.engine with trig := (c.effectiveTriggers subjectID a.engine.trig).1 } draw
    ⟨"ip", subjectID, ""⟩ s

variable {c : SourceBaselines}

theorem Guards.exceeded (decimal : Nat → ℚ → String) (draw : SignalDraw) (h : a.Guards base T rate reads)
    (hle : (c.effectiveTriggers subjectID a.engine.trig).1 rate ≤ s.value rate) :
    ∃ sig ∈ (a.scored decimal subjectID s draw c).2,
      sig.type = (rateReport rate).type ∧ sig.subject = ⟨"ip", subjectID, ""⟩ ∧ 50 ≤ sig.score := by
  have hexceeded : EngineConfig.Exceeded
      { a.engine with trig := (c.effectiveTriggers subjectID a.engine.trig).1 } s rate :=
    ⟨h.engine.pos.trans_le (le_effectiveTriggers subjectID a.engine.trig c rate), h.engine.weight, hle⟩
  exact signal_of_exceeded decimal hexceeded draw _

section Baseline

variable (hc : a.baseline = some c)
include hc

theorem signals_observationFor : (a.observationFor decimal subjectID ipVersion s now clock draw).1.signals =
    (a.scored decimal subjectID s draw c).2 := by
  unfold observationFor
  rw [hc]
  rfl

theorem baseline_observationFor : (a.observationFor decimal subjectID ipVersion s now clock draw).2.baseline =
    some ((c.effectiveTriggers subjectID a.engine.trig).2.update subjectID s.pps s.bps s.synRate s.scanRate
      (sourceBaselineSkipReason (a.scored decimal subjectID s draw c).1
        (a.scored decimal subjectID s draw c).2.length s.dropRLRate ≠ "") now clock) := by
  unfold observationFor
  rw [hc]
  rfl

end Baseline

/-- A sample that is learned raised no signal, so that its rate is below the ceiling of its source. -/
theorem Guards.observationFor (h : a.Guards base T rate reads) (hpm : 0 < base.peakMultiplier)
    (ha : base.alpha ∈ Set.Ioc 0 1) (hle : ∀ id, reads id ≤ reads' id)
    (hread : reads subjectID + 1 ≤ reads' subjectID) :
    (a.observationFor decimal subjectID ipVersion s now clock draw).2.Guards base T rate reads' := by
  cases hc : a.baseline with
  | none =>
    have hnone : (a.observationFor decimal subjectID ipVersion s now clock draw).2.baseline = none := by
      rw [RuntimeAdapter.observationFor, hc]
      rfl
    refine ⟨h.engine, fun c' hc' => ?_, fun c' hc' => ?_⟩
    all_goals
      rw [hnone] at hc'
      cases hc'
  | some c =>
    obtain ⟨hlearned, hcfg⟩ := effectiveTriggers_frame subjectID a.engine.trig c
    have hbase := hcfg.trans (h.cfg c hc)
    have hafter : (a.observationFor decimal subjectID ipVersion s now clock draw).2.baseline = _ :=
      baseline_observationFor hc
    refine ⟨h.engine, fun c' hc' => ?_, fun c' hc' => ?_⟩
    · obtain rfl := Option.some.inj (hafter.symm.trans hc')
      exact (update_cfg ..).trans hbase
    · obtain rfl := Option.some.inj (hafter.symm.trans hc')
      have hkept := (h.kept c hc).congr hlearned hcfg
      refine hkept.update h.nonneg (by rwa [hbase]) (by rwa [hbase]) hle hread fun hlearns => ?_
      have hempty := not_not.mp (of_decide_eq_false hlearns)
      have hbelow : s.value rate < (c.effectiveTriggers subjectID a.engine.trig).1 rate := by
        by_contra hge
        obtain ⟨sig, hsig, -⟩ := h.exceeded decimal draw (not_lt.mp hge)
        exact (List.length_pos_of_mem hsig).ne' (sourceBaselineSkipReason_eq_empty hempty)
      have hceiling : ceiling T rate subjectID (c.effectiveTriggers subjectID a.engine.trig).2 =
          c.ceiling T rate subjectID := by
        rw [ceiling, hlearned, hcfg]
        rfl
      rw [hceiling]
      exact hbelow.le.trans (effectiveTriggers_le h.engine.pos h.engine.le)

/-- A surge of a source raises its signal, and nothing is learned of it. -/
theorem Guards.signalled (h : a.Guards base T rate reads) (hpm : 0 < base.peakMultiplier)
    (hsurge : surgeBound base T (reads subjectID) ≤ s.value rate) :
    (∃ sig ∈ (a.observationFor decimal subjectID ipVersion s now clock draw).1.signals,
      sig.type = (rateReport rate).type ∧ sig.subject = ⟨"ip", subjectID, ""⟩ ∧ 50 ≤ sig.score) ∧
    (a.observationFor decimal subjectID ipVersion s now clock draw).2.learned = a.learned := by
  cases hc : a.baseline with
  | none =>
    have hbound := SourceProfile.le_crept_bound h.nonneg (le_max_left 1 base.peakMultiplier)
      (reads subjectID + 1 - base.minObs)
    refine ⟨?_, ?_⟩
    · rw [RuntimeAdapter.observationFor, hc]
      have hexceeded : a.engine.Exceeded s rate :=
        ⟨h.engine.pos, h.engine.weight, h.engine.le.trans (hbound.trans hsurge)⟩
      exact signal_of_exceeded decimal hexceeded draw _
    · funext id
      rw [learned, learned, RuntimeAdapter.observationFor, hc]
      rfl
  | some c =>
    have hcfg := h.cfg c hc
    have hceiling : c.ceiling T rate subjectID ≤ surgeBound c.cfg T (reads subjectID) :=
      (h.kept c hc).ceiling_le h.nonneg (by rwa [hcfg])
    rw [hcfg] at hceiling
    have hle := (effectiveTriggers_le h.engine.pos h.engine.le).trans (hceiling.trans hsurge)
    obtain ⟨sig, hsig, hreport⟩ := h.exceeded decimal draw hle
    refine ⟨⟨sig, ?_, hreport⟩, ?_⟩
    · rw [signals_observationFor hc]
      exact hsig
    · have hskip : sourceBaselineSkipReason (a.scored decimal subjectID s draw c).1
          (a.scored decimal subjectID s draw c).2.length s.dropRLRate ≠ "" :=
        fun hempty => (List.length_pos_of_mem hsig).ne' (sourceBaselineSkipReason_eq_empty hempty)
      funext id
      rw [learned, learned, baseline_observationFor hc, hc, decide_eq_true hskip]
      exact congrFun (effectiveTriggers_frame subjectID a.engine.trig c).1 id

theorem Guards.sample (h : a.Guards base T rate reads) (interval : Duration) (e : PollEvent) :
    (a.sample interval e).2.Guards base T rate reads := by
  cases e <;> exact ⟨h.engine, h.cfg, h.kept⟩

theorem read_of_none {interval : Duration} {e : PollEvent} (h : (a.sample interval e).1 = none) :
    a.read decimal interval clock draw e = (none, (a.sample interval e).2) := by
  unfold RuntimeAdapter.read
  dsimp only
  rw [h]
  rfl

theorem read_of_some {interval : Duration} {e : PollEvent} (h : (a.sample interval e).1 = some s) :
    let observed := (a.sample interval e).2.observationFor decimal e.subjectID e.ipVersion s e.now clock draw
    a.read decimal interval clock draw e = (some observed.1, observed.2) := by
  unfold RuntimeAdapter.read
  dsimp only
  rw [h]
  rfl

theorem Guards.read (h : a.Guards base T rate reads) (hpm : 0 < base.peakMultiplier)
    (ha : base.alpha ∈ Set.Ioc 0 1) (interval : Duration) {e : PollEvent} (hle : ∀ id, reads id ≤ reads' id)
    (hread : reads e.subjectID + 1 ≤ reads' e.subjectID) :
    (a.read decimal interval clock draw e).2.Guards base T rate reads' := by
  cases hs : (a.sample interval e).1 with
  | none =>
    rw [read_of_none hs]
    exact (h.sample interval e).mono hle
  | some s =>
    rw [read_of_some hs]
    dsimp only
    exact (h.sample interval e).observationFor hpm ha hle hread

theorem Guards.updateEngineConfig (h : a.Guards base T rate reads) {cfg : EngineConfig} (hcfg : cfg.Watches T rate) :
    (a.updateEngineConfig cfg).Guards base T rate reads :=
  ⟨⟨hcfg.pos, hcfg.le, hcfg.weight⟩, h.cfg, h.kept⟩

theorem Guards.turn (h : a.Guards base T rate reads) (hpm : 0 < base.peakMultiplier)
    (ha : base.alpha ∈ Set.Ioc 0 1) {e : SensorEvent} (he : e.Watches T rate) (hle : ∀ id, reads id ≤ reads' id)
    (hread : ∀ id, e.reads id = true → reads id + 1 ≤ reads' id) :
    (a.turn decimal e).Guards base T rate reads' := by
  cases e with
  | read interval clock draw e => exact h.read hpm ha interval hle (hread e.subjectID (decide_eq_true rfl))
  | configured cfg => exact (h.updateEngineConfig he).mono hle
  | tuned th =>
    let trig (rate : Rate) := rate.observed th.trigPPS th.trigBPS th.trigSyn th.trigScan
    have hcfg : EngineConfig.Watches T rate { a.engine with trig } := ⟨he.1, he.2, h.engine.weight⟩
    exact (h.updateEngineConfig hcfg).mono hle
  | updated values =>
    refine (h.updateEngineConfig ?_).mono hle
    cases hv : values.lookup (rateMetric rate) with
    | none => exact ⟨by simpa [hv] using h.engine.pos, by simpa [hv] using h.engine.le, h.engine.weight⟩
    | some v =>
      have hbounds := he v hv
      exact ⟨by simpa [hv] using hbounds.1, by simpa [hv] using hbounds.2, h.engine.weight⟩
  | evicted cutoff =>
    refine Guards.mono ⟨h.engine, fun c' hc' => ?_, fun c' hc' => ?_⟩ hle
    · obtain ⟨c, hc, rfl⟩ := Option.mem_map.mp hc'
      exact h.cfg c hc
    · obtain ⟨c, hc, rfl⟩ := Option.mem_map.mp hc'
      exact (h.kept c hc).evict cutoff

variable (decimal) in
theorem guards_foldl {cfg : SensorConfig} {events : List SensorEvent} (hpm : 0 < base.peakMultiplier)
    (ha : base.alpha ∈ Set.Ioc 0 1) (hengine : cfg.engine.Watches T rate)
    (hevents : ∀ e ∈ events, e.Watches T rate) :
    (events.foldl (turn decimal) (new cfg (some (.new base)))).Guards base T rate
      fun id => events.countP (SensorEvent.reads id) := by
  induction events using List.reverseRecOn with
  | nil =>
    refine ⟨⟨hengine.pos, hengine.le, hengine.weight⟩, fun c hc => ?_, fun c hc => ?_⟩
    · obtain rfl := Option.some.inj hc
      rfl
    · obtain rfl := Option.some.inj hc
      exact fun _ _ hp => nomatch hp
  | append_singleton events e ih =>
    rw [List.foldl_concat]
    have hbefore := ih fun e' he' => hevents e' (List.mem_append_left _ he')
    refine hbefore.turn hpm ha (hevents e (by simp)) (fun id => ?_) fun id hid => ?_
    · simp [List.countP_append]
    · simp [List.countP_append, hid]

end RuntimeAdapter

def fixedDraw : SignalDraw := fun sigType => (sigType, 5)

end Surges

section Ramps

/-- A sample of packets that pass. -/
def packetsAt (pps : ℚ) : RateSample := ⟨pps, 0, 0, 0, pps, 0, 0, 0, 0⟩

/-- Thirty windows at the least rate that is learned, and a tenth more of the peak in each window from then on. -/
def rampPPS (n : Nat) : ℚ := if n < 30 then 3 else 9 / 2 * (11 / 10) ^ (n - 29)

variable (decimal : Nat → ℚ → String) (draw : SignalDraw) (id : String)

/-- The window that a source is read in after some others, a second apart. -/
def RuntimeAdapter.window (n : Nat) (s : RateSample) (a : RuntimeAdapter) : SourceReading × RuntimeAdapter :=
  a.observationFor decimal id "4" s (n * Duration.second) (n * Duration.second) draw

def RuntimeAdapter.afterWindows (w : Nat → RateSample) (a : RuntimeAdapter) : Nat → RuntimeAdapter
  | 0 => a
  | n + 1 => ((a.afterWindows w n).window decimal draw id n (w n)).2

/-- What the ramp has a profile learn by its first windows. -/
structure Ramped (n : Nat) (p : SourceProfile) : Prop where
  obsCount : p.obsCount = n
  windows : p.windows = n
  firstSeen : p.firstSeen ≤ 0
  promoted : p.promoted = decide (30 ≤ n)
  candidate : 0 < n → n < 30 → p.pps.ewma = 3
  peak : 30 ≤ n → p.pps.peak = 9 / 2 * (11 / 10) ^ (n - 30)
  confidence : 30 ≤ n → 2 / 5 ≤ p.confidence

theorem ramped_fresh : Ramped 0 { firstSeen := 0 } where
  obsCount := rfl
  windows := rfl
  firstSeen := le_rfl
  promoted := rfl
  candidate h := absurd h (lt_irrefl 0)
  peak h := absurd h (by decide)
  confidence h := absurd h (by decide)

theorem le_confidence {n : Nat} {p : SourceProfile} (hn : 30 ≤ n) (hobs : p.obsCount = n) (hwindows : p.windows = n)
    {clock : Time} (hage : p.firstSeen ≤ clock) : 2 / 5 ≤ (p.recomputeConfidence 100 clock).confidence := by
  have hcast : (30 : ℚ) ≤ n := by exact_mod_cast hn
  have hobsScore : (0 : ℚ) ≤ min ((n : ℚ) / (max 100 100 : Nat)) 1 := by positivity
  have hwinScore : min ((n : ℚ) / 24) 1 = 1 := min_eq_right (by linarith)
  have hageScore : 0 ≤ min (((clock - p.firstSeen : Int) : ℚ) / 10 ^ 9 / (7 * 24 * 3600)) 1 := by
    have hnonneg : (0 : ℚ) ≤ ((clock - p.firstSeen : Int) : ℚ) := by exact_mod_cast sub_nonneg.mpr hage
    positivity
  unfold SourceProfile.recomputeConfidence
  dsimp only
  rw [hobs, hwindows, hwinScore]
  linarith

theorem Ramped.observe {n : Nat} {p : SourceProfile} (h : Ramped n p) {now : Time} (hnow : 0 ≤ now) :
    Ramped (n + 1) (p.observe {} (rampPPS n) 0 0 0 now now) := by
  obtain ⟨hobs, -, hfirst⟩ := p.observe_frame {} (rampPPS n) 0 0 0 now now
  have hwindows : (p.observe {} (rampPPS n) 0 0 0 now now).windows = n + 1 := by
    rw [← h.windows]
    unfold SourceProfile.observe SourceProfile.promote
    dsimp only
    split_ifs <;> rfl
  have hpromoted : (p.observe {} (rampPPS n) 0 0 0 now now).promoted = decide (30 ≤ n + 1) := by
    rw [SourceProfile.promoted_observe, h.promoted, h.obsCount]
    by_cases hn : 30 ≤ n <;> simp [hn]
    omega
  let r := p.pps.learn (decide (n = 0)) (decide (30 ≤ n)) (if 30 ≤ n then 1 / 50 else 1 / 10) (rampPPS n)
  have hpps : (p.observe {} (rampPPS n) 0 0 0 now now).pps =
      if ¬ 30 ≤ n ∧ 30 ≤ n + 1 then r.seedPeak else r := by
    let q := p.counted {} (rampPPS n) 0 0 0 now
    have hq : q.pps = r ∧ q.promoted = decide (30 ≤ n) ∧ q.obsCount = n + 1 := by
      refine ⟨?_, h.promoted, by rw [← h.obsCount]; rfl⟩
      change p.pps.learn (p.obsCount = 0) p.promoted (if p.promoted then 1 / 50 else 1 / 10) (rampPPS n) = r
      rw [h.obsCount, h.promoted]
      simp [r]
    calc (p.observe {} (rampPPS n) 0 0 0 now now).pps = Rate.pps.baseline (q.promote 30) := rfl
      _ = if ¬ q.promoted ∧ 30 ≤ q.obsCount then q.pps.seedPeak else q.pps := SourceProfile.baseline_promote 30
      _ = if ¬ 30 ≤ n ∧ 30 ≤ n + 1 then r.seedPeak else r := by
        rw [hq.1, hq.2.1, hq.2.2]
        simp
  have hewma : n < 30 → r.ewma = 3 := by
    intro hn
    have hcandidate := h.candidate
    dsimp only [r, RateBaseline.learn]
    rw [rampPPS, if_pos hn, if_neg hn.not_ge]
    split_ifs with hfirst
    · rfl
    · rw [hcandidate (Nat.pos_of_ne_zero (by simpa using hfirst)) hn]
      norm_num
  refine ⟨hobs.trans (by rw [h.obsCount]), hwindows, hfirst.trans_le h.firstSeen, hpromoted,
    fun _ hn => ?_, fun hn => ?_, fun hn => ?_⟩
  · rw [hpps, if_neg (by omega)]
    exact hewma (by omega)
  · rcases Nat.lt_or_ge n 30 with hlt | hge
    · rw [hpps, if_pos ⟨hlt.not_ge, hn⟩, RateBaseline.seedPeak]
      dsimp only
      obtain rfl : n = 29 := by omega
      rw [hewma hlt]
      norm_num
    · have hpeak := h.peak hge
      rw [hpps, if_neg (fun hboth => hboth.1 hge)]
      dsimp only [r, RateBaseline.learn]
      rw [rampPPS, if_neg hge.not_gt, hpeak]
      obtain ⟨k, rfl⟩ := Nat.exists_eq_add_of_le' hge
      have hgrows : (0 : ℚ) < (11 / 10) ^ k := by positivity
      simp only [Nat.add_sub_cancel, show k + 30 - 29 = k + 1 by omega, show k + 30 + 1 - 30 = k + 1 by omega]
      rw [if_pos ⟨by simp, by rw [pow_succ]; linarith⟩]
  · have hage : (p.observe {} (rampPPS n) 0 0 0 now now).firstSeen ≤ now :=
      hfirst.trans_le (h.firstSeen.trans hnow)
    exact le_confidence (p := (p.counted {} (rampPPS n) 0 0 0 now).promote 30) hn
      (hobs.trans (by rw [h.obsCount])) hwindows hage

theorem evaluateWith_quiet (cfg : EngineConfig) {x : ℚ} (hx : 0 ≤ x) (hlt : x < cfg.trig .pps)
    (hweight : cfg.weight .pps ∈ Set.Icc 0 1) (hcap : 0 < cfg.sevCap) (subject : SignalSubject) :
    (evaluateWith decimal cfg draw subject (packetsAt x)).2 = [] ∧
      (evaluateWith decimal cfg draw subject (packetsAt x)).1 < 1 := by
  have hpos := hx.trans_lt hlt
  have hbelow (rate : Rate) : ¬ cfg.Exceeded (packetsAt x) rate := by
    rintro ⟨hon, -, hexceeded⟩
    cases rate with
    | pps => exact hlt.not_ge hexceeded
    | bps => exact hon.not_ge hexceeded
    | syn => exact hon.not_ge hexceeded
    | scan => exact hon.not_ge hexceeded
  have hzero (trig : ℚ) : normalised 0 trig cfg.sevCap = 0 := by
    unfold normalised
    rw [zero_div, min_eq_left hcap.le, ite_self]
  have hratio : normalised x (cfg.trig .pps) cfg.sevCap ∈ Set.Ico 0 1 := by
    rw [normalised, if_pos hpos]
    exact ⟨le_min (div_nonneg hx hpos.le) hcap.le, (min_le_left _ _).trans_lt ((div_lt_one hpos).mpr hlt)⟩
  constructor
  · have hnone (rate : Rate) (sev : ℚ) : rateSignal decimal cfg draw subject (packetsAt x) sev rate = none :=
      if_neg (hbelow rate)
    have hdrop (sev : ℚ) : dropSignal decimal cfg draw subject (packetsAt x) sev = none := by
      simp [dropSignal, packetsAt]
    simp [evaluateWith, hnone, hdrop]
  · change calcSeverity _ _ _ _ < 1
    unfold calcSeverity
    dsimp only [RateSample.value, Rate.observed, packetsAt]
    rw [hzero, hzero, hzero]
    nlinarith [hratio.1, hratio.2, hweight.1, hweight.2]

theorem ramped_learned {n : Nat} {p : SourceProfile} : Ramped n p.learned ↔ Ramped n p :=
  ⟨fun h => ⟨h.1, h.2, h.3, h.4, h.5, h.6, h.7⟩, fun h => ⟨h.1, h.2, h.3, h.4, h.5, h.6, h.7⟩⟩

theorem rampPPS_pos (n : Nat) : 3 ≤ rampPPS n := by
  unfold rampPPS
  split_ifs
  · exact le_rfl
  · have hgrows : (1 : ℚ) ≤ (11 / 10) ^ (n - 29) := one_le_pow₀ (by norm_num)
    linarith

/-- The trigger of a source that the ramp has walked is above its next window. -/
theorem Ramped.lt_effectiveTrigPPS {n : Nat} {p : SourceProfile} (h : Ramped n p) {c : SourceBaselines}
    (hcfg : c.cfg = {}) (hp : c.profiles.lookup id = some p) {trig : ℚ} (htrig : 3 < trig) :
    rampPPS n < (c.effectiveTrigPPS id trig).1 := by
  rcases Nat.lt_or_ge n 30 with hlt | hge
  · rw [rampPPS, if_pos hlt]
    exact htrig.trans_le le_effectiveTrig
  · obtain ⟨k, rfl⟩ := Nat.exists_eq_add_of_le' hge
    have hgrows : (0 : ℚ) < (11 / 10) ^ k := by positivity
    have hpeak := h.peak hge
    have hraised : p.pps.peak * (6 / 5) ≤ (c.effectiveTrigPPS id trig).1 := by
      have hsure : ¬ (¬ p.promoted ∨ p.confidence < c.cfg.minConfidence) := by
        have hconfidence := h.confidence hge
        rw [hcfg, h.promoted]
        simpa using hconfidence
      unfold effectiveTrigPPS effectiveTrig effectiveTrigger
      rw [if_neg (by linarith), hp]
      dsimp only
      rw [if_neg hsure, hcfg]
      split_ifs with hbelow
      · exact le_rfl
      · exact not_lt.mp hbelow
    refine lt_of_lt_of_le ?_ hraised
    rw [rampPPS, if_neg hge.not_gt, hpeak]
    simp only [Nat.add_sub_cancel, show k + 30 - 29 = k + 1 by omega]
    rw [pow_succ]
    linarith

/-- The state of the adapter along the ramp. -/
structure Ramping (engine : EngineConfig) (n : Nat) (c : SourceBaselines) (a : RuntimeAdapter) : Prop where
  engine : a.engine = engine
  baseline : a.baseline = some c
  cfg : c.cfg = {}
  profile : (n = 0 ∧ c.profiles = ∅) ∨ ∃ p, c.profiles.lookup id = some p ∧ Ramped n p

theorem effectiveTriggers_of_none {c : SourceBaselines} (h : c.profiles.lookup id = none) (trig : Rate → ℚ) :
    (c.effectiveTriggers id trig).2 = c := by
  have hsame (rate : Rate) (globalTrig : ℚ) : (c.effectiveTrig rate id globalTrig).2 = c := by
    unfold effectiveTrig recordDisabledTrigger effectiveTrigger
    rw [h]
    split_ifs <;> rfl
  unfold effectiveTriggers effectiveTrigPPS effectiveTrigBPS effectiveTrigSyn effectiveTrigScan
  simp only [hsame]

theorem lookup_update_of_some {c : SourceBaselines} {p : SourceProfile} (hp : c.profiles.lookup id = some p)
    {pps : ℚ} (hpps : c.cfg.minUpdatePPS ≤ pps) (now : Time) :
    (c.update id pps 0 0 0 false now now).profiles.lookup id = some (p.observe c.cfg pps 0 0 0 now now) := by
  unfold update
  rw [if_neg Bool.false_ne_true, if_neg hpps.not_gt, hp]
  exact AList.lookup_insert ..

theorem lookup_update_of_empty {c : SourceBaselines} (hempty : c.profiles = ∅) (hroom : 0 < c.cfg.maxSources)
    {pps : ℚ} (hpps : c.cfg.minUpdatePPS ≤ pps) (now : Time) : (c.update id pps 0 0 0 false now now).profiles.lookup id =
      some (SourceProfile.observe c.cfg pps 0 0 0 now now { firstSeen := now }) := by
  have hp : c.profiles.lookup id = none := by rw [hempty, AList.lookup_empty]
  have hlength : ¬ c.cfg.maxSources ≤ c.profiles.entries.length := by
    rw [hempty]
    exact hroom.not_ge
  unfold update
  rw [if_neg Bool.false_ne_true, if_neg hpps.not_gt, hp]
  dsimp only
  rw [if_neg hlength]
  exact AList.lookup_insert ..

/-- A window of the ramp raises no signal, and it is learned. -/
theorem Ramping.window {engine : EngineConfig} {n : Nat} {c : SourceBaselines} {a : RuntimeAdapter}
    (h : Ramping id engine n c a) (htrig : 3 < engine.trig .pps) (hweight : engine.weight .pps ∈ Set.Icc 0 1)
    (hcap : 0 < engine.sevCap) :
    (a.window decimal draw id n (packetsAt (rampPPS n))).1.signals = [] ∧
      ∃ c', Ramping id engine (n + 1) c' (a.window decimal draw id n (packetsAt (rampPPS n))).2 := by
  obtain ⟨rfl, hbaseline, hcfg, hprofile⟩ := h
  let asked := c.effectiveTriggers id a.engine.trig
  let now : Time := n * Duration.second
  have hnow : 0 ≤ now := mul_nonneg (Int.natCast_nonneg n) (by decide)
  have hlt : rampPPS n < asked.1 .pps := by
    rcases hprofile with ⟨rfl, hempty⟩ | ⟨p, hp, hramped⟩
    · exact htrig.trans_le (le_effectiveTriggers id a.engine.trig c .pps)
    · exact hramped.lt_effectiveTrigPPS id hcfg hp htrig
  obtain ⟨hsilent, hlow⟩ := evaluateWith_quiet decimal draw { a.engine with trig := asked.1 }
    (by linarith [rampPPS_pos n]) hlt hweight hcap ⟨"ip", id, ""⟩
  have hskip : sourceBaselineSkipReason (a.scored decimal id (packetsAt (rampPPS n)) draw c).1
      (a.scored decimal id (packetsAt (rampPPS n)) draw c).2.length 0 = "" := by
    have hlow : (a.scored decimal id (packetsAt (rampPPS n)) draw c).1 < 1 := hlow
    have hsilent : (a.scored decimal id (packetsAt (rampPPS n)) draw c).2 = [] := hsilent
    simp [sourceBaselineSkipReason, hsilent, hlow]
  obtain ⟨hlearned, haskedCfg⟩ := effectiveTriggers_frame id a.engine.trig c
  have hbase : asked.2.cfg = {} := haskedCfg.trans hcfg
  have hlearns : asked.2.cfg.minUpdatePPS ≤ rampPPS n := by
    rw [hbase]
    exact rampPPS_pos n
  refine ⟨(RuntimeAdapter.signals_observationFor hbaseline).trans hsilent,
    asked.2.update id (rampPPS n) 0 0 0 false now now, rfl, ?_, (update_cfg ..).trans hbase, .inr ?_⟩
  · refine (RuntimeAdapter.baseline_observationFor hbaseline).trans ?_
    rw [show (packetsAt (rampPPS n)).dropRLRate = 0 from rfl, hskip]
    rfl
  · rcases hprofile with ⟨rfl, hempty⟩ | ⟨p, hp, hramped⟩
    · have hkept : asked.2 = c := effectiveTriggers_of_none id (by rw [hempty, AList.lookup_empty]) _
      have hroom : 0 < asked.2.cfg.maxSources := by
        rw [hbase]
        decide
      refine ⟨_, lookup_update_of_empty id (by rw [hkept, hempty]) hroom hlearns now, ?_⟩
      rw [hbase]
      exact ramped_fresh.observe hnow
    · obtain ⟨p', hp', hsame⟩ : ∃ p', asked.2.profiles.lookup id = some p' ∧ p'.learned = p.learned := by
        have hid := congrFun hlearned id
        rw [learned, learned, hp] at hid
        exact Option.map_eq_some_iff.mp hid
      refine ⟨_, lookup_update_of_some id hp' hlearns now, ?_⟩
      rw [hbase]
      exact (ramped_learned.mp (hsame ▸ ramped_learned.mpr hramped)).observe hnow

end Ramps

end Kernloom
