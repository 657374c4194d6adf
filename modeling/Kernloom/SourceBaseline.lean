import Kernloom.GoValue

/-! The per-source baselines: what the runtime learns of the traffic of each source. Floating point
numbers are taken as exact. -/

namespace Kernloom

/-- What a profile keeps of one rate: its moving average, its peak, and the triggers last seen. -/
structure RateBaseline where
  ewma : Rat := 0
  peak : Rat := 0
  globalTrigger : Rat := 0
  effectiveTrigger : Rat := 0
  deriving DecidableEq

structure SourceProfile where
  pps : RateBaseline := {}
  bps : RateBaseline := {}
  syn : RateBaseline := {}
  scan : RateBaseline := {}
  obsCount : Nat := 0
  windows : Nat := 0
  firstSeen : Time
  lastSeen : Time := 0
  promoted : Bool := false
  confidence : Rat := 0
  deriving DecidableEq

structure SourceBaselineConfig where
  alpha : Rat := 1 / 10
  alphaPromoted : Rat := 1 / 50
  minUpdatePPS : Rat := 3
  minObs : Nat := 30
  minConfObs : Nat := 100
  maxSources : Nat := 100000
  peakMultiplier : Rat := 6 / 5
  minConfidence : Rat := 2 / 5

namespace RateBaseline

/-- The first value seeds the average; the peak moves once the profile is promoted. -/
def learn (first promoted : Bool) (alpha x : Rat) (r : RateBaseline) : RateBaseline :=
  { r with
    ewma := if first then x else (1 - alpha) * r.ewma + alpha * x
    peak := if promoted ∧ r.peak < x then x else r.peak }

def seedPeak (r : RateBaseline) : RateBaseline := { r with peak := r.ewma * (3 / 2) }

end RateBaseline

namespace SourceProfile

/-- `clock` is the time of the call, which the age is measured by. -/
def recomputeConfidence (minConfObs : Nat) (clock : Time) (p : SourceProfile) : SourceProfile :=
  let obsScore : Rat := min ((p.obsCount : Rat) / (max minConfObs 100 : Nat)) 1
  let winScore : Rat := min ((p.windows : Rat) / 24) 1
  let ageScore : Rat := min (((clock - p.firstSeen : Int) : Rat) / 10 ^ 9 / (7 * 24 * 3600)) 1
  { p with confidence := 2 / 5 * obsScore + 2 / 5 * winScore + 1 / 5 * ageScore }

/-- The four rates after one more observation. -/
def learnRates (alpha pps bps syn scan : Rat) (p : SourceProfile) : SourceProfile :=
  let first : Bool := p.obsCount = 0
  { p with
    pps := p.pps.learn first p.promoted alpha pps
    bps := p.bps.learn first p.promoted alpha bps
    syn := p.syn.learn first p.promoted alpha syn
    scan := p.scan.learn first p.promoted alpha scan }

def promote (minObs : Nat) (p : SourceProfile) : SourceProfile :=
  if ¬ p.promoted ∧ minObs ≤ p.obsCount then
    { p with
      promoted := true
      pps := p.pps.seedPeak
      bps := p.bps.seedPeak
      syn := p.syn.seedPeak
      scan := p.scan.seedPeak }
  else p

def observe (cfg : SourceBaselineConfig) (pps bps syn scan : Rat) (now clock : Time) (p : SourceProfile) :
    SourceProfile :=
  let alpha := if p.promoted then cfg.alphaPromoted else cfg.alpha
  let p := p.learnRates alpha pps bps syn scan
  let p := { p with obsCount := p.obsCount + 1, windows := p.windows + 1, lastSeen := now }
  (p.promote cfg.minObs).recomputeConfidence cfg.minConfObs clock

/-- The triggers of the four rates. -/
def triggerFingerprint (p : SourceProfile) : List Rat :=
  [p.pps.globalTrigger, p.pps.effectiveTrigger, p.bps.globalTrigger, p.bps.effectiveTrigger,
    p.syn.globalTrigger, p.syn.effectiveTrigger, p.scan.globalTrigger, p.scan.effectiveTrigger]

theorem promote_frame (minObs : Nat) (p : SourceProfile) :
    (p.promote minObs).obsCount = p.obsCount ∧ (p.promote minObs).lastSeen = p.lastSeen ∧
      (p.promote minObs).firstSeen = p.firstSeen := by
  unfold promote
  split <;> exact ⟨rfl, rfl, rfl⟩

theorem observe_frame (cfg : SourceBaselineConfig) (pps bps syn scan : Rat) (now clock : Time)
    (p : SourceProfile) :
    (p.observe cfg pps bps syn scan now clock).obsCount = p.obsCount + 1 ∧
      (p.observe cfg pps bps syn scan now clock).lastSeen = now ∧
      (p.observe cfg pps bps syn scan now clock).firstSeen = p.firstSeen :=
  promote_frame cfg.minObs _

end SourceProfile

structure SourceBaselines where
  cfg : SourceBaselineConfig
  profiles : GoMap SourceProfile
  dirty : List String

structure SourceSnapshot where
  sourceID : String
  profile : SourceProfile
  deriving DecidableEq

namespace SourceBaselines

def new (cfg : SourceBaselineConfig) : SourceBaselines := ⟨cfg, ∅, []⟩

/-- Puts a profile that was changed. -/
def put (srcIP : String) (p : SourceProfile) (c : SourceBaselines) : SourceBaselines :=
  { c with profiles := c.profiles.insert srcIP p, dirty := c.dirty.insert srcIP }

def update (srcIP : String) (pps bps syn scan : Rat) (isSuspicious : Bool) (now clock : Time)
    (c : SourceBaselines) :
    SourceBaselines :=
  if isSuspicious then c
  else if pps < c.cfg.minUpdatePPS then c
  else match c.profiles.lookup srcIP with
    | some p => c.put srcIP (p.observe c.cfg pps bps syn scan now clock)
    | none =>
      if c.cfg.maxSources ≤ c.profiles.entries.length then c
      else c.put srcIP (SourceProfile.observe c.cfg pps bps syn scan now clock { firstSeen := now })

/-- The rates a trigger is kept for. -/
inductive Rate
  | pps
  | bps
  | syn
  | scan

def Rate.value : Rate → SourceProfile → Rat
  | .pps, p => p.pps.peak
  | .bps, p => p.bps.peak
  | .syn, p => p.syn.peak
  | .scan, p => p.scan.peak

def Rate.record (global effective : Rat) : Rate → SourceProfile → SourceProfile
  | .pps, p => { p with pps := { p.pps with globalTrigger := global, effectiveTrigger := effective } }
  | .bps, p => { p with bps := { p.bps with globalTrigger := global, effectiveTrigger := effective } }
  | .syn, p => { p with syn := { p.syn with globalTrigger := global, effectiveTrigger := effective } }
  | .scan, p => { p with scan := { p.scan with globalTrigger := global, effectiveTrigger := effective } }

def recordTriggerLocked (srcIP : String) (p : SourceProfile) (globalTrig effectiveTrig : Rat) (rate : Rate)
    (c : SourceBaselines) : SourceBaselines :=
  let after := rate.record globalTrig effectiveTrig p
  if after.triggerFingerprint ≠ p.triggerFingerprint then c.put srcIP after
  else { c with profiles := c.profiles.insert srcIP after }

def recordDisabledTrigger (srcIP : String) (rate : Rate) (c : SourceBaselines) : SourceBaselines :=
  match c.profiles.lookup srcIP with
  | none => c
  | some p => c.recordTriggerLocked srcIP p 0 0 rate

def effectiveTrigger (srcIP : String) (globalTrig : Rat) (rate : Rate) (c : SourceBaselines) :
    Rat × SourceBaselines :=
  match c.profiles.lookup srcIP with
  | none => (globalTrig, c)
  | some p =>
    if ¬ p.promoted ∨ p.confidence < c.cfg.minConfidence then
      (globalTrig, c.recordTriggerLocked srcIP p globalTrig globalTrig rate)
    else
      let effective := rate.value p * c.cfg.peakMultiplier
      if globalTrig < effective then (effective, c.recordTriggerLocked srcIP p globalTrig effective rate)
      else (globalTrig, c.recordTriggerLocked srcIP p globalTrig globalTrig rate)

/-- The trigger of a rate for a source; one that is off is recorded as zero. -/
def effectiveTrig (rate : Rate) (srcIP : String) (globalTrig : Rat) (c : SourceBaselines) :
    Rat × SourceBaselines :=
  if globalTrig ≤ 0 then (0, c.recordDisabledTrigger srcIP rate) else c.effectiveTrigger srcIP globalTrig rate

def effectiveTrigPPS := effectiveTrig .pps
def effectiveTrigBPS := effectiveTrig .bps
def effectiveTrigSyn := effectiveTrig .syn
def effectiveTrigScan := effectiveTrig .scan

def snapshot (c : SourceBaselines) : List SourceSnapshot := c.profiles.entries.map fun e => ⟨e.1, e.2⟩

/-- The profiles changed since the last time, whose marks it takes off. -/
def snapshotDirty (c : SourceBaselines) : List SourceSnapshot × SourceBaselines :=
  if c.dirty = [] then ([], c)
  else (c.dirty.filterMap fun id => (c.profiles.lookup id).map (SourceSnapshot.mk id), { c with dirty := [] })

theorem Rate.record_frame (global effective : Rat) (rate : Rate) (p : SourceProfile) :
    (rate.record global effective p).obsCount = p.obsCount ∧
    (rate.record global effective p).lastSeen = p.lastSeen ∧
    (rate.record global effective p).firstSeen = p.firstSeen := by
  cases rate <;> exact ⟨rfl, rfl, rfl⟩

/-- A record that leaves the triggers as they are leaves the profile. -/
theorem Rate.record_eq {global effective : Rat} {rate : Rate} {p : SourceProfile}
    (h : (rate.record global effective p).triggerFingerprint = p.triggerFingerprint) :
    rate.record global effective p = p := by
  cases rate <;> simp only [record, SourceProfile.triggerFingerprint, List.cons.injEq, true_and, and_true]
    at h ⊢ <;>
    (obtain ⟨rfl, rfl⟩ := h; rfl)

end SourceBaselines

end Kernloom
