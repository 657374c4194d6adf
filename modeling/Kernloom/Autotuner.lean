import Kernloom.GoValue
import Kernloom.Transition

/-! The autotuner of the shield: reservoirs of samples, and the thresholds that a tick derives from their
medians and deviations. -/

namespace Kernloom.Autotune

inductive Signal
  | pps | syn | scan | bps
  deriving DecidableEq

structure Thresholds where
  trigPPS : ℚ := 0
  trigSyn : ℚ := 0
  trigScan : ℚ := 0
  trigBPS : ℚ := 0
  deriving DecidableEq

structure Policy where
  active : Bool := false
  every : Duration := 0
  k : ℚ := 0
  maxUp : ℚ := 0
  maxDown : ℚ := 0
  alpha : ℚ := 0
  phase : String := ""

structure Config where
  minSamples : Int := 0
  floorPPS : ℚ := 0
  floorSyn : ℚ := 0
  floorScan : ℚ := 0
  floorBPS : ℚ := 0
  minWindowsBeforeDownscale : Int := 0
  minSourcesBeforeDownscale : Int := 0

structure TickResult where
  oldThresholds : Thresholds := {}
  newThresholds : Thresholds := {}
  medianPPS : ℚ := 0
  madPPS : ℚ := 0
  medianSyn : ℚ := 0
  madSyn : ℚ := 0
  medianScan : ℚ := 0
  madScan : ℚ := 0
  medianBPS : ℚ := 0
  madBPS : ℚ := 0
  sampleCount : Nat := 0
  cleanRatio : ℚ := 0
  completedWindows : Int := 0
  phase : String := ""
  skipped : Bool := false
  skipReason : String := ""

def Thresholds.get (t : Thresholds) : Signal → ℚ
  | .pps => t.trigPPS
  | .syn => t.trigSyn
  | .scan => t.trigScan
  | .bps => t.trigBPS

def Config.floor (cfg : Config) : Signal → ℚ
  | .pps => cfg.floorPPS
  | .syn => cfg.floorSyn
  | .scan => cfg.floorScan
  | .bps => cfg.floorBPS

section Statistics

def median (xs : List ℚ) : ℚ :=
  let cp := xs.insertionSort (· ≤ ·)
  let m := cp.length / 2
  if xs = [] then 0
  else if cp.length % 2 = 1 then cp.getD m 0
  else (cp.getD (m - 1) 0 + cp.getD m 0) / 2

def mad (xs : List ℚ) (m : ℚ) : ℚ := if xs = [] then 0 else median (xs.map fun x => |x - m|)

/-- Limits the change of one cycle in each direction. -/
def capChangeDir (current target maxUp maxDown : ℚ) : ℚ :=
  if current ≤ 0 then target
  else
    let target := if 0 < maxUp ∧ current * (1 + maxUp) < target then current * (1 + maxUp) else target
    if 0 < maxDown ∧ target < current * (1 - maxDown) then current * (1 - maxDown) else target

end Statistics

section Reservoirs

/-- A sample of bounded size of what was seen. -/
structure Reservoir where
  data : List ℚ := []
  cap : Nat := 0
  seen : Nat := 0

/-- `pick` is the random number below the count of samples seen. A negative sample is not kept. -/
def Reservoir.add (r : Reservoir) (pick : Nat) (x : ℚ) : Reservoir :=
  if x < 0 then r
  else
    let seen := r.seen + 1
    if r.data.length < r.cap then { r with data := r.data ++ [x], seen }
    else if pick < r.cap then { r with data := r.data.set pick x, seen }
    else { r with seen }

structure Tuner where
  resPPS : Reservoir
  resSyn : Reservoir
  resScan : Reservoir
  resBps : Reservoir
  thresholds : Thresholds
  cfg : Config
  lastTune : Time := 0
  skipCount : Nat := 0
  completedWindows : Int := 0
  distinctSources : Finset String := ∅

def Tuner.new (initial : Thresholds) (cfg : Config) (reservoirCap : Int) : Tuner :=
  let cap := if reservoirCap ≤ 0 then 50000 else reservoirCap.toNat
  { resPPS := { cap }, resSyn := { cap }, resScan := { cap }, resBps := { cap }, thresholds := initial,
    cfg := cfg }

def Tuner.reservoir (a : Tuner) : Signal → Reservoir
  | .pps => a.resPPS
  | .syn => a.resSyn
  | .scan => a.resScan
  | .bps => a.resBps

def Tuner.updateConfig (a : Tuner) (cfg : Config) : Tuner := { a with cfg := cfg }

/-- The samples of one source; `picks` are the random numbers of the reservoirs. -/
def Tuner.recordSample (a : Tuner) (sample : Signal → ℚ) (source : String) (addToReservoir : Bool)
    (picks : Signal → Nat) : Tuner :=
  if addToReservoir then
    { a with
      resPPS := a.resPPS.add (picks .pps) (sample .pps)
      resSyn := a.resSyn.add (picks .syn) (sample .syn)
      resScan := a.resScan.add (picks .scan) (sample .scan)
      resBps := a.resBps.add (picks .bps) (sample .bps)
      distinctSources := insert source a.distinctSources }
  else a

end Reservoirs

section Tick

def estimate (pol : Policy) (floor : ℚ) (data : List ℚ) : ℚ :=
  max floor (median data + pol.k * mad data (median data))

def smooth (pol : Policy) (old target : ℚ) : ℚ :=
  if ¬ pol.active ∧ 0 < pol.alpha ∧ pol.alpha < 1 then old * (1 - pol.alpha) + target * pol.alpha else target

/-- The next threshold of a signal that the downscale guard is applied to. -/
def tuned (pol : Policy) (canDownscale : Bool) (floor old : ℚ) (data : List ℚ) : ℚ :=
  let target := estimate pol floor data
  let target := if ¬ canDownscale ∧ target < old then old else target
  smooth pol old (capChangeDir old target pol.maxUp pol.maxDown)

/-- The next threshold of the bytes, opted into by its floor. The guard is not looked at here. -/
def tunedBPS (pol : Policy) (cfg : Config) (old : ℚ) (data : List ℚ) : ℚ :=
  if 0 < cfg.floorBPS ∧ cfg.minSamples ≤ data.length then
    smooth pol old (capChangeDir old (estimate pol cfg.floorBPS data) pol.maxUp pol.maxDown)
  else old

variable (a : Tuner) (pol : Policy)

/-- The downscale guard leaves the thresholds free to fall. -/
def Tuner.canDownscale : Bool :=
  let guardEnabled := pol.active ∧ 0 < a.cfg.minWindowsBeforeDownscale
  ¬ guardEnabled ∨
    (a.cfg.minWindowsBeforeDownscale ≤ a.completedWindows ∧
      (a.cfg.minSourcesBeforeDownscale = 0 ∨ a.cfg.minSourcesBeforeDownscale ≤ a.distinctSources.card))

def Tuner.nextThresholds : Thresholds where
  trigPPS := tuned pol (a.canDownscale pol) a.cfg.floorPPS a.thresholds.trigPPS a.resPPS.data
  trigSyn := tuned pol (a.canDownscale pol) a.cfg.floorSyn a.thresholds.trigSyn a.resSyn.data
  trigScan := tuned pol (a.canDownscale pol) a.cfg.floorScan a.thresholds.trigScan a.resScan.data
  trigBPS := tunedBPS pol a.cfg a.thresholds.trigBPS a.resBps.data

def Tuner.due (now : Time) : Prop := 0 < pol.every ∧ pol.every ≤ now - a.lastTune

instance (now : Time) : Decidable (a.due pol now) := inferInstanceAs (Decidable (_ ∧ _))

def Tuner.sampleCount : Nat := min a.resPPS.data.length (min a.resSyn.data.length a.resScan.data.length)

/-- Too few samples, and not the second time in a row. -/
def Tuner.skips : Prop := a.sampleCount < a.cfg.minSamples ∧ (a.sampleCount < 50 ∨ a.skipCount + 1 < 2)

instance : Decidable a.skips := inferInstanceAs (Decidable (_ ∧ _))

/-- A tick tunes the thresholds, unless it is not due or has too few samples. -/
def Tuner.tunes (now : Time) : Prop := a.due pol now ∧ ¬ a.skips

instance (now : Time) : Decidable (a.tunes pol now) := inferInstanceAs (Decidable (_ ∧ _))

/-- One tick: its result, whether the thresholds were updated, and the tuner after it. -/
def Tuner.tick (now : Time) (cleanRatio : ℚ) : (TickResult × Bool) × Tuner :=
  if ¬ a.due pol now then (({}, false), a)
  else if a.skips then
    (({ skipped := true, skipReason := "not enough samples", sampleCount := a.sampleCount, cleanRatio :=
      cleanRatio
        phase := pol.phase }, false), { a with skipCount := a.skipCount + 1, lastTune := now })
  else
    let bpsTuned := 0 < a.cfg.floorBPS ∧ a.cfg.minSamples ≤ a.resBps.data.length
    let mBps := if bpsTuned then median a.resBps.data else 0
    let mdBps := if bpsTuned then mad a.resBps.data mBps else 0
    let thresholds := a.nextThresholds pol
    (({ oldThresholds := a.thresholds
        newThresholds := thresholds
        medianPPS := median a.resPPS.data
        madPPS := mad a.resPPS.data (median a.resPPS.data)
        medianSyn := median a.resSyn.data
        madSyn := mad a.resSyn.data (median a.resSyn.data)
        medianScan := median a.resScan.data
        madScan := mad a.resScan.data (median a.resScan.data)
        medianBPS := mBps
        madBPS := mdBps
        sampleCount := a.sampleCount
        cleanRatio := cleanRatio
        completedWindows := a.completedWindows + 1
        phase := pol.phase }, true),
      { a with
        thresholds := thresholds
        skipCount := 0
        lastTune := now
        completedWindows := a.completedWindows + 1
        distinctSources := ∅ })

theorem Tuner.tick_thresholds (now : Time) (cleanRatio : ℚ) : (a.tick pol now cleanRatio).2.thresholds =
    if a.tunes pol now then a.nextThresholds pol else a.thresholds := by
  unfold tick tunes
  by_cases hdue : a.due pol now
  · by_cases hskips : a.skips
    · simp [hdue, hskips]
    · simp [hdue, hskips]
  · simp [hdue]

end Tick

section Runs

inductive Event
  | record (sample : Signal → ℚ) (source : String) (addToReservoir : Bool) (picks : Signal → Nat)
  | updateConfig (cfg : Config)
  | tick (now : Time) (pol : Policy) (cleanRatio : ℚ)

def Tuner.turn (a : Tuner) : Event → Tuner
  | .record sample source addToReservoir picks => a.recordSample sample source addToReservoir picks
  | .updateConfig cfg => a.updateConfig cfg
  | .tick now pol cleanRatio => (a.tick pol now cleanRatio).2

end Runs

end Kernloom.Autotune
