import Kernloom.Autotuner

/-! The limits of a tuning cycle: how far each threshold may move, its floor, and the guard that keeps the
thresholds of an early cycle from falling. -/

namespace Kernloom.Autotune

open Transition

structure Policy.InRange (pol : Policy) : Prop where
  k : 0 ≤ pol.k
  maxDown : 0 ≤ pol.maxDown
  maxDown_lt : pol.maxDown < 1
  maxUp : 0 < pol.maxUp
  alpha : 0 ≤ pol.alpha
  alpha_le : pol.alpha ≤ 1

section Caps

variable {pol : Policy} {current target lo hi : ℚ}

theorem capChangeDir_of_nonpos (maxUp maxDown : ℚ) (h : current ≤ 0) :
    capChangeDir current target maxUp maxDown = target := if_pos h

theorem le_mul_one_add {x : ℚ} (hcurrent : 0 < current) (hx : 0 ≤ x) : current ≤ current * (1 + x) := by
  have hmul := mul_nonneg hcurrent.le hx
  linarith

theorem mul_one_sub_le {x : ℚ} (hcurrent : 0 < current) (hx : 0 ≤ x) : current * (1 - x) ≤ current := by
  have hmul := mul_nonneg hcurrent.le hx
  linarith

theorem capChangeDir_le (hpol : pol.InRange) (hcurrent : 0 < current) :
    capChangeDir current target pol.maxUp pol.maxDown ≤ current * (1 + pol.maxUp) := by
  have hup := le_mul_one_add hcurrent hpol.maxUp.le
  have hdown := mul_one_sub_le hcurrent hpol.maxDown
  have hon := hpol.maxUp
  unfold capChangeDir
  rw [if_neg (not_le.mpr hcurrent)]
  dsimp only
  split_ifs <;> grind

theorem le_capChangeDir (hpol : pol.InRange) (hcurrent : 0 < current) (hdown : 0 < pol.maxDown) :
    current * (1 - pol.maxDown) ≤ capChangeDir current target pol.maxUp pol.maxDown := by
  have hup := le_mul_one_add hcurrent hpol.maxUp.le
  have hle := mul_one_sub_le hcurrent hpol.maxDown
  unfold capChangeDir
  rw [if_neg (not_le.mpr hcurrent)]
  dsimp only
  split_ifs <;> grind

/-- A bound below both the old value and the one asked for. -/
theorem bound_le_capChangeDir (hpol : pol.InRange) (hcurrent : lo ≤ current) (htarget : lo ≤ target) :
    lo ≤ capChangeDir current target pol.maxUp pol.maxDown := by
  unfold capChangeDir
  by_cases hpos : current ≤ 0
  · rwa [if_pos hpos]
  · have hup := le_mul_one_add (not_le.mp hpos) hpol.maxUp.le
    rw [if_neg hpos]
    dsimp only
    split_ifs <;> grind

theorem capChangeDir_lt_iff (hpol : pol.InRange) (hcurrent : 0 < current) :
    capChangeDir current target pol.maxUp pol.maxDown < current ↔ target < current := by
  constructor
  · intro h
    by_contra hge
    exact absurd (bound_le_capChangeDir hpol le_rfl (not_lt.mp hge)) (not_le.mpr h)
  · intro h
    have hup := le_mul_one_add hcurrent hpol.maxUp.le
    have hdown : 0 < pol.maxDown → current * (1 - pol.maxDown) < current := by
      intro hdown
      have hmul := mul_pos hcurrent hdown
      linarith
    unfold capChangeDir
    rw [if_neg (not_le.mpr hcurrent)]
    dsimp only
    split_ifs <;> grind

theorem le_smooth {old : ℚ} (hold : lo ≤ old) (htarget : lo ≤ target) : lo ≤ smooth pol old target := by
  unfold smooth
  split_ifs with h
  · obtain ⟨-, halpha, halpha1⟩ := h
    have hleft := mul_le_mul_of_nonneg_right hold (sub_nonneg.mpr halpha1.le)
    have hright := mul_le_mul_of_nonneg_right htarget halpha.le
    linarith
  · exact htarget

theorem smooth_le {old : ℚ} (hold : old ≤ hi) (htarget : target ≤ hi) : smooth pol old target ≤ hi := by
  unfold smooth
  split_ifs with h
  · obtain ⟨-, halpha, halpha1⟩ := h
    have hleft := mul_le_mul_of_nonneg_right hold (sub_nonneg.mpr halpha1.le)
    have hright := mul_le_mul_of_nonneg_right htarget halpha.le
    linarith
  · exact htarget

theorem smooth_of_active {old : ℚ} (h : pol.active = true) : smooth pol old target = target := by
  unfold smooth
  rw [if_neg fun hactive => hactive.1 h]

end Caps

section Signals

variable {pol : Policy} {old target : ℚ}

def WithinStep (pol : Policy) (old new : ℚ) : Prop := old * (1 - pol.maxDown) ≤ new ∧
    new ≤ old * (1 + pol.maxUp)

theorem withinStep_refl (hpol : pol.InRange) (hold : 0 < old) : WithinStep pol old old :=
  ⟨mul_one_sub_le hold hpol.maxDown, le_mul_one_add hold hpol.maxUp.le⟩

/-- Whatever the samples ask for, the cap and the smoothing after it keep the step. -/
theorem withinStep_smooth_cap (hpol : pol.InRange) (hold : 0 < old) (hdown : 0 < pol.maxDown) :
    WithinStep pol old (smooth pol old (capChangeDir old target pol.maxUp pol.maxDown)) :=
  ⟨le_smooth (mul_one_sub_le hold hpol.maxDown) (le_capChangeDir hpol hold hdown),
    smooth_le (le_mul_one_add hold hpol.maxUp.le) (capChangeDir_le hpol hold)⟩

theorem bound_le_smooth_cap {lo : ℚ} (hpol : pol.InRange) (hold : lo ≤ old) (htarget : lo ≤ target) :
    lo ≤ smooth pol old (capChangeDir old target pol.maxUp pol.maxDown) :=
  le_smooth hold (bound_le_capChangeDir hpol hold htarget)

variable {canDownscale : Bool} {floor : ℚ} {data : List ℚ} {cfg : Config}

theorem floor_le_tuned (hpol : pol.InRange) (hold : floor ≤ old) :
    floor ≤ tuned pol canDownscale floor old data := by
  unfold tuned
  refine bound_le_smooth_cap hpol hold ?_
  split_ifs
  · exact hold
  · exact le_max_left _ _

theorem le_tuned (hpol : pol.InRange) (hguard : canDownscale = false) :
    old ≤ tuned pol canDownscale floor old data := by
  unfold tuned
  refine bound_le_smooth_cap hpol le_rfl ?_
  split_ifs with h
  · exact le_rfl
  · rw [hguard] at h
    exact not_lt.mp fun hlt => h ⟨Bool.false_ne_true, hlt⟩

theorem withinStep_tunedBPS (hpol : pol.InRange) (hold : 0 < old) (hdown : 0 < pol.maxDown) :
    WithinStep pol old (tunedBPS pol cfg old data) := by
  unfold tunedBPS
  split_ifs
  · exact withinStep_smooth_cap hpol hold hdown
  · exact withinStep_refl hpol hold

theorem floor_le_tunedBPS (hpol : pol.InRange) (hold : cfg.floorBPS ≤ old) :
    cfg.floorBPS ≤ tunedBPS pol cfg old data := by
  unfold tunedBPS
  split_ifs
  · exact bound_le_smooth_cap hpol hold (le_max_left _ _)
  · exact hold

/-- In the bootstrap the threshold of the bytes falls exactly when its samples ask for less. -/
theorem tunedBPS_lt_iff (hpol : pol.InRange) (hactive : pol.active = true) : tunedBPS pol cfg old data < old ↔
    0 < cfg.floorBPS ∧ cfg.minSamples ≤ data.length ∧ estimate pol cfg.floorBPS data < old := by
  unfold tunedBPS
  by_cases hon : 0 < cfg.floorBPS ∧ cfg.minSamples ≤ data.length
  · rw [if_pos hon, smooth_of_active hactive, ← and_assoc, and_iff_right hon]
    rcases le_or_gt old 0 with hold | hold
    · rw [capChangeDir_of_nonpos _ _ hold]
    · exact capChangeDir_lt_iff hpol hold
  · rw [if_neg hon, ← and_assoc]
    exact iff_of_false (lt_irrefl _) fun h => hon h.1

end Signals

section Ticks

structure Bounded (a : Tuner) (pol : Policy) (next : Thresholds) : Prop where
  guarded : a.canDownscale pol = false → ∀ s, a.thresholds.get s ≤ next.get s
  step : 0 < pol.maxDown → ∀ s, 0 < a.thresholds.get s → WithinStep pol (a.thresholds.get s) (next.get s)
  floor : ∀ s, a.cfg.floor s ≤ a.thresholds.get s → a.cfg.floor s ≤ next.get s

/-- The samples of the bytes ask for less than the threshold while the guard is active. -/
def FallsUnderGuard (a : Tuner) (pol : Policy) (now : Time) : Prop :=
  a.tunes pol now ∧ a.canDownscale pol = false ∧ 0 < a.cfg.floorBPS ∧
    a.cfg.minSamples ≤ a.resBps.data.length ∧
    estimate pol a.cfg.floorBPS a.resBps.data < a.thresholds.trigBPS

variable {a : Tuner} {pol : Policy} {now : Time}

theorem active_of_guard (h : a.canDownscale pol = false) : pol.active = true := by
  by_contra hactive
  simp [Tuner.canDownscale, hactive] at h

theorem bounded_refl (hpol : pol.InRange) : Bounded a pol a.thresholds where
  guarded _ _ := le_rfl
  step _ _ hold := withinStep_refl hpol hold
  floor _ h := h

theorem bounded_next_iff (hpol : pol.InRange) : Bounded a pol (a.nextThresholds pol) ↔
    (a.canDownscale pol = false → a.thresholds.trigBPS ≤ (a.nextThresholds pol).trigBPS) := by
  refine ⟨fun h hguard => h.guarded hguard .bps, fun h =>
    ⟨fun hguard s => ?_, fun hdown s hold => ?_, fun s hold => ?_⟩⟩
  · cases s with
    | bps => exact h hguard
    | _ => exact le_tuned hpol hguard
  · cases s with
    | bps => exact withinStep_tunedBPS hpol hold hdown
    | _ => exact withinStep_smooth_cap hpol hold hdown
  · cases s with
    | bps => exact floor_le_tunedBPS hpol hold
    | _ => exact floor_le_tuned hpol hold

/-- A tick keeps the bounds unless the unguarded threshold falls. -/
theorem bounded_tick_iff (hpol : pol.InRange) (cleanRatio : ℚ) :
    Bounded a pol (a.tick pol now cleanRatio).2.thresholds ↔ ¬ FallsUnderGuard a pol now := by
  rw [Tuner.tick_thresholds]
  by_cases htunes : a.tunes pol now
  · rw [if_pos htunes, bounded_next_iff hpol]
    constructor
    · rintro h ⟨-, hguard, hfalls⟩
      exact not_lt.mpr (h hguard) ((tunedBPS_lt_iff hpol (active_of_guard hguard)).mpr hfalls)
    · intro h hguard
      refine not_lt.mp fun hlt => h ⟨htunes, hguard, ?_⟩
      exact (tunedBPS_lt_iff hpol (active_of_guard hguard)).mp hlt
  · rw [if_neg htunes]
    exact iff_of_true (bounded_refl hpol) fun h => htunes h.1

end Ticks

section Runs

def KeepsBounds (a : Tuner) : Event → Prop
  | .tick now pol cleanRatio => pol.InRange → Bounded a pol (a.tick pol now cleanRatio).2.thresholds
  | _ => True

def KeepsGuard (a : Tuner) : Event → Prop
  | .tick now pol _ => pol.InRange → ¬ FallsUnderGuard a pol now
  | _ => True

def Event.Limited : Event → Prop
  | .tick _ pol _ => pol.InRange ∧ 0 < pol.maxDown
  | _ => True

def Thresholds.Positive (t : Thresholds) : Prop := ∀ s, 0 < t.get s

theorem positive_turn {a : Tuner} {e : Event} (he : e.Limited) (h : a.thresholds.Positive) :
    (a.turn e).thresholds.Positive := by
  cases e with
  | record sample source addToReservoir picks =>
    cases addToReservoir <;> exact h
  | updateConfig cfg => exact h
  | tick now pol cleanRatio =>
    obtain ⟨hpol, hdown⟩ := he
    intro s
    show 0 < (a.tick pol now cleanRatio).2.thresholds.get s
    have hstep : 0 < a.thresholds.get s * (1 - pol.maxDown) := mul_pos (h s) (sub_pos.mpr hpol.maxDown_lt)
    rw [Tuner.tick_thresholds]
    split_ifs
    · cases s with
      | bps => exact hstep.trans_le (withinStep_tunedBPS hpol (h .bps) hdown).1
      | _ => exact hstep.trans_le (withinStep_smooth_cap hpol (h _) hdown).1
    · exact h s

/-- Positive thresholds stay positive under limited ticks, so that the limits hold in every one of them. -/
theorem positive_foldl {a : Tuner} {events : List Event} (h : a.thresholds.Positive)
    (hevents : ∀ e ∈ events, e.Limited) : (events.foldl Tuner.turn a).thresholds.Positive := by
  induction events generalizing a with
  | nil => exact h
  | cons e events ih =>
    obtain ⟨he, hevents⟩ := List.forall_mem_cons.mp hevents
    exact ih (positive_turn he h) hevents

/-- In every sequence of samples, configurations and ticks, all ticks keep the bounds exactly when none of
them lets the threshold of the bytes fall while the guard is active. -/
theorem ticks_keep_bounds_iff (a : Tuner) (events : List Event) :
    Along Tuner.turn KeepsBounds a events ↔ Along Tuner.turn KeepsGuard a events := by
  refine Along.congr (I := fun _ => True) trivial (fun {a e} _ => ?_) fun _ _ => trivial
  cases e with
  | tick now pol cleanRatio => exact imp_congr_right fun hpol => bounded_tick_iff hpol cleanRatio
  | _ => exact Iff.rfl

/-- A first window of which two are asked for before any threshold may fall. -/
def firstWindow : Config where
  minSamples := 1
  floorPPS := 100
  floorSyn := 10
  floorScan := 10
  floorBPS := 1000
  minWindowsBeforeDownscale := 2

def bootstrapPolicy : Policy where
  active := true
  every := 60
  k := 3
  maxUp := 1 / 2
  maxDown := 1 / 5

def quietSource : Event := .record (fun s => if s = .bps then 4000 else 20) "192.0.2.7" true fun _ => 0

/-- The packets, handshakes and scans keep their thresholds in the guarded window, the bytes do not. -/
theorem bytes_fall_under_guard : ¬ Along Tuner.turn KeepsBounds
    (Tuner.new ⟨500, 50, 50, 1000000⟩ firstWindow 100) [quietSource, .tick 100 bootstrapPolicy 1] := by
  have hpol : bootstrapPolicy.InRange := by constructor <;> norm_num [bootstrapPolicy]
  have hafter :
      ((((Tuner.new ⟨500, 50, 50, 1000000⟩ firstWindow 100).turn quietSource).tick bootstrapPolicy 100
      1).2.thresholds) = ⟨500, 50, 50, 800000⟩ := by decide +kernel
  rintro ⟨-, htick, -⟩
  have hguarded := (htick hpol).guarded (by decide) .bps
  rw [hafter] at hguarded
  exact absurd hguarded (by decide)

end Runs

end Kernloom.Autotune
