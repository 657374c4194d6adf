import Kernloom.LastKnownGood

/-! The graph lifecycle over whole runs: ticks, requests to the controller, bundles that rebuild it and
restarts from the saved state. -/

namespace Kernloom

open Transition

/-- The order of the phases; a text that is none of them stands before all. -/
def Graph.Phase.rank : Graph.Phase → Nat
  | .disabled | .unknown _ => 0
  | .learning => 1
  | .freezeReady => 2
  | .freezePending => 3
  | .frozenObserve => 4
  | .frozenEnforce => 5

/-- The controller of a node, whether the node was started as a managed one, and what is on disk.
`frozenSince` is on record only: when the graph was frozen last. -/
structure GraphWorld where
  ctl : Graph.Controller
  managed : Bool
  saved : Option SavedState := none
  frozenSince : Time := 0

/-- `written` says whether a write reaches the disk, `usable` whether a start can read what is there. -/
inductive GraphEvent where
  | tick (stats : Graph.GraphStats) (now : Time) (written : Bool)
  | proposalSent (now : Time)
  | freeze (now : Time)
  | enforce
  | checkpoint (written : Bool)
  | bundle (plan : GraphLifecycle) (now : Time)
  | restart (managed usable : Bool) (now : Time)

namespace GraphWorld

/-- The controller of a start, before the bundle on disk is applied. -/
def startCtl (managed : Bool) (saved : Option SavedState) (now : Time) : Graph.Controller :=
  .new { enabled := managed } (saved.bind (·.graphPhase)) (saved.elim 0 (·.graphStartedAt)) now

def start (managed : Bool) (now : Time) : GraphWorld :=
  { ctl := startCtl managed none now, managed }

def save (written : Bool) (w : GraphWorld) : GraphWorld :=
  if written then
    { w with saved := some { w.saved.getD {} with
        graphPhase := some w.ctl.phase, graphStartedAt := w.ctl.startedAt } }
  else w

def turn (w : GraphWorld) : GraphEvent → GraphWorld
  | .tick stats now written =>
    if w.managed ∧ (w.ctl.tick stats now).phase ≠ w.ctl.phase then
      { w with ctl := w.ctl.tick stats now }.save written
    else w
  | .proposalSent now => { w with ctl := w.ctl.markProposalSent now }
  | .freeze now => { w with
      ctl := w.ctl.applyFreeze now
      frozenSince := if w.ctl.phase = .frozenObserve then w.frozenSince else now }
  | .enforce => { w with ctl := w.ctl.applyEnforce }
  | .checkpoint written => w.save written
  | .bundle plan now => { w with ctl := applyGraphLifecycle plan now w.ctl }
  | .restart managed usable now => { w with
      ctl := startCtl managed (if usable then w.saved else none) now
      managed := managed }

/-- The configuration turns the lifecycle off, which starts it over. -/
def TurnsOff : GraphEvent → Prop
  | .bundle plan _ => trimSpace plan.mode ≠ "" ∧ lifecycleModeEnabled plan.mode = false
  | .restart managed _ _ => managed = false
  | _ => False

/-- The configuration turns the lifecycle on. -/
def TurnsOn (w : GraphWorld) : GraphEvent → Prop
  | .bundle plan _ => trimSpace plan.mode ≠ "" ∧ lifecycleModeEnabled plan.mode = true
  | .restart managed _ _ => managed = true ∧ w.managed = false
  | _ => False

/-- The observation after a freeze is timed from the moment the graph was frozen. -/
def ClockKept (w : GraphWorld) : Prop :=
  w.ctl.phase = .frozenObserve → w.ctl.frozenAt = w.frozenSince ∧ w.ctl.frozenAt ≠ 0

/-- A step keeps the order of the phases, a disabled lifecycle disabled, and the clock. -/
structure Orderly (w : GraphWorld) (event : GraphEvent) : Prop where
  forward : ¬ TurnsOff event → w.ctl.phase.rank ≤ (w.turn event).ctl.phase.rank
  disabled : ¬ w.TurnsOn event → w.ctl.phase = .disabled → (w.turn event).ctl.phase = .disabled
  clock : (w.turn event).ClockKept

/-- The phase that a start of a managed node takes up. -/
def restored (w : GraphWorld) (usable : Bool) : Graph.Phase :=
  ((if usable then w.saved else none).bind (·.graphPhase)).getD .learning

/-- The condition: a freeze finds the lifecycle enabled and the graph not frozen yet, a bundle that
configures an enabled lifecycle does not find it observed, and a start of a managed node takes up no phase
behind the one it was stopped in, nor the one that is timed. -/
def InOrder (w : GraphWorld) : GraphEvent → Prop
  | .freeze now => now ≠ 0 ∧ w.ctl.phase ≠ .disabled ∧ w.ctl.phase ≠ .frozenEnforce ∧
    (w.ctl.phase = .frozenObserve → now = w.ctl.frozenAt)
  | .bundle plan _ => trimSpace plan.mode ≠ "" → lifecycleModeEnabled plan.mode = true →
    w.ctl.phase ≠ .frozenObserve
  | .restart managed usable _ => managed = true → w.restored usable ≠ .frozenObserve ∧
    w.ctl.phase.rank ≤ (w.restored usable).rank ∧
    (w.managed = true → w.ctl.phase = .disabled → w.restored usable = .disabled)
  | _ => True

variable {w : GraphWorld}

theorem tick_cases (ctl : Graph.Controller) (stats : Graph.GraphStats) (now : Time) :
    ctl.tick stats now = ctl ∨
    (ctl.phase = .learning ∧ ctl.tick stats now = { ctl with phase := .freezeReady }) ∨
    (ctl.phase = .frozenObserve ∧ ctl.tick stats now = { ctl with phase := .frozenEnforce }) := by
  unfold Graph.Controller.tick
  cases hphase : ctl.phase with
  | learning =>
    dsimp only
    split
    · exact .inr (.inl ⟨rfl, rfl⟩)
    · exact .inl rfl
  | frozenObserve =>
    dsimp only
    split
    · exact .inr (.inr ⟨rfl, rfl⟩)
    · exact .inl rfl
  | _ => exact .inl rfl

@[simp] theorem save_ctl (written : Bool) : (w.save written).ctl = w.ctl := by
  unfold save
  split <;> rfl

@[simp] theorem save_frozenSince (written : Bool) : (w.save written).frozenSince = w.frozenSince := by
  unfold save
  split <;> rfl

theorem turn_tick_ctl (stats : Graph.GraphStats) (now : Time) (written : Bool) :
    (w.turn (.tick stats now written)).ctl = if w.managed then w.ctl.tick stats now else w.ctl := by
  unfold turn
  by_cases hmanaged : w.managed
  · by_cases hchanged : (w.ctl.tick stats now).phase = w.ctl.phase
    · have hsame : w.ctl.tick stats now = w.ctl := by
        rcases tick_cases w.ctl stats now with h | ⟨hphase, h⟩ | ⟨hphase, h⟩
        · exact h
        · rw [h, hphase] at hchanged
          cases hchanged
        · rw [h, hphase] at hchanged
          cases hchanged
      simp [hmanaged, hsame]
    · simp [hmanaged, hchanged]
  · simp [hmanaged]

theorem turn_frozenSince (event : GraphEvent) (h : ∀ now, event ≠ .freeze now) :
    (w.turn event).frozenSince = w.frozenSince := by
  cases event with
  | tick stats now written =>
    rw [turn]
    split
    · exact save_frozenSince written
    · rfl
  | freeze now => exact absurd rfl (h now)
  | checkpoint written => exact save_frozenSince written
  | proposalSent now => rfl
  | enforce => rfl
  | bundle plan now => rfl
  | restart managed usable now => rfl

/-- A step that moves on from a phase without entering the observation keeps everything. -/
theorem orderly_of_advance {event : GraphEvent} (h : w.ClockKept) (hfreeze : ∀ now, event ≠ .freeze now)
    (hctl : (w.turn event).ctl = w.ctl ∨ (w.ctl.phase ≠ .disabled ∧
      (w.turn event).ctl.phase ≠ .frozenObserve ∧ w.ctl.phase.rank ≤ (w.turn event).ctl.phase.rank)) :
    w.Orderly event := by
  rcases hctl with hctl | ⟨henabled, hobserve, hrank⟩
  · refine ⟨fun _ => by rw [hctl], fun _ hdisabled => by rw [hctl, hdisabled], ?_⟩
    unfold ClockKept at h ⊢
    rw [hctl, turn_frozenSince event hfreeze]
    exact h
  · exact ⟨fun _ => hrank, fun _ hdisabled => absurd hdisabled henabled, fun hphase => absurd hphase hobserve⟩

theorem orderly_tick (h : w.ClockKept) (stats : Graph.GraphStats) (now : Time) (written : Bool) :
    w.Orderly (.tick stats now written) := by
  refine orderly_of_advance h (fun _ he => by cases he) ?_
  rw [turn_tick_ctl]
  split
  · rcases tick_cases w.ctl stats now with htick | ⟨hphase, htick⟩ | ⟨hphase, htick⟩
    · exact .inl htick
    · rw [htick, hphase]
      exact .inr (by simp [Graph.Phase.rank])
    · rw [htick, hphase]
      exact .inr (by simp [Graph.Phase.rank])
  · exact .inl rfl

theorem orderly_proposalSent (h : w.ClockKept) (now : Time) : w.Orderly (.proposalSent now) := by
  refine orderly_of_advance h (fun _ he => by cases he) ?_
  by_cases hready : w.ctl.phase = .freezeReady
  · have hturn : (w.turn (.proposalSent now)).ctl =
        { w.ctl with phase := .freezePending, proposalSentAt := now } := if_pos hready
    rw [hturn, hready]
    exact .inr (by simp [Graph.Phase.rank])
  · exact .inl (if_neg hready)

theorem orderly_enforce (h : w.ClockKept) : w.Orderly .enforce := by
  refine orderly_of_advance h (fun _ he => by cases he) ?_
  by_cases hobserve : w.ctl.phase = .frozenObserve
  · have hturn : (w.turn .enforce).ctl = { w.ctl with phase := .frozenEnforce } := if_pos hobserve
    rw [hturn, hobserve]
    exact .inr (by simp [Graph.Phase.rank])
  · exact .inl (if_neg hobserve)

theorem orderly_freeze_iff (h : w.ClockKept) (now : Time) :
    w.Orderly (.freeze now) ↔ w.InOrder (.freeze now) := by
  have hphase : (w.turn (.freeze now)).ctl.phase = .frozenObserve := rfl
  have hat : (w.turn (.freeze now)).ctl.frozenAt = now := rfl
  have hsince : (w.turn (.freeze now)).frozenSince =
    if w.ctl.phase = .frozenObserve then w.frozenSince else now := rfl
  constructor
  · rintro ⟨hforward, hdisabled, hclock⟩
    obtain ⟨hkept, hzero⟩ := hclock hphase
    rw [hat] at hkept hzero
    rw [hsince] at hkept
    refine ⟨hzero, fun hoff => ?_, fun hfinal => ?_, fun hobserve => ?_⟩
    · have hstill := hdisabled id hoff
      rw [hphase] at hstill
      cases hstill
    · have hrank := hforward id
      rw [hphase, hfinal] at hrank
      exact absurd hrank (by decide)
    · rw [if_pos hobserve] at hkept
      exact hkept.trans (h hobserve).1.symm
  · rintro ⟨hzero, henabled, hfinal, hobserve⟩
    refine ⟨fun _ => ?_, fun _ hoff => absurd hoff henabled, fun _ => ?_⟩
    · rw [hphase]
      cases hbefore : w.ctl.phase with
      | frozenEnforce => exact absurd hbefore hfinal
      | _ => simp [Graph.Phase.rank]
    · rw [hat, hsince]
      refine ⟨?_, hzero⟩
      split
      · next hbefore => rw [hobserve hbefore, (h hbefore).1]
      · rfl

/-- What a bundle makes of the controller: none of its configurations keeps the time of the freeze. -/
theorem applyGraphLifecycle_cases (plan : GraphLifecycle) (now : Time) (ctl : Graph.Controller) :
    (trimSpace plan.mode = "" ∧ applyGraphLifecycle plan now ctl = ctl) ∨
    (trimSpace plan.mode ≠ "" ∧ (applyGraphLifecycle plan now ctl).frozenAt = 0 ∧
      (applyGraphLifecycle plan now ctl).phase =
        if lifecycleModeEnabled plan.mode then if ctl.phase = .disabled then .learning else ctl.phase
        else .disabled) := by
  unfold applyGraphLifecycle
  by_cases hmode : trimSpace plan.mode = ""
  · exact .inl ⟨hmode, if_pos hmode⟩
  · rw [if_neg hmode]
    refine .inr ⟨hmode, rfl, ?_⟩
    have henabled : (Graph.fromBundle plan).enabled = lifecycleModeEnabled plan.mode := rfl
    dsimp only [Graph.Controller.new]
    rw [henabled]
    cases lifecycleModeEnabled plan.mode with
    | false => rfl
    | true =>
      by_cases hdisabled : ctl.phase = .disabled
      · simp [hdisabled]
      · simp [hdisabled]

theorem orderly_bundle_iff (h : w.ClockKept) (plan : GraphLifecycle) (now : Time) :
    w.Orderly (.bundle plan now) ↔ w.InOrder (.bundle plan now) := by
  have hsince : (w.turn (.bundle plan now)).frozenSince = w.frozenSince := rfl
  have hctl : (w.turn (.bundle plan now)).ctl = applyGraphLifecycle plan now w.ctl := rfl
  rcases applyGraphLifecycle_cases plan now w.ctl with ⟨hmode, hsame⟩ | ⟨hmode, hlost, hphase⟩
  · constructor
    · exact fun _ hconfigured => absurd hmode hconfigured
    · exact fun _ => orderly_of_advance h (fun _ he => by cases he) (.inl (hctl.trans hsame))
  · rw [← hctl] at hlost hphase
    cases henabled : lifecycleModeEnabled plan.mode with
    | false =>
      simp only [henabled, Bool.false_eq_true, if_false] at hphase
      constructor
      · intro _ _ hon
        rw [henabled] at hon
        cases hon
      · intro _
        refine ⟨fun hoff => absurd ⟨hmode, henabled⟩ hoff, fun _ _ => hphase, fun hobserve => ?_⟩
        rw [hphase] at hobserve
        cases hobserve
    | true =>
      simp only [henabled, if_true] at hphase
      constructor
      · rintro ⟨-, -, hclock⟩ - - hobserve
        have hstill : (w.turn (.bundle plan now)).ctl.phase = .frozenObserve := by
          rw [hphase, hobserve]
          decide
        exact (hclock hstill).2 hlost
      · intro hcond
        have hobserve := hcond hmode henabled
        refine ⟨fun _ => ?_, fun hon => absurd ⟨hmode, henabled⟩ hon, fun hstill => ?_⟩
        · rw [hphase]
          split
          · next hdisabled =>
            rw [hdisabled]
            decide
          · exact le_rfl
        · rw [hphase] at hstill
          split at hstill
          · cases hstill
          · exact absurd hstill hobserve

theorem orderly_restart_iff (managed usable : Bool) (now : Time) :
    w.Orderly (.restart managed usable now) ↔ w.InOrder (.restart managed usable now) := by
  have hphase : (w.turn (.restart managed usable now)).ctl.phase =
    if managed then w.restored usable else .disabled := rfl
  have hlost : (w.turn (.restart managed usable now)).ctl.frozenAt = 0 := rfl
  cases managed with
  | false =>
    simp only [Bool.false_eq_true, if_false] at hphase
    constructor
    · exact fun _ hmanaged => by cases hmanaged
    · intro _
      refine ⟨fun hoff => absurd rfl hoff, fun _ _ => hphase, fun hobserve => ?_⟩
      rw [hphase] at hobserve
      cases hobserve
  | true =>
    simp only [if_true] at hphase
    constructor
    · rintro ⟨hforward, hdisabled, hclock⟩ -
      refine ⟨fun hobserve => (hclock (hphase.trans hobserve)).2 hlost, ?_, fun hmanaged hoff => ?_⟩
      · rw [← hphase]
        exact hforward fun hoff => by cases hoff
      · rw [← hphase]
        refine hdisabled (fun hon => ?_) hoff
        have hunmanaged : w.managed = false := hon.2
        rw [hmanaged] at hunmanaged
        cases hunmanaged
    · intro hcond
      obtain ⟨hobserve, hrank, hdisabled⟩ := hcond rfl
      refine ⟨fun _ => by rw [hphase]; exact hrank, fun hon hoff => ?_, fun hstill => ?_⟩
      · rw [hphase]
        cases hmanaged : w.managed with
        | true => exact hdisabled hmanaged hoff
        | false => exact absurd ⟨rfl, hmanaged⟩ hon
      · exact absurd (hphase.symm.trans hstill) hobserve

theorem orderly_iff (h : w.ClockKept) (event : GraphEvent) : w.Orderly event ↔ w.InOrder event := by
  cases event with
  | tick stats now written => exact iff_of_true (orderly_tick h stats now written) trivial
  | proposalSent now => exact iff_of_true (orderly_proposalSent h now) trivial
  | freeze now => exact orderly_freeze_iff h now
  | enforce => exact iff_of_true (orderly_enforce h) trivial
  | checkpoint written =>
    refine iff_of_true (orderly_of_advance h (fun _ he => by cases he) (.inl ?_)) trivial
    exact save_ctl written
  | bundle plan now => exact orderly_bundle_iff h plan now
  | restart managed usable now => exact orderly_restart_iff managed usable now

/-- While the clock is kept, a tick ends the observation when the configured time has passed since the graph
was frozen. -/
theorem ClockKept.tick_iff (h : w.ClockKept) (hobserve : w.ctl.phase = .frozenObserve)
    (stats : Graph.GraphStats) (now : Time) : (w.ctl.tick stats now).phase = .frozenEnforce ↔
      w.ctl.cfg.finalPhase = "frozen_enforce" ∧ 0 < w.ctl.cfg.observeAfterFreeze ∧
        w.ctl.cfg.observeAfterFreeze ≤ now - w.frozenSince := by
  obtain ⟨hkept, hzero⟩ := h hobserve
  unfold Graph.Controller.tick
  rw [hobserve, ← hkept]
  dsimp only
  split
  · next hdue => exact iff_of_true rfl ⟨hdue.1, hdue.2.1, hdue.2.2.2⟩
  · next hnot =>
    refine iff_of_false (fun hphase => ?_) fun hdue => hnot ⟨hdue.1, hdue.2.1, hzero, hdue.2.2⟩
    rw [hobserve] at hphase
    cases hphase

/-- In a run of the lifecycle every step keeps the order of the phases and the clock exactly when every
step is in order. -/
theorem lifecycle_orderly_iff (managed : Bool) (now : Time) (events : List GraphEvent) :
    Along turn Orderly (start managed now) events ↔ Along turn InOrder (start managed now) events := by
  refine Along.congr (I := ClockKept) (fun hobserve => ?_) (fun h => orderly_iff h _) fun _ h => h.clock
  cases managed <;> cases hobserve

/-- A graph is frozen, and then a bundle configures its lifecycle again. -/
def frozenThenBundle : List GraphEvent := [.freeze 1, .bundle { mode := "managed" } 2]

/-- The observation is not timed any more, and no tick ends it. -/
theorem bundle_loses_freeze_time : ¬ ∀ (managed : Bool) (now : Time) (events : List GraphEvent),
    Along turn Orderly (start managed now) events := by
  intro h
  have hobserve : (frozenThenBundle.foldl turn (start true 1)).ctl.phase = .frozenObserve ∧
      (frozenThenBundle.foldl turn (start true 1)).ctl.frozenAt = 0 := by decide +kernel
  obtain ⟨-, horderly, -⟩ := h true 1 frozenThenBundle
  exact (horderly.clock hobserve.1).2 hobserve.2

end GraphWorld

end Kernloom
