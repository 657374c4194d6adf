import Kernloom.Autotuner
import Kernloom.FairSampling

/-! The reservoirs of the autotuner are fair: whatever was recorded, each clean sample is as likely to be
among those that a threshold is derived from. -/

namespace Kernloom.Autotune

open Finset FairSampling

/-- An event whose random number for one of the reservoirs is another. -/
def Event.withPick (s : Signal) (pick : Nat) : Event → Event
  | .record sample source addToReservoir picks =>
    .record sample source addToReservoir (Function.update picks s pick)
  | .updateConfig cfg => .updateConfig cfg
  | .tick now pol cleanRatio => .tick now pol cleanRatio

/-- The mean of a statistic of one reservoir after some events, over its own random numbers; those of the
other reservoirs are any. -/
def Tuner.mean (s : Signal) (g : List ℚ → ℚ) : Tuner → List Event → ℚ
  | a, [] => g (a.reservoir s).data
  | a, e :: es =>
    let draws := (a.reservoir s).seen + 1
    (∑ pick ∈ range draws, Tuner.mean s g (a.turn (e.withPick s pick)) es) / draws

/-- The sample of a signal that an event offers to its reservoir. -/
def Event.offered (s : Signal) : Event → Option ℚ
  | .record sample _ addToReservoir _ => if addToReservoir ∧ 0 ≤ sample s then some (sample s) else none
  | .updateConfig _ => none
  | .tick _ _ _ => none

def Reservoir.sampler (r : Reservoir) : Sampler ℚ := ⟨r.data, r.cap, r.seen⟩

variable {a : Tuner} {s : Signal}

theorem reservoir_tick (pol : Policy) (now : Time) (cleanRatio : ℚ) :
    (a.tick pol now cleanRatio).2.reservoir s = a.reservoir s := by
  unfold Tuner.tick
  dsimp only
  split_ifs <;> cases s <;> rfl

theorem sampler_add (r : Reservoir) (pick : Nat) (x : ℚ) :
    (r.add pick x).sampler = if x < 0 then r.sampler else r.sampler.offer pick x := by
  unfold Reservoir.add Reservoir.sampler Sampler.offer
  dsimp only
  split_ifs <;> rfl

/-- An event offers its reservoir the sample, if there is one, under the number that was drawn. -/
theorem sampler_turn (e : Event) (pick : Nat) : ((a.turn (e.withPick s pick)).reservoir s).sampler =
    (e.offered s).elim (a.reservoir s).sampler ((a.reservoir s).sampler.offer pick) := by
  cases e with
  | updateConfig cfg => cases s <;> rfl
  | tick now pol cleanRatio => exact congrArg Reservoir.sampler (reservoir_tick pol now cleanRatio)
  | record sample source addToReservoir picks =>
    cases addToReservoir with
    | false => simp [Event.withPick, Tuner.turn, Tuner.recordSample, Event.offered]
    | true =>
      have hadd : (a.turn ((Event.record sample source true picks).withPick s pick)).reservoir s =
          (a.reservoir s).add pick (sample s) := by
        cases s <;> simp [Event.withPick, Tuner.turn, Tuner.recordSample, Tuner.reservoir]
      rw [hadd, sampler_add, Event.offered]
      by_cases hneg : sample s < 0
      · rw [if_pos hneg, if_neg fun hoffered => hoffered.2.not_gt hneg]
        rfl
      · rw [if_neg hneg, if_pos ⟨rfl, not_lt.mp hneg⟩]
        rfl

/-- The mean over the runs of the tuner is that of the sampler on what it is offered. -/
theorem mean_eq_sampler (g : List ℚ → ℚ) (es : List Event) :
    a.mean s g es = (a.reservoir s).sampler.mean g (es.filterMap (Event.offered s)) := by
  induction es generalizing a with
  | nil => rfl
  | cons e es ih =>
    have hdraws : (((a.reservoir s).seen + 1 : ℕ) : ℚ) ≠ 0 := Nat.cast_ne_zero.mpr (Nat.succ_ne_zero _)
    have hstep (pick : Nat) : (a.turn (e.withPick s pick)).mean s g es =
        ((e.offered s).elim (a.reservoir s).sampler ((a.reservoir s).sampler.offer pick)).mean g
          (es.filterMap (Event.offered s)) := by
      rw [ih, sampler_turn]
    rw [Tuner.mean, Finset.sum_congr rfl fun pick _ => hstep pick]
    cases hoffered : e.offered s with
    | none =>
      rw [List.filterMap_cons_none hoffered]
      simp only [Option.elim_none]
      rw [Finset.sum_const, card_range, nsmul_eq_mul, mul_div_cancel_left₀ _ hdraws]
    | some x =>
      rw [List.filterMap_cons_some hoffered, Sampler.mean]
      push_cast
      rfl

/-- After any records, ticks and updates of a new autotuner, the weight of a reservoir is on average the
share of its capacity in the clean samples, times their weight; so each of them is as likely to be in it. -/
theorem reservoir_fair (initial : Thresholds) (cfg : Config) (reservoirCap : Int) (s : Signal) (h : ℚ → ℚ)
    (es : List Event) :
    let a := Tuner.new initial cfg reservoirCap
    let samples := es.filterMap (Event.offered s)
    a.mean s (fun data => (data.map h).sum) es =
      (min (a.reservoir s).cap samples.length : ℕ) / samples.length * (samples.map h).sum := by
  intro a samples
  have hfull : (a.reservoir s).sampler.Full := by cases s <;> exact (Nat.min_zero _).symm
  have hcap : 0 < (a.reservoir s).sampler.cap := by
    have hpos : 0 < if reservoirCap ≤ 0 then 50000 else reservoirCap.toNat := by
      split_ifs <;> omega
    cases s <;> exact hpos
  have hseen : (a.reservoir s).sampler.seen = 0 := by cases s <;> rfl
  have hempty : (a.reservoir s).sampler.estimate h = 0 := by
    rw [Sampler.estimate, hseen]
    simp
  rw [mean_eq_sampler, Sampler.mean_sum hfull hcap, hempty, hseen, zero_add, zero_add]
  rfl

end Kernloom.Autotune
