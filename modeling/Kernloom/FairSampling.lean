import Mathlib

/-! A sample of bounded size of a stream: the first items fill it, and every later one takes the place that
a random number below the count of items seen names, if there is one. Each item is as likely to be in it. -/

namespace FairSampling

open Finset

variable {α : Type}

structure Sampler (α : Type) where
  data : List α := []
  cap : Nat
  seen : Nat := 0

namespace Sampler

variable (s : Sampler α)

def offer (pick : Nat) (x : α) : Sampler α :=
  { s with
    data := if s.data.length < s.cap then s.data ++ [x] else if pick < s.cap then s.data.set pick x else s.data
    seen := s.seen + 1 }

/-- The mean of a statistic of the sample after some items, over the random numbers. -/
def mean (g : List α → ℚ) : Sampler α → List α → ℚ
  | s, [] => g s.data
  | s, x :: xs => (∑ pick ∈ range (s.seen + 1), mean g (s.offer pick x) xs) / (s.seen + 1)

/-- As many items are in the sample as can be. -/
def Full : Prop := s.data.length = min s.cap s.seen

/-- The weight of all the items, estimated from those of the sample. -/
def estimate (h : α → ℚ) : ℚ := s.seen / min s.cap s.seen * (s.data.map h).sum

variable {s} {h : α → ℚ}

theorem Full.offer (hs : s.Full) (pick : Nat) (x : α) : (s.offer pick x).Full := by
  unfold Full Sampler.offer at *
  dsimp only
  split_ifs with hroom
  · rw [List.length_append, List.length_singleton, hs]
    omega
  · rw [List.length_set, hs]
    omega
  · rw [hs]
    omega

theorem sum_set {data : List α} {i : Nat} (hi : i < data.length) (x : α) :
    ((data.set i x).map h).sum = (data.map h).sum - h data[i] + h x := by
  induction data generalizing i with
  | nil => exact absurd hi (Nat.not_lt_zero i)
  | cons y data ih =>
    cases i with
    | zero =>
      simp only [List.set_cons_zero, List.map_cons, List.sum_cons, List.getElem_cons_zero]
      ring
    | succ i =>
      have htail := ih (Nat.lt_of_succ_lt_succ hi)
      simp only [List.set_cons_succ, List.map_cons, List.sum_cons, htail, List.getElem_cons_succ]
      ring

/-- The weights that the picks of a full sample lose. -/
theorem sum_picks (data : List α) (x : α) :
    ∑ pick ∈ range data.length, ((data.set pick x).map h).sum =
      data.length * (data.map h).sum - (data.map h).sum + data.length * h x := by
  have hlost : ∑ pick : Fin data.length, h data[pick] = (data.map h).sum := by
    rw [← List.sum_ofFn]
    congr 1
    exact List.ofFn_getElem_eq_map data h
  have heach (pick : Fin data.length) :
      ((data.set pick x).map h).sum = (data.map h).sum - h data[pick] + h x := sum_set pick.isLt x
  rw [Finset.sum_range, Finset.sum_congr rfl fun pick _ => heach pick, Finset.sum_add_distrib,
    Finset.sum_sub_distrib, hlost]
  simp

/-- One more item moves the mean of the estimate by its weight. -/
theorem mean_estimate (hs : s.Full) (hcap : 0 < s.cap) (x : α) :
    (∑ pick ∈ range (s.seen + 1), (s.offer pick x).estimate h) / (s.seen + 1) = s.estimate h + h x := by
  have hseen : (s.seen : ℚ) + 1 ≠ 0 := by positivity
  rcases Nat.lt_or_ge s.seen s.cap with hroom | hfull
  · -- while there is room, the sample is all of the items
    have hlength : s.data.length = s.seen := hs.trans (min_eq_right hroom.le)
    have hbefore : s.estimate h = (s.data.map h).sum := by
      rw [estimate, min_eq_right hroom.le]
      rcases Nat.eq_zero_or_pos s.seen with hzero | hpos
      · rw [hzero] at hlength
        simp [List.length_eq_zero_iff.mp hlength]
      · rw [div_self (Nat.cast_ne_zero.mpr hpos.ne'), one_mul]
    have hafter (pick : Nat) : (s.offer pick x).estimate h = (s.data.map h).sum + h x := by
      unfold estimate offer
      dsimp only
      rw [if_pos (hlength.trans_lt hroom), min_eq_right (Nat.succ_le_of_lt hroom),
        div_self (Nat.cast_ne_zero.mpr (Nat.succ_ne_zero _))]
      simp
    rw [hbefore, Finset.sum_congr rfl fun pick _ => hafter pick, Finset.sum_const, card_range, nsmul_eq_mul]
    push_cast
    field_simp
  · -- a full sample loses the item that the pick names
    have hlength : s.data.length = s.cap := hs.trans (min_eq_left hfull)
    have hcap' : (s.cap : ℚ) ≠ 0 := Nat.cast_ne_zero.mpr hcap.ne'
    let total : ℚ := (s.data.map h).sum
    have hafter (pick : Nat) : (s.offer pick x).estimate h = (s.seen + 1) / s.cap *
        (if pick < s.cap then ((s.data.set pick x).map h).sum else total) := by
      unfold estimate offer
      dsimp only
      rw [if_neg hlength.not_lt, min_eq_left (hfull.trans (Nat.le_succ _))]
      push_cast
      split_ifs <;> rfl
    have hsums : ∑ pick ∈ range (s.seen + 1), (if pick < s.cap then ((s.data.set pick x).map h).sum else total) =
        s.seen * total + s.cap * h x := by
      obtain ⟨k, hk⟩ := Nat.exists_eq_add_of_le (hfull.trans (Nat.le_succ _))
      rw [Nat.succ_eq_add_one] at hk
      have hkept : ∑ pick ∈ range s.cap, (if pick < s.cap then ((s.data.set pick x).map h).sum else total) =
          s.cap * total - total + s.cap * h x := by
        rw [← hlength, Finset.sum_congr rfl fun pick hpick => if_pos (mem_range.mp hpick)]
        exact sum_picks s.data x
      have hmissed : ∑ pick ∈ range k, (if s.cap + pick < s.cap then ((s.data.set (s.cap + pick) x).map h).sum
          else total) = k * total := by
        rw [Finset.sum_congr rfl fun pick _ => if_neg (by omega), Finset.sum_const, card_range, nsmul_eq_mul]
      have hcast : (s.seen : ℚ) = s.cap + k - 1 := by
        have hk' : ((s.seen + 1 : ℕ) : ℚ) = ((s.cap + k : ℕ) : ℚ) := congrArg _ hk
        push_cast at hk'
        linarith
      rw [hk, Finset.sum_range_add, hkept, hmissed, hcast]
      ring
    rw [Finset.sum_congr rfl fun pick _ => hafter pick, ← Finset.mul_sum, hsums, estimate, min_eq_left hfull]
    change (s.seen + 1) / s.cap * (s.seen * total + s.cap * h x) / (s.seen + 1) = s.seen / s.cap * total + h x
    field_simp

/-- The weight of the sample is on average its share of the weight of all the items. -/
theorem mean_sum (hs : s.Full) (hcap : 0 < s.cap) (xs : List α) :
    s.mean (fun data => (data.map h).sum) xs =
      (min s.cap (s.seen + xs.length) : ℕ) / (s.seen + xs.length : ℕ) * (s.estimate h + (xs.map h).sum) := by
  induction xs generalizing s with
  | nil =>
    rw [mean, estimate, List.length_nil, Nat.add_zero, List.map_nil, List.sum_nil, add_zero, ← mul_assoc]
    rcases Nat.eq_zero_or_pos s.seen with hzero | hpos
    · rw [Full, hzero, Nat.min_zero] at hs
      simp [List.length_eq_zero_iff.mp hs]
    · have hmin : ((min s.cap s.seen : ℕ) : ℚ) ≠ 0 := Nat.cast_ne_zero.mpr (by omega)
      have hseen : (s.seen : ℚ) ≠ 0 := Nat.cast_ne_zero.mpr hpos.ne'
      field_simp
  | cons x xs ih =>
    have hshare (pick : Nat) : (s.offer pick x).mean (fun data => (data.map h).sum) xs =
        (min s.cap (s.seen + (x :: xs).length) : ℕ) / (s.seen + (x :: xs).length : ℕ) *
          ((s.offer pick x).estimate h + (xs.map h).sum) := by
      have hcount : s.seen + 1 + xs.length = s.seen + (x :: xs).length := by
        rw [List.length_cons]
        omega
      rw [ih (hs.offer pick x) hcap, ← hcount]
      rfl
    have hmean := mean_estimate hs hcap (h := h) x
    have hseen : (s.seen : ℚ) + 1 ≠ 0 := by positivity
    rw [mean, Finset.sum_congr rfl fun pick _ => hshare pick, ← Finset.mul_sum, Finset.sum_add_distrib, mul_div_assoc,
      add_div, hmean, Finset.sum_const, card_range, nsmul_eq_mul]
    push_cast
    rw [mul_div_cancel_left₀ _ hseen, List.map_cons, List.sum_cons]
    ring

end Sampler

end FairSampling
