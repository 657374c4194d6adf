import Mathlib

/-! Exponentially weighted moving averages: the next value moves the average and the variance no
further than the bounds of the values averaged allow. -/

namespace MovingAverage

open Set

variable {K : Type} [Field K] [LinearOrder K] [IsStrictOrderedRing K] {lo hi a m v x : K}

theorem average_mem (ha : a ∈ Ioc 0 1) (hm : m ∈ Icc lo hi) (hx : x ∈ Icc lo hi) :
    m + a * (x - m) ∈ Icc lo hi :=
  (convex_Icc lo hi).add_smul_sub_mem hm hx ⟨ha.1.le, ha.2⟩

theorem weighted_mem (ha : a ∈ Ioc 0 1) (hm : m ∈ Icc lo hi) (hx : x ∈ Icc lo hi) :
    (1 - a) * m + a * x ∈ Icc lo hi := by
  have heq : (1 - a) * m + a * x = m + a * (x - m) := by ring
  rw [heq]
  exact average_mem ha hm hx

theorem deviation_mem (hm : m ∈ Icc lo hi) (hx : x ∈ Icc lo hi) :
    (x - m) * (x - m) ∈ Icc 0 ((hi - lo) ^ 2) := by
  have hle : |x - m| ≤ |hi - lo| := by
    refine (abs_sub_le_iff.mpr ⟨?_, ?_⟩).trans (le_abs_self _)
    · linarith [hx.2, hm.1]
    · linarith [hm.2, hx.1]
  refine ⟨mul_self_nonneg _, ?_⟩
  rw [← sq]
  exact sq_le_sq.mpr hle

/-- A variance within the squared width of the bounds stays there. -/
theorem variance_mem (ha : a ∈ Ioc 0 1) (hm : m ∈ Icc lo hi) (hx : x ∈ Icc lo hi)
    (hv : v ∈ Icc 0 ((hi - lo) ^ 2)) :
    (1 - a) * v + a * (x - m) * (x - m) ∈ Icc 0 ((hi - lo) ^ 2) := by
  have hmoved := weighted_mem ha hv (deviation_mem hm hx)
  rwa [← mul_assoc] at hmoved

end MovingAverage
