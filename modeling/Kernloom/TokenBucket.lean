import Mathlib

/-! Integer token buckets: a bucket of at most `burst` tokens, refilled at `rate` tokens per `unit`
ticks with integer division. The value of a bucket is its tokens and the ticks not yet turned into
tokens, at the shortest period of a token; it never grows by more than the time that passes. -/

namespace TokenBucket

structure Limit where
  unit : Nat
  rate : Nat
  burst : Nat

structure Bucket where
  last : Nat
  tokens : Nat
  deriving DecidableEq

namespace Limit

/-- The ticks after which a token can have been refilled, at the earliest. -/
def period (l : Limit) : Nat := l.unit / l.rate

/-- The ticks after which `n` tokens are refilled. -/
def ticks (l : Limit) (n : Nat) : Nat := (n * l.unit + l.rate - 1) / l.rate

def refill (l : Limit) (b : Bucket) (now : Nat) : Bucket :=
  if b.tokens < l.burst then
    if l.ticks (l.burst - b.tokens) ≤ now - b.last then ⟨now, l.burst⟩
    else
      let add := (now - b.last) * l.rate / l.unit
      ⟨b.last + add * l.unit / l.rate, b.tokens + add⟩
  else b

/-- Whether there is a token, and the bucket without it. -/
def take (l : Limit) (b : Bucket) (now : Nat) : Bool × Bucket :=
  let b := l.refill b now
  if b.tokens = 0 then (false, b) else (true, { b with tokens := b.tokens - 1 })

def value (l : Limit) (b : Bucket) (now : Nat) : Nat := l.period * b.tokens + (now - b.last)

variable {l : Limit} {b : Bucket} {now : Nat}

theorem period_mul_rate_le (l : Limit) : l.period * l.rate ≤ l.unit := Nat.div_mul_le_self _ _

theorem period_pos (hrate : 0 < l.rate) (hunit : l.rate ≤ l.unit) : 0 < l.period :=
  Nat.div_pos hunit hrate

theorem period_mul_le_div (hrate : 0 < l.rate) (n : Nat) : l.period * n ≤ n * l.unit / l.rate := by
  refine (Nat.le_div_iff_mul_le hrate).mpr ?_
  calc l.period * n * l.rate = n * (l.period * l.rate) := by ring
    _ ≤ n * l.unit := Nat.mul_le_mul_left n l.period_mul_rate_le

theorem period_mul_le_ticks (hrate : 0 < l.rate) (n : Nat) : l.period * n ≤ l.ticks n :=
  (l.period_mul_le_div hrate n).trans (Nat.div_le_div_right (by omega))

/-- Before its time is over, the time that passed is worth fewer tokens than are missing. -/
theorem elapsed_lt (hrate : 0 < l.rate) {n dt : Nat} (h : ¬ l.ticks n ≤ dt) :
    dt * l.rate < n * l.unit := by
  have hmul := (Nat.le_div_iff_mul_le hrate).mp (Nat.lt_of_not_le h)
  have hexpand : (dt + 1) * l.rate = dt * l.rate + l.rate := by ring
  simp only [Nat.succ_eq_add_one] at hmul
  omega

theorem spent_le (l : Limit) (dt : Nat) : dt * l.rate / l.unit * l.unit / l.rate ≤ dt := by
  refine Nat.div_le_of_le_mul ?_
  rw [Nat.mul_comm l.rate]
  exact Nat.div_mul_le_self _ _

theorem ticks_pos (hrate : 0 < l.rate) (hunit : 0 < l.unit) {n : Nat} (hn : 0 < n) : 0 < l.ticks n := by
  have hmul : 0 < n * l.unit := Nat.mul_pos hn hunit
  refine Nat.div_pos ?_ hrate
  omega

theorem refill_of_le (hlast : now ≤ b.last) (hrate : 0 < l.rate) (hunit : 0 < l.unit) : l.refill b now = b := by
  unfold refill
  by_cases hlt : b.tokens < l.burst
  · have hticks := l.ticks_pos hrate hunit (Nat.sub_pos_of_lt hlt)
    rw [if_pos hlt, Nat.sub_eq_zero_of_le hlast, if_neg (Nat.not_le.mpr hticks)]
    simp
  · rw [if_neg hlt]

theorem refill_last_le (hlast : b.last ≤ now) : (l.refill b now).last ≤ now := by
  unfold refill
  by_cases hlt : b.tokens < l.burst
  · rw [if_pos hlt]
    by_cases hfull : l.ticks (l.burst - b.tokens) ≤ now - b.last
    · rw [if_pos hfull]
    · rw [if_neg hfull]
      have hspent := l.spent_le (now - b.last)
      simp only
      omega
  · rw [if_neg hlt]
    exact hlast

/-- A refill turns ticks into tokens, and never gains by it. -/
theorem value_refill_le (hlast : b.last ≤ now) (hrate : 0 < l.rate) :
    l.value (l.refill b now) now ≤ l.value b now := by
  unfold refill
  by_cases hlt : b.tokens < l.burst
  · rw [if_pos hlt]
    by_cases hfull : l.ticks (l.burst - b.tokens) ≤ now - b.last
    · rw [if_pos hfull]
      have hticks := (l.period_mul_le_ticks hrate (l.burst - b.tokens)).trans hfull
      have hsplit : l.period * l.burst = l.period * (l.burst - b.tokens) + l.period * b.tokens := by
        rw [← Nat.mul_add, Nat.sub_add_cancel hlt.le]
      simp only [value]
      omega
    · rw [if_neg hfull]
      have hadd := l.period_mul_le_div hrate ((now - b.last) * l.rate / l.unit)
      have hspent := l.spent_le (now - b.last)
      simp only [value, Nat.mul_add]
      omega
  · rw [if_neg hlt]

/-- A bucket below its burst holds at most the value of a full one after its refill, and a tick. -/
theorem value_refill_le_burst (hrate : 0 < l.rate) (hunit : l.rate ≤ l.unit) (hlt : b.tokens < l.burst) :
    l.value (l.refill b now) now ≤ l.period * l.burst + 1 := by
  unfold refill
  rw [if_pos hlt]
  by_cases hfull : l.ticks (l.burst - b.tokens) ≤ now - b.last
  · rw [if_pos hfull]
    simp only [value]
    omega
  · rw [if_neg hfull]
    have helapsed := l.elapsed_lt hrate hfull
    have hunitpos : 0 < l.unit := hrate.trans_le hunit
    generalize hadd : (now - b.last) * l.rate / l.unit = add
    have hadd_lt : add < l.burst - b.tokens := by
      rw [← hadd]
      exact Nat.div_lt_of_lt_mul (by rwa [Nat.mul_comm l.unit])
    -- what is left of the ticks is less than the time of one more token, and a tick
    have hrest : now - b.last ≤ add * l.unit / l.rate + l.period + 1 := by
      have hnext : (now - b.last) * l.rate < (add + 1) * l.unit := by
        rw [← hadd]
        exact Nat.lt_mul_of_div_lt (Nat.lt_succ_self _) hunitpos
      have hdiv : now - b.last ≤ (add * l.unit + l.unit) / l.rate := by
        refine (Nat.le_div_iff_mul_le hrate).mpr (hnext.le.trans ?_)
        rw [Nat.succ_mul]
      have hceil : (add * l.unit + l.unit) / l.rate ≤ add * l.unit / l.rate + l.unit / l.rate + 1 := by
        rw [Nat.add_div hrate]
        split <;> omega
      exact hdiv.trans hceil
    have htokens : l.period * (b.tokens + add) + l.period ≤ l.period * l.burst := by
      rw [← Nat.mul_succ]
      exact Nat.mul_le_mul_left _ (by omega)
    simp only [value]
    omega

theorem take_last_le (hlast : b.last ≤ now) : (l.take b now).2.last ≤ now := by
  have hrefill := l.refill_last_le hlast
  unfold take
  by_cases hzero : (l.refill b now).tokens = 0
  · simpa only [hzero, if_true] using hrefill
  · simpa only [hzero, if_false] using hrefill

theorem value_take (l : Limit) (b : Bucket) (now : Nat) :
    l.value (l.take b now).2 now + l.period * (l.take b now).1.toNat = l.value (l.refill b now) now := by
  unfold take
  by_cases hzero : (l.refill b now).tokens = 0
  · simp [hzero]
  · have hpos : (l.refill b now).tokens = (l.refill b now).tokens - 1 + 1 := by omega
    simp only [hzero, if_false, value, Bool.toNat_true, Nat.mul_one]
    rw [hpos, Nat.mul_succ, Nat.add_sub_cancel]
    omega

theorem value_later (l : Limit) (b : Bucket) {now later : Nat} (h : now ≤ later) :
    l.value b later ≤ l.value b now + (later - now) := by
  simp only [value]
  omega

theorem refill_tokens_le (h : b.tokens ≤ l.burst) (hrate : 0 < l.rate) :
    (l.refill b now).tokens ≤ l.burst := by
  unfold refill
  by_cases hlt : b.tokens < l.burst
  · rw [if_pos hlt]
    by_cases hfull : l.ticks (l.burst - b.tokens) ≤ now - b.last
    · rw [if_pos hfull]
    · rw [if_neg hfull]
      have hadd : (now - b.last) * l.rate / l.unit < l.burst - b.tokens :=
        Nat.div_lt_of_lt_mul (by rw [Nat.mul_comm l.unit]; exact l.elapsed_lt hrate hfull)
      simp only
      omega
  · rw [if_neg hlt]
    exact h

theorem take_tokens_lt (h : b.tokens < l.burst) (hrate : 0 < l.rate) :
    (l.take b now).2.tokens < l.burst := by
  have hle : (l.refill b now).tokens ≤ l.burst := l.refill_tokens_le h.le hrate
  unfold take
  by_cases hzero : (l.refill b now).tokens = 0
  · simp only [hzero, if_true]
    omega
  · simp only [hzero, if_false]
    omega

end Limit

end TokenBucket
