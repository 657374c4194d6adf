import Kernloom.TokenBucket

/-! Runs of a token bucket. What passes in a window of time is bounded from any bucket, and a
sequence that the exact bucket over the rationals passes is passed by the integer one. -/

namespace TokenBucket

namespace Limit

/-- The bucket after some calls. -/
def after (l : Limit) (b : Bucket) (times : List Nat) : Bucket :=
  times.foldl (fun b now => (l.take b now).2) b

/-- The times of the calls that found a token. -/
def passed (l : Limit) : Bucket → List Nat → List Nat
  | _, [] => []
  | b, now :: times =>
    if (l.take b now).1 then now :: passed l (l.take b now).2 times else passed l (l.take b now).2 times

/-- How many of some times are in a window. -/
def within (since duration : Nat) (times : List Nat) : Nat :=
  times.countP fun t => since ≤ t ∧ t ≤ since + duration

variable {l : Limit} {b : Bucket} {times : List Nat} {since duration clock : Nat}

theorem within_cons {now : Nat} :
    within since duration (now :: times) =
      within since duration times + if since ≤ now ∧ now ≤ since + duration then 1 else 0 := by
  unfold within
  rw [List.countP_cons]
  simp only [decide_eq_true_eq]

theorem passed_subset (l : Limit) (b : Bucket) (times : List Nat) : l.passed b times ⊆ times := by
  induction times generalizing b with
  | nil => exact fun _ h => h
  | cons now times ih =>
    simp only [passed]
    cases (l.take b now).1 with
    | false => exact List.subset_cons_of_subset _ (ih _)
    | true => exact List.cons_subset_cons _ (ih _)

theorem within_passed_cons {now : Nat} :
    within since duration (l.passed b (now :: times)) =
      within since duration (l.passed (l.take b now).2 times) +
        if since ≤ now ∧ now ≤ since + duration then (l.take b now).1.toNat else 0 := by
  simp only [passed]
  cases (l.take b now).1 with
  | false => simp
  | true => exact within_cons

theorem within_passed_late (h : ∀ t ∈ times, since + duration < t) :
    within since duration (l.passed b times) = 0 := by
  refine List.countP_eq_zero.mpr fun t ht => ?_
  have hlate := h t (passed_subset l b times ht)
  simp only [decide_eq_true_eq]
  omega

/-- During a window the calls are paid for by the value of the bucket and the time that is left. -/
theorem within_passed_le_value (hrate : 0 < l.rate) (hlast : b.last ≤ clock)
    (hclock : clock ≤ since + duration) (hordered : (clock :: times).Pairwise (· ≤ ·)) :
    l.period * within since duration (l.passed b times) ≤ l.value b clock + (since + duration - clock) := by
  induction times generalizing b clock with
  | nil => simp [passed, within]
  | cons now times ih =>
    obtain ⟨hfrom, hordered⟩ := List.pairwise_cons.mp hordered
    have hnow : clock ≤ now := hfrom now List.mem_cons_self
    by_cases hover : since + duration < now
    · have hlate : ∀ t ∈ now :: times, since + duration < t := fun t ht => by
        rcases List.mem_cons.mp ht with rfl | ht
        · exact hover
        · exact hover.trans_le ((List.pairwise_cons.mp hordered).1 t ht)
      rw [within_passed_late hlate]
      omega
    · have hrest := ih (take_last_le (l := l) (hlast.trans hnow)) (Nat.le_of_not_lt hover) hordered
      have hcost := l.value_take b now
      have hrefill := l.value_refill_le (hlast.trans hnow) hrate
      have hlater := l.value_later b hnow
      have hone : (if since ≤ now ∧ now ≤ since + duration then (l.take b now).1.toNat else 0) ≤
          (l.take b now).1.toNat := by
        split_ifs
        · exact Nat.le_refl _
        · exact Nat.zero_le _
      have hpaid := Nat.mul_le_mul_left l.period hone
      rw [within_passed_cons, Nat.mul_add]
      omega

/-- From a bucket with room for a token, the calls of a window are paid for by a full bucket, the
time of the window and a tick. -/
theorem within_passed_le (hrate : 0 < l.rate) (hunit : l.rate ≤ l.unit) (hroom : b.tokens < l.burst)
    (hlast : b.last ≤ clock) (hordered : (clock :: times).Pairwise (· ≤ ·)) :
    l.period * within since duration (l.passed b times) ≤ l.period * l.burst + 1 + duration := by
  induction times generalizing b clock with
  | nil => simp [passed, within]
  | cons now times ih =>
    obtain ⟨hfrom, hordered⟩ := List.pairwise_cons.mp hordered
    have hnow : b.last ≤ now := hlast.trans (hfrom now List.mem_cons_self)
    rw [within_passed_cons]
    by_cases hin : since ≤ now ∧ now ≤ since + duration
    · -- the first call of the window: its bucket is worth no more than a full one and a tick
      have hfull : l.value (l.refill b now) now ≤ l.period * l.burst + 1 :=
        value_refill_le_burst hrate hunit hroom
      have hcost := l.value_take b now
      have hrest := within_passed_le_value hrate (take_last_le (l := l) hnow) hin.2 hordered
      rw [if_pos hin, Nat.mul_add]
      omega
    · rw [if_neg hin, Nat.add_zero]
      exact ih (take_tokens_lt hroom hrate) (take_last_le hnow) hordered

theorem after_tokens_lt (hrate : 0 < l.rate) (hroom : b.tokens < l.burst) :
    (l.after b times).tokens < l.burst := by
  unfold after
  exact List.foldlRecOn (motive := fun b : Bucket => b.tokens < l.burst) _ _ hroom fun _ h _ _ =>
    take_tokens_lt h hrate

end Limit

section Exact

/-- The bucket that is refilled continuously. -/
structure ExactBucket where
  last : Nat
  tokens : Rat

namespace Limit

variable (l : Limit)

def exactRefill (b : ExactBucket) (now : Nat) : Rat :=
  min l.burst (b.tokens + (now - b.last : Rat) * l.rate / l.unit)

def exactTake (b : ExactBucket) (now : Nat) : Bool × ExactBucket :=
  let tokens := l.exactRefill b now
  if tokens < 1 then (false, ⟨now, tokens⟩) else (true, ⟨now, tokens - 1⟩)

/-- The exact bucket has a token at each of the times. -/
def Conforms : ExactBucket → List Nat → Prop
  | _, [] => True
  | b, now :: times => (l.exactTake b now).1 = true ∧ Conforms (l.exactTake b now).2 times

/-- The tokens of a bucket with the fraction that its time is worth. -/
def credit (b : Bucket) (now : Nat) : Rat := b.tokens + (now - b.last : Rat) * l.rate / l.unit

variable {l} {b : Bucket} {e : ExactBucket} {now : Nat}

theorem credit_later (l : Limit) (b : Bucket) (clock now : Nat) :
    l.credit b now = l.credit b clock + (now - clock : Rat) * l.rate / l.unit := by
  unfold credit
  ring

/-- A refill loses nothing of the credit, unless the bucket is full. -/
theorem credit_le_refill (hunit : 0 < l.unit) :
    min (l.burst : Rat) (l.credit b now) ≤ l.credit (l.refill b now) now := by
  have hunitQ : (0 : Rat) < l.unit := Nat.cast_pos.mpr hunit
  unfold refill
  by_cases hlt : b.tokens < l.burst
  · rw [if_pos hlt]
    by_cases hfull : l.ticks (l.burst - b.tokens) ≤ now - b.last
    · rw [if_pos hfull]
      simp [credit]
    · rw [if_neg hfull]
      refine (min_le_right _ _).trans ?_
      simp only [credit]
      generalize (now - b.last) * l.rate / l.unit = add
      have hspent : ((add * l.unit / l.rate : Nat) : Rat) * l.rate / l.unit ≤ add := by
        rw [div_le_iff₀ hunitQ]
        exact_mod_cast Nat.div_mul_le_self (add * l.unit) l.rate
      push_cast at hspent ⊢
      have hsplit : ((now : Rat) - (b.last + ((add * l.unit / l.rate : Nat) : Rat))) * l.rate / l.unit =
          (now - b.last : Rat) * l.rate / l.unit - ((add * l.unit / l.rate : Nat) : Rat) * l.rate / l.unit := by
        ring
      rw [hsplit]
      linarith
  · rw [if_neg hlt]
    exact min_le_right _ _

/-- A bucket whose credit is worth a token has one after its refill. -/
theorem refill_tokens_pos (hunit : 0 < l.unit) (hburst : 0 < l.burst)
    (hlast : b.last ≤ now) (hcredit : 1 ≤ l.credit b now) : 0 < (l.refill b now).tokens := by
  have hunitQ : (0 : Rat) < l.unit := Nat.cast_pos.mpr hunit
  unfold refill
  by_cases hlt : b.tokens < l.burst
  · rw [if_pos hlt]
    by_cases hfull : l.ticks (l.burst - b.tokens) ≤ now - b.last
    · rw [if_pos hfull]
      exact hburst
    · rw [if_neg hfull]
      by_contra hzero
      obtain ⟨htokens, hadd⟩ := Nat.add_eq_zero_iff.mp (Nat.eq_zero_of_not_pos hzero)
      have hshort : (now - b.last) * l.rate < l.unit := (Nat.div_eq_zero_iff_lt hunit).mp hadd
      have hshortQ : ((now : Rat) - b.last) * l.rate < l.unit := by
        rw [← Nat.cast_sub hlast]
        exact_mod_cast hshort
      have hless : ((now : Rat) - b.last) * l.rate / l.unit < 1 := (div_lt_one hunitQ).mpr hshortQ
      rw [credit, htokens, Nat.cast_zero] at hcredit
      linarith
  · rw [if_neg hlt]
    omega

/-- The integer bucket is worth at least what the exact one holds. -/
structure Ahead (l : Limit) (b : Bucket) (e : ExactBucket) : Prop where
  last : b.last ≤ e.last
  credit : e.tokens ≤ l.credit b e.last

/-- A call that the exact bucket passes is passed, and leaves the integer bucket ahead. -/
theorem Ahead.take (h : Ahead l b e) (hunit : 0 < l.unit) (hburst : 0 < l.burst)
    (hnow : e.last ≤ now) (hpass : (l.exactTake e now).1 = true) :
    (l.take b now).1 = true ∧ Ahead l (l.take b now).2 (l.exactTake e now).2 := by
  have hlast : b.last ≤ now := h.last.trans hnow
  have hexact : l.exactRefill e now ≤ min (l.burst : Rat) (l.credit b now) := by
    unfold exactRefill
    rw [l.credit_later b e.last]
    have hcredit := h.credit
    exact min_le_min_left _ (by linarith)
  have hone : 1 ≤ l.exactRefill e now := by
    by_contra hless
    rw [exactTake, if_pos (not_le.mp hless)] at hpass
    cases hpass
  have hpos := refill_tokens_pos hunit hburst hlast (hone.trans (hexact.trans (min_le_right _ _)))
  have hkept := hexact.trans (credit_le_refill hunit)
  rw [exactTake, if_neg (not_lt.mpr hone)]
  unfold Limit.take
  rw [if_neg hpos.ne']
  refine ⟨rfl, refill_last_le hlast, ?_⟩
  simp only [Limit.credit, Nat.cast_sub hpos, Nat.cast_one] at hkept ⊢
  linarith

/-- Every call of a sequence that the exact bucket passes is passed. -/
theorem Ahead.passed {times : List Nat} (h : Ahead l b e) (hunit : 0 < l.unit)
    (hburst : 0 < l.burst) (hordered : (e.last :: times).Pairwise (· ≤ ·)) (hconforms : l.Conforms e times) :
    l.passed b times = times := by
  induction times generalizing b e with
  | nil => rfl
  | cons now times ih =>
    obtain ⟨hfrom, hordered⟩ := List.pairwise_cons.mp hordered
    obtain ⟨hpass, hconforms⟩ := hconforms
    obtain ⟨htook, hahead⟩ := h.take hunit hburst (hfrom now List.mem_cons_self) hpass
    have hclock : (l.exactTake e now).2.last = now := by
      unfold exactTake
      dsimp only
      split_ifs <;> rfl
    unfold Limit.passed
    rw [htook, if_pos rfl, ih hahead (hclock.symm ▸ hordered) hconforms]

end Limit

end Exact

end TokenBucket
