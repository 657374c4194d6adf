import Kernloom.BucketRuns
import Kernloom.ShieldRateLimit

/-! The limit of one source while its policy stays the same. What passes in a window of time is bounded
by the burst and the time, and traffic within the rate is passed. -/

namespace Kernloom

open TokenBucket

/-- The packets of a source that its limit passes, by their times, and its bucket after them. The bucket
that the first packet creates is stored. -/
def rateLimitRun (cfg : RlCfg) : Option RlState → List UInt64 → List UInt64 × Option RlState
  | bucket, [] => ([], bucket)
  | bucket, now :: times =>
    let (pass, bucket) := rateLimit cfg bucket now true
    let (passed, bucket) := rateLimitRun cfg bucket times
    (if pass then now :: passed else passed, bucket)

/-- Rates and bursts whose refills stay within 64 bits. -/
structure RlCfg.InRange (cfg : RlCfg) : Prop where
  rate_pos : 1 ≤ cfg.ratePPS.toNat
  rate_le : cfg.ratePPS.toNat ≤ 10 ^ 9
  burst_pos : 1 ≤ cfg.burst.toNat
  fits : cfg.burst.toNat * 10 ^ 9 + cfg.ratePPS.toNat < 2 ^ 64

variable {cfg : RlCfg} {st : RlState} {times : List UInt64} {first : UInt64}

theorem RlCfg.InRange.active (h : cfg.InRange) : cfg.active := RlCfg.active_iff.mpr ⟨h.rate_pos, h.burst_pos⟩

theorem RlCfg.InRange.refillFits (h : cfg.InRange) (hroom : st.tokens < cfg.burst) : RefillFits st cfg := by
  have hfits := h.fits
  have hmissing : (cfg.burst.toNat - st.tokens.toNat) * 10 ^ 9 ≤ cfg.burst.toNat * 10 ^ 9 :=
    Nat.mul_le_mul_right _ (Nat.sub_le _ _)
  exact ⟨hroom, by omega⟩

theorem rateLimitRun_cons (cfg : RlCfg) (st : RlState) (now : UInt64) (times : List UInt64) :
    rateLimitRun cfg (some st) (now :: times) =
      (if (tbAllowAndUpdate st cfg now).1 then
          now :: (rateLimitRun cfg (some (tbAllowAndUpdate st cfg now).2) times).1
        else (rateLimitRun cfg (some (tbAllowAndUpdate st cfg now).2) times).1,
        (rateLimitRun cfg (some (tbAllowAndUpdate st cfg now).2) times).2) := rfl

/-- A run from a bucket with room for a token is the run of the unbounded bucket. -/
theorem rateLimitRun_some (h : cfg.InRange) {clock : UInt64} (hroom : st.tokens < cfg.burst)
    (hlast : st.lastNs ≤ clock) (hordered : (clock :: times).Pairwise (· ≤ ·)) :
    (rateLimitRun cfg (some st) times).1.map (·.toNat) =
        cfg.limit.passed st.bucket (times.map (·.toNat)) ∧
      ∃ st', (rateLimitRun cfg (some st) times).2 = some st' ∧
        st'.bucket = cfg.limit.after st.bucket (times.map (·.toNat)) := by
  induction times generalizing st clock with
  | nil => exact ⟨rfl, st, rfl, rfl⟩
  | cons now times ih =>
    obtain ⟨hfrom, hordered⟩ := List.pairwise_cons.mp hordered
    have hnow : st.lastNs ≤ now := UInt64.le_trans hlast (hfrom now List.mem_cons_self)
    obtain ⟨htook, hbucket⟩ := tbAllowAndUpdate_bucket h.active (h.refillFits hroom) hnow
    have hroom' : (tbAllowAndUpdate st cfg now).2.tokens < cfg.burst := by
      rw [UInt64.lt_iff_toNat_lt] at hroom ⊢
      have hlt : (cfg.limit.take st.bucket now.toNat).2.tokens < cfg.limit.burst :=
        Limit.take_tokens_lt hroom h.rate_pos
      rw [← hbucket] at hlt
      exact hlt
    obtain ⟨hpassed, st', hst', hafter⟩ := ih hroom' (tbAllowAndUpdate_lastNs_le hnow) hordered
    rw [rateLimitRun_cons]
    simp only [List.map_cons, Limit.passed]
    rw [← htook, ← hbucket]
    refine ⟨?_, st', hst', ?_⟩
    · by_cases hpass : (tbAllowAndUpdate st cfg now).1 = true
      · rw [if_pos hpass, if_pos hpass, List.map_cons, hpassed]
      · rw [if_neg hpass, if_neg hpass, hpassed]
    · rw [hafter, hbucket]
      rfl

theorem RlCfg.InRange.rlInit_bucket (h : cfg.InRange) (now : UInt64) :
    (rlInit cfg now).bucket = ⟨now.toNat, cfg.burst.toNat - 1⟩ := by
  have hone : (1 : UInt64) ≤ cfg.burst := UInt64.le_iff_toNat_le.mpr h.burst_pos
  have hpos : 0 < cfg.burst := UInt64.lt_iff_toNat_lt.mpr h.burst_pos
  simp only [RlState.bucket, rlInit, if_pos hpos, Bucket.mk.injEq, true_and]
  exact UInt64.toNat_sub_of_le _ _ hone

theorem RlCfg.InRange.rlInit_room (h : cfg.InRange) (now : UInt64) : (rlInit cfg now).tokens < cfg.burst := by
  have htokens : (rlInit cfg now).tokens.toNat = cfg.burst.toNat - 1 := congrArg Bucket.tokens (h.rlInit_bucket now)
  have hburst := h.burst_pos
  rw [UInt64.lt_iff_toNat_lt]
  omega

/-- The packets of a window, from the creation of the bucket. -/
theorem period_mul_within_le (h : cfg.InRange) (hordered : (first :: times).Pairwise (· ≤ ·)) (since duration : Nat) :
    cfg.limit.period * Limit.within since duration (first.toNat ::
        cfg.limit.passed (rlInit cfg first).bucket (times.map (·.toNat))) ≤
      cfg.limit.period * cfg.burst.toNat + 1 + duration := by
  have hunit : cfg.limit.rate ≤ cfg.limit.unit := h.rate_le
  have hbucket := h.rlInit_bucket first
  have hlast : (rlInit cfg first).bucket.last ≤ first.toNat := by rw [hbucket]
  have hroom : (rlInit cfg first).bucket.tokens < cfg.limit.burst := UInt64.lt_iff_toNat_lt.mp (h.rlInit_room first)
  have hordered' : (first.toNat :: times.map (·.toNat)).Pairwise (· ≤ ·) :=
    List.Pairwise.map (fun t : UInt64 => t.toNat) (fun _ _ => UInt64.le_iff_toNat_le.mp) hordered
  rw [Limit.within_cons]
  by_cases hin : since ≤ first.toNat ∧ first.toNat ≤ since + duration
  · have hrest := Limit.within_passed_le_value (l := cfg.limit) h.rate_pos hlast hin.2 hordered'
    have hvalue : cfg.limit.value (rlInit cfg first).bucket first.toNat =
        cfg.limit.period * (cfg.burst.toNat - 1) := by simp [Limit.value, hbucket]
    have hsplit : cfg.limit.period * (cfg.burst.toNat - 1) + cfg.limit.period * 1 =
        cfg.limit.period * cfg.burst.toNat := by
      rw [← Nat.mul_add, Nat.sub_add_cancel h.burst_pos]
    rw [if_pos hin, Nat.mul_add]
    omega
  · rw [if_neg hin, Nat.add_zero]
    exact Limit.within_passed_le h.rate_pos hunit hroom hlast hordered'

/-- Under one policy the packets passed in a window are bounded by the burst and the time, and every
call leaves room for a token. -/
theorem fixed_rate_bounded (h : cfg.InRange) (hordered : times.Pairwise (· ≤ ·)) :
    (∀ since duration, (rateLimitRun cfg none times).1.countP
        (fun t => since ≤ t.toNat ∧ t.toNat ≤ since + duration) ≤
          cfg.burst.toNat + (duration + 1) / (10 ^ 9 / cfg.ratePPS.toNat)) ∧
      ∀ st ∈ (rateLimitRun cfg none times).2, st.tokens.toNat ≤ cfg.burst.toNat - 1 := by
  cases times with
  | nil => exact ⟨fun _ _ => Nat.zero_le _, fun _ hst => by cases hst⟩
  | cons first times =>
    obtain ⟨hpassed, st', hst', hafter⟩ :=
      rateLimitRun_some h (h.rlInit_room first) (UInt64.le_refl _) hordered
    have hrun : rateLimitRun cfg none (first :: times) =
        (first :: (rateLimitRun cfg (some (rlInit cfg first)) times).1,
          (rateLimitRun cfg (some (rlInit cfg first)) times).2) := rfl
    rw [hrun]
    refine ⟨fun since duration => ?_, fun st hst => ?_⟩
    · have hperiod : 0 < cfg.limit.period := Limit.period_pos h.rate_pos h.rate_le
      have htotal := period_mul_within_le h hordered since duration
      rw [← hpassed] at htotal
      have hcount : (first :: (rateLimitRun cfg (some (rlInit cfg first)) times).1).countP
          (fun t => since ≤ t.toNat ∧ t.toNat ≤ since + duration) = Limit.within since duration
            (first.toNat :: (rateLimitRun cfg (some (rlInit cfg first)) times).1.map (·.toNat)) := by
        rw [← List.map_cons (f := fun t : UInt64 => t.toNat), Limit.within, List.countP_map]
        rfl
      rw [hcount]
      generalize Limit.within since duration _ = n at htotal ⊢
      have hmul : n * cfg.limit.period ≤ (duration + 1) + cfg.limit.period * cfg.burst.toNat := by
        rw [Nat.mul_comm]
        omega
      have hdiv := (Nat.le_div_iff_mul_le hperiod).mpr hmul
      rw [Nat.add_mul_div_left _ _ hperiod, Nat.add_comm] at hdiv
      exact hdiv
    · obtain rfl := Option.some.inj (hst'.symm.trans hst)
      have hlt : st'.bucket.tokens < cfg.limit.burst := by
        rw [hafter]
        exact Limit.after_tokens_lt h.rate_pos (UInt64.lt_iff_toNat_lt.mp (h.rlInit_room first))
      exact Nat.le_sub_one_of_lt hlt

theorem three_packets_bounded :
    (rateLimitRun ⟨1, 2⟩ none [5, 5, 5]).1.countP (fun t => 5 ≤ t.toNat ∧ t.toNat ≤ 5 + 0) ≤
      2 + (0 + 1) / (10 ^ 9 / 1) :=
  (fixed_rate_bounded (show RlCfg.InRange ⟨1, 2⟩ from ⟨by decide, by decide, by decide, by decide⟩)
    (by decide)).1 5 0

/-- Traffic that the exact bucket of the policy, full at the first packet, has tokens for is passed. -/
theorem conforming_passed (h : cfg.InRange) (hordered : (first :: times).Pairwise (· ≤ ·))
    (hconforms : cfg.limit.Conforms ⟨first.toNat, cfg.burst.toNat⟩ ((first :: times).map (·.toNat))) :
    (rateLimitRun cfg none (first :: times)).1 = first :: times := by
  have hunit : 0 < cfg.limit.unit := Nat.pow_pos (by decide)
  obtain ⟨hpassed, -⟩ := rateLimitRun_some h (h.rlInit_room first) (UInt64.le_refl _) hordered
  have hburst : (1 : Rat) ≤ cfg.limit.burst := Nat.one_le_cast.mpr h.burst_pos
  have hfull : cfg.limit.exactRefill ⟨first.toNat, cfg.burst.toNat⟩ first.toNat = cfg.limit.burst := by
    simp [Limit.exactRefill, RlCfg.limit]
  have hahead : cfg.limit.Ahead (rlInit cfg first).bucket
      (cfg.limit.exactTake ⟨first.toNat, cfg.burst.toNat⟩ first.toNat).2 := by
    rw [h.rlInit_bucket, Limit.exactTake, hfull, if_neg (not_lt.mpr hburst)]
    refine ⟨Nat.le_refl _, ?_⟩
    simp [Limit.credit, RlCfg.limit, Nat.cast_sub h.burst_pos]
  have hordered' : (first.toNat :: times.map (·.toNat)).Pairwise (· ≤ ·) :=
    List.Pairwise.map (fun t : UInt64 => t.toNat) (fun _ _ => UInt64.le_iff_toNat_le.mp) hordered
  have hclock : (cfg.limit.exactTake ⟨first.toNat, cfg.burst.toNat⟩ first.toNat).2.last = first.toNat := by
    rw [Limit.exactTake, hfull, if_neg (not_lt.mpr hburst)]
  rw [hahead.passed hunit h.burst_pos (hclock.symm ▸ hordered') hconforms.2] at hpassed
  have hall : (rateLimitRun cfg (some (rlInit cfg first)) times).1 = times :=
    List.map_injective_iff.mpr (fun _ _ => UInt64.toNat_inj.mp) hpassed
  exact congrArg (first :: ·) hall

theorem one_a_second_passed : (rateLimitRun ⟨1, 1⟩ none [5, 1000000005]).1 = [5, 1000000005] :=
  conforming_passed (show RlCfg.InRange ⟨1, 1⟩ from ⟨by decide, by decide, by decide, by decide⟩) (by decide)
    ⟨by decide +kernel, by decide +kernel, trivial⟩

end Kernloom
