import Kernloom.ShieldRateLimit
import Kernloom.SourceExecutor

/-! Which policies keep every sum and product of the refill, and their default burst, within 64 bits. -/

namespace Kernloom

open TokenBucket

/-- A policy written to a rate-limit map: with its burst, or by its rate alone, with twice the rate as
its burst. -/
inductive RateLimitWrite
  | rateAndBurst (cfg : RlCfg)
  | rateOnly (ratePPS : UInt64)
  deriving DecidableEq

namespace RateLimitWrite

def cfg : RateLimitWrite → RlCfg
  | rateAndBurst cfg => cfg
  | rateOnly rate => ⟨rate, rate * 2⟩

/-- The write of a soft or hard resolution that carries a rate. -/
def ofResolution (r : ActionResolution) : Option RateLimitWrite :=
  if uint64Param r.parameters "rate_pps" = 0 then none
  else if uint64Param r.parameters "burst" = 0 then some (rateOnly (uint64Param r.parameters "rate_pps"))
  else some (rateAndBurst ⟨uint64Param r.parameters "rate_pps", uint64Param r.parameters "burst"⟩)

/-- The default burst is twice the rate over unbounded numbers as well. -/
def DefaultBurstFits : RateLimitWrite → Prop
  | rateAndBurst _ => True
  | rateOnly rate => rate.toNat * 2 < 2 ^ 64

instance : (w : RateLimitWrite) → Decidable w.DefaultBurstFits
  | rateAndBurst _ => .isTrue trivial
  | rateOnly rate => inferInstanceAs (Decidable (rate.toNat * 2 < 2 ^ 64))

theorem enforcementParams_ofResolution (params : EnforcementParams) {r : ActionResolution}
    {w : RateLimitWrite}
    (h : ofResolution r = some w) :
    (parseFSMLevel r.executableLevel = .soft →
      w.cfg = ⟨(enforcementParamsForResolution params r).softRate,
        (enforcementParamsForResolution params r).softBurst⟩) ∧
    (parseFSMLevel r.executableLevel = .hard →
      w.cfg = ⟨(enforcementParamsForResolution params r).hardRate,
        (enforcementParamsForResolution params r).hardBurst⟩) := by
  unfold ofResolution at h
  unfold enforcementParamsForResolution
  split_ifs at h with hrate hburst
  · obtain rfl := Option.some.inj h
    constructor <;> intro hlevel <;> simp [hlevel, hrate, hburst, cfg]
  · obtain rfl := Option.some.inj h
    constructor <;> intro hlevel <;> simp [hlevel, hrate, hburst, cfg]

end RateLimitWrite

/-- No sum and no product of a refill wraps. -/
def RefillExact (st : RlState) (cfg : RlCfg) (now : UInt64) : Prop :=
  cfg.active → st.tokens < cfg.burst →
    let missing := cfg.burst - st.tokens
    let delta := st.delta now
    missing.toNat * NSEC_PER_SEC.toNat < 2 ^ 64 ∧
    (missing * NSEC_PER_SEC).toNat + cfg.ratePPS.toNat < 2 ^ 64 ∧
    (delta < (missing * NSEC_PER_SEC + cfg.ratePPS - 1) / cfg.ratePPS →
      delta.toNat * cfg.ratePPS.toNat < 2 ^ 64 ∧
      let add := delta * cfg.ratePPS / NSEC_PER_SEC
      (0 < add →
        st.tokens.toNat + add.toNat < 2 ^ 64 ∧
        add.toNat * NSEC_PER_SEC.toNat < 2 ^ 64 ∧
        st.lastNs.toNat + (add * NSEC_PER_SEC / cfg.ratePPS).toNat < 2 ^ 64))

instance (st : RlState) (cfg : RlCfg) (now : UInt64) : Decidable (RefillExact st cfg now) :=
  inferInstanceAs (Decidable (_ → _ → _ ∧ _ ∧ (_ → _ ∧ (_ → _ ∧ _ ∧ _))))

/-- What happens to the bucket of a source: a limited packet under the policy selected at its time, or
the eviction of the bucket. -/
inductive BucketEvent
  | packet (cfg : RlCfg) (now : UInt64) (room : Bool)
  | evict

def bucketStep (bucket : Option RlState) : BucketEvent → Option RlState
  | .packet cfg now room => if cfg.active then (rateLimit cfg bucket now room).2 else bucket
  | .evict => none

def bucketAfter (events : List BucketEvent) : Option RlState := events.foldl bucketStep none

/-- The time of the missing tokens fits, so far as the refill computes it. -/
def MissingFits (st : RlState) (cfg : RlCfg) : Prop :=
  cfg.active → st.tokens < cfg.burst →
    (cfg.burst.toNat - st.tokens.toNat) * 10 ^ 9 + cfg.ratePPS.toNat < 2 ^ 64

variable {st : RlState} {cfg : RlCfg} {now : UInt64}

theorem RlCfg.limit_unit_pos (cfg : RlCfg) : 0 < cfg.limit.unit := Nat.pow_pos (by decide)

theorem missing_toNat (hlt : st.tokens < cfg.burst) :
    (cfg.burst - st.tokens).toNat = cfg.burst.toNat - st.tokens.toNat :=
  UInt64.toNat_sub_of_le _ _ (UInt64.le_of_lt hlt)

/-- The first sum decides: where it fits, every later sum and product does. -/
theorem refillExact_iff : RefillExact st cfg now ↔ MissingFits st cfg := by
  constructor
  · intro h hactive hlt
    obtain ⟨hmul, hadd, -⟩ := h hactive hlt
    rw [UInt64.toNat_mul, Nat.mod_eq_of_lt hmul, missing_toNat hlt] at hadd
    exact hadd
  · intro h hactive hlt
    have hfits := h hactive hlt
    obtain ⟨hrate, -⟩ := RlCfg.active_iff.mp hactive
    have hmissing := missing_toNat hlt
    have hmul := missingNs_toNat hlt ((Nat.le_add_right _ _).trans_lt hfits)
    have hneed := needNs_toNat hrate hlt ((Nat.sub_le _ _).trans_lt hfits)
    generalize htotal : (cfg.burst.toNat - st.tokens.toNat) * 10 ^ 9 = total at hfits hmul
    refine ⟨by rw [hmissing, nsec_toNat, htotal]; omega, by rw [hmul]; exact hfits, fun hearly => ?_⟩
    rw [UInt64.lt_iff_toNat_lt, hneed] at hearly
    -- the time that passed is worth fewer tokens than are missing
    have helapsed : (st.delta now).toNat * cfg.ratePPS.toNat < (cfg.burst.toNat - st.tokens.toNat) * 10 ^ 9 :=
      cfg.limit.elapsed_lt hrate (Nat.not_le.mpr hearly)
    have hworth : (st.delta now).toNat * cfg.ratePPS.toNat / 10 ^ 9 < cfg.burst.toNat - st.tokens.toNat :=
      Nat.div_lt_of_lt_mul (by rwa [Nat.mul_comm (10 ^ 9)])
    have hback := Nat.div_mul_le_self ((st.delta now).toNat * cfg.ratePPS.toNat) (10 ^ 9)
    rw [htotal] at helapsed
    have hproduct : (st.delta now).toNat * cfg.ratePPS.toNat < 2 ^ 64 := by omega
    have hadd : (st.delta now * cfg.ratePPS / NSEC_PER_SEC).toNat =
        (st.delta now).toNat * cfg.ratePPS.toNat / 10 ^ 9 := by
      rw [UInt64.toNat_div, UInt64.toNat_mul, nsec_toNat, Nat.mod_eq_of_lt hproduct]
    have hburst := UInt64.toNat_lt cfg.burst
    refine ⟨hproduct, fun hpos => ⟨by rw [hadd]; omega, ?_, ?_⟩⟩
    · rw [hadd, nsec_toNat]
      exact hback.trans_lt hproduct
    · have hspent := spent_toNat_le (st.delta now) cfg.ratePPS
      have hdelta := st.delta_toNat now
      have hnow := UInt64.toNat_lt now
      have hsince : (st.delta now).toNat ≠ 0 := by
        intro hzero
        rw [UInt64.lt_iff_toNat_lt, hadd, hzero, Nat.zero_mul] at hpos
        exact absurd hpos (by decide)
      omega

theorem delta_eq_zero (hlast : ¬ st.lastNs ≤ now) : st.delta now = 0 :=
  if_neg fun h => hlast (UInt64.le_of_lt h)

/-- A refill whose sums fit is the unbounded one, also where the clock of the packet is behind. -/
theorem tbRefill_bucket_of_fits (hactive : cfg.active) (hfits : MissingFits st cfg) :
    (tbRefill st cfg now).bucket = cfg.limit.refill st.bucket now.toNat := by
  by_cases hlt : st.tokens < cfg.burst
  · have hmissing := hfits hactive hlt
    by_cases hlast : st.lastNs ≤ now
    · exact tbRefill_bucket hactive ⟨hlt, by omega⟩ hlast
    · have hdelta := delta_eq_zero hlast
      have hrate := (RlCfg.active_iff.mp hactive).1
      have hneed := needNs_toNat hrate hlt ((Nat.sub_le _ _).trans_lt hmissing)
      have hticks : 0 < cfg.limit.ticks (cfg.burst.toNat - st.tokens.toNat) :=
        Limit.ticks_pos hrate cfg.limit_unit_pos (Nat.sub_pos_of_lt (UInt64.lt_iff_toNat_lt.mp hlt))
      have hearly : ¬ ((cfg.burst - st.tokens) * NSEC_PER_SEC + cfg.ratePPS - 1) / cfg.ratePPS ≤ st.delta
          now := by
        rw [UInt64.le_iff_toNat_le, hneed, hdelta]
        exact Nat.not_le.mpr hticks
      have hnone : ¬ 0 < st.delta now * cfg.ratePPS / NSEC_PER_SEC := by
        rw [hdelta, UInt64.zero_mul, UInt64.zero_div]
        exact UInt64.lt_irrefl _
      have hbehind : now.toNat ≤ st.bucket.last :=
        UInt64.le_iff_toNat_le.mp (UInt64.le_of_lt (UInt64.not_le.mp hlast))
      rw [Limit.refill_of_le hbehind hrate cfg.limit_unit_pos, tbRefill]
      dsimp only
      rw [if_pos hlt, if_neg hearly, if_neg hnone]
  · have hlt' : ¬ st.bucket.tokens < cfg.limit.burst := fun h => hlt (UInt64.lt_iff_toNat_lt.mpr h)
    rw [Limit.refill, if_neg hlt', tbRefill]
    dsimp only
    rw [if_neg hlt]

theorem tbAllowAndUpdate_bucket_of_fits (hactive : cfg.active) (hfits : MissingFits st cfg) :
    (tbAllowAndUpdate st cfg now).2.bucket = (cfg.limit.take st.bucket now.toNat).2 :=
  (tbAllowAndUpdate_of_refill hactive (tbRefill_bucket_of_fits hactive hfits)).2

/-- Every refill under a policy of a bucket that any packets, policies and evictions have left is exact,
and leaves the tokens of the unbounded bucket. -/
def RefillsExact (cfg : RlCfg) : Prop :=
  ∀ events st now, bucketAfter events = some st →
    RefillExact st cfg now ∧
      (cfg.active → (tbAllowAndUpdate st cfg now).2.bucket = (cfg.limit.take st.bucket now.toNat).2)

/-- Packets at one instant drain a new bucket, so far as the refills between them are exact. -/
theorem drained (hactive : cfg.active) (h : RefillsExact cfg) {k : Nat} (hk : k < cfg.burst.toNat) :
    ∃ st, bucketAfter (List.replicate (k + 1) (.packet cfg 0 true)) = some st ∧
      st.bucket = ⟨0, cfg.burst.toNat - (k + 1)⟩ := by
  obtain ⟨hrate, hburst⟩ := RlCfg.active_iff.mp hactive
  induction k with
  | zero =>
    refine ⟨rlInit cfg 0, by simp [bucketAfter, bucketStep, rateLimit, hactive], ?_⟩
    have hone : (1 : UInt64) ≤ cfg.burst := UInt64.le_iff_toNat_le.mpr hburst
    simp only [RlState.bucket, rlInit, if_pos (UInt64.lt_iff_toNat_lt.mpr hburst : 0 < cfg.burst)]
    rw [UInt64.toNat_sub_of_le _ _ hone]
    rfl
  | succ k ih =>
    obtain ⟨st, hst, hbucket⟩ := ih (Nat.lt_of_succ_lt hk)
    refine ⟨(tbAllowAndUpdate st cfg 0).2, ?_, ?_⟩
    · rw [List.replicate_succ', bucketAfter, List.foldl_append]
      rw [bucketAfter] at hst
      rw [hst]
      simp [bucketStep, rateLimit, hactive]
    · have htokens : st.bucket.tokens ≠ 0 := by
        rw [hbucket]
        simp only
        omega
      have hrefill : cfg.limit.refill st.bucket (0 : UInt64).toNat = st.bucket :=
        Limit.refill_of_le (Nat.zero_le _) hrate cfg.limit_unit_pos
      rw [(h _ st 0 hst).2 hactive, Limit.take, hrefill, if_neg htokens, hbucket]
      rfl

/-- The refills under a policy are exact for every bucket it can meet if and only if the time of a whole
burst, and the rate, fit into 64 bits. -/
theorem refillsExact_iff :
    RefillsExact cfg ↔ (cfg.active → cfg.burst.toNat * 10 ^ 9 + cfg.ratePPS.toNat < 2 ^ 64) := by
  constructor
  · intro h hactive
    obtain ⟨-, hburst⟩ := RlCfg.active_iff.mp hactive
    obtain ⟨st, hst, hbucket⟩ := drained hactive h (Nat.sub_one_lt_of_lt hburst)
    have htokens : st.tokens.toNat = 0 := by
      have hlast := congrArg Bucket.tokens hbucket
      simp only [RlState.bucket] at hlast
      omega
    have hfits := refillExact_iff.mp (h _ st 0 hst).1 hactive (by
      rw [UInt64.lt_iff_toNat_lt, htokens]
      exact hburst)
    rwa [htokens, Nat.sub_zero] at hfits
  · intro h events st now _
    have hfits : MissingFits st cfg := by
      intro hactive hlt
      have hmissing : (cfg.burst.toNat - st.tokens.toNat) * 10 ^ 9 ≤ cfg.burst.toNat * 10 ^ 9 :=
        Nat.mul_le_mul_right _ (Nat.sub_le _ _)
      exact (Nat.add_le_add_right hmissing _).trans_lt (h hactive)
    exact ⟨refillExact_iff.mpr hfits, fun hactive => tbAllowAndUpdate_bucket_of_fits hactive hfits⟩

namespace RateLimitWrite

/-- A rate that is written alone is below 2^63, and the time of a whole burst, and the rate, fit into
64 bits. -/
def InBounds (w : RateLimitWrite) : Prop :=
  (∀ rate, w = rateOnly rate → rate.toNat < 2 ^ 63) ∧
    (w.cfg.active → w.cfg.burst.toNat * 10 ^ 9 + w.cfg.ratePPS.toNat < 2 ^ 64)

/-- For every policy written: its default burst and every refill under it are exact if and only if its
rate and its burst are within the bounds. -/
theorem write_exact_iff (w : RateLimitWrite) : w.DefaultBurstFits ∧ RefillsExact w.cfg ↔ w.InBounds := by
  have hdefault : w.DefaultBurstFits ↔ ∀ rate, w = rateOnly rate → rate.toNat < 2 ^ 63 := by
    cases w with
    | rateAndBurst cfg => exact ⟨(fun _ _ h => nomatch h), fun _ => trivial⟩
    | rateOnly rate =>
      constructor
      · intro h rate' heq
        obtain rfl := RateLimitWrite.rateOnly.inj heq
        have h : rate.toNat * 2 < 2 ^ 64 := h
        omega
      · intro h
        have hlt := h rate rfl
        show rate.toNat * 2 < 2 ^ 64
        omega
  exact and_congr hdefault refillsExact_iff

/-- A bucket without a token is full at once under a burst of 2^55, and the default burst of 2^63 packets
a second is none. -/
theorem huge_burst_wraps :
    ¬ ((rateAndBurst ⟨1, 2 ^ 55⟩).DefaultBurstFits ∧ RefillsExact (rateAndBurst ⟨1, 2 ^ 55⟩).cfg) ∧
      bucketAfter [.packet ⟨1, 1⟩ 0 true] = some ⟨0, 0⟩ ∧
      (tbAllowAndUpdate ⟨0, 0⟩ ⟨1, 2 ^ 55⟩ 0).2.tokens.toNat = 2 ^ 55 - 1 ∧
      ((RlCfg.limit ⟨1, 2 ^ 55⟩).take ⟨0, 0⟩ 0).2.tokens = 0 ∧
      (rateOnly (2 ^ 63)).cfg.burst = 0 ∧ ¬ (rateOnly (2 ^ 63)).DefaultBurstFits := by
  refine ⟨fun h => ?_, by decide +kernel⟩
  have hexact := (h.2 [.packet ⟨1, 1⟩ 0 true] ⟨0, 0⟩ 0 (by decide +kernel)).1
  exact absurd hexact (by decide +kernel)

end RateLimitWrite

end Kernloom
