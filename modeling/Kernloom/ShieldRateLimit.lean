import Kernloom.TokenBucket

/-! The token bucket of the XDP program in 64-bit arithmetic. -/

namespace Kernloom

open TokenBucket

def NSEC_PER_SEC : UInt64 := 1000000000

structure RlCfg where
  ratePPS : UInt64
  burst : UInt64
  deriving DecidableEq

structure RlState where
  lastNs : UInt64
  tokens : UInt64
  deriving DecidableEq

def RlCfg.active (cfg : RlCfg) : Bool := cfg.ratePPS ≠ 0 ∧ cfg.burst ≠ 0

def RlState.delta (st : RlState) (now : UInt64) : UInt64 :=
  if st.lastNs < now then now - st.lastNs else 0

/-- The bucket before a token is taken. At or above the burst nothing is written. -/
def tbRefill (st : RlState) (cfg : RlCfg) (now : UInt64) : RlState :=
  let delta := st.delta now
  if st.tokens < cfg.burst then
    let missing := cfg.burst - st.tokens
    let needNs := (missing * NSEC_PER_SEC + cfg.ratePPS - 1) / cfg.ratePPS
    if needNs ≤ delta then ⟨now, cfg.burst⟩
    else
      let add := delta * cfg.ratePPS / NSEC_PER_SEC
      if 0 < add then
        let tokens := st.tokens + add
        ⟨st.lastNs + add * NSEC_PER_SEC / cfg.ratePPS, if cfg.burst < tokens then cfg.burst else tokens⟩
      else st
  else st

def tbAllowAndUpdate (st : RlState) (cfg : RlCfg) (now : UInt64) : Bool × RlState :=
  if ¬ cfg.active then (true, st)
  else
    let st := tbRefill st cfg now
    if st.tokens = 0 then (false, st) else (true, { st with tokens := st.tokens - 1 })

/-- A bucket created for a packet has given its token. -/
def rlInit (cfg : RlCfg) (now : UInt64) : RlState := ⟨now, if 0 < cfg.burst then cfg.burst - 1 else 0⟩

/-- The check of a packet against a policy; a bucket that cannot be stored passes it as well. -/
def rateLimit (cfg : RlCfg) (bucket : Option RlState) (now : UInt64) (room : Bool) :
    Bool × Option RlState :=
  match bucket with
  | none => (true, if room then some (rlInit cfg now) else none)
  | some st => ((tbAllowAndUpdate st cfg now).1, some (tbAllowAndUpdate st cfg now).2)

/-- The limit over unbounded numbers. -/
def RlCfg.limit (cfg : RlCfg) : Limit := ⟨10 ^ 9, cfg.ratePPS.toNat, cfg.burst.toNat⟩

def RlState.bucket (st : RlState) : Bucket := ⟨st.lastNs.toNat, st.tokens.toNat⟩

/-- The bucket is below the burst and the time of the missing tokens is computed without overflow. -/
def RefillFits (st : RlState) (cfg : RlCfg) : Prop :=
  st.tokens < cfg.burst ∧
    (cfg.burst.toNat - st.tokens.toNat) * 10 ^ 9 + cfg.ratePPS.toNat - 1 < 2 ^ 64

instance (st : RlState) (cfg : RlCfg) : Decidable (RefillFits st cfg) :=
  inferInstanceAs (Decidable (_ ∧ _))

variable {st : RlState} {cfg : RlCfg} {now : UInt64}

theorem RlCfg.active_iff : cfg.active = true ↔ 0 < cfg.ratePPS.toNat ∧ 0 < cfg.burst.toNat := by
  have hpos : ∀ n : UInt64, n ≠ 0 ↔ 0 < n.toNat := fun n => by
    rw [Nat.pos_iff_ne_zero, ne_eq, ne_eq, ← UInt64.toNat_inj]
    rfl
  simp only [RlCfg.active, decide_eq_true_eq, hpos]

theorem RlState.delta_toNat (st : RlState) (now : UInt64) :
    (st.delta now).toNat = now.toNat - st.lastNs.toNat := by
  unfold RlState.delta
  by_cases h : st.lastNs < now
  · rw [if_pos h]
    exact UInt64.toNat_sub_of_le _ _ (UInt64.le_of_lt h)
  · rw [if_neg h]
    have hle : now.toNat ≤ st.lastNs.toNat := UInt64.le_iff_toNat_le.mp (UInt64.not_lt.mp h)
    have hzero : (0 : UInt64).toNat = 0 := rfl
    omega

theorem nsec_toNat : NSEC_PER_SEC.toNat = 10 ^ 9 := rfl

/-- The product may wrap: what is turned into tokens has still passed. -/
theorem spent_toNat_le (delta rate : UInt64) :
    (delta * rate / NSEC_PER_SEC * NSEC_PER_SEC / rate).toNat ≤ delta.toNat := by
  simp only [UInt64.toNat_div, UInt64.toNat_mul, nsec_toNat]
  have hwrap : delta.toNat * rate.toNat % 2 ^ 64 ≤ delta.toNat * rate.toNat := Nat.mod_le _ _
  have hfloor : delta.toNat * rate.toNat % 2 ^ 64 / 10 ^ 9 * 10 ^ 9 ≤ delta.toNat * rate.toNat :=
    (Nat.div_mul_le_self _ _).trans hwrap
  refine Nat.div_le_of_le_mul ?_
  rw [Nat.mul_comm rate.toNat]
  exact (Nat.mod_le _ _).trans hfloor

theorem tbRefill_lastNs_le (hlast : st.lastNs ≤ now) : (tbRefill st cfg now).lastNs ≤ now := by
  unfold tbRefill
  simp only
  by_cases hlt : st.tokens < cfg.burst
  · rw [if_pos hlt]
    split
    · exact UInt64.le_refl _
    · split
      · have hspent := spent_toNat_le (st.delta now) cfg.ratePPS
        rw [st.delta_toNat] at hspent
        have hle := UInt64.le_iff_toNat_le.mp hlast
        rw [UInt64.le_iff_toNat_le, UInt64.toNat_add]
        refine (Nat.mod_le _ _).trans ?_
        omega
      · exact hlast
  · rw [if_neg hlt]
    exact hlast

theorem tbAllowAndUpdate_lastNs_le (hlast : st.lastNs ≤ now) :
    (tbAllowAndUpdate st cfg now).2.lastNs ≤ now := by
  unfold tbAllowAndUpdate
  split
  · exact hlast
  · simp only
    split <;> exact tbRefill_lastNs_le hlast

theorem missingNs_toNat (hlt : st.tokens < cfg.burst)
    (hfits : (cfg.burst.toNat - st.tokens.toNat) * 10 ^ 9 < 2 ^ 64) :
    ((cfg.burst - st.tokens) * NSEC_PER_SEC).toNat = (cfg.burst.toNat - st.tokens.toNat) * 10 ^ 9 := by
  rw [UInt64.toNat_mul, UInt64.toNat_sub_of_le _ _ (UInt64.le_of_lt hlt), nsec_toNat, Nat.mod_eq_of_lt hfits]

theorem needNs_toNat (hrate : 0 < cfg.ratePPS.toNat) (hlt : st.tokens < cfg.burst)
    (hfits : (cfg.burst.toNat - st.tokens.toNat) * 10 ^ 9 + cfg.ratePPS.toNat - 1 < 2 ^ 64) :
    ((((cfg.burst - st.tokens) * NSEC_PER_SEC + cfg.ratePPS - 1) / cfg.ratePPS)).toNat =
      cfg.limit.ticks (cfg.burst.toNat - st.tokens.toNat) := by
  have hone : (1 : UInt64).toNat = 1 := rfl
  have hmul := missingNs_toNat hlt (by omega)
  have hadd : ((cfg.burst - st.tokens) * NSEC_PER_SEC + cfg.ratePPS - 1).toNat =
      (cfg.burst.toNat - st.tokens.toNat) * 10 ^ 9 + cfg.ratePPS.toNat - 1 := by
    rw [UInt64.toNat_sub, UInt64.toNat_add, hmul, hone]
    omega
  rw [UInt64.toNat_div, hadd]
  rfl

/-- Below the burst and without overflow the program's bucket is the unbounded one. -/
theorem tbRefill_bucket (hactive : cfg.active) (hfits : RefillFits st cfg) (hlast : st.lastNs ≤ now) :
    (tbRefill st cfg now).bucket = cfg.limit.refill st.bucket now.toNat := by
  obtain ⟨hlt, hfits⟩ := hfits
  obtain ⟨hrate, hburst⟩ := RlCfg.active_iff.mp hactive
  have hltNat : st.tokens.toNat < cfg.burst.toNat := UInt64.lt_iff_toNat_lt.mp hlt
  have hlastNat := UInt64.le_iff_toNat_le.mp hlast
  have hnow := UInt64.toNat_lt now
  have hburst64 := UInt64.toNat_lt cfg.burst
  have hdelta := st.delta_toNat now
  have hneed := needNs_toNat hrate hlt hfits
  unfold tbRefill Limit.refill
  simp only
  have hcond : st.bucket.tokens < cfg.limit.burst := hltNat
  rw [if_pos hlt, if_pos hcond]
  have hfull_iff : ((cfg.burst - st.tokens) * NSEC_PER_SEC + cfg.ratePPS - 1) / cfg.ratePPS ≤ st.delta now ↔
      cfg.limit.ticks (cfg.limit.burst - st.bucket.tokens) ≤ now.toNat - st.bucket.last := by
    rw [UInt64.le_iff_toNat_le, hneed, hdelta]
    exact Iff.rfl
  by_cases hfull : cfg.limit.ticks (cfg.limit.burst - st.bucket.tokens) ≤ now.toNat - st.bucket.last
  · rw [if_pos hfull, if_pos (hfull_iff.mpr hfull)]
    rfl
  · rw [if_neg hfull, if_neg fun h => hfull (hfull_iff.mp h)]
    have helapsed : (now.toNat - st.lastNs.toNat) * cfg.ratePPS.toNat <
        (cfg.burst.toNat - st.tokens.toNat) * 10 ^ 9 := cfg.limit.elapsed_lt hrate hfull
    have hadd : (st.delta now * cfg.ratePPS / NSEC_PER_SEC).toNat =
        (now.toNat - st.lastNs.toNat) * cfg.ratePPS.toNat / 10 ^ 9 := by
      rw [UInt64.toNat_div, UInt64.toNat_mul, hdelta, nsec_toNat, Nat.mod_eq_of_lt (by omega)]
    have hspent : (st.delta now * cfg.ratePPS / NSEC_PER_SEC * NSEC_PER_SEC / cfg.ratePPS).toNat =
        (now.toNat - st.lastNs.toNat) * cfg.ratePPS.toNat / 10 ^ 9 * 10 ^ 9 / cfg.ratePPS.toNat := by
      have hmul := Nat.div_mul_le_self ((now.toNat - st.lastNs.toNat) * cfg.ratePPS.toNat) (10 ^ 9)
      rw [UInt64.toNat_div, UInt64.toNat_mul, hadd, nsec_toNat, Nat.mod_eq_of_lt (by omega)]
    have hspent_le := cfg.limit.spent_le (now.toNat - st.lastNs.toNat)
    have hadd_lt : (now.toNat - st.lastNs.toNat) * cfg.ratePPS.toNat / 10 ^ 9 <
        cfg.burst.toNat - st.tokens.toNat := Nat.div_lt_of_lt_mul (by rwa [Nat.mul_comm (10 ^ 9)])
    simp only [RlCfg.limit] at hspent_le
    by_cases hpos : 0 < st.delta now * cfg.ratePPS / NSEC_PER_SEC
    · have htokens : (st.tokens + st.delta now * cfg.ratePPS / NSEC_PER_SEC).toNat = st.tokens.toNat +
          (now.toNat - st.lastNs.toNat) * cfg.ratePPS.toNat / 10 ^ 9 := by
        rw [UInt64.toNat_add, hadd, Nat.mod_eq_of_lt (by omega)]
      have hcap : ¬ cfg.burst < st.tokens + st.delta now * cfg.ratePPS / NSEC_PER_SEC := by
        rw [UInt64.lt_iff_toNat_lt, htokens]
        omega
      rw [if_pos hpos, if_neg hcap]
      simp only [RlState.bucket, RlCfg.limit, htokens, Bucket.mk.injEq, and_true]
      rw [UInt64.toNat_add, hspent, Nat.mod_eq_of_lt (by omega)]
    · have hzero : (now.toNat - st.lastNs.toNat) * cfg.ratePPS.toNat / 10 ^ 9 = 0 := by
        rw [UInt64.lt_iff_toNat_lt, hadd] at hpos
        exact Nat.eq_zero_of_not_pos hpos
      rw [if_neg hpos]
      simp only [RlState.bucket, RlCfg.limit, hzero, Nat.zero_mul, Nat.zero_div, Nat.add_zero]

theorem tbAllowAndUpdate_of_refill (hactive : cfg.active)
    (hrefill : (tbRefill st cfg now).bucket = cfg.limit.refill st.bucket now.toNat) :
    (tbAllowAndUpdate st cfg now).1 = (cfg.limit.take st.bucket now.toNat).1 ∧
      (tbAllowAndUpdate st cfg now).2.bucket = (cfg.limit.take st.bucket now.toNat).2 := by
  have htokens : (tbRefill st cfg now).tokens.toNat = (cfg.limit.refill st.bucket now.toNat).tokens :=
    congrArg Bucket.tokens hrefill
  unfold tbAllowAndUpdate Limit.take
  simp only [hactive, not_true, if_false]
  by_cases hzero : (tbRefill st cfg now).tokens = 0
  · have hzeroNat : (cfg.limit.refill st.bucket now.toNat).tokens = 0 := by
      rw [← htokens, hzero]
      rfl
    rw [if_pos hzero, if_pos hzeroNat]
    exact ⟨rfl, hrefill⟩
  · have hzeroNat : ¬ (cfg.limit.refill st.bucket now.toNat).tokens = 0 := by
      rw [← htokens]
      exact fun h => hzero (UInt64.toNat_inj.mp h)
    have hone : (1 : UInt64) ≤ (tbRefill st cfg now).tokens := by
      rw [UInt64.le_iff_toNat_le]
      have hne : (tbRefill st cfg now).tokens.toNat ≠ 0 := fun h => hzero (UInt64.toNat_inj.mp h)
      exact Nat.pos_of_ne_zero hne
    rw [if_neg hzero, if_neg hzeroNat]
    refine ⟨rfl, ?_⟩
    simp only [RlState.bucket, UInt64.toNat_sub_of_le _ _ hone, htokens, Bucket.mk.injEq]
    exact ⟨congrArg Bucket.last hrefill, rfl⟩

theorem tbAllowAndUpdate_bucket (hactive : cfg.active) (hfits : RefillFits st cfg) (hlast : st.lastNs ≤ now) :
    (tbAllowAndUpdate st cfg now).1 = (cfg.limit.take st.bucket now.toNat).1 ∧
      (tbAllowAndUpdate st cfg now).2.bucket = (cfg.limit.take st.bucket now.toNat).2 :=
  tbAllowAndUpdate_of_refill hactive (tbRefill_bucket hactive hfits hlast)

end Kernloom
