import Kernloom.ShieldLimits

/-! Rate limits over windows of a run: while a policy stays selected for a source, its packets that
pass the limit are bounded by the burst and the time, from any bucket below the burst. -/

namespace Kernloom

open TokenBucket Transition

section Windows

variable {src : ShieldSource} {cfg : RlCfg} {w w' : ShieldWorld} {e : ShieldEvent} {es : List ShieldEvent}
  {since duration : Nat}

/-- Whether an event is a limited packet of the source that passes. -/
def limitedPass (src : ShieldSource) (cfg : RlCfg) (w : ShieldWorld) : ShieldEvent → Bool
  | .packet ctx data => IsLimited src cfg w data ∧ (xdpKlshield w.config ctx data w.state).1 = .pass
  | _ => false

/-- The limited packets of the source that pass in a run. -/
def limitedPasses (src : ShieldSource) (cfg : RlCfg) : ShieldWorld → List ShieldEvent → Nat
  | _, [] => 0
  | w, e :: es =>
    (limitedPass src cfg w e).toNat +
      match shieldStep w e with
      | some w' => limitedPasses src cfg w' es
      | none => 0

/-- The time of a packet. -/
def ShieldEvent.time : ShieldEvent → Option Nat
  | .packet ctx _ => some ctx.now.toNat
  | _ => none

/-- An event of a window of `duration` nanoseconds throughout which `cfg` is selected. -/
def InWindow (src : ShieldSource) (cfg : RlCfg) (since duration : Nat) (w : ShieldWorld) (e : ShieldEvent) : Prop :=
  w.config.policy src = some cfg ∧ ∀ t ∈ e.time, since ≤ t ∧ t ≤ since + duration

/-- A bucket below the burst whose refill does not overflow, or a new one that is stored. -/
def FitsPolicy (cfg : RlCfg) (bucket : Option RlState) (room : Bool) : Prop :=
  (∀ st ∈ bucket, RefillFits st cfg) ∧ (bucket = none → room = true)

/-- A limited packet finds a bucket that fits the selected policy. -/
def BucketFits (src : ShieldSource) (w : ShieldWorld) : ShieldEvent → Prop
  | .packet ctx data => ∀ cfg ∈ w.config.policy src, IsLimited src cfg w data →
      FitsPolicy cfg (w.state.rlState src) ctx.room.rl
  | _ => True

instance (src : ShieldSource) (cfg : RlCfg) (since duration : Nat) (w : ShieldWorld) (e : ShieldEvent) :
    Decidable (InWindow src cfg since duration w e) := inferInstanceAs (Decidable (_ ∧ ∀ t ∈ e.time, _))

instance (cfg : RlCfg) (bucket : Option RlState) (room : Bool) : Decidable (FitsPolicy cfg bucket room) :=
  inferInstanceAs (Decidable ((∀ st ∈ bucket, _) ∧ _))

instance (src : ShieldSource) (w : ShieldWorld) : (e : ShieldEvent) → Decidable (BucketFits src w e)
  | .packet ctx data => inferInstanceAs (Decidable (∀ cfg ∈ w.config.policy src, IsLimited src cfg w data →
      FitsPolicy cfg (w.state.rlState src) ctx.room.rl))
  | .configure _ | .evictSrc4 _ | .evictSrc6 _ | .evictFlow _ => .isTrue trivial

/-- No bucket is ahead of the clock. -/
def BucketsBehind (w : ShieldWorld) : Prop :=
  ∀ src st, w.state.rlState src = some st → st.lastNs ≤ w.clock

theorem rateLimit_lastNs_le {bucket : Option RlState} {now : UInt64} {room : Bool} {st : RlState}
    (hbucket : ∀ b, bucket = some b → b.lastNs ≤ now) (h : (rateLimit cfg bucket now room).2 = some st) :
    st.lastNs ≤ now := by
  cases bucket with
  | none =>
    cases room with
    | false => cases h
    | true =>
      obtain rfl := Option.some.inj h
      exact UInt64.le_refl now
  | some b =>
    obtain rfl := Option.some.inj h
    exact tbAllowAndUpdate_lastNs_le (hbucket b rfl)

theorem shieldStep_packet {ctx : XdpContext} {data : PacketBytes} (h : ShieldStep w (.packet ctx data) w') :
    w.clock ≤ ctx.now ∧ w' = { w with state := (xdpKlshield w.config ctx data w.state).2, clock := ctx.now } := by
  simp only [ShieldStep, shieldStep] at h
  by_cases hclock : w.clock ≤ ctx.now
  · rw [if_pos hclock] at h
    exact ⟨hclock, (Option.some.inj h).symm⟩
  · rw [if_neg hclock] at h
    cases h

/-- Whatever is not a packet leaves the clock and the buckets as they are. -/
theorem shieldStep_other (h : ShieldStep w e w') (hother : ∀ ctx data, e ≠ .packet ctx data) :
    w'.clock = w.clock ∧ ∀ src, w'.state.rlState src = w.state.rlState src := by
  cases e with
  | packet ctx data => exact absurd rfl (hother ctx data)
  | configure config =>
    obtain rfl := Option.some.inj h
    exact ⟨rfl, fun _ => rfl⟩
  | evictSrc4 saddr | evictSrc6 saddr | evictFlow key =>
    obtain rfl := Option.some.inj h
    exact ⟨rfl, fun src => by cases src <;> rfl⟩

theorem BucketsBehind.step (h : BucketsBehind w) (hstep : ShieldStep w e w') : BucketsBehind w' := by
  intro src st hst
  by_cases hpacket : ∃ ctx data, e = .packet ctx data
  · obtain ⟨ctx, data, rfl⟩ := hpacket
    obtain ⟨hclock, rfl⟩ := shieldStep_packet hstep
    have hbehind : ∀ b, w.state.rlState src = some b → b.lastNs ≤ ctx.now := fun b hb =>
      UInt64.le_trans (h src b hb) hclock
    by_cases hlimited : ∃ cfg, IsLimited src cfg w data
    · obtain ⟨cfg, hlimited⟩ := hlimited
      exact rateLimit_lastNs_le hbehind ((xdpKlshield_limited hlimited ctx).1.symm.trans hst)
    · rw [not_exists] at hlimited
      exact hbehind st ((xdpKlshield_unlimited hlimited).symm.trans hst)
  · have hother : ∀ ctx data, e ≠ .packet ctx data := fun ctx data he => hpacket ⟨ctx, data, he⟩
    obtain ⟨hclock, hbuckets⟩ := shieldStep_other hstep hother
    rw [hclock]
    exact h src st ((hbuckets src).symm.trans hst)

/-- What passed in a window is paid for: by a full bucket, and by the time since its start. -/
def Paid (src : ShieldSource) (cfg : RlCfg) (since duration passed : Nat) (w : ShieldWorld) : Prop :=
  passed = 0 ∨ ∃ st, w.state.rlState src = some st ∧ since ≤ w.clock.toNat ∧
    w.clock.toNat ≤ since + duration ∧
    cfg.limit.period * passed + cfg.limit.value st.bucket w.clock.toNat ≤
      cfg.limit.period * cfg.burst.toNat + 1 + (w.clock.toNat - since)

/-- A limited packet takes its token from the value of the bucket. -/
theorem Paid.limited {passed : Nat} {ctx : XdpContext} {data : PacketBytes}
    (h : Paid src cfg since duration passed w) (hbehind : BucketsBehind w) (hactive : cfg.active)
    (hrate : cfg.ratePPS.toNat ≤ 10 ^ 9) (hclock : w.clock ≤ ctx.now) (hfrom : since ≤ ctx.now.toNat)
    (hto : ctx.now.toNat ≤ since + duration) (hlimited : IsLimited src cfg w data)
    (hfits : BucketFits src w (.packet ctx data)) :
    Paid src cfg since duration (passed + (limitedPass src cfg w (.packet ctx data)).toNat)
      { w with state := (xdpKlshield w.config ctx data w.state).2, clock := ctx.now } := by
  obtain ⟨hratePos, hburst⟩ := RlCfg.active_iff.mp hactive
  obtain ⟨hbucket, hpass⟩ := xdpKlshield_limited hlimited ctx
  have hfits : FitsPolicy cfg (w.state.rlState src) ctx.room.rl := hfits cfg hlimited.2.2 hlimited
  have hpassed : (limitedPass src cfg w (.packet ctx data)).toNat ≤
      (rateLimit cfg (w.state.rlState src) ctx.now ctx.room.rl).1.toNat := by
    cases hp : limitedPass src cfg w (.packet ctx data) with
    | false => exact Nat.zero_le _
    | true =>
      simp only [limitedPass, decide_eq_true_eq] at hp
      rw [hpass hp.2]
  generalize (limitedPass src cfg w (.packet ctx data)).toNat = pass at hpassed ⊢
  right
  cases hst : w.state.rlState src with
  | none =>
    rw [hst] at hbucket hpassed hfits
    have hzero : passed = 0 := by
      rcases h with h | ⟨st, hsome, -⟩
      · exact h
      · exact absurd (hst.symm.trans hsome) (by simp)
    have htokens : (rlInit cfg ctx.now).tokens.toNat = cfg.burst.toNat - 1 := by
      have hone : (1 : UInt64) ≤ cfg.burst := UInt64.le_iff_toNat_le.mpr hburst
      have hpos : 0 < cfg.burst := UInt64.lt_iff_toNat_lt.mpr hburst
      simp only [rlInit, if_pos hpos]
      exact UInt64.toNat_sub_of_le _ _ hone
    refine ⟨rlInit cfg ctx.now, ?_, hfrom, hto, ?_⟩
    · rw [hbucket, hfits.2 rfl]
      rfl
    · have hvalue : cfg.limit.value (rlInit cfg ctx.now).bucket ctx.now.toNat =
          cfg.limit.period * (cfg.burst.toNat - 1) := by
        simp only [Limit.value, RlState.bucket, htokens]
        simp [rlInit]
      have hone : pass ≤ 1 := hpassed
      have hcost : cfg.limit.period * pass ≤ cfg.limit.period * 1 := Nat.mul_le_mul_left _ hone
      have hfull : cfg.limit.period * (cfg.burst.toNat - 1) + cfg.limit.period * 1 =
          cfg.limit.period * cfg.burst.toNat := by
        rw [← Nat.mul_add, Nat.sub_add_cancel hburst]
      rw [hzero, hvalue, Nat.zero_add]
      omega
  | some st =>
    rw [hst] at hbucket hpassed hfits
    have hfits : RefillFits st cfg := hfits.1 st rfl
    have hlast : st.lastNs ≤ ctx.now := UInt64.le_trans (hbehind src st hst) hclock
    have hlastNat : st.bucket.last ≤ ctx.now.toNat := UInt64.le_iff_toNat_le.mp hlast
    obtain ⟨htook, hafter⟩ := tbAllowAndUpdate_bucket hactive hfits hlast
    have hpassNat : pass ≤ (cfg.limit.take st.bucket ctx.now.toNat).1.toNat := by
      rw [← htook]
      exact hpassed
    have hcost : cfg.limit.period * pass ≤
        cfg.limit.period * (cfg.limit.take st.bucket ctx.now.toNat).1.toNat := Nat.mul_le_mul_left _ hpassNat
    have htake := cfg.limit.value_take st.bucket ctx.now.toNat
    refine ⟨(tbAllowAndUpdate st cfg ctx.now).2, hbucket, hfrom, hto, ?_⟩
    rw [hafter, Nat.mul_add]
    rcases h with hzero | ⟨st', hst', hfrom', -, hpaid⟩
    · -- the first of the window: the bucket is below its burst
      have hfull : cfg.limit.value (cfg.limit.refill st.bucket ctx.now.toNat) ctx.now.toNat ≤
          cfg.limit.period * cfg.burst.toNat + 1 :=
        Limit.value_refill_le_burst hratePos hrate (UInt64.lt_iff_toNat_lt.mp hfits.1)
      rw [hzero, Nat.mul_zero]
      simp only
      omega
    · obtain rfl := Option.some.inj (hst.symm.trans hst')
      have hrefill : cfg.limit.value (cfg.limit.refill st.bucket ctx.now.toNat) ctx.now.toNat ≤
          cfg.limit.value st.bucket ctx.now.toNat := Limit.value_refill_le hlastNat hratePos
      have hlater := cfg.limit.value_later st.bucket (UInt64.le_iff_toNat_le.mp hclock)
      have hclockNat := UInt64.le_iff_toNat_le.mp hclock
      simp only
      omega

theorem Paid.unlimited {passed : Nat} {ctx : XdpContext} {data : PacketBytes}
    (h : Paid src cfg since duration passed w) (hclock : w.clock ≤ ctx.now)
    (hto : ctx.now.toNat ≤ since + duration) (hunlimited : ∀ cfg, ¬ IsLimited src cfg w data) :
    Paid src cfg since duration passed
      { w with state := (xdpKlshield w.config ctx data w.state).2, clock := ctx.now } := by
  rcases h with hzero | ⟨st, hst, hfrom, -, hpaid⟩
  · exact .inl hzero
  · have hclockNat := UInt64.le_iff_toNat_le.mp hclock
    have hlater := cfg.limit.value_later st.bucket hclockNat
    refine .inr ⟨st, (xdpKlshield_unlimited hunlimited).trans hst, hfrom.trans hclockNat, hto, ?_⟩
    simp only
    omega

theorem Paid.step {passed : Nat} (h : Paid src cfg since duration passed w) (hbehind : BucketsBehind w)
    (hactive : cfg.active) (hrate : cfg.ratePPS.toNat ≤ 10 ^ 9) (hwindow : InWindow src cfg since duration w e)
    (hfits : BucketFits src w e) (hstep : ShieldStep w e w') :
    Paid src cfg since duration (passed + (limitedPass src cfg w e).toNat) w' := by
  by_cases hpacket : ∃ ctx data, e = .packet ctx data
  · obtain ⟨ctx, data, rfl⟩ := hpacket
    obtain ⟨hclock, rfl⟩ := shieldStep_packet hstep
    obtain ⟨hpolicy, htime⟩ := hwindow
    obtain ⟨hfrom, hto⟩ := htime ctx.now.toNat rfl
    by_cases hlimited : IsLimited src cfg w data
    · exact h.limited hbehind hactive hrate hclock hfrom hto hlimited hfits
    · have hunlimited : ∀ cfg', ¬ IsLimited src cfg' w data := by
        rintro cfg' ⟨hsource, hadmits, hpolicy'⟩
        exact hlimited ⟨hsource, hadmits, hpolicy⟩
      have hnot : limitedPass src cfg w (.packet ctx data) = false := by simp [limitedPass, hlimited]
      rw [hnot]
      exact h.unlimited hclock hto hunlimited
  · have hother : ∀ ctx data, e ≠ .packet ctx data := fun ctx data he => hpacket ⟨ctx, data, he⟩
    obtain ⟨hclock, hbuckets⟩ := shieldStep_other hstep hother
    have hnot : limitedPass src cfg w e = false := by
      cases e with
      | packet ctx data => exact absurd rfl (hother ctx data)
      | configure _ | evictSrc4 _ | evictSrc6 _ | evictFlow _ => rfl
    rw [hnot]
    simpa only [Paid, hclock, hbuckets, Bool.toNat_false, Nat.add_zero] using h

theorem Paid.run {passed : Nat}
    (hrun : Run (Guarded (fun w e => InWindow src cfg since duration w e ∧ BucketFits src w e) ShieldStep) w es w')
    (h : Paid src cfg since duration passed w) (hbehind : BucketsBehind w) (hactive : cfg.active)
    (hrate : cfg.ratePPS.toNat ≤ 10 ^ 9) :
    Paid src cfg since duration (passed + limitedPasses src cfg w es) w' := by
  induction hrun generalizing passed with
  | nil => exact h
  | @cons w u w' e es hst _ ih =>
    obtain ⟨⟨hwindow, hfits⟩, hstep⟩ := hst
    have hpaid := h.step hbehind hactive hrate hwindow hfits hstep
    have hcount : limitedPasses src cfg w (e :: es) =
        (limitedPass src cfg w e).toNat + limitedPasses src cfg u es := by
      simp only [limitedPasses]
      rw [show shieldStep w e = some u from hstep]
    rw [hcount, ← Nat.add_assoc]
    exact ih hpaid (hbehind.step hstep)

/-- In a window of a run throughout which a policy is selected and its limited packets find fitting
buckets, what passes is bounded by the burst and the time. -/
theorem window_bounded {config : ShieldConfig} {before : List ShieldEvent} (hbefore : Run ShieldStep ⟨config, {}, 0⟩ before w)
    (hwindow : Run (Guarded (fun w e => InWindow src cfg since duration w e ∧ BucketFits src w e) ShieldStep) w es w')
    (hratePos : 1 ≤ cfg.ratePPS.toNat) (hrate : cfg.ratePPS.toNat ≤ 10 ^ 9) (hburst : 1 ≤ cfg.burst.toNat) :
    limitedPasses src cfg w es ≤ cfg.burst.toNat + (duration + 1) / (10 ^ 9 / cfg.ratePPS.toNat) := by
  have hstart : BucketsBehind ⟨config, {}, 0⟩ := fun src st hst => by cases src <;> cases hst
  have hbehind : BucketsBehind w := hbefore.invariant (I := BucketsBehind) hstart fun hs hstep => hs.step hstep
  have hactive : cfg.active := RlCfg.active_iff.mpr ⟨hratePos, hburst⟩
  have hperiod : 0 < cfg.limit.period := Limit.period_pos hratePos hrate
  have hpaid := Paid.run hwindow (.inl rfl) hbehind hactive hrate
  rw [Nat.zero_add] at hpaid
  rcases hpaid with hzero | ⟨st, -, hfrom, hto, hpaid⟩
  · rw [hzero]
    exact Nat.zero_le _
  · have htotal : cfg.limit.period * limitedPasses src cfg w es ≤
        duration + 1 + cfg.limit.period * cfg.burst.toNat := by omega
    have hdiv := (Nat.le_div_iff_mul_le hperiod).mpr ((Nat.mul_comm ..).trans_le htotal)
    rw [Nat.add_mul_div_left _ _ hperiod, Nat.add_comm] at hdiv
    exact hdiv

def limitTo (rate burst : UInt64) : ShieldConfig where
  rlCfg := some ⟨rate, burst⟩

def packetAt (t : UInt64) : ShieldEvent := .packet ⟨0, t, {}⟩ (udpPacket 0 53)

/-- Three packets at once under a burst of two. -/
def runThreeAtOnce : Option ShieldWorld :=
  [packetAt 5, packetAt 5, packetAt 5].foldlM
    (fun w e => if InWindow (.v4 fixtureSource) ⟨1, 2⟩ 5 0 w e ∧ BucketFits (.v4 fixtureSource) w e
      then shieldStep w e else none) ⟨limitTo 1 2, {}, 0⟩

theorem three_at_once_facts : (runThreeAtOnce.any fun w => (w.state.totals 0).dropRL = 1) = true := by
  decide +kernel

theorem three_at_once_bounded : limitedPasses (.v4 fixtureSource) ⟨1, 2⟩ ⟨limitTo 1 2, {}, 0⟩
    [packetAt 5, packetAt 5, packetAt 5] ≤ 2 + (0 + 1) / (10 ^ 9 / 1) := by
  have hfacts := three_at_once_facts
  rcases hw : runThreeAtOnce with _ | w
  · simp [hw] at hfacts
  · exact window_bounded .nil (guarded_of_foldlM hw) (by decide) (by decide) (by decide)

/-- The bucket of a larger burst outlives its policy. -/
theorem shrunk_burst_exceeded : ¬ ∀ (config : ShieldConfig) (before es : List ShieldEvent) (w w' : ShieldWorld)
    (src : ShieldSource) (cfg : RlCfg) (since duration : Nat), Run ShieldStep ⟨config, {}, 0⟩ before w →
      Run (Guarded (fun w e => InWindow src cfg since duration w e) ShieldStep) w es w' →
      1 ≤ cfg.ratePPS.toNat → cfg.ratePPS.toNat ≤ 10 ^ 9 → 1 ≤ cfg.burst.toNat →
      limitedPasses src cfg w es ≤ cfg.burst.toNat + (duration + 1) / (10 ^ 9 / cfg.ratePPS.toNat) := by
  intro h
  have hfacts : ((([packetAt 5, .configure (limitTo 1 1)].foldlM shieldStep ⟨limitTo 1 4, {}, 0⟩).any fun w =>
      ([packetAt 5, packetAt 5].foldlM (fun w e => if InWindow (.v4 fixtureSource) ⟨1, 1⟩ 5 0 w e
        then shieldStep w e else none) w).isSome ∧
          limitedPasses (.v4 fixtureSource) ⟨1, 1⟩ w [packetAt 5, packetAt 5] = 2) = true) := by
    decide +kernel
  rcases hw : [packetAt 5, .configure (limitTo 1 1)].foldlM shieldStep ⟨limitTo 1 4, {}, 0⟩ with _ | w
  · simp [hw] at hfacts
  · rw [hw, Option.any_some] at hfacts
    obtain ⟨hsome, htwo⟩ := of_decide_eq_true hfacts
    obtain ⟨w', hw'⟩ := Option.isSome_iff_exists.mp hsome
    have hle := h _ _ _ w w' _ ⟨1, 1⟩ 5 0 (run_of_foldlM hw) (guarded_of_foldlM hw') (by decide) (by decide)
      (by decide)
    rw [htwo] at hle
    exact absurd hle (by decide)

end Windows

end Kernloom
