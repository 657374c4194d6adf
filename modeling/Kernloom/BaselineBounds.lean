import Kernloom.MetricBaseline
import Kernloom.MovingAverage
import Kernloom.SourceBaseline

/-! Baselines stay within what was cleanly observed. -/

namespace Kernloom

open MovingAverage Set

/-- The speeds a baseline adapts at, as the configurations document them. -/
structure LearningRates (alpha alphaPromoted : Rat) : Prop where
  alpha : alpha ∈ Ioc 0 1
  alphaPromoted : alphaPromoted ∈ Ioc 0 1

theorem LearningRates.ite {alpha alphaPromoted : Rat} (h : LearningRates alpha alphaPromoted)
    (promoted : Prop)
    [Decidable promoted] : (if promoted then alphaPromoted else alpha) ∈ Ioc 0 1 := by
  split_ifs
  · exact h.alphaPromoted
  · exact h.alpha

section Metric

structure MetricSample where
  value : Rat
  suspicious : Bool
  now : Time

def cleanValues (us : List MetricSample) : List Rat :=
    (us.filter fun u => ¬ u.suspicious).map MetricSample.value

namespace MetricProfile

/-- The profile made at a time, after a sequence of updates. -/
def run (cfg : MetricConfig) (firstSeen : Time) (us : List MetricSample) : MetricProfile :=
  us.foldl (fun p u => p.update cfg u.value u.suspicious u.now) { firstSeen }

structure Within (lo hi : Rat) (p : MetricProfile) : Prop where
  ewma : p.learnedCount ≠ 0 → p.ewma ∈ Icc lo hi
  ewmaVariance : p.ewmaVariance ∈ Icc 0 ((hi - lo) ^ 2)
  peak : p.peak ≤ hi

variable {cfg : MetricConfig} {lo hi value : Rat} {now : Time} {p : MetricProfile}

theorem Within.checkPromotion (h : p.Within lo hi) (hlearned : p.learnedCount ≠ 0) (minCount : Nat) :
    (p.checkPromotion minCount).Within lo hi := by
  unfold MetricProfile.checkPromotion
  split_ifs
  · exact h
  · exact ⟨h.ewma, h.ewmaVariance, (h.ewma hlearned).2⟩
  · exact h

theorem Within.learnValue {a : Rat} (h : p.Within lo hi) (hlearned : p.learnedCount ≠ 0) (ha : a ∈ Ioc 0 1)
    (hvalue : value ∈ Icc lo hi) : (p.learnValue value a).Within lo hi where
  ewma _ := average_mem ha (h.ewma hlearned) hvalue
  ewmaVariance := variance_mem ha (h.ewma hlearned) hvalue h.ewmaVariance
  peak := by
    unfold MetricProfile.learnValue
    dsimp only
    split_ifs
    · exact hvalue.2
    · exact h.peak

theorem Within.congr {p' : MetricProfile} (h : p.Within lo hi) (hsame : SameBaseline p p') :
    p'.Within lo hi where
  ewma := by
    rw [hsame.learnedCount, hsame.ewma]
    exact h.ewma
  ewmaVariance := by
    rw [hsame.ewmaVariance]
    exact h.ewmaVariance
  peak := by
    rw [hsame.peak]
    exact h.peak

theorem Within.update {suspicious : Bool} (h : p.Within lo hi)
    (hrates : LearningRates cfg.alpha cfg.alphaPromoted) (hvalue : suspicious = false → value ∈ Icc lo hi) :
    (p.update cfg value suspicious now).Within lo hi := by
  cases suspicious with
  | true => exact h.congr (update_suspicious cfg value now p)
  | false =>
    have hvalue := hvalue rfl
    have hcounted : Within lo hi { p with count := p.count + 1, lastSeen := now } :=
      h.congr ⟨rfl, rfl, rfl, rfl, rfl⟩
    rw [MetricProfile.update, if_neg Bool.false_ne_true]
    by_cases hfirst : p.learnedCount = 0
    · rw [if_pos hfirst]
      apply Within.checkPromotion _ one_ne_zero
      exact ⟨fun _ => hvalue, ⟨le_rfl, sq_nonneg _⟩, h.peak⟩
    · rw [if_neg hfirst]
      have hlearned := hcounted.learnValue hfirst (hrates.ite (p.promoted = true)) hvalue
      exact (hlearned.checkPromotion (Nat.succ_ne_zero _) cfg.minCount).congr ⟨rfl, rfl, rfl, rfl, rfl⟩

theorem run_append (cfg : MetricConfig) (firstSeen : Time) (us : List MetricSample) (u : MetricSample) :
    run cfg firstSeen (us ++ [u]) = (run cfg firstSeen us).update cfg u.value u.suspicious u.now :=
  List.foldl_concat ..

theorem run_within (hrates : LearningRates cfg.alpha cfg.alphaPromoted) (hhi : 0 ≤ hi) {firstSeen : Time}
    {us : List MetricSample} (hclean : ∀ v ∈ cleanValues us, v ∈ Icc lo hi) :
    (run cfg firstSeen us).Within lo hi := by
  induction us using List.reverseRecOn with
  | nil => exact ⟨fun h => absurd rfl h, ⟨le_rfl, sq_nonneg _⟩, hhi⟩
  | append_singleton us u ih =>
    rw [run_append]
    refine (ih fun v hv => hclean v ?_).update hrates fun hu => hclean u.value ?_
    · simp_all [cleanValues]
    · simp [cleanValues, hu]

theorem run_learnedCount (firstSeen : Time) (us : List MetricSample) :
    (run cfg firstSeen us).learnedCount = (cleanValues us).length := by
  induction us using List.reverseRecOn with
  | nil => rfl
  | append_singleton us u ih =>
    rw [run_append]
    cases hu : u.suspicious with
    | true => simpa [cleanValues, hu] using (update_suspicious cfg u.value u.now _).learnedCount.trans ih
    | false => simp [cleanValues, hu, update_clean, ih]

end MetricProfile

namespace MetricEngine

/-- The engine after updates of any keys. -/
def run (order : ProfileOrder) (cfg : MetricConfig) (calls : List (String × MetricSample)) : MetricEngine :=
  calls.foldl (fun e c => e.update order c.1 c.2.value c.2.suspicious c.2.now) ⟨cfg, ∅⟩

def samplesOf (key : String) (calls : List (String × MetricSample)) : List MetricSample :=
  (calls.filter fun c => c.1 = key).map Prod.snd

theorem profile_cfg (order : ProfileOrder) (key : String) (now : Time) (e : MetricEngine) :
    (e.profile order key now).2.cfg = e.cfg := by
  unfold profile evictLocked
  repeat' split
  all_goals rfl

theorem run_cfg (order : ProfileOrder) (cfg : MetricConfig) (calls : List (String × MetricSample)) :
    (run order cfg calls).cfg = cfg := by
  induction calls using List.reverseRecOn with
  | nil => rfl
  | append_singleton calls c ih =>
    rw [run, List.foldl_concat]
    exact (profile_cfg ..).trans ih

/-- A profile of the engine has taken the updates of its key since it was made, and no others. -/
theorem profile_run (order : ProfileOrder) (cfg : MetricConfig) (calls : List (String × MetricSample))
    {key : String} {p : MetricProfile} (hp : p ∈ (run order cfg calls).profiles.lookup key) :
    ∃ firstSeen, ∃ us, us <:+ samplesOf key calls ∧ p = MetricProfile.run cfg firstSeen us := by
  induction calls using List.reverseRecOn generalizing p with
  | nil => cases hp
  | append_singleton calls c ih =>
    let e := run order cfg calls
    have hstep : run order cfg (calls ++ [c]) = e.update order c.1 c.2.value c.2.suspicious c.2.now :=
      List.foldl_concat ..
    rw [hstep] at hp
    by_cases hkey : c.1 = key
    · have hsamples : samplesOf key (calls ++ [c]) = samplesOf key calls ++ [c.2] := by simp [samplesOf, hkey]
      have hupdated : p = (e.profile order key c.2.now).1.update cfg c.2.value c.2.suspicious c.2.now := by
        rw [MetricEngine.update, hkey, AList.lookup_insert, profile_cfg, run_cfg] at hp
        exact (Option.some.inj hp).symm
      rw [hsamples]
      have hprofile : ∃ firstSeen, ∃ us, us <:+ samplesOf key calls ∧
          (e.profile order key c.2.now).1 = MetricProfile.run cfg firstSeen us := by
        unfold profile
        split
        · rename_i q hq
          exact ih hq
        · exact ⟨c.2.now, [], List.nil_suffix, rfl⟩
      obtain ⟨firstSeen, us, hsuffix, hrun⟩ := hprofile
      refine ⟨firstSeen, us ++ [c.2], ?_, ?_⟩
      · exact List.suffix_append_self_iff.mpr hsuffix
      · rw [hupdated, hrun, MetricProfile.run_append]
    · have hsamples : samplesOf key (calls ++ [c]) = samplesOf key calls := by simp [samplesOf, hkey]
      rw [hsamples]
      exact ih ((lookup_update ..).2 key (Ne.symm hkey) p hp)

theorem run_within {order : ProfileOrder} {cfg : MetricConfig} {calls : List (String × MetricSample)}
    {key : String}
    {lo hi : Rat} (hrates : LearningRates cfg.alpha cfg.alphaPromoted) (hhi : 0 ≤ hi)
    (hclean : ∀ v ∈ cleanValues (samplesOf key calls), v ∈ Icc lo hi) :
    ∀ p ∈ (run order cfg calls).profiles.lookup key, p.Within lo hi := by
  intro p hp
  obtain ⟨firstSeen, us, hsuffix, rfl⟩ := profile_run order cfg calls hp
  refine MetricProfile.run_within hrates hhi fun v hv => hclean v ?_
  exact ((hsuffix.sublist.filter _).map _).subset hv

end MetricEngine

end Metric

section Source

def SourceBaselineConfig.applyDefaults (cfg : SourceBaselineConfig) : SourceBaselineConfig where
  alpha := if cfg.alpha ≤ 0 then 1 / 10 else cfg.alpha
  alphaPromoted := if cfg.alphaPromoted ≤ 0 then 1 / 50 else cfg.alphaPromoted
  minUpdatePPS := if cfg.minUpdatePPS ≤ 0 then 3 else cfg.minUpdatePPS
  minObs := if cfg.minObs = 0 then 30 else cfg.minObs
  minConfObs := if cfg.minConfObs = 0 then 100 else cfg.minConfObs
  maxSources := if cfg.maxSources = 0 then 100000 else cfg.maxSources
  peakMultiplier := if cfg.peakMultiplier ≤ 0 then 6 / 5 else cfg.peakMultiplier
  minConfidence := if cfg.minConfidence ≤ 0 then 2 / 5 else cfg.minConfidence

theorem SourceBaselineConfig.applyDefaults_peakMultiplier (cfg : SourceBaselineConfig) :
    0 < cfg.applyDefaults.peakMultiplier := by
  unfold applyDefaults
  dsimp only
  split_ifs with h
  · norm_num
  · exact not_le.mp h

theorem LearningRates.applyDefaults {cfg : SourceBaselineConfig}
    (h : LearningRates cfg.alpha cfg.alphaPromoted) :
    LearningRates cfg.applyDefaults.alpha cfg.applyDefaults.alphaPromoted := by
  have halpha : cfg.applyDefaults.alpha = cfg.alpha := if_neg (not_le.mpr h.alpha.1)
  have hpromoted : cfg.applyDefaults.alphaPromoted = cfg.alphaPromoted :=
      if_neg (not_le.mpr h.alphaPromoted.1)
  rwa [halpha, hpromoted]

inductive SourceCall
  | update (srcIP : String) (pps bps syn scan : Rat) (isSuspicious : Bool) (now clock : Time)
  | trigger (rate : SourceBaselines.Rate) (srcIP : String) (globalTrig : Rat)

namespace SourceBaselines

def Rate.baseline : Rate → SourceProfile → RateBaseline
  | .pps, p => p.pps
  | .bps, p => p.bps
  | .syn, p => p.syn
  | .scan, p => p.scan

def Rate.observed (pps bps syn scan : Rat) : Rate → Rat
  | .pps => pps
  | .bps => bps
  | .syn => syn
  | .scan => scan

/-- The values of a rate that a source was observed with, suspicious ones left out. -/
def cleanRates (srcIP : String) (rate : Rate) (calls : List SourceCall) : List Rat :=
  calls.filterMap fun
    | .update src pps bps syn scan false _ _ =>
      if src = srcIP then some (rate.observed pps bps syn scan) else none
    | _ => none

def call (c : SourceBaselines) : SourceCall → SourceBaselines
  | .update srcIP pps bps syn scan isSuspicious now clock =>
    c.update srcIP pps bps syn scan isSuspicious now clock
  | .trigger rate srcIP globalTrig => (c.effectiveTrig rate srcIP globalTrig).2

/-- The cache after calls on a new one. -/
def run (cfg : SourceBaselineConfig) (calls : List SourceCall) : SourceBaselines :=
  calls.foldl call (new cfg.applyDefaults)

end SourceBaselines

structure RateBaseline.Within (hi : Rat) (r : RateBaseline) : Prop where
  ewma : r.ewma ∈ Icc 0 hi
  peak : r.peak ≤ 3 / 2 * hi

namespace RateBaseline

variable {hi x a : Rat} {r : RateBaseline}

theorem Within.learn (first promoted : Bool) (h : r.Within hi) (ha : a ∈ Ioc 0 1) (hx : x ∈ Icc 0 hi) :
    (r.learn first promoted a x).Within hi where
  ewma := by
    unfold RateBaseline.learn
    dsimp only
    split_ifs
    · exact hx
    · exact weighted_mem ha h.ewma hx
  peak := by
    unfold RateBaseline.learn
    dsimp only
    split_ifs
    · linarith [hx.1, hx.2]
    · exact h.peak

theorem Within.seedPeak (h : r.Within hi) : r.seedPeak.Within hi where
  ewma := h.ewma
  peak := by
    unfold RateBaseline.seedPeak
    linarith [h.ewma.2]

end RateBaseline

namespace SourceBaselines

variable {cfg : SourceBaselineConfig} {srcIP : String} {rate : Rate} {hi globalTrig : Rat}
    {c : SourceBaselines}
variable {p : SourceProfile}

theorem promote_within (minObs : Nat) (h : (rate.baseline p).Within hi) :
    (rate.baseline (p.promote minObs)).Within hi := by
  unfold SourceProfile.promote
  split_ifs
  · have hseeded := h.seedPeak
    cases rate <;> exact hseeded
  · exact h

theorem observe_within {pps bps syn scan : Rat} {now clock : Time} (h : (rate.baseline p).Within hi)
    (hrates : LearningRates cfg.alpha cfg.alphaPromoted) (hx : rate.observed pps bps syn scan ∈ Icc 0 hi) :
    (rate.baseline (p.observe cfg pps bps syn scan now clock)).Within hi := by
  have hlearned := h.learn (p.obsCount = 0) p.promoted (hrates.ite (p.promoted = true)) hx
  let learned := p.learnRates (if p.promoted then cfg.alphaPromoted else cfg.alpha) pps bps syn scan
  have hcounted : (rate.baseline { learned with
      obsCount := p.obsCount + 1, windows := p.windows + 1, lastSeen := now }).Within hi := by
    cases rate <;> exact hlearned
  have hpromoted := promote_within cfg.minObs hcounted
  cases rate <;> exact hpromoted

theorem record_within {global effective : Rat} (rate' : Rate) (h : (rate.baseline p).Within hi) :
    (rate.baseline (rate'.record global effective p)).Within hi := by
  cases rate' <;> cases rate <;> exact ⟨h.ewma, h.peak⟩

/-- The profile of a source keeps to the bound of a rate. -/
def Within (srcIP : String) (rate : Rate) (hi : Rat) (c : SourceBaselines) : Prop :=
  ∀ p ∈ c.profiles.lookup srcIP, (rate.baseline p).Within hi

theorem Within.insert {srcIP' : String} (h : c.Within srcIP rate hi)
    (hp : srcIP' = srcIP → (rate.baseline p).Within hi) (dirty : List String) :
    Within srcIP rate hi ⟨c.cfg, c.profiles.insert srcIP' p, dirty⟩ := by
  intro p' hp'
  by_cases heq : srcIP' = srcIP
  · rw [heq, AList.lookup_insert] at hp'
    obtain rfl := Option.some.inj hp'
    exact hp heq
  · rw [AList.lookup_insert_ne (Ne.symm heq)] at hp'
    exact h p' hp'

theorem Within.update {srcIP' : String} {pps bps syn scan : Rat} {isSuspicious : Bool} {now clock : Time}
    (h : c.Within srcIP rate hi) (hhi : 0 ≤ hi) (hrates : LearningRates c.cfg.alpha c.cfg.alphaPromoted)
    (hx : isSuspicious = false → srcIP' = srcIP → rate.observed pps bps syn scan ∈ Icc 0 hi) :
    (c.update srcIP' pps bps syn scan isSuspicious now clock).Within srcIP rate hi := by
  have hfresh : (rate.baseline { firstSeen := now }).Within hi := by
    have hzero : RateBaseline.Within hi {} := ⟨⟨le_rfl, hhi⟩, mul_nonneg (by norm_num) hhi⟩
    cases rate <;> exact hzero
  unfold SourceBaselines.update
  split
  · exact h
  · rename_i hsuspicious
    have hx := hx (Bool.eq_false_iff.mpr hsuspicious)
    split
    · exact h
    · split
      · rename_i p hp
        exact h.insert (fun heq => observe_within (h p (heq ▸ hp)) hrates (hx heq)) _
      · split
        · exact h
        · exact h.insert (fun heq => observe_within hfresh hrates (hx heq)) _

theorem Within.recordTriggerLocked {srcIP' : String} {global effective : Rat} {rate' : Rate}
    (h : c.Within srcIP rate hi) (hp : p ∈ c.profiles.lookup srcIP') :
    (c.recordTriggerLocked srcIP' p global effective rate').Within srcIP rate hi := by
  have hafter : srcIP' = srcIP → (rate.baseline (rate'.record global effective p)).Within hi :=
    fun heq => record_within rate' (h p (heq ▸ hp))
  unfold SourceBaselines.recordTriggerLocked
  dsimp only
  split_ifs
  · exact h.insert hafter _
  · exact h.insert hafter _

theorem Within.effectiveTrig {srcIP' : String} {rate' : Rate} (h : c.Within srcIP rate hi) :
    (c.effectiveTrig rate' srcIP' globalTrig).2.Within srcIP rate hi := by
  unfold SourceBaselines.effectiveTrig recordDisabledTrigger effectiveTrigger
  split_ifs
  · split
    · exact h
    · exact h.recordTriggerLocked ‹_›
  · split
    · exact h
    · dsimp only
      split_ifs
      all_goals exact h.recordTriggerLocked ‹_›

theorem le_effectiveTrig : globalTrig ≤ (c.effectiveTrig rate srcIP globalTrig).1 := by
  unfold SourceBaselines.effectiveTrig effectiveTrigger
  split_ifs with hoff
  · exact hoff
  · split
    · exact le_rfl
    · dsimp only
      split_ifs with _ hraised
      · exact le_rfl
      · exact hraised.le
      · exact le_rfl

theorem Within.effectiveTrig_le (h : c.Within srcIP rate hi) (hhi : 0 ≤ hi) (hpm : 0 < c.cfg.peakMultiplier) :
    (c.effectiveTrig rate srcIP globalTrig).1 ≤ max globalTrig (3 / 2 * c.cfg.peakMultiplier * hi) := by
  unfold SourceBaselines.effectiveTrig effectiveTrigger
  split_ifs with hoff
  · exact le_max_of_le_right (by positivity)
  · split
    · exact le_max_left _ _
    · rename_i p hp
      dsimp only
      split_ifs with _ hraised
      · exact le_max_left _ _
      · have hpeak : rate.value p ≤ 3 / 2 * hi := by
          have hbound := (h p hp).peak
          cases rate <;> exact hbound
        refine le_max_of_le_right ?_
        calc rate.value p * c.cfg.peakMultiplier ≤ 3 / 2 * hi * c.cfg.peakMultiplier :=
              mul_le_mul_of_nonneg_right hpeak hpm.le
          _ = 3 / 2 * c.cfg.peakMultiplier * hi := by ring
      · exact le_max_left _ _

theorem update_cfg (srcIP : String) (pps bps syn scan : Rat) (isSuspicious : Bool) (now clock : Time) :
    (c.update srcIP pps bps syn scan isSuspicious now clock).cfg = c.cfg := by
  unfold SourceBaselines.update
  repeat' split
  all_goals rfl

theorem recordTriggerLocked_cfg (global effective : Rat) :
    (c.recordTriggerLocked srcIP p global effective rate).cfg = c.cfg := by
  unfold SourceBaselines.recordTriggerLocked
  dsimp only
  split_ifs <;> rfl

theorem effectiveTrig_cfg : (c.effectiveTrig rate srcIP globalTrig).2.cfg = c.cfg := by
  unfold SourceBaselines.effectiveTrig recordDisabledTrigger effectiveTrigger
  split_ifs
  · split
    · rfl
    · exact recordTriggerLocked_cfg 0 0
  · split
    · rfl
    · dsimp only
      split_ifs <;> exact recordTriggerLocked_cfg _ _

theorem run_append (cfg : SourceBaselineConfig) (calls : List SourceCall) (x : SourceCall) :
    run cfg (calls ++ [x]) = (run cfg calls).call x :=
  List.foldl_concat ..

theorem run_cfg (cfg : SourceBaselineConfig) (calls : List SourceCall) :
    (run cfg calls).cfg = cfg.applyDefaults := by
  induction calls using List.reverseRecOn with
  | nil => rfl
  | append_singleton calls x ih =>
    rw [run_append, ← ih]
    cases x with
    | update => exact update_cfg ..
    | trigger => exact effectiveTrig_cfg

theorem run_within (hrates : LearningRates cfg.alpha cfg.alphaPromoted) (hhi : 0 ≤ hi)
    {calls : List SourceCall}
    (hclean : ∀ v ∈ cleanRates srcIP rate calls, v ∈ Icc 0 hi) : (run cfg calls).Within srcIP rate hi := by
  induction calls using List.reverseRecOn with
  | nil =>
    intro p hp
    cases hp
  | append_singleton calls x ih =>
    rw [run_append]
    have hkept : (run cfg calls).Within srcIP rate hi := ih fun v hv => hclean v (by simp_all [cleanRates])
    cases x with
    | trigger => exact hkept.effectiveTrig
    | update srcIP' pps bps syn scan isSuspicious now clock =>
      refine hkept.update hhi ?_ fun hsuspicious heq => hclean _ ?_
      · rw [run_cfg]
        exact hrates.applyDefaults
      · simp [cleanRates, hsuspicious, heq]

end SourceBaselines

end Source

/-- The averages, variances, peaks and effective triggers that any updates leave keep to the range of
the clean ones among them. -/
theorem baselines_stay_within_clean {metric : MetricConfig} {source : SourceBaselineConfig}
    (hmetric : LearningRates metric.alpha metric.alphaPromoted)
    (hsource : LearningRates source.alpha source.alphaPromoted)
    (firstSeen : Time) {us : List MetricSample} {calls : List SourceCall} (hus : ∀ u ∈ us, 0 ≤ u.value)
    (hcalls : ∀ srcIP rate, ∀ v ∈ SourceBaselines.cleanRates srcIP rate calls, 0 ≤ v) :
    (∀ lo hi, IsLeast {v | v ∈ cleanValues us} lo → IsGreatest {v | v ∈ cleanValues us} hi →
      let p := MetricProfile.run metric firstSeen us
      p.ewma ∈ Icc lo hi ∧ p.ewmaVariance ∈ Icc 0 ((hi - lo) ^ 2) ∧ p.peak ≤ hi) ∧
    (∀ srcIP rate globalTrig,
      let effective := ((SourceBaselines.run source calls).effectiveTrig rate srcIP globalTrig).1
      globalTrig ≤ effective ∧
      ∀ hi, IsGreatest {v | v ∈ SourceBaselines.cleanRates srcIP rate calls} hi →
        effective ≤ max globalTrig (3 / 2 * source.applyDefaults.peakMultiplier * hi)) ∧
    (∀ p value now, MetricProfile.SameBaseline p (p.update metric value true now)) ∧
    (∀ (c : SourceBaselines) srcIP pps bps syn scan now clock,
      c.update srcIP pps bps syn scan true now clock = c) := by
  refine ⟨fun lo hi hlo hhi => ?_, fun srcIP rate globalTrig =>
    ⟨SourceBaselines.le_effectiveTrig, fun hi hhi => ?_⟩,
    fun p value now => MetricProfile.update_suspicious metric value now p, fun _ _ _ _ _ _ _ _ => rfl⟩
  · have hnonneg : 0 ≤ hi := by
      obtain ⟨u, hu, rfl⟩ := List.mem_map.mp hhi.1
      exact hus u (List.mem_of_mem_filter hu)
    have hrun : (MetricProfile.run metric firstSeen us).Within lo hi :=
      MetricProfile.run_within hmetric hnonneg fun v hv => ⟨hlo.2 hv, hhi.2 hv⟩
    refine ⟨hrun.ewma ?_, hrun.ewmaVariance, hrun.peak⟩
    rw [MetricProfile.run_learnedCount]
    exact (List.length_pos_of_mem hhi.1).ne'
  · have hnonneg := hcalls srcIP rate hi hhi.1
    have hrun : (SourceBaselines.run source calls).Within srcIP rate hi :=
      SourceBaselines.run_within hsource hnonneg fun v hv => ⟨hcalls srcIP rate v hv, hhi.2 hv⟩
    have hpm := source.applyDefaults_peakMultiplier
    rw [← SourceBaselines.run_cfg source calls] at hpm ⊢
    exact hrun.effectiveTrig_le hnonneg hpm

/-- A suspicious value between two clean ones, and a source observed once. -/
theorem default_rates_stay_within :
    let us : List MetricSample := [⟨3, false, 1⟩, ⟨900, true, 2⟩, ⟨5, false, 3⟩]
    let calls : List SourceCall := [.update "10.0.0.1" 100 0 0 0 false 1 1]
    (MetricProfile.run {} 1 us).ewma ∈ Icc 3 5 ∧
      ((SourceBaselines.run {} calls).effectiveTrig .pps "10.0.0.1" 50).1 ≤ max 50
        (3 / 2 * (6 / 5) * 100) := by
  intro us calls
  have hmetric : LearningRates (MetricConfig.alpha {}) (MetricConfig.alphaPromoted {}) := by
    constructor <;> constructor <;> norm_num
  have hsource : LearningRates (SourceBaselineConfig.alpha {}) (SourceBaselineConfig.alphaPromoted {}) := by
    constructor <;> constructor <;> norm_num
  have hclean : cleanValues us = [3, 5] := rfl
  have hcalls : ∀ srcIP rate, ∀ v ∈ SourceBaselines.cleanRates srcIP rate calls, 0 ≤ v := by
    intro srcIP rate v hv
    obtain ⟨x, hx, hv⟩ := List.mem_filterMap.mp hv
    obtain rfl := List.mem_singleton.mp hx
    cases rate <;> simp [SourceBaselines.Rate.observed] at hv <;> norm_num [← hv.2]
  have hpps : SourceBaselines.cleanRates "10.0.0.1" .pps calls = [100] := rfl
  have hus : ∀ u ∈ us, 0 ≤ u.value := by simp [us]
  obtain ⟨hwithin, hsources, -⟩ := baselines_stay_within_clean hmetric hsource 1 hus hcalls
  constructor
  · refine (hwithin 3 5 ?_ ?_).1
    · constructor <;> norm_num [hclean, lowerBounds]
    · constructor <;> norm_num [hclean, upperBounds]
  · have hraised := (hsources "10.0.0.1" .pps 50).2 100 (by constructor <;> norm_num [hpps, upperBounds])
    have hpm : (SourceBaselineConfig.applyDefaults {}).peakMultiplier = 6 / 5 := if_neg (by norm_num)
    rwa [hpm] at hraised

end Kernloom
