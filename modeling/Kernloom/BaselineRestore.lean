import Kernloom.BaselineBounds

/-! A metric profile and what a restart makes of it: the stored row tells how many updates there were,
not how many of them were clean, and all of them are taken as learned. -/

namespace Kernloom

structure ScoreConfig extends MetricConfig where
  deviationThreshold : Rat := 4
  sigmaFloor : Rat := 1 / 100

structure MetricResult where
  value : Rat
  expected : Rat
  sigma : Rat
  deviationScore : Rat
  confidence : Rat
  learned : Bool
  suspicious : Bool
  promoted : Bool
  peak : Rat

/-- Two results that agree in everything but the confidence. -/
structure SameResult (r r' : MetricResult) : Prop where
  value : r'.value = r.value
  expected : r'.expected = r.expected
  sigma : r'.sigma = r.sigma
  deviationScore : r'.deviationScore = r.deviationScore
  learned : r'.learned = r.learned
  suspicious : r'.suspicious = r.suspicious
  promoted : r'.promoted = r.promoted
  peak : r'.peak = r.peak

namespace MetricProfile

section Results

variable (sqrt : Rat → Rat)

def sigma (floor : Rat) (p : MetricProfile) : Rat :=
  if sqrt p.ewmaVariance < floor then floor else sqrt p.ewmaVariance

def score (cfg : ScoreConfig) (value : Rat) (p : MetricProfile) : Rat :=
  if ¬ p.promoted then 0
  else min (|value - p.ewma| / p.sigma sqrt cfg.sigmaFloor / cfg.deviationThreshold * 100) 100

def result (cfg : ScoreConfig) (value : Rat) (suspicious learned : Bool) (p : MetricProfile) :
    MetricResult where
  value := value
  expected := p.ewma
  sigma := p.sigma sqrt cfg.sigmaFloor
  deviationScore := p.score sqrt cfg value
  confidence := p.confidence
  learned := learned
  suspicious := suspicious
  promoted := p.promoted
  peak := p.peak

end Results

/-- The profile that is made of the row of one, with the time the row was made. -/
def restored (createdAt : Time) (p : MetricProfile) : MetricProfile where
  ewma := p.ewma
  ewmaVariance := p.ewmaVariance
  peak := p.peak
  count := p.count
  -- all historical updates are treated as learned
  learnedCount := p.count
  firstSeen := createdAt
  lastSeen := p.lastSeen
  promoted := p.promoted
  confidence := p.confidence

structure Counts (p : MetricProfile) : Prop where
  learned_le : p.learnedCount ≤ p.count
  promoted : p.promoted = true → p.learnedCount ≠ 0
  ewma : p.learnedCount = 0 → p.ewma = 0
  ewmaVariance : p.learnedCount = 0 → p.ewmaVariance = 0

/-- Two profiles that have learned the same, and are promoted by the same clean update if they are not yet. -/
structure Alike (minCount : Nat) (p q : MetricProfile) : Prop where
  ewma : q.ewma = p.ewma
  ewmaVariance : q.ewmaVariance = p.ewmaVariance
  peak : q.peak = p.peak
  promoted : q.promoted = p.promoted
  learned : q.learnedCount = p.learnedCount ∨
    p.learnedCount ≠ 0 ∧ q.learnedCount ≠ 0 ∧
      (p.promoted = true ∨ minCount ≤ p.learnedCount + 1 ∧ minCount ≤ q.learnedCount + 1)

/-- A restart does not show: the profile is promoted, or no update of it was suspicious, or it is promoted
by the next clean one. -/
def RestartSafe (minCount : Nat) (p : MetricProfile) : Prop :=
  p.promoted = true ∨ p.count = p.learnedCount ∨ p.learnedCount ≠ 0 ∧ minCount ≤ p.learnedCount + 1

instance (minCount : Nat) (p : MetricProfile) : Decidable (p.RestartSafe minCount) :=
  inferInstanceAs (Decidable (p.promoted = true ∨ p.count = p.learnedCount ∨
    p.learnedCount ≠ 0 ∧ minCount ≤ p.learnedCount + 1))

section Updates

variable {cfg : MetricConfig} {value : Rat} {now : Time} {p q : MetricProfile}

/-- What a clean update after the first one learns. -/
structure Learns (cfg : MetricConfig) (value : Rat) (p p' : MetricProfile) : Prop where
  ewma : p'.ewma = p.ewma + (if p.promoted then cfg.alphaPromoted else cfg.alpha) * (value - p.ewma)
  ewmaVariance : p'.ewmaVariance = (1 - if p.promoted then cfg.alphaPromoted else cfg.alpha) *
    p.ewmaVariance +
    (if p.promoted then cfg.alphaPromoted else cfg.alpha) * (value - p.ewma) * (value - p.ewma)
  learnedCount : p'.learnedCount = p.learnedCount + 1
  promoted : p'.promoted = (p.promoted || decide (cfg.minCount ≤ p.learnedCount + 1))
  peak : p'.peak = if p.promoted then if p.peak < value then value else p.peak
    else if cfg.minCount ≤ p.learnedCount + 1 then p'.ewma else p.peak

theorem update_learns (h : p.learnedCount ≠ 0) : Learns cfg value p (p.update cfg value false now) := by
  unfold update
  rw [if_neg Bool.false_ne_true]
  dsimp only
  rw [if_neg h]
  cases hpromoted : p.promoted with
  | true => constructor <;> simp [recomputeConfidence, checkPromotion, learnValue, hpromoted]
  | false =>
    by_cases hcount : cfg.minCount ≤ p.learnedCount + 1
    · constructor <;> simp [recomputeConfidence, checkPromotion, learnValue, hpromoted, hcount]
    · constructor <;> simp [recomputeConfidence, checkPromotion, learnValue, hpromoted, hcount]

variable (cfg value now) in
theorem update_first (h : p.learnedCount = 0) : ∃ firstSeen, p.update cfg value false now =
    checkPromotion cfg.minCount { p with
      count := p.count + 1, lastSeen := now, ewma := value, ewmaVariance := 0, learnedCount := 1,
      firstSeen } := by
  unfold update
  rw [if_neg Bool.false_ne_true]
  dsimp only
  rw [if_pos h]
  exact ⟨_, rfl⟩

theorem checkPromotion_frame (minCount : Nat) (p : MetricProfile) :
    (checkPromotion minCount p).ewma = p.ewma ∧ (checkPromotion minCount p).ewmaVariance = p.ewmaVariance ∧
      (checkPromotion minCount p).count = p.count := by
  unfold checkPromotion
  split_ifs <;> exact ⟨rfl, rfl, rfl⟩

theorem update_count (suspicious : Bool) : (p.update cfg value suspicious now).count = p.count + 1 := by
  unfold update
  dsimp only
  split
  · rfl
  · split
    · exact (checkPromotion_frame _ _).2.2
    · exact (checkPromotion_frame _ _).2.2

theorem Counts.update (h : p.Counts) (suspicious : Bool) : (p.update cfg value suspicious now).Counts := by
  have hcount : (p.update cfg value suspicious now).count = p.count + 1 := update_count suspicious
  cases suspicious with
  | true =>
    have hle := h.learned_le
    exact ⟨by rw [hcount]; exact Nat.le_succ_of_le hle, h.promoted, h.ewma, h.ewmaVariance⟩
  | false =>
    have hlearned := update_clean cfg value now p
    have hne : (p.update cfg value false now).learnedCount ≠ 0 := by
      rw [hlearned]
      exact Nat.succ_ne_zero _
    refine ⟨?_, fun _ => hne, fun hzero => absurd hzero hne, fun hzero => absurd hzero hne⟩
    rw [hlearned, hcount]
    exact Nat.succ_le_succ h.learned_le

/-- A profile is promoted once it has learned enough values. -/
theorem minCount_le_update (suspicious : Bool) (hp : p.Counts)
    (h : p.promoted = true → cfg.minCount ≤ p.learnedCount) :
    (p.update cfg value suspicious now).promoted = true →
      cfg.minCount ≤ (p.update cfg value suspicious now).learnedCount := by
  cases suspicious with
  | true => exact h
  | false =>
    intro hpromoted
    by_cases hfirst : p.learnedCount = 0
    · have hunpromoted : p.promoted = false := Bool.eq_false_iff.mpr fun hpromoted =>
          hp.promoted hpromoted hfirst
      obtain ⟨t, ht⟩ := update_first cfg value now hfirst
      rw [ht] at hpromoted ⊢
      rw [checkPromotion_learnedCount]
      by_contra hlt
      have hlt : ¬ cfg.minCount ≤ 1 := hlt
      simp [checkPromotion, hunpromoted, hlt] at hpromoted
    · have hl : Learns cfg value p (p.update cfg value false now) := update_learns hfirst
      rw [hl.promoted, Bool.or_eq_true, decide_eq_true_eq] at hpromoted
      rw [hl.learnedCount]
      rcases hpromoted with hpromoted | hcount
      · exact Nat.le_succ_of_le (h hpromoted)
      · exact hcount

theorem Alike.refl (minCount : Nat) (p : MetricProfile) : p.Alike minCount p := ⟨rfl, rfl, rfl, rfl, .inl rfl⟩

/-- Profiles that are alike stay so, however old each takes itself to be. -/
theorem Alike.update {suspicious : Bool} (h : p.Alike cfg.minCount q) (hp : p.Counts) :
    (p.update cfg value suspicious now).Alike cfg.minCount (q.update cfg value suspicious now) := by
  cases suspicious with
  | true => exact ⟨h.ewma, h.ewmaVariance, h.peak, h.promoted, h.learned⟩
  | false =>
    by_cases hfirst : p.learnedCount = 0
    · have hlearned : q.learnedCount = p.learnedCount := h.learned.resolve_right fun hboth => hboth.1 hfirst
      obtain ⟨t, ht⟩ := update_first cfg value now hfirst
      obtain ⟨t', ht'⟩ := update_first cfg value now (hlearned.trans hfirst)
      have hunpromoted : p.promoted = false := Bool.eq_false_iff.mpr fun hpromoted =>
          hp.promoted hpromoted hfirst
      rw [ht, ht']
      by_cases hcount : cfg.minCount ≤ 1
      · constructor <;> simp [checkPromotion, h.promoted, hunpromoted, hcount]
      · constructor <;> simp [checkPromotion, h.promoted, hunpromoted, hcount, h.peak]
    · have hne : q.learnedCount ≠ 0 := by
        rcases h.learned with heq | hboth
        · rwa [heq]
        · exact hboth.2.1
      have hpl : Learns cfg value p (p.update cfg value false now) := update_learns hfirst
      have hql : Learns cfg value q (q.update cfg value false now) := update_learns hne
      have hewma : (q.update cfg value false now).ewma = (p.update cfg value false now).ewma := by
        rw [hql.ewma, hpl.ewma, h.promoted, h.ewma]
      have hdue : p.promoted = true ∨ (cfg.minCount ≤ q.learnedCount + 1 ↔
          cfg.minCount ≤ p.learnedCount + 1) := by
        rcases h.learned with heq | ⟨-, -, hpromoted | hboth⟩
        · exact .inr (by rw [heq])
        · exact .inl hpromoted
        · exact .inr (iff_of_true hboth.2 hboth.1)
      refine ⟨hewma, ?_, ?_, ?_, ?_⟩
      · rw [hql.ewmaVariance, hpl.ewmaVariance, h.promoted, h.ewma, h.ewmaVariance]
      · rw [hql.peak, hpl.peak, h.promoted, h.peak, hewma]
        rcases hdue with hpromoted | hiff
        · simp [hpromoted]
        · simp [hiff]
      · rw [hql.promoted, hpl.promoted, h.promoted]
        rcases hdue with hpromoted | hiff
        · simp [hpromoted]
        · simp [hiff]
      · rw [hql.learnedCount, hpl.learnedCount, hpl.promoted]
        rcases h.learned with heq | ⟨-, -, hpromoted | ⟨hp, hq⟩⟩
        · exact .inl (by rw [heq])
        · exact .inr ⟨Nat.succ_ne_zero _, Nat.succ_ne_zero _, .inl (by simp [hpromoted])⟩
        · exact .inr ⟨Nat.succ_ne_zero _, Nat.succ_ne_zero _, .inl (by simp [hp])⟩

theorem Counts.restored (h : p.Counts) (createdAt : Time) : (p.restored createdAt).Counts where
  learned_le := le_rfl
  promoted hpromoted hzero := h.promoted hpromoted (Nat.le_zero.mp (h.learned_le.trans_eq hzero))
  ewma hzero := h.ewma (Nat.le_zero.mp (h.learned_le.trans_eq hzero))
  ewmaVariance hzero := h.ewmaVariance (Nat.le_zero.mp (h.learned_le.trans_eq hzero))

/-- A restart at a safe point leaves a profile that is alike. -/
theorem Alike.restored {minCount : Nat} (h : p.Alike minCount q) (hp : p.Counts) (hq : q.Counts)
    (hsafe : q.RestartSafe minCount) (createdAt : Time) : p.Alike minCount (q.restored createdAt) := by
  refine ⟨h.ewma, h.ewmaVariance, h.peak, h.promoted, ?_⟩
  show q.count = p.learnedCount ∨ p.learnedCount ≠ 0 ∧ q.count ≠ 0 ∧
    (p.promoted = true ∨ minCount ≤ p.learnedCount + 1 ∧ minCount ≤ q.count + 1)
  have hle := hq.learned_le
  rcases hsafe with hpromoted | hcount | ⟨hne, hdue⟩
  · have hp0 := hp.promoted (h.promoted ▸ hpromoted)
    have hq0 := hq.promoted hpromoted
    exact .inr ⟨hp0, by omega, .inl (h.promoted ▸ hpromoted)⟩
  · rw [hcount]
    exact h.learned
  · rcases h.learned with heq | ⟨hp0, -, hpromoted | hboth⟩
    · exact .inr ⟨heq ▸ hne, by omega, .inr ⟨heq ▸ hdue, by omega⟩⟩
    · exact .inr ⟨hp0, by omega, .inl hpromoted⟩
    · exact .inr ⟨hp0, by omega, .inr ⟨hboth.1, by omega⟩⟩

theorem Alike.sameResult {minCount : Nat} (h : p.Alike minCount q) (sqrt : Rat → Rat) (cfg : ScoreConfig)
    (value : Rat) (suspicious learned : Bool) :
    SameResult (p.result sqrt cfg value suspicious learned) (q.result sqrt cfg value suspicious learned) := by
  constructor <;>
    simp [result, score, sigma, h.ewma, h.ewmaVariance, h.peak, h.promoted]

end Updates

section Exactness

variable {cfg : MetricConfig} {p q : MetricProfile}

def feed (cfg : MetricConfig) (us : List MetricSample) (p : MetricProfile) : MetricProfile :=
  us.foldl (fun p u => p.update cfg u.value u.suspicious u.now) p

theorem Alike.feed (h : p.Alike cfg.minCount q) (hp : p.Counts) (us : List MetricSample) :
    (p.feed cfg us).Alike cfg.minCount (q.feed cfg us) := by
  induction us generalizing p q with
  | nil => exact h
  | cons u us ih => exact ih (h.update hp) (hp.update u.suspicious)

/-- What clean updates do to the count and the promotion of a profile that has learned before. -/
theorem feed_clean (h : p.learnedCount ≠ 0) (n : Nat) :
    (p.feed cfg (List.replicate n ⟨0, false, 1⟩)).promoted =
      (p.promoted || decide (n ≠ 0 ∧ cfg.minCount ≤ p.learnedCount + n)) := by
  induction n generalizing p with
  | zero => simp [MetricProfile.feed]
  | succ n ih =>
    have hl : Learns cfg 0 p (p.update cfg 0 false 1) := update_learns h
    have hne : (p.update cfg 0 false 1).learnedCount ≠ 0 := by
      rw [hl.learnedCount]
      exact Nat.succ_ne_zero _
    rw [List.replicate_succ]
    refine (ih hne).trans ?_
    rw [hl.promoted, hl.learnedCount, Bool.or_assoc, ← Bool.decide_or]
    congr 2
    rw [eq_iff_iff]
    omega

/-- A restart shows in no later update exactly if it is made at a safe point. -/
theorem restartSafe_iff (halpha : 0 < cfg.alpha) (hp : p.Counts) (createdAt : Time) :
    p.RestartSafe cfg.minCount ↔ ∀ us,
      (p.feed cfg us).promoted = ((p.restored createdAt).feed cfg us).promoted ∧
      (p.feed cfg us).ewmaVariance = ((p.restored createdAt).feed cfg us).ewmaVariance := by
  constructor
  · intro hsafe us
    have halike := ((Alike.refl cfg.minCount p).restored hp hp hsafe createdAt).feed hp us
    exact ⟨halike.promoted.symm, halike.ewmaVariance.symm⟩
  · intro hsame
    by_contra hunsafe
    obtain ⟨hpromoted, hcount, hdue⟩ : p.promoted = false ∧ p.count ≠ p.learnedCount ∧
        (p.learnedCount ≠ 0 → p.learnedCount + 1 < cfg.minCount) := by
      refine ⟨Bool.eq_false_iff.mpr fun h => hunsafe (.inl h), fun h => hunsafe (.inr (.inl h)), fun h => ?_⟩
      exact not_le.mp fun hle => hunsafe (.inr (.inr ⟨h, hle⟩))
    have hle := hp.learned_le
    have hne : (p.restored createdAt).learnedCount ≠ 0 := show p.count ≠ 0 by omega
    by_cases hfirst : p.learnedCount = 0
    · -- the first clean value starts the average of the one and pulls that of the other
      obtain ⟨t, ht⟩ := update_first cfg 1 1 hfirst
      have hl : Learns cfg 1 (p.restored createdAt) ((p.restored createdAt).update cfg 1 false 1) :=
          update_learns hne
      have hvariance : (p.update cfg 1 false 1).ewmaVariance =
          ((p.restored createdAt).update cfg 1 false 1).ewmaVariance := (hsame [⟨1, false, 1⟩]).2
      rw [ht, (checkPromotion_frame _ _).2.1, hl.ewmaVariance] at hvariance
      have hzero : cfg.alpha = 0 := by
        simpa [MetricProfile.restored, hpromoted, hp.ewma hfirst, hp.ewmaVariance hfirst, eq_comm] using
          hvariance
      exact halpha.ne' hzero
    · -- enough clean values promote the one that counts the suspicious ones too
      let n := max 1 (cfg.minCount - p.count)
      have hearly : (p.feed cfg (List.replicate n ⟨0, false, 1⟩)).promoted = false := by
        rw [feed_clean hfirst, hpromoted, Bool.false_or, decide_eq_false_iff_not]
        have hlt := hdue hfirst
        omega
      have hlate : ((p.restored createdAt).feed cfg (List.replicate n ⟨0, false, 1⟩)).promoted = true := by
        rw [feed_clean hne, Bool.or_eq_true, decide_eq_true_eq]
        refine .inr ⟨by omega, ?_⟩
        show cfg.minCount ≤ p.count + n
        omega
      rw [(hsame _).1, hlate] at hearly
      cases hearly

end Exactness

end MetricProfile

end Kernloom
