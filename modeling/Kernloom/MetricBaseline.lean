import Kernloom.GoValue

/-! The metric baseline engine: moving averages learned from the values that are not suspicious.
Floating point numbers are taken as exact. -/

namespace Kernloom

structure MetricConfig where
  alpha : Rat := 1 / 10
  alphaPromoted : Rat := 1 / 50
  minCount : Nat := 30
  maxProfiles : Nat := 10000

structure MetricProfile where
  ewma : Rat := 0
  ewmaVariance : Rat := 0
  peak : Rat := 0
  count : Nat := 0
  learnedCount : Nat := 0
  suspiciousCount : Nat := 0
  firstSeen : Time
  lastSeen : Time := 0
  promoted : Bool := false
  confidence : Rat := 0

namespace MetricProfile

def checkPromotion (minCount : Nat) (p : MetricProfile) : MetricProfile :=
  if p.promoted then p
  else if minCount ≤ p.learnedCount then { p with promoted := true, peak := p.ewma }
  else p

def recomputeConfidence (now : Time) (p : MetricProfile) : MetricProfile :=
  let countScore : Rat := min (p.learnedCount / 100) 1
  let ageScore : Rat := min (((now - p.firstSeen : Int) : Rat) / 10 ^ 9 / 86400) 1
  { p with confidence := 3 / 5 * countScore + 2 / 5 * ageScore }

/-- The moving average and its variance after one more value. -/
def learnValue (value a : Rat) (p : MetricProfile) : MetricProfile :=
  let delta := value - p.ewma
  { p with
    ewma := p.ewma + a * delta
    ewmaVariance := (1 - a) * p.ewmaVariance + a * delta * delta
    learnedCount := p.learnedCount + 1
    peak := if p.promoted ∧ p.peak < value then value else p.peak }

def update (cfg : MetricConfig) (value : Rat) (suspicious : Bool) (now : Time) (p : MetricProfile) :
    MetricProfile :=
  let p := { p with count := p.count + 1, lastSeen := now }
  if suspicious then { p with suspiciousCount := p.suspiciousCount + 1 }
  else if p.learnedCount = 0 then
    let firstSeen := if p.firstSeen = 0 then now else p.firstSeen
    checkPromotion cfg.minCount { p with ewma := value, ewmaVariance := 0, learnedCount := 1, firstSeen }
  else
    let a := if p.promoted then cfg.alphaPromoted else cfg.alpha
    recomputeConfidence now (checkPromotion cfg.minCount (learnValue value a p))

/-- What a profile has learned. -/
structure SameBaseline (p p' : MetricProfile) : Prop where
  ewma : p'.ewma = p.ewma
  ewmaVariance : p'.ewmaVariance = p.ewmaVariance
  peak : p'.peak = p.peak
  learnedCount : p'.learnedCount = p.learnedCount
  promoted : p'.promoted = p.promoted

@[simp] theorem checkPromotion_learnedCount (minCount : Nat) (p : MetricProfile) :
    (checkPromotion minCount p).learnedCount = p.learnedCount := by
  unfold checkPromotion
  split_ifs <;> rfl

variable (cfg : MetricConfig) (value : Rat) (now : Time) (p : MetricProfile)

theorem update_suspicious : SameBaseline p (p.update cfg value true now) := ⟨rfl, rfl, rfl, rfl, rfl⟩

theorem update_clean : (p.update cfg value false now).learnedCount = p.learnedCount + 1 := by
  unfold update
  by_cases hfirst : p.learnedCount = 0
  · simp [hfirst]
  · simp [hfirst, recomputeConfidence, learnValue]

theorem sameBaseline_update_iff {suspicious : Bool} :
    SameBaseline p (p.update cfg value suspicious now) ↔ suspicious = true := by
  constructor
  · intro h
    by_contra hclean
    have hsame := h.learnedCount
    rw [Bool.eq_false_iff.mpr hclean, update_clean] at hsame
    omega
  · rintro rfl
    exact update_suspicious cfg value now p

theorem update_lastSeen (cfg : MetricConfig) (value : Rat) (suspicious : Bool) (now : Time)
    (p : MetricProfile) : (p.update cfg value suspicious now).lastSeen = now := by
  have hpromote (minCount : Nat) (p : MetricProfile) : (checkPromotion minCount p).lastSeen = p.lastSeen := by
    unfold checkPromotion
    split_ifs <;> rfl
  by_cases hsuspicious : suspicious = true
  · simp [update, hsuspicious]
  · by_cases hfirst : p.learnedCount = 0
    · simp [update, hsuspicious, hfirst, hpromote]
    · simp [update, hsuspicious, hfirst, hpromote, recomputeConfidence, learnValue]

end MetricProfile

/-- The order a map is walked in, which Go leaves open. -/
structure ProfileOrder where
  arrange : List (String × MetricProfile) → List (String × MetricProfile)
  perm : ∀ entries, (arrange entries).Perm entries

structure MetricEngine where
  cfg : MetricConfig
  profiles : GoMap MetricProfile

namespace MetricEngine

/-- The profile with the lowest confidence, the first one met. -/
def victim (order : ProfileOrder) (e : MetricEngine) : String :=
  ((order.arrange (e.profiles.entries.map fun p => (p.1, p.2))).foldl
    (fun best p => if p.2.confidence < best.2 then (p.1, p.2.confidence) else best) ("", 2)).1

def evictLocked (order : ProfileOrder) (e : MetricEngine) : MetricEngine :=
  if e.victim order ≠ "" then { e with profiles := e.profiles.erase (e.victim order) } else e

/-- The profile of a key, made when there is none. -/
def profile (order : ProfileOrder) (key : String) (now : Time) (e : MetricEngine) :
    MetricProfile × MetricEngine :=
  match e.profiles.lookup key with
  | some p => (p, e)
  | none => ({ firstSeen := now }, if e.cfg.maxProfiles ≤ e.profiles.entries.length then e.evictLocked order else e)

/-- `UpdateWithBaselineKey`. -/
def update (order : ProfileOrder) (key : String) (value : Rat) (suspicious : Bool) (now : Time) (e : MetricEngine) :
    MetricEngine :=
  let (p, e) := e.profile order key now
  { e with profiles := e.profiles.insert key (p.update e.cfg value suspicious now) }

/-- An update leaves the profile of its key, and of the others only what is not evicted. -/
theorem lookup_update (order : ProfileOrder) (key : String) (value : Rat) (suspicious : Bool)
    (now : Time) (e : MetricEngine) :
    (∃ p, (e.update order key value suspicious now).profiles.lookup key = some p ∧ p.lastSeen = now) ∧
    ∀ key' ≠ key, ∀ p ∈ (e.update order key value suspicious now).profiles.lookup key',
      e.profiles.lookup key' = some p := by
  have hevict : ∀ key' p, (e.evictLocked order).profiles.lookup key' = some p →
      e.profiles.lookup key' = some p := by
    intro key' p h
    unfold evictLocked at h
    split at h
    · by_cases heq : key' = e.victim order
      · rw [heq, AList.lookup_erase] at h
        cases h
      · rwa [AList.lookup_erase_ne heq] at h
    · exact h
  constructor
  · exact ⟨_, AList.lookup_insert _, MetricProfile.update_lastSeen _ _ _ _ _⟩
  · intro key' hne p hp
    rw [update, AList.lookup_insert_ne hne] at hp
    unfold profile at hp
    split at hp
    · exact hp
    · dsimp only at hp
      split at hp
      · exact hevict key' p hp
      · exact hp

end MetricEngine

end Kernloom
