import Kernloom.FsmTicks

/-! Two ticks of the state machine from one state, on metrics of which the second are worse: the second
ends no lower, unless the first steps an expired level down and the second does not. -/

namespace Kernloom

/-- The thresholds are in order and the deltas are not negative. -/
structure FsmConfig.Ordered (cfg : FsmConfig) : Prop where
  sevSteps : cfg.sevStep1 ≤ cfg.sevStep2 ∧ cfg.sevStep2 ≤ cfg.sevStep3
  sevDeltas : 0 ≤ cfg.sevDelta1 ∧ cfg.sevDelta1 ≤ cfg.sevDelta2 ∧ cfg.sevDelta2 ≤ cfg.sevDelta3
  decay : cfg.sevDecayBelow ≤ cfg.sevStep1
  nonComp : cfg.nonCompResetBelow ≤ cfg.nonCompSev
  levels : cfg.softAt ≤ cfg.hardAt ∧ cfg.hardAt ≤ cfg.blockAt

/-- Metrics that are no better. -/
structure FsmMetrics.Worse (m m' : FsmMetrics) : Prop where
  severity : m.severity ≤ m'.severity
  dropRLRate : m.dropRLRate ≤ m'.dropRLRate

theorem Level.le_refl (l : Level) : l ≤ l := Nat.le_refl _

theorem Level.le_trans {l l' l'' : Level} (h : l ≤ l') (h' : l' ≤ l'') : l ≤ l'' := Nat.le_trans h h'

theorem Level.le_block (l : Level) : l ≤ .block := by cases l <;> decide

theorem Level.not_lt {l l' : Level} : ¬ l < l' ↔ l' ≤ l := Nat.not_lt

namespace Fsm

variable {m m' : FsmMetrics} {st : FsmState} {now : Time} {cfg : FsmConfig}

section Counters

theorem highTick_mono (h : m.Worse m') : highTick m cfg → highTick m' cfg :=
  Or.imp (fun hsev => hsev.trans h.severity) fun ⟨hon, hdrop⟩ => ⟨hon, hdrop.trans h.dropRLRate⟩

theorem lowTick_anti (h : m.Worse m') (hrate : 0 ≤ m.dropRLRate) : lowTick m' cfg → lowTick m cfg :=
  fun ⟨hsev, hdrop⟩ => ⟨h.severity.trans_lt hsev, le_antisymm (hdrop ▸ h.dropRLRate) hrate⟩

theorem not_high_of_low (hcfg : cfg.Ordered) (h : lowTick m cfg) : ¬ highTick m cfg := by
  rintro (hsev | ⟨hon, hdrop⟩)
  · exact not_lt.mpr (hcfg.decay.trans hsev) h.1
  · rw [h.2] at hdrop
    exact not_lt.mpr hdrop hon

theorem strikeDelta_mono (hcfg : cfg.Ordered) (h : m.Worse m') : strikeDelta m cfg ≤ strikeDelta m' cfg := by
  obtain ⟨h12, h23⟩ := hcfg.sevSteps
  obtain ⟨h01, hd12, hd23⟩ := hcfg.sevDeltas
  have hsev := h.severity
  unfold strikeDelta
  split_ifs <;> first | omega | (exfalso; linarith)

theorem upStreak_mono (h : m.Worse m') (hrate : 0 ≤ m.dropRLRate) (hup : 0 ≤ st.upStreak) :
    (streaks m st cfg).upStreak ≤ (streaks m' st cfg).upStreak := by
  have hhigh : highTick m cfg → highTick m' cfg := highTick_mono h
  have hlow : lowTick m' cfg → lowTick m cfg := lowTick_anti h hrate
  unfold streaks
  split_ifs <;> simp_all <;> omega

theorem downStreak_anti (h : m.Worse m') (hrate : 0 ≤ m.dropRLRate) (hdown : 0 ≤ st.downStreak) :
    (streaks m' st cfg).downStreak ≤ (streaks m st cfg).downStreak := by
  have hhigh : highTick m cfg → highTick m' cfg := highTick_mono h
  have hlow : lowTick m' cfg → lowTick m cfg := lowTick_anti h hrate
  unfold streaks
  split_ifs <;> simp_all <;> omega

theorem downStreak_of_low (hcfg : cfg.Ordered) (h : lowTick m cfg) :
    (streaks m st cfg).downStreak = st.downStreak + 1 := by
  unfold streaks
  rw [if_neg (not_high_of_low hcfg h), if_pos h]

theorem strikes_mono (hcfg : cfg.Ordered) (h : m.Worse m') (hrate : 0 ≤ m.dropRLRate) :
    (strike m (streaks m st cfg) now cfg).strikes ≤ (strike m' (streaks m' st cfg) now cfg).strikes := by
  have hdelta := strikeDelta_mono hcfg h
  have hsame : ∀ m, (streaks m st cfg).strikes = st.strikes := fun m => by rw [streaks_eq]
  -- a decay on the worse metrics is one on the better as well
  have hdecay : lowTick m' cfg → lowTick m cfg ∧ (streaks m st cfg).downStreak =
      (streaks m' st cfg).downStreak :=
    fun hlow => ⟨lowTick_anti h hrate hlow,
      (downStreak_of_low hcfg (lowTick_anti h hrate hlow)).trans (downStreak_of_low hcfg hlow).symm⟩
  unfold strike
  split_ifs <;> simp_all <;> omega

theorem lastTrigger_mono (hcfg : cfg.Ordered) (h : m.Worse m') (hlast : st.lastTrigger ≤ now) :
    (strike m (streaks m st cfg) now cfg).lastTrigger ≤
    (strike m' (streaks m' st cfg) now cfg).lastTrigger := by
  have hdelta := strikeDelta_mono hcfg h
  have hsame : ∀ m, (streaks m st cfg).lastTrigger = st.lastTrigger := fun m => by rw [streaks_eq]
  unfold strike
  split_ifs <;> simp_all <;> omega

/-- The metrics of a tick that does not comply with a limit. -/
def nonCompliant (m : FsmMetrics) (cfg : FsmConfig) : Prop :=
  (0 < cfg.nonCompDrop ∧ cfg.nonCompDrop ≤ m.dropRLRate) ∨ (0 < cfg.nonCompSev ∧ cfg.nonCompSev ≤ m.severity)

/-- The metrics of a tick that ends a streak of non-compliance. -/
def compliant (m : FsmMetrics) (cfg : FsmConfig) : Prop := m.severity < cfg.nonCompResetBelow ∧
    m.dropRLRate = 0

instance (m : FsmMetrics) (cfg : FsmConfig) : Decidable (nonCompliant m cfg) :=
  inferInstanceAs (Decidable (_ ∨ _))

instance (m : FsmMetrics) (cfg : FsmConfig) : Decidable (compliant m cfg) :=
    inferInstanceAs (Decidable (_ ∧ _))

theorem nonCompliance_ticks (s : FsmState) : (nonCompliance m s cfg).nonCompTicks =
    if .soft ≤ s.level ∧ 0 < cfg.nonCompAt then
      if nonCompliant m cfg then s.nonCompTicks + 1 else if compliant m cfg then 0 else s.nonCompTicks
    else 0 := by
  have hcases : nonCompliance m s cfg =
      if .soft ≤ s.level ∧ 0 < cfg.nonCompAt then
        if nonCompliant m cfg then { s with nonCompTicks := s.nonCompTicks + 1 }
        else if compliant m cfg then { s with nonCompTicks := 0 }
        else s
      else { s with nonCompTicks := 0 } := rfl
  rw [hcases]
  split_ifs <;> rfl

theorem nonComp_mono {s s' : FsmState} (h : m.Worse m') (hrate : 0 ≤ m.dropRLRate) (hon : 0 < cfg.nonCompAt)
    (hlevel : s'.level = s.level) (hticks : s'.nonCompTicks = s.nonCompTicks)
    (hmany : cfg.nonCompAt ≤ (nonCompliance m s cfg).nonCompTicks) :
    cfg.nonCompAt ≤ (nonCompliance m' s' cfg).nonCompTicks := by
  have hbad : nonCompliant m cfg → nonCompliant m' cfg :=
    Or.imp (fun ⟨hon, hdrop⟩ => ⟨hon, hdrop.trans h.dropRLRate⟩)
      fun ⟨hon, hsev⟩ => ⟨hon, hsev.trans h.severity⟩
  have hgood : compliant m' cfg → compliant m cfg :=
    fun ⟨hsev, hdrop⟩ => ⟨h.severity.trans_lt hsev, le_antisymm (hdrop ▸ h.dropRLRate) hrate⟩
  rw [nonCompliance_ticks] at hmany ⊢
  rw [hlevel, hticks]
  by_cases hactive : .soft ≤ s.level ∧ 0 < cfg.nonCompAt
  · rw [if_pos hactive] at hmany ⊢
    by_cases hm : nonCompliant m cfg
    · rw [if_pos hm] at hmany
      rw [if_pos (hbad hm)]
      exact hmany
    · rw [if_neg hm] at hmany
      by_cases hreset : compliant m cfg
      · rw [if_pos hreset] at hmany
        exact absurd hmany (not_le.mpr hon)
      · rw [if_neg hreset] at hmany
        rw [if_neg fun hreset' => hreset (hgood hreset')]
        split_ifs <;> omega
  · rw [if_neg hactive] at hmany
    exact absurd hmany (not_le.mpr hon)

end Counters

section Target

/-- Two states at the same level of which the second has counted no less. -/
structure AtLeast (cfg : FsmConfig) (s s' : FsmState) : Prop where
  held : held s' = held s
  strikes : s.strikes ≤ s'.strikes
  upStreak : s.upStreak ≤ s'.upStreak
  nonComp : 0 < cfg.nonCompAt → cfg.nonCompAt ≤ s.nonCompTicks → cfg.nonCompAt ≤ s'.nonCompTicks
  sustained : s.highSevSince ≠ 0 → s'.highSevSince = s.highSevSince

theorem count_atLeast (hcfg : cfg.Ordered) (h : m.Worse m') (hrate : 0 ≤ m.dropRLRate)
    (hup : 0 ≤ st.upStreak) :
    AtLeast cfg (count m st now cfg) (count m' st now cfg) where
  held := by rw [held_count, held_count]
  strikes := by
    rw [count_strikes, count_strikes]
    exact strikes_mono hcfg h hrate
  upStreak := by
    rw [count_upStreak, count_upStreak]
    exact upStreak_mono h hrate hup
  nonComp hon := by
    rw [count_nonCompTicks, count_nonCompTicks]
    obtain ⟨hlevel, hticks⟩ := strike_streaks_nonComp m st now cfg
    obtain ⟨hlevel', hticks'⟩ := strike_streaks_nonComp m' st now cfg
    exact nonComp_mono h hrate hon (hlevel'.trans hlevel.symm) (hticks'.trans hticks.symm)
  sustained := by
    rw [count_highSevSince, count_highSevSince]
    unfold sustain
    intro hne
    by_cases hhigh : 0 < cfg.blockMinSev ∧ cfg.blockMinSev ≤ m.severity
    · rw [if_pos hhigh, if_pos ⟨hhigh.1, hhigh.2.trans h.severity⟩]
    · rw [if_neg hhigh] at hne
      exact absurd rfl hne

variable {s s' : FsmState}

theorem AtLeast.level (h : AtLeast cfg s s') : s'.level = s.level := congrArg (·.1) h.held

theorem AtLeast.expiresAt (h : AtLeast cfg s s') : s'.expiresAt = s.expiresAt := congrArg (·.2.1) h.held

theorem AtLeast.cooldownUntil (h : AtLeast cfg s s') : s'.cooldownUntil = s.cooldownUntil :=
  congrArg (·.2.2.1) h.held

theorem AtLeast.forceBlock (h : AtLeast cfg s s') : s'.forceBlock = s.forceBlock := congrArg (·.2.2.2) h.held

/-- The level of some strikes. -/
def strikeLevel (cfg : FsmConfig) (strikes : Int) : Level :=
  if cfg.blockAt ≤ strikes then .block
  else if cfg.hardAt ≤ strikes then .hard
  else if cfg.softAt ≤ strikes then .soft
  else .observe

theorem strikeLevel_mono (hcfg : cfg.Ordered) {n n' : Int} (h : n ≤ n') :
    strikeLevel cfg n ≤ strikeLevel cfg n' := by
  obtain ⟨hsoft, hhard⟩ := hcfg.levels
  unfold strikeLevel
  split_ifs <;> first | decide | omega

theorem strikeTarget_eq (s : FsmState) : strikeTarget s cfg =
    if s.level < strikeLevel cfg s.strikes ∧ s.upStreak < cfg.upNeed ∧ ¬ s.forceBlock then s.level
    else strikeLevel cfg s.strikes := rfl

theorem AtLeast.strikeTarget_le (hcfg : cfg.Ordered) (h : AtLeast cfg s s') :
    strikeTarget s cfg ≤ strikeTarget s' cfg := by
  have hstrikes := strikeLevel_mono hcfg h.strikes
  have hup := h.upStreak
  rw [strikeTarget_eq, strikeTarget_eq, h.level, h.forceBlock]
  by_cases hheld' : s.level < strikeLevel cfg s'.strikes ∧ s'.upStreak < cfg.upNeed ∧ ¬ s.forceBlock
  · rw [if_pos hheld']
    split_ifs with hheld
    · exact Level.le_refl _
    · -- with no longer a streak the first does not climb either
      exact Level.not_lt.mp fun hlt => hheld ⟨hlt, by omega, hheld'.2.2⟩
  · rw [if_neg hheld']
    split_ifs with hheld
    · exact Level.le_trans (Nat.le_of_lt hheld.1) hstrikes
    · exact hstrikes

theorem AtLeast.desired_le (hcfg : cfg.Ordered) (h : AtLeast cfg s s') : desired s cfg ≤ desired s' cfg := by
  unfold desired
  rw [h.level]
  by_cases hnonComp : s.level = .hard ∧ 0 < cfg.nonCompAt ∧ cfg.nonCompAt ≤ s.nonCompTicks
  · obtain ⟨hlevel, hon, hmany⟩ := hnonComp
    rw [if_pos ⟨hlevel, hon, hmany⟩, if_pos ⟨hlevel, hon, h.nonComp hon hmany⟩]
    exact Level.le_refl _
  · rw [if_neg hnonComp]
    split_ifs
    · exact Level.le_block _
    · exact h.strikeTarget_le hcfg

theorem AtLeast.holdBlock_le {l l' : Level} (h : AtLeast cfg s s') (hle : l ≤ l') :
    holdBlock s now l ≤ holdBlock s' now l' := by
  unfold holdBlock
  rw [h.level, h.expiresAt]
  by_cases hheld : s.level = .block ∧ s.expiresAt ≠ 0 ∧ now < s.expiresAt ∧ l' < s.level
  · obtain ⟨hlevel, hset, hunexpired, hlt⟩ := hheld
    have hlt' : l < s.level := Nat.lt_of_le_of_lt hle hlt
    rw [if_pos ⟨hlevel, hset, hunexpired, hlt'⟩, if_pos ⟨hlevel, hset, hunexpired, hlt⟩]
    exact Level.le_refl _
  · rw [if_neg hheld]
    split_ifs with hlow
    · -- the second asks for the block itself
      exact Level.not_lt.mp fun hlt => hheld ⟨hlow.1, hlow.2.1, hlow.2.2.1, hlt⟩
    · exact hle

theorem gateBlock_le_self (l : Level) : gateBlock s now cfg l ≤ l := by
  unfold gateBlock
  split_ifs with hgate
  · rw [hgate.1]
    decide
  · exact Level.le_refl _

theorem AtLeast.gateBlock_le {l l' : Level} (h : AtLeast cfg s s') (hle : l ≤ l') :
    gateBlock s now cfg l ≤ gateBlock s' now cfg l' := by
  by_cases hgate : l' = .block ∧ s'.level < l' ∧ 0 < cfg.blockMinSev ∧ ¬ s'.forceBlock ∧
      (s'.highSevSince = 0 ∨ (0 < cfg.blockMinDur ∧ now - s'.highSevSince < cfg.blockMinDur))
  · have hgated : gateBlock s' now cfg l' = .hard := if_pos hgate
    obtain ⟨rfl, hbelow, hmin, hforce, hshort⟩ := hgate
    rw [hgated]
    by_cases hl : l = .block
    · -- the severity is sustained no longer on the better metrics
      subst hl
      have hshort' : s.highSevSince = 0 ∨ (0 < cfg.blockMinDur ∧ now - s.highSevSince < cfg.blockMinDur) := by
        by_cases hzero : s.highSevSince = 0
        · exact .inl hzero
        · rwa [h.sustained hzero] at hshort
      rw [h.level] at hbelow
      rw [h.forceBlock] at hforce
      have hgated' : gateBlock s now cfg .block = .hard := if_pos ⟨rfl, hbelow, hmin, hforce, hshort'⟩
      rw [hgated']
      exact Level.le_refl _
    · refine Level.le_trans (gateBlock_le_self l) ?_
      cases l with
      | block => exact absurd rfl hl
      | observe | soft | hard => decide
  · have hopen : gateBlock s' now cfg l' = l' := if_neg hgate
    rw [hopen]
    exact Level.le_trans (gateBlock_le_self l) hle

theorem AtLeast.target_le (hcfg : cfg.Ordered) (h : AtLeast cfg s s') :
    target s now cfg ≤ target s' now cfg :=
  h.gateBlock_le (h.holdBlock_le (h.desired_le hcfg))

end Target

section Tick

/-- The level after a tick of the runtime. -/
def tickLevel (m : FsmMetrics) (st : FsmState) (now : Time) (cfg : FsmConfig) : Level :=
  (loggedAdvance m st now cfg (syntheticTransition cfg now)).1.1.level

theorem syntheticTransition_fresh : Fresh (syntheticTransition cfg now) now cfg := by
  rintro st target level minHold ⟨-, hset, hexpired, -⟩
  have hexpiry : ∀ ttl, expiryTime now ttl ≠ 0 → expiryTime now ttl < now → False := by
    intro ttl hne hlt
    unfold expiryTime at hne hlt
    split_ifs at hne hlt
    · exact hne rfl
    · linarith
  cases target with
  | observe => exact hset rfl
  | soft => exact hexpiry _ hset hexpired
  | hard => exact hexpiry _ hset hexpired
  | block => exact hexpiry _ hset hexpired

theorem settle_level {s : FsmState} {calls : List Level} :
    (settle s now cfg (syntheticTransition cfg now) calls).1.1.level =
      if s.cooldownUntil < now then target s now cfg else s.level := by
  unfold settle
  by_cases hcool : s.cooldownUntil < now
  · rw [if_pos hcool]
    split_ifs with hchange
    · rfl
    · exact (not_not.mp fun hne => hchange ⟨hne, hcool⟩).symm
  · rw [if_neg hcool, if_neg fun h => hcool h.2]

theorem tickLevel_eq : tickLevel m st now cfg =
    match stepDownTo (count m st now cfg) now cfg with
    | some lower => (settle (syntheticTransition cfg now (count m st now cfg) lower) now cfg
        (syntheticTransition cfg now) [lower]).1.1.level
    | none => if st.cooldownUntil < now then target (count m st now cfg) now cfg else st.level := by
  rw [tickLevel, loggedAdvance_eq syntheticTransition_fresh]
  cases stepDownTo (count m st now cfg) now cfg with
  | some lower => rfl
  | none =>
    simp only [settle_level, count_cooldownUntil, count_level]

/-- Stepping down on the worse metrics is stepping down on the better ones as well. -/
theorem stepDownTo_anti (hcfg : cfg.Ordered) (h : m.Worse m') (hrate : 0 ≤ m.dropRLRate)
    (hdown : 0 ≤ st.downStreak)
    (hlast : st.lastTrigger ≤ now) {lower : Level}
    (hlower : stepDownTo (count m' st now cfg) now cfg = some lower) :
    stepDownTo (count m st now cfg) now cfg = some lower := by
  have hstreak : (streaks m' st cfg).downStreak ≤ (streaks m st cfg).downStreak :=
      downStreak_anti h hrate hdown
  have htrigger := lastTrigger_mono hcfg h hlast
  rw [← count_downStreak m' st now, ← count_downStreak m st now] at hstreak
  rw [← count_lastTrigger, ← count_lastTrigger] at htrigger
  have hlapsed : ∀ level minHold, lapsed (count m' st now cfg) now cfg level minHold →
      lapsed (count m st now cfg) now cfg level minHold := by
    rintro level minHold ⟨hlevel, hset, hexpired, hquiet, hhold, hcool⟩
    rw [count_level] at hlevel
    rw [count_expiresAt] at hset hexpired
    rw [count_cooldownUntil] at hcool
    refine ⟨?_, ?_, ?_, hquiet.trans hstreak, ?_, ?_⟩
    · rwa [count_level]
    · rwa [count_expiresAt]
    · rwa [count_expiresAt]
    · linarith
    · rwa [count_cooldownUntil]
  rcases stepDownTo_eq_some.mp hlower with ⟨hblock, rfl⟩ | ⟨hsoft, rfl⟩ | ⟨hhard, rfl⟩
  · exact stepDownTo_eq_some.mpr (.inl ⟨hlapsed _ _ hblock, rfl⟩)
  · exact stepDownTo_eq_some.mpr (.inr (.inl ⟨hlapsed _ _ hsoft, rfl⟩))
  · exact stepDownTo_eq_some.mpr (.inr (.inr ⟨hlapsed _ _ hhard, rfl⟩))

theorem tickLevel_of_stepDown {lower : Level} (hcool : 0 ≤ cfg.cooldown)
    (hdown : stepDownTo (count m st now cfg) now cfg = some lower) : tickLevel m st now cfg = lower := by
  have hcooling : ¬ (syntheticTransition cfg now (count m st now cfg) lower).cooldownUntil < now :=
    not_lt.mpr (le_add_of_nonneg_right hcool)
  rw [tickLevel_eq, hdown]
  simp only [settle_level, if_neg hcooling]
  rfl

end Tick

end Fsm

section Escalation

variable {m m' : FsmMetrics} {st : FsmState} {now : Time} {cfg : FsmConfig}

/-- The tick on the first metrics steps an expired level down; the tick on the second does not, and its
counters ask for a level below that step. -/
def Undercuts (m m' : FsmMetrics) (st : FsmState) (now : Time) (cfg : FsmConfig) : Prop :=
  ∃ lower ∈ Fsm.stepDownTo (Fsm.count m st now cfg) now cfg,
    Fsm.stepDownTo (Fsm.count m' st now cfg) now cfg = none ∧
      Fsm.target (Fsm.count m' st now cfg) now cfg < lower

instance (m m' : FsmMetrics) (st : FsmState) (now : Time) (cfg : FsmConfig) :
    Decidable (Undercuts m m' st now cfg) :=
  inferInstanceAs (Decidable (∃ lower ∈ Fsm.stepDownTo (Fsm.count m st now cfg) now cfg, _ ∧ _))

theorem tickConfig_ordered : tickConfig.Ordered :=
  ⟨by decide +kernel, by decide +kernel, by decide +kernel, by decide +kernel, by decide +kernel⟩

end Escalation

end Kernloom
