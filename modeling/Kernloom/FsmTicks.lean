import Kernloom.Fsm

/-! One tick of the state machine with its transitions: a tick steps an expired level down or moves to
the level that its counters ask for, and reports only the second. -/

namespace Kernloom

abbrev TransitionFunc := FsmState → Level → FsmState

/-- A transition function with a note of each of its calls. -/
def TransitionFunc.logged (t : TransitionFunc) (st : FsmState) (target : Level) :
    StateM (List Level) FsmState := do
  modify (· ++ [target])
  return t st target

/-- A tick, and the targets it calls the transition function with. -/
def loggedAdvance (metrics : FsmMetrics) (st : FsmState) (now : Time) (cfg : FsmConfig) (t : TransitionFunc) :
    (FsmState × Bool) × List Level :=
  Fsm.advance metrics st now cfg t.logged []

namespace Fsm

section Counted

variable (m : FsmMetrics) (st : FsmState) (now : Time) (cfg : FsmConfig)

theorem sustain_eq : sustain m st now cfg = { st with highSevSince :=
    (sustain m st now cfg).highSevSince } := by
  unfold sustain
  split_ifs <;> rfl

theorem streaks_eq :
    streaks m st cfg =
      { st with upStreak := (streaks m st cfg).upStreak, downStreak := (streaks m st cfg).downStreak } := by
  unfold streaks
  split_ifs <;> rfl

theorem strike_eq :
    strike m st now cfg =
      { st with strikes := (strike m st now cfg).strikes, lastTrigger :=
      (strike m st now cfg).lastTrigger } := by
  unfold strike
  split_ifs <;> rfl

theorem nonCompliance_eq :
    nonCompliance m st cfg = { st with nonCompTicks := (nonCompliance m st cfg).nonCompTicks } := by
  unfold nonCompliance
  split_ifs <;> rfl

theorem streaks_highSev (since : Time) :
    streaks m { st with highSevSince := since } cfg = { streaks m st cfg with highSevSince := since } := by
  unfold streaks
  split_ifs <;> rfl

theorem strike_highSev (since : Time) :
    strike m { st with highSevSince := since } now cfg =
    { strike m st now cfg with highSevSince := since } := by
  unfold strike
  split_ifs <;> rfl

theorem nonCompliance_highSev (since : Time) :
    nonCompliance m { st with highSevSince := since } cfg =
      { nonCompliance m st cfg with highSevSince := since } := by
  unfold nonCompliance
  split_ifs <;> rfl

/-- The time of sustained severity is counted apart from the others. -/
theorem count_eq :
    count m st now cfg =
      { nonCompliance m (strike m (streaks m st cfg) now cfg) cfg with
        highSevSince := (sustain m st now cfg).highSevSince } := by
  rw [count, sustain_eq, streaks_highSev, strike_highSev, nonCompliance_highSev]

theorem strike_streaks_nonComp : (strike m (streaks m st cfg) now cfg).level = st.level ∧
    (strike m (streaks m st cfg) now cfg).nonCompTicks = st.nonCompTicks := by
  rw [strike_eq, streaks_eq]
  exact ⟨rfl, rfl⟩

/-- What the counters of a tick leave alone. -/
def held (st : FsmState) : Level × Time × Time × Bool :=
    (st.level, st.expiresAt, st.cooldownUntil, st.forceBlock)

theorem held_count : held (count m st now cfg) = held st := by
  rw [count, nonCompliance_eq, strike_eq, streaks_eq, sustain_eq]
  rfl

@[simp] theorem count_level : (count m st now cfg).level = st.level :=
  congrArg (·.1) (held_count m st now cfg)

@[simp] theorem count_expiresAt : (count m st now cfg).expiresAt = st.expiresAt :=
  congrArg (·.2.1) (held_count m st now cfg)

@[simp] theorem count_cooldownUntil : (count m st now cfg).cooldownUntil = st.cooldownUntil :=
  congrArg (·.2.2.1) (held_count m st now cfg)

@[simp] theorem count_forceBlock : (count m st now cfg).forceBlock = st.forceBlock :=
  congrArg (·.2.2.2) (held_count m st now cfg)

@[simp] theorem count_highSevSince : (count m st now cfg).highSevSince =
    (sustain m st now cfg).highSevSince := by
  rw [count_eq]

@[simp] theorem count_nonCompTicks : (count m st now cfg).nonCompTicks =
    (nonCompliance m (strike m (streaks m st cfg) now cfg) cfg).nonCompTicks := by
  rw [count_eq]

@[simp] theorem count_strikes :
    (count m st now cfg).strikes = (strike m (streaks m st cfg) now cfg).strikes := by
  rw [count_eq, nonCompliance_eq]

@[simp] theorem count_lastTrigger :
    (count m st now cfg).lastTrigger = (strike m (streaks m st cfg) now cfg).lastTrigger := by
  rw [count_eq, nonCompliance_eq]

@[simp] theorem count_upStreak : (count m st now cfg).upStreak = (streaks m st cfg).upStreak := by
  rw [count_eq, nonCompliance_eq, strike_eq]

@[simp] theorem count_downStreak : (count m st now cfg).downStreak = (streaks m st cfg).downStreak := by
  rw [count_eq, nonCompliance_eq, strike_eq]

end Counted

section Tick

variable {m : FsmMetrics} {st : FsmState} {now : Time} {cfg : FsmConfig} {t : TransitionFunc}

/-- The level that a level that has lapsed is stepped down to. -/
def stepDownTo (st : FsmState) (now : Time) (cfg : FsmConfig) : Option Level :=
  if lapsed st now cfg .block cfg.minHoldHard then some .hard
  else if lapsed st now cfg .soft cfg.minHoldSoft then some .observe
  else if lapsed st now cfg .hard cfg.minHoldHard then some .soft
  else none

theorem stepDownTo_eq_some {lower : Level} : stepDownTo st now cfg = some lower ↔
    (lapsed st now cfg .block cfg.minHoldHard ∧ lower = .hard) ∨
      (lapsed st now cfg .soft cfg.minHoldSoft ∧ lower = .observe) ∨
      (lapsed st now cfg .hard cfg.minHoldHard ∧ lower = .soft) := by
  have hone : ∀ {level level' : Level} {minHold minHold' : Duration}, level ≠ level' →
      lapsed st now cfg level minHold → ¬ lapsed st now cfg level' minHold' :=
    fun hne h h' => hne (h.1.symm.trans h'.1)
  unfold stepDownTo
  split_ifs with hblock hsoft hhard
  · have hnotSoft : ¬ lapsed st now cfg .soft cfg.minHoldSoft := hone (by decide) hblock
    have hnotHard : ¬ lapsed st now cfg .hard cfg.minHoldHard := hone (by decide) hblock
    simp [hblock, hnotSoft, hnotHard, eq_comm]
  · have hnotHard : ¬ lapsed st now cfg .hard cfg.minHoldHard := hone (by decide) hsoft
    simp [hblock, hsoft, hnotHard, eq_comm]
  · simp [hblock, hsoft, hhard, eq_comm]
  · simp [hblock, hsoft, hhard]

theorem stepDownTo_ne {lower : Level} (h : stepDownTo st now cfg = some lower) : lower ≠ st.level := by
  rcases stepDownTo_eq_some.mp h with ⟨hlapsed, rfl⟩ | ⟨hlapsed, rfl⟩ | ⟨hlapsed, rfl⟩ <;>
    exact fun heq => nomatch heq.trans hlapsed.1

theorem stepDownTo_cool {lower : Level} (h : stepDownTo st now cfg = some lower) :
    st.cooldownUntil < now := by
  rcases stepDownTo_eq_some.mp h with ⟨hlapsed, -⟩ | ⟨hlapsed, -⟩ | ⟨hlapsed, -⟩ <;>
    exact hlapsed.2.2.2.2.2

/-- The end of a tick: the change to the level that the counters ask for. -/
def settle (st : FsmState) (now : Time) (cfg : FsmConfig) (t : TransitionFunc) (calls : List Level) :
    (FsmState × Bool) × List Level :=
  if target st now cfg ≠ st.level ∧ st.cooldownUntil < now then
    (({ t st (target st now cfg) with forceBlock := false }, true), calls ++ [target st now cfg])
  else ((st, false), calls)

/-- After a transition no level has lapsed. -/
def Fresh (t : TransitionFunc) (now : Time) (cfg : FsmConfig) : Prop :=
  ∀ st target level minHold, ¬ lapsed (t st target) now cfg level minHold

theorem stepDown_logged (level : Level) (minHold : Duration) (lower : Level) (calls : List Level) :
    stepDown st now cfg level minHold lower t.logged calls =
      if lapsed st now cfg level minHold then (t st lower, calls ++ [lower]) else (st, calls) := by
  unfold stepDown
  split_ifs <;> rfl

theorem bind_apply {σ α β : Type} (x : StateM σ α) (f : α → StateM σ β) (s : σ) :
    (x >>= f) s = f (x s).1 (x s).2 := rfl

theorem settle_logged (calls : List Level) :
    (do
      let target := target st now cfg
      if target ≠ st.level ∧ st.cooldownUntil < now then
        let st ← t.logged st target
        return ({ st with forceBlock := false }, true)
      else return (st, false) : StateM (List Level) (FsmState × Bool)) calls = settle st now cfg t calls := by
  unfold settle
  dsimp only
  by_cases hchange : target st now cfg ≠ st.level ∧ st.cooldownUntil < now
  · rw [if_pos hchange, if_pos hchange]
    rfl
  · rw [if_neg hchange, if_neg hchange]
    rfl

theorem advance_logged (calls : List Level) :
    advance m st now cfg t.logged calls =
      let s := stepDown (count m st now cfg) now cfg .block cfg.minHoldHard .hard t.logged calls
      let s := stepDown s.1 now cfg .soft cfg.minHoldSoft .observe t.logged s.2
      let s := stepDown s.1 now cfg .hard cfg.minHoldHard .soft t.logged s.2
      settle s.1 now cfg t s.2 := by
  unfold advance
  simp only [bind_apply, settle_logged]

theorem loggedAdvance_eq (hfresh : Fresh t now cfg) :
    loggedAdvance m st now cfg t =
      match stepDownTo (count m st now cfg) now cfg with
      | some lower => settle (t (count m st now cfg) lower) now cfg t [lower]
      | none => settle (count m st now cfg) now cfg t [] := by
  rw [loggedAdvance, advance_logged, stepDownTo]
  simp only [stepDown_logged]
  by_cases hblock : lapsed (count m st now cfg) now cfg .block cfg.minHoldHard
  · simp only [if_pos hblock, if_neg (hfresh _ _ _ _)]
    rfl
  · by_cases hsoft : lapsed (count m st now cfg) now cfg .soft cfg.minHoldSoft
    · simp only [if_neg hblock, if_pos hsoft, if_neg (hfresh _ _ _ _)]
      rfl
    · by_cases hhard : lapsed (count m st now cfg) now cfg .hard cfg.minHoldHard
      · simp only [if_neg hblock, if_neg hsoft, if_pos hhard]
        rfl
      · simp only [if_neg hblock, if_neg hsoft, if_neg hhard]

end Tick

end Fsm

section Flag

variable {m : FsmMetrics} {st : FsmState} {now : Time} {cfg : FsmConfig} {t : TransitionFunc}

/-- A transition sets the level it is asked for, and a cooldown that does not end before now. -/
def TransitionFunc.Sets (t : TransitionFunc) (now : Time) : Prop :=
  ∀ st target, (t st target).level = target ∧ now ≤ (t st target).cooldownUntil

/-- The flag of a tick says whether the level changed. -/
def FlagTrue (st : FsmState) (tick : (FsmState × Bool) × List Level) : Prop :=
  tick.1.2 = true ↔ tick.1.1.level ≠ st.level

instance (st : FsmState) (tick : (FsmState × Bool) × List Level) : Decidable (FlagTrue st tick) :=
  inferInstanceAs (Decidable (_ ↔ _))

theorem TransitionFunc.Sets.fresh (ht : t.Sets now) : Fsm.Fresh t now cfg :=
  fun st target _ _ hlapsed => not_lt.mpr (ht st target).2 hlapsed.2.2.2.2.2

theorem Fsm.settle_cooling {calls : List Level} (hcooling : now ≤ st.cooldownUntil) :
    Fsm.settle st now cfg t calls = ((st, false), calls) :=
  if_neg fun h => not_lt.mpr hcooling h.2

/-- A tick calls the transition function at most once, and its flag tells the truth if and only if it
steps no expired level down. -/
theorem flag_true_iff (ht : t.Sets now) :
    (loggedAdvance m st now cfg t).2.length ≤ 1 ∧
      (FlagTrue st (loggedAdvance m st now cfg t) ↔
        Fsm.stepDownTo (Fsm.count m st now cfg) now cfg = none) := by
  rw [Fsm.loggedAdvance_eq ht.fresh]
  cases hdown : Fsm.stepDownTo (Fsm.count m st now cfg) now cfg with
  | some lower =>
    have hne := Fsm.stepDownTo_ne hdown
    rw [Fsm.count_level] at hne
    simp only [Fsm.settle_cooling (ht _ lower).2]
    refine ⟨le_rfl, fun h => ?_, fun h => nomatch h⟩
    have hflag : false = true := h.mpr (by rwa [(ht _ lower).1])
    cases hflag
  | none =>
    simp only [Fsm.settle]
    split_ifs with hchange
    · refine ⟨le_rfl, iff_of_true (iff_of_true rfl ?_) trivial⟩
      show (t _ _).level ≠ st.level
      rw [(ht _ _).1, ← Fsm.count_level m st now cfg]
      exact hchange.1
    · have hsame : ¬ (Fsm.count m st now cfg).level ≠ st.level := not_not.mpr (Fsm.count_level m st now cfg)
      exact ⟨Nat.zero_le _, iff_of_true (iff_of_false Bool.false_ne_true hsame) trivial⟩

/-- Levels by strikes, after one quiet tick a step down. -/
def tickConfig : FsmConfig :=
  { sevStep1 := 1
    sevStep2 := 2
    sevStep3 := 3
    sevDelta1 := 1
    sevDelta2 := 2
    sevDelta3 := 3
    sevDecayBelow := 1
    softAt := 3
    hardAt := 6
    blockAt := 9
    upNeed := 1
    downNeed := 1
    cooldown := 1
    softTTL := 10
    hardTTL := 10
    blockTTL := 10 }

def syntheticTransition (cfg : FsmConfig) (now : Time) : TransitionFunc :=
  fun st target => syntheticFSMTransition st target now cfg

theorem syntheticTransition_sets (h : 0 ≤ cfg.cooldown) : (syntheticTransition cfg now).Sets now :=
  fun _ _ => ⟨rfl, le_add_of_nonneg_right h⟩

theorem soft_climbs_flag_true :
    (loggedAdvance ⟨0, 1⟩ { strikes := 3 } 20 tickConfig (syntheticTransition tickConfig 20)).1.1.level =
    .soft ∧
    (loggedAdvance ⟨0, 1⟩ { strikes := 3 } 20 tickConfig (syntheticTransition tickConfig 20)).2.length ≤ 1 ∧
    (FlagTrue { strikes := 3 } (loggedAdvance ⟨0, 1⟩ { strikes := 3 } 20 tickConfig
        (syntheticTransition tickConfig 20)) ↔
      Fsm.stepDownTo (Fsm.count ⟨0, 1⟩ { strikes := 3 } 20 tickConfig) 20 tickConfig = none) :=
  ⟨by decide +kernel, flag_true_iff (syntheticTransition_sets (by decide))⟩

/-- A soft level steps down when it has expired, and the tick reports no transition. -/
theorem step_down_unreported :
    (syntheticTransition tickConfig 20).Sets 20 ∧
    (loggedAdvance {} { level := .soft, expiresAt := 10 } 20 tickConfig
    (syntheticTransition tickConfig 20)).1.1.level =
      .observe ∧
    ¬ FlagTrue { level := .soft, expiresAt := 10 }
      (loggedAdvance {} { level := .soft, expiresAt := 10 } 20 tickConfig
        (syntheticTransition tickConfig 20)) :=
  ⟨syntheticTransition_sets (by decide), by decide +kernel⟩

end Flag

end Kernloom
