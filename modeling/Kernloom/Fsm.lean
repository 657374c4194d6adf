import Kernloom.Action

/-! The state machine of progressive enforcement: strikes and streaks, the step-downs of an expired
level and the level that the counters ask for. -/

namespace Kernloom

/-- The constant of a level. -/
def Level.value : Level → Nat
  | observe => 0
  | soft => 1
  | hard => 2
  | block => 3

instance : LT Level := ⟨fun l l' => l.value < l'.value⟩

instance : LE Level := ⟨fun l l' => l.value ≤ l'.value⟩

instance (l l' : Level) : Decidable (l < l') := inferInstanceAs (Decidable (l.value < l'.value))

instance (l l' : Level) : Decidable (l ≤ l') := inferInstanceAs (Decidable (l.value ≤ l'.value))

/-- What the machine reads of a source's metrics. -/
structure FsmMetrics where
  dropRLRate : ℚ := 0
  severity : ℚ := 0

structure FsmConfig where
  sevStep1 : ℚ := 0
  sevStep2 : ℚ := 0
  sevStep3 : ℚ := 0
  sevDelta1 : Int := 0
  sevDelta2 : Int := 0
  sevDelta3 : Int := 0
  sevDecayBelow : ℚ := 0
  softAt : Int := 0
  hardAt : Int := 0
  blockAt : Int := 0
  upNeed : Int := 0
  downNeed : Int := 0
  minHoldSoft : Duration := 0
  minHoldHard : Duration := 0
  blockMinSev : ℚ := 0
  blockMinDur : Duration := 0
  cooldown : Duration := 0
  softTTL : Duration := 0
  hardTTL : Duration := 0
  blockTTL : Duration := 0
  nonCompAt : Int := 0
  nonCompDrop : ℚ := 0
  nonCompSev : ℚ := 0
  nonCompResetBelow : ℚ := 0

namespace Fsm

section Counters

variable (m : FsmMetrics) (st : FsmState) (now : Time) (cfg : FsmConfig)

def sustain : FsmState :=
  if 0 < cfg.blockMinSev ∧ cfg.blockMinSev ≤ m.severity then
    { st with highSevSince := if st.highSevSince = 0 then now else st.highSevSince }
  else { st with highSevSince := 0 }

def highTick : Prop := cfg.sevStep1 ≤ m.severity ∨ (0 < cfg.nonCompDrop ∧ cfg.nonCompDrop ≤ m.dropRLRate)

def lowTick : Prop := m.severity < cfg.sevDecayBelow ∧ m.dropRLRate = 0

instance : Decidable (highTick m cfg) := inferInstanceAs (Decidable (_ ∨ _))

instance : Decidable (lowTick m cfg) := inferInstanceAs (Decidable (_ ∧ _))

def streaks : FsmState :=
  if highTick m cfg then { st with upStreak := st.upStreak + 1, downStreak := 0 }
  else if lowTick m cfg then { st with downStreak := st.downStreak + 1, upStreak := 0 }
  else { st with
    upStreak := if 0 < st.upStreak then st.upStreak - 1 else st.upStreak
    downStreak := if 0 < st.downStreak then st.downStreak - 1 else st.downStreak }

def strikeDelta : Int :=
  if cfg.sevStep3 ≤ m.severity then cfg.sevDelta3
  else if cfg.sevStep2 ≤ m.severity then cfg.sevDelta2
  else if cfg.sevStep1 ≤ m.severity then cfg.sevDelta1
  else 0

def strike : FsmState :=
  if 0 < strikeDelta m cfg then { st with strikes := st.strikes + strikeDelta m cfg, lastTrigger := now }
  else if 0 < st.strikes ∧ lowTick m cfg ∧ cfg.downNeed ≤ st.downStreak then
    { st with strikes := st.strikes - 1 }
  else st

def nonCompliance : FsmState :=
  if .soft ≤ st.level ∧ 0 < cfg.nonCompAt then
    if (0 < cfg.nonCompDrop ∧ cfg.nonCompDrop ≤ m.dropRLRate) ∨
        (0 < cfg.nonCompSev ∧ cfg.nonCompSev ≤ m.severity) then
      { st with nonCompTicks := st.nonCompTicks + 1 }
    else if m.severity < cfg.nonCompResetBelow ∧ m.dropRLRate = 0 then { st with nonCompTicks := 0 }
    else st
  else { st with nonCompTicks := 0 }

/-- The counters of one tick. -/
def count : FsmState :=
  nonCompliance m (strike m (streaks m (sustain m st now cfg) cfg) now cfg) cfg

end Counters

section Target

variable (st : FsmState) (now : Time) (cfg : FsmConfig)

/-- A level that has expired, after a quiet streak, its minimum hold and the cooldown. -/
def lapsed (level : Level) (minHold : Duration) : Prop :=
  st.level = level ∧ st.expiresAt ≠ 0 ∧ st.expiresAt < now ∧ cfg.downNeed ≤ st.downStreak ∧
    minHold ≤ now - st.lastTrigger ∧ st.cooldownUntil < now

instance (level : Level) (minHold : Duration) : Decidable (lapsed st now cfg level minHold) :=
  inferInstanceAs (Decidable (_ ∧ _))

/-- The level of the strikes, held by the anti-flap streak. -/
def strikeTarget : Level :=
  let target :=
    if cfg.blockAt ≤ st.strikes then Level.block
    else if cfg.hardAt ≤ st.strikes then Level.hard
    else if cfg.softAt ≤ st.strikes then Level.soft
    else Level.observe
  if st.level < target ∧ st.upStreak < cfg.upNeed ∧ ¬ st.forceBlock then st.level else target

def desired : Level :=
  if st.level = .hard ∧ 0 < cfg.nonCompAt ∧ cfg.nonCompAt ≤ st.nonCompTicks then .block
  else strikeTarget st cfg

/-- A block that has not expired is not weakened. -/
def holdBlock (target : Level) : Level :=
  if st.level = .block ∧ st.expiresAt ≠ 0 ∧ now < st.expiresAt ∧ target < st.level then st.level else target

/-- Without sustained severity an escalation stops below a block. -/
def gateBlock (target : Level) : Level :=
  if target = .block ∧ st.level < target ∧ 0 < cfg.blockMinSev ∧ ¬ st.forceBlock ∧
      (st.highSevSince = 0 ∨ (0 < cfg.blockMinDur ∧ now - st.highSevSince < cfg.blockMinDur)) then .hard
  else target

def target : Level := gateBlock st now cfg (holdBlock st now (desired st cfg))

end Target

section Advance

variable {m : Type → Type} [Monad m]

def stepDown (st : FsmState) (now : Time) (cfg : FsmConfig) (level : Level) (minHold : Duration) (lower : Level)
    (doTransition : FsmState → Level → m FsmState) : m FsmState :=
  if lapsed st now cfg level minHold then doTransition st lower else pure st

/-- One tick of a source. A change of level goes through `doTransition`. -/
def advance (metrics : FsmMetrics) (st : FsmState) (now : Time) (cfg : FsmConfig)
    (doTransition : FsmState → Level → m FsmState) : m (FsmState × Bool) := do
  let st := count metrics st now cfg
  let st ← stepDown st now cfg .block cfg.minHoldHard .hard doTransition
  let st ← stepDown st now cfg .soft cfg.minHoldSoft .observe doTransition
  let st ← stepDown st now cfg .hard cfg.minHoldHard .soft doTransition
  let target := target st now cfg
  if target ≠ st.level ∧ st.cooldownUntil < now then
    let st ← doTransition st target
    return ({ st with forceBlock := false }, true)
  else return (st, false)

end Advance

end Fsm

section Intent

/-- What the machine makes of a candidate: its next state and the level it asks for. -/
structure FsmIntent where
  signalState : FsmState
  proposedLevel : Level
  transitioned : Bool

def expiryTime (now : Time) (ttl : Duration) : Time := if ttl ≤ 0 then 0 else now + ttl

/-- A transition that no PEP makes. -/
def syntheticFSMTransition (st : FsmState) (target : Level) (now : Time) (cfg : FsmConfig) : FsmState :=
  { st with
    level := target
    cooldownUntil := now + cfg.cooldown
    expiresAt := match target with
      | .soft => expiryTime now cfg.softTTL
      | .hard => expiryTime now cfg.hardTTL
      | .block => expiryTime now cfg.blockTTL
      | .observe => 0 }

/-- The transition of the tick notes the level it was asked for. -/
def evaluateFSMIntent (metrics : FsmMetrics) (st : FsmState) (now : Time) (cfg : FsmConfig) : FsmIntent :=
  let transition (st : FsmState) (target : Level) : StateM Level FsmState := do
    set target
    return syntheticFSMTransition st target now cfg
  let ((next, transitioned), proposed) := Fsm.advance metrics st now cfg transition st.level
  ⟨next, if transitioned then proposed else next.level, transitioned⟩

/-- The level and its times as they are, with the counters of the machine. -/
def mergeFSMRuntimeState (actual signal : FsmState) : FsmState :=
  { actual with
    strikes := signal.strikes
    lastTrigger := signal.lastTrigger
    highSevSince := signal.highSevSince
    lastSeenWallTime := signal.lastSeenWallTime
    upStreak := signal.upStreak
    downStreak := signal.downStreak
    nonCompTicks := signal.nonCompTicks
    forceBlock := signal.forceBlock }

@[simp] theorem mergeFSMRuntimeState_level (actual signal : FsmState) :
    (mergeFSMRuntimeState actual signal).level = actual.level := rfl

end Intent

end Kernloom
