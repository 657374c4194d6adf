import Kernloom.FsmRuns
import Kernloom.SourceMaps

/-! The simulated transition of the runtime PDP beside the transition of the source PEP, both from one
configuration: when the two states are the same, and so are the time limits that the machine reads off
them. -/

namespace Kernloom

open Fsm

structure CapabilityParams where
  softRatePPS : UInt64 := 0
  softBurst : UInt64 := 0
  hardRatePPS : UInt64 := 0
  hardBurst : UInt64 := 0
  cooldown : Duration := 0

/-- What `toFSMConfig` and `toPEPParams` read of the configuration. The first copies its fields. -/
structure TransitionCfg extends FsmConfig where
  dryRun : Bool := false
  trigPPS : ℚ := 0
  softRateFactor : ℚ := 0
  hardRateFactor : ℚ := 0
  softDirectiveRatePPS : UInt64 := 0
  hardDirectiveRatePPS : UInt64 := 0
  adapterParams : CapabilityParams := {}

namespace TransitionCfg

abbrev toFSMConfig (c : TransitionCfg) : FsmConfig := c.toFsmConfig

/-- The rate and burst of one level: those of the adapter, of the learned trigger over them, and of a
directive over both. -/
def levelRate (trigPPS factor : ℚ) (directive staticRate staticBurst : UInt64) : UInt64 × UInt64 :=
  let rate := (staticRate, staticBurst)
  let rate :=
    if 0 < factor ∧ 0 < trigPPS then
      -- the source defines no conversion of a rate of 2^64 or more
      let r := UInt64.ofNat ⌊trigPPS * factor⌋₊
      let r := if r < 1 then 1 else r
      (r, r * 2)
    else rate
  if 0 < directive then (directive, directive * 2) else rate

def softRate (c : TransitionCfg) : UInt64 × UInt64 :=
  levelRate c.trigPPS c.softRateFactor c.softDirectiveRatePPS c.adapterParams.softRatePPS
    c.adapterParams.softBurst

def hardRate (c : TransitionCfg) : UInt64 × UInt64 :=
  levelRate c.trigPPS c.hardRateFactor c.hardDirectiveRatePPS c.adapterParams.hardRatePPS
    c.adapterParams.hardBurst

def toPEPParams (c : TransitionCfg) : EnforcementParams where
  dryRun := c.dryRun
  softRate := c.softRate.1
  softBurst := c.softRate.2
  softTTL := c.softTTL
  hardRate := c.hardRate.1
  hardBurst := c.hardRate.2
  hardTTL := c.hardTTL
  blockTTL := c.blockTTL
  cooldown := c.adapterParams.cooldown

/-- The start of the agent takes the cooldown from the adapter. -/
def withAdapterCooldown (c : TransitionCfg) : TransitionCfg :=
  { c with cooldown := c.adapterParams.cooldown }

def ttlForLevel (c : TransitionCfg) : Level → Duration
  | .soft => c.softTTL
  | .hard => c.hardTTL
  | .block => c.blockTTL
  | .observe => 0

/-- The level expires, at a time that does not read as unset; or the PEP's expiry reads so too. -/
def Expires (c : TransitionCfg) (now : Time) (level : Level) : Prop :=
  level = .observe ∨ 0 < c.ttlForLevel level ∨ now + c.ttlForLevel level = 0

/-- The two transitions read the same cooldown, and the level expires. -/
structure Agrees (c : TransitionCfg) (now : Time) (level : Level) : Prop where
  cooldown : c.cooldown = c.adapterParams.cooldown
  expires : c.Expires now level

/-- In a started agent the TTL alone decides. -/
theorem withAdapterCooldown_agrees (c : TransitionCfg) (now : Time) (level : Level) :
    c.withAdapterCooldown.Agrees now level ↔ c.Expires now level :=
  ⟨fun h => h.expires, fun h => ⟨rfl, h⟩⟩

end TransitionCfg

namespace FsmState

structure SameTimes (s s' : FsmState) : Prop where
  level : s.level = s'.level
  expiresAt : s.expiresAt = s'.expiresAt
  cooldownUntil : s.cooldownUntil = s'.cooldownUntil

/-- Every time limit of the machine, at any later tick, is the same on both states: which levels have
lapsed, whether a block is held, whether the cooldown is over. -/
structure SameLimits (s s' : FsmState) : Prop where
  lapsed : ∀ now cfg level minHold, lapsed s now cfg level minHold ↔ lapsed s' now cfg level minHold
  held : ∀ now target, holdBlock s now target = holdBlock s' now target
  cooled : ∀ now, s.cooldownUntil < now ↔ s'.cooldownUntil < now

variable {s s' : FsmState}

theorem SameLimits.refl (s : FsmState) : SameLimits s s :=
  ⟨fun _ _ _ _ => Iff.rfl, fun _ _ => rfl, fun _ => Iff.rfl⟩

theorem SameLimits.cooldownUntil (h : SameLimits s s') : s.cooldownUntil = s'.cooldownUntil :=
  le_antisymm (le_of_forall_gt fun now hnow => (h.cooled now).mpr hnow)
    (le_of_forall_gt fun now hnow => (h.cooled now).mp hnow)

/-- A level that has an expiry lapses some day: one that has none is told apart from it. -/
theorem exists_lapsed (s : FsmState) (h : s.expiresAt ≠ 0) :
    ∃ now cfg minHold, lapsed s now cfg s.level minHold := by
  refine ⟨max s.expiresAt s.cooldownUntil + 1, { downNeed := s.downStreak },
    max s.expiresAt s.cooldownUntil + 1 - s.lastTrigger, rfl, h, ?_, le_refl _, le_refl _, ?_⟩
  · exact Int.lt_add_one_of_le (le_max_left _ _)
  · exact Int.lt_add_one_of_le (le_max_right _ _)

theorem SameLimits.expiry_unset (h : SameLimits s s') : s.expiresAt = 0 ↔ s'.expiresAt = 0 := by
  constructor
  · intro hunset
    by_contra hset
    obtain ⟨now, cfg, minHold, hlapsed⟩ := exists_lapsed s' hset
    exact ((h.lapsed _ _ _ _).mpr hlapsed).2.1 hunset
  · intro hunset
    by_contra hset
    obtain ⟨now, cfg, minHold, hlapsed⟩ := exists_lapsed s hset
    exact ((h.lapsed _ _ _ _).mp hlapsed).2.1 hunset

end FsmState

section Transition

variable (c : TransitionCfg) (st : FsmState) (level : Level) (now : Time)

theorem expiryTime_eq (ttl : Duration) (h : 0 < ttl ∨ now + ttl = 0) : expiryTime now ttl = now + ttl := by
  unfold expiryTime
  rcases h with h | h
  · exact if_neg (not_le.mpr h)
  · rw [h, ite_self]

theorem synthetic_expiresAt : (syntheticFSMTransition st level now c.toFSMConfig).expiresAt =
    if level = .observe then 0 else expiryTime now (c.ttlForLevel level) := by
  cases level <;> rfl

theorem applied_expiresAt : (applyStateFields st level now c.toPEPParams).expiresAt =
    if level = .observe then 0 else now + c.ttlForLevel level := by
  cases level <;> rfl

/-- Both transitions change the same three fields, so that they agree on the state when on those. -/
theorem synthetic_eq_applied (h : c.Agrees now level) :
    syntheticFSMTransition st level now c.toFSMConfig = applyStateFields st level now c.toPEPParams := by
  have hexpires : (syntheticFSMTransition st level now c.toFSMConfig).expiresAt =
      (applyStateFields st level now c.toPEPParams).expiresAt := by
    rw [synthetic_expiresAt, applied_expiresAt]
    rcases h.expires with rfl | hexp
    · rfl
    · rw [expiryTime_eq now _ hexp]
  have hcooldown : now + c.cooldown = now + c.toPEPParams.cooldown := congrArg (now + ·) h.cooldown
  show { st with level := level, cooldownUntil := now + c.cooldown, expiresAt := _ } = { st with
    level := level, cooldownUntil := now + c.toPEPParams.cooldown, expiresAt := _ }
  rw [hcooldown]
  exact congrArg (fun e => { st with
    level := level, cooldownUntil := now + c.toPEPParams.cooldown, expiresAt := e }) hexpires

/-- The PEP never leaves an expiry unset where the simulation does, unless the sum is the zero time. -/
theorem expires_of_unset
    (hcooldown : (syntheticFSMTransition st level now c.toFSMConfig).cooldownUntil =
      (applyStateFields st level now c.toPEPParams).cooldownUntil)
    (hexpires : (syntheticFSMTransition st level now c.toFSMConfig).expiresAt = 0 →
      (applyStateFields st level now c.toPEPParams).expiresAt = 0) : c.Agrees now level := by
  refine ⟨Int.add_left_cancel hcooldown, ?_⟩
  by_cases hobserve : level = .observe
  · exact .inl hobserve
  · rw [synthetic_expiresAt, applied_expiresAt, if_neg hobserve, if_neg hobserve] at hexpires
    rcases lt_or_ge 0 (c.ttlForLevel level) with hpos | hneg
    · exact .inr (.inl hpos)
    · exact .inr (.inr (hexpires (if_pos hneg)))

end Transition

/-- A transition of the shield that succeeds sets the fields of the state, and nothing else of it. -/
theorem ShieldPEP.transitionSource_ok {a a' : ShieldPEP} {answers : KernelAnswers} {source : SourceTarget}
    {st st' : FsmState} {level : Level} {now : Time} {p : EnforcementParams}
    (h : a.transitionSource answers source st level now p = (.ok st', a')) :
    st' = applyStateFields st level now p := by
  have hcommon : ∀ applied, a.transition applied st level now p = (.ok st', a') →
      st' = applyStateFields st level now p := by
    intro applied happlied
    unfold transition at happlied
    split at happlied
    · simp_all
    · split at happlied
      · simp at happlied
      · split at happlied <;> simp_all
  unfold transitionSource at h
  split at h
  · simp at h
  · split at h
    · exact hcommon _ h
    · exact hcommon _ h

/-- The simulated and the real transition agree, and so do all the time limits on their states, exactly
when the two read one cooldown and the level entered has a TTL. -/
theorem transitions_agree_iff (a a' : ShieldPEP) (answers : KernelAnswers) (source : SourceTarget)
    (st st' : FsmState) (level : Level) (now : Time) (c : TransitionCfg)
    (h : a.transitionSource answers source st level now c.toPEPParams = (.ok st', a')) :
    ((syntheticFSMTransition st level now c.toFSMConfig).SameTimes st' ↔ c.Agrees now level) ∧
      ((syntheticFSMTransition st level now c.toFSMConfig).SameLimits st' ↔ c.Agrees now level) := by
  obtain rfl := ShieldPEP.transitionSource_ok h
  refine ⟨⟨fun hsame => ?_, fun hagrees => ?_⟩, ⟨fun hsame => ?_, fun hagrees => ?_⟩⟩
  · exact expires_of_unset c st level now hsame.cooldownUntil fun hunset => hsame.expiresAt ▸ hunset
  · rw [synthetic_eq_applied c st level now hagrees]
    exact ⟨rfl, rfl, rfl⟩
  · exact expires_of_unset c st level now hsame.cooldownUntil hsame.expiry_unset.mp
  · rw [synthetic_eq_applied c st level now hagrees]
    exact .refl _

/-- With the adapter's cooldown and a TTL at every level, the machine that calls the PEP's transitions
runs through the states that the simulation foresees. -/
theorem foldl_applied_eq_stateAfter (c : TransitionCfg) (ticks : List FsmTick)
    (h : ∀ e ∈ ticks, ∀ level, c.Agrees e.2 level) :
    ticks.foldl (fun st e => (loggedAdvance e.1 st e.2 c.toFSMConfig
        fun st level => applyStateFields st level e.2 c.toPEPParams).1.1) {} =
      stateAfter c.toFSMConfig ticks := by
  refine List.foldl_ext _ _ _ fun st e he => ?_
  have hsame : (fun st level => applyStateFields st level e.2 c.toPEPParams) =
      syntheticTransition c.toFSMConfig e.2 :=
    funext fun st => funext fun level => (synthetic_eq_applied c st level e.2 (h e he level)).symm
  rw [hsame, tick]

section Example

def emptyShield : ShieldPEP where
  maps := some {
    v4 := ⟨some fun _ => none, some fun _ => none⟩
    v6 := ⟨some fun _ => none, some fun _ => none⟩ }

/-- A configuration with a TTL for the soft level and none for the hard one. -/
def hardForever : TransitionCfg where
  softTTL := 60
  cooldown := 5
  adapterParams := { softRatePPS := 20, softBurst := 40, hardRatePPS := 5, hardBurst := 10, cooldown := 5 }

theorem emptyShield_transition (level : Level) : ∃ a',
    emptyShield.transitionSource (fun _ => none) ⟨"192.0.2.7", "", ∅⟩ {} level 100 hardForever.toPEPParams =
      (.ok (applyStateFields {} level 100 hardForever.toPEPParams), a') := by
  have hv4 : parseIPv4 "192.0.2.7" = some 0xc0000207 := by decide +kernel
  obtain ⟨ip, hip, hv4⟩ := Option.bind_eq_some_iff.mp hv4
  have hid : SourceTarget.id ⟨"192.0.2.7", "", ∅⟩ = "192.0.2.7" := by decide
  cases level <;> exact ⟨_, by simp only [ShieldPEP.transitionSource, hid, hip, hv4]; rfl⟩

theorem soft_transitions_agree : ∃ st',
    ((syntheticFSMTransition {} .soft 100 hardForever.toFSMConfig).SameTimes st' ↔
        hardForever.Agrees 100 .soft) ∧
      ((syntheticFSMTransition {} .soft 100 hardForever.toFSMConfig).SameLimits st' ↔
        hardForever.Agrees 100 .soft) := by
  obtain ⟨a', hdone⟩ := emptyShield_transition .soft
  exact ⟨_, transitions_agree_iff _ a' _ _ _ _ _ _ _ hdone⟩

/-- Without a TTL the simulated level never expires, and the real one has expired at once. -/
theorem hard_transitions_differ : ∃ st' a',
    emptyShield.transitionSource (fun _ => none) ⟨"192.0.2.7", "", ∅⟩ {} .hard 100 hardForever.toPEPParams =
        (.ok st', a') ∧
      ¬ (syntheticFSMTransition {} .hard 100 hardForever.toFSMConfig).SameTimes st' := by
  obtain ⟨a', hdone⟩ := emptyShield_transition .hard
  exact ⟨_, a', hdone, fun h => absurd h.expiresAt (by decide)⟩

end Example

end Kernloom
