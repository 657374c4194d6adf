import Kernloom.ShieldAccounting

/-! The limit of a source: which of its packets reach it, and what they do to its bucket. -/

namespace Kernloom

section Source

/-- A source of either family. -/
inductive ShieldSource where
  | v4 (saddr : Addr4)
  | v6 (saddr : Addr6)
  deriving DecidableEq

def Parsed.source : Parsed → Option ShieldSource
  | .other => none
  | .v4 p => some (.v4 p.saddr)
  | .v6 p => some (.v6 p.saddr)

/-- The policy selected for a source. -/
def ShieldConfig.policy (c : ShieldConfig) : ShieldSource → Option RlCfg
  | .v4 saddr => c.selectRL4 saddr
  | .v6 saddr => c.selectRL6 saddr

/-- The allow and the deny check let a source through. -/
def ShieldConfig.admits (c : ShieldConfig) : ShieldSource → Bool
  | .v4 saddr => !(c.enforce && !c.allowLpm.has saddr) && !(c.denyHash saddr).isSome
  | .v6 saddr => !(c.enforce && !c.allow6Lpm.has saddr) && !(c.deny6Hash saddr).isSome

def ShieldState.rlState (s : ShieldState) : ShieldSource → Option RlState
  | .v4 saddr => s.rlState4 saddr
  | .v6 saddr => s.rlState6 saddr

/-- A packet of a source that reaches its rate limit. -/
def IsLimited (src : ShieldSource) (cfg : RlCfg) (w : ShieldWorld) (data : PacketBytes) : Prop :=
  (parsePacket data).source = some src ∧ w.config.admits src ∧ w.config.policy src = some cfg

instance (src : ShieldSource) (cfg : RlCfg) (w : ShieldWorld) (data : PacketBytes) :
    Decidable (IsLimited src cfg w data) := inferInstanceAs (Decidable (_ ∧ _ ∧ _))

variable {enforce inAllow inDeny room : Bool} {use : Option RlCfg} {bucket : Option RlState} {now : UInt64}

theorem checkSource_limited {c : RlCfg} (h : (!(enforce && !inAllow) && !inDeny) = true)
    (bucket : Option RlState) (now : UInt64) (room : Bool) :
    (checkSource enforce inAllow inDeny (some c) bucket now room).2 = (rateLimit c bucket now room).2 ∧
      ((checkSource enforce inAllow inDeny (some c) bucket now room).1.drops.action = .pass →
        (rateLimit c bucket now room).1 = true) := by
  obtain ⟨hallow, hdeny⟩ := Bool.and_eq_true_iff.mp h
  rw [Bool.not_eq_true'] at hallow hdeny
  unfold checkSource
  simp only [hallow, hdeny]
  refine ⟨rfl, fun hpass => ?_⟩
  cases hlimit : (rateLimit c bucket now room).1 with
  | true => rfl
  | false => simp [Drops.action, hlimit] at hpass

theorem checkSource_refused (h : ¬ (!(enforce && !inAllow) && !inDeny) = true) :
    (checkSource enforce inAllow inDeny use bucket now room).1.drops.action = .drop := by
  unfold checkSource
  cases hallow : (enforce && !inAllow) with
  | true => rfl
  | false =>
    have hdeny : inDeny = true := by simpa [hallow] using h
    simp [hdeny, Drops.action]

/-- Nothing stops the first packet of a source that is let through. -/
theorem checkSource_first (h : (!(enforce && !inAllow) && !inDeny) = true) :
    (checkSource enforce inAllow inDeny use none now true).1.drops.action = .pass := by
  obtain ⟨hallow, hdeny⟩ := Bool.and_eq_true_iff.mp h
  rw [Bool.not_eq_true'] at hallow hdeny
  unfold checkSource
  simp only [hallow, hdeny]
  cases use <;> rfl

theorem checkSource_unlimited (h : ¬ ((!(enforce && !inAllow) && !inDeny) = true ∧ use.isSome)) :
    (checkSource enforce inAllow inDeny use bucket now room).2 = bucket := by
  unfold checkSource
  cases hallow : (enforce && !inAllow) with
  | true => rfl
  | false =>
    cases hdeny : inDeny with
    | true => rfl
    | false =>
      cases use with
      | none => rfl
      | some cfg => exact absurd ⟨by simp [hallow, hdeny], rfl⟩ h

/-- A limited packet is one call of the limit on the bucket of its source. -/
theorem xdpKlshield_limited {src : ShieldSource} {cfg : RlCfg} {w : ShieldWorld} {data : PacketBytes}
    (h : IsLimited src cfg w data) (ctx : XdpContext) :
    (xdpKlshield w.config ctx data w.state).2.rlState src =
        (rateLimit cfg (w.state.rlState src) ctx.now ctx.room.rl).2 ∧
      ((xdpKlshield w.config ctx data w.state).1 = .pass →
        (rateLimit cfg (w.state.rlState src) ctx.now ctx.room.rl).1 = true) := by
  obtain ⟨hsource, hadmits, hpolicy⟩ := h
  cases hparse : parsePacket data with
  | other =>
    rw [hparse] at hsource
    cases hsource
  | v4 p =>
    rw [hparse] at hsource
    obtain rfl := Option.some.inj hsource
    rw [xdpKlshield_v4 hparse]
    have hpolicy4 : some cfg = w.config.selectRL4 p.saddr := hpolicy.symm
    have hcheck := checkSource_limited (c := cfg) hadmits (w.state.rlState4 p.saddr) ctx.now ctx.room.rl
    rw [hpolicy4] at hcheck
    refine ⟨(Function.update_self ..).trans hcheck.1, fun hpass => hcheck.2 ?_⟩
    by_contra hdrop
    have hdropped : (checkSource4 w.config ctx p w.state).1.drops.action = .drop := by
      cases haction : (checkSource4 w.config ctx p w.state).1.drops.action with
      | drop => rfl
      | pass => exact absurd haction hdrop
    have hedge : checkEdge4 w.config ctx p w.state =
        ((checkSource4 w.config ctx p w.state).1, w.state.edgeRLState p.edgeKey) := checkEdge_dropped hdropped
    simp only [xdpIPv4, hedge, hdropped] at hpass
    cases hpass
  | v6 p =>
    rw [hparse] at hsource
    obtain rfl := Option.some.inj hsource
    rw [xdpKlshield_v6 hparse]
    have hpolicy6 : some cfg = w.config.selectRL6 p.saddr := hpolicy.symm
    have hcheck := checkSource_limited (c := cfg) hadmits (w.state.rlState6 p.saddr) ctx.now ctx.room.rl
    rw [hpolicy6] at hcheck
    exact ⟨(Function.update_self ..).trans hcheck.1, hcheck.2⟩

/-- Any other packet leaves the bucket of a source as it is. -/
theorem xdpKlshield_unlimited {src : ShieldSource} {w : ShieldWorld} {ctx : XdpContext} {data : PacketBytes}
    (h : ∀ cfg, ¬ IsLimited src cfg w data) :
    (xdpKlshield w.config ctx data w.state).2.rlState src = w.state.rlState src := by
  have hnot : (parsePacket data).source = some src →
      ¬ (w.config.admits src = true ∧ (w.config.policy src).isSome) := by
    rintro hsource ⟨hadmits, hsome⟩
    obtain ⟨cfg, hcfg⟩ := Option.isSome_iff_exists.mp hsome
    exact h cfg ⟨hsource, hadmits, hcfg⟩
  cases hparse : parsePacket data with
  | other => rw [xdpKlshield_other hparse]; cases src <;> rfl
  | v4 p =>
    rw [hparse] at hnot
    rw [xdpKlshield_v4 hparse]
    cases src with
    | v6 saddr => rfl
    | v4 saddr =>
      by_cases hk : saddr = p.saddr
      · subst hk
        exact (Function.update_self ..).trans (checkSource_unlimited (hnot rfl))
      · exact Function.update_of_ne hk ..
  | v6 p =>
    rw [hparse] at hnot
    rw [xdpKlshield_v6 hparse]
    cases src with
    | v4 saddr => rfl
    | v6 saddr =>
      by_cases hk : saddr = p.saddr
      · subst hk
        exact (Function.update_self ..).trans (checkSource_unlimited (hnot rfl))
      · exact Function.update_of_ne hk ..

end Source

end Kernloom
