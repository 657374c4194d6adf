import Kernloom.ShieldAccounting

/-! The enforcement of flows: which verdict a flow gets under each mode, and when the allow mode
passes a packet of a flow that is not in its list. -/

namespace Kernloom

section Flow

variable {c : ShieldConfig} {ctx : XdpContext} {data : PacketBytes} {s : ShieldState}
  {p : IPPacket Addr4} {key : EdgeKey}

/-- Whether the rate limit of a flow passes a packet. -/
def ShieldConfig.edgeRLPasses (c : ShieldConfig) (key : EdgeKey) (bucket : Option RlState) (now : UInt64)
    (room : Bool) : Bool :=
  match c.edgeRLPolicy key with
  | none => true
  | some erl => if erl.active then (rateLimit erl bucket now room).1 else true

/-- A flow is checked under an enforcing mode, and only with a port. -/
theorem checkEdge_pass_iff {checks : Checks} {v : Verdict} (hv : checks.drops = v.drops)
    {bucket : Option RlState} {now : UInt64} {room : Bool} :
    (checkEdge c key checks bucket now room).1.drops.action = .pass ↔
      checks.drops.action = .pass ∧ (key.dstPort ≠ 0 → ∀ mode, c.edgeMode = some mode → mode ≠ 0 →
        c.edgeDenies mode key = false ∧ c.edgeRLPasses key bucket now room = true) := by
  unfold checkEdge
  by_cases hdrop : checks.drops.action = .drop
  · rw [if_pos (.inl hdrop), hdrop]
    simp
  · have hpass : checks.drops = {} := by
      rw [hv] at hdrop
      rw [hv, Verdict.eq_pass hdrop]
      rfl
    have haction : checks.drops.action = .pass := by rw [hpass]; rfl
    by_cases hport : key.dstPort = 0
    · rw [if_pos (.inr hport)]
      simp [haction, hport]
    · rw [if_neg (by simp [hdrop, hport])]
      cases hmode : c.edgeMode with
      | none => simp [haction]
      | some mode =>
        cases mode with
        | zero => simp [haction]
        | succ n =>
          simp only
          cases hdenies : c.edgeDenies (n + 1) key with
          | true => simp [Drops.action, hport, hdenies]
          | false =>
            cases hpolicy : c.edgeRLPolicy key with
            | none => simp [haction, hdenies, ShieldConfig.edgeRLPasses, hpolicy]
            | some erl =>
              cases hactive : erl.active with
              | false => simp [haction, hdenies, ShieldConfig.edgeRLPasses, hpolicy, hactive]
              | true =>
                cases hlimit : (rateLimit erl bucket now room).1 <;>
                  simp [hdenies, ShieldConfig.edgeRLPasses, hpolicy, hactive, hlimit, hpass, Drops.action, hport]

theorem xdpKlshield_pass_iff (hparse : parsePacket data = .v4 p) : (xdpKlshield c ctx data s).1 = .pass ↔
    (checkSource4 c ctx p s).1.drops.action = .pass ∧ (p.l4.dport ≠ 0 → ∀ mode, c.edgeMode = some mode →
      mode ≠ 0 → c.edgeDenies mode p.edgeKey = false ∧
        c.edgeRLPasses p.edgeKey (s.edgeRLState p.edgeKey) ctx.now ctx.room.edgeRL = true) := by
  rw [xdpKlshield_v4 hparse]
  obtain ⟨v, hv⟩ : ∃ v : Verdict, (checkSource4 c ctx p s).1.drops = v.drops := checkSource_verdict ..
  exact checkEdge_pass_iff hv

/-- The allow mode passes only listed flows exactly where it looks at the list: not at packets
without a port, unless the checks of the source drop them or the list has port zero. -/
theorem allow_mode_iff (hmode : c.edgeMode = some 2) (hparse : parsePacket data = .v4 p) :
    ((xdpKlshield c ctx data s).1 = .pass → (c.edgeAllow p.edgeKey).isSome) ↔
      p.l4.dport ≠ 0 ∨ (c.edgeAllow ⟨p.saddr, 0, p.proto⟩).isSome ∨
        (checkSource4 c ctx p s).1.drops.action = .drop := by
  rw [xdpKlshield_pass_iff hparse]
  constructor
  · intro h
    by_cases hport : p.l4.dport = 0
    · right
      have hkey : p.edgeKey = ⟨p.saddr, 0, p.proto⟩ := by rw [IPPacket.edgeKey, hport]
      cases haction : (checkSource4 c ctx p s).1.drops.action with
      | drop => exact .inr rfl
      | pass =>
        have hlisted := h ⟨haction, fun hne => absurd hport hne⟩
        rw [hkey] at hlisted
        exact .inl hlisted
    · exact .inl hport
  · rintro (hport | hlisted | hdrop) ⟨hpass, hedge⟩
    · obtain ⟨hdenies, -⟩ := hedge hport 2 hmode (by decide)
      simp only [ShieldConfig.edgeDenies, if_true] at hdenies
      rwa [Option.isNone_eq_false_iff] at hdenies
    · by_cases hport : p.l4.dport = 0
      · have hkey : p.edgeKey = ⟨p.saddr, 0, p.proto⟩ := by rw [IPPacket.edgeKey, hport]
        rw [hkey]
        exact hlisted
      · obtain ⟨hdenies, -⟩ := hedge hport 2 hmode (by decide)
        simp only [ShieldConfig.edgeDenies, if_true] at hdenies
        rwa [Option.isNone_eq_false_iff] at hdenies
    · exact absurd (hpass.symm.trans hdrop) (by decide)

def allowMode : ShieldConfig where
  edgeMode := some 2

theorem unlisted_port_dropped : (xdpKlshield allowMode ⟨0, 1, {}⟩ (udpPacket 0 53) {}).1 = .drop := by
  have hlisted : (xdpKlshield allowMode ⟨0, 1, {}⟩ (udpPacket 0 53) {}).1 = .pass →
      (allowMode.edgeAllow ⟨fixtureSource, 53, 17⟩).isSome :=
    (allow_mode_iff rfl (parse_udpPacket 0 53)).mpr (.inl (by decide))
  cases haction : (xdpKlshield allowMode ⟨0, 1, {}⟩ (udpPacket 0 53) {}).1 with
  | drop => rfl
  | pass => exact absurd (hlisted haction) (by decide)

theorem port_zero_passes : ¬ ∀ (c : ShieldConfig) (ctx : XdpContext) (data : PacketBytes) (s : ShieldState)
    (p : IPPacket Addr4), c.edgeMode = some 2 → parsePacket data = .v4 p →
      (xdpKlshield c ctx data s).1 = .pass → (c.edgeAllow p.edgeKey).isSome := by
  intro h
  have hlisted := h allowMode ⟨0, 1, {}⟩ (udpPacket 0 0) {} (udpHeader 0 0) rfl (parse_udpPacket 0 0)
    (by decide +kernel)
  exact absurd hlisted (by decide)

end Flow

end Kernloom
