import Kernloom.Shield
import Kernloom.Transition

/-! The accounting of the XDP program: every packet is charged to one verdict, the records of the
sources add up, and only packets past the allow and deny checks reach a source's bucket. -/

namespace Kernloom

open Transition

section Verdicts

inductive Verdict where
  | pass | dropAllow | dropDeny | dropRL
  deriving DecidableEq

def Verdict.action : Verdict → XdpAction
  | pass => .pass
  | _ => .drop

def Verdict.drops : Verdict → Drops
  | pass => {}
  | dropAllow => { allow := true }
  | dropDeny => { deny := true }
  | dropRL => { rl := true }

def Totals.counter (t : Totals) : Verdict → Nat
  | .pass => t.pass
  | .dropAllow => t.dropAllow
  | .dropDeny => t.dropDeny
  | .dropRL => t.dropRL

def Totals.Balanced (t : Totals) : Prop := t.pkts = t.pass + t.dropAllow + t.dropDeny + t.dropRL

def SrcStats.Balanced (st : SrcStats) : Prop :=
  st.pkts = st.pass + st.dropAllow + st.dropDeny + st.dropRL

theorem Verdict.drops_action (v : Verdict) : v.drops.action = v.action := by
  cases v <;> rfl

theorem Verdict.eq_pass {v : Verdict} (h : v.drops.action ≠ .drop) : v = .pass := by
  cases v with
  | pass => rfl
  | dropAllow | dropDeny | dropRL => exact absurd rfl h

variable {enforce inAllow inDeny room : Bool} {use : Option RlCfg} {bucket : Option RlState} {now : UInt64}

theorem checkSource_verdict (enforce inAllow inDeny : Bool) (use : Option RlCfg) (bucket : Option RlState)
    (now : UInt64) (room : Bool) :
    ∃ v : Verdict, (checkSource enforce inAllow inDeny use bucket now room).1.drops = v.drops := by
  unfold checkSource
  cases hallow : (enforce && !inAllow) with
  | true => exact ⟨.dropAllow, rfl⟩
  | false =>
    cases inDeny with
    | true => exact ⟨.dropDeny, rfl⟩
    | false =>
      cases use with
      | none => exact ⟨.pass, rfl⟩
      | some cfg =>
        cases hpassed : (rateLimit cfg bucket now room).1 with
        | true => exact ⟨.pass, by simp [hpassed, Verdict.drops]⟩
        | false => exact ⟨.dropRL, by simp [hpassed, Verdict.drops]⟩

theorem checkEdge_verdict {c : ShieldConfig} {key : EdgeKey} {checks : Checks} {v : Verdict}
    (h : checks.drops = v.drops) :
    ∃ v' : Verdict, (checkEdge c key checks bucket now room).1.drops = v'.drops := by
  unfold checkEdge
  by_cases hskip : checks.drops.action = .drop ∨ key.dstPort = 0
  · rw [if_pos hskip]
    exact ⟨v, h⟩
  · rw [if_neg hskip]
    rw [not_or] at hskip
    have hnone : checks.drops = {} := by
      rw [h] at hskip
      rw [h, Verdict.eq_pass hskip.1]
      rfl
    split
    · exact ⟨v, h⟩
    · exact ⟨v, h⟩
    · split
      · exact ⟨.dropDeny, by simp [hnone, Verdict.drops]⟩
      · split
        · exact ⟨v, h⟩
        · rename_i erl _
          split
          · cases hpassed : (rateLimit erl bucket now room).1 with
            | true => exact ⟨.pass, by simp [hpassed, hnone, Verdict.drops]⟩
            | false => exact ⟨.dropRL, by simp [hpassed, hnone, Verdict.drops]⟩
          · exact ⟨v, h⟩

/-- A packet dropped by the allow or the deny check leaves the bucket alone. -/
theorem checkSource_bucket (h : (enforce && !inAllow) = true ∨ inDeny = true) :
    (checkSource enforce inAllow inDeny use bucket now room).2 = bucket := by
  unfold checkSource
  cases hallow : (enforce && !inAllow) with
  | true => rfl
  | false =>
    have hdeny : inDeny = true := h.resolve_left (by simp [hallow])
    simp [hdeny]

theorem checkSource_denied (h : inDeny = true) :
    (checkSource enforce inAllow inDeny use bucket now room).1.drops.action = .drop := by
  unfold checkSource
  cases hallow : (enforce && !inAllow) with
  | true => rfl
  | false => simp [h, Drops.action]

theorem checkEdge_dropped {c : ShieldConfig} {key : EdgeKey} {checks : Checks}
    (h : checks.drops.action = .drop) : (checkEdge c key checks bucket now room) = (checks, bucket) := by
  unfold checkEdge
  rw [if_pos (.inl h)]

end Verdicts

section Counters

variable {t : Totals} {checks : Checks} {v : Verdict}

theorem Totals.counter_count (h : checks.drops = v.drops) (u : Verdict) :
    (t.count checks).counter u = t.counter u + if u = v then 1 else 0 := by
  unfold Totals.count
  rw [h]
  cases v <;> cases u <;> rfl

theorem Totals.balanced_count (h : checks.drops = v.drops) (hpkts : t.pkts =
    t.pass + t.dropAllow + t.dropDeny + t.dropRL + 1) : (t.count checks).Balanced := by
  unfold Totals.count Totals.Balanced
  rw [h]
  cases v <;> simp [Verdict.drops, Drops.action] <;> omega

theorem srcUpdate_balanced {st : Option SrcStats} {len : Nat} {now : UInt64} {l4 : L4} {ttl : Nat}
    {drops : Drops} (h : drops = v.drops) (hst : ∀ r, st = some r → r.Balanced) :
    (srcUpdate st len now l4 ttl drops).stats.Balanced := by
  subst h
  cases st with
  | none => cases v <;> rfl
  | some r =>
    have hr := hst r rfl
    unfold SrcStats.Balanced at hr
    unfold srcUpdate SrcStats.add SrcStats.Balanced
    cases v <;> simp [Verdict.drops, Drops.action] <;> omega

end Counters

section Packets

variable {c : ShieldConfig} {ctx : XdpContext} {data : PacketBytes} {s : ShieldState}

/-- What one run of the program does to the counters and the buckets. -/
structure PacketAccounted (c : ShieldConfig) (ctx : XdpContext) (data : PacketBytes) (s : ShieldState) :
    Prop where
  charged : ∃ v : Verdict, v.action = (xdpKlshield c ctx data s).1 ∧
    ∀ u, ((xdpKlshield c ctx data s).2.totals ctx.cpu).counter u =
      (s.totals ctx.cpu).counter u + if u = v then 1 else 0
  others : ∀ cpu, cpu ≠ ctx.cpu → (xdpKlshield c ctx data s).2.totals cpu = s.totals cpu
  bucket4 : ∀ saddr, (xdpKlshield c ctx data s).2.rlState4 saddr ≠ s.rlState4 saddr →
    ∃ p, parsePacket data = .v4 p ∧ p.saddr = saddr ∧
      ¬ (c.enforce ∧ ¬ c.allowLpm.has saddr) ∧ c.denyHash saddr = none
  bucket6 : ∀ saddr, (xdpKlshield c ctx data s).2.rlState6 saddr ≠ s.rlState6 saddr →
    ∃ p, parsePacket data = .v6 p ∧ p.saddr = saddr ∧
      ¬ (c.enforce ∧ ¬ c.allow6Lpm.has saddr) ∧ c.deny6Hash saddr = none
  denied4 : ∀ p, parsePacket data = .v4 p → c.denyHash p.saddr ≠ none →
    (xdpKlshield c ctx data s).1 = .drop
  denied6 : ∀ p, parsePacket data = .v6 p → c.deny6Hash p.saddr ≠ none →
    (xdpKlshield c ctx data s).1 = .drop

/-- The records and the totals add up. -/
structure Accounted (s : ShieldState) : Prop where
  totals : ∀ cpu, (s.totals cpu).Balanced
  src4 : ∀ saddr st, s.src4Stats saddr = some st → st.Balanced
  src6 : ∀ saddr st, s.src6Stats saddr = some st → st.Balanced

theorem checkEdge4_verdict (c : ShieldConfig) (ctx : XdpContext) (p : IPPacket Addr4) (s : ShieldState) :
    ∃ v : Verdict, (checkEdge4 c ctx p s).1.drops = v.drops := by
  obtain ⟨v, hv⟩ : ∃ v : Verdict, (checkSource4 c ctx p s).1.drops = v.drops := checkSource_verdict ..
  exact checkEdge_verdict hv

theorem checkSource6_verdict (c : ShieldConfig) (ctx : XdpContext) (p : IPPacket Addr6) (s : ShieldState) :
    ∃ v : Verdict, (checkSource6 c ctx p s).1.drops = v.drops := checkSource_verdict ..

theorem ne_none_of_isSome {α : Type} {o : Option α} (h : o ≠ none) : o.isSome = true := by
  rwa [Option.isSome_iff_ne_none]

theorem xdpIPv4_denied {p : IPPacket Addr4} (h : c.denyHash p.saddr ≠ none) (len : Nat) :
    (xdpIPv4 c ctx len p s).1 = .drop := by
  have hsource : (checkSource4 c ctx p s).1.drops.action = .drop :=
    checkSource_denied (ne_none_of_isSome h)
  have hedge : checkEdge4 c ctx p s = ((checkSource4 c ctx p s).1, s.edgeRLState p.edgeKey) :=
    checkEdge_dropped hsource
  simp only [xdpIPv4, hedge]
  exact hsource

/-- A bucket changes only if it is the packet's own, past the allow and the deny check. -/
theorem update_bucket_ne {κ : Type} [DecidableEq κ] {m : BpfMap κ RlState} {k saddr : κ}
    {enforce inAllow room : Bool} {deny : Option UInt8} {use : Option RlCfg} {now : UInt64}
    (h : Function.update m k (checkSource enforce inAllow deny.isSome use (m k) now room).2 saddr ≠ m saddr) :
    k = saddr ∧ ¬ (enforce ∧ ¬ inAllow) ∧ deny = none := by
  by_cases hk : saddr = k
  · subst hk
    rw [Function.update_self] at h
    refine ⟨rfl, fun hallow => h ?_, ?_⟩
    · exact checkSource_bucket (.inl (by simp [hallow.1, hallow.2]))
    · by_contra hdeny
      exact h (checkSource_bucket (.inr (ne_none_of_isSome hdeny)))
  · rw [Function.update_of_ne hk] at h
    exact absurd rfl h

theorem counter_before (t : Totals) (len : Nat) (l4 : L4) (frags v4 v6 : Nat) (u : Verdict) :
    (({ t.addBasic len with v4 := v4, v6 := v6, ipv4Frags := frags }).addL4 l4).counter u = t.counter u := by
  cases u <;> rfl

theorem counter_addSource (t : Totals) (upd : SrcUpdate) (u : Verdict) :
    (t.addSource upd).counter u = t.counter u := by
  cases u <;> rfl

theorem xdpKlshield_other (h : parsePacket data = .other) (c : ShieldConfig) (ctx : XdpContext)
    (s : ShieldState) : xdpKlshield c ctx data s = (.pass, { s with
    totals := Function.update s.totals ctx.cpu { (s.totals ctx.cpu).addBasic data.length with
      pass := ((s.totals ctx.cpu).addBasic data.length).pass + 1 } }) := by
  simp only [xdpKlshield, h]

theorem xdpKlshield_v4 {p : IPPacket Addr4} (h : parsePacket data = .v4 p) (c : ShieldConfig)
    (ctx : XdpContext) (s : ShieldState) :
    xdpKlshield c ctx data s = xdpIPv4 c ctx data.length p s := by
  simp only [xdpKlshield, h]

theorem xdpKlshield_v6 {p : IPPacket Addr6} (h : parsePacket data = .v6 p) (c : ShieldConfig)
    (ctx : XdpContext) (s : ShieldState) :
    xdpKlshield c ctx data s = xdpIPv6 c ctx data.length p s := by
  simp only [xdpKlshield, h]

theorem packetAccounted_other (hparse : parsePacket data = .other) : PacketAccounted c ctx data s := by
  have hrun := xdpKlshield_other hparse c ctx s
  refine ⟨⟨.pass, ?_, fun u => ?_⟩, fun cpu hcpu => ?_, fun _ h => ?_, fun _ h => ?_, fun p h => ?_, fun p h => ?_⟩
  · rw [hrun]
    rfl
  · rw [hrun]
    simp only [Function.update_self]
    cases u <;> rfl
  · rw [hrun]
    exact Function.update_of_ne hcpu ..
  · rw [hrun] at h
    exact absurd rfl h
  · rw [hrun] at h
    exact absurd rfl h
  · exact absurd (hparse.symm.trans h) (by simp)
  · exact absurd (hparse.symm.trans h) (by simp)

theorem packetAccounted_v4 {p : IPPacket Addr4} (hparse : parsePacket data = .v4 p) :
    PacketAccounted c ctx data s := by
  have hrun := xdpKlshield_v4 hparse c ctx s
  obtain ⟨v, hv⟩ := checkEdge4_verdict c ctx p s
  refine ⟨⟨v, ?_, fun u => ?_⟩, fun cpu hcpu => ?_, fun saddr h => ?_, fun _ h => ?_, fun p' h hdeny => ?_,
    fun p' h => ?_⟩
  · rw [hrun]
    simp only [xdpIPv4, hv, v.drops_action]
  · rw [hrun]
    simp only [xdpIPv4, Function.update_self, counter_addSource, Totals.counter_count hv]
    rw [← counter_before (s.totals ctx.cpu)]
  · rw [hrun]
    exact Function.update_of_ne hcpu ..
  · rw [hrun] at h
    obtain ⟨rfl, hbucket⟩ := update_bucket_ne h
    exact ⟨p, hparse, rfl, hbucket⟩
  · rw [hrun] at h
    exact absurd rfl h
  · obtain rfl := Parsed.v4.inj (hparse.symm.trans h)
    rw [hrun]
    exact xdpIPv4_denied hdeny _
  · exact absurd (hparse.symm.trans h) (by simp)

theorem packetAccounted_v6 {p : IPPacket Addr6} (hparse : parsePacket data = .v6 p) :
    PacketAccounted c ctx data s := by
  have hrun := xdpKlshield_v6 hparse c ctx s
  obtain ⟨v, hv⟩ := checkSource6_verdict c ctx p s
  refine ⟨⟨v, ?_, fun u => ?_⟩, fun cpu hcpu => ?_, fun _ h => ?_, fun saddr h => ?_, fun p' h => ?_,
    fun p' h hdeny => ?_⟩
  · rw [hrun]
    simp only [xdpIPv6, hv, v.drops_action]
  · rw [hrun]
    simp only [xdpIPv6, Function.update_self, counter_addSource, Totals.counter_count hv]
    rw [← counter_before (s.totals ctx.cpu)]
  · rw [hrun]
    exact Function.update_of_ne hcpu ..
  · rw [hrun] at h
    exact absurd rfl h
  · rw [hrun] at h
    obtain ⟨rfl, hbucket⟩ := update_bucket_ne h
    exact ⟨p, hparse, rfl, hbucket⟩
  · exact absurd (hparse.symm.trans h) (by simp)
  · obtain rfl := Parsed.v6.inj (hparse.symm.trans h)
    rw [hrun]
    exact checkSource_denied (ne_none_of_isSome hdeny)

theorem packetAccounted (c : ShieldConfig) (ctx : XdpContext) (data : PacketBytes) (s : ShieldState) :
    PacketAccounted c ctx data s := by
  cases hparse : parsePacket data with
  | other => exact packetAccounted_other hparse
  | v4 p => exact packetAccounted_v4 hparse
  | v6 p => exact packetAccounted_v6 hparse

theorem Accounted.update_totals {t : Totals} {f : Nat → Totals} {cpu cpu' : Nat} (h : ∀ i, (f i).Balanced)
    (ht : t.Balanced) : (Function.update f cpu t cpu').Balanced := by
  by_cases hcpu : cpu' = cpu
  · subst hcpu
    rw [Function.update_self]
    exact ht
  · rw [Function.update_of_ne hcpu]
    exact h cpu'

theorem Accounted.update_src {κ : Type} [DecidableEq κ] {m : BpfMap κ SrcStats} {k saddr : κ}
    {r : Option SrcStats} {st : SrcStats} (h : ∀ saddr st, m saddr = some st → st.Balanced)
    (hr : ∀ st, r = some st → st.Balanced) (hst : Function.update m k r saddr = some st) : st.Balanced := by
  by_cases hk : saddr = k
  · subst hk
    rw [Function.update_self] at hst
    exact hr st hst
  · rw [Function.update_of_ne hk] at hst
    exact h saddr st hst

theorem SrcUpdate.balanced_of_store {upd : SrcUpdate} {room : Bool} {st : SrcStats}
    (h : upd.store room = some st) (hupd : upd.stats.Balanced) : st.Balanced := by
  unfold SrcUpdate.store at h
  split at h
  · cases h
  · rwa [Option.some.inj h] at hupd

theorem Accounted.packet (h : Accounted s) (c : ShieldConfig) (ctx : XdpContext) (data : PacketBytes) :
    Accounted (xdpKlshield c ctx data s).2 := by
  have hcpu := h.totals ctx.cpu
  unfold Totals.Balanced at hcpu
  cases hparse : parsePacket data with
  | other =>
    rw [xdpKlshield_other hparse]
    refine ⟨fun cpu => update_totals h.totals ?_, h.src4, h.src6⟩
    simp only [Totals.Balanced, Totals.addBasic]
    omega
  | v4 p =>
    obtain ⟨v, hv⟩ := checkEdge4_verdict c ctx p s
    rw [xdpKlshield_v4 hparse]
    refine ⟨fun cpu => update_totals h.totals ?_, fun saddr st hst => ?_, h.src6⟩
    · exact Totals.balanced_count hv (by simp only [Totals.addBasic, Totals.addL4]; omega)
    · refine update_src h.src4 (fun st hst => ?_) hst
      exact SrcUpdate.balanced_of_store hst (srcUpdate_balanced hv (h.src4 p.saddr))
  | v6 p =>
    obtain ⟨v, hv⟩ := checkSource6_verdict c ctx p s
    rw [xdpKlshield_v6 hparse]
    refine ⟨fun cpu => update_totals h.totals ?_, h.src4, fun saddr st hst => ?_⟩
    · exact Totals.balanced_count hv (by simp only [Totals.addBasic, Totals.addL4]; omega)
    · refine update_src h.src6 (fun st hst => ?_) hst
      exact SrcUpdate.balanced_of_store hst (srcUpdate_balanced hv (h.src6 p.saddr))

theorem Accounted.step {w w' : ShieldWorld} {e : ShieldEvent} (h : Accounted w.state) (hstep : ShieldStep w e w') :
    Accounted w'.state := by
  have hnone : ∀ st : SrcStats, none = some st → st.Balanced := fun _ hst => by cases hst
  cases e with
  | packet ctx data =>
    simp only [ShieldStep, shieldStep] at hstep
    split at hstep
    · obtain rfl := Option.some.inj hstep
      exact h.packet w.config ctx data
    · cases hstep
  | configure config =>
    obtain rfl := Option.some.inj hstep
    exact h
  | evictSrc4 saddr =>
    obtain rfl := Option.some.inj hstep
    exact ⟨h.totals, fun _ _ hst => update_src h.src4 hnone hst, h.src6⟩
  | evictSrc6 saddr =>
    obtain rfl := Option.some.inj hstep
    exact ⟨h.totals, h.src4, fun _ _ hst => update_src h.src6 hnone hst⟩
  | evictFlow key =>
    obtain rfl := Option.some.inj hstep
    exact ⟨h.totals, h.src4, h.src6⟩

/-- Over any run from zeroed counters the totals and the records add up, and every further packet
is charged to one verdict. -/
theorem verdicts_accounted {config : ShieldConfig} {rlState4 : BpfMap Addr4 RlState}
    {rlState6 : BpfMap Addr6 RlState} {edgeRLState : BpfMap EdgeKey RlState} {flow4Stats : BpfMap EdgeKey FlowStats}
    {clock : UInt64} {es : List ShieldEvent} {w : ShieldWorld}
    (h : Run ShieldStep ⟨config, { rlState4, rlState6, edgeRLState, flow4Stats }, clock⟩ es w) :
    Accounted w.state ∧ ∀ ctx data, PacketAccounted w.config ctx data w.state := by
  have hstart : Accounted ({ rlState4, rlState6, edgeRLState, flow4Stats } : ShieldState) :=
    ⟨fun _ => rfl, fun _ _ hst => (by cases hst), fun _ _ hst => (by cases hst)⟩
  have haccounted : Accounted w.state :=
    h.invariant (I := fun w => Accounted w.state) hstart fun hs hstep => hs.step hstep
  exact ⟨haccounted, fun ctx data => packetAccounted w.config ctx data w.state⟩

/-- A packet passes, its source is denied, and the next one is dropped. -/
def deniedAfterOne : List ShieldEvent :=
  [.packet ⟨0, 10, {}⟩ (udpPacket 0 53),
    .configure { denyHash := fun saddr => if saddr = fixtureSource then some 1 else none },
    .packet ⟨0, 20, {}⟩ (udpPacket 0 53)]

def runDeniedAfterOne : Option ShieldWorld := deniedAfterOne.foldlM shieldStep ⟨{}, {}, 0⟩

theorem denied_after_one_facts : (runDeniedAfterOne.any fun w => (w.state.totals 0).pass = 1 ∧
    (w.state.totals 0).dropDeny = 1 ∧
      (w.state.src4Stats fixtureSource).map (fun st => (st.pkts, st.pass, st.dropDeny)) = some (2, 1, 1)) = true := by
  decide +kernel

theorem denied_after_one_accounted : ∃ w, Run ShieldStep ⟨{}, {}, 0⟩ deniedAfterOne w ∧
    (w.state.totals 0).dropDeny = 1 ∧ Accounted w.state := by
  have hfacts := denied_after_one_facts
  rcases hw : runDeniedAfterOne with _ | w
  · simp [hw] at hfacts
  · rw [hw, Option.any_some] at hfacts
    have hrun : Run ShieldStep ⟨{}, {}, 0⟩ deniedAfterOne w := run_of_foldlM hw
    exact ⟨w, hrun, (of_decide_eq_true hfacts).2.1, (verdicts_accounted hrun).1⟩

end Packets

end Kernloom
