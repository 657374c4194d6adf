import Kernloom.BundleHistory

/-! Two nodes with the same static configuration and different histories receive one bundle: what
the histories left in the configuration decides whether both end up the same. -/

namespace Kernloom

open Transition

variable {ρ κ : Type} {services : BundleServices ρ κ} {nodeID : String} {raw : ρ}
  {now now' : Time} {rb : RuntimeBundle}

section Checks

/-- The rules of a pack stay within a ceiling. -/
def RulesWithin (rb : RuntimeBundle) (maxAction : String) : Prop :=
  ∀ rule ∈ effectiveRules rb.runtimePolicyPack,
    runtimeActionSeverity rb.registrySnapshot rule.action ≤
      maxActionSeverity rb.registrySnapshot maxAction

/-- The verdict on a pack depends on the ceiling only through its rules. -/
theorem validateRuntimePolicyPack_congr {celProgram : String → Check} {node node' : NodeRuntime}
    (hcaps : node.capabilities = node'.capabilities)
    (hrules : RulesWithin rb node.maxAction ↔ RulesWithin rb node'.maxAction) :
    validateRuntimePolicyPack celProgram rb.runtimePolicyPack rb.registrySnapshot node = .ok () ↔
      validateRuntimePolicyPack celProgram rb.runtimePolicyPack rb.registrySnapshot node' = .ok () := by
  have hmax (maxAction : String) : checkMaxAction rb.runtimePolicyPack maxAction rb.registrySnapshot =
      .ok () ↔ RulesWithin rb maxAction := by
    rw [checkMaxAction, forM_check_ok]
    exact forall₂_congr fun _ _ => check_eq_ok
  have hcheck : checkCapabilities rb.runtimePolicyPack node rb.registrySnapshot =
      checkCapabilities rb.runtimePolicyPack node' rb.registrySnapshot := by
    rw [checkCapabilities, hcaps, checkCapabilities]
  simp only [validateRuntimePolicyPack, check_bind_ok, hmax, hcheck, hrules]

/-- What a configuration keeps through every update. -/
def SameStatic (c c' : Cfg) : Prop :=
  c.mode = c'.mode ∧ c.policyVerifyKeyPath = c'.policyVerifyKeyPath ∧ c.statePath = c'.statePath

theorem SameStatic.symm {c c' : Cfg} (h : SameStatic c c') : SameStatic c' c :=
  ⟨h.1.symm, h.2.1.symm, h.2.2.symm⟩

theorem SameStatic.trans {c c' c'' : Cfg} (h : SameStatic c c') (h' : SameStatic c' c'') :
    SameStatic c c'' := ⟨h.1.trans h'.1, h.2.1.trans h'.2.1, h.2.2.trans h'.2.2⟩

theorem trustRuntimeBundle_congr {c c' : Cfg} (hstatic : SameStatic c c')
    (hadapters : joinText rb.preferredAdapters "," ≠ "" ∨ c.adapters = c'.adapters)
    (hrules : RulesWithin rb (maxActionForBundleConformance rb c) ↔
      RulesWithin rb (maxActionForBundleConformance rb c')) :
    trustRuntimeBundle services rb c nodeID now = .ok () ↔
      trustRuntimeBundle services rb c' nodeID now = .ok () := by
  obtain ⟨hmode, hkey, -⟩ := hstatic
  have hcaps : runtimeCapabilitiesForBundle rb c = runtimeCapabilitiesForBundle rb c' := by
    unfold runtimeCapabilitiesForBundle Cfg.adapterNames
    rcases hadapters with hnamed | hsame
    · have hne : rb.preferredAdapters ≠ [] := by
        intro hnil
        rw [hnil, joinText_nil] at hnamed
        exact hnamed rfl
      simp only [hne, if_false]
    · rw [hsame]
  have hpack (celProgram : String → Check) := @validateRuntimePolicyPack_congr _ celProgram
    (nodeRuntimeForBundle rb c nodeID) (nodeRuntimeForBundle rb c' nodeID) hcaps hrules
  simp only [trustRuntimeBundle, hmode, hkey]
  split
  · split
    · rfl
    · cases services.loadPublicKey c'.policyVerifyKeyPath with
      | error err => rfl
      | ok key =>
        simp only [validateRuntimeBundle, check_bind_ok, hpack]
        rfl
  · simp only [check_bind_ok, hpack]

end Checks

section Fields

/-- Two nodes that show the same policy: configuration, gate, broker gates and capability table. -/
structure SamePolicy (n n' : Node ρ) : Prop where
  cfg : n.cfg = n'.cfg
  resolver : n.resolver = n'.resolver
  brokers : n.brokers = n'.brokers
  severities : n.severities = n'.severities

/-- What a pack that names no capability leaves as it was. -/
def SameCeiling (c c' : Cfg) : Prop :=
  c.policyMaxAction = c'.policyMaxAction ∧ c.capabilitiesRequired = c'.capabilitiesRequired ∧
    c.graphFreezeAllowBlock = c'.graphFreezeAllowBlock ∧
    c.graphFreezeMaxAction = c'.graphFreezeMaxAction

/-- Whatever a bundle leaves as it was is alike in two nodes: each field it does not name, the
bound of the phase it ends in, and whether its rules keep within the ceiling in force. -/
structure LeftAlike (rb : RuntimeBundle) (now now' : Time) (n n' : Node ρ) : Prop where
  ceiling : runtimePolicyCapabilities rb.runtimePolicyPack ≠ [] ∨ SameCeiling n.cfg n'.cfg
  failover : rb.failoverBehavior ≠ "" ∨ n.cfg.failMode = n'.cfg.failMode
  profile : rb.runtimePDPProfile.name ≠ "" ∨ n.cfg.profileName = n'.cfg.profileName
  adapters : joinText rb.preferredAdapters "," ≠ "" ∨ n.cfg.adapters = n'.cfg.adapters
  phase : (applyGraphLifecycle rb.graphLifecycle now n.graphCtl).maxAction rb.enforcementBounds =
    (applyGraphLifecycle rb.graphLifecycle now' n'.graphCtl).maxAction rb.enforcementBounds
  rules : RulesWithin rb (maxActionForBundleConformance rb n.cfg) ↔
    RulesWithin rb (maxActionForBundleConformance rb n'.cfg)

/-- The fields a pack writes. -/
structure SamePack (c c' : Cfg) : Prop where
  ceiling : SameCeiling c c'
  hasPolicyPack : c.hasPolicyPack = c'.hasPolicyPack
  guardrails : c.runtimeGuardrails = c'.runtimeGuardrails
  detectionRules : c.runtimeDetectionRules = c'.runtimeDetectionRules
  responseRules : c.runtimeResponseRules = c'.runtimeResponseRules
  alertRoutes : c.runtimeAlertRoutes = c'.runtimeAlertRoutes
  accessPolicies : c.runtimeAccessPolicies = c'.runtimeAccessPolicies
  lifecycle : c.runtimeAutonomyLifecycle = c'.runtimeAutonomyLifecycle

theorem applyRuntimePolicyPackToCfg_samePack (severities : Severities) {pack : RuntimePolicyPack}
    {c c' : Cfg} (h : runtimePolicyCapabilities pack ≠ [] ∨ SameCeiling c c') :
    SamePack (applyRuntimePolicyPackToCfg severities pack c)
      (applyRuntimePolicyPackToCfg severities pack c') := by
  unfold applyRuntimePolicyPackToCfg
  by_cases hcaps : runtimePolicyCapabilities pack = []
  · simp only [hcaps, if_true]
    exact ⟨h.resolve_left (not_not.mpr hcaps), rfl, rfl, rfl, rfl, rfl, rfl, rfl⟩
  · simp only [hcaps, if_false]
    exact ⟨⟨rfl, rfl, rfl, rfl⟩, rfl, rfl, rfl, rfl, rfl, rfl, rfl⟩

/-- What no update changes: the static fields, and each broker but for its gates. -/
structure SameNode (n n' : Node ρ) : Prop where
  static : SameStatic n.cfg n'.cfg
  brokers : ∀ lifecycle, syncActionBrokerAutonomy lifecycle n.brokers =
    syncActionBrokerAutonomy lifecycle n'.brokers

theorem SameNode.refl (n : Node ρ) : SameNode n n := ⟨⟨rfl, rfl, rfl⟩, fun _ => rfl⟩

theorem SameNode.symm {n n' : Node ρ} (h : SameNode n n') : SameNode n' n :=
  ⟨h.static.symm, fun l => (h.brokers l).symm⟩

theorem SameNode.trans {n n' n'' : Node ρ} (h : SameNode n n') (h' : SameNode n' n'') : SameNode n n'' :=
  ⟨h.static.trans h'.static, fun l => (h.brokers l).trans (h'.brokers l)⟩

theorem applyRuntimePolicyPackToCfg_static (severities : Severities) (pack : RuntimePolicyPack) (c : Cfg) :
    SameStatic c (applyRuntimePolicyPackToCfg severities pack c) := by
  unfold applyRuntimePolicyPackToCfg
  by_cases hcaps : runtimePolicyCapabilities pack = [] <;>
    simp [hcaps, applyRuntimeRulesToCfg, SameStatic]

/-- The fields of the bundle itself, that its pack does not write. -/
theorem applyRuntimePolicyPackToCfg_named (severities : Severities) (pack : RuntimePolicyPack) (c : Cfg) :
    (applyRuntimePolicyPackToCfg severities pack c).failMode = c.failMode ∧
      (applyRuntimePolicyPackToCfg severities pack c).profileName = c.profileName ∧
      (applyRuntimePolicyPackToCfg severities pack c).adapters = c.adapters := by
  unfold applyRuntimePolicyPackToCfg
  by_cases hcaps : runtimePolicyCapabilities pack = [] <;> simp [hcaps, applyRuntimeRulesToCfg]

theorem bundleCfg_static (severities : Severities) (graphCtl : Graph.Controller) (c : Cfg) :
    SameStatic c (bundleCfg rb severities graphCtl c) := by
  simp only [SameStatic, bundleCfg, applyAdaptersToCfg, applyProfileToCfg, applyFailoverToCfg,
    applyEnforcementBoundsToCfg]
  exact applyRuntimePolicyPackToCfg_static severities rb.runtimePolicyPack c

theorem syncActionBrokerAutonomy_sync (lifecycle lifecycle' : Option RuntimeAutonomyLifecycleSpec)
    (brokers : List Broker) :
    syncActionBrokerAutonomy lifecycle (syncActionBrokerAutonomy lifecycle' brokers) =
      syncActionBrokerAutonomy lifecycle brokers := by
  simp only [syncActionBrokerAutonomy, List.map_map]
  exact List.map_congr_left fun b _ => rfl

theorem accept_sameNode {n : Node ρ} : SameNode n (n.accept services raw rb now) where
  static := bundleCfg_static _ _ _
  brokers _ := (syncActionBrokerAutonomy_sync _ _ _).symm

theorem BundleStep.sameNode {n n' : Node ρ} {e : ρ × Time} (h : BundleStep services nodeID n e n') :
    SameNode n n' := by
  rcases h.cases with rfl | ⟨rb, -, -, rfl⟩ | ⟨rb, -, -, -, rfl⟩
  · exact .refl _
  · exact ⟨⟨rfl, rfl, rfl⟩, fun _ => rfl⟩
  · exact accept_sameNode

theorem run_sameNode {n n' : Node ρ} {es : List (ρ × Time)} (h : Run (BundleStep services nodeID) n es n') :
    SameNode n n' :=
  h.invariant (I := SameNode n) (.refl n) fun hs hstep => hs.trans hstep.sameNode

theorem named_or_eq {named value value' : String} (h : named ≠ "" ∨ value = value') :
    (if named ≠ "" then named else value) = if named ≠ "" then named else value' := by
  rcases h with h | rfl
  · rw [if_pos h, if_pos h]
  · rfl

theorem applyRuntimePolicyPackToCfg_static_congr (severities : Severities) (pack : RuntimePolicyPack)
    {c c' : Cfg} (h : SameStatic c c') : SameStatic (applyRuntimePolicyPackToCfg severities pack c)
      (applyRuntimePolicyPackToCfg severities pack c') :=
  (applyRuntimePolicyPackToCfg_static severities pack c).symm.trans
    (h.trans (applyRuntimePolicyPackToCfg_static severities pack c'))

theorem bundleCfg_congr (severities : Severities) {n n' : Node ρ} (hnode : SameNode n n')
    (h : LeftAlike rb now now' n n') :
    bundleCfg rb severities (applyGraphLifecycle rb.graphLifecycle now n.graphCtl) n.cfg =
      bundleCfg rb severities (applyGraphLifecycle rb.graphLifecycle now' n'.graphCtl) n'.cfg := by
  have hstatic := applyRuntimePolicyPackToCfg_static_congr severities rb.runtimePolicyPack hnode.static
  have hpack := applyRuntimePolicyPackToCfg_samePack severities h.ceiling
  obtain ⟨hfail, hprofile, hadapters⟩ :=
    applyRuntimePolicyPackToCfg_named severities rb.runtimePolicyPack n.cfg
  obtain ⟨hfail', hprofile', hadapters'⟩ :=
    applyRuntimePolicyPackToCfg_named severities rb.runtimePolicyPack n'.cfg
  obtain ⟨hmax, hcaps, hfreeze, hfreezeMax⟩ := hpack.ceiling
  simp only [bundleCfg, applyAdaptersToCfg, applyProfileToCfg, applyFailoverToCfg,
    applyEnforcementBoundsToCfg, hfail, hprofile, hadapters, hfail', hprofile', hadapters', h.phase,
    hmax, hcaps, hfreeze, hfreezeMax, named_or_eq h.failover, named_or_eq h.profile,
    named_or_eq h.adapters, hstatic.1, hstatic.2.1, hstatic.2.2, hpack.hasPolicyPack, hpack.guardrails,
    hpack.detectionRules, hpack.responseRules, hpack.alertRoutes, hpack.accessPolicies, hpack.lifecycle]

theorem buildPolicyResolver_congr {c c' : Cfg} (hmode : c.mode = c'.mode) (h : SamePack c c') :
    c.buildPolicyResolver = c'.buildPolicyResolver := by
  simp only [Cfg.buildPolicyResolver, hmode, h.ceiling.1, h.ceiling.2.1, h.hasPolicyPack, h.guardrails,
    h.lifecycle]

/-- A bundle accepted by two nodes that differ in nothing it leaves as it was. -/
theorem accept_samePolicy {n n' : Node ρ} (hnode : SameNode n n') (h : LeftAlike rb now now' n n') :
    SamePolicy (n.accept services raw rb now) (n'.accept services raw rb now') := by
  have hpack := applyRuntimePolicyPackToCfg_samePack
    (capabilitySeverityFromSnapshot rb.registrySnapshot) h.ceiling
  have hstatic := applyRuntimePolicyPackToCfg_static_congr
    (capabilitySeverityFromSnapshot rb.registrySnapshot) rb.runtimePolicyPack hnode.static
  have hcfg := bundleCfg_congr (capabilitySeverityFromSnapshot rb.registrySnapshot) hnode h
  refine ⟨hcfg, buildPolicyResolver_congr hstatic.1 hpack, ?_, rfl⟩
  simp only [Node.accept, acceptBundle, Node.withSnapshot]
  rw [hpack.lifecycle, hnode.brokers]

end Fields

section Histories

/-- The generation on record is the first one, or that of a bundle of the history. -/
theorem run_generation {n n' : Node ρ} {es : List (ρ × Time)} (h : Run (BundleStep services nodeID) n es n') :
    n'.ms = n.ms ∨ ∃ e ∈ es, ∃ rb, services.parseBundle e.1 = .ok rb ∧
      n'.ms = ⟨rb.generation, services.bundleHash e.1⟩ := by
  induction h with
  | nil => exact .inl rfl
  | @cons s t u e es hstep hrest ih =>
    have hfirst : t.ms = s.ms ∨ ∃ rb, services.parseBundle e.1 = .ok rb ∧
        t.ms = ⟨rb.generation, services.bundleHash e.1⟩ := by
      rcases hstep.cases with rfl | ⟨rb, -, -, rfl⟩ | ⟨rb, -, htrust, -, rfl⟩
      · exact .inl rfl
      · exact .inl rfl
      · exact .inr ⟨rb, htrust.1, rfl⟩
    rcases ih with hsame | ⟨e', he', hlast⟩
    · rw [hsame]
      rcases hfirst with hkept | hset
      · exact .inl hkept
      · exact .inr ⟨e, List.mem_cons_self, hset⟩
    · exact .inr ⟨e', List.mem_cons_of_mem _ he', hlast⟩

/-- A bundle newer than a history, under a digest of its own, is neither stale nor a repetition. -/
theorem newer_not_stale {n n' : Node ρ} {es : List (ρ × Time)}
    (h : Run (BundleStep services nodeID) n es n') (hfirst : n.ms = {})
    (hparse : services.parseBundle raw = .ok rb) (hdigest : services.bundleHash raw ≠ "")
    (hcollision : ∀ e ∈ es, services.bundleHash e.1 = services.bundleHash raw → e.1 = raw)
    (hnewer : ∀ e ∈ es, ∀ rb', services.parseBundle e.1 = .ok rb' → rb'.generation < rb.generation) :
    services.bundleHash raw ≠ n'.ms.bundleHash ∧ ¬ Stale services raw rb n'.ms := by
  rcases run_generation h with hms | ⟨e, he, rb', hparse', hms⟩
  · rw [hms, hfirst]
    exact ⟨hdigest, fun hstale => absurd hstale.1 (lt_irrefl _)⟩
  · have hlt := hnewer e he rb' hparse'
    rw [hms]
    refine ⟨fun hhash => ?_, ?_⟩
    · rw [hcollision e he hhash.symm, hparse, Except.ok.injEq] at hparse'
      rw [hparse'] at hlt
      exact lt_irrefl _ hlt
    · rintro ⟨-, hold | ⟨hsame, -⟩⟩
      · exact lt_asymm hlt hold
      · exact hlt.ne hsame.symm

/-- A newer bundle gives two nodes of one static configuration the same verdict and the same policy,
when their histories left alike whatever it leaves as it was. -/
theorem updates_path_independent {n n₁ n₂ : Node ρ} {es₁ es₂ : List (ρ × Time)}
    (h₁ : Run (BundleStep services nodeID) n es₁ n₁) (h₂ : Run (BundleStep services nodeID) n es₂ n₂)
    (hfirst : n.ms = {}) (hdigest : services.bundleHash raw ≠ "")
    (hcollision : ∀ e ∈ es₁ ++ es₂, services.bundleHash e.1 = services.bundleHash raw → e.1 = raw)
    (hnewer : ∀ rb, services.parseBundle raw = .ok rb → ∀ e ∈ es₁ ++ es₂, ∀ rb',
      services.parseBundle e.1 = .ok rb' → rb'.generation < rb.generation)
    (hleft : ∀ rb, services.parseBundle raw = .ok rb → LeftAlike rb now now n₁ n₂) :
    let update₁ := applyBundleUpdate services nodeID raw now n₁
    let update₂ := applyBundleUpdate services nodeID raw now n₂
    ((∃ rb, update₁.1 = .accepted rb) ↔ ∃ rb, update₂.1 = .accepted rb) ∧
      ((∃ rb, update₁.1 = .accepted rb) → SamePolicy update₁.2 update₂.2) := by
  have hnode : SameNode n₁ n₂ := (run_sameNode h₁).symm.trans (run_sameNode h₂)
  have hfresh₁ (rb : RuntimeBundle) (hparse : services.parseBundle raw = .ok rb) :=
    newer_not_stale h₁ hfirst hparse hdigest (fun e he => hcollision e (List.mem_append_left _ he))
      (fun e he => hnewer rb hparse e (List.mem_append_left _ he))
  have hfresh₂ (rb : RuntimeBundle) (hparse : services.parseBundle raw = .ok rb) :=
    newer_not_stale h₂ hfirst hparse hdigest (fun e he => hcollision e (List.mem_append_right _ he))
      (fun e he => hnewer rb hparse e (List.mem_append_right _ he))
  have htrust (rb : RuntimeBundle) (hparse : services.parseBundle raw = .ok rb) :
      Trusted services nodeID raw now n₁.cfg rb ↔ Trusted services nodeID raw now n₂.cfg rb :=
    and_congr_right fun _ => trustRuntimeBundle_congr hnode.static (hleft rb hparse).adapters
      (hleft rb hparse).rules
  have haccept : (∃ rb, (applyBundleUpdate services nodeID raw now n₁).1 = .accepted rb) ↔
      ∃ rb, (applyBundleUpdate services nodeID raw now n₂).1 = .accepted rb := by
    rw [accepted_iff, accepted_iff]
    constructor
    · rintro ⟨-, rb, hrb, -⟩
      exact ⟨(hfresh₂ rb hrb.1).1, rb, (htrust rb hrb.1).mp hrb, (hfresh₂ rb hrb.1).2⟩
    · rintro ⟨-, rb, hrb, -⟩
      exact ⟨(hfresh₁ rb hrb.1).1, rb, (htrust rb hrb.1).mpr hrb, (hfresh₁ rb hrb.1).2⟩
  refine ⟨haccept, fun h => ?_⟩
  obtain ⟨rb₁, hparse₁, hnode₁⟩ := accepted_node h
  obtain ⟨rb₂, hparse₂, hnode₂⟩ := accepted_node (haccept.mp h)
  obtain rfl : rb₁ = rb₂ := Except.ok.inj (hparse₁.symm.trans hparse₂)
  rw [hnode₁, hnode₂]
  exact accept_samePolicy hnode (hleft rb₁ hparse₁)

def afterBundle (raw : String × RuntimeBundle) : Node (String × RuntimeBundle) :=
  (applyBundleUpdate fixtureServices "node-test" raw 0 fixtureNode).2

theorem run_afterBundle (raw : String × RuntimeBundle) :
    Run (BundleStep fixtureServices "node-test") fixtureNode [(raw, 0)] (afterBundle raw) :=
  .singleton rfl

theorem ratchet_facts :
    (applyBundleUpdate fixtureServices "node-test" ("second", fixtureBundle 2) 0 fixtureNode).1 =
      .accepted (fixtureBundle 2) ∧
    (applyBundleUpdate fixtureServices "node-test" ("second", fixtureBundle 2) 0
      (afterBundle ("first", cappedBundle 1))).1 = .rejected (.untrusted
        "runtime action \"enforce.traffic.rate_limit\" level \"hard\" exceeds node max_action \"rate_limit\"") := by
  decide +kernel

/-- After a bundle that capped the node, a newer one is refused for exceeding that cap. -/
theorem capped_history_refuses :
    ¬ ∀ (n n₁ n₂ : Node (String × RuntimeBundle)) (es₁ es₂ : List ((String × RuntimeBundle) × Time))
      (raw : String × RuntimeBundle) (now : Time),
      Run (BundleStep fixtureServices "node-test") n es₁ n₁ →
      Run (BundleStep fixtureServices "node-test") n es₂ n₂ → n.ms = {} →
      (∀ e ∈ es₁ ++ es₂, e.1.2.generation < raw.2.generation ∧ e.1.1 ≠ raw.1) →
      ((∃ rb, (applyBundleUpdate fixtureServices "node-test" raw now n₁).1 = .accepted rb) ↔
        ∃ rb, (applyBundleUpdate fixtureServices "node-test" raw now n₂).1 = .accepted rb) := by
  intro h
  obtain ⟨haccept, hreject⟩ := ratchet_facts
  have hrun := run_afterBundle ("first", cappedBundle 1)
  obtain ⟨rb, hrb⟩ := (h _ _ _ _ _ ("second", fixtureBundle 2) 0 .nil hrun rfl (by decide)).mp ⟨_, haccept⟩
  cases hrb.symm.trans hreject

theorem fixture_left_facts :
    runtimePolicyCapabilities (fixtureBundle 2).runtimePolicyPack ≠ [] ∧
    joinText (fixtureBundle 2).preferredAdapters "," ≠ "" ∧
    maxActionForBundleConformance (fixtureBundle 2) fixtureNode.cfg =
      maxActionForBundleConformance (fixtureBundle 2) (afterBundle ("first", fixtureBundle 1)).cfg ∧
    (applyBundleUpdate fixtureServices "node-test" ("second", fixtureBundle 2) 0 fixtureNode).1 =
      .accepted (fixtureBundle 2) ∧
    (applyGraphLifecycle (fixtureBundle 2).graphLifecycle 0 fixtureNode.graphCtl).maxAction
        (fixtureBundle 2).enforcementBounds =
      (applyGraphLifecycle (fixtureBundle 2).graphLifecycle 0
        (afterBundle ("first", fixtureBundle 1)).graphCtl).maxAction
        (fixtureBundle 2).enforcementBounds := by decide +kernel

/-- The second bundle of the tests makes the same policy with and without the first. -/
theorem fixture_path_independent :
    SamePolicy (applyBundleUpdate fixtureServices "node-test" ("second", fixtureBundle 2) 0 fixtureNode).2
      (applyBundleUpdate fixtureServices "node-test" ("second", fixtureBundle 2) 0
        (afterBundle ("first", fixtureBundle 1))).2 := by
  obtain ⟨hcaps, hadapters, hmax, haccept, hphase⟩ := fixture_left_facts
  refine (updates_path_independent .nil (run_afterBundle ("first", fixtureBundle 1)) rfl (by decide)
    (by decide) ?_ ?_).2 ⟨_, haccept⟩
  · rintro rb hparse e he rb' hparse'
    obtain rfl : fixtureBundle 2 = rb := Except.ok.inj hparse
    obtain rfl : e = (("first", fixtureBundle 1), 0) := by simpa using he
    obtain rfl : fixtureBundle 1 = rb' := Except.ok.inj hparse'
    decide
  · rintro rb hparse
    obtain rfl : fixtureBundle 2 = rb := Except.ok.inj hparse
    exact ⟨.inl hcaps, .inl (by decide), .inl (by decide), .inl hadapters, hphase, by rw [hmax]⟩

end Histories

end Kernloom
