import Kernloom.BundleHistory

/-! The ceilings of a node after its updates: the one in the configuration, the one in the gate,
that of the pack and those of the enforcement bounds for the phase of the graph lifecycle. -/

namespace Kernloom

open Transition

/-- The moves of the graph lifecycle. -/
inductive PhaseChange where
  | tick (stats : Graph.GraphStats) (now : Time)
  | markProposalSent (now : Time)
  | applyFreeze (now : Time)
  | applyEnforce

def PhaseChange.apply (ctl : Graph.Controller) : PhaseChange → Graph.Controller
  | tick stats now => ctl.tick stats now
  | markProposalSent now => ctl.markProposalSent now
  | applyFreeze now => ctl.applyFreeze now
  | applyEnforce => ctl.applyEnforce

inductive LifecycleEvent (ρ : Type) where
  | bundle (raw : ρ) (now : Time)
  | phase (change : PhaseChange)

/-- A node with the bundle it accepted last. -/
structure GovernedNode (ρ : Type) where
  node : Node ρ
  bundle : Option RuntimeBundle

variable {ρ κ : Type} {services : BundleServices ρ κ} {nodeID : String}

section Steps

def governedUpdate (services : BundleServices ρ κ) (nodeID : String) (raw : ρ) (now : Time)
    (s : GovernedNode ρ) : GovernedNode ρ :=
  match applyBundleUpdate services nodeID raw now s.node with
  | (.accepted rb, n) => ⟨n, some rb⟩
  | (_, n) => ⟨n, s.bundle⟩

def LifecycleStep (services : BundleServices ρ κ) (nodeID : String) (s : GovernedNode ρ)
    (e : LifecycleEvent ρ) (t : GovernedNode ρ) : Prop :=
  match e with
  | .bundle raw now => governedUpdate services nodeID raw now s = t
  | .phase change => { s with node := { s.node with graphCtl := change.apply s.node.graphCtl } } = t

theorem governedUpdate_cases {s t : GovernedNode ρ} {raw : ρ} {now : Time}
    (h : governedUpdate services nodeID raw now s = t) :
    (t.bundle = s.bundle ∧ ∃ severities, t.node = { s.node with severities := severities }) ∨
    (∃ rb, t.bundle = some rb ∧ Trusted services nodeID raw now s.node.cfg rb ∧
      ¬ Stale services raw rb s.node.ms ∧ t.node = s.node.accept services raw rb now) := by
  unfold governedUpdate at h
  rcases hupdate : applyBundleUpdate services nodeID raw now s.node with ⟨outcome, n⟩
  rw [hupdate] at h
  rcases applyBundleUpdate_cases hupdate with ⟨rfl, -, rfl⟩ | ⟨_, rfl, -, -, rfl⟩ |
    ⟨_, rb, rfl, -, -, rfl⟩ | ⟨rb, rfl, -, htrust, hfresh, rfl⟩
  · subst h
    exact .inl ⟨rfl, s.node.severities, rfl⟩
  · subst h
    exact .inl ⟨rfl, s.node.severities, rfl⟩
  · subst h
    exact .inl ⟨rfl, _, rfl⟩
  · subst h
    exact .inr ⟨rb, rfl, htrust, hfresh, rfl⟩

end Steps

section Ceilings

open PolicyResolver

/-- The ceiling a pack derives from the registry of its bundle; a pack without capabilities sets
none. -/
def RuntimeBundle.packCeiling (rb : RuntimeBundle) : Option String :=
  let caps := runtimePolicyCapabilities rb.runtimePolicyPack
  if caps = [] then none
  else some (deriveRuntimePolicyMaxAction (capabilitySeverityFromSnapshot rb.registrySnapshot)
    rb.runtimePolicyPack caps)

/-- The gate has the ceiling of the configuration, and permits no more than the pack or the bounds
of the phase do. -/
structure CeilingsAgree (rb : RuntimeBundle) (n : Node ρ) : Prop where
  same : n.resolver.policyMaxAction = n.cfg.policyMaxAction
  pack : ∀ ceiling ∈ rb.packCeiling, ceilingRank n.resolver.policyMaxAction ≤ ceilingRank ceiling
  phase : n.graphCtl.maxAction rb.enforcementBounds ≠ "" →
    ceilingRank n.resolver.policyMaxAction ≤ ceilingRank (n.graphCtl.maxAction rb.enforcementBounds)
  noBlock : rb.enforcementBounds.allowBlock = false →
    ceilingRank n.resolver.policyMaxAction ≤ 2 ∧
      ∀ p, (n.resolver.resolve p).executableLevel ≠ "block"

/-- The ceiling in force when the pack of a bundle is written. -/
def ceilingAfterPack (rb : RuntimeBundle) (c : Cfg) : String :=
  rb.packCeiling.getD c.policyMaxAction

/-- The bounds of an accepted bundle name the ceiling its pack leaves, or none; and where they
forbid blocks the node is managed and that ceiling is one. -/
def BoundsFit (rb : RuntimeBundle) (now : Time) (n : Node ρ) : Prop :=
  let maxAct := (applyGraphLifecycle rb.graphLifecycle now n.graphCtl).maxAction rb.enforcementBounds
  (maxAct = "" ∨ maxAct = ceilingAfterPack rb n.cfg) ∧
    (rb.enforcementBounds.allowBlock = false →
      n.cfg.mode = "managed" ∧ ceilingRank (ceilingAfterPack rb n.cfg) ≤ 2)

/-- A change of phase lowers no bound below the ceiling in force. -/
def PhaseFits (rb : RuntimeBundle) (change : PhaseChange) (n : Node ρ) : Prop :=
  let maxAct := (change.apply n.graphCtl).maxAction rb.enforcementBounds
  maxAct = "" ∨ ceilingRank n.cfg.policyMaxAction ≤ ceilingRank maxAct

/-- The condition on a step. -/
def StepFits (services : BundleServices ρ κ) (nodeID : String) (s : GovernedNode ρ) :
    LifecycleEvent ρ → Prop
  | .bundle raw now => ∀ rb, Trusted services nodeID raw now s.node.cfg rb →
      ¬ Stale services raw rb s.node.ms → BoundsFit rb now s.node
  | .phase change => ∀ rb ∈ s.bundle, PhaseFits rb change s.node

variable {rb : RuntimeBundle} {raw : ρ} {now : Time} {n : Node ρ}

theorem applyRuntimePolicyPackToCfg_ceiling (c : Cfg) :
    (applyRuntimePolicyPackToCfg (capabilitySeverityFromSnapshot rb.registrySnapshot)
      rb.runtimePolicyPack c).policyMaxAction = ceilingAfterPack rb c := by
  unfold applyRuntimePolicyPackToCfg ceilingAfterPack RuntimeBundle.packCeiling
  by_cases hcaps : runtimePolicyCapabilities rb.runtimePolicyPack = []
  · simp [hcaps, applyRuntimeRulesToCfg]
  · simp [hcaps]

theorem applyRuntimePolicyPackToCfg_fixed (severities : Severities) (pack : RuntimePolicyPack) (c : Cfg) :
    (applyRuntimePolicyPackToCfg severities pack c).mode = c.mode ∧
      (applyRuntimePolicyPackToCfg severities pack c).hasPolicyPack = true := by
  unfold applyRuntimePolicyPackToCfg
  by_cases hcaps : runtimePolicyCapabilities pack = [] <;> simp [hcaps, applyRuntimeRulesToCfg]

theorem accept_resolver : (n.accept services raw rb now).resolver.policyMaxAction =
    ceilingAfterPack rb n.cfg := applyRuntimePolicyPackToCfg_ceiling n.cfg

theorem accept_cfg :
    let maxAct := (applyGraphLifecycle rb.graphLifecycle now n.graphCtl).maxAction rb.enforcementBounds
    (n.accept services raw rb now).cfg.policyMaxAction =
      if maxAct ≠ "" then maxAct
      else if ¬ rb.enforcementBounds.allowBlock ∧ ceilingAfterPack rb n.cfg = "" then "rate_limit_hard"
      else ceilingAfterPack rb n.cfg := by
  have hceiling := @applyRuntimePolicyPackToCfg_ceiling rb n.cfg
  simp only [Node.accept, acceptBundle, Node.withSnapshot, bundleCfg, applyAdaptersToCfg,
    applyProfileToCfg, applyFailoverToCfg, applyEnforcementBoundsToCfg, hceiling]

theorem accept_agrees_of_fits (h : BoundsFit rb now n) :
    CeilingsAgree rb (n.accept services raw rb now) := by
  obtain ⟨hmax, hblock⟩ := h
  have hres : (n.accept services raw rb now).resolver.policyMaxAction = ceilingAfterPack rb n.cfg :=
    accept_resolver
  have hphase : (n.accept services raw rb now).graphCtl =
      applyGraphLifecycle rb.graphLifecycle now n.graphCtl := rfl
  refine ⟨?_, ?_, ?_, ?_⟩
  · rw [hres, accept_cfg]
    rcases hmax with hmax | hmax
    · rw [if_neg (by simp [hmax])]
      by_cases hempty : ¬ rb.enforcementBounds.allowBlock ∧ ceilingAfterPack rb n.cfg = ""
      · have hrank := (hblock (by simpa using hempty.1)).2
        rw [hempty.2] at hrank
        simp [ceilingRank] at hrank
      · rw [if_neg hempty]
    · by_cases hne : (applyGraphLifecycle rb.graphLifecycle now n.graphCtl).maxAction
        rb.enforcementBounds ≠ ""
      · rw [if_pos hne, hmax]
      · rw [not_not] at hne
        rw [if_neg (by simp [hne]), ← hmax, hne]
        by_cases hempty : ¬ rb.enforcementBounds.allowBlock = true
        · have hrank := (hblock (by simpa using hempty)).2
          rw [← hmax, hne] at hrank
          simp [ceilingRank] at hrank
        · rw [if_neg (by simpa using hempty)]
  · intro ceiling hceiling
    rw [hres, ceilingAfterPack, Option.mem_def.mp hceiling, Option.getD_some]
  · rw [hres, hphase]
    intro hne
    rw [hmax.resolve_left hne]
  · intro hforbid
    obtain ⟨hmode, hrank⟩ := hblock hforbid
    have hmanaged := (applyRuntimePolicyPackToCfg_fixed
      (capabilitySeverityFromSnapshot rb.registrySnapshot) rb.runtimePolicyPack n.cfg).1.trans hmode
    exact ⟨by rwa [hres], fun p => resolve_level_ne_block _ hmanaged (by rwa [hres]) p⟩

theorem accept_resolver_mode : (n.accept services raw rb now).resolver.mode = n.cfg.mode :=
  (applyRuntimePolicyPackToCfg_fixed _ _ _).1

/-- An accepted bundle leaves its ceilings in agreement exactly when its bounds fit. -/
theorem accept_agrees_iff : CeilingsAgree rb (n.accept services raw rb now) ↔ BoundsFit rb now n := by
  refine ⟨fun h => ?_, accept_agrees_of_fits⟩
  have hres : (n.accept services raw rb now).resolver.policyMaxAction = ceilingAfterPack rb n.cfg :=
    accept_resolver
  have hsame := h.same
  rw [hres, accept_cfg] at hsame
  refine ⟨or_iff_not_imp_left.mpr fun hne => ?_, fun hforbid => ⟨?_, ?_⟩⟩
  · rw [if_pos hne] at hsame
    exact hsame.symm
  · by_contra hmode
    refine (h.noBlock hforbid).2 ⟨"", "", "block", ⟨"", "", ∅⟩, ∅, none, 0⟩ ?_
    simp [resolve, accept_resolver_mode, hmode]
  · rw [← hres]
    exact (h.noBlock hforbid).1

theorem CeilingsAgree.phaseChange {change : PhaseChange} (h : CeilingsAgree rb n)
    (hfit : PhaseFits rb change n) :
    CeilingsAgree rb { n with graphCtl := change.apply n.graphCtl } := by
  refine ⟨h.same, h.pack, fun hne => ?_, h.noBlock⟩
  have hrank := hfit.resolve_left hne
  rwa [← h.same] at hrank

/-- Over any updates and phase changes that fit, the ceilings agree after every accepted bundle. -/
theorem ceilings_agree {s t : GovernedNode ρ} {es : List (LifecycleEvent ρ)} (hstart : s.bundle = none)
    (h : Run (Guarded (StepFits services nodeID) (LifecycleStep services nodeID)) s es t) :
    ∀ rb ∈ t.bundle, CeilingsAgree rb t.node := by
  refine h.invariant (I := fun s => ∀ rb ∈ s.bundle, CeilingsAgree rb s.node) (by simp [hstart]) ?_
  rintro s e t hs ⟨hfit, hstep⟩ rb hrb
  cases e with
  | bundle raw now =>
    rcases governedUpdate_cases hstep with ⟨hsame, severities, hnode⟩ | ⟨rb', hnew, htrust, hfresh, hnode⟩
    · rw [hsame] at hrb
      obtain ⟨h₁, h₂, h₃, h₄⟩ := hs rb hrb
      rw [hnode]
      exact ⟨h₁, h₂, h₃, h₄⟩
    · rw [hnew, Option.mem_some_iff] at hrb
      obtain rfl := hrb
      rw [hnode]
      exact accept_agrees_of_fits (hfit rb' htrust hfresh)
  | phase change =>
    obtain rfl : _ = t := hstep
    exact (hs rb hrb).phaseChange (hfit rb hrb)

def freshNode : GovernedNode (String × RuntimeBundle) := ⟨fixtureNode, none⟩

theorem capped_facts :
    let t := governedUpdate fixtureServices "node-test" ("first", cappedBundle 1) 0 freshNode
    t.bundle = some (cappedBundle 1) ∧ t.node.resolver.policyMaxAction = "rate_limit_hard" ∧
      t.node.cfg.policyMaxAction = "rate_limit" := by decide +kernel

/-- The gate keeps the ceiling of the pack while the configuration has that of the bounds. -/
theorem capped_bundle_disagrees :
    ¬ ∀ (s t : GovernedNode (String × RuntimeBundle)) (es : List (LifecycleEvent (String × RuntimeBundle))),
      s.bundle = none → Run (LifecycleStep fixtureServices "node-test") s es t →
      ∀ rb ∈ t.bundle, CeilingsAgree rb t.node := by
  intro h
  obtain ⟨hbundle, hres, hcfg⟩ := capped_facts
  have hrun : Run (LifecycleStep fixtureServices "node-test") freshNode
    [.bundle ("first", cappedBundle 1) 0] _ := .singleton rfl
  have hsame := (h _ _ _ rfl hrun (cappedBundle 1) hbundle).same
  rw [hres, hcfg] at hsame
  exact absurd hsame (by decide)

/-- The node with the first bundle of the tests. -/
def fixtureGoverned : GovernedNode (String × RuntimeBundle) :=
  governedUpdate fixtureServices "node-test" ("first", fixtureBundle 1) 0 freshNode

theorem fixture_fits_facts :
    fixtureGoverned.bundle = some (fixtureBundle 1) ∧
      (applyGraphLifecycle (fixtureBundle 1).graphLifecycle 0 fixtureNode.graphCtl).maxAction
        (fixtureBundle 1).enforcementBounds = "" ∧
      ceilingAfterPack (fixtureBundle 1) fixtureNode.cfg = "rate_limit_hard" := by decide +kernel

/-- The first bundle of the tests fits, and its ceilings agree through the freeze of the graph. -/
theorem fixture_agrees :
    CeilingsAgree (fixtureBundle 1) { fixtureGoverned.node with
      graphCtl := fixtureGoverned.node.graphCtl.applyFreeze Duration.second } := by
  obtain ⟨hbundle, hmax, hceiling⟩ := fixture_fits_facts
  have hupdate : Guarded (StepFits fixtureServices "node-test") (LifecycleStep fixtureServices "node-test")
      freshNode (.bundle ("first", fixtureBundle 1) 0) fixtureGoverned := by
    refine ⟨?_, rfl⟩
    rintro rb ⟨hparse, -⟩ -
    obtain rfl : fixtureBundle 1 = rb := Except.ok.inj hparse
    exact ⟨.inl hmax, fun _ => ⟨rfl, by rw [freshNode, hceiling]; decide⟩⟩
  have hfreeze : Guarded (StepFits fixtureServices "node-test") (LifecycleStep fixtureServices "node-test")
      fixtureGoverned (.phase (.applyFreeze Duration.second)) { fixtureGoverned with
        node := { fixtureGoverned.node with
          graphCtl := fixtureGoverned.node.graphCtl.applyFreeze Duration.second } } := by
    refine ⟨?_, rfl⟩
    intro rb hrb
    rw [hbundle, Option.mem_some_iff] at hrb
    obtain rfl := hrb
    exact .inl rfl
  exact ceilings_agree rfl (.cons hupdate (.singleton hfreeze)) (fixtureBundle 1) hbundle

end Ceilings

end Kernloom
