import Kernloom.PackHandoff
import Kernloom.PathIndependence

/-! A start of the node: the static configuration, the policy file, the saved state and the last
known good bundle, which is replayed through the same update as a received one. -/

namespace Kernloom

open Transition

/-- What a start finds that no bundle changes. -/
structure Startup where
  cfg : Cfg
  graphNodeID : String := ""
  pdpConfigGiven : Bool := false
  featureProfileGiven : Bool := false
  policyFile : Option LoadedPolicyFile := none
  severities : Severities
  brokers : List Broker := []
  bootstrap : Bool := false

/-- The state file. -/
structure SavedState where
  bundleGeneration : Int := 0
  bundleHash : String := ""
  forgePackName : String := ""
  graphPhase : Option Graph.Phase := none
  graphStartedAt : Time := 0
  bootstrap : Option Bootstrap.State := none

variable {ρ κ : Type}

section Start

variable (services : BundleServices ρ κ) (nodeID : String) (st : Startup)

/-- A trusted file sets the node's severities whenever it is read. -/
def readBundleFile (file : Option ρ) (c : Cfg) (now : Time) (severities : Severities) :
    Option RuntimeBundle × Severities :=
  match file.map fun raw => parseTrustedRuntimeBundle services raw c st.graphNodeID now with
  | some (.ok (rb, severities)) => (some rb, severities)
  | _ => (none, severities)

/-- The profile and the adapters of the bundle, where no PDP configuration is given. -/
def startProfile (file : Option ρ) (now : Time) : Cfg × Severities :=
  if st.cfg.mode = "managed" ∧ ¬ st.pdpConfigGiven then
    match readBundleFile services st file st.cfg now st.severities with
    | (some rb, severities) =>
      (applyAdaptersToCfg (joinText rb.preferredAdapters ",")
        (applyProfileToCfg rb.runtimePDPProfile.name st.cfg), severities)
    | (none, severities) => (st.cfg, severities)
  else (st.cfg, st.severities)

/-- The configuration the gate and the brokers are built from. -/
def startCfg (file : Option ρ) (now : Time) : Cfg :=
  let profile := startProfile services st file now
  match st.policyFile with
  | some loaded => applyLoadedPolicyToCfg profile.2 loaded profile.1
  | none => profile.1

def startSeverities (file : Option ρ) (now : Time) : Severities :=
  let severities := (startProfile services st file now).2
  if st.featureProfileGiven then severities
  else (readBundleFile services st file (startCfg services st file now) now severities).2

/-- The node just before the last known good bundle is replayed. -/
def bootNode (saved : Option SavedState) (file : Option ρ) (now : Time) : Node ρ :=
  let c := startCfg services st file now
  { cfg := c
    resolver := c.buildPolicyResolver
    severities := startSeverities services st file now
    bsCtl := .new { enabled := st.bootstrap }
      ((saved.bind (·.bootstrap)).filter (·.enabled)) now
    graphCtl := .new { enabled := c.mode = "managed" } (saved.bind (·.graphPhase))
      (saved.elim 0 (·.graphStartedAt)) now
    ms := saved.elim {} fun s => ⟨s.bundleGeneration, s.bundleHash⟩
    brokers := syncActionBrokerAutonomy c.runtimeAutonomyLifecycle st.brokers
    bundleFile := file }

/-- A pack applied before the state was saved counts as loaded. -/
def notePack (saved : Option SavedState) (c : Cfg) : Cfg :=
  { c with hasPolicyPack := c.hasPolicyPack || saved.any (·.forgePackName ≠ "") }

def bootState (saved : Option SavedState) (file : Option ρ) (now : Time) : HandoffState ρ where
  node := bootNode services st saved file now
  active := st.policyFile.bind (·.runtime)

/-- The update of the main loop: the bundle is taken and its pack sent. -/
def updateBundle (raw : ρ) (now : Time) (s : HandoffState ρ) : HandoffState ρ :=
  let t := takeBundle services nodeID raw now s
  match t.bundlePending with
  | some pack => { t.offer pack with bundlePending := none }
  | none => t

def start (saved : Option SavedState) (file : Option ρ) (now : Time) : HandoffState ρ :=
  let boot := bootState services st saved file now
  let s := file.elim boot fun raw => updateBundle services nodeID raw now boot
  { s with node := { s.node with cfg := notePack saved s.node.cfg } }

end Start

/-- What the state file has of a node: the main loop writes it after every update. -/
def savedState (n : Node ρ) : SavedState where
  bundleGeneration := n.ms.bundleGeneration
  bundleHash := n.ms.bundleHash
  graphPhase := some n.graphCtl.phase
  graphStartedAt := n.graphCtl.startedAt

variable {π : Type} {services : BundleServices ρ κ} {packs : PackServices π κ} {nodeID : String}
  {st : Startup}

section Static

theorem applyLoadedPolicyToCfg_static (severities : Severities) (p : LoadedPolicyFile) (c : Cfg) :
    SameStatic c (applyLoadedPolicyToCfg severities p c) := by
  cases p with
  | localPack pp =>
    unfold applyLoadedPolicyToCfg applyPolicyPackToCfg
    by_cases hcaps : pp.allowedCapabilities.getD [] = [] <;> simp [hcaps, SameStatic]
  | runtimePack pack => exact applyRuntimePolicyPackToCfg_static severities pack c

theorem startProfile_static (file : Option ρ) (now : Time) :
    SameStatic st.cfg (startProfile services st file now).1 := by
  unfold startProfile
  split
  · split <;> exact ⟨rfl, rfl, rfl⟩
  · exact ⟨rfl, rfl, rfl⟩

theorem startCfg_static (file : Option ρ) (now : Time) :
    SameStatic st.cfg (startCfg services st file now) := by
  have hprofile : SameStatic st.cfg (startProfile services st file now).1 := startProfile_static file now
  unfold startCfg
  cases st.policyFile with
  | none => exact hprofile
  | some loaded => exact hprofile.trans (applyLoadedPolicyToCfg_static _ _ _)

theorem bootNode_sameNode (saved saved' : Option SavedState) (file file' : Option ρ) (now now' : Time) :
    SameNode (bootNode services st saved file now) (bootNode services st saved' file' now') where
  static := (startCfg_static file now).symm.trans (startCfg_static file' now')
  brokers _ := (syncActionBrokerAutonomy_sync _ _ _).trans (syncActionBrokerAutonomy_sync _ _ _).symm

end Static

section Restore

/-- A bundle that a start without saved state takes again, and that finds there alike whatever it
leaves as it was. -/
def Restorable (services : BundleServices ρ κ) (nodeID : String) (st : Startup) (restart : Time) (raw : ρ)
    (rb : RuntimeBundle) (now : Time) (n : Node ρ) : Prop :=
  let boot := bootNode services st none (some raw) restart
  n.cfg.statePath ≠ "" ∧ Trusted services nodeID raw restart boot.cfg rb ∧
    LeftAlike rb now restart n boot

/-- The condition on a step; packs from Forge are no part of the history. -/
def StepRestorable (services : BundleServices ρ κ) (packs : PackServices π κ) (nodeID : String)
    (st : Startup) (restart : Time) (s : HandoffState ρ) (e : HandoffEvent ρ π) : Prop :=
  SendsFit services packs s e ∧
    match e with
    | .bundle raw now => ∀ rb, Trusted services nodeID raw now s.node.cfg rb →
        ¬ Stale services raw rb s.node.ms → Restorable services nodeID st restart raw rb now s.node
    | .forgePack _ _ => False
    | _ => True

/-- The bundle in force is on disk, and taking it again from a start makes the same policy. -/
structure Restored (services : BundleServices ρ κ) (nodeID : String) (st : Startup) (restart : Time)
    (raw : ρ) (rb : RuntimeBundle) (n : Node ρ) : Prop where
  file : n.bundleFile = some raw
  trusted : Trusted services nodeID raw restart (bootNode services st none (some raw) restart).cfg rb
  cfg : ((bootNode services st none (some raw) restart).accept services raw rb restart).cfg = n.cfg
  resolver : ((bootNode services st none (some raw) restart).accept services raw rb restart).resolver =
    n.resolver
  brokers : ((bootNode services st none (some raw) restart).accept services raw rb restart).brokers =
    n.brokers

structure KeepsGood (services : BundleServices ρ κ) (nodeID : String) (st : Startup) (restart : Time)
    (s : HandoffState ρ) : Prop where
  order : InOrder services s
  same : SameNode (bootNode services st none none restart) s.node
  good : ∀ raw rb, s.last = some (.bundle raw rb) → Restored services nodeID st restart raw rb s.node

variable {restart : Time}

/-- Neither the capability table nor the packs on their way are part of what is restored. -/
theorem KeepsGood.frame {s t : HandoffState ρ} (h : KeepsGood services nodeID st restart s)
    (horder : InOrder services t) (hlast : t.last = s.last) {severities : Severities}
    {updates : List RuntimePolicyPack}
    (hnode : t.node = { s.node with severities := severities, updates := updates }) :
    KeepsGood services nodeID st restart t := by
  refine ⟨horder, ?_, fun raw rb hbundle => ?_⟩
  · rw [hnode]
    exact ⟨h.same.static, h.same.brokers⟩
  · obtain ⟨hfile, htrusted, hcfg, hresolver, hbrokers⟩ := h.good raw rb (hlast ▸ hbundle)
    rw [hnode]
    exact ⟨hfile, htrusted, hcfg, hresolver, hbrokers⟩

theorem KeepsGood.takeBundle {s : HandoffState ρ} {raw : ρ} {now : Time}
    (h : KeepsGood services nodeID st restart s) (hpending : s.bundlePending = none)
    (hfit : ∀ rb, Trusted services nodeID raw now s.node.cfg rb → ¬ Stale services raw rb s.node.ms →
      Restorable services nodeID st restart raw rb now s.node) :
    KeepsGood services nodeID st restart (takeBundle services nodeID raw now s) := by
  have horder : InOrder services (Kernloom.takeBundle services nodeID raw now s) :=
    h.order.takeBundle hpending
  rcases takeBundle_cases services nodeID raw now s with
    ⟨severities, heq⟩ | ⟨rb, htrust, hfresh, heq⟩
  · have hnode : (Kernloom.takeBundle services nodeID raw now s).node =
        { s.node with severities := severities, updates := s.node.updates } := by rw [heq]
    exact h.frame horder (by rw [heq]) hnode
  · obtain ⟨hpath, htrusted, hleft⟩ := hfit rb htrust hfresh
    have haccept : SameNode s.node (s.node.accept services raw rb now) := accept_sameNode
    have hboot := h.same.symm.trans (bootNode_sameNode none none none (some raw) restart restart)
    have hsame := @accept_samePolicy _ _ services raw _ _ _ _ _ hboot hleft
    refine ⟨horder, ?_, ?_⟩
    · rw [heq]
      exact h.same.trans ⟨haccept.static, haccept.brokers⟩
    · rw [heq]
      intro raw' rb' hlast
      obtain ⟨rfl, rfl⟩ := AcceptedUpdate.bundle.inj (Option.some.inj hlast)
      refine ⟨?_, htrusted, hsame.cfg.symm, hsame.resolver.symm, hsame.brokers.symm⟩
      simp [acceptBundle, Node.withSnapshot, hpath]

theorem KeepsGood.step {s t : HandoffState ρ} {e : HandoffEvent ρ π}
    (h : KeepsGood services nodeID st restart s)
    (hfit : StepRestorable services packs nodeID st restart s e)
    (hstep : HandoffStep services packs nodeID s e t) : KeepsGood services nodeID st restart t := by
  have horder := h.order.step hfit.1 hstep
  obtain ⟨-, hfit⟩ := hfit
  unfold HandoffStep handoff at hstep
  cases e with
  | bundle raw now =>
    by_cases hpending : s.bundlePending = none
    · obtain rfl := Option.some.inj ((if_pos hpending).symm.trans hstep)
      exact h.takeBundle hpending hfit
    · simp [hpending] at hstep
  | forgePack raw packName => exact hfit.elim
  | sendBundle =>
    obtain ⟨pack, -, rfl⟩ := Option.map_eq_some_iff.mp hstep
    exact h.frame horder rfl rfl
  | sendForge =>
    obtain ⟨pack, -, rfl⟩ := Option.map_eq_some_iff.mp hstep
    exact h.frame horder rfl rfl
  | receive =>
    obtain ⟨rest, hnode, hlast⟩ := receivePack_frame hstep
    exact h.frame horder hlast hnode

theorem recordBundle_accepts {raw : ρ} {now : Time} {n : Node ρ} {rb : RuntimeBundle}
    (hhash : services.bundleHash raw ≠ n.ms.bundleHash) (htrust : Trusted services nodeID raw now n.cfg rb)
    (hfresh : ¬ Stale services raw rb n.ms) : recordBundle services nodeID raw now n =
      (.accepted rb, acceptBundle services raw rb now (n.withSnapshot rb)) := by
  unfold recordBundle
  rcases hgate : admitBundle services nodeID raw now n with ⟨outcome, n'⟩
  rcases admitBundle_cases hgate with ⟨-, hsame, -⟩ | ⟨_, -, -, hnone, -⟩ | ⟨_, rb', -, htrust', hstale, -⟩ |
    ⟨rb', rfl, -, htrust', -, rfl⟩
  · exact absurd hsame hhash
  · exact absurd htrust (hnone rb)
  · obtain rfl : rb = rb' := Except.ok.inj (htrust.1.symm.trans htrust'.1)
    exact absurd hstale hfresh
  · obtain rfl : rb = rb' := Except.ok.inj (htrust.1.symm.trans htrust'.1)
    rfl

/-- A start without saved state takes the bundle on disk again. -/
theorem start_replays {raw : ρ} {rb : RuntimeBundle} (hhash : services.bundleHash raw ≠ "")
    (htrust : Trusted services nodeID raw restart (bootNode services st none (some raw) restart).cfg rb) :
    start services nodeID st none (some raw) restart =
      { node := (bootNode services st none (some raw) restart).accept services raw rb restart
        active := st.policyFile.bind (·.runtime)
        last := some (.bundle raw rb) } := by
  have hrecord := recordBundle_accepts hhash htrust fun hstale => absurd hstale.1 (lt_irrefl _)
  simp only [start, Option.elim_some, updateBundle, Kernloom.takeBundle, bootState, hrecord,
    HandoffState.offer, notePack, Option.any_none, Bool.or_false]
  rfl

/-- The node of the tests, with a state directory. -/
def fixtureStartup : Startup where
  cfg := { mode := "managed", policyVerifyKeyPath := "policy.pub", statePath := "state.json" }
  graphNodeID := "node-test"
  severities := capabilitySeverityFromSnapshot fixtureSnapshot

def firstStart : HandoffState (String × RuntimeBundle) :=
  bootState fixtureServices fixtureStartup none none Duration.second

def firstBundle : List FixtureEvent := bundleSent "first" (fixtureBundle 1) ++ [.receive]

def runFirst : Option (HandoffState (String × RuntimeBundle)) :=
  firstBundle.foldlM (handoff fixtureServices fixturePacks "node-test") firstStart

theorem first_facts : runFirst.any fun t =>
    decide (t.node.updates = [] ∧ t.bundlePending = none ∧ t.forgePending = none ∧
      t.node.cfg.policyMaxAction = "rate_limit_hard" ∧ t.last.isSome ∧
      (start fixtureServices "node-test" fixtureStartup (some (savedState t.node)) t.node.bundleFile
        (2 * Duration.second)).node.cfg.policyMaxAction = "") := by decide +kernel

def runFirstFitting : Option (HandoffState (String × RuntimeBundle)) :=
  firstBundle.foldlM (fun s e => if SendsFit fixtureServices fixturePacks s e then
    handoff fixtureServices fixturePacks "node-test" s e else none) firstStart

def fixtureBoot : Node (String × RuntimeBundle) :=
  bootNode fixtureServices fixtureStartup none (some ("first", fixtureBundle 1)) (2 * Duration.second)

theorem restorable_facts :
    trustRuntimeBundle fixtureServices (fixtureBundle 1) fixtureBoot.cfg "node-test" (2 * Duration.second) =
      .ok () ∧
    runtimePolicyCapabilities (fixtureBundle 1).runtimePolicyPack ≠ [] ∧
    joinText (fixtureBundle 1).preferredAdapters "," ≠ "" ∧
    (applyGraphLifecycle (fixtureBundle 1).graphLifecycle 0 firstStart.node.graphCtl).maxAction
        (fixtureBundle 1).enforcementBounds =
      (applyGraphLifecycle (fixtureBundle 1).graphLifecycle (2 * Duration.second)
        fixtureBoot.graphCtl).maxAction (fixtureBundle 1).enforcementBounds ∧
    maxActionForBundleConformance (fixtureBundle 1) firstStart.node.cfg =
      maxActionForBundleConformance (fixtureBundle 1) fixtureBoot.cfg := by decide +kernel

theorem fixture_restorable {rb : RuntimeBundle}
    (hparse : fixtureServices.parseBundle ("first", fixtureBundle 1) = .ok rb) :
    Restorable fixtureServices "node-test" fixtureStartup (2 * Duration.second) ("first", fixtureBundle 1)
      rb 0 firstStart.node := by
  obtain rfl : fixtureBundle 1 = rb := Except.ok.inj hparse
  obtain ⟨htrust, hcaps, hadapters, hphase, hmax⟩ := restorable_facts
  exact ⟨by decide, ⟨rfl, htrust⟩, .inl hcaps, .inl (by decide), .inl (by decide), .inl hadapters, hphase,
    by rw [hmax, fixtureBoot]⟩

theorem fitting_facts : runFirstFitting.any fun t =>
    decide (t.node.updates = [] ∧ t.bundlePending = none ∧ t.forgePending = none ∧
      t.last = some (.bundle ("first", fixtureBundle 1) (fixtureBundle 1))) := by decide +kernel

end Restore

end Kernloom
