import Kernloom.BundleHistory
import Kernloom.PolicyFile

/-! The hand-off of runtime packs to the decision point: the main loop accepts bundles, the Forge
agent accepts packs, each sends what it accepted without waiting, and the decision point receives. -/

namespace Kernloom

open Transition

/-- An accepted update with a runtime pack. -/
inductive AcceptedUpdate (ρ : Type) where
  | bundle (raw : ρ) (rb : RuntimeBundle)
  | forge (pack : RuntimePolicyPack)
  deriving DecidableEq

def AcceptedUpdate.pack {ρ : Type} : AcceptedUpdate ρ → RuntimePolicyPack
  | bundle _ rb => rb.runtimePolicyPack
  | forge pack => pack

def AcceptedUpdate.isForge {ρ : Type} : AcceptedUpdate ρ → Bool
  | bundle _ _ => false
  | forge _ => true

/-- The node, what each sender has accepted and not yet sent, the pack the decision point
evaluates, and the update accepted last. -/
structure HandoffState (ρ : Type) where
  node : Node ρ
  activeIssuedAt : Time := 0
  bundlePending : Option RuntimePolicyPack := none
  forgePending : Option RuntimePolicyPack := none
  active : Option RuntimePolicyPack := none
  last : Option (AcceptedUpdate ρ) := none

inductive HandoffEvent (ρ π : Type) where
  | bundle (raw : ρ) (now : Time)
  | sendBundle
  | forgePack (raw : π) (packName : String)
  | sendForge
  | receive

section Machine

variable {ρ π κ : Type} (services : BundleServices ρ κ) (packs : PackServices π κ) (nodeID : String)

def HandoffState.offer (s : HandoffState ρ) (pack : RuntimePolicyPack) : HandoffState ρ :=
  { s with node := { s.node with updates := offerPack s.node.updates pack } }

/-- The main loop takes a bundle; the send is still to come. -/
def takeBundle (raw : ρ) (now : Time) (s : HandoffState ρ) : HandoffState ρ :=
  match recordBundle services nodeID raw now s.node with
  | (.accepted rb, n) =>
    { s with node := n, bundlePending := some rb.runtimePolicyPack, last := some (.bundle raw rb) }
  | (_, n) => { s with node := n }

/-- The agent takes a pack and builds the gate from the configuration; the send is still to come. -/
def takeForgePack (raw : π) (packName : String) (s : HandoffState ρ) : HandoffState ρ :=
  match applyForgePack packs raw packName s.node.severities s.node.cfg s.activeIssuedAt with
  | .error _ => s
  | .ok (loaded, c, issuedAt) =>
    let s := { s with
      node := { s.node with cfg := c, resolver := c.buildPolicyResolver }
      activeIssuedAt := issuedAt }
    match loaded.runtime with
    | none => s
    | some pack => { s with forgePending := some pack, last := some (.forge pack) }

/-- The decision point keeps its pack when the one received does not compile. -/
def receivePack (s : HandoffState ρ) : Option (HandoffState ρ) :=
  match s.node.updates with
  | [] => none
  | pack :: rest =>
    let s := { s with node := { s.node with updates := rest } }
    some (if (compile services.celProgram pack).isOk then { s with active := some pack } else s)

/-- One step; a sender takes nothing before it has sent. -/
def handoff (s : HandoffState ρ) : HandoffEvent ρ π → Option (HandoffState ρ)
  | .bundle raw now =>
    if s.bundlePending = none then some (takeBundle services nodeID raw now s) else none
  | .sendBundle => s.bundlePending.map fun pack => { s.offer pack with bundlePending := none }
  | .forgePack raw packName =>
    if s.forgePending = none then some (takeForgePack packs raw packName s) else none
  | .sendForge => s.forgePending.map fun pack => { s.offer pack with forgePending := none }
  | .receive => receivePack services s

def HandoffStep (s : HandoffState ρ) (e : HandoffEvent ρ π) (t : HandoffState ρ) : Prop :=
  handoff services packs nodeID s e = some t

/-- Nothing is on its way to the decision point. -/
def HandoffState.Drained (s : HandoffState ρ) : Prop :=
  s.node.updates = [] ∧ s.bundlePending = none ∧ s.forgePending = none

/-- The decision point evaluates the pack of the last update, and for a bundle that is the one on
record. -/
def HandoffState.Current (s : HandoffState ρ) : Prop :=
  ∀ u ∈ s.last, s.active = some u.pack ∧
    ∀ raw rb, u = .bundle raw rb → s.node.ms = ⟨rb.generation, services.bundleHash raw⟩

end Machine

variable {ρ π κ : Type} {services : BundleServices ρ κ} {packs : PackServices π κ} {nodeID : String}

theorem applyBundleUpdate_eq_take_send (raw : ρ) (now : Time) {s : HandoffState ρ}
    (hpending : s.bundlePending = none) :
    let t := takeBundle services nodeID raw now s
    (applyBundleUpdate services nodeID raw now s.node).2 =
      ((handoff services packs nodeID t .sendBundle).getD t).node := by
  unfold applyBundleUpdate takeBundle
  rcases recordBundle services nodeID raw now s.node with ⟨outcome, n⟩
  cases outcome with
  | unchanged => simp [handoff, hpending]
  | rejected reason => simp [handoff, hpending]
  | accepted rb => rfl

section Compiles

theorem trustRuntimeBundle_compiles {rb : RuntimeBundle} {c : Cfg} {now : Time}
    (h : trustRuntimeBundle services rb c nodeID now = .ok ()) :
    compile services.celProgram rb.runtimePolicyPack = .ok () := by
  have hpack : ∀ node, validateRuntimePolicyPack services.celProgram rb.runtimePolicyPack
      rb.registrySnapshot node = .ok () → compile services.celProgram rb.runtimePolicyPack = .ok () := by
    intro node hnode
    rw [validateRuntimePolicyPack, check_bind_ok, check_bind_ok] at hnode
    exact hnode.2.1
  unfold trustRuntimeBundle at h
  split at h
  · split at h
    · cases h
    · split at h
      · cases h
      · simp only [validateRuntimeBundle, check_bind_ok] at h
        exact hpack _ h.2.2.2.2
  · rw [check_bind_ok] at h
    exact hpack _ h.2

theorem bind_eq_ok {α β : Type} {x : Except String α} {f : α → Except String β} {b : β} :
    (x >>= f) = .ok b ↔ ∃ a, x = .ok a ∧ f a = .ok b := by
  cases x with
  | error err => simp [bind, Except.bind]
  | ok a => simp [bind, Except.bind]

theorem loadPolicyBytes_runtime {raw : π} {source : String} {key : Option κ} {loaded : LoadedPolicyFile}
    {pack : RuntimePolicyPack} (h : loadPolicyBytes packs raw source key = .ok loaded)
    (hpack : loaded.runtime = some pack) : packs.parseRuntime raw = .ok pack := by
  unfold loadPolicyBytes at h
  obtain ⟨-, -, h⟩ := bind_eq_ok.mp h
  obtain ⟨kind, -, h⟩ := bind_eq_ok.mp h
  unfold parsePolicyFile at h
  split at h
  · obtain ⟨pp, -, h⟩ := bind_eq_ok.mp h
    obtain ⟨-, -, h⟩ := bind_eq_ok.mp h
    obtain rfl := Except.ok.inj h
    cases hpack
  split at h
  · obtain ⟨pack', hparse, h⟩ := bind_eq_ok.mp h
    obtain rfl := Except.ok.inj h
    obtain rfl : pack' = pack := Option.some.inj hpack
    obtain ⟨parsed, hparsed, hrest⟩ := bind_eq_ok.mp (errorAt_eq_ok.mp hparse)
    obtain ⟨-, -, hrest⟩ := bind_eq_ok.mp hrest
    obtain ⟨-, -, hrest⟩ := bind_eq_ok.mp hrest
    obtain rfl : parsed = pack' := Except.ok.inj hrest
    exact hparsed
  · cases h

theorem applyForgePack_runtime {raw : π} {packName : String} {severities : Severities} {c c' : Cfg}
    {activeIssuedAt issuedAt : Time} {loaded : LoadedPolicyFile} {pack : RuntimePolicyPack}
    (h : applyForgePack packs raw packName severities c activeIssuedAt = .ok (loaded, c', issuedAt))
    (hpack : loaded.runtime = some pack) : packs.parseRuntime raw = .ok pack := by
  have hload : loadForgePack packs raw packName c = .ok loaded := by
    obtain ⟨loaded', hload, h⟩ := bind_eq_ok.mp h
    obtain rfl : loaded' = loaded := by
      split at h
      · split at h
        · cases h
        · exact congrArg Prod.fst (Except.ok.inj h)
      · exact congrArg Prod.fst (Except.ok.inj h)
    exact hload
  unfold loadForgePack at hload
  split at hload
  · obtain ⟨key, -, hload⟩ := bind_eq_ok.mp hload
    exact loadPolicyBytes_runtime (errorAt_eq_ok.mp hload) hpack
  · exact loadPolicyBytes_runtime (errorAt_eq_ok.mp hload) hpack

end Compiles

section Order

def HandoffState.lastIsForge (s : HandoffState ρ) : Bool := s.last.any AcceptedUpdate.isForge

/-- The packs on their way, in the order their updates were accepted. -/
def HandoffState.outstanding (s : HandoffState ρ) : List RuntimePolicyPack :=
  s.node.updates ++
    bif s.lastIsForge then s.bundlePending.toList ++ s.forgePending.toList
    else s.forgePending.toList ++ s.bundlePending.toList

/-- A send finds room in the channel and does not overtake the other sender's earlier update, and a
pack from Forge compiles. -/
def SendsFit (services : BundleServices ρ κ) (packs : PackServices π κ) (s : HandoffState ρ) :
    HandoffEvent ρ π → Prop
  | .sendBundle =>
    s.node.updates.length < channelCapacity ∧ (s.forgePending = none ∨ s.lastIsForge = true)
  | .sendForge =>
    s.node.updates.length < channelCapacity ∧ (s.bundlePending = none ∨ s.lastIsForge = false)
  | .forgePack raw _ => ∀ pack, packs.parseRuntime raw = .ok pack →
      compile services.celProgram pack = .ok ()
  | .bundle _ _ | .receive => True

instance (s : HandoffState ρ) (e : HandoffEvent ρ π) : Decidable (SendsFit services packs s e) :=
  match e with
  | .bundle _ _ | .receive => isTrue trivial
  | .sendBundle => inferInstanceAs (Decidable (_ ∧ _))
  | .sendForge => inferInstanceAs (Decidable (_ ∧ _))
  | .forgePack raw _ =>
    match h : packs.parseRuntime raw with
    | .error _ => isTrue fun _ hpack => nomatch h.symm.trans hpack
    | .ok pack => decidable_of_iff (compile services.celProgram pack = .ok ())
        ⟨fun hc _ hpack => Except.ok.inj (h.symm.trans hpack) ▸ hc, fun hc => hc pack h⟩

/-- What is on its way compiles, and ends with the pack of the last update. -/
structure InOrder (services : BundleServices ρ κ) (s : HandoffState ρ) : Prop where
  compiles : ∀ pack ∈ s.outstanding, compile services.celProgram pack = .ok ()
  newest : ∀ u ∈ s.last, s.outstanding.getLast?.or s.active = some u.pack
  record : ∀ raw rb, s.last = some (.bundle raw rb) →
    s.node.ms = ⟨rb.generation, services.bundleHash raw⟩

theorem takeBundle_cases (services : BundleServices ρ κ) (nodeID : String) (raw : ρ) (now : Time) (s : HandoffState ρ) :
    (∃ severities, takeBundle services nodeID raw now s =
      { s with node := { s.node with severities := severities } }) ∨
    (∃ rb, Trusted services nodeID raw now s.node.cfg rb ∧ ¬ Stale services raw rb s.node.ms ∧
      takeBundle services nodeID raw now s = { s with
        node := acceptBundle services raw rb now (s.node.withSnapshot rb)
        bundlePending := some rb.runtimePolicyPack
        last := some (.bundle raw rb) }) := by
  unfold takeBundle recordBundle
  rcases hgate : admitBundle services nodeID raw now s.node with ⟨outcome, n⟩
  rcases admitBundle_cases hgate with ⟨rfl, -, rfl⟩ | ⟨_, rfl, -, -, rfl⟩ | ⟨_, rb, rfl, -, -, rfl⟩ |
    ⟨rb, rfl, -, htrust, hfresh, rfl⟩
  · exact .inl ⟨s.node.severities, rfl⟩
  · exact .inl ⟨s.node.severities, rfl⟩
  · exact .inl ⟨_, rfl⟩
  · exact .inr ⟨rb, htrust, hfresh, rfl⟩

theorem InOrder.takeBundle {s : HandoffState ρ} {raw : ρ} {now : Time} (h : InOrder services s)
    (hpending : s.bundlePending = none) : InOrder services (takeBundle services nodeID raw now s) := by
  rcases takeBundle_cases services nodeID raw now s with
    ⟨severities, heq⟩ | ⟨rb, htrust, -, heq⟩
  · rw [heq]
    exact ⟨h.compiles, h.newest, h.record⟩
  · have hout : (Kernloom.takeBundle services nodeID raw now s).outstanding =
        s.node.updates ++ s.forgePending.toList ++ [rb.runtimePolicyPack] := by
      simp [heq, HandoffState.outstanding, HandoffState.lastIsForge, AcceptedUpdate.isForge,
        acceptBundle, Node.withSnapshot]
    have hbefore : s.outstanding = s.node.updates ++ s.forgePending.toList := by
      simp [HandoffState.outstanding, hpending]
    refine ⟨?_, ?_, ?_⟩
    · rw [hout, ← hbefore]
      intro pack hpack
      rcases List.mem_append.mp hpack with hpack | hpack
      · exact h.compiles pack hpack
      · rw [List.mem_singleton.mp hpack]
        exact trustRuntimeBundle_compiles htrust.2
    · rw [hout, heq]
      rintro u hu
      obtain rfl := Option.mem_some_iff.mp hu
      simp [AcceptedUpdate.pack]
    · rw [heq]
      rintro raw' rb' hlast
      obtain ⟨rfl, rfl⟩ := AcceptedUpdate.bundle.inj (Option.some.inj hlast)
      rfl

theorem takeForgePack_cases (packs : PackServices π κ) (raw : π) (packName : String) (s : HandoffState ρ) :
    (∃ (n : Node ρ) (issuedAt : Time), n.updates = s.node.updates ∧ n.ms = s.node.ms ∧
      takeForgePack packs raw packName s = { s with node := n, activeIssuedAt := issuedAt }) ∨
    (∃ (n : Node ρ) (issuedAt : Time) (pack : RuntimePolicyPack), n.updates = s.node.updates ∧
      n.ms = s.node.ms ∧ packs.parseRuntime raw = .ok pack ∧
      takeForgePack packs raw packName s = { s with
        node := n, activeIssuedAt := issuedAt, forgePending := some pack, last := some (.forge pack) }) := by
  unfold takeForgePack
  rcases hpack : applyForgePack packs raw packName s.node.severities s.node.cfg s.activeIssuedAt with
    err | ⟨loaded, c, issuedAt⟩
  · exact .inl ⟨s.node, s.activeIssuedAt, rfl, rfl, rfl⟩
  · cases hruntime : loaded.runtime with
    | none =>
      simp only [hruntime]
      exact .inl ⟨{ s.node with cfg := c, resolver := c.buildPolicyResolver }, issuedAt, rfl, rfl, rfl⟩
    | some pack =>
      simp only [hruntime]
      exact .inr ⟨{ s.node with cfg := c, resolver := c.buildPolicyResolver }, issuedAt, pack, rfl, rfl,
        applyForgePack_runtime hpack hruntime, rfl⟩

theorem InOrder.takeForgePack {s : HandoffState ρ} {raw : π} {packName : String} (h : InOrder services s)
    (hpending : s.forgePending = none)
    (hcompiles : ∀ pack, packs.parseRuntime raw = .ok pack → compile services.celProgram pack = .ok ()) :
    InOrder services (takeForgePack packs raw packName s) := by
  rcases takeForgePack_cases packs raw packName s with
    ⟨n, issuedAt, hupdates, hms, heq⟩ | ⟨n, issuedAt, pack, hupdates, hms, hparse, heq⟩
  · have hout : (Kernloom.takeForgePack packs raw packName s).outstanding = s.outstanding := by
      simp only [heq, HandoffState.outstanding, HandoffState.lastIsForge, hupdates]
    refine ⟨hout ▸ h.compiles, hout ▸ ?_, ?_⟩
    · simpa only [heq] using h.newest
    · simpa only [heq, hms] using h.record
  · have hout : (Kernloom.takeForgePack packs raw packName s).outstanding =
        s.node.updates ++ s.bundlePending.toList ++ [pack] := by
      simp [heq, HandoffState.outstanding, HandoffState.lastIsForge, hupdates, AcceptedUpdate.isForge]
    have hbefore : s.outstanding = s.node.updates ++ s.bundlePending.toList := by
      simp [HandoffState.outstanding, hpending]
    refine ⟨?_, ?_, ?_⟩
    · rw [hout, ← hbefore]
      intro pack' hpack'
      rcases List.mem_append.mp hpack' with hpack' | hpack'
      · exact h.compiles pack' hpack'
      · rw [List.mem_singleton.mp hpack']
        exact hcompiles pack hparse
    · rw [hout, heq]
      rintro u hu
      obtain rfl := Option.mem_some_iff.mp hu
      simp [AcceptedUpdate.pack]
    · rw [heq]
      rintro raw' rb' hlast
      cases hlast

theorem receivePack_frame {s t : HandoffState ρ} (h : receivePack services s = some t) :
    ∃ rest, t.node = { s.node with updates := rest } ∧ t.last = s.last := by
  unfold receivePack at h
  split at h
  · cases h
  · obtain rfl := Option.some.inj h
    split <;> exact ⟨_, rfl, rfl⟩

theorem InOrder.receivePack {s t : HandoffState ρ} (h : InOrder services s)
    (hstep : receivePack services s = some t) : InOrder services t := by
  unfold Kernloom.receivePack at hstep
  rcases hupdates : s.node.updates with _ | ⟨pack, rest⟩
  · simp [hupdates] at hstep
  · have hout : s.outstanding = pack :: (rest ++
        bif s.lastIsForge then s.bundlePending.toList ++ s.forgePending.toList
        else s.forgePending.toList ++ s.bundlePending.toList) := by
      simp [HandoffState.outstanding, hupdates]
    have hpack : compile services.celProgram pack = .ok () := h.compiles pack (by simp [hout])
    simp only [hupdates, hpack, Except.isOk, Except.toBool, if_true, Option.some.injEq] at hstep
    subst hstep
    refine ⟨fun p hp => h.compiles p ?_, fun u hu => ?_, h.record⟩
    · rw [hout]
      exact List.mem_cons_of_mem _ hp
    · have hnewest := h.newest u hu
      rw [hout, List.getLast?_cons] at hnewest
      simpa [HandoffState.outstanding, HandoffState.lastIsForge] using hnewest

theorem InOrder.step {s t : HandoffState ρ} {e : HandoffEvent ρ π} (h : InOrder services s)
    (hfit : SendsFit services packs s e) (hstep : HandoffStep services packs nodeID s e t) :
    InOrder services t := by
  unfold HandoffStep handoff at hstep
  cases e with
  | bundle raw now =>
    by_cases hpending : s.bundlePending = none
    · obtain rfl := Option.some.inj ((if_pos hpending).symm.trans hstep)
      exact h.takeBundle hpending
    · simp [hpending] at hstep
  | forgePack raw packName =>
    by_cases hpending : s.forgePending = none
    · obtain rfl := Option.some.inj ((if_pos hpending).symm.trans hstep)
      exact h.takeForgePack hpending hfit
    · simp [hpending] at hstep
  | sendBundle =>
    obtain ⟨pack, hpending, rfl⟩ := Option.map_eq_some_iff.mp hstep
    have hout : { s.offer pack with bundlePending := none }.outstanding = s.outstanding := by
      obtain ⟨hroom, horder⟩ := hfit
      rcases horder with hnone | hforge
      · simp [HandoffState.outstanding, HandoffState.offer, offerPack, hroom, hpending, hnone]
      · have hforge' : s.last.any AcceptedUpdate.isForge = true := hforge
        simp [HandoffState.outstanding, HandoffState.offer, offerPack, hroom, hpending,
          HandoffState.lastIsForge, hforge']
    exact ⟨hout ▸ h.compiles, hout ▸ h.newest, h.record⟩
  | sendForge =>
    obtain ⟨pack, hpending, rfl⟩ := Option.map_eq_some_iff.mp hstep
    have hout : { s.offer pack with forgePending := none }.outstanding = s.outstanding := by
      obtain ⟨hroom, horder⟩ := hfit
      rcases horder with hnone | hbundle
      · simp [HandoffState.outstanding, HandoffState.offer, offerPack, hroom, hpending, hnone]
      · have hbundle' : s.last.any AcceptedUpdate.isForge = false := hbundle
        simp [HandoffState.outstanding, HandoffState.offer, offerPack, hroom, hpending,
          HandoffState.lastIsForge, hbundle']
    exact ⟨hout ▸ h.compiles, hout ▸ h.newest, h.record⟩
  | receive => exact h.receivePack hstep

theorem HandoffState.Drained.inOrder {s : HandoffState ρ} (h : s.Drained) (hlast : s.last = none) :
    InOrder services s := by
  obtain ⟨hupdates, hbundle, hforge⟩ := h
  refine ⟨?_, by simp [hlast], by simp [hlast]⟩
  simp [HandoffState.outstanding, hupdates, hbundle, hforge]

theorem InOrder.active {s : HandoffState ρ} (h : InOrder services s) (hdrained : s.Drained)
    {u : AcceptedUpdate ρ} (hu : u ∈ s.last) : s.active = some u.pack := by
  obtain ⟨hupdates, hbundle, hforge⟩ := hdrained
  have hnewest := h.newest u hu
  simpa [HandoffState.outstanding, hupdates, hbundle, hforge] using hnewest

/-- In a run whose sends fit, the decision point ends up with the pack of the last update once
nothing is on its way. -/
theorem handoff_current {s t : HandoffState ρ} {es : List (HandoffEvent ρ π)} (hstart : s.Drained)
    (hlast : s.last = none)
    (h : Run (Guarded (SendsFit services packs) (HandoffStep services packs nodeID)) s es t)
    (hdrained : t.Drained) : t.Current services := by
  have hinv := h.invariant (I := InOrder services) (hstart.inOrder hlast) fun hs hstep =>
    hs.step hstep.1 hstep.2
  exact fun u hu => ⟨hinv.active hdrained hu, fun raw rb hbundle => hinv.record raw rb (hbundle ▸ hu)⟩

end Order

section Runs

/-- Packs are taken as they are, without a key. -/
def fixturePacks : PackServices RuntimePolicyPack Unit where
  verifyPack _ _ := .ok ()
  loadPublicKey _ := .ok ()
  packKind _ := .ok kindRuntimePolicyPack
  parseLocal _ := .error "not a local pack"
  parseRuntime pack := .ok pack

def fixtureHandoff : HandoffState (String × RuntimeBundle) := { node := fixtureNode }

abbrev FixtureEvent := HandoffEvent (String × RuntimeBundle) RuntimePolicyPack

def bundleSent (hash : String) (rb : RuntimeBundle) : List FixtureEvent :=
  [.bundle (hash, rb) 0, .sendBundle]

def runFixture (es : List FixtureEvent) : Option (HandoffState (String × RuntimeBundle)) :=
  es.foldlM (handoff fixtureServices fixturePacks "node-test") fixtureHandoff

/-- A ninth bundle, with another pack than the eight before it. -/
def softBundle : RuntimeBundle :=
  { fixtureBundle 9 with runtimePolicyPack := fixturePack "enforce.traffic.rate_limit" "soft" }

/-- Nine bundles are accepted before the decision point receives the first. -/
def nineBundles : List FixtureEvent :=
  (List.range 8).flatMap (fun k => bundleSent (itoa (k + 1)) (fixtureBundle (k + 1))) ++
    bundleSent "9" softBundle ++ List.replicate 8 .receive

theorem nine_facts : (runFixture nineBundles).any fun t =>
    decide (t.node.updates = [] ∧ t.bundlePending = none ∧ t.forgePending = none ∧
      t.node.ms = ⟨9, "9"⟩ ∧ t.last.map AcceptedUpdate.pack = some softBundle.runtimePolicyPack ∧
      t.active = some (fixtureBundle 8).runtimePolicyPack ∧
      (fixtureBundle 8).runtimePolicyPack ≠ softBundle.runtimePolicyPack) := by decide +kernel

/-- The channel holds eight packs: the ninth is dropped, though its bundle is on record. -/
theorem ninth_pack_dropped :
    ¬ ∀ (s t : HandoffState (String × RuntimeBundle)) (es : List FixtureEvent), s.Drained →
      s.last = none → Run (HandoffStep fixtureServices fixturePacks "node-test") s es t → t.Drained →
      t.Current fixtureServices := by
  intro h
  have hfacts := nine_facts
  rcases ht : runFixture nineBundles with _ | t
  · simp [ht] at hfacts
  rw [ht, Option.any_some] at hfacts
  obtain ⟨hupdates, hbundle, hforge, -, hlast, hactive, hne⟩ := of_decide_eq_true hfacts
  obtain ⟨u, hu, hpack⟩ := Option.map_eq_some_iff.mp hlast
  have hcurrent := h fixtureHandoff t nineBundles ⟨rfl, rfl, rfl⟩ rfl (run_of_foldlM ht)
    ⟨hupdates, hbundle, hforge⟩ u hu
  rw [hactive, hpack, Option.some.injEq] at hcurrent
  exact hne hcurrent.1

/-- A bundle, then a pack from Forge, each sent and received. -/
def twoUpdates : List FixtureEvent :=
  bundleSent "1" (fixtureBundle 1) ++ [.receive, .forgePack softBundle.runtimePolicyPack "soft",
    .sendForge, .receive]

def runTwo : Option (HandoffState (String × RuntimeBundle)) :=
  twoUpdates.foldlM (fun s e => if SendsFit fixtureServices fixturePacks s e then
    handoff fixtureServices fixturePacks "node-test" s e else none) fixtureHandoff

theorem two_facts : runTwo.any fun t =>
    decide (t.node.updates = [] ∧ t.bundlePending = none ∧ t.forgePending = none ∧
      t.last.map AcceptedUpdate.pack = some softBundle.runtimePolicyPack) := by decide +kernel

/-- Each of the two packs is evaluated in turn. -/
theorem two_updates_current : ∃ t, runTwo = some t ∧ t.active = some softBundle.runtimePolicyPack := by
  have hfacts := two_facts
  rcases ht : runTwo with _ | t
  · simp [ht] at hfacts
  rw [ht, Option.any_some] at hfacts
  obtain ⟨hupdates, hbundle, hforge, hlast⟩ := of_decide_eq_true hfacts
  obtain ⟨u, hu, hpack⟩ := Option.map_eq_some_iff.mp hlast
  have hcurrent := handoff_current ⟨rfl, rfl, rfl⟩ rfl (guarded_of_foldlM ht) ⟨hupdates, hbundle, hforge⟩ u hu
  exact ⟨t, rfl, hcurrent.1.trans (congrArg some hpack)⟩

end Runs

end Kernloom
