import Kernloom.ManagedBundle
import Kernloom.Transition

/-! What a bundle can do to a node: which updates are refused and what a refused one leaves behind,
and how the recorded generation and digest move over any sequence of bundles. -/

namespace Kernloom

open Transition

variable {ρ κ : Type} {services : BundleServices ρ κ} {nodeID : String} {raw : ρ} {now : Time}
  {n n' : Node ρ}

section Admission

/-- A bundle that parses and passes the checks of the node. -/
def Trusted (services : BundleServices ρ κ) (nodeID : String) (raw : ρ) (now : Time) (c : Cfg)
    (rb : RuntimeBundle) : Prop :=
  services.parseBundle raw = .ok rb ∧ trustRuntimeBundle services rb c nodeID now = .ok ()

theorem parseTrustedRuntimeBundle_eq_ok {c : Cfg} {rb : RuntimeBundle} {severities : Severities} :
    parseTrustedRuntimeBundle services raw c nodeID now = .ok (rb, severities) ↔
      Trusted services nodeID raw now c rb ∧
        severities = capabilitySeverityFromSnapshot rb.registrySnapshot := by
  unfold parseTrustedRuntimeBundle Trusted
  cases hp : services.parseBundle raw with
  | error err => simp
  | ok rb' =>
    cases ht : trustRuntimeBundle services rb' c nodeID now with
    | error err =>
      simp only [ht, reduceCtorEq, Except.ok.injEq, false_iff, not_and, and_imp]
      rintro rfl htrust
      simp [ht] at htrust
    | ok u =>
      simp only [ht, Except.ok.injEq, Prod.mk.injEq]
      constructor
      · rintro ⟨rfl, rfl⟩
        exact ⟨⟨rfl, ht⟩, rfl⟩
      · rintro ⟨⟨rfl, -⟩, rfl⟩
        exact ⟨rfl, rfl⟩

/-- The node after the capability table is written. -/
def Node.withSnapshot (n : Node ρ) (rb : RuntimeBundle) : Node ρ :=
  { n with severities := capabilitySeverityFromSnapshot rb.registrySnapshot }

/-- A bundle older than the recorded one, or another one of its generation. -/
def Stale (services : BundleServices ρ κ) (raw : ρ) (rb : RuntimeBundle) (ms : ManagedState) : Prop :=
  0 < ms.bundleGeneration ∧ (rb.generation < ms.bundleGeneration ∨
    rb.generation = ms.bundleGeneration ∧ ms.bundleHash ≠ "" ∧
      services.bundleHash raw ≠ ms.bundleHash)

theorem admitBundle_cases {outcome : BundleOutcome}
    (h : admitBundle services nodeID raw now n = (outcome, n')) :
    (outcome = .unchanged ∧ services.bundleHash raw = n.ms.bundleHash ∧ n' = n) ∨
    (∃ reason, outcome = .rejected reason ∧ services.bundleHash raw ≠ n.ms.bundleHash ∧
      (∀ rb, ¬ Trusted services nodeID raw now n.cfg rb) ∧ n' = n) ∨
    (∃ reason rb, outcome = .rejected reason ∧ Trusted services nodeID raw now n.cfg rb ∧
      Stale services raw rb n.ms ∧ n' = n.withSnapshot rb) ∨
    (∃ rb, outcome = .accepted rb ∧ services.bundleHash raw ≠ n.ms.bundleHash ∧
      Trusted services nodeID raw now n.cfg rb ∧ ¬ Stale services raw rb n.ms ∧
      n' = n.withSnapshot rb) := by
  unfold admitBundle at h
  by_cases hhash : services.bundleHash raw = n.ms.bundleHash
  · obtain ⟨rfl, rfl⟩ := Prod.mk.inj ((if_pos hhash).symm.trans h)
    exact .inl ⟨rfl, hhash, rfl⟩
  rw [if_neg hhash] at h
  cases hparse : parseTrustedRuntimeBundle services raw n.cfg nodeID now with
  | error err =>
    simp only [hparse, Prod.mk.injEq] at h
    obtain ⟨rfl, rfl⟩ := h
    refine .inr (.inl ⟨_, rfl, hhash, fun rb htrust => ?_, rfl⟩)
    have := parseTrustedRuntimeBundle_eq_ok.mpr ⟨htrust, rfl⟩
    rw [hparse] at this
    cases this
  | ok found =>
    obtain ⟨rb, severities⟩ := found
    obtain ⟨htrust, rfl⟩ := parseTrustedRuntimeBundle_eq_ok.mp hparse
    simp only [hparse] at h
    split at h
    · rename_i hroll
      obtain ⟨rfl, rfl⟩ := Prod.mk.inj h
      exact .inr (.inr (.inl ⟨_, rb, rfl, htrust, ⟨hroll.1, .inl hroll.2⟩, rfl⟩))
    split at h
    · rename_i hmut
      obtain ⟨rfl, rfl⟩ := Prod.mk.inj h
      exact .inr (.inr (.inl ⟨_, rb, rfl, htrust, ⟨hmut.1, .inr hmut.2⟩, rfl⟩))
    · rename_i hroll hmut
      obtain ⟨rfl, rfl⟩ := Prod.mk.inj h
      refine .inr (.inr (.inr ⟨rb, rfl, hhash, htrust, ?_, rfl⟩))
      rintro ⟨hpos, hlt | heq⟩
      · exact hroll ⟨hpos, hlt⟩
      · exact hmut ⟨hpos, heq⟩

/-- The node after an accepted bundle, its pack handed off. -/
def Node.accept (services : BundleServices ρ κ) (raw : ρ) (rb : RuntimeBundle) (now : Time)
    (n : Node ρ) : Node ρ :=
  { acceptBundle services raw rb now (n.withSnapshot rb) with
    updates := offerPack n.updates rb.runtimePolicyPack }

theorem applyBundleUpdate_cases {outcome : BundleOutcome}
    (h : applyBundleUpdate services nodeID raw now n = (outcome, n')) :
    (outcome = .unchanged ∧ services.bundleHash raw = n.ms.bundleHash ∧ n' = n) ∨
    (∃ reason, outcome = .rejected reason ∧ services.bundleHash raw ≠ n.ms.bundleHash ∧
      (∀ rb, ¬ Trusted services nodeID raw now n.cfg rb) ∧ n' = n) ∨
    (∃ reason rb, outcome = .rejected reason ∧ Trusted services nodeID raw now n.cfg rb ∧
      Stale services raw rb n.ms ∧ n' = n.withSnapshot rb) ∨
    (∃ rb, outcome = .accepted rb ∧ services.bundleHash raw ≠ n.ms.bundleHash ∧
      Trusted services nodeID raw now n.cfg rb ∧ ¬ Stale services raw rb n.ms ∧
      n' = n.accept services raw rb now) := by
  unfold applyBundleUpdate recordBundle at h
  rcases hgate : admitBundle services nodeID raw now n with ⟨outcome', n₁⟩
  rw [hgate] at h
  rcases admitBundle_cases hgate with ⟨rfl, hhash, rfl⟩ | ⟨reason, rfl, hhash, hnone, rfl⟩ |
    ⟨reason, rb, rfl, htrust, hstale, rfl⟩ | ⟨rb, rfl, hhash, htrust, hstale, rfl⟩
  · obtain ⟨rfl, rfl⟩ := Prod.mk.inj h
    exact .inl ⟨rfl, hhash, rfl⟩
  · obtain ⟨rfl, rfl⟩ := Prod.mk.inj h
    exact .inr (.inl ⟨reason, rfl, hhash, hnone, rfl⟩)
  · obtain ⟨rfl, rfl⟩ := Prod.mk.inj h
    exact .inr (.inr (.inl ⟨reason, rb, rfl, htrust, hstale, rfl⟩))
  · obtain ⟨rfl, rfl⟩ := Prod.mk.inj h
    exact .inr (.inr (.inr ⟨rb, rfl, hhash, htrust, hstale, rfl⟩))

theorem accepted_iff : (∃ rb, (applyBundleUpdate services nodeID raw now n).1 = .accepted rb) ↔
    services.bundleHash raw ≠ n.ms.bundleHash ∧ ∃ rb, Trusted services nodeID raw now n.cfg rb ∧
      ¬ Stale services raw rb n.ms := by
  rcases applyBundleUpdate_cases (Prod.mk.eta (p := applyBundleUpdate services nodeID raw now n)).symm with
    ⟨hout, hhash, -⟩ | ⟨_, hout, -, hnone, -⟩ | ⟨_, rb, hout, htrust, hstale, -⟩ |
    ⟨rb, hout, hhash, htrust, hfresh, -⟩
  · simp [hout, hhash]
  · simp only [hout, reduceCtorEq, exists_false, false_iff]
    rintro ⟨-, rb, htrust, -⟩
    exact hnone rb htrust
  · simp only [hout, reduceCtorEq, exists_false, false_iff]
    rintro ⟨-, rb', htrust', hfresh⟩
    obtain rfl : rb = rb' := Except.ok.inj (htrust.1.symm.trans htrust'.1)
    exact hfresh hstale
  · exact ⟨fun _ => ⟨hhash, rb, htrust, hfresh⟩, fun _ => ⟨rb, hout⟩⟩

theorem accepted_node (h : ∃ rb, (applyBundleUpdate services nodeID raw now n).1 = .accepted rb) :
    ∃ rb, services.parseBundle raw = .ok rb ∧
      (applyBundleUpdate services nodeID raw now n).2 = n.accept services raw rb now := by
  obtain ⟨rb', hout⟩ := h
  rcases applyBundleUpdate_cases (Prod.mk.eta (p := applyBundleUpdate services nodeID raw now n)).symm with
    ⟨hout', -⟩ | ⟨_, hout', -⟩ | ⟨_, _, hout', -⟩ | ⟨rb, -, -, htrust, -, hnode⟩
  · cases hout.symm.trans hout'
  · cases hout.symm.trans hout'
  · cases hout.symm.trans hout'
  · exact ⟨rb, htrust.1, hnode⟩

theorem BundleStep.cases {e : ρ × Time} (h : BundleStep services nodeID n e n') :
    n' = n ∨
    (∃ rb, Trusted services nodeID e.1 e.2 n.cfg rb ∧ Stale services e.1 rb n.ms ∧
      n' = n.withSnapshot rb) ∨
    (∃ rb, services.bundleHash e.1 ≠ n.ms.bundleHash ∧ Trusted services nodeID e.1 e.2 n.cfg rb ∧
      ¬ Stale services e.1 rb n.ms ∧ n' = n.accept services e.1 rb e.2) := by
  obtain rfl : _ = n' := h
  rcases applyBundleUpdate_cases (Prod.mk.eta (p := applyBundleUpdate services nodeID e.1 e.2 n)).symm with
    ⟨-, -, h⟩ | ⟨_, -, -, -, h⟩ | ⟨_, rb, -, htrust, hstale, h⟩ | ⟨rb, -, hhash, htrust, hfresh, h⟩
  · exact .inl h
  · exact .inl h
  · exact .inr (.inl ⟨rb, htrust, hstale, h⟩)
  · exact .inr (.inr ⟨rb, hhash, htrust, hfresh, h⟩)

end Admission

section Rejection

/-- A refused bundle leaves the node as it was exactly when it is not trusted, or when its registry
gives the severities that are there already. -/
theorem rejected_unchanged_iff {reason : Rejection}
    (h : applyBundleUpdate services nodeID raw now n = (.rejected reason, n')) :
    n' = n ↔ ∀ rb, Trusted services nodeID raw now n.cfg rb →
      capabilitySeverityFromSnapshot rb.registrySnapshot = n.severities := by
  rcases applyBundleUpdate_cases h with ⟨hout, -, -⟩ | ⟨_, -, -, hnone, rfl⟩ |
    ⟨_, rb, -, htrust, -, rfl⟩ | ⟨_, hout, -⟩
  · cases hout
  · exact ⟨fun _ rb htrust => absurd htrust (hnone rb), fun _ => rfl⟩
  · constructor
    · intro hsame rb' htrust'
      obtain rfl : rb = rb' := Except.ok.inj (htrust.1.symm.trans htrust'.1)
      exact congrArg Node.severities hsame
    · intro hsame
      rw [Node.withSnapshot, hsame rb htrust]
  · cases hout

/-- A bundle of the first generation that no longer knows `enforce.access.deny`. -/
def narrowBundle : RuntimeBundle :=
  { fixtureBundle 1 with
    registrySnapshot := { fixtureSnapshot with
      capabilities := [{ id := "enforce.traffic.rate_limit", severity := 2 }] } }

def secondGeneration : Node (String × RuntimeBundle) := { fixtureNode with ms := ⟨2, "second"⟩ }

theorem rollback_facts :
    (applyBundleUpdate fixtureServices "node-test" ("first", narrowBundle) 0 secondGeneration).1 =
      .rejected (.rollback 1 2) ∧
    (applyBundleUpdate fixtureServices "node-test" ("first", narrowBundle) 0
      secondGeneration).2.severities "enforce.access.deny" = none ∧
    secondGeneration.severities "enforce.access.deny" = some 3 := by decide +kernel

/-- An older bundle is refused, and still replaces the node's severities by its own. -/
theorem rollback_writes_severities :
    ¬ ∀ (raw : String × RuntimeBundle) (now : Time) (n n' : Node (String × RuntimeBundle))
      (reason : Rejection),
      applyBundleUpdate fixtureServices "node-test" raw now n = (.rejected reason, n') → n' = n := by
  intro h
  obtain ⟨hout, hafter, hbefore⟩ := rollback_facts
  have hsame := h ("first", narrowBundle) 0 secondGeneration _ _ (Prod.ext hout rfl)
  have hsev := congrFun (congrArg Node.severities hsame) "enforce.access.deny"
  cases hafter.symm.trans (hsev.trans hbefore)

/-- A bundle of the first generation with the registry the node already has. -/
theorem rollback_unchanged :
    let update := applyBundleUpdate fixtureServices "node-test" ("first", fixtureBundle 1) 0
      secondGeneration
    update.1 = .rejected (.rollback 1 2) ∧ update.2 = secondGeneration := by
  have hout : (applyBundleUpdate fixtureServices "node-test" ("first", fixtureBundle 1) 0
      secondGeneration).1 = .rejected (.rollback 1 2) := by decide +kernel
  refine ⟨hout, (rejected_unchanged_iff (Prod.ext hout rfl)).mpr ?_⟩
  rintro rb ⟨hparse, -⟩
  obtain rfl : fixtureBundle 1 = rb := Except.ok.inj hparse
  rfl

end Rejection

section Generations

/-- How the record may move: the generation does not fall, and its digest stays. -/
def ManagedState.AdvancesTo (ms ms' : ManagedState) : Prop :=
  ms.bundleGeneration ≤ ms'.bundleGeneration ∧
    (ms.bundleHash ≠ "" → ms'.bundleGeneration = ms.bundleGeneration → ms'.bundleHash = ms.bundleHash)

theorem ManagedState.AdvancesTo.refl (ms : ManagedState) : ms.AdvancesTo ms :=
  ⟨le_refl _, fun _ _ => rfl⟩

theorem ManagedState.AdvancesTo.trans {ms ms' ms'' : ManagedState} (h : ms.AdvancesTo ms')
    (h' : ms'.AdvancesTo ms'') : ms.AdvancesTo ms'' := by
  refine ⟨h.1.trans h'.1, fun hset hgen => ?_⟩
  have hmid : ms'.bundleGeneration = ms.bundleGeneration := le_antisymm (hgen ▸ h'.1) h.1
  have hhash := h.2 hset hmid
  rw [h'.2 (by rwa [hhash]) (hgen.trans hmid.symm), hhash]

theorem BundleStep.advancesTo {e : ρ × Time} (hpos : 0 < n.ms.bundleGeneration)
    (h : BundleStep services nodeID n e n') : n.ms.AdvancesTo n'.ms := by
  rcases h.cases with rfl | ⟨rb, -, -, rfl⟩ | ⟨rb, -, -, hfresh, rfl⟩
  · exact .refl _
  · exact .refl _
  · have hgen : n.ms.bundleGeneration ≤ rb.generation := by
      by_contra hlt
      exact hfresh ⟨hpos, .inl (not_le.mp hlt)⟩
    refine ⟨hgen, fun hset heq => ?_⟩
    by_contra hhash
    exact hfresh ⟨hpos, .inr ⟨heq, hset, hhash⟩⟩

theorem run_advancesTo {es : List (ρ × Time)} (hpos : 0 < n.ms.bundleGeneration)
    (h : Run (BundleStep services nodeID) n es n') : n.ms.AdvancesTo n'.ms := by
  induction h with
  | nil => exact .refl _
  | cons hstep _ ih =>
    have hfirst := hstep.advancesTo hpos
    exact hfirst.trans (ih (hpos.trans_le hfirst.1))

/-- A bundle that is not newer than a recorded one leaves the configuration alone. -/
theorem not_newer_keeps_cfg (hpos : 0 < n.ms.bundleGeneration) (hset : n.ms.bundleHash ≠ "")
    (hold : ∀ rb, services.parseBundle raw = .ok rb → rb.generation ≤ n.ms.bundleGeneration) :
    (applyBundleUpdate services nodeID raw now n).2.cfg = n.cfg := by
  have hstep : BundleStep services nodeID n (raw, now) (applyBundleUpdate services nodeID raw now n).2 := rfl
  rcases hstep.cases with h | ⟨rb, -, -, h⟩ | ⟨rb, hhash, htrust, hfresh, -⟩
  · rw [h]
  · rw [h, Node.withSnapshot]
  · rcases (hold rb htrust.1).lt_or_eq with hlt | heq
    · exact absurd ⟨hpos, .inl hlt⟩ hfresh
    · exact absurd ⟨hpos, .inr ⟨heq, hset, hhash⟩⟩ hfresh

def firstGeneration : Node (String × RuntimeBundle) := { fixtureNode with ms := ⟨1, "first"⟩ }

/-- A first generation recorded without its digest. -/
def unhashedGeneration : Node (String × RuntimeBundle) := { fixtureNode with ms := ⟨1, ""⟩ }

theorem unhashed_facts :
    (applyBundleUpdate fixtureServices "node-test" ("first", fixtureBundle 1) 0
      unhashedGeneration).2.cfg ≠ unhashedGeneration.cfg := by decide +kernel

end Generations

end Kernloom
