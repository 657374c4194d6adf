import Kernloom.SourceApply
import Kernloom.Transition

/-! Runs of the executor on its sources: applications with any resolution, operator overrides and
sweeps. A source enforces what a successful application said, in every run in which no transition
or sweep goes behind the back of a lease in force. -/

namespace Kernloom

open Effects LeaseTable Transition

inductive SourceEvent where
  | applySource (ids : GeneratedIDs) (target : SourceTarget) (st : FsmState) (r : ActionResolution)
      (params : EnforcementParams) (now : Time)
  | observeOverride (target : SourceTarget) (st : FsmState) (params : EnforcementParams) (now : Time)
      (reason : String)
  | revertExpired (now : Time)
  | clock (now : Time)

namespace ReliableExecutor

variable {σ ρ : Type} (e : ReliableExecutor σ ρ)

/-- What the callers of the executor and the random identifiers guarantee: a resolution names the
source it is applied to, and a new lease has an unused ID and token. -/
def Possible (w : NodeWorld σ ρ) : SourceEvent → Prop
  | .applySource ids target _ r _ _ =>
    r.target.granularity = "source" ∧ r.target.value ≠ "" ∧ target.id = r.target.value ∧
      (shouldBrokerLease r → Fresh w.leases (nextLease e.sourceBroker ids r))
  | .observeOverride target .. => target.id ≠ ""
  | .revertExpired _ | .clock _ => True

instance (w : NodeWorld σ ρ) (ev : SourceEvent) : Decidable (e.Possible w ev) :=
  match ev with
  | .applySource .. => inferInstanceAs (Decidable (_ ∧ _ ∧ _ ∧ (_ → _)))
  | .observeOverride target .. => inferInstanceAs (Decidable (target.id ≠ ""))
  | .revertExpired _ | .clock _ => inferInstanceAs (Decidable True)

def next (w : NodeWorld σ ρ) : SourceEvent → NodeWorld σ ρ
  | .applySource ids target st r params now => (e.applySource ids target st r params now w).2
  | .observeOverride target st params now reason =>
    (e.applySourceObserveOverride target st params now reason w).2
  | .revertExpired now => e.revertExpired now w
  | .clock now => { w with clock := now }

def Step (w : NodeWorld σ ρ) (ev : SourceEvent) (w' : NodeWorld σ ρ) : Prop :=
  e.Possible w ev ∧ w' = e.next w ev

def Initial (w : NodeWorld σ ρ) : Prop := w.leases = Keyed.Table.empty ∧ w.pep.source.currentTokens = ∅

/-- An active lease whose token the PEP reads as in force. -/
def InForce (w : NodeWorld σ ρ) (l : ActionLease) : Prop :=
  l ∈ w.leases ∧ l.status = .active ∧ w.pep.source.currentTokens.current l = l.fencingToken

/-- The leases in force on a source stand for this enforcement. -/
def Keeps (w : NodeWorld σ ρ) (source : String) (x : Enforcement) : Prop :=
  ∀ l, InForce w l → l.target = "source:" ++ source → l.Enforces x

/-- The level that an unbrokered application moves its source to. -/
def unbrokeredLevel (r : ActionResolution) : Level :=
  if r.allowed then parseFSMLevel r.executableLevel else .observe

/-- No transition without a lease moves a source away from its lease in force, and no sweep reverts
a lease in force while another lease stays active on its target. -/
def Undisturbed (w : NodeWorld σ ρ) : SourceEvent → Prop
  | .applySource _ target _ r params _ =>
    ¬ shouldBrokerLease r → Keeps w target.id
      (enforcementOf (unbrokeredLevel r) (enforcementParamsForResolution params r))
  | .observeOverride target .. => Keeps w target.id {}
  | .revertExpired now =>
    ∀ l, InForce w l → formatTime l.expiresAt ≤ formatTime now →
      ∀ x ∈ w.leases, x.status = .active → x.target = l.target → formatTime x.expiresAt ≤ formatTime now
  | .clock _ => True

/-- Every brokered application that reports success leaves its source enforced as it says. -/
def AppliedMeansEnforced (w : NodeWorld σ ρ) : Prop :=
  ∀ ids target st r params now, e.Possible w (.applySource ids target st r params now) →
    shouldBrokerLease r → (e.applySource ids target st r params now w).1.2.status = .applied →
    e.enforcedOn (e.applySource ids target st r params now w).2 r.target.value =
      enforcementOf (parseFSMLevel r.executableLevel) (enforcementParamsForResolution params r)

variable {e} {w : NodeWorld σ ρ}

theorem applyBrokered_coherent {ids : GeneratedIDs} {target : SourceTarget} {st : FsmState}
    {r : ActionResolution} {p : EnforcementParams} {now : Time} (h : e.CoherentAt [] settled w)
    (hgran : r.target.granularity = "source") (hne : r.target.value ≠ "")
    (hid : target.id = r.target.value) (hfresh : Fresh w.leases (nextLease e.sourceBroker ids r)) :
    e.CoherentAt [] settled (e.applyBrokered ids ⟨target, st, r, p, now⟩ w).2 ∧
      ((e.applyBrokered ids ⟨target, st, r, p, now⟩ w).1.2.status = .applied →
        e.enforcedOn (e.applyBrokered ids ⟨target, st, r, p, now⟩ w).2 r.target.value =
          enforcementOf (parseFSMLevel r.executableLevel) p) := by
  let ctx : ApplyContext := ⟨target, st, resolutionWithExecutionMetadata r p, p, now⟩
  have hbegin : e.CoherentAt [] settled (w.withSource (w.pep.source.begin ctx)) := h
  have hactive : (w.withSource (w.pep.source.begin ctx)).pep.source.active = some ctx := rfl
  have hwp : wp (e.env w.clock) _ _ _ _ :=
    wp_apply_coherent hbegin hactive rfl rfl hgran rfl hne hid hfresh
  exact exec_post hwp

theorem applySource_coherent {ids : GeneratedIDs} {target : SourceTarget} {st : FsmState}
    {r : ActionResolution} {params : EnforcementParams} {now : Time} (h : e.CoherentAt [] settled w)
    (hposs : e.Possible w (.applySource ids target st r params now)) (hb : shouldBrokerLease r) :
    e.CoherentAt [] settled (e.applySource ids target st r params now w).2 ∧
      ((e.applySource ids target st r params now w).1.2.status = .applied →
        e.enforcedOn (e.applySource ids target st r params now w).2 r.target.value =
          enforcementOf (parseFSMLevel r.executableLevel) (enforcementParamsForResolution params r)) := by
  obtain ⟨hgran, hne, hid, hfresh⟩ := hposs
  simp only [BrokeredActionExecutor.applySource, if_pos hb]
  exact applyBrokered_coherent h hgran hne hid (hfresh hb)

theorem applyUnbrokered_coherent {target : SourceTarget} {st : FsmState} {r : ActionResolution}
    {p : EnforcementParams} {now : Time} (h : e.CoherentAt [] settled w)
    (hkeep : Keeps w target.id (enforcementOf (unbrokeredLevel r) p)) :
    e.CoherentAt [] settled (e.applyUnbrokered target st r p now w).2 := by
  have henf : ∀ s, e.enforcedOn (e.applyUnbrokered target st r p now w).2 s =
      if s = target.id then enforcementOf (unbrokeredLevel r) p else e.enforcedOn w s := by
    intro s
    have hh := e.enforced_transition target st (unbrokeredLevel r) now p w.pep.source.adapter s
    rw [unbrokeredLevel, ← SourceActionExecutor.applySource_snd] at hh
    exact hh
  refine h.move (fun l hl hs ht hk => ?_) fun s hne => by rw [henf, if_neg hne]
  obtain ⟨s, hsource⟩ := h.row l hl
  rw [henf, if_pos rfl]
  exact hkeep l ⟨hl, hs, (current_eq_iff hsource).mpr (.inr hk)⟩ ht

theorem revertExpired_coherent {now : Time} (h : e.CoherentAt [] settled w)
    (hkeep : Undisturbed w (.revertExpired now)) :
    e.CoherentAt [] settled (e.revertExpired now w) := by
  have hsweep : e.CoherentAt [] settled (e.revertExpiredSources now w).2 ∧
      (e.revertExpiredSources now w).2.leases.listExpiredActionLeases now = [] := by
    refine exec_post (wp_revertExpired_coherent h fun l hl hk x hx hs ht => ?_)
    obtain ⟨hl, hls, hexp⟩ := mem_listExpiredActionLeases.mp hl
    obtain ⟨s, hsource⟩ := h.row l hl
    exact mem_listExpiredActionLeases.mpr
      ⟨hx, hs, hkeep l ⟨hl, hls, (current_eq_iff hsource).mpr (.inr hk)⟩ hexp x hx hs ht⟩
  unfold BrokeredActionExecutor.revertExpired
  split
  · exact hsweep.1
  · rw [revertExpired_none_due hsweep.2]
    exact hsweep.1

theorem Initial.coherent (h : Initial w) : e.CoherentAt [] settled w := by
  have hempty : ∀ l, l ∉ w.leases := by simp [h.1]
  refine ⟨fun l hl => absurd hl (hempty l), fun l hl => absurd hl (hempty l), fun target ht => ?_,
    fun l hl => absurd hl (hempty l), fun l hl => absurd hl (hempty l)⟩
  simp [tokenOn, h.2, GoMap.get] at ht

theorem Step.coherent {ev : SourceEvent} {w' : NodeWorld σ ρ} (h : e.CoherentAt [] settled w)
    (hstep : Guarded Undisturbed e.Step w ev w') : e.CoherentAt [] settled w' := by
  obtain ⟨hkeep, hposs, rfl⟩ := hstep
  cases ev with
  | applySource ids target st r params now =>
    by_cases hb : shouldBrokerLease r
    · exact (applySource_coherent h hposs hb).1
    · simp only [next, BrokeredActionExecutor.applySource, if_neg hb]
      exact applyUnbrokered_coherent h (hkeep hb)
  | observeOverride target st params now reason =>
    have hid : SourceTarget.id (if target.sourceID = "" then { target with sourceID := target.subjectID }
        else target) = target.id := by
      by_cases hs : target.sourceID = "" <;> simp [SourceTarget.id, hs]
    refine applyUnbrokered_coherent h ?_
    rw [hid]
    exact hkeep
  | revertExpired now => exact revertExpired_coherent h hkeep
  | clock now => exact h

theorem run_coherent {w₀ : NodeWorld σ ρ} {es : List SourceEvent} (h₀ : Initial w₀)
    (hrun : Run (Guarded Undisturbed e.Step) w₀ es w) : e.CoherentAt [] settled w :=
  hrun.invariant h₀.coherent Step.coherent

/-- In every run in which nothing disturbs a lease in force, an application that reports success
leaves its source enforced as it says. -/
theorem applied_means_enforced {w₀ : NodeWorld σ ρ} {es : List SourceEvent} (h₀ : Initial w₀)
    (hrun : Run (Guarded Undisturbed e.Step) w₀ es w) : e.AppliedMeansEnforced w :=
  fun _ _ _ _ _ _ hposs hb happlied => (applySource_coherent (run_coherent h₀ hrun) hposs hb).2 happlied

end ReliableExecutor

section DeniedInBetween

/-- An adapter that keeps what each source was last moved to. -/
def recordingPEP : SourcePEP (GoMap Enforcement) where
  transitionSource target st level now p s :=
    (.ok (applyStateFields st level now p), s.insert target.id (enforcementOf level p))

def recordingExecutor (sourceBroker : Broker) : ReliableExecutor (GoMap Enforcement) Unit where
  sourcePEP := recordingPEP
  sourceBroker := sourceBroker
  relationshipPEP := ⟨fun _ => false, fun _ s => (.ok (), s), fun _ s => (.ok (), s)⟩
  enforced s source := s.get source
  transition_ok _ _ _ _ _ _ := ⟨_, rfl⟩
  enforced_transition target _ level _ p s source := by
    by_cases h : source = target.id
    · subst h
      simp [recordingPEP]
    · simp [recordingPEP, h, GoMap.get_insert_ne]

/-- The text the lease below is fenced with, and its digest for the two applications made. -/
def limitText (n : String) : String :=
  "kliq-source-pep|source:10.0.0.1|enforce.traffic.rate_limit|hard|decision-" ++ n ++
    "|lease-00000000-0000-4000-8000-00000000000" ++ n

def limitDigest (text : String) : String :=
  if text = limitText "1" then "3a74fe4a8c76b0d1cff8180024f517506cd99c98d969b8d5d8e743ed2fa00742"
  else if text = limitText "2" then "3ebb039e37559cf47c6dabaae7c240374af64ca07ec8dc90bd489f4e354a27cf"
  else ""

def limitingNode : ReliableExecutor (GoMap Enforcement) Unit :=
  recordingExecutor { nodeID := "node-1", adapterID := "kliq-source-pep", sha256 := limitDigest }

def limitingStart : NodeWorld (GoMap Enforcement) Unit :=
  ⟨Keyed.Table.empty, 63864979200000000000, { adapter := ∅ }, { adapter := () }⟩

/-- A hard rate limit of one minute on one source, allowed or denied. -/
def limitResolution (allowed : Bool) (n : String) : ActionResolution :=
  { decisionID := "decision-" ++ n
    allowed := allowed
    requestedAction := "enforce.traffic.rate_limit"
    requestedLevel := "hard"
    executableAction := "enforce.traffic.rate_limit"
    executableLevel := "hard"
    target := { granularity := "source", value := "10.0.0.1" }
    ttl := 60 * Duration.second }

def limitOnce (allowed : Bool) (n : String) : SourceEvent :=
  .applySource ⟨n, "00000000-0000-4000-8000-00000000000" ++ n⟩ { sourceID := "10.0.0.1" } {}
    (limitResolution allowed n) { hardRate := 50, hardBurst := 100 } 63864979200000000000

def limitedWorld : NodeWorld (GoMap Enforcement) Unit := limitingNode.next limitingStart (limitOnce true "1")

def deniedWorld : NodeWorld (GoMap Enforcement) Unit := limitingNode.next limitedWorld (limitOnce false "1")

def limitParams : EnforcementParams := { hardRate := 50, hardBurst := 100 }

/-- The renewal of the limit, which draws the identifiers of the second application. -/
def renewLimit (w : NodeWorld (GoMap Enforcement) Unit) :
    (FsmState × ActionResult) × NodeWorld (GoMap Enforcement) Unit :=
  limitingNode.applySource ⟨"2", "00000000-0000-4000-8000-000000000002"⟩ { sourceID := "10.0.0.1" } {}
    (limitResolution true "2") limitParams 63864979200000000000 w

def RenewalApplies (w : NodeWorld (GoMap Enforcement) Unit) : Prop :=
  limitingNode.Possible w (.applySource ⟨"2", "00000000-0000-4000-8000-000000000002"⟩
    { sourceID := "10.0.0.1" } {} (limitResolution true "2") limitParams 63864979200000000000) ∧
  (renewLimit w).1.2.status = .applied

instance (w : NodeWorld (GoMap Enforcement) Unit) : Decidable (RenewalApplies w) :=
  inferInstanceAs (Decidable (_ ∧ _))

theorem limited_facts :
    shouldBrokerLease (limitResolution true "1") ∧ shouldBrokerLease (limitResolution true "2") ∧
    limitingNode.Possible limitingStart (limitOnce true "1") ∧
    limitingNode.Possible limitedWorld (limitOnce false "1") ∧
    RenewalApplies limitedWorld ∧ RenewalApplies deniedWorld ∧
    limitingNode.enforcedOn (renewLimit deniedWorld).2 "10.0.0.1" = {} ∧
    enforcementOf (parseFSMLevel (limitResolution true "2").executableLevel)
      (enforcementParamsForResolution limitParams (limitResolution true "2")) = ⟨.hard, 50, 100⟩ := by
  decide +kernel

theorem limited_run : Run (Guarded ReliableExecutor.Undisturbed limitingNode.Step) limitingStart [limitOnce true "1"]
    limitedWorld := by
  obtain ⟨hbrokered, -, hposs, -⟩ := limited_facts
  exact .singleton ⟨fun h => absurd hbrokered h, hposs, rfl⟩

/-- A renewal after a successful application finds its source enforced. -/
theorem limit_renewed_enforced :
    limitingNode.enforcedOn (renewLimit limitedWorld).2 "10.0.0.1" = ⟨.hard, 50, 100⟩ := by
  obtain ⟨-, hbrokered, -, -, ⟨hposs, happlied⟩, -, -, hlimit⟩ := limited_facts
  exact (ReliableExecutor.applied_means_enforced ⟨rfl, rfl⟩ limited_run _ _ _ _ _ _ hposs hbrokered
    happlied).trans hlimit

/-- A denial in between moves the source to observe; the renewal after it reports success. -/
theorem limit_renewed_unenforced : ¬ ∀ es w, Run limitingNode.Step limitingStart es w →
    limitingNode.AppliedMeansEnforced w := by
  intro h
  obtain ⟨-, hbrokered, hposs, hdenied, -, ⟨hrenewed, happlied⟩, hobserve, hlimit⟩ := limited_facts
  have hrun : Run limitingNode.Step limitingStart [limitOnce true "1", limitOnce false "1"] deniedWorld :=
    .cons ⟨hposs, rfl⟩ (.singleton ⟨hdenied, rfl⟩)
  have henforced := h _ _ hrun _ _ _ _ _ _ hrenewed hbrokered happlied
  exact absurd (hobserve.symm.trans (henforced.trans hlimit)) (by decide)

end DeniedInBetween

end Kernloom
