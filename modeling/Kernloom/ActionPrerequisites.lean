import Kernloom.HeldRuns
import Kernloom.LeaseStrength
import Kernloom.ProgramCalls

/-! The actions that an autonomy allowance requires before another one: what stands on the target when the
PEP is called or a lease is renewed. -/

namespace Kernloom

open Effects Effects.Program Keyed Transition

/-- Some allowance of the broker requires an action before another one. -/
def Broker.Requires (b : Broker) (action previous : String) : Prop :=
  ∃ allowance ∈ b.autonomyAllowances, trimSpace allowance.action = action ∧
    trimSpace allowance.requiresPreviousAction = previous ∧ previous ≠ ""

variable {π : Type}

/-- A lease of an action on a target that is stored as active. -/
structure StoredActive (b : Broker) (target action : String) (t : LeaseTable) (l : ActionLease) : Prop where
  mem : l ∈ t
  adapter : l.adapterID = b.adapterID
  target : l.target = target
  action : l.action = action
  status : l.status = .active

/-- It is stored as active and not expired. -/
def Standing (b : Broker) (target action : String) (w : World π) (l : ActionLease) : Prop :=
  StoredActive b target action w.leases l ∧ w.clock < l.expiresAt

/-- The PEP is called, and a lease renewed, for an action only while those required before it stand. -/
def AfterPrevious (b : Broker) : BrokerOp → World π → Prop
  | .pep (.apply lease), w => ∀ previous, b.Requires lease.action previous →
    ∃ l, Standing b lease.target previous w l
  | .store (.upsert lease), w => lease.status = .active → ∀ previous, b.Requires lease.action previous →
    ∃ l, Standing b lease.target previous w l
  | _, _ => True

section Step

variable (b : Broker) (pepStep : Environment PepOp PepOp.Answer π)

/-- A renewal keeps the lease that it finds: no execution parameter differs, and the PEP has its token. -/
def RenewalKeeps (w : World π) (r : ActionResolution) (existing : ActionLease) : Prop :=
  executionMetadataChanged existing.metadata (b.leaseMetadata r) = none ∧
    ∀ k pep, pepStep (.currentFencingToken existing) w.pep (.ok k) pep → k = existing.fencingToken

/-- The condition: of the leases stored as active for a required action one is not expired, and the call
does not replace it. -/
def PreviousStands (w : World π) (r : ActionResolution) : Prop :=
  ∀ previous, b.Requires r.executableAction previous →
    (∃ l, StoredActive b (targetString r.target) previous w.leases l ∧ l.level ∈ ["soft", "hard", "block"]) →
      ∃ l, Standing b (targetString r.target) previous w l ∧
        ∀ existing ∈ w.leases.findActiveActionLease b.adapterID (targetString r.target) r.executableAction
          r.executableLevel, existing.leaseID = l.leaseID → RenewalKeeps b pepStep w r existing

end Step

variable {faulty : Fault → Prop} {pepStep : Environment PepOp PepOp.Answer π} {b : Broker} {w : World π}
  {r : ActionResolution}

section Gate

theorem wp_hasActiveActionLease (target action : String) (levels : List String) :
    wp (brokerStep faulty pepStep) (fun _ => True)
      (fun ans w' => w' = w ∧
        (ans = .ok true → ∃ l, StoredActive b target action w.leases l ∧ l.level ∈ levels))
      (b.hasActiveActionLease target action levels) w := by
  induction levels with
  | nil => exact ⟨rfl, fun h => by cases h⟩
  | cons level levels ih =>
    refine wp_findActive trivial (fun err => ⟨rfl, fun h => by cases h⟩) ?_
    cases hfound : w.leases.findActiveActionLease b.adapterID target action level with
    | none =>
      refine wp_mono ih fun ans w' h => ⟨h.1, fun hans => ?_⟩
      obtain ⟨l, hl, hlevel⟩ := h.2 hans
      exact ⟨l, hl, List.mem_cons_of_mem _ hlevel⟩
    | some l =>
      obtain ⟨hmem, hadapter, htarget, haction, rfl, hstatus⟩ := LeaseTable.findActiveActionLease_spec hfound
      exact ⟨rfl, fun _ => ⟨l, ⟨hmem, hadapter, htarget, haction, hstatus⟩, List.mem_cons_self⟩⟩

/-- The gate passes only if each required action has a lease that is stored as active. -/
theorem wp_prerequisite (target : String) (allowances : List AutonomyAllowance) :
    wp (brokerStep faulty pepStep) (fun _ => True)
      (fun ans w' => w' = w ∧ (ans = .ok "" → ∀ allowance ∈ allowances,
        trimSpace allowance.action = r.executableAction → trimSpace allowance.requiresPreviousAction ≠ "" →
          ∃ l, StoredActive b target (trimSpace allowance.requiresPreviousAction) w.leases l ∧
            l.level ∈ ["soft", "hard", "block"]))
      (b.autonomyPrerequisiteDenyReason r target allowances) w := by
  induction allowances with
  | nil => exact ⟨rfl, fun _ _ h => absurd h List.not_mem_nil⟩
  | cons allowance rest ih =>
    have hskip : (trimSpace allowance.action = r.executableAction →
        trimSpace allowance.requiresPreviousAction ≠ "" →
          ∃ l, StoredActive b target (trimSpace allowance.requiresPreviousAction) w.leases l ∧
            l.level ∈ ["soft", "hard", "block"]) →
        wp (brokerStep faulty pepStep) (fun _ => True)
          (fun ans w' => w' = w ∧ (ans = .ok "" → ∀ allowance' ∈ allowance :: rest,
            trimSpace allowance'.action = r.executableAction →
            trimSpace allowance'.requiresPreviousAction ≠ "" →
              ∃ l, StoredActive b target (trimSpace allowance'.requiresPreviousAction) w.leases l ∧
                l.level ∈ ["soft", "hard", "block"]))
          (b.autonomyPrerequisiteDenyReason r target rest) w := fun hthis =>
      wp_mono ih fun ans w' h => ⟨h.1, fun hans => List.forall_mem_cons.mpr ⟨hthis, h.2 hans⟩⟩
    simp only [Broker.autonomyPrerequisiteDenyReason]
    by_cases haction : trimSpace allowance.action ≠ r.executableAction
    · rw [if_pos haction]
      exact hskip fun hsame => absurd hsame haction
    rw [if_neg haction]
    by_cases hprevious : trimSpace allowance.requiresPreviousAction = ""
    · rw [if_pos hprevious]
      exact hskip fun _ hne => absurd hprevious hne
    rw [if_neg hprevious, wp_bind]
    refine wp_mono (wp_hasActiveActionLease target (trimSpace allowance.requiresPreviousAction) _) ?_
    rintro ans w' ⟨rfl, hfound⟩
    rcases ans with err | (_ | _)
    · exact ⟨rfl, fun h => by cases h⟩
    · refine ⟨rfl, fun h => ?_⟩
      have hlength := congrArg String.length (Except.ok.inj h)
      simp at hlength
    · exact hskip fun _ _ => hfound rfl

end Gate

section Application

theorem afterPrevious_of_isRead {op : StoreOp} (hop : op.isRead) (w : World π) :
    AfterPrevious b (.store op) w := by
  cases op <;> first | exact trivial | exact hop.elim

theorem wpCalls_gate {α β : Type} {p : BrokerProgram α} {next : α → BrokerProgram β}
    {post : β → World π → Prop} {passed : α → World π → Prop} (hp : ReadsOnly p)
    (hwp : wp (brokerStep faulty pepStep) (fun _ => True) (fun a w' => w' = w ∧ passed a w') p w)
    (hnext : ∀ a, passed a w → wpCalls (brokerStep faulty pepStep) (AfterPrevious b) post (next a) w) :
    wpCalls (brokerStep faulty pepStep) (AfterPrevious b) post (p >>= next) w := by
  have hcalls : wpCalls (brokerStep faulty pepStep) (AfterPrevious b) (fun _ _ => True) p w :=
    wpCalls_of_uses hp trivial (fun op s hop _ => by
      cases op with
      | now => exact trivial
      | store op => exact afterPrevious_of_isRead hop s
      | pep op => exact hop.elim) fun _ _ _ _ _ _ _ => ⟨trivial, trivial⟩
  rw [wpCalls_bind]
  refine wpCalls_mono (hcalls.and_wp hwp) ?_
  rintro a w' ⟨-, rfl, hpassed⟩
  exact hnext a hpassed

theorem wpCalls_updateStatus {α : Type} {lease : ActionLease} {next : Fallible Unit → BrokerProgram α}
    {post : α → World π → Prop} (h : ∀ ans f, wpCalls (brokerStep faulty pepStep) (AfterPrevious b) post
      (next ans) { w with leases := (StoreOp.handleWith (.updateStatus lease) f w.leases).2 }) :
    wpCalls (brokerStep faulty pepStep) (AfterPrevious b) post
      (call (BrokerOp.store (.updateStatus lease)) next) w := by
  refine ⟨trivial, ?_⟩
  rintro ans w' ⟨f, -, rfl, rfl⟩
  exact h _ f

/-- Leases for the required actions that were there before the call and stand still. -/
def Survive (b : Broker) (before : LeaseTable) (r : ActionResolution) (w : World π) : Prop :=
  ∀ previous, b.Requires r.executableAction previous →
    ∃ l ∈ before, Standing b (targetString r.target) previous w l

theorem wpCalls_renewActiveLease {decisionID : String} (hstands : PreviousStands b pepStep w r)
    (hpassed : ∀ previous, b.Requires r.executableAction previous →
      ∃ l, StoredActive b (targetString r.target) previous w.leases l ∧ l.level ∈ ["soft", "hard", "block"]) :
    wpCalls (brokerStep faulty pepStep) (AfterPrevious b)
      (fun renewal w' => renewal.err = none → renewal.renewed = false → Survive b w.leases r w')
      (b.renewActiveLease r decisionID (targetString r.target) (b.leaseMetadata r) w.clock) w := by
  have hchosen := fun previous hreq => hstands previous hreq (hpassed previous hreq)
  have hsurvive : ∀ pep : π, Survive b w.leases r { w with pep } := by
    intro pep previous hreq
    obtain ⟨l, hl, -⟩ := hchosen previous hreq
    exact ⟨l, hl.1.mem, hl⟩
  simp only [Broker.renewActiveLease, perform_bind]
  refine ⟨trivial, ?_⟩
  rintro ans w' ⟨f, -, rfl, rfl⟩
  rw [StoreOp.handleWith_snd_of_isRead (show StoreOp.isRead (.findActive ..) from trivial)]
  cases hans : (StoreOp.handleWith (.findActive b.adapterID (targetString r.target) r.executableAction
    r.executableLevel) f w.leases).1 with
  | error err => exact fun h => by cases h
  | ok found =>
    have hfound := StoreOp.findActive_ok hans
    cases found with
    | none => exact fun _ _ => hsurvive w.pep
    | some existing =>
      obtain ⟨hmem, hadapter, htarget, haction, -, hstatus⟩ := LeaseTable.findActiveActionLease_spec hfound
      -- a lease that is ended is none of those that stand
      have hended : ∀ (ended : ActionLease) (pep : π), ended.leaseID = existing.leaseID →
          ¬ RenewalKeeps b pepStep w r existing → ∀ f, Survive b w.leases r
            { w with leases := (StoreOp.handleWith (.updateStatus ended) f w.leases).2, pep := pep } := by
        intro ended pep hid hlost f previous hreq
        obtain ⟨l, hl, hkeeps⟩ := hchosen previous hreq
        have hother : l.leaseID ≠ existing.leaseID := fun hsame => hlost (hkeeps existing hfound hsame.symm)
        refine ⟨l, hl.1.mem, ⟨?_, hl.1.adapter, hl.1.target, hl.1.action, hl.1.status⟩, hl.2⟩
        rcases updateStatus_outcome hmem hid.symm f with ⟨hsame, -⟩ | hwrites
        · rw [hsame]
          exact hl.1.mem
        · exact (hwrites l).mpr (.inr ⟨hl.1.mem, hother⟩)
      dsimp only
      cases hmetadata : executionMetadataChanged existing.metadata (b.leaseMetadata r) with
      | some key =>
        have hlost : ¬ RenewalKeeps b pepStep w r existing := fun h => by
          have hnone := h.1
          rw [hmetadata] at hnone
          cases hnone
        refine wpCalls_updateStatus fun ans f => ?_
        rcases ans with err | _
        · exact fun h => by cases h
        · exact fun _ _ => hended _ w.pep (by rfl) hlost f
      | none =>
        refine ⟨trivial, ?_⟩
        rintro ans w' ⟨pep, hpep, rfl⟩
        rcases ans with err | currentToken
        · exact fun h => by cases h
        dsimp only
        by_cases htoken : currentToken ≠ existing.fencingToken
        · rw [if_pos htoken]
          have hlost : ¬ RenewalKeeps b pepStep w r existing := fun h => htoken (h.2 currentToken pep hpep)
          refine wpCalls_updateStatus fun ans f => ?_
          rcases ans with err | _
          · exact fun h => by cases h
          · exact fun _ _ => hended _ pep (by rfl) hlost f
        · rw [if_neg htoken]
          by_cases hmax : 0 < b.maxRenewals ∧ b.maxRenewals ≤ leaseRenewalCount existing.metadata
          · rw [if_pos hmax]
            exact fun _ h => by cases h
          · rw [if_neg hmax]
            refine ⟨fun _ previous hreq => ?_, ?_⟩
            · have hsame : (Broker.renewed existing r decisionID (b.leaseMetadata r) w.clock).action =
                  r.executableAction := haction
              rw [hsame] at hreq
              obtain ⟨l, -, hl⟩ := hsurvive pep previous hreq
              have htarget : (Broker.renewed existing r decisionID (b.leaseMetadata r) w.clock).target =
                targetString r.target := htarget
              rw [htarget]
              exact ⟨l, hl⟩
            · rintro ans w' -
              rcases ans with err | _
              · exact fun h => by cases h
              · exact fun _ h => by cases h

/-- The calls after which nothing is asked. -/
def AsksNothing : BrokerOp → Prop
  | .store (.upsert _) | .pep (.apply _) => False
  | _ => True

theorem wpCalls_of_asksNothing {α : Type} {p : BrokerProgram α} (hp : Uses AsksNothing (fun _ _ => True) p)
    (w : World π) : wpCalls (brokerStep faulty pepStep) (AfterPrevious b) (fun _ _ => True) p w := by
  refine wpCalls_of_uses hp trivial (fun op s hop _ => ?_) fun _ _ _ _ _ _ _ => ⟨trivial, trivial⟩
  cases op with
  | now => exact trivial
  | store op => cases op <;> first | exact trivial | exact hop.elim
  | pep op => cases op <;> first | exact trivial | exact hop.elim

/-- A lease is created on a target only while what is required before its action stands. -/
theorem wpCalls_createLease {before : LeaseTable} {lease : ActionLease} {receipt : EnforcementReceipt}
    {now : Time} (hsurvive : Survive b before r w) (hunused : ∀ l ∈ before, l.leaseID ≠ lease.leaseID)
    (hpending : lease.status = .pending) (haction : lease.action = r.executableAction)
    (htarget : lease.target = targetString r.target) :
    wpCalls (brokerStep faulty pepStep) (AfterPrevious b) (fun _ _ => True)
      (b.createLease lease receipt now) w := by
  simp only [Broker.createLease, perform_bind]
  refine ⟨fun hactive => absurd (hpending.symm.trans hactive) (by decide), ?_⟩
  rintro ans w' ⟨f, -, rfl, rfl⟩
  have houtcome := upsert_outcome w.leases lease f
  generalize (StoreOp.handleWith (.upsert lease) f w.leases).1 = ans at houtcome ⊢
  generalize (StoreOp.handleWith (.upsert lease) f w.leases).2 = leases at houtcome ⊢
  rcases ans with err | _
  · exact trivial
  have hwrites := houtcome.resolve_left fun h => h.2 rfl
  refine ⟨fun previous hreq => ?_, ?_⟩
  · rw [haction] at hreq
    obtain ⟨l, hbefore, ⟨hmem, hadapter, htarget', haction', hstatus⟩, hexpires⟩ := hsurvive previous hreq
    rw [htarget]
    have hkept := (hwrites l).mpr (.inr ⟨hmem, hunused l hbefore⟩)
    exact ⟨l, ⟨hkept, hadapter, htarget', haction', hstatus⟩, hexpires⟩
  rintro ans w' -
  rcases ans with err | token
  · exact wpCalls_updateStatus fun _ _ => trivial
  dsimp only
  by_cases htoken : token ≠ "" ∧ token ≠ lease.fencingToken
  · rw [if_pos htoken]
    exact wpCalls_updateStatus fun _ _ => trivial
  · rw [if_neg htoken]
    refine wpCalls_updateStatus fun ans f => ?_
    rcases ans with err | _
    · exact trivial
    · refine wpCalls_of_asksNothing (Uses.bind (uses_supersession (fun op hop => ?_) fun _ _ => trivial)
        fun ans => ?_) _
      · cases op <;> first | exact trivial | exact hop.elim
      · cases ans <;> exact trivial

/-- Under the condition, the whole application asks for an action only after those required before it. -/
theorem wpCalls_apply {ids : GeneratedIDs} (hstands : PreviousStands b pepStep w r)
    (hunused : UnusedID w.leases ids) :
    wpCalls (brokerStep faulty pepStep) (AfterPrevious b) (fun _ _ => True) (b.apply ids r) w := by
  simp only [Broker.apply, perform_bind]
  refine ⟨trivial, ?_⟩
  rintro now w' ⟨rfl, rfl⟩
  dsimp only
  by_cases hallowed : ¬ r.allowed
  · rw [if_pos hallowed]
    exact trivial
  rw [if_neg hallowed]
  by_cases hnone : r.executableLevel = "" ∨ r.executableLevel = "observe" ∨ r.ttl ≤ 0
  · rw [if_pos hnone]
    exact trivial
  rw [if_neg hnone]
  refine wpCalls_gate (readsOnly_autonomyPrerequisiteDenyReason _ _ _) (wp_prerequisite _ _)
    fun reason hpassed => ?_
  rcases reason with err | reason
  · exact trivial
  dsimp only
  by_cases hreason : reason ≠ ""
  · rw [if_pos hreason]
    exact trivial
  rw [if_neg hreason]
  have hactive : ∀ previous, b.Requires r.executableAction previous →
      ∃ l, StoredActive b (targetString r.target) previous w'.leases l ∧
        l.level ∈ ["soft", "hard", "block"] := by
    rintro previous ⟨allowance, hmem, haction, rfl, hne⟩
    exact hpassed (by rw [not_not.mp hreason]) allowance hmem haction hne
  refine wpCalls_gate (readsOnly_strongerActiveLeaseDenyReason _ _)
    (wp_mono (wp_readsOnly (readsOnly_strongerActiveLeaseDenyReason _ _) trivial) fun _ _ h => ⟨h, trivial⟩)
    fun stronger _ => ?_
  rcases stronger with err | stronger
  · exact trivial
  dsimp only
  by_cases hstronger : stronger ≠ ""
  · rw [if_pos hstronger]
    exact trivial
  rw [if_neg hstronger, wpCalls_bind]
  refine wpCalls_mono (wpCalls_renewActiveLease hstands hactive) fun renewal w₁ hsurvive => ?_
  rcases renewal with ⟨lease, renewed, skipReason, _ | err⟩
  · simp only [Broker.afterRenewal]
    by_cases hskip : skipReason ≠ ""
    · rw [if_pos hskip]
      exact trivial
    rw [if_neg hskip]
    cases renewed with
    | true => exact trivial
    | false => exact wpCalls_createLease (hsurvive rfl rfl) hunused rfl rfl rfl
  · exact trivial

theorem wpCalls_revertExpired (now : Time) :
    wpCalls (brokerStep faulty pepStep) (AfterPrevious b) (fun _ _ => True) (b.revertExpired now) w :=
  wpCalls_of_asksNothing (uses_revertExpired trivial
    (uses_revert trivial (fun _ => trivial) (fun _ => trivial) fun _ _ => trivial)) w

end Application

section Runs

/-- An operation of the broker, which a crash may cut short, or the passing of time. -/
inductive PrerequisiteEvent where
  | apply (ids : GeneratedIDs) (r : ActionResolution)
  | revertExpired (now : Time)
  | clock (now : Time)

section Step

variable (b : Broker) (pepStep : Environment PepOp PepOp.Answer π)

def PrerequisiteStep (w : World π) : PrerequisiteEvent → World π → Prop
  | .apply ids r, w' => UnusedID w.leases ids ∧ Stops (brokerStep anyFault pepStep) (b.apply ids r) w w'
  | .revertExpired now, w' => Stops (brokerStep anyFault pepStep) (b.revertExpired now) w w'
  | .clock now, w' => w' = { w with clock := now }

/-- Every call that an operation makes for an action is made while what is required before it stands. -/
def OnlyAfterPrevious (w : World π) : PrerequisiteEvent → Prop
  | .apply ids r =>
    ∀ op t, Reaches (brokerStep anyFault pepStep) (b.apply ids r) w op t → AfterPrevious b op t
  | .revertExpired now =>
    ∀ op t, Reaches (brokerStep anyFault pepStep) (b.revertExpired now) w op t → AfterPrevious b op t
  | .clock _ => True

/-- Every application finds an unexpired lease among those recorded for each required action. -/
def FindsPrevious (w : World π) : PrerequisiteEvent → Prop
  | .apply _ r => PreviousStands b pepStep w r
  | .revertExpired _ | .clock _ => True

end Step

/-- In a run whose applications each find what they require, the PEP is called and a lease renewed only
while what is required before it stands. -/
theorem prerequisites_stand {w₀ : World π} {es : List PrerequisiteEvent}
    (hrun : Run (Guarded (FindsPrevious b pepStep) (PrerequisiteStep b pepStep)) w₀ es w) :
    Run (Guarded (OnlyAfterPrevious b pepStep) (PrerequisiteStep b pepStep)) w₀ es w := by
  refine hrun.mono fun {s e t} h => ⟨?_, h.2⟩
  obtain ⟨hfinds, hstep⟩ := h
  cases e with
  | apply ids r => exact fun op t hreach => (wpCalls_apply hfinds hstep.1).reaches hreach
  | revertExpired now => exact fun op t hreach => (wpCalls_revertExpired now).reaches hreach
  | clock now => trivial

end Runs

section Escalation

/-- A drop is allowed only after a rate limit. -/
def limitFirstBroker : Broker where
  nodeID := "node-1"
  adapterID := "kliq-source-pep"
  autonomyAllowances := [⟨"enforce.traffic.drop", "enforce.traffic.rate_limit"⟩]
  sha256 := digestsOf
    [("kliq-source-pep|source:10.0.0.1|enforce.traffic.rate_limit|soft|decision-1|" ++
        "lease-00000000-0000-4000-8000-000000000001",
      "58450b8a306d001894162ef6957edc3a6ab1a1e808dd0d6828494ef025e02189"),
    ("kliq-source-pep|source:10.0.0.1|enforce.traffic.drop|block|decision-2|" ++
        "lease-00000000-0000-4000-8000-000000000002",
      "79758832814ae637d6b90a9e3ba913cff3fa39684f4694c33787b1ac76eede20")]

def softLimit : ActionResolution := limitOn "enforce.traffic.rate_limit" "soft" "1"

def escalatedDrop : ActionResolution := limitOn "enforce.traffic.drop" "block" "2"

def softlyLimitedFirst : World Unit :=
  (exec (brokerHandle obedientPEP .none) (limitFirstBroker.apply (limitIDs "1") softLimit) unlimitedStart).2

def droppedInTime : World Unit :=
  (exec (brokerHandle obedientPEP .none) (limitFirstBroker.apply (limitIDs "2") escalatedDrop)
    softlyLimitedFirst).2

/-- Two minutes later the rate limit is expired, and not swept yet. -/
def unswept : World Unit :=
  { softlyLimitedFirst with clock := softlyLimitedFirst.clock + 120 * Duration.second }

theorem obedient_brokerHandle (op : BrokerOp) (w : World Unit) :
    brokerStep anyFault (answers obedientPEP) op w (brokerHandle obedientPEP .none op w).1
      (brokerHandle obedientPEP .none op w).2 :=
  brokerStep_brokerHandle trivial (fun _ _ => rfl) op w

theorem stops_limitFirst (ids : GeneratedIDs) (r : ActionResolution) (w : World Unit) :
    Stops (brokerStep anyFault (answers obedientPEP)) (limitFirstBroker.apply ids r) w
      (exec (brokerHandle obedientPEP .none) (limitFirstBroker.apply ids r) w).2 :=
  (runs_brokerHandle _ w trivial).stops

/-- The PEP is asked for a drop, and no unexpired lease is for a rate limit. -/
def dropsUnlimited : BrokerOp × World Unit → Bool
  | (.pep (.apply lease), w) => lease.action = "enforce.traffic.drop" ∧
      ∀ l ∈ w.leases.rows, l.action = "enforce.traffic.rate_limit" → l.expiresAt ≤ w.clock
  | _ => false

theorem escalation_facts :
    (∃ l ∈ softlyLimitedFirst.leases.rows, l.adapterID = "kliq-source-pep" ∧ l.target = "source:10.0.0.1" ∧
      l.action = "enforce.traffic.rate_limit" ∧ l.status = .active ∧ softlyLimitedFirst.clock < l.expiresAt) ∧
    (softlyLimitedFirst.leases.findActiveActionLease "kliq-source-pep" "source:10.0.0.1"
      "enforce.traffic.drop" "block" = none) ∧
    (UnusedID softlyLimitedFirst.leases (limitIDs "2") ∧ UnusedID unswept.leases (limitIDs "2")) ∧
    ∃ c ∈ calls (brokerHandle obedientPEP .none)
        (limitFirstBroker.apply (limitIDs "2") escalatedDrop) unswept,
      dropsUnlimited c = true := by
  decide +kernel

theorem requires_drop {action previous : String} (h : limitFirstBroker.Requires action previous) :
    action = "enforce.traffic.drop" ∧ previous = "enforce.traffic.rate_limit" := by
  obtain ⟨allowance, hmem, rfl, rfl, -⟩ := h
  obtain rfl := List.mem_singleton.mp hmem
  decide +kernel

theorem findsPrevious_softLimit :
    FindsPrevious limitFirstBroker (answers obedientPEP) unlimitedStart (.apply (limitIDs "1") softLimit) :=
  fun _ hreq => absurd (requires_drop hreq).1 (by decide)

theorem findsPrevious_escalatedDrop :
    FindsPrevious limitFirstBroker (answers obedientPEP) softlyLimitedFirst
      (.apply (limitIDs "2") escalatedDrop) := by
  intro previous hreq _
  obtain ⟨-, rfl⟩ := requires_drop hreq
  obtain ⟨⟨l, hmem, hadapter, htarget, haction, hstatus, hexpires⟩, hnone, -⟩ := escalation_facts
  refine ⟨l, ⟨⟨hmem, hadapter, htarget, haction, hstatus⟩, hexpires⟩, fun existing hexisting => ?_⟩
  exact absurd (hnone.symm.trans hexisting) nofun

/-- A rate limit and then, while it is in force, a drop. -/
theorem escalation_stands : Run (Guarded (OnlyAfterPrevious limitFirstBroker (answers obedientPEP))
    (PrerequisiteStep limitFirstBroker (answers obedientPEP))) unlimitedStart
    [.apply (limitIDs "1") softLimit, .apply (limitIDs "2") escalatedDrop] droppedInTime :=
  prerequisites_stand (.cons ⟨findsPrevious_softLimit, by decide, stops_limitFirst _ _ _⟩
    (.singleton ⟨findsPrevious_escalatedDrop, escalation_facts.2.2.1.1, stops_limitFirst _ _ _⟩))

/-- Before the sweep an expired rate limit still lets a drop through. -/
theorem expired_limit_escalates : ¬ ∀ (b : Broker) (w₀ w w' : World Unit) (es : List PrerequisiteEvent)
    (e : PrerequisiteEvent), w₀.leases = Table.empty →
    Run (PrerequisiteStep b (answers obedientPEP)) w₀ es w → PrerequisiteStep b (answers obedientPEP) w e w' →
      OnlyAfterPrevious b (answers obedientPEP) w e := by
  intro h
  obtain ⟨-, -, ⟨-, hunused⟩, ⟨op, t⟩, hcall, hdrops⟩ := escalation_facts
  have hreach := reaches_of_mem_calls obedient_brokerHandle hcall
  have hrun : Run (PrerequisiteStep limitFirstBroker (answers obedientPEP)) unlimitedStart
      [.apply (limitIDs "1") softLimit, .clock unswept.clock] unswept :=
    .cons ⟨by decide, stops_limitFirst _ _ _⟩ (.singleton rfl)
  have hafter := h limitFirstBroker unlimitedStart unswept _ _ (.apply (limitIDs "2") escalatedDrop) rfl hrun
    ⟨hunused, stops_limitFirst _ _ _⟩ op t hreach
  rcases op with _ | op | (lease | _ | _)
  · cases hdrops
  · cases hdrops
  · obtain ⟨haction, hexpired⟩ := of_decide_eq_true hdrops
    obtain ⟨l, hl, hstands⟩ := hafter "enforce.traffic.rate_limit"
      ⟨_, List.mem_singleton_self _, by rw [haction]; decide +kernel, by decide +kernel, by decide⟩
    exact absurd (hexpired l hl.mem hl.action) (not_le.mpr hstands)
  · cases hdrops
  · cases hdrops

end Escalation

end Kernloom
