import Kernloom.EnforcedTargets
import Kernloom.SourceRules

/-! The limits of an autonomy lifecycle on how long an action lasts, and the leases under which a resolved
action is enforced. -/

namespace Kernloom

open Effects Effects.Program Keyed

namespace PolicyResolver

/-- The lifecycle limits an action to a duration. -/
def Limits (r : PolicyResolver) (action : String) (limit : Duration) : Prop :=
  ∃ lifecycle ∈ r.runtimeAutonomyLifecycle, ∃ l ∈ lifecycle.maxActionDuration,
    trimSpace l.action = action ∧ l.duration = limit ∧ 0 < limit

end PolicyResolver

section Calls

variable {π : Type} {A : Type} {pepStep : Environment PepOp PepOp.Answer π} {w : World π} {b : Broker}
  {ids : GeneratedIDs} {r : ActionResolution}

/-- No lease of the table ends after `bound`, unless it did before. -/
def EndsBy (before : LeaseTable) (bound : Time) (after : LeaseTable) : Prop :=
  ∀ lease ∈ after, lease.expiresAt ≤ bound ∨
    ∃ l ∈ before, l.leaseID = lease.leaseID ∧ l.expiresAt = lease.expiresAt

/-- The lease that a call draws for its resolution is in the table. -/
def Drawn (ids : GeneratedIDs) (r : ActionResolution) (clock : Time) (t : LeaseTable) : Prop :=
  ∃ lease ∈ t, lease.leaseID = "lease-" ++ ids.lease ∧ lease.target = targetString r.target ∧
    lease.action = r.executableAction ∧ lease.expiresAt = clock + r.ttl

theorem EndsBy.updateStatus {before t : LeaseTable} {bound : Time} (h : EndsBy before bound t)
    (lease : ActionLease) : EndsBy before bound (t.updateActionLeaseStatus lease) := by
  intro l hl
  obtain ⟨row, hrow, rfl⟩ := LeaseTable.mem_updateActionLeaseStatus.mp hl
  have hrow := h row hrow
  split
  · exact hrow
  · exact hrow

theorem EndsBy.upsert {before t : LeaseTable} {bound : Time} {lease : ActionLease} (h : EndsBy before bound t)
    (hlease : lease.expiresAt ≤ bound) : EndsBy before bound (t.upsertActionLease lease) := by
  intro l hl
  rcases LeaseTable.mem_upsertActionLease.mp hl with rfl | ⟨hl, -⟩
  · exact .inl hlease
  · exact h l hl

theorem Drawn.updateStatus {clock : Time} {t : LeaseTable} (h : Drawn ids r clock t) (lease : ActionLease) :
    Drawn ids r clock (t.updateActionLeaseStatus lease) := by
  obtain ⟨row, hrow, hdrawn⟩ := h
  refine ⟨_, LeaseTable.mem_updateActionLeaseStatus.mpr ⟨row, hrow, rfl⟩, ?_⟩
  split
  · exact hdrawn
  · exact hdrawn

/-- What a step of the environment leaves of the table when it is not a write of a whole lease. -/
theorem leases_of_step {op : BrokerOp} {ans : op.Answer} {w' : World π} {I : LeaseTable → Prop}
    (hupdate : ∀ lease, I w.leases → I (w.leases.updateActionLeaseStatus lease))
    (hupsert : ∀ lease, op = .store (.upsert lease) → I w.leases → I (w.leases.upsertActionLease lease))
    (hstep : brokerStep faultless pepStep op w ans w') (h : I w.leases) : I w'.leases := by
  cases op with
  | now =>
    obtain ⟨-, rfl⟩ := hstep
    exact h
  | store op =>
    obtain ⟨f, rfl, -, rfl⟩ := hstep
    cases op with
    | upsert lease => exact hupsert lease rfl h
    | updateStatus lease => exact hupdate lease h
    | _ => exact h
  | pep op =>
    obtain ⟨pep, -, rfl⟩ := hstep
    exact h

theorem clock_of_step {op : BrokerOp} {ans : op.Answer} {w' : World π}
    (hstep : brokerStep faultless pepStep op w ans w') : w'.clock = w.clock := by
  cases op with
  | now => rw [hstep.2]
  | store op =>
    obtain ⟨f, -, -, rfl⟩ := hstep
    rfl
  | pep op =>
    obtain ⟨pep, -, rfl⟩ := hstep
    rfl

/-- The clock reads what it does throughout a call. -/
def Reads (clock : Time) : (op : BrokerOp) → op.Answer → Prop
  | .now, t => t = clock
  | _, _ => True

/-- An application writes no lease that ends later than the lifetime of its resolution from now. -/
theorem wp_apply_endsBy : wp (brokerStep faultless pepStep) (fun _ => True)
    (fun _ w' => EndsBy w.leases (w.clock + r.ttl) w'.leases) (b.apply ids r) w := by
  have hstart : EndsBy w.leases (w.clock + r.ttl) w.leases := fun lease hlease =>
      .inr ⟨lease, hlease, rfl, rfl⟩
  have huses : Uses (WritesOnly fun lease => lease.expiresAt ≤ w.clock + r.ttl) (Reads w.clock)
      (b.apply ids r) := by
    refine writesOnly_apply (fun now hnow => ?_) fun existing now hnow _ => ?_
    · rw [show now = w.clock from hnow]
      exact le_rfl
    · rw [show now = w.clock from hnow]
      exact le_rfl
  have hwp : wp (brokerStep faultless pepStep)
      (fun w' => EndsBy w.leases (w.clock + r.ttl) w'.leases ∧ w'.clock = w.clock)
      (fun _ w' => EndsBy w.leases (w.clock + r.ttl) w'.leases ∧ w'.clock = w.clock) (b.apply ids r) w := by
    refine wp_of_uses huses ⟨hstart, rfl⟩ fun op s ans s' hop hs hstep => ⟨?_, ?_, ?_⟩
    · cases op with
      | now => exact hstep.1.trans hs.2
      | _ => trivial
    · refine leases_of_step (I := EndsBy w.leases (w.clock + r.ttl)) (fun lease h => h.updateStatus lease)
        (fun lease hlease h => ?_) hstep hs.1
      subst hlease
      exact h.upsert hop
    · exact (clock_of_step hstep).trans hs.2
  exact wp_crash (wp_mono hwp fun _ _ h => h.1) fun _ _ => trivial

/-- The operations that neither apply nor revert a lease. -/
def AppliesNone : BrokerOp → Prop
  | .pep (.apply _) | .pep (.revert _) => False
  | _ => True

/-- The operations that write no whole lease. -/
def WritesNone : BrokerOp → Prop
  | .store (.upsert _) => False
  | _ => True

/-- A lease that is drawn is written before anything else, and stays. -/
theorem wp_createLease_drawn (receipt : EnforcementReceipt) (now : Time) (w : World π) :
    wp (brokerStep faultless pepStep) (fun _ => True) (fun _ w' => Drawn ids r now w'.leases)
      (b.createLease (b.newLease ids r (Broker.decisionIDFor ids r) (targetString r.target)
      (b.leaseMetadata r)
        now) receipt now) w := by
  generalize hlease : b.newLease ids r (Broker.decisionIDFor ids r) (targetString r.target)
    (b.leaseMetadata r) now = lease
  have hrest : ∀ next, b.createLease lease receipt now = call (BrokerOp.store (.upsert lease)) next →
      Uses WritesNone (fun _ _ => True) (next (.ok ())) := fun next hnext =>
    uses_creation hnext (fun op hop => by cases op <;> first | exact trivial | exact hop.elim)
      (fun _ => trivial) trivial (.ok ())
  simp only [Broker.createLease, perform_bind] at hrest ⊢
  refine wp_store.mpr fun f hf => ⟨trivial, ?_⟩
  obtain rfl := hf
  have hdrawn : Drawn ids r now (w.leases.upsertActionLease lease) := by
    subst hlease
    exact ⟨_, LeaseTable.mem_upsertActionLease.mpr (.inl rfl), rfl, rfl, rfl, rfl⟩
  have hkept : wp (brokerStep faultless pepStep) (fun w' : World π => Drawn ids r now w'.leases)
      (fun _ w' => Drawn ids r now w'.leases) _ { w with leases := w.leases.upsertActionLease lease } :=
    wp_of_uses (hrest _ rfl) hdrawn fun op s ans s' hop hs hstep =>
      ⟨trivial, leases_of_step (fun lease h => h.updateStatus lease)
        (fun lease hlease _ => by subst hlease; exact hop.elim) hstep hs⟩
  exact wp_crash hkept fun _ _ => trivial

/-- An application reaches the adapter only with the lease that it has drawn. -/
theorem wp_apply_drawn (adapter : π → A)
    (hcurrent : ∀ l s ans s', pepStep (.currentFencingToken l) s ans s' → adapter s' = adapter s) :
    wp (brokerStep faultless pepStep) (fun _ => True)
      (fun _ w' => adapter w'.pep = adapter w.pep ∨ Drawn ids r w.clock w'.leases) (b.apply ids r) w := by
  refine wp_apply trivial (fun _ _ => .inl rfl) fun _ _ _ _ receipt => ?_
  have hrenewal : Uses AppliesNone (fun _ _ => True)
      (b.renewActiveLease r (Broker.decisionIDFor ids r) (targetString r.target) (b.leaseMetadata r)
        w.clock) :=
    uses_renewal (fun op _ => by cases op <;> exact trivial) (fun _ _ => trivial) (fun _ => trivial)
      fun _ _ => trivial
  have hwp : wp (brokerStep faultless pepStep) (fun w' => adapter w'.pep = adapter w.pep)
      (fun _ w' => adapter w'.pep = adapter w.pep)
      (b.renewActiveLease r (Broker.decisionIDFor ids r) (targetString r.target) (b.leaseMetadata r)
        w.clock) w := by
    refine wp_of_uses hrenewal rfl fun op s ans s' hop hs hstep => ⟨trivial, ?_⟩
    cases op with
    | now => rw [hstep.2, hs]
    | store op =>
      obtain ⟨f, -, -, rfl⟩ := hstep
      exact hs
    | pep op =>
      obtain ⟨pep, hpep, rfl⟩ := hstep
      cases op with
      | currentFencingToken l => exact (hcurrent l _ _ _ hpep).trans hs
      | apply l | revert l => exact hop.elim
  refine wp_crash (wp_mono hwp fun renewal w₁ hsame => ?_) fun _ _ => trivial
  rcases renewal with ⟨lease, renewed, skipReason, _ | err⟩
  · simp only [Broker.afterRenewal]
    by_cases hskip : skipReason ≠ ""
    · rw [if_pos hskip]
      exact .inl hsame
    rw [if_neg hskip]
    by_cases hrenewed : renewed = true
    · rw [if_pos hrenewed]
      exact .inl hsame
    rw [if_neg hrenewed]
    exact wp_mono (wp_createLease_drawn receipt w.clock w₁) fun _ _ h => .inr h
  · exact .inl hsame

/-- What an application does to the adapter and to the table when nothing fails. -/
theorem exec_apply_leased (handle : (op : PepOp) → π → op.Answer × π) (adapter : π → A)
    (hcurrent : ∀ l s, adapter (handle (.currentFencingToken l) s).2 = adapter s) (b : Broker)
    (ids : GeneratedIDs) (r : ActionResolution) (w : World π) :
    (adapter (exec (brokerHandle handle .none) (b.apply ids r) w).2.pep ≠ adapter w.pep →
      Drawn ids r w.clock (exec (brokerHandle handle .none) (b.apply ids r) w).2.leases) ∧
    EndsBy w.leases (w.clock + r.ttl) (exec (brokerHandle handle .none) (b.apply ids r) w).2.leases := by
  have hdrawn : wp (brokerStep faultless (answers handle)) (fun _ => True)
      (fun _ w' => adapter w'.pep = adapter w.pep ∨ Drawn ids r w.clock w'.leases) (b.apply ids r) w := by
    refine wp_apply_drawn adapter fun l s ans s' hstep => ?_
    obtain ⟨-, rfl⟩ := Prod.mk.inj hstep
    exact hcurrent l s
  exact ⟨fun hacts => (exec_post hdrawn).resolve_left hacts, exec_post wp_apply_endsBy⟩

/-- On an empty table nothing stands in the way of an application, and nothing is renewed. -/
theorem wp_apply_fresh (hleases : w.leases = Table.empty) (hallow : b.autonomyAllowances = [])
    (hallowed : r.allowed = true) (hlevel : r.executableLevel ≠ "") (hobserve : r.executableLevel ≠ "observe")
    (httl : 0 < r.ttl) : wp (brokerStep faultless pepStep) (fun _ => True)
      (fun _ w' => Drawn ids r w.clock w'.leases) (b.apply ids r) w := by
  have hnone : ∀ adapterID target action level,
      w.leases.findActiveActionLease adapterID target action level = none := by
    intro adapterID target action level
    rw [hleases]
    exact Table.best_eq_none.mpr fun _ hl => absurd hl Table.not_mem_empty
  have hfind : ∀ {α : Type} {post : α → World π → Prop} {adapterID target action level : String}
      {next : Fallible (Option ActionLease) → BrokerProgram α},
      wp (brokerStep faultless pepStep) (fun _ => True) post (next (.ok none)) w →
      wp (brokerStep faultless pepStep) (fun _ => True) post
        (call (BrokerOp.store (.findActive adapterID target action level)) next) w := by
    intro α post adapterID target action level next hnext
    refine wp_store.mpr fun f hf => ⟨trivial, ?_⟩
    obtain rfl := hf
    simpa only [StoreOp.handleWith, StoreOp.handle, hnone] using hnext
  have hstrongest : ∀ asked, wp (brokerStep faultless pepStep) (fun _ => True)
      (fun found w' => found = .ok none ∧ w' = w)
      (b.strongestActiveLease (targetString r.target) none asked) w := by
    intro asked
    induction asked with
    | nil => exact ⟨rfl, rfl⟩
    | cons probe rest ih => exact hfind ih
  have hstronger : wp (brokerStep faultless pepStep) (fun _ => True)
      (fun reason w' => reason = .ok "" ∧ w' = w) (b.strongerActiveLeaseDenyReason r
        (targetString r.target)) w := by
    simp only [Broker.strongerActiveLeaseDenyReason]
    split
    · exact ⟨rfl, rfl⟩
    · rw [wp_bind]
      refine wp_mono (hstrongest _) ?_
      rintro found w' ⟨rfl, rfl⟩
      exact ⟨rfl, rfl⟩
  simp only [Broker.apply, perform_bind, wp_now]
  refine ⟨trivial, ?_⟩
  have hleased : ¬ (r.executableLevel = "" ∨ r.executableLevel = "observe" ∨ r.ttl ≤ 0) := by
    simp [hlevel, hobserve, httl]
  simp only [hallowed, not_true, if_false, if_neg hleased, Broker.applyLeased, hallow,
    Broker.autonomyPrerequisiteDenyReason, pure_eq, ret_bind, ne_eq]
  rw [wp_bind]
  refine wp_mono hstronger ?_
  rintro reason w' ⟨rfl, rfl⟩
  simp only [not_true, if_false, Broker.renewActiveLease, perform_bind, call_bind]
  exact hfind (wp_createLease_drawn _ _ _)

end Calls

section Executors

/-- A call acts on the adapter only under the lease that it draws, which ends in time, and neither writes
nor extends another lease beyond it. -/
structure LeasedUntil {σ ρ : Type} (ids : GeneratedIDs) (r : ActionResolution) (limit : Duration)
    (acts : Prop) (w w' : NodeWorld σ ρ) : Prop where
  drawn : acts → ∃ lease ∈ w'.leases, lease.leaseID = "lease-" ++ ids.lease ∧
    lease.target = targetString r.target ∧ lease.action = r.executableAction ∧
      lease.expiresAt ≤ w.clock + limit
  ends : EndsBy w.leases (w.clock + limit) w'.leases

/-- Whatever an executor enforces for the resolution is under a lease that ends in time. -/
structure ActionResolution.BoundedBy (r : ActionResolution) (limit : Duration) : Prop where
  source : ∀ {σ ρ : Type} (e : BrokeredActionExecutor σ ρ) (ids : GeneratedIDs) (target : SourceTarget)
    (st : FsmState) (params : EnforcementParams) (now : Time) (w : NodeWorld σ ρ),
    LeasedUntil ids r limit
      ((e.applySource ids target st r params now w).2.pep.source.adapter ≠ w.pep.source.adapter)
      w (e.applySource ids target st r params now w).2
  relationship : ∀ {σ ρ : Type} (e : BrokeredActionExecutor σ ρ) (ids : GeneratedIDs)
    (target : RelationshipTarget) (now : Time) (w : NodeWorld σ ρ),
    LeasedUntil ids r limit
      ((e.applyRelationship ids target r now w).2.pep.relationship.adapter ≠ w.pep.relationship.adapter)
      w (e.applyRelationship ids target r now w).2

variable {σ ρ : Type} {e : BrokeredActionExecutor σ ρ} {ids : GeneratedIDs} {r : ActionResolution}
  {limit : Duration} {w w' : NodeWorld σ ρ} {acts : Prop}

theorem EndsBy.mono {before t : LeaseTable} {bound bound' : Time} (h : EndsBy before bound t)
    (hle : bound ≤ bound') : EndsBy before bound' t := fun lease hlease =>
  (h lease hlease).imp_left fun hend => le_trans hend hle

theorem LeasedUntil.same (hw : w' = w) (hacts : ¬ acts) : LeasedUntil ids r limit acts w w' := by
  subst hw
  exact ⟨fun h => absurd h hacts, fun lease hlease => .inr ⟨lease, hlease, rfl, rfl⟩⟩

theorem LeasedUntil.of_drawn (hlimit : r.ttl ≤ limit) (hdrawn : acts → Drawn ids r w.clock w'.leases)
    (hends : EndsBy w.leases (w.clock + r.ttl) w'.leases) : LeasedUntil ids r limit acts w w' := by
  have hle : w.clock + r.ttl ≤ w.clock + limit := Int.add_le_add_left hlimit w.clock
  refine ⟨fun h => ?_, hends.mono hle⟩
  obtain ⟨lease, hlease, hid, htarget, haction, hexpires⟩ := hdrawn h
  exact ⟨lease, hlease, hid, htarget, haction, hexpires ▸ hle⟩

/-- A brokered source action is under its lease. -/
theorem applySource_leased (hleased : shouldBrokerLease r) (hlimit : r.ttl ≤ limit) (target : SourceTarget)
    (st : FsmState) (params : EnforcementParams) (now : Time) : LeasedUntil ids r limit
      ((e.applySource ids target st r params now w).2.pep.source.adapter ≠ w.pep.source.adapter)
      w (e.applySource ids target st r params now w).2 := by
  let ctx : ApplyContext :=
    ⟨target, st, resolutionWithExecutionMetadata r (enforcementParamsForResolution params r),
    enforcementParamsForResolution params r, now⟩
  let begun : NodeWorld σ ρ := w.withSource (w.pep.source.begin ctx)
  obtain ⟨hdrawn, hends⟩ := exec_apply_leased (e.sourceHandle w.clock) (fun p => p.source.adapter)
    (fun _ _ => rfl) e.sourceBroker ids ctx.resolution begun
  rw [BrokeredActionExecutor.applySource, if_pos hleased]
  exact LeasedUntil.of_drawn hlimit hdrawn hends

theorem applyRelationship_leased (hlimit : r.ttl ≤ limit) (target : RelationshipTarget) (now : Time) :
    LeasedUntil ids r limit
      ((e.applyRelationship ids target r now w).2.pep.relationship.adapter ≠ w.pep.relationship.adapter)
      w (e.applyRelationship ids target r now w).2 := by
  unfold BrokeredActionExecutor.applyRelationship
  by_cases hallowed : ¬ r.allowed
  · rw [if_pos hallowed]
    exact .same rfl fun h => h rfl
  rw [if_neg hallowed]
  by_cases hlevel : r.executableLevel ≠ "block"
  · rw [if_pos hlevel]
    exact .same rfl fun h => h rfl
  rw [if_neg hlevel]
  by_cases httl : r.ttl ≤ 0
  · rw [if_pos httl]
    exact .same rfl fun h => h rfl
  rw [if_neg httl]
  cases hbroker : e.relationshipBroker with
  | none => exact .same rfl fun h => h rfl
  | some broker =>
    let begun : NodeWorld σ ρ := w.withRelationship (w.pep.relationship.begin target)
    obtain ⟨hdrawn, hends⟩ := exec_apply_leased (e.relationshipHandle w.clock)
      (fun p => p.relationship.adapter) (fun _ _ => rfl) broker ids r begun
    exact LeasedUntil.of_drawn hlimit hdrawn hends

/-- An adapter that keeps the levels it was moved to. -/
def levelLog : SourcePEP (List Level) where
  transitionSource _ st level _ _ log := (.ok { st with level }, log ++ [level])

def loggingExecutor : BrokeredActionExecutor (List Level) Unit where
  sourcePEP := levelLog
  sourceBroker := { nodeID := "node", adapterID := BrokeredSourcePEP.adapterID, sha256 := fun _ => "" }
  relationshipPEP := ⟨fun _ => false, fun _ s => (.ok (), s), fun _ s => (.ok (), s)⟩

/-- A node that has enforced nothing yet. -/
def unenforcedNode : NodeWorld (List Level) Unit where
  leases := Table.empty
  clock := 0
  pep := ⟨{ adapter := [] }, { adapter := () }⟩

theorem not_observe_of_enforcing (hlevel : parseFSMLevel r.executableLevel ≠ .observe) :
    r.executableLevel ≠ "" ∧ r.executableLevel ≠ "observe" := by
  constructor
  all_goals
    intro h
    rw [h] at hlevel
    exact absurd hlevel (by decide)

/-- An allowed action at an enforcing level is bounded by a limit exactly when it has a lifetime, and no
longer one. -/
theorem boundedBy_iff (hallowed : r.allowed = true) (hlevel : parseFSMLevel r.executableLevel ≠ .observe) :
    r.BoundedBy limit ↔ 0 < r.ttl ∧ r.ttl ≤ limit := by
  obtain ⟨hnonempty, hobserve⟩ := not_observe_of_enforcing hlevel
  constructor
  · intro h
    have hcall := h.source loggingExecutor ⟨"d", "l"⟩ { sourceID := "10.0.0.1" } {} {} 0 unenforcedNode
    by_cases httl : 0 < r.ttl
    · refine ⟨httl, ?_⟩
      have hleased : shouldBrokerLease r := ⟨hallowed, httl, hnonempty, hobserve⟩
      rw [BrokeredActionExecutor.applySource, if_pos hleased] at hcall
      let ctx : ApplyContext := ⟨{ sourceID := "10.0.0.1" }, {},
        resolutionWithExecutionMetadata r (enforcementParamsForResolution {} r),
        enforcementParamsForResolution {} r, 0⟩
      have hfresh : wp (brokerStep faultless (answers (loggingExecutor.sourceHandle 0))) (fun _ => True)
          (fun _ w' => Drawn ⟨"d", "l"⟩ ctx.resolution 0 w'.leases)
          (loggingExecutor.sourceBroker.apply ⟨"d", "l"⟩ ctx.resolution)
          (unenforcedNode.withSource (unenforcedNode.pep.source.begin ctx)) :=
        wp_apply_fresh rfl rfl hallowed hnonempty hobserve httl
      obtain ⟨lease, hlease, -, -, -, hexpires⟩ := exec_post hfresh
      rcases hcall.ends lease hlease with hend | ⟨l, hl, -⟩
      · exact Int.le_of_add_le_add_left (hexpires ▸ hend)
      · exact absurd hl Table.not_mem_empty
    · have hunleased : ¬ shouldBrokerLease r := fun hleased => httl hleased.2.1
      rw [BrokeredActionExecutor.applySource, if_neg hunleased] at hcall
      simp only [BrokeredActionExecutor.applyUnbrokered, SourceActionExecutor.applySource, hallowed, not_true,
        if_false, loggingExecutor, levelLog] at hcall
      obtain ⟨lease, hlease, -⟩ := hcall.drawn (by simp [World.withSource, unenforcedNode])
      exact absurd hlease Table.not_mem_empty
  · rintro ⟨httl, hlimit⟩
    exact ⟨fun e ids target st params now w =>
      applySource_leased ⟨hallowed, httl, hnonempty, hobserve⟩ hlimit target st params now,
      fun e ids target now w => applyRelationship_leased hlimit target now⟩

end Executors

section Durations

variable {r : PolicyResolver} {p : ActionProposal}

theorem clamped_iff (ttl maxDuration limit : Int) :
    0 < (if 0 < maxDuration ∧ maxDuration < ttl then maxDuration else ttl) ∧
        (if 0 < maxDuration ∧ maxDuration < ttl then maxDuration else ttl) ≤ limit ↔
      0 < ttl ∧ (ttl ≤ limit ∨ (0 < maxDuration ∧ maxDuration ≤ limit)) := by
  split <;> omega

/-- What the gate leaves of the proposed lifetime. -/
theorem resolve_ttl (hmode : r.mode = "managed") (hallowed : (r.resolve p).allowed = true)
    (hlevel : parseFSMLevel (r.resolve p).executableLevel ≠ .observe) : (r.resolve p).ttl =
      if 0 < r.autonomyMaxActionDuration (r.resolve p).executableAction ∧
        r.autonomyMaxActionDuration (r.resolve p).executableAction < p.ttl
      then r.autonomyMaxActionDuration (r.resolve p).executableAction else p.ttl := by
  have hpack : r.hasPolicyPack = true := by
    by_contra hpack
    refine hlevel ?_
    simp [PolicyResolver.resolve, hmode, hpack, parseFSMLevel]
  have hmax : r.policyMaxAction ≠ "observe" := by
    intro hmax
    refine hlevel ?_
    simp [PolicyResolver.resolve, hmode, hpack, hmax, parseFSMLevel]
  rcases PolicyResolver.resolve_cases (p := p) hmode hpack hmax with ⟨-, hdenied, -⟩ | ⟨hnone, -, haction, -⟩
  · rw [hdenied] at hallowed
    cases hallowed
  · rw [haction]
    simp only [PolicyResolver.resolve, hmode, hpack, hmax, ne_eq, not_true, if_false, hnone,
      PolicyResolver.authorised]

/-- Every limit on an allowed action bounds its enforcement exactly when the proposal has a lifetime, and
each limit is kept by that lifetime or by the limit that the gate takes. -/
theorem max_action_duration_iff {action : String} (hmode : r.mode = "managed")
    (hallowed : (r.resolve p).allowed = true) (haction : (r.resolve p).executableAction = action)
    (hlevel : parseFSMLevel (r.resolve p).executableLevel ≠ .observe)
    (hlimited : ∃ limit, r.Limits action limit) :
    (∀ limit, r.Limits action limit → (r.resolve p).BoundedBy limit) ↔
      0 < p.ttl ∧ ∀ limit, r.Limits action limit → p.ttl ≤ limit ∨
        (0 < r.autonomyMaxActionDuration action ∧ r.autonomyMaxActionDuration action ≤ limit) := by
  have httl := resolve_ttl hmode hallowed hlevel
  rw [haction] at httl
  have hbounded : ∀ limit, r.Limits action limit → ((r.resolve p).BoundedBy limit ↔
      0 < p.ttl ∧ (p.ttl ≤ limit ∨
        (0 < r.autonomyMaxActionDuration action ∧ r.autonomyMaxActionDuration action ≤ limit))) := by
    intro limit _
    rw [boundedBy_iff hallowed hlevel, httl]
    exact clamped_iff _ _ _
  constructor
  · intro h
    obtain ⟨limit, hlimit⟩ := hlimited
    exact ⟨((hbounded limit hlimit).mp (h limit hlimit)).1,
      fun limit hlimit => ((hbounded limit hlimit).mp (h limit hlimit)).2⟩
  · rintro ⟨hpos, hkept⟩ limit hlimit
    exact (hbounded limit hlimit).mpr ⟨hpos, hkept limit hlimit⟩

/-- A block of a source for a while. -/
def blockFor (ttl : Duration) : ActionProposal where
  desiredAction := "enforce.traffic.drop"
  desiredLevel := "block"
  target := { granularity := "source", value := "10.0.0.1" }
  ttl := ttl

/-- A managed node whose blocks last for a minute at most, or for as long as the second limit says. -/
def minuteOfBlock : PolicyResolver where
  mode := "managed"
  hasPolicyPack := true
  runtimeAutonomyLifecycle := some { maxActionDuration := [
    { action := "enforce.traffic.drop", duration := 60 * Duration.second },
    { action := "enforce.traffic.drop", duration := 120 * Duration.second }] }

theorem minuteOfBlock_resolves (ttl : Duration) : (minuteOfBlock.resolve (blockFor ttl)).allowed = true ∧
    (minuteOfBlock.resolve (blockFor ttl)).executableAction = "enforce.traffic.drop" ∧
    (minuteOfBlock.resolve (blockFor ttl)).executableLevel = "block" := by
  have hnone : minuteOfBlock.denyReason (blockFor ttl) (minuteOfBlock.capped (blockFor ttl)).1
      (minuteOfBlock.capped (blockFor ttl)).2.1 = none := by
    have hsame : minuteOfBlock.denyReason (blockFor ttl) (minuteOfBlock.capped (blockFor ttl)).1
        (minuteOfBlock.capped (blockFor ttl)).2.1 = minuteOfBlock.denyReason (blockFor 0)
          (minuteOfBlock.capped (blockFor 0)).1 (minuteOfBlock.capped (blockFor 0)).2.1 := rfl
    rw [hsame]
    decide +kernel
  rcases PolicyResolver.resolve_cases (r := minuteOfBlock) (p := blockFor ttl) rfl rfl (by decide) with
    ⟨⟨reason, hreason⟩, -⟩ | ⟨-, hallowed, haction, hlevel⟩
  · rw [hnone] at hreason
    cases hreason
  · exact ⟨hallowed, haction, hlevel⟩

theorem minuteOfBlock_limits : minuteOfBlock.Limits "enforce.traffic.drop" (60 * Duration.second) :=
  ⟨_, rfl, _, List.mem_cons_self, by decide +kernel, rfl, by decide⟩

theorem max_action_duration_hour :
    (∀ limit, minuteOfBlock.Limits "enforce.traffic.drop" limit →
      (minuteOfBlock.resolve (blockFor (3600 * Duration.second))).BoundedBy limit) ↔
    0 < (blockFor (3600 * Duration.second)).ttl ∧ ∀ limit, minuteOfBlock.Limits "enforce.traffic.drop" limit →
      (blockFor (3600 * Duration.second)).ttl ≤ limit ∨
        (0 < minuteOfBlock.autonomyMaxActionDuration "enforce.traffic.drop" ∧
          minuteOfBlock.autonomyMaxActionDuration "enforce.traffic.drop" ≤ limit) := by
  obtain ⟨hallowed, haction, hlevel⟩ := minuteOfBlock_resolves (3600 * Duration.second)
  exact max_action_duration_iff rfl hallowed haction (by rw [hlevel]; decide) ⟨_, minuteOfBlock_limits⟩

/-- A block without a lifetime is enforced without a lease, whatever the limit on blocks. -/
theorem zero_ttl_outlasts_limit : ¬ ∀ (r : PolicyResolver) (p : ActionProposal) (action : String),
    r.mode = "managed" → (r.resolve p).allowed = true → (r.resolve p).executableAction = action →
      parseFSMLevel (r.resolve p).executableLevel ≠ .observe →
        ∀ limit, r.Limits action limit → (r.resolve p).BoundedBy limit := by
  intro h
  obtain ⟨hallowed, haction, hlevel⟩ := minuteOfBlock_resolves 0
  have henforcing : parseFSMLevel (minuteOfBlock.resolve (blockFor 0)).executableLevel ≠ .observe := by
    rw [hlevel]
    decide
  have hbounded := h minuteOfBlock (blockFor 0) _ rfl hallowed haction henforcing _ minuteOfBlock_limits
  have httl := ((boundedBy_iff hallowed henforcing).mp hbounded).1
  rw [resolve_ttl rfl hallowed henforcing, haction] at httl
  exact absurd httl (by decide +kernel)

end Durations

end Kernloom
