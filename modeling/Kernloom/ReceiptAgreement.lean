import Kernloom.EnforcedTargets
import Kernloom.FencingRuns
import Kernloom.RenewalBudget

/-! What a brokered source action returns against the receipt that is persisted for it, when store calls may
fail. -/

namespace Kernloom

open Effects Effects.Program Keyed Transition

/-- The action was carried out, as asked or in part. -/
def ActionStatus.isSuccess (s : ActionStatus) : Prop := s = .applied ∨ s = .downgraded

instance (s : ActionStatus) : Decidable s.isSuccess := inferInstanceAs (Decidable (_ ∨ _))

/-- What one brokered action leaves: the state and the result for the FSM, and the receipt to persist. -/
structure Attempt where
  state : FsmState
  result : ActionResult
  receipt : EnforcementReceipt

/-- The result is a success exactly if the receipt says applied, and without one the state is as before. -/
structure Attempt.Agrees (a : Attempt) (before : FsmState) : Prop where
  status : a.result.status.isSuccess ↔ a.receipt.status = .applied
  state : ¬ a.result.status.isSuccess → a.state = before

/-- The context in which a source action is applied. -/
def attemptContext (target : SourceTarget) (st : FsmState) (r : ActionResolution) (params : EnforcementParams)
    (now : Time) : ApplyContext :=
  let params := enforcementParamsForResolution params r
  ⟨target, st, resolutionWithExecutionMetadata r params, params, now⟩

def attemptOf (ctx : ApplyContext) (ret : Broker.ApplyReturn) (applied : ApplyOutcome) : Attempt :=
  let out := BrokeredActionExecutor.brokeredOutcome ctx ret applied
  ⟨out.1, out.2, ret.receipt⟩

section Outcomes

variable {ctx : ApplyContext} {ret : Broker.ApplyReturn} {applied : ApplyOutcome}

/-- An error is a failure unless the PEP has applied the action. -/
theorem agrees_of_error {err : String} (herr : ret.err = some err) (hreceipt : ret.receipt.status ≠ .applied)
    (happlied : ¬ applied.result.status.isSuccess) : (attemptOf ctx ret applied).Agrees ctx.state := by
  have hstatus : ¬ (attemptOf ctx ret applied).result.status.isSuccess := by
    simp only [attemptOf, BrokeredActionExecutor.brokeredOutcome, herr]
    by_cases hset : applied.result.status ≠ .unset
    · rw [if_pos hset]
      exact happlied
    · rw [if_neg hset]
      simp [ActionStatus.isSuccess]
  refine ⟨iff_of_false hstatus hreceipt, fun _ => ?_⟩
  simp only [attemptOf, BrokeredActionExecutor.brokeredOutcome, herr]

theorem agrees_of_no_lease (herr : ret.err = none) (hlease : ret.lease = none)
    (hreceipt : ret.receipt.status ≠ .applied) : (attemptOf ctx ret applied).Agrees ctx.state := by
  have hout : (attemptOf ctx ret applied).result.status = .skipped ∧
      (attemptOf ctx ret applied).state = ctx.state := by
    simp [attemptOf, BrokeredActionExecutor.brokeredOutcome, herr, hlease]
  refine ⟨iff_of_false ?_ hreceipt, fun _ => hout.2⟩
  rw [hout.1]
  decide

/-- A lease without an error is a success, of the PEP or by renewal. -/
theorem agrees_of_lease {lease : ActionLease} (herr : ret.err = none) (hlease : ret.lease = some lease)
    (hid : lease.leaseID ≠ "") (hreceipt : ret.receipt.status = .applied)
    (happlied : applied.result.status = .unset ∨ applied.result.status.isSuccess) :
    (attemptOf ctx ret applied).Agrees ctx.state := by
  have hstatus : (attemptOf ctx ret applied).result.status.isSuccess := by
    simp only [attemptOf, BrokeredActionExecutor.brokeredOutcome, herr, hlease, if_neg hid]
    by_cases hunset : applied.result.status = .unset
    · rw [if_pos hunset]
      exact .inl rfl
    · rw [if_neg hunset]
      exact happlied.resolve_left hunset
  exact ⟨iff_of_true hstatus hreceipt, fun h => absurd hstatus h⟩

end Outcomes

section Gates

variable {π : Type} {faulty : Fault → Prop} {pepStep : Environment PepOp PepOp.Answer π} {b : Broker}
    {w : World π}
  {r : ActionResolution}

/-- Neither gate of the broker denies the resolution: what is required before it is recorded as active, and no
lease that it probes for is stronger. -/
structure Permitted (b : Broker) (t : LeaseTable) (r : ActionResolution) : Prop where
  previous : ∀ previous, b.Requires r.executableAction previous →
    ∃ l, StoredActive b (targetString r.target) previous t l ∧ l.level ∈ ["soft", "hard", "block"]
  strongest : 0 < actionLeaseStrength r.executableAction r.executableLevel →
    ∀ l ∈ t, Probed b (targetString r.target) r.executableAction l →
      l.strength ≤ actionLeaseStrength r.executableAction r.executableLevel

theorem wp_strongerActiveLeaseDenyReason :
    wp (brokerStep faulty pepStep) (fun _ => True)
      (fun ans w' => w' = w ∧ (ans = .ok "" →
        0 < actionLeaseStrength r.executableAction r.executableLevel →
          ∀ l ∈ w.leases, Probed b (targetString r.target) r.executableAction l →
            l.strength ≤ actionLeaseStrength r.executableAction r.executableLevel))
      (b.strongerActiveLeaseDenyReason r (targetString r.target)) w := by
  simp only [Broker.strongerActiveLeaseDenyReason]
  by_cases hzero : actionLeaseStrength r.executableAction r.executableLevel = 0
  · rw [if_pos hzero]
    exact ⟨rfl, fun _ hpos => absurd hzero hpos.ne'⟩
  rw [if_neg hzero, wp_bind]
  refine wp_mono (wp_strongestActiveLease none _) ?_
  rintro ans w' ⟨rfl, ⟨err, f, rfl, -, -⟩ | ⟨found, rfl, -, hfound⟩⟩
  · exact ⟨rfl, fun h => by cases h⟩
  have hprobe : ∀ l ∈ w'.leases, Probed b (targetString r.target) r.executableAction l →
      l.strength ≤ found.elim 0 ActionLease.strength := by
    rintro l hl ⟨hs, ha, ht, haction, hlevel⟩
    exact hfound l hl hs ha ht (mem_probes.mpr ⟨haction, List.mem_reverse.mpr hlevel⟩)
  cases found with
  | none => exact ⟨rfl, fun _ _ l hl hprobed => (hprobe l hl hprobed).trans (Nat.zero_le _)⟩
  | some strongest =>
    dsimp only
    by_cases hle : strongest.strength ≤ actionLeaseStrength r.executableAction r.executableLevel
    · rw [if_pos hle]
      exact ⟨rfl, fun _ _ l hl hprobed => (hprobe l hl hprobed).trans hle⟩
    · rw [if_neg hle]
      refine ⟨rfl, fun h => ?_⟩
      have hlength := congrArg String.length (Except.ok.inj h)
      simp at hlength

end Gates

section Calls

variable {σ ρ : Type}

/-- The environment of a broker whose store may fail in the ways that a state allows. -/
def storeEnv (faulty : NodeWorld σ ρ → Fault → Prop)
    (pepStep : Environment PepOp PepOp.Answer (BrokeredPEPs σ ρ)) :
    Environment BrokerOp BrokerOp.Answer (NodeWorld σ ρ) :=
  fun op w => brokerStep (faulty w) pepStep op w

/-- The PEP has applied the action of the call that is under way. -/
def PepApplied (w : NodeWorld σ ρ) : Prop := w.pep.source.last.result.status.isSuccess

/-- The store may fail until the PEP has applied the action. -/
def untilApplied (w : NodeWorld σ ρ) (f : Fault) : Prop := PepApplied w → f = .none

variable {e : BrokeredActionExecutor σ ρ} {clock : Time} {ctx : ApplyContext} {b : Broker}
  {w : NodeWorld σ ρ} {r : ActionResolution}

/-- The environment of the source broker. -/
abbrev sourceEnv (e : BrokeredActionExecutor σ ρ) (clock : Time) (faulty : NodeWorld σ ρ → Fault → Prop) :=
  storeEnv faulty (answers (e.sourceHandle clock))

theorem brokerStep_of_storeEnv {faulty : NodeWorld σ ρ → Fault → Prop}
    {pepStep : Environment PepOp PepOp.Answer (BrokeredPEPs σ ρ)} (op : BrokerOp) (w : NodeWorld σ ρ)
    (ans : op.Answer) (w' : NodeWorld σ ρ) (h : storeEnv faulty pepStep op w ans w') :
    brokerStep anyFault pepStep op w ans w' := by
  cases op with
  | now => exact h
  | store op =>
    obtain ⟨f, -, hf⟩ := h
    exact ⟨f, trivial, hf⟩
  | pep op => exact h

/-- The PEP is begun for a context, and was not asked to apply yet. -/
structure Begun (ctx : ApplyContext) (w : NodeWorld σ ρ) : Prop where
  active : w.pep.source.active = some ctx
  last : w.pep.source.last = {}

/-- The call finds the lease in force and would renew it, but its renewals are used up. -/
def RenewalsExhausted (b : Broker) (w : NodeWorld σ ρ) (r : ActionResolution) : Prop :=
  Permitted b w.leases r ∧ ∃ existing ∈ w.leases.findActiveActionLease b.adapterID (targetString r.target)
    r.executableAction r.executableLevel, executionMetadataChanged existing.metadata (b.leaseMetadata r) =
      none ∧
      w.pep.source.currentTokens.current existing = existing.fencingToken ∧
      0 < b.maxRenewals ∧ b.maxRenewals ≤ leaseRenewalCount existing.metadata

/-- Every lease has an ID. -/
def Named (t : LeaseTable) : Prop := ∀ l ∈ t, l.leaseID ≠ ""

theorem wp_renewActiveLease_receipt {decisionID : String} {now : Time} (hbegun : Begun ctx w)
    (hnamed : Named w.leases) (hpermitted : Permitted b w.leases r) (hbudget : ¬ RenewalsExhausted b w r) :
    wp (brokerStep anyFault (answers (e.sourceHandle clock))) (fun _ => True)
      (fun renewal w' => Begun ctx w' ∧ (renewal.err = none → renewal.skipReason = "" ∧
        (renewal.renewed = true → ∃ l, renewal.lease = some l ∧ l.leaseID ≠ "")))
      (b.renewActiveLease r decisionID (targetString r.target) (b.leaseMetadata r) now) w := by
  have hkept : ∀ leases, Begun ctx { w with leases } := fun _ => ⟨hbegun.active, hbegun.last⟩
  refine wp_renewActiveLease trivial (fun _ _ _ _ => trivial) fun renewal w' hstep => ⟨trivial, ?_⟩
  cases hstep with
  | unread => exact ⟨hbegun, by simp⟩
  | absent hfind => exact ⟨hbegun, by simp⟩
  | @ended existing ended pep f hfind hends =>
    obtain rfl : pep = w.pep := hends.pep_eq fun _ _ hpep => (Prod.mk.inj hpep).2.symm
    rcases (StoreOp.handleWith (.updateStatus ended) f w.leases).1 with err | _
    · exact ⟨hkept _, by simp⟩
    · exact ⟨hkept _, by simp⟩
  | unasked hfind hpep =>
    obtain ⟨-, rfl⟩ := Prod.mk.inj hpep
    exact ⟨hbegun, by simp⟩
  | spent hfind hstays hspent =>
    have hcurrent : w.pep.source.currentTokens.current _ = _ := Except.ok.inj (Prod.mk.inj hstays.token).1
    exact absurd ⟨hpermitted, _, hfind, hstays.metadata, hcurrent, hspent⟩ hbudget
  | @renewed existing pep f hfind hstays =>
    obtain ⟨-, rfl⟩ := Prod.mk.inj hstays.token
    obtain ⟨hmem, -⟩ := LeaseTable.findActiveActionLease_spec hfind
    let lease := Broker.renewed existing r decisionID (b.leaseMetadata r) now
    rcases (StoreOp.handleWith (.upsert lease) f w.leases).1 with err | _
    · exact ⟨hkept _, by simp⟩
    · exact ⟨hkept _, fun _ => ⟨rfl, fun _ => ⟨_, rfl, hnamed existing hmem⟩⟩⟩

/-- The PEP applies the action of its context, or fails. -/
theorem handle_apply_begun {lease : ActionLease} (hbegun : Begun ctx w)
    (hallowed : ctx.resolution.allowed = true)
    {ans : Fallible String} {pep : BrokeredPEPs σ ρ}
    (hpep : answers (e.sourceHandle clock) (.apply lease) w.pep ans pep) :
    (∃ err, ans = .error err ∧ ¬ pep.source.last.result.status.isSuccess) ∨
      (ans = .ok lease.fencingToken ∧ pep.source.last.result.status.isSuccess) := by
  have hhandle : e.sourceHandle clock (.apply lease) w.pep = (ans, pep) := hpep
  simp only [BrokeredActionExecutor.sourceHandle, BrokeredSourcePEP.handle, hbegun.active,
    SourceActionExecutor.applySource, hallowed, not_true, if_false] at hhandle
  rcases hmoved : e.sourcePEP.transitionSource ctx.target ctx.state
    (parseFSMLevel ctx.resolution.executableLevel)
    ctx.now ctx.params w.pep.source.adapter with ⟨err | st', adapter⟩
  · rw [hmoved] at hhandle
    obtain ⟨rfl, rfl⟩ := Prod.mk.inj hhandle
    exact .inl ⟨err, rfl, by simp [ActionStatus.isSuccess]⟩
  · rw [hmoved] at hhandle
    have hstatus : ∀ reason : String,
        (if reason ≠ "" then ActionStatus.downgraded else .applied).isSuccess := by
      intro reason
      split_ifs <;> simp [ActionStatus.isSuccess]
    have hdone := hstatus ctx.resolution.denyReason
    dsimp only at hhandle
    rw [if_neg fun hfailed => by rw [hfailed] at hdone; simp [ActionStatus.isSuccess] at hdone] at hhandle
    obtain ⟨rfl, rfl⟩ := Prod.mk.inj hhandle
    exact .inr ⟨rfl, hdone⟩

variable {faulty : NodeWorld σ ρ → Fault → Prop} {pepStep : Environment PepOp PepOp.Answer (BrokeredPEPs σ ρ)}
  {α : Type} {post : α → NodeWorld σ ρ → Prop}

theorem wp_env_store {op : StoreOp} {next : op.Answer → BrokerProgram α}
    (h : ∀ f, faulty w f → wp (storeEnv faulty pepStep) (fun _ => True) post
    (next (op.handleWith f w.leases).1)
      { w with leases := (op.handleWith f w.leases).2 }) :
    wp (storeEnv faulty pepStep) (fun _ => True) post (call (BrokerOp.store op) next) w := by
  rintro ans w' ⟨f, hf, rfl, rfl⟩
  exact ⟨trivial, h f hf⟩

/-- Once the PEP has applied the action, the store does what it is asked. -/
theorem wp_settled_store {op : StoreOp} {next : op.Answer → BrokerProgram α} (happlied : PepApplied w)
    (h : wp (storeEnv untilApplied pepStep) (fun _ => True) post (next (op.handle w.leases).1)
      { w with leases := (op.handle w.leases).2 }) :
    wp (storeEnv untilApplied pepStep) (fun _ => True) post (call (BrokerOp.store op) next) w :=
  wp_env_store fun f hf => by
    obtain rfl := hf happlied
    exact h

theorem wp_supersedeWeaker_settled {applied : ActionLease} {now : Time} (happlied : PepApplied w)
    (asked : List (String × String)) :
    wp (storeEnv untilApplied pepStep) (fun _ => True) (fun ans w' => ans = .ok () ∧ w'.pep = w.pep)
      (b.supersedeWeaker applied now asked) w := by
  induction asked generalizing w with
  | nil => exact ⟨rfl, rfl⟩
  | cons probe rest ih =>
    simp only [Broker.supersedeWeaker, perform_bind]
    refine wp_settled_store happlied ?_
    simp only [StoreOp.handle]
    cases w.leases.findActiveActionLease b.adapterID applied.target probe.1 probe.2 with
    | none => exact ih happlied
    | some lease =>
      dsimp only
      by_cases hkeep : lease.leaseID = applied.leaseID ∨ applied.strength ≤ lease.strength
      · rw [if_pos hkeep]
        exact ih happlied
      · rw [if_neg hkeep]
        have happlied' : ∀ leases, PepApplied { w with leases } := fun _ => happlied
        refine wp_settled_store happlied ?_
        simp only [StoreOp.handle]
        exact wp_mono (ih (happlied' _)) fun _ _ h => h

theorem wp_supersedeWeakerActiveLeases_settled {applied : ActionLease} {now : Time}
    (happlied : PepApplied w) :
    wp (storeEnv untilApplied pepStep) (fun _ => True) (fun ans w' => ans = .ok () ∧ w'.pep = w.pep)
      (b.supersedeWeakerActiveLeases applied now) w := by
  simp only [Broker.supersedeWeakerActiveLeases]
  split_ifs
  · exact ⟨rfl, rfl⟩
  · exact wp_supersedeWeaker_settled happlied _

theorem wp_createLease_receipt {lease : ActionLease} {receipt : EnforcementReceipt} {now : Time}
    (hbegun : Begun ctx w) (hallowed : ctx.resolution.allowed = true) (hid : lease.leaseID ≠ "") :
    wp (sourceEnv e clock untilApplied) (fun _ => True)
      (fun ret w' => (attemptOf ctx ret w'.pep.source.last).Agrees ctx.state)
      (b.createLease lease receipt now) w := by
  have hunset : ¬ w.pep.source.last.result.status.isSuccess := by
    rw [hbegun.last]
    decide
  have hfailed : ∀ (l : ActionLease) err (applied : ApplyOutcome), ¬ applied.result.status.isSuccess →
      (attemptOf ctx (Broker.failedReturn receipt (some l) err) applied).Agrees ctx.state :=
    fun l err applied happlied => agrees_of_error rfl (by simp [Broker.failedReturn, linkLease_status])
      happlied
  simp only [Broker.createLease, perform_bind]
  refine wp_env_store fun f _ => ?_
  generalize (StoreOp.handleWith (.upsert lease) f w.leases).1 = ans
  generalize (StoreOp.handleWith (.upsert lease) f w.leases).2 = leases
  rcases ans with err | _
  · exact hfailed _ _ _ hunset
  rintro ans w' ⟨pep, hpep, rfl⟩
  refine ⟨trivial, ?_⟩
  have hbegun' : Begun ctx { w with leases } := ⟨hbegun.active, hbegun.last⟩
  rcases handle_apply_begun hbegun' hallowed hpep with ⟨err, rfl, happlied⟩ | ⟨rfl, happlied⟩
  · refine wp_env_store fun f _ => ?_
    exact hfailed _ _ _ happlied
  dsimp only
  rw [if_neg fun hne => hne.2 rfl]
  refine wp_settled_store happlied ?_
  simp only [StoreOp.handle]
  rw [wp_bind]
  refine wp_mono (wp_supersedeWeakerActiveLeases_settled happlied) ?_
  rintro ans w' ⟨rfl, hpep'⟩
  dsimp only at hpep'
  refine agrees_of_lease rfl rfl hid rfl (.inr ?_)
  rw [hpep']
  exact happlied

/-- An attempt whose store does not fail once the PEP has applied the action, and whose lease is not out of
renewals, agrees with its receipt. -/
theorem wp_apply_receipt {ids : GeneratedIDs} (hlease : shouldBrokerLease ctx.resolution)
    (hbegun : Begun ctx w)
    (hnamed : Named w.leases) (hbudget : ¬ RenewalsExhausted b w ctx.resolution) :
    wp (sourceEnv e clock untilApplied) (fun _ => True)
      (fun ret w' => (attemptOf ctx ret w'.pep.source.last).Agrees ctx.state) (b.apply ids ctx.resolution)
      w := by
  obtain ⟨hallowed, httl, hempty, hobserve⟩ := hlease
  have hleased : ¬ (ctx.resolution.executableLevel = "" ∨ ctx.resolution.executableLevel = "observe" ∨
      ctx.resolution.ttl ≤ 0) := by
    push Not
    exact ⟨hempty, hobserve, httl⟩
  have hunset : ¬ w.pep.source.last.result.status.isSuccess := by
    rw [hbegun.last]
    decide
  simp only [Broker.apply, perform_bind]
  rintro now w' ⟨_, rfl⟩
  refine ⟨trivial, ?_⟩
  simp only [hallowed, hleased, not_true, if_false, Broker.applyLeased]
  rw [wp_bind]
  refine wp_mono
    (wp_crash (wp_step (wp_prerequisite (targetString ctx.resolution.target) _) brokerStep_of_storeEnv)
    fun _ _ => trivial) ?_
  rintro ans w' ⟨rfl, hprevious⟩
  rcases ans with err | reason
  · exact agrees_of_error rfl (by simp) hunset
  dsimp only
  by_cases hreason : reason ≠ ""
  · rw [if_pos hreason]
    exact agrees_of_no_lease rfl rfl (by simp)
  rw [if_neg hreason, wp_bind]
  refine wp_mono (wp_crash (wp_step wp_strongerActiveLeaseDenyReason brokerStep_of_storeEnv)
    fun _ _ => trivial) ?_
  rintro ans w' ⟨rfl, hstronger⟩
  rcases ans with err | stronger
  · exact agrees_of_error rfl (by simp) hunset
  dsimp only
  by_cases hdenied : stronger ≠ ""
  · rw [if_pos hdenied]
    exact agrees_of_no_lease rfl rfl (by simp)
  rw [if_neg hdenied, wp_bind]
  have hpermitted : Permitted b w'.leases ctx.resolution := by
    refine ⟨?_, hstronger (by rw [not_not.mp hdenied])⟩
    rintro previous ⟨allowance, hmem, haction, rfl, hne⟩
    exact hprevious (by rw [not_not.mp hreason]) allowance hmem haction hne
  refine wp_mono
    (wp_crash (wp_step (@wp_renewActiveLease_receipt σ ρ e clock ctx b w' ctx.resolution _ _ hbegun
    hnamed hpermitted hbudget) brokerStep_of_storeEnv) fun _ _ => trivial) ?_
  rintro ⟨lease, renewed, skipReason, _ | err⟩ w₁ ⟨hbegun', hrenewal⟩
  · obtain ⟨hskip, hrenewed⟩ := hrenewal rfl
    simp only [Broker.afterRenewal]
    rw [if_neg (not_not.mpr hskip)]
    cases renewed with
    | true =>
      obtain ⟨l, rfl, hid⟩ := hrenewed rfl
      refine agrees_of_lease rfl rfl hid rfl (.inl ?_)
      rw [hbegun'.last]
    | false =>
      refine wp_createLease_receipt hbegun' hallowed fun hid => ?_
      have hlength := congrArg String.length hid
      simp [Broker.newLease] at hlength
  · refine agrees_of_error rfl (by simp [Broker.failedReturn, linkLease_status]) ?_
    rw [hbegun'.last]
    decide

end Calls

section Names

variable {π : Type} {pepStep : Environment PepOp PepOp.Answer π} {b : Broker} {w w' : World π}

/-- The calls that give every lease an ID. -/
def NamesLeases : BrokerOp → Prop
  | .store (.upsert lease) => lease.leaseID ≠ ""
  | _ => True

def FindsNamed : (op : BrokerOp) → op.Answer → Prop
  | .store (.findActive ..), .ok (some lease) => lease.leaseID ≠ ""
  | _, _ => True

theorem Named.write {t t' : LeaseTable} {new : ActionLease} {ans : Fallible Unit} (h : Named t)
    (hnew : new.leaseID ≠ "") (hw : WriteOutcome t new ans t') : Named t' := by
  rcases hw with ⟨rfl, -⟩ | hw
  · exact h
  · intro l hl
    rcases (hw l).mp hl with rfl | ⟨hl, -⟩
    · exact hnew
    · exact h l hl

theorem Named.updateStatus {t : LeaseTable} (h : Named t) (lease : ActionLease) :
    Named (t.updateActionLeaseStatus lease) := by
  intro l hl
  obtain ⟨row, hrow, rfl⟩ := LeaseTable.mem_updateActionLeaseStatus.mp hl
  split_ifs
  · exact h row hrow
  · exact h row hrow

theorem Named.call {op : BrokerOp} {ans : op.Answer} (hop : NamesLeases op) (h : Named w.leases)
    (hstep : brokerStep anyFault pepStep op w ans w') : FindsNamed op ans ∧ Named w'.leases := by
  cases op with
  | now =>
    obtain ⟨-, rfl⟩ := hstep
    exact ⟨trivial, h⟩
  | pep op =>
    obtain ⟨pep, -, rfl⟩ := hstep
    exact ⟨trivial, h⟩
  | store op =>
    obtain ⟨f, -, rfl, rfl⟩ := hstep
    cases op with
    | upsert lease => exact ⟨trivial, h.write hop (upsert_outcome w.leases lease f)⟩
    | updateStatus lease =>
      refine ⟨trivial, ?_⟩
      cases f with
      | none | after => exact h.updateStatus lease
      | before => exact h
    | listByStatus status =>
      refine ⟨trivial, ?_⟩
      rwa [StoreOp.handleWith_snd_of_isRead (show StoreOp.isRead (.listByStatus status) from trivial)]
    | listExpired now =>
      refine ⟨trivial, ?_⟩
      rwa [StoreOp.handleWith_snd_of_isRead (show StoreOp.isRead (.listExpired now) from trivial)]
    | findActive adapterID target action level =>
      rw [StoreOp.handleWith_snd_of_isRead (show StoreOp.isRead (.findActive adapterID target action level)
        from trivial)]
      refine ⟨?_, h⟩
      cases hans : (StoreOp.handleWith (.findActive adapterID target action level) f w.leases).1 with
      | error err => exact trivial
      | ok found =>
        cases found with
        | none => exact trivial
        | some lease =>
          exact h lease (LeaseTable.findActiveActionLease_spec (StoreOp.findActive_ok hans)).1

theorem Named.runs {α : Type} {p : BrokerProgram α} {a : α} (hp : Uses NamesLeases FindsNamed p)
    (h : Named w.leases) (hruns : Runs (brokerStep anyFault pepStep) p w a w') : Named w'.leases := by
  have hwp : wp (brokerStep anyFault pepStep) (fun s => Named s.leases) (fun _ s => Named s.leases) p w :=
    wp_of_uses hp h fun _ _ _ _ hop hs hstep => Named.call hop hs hstep
  exact hwp.runs hruns

theorem lease_ne_empty (id : String) : "lease-" ++ id ≠ "" := by
  intro h
  have hlength := congrArg String.length h
  simp at hlength

theorem names_apply (ids : GeneratedIDs) (r : ActionResolution) :
    Uses NamesLeases FindsNamed (b.apply ids r) := by
  have hwrites : Uses (WritesOnly fun l => l.leaseID ≠ "") FindsNamed (b.apply ids r) :=
    writesOnly_apply (fun _ _ => lease_ne_empty ids.lease) fun existing _ _ hfound => hfound
  refine Uses.mono hwrites (fun op hop => ?_) fun _ _ h => h
  cases op with
  | now => exact trivial
  | store op => cases op <;> exact hop
  | pep op => exact trivial

theorem names_revertExpired (now : Time) : Uses NamesLeases FindsNamed (b.revertExpired now) :=
  Uses.mono (uses_revertExpired trivial (uses_revert trivial (fun _ => trivial) (fun _ => trivial)
    fun _ _ => trivial)) (fun _ h => h) fun _ _ _ => trivial

theorem names_reconcilePending : Uses NamesLeases FindsNamed b.reconcilePending := by
  have hall : ∀ now leases receipts, Uses NamesLeases FindsNamed (b.failAll now receipts leases) := by
    intro now leases
    induction leases with
    | nil => exact fun _ => trivial
    | cons l rest ih =>
      refine fun receipts => ⟨trivial, fun ans _ => ?_⟩
      rcases ans with err | _
      · exact trivial
      · exact ih _
  refine ⟨trivial, fun ans _ => ?_⟩
  rcases ans with err | leases
  · exact trivial
  · exact ⟨trivial, fun now _ => hall now leases []⟩

end Names

section Runs

variable {σ ρ : Type}

/-- A call of the executor, or what happens to its PEPs and to the time between calls. -/
inductive AttemptEvent (σ ρ : Type) where
  | applySource (ids : GeneratedIDs) (target : SourceTarget) (st : FsmState) (r : ActionResolution)
    (params : EnforcementParams) (now : Time) (attempt : Attempt)
  | applyRelationship (ids : GeneratedIDs) (target : RelationshipTarget) (r : ActionResolution)
  | revertExpired (now : Time)
  | reconcilePending
  | peps (pep : BrokeredPEPs σ ρ)
  | clock (now : Time)

/-- The source broker of an executor is called with a store that fails as `faulty` allows; everything else may
fail in any way. -/
def AttemptStep (e : BrokeredActionExecutor σ ρ) (faulty : NodeWorld σ ρ → Fault → Prop) (w : NodeWorld σ ρ) :
    AttemptEvent σ ρ → NodeWorld σ ρ → Prop
  | .applySource ids target st r params now attempt, w' => shouldBrokerLease r ∧
    ∃ ret w₁, Runs (sourceEnv e w.clock faulty)
        (e.sourceBroker.apply ids (attemptContext target st r params now).resolution)
        (w.withSource (w.pep.source.begin (attemptContext target st r params now))) ret w₁ ∧
      attempt = attemptOf (attemptContext target st r params now) ret w₁.pep.source.finish.1 ∧
      w' = w₁.withSource w₁.pep.source.finish.2
  | .applyRelationship ids target r, w' => ∃ broker ∈ e.relationshipBroker, ∃ ret w₁,
    Runs (brokerStep anyFault (answers (e.relationshipHandle w.clock))) (broker.apply ids r)
        (w.withRelationship (w.pep.relationship.begin target)) ret w₁ ∧
      w' = w₁.withRelationship w₁.pep.relationship.finish.2
  | .revertExpired now, w' =>
    (∃ ret, Runs (brokerStep anyFault (answers (e.sourceHandle w.clock))) (e.sourceBroker.revertExpired now)
    w ret w') ∨
      ∃ broker ∈ e.relationshipBroker, ∃ ret,
        Runs (brokerStep anyFault (answers (e.relationshipHandle w.clock))) (broker.revertExpired now) w ret
        w'
  | .reconcilePending, w' =>
    (∃ ret, Runs (brokerStep anyFault (answers (e.sourceHandle w.clock))) e.sourceBroker.reconcilePending w
    ret w') ∨
      ∃ broker ∈ e.relationshipBroker, ∃ ret,
        Runs (brokerStep anyFault (answers (e.relationshipHandle w.clock))) broker.reconcilePending w ret w'
  | .peps pep, w' => w' = { w with pep }
  | .clock now, w' => w' = { w with clock := now }

/-- Every attempt agrees with its receipt. -/
def AttemptEvent.Agrees : AttemptEvent σ ρ → Prop
  | .applySource _ _ st _ _ _ attempt => attempt.Agrees st
  | _ => True

/-- No attempt finds its lease out of renewals. -/
def HasRenewals (e : BrokeredActionExecutor σ ρ) (w : NodeWorld σ ρ) : AttemptEvent σ ρ → Prop
  | .applySource _ target st r params now _ =>
    ¬ RenewalsExhausted e.sourceBroker w (attemptContext target st r params now).resolution
  | _ => True

variable {e : BrokeredActionExecutor σ ρ} {faulty : NodeWorld σ ρ → Fault → Prop} {w w' : NodeWorld σ ρ}
  {ev : AttemptEvent σ ρ}

theorem Named.step (h : Named w.leases) (hstep : AttemptStep e faulty w ev w') : Named w'.leases := by
  cases ev with
  | applySource ids target st r params now attempt =>
    obtain ⟨-, ret, w₁, hruns, -, rfl⟩ := hstep
    have hstart :
        Named (w.withSource (w.pep.source.begin (attemptContext target st r params now))).leases := h
    have hafter : Named w₁.leases := hstart.runs (names_apply ids _) (hruns.mono brokerStep_of_storeEnv)
    exact hafter
  | applyRelationship ids target r =>
    obtain ⟨broker, -, ret, w₁, hruns, rfl⟩ := hstep
    have hstart : Named (w.withRelationship (w.pep.relationship.begin target)).leases := h
    have hafter : Named w₁.leases := hstart.runs (names_apply ids r) hruns
    exact hafter
  | revertExpired now =>
    rcases hstep with ⟨ret, hruns⟩ | ⟨broker, -, ret, hruns⟩
    · exact h.runs (names_revertExpired now) hruns
    · exact h.runs (names_revertExpired now) hruns
  | reconcilePending =>
    rcases hstep with ⟨ret, hruns⟩ | ⟨broker, -, ret, hruns⟩
    · exact h.runs names_reconcilePending hruns
    · exact h.runs names_reconcilePending hruns
  | peps pep =>
    obtain rfl := hstep
    exact h
  | clock now =>
    obtain rfl := hstep
    exact h

/-- In a run in which no attempt finds its lease out of renewals and no store call fails once the PEP has
applied the action, every result agrees with the receipt of its attempt. -/
theorem attempts_agree {w₀ : NodeWorld σ ρ} {es : List (AttemptEvent σ ρ)} (h₀ : w₀.leases = Table.empty)
    (hrun : Run (Guarded (HasRenewals e) (AttemptStep e untilApplied)) w₀ es w) : ∀ ev ∈ es, ev.Agrees := by
  have hstart : Named w₀.leases := by
    rw [h₀]
    exact fun l hl => absurd hl Table.not_mem_empty
  refine hrun.labels (I := fun s => Named s.leases) hstart fun {s ev s'} hnamed h => ⟨?_, hnamed.step h.2⟩
  obtain ⟨hrenewals, hstep⟩ := h
  cases ev with
  | applySource ids target st r params now attempt =>
    obtain ⟨hlease, ret, w₁, hruns, rfl, -⟩ := hstep
    have hbegun : Begun (attemptContext target st r params now)
      (s.withSource (s.pep.source.begin (attemptContext target st r params now))) := ⟨rfl, rfl⟩
    exact (wp_apply_receipt hlease hbegun hnamed hrenewals).runs hruns
  | _ => exact trivial

/-- What an attempt leaves when no store call fails. -/
def BrokeredActionExecutor.attempt (e : BrokeredActionExecutor σ ρ) (ids : GeneratedIDs)
    (target : SourceTarget)
    (st : FsmState) (r : ActionResolution) (params : EnforcementParams) (now : Time) (w : NodeWorld σ ρ) :
    Attempt :=
  let ctx := attemptContext target st r params now
  let out := exec (brokerHandle (e.sourceHandle w.clock) .none) (e.sourceBroker.apply ids ctx.resolution)
    (w.withSource (w.pep.source.begin ctx))
  attemptOf ctx out.1 out.2.pep.source.finish.1

variable {ids : GeneratedIDs} {target : SourceTarget} {st : FsmState} {r : ActionResolution}
  {params : EnforcementParams} {now : Time}

/-- It is what the executor returns, and its receipt. -/
theorem attempt_applySource (hlease : shouldBrokerLease r) :
    ((e.attempt ids target st r params now w).state, (e.attempt ids target st r params now w).result) =
      (e.applySource ids target st r params now w).1 := by
  rw [BrokeredActionExecutor.applySource, if_pos hlease]
  rfl

theorem step_applySource (hlease : shouldBrokerLease r) (hnone : ∀ w, faulty w .none) :
    AttemptStep e faulty w (.applySource ids target st r params now (e.attempt ids target st r params now w))
      (e.applySource ids target st r params now w).2 := by
  let ctx := attemptContext target st r params now
  have hpep : ∀ op s, answers (e.sourceHandle w.clock) op s (e.sourceHandle w.clock op s).1
    (e.sourceHandle w.clock op s).2 := fun _ _ => rfl
  have hruns : Runs (sourceEnv e w.clock faulty) (e.sourceBroker.apply ids ctx.resolution)
      (w.withSource (w.pep.source.begin ctx)) _ _ := (runs_exec _ _ _).mono fun op s ans s' h => by
    obtain ⟨rfl, rfl⟩ := Prod.mk.inj h
    exact brokerStep_brokerHandle (hnone s) hpep op s
  rw [BrokeredActionExecutor.applySource, if_pos hlease]
  exact ⟨hlease, _, _, hruns, rfl, rfl⟩

end Runs

section Exhausted

/-- Leases of a minute that may be renewed once. -/
def renewOnceExecutor : BrokeredActionExecutor Unit Unit where
  sourcePEP := compliantPEP
  sourceBroker := renewingBroker
  relationshipPEP := absentRelationshipPEP

def unlimitedNode : NodeWorld Unit Unit := ⟨Table.empty, 63864979200000000000,
    ⟨{ adapter := () }, { adapter := () }⟩⟩

def limitedSource : SourceTarget := { sourceID := "10.0.0.1", subjectID := "10.0.0.1" }

def softLimitOf (n : String) : ActionResolution := limitOn "enforce.traffic.rate_limit" "soft" n

def softAttempt (n : String) (st : FsmState) (w : NodeWorld Unit Unit) : Attempt :=
  renewOnceExecutor.attempt (limitIDs n) limitedSource st (softLimitOf n) {} w.clock w

def softlyLimitedNode (n : String) (st : FsmState) (w : NodeWorld Unit Unit) : NodeWorld Unit Unit :=
  (renewOnceExecutor.applySource (limitIDs n) limitedSource st (softLimitOf n) {} w.clock w).2

def softEvent (n : String) (st : FsmState) (w : NodeWorld Unit Unit) : AttemptEvent Unit Unit :=
  .applySource (limitIDs n) limitedSource st (softLimitOf n) {} w.clock (softAttempt n st w)

def onceLimited : NodeWorld Unit Unit := softlyLimitedNode "1" {} unlimitedNode

def onceState : FsmState := (softAttempt "1" {} unlimitedNode).state

def twiceLimited : NodeWorld Unit Unit := softlyLimitedNode "2" onceState onceLimited

def twiceState : FsmState := (softAttempt "2" onceState onceLimited).state

theorem leased_softLimitOf (n : String) : shouldBrokerLease (softLimitOf n) :=
  ⟨rfl, show 0 < 60 * Duration.second by decide, show "soft" ≠ "" by decide,
    show "soft" ≠ "observe" by decide⟩

theorem step_soft {faulty : NodeWorld Unit Unit → Fault → Prop} (hnone : ∀ w, faulty w .none) (n : String)
    (st : FsmState) (w : NodeWorld Unit Unit) :
    AttemptStep renewOnceExecutor faulty w (softEvent n st w) (softlyLimitedNode n st w) :=
  step_applySource (leased_softLimitOf n) hnone

theorem exhausted_facts :
    (∀ existing ∈ onceLimited.leases.rows, leaseRenewalCount existing.metadata < 1) ∧
    (softAttempt "3" twiceState twiceLimited).result.status = .applied ∧
    (softAttempt "3" twiceState twiceLimited).receipt.status = .skipped := by
  decide +kernel

theorem softAttempts_agree :
    (softEvent "1" {} unlimitedNode).Agrees ∧ (softEvent "2" onceState onceLimited).Agrees := by
  have hnone : ∀ w : NodeWorld Unit Unit, untilApplied w .none := fun _ _ => rfl
  have hfirst : HasRenewals renewOnceExecutor unlimitedNode (softEvent "1" {} unlimitedNode) := by
    rintro ⟨-, existing, hfind, -⟩
    exact absurd (LeaseTable.findActiveActionLease_spec hfind).1 Table.not_mem_empty
  have hsecond : HasRenewals renewOnceExecutor onceLimited (softEvent "2" onceState onceLimited) := by
    rintro ⟨-, existing, hfind, -, -, -, hspent⟩
    have hcount := exhausted_facts.1 existing (LeaseTable.findActiveActionLease_spec hfind).1
    exact absurd hspent (not_le.mpr hcount)
  have hrun : Run (Guarded (HasRenewals renewOnceExecutor) (AttemptStep renewOnceExecutor untilApplied))
      unlimitedNode [softEvent "1" {} unlimitedNode, softEvent "2" onceState onceLimited] twiceLimited :=
    .cons ⟨hfirst, step_soft hnone _ _ _⟩ (.singleton ⟨hsecond, step_soft hnone _ _ _⟩)
  have hagree := attempts_agree rfl hrun
  exact ⟨hagree _ (by simp), hagree _ (by simp)⟩

/-- Once its renewals are used up, a lease is reported as renewed and receipted as skipped. -/
theorem exhausted_disagrees : ¬ ∀ (e : BrokeredActionExecutor Unit Unit) (w₀ w : NodeWorld Unit Unit)
    (es : List (AttemptEvent Unit Unit)), w₀.leases = Table.empty →
    Run (AttemptStep e fun _ _ => True) w₀ es w →
      ∀ ev ∈ es, ev.Agrees := by
  intro h
  obtain ⟨-, hresult, hreceipt⟩ := exhausted_facts
  have hrun : Run (AttemptStep renewOnceExecutor fun _ _ => True) unlimitedNode
      [softEvent "1" {} unlimitedNode, softEvent "2" onceState onceLimited,
        softEvent "3" twiceState twiceLimited]
      (softlyLimitedNode "3" twiceState twiceLimited) :=
    .cons (step_soft (fun _ => trivial) _ _ _) (.cons (step_soft (fun _ => trivial) _ _ _)
      (.singleton (step_soft (fun _ => trivial) _ _ _)))
  have hagrees : (softAttempt "3" twiceState twiceLimited).Agrees twiceState :=
    h _ _ _ _ rfl hrun (softEvent "3" twiceState twiceLimited) (by simp)
  have happlied := hagrees.status.mp (.inl hresult)
  rw [hreceipt] at happlied
  cases happlied

end Exhausted

end Kernloom
