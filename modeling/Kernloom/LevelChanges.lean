import Kernloom.RelationshipExecutor
import Kernloom.SourceRules

/-! What the executor's operations do to the levels that the sources are enforced at, and the level
each of them reports. An application under a lease is refused, renews a lease or moves its source. -/

namespace Kernloom

open Effects Effects.Program

/-- A reliable executor whose PEP answers with the level it moved the source to. -/
structure LevelledExecutor (σ ρ : Type) extends ReliableExecutor σ ρ where
  transition_level : ∀ {target st level now params s st'},
    (sourcePEP.transitionSource target st level now params s).1 = .ok st' → st'.level = level

/-- The level an operation reports for its source, and what it does to the levels enforced. -/
inductive LevelChange where
  | keeps
  | renews (level : Level)
  | moves (source : String) (level : Level)

namespace LevelChange

/-- The level reported, where the caller told one. -/
def level (told : Level) : LevelChange → Level
  | keeps => told
  | renews l => l
  | moves _ l => l

def enforced (levels : String → Level) : LevelChange → String → Level
  | keeps | renews _ => levels
  | moves source l => Function.update levels source l

/-- The level reported for a source is the one enforced on it, and no other source was moved off its own. -/
def Agrees (levels : String → Level) (source : String) (told : Level) : LevelChange → Prop
  | keeps => told = levels source
  | renews l => l = levels source
  | moves source' l => source' = source ∨ (l = levels source ∧ l = levels source')

instance {levels : String → Level} {source : String} {told : Level} : (ch : LevelChange) →
    Decidable (ch.Agrees levels source told)
  | keeps | renews _ => inferInstanceAs (Decidable (_ = _))
  | moves _ _ => inferInstanceAs (Decidable (_ ∨ _))

/-- A record that says what is enforced still does after a change, exactly when the change agrees. -/
theorem update_eq_enforced_iff {levels : String → Level} {source : String} {told : Level} (ch : LevelChange) :
    Function.update levels source (ch.level told) = ch.enforced levels ↔ ch.Agrees levels source told := by
  cases ch with
  | keeps => exact Function.update_eq_self_iff
  | renews l => exact Function.update_eq_self_iff
  | moves source' l =>
    simp only [level, enforced, Agrees]
    constructor
    · intro h
      by_cases hs : source' = source
      · exact .inl hs
      · have hsource := congrFun h source
        have hsource' := congrFun h source'
        rw [Function.update_self, Function.update_of_ne (Ne.symm hs)] at hsource
        rw [Function.update_self, Function.update_of_ne hs] at hsource'
        exact .inr ⟨hsource, hsource'.symm⟩
    · rintro (rfl | ⟨hl, hl'⟩)
      · rfl
      · rw [Function.update_eq_self_iff.mpr hl, Function.update_eq_self_iff.mpr hl']

end LevelChange

section Exec

variable {π α : Type} {handle : (op : PepOp) → π → op.Answer × π} {b : Broker}

theorem exec_readsOnly {p : BrokerProgram α} (hp : ReadsOnly p) (w : World π) :
    (exec (brokerHandle handle .none) p w).2 = w := by
  induction p with
  | ret a => rfl
  | call op next ih =>
    have hstay : (brokerHandle handle .none op w).2 = w := by
      cases op with
      | now => rfl
      | store op => simp [brokerHandle, StoreOp.handleWith_snd_of_isRead hp.1]
      | pep op => exact hp.1.elim
    rw [exec, hstay]
    exact ih _ (hp.2 _ trivial)

/-- What a program that only reads answers depends on the table and the clock. -/
theorem exec_readsOnly_congr {π' : Type} {handle' : (op : PepOp) → π' → op.Answer × π'} {p : BrokerProgram α}
    (hp : ReadsOnly p) (w : World π) (w' : World π') (hleases : w'.leases = w.leases) (hclock : w'.clock = w.clock) :
    (exec (brokerHandle handle' .none) p w').1 = (exec (brokerHandle handle .none) p w).1 := by
  induction p generalizing w w' with
  | ret a => rfl
  | call op next ih =>
    cases op with
    | now =>
      simp only [exec, brokerHandle, hclock]
      exact ih _ (hp.2 _ trivial) _ _ hleases hclock
    | store op =>
      simp only [exec, brokerHandle, hleases]
      exact ih _ (hp.2 _ trivial) _ _ rfl hclock
    | pep op => exact hp.1.elim

/-- Superseding weaker leases succeeds and asks the PEP for nothing. -/
theorem exec_supersedeWeaker {applied : ActionLease} {now : Time} (asked : List (String × String)) (w : World π) :
    (exec (brokerHandle handle .none) (b.supersedeWeaker applied now asked) w).1 = .ok () ∧
      (exec (brokerHandle handle .none) (b.supersedeWeaker applied now asked) w).2.pep = w.pep := by
  induction asked generalizing w with
  | nil => exact ⟨rfl, rfl⟩
  | cons probe rest ih =>
    simp only [Broker.supersedeWeaker, perform_bind, exec, brokerHandle, StoreOp.handleWith, StoreOp.handle]
    cases w.leases.findActiveActionLease b.adapterID applied.target probe.1 probe.2 with
    | none => exact ih w
    | some lease =>
      dsimp only
      by_cases hkeep : lease.leaseID = applied.leaseID ∨ applied.strength ≤ lease.strength
      · rw [if_pos hkeep]
        exact ih w
      · rw [if_neg hkeep]
        exact ih _

theorem exec_supersedeWeakerActiveLeases {applied : ActionLease} {now : Time} (w : World π) :
    (exec (brokerHandle handle .none) (b.supersedeWeakerActiveLeases applied now) w).1 = .ok () ∧
      (exec (brokerHandle handle .none) (b.supersedeWeakerActiveLeases applied now) w).2.pep = w.pep := by
  unfold Broker.supersedeWeakerActiveLeases
  by_cases hstrength : applied.strength = 0
  · rw [if_pos hstrength]
    exact ⟨rfl, rfl⟩
  · rw [if_neg hstrength]
    exact exec_supersedeWeaker _ w

/-- A program whose PEP keeps some part of the node's state keeps it. -/
theorem exec_keeps {κ : Type} (part : π → κ) (hkeep : ∀ op s, part (handle op s).2 = part s)
    (p : BrokerProgram α) (w : World π) : part (exec (brokerHandle handle .none) p w).2.pep = part w.pep := by
  induction p generalizing w with
  | ret a => rfl
  | call op next ih =>
    rw [exec, ih]
    cases op with
    | now => rfl
    | store op => rfl
    | pep op => exact hkeep op w.pep

end Exec

namespace LevelledExecutor

variable {σ ρ : Type} (e : LevelledExecutor σ ρ)

/-- The level a source is enforced at. -/
def levelOn (w : NodeWorld σ ρ) (source : String) : Level := (e.enforcedOn w source).level

section Applied

variable (r : ActionResolution) (w : NodeWorld σ ρ)

/-- The broker declines an application before it looks for a lease to renew. -/
def Declines : Prop :=
  (exec (brokerHandle (e.sourceHandle w.clock) .none)
    (e.sourceBroker.autonomyPrerequisiteDenyReason r (targetString r.target) e.sourceBroker.autonomyAllowances)
      w).1 ≠ .ok "" ∨
  (exec (brokerHandle (e.sourceHandle w.clock) .none)
    (e.sourceBroker.strongerActiveLeaseDenyReason r (targetString r.target)) w).1 ≠ .ok ""

instance : Decidable (e.Declines r w) := inferInstanceAs (Decidable (_ ∨ _))

/-- What an application under a lease does to its source. -/
def leaseChange (source : String) : LevelChange :=
  if e.Declines r w then .keeps
  else
    match w.leases.findActiveActionLease e.sourceBroker.adapterID (targetString r.target) r.executableAction
      r.executableLevel with
    | none => .moves source (parseFSMLevel r.executableLevel)
    | some l =>
      if executionMetadataChanged l.metadata (e.sourceBroker.leaseMetadata r) = none ∧
          w.pep.source.currentTokens.current l = l.fencingToken then
        if l.leaseID = "" then .keeps else .renews (parseFSMLevel l.level)
      else .moves source (parseFSMLevel r.executableLevel)

/-- What an application does to its source. -/
def change (target : SourceTarget) (params : EnforcementParams) : LevelChange :=
  if shouldBrokerLease r then
    e.leaseChange (resolutionWithExecutionMetadata r (enforcementParamsForResolution params r)) w target.id
  else .moves target.id (if r.allowed then parseFSMLevel r.executableLevel else .observe)

end Applied

section Unbrokered

variable {e} {w : NodeWorld σ ρ}

theorem enforcementOf_level (level : Level) (p : EnforcementParams) : (enforcementOf level p).level = level := by
  cases level <;> rfl

/-- A transition answers with the level that its source is then enforced at. -/
theorem transition_levels (target : SourceTarget) (st : FsmState) (level : Level) (now : Time)
    (p : EnforcementParams) (s : σ) : ∃ st', (e.sourcePEP.transitionSource target st level now p s).1 = .ok st' ∧
      st'.level = level ∧ ∀ source,
        (e.enforced (e.sourcePEP.transitionSource target st level now p s).2 source).level =
          Function.update (fun source => (e.enforced s source).level) target.id level source := by
  obtain ⟨st', hst⟩ := e.transition_ok target st level now p s
  refine ⟨st', hst, e.transition_level hst, fun source => ?_⟩
  rw [e.enforced_transition, Function.update_apply]
  by_cases hs : source = target.id
  · rw [if_pos hs, if_pos hs, enforcementOf_level]
  · rw [if_neg hs, if_neg hs]

theorem applySource_answer {target : SourceTarget} {st st' : FsmState} {r : ActionResolution}
    {p : EnforcementParams} {now : Time} {s : σ}
    (h : (e.sourcePEP.transitionSource target st (if r.allowed then parseFSMLevel r.executableLevel else .observe)
      now p s).1 = .ok st') :
    (SourceActionExecutor.applySource e.sourcePEP target st r p now s).1.1 = st' ∧
      (SourceActionExecutor.applySource e.sourcePEP target st r p now s).1.2.status ≠ .failed ∧
      (SourceActionExecutor.applySource e.sourcePEP target st r p now s).1.2.status ≠ .unset := by
  unfold SourceActionExecutor.applySource
  cases hallowed : r.allowed with
  | false =>
    simp only [hallowed, Bool.false_eq_true, if_false] at h
    rcases htr : e.sourcePEP.transitionSource target st .observe now p s with ⟨answer, s'⟩
    rw [htr] at h
    obtain rfl : answer = .ok st' := h
    simp
  | true =>
    simp only [hallowed, if_true] at h
    rcases htr : e.sourcePEP.transitionSource target st (parseFSMLevel r.executableLevel) now p s with ⟨answer, s'⟩
    rw [htr] at h
    obtain rfl : answer = .ok st' := h
    by_cases hreason : r.denyReason = "" <;> simp [hreason]

/-- A transition without a lease never fails, and moves its source to the level it reports. -/
theorem applyUnbrokered_levels (target : SourceTarget) (st : FsmState) (r : ActionResolution)
    (p : EnforcementParams) (now : Time) :
    (e.applyUnbrokered target st r p now w).1.2.status ≠ .failed ∧
      (e.applyUnbrokered target st r p now w).1.1.level =
        (if r.allowed then parseFSMLevel r.executableLevel else .observe) ∧
      e.levelOn (e.applyUnbrokered target st r p now w).2 =
        Function.update (e.levelOn w) target.id (if r.allowed then parseFSMLevel r.executableLevel else .observe) := by
  obtain ⟨st', hst, hlevel, henf⟩ := e.transition_levels target st
    (if r.allowed then parseFSMLevel r.executableLevel else .observe) now p w.pep.source.adapter
  have hsnd := SourceActionExecutor.applySource_snd e.sourcePEP target st r p now w.pep.source.adapter
  obtain ⟨hfst, hfailed, _⟩ := applySource_answer hst
  refine ⟨hfailed, (congrArg FsmState.level hfst).trans hlevel, funext fun source => ?_⟩
  have hafter := henf source
  rw [← hsnd] at hafter
  exact hafter

end Unbrokered

section Brokered

variable {e} {r : ActionResolution} {w : NodeWorld σ ρ} {ids : GeneratedIDs} {ctx : ApplyContext}

/-- A declined application changes nothing and answers without a lease. -/
theorem exec_apply_declined (ids : GeneratedIDs) (hb : shouldBrokerLease r) (h : e.Declines r w) :
    ∃ ret, exec (brokerHandle (e.sourceHandle w.clock) .none) (e.sourceBroker.apply ids r) w = (ret, w) ∧
      ret.lease = none := by
  obtain ⟨hallowed, httl, hempty, hobserve⟩ := hb
  have hlevel : ¬ (r.executableLevel = "" ∨ r.executableLevel = "observe" ∨ r.ttl ≤ 0) := by
    push Not
    exact ⟨hempty, hobserve, httl⟩
  have hautonomy := readsOnly_autonomyPrerequisiteDenyReason (b := e.sourceBroker) r (targetString r.target)
    e.sourceBroker.autonomyAllowances
  have hstronger := readsOnly_strongerActiveLeaseDenyReason (b := e.sourceBroker) r (targetString r.target)
  simp only [Broker.apply, perform_bind, exec, brokerHandle, hallowed, hlevel, not_true, if_false,
    Broker.applyLeased, exec_bind, exec_readsOnly hautonomy]
  cases ha : (exec (brokerHandle (e.sourceHandle w.clock) .none) (e.sourceBroker.autonomyPrerequisiteDenyReason r
    (targetString r.target) e.sourceBroker.autonomyAllowances) w).1 with
  | error err => exact ⟨_, rfl, rfl⟩
  | ok reason =>
    by_cases hreason : reason = ""
    · subst hreason
      simp only [ne_eq, not_true, if_false, exec_bind, exec_readsOnly hstronger]
      cases hs : (exec (brokerHandle (e.sourceHandle w.clock) .none)
        (e.sourceBroker.strongerActiveLeaseDenyReason r (targetString r.target)) w).1 with
      | error err => exact ⟨_, rfl, rfl⟩
      | ok reason =>
        have hne : reason ≠ "" := by
          rintro rfl
          rcases h with h | h
          · exact h ha
          · exact h hs
        simp only [hne, not_false_eq_true, if_true]
        exact ⟨_, rfl, rfl⟩
    · simp only [ne_eq, hreason, not_false_eq_true, if_true]
      exact ⟨_, rfl, rfl⟩

theorem exec_apply_renewal (ids : GeneratedIDs) (hb : shouldBrokerLease r) (h : ¬ e.Declines r w) :
    ∃ receipt, exec (brokerHandle (e.sourceHandle w.clock) .none) (e.sourceBroker.apply ids r) w =
      exec (brokerHandle (e.sourceHandle w.clock) .none)
        (e.sourceBroker.renewActiveLease r (Broker.decisionIDFor ids r) (targetString r.target)
          (e.sourceBroker.leaseMetadata r) w.clock >>=
            e.sourceBroker.afterRenewal ids r (Broker.decisionIDFor ids r) receipt w.clock) w := by
  obtain ⟨hallowed, httl, hempty, hobserve⟩ := hb
  have hlevel : ¬ (r.executableLevel = "" ∨ r.executableLevel = "observe" ∨ r.ttl ≤ 0) := by
    push Not
    exact ⟨hempty, hobserve, httl⟩
  have hautonomy := readsOnly_autonomyPrerequisiteDenyReason (b := e.sourceBroker) r (targetString r.target)
    e.sourceBroker.autonomyAllowances
  have hstronger := readsOnly_strongerActiveLeaseDenyReason (b := e.sourceBroker) r (targetString r.target)
  unfold Declines at h
  push Not at h
  obtain ⟨ha, hs⟩ := h
  simp only [Broker.apply, perform_bind, exec, brokerHandle, hallowed, hlevel, not_true, if_false,
    Broker.applyLeased, exec_bind, exec_readsOnly hautonomy, ha, exec_readsOnly hstronger, hs, ne_eq]
  exact ⟨_, rfl⟩

theorem exec_renew_none (h : w.leases.findActiveActionLease e.sourceBroker.adapterID (targetString r.target)
    r.executableAction r.executableLevel = none) (decisionID : String) (now : Time) :
    exec (brokerHandle (e.sourceHandle w.clock) .none) (e.sourceBroker.renewActiveLease r decisionID
      (targetString r.target) (e.sourceBroker.leaseMetadata r) now) w = ({}, w) := by
  simp only [Broker.renewActiveLease, perform_bind, exec, brokerHandle, StoreOp.handleWith, StoreOp.handle, h]
  rfl

variable {l : ActionLease}

/-- A lease with the metadata asked for and its token in force is renewed. -/
theorem exec_renew_some (h : w.leases.findActiveActionLease e.sourceBroker.adapterID (targetString r.target)
      r.executableAction r.executableLevel = some l)
    (hsame : executionMetadataChanged l.metadata (e.sourceBroker.leaseMetadata r) = none)
    (hcur : w.pep.source.currentTokens.current l = l.fencingToken) (decisionID : String) (now : Time) :
    ∃ ren w', exec (brokerHandle (e.sourceHandle w.clock) .none) (e.sourceBroker.renewActiveLease r decisionID
        (targetString r.target) (e.sourceBroker.leaseMetadata r) now) w = (ren, w') ∧
      ren.err = none ∧ ren.renewed = true ∧ w'.pep = w.pep ∧
      ∃ l', ren.lease = some l' ∧ l'.leaseID = l.leaseID ∧ l'.level = l.level := by
  simp only [Broker.renewActiveLease, perform_bind, exec, brokerHandle, StoreOp.handleWith, StoreOp.handle, h,
    hsame, BrokeredActionExecutor.sourceHandle, BrokeredSourcePEP.handle, hcur, ne_eq, not_true, if_false]
  by_cases hmax : 0 < e.sourceBroker.maxRenewals ∧ e.sourceBroker.maxRenewals ≤ leaseRenewalCount l.metadata
  · simp only [if_pos hmax]
    exact ⟨_, _, rfl, rfl, rfl, rfl, l, rfl, rfl, rfl⟩
  · simp only [if_neg hmax]
    exact ⟨_, _, rfl, rfl, rfl, rfl, _, rfl, rfl, rfl⟩

theorem exec_renew_ended (h : w.leases.findActiveActionLease e.sourceBroker.adapterID (targetString r.target)
      r.executableAction r.executableLevel = some l)
    (hnot : ¬ (executionMetadataChanged l.metadata (e.sourceBroker.leaseMetadata r) = none ∧
      w.pep.source.currentTokens.current l = l.fencingToken)) (decisionID : String) (now : Time) :
    ∃ w', exec (brokerHandle (e.sourceHandle w.clock) .none) (e.sourceBroker.renewActiveLease r decisionID
        (targetString r.target) (e.sourceBroker.leaseMetadata r) now) w = ({}, w') ∧ w'.pep = w.pep := by
  cases hchanged : executionMetadataChanged l.metadata (e.sourceBroker.leaseMetadata r) with
  | some key =>
    simp only [Broker.renewActiveLease, perform_bind, exec, brokerHandle, StoreOp.handleWith, StoreOp.handle, h,
      hchanged]
    exact ⟨_, rfl, rfl⟩
  | none =>
    have hcur : w.pep.source.currentTokens.current l ≠ l.fencingToken := fun hcur => hnot ⟨hchanged, hcur⟩
    simp only [Broker.renewActiveLease, perform_bind, exec, brokerHandle, StoreOp.handleWith, StoreOp.handle, h,
      hchanged, BrokeredActionExecutor.sourceHandle, BrokeredSourcePEP.handle, hcur, ne_eq, not_false_eq_true,
      if_true]
    exact ⟨_, rfl, rfl⟩

/-- A new lease is applied: its source is moved, and the answer of the PEP is kept. -/
theorem exec_createLease (l : ActionLease) (now' : Time) (hactive : w.pep.source.active = some ctx)
    (hallowed : ctx.resolution.allowed = true) (receipt : EnforcementReceipt) (now : Time) :
    ∃ ret w', exec (brokerHandle (e.sourceHandle now') .none) (e.sourceBroker.createLease l receipt now) w =
        (ret, w') ∧ ret.err = none ∧ (∃ l', ret.lease = some l' ∧ l'.leaseID = l.leaseID) ∧
      w'.pep.source.last.result.status ≠ .failed ∧ w'.pep.source.last.result.status ≠ .unset ∧
      w'.pep.source.last.state.level = parseFSMLevel ctx.resolution.executableLevel ∧
      e.levelOn w' = Function.update (e.levelOn w) ctx.target.id (parseFSMLevel ctx.resolution.executableLevel) := by
  obtain ⟨st', hst, hlevel, henf⟩ := e.transition_levels ctx.target ctx.state
    (if ctx.resolution.allowed then parseFSMLevel ctx.resolution.executableLevel else .observe) ctx.now ctx.params
    w.pep.source.adapter
  obtain ⟨hfst, hfailed, hunset⟩ := applySource_answer hst
  have hsnd := SourceActionExecutor.applySource_snd e.sourcePEP ctx.target ctx.state ctx.resolution ctx.params
    ctx.now w.pep.source.adapter
  rw [if_pos hallowed] at hlevel
  simp only [Broker.createLease, perform_bind, exec, brokerHandle, StoreOp.handleWith, StoreOp.handle,
    BrokeredActionExecutor.sourceHandle, BrokeredSourcePEP.handle, hactive, hfailed, if_false, ne_eq, not_true,
    and_false, exec_bind]
  generalize hrun : exec (brokerHandle (e.sourceHandle now') .none)
    (e.sourceBroker.supersedeWeakerActiveLeases _ _) _ = out
  obtain ⟨hok, hpep⟩ := hrun ▸ exec_supersedeWeakerActiveLeases (b := e.sourceBroker) _
  obtain ⟨answer, w'⟩ := out
  obtain rfl : answer = .ok () := hok
  refine ⟨_, _, rfl, rfl, ⟨_, rfl, rfl⟩, ?_⟩
  dsimp only at hpep
  rw [hpep]
  refine ⟨hfailed, hunset, (congrArg FsmState.level hfst).trans hlevel, funext fun source => ?_⟩
  have hafter := henf source
  rw [← hsnd, if_pos hallowed] at hafter
  simp only [levelOn, ReliableExecutor.enforcedOn, hpep]
  exact hafter

theorem declines_begin (s : BrokeredSourcePEP σ) : e.Declines r (w.withSource s) ↔ e.Declines r w := by
  have hautonomy := readsOnly_autonomyPrerequisiteDenyReason (b := e.sourceBroker) r (targetString r.target)
    e.sourceBroker.autonomyAllowances
  have hstronger := readsOnly_strongerActiveLeaseDenyReason (b := e.sourceBroker) r (targetString r.target)
  unfold Declines
  rw [exec_readsOnly_congr hautonomy w (w.withSource s) rfl rfl,
    exec_readsOnly_congr hstronger w (w.withSource s) rfl rfl]

theorem exec_create_change {decisionID : String} {receipt : EnforcementReceipt} {now now' : Time}
    (hallowed : r.allowed = true) (hactive : w.pep.source.active = some ctx) (hctx : ctx.resolution = r) :
    ∃ ret w', exec (brokerHandle (e.sourceHandle now') .none) (e.sourceBroker.afterRenewal ids r decisionID receipt
        now {}) w = (ret, w') ∧
      ((if (BrokeredActionExecutor.brokeredOutcome ctx ret w'.pep.source.last).2.status = .failed then ctx.state
        else (BrokeredActionExecutor.brokeredOutcome ctx ret w'.pep.source.last).1).level =
          parseFSMLevel r.executableLevel) ∧
      e.levelOn w' = Function.update (e.levelOn w) ctx.target.id (parseFSMLevel r.executableLevel) := by
  subst hctx
  obtain ⟨ret, w', hrun, herr, ⟨l, hlease, hid⟩, hfailed, hunset, hlevel, hlevels⟩ := exec_createLease (e := e)
    (e.sourceBroker.newLease ids ctx.resolution decisionID (targetString ctx.resolution.target)
      (e.sourceBroker.leaseMetadata ctx.resolution) now) now' hactive hallowed receipt now
  have hne : l.leaseID ≠ "" := by
    rw [hid]
    intro h
    have hlength := congrArg (fun s => s.toList.length) h
    simp [Broker.newLease] at hlength
  refine ⟨ret, w', hrun, ?_, hlevels⟩
  simp only [BrokeredActionExecutor.brokeredOutcome, herr, hlease, hne, hunset, hfailed, if_false]
  exact hlevel

/-- The broker's part of an application: refused, renewed, or applied by the PEP. -/
theorem exec_apply_change (ids : GeneratedIDs) (hb : shouldBrokerLease r) (hactive : w.pep.source.active = some ctx)
    (hctx : ctx.resolution = r) (hlast : w.pep.source.last = {}) :
    ∃ ret w', exec (brokerHandle (e.sourceHandle w.clock) .none) (e.sourceBroker.apply ids r) w = (ret, w') ∧
      ((if (BrokeredActionExecutor.brokeredOutcome ctx ret w'.pep.source.last).2.status = .failed then ctx.state
        else (BrokeredActionExecutor.brokeredOutcome ctx ret w'.pep.source.last).1).level =
          (e.leaseChange r w ctx.target.id).level ctx.state.level) ∧
      e.levelOn w' = (e.leaseChange r w ctx.target.id).enforced (e.levelOn w) := by
  unfold leaseChange
  by_cases hdeclines : e.Declines r w
  · rw [if_pos hdeclines]
    obtain ⟨ret, hrun, hlease⟩ := exec_apply_declined ids hb hdeclines
    refine ⟨ret, w, hrun, ?_, rfl⟩
    cases herr : ret.err <;> simp [BrokeredActionExecutor.brokeredOutcome, herr, hlease, hlast, LevelChange.level]
  rw [if_neg hdeclines]
  obtain ⟨receipt, hrun⟩ := exec_apply_renewal ids hb hdeclines
  rw [hrun, exec_bind]
  cases hfind : w.leases.findActiveActionLease e.sourceBroker.adapterID (targetString r.target)
    r.executableAction r.executableLevel with
  | none =>
    rw [exec_renew_none hfind]
    exact exec_create_change hb.1 hactive hctx
  | some l =>
    dsimp only
    by_cases hren : executionMetadataChanged l.metadata (e.sourceBroker.leaseMetadata r) = none ∧
        w.pep.source.currentTokens.current l = l.fencingToken
    · rw [if_pos hren]
      obtain ⟨⟨lease, renewed, skip, err⟩, w', hrenew, rfl, rfl, hpep, l', rfl, hid, hlevel⟩ :=
        exec_renew_some hfind hren.1 hren.2 (Broker.decisionIDFor ids r) w.clock
      have hret : ∃ ret, exec (brokerHandle (e.sourceHandle w.clock) .none) (e.sourceBroker.afterRenewal ids r
          (Broker.decisionIDFor ids r) receipt w.clock ⟨some l', true, skip, none⟩) w' = (ret, w') ∧
          ret.err = none ∧ ret.lease = some l' := by
        by_cases hskip : skip = ""
        · subst hskip
          exact ⟨_, rfl, rfl, rfl⟩
        · simp only [Broker.afterRenewal, ne_eq, hskip, not_false_eq_true, if_true]
          exact ⟨_, rfl, rfl, rfl⟩
      obtain ⟨ret, hret, herr, hlease⟩ := hret
      rw [hrenew]
      refine ⟨ret, w', hret, ?_, ?_⟩
      · simp only [BrokeredActionExecutor.brokeredOutcome, herr, hlease, hpep, hlast, hid]
        by_cases hempty : l.leaseID = ""
        · simp [hempty, LevelChange.level]
        · simp [hempty, LevelChange.level, BrokeredActionExecutor.sourceApplyOutcomeFromLease, hlevel]
      · have hsame : e.levelOn w' = e.levelOn w := by
          funext source
          simp only [levelOn, ReliableExecutor.enforcedOn, hpep]
        rw [hsame]
        by_cases hempty : l.leaseID = "" <;> simp [hempty, LevelChange.enforced]
    · rw [if_neg hren]
      obtain ⟨w', hrenew, hpep⟩ := exec_renew_ended hfind hren (Broker.decisionIDFor ids r) w.clock
      have hsame : e.levelOn w' = e.levelOn w := by
        funext source
        simp only [levelOn, ReliableExecutor.enforcedOn, hpep]
      rw [hrenew, ← hsame]
      exact exec_create_change hb.1 (hpep ▸ hactive) hctx

theorem leaseChange_begin (s : BrokeredSourcePEP σ) (htokens : s.currentTokens = w.pep.source.currentTokens)
    (source : String) : e.leaseChange r (w.withSource s) source = e.leaseChange r w source := by
  unfold leaseChange
  simp only [declines_begin]
  simp only [World.withSource, htokens]

/-- An application reports the level of its change, and does to the levels what its change says. -/
theorem applySource_change (ids : GeneratedIDs) (target : SourceTarget) (st : FsmState) (r : ActionResolution)
    (params : EnforcementParams) (now : Time) (w : NodeWorld σ ρ) :
    (if (e.applySource ids target st r params now w).1.2.status = .failed then st
      else (e.applySource ids target st r params now w).1.1).level = (e.change r w target params).level st.level ∧
    e.levelOn (e.applySource ids target st r params now w).2 =
      (e.change r w target params).enforced (e.levelOn w) := by
  unfold change BrokeredActionExecutor.applySource
  by_cases hb : shouldBrokerLease r
  · rw [if_pos hb, if_pos hb]
    let p := enforcementParamsForResolution params r
    let ctx : ApplyContext := ⟨target, st, resolutionWithExecutionMetadata r p, p, now⟩
    obtain ⟨ret, w', hrun, hlevel, hlevels⟩ := exec_apply_change (e := e) ids
      (w := w.withSource (w.pep.source.begin ctx)) (r := resolutionWithExecutionMetadata r p) hb rfl rfl rfl
    rw [leaseChange_begin (w.pep.source.begin ctx) rfl] at hlevel hlevels
    have hout : e.applyBrokered ids ⟨target, st, r, p, now⟩ w =
        (BrokeredActionExecutor.brokeredOutcome ctx ret w'.pep.source.last, w'.withSource w'.pep.source.finish.2) := by
      simp only [BrokeredActionExecutor.applyBrokered]
      rw [show exec (brokerHandle (e.sourceHandle w.clock) .none) (e.sourceBroker.apply ids ctx.resolution)
        (w.withSource (w.pep.source.begin ctx)) = (ret, w') from hrun]
      rfl
    rw [hout]
    exact ⟨hlevel, hlevels⟩
  · rw [if_neg hb, if_neg hb]
    obtain ⟨hfailed, hlevel, hlevels⟩ := applyUnbrokered_levels (e := e) (w := w) target st r
      (enforcementParamsForResolution params r) now
    rw [if_neg hfailed]
    exact ⟨hlevel, hlevels⟩

end Brokered

section Relationships

variable {e} {w : NodeWorld σ ρ}

theorem exec_relationship_levels {α : Type} (now : Time) (p : BrokerProgram α) (w : NodeWorld σ ρ) :
    e.levelOn (exec (brokerHandle (e.relationshipHandle now) .none) p w).2 = e.levelOn w := by
  funext source
  have hkeep : (exec (brokerHandle (e.relationshipHandle now) .none) p w).2.pep.source.adapter =
      w.pep.source.adapter := exec_keeps (fun pep => pep.source.adapter) (fun _ _ => rfl) p w
  simp only [levelOn, ReliableExecutor.enforcedOn, hkeep]

theorem applyRelationship_levels (ids : GeneratedIDs) (target : RelationshipTarget) (r : ActionResolution)
    (now : Time) (w : NodeWorld σ ρ) :
    e.levelOn (e.applyRelationship ids target r now w).2 = e.levelOn w := by
  unfold BrokeredActionExecutor.applyRelationship
  by_cases hallowed : ¬ r.allowed
  · rw [if_pos hallowed]
  rw [if_neg hallowed]
  by_cases hlevel : r.executableLevel ≠ "block"
  · rw [if_pos hlevel]
  rw [if_neg hlevel]
  by_cases httl : r.ttl ≤ 0
  · rw [if_pos httl]
  rw [if_neg httl]
  cases e.relationshipBroker with
  | none => rfl
  | some broker =>
    exact exec_relationship_levels _ (broker.apply ids r) (w.withRelationship (w.pep.relationship.begin target))

end Relationships

section Sweeps

/-- The sweep reverts the lease for this source. -/
structure RevertedFor (now : Time) (w : NodeWorld σ ρ) (source : String) (l : ActionLease) : Prop where
  expired : l ∈ w.leases.listExpiredActionLeases now
  value : (targetFromLease l).value = source
  held : ∃ l₀ ∈ w.leases.listExpiredActionLeases now, leaseFencingKey l₀ = leaseFencingKey l ∧
    w.pep.source.currentTokens.current l₀ = l₀.fencingToken

variable {e} {w : NodeWorld σ ρ} {now : Time}

/-- During a sweep of `due`: a token is as it was, or gone after the revert of a lease that held it,
and a source is at its level, or moved to observe. -/
structure SweptFrom (e : LevelledExecutor σ ρ) (w₀ : NodeWorld σ ρ) (due : List ActionLease) (w : NodeWorld σ ρ) :
    Prop where
  token : ∀ key, tokenOn w key = tokenOn w₀ key ∨ (tokenOn w key = "" ∧ ∃ l₀ ∈ due, leaseFencingKey l₀ = key ∧
    w₀.pep.source.currentTokens.current l₀ = l₀.fencingToken)
  level : ∀ source, e.levelOn w source = e.levelOn w₀ source ∨ (e.levelOn w source = .observe ∧
    ∃ l ∈ due, (targetFromLease l).value = source ∧ ∃ l₀ ∈ due, leaseFencingKey l₀ = leaseFencingKey l ∧
      w₀.pep.source.currentTokens.current l₀ = l₀.fencingToken)

theorem SweptFrom.of_source {w₀ w' : NodeWorld σ ρ} {due : List ActionLease} (h : SweptFrom e w₀ due w)
    (hsource : w'.pep.source = w.pep.source) : SweptFrom e w₀ due w' := by
  refine ⟨fun key => ?_, fun source => ?_⟩
  · have htoken := h.token key
    unfold tokenOn at htoken ⊢
    rwa [hsource]
  · have hlevel := h.level source
    unfold levelOn ReliableExecutor.enforcedOn at hlevel ⊢
    rwa [hsource]

theorem exec_revert_swept {w₀ : NodeWorld σ ρ} {due : List ActionLease} {l : ActionLease} (at' : Time)
    (h : SweptFrom e w₀ due w) (hl : l ∈ due) :
    SweptFrom e w₀ due (exec (brokerHandle (e.sourceHandle at') .none) (e.sourceBroker.revert l) w).2 := by
  by_cases hcur : w.pep.source.currentTokens.current l = l.fencingToken
  · have hheld : ∃ l₀ ∈ due, leaseFencingKey l₀ = leaseFencingKey l ∧
        w₀.pep.source.currentTokens.current l₀ = l₀.fencingToken := by
      rcases h.token (leaseFencingKey l) with hsame | ⟨_, hfound⟩
      · refine ⟨l, hl, rfl, ?_⟩
        unfold FencingTokens.current at hcur ⊢
        unfold tokenOn at hsame
        rwa [← hsame]
      · exact hfound
    simp only [Broker.revert, perform_bind, exec, brokerHandle,
      BrokeredActionExecutor.sourceHandle, BrokeredSourcePEP.handle, hcur, ne_eq, not_true, if_false]
    by_cases hvalue : (targetFromLease l).value = ""
    · simp only [hvalue, if_true]
      exact h.of_source rfl
    simp only [hvalue, if_false]
    obtain ⟨_, _, _, henf⟩ := e.transition_levels ⟨(targetFromLease l).value, (targetFromLease l).value,
      (targetFromLease l).attributes⟩ { level := parseFSMLevel l.level } .observe at' e.params w.pep.source.adapter
    refine ⟨fun key => ?_, fun source => ?_⟩
    · have hclear := FencingTokens.get_clearCurrent w.pep.source.currentTokens l key
      by_cases hkey : key = leaseFencingKey l ∧
          w.pep.source.currentTokens.get (leaseFencingKey l) = l.fencingToken
      · rw [if_pos hkey] at hclear
        exact .inr ⟨hclear, hkey.1 ▸ hheld⟩
      · rw [if_neg hkey] at hclear
        have htoken := h.token key
        unfold tokenOn at htoken ⊢
        change GoMap.get (FencingTokens.clearCurrent _ _) key = _ ∨ GoMap.get (FencingTokens.clearCurrent _ _) key = _ ∧ _
        rwa [hclear]
    · have hafter := henf source
      rw [← SourceActionExecutor.applyDeEnforceSource_snd, Function.update_apply] at hafter
      change (e.enforced _ source).level = _ ∨ (e.enforced _ source).level = _ ∧ _
      simp only [SourceTarget.id, hvalue, if_false] at hafter
      by_cases hs : source = (targetFromLease l).value
      · rw [if_pos hs] at hafter
        exact .inr ⟨hafter, l, hl, hs.symm, hheld⟩
      · rw [if_neg hs] at hafter
        have hlevel := h.level source
        unfold levelOn ReliableExecutor.enforcedOn at hlevel
        exact hafter ▸ hlevel
  · simp only [Broker.revert, perform_bind, exec, brokerHandle, StoreOp.handleWith, StoreOp.handle,
      BrokeredActionExecutor.sourceHandle, BrokeredSourcePEP.handle, hcur, ne_eq, not_false_eq_true, if_true]
    exact h.of_source rfl

theorem exec_revertAll_swept {w₀ : NodeWorld σ ρ} {due leases : List ActionLease} {at' : Time}
    (receipts : List EnforcementReceipt) (h : SweptFrom e w₀ due w) (hleases : leases ⊆ due) :
    SweptFrom e w₀ due
      (exec (brokerHandle (e.sourceHandle at') .none) (e.sourceBroker.revertAll receipts leases) w).2 := by
  induction leases generalizing w receipts with
  | nil => exact h
  | cons l rest ih =>
    have hreverted := exec_revert_swept at' h (hleases List.mem_cons_self)
    rw [Broker.revertAll, exec_bind]
    generalize exec (brokerHandle (e.sourceHandle at') .none) (e.sourceBroker.revert l) w = out at hreverted ⊢
    obtain ⟨⟨receipt, _ | err⟩, w'⟩ := out
    · exact ih _ hreverted fun x hx => hleases (List.mem_cons_of_mem l hx)
    · exact hreverted

/-- A sweep moves a source to observe, or leaves it at its level. -/
theorem revertExpired_levels (now : Time) (w : NodeWorld σ ρ) (source : String) :
    e.levelOn (e.revertExpired now w) source = e.levelOn w source ∨
      (e.levelOn (e.revertExpired now w) source = .observe ∧ ∃ l, RevertedFor now w source l) := by
  have hswept : SweptFrom e w (w.leases.listExpiredActionLeases now) (e.revertExpiredSources now w).2 :=
    exec_revertAll_swept [] ⟨fun _ => .inl rfl, fun _ => .inl rfl⟩ (List.Subset.refl _)
  have hsame : e.levelOn (e.revertExpired now w) = e.levelOn (e.revertExpiredSources now w).2 := by
    unfold BrokeredActionExecutor.revertExpired
    cases e.relationshipBroker with
    | none => rfl
    | some broker => exact exec_relationship_levels _ _ _
  rw [hsame]
  rcases hswept.level source with hkept | ⟨hobserve, l, hl, hvalue, hheld⟩
  · exact .inl hkept
  · exact .inr ⟨hobserve, l, hl, hvalue, hheld⟩

end Sweeps

end LevelledExecutor

end Kernloom
