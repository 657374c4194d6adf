import Kernloom.BrokeredExecutor
import Kernloom.BrokerRules
import Kernloom.LeaseCoherence

/-! Rules for the brokered source PEP over an adapter that never fails. -/

namespace Kernloom

open Effects Effects.Program

/-- An executor over a source PEP that never fails and enforces what its last transition said. -/
structure ReliableExecutor (σ ρ : Type) extends BrokeredActionExecutor σ ρ where
  enforced : σ → String → Enforcement
  transition_ok : ∀ target st level now params s,
    ∃ st', (sourcePEP.transitionSource target st level now params s).1 = .ok st'
  enforced_transition : ∀ target st level now params s id,
    enforced (sourcePEP.transitionSource target st level now params s).2 id =
      if id = target.id then enforcementOf level params else enforced s id

variable {σ ρ : Type} (e : ReliableExecutor σ ρ)

/-- The token in force on a target. -/
def tokenOn (w : NodeWorld σ ρ) (target : String) : String := w.pep.source.currentTokens.get target

def ReliableExecutor.enforcedOn (w : NodeWorld σ ρ) (source : String) : Enforcement :=
  e.enforced w.pep.source.adapter source

/-- The environment of the source broker when nothing fails. -/
abbrev ReliableExecutor.env (now : Time) : Environment BrokerOp BrokerOp.Answer (NodeWorld σ ρ) :=
  brokerStep faultless (answers (e.sourceHandle now))

variable {e} {now : Time} {α : Type} {post : α → NodeWorld σ ρ → Prop} {w : NodeWorld σ ρ}

section Exec

variable {π : Type} {handle : (op : PepOp) → π → op.Answer × π}

/-- What a program is known to establish when nothing fails holds after it is run. -/
theorem exec_post {p : BrokerProgram α} {crash : World π → Prop} {post : α → World π → Prop}
    {w : World π} (h : wp (brokerStep faultless (answers handle)) crash post p w) :
    post (exec (brokerHandle handle .none) p w).1 (exec (brokerHandle handle .none) p w).2 :=
  h.runs (runs_brokerHandle p w rfl)

theorem revertExpired_none_due {broker : Broker} {at' : Time} {w : World π}
    (h : w.leases.listExpiredActionLeases at' = []) :
    (exec (brokerHandle handle .none) (broker.revertExpired at') w).2 = w := by
  simp [Broker.revertExpired, exec, brokerHandle, StoreOp.handleWith, StoreOp.handle, h,
    Broker.revertAll]

end Exec

theorem leaseFencingKey_of_source {adapterID source : String} {l : ActionLease}
    (h : IsSourceLease adapterID l source) : leaseFencingKey l = l.target := by
  have hne : l.target ≠ "" := by
    rw [h.target]
    intro hh
    simpa using congrArg String.length hh
  rw [leaseFencingKey, if_pos hne]

theorem targetFromLease_of_source {adapterID source : String} {l : ActionLease}
    (h : IsSourceLease adapterID l source) : (targetFromLease l).value = source := by
  have hne : ¬ (l.metadata.get "target_granularity" = "" ∨ l.metadata.get "target_value" = "") := by
    rw [h.granularity, h.value]
    simp [h.nonempty]
  simp only [targetFromLease]
  rw [if_neg hne]
  exact h.value

section Calls

variable {adapterID source : String} {l : ActionLease}

theorem wp_store_ok {op : StoreOp} {next : op.Answer → BrokerProgram α} :
    wp (e.env now) (fun _ => True) post (call (BrokerOp.store op) next) w ↔
      wp (e.env now) (fun _ => True) post (next (op.handle w.leases).1)
        { w with leases := (op.handle w.leases).2 } := by
  rw [wp_store]
  exact ⟨fun h => (h .none rfl).2, by rintro h f rfl; exact ⟨trivial, h⟩⟩

theorem wp_currentFencingToken {next : Fallible String → BrokerProgram α} :
    wp (e.env now) (fun _ => True) post (call (BrokerOp.pep (.currentFencingToken l)) next) w ↔
      wp (e.env now) (fun _ => True) post (next (.ok (w.pep.source.currentTokens.current l))) w := by
  rw [wp_pep]
  constructor
  · intro h
    exact (h _ _ rfl).2
  · rintro h r pep hr
    obtain ⟨rfl, rfl⟩ := Prod.mk.inj hr
    exact ⟨trivial, h⟩

/-- An applied lease: its token is in force and its source enforces the transition it was made for. -/
theorem wp_pepApply {ctx : ApplyContext} {next : Fallible String → BrokerProgram α}
    (hactive : w.pep.source.active = some ctx) (hallowed : ctx.resolution.allowed)
    (hl : leaseFencingKey l = l.target)
    (h : ∀ w' : NodeWorld σ ρ, w'.leases = w.leases → w'.clock = w.clock →
      (∀ target, tokenOn w' target = if target = l.target then l.fencingToken else tokenOn w target) →
      (∀ s, e.enforcedOn w' s = if s = ctx.target.id then
        enforcementOf (parseFSMLevel ctx.resolution.executableLevel) ctx.params else e.enforcedOn w s) →
      wp (e.env now) (fun _ => True) post (next (.ok l.fencingToken)) w') :
    wp (e.env now) (fun _ => True) post (call (BrokerOp.pep (.apply l)) next) w := by
  rw [wp_pep]
  intro r pep hr
  refine ⟨trivial, ?_⟩
  obtain ⟨st', hst⟩ := e.transition_ok ctx.target ctx.state
    (parseFSMLevel ctx.resolution.executableLevel) ctx.now ctx.params w.pep.source.adapter
  have henf := e.enforced_transition ctx.target ctx.state
    (parseFSMLevel ctx.resolution.executableLevel) ctx.now ctx.params w.pep.source.adapter
  generalize htr : e.sourcePEP.transitionSource ctx.target ctx.state
    (parseFSMLevel ctx.resolution.executableLevel) ctx.now ctx.params w.pep.source.adapter = tr at hst henf
  obtain ⟨answer, adapter⟩ := tr
  simp only at hst henf
  subst hst
  have hstatus : (if ctx.resolution.denyReason ≠ "" then ActionStatus.downgraded else .applied) ≠
      .failed := by
    split_ifs <;> simp
  simp only [answers, BrokeredActionExecutor.sourceHandle, BrokeredSourcePEP.handle, hactive,
    SourceActionExecutor.applySource, hallowed, not_true, if_false, htr, hstatus] at hr
  obtain ⟨rfl, rfl⟩ := Prod.mk.inj hr
  refine h _ rfl rfl (fun target => ?_) henf
  rw [← hl]
  exact FencingTokens.get_setCurrent _ l target

/-- A reverted lease: its token is no longer in force and its source is observed. -/
theorem wp_pepRevert {next : Fallible Unit → BrokerProgram α} (hsource : IsSourceLease adapterID l source)
    (h : ∀ w' : NodeWorld σ ρ, w'.leases = w.leases → w'.clock = w.clock →
      (∀ target, tokenOn w' target =
        if target = l.target ∧ tokenOn w l.target = l.fencingToken then "" else tokenOn w target) →
      (∀ s, e.enforcedOn w' s = if s = source then {} else e.enforcedOn w s) →
      wp (e.env now) (fun _ => True) post (next (.ok ())) w') :
    wp (e.env now) (fun _ => True) post (call (BrokerOp.pep (.revert l)) next) w := by
  rw [wp_pep]
  intro r pep hr
  refine ⟨trivial, ?_⟩
  have hvalue := targetFromLease_of_source hsource
  have hkey := leaseFencingKey_of_source hsource
  simp only [answers, BrokeredActionExecutor.sourceHandle, BrokeredSourcePEP.handle, hvalue,
    hsource.nonempty, if_false] at hr
  obtain ⟨rfl, rfl⟩ := Prod.mk.inj hr
  refine h _ rfl rfl (fun target => ?_) fun s => ?_
  · have hh := FencingTokens.get_clearCurrent w.pep.source.currentTokens l target
    rwa [hkey] at hh
  · have hh := e.enforced_transition ⟨source, source, (targetFromLease l).attributes⟩
      { level := parseFSMLevel l.level } .observe now e.params w.pep.source.adapter s
    rw [← SourceActionExecutor.applyDeEnforceSource_snd] at hh
    simp only [SourceTarget.id, hsource.nonempty, if_false, enforcementOf] at hh
    exact hh

end Calls

end Kernloom
