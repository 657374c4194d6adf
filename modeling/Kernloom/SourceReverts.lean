import Kernloom.BrokeredPEP
import Kernloom.BrokerWorld
import Kernloom.SourceMaps
import Kernloom.SourceRules

/-! Reverts of source leases on the maps of the shield: when a revert that the broker reports has
removed the entries of the source. -/

namespace Kernloom

open Effects Effects.Program Keyed

/-- The source a lease is reverted on. -/
def revertTarget (lease : ActionLease) : SourceTarget :=
  { sourceID := (targetFromLease lease).value
    subjectID := (targetFromLease lease).value
    attributes := (targetFromLease lease).attributes }

namespace ShieldPEP

/-- A source's transition to observe. -/
def observe (a : ShieldPEP) (kernel : KernelAnswers) (target : SourceTarget) (st : FsmState) (now : Time)
    (p : EnforcementParams) : Fallible FsmState × ShieldPEP :=
  a.transitionSource kernel target st .observe now p

/-- The deletions in the maps of one family go through; in a dry run, there is nothing to delete. -/
def FamilyRemoves {A : Type} (a : ShieldPEP) (kernel : KernelAnswers) (family : ShieldMaps → SourceMaps A)
    (key : A) : Prop :=
  if a.dryRun then a.familyEntries family key = (none, none)
  else ∃ maps ∈ a.maps, ¬ SourceMaps.Fails kernel (family maps) .deleteRL ∧
    ¬ SourceMaps.Fails kernel (family maps) .deleteDeny

/-- A transition of the source to observe will leave it without entries. -/
def Removes (a : ShieldPEP) (kernel : KernelAnswers) (target : SourceTarget) : Prop :=
  match parseIP target.id with
  | none => False
  | some ip =>
    match to4 ip with
    | some v4 => a.FamilyRemoves kernel (·.v4) v4
    | none => a.FamilyRemoves kernel (·.v6) ip

theorem transition_removes_iff {A : Type} [DecidableEq A] (a : ShieldPEP) (kernel : KernelAnswers)
    (get : ShieldMaps → SourceMaps A) (set : ShieldMaps → SourceMaps A → ShieldMaps)
    (hget : ∀ maps m, get (set maps m) = m) (family ip : String) (key : A) (st : FsmState) (now : Time)
    (p : EnforcementParams) :
    (match a.transition (fun maps =>
          let (r, m) := SourceMaps.applyLevel family ip kernel key p .observe (get maps)
          (r, set maps m)) st .observe now p with
      | (.ok _, a') => a'.familyEntries get key = (none, none)
      | (.error _, _) => False) ↔ a.FamilyRemoves kernel get key := by
  obtain ⟨maps, dryRun⟩ := a
  unfold transition FamilyRemoves
  cases dryRun with
  | true => exact Iff.rfl
  | false =>
    cases maps with
    | none => simp
    | some maps =>
      obtain ⟨r, m, heq, -, hcases⟩ := SourceMaps.applyLevel_cases family ip kernel key p .observe (get maps)
      simp only [heq, familyEntries, Bool.false_eq_true, if_false, Option.mem_some_iff, exists_eq_left']
      rcases hcases with ⟨hf, ⟨err, rfl⟩, -⟩ | ⟨hf, hs, ⟨err, rfl⟩, -⟩ | ⟨hf, hs, rfl, hentries⟩
      · exact ⟨False.elim, fun h => h.1 hf⟩
      · exact ⟨False.elim, fun h => h.2 hs⟩
      · exact ⟨fun _ => ⟨hf, hs⟩, fun _ => by
          dsimp only [Option.elim_some]
          rw [hget, hentries]
          rfl⟩

theorem observe_removes_iff (a : ShieldPEP) (kernel : KernelAnswers) (target : SourceTarget) (st : FsmState)
    (now : Time) (p : EnforcementParams) :
    (∃ st' a', a.observe kernel target st now p = (.ok st', a') ∧ a'.entries target = (none, none)) ↔
      a.Removes kernel target := by
  unfold observe transitionSource Removes entries
  cases parseIP target.id with
  | none => simp
  | some ip =>
    dsimp only
    cases to4 ip with
    | some v4 =>
      refine Iff.trans ?_ (transition_removes_iff a kernel (·.v4) (fun maps v4 => { maps with v4 })
        (fun _ _ => rfl) "v4" (ipString4 v4) v4 st now p)
      dsimp only [transitionV4]
      generalize a.transition _ st .observe now p = out
      obtain ⟨r, a'⟩ := out
      cases r <;> simp
    | none =>
      refine Iff.trans ?_ (transition_removes_iff a kernel (·.v6) (fun maps v6 => { maps with v6 })
        (fun _ _ => rfl) "v6" (ipString ip) ip st now p)
      dsimp only [transitionV6]
      generalize a.transition _ st .observe now p = out
      obtain ⟨r, a'⟩ := out
      cases r <;> simp

end ShieldPEP

section Answers

variable {α π : Type} {faulty : Fault → Prop} {handle : (op : PepOp) → π → op.Answer × π} {w : World π}

/-- A call of the adapter, when its answer is a function of its state. -/
theorem wp_pep_answers {crash : World π → Prop} {post : α → World π → Prop} {op : PepOp}
    {next : op.Answer → BrokerProgram α} {r : op.Answer} {pep : π} (h : handle op w.pep = (r, pep)) :
    wp (brokerStep faulty (answers handle)) crash post (call (BrokerOp.pep op) next) w ↔
      crash { w with pep } ∧ wp (brokerStep faulty (answers handle)) crash post (next r) { w with pep } := by
  rw [wp_pep]
  unfold answers
  rw [h]
  exact ⟨fun hall => hall r pep rfl, fun hone r' pep' heq => by
    obtain ⟨rfl, rfl⟩ := Prod.mk.inj heq
    exact hone⟩

end Answers

section Revert

/-- The environment of a revert: the kernel answers `kernel`, and the store may fail. -/
abbrev shieldEnv (kernel : KernelAnswers) (params : EnforcementParams) (now : Time) :
    Environment BrokerOp BrokerOp.Answer (World (BrokeredSourcePEP ShieldPEP)) :=
  brokerStep anyFault (answers (BrokeredSourcePEP.handle (ShieldPEP.sourcePEP kernel) params now))

variable (kernel : KernelAnswers) (params : EnforcementParams) (now : Time) (lease : ActionLease)
  (w : World (BrokeredSourcePEP ShieldPEP))

/-- The broker records the lease as reverted and says so. -/
def ReportsRevert (ret : Broker.RevertReturn) (w' : World (BrokeredSourcePEP ShieldPEP)) : Prop :=
  ret.receipt.status = .reverted ∧
    (ret.err = none ∨ ∃ row ∈ w'.leases, row.leaseID = lease.leaseID ∧ row.status = .reverted)

/-- The transition that a revert of the lease asks for. -/
def revertTransition : Fallible FsmState × ShieldPEP :=
  w.pep.adapter.observe kernel (revertTarget lease) { level := parseFSMLevel lease.level } now params

/-- The revert gets as far as the adapter. -/
def ReachesAdapter : Prop :=
  w.pep.currentTokens.current lease = lease.fencingToken ∧ (targetFromLease lease).value ≠ ""

instance : Decidable (ReachesAdapter lease w) := inferInstanceAs (Decidable (_ ∧ _))

/-- A reported revert has removed the enforcement; a failed transition is not reported as one. -/
structure RevertHonest (ret : Broker.RevertReturn) (w' : World (BrokeredSourcePEP ShieldPEP)) : Prop where
  removed : ReportsRevert lease ret w' → (∃ st, (revertTransition kernel params now lease w).1 = .ok st) ∧
    w'.pep.adapter.entries (revertTarget lease) = (none, none)
  failed : ReachesAdapter lease w → ∀ err, (revertTransition kernel params now lease w).1 = .error err →
    ret.receipt.status = .failed ∨ ∃ row ∈ w'.leases, row.leaseID = lease.leaseID ∧ row.status = .active

variable {kernel params now lease w}

theorem shield_revert (h : (targetFromLease lease).value ≠ "") :
    BrokeredSourcePEP.handle (ShieldPEP.sourcePEP kernel) params now (.revert lease) w.pep =
      (.ok (), { w.pep with
        adapter := (revertTransition kernel params now lease w).2
        currentTokens := w.pep.currentTokens.clearCurrent lease }) := by
  simp only [BrokeredSourcePEP.handle, h, if_false, SourceActionExecutor.applyDeEnforceSource_snd]
  rfl

theorem shield_currentToken :
    BrokeredSourcePEP.handle (ShieldPEP.sourcePEP kernel) params now (.currentFencingToken lease) w.pep =
      (.ok (w.pep.currentTokens.current lease), w.pep) := rfl

/-- A revert that reaches the adapter is reported, whatever the transition answers. -/
theorem revert_reported (faulty : Fault → Prop) (kernel : KernelAnswers) (params : EnforcementParams) (now : Time)
    (h : ReachesAdapter lease w) (b : Broker) :
    wp (brokerStep faulty (answers (BrokeredSourcePEP.handle (ShieldPEP.sourcePEP kernel) params now)))
      (fun _ => True)
      (fun ret w' => ret.receipt.status = .reverted ∧
        w'.pep.adapter = (revertTransition kernel params now lease w).2 ∧
        ((∀ f, faulty f → f = .none) → ret.err = none)) (b.revert lease) w := by
  obtain ⟨htoken, hvalue⟩ := h
  unfold Broker.revert
  simp only [perform_bind, wp_now]
  refine ⟨trivial, (wp_pep_answers (shield_currentToken (w := w))).mpr ⟨trivial, ?_⟩⟩
  simp only [htoken, ne_eq, not_true_eq_false, if_false]
  refine (wp_pep_answers (shield_revert (w := w) hvalue)).mpr ⟨trivial, ?_⟩
  simp only [wp_store]
  refine fun f hf => ⟨trivial, ?_⟩
  cases f with
  | none => exact ⟨rfl, rfl, fun _ => rfl⟩
  | before err | after err => exact ⟨rfl, rfl, fun hnone => absurd (hnone _ hf) (by simp)⟩

theorem revert_unreached (h : ¬ ReachesAdapter lease w) (b : Broker) :
    wp (shieldEnv kernel params now) (fun _ => True)
      (fun ret _ => ret.receipt.status ≠ .reverted) (b.revert lease) w := by
  unfold Broker.revert
  simp only [perform_bind, wp_now]
  refine ⟨trivial, (wp_pep_answers (shield_currentToken (w := w))).mpr ⟨trivial, ?_⟩⟩
  by_cases htoken : w.pep.currentTokens.current lease = lease.fencingToken
  · have hvalue : (targetFromLease lease).value = "" := by
      by_contra hvalue
      exact h ⟨htoken, hvalue⟩
    have hrefused : BrokeredSourcePEP.handle (ShieldPEP.sourcePEP kernel) params now (.revert lease) w.pep =
        (.error ("source revert target missing for lease " ++ lease.leaseID), w.pep) := by
      simp only [BrokeredSourcePEP.handle, hvalue, if_true]
    simp only [htoken, ne_eq, not_true_eq_false, if_false]
    refine (wp_pep_answers (w := w) hrefused).mpr ⟨trivial, ?_⟩
    simp only [wp_store]
    exact fun f _ => ⟨trivial, by simp⟩
  · simp only [ne_eq, htoken, not_false_eq_true, if_true, wp_store]
    refine fun f _ => ⟨trivial, ?_⟩
    cases f <;> simp [StoreOp.handleWith, StoreOp.handle, StoreOp.fail]

/-- Every reported revert has removed the enforcement exactly when a revert that gets as far as the
adapter has its entries deleted there. -/
theorem reported_revert_iff (b : Broker) :
    (∀ ret w', Runs (shieldEnv kernel params now) (b.revert lease) w ret w' →
      RevertHonest kernel params now lease w ret w') ↔
    (ReachesAdapter lease w → w.pep.adapter.Removes kernel (revertTarget lease)) := by
  constructor
  · intro h hreaches
    have hrun := @runs_brokerHandle _ _ anyFault
      (BrokeredSourcePEP.handle (ShieldPEP.sourcePEP kernel) params now) (b.revert lease) w trivial
    obtain ⟨hstatus, hadapter, herr⟩ := exec_post (revert_reported faultless kernel params now hreaches b)
    obtain ⟨⟨st, hok⟩, hgone⟩ := (h _ _ hrun).removed ⟨hstatus, .inl (herr fun _ hf => hf)⟩
    rw [hadapter] at hgone
    exact (ShieldPEP.observe_removes_iff ..).mp ⟨st, _, Prod.ext hok rfl, hgone⟩
  · intro h ret w' hrun
    by_cases hreaches : ReachesAdapter lease w
    · obtain ⟨-, hadapter, -⟩ := (revert_reported anyFault kernel params now hreaches b).runs hrun
      obtain ⟨st, a', hok, hgone⟩ := (ShieldPEP.observe_removes_iff w.pep.adapter kernel (revertTarget lease)
        { level := parseFSMLevel lease.level } now params).mpr (h hreaches)
      have hok : revertTransition kernel params now lease w = (.ok st, a') := hok
      refine ⟨fun _ => ⟨⟨st, by rw [hok]⟩, ?_⟩, fun _ err herr => ?_⟩
      · rw [hadapter, hok]
        exact hgone
      · rw [hok] at herr
        cases herr
    · have hstatus := (revert_unreached hreaches b).runs hrun
      exact ⟨fun hreport => absurd hreport.1 hstatus, fun hr => absurd hr hreaches⟩

/-- A blocked source, whose denial the kernel does not delete. -/
def blockedLease : ActionLease where
  leaseID := "lease-1"
  adapterID := "kliq-source-pep"
  target := "source:10.0.0.1"
  action := "network.block_source"
  level := "block"
  status := .active
  fencingToken := "token"
  appliedAt := 0
  expiresAt := 10

def blockedWorld : World (BrokeredSourcePEP ShieldPEP) where
  leases := LeaseTable.upsertActionLease Table.empty blockedLease
  clock := 0
  pep := { adapter := ShieldPEP.denied }

def deletionRefused : KernelAnswers
  | .deleteDeny => some "operation not permitted"
  | _ => none

theorem blockedWorld_stays : ReachesAdapter blockedLease blockedWorld ∧
    (revertTransition deletionRefused {} 0 blockedLease blockedWorld).2.entries (revertTarget blockedLease) =
      (none, some 1) := by
  decide +kernel

/-- The revert is recorded and reported, and the source is still denied. -/
theorem reported_revert_still_denied : ¬ ∀ (kernel : KernelAnswers) (params : EnforcementParams) (now : Time)
    (lease : ActionLease) (w : World (BrokeredSourcePEP ShieldPEP)) (b : Broker) (ret : Broker.RevertReturn)
    (w' : World (BrokeredSourcePEP ShieldPEP)), Runs (shieldEnv kernel params now) (b.revert lease) w ret w' →
      RevertHonest kernel params now lease w ret w' := by
  intro h
  obtain ⟨hreaches, hentries⟩ := blockedWorld_stays
  let b : Broker := { nodeID := "node", adapterID := "kliq-source-pep", sha256 := fun _ => "" }
  have hrun := @runs_brokerHandle _ _ anyFault
    (BrokeredSourcePEP.handle (ShieldPEP.sourcePEP deletionRefused) {} 0) (b.revert blockedLease) blockedWorld
    trivial
  obtain ⟨hstatus, hadapter, herr⟩ := exec_post (revert_reported faultless deletionRefused {} 0 hreaches b)
  obtain ⟨-, hgone⟩ := (h _ _ _ _ _ _ _ _ hrun).removed ⟨hstatus, .inl (herr fun _ hf => hf)⟩
  rw [hadapter, hentries] at hgone
  exact absurd hgone (by decide)

end Revert

end Kernloom
