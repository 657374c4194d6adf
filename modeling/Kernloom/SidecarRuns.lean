import Kernloom.Sidecar
import Kernloom.SourceRuns

/-! Runs of the executor with the sidecar: applications under a lease, sweeps, and collections of
expired rules. -/

namespace Kernloom

open Effects Effects.Program LeaseTable Transition
open Netfilter (RuleTable)

/-- An executor over a source PEP that never fails. -/
structure SidecarExecutor (σ ρ : Type) extends BrokeredActionExecutor σ ρ where
  transition_ok : ∀ target st level now params s,
    ∃ st', (sourcePEP.transitionSource target st level now params s).1 = .ok st'

variable {σ ρ : Type}

/-- The rules that the sidecar keeps. -/
def sidecarRules (w : NodeWorld (σ × RuleTable) ρ) : RuleTable := w.pep.source.adapter.2

namespace SidecarExecutor

variable (e : SidecarExecutor σ ρ)

/-- The executor with the sidecar, at a time of its clock. -/
def notifying (clock : Time) : BrokeredActionExecutor (σ × RuleTable) ρ where
  sourcePEP := withSidecar e.sourcePEP clock
  params := e.params
  sourceBroker := e.sourceBroker
  relationshipPEP := e.relationshipPEP
  relationshipBroker := e.relationshipBroker

/-- The environment of the source broker when nothing fails. -/
abbrev env (now : Time) : Environment BrokerOp BrokerOp.Answer (NodeWorld (σ × RuleTable) ρ) :=
  brokerStep faultless (answers ((e.notifying now).sourceHandle now))

abbrev MirroredAt (between : String → Prop) (w : NodeWorld (σ × RuleTable) ρ) : Prop :=
  Mirrored e.sourceBroker.adapterID between w.clock w.leases (tokenOn w) (sidecarRules w)

variable {e} {w : NodeWorld (σ × RuleTable) ρ} {now : Time} {α : Type}
  {post : α → NodeWorld (σ × RuleTable) ρ → Prop}

section Calls

variable {adapterID source : String} {l : ActionLease}

theorem wp_token {next : Fallible String → BrokerProgram α}
    (h : wp (e.env now) (fun _ => True) post (next (.ok (w.pep.source.currentTokens.current l))) w) :
    wp (e.env now) (fun _ => True) post (call (BrokerOp.pep (.currentFencingToken l)) next) w := by
  refine wp_pep.mpr fun r pep hr => ⟨trivial, ?_⟩
  obtain ⟨rfl, rfl⟩ := Prod.mk.inj hr
  exact h

/-- An applied lease: its token is in force, and the sidecar is notified. -/
theorem wp_notifyApply {ctx : ApplyContext} {next : Fallible String → BrokerProgram α}
    (hactive : w.pep.source.active = some ctx) (hallowed : ctx.resolution.allowed)
    (hl : leaseFencingKey l = l.target)
    (h : ∀ w' : NodeWorld (σ × RuleTable) ρ, w'.leases = w.leases → w'.clock = w.clock →
      (∀ target, tokenOn w' target = if target = l.target then l.fencingToken else tokenOn w target) →
      sidecarRules w' = notifySourceTransition (sidecarRules w) ctx.target
        (parseFSMLevel ctx.resolution.executableLevel)
        (ctx.params.ttl (parseFSMLevel ctx.resolution.executableLevel)) now →
      wp (e.env now) (fun _ => True) post (next (.ok l.fencingToken)) w') :
    wp (e.env now) (fun _ => True) post (call (BrokerOp.pep (.apply l)) next) w := by
  refine wp_pep.mpr fun r pep hr => ⟨trivial, ?_⟩
  obtain ⟨st', hst⟩ := e.transition_ok ctx.target ctx.state (parseFSMLevel ctx.resolution.executableLevel)
    ctx.now ctx.params w.pep.source.adapter.1
  rcases htr : e.sourcePEP.transitionSource ctx.target ctx.state (parseFSMLevel ctx.resolution.executableLevel)
    ctx.now ctx.params w.pep.source.adapter.1 with ⟨answer, adapter⟩
  rw [htr] at hst
  obtain rfl : answer = .ok st' := hst
  have hnotify : (withSidecar e.sourcePEP now).transitionSource ctx.target ctx.state
      (parseFSMLevel ctx.resolution.executableLevel) ctx.now ctx.params w.pep.source.adapter =
      (.ok st', adapter, notifySourceTransition w.pep.source.adapter.2 ctx.target
        (parseFSMLevel ctx.resolution.executableLevel)
        (ctx.params.ttl (parseFSMLevel ctx.resolution.executableLevel)) now) := by
    simp only [withSidecar, htr]
  have hstatus : (if ctx.resolution.denyReason ≠ "" then ActionStatus.downgraded else .applied) ≠ .failed := by
    split_ifs <;> simp
  simp only [answers, BrokeredActionExecutor.sourceHandle, SidecarExecutor.notifying, BrokeredSourcePEP.handle,
    hactive, SourceActionExecutor.applySource, hallowed, not_true, if_false, hnotify, hstatus] at hr
  obtain ⟨rfl, rfl⟩ := Prod.mk.inj hr
  refine h _ rfl rfl (fun target => ?_) rfl
  rw [← hl]
  exact FencingTokens.get_setCurrent _ l target

/-- A reverted lease: its token is no longer in force, and the source has no rule. -/
theorem wp_notifyRevert {next : Fallible Unit → BrokerProgram α} (hsource : IsSourceLease adapterID l source)
    (hip : IsIPName source)
    (h : ∀ w' : NodeWorld (σ × RuleTable) ρ, w'.leases = w.leases → w'.clock = w.clock →
      (∀ target, tokenOn w' target =
        if target = l.target ∧ tokenOn w l.target = l.fencingToken then "" else tokenOn w target) →
      sidecarRules w' = (sidecarRules w).erase source →
      wp (e.env now) (fun _ => True) post (next (.ok ())) w') :
    wp (e.env now) (fun _ => True) post (call (BrokerOp.pep (.revert l)) next) w := by
  refine wp_pep.mpr fun r pep hr => ⟨trivial, ?_⟩
  have hvalue := targetFromLease_of_source hsource
  have hkey := leaseFencingKey_of_source hsource
  obtain ⟨st', hst⟩ := e.transition_ok ⟨source, source, (targetFromLease l).attributes⟩
    { level := parseFSMLevel l.level } .observe now e.params w.pep.source.adapter.1
  rcases htr : e.sourcePEP.transitionSource ⟨source, source, (targetFromLease l).attributes⟩
    { level := parseFSMLevel l.level } .observe now e.params w.pep.source.adapter.1 with ⟨answer, adapter⟩
  rw [htr] at hst
  obtain rfl : answer = .ok st' := hst
  have hid : SourceTarget.id ⟨source, source, (targetFromLease l).attributes⟩ = source := by
    simp [SourceTarget.id, hsource.nonempty]
  have hnotify : (withSidecar e.sourcePEP now).transitionSource ⟨source, source, (targetFromLease l).attributes⟩
      { level := parseFSMLevel l.level } .observe now e.params w.pep.source.adapter =
      (.ok st', adapter, w.pep.source.adapter.2.erase source) := by
    simp only [withSidecar, htr]
    rw [notifySourceTransition_eq (hid.symm ▸ hip), hid]
    rfl
  simp only [answers, BrokeredActionExecutor.sourceHandle, SidecarExecutor.notifying, BrokeredSourcePEP.handle,
    hvalue, hsource.nonempty, if_false, SourceActionExecutor.applyDeEnforceSource, hnotify] at hr
  obtain ⟨rfl, rfl⟩ := Prod.mk.inj hr
  refine h _ rfl rfl (fun target => ?_) rfl
  have hh := FencingTokens.get_clearCurrent w.pep.source.currentTokens l target
  rwa [hkey] at hh

end Calls

section Revert

variable {l : ActionLease}

/-- A lease that is reverted takes the rule of its source with it. -/
theorem wp_revert_mirrored (h : e.MirroredAt settled w) (hl : l ∈ w.leases) (hs : l.status = .active) :
    wp (e.env now) (fun _ => True)
      (fun ret w' => ret.err = none ∧ e.MirroredAt settled w' ∧ w'.clock = w.clock ∧
        ∃ new, Writes w.leases new w'.leases ∧ new.leaseID = l.leaseID ∧ new.status ≠ .active)
      (e.sourceBroker.revert l) w := by
  obtain ⟨source, hsource, hip⟩ := h.row l hl
  have hk := h.held l hl hs id
  have hcur : w.pep.source.currentTokens.current l = l.fencingToken := (current_eq_iff hsource).mpr (.inr hk)
  simp only [Broker.revert, perform_bind, wp_now]
  refine ⟨trivial, wp_token ?_⟩
  rw [hcur]
  dsimp only
  rw [if_neg (not_not.mpr rfl)]
  refine wp_notifyRevert hsource hip fun w' hleases hclock htoken hrules => wp_faultless_store trivial ?_
  obtain ⟨leases, clock, pep⟩ := w'
  obtain rfl : leases = w.leases := hleases
  obtain rfl : clock = w.clock := hclock
  have hw := writes_update hl (show l.leaseID =
    ({ l with status := .reverted, revertedAt := some w.clock } : ActionLease).leaseID from rfl)
  have hnot : (setStatus { l with status := .reverted, revertedAt := some w.clock } l).status ≠ .active := by
    simp [LeaseTable.setStatus]
  have hmoved : Mirrored e.sourceBroker.adapterID (· = "source:" ++ source) w.clock w.leases
      (tokenOn ⟨w.leases, w.clock, pep⟩) (sidecarRules ⟨w.leases, w.clock, pep⟩) := by
    refine (h.weaken fun _ hh => hh.elim).move (fun target hn => ?_) fun s hn => ?_
    · rw [htoken, if_neg fun hh => hn (hh.1.trans hsource.target)]
    · rw [hrules, AList.lookup_erase_ne fun heq => hn (congrArg ("source:" ++ ·) heq)]
  have hended := hmoved.write hw ⟨source, IsSourceLease.setStatus hsource, hip⟩ hsource.target
    (fun x hx hxk => by rw [h.token_inj x hx l hl hxk]; rfl)
    fun x hx hxid => by rw [Keyed.Table.eq_of_key_eq hx hl hxid]; rfl
  refine ⟨rfl, hended.settle (fun x hx hxs hxt => ?_) (fun rule hrule => ?_), rfl, _, hw, rfl, hnot⟩
  · rcases (hw x).mp hx with rfl | ⟨hx, hne⟩
    · exact absurd hxs hnot
    · obtain rfl := h.eq_of_target hx hl hxs hs (hxt.trans hsource.target.symm) id
      exact absurd rfl hne
  · change (sidecarRules ⟨w.leases, w.clock, pep⟩).lookup source = some rule at hrule
    rw [hrules, AList.lookup_erase] at hrule
    cases hrule

theorem wp_revertAll_mirrored {due : List ActionLease} (receipts : List EnforcementReceipt)
    (h : e.MirroredAt settled w) (hmem : ∀ l ∈ due, l ∈ w.leases ∧ l.status = .active)
    (hnodup : (due.map ActionLease.leaseID).Nodup) :
    wp (e.env now) (fun _ => True)
      (fun _ w' => e.MirroredAt settled w' ∧ ∀ x ∈ w'.leases, x.status = .active → x ∈ w.leases ∧ x ∉ due)
      (e.sourceBroker.revertAll receipts due) w := by
  induction due generalizing w receipts with
  | nil => exact ⟨h, fun x hx _ => ⟨hx, List.not_mem_nil⟩⟩
  | cons l rest ih =>
    obtain ⟨hnot, hnodup⟩ := List.nodup_cons.mp hnodup
    have hl := hmem l List.mem_cons_self
    have hne : ∀ x ∈ rest, x.leaseID ≠ l.leaseID := fun x hx hid => hnot (hid ▸ List.mem_map_of_mem hx)
    simp only [Broker.revertAll, wp_bind]
    refine wp_mono (wp_revert_mirrored h hl.1 hl.2) ?_
    rintro ⟨receipt, err⟩ w' ⟨rfl, hmirrored, -, new, hw, hid, hstatus⟩
    refine wp_mono (ih (receipts ++ [receipt]) hmirrored (fun x hx => ?_) hnodup) ?_
    · obtain ⟨hx', hxs⟩ := hmem x (List.mem_cons_of_mem _ hx)
      exact ⟨(hw x).mpr (.inr ⟨hx', hid ▸ hne x hx⟩), hxs⟩
    · rintro _ w'' ⟨hmirrored', hlast⟩
      refine ⟨hmirrored', fun x hx hxs => ?_⟩
      obtain ⟨hx', hnotin⟩ := hlast x hx hxs
      rcases (hw x).mp hx' with rfl | ⟨hx, hxid⟩
      · exact absurd hxs hstatus
      · refine ⟨hx, fun hxin => ?_⟩
        rcases List.mem_cons.mp hxin with rfl | hxin
        · exact hxid hid.symm
        · exact hnotin hxin

theorem wp_revertExpired_mirrored {at' : Time} (h : e.MirroredAt settled w) :
    wp (e.env now) (fun _ => True)
      (fun _ w' => e.MirroredAt settled w' ∧ w'.leases.listExpiredActionLeases at' = [])
      (e.sourceBroker.revertExpired at') w := by
  simp only [Broker.revertExpired, perform_bind]
  refine wp_faultless_store trivial ?_
  simp only [StoreOp.handle]
  refine wp_mono (wp_revertAll_mirrored [] h (fun l hl => ?_) (nodup_listExpiredActionLeases _ _)) ?_
  · obtain ⟨hl, hs, _⟩ := mem_listExpiredActionLeases.mp hl
    exact ⟨hl, hs⟩
  · rintro _ w' ⟨hmirrored, hlast⟩
    refine ⟨hmirrored, List.eq_nil_iff_forall_not_mem.mpr fun x hx => ?_⟩
    obtain ⟨hx, hs, hexp⟩ := mem_listExpiredActionLeases.mp hx
    obtain ⟨hx', hnotin⟩ := hlast x hx hs
    exact hnotin (mem_listExpiredActionLeases.mpr ⟨hx', hs, hexp⟩)

end Revert

section Apply

variable {r : ActionResolution} {decisionID source : String} {at' : Time}

/-- A renewal does not outlast the rule of the source. -/
def RenewalCovered (e : SidecarExecutor σ ρ) (w : NodeWorld (σ × RuleTable) ρ) (r : ActionResolution) : Prop :=
  ∀ l ∈ w.leases.findActiveActionLease e.sourceBroker.adapterID (targetString r.target) r.executableAction
      r.executableLevel,
    executionMetadataChanged l.metadata (e.sourceBroker.leaseMetadata r) = none →
    ¬ (0 < e.sourceBroker.maxRenewals ∧ e.sourceBroker.maxRenewals ≤ leaseRenewalCount l.metadata) →
    ∃ rule ∈ (sidecarRules w).lookup r.target.value, rule.expires = 0 ∨ w.clock + r.ttl ≤ rule.expires

/-- The other active leases of the target are stronger or weaker than the resolution, and the broker looks
for them. -/
def Comparable (w : NodeWorld (σ × RuleTable) ρ) (r : ActionResolution) : Prop :=
  ∀ l ∈ w.leases, l.status = .active → l.target = targetString r.target →
    (l.action = r.executableAction ∧ l.level = r.executableLevel) ∨
    ((l.action, l.level) ∈ probes r.executableAction ["soft", "hard", "block"] ∧
      l.strength ≠ actionLeaseStrength r.executableAction r.executableLevel)

/-- Nothing was renewed, and the target is between two leases. -/
structure Ended (e : SidecarExecutor σ ρ) (r : ActionResolution) (source : String) (fresh : ActionLease)
    (w₀ : NodeWorld (σ × RuleTable) ρ) (ren : Broker.Renewal) (w : NodeWorld (σ × RuleTable) ρ) : Prop where
  renewed : ren.renewed = false
  skip : ren.skipReason = ""
  mirrored : e.MirroredAt (· = "source:" ++ source) w
  fresh : Fresh w.leases fresh
  left : ∀ l ∈ w.leases, l.status = .active → l.target = "source:" ++ source →
    l ∈ w₀.leases ∧ ¬ (l.action = r.executableAction ∧ l.level = r.executableLevel)

theorem Ended.of_write {existing new fresh : ActionLease} {t' : LeaseTable} (h : e.MirroredAt settled w)
    (hmem : existing ∈ w.leases) (hs : existing.status = .active)
    (hsource : IsSourceLease e.sourceBroker.adapterID existing source) (hip : IsIPName source)
    (hfresh : Fresh w.leases fresh) (hw : Writes w.leases (setStatus new existing) t') (hnot : new.status ≠ .active) :
    Ended e r source fresh w {} { w with leases := t' } := by
  have hmirrored : e.MirroredAt (· = "source:" ++ source) { w with leases := t' } :=
    (h.weaken fun _ hh => hh.elim).write hw ⟨source, IsSourceLease.setStatus hsource, hip⟩ hsource.target
      (fun x hx hxk => by rw [h.token_inj x hx existing hmem hxk]; rfl)
      fun x hx hxid => by rw [Keyed.Table.eq_of_key_eq hx hmem hxid]; rfl
  refine ⟨rfl, rfl, hmirrored, hfresh.writes hmem hw rfl rfl, fun l hl hls htarget => ?_⟩
  rcases (hw l).mp hl with rfl | ⟨hl, hne⟩
  · exact absurd hls hnot
  · obtain rfl := h.eq_of_target hl hmem hls hs (htarget.trans hsource.target.symm) id
    exact absurd rfl hne

theorem wp_renew_mirrored {fresh : ActionLease} (h : e.MirroredAt settled w) (hfresh : Fresh w.leases fresh)
    (htarget : targetString r.target = "source:" ++ source) (hvalue : r.target.value = source)
    (hgran : (e.sourceBroker.leaseMetadata r).get "target_granularity" = "source")
    (hval : (e.sourceBroker.leaseMetadata r).get "target_value" = source) (hcovered : e.RenewalCovered w r) :
    wp (e.env now) (fun _ => True)
      (fun ren w' => ren.err = none ∧ w'.pep = w.pep ∧ w'.clock = w.clock ∧
        ((ren.renewed = true ∧ e.MirroredAt settled w') ∨ Ended e r source fresh w ren w'))
      (e.sourceBroker.renewActiveLease r decisionID (targetString r.target) (e.sourceBroker.leaseMetadata r)
        w.clock) w := by
  refine wp_renewActiveLease trivial (fun _ _ _ _ => trivial) fun renewal w' hstep => ⟨trivial, ?_⟩
  cases hstep with
  | unread hf herr =>
    obtain rfl := hf
    cases herr
  | absent hfind =>
    refine ⟨rfl, rfl, rfl, .inr ⟨rfl, rfl, h.weaken fun _ hh => hh.elim, hfresh, fun l hl hs ht => ⟨hl, ?_⟩⟩⟩
    rintro ⟨haction, hlevel⟩
    obtain ⟨s, hsource, -⟩ := h.row l hl
    rw [htarget, ← ht, ← hsource.adapter, ← haction, ← hlevel] at hfind
    exact findActiveActionLease_none hfind hl hs
  | @ended existing ended pep f hfind hends hid hf =>
    obtain rfl : f = .none := hf
    obtain rfl : pep = w.pep := hends.pep_eq fun _ _ hpep => (Prod.mk.inj hpep).2.symm
    obtain ⟨hmem, -, ht, -, -, hs⟩ := findActiveActionLease_spec hfind
    obtain ⟨s, hsource, hip⟩ := h.row existing hmem
    obtain rfl := Coherent.source_eq hsource (ht.trans htarget)
    refine ⟨rfl, rfl, rfl, .inr ?_⟩
    exact .of_write h hmem hs hsource hip hfresh (writes_update hmem hid.symm) hends.not_active
  | unasked hfind hpep => cases (Prod.mk.inj hpep).1
  | spent hfind hstays =>
    obtain ⟨-, rfl⟩ := Prod.mk.inj hstays.token
    exact ⟨rfl, rfl, rfl, .inl ⟨rfl, h⟩⟩
  | @renewed existing pep f hfind hstays hspent hf =>
    obtain rfl : f = .none := hf
    obtain ⟨-, rfl⟩ := Prod.mk.inj hstays.token
    obtain ⟨hmem, -, ht, -, -, hs⟩ := findActiveActionLease_spec hfind
    obtain ⟨s, hsource, hip⟩ := h.row existing hmem
    obtain rfl := Coherent.source_eq hsource (ht.trans htarget)
    refine ⟨rfl, rfl, rfl, .inl ⟨rfl, ?_⟩⟩
    obtain ⟨rule, hrule, hexpires⟩ := hcovered existing hfind hstays.metadata hspent
    rw [hvalue] at hrule
    obtain ⟨l, hl, hls, hlt, hlevel'⟩ := h.leased source rule hrule id
    obtain rfl := h.eq_of_target hl hmem hls hs (hlt.trans hsource.target.symm) id
    have hcount : ∀ key, key ≠ "broker.renewal_count" →
        (Broker.renewed l r decisionID (e.sourceBroker.leaseMetadata r) w.clock).metadata.get key =
          (e.sourceBroker.leaseMetadata r).get key := fun key hne => GoMap.get_insert_ne _ _ hne
    have hw := writes_upsert w.leases (Broker.renewed l r decisionID (e.sourceBroker.leaseMetadata r) w.clock)
    have hrow : IsSourceLease e.sourceBroker.adapterID
        (Broker.renewed l r decisionID (e.sourceBroker.leaseMetadata r) w.clock) source :=
      ⟨hsource.adapter, hsource.nonempty, hsource.target,
        (hcount "target_granularity" (by decide +kernel)).trans hgran,
        (hcount "target_value" (by decide +kernel)).trans hval, hsource.token⟩
    have hbetween : e.MirroredAt (· = "source:" ++ source) w := h.weaken fun _ hh => hh.elim
    have hmirrored := hbetween.write hw ⟨source, hrow, hip⟩ hsource.target
      (fun x hx hxk => by rw [h.token_inj x hx l hl hxk]; rfl)
      fun x hx hxid => by rw [Keyed.Table.eq_of_key_eq hx hl hxid]; rfl
    refine hmirrored.settle (fun x hx hxs hxt => ?_) fun rule' hrule' => ?_
    · rcases (hw x).mp hx with rfl | ⟨hx, hne⟩
      · exact ⟨h.held l hl hs id, fun _ => ⟨rule, hrule, hlevel', hexpires⟩⟩
      · obtain rfl := h.eq_of_target hx hl hxs hs (hxt.trans hsource.target.symm) id
        exact absurd rfl hne
    · obtain rfl := Option.some.inj (hrule'.symm.trans hrule)
      exact ⟨_, (hw _).mpr (.inl rfl), rfl, hsource.target, hlevel'⟩

/-- What holds from the activation of a lease to the end of its application. -/
structure Taken (e : SidecarExecutor σ ρ) (l : ActionLease) (source : String) (pep : BrokeredPEPs (σ × RuleTable) ρ)
    (clock : Time) (w : NodeWorld (σ × RuleTable) ρ) : Prop where
  mirrored : e.MirroredAt (· = "source:" ++ source) w
  mem : l ∈ w.leases
  pep : w.pep = pep
  clock : w.clock = clock
  weaker : ∀ x ∈ w.leases, x.status = .active → x.target = "source:" ++ source → x = l ∨
    ((x.action, x.level) ∈ probes l.action ["soft", "hard", "block"] ∧ x.strength < l.strength)

theorem Taken.supersede {l lease : ActionLease} {pep : BrokeredPEPs (σ × RuleTable) ρ} {clock : Time} {err : String}
    (h : Taken e l source pep clock w) (hmem : lease ∈ w.leases) (ht : lease.target = "source:" ++ source)
    (hne : lease.leaseID ≠ l.leaseID) :
    Taken e l source pep clock { w with leases := w.leases.updateActionLeaseStatus { lease with
      status := .superseded, lastError := err, revertedAt := some at' } } := by
  obtain ⟨s, hsource, hip⟩ := h.mirrored.row lease hmem
  have hw := writes_update hmem (show lease.leaseID = ({ lease with
    status := .superseded, lastError := err, revertedAt := some at' } : ActionLease).leaseID from rfl)
  refine ⟨h.mirrored.write hw ⟨s, IsSourceLease.setStatus hsource, hip⟩ ht
      (fun x hx hxk => by rw [h.mirrored.token_inj x hx lease hmem hxk]; rfl)
      fun x hx hxid => by rw [Keyed.Table.eq_of_key_eq hx hmem hxid]; rfl,
    (hw l).mpr (.inr ⟨h.mem, fun hh => hne hh.symm⟩), h.pep, h.clock, fun x hx hxs hxt => ?_⟩
  rcases (hw x).mp hx with rfl | ⟨hx, -⟩
  · simp [LeaseTable.setStatus] at hxs
  · exact h.weaker x hx hxs hxt

/-- A new lease that is stronger than the others of its target is the only one left. -/
theorem wp_createLease_mirrored {ctx : ApplyContext} {l : ActionLease} {receipt : EnforcementReceipt}
    (h : e.MirroredAt (· = "source:" ++ source) w) (hone : OneActive w.leases) (hfresh : Fresh w.leases l)
    (hsource : IsSourceLease e.sourceBroker.adapterID l source) (hip : IsIPName source)
    (hpending : l.status = .pending) (hstrong : l.strength ≠ 0)
    (hweaker : ∀ x ∈ w.leases, x.status = .active → x.target = "source:" ++ source →
      (x.action, x.level) ∈ probes l.action ["soft", "hard", "block"] ∧ x.strength < l.strength)
    (hactive : w.pep.source.active = some ctx) (hallowed : ctx.resolution.allowed)
    (hlevel : ctx.resolution.executableLevel = l.level) (hnext : parseFSMLevel l.level ≠ .observe)
    (hid : ctx.target.id = source) (hexpires : l.expiresAt = now + ctx.params.ttl (parseFSMLevel l.level)) :
    wp (e.env now) (fun _ => True) (fun _ w' => e.MirroredAt settled w') (e.sourceBroker.createLease l receipt at')
      w := by
  simp only [Broker.createLease, perform_bind]
  refine wp_faultless_store trivial ?_
  have hw := writes_upsert w.leases l
  have hl : l ∈ w.leases.upsertActionLease l := (hw l).mpr (.inl rfl)
  refine wp_notifyApply hactive hallowed (leaseFencingKey_of_source hsource)
    fun w' hleases hclock htoken hrules => ?_
  obtain ⟨leases, clock, pep⟩ := w'
  obtain rfl : leases = w.leases.upsertActionLease l := hleases
  obtain rfl : clock = w.clock := hclock
  let applied : ActionLease := { l with status := .active }
  have hw' : Writes (w.leases.upsertActionLease l) applied
    ((w.leases.upsertActionLease l).updateActionLeaseStatus applied) := writes_update hl rfl
  have hrow : ∃ s, IsSourceLease e.sourceBroker.adapterID applied s ∧ IsIPName s :=
    ⟨source, ⟨hsource.adapter, hsource.nonempty, hsource.target, hsource.granularity, hsource.value, hsource.token⟩,
      hip⟩
  rw [notifySourceTransition_eq (hid ▸ hip), hid, hlevel] at hrules
  have hinserted : (sidecarRules ⟨w.leases.upsertActionLease l, w.clock, pep⟩).lookup source =
      some ⟨source, parseFSMLevel l.level, if 0 < ctx.params.ttl (parseFSMLevel l.level) then
        now + ctx.params.ttl (parseFSMLevel l.level) else 0⟩ := by
    rw [hrules]
    cases hparse : parseFSMLevel l.level with
    | observe => exact absurd hparse hnext
    | soft | hard | block => exact AList.lookup_insert ..
  have hothers : ∀ s ≠ source, (sidecarRules ⟨w.leases.upsertActionLease l, w.clock, pep⟩).lookup s =
      (sidecarRules w).lookup s := by
    intro s hs
    rw [hrules]
    cases parseFSMLevel l.level with
    | observe => exact AList.lookup_erase_ne hs
    | soft | hard | block => exact AList.lookup_insert_ne hs
  have hmirrored : e.MirroredAt (· = "source:" ++ source)
      ⟨(w.leases.upsertActionLease l).updateActionLeaseStatus applied, w.clock, pep⟩ := by
    refine ((h.write hw ⟨source, hsource, hip⟩ hsource.target (fun x hx hxk => absurd hxk (hfresh.token x hx))
      fun x hx hxid => absurd hxid (hfresh.id x hx)).move (fun target hn => ?_) fun s hn => ?_).write hw' hrow
        hsource.target (fun x hx hxk => ?_) fun x hx hxid => ?_
    · exact (htoken target).trans (if_neg fun heq => hn (heq.trans hsource.target))
    · exact hothers s fun heq => hn (congrArg ("source:" ++ ·) heq)
    · rcases (hw x).mp hx with rfl | ⟨hx, -⟩
      · rfl
      · exact absurd hxk (hfresh.token x hx)
    · rw [Keyed.Table.eq_of_key_eq hx hl hxid]
  have htaken : Taken e applied source pep w.clock
      ⟨(w.leases.upsertActionLease l).updateActionLeaseStatus applied, w.clock, pep⟩ := by
    refine ⟨hmirrored, (hw' _).mpr (.inl rfl), rfl, rfl, fun x hx hxs hxt => ?_⟩
    rcases (hw' x).mp hx with rfl | ⟨hx, hne⟩
    · exact .inl rfl
    · rcases (hw x).mp hx with rfl | ⟨hx, -⟩
      · exact absurd rfl hne
      · exact .inr (hweaker x hx hxs hxt)
  have hone' : OneActive ((w.leases.upsertActionLease l).updateActionLeaseStatus applied) := by
    refine (hone.retire hw (by rw [hpending]; decide)).write hw' fun _ x hx hxs hkey => ?_
    rcases (hw x).mp hx with rfl | ⟨hx, -⟩
    · rfl
    · have hlt := (hweaker x hx hxs (hkey.2.1.trans hsource.target)).2
      rw [hkey.strength] at hlt
      exact absurd hlt (lt_irrefl _)
  dsimp only
  rw [if_neg fun hh => hh.2 rfl]
  refine wp_faultless_store trivial ?_
  simp only [StoreOp.handle, wp_bind]
  have hsupersede : wp (e.env now) (Taken e applied source pep w.clock)
      (fun _ => Taken e applied source pep w.clock)
      (e.sourceBroker.supersedeWeaker applied at' (probes applied.action ["soft", "hard", "block"]))
      ⟨(w.leases.upsertActionLease l).updateActionLeaseStatus applied, w.clock, pep⟩ :=
    wp_supersedeWeaker htaken (fun w lease f err hw hf hmem _ _ ht hne _ => by
      obtain rfl : f = .none := hf
      exact hw.supersede hmem (ht.trans hsource.target) hne) _
  have hall := wp_and hsupersede (wp_supersedeWeaker_cleared [] hone' htaken.mem (by simp [Cleared]))
  have hstart : e.sourceBroker.supersedeWeakerActiveLeases applied at' =
      e.sourceBroker.supersedeWeaker applied at' (probes applied.action ["soft", "hard", "block"]) := if_neg hstrong
  rw [← hstart] at hall
  refine wp_mono (wp_crash hall fun _ _ => trivial) ?_
  rintro _ w'' ⟨htaken', rfl, -, hcleared⟩
  obtain ⟨leases, clock, pep'⟩ := w''
  obtain rfl : pep' = pep := htaken'.pep
  obtain rfl : clock = w.clock := htaken'.clock
  have honly : ∀ x ∈ leases, x.status = .active → x.target = "source:" ++ source → x = applied := by
    intro x hx hxs hxt
    obtain ⟨s, hxsource, -⟩ := htaken'.mirrored.row x hx
    rcases htaken'.weaker x hx hxs hxt with heq | ⟨hprobed, hlt⟩
    · exact heq
    · exact absurd hlt (not_lt.mpr (hcleared x hx hxs hxsource.adapter (hxt.trans hsource.target.symm) hprobed))
  refine htaken'.mirrored.settle (fun x hx hxs hxt => ?_) fun rule hrule => ?_
  · obtain rfl := honly x hx hxs hxt
    refine ⟨(htoken l.target).trans (if_pos rfl), fun _ => ⟨_, hinserted, rfl, ?_⟩⟩
    change _ ∨ l.expiresAt ≤ _
    rw [hexpires]
    split_ifs
    · exact .inr le_rfl
    · exact .inl rfl
  · obtain rfl := Option.some.inj (hrule.symm.trans hinserted)
    exact ⟨applied, htaken'.mem, rfl, hsource.target, rfl⟩

theorem strength_ne_zero (action : String) {level : String} (h : level ∈ ["soft", "hard", "block"]) :
    actionLeaseStrength action level ≠ 0 := by
  have hlevels : trimSpace "soft" = "soft" ∧ trimSpace "hard" = "hard" ∧ trimSpace "block" = "block" := by
    decide +kernel
  obtain ⟨hsoft, hhard, hblock⟩ := hlevels
  unfold actionLeaseStrength
  simp only [List.mem_cons, List.not_mem_nil, or_false] at h
  rcases h with rfl | rfl | rfl
  · rw [hsoft]
    split_ifs <;> simp_all
  · rw [hhard]
    split_ifs <;> simp_all
  · rw [hblock]
    split_ifs <;> simp_all

theorem parse_ne_observe {level : String} (h : level ∈ ["soft", "hard", "block"]) :
    parseFSMLevel level ≠ .observe := by
  revert level
  decide

theorem wp_apply_mirrored {ctx : ApplyContext} {ids : GeneratedIDs} (h : e.MirroredAt settled w)
    (hactive : w.pep.source.active = some ctx) (hctx : ctx.resolution = r) (hallowed : r.allowed)
    (hgran : r.target.granularity = "source") (hvalue : r.target.value = source) (hne : source ≠ "")
    (hip : IsIPName source) (hid : ctx.target.id = source) (hlevel : r.executableLevel ∈ ["soft", "hard", "block"])
    (httl : ctx.params.ttl (parseFSMLevel r.executableLevel) = r.ttl)
    (hfresh : Fresh w.leases (nextLease e.sourceBroker ids r)) (hcovered : e.RenewalCovered w r)
    (hcomparable : Comparable w r) :
    wp (e.env w.clock) (fun _ => True) (fun _ w' => e.MirroredAt settled w') (e.sourceBroker.apply ids r) w := by
  have htarget : targetString r.target = "source:" ++ source := hvalue ▸ targetString_source hgran
  have hmgran : (e.sourceBroker.leaseMetadata r).get "target_granularity" = "source" :=
    leaseMetadata_granularity.trans hgran
  have hmval : (e.sourceBroker.leaseMetadata r).get "target_value" = source := leaseMetadata_value.trans hvalue
  have hone : OneActive w.leases := fun l hl l' hl' hs hs' hkey => h.eq_of_target hl hl' hs hs' hkey.2.1 id
  have hstrong := strength_ne_zero r.executableAction hlevel
  by_cases hstronger : ∃ l ∈ w.leases, Probed e.sourceBroker (targetString r.target) r.executableAction l ∧
      actionLeaseStrength r.executableAction r.executableLevel < l.strength
  · obtain ⟨l, hl, hprobed, hlt⟩ := hstronger
    exact wp_mono (wp_apply_refused hl hprobed (Nat.pos_of_ne_zero hstrong) hlt) fun _ w' hw' => hw' ▸ h
  have hweaker : ∀ l ∈ w.leases, l.status = .active → l.target = targetString r.target →
      ¬ (l.action = r.executableAction ∧ l.level = r.executableLevel) →
      (l.action, l.level) ∈ probes r.executableAction ["soft", "hard", "block"] ∧
        l.strength < actionLeaseStrength r.executableAction r.executableLevel := by
    intro l hl hs ht hkey
    obtain ⟨s, hsource, -⟩ := h.row l hl
    obtain ⟨hprobed, hother⟩ := (hcomparable l hl hs ht).resolve_left hkey
    obtain ⟨haction, hlevels⟩ := mem_probes.mp hprobed
    refine ⟨hprobed, lt_of_le_of_ne (not_lt.mp fun hlt => hstronger ?_) hother⟩
    exact ⟨l, hl, ⟨hs, hsource.adapter, ht, haction, hlevels⟩, hlt⟩
  refine wp_apply trivial (fun _ _ => h) fun _ _ _ _ receipt => ?_
  refine wp_mono (wp_crash (wp_and (wp_renewActiveLease_one hone)
    (wp_renew_mirrored h hfresh htarget hvalue hmgran hmval hcovered)) fun _ _ => trivial) ?_
  rintro ⟨lease, renewed, skipReason, err⟩ w' ⟨⟨hone', -, -⟩, rfl, hpep, hclock, ⟨rfl, hmirrored⟩ | hended⟩
  · by_cases hskip : skipReason = ""
    · simpa [Broker.afterRenewal, hskip] using hmirrored
    · simpa [Broker.afterRenewal, hskip] using hmirrored
  · obtain rfl : renewed = false := hended.renewed
    obtain rfl : skipReason = "" := hended.skip
    simp only [Broker.afterRenewal, ne_eq, not_true, if_false, Bool.false_eq_true]
    refine wp_createLease_mirrored hended.mirrored hone'
      ⟨hended.fresh.nonempty, hended.fresh.id, hended.fresh.token⟩
      ⟨rfl, hne, htarget, hmgran, hmval, hended.fresh.nonempty⟩ hip rfl hstrong (fun x hx hs ht => ?_)
      (hpep ▸ hactive) (hctx ▸ hallowed) (congrArg _ hctx) (parse_ne_observe hlevel) hid
      (congrArg (w.clock + ·) httl.symm)
    obtain ⟨hold, hkey⟩ := hended.left x hx hs ht
    exact hweaker x hold hs (ht.trans htarget.symm) hkey

end Apply

section Runs

inductive SidecarEvent where
  | applySource (ids : GeneratedIDs) (target : SourceTarget) (st : FsmState) (r : ActionResolution)
      (params : EnforcementParams) (now : Time)
  | revertExpired (now : Time)
  | collect
  | clock (now : Time)

variable (e)

/-- What the callers, the random identifiers and the clock guarantee of an application under a lease. -/
def Possible (w : NodeWorld (σ × RuleTable) ρ) : SidecarEvent → Prop
  | .applySource ids target _ r _ _ =>
    shouldBrokerLease r ∧ r.target.granularity = "source" ∧ r.target.value ≠ "" ∧ target.id = r.target.value ∧
      Fresh w.leases (nextLease e.sourceBroker ids r)
  | .clock now => w.clock ≤ now
  | .revertExpired _ | .collect => True

instance (w : NodeWorld (σ × RuleTable) ρ) (ev : SidecarEvent) : Decidable (e.Possible w ev) :=
  match ev with
  | .applySource .. => inferInstanceAs (Decidable (_ ∧ _ ∧ _ ∧ _ ∧ _))
  | .clock now => inferInstanceAs (Decidable (w.clock ≤ now))
  | .revertExpired _ | .collect => inferInstanceAs (Decidable True)

/-- The collection of expired rules, with a backend that does not fail. -/
def collect (w : NodeWorld (σ × RuleTable) ρ) : NodeWorld (σ × RuleTable) ρ :=
  w.withSource { w.pep.source with
    adapter := (w.pep.source.adapter.1, w.pep.source.adapter.2.expire w.clock) }

def next (w : NodeWorld (σ × RuleTable) ρ) : SidecarEvent → NodeWorld (σ × RuleTable) ρ
  | .applySource ids target st r params now => ((e.notifying w.clock).applySource ids target st r params now w).2
  | .revertExpired now => (e.notifying w.clock).revertExpired now w
  | .collect => collect w
  | .clock now => { w with clock := now }

def Step (w : NodeWorld (σ × RuleTable) ρ) (ev : SidecarEvent) (w' : NodeWorld (σ × RuleTable) ρ) : Prop :=
  e.Possible w ev ∧ w' = e.next w ev

def Initial (w : NodeWorld (σ × RuleTable) ρ) : Prop :=
  w.leases = Keyed.Table.empty ∧ w.pep.source.currentTokens = ∅ ∧ sidecarRules w = ∅

/-- An application is for a source named by its IP address and at an FSM level, no renewal outlasts the rule
of the source, and no other active lease of the source is as strong. -/
def Undisturbed (w : NodeWorld (σ × RuleTable) ρ) : SidecarEvent → Prop
  | .applySource _ _ _ r params _ =>
    IsIPName r.target.value ∧ r.executableLevel ∈ ["soft", "hard", "block"] ∧
      e.RenewalCovered w (resolutionWithExecutionMetadata r (enforcementParamsForResolution params r)) ∧
      Comparable w r
  | _ => True

/-- An active lease that has not expired has a rule at its level, and a source whose lease was reverted has
none until the next lease. -/
structure LeasesMirrored (w : NodeWorld (σ × RuleTable) ρ) : Prop where
  active : ∀ l ∈ w.leases, l.status = .active → w.clock < l.expiresAt → ∀ source, l.target = "source:" ++ source →
    ∃ rule, (sidecarRules w).lookup source = some rule ∧ rule.level = parseFSMLevel l.level
  reverted : ∀ l ∈ w.leases, l.status = .reverted →
    (∀ x ∈ w.leases, x.status = .active → x.target ≠ l.target) → ∀ source, l.target = "source:" ++ source →
    (sidecarRules w).lookup source = none

variable {e} {w' : NodeWorld (σ × RuleTable) ρ}

theorem applySource_mirrored {ids : GeneratedIDs} {target : SourceTarget} {st : FsmState} {r : ActionResolution}
    {params : EnforcementParams} {now : Time} (h : e.MirroredAt settled w)
    (hposs : e.Possible w (.applySource ids target st r params now))
    (hguard : e.Undisturbed w (.applySource ids target st r params now)) :
    e.MirroredAt settled ((e.notifying w.clock).applySource ids target st r params now w).2 := by
  obtain ⟨hb, hgran, hne, hid, hfresh⟩ := hposs
  obtain ⟨hip, hlevel, hcovered, hcomparable⟩ := hguard
  let p := enforcementParamsForResolution params r
  let ctx : ApplyContext := ⟨target, st, resolutionWithExecutionMetadata r p, p, now⟩
  have hbegin : e.MirroredAt settled (w.withSource (w.pep.source.begin ctx)) := h
  have hactive : (w.withSource (w.pep.source.begin ctx)).pep.source.active = some ctx := rfl
  have hwp : wp (e.env w.clock) (fun _ => True) (fun _ w' => e.MirroredAt settled w')
      (e.sourceBroker.apply ids ctx.resolution) (w.withSource (w.pep.source.begin ctx)) :=
    wp_apply_mirrored hbegin hactive rfl hb.1 hgran rfl hne hip hid hlevel
      (ttl_enforcementParams params hb.2.1 (parse_ne_observe hlevel)) hfresh hcovered hcomparable
  simp only [BrokeredActionExecutor.applySource, if_pos hb]
  exact exec_post hwp

theorem revertExpired_mirrored {now : Time} (h : e.MirroredAt settled w) :
    e.MirroredAt settled ((e.notifying w.clock).revertExpired now w) := by
  have hsweep : e.MirroredAt settled ((e.notifying w.clock).revertExpiredSources now w).2 ∧
      ((e.notifying w.clock).revertExpiredSources now w).2.leases.listExpiredActionLeases now = [] :=
    exec_post (wp_revertExpired_mirrored h)
  unfold BrokeredActionExecutor.revertExpired
  split
  · exact hsweep.1
  · rw [revertExpired_none_due hsweep.2]
    exact hsweep.1

theorem Step.mirrored {ev : SidecarEvent} (h : e.MirroredAt settled w)
    (hstep : Guarded e.Undisturbed e.Step w ev w') : e.MirroredAt settled w' := by
  obtain ⟨hguard, hposs, rfl⟩ := hstep
  cases ev with
  | applySource ids target st r params now => exact applySource_mirrored h hposs hguard
  | revertExpired now => exact revertExpired_mirrored h
  | collect => exact h.expire
  | clock now => exact h.later hposs

theorem Initial.mirrored (h : Initial w) : e.MirroredAt settled w := by
  obtain ⟨hleases, -, hrules⟩ := h
  have hempty : ∀ l, l ∉ w.leases := by simp [hleases]
  refine ⟨fun l hl => absurd hl (hempty l), fun l hl => absurd hl (hempty l), fun l hl => absurd hl (hempty l),
    fun l hl => absurd hl (hempty l), fun source rule hrule => ?_⟩
  rw [hrules] at hrule
  cases hrule

/-- In every run in which no renewal outlasts its rule the sidecar enforces as long as the leases last. -/
theorem leases_mirrored {w₀ : NodeWorld (σ × RuleTable) ρ} {es : List SidecarEvent} (h₀ : Initial w₀)
    (hrun : Run (Guarded e.Undisturbed e.Step) w₀ es w) : LeasesMirrored w := by
  have h : e.MirroredAt settled w := hrun.invariant h₀.mirrored Step.mirrored
  refine ⟨fun l hl hs hlive source ht => ?_, fun l hl _ hnone source ht => ?_⟩
  · obtain ⟨rule, hrule, hlevel, -⟩ := h.covered l hl hs id hlive source ht
    exact ⟨rule, hrule, hlevel⟩
  · cases hrule : (sidecarRules w).lookup source with
    | none => rfl
    | some rule =>
      obtain ⟨x, hx, hxs, hxt, -⟩ := h.leased source rule hrule id
      exact absurd (hxt.trans ht.symm) (hnone x hx hxs)

end Runs

end SidecarExecutor

section RenewedLimit

open SidecarExecutor

def limitingSidecar : SidecarExecutor (GoMap Enforcement) Unit :=
  { limitingNode.toBrokeredActionExecutor with transition_ok := limitingNode.transition_ok }

def unmirroredStart : NodeWorld (GoMap Enforcement × RuleTable) Unit :=
  ⟨Keyed.Table.empty, 63864979200000000000, { adapter := (∅, ∅) }, { adapter := () }⟩

/-- The hard limit of one minute, under the lease of its number. -/
def mirroredLimit (n : String) : SidecarEvent :=
  .applySource ⟨n, "00000000-0000-4000-8000-00000000000" ++ n⟩ { sourceID := "10.0.0.1" } {}
    (limitResolution true n) limitParams 63864979200000000000

/-- Half a minute later. -/
def halfMinute : SidecarEvent := .clock (63864979200000000000 + 30 * Duration.second)

def limitMirrored : NodeWorld (GoMap Enforcement × RuleTable) Unit :=
  limitingSidecar.next unmirroredStart (mirroredLimit "1")

def limitHalfway : NodeWorld (GoMap Enforcement × RuleTable) Unit := limitingSidecar.next limitMirrored halfMinute

def limitRenewed : NodeWorld (GoMap Enforcement × RuleTable) Unit :=
  limitingSidecar.next limitHalfway (mirroredLimit "2")

/-- When the first minute is over. -/
def overdue : SidecarEvent := .clock (63864979200000000000 + 61 * Duration.second)

def limitOverdue : NodeWorld (GoMap Enforcement × RuleTable) Unit := limitingSidecar.next limitRenewed overdue

def limitCollected : NodeWorld (GoMap Enforcement × RuleTable) Unit := limitingSidecar.next limitOverdue .collect

theorem sidecar_facts :
    limitingSidecar.Possible unmirroredStart (mirroredLimit "1") ∧
    limitingSidecar.Possible limitMirrored halfMinute ∧
    limitingSidecar.Possible limitHalfway (mirroredLimit "2") ∧
    limitingSidecar.Possible limitRenewed overdue ∧
    IsIPName (limitResolution true "1").target.value ∧
    (∃ l ∈ limitCollected.leases.rows, l.status = .active ∧ limitCollected.clock < l.expiresAt ∧
      l.target = "source:" ++ "10.0.0.1") ∧
    (sidecarRules limitCollected).lookup "10.0.0.1" = none := by
  decide +kernel

theorem limit_mirrored : LeasesMirrored limitHalfway := by
  obtain ⟨hlimit, hlater, -, -, hip, -⟩ := sidecar_facts
  have hnone : ∀ l, l ∉ unmirroredStart.leases := by simp [unmirroredStart]
  have hguard : limitingSidecar.Undisturbed unmirroredStart (mirroredLimit "1") :=
    ⟨hip, by decide, fun l hl => absurd (findActiveActionLease_spec hl).1 (hnone l), fun l hl => absurd hl (hnone l)⟩
  have hrun : Run (Guarded limitingSidecar.Undisturbed limitingSidecar.Step) unmirroredStart
      [mirroredLimit "1", halfMinute] limitHalfway :=
    .cons ⟨hguard, hlimit, rfl⟩ (.singleton ⟨trivial, hlater, rfl⟩)
  exact leases_mirrored ⟨rfl, rfl, rfl⟩ hrun

/-- A renewal lets the lease outlast the rule, which the next collection takes out. -/
theorem renewed_limit_collected : ¬ ∀ es w, Run limitingSidecar.Step unmirroredStart es w → LeasesMirrored w := by
  intro h
  obtain ⟨hlimit, hlater, hrenewal, hoverdue, -, ⟨l, hl, hs, hlive, htarget⟩, hnone⟩ := sidecar_facts
  have hrun : Run limitingSidecar.Step unmirroredStart
      [mirroredLimit "1", halfMinute, mirroredLimit "2", overdue, .collect] limitCollected :=
    .cons ⟨hlimit, rfl⟩ (.cons ⟨hlater, rfl⟩ (.cons ⟨hrenewal, rfl⟩
      (.cons ⟨hoverdue, rfl⟩ (.singleton ⟨trivial, rfl⟩))))
  obtain ⟨rule, hrule, -⟩ := (h _ _ hrun).active l hl hs hlive _ htarget
  rw [hnone] at hrule
  cases hrule

end RenewedLimit

end Kernloom
