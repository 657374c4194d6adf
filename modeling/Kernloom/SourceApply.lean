import Kernloom.SourceCoherence

/-! An application by the source broker: the renewal of a lease in force, or a new lease that takes
over its target. -/

namespace Kernloom

open Effects Effects.Program LeaseTable

variable {σ ρ : Type} {e : ReliableExecutor σ ρ} {w : NodeWorld σ ρ} {now : Time}

theorem Fresh.writes {t t' : LeaseTable} {lease l new : ActionLease} (h : Fresh t lease) (hl : l ∈ t)
    (hw : Writes t new t') (hid : new.leaseID = l.leaseID) (hk : new.fencingToken = l.fencingToken) :
    Fresh t' lease where
  nonempty := h.nonempty
  id x hx := by
    rcases (hw x).mp hx with rfl | ⟨hx, _⟩
    · rw [hid]
      exact h.id l hl
    · exact h.id x hx
  token x hx := by
    rcases (hw x).mp hx with rfl | ⟨hx, _⟩
    · rw [hk]
      exact h.token l hl
    · exact h.token x hx

section Renew

variable {r : ActionResolution} {decisionID source : String} {metadata : GoMap String}
  {p : EnforcementParams} {at' : Time}

/-- A renewal stands for its resolution on its source. -/
structure Renewed (e : ReliableExecutor σ ρ) (r : ActionResolution) (p : EnforcementParams)
    (source : String) (ren : Broker.Renewal) (w : NodeWorld σ ρ) : Prop where
  renewed : ren.renewed = true
  lease : ren.lease.isSome
  coherent : e.CoherentAt [] settled w
  enforced : e.enforcedOn w source = enforcementOf (parseFSMLevel r.executableLevel) p

/-- Nothing was renewed, and the target may be between two leases. -/
structure Unrenewed (e : ReliableExecutor σ ρ) (source : String) (fresh : ActionLease)
    (ren : Broker.Renewal) (w : NodeWorld σ ρ) : Prop where
  renewed : ren.renewed = false
  skip : ren.skipReason = ""
  coherent : e.CoherentAt [] (· = "source:" ++ source) w
  fresh : Fresh w.leases fresh

theorem enforcedOn_current {existing : ActionLease} (h : e.CoherentAt [] settled w)
    (hmem : existing ∈ w.leases) (hs : existing.status = .active)
    (hsource : IsSourceLease e.sourceBroker.adapterID existing source)
    (hcur : w.pep.source.currentTokens.current existing = existing.fencingToken)
    (hsame : executionMetadataChanged existing.metadata metadata = none) (hrec : Records metadata p) :
    tokenOn w existing.target = existing.fencingToken ∧
      e.enforcedOn w source = enforcementOf (parseFSMLevel existing.level) p := by
  have hfree := h.free existing hmem hs List.not_mem_nil
  have hk := ((current_eq_iff hsource).mp hcur).resolve_left hfree
  obtain ⟨p', hrec', henf⟩ := h.enforces existing hmem hs hk
  rw [hsource.value] at henf
  exact ⟨hk, henf.trans ((hrec'.congr hsame).enforcementOf_eq hrec _)⟩

theorem wp_renew_coherent {fresh : ActionLease} (h : e.CoherentAt [] settled w)
    (hfresh : Fresh w.leases fresh) (hrec : Records metadata p)
    (hgran : metadata.get "target_granularity" = "source")
    (hval : metadata.get "target_value" = source) :
    wp (e.env now) (fun _ => True)
      (fun ren w' => ren.err = none ∧ w'.pep = w.pep ∧
        (Renewed e r p source ren w' ∨ Unrenewed e source fresh ren w'))
      (e.sourceBroker.renewActiveLease r decisionID ("source:" ++ source) metadata at') w := by
  have hbetween : e.CoherentAt [] (· = "source:" ++ source) w :=
    h.weaken (List.Subset.refl _) fun _ hh => hh.elim
  refine wp_renewActiveLease trivial (fun _ _ _ _ => trivial) fun renewal w' hstep => ⟨trivial, ?_⟩
  cases hstep with
  | unread hf herr =>
    obtain rfl := hf
    cases herr
  | absent => exact ⟨rfl, rfl, .inr ⟨rfl, rfl, hbetween, hfresh⟩⟩
  | @ended existing ended pep f hfind hends hid hf =>
    obtain rfl : f = .none := hf
    obtain rfl : pep = w.pep := hends.pep_eq fun _ _ hpep => (Prod.mk.inj hpep).2.symm
    obtain ⟨hmem, -, htarget, -, -, hs⟩ := findActiveActionLease_spec hfind
    obtain ⟨s, hsource⟩ := h.row existing hmem
    obtain rfl := Coherent.source_eq hsource htarget
    have hw := writes_update hmem hid.symm
    refine ⟨rfl, rfl, .inr ⟨rfl, rfl, ?_, hfresh.writes hmem hw rfl rfl⟩⟩
    exact hbetween.retire hmem hw rfl IsSourceLease.setStatus rfl hends.not_active (fun _ => htarget)
      (fun x hx => absurd hx List.not_mem_nil) hsource
  | unasked hfind hpep => cases (Prod.mk.inj hpep).1
  | @spent existing pep hfind hstays =>
    obtain ⟨hcur, rfl⟩ := Prod.mk.inj hstays.token
    obtain ⟨hmem, -, htarget, -, hlevel, hs⟩ := findActiveActionLease_spec hfind
    obtain ⟨s, hsource⟩ := h.row existing hmem
    obtain rfl := Coherent.source_eq hsource htarget
    obtain ⟨-, henf⟩ := enforcedOn_current h hmem hs hsource (Except.ok.inj hcur) hstays.metadata hrec
    rw [hlevel] at henf
    exact ⟨rfl, rfl, .inl ⟨rfl, rfl, h, henf⟩⟩
  | @renewed existing pep f hfind hstays hspent hf =>
    obtain rfl : f = .none := hf
    obtain ⟨hcur, rfl⟩ := Prod.mk.inj hstays.token
    obtain ⟨hmem, -, htarget, -, hlevel, hs⟩ := findActiveActionLease_spec hfind
    obtain ⟨s, hsource⟩ := h.row existing hmem
    obtain rfl := Coherent.source_eq hsource htarget
    obtain ⟨hk, henf⟩ := enforcedOn_current h hmem hs hsource (Except.ok.inj hcur) hstays.metadata hrec
    rw [hlevel] at henf
    refine ⟨rfl, rfl, .inl ⟨rfl, rfl, ?_, henf⟩⟩
    have hcount : ∀ key, key ≠ "broker.renewal_count" →
        (Broker.renewed existing r decisionID metadata at').metadata.get key = metadata.get key :=
      fun key hne => GoMap.get_insert_ne _ _ hne
    have hvalue := (hcount "target_value" (by decide +kernel)).trans hval
    have hrow : IsSourceLease e.sourceBroker.adapterID (Broker.renewed existing r decisionID metadata at') source :=
      ⟨hsource.adapter, hsource.nonempty, hsource.target,
        (hcount "target_granularity" (by decide +kernel)).trans hgran, hvalue, hsource.token⟩
    refine h.write (writes_upsert _ _) (fun x hx => absurd hx List.not_mem_nil) ⟨source, hrow⟩ ?_ ?_ ?_ ?_
    · intro x hx hxk
      rw [h.token_inj x hx existing hmem hxk]
      rfl
    · intro x hx hxid _ _ _
      obtain rfl := Keyed.Table.eq_of_key_eq hx hmem hxid
      exact ⟨rfl, rfl, rfl⟩
    · intro _ _ hempty
      exact hsource.token (hk.symm.trans hempty)
    · intro _ _
      rw [hvalue, henf]
      exact ⟨p, hrec.insert_renewalCount _, by rw [← hlevel]; rfl⟩

end Renew

section Create

variable {ctx : ApplyContext} {l : ActionLease} {source : String} {receipt : EnforcementReceipt}
  {at' : Time}

/-- What holds from the activation of a lease to the end of its application. -/
structure TookOver (e : ReliableExecutor σ ρ) (l : ActionLease) (source : String) (x : Enforcement)
    (w : NodeWorld σ ρ) : Prop where
  coherent : e.CoherentAt [] settled w
  mem : l ∈ w.leases
  token : tokenOn w l.target = l.fencingToken
  enforced : e.enforcedOn w source = x

theorem TookOver.supersede {x : Enforcement} {lease : ActionLease} {err : String}
    (h : TookOver e l source x w) (hmem : lease ∈ w.leases) (ht : lease.target = l.target)
    (hne : lease.leaseID ≠ l.leaseID) :
    TookOver e l source x { w with leases := w.leases.updateActionLeaseStatus { lease with
      status := .superseded, lastError := err, revertedAt := some at' } } := by
  obtain ⟨s, hsource⟩ := h.coherent.row lease hmem
  have hw := writes_update hmem (show lease.leaseID = ({ lease with
    status := .superseded, lastError := err, revertedAt := some at' } : ActionLease).leaseID from rfl)
  refine ⟨h.coherent.retire hmem hw rfl IsSourceLease.setStatus rfl (by simp [LeaseTable.setStatus]) ?_
    (fun x hx => absurd hx List.not_mem_nil) hsource, (hw l).mpr (.inr ⟨h.mem, fun hh => hne hh.symm⟩),
    h.token, h.enforced⟩
  intro hk
  rw [ht, h.token] at hk
  rw [h.coherent.token_inj l h.mem lease hmem hk] at hne
  exact absurd rfl hne

theorem wp_createLease_coherent (h : e.CoherentAt [] (· = "source:" ++ source) w)
    (hfresh : Fresh w.leases l) (hsource : IsSourceLease e.sourceBroker.adapterID l source)
    (hpending : l.status = .pending) (hrec : Records l.metadata ctx.params)
    (hactive : w.pep.source.active = some ctx) (hallowed : ctx.resolution.allowed)
    (hlevel : ctx.resolution.executableLevel = l.level) (hid : ctx.target.id = source) :
    wp (e.env now) (fun _ => True)
      (fun _ w' => e.CoherentAt [] settled w' ∧
        e.enforcedOn w' source = enforcementOf (parseFSMLevel l.level) ctx.params)
      (e.sourceBroker.createLease l receipt at') w := by
  simp only [Broker.createLease, perform_bind]
  refine wp_store_ok.mpr ?_
  have hw := writes_upsert w.leases l
  have hpend : e.CoherentAt [] (· = "source:" ++ source)
      { w with leases := w.leases.upsertActionLease l } := by
    refine h.write hw (fun x hx => absurd hx List.not_mem_nil) ⟨source, hsource⟩
      (fun x hx hk => absurd hk (hfresh.token x hx)) (fun x hx hxid => absurd hxid (hfresh.id x hx)) ?_ ?_
      <;> intro hs <;> rw [hpending] at hs <;> exact absurd hs (by decide)
  have hl : l ∈ w.leases.upsertActionLease l := (hw l).mpr (.inl rfl)
  refine wp_pepApply hactive hallowed (leaseFencingKey_of_source hsource) fun w' hw' _ htoken henf => ?_
  obtain ⟨leases, clock, pep⟩ := w'
  obtain rfl : leases = w.leases.upsertActionLease l := hw'
  have happlied := hpend.apply hsource.target hsource (fun x hx hs => ?_) htoken
    (fun s hne => (henf s).trans (if_neg (hid ▸ hne)))
  · dsimp only
    rw [if_neg fun hh => hh.2 rfl]
    refine wp_store_ok.mpr ?_
    have hw' := writes_update hl (show l.leaseID = ({ l with status := .active } : ActionLease).leaseID from rfl)
    have hk : tokenOn ⟨w.leases.upsertActionLease l, clock, pep⟩ l.target = l.fencingToken := by
      rw [htoken, if_pos rfl]
    have he : e.enforcedOn ⟨w.leases.upsertActionLease l, clock, pep⟩ source =
        enforcementOf (parseFSMLevel l.level) ctx.params := by
      rw [henf, if_pos hid.symm, hlevel]
    have htook : TookOver e { l with status := .active } source
        (enforcementOf (parseFSMLevel l.level) ctx.params)
        ⟨(w.leases.upsertActionLease l).updateActionLeaseStatus { l with status := .active }, clock, pep⟩ := by
      refine ⟨(happlied.write hw' (fun x hx => absurd hx List.not_mem_nil)
        ⟨source, IsSourceLease.setStatus hsource⟩ ?_ ?_ (fun _ _ => ?_) (fun _ _ => ?_)).settle
        fun target ht _ => ⟨_, (hw' _).mpr (.inl rfl), rfl, hsource.target.trans ht.symm, ?_⟩,
        (hw' _).mpr (.inl rfl), hk, he⟩
      · intro x hx hxk
        rw [happlied.token_inj x hx l hl hxk]
        rfl
      · intro x hx hxid hs
        obtain rfl := Keyed.Table.eq_of_key_eq hx hl hxid
        rw [hpending] at hs
        exact absurd hs (by decide)
      · exact hk.symm ▸ hsource.token
      · refine ⟨ctx.params, hrec, ?_⟩
        change e.enforcedOn _ (l.metadata.get "target_value") = _
        rw [hsource.value]
        exact he
      · rw [ht, ← hsource.target]
        exact hk.symm
    simp only [StoreOp.handle, wp_bind]
    refine wp_mono (wp_crash (wp_supersedeWeakerActiveLeases htook ?_) fun _ _ => trivial) ?_
    · rintro w lease f err hw rfl hmem _ _ ht hne _
      exact hw.supersede hmem ht hne
    · intro ret w' hw'
      split <;> exact ⟨hw'.coherent, hw'.enforced⟩
  · rcases (hw x).mp hx with rfl | ⟨hx, _⟩
    · rw [hpending] at hs
      exact absurd hs (by decide)
    · exact hfresh.token x hx

end Create

section Apply

variable {ctx : ApplyContext} {source : String} {ids : GeneratedIDs} {r : ActionResolution}

theorem targetString_source {t : ActionTarget} (h : t.granularity = "source") :
    targetString t = "source:" ++ t.value := by
  rw [targetString, if_neg (by rw [h]; decide), h]
  exact congrArg (· ++ t.value) (by decide +kernel : "source" ++ ":" = "source:")

/-- An application keeps coherence, and its success means what it says. -/
theorem wp_apply_coherent (h : e.CoherentAt [] settled w) (hactive : w.pep.source.active = some ctx)
    (hlast : w.pep.source.last.result.status = .unset)
    (hctx : ctx.resolution = resolutionWithExecutionMetadata r ctx.params)
    (hgran : r.target.granularity = "source") (hval : r.target.value = source) (hne : source ≠ "")
    (hid : ctx.target.id = source) (hfresh : Fresh w.leases (nextLease e.sourceBroker ids r)) :
    wp (e.env now) (fun _ => True)
      (fun ret w' => e.CoherentAt [] settled w' ∧
        ((BrokeredActionExecutor.brokeredOutcome ctx ret w'.pep.source.last).2.status = .applied →
          e.enforcedOn w' source = enforcementOf (parseFSMLevel r.executableLevel) ctx.params))
      (e.sourceBroker.apply ids ctx.resolution) w := by
  have htarget : targetString ctx.resolution.target = "source:" ++ source := by
    rw [hctx, ← hval]
    exact targetString_source hgran
  have hmgran : (e.sourceBroker.leaseMetadata ctx.resolution).get "target_granularity" = "source" := by
    rw [leaseMetadata_granularity, hctx]
    exact hgran
  have hmval : (e.sourceBroker.leaseMetadata ctx.resolution).get "target_value" = source := by
    rw [leaseMetadata_value, hctx]
    exact hval
  have hrec : Records (e.sourceBroker.leaseMetadata ctx.resolution) ctx.params := by
    rw [hctx]
    exact records_leaseMetadata _
  have hlevel : ctx.resolution.executableLevel = r.executableLevel := by rw [hctx]; rfl
  refine wp_apply trivial (fun receipt err => ⟨h, ?_⟩) fun hallowed _ _ _ receipt => ?_
  · cases err <;> simp [BrokeredActionExecutor.brokeredOutcome, hlast]
  rw [htarget]
  refine wp_mono (wp_renew_coherent h hfresh hrec hmgran hmval) ?_
  rintro ⟨lease, renewed, skipReason, err⟩ w' ⟨rfl, hpep, hren | hren⟩
  · have hreturn : ∀ ret : Broker.ApplyReturn, e.CoherentAt [] settled w' ∧
        ((BrokeredActionExecutor.brokeredOutcome ctx ret w'.pep.source.last).2.status = .applied →
          e.enforcedOn w' source = enforcementOf (parseFSMLevel r.executableLevel) ctx.params) :=
      fun _ => ⟨hren.coherent, fun _ => hlevel ▸ hren.enforced⟩
    obtain rfl : renewed = true := hren.renewed
    by_cases hskip : skipReason = ""
    · simpa [Broker.afterRenewal, hskip] using hreturn _
    · simpa [Broker.afterRenewal, hskip] using hreturn _
  · obtain rfl : renewed = false := hren.renewed
    obtain rfl : skipReason = "" := hren.skip
    simp only [Broker.afterRenewal, ne_eq, not_true, if_false, Bool.false_eq_true]
    have hf := hren.fresh
    have htoken : (e.sourceBroker.newLease ids ctx.resolution (Broker.decisionIDFor ids ctx.resolution)
        (targetString ctx.resolution.target) (e.sourceBroker.leaseMetadata ctx.resolution)
        w.clock).fencingToken = (nextLease e.sourceBroker ids r).fencingToken := by
      rw [hctx]
      rfl
    refine wp_mono (wp_createLease_coherent hren.coherent ⟨?_, ?_, ?_⟩
      ⟨rfl, hne, htarget, hmgran, hmval, ?_⟩ rfl hrec (hpep ▸ hactive) hallowed rfl hid)
      fun _ w'' hh => ⟨hh.1, fun _ => hlevel ▸ hh.2⟩
    · exact htoken ▸ hf.nonempty
    · exact hf.id
    · exact htoken ▸ hf.token
    · exact htoken ▸ hf.nonempty

end Apply

end Kernloom
