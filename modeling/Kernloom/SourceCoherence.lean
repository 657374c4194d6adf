import Kernloom.SourceRules

/-! Every operation of the executor keeps the lease table, the fencing tokens and the enforcement
coherent, and an application that reports success leaves its source as it says. -/

namespace Kernloom

open Effects Effects.Program LeaseTable

variable {σ ρ : Type} {e : ReliableExecutor σ ρ} {w : NodeWorld σ ρ} {now : Time}

/-- No target is between two leases. -/
def settled (_ : String) : Prop := False

abbrev ReliableExecutor.CoherentAt (e : ReliableExecutor σ ρ) (due : List ActionLease)
    (between : String → Prop) (w : NodeWorld σ ρ) : Prop :=
  Coherent e.sourceBroker.adapterID due between w.leases (tokenOn w) (e.enforcedOn w)

theorem IsSourceLease.setStatus {adapterID source : String} {l l' : ActionLease}
    (h : IsSourceLease adapterID l source) : IsSourceLease adapterID (setStatus l' l) source :=
  ⟨h.adapter, h.nonempty, h.target, h.granularity, h.value, h.token⟩

theorem current_eq_iff {adapterID source : String} {l : ActionLease}
    (h : IsSourceLease adapterID l source) :
    w.pep.source.currentTokens.current l = l.fencingToken ↔
      tokenOn w l.target = "" ∨ tokenOn w l.target = l.fencingToken := by
  unfold FencingTokens.current
  rw [leaseFencingKey_of_source h]
  change (if tokenOn w l.target ≠ "" then tokenOn w l.target else l.fencingToken) = _ ↔ _
  by_cases ht : tokenOn w l.target = "" <;> simp [ht]

section Revert

variable {l : ActionLease} {rest : List ActionLease}

/-- One lease of a sweep stops being active; if its token was in force, its target is free. -/
theorem wp_revert_coherent (h : e.CoherentAt (l :: rest) settled w) (hl : l ∈ w.leases)
    (hs : l.status = .active)
    (hcur : tokenOn w l.target = l.fencingToken → ∀ x ∈ w.leases, x.status = .active →
      x.target = l.target → x ∈ l :: rest) :
    wp (e.env now) (fun _ => True)
      (fun ret w' => ret.err = none ∧ e.CoherentAt rest settled w' ∧
        (∃ new, Writes w.leases new w'.leases ∧ new.leaseID = l.leaseID ∧ new.status ≠ .active) ∧
        ∀ target, tokenOn w' target = "" ∨ tokenOn w' target = tokenOn w target)
      (e.sourceBroker.revert l) w := by
  obtain ⟨source, hsource⟩ := h.row l hl
  have hdue : ∀ x ∈ l :: rest, x.leaseID ≠ l.leaseID → x ∈ rest := by
    intro x hx hne
    rcases List.mem_cons.mp hx with rfl | hx
    · exact absurd rfl hne
    · exact hx
  simp only [Broker.revert, perform_bind, wp_now, wp_currentFencingToken]
  refine ⟨trivial, ?_⟩
  by_cases hc : w.pep.source.currentTokens.current l = l.fencingToken
  · rw [if_neg (not_not.mpr hc)]
    refine wp_pepRevert hsource fun w' hw' _ htoken henf => wp_store_ok.mpr ?_
    obtain ⟨leases, clock, pep⟩ := w'
    obtain rfl : leases = w.leases := hw'
    have hall : ∀ x ∈ w.leases, x.status = .active → x.target = l.target → x ∈ l :: rest := by
      rcases (current_eq_iff hsource).mp hc with ht | ht
      · intro x hx hxs hxt
        by_contra hnot
        exact h.free x hx hxs hnot (hxt ▸ ht)
      · exact hcur ht
    have hempty : tokenOn ⟨w.leases, clock, pep⟩ l.target = "" := by
      rw [htoken]
      rcases (current_eq_iff hsource).mp hc with ht | ht <;> simp [ht]
    have hother : ∀ target, tokenOn ⟨w.leases, clock, pep⟩ target =
        if target = l.target then "" else tokenOn w target := by
      intro target
      by_cases ht : target = l.target
      · rw [if_pos ht, ht, hempty]
      · rw [htoken, if_neg fun hh => ht hh.1, if_neg ht]
    have hkeep : ∀ s, s ≠ source → e.enforcedOn ⟨w.leases, clock, pep⟩ s = e.enforcedOn w s :=
      fun s hne => by rw [henf, if_neg hne]
    have hreleased := h.release hsource hall hother hkeep
    have hw := writes_update hl (show l.leaseID =
      ({ l with status := .reverted, revertedAt := some w.clock } : ActionLease).leaseID from rfl)
    refine ⟨rfl, hreleased.retire hl hw rfl IsSourceLease.setStatus rfl (by simp [LeaseTable.setStatus])
      ?_ hdue hsource, ⟨_, hw, rfl, by simp [LeaseTable.setStatus]⟩, fun target => ?_⟩
    · intro ht
      exact absurd (ht.symm.trans hempty) hsource.token
    · change tokenOn ⟨w.leases, clock, pep⟩ target = "" ∨ tokenOn ⟨w.leases, clock, pep⟩ target = _
      rw [htoken]
      split_ifs <;> simp
  · rw [if_pos hc]
    refine wp_store_ok.mpr ?_
    have hw := writes_update hl (show l.leaseID = ({ l with
      status := .conflict
      lastError := tokenMismatch "fencing token mismatch" l.fencingToken
        (w.pep.source.currentTokens.current l)
      revertedAt := some w.clock } : ActionLease).leaseID from rfl)
    refine ⟨rfl, h.retire hl hw rfl IsSourceLease.setStatus rfl (by simp [LeaseTable.setStatus]) ?_ hdue
      hsource, ⟨_, hw, rfl, by simp [LeaseTable.setStatus]⟩, fun _ => .inr rfl⟩
    intro ht
    exact absurd ((current_eq_iff hsource).mpr (.inr ht)) hc

theorem wp_revertAll_coherent {due : List ActionLease} (receipts : List EnforcementReceipt)
    (h : e.CoherentAt due settled w)
    (hmem : ∀ l ∈ due, l ∈ w.leases ∧ l.status = .active) (hnodup : (due.map ActionLease.leaseID).Nodup)
    (hcur : ∀ l ∈ due, tokenOn w l.target = l.fencingToken → ∀ x ∈ w.leases, x.status = .active →
      x.target = l.target → x ∈ due) :
    wp (e.env now) (fun _ => True)
      (fun _ w' => e.CoherentAt [] settled w' ∧
        ∀ x ∈ w'.leases, x.status = .active → x ∈ w.leases ∧ x ∉ due)
      (e.sourceBroker.revertAll receipts due) w := by
  induction due generalizing w receipts with
  | nil => exact ⟨h, fun x hx _ => ⟨hx, List.not_mem_nil⟩⟩
  | cons l rest ih =>
    obtain ⟨hnot, hnodup⟩ := List.nodup_cons.mp hnodup
    have hl := hmem l List.mem_cons_self
    have hne : ∀ x ∈ rest, x.leaseID ≠ l.leaseID := fun x hx hid => hnot (hid ▸ List.mem_map_of_mem hx)
    simp only [Broker.revertAll, wp_bind]
    refine wp_mono (wp_revert_coherent h hl.1 hl.2 (hcur l List.mem_cons_self)) ?_
    rintro ⟨receipt, err⟩ w' ⟨rfl, hcoh, ⟨new, hw, hid, hstatus⟩, htoken⟩
    have hold : ∀ x ∈ w'.leases, x.status = .active → x ∈ w.leases ∧ x.leaseID ≠ l.leaseID := by
      intro x hx hxs
      rcases (hw x).mp hx with rfl | ⟨hx, hxid⟩
      · exact absurd hxs hstatus
      · exact ⟨hx, hid ▸ hxid⟩
    refine wp_mono (ih (receipts ++ [receipt]) hcoh ?_ hnodup ?_) ?_
    · intro x hx
      have hh := hmem x (List.mem_cons_of_mem _ hx)
      exact ⟨(hw x).mpr (.inr ⟨hh.1, hid ▸ hne x hx⟩), hh.2⟩
    · intro x hx hxk y hy hys hyt
      obtain ⟨s, hxsource⟩ := h.row x (hmem x (List.mem_cons_of_mem _ hx)).1
      have hk : tokenOn w x.target = x.fencingToken := by
        rcases htoken x.target with hh | hh
        · exact absurd (hxk.symm.trans hh) hxsource.token
        · rw [← hh, hxk]
      obtain ⟨hyw, hyid⟩ := hold y hy hys
      rcases List.mem_cons.mp (hcur x (List.mem_cons_of_mem _ hx) hk y hyw hys hyt) with rfl | hy
      · exact absurd rfl hyid
      · exact hy
    · rintro _ w'' ⟨hcoh', hlast⟩
      refine ⟨hcoh', fun x hx hxs => ?_⟩
      obtain ⟨hx', hnotin⟩ := hlast x hx hxs
      obtain ⟨hxw, hxid⟩ := hold x hx' hxs
      refine ⟨hxw, fun hxin => ?_⟩
      rcases List.mem_cons.mp hxin with rfl | hxin
      · exact hxid rfl
      · exact hnotin hxin

/-- A sweep keeps coherence when every lease left on a target that it frees is swept too. -/
theorem wp_revertExpired_coherent {at' : Time} (h : e.CoherentAt [] settled w)
    (hcur : ∀ l ∈ w.leases.listExpiredActionLeases at', tokenOn w l.target = l.fencingToken →
      ∀ x ∈ w.leases, x.status = .active → x.target = l.target →
        x ∈ w.leases.listExpiredActionLeases at') :
    wp (e.env now) (fun _ => True)
      (fun _ w' => e.CoherentAt [] settled w' ∧ w'.leases.listExpiredActionLeases at' = [])
      (e.sourceBroker.revertExpired at') w := by
  simp only [Broker.revertExpired, perform_bind, wp_store_ok, StoreOp.handle]
  refine wp_mono (wp_revertAll_coherent [] (h.weaken (List.nil_subset _) fun _ hh => hh) ?_
    (nodup_listExpiredActionLeases _ _) hcur) ?_
  · intro l hl
    obtain ⟨hl, hs, _⟩ := mem_listExpiredActionLeases.mp hl
    exact ⟨hl, hs⟩
  · rintro _ w' ⟨hcoh, hlast⟩
    refine ⟨hcoh, List.eq_nil_iff_forall_not_mem.mpr fun x hx => ?_⟩
    obtain ⟨hx, hs, hexp⟩ := mem_listExpiredActionLeases.mp hx
    obtain ⟨hxw, hnot⟩ := hlast x hx hs
    exact hnot (mem_listExpiredActionLeases.mpr ⟨hxw, hs, hexp⟩)

end Revert

end Kernloom
