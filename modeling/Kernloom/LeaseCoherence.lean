import Kernloom.ExecutionRecord

/-! Coherence of a lease table with the fencing tokens and the enforcement of the sources: a token
in force names an active lease, an active lease has a token in force on its target, and the lease
whose token is in force is what the source enforces. The writes of the broker and the transitions
of the PEP are moves between coherent states. -/

namespace Kernloom

open LeaseTable

/-- A lease of a source. -/
structure IsSourceLease (adapterID : String) (l : ActionLease) (source : String) : Prop where
  adapter : l.adapterID = adapterID
  nonempty : source ≠ ""
  target : l.target = "source:" ++ source
  granularity : l.metadata.get "target_granularity" = "source"
  value : l.metadata.get "target_value" = source
  token : l.fencingToken ≠ ""

/-- Coherence, but for the leases about to be swept and for the targets between the end of one
lease and the application of the next. -/
structure Coherent (adapterID : String) (due : List ActionLease) (between : String → Prop)
    (t : LeaseTable) (token : String → String) (enforced : String → Enforcement) : Prop where
  row : ∀ l ∈ t, ∃ source, IsSourceLease adapterID l source
  token_inj : ∀ l ∈ t, ∀ l' ∈ t, l.fencingToken = l'.fencingToken → l = l'
  held : ∀ target, token target ≠ "" → ¬ between target →
    ∃ l ∈ t, l.status = .active ∧ l.target = target ∧ l.fencingToken = token target
  free : ∀ l ∈ t, l.status = .active → l ∉ due → token l.target ≠ ""
  enforces : ∀ l ∈ t, l.status = .active → token l.target = l.fencingToken →
    l.Enforces (enforced (l.metadata.get "target_value"))

namespace Coherent

variable {adapterID : String} {due due' : List ActionLease} {between between' : String → Prop}
  {t t' : LeaseTable} {token token' : String → String} {enforced enforced' : String → Enforcement}
  {l new : ActionLease} {source : String}

theorem source_eq (h : IsSourceLease adapterID l source) {source' : String}
    (ht : l.target = "source:" ++ source') : source' = source :=
  (String.append_right_inj "source:").mp (ht.symm.trans h.target)

theorem weaken (h : Coherent adapterID due between t token enforced) (hdue : due ⊆ due')
    (hb : ∀ target, between target → between' target) :
    Coherent adapterID due' between' t token enforced where
  row := h.row
  token_inj := h.token_inj
  held target ht hn := h.held target ht fun hh => hn (hb target hh)
  free l hl hs hd := h.free l hl hs fun hh => hd (hdue hh)
  enforces := h.enforces

theorem write (h : Coherent adapterID due between t token enforced) (hw : Writes t new t')
    (hdue : ∀ l ∈ due, l.leaseID ≠ new.leaseID → l ∈ due')
    (hrow : ∃ source, IsSourceLease adapterID new source)
    (htoken : ∀ l ∈ t, l.fencingToken = new.fencingToken → l.leaseID = new.leaseID)
    (hheld : ∀ l ∈ t, l.leaseID = new.leaseID → l.status = .active → token l.target = l.fencingToken →
      ¬ between l.target → new.status = .active ∧ new.target = l.target ∧
        new.fencingToken = l.fencingToken)
    (hfree : new.status = .active → new ∉ due' → token new.target ≠ "")
    (henf : new.status = .active → token new.target = new.fencingToken →
      new.Enforces (enforced (new.metadata.get "target_value"))) :
    Coherent adapterID due' between t' token enforced where
  row l hl := by
    rcases (hw l).mp hl with rfl | ⟨hl, _⟩
    · exact hrow
    · exact h.row l hl
  token_inj l hl l' hl' heq := by
    rcases (hw l).mp hl with rfl | ⟨hl, hne⟩ <;> rcases (hw l').mp hl' with rfl | ⟨hl', hne'⟩
    · rfl
    · exact absurd (htoken l' hl' heq.symm) hne'
    · exact absurd (htoken l hl heq) hne
    · exact h.token_inj l hl l' hl' heq
  held target ht hn := by
    obtain ⟨l, hl, hs, rfl, hk⟩ := h.held target ht hn
    by_cases hid : l.leaseID = new.leaseID
    · obtain ⟨hs', ht', hk'⟩ := hheld l hl hid hs hk.symm hn
      exact ⟨new, (hw new).mpr (.inl rfl), hs', ht', hk'.trans hk⟩
    · exact ⟨l, (hw l).mpr (.inr ⟨hl, hid⟩), hs, rfl, hk⟩
  free l hl hs hd := by
    rcases (hw l).mp hl with rfl | ⟨hl, hne⟩
    · exact hfree hs hd
    · exact h.free l hl hs fun hh => hd (hdue l hh hne)
  enforces l hl hs hk := by
    rcases (hw l).mp hl with rfl | ⟨hl, _⟩
    · exact henf hs hk
    · exact h.enforces l hl hs hk

theorem retire (h : Coherent adapterID due between t token enforced) (hl : l ∈ t)
    (hw : Writes t new t') (hid : new.leaseID = l.leaseID)
    (hrow : IsSourceLease adapterID l source → IsSourceLease adapterID new source)
    (hk : new.fencingToken = l.fencingToken) (hs : new.status ≠ .active)
    (hnot : token l.target = l.fencingToken → between l.target)
    (hdue : ∀ x ∈ due, x.leaseID ≠ new.leaseID → x ∈ due')
    (hsource : IsSourceLease adapterID l source) :
    Coherent adapterID due' between t' token enforced := by
  refine h.write hw hdue ⟨source, hrow hsource⟩ ?_ ?_ (fun hh => absurd hh hs) (fun hh => absurd hh hs)
  · intro x hx hxk
    rw [h.token_inj x hx l hl (hxk.trans hk), hid]
  · intro x hx hxid _ hxk hxb
    obtain rfl := Keyed.Table.eq_of_key_eq hx hl (hxid.trans hid)
    exact absurd (hnot hxk) hxb

/-- The PEP applies a lease: its token comes into force on its target, and its source is moved. -/
theorem apply (h : Coherent adapterID due between t token enforced) (hb : between l.target)
    (hsource : IsSourceLease adapterID l source)
    (hother : ∀ x ∈ t, x.status = .active → x.fencingToken ≠ l.fencingToken)
    (htoken : ∀ target, token' target = if target = l.target then l.fencingToken else token target)
    (henf : ∀ s, s ≠ source → enforced' s = enforced s) :
    Coherent adapterID due between t token' enforced' where
  row := h.row
  token_inj := h.token_inj
  held target ht hn := by
    have hne : target ≠ l.target := fun hh => hn (hh ▸ hb)
    rw [htoken, if_neg hne] at ht ⊢
    exact h.held target ht hn
  free x hx hs hd := by
    rw [htoken]
    split_ifs
    · exact hsource.token
    · exact h.free x hx hs hd
  enforces x hx hs hk := by
    obtain ⟨s, hxs⟩ := h.row x hx
    by_cases ht : x.target = l.target
    · rw [htoken, if_pos ht] at hk
      exact absurd hk.symm (hother x hx hs)
    · rw [htoken, if_neg ht] at hk
      have hne : s ≠ source := by
        rintro rfl
        exact ht (hxs.target.trans hsource.target.symm)
      have hh := h.enforces x hx hs hk
      rw [hxs.value] at hh ⊢
      rwa [henf s hne]

/-- The applied lease is active, so its target is between leases no more. -/
theorem settle (h : Coherent adapterID due between t token enforced)
    (hheld : ∀ target, between target → ¬ between' target →
      ∃ l ∈ t, l.status = .active ∧ l.target = target ∧ l.fencingToken = token target) :
    Coherent adapterID due between' t token enforced where
  row := h.row
  token_inj := h.token_inj
  held target ht hn := by
    by_cases hb : between target
    · exact hheld target hb hn
    · exact h.held target ht hb
  free := h.free
  enforces := h.enforces

/-- A target is released and its source moved: no lease may remain on it but those due. -/
theorem release (h : Coherent adapterID due between t token enforced)
    (hsource : IsSourceLease adapterID l source)
    (hdue : ∀ x ∈ t, x.status = .active → x.target = l.target → x ∈ due)
    (htoken : ∀ target, token' target = if target = l.target then "" else token target)
    (henf : ∀ s, s ≠ source → enforced' s = enforced s) :
    Coherent adapterID due between t token' enforced' where
  row := h.row
  token_inj := h.token_inj
  held target ht hn := by
    rw [htoken] at ht
    by_cases hh : target = l.target
    · simp [hh] at ht
    · rw [if_neg hh] at ht
      obtain ⟨x, hx⟩ := h.held target ht hn
      exact ⟨x, by rwa [htoken, if_neg hh]⟩
  free x hx hs hd := by
    rw [htoken]
    split_ifs with hh
    · exact absurd (hdue x hx hs hh) hd
    · exact h.free x hx hs hd
  enforces x hx hs hk := by
    obtain ⟨s, hxs⟩ := h.row x hx
    by_cases ht : x.target = l.target
    · rw [htoken, if_pos ht] at hk
      exact absurd hk.symm hxs.token
    · rw [htoken, if_neg ht] at hk
      have hne : s ≠ source := by
        rintro rfl
        exact ht (hxs.target.trans hsource.target.symm)
      have hh := h.enforces x hx hs hk
      rw [hxs.value] at hh ⊢
      rwa [henf s hne]

/-- A source is moved with no lease written: the leases in force on it must stand for the move. -/
theorem move (h : Coherent adapterID due between t token enforced)
    (hkeep : ∀ x ∈ t, x.status = .active → x.target = "source:" ++ source →
      token x.target = x.fencingToken → x.Enforces (enforced' source))
    (henf : ∀ s, s ≠ source → enforced' s = enforced s) :
    Coherent adapterID due between t token enforced' where
  row := h.row
  token_inj := h.token_inj
  held := h.held
  free := h.free
  enforces x hx hs hk := by
    obtain ⟨s, hxs⟩ := h.row x hx
    rw [hxs.value]
    by_cases hne : s = source
    · subst hne
      exact hkeep x hx hs hxs.target hk
    · have hh := h.enforces x hx hs hk
      rw [hxs.value] at hh
      rwa [henf s hne]

end Coherent

end Kernloom
