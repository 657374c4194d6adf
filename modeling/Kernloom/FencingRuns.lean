import Kernloom.FencedPEP
import Kernloom.LeaseJournal
import Kernloom.Transition

/-! Applications, reverts and restarts in any order: a revert reaches the adapter only for the
lease last applied to its target, as long as no token is missing. -/

namespace Kernloom

open Effects Effects.Program LeaseTable Transition

section Fencing

variable {κ χ ξ : Type} {p : FencedPEP κ χ ξ} {x : ξ} {b : Broker} {w : World (Logged κ)}
  {l : ActionLease}

abbrev FencedPEP.env (p : FencedPEP κ χ ξ) (x : ξ) : Environment BrokerOp BrokerOp.Answer (World (Logged κ)) :=
  brokerStep anyFault (answers (p.handleLogged x))

/-- Leases are told apart by their tokens, a lease that was applied has a row, and the token of a
target is that of the lease last applied to it. -/
structure FencedPEP.Coherent (p : FencedPEP κ χ ξ) (w : World (Logged κ)) : Prop where
  token_inj : ∀ l ∈ w.leases, ∀ l' ∈ w.leases, l.fencingToken = l'.fencingToken → l.leaseID = l'.leaseID
  row : ∀ l, .enforced l ∈ w.pep.log → RowOf w.leases l
  last : ∀ key, (p.tokens w.pep.pep).get key ≠ "" → ∃ l, lastApplied key w.pep.log = some l ∧
    l.fencingToken = (p.tokens w.pep.pep).get key
  fenced : Fenced w.pep.log

namespace FencedPEP.Coherent

theorem keeps {t' : LeaseTable} (h : p.Coherent w) (hk : KeepsRows w.leases t') :
    p.Coherent { w with leases := t' } where
  token_inj l hl l' hl' htoken := by
    obtain ⟨row, hrow, hid, _, hf⟩ := hk.rowOf hl
    obtain ⟨row', hrow', hid', _, hf'⟩ := hk.rowOf hl'
    exact hid.symm.trans ((h.token_inj row hrow row' hrow' (hf.trans (htoken.trans hf'.symm))).trans hid')
  row l hl := (h.row l hl).keeps hk
  last := h.last
  fenced := h.fenced

theorem insert {t' : LeaseTable} (h : p.Coherent w) (hw : Writes w.leases l t')
    (hfresh : Fresh w.leases l) : p.Coherent { w with leases := t' } where
  token_inj y hy z hz htoken := by
    rcases (hw y).mp hy with rfl | ⟨hy, _⟩ <;> rcases (hw z).mp hz with rfl | ⟨hz, _⟩
    · rfl
    · exact absurd htoken.symm (hfresh.token z hz)
    · exact absurd htoken (hfresh.token y hy)
    · exact h.token_inj y hy z hz htoken
  row y hy := by
    obtain ⟨row, hrow, hh⟩ := h.row y hy
    exact ⟨row, (hw row).mpr (.inr ⟨hrow, hfresh.id row hrow⟩), hh⟩
  last := h.last
  fenced := h.fenced

theorem apply (h : p.Coherent w) (hl : RowOf w.leases l) :
    p.Coherent { w with pep := (p.handleLogged x (.apply l) w.pep).2 } := by
  cases hr : (p.handle x (.apply l) w.pep.pep).1 with
  | error err =>
    have htokens := p.apply_error hr
    refine ⟨h.token_inj, ?_, ?_, ?_⟩ <;>
      simp only [FencedPEP.handleLogged, FencedPEP.record, hr, htokens]
    exacts [h.row, h.last, h.fenced]
  | ok k =>
    have htokens := p.apply_ok hr
    refine ⟨h.token_inj, ?_, ?_, ?_⟩ <;>
      simp only [FencedPEP.handleLogged, FencedPEP.record, hr, htokens]
    · intro y hy
      rcases List.mem_cons.mp hy with hy | hy
      · exact FencingEvent.enforced.inj hy ▸ hl
      · exact h.row y hy
    · intro key hkey
      rw [FencingTokens.get_setCurrent] at hkey ⊢
      by_cases hh : key = leaseFencingKey l
      · rw [if_pos hh]
        exact ⟨l, by rw [lastApplied, if_pos hh.symm], rfl⟩
      · rw [if_neg hh] at hkey ⊢
        obtain ⟨y, hy, hyk⟩ := h.last key hkey
        exact ⟨y, by rwa [lastApplied, if_neg fun hh' => hh hh'.symm], hyk⟩
    · exact h.fenced

theorem revert (h : p.Coherent w) (hlast : IsLastApplied l w.pep.log) :
    p.Coherent { w with pep := (p.handleLogged x (.revert l) w.pep).2 } := by
  have hget : ∀ key, (p.tokens (p.handle x (.revert l) w.pep.pep).2).get key ≠ "" →
      (p.tokens (p.handle x (.revert l) w.pep.pep).2).get key = (p.tokens w.pep.pep).get key := by
    intro key hkey
    rcases p.revert_tokens x l w.pep.pep with htokens | htokens
    · rw [htokens, FencingTokens.get_clearCurrent] at hkey ⊢
      split_ifs at hkey ⊢ with hclear
      · exact absurd rfl hkey
      · rfl
    · rw [htokens]
  have hlog : (p.handleLogged x (.revert l) w.pep).2.log = w.pep.log ∨
      (p.handleLogged x (.revert l) w.pep).2.log = .deEnforced l :: w.pep.log := by
    simp only [FencedPEP.handleLogged, FencedPEP.record]
    split_ifs
    · exact .inr rfl
    · exact .inl rfl
  refine ⟨h.token_inj, fun y hy => ?_, fun key hkey => ?_, ?_⟩
  · rcases hlog with hlog | hlog <;> simp only [hlog] at hy
    · exact h.row y hy
    · exact h.row y (by simpa using hy)
  · have hsame := hget key hkey
    obtain ⟨y, hy, hyk⟩ := h.last key (hsame ▸ hkey)
    refine ⟨y, ?_, hyk.trans hsame.symm⟩
    rcases hlog with hlog | hlog <;> simp only [hlog] <;> exact hy
  · rcases hlog with hlog | hlog <;> simp only [hlog]
    · exact h.fenced
    · exact ⟨hlast, h.fenced⟩

/-- The token of a lease is in force only if the lease is the one last applied to its target. -/
theorem isLastApplied (h : p.Coherent w) (hl : RowOf w.leases l)
    (hkey : (p.tokens w.pep.pep).get (leaseFencingKey l) ≠ "")
    (hk : (p.tokens w.pep.pep).current l = l.fencingToken) : IsLastApplied l w.pep.log := by
  rw [FencingTokens.current, if_pos hkey] at hk
  obtain ⟨y, hy, hyk⟩ := h.last _ hkey
  obtain ⟨row, hrow, hid, _, hf⟩ := hl
  obtain ⟨row', hrow', hid', _, hf'⟩ := h.row y (mem_of_lastApplied hy).1
  have hsame : row'.leaseID = row.leaseID :=
    h.token_inj row' hrow' row hrow (hf'.trans (hyk.trans (hk.trans hf.symm)))
  rw [IsLastApplied, hy, Option.map_some, ← hid', hsame, hid]

end FencedPEP.Coherent

/-- Calls for what has a row keep the rows and the coherence of the tokens. -/
theorem wp_journal {α : Type} {t : LeaseTable} {prog : BrokerProgram α}
    (hp : Uses (JournalOps t) (JournalAnswers t) prog) (h : p.Coherent w) (hk : KeepsRows t w.leases) :
    wp (p.env x) (fun _ => True) (fun _ w' => p.Coherent w' ∧ KeepsRows t w'.leases) prog w := by
  refine wp_crash (wp_of_uses (I := fun w' => p.Coherent w' ∧ KeepsRows t w'.leases) hp ⟨h, hk⟩ ?_)
    fun _ _ => trivial
  rintro op w r w' hop ⟨h, hk⟩ hstep
  cases op with
  | now =>
    obtain ⟨rfl, rfl⟩ := hstep
    exact ⟨trivial, h, hk⟩
  | store op =>
    obtain ⟨f, _, rfl, rfl⟩ := hstep
    cases op with
    | upsert l =>
      refine ⟨trivial, ?_⟩
      obtain ⟨row, hrow, hid, ht, hf⟩ := RowOf.keeps hop hk
      have hkeep : KeepsRows w.leases (StoreOp.handleWith (.upsert l) f w.leases).2 :=
        KeepsRows.write hrow (upsert_outcome _ _ _) hid.symm ht.symm hf.symm
      exact ⟨h.keeps hkeep, hk.trans hkeep⟩
    | updateStatus l =>
      have hkeep := keepsRows_updateStatus w.leases l f
      exact ⟨trivial, h.keeps hkeep, hk.trans hkeep⟩
    | findActive adapterID target action level =>
      rw [StoreOp.handleWith_snd_of_isRead (show StoreOp.isRead (.findActive adapterID target action level) from trivial)]
      refine ⟨?_, h, hk⟩
      cases hr : (StoreOp.handleWith (.findActive adapterID target action level) f w.leases).1 with
      | error err => exact trivial
      | ok found =>
        cases found with
        | none => exact trivial
        | some l => exact hk.rowOf (findActiveActionLease_spec (StoreOp.findActive_ok hr)).1
    | listByStatus status =>
      rw [StoreOp.handleWith_snd_of_isRead (show StoreOp.isRead (.listByStatus status) from trivial)]
      exact ⟨trivial, h, hk⟩
    | listExpired now =>
      rw [StoreOp.handleWith_snd_of_isRead (show StoreOp.isRead (.listExpired now) from trivial)]
      exact ⟨trivial, h, hk⟩
  | pep op =>
    obtain ⟨pep, hans, rfl⟩ := hstep
    obtain ⟨rfl, rfl⟩ := Prod.mk.inj hans
    cases op with
    | apply l => exact ⟨trivial, h.apply (RowOf.keeps hop hk), hk⟩
    | currentFencingToken l =>
      refine ⟨trivial, ?_⟩
      simp only [FencedPEP.record, p.current_eq]
      exact ⟨h, hk⟩
    | revert l => exact hop.elim

theorem wp_createLease_fenced {receipt : EnforcementReceipt} {now : Time} (h : p.Coherent w)
    (hfresh : Fresh w.leases l) :
    wp (p.env x) (fun _ => True) (fun _ w' => p.Coherent w') (b.createLease l receipt now) w := by
  have hnext := fun t hl => @uses_createLease b t l receipt now _ rfl hl
  refine wp_upsert fun ans t' hw => ⟨trivial, ?_⟩
  rcases hw with ⟨rfl, hans⟩ | hw
  · rcases ans with err | ⟨⟩
    · exact h
    · exact absurd rfl hans
  · have hrow : RowOf t' l := RowOf.of_mem ((hw l).mpr (.inl rfl))
    exact wp_mono (wp_journal (hnext t' hrow ans) (h.insert hw hfresh) (KeepsRows.refl t')) fun _ _ hh => hh.1

theorem wp_apply_fenced {ids : GeneratedIDs} {r : ActionResolution} (h : p.Coherent w)
    (hfresh : Fresh w.leases (nextLease b ids r)) :
    wp (p.env x) (fun _ => True) (fun _ w' => p.Coherent w') (b.apply ids r) w := by
  refine wp_apply trivial (fun _ _ => h) fun _ _ _ _ receipt => ?_
  have hrenew : Uses (JournalOps w.leases) (JournalAnswers w.leases) (b.renewActiveLease r
      (Broker.decisionIDFor ids r) (targetString r.target) (b.leaseMetadata r) w.clock) :=
    (uses_renewActiveLease _ _ _ _ _).mono (fun _ => RenewalOps.journalOps) fun _ _ hh => hh
  refine wp_mono (wp_journal hrenew h (KeepsRows.refl _)) ?_
  rintro ⟨lease, renewed, skipReason, err⟩ w' ⟨h', hk⟩
  cases err with
  | some err => exact h'
  | none =>
    simp only [Broker.afterRenewal]
    split_ifs
    · exact h'
    · exact h'
    · have hnew : Fresh w'.leases (nextLease b ids r) := hfresh.keeps hk
      exact wp_createLease_fenced h' ⟨hnew.nonempty, hnew.id, hnew.token⟩

/-- A revert reaches the adapter only for the lease last applied; any other lease is in conflict. -/
theorem wp_revert_fenced (h : p.Coherent w) (hl : RowOf w.leases l)
    (hkept : (p.tokens w.pep.pep).get (leaseFencingKey l) ≠ "" ∨ IsLastApplied l w.pep.log) :
    wp (p.env x) (fun _ => True)
      (fun ret w' => p.Coherent w' ∧ (¬ IsLastApplied l w.pep.log →
        w'.pep.log = w.pep.log ∧ ret.receipt.status = .conflict ∧
          (ret.err = none → ∃ row ∈ w'.leases, row.leaseID = l.leaseID ∧ row.status = .conflict)))
      (b.revert l) w := by
  obtain ⟨row, hrow, hid, _, _⟩ := id hl
  simp only [Broker.revert, perform_bind, wp_now, wp_pep]
  have hread : p.handleLogged x (.currentFencingToken l) w.pep =
      (.ok ((p.tokens w.pep.pep).current l), w.pep) := by
    simp only [FencedPEP.handleLogged, FencedPEP.record, p.current_eq]
  refine ⟨trivial, fun ans pep hpep => ⟨trivial, ?_⟩⟩
  obtain ⟨rfl, rfl⟩ := Prod.mk.inj (hread.symm.trans hpep)
  dsimp only
  by_cases hcur : (p.tokens w.pep.pep).current l = l.fencingToken
  · have hlast : IsLastApplied l w.pep.log := hkept.elim (h.isLastApplied hl · hcur) id
    rw [if_neg (not_not.mpr hcur)]
    refine wp_pep.mpr fun ans pep hpep => ⟨trivial, ?_⟩
    obtain ⟨-, rfl⟩ := Prod.mk.inj hpep
    have h' : p.Coherent _ := h.revert (x := x) hlast
    cases ans with
    | error err =>
      refine wp_store.mpr fun f _ => ⟨trivial, h'.keeps (keepsRows_updateStatus _ _ f), fun hn => absurd hlast hn⟩
    | ok _ =>
      refine wp_store.mpr fun f _ => ⟨trivial, ?_⟩
      have h'' := h'.keeps (keepsRows_updateStatus w.leases { l with
        status := .reverted, revertedAt := some w.clock } f)
      split <;> exact ⟨h'', fun hn => absurd hlast hn⟩
  · rw [if_pos hcur]
    refine wp_updateStatus hrow hid fun ans t' hw => ⟨trivial, ?_⟩
    have h' := h.keeps (KeepsRows.write hrow hw rfl rfl rfl)
    rcases ans with err | _
    · exact ⟨h', fun _ => ⟨rfl, rfl, by simp⟩⟩
    · have hw := hw.resolve_left fun hh => hh.2 rfl
      exact ⟨h', fun _ => ⟨rfl, rfl, fun _ => ⟨_, (hw _).mpr (.inl rfl), hid, rfl⟩⟩⟩

end Fencing

section Runs

/-- An application, a revert of a lease written before, a restart, or the passing of time. -/
inductive FencingStep (χ ξ : Type) where
  | apply (ctx : χ) (x : ξ) (ids : GeneratedIDs) (r : ActionResolution)
  | revert (x : ξ) (l : ActionLease)
  | restart
  | clock (now : Time)

variable {κ χ ξ : Type}

def World.mapPep (f : κ → κ) (w : World (Logged κ)) : World (Logged κ) :=
  { w with pep := { w.pep with pep := f w.pep.pep } }

namespace FencedPEP

variable (p : FencedPEP κ χ ξ) (b : Broker)

def Step (w : World (Logged κ)) : FencingStep χ ξ → World (Logged κ) → Prop
  | .apply ctx x ids r, w' => Fresh w.leases (nextLease b ids r) ∧
    ∃ ret w₁, Runs (p.env x) (b.apply ids r) (w.mapPep (p.begin ctx)) ret w₁ ∧ w' = w₁.mapPep p.finish
  | .revert x l, w' => RowOf w.leases l ∧ ∃ ret, Runs (p.env x) (b.revert l) w ret w'
  | .restart, w' => w' = w.mapPep p.restart
  | .clock now, w' => w' = { w with clock := now }

def Initial (w : World (Logged κ)) : Prop :=
  w.leases = Keyed.Table.empty ∧ p.tokens w.pep.pep = ∅ ∧ w.pep.log = []

/-- The PEP has a token for the target of a lease it is to revert, or that lease is the last. -/
def TokenKept (w : World (Logged κ)) : FencingStep χ ξ → Prop
  | .revert _ l => (p.tokens w.pep.pep).get (leaseFencingKey l) ≠ "" ∨ IsLastApplied l w.pep.log
  | _ => True

instance (w : World (Logged κ)) (x : ξ) (l : ActionLease) :
    Decidable (p.TokenKept w (.revert x l : FencingStep χ ξ)) :=
  inferInstanceAs (Decidable (_ ∨ IsLastApplied l w.pep.log))

/-- A lease that another replaced on its target is marked as in conflict, and its enforcement is
left alone. -/
def OlderConflicts (w : World (Logged κ)) : Prop :=
  ∀ x l ret w', RowOf w.leases l → p.TokenKept w (.revert x l) → Runs (p.env x) (b.revert l) w ret w' →
    ¬ IsLastApplied l w.pep.log → w'.pep.log = w.pep.log ∧ ret.receipt.status = .conflict ∧
      (ret.err = none → ∃ row ∈ w'.leases, row.leaseID = l.leaseID ∧ row.status = .conflict)

variable {p b} {w w₀ w' : World (Logged κ)}

theorem Initial.coherent (h : p.Initial w) : p.Coherent w := by
  obtain ⟨ht, hk, hl⟩ := h
  refine ⟨fun l hl' => ?_, fun l hl' => ?_, fun key hkey => ?_, ?_⟩
  · simp [ht] at hl'
  · simp [hl] at hl'
  · simp [hk, GoMap.get] at hkey
  · simp [hl, Fenced]

theorem Coherent.mapPep {f : κ → κ} (h : p.Coherent w)
    (hf : p.tokens (f w.pep.pep) = p.tokens w.pep.pep ∨ p.tokens (f w.pep.pep) = ∅) :
    p.Coherent (w.mapPep f) := by
  refine ⟨h.token_inj, h.row, fun key hkey => ?_, h.fenced⟩
  simp only [World.mapPep] at hkey ⊢
  rcases hf with hf | hf
  · rw [hf] at hkey ⊢
    exact h.last key hkey
  · simp [hf, GoMap.get] at hkey

theorem Step.coherent {ev : FencingStep χ ξ} (h : p.Coherent w)
    (hstep : Guarded p.TokenKept (p.Step b) w ev w') : p.Coherent w' := by
  obtain ⟨hkept, hstep⟩ := hstep
  cases ev with
  | apply ctx x ids r =>
    obtain ⟨hfresh, ret, w₁, hr, rfl⟩ := hstep
    have hbegin : p.Coherent (w.mapPep (p.begin ctx)) := h.mapPep (.inl (p.tokens_begin _ _))
    exact ((wp_apply_fenced hbegin hfresh).runs hr).mapPep (.inl (p.tokens_finish _))
  | revert x l =>
    obtain ⟨hrow, ret, hr⟩ := hstep
    exact ((wp_revert_fenced h hrow hkept).runs hr).1
  | restart =>
    obtain rfl := hstep
    exact h.mapPep (.inr (p.tokens_restart _))
  | clock now =>
    obtain rfl := hstep
    exact ⟨h.token_inj, h.row, h.last, h.fenced⟩

theorem run_fenced {es : List (FencingStep χ ξ)} (h₀ : p.Initial w₀)
    (hrun : Run (Guarded p.TokenKept (p.Step b)) w₀ es w) : Fenced w.pep.log ∧ p.OlderConflicts b w := by
  have h : p.Coherent w := hrun.invariant h₀.coherent Step.coherent
  exact ⟨h.fenced, fun x l ret w' hl hkept hr => ((wp_revert_fenced h hl hkept).runs hr).2⟩

end FencedPEP

/-- Behind either PEP, in every run in which no revert finds its token missing, only the lease last
applied to a target is ever de-enforced, and an older one is in conflict. -/
theorem reverts_only_last_applied {σ ρ : Type} (pep : SourcePEP σ)
    (relationshipPEP : RelationshipPEP ρ) (b : Broker) :
    (∀ w₀ w es, (BrokeredSourcePEP.fenced pep).Initial w₀ →
      Run (Guarded (BrokeredSourcePEP.fenced pep).TokenKept ((BrokeredSourcePEP.fenced pep).Step b)) w₀ es w →
      Fenced w.pep.log ∧ (BrokeredSourcePEP.fenced pep).OlderConflicts b w) ∧
    (∀ w₀ w es, (BrokeredRelationshipPEP.fenced relationshipPEP).Initial w₀ →
      Run (Guarded (BrokeredRelationshipPEP.fenced relationshipPEP).TokenKept
        ((BrokeredRelationshipPEP.fenced relationshipPEP).Step b)) w₀ es w →
      Fenced w.pep.log ∧ (BrokeredRelationshipPEP.fenced relationshipPEP).OlderConflicts b w) :=
  ⟨fun _ _ _ => FencedPEP.run_fenced, fun _ _ _ => FencedPEP.run_fenced⟩

end Runs

section Restarted

/-- A source adapter that carries out every transition. -/
def compliantPEP : SourcePEP Unit where
  transitionSource _ st level now p s := (.ok (applyStateFields st level now p), s)

abbrev compliantFenced : FencedPEP (BrokeredSourcePEP Unit) ApplyContext (EnforcementParams × Time) :=
  BrokeredSourcePEP.fenced compliantPEP

def escalatingBroker : Broker where
  nodeID := "node-1"
  adapterID := "kliq-source-pep"
  sha256 := digestsOf
    [("kliq-source-pep|source:10.0.0.1|enforce.traffic.rate_limit|soft|decision-1|" ++
        "lease-00000000-0000-4000-8000-000000000001",
      "58450b8a306d001894162ef6957edc3a6ab1a1e808dd0d6828494ef025e02189"),
    ("kliq-source-pep|source:10.0.0.1|enforce.traffic.rate_limit|hard|decision-2|" ++
        "lease-00000000-0000-4000-8000-000000000002",
      "3ebb039e37559cf47c6dabaae7c240374af64ca07ec8dc90bd489f4e354a27cf")]

/-- A rate limit of one minute on one source. -/
def rateLimitOf (level n : String) : ActionResolution :=
  { decisionID := "decision-" ++ n
    allowed := true
    requestedAction := "enforce.traffic.rate_limit"
    requestedLevel := level
    executableAction := "enforce.traffic.rate_limit"
    executableLevel := level
    target := { granularity := "source", value := "10.0.0.1" }
    ttl := 60 * Duration.second }

def rateLimitIDs (n : String) : GeneratedIDs := ⟨n, "00000000-0000-4000-8000-00000000000" ++ n⟩

def rateLimitContext (level n : String) : ApplyContext :=
  ⟨{ sourceID := "10.0.0.1" }, {}, rateLimitOf level n, {}, 63864979200000000000⟩

def sweepParams : EnforcementParams × Time := ({}, 63864979200000000000)

/-- The state after an application in which nothing fails. -/
def applied (level n : String) (w : World (Logged (BrokeredSourcePEP Unit))) :
    World (Logged (BrokeredSourcePEP Unit)) :=
  (exec (brokerHandle (compliantFenced.handleLogged sweepParams) .none)
    (escalatingBroker.apply (rateLimitIDs n) (rateLimitOf level n))
    (w.mapPep (compliantFenced.begin (rateLimitContext level n)))).2.mapPep compliantFenced.finish

def reverted (l : ActionLease) (w : World (Logged (BrokeredSourcePEP Unit))) :
    World (Logged (BrokeredSourcePEP Unit)) :=
  (exec (brokerHandle (compliantFenced.handleLogged sweepParams) .none) (escalatingBroker.revert l) w).2

def unfencedStart : World (Logged (BrokeredSourcePEP Unit)) :=
  ⟨Keyed.Table.empty, 63864979200000000000, { pep := { adapter := () } }⟩

def escalated : World (Logged (BrokeredSourcePEP Unit)) := applied "hard" "2" (applied "soft" "1" unfencedStart)

/-- The first lease, as the journal keeps it once the second has replaced it. -/
def softLease : ActionLease :=
  { leaseID := "lease-00000000-0000-4000-8000-000000000001"
    decisionID := "decision-1"
    nodeID := "node-1"
    adapterID := "kliq-source-pep"
    target := "source:10.0.0.1"
    action := "enforce.traffic.rate_limit"
    level := "soft"
    status := .superseded
    fencingToken := "58450b8a306d001894162ef6957edc3a"
    appliedAt := 63864979200000000000
    expiresAt := 63864979260000000000 }

theorem step_applied {level n : String} {w : World (Logged (BrokeredSourcePEP Unit))}
    (hfresh : Fresh w.leases (nextLease escalatingBroker (rateLimitIDs n) (rateLimitOf level n))) :
    compliantFenced.Step escalatingBroker w
      (.apply (rateLimitContext level n) sweepParams (rateLimitIDs n) (rateLimitOf level n)) (applied level n w) :=
  ⟨hfresh, _, _, runs_brokerHandle _ _ trivial, rfl⟩

instance (t : LeaseTable) (l : ActionLease) : Decidable (RowOf t l) :=
  inferInstanceAs (Decidable (∃ row ∈ t.rows, row.leaseID = l.leaseID ∧ row.target = l.target ∧
    row.fencingToken = l.fencingToken))

def restarted : World (Logged (BrokeredSourcePEP Unit)) :=
  reverted softLease (escalated.mapPep compliantFenced.restart)

theorem escalated_facts :
    Fresh unfencedStart.leases (nextLease escalatingBroker (rateLimitIDs "1") (rateLimitOf "soft" "1")) ∧
    Fresh (applied "soft" "1" unfencedStart).leases
      (nextLease escalatingBroker (rateLimitIDs "2") (rateLimitOf "hard" "2")) ∧
    RowOf escalated.leases softLease ∧ compliantFenced.TokenKept escalated (.revert sweepParams softLease) ∧
    RowOf (escalated.mapPep compliantFenced.restart).leases softLease ∧
    ¬ IsLastApplied softLease escalated.pep.log ∧ ¬ Fenced restarted.pep.log := by
  decide +kernel

theorem escalated_run : Run (Guarded compliantFenced.TokenKept (compliantFenced.Step escalatingBroker))
    unfencedStart [.apply (rateLimitContext "soft" "1") sweepParams (rateLimitIDs "1") (rateLimitOf "soft" "1"),
      .apply (rateLimitContext "hard" "2") sweepParams (rateLimitIDs "2") (rateLimitOf "hard" "2")] escalated :=
  .cons ⟨trivial, step_applied escalated_facts.1⟩ (.singleton ⟨trivial, step_applied escalated_facts.2.1⟩)

def absentRelationshipPEP : RelationshipPEP Unit :=
  ⟨fun _ => false, fun _ s => (.ok (), s), fun _ s => (.ok (), s)⟩

/-- Without a restart the older lease is in conflict. -/
theorem soft_conflicts : (exec (brokerHandle (compliantFenced.handleLogged sweepParams) .none)
    (escalatingBroker.revert softLease) escalated).1.receipt.status = .conflict := by
  obtain ⟨-, -, hrow, hkept, -, hlast, -⟩ := escalated_facts
  have hfenced := (reverts_only_last_applied compliantPEP absentRelationshipPEP escalatingBroker).1 _ _ _
    ⟨rfl, rfl, rfl⟩ escalated_run
  exact (hfenced.2 _ _ _ _ hrow hkept (runs_brokerHandle _ _ trivial) hlast).2.1

/-- After a restart its revert removes the enforcement of the lease that replaced it. -/
theorem soft_reverted_after_restart : ¬ ∀ w es,
    Run (compliantFenced.Step escalatingBroker) unfencedStart es w → Fenced w.pep.log := by
  intro h
  obtain ⟨-, -, -, -, hrow, -, hreverted⟩ := escalated_facts
  have hrestart : compliantFenced.Step escalatingBroker escalated .restart
      (escalated.mapPep compliantFenced.restart) := rfl
  have hrevert : compliantFenced.Step escalatingBroker (escalated.mapPep compliantFenced.restart)
      (.revert sweepParams softLease) restarted := ⟨hrow, _, runs_brokerHandle _ _ trivial⟩
  have hrun := (escalated_run.mono fun hstep => hstep.2).append (.cons hrestart (.singleton hrevert))
  exact hreverted (h _ _ hrun)

end Restarted

end Kernloom
