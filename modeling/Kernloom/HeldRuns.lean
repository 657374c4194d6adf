import Kernloom.HeldEnforcement

/-! The sweep, the reconciliation after a restart, and whole runs over a PEP that records its
tokens: any order of calls, any failures, a crash anywhere. -/

namespace Kernloom

open Effects Effects.Program LeaseTable Transition

section Sweep

variable {b : Broker} {w : World Held} {targets : String → Prop} {l : ActionLease}

/-- A revert keeps every enforcement journaled; when it reports no failure, what was live stays
live. -/
theorem wp_revert_held (h : Journaled w) (hlive : LiveOn targets w) (hrow : RowOf w.leases l) :
    wp heldEnv Journaled
      (fun ret w' => Journaled w' ∧ KeepsRows w.leases w'.leases ∧ (ret.err = none → LiveOn targets w'))
      (b.revert l) w := by
  obtain ⟨row, hmem, hid, ht, hf⟩ := hrow
  -- a failure is written whatever the lease holds, a conflict only when it holds nothing
  have hfailed : ∀ err now receipt (post : Broker.RevertReturn), post = { receipt, err := some err } →
      wp heldEnv Journaled (fun ret w' => Journaled w' ∧ KeepsRows w.leases w'.leases ∧
          (ret.err = none → LiveOn targets w'))
        (call (BrokerOp.store (.updateStatus { l with
          status := .failed, lastError := err, revertedAt := some now })) fun _ => ret post) w := by
    rintro err now receipt _ rfl
    refine wp_updateStatus hmem hid fun ans t' hw => ?_
    have hj := h.setStatus hmem hw fun _ => .inr (.inr (.inl rfl))
    exact ⟨hj, hj, KeepsRows.setStatus hmem hw, by simp⟩
  simp only [Broker.revert, perform_bind, wp_now, wp_pep]
  refine ⟨h, ?_⟩
  intro ans pep hpep
  obtain ⟨rfl, hans⟩ := hpep
  refine ⟨h, ?_⟩
  obtain ⟨err, rfl⟩ | ⟨k, rfl, hk⟩ := hans
  · exact hfailed _ _ _ _ rfl
  dsimp only
  by_cases hcur : k = l.fencingToken
  · rw [if_neg (not_not.mpr hcur)]
    refine wp_pep.mpr fun ans pep hpep => ?_
    rcases hpep with ⟨rfl, rfl⟩ | ⟨err, rfl, rfl⟩
    · have hnone : Function.update w.pep l.target none row.target = none := by rw [ht]; simp
      have hj : Journaled { w with pep := Function.update w.pep l.target none } := by
        intro x
        by_cases hx : x = l.target
        · exact HeldBy.of_none (by simp [hx])
        · exact (h x).congr (by simp [hx])
      have hl : LiveOn targets { w with pep := Function.update w.pep l.target none } := by
        intro x hxt
        by_cases hx : x = l.target
        · exact HeldBy.of_none (by simp [hx])
        · exact (hlive x hxt).congr (by simp [hx])
      refine ⟨hj, wp_updateStatus hmem hid fun ans t' hw => ?_⟩
      have hj' := hj.setStatus hmem hw fun hh => by simp [hnone] at hh
      have hl' := hl.setStatus hmem hw fun _ hh => by simp [hnone] at hh
      refine ⟨hj', ?_⟩
      rcases ans with err | _
      · exact ⟨hj', KeepsRows.setStatus hmem hw, by simp⟩
      · exact ⟨hj', KeepsRows.setStatus hmem hw, fun _ => hl'⟩
    · exact ⟨h, hfailed _ _ _ _ rfl⟩
  · rw [if_pos hcur]
    have hnot : w.pep row.target ≠ some row.fencingToken := by
      rw [ht, hf]
      exact fun hh => hcur (hk _ hh)
    refine wp_updateStatus hmem hid fun ans t' hw => ?_
    have hj := h.setStatus hmem hw fun hh => absurd hh hnot
    have hl := hlive.setStatus hmem hw fun _ => hnot
    refine ⟨hj, ?_⟩
    rcases ans with err | _
    · exact ⟨hj, KeepsRows.setStatus hmem hw, by simp⟩
    · exact ⟨hj, KeepsRows.setStatus hmem hw, fun _ => hl⟩

theorem wp_revertAll_held {leases : List ActionLease} (receipts : List EnforcementReceipt)
    (h : Journaled w) (hlive : LiveOn targets w) (hrows : ∀ l ∈ leases, RowOf w.leases l) :
    wp heldEnv Journaled (fun ret w' => Journaled w' ∧ (ret.err = none → LiveOn targets w'))
      (b.revertAll receipts leases) w := by
  induction leases generalizing w receipts targets with
  | nil => exact ⟨h, fun _ => hlive⟩
  | cons l rest ih =>
    simp only [Broker.revertAll, wp_bind]
    refine wp_mono (wp_revert_held h hlive (hrows l List.mem_cons_self)) ?_
    rintro ⟨receipt, err⟩ w' ⟨hj, hkeep, hdone⟩
    cases err with
    | some err => exact ⟨hj, by simp⟩
    | none => exact ih _ hj (hdone rfl) fun x hx => (hrows x (List.mem_cons_of_mem _ hx)).keeps hkeep

theorem wp_revertExpired_held {now : Time} (h : Journaled w) (hlive : LiveOn targets w) :
    wp heldEnv Journaled (fun ret w' => Journaled w' ∧ (ret.err = none → LiveOn targets w'))
      (b.revertExpired now) w := by
  simp only [Broker.revertExpired, perform_bind]
  refine wp_store.mpr fun f _ => ?_
  rw [StoreOp.handleWith_snd_of_isRead (show StoreOp.isRead (.listExpired now) from trivial)]
  refine ⟨h, ?_⟩
  cases f with
  | none =>
    exact wp_revertAll_held [] h hlive fun l hl => RowOf.of_mem (mem_listExpiredActionLeases.mp hl).1
  | before err | after err => exact ⟨h, by simp⟩

end Sweep

section Reconcile

variable {b : Broker} {w : World Held} {now : Time}

/-- What is known while the leases found pending are marked failed: the receipts written account
for those already marked. -/
structure Reconciling (w₀ : World Held) (receipts : List EnforcementReceipt) (rest : List ActionLease)
    (w : World Held) : Prop where
  journaled : Journaled w
  pep : w.pep = w₀.pep
  rows : KeepsRows w₀.leases w.leases
  active : ∀ l ∈ w₀.leases, l.status = .active → l ∈ w.leases
  pending : ∀ l ∈ w₀.leases, l.status = .pending → l ∈ rest ∨ ∃ receipt ∈ receipts,
    receipt.status = .failed ∧ receipt.target = l.target ∧ receipt.fencingToken = l.fencingToken

theorem wp_failAll_held {w₀ : World Held} {rest : List ActionLease} {receipts : List EnforcementReceipt}
    (h : Reconciling w₀ receipts rest w) (hrest : ∀ l ∈ rest, l ∈ w₀.leases ∧ l.status = .pending) :
    wp heldEnv Journaled
      (fun ret w' => Journaled w' ∧ (ret.err = none → Reconciling w₀ ret.receipts [] w'))
      (b.failAll now receipts rest) w := by
  induction rest generalizing w receipts with
  | nil => exact ⟨h.journaled, fun _ => h⟩
  | cons l rest ih =>
    obtain ⟨hl, hs⟩ := hrest l List.mem_cons_self
    obtain ⟨row, hrow, hid, ht, hf⟩ := (RowOf.of_mem hl).keeps h.rows
    simp only [Broker.failAll, perform_bind]
    refine wp_updateStatus hrow hid fun ans t' hw => ?_
    have hj := h.journaled.setStatus hrow hw fun _ => .inr (.inr (.inl rfl))
    refine ⟨hj, ?_⟩
    rcases ans with err | _
    · exact ⟨hj, by simp⟩
    refine ih ⟨hj, h.pep, h.rows.trans (KeepsRows.setStatus hrow hw), fun x hx hxs => ?_, fun x hx hxs => ?_⟩
      fun x hx => hrest x (List.mem_cons_of_mem _ hx)
    · have hne : x.leaseID ≠ row.leaseID := by
        intro hh
        obtain rfl := Keyed.Table.eq_of_key_eq hx hl (hh.trans hid)
        exact absurd (hxs.symm.trans hs) (by decide)
      rcases hw with ⟨rfl, _⟩ | hw
      · exact h.active x hx hxs
      · exact (hw x).mpr (.inr ⟨h.active x hx hxs, hne⟩)
    · rcases h.pending x hx hxs with hin | ⟨receipt, hreceipt, hh⟩
      · rcases List.mem_cons.mp hin with rfl | hin
        · exact .inr ⟨_, List.mem_append_right _ List.mem_cons_self, rfl, rfl, rfl⟩
        · exact .inl hin
      · exact .inr ⟨receipt, List.mem_append_left _ hreceipt, hh⟩

/-- A reconciliation that reports no failure leaves live enforcement live, except what its receipts
report as failed. -/
theorem wp_reconcilePending_held (h : Journaled w) :
    wp heldEnv Journaled
      (fun ret w' => Journaled w' ∧ (ret.err = none → ∀ x k, w.pep x = some k → LiveHeld w x →
        LiveHeld w' x ∨ ∃ receipt ∈ ret.receipts,
          receipt.status = .failed ∧ receipt.target = x ∧ receipt.fencingToken = k))
      b.reconcilePending w := by
  simp only [Broker.reconcilePending, perform_bind]
  refine wp_store.mpr fun f _ => ?_
  rw [StoreOp.handleWith_snd_of_isRead (show StoreOp.isRead (.listByStatus .pending) from trivial)]
  refine ⟨h, ?_⟩
  cases f with
  | none =>
    have hstart : Reconciling w [] (w.leases.listActionLeasesByStatus .pending) w :=
      ⟨h, rfl, KeepsRows.refl _, fun l hl _ => hl,
        fun l hl hs => .inl (mem_listActionLeasesByStatus.mpr ⟨hl, hs⟩)⟩
    refine wp_now.mpr ⟨h, wp_mono (wp_failAll_held hstart fun l hl => mem_listActionLeasesByStatus.mp hl) ?_⟩
    rintro ret w' ⟨hj, hdone⟩
    refine ⟨hj, fun herr x k hk hlive => ?_⟩
    have hrec := hdone herr
    obtain ⟨l, hl, rfl, rfl, hs | hs⟩ := hlive k hk
    · exact .inr ((hrec.pending l hl hs).resolve_left List.not_mem_nil)
    · exact .inl (HeldBy.of_mem (hrec.active l hl hs) rfl (.inr hs) (hrec.pep ▸ hk))
  | before err | after err => exact ⟨h, by simp⟩

end Reconcile

section Runs

/-- An operation of the broker, which a crash may cut short, or the passing of time. -/
inductive HeldEvent where
  | apply (ids : GeneratedIDs) (r : ActionResolution)
  | revertExpired (now : Time)
  | reconcilePending
  | clock (now : Time)

/-- No lease has the ID that an application draws. -/
def UnusedID (t : LeaseTable) (ids : GeneratedIDs) : Prop :=
  ∀ l ∈ t, l.leaseID ≠ "lease-" ++ ids.lease

instance (t : LeaseTable) (ids : GeneratedIDs) : Decidable (UnusedID t ids) :=
  inferInstanceAs (Decidable (∀ l ∈ t.rows, l.leaseID ≠ "lease-" ++ ids.lease))

def Broker.HeldStep (b : Broker) (w : World Held) : HeldEvent → World Held → Prop
  | .apply ids r, w' => UnusedID w.leases ids ∧ Stops heldEnv (b.apply ids r) w w'
  | .revertExpired now, w' => Stops heldEnv (b.revertExpired now) w w'
  | .reconcilePending, w' => Stops heldEnv b.reconcilePending w w'
  | .clock now, w' => w' = { w with clock := now }

/-- Nothing was ever applied. -/
def Untouched (w : World Held) : Prop := w.leases = Keyed.Table.empty ∧ ∀ x, w.pep x = none

variable {b : Broker} {w₀ w : World Held} {es : List HeldEvent}

theorem Untouched.journaled (h : Untouched w) : Journaled w := fun x => HeldBy.of_none (h.2 x)

theorem Journaled.step {ev : HeldEvent} {w' : World Held} (h : Journaled w) (hstep : b.HeldStep w ev w') :
    Journaled w' := by
  cases ev with
  | apply ids r => exact (wp_apply_held h hstep.1).stops h hstep.2
  | revertExpired now =>
    have hnone : LiveOn (fun _ => False) w := fun _ hx => hx.elim
    exact (wp_revertExpired_held h hnone).stops h hstep
  | reconcilePending => exact (wp_reconcilePending_held h).stops h hstep
  | clock now =>
    obtain rfl := hstep
    exact h

end Runs

section Orphaned

/-- A PEP whose calls all succeed. -/
def recordingHandle : (op : PepOp) → Held → op.Answer × Held
  | .apply l, s => (.ok l.fencingToken, Function.update s l.target (some l.fencingToken))
  | .currentFencingToken l, s => (.ok ((s l.target).getD l.fencingToken), s)
  | .revert l, s => (.ok (), Function.update s l.target none)

theorem holdStep_recordingHandle (op : PepOp) (s : Held) :
    holdStep op s (recordingHandle op s).1 (recordingHandle op s).2 := by
  cases op with
  | apply l => exact .inl ⟨_, .inr rfl, rfl, rfl⟩
  | currentFencingToken l =>
    refine ⟨rfl, .inr ⟨_, rfl, fun k hk => ?_⟩⟩
    rw [hk, Option.getD_some]
  | revert l => exact .inl ⟨rfl, rfl⟩

def limitingBroker : Broker where
  nodeID := "node-1"
  adapterID := "kliq-source-pep"
  sha256 := digestsOf
    [("kliq-source-pep|source:10.0.0.1|enforce.traffic.rate_limit|hard|decision-1|" ++
        "lease-00000000-0000-4000-8000-000000000001",
      "3a74fe4a8c76b0d1cff8180024f517506cd99c98d969b8d5d8e743ed2fa00742")]

def hardLimit : ActionResolution :=
  { decisionID := "decision-1"
    allowed := true
    requestedAction := "enforce.traffic.rate_limit"
    requestedLevel := "hard"
    executableAction := "enforce.traffic.rate_limit"
    executableLevel := "hard"
    target := { granularity := "source", value := "10.0.0.1" }
    ttl := 60 * Duration.second }

def hardLimitIDs : GeneratedIDs := ⟨"1", "00000000-0000-4000-8000-000000000001"⟩

def idleWorld : World Held := ⟨Keyed.Table.empty, 63864979200000000000, fun _ => none⟩

def runFaulty {α : Type} (p : BrokerProgram α) (faults : List Fault) (w : World Held) :
    Option (α × World Held) :=
  execWith (brokerHandle recordingHandle) p faults w

theorem stops_runFaulty {α : Type} {p : BrokerProgram α} {faults : List Fault} {w : World Held}
    (h : (runFaulty p faults w).isSome) :
    Stops heldEnv p w (((runFaulty p faults w).map Prod.snd).getD w) := by
  obtain ⟨⟨a, w'⟩, hr⟩ := Option.isSome_iff_exists.mp h
  rw [hr]
  exact (runs_of_execWith (fun _ op w' =>
    brokerStep_brokerHandle trivial holdStep_recordingHandle op w') hr).stops

/-- The write after the PEP call fails, so the lease stays pending although its enforcement is held. -/
def unrecordedFaults : List Fault := List.replicate 19 .none ++ [.before "disk full"]

def unrecordedWorld : World Held :=
  ((runFaulty (limitingBroker.apply hardLimitIDs hardLimit) unrecordedFaults idleWorld).map
    Prod.snd).getD idleWorld

def reconciledWorld : World Held :=
  ((runFaulty limitingBroker.reconcilePending [.none, .none, .none] unrecordedWorld).map
    Prod.snd).getD unrecordedWorld

theorem reconciled_facts :
    (runFaulty (limitingBroker.apply hardLimitIDs hardLimit) unrecordedFaults idleWorld).isSome ∧
    (runFaulty limitingBroker.reconcilePending [.none, .none, .none] unrecordedWorld).isSome ∧
    reconciledWorld.pep "source:10.0.0.1" = some "3a74fe4a8c76b0d1cff8180024f51750" ∧
    ∀ l ∈ reconciledWorld.leases.rows, l.status = .failed := by
  decide +kernel

theorem reconciled_run : Run limitingBroker.HeldStep idleWorld
    [.apply hardLimitIDs hardLimit, .reconcilePending] reconciledWorld := by
  obtain ⟨happly, hreconcile, -, -⟩ := reconciled_facts
  exact .cons ⟨by decide, stops_runFaulty happly⟩ (.singleton (stops_runFaulty hreconcile))

theorem untouched_idleWorld : Untouched idleWorld := ⟨rfl, fun _ => rfl⟩

end Orphaned

end Kernloom
