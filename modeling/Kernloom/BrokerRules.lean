import Kernloom.BrokerWorld

/-! Rules for the weakest preconditions of the broker's functions: the gates only read, and an
application is a renewal followed by what is left to do. -/

namespace Kernloom

open Effects Effects.Program

variable {π : Type} {faulty : Fault → Prop} {pepStep : Environment PepOp PepOp.Answer π}
  {crash : World π → Prop} {w : World π} {b : Broker}

section Writes

open LeaseTable

/-- What a write of a row may leave: nothing and an error, or the row and any answer. -/
def WriteOutcome (t : LeaseTable) (new : ActionLease) (r : Fallible Unit) (t' : LeaseTable) : Prop :=
  (t' = t ∧ r ≠ .ok ()) ∨ Writes t new t'

theorem updateStatus_outcome {t : LeaseTable} {lease row : ActionLease} (hrow : row ∈ t)
    (hid : row.leaseID = lease.leaseID) (f : Fault) :
    WriteOutcome t (setStatus lease row) (StoreOp.handleWith (.updateStatus lease) f t).1
      (StoreOp.handleWith (.updateStatus lease) f t).2 := by
  cases f with
  | none | after => exact .inr (writes_update hrow hid)
  | before err => exact .inl ⟨rfl, by simp [StoreOp.handleWith, StoreOp.fail]⟩

theorem upsert_outcome (t : LeaseTable) (lease : ActionLease) (f : Fault) :
    WriteOutcome t lease (StoreOp.handleWith (.upsert lease) f t).1
      (StoreOp.handleWith (.upsert lease) f t).2 := by
  cases f with
  | none | after => exact .inr (writes_upsert t lease)
  | before err => exact .inl ⟨rfl, by simp [StoreOp.handleWith, StoreOp.fail]⟩

/-- The IDs, targets and tokens of the rows stay. -/
def KeepsRows (t t' : LeaseTable) : Prop :=
  (∀ l ∈ t, ∃ l' ∈ t', l'.leaseID = l.leaseID ∧ l'.target = l.target ∧ l'.fencingToken = l.fencingToken) ∧
    ∀ l' ∈ t', ∃ l ∈ t, l.leaseID = l'.leaseID

theorem KeepsRows.refl (t : LeaseTable) : KeepsRows t t :=
  ⟨fun l hl => ⟨l, hl, rfl, rfl, rfl⟩, fun l hl => ⟨l, hl, rfl⟩⟩

theorem KeepsRows.trans {t t' t'' : LeaseTable} (h : KeepsRows t t') (h' : KeepsRows t' t'') :
    KeepsRows t t'' := by
  constructor
  · intro l hl
    obtain ⟨l', hl', hid, ht, hk⟩ := h.1 l hl
    obtain ⟨l'', hl'', hid', ht', hk'⟩ := h'.1 l' hl'
    exact ⟨l'', hl'', hid'.trans hid, ht'.trans ht, hk'.trans hk⟩
  · intro l'' hl''
    obtain ⟨l', hl', hid'⟩ := h'.2 l'' hl''
    obtain ⟨l, hl, hid⟩ := h.2 l' hl'
    exact ⟨l, hl, hid.trans hid'⟩

theorem KeepsRows.write {t t' : LeaseTable} {row new : ActionLease} {ans : Fallible Unit} (hrow : row ∈ t)
    (hw : WriteOutcome t new ans t') (hid : new.leaseID = row.leaseID) (ht : new.target = row.target)
    (hk : new.fencingToken = row.fencingToken) : KeepsRows t t' := by
  rcases hw with ⟨rfl, _⟩ | hw
  · exact KeepsRows.refl _
  refine ⟨fun l hl => ?_, fun l hl => ?_⟩
  · by_cases hlid : l.leaseID = new.leaseID
    · obtain rfl := Keyed.Table.eq_of_key_eq hl hrow (hlid.trans hid)
      exact ⟨new, (hw new).mpr (.inl rfl), hid, ht, hk⟩
    · exact ⟨l, (hw l).mpr (.inr ⟨hl, hlid⟩), rfl, rfl, rfl⟩
  · rcases (hw l).mp hl with rfl | ⟨hl, _⟩
    · exact ⟨row, hrow, hid.symm⟩
    · exact ⟨l, hl, rfl⟩

/-- A row of the table has the ID, the target and the token of a lease. -/
def RowOf (t : LeaseTable) (l : ActionLease) : Prop :=
  ∃ row ∈ t, row.leaseID = l.leaseID ∧ row.target = l.target ∧ row.fencingToken = l.fencingToken

theorem RowOf.of_mem {t : LeaseTable} {l : ActionLease} (h : l ∈ t) : RowOf t l := ⟨l, h, rfl, rfl, rfl⟩

theorem RowOf.keeps {t t' : LeaseTable} {l : ActionLease} (h : RowOf t l) (hk : KeepsRows t t') : RowOf t' l := by
  obtain ⟨row, hrow, hid, ht, hf⟩ := h
  obtain ⟨row', hrow', hid', ht', hf'⟩ := hk.1 row hrow
  exact ⟨row', hrow', hid'.trans hid, ht'.trans ht, hf'.trans hf⟩

theorem KeepsRows.setStatus {t t' : LeaseTable} {row lease : ActionLease} {ans : Fallible Unit}
    (hrow : row ∈ t) (hw : WriteOutcome t (setStatus lease row) ans t') : KeepsRows t t' :=
  KeepsRows.write hrow hw rfl rfl rfl

/-- Neither the ID nor the token of a lease is in the table. -/
structure Fresh (t : LeaseTable) (lease : ActionLease) : Prop where
  nonempty : lease.fencingToken ≠ ""
  id : ∀ l ∈ t, l.leaseID ≠ lease.leaseID
  token : ∀ l ∈ t, l.fencingToken ≠ lease.fencingToken

instance (t : LeaseTable) (lease : ActionLease) : Decidable (Fresh t lease) :=
  decidable_of_iff (lease.fencingToken ≠ "" ∧ (∀ l ∈ t.rows, l.leaseID ≠ lease.leaseID) ∧
      ∀ l ∈ t.rows, l.fencingToken ≠ lease.fencingToken)
    ⟨fun h => ⟨h.1, h.2.1, h.2.2⟩, fun h => ⟨h.nonempty, h.id, h.token⟩⟩

/-- The lease a new application would write, up to its times and metadata. -/
def nextLease (b : Broker) (ids : GeneratedIDs) (r : ActionResolution) : ActionLease :=
  b.newLease ids r (Broker.decisionIDFor ids r) (targetString r.target) ∅ 0

variable {α : Type} {post : α → World π → Prop}

theorem wp_updateStatus {lease row : ActionLease} {next : Fallible Unit → BrokerProgram α}
    (hrow : row ∈ w.leases) (hid : row.leaseID = lease.leaseID)
    (h : ∀ r t', WriteOutcome w.leases (setStatus lease row) r t' → crash { w with leases := t' } ∧
      wp (brokerStep faulty pepStep) crash post (next r) { w with leases := t' }) :
    wp (brokerStep faulty pepStep) crash post (call (BrokerOp.store (.updateStatus lease)) next) w :=
  wp_store.mpr fun f _ => h _ _ (updateStatus_outcome hrow hid f)

theorem wp_upsert {lease : ActionLease} {next : Fallible Unit → BrokerProgram α}
    (h : ∀ r t', WriteOutcome w.leases lease r t' → crash { w with leases := t' } ∧
      wp (brokerStep faulty pepStep) crash post (next r) { w with leases := t' }) :
    wp (brokerStep faulty pepStep) crash post (call (BrokerOp.store (.upsert lease)) next) w :=
  wp_store.mpr fun f _ => h _ _ (upsert_outcome w.leases lease f)

theorem wp_findActive {adapterID target action level : String}
    {next : Fallible (Option ActionLease) → BrokerProgram α} (hc : crash w)
    (herr : ∀ err, wp (brokerStep faulty pepStep) crash post (next (.error err)) w)
    (hok : wp (brokerStep faulty pepStep) crash post
      (next (.ok (w.leases.findActiveActionLease adapterID target action level))) w) :
    wp (brokerStep faulty pepStep) crash post
      (call (BrokerOp.store (.findActive adapterID target action level)) next) w := by
  refine wp_store.mpr fun f _ => ?_
  have hread : StoreOp.isRead (.findActive adapterID target action level) := trivial
  rw [StoreOp.handleWith_snd_of_isRead hread]
  refine ⟨hc, ?_⟩
  cases f with
  | none => exact hok
  | before err | after err => exact herr err

/-- What a renewal returns of a lease that it could not write, or else of what it wrote. -/
def Broker.Renewal.ofWrite (lease : ActionLease) (done : Broker.Renewal) : Fallible Unit → Broker.Renewal
  | .error err => { lease := some lease, err := some err }
  | .ok () => done

@[simp] theorem Broker.Renewal.ofWrite_error (lease : ActionLease) (done : Broker.Renewal) (err : String) :
    ofWrite lease done (.error err) = { lease := some lease, err := some err } := rfl

@[simp] theorem Broker.Renewal.ofWrite_ok (lease : ActionLease) (done : Broker.Renewal) (u : Unit) :
    ofWrite lease done (.ok u) = done := rfl

section Renewals

variable (b : Broker) (faulty : Fault → Prop) (pepStep : Environment PepOp PepOp.Answer π)
  (r : ActionResolution) (decisionID target : String) (metadata : GoMap String) (now : Time) (w : World π)

/-- Why a renewal ends the lease in force. -/
def EndsLease (existing : ActionLease) (status : LeaseStatus) (pep : π) : Prop :=
  (status = .superseded ∧ pep = w.pep ∧ executionMetadataChanged existing.metadata metadata ≠ none) ∨
    (status = .conflict ∧ ∃ token, pepStep (.currentFencingToken existing) w.pep (.ok token) pep ∧
      token ≠ existing.fencingToken)

/-- The lease in force keeps its token and what it was executed with. -/
structure Stays (existing : ActionLease) (pep : π) : Prop where
  metadata : executionMetadataChanged existing.metadata metadata = none
  token : pepStep (.currentFencingToken existing) w.pep (.ok existing.fencingToken) pep

/-- What a renewal does, and what it returns: it ends the lease in force, leaves it as it is or renews it. -/
inductive RenewalStep : Broker.Renewal → World π → Prop
  | unread {f : Fault} {err : String} : faulty f →
      (StoreOp.handleWith (.findActive b.adapterID target r.executableAction r.executableLevel) f w.leases).1 =
        .error err →
      RenewalStep { err := some err } w
  | absent :
      w.leases.findActiveActionLease b.adapterID target r.executableAction r.executableLevel = none →
      RenewalStep {} w
  | ended {existing ended : ActionLease} {pep : π} {f : Fault} :
      w.leases.findActiveActionLease b.adapterID target r.executableAction r.executableLevel = some existing →
      EndsLease pepStep metadata w existing ended.status pep →
      ended.leaseID = existing.leaseID → faulty f →
      RenewalStep (.ofWrite ended {} (StoreOp.handleWith (.updateStatus ended) f w.leases).1)
        { w with leases := (StoreOp.handleWith (.updateStatus ended) f w.leases).2, pep }
  | unasked {existing : ActionLease} {err : String} {pep : π} :
      w.leases.findActiveActionLease b.adapterID target r.executableAction r.executableLevel = some existing →
      pepStep (.currentFencingToken existing) w.pep (.error err) pep →
      RenewalStep { lease := some existing, err := some err } { w with pep }
  | spent {existing : ActionLease} {pep : π} :
      w.leases.findActiveActionLease b.adapterID target r.executableAction r.executableLevel = some existing →
      Stays pepStep metadata w existing pep →
      0 < b.maxRenewals ∧ b.maxRenewals ≤ leaseRenewalCount existing.metadata →
      RenewalStep { lease := some existing, renewed := true, skipReason := "autonomy_max_renewals_exceeded" }
        { w with pep }
  | renewed {existing : ActionLease} {pep : π} {f : Fault} :
      w.leases.findActiveActionLease b.adapterID target r.executableAction r.executableLevel = some existing →
      Stays pepStep metadata w existing pep →
      ¬ (0 < b.maxRenewals ∧ b.maxRenewals ≤ leaseRenewalCount existing.metadata) → faulty f →
      RenewalStep
        (.ofWrite (Broker.renewed existing r decisionID metadata now)
          { lease := some (Broker.renewed existing r decisionID metadata now), renewed := true }
          (StoreOp.handleWith (.upsert (Broker.renewed existing r decisionID metadata now)) f w.leases).1)
        { w with
          leases :=
            (StoreOp.handleWith (.upsert (Broker.renewed existing r decisionID metadata now)) f w.leases).2
          pep }

end Renewals

/-- A lease that a renewal ends is not active any more. -/
theorem EndsLease.not_active {metadata : GoMap String} {existing : ActionLease} {status : LeaseStatus} {pep : π}
    (h : EndsLease pepStep metadata w existing status pep) : status ≠ .active := by
  rcases h with ⟨rfl, -⟩ | ⟨rfl, -⟩
  · simp
  · simp

theorem EndsLease.pep_eq {metadata : GoMap String} {existing : ActionLease} {status : LeaseStatus} {pep : π}
    (h : EndsLease pepStep metadata w existing status pep)
    (hreads : ∀ ans pep, pepStep (.currentFencingToken existing) w.pep ans pep → pep = w.pep) :
    pep = w.pep := by
  rcases h with ⟨-, rfl, -⟩ | ⟨-, token, hpep, -⟩
  · rfl
  · exact hreads _ _ hpep

theorem wp_ofWrite {lease : ActionLease} {done : Broker.Renewal} {ans : Fallible Unit}
    {post : Broker.Renewal → World π → Prop} : post (.ofWrite lease done ans) w →
    wp (brokerStep faulty pepStep) crash post
      (match ans with
        | .error err => return { lease := some lease, err := some err }
        | .ok () => return done) w := by
  intro h
  cases ans <;> exact h

theorem wp_renewActiveLease {r : ActionResolution} {decisionID target : String} {metadata : GoMap String}
    {now : Time} {post : Broker.Renewal → World π → Prop} (hc : crash w)
    (hasked : ∀ existing ans pep, pepStep (.currentFencingToken existing) w.pep ans pep → crash { w with pep })
    (h : ∀ renewal w', RenewalStep b faulty pepStep r decisionID target metadata now w renewal w' →
      crash w' ∧ post renewal w') :
    wp (brokerStep faulty pepStep) crash post (b.renewActiveLease r decisionID target metadata now) w := by
  simp only [Broker.renewActiveLease, perform_bind]
  refine wp_store.mpr fun f hf => ?_
  rw [StoreOp.handleWith_snd_of_isRead (show StoreOp.isRead (.findActive ..) from trivial)]
  refine ⟨hc, ?_⟩
  rcases hans : (StoreOp.handleWith (.findActive b.adapterID target r.executableAction r.executableLevel) f
    w.leases).1 with err | found
  · exact (h _ _ (.unread hf hans)).2
  have hfind := StoreOp.findActive_ok hans
  cases found with
  | none => exact (h _ _ (.absent hfind)).2
  | some existing =>
    dsimp only
    cases hchanged : executionMetadataChanged existing.metadata metadata with
    | some key =>
      let ended : ActionLease := { existing with
        status := .superseded
        lastError := "superseded by execution metadata change: " ++ key
        revertedAt := some now }
      have hends : EndsLease pepStep metadata w existing ended.status w.pep :=
        .inl ⟨rfl, rfl, by simp [hchanged]⟩
      have hid : ended.leaseID = existing.leaseID := rfl
      refine wp_store.mpr fun f hf => ?_
      obtain ⟨hcrash, hpost⟩ := h _ _ (.ended hfind hends hid hf)
      exact ⟨hcrash, wp_ofWrite hpost⟩
    | none =>
      refine wp_pep.mpr fun ans pep hpep => ⟨hasked existing ans pep hpep, ?_⟩
      rcases ans with err | currentToken
      · exact (h _ _ (.unasked hfind hpep)).2
      dsimp only
      by_cases htoken : currentToken ≠ existing.fencingToken
      · rw [if_pos htoken]
        let ended : ActionLease := { existing with
          status := .conflict
          lastError := tokenMismatch "fencing token mismatch during renewal" existing.fencingToken currentToken
          revertedAt := some now }
        have hends : EndsLease pepStep metadata w existing ended.status pep :=
          .inr ⟨rfl, currentToken, hpep, htoken⟩
        have hid : ended.leaseID = existing.leaseID := rfl
        refine wp_store.mpr fun f hf => ?_
        obtain ⟨hcrash, hpost⟩ := h _ _ (.ended hfind hends hid hf)
        exact ⟨hcrash, wp_ofWrite hpost⟩
      · rw [if_neg htoken]
        obtain rfl := not_not.mp htoken
        by_cases hspent : 0 < b.maxRenewals ∧ b.maxRenewals ≤ leaseRenewalCount existing.metadata
        · rw [if_pos hspent]
          exact (h _ _ (.spent hfind ⟨hchanged, hpep⟩ hspent)).2
        · rw [if_neg hspent]
          refine wp_store.mpr fun f hf => ?_
          obtain ⟨hcrash, hpost⟩ := h _ _ (.renewed hfind ⟨hchanged, hpep⟩ hspent hf)
          exact ⟨hcrash, wp_ofWrite hpost⟩

end Writes

section Gates

theorem wp_readsOnly {α : Type} {p : BrokerProgram α} (hp : ReadsOnly p) (hc : crash w) :
    wp (brokerStep faulty pepStep) crash (fun _ w' => w' = w) p w := by
  have hh : wp (brokerStep faulty pepStep) (fun w' => w' = w) (fun _ w' => w' = w) p w :=
    wp_of_uses hp rfl fun op s r s' hop hs hstep => ⟨trivial, ?_⟩
  · exact wp_crash (wp_mono hh fun _ _ h => h) fun t ht => by rwa [ht]
  · subst hs
    cases op with
    | now => exact hstep.2
    | store op =>
      obtain ⟨f, _, _, rfl⟩ := hstep
      simp [StoreOp.handleWith_snd_of_isRead hop]
    | pep op => exact hop.elim

theorem wp_gate {α β : Type} {p : BrokerProgram α} {next : α → BrokerProgram β}
    {post : β → World π → Prop} (hp : ReadsOnly p) (hc : crash w)
    (hnext : ∀ a, wp (brokerStep faulty pepStep) crash post (next a) w) :
    wp (brokerStep faulty pepStep) crash post (p >>= next) w := by
  rw [wp_bind]
  refine wp_mono (wp_readsOnly hp hc) ?_
  rintro a w' rfl
  exact hnext a

theorem readsOnly_find {α : Type} {adapterID target action level : String}
    {next : Fallible (Option ActionLease) → BrokerProgram α} (h : ∀ r, ReadsOnly (next r)) :
    ReadsOnly (call (BrokerOp.store (.findActive adapterID target action level)) next) :=
  ⟨trivial, fun r _ => h r⟩

theorem readsOnly_hasActiveActionLease (target action : String) (levels : List String) :
    ReadsOnly (b.hasActiveActionLease target action levels) := by
  induction levels with
  | nil => exact trivial
  | cons level levels ih =>
    refine readsOnly_find fun r => ?_
    rcases r with err | (_ | lease)
    · exact trivial
    · exact ih
    · exact trivial

theorem readsOnly_autonomyPrerequisiteDenyReason (r : ActionResolution) (target : String)
    (allowances : List AutonomyAllowance) :
    ReadsOnly (b.autonomyPrerequisiteDenyReason r target allowances) := by
  induction allowances with
  | nil => exact trivial
  | cons allowance rest ih =>
    simp only [Broker.autonomyPrerequisiteDenyReason]
    split_ifs
    · exact ih
    · exact ih
    · refine ReadsOnly.bind (readsOnly_hasActiveActionLease _ _ _) fun a => ?_
      rcases a with err | (_ | _)
      · exact trivial
      · exact trivial
      · exact ih

theorem readsOnly_strongestActiveLease (target : String) (strongest : Option ActionLease)
    (asked : List (String × String)) : ReadsOnly (b.strongestActiveLease target strongest asked) := by
  induction asked generalizing strongest with
  | nil => exact trivial
  | cons probe rest ih =>
    refine readsOnly_find fun r => ?_
    rcases r with err | (_ | lease)
    · exact trivial
    · exact ih strongest
    · show ReadsOnly (if _ then _ else _)
      split_ifs
      · exact ih (some lease)
      · exact ih strongest

theorem readsOnly_strongerActiveLeaseDenyReason (r : ActionResolution) (target : String) :
    ReadsOnly (b.strongerActiveLeaseDenyReason r target) := by
  simp only [Broker.strongerActiveLeaseDenyReason]
  split_ifs
  · exact trivial
  · refine ReadsOnly.bind (readsOnly_strongestActiveLease _ _ _) fun a => ?_
    rcases a with err | (_ | strongest)
    · exact trivial
    · exact trivial
    · dsimp only
      split_ifs <;> exact trivial

end Gates

/-- An application either returns without a lease and without a write, or goes on to a renewal. -/
theorem wp_apply {post : Broker.ApplyReturn → World π → Prop} {ids : GeneratedIDs}
    {r : ActionResolution} (hc : crash w)
    (hskip : ∀ receipt err, post { receipt, err } w)
    (hmain : r.allowed → r.executableLevel ≠ "" → r.executableLevel ≠ "observe" → 0 < r.ttl →
      ∀ receipt, wp (brokerStep faulty pepStep) crash
        (fun renewal => wp (brokerStep faulty pepStep) crash post
          (b.afterRenewal ids r (Broker.decisionIDFor ids r) receipt w.clock renewal))
        (b.renewActiveLease r (Broker.decisionIDFor ids r) (targetString r.target) (b.leaseMetadata r)
          w.clock) w) :
    wp (brokerStep faulty pepStep) crash post (b.apply ids r) w := by
  simp only [Broker.apply, perform_bind, wp_now]
  refine ⟨hc, ?_⟩
  by_cases hallowed : r.allowed
  · by_cases hlevel : r.executableLevel = "" ∨ r.executableLevel = "observe" ∨ r.ttl ≤ 0
    · simpa [hallowed, hlevel] using hskip _ _
    · simp only [hallowed, hlevel, not_true, if_false]
      push Not at hlevel
      refine wp_gate (readsOnly_autonomyPrerequisiteDenyReason _ _ _) hc fun denied => ?_
      rcases denied with err | reason
      · exact hskip _ _
      by_cases hreason : reason ≠ ""
      · simpa [hreason] using hskip _ _
      simp only [hreason, if_false]
      refine wp_gate (readsOnly_strongerActiveLeaseDenyReason _ _) hc fun denied => ?_
      rcases denied with err | reason
      · exact hskip _ _
      by_cases hreason : reason ≠ ""
      · simpa [hreason] using hskip _ _
      simp only [hreason, if_false, wp_bind]
      exact hmain hallowed hlevel.1 hlevel.2.1 hlevel.2.2 _
  · simpa [hallowed] using hskip _ _

/-- What the supersession of one weaker lease preserves, the supersession of all preserves. -/
theorem wp_supersedeWeaker {inv : World π → Prop} {applied : ActionLease} {now : Time} (hw : inv w)
    (hstep : ∀ w lease f err, inv w → faulty f → lease ∈ w.leases → lease.status = .active →
      lease.adapterID = b.adapterID → lease.target = applied.target →
      lease.leaseID ≠ applied.leaseID → lease.strength < applied.strength →
      inv { w with leases := (StoreOp.handleWith (.updateStatus { lease with
        status := .superseded, lastError := err, revertedAt := some now }) f w.leases).2 })
    (asked : List (String × String)) :
    wp (brokerStep faulty pepStep) inv (fun _ => inv) (b.supersedeWeaker applied now asked) w := by
  induction asked generalizing w with
  | nil => exact hw
  | cons probe rest ih =>
    simp only [Broker.supersedeWeaker, perform_bind, wp_store]
    intro f hf
    rw [StoreOp.handleWith_snd_of_isRead (show StoreOp.isRead (.findActive ..) from trivial)]
    refine ⟨hw, ?_⟩
    cases hr : (StoreOp.handleWith (.findActive b.adapterID applied.target probe.1 probe.2) f w.leases).1 with
    | error err => exact hw
    | ok found =>
      cases found with
      | none => exact ih hw
      | some lease =>
        dsimp only
        split_ifs with hkeep
        · exact ih hw
        · push Not at hkeep
          simp only [wp_store]
          intro f' hf'
          obtain ⟨hmem, ha, ht, _, _, hs⟩ :=
            LeaseTable.findActiveActionLease_spec (StoreOp.findActive_ok hr)
          have hnext := fun err => hstep w lease f' err hw hf' hmem hs ha ht hkeep.1 hkeep.2
          refine ⟨hnext _, ?_⟩
          split
          · exact hnext _
          · exact ih (hnext _)

theorem wp_supersedeWeakerActiveLeases {inv : World π → Prop} {applied : ActionLease} {now : Time}
    (hw : inv w)
    (hstep : ∀ w lease f err, inv w → faulty f → lease ∈ w.leases → lease.status = .active →
      lease.adapterID = b.adapterID → lease.target = applied.target →
      lease.leaseID ≠ applied.leaseID → lease.strength < applied.strength →
      inv { w with leases := (StoreOp.handleWith (.updateStatus { lease with
        status := .superseded, lastError := err, revertedAt := some now }) f w.leases).2 }) :
    wp (brokerStep faulty pepStep) inv (fun _ => inv) (b.supersedeWeakerActiveLeases applied now) w := by
  simp only [Broker.supersedeWeakerActiveLeases]
  split_ifs
  · exact hw
  · exact wp_supersedeWeaker hw hstep (probes applied.action ["soft", "hard", "block"])

section Application

variable {allowed : BrokerOp → Prop} {expected : (op : BrokerOp) → op.Answer → Prop}

theorem ReadsOnly.uses {α : Type} {p : BrokerProgram α} (hp : ReadsOnly p) (hnow : allowed .now)
    (hread : ∀ op : StoreOp, op.isRead → allowed (.store op)) : Uses allowed expected p := by
  refine Uses.mono hp (fun op hop => ?_) fun _ _ _ => trivial
  cases op with
  | now => exact hnow
  | store op => exact hread op hop
  | pep op => exact hop.elim

/-- A renewal looks the lease up, ends it, or asks the PEP for a token and writes the lease anew. -/
theorem uses_renewal {r : ActionResolution} {decisionID target : String} {metadata : GoMap String} {now : Time}
    (hread : ∀ op : StoreOp, op.isRead → allowed (.store op))
    (hended : ∀ l : ActionLease, l.status ≠ .active → allowed (.store (.updateStatus l)))
    (hcurrent : ∀ l, allowed (.pep (.currentFencingToken l)))
    (hrenewed : ∀ existing,
      expected (.store (.findActive b.adapterID target r.executableAction r.executableLevel))
        (.ok (some existing)) →
      allowed (.store (.upsert (Broker.renewed existing r decisionID metadata now)))) :
    Uses allowed expected (b.renewActiveLease r decisionID target metadata now) := by
  simp only [Broker.renewActiveLease, perform_bind]
  refine ⟨hread _ trivial, fun found hfound => ?_⟩
  rcases found with err | (_ | existing)
  · exact trivial
  · exact trivial
  dsimp only
  cases executionMetadataChanged existing.metadata metadata with
  | some key =>
    refine ⟨hended _ (by simp), fun ans _ => ?_⟩
    cases ans <;> exact trivial
  | none =>
    refine ⟨hcurrent existing, fun ans _ => ?_⟩
    rcases ans with err | k
    · exact trivial
    dsimp only
    by_cases hk : k ≠ existing.fencingToken
    · rw [if_pos hk]
      refine ⟨hended _ (by simp), fun ans _ => ?_⟩
      cases ans <;> exact trivial
    · rw [if_neg hk]
      by_cases hmax : 0 < b.maxRenewals ∧ b.maxRenewals ≤ leaseRenewalCount existing.metadata
      · rw [if_pos hmax]
        exact trivial
      · rw [if_neg hmax]
        refine ⟨hrenewed existing hfound, fun ans _ => ?_⟩
        cases ans <;> exact trivial

/-- A supersession looks leases up and ends them. -/
theorem uses_supersession {applied : ActionLease} {now : Time}
    (hread : ∀ op : StoreOp, op.isRead → allowed (.store op))
    (hended : ∀ l : ActionLease, l.status ≠ .active → allowed (.store (.updateStatus l))) :
    Uses allowed expected (b.supersedeWeakerActiveLeases applied now) := by
  have hall : ∀ asked, Uses allowed expected (b.supersedeWeaker applied now asked) := by
    intro asked
    induction asked with
    | nil => exact trivial
    | cons probe rest ih =>
      simp only [Broker.supersedeWeaker, perform_bind]
      refine ⟨hread _ trivial, fun found _ => ?_⟩
      rcases found with err | (_ | lease)
      · exact trivial
      · exact ih
      dsimp only
      by_cases hkeep : lease.leaseID = applied.leaseID ∨ applied.strength ≤ lease.strength
      · rw [if_pos hkeep]
        exact ih
      · rw [if_neg hkeep]
        refine ⟨hended _ (by simp), fun ans _ => ?_⟩
        rcases ans with err | _
        · exact trivial
        · exact ih
  simp only [Broker.supersedeWeakerActiveLeases]
  split_ifs
  · exact trivial
  · exact hall _

/-- A creation writes its lease; then it has it applied and writes what became of it. -/
theorem uses_creation {l : ActionLease} {receipt : EnforcementReceipt} {now : Time}
    {next : Fallible Unit → BrokerProgram Broker.ApplyReturn}
    (h : b.createLease l receipt now = call (BrokerOp.store (.upsert l)) next)
    (hread : ∀ op : StoreOp, op.isRead → allowed (.store op))
    (hupdate : ∀ l, allowed (.store (.updateStatus l))) (happly : allowed (.pep (.apply l)))
    (ans : Fallible Unit) : Uses allowed expected (next ans) := by
  simp only [Broker.createLease, perform_bind] at h
  obtain rfl := eq_of_heq (Program.call.inj h).2
  rcases ans with err | _
  · exact trivial
  refine ⟨happly, fun ans _ => ?_⟩
  rcases ans with err | k
  · exact ⟨hupdate _, fun _ _ => trivial⟩
  dsimp only
  by_cases hk : k ≠ "" ∧ k ≠ l.fencingToken
  · rw [if_pos hk]
    exact ⟨hupdate _, fun _ _ => trivial⟩
  · rw [if_neg hk]
    refine ⟨hupdate _, fun ans _ => ?_⟩
    rcases ans with err | _
    · exact trivial
    · refine Uses.bind (uses_supersession hread fun l _ => hupdate l) fun ans => ?_
      cases ans <;> exact trivial

end Application

section Sweep

variable {allowed : BrokerOp → Prop}

/-- A revert reads the clock, asks the PEP for a token, reverts there and ends the lease. -/
theorem uses_revert (hnow : allowed .now) (hcurrent : ∀ l, allowed (.pep (.currentFencingToken l)))
    (hrevert : ∀ l, allowed (.pep (.revert l)))
    (hended : ∀ l : ActionLease, l.status ≠ .active → allowed (.store (.updateStatus l))) (l : ActionLease) :
    Uses allowed (fun _ _ => True) (b.revert l) := by
  simp only [Broker.revert, perform_bind]
  refine ⟨hnow, fun now _ => ⟨hcurrent l, fun ans _ => ?_⟩⟩
  rcases ans with err | k
  · exact ⟨hended _ (by simp), fun _ _ => trivial⟩
  dsimp only
  split_ifs
  · refine ⟨hended _ (by simp), fun ans _ => ?_⟩
    cases ans <;> exact trivial
  · refine ⟨hrevert l, fun ans _ => ?_⟩
    rcases ans with err | _
    · exact ⟨hended _ (by simp), fun _ _ => trivial⟩
    · refine ⟨hended _ (by simp), fun ans _ => ?_⟩
      cases ans <;> exact trivial

theorem uses_revertExpired {now : Time} (hlist : allowed (.store (.listExpired now)))
    (hrevert : ∀ l, Uses allowed (fun _ _ => True) (b.revert l)) :
    Uses allowed (fun _ _ => True) (b.revertExpired now) := by
  have hall : ∀ leases receipts, Uses allowed (fun _ _ => True) (b.revertAll receipts leases) := by
    intro leases
    induction leases with
    | nil => exact fun _ => trivial
    | cons l rest ih =>
      refine fun receipts => Uses.bind (hrevert l) fun ret => ?_
      rcases ret with ⟨receipt, _ | err⟩
      · exact ih _
      · exact trivial
  refine ⟨hlist, fun ans _ => ?_⟩
  rcases ans with err | leases
  · exact trivial
  · exact hall leases []

end Sweep

end Kernloom
