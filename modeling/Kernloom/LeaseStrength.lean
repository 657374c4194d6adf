import Kernloom.BrokerRules
import Kernloom.Transition

/-! The strengths of the active leases of a target: a new lease supersedes the weaker ones that the
broker probes for, and a request weaker than one of them is refused. -/

namespace Kernloom

open Effects Effects.Program Keyed LeaseTable Transition

section Table

variable {t t' : LeaseTable} {new l l' : ActionLease}

def SameKey (l l' : ActionLease) : Prop :=
  l.adapterID = l'.adapterID ∧ l.target = l'.target ∧ l.action = l'.action ∧ l.level = l'.level

theorem SameKey.strength (h : SameKey l l') : l.strength = l'.strength := by
  rw [ActionLease.strength, ActionLease.strength, h.2.2.1, h.2.2.2]

/-- No two active leases have one key. -/
def OneActive (t : LeaseTable) : Prop :=
  ∀ l ∈ t, ∀ l' ∈ t, l.status = .active → l'.status = .active → SameKey l l' → l = l'

/-- A row that is not active, or the only active one of its key, is written. -/
theorem OneActive.write (h : OneActive t) (hw : Writes t new t')
    (hnew : new.status = .active → ∀ l ∈ t, l.status = .active → SameKey l new → l.leaseID = new.leaseID) :
    OneActive t' := by
  intro l hl l' hl' hs hs' hkey
  rcases (hw l).mp hl with rfl | ⟨hold, hne⟩ <;> rcases (hw l').mp hl' with rfl | ⟨hold', hne'⟩
  · rfl
  · exact absurd (hnew hs l' hold' hs' ⟨hkey.1.symm, hkey.2.1.symm, hkey.2.2.1.symm, hkey.2.2.2.symm⟩) hne'
  · exact absurd (hnew hs' l hold hs hkey) hne
  · exact h l hold l' hold' hs hs' hkey

theorem OneActive.retire (h : OneActive t) (hw : Writes t new t') (hs : new.status ≠ .active) :
    OneActive t' :=
  h.write hw fun ha => absurd ha hs

/-- The active leases that a request of `requested` for a target probes for, without one. -/
def Probed (b : Broker) (target requested : String) (l : ActionLease) : Prop :=
  l.status = .active ∧ l.adapterID = b.adapterID ∧ l.target = target ∧
    l.action ∈ runtimeActionsWithRequested requested ∧ l.level ∈ ["soft", "hard", "block"]

theorem mem_probes {requested action level : String} {levels : List String} :
    (action, level) ∈ probes requested levels ↔
      action ∈ runtimeActionsWithRequested requested ∧ level ∈ levels := by
  simp [probes]

end Table

section Supersede

variable {π : Type} {pepStep : Environment PepOp PepOp.Answer π} {b : Broker} {w : World π}
  {applied : ActionLease}

/-- No active lease under the keys already probed is weaker. -/
def Cleared (b : Broker) (applied : ActionLease) (asked : List (String × String)) (t : LeaseTable) : Prop :=
  ∀ l ∈ t, l.status = .active → l.adapterID = b.adapterID → l.target = applied.target →
    (l.action, l.level) ∈ asked → applied.strength ≤ l.strength

theorem Cleared.retire {asked : List (String × String)} {t t' : LeaseTable} {new : ActionLease}
    (h : Cleared b applied asked t) (hw : Writes t new t') (hs : new.status ≠ .active) :
    Cleared b applied asked t' := by
  intro l hl hactive
  rcases (hw l).mp hl with rfl | ⟨hold, -⟩
  · exact absurd hactive hs
  · exact h l hold hactive

theorem wp_faultless_store {α : Type} {crash : World π → Prop} {post : α → World π → Prop} {op : StoreOp}
    {next : op.Answer → BrokerProgram α} (hcrash : crash { w with leases := (op.handle w.leases).2 })
    (h : wp (brokerStep faultless pepStep) crash post (next (op.handle w.leases).1)
      { w with leases := (op.handle w.leases).2 }) :
    wp (brokerStep faultless pepStep) crash post (call (BrokerOp.store op) next) w :=
  wp_store.mpr fun f hf => by
    obtain rfl : f = .none := hf
    exact ⟨hcrash, h⟩

/-- Each probe finds the only active lease of its key, and ends it if it is weaker. -/
theorem wp_supersedeWeaker_cleared {now : Time} {asked : List (String × String)}
    (done : List (String × String)) (hone : OneActive w.leases) (happlied : applied ∈ w.leases)
    (hcleared : Cleared b applied done w.leases) :
    wp (brokerStep faultless pepStep) (fun _ => True)
      (fun r w' => r = .ok () ∧ OneActive w'.leases ∧ Cleared b applied (done ++ asked) w'.leases)
      (b.supersedeWeaker applied now asked) w := by
  induction asked generalizing w done with
  | nil =>
    rw [List.append_nil]
    exact ⟨rfl, hone, hcleared⟩
  | cons probe rest ih =>
    have hassoc : done ++ probe :: rest = (done ++ [probe]) ++ rest := by simp
    rw [hassoc]
    simp only [Broker.supersedeWeaker, perform_bind]
    refine wp_faultless_store trivial ?_
    simp only [StoreOp.handle]
    have hextend : ∀ {t : LeaseTable}, Cleared b applied done t →
        (∀ l ∈ t, l.status = .active → l.adapterID = b.adapterID → l.target = applied.target →
          l.action = probe.1 → l.level = probe.2 → applied.strength ≤ l.strength) →
        Cleared b applied (done ++ [probe]) t := by
      intro t hdone hprobe l hl hs ha ht hmem
      rcases List.mem_append.mp hmem with hin | hin
      · exact hdone l hl hs ha ht hin
      · obtain ⟨haction, hlevel⟩ := Prod.mk.inj (List.mem_singleton.mp hin)
        exact hprobe l hl hs ha ht haction hlevel
    cases hfound : w.leases.findActiveActionLease b.adapterID applied.target probe.1 probe.2 with
    | none =>
      refine ih (done ++ [probe]) hone happlied (hextend hcleared ?_)
      intro l hl hs ha ht haction hlevel
      rw [← ha, ← ht, ← haction, ← hlevel] at hfound
      exact absurd hs (findActiveActionLease_none hfound hl)
    | some lease =>
      obtain ⟨hmem, ha, ht, haction, hlevel, hs⟩ := findActiveActionLease_spec hfound
      have honly : ∀ l ∈ w.leases, l.status = .active → l.adapterID = b.adapterID →
          l.target = applied.target → l.action = probe.1 → l.level = probe.2 → l = lease := by
        intro l hl hs' ha' ht' haction' hlevel'
        exact hone l hl lease hmem hs' hs
          ⟨ha'.trans ha.symm, ht'.trans ht.symm, haction'.trans haction.symm, hlevel'.trans hlevel.symm⟩
      dsimp only
      by_cases hkeep : lease.leaseID = applied.leaseID ∨ applied.strength ≤ lease.strength
      · rw [if_pos hkeep]
        refine ih (done ++ [probe]) hone happlied (hextend hcleared ?_)
        intro l hl hs' ha' ht' haction' hlevel'
        rw [honly l hl hs' ha' ht' haction' hlevel']
        rcases hkeep with hid | hle
        · rw [Table.eq_of_key_eq hmem happlied hid]
        · exact hle
      · rw [if_neg hkeep]
        rw [not_or] at hkeep
        refine wp_faultless_store trivial ?_
        let superseded : ActionLease := { lease with
          status := .superseded
          lastError := "superseded by stronger action " ++ applied.action ++ ":" ++ applied.level
          revertedAt := some now }
        have hw : Writes w.leases (setStatus superseded lease) _ := writes_update hmem rfl
        have hnot : (setStatus superseded lease).status ≠ .active := by simp [superseded, setStatus]
        have hkept : applied ∈ w.leases.updateActionLeaseStatus superseded :=
          (hw applied).mpr (.inr ⟨happlied, fun hid => hkeep.1 hid.symm⟩)
        refine ih (done ++ [probe]) (hone.retire hw hnot) hkept (hextend (hcleared.retire hw hnot) ?_)
        intro l hl hs' ha' ht' haction' hlevel'
        rcases (hw l).mp hl with rfl | ⟨hold, hne⟩
        · exact absurd hs' hnot
        · obtain rfl := honly l hold hs' ha' ht' haction' hlevel'
          exact absurd rfl hne

/-- A renewal returns a lease that was active, or leaves no active lease of its key. -/
theorem wp_renewActiveLease_one {r : ActionResolution} {decisionID target : String}
    {metadata : GoMap String} {now : Time} (hone : OneActive w.leases) :
    wp (brokerStep faultless pepStep) (fun _ => True)
      (fun renewal w' => OneActive w'.leases ∧
        (renewal.renewed = true → ∀ lease, renewal.lease = some lease →
          ∃ l ∈ w.leases, l.status = .active ∧ l.leaseID = lease.leaseID) ∧
        (renewal.err = none → renewal.renewed = false →
          ∀ l ∈ w'.leases, l.adapterID = b.adapterID → l.target = target → l.action = r.executableAction →
            l.level = r.executableLevel → l.status ≠ .active))
      (b.renewActiveLease r decisionID target metadata now) w := by
  refine wp_renewActiveLease trivial (fun _ _ _ _ => trivial) fun renewal w' hstep => ⟨trivial, ?_⟩
  cases hstep with
  | unread => exact ⟨hone, by simp, by simp⟩
  | absent hfound =>
    refine ⟨hone, by simp, fun _ _ l hl ha ht haction hlevel => ?_⟩
    rw [← ha, ← ht, ← haction, ← hlevel] at hfound
    exact findActiveActionLease_none hfound hl
  | @ended existing ended pep f hfound hends hid hf =>
    obtain rfl : f = .none := hf
    obtain ⟨hmem, ha, ht, haction, hlevel, hs⟩ := findActiveActionLease_spec hfound
    have hw : Writes w.leases (setStatus ended existing) (w.leases.updateActionLeaseStatus ended) :=
      writes_update hmem hid.symm
    refine ⟨hone.retire hw hends.not_active, by simp [StoreOp.handleWith, StoreOp.handle],
      fun _ _ l hl ha' ht' haction' hlevel' hs' => ?_⟩
    rcases (hw l).mp hl with rfl | ⟨hold, hne⟩
    · exact hends.not_active hs'
    · obtain rfl := hone l hold existing hmem hs' hs
        ⟨ha'.trans ha.symm, ht'.trans ht.symm, haction'.trans haction.symm, hlevel'.trans hlevel.symm⟩
      exact hne rfl
  | unasked hfound hpep => exact ⟨hone, by simp, by simp⟩
  | spent hfound hstays hspent =>
    obtain ⟨hmem, -, -, -, -, hs⟩ := findActiveActionLease_spec hfound
    refine ⟨hone, fun _ lease hlease => ?_, by simp⟩
    obtain rfl := Option.some.inj hlease
    exact ⟨_, hmem, hs, rfl⟩
  | @renewed existing pep f hfound hstays hspent hf =>
    obtain rfl : f = .none := hf
    obtain ⟨hmem, -, -, -, -, hs⟩ := findActiveActionLease_spec hfound
    refine ⟨hone.write (writes_upsert _ _) fun _ l hl hs' hkey => ?_, fun _ lease hlease => ?_,
      by simp [StoreOp.handleWith, StoreOp.handle]⟩
    · rw [hone l hl existing hmem hs' hs hkey]
      rfl
    · obtain rfl := Option.some.inj hlease
      exact ⟨existing, hmem, hs, rfl⟩

/-- A lease of a key without an active lease becomes the only one, and no probed lease is weaker. -/
theorem wp_createLease_cleared {lease : ActionLease} {receipt : EnforcementReceipt} {now : Time}
    (hone : OneActive w.leases) (hpending : lease.status ≠ .active)
    (hnone : ∀ l ∈ w.leases, l.status = .active → ¬ SameKey l lease) :
    wp (brokerStep faultless pepStep) (fun _ => True)
      (fun ret w' => OneActive w'.leases ∧
        (ret.err = none → ∀ applied, ret.lease = some applied → 0 < applied.strength →
          Cleared b applied (probes applied.action ["soft", "hard", "block"]) w'.leases))
      (b.createLease lease receipt now) w := by
  simp only [Broker.createLease, perform_bind]
  have hw : Writes w.leases lease (w.leases.upsertActionLease lease) := writes_upsert _ _
  have hmem : lease ∈ w.leases.upsertActionLease lease := (hw lease).mpr (.inl rfl)
  have hone' : OneActive (w.leases.upsertActionLease lease) := hone.retire hw hpending
  refine wp_faultless_store trivial ?_
  simp only [StoreOp.handle]
  refine wp_pep.mpr fun ans pep _ => ⟨trivial, ?_⟩
  have hended : ∀ {ended : ActionLease} {err : String}, ended.leaseID = lease.leaseID →
      ended.status ≠ .active → wp (brokerStep faultless pepStep) (fun _ => True)
        (fun ret w' => OneActive w'.leases ∧
          (ret.err = none → ∀ applied, ret.lease = some applied → 0 < applied.strength →
            Cleared b applied (probes applied.action ["soft", "hard", "block"]) w'.leases))
        (call (BrokerOp.store (.updateStatus ended)) fun _ =>
          ret (Broker.failedReturn receipt (some ended) err))
        { w with leases := w.leases.upsertActionLease lease, pep } := by
    intro ended err hid hnot
    refine wp_faultless_store trivial ⟨hone'.retire (writes_update hmem hid.symm) hnot, ?_⟩
    simp [Broker.failedReturn]
  rcases ans with err | fencingToken
  · exact hended rfl (by simp)
  dsimp only
  by_cases htoken : fencingToken ≠ "" ∧ fencingToken ≠ lease.fencingToken
  · rw [if_pos htoken]
    exact hended rfl (by simp)
  · rw [if_neg htoken]
    refine wp_faultless_store trivial ?_
    let active : ActionLease := { lease with status := .active }
    have hactive : Writes (w.leases.upsertActionLease lease) (setStatus active lease)
      ((w.leases.upsertActionLease lease).updateActionLeaseStatus active) := writes_update hmem rfl
    have hone'' : OneActive ((w.leases.upsertActionLease lease).updateActionLeaseStatus active) := by
      refine hone'.write hactive fun _ l hl hs hkey => ?_
      rcases (hw l).mp hl with rfl | ⟨hold, -⟩
      · rfl
      · exact absurd hkey (hnone l hold hs)
    have hin : active ∈ (w.leases.upsertActionLease lease).updateActionLeaseStatus active :=
      (hactive active).mpr (.inl rfl)
    refine wp_bind.mpr ?_
    rw [Broker.supersedeWeakerActiveLeases]
    by_cases hzero : active.strength = 0
    · rw [if_pos hzero]
      refine ⟨hone'', fun _ applied happlied hpos => ?_⟩
      obtain rfl := Option.some.inj happlied
      exact absurd hzero hpos.ne'
    · rw [if_neg hzero]
      refine wp_mono (wp_supersedeWeaker_cleared [] hone'' hin (by simp [Cleared])) ?_
      rintro _ w' ⟨rfl, hone₁, hcleared⟩
      refine ⟨hone₁, fun _ applied happlied _ => ?_⟩
      obtain rfl := Option.some.inj happlied
      exact hcleared

end Supersede

section Apply

variable {π : Type} {pepStep : Environment PepOp PepOp.Answer π} {b : Broker} {w : World π}
  {ids : GeneratedIDs} {r : ActionResolution}

/-- The application succeeded with a lease that was not active before. -/
def NewlyApplied (t : LeaseTable) (ret : Broker.ApplyReturn) (lease : ActionLease) : Prop :=
  ret.err = none ∧ ret.receipt.status = .applied ∧ ret.lease = some lease ∧
    ∀ l ∈ t, l.status = .active → l.leaseID ≠ lease.leaseID

theorem linkLease_status (receipt : EnforcementReceipt) (lease : Option ActionLease) :
    (Broker.linkLease receipt lease).status = receipt.status := by
  cases lease <;> rfl

theorem wp_apply_one (hone : OneActive w.leases) :
    wp (brokerStep faultless pepStep) (fun _ => True)
      (fun ret w' => OneActive w'.leases ∧ ∀ lease, NewlyApplied w.leases ret lease → 0 < lease.strength →
        Cleared b lease (probes lease.action ["soft", "hard", "block"]) w'.leases) (b.apply ids r) w := by
  refine wp_apply trivial (fun receipt err => ⟨hone, fun lease h => nomatch h.2.2.1⟩)
    fun _ _ _ _ receipt => ?_
  refine wp_mono (wp_renewActiveLease_one hone) ?_
  rintro ⟨found, renewed, skipReason, err⟩ w' ⟨hone', hold, hnone⟩
  rcases err with _ | err
  · simp only [Broker.afterRenewal]
    by_cases hskip : skipReason ≠ ""
    · rw [if_pos hskip]
      refine ⟨hone', fun lease h => absurd h.2.1 ?_⟩
      rw [linkLease_status]
      simp
    · rw [if_neg hskip]
      by_cases hrenewed : renewed = true
      · rw [if_pos hrenewed]
        refine ⟨hone', fun lease h => ?_⟩
        obtain ⟨l, hl, hs, hid⟩ := hold hrenewed lease h.2.2.1
        exact absurd hid (h.2.2.2 l hl hs)
      · rw [if_neg hrenewed]
        have hfree := hnone rfl (Bool.eq_false_iff.mpr hrenewed)
        refine wp_mono (wp_createLease_cleared hone' (by simp [Broker.newLease]) ?_) ?_
        · exact fun l hl hs hkey => hfree l hl hkey.1 hkey.2.1 hkey.2.2.1 hkey.2.2.2 hs
        · exact fun ret w'' h => ⟨h.1, fun lease hnew => h.2 hnew.1 lease hnew.2.2.1⟩
  · exact ⟨hone', fun lease h => nomatch h.1⟩

/-- Unless the store fails, the strongest lease found is at least as strong as every lease that was probed
for. -/
theorem wp_strongestActiveLease {faulty : Fault → Prop} {target : String} (strongest : Option ActionLease)
    (asked : List (String × String)) :
    wp (brokerStep faulty pepStep) (fun _ => True)
      (fun ans w' => w' = w ∧ ((∃ err f, ans = .error err ∧ faulty f ∧ f ≠ .none) ∨ ∃ found, ans = .ok found ∧
        strongest.elim 0 ActionLease.strength ≤ found.elim 0 ActionLease.strength ∧
        ∀ l ∈ w.leases, l.status = .active → l.adapterID = b.adapterID → l.target = target →
          (l.action, l.level) ∈ asked → l.strength ≤ found.elim 0 ActionLease.strength))
      (b.strongestActiveLease target strongest asked) w := by
  induction asked generalizing strongest with
  | nil => exact ⟨rfl, .inr ⟨strongest, rfl, le_rfl, fun l _ _ _ _ h => nomatch h⟩⟩
  | cons probe rest ih =>
    simp only [Broker.strongestActiveLease, perform_bind]
    -- what is left to show for the lease of this probe, whichever lease goes on
    have hnext : ∀ next : Option ActionLease,
        strongest.elim 0 ActionLease.strength ≤ next.elim 0 ActionLease.strength →
        (∀ l ∈ w.leases, l.status = .active → l.adapterID = b.adapterID → l.target = target →
          (l.action, l.level) = probe → l.strength ≤ next.elim 0 ActionLease.strength) →
        wp (brokerStep faulty pepStep) (fun _ => True)
          (fun ans w' => w' = w ∧ ((∃ err f, ans = .error err ∧ faulty f ∧ f ≠ .none) ∨ ∃ found, ans = .ok found ∧
            strongest.elim 0 ActionLease.strength ≤ found.elim 0 ActionLease.strength ∧
            ∀ l ∈ w.leases, l.status = .active → l.adapterID = b.adapterID → l.target = target →
              (l.action, l.level) ∈ probe :: rest → l.strength ≤ found.elim 0 ActionLease.strength))
          (b.strongestActiveLease target next rest) w := by
      intro next hle hprobe
      refine wp_mono (ih next) ?_
      rintro ans w' ⟨rfl, hfailed | ⟨found, rfl, hfound, hrest⟩⟩
      · exact ⟨rfl, .inl hfailed⟩
      refine ⟨rfl, .inr ⟨found, rfl, hle.trans hfound, fun l hl hs ha ht hasked => ?_⟩⟩
      rcases List.mem_cons.mp hasked with hh | hh
      · exact (hprobe l hl hs ha ht hh).trans hfound
      · exact hrest l hl hs ha ht hh
    refine wp_store.mpr fun f hf => ?_
    rw [StoreOp.handleWith_snd_of_isRead (show StoreOp.isRead (.findActive ..) from trivial)]
    refine ⟨trivial, ?_⟩
    cases f with
    | before err => exact ⟨rfl, .inl ⟨err, _, rfl, hf, nofun⟩⟩
    | after err => exact ⟨rfl, .inl ⟨err, _, rfl, hf, nofun⟩⟩
    | none =>
      simp only [StoreOp.handleWith, StoreOp.handle]
      cases hfound : w.leases.findActiveActionLease b.adapterID target probe.1 probe.2 with
      | none =>
        refine hnext strongest le_rfl fun l hl hs ha ht hprobe => ?_
        rw [← ha, ← ht, ← hprobe] at hfound
        exact absurd hs (findActiveActionLease_none hfound hl)
      | some lease =>
        obtain ⟨-, -, -, haction, hlevel, -⟩ := findActiveActionLease_spec hfound
        have hsame : ∀ l : ActionLease, (l.action, l.level) = probe → l.strength = lease.strength := by
          intro l hprobe
          rw [ActionLease.strength, ActionLease.strength, haction, hlevel, ← hprobe]
        dsimp only
        by_cases hlt : strongest.elim 0 ActionLease.strength < lease.strength
        · rw [if_pos hlt]
          exact hnext (some lease) hlt.le fun l _ _ _ _ hprobe => (hsame l hprobe).le
        · rw [if_neg hlt]
          exact hnext strongest le_rfl fun l _ _ _ _ hprobe => (hsame l hprobe).trans_le (not_lt.mp hlt)

/-- A request weaker than a lease that it probes for reads the table and makes no other call. -/
theorem wp_apply_refused {l : ActionLease} (hl : l ∈ w.leases)
    (hprobed : Probed b (targetString r.target) r.executableAction l)
    (hpos : 0 < actionLeaseStrength r.executableAction r.executableLevel)
    (hlt : actionLeaseStrength r.executableAction r.executableLevel < l.strength) :
    wp (brokerStep faultless pepStep) (fun _ => True) (fun _ w' => w' = w) (b.apply ids r) w := by
  simp only [Broker.apply, perform_bind, wp_now]
  refine ⟨trivial, ?_⟩
  by_cases hallowed : r.allowed
  · by_cases hlevel : r.executableLevel = "" ∨ r.executableLevel = "observe" ∨ r.ttl ≤ 0
    · simp [hallowed, hlevel]
    · simp only [hallowed, hlevel, not_true, if_false]
      refine wp_gate (readsOnly_autonomyPrerequisiteDenyReason _ _ _) trivial fun denied => ?_
      rcases denied with err | reason
      · exact rfl
      by_cases hreason : reason ≠ ""
      · simp [hreason]
      simp only [hreason, if_false]
      rw [Broker.strongerActiveLeaseDenyReason, if_neg hpos.ne', wp_bind, wp_bind]
      refine wp_mono (wp_strongestActiveLease none _) ?_
      rintro ans w' ⟨rfl, ⟨err, f, -, hfault, hne⟩ | ⟨found, rfl, -, hfound⟩⟩
      · exact absurd hfault hne
      obtain ⟨hs, ha, ht, haction, hlevels⟩ := hprobed
      have hle := hfound l hl hs ha ht (mem_probes.mpr ⟨haction, List.mem_reverse.mpr hlevels⟩)
      rcases found with _ | strongest
      · exact absurd hle (not_le.mpr ((Nat.zero_le _).trans_lt hlt))
      · have hstronger : ¬ strongest.strength ≤ actionLeaseStrength r.executableAction r.executableLevel :=
          not_le.mpr (hlt.trans_le hle)
        simp [hstronger]
  · simp [hallowed]

end Apply

section Runs

variable {π : Type}

/-- An application or a sweep by a broker of the store, or the passing of time. -/
inductive StrengthEvent where
  | apply (b : Broker) (ids : GeneratedIDs) (r : ActionResolution)
  | revertExpired (b : Broker) (now : Time)
  | clock (now : Time)

def StrengthStep (pepStep : Broker → Environment PepOp PepOp.Answer π) (w : World π) :
    StrengthEvent → World π → Prop
  | .apply b ids r, w' => ∃ ret, Runs (brokerStep faultless (pepStep b)) (b.apply ids r) w ret w'
  | .revertExpired b now, w' =>
    ∃ ret, Runs (brokerStep faultless (pepStep b)) (b.revertExpired now) w ret w'
  | .clock now, w' => w' = { w with clock := now }

variable {pepStep : Broker → Environment PepOp PepOp.Answer π} {w w₀ w' : World π} {b : Broker}

/-- The calls that activate no lease. -/
def ActivatesNone : BrokerOp → Prop
  | .store (.upsert _) => False
  | .store (.updateStatus l) => l.status ≠ .active
  | _ => True

theorem OneActive.updateStatus {t : LeaseTable} {lease : ActionLease} (h : OneActive t)
    (hs : lease.status ≠ .active) : OneActive (t.updateActionLeaseStatus lease) := by
  have hold : ∀ l ∈ t.updateActionLeaseStatus lease, l.status = .active → l ∈ t := by
    intro l hl hactive
    obtain ⟨row, hrow, rfl⟩ := mem_updateActionLeaseStatus.mp hl
    by_cases hid : row.leaseID = lease.leaseID
    · rw [if_pos hid] at hactive
      exact absurd hactive hs
    · rwa [if_neg hid]
  exact fun l hl l' hl' ha ha' => h l (hold l hl ha) l' (hold l' hl' ha') ha ha'

theorem OneActive.brokerStep {pepStep : Environment PepOp PepOp.Answer π} {op : BrokerOp} {ans : op.Answer}
    (h : OneActive w.leases) (hop : ActivatesNone op) (hstep : brokerStep faultless pepStep op w ans w') :
    OneActive w'.leases := by
  rcases op with _ | op | op
  · obtain ⟨-, rfl⟩ := hstep
    exact h
  · obtain ⟨f, rfl, -, rfl⟩ := hstep
    cases op with
    | upsert => exact hop.elim
    | findActive | listByStatus | listExpired => exact h
    | updateStatus lease => exact h.updateStatus hop
  · obtain ⟨pep, -, rfl⟩ := hstep
    exact h

theorem StrengthStep.oneActive {e : StrengthEvent} (h : OneActive w.leases)
    (hstep : StrengthStep pepStep w e w') : OneActive w'.leases := by
  cases e with
  | apply b ids r =>
    obtain ⟨ret, hruns⟩ := hstep
    exact ((wp_apply_one h).runs hruns).1
  | revertExpired b now =>
    obtain ⟨ret, hruns⟩ := hstep
    have huses : Uses ActivatesNone (fun _ _ => True) (b.revertExpired now) :=
      uses_revertExpired trivial (uses_revert trivial (fun _ => trivial) (fun _ => trivial) fun _ hl => hl)
    refine (wp_of_uses (I := fun w => OneActive w.leases) huses h ?_).runs hruns
    exact fun _ _ _ _ hop hone hs => ⟨trivial, hone.brokerStep hop hs⟩
  | clock now =>
    obtain rfl := hstep
    exact h

end Runs

section Unprobed

/-- An adapter that carries out what it is asked. -/
def obedientPEP : (op : PepOp) → Unit → op.Answer × Unit
  | .apply lease, s => (.ok lease.fencingToken, s)
  | .currentFencingToken lease, s => (.ok lease.fencingToken, s)
  | .revert _, s => (.ok (), s)

abbrev obedientEnv (_ : Broker) : Environment PepOp PepOp.Answer Unit := answers obedientPEP

def networkBroker : Broker where
  nodeID := "node-1"
  adapterID := "kliq-source-pep"
  sha256 := digestsOf
    [("kliq-source-pep|source:10.0.0.1|enforce.network.rate_limit|soft|decision-1|" ++
        "lease-00000000-0000-4000-8000-000000000001",
      "8226f643ad17696825852cf053bf0f6ab07f09428ede2b76558af90a484766d7"),
    ("kliq-source-pep|source:10.0.0.1|enforce.traffic.rate_limit|soft|decision-2|" ++
        "lease-00000000-0000-4000-8000-000000000002",
      "b41ddaeb8d1eed5fbd1563120f9f6b7ce4c85ff5a5f596aa266be3221731e3bd"),
    ("kliq-source-pep|source:10.0.0.1|enforce.traffic.rate_limit|hard|decision-3|" ++
        "lease-00000000-0000-4000-8000-000000000003",
      "850149a3ea202fd560e5c06a5cf78403b12e412761c6b3a6181f8b859a729e98")]

def limitOn (action level n : String) : ActionResolution :=
  { decisionID := "decision-" ++ n
    allowed := true
    requestedAction := action
    requestedLevel := level
    executableAction := action
    executableLevel := level
    target := { granularity := "source", value := "10.0.0.1" }
    ttl := 60 * Duration.second }

def limitIDs (n : String) : GeneratedIDs := ⟨n, "00000000-0000-4000-8000-00000000000" ++ n⟩

def limit (action level n : String) (w : World Unit) : Broker.ApplyReturn × World Unit :=
  exec (brokerHandle obedientPEP .none) (networkBroker.apply (limitIDs n) (limitOn action level n)) w

theorem runs_limit (action level n : String) (w : World Unit) :
    Runs (brokerStep faultless (obedientEnv networkBroker))
      (networkBroker.apply (limitIDs n) (limitOn action level n)) w
      (limit action level n w).1 (limit action level n w).2 :=
  runs_brokerHandle _ w rfl

def limited (action level n : String) (w : World Unit) : World Unit := (limit action level n w).2

def limitEvent (action level n : String) : StrengthEvent :=
  .apply networkBroker (limitIDs n) (limitOn action level n)

theorem step_limited (action level n : String) (w : World Unit) :
    StrengthStep obedientEnv w (limitEvent action level n) (limited action level n w) :=
  ⟨_, runs_limit action level n w⟩

def unlimitedStart : World Unit := ⟨Table.empty, 63864979200000000000, ()⟩

def softlyLimited : World Unit :=
  limited "enforce.traffic.rate_limit" "soft" "2"
    (limited "enforce.network.rate_limit" "soft" "1" unlimitedStart)

def hardLimited : Broker.ApplyReturn × World Unit :=
  limit "enforce.traffic.rate_limit" "hard" "3" softlyLimited

theorem softlyLimited_run : Run (StrengthStep obedientEnv) unlimitedStart
    [limitEvent "enforce.network.rate_limit" "soft" "1", limitEvent "enforce.traffic.rate_limit" "soft" "2"]
    softlyLimited :=
  .cons (step_limited _ _ _ _) (.singleton (step_limited _ _ _ _))

theorem runs_hardLimited : Runs (brokerStep faultless (obedientEnv networkBroker))
    (networkBroker.apply (limitIDs "3") (limitOn "enforce.traffic.rate_limit" "hard" "3")) softlyLimited
    hardLimited.1 hardLimited.2 :=
  runs_limit _ _ _ _

instance (b : Broker) (target requested : String) (l : ActionLease) :
    Decidable (Probed b target requested l) :=
  inferInstanceAs (Decidable (_ ∧ _ ∧ _ ∧ _ ∧ _))

/-- What the last application returns and leaves, evaluated once. -/
theorem hardLimited_facts : ∃ lease ∈ hardLimited.1.lease,
    (hardLimited.1.err = none ∧ hardLimited.1.receipt.status = .applied ∧
      ∀ l ∈ softlyLimited.leases.rows, l.status = .active → l.leaseID ≠ lease.leaseID) ∧
    (lease.strength = 200 ∧ lease.adapterID = "kliq-source-pep" ∧ lease.target = "source:10.0.0.1") ∧
    (∃ l ∈ hardLimited.2.leases.rows, l.status = .active ∧ l.adapterID = "kliq-source-pep" ∧
      l.target = "source:10.0.0.1" ∧ l.strength = 100) ∧
    ∃ l ∈ hardLimited.2.leases.rows, l.strength = 200 ∧
      Probed networkBroker (targetString (limitOn "enforce.traffic.rate_limit" "soft" "4").target)
        "enforce.traffic.rate_limit" l := by
  decide +kernel

end Unprobed

end Kernloom
