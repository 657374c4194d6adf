import Kernloom.FencedPEP
import Kernloom.LeaseJournal
import Kernloom.Transition

/-! The renewal of a lease and the sweep of expired leases as two threads that take one call at a
time, in any order. -/

namespace Kernloom

open Effects Effects.Program LeaseTable Transition

/-- What an application of an active lease comes to. -/
def Broker.renewal (b : Broker) (ids : GeneratedIDs) (r : ActionResolution) : BrokerProgram Renewal := do
  let now ← clockNow
  b.renewActiveLease r (decisionIDFor ids r) (targetString r.target) (b.leaseMetadata r) now

/-- What is left of the two threads, and the renewals acknowledged so far. -/
structure RaceState (κ : Type) where
  world : World κ
  applier : BrokerProgram Broker.Renewal
  sweeper : BrokerProgram Broker.SweepReturn
  acks : List ActionLease := []

inductive RaceEvent where
  | renew (ids : GeneratedIDs) (r : ActionResolution)
  | sweep (now : Time)
  | applier
  | sweeper
  | clock (now : Time)

/-- The lease whose renewal the end of a thread acknowledges. -/
def acknowledged : BrokerProgram Broker.Renewal → Option ActionLease
  | ret ren => if ren.renewed ∧ ren.skipReason = "" ∧ ren.err = none then ren.lease else none
  | call _ _ => none

/-- The call removes the enforcement of a lease's target, or moves the lease out of active. -/
def Disturbs (lease : ActionLease) : BrokerOp → Prop
  | .pep (.revert l) => leaseFencingKey l = leaseFencingKey lease
  | .store (.updateStatus l) => l.leaseID = lease.leaseID
  | _ => False

instance (lease : ActionLease) (op : BrokerOp) : Decidable (Disturbs lease op) :=
  match op with
  | .now | .store (.upsert _) | .store (.findActive ..) | .store (.listByStatus _)
  | .store (.listExpired _) | .pep (.apply _) | .pep (.currentFencingToken _) =>
    inferInstanceAs (Decidable False)
  | .pep (.revert l) => inferInstanceAs (Decidable (leaseFencingKey l = leaseFencingKey lease))
  | .store (.updateStatus l) => inferInstanceAs (Decidable (l.leaseID = lease.leaseID))

/-- While a target has this token, the revert of `l` leaves the enforcement of `lease` alone. -/
def Harmless (token : String) (lease l : ActionLease) : Prop :=
  l.leaseID ≠ lease.leaseID ∧
    (leaseFencingKey l = leaseFencingKey lease → token ≠ "" ∧ token ≠ l.fencingToken)

/-- What a sweep is answered while a lease's target has this token. -/
def SweepAnswers (token : String) (lease : ActionLease) : (op : BrokerOp) → op.Answer → Prop
  | .store (.listExpired _), .ok leases => ∀ l ∈ leases, Harmless token lease l
  | .pep (.currentFencingToken l), ans =>
    leaseFencingKey l = leaseFencingKey lease → token ≠ "" → ans = .ok token
  | _, _ => True

/-- What is left of a sweep disturbs a lease no more. -/
def Spares (token : String) (lease : ActionLease) {α : Type} (sweep : BrokerProgram α) : Prop :=
  Uses (fun op => ¬ Disturbs lease op) (SweepAnswers token lease) sweep

namespace FencedPEP

variable {κ χ ξ : Type} (p : FencedPEP κ χ ξ) (b : Broker)

/-- The token that the PEP has for the target of a lease. -/
def tokenOf (w : World κ) (lease : ActionLease) : String :=
  (p.tokens w.pep).get (leaseFencingKey lease)

abbrev raceEnv : Environment BrokerOp BrokerOp.Answer (World κ) :=
  brokerStep anyFault fun op s r s' => ∃ x, p.handle x op s = (r, s')

/-- A thread starts when it is idle; a sweep is started for a time that has come. -/
def RaceStep (s : RaceState κ) : RaceEvent → RaceState κ → Prop
  | .renew ids r, s' => nextOp s.applier = none ∧ s' = { s with applier := b.renewal ids r }
  | .sweep now, s' =>
    nextOp s.sweeper = none ∧ now ≤ s.world.clock ∧ s' = { s with sweeper := b.revertExpired now }
  | .applier, s' => ∃ next w, Advances p.raceEnv s.applier s.world next w ∧
    s' = { s with world := w, applier := next, acks := s.acks ++ (acknowledged next).toList }
  | .sweeper, s' => ∃ next w, Advances p.raceEnv s.sweeper s.world next w ∧
    s' = { s with world := w, sweeper := next }
  | .clock now, s' => s.world.clock ≤ now ∧ s' = { s with world := { s.world with clock := now } }

/-- A renewal is written when no sweep under way is still to disturb it, and shortens none; a sweep
that lists leases in the order of their times finds each target that it shares with a renewed lease
under the token of that lease. -/
def NoOverlap (s : RaceState κ) : RaceEvent → Prop
  | .applier => ∀ l, nextOp s.applier = some (.store (.upsert l)) →
    Spares (p.tokenOf s.world l) l s.sweeper ∧
      ∀ ack ∈ s.acks, ack.leaseID = l.leaseID → ack.expiresAt ≤ l.expiresAt
  | .sweeper => ∀ now, nextOp s.sweeper = some (.store (.listExpired now)) →
    ∀ l ∈ s.world.leases.listExpiredActionLeases now, l.expiresAt ≤ now ∧
      ∀ ack ∈ s.acks, s.world.clock < ack.expiresAt → leaseFencingKey l = leaseFencingKey ack →
        l.leaseID ≠ ack.leaseID → p.tokenOf s.world ack ≠ "" ∧ p.tokenOf s.world ack = ack.fencingToken
  | _ => True

end FencedPEP

section Sweeper

variable {b : Broker} {token : String} {lease l : ActionLease}

/-- The calls of a sweep started for a time up to `clock`. -/
def SweepOps (clock : Time) : BrokerOp → Prop
  | .store (.listExpired now) => now ≤ clock
  | .store (.upsert _) | .pep (.apply _) => False
  | _ => True

theorem spares_revert (h : Harmless token lease l) : Spares token lease (b.revert l) := by
  have hid : ∀ {l' : ActionLease}, l'.leaseID = l.leaseID → ¬ Disturbs lease (.store (.updateStatus l')) :=
    fun hl' hh => h.1 (hl'.symm.trans hh)
  simp only [Broker.revert, perform_bind]
  refine ⟨id, fun now _ => ⟨id, fun ans hans => ?_⟩⟩
  rcases ans with err | k
  · exact ⟨hid rfl, fun _ _ => trivial⟩
  dsimp only
  by_cases hk : k ≠ l.fencingToken
  · rw [if_pos hk]
    refine ⟨hid rfl, fun ans _ => ?_⟩
    cases ans <;> exact trivial
  · rw [if_neg hk]
    refine ⟨fun hkey => ?_, fun ans _ => ?_⟩
    · obtain ⟨hne, hother⟩ := h.2 hkey
      exact hother (Except.ok.inj (hans hkey hne) ▸ not_not.mp hk)
    · rcases ans with err | _
      · exact ⟨hid rfl, fun _ _ => trivial⟩
      · refine ⟨hid rfl, fun ans _ => ?_⟩
        cases ans <;> exact trivial

theorem spares_revertAll {leases : List ActionLease} (receipts : List EnforcementReceipt)
    (h : ∀ l ∈ leases, Harmless token lease l) : Spares token lease (b.revertAll receipts leases) := by
  induction leases generalizing receipts with
  | nil => exact trivial
  | cons l rest ih =>
    refine Uses.bind (spares_revert (h l List.mem_cons_self)) fun ret => ?_
    rcases ret with ⟨receipt, _ | err⟩
    · exact ih _ fun x hx => h x (List.mem_cons_of_mem _ hx)
    · exact trivial

theorem spares_revertExpired (now : Time) : Spares token lease (b.revertExpired now) := by
  refine ⟨id, fun ans hans => ?_⟩
  rcases ans with err | leases
  · exact trivial
  · exact spares_revertAll [] hans

theorem uses_sweep {clock now : Time} (h : now ≤ clock) :
    Uses (SweepOps clock) (fun _ _ => True) (b.revertExpired now) :=
  uses_revertExpired h
    (uses_revert trivial (fun _ => trivial) (fun _ => trivial) fun _ _ => trivial)

end Sweeper

section Applier

variable {b : Broker}

/-- The lease that a call has written. -/
def written : (op : BrokerOp) → op.Answer → Option ActionLease
  | .store (.upsert l), .ok _ => some l
  | _, _ => none

/-- Only the lease last written is ever acknowledged. -/
def AcksWritten : BrokerProgram Broker.Renewal → Prop
  | ret _ => True
  | call op next => ∀ r, (∀ l, acknowledged (next r) = some l → written op r = some l) ∧ AcksWritten (next r)

theorem acksWritten_renewal (ids : GeneratedIDs) (r : ActionResolution) : AcksWritten (b.renewal ids r) := by
  simp only [Broker.renewal, Broker.renewActiveLease, perform_bind]
  refine fun now => ⟨by simp [acknowledged], fun found => ?_⟩
  rcases found with err | (_ | existing)
  · exact ⟨by simp [acknowledged], trivial⟩
  · exact ⟨by simp [acknowledged], trivial⟩
  dsimp only
  cases executionMetadataChanged existing.metadata (b.leaseMetadata r) with
  | some key =>
    refine ⟨by simp [acknowledged], fun ans => ?_⟩
    cases ans <;> exact ⟨by simp [acknowledged], trivial⟩
  | none =>
    refine ⟨by simp [acknowledged], fun ans => ?_⟩
    rcases ans with err | k
    · exact ⟨by simp [acknowledged], trivial⟩
    dsimp only
    by_cases hk : k ≠ existing.fencingToken
    · rw [if_pos hk]
      refine ⟨by simp [acknowledged], fun ans => ?_⟩
      cases ans <;> exact ⟨by simp [acknowledged], trivial⟩
    · rw [if_neg hk]
      by_cases hmax : 0 < b.maxRenewals ∧ b.maxRenewals ≤ leaseRenewalCount existing.metadata
      · rw [if_pos hmax]
        exact ⟨by simp [acknowledged], trivial⟩
      · rw [if_neg hmax]
        refine ⟨by simp [acknowledged], fun ans => ?_⟩
        cases ans <;> exact ⟨by simp [acknowledged, written], trivial⟩

theorem uses_renewActive {t : LeaseTable} (ids : GeneratedIDs) (r : ActionResolution) :
    Uses (RenewalOps t) (JournalAnswers t) (b.renewal ids r) :=
  ⟨trivial, fun _ _ => uses_renewActiveLease _ _ _ _ _⟩

end Applier

section Steps

variable {κ χ ξ : Type} {p : FencedPEP κ χ ξ} {b : Broker} {w w' : World κ}

/-- An acknowledged renewal still stands: its lease has a row, which lasts as long, and until then
no sweep under way disturbs it. -/
structure FencedPEP.Stands (p : FencedPEP κ χ ξ) (t : LeaseTable) (w : World κ)
    (sweeper : BrokerProgram Broker.SweepReturn) (ack : ActionLease) : Prop where
  row : RowOf t ack
  lasts : ∀ l ∈ w.leases, l.leaseID = ack.leaseID → ack.expiresAt ≤ l.expiresAt
  spared : w.clock < ack.expiresAt → Spares (p.tokenOf w ack) ack sweeper

/-- What is known of the threads in a run from a table. -/
structure FencedPEP.Ordered (p : FencedPEP κ χ ξ) (t : LeaseTable) (s : RaceState κ) : Prop where
  rows : KeepsRows t s.world.leases
  applier : Uses (RenewalOps t) (JournalAnswers t) s.applier
  written : AcksWritten s.applier
  sweeper : Uses (SweepOps s.world.clock) (fun _ _ => True) s.sweeper
  stands : ∀ ack ∈ s.acks, p.Stands t s.world s.sweeper ack

theorem leases_brokerStep {π : Type} {pepStep : Environment PepOp PepOp.Answer π} {u u' : World π}
    {op : BrokerOp} {r : op.Answer} (h : brokerStep anyFault pepStep op u r u')
    (hop : ∀ l, op ≠ .store (.upsert l)) : KeepsRows u.leases u'.leases ∧
      ∀ l' ∈ u'.leases, ∃ l ∈ u.leases, l.leaseID = l'.leaseID ∧ l.expiresAt = l'.expiresAt := by
  have hsame : ∀ l' ∈ u.leases, ∃ l ∈ u.leases, l.leaseID = l'.leaseID ∧ l.expiresAt = l'.expiresAt :=
    fun l hl => ⟨l, hl, rfl, rfl⟩
  cases op with
  | now =>
    obtain ⟨-, rfl⟩ := h
    exact ⟨KeepsRows.refl _, hsame⟩
  | pep op =>
    obtain ⟨pep, -, rfl⟩ := h
    exact ⟨KeepsRows.refl _, hsame⟩
  | store op =>
    obtain ⟨f, -, -, rfl⟩ := h
    cases op with
    | upsert l => exact absurd rfl (hop l)
    | findActive | listByStatus | listExpired =>
      rw [StoreOp.handleWith_snd_of_isRead (by exact trivial)]
      exact ⟨KeepsRows.refl _, hsame⟩
    | updateStatus lease =>
      refine ⟨keepsRows_updateStatus _ _ _, ?_⟩
      cases f with
      | before => exact hsame
      | none | after =>
        intro l' hl'
        obtain ⟨l, hl, rfl⟩ := mem_updateActionLeaseStatus.mp hl'
        refine ⟨l, hl, ?_⟩
        split_ifs <;> exact ⟨rfl, rfl⟩

theorem clock_brokerStep {π : Type} {pepStep : Environment PepOp PepOp.Answer π} {u u' : World π}
    {op : BrokerOp} {r : op.Answer} (h : brokerStep anyFault pepStep op u r u') : u'.clock = u.clock := by
  rcases op with _ | op | op
  · obtain ⟨-, rfl⟩ := h
    rfl
  · obtain ⟨f, -, -, rfl⟩ := h
    rfl
  · obtain ⟨pep, -, rfl⟩ := h
    rfl

/-- A call that reverts nothing on the target of a lease leaves its token as it is. -/
theorem tokenOf_brokerStep {op : BrokerOp} {r : op.Answer} {lease : ActionLease}
    (h : p.raceEnv op w r w') (hop : ∀ l, op ≠ .pep (.apply l))
    (hd : ∀ l, op = .pep (.revert l) → leaseFencingKey l ≠ leaseFencingKey lease) :
    p.tokenOf w' lease = p.tokenOf w lease := by
  cases op with
  | now =>
    obtain ⟨-, rfl⟩ := h
    rfl
  | store op =>
    obtain ⟨f, -, -, rfl⟩ := h
    rfl
  | pep op =>
    obtain ⟨pep, ⟨x, hx⟩, rfl⟩ := h
    obtain rfl : (p.handle x op w.pep).2 = pep := by rw [hx]
    cases op with
    | apply l => exact absurd rfl (hop l)
    | currentFencingToken l => rw [FencedPEP.tokenOf, p.current_eq, FencedPEP.tokenOf]
    | revert l =>
      simp only [FencedPEP.tokenOf]
      rcases p.revert_tokens x l w.pep with htokens | htokens
      · rw [htokens, FencingTokens.get_clearCurrent, if_neg fun hh => hd l rfl hh.1.symm]
      · rw [htokens]

theorem answer_currentFencingToken {lease l : ActionLease} {r : Fallible String}
    (h : p.raceEnv (.pep (.currentFencingToken l)) w r w')
    (hkey : leaseFencingKey l = leaseFencingKey lease) (hne : p.tokenOf w lease ≠ "") :
    r = .ok (p.tokenOf w lease) := by
  obtain ⟨pep, ⟨x, hx⟩, rfl⟩ := h
  rw [p.current_eq] at hx
  obtain ⟨rfl, -⟩ := Prod.mk.inj hx
  rw [FencedPEP.tokenOf, ← hkey] at hne ⊢
  rw [FencingTokens.current, if_pos hne]

theorem answer_findActive {t : LeaseTable} {op : BrokerOp} {r : op.Answer} (hk : KeepsRows t w.leases)
    (h : p.raceEnv op w r w') : JournalAnswers t op r := by
  rcases op with _ | op | op
  · exact trivial
  · cases op with
    | findActive adapterID target action level =>
      obtain ⟨f, -, rfl, -⟩ := h
      cases hr : (StoreOp.handleWith (.findActive adapterID target action level) f w.leases).1 with
      | error err => exact trivial
      | ok found =>
        cases found with
        | none => exact trivial
        | some l => exact hk.rowOf (findActiveActionLease_spec (StoreOp.findActive_ok hr)).1
    | upsert | listByStatus | listExpired | updateStatus => exact trivial
  · exact trivial

variable {t : LeaseTable} {s s' : RaceState κ}

namespace FencedPEP.Stands

variable {ack : ActionLease} {sweeper : BrokerProgram Broker.SweepReturn}

theorem weaken (h : p.Stands t w sweeper ack) (hclock : w.clock ≤ w'.clock)
    (hlasts : ∀ l ∈ w'.leases, l.leaseID = ack.leaseID → ack.expiresAt ≤ l.expiresAt)
    (htoken : p.tokenOf w' ack = p.tokenOf w ack) : p.Stands t w' sweeper ack :=
  ⟨h.row, hlasts, fun hlt => htoken ▸ h.spared (lt_of_le_of_lt hclock hlt)⟩

theorem brokerStep {op : BrokerOp} {r : op.Answer} (h : p.Stands t w sweeper ack)
    (hstep : p.raceEnv op w r w') (hop : ∀ l, op ≠ .store (.upsert l))
    (htoken : p.tokenOf w' ack = p.tokenOf w ack) : p.Stands t w' sweeper ack := by
  refine h.weaken (clock_brokerStep hstep).ge (fun l hl hid => ?_) htoken
  obtain ⟨l', hl', hid', hexp⟩ := (leases_brokerStep hstep hop).2 l hl
  exact hexp ▸ h.lasts l' hl' (hid'.trans hid)

end FencedPEP.Stands

namespace FencedPEP.Ordered

theorem applier_step (h : p.Ordered t s) (hguard : p.NoOverlap s .applier)
    (hstep : p.RaceStep b s .applier s') : p.Ordered t s' := by
  obtain ⟨next, w, hadv, rfl⟩ := hstep
  have huses := h.applier.advances (fun op r _ => answer_findActive h.rows) hadv
  obtain ⟨world, applier, sweeper, acks⟩ := s
  cases hadv with
  | @call op after _ _ r hcall =>
    obtain ⟨hop, -⟩ := h.applier
    obtain ⟨hack, hwritten⟩ := h.written r
    have hclock := clock_brokerStep hcall
    have hsweeper : Uses (SweepOps w.clock) (fun _ _ => True) sweeper := hclock ▸ h.sweeper
    have htoken : ∀ ack, p.tokenOf w ack = p.tokenOf world ack := by
      refine fun ack => tokenOf_brokerStep hcall (fun l hl => ?_) fun l hl => ?_ <;>
        subst hl <;> exact hop.elim
    by_cases hupsert : ∃ l, op = .store (.upsert l)
    · obtain ⟨l, rfl⟩ := hupsert
      obtain ⟨hspares, hlonger⟩ := hguard l rfl
      obtain ⟨row, hrow, hid, ht, hf⟩ := RowOf.keeps hop h.rows
      obtain ⟨f, -, rfl, rfl⟩ := hcall
      have hout := upsert_outcome world.leases l f
      have hkeep : KeepsRows world.leases (StoreOp.handleWith (.upsert l) f world.leases).2 :=
        KeepsRows.write hrow hout hid.symm ht.symm hf.symm
      refine ⟨h.rows.trans hkeep, huses, hwritten, hsweeper, fun ack hin => ?_⟩
      rcases List.mem_append.mp hin with hin | hin
      · refine (h.stands ack hin).weaken le_rfl (fun x hx hxid => ?_) (htoken ack)
        rcases hout with ⟨hsame, -⟩ | hw
        · exact (h.stands ack hin).lasts x (hsame ▸ hx) hxid
        · rcases (hw x).mp hx with rfl | ⟨hx, -⟩
          · exact hlonger ack hin hxid.symm
          · exact (h.stands ack hin).lasts x hx hxid
      · have hl := hack ack (by simpa using hin)
        have hok : (StoreOp.handleWith (.upsert l) f world.leases).1 = .ok () ∧ l = ack := by
          revert hl
          cases f <;> simp [Kernloom.written, StoreOp.handleWith, StoreOp.fail, StoreOp.handle]
        obtain ⟨hok, rfl⟩ := hok
        refine ⟨hop, fun x hx hxid => ?_, fun _ => htoken l ▸ hspares⟩
        have hw := hout.resolve_left fun hh => hh.2 hok
        rcases (hw x).mp hx with rfl | ⟨-, hne⟩
        · exact le_rfl
        · exact absurd hxid hne
    · push Not at hupsert
      refine ⟨h.rows.trans (leases_brokerStep hcall hupsert).1, huses, hwritten, hsweeper, fun ack hin => ?_⟩
      rcases List.mem_append.mp hin with hin | hin
      · exact (h.stands ack hin).brokerStep hcall hupsert (htoken ack)
      · have hl := hack ack (by simpa using hin)
        exfalso
        rcases op with _ | op | op
        · simp [Kernloom.written] at hl
        · cases op with
          | upsert l => exact hupsert l rfl
          | findActive | listByStatus | listExpired | updateStatus => simp [Kernloom.written] at hl
        · simp [Kernloom.written] at hl

/-- A sweep lists no lease whose renewal stands, and no other lease that would disturb it. -/
theorem listed_harmless (h : p.Ordered t s)
    (hdistinct : ∀ l ∈ t, ∀ l' ∈ t, l.fencingToken = l'.fencingToken → l.leaseID = l'.leaseID)
    {now : Time} (hnow : now ≤ s.world.clock) {ack l : ActionLease} (hack : ack ∈ s.acks)
    (hlt : s.world.clock < ack.expiresAt) (hl : l ∈ s.world.leases) (hexp : l.expiresAt ≤ now)
    (htoken : leaseFencingKey l = leaseFencingKey ack → l.leaseID ≠ ack.leaseID →
      p.tokenOf s.world ack ≠ "" ∧ p.tokenOf s.world ack = ack.fencingToken) :
    Harmless (p.tokenOf s.world ack) ack l := by
  have hstands := h.stands ack hack
  have hne : l.leaseID ≠ ack.leaseID := by
    intro hid
    exact absurd hlt (not_lt.mpr ((hstands.lasts l hl hid).trans (hexp.trans hnow)))
  refine ⟨hne, fun hkey => ?_⟩
  obtain ⟨hsome, htok⟩ := htoken hkey hne
  refine ⟨hsome, fun hsame => hne ?_⟩
  obtain ⟨row, hrow, hid, -, hf⟩ := h.rows.rowOf hl
  obtain ⟨row', hrow', hid', -, hf'⟩ := hstands.row
  rw [← hid, ← hid']
  exact hdistinct row hrow row' hrow' (hf.trans (hsame.symm.trans (htok.trans hf'.symm)))

theorem sweeper_step (h : p.Ordered t s)
    (hdistinct : ∀ l ∈ t, ∀ l' ∈ t, l.fencingToken = l'.fencingToken → l.leaseID = l'.leaseID)
    (hguard : p.NoOverlap s .sweeper) (hstep : p.RaceStep b s .sweeper s') : p.Ordered t s' := by
  obtain ⟨next, w, hadv, rfl⟩ := hstep
  have huses := h.sweeper.advances (fun _ _ _ _ => trivial) hadv
  obtain ⟨world, applier, sweeper, acks⟩ := s
  cases hadv with
  | @call op after _ _ r hcall =>
    have hclock := clock_brokerStep hcall
    obtain ⟨hop, -⟩ := h.sweeper
    have hupsert : ∀ l, op ≠ .store (.upsert l) := by
      rintro l rfl
      exact hop
    refine ⟨h.rows.trans (leases_brokerStep hcall hupsert).1, h.applier, h.written, ?_, fun ack hin => ?_⟩
    · exact hclock ▸ huses
    have hstands := h.stands ack hin
    by_cases hlt : world.clock < ack.expiresAt
    · obtain ⟨hquiet, hrest⟩ := hstands.spared hlt
      have htoken : p.tokenOf w ack = p.tokenOf world ack := by
        refine tokenOf_brokerStep hcall (fun l hl => ?_) fun l hl hkey => ?_
        · subst hl
          exact hop
        · subst hl
          exact hquiet hkey
      have hanswer : SweepAnswers (p.tokenOf world ack) ack op r := by
        rcases op with _ | op | op
        · exact trivial
        · cases op with
          | listExpired now =>
            obtain ⟨f, -, rfl, -⟩ := hcall
            cases f with
            | none =>
              intro l hl
              obtain ⟨hexp, hslot⟩ := hguard now rfl l hl
              exact h.listed_harmless hdistinct hop hin hlt (mem_listExpiredActionLeases.mp hl).1 hexp
                (hslot ack hin hlt)
            | before err | after err => exact trivial
          | upsert | findActive | listByStatus | updateStatus => exact trivial
        · cases op with
          | currentFencingToken l => exact answer_currentFencingToken hcall
          | apply | revert => exact trivial
      obtain ⟨hrow, hlasts, -⟩ := hstands.brokerStep hcall hupsert htoken
      exact ⟨hrow, hlasts, fun _ => htoken ▸ hrest r hanswer⟩
    · refine ⟨hstands.row, fun l hl hid => ?_, fun hlt' => absurd (hclock ▸ hlt') hlt⟩
      obtain ⟨l', hl', hid', hexp⟩ := (leases_brokerStep hcall hupsert).2 l hl
      exact hexp ▸ hstands.lasts l' hl' (hid'.trans hid)

theorem step {ev : RaceEvent} (h : p.Ordered t s)
    (hdistinct : ∀ l ∈ t, ∀ l' ∈ t, l.fencingToken = l'.fencingToken → l.leaseID = l'.leaseID)
    (hstep : Guarded p.NoOverlap (p.RaceStep b) s ev s') : p.Ordered t s' := by
  obtain ⟨hguard, hstep⟩ := hstep
  cases ev with
  | renew ids r =>
    obtain ⟨-, rfl⟩ := hstep
    exact ⟨h.rows, uses_renewActive ids r, acksWritten_renewal ids r, h.sweeper, h.stands⟩
  | sweep now =>
    obtain ⟨-, hnow, rfl⟩ := hstep
    refine ⟨h.rows, h.applier, h.written, uses_sweep hnow, fun ack hin => ?_⟩
    exact ⟨(h.stands ack hin).row, (h.stands ack hin).lasts, fun _ => spares_revertExpired now⟩
  | applier => exact h.applier_step hguard hstep
  | sweeper => exact h.sweeper_step hdistinct hguard hstep
  | clock now =>
    obtain ⟨hle, rfl⟩ := hstep
    refine ⟨h.rows, h.applier, h.written, h.sweeper.mono (fun op hop => ?_) fun _ _ hh => hh,
      fun ack hin => (h.stands ack hin).weaken hle (h.stands ack hin).lasts rfl⟩
    rcases op with _ | op | op
    · exact hop
    · cases op with
      | listExpired at' => exact le_trans (show at' ≤ s.world.clock from hop) hle
      | upsert | findActive | listByStatus | updateStatus => exact hop
    · cases op <;> exact hop

end FencedPEP.Ordered

/-- Both threads are idle, and nothing has been acknowledged. -/
def RaceState.Idle (s : RaceState κ) : Prop :=
  nextOp s.applier = none ∧ nextOp s.sweeper = none ∧ s.acks = []

/-- No renewal that was acknowledged is disturbed before its expiry. -/
def RaceState.Undisturbed (s : RaceState κ) : Prop :=
  ∀ ack ∈ s.acks, s.world.clock < ack.expiresAt → ∀ op ∈ nextOp s.sweeper, ¬ Disturbs ack op

theorem RaceState.Idle.ordered (h : s.Idle) : p.Ordered s.world.leases s := by
  obtain ⟨world, applier, sweeper, acks⟩ := s
  obtain ⟨happlier, hsweeper, rfl⟩ := h
  cases applier with
  | call op next => simp [nextOp] at happlier
  | ret ren =>
    cases sweeper with
    | call op next => simp [nextOp] at hsweeper
    | ret swept => exact ⟨KeepsRows.refl _, trivial, trivial, trivial, by simp⟩

/-- In every run in which no renewal overlaps a sweep that is still to disturb it, no sweep disturbs
a lease between the acknowledgement of its renewal and its expiry. -/
theorem renewal_outlasts_sweeps {s₀ : RaceState κ} {es : List RaceEvent} (h₀ : s₀.Idle)
    (hdistinct : ∀ l ∈ s₀.world.leases, ∀ l' ∈ s₀.world.leases, l.fencingToken = l'.fencingToken →
      l.leaseID = l'.leaseID)
    (hrun : Run (Guarded p.NoOverlap (p.RaceStep b)) s₀ es s) : s.Undisturbed := by
  have h : p.Ordered s₀.world.leases s :=
    hrun.invariant h₀.ordered fun h hstep => h.step hdistinct hstep
  intro ack hack hlt op hop
  have hspared := (h.stands ack hack).spared hlt
  cases hs : s.sweeper with
  | ret swept => simp [hs, nextOp] at hop
  | call op' next =>
    rw [hs] at hspared
    obtain rfl : op' = op := by simpa [hs, nextOp] using hop
    exact hspared.1

end Steps

section Overlap

variable {κ χ ξ : Type} (p : FencedPEP κ χ ξ) (x : ξ) (b : Broker)

/-- The same steps when nothing fails. -/
def raceNext (s : RaceState κ) : RaceEvent → RaceState κ
  | .renew ids r => { s with applier := b.renewal ids r }
  | .sweep now => { s with sweeper := b.revertExpired now }
  | .applier =>
    let left := advance (brokerHandle (p.handle x) .none) s.applier s.world
    { s with world := left.2, applier := left.1, acks := s.acks ++ (acknowledged left.1).toList }
  | .sweeper =>
    let left := advance (brokerHandle (p.handle x) .none) s.sweeper s.world
    { s with world := left.2, sweeper := left.1 }
  | .clock now => { s with world := { s.world with clock := now } }

def racePossible (s : RaceState κ) : RaceEvent → Bool
  | .renew .. => (nextOp s.applier).isNone
  | .sweep now => (nextOp s.sweeper).isNone && now ≤ s.world.clock
  | .applier => (nextOp s.applier).isSome
  | .sweeper => (nextOp s.sweeper).isSome
  | .clock now => s.world.clock ≤ now

theorem step_raceNext {s : RaceState κ} {ev : RaceEvent} (h : racePossible s ev = true) :
    p.RaceStep b s ev (raceNext p x b s ev) := by
  have hcall : ∀ op w, p.raceEnv op w (brokerHandle (p.handle x) .none op w).1
      (brokerHandle (p.handle x) .none op w).2 :=
    fun op w => brokerStep_brokerHandle trivial (fun op s => ⟨x, rfl⟩) op w
  cases ev with
  | renew ids r => exact ⟨Option.isNone_iff_eq_none.mp h, rfl⟩
  | sweep now =>
    obtain ⟨hidle, hnow⟩ := Bool.and_eq_true_iff.mp h
    exact ⟨Option.isNone_iff_eq_none.mp hidle, of_decide_eq_true hnow, rfl⟩
  | applier => exact ⟨_, _, advances_advance h fun op => hcall op _, rfl⟩
  | sweeper => exact ⟨_, _, advances_advance h fun op => hcall op _, rfl⟩
  | clock now => exact ⟨of_decide_eq_true h, rfl⟩

/-- Whether every event of a list is possible in its turn. -/
def allPossible : RaceState κ → List RaceEvent → Bool
  | _, [] => true
  | s, ev :: es => racePossible s ev && allPossible (raceNext p x b s ev) es

/-- Whether every event of a list meets a condition in its turn. -/
def AllMeet (guard : RaceState κ → RaceEvent → Prop) : RaceState κ → List RaceEvent → Prop
  | _, [] => True
  | s, ev :: es => guard s ev ∧ AllMeet guard (raceNext p x b s ev) es

theorem run_raceNext {guard : RaceState κ → RaceEvent → Prop} {s : RaceState κ} {es : List RaceEvent}
    (h : allPossible p x b s es = true) (hmeet : AllMeet p x b guard s es) :
    Run (Guarded guard (p.RaceStep b)) s es (es.foldl (raceNext p x b) s) := by
  induction es generalizing s with
  | nil => exact .nil
  | cons ev es ih =>
    obtain ⟨hev, hes⟩ := Bool.and_eq_true_iff.mp h
    exact .cons ⟨hmeet.1, step_raceNext p x b hev⟩ (ih hes hmeet.2)

theorem allMeet_trivial {s : RaceState κ} {es : List RaceEvent} :
    AllMeet p x b (fun _ _ => True) s es := by
  induction es generalizing s with
  | nil => exact trivial
  | cons ev es ih => exact ⟨trivial, ih⟩

end Overlap

section Raced

/-- A hard rate limit whose minute is over. -/
def dueLease : ActionLease :=
  { leaseID := "lease-00000000-0000-4000-8000-000000000001"
    decisionID := "decision-1"
    nodeID := "node-1"
    adapterID := "kliq-source-pep"
    target := "source:10.0.0.1"
    action := "enforce.traffic.rate_limit"
    level := "hard"
    status := .active
    fencingToken := "3a74fe4a8c76b0d1cff8180024f51750"
    appliedAt := 63864979200000000000
    expiresAt := 63864979260000000000 }

def racingBroker : Broker :=
  { nodeID := "node-1", adapterID := "kliq-source-pep", sha256 := digestsOf [] }

def raceStart : RaceState (BrokeredSourcePEP Unit) where
  world := ⟨Keyed.Table.empty.upsert dueLease, 63864979260000000000,
    { adapter := (), currentTokens := (∅ : FencingTokens).setCurrent dueLease }⟩
  applier := ret {}
  sweeper := ret {}

def renewDue : RaceEvent := .renew ⟨"2", "00000000-0000-4000-8000-000000000002"⟩
  { decisionID := "decision-2"
    allowed := true
    requestedAction := "enforce.traffic.rate_limit"
    requestedLevel := "hard"
    executableAction := "enforce.traffic.rate_limit"
    executableLevel := "hard"
    target := { granularity := "source", value := "10.0.0.1" }
    ttl := 60 * Duration.second }

abbrev racePEP : FencedPEP (BrokeredSourcePEP Unit) ApplyContext (EnforcementParams × Time) :=
  BrokeredSourcePEP.fenced { transitionSource := fun _ st level now p s => (.ok (applyStateFields st level now p), s) }

abbrev raceAfter (es : List RaceEvent) : RaceState (BrokeredSourcePEP Unit) :=
  es.foldl (raceNext racePEP ({}, 0) racingBroker) raceStart

def renewed : List RaceEvent := [renewDue, .applier, .applier, .applier, .applier]

/-- The sweep lists the lease, the renewal is acknowledged, and the sweep goes on. -/
def overtaken : List RaceEvent :=
  [.sweep 63864979260000000000, .sweeper] ++ renewed ++ [.sweeper, .sweeper]

theorem overtaken_facts : allPossible racePEP ({}, 0) racingBroker raceStart overtaken = true ∧
    ∃ ack ∈ (raceAfter overtaken).acks, (raceAfter overtaken).world.clock < ack.expiresAt ∧
      ∃ op ∈ nextOp (raceAfter overtaken).sweeper, Disturbs ack op := by
  decide +kernel

theorem idle_raceStart : raceStart.Idle := ⟨rfl, rfl, rfl⟩

theorem distinct_raceStart : ∀ l ∈ raceStart.world.leases, ∀ l' ∈ raceStart.world.leases,
    l.fencingToken = l'.fencingToken → l.leaseID = l'.leaseID := by
  simp [raceStart, Keyed.Table.mem_upsert]

/-- A sweep under way reverts a lease whose renewal was acknowledged for another minute. -/
theorem overtaken_disturbed : ¬ ∀ es s,
    Run (racePEP.RaceStep racingBroker) raceStart es s → s.Undisturbed := by
  intro h
  obtain ⟨hposs, ack, hack, hlt, op, hop, hdist⟩ := overtaken_facts
  have hrun := (run_raceNext _ _ _ hposs (allMeet_trivial _ _ _)).mono fun hstep => hstep.2
  exact h _ _ hrun ack hack hlt op hop hdist

/-- The same renewal before the sweep. -/
def inTime : List RaceEvent := renewed ++ [.sweep 63864979260000000000, .sweeper]

theorem inTime_facts : allPossible racePEP ({}, 0) racingBroker raceStart inTime = true ∧
    (raceAfter renewed).world.leases.listExpiredActionLeases 63864979260000000000 = [] ∧
    (raceAfter inTime).acks.map ActionLease.expiresAt = [63864979320000000000] ∧
    (raceAfter [renewDue]).acks.length = 0 ∧ (raceAfter [renewDue, .applier]).acks.length = 0 ∧
    (raceAfter [renewDue, .applier, .applier]).acks.length = 0 ∧
    (raceAfter [renewDue, .applier, .applier, .applier]).acks.length = 0 := by
  decide +kernel

theorem noOverlap_idle {s : RaceState (BrokeredSourcePEP Unit)} (hs : s.sweeper = ret {})
    (hack : s.acks.length = 0) : racePEP.NoOverlap s .applier := by
  rintro l -
  rw [List.length_eq_zero_iff.mp hack, hs]
  exact ⟨trivial, by simp⟩

theorem noOverlap_none {s : RaceState (BrokeredSourcePEP Unit)} {now : Time}
    (hs : s.sweeper = racingBroker.revertExpired now) (hnone : s.world.leases.listExpiredActionLeases now = []) :
    racePEP.NoOverlap s .sweeper := by
  intro now' hnow
  rw [hs] at hnow
  obtain rfl : now = now' := by simpa [Broker.revertExpired, nextOp] using hnow
  simp [hnone]

/-- An acknowledged renewal that no sweep overlaps is left alone. -/
theorem inTime_undisturbed : (raceAfter inTime).Undisturbed ∧
    (raceAfter inTime).acks.map ActionLease.expiresAt = [63864979320000000000] := by
  obtain ⟨hposs, hnone, hexp, h₁, h₂, h₃, h₄⟩ := inTime_facts
  have hmeet : AllMeet racePEP ({}, 0) racingBroker racePEP.NoOverlap raceStart inTime :=
    ⟨trivial, noOverlap_idle rfl h₁, noOverlap_idle rfl h₂, noOverlap_idle rfl h₃, noOverlap_idle rfl h₄,
      trivial, noOverlap_none rfl hnone, trivial⟩
  exact ⟨renewal_outlasts_sweeps idle_raceStart distinct_raceStart (run_raceNext _ _ _ hposs hmeet), hexp⟩

end Raced

end Kernloom
