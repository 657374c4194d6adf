import Kernloom.BrokerRules
import Kernloom.Transition

/-! A PEP that records the fencing token of the enforcement it holds on each target, under failures
of every call and crashes between any two. Every enforcement held is journaled, and an operation
that reports no failure leaves a live enforcement live. -/

namespace Kernloom

open Effects Effects.Program LeaseTable

/-- The tokens of the enforcement held, by target. -/
abbrev Held := String → Option String

/-- The PEP: an application or a read may fail, an application also after taking effect, a revert
only without effect; the token of a target that holds nothing reads as anything. -/
def holdStep : Environment PepOp PepOp.Answer Held
  | .apply l, s, r, s' =>
    (∃ k, (k = "" ∨ k = l.fencingToken) ∧ r = .ok k ∧
      s' = Function.update s l.target (some l.fencingToken)) ∨
    ∃ err, r = .error err ∧ (s' = s ∨ s' = Function.update s l.target (some l.fencingToken))
  | .currentFencingToken l, s, r, s' =>
    s' = s ∧ ((∃ err, r = .error err) ∨ ∃ k, r = .ok k ∧ ∀ k', s l.target = some k' → k = k')
  | .revert l, s, r, s' =>
    (r = .ok () ∧ s' = Function.update s l.target none) ∨ ∃ err, r = .error err ∧ s' = s

abbrev heldEnv : Environment BrokerOp BrokerOp.Answer (World Held) := brokerStep anyFault holdStep

/-- The statuses of a lease whose enforcement may still be held. -/
def LeaseStatus.MayHold (s : LeaseStatus) : Prop :=
  s = .pending ∨ s = .active ∨ s = .failed ∨ s = .superseded

/-- The statuses from which a lease's enforcement is still to be removed. -/
def LeaseStatus.Live (s : LeaseStatus) : Prop := s = .pending ∨ s = .active

/-- If a target holds an enforcement, a lease of the target has its token and one of the statuses. -/
def HeldBy (among : LeaseStatus → Prop) (t : LeaseTable) (held : Held) (target : String) : Prop :=
  ∀ k, held target = some k → ∃ l ∈ t, l.target = target ∧ l.fencingToken = k ∧ among l.status

/-- Every enforcement held is journaled. -/
def Journaled (w : World Held) : Prop := ∀ target, HeldBy LeaseStatus.MayHold w.leases w.pep target

/-- The enforcement held on these targets is live. -/
def LiveOn (targets : String → Prop) (w : World Held) : Prop :=
  ∀ target, targets target → HeldBy LeaseStatus.Live w.leases w.pep target

section HeldBy

variable {among : LeaseStatus → Prop} {t t' : LeaseTable} {held : Held} {target : String}
  {new : ActionLease}

/-- A row is written that does not take the token of the target from it. -/
theorem HeldBy.write (h : HeldBy among t held target) (hw : Writes t new t')
    (hnew : ∀ l ∈ t, l.leaseID = new.leaseID → l.target = target → held target = some l.fencingToken →
      among l.status → new.target = target ∧ new.fencingToken = l.fencingToken ∧ among new.status) :
    HeldBy among t' held target := by
  intro k hk
  obtain ⟨l, hl, ht, rfl, hs⟩ := h k hk
  by_cases hid : l.leaseID = new.leaseID
  · obtain ⟨ht', hk', hs'⟩ := hnew l hl hid ht hk hs
    exact ⟨new, (hw new).mpr (.inl rfl), ht', hk', hs'⟩
  · exact ⟨l, (hw l).mpr (.inr ⟨hl, hid⟩), ht, rfl, hs⟩

theorem HeldBy.of_mem {l : ActionLease} (hl : l ∈ t) (ht : l.target = target) (hs : among l.status)
    (hk : held target = some l.fencingToken) : HeldBy among t held target :=
  fun _ hk' => ⟨l, hl, ht, Option.some.inj (hk.symm.trans hk'), hs⟩

theorem HeldBy.of_none (hk : held target = none) : HeldBy among t held target := by
  intro k hk'
  rw [hk] at hk'
  exact absurd hk' (by simp)

theorem HeldBy.congr {held' : Held} (h : HeldBy among t held target)
    (hsame : held' target = held target) : HeldBy among t held' target :=
  fun k hk => h k (hsame ▸ hk)

end HeldBy

section Operations

variable {b : Broker} {w : World Held} {r : ActionResolution} {decisionID target : String}
  {metadata : GoMap String} {now : Time} {targets : String → Prop}

theorem Journaled.write {t' : LeaseTable} {new : ActionLease} (h : Journaled w) (hw : Writes w.leases new t')
    (hnew : ∀ l ∈ w.leases, l.leaseID = new.leaseID → w.pep l.target = some l.fencingToken →
      l.status.MayHold → new.target = l.target ∧ new.fencingToken = l.fencingToken ∧ new.status.MayHold) :
    Journaled { w with leases := t' } := by
  refine fun target => (h target).write hw fun l hl hid ht hk hs => ?_
  subst ht
  exact hnew l hl hid hk hs

/-- A status that may hold enforcement is written, or one of a lease that holds none. -/
theorem Journaled.setStatus {t' : LeaseTable} {row lease : ActionLease} {ans : Fallible Unit}
    (h : Journaled w) (hrow : row ∈ w.leases)
    (hw : WriteOutcome w.leases (LeaseTable.setStatus lease row) ans t')
    (hs : w.pep row.target = some row.fencingToken → lease.status.MayHold) :
    Journaled { w with leases := t' } := by
  rcases hw with ⟨rfl, _⟩ | hw
  · exact h
  · refine h.write hw fun l hl hid hk _ => ?_
    obtain rfl := Keyed.Table.eq_of_key_eq hl hrow hid
    exact ⟨rfl, rfl, hs hk⟩

/-- A row of another target is written, or one of a lease that holds none. -/
theorem LiveOn.setStatus {t' : LeaseTable} {row lease : ActionLease} {ans : Fallible Unit}
    (h : LiveOn targets w) (hrow : row ∈ w.leases)
    (hw : WriteOutcome w.leases (LeaseTable.setStatus lease row) ans t')
    (hs : targets row.target → w.pep row.target ≠ some row.fencingToken) :
    LiveOn targets { w with leases := t' } := by
  rcases hw with ⟨rfl, _⟩ | hw
  · exact h
  · refine fun x hx => (h x hx).write hw fun l hl hid ht hk _ => ?_
    obtain rfl := Keyed.Table.eq_of_key_eq hl hrow hid
    subst ht
    exact absurd hk (hs hx)

/-- A renewal keeps every enforcement journaled; only an enforcement of its own target may be left
to a superseded lease, and then nothing was renewed. -/
theorem wp_renew_held (h : Journaled w) (hlive : LiveOn targets w) :
    wp heldEnv Journaled
      (fun ren w' => Journaled w' ∧ w'.pep = w.pep ∧ KeepsRows w.leases w'.leases ∧
        LiveOn (fun x => targets x ∧ x ≠ target) w' ∧
        (ren.err = none → ren.renewed = true → LiveOn targets w') ∧
        (ren.renewed = false → ren.skipReason = ""))
      (b.renewActiveLease r decisionID target metadata now) w := by
  have hother : LiveOn (fun x => targets x ∧ x ≠ target) w := fun x hx => hlive x hx.1
  refine wp_renewActiveLease h (fun existing ans pep hpep => ?_) fun renewal w' hstep => ?_
  · obtain rfl := hpep.1
    exact h
  cases hstep with
  | unread => exact ⟨h, h, rfl, KeepsRows.refl _, hother, by simp, by simp⟩
  | absent hfind => exact ⟨h, h, rfl, KeepsRows.refl _, hother, by simp, by simp⟩
  | @ended existing ended pep f hfind hends hid hf =>
    obtain ⟨hmem, -, htarget, -⟩ := findActiveActionLease_spec hfind
    obtain rfl := hends.pep_eq fun _ _ hpep => hpep.1
    have hw := updateStatus_outcome hmem hid.symm f
    have hj : Journaled { w with leases := (StoreOp.handleWith (.updateStatus ended) f w.leases).2 } := by
      refine h.setStatus hmem hw fun hheld => ?_
      rcases hends with ⟨hstatus, -⟩ | ⟨-, token, hpep, hstale⟩
      · exact .inr (.inr (.inr hstatus))
      · obtain ⟨-, ⟨err, herr⟩ | ⟨k, hk, hcurrent⟩⟩ := hpep
        · cases herr
        · obtain rfl := Except.ok.inj hk
          exact absurd (hcurrent _ hheld) hstale
    have hl := hother.setStatus hmem hw fun hx => absurd htarget hx.2
    refine ⟨hj, ?_⟩
    rcases (StoreOp.handleWith (.updateStatus ended) f w.leases).1 with err | _
    · exact ⟨hj, rfl, KeepsRows.setStatus hmem hw, hl, by simp, by simp⟩
    · exact ⟨hj, rfl, KeepsRows.setStatus hmem hw, hl, by simp, by simp⟩
  | unasked hfind hpep =>
    obtain rfl := hpep.1
    exact ⟨h, h, rfl, KeepsRows.refl _, hother, by simp, by simp⟩
  | spent hfind hstays hspent =>
    obtain rfl := hstays.token.1
    exact ⟨h, h, rfl, KeepsRows.refl _, hother, fun _ _ => hlive, by simp⟩
  | @renewed existing pep f hfind hstays =>
    obtain ⟨hmem, -⟩ := findActiveActionLease_spec hfind
    obtain rfl := hstays.token.1
    have hw := upsert_outcome w.leases (Broker.renewed existing r decisionID metadata now) f
    have hrows := KeepsRows.write hmem hw rfl rfl rfl
    generalize StoreOp.handleWith (.upsert (Broker.renewed existing r decisionID metadata now)) f w.leases = out
      at hw hrows
    obtain ⟨ans, t'⟩ := out
    have hsame : ∀ targets', LiveOn targets' w → LiveOn targets' { w with leases := t' } := by
      intro targets' hl
      rcases hw with ⟨rfl, -⟩ | hw
      · exact hl
      · refine fun x hx => (hl x hx).write hw fun l hl' hid ht _ _ => ?_
        obtain rfl := Keyed.Table.eq_of_key_eq hl' hmem hid
        exact ⟨ht, rfl, .inr rfl⟩
    have hj : Journaled { w with leases := t' } := by
      rcases hw with ⟨rfl, -⟩ | hw
      · exact h
      · refine h.write hw fun l hl hid _ _ => ?_
        obtain rfl := Keyed.Table.eq_of_key_eq hl hmem hid
        exact ⟨rfl, rfl, .inr (.inl rfl)⟩
    refine ⟨hj, ?_⟩
    rcases ans with err | _
    · exact ⟨hj, rfl, hrows, hsame _ hother, by simp, by simp⟩
    · exact ⟨hj, rfl, hrows, hsame _ hother, fun _ _ => hsame _ hlive, by simp⟩

end Operations

section Apply

variable {b : Broker} {w : World Held} {targets : String → Prop} {l : ActionLease} {now : Time}

/-- What holds from the activation of a lease to the end of its application. -/
structure Installed (l : ActionLease) (targets : String → Prop) (w : World Held) : Prop where
  journaled : Journaled w
  mem : l ∈ w.leases
  held : w.pep l.target = some l.fencingToken
  live : LiveOn targets w

theorem Installed.supersede {x : ActionLease} {err : String} {ans : Fallible Unit} {t' : LeaseTable}
    (h : Installed l targets w) (hl : l.status = .active) (hx : x ∈ w.leases) (ht : x.target = l.target)
    (hne : x.leaseID ≠ l.leaseID)
    (hw : WriteOutcome w.leases (LeaseTable.setStatus { x with
      status := .superseded, lastError := err, revertedAt := some now } x) ans t') :
    Installed l targets { w with leases := t' } := by
  have hmem : l ∈ t' := by
    rcases hw with ⟨rfl, _⟩ | hw
    · exact h.mem
    · exact (hw l).mpr (.inr ⟨h.mem, fun hh => hne hh.symm⟩)
  refine ⟨h.journaled.setStatus hx hw fun _ => .inr (.inr (.inr rfl)), hmem, h.held, fun y hy => ?_⟩
  by_cases hyt : y = l.target
  · subst hyt
    exact HeldBy.of_mem hmem rfl (.inr hl) h.held
  · have hother : LiveOn (· = y) w := fun z hz => hz ▸ h.live y hy
    exact hother.setStatus hx hw (fun hh => absurd (hh.symm.trans ht) hyt) y rfl

/-- The application of a pending lease: whatever fails, its enforcement is journaled; when nothing
does, it is live. -/
theorem wp_createLease_held {receipt : EnforcementReceipt} (h : Journaled w) (hlive : LiveOn targets w)
    (hnot : ¬ targets l.target) (hfresh : ∀ x ∈ w.leases, x.leaseID ≠ l.leaseID)
    (hpending : l.status = .pending) :
    wp heldEnv Journaled
      (fun ret w' => Journaled w' ∧ (∀ x, x ≠ l.target → w'.pep x = w.pep x) ∧
        (ret.err = none → LiveOn (fun x => targets x ∨ x = l.target) w'))
      (b.createLease l receipt now) w := by
  simp only [Broker.createLease, perform_bind]
  refine wp_upsert fun ans t' hw => ?_
  have hj : Journaled { w with leases := t' } := by
    rcases hw with ⟨rfl, _⟩ | hw
    · exact h
    · exact h.write hw fun x hx hid => absurd hid (hfresh x hx)
  refine ⟨hj, ?_⟩
  rcases ans with err | ⟨⟩
  · exact ⟨hj, fun _ _ => rfl, fun hh => by simp [Broker.failedReturn] at hh⟩
  have hw : Writes w.leases l t' := hw.resolve_left fun hh => hh.2 rfl
  have hmem : l ∈ t' := (hw l).mpr (.inl rfl)
  have hlive : LiveOn targets { w with leases := t' } := fun x hx =>
    (hlive x hx).write hw fun y hy hid => absurd hid (hfresh y hy)
  -- the enforcement takes the token of the lease, whose row is pending by now
  have happlied : Journaled ⟨t', w.clock, Function.update w.pep l.target (some l.fencingToken)⟩ := by
    intro x
    by_cases hx : x = l.target
    · subst hx
      exact HeldBy.of_mem hmem rfl (.inl hpending) (by simp)
    · exact (hj x).congr (by simp [hx])
  refine wp_pep.mpr fun ans pep hpep => ?_
  rcases hpep with ⟨k, hk, rfl, rfl⟩ | ⟨err, rfl, hpep⟩
  · refine ⟨happlied, ?_⟩
    dsimp only
    rw [if_neg (by rcases hk with rfl | rfl <;> simp)]
    refine wp_updateStatus hmem rfl fun ans t'' hw' => ?_
    have hj' := happlied.setStatus hmem hw' fun _ => .inr (.inl rfl)
    refine ⟨hj', ?_⟩
    have hframe : ∀ x, x ≠ l.target →
        Function.update w.pep l.target (some l.fencingToken) x = w.pep x := by
      intro x hx
      simp [hx]
    rcases ans with err | ⟨⟩
    · exact ⟨hj', hframe, fun hh => by simp [Broker.failedReturn] at hh⟩
    have hw' := hw'.resolve_left fun hh => hh.2 rfl
    have hactive : { l with status := .active } ∈ t'' := (hw' _).mpr (.inl rfl)
    have hinstalled : Installed { l with status := .active } (fun x => targets x ∨ x = l.target)
        ⟨t'', w.clock, Function.update w.pep l.target (some l.fencingToken)⟩ := by
      refine ⟨hj', hactive, by simp, fun x hx => ?_⟩
      by_cases hxt : x = l.target
      · subst hxt
        exact HeldBy.of_mem hactive rfl (.inr rfl) (by simp)
      · refine HeldBy.congr ((hlive x (hx.resolve_right hxt)).write hw' fun y hy hid ht => ?_) (by simp [hxt])
        obtain rfl := Keyed.Table.eq_of_key_eq hy hmem hid
        exact absurd ht.symm hxt
    rw [wp_bind]
    let kept (w' : World Held) : Prop :=
      Installed { l with status := .active } (fun x => targets x ∨ x = l.target) w' ∧
        w'.pep = Function.update w.pep l.target (some l.fencingToken)
    have hsupersede : ∀ w' x f err, kept w' → anyFault f → x ∈ w'.leases → x.status = .active →
        x.adapterID = b.adapterID → x.target = l.target → x.leaseID ≠ l.leaseID →
        x.strength < ActionLease.strength { l with status := .active } →
        kept { w' with leases := (StoreOp.handleWith (.updateStatus { x with
          status := .superseded, lastError := err, revertedAt := some now }) f w'.leases).2 } := by
      rintro w' x f err ⟨hw', hpep⟩ _ hx _ _ ht hne _
      exact ⟨hw'.supersede rfl hx ht hne (@updateStatus_outcome w'.leases { x with
        status := .superseded, lastError := err, revertedAt := some now } x hx rfl f), hpep⟩
    have hpep : wp heldEnv kept (fun _ => kept)
        (b.supersedeWeakerActiveLeases { l with status := .active } now)
        ⟨t'', w.clock, Function.update w.pep l.target (some l.fencingToken)⟩ :=
      wp_supersedeWeakerActiveLeases ⟨hinstalled, rfl⟩ hsupersede
    refine wp_mono (wp_crash hpep fun _ hh => hh.1.journaled) ?_
    rintro ans w' ⟨hw', hpep⟩
    rcases ans with err | _
    · exact ⟨hw'.journaled, fun x hx => hpep ▸ hframe x hx, fun hh => by simp [Broker.failedReturn] at hh⟩
    · exact ⟨hw'.journaled, fun x hx => hpep ▸ hframe x hx, fun _ => hw'.live⟩
  · have hj' : Journaled ⟨t', w.clock, pep⟩ := by
      rcases hpep with rfl | rfl
      · exact hj
      · exact happlied
    have hframe : ∀ x, x ≠ l.target → pep x = w.pep x := by
      intro x hx
      rcases hpep with rfl | rfl
      · rfl
      · simp [hx]
    refine ⟨hj', wp_updateStatus hmem rfl fun ans t'' hw' => ?_⟩
    have hj'' := hj'.setStatus hmem hw' fun _ => .inr (.inr (.inl rfl))
    exact ⟨hj'', hj'', hframe, fun hh => by simp [Broker.failedReturn] at hh⟩

/-- A target's enforcement is live, if it holds one. -/
def LiveHeld (w : World Held) (target : String) : Prop :=
  HeldBy LeaseStatus.Live w.leases w.pep target

/-- An application keeps every enforcement journaled; when it reports no failure, what was live
stays live, and so is what it installed. -/
theorem wp_apply_held {ids : GeneratedIDs} {r : ActionResolution} (h : Journaled w)
    (hfresh : ∀ x ∈ w.leases, x.leaseID ≠ "lease-" ++ ids.lease) :
    wp heldEnv Journaled
      (fun ret w' => Journaled w' ∧
        (ret.err = none → ∀ x, LiveHeld w x ∨ w'.pep x ≠ w.pep x → LiveHeld w' x))
      (b.apply ids r) w := by
  have hlive : LiveOn (LiveHeld w) w := fun _ hx => hx
  refine wp_apply h (fun _ _ => ⟨h, fun _ x hx => hx.resolve_right (not_not.mpr rfl)⟩) ?_
  intro _ _ _ _ receipt
  refine wp_mono (wp_renew_held h hlive) ?_
  rintro ⟨lease, renewed, skipReason, err⟩ w' ⟨hj, hpep, hrows, hother, hdone, hskip⟩
  have hkept : LiveOn (LiveHeld w) w' → ∀ x, LiveHeld w x ∨ w'.pep x ≠ w.pep x → LiveHeld w' x :=
    fun hl x hx => hl x (hx.resolve_right (not_not.mpr (by rw [hpep])))
  rcases err with _ | err
  · simp only [Broker.afterRenewal]
    by_cases hreason : skipReason ≠ ""
    · rw [if_pos hreason]
      have hrenewed : renewed = true := by
        cases renewed with
        | true => rfl
        | false => exact absurd (hskip rfl) hreason
      exact ⟨hj, fun _ => hkept (hdone rfl hrenewed)⟩
    rw [if_neg hreason]
    cases renewed with
    | true => exact ⟨hj, fun _ => hkept (hdone rfl rfl)⟩
    | false =>
      rw [if_neg (by decide)]
      have hunused : ∀ x ∈ w'.leases, x.leaseID ≠ "lease-" ++ ids.lease := by
        intro x hx hid
        obtain ⟨y, hy, hyid⟩ := hrows.2 x hx
        exact hfresh y hy (hyid.trans hid)
      refine wp_mono (wp_createLease_held hj hother (fun hh => hh.2 rfl) hunused rfl) ?_
      rintro ret w'' ⟨hj', hframe, hnew⟩
      refine ⟨hj', fun hret x hx => hnew hret x ?_⟩
      by_cases hxt : x = targetString r.target
      · exact .inr hxt
      · rw [← hpep, hframe x hxt] at hx
        exact .inl ⟨hx.resolve_right (not_not.mpr rfl), hxt⟩
  · exact ⟨hj, fun hh => by simp [Broker.failedReturn] at hh⟩

end Apply

end Kernloom
