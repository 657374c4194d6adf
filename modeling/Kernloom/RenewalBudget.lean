import Kernloom.ActionPrerequisites
import Kernloom.GoText

/-! The renewals of a lease are counted in its metadata. How often the time until which a target stays
enforced is extended, over any mixture of renewals and replacements. -/

namespace Kernloom

open Effects Effects.Program Keyed Transition

section Counts

theorem dropWhile_isSpace_digits {cs : List Char} (h : ∀ c ∈ cs, c.isDigit = true) :
    cs.dropWhile isSpace = cs := by
  cases cs with
  | nil => rfl
  | cons c cs => exact List.dropWhile_cons_of_neg (by simp [isSpace_of_isDigit (h c List.mem_cons_self)])

theorem trimSpace_repr (n : Nat) : trimSpace (Nat.repr n) = Nat.repr n := by
  unfold trimSpace
  rw [dropWhile_isSpace_digits fun c hc => isDigit_of_mem_repr hc,
    dropWhile_isSpace_digits fun c hc => isDigit_of_mem_repr (List.mem_reverse.mp hc), List.reverse_reverse,
    String.ofList_toList]

/-- A count that fits a machine integer is read back from its text. -/
theorem atoi_itoa {n : Nat} (h : n < 2 ^ 63) : atoi (trimSpace (itoa n)) = some (n : Int) := by
  have hvalue := digitsValue_toDigits n
  have hdigits : ∀ c ∈ (Nat.repr n).toList, c.isDigit = true := fun c hc => isDigit_of_mem_repr hc
  show atoi (trimSpace (Nat.repr n)) = some (n : Int)
  rw [trimSpace_repr]
  unfold atoi
  rw [← toList_repr] at hvalue
  generalize (Nat.repr n).toList = cs at hvalue hdigits ⊢
  dsimp only
  -- a digit is no sign
  have hplus : '+' ∉ cs := fun hc => absurd (hdigits '+' hc) (by decide)
  have hminus : '-' ∉ cs := fun hc => absurd (hdigits '-' hc) (by decide)
  split
  · next m hm =>
    split at hm
    · exact absurd List.mem_cons_self hplus
    · exact absurd List.mem_cons_self hminus
    · rw [hvalue] at hm
      obtain rfl := Option.some.inj hm
      exact if_pos (by simp; omega)
  · next hm =>
    split at hm
    · exact absurd List.mem_cons_self hplus
    · exact absurd List.mem_cons_self hminus
    · rw [hvalue] at hm
      cases hm

theorem leaseRenewalCount_nonneg (metadata : GoMap String) : 0 ≤ leaseRenewalCount metadata := by
  unfold leaseRenewalCount
  split
  · split
    · exact le_refl 0
    · omega
  · exact le_refl 0

theorem leaseRenewalCount_of_get {metadata : GoMap String} {n : Nat} (h : n < 2 ^ 63)
    (hget : metadata.get "broker.renewal_count" = itoa n) : leaseRenewalCount metadata = n := by
  rw [leaseRenewalCount, hget, atoi_itoa h]
  exact if_neg (by omega)

variable {b : Broker} {r : ActionResolution}

theorem prefixed_ne_renewal_count {pre : String} (h : hasPrefix "broker.renewal_count" pre = false)
    (key : String) : "broker.renewal_count" ≠ pre ++ key := fun heq => by
  rw [heq, hasPrefix_append] at h
  cases h

/-- A new lease starts with no renewals. -/
theorem leaseRenewalCount_leaseMetadata : leaseRenewalCount (b.leaseMetadata r) = 0 := by
  have hattributes : "broker.renewal_count" ∉ (r.target.attributes.entries.map fun e =>
      ("target_attr." ++ e.1, e.2)).map Prod.fst := by
    simp only [List.map_map, List.mem_map, not_exists, not_and]
    exact fun e _ => (prefixed_ne_renewal_count (by decide +kernel) e.1).symm
  have hparameters : "broker.renewal_count" ∉ (r.parameters.entries.filterMap fun e =>
      if e.2 = .nil then none else some ("param." ++ e.1, e.2.sprint)).map Prod.fst := by
    intro hmem
    obtain ⟨entry, hentry, heq⟩ := List.mem_map.mp hmem
    obtain ⟨e, -, he⟩ := List.mem_filterMap.mp hentry
    split at he
    · cases he
    · obtain rfl := Option.some.inj he
      exact prefixed_ne_renewal_count (by decide +kernel) e.1 heq.symm
  have haudit : "broker.renewal_count" ∉ (if b.requireAuditReceipt then
      [("policy.requires_audit_receipt", "true")] else []).map Prod.fst := by
    split <;> simp
  have hget : (b.leaseMetadata r).get "broker.renewal_count" = itoa (0 : Nat) := by
    unfold Broker.leaseMetadata
    dsimp only
    rw [GoMap.get_insertAll_of_notMem haudit, GoMap.get_insertAll_of_notMem hparameters,
      GoMap.get_insertAll_of_notMem hattributes, GoMap.ofList, GoMap.get, AList.lookup_to_alist]
    simp [List.dlookup]
    rfl
  exact leaseRenewalCount_of_get (by decide) hget

theorem leaseRenewalCount_renewed {existing : ActionLease} {decisionID : String} {metadata : GoMap String}
    {now : Time} (h : leaseRenewalCount existing.metadata + 1 < 2 ^ 63) :
    leaseRenewalCount (Broker.renewed existing r decisionID metadata now).metadata =
      leaseRenewalCount existing.metadata + 1 := by
  obtain ⟨n, hn⟩ := Int.eq_ofNat_of_zero_le (leaseRenewalCount_nonneg existing.metadata)
  have hget : (Broker.renewed existing r decisionID metadata now).metadata.get "broker.renewal_count" =
      itoa ((n + 1 : Nat) : Int) := by
    simp only [Broker.renewed, GoMap.get_insert, hn]
    rfl
  rw [leaseRenewalCount_of_get (by omega) hget, hn]
  push_cast
  rfl

end Counts

/-- What one enforcement is known by at an adapter. -/
structure EnforcementKey where
  target : String
  action : String
  level : String
  deriving DecidableEq

/-- A lease of the table keeps the enforcement in force. -/
def Enforcing (b : Broker) (key : EnforcementKey) (t : LeaseTable) (l : ActionLease) : Prop :=
  l ∈ t ∧ LeaseTable.isActiveFor b.adapterID key.target key.action key.level l = true

/-- The time until which the target stays enforced is later than it was. -/
def Extends (b : Broker) (key : EnforcementKey) (t t' : LeaseTable) : Prop :=
  ∃ l, Enforcing b key t' l ∧ ∀ l', Enforcing b key t l' → l'.expiresAt < l.expiresAt

/-- The call replaces a lease in force: its execution parameters are others, or the PEP has another token. -/
def Replaces {π : Type} (b : Broker) (pepStep : Environment PepOp PepOp.Answer π) (key : EnforcementKey)
    (w : World π) (r : ActionResolution) : Prop :=
  ∃ existing, Enforcing b key w.leases existing ∧ ¬ RenewalKeeps b pepStep w r existing

/-- What one call does to the leases in force. -/
inductive RenewalOutcome (b : Broker) (key : EnforcementKey) (replaces : Prop) (t t' : LeaseTable) : Prop
  | same (h : ∀ l, Enforcing b key t' l ↔ Enforcing b key t l)
  | renewed (existing new : ActionLease) (hexisting : Enforcing b key t existing)
    (hbudget : leaseRenewalCount existing.metadata < b.maxRenewals)
    (hcount : leaseRenewalCount new.metadata = leaseRenewalCount existing.metadata + 1)
    (h : ∀ l, Enforcing b key t' l ↔ l = new)
  | ended (hreplaces : (∃ l, Enforcing b key t l) → replaces) (h : ∀ l, ¬ Enforcing b key t' l)
  | created (hreplaces : (∃ l, Enforcing b key t l) → replaces) (new : ActionLease)
    (hcount : leaseRenewalCount new.metadata = 0) (h : ∀ l, Enforcing b key t' l ↔ l = new)

section Calls

variable {π : Type} {faulty : Fault → Prop} {pepStep : Environment PepOp PepOp.Answer π} {b : Broker}
  {key : EnforcementKey} {w : World π} {r : ActionResolution} {t t' : LeaseTable} {new : ActionLease}

/-- The key of the enforcement that a resolution asks for. -/
def ActionResolution.enforcementKey (r : ActionResolution) : EnforcementKey :=
  ⟨targetString r.target, r.executableAction, r.executableLevel⟩

theorem enforcing_write (h : LeaseTable.Writes t new t') {l : ActionLease} : Enforcing b key t' l ↔
    (l = new ∧ LeaseTable.isActiveFor b.adapterID key.target key.action key.level new = true) ∨
      (Enforcing b key t l ∧ l.leaseID ≠ new.leaseID) := by
  rw [Enforcing, h l]
  constructor
  · rintro ⟨rfl | ⟨hl, hne⟩, hactive⟩
    · exact .inl ⟨rfl, hactive⟩
    · exact .inr ⟨⟨hl, hactive⟩, hne⟩
  · rintro (⟨rfl, hactive⟩ | ⟨⟨hl, hactive⟩, hne⟩)
    · exact ⟨.inl rfl, hactive⟩
    · exact ⟨.inr ⟨hl, hne⟩, hactive⟩

theorem not_isActiveFor {l : ActionLease} {adapterID target action level : String} (h : l.status ≠ .active) :
    ¬ LeaseTable.isActiveFor adapterID target action level l = true := by
  simp [LeaseTable.isActiveFor, h]

/-- Nothing comes into force by the write of a lease that is not active. -/
theorem idle_write {ans : Fallible Unit} (h : ∀ l, ¬ Enforcing b key t l) (hnew : new.status ≠ .active)
    (hw : WriteOutcome t new ans t') (l : ActionLease) : ¬ Enforcing b key t' l := by
  rcases hw with ⟨rfl, -⟩ | hw
  · exact h l
  · rw [enforcing_write hw]
    rintro (⟨-, hactive⟩ | ⟨hl, -⟩)
    · exact not_isActiveFor hnew hactive
    · exact h l hl

/-- The end of the only lease in force leaves none. -/
theorem idle_end {existing : ActionLease} {ans : Fallible Unit}
    (hunique : ∀ l, Enforcing b key t l → l = existing)
    (hid : new.leaseID = existing.leaseID) (hnew : new.status ≠ .active) (hw : WriteOutcome t new ans t') :
    (t' = t ∧ ans ≠ .ok ()) ∨ ∀ l, ¬ Enforcing b key t' l := by
  rcases hw with hsame | hw
  · exact .inl hsame
  · refine .inr fun l hl => ?_
    rcases (enforcing_write hw).mp hl with ⟨-, hactive⟩ | ⟨hl, hne⟩
    · exact not_isActiveFor hnew hactive
    · exact hne (by rw [hunique l hl, hid])

theorem only_write (h : ∀ l, Enforcing b key t l → l.leaseID = new.leaseID)
    (hnew : LeaseTable.isActiveFor b.adapterID key.target key.action key.level new = true)
    (hw : LeaseTable.Writes t new t') (l : ActionLease) : Enforcing b key t' l ↔ l = new := by
  rw [enforcing_write hw]
  constructor
  · rintro (⟨rfl, -⟩ | ⟨hl, hne⟩)
    · rfl
    · exact absurd (h l hl) hne
  · rintro rfl
    exact .inl ⟨rfl, hnew⟩

/-- A lease that is found is in force, and without one nothing is. -/
theorem enforcing_found {found : Option ActionLease}
    (h : t.findActiveActionLease b.adapterID key.target key.action key.level = found) :
    (∀ l ∈ found, Enforcing b key t l) ∧ (found = none → ∀ l, ¬ Enforcing b key t l) := by
  constructor
  · rintro l rfl
    exact Table.best_mem h
  · rintro rfl l ⟨hl, hactive⟩
    exact Table.best_eq_none.mp h l hl hactive

theorem wp_renewActiveLease_outcome {decisionID : String} (hkey : r.enforcementKey = key)
    (hunique : ∀ l l', Enforcing b key w.leases l → Enforcing b key w.leases l' → l = l')
    (hmax : 0 < b.maxRenewals) (hint : b.maxRenewals < 2 ^ 63) :
    wp (brokerStep faulty pepStep) (fun _ => True)
      (fun renewal w' => RenewalOutcome b key (Replaces b pepStep key w r) w.leases w'.leases ∧
        (renewal.err = none → renewal.renewed = false →
          ((∃ l, Enforcing b key w.leases l) → Replaces b pepStep key w r) ∧ ∀ l,
          ¬ Enforcing b key w'.leases l))
      (b.renewActiveLease r decisionID (targetString r.target) (b.leaseMetadata r) w.clock) w := by
  subst hkey
  have hsame : RenewalOutcome b r.enforcementKey (Replaces b pepStep r.enforcementKey w r) w.leases
      w.leases :=
    .same fun _ => Iff.rfl
  have hfound : ∀ {found}, w.leases.findActiveActionLease b.adapterID (targetString r.target) r.executableAction
      r.executableLevel = found → (∀ l ∈ found, Enforcing b r.enforcementKey w.leases l) ∧
        (found = none → ∀ l, ¬ Enforcing b r.enforcementKey w.leases l) := fun hfind => enforcing_found hfind
  refine wp_renewActiveLease trivial (fun _ _ _ _ => trivial) fun renewal w' hstep => ⟨trivial, ?_⟩
  cases hstep with
  | unread => exact ⟨hsame, by simp⟩
  | absent hfind =>
    have hidle := (hfound hfind).2 rfl
    exact ⟨hsame, fun _ _ => ⟨fun ⟨l, hl⟩ => absurd hl (hidle l), hidle⟩⟩
  | @ended existing ended pep f hfind hends hid =>
    have hexisting := (hfound hfind).1 existing rfl
    have honly : ∀ l, Enforcing b r.enforcementKey w.leases l → l = existing :=
      fun l hl => hunique l existing hl hexisting
    have hlost : ¬ RenewalKeeps b pepStep w r existing := fun hkeeps => by
      rcases hends with ⟨-, -, hchanged⟩ | ⟨-, token, hpep, htoken⟩
      · exact hchanged hkeeps.1
      · exact htoken (hkeeps.2 token pep hpep)
    have hreplaces : Replaces b pepStep r.enforcementKey w r := ⟨existing, hexisting, hlost⟩
    rcases idle_end honly (show (LeaseTable.setStatus ended existing).leaseID = existing.leaseID from rfl)
      hends.not_active (updateStatus_outcome hexisting.1 hid.symm f) with ⟨hkept, hfailed⟩ | hidle
    · dsimp only
      rw [hkept]
      rcases hans : (StoreOp.handleWith (.updateStatus ended) f w.leases).1 with err | _
      · exact ⟨hsame, by simp⟩
      · exact absurd hans hfailed
    · exact ⟨.ended (fun _ => hreplaces) hidle, fun _ _ => ⟨fun _ => hreplaces, hidle⟩⟩
  | unasked hfind hpep => exact ⟨hsame, by simp⟩
  | spent hfind hstays hspent => exact ⟨hsame, by simp⟩
  | @renewed existing pep f hfind hstays hspent =>
    have hexisting := (hfound hfind).1 existing rfl
    have honly : ∀ l, Enforcing b r.enforcementKey w.leases l → l = existing :=
      fun l hl => hunique l existing hl hexisting
    have hbudget : leaseRenewalCount existing.metadata < b.maxRenewals := not_le.mp fun hle => hspent ⟨hmax, hle⟩
    have hw := upsert_outcome w.leases (Broker.renewed existing r decisionID (b.leaseMetadata r) w.clock) f
    generalize StoreOp.handleWith (.upsert (Broker.renewed existing r decisionID (b.leaseMetadata r) w.clock)) f
      w.leases = out at hw
    obtain ⟨ans, t'⟩ := out
    have houtcome : RenewalOutcome b r.enforcementKey (Replaces b pepStep r.enforcementKey w r) w.leases t' := by
      rcases hw with ⟨rfl, -⟩ | hw
      · exact hsame
      · have hactive := hexisting.2
        refine .renewed existing _ hexisting hbudget (leaseRenewalCount_renewed (by omega))
          (only_write (fun l hl => by rw [honly l hl]; rfl) ?_ hw)
        simp only [LeaseTable.isActiveFor, decide_eq_true_eq] at hactive ⊢
        exact ⟨hactive.1, hactive.2.1, hactive.2.2.1, hactive.2.2.2.1, rfl⟩
    rcases ans with err | _
    · exact ⟨houtcome, by simp⟩
    · exact ⟨houtcome, by simp⟩

/-- The supersession of weaker leases ends none that is the only one in force. -/
theorem wp_supersede_only {applied : ActionLease} {now : Time} (h : ∀ l, Enforcing b key w.leases l ↔ l = new)
    (hid : applied.leaseID = new.leaseID) :
    wp (brokerStep faulty pepStep) (fun _ => True) (fun _ w' => ∀ l, Enforcing b key w'.leases l ↔ l = new)
      (b.supersedeWeakerActiveLeases applied now) w := by
  refine wp_crash (wp_supersedeWeakerActiveLeases (b := b) h
    fun s weaker f err hs _ hweaker _ _ _ hother _ => ?_) fun _ _ => trivial
  have hrow : weaker.leaseID = ({ weaker with
    status := .superseded, lastError := err, revertedAt := some now } : ActionLease).leaseID := rfl
  intro l
  rcases updateStatus_outcome hweaker hrow f with ⟨hsame, -⟩ | hw
  · rw [hsame]
    exact hs l
  · dsimp only
    rw [enforcing_write hw, hs l]
    constructor
    · rintro (⟨-, hactive⟩ | ⟨hl, -⟩)
      · exact absurd hactive (not_isActiveFor (by simp [LeaseTable.setStatus]))
      · exact hl
    · rintro rfl
      exact .inr ⟨rfl, fun hsame => hother (hsame.symm.trans hid.symm)⟩

/-- A lease created where none is in force is the only one, or none is. -/
theorem wp_createLease_outcome {lease : ActionLease} {receipt : EnforcementReceipt} {now : Time}
    (hidle : ∀ l, ¬ Enforcing b key w.leases l) (hpending : lease.status = .pending)
    (hadapter : lease.adapterID = b.adapterID) (htarget : lease.target = key.target)
    (haction : lease.action = key.action) (hlevel : lease.level = key.level) :
    wp (brokerStep faulty pepStep) (fun _ => True)
      (fun _ w' => (∀ l, ¬ Enforcing b key w'.leases l) ∨
        ∃ new, new.metadata = lease.metadata ∧ ∀ l, Enforcing b key w'.leases l ↔ l = new)
      (b.createLease lease receipt now) w := by
  simp only [Broker.createLease, perform_bind]
  refine wp_upsert fun ans t' hw => ⟨trivial, ?_⟩
  have hidle' := idle_write hidle (by rw [hpending]; decide) hw
  rcases ans with err | _
  · exact .inl hidle'
  have hmem : lease ∈ t' := by
    rcases hw with ⟨-, hne⟩ | hw
    · exact absurd rfl hne
    · exact (hw lease).mpr (.inl rfl)
  refine wp_pep.mpr fun ans pep hpep => ⟨trivial, ?_⟩
  rcases ans with err | token
  · refine wp_updateStatus hmem rfl fun ans t'' hw' => ⟨trivial, .inl ?_⟩
    exact idle_write hidle' (by simp [LeaseTable.setStatus]) hw'
  dsimp only
  by_cases htoken : token ≠ "" ∧ token ≠ lease.fencingToken
  · rw [if_pos htoken]
    refine wp_updateStatus hmem rfl fun ans t'' hw' => ⟨trivial, .inl ?_⟩
    exact idle_write hidle' (by simp [LeaseTable.setStatus]) hw'
  rw [if_neg htoken]
  have hnew : LeaseTable.isActiveFor b.adapterID key.target key.action key.level
      (LeaseTable.setStatus { lease with status := .active } lease) = true := by
    simp [LeaseTable.isActiveFor, LeaseTable.setStatus, hadapter, htarget, haction, hlevel]
  refine wp_updateStatus hmem rfl fun ans t'' hw' => ⟨trivial, ?_⟩
  rcases hw' with ⟨rfl, hne⟩ | hw'
  · rcases ans with err | _
    · exact .inl hidle'
    · exact absurd rfl hne
  have honly := only_write (fun l hl => absurd hl (hidle' l)) hnew hw'
  rcases ans with err | _
  · exact .inr ⟨LeaseTable.setStatus { lease with status := .active } lease, rfl, honly⟩
  rw [wp_bind]
  refine wp_mono (wp_supersede_only honly rfl) fun ans w' honly' => ?_
  rcases ans with err | _
  · exact .inr ⟨LeaseTable.setStatus { lease with status := .active } lease, rfl, honly'⟩
  · exact .inr ⟨LeaseTable.setStatus { lease with status := .active } lease, rfl, honly'⟩

theorem wp_apply_outcome {ids : GeneratedIDs} (hkey : r.enforcementKey = key)
    (hunique : ∀ l l', Enforcing b key w.leases l → Enforcing b key w.leases l' → l = l')
    (hmax : 0 < b.maxRenewals) (hint : b.maxRenewals < 2 ^ 63) :
    wp (brokerStep faulty pepStep) (fun _ => True)
      (fun _ w' => RenewalOutcome b key (Replaces b pepStep key w r) w.leases w'.leases) (b.apply ids r)
      w := by
  refine wp_apply trivial (fun _ _ => .same fun _ => Iff.rfl) fun _ _ _ _ receipt => ?_
  refine wp_mono (wp_renewActiveLease_outcome hkey hunique hmax hint) fun renewal w₁ hrenewal => ?_
  obtain ⟨houtcome, hfresh⟩ := hrenewal
  rcases renewal with ⟨lease, renewed, skipReason, _ | err⟩
  · simp only [Broker.afterRenewal]
    by_cases hskip : skipReason ≠ ""
    · rw [if_pos hskip]
      exact houtcome
    rw [if_neg hskip]
    cases renewed with
    | true => exact houtcome
    | false =>
      obtain ⟨hreplaces, hidle⟩ := hfresh rfl rfl
      subst hkey
      refine wp_mono (wp_createLease_outcome hidle rfl rfl rfl rfl rfl) fun _ w' hcreated => ?_
      rcases hcreated with hidle' | ⟨new, hmetadata, honly⟩
      · exact .ended hreplaces hidle'
      · refine .created hreplaces new ?_ honly
        rw [hmetadata]
        exact leaseRenewalCount_leaseMetadata
  · exact houtcome

end Calls

section Budget

/-- A call for one enforcement, or the passing of time. -/
inductive BudgetEvent where
  | apply (ids : GeneratedIDs) (r : ActionResolution)
  | clock (now : Time)

/-- A world, and how many calls extended the enforcement and replaced its lease so far. -/
structure Spending (π : Type) where
  world : World π
  extensions : Nat := 0
  replacements : Nat := 0

/-- A counter counts whether something happened. -/
def Counts (happened : Prop) (n n' : Nat) : Prop := (happened ∧ n' = n + 1) ∨ (¬ happened ∧ n' = n)

variable {π : Type}

/-- A call of the broker for the enforcement, with any store failures, and what it adds to the counts. -/
def BudgetStep (b : Broker) (pepStep : Environment PepOp PepOp.Answer π) (key : EnforcementKey)
    (s : Spending π) : BudgetEvent → Spending π → Prop
  | .apply ids r, s' => r.enforcementKey = key ∧
    (∃ ret, Runs (brokerStep anyFault pepStep) (b.apply ids r) s.world ret s'.world) ∧
    Counts (Extends b key s.world.leases s'.world.leases) s.extensions s'.extensions ∧
    Counts (Replaces b pepStep key s.world r) s.replacements s'.replacements
  | .clock now, s' => s' = { s with world := { s.world with clock := now } }

variable {pepStep : Environment PepOp PepOp.Answer π} {b : Broker} {key : EnforcementKey} {s s' : Spending π}

/-- At most one lease is in force, and what was spent is at most its renewals and a whole budget for each
lease replaced before it. -/
structure WithinBudget (b : Broker) (key : EnforcementKey) (s : Spending π) : Prop where
  unique : ∀ l l', Enforcing b key s.world.leases l → Enforcing b key s.world.leases l' → l = l'
  active : ∀ l, Enforcing b key s.world.leases l → leaseRenewalCount l.metadata ≤ b.maxRenewals ∧
    s.extensions ≤ leaseRenewalCount l.metadata + (b.maxRenewals + 1) * s.replacements
  idle : (∀ l, ¬ Enforcing b key s.world.leases l) → s.extensions + 1 ≤ (b.maxRenewals + 1) * s.replacements

theorem unique_of_only {t : LeaseTable} {new : ActionLease} (h : ∀ l, Enforcing b key t l ↔ l = new) :
    ∀ l l', Enforcing b key t l → Enforcing b key t l' → l = l' :=
  fun l l' hl hl' => ((h l).mp hl).trans ((h l').mp hl').symm

theorem WithinBudget.bound (hmax : 0 < b.maxRenewals) (h : WithinBudget b key s) :
    (s.extensions : Int) ≤ b.maxRenewals + (b.maxRenewals + 1) * s.replacements := by
  by_cases hsome : ∃ l, Enforcing b key s.world.leases l
  · obtain ⟨l, hl⟩ := hsome
    obtain ⟨hcount, hspent⟩ := h.active l hl
    omega
  · have hspent := h.idle (not_exists.mp hsome)
    omega

theorem Counts.bounds {happened : Prop} {n n' : Nat} (h : Counts happened n n') : n ≤ n' ∧ n' ≤ n + 1 := by
  rcases h with ⟨-, rfl⟩ | ⟨-, rfl⟩ <;> omega

theorem WithinBudget.step {e : BudgetEvent} (hmax : 0 < b.maxRenewals) (hint : b.maxRenewals < 2 ^ 63)
    (h : WithinBudget b key s) (hstep : BudgetStep b pepStep key s e s') : WithinBudget b key s' := by
  cases e with
  | clock now =>
    obtain rfl := hstep
    exact ⟨h.unique, h.active, h.idle⟩
  | apply ids r =>
    obtain ⟨hkey, ⟨ret, hruns⟩, hextends, hreplaces⟩ := hstep
    have hmono : (b.maxRenewals + 1) * s.replacements ≤ (b.maxRenewals + 1) * (s'.replacements : Int) :=
      Int.mul_le_mul_of_nonneg_left (by exact_mod_cast hreplaces.bounds.1) (by omega)
    have hstays : ¬ Extends b key s.world.leases s'.world.leases → s'.extensions = s.extensions := fun hnot =>
      hextends.elim (fun hh => absurd hh.1 hnot) fun hh => hh.2
    have hmore : (s'.extensions : Int) ≤ s.extensions + 1 := by exact_mod_cast hextends.bounds.2
    -- a call that replaces a lease is paid for by the replacement
    have hpaid : ((∃ l, Enforcing b key s.world.leases l) → Replaces b pepStep key s.world r) →
        (s.extensions : Int) + 1 ≤ (b.maxRenewals + 1) * s'.replacements := by
      intro hlost
      by_cases hsome : ∃ l, Enforcing b key s.world.leases l
      · have hcounted : (s'.replacements : Int) = s.replacements + 1 := by
          rcases hreplaces with ⟨-, hh⟩ | ⟨hnot, -⟩
          · exact_mod_cast hh
          · exact absurd (hlost hsome) hnot
        have hbound := h.bound hmax
        rw [hcounted, mul_add, mul_one]
        omega
      · have hidle := h.idle (not_exists.mp hsome)
        omega
    rcases (wp_apply_outcome hkey h.unique hmax hint).runs hruns with
      hsame | ⟨existing, new, hexisting, hbudget, hcount, honly⟩ | ⟨hlost, hidle⟩ |
        ⟨hlost, new, hcount, honly⟩
    · have hstill := hstays fun ⟨l, hl, hlater⟩ => lt_irrefl _ (hlater l ((hsame l).mp hl))
      refine ⟨fun l l' hl hl' => h.unique l l' ((hsame l).mp hl) ((hsame l').mp hl'), fun l hl => ?_,
        fun hnone => ?_⟩
      · obtain ⟨hcount, hspent⟩ := h.active l ((hsame l).mp hl)
        exact ⟨hcount, by omega⟩
      · have hspent := h.idle fun l hl => hnone l ((hsame l).mpr hl)
        omega
    · obtain ⟨-, hspent⟩ := h.active existing hexisting
      refine ⟨unique_of_only honly, fun l hl => ?_, fun hnone => absurd ((honly new).mpr rfl) (hnone new)⟩
      obtain rfl := (honly l).mp hl
      omega
    · have hstill := hstays fun ⟨l, hl, _⟩ => hidle l hl
      have hspent := hpaid hlost
      exact ⟨fun l l' hl => absurd hl (hidle l), fun l hl => absurd hl (hidle l), fun _ => by omega⟩
    · have hspent := hpaid hlost
      refine ⟨unique_of_only honly, fun l hl => ?_, fun hnone => absurd ((honly new).mpr rfl) (hnone new)⟩
      obtain rfl := (honly l).mp hl
      omega

/-- After the call that creates the enforcement, at most a budget of calls extends it for each lease, and
one more for each replacement. -/
theorem renewals_within_budget {w₀ w₁ : World π} {ids : GeneratedIDs} {r : ActionResolution}
    {ret : Broker.ApplyReturn} {es : List BudgetEvent} (hmax : 0 < b.maxRenewals)
    (hint : b.maxRenewals < 2 ^ 63) (hidle : ∀ l, ¬ Enforcing b key w₀.leases l)
    (hkey : r.enforcementKey = key)
    (hcreates : Runs (brokerStep anyFault pepStep) (b.apply ids r) w₀ ret w₁)
    (hcreated : ∃ l, Enforcing b key w₁.leases l) (hrun :
    Run (BudgetStep b pepStep key) { world := w₁ } es s) :
    (s.extensions : Int) ≤ b.maxRenewals + (b.maxRenewals + 1) * s.replacements := by
  obtain ⟨l, hl⟩ := hcreated
  have hstart : WithinBudget b key { world := w₁ } := by
    rcases (wp_apply_outcome hkey (fun l _ hl => absurd hl (hidle l)) hmax hint).runs hcreates with
      hsame | ⟨existing, new, hexisting, -, -, -⟩ | ⟨-, hnone⟩ | ⟨-, new, hcount, honly⟩
    · exact absurd ((hsame l).mp hl) (hidle l)
    · exact absurd hexisting (hidle existing)
    · exact absurd hl (hnone l)
    · refine ⟨unique_of_only honly, fun l' hl' => ?_, fun hnone => absurd hl (hnone l)⟩
      obtain rfl := (honly l').mp hl'
      rw [hcount]
      simp [hmax.le]
  exact (hrun.invariant hstart fun h hstep => h.step hmax hint hstep).bound hmax

end Budget

section Mixture

instance {b : Broker} {key : EnforcementKey} {t t' : LeaseTable} : Decidable (Extends b key t t') :=
  decidable_of_iff (∃ l ∈ t'.rows, LeaseTable.isActiveFor b.adapterID key.target key.action key.level l =
    true ∧
    ∀ l' ∈ t.rows, LeaseTable.isActiveFor b.adapterID key.target key.action key.level l' = true →
      l'.expiresAt < l.expiresAt)
    ⟨fun ⟨l, hl, hactive, h⟩ => ⟨l, ⟨hl, hactive⟩, fun l' hl' => h l' hl'.1 hl'.2⟩,
      fun ⟨l, hl, h⟩ => ⟨l, hl.1, hl.2, fun l' hl' hactive => h l' ⟨hl', hactive⟩⟩⟩

def renewingBroker : Broker where
  nodeID := "node-1"
  adapterID := "kliq-source-pep"
  maxRenewals := 1
  sha256 := digestsOf
    [("kliq-source-pep|source:10.0.0.1|enforce.traffic.rate_limit|soft|decision-1|" ++
        "lease-00000000-0000-4000-8000-000000000001",
      "58450b8a306d001894162ef6957edc3a6ab1a1e808dd0d6828494ef025e02189"),
    ("kliq-source-pep|source:10.0.0.1|enforce.traffic.rate_limit|soft|decision-3|" ++
        "lease-00000000-0000-4000-8000-000000000003",
      "b7b574d32d58314ef917c158ccf8b8ea475b8da9a29d48702b14d5da45408e6e")]

/-- A soft limit of the source at a rate. -/
def softLimitAt (n : String) (rate : UInt64) : ActionResolution :=
  { limitOn "enforce.traffic.rate_limit" "soft" n with
    parameters := GoMap.ofList [("execution_soft_rate", .uint64 rate)] }

def softLimitKey : EnforcementKey := ⟨"source:10.0.0.1", "enforce.traffic.rate_limit", "soft"⟩

def limitedAt (n : String) (rate : UInt64) (w : World Unit) : World Unit :=
  (exec (brokerHandle obedientPEP .none) (renewingBroker.apply (limitIDs n) (softLimitAt n rate)) w).2

def secondLater (w : World Unit) : World Unit := { w with clock := w.clock + Duration.second }

def softLimitCreated : World Unit := limitedAt "1" 10 unlimitedStart

def softLimitRenewed : World Unit := limitedAt "2" 10 (secondLater softLimitCreated)

def softLimitReplaced : World Unit := limitedAt "3" 20 (secondLater softLimitRenewed)

theorem runs_limitedAt (n : String) (rate : UInt64) (w : World Unit) :
    ∃ ret, Runs (brokerStep anyFault (answers obedientPEP))
      (renewingBroker.apply (limitIDs n) (softLimitAt n rate)) w ret (limitedAt n rate w) :=
  ⟨_, runs_brokerHandle _ w trivial⟩

theorem mixture_facts :
    (∃ l ∈ softLimitCreated.leases.rows, LeaseTable.isActiveFor "kliq-source-pep" "source:10.0.0.1"
      "enforce.traffic.rate_limit" "soft" l = true) ∧
    (∀ l ∈ softLimitCreated.leases.rows,
      executionMetadataChanged l.metadata (renewingBroker.leaseMetadata (softLimitAt "2" 10)) = none) ∧
    (∃ l ∈ softLimitRenewed.leases.rows, LeaseTable.isActiveFor "kliq-source-pep" "source:10.0.0.1"
      "enforce.traffic.rate_limit" "soft" l = true ∧
      executionMetadataChanged l.metadata (renewingBroker.leaseMetadata (softLimitAt "3" 20)) ≠ none) ∧
    Extends renewingBroker softLimitKey softLimitCreated.leases softLimitRenewed.leases ∧
    Extends renewingBroker softLimitKey softLimitRenewed.leases softLimitReplaced.leases ∧
    (softLimitAt "1" 10).enforcementKey = softLimitKey ∧ (softLimitAt "2" 10).enforcementKey = softLimitKey ∧
    (softLimitAt "3" 20).enforcementKey = softLimitKey := by
  decide +kernel

/-- One renewal and one replacement. -/
def mixed : Spending Unit := { world := softLimitReplaced, extensions := 2, replacements := 1 }

theorem mixed_run : Run (BudgetStep renewingBroker (answers obedientPEP) softLimitKey)
    { world := softLimitCreated }
    [.clock (secondLater softLimitCreated).clock, .apply (limitIDs "2") (softLimitAt "2" 10),
      .clock (secondLater softLimitRenewed).clock, .apply (limitIDs "3") (softLimitAt "3" 20)] mixed := by
  obtain ⟨-, hsame, ⟨l, hl, hactive, hchanged⟩, hrenewed, hreplaced, -, hkey, hkey'⟩ := mixture_facts
  have hkept : ¬ Replaces renewingBroker (answers obedientPEP) softLimitKey (secondLater softLimitCreated)
      (softLimitAt "2" 10) := by
    rintro ⟨existing, hexisting, hlost⟩
    refine hlost ⟨hsame existing hexisting.1, fun k pep hpep => ?_⟩
    obtain ⟨hk, -⟩ := Prod.mk.inj hpep
    exact (Except.ok.inj hk).symm
  have hlost : Replaces renewingBroker (answers obedientPEP) softLimitKey (secondLater softLimitRenewed)
      (softLimitAt "3" 20) := ⟨l, ⟨hl, hactive⟩, fun h => hchanged h.1⟩
  have hrenews : BudgetStep renewingBroker (answers obedientPEP) softLimitKey
      { world := secondLater softLimitCreated } (.apply (limitIDs "2") (softLimitAt "2" 10))
      { world := softLimitRenewed, extensions := 1 } :=
    ⟨hkey, runs_limitedAt _ _ _, .inl ⟨hrenewed, rfl⟩, .inr ⟨hkept, rfl⟩⟩
  have hreplaces : BudgetStep renewingBroker (answers obedientPEP) softLimitKey
      { world := secondLater softLimitRenewed, extensions := 1 }
        (.apply (limitIDs "3") (softLimitAt "3" 20)) mixed :=
    ⟨hkey', runs_limitedAt _ _ _, .inl ⟨hreplaced, rfl⟩, .inl ⟨hlost, rfl⟩⟩
  exact .cons rfl (.cons hrenews (.cons rfl (.singleton hreplaces)))

theorem idle_unlimitedStart (l : ActionLease) :
    ¬ Enforcing renewingBroker softLimitKey unlimitedStart.leases l :=
  fun h => absurd h.1 Table.not_mem_empty

theorem mixed_within_budget :
    (mixed.extensions : Int) ≤
      renewingBroker.maxRenewals + (renewingBroker.maxRenewals + 1) * mixed.replacements := by
  obtain ⟨⟨l, hl, hactive⟩, -, -, -, -, hkey, -⟩ := mixture_facts
  obtain ⟨ret, hcreates⟩ := runs_limitedAt "1" 10 unlimitedStart
  exact renewals_within_budget (by decide) (by decide) idle_unlimitedStart hkey hcreates ⟨l, hl, hactive⟩
    mixed_run

/-- A budget of one renewal, and two calls extend the enforcement. -/
theorem replacement_extends_again : ¬ ∀ (b : Broker) (key : EnforcementKey) (w₀ w₁ : World Unit)
    (ids : GeneratedIDs) (r : ActionResolution) (ret : Broker.ApplyReturn) (es : List BudgetEvent)
    (s : Spending Unit), 0 < b.maxRenewals → b.maxRenewals < 2 ^ 63 → (∀ l, ¬ Enforcing b key w₀.leases l) →
    r.enforcementKey = key → Runs (brokerStep anyFault (answers obedientPEP)) (b.apply ids r) w₀ ret w₁ →
    (∃ l, Enforcing b key w₁.leases l) → Run (BudgetStep b (answers obedientPEP) key) { world := w₁ } es s →
      (s.extensions : Int) ≤ b.maxRenewals := by
  intro h
  obtain ⟨⟨l, hl, hactive⟩, -, -, -, -, hkey, -⟩ := mixture_facts
  obtain ⟨ret, hcreates⟩ := runs_limitedAt "1" 10 unlimitedStart
  have hspent := h _ _ _ _ _ _ _ _ _ (by decide) (by decide) idle_unlimitedStart hkey hcreates
    ⟨l, hl, hactive⟩ mixed_run
  exact absurd hspent (by decide)

end Mixture

end Kernloom
