import Kernloom.BrokerOps
import Kernloom.GoText

/-! The reconciler of access policies: what a bundle wants is applied when it changes, and again where
the adapter reports drift. -/

namespace Kernloom

section Contract

/-- A policy; its other fields are compared as a whole. -/
structure AccessPolicy (β : Type) where
  id : String
  body : β
  deriving DecidableEq

structure AccessPolicyApplyResult where
  policyID : String
  status : String
  applied : Bool
  nativeEnforcement : Bool
  message : String
  warnings : List String
  appliedAt : Time

structure AccessPolicyDrift where
  policyID : String
  inSync : Bool
  nativeEnforcement : Bool
  reason : String
  checkedAt : Time

/-- An adapter with states `σ` that takes desired access policies. -/
structure AccessPolicyPEP (σ β : Type) where
  applyAccessPolicy : AccessPolicy β → (dryRun : Bool) → Time → σ → Fallible AccessPolicyApplyResult × σ
  checkAccessPolicyDrift : AccessPolicy β → Time → σ → Fallible AccessPolicyDrift

/-- One that keeps what it applied: a policy holds once it is applied, a check says whether it does, and
policies of other IDs are left alone. A failed call changes nothing. -/
structure RecordingPEP (σ β : Type) extends AccessPolicyPEP σ β where
  Holds : σ → AccessPolicy β → Prop
  holds_apply : ∀ p dryRun now s r, (applyAccessPolicy p dryRun now s).1 = .ok r →
    Holds (applyAccessPolicy p dryRun now s).2 p
  apply_error : ∀ p dryRun now s err, (applyAccessPolicy p dryRun now s).1 = .error err →
    (applyAccessPolicy p dryRun now s).2 = s
  holds_other : ∀ p q dryRun now s, trimSpace q.id ≠ trimSpace p.id →
    (Holds (applyAccessPolicy p dryRun now s).2 q ↔ Holds s q)
  inSync_iff : ∀ p now s d, checkAccessPolicyDrift p now s = .ok d → (d.inSync = true ↔ Holds s p)

end Contract

section Adapter

/-- The access policies the shield adapter has recorded. -/
structure KlshieldAccess (β : Type) where
  accessPolicies : String → Option (AccessPolicy β) := fun _ => none
  dryRun : Bool := false
  /-- The error of the context, once it is cancelled. -/
  cancelled : Option String := none

namespace KlshieldAccess

variable {β : Type}

def applyAccessPolicy (policy : AccessPolicy β) (dryRun : Bool) (now : Time) (a : KlshieldAccess β) :
    Fallible AccessPolicyApplyResult × KlshieldAccess β :=
  match a.cancelled with
  | some err => (.error err, a)
  | none =>
    let id := trimSpace policy.id
    if id = "" then (.error "runtime access policy has empty id", a)
    else
      (.ok
        { policyID := id
          status := if dryRun || a.dryRun then "dry_run" else "recorded"
          applied := true
          nativeEnforcement := false
          message := "klshield records access desired state for audit/drift; native group/resource access " ++
            "enforcement is not available"
          warnings := ["klshield_access_policy_audit_only"]
          appliedAt := now },
        { a with accessPolicies := Function.update a.accessPolicies id (some policy) })

def checkAccessPolicyDrift [DecidableEq β] (policy : AccessPolicy β) (now : Time) (a : KlshieldAccess β) :
    Fallible AccessPolicyDrift :=
  match a.cancelled with
  | some err => .error err
  | none =>
    let id := trimSpace policy.id
    if id = "" then .error "runtime access policy has empty id"
    else
      let drift : AccessPolicyDrift :=
        { policyID := id, inSync := true, nativeEnforcement := false
          reason := "audit_only_native_enforcement_unavailable", checkedAt := now }
      match a.accessPolicies id with
      | none => .ok { drift with inSync := false, reason := "not_applied" }
      | some applied =>
        if applied ≠ policy then .ok { drift with inSync := false, reason := "desired_state_changed" }
        else .ok drift

/-- The shield adapter keeps what it applied. -/
def recordingPEP (β : Type) [DecidableEq β] : RecordingPEP (KlshieldAccess β) β where
  applyAccessPolicy := applyAccessPolicy
  checkAccessPolicyDrift := checkAccessPolicyDrift
  Holds a p := a.accessPolicies (trimSpace p.id) = some p
  holds_apply p dryRun now a r h := by
    unfold applyAccessPolicy at h ⊢
    split at h
    · cases h
    · by_cases hid : trimSpace p.id = ""
      · simp [hid] at h
      · simp [hid]
  apply_error p dryRun now a err h := by
    unfold applyAccessPolicy at h ⊢
    split at h
    · rfl
    · by_cases hid : trimSpace p.id = ""
      · simp [hid]
      · simp [hid] at h
  holds_other p q dryRun now a hne := by
    unfold applyAccessPolicy
    split
    · rfl
    · by_cases hid : trimSpace p.id = ""
      · simp [hid]
      · simp [hid, hne]
  inSync_iff p now a d h := by
    unfold checkAccessPolicyDrift at h
    split at h
    · cases h
    · simp only at h
      split_ifs at h
      split at h
      next hnone =>
        obtain rfl := Except.ok.inj h
        simp [hnone]
      next applied hsome =>
        split_ifs at h with happlied <;> obtain rfl := Except.ok.inj h <;> simp_all

end KlshieldAccess

end Adapter

section Reconciler

variable {σ β : Type}

/-- `sort.Slice` by ID; the order of policies with one ID is not specified. -/
structure PolicySort (β : Type) where
  sort : List (AccessPolicy β) → List (AccessPolicy β)
  perm : ∀ ps, (sort ps).Perm ps
  sorted : ∀ ps, (sort ps).Pairwise fun p q => p.id ≤ q.id

/-- What a reconcile did: the calls of the adapter that changed it or that failed. -/
inductive AccessEvent (β : Type) where
  | applied (policy : AccessPolicy β)
  | applyFailed (policy : AccessPolicy β) (err : String)
  | checkFailed (policy : AccessPolicy β) (err : String)

def AccessEvent.failed : AccessEvent β → Bool
  | .applied _ => false
  | .applyFailed .. | .checkFailed .. => true

structure AccessReconciler (σ β : Type) where
  pep : Option (AccessPolicyPEP σ β)
  dryRun : Bool := false
  sort : PolicySort β
  hash : List (AccessPolicy β) → String

structure ReconcilerState (σ : Type) where
  lastHash : String := ""
  adapter : σ

def normalizeRuntimeAccessPolicies (sort : PolicySort β) (policies : List (AccessPolicy β)) :
    List (AccessPolicy β) :=
  sort.sort ((policies.map fun p => { p with id := trimSpace p.id }).filter fun p => p.id ≠ "")

namespace AccessPolicyPEP

variable (pep : AccessPolicyPEP σ β) (dryRun : Bool) (now : Time)

def apply (policy : AccessPolicy β) (s : σ) : AccessEvent β × σ :=
  match pep.applyAccessPolicy policy dryRun now s with
  | (.ok _, s) => (.applied policy, s)
  | (.error err, s) => (.applyFailed policy err, s)

def applyAll : List (AccessPolicy β) → σ → List (AccessEvent β) × σ
  | [], s => ([], s)
  | p :: ps, s =>
    let (event, s) := pep.apply dryRun now p s
    let (events, s) := applyAll ps s
    (event :: events, s)

/-- Checks a policy, and applies it again where it has drifted. -/
def repair (policy : AccessPolicy β) (s : σ) : List (AccessEvent β) × σ :=
  match pep.checkAccessPolicyDrift policy now s with
  | .error err => ([.checkFailed policy err], s)
  | .ok drift =>
    if drift.inSync then ([], s)
    else
      let (event, s) := pep.apply dryRun now policy s
      ([event], s)

def repairAll : List (AccessPolicy β) → σ → List (AccessEvent β) × σ
  | [], s => ([], s)
  | p :: ps, s =>
    let (repaired, s) := pep.repair dryRun now p s
    let (events, s) := repairAll ps s
    (repaired ++ events, s)

end AccessPolicyPEP

/-- One round; the policies are those the last bundle wants. -/
def AccessReconciler.reconcile (r : AccessReconciler σ β) (desired : List (AccessPolicy β)) (now : Time)
    (w : ReconcilerState σ) : List (AccessEvent β) × ReconcilerState σ :=
  let policies := normalizeRuntimeAccessPolicies r.sort desired
  if policies = [] then ([], { w with lastHash := "" })
  else
    match r.pep with
    | none => ([], if w.lastHash = "" then { w with lastHash := r.hash policies } else w)
    | some pep =>
      let (changed, s) :=
        if r.hash policies ≠ w.lastHash then pep.applyAll r.dryRun now policies w.adapter else ([], w.adapter)
      let (repaired, s) := pep.repairAll r.dryRun now policies s
      (changed ++ repaired, { lastHash := r.hash policies, adapter := s })

end Reconciler

section Rounds

variable {σ β : Type} {pep : RecordingPEP σ β} {dryRun : Bool} {now : Time}

namespace RecordingPEP

theorem holds_of_applied {p : AccessPolicy β} {s : σ}
    (h : (pep.toAccessPolicyPEP.apply dryRun now p s).1.failed = false) :
    pep.Holds (pep.toAccessPolicyPEP.apply dryRun now p s).2 p := by
  unfold AccessPolicyPEP.apply at h ⊢
  split at h
  next r s' heq =>
    have hholds := pep.holds_apply p dryRun now s r (by rw [heq])
    rw [heq] at hholds
    exact hholds
  next => exact absurd h (by simp [AccessEvent.failed])

theorem apply_other {p q : AccessPolicy β} {s : σ} (hne : trimSpace q.id ≠ trimSpace p.id) :
    pep.Holds (pep.toAccessPolicyPEP.apply dryRun now p s).2 q ↔ pep.Holds s q := by
  have hother := pep.holds_other p q dryRun now s hne
  unfold AccessPolicyPEP.apply
  split <;> next heq => rwa [heq] at hother

/-- Applying a policy that holds keeps it, even where the call fails. -/
theorem apply_self {p : AccessPolicy β} {s : σ} (h : pep.Holds s p) :
    pep.Holds (pep.toAccessPolicyPEP.apply dryRun now p s).2 p := by
  cases hresult : (pep.applyAccessPolicy p dryRun now s).1 with
  | ok r =>
    have hholds := pep.holds_apply p dryRun now s r hresult
    unfold AccessPolicyPEP.apply
    split <;> next heq => rwa [heq] at hholds
  | error err =>
    have hsame := pep.apply_error p dryRun now s err hresult
    unfold AccessPolicyPEP.apply
    split <;> next heq => rw [heq] at hsame; rw [hsame]; exact h

theorem repair_other {p q : AccessPolicy β} {s : σ} (hne : trimSpace q.id ≠ trimSpace p.id) :
    pep.Holds (pep.toAccessPolicyPEP.repair dryRun now p s).2 q ↔ pep.Holds s q := by
  unfold AccessPolicyPEP.repair
  split
  · rfl
  · split_ifs
    · rfl
    · exact apply_other hne

theorem repair_self {p : AccessPolicy β} {s : σ} (h : pep.Holds s p) :
    pep.Holds (pep.toAccessPolicyPEP.repair dryRun now p s).2 p := by
  unfold AccessPolicyPEP.repair
  split
  · exact h
  · split_ifs
    · exact h
    · exact apply_self h

theorem holds_of_repaired {p : AccessPolicy β} {s : σ}
    (h : ∀ e ∈ (pep.toAccessPolicyPEP.repair dryRun now p s).1, e.failed = false) :
    pep.Holds (pep.toAccessPolicyPEP.repair dryRun now p s).2 p := by
  unfold AccessPolicyPEP.repair at h ⊢
  split at h
  next err _ => exact absurd (h _ List.mem_cons_self) (by simp [AccessEvent.failed])
  next drift heq =>
    by_cases hsync : drift.inSync = true
    · rw [if_pos hsync]
      exact (pep.inSync_iff p now s drift heq).mp hsync
    · rw [if_neg hsync] at h ⊢
      exact holds_of_applied (h _ List.mem_cons_self)

/-- A policy that holds is not drifted: its check calls nothing. -/
theorem repair_of_holds {p : AccessPolicy β} {s : σ} (h : pep.Holds s p) :
    (pep.toAccessPolicyPEP.repair dryRun now p s).2 = s ∧
      ∀ e ∈ (pep.toAccessPolicyPEP.repair dryRun now p s).1, ∃ err, e = .checkFailed p err := by
  unfold AccessPolicyPEP.repair
  split
  next err _ => exact ⟨rfl, fun e he => ⟨err, List.mem_singleton.mp he⟩⟩
  next drift heq =>
    rw [if_pos ((pep.inSync_iff p now s drift heq).mpr h)]
    exact ⟨rfl, fun e he => absurd he List.not_mem_nil⟩

variable {ps : List (AccessPolicy β)}

/-- Policies of distinct IDs. -/
def Apart (ps : List (AccessPolicy β)) : Prop := (ps.map fun p => trimSpace p.id).Nodup

theorem applyAll_other {q : AccessPolicy β} {s : σ} (h : ∀ p ∈ ps, trimSpace q.id ≠ trimSpace p.id) :
    pep.Holds (pep.toAccessPolicyPEP.applyAll dryRun now ps s).2 q ↔ pep.Holds s q := by
  induction ps generalizing s with
  | nil => exact Iff.rfl
  | cons p ps ih =>
    obtain ⟨hp, hps⟩ := List.forall_mem_cons.mp h
    exact (ih hps).trans (apply_other hp)

theorem repairAll_other {q : AccessPolicy β} {s : σ} (h : ∀ p ∈ ps, trimSpace q.id ≠ trimSpace p.id) :
    pep.Holds (pep.toAccessPolicyPEP.repairAll dryRun now ps s).2 q ↔ pep.Holds s q := by
  induction ps generalizing s with
  | nil => exact Iff.rfl
  | cons p ps ih =>
    obtain ⟨hp, hps⟩ := List.forall_mem_cons.mp h
    exact (ih hps).trans (repair_other hp)

theorem apart_cons {p : AccessPolicy β} (h : Apart (p :: ps)) :
    (∀ q ∈ ps, trimSpace p.id ≠ trimSpace q.id) ∧ Apart ps := by
  obtain ⟨hp, hps⟩ := List.nodup_cons.mp h
  exact ⟨fun q hq heq => hp (List.mem_map.mpr ⟨q, hq, heq.symm⟩), hps⟩

theorem applyAll_self {s : σ} (hapart : Apart ps) {q : AccessPolicy β} (hq : q ∈ ps) (h : pep.Holds s q) :
    pep.Holds (pep.toAccessPolicyPEP.applyAll dryRun now ps s).2 q := by
  induction ps generalizing s with
  | nil => exact absurd hq List.not_mem_nil
  | cons p ps ih =>
    obtain ⟨hne, hapart⟩ := apart_cons hapart
    rcases List.mem_cons.mp hq with rfl | hmem
    · exact (applyAll_other hne).mpr (apply_self h)
    · exact ih hapart hmem ((apply_other (hne q hmem).symm).mpr h)

theorem repairAll_self {s : σ} (hapart : Apart ps) {q : AccessPolicy β} (hq : q ∈ ps)
    (h : pep.Holds s q) : pep.Holds (pep.toAccessPolicyPEP.repairAll dryRun now ps s).2 q := by
  induction ps generalizing s with
  | nil => exact absurd hq List.not_mem_nil
  | cons p ps ih =>
    obtain ⟨hne, hapart⟩ := apart_cons hapart
    rcases List.mem_cons.mp hq with rfl | hmem
    · exact (repairAll_other hne).mpr (repair_self h)
    · exact ih hapart hmem ((repair_other (hne q hmem).symm).mpr h)

theorem repairAll_holds {s : σ} (hapart : Apart ps)
    (hok : ∀ e ∈ (pep.toAccessPolicyPEP.repairAll dryRun now ps s).1, e.failed = false) :
    ∀ q ∈ ps, pep.Holds (pep.toAccessPolicyPEP.repairAll dryRun now ps s).2 q := by
  induction ps generalizing s with
  | nil => exact fun q hq => absurd hq List.not_mem_nil
  | cons p ps ih =>
    obtain ⟨hne, hapart⟩ := apart_cons hapart
    obtain ⟨hfirst, hrest⟩ := List.forall_mem_append.mp hok
    exact List.forall_mem_cons.mpr ⟨(repairAll_other hne).mpr (holds_of_repaired hfirst), ih hapart hrest⟩

theorem repairAll_of_holds {s : σ} (h : ∀ q ∈ ps, pep.Holds s q) :
    (pep.toAccessPolicyPEP.repairAll dryRun now ps s).2 = s ∧
      ∀ e ∈ (pep.toAccessPolicyPEP.repairAll dryRun now ps s).1, ∃ p err, e = .checkFailed p err := by
  induction ps with
  | nil => exact ⟨rfl, fun e he => absurd he List.not_mem_nil⟩
  | cons p ps ih =>
    obtain ⟨hp, hps⟩ := List.forall_mem_cons.mp h
    have hfirst : (pep.toAccessPolicyPEP.repair dryRun now p s).2 = s ∧
        ∀ e ∈ (pep.toAccessPolicyPEP.repair dryRun now p s).1, ∃ err, e = .checkFailed p err := repair_of_holds hp
    obtain ⟨hsame, hevents⟩ := hfirst
    unfold AccessPolicyPEP.repairAll
    simp only [hsame]
    obtain ⟨hsame', hevents'⟩ := ih hps
    refine ⟨hsame', fun e he => ?_⟩
    rcases List.mem_append.mp he with he | he
    · obtain ⟨err, rfl⟩ := hevents e he
      exact ⟨p, err, rfl⟩
    · exact hevents' e he

end RecordingPEP

/-- The policies that a list wants, by their trimmed IDs. -/
def wantedPolicies (desired : List (AccessPolicy β)) : List (AccessPolicy β) :=
  (desired.map fun p => { p with id := trimSpace p.id }).filter fun p => p.id ≠ ""

theorem trimSpace_trimSpace (s : String) : trimSpace (trimSpace s) = trimSpace s := by
  have hkeep : ∀ cs : List Char, ((cs.dropWhile isSpace).rdropWhile isSpace).dropWhile isSpace =
      (cs.dropWhile isSpace).rdropWhile isSpace := by
    intro cs
    refine List.dropWhile_eq_self_iff.mpr fun hl => ?_
    have hinit := List.rdropWhile_prefix isSpace (l := cs.dropWhile isSpace)
    have hlen := hl.trans_le hinit.length_le
    rw [hinit.getElem hl]
    exact List.dropWhile_get_zero_not isSpace cs hlen
  have htrim : ∀ s, trimSpace s = String.ofList ((s.toList.dropWhile isSpace).rdropWhile isSpace) := fun s => by
    unfold trimSpace
    rfl
  rw [htrim (trimSpace s), htrim s, String.toList_ofList, hkeep, List.rdropWhile_idempotent]

theorem trimmed_of_wanted {desired : List (AccessPolicy β)} {p : AccessPolicy β}
    (h : p ∈ wantedPolicies desired) : trimSpace p.id = p.id := by
  obtain ⟨q, -, rfl⟩ := List.mem_map.mp (List.mem_filter.mp h).1
  exact trimSpace_trimSpace q.id

/-- The IDs that a list wants are distinct. -/
def DistinctIDs (desired : List (AccessPolicy β)) : Prop := ((wantedPolicies desired).map (·.id)).Nodup

variable {r : AccessReconciler σ β} {desired desired' : List (AccessPolicy β)} {w : ReconcilerState σ}

theorem normalize_perm (sort : PolicySort β) (desired : List (AccessPolicy β)) :
    (normalizeRuntimeAccessPolicies sort desired).Perm (wantedPolicies desired) := sort.perm _

theorem apart_normalize (sort : PolicySort β) (h : DistinctIDs desired) :
    RecordingPEP.Apart (normalizeRuntimeAccessPolicies sort desired) := by
  refine ((normalize_perm sort desired).map _).nodup_iff.mpr ?_
  rwa [List.map_congr_left fun p hp => trimmed_of_wanted hp]

/-- The order of a list with distinct IDs does not matter. -/
theorem normalize_congr (sort : PolicySort β) (h : DistinctIDs desired) (hperm : desired'.Perm desired) :
    normalizeRuntimeAccessPolicies sort desired' = normalizeRuntimeAccessPolicies sort desired := by
  have hsame : (wantedPolicies desired').Perm (wantedPolicies desired) := (hperm.map _).filter _
  refine List.Perm.eq_of_pairwise ?_ (sort.sorted _) (sort.sorted _)
    (((normalize_perm sort desired').trans hsame).trans (normalize_perm sort desired).symm)
  intro p q hp hq hle hge
  have hp' := hsame.mem_iff.mp ((normalize_perm sort desired').mem_iff.mp hp)
  have hq' := (normalize_perm sort desired).mem_iff.mp hq
  exact List.inj_on_of_nodup_map h hp' hq' (le_antisymm hle hge)

/-- A round whose calls succeed brings about what its list wants. -/
theorem reconcile_holds (hpep : r.pep = some pep.toAccessPolicyPEP) (hdistinct : DistinctIDs desired)
    (hok : ∀ e ∈ (r.reconcile desired now w).1, e.failed = false) :
    ∀ p ∈ wantedPolicies desired, pep.Holds (r.reconcile desired now w).2.adapter p := by
  intro p hp
  rw [← (normalize_perm r.sort desired).mem_iff] at hp
  unfold AccessReconciler.reconcile at hok ⊢
  rw [if_neg (List.ne_nil_of_mem hp)] at hok ⊢
  simp only [hpep] at hok ⊢
  exact RecordingPEP.repairAll_holds (apart_normalize r.sort hdistinct)
    (List.forall_mem_append.mp hok).2 p hp

/-- No round takes away a policy that its list wants, whatever fails in it. -/
theorem reconcile_keeps (hpep : r.pep = some pep.toAccessPolicyPEP) (hdistinct : DistinctIDs desired)
    {p : AccessPolicy β} (hp : p ∈ wantedPolicies desired) (h : pep.Holds w.adapter p) :
    pep.Holds (r.reconcile desired now w).2.adapter p := by
  have hapart := apart_normalize r.sort hdistinct
  rw [← (normalize_perm r.sort desired).mem_iff] at hp
  unfold AccessReconciler.reconcile
  rw [if_neg (List.ne_nil_of_mem hp)]
  simp only [hpep]
  refine RecordingPEP.repairAll_self hapart hp ?_
  split_ifs
  · exact RecordingPEP.applyAll_self hapart hp h
  · exact h

/-- No round touches a policy that its list does not want: nothing is ever withdrawn. -/
theorem reconcile_other (hpep : r.pep = some pep.toAccessPolicyPEP) {q : AccessPolicy β}
    (hq : ∀ p ∈ wantedPolicies desired, p.id ≠ trimSpace q.id) :
    pep.Holds (r.reconcile desired now w).2.adapter q ↔ pep.Holds w.adapter q := by
  have hne : ∀ p ∈ normalizeRuntimeAccessPolicies r.sort desired, trimSpace q.id ≠ trimSpace p.id := by
    intro p hp heq
    have hp' := (normalize_perm r.sort desired).mem_iff.mp hp
    exact hq p hp' ((trimmed_of_wanted hp').symm.trans heq.symm)
  unfold AccessReconciler.reconcile
  by_cases hnil : normalizeRuntimeAccessPolicies r.sort desired = []
  · rw [if_pos hnil]
  · rw [if_neg hnil]
    simp only [hpep]
    refine (RecordingPEP.repairAll_other hne).trans ?_
    split_ifs
    · exact RecordingPEP.applyAll_other hne
    · exact Iff.rfl

/-- The next round of the same policies, in any order, calls for nothing. -/
theorem reconcile_quiet (hpep : r.pep = some pep.toAccessPolicyPEP) (hdistinct : DistinctIDs desired)
    (hok : ∀ e ∈ (r.reconcile desired now w).1, e.failed = false) (hperm : desired'.Perm desired) (now' : Time) :
    (r.reconcile desired' now' (r.reconcile desired now w).2).2.adapter = (r.reconcile desired now w).2.adapter ∧
      ∀ e ∈ (r.reconcile desired' now' (r.reconcile desired now w).2).1, ∃ p err, e = .checkFailed p err := by
  have hholds := reconcile_holds hpep hdistinct hok
  generalize hw : (r.reconcile desired now w).2 = w' at hholds ⊢
  unfold AccessReconciler.reconcile at hw ⊢
  rw [normalize_congr r.sort hdistinct hperm]
  by_cases hnil : normalizeRuntimeAccessPolicies r.sort desired = []
  · rw [if_pos hnil]
    exact ⟨rfl, fun e he => absurd he List.not_mem_nil⟩
  · rw [if_neg hnil] at hw ⊢
    simp only [hpep] at hw ⊢
    have hhash : w'.lastHash = r.hash (normalizeRuntimeAccessPolicies r.sort desired) := by rw [← hw]
    rw [if_neg (by simp [hhash])]
    exact RecordingPEP.repairAll_of_holds fun p hp => hholds p ((normalize_perm r.sort desired).mem_iff.mp hp)

abbrev Round (β : Type) := List (AccessPolicy β) × Time

/-- The rounds of a run. -/
def AccessReconciler.rounds (r : AccessReconciler σ β) (w : ReconcilerState σ) (rounds : List (Round β)) :
    ReconcilerState σ := rounds.foldl (fun w round => (r.reconcile round.1 round.2 w).2) w

section Example

def idSort (β : Type) : PolicySort β where
  sort := List.insertionSort fun p q => p.id ≤ q.id
  perm := List.perm_insertionSort _
  sorted ps := List.pairwise_insertionSort _ ps

/-- The reconciler over the shield adapter. -/
def klshieldReconciler : AccessReconciler (KlshieldAccess Nat) Nat where
  pep := some (KlshieldAccess.recordingPEP Nat).toAccessPolicyPEP
  sort := idSort Nat
  hash policies := joinText (policies.map (·.id)) ","

def webPolicies : List (AccessPolicy Nat) := [⟨" web ", 1⟩, ⟨"", 2⟩, ⟨"db", 3⟩]

theorem webPolicies_distinct : DistinctIDs webPolicies := by
  unfold DistinctIDs
  decide +kernel

theorem webPolicies_round : ∀ e ∈ (klshieldReconciler.reconcile webPolicies 0 { adapter := {} }).1,
    e.failed = false := by
  decide +kernel

end Example

end Rounds

end Kernloom
