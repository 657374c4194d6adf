import Kernloom.LeaseStore
import Kernloom.GoText

/-! The facts about active leases that the decision point reads for a source, the FSM state
projected from them and the input built with both. Removing the leases of one source leaves what
is built for another as it was exactly when none of them is matched to the other. -/

namespace Kernloom

open Keyed LeaseTable

section Facts

/-- What the facts read of a candidate's metrics. -/
structure SourceMetrics where
  targetSourceID : String
  subjectID : String := ""

def SourceMetrics.sourceID (m : SourceMetrics) : String :=
  if m.targetSourceID ≠ "" then m.targetSourceID else m.subjectID

def factRune (c : Char) : Char := if ('a' ≤ c ∧ c ≤ 'z') ∨ ('0' ≤ c ∧ c ≤ '9') then c else '_'

/-- The name of an action in an expression. -/
@[irreducible] def runtimePDPFactKey (value : String) : String :=
  let out := (toLower (trimSpace value)).toList.map factRune
  match ((out.dropWhile (· = '_')).reverse.dropWhile (· = '_')).reverse with
  | [] => ""
  | c :: cs => if '0' ≤ c ∧ c ≤ '9' then String.ofList ('v' :: '_' :: c :: cs) else String.ofList (c :: cs)

structure ActionFact where
  active : Bool
  action : String
  level : String
  target : String
  adapterID : String
  leaseID : String
  appliedAt : Time
  expiresAt : Time
  elapsed : Option Duration
  remaining : Option Duration
  dryRun : Option Bool
  deriving DecidableEq

inductive FactValue where
  | action (fact : ActionFact)
  | count (n : Nat)
  | text (s : String)
  deriving DecidableEq

def actionLeaseBoolMetadata (lease : ActionLease) (key : String) : Option Bool :=
  parseBool (trimSpace (lease.metadata.get key))

/-- The metadata under which a lease names its source. -/
def sourceKeys : List String :=
  ["target_value", "target_attr.source_id", "target_attr.subject_id", "param.source_id",
    "param.subject_id"]

def actionLeaseMatchesSource (lease : ActionLease) (sourceID : String) : Bool :=
  sourceID = "" || (lease.target = sourceID || hasSuffix lease.target (":" ++ sourceID)) ||
    sourceKeys.any fun key => lease.metadata.get key = sourceID

def isLapsed (now : Time) (lease : ActionLease) : Bool := lease.expiresAt ≠ 0 ∧ lease.expiresAt ≤ now

/-- The leases that the loop does not skip. -/
def isFactLease (sourceID : String) (now : Time) (lease : ActionLease) : Bool :=
  ¬ isLapsed now lease ∧ (sourceID = "" ∨ actionLeaseMatchesSource lease sourceID) ∧
    runtimePDPFactKey lease.action ≠ ""

def actionLeaseFact (now : Time) (lease : ActionLease) : ActionFact where
  active := true
  action := lease.action
  level := lease.level
  target := lease.target
  adapterID := lease.adapterID
  leaseID := lease.leaseID
  appliedAt := lease.appliedAt
  expiresAt := lease.expiresAt
  elapsed := if lease.appliedAt ≠ 0 then some (now - lease.appliedAt) else none
  remaining := if lease.expiresAt ≠ 0 then some (lease.expiresAt - now) else none
  dryRun := actionLeaseBoolMetadata lease "param.execution_dry_run"

def runtimePDPActionLeaseFacts (listed : Except String (List ActionLease)) (m : SourceMetrics)
    (now : Time) : GoMap FactValue :=
  match listed with
  | .error err => AList.insert "lookup_error" (.text err) ∅
  | .ok leases =>
    let kept := leases.filter (isFactLease m.sourceID now)
    let out := GoMap.insertAll ∅ (kept.map fun lease =>
      (runtimePDPFactKey lease.action, FactValue.action (actionLeaseFact now lease)))
    -- an action of this name loses its fact
    out.insert "active_count" (.count kept.length)

end Facts

section Provider

variable {φ : Type}

/-- The answers of the store to one lookup, but for its leases: `others` are the facts of the other
tables, `lookupError` is the first error of their queries, `leaseError` that of the lease query. -/
structure StoreAnswers (φ : Type) where
  others : φ
  lookupError : Option String := none
  leaseError : Option String := none

structure FactSnapshot (φ : Type) where
  others : φ
  actions : GoMap FactValue

def StoreAnswers.listed (answers : StoreAnswers φ) (t : LeaseTable) : Except String (List ActionLease) :=
  match answers.leaseError with
  | some err => .error err
  | none => .ok (t.listActionLeasesByStatus .active)

def candidateFacts (answers : StoreAnswers φ) (t : LeaseTable) (m : SourceMetrics) (now : Time) :
    FactSnapshot φ × Option String :=
  (⟨answers.others, runtimePDPActionLeaseFacts (answers.listed t) m now⟩, answers.lookupError)

def activeRuntimeActionFact (actionFacts : GoMap FactValue) (keys : List String) : Option ActionFact :=
  keys.findSome? fun key =>
    match actionFacts.lookup key with
    | some (.action fact) => if fact.active then some fact else none
    | _ => none

def runtimeStateWithActionFact (st : FsmState) (level : Level) (fact : ActionFact) : FsmState :=
  { st with level := level, expiresAt := fact.expiresAt }

def runtimeStateFromActionFacts (st : FsmState) (actionFacts : GoMap FactValue) : Option FsmState :=
  match activeRuntimeActionFact actionFacts ["enforce_traffic_drop", "enforce_access_deny",
      "enforce_network_quarantine", "enforce_identity_disable"] with
  | some fact => some (runtimeStateWithActionFact st .block fact)
  | none =>
    match activeRuntimeActionFact actionFacts ["enforce_traffic_rate_limit"] with
    | some fact =>
      let level := parseFSMLevel fact.level
      some (runtimeStateWithActionFact st (if level = .observe then .hard else level) fact)
    | none => none

def projectRuntimePDPLeaseState (st : FsmState) (answers : StoreAnswers φ) (t : LeaseTable)
    (m : SourceMetrics) (now : Time) : FsmState :=
  if m.sourceID = "" then st
  else match candidateFacts answers t m now with
    | (_, some _) => st
    | (snapshot, none) => (runtimeStateFromActionFacts st snapshot.actions).getD st

/-- The input of a decision: the context without the facts of actions, and these facts. -/
structure PdpInput (ρ : Type) where
  context : ρ
  actions : GoMap FactValue

variable {ρ : Type}

/-- `context` builds the rest of the input from the projected state and the other facts. -/
def runtimePDPInputForCandidate (context : FsmState → FactSnapshot φ → Option String → ρ)
    (current : FsmState) (answers : StoreAnswers φ) (t : LeaseTable) (m : SourceMetrics) (now : Time) :
    PdpInput ρ :=
  let (snapshot, err) := candidateFacts answers t m now
  ⟨context current { snapshot with actions := ∅ } err, snapshot.actions⟩

def runtimePDPInputForSignal (context : Option (FactSnapshot φ × Option String) → ρ)
    (subjectID : String) (answers : StoreAnswers φ) (t : LeaseTable) (now : Time) : PdpInput ρ :=
  if subjectID = "" then ⟨context none, ∅⟩
  else
    let (snapshot, err) := candidateFacts answers t ⟨subjectID, subjectID⟩ now
    ⟨context (some ({ snapshot with actions := ∅ }, err)), snapshot.actions⟩

end Provider

section Removal

instance : Std.Total listedBefore := ⟨fun _ _ => le_total _ _⟩

instance : IsTrans ActionLease listedBefore := ⟨fun _ _ _ h h' => le_trans h h'⟩

theorem LeaseTable.listActionLeasesByStatus_filter (t : LeaseTable) (keep : ActionLease → Bool)
    (status : LeaseStatus) : LeaseTable.listActionLeasesByStatus (t.filter keep) status =
      (t.listActionLeasesByStatus status).filter keep := by
  have hperm : (LeaseTable.listActionLeasesByStatus (t.filter keep) status).Perm
      ((t.listActionLeasesByStatus status).filter keep) := by
    refine (List.perm_insertionSort _ _).trans (.trans ?_ ((List.perm_insertionSort _ _).filter keep).symm)
    simp only [Table.filter, List.filter_filter, Bool.and_comm, List.Perm.refl]
  refine hperm.eq_of_pairwise ?_ (List.pairwise_insertionSort _ _)
    ((List.pairwise_insertionSort _ _).filter keep)
  intro l l' hl hl' hle hle'
  have hmem : l ∈ t := (Table.mem_filter.mp (mem_listActionLeasesByStatus.mp hl).1).1
  have hmem' : l' ∈ t := (mem_listActionLeasesByStatus.mp (List.mem_filter.mp hl').1).1
  have hkey : toLex (formatTime l.expiresAt, l.leaseID) = toLex (formatTime l'.expiresAt, l'.leaseID) :=
    le_antisymm hle hle'
  exact Table.eq_of_key_eq hmem hmem' (congrArg (fun p => (ofLex p).2) hkey)

variable {leases : List ActionLease} {keep : ActionLease → Bool} {m : SourceMetrics} {now : Time}

theorem factLeases_filter (leases : List ActionLease) (keep : ActionLease → Bool) (m : SourceMetrics)
    (now : Time) : (leases.filter keep).filter (isFactLease m.sourceID now) =
      (leases.filter (isFactLease m.sourceID now)).filter keep := by
  simp only [List.filter_filter, Bool.and_comm]

theorem actionLeaseFacts_filter
    (h : ∀ l ∈ leases, keep l = false → isFactLease m.sourceID now l = false) :
    runtimePDPActionLeaseFacts (.ok (leases.filter keep)) m now =
      runtimePDPActionLeaseFacts (.ok leases) m now := by
  have hall : ∀ l ∈ leases.filter (isFactLease m.sourceID now), keep l = true := by
    intro l hl
    obtain ⟨hmem, hfact⟩ := List.mem_filter.mp hl
    cases hkeep : keep l with
    | true => rfl
    | false => exact absurd (hfact.symm.trans (h l hmem hkeep)) (by simp)
  have hsame := (factLeases_filter leases keep m now).trans (List.filter_eq_self.mpr hall)
  simp only [runtimePDPActionLeaseFacts, hsame]

theorem lookup_active_count (leases : List ActionLease) (m : SourceMetrics) (now : Time) :
    (runtimePDPActionLeaseFacts (.ok leases) m now).lookup "active_count" =
      some (.count (leases.filter (isFactLease m.sourceID now)).length) := by
  simp [runtimePDPActionLeaseFacts]

/-- The count tells whether a lease with a fact was among those removed. -/
theorem isFactLease_of_active_count
    (h : (runtimePDPActionLeaseFacts (.ok (leases.filter keep)) m now).lookup "active_count" =
      (runtimePDPActionLeaseFacts (.ok leases) m now).lookup "active_count") {l : ActionLease}
    (hl : l ∈ leases) (hkeep : keep l = false) : isFactLease m.sourceID now l = false := by
  rw [lookup_active_count, lookup_active_count, factLeases_filter] at h
  have hlen := FactValue.count.inj (Option.some.inj h)
  have hall := List.length_filter_eq_length_iff.mp hlen
  cases hfact : isFactLease m.sourceID now l with
  | false => rfl
  | true =>
    have hkept := hall l (List.mem_filter.mpr ⟨hl, hfact⟩)
    exact absurd hkept (by simp [hkeep])

end Removal

section Isolation

/-- Two inputs that no rule can tell apart. -/
structure SameInput {ρ : Type} (i i' : PdpInput ρ) : Prop where
  context : i.context = i'.context
  actions : ∀ key, i.actions.lookup key = i'.actions.lookup key

variable {φ ρ : Type} {answers : StoreAnswers φ} {t : LeaseTable} {m : SourceMetrics} {now : Time}

/-- A lease on a source, as the broker writes it. -/
structure OnSource (a : String) (l : ActionLease) : Prop where
  target : l.target = "source:" ++ a
  value : l.metadata.get "target_value" = a

/-- A lease on source `a` is matched to source `b`. -/
def Leaks (a b : String) (l : ActionLease) : Prop :=
  b = "" ∨ b = "source:" ++ a ∨ hasSuffix a (":" ++ b) ∨ ∃ key ∈ sourceKeys.tail, l.metadata.get key = b

theorem hasSuffix_iff {s suf : String} : hasSuffix s suf = true ↔ suf.toList <:+ s.toList := by
  unfold hasSuffix
  exact List.isSuffixOf_iff_suffix

theorem hasSuffix_source {a b : String} (hab : a ≠ b) :
    hasSuffix ("source:" ++ a) (":" ++ b) = hasSuffix a (":" ++ b) := by
  rw [Bool.eq_iff_iff, hasSuffix_iff, hasSuffix_iff]
  have hne : a.toList ≠ b.toList := fun h => hab (String.toList_injective h)
  have hb : (":" ++ b).toList = ':' :: b.toList := by simp
  have ha : ("source:" ++ a).toList = "source".toList ++ ':' :: a.toList := by simp
  rw [hb, ha]
  have hself : ':' :: a.toList <:+ "source".toList ++ ':' :: a.toList := List.suffix_append _ _
  constructor
  · intro h
    rcases List.suffix_or_suffix_of_suffix h hself with hle | hle
    · rcases List.suffix_cons_iff.mp hle with heq | hsuf
      · exact absurd (List.cons.inj heq).2.symm hne
      · exact hsuf
    · -- a colon before the last one of the target would lie in the word `source`
      obtain ⟨x, hx⟩ := hle
      obtain ⟨y, hy⟩ := h
      cases x with
      | nil => exact absurd (List.cons.inj hx).2 hne
      | cons c x =>
        have hc : c = ':' := (List.cons.inj hx).1
        rw [← hx, ← List.append_assoc] at hy
        have hword := List.append_cancel_right hy
        have hmem : ':' ∈ "source".toList := by
          rw [← hword, hc]
          simp
        exact absurd hmem (by decide)
  · intro h
    exact h.trans ((List.suffix_cons _ _).trans hself)

theorem OnSource.matches_iff {a b : String} {l : ActionLease} (h : OnSource a l) (hab : a ≠ b) :
    b = "" ∨ actionLeaseMatchesSource l b ↔ Leaks a b l := by
  have hvalue : ¬ l.metadata.get "target_value" = b := fun heq => hab (h.value.symm.trans heq)
  have htarget : l.target = b ↔ b = "source:" ++ a := by
    rw [h.target]
    exact eq_comm
  have hkeys : (sourceKeys.any fun key => l.metadata.get key = b) = true ↔
      ∃ key ∈ sourceKeys.tail, l.metadata.get key = b := by
    simp only [sourceKeys, List.any_cons, List.tail_cons, hvalue, decide_false, Bool.false_or]
    simp
  have hsuffix : hasSuffix l.target (":" ++ b) = hasSuffix a (":" ++ b) := by
    rw [h.target, hasSuffix_source hab]
  simp only [actionLeaseMatchesSource, Leaks, Bool.or_eq_true, decide_eq_true_eq, hkeys, htarget, hsuffix]
  tauto

/-- What the decision point is given for a source stays the same. -/
structure SamePicture (context : FsmState → FactSnapshot φ → Option String → ρ)
    (signalContext : Option (FactSnapshot φ × Option String) → ρ) (answers : StoreAnswers φ)
    (st : FsmState) (m : SourceMetrics) (now : Time) (t t' : LeaseTable) : Prop where
  facts : ∀ key, (candidateFacts answers t' m now).1.actions.lookup key =
    (candidateFacts answers t m now).1.actions.lookup key
  state : projectRuntimePDPLeaseState st answers t' m now = projectRuntimePDPLeaseState st answers t m now
  candidate : SameInput
    (runtimePDPInputForCandidate context (projectRuntimePDPLeaseState st answers t' m now) answers t' m now)
    (runtimePDPInputForCandidate context (projectRuntimePDPLeaseState st answers t m now) answers t m now)
  signal : SameInput (runtimePDPInputForSignal signalContext m.sourceID answers t' now)
    (runtimePDPInputForSignal signalContext m.sourceID answers t now)

theorem SamePicture.of_facts {context : FsmState → FactSnapshot φ → Option String → ρ}
    {signalContext : Option (FactSnapshot φ × Option String) → ρ} {st : FsmState} {t' : LeaseTable}
    (h : ∀ m' : SourceMetrics, m'.sourceID = m.sourceID →
      candidateFacts answers t' m' now = candidateFacts answers t m' now) :
    SamePicture context signalContext answers st m now t t' := by
  have hm := h m rfl
  have hstate : projectRuntimePDPLeaseState st answers t' m now =
      projectRuntimePDPLeaseState st answers t m now := by
    simp only [projectRuntimePDPLeaseState, hm]
  have hsignal := h ⟨m.sourceID, m.sourceID⟩ (by simp [SourceMetrics.sourceID])
  refine ⟨fun _ => by rw [hm], hstate, ?_, ?_⟩
  · rw [hstate]
    simp only [runtimePDPInputForCandidate, hm]
    exact ⟨rfl, fun _ => rfl⟩
  · simp only [runtimePDPInputForSignal, hsignal]
    exact ⟨rfl, fun _ => rfl⟩

/-- Removing the leases `keep` rejects leaves the picture of `b` as it was exactly when none of them
is shown to `b`. -/
theorem source_isolated_iff {context : FsmState → FactSnapshot φ → Option String → ρ}
    {signalContext : Option (FactSnapshot φ × Option String) → ρ} {st : FsmState}
    {keep : ActionLease → Bool} {a : String} (hab : a ≠ m.sourceID)
    (hremoved : ∀ l ∈ t, keep l = false → OnSource a l) :
    SamePicture context signalContext answers st m now t (t.filter keep) ↔
      answers.leaseError ≠ none ∨ ∀ l ∈ t, l.status = .active → keep l = false →
        Leaks a m.sourceID l → isLapsed now l ∨ runtimePDPFactKey l.action = "" := by
  have hfact : ∀ l ∈ t, keep l = false → (isFactLease m.sourceID now l = false ↔
      (Leaks a m.sourceID l → isLapsed now l ∨ runtimePDPFactKey l.action = "")) := by
    intro l hl hkeep
    rw [← (hremoved l hl hkeep).matches_iff hab, ← Bool.not_eq_true]
    simp only [isFactLease, decide_eq_true_eq]
    tauto
  have hactive : ∀ {l}, l ∈ LeaseTable.listActionLeasesByStatus t .active ↔ l ∈ t ∧ l.status = .active :=
    mem_listActionLeasesByStatus
  cases herr : answers.leaseError with
  | some err =>
    have hlisted : ∀ t : LeaseTable, answers.listed t = .error err := fun t => by
      simp only [StoreAnswers.listed, herr]
    refine ⟨fun _ => .inl (by simp), fun _ => .of_facts fun m' _ => ?_⟩
    simp only [candidateFacts, hlisted]
  | none =>
    have hlisted : ∀ t : LeaseTable, answers.listed t = .ok (t.listActionLeasesByStatus .active) :=
      fun t => by simp only [StoreAnswers.listed, herr]
    constructor
    · intro h
      refine .inr fun l hl hstatus hkeep => (hfact l hl hkeep).mp ?_
      have hcount := h.facts "active_count"
      simp only [candidateFacts, hlisted, listActionLeasesByStatus_filter] at hcount
      exact isFactLease_of_active_count hcount (hactive.mpr ⟨hl, hstatus⟩) hkeep
    · rintro (hne | hnone)
      · exact absurd rfl hne
      · refine .of_facts fun m' hm' => ?_
        have hskip : ∀ l ∈ t.listActionLeasesByStatus .active, keep l = false →
            isFactLease m'.sourceID now l = false := by
          intro l hl hkeep
          obtain ⟨hmem, hstatus⟩ := hactive.mp hl
          rw [hm']
          exact (hfact l hmem hkeep).mpr (hnone l hmem hstatus hkeep)
        simp only [candidateFacts, hlisted, listActionLeasesByStatus_filter, actionLeaseFacts_filter hskip]

def sourceDrop (source : String) : ActionLease where
  leaseID := "lease-" ++ source
  adapterID := "klshield"
  target := "source:" ++ source
  action := "enforce.traffic.drop"
  level := "block"
  status := .active
  fencingToken := "fence-" ++ source
  appliedAt := 10 ^ 9
  expiresAt := 600 * 10 ^ 9
  metadata := GoMap.ofList [("target_granularity", "source"), ("target_value", source)]

theorem sourceDrop_onSource (source : String) : OnSource source (sourceDrop source) :=
  ⟨rfl, by simp [sourceDrop, GoMap.get, GoMap.ofList]⟩

def twoDrops : LeaseTable where
  rows := [sourceDrop "192.0.2.7", sourceDrop "2001:db8::1"]
  nodup := by decide +kernel

theorem not_leaks_to_v4 : ¬ Leaks "2001:db8::1" "192.0.2.7" (sourceDrop "2001:db8::1") := by
  have hmetadata : ∀ key ∈ sourceKeys.tail, (sourceDrop "2001:db8::1").metadata.get key ≠ "192.0.2.7" := by
    decide +kernel
  have hsuffix : hasSuffix "2001:db8::1" (":" ++ "192.0.2.7") = false := by decide +kernel
  rintro (hempty | htarget | hends | ⟨key, hkey, hvalue⟩)
  · exact absurd hempty (by decide)
  · exact absurd htarget (by decide)
  · exact absurd (hends.symm.trans hsuffix) (by decide)
  · exact hmetadata key hkey hvalue

/-- The picture of an IPv4 source does not depend on the drop of an IPv6 source. -/
theorem v4_isolated : SamePicture (fun st _ _ => st) (fun _ => ({} : FsmState))
    (⟨(), none, none⟩ : StoreAnswers Unit) {} ⟨"192.0.2.7", ""⟩ (2 * 10 ^ 9) twoDrops
    (twoDrops.filter fun l => l.target ≠ "source:2001:db8::1") := by
  have hremoved : ∀ l ∈ twoDrops, decide (l.target ≠ "source:2001:db8::1") = false →
      l = sourceDrop "2001:db8::1" := by
    intro l hl hkeep
    rcases List.mem_cons.mp hl with rfl | hl
    · exact absurd hkeep (by decide +kernel)
    · exact List.mem_singleton.mp hl
  refine (source_isolated_iff (a := "2001:db8::1") (by decide +kernel) ?_).mpr (.inr ?_)
  · intro l hl hkeep
    rw [hremoved l hl hkeep]
    exact sourceDrop_onSource _
  · intro l hl _ hkeep hleaks
    rw [hremoved l hl hkeep] at hleaks
    exact absurd hleaks not_leaks_to_v4

/-- The target of one IPv6 source ends in a colon and the text of another. -/
theorem suffix_source_blocked : ¬ ∀ (t : LeaseTable) (keep : ActionLease → Bool) (a b : String) (st : FsmState)
    (now : Time), a ≠ b → (∀ l ∈ t, keep l = false → OnSource a l) →
      SamePicture (fun st _ _ => st) (fun _ => ({} : FsmState)) (⟨(), none, none⟩ : StoreAnswers Unit) st
        ⟨b, ""⟩ now t (t.filter keep) := by
  intro h
  have hsame := (h twoDrops (fun l => l.target ≠ "source:2001:db8::1") "2001:db8::1" "db8::1" {} (2 * 10 ^ 9)
    (by decide +kernel) ?_).state
  · revert hsame
    decide +kernel
  · intro l hl hkeep
    rcases List.mem_cons.mp hl with rfl | hl
    · exact absurd hkeep (by decide +kernel)
    · rw [List.mem_singleton.mp hl]
      exact sourceDrop_onSource _

end Isolation

end Kernloom
