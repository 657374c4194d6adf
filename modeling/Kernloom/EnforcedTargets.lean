import Kernloom.AuthorisedActions
import Kernloom.BrokerRules
import Kernloom.RelationshipExecutor
import Kernloom.RuntimeDecision

/-! The target a resolution was examined for, the target the PEP is asked to enforce and the target
its lease is reverted for, on each path from a decision to a PEP. -/

namespace Kernloom

open Effects Effects.Program

section Targets

/-- Two targets that read alike. -/
structure SameTarget (t t' : ActionTarget) : Prop where
  granularity : t.granularity = t'.granularity
  value : t.value = t'.value
  attributes : SameMap t.attributes t'.attributes

variable {b : Broker} {r : ActionResolution}

/-- Metadata of the resolution, up to the count of renewals. -/
def WrittenFor (b : Broker) (r : ActionResolution) (lease : ActionLease) : Prop :=
  ∀ key, key ≠ "broker.renewal_count" → lease.metadata.lookup key = (b.leaseMetadata r).lookup key

theorem writtenFor_newLease (ids : GeneratedIDs) (decisionID target : String) (now : Time) :
    WrittenFor b r (b.newLease ids r decisionID target (b.leaseMetadata r) now) := fun _ _ => rfl

theorem writtenFor_renewed (existing : ActionLease) (decisionID : String) (now : Time) :
    WrittenFor b r (Broker.renewed existing r decisionID (b.leaseMetadata r) now) := fun _ hkey =>
  AList.lookup_insert_ne hkey

theorem written_get {lease : ActionLease} (h : WrittenFor b r lease) :
    lease.metadata.get "target_granularity" = r.target.granularity ∧
      lease.metadata.get "target_value" = r.target.value := by
  constructor
  · rw [GoMap.get, h _ (by decide), ← GoMap.get, leaseMetadata_granularity]
  · rw [GoMap.get, h _ (by decide), ← GoMap.get, leaseMetadata_value]

/-- The attributes of the target are read back from the metadata. -/
theorem written_attributes {lease : ActionLease} (h : WrittenFor b r lease) :
    SameMap (metadataUnder lease.metadata "target_attr.") r.target.attributes := by
  intro k
  have hkey : "target_attr." ++ k ≠ "broker.renewal_count" := by
    intro heq
    have hpre := hasPrefix_append "target_attr." k
    rw [heq] at hpre
    exact absurd hpre (by decide +kernel)
  have hunder := GoMap.lookup_under lease.metadata "target_attr." (fun _ v => some v) k
  rw [h _ hkey, lookup_leaseMetadata_attr, Option.bind_fun_some] at hunder
  rw [← hunder, metadataUnder]
  congr 2
  refine List.filterMap_congr fun e _ => ?_
  cases cutPrefix e.1 "target_attr." <;> rfl

/-- A lease written for a resolution decodes to the target of the resolution. -/
theorem sameTarget_of_written {lease : ActionLease} (h : WrittenFor b r lease)
    (hgran : r.target.granularity ≠ "") (hvalue : r.target.value ≠ "") :
    SameTarget (targetFromLease lease) r.target := by
  obtain ⟨hg, hv⟩ := written_get h
  simp only [targetFromLease, hg, hv, hgran, hvalue, or_self, if_false]
  exact ⟨rfl, rfl, written_attributes h⟩

end Targets

section Calls

variable {b : Broker} {r : ActionResolution} {written : ActionLease → Prop}
  {answered : (op : BrokerOp) → op.Answer → Prop}

/-- The calls that write and have applied only leases of a kind. -/
def WritesOnly (written : ActionLease → Prop) : BrokerOp → Prop
  | .store (.upsert lease) | .pep (.apply lease) => written lease
  | .pep (.revert _) => False
  | _ => True

theorem writesOnly_of_isRead (op : StoreOp) (hop : op.isRead) : WritesOnly written (.store op) := by
  cases op <;> first | exact trivial | exact hop.elim

theorem uses_of_readsOnly {α : Type} {p : BrokerProgram α} (h : ReadsOnly p) :
    Uses (WritesOnly written) answered p := h.uses trivial writesOnly_of_isRead

theorem writes_createLease {lease : ActionLease} (h : written lease) (receipt : EnforcementReceipt)
    (now : Time) : Uses (WritesOnly written) answered (b.createLease lease receipt now) :=
  ⟨h, fun ans _ => uses_creation rfl writesOnly_of_isRead (fun _ => trivial) h ans⟩

/-- An application writes leases of a kind if new leases are and every lease it finds is of that kind
once renewed. -/
theorem writesOnly_apply {ids : GeneratedIDs}
    (hnew : ∀ now, answered .now now →
    written (b.newLease ids r (Broker.decisionIDFor ids r) (targetString r.target) (b.leaseMetadata r) now))
    (hrenewed : ∀ existing now, answered .now now →
    answered (.store (.findActive b.adapterID (targetString r.target) r.executableAction
      r.executableLevel)) (.ok (some existing)) →
        written (Broker.renewed existing r (Broker.decisionIDFor ids r) (b.leaseMetadata r) now)) :
    Uses (WritesOnly written) answered (b.apply ids r) := by
  simp only [Broker.apply, perform_bind]
  refine ⟨trivial, fun now hnow => ?_⟩
  dsimp only
  by_cases hallowed : ¬ r.allowed
  · rw [if_pos hallowed]
    exact trivial
  rw [if_neg hallowed]
  by_cases hnone : r.executableLevel = "" ∨ r.executableLevel = "observe" ∨ r.ttl ≤ 0
  · rw [if_pos hnone]
    exact trivial
  rw [if_neg hnone]
  refine Uses.bind (uses_of_readsOnly (readsOnly_autonomyPrerequisiteDenyReason _ _ _)) fun autonomy => ?_
  rcases autonomy with err | reason
  · exact trivial
  dsimp only
  split_ifs
  · exact trivial
  refine Uses.bind (uses_of_readsOnly (readsOnly_strongerActiveLeaseDenyReason _ _)) fun stronger => ?_
  rcases stronger with err | reason
  · exact trivial
  dsimp only
  split_ifs
  · exact trivial
  refine Uses.bind (uses_renewal writesOnly_of_isRead (fun _ _ => trivial) (fun _ => trivial)
    fun existing => hrenewed existing now hnow) fun renewal => ?_
  rcases renewal with ⟨lease, renewed, skipReason, _ | err⟩
  · simp only [Broker.afterRenewal]
    split_ifs
    · exact trivial
    · exact trivial
    · exact writes_createLease (hnew now hnow) _ now
  · exact trivial

/-- The calls an application makes: what it writes and what it asks the PEP to apply is for the
resolution. -/
def WritesFor (b : Broker) (r : ActionResolution) : BrokerOp → Prop
  | .store (.upsert lease) | .pep (.apply lease) => WrittenFor b r lease
  | .pep (.revert _) => False
  | _ => True

/-- Every lease an application writes or has applied is written for its resolution. -/
theorem writes_apply (ids : GeneratedIDs) : Uses (WritesFor b r) (fun _ _ => True) (b.apply ids r) := by
  have hwrites : Uses (WritesOnly (WrittenFor b r)) (fun _ _ => True) (b.apply ids r) :=
    writesOnly_apply (fun now _ => writtenFor_newLease ids _ _ now) fun existing now _ _ =>
      writtenFor_renewed existing _ now
  refine Uses.mono hwrites (fun op hop => ?_) fun _ _ _ => trivial
  cases op with
  | now => exact hop
  | store op => cases op <;> exact hop
  | pep op => cases op <;> exact hop

/-- A PEP call of an application denies nothing but the target it was begun for. -/
theorem held_relationshipHandle {ρ : Type} {pep : RelationshipPEP ρ} {target : RelationshipTarget}
    {I : ρ → Prop} (hdeny : ∀ s, I s → I (pep.denyRelationship target s).2) {op : PepOp}
    (hop : WritesFor b r (.pep op)) {s : BrokeredRelationshipPEP ρ} (hs : I s.adapter)
    (hactive : s.active = some target) (now : Time) :
    I (BrokeredRelationshipPEP.handle pep now op s).2.adapter ∧
      (BrokeredRelationshipPEP.handle pep now op s).2.active = some target := by
  cases op with
  | apply lease =>
    by_cases havailable : pep.available s.adapter = true
    · have hkept := hdeny s.adapter hs
      simp only [BrokeredRelationshipPEP.handle, havailable, not_true, if_false, hactive]
      rcases hdenied : pep.denyRelationship target s.adapter with ⟨err | ⟨⟩, adapter⟩
      · rw [hdenied] at hkept
        exact ⟨hkept, rfl⟩
      · rw [hdenied] at hkept
        exact ⟨hkept, rfl⟩
    · simp only [BrokeredRelationshipPEP.handle, havailable]
      exact ⟨hs, hactive⟩
  | currentFencingToken lease => exact ⟨hs, hactive⟩
  | revert lease => exact hop.elim

/-- What every denial of its target keeps, an application of a relationship keeps. -/
theorem applyRelationship_keeps {σ ρ : Type} {e : BrokeredActionExecutor σ ρ} {target : RelationshipTarget}
    {I : ρ → Prop} (hdeny : ∀ s, I s → I (e.relationshipPEP.denyRelationship target s).2)
    {w : NodeWorld σ ρ} (h : I w.pep.relationship.adapter) (ids : GeneratedIDs) (now : Time) :
    I (e.applyRelationship ids target r now w).2.pep.relationship.adapter := by
  unfold BrokeredActionExecutor.applyRelationship
  by_cases hallowed : ¬ r.allowed
  · rw [if_pos hallowed]
    exact h
  rw [if_neg hallowed]
  by_cases hlevel : r.executableLevel ≠ "block"
  · rw [if_pos hlevel]
    exact h
  rw [if_neg hlevel]
  by_cases httl : r.ttl ≤ 0
  · rw [if_pos httl]
    exact h
  rw [if_neg httl]
  cases hbroker : e.relationshipBroker with
  | none => exact h
  | some broker =>
    let held : NodeWorld σ ρ → Prop := fun w =>
      I w.pep.relationship.adapter ∧ w.pep.relationship.active = some target
    have hwp : wp (answers (brokerHandle (e.relationshipHandle w.clock) .none)) held (fun _ => held)
        (broker.apply ids r) (w.withRelationship (w.pep.relationship.begin target)) := by
      refine wp_of_uses (writes_apply ids) ⟨h, rfl⟩ ?_
      rintro op s a s' hop ⟨hs, hactive⟩ hstep
      refine ⟨trivial, ?_⟩
      obtain rfl := congrArg Prod.snd hstep
      cases op with
      | now => exact ⟨hs, hactive⟩
      | store op => exact ⟨hs, hactive⟩
      | pep op => exact held_relationshipHandle hdeny hop hs hactive w.clock
    exact (hwp.runs (runs_exec _ _ _)).1

end Calls

section Requests

/-- What a PEP is asked to enforce on. -/
inductive PepTarget where
  | source (t : SourceTarget)
  | relationship (t : RelationshipTarget)

def sourceTargetFromID (sourceID : String) : SourceTarget := { sourceID := sourceID, subjectID := sourceID }

/-- What a path hands the executor. -/
structure PepRequest where
  resolution : ActionResolution
  asked : PepTarget

/-- The target of an action names what the PEP is asked to enforce on. -/
def PepTarget.NamedBy (target : ActionTarget) : PepTarget → Prop
  | .source t => (target.granularity = "" ∨ target.granularity = targetGranularitySource) ∧
    t.id = target.value
  | .relationship t => ∃ t', relationshipTargetFromActionTarget target = some t' ∧ SameRelationship t' t

/-- The resolution a request puts under a lease. -/
def PepRequest.leased (req : PepRequest) (params : EnforcementParams) : ActionResolution :=
  match req.asked with
  | .source _ => resolutionWithExecutionMetadata req.resolution params
  | .relationship _ => req.resolution

/-- The PEP is asked for the target that was examined, and every lease written for it is one that
decodes to that target. -/
structure PepRequest.Authorised (req : PepRequest) : Prop where
  named : req.asked.NamedBy req.resolution.target
  lease : ∀ (b : Broker) (ids : GeneratedIDs) (params : EnforcementParams), Uses (fun
      | .store (.upsert lease) | .pep (.apply lease) => req.asked.NamedBy (targetFromLease lease)
      | .pep (.revert _) => False
      | _ => True) (fun _ _ => True) (b.apply ids (req.leased params))

theorem PepTarget.NamedBy.congr {asked : PepTarget} {target target' : ActionTarget}
    (h : SameTarget target target')
    (hn : asked.NamedBy target') : asked.NamedBy target := by
  cases asked with
  | source t =>
    obtain ⟨hgran, hvalue⟩ := hn
    rw [← h.granularity] at hgran
    exact ⟨hgran, hvalue.trans h.value.symm⟩
  | relationship t =>
    obtain ⟨t', hdecode, hsame⟩ := hn
    obtain ⟨t'', hdecode', hsame'⟩ := relationshipTargetFromActionTarget_congr h.granularity.symm
      (fun k => (h.attributes k).symm) hdecode
    exact ⟨t'', hdecode', hsame'.trans hsame⟩

theorem Aimed.lease {target : ActionTarget} (h : Aimed target) : target.granularity ≠ "" ∧
    target.value ≠ "" := by
  have hsource : targetGranularitySource ≠ "" := by decide
  have hrelationship : targetGranularityRelationship ≠ "" := by decide
  cases h with
  | source attributes hvalue => exact ⟨hsource, hvalue⟩
  | @relationship t ht =>
    refine ⟨hrelationship, fun hempty => ?_⟩
    have hlength := congrArg (fun s => s.toList.length) hempty
    simp [RelationshipTarget.proposal, RelationshipTarget.canonical, joinText] at hlength

/-- Where the examined target came from a decision, the lease follows from the request. -/
theorem PepRequest.authorised_iff {req : PepRequest} (h : Aimed req.resolution.target) :
    req.Authorised ↔ req.asked.NamedBy req.resolution.target := by
  refine ⟨Authorised.named, fun hn => ⟨hn, fun b ids params => ?_⟩⟩
  have htarget : (req.leased params).target = req.resolution.target := by
    unfold PepRequest.leased
    cases req.asked <;> rfl
  have hnamed : ∀ lease, WrittenFor b (req.leased params) lease →
      req.asked.NamedBy (targetFromLease lease) := by
    intro lease hw
    have hsame := sameTarget_of_written hw (by rw [htarget]; exact h.lease.1)
        (by rw [htarget]; exact h.lease.2)
    rw [htarget] at hsame
    exact hn.congr hsame
  refine Uses.mono (writes_apply ids) (fun op hop => ?_) fun _ _ _ => trivial
  cases op with
  | now => trivial
  | store op => cases op with
    | upsert lease => exact hnamed lease hop
    | _ => trivial
  | pep op => cases op with
    | apply lease => exact hnamed lease hop
    | currentFencingToken lease => trivial
    | revert lease => exact hop

end Requests

section Paths

/-- A signal of the graph learner. -/
structure GraphSignal where
  subjectID : String
  score : Int
  attributes : GoMap String

/-- The ways from a decision to a PEP: for a candidate, through the channel of proposals, and for a
signal of the graph learner. -/
inductive EnforcementPath where
  | candidate (target : SourceTarget) (dropRate : Option ParamValue)
  | applier (fallbackSubjectID : String) (dropRate : Option ParamValue)
  | graph (tupleEnforcement available : Bool) (sig : GraphSignal)

variable (severities : Severities) (resolver : PolicyResolver) (dec : RuntimeDecision) (now : Time)

/-- The candidate itself, or the other source that the resolution names. -/
def candidateSource (target : SourceTarget) (aim : ActionTarget) : SourceTarget :=
  let target := if aim.value ≠ "" ∧ aim.value ≠ target.id then sourceTargetFromID aim.value else target
  { target with attributes := aim.attributes }

def processRuntimePDPDecisionForCandidate (target : SourceTarget) (dropRate : Option ParamValue) :
    Option PepRequest :=
  match runtimeDecisionToActionProposal severities dec target.id now with
  | .error _ => none
  | .ok prop =>
    let res := resolver.resolve (runtimePDPActionProposalWithEvidence prop dropRate)
    if res.target.granularity = "" ∨ res.target.granularity = targetGranularitySource then
      some ⟨res, .source (candidateSource target res.target)⟩
    else (relationshipTargetFromActionTarget res.target).map fun t => ⟨res, .relationship t⟩

def applyResolvedAction (res : ActionResolution) : Option PepRequest :=
  if res.target.granularity = "" ∨ res.target.granularity = targetGranularitySource then
    if res.target.value = "" then none
    else some ⟨res, .source { sourceTargetFromID res.target.value with attributes := res.target.attributes }⟩
  else (relationshipTargetFromActionTarget res.target).map fun t => ⟨res, .relationship t⟩

def runRuntimePDPProposalApplier (fallbackSubjectID : String) (dropRate : Option ParamValue) :
    Option PepRequest :=
  match runtimeDecisionToActionProposal severities dec fallbackSubjectID now with
  | .error _ => none
  | .ok prop =>
    let res := resolver.resolve (runtimePDPActionProposalWithEvidence prop dropRate)
    if ¬ res.allowed then none else applyResolvedAction res

/-- The relationship of the signal goes to the PEP whatever target the decision was resolved for. -/
def maybeApplyRuntimeGraphRelationship (tupleEnforcement available : Bool) (sig : GraphSignal) :
    Option PepRequest :=
  if ¬ tupleEnforcement ∨ sig.score < 90 ∨ ¬ available then none
  else
    match relationshipTargetFromAttributes sig.subjectID sig.attributes with
    | none => none
    | some relTarget =>
      match runtimeDecisionToActionProposalWithFallbackTarget severities dec sig.subjectID
          (some relTarget.proposal) now with
      | .error _ => none
      | .ok prop => some ⟨resolver.resolve prop, .relationship relTarget⟩

def EnforcementPath.request : EnforcementPath → Option PepRequest
  | .candidate target dropRate => processRuntimePDPDecisionForCandidate severities resolver dec now target
    dropRate
  | .applier fallbackSubjectID dropRate =>
    runRuntimePDPProposalApplier severities resolver dec now fallbackSubjectID dropRate
  | .graph tupleEnforcement available sig =>
    maybeApplyRuntimeGraphRelationship severities resolver dec now tupleEnforcement available sig

/-- A decision on a signal of the graph learner leaves the target to the signal, or names the
relationship of the signal itself. -/
def EnforcementPath.Agrees : EnforcementPath → Prop
  | .candidate .. | .applier .. => True
  | .graph _ _ sig =>
    let target := runtimeDecisionTarget dec sig.subjectID
    shouldUseRuntimeFallbackTarget dec target = true ∨
      ∃ aim t t', target = .ok aim ∧ relationshipTargetFromActionTarget aim = some t' ∧
        relationshipTargetFromAttributes sig.subjectID sig.attributes = some t ∧ SameRelationship t' t

variable {severities resolver dec now} {req : PepRequest}

theorem id_candidateSource {target : SourceTarget} {aim : ActionTarget} (hvalue : aim.value ≠ "") :
    (candidateSource target aim).id = aim.value := by
  unfold candidateSource
  by_cases hother : aim.value = target.id
  · have hsame : ¬ (aim.value ≠ "" ∧ aim.value ≠ target.id) := fun h => h.2 hother
    rw [if_neg hsame]
    exact hother.symm
  · rw [if_pos ⟨hvalue, hother⟩]
    exact if_neg hvalue

/-- The request for a candidate names the target of the resolution. -/
theorem candidate_named {target : SourceTarget} {dropRate : Option ParamValue}
    (h : processRuntimePDPDecisionForCandidate severities resolver dec now target dropRate = some req) :
    Aimed req.resolution.target ∧ req.asked.NamedBy req.resolution.target := by
  unfold processRuntimePDPDecisionForCandidate at h
  cases hprop : runtimeDecisionToActionProposal severities dec target.id now with
  | error reason => simp [hprop] at h
  | ok prop =>
    have haimed : Aimed prop.target := aimed_of_proposal hprop (by simp)
    have htarget : (resolver.resolve (runtimePDPActionProposalWithEvidence prop dropRate)).target =
        prop.target := by
      rw [PolicyResolver.resolve_target, withEvidence_target]
    simp only [hprop, htarget] at h
    split_ifs at h with hsource
    · obtain rfl := Option.some.inj h
      simp only [htarget]
      exact ⟨haimed, hsource, id_candidateSource haimed.lease.2⟩
    · obtain ⟨t, ht, rfl⟩ := Option.map_eq_some_iff.mp h
      simp only [htarget]
      exact ⟨haimed, t, ht, .refl t⟩

theorem applier_named {fallbackSubjectID : String} {dropRate : Option ParamValue}
    (h : runRuntimePDPProposalApplier severities resolver dec now fallbackSubjectID dropRate = some req) :
    Aimed req.resolution.target ∧ req.asked.NamedBy req.resolution.target := by
  unfold runRuntimePDPProposalApplier at h
  cases hprop : runtimeDecisionToActionProposal severities dec fallbackSubjectID now with
  | error reason => simp [hprop] at h
  | ok prop =>
    have haimed : Aimed prop.target := aimed_of_proposal hprop (by simp)
    have htarget : (resolver.resolve (runtimePDPActionProposalWithEvidence prop dropRate)).target =
        prop.target := by
      rw [PolicyResolver.resolve_target, withEvidence_target]
    simp only [hprop, applyResolvedAction, htarget] at h
    split_ifs at h with hallowed hsource
    · obtain rfl := Option.some.inj h
      simp only [htarget]
      refine ⟨haimed, hsource, ?_⟩
      simp [SourceTarget.id, sourceTargetFromID, haimed.lease.2]
    · obtain ⟨t, ht, rfl⟩ := Option.map_eq_some_iff.mp h
      simp only [htarget]
      exact ⟨haimed, t, ht, .refl t⟩

theorem graph_aimed {tupleEnforcement available : Bool} {sig : GraphSignal}
    (h : maybeApplyRuntimeGraphRelationship severities resolver dec now tupleEnforcement available sig =
    some req) :
    ∃ t, relationshipTargetFromAttributes sig.subjectID sig.attributes = some t ∧
    req.asked = .relationship t ∧
      targetWithFallback dec sig.subjectID (some t.proposal) = .ok req.resolution.target := by
  unfold maybeApplyRuntimeGraphRelationship at h
  split_ifs at h
  cases ht : relationshipTargetFromAttributes sig.subjectID sig.attributes with
  | none => simp [ht] at h
  | some t =>
    simp only [ht] at h
    cases hprop : runtimeDecisionToActionProposalWithFallbackTarget severities dec sig.subjectID
        (some t.proposal) now with
    | error reason => simp [hprop] at h
    | ok prop =>
      simp only [hprop] at h
      obtain rfl := Option.some.inj h
      refine ⟨t, rfl, rfl, ?_⟩
      rw [PolicyResolver.resolve_target]
      exact proposal_target hprop

/-- On each path, what the PEP is asked for and what its lease reverts is the target that was
examined, exactly when the decision agrees with the signal it was made for. -/
theorem request_authorised_iff (path : EnforcementPath)
    (h : path.request severities resolver dec now = some req) : req.Authorised ↔ path.Agrees dec := by
  cases path with
  | candidate target dropRate =>
    obtain ⟨haimed, hnamed⟩ := candidate_named h
    exact iff_of_true ((PepRequest.authorised_iff haimed).mpr hnamed) trivial
  | applier fallbackSubjectID dropRate =>
    obtain ⟨haimed, hnamed⟩ := applier_named h
    exact iff_of_true ((PepRequest.authorised_iff haimed).mpr hnamed) trivial
  | graph tupleEnforcement available sig =>
    obtain ⟨t, ht, hasked, htarget⟩ := graph_aimed h
    unfold targetWithFallback at htarget
    dsimp only at htarget
    by_cases huse : shouldUseRuntimeFallbackTarget dec (runtimeDecisionTarget dec sig.subjectID) = true
    · rw [if_pos huse] at htarget
      have haim : t.proposal = req.resolution.target := Except.ok.inj htarget
      have haimed : Aimed req.resolution.target := haim ▸ .relationship (wellFormed_of_attributes ht)
      refine iff_of_true ((PepRequest.authorised_iff haimed).mpr ?_) (.inl huse)
      rw [hasked, ← haim]
      exact decode_proposal (wellFormed_of_attributes ht)
    · rw [if_neg huse] at htarget
      rw [PepRequest.authorised_iff (aimed_of_decision htarget), hasked]
      constructor
      · rintro ⟨t', hdecode, hsame⟩
        exact .inr ⟨_, t, t', htarget, hdecode, ht, hsame⟩
      · rintro (hfallback | ⟨aim, t'', t', haim, hdecode, ht', hsame⟩)
        · exact absurd hfallback huse
        · obtain rfl := Except.ok.inj (htarget.symm.trans haim)
          obtain rfl := Option.some.inj (ht.symm.trans ht')
          exact ⟨t', hdecode, hsame⟩

end Paths

section OtherEdge

/-- A relationship PEP that remembers the ends of what it denies. -/
def edgeRecorder : RelationshipPEP (List (String × String)) where
  available _ := true
  denyRelationship t s := (.ok (), s ++ [(t.subjectID, t.targetID)])
  allowRelationship t s := (.ok (), s.filter (· ≠ (t.subjectID, t.targetID)))

def edgeBroker : Broker where
  nodeID := "node-1"
  adapterID := "kliq-relationship-pep"
  sha256 := digestsOf
    [("kliq-relationship-pep|relationship:subject=\"10.0.0.9\"|target=\"svc-b\"|enforce.access.deny|block|" ++
        "decision-1|lease-00000000-0000-4000-8000-000000000001",
      "9177859cb5b05fe606da1c96ed05668d4c74c45d4783d93f7c790de1a8cbf323")]

def edgeExecutor : BrokeredActionExecutor Unit (List (String × String)) :=
  { sourcePEP := ⟨fun _ st _ _ _ s => (.ok st, s)⟩
    sourceBroker := edgeBroker
    relationshipPEP := edgeRecorder
    relationshipBroker := some edgeBroker }

def newEdge : GraphSignal :=
  { subjectID := "10.0.0.1", score := 95, attributes := (∅ : GoMap String).insert "target_id" "svc-a" }

/-- A decision on the signal that denies another relationship. -/
def denyOtherEdge : RuntimeDecision :=
  { effect := "apply"
    action := {
      capability := "enforce.access.deny"
      level := "block"
      ttl := 60 * Duration.second
      params := GoMap.ofList [("target_granularity", .string "relationship"),
        ("subject_id", .string "10.0.0.9"),
        ("target_id", .string "svc-b")] } }

/-- A decision on the signal that leaves the relationship to it. -/
def denyNewEdge : RuntimeDecision :=
  { effect := "apply"
    action := { capability := "enforce.access.deny", level := "block", ttl := 60 * Duration.second } }

def managedResolver : PolicyResolver := { mode := "managed", hasPolicyPack := true }

theorem newEdge_authorised : ∃ req,
    (EnforcementPath.graph true true newEdge).request (fun _ => none) managedResolver denyNewEdge
      63864979200000000000 = some req ∧ req.Authorised := by
  have hsome : ((EnforcementPath.graph true true newEdge).request (fun _ => none) managedResolver denyNewEdge
      63864979200000000000).isSome = true := by decide +kernel
  obtain ⟨req, hreq⟩ := Option.isSome_iff_exists.mp hsome
  have huse : shouldUseRuntimeFallbackTarget denyNewEdge
      (runtimeDecisionTarget denyNewEdge newEdge.subjectID) = true := by decide +kernel
  exact ⟨req, hreq, (request_authorised_iff _ hreq).mpr (.inl huse)⟩

def otherEdgeRequest : Option PepRequest :=
  (EnforcementPath.graph true true newEdge).request (fun _ => none) managedResolver denyOtherEdge
    63864979200000000000

/-- What the executor makes of the request. -/
def otherEdgeDenied : Option (ActionResult × NodeWorld Unit (List (String × String))) :=
  otherEdgeRequest.bind fun req => match req.asked with
    | .source _ => none
    | .relationship t => some (edgeExecutor.applyRelationship ⟨"1", "00000000-0000-4000-8000-000000000001"⟩ t
      req.resolution 63864979200000000000
      ⟨Keyed.Table.empty, 63864979200000000000, { adapter := () }, { adapter := [] }⟩)

theorem otherEdge_facts : ∃ out ∈ otherEdgeDenied, out.1.status = .applied ∧
    out.2.pep.relationship.adapter = [("10.0.0.1", "svc-a")] ∧
    ∃ l ∈ out.2.leases.rows, l.status = .active ∧
      (relationshipTargetFromActionTarget (targetFromLease l)).map (fun t => (t.subjectID, t.targetID)) =
        some ("10.0.0.9", "svc-b") := by
  decide +kernel

theorem otherEdgeRequest_facts : ∃ req ∈ otherEdgeRequest,
    (relationshipTargetFromActionTarget req.resolution.target).map (·.subjectID) = some "10.0.0.9" ∧
      (match req.asked with
        | .source _ => none
        | .relationship t => some t.subjectID) = some "10.0.0.1" := by
  decide +kernel

/-- A decision that names another relationship is resolved and leased for that one, and the PEP denies
the relationship of the signal. -/
theorem unexamined_edge_denied :
    (¬ ∀ (severities : Severities) (resolver : PolicyResolver) (path : EnforcementPath)
    (dec : RuntimeDecision)
      (now : Time) (req : PepRequest), path.request severities resolver dec now = some req → req.Authorised) ∧
    ∃ out ∈ otherEdgeDenied, out.1.status = .applied ∧
      out.2.pep.relationship.adapter = [("10.0.0.1", "svc-a")] ∧
      ∃ l ∈ out.2.leases.rows, l.status = .active ∧
        (relationshipTargetFromActionTarget (targetFromLease l)).map (fun t => (t.subjectID, t.targetID)) =
          some ("10.0.0.9", "svc-b") := by
  refine ⟨fun h => ?_, otherEdge_facts⟩
  obtain ⟨req, hreq, hexamined, hasked⟩ := otherEdgeRequest_facts
  have hnamed := (h _ _ _ _ _ req hreq).named
  cases ht : req.asked with
  | source t => simp [ht] at hasked
  | relationship t =>
    rw [ht] at hnamed hasked
    obtain ⟨t', hdecode, hsame⟩ := hnamed
    rw [hdecode] at hexamined
    have hother := (Option.some.inj hexamined).symm.trans (hsame.1.trans (Option.some.inj hasked))
    exact absurd hother (by decide)

end OtherEdge

end Kernloom
