import Kernloom.LeaseMetadata
import Kernloom.SourceExecutor

/-! What a lease's metadata records: its target, and the parameters it was executed with. Leases
whose execution parameters agree as texts were executed with the same rates. -/

namespace Kernloom

/-- What a PEP enforces on a source. -/
structure Enforcement where
  level : Level := .observe
  rate : UInt64 := 0
  burst : UInt64 := 0
  deriving DecidableEq

instance : Inhabited Enforcement := ⟨{}⟩

/-- What a transition to a level under given parameters enforces. -/
def enforcementOf (level : Level) (p : EnforcementParams) : Enforcement :=
  match level with
  | .observe => {}
  | .soft => ⟨.soft, p.softRate, p.softBurst⟩
  | .hard => ⟨.hard, p.hardRate, p.hardBurst⟩
  | .block => { level := .block }

/-- The metadata records the execution parameters. -/
def Records (metadata : GoMap String) (p : EnforcementParams) : Prop :=
  ∀ e ∈ executionParameters p, metadata.get ("param." ++ e.1) = e.2.sprint

/-- The lease stands for this enforcement. -/
def ActionLease.Enforces (lease : ActionLease) (x : Enforcement) : Prop :=
  ∃ p, Records lease.metadata p ∧ x = enforcementOf (parseFSMLevel lease.level) p

section Records

/-- The count of renewals and the demand of a receipt are none of the parameters, and the broker's own
names are none of an attribute either. -/
theorem not_param : (∀ key ∈ ["broker.renewal_count", "policy.requires_audit_receipt", "target_granularity",
      "target_value"], hasPrefix key "param." = false) ∧
    (∀ key ∈ ["target_granularity", "target_value"], hasPrefix key "target_attr." = false) ∧
    ((executionParameters {}).map Prod.fst).Nodup := by
  decide +kernel

theorem sprint_uint64_inj {m n : UInt64} :
    (ParamValue.uint64 m).sprint = (ParamValue.uint64 n).sprint ↔ m = n := by
  simp [ParamValue.sprint, itoa_ofNat_inj, UInt64.toNat_inj]

theorem Records.enforcementOf_eq {metadata : GoMap String} {p p' : EnforcementParams}
    (h : Records metadata p) (h' : Records metadata p') (level : Level) :
    enforcementOf level p = enforcementOf level p' := by
  simp only [Records, executionParameters, List.forall_mem_cons] at h h'
  obtain ⟨_, hsr, hsb, hhr, hhb, _⟩ := h
  obtain ⟨_, hsr', hsb', hhr', hhb', _⟩ := h'
  have hsoft := sprint_uint64_inj.mp (hsr.symm.trans hsr')
  have hsoftBurst := sprint_uint64_inj.mp (hsb.symm.trans hsb')
  have hhard := sprint_uint64_inj.mp (hhr.symm.trans hhr')
  have hhardBurst := sprint_uint64_inj.mp (hhb.symm.trans hhb')
  cases level <;> simp [enforcementOf, hsoft, hsoftBurst, hhard, hhardBurst]

/-- Execution parameters that did not change agree key by key. -/
theorem get_eq_of_executionMetadataChanged {existing next : GoMap String}
    (h : executionMetadataChanged existing next = none) (key : String) :
    existing.get (executionPrefix ++ key) = next.get (executionPrefix ++ key) := by
  by_cases hkey : executionPrefix ++ key ∈ existing.keys ++ next.keys
  · have hh := List.find?_eq_none.mp h (executionPrefix ++ key) (by
      simpa [hasPrefix_append] using hkey)
    simpa using hh
  · simp only [List.mem_append, not_or] at hkey
    have hl := AList.lookup_eq_none.mpr fun hm => hkey.1 (AList.mem_keys.mp hm)
    have hr := AList.lookup_eq_none.mpr fun hm => hkey.2 (AList.mem_keys.mp hm)
    simp [GoMap.get, hl, hr]

theorem Records.congr {existing next : GoMap String} {p : EnforcementParams}
    (h : Records existing p) (hsame : executionMetadataChanged existing next = none) :
    Records next p := by
  intro e he
  rw [← h e he]
  have hh := get_eq_of_executionMetadataChanged hsame
  simp only [executionParameters, List.mem_cons, List.not_mem_nil, or_false] at he
  rcases he with rfl | rfl | rfl | rfl | rfl
  · exact (hh "dry_run").symm
  · exact (hh "soft_rate").symm
  · exact (hh "soft_burst").symm
  · exact (hh "hard_rate").symm
  · exact (hh "hard_burst").symm

theorem Records.insert_renewalCount {metadata : GoMap String} {p : EnforcementParams}
    (h : Records metadata p) (count : String) :
    Records (metadata.insert "broker.renewal_count" count) p := by
  intro e he
  rw [← h e he]
  refine GoMap.get_insert_ne _ _ fun hh => ?_
  have hp := hasPrefix_append "param." e.1
  rw [hh, not_param.1 _ (by simp)] at hp
  exact absurd hp (by decide)

end Records

section Metadata

variable {b : Broker} {r : ActionResolution}

/-- A key of the metadata that no attribute and no parameter can have. -/
theorem get_leaseMetadata {key : String} (ha : hasPrefix key "target_attr." = false)
    (hp : hasPrefix key "param." = false) (hpolicy : key ≠ "policy.requires_audit_receipt") :
    (b.leaseMetadata r).get key = GoMap.get (GoMap.ofList
      [("requested_action", r.requestedAction), ("requested_level", r.requestedLevel),
        ("target_granularity", r.target.granularity), ("target_value", r.target.value),
        ("broker.renewal_count", "0")]) key := by
  have hne : ∀ pre : String, hasPrefix key pre = false → ∀ k, key ≠ pre ++ k := by
    rintro pre h k rfl
    simp [hasPrefix_append] at h
  unfold Broker.leaseMetadata
  rw [GoMap.get_insertAll_of_notMem, GoMap.get_insertAll_of_notMem, GoMap.get_insertAll_of_notMem]
  · intro h
    obtain ⟨e, he, rfl⟩ := List.mem_map.mp h
    obtain ⟨a, _, rfl⟩ := List.mem_map.mp he
    exact hne _ ha _ rfl
  · intro h
    obtain ⟨e, he, rfl⟩ := List.mem_map.mp h
    obtain ⟨a, _, hae⟩ := List.mem_filterMap.mp he
    by_cases hnil : a.2 = .nil
    · simp [hnil] at hae
    · simp only [hnil, if_false, Option.some.injEq] at hae
      exact hne _ hp _ (by rw [← hae])
  · by_cases haudit : b.requireAuditReceipt
    · simpa [haudit] using hpolicy
    · simp [haudit]

theorem leaseMetadata_granularity :
    (b.leaseMetadata r).get "target_granularity" = r.target.granularity := by
  rw [get_leaseMetadata (not_param.2.1 _ (by simp)) (not_param.1 _ (by simp)) (by decide)]
  rfl

theorem leaseMetadata_value : (b.leaseMetadata r).get "target_value" = r.target.value := by
  rw [get_leaseMetadata (not_param.2.1 _ (by simp)) (not_param.1 _ (by simp)) (by decide)]
  rfl

theorem leaseMetadata_param {key : String} {v : ParamValue} (h : r.parameters.lookup key = some v)
    (hnil : v ≠ .nil) : (b.leaseMetadata r).get ("param." ++ key) = v.sprint := by
  unfold Broker.leaseMetadata
  rw [GoMap.get_insertAll_of_notMem]
  · refine GoMap.get_insertAll (e := ("param." ++ key, v.sprint)) ?_ ?_
    · exact List.mem_filterMap.mpr ⟨⟨key, v⟩, AList.mem_lookup_iff.mp h, by simp [hnil]⟩
    · refine List.pairwise_map.mpr (List.pairwise_filterMap.mpr ?_)
      refine r.parameters.nodupKeys.pairwise_ne.imp fun {a a'} hne e he e' he' heq => ?_
      by_cases hnil : a.2 = .nil <;> by_cases hnil' : a'.2 = .nil <;> simp [hnil, hnil'] at he he'
      rw [← he, ← he'] at heq
      exact hne ((String.append_right_inj "param.").mp heq)
  · have hne : "param." ++ key ≠ "policy.requires_audit_receipt" := by
      intro hh
      have hp := hasPrefix_append "param." key
      rw [hh, not_param.1 _ (by simp)] at hp
      exact absurd hp (by decide)
    by_cases haudit : b.requireAuditReceipt
    · simpa [haudit] using hne
    · simp [haudit]

theorem records_leaseMetadata (p : EnforcementParams) :
    Records (b.leaseMetadata (resolutionWithExecutionMetadata r p)) p := by
  intro e he
  refine leaseMetadata_param (GoMap.lookup_insertAll he ?_) ?_
  · exact not_param.2.2
  · simp only [executionParameters, List.mem_cons, List.not_mem_nil, or_false] at he
    rcases he with rfl | rfl | rfl | rfl | rfl <;> simp

end Metadata

end Kernloom
