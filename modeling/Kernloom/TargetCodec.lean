import Kernloom.ExecutionRecord
import Kernloom.RelationshipTarget

/-! Targets written as attributes and into the metadata of a lease, and read back from them. -/

namespace Kernloom

section Text

theorem dropWhile_idem {α : Type} (p : α → Bool) (l : List α) :
    (l.dropWhile p).dropWhile p = l.dropWhile p := by
  induction l with
  | nil => rfl
  | cons a l ih =>
    by_cases ha : p a
    · simp [ha, ih]
    · simp [ha]

/-- Characters cut off at the end leave a text that starts as before. -/
theorem dropWhile_reverse_dropWhile {α : Type} {p : α → Bool} {l : List α} (h : l.dropWhile p = l) :
    ((l.reverse.dropWhile p).reverse).dropWhile p = (l.reverse.dropWhile p).reverse := by
  cases l with
  | nil => rfl
  | cons a l =>
    have ha : p a = false := by
      by_contra hne
      have hlength := congrArg List.length h
      rw [List.dropWhile_cons_of_pos (by simpa using hne)] at hlength
      have hle := (List.dropWhile_suffix (l := l) p).length_le
      simp only [List.length_cons] at hlength
      omega
    rw [List.reverse_cons, List.dropWhile_append]
    split
    · simp [ha]
    · simp [ha]

theorem dropWhile_ends_idem {α : Type} (p : α → Bool) (l : List α) :
    ((((l.dropWhile p).reverse.dropWhile p).reverse.dropWhile p).reverse.dropWhile p).reverse =
      ((l.dropWhile p).reverse.dropWhile p).reverse := by
  rw [dropWhile_reverse_dropWhile (dropWhile_idem p l), List.reverse_reverse, dropWhile_idem]

theorem trimSpace_idem (s : String) : trimSpace (trimSpace s) = trimSpace s := by
  unfold trimSpace
  rw [String.toList_ofList]
  exact congrArg String.ofList (dropWhile_ends_idem isSpace s.toList)

theorem cutPrefix_eq_some {s pre k : String} : cutPrefix s pre = some k ↔ s = pre ++ k := by
  rw [cutPrefix]
  constructor
  · intro h
    by_cases hpre : hasPrefix s pre = true
    · rw [if_pos hpre] at h
      rw [← Option.some.inj h, append_trimPrefix hpre]
    · rw [if_neg hpre] at h
      exact absurd h (by simp)
  · rintro rfl
    rw [if_pos (hasPrefix_append pre k), trimPrefix_append]

end Text

section Maps

variable {α β : Type}

/-- The entries of a map under a prefix, each kept or left out by its key and value. -/
theorem GoMap.lookup_under (m : GoMap α) (pre : String) (g : String → α → Option β) (k : String) :
    (GoMap.ofList (m.entries.filterMap fun e =>
      (cutPrefix e.1 pre).bind fun key => (g key e.2).map fun v => (key, v))).lookup k =
        (m.lookup (pre ++ k)).bind (g k) := by
  let pick : (Sigma fun _ : String => α) → Option (Sigma fun _ : String => β) := fun e =>
    (cutPrefix e.1 pre).bind fun key => (g key e.2).map fun v => ⟨key, v⟩
  have hpick : ∀ {e e'}, pick e = some e' ↔ e.1 = pre ++ e'.1 ∧ g e'.1 e.2 = some e'.2 := by
    rintro e ⟨key, v⟩
    simp only [pick, Option.bind_eq_some_iff, Option.map_eq_some_iff, cutPrefix_eq_some]
    constructor
    · rintro ⟨key', hkey, v', hv, hpair⟩
      obtain ⟨rfl, hvalue⟩ := Sigma.mk.inj_iff.mp hpair
      rw [eq_of_heq hvalue] at hv
      exact ⟨hkey, hv⟩
    · rintro ⟨hkey, hv⟩
      exact ⟨key, hkey, v, hv, rfl⟩
  have hlist : (GoMap.ofList (m.entries.filterMap fun e =>
      (cutPrefix e.1 pre).bind fun key => (g key e.2).map fun v => (key, v))) =
        (m.entries.filterMap pick).toAList := by
    rw [GoMap.ofList, List.map_filterMap]
    congr 1
    refine List.filterMap_congr fun e _ => ?_
    simp only [pick]
    cases cutPrefix e.1 pre with
    | none => rfl
    | some key =>
      simp only [Option.bind_some, Option.map_map]
      rfl
  have hnodup : (m.entries.filterMap pick).NodupKeys := by
    refine List.pairwise_map.mpr (List.pairwise_filterMap.mpr ?_)
    refine m.nodupKeys.pairwise_ne.imp fun {a a'} hne e he e' he' heq => ?_
    rw [(hpick.mp he).1, (hpick.mp he').1] at hne
    exact hne (congrArg (pre ++ ·) heq)
  rw [hlist, AList.lookup_to_alist]
  refine Option.ext fun v => ?_
  rw [← Option.mem_def, List.mem_dlookup_iff hnodup, List.mem_filterMap]
  constructor
  · rintro ⟨e, he, hpicked⟩
    obtain ⟨hkey, hv⟩ := hpick.mp hpicked
    obtain ⟨key, value⟩ := e
    obtain rfl : key = pre ++ k := hkey
    rw [AList.mem_lookup_iff.mpr he]
    exact hv
  · intro hv
    obtain ⟨value, hvalue, hv⟩ := Option.bind_eq_some_iff.mp hv
    exact ⟨⟨pre ++ k, value⟩, AList.mem_lookup_iff.mp hvalue, hpick.mpr ⟨rfl, hv⟩⟩

/-- Two maps that read alike. -/
def SameMap (m m' : GoMap α) : Prop := ∀ k, m.lookup k = m'.lookup k

theorem SameMap.get [Inhabited α] {m m' : GoMap α} (h : SameMap m m') (k : String) :
    m.get k = m'.get k := by
  rw [GoMap.get, GoMap.get, h k]

theorem SameMap.entries_eq_nil {m m' : GoMap α} (h : SameMap m m') : m.entries = [] ↔ m'.entries = [] := by
  have hnil : ∀ m : GoMap α, m.entries = [] ↔ ∀ k, m.lookup k = none := by
    intro m
    constructor
    · intro hm k
      rw [AList.lookup_eq_none, AList.mem_keys, AList.keys, hm]
      simp
    · intro hm
      refine List.eq_nil_iff_forall_not_mem.mpr fun e he => ?_
      have hlookup := AList.mem_lookup_iff.mpr he
      rw [hm e.1] at hlookup
      exact absurd hlookup (by simp)
  rw [hnil, hnil]
  exact forall_congr' fun k => by rw [h k]

end Maps

section Relationships

/-- The two ends and the dimensions agree. -/
def SameRelationship (t t' : RelationshipTarget) : Prop :=
  t.subjectID = t'.subjectID ∧ t.targetID = t'.targetID ∧ SameMap t.dimension t'.dimension

theorem SameRelationship.refl (t : RelationshipTarget) : SameRelationship t t := ⟨rfl, rfl, fun _ => rfl⟩

theorem SameRelationship.symm {t t' : RelationshipTarget} (h : SameRelationship t t') :
    SameRelationship t' t :=
  ⟨h.1.symm, h.2.1.symm, fun k => (h.2.2 k).symm⟩

theorem SameRelationship.trans {t t' t'' : RelationshipTarget} (h : SameRelationship t t')
    (h' : SameRelationship t' t'') : SameRelationship t t'' :=
  ⟨h.1.trans h'.1, h.2.1.trans h'.2.1, fun k => (h.2.2 k).trans (h'.2.2 k)⟩

def relationshipProposalAttributes (t : RelationshipTarget) : GoMap String :=
  let attrs : GoMap String := (∅ : GoMap String).insert "subject_id" t.subjectID
  let attrs : GoMap String := if t.targetID ≠ "" then attrs.insert "target_id" t.targetID else attrs
  attrs.insertAll (t.dimension.entries.map fun e => ("dimension." ++ e.1, e.2))

/-- The target of a proposal on a relationship. -/
def RelationshipTarget.proposal (t : RelationshipTarget) : ActionTarget :=
  ⟨targetGranularityRelationship, t.canonical, relationshipProposalAttributes t⟩

/-- What the decoder of attributes returns. -/
structure RelationshipTarget.WellFormed (t : RelationshipTarget) : Prop where
  subject : trimSpace t.subjectID = t.subjectID
  subject_ne : t.subjectID ≠ ""
  target : trimSpace t.targetID = t.targetID
  dimension : ∀ k v, t.dimension.lookup k = some v → k ≠ "" ∧ trimSpace v = v ∧ v ≠ ""
  named : ¬ (t.targetID = "" ∧ t.dimension.entries = [])

theorem lookup_relationshipDimensions (attrs : GoMap String) (k : String) :
    (relationshipDimensions attrs).lookup k = (attrs.lookup ("dimension." ++ k)).bind fun v =>
      if k ≠ "" ∧ trimSpace v ≠ "" then some (trimSpace v) else none := by
  rw [← GoMap.lookup_under attrs "dimension." (fun k v =>
    if k ≠ "" ∧ trimSpace v ≠ "" then some (trimSpace v) else none) k, relationshipDimensions]
  congr 2
  refine List.filterMap_congr fun e _ => ?_
  by_cases hpre : hasPrefix e.1 "dimension." = true
  · by_cases hkeep : trimPrefix e.1 "dimension." ≠ "" ∧ trimSpace e.2 ≠ ""
    · simp [cutPrefix, hpre, hkeep]
    · simp only [cutPrefix, hpre, hkeep, if_true, true_and, if_false, Option.bind_some, Option.map_none]
  · simp [cutPrefix, hpre]

theorem trimSpace_empty : trimSpace "" = "" := by
  unfold trimSpace
  rfl

theorem find_trimmed (values : List String) :
    trimSpace (((values.map trimSpace).find? (· ≠ "")).getD "") =
      ((values.map trimSpace).find? (· ≠ "")).getD "" := by
  cases h : (values.map trimSpace).find? (· ≠ "") with
  | none => exact trimSpace_empty
  | some v =>
    obtain ⟨s, -, rfl⟩ := List.mem_map.mp (List.mem_of_find?_eq_some h)
    exact trimSpace_idem s

theorem trimSpace_relationshipTargetID (attrs : GoMap String) :
    trimSpace (relationshipTargetID attrs) = relationshipTargetID attrs := by
  have hmap : relationshipTargetID attrs = (((["target_id", "object_id", "object_entity_id", "target_id"].map
      attrs.get).map trimSpace).find? (· ≠ "")).getD "" := by
    rw [relationshipTargetID, List.map_map]
    rfl
  rw [hmap, find_trimmed]

theorem wellFormed_of_attributes {sourceID : String} {attrs : GoMap String} {t : RelationshipTarget}
    (h : relationshipTargetFromAttributes sourceID attrs = some t) : t.WellFormed := by
  rw [relationshipTargetFromAttributes] at h
  by_cases hnone : trimSpace sourceID = "" ∨
      (relationshipTargetID attrs = "" ∧ (relationshipDimensions attrs).entries = [])
  · simp [hnone] at h
  · simp only [hnone, if_false, Option.some.injEq] at h
    rw [not_or] at hnone
    subst h
    refine ⟨trimSpace_idem _, hnone.1, trimSpace_relationshipTargetID attrs, fun k v hv => ?_, hnone.2⟩
    rw [lookup_relationshipDimensions] at hv
    obtain ⟨raw, -, hraw⟩ := Option.bind_eq_some_iff.mp hv
    by_cases hkeep : k ≠ "" ∧ trimSpace raw ≠ ""
    · rw [if_pos hkeep] at hraw
      obtain rfl := Option.some.inj hraw
      exact ⟨hkeep.1, trimSpace_idem raw, hkeep.2⟩
    · rw [if_neg hkeep] at hraw
      exact absurd hraw (by simp)

theorem wellFormed_of_target {target : ActionTarget} {t : RelationshipTarget}
    (h : relationshipTargetFromActionTarget target = some t) : t.WellFormed := by
  rw [relationshipTargetFromActionTarget] at h
  by_cases hgran : target.granularity ≠ targetGranularityRelationship
  · simp [hgran] at h
  · rw [if_neg hgran] at h
    exact wellFormed_of_attributes h

theorem SameMap.relationshipDimensions {attrs attrs' : GoMap String} (h : SameMap attrs attrs') :
    SameMap (relationshipDimensions attrs) (relationshipDimensions attrs') := by
  intro k
  rw [lookup_relationshipDimensions, lookup_relationshipDimensions, h]

theorem SameMap.relationshipTargetID {attrs attrs' : GoMap String} (h : SameMap attrs attrs') :
    relationshipTargetID attrs = relationshipTargetID attrs' := by
  simp only [Kernloom.relationshipTargetID, List.map_cons, List.map_nil, h.get]

theorem relationshipTargetFromActionTarget_congr {target target' : ActionTarget} {t : RelationshipTarget}
    (hgran : target.granularity = target'.granularity) (hattrs : SameMap target.attributes target'.attributes)
    (h : relationshipTargetFromActionTarget target = some t) :
    ∃ t', relationshipTargetFromActionTarget target' = some t' ∧ SameRelationship t' t := by
  have hdims := hattrs.relationshipDimensions
  simp only [relationshipTargetFromActionTarget, relationshipTargetFromAttributes, hgran, hattrs.get,
    hattrs.relationshipTargetID, hdims.entries_eq_nil] at h ⊢
  by_cases hkind : target'.granularity ≠ targetGranularityRelationship
  · simp [hkind] at h
  rw [if_neg hkind] at h ⊢
  generalize (if target'.attributes.get "subject_id" = "" then target'.attributes.get "source_id"
    else target'.attributes.get "subject_id") = sourceID at h ⊢
  by_cases hnone : trimSpace sourceID = "" ∨ (relationshipTargetID target'.attributes = "" ∧
      (relationshipDimensions target'.attributes).entries = [])
  · simp [hnone] at h
  · rw [if_neg hnone] at h ⊢
    obtain rfl := Option.some.inj h
    exact ⟨_, rfl, rfl, rfl, fun k => (hdims k).symm⟩

variable {t : RelationshipTarget}

/-- The names of the ends of a relationship are none of a dimension. -/
theorem not_dimension : ∀ key ∈ ["subject_id", "target_id", "object_id", "object_entity_id"],
    hasPrefix key "dimension." = false := by
  decide +kernel

theorem lookup_proposalAttributes {key : String} (hkey : hasPrefix key "dimension." = false) :
    (relationshipProposalAttributes t).lookup key = if key = "subject_id" then some t.subjectID
      else if key = "target_id" ∧ t.targetID ≠ "" then some t.targetID else none := by
  have hsubject : "subject_id" ≠ "target_id" := by decide
  rw [relationshipProposalAttributes, GoMap.lookup_insertAll_of_notMem]
  · by_cases hs : key = "subject_id"
    · subst hs
      by_cases htarget : t.targetID ≠ ""
      · rw [if_pos htarget, if_pos rfl, AList.lookup_insert_ne hsubject, AList.lookup_insert]
      · rw [if_neg htarget, if_pos rfl, AList.lookup_insert]
    · rw [if_neg hs]
      by_cases htarget : t.targetID ≠ ""
      · by_cases ht : key = "target_id"
        · subst ht
          rw [if_pos htarget, if_pos ⟨rfl, htarget⟩, AList.lookup_insert]
        · rw [if_pos htarget, if_neg fun hh => ht hh.1, AList.lookup_insert_ne ht, AList.lookup_insert_ne hs,
            AList.lookup_empty]
      · rw [if_neg htarget, if_neg fun hh => htarget hh.2, AList.lookup_insert_ne hs, AList.lookup_empty]
  · intro hmem
    obtain ⟨e, he, rfl⟩ := List.mem_map.mp hmem
    obtain ⟨d, -, rfl⟩ := List.mem_map.mp he
    rw [hasPrefix_append] at hkey
    exact absurd hkey (by simp)

theorem lookup_proposalAttributes_dimension (k : String) :
    (relationshipProposalAttributes t).lookup ("dimension." ++ k) = t.dimension.lookup k := by
  have hnodup : ((t.dimension.entries.map fun e => ("dimension." ++ e.1, e.2)).map Prod.fst).Nodup := by
    rw [List.map_map]
    refine List.pairwise_map.mpr (t.dimension.nodupKeys.pairwise_ne.imp fun hne heq => ?_)
    exact hne ((String.append_right_inj "dimension.").mp heq)
  cases hv : t.dimension.lookup k with
  | some v =>
    have hmem : ("dimension." ++ k, v) ∈ t.dimension.entries.map fun e => ("dimension." ++ e.1, e.2) :=
      List.mem_map.mpr ⟨⟨k, v⟩, AList.mem_lookup_iff.mp hv, rfl⟩
    rw [relationshipProposalAttributes]
    exact GoMap.lookup_insertAll hmem hnodup
  | none =>
    have hother : ∀ key, hasPrefix key "dimension." = false → "dimension." ++ k ≠ key := by
      rintro key hkey rfl
      rw [hasPrefix_append] at hkey
      exact absurd hkey (by simp)
    have hsubject := hother "subject_id" (not_dimension _ (by simp))
    have htarget := hother "target_id" (not_dimension _ (by simp))
    rw [relationshipProposalAttributes, GoMap.lookup_insertAll_of_notMem]
    · split_ifs
      · rw [AList.lookup_insert_ne htarget, AList.lookup_insert_ne hsubject, AList.lookup_empty]
      · rw [AList.lookup_insert_ne hsubject, AList.lookup_empty]
    · intro hmem
      obtain ⟨e, he, hkey⟩ := List.mem_map.mp hmem
      obtain ⟨d, hd, rfl⟩ := List.mem_map.mp he
      obtain rfl : d.1 = k := (String.append_right_inj "dimension.").mp hkey
      rw [AList.mem_lookup_iff.mpr hd] at hv
      exact absurd hv (by simp)

theorem decode_proposal (h : t.WellFormed) :
    ∃ t', relationshipTargetFromActionTarget t.proposal = some t' ∧ SameRelationship t' t := by
  have hget : ∀ key, hasPrefix key "dimension." = false → (relationshipProposalAttributes t).get key =
      if key = "subject_id" then t.subjectID else if key = "target_id" then t.targetID else "" := by
    intro key hkey
    rw [GoMap.get, lookup_proposalAttributes hkey]
    by_cases hs : key = "subject_id"
    · rw [if_pos hs, if_pos hs, Option.getD_some]
    · rw [if_neg hs, if_neg hs]
      by_cases ht : key = "target_id"
      · by_cases hempty : t.targetID = ""
        · simp [ht, hempty]
        · simp [ht, hempty]
      · simp [ht]
  have hsubject : (relationshipProposalAttributes t).get "subject_id" = t.subjectID := by
    rw [hget _ (not_dimension _ (by simp)), if_pos rfl]
  have htarget : relationshipTargetID (relationshipProposalAttributes t) = t.targetID := by
    have hid := hget "target_id" (not_dimension _ (by simp))
    have hobject := hget "object_id" (not_dimension _ (by simp))
    have hentity := hget "object_entity_id" (not_dimension _ (by simp))
    rw [if_neg (by decide), if_pos rfl] at hid
    rw [if_neg (by decide), if_neg (by decide)] at hobject hentity
    simp only [relationshipTargetID, List.map_cons, List.map_nil, hid, hobject, hentity, h.target,
      trimSpace_empty]
    by_cases hempty : t.targetID = ""
    · simp [hempty]
    · simp [hempty]
  have hdims : SameMap (relationshipDimensions (relationshipProposalAttributes t)) t.dimension := by
    intro k
    rw [lookup_relationshipDimensions, lookup_proposalAttributes_dimension]
    cases hv : t.dimension.lookup k with
    | none => rfl
    | some v =>
      obtain ⟨hk, htrim, hne⟩ := h.dimension k v hv
      simp [hk, htrim, hne]
  refine ⟨⟨t.subjectID, t.targetID, relationshipDimensions (relationshipProposalAttributes t),
    relationshipProposalAttributes t⟩, ?_, rfl, rfl, hdims⟩
  have hnamed : ¬ (t.subjectID = "" ∨ (t.targetID = "" ∧
      (relationshipDimensions (relationshipProposalAttributes t)).entries = [])) := by
    rw [hdims.entries_eq_nil, not_or]
    exact ⟨h.subject_ne, h.named⟩
  simp only [relationshipTargetFromActionTarget, RelationshipTarget.proposal, relationshipTargetFromAttributes,
    hsubject, htarget, if_neg h.subject_ne, h.subject, if_neg hnamed, ne_eq, not_true_eq_false, if_false]

end Relationships

section Leases

variable {b : Broker} {r : ActionResolution}

theorem attr_ne_param (k k' : String) : "param." ++ k ≠ "target_attr." ++ k' := by
  intro h
  have hp : "param.".toList = 'p' :: "aram.".toList := by decide
  have ht : "target_attr.".toList = 't' :: "arget_attr.".toList := by decide
  have hlist := congrArg String.toList h
  rw [String.toList_append, String.toList_append, hp, ht, List.cons_append, List.cons_append] at hlist
  exact absurd (List.cons.inj hlist).1 (by decide)

/-- The names of the broker's own metadata are none of an attribute. -/
theorem not_target_attr : ∀ key ∈ ["requested_action", "requested_level", "target_granularity",
    "target_value", "broker.renewal_count", "policy.requires_audit_receipt"],
    hasPrefix key "target_attr." = false := by
  decide +kernel

theorem lookup_leaseMetadata_attr (k : String) :
    (b.leaseMetadata r).lookup ("target_attr." ++ k) = r.target.attributes.lookup k := by
  have hother : ∀ key, hasPrefix key "target_attr." = false → "target_attr." ++ k ≠ key := by
    rintro key hkey rfl
    rw [hasPrefix_append] at hkey
    exact absurd hkey (by simp)
  unfold Broker.leaseMetadata
  rw [GoMap.lookup_insertAll_of_notMem, GoMap.lookup_insertAll_of_notMem]
  · have hnodup : ((r.target.attributes.entries.map fun e => ("target_attr." ++ e.1, e.2)).map Prod.fst).Nodup := by
      rw [List.map_map]
      refine List.pairwise_map.mpr (r.target.attributes.nodupKeys.pairwise_ne.imp fun hne heq => ?_)
      exact hne ((String.append_right_inj "target_attr.").mp heq)
    cases hv : r.target.attributes.lookup k with
    | some v =>
      have hmem : ("target_attr." ++ k, v) ∈
          r.target.attributes.entries.map fun e => ("target_attr." ++ e.1, e.2) :=
        List.mem_map.mpr ⟨⟨k, v⟩, AList.mem_lookup_iff.mp hv, rfl⟩
      exact GoMap.lookup_insertAll hmem hnodup
    | none =>
      rw [GoMap.lookup_insertAll_of_notMem]
      · rw [GoMap.ofList, AList.lookup_to_alist, List.dlookup_eq_none]
        simp only [List.keys, List.map_cons, List.map_nil, List.mem_cons, List.not_mem_nil, or_false]
        rintro (h | h | h | h | h) <;> exact hother _ (not_target_attr _ (by simp)) h
      · intro hmem
        obtain ⟨e, he, hkey⟩ := List.mem_map.mp hmem
        obtain ⟨d, hd, rfl⟩ := List.mem_map.mp he
        obtain rfl : d.1 = k := (String.append_right_inj "target_attr.").mp hkey
        rw [AList.mem_lookup_iff.mpr hd] at hv
        exact absurd hv (by simp)
  · intro hmem
    obtain ⟨e, he, hkey⟩ := List.mem_map.mp hmem
    obtain ⟨a, -, ha⟩ := List.mem_filterMap.mp he
    by_cases hnil : a.2 = .nil
    · simp [hnil] at ha
    · simp only [hnil, if_false, Option.some.injEq] at ha
      rw [← ha] at hkey
      exact attr_ne_param a.1 k hkey
  · by_cases haudit : b.requireAuditReceipt
    · simpa [haudit] using hother "policy.requires_audit_receipt" (not_target_attr _ (by simp))
    · simp [haudit]

end Leases

end Kernloom
