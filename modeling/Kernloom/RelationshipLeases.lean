import Kernloom.CanonicalTarget
import Kernloom.TargetReadback

/-! A relationship in a proposal, in the lease of the proposal and back from the lease on revert, and the
targets of leases that tell relationships apart. -/

namespace Kernloom

open Effects Effects.Program

section Canonical

variable {t t' : RelationshipTarget}

theorem SameMap.keys_perm {α : Type} {m m' : GoMap α} (h : SameMap m m') :
    (m.entries.map (·.1)).Perm (m'.entries.map (·.1)) := by
  have hmem : ∀ m : GoMap α, ∀ k, k ∈ m.entries.keys ↔ (m.lookup k).isSome = true :=
    fun m k => AList.lookup_isSome.symm
  refine (List.perm_ext_iff_of_nodup m.nodupKeys m'.nodupKeys).mpr fun k => ?_
  rw [hmem, hmem, h k]

/-- The order of the keys is that of their sort, whatever order the map has them in. -/
theorem SameMap.sortedKeys {α : Type} {m m' : GoMap α} (h : SameMap m m') :
    (m.entries.map (·.1)).insertionSort (· ≤ ·) = (m'.entries.map (·.1)).insertionSort (· ≤ ·) := by
  refine List.Perm.eq_of_sortedLE List.sortedLE_insertionSort List.sortedLE_insertionSort ?_
  exact (List.perm_insertionSort _ _).trans (h.keys_perm.trans (List.perm_insertionSort _ _).symm)

theorem canonical_congr (h : SameRelationship t t') : t.canonical = t'.canonical := by
  obtain ⟨hsubject, htarget, hdimension⟩ := h
  unfold RelationshipTarget.canonical
  rw [hsubject, htarget, hdimension.sortedKeys]
  simp only [hdimension.get]

theorem canonical_eq_iff : t.canonical = t'.canonical ↔ SameRelationship t t' :=
  ⟨canonical_inj, canonical_congr⟩

theorem targetString_proposal (t : RelationshipTarget) :
    targetString t.proposal = "relationship:" ++ t.canonical :=
  (if_neg (by decide : targetGranularityRelationship ≠ "")).trans rfl

end Canonical

section Leases

/-- The lease is for the relationship: its target is that of the proposal, and a revert decodes it to the
relationship. -/
structure Carries (t : RelationshipTarget) (lease : ActionLease) : Prop where
  target : lease.target = targetString t.proposal
  decoded : ∃ back, relationshipTargetFromActionTarget (targetFromLease lease) = some back ∧
    SameRelationship back t

theorem Carries.same_of_target {t t' : RelationshipTarget} {lease lease' : ActionLease} (h : Carries t lease)
    (h' : Carries t' lease') : lease.target = lease'.target ↔ SameRelationship t t' := by
  rw [h.target, h'.target, targetString_proposal, targetString_proposal, String.append_right_inj,
    canonical_eq_iff]

variable {b : Broker} {r : ActionResolution} {t : RelationshipTarget}

theorem carries_of_built (ht : t.WellFormed) (hr : r.target = t.proposal) {lease : ActionLease}
    (h : BuiltFor b r lease) : Carries t lease := by
  have hgran : r.target.granularity ≠ "" := by
    rw [hr]
    exact (by decide : targetGranularityRelationship ≠ "")
  have hvalue : r.target.value ≠ "" := by
    intro hempty
    have hlength : t.canonical.toList = [] := congrArg String.toList
        ((congrArg (·.value) hr).symm.trans hempty)
    rw [toList_canonical] at hlength
    exact absurd hlength (by simp)
  have hread := sameTarget_of_written h.metadata hgran hvalue
  obtain ⟨sent, hsent, hsame⟩ := decode_proposal ht
  refine ⟨hr ▸ h.target, ?_⟩
  rw [← hr] at hsent
  obtain ⟨back, hback, hsame'⟩ := relationshipTargetFromActionTarget_congr hread.granularity.symm
    (fun k => (hread.attributes k).symm) hsent
  exact ⟨back, hback, hsame'.trans hsame⟩

end Leases

section Example

/-- A dimension without a name and one without a value are left out. -/
def podAttributes : GoMap String :=
  GoMap.ofList [("object_id", " svc-a "), ("dimension.port", "443"), ("dimension.", "x"),
    ("dimension.route", " ")]

def relationshipDenial (t : RelationshipTarget) : ActionResolution :=
  { decisionID := "decision-1"
    allowed := true
    requestedAction := "enforce.access.deny"
    requestedLevel := "block"
    executableAction := "enforce.access.deny"
    executableLevel := "block"
    target := t.proposal
    ttl := 60 * Duration.second }

theorem podAttributes_accepted :
    (relationshipTargetFromAttributes " 10.0.0.1" podAttributes).any fun t =>
      decide (t.subjectID = "10.0.0.1" ∧ t.targetID = "svc-a" ∧
      t.dimension.entries.map (·.1) = ["port"]) := by
  decide +kernel

end Example

end Kernloom
