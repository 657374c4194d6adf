import Kernloom.LeaseMetadata
import Kernloom.RuleSelection

/-! The rank by which the decision point chooses between rules and the ranks by which the broker and the
executor compare their leases. The first looks at the level before the action and knows no other names
of an action; the others look at the action before the level. -/

namespace Kernloom

/-- The actions that block whatever their level says. -/
def denyingActions : List String :=
  ["enforce.traffic.drop", "enforce.access.deny", "enforce.network.quarantine", "enforce.identity.disable"]

def brokeredSourceLeaseStrength (action level : String) : Nat :=
  if trimSpace action ∈ ["enforce.traffic.drop", "enforce.access.deny", "enforce.network.quarantine",
      "enforce.identity.disable"] then 300
  else if trimSpace level = "block" then 300
  else if trimSpace level = "hard" then 200
  else if trimSpace level = "soft" then 100
  else 0

theorem brokeredSourceLeaseStrength_eq (action level : String) :
    brokeredSourceLeaseStrength action level = actionLeaseStrength action level := rfl

/-- The rank of a level without spaces around it. -/
def levelRank (level : String) : Nat :=
  if level = "block" then 300 else if level = "hard" then 200 else if level = "soft" then 100 else 0

section Ranks

variable {severities : Severities} {a : RuntimeActionSpec}

/-- The names of actions and levels stand without spaces around them. -/
theorem names_trim : ∀ name ∈ ["enforce.traffic.rate_limit", "enforce.access.deny", "enforce.access.allow",
    "block", "hard", "soft", ""], trimSpace name = name := by
  decide +kernel

theorem normalizeCapabilityID_trim (id : String) :
    trimSpace (normalizeCapabilityID id) = normalizeCapabilityID id := by
  unfold normalizeCapabilityID
  dsimp only
  split_ifs
  · exact names_trim _ (by simp)
  · exact names_trim _ (by simp)
  · exact names_trim _ (by simp)
  · exact trimSpace_idem id

theorem runtimeActionLevel_trim : trimSpace (runtimeActionLevel severities a) = runtimeActionLevel
    severities a := by
  unfold runtimeActionLevel
  dsimp only
  split_ifs
  · exact trimSpace_idem a.level
  · split <;> exact names_trim _ (by simp)

theorem precedence_eq : runtimeActionPrecedence a =
    if 0 < levelRank (trimSpace a.level) then levelRank (trimSpace a.level)
    else if trimSpace a.capability ∈ denyingActions then 300
    else if trimSpace a.capability = "enforce.traffic.rate_limit" then 200
    else 0 := by
  have horder : trimSpace a.capability ∈ ["enforce.access.deny", "enforce.traffic.drop",
      "enforce.network.quarantine",
      "enforce.identity.disable"] ↔ trimSpace a.capability ∈ denyingActions := by
    simp only [denyingActions, List.mem_cons]
    tauto
  unfold runtimeActionPrecedence
  simp only [horder]
  rfl

/-- The strength of the lease of an action. -/
def mappedStrength (severities : Severities) (a : RuntimeActionSpec) : Nat :=
  actionLeaseStrength (normalizeCapabilityID a.capability) (runtimeActionLevel severities a)

theorem mappedStrength_eq : mappedStrength severities a =
    if normalizeCapabilityID a.capability ∈ denyingActions then 300 else levelRank
    (runtimeActionLevel severities a) := by
  unfold mappedStrength actionLeaseStrength
  rw [normalizeCapabilityID_trim, runtimeActionLevel_trim]
  rfl

/-- The level says it all, or the action does under the name and with the severity that the decision
point gives it. -/
def WellRanked (severities : Severities) (a : RuntimeActionSpec) : Prop :=
  if trimSpace a.level = "block" then True
  else if trimSpace a.level = "hard" ∨ trimSpace a.level = "soft" then
    normalizeCapabilityID a.capability ∉ denyingActions
  else if normalizeCapabilityID a.capability ∈ denyingActions then
    trimSpace a.capability = normalizeCapabilityID a.capability
  else if trimSpace a.capability = "enforce.traffic.rate_limit" then
    trimSpace a.level = "" ∧ severities.get "enforce.traffic.rate_limit" = 2
  else trimSpace a.level ≠ ""

theorem normalize_of_denying (h : trimSpace a.capability ∈ denyingActions) :
    normalizeCapabilityID a.capability = trimSpace a.capability := by
  unfold normalizeCapabilityID
  dsimp only
  have hne : ∀ legacy, legacy ∉ denyingActions → trimSpace a.capability ≠ legacy := fun _ hnot heq =>
      hnot (heq ▸ h)
  rw [if_neg (hne _ (by decide)), if_neg (hne _ (by decide)), if_neg (hne _ (by decide))]

theorem runtimeActionLevel_of_level (h : trimSpace a.level ≠ "") :
    runtimeActionLevel severities a = trimSpace a.level := if_pos h

theorem levelRank_of_severity (h : trimSpace a.level = "") (hlevel : runtimeActionLevel severities a ≠ "") :
    0 < levelRank (runtimeActionLevel severities a) ∧
      (levelRank (runtimeActionLevel severities a) = 200 ↔
        severities.get (normalizeCapabilityID a.capability) = 2) := by
  unfold runtimeActionLevel at hlevel ⊢
  rw [if_neg (not_not.mpr h)] at hlevel ⊢
  split at hlevel
  next heq =>
    rw [heq]
    decide
  next heq =>
    rw [heq]
    decide
  next heq =>
    rw [heq]
    decide
  next => exact absurd rfl hlevel

theorem wellRanked_iff (hlevel : runtimeActionLevel severities a ≠ "") :
    WellRanked severities a ↔ runtimeActionPrecedence a = mappedStrength severities a := by
  rw [precedence_eq, mappedStrength_eq]
  unfold WellRanked
  by_cases hknown : trimSpace a.level = "block" ∨ trimSpace a.level = "hard" ∨ trimSpace a.level = "soft"
  · have hlv : runtimeActionLevel severities a = trimSpace a.level :=
      runtimeActionLevel_of_level (by rcases hknown with h | h | h <;> rw [h] <;> decide)
    rw [hlv]
    rcases hknown with h | h | h <;> rw [h] <;> split_ifs <;> simp_all [levelRank]
  · obtain ⟨hblock, hhard, hsoft⟩ : trimSpace a.level ≠ "block" ∧ trimSpace a.level ≠ "hard" ∧
        trimSpace a.level ≠ "soft" := by
      simpa only [not_or] using hknown
    have hrank : levelRank (trimSpace a.level) = 0 := by simp [levelRank, hblock, hhard, hsoft]
    rw [if_neg hblock, if_neg (by simp [hhard, hsoft]), hrank, if_neg (lt_irrefl 0)]
    by_cases hdeny : normalizeCapabilityID a.capability ∈ denyingActions
    · -- a legacy name of a denying action has no rank
      rw [if_pos hdeny, if_pos hdeny]
      by_cases hname : trimSpace a.capability ∈ denyingActions
      · rw [if_pos hname]
        exact iff_of_true (normalize_of_denying hname).symm rfl
      · rw [if_neg hname]
        refine iff_of_false (fun heq => hname (heq ▸ hdeny)) ?_
        split_ifs <;> decide
    · rw [if_neg hdeny, if_neg hdeny, if_neg fun hname => hdeny (normalize_of_denying hname ▸ hname)]
      by_cases hlimit : trimSpace a.capability = "enforce.traffic.rate_limit"
      · have hnormal : normalizeCapabilityID a.capability = "enforce.traffic.rate_limit" := by
          unfold normalizeCapabilityID
          rw [hlimit]
          decide
        rw [if_pos hlimit, if_pos hlimit]
        by_cases hempty : trimSpace a.level = ""
        · rw [← hnormal, ← (levelRank_of_severity hempty hlevel).2]
          exact ⟨fun h => h.2.symm, fun h => ⟨hempty, h.symm⟩⟩
        · rw [runtimeActionLevel_of_level hempty, hrank]
          exact iff_of_false (fun h => hempty h.1) (by decide)
      · rw [if_neg hlimit, if_neg hlimit]
        by_cases hempty : trimSpace a.level = ""
        · exact iff_of_false (not_not.mpr hempty) (levelRank_of_severity hempty hlevel).1.ne
        · rw [runtimeActionLevel_of_level hempty, hrank]
          exact iff_of_true hempty rfl

end Ranks

section Agreement

variable {severities : Severities} {dec dec' : RuntimeDecision} {prop prop' : ActionProposal}

/-- The mapper makes a proposal of a decision. -/
def Mapped (severities : Severities) (dec : RuntimeDecision) (prop : ActionProposal) : Prop :=
  ∃ fallbackSubjectID fallbackTarget now,
    runtimeDecisionToActionProposalWithFallbackTarget severities dec fallbackSubjectID fallbackTarget now =
      .ok prop

def ActionProposal.leaseStrength (prop : ActionProposal) : Nat :=
  actionLeaseStrength prop.desiredAction prop.desiredLevel

def ActionProposal.brokeredStrength (prop : ActionProposal) : Nat :=
  brokeredSourceLeaseStrength prop.desiredAction prop.desiredLevel

def RuntimeDecision.precedence (dec : RuntimeDecision) : Nat :=
  runtimeActionPrecedence dec.action.toRuntimeActionSpec

/-- A decision ranked at or above another one has a lease that is no weaker. -/
def RankAgrees (dec : RuntimeDecision) (prop : ActionProposal) (dec' : RuntimeDecision)
    (prop' : ActionProposal) : Prop :=
  dec'.precedence ≤ dec.precedence →
    prop'.leaseStrength ≤ prop.leaseStrength ∧ prop'.brokeredStrength ≤ prop.brokeredStrength

theorem Mapped.level_ne (h : Mapped severities dec prop) :
    runtimeActionLevel severities dec.action.toRuntimeActionSpec ≠ "" ∧
      prop.leaseStrength = mappedStrength severities dec.action.toRuntimeActionSpec := by
  obtain ⟨fallbackSubjectID, fallbackTarget, now, h⟩ := h
  unfold runtimeDecisionToActionProposalWithFallbackTarget at h
  dsimp only at h
  split_ifs at h with heffect hlevel hcapability
  cases htarget : targetWithFallback dec fallbackSubjectID fallbackTarget with
  | error reason =>
    rw [htarget] at h
    cases h
  | ok target =>
    rw [htarget] at h
    obtain rfl := Except.ok.inj h
    exact ⟨hlevel, rfl⟩

/-- A decision of one level by an action that the ranks do not know. -/
def noteAt (level : String) : RuntimeDecision :=
  { effect := "apply", subjectID := "10.0.0.1", action := { capability := "note", level := level } }

def rankedLevels : List String := ["block", "hard", "soft", "note"]

/-- What the ranks and the mapper make of them. -/
theorem noteAt_facts :
    (∀ level ∈ rankedLevels, trimSpace level = level ∧ level ≠ "" ∧
      (targetWithFallback (noteAt level) "" none).toOption.isSome) ∧
    trimSpace "note" = "note" ∧ normalizeCapabilityID "note" = "note" ∧
    (noteAt "block").precedence = 300 ∧ (noteAt "hard").precedence = 200 ∧
    (noteAt "soft").precedence = 100 ∧ (noteAt "note").precedence = 0 := by
  decide +kernel

theorem noteAt_mapped {level : String} (h : level ∈ rankedLevels) : ∃ prop,
    Mapped severities (noteAt level) prop := by
  obtain ⟨hlevels, -, hnote, -⟩ := noteAt_facts
  obtain ⟨htrim, hne, htarget⟩ := hlevels level h
  have hlevel : trimSpace level ≠ "" := by rwa [htrim]
  have hcapability : normalizeCapabilityID "note" ≠ "" := by
    rw [hnote]
    decide
  have hset : runtimeActionLevel severities (noteAt level).action.toRuntimeActionSpec ≠ "" := by
    rw [runtimeActionLevel_of_level hlevel]
    exact hlevel
  cases hmap : runtimeDecisionToActionProposalWithFallbackTarget severities (noteAt level) "" none 0 with
  | ok prop => exact ⟨prop, "", none, 0, hmap⟩
  | error reason =>
    exfalso
    unfold runtimeDecisionToActionProposalWithFallbackTarget at hmap
    dsimp only at hmap
    rw [if_neg (by simp [noteAt]), if_neg hset, if_neg fun hnone => hcapability hnone.1] at hmap
    cases hok : targetWithFallback (noteAt level) "" none with
    | error reason =>
      rw [hok] at htarget
      cases htarget
    | ok target =>
      rw [hok] at hmap
      cases hmap

theorem noteAt_wellRanked {level : String} (h : level ∈ rankedLevels) :
    WellRanked severities (noteAt level).action.toRuntimeActionSpec := by
  obtain ⟨hlevels, hname, hnote, -⟩ := noteAt_facts
  obtain ⟨hlevel, hne, -⟩ := hlevels level h
  have hnormal : normalizeCapabilityID "note" ∉ denyingActions := by
    rw [hnote]
    decide
  have hlimit : "note" ≠ "enforce.traffic.rate_limit" := by decide
  show WellRanked severities { capability := "note", level := level }
  unfold WellRanked
  dsimp only
  rw [hlevel, hname, if_neg hnormal, if_neg hlimit]
  by_cases hblock : level = "block"
  · exact (if_pos hblock).mpr trivial
  · rw [if_neg hblock]
    by_cases hranked : level = "hard" ∨ level = "soft"
    · rw [if_pos hranked]
      exact hnormal
    · rw [if_neg hranked]
      exact hne

/-- Every rank is that of a decision whose rank and strength agree. -/
theorem exists_noteAt (a : RuntimeActionSpec) :
    ∃ level ∈ rankedLevels, (noteAt level).precedence = runtimeActionPrecedence a := by
  obtain ⟨-, -, -, hblock, hhard, hsoft, hnote⟩ := noteAt_facts
  have hranks : runtimeActionPrecedence a = 300 ∨ runtimeActionPrecedence a = 200 ∨
      runtimeActionPrecedence a = 100 ∨ runtimeActionPrecedence a = 0 := by
    rw [precedence_eq]
    unfold levelRank
    split_ifs <;> simp_all
  rcases hranks with h | h | h | h
  · exact ⟨"block", by decide, hblock.trans h.symm⟩
  · exact ⟨"hard", by decide, hhard.trans h.symm⟩
  · exact ⟨"soft", by decide, hsoft.trans h.symm⟩
  · exact ⟨"note", by decide, hnote.trans h.symm⟩

/-- Where the rank of a decision is the strength of its lease. -/
theorem Mapped.precedence_iff (h : Mapped severities dec prop) :
    WellRanked severities dec.action.toRuntimeActionSpec ↔ dec.precedence = prop.leaseStrength := by
  obtain ⟨hlevel, hstrength⟩ := h.level_ne
  rw [hstrength]
  exact wellRanked_iff hlevel

theorem ActionProposal.brokeredStrength_eq (prop : ActionProposal) :
    prop.brokeredStrength = prop.leaseStrength := rfl

/-- A decision agrees with every well-ranked decision, both ways, exactly if it is well-ranked. -/
theorem rank_agrees_iff (h : Mapped severities dec prop) :
    (∀ dec' prop', Mapped severities dec' prop' → WellRanked severities dec'.action.toRuntimeActionSpec →
      RankAgrees dec prop dec' prop' ∧ RankAgrees dec' prop' dec prop) ↔
      WellRanked severities dec.action.toRuntimeActionSpec := by
  constructor
  · intro hall
    obtain ⟨level, hlevel, hrank⟩ := exists_noteAt dec.action.toRuntimeActionSpec
    obtain ⟨note, hnote⟩ : ∃ note, Mapped severities (noteAt level) note := noteAt_mapped hlevel
    have hwell : WellRanked severities (noteAt level).action.toRuntimeActionSpec := noteAt_wellRanked hlevel
    obtain ⟨hbeats, hbeaten⟩ := hall _ note hnote hwell
    have hstrength : dec.precedence = note.leaseStrength := hrank.symm.trans (hnote.precedence_iff.mp hwell)
    have hle : note.leaseStrength ≤ prop.leaseStrength := (hbeats hrank.le).1
    have hge : prop.leaseStrength ≤ note.leaseStrength := (hbeaten hrank.ge).1
    exact h.precedence_iff.mpr (hstrength.trans (hle.antisymm hge))
  · intro hwell dec' prop' h' hwell'
    have hrank : dec.precedence = prop.leaseStrength := h.precedence_iff.mp hwell
    have hrank' : dec'.precedence = prop'.leaseStrength := h'.precedence_iff.mp hwell'
    constructor
    · intro hle
      rw [hrank, hrank'] at hle
      exact ⟨hle, hle⟩
    · intro hle
      rw [hrank, hrank'] at hle
      exact ⟨hle, hle⟩

/-- A hard limit of the rate. -/
def hardLimitDecision : RuntimeDecision :=
  { effect := "apply", subjectID := "10.0.0.1"
    action := { capability := "enforce.traffic.rate_limit", level := "hard" } }

/-- A drop that its rule calls soft. -/
def softDrop : RuntimeDecision :=
  { effect := "apply", subjectID := "10.0.0.1"
    action := { capability := "enforce.traffic.drop", level := "soft" } }

def noSeverities : Severities := fun _ => none

theorem mapped_of_isSome
    (h : (runtimeDecisionToActionProposalWithFallbackTarget noSeverities dec "" none 0).toOption.isSome) :
    ∃ prop, Mapped noSeverities dec prop := by
  cases hmap : runtimeDecisionToActionProposalWithFallbackTarget noSeverities dec "" none 0 with
  | ok prop => exact ⟨prop, "", none, 0, hmap⟩
  | error reason =>
    rw [hmap] at h
    cases h

/-- Both decisions are mapped; the hard limit is ranked as it is leased, at or above the soft drop, and
its lease is the weaker one. -/
theorem limit_and_drop :
    (runtimeDecisionToActionProposalWithFallbackTarget noSeverities hardLimitDecision "" none 0).toOption.isSome ∧
    (runtimeDecisionToActionProposalWithFallbackTarget noSeverities softDrop "" none 0).toOption.isSome ∧
    runtimeActionPrecedence hardLimitDecision.action.toRuntimeActionSpec =
      mappedStrength noSeverities hardLimitDecision.action.toRuntimeActionSpec ∧
    runtimeActionLevel noSeverities hardLimitDecision.action.toRuntimeActionSpec ≠ "" ∧
    softDrop.precedence ≤ hardLimitDecision.precedence ∧
    mappedStrength noSeverities hardLimitDecision.action.toRuntimeActionSpec <
      mappedStrength noSeverities softDrop.action.toRuntimeActionSpec := by
  decide +kernel

theorem hardLimit_wellRanked : WellRanked noSeverities hardLimitDecision.action.toRuntimeActionSpec := by
  obtain ⟨-, -, hstrength, hlevel, -⟩ := limit_and_drop
  exact (wellRanked_iff hlevel).mpr hstrength

/-- A hard limit is ranked and as strong as a decision at level `hard`. -/
theorem hardLimit_agrees : ∃ prop prop', RankAgrees hardLimitDecision prop (noteAt "hard") prop' ∧
    RankAgrees (noteAt "hard") prop' hardLimitDecision prop := by
  obtain ⟨prop, hlimit⟩ : ∃ prop, Mapped noSeverities hardLimitDecision prop :=
    mapped_of_isSome limit_and_drop.1
  obtain ⟨prop', hnote⟩ : ∃ prop, Mapped noSeverities (noteAt "hard") prop := noteAt_mapped (by decide)
  exact ⟨prop, prop', (rank_agrees_iff hlimit).mpr hardLimit_wellRanked _ prop' hnote
    (noteAt_wellRanked (by decide))⟩

/-- The hard limit is preferred to the soft drop, whose lease is stronger. -/
theorem softDrop_stronger : ¬ ∀ (severities : Severities) (dec dec' : RuntimeDecision)
    (prop prop' : ActionProposal),
    Mapped severities dec prop → Mapped severities dec' prop' → RankAgrees dec prop dec' prop' := by
  intro hall
  obtain ⟨prop, hlimit⟩ : ∃ prop, Mapped noSeverities hardLimitDecision prop :=
    mapped_of_isSome limit_and_drop.1
  obtain ⟨prop', hdrop⟩ : ∃ prop, Mapped noSeverities softDrop prop := mapped_of_isSome limit_and_drop.2.1
  obtain ⟨-, -, -, -, hranks, hstronger⟩ := limit_and_drop
  have hweaker : prop'.leaseStrength ≤ prop.leaseStrength := (hall _ _ _ _ _ hlimit hdrop hranks).1
  rw [hlimit.level_ne.2, hdrop.level_ne.2] at hweaker
  exact absurd hweaker hstronger.not_ge

end Agreement

end Kernloom
