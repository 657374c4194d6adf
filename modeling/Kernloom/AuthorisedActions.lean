import Kernloom.LeaseMetadata
import Kernloom.PolicyResolver

/-! What the gate authorises, ranked by what the enforcement does with it: when it stays below the
ceiling of the policy, and that no guardrail forbids it. -/

namespace Kernloom

/-- The strength of an FSM level, on the scale of the leases. -/
def Level.strength : Level → Nat
  | observe => 0
  | soft => 100
  | hard => 200
  | block => 300

/-- What is enforced for an action at a level: the broker ranks the lease, the executor sets the
FSM level. -/
def enforcedStrength (action level : String) : Nat :=
  max (actionLeaseStrength action level) (parseFSMLevel level).strength

namespace PolicyResolver

variable {r : PolicyResolver} {p : ActionProposal}

section Ceiling

def ceilingStrength (maxAction : String) : Nat :=
  if maxAction = "observe" then 0
  else if maxAction = "rate_limit" then 100
  else if maxAction = "rate_limit_hard" then 200
  else 300

/-- The proposed level is one that the ceiling lowers. -/
def Lowers (r : PolicyResolver) (level : String) : Prop :=
  (r.policyMaxAction = "rate_limit" ∧ (level = "block" ∨ level = "hard")) ∨
    (r.policyMaxAction = "rate_limit_hard" ∧ level = "block")

instance (r : PolicyResolver) (level : String) : Decidable (r.Lowers level) :=
  inferInstanceAs (Decidable (_ ∨ _))

/-- What is authorised is not stronger than the ceiling. -/
def WithinCeiling (r : PolicyResolver) (p : ActionProposal) : Prop :=
  (r.resolve p).allowed = true →
    enforcedStrength (r.resolve p).executableAction (r.resolve p).executableLevel ≤
      ceilingStrength r.policyMaxAction

instance (r : PolicyResolver) (p : ActionProposal) : Decidable (r.WithinCeiling p) :=
  inferInstanceAs (Decidable (_ → _))

theorem resolve_observe (hmode : r.mode = "managed") (hpack : r.hasPolicyPack = true)
    (hmax : r.policyMaxAction = "observe") :
    (r.resolve p).executableAction = "" ∧ (r.resolve p).executableLevel = "observe" := by
  simp [resolve, hmode, hpack, hmax]

/-- Below the fail-safe gates a proposal is denied, or authorised as the ceiling left it. -/
theorem resolve_cases (hmode : r.mode = "managed") (hpack : r.hasPolicyPack = true)
    (hmax : r.policyMaxAction ≠ "observe") :
    ((∃ reason, r.denyReason p (r.capped p).1 (r.capped p).2.1 = some reason) ∧
      (r.resolve p).allowed = false ∧ (r.resolve p).executableAction = "" ∧
      (r.resolve p).executableLevel = "observe") ∨
    (r.denyReason p (r.capped p).1 (r.capped p).2.1 = none ∧ (r.resolve p).allowed = true ∧
      (r.resolve p).executableAction = (r.capped p).1 ∧
      (r.resolve p).executableLevel = (r.capped p).2.1) := by
  unfold resolve
  simp only [hmode, hpack, hmax, ne_eq, not_true_eq_false, if_false]
  cases hdeny : r.denyReason p (r.capped p).1 (r.capped p).2.1 with
  | some reason => exact .inl ⟨⟨reason, rfl⟩, rfl, rfl, rfl⟩
  | none => exact .inr ⟨rfl, rfl, rfl, rfl⟩

/-- A rate limit is as strong as the ceiling that lowers to it, and nothing at observe is enforced. -/
theorem ceiling_strengths :
    enforcedStrength "enforce.traffic.rate_limit" "soft" = ceilingStrength "rate_limit" ∧
    enforcedStrength "enforce.traffic.rate_limit" "hard" = ceilingStrength "rate_limit_hard" ∧
    enforcedStrength "" "observe" ≤ ceilingStrength "observe" := by
  decide +kernel

theorem capped_lowers (h : r.Lowers p.desiredLevel) :
    enforcedStrength (r.capped p).1 (r.capped p).2.1 = ceilingStrength r.policyMaxAction := by
  rcases h with ⟨hmax, hlevel⟩ | ⟨hmax, hlevel⟩
  · have hcapped : r.capped p = ("enforce.traffic.rate_limit", "soft", "policy_max_action_ceiling") := by
      simp [capped, hmax, hlevel]
    rw [hcapped, hmax]
    exact ceiling_strengths.1
  · have hcapped : r.capped p = ("enforce.traffic.rate_limit", "hard", "policy_max_action_ceiling") := by
      simp [capped, hmax, hlevel]
    rw [hcapped, hmax]
    exact ceiling_strengths.2.1

theorem capped_keeps (h : ¬ r.Lowers p.desiredLevel) :
    r.capped p = (p.desiredAction, p.desiredLevel, "") := by
  rw [Lowers, not_or] at h
  simp only [capped, if_neg h.1, if_neg h.2]

/-- A managed node with a pack stays within its ceiling exactly when the ceiling lets nothing through
or lowers the proposed level, what is proposed is no stronger, or another check denies it. -/
theorem within_ceiling_iff (hmode : r.mode = "managed") (hpack : r.hasPolicyPack = true) :
    r.WithinCeiling p ↔ r.policyMaxAction = "observe" ∨ r.Lowers p.desiredLevel ∨
      enforcedStrength p.desiredAction p.desiredLevel ≤ ceilingStrength r.policyMaxAction ∨
      (r.denyReason p p.desiredAction p.desiredLevel).isSome = true := by
  by_cases hmax : r.policyMaxAction = "observe"
  · obtain ⟨haction, hlevel⟩ := resolve_observe (p := p) hmode hpack hmax
    refine iff_of_true (fun _ => ?_) (.inl hmax)
    rw [haction, hlevel, hmax]
    exact ceiling_strengths.2.2
  by_cases hlowers : r.Lowers p.desiredLevel
  · refine iff_of_true (fun hallowed => ?_) (.inr (.inl hlowers))
    rcases resolve_cases (p := p) hmode hpack hmax with ⟨-, hdenied, -⟩ | ⟨-, -, haction, hlevel⟩
    · rw [hdenied] at hallowed
      exact absurd hallowed (by simp)
    · rw [haction, hlevel, capped_lowers hlowers]
  · have hcapped := capped_keeps hlowers
    simp only [hmax, hlowers, false_or]
    rcases resolve_cases (p := p) hmode hpack hmax with ⟨⟨reason, hdeny⟩, hdenied, -⟩ | ⟨hdeny, hallowed, ha, hl⟩
    · rw [hcapped] at hdeny
      refine iff_of_true (fun hallowed => ?_) (.inr (by simp [hdeny]))
      rw [hdenied] at hallowed
      exact absurd hallowed (by simp)
    · rw [hcapped] at hdeny ha hl
      simp only [WithinCeiling, hallowed, ha, hl, hdeny, forall_const, Option.isSome_none,
        Bool.false_eq_true, or_false]

/-- A drop at the level of a soft rate limit. -/
def softDrop : ActionProposal :=
  { desiredAction := "enforce.traffic.drop", desiredLevel := "soft"
    target := { granularity := "source", value := "10.0.0.1" }, ttl := 60 * Duration.second }

def rateLimitOnly : PolicyResolver :=
  { mode := "managed", hasPolicyPack := true, policyMaxAction := "rate_limit" }

theorem hard_drop_within_ceiling : rateLimitOnly.WithinCeiling { softDrop with desiredLevel := "hard" } :=
  (within_ceiling_iff rfl rfl).mpr (.inr (.inl (.inl ⟨rfl, .inr rfl⟩)))

theorem soft_drop_above_ceiling : ¬ ∀ (r : PolicyResolver) (p : ActionProposal),
    r.mode = "managed" → r.hasPolicyPack = true → r.WithinCeiling p := by
  intro h
  have hwithin := h rateLimitOnly softDrop rfl rfl
  exact absurd hwithin (by decide +kernel)

end Ceiling

section Guardrails

/-- The guardrail forbids the action on the target, or rejects it because the match is unknown. -/
def Rejects (g : RuntimeGuardrail) (action level : String) (target : ActionTarget) : Prop :=
  trimSpace g.type = "never" ∧ g.forbiddenActions.any (guardrailActionMatches · action level) = true ∧
    ((guardrailSubjectMatch g.subject target).1 = true ∨
      ((guardrailSubjectMatch g.subject target).2 = true ∧
        guardrailUnknownRejectsHardAction g action level = true))

instance (g : RuntimeGuardrail) (action level : String) (target : ActionTarget) :
    Decidable (Rejects g action level target) :=
  inferInstanceAs (Decidable (_ ∧ _ ∧ (_ ∨ (_ ∧ _))))

theorem guardrailVerdict_eq_none {g : RuntimeGuardrail} {action level : String} {target : ActionTarget} :
    guardrailVerdict action level target g = none ↔ ¬ Rejects g action level target := by
  rw [guardrailVerdict, Rejects]
  by_cases hskip : trimSpace g.type ≠ "never" ∨
      ¬ g.forbiddenActions.any (guardrailActionMatches · action level) = true
  · rw [if_pos hskip]
    refine iff_of_true rfl fun h => ?_
    rcases hskip with htype | hforbids
    · exact htype h.1
    · exact hforbids h.2.1
  · rw [if_neg hskip]
    rw [not_or, not_not, not_not] at hskip
    by_cases hmatched : (guardrailSubjectMatch g.subject target).1 = true
    · simp [hmatched, hskip.1, hskip.2]
    · by_cases hunknown : (guardrailSubjectMatch g.subject target).2 = true ∧
        guardrailUnknownRejectsHardAction g action level = true
      · simp [hmatched, hunknown, hskip.1, hskip.2]
      · simp only [hmatched, hunknown, if_false, Bool.false_eq_true, or_self, and_false, not_false_eq_true]

theorem guardrailDenyReason_eq_none {action level : String} {target : ActionTarget} :
    r.guardrailDenyReason action level target = none ↔
      action = "" ∨ level = "observe" ∨ ∀ g ∈ r.runtimeGuardrails, ¬ Rejects g action level target := by
  rw [guardrailDenyReason]
  by_cases hskip : action = "" ∨ level = "observe"
  · rw [if_pos hskip]
    exact iff_of_true rfl (or_assoc.mp (.inl hskip))
  · rw [if_neg hskip, List.findSome?_eq_none_iff]
    rw [not_or] at hskip
    simp only [hskip.1, hskip.2, false_or, guardrailVerdict_eq_none]

/-- The checks deny the same proposals whatever the order of the guardrails. -/
theorem denyReason_perm {gs : List RuntimeGuardrail} (hperm : gs.Perm r.runtimeGuardrails)
    (action level : String) :
    ({ r with runtimeGuardrails := gs }.denyReason p action level).isSome =
      (r.denyReason p action level).isSome := by
  have hguardrails : ({ r with runtimeGuardrails := gs }.guardrailDenyReason action level p.target).isSome =
      (r.guardrailDenyReason action level p.target).isSome := by
    rw [Bool.eq_iff_iff, Option.isSome_iff_ne_none, Option.isSome_iff_ne_none, not_iff_not,
      guardrailDenyReason_eq_none, guardrailDenyReason_eq_none]
    simp only [hperm.mem_iff]
  have hcapability : { r with runtimeGuardrails := gs }.capabilityDenyReason action =
      r.capabilityDenyReason action := rfl
  have hautonomy : { r with runtimeGuardrails := gs }.autonomyDenyReason action p =
      r.autonomyDenyReason action p := rfl
  simp only [denyReason, Option.isSome_or, hcapability, hguardrails, hautonomy]

theorem resolve_target : (r.resolve p).target = p.target := by
  unfold resolve
  split_ifs <;> try rfl
  dsimp only
  split <;> rfl

theorem resolve_unmanaged_pack (hmode : r.mode = "managed") (hpack : r.hasPolicyPack = false) :
    (r.resolve p).allowed = true ∧ (r.resolve p).executableAction = "" ∧
      (r.resolve p).executableLevel = "observe" := by
  simp [resolve, hmode, hpack]

/-- What a resolution lets the executor do. -/
def executable (r : PolicyResolver) (p : ActionProposal) : Bool × String × String :=
  ((r.resolve p).allowed, (r.resolve p).executableAction, (r.resolve p).executableLevel)

theorem executable_eq (hmode : r.mode = "managed") (hpack : r.hasPolicyPack = true)
    (hmax : r.policyMaxAction ≠ "observe") :
    r.executable p = if (r.denyReason p (r.capped p).1 (r.capped p).2.1).isSome = true
      then (false, "", "observe") else (true, (r.capped p).1, (r.capped p).2.1) := by
  rcases resolve_cases (p := p) hmode hpack hmax with ⟨⟨reason, hdeny⟩, h⟩ | ⟨hdeny, h⟩
  · simp [executable, hdeny, h]
  · simp [executable, hdeny, h]

theorem executable_perm {gs : List RuntimeGuardrail} (hmode : r.mode = "managed")
    (hperm : gs.Perm r.runtimeGuardrails) :
    { r with runtimeGuardrails := gs }.executable p = r.executable p := by
  by_cases hpack : r.hasPolicyPack = true
  · by_cases hmax : r.policyMaxAction = "observe"
    · simp [executable, resolve, hmode, hpack, hmax]
    · have hcapped : { r with runtimeGuardrails := gs }.capped p = r.capped p := rfl
      rw [executable_eq hmode hpack hmax, executable_eq (r := { r with runtimeGuardrails := gs }) hmode hpack hmax,
        hcapped, denyReason_perm hperm]
  · simp [executable, resolve, hmode, hpack]

/-- What a managed node authorises with an action passes every guardrail, a denial leaves nothing to
execute, and neither depends on the order of the guardrails. -/
theorem guardrails_kept (hmode : r.mode = "managed") :
    ((r.resolve p).allowed = true → (r.resolve p).executableAction ≠ "" →
      (r.resolve p).executableLevel ≠ "observe" → ∀ g ∈ r.runtimeGuardrails,
        ¬ Rejects g (r.resolve p).executableAction (r.resolve p).executableLevel (r.resolve p).target) ∧
    ((r.resolve p).allowed = false →
      (r.resolve p).executableAction = "" ∧ (r.resolve p).executableLevel = "observe") ∧
    ∀ gs : List RuntimeGuardrail, gs.Perm r.runtimeGuardrails →
      { r with runtimeGuardrails := gs }.executable p = r.executable p := by
  refine ⟨?_, ?_, fun gs => executable_perm hmode⟩
  · intro _ haction hlevel
    by_cases hpack : r.hasPolicyPack = true
    · by_cases hmax : r.policyMaxAction = "observe"
      · exact absurd (resolve_observe hmode hpack hmax).1 haction
      rcases resolve_cases (p := p) hmode hpack hmax with ⟨-, -, hnone, -⟩ | ⟨hdeny, -, ha, hl⟩
      · exact absurd hnone haction
      rw [ha] at haction
      rw [hl] at hlevel
      rw [ha, hl, resolve_target]
      simp only [denyReason, Option.or_eq_none_iff] at hdeny
      rcases guardrailDenyReason_eq_none.mp hdeny.1.1.2 with h | h | h
      · exact absurd h haction
      · exact absurd h hlevel
      · exact h
    · exact absurd (resolve_unmanaged_pack hmode (Bool.eq_false_iff.mpr hpack)).2.1 haction
  · intro hdenied
    by_cases hpack : r.hasPolicyPack = true
    · by_cases hmax : r.policyMaxAction = "observe"
      · exact resolve_observe hmode hpack hmax
      rcases resolve_cases (p := p) hmode hpack hmax with ⟨-, -, h⟩ | ⟨-, hallowed, -⟩
      · exact h
      · rw [hallowed] at hdenied
        exact absurd hdenied (by simp)
    · exact (resolve_unmanaged_pack hmode (Bool.eq_false_iff.mpr hpack)).2

/-- Administrators are never blocked automatically. -/
def protectAdmins : RuntimeGuardrail :=
  { id := "protect-admins", type := "never", forbiddenActions := ["auto_block"]
    subject := { type := "group", ref := "admins" } }

def guardedResolver : PolicyResolver :=
  { mode := "managed", hasPolicyPack := true, runtimeGuardrails := [protectAdmins] }

def limitUser : ActionProposal :=
  { desiredAction := "enforce.traffic.rate_limit", desiredLevel := "soft", ttl := 60 * Duration.second
    target := { granularity := "source", value := "10.0.0.1", attributes := GoMap.ofList [("group", "staff")] } }

theorem user_limited : (guardedResolver.resolve limitUser).allowed = true ∧
    ¬ Rejects protectAdmins "enforce.traffic.rate_limit" "soft" limitUser.target := by
  have hallowed : guardedResolver.executable limitUser = (true, "enforce.traffic.rate_limit", "soft") := by
    decide +kernel
  obtain ⟨h, ha, hl⟩ := by simpa [executable] using hallowed
  have hkept := (guardrails_kept (r := guardedResolver) (p := limitUser) rfl).1 h (by rw [ha]; decide)
    (by rw [hl]; decide) protectAdmins (by simp [guardedResolver])
  rw [ha, hl, resolve_target] at hkept
  exact ⟨h, hkept⟩

/-- A block of an administrator that names no action is authorised. -/
theorem block_without_action : ¬ ∀ (r : PolicyResolver) (p : ActionProposal), r.mode = "managed" →
    (r.resolve p).allowed = true → (r.resolve p).executableLevel ≠ "observe" → ∀ g ∈ r.runtimeGuardrails,
      ¬ Rejects g (r.resolve p).executableAction (r.resolve p).executableLevel (r.resolve p).target := by
  intro h
  have hkept := h guardedResolver { limitUser with
    desiredAction := "", desiredLevel := "block"
    target := { granularity := "source", value := "10.0.0.1", attributes := GoMap.ofList [("group", "admins")] } }
    rfl (by decide +kernel) (by decide +kernel) protectAdmins (by simp [guardedResolver])
  exact absurd hkept (by decide +kernel)

end Guardrails

end PolicyResolver

end Kernloom
