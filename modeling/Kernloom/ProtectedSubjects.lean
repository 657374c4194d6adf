import Kernloom.AuthorisedActions
import Kernloom.TargetCodec

/-! Protected subjects. One protection can be written as a guardrail of the pack, which is typed, or as an
exclusion in the blast radius of an action, which is read from an untyped map of parameters. -/

namespace Kernloom

section Parameters

/-- The encodings of a list of exclusions. An item of `[]any` that is no map is skipped. -/
inductive ExcludeList where
  | strings (items : List (GoMap String))
  | anys (items : List (GoMap ParamValue))
  | mixed (items : List (Option (GoMap ParamValue)))
  | other

def anySubject (item : GoMap ParamValue) : RuntimeGuardrailSubject :=
  ⟨(item.get "type").sprint, (item.get "ref").sprint⟩

/-- The subjects of a list, before they are trimmed. -/
def ExcludeList.subjects : ExcludeList → List RuntimeGuardrailSubject
  | .strings items => items.map fun item => ⟨item.get "type", item.get "ref"⟩
  | .anys items => items.map anySubject
  | .mixed items => items.filterMap fun item => item.map anySubject
  | .other => []

/-- What the parameters hold under `blast_radius`. -/
inductive BlastRadiusParam where
  | map (unknownBehavior : ParamValue) (excludes : ExcludeList)
  | other

def BlastRadiusParam.read : BlastRadiusParam → Option BlastRadius
  | .map unknownBehavior excludes =>
    some { unknownBehavior := unknownBehavior.sprint, excludes := excludes.subjects }
  | .other => none

end Parameters

section Knowledge

def typeKeys : List String := ["subject_type", "subject.type", "subjectType"]

def refKeys : List String := ["subject_ref", "subject.ref", "subjectRef"]

def groupKeys : List String := ["subject.groups", "subject_groups", "subjectGroups", "group"]

variable (t : ActionTarget) (s : RuntimeGuardrailSubject)

/-- Some spelling of the attributes shows that the target is the subject, or a member of the group. -/
def Shows : Prop :=
  ((∃ key ∈ typeKeys, trimSpace (t.attributes.get key) = s.type) ∧
    ∃ key ∈ refKeys, trimSpace (t.attributes.get key) = s.ref) ∨
  (s.type = "group" ∧ ∃ key ∈ groupKeys, listContains (trimSpace (t.attributes.get key)) s.ref = true)

/-- The value of the target names the subject. -/
def ValueNames : Prop := t.granularity = "subject" ∧ (t.value = s.ref ∨ t.value = s.type ++ ":" ++ s.ref)

/-- The attributes name a subject of the target's own. -/
def NamesSubject : Prop := firstAttr t.attributes typeKeys ≠ "" ∨ firstAttr t.attributes refKeys ≠ ""

/-- The first spelling that is filled in shows the subject; groups count where no subject is named. -/
def ShowsFirst : Prop :=
  ValueNames t s ∨
    (NamesSubject t ∧ firstAttr t.attributes typeKeys = s.type ∧ firstAttr t.attributes refKeys = s.ref) ∨
    (¬ NamesSubject t ∧ s.type = "group" ∧ listContains (firstAttr t.attributes groupKeys) s.ref = true)

def NothingKnown : Prop :=
  ¬ ValueNames t s ∧ ¬ NamesSubject t ∧ (s.type = "group" → firstAttr t.attributes groupKeys = "")

instance : Decidable (ValueNames t s) := inferInstanceAs (Decidable (_ ∧ _))

instance : Decidable (NamesSubject t) := inferInstanceAs (Decidable (_ ∨ _))

instance : Decidable (ShowsFirst t s) := inferInstanceAs (Decidable (_ ∨ _ ∨ _))

instance : Decidable (NothingKnown t s) := inferInstanceAs (Decidable (_ ∧ _ ∧ _))

end Knowledge

section Matching

variable {t : ActionTarget} {s : RuntimeGuardrailSubject} {attrs : GoMap String} {keys : List String}

theorem firstAttr_ne_empty : firstAttr attrs keys ≠ "" ↔ ∃ key ∈ keys, trimSpace (attrs.get key) ≠ "" := by
  unfold firstAttr
  cases hfind : (keys.map fun key => trimSpace (attrs.get key)).find? (· ≠ "") with
  | none =>
    have hall := List.find?_eq_none.mp hfind
    simp only [List.mem_map, forall_exists_index, and_imp, forall_apply_eq_imp_iff₂] at hall
    refine iff_of_false (by simp) ?_
    rintro ⟨key, hkey, hne⟩
    exact hall key hkey (by simpa using hne)
  | some v =>
    have hmem := List.mem_of_find?_eq_some hfind
    have hne : v ≠ "" := by simpa using List.find?_some hfind
    obtain ⟨key, hkey, rfl⟩ := List.mem_map.mp hmem
    exact iff_of_true hne ⟨key, hkey, hne⟩

theorem listContains_empty (want : String) : listContains "" want = false := by
  rw [listContains, fieldsFunc_empty]
  rfl

theorem guardrailSubjectMatch_eq (htype : s.type ≠ "") (href : s.ref ≠ "") :
    guardrailSubjectMatch s t =
      if ValueNames t s then (true, false)
      else if NamesSubject t then
        (firstAttr t.attributes typeKeys = s.type ∧ firstAttr t.attributes refKeys = s.ref, false)
      else if s.type = "group" ∧ firstAttr t.attributes groupKeys ≠ "" then
        (listContains (firstAttr t.attributes groupKeys) s.ref, false)
      else (false, true) := by
  rw [guardrailSubjectMatch, if_neg (not_or.mpr ⟨htype, href⟩)]
  rfl

theorem match_fst (htype : s.type ≠ "") (href : s.ref ≠ "") :
    (guardrailSubjectMatch s t).1 = true ↔ ShowsFirst t s := by
  rw [guardrailSubjectMatch_eq htype href]
  by_cases hnamed : ValueNames t s
  · simp [ShowsFirst, hnamed]
  by_cases hnames : NamesSubject t
  · simp [ShowsFirst, hnamed, hnames]
  by_cases hgroups : s.type = "group" ∧ firstAttr t.attributes groupKeys ≠ ""
  · simp [ShowsFirst, hnamed, hnames, hgroups]
  · have hblank : s.type = "group" → listContains (firstAttr t.attributes groupKeys) s.ref = false := by
      intro hgroup
      rw [not_not.mp (not_and.mp hgroups hgroup), listContains_empty]
    simpa [ShowsFirst, hnamed, hnames, hgroups] using hblank

theorem match_snd (htype : s.type ≠ "") (href : s.ref ≠ "") :
    (guardrailSubjectMatch s t).2 = true ↔ NothingKnown t s := by
  rw [guardrailSubjectMatch_eq htype href]
  by_cases hnamed : ValueNames t s
  · simp [NothingKnown, hnamed]
  by_cases hnames : NamesSubject t
  · simp [NothingKnown, hnamed, hnames]
  by_cases hgroups : s.type = "group" ∧ firstAttr t.attributes groupKeys ≠ ""
  · simp [NothingKnown, hnamed, hnames, hgroups]
  · have hblank : s.type = "group" → firstAttr t.attributes groupKeys = "" :=
      fun hgroup => not_not.mp (not_and.mp hgroups hgroup)
    simpa [NothingKnown, hnamed, hnames, hgroups] using hblank

theorem not_nothingKnown_of_shows (htype : s.type ≠ "") (h : Shows t s) : ¬ NothingKnown t s := by
  rintro ⟨-, hnames, hgroups⟩
  rw [NamesSubject, not_or, not_not] at hnames
  rcases h with ⟨⟨key, hkey, heq⟩, -⟩ | ⟨hgroup, key, hkey, hcontains⟩
  · exact firstAttr_ne_empty.mpr ⟨key, hkey, heq ▸ htype⟩ hnames.1
  · refine firstAttr_ne_empty.mpr ⟨key, hkey, fun hblank => ?_⟩ (hgroups hgroup)
    rw [hblank, listContains_empty] at hcontains
    cases hcontains

theorem not_nothingKnown_of_showsFirst (h : ShowsFirst t s) : ¬ NothingKnown t s := by
  rintro ⟨hnamed, hnames, hgroups⟩
  rcases h with h | ⟨h, -⟩ | ⟨-, hgroup, hcontains⟩
  · exact hnamed h
  · exact hnames h
  · rw [hgroups hgroup, listContains_empty] at hcontains
    cases hcontains

end Matching

section Protections

def trimSubject (s : RuntimeGuardrailSubject) : RuntimeGuardrailSubject := ⟨trimSpace s.type, trimSpace s.ref⟩

/-- A protection of a subject: the actions it forbids, and what is to happen where nothing is known. The subject
has a type and a reference, without blanks around them. -/
structure Protection where
  subject : RuntimeGuardrailSubject
  forbiddenActions : List String
  unknownBehavior : Option String
  type_ne : subject.type ≠ ""
  ref_ne : subject.ref ≠ ""
  trimmed : trimSubject subject = subject

/-- What a text for the unknown behaviour says, up to blanks, case and dashes. -/
def saidBehavior (text : Option String) : String :=
  let text := trimSpace (text.getD "")
  if text = "" then "reject_hard_action" else replaceRune (toLower text) '-' '_'

namespace Protection

variable (x : Protection) (t : ActionTarget) (action level : String)

def IsGuardrail (g : RuntimeGuardrail) : Prop :=
  trimSpace g.type = "never" ∧ g.subject = x.subject ∧ g.forbiddenActions = x.forbiddenActions ∧
    g.unknownBehavior = x.unknownBehavior.getD ""

def Forbids : Prop := x.forbiddenActions.any (guardrailActionMatches · action level) = true

/-- The value under `unknown_behavior`, which may be absent. -/
def behaviorParam : ParamValue := (x.unknownBehavior.map .string).getD .nil

/-- The parameters hold the protection among the exclusions. -/
def IsExclusion (p : ActionProposal) : Prop :=
  ∃ excludes : ExcludeList, p.blastRadius = (BlastRadiusParam.map x.behaviorParam excludes).read ∧
    ∃ s ∈ excludes.subjects, trimSubject s = x.subject

/-- The protection rejects the action where nothing is known. -/
def Rejects : Prop :=
  saidBehavior x.unknownBehavior = "reject_action" ∨
    saidBehavior x.unknownBehavior = "reject_hard_action" ∧ isHardRuntimeAction action level = true

/-- The behaviour is absent, or written as the guardrails read it. -/
def Verbatim : Prop := x.unknownBehavior.getD "" ∈ ["", "reject_hard_action", "reject_action"]

instance : Decidable (x.Forbids action level) := inferInstanceAs (Decidable (_ = _))

instance : Decidable (x.Rejects action level) := inferInstanceAs (Decidable (_ ∨ _ ∧ _))

instance : Decidable x.Verbatim := inferInstanceAs (Decidable (_ ∈ _))

end Protection

/-- A managed resolver whose ceiling lets every action through. -/
def Uncapped (r : PolicyResolver) : Prop :=
  r.mode = "managed" ∧ r.policyMaxAction ∉ ["observe", "rate_limit", "rate_limit_hard"]

def Proposes (p : ActionProposal) (action level : String) (t : ActionTarget) : Prop :=
  p.desiredAction = action ∧ p.desiredLevel = level ∧ p.target = t

/-- An action is authorised; a resolution without an action, or at observe, authorises none. -/
def Allows (r : PolicyResolver) (p : ActionProposal) : Prop :=
  (r.resolve p).allowed = true ∧ (r.resolve p).executableAction ≠ "" ∧ (r.resolve p).executableLevel ≠ "observe"

def Enforces (action level : String) : Prop := action ≠ "" ∧ level ≠ "observe"

/-- The protection fails closed for an action on a target, as a guardrail and as an exclusion. -/
structure FailsClosed (x : Protection) (t : ActionTarget) (action level : String) : Prop where
  guardrail_shown : Shows t x.subject → x.Forbids action level →
    ∀ r g p, Uncapped r → g ∈ r.runtimeGuardrails → x.IsGuardrail g → Proposes p action level t → ¬ Allows r p
  exclusion_shown : Shows t x.subject →
    ∀ r p, Uncapped r → x.IsExclusion p → Proposes p action level t → ¬ Allows r p
  guardrail_unknown : NothingKnown t x.subject → isHardRuntimeAction action level = true →
    saidBehavior x.unknownBehavior ∈ ["reject_hard_action", "reject_action"] → x.Forbids action level →
    ∀ r g p, Uncapped r → g ∈ r.runtimeGuardrails → x.IsGuardrail g → Proposes p action level t → ¬ Allows r p
  exclusion_unknown : NothingKnown t x.subject → isHardRuntimeAction action level = true →
    saidBehavior x.unknownBehavior ∈ ["reject_hard_action", "reject_action"] →
    ∀ r p, Uncapped r → x.IsExclusion p → Proposes p action level t → ¬ Allows r p
  /-- Alone, the guardrail and the exclusion let the same actions through. -/
  same : x.Forbids action level → ∀ r g p excludes, Uncapped r → x.IsGuardrail g →
    Proposes p action level t → excludes.subjects.map trimSubject = [x.subject] →
    trimSpace (p.parameters.get "requires_target_excludes_group").sprint ∈ ["", "<nil>"] →
      (Allows { r with runtimeGuardrails := [g] } { p with blastRadius := none } ↔
        Allows { r with runtimeGuardrails := [] }
          { p with blastRadius := (BlastRadiusParam.map x.behaviorParam excludes).read })

/-- When a protection fails closed. -/
structure Holds (x : Protection) (t : ActionTarget) (action level : String) : Prop where
  shown : Shows t x.subject → ShowsFirst t x.subject
  unknown : NothingKnown t x.subject → x.Rejects action level →
    x.unknownBehavior ≠ none ∧ (x.Forbids action level → x.Verbatim)

end Protections

section Denials

variable {r : PolicyResolver} {p : ActionProposal} {x : Protection} {g : RuntimeGuardrail}
  {t : ActionTarget} {action level : String} {excludes : ExcludeList}

theorem allows_iff (hr : Uncapped r) (hp : Proposes p action level t) :
    Allows r p ↔ (r.hasPolicyPack = true ∧ Enforces action level) ∧
      r.capabilityDenyReason action = none ∧ r.guardrailDenyReason action level t = none ∧
      actionBlastRadiusDenyReason p action level = none ∧ r.autonomyDenyReason action p = none := by
  obtain ⟨hmode, hmax⟩ := hr
  obtain ⟨rfl, rfl, rfl⟩ := hp
  by_cases hpack : r.hasPolicyPack = true
  swap
  · refine iff_of_false (fun h => ?_) fun h => hpack h.1.1
    exact h.2.1 (PolicyResolver.resolve_unmanaged_pack hmode (Bool.eq_false_iff.mpr hpack)).2.1
  simp only [List.mem_cons, List.not_mem_nil, or_false, not_or] at hmax
  have hkeeps : ¬ r.Lowers p.desiredLevel := by
    rintro (⟨h, -⟩ | ⟨h, -⟩)
    · exact hmax.2.1 h
    · exact hmax.2.2 h
  have hcases := PolicyResolver.resolve_cases (p := p) hmode hpack hmax.1
  rw [PolicyResolver.capped_keeps hkeeps] at hcases
  have hdeny : r.denyReason p p.desiredAction p.desiredLevel = none ↔
      r.capabilityDenyReason p.desiredAction = none ∧
        r.guardrailDenyReason p.desiredAction p.desiredLevel p.target = none ∧
        actionBlastRadiusDenyReason p p.desiredAction p.desiredLevel = none ∧
        r.autonomyDenyReason p.desiredAction p = none := by
    simp only [PolicyResolver.denyReason, Option.or_eq_none_iff, and_assoc]
  rw [← hdeny, and_iff_right hpack]
  rcases hcases with ⟨⟨reason, hreason⟩, hdenied, -⟩ | ⟨hnone, hallowed, haction, hlevel⟩
  · exact iff_of_false (by simp [Allows, hdenied]) (by simp [hreason])
  · rw [and_iff_left hnone, Allows, haction, hlevel]
    exact and_iff_right hallowed

theorem blastRadius_eq_none : actionBlastRadiusDenyReason p action level = none ↔
    ∀ s ∈ (actionBlastRadiusSubjects p).1, (guardrailSubjectMatch s p.target).1 = false ∧
      ((guardrailSubjectMatch s p.target).2 = true →
        blastRadiusUnknownRejects (actionBlastRadiusSubjects p).2 action level = false) := by
  rw [actionBlastRadiusDenyReason, List.findSome?_eq_none_iff]
  refine forall₂_congr fun s _ => ?_
  cases hmatched : (guardrailSubjectMatch s p.target).1 with
  | true => simp [hmatched]
  | false => simp [hmatched]

theorem saidBehavior_verbatim :
    trimSpace "" = "" ∧ saidBehavior (some "reject_hard_action") = "reject_hard_action" ∧
      saidBehavior (some "reject_action") = "reject_action" := by
  decide +kernel

theorem saidBehavior_of_getD {text text' : Option String} (h : text.getD "" = text'.getD "") :
    saidBehavior text = saidBehavior text' := by
  rw [saidBehavior, saidBehavior, h]

theorem saidBehavior_empty {text : Option String} (h : text.getD "" = "") :
    saidBehavior text = "reject_hard_action" := by
  rw [saidBehavior, h, saidBehavior_verbatim.1]
  rfl

theorem guardrail_rejects_iff (hg : x.IsGuardrail g) :
    guardrailUnknownRejectsHardAction g action level = true ↔ x.Verbatim ∧ x.Rejects action level := by
  unfold guardrailUnknownRejectsHardAction
  rw [hg.2.2.2]
  by_cases hverbatim : x.Verbatim
  · rw [and_iff_right hverbatim, Protection.Rejects]
    simp only [Protection.Verbatim, List.mem_cons, List.not_mem_nil, or_false] at hverbatim
    rcases hverbatim with h | h | h
    · rw [saidBehavior_empty h, h]
      simp
    · have hsaid : saidBehavior x.unknownBehavior = saidBehavior (some "reject_hard_action") :=
        saidBehavior_of_getD h
      rw [hsaid, saidBehavior_verbatim.2.1, h]
      simp
    · have hsaid : saidBehavior x.unknownBehavior = saidBehavior (some "reject_action") :=
        saidBehavior_of_getD h
      rw [hsaid, saidBehavior_verbatim.2.2, h]
      simp
  · refine iff_of_false ?_ fun h => hverbatim h.1
    simp only [Protection.Verbatim, List.mem_cons, List.not_mem_nil, or_false, not_or] at hverbatim
    simp [hverbatim]

theorem blastRadius_texts :
    trimSpace "<nil>" = "<nil>" ∧ replaceRune (toLower "<nil>") '-' '_' = "<nil>" ∧
      replaceRune (toLower (trimSpace "reject_hard_action")) '-' '_' = "reject_hard_action" := by
  decide +kernel

/-- The behaviour of the exclusions, with or without a group that is required to be excluded. -/
theorem exclusion_behavior {radius : BlastRadius} (hp : p.blastRadius = some radius) :
    blastRadiusUnknownRejects (actionBlastRadiusSubjects p).2 action level =
      blastRadiusUnknownRejects (trimSpace radius.unknownBehavior) action level := by
  unfold actionBlastRadiusSubjects
  rw [hp]
  dsimp only
  split_ifs with hgroup hblank
  · rw [hblank]
    rfl
  · rfl
  · rfl

theorem exclusion_rejects_iff (hp : p.blastRadius = (BlastRadiusParam.map x.behaviorParam excludes).read) :
    blastRadiusUnknownRejects (actionBlastRadiusSubjects p).2 action level = true ↔
      x.unknownBehavior ≠ none ∧ x.Rejects action level := by
  rw [exclusion_behavior hp]
  cases hbehavior : x.unknownBehavior with
  | none =>
    refine iff_of_false ?_ fun h => h.1 rfl
    simp [Protection.behaviorParam, hbehavior, ParamValue.sprint, blastRadiusUnknownRejects, blastRadius_texts]
  | some text =>
    have hsaid : saidBehavior x.unknownBehavior =
        replaceRune (toLower (trimSpace (if trimSpace text = "" then "reject_hard_action" else trimSpace text)))
          '-' '_' := by
      rw [saidBehavior, hbehavior, Option.getD_some]
      split_ifs
      · exact blastRadius_texts.2.2.symm
      · rw [trimSpace_idem]
    simp only [Protection.behaviorParam, hbehavior, Option.map_some, Option.getD_some, ParamValue.sprint,
      blastRadiusUnknownRejects, Protection.Rejects, ← hsaid]
    simp

def Protection.GuardrailDenies (x : Protection) (t : ActionTarget) (action level : String) : Prop :=
  x.Forbids action level ∧
    (ShowsFirst t x.subject ∨ NothingKnown t x.subject ∧ x.Verbatim ∧ x.Rejects action level)

def Protection.ExclusionDenies (x : Protection) (t : ActionTarget) (action level : String) : Prop :=
  ShowsFirst t x.subject ∨ NothingKnown t x.subject ∧ x.unknownBehavior ≠ none ∧ x.Rejects action level

theorem rejects_iff (hg : x.IsGuardrail g) :
    PolicyResolver.Rejects g action level t ↔ x.GuardrailDenies t action level := by
  rw [PolicyResolver.Rejects, guardrail_rejects_iff hg, hg.2.1, match_fst x.type_ne x.ref_ne,
    match_snd x.type_ne x.ref_ne, hg.2.2.1]
  exact and_iff_right hg.1

theorem not_allows_of_guardrail (hr : Uncapped r) (hmem : g ∈ r.runtimeGuardrails)
    (hg : x.IsGuardrail g) (hp : Proposes p action level t) (h : x.GuardrailDenies t action level) :
    ¬ Allows r p := by
  intro hallows
  obtain ⟨⟨-, henforces⟩, -, hnone, -⟩ := (allows_iff hr hp).mp hallows
  rcases PolicyResolver.guardrailDenyReason_eq_none.mp hnone with hempty | hobserve | hall
  · exact henforces.1 hempty
  · exact henforces.2 hobserve
  · exact hall g hmem ((rejects_iff hg).mpr h)

theorem guardrail_alone (hg : x.IsGuardrail g) (henforces : Enforces action level) :
    { r with runtimeGuardrails := [g] }.guardrailDenyReason action level t = none ↔
      ¬ x.GuardrailDenies t action level := by
  rw [PolicyResolver.guardrailDenyReason_eq_none, or_iff_right henforces.1, or_iff_right henforces.2]
  simp only [List.mem_singleton, forall_eq, rejects_iff hg]

theorem mem_subjects (hp : x.IsExclusion p) :
    x.subject ∈ (actionBlastRadiusSubjects p).1 := by
  obtain ⟨excludes, hradius, s, hs, htrim⟩ := hp
  have hmem : x.subject ∈ (excludes.subjects.map trimSubject).filter
      fun s : RuntimeGuardrailSubject => s.type ≠ "" ∧ s.ref ≠ "" :=
    List.mem_filter.mpr ⟨List.mem_map.mpr ⟨s, hs, htrim⟩, by simp [x.type_ne, x.ref_ne]⟩
  unfold actionBlastRadiusSubjects
  rw [hradius]
  dsimp only [BlastRadiusParam.read]
  by_cases hgroup : trimSpace (p.parameters.get "requires_target_excludes_group").sprint ≠ "" ∧
      trimSpace (p.parameters.get "requires_target_excludes_group").sprint ≠ "<nil>"
  · rw [if_pos hgroup]
    exact List.mem_append_left _ hmem
  · rw [if_neg hgroup]
    exact hmem

theorem not_allows_of_exclusion (hr : Uncapped r) (hexcludes : x.IsExclusion p)
    (hp : Proposes p action level t) (h : x.ExclusionDenies t action level) : ¬ Allows r p := by
  intro hallows
  have hnone := ((allows_iff hr hp).mp hallows).2.2.2.1
  have hsubject := blastRadius_eq_none.mp hnone x.subject (mem_subjects hexcludes)
  obtain ⟨excludes, hradius, -⟩ := hexcludes
  rw [hp.2.2] at hsubject
  rcases h with hshows | ⟨hunknown, hrejects⟩
  · exact absurd ((match_fst x.type_ne x.ref_ne).mpr hshows) (Bool.eq_false_iff.mp hsubject.1)
  · have hfalse := hsubject.2 ((match_snd x.type_ne x.ref_ne).mpr hunknown)
    exact absurd ((exclusion_rejects_iff hradius).mpr hrejects) (Bool.eq_false_iff.mp hfalse)

theorem subjects_alone (hradius : p.blastRadius = (BlastRadiusParam.map x.behaviorParam excludes).read)
    (halone : excludes.subjects.map trimSubject = [x.subject])
    (hgroup : trimSpace (p.parameters.get "requires_target_excludes_group").sprint ∈ ["", "<nil>"]) :
    (actionBlastRadiusSubjects p).1 = [x.subject] := by
  have hfilter : (excludes.subjects.map trimSubject).filter
      (fun s : RuntimeGuardrailSubject => s.type ≠ "" ∧ s.ref ≠ "") = [x.subject] := by
    rw [halone]
    simp [x.type_ne, x.ref_ne]
  simp only [List.mem_cons, List.not_mem_nil, or_false] at hgroup
  unfold actionBlastRadiusSubjects
  rw [hradius]
  dsimp only [BlastRadiusParam.read]
  rw [if_neg (by tauto)]
  exact hfilter

theorem exclusion_alone (hradius : p.blastRadius = (BlastRadiusParam.map x.behaviorParam excludes).read)
    (halone : excludes.subjects.map trimSubject = [x.subject])
    (hgroup : trimSpace (p.parameters.get "requires_target_excludes_group").sprint ∈ ["", "<nil>"])
    (hp : Proposes p action level t) :
    actionBlastRadiusDenyReason p action level = none ↔ ¬ x.ExclusionDenies t action level := by
  rw [blastRadius_eq_none, subjects_alone hradius halone hgroup, hp.2.2]
  simp only [List.mem_singleton, forall_eq, Protection.ExclusionDenies, ← exclusion_rejects_iff hradius,
    ← match_fst x.type_ne x.ref_ne, ← match_snd x.type_ne x.ref_ne]
  grind

section Alone

variable (hr : Uncapped r) (hp : Proposes p action level t)
  (hgroup : trimSpace (p.parameters.get "requires_target_excludes_group").sprint ∈ ["", "<nil>"])

include hr hp hgroup

theorem allows_guardrail_alone (hg : x.IsGuardrail g) :
    Allows { r with runtimeGuardrails := [g] } { p with blastRadius := none } ↔
      (r.hasPolicyPack = true ∧ Enforces action level) ∧ r.capabilityDenyReason action = none ∧
        ¬ x.GuardrailDenies t action level ∧ r.autonomyDenyReason action p = none := by
  have hblast : actionBlastRadiusDenyReason { p with blastRadius := none } action level = none := by
    simp only [List.mem_cons, List.not_mem_nil, or_false] at hgroup
    rw [actionBlastRadiusDenyReason, actionBlastRadiusSubjects]
    dsimp only
    rw [if_neg (by tauto)]
    rfl
  have hallows := allows_iff (r := { r with runtimeGuardrails := [g] })
    (p := { p with blastRadius := none }) hr hp
  rw [and_iff_right hblast] at hallows
  refine hallows.trans (and_congr_right fun h => and_congr_right fun _ => and_congr_left fun _ => ?_)
  exact guardrail_alone hg h.2

theorem allows_exclusion_alone (halone : excludes.subjects.map trimSubject = [x.subject]) :
    Allows { r with runtimeGuardrails := [] }
        { p with blastRadius := (BlastRadiusParam.map x.behaviorParam excludes).read } ↔
      (r.hasPolicyPack = true ∧ Enforces action level) ∧ r.capabilityDenyReason action = none ∧
        ¬ x.ExclusionDenies t action level ∧ r.autonomyDenyReason action p = none := by
  have hguardrails : { r with runtimeGuardrails := [] }.guardrailDenyReason action level t = none :=
    PolicyResolver.guardrailDenyReason_eq_none.mpr (.inr (.inr fun _ hmem => absurd hmem List.not_mem_nil))
  have hallows := allows_iff (r := { r with runtimeGuardrails := [] })
    (p := { p with blastRadius := (BlastRadiusParam.map x.behaviorParam excludes).read }) hr hp
  rw [and_iff_right hguardrails] at hallows
  refine hallows.trans (and_congr_right fun _ => and_congr_right fun _ => and_congr_left fun _ => ?_)
  exact exclusion_alone (p := { p with blastRadius := (BlastRadiusParam.map x.behaviorParam excludes).read })
    rfl halone hgroup hp

end Alone

/-- A resolver with nothing else that denies. -/
def bareResolver : PolicyResolver := { mode := "managed", hasPolicyPack := true }

theorem uncapped_bareResolver : Uncapped bareResolver := ⟨rfl, by decide⟩

def Protection.guardrail (x : Protection) : RuntimeGuardrail :=
  { type := "never", subject := x.subject, forbiddenActions := x.forbiddenActions
    unknownBehavior := x.unknownBehavior.getD "" }

theorem isGuardrail_guardrail (x : Protection) : x.IsGuardrail x.guardrail := by
  have htype : trimSpace "never" = "never" := by decide +kernel
  exact ⟨htype, rfl, rfl, rfl⟩

def Protection.exclusionList (x : Protection) : ExcludeList :=
  .strings [GoMap.ofList [("type", x.subject.type), ("ref", x.subject.ref)]]

theorem subjects_exclusionList (x : Protection) : x.exclusionList.subjects = [x.subject] := by
  have htype :
      (GoMap.ofList [("type", x.subject.type), ("ref", x.subject.ref)]).get "type" = x.subject.type := by
    simp [GoMap.ofList, GoMap.get]
  have href :
      (GoMap.ofList [("type", x.subject.type), ("ref", x.subject.ref)]).get "ref" = x.subject.ref := by
    simp [GoMap.ofList, GoMap.get]
  simp only [Protection.exclusionList, ExcludeList.subjects, List.map_cons, List.map_nil, htype, href]

/-- A proposal that asks for nothing else. -/
def bareProposal (action level : String) (t : ActionTarget) : ActionProposal :=
  { desiredAction := action, desiredLevel := level, target := t }

def Protection.excluding (x : Protection) (p : ActionProposal) : ActionProposal :=
  { p with blastRadius := (BlastRadiusParam.map x.behaviorParam x.exclusionList).read }

theorem isExclusion_excluding : x.IsExclusion (x.excluding p) :=
  ⟨x.exclusionList, rfl, x.subject, by rw [subjects_exclusionList]; exact List.mem_singleton_self _, x.trimmed⟩

theorem group_bareProposal :
    trimSpace ((bareProposal action level t).parameters.get "requires_target_excludes_group").sprint ∈
      ["", "<nil>"] := by
  have hnil : (bareProposal action level t).parameters.get "requires_target_excludes_group" = .nil := by
    simp [bareProposal, GoMap.get]
    rfl
  rw [hnil]
  simp [ParamValue.sprint, blastRadius_texts.1]

theorem bare_guardrail (henforces : Enforces action level) :
    Allows { bareResolver with runtimeGuardrails := [x.guardrail] } (bareProposal action level t) ↔
      ¬ x.GuardrailDenies t action level := by
  have hp : Proposes (bareProposal action level t) action level t := ⟨rfl, rfl, rfl⟩
  have hallows := allows_guardrail_alone uncapped_bareResolver hp group_bareProposal (isGuardrail_guardrail x)
  have hcapability : bareResolver.capabilityDenyReason action = none := if_neg fun h => h.1 rfl
  refine hallows.trans ((and_iff_right ⟨rfl, henforces⟩).trans ((and_iff_right hcapability).trans ?_))
  exact and_iff_left rfl

theorem bare_exclusion (henforces : Enforces action level) :
    Allows { bareResolver with runtimeGuardrails := [] } (x.excluding (bareProposal action level t)) ↔
      ¬ x.ExclusionDenies t action level := by
  have hp : Proposes (bareProposal action level t) action level t := ⟨rfl, rfl, rfl⟩
  have halone : x.exclusionList.subjects.map trimSubject = [x.subject] := by
    rw [subjects_exclusionList, List.map_singleton, x.trimmed]
  have hallows := allows_exclusion_alone uncapped_bareResolver hp group_bareProposal halone
  have hcapability : bareResolver.capabilityDenyReason action = none := if_neg fun h => h.1 rfl
  refine hallows.trans ((and_iff_right ⟨rfl, henforces⟩).trans ((and_iff_right hcapability).trans ?_))
  exact and_iff_left rfl

theorem failsClosed_iff_denies (henforces : Enforces action level) :
    FailsClosed x t action level ↔
    (Shows t x.subject → (x.Forbids action level → x.GuardrailDenies t action level) ∧
      x.ExclusionDenies t action level) ∧
    (NothingKnown t x.subject → isHardRuntimeAction action level = true →
      saidBehavior x.unknownBehavior ∈ ["reject_hard_action", "reject_action"] →
        (x.Forbids action level → x.GuardrailDenies t action level) ∧ x.ExclusionDenies t action level) ∧
    (x.Forbids action level → (x.GuardrailDenies t action level ↔ x.ExclusionDenies t action level)) := by
  have hp : Proposes (bareProposal action level t) action level t := ⟨rfl, rfl, rfl⟩
  have hguardrail : Allows { bareResolver with runtimeGuardrails := [x.guardrail] }
      (bareProposal action level t) ↔ ¬ x.GuardrailDenies t action level := bare_guardrail henforces
  have hexclusion : Allows { bareResolver with runtimeGuardrails := [] }
      (x.excluding (bareProposal action level t)) ↔ ¬ x.ExclusionDenies t action level :=
    bare_exclusion henforces
  have hg := isGuardrail_guardrail x
  have hexcluded : x.IsExclusion (x.excluding (bareProposal action level t)) := isExclusion_excluding
  constructor
  · intro h
    refine ⟨fun hshows => ⟨fun hforbids => ?_, ?_⟩, fun hunknown hhard hsaid => ⟨fun hforbids => ?_, ?_⟩, ?_⟩
    · have hdenied := h.guardrail_shown hshows hforbids
        { bareResolver with runtimeGuardrails := [x.guardrail] } _ _ uncapped_bareResolver
        (List.mem_singleton_self _) hg hp
      exact not_not.mp (mt hguardrail.mpr hdenied)
    · exact not_not.mp (mt hexclusion.mpr (h.exclusion_shown hshows _ _ uncapped_bareResolver hexcluded hp))
    · have hdenied := h.guardrail_unknown hunknown hhard hsaid hforbids
        { bareResolver with runtimeGuardrails := [x.guardrail] } _ _ uncapped_bareResolver
        (List.mem_singleton_self _) hg hp
      exact not_not.mp (mt hguardrail.mpr hdenied)
    · have hdenied := h.exclusion_unknown hunknown hhard hsaid _ _ uncapped_bareResolver hexcluded hp
      exact not_not.mp (mt hexclusion.mpr hdenied)
    · intro hforbids
      have halone : x.exclusionList.subjects.map trimSubject = [x.subject] := by
        rw [subjects_exclusionList, List.map_singleton, x.trimmed]
      have hsame := h.same hforbids bareResolver x.guardrail (bareProposal action level t) x.exclusionList
        uncapped_bareResolver hg hp halone group_bareProposal
      exact not_iff_not.mp (hguardrail.symm.trans (hsame.trans hexclusion))
  · rintro ⟨hshown, hunknown, hsame⟩
    refine ⟨?_, ?_, ?_, ?_, ?_⟩
    · intro hshows hforbids r g p hr hmem hg hp
      exact not_allows_of_guardrail hr hmem hg hp ((hshown hshows).1 hforbids)
    · intro hshows r p hr hexcludes hp
      exact not_allows_of_exclusion hr hexcludes hp (hshown hshows).2
    · intro hnothing hhard hsaid hforbids r g p hr hmem hg hp
      exact not_allows_of_guardrail hr hmem hg hp ((hunknown hnothing hhard hsaid).1 hforbids)
    · intro hnothing hhard hsaid r p hr hexcludes hp
      exact not_allows_of_exclusion hr hexcludes hp (hunknown hnothing hhard hsaid).2
    · intro hforbids r g p excludes hr hg hp halone hgroup
      rw [allows_guardrail_alone hr hp hgroup hg, allows_exclusion_alone hr hp hgroup halone, hsame hforbids]

theorem failsClosed_of_not_enforces (h : ¬ Enforces action level) : FailsClosed x t action level := by
  have hdenied : ∀ {r p}, Uncapped r → Proposes p action level t → ¬ Allows r p :=
    fun hr hp hallows => h ((allows_iff hr hp).mp hallows).1.2
  refine ⟨?_, ?_, ?_, ?_, ?_⟩
  · exact fun _ _ r g p hr _ _ hp => hdenied hr hp
  · exact fun _ r p hr _ hp => hdenied hr hp
  · exact fun _ _ _ _ r g p hr _ _ hp => hdenied hr hp
  · exact fun _ _ _ r p hr _ hp => hdenied hr hp
  · intro _ r g p excludes hr _ hp _ _
    exact iff_of_false (hdenied (r := { r with runtimeGuardrails := [g] }) hr hp)
      (hdenied (r := { r with runtimeGuardrails := [] }) hr hp)

/-- A protection fails closed exactly when what shows its subject is read first, and a behaviour that rejects is
there and written out. -/
theorem failsClosed_iff (x : Protection) (t : ActionTarget) (action level : String) :
    FailsClosed x t action level ↔ (Enforces action level → Holds x t action level) := by
  by_cases henforces : Enforces action level
  swap
  · exact iff_of_true (failsClosed_of_not_enforces henforces) fun h => absurd h henforces
  rw [failsClosed_iff_denies henforces, forall_prop_of_true henforces]
  have hshows := not_nothingKnown_of_shows (t := t) (s := x.subject) x.type_ne
  have hfirst := not_nothingKnown_of_showsFirst (t := t) (s := x.subject)
  have habsent : x.unknownBehavior = none → saidBehavior x.unknownBehavior = "reject_hard_action" :=
    fun hnone => saidBehavior_empty (by rw [hnone]; rfl)
  have hexclusive : saidBehavior x.unknownBehavior = "reject_action" →
      saidBehavior x.unknownBehavior ≠ "reject_hard_action" := fun haction => by rw [haction]; decide
  simp only [Protection.GuardrailDenies, Protection.ExclusionDenies, List.mem_cons, List.not_mem_nil, or_false]
  constructor
  · rintro ⟨hshown, hunknown, hsame⟩
    have hgiven : NothingKnown t x.subject → x.Rejects action level → x.unknownBehavior ≠ none := by
      intro hnothing hrejects hnone
      have hhard : isHardRuntimeAction action level = true :=
        (hrejects.resolve_left fun haction => hexclusive haction (habsent hnone)).2
      rcases (hunknown hnothing hhard (.inl (habsent hnone))).2 with hs | hs
      · exact hfirst hs hnothing
      · exact hs.2.1 hnone
    refine ⟨fun hs => (hshown hs).2.resolve_right fun h => hshows hs h.1, fun hnothing hrejects => ?_⟩
    refine ⟨hgiven hnothing hrejects, fun hforbids => ?_⟩
    have hdenies := (hsame hforbids).mpr (.inr ⟨hnothing, hgiven hnothing hrejects, hrejects⟩)
    exact (hdenies.2.resolve_left fun hs => hfirst hs hnothing).2.1
  · intro h
    refine ⟨fun hs => ?_, fun hnothing hhard hsaid => ?_, fun hforbids =>
      ⟨fun hdenies => ?_, fun hdenies => ?_⟩⟩
    · have hs := h.shown hs
      exact ⟨fun hforbids => ⟨hforbids, .inl hs⟩, .inl hs⟩
    · have hrejects : x.Rejects action level := hsaid.symm.imp id fun hsaid => ⟨hsaid, hhard⟩
      obtain ⟨hgiven, hverbatim⟩ := h.unknown hnothing hrejects
      exact ⟨fun hforbids => ⟨hforbids, .inr ⟨hnothing, hverbatim hforbids, hrejects⟩⟩,
        .inr ⟨hnothing, hgiven, hrejects⟩⟩
    · rcases hdenies.2 with hs | ⟨hnothing, -, hrejects⟩
      · exact .inl hs
      · exact .inr ⟨hnothing, (h.unknown hnothing hrejects).1, hrejects⟩
    · rcases hdenies with hs | ⟨hnothing, -, hrejects⟩
      · exact ⟨hforbids, .inl hs⟩
      · exact ⟨hforbids, .inr ⟨hnothing, (h.unknown hnothing hrejects).2 hforbids, hrejects⟩⟩

/-- Administrators are excluded, and nothing is said for a target of which nothing is known. -/
def excludeAdmins : Protection where
  subject := ⟨"group", "admins"⟩
  forbiddenActions := ["auto_block"]
  unknownBehavior := none
  type_ne := by decide
  ref_ne := by decide
  trimmed := by decide +kernel

/-- An absent behaviour reads `<nil>`, which rejects nothing. -/
theorem absent_behavior_allows : ¬ ∀ x t action level, FailsClosed x t action level := by
  intro h
  have henforces : Enforces "enforce.access.deny" "block" := by constructor <;> decide
  have hdenies := (failsClosed_iff_denies henforces).mp
    (h excludeAdmins { granularity := "source", value := "203.0.113.10" } "enforce.access.deny" "block")
  rcases (hdenies.2.1 (by decide +kernel) (by decide +kernel) (by decide +kernel)).2 with hshows | hunknown
  · exact absurd hshows (by decide +kernel)
  · exact hunknown.2.1 rfl

end Denials

end Kernloom
