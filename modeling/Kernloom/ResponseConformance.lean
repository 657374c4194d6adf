import Kernloom.Conformance

/-! What an accepted pack promises of the actions it can trigger: a rule's action meets its contract and
the limits of the node, a response's only where the checks of the responses look. -/

namespace Kernloom

section Contracts

variable (snapshot : RegistrySnapshot) (node : NodeRuntime)

/-- The contract a capability is held to: the one it names, or the one under its own identifier. -/
def capabilityContract (id : String) : Option RuntimeActionContractEntry :=
  match capabilityEntry snapshot id with
  | some capability =>
    actionContract snapshot (if capability.actionContract = "" then id else capability.actionContract)
  | none => actionContract snapshot id

/-- The effect of an action: of its contract, or of its capability if the contract names none. -/
def actionEffect (id : String) : String :=
  let effect := (capabilityContract snapshot id).elim "" (·.effect)
  if effect = "" then (capabilityEntry snapshot id).elim "" (·.effect) else effect

/-- A lifetime within a contract: there if it has to be, and no longer than the maximum. -/
def WithinTTL (contract : RuntimeActionContractEntry) (ttl : Duration) : Prop :=
  (contract.requiresTTL = true → 0 < ttl) ∧
    ∃ maxTTL, parseOptionalDuration contract.maxTTL = .ok maxTTL ∧ (0 < maxTTL → ttl ≤ maxTTL)

/-- A contract that a runtime action with this lifetime may be run under. -/
def Permits (contract : RuntimeActionContractEntry) (ttl : Duration) : Prop :=
  contract.runtimeAllowed = true ∧ contract.canGrantAccess = false ∧ WithinTTL contract ttl

/-- An action that the node may be made to run: a runtime action of the registry that grants nothing, under
a contract that permits it, offered by the node, and no more severe than the node allows. -/
structure Conforms (action : RuntimeActionSpec) : Prop where
  known : ∃ capability, capabilityEntry snapshot action.capability = some capability ∧
    capability.runtimeAction = true ∧ capability.effect ≠ "grant"
  permitted : ∃ contract, capabilityContract snapshot action.capability = some contract ∧
    Permits contract action.ttl
  offered : node.capabilities = [] ∨ action.capability ∈ node.capabilities
  bounded : runtimeActionSeverity snapshot action ≤ maxActionSeverity snapshot node.maxAction

/-- A response as an action with the same fields. -/
def RuntimeResponseAction.spec (r : RuntimeResponseAction) : RuntimeActionSpec where
  capability := r.id
  ttl := r.ttl

/-- The responses that enforce something: no alerts, and with a restrictive effect. -/
def enforcingResponses (pack : RuntimePolicyPack) : List RuntimeResponseAction :=
  (pack.responseRules.flatMap (·.actions)).filter fun r =>
    r.id ≠ "notify.alert.emit" ∧ actionEffect snapshot r.id = "restrictive"

/-- What the checks of the responses leave open: that the capability is a runtime action, that a contract
under another identifier permits the response, that the node offers a capability outside `enforce.`,
and the severity. -/
structure LeftOpen (r : RuntimeResponseAction) : Prop where
  known : ∃ capability, capabilityEntry snapshot r.id = some capability ∧ capability.runtimeAction = true
  permitted : ∃ contract, capabilityContract snapshot r.id = some contract ∧
    (contract.id = r.id ∨ Permits contract r.ttl)
  offered : hasPrefix r.id "enforce." = true ∨ node.capabilities = [] ∨ r.id ∈ node.capabilities
  bounded : runtimeActionSeverity snapshot r.spec ≤ maxActionSeverity snapshot node.maxAction

/-- The enforcing actions a pack can trigger. -/
def enforcingActions (pack : RuntimePolicyPack) : List RuntimeActionSpec :=
  (effectiveRules pack).map (·.action) ++ (enforcingResponses snapshot pack).map (·.spec)

end Contracts

section Rules

variable {snapshot : RegistrySnapshot} {node : NodeRuntime} {pack : RuntimePolicyPack}
  {celProgram : String → Check}

theorem validateTTL_ok {name : String} {contract : RuntimeActionContractEntry} {ttl : Duration} :
    validateTTL name contract ttl = .ok () ↔ WithinTTL contract ttl := by
  unfold validateTTL WithinTTL
  rw [check_bind_ok, check_eq_ok]
  cases parseOptionalDuration contract.maxTTL with
  | error err => simp
  | ok maxTTL => simp [check_eq_ok]

theorem ok_of_withError {r : Check} {f : String → String}
    (h : (match r with
      | .error err => (.error (f err) : Check)
      | .ok () => .ok ()) = .ok ()) : r = .ok () := by
  cases r with
  | error err => cases h
  | ok u => rfl

/-- What the check of a rule's action asks. -/
theorem validateRuntimeActionSpec_ok {action : RuntimeActionSpec} :
    validateRuntimeActionSpec snapshot action = .ok () ↔ trimSpace action.capability ≠ "" ∧
      (∃ capability, capabilityEntry snapshot action.capability = some capability ∧
        capability.runtimeAction = true ∧ capability.effect ≠ "grant") ∧
      ∃ contract, capabilityContract snapshot action.capability = some contract ∧
      Permits contract action.ttl := by
  unfold validateRuntimeActionSpec capabilityContract
  rw [check_bind_ok, check_eq_ok]
  refine and_congr_right fun _ => ?_
  cases capabilityEntry snapshot action.capability with
  | none => simp
  | some capability =>
    simp only [check_bind_ok, check_eq_ok]
    cases actionContract snapshot
        (if capability.actionContract = "" then action.capability else capability.actionContract) with
    | none => simp
    | some contract => simp [check_bind_ok, check_eq_ok, validateTTL_ok, Permits, and_assoc]

theorem mem_addCapability {caps : List String} {cap other : String} (h : other ∈ caps) :
    other ∈ addCapability caps cap := by
  unfold addCapability
  split
  · exact h
  · exact List.mem_append_left _ h

theorem mem_foldl_addCapability {caps wanted : List String} {cap : String} (hne : cap ≠ "")
    (h : cap ∈ caps ∨ cap ∈ wanted) : cap ∈ wanted.foldl addCapability caps := by
  induction wanted generalizing caps with
  | nil => exact h.resolve_right List.not_mem_nil
  | cons other wanted ih =>
    rw [List.foldl_cons]
    apply ih
    rcases h with h | h
    · exact .inl (mem_addCapability h)
    · rcases List.mem_cons.mp h with rfl | h
      · left
        by_cases hmem : cap ∈ caps
        · exact mem_addCapability hmem
        · simp [addCapability, hne, hmem]
      · exact .inr h

/-- The parts of a pack that was accepted. -/
structure Accepted (snapshot : RegistrySnapshot) (node : NodeRuntime) (pack : RuntimePolicyPack) : Prop where
  rules : ∀ rule ∈ effectiveRules pack, validateRuntimeActionSpec snapshot rule.action = .ok ()
  responses : ∀ r ∈ pack.responseRules.flatMap (·.actions),
    validateResponseAction snapshot pack.alertRoutes r = .ok ()
  capabilities : ∀ cap ∈ Conformance.runtimePolicyCapabilities pack,
    node.capabilities = [] ∨ cap ∈ node.capabilities
  severities : ∀ rule ∈ effectiveRules pack,
    runtimeActionSeverity snapshot rule.action ≤ maxActionSeverity snapshot node.maxAction

theorem validateResponses_ok {seen : List String} {responses : List RuntimeResponseRule}
    (h : validateResponses snapshot pack seen responses = .ok ()) :
    ∀ r ∈ responses.flatMap (·.actions), validateResponseAction snapshot pack.alertRoutes r = .ok () := by
  induction responses generalizing seen with
  | nil => simp
  | cons response responses ih =>
    simp only [validateResponses, check_bind_ok] at h
    obtain ⟨-, -, hresponse, hrest⟩ := h
    intro r hr
    rcases List.mem_append.mp (List.flatMap_cons ▸ hr) with hr | hr
    · simp only [validateResponseRule, check_bind_ok, forM_check_ok] at hresponse
      obtain ⟨-, -, hactions⟩ := hresponse
      obtain ⟨i, hi, rfl⟩ := List.getElem_of_mem hr
      exact ok_of_withError (hactions (response.actions[i], i)
        (List.mem_zipIdx_iff_getElem?.mpr (by simp [hi])))
    · exact ih hrest r hr

theorem accepted_of_ok (h : validateRuntimePolicyPack celProgram pack snapshot node = .ok ()) :
    Accepted snapshot node pack := by
  simp only [validateRuntimePolicyPack, check_bind_ok] at h
  obtain ⟨-, -, -, hrules, hresponses, hcapabilities, hseverities⟩ := h
  refine ⟨fun rule hrule => ?_, ?_, fun cap hcap => ?_, fun rule hrule => ?_⟩
  · simp only [validateRuntimeActions, forM_check_ok] at hrules
    exact ok_of_withError (hrules rule hrule)
  · simp only [validateResponseRules, check_bind_ok] at hresponses
    exact validateResponses_ok hresponses.2.2
  · simp only [checkCapabilities, forM_check_ok, check_bind_ok, check_eq_ok] at hcapabilities
    exact (hcapabilities cap hcap).1
  · simp only [checkMaxAction, forM_check_ok, check_eq_ok] at hseverities
    exact hseverities rule hrule

theorem actionContract_id {id : String} {contract : RuntimeActionContractEntry}
    (h : actionContract snapshot id = some contract) : contract.id = id := by
  simpa using (List.mem_filter.mp (List.mem_of_getLast? h)).2

/-- A contract under the identifier of the action is the one the responses look up. -/
theorem actionContract_of_own {id : String} {contract : RuntimeActionContractEntry}
    (h : capabilityContract snapshot id = some contract) (hid : contract.id = id) :
    actionContract snapshot id = some contract := by
  unfold capabilityContract at h
  cases hcapability : capabilityEntry snapshot id with
  | none =>
    rw [hcapability] at h
    exact h
  | some capability =>
    rw [hcapability] at h
    have hname := actionContract_id h
    dsimp only at h
    rw [← hname, hid] at h
    exact h

/-- What the check of an enforcing response establishes of a contract under its own identifier. -/
theorem validateResponseAction_ok {routes : List RuntimeAlertRoute} {r : RuntimeResponseAction}
    (h : validateResponseAction snapshot routes r = .ok ()) (halert : r.id ≠ "notify.alert.emit")
    (heffect : actionEffect snapshot r.id = "restrictive") :
    (∀ capability, capabilityEntry snapshot r.id = some capability → capability.effect ≠ "grant") ∧
    ∀ contract, capabilityContract snapshot r.id = some contract → contract.id = r.id →
      Permits contract r.ttl := by
  unfold validateResponseAction at h
  simp only [check_bind_ok, check_eq_ok, halert, if_false] at h
  obtain ⟨-, -, hgrant, h⟩ := h
  refine ⟨fun capability hcapability => ?_, fun contract hcontract hid => ?_⟩
  · simpa [hcapability] using hgrant
  · rw [actionContract_of_own hcontract hid] at h
    simp only [check_bind_ok, check_eq_ok] at h
    obtain ⟨hgrants, h⟩ := h
    simp only [actionEffect, hcontract, Option.elim_some] at heffect
    rw [if_neg (not_not.mpr heffect)] at h
    simp only [check_bind_ok, check_eq_ok, validateTTL_ok] at h
    exact ⟨h.1, by simpa using hgrants, h.2⟩

theorem Accepted.rule_conforms (h : Accepted snapshot node pack) {rule : RuntimePolicyRule}
    (hrule : rule ∈ effectiveRules pack) : Conforms snapshot node rule.action where
  known := (validateRuntimeActionSpec_ok.mp (h.rules rule hrule)).2.1
  permitted := (validateRuntimeActionSpec_ok.mp (h.rules rule hrule)).2.2
  offered := by
    have hspec := (validateRuntimeActionSpec_ok.mp (h.rules rule hrule)).1
    have hne : rule.action.capability ≠ "" := fun hempty => hspec (by rw [hempty]; decide +kernel)
    refine h.capabilities _ (mem_foldl_addCapability hne (.inr ?_))
    exact List.mem_append_left _ (List.mem_append_right _ (List.mem_map_of_mem hrule))
  bounded := h.severities rule hrule

theorem Accepted.response_conforms_iff (h : Accepted snapshot node pack) {r : RuntimeResponseAction}
    (hr : r ∈ enforcingResponses snapshot pack) : Conforms snapshot node r.spec ↔
    LeftOpen snapshot node r := by
  obtain ⟨hmem, hkind⟩ := List.mem_filter.mp hr
  obtain ⟨halert, heffect⟩ : r.id ≠ "notify.alert.emit" ∧ actionEffect snapshot r.id = "restrictive" := by
    simpa using hkind
  obtain ⟨hgrant, hown⟩ := validateResponseAction_ok (h.responses r hmem) halert heffect
  constructor
  · rintro ⟨⟨capability, hcapability, hruntime, -⟩, ⟨contract, hcontract, hpermits⟩, hoffered, hbounded⟩
    exact ⟨⟨capability, hcapability, hruntime⟩, ⟨contract, hcontract, .inr hpermits⟩, .inr hoffered, hbounded⟩
  · rintro ⟨⟨capability, hcapability, hruntime⟩, ⟨contract, hcontract, hpermits⟩, hoffered, hbounded⟩
    refine ⟨⟨capability, hcapability, hruntime, hgrant capability hcapability⟩,
      ⟨contract, hcontract, hpermits.elim (hown contract hcontract) id⟩, ?_, hbounded⟩
    refine hoffered.elim (fun hprefix => h.capabilities _ (mem_foldl_addCapability ?_ (.inr ?_))) id
    · intro hempty
      have hempty : r.id = "" := hempty
      rw [hempty] at hprefix
      exact absurd hprefix (by decide +kernel)
    · exact List.mem_append_right _ (List.mem_filter.mpr ⟨List.mem_map_of_mem hmem, hprefix⟩)

/-- The actions of an accepted pack conform, those of its responses like those of its rules, exactly when
its enforcing responses meet what their checks leave open. -/
theorem enforcing_actions_conform_iff (h : validateRuntimePolicyPack celProgram pack snapshot node = .ok ()) :
    (∀ action ∈ enforcingActions snapshot pack, Conforms snapshot node action) ↔
      ∀ r ∈ enforcingResponses snapshot pack, LeftOpen snapshot node r := by
  have haccepted := accepted_of_ok h
  unfold enforcingActions
  rw [List.forall_mem_append, List.forall_mem_map, List.forall_mem_map]
  constructor
  · rintro ⟨-, hresponses⟩ r hr
    exact (haccepted.response_conforms_iff hr).mp (hresponses r hr)
  · intro hopen
    exact ⟨fun rule hrule => haccepted.rule_conforms hrule,
      fun r hr => (haccepted.response_conforms_iff hr).mpr (hopen r hr)⟩

/-- A capability whose contract, under another name, requires a lifetime. -/
def quarantineRegistry : RegistrySnapshot where
  refName := "registry"
  capabilities := [
    { id := "enforce.network.quarantine"
      severity := 3
      effect := "restrictive"
      actionContract := "contract.quarantine" }]
  actionContracts := [{ id := "contract.quarantine", effect := "restrictive", requiresTTL := true }]

/-- A response that quarantines without a lifetime. -/
def quarantinePack : RuntimePolicyPack where
  responseRules := [{ id := "isolate", actions := [{ id := "enforce.network.quarantine" }] }]

def quarantineNode : NodeRuntime where
  nodeID := "node"
  capabilities := ["enforce.network.quarantine"]
  maxAction := "block"
  supportedPDPModes := []

theorem quarantine_accepted :
    validateRuntimePolicyPack (fun _ => .ok ()) quarantinePack quarantineRegistry quarantineNode = .ok
    () := by
  decide +kernel

theorem quarantine_conforms_iff :
    (∀ action ∈ enforcingActions quarantineRegistry quarantinePack,
      Conforms quarantineRegistry quarantineNode action) ↔
    ∀ r ∈ enforcingResponses quarantineRegistry quarantinePack,
    LeftOpen quarantineRegistry quarantineNode r :=
  enforcing_actions_conform_iff quarantine_accepted

/-- The same action in a rule is refused. -/
theorem quarantine_rule_refused : validateRuntimeActionSpec quarantineRegistry
    { capability := "enforce.network.quarantine" } = .error
    "action contract \"contract.quarantine\" requires ttl" := by
  decide +kernel

theorem response_without_lifetime_accepted : ¬ ∀ (celProgram : String → Check) (pack : RuntimePolicyPack)
    (snapshot : RegistrySnapshot) (node : NodeRuntime),
    validateRuntimePolicyPack celProgram pack snapshot node = .ok () →
      ∀ action ∈ enforcingActions snapshot pack, Conforms snapshot node action := by
  intro h
  have hmem : { capability := "enforce.network.quarantine" } ∈ enforcingActions quarantineRegistry
      quarantinePack := by
    decide +kernel
  have hconforms := h _ _ _ _ quarantine_accepted _ hmem
  have haccepted := validateRuntimeActionSpec_ok.mpr ⟨by decide +kernel, hconforms.known, hconforms.permitted⟩
  rw [quarantine_rule_refused] at haccepted
  cases haccepted

end Rules

end Kernloom
