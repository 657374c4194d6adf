import Kernloom.RuntimePolicy

/-! The checks a policy pack passes before a node takes it: known capabilities, context keys,
action contracts and response rules, and rules within the ceiling of the node. -/

namespace Kernloom

section ContextRefs

def contextRoots : List String :=
  ["subject", "device", "session", "resource", "environment", "workload", "network"]

def isLower (c : Char) : Bool := 'a' ≤ c ∧ c ≤ 'z'

/-- The rest of a dotted key. -/
def keyTail : List Char → List Char
  | [] => []
  | c :: cs =>
    if isLower c || c.isDigit || c = '_' then c :: keyTail cs
    else if c = '.' ∧ cs.head?.any isLower then c :: keyTail cs
    else []

def contextKeyAt (cs : List Char) : Option (List Char) :=
  contextRoots.findSome? fun root =>
    let start := (root ++ ".").toList
    match start.isPrefixOf cs, cs.drop start.length with
    | true, c :: rest => if isLower c then some (start ++ c :: keyTail rest) else none
    | _, _ => none

def isKeyChar (c : Char) : Bool := c.isAlphanum || c = '_' || c = '.'

/-- A key starts the text or follows a character no key contains; `skip` characters belong to the
last key found. -/
def scanContextRefs : (start : Bool) → (skip : Nat) → List Char → List (List Char)
  | _, _, [] => []
  | _, skip + 1, _ :: cs => scanContextRefs false skip cs
  | start, 0, c :: cs =>
    match if start then contextKeyAt (c :: cs) else none with
    | some key => key :: scanContextRefs false (key.length - 1) cs
    | none =>
      match if isKeyChar c then none else contextKeyAt cs with
      | some key => key :: scanContextRefs false key.length cs
      | none => scanContextRefs false 0 cs

/-- The context keys an expression mentions. -/
@[irreducible] def contextRefs (expr : String) : List String :=
  (scanContextRefs true 0 expr.toList).map String.ofList

example : contextRefs "device.posture.ok && x.subject.id || (session.age2 > 3)" =
    ["device.posture.ok", "session.age2"] := by decide +kernel

end ContextRefs

section Registry

variable (snapshot : RegistrySnapshot)

/-- The last entry with an identifier counts, as in a map filled in order. -/
def lastEntry {α : Type} (entries : List α) (id : α → String) (wanted : String) : Option α :=
  (entries.filter fun e => id e = wanted).getLast?

def capabilityEntry (id : String) : Option CapabilityEntry :=
  lastEntry snapshot.capabilities CapabilityEntry.id id

def actionContract (id : String) : Option RuntimeActionContractEntry :=
  lastEntry snapshot.actionContracts RuntimeActionContractEntry.id id

def actionLevel (id : String) : Option Int :=
  (lastEntry snapshot.actionLevels ActionLevelEntry.id id).map ActionLevelEntry.maxSeverity

def runtimeActionSeverity (action : RuntimeActionSpec) : Int :=
  let sev := (capabilitySeverityFromSnapshot snapshot).get action.capability
  if action.level ≠ "" then max sev ((actionLevel snapshot action.level).getD sev) else sev

def maxActionSeverity (maxAction : String) : Int :=
  match actionLevel snapshot maxAction with
  | some sev => sev
  | none =>
    if maxAction = "observe" then 0
    else if maxAction = "rate_limit" then 1
    else if maxAction = "rate_limit_hard" then 2
    else 3

end Registry

section Checks

abbrev Check := Except String Unit

def check (p : Prop) [Decidable p] (message : String) : Check :=
  if p then .ok () else .error message

theorem check_bind_ok {c d : Check} : (c >>= fun _ => d) = .ok () ↔ c = .ok () ∧ d = .ok () := by
  cases c with
  | error err => simp [bind, Except.bind]
  | ok u => simp [bind, Except.bind]

theorem check_eq_ok {p : Prop} [Decidable p] {message : String} : check p message = .ok () ↔ p := by
  by_cases hp : p <;> simp [check, hp]

theorem forM_check_ok {α : Type} {f : α → Check} {as : List α} :
    as.forM f = .ok () ↔ ∀ a ∈ as, f a = .ok () := by
  induction as with
  | nil => simp [List.forM, pure, Except.pure]
  | cons a as ih =>
    have hcons : (a :: as).forM f = (f a >>= fun _ => as.forM f) := rfl
    rw [hcons, check_bind_ok, ih, List.forall_mem_cons]

/-- `celProgram` parses an expression and builds its program. -/
def compile (celProgram : String → Check) (pack : RuntimePolicyPack) : Check := do
  check (pack.apiVersion = runtimeAPIVersion)
    ("runtimepdp: unsupported policy apiVersion " ++ quote pack.apiVersion)
  check (pack.kind = kindRuntimePolicyPack) ("runtimepdp: unsupported policy kind " ++ quote pack.kind)
  (effectiveRules pack).forM fun rule => do
    check (rule.when ≠ "") ("runtimepdp: rule " ++ quote rule.id ++ " has empty when expression")
    match celProgram rule.when with
    | .error err => .error ("runtimepdp: parse rule " ++ quote rule.id ++ ": " ++ err)
    | .ok () => .ok ()

def validateKnownContextRefs (pack : RuntimePolicyPack) (snapshot : RegistrySnapshot) : Check :=
  (effectiveRules pack).forM fun rule =>
    (contextRefs rule.when).forM fun key =>
      check (key ∈ snapshot.contextKeys)
        ("runtime rule " ++ quote rule.id ++ " references unknown context key " ++ quote key)

def parseOptionalDuration (value : String) : Except String Duration :=
  if trimSpace value = "" then .ok 0 else parseDuration (trimSpace value)

/-- The lifetime of an action against its contract; `name` is what the errors call the contract. -/
def validateTTL (name : String) (contract : RuntimeActionContractEntry) (ttl : Duration) : Check := do
  check (¬ (contract.requiresTTL ∧ ttl ≤ 0)) (name ++ " requires ttl")
  match parseOptionalDuration contract.maxTTL with
  | .error err => .error (name ++ " maxTTL: " ++ err)
  | .ok maxTTL =>
    check (¬ (0 < maxTTL ∧ maxTTL < ttl))
      (name ++ " ttl " ++ durationText ttl ++ " exceeds maxTTL " ++ durationText maxTTL)

def validateRuntimeActionSpec (snapshot : RegistrySnapshot) (action : RuntimeActionSpec) : Check := do
  check (trimSpace action.capability ≠ "") "action capability is required"
  let name := quote action.capability
  match capabilityEntry snapshot action.capability with
  | none => .error ("unknown runtime action capability " ++ name)
  | some capability => do
    check capability.runtimeAction ("capability " ++ name ++ " is not a runtime action")
    check (capability.effect ≠ "grant")
      ("capability " ++ name ++ " grants access and is not allowed in runtime packs")
    let contractID :=
      if capability.actionContract = "" then action.capability else capability.actionContract
    match actionContract snapshot contractID with
    | none =>
      .error ("capability " ++ name ++ " references unknown action contract " ++ quote contractID)
    | some contract => do
      let contractName := "action contract " ++ quote contract.id
      check contract.runtimeAllowed (contractName ++ " is not runtime allowed")
      check (¬ contract.canGrantAccess)
        (contractName ++ " can grant access and is not allowed in runtime packs")
      validateTTL contractName contract action.ttl

def validateRuntimeActions (pack : RuntimePolicyPack) (snapshot : RegistrySnapshot) : Check :=
  (effectiveRules pack).forM fun rule =>
    match validateRuntimeActionSpec snapshot rule.action with
    | .error err => .error ("runtime rule " ++ quote rule.id ++ ": " ++ err)
    | .ok () => .ok ()

def validSeverity (value : String) : Bool :=
  toLower (trimSpace value) ∈ ["low", "medium", "high", "critical"]

def detectionExists (ref : String) (detections : List String) : Bool :=
  ref ∈ detections || detections.any fun id => hasSuffix ref ("/" ++ id)

/-- The identifiers of a list are given and differ. -/
def checkIdentifiers (what : String) : (seen : List String) → List String → Check
  | _, [] => .ok ()
  | seen, id :: ids => do
    check (id ≠ "") (what ++ " id is required")
    check (id ∉ seen) ("duplicate " ++ what ++ " " ++ quote id)
    checkIdentifiers what (id :: seen) ids

def validateAlertAction (routes : List RuntimeAlertRoute) (action : RuntimeResponseAction) : Check := do
  match routes.find? (·.id = action.route) with
  | none => .error ("notify.alert.emit references unknown alert route " ++ quote action.route)
  | some route => do
    check (action.route ≠ "")
      ("notify.alert.emit references unknown alert route " ++ quote action.route)
    check (action.severity = "" ∨ validSeverity action.severity)
      ("notify.alert.emit has unsupported severity " ++ quote action.severity)
    check (¬ (action.dedupe ≤ 0 ∧ route.deduplicationWindow ≤ 0))
      "notify.alert.emit requires action dedupe or route deduplication.window"

def validateResponseAction (snapshot : RegistrySnapshot) (routes : List RuntimeAlertRoute)
    (action : RuntimeResponseAction) : Check := do
  check (trimSpace action.id ≠ "") "id is required"
  let name := "action " ++ quote action.id
  let capability := capabilityEntry snapshot action.id
  let contract := actionContract snapshot action.id
  check (¬ (capability = none ∧ contract = none)) ("unknown response " ++ name)
  if action.id = "notify.alert.emit" then validateAlertAction routes action
  else do
    check (capability.all (·.effect ≠ "grant"))
      (name ++ " grants access and is not allowed in runtime response")
    match contract with
    | none => .ok ()
    | some contract => do
      check (¬ contract.canGrantAccess)
        (name ++ " can grant access and is not allowed in runtime response")
      let effect := if contract.effect = "" then capability.elim "" (·.effect) else contract.effect
      -- Only a restrictive action is held to its contract.
      if effect ≠ "restrictive" then .ok ()
      else do
        check contract.runtimeAllowed (name ++ " is not runtime allowed")
        validateTTL name contract action.ttl

def validateResponseRule (snapshot : RegistrySnapshot) (pack : RuntimePolicyPack)
    (response : RuntimeResponseRule) : Check := do
  let name := "response rule " ++ quote response.id
  check (response.detection = "" ∨
      detectionExists response.detection (pack.detectionRules.map (·.id)))
    (name ++ " references unknown detection " ++ quote response.detection)
  check (response.actions ≠ []) (name ++ " has no actions")
  response.actions.zipIdx.forM fun action =>
    match validateResponseAction snapshot pack.alertRoutes action.1 with
    | .error err => .error (name ++ " action[" ++ itoa action.2 ++ "]: " ++ err)
    | .ok () => .ok ()

/-- A rule's identifier is checked just before the rule. -/
def validateResponses (snapshot : RegistrySnapshot) (pack : RuntimePolicyPack) :
    (seen : List String) → List RuntimeResponseRule → Check
  | _, [] => .ok ()
  | seen, response :: responses => do
    check (response.id ≠ "") "response rule id is required"
    check (response.id ∉ seen) ("duplicate response rule " ++ quote response.id)
    validateResponseRule snapshot pack response
    validateResponses snapshot pack (response.id :: seen) responses

def validateResponseRules (pack : RuntimePolicyPack) (snapshot : RegistrySnapshot) : Check := do
  checkIdentifiers "detection rule" [] (pack.detectionRules.map (·.id))
  checkIdentifiers "alert route" [] (pack.alertRoutes.map (·.id))
  validateResponses snapshot pack [] pack.responseRules

end Checks

section Node

/-- What a node offers to a pack. No capabilities means that they are not checked. -/
structure NodeRuntime where
  nodeID : String
  capabilities : List String
  maxAction : String
  supportedPDPModes : List String

/-- The capabilities of a pack under the names it gives them. -/
def Conformance.runtimePolicyCapabilities (pack : RuntimePolicyPack) : List String :=
  let required := pack.capabilitiesRequired ++ (effectiveRules pack).map (·.action.capability)
  let responses := (pack.responseRules.flatMap (·.actions)).map (·.id)
  (required ++ responses.filter (hasPrefix · "enforce.")).foldl addCapability []

def checkCapabilities (pack : RuntimePolicyPack) (node : NodeRuntime) (snapshot : RegistrySnapshot) :
    Check :=
  (Conformance.runtimePolicyCapabilities pack).forM fun cap => do
    check (node.capabilities = [] ∨ cap ∈ node.capabilities)
      ("required capability " ++ quote cap ++ " is unavailable")
    check (capabilitySeverityFromSnapshot snapshot cap).isSome
      ("runtime action capability " ++ quote cap ++ " is not supported")

def checkMaxAction (pack : RuntimePolicyPack) (maxAction : String) (snapshot : RegistrySnapshot) : Check :=
  (effectiveRules pack).forM fun rule =>
    check (runtimeActionSeverity snapshot rule.action ≤ maxActionSeverity snapshot maxAction)
      ("runtime action " ++ quote rule.action.capability ++ " level " ++ quote rule.action.level ++
        " exceeds node max_action " ++ quote maxAction)

def validateRuntimePolicyPack (celProgram : String → Check) (pack : RuntimePolicyPack)
    (snapshot : RegistrySnapshot) (node : NodeRuntime) : Check := do
  check (snapshot.refName ≠ "") "registry snapshot is required"
  compile celProgram pack
  validateKnownContextRefs pack snapshot
  validateRuntimeActions pack snapshot
  validateResponseRules pack snapshot
  checkCapabilities pack node snapshot
  checkMaxAction pack node.maxAction snapshot

end Node

end Kernloom
