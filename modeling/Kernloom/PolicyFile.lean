import Kernloom.ManagedBundle

/-! Policy packs that arrive on their own: as the policy file of a start, or from Forge with
protection against packs issued earlier than the one in force. -/

namespace Kernloom

/-- A local policy pack. No allowed capabilities at all differs from an empty list of them. -/
structure LocalPolicyPack where
  apiVersion : String := "kernloom.io/kliq/v1alpha1"
  kind : String := "LocalPolicyPack"
  name : String
  issuedAt : Option Time := none
  allowedCapabilities : Option (List String) := none
  maxAction : String := ""
  allowLocalBlock : Bool := false
  capabilitiesRequired : List String := []
  ruleCount : Nat := 1
  deriving DecidableEq

inductive LoadedPolicyFile where
  | localPack (pack : LocalPolicyPack)
  | runtimePack (pack : RuntimePolicyPack)
  deriving DecidableEq

/-- The signature check and the parsers of pack files `ρ` under keys `κ`. -/
structure PackServices (ρ κ : Type) where
  verifyPack : ρ → κ → Check
  loadPublicKey : String → Except String κ
  packKind : ρ → Except String String
  parseLocal : ρ → Except String LocalPolicyPack
  parseRuntime : ρ → Except String RuntimePolicyPack

section Load

def LocalPolicyPack.validate (pp : LocalPolicyPack) : Check := do
  check (pp.apiVersion = "kernloom.io/kliq/v1alpha1")
    ("unsupported apiVersion " ++ quote pp.apiVersion ++ " (want \"kernloom.io/kliq/v1alpha1\")")
  check (pp.kind = "LocalPolicyPack")
    ("unsupported kind " ++ quote pp.kind ++ " (want \"LocalPolicyPack\")")
  check (pp.name ≠ "") "metadata.name is required"
  check (pp.allowedCapabilities ≠ none ∨
      pp.maxAction ∈ ["observe", "signal", "rate_limit", "rate_limit_hard", "block", ""])
    ("spec.autonomy.max_action " ++ quote pp.maxAction ++
      " is not valid (observe|rate_limit|rate_limit_hard|block)")
  check (0 < pp.ruleCount) "spec.rules must contain at least one rule"

variable {ρ κ : Type} (services : PackServices ρ κ)

def parseRuntimePolicyPack (raw : ρ) : Except String RuntimePolicyPack := do
  let pack ← services.parseRuntime raw
  check (pack.apiVersion = runtimeAPIVersion) ("unsupported apiVersion " ++ quote pack.apiVersion ++
    " (want " ++ quote runtimeAPIVersion ++ ")")
  check (pack.kind = kindRuntimePolicyPack) ("unsupported kind " ++ quote pack.kind ++
    " (want " ++ quote kindRuntimePolicyPack ++ ")")
  return pack

/-- An error under the name of the place it comes from. -/
def errorAt {α : Type} (place : String) : Except String α → Except String α
  | .error err => .error (place ++ ": " ++ err)
  | .ok a => .ok a

theorem errorAt_eq_ok {α : Type} {place : String} {x : Except String α} {a : α} :
    errorAt place x = .ok a ↔ x = .ok a := by
  cases x <;> simp [errorAt]

/-- Without a key the signature is not looked at. -/
def verifySignature (raw : ρ) : Option κ → Check
  | some key => services.verifyPack raw key
  | none => .ok ()

def parsePolicyFile (raw : ρ) (source kind : String) : Except String LoadedPolicyFile :=
  if kind = "LocalPolicyPack" then do
    let pp ← errorAt ("policy: parse " ++ source) (services.parseLocal raw)
    errorAt ("policy: validate " ++ source) pp.validate
    .ok (.localPack pp)
  else if kind = kindRuntimePolicyPack then do
    let pack ← errorAt ("policy: parse runtime pack " ++ source) (parseRuntimePolicyPack services raw)
    .ok (.runtimePack pack)
  else .error ("policy: unsupported kind " ++ quote kind ++ " in " ++ source)

def loadPolicyBytes (raw : ρ) (source : String) (key : Option κ) : Except String LoadedPolicyFile := do
  errorAt ("policy: " ++ source) (verifySignature services raw key)
  let kind ← errorAt ("policy: parse kind " ++ source) (services.packKind raw)
  parsePolicyFile services raw source kind

end Load

section Apply

def LoadedPolicyFile.issuedAt : LoadedPolicyFile → Option Time
  | localPack pp => pp.issuedAt
  | runtimePack pack => if pack.issuedAt = 0 then none else some pack.issuedAt

def LoadedPolicyFile.runtime : LoadedPolicyFile → Option RuntimePolicyPack
  | localPack _ => none
  | runtimePack pack => some pack

def deriveMaxAction (severities : Severities) (caps : List String) : String :=
  maxActionOfSeverity ((caps.map severities.get).foldl max 0)

/-- The allowed capabilities set the ceiling; without any, the autonomy section does. -/
def applyPolicyPackToCfg (severities : Severities) (pp : LocalPolicyPack) (c : Cfg) : Cfg :=
  let caps := pp.allowedCapabilities.getD []
  if caps ≠ [] then
    let maxAction := deriveMaxAction severities caps
    { c with
      capabilitiesRequired := caps.dedup
      policyMaxAction := maxAction
      graphFreezeAllowBlock := isBlockAllowed severities caps
      graphFreezeMaxAction := maxAction
      hasPolicyPack := true }
  else
    { c with
      policyMaxAction := if pp.maxAction ≠ "" then pp.maxAction else c.policyMaxAction
      graphFreezeMaxAction := if pp.maxAction ≠ "" then pp.maxAction else c.graphFreezeMaxAction
      graphFreezeAllowBlock := pp.allowLocalBlock
      capabilitiesRequired :=
        if pp.capabilitiesRequired ≠ [] then pp.capabilitiesRequired.dedup else c.capabilitiesRequired
      hasPolicyPack := true }

def applyLoadedPolicyToCfg (severities : Severities) (p : LoadedPolicyFile) (c : Cfg) : Cfg :=
  match p with
  | .localPack pp => applyPolicyPackToCfg severities pp c
  | .runtimePack pack => applyRuntimePolicyPackToCfg severities pack c

variable {ρ κ : Type} (services : PackServices ρ κ)

/-- A time to the second. -/
def rfc3339 (t : Time) : String := rfc3339Nano (t - t % Duration.second)

def loadForgePack (raw : ρ) (packName : String) (c : Cfg) : Except String LoadedPolicyFile :=
  let source := "forge pack " ++ packName
  if c.policyVerifyKeyPath ≠ "" then do
    let key ← errorAt "load verify key" (services.loadPublicKey c.policyVerifyKeyPath)
    errorAt ("load+verify " ++ source) (loadPolicyBytes services raw source (some key))
  else errorAt ("load " ++ source) (loadPolicyBytes services raw source none)

/-- A pack from Forge, written into the configuration; a zero issue time is none. -/
def applyForgePack (raw : ρ) (packName : String) (severities : Severities) (c : Cfg)
    (activeIssuedAt : Time) : Except String (LoadedPolicyFile × Cfg × Time) := do
  let loaded ← loadForgePack services raw packName c
  match loaded.issuedAt with
  | some newAt =>
    if activeIssuedAt ≠ 0 ∧ newAt < activeIssuedAt then
      .error ("rollback rejected: pack " ++ packName ++ " issued_at " ++ rfc3339 newAt ++
        " is before active pack issued_at " ++ rfc3339 activeIssuedAt)
    else .ok (loaded, applyLoadedPolicyToCfg severities loaded c, newAt)
  | none => .ok (loaded, applyLoadedPolicyToCfg severities loaded c, activeIssuedAt)

end Apply

end Kernloom
