import Kernloom.StateFile

/-! The writers of the state: each works on the one record in memory, and one of them rebuilds it. -/

namespace Kernloom

open JsonText

structure TuningScopeRef where
  adapterID : Text := []
  scope : Text := []
  key : Text := []

section Tuning

variable (F : Type)

structure TuningThresholds where
  packetsPerSecond : F
  synRate : F
  destinationPortChanges : F
  bytesPerSecond : F

structure TuningResult where
  newThresholds : TuningThresholds F
  adapterStats : TextMap F := .empty
  sampleCount : Int := 0
  cleanRatio : F
  phase : Text := []

/-- What the writers read off the configuration. -/
structure TuningCfg where
  profileName : Text := []
  scope : Option TuningScopeRef := none
  thresholds : TuningThresholds F
  autoK : F
  configHash : Text := []
  historyKeep : Int := 0
  bootstrapWindow : Text := []

end Tuning

section Updates

variable {F : Type} [Floats F]

def TextMap.set {α : Type} (m : TextMap α) (key : String) (a : α) : TextMap α := m.upsert (textOf key, a)

/-- A floating point constant of the source. -/
def floatLit (n : NumberText) : F := (Floats.parse n).getD Floats.zero

def sigmaFactor : F := floatLit ⟨['1', '.', '4', '8', '2', '6'], by decide⟩

def StateActive.zero : StateActive F := StateActive.codec.zero

def BootstrapInfo.zero : BootstrapInfo := {}

def StateFile.empty (version : Int) : StateFile F where
  version := version
  active := .zero

def medianMad (k : F) : TuneMeta F where
  method := textOf "median_mad"
  window := textOf "reservoir"
  k := k
  sigmaFactor := sigmaFactor

def thresholdsToTuningMetrics (t : TuningThresholds F) : TextMap (TuningMetricState F) :=
  let put (out : TextMap (TuningMetricState F)) (metric : String) (x : F) :=
    if Floats.isPositive x then TextMap.set out metric ⟨x⟩ else out
  let out := put .empty "network.packets_per_second" t.packetsPerSecond
  let out := put out "network.syn_rate" t.synRate
  let out := put out "network.destination_port_change_rate" t.destinationPortChanges
  put out "network.bytes_per_second" t.bytesPerSecond

def thresholdsToMetricThresholds (t : TuningThresholds F) : TextMap F :=
  .ofEntries ((thresholdsToTuningMetrics t).rows.map fun e => (e.1, e.2.threshold))

/-- The text of a history entry; `fixed4` is the format `%.4f`. -/
def autotuneNotes (fixed4 : F → Text) (dropRatio : F) (phase : Text) : Text :=
  textOf "autotune dropRatio=" ++ fixed4 dropRatio ++ textOf " phase=" ++ phase

/-- Rebuilds the active record: what is not named here is left at its zero value. -/
def applyAutotuneStateUpdate (fixed4 : F → Text) (st : Option (StateFile F)) (cfg : TuningCfg F)
    (bs : BootstrapInfo) (result : TuningResult F) (k dropRatio : F) (updatedAt : ZonedTime) : StateFile F :=
  let st := st.getD (.empty 1)
  let scope := cfg.scope.getD {}
  let rev := st.active.revision + 1
  let entry : StateHistory F :=
    { revision := rev
      atTime := updatedAt
      tuningScope := scope.key
      metricThresholds := thresholdsToMetricThresholds result.newThresholds
      adapterStats := TextMap.set result.adapterStats "k" k
      sampleCount := result.sampleCount
      cleanRatio := result.cleanRatio
      notes := autotuneNotes fixed4 dropRatio result.phase }
  let history := st.history.getD [] ++ [entry]
  let history :=
    if cfg.historyKeep < history.length ∧ 0 < cfg.historyKeep then
      history.drop (history.length - cfg.historyKeep.toNat)
    else history
  let scopes := st.active.tuningScopes
  let scopes :=
    if scope.key ≠ [] then scopes.upsert (scope.key,
      { adapterID := scope.adapterID
        scope := scope.scope
        profile := cfg.profileName
        revision := rev
        updatedAt := updatedAt
        metrics := thresholdsToTuningMetrics result.newThresholds
        tune := medianMad k
        sampleCount := result.sampleCount
        cleanRatio := result.cleanRatio
        notes := textOf "autotune" })
    else scopes
  { st with
    history := some history
    active :=
      { StateActive.zero with
        profile := cfg.profileName
        revision := rev
        updatedAt := updatedAt
        tune := medianMad k
        tuningScopes := scopes
        bootstrap := bs
        configHash := cfg.configHash
        sampleCount := result.sampleCount
        cleanRatio := result.cleanRatio
        notes := textOf "autotune" } }

def newBootstrapStateActive (cfg : TuningCfg F) (bs : BootstrapInfo) : StateActive F :=
  let one : F := floatLit ⟨['1'], by decide⟩
  let scopes : TextMap (TuningScopeState F) :=
    match cfg.scope with
    | none => .empty
    | some scope => Keyed.Table.upsert .empty (scope.key,
      { adapterID := scope.adapterID
        scope := scope.scope
        profile := cfg.profileName
        metrics := thresholdsToTuningMetrics cfg.thresholds
        tune := medianMad cfg.autoK
        cleanRatio := one
        notes := textOf "bootstrap initialized" })
  { StateActive.zero with
    profile := cfg.profileName
    tune := medianMad cfg.autoK
    tuningScopes := scopes
    bootstrap := bs
    configHash := cfg.configHash
    cleanRatio := one
    notes := textOf "bootstrap initialized" }

/-- What the control plane has the agent keep. -/
structure ForgeMemory where
  sessionToken : Text
  packIssuedAt : ZonedTime
  bundleGeneration : Int
  bundleHash : Text
  deriving DecidableEq

def StateFile.forgeMemory (st : StateFile F) : ForgeMemory where
  sessionToken := st.active.forgeSessionToken
  packIssuedAt := st.active.forgePackIssuedAt
  bundleGeneration := st.active.forgeBundleGeneration
  bundleHash := st.active.forgeBundleHash

end Updates

end Kernloom
