import Kernloom.LastKnownGood
import Kernloom.StateUpdates
import Kernloom.StateWrites

/-! The agent over its restarts: packs and bundles are accepted, several writers share the state in
memory and on disk, and a start goes by what it finds there. -/

namespace Kernloom

open JsonText Transition

/-- One write of the state file: its time, and how far it gets. -/
structure Write where
  now : ZonedTime := {}
  fate : FileOp → Fate := fun _ => .done
  torn : List Char := []

structure AgentSettings (F : Type) where
  startup : Startup
  maxStateAge : Duration := 0
  forgeURL : String := ""
  tuning : TuningCfg F

structure AgentServices (ρ π κ F : Type) where
  bundles : BundleServices ρ κ
  packs : PackServices π κ
  packHash : π → Text
  sha256 : List Char → HexDigest
  fixed4 : F → Text

/-- The agent in memory and on disk, and on record the issue times of the packs and the generations of
the bundles it has accepted, oldest first. -/
structure AgentState (ρ F : Type) where
  running : Bool := false
  core : HandoffState ρ
  stFile : Option (StateFile F) := none
  bs : BootstrapInfo := {}
  dir : StateDir := {}
  packs : List (Option Time) := []
  generations : List Int := []

inductive AgentEvent (ρ π F : Type) where
  | start (now : Time) (w : Write)
  | enroll (token : Text) (w : Write)
  | forgePack (raw : π) (packName : String) (w : Write)
  | bundle (raw : ρ) (now : Time) (w : Write)
  | autotune (result : TuningResult F) (k dropRatio : F) (updatedAt : ZonedTime) (w : Write)
  | checkpoint (bs : BootstrapInfo) (w : Write)
  | graphTick (stats : Graph.GraphStats) (now : Time) (w : Write)

section Texts

/-- The string of a text; a file has no stray bytes once it is read. -/
def plainString (s : Text) : String := String.ofList (s.map Rune.read)

def Graph.Phase.text : Graph.Phase → String
  | .disabled => "disabled"
  | .learning => "learning"
  | .freezeReady => "freeze_ready"
  | .freezePending => "freeze_pending"
  | .frozenObserve => "frozen_observe"
  | .frozenEnforce => "frozen_enforce"
  | .unknown text => text

def Graph.Phase.ofText (text : String) : Option Graph.Phase :=
  if text = "" then none
  else some ((([.disabled, .learning, .freezeReady, .freezePending, .frozenObserve, .frozenEnforce] :
    List Graph.Phase).find? (·.text = text)).getD (.unknown text))

variable {F : Type}

/-- What a start reads off the state. -/
def StateFile.saved (st : StateFile F) : SavedState where
  bundleGeneration := st.active.forgeBundleGeneration
  bundleHash := plainString st.active.forgeBundleHash
  forgePackName := plainString st.active.forgePackName
  graphPhase := Graph.Phase.ofText (plainString st.active.graphLifecyclePhase)
  graphStartedAt := st.active.graphLifecycleStartedAt.instant
  bootstrap := some
    { enabled := st.active.bootstrap.enabled
      startedAt := st.active.bootstrap.startedAt.instant
      observedSeconds := st.active.bootstrap.observedSeconds }

end Texts

/-- The bundle that an update has taken. -/
def BundleOutcome.taken : BundleOutcome → Option RuntimeBundle
  | .accepted rb => some rb
  | _ => none

section Machine

variable {ρ π κ F : Type} [Floats F] (services : AgentServices ρ π κ F) (settings : AgentSettings F)
  (nodeID : String)

/-- A write of the state in memory; a process that stops in it has to be started again. -/
def AgentState.persist (w : Write) (st : StateFile F) (a : AgentState ρ F) : WriteResult × AgentState ρ F :=
  let (result, dir) := writeStateAtomic services.sha256 w.now st w.fate w.torn a.dir
  let written := (sealState services.sha256 w.now st).elim { st with generated := w.now } (·.1)
  (result, { a with stFile := some written, dir := dir, running := result ≠ .crashed })

/-- The writers that only change a record which is there. -/
def AgentState.update (w : Write) (f : StateActive F → StateActive F) (a : AgentState ρ F) : AgentState ρ F :=
  match a.stFile with
  | none => a
  | some st => (a.persist services w { st with active := f st.active }).2

def AgentState.bundleFile (a : AgentState ρ F) : Option ρ :=
  if settings.startup.cfg.statePath = "" then none else a.core.node.bundleFile

/-- The state a start loads; a changed configuration ends its bootstrap. -/
def AgentState.loaded (now : Time) (a : AgentState ρ F) : Option (StateFile F) :=
  if settings.startup.cfg.statePath = "" then none
  else (loadState services.sha256 settings.maxStateAge now a.dir).toOption.map fun st =>
    if st.active.configHash ≠ [] ∧ st.active.configHash ≠ settings.tuning.configHash then
      { st with active := { st.active with bootstrap := {} } }
    else st

/-- The bootstrap of a start: a session that has none yet is begun, and written. -/
def AgentState.bootstrap (now : Time) (w : Write) (a : AgentState ρ F) : AgentState ρ F :=
  let a := { a with running := true, stFile := a.loaded services settings now, bs := {} }
  if settings.startup.bootstrap then
    let found : BootstrapInfo := a.stFile.elim {} (·.active.bootstrap)
    let bs : BootstrapInfo := { found with enabled := true }
    if bs.startedAt.instant = 0 then
      let bs : BootstrapInfo := { bs with
        startedAt := w.now, window := settings.tuning.bootstrapWindow, phase := textOf "bootstrap-1" }
      let a := { a with bs := bs }
      if settings.startup.cfg.statePath = "" then a
      else
        let st : StateFile F := match a.stFile with
          | none =>
            { version := 2, active := newBootstrapStateActive settings.tuning bs, history := some [] }
          | some st =>
            { st with active := { st.active with bootstrap := bs, configHash := settings.tuning.configHash } }
        (a.persist services w st).2
    else { a with bs := bs }
  else a

/-- The bundle that a start takes from its disk again. -/
def AgentState.replayed (now : Time) (a : AgentState ρ F) : Option RuntimeBundle :=
  (a.bundleFile settings).bind fun raw =>
    (recordBundle services.bundles nodeID raw now (bootNode services.bundles settings.startup
      (a.stFile.map (·.saved)) (a.bundleFile settings) now)).1.taken

/-- The issue time comes back with the session. -/
def restoredIssuedAt : Option (StateFile F) → Time
  | some st =>
    if settings.forgeURL ≠ "" ∧ st.active.forgeSessionToken ≠ [] then st.active.forgePackIssuedAt.instant else 0
  | none => 0

/-- A start from the state and the bundle on disk. -/
def AgentState.start (now : Time) (w : Write) (a : AgentState ρ F) : AgentState ρ F :=
  let a := a.bootstrap services settings now w
  if a.running then
    let core := Kernloom.start services.bundles nodeID settings.startup (a.stFile.map (·.saved))
      (a.bundleFile settings) now
    { a with
      core := { core with activeIssuedAt := restoredIssuedAt settings a.stFile }
      generations := a.generations ++ ((a.replayed services settings nodeID now).map RuntimeBundle.generation).toList }
  else a

/-- The agent applies a pack, sends it on, and has the state keep it. -/
def AgentState.forgePack (raw : π) (packName : String) (w : Write) (a : AgentState ρ F) : AgentState ρ F :=
  match applyForgePack services.packs raw packName a.core.node.severities a.core.node.cfg a.core.activeIssuedAt with
  | .error _ => a
  | .ok (loaded, _, issuedAt) =>
    let t := takeForgePack services.packs raw packName a.core
    let core := match t.forgePending with
      | some pack => { t.offer pack with forgePending := none }
      | none => t
    let a := { a with core := core, packs := a.packs ++ [loaded.issuedAt] }
    a.update services w fun active =>
      { active with
        forgePackName := textOf packName, forgePackIssuedAt := ⟨issuedAt, 0⟩, forgePackHash := services.packHash raw }

/-- The main loop updates from a bundle and has the state keep what is then in force. -/
def AgentState.bundle (raw : ρ) (now : Time) (w : Write) (a : AgentState ρ F) : AgentState ρ F :=
  let accepted := (recordBundle services.bundles nodeID raw now a.core.node).1.taken
  let core := updateBundle services.bundles nodeID raw now a.core
  let a := { a with core := core, generations := a.generations ++ (accepted.map RuntimeBundle.generation).toList }
  a.update services w fun active =>
    { active with
      forgeBundleGeneration := core.node.ms.bundleGeneration, forgeBundleHash := textOf core.node.ms.bundleHash }

/-- Without a state so far, the one that is built counts only once it is written. -/
def AgentState.autotune (result : TuningResult F) (k dropRatio : F) (updatedAt : ZonedTime) (w : Write)
    (a : AgentState ρ F) : AgentState ρ F :=
  if settings.startup.cfg.statePath = "" then a
  else
    let st := applyAutotuneStateUpdate services.fixed4 a.stFile settings.tuning a.bs result k dropRatio updatedAt
    let (written, t) := a.persist services w st
    if a.stFile.isNone ∧ written ≠ .returnedNil then { t with stFile := none } else t

def AgentState.checkpoint (bs : BootstrapInfo) (w : Write) (a : AgentState ρ F) : AgentState ρ F :=
  let a := { a with bs := bs }
  if settings.startup.bootstrap ∧ bs.enabled ∧ settings.startup.cfg.statePath ≠ "" then
    a.update services w fun active =>
      { active with
        bootstrap := bs
        configHash := settings.tuning.configHash
        graphLifecyclePhase := textOf a.core.node.graphCtl.phase.text
        graphLifecycleStartedAt := ⟨a.core.node.graphCtl.startedAt, 0⟩ }
  else a

def AgentState.graphTick (stats : Graph.GraphStats) (now : Time) (w : Write) (a : AgentState ρ F) :
    AgentState ρ F :=
  let graphCtl := a.core.node.graphCtl.tick stats now
  if a.core.node.cfg.mode = "managed" ∧ graphCtl.phase ≠ a.core.node.graphCtl.phase then
    let a := { a with core := { a.core with node := { a.core.node with graphCtl := graphCtl } } }
    a.update services w fun active =>
      { active with
        graphLifecyclePhase := textOf graphCtl.phase.text
        graphLifecycleStartedAt := ⟨graphCtl.startedAt, 0⟩ }
  else a

/-- One step; only a start does without a running process. -/
def AgentState.step (a : AgentState ρ F) : AgentEvent ρ π F → Option (AgentState ρ F)
  | .start now w => some (a.start services settings nodeID now w)
  | .enroll token w =>
    if a.running ∧ token ≠ [] then
      some (a.update services w fun active => { active with forgeSessionToken := token })
    else none
  | .forgePack raw packName w =>
    if a.running ∧ settings.forgeURL ≠ "" then some (a.forgePack services raw packName w) else none
  | .bundle raw now w => if a.running then some (a.bundle services nodeID raw now w) else none
  | .autotune result k dropRatio updatedAt w =>
    if a.running then some (a.autotune services settings result k dropRatio updatedAt w) else none
  | .checkpoint bs w => if a.running then some (a.checkpoint services settings bs w) else none
  | .graphTick stats now w => if a.running then some (a.graphTick services stats now w) else none

def AgentStep (a : AgentState ρ F) (e : AgentEvent ρ π F) (a' : AgentState ρ F) : Prop :=
  a.step services settings nodeID e = some a'

/-- The agent before its first start, with what is on its disk. -/
def AgentState.installed (file : Option ρ) (dir : StateDir) : AgentState ρ F where
  core := bootState services.bundles settings.startup none file 0
  dir := dir

end Machine

end Kernloom
