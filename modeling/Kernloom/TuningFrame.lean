import Kernloom.RollbackProtection
import Mathlib.Data.List.DropRight

/-! What an update by the autotuner leaves alone: the fields of the state that other parts of the agent
keep there, the scopes that were not tuned, and the newest entries of the history. -/

namespace Kernloom

open JsonText

/-- What the session with the control plane and the graph lifecycle keep in the active record. -/
structure ControlRecord where
  forgeSessionToken : Text := []
  forgePackName : Text := []
  forgePackIssuedAt : ZonedTime := {}
  forgePackHash : Text := []
  forgeBundleGeneration : Int := 0
  forgeBundleHash : Text := []
  graphLifecyclePhase : Text := []
  graphLifecycleStartedAt : ZonedTime := {}
  deriving DecidableEq

/-- The last entries of a history; a limit that is not positive is none. -/
def newest {α : Type} (historyKeep : Int) (history : List α) : List α :=
  if 0 < historyKeep then history.rtake historyKeep.toNat else history

/-- The test of the source before it cuts the history changes nothing. -/
theorem newest_eq {α : Type} (historyKeep : Int) (history : List α) : newest historyKeep history =
    if historyKeep < history.length ∧ 0 < historyKeep then
      history.drop (history.length - historyKeep.toNat)
    else history := by
  unfold newest
  by_cases hpos : 0 < historyKeep
  · rw [if_pos hpos, List.rtake]
    by_cases hlong : historyKeep < history.length
    · rw [if_pos ⟨hlong, hpos⟩]
    · have hall : history.length - historyKeep.toNat = 0 := by omega
      rw [if_neg fun h => hlong h.1, hall, List.drop_zero]
  · rw [if_neg hpos, if_neg fun h => hpos h.2]

section Frame

variable {F : Type}

def StateActive.control (active : StateActive F) : ControlRecord where
  forgeSessionToken := active.forgeSessionToken
  forgePackName := active.forgePackName
  forgePackIssuedAt := active.forgePackIssuedAt
  forgePackHash := active.forgePackHash
  forgeBundleGeneration := active.forgeBundleGeneration
  forgeBundleHash := active.forgeBundleHash
  graphLifecyclePhase := active.graphLifecyclePhase
  graphLifecycleStartedAt := active.graphLifecycleStartedAt

/-- What an update may do to the rest of the state: no scope but the tuned one has changed, the revision
is the next one, and the history has the new entry at its end and the newest ones before it. -/
structure NextRevision (cfg : TuningCfg F) (st st' : StateFile F) : Prop where
  version : st'.version = st.version
  scopes : ∀ e : Text × TuningScopeState F, e.1 ≠ (cfg.scope.getD {}).key →
    (e ∈ st'.active.tuningScopes ↔ e ∈ st.active.tuningScopes)
  revision : st'.active.revision = st.active.revision + 1
  history : ∃ entry : StateHistory F, entry.revision = st.active.revision + 1 ∧
    st'.history = some (newest cfg.historyKeep (st.history.getD [] ++ [entry]))

structure TouchesOnlyTuning (cfg : TuningCfg F) (st st' : StateFile F) :
    Prop extends NextRevision cfg st st' where
  control : st'.active.control = st.active.control

variable [Floats F]

theorem control_applyAutotuneStateUpdate (fixed4 : F → Text) (st : Option (StateFile F)) (cfg : TuningCfg F)
    (bs : BootstrapInfo) (result : TuningResult F) (k dropRatio : F) (updatedAt : ZonedTime) :
    (applyAutotuneStateUpdate fixed4 st cfg bs result k dropRatio updatedAt).active.control = {} := rfl

theorem applyAutotuneStateUpdate_next (fixed4 : F → Text) (st : Option (StateFile F)) (cfg : TuningCfg F)
    (bs : BootstrapInfo) (result : TuningResult F) (k dropRatio : F) (updatedAt : ZonedTime) :
    NextRevision cfg (st.getD (.empty 1))
      (applyAutotuneStateUpdate fixed4 st cfg bs result k dropRatio updatedAt) where
  version := rfl
  scopes e hne := by
    dsimp only [applyAutotuneStateUpdate]
    split_ifs
    · rw [Keyed.Table.mem_upsert]
      exact ⟨fun h => h.elim (fun heq => absurd (congrArg Prod.fst heq) hne) (·.1), fun h => .inr ⟨h, hne⟩⟩
    · rfl
  revision := rfl
  history := ⟨_, rfl, congrArg some (newest_eq _ _).symm⟩

end Frame

section Save

variable {F : Type} [Floats F] {sha256 : List Char → HexDigest}

variable (sha256) in
/-- A save changes no record of the state but the time and the digest. -/
theorem sealed_records (now : ZonedTime) (st : StateFile F) :
    let written := (sealState sha256 now st).elim { st with generated := now } (·.1)
    written.version = st.version ∧ written.active = st.active ∧ written.history = st.history := by
  cases hseal : sealState sha256 now st with
  | none => exact ⟨rfl, rfl, rfl⟩
  | some sealed =>
    obtain ⟨-, -, -, -, hsame⟩ := sealState_eq_some hseal
    exact ⟨(congrArg StateFile.version hsame :), (congrArg StateFile.active hsame :),
      (congrArg StateFile.history hsame :)⟩

theorem runOps_returnedNil {raw torn : List Char} {fate : FileOp → Fate} {dir : StateDir}
    (h : (runOps raw torn fate writeOps dir).1 = .returnedNil) :
    (runOps raw torn fate writeOps dir).2.path = some raw := by
  by_cases hdone : ∀ op ∈ prepareOps, fate op = .done
  · rw [runOps_prepared hdone] at h ⊢
    revert h
    cases hbackup : fate .backup <;> cases hreplace : fate .replace <;>
      simp [runOps, FileOp.effect, hbackup, hreplace]
    split_ifs <;> rfl
  · exact absurd h (runOps_stopped hdone dir).1

/-- A save that is done has left the state it keeps in memory at the path. -/
theorem saved_on_disk {now : ZonedTime} {st : StateFile F} {fate : FileOp → Fate} {torn : List Char}
    {dir : StateDir}
    (h : (writeStateAtomic sha256 now st fate torn dir).1 = .returnedNil) :
    (writeStateAtomic sha256 now st fate torn dir).2.path.bind StateFile.unmarshal =
      some ((sealState sha256 now st).elim { st with generated := now } (·.1)).read := by
  unfold writeStateAtomic at h ⊢
  cases hseal : sealState sha256 now st with
  | none => simp [hseal] at h
  | some sealed =>
    obtain ⟨sealed, raw⟩ := sealed
    obtain ⟨-, -, -, hraw, -⟩ := sealState_eq_some hseal
    simp only [hseal] at h ⊢
    rw [runOps_returnedNil h, Option.bind_some, unmarshal_marshal hraw]
    rfl

end Save

section Autotune

variable {ρ π κ F : Type} [Floats F] (services : AgentServices ρ π κ F) (settings : AgentSettings F)
  (a : AgentState ρ F) (result : TuningResult F) (k dropRatio : F) (updatedAt : ZonedTime) (w : Write)

/-- The update and its save leave everything but the tuning state as it was: in the state that the agent
keeps, and with it in the file once the save is done. -/
def AgentState.TunesOnly : Prop :=
  let updated := applyAutotuneStateUpdate services.fixed4 a.stFile settings.tuning a.bs result k dropRatio
    updatedAt
  let a' := a.autotune services settings result k dropRatio updatedAt w
  ∀ st', a'.stFile = some st' → TouchesOnlyTuning settings.tuning (a.stFile.getD (.empty 1)) st' ∧
    ((a.persist services w updated).1 = .returnedNil → a'.dir.path.bind StateFile.unmarshal = some st'.read)

/-- The update and its save write the next revision in every case; the record of the other parts is
zero afterwards. -/
theorem autotune_writes (hpath : settings.startup.cfg.statePath ≠ "") {st' : StateFile F}
    (h : (a.autotune services settings result k dropRatio updatedAt w).stFile = some st') :
    NextRevision settings.tuning (a.stFile.getD (.empty 1)) st' ∧ st'.active.control = {} ∧
      ((a.persist services w (applyAutotuneStateUpdate services.fixed4 a.stFile settings.tuning a.bs result k
          dropRatio updatedAt)).1 = .returnedNil →
        (a.autotune services settings result k dropRatio updatedAt w).dir.path.bind StateFile.unmarshal =
          some st'.read) := by
  rw [AgentState.autotune, if_neg hpath] at h ⊢
  generalize hupdated : applyAutotuneStateUpdate services.fixed4 a.stFile settings.tuning a.bs result k
    dropRatio
    updatedAt = updated at h ⊢
  have hnext : NextRevision settings.tuning (a.stFile.getD (.empty 1)) updated :=
    hupdated ▸ applyAutotuneStateUpdate_next _ _ _ _ _ _ _ _
  have hzero : updated.active.control = {} := hupdated ▸ control_applyAutotuneStateUpdate _ _ _ _ _ _ _ _
  obtain ⟨hversion, hactive, hhistory⟩ := sealed_records services.sha256 w.now updated
  dsimp only at h ⊢
  split_ifs at h ⊢
  obtain rfl := Option.some.inj h
  refine ⟨⟨?_, ?_, ?_, ?_⟩, ?_, fun hdone => saved_on_disk hdone⟩
  · exact hversion.trans hnext.version
  · rw [hactive]
    exact hnext.scopes
  · rw [hactive]
    exact hnext.revision
  · rw [hhistory]
    exact hnext.history
  · rw [hactive]
    exact hzero

theorem autotune_of_some {st : StateFile F} (hst : a.stFile = some st)
    (hpath : settings.startup.cfg.statePath ≠ "") :
    ∃ st', (a.autotune services settings result k dropRatio updatedAt w).stFile = some st' := by
  rw [AgentState.autotune, if_neg hpath]
  dsimp only
  rw [if_neg (by simp [hst])]
  exact ⟨_, rfl⟩

/-- An update by the autotuner touches only the tuning state exactly when the rest of the record is zero
before it. -/
theorem autotune_touches_only_tuning_iff (hpath : settings.startup.cfg.statePath ≠ "") :
    a.TunesOnly services settings result k dropRatio updatedAt w ↔
      (a.stFile.getD (.empty 1)).active.control = {} := by
  constructor
  · intro h
    cases hst : a.stFile with
    | none => rfl
    | some st =>
      obtain ⟨st', hst'⟩ := autotune_of_some services settings a result k dropRatio updatedAt w hst hpath
      obtain ⟨-, hzero, -⟩ := autotune_writes services settings a result k dropRatio updatedAt w hpath hst'
      rw [← hst, ← (h st' hst').1.control, hzero]
  · intro hzero st' hst'
    obtain ⟨hnext, hcontrol, hfile⟩ := autotune_writes services settings a result k dropRatio updatedAt w
      hpath hst'
    exact ⟨⟨hnext, hcontrol.trans hzero.symm⟩, hfile⟩

end Autotune

section Fixture

def tunedAgent (st : StateFile Int) : AgentState (String × RuntimeBundle) Int :=
  { emptyAgent with running := true, stFile := some st }

def tunedResult : TuningResult Int where
  newThresholds := ⟨900, 40, 12, 0⟩
  sampleCount := 50
  cleanRatio := 1
  phase := textOf "steady"

theorem first_state_tuned_only :
    (tunedAgent firstState).TunesOnly fixtureAgent fixtureSettings tunedResult 6 0 secondWrite {} ↔
      ((tunedAgent firstState).stFile.getD (.empty 1)).active.control = {} :=
  autotune_touches_only_tuning_iff fixtureAgent fixtureSettings (tunedAgent firstState) tunedResult 6 0
    secondWrite {}
    (by decide)

/-- An update after a pack was accepted loses the pack's name and issue time. -/
theorem pack_lost_by_autotune :
    ¬ (tunedAgent packState).TunesOnly fixtureAgent fixtureSettings tunedResult 6 0 secondWrite {} := by
  have hpath : fixtureSettings.startup.cfg.statePath ≠ "" := by decide
  obtain ⟨st', hst'⟩ := autotune_of_some fixtureAgent fixtureSettings (tunedAgent packState) tunedResult 6 0
    secondWrite {} rfl hpath
  obtain ⟨-, hzero, -⟩ := autotune_writes fixtureAgent fixtureSettings (tunedAgent packState) tunedResult 6 0
    secondWrite {} hpath hst'
  intro h
  have hkept : packState.active.control = {} := (h st' hst').1.control.symm.trans hzero
  exact absurd hkept (by decide)

end Fixture

end Kernloom
