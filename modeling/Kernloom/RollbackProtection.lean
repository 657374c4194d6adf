import Kernloom.AgentRestarts

/-! Rollback over restarts: when the issue times of the accepted packs and the generations of the
accepted bundles never fall. -/

namespace Kernloom

open JsonText Transition

variable {ρ π κ F : Type}

section Frames

/-- Nothing that acceptance goes by has changed. -/
structure SameRecord (a a' : AgentState ρ F) : Prop where
  issuedAt : a'.core.activeIssuedAt = a.core.activeIssuedAt
  ms : a'.core.node.ms = a.core.node.ms
  file : a'.core.node.bundleFile = a.core.node.bundleFile
  statePath : a'.core.node.cfg.statePath = a.core.node.cfg.statePath
  packs : a'.packs = a.packs
  generations : a'.generations = a.generations

theorem SameRecord.refl (a : AgentState ρ F) : SameRecord a a := ⟨rfl, rfl, rfl, rfl, rfl, rfl⟩

theorem SameRecord.trans {a a' a'' : AgentState ρ F} (h : SameRecord a a') (h' : SameRecord a' a'') :
    SameRecord a a'' :=
  ⟨h'.issuedAt.trans h.issuedAt, h'.ms.trans h.ms, h'.file.trans h.file, h'.statePath.trans h.statePath,
    h'.packs.trans h.packs, h'.generations.trans h.generations⟩

theorem SameRecord.bundleFile {a a' : AgentState ρ F} (h : SameRecord a a') (settings : AgentSettings F) :
    a'.bundleFile settings = a.bundleFile settings := by
  simp only [AgentState.bundleFile, h.file]

variable [Floats F] {services : AgentServices ρ π κ F} {settings : AgentSettings F}

theorem sameRecord_persist (w : Write) (st : StateFile F) (a : AgentState ρ F) :
    SameRecord a (a.persist services w st).2 := ⟨rfl, rfl, rfl, rfl, rfl, rfl⟩

theorem sameRecord_update (w : Write) (f : StateActive F → StateActive F) (a : AgentState ρ F) :
    SameRecord a (a.update services w f) := by
  unfold AgentState.update
  split
  · exact .refl a
  · exact sameRecord_persist _ _ _

theorem sameRecord_autotune (result : TuningResult F) (k dropRatio : F) (updatedAt : ZonedTime) (w : Write)
    (a : AgentState ρ F) : SameRecord a (a.autotune services settings result k dropRatio updatedAt w) := by
  unfold AgentState.autotune
  split_ifs
  · exact .refl a
  · dsimp only
    split_ifs
    · exact ⟨rfl, rfl, rfl, rfl, rfl, rfl⟩
    · exact sameRecord_persist _ _ _

theorem sameRecord_checkpoint (bs : BootstrapInfo) (w : Write) (a : AgentState ρ F) :
    SameRecord a (a.checkpoint services settings bs w) := by
  unfold AgentState.checkpoint
  have hbs : SameRecord a { a with bs := bs } := ⟨rfl, rfl, rfl, rfl, rfl, rfl⟩
  dsimp only
  split_ifs
  · exact hbs.trans (sameRecord_update _ _ _)
  · exact hbs

theorem sameRecord_graphTick (stats : Graph.GraphStats) (now : Time) (w : Write) (a : AgentState ρ F) :
    SameRecord a (a.graphTick services stats now w) := by
  unfold AgentState.graphTick
  dsimp only
  split_ifs
  · refine .trans ?_ (sameRecord_update _ _ _)
    exact ⟨rfl, rfl, rfl, rfl, rfl, rfl⟩
  · exact .refl a

theorem sameRecord_bootstrap (now : Time) (w : Write) (a : AgentState ρ F) :
    SameRecord a (a.bootstrap services settings now w) := by
  unfold AgentState.bootstrap
  dsimp only
  split_ifs
  · exact ⟨rfl, rfl, rfl, rfl, rfl, rfl⟩
  · refine .trans ?_ (sameRecord_persist _ _ _)
    exact ⟨rfl, rfl, rfl, rfl, rfl, rfl⟩
  · exact ⟨rfl, rfl, rfl, rfl, rfl, rfl⟩
  · exact ⟨rfl, rfl, rfl, rfl, rfl, rfl⟩

end Frames

section Bundles

variable (services : BundleServices ρ κ) (nodeID : String) (raw : ρ) (now : Time)

/-- What the update of the main loop does to the record: the bundle is taken, or the record stays. -/
theorem updateBundle_cases (s : HandoffState ρ) :
    (updateBundle services nodeID raw now s).activeIssuedAt = s.activeIssuedAt ∧
    ((updateBundle services nodeID raw now s).node.cfg.statePath = s.node.cfg.statePath) ∧
    ((∃ rb, (recordBundle services nodeID raw now s.node).1 = .accepted rb ∧
        Trusted services nodeID raw now s.node.cfg rb ∧ ¬ Stale services raw rb s.node.ms ∧
        (updateBundle services nodeID raw now s).node.ms = ⟨rb.generation, services.bundleHash raw⟩ ∧
        (updateBundle services nodeID raw now s).node.bundleFile =
          if s.node.cfg.statePath ≠ "" then some raw else s.node.bundleFile) ∨
      ((∀ rb, (recordBundle services nodeID raw now s.node).1 ≠ .accepted rb) ∧
        (updateBundle services nodeID raw now s).node.ms = s.node.ms ∧
        (updateBundle services nodeID raw now s).node.bundleFile = s.node.bundleFile)) := by
  unfold updateBundle takeBundle recordBundle
  rcases hgate : admitBundle services nodeID raw now s.node with ⟨outcome, n'⟩
  rcases admitBundle_cases hgate with ⟨rfl, -, rfl⟩ | ⟨reason, rfl, -, -, rfl⟩ | ⟨reason, rb, rfl, -, -, rfl⟩ |
    ⟨rb, rfl, -, htrust, hfresh, rfl⟩
  · dsimp only
    split <;> exact ⟨rfl, rfl, .inr ⟨fun _ h => (nomatch h), rfl, rfl⟩⟩
  · dsimp only
    split <;> exact ⟨rfl, rfl, .inr ⟨fun _ h => (nomatch h), rfl, rfl⟩⟩
  · dsimp only
    split <;> exact ⟨rfl, rfl, .inr ⟨fun _ h => (nomatch h), rfl, rfl⟩⟩
  · have hstatic : SameStatic s.node.cfg (bundleCfg rb (s.node.withSnapshot rb).severities
        (applyGraphLifecycle rb.graphLifecycle now s.node.graphCtl) s.node.cfg) := bundleCfg_static _ _ _
    exact ⟨rfl, hstatic.2.2.symm, .inl ⟨rb, rfl, htrust, hfresh, rfl, rfl⟩⟩

end Bundles

section Packs

variable {packs : PackServices π κ} {raw : π} {packName : String} {severities : Severities} {c c' : Cfg}
  {activeIssuedAt issuedAt : Time} {loaded : LoadedPolicyFile}

theorem applyForgePack_eq_ok
    (h : applyForgePack packs raw packName severities c activeIssuedAt = .ok (loaded, c', issuedAt)) :
    loadForgePack packs raw packName c = .ok loaded ∧ c' = applyLoadedPolicyToCfg severities loaded c ∧
      issuedAt = loaded.issuedAt.getD activeIssuedAt ∧
      ∀ t ∈ loaded.issuedAt, activeIssuedAt ≠ 0 → activeIssuedAt ≤ t := by
  obtain ⟨found, hload, h⟩ := bind_eq_ok.mp h
  cases hissued : found.issuedAt with
  | none =>
    rw [hissued] at h
    obtain ⟨rfl, hrest⟩ := Prod.mk.inj (Except.ok.inj h)
    obtain ⟨rfl, rfl⟩ := Prod.mk.inj hrest
    exact ⟨hload, rfl, by rw [hissued]; rfl, by rw [hissued]; nofun⟩
  | some newAt =>
    rw [hissued] at h
    dsimp only at h
    split_ifs at h with hrollback
    obtain ⟨rfl, hrest⟩ := Prod.mk.inj (Except.ok.inj h)
    obtain ⟨rfl, rfl⟩ := Prod.mk.inj hrest
    refine ⟨hload, rfl, by rw [hissued]; rfl, fun t ht hne => ?_⟩
    obtain rfl := Option.some.inj (hissued.symm.trans ht)
    exact not_lt.mp fun hlt => hrollback ⟨hne, hlt⟩

variable [Floats F] (services : AgentServices ρ π κ F)

theorem forgePack_cases (raw : π) (packName : String) (w : Write) (a : AgentState ρ F) :
    SameRecord a (a.forgePack services raw packName w) ∨
    ∃ loaded, loadForgePack services.packs raw packName a.core.node.cfg = .ok loaded ∧
      (∀ t ∈ loaded.issuedAt, a.core.activeIssuedAt ≠ 0 → a.core.activeIssuedAt ≤ t) ∧
      SameRecord { a with
          core := { a.core with activeIssuedAt := loaded.issuedAt.getD a.core.activeIssuedAt }
          packs := a.packs ++ [loaded.issuedAt] } (a.forgePack services raw packName w) := by
  unfold AgentState.forgePack
  cases happly : applyForgePack services.packs raw packName a.core.node.severities a.core.node.cfg
      a.core.activeIssuedAt with
  | error err => exact .inl (.refl a)
  | ok result =>
    obtain ⟨loaded, c, issuedAt⟩ := result
    obtain ⟨hload, hcfg, hissued, hfresh⟩ := applyForgePack_eq_ok happly
    have hstatic : c.statePath = a.core.node.cfg.statePath := by
      rw [hcfg]
      exact (applyLoadedPolicyToCfg_static _ _ _).2.2.symm
    refine .inr ⟨loaded, hload, hfresh, .trans ?_ (sameRecord_update _ _ _)⟩
    simp only [takeForgePack, happly]
    cases loaded.runtime with
    | none =>
      dsimp only
      split <;> exact ⟨hissued, rfl, rfl, hstatic, rfl, rfl⟩
    | some pack => exact ⟨hissued, rfl, rfl, hstatic, rfl, rfl⟩

end Packs

section Starts

/-- What the control plane finds in the state, if there is one. -/
def memoryOf (st : Option (StateFile F)) : ForgeMemory := st.elim ⟨[], {}, 0, []⟩ (·.forgeMemory)

theorem restoredIssuedAt_eq (settings : AgentSettings F) (st : Option (StateFile F)) :
    restoredIssuedAt settings st = if settings.forgeURL ≠ "" ∧ (memoryOf st).sessionToken ≠ [] then
      (memoryOf st).packIssuedAt.instant else 0 := by
  cases st with
  | none => exact (if_neg fun h => h.2 rfl).symm
  | some st => rfl

variable [Floats F] {services : AgentServices ρ π κ F} {settings : AgentSettings F} {nodeID : String} {now : Time}
  {a : AgentState ρ F}

theorem memoryOf_persist (w : Write) (st : StateFile F) (a : AgentState ρ F) :
    memoryOf (a.persist services w st).2.stFile = st.forgeMemory := by
  unfold AgentState.persist
  cases hseal : sealState services.sha256 w.now st with
  | none => rfl
  | some found =>
    obtain ⟨sealed, raw⟩ := found
    obtain ⟨-, -, -, -, heq⟩ := sealState_eq_some hseal
    have hactive : sealed.active = st.active := by
      have hsame := congrArg StateFile.active heq
      exact hsame
    simp only [memoryOf, StateFile.forgeMemory, Option.elim_some, hactive]

/-- The bootstrap of a start leaves alone what the control plane finds. -/
theorem memoryOf_bootstrap (now : Time) (w : Write) (a : AgentState ρ F) :
    memoryOf (a.bootstrap services settings now w).stFile = memoryOf (a.loaded services settings now) := by
  unfold AgentState.bootstrap
  dsimp only
  split_ifs
  · rfl
  · rw [memoryOf_persist]
    cases a.loaded services settings now <;> rfl
  · rfl
  · rfl

/-- The record of the bundle in force as a start restores it. -/
def restoredState (memory : ForgeMemory) : ManagedState := ⟨memory.bundleGeneration, plainString memory.bundleHash⟩

section Replays

variable (services : BundleServices ρ κ) (nodeID : String) (st : Startup) (saved : Option SavedState)

/-- A start takes the bundle on disk again, or goes by the state alone. -/
theorem start_of_file (raw : ρ) (now : Time) :
    (start services nodeID st saved (some raw) now).node.bundleFile = some raw ∧
    (start services nodeID st saved (some raw) now).node.cfg.statePath = st.cfg.statePath ∧
    ((∃ rb, (recordBundle services nodeID raw now (bootNode services st saved (some raw) now)).1 = .accepted rb ∧
        Trusted services nodeID raw now (startCfg services st (some raw) now) rb ∧
        ¬ Stale services raw rb (bootNode services st saved (some raw) now).ms ∧
        (start services nodeID st saved (some raw) now).node.ms = ⟨rb.generation, services.bundleHash raw⟩) ∨
      ((∀ rb, (recordBundle services nodeID raw now (bootNode services st saved (some raw) now)).1 ≠ .accepted rb) ∧
        (start services nodeID st saved (some raw) now).node.ms = (bootNode services st saved (some raw) now).ms)) := by
  have hpath : (startCfg services st (some raw) now).statePath = st.cfg.statePath :=
    (startCfg_static (some raw) now).2.2.symm
  have hbootCfg : (bootNode services st saved (some raw) now).cfg = startCfg services st (some raw) now := rfl
  have hbootFile : (bootNode services st saved (some raw) now).bundleFile = some raw := rfl
  have hnode : (bootState services st saved (some raw) now).node = bootNode services st saved (some raw) now := rfl
  obtain ⟨-, hstatic, hcases⟩ := updateBundle_cases services nodeID raw now
    (bootState services st saved (some raw) now)
  simp only [start, Option.elim_some, notePack]
  rw [hnode] at hstatic hcases
  generalize updateBundle services nodeID raw now (bootState services st saved (some raw) now) = t
    at hstatic hcases
  generalize bootNode services st saved (some raw) now = boot at *
  rw [hbootCfg] at hstatic hcases
  refine ⟨?_, hstatic.trans hpath, ?_⟩
  · rcases hcases with ⟨rb, -, -, -, -, hfile⟩ | ⟨-, -, hfile⟩
    · rw [hfile, hbootFile, ite_self]
    · rw [hfile, hbootFile]
  · rcases hcases with ⟨rb, haccept, htrust, hfresh, hms, -⟩ | ⟨hnone, hms, -⟩
    · exact .inl ⟨rb, haccept, htrust, hfresh, hms⟩
    · exact .inr ⟨hnone, hms⟩

theorem start_without_file (now : Time) :
    (start services nodeID st saved none now).node.bundleFile = none ∧
    (start services nodeID st saved none now).node.cfg.statePath = st.cfg.statePath ∧
    (start services nodeID st saved none now).node.ms = (bootNode services st saved none now).ms := by
  have hpath : (startCfg services st none now).statePath = st.cfg.statePath := (startCfg_static none now).2.2.symm
  have hbootCfg : (bootNode services st saved none now).cfg = startCfg services st none now := rfl
  have hbootFile : (bootNode services st saved none now).bundleFile = none := rfl
  have hnode : (bootState services st saved none now).node = bootNode services st saved none now := rfl
  simp only [start, Option.elim_none, notePack, hnode]
  exact ⟨hbootFile, hpath, trivial⟩

end Replays

/-- A bundle on disk that a start with this record takes again. -/
def Replays (services : BundleServices ρ κ) (nodeID : String) (st : Startup) (ms : ManagedState) (now : Time)
    (raw : ρ) (rb : RuntimeBundle) : Prop :=
  services.bundleHash raw ≠ ms.bundleHash ∧ Trusted services nodeID raw now (startCfg services st (some raw) now) rb ∧
    ¬ Stale services raw rb ms

theorem taken_eq_none {outcome : BundleOutcome} (h : ∀ rb, outcome ≠ .accepted rb) : outcome.taken = none := by
  cases outcome with
  | accepted rb => exact absurd rfl (h rb)
  | _ => rfl

theorem recordBundle_accepted_iff {bundles : BundleServices ρ κ} {raw : ρ} {n : Node ρ} {rb : RuntimeBundle} :
    (recordBundle bundles nodeID raw now n).1 = .accepted rb ↔ bundles.bundleHash raw ≠ n.ms.bundleHash ∧
      Trusted bundles nodeID raw now n.cfg rb ∧ ¬ Stale bundles raw rb n.ms := by
  constructor
  · intro h
    unfold recordBundle at h
    rcases hgate : admitBundle bundles nodeID raw now n with ⟨outcome, n'⟩
    rw [hgate] at h
    rcases admitBundle_cases hgate with ⟨rfl, -⟩ | ⟨_, rfl, -⟩ | ⟨_, _, rfl, -⟩ | ⟨rb', rfl, hhash, htrust, hfresh, -⟩
    · nomatch h
    · nomatch h
    · nomatch h
    · obtain rfl := BundleOutcome.accepted.inj h
      exact ⟨hhash, htrust, hfresh⟩
  · rintro ⟨hhash, htrust, hfresh⟩
    rw [recordBundle_accepts hhash htrust hfresh]

theorem start_cases (services : AgentServices ρ π κ F) (settings : AgentSettings F) (nodeID : String) (now : Time)
    (w : Write) (a : AgentState ρ F) {memory : ForgeMemory} (hmemory : memoryOf (a.loaded services settings now) = memory) :
    SameRecord a (a.start services settings nodeID now w) ∨
    (a.start services settings nodeID now w).packs = a.packs ∧
    (a.start services settings nodeID now w).core.activeIssuedAt =
      (if settings.forgeURL ≠ "" ∧ memory.sessionToken ≠ [] then memory.packIssuedAt.instant else 0) ∧
    (a.start services settings nodeID now w).core.node.cfg.statePath = settings.startup.cfg.statePath ∧
    (a.start services settings nodeID now w).core.node.bundleFile = a.bundleFile settings ∧
    ((∃ raw rb, a.bundleFile settings = some raw ∧
        Replays services.bundles nodeID settings.startup (restoredState memory) now raw rb ∧
        (a.start services settings nodeID now w).core.node.ms = ⟨rb.generation, services.bundles.bundleHash raw⟩ ∧
        (a.start services settings nodeID now w).generations = a.generations ++ [rb.generation]) ∨
      ((∀ raw rb, a.bundleFile settings = some raw →
          ¬ Replays services.bundles nodeID settings.startup (restoredState memory) now raw rb) ∧
        (a.start services settings nodeID now w).core.node.ms = restoredState memory ∧
        (a.start services settings nodeID now w).generations = a.generations)) := by
  have hboot : SameRecord a (a.bootstrap services settings now w) := sameRecord_bootstrap now w a
  have hfound : memoryOf (a.bootstrap services settings now w).stFile = memory :=
    (memoryOf_bootstrap now w a).trans hmemory
  unfold AgentState.start
  generalize a.bootstrap services settings now w = b at hboot hfound
  dsimp only
  have hfile : b.bundleFile settings = a.bundleFile settings := by
    simp only [AgentState.bundleFile, hboot.file]
  by_cases hrunning : b.running = true
  swap
  · rw [if_neg hrunning]
    exact .inl hboot
  have hms : ∀ file, (bootNode services.bundles settings.startup (b.stFile.map (·.saved)) file now).ms =
      restoredState memory := by
    intro file
    rw [← hfound]
    cases b.stFile <;> rfl
  rw [if_pos hrunning, restoredIssuedAt_eq, hfound, AgentState.replayed, hfile]
  refine .inr ⟨hboot.packs, rfl, ?_⟩
  cases a.bundleFile settings with
  | none =>
    obtain ⟨hkept, hpath, hafter⟩ := start_without_file services.bundles nodeID settings.startup
      (b.stFile.map (·.saved)) now
    have hnone : ∀ raw rb, (none : Option ρ) = some raw →
        ¬ Replays services.bundles nodeID settings.startup (restoredState memory) now raw rb :=
      fun _ _ h => absurd h (Option.some_ne_none _).symm
    refine ⟨hpath, hkept, .inr ⟨hnone, hafter.trans (hms none), ?_⟩⟩
    rw [Option.bind_none, Option.map_none, Option.toList_none, List.append_nil, hboot.generations]
  | some raw =>
    obtain ⟨hkept, hpath, hcases⟩ := start_of_file services.bundles nodeID settings.startup
      (b.stFile.map (·.saved)) raw now
    refine ⟨hpath, hkept, ?_⟩
    have hcfg : (bootNode services.bundles settings.startup (b.stFile.map (·.saved)) (some raw) now).cfg =
        startCfg services.bundles settings.startup (some raw) now := rfl
    rcases hcases with ⟨rb, haccept, htrust, hfresh, hafter⟩ | ⟨hnone, hafter⟩
    · obtain ⟨hhash, -, -⟩ := recordBundle_accepted_iff.mp haccept
      rw [hms] at hfresh hhash
      refine .inl ⟨raw, rb, rfl, ⟨hhash, htrust, hfresh⟩, hafter, ?_⟩
      simp only [Option.bind_some, haccept, BundleOutcome.taken, Option.map_some, Option.toList_some,
        hboot.generations]
    · refine .inr ⟨?_, hafter.trans (hms _), ?_⟩
      · rintro _ rb ⟨rfl⟩ ⟨hhash, htrust, hfresh⟩
        rw [← hms (some raw)] at hhash hfresh
        rw [← hcfg] at htrust
        exact hnone rb (recordBundle_accepted_iff.mpr ⟨hhash, htrust, hfresh⟩)
      · have hreplayed := taken_eq_none hnone
        simp only [Option.bind_some, hreplayed, Option.map_none, Option.toList_none, List.append_nil,
          hboot.generations]

end Starts

section Protection

/-- A pack may follow one that was accepted before it. -/
def Follows (earlier later : Option Time) : Prop := ∀ t, earlier = some t → ∃ t', later = some t' ∧ t ≤ t'

variable (services : AgentServices ρ π κ F) (settings : AgentSettings F)

/-- What has been accepted is in order, and what is in memory bounds it. -/
structure Protected (a : AgentState ρ F) : Prop where
  packs : a.packs.Pairwise Follows
  issuedAt : ∀ t, some t ∈ a.packs → a.core.activeIssuedAt ≠ 0 ∧ t ≤ a.core.activeIssuedAt
  generations : a.generations.Pairwise (· ≤ ·)
  generation : ∀ g ∈ a.generations, g ≤ a.core.node.ms.bundleGeneration
  file : a.generations ≠ [] → ∀ raw, a.bundleFile settings = some raw →
    ∃ rb, services.bundles.parseBundle raw = .ok rb ∧ rb.generation = a.core.node.ms.bundleGeneration
  statePath : a.core.node.cfg.statePath = settings.startup.cfg.statePath
  forge : a.packs ≠ [] → settings.forgeURL ≠ ""

variable {services settings} {a a' : AgentState ρ F}

theorem Protected.of_same (hp : Protected services settings a) (h : SameRecord a a') :
    Protected services settings a' where
  packs := by rw [h.packs]; exact hp.packs
  issuedAt := by rw [h.packs, h.issuedAt]; exact hp.issuedAt
  generations := by rw [h.generations]; exact hp.generations
  generation := by rw [h.generations, h.ms]; exact hp.generation
  file := by rw [h.generations, h.bundleFile, h.ms]; exact hp.file
  statePath := h.statePath.trans hp.statePath
  forge := by rw [h.packs]; exact hp.forge

theorem pairwise_concat {α : Type} {R : α → α → Prop} {l : List α} {x : α} (h : l.Pairwise R) (hx : ∀ y ∈ l, R y x) :
    (l ++ [x]).Pairwise R :=
  List.pairwise_append.mpr ⟨h, List.pairwise_singleton R x, fun y hy z hz => by
    rw [List.mem_singleton.mp hz]
    exact hx y hy⟩

theorem protected_installed (file : Option ρ) (dir : StateDir) :
    Protected services settings (AgentState.installed services settings file dir) where
  packs := .nil
  issuedAt _ h := nomatch h
  generations := .nil
  generation _ h := nomatch h
  file h := absurd rfl h
  statePath := (startCfg_static file 0).2.2.symm
  forge h := absurd rfl h

variable [Floats F] (services settings) (nodeID : String)

/-- What a step has to find: no pack without an issue time after one that had one, no pack of the zero
time and no bundle of a negative generation; and for a start a state file that is accepted and has, with
the session token, the issue time that was in memory, and the generation of the bundle in force, unless
the bundle on disk is taken again. -/
def Remembers (a : AgentState ρ F) : AgentEvent ρ π F → Prop
  | .forgePack raw packName _ => ∀ loaded, loadForgePack services.packs raw packName a.core.node.cfg = .ok loaded →
      loaded.issuedAt ≠ some 0 ∧ (loaded.issuedAt = none → ∀ t, some t ∉ a.packs)
  | .bundle raw _ _ => ∀ rb, services.bundles.parseBundle raw = .ok rb → 0 ≤ rb.generation
  | .start now _ =>
    ((∃ t, some t ∈ a.packs) → ∃ st, a.loaded services settings now = some st ∧
      st.active.forgeSessionToken ≠ [] ∧ st.active.forgePackIssuedAt.instant = a.core.activeIssuedAt) ∧
    (a.generations ≠ [] →
      (∃ st, a.loaded services settings now = some st ∧
        st.active.forgeBundleGeneration = a.core.node.ms.bundleGeneration) ∨
      ∃ raw rb, a.bundleFile settings = some raw ∧ Replays services.bundles nodeID settings.startup
        (restoredState (memoryOf (a.loaded services settings now))) now raw rb)
  | _ => True

variable {services settings nodeID}

theorem agentStep_forgePack {raw : π} {packName : String} {w : Write} (hrunning : a.running = true)
    (hurl : settings.forgeURL ≠ "") : AgentStep services settings nodeID a (.forgePack raw packName w)
      (a.forgePack services raw packName w) := by
  unfold AgentStep AgentState.step
  exact if_pos ⟨hrunning, hurl⟩

theorem Protected.forgePack (hp : Protected services settings a) {raw : π} {packName : String} {w : Write}
    (hforge : settings.forgeURL ≠ "") (h : Remembers services settings nodeID a (.forgePack raw packName w)) :
    Protected services settings (a.forgePack services raw packName w) := by
  rcases forgePack_cases services raw packName w a with hsame | ⟨loaded, hload, hfresh, hsame⟩
  · exact hp.of_same hsame
  obtain ⟨hzero, hnone⟩ := h loaded hload
  refine Protected.of_same ?_ hsame
  refine ⟨pairwise_concat hp.packs fun earlier he t ht => ?_, fun t ht => ?_, hp.generations, hp.generation,
    hp.file, hp.statePath, fun _ => hforge⟩
  · obtain ⟨hset, hle⟩ := hp.issuedAt t (ht ▸ he)
    cases hissued : loaded.issuedAt with
    | none => exact absurd (ht ▸ he) (hnone hissued t)
    | some t' => exact ⟨t', rfl, hle.trans (hfresh t' hissued hset)⟩
  · cases hissued : loaded.issuedAt with
    | none =>
      rw [hissued] at ht
      rcases List.mem_append.mp ht with ht | ht
      · exact absurd ht (hnone hissued t)
      · nomatch List.mem_singleton.mp ht
    | some t' =>
      rw [hissued] at ht
      refine ⟨fun heq => hzero (hissued.trans (congrArg some heq)), ?_⟩
      rcases List.mem_append.mp ht with ht | ht
      · obtain ⟨hset, hle⟩ := hp.issuedAt t ht
        exact hle.trans (hfresh t' hissued hset)
      · exact (Option.some.inj (List.mem_singleton.mp ht)).le

theorem Protected.bundle (hp : Protected services settings a) {raw : ρ} {now : Time} {w : Write}
    (h : Remembers services settings nodeID a (.bundle raw now w)) :
    Protected services settings (a.bundle services nodeID raw now w) := by
  unfold AgentState.bundle
  refine Protected.of_same ?_ (sameRecord_update _ _ _)
  obtain ⟨hissued, hpath, hcases⟩ := updateBundle_cases services.bundles nodeID raw now a.core
  rcases hcases with ⟨rb, haccept, htrust, hfresh, hms, hfile⟩ | ⟨hnone, hms, hfile⟩
  · have hge : a.core.node.ms.bundleGeneration ≤ rb.generation := by
      by_contra hlt
      have hnonneg := h rb htrust.1
      exact hfresh ⟨by omega, .inl (not_le.mp hlt)⟩
    have hgenerations : ((recordBundle services.bundles nodeID raw now a.core.node).1.taken.map
        RuntimeBundle.generation).toList = [rb.generation] := by
      rw [haccept]
      rfl
    rw [hgenerations]
    refine ⟨hp.packs, by rw [hissued]; exact hp.issuedAt, ?_, ?_, ?_, hpath.trans hp.statePath, hp.forge⟩
    · exact pairwise_concat hp.generations fun g hg => (hp.generation g hg).trans hge
    · intro g hg
      rw [hms]
      rcases List.mem_append.mp hg with hg | hg
      · exact (hp.generation g hg).trans hge
      · exact (List.mem_singleton.mp hg).le
    · intro _ raw' hraw'
      rw [hms]
      unfold AgentState.bundleFile at hraw'
      split_ifs at hraw' with hempty
      rw [hfile, if_pos (hp.statePath ▸ hempty)] at hraw'
      obtain rfl := Option.some.inj hraw'
      exact ⟨rb, htrust.1, rfl⟩
  · rw [taken_eq_none hnone]
    refine hp.of_same ⟨hissued, hms, hfile, hpath, rfl, ?_⟩
    exact List.append_nil _

theorem Protected.start (hp : Protected services settings a) {now : Time} {w : Write}
    (h : Remembers services settings nodeID a (.start now w)) :
    Protected services settings (a.start services settings nodeID now w) := by
  obtain ⟨hissueKept, hgenerationKept⟩ := h
  rcases start_cases services settings nodeID now w a rfl with hsame | ⟨hpacks, hissued, hpath, hfile, hcases⟩
  · exact hp.of_same hsame
  have hissuedAt : ∀ t, some t ∈ a.packs → (a.start services settings nodeID now w).core.activeIssuedAt =
      a.core.activeIssuedAt := by
    intro t ht
    obtain ⟨st, hload, htoken, hkept⟩ := hissueKept ⟨t, ht⟩
    have hurl := hp.forge (List.ne_nil_of_mem ht)
    rw [hissued, hload]
    exact (if_pos ⟨hurl, htoken⟩).trans hkept
  have hlast : (a.start services settings nodeID now w).bundleFile settings = a.bundleFile settings := by
    unfold AgentState.bundleFile at hfile ⊢
    rw [hfile]
    split_ifs <;> rfl
  have hpacks' : ∀ t, some t ∈ a.packs → (a.start services settings nodeID now w).core.activeIssuedAt ≠ 0 ∧
      t ≤ (a.start services settings nodeID now w).core.activeIssuedAt := by
    intro t ht
    rw [hissuedAt t ht]
    exact hp.issuedAt t ht
  rcases hcases with ⟨raw, rb, hraw, ⟨-, htrust, -⟩, hms, hgenerations⟩ | ⟨hnone, hms, hgenerations⟩
  · have hge : ∀ g ∈ a.generations, g ≤ rb.generation := by
      intro g hg
      obtain ⟨rb', hparse, hgeneration⟩ := hp.file (List.ne_nil_of_mem hg) raw hraw
      obtain rfl := Except.ok.inj (hparse.symm.trans htrust.1)
      exact hgeneration ▸ hp.generation g hg
    refine ⟨by rw [hpacks]; exact hp.packs, by rw [hpacks]; exact hpacks', ?_, ?_, ?_, hpath,
      by rw [hpacks]; exact hp.forge⟩
    · rw [hgenerations]
      exact pairwise_concat hp.generations hge
    · intro g hg
      rw [hgenerations] at hg
      rw [hms]
      rcases List.mem_append.mp hg with hg | hg
      · exact hge g hg
      · exact (List.mem_singleton.mp hg).le
    · intro _ raw' hraw'
      obtain rfl := Option.some.inj (hraw.symm.trans (hlast.symm.trans hraw'))
      rw [hms]
      exact ⟨rb, htrust.1, rfl⟩
  · have hkept : a.generations ≠ [] → (a.start services settings nodeID now w).core.node.ms.bundleGeneration =
        a.core.node.ms.bundleGeneration := by
      intro hne
      rcases hgenerationKept hne with ⟨st, hload, hgeneration⟩ | ⟨raw, rb, hraw, hreplays⟩
      · rw [hms, hload]
        exact hgeneration
      · exact absurd hreplays (hnone raw rb hraw)
    refine ⟨by rw [hpacks]; exact hp.packs, by rw [hpacks]; exact hpacks', by rw [hgenerations]; exact hp.generations,
      ?_, ?_, hpath, by rw [hpacks]; exact hp.forge⟩
    · intro g hg
      rw [hgenerations] at hg
      rw [hkept (List.ne_nil_of_mem hg)]
      exact hp.generation g hg
    · intro hne raw hraw
      rw [hgenerations] at hne
      rw [hkept hne]
      exact hp.file hne raw (hlast ▸ hraw)

theorem Protected.step (hp : Protected services settings a) {e : AgentEvent ρ π F}
    (h : Remembers services settings nodeID a e) (hstep : AgentStep services settings nodeID a e a') :
    Protected services settings a' := by
  unfold AgentStep AgentState.step at hstep
  cases e with
  | start now w =>
    rw [← Option.some.inj hstep]
    exact hp.start h
  | enroll token w =>
    dsimp only at hstep
    split_ifs at hstep
    rw [← Option.some.inj hstep]
    exact hp.of_same (sameRecord_update _ _ _)
  | forgePack raw packName w =>
    dsimp only at hstep
    split_ifs at hstep with hrunning
    rw [← Option.some.inj hstep]
    exact hp.forgePack hrunning.2 h
  | bundle raw now w =>
    dsimp only at hstep
    split_ifs at hstep
    rw [← Option.some.inj hstep]
    exact hp.bundle h
  | autotune result k dropRatio updatedAt w =>
    dsimp only at hstep
    split_ifs at hstep
    rw [← Option.some.inj hstep]
    exact hp.of_same (sameRecord_autotune _ _ _ _ _ _)
  | checkpoint bs w =>
    dsimp only at hstep
    split_ifs at hstep
    rw [← Option.some.inj hstep]
    exact hp.of_same (sameRecord_checkpoint _ _ _)
  | graphTick stats now w =>
    dsimp only at hstep
    split_ifs at hstep
    rw [← Option.some.inj hstep]
    exact hp.of_same (sameRecord_graphTick _ _ _ _)

/-- Over any packs, bundles, updates and starts that find what they have to, the packs that are accepted
follow one another and the generations of the accepted bundles do not fall. -/
theorem accepted_in_order {file : Option ρ} {dir : StateDir} {es : List (AgentEvent ρ π F)}
    (h : Run (Guarded (Remembers services settings nodeID) (AgentStep services settings nodeID))
      (AgentState.installed services settings file dir) es a) :
    a.packs.Pairwise Follows ∧ a.generations.Pairwise (· ≤ ·) := by
  have hprotected := h.invariant (protected_installed file dir) fun hp hstep => hp.step hstep.1 hstep.2
  exact ⟨hprotected.packs, hprotected.generations⟩

end Protection

section Fixture

def localPacks : PackServices LocalPolicyPack Unit where
  verifyPack _ _ := .ok ()
  loadPublicKey _ := .ok ()
  packKind _ := .ok "LocalPolicyPack"
  parseLocal pack := .ok pack
  parseRuntime _ := .error "not a runtime pack"

def packAt (t : Time) : LocalPolicyPack := { name := "edge", issuedAt := some t }

def fixtureAgent : AgentServices (String × RuntimeBundle) LocalPolicyPack Unit Int where
  bundles := fixtureServices
  packs := localPacks
  packHash _ := []
  sha256 := checksum
  fixed4 _ := []

def fixtureSettings : AgentSettings Int where
  startup := fixtureStartup
  forgeURL := "https://forge"
  tuning := { thresholds := ⟨0, 0, 0, 0⟩, autoK := 6 }

/-- Nothing on disk yet, and no bootstrap that would write a state. -/
def emptyAgent : AgentState (String × RuntimeBundle) Int := .installed fixtureAgent fixtureSettings none {}

abbrev FixtureAgentEvent := AgentEvent (String × RuntimeBundle) LocalPolicyPack Int

/-- Two starts with a pack after each; the second pack is the older one. -/
def restartEvents : List FixtureAgentEvent :=
  [.start 0 {}, .forgePack (packAt 20) "edge" {}, .start 0 {}, .forgePack (packAt 10) "edge" {}]

def runRestart : Option (AgentState (String × RuntimeBundle) Int) :=
  restartEvents.foldlM (AgentState.step fixtureAgent fixtureSettings "node-test") emptyAgent

theorem restart_facts : runRestart.map (·.packs) = some [some 20, some 10] := by decide +kernel

/-- The issue time of a pack that is applied before there is a state does not survive a start. -/
theorem older_pack_after_restart : ∃ a, Run (AgentStep fixtureAgent fixtureSettings "node-test") emptyAgent
    restartEvents a ∧ ¬ (a.packs.Pairwise Follows ∧ a.generations.Pairwise (· ≤ ·)) := by
  obtain ⟨a, hrun, hpacks⟩ := Option.map_eq_some_iff.mp restart_facts
  refine ⟨a, run_of_foldlM hrun, fun h => ?_⟩
  have hfollows := h.1
  rw [hpacks] at hfollows
  obtain ⟨t', ht', hle⟩ := (List.pairwise_cons.mp hfollows).1 (some 10) (List.mem_singleton_self _) 20 rfl
  obtain rfl := Option.some.inj ht'
  exact absurd hle (by decide)

def startedAgent : AgentState (String × RuntimeBundle) Int :=
  emptyAgent.start fixtureAgent fixtureSettings "node-test" 0 {}

def firstPackAgent : AgentState (String × RuntimeBundle) Int :=
  startedAgent.forgePack fixtureAgent (packAt 10) "edge" {}

def secondPackAgent : AgentState (String × RuntimeBundle) Int :=
  firstPackAgent.forgePack fixtureAgent (packAt 20) "edge" {}

theorem second_pack_facts : startedAgent.running = true ∧ firstPackAgent.running = true ∧
    loadForgePack localPacks (packAt 10) "edge" startedAgent.core.node.cfg = .ok (.localPack (packAt 10)) ∧
    loadForgePack localPacks (packAt 20) "edge" firstPackAgent.core.node.cfg = .ok (.localPack (packAt 20)) ∧
    secondPackAgent.packs = [some 10, some 20] := by
  decide +kernel

theorem second_pack_in_order : secondPackAgent.packs.length = 2 ∧
    (secondPackAgent.packs.Pairwise Follows ∧ secondPackAgent.generations.Pairwise (· ≤ ·)) := by
  obtain ⟨hstarted, hfirst, hload, hload', hpacks⟩ := second_pack_facts
  have hremembers : ∀ (a : AgentState (String × RuntimeBundle) Int) (t : Time), t ≠ 0 →
      loadForgePack localPacks (packAt t) "edge" a.core.node.cfg = .ok (.localPack (packAt t)) →
      Remembers fixtureAgent fixtureSettings "node-test" a (.forgePack (packAt t) "edge" {}) := by
    intro a t hne hloaded loaded hload
    obtain rfl := Except.ok.inj (hloaded.symm.trans hload)
    exact ⟨fun h => hne (Option.some.inj h), fun h => nomatch h⟩
  have hrun : Run (Guarded (Remembers fixtureAgent fixtureSettings "node-test")
      (AgentStep fixtureAgent fixtureSettings "node-test")) emptyAgent
      [.start 0 {}, .forgePack (packAt 10) "edge" {}, .forgePack (packAt 20) "edge" {}] secondPackAgent := by
    refine .cons (t := startedAgent) ⟨⟨?_, fun h => absurd rfl h⟩, rfl⟩ ?_
    · rintro ⟨t, ht⟩
      nomatch ht
    have hurl : fixtureSettings.forgeURL ≠ "" := by decide
    refine .cons (t := firstPackAgent) ⟨hremembers _ 10 (by decide) hload, agentStep_forgePack hstarted hurl⟩ ?_
    exact .singleton ⟨hremembers _ 20 (by decide) hload', agentStep_forgePack hfirst hurl⟩
  exact ⟨by rw [hpacks]; rfl, accepted_in_order hrun⟩

end Fixture

end Kernloom
