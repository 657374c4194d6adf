import Kernloom.ZonedTime
import Kernloom.JsonMap
import Kernloom.JsonNumber

/-! The state file: its records, the names of their fields, and its text. -/

namespace Kernloom

open JsonText

section Times

def timeChars : List Char := ['0', '1', '2', '3', '4', '5', '6', '7', '8', '9', '-', ':', 'T', '.', 'Z', '+']

theorem length_escape_timeChar : ∀ c ∈ timeChars, (escape (.char c)).length = 1 := by simp [timeChars, escape]

theorem digits_timeChars (width n : Nat) : ∀ c ∈ digits width n, c ∈ timeChars := by
  have hdigit : ∀ m < 10, Nat.digitChar m ∈ timeChars := by decide
  induction width generalizing n with
  | zero => simp [digits]
  | succ width ih =>
    intro c hc
    rcases List.mem_append.mp hc with hc | hc
    · exact ih _ c hc
    · rw [List.mem_singleton.mp hc]
      exact hdigit _ (Nat.mod_lt n (by decide))

theorem fraction_timeChars (nanos : Nat) : ∀ c ∈ fraction nanos, c ∈ timeChars := by
  intro c hc
  have hstripped : ∀ d ∈ ((digits 9 nanos).reverse.dropWhile (· = '0')).reverse, d ∈ timeChars := fun d hd =>
    digits_timeChars 9 nanos d (List.mem_reverse.mp ((List.dropWhile_sublist _).subset (List.mem_reverse.mp hd)))
  unfold fraction at hc
  split at hc
  · nomatch hc
  · rcases List.mem_cons.mp hc with rfl | hc
    · decide
    · exact hstripped c hc

theorem writeThree_timeChars {width a b c : Nat} {separator : Char} (h : separator ∈ timeChars) :
    ∀ d ∈ writeThree width separator a b c, d ∈ timeChars := by
  intro d hd
  simp only [writeThree, List.mem_append, List.mem_cons] at hd
  rcases hd with hd | rfl | hd | rfl | hd
  · exact digits_timeChars _ _ d hd
  · exact h
  · exact digits_timeChars _ _ d hd
  · exact h
  · exact digits_timeChars _ _ d hd

theorem writeOffset_timeChars (offset : Int) : ∀ c ∈ writeOffset offset, c ∈ timeChars := by
  intro c hc
  unfold writeOffset at hc
  split_ifs at hc
  all_goals
    simp only [List.mem_cons, List.mem_append, List.not_mem_nil, or_false] at hc
  · rw [hc]
    decide
  all_goals
    rcases hc with rfl | hc | rfl | hc
    · decide
    · exact digits_timeChars _ _ c hc
    · decide
    · exact digits_timeChars _ _ c hc

theorem writeTime_timeChars {t : ZonedTime} {cs : List Char} (h : writeTime t = some cs) : ∀ c ∈ cs, c ∈ timeChars := by
  unfold writeTime at h
  dsimp only at h
  split_ifs at h
  intro c hc
  rw [← Option.some.inj h] at hc
  simp only [List.mem_append, List.mem_cons] at hc
  rcases hc with hc | rfl | hc | hc | hc
  · exact writeThree_timeChars (by decide) c hc
  · decide
  · exact writeThree_timeChars (by decide) c hc
  · exact fraction_timeChars _ c hc
  · exact writeOffset_timeChars _ c hc

theorem length_writeString_timeChars {cs : List Char} (h : ∀ c ∈ cs, c ∈ timeChars) :
    (writeString (cs.map .char)).length = cs.length + 2 := by
  have hescaped : ((cs.map Rune.char).flatMap escape).length = cs.length := by
    induction cs with
    | nil => rfl
    | cons c cs ih =>
      obtain ⟨hc, hcs⟩ := List.forall_mem_cons.mp h
      rw [List.map_cons, List.flatMap_cons, List.length_append, length_escape_timeChar c hc, ih hcs, List.length_cons]
      omega
  simp [writeString, hescaped]

/-- The characters of a text without stray bytes. -/
def plainChars (s : Text) : Option (List Char) := s.mapM fun
  | .char c => some c
  | .invalid _ => none

theorem plainChars_chars (cs : List Char) : plainChars (readText (cs.map .char)) = some cs := by
  induction cs with
  | nil => rfl
  | cons c cs ih => exact mapM_cons_eq_some.mpr ⟨c, cs, rfl, ih, rfl⟩

/-- `omitempty` never leaves a time out, the zero time neither. -/
def ZonedTime.codec : Codec ZonedTime where
  zero := {}
  isEmpty _ := false
  encode t := (writeTime t).map fun cs => .str (cs.map .char)
  decode
    | .str s => (plainChars s).bind readTime
    | .null => some {}
    | _ => none
  read := ZonedTime.read
  Clean := ZonedTime.Clean
  Exact t := t.offset % 60 = 0
  Same t t' := t.instant = t'.instant
  decode_null := rfl
  decode_encode {t v} h := by
    obtain ⟨cs, hcs, rfl⟩ := Option.map_eq_some_iff.mp h
    simp only [Value.read, plainChars_chars, Option.bind_some, readTime_writeTime hcs]
  encode_read {t v} h := by
    obtain ⟨cs, hcs, rfl⟩ := Option.map_eq_some_iff.mp h
    obtain ⟨cs', hcs', hsame, hshorter⟩ := writeTime_read hcs
    refine ⟨_, by rw [hcs']; rfl, fun hclean => by rw [hsame hclean], fun hclean depth => ?_⟩
    have hlength := length_writeString_timeChars (writeTime_timeChars hcs)
    have hlength' := length_writeString_timeChars (writeTime_timeChars hcs')
    simp only [Value.write, hlength, hlength']
    exact Nat.add_lt_add_right (hshorter hclean) 2
  same_read {t} _ := read_instant_eq_iff t
  isEmpty_read _ := rfl
  of_isEmpty h := absurd h Bool.false_ne_true

end Times

section Records

variable (F : Type)

structure TrigState where
  trigPPS : F
  trigSyn : F
  trigScan : F
  trigBPS : F

structure TuneMeta where
  method : Text := []
  window : Text := []
  k : F
  sigmaFactor : F

structure TuningMetricState where
  threshold : F

structure TuningScopeState where
  adapterID : Text := []
  scope : Text := []
  profile : Text := []
  revision : Int := 0
  updatedAt : ZonedTime := {}
  metrics : TextMap (TuningMetricState F) := .empty
  tune : TuneMeta F
  sampleCount : Int := 0
  cleanRatio : F
  notes : Text := []

structure BootstrapInfo where
  enabled : Bool := false
  startedAt : ZonedTime := {}
  window : Text := []
  phase : Text := []
  observedSeconds : Nat := 0

structure StateActive where
  profile : Text := []
  revision : Int := 0
  updatedAt : ZonedTime := {}
  trig : Option (TrigState F) := none
  tune : TuneMeta F
  tuningScopes : TextMap (TuningScopeState F) := .empty
  bootstrap : BootstrapInfo := {}
  sampleCount : Int := 0
  cleanRatio : F
  notes : Text := []
  configHash : Text := []
  forgeSessionToken : Text := []
  forgePackName : Text := []
  forgePackIssuedAt : ZonedTime := {}
  forgePackHash : Text := []
  forgeBundleGeneration : Int := 0
  forgeBundleHash : Text := []
  graphLifecyclePhase : Text := []
  graphLifecycleStartedAt : ZonedTime := {}

structure StateHistory where
  revision : Int := 0
  atTime : ZonedTime := {}
  trig : Option (TrigState F) := none
  tuningScope : Text := []
  metricThresholds : TextMap F := .empty
  adapterStats : TextMap F := .empty
  sampleCount : Int := 0
  cleanRatio : F
  notes : Text := []

structure Integrity where
  sha256 : Text := []

structure StateFile where
  version : Int := 0
  generated : ZonedTime := {}
  active : StateActive F
  history : Option (List (StateHistory F)) := none
  integrity : Integrity := {}

end Records

section Codecs

variable {F : Type} [Floats F]

def TrigState.codec : Codec (TrigState F) :=
  .struct
    (.field "trig_pps" false .float <| .field "trig_syn" false .float <| .field "trig_scan" false .float <|
      .field "trig_bps" true .float .done)
    { toFun := fun s => (s.trigPPS, s.trigSyn, s.trigScan, s.trigBPS, ())
      invFun := fun (pps, syn, scan, bps, ()) => ⟨pps, syn, scan, bps⟩
      left_inv := fun _ => rfl
      right_inv := fun _ => rfl }

def TuneMeta.codec : Codec (TuneMeta F) :=
  .struct
    (.field "method" false .text <| .field "window" false .text <| .field "k" false .float <|
      .field "sigma_factor" false .float .done)
    { toFun := fun s => (s.method, s.window, s.k, s.sigmaFactor, ())
      invFun := fun (method, window, k, sigmaFactor, ()) => ⟨method, window, k, sigmaFactor⟩
      left_inv := fun _ => rfl
      right_inv := fun _ => rfl }

def TuningMetricState.codec : Codec (TuningMetricState F) :=
  .struct (.field "threshold" false .float .done)
    { toFun := fun s => (s.threshold, ())
      invFun := fun (threshold, ()) => ⟨threshold⟩
      left_inv := fun _ => rfl
      right_inv := fun _ => rfl }

def TuningScopeState.codec : Codec (TuningScopeState F) :=
  .struct
    (.field "adapter_id" false .text <| .field "scope" false .text <| .field "profile" true .text <|
      .field "revision" true .int <| .field "updated_at" true ZonedTime.codec <|
      .field "metrics" true (.map TuningMetricState.codec) <| .field "tune" true TuneMeta.codec <|
      .field "sample_count" true .int <| .field "clean_ratio" true .float <| .field "notes" true .text .done)
    { toFun := fun s => (s.adapterID, s.scope, s.profile, s.revision, s.updatedAt, s.metrics, s.tune,
        s.sampleCount, s.cleanRatio, s.notes, ())
      invFun := fun (adapterID, scope, profile, revision, updatedAt, metrics, tune, sampleCount, cleanRatio,
        notes, ()) => ⟨adapterID, scope, profile, revision, updatedAt, metrics, tune, sampleCount, cleanRatio, notes⟩
      left_inv := fun _ => rfl
      right_inv := fun _ => rfl }

def BootstrapInfo.codec : Codec BootstrapInfo :=
  .struct
    (.field "enabled" false .bool <| .field "started_at" false ZonedTime.codec <| .field "window" true .text <|
      .field "phase" true .text <| .field "observed_seconds" true .nat .done)
    { toFun := fun s => (s.enabled, s.startedAt, s.window, s.phase, s.observedSeconds, ())
      invFun := fun (enabled, startedAt, window, phase, observedSeconds, ()) =>
        ⟨enabled, startedAt, window, phase, observedSeconds⟩
      left_inv := fun _ => rfl
      right_inv := fun _ => rfl }

def StateActive.codec : Codec (StateActive F) :=
  .struct
    (.field "profile" false .text <| .field "revision" false .int <| .field "updated_at" false ZonedTime.codec <|
      .field "trig" true (.pointer TrigState.codec (Codec.struct_ne_null _ _)) <|
      .field "tune" false TuneMeta.codec <| .field "tuning_scopes" true (.map TuningScopeState.codec) <|
      .field "bootstrap" true BootstrapInfo.codec <| .field "sample_count" false .int <|
      .field "clean_ratio" false .float <| .field "notes" true .text <| .field "config_hash" true .text <|
      .field "forge_session_token" true .text <| .field "forge_pack_name" true .text <|
      .field "forge_pack_issued_at" true ZonedTime.codec <| .field "forge_pack_hash" true .text <|
      .field "forge_bundle_generation" true .int <| .field "forge_bundle_hash" true .text <|
      .field "graph_lifecycle_phase" true .text <| .field "graph_lifecycle_started_at" true ZonedTime.codec .done)
    { toFun := fun s => (s.profile, s.revision, s.updatedAt, s.trig, s.tune, s.tuningScopes, s.bootstrap,
        s.sampleCount, s.cleanRatio, s.notes, s.configHash, s.forgeSessionToken, s.forgePackName,
        s.forgePackIssuedAt, s.forgePackHash, s.forgeBundleGeneration, s.forgeBundleHash, s.graphLifecyclePhase,
        s.graphLifecycleStartedAt, ())
      invFun := fun (profile, revision, updatedAt, trig, tune, tuningScopes, bootstrap, sampleCount, cleanRatio,
        notes, configHash, forgeSessionToken, forgePackName, forgePackIssuedAt, forgePackHash,
        forgeBundleGeneration, forgeBundleHash, graphLifecyclePhase, graphLifecycleStartedAt, ()) =>
        ⟨profile, revision, updatedAt, trig, tune, tuningScopes, bootstrap, sampleCount, cleanRatio, notes,
          configHash, forgeSessionToken, forgePackName, forgePackIssuedAt, forgePackHash, forgeBundleGeneration,
          forgeBundleHash, graphLifecyclePhase, graphLifecycleStartedAt⟩
      left_inv := fun _ => rfl
      right_inv := fun _ => rfl }

def StateHistory.codec : Codec (StateHistory F) :=
  .struct
    (.field "revision" false .int <| .field "at" false ZonedTime.codec <|
      .field "trig" true (.pointer TrigState.codec (Codec.struct_ne_null _ _)) <|
      .field "tuning_scope" true .text <| .field "metric_thresholds" true (.map .float) <|
      .field "adapter_stats" true (.map .float) <| .field "sample_count" false .int <|
      .field "clean_ratio" false .float <| .field "notes" true .text .done)
    { toFun := fun s => (s.revision, s.atTime, s.trig, s.tuningScope, s.metricThresholds, s.adapterStats,
        s.sampleCount, s.cleanRatio, s.notes, ())
      invFun := fun (revision, atTime, trig, tuningScope, metricThresholds, adapterStats, sampleCount, cleanRatio,
        notes, ()) =>
        ⟨revision, atTime, trig, tuningScope, metricThresholds, adapterStats, sampleCount, cleanRatio, notes⟩
      left_inv := fun _ => rfl
      right_inv := fun _ => rfl }

def Integrity.codec : Codec Integrity :=
  .struct (.field "sha256" false .text .done)
    { toFun := fun s => (s.sha256, ())
      invFun := fun (sha256, ()) => ⟨sha256⟩
      left_inv := fun _ => rfl
      right_inv := fun _ => rfl }

def StateFile.codec : Codec (StateFile F) :=
  .struct
    (.field "version" false .int <| .field "generated_at" false ZonedTime.codec <| .field "active" false StateActive.codec <|
      .field "history" false (.slice StateHistory.codec) <| .field "integrity" false Integrity.codec .done)
    { toFun := fun s => (s.version, s.generated, s.active, s.history, s.integrity, ())
      invFun := fun (version, generated, active, history, integrity, ()) =>
        ⟨version, generated, active, history, integrity⟩
      left_inv := fun _ => rfl
      right_inv := fun _ => rfl }

/-- `json.MarshalIndent` with two blanks. -/
def StateFile.marshal (st : StateFile F) : Option (List Char) := (StateFile.codec.encode st).map (·.write 0)

/-- `json.Unmarshal` into an empty state. -/
def StateFile.unmarshal (raw : List Char) : Option (StateFile F) := (parse raw).bind StateFile.codec.decode

/-- The same state: times as instants, maps key by key, floating point numbers as numbers. -/
def StateFile.Same (st st' : StateFile F) : Prop := StateFile.codec.Same st st'

end Codecs

end Kernloom
