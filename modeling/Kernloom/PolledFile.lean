import Kernloom.Transition

/-! A file that is polled. The poller compares the modification time of the file with the one it recorded, and
reads the file when they differ; writers come in between at any step. -/

namespace PolledFile

open Transition

variable {α : Type}

structure Version (α : Type) where
  content : α
  modTime : Int
  deriving DecidableEq

/-- The file with its history, and the poller: what it last read, the time it recorded, and the time that it
found and has yet to read the file for. -/
structure World (α : Type) where
  file : Option (Version α)
  written : List (Version α)
  source : Option (Version α)
  modTime : Int
  found : Option Int

inductive Event (α : Type)
  | write (v : Version α)
  | remove
  | read
  | mark
  | poll
  | reload

/-- A poller that has read nothing. -/
def World.start (file : Option (Version α)) (never : Int) : World α := ⟨file, file.toList, none, never, none⟩

def World.step (w : World α) : Event α → Option (World α)
  | .write v => some { w with file := some v, written := w.written ++ [v] }
  | .remove => some { w with file := none }
  | .read => some { w with source := w.file.or w.source }
  | .mark => some { w with modTime := w.file.elim w.modTime Version.modTime }
  | .poll =>
    if w.found.isSome then none
    else some { w with found := (w.file.map Version.modTime).filter fun m => m ≠ w.modTime }
  | .reload =>
    w.found.map fun m =>
      { w with
        source := w.file.or w.source
        modTime := if w.file.isSome then m else w.modTime
        found := none }

def Step (w : World α) (e : Event α) (w' : World α) : Prop := w.step e = some w'

/-- Every version has a modification time of its own, and a time is recorded without reading only when the
file is the one that was read. -/
def Unraced (never : Int) (w : World α) : Event α → Prop
  | .write v => v.modTime ≠ never ∧ ∀ v' ∈ w.written, v'.modTime ≠ v.modTime
  | .mark => w.file = w.source
  | _ => True

/-- The recorded time is that of a version, and where it is that of the file the file was read. -/
structure Coherent (never : Int) (w : World α) : Prop where
  file : ∀ v ∈ w.file, v ∈ w.written
  recorded : w.modTime = never ∨ ∃ v ∈ w.written, v.modTime = w.modTime
  found : ∀ m ∈ w.found, ∃ v ∈ w.written, v.modTime = m
  source : ∀ v ∈ w.file, w.modTime = v.modTime → w.source = some v

variable {never : Int} {w w' : World α} {e : Event α} {es : List (Event α)}

/-- What a step leaves read. -/
theorem source_eq (h : Step w e w') : w'.source = match e with
    | .read | .reload => w.file.or w.source
    | _ => w.source := by
  cases e with
  | write v | remove | read | mark =>
    obtain rfl := Option.some.inj h
    rfl
  | poll =>
    unfold Step World.step at h
    dsimp only at h
    split_ifs at h
    obtain rfl := Option.some.inj h
    rfl
  | reload =>
    obtain ⟨m, -, rfl⟩ := Option.map_eq_some_iff.mp h
    rfl

theorem Coherent.start {file : Option (Version α)} (h : ∀ v ∈ file, v.modTime ≠ never) :
    Coherent never (.start file never) where
  file v hv := Option.mem_toList.mpr hv
  recorded := .inl rfl
  found m hm := by cases hm
  source v hv heq := absurd heq.symm (h v hv)

theorem Coherent.step (hw : Coherent never w) (h : Guarded (Unraced never) Step w e w') : Coherent never w' := by
  obtain ⟨hguard, hstep⟩ := h
  cases e with
  | write v =>
    obtain rfl := Option.some.inj hstep
    obtain ⟨hnever, hfresh⟩ := hguard
    have hold : ∀ {m : Int}, (∃ v' ∈ w.written, v'.modTime = m) → ∃ v' ∈ w.written ++ [v], v'.modTime = m :=
      fun ⟨v', hv', heq⟩ => ⟨v', List.mem_append_left _ hv', heq⟩
    refine ⟨fun v' hv' => ?_, hw.recorded.imp_right hold, fun m hm => hold (hw.found m hm), fun v' hv' heq => ?_⟩
    · rw [← Option.some.inj hv']
      exact List.mem_append_right _ (List.mem_singleton_self v)
    · obtain rfl := Option.some.inj hv'
      rcases hw.recorded with hrecorded | ⟨old, hold, hrecorded⟩
      · exact absurd (heq.symm.trans hrecorded) hnever
      · exact absurd (hrecorded.trans heq) (hfresh old hold)
  | remove =>
    obtain rfl := Option.some.inj hstep
    exact { hw with
      file := fun v hv => by cases hv
      source := fun v hv => by cases hv }
  | read =>
    obtain rfl := Option.some.inj hstep
    refine { hw with source := fun v hv _ => ?_ }
    have hfile : w.file = some v := hv
    rw [hfile, Option.some_or]
  | mark =>
    obtain rfl := Option.some.inj hstep
    refine { hw with recorded := ?_, source := fun v hv _ => hguard.symm.trans hv }
    cases hfile : w.file with
    | none => exact hw.recorded
    | some v => exact .inr ⟨v, hw.file v hfile, rfl⟩
  | poll =>
    unfold Step World.step at hstep
    dsimp only at hstep
    split_ifs at hstep
    obtain rfl := Option.some.inj hstep
    refine { hw with found := fun m hm => ?_ }
    obtain ⟨v, hv, heq⟩ := Option.map_eq_some_iff.mp (Option.filter_eq_some_iff.mp hm).1
    exact ⟨v, hw.file v hv, heq⟩
  | reload =>
    obtain ⟨m, hm, rfl⟩ := Option.map_eq_some_iff.mp hstep
    refine ⟨hw.file, ?_, fun m' hm' => absurd hm' (Option.not_mem_none m'), fun v hv _ => ?_⟩
    · dsimp only
      split_ifs
      · exact .inr (hw.found m hm)
      · exact hw.recorded
    · have hfile : w.file = some v := hv
      dsimp only
      rw [hfile, Option.some_or]

theorem Coherent.run (hw : Coherent never w) (h : Run (Guarded (Unraced never) Step) w es w') : Coherent never w' :=
  h.invariant hw fun hs hstep => hs.step hstep

/-- A poll of a file that is left alone ends with the file read. -/
theorem Coherent.poll (hw : Coherent never w) {v : Version α} (hfile : w.file = some v) (h : Step w .poll w') :
    w'.source = some v ∨ ∃ w'', Step w' .reload w'' ∧ w''.source = some v := by
  unfold Step World.step at h
  dsimp only at h
  split_ifs at h
  obtain rfl := Option.some.inj h
  by_cases hsame : w.modTime = v.modTime
  · exact .inl (hw.source v hfile hsame)
  · have hfound : (w.file.map Version.modTime).filter (fun m => m ≠ w.modTime) = some v.modTime := by
      rw [hfile]
      exact Option.filter_eq_some_iff.mpr ⟨rfl, decide_eq_true fun heq => hsame heq.symm⟩
    refine .inr ⟨_, Option.map_eq_some_iff.mpr ⟨v.modTime, hfound, rfl⟩, ?_⟩
    dsimp only
    rw [hfile, Option.some_or]

/-- A poll finds nothing while the recorded time is that of the file. -/
theorem poll_same {v : Version α} (hfile : w.file = some v) (hsame : w.modTime = v.modTime) (hfound : w.found = none)
    (h : Step w .poll w') : w' = w := by
  unfold Step World.step at h
  dsimp only at h
  split_ifs at h
  obtain rfl := Option.some.inj h
  have hnone : (w.file.map Version.modTime).filter (fun m => m ≠ w.modTime) = none := by
    rw [hfile, Option.map_some, Option.filter_eq_none_iff]
    intro m hm
    simp [← Option.some.inj hm, hsame]
  rw [hnone, ← hfound]

end PolledFile
