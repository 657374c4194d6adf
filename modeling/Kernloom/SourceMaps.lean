import Kernloom.Netfilter
import Kernloom.Shield
import Kernloom.SourceExecutor
import Kernloom.Transition

/-! The source PEP of the shield: the rate-limit and deny maps it keeps for the sources of each
address family. A transition is two operations on the maps of the source, and each may fail. -/

namespace Kernloom

open Transition

inductive MapError where
  | keyNotExist
  | other (message : String)

def ignoreMissing : Option MapError → Option String
  | some (.other message) => some message
  | _ => none

section BpfMap

variable {κ α : Type} [DecidableEq κ]

/-- `Map.Delete`; `fault` is the kernel's refusal, if it refuses. -/
def BpfMap.delete (fault : Option String) (m : BpfMap κ α) (key : κ) : Option MapError × BpfMap κ α :=
  match fault with
  | some message => (some (.other message), m)
  | none => (if (m key).isNone then some .keyNotExist else none, Function.update m key none)

/-- `Map.Update` with `UpdateAny`. -/
def BpfMap.put (fault : Option String) (m : BpfMap κ α) (key : κ) (value : α) :
    Option String × BpfMap κ α :=
  match fault with
  | some message => (some message, m)
  | none => (none, Function.update m key (some value))

end BpfMap

/-- The operations a transition is made of. -/
inductive MapCall where
  | deleteRL | deleteDeny | updateRL | updateDeny

/-- The operations of one transition that the kernel refuses, and how. -/
abbrev KernelAnswers := MapCall → Option String

/-- The maps of one address family. One that is not loaded is missing. -/
structure SourceMaps (A : Type) where
  rl : Option (BpfMap A RlCfg) := none
  deny : Option (BpfMap A UInt8) := none

namespace SourceMaps

section Operations

variable {A α : Type} [DecidableEq A]

/-- Deletes an entry; one that is missing, or whose map is, needs no deletion. -/
def deleteEntry (what : String) (fault : Option String) (key : A) (m : Option (BpfMap A α)) :
    Fallible Unit × Option (BpfMap A α) :=
  match m with
  | none => (.ok (), none)
  | some m =>
    let (err, m) := BpfMap.delete fault m key
    match ignoreMissing err with
    | some message => (.error ("delete " ++ what ++ ": " ++ message), some m)
    | none => (.ok (), some m)

def updateEntry (what unavailable : String) (fault : Option String) (key : A) (value : α)
    (m : Option (BpfMap A α)) : Fallible Unit × Option (BpfMap A α) :=
  match m with
  | none => (.error unavailable, none)
  | some m =>
    match BpfMap.put fault m key value with
    | (some message, m) => (.error ("update " ++ what ++ ": " ++ message), some m)
    | (none, m) => (.ok (), some m)

end Operations

section Levels

variable {A : Type} [DecidableEq A] (family ip : String) (answers : KernelAnswers) (key : A)

def deleteRL (maps : SourceMaps A) : Fallible Unit × SourceMaps A :=
  let (r, rl) := deleteEntry (family ++ " rate-limit " ++ ip) (answers .deleteRL) key maps.rl
  (r, { maps with rl })

def deleteDeny (maps : SourceMaps A) : Fallible Unit × SourceMaps A :=
  let (r, deny) := deleteEntry (family ++ " deny " ++ ip) (answers .deleteDeny) key maps.deny
  (r, { maps with deny })

def updateRL (val : RlCfg) (maps : SourceMaps A) : Fallible Unit × SourceMaps A :=
  let what := family ++ " rate-limit " ++ ip ++ " rate=" ++ itoa val.ratePPS.toNat ++
    " burst=" ++ itoa val.burst.toNat
  let (r, rl) := updateEntry what (family ++ " rate-limit map unavailable") (answers .updateRL) key val
    maps.rl
  (r, { maps with rl })

def updateDeny (maps : SourceMaps A) : Fallible Unit × SourceMaps A :=
  let (r, deny) := updateEntry (family ++ " deny " ++ ip) (family ++ " deny map unavailable")
    (answers .updateDeny) key 1 maps.deny
  (r, { maps with deny })

/-- Two operations, the second of them only when the first succeeds. -/
def inOrder (first second : SourceMaps A → Fallible Unit × SourceMaps A) (maps : SourceMaps A) :
    Fallible Unit × SourceMaps A :=
  match first maps with
  | (.ok (), maps) => second maps
  | (.error err, maps) => (.error err, maps)

/-- The operations that move a source to a level. -/
def applyLevel (p : EnforcementParams) : Level → SourceMaps A → Fallible Unit × SourceMaps A
  | .observe => inOrder (deleteRL family ip answers key) (deleteDeny family ip answers key)
  | .soft => inOrder (deleteDeny family ip answers key)
      (updateRL family ip answers key ⟨p.softRate, p.softBurst⟩)
  | .hard => inOrder (deleteDeny family ip answers key)
      (updateRL family ip answers key ⟨p.hardRate, p.hardBurst⟩)
  | .block => inOrder (deleteRL family ip answers key) (updateDeny family ip answers key)

end Levels

end SourceMaps

/-- The maps of the shield that the source PEP writes. -/
structure ShieldMaps where
  v4 : SourceMaps Addr4 := {}
  v6 : SourceMaps Addr6 := {}

/-- The source PEP of the shield. -/
structure ShieldPEP where
  maps : Option ShieldMaps
  dryRun : Bool := false

namespace ShieldPEP

/-- What the transitions of the two address families have in common; `applied` is the operations
on the maps. -/
def transition (a : ShieldPEP) (applied : ShieldMaps → Fallible Unit × ShieldMaps) (st : FsmState)
    (target : Level) (now : Time) (p : EnforcementParams) : Fallible FsmState × ShieldPEP :=
  if a.dryRun then (.ok (applyStateFields st target now p), a)
  else
    match a.maps with
    | none => (.error "klshield maps unavailable", a)
    | some maps =>
      match applied maps with
      | (.error err, maps) => (.error err, { a with maps := some maps })
      | (.ok (), maps) => (.ok (applyStateFields st target now p), { a with maps := some maps })

def transitionV4 (a : ShieldPEP) (answers : KernelAnswers) (ip : Addr4) (st : FsmState) (target : Level)
    (now : Time) (p : EnforcementParams) : Fallible FsmState × ShieldPEP :=
  a.transition (fun maps =>
    let (r, v4) := SourceMaps.applyLevel "v4" (ipString4 ip) answers ip p target maps.v4
    (r, { maps with v4 })) st target now p

def transitionV6 (a : ShieldPEP) (answers : KernelAnswers) (ip : Addr6) (st : FsmState) (target : Level)
    (now : Time) (p : EnforcementParams) : Fallible FsmState × ShieldPEP :=
  a.transition (fun maps =>
    let (r, v6) := SourceMaps.applyLevel "v6" (ipString ip) answers ip p target maps.v6
    (r, { maps with v6 })) st target now p

def transitionSource (a : ShieldPEP) (answers : KernelAnswers) (target : SourceTarget) (st : FsmState)
    (level : Level) (now : Time) (p : EnforcementParams) : Fallible FsmState × ShieldPEP :=
  match parseIP target.id with
  | none => (.error ("klshield source target " ++ quote target.id ++ " is not an IP address"), a)
  | some ip =>
    match to4 ip with
    | some v4 => a.transitionV4 answers v4 st level now p
    | none => a.transitionV6 answers ip st level now p

/-- The same as a source PEP. -/
def sourcePEP (answers : KernelAnswers) : SourcePEP ShieldPEP where
  transitionSource target st level now p a := a.transitionSource answers target st level now p

end ShieldPEP

namespace SourceMaps

variable {A : Type}

/-- The entries of a source: its rate limit and its denial. -/
def entries (maps : SourceMaps A) (key : A) : Option RlCfg × Option UInt8 :=
  (maps.rl.bind (· key), maps.deny.bind (· key))

/-- An operation fails: the kernel refuses it, or it writes to a map that is not loaded. -/
def Fails (answers : KernelAnswers) (maps : SourceMaps A) : MapCall → Prop
  | .deleteRL => maps.rl.isSome = true ∧ (answers .deleteRL).isSome = true
  | .deleteDeny => maps.deny.isSome = true ∧ (answers .deleteDeny).isSome = true
  | .updateRL => maps.rl.isSome = false ∨ (answers .updateRL).isSome = true
  | .updateDeny => maps.deny.isSome = false ∨ (answers .updateDeny).isSome = true

instance (answers : KernelAnswers) (maps : SourceMaps A) (call : MapCall) :
    Decidable (Fails answers maps call) := by
  cases call <;> unfold Fails <;> infer_instance

/-- What an operation makes of the entries of its source. -/
def written (val : RlCfg) : MapCall → Option RlCfg × Option UInt8 → Option RlCfg × Option UInt8
  | .deleteRL, e => (none, e.2)
  | .deleteDeny, e => (e.1, none)
  | .updateRL, e => (some val, e.2)
  | .updateDeny, e => (e.1, some 1)

/-- The same maps are loaded, and the entries of all other sources are the same. -/
structure Frame (key : A) (maps maps' : SourceMaps A) : Prop where
  rl_loaded : maps'.rl.isSome = maps.rl.isSome
  deny_loaded : maps'.deny.isSome = maps.deny.isSome
  others : ∀ other, other ≠ key → maps'.entries other = maps.entries other

theorem Frame.trans {key : A} {maps maps' maps'' : SourceMaps A} (h : Frame key maps maps')
    (h' : Frame key maps' maps'') : Frame key maps maps'' where
  rl_loaded := h'.rl_loaded.trans h.rl_loaded
  deny_loaded := h'.deny_loaded.trans h.deny_loaded
  others other hne := (h'.others other hne).trans (h.others other hne)

theorem Frame.fails {key : A} {maps maps' : SourceMaps A} (h : Frame key maps maps') (answers : KernelAnswers)
    (call : MapCall) : Fails answers maps' call ↔ Fails answers maps call := by
  cases call <;> simp only [Fails, h.rl_loaded, h.deny_loaded]

variable [DecidableEq A]

theorem deleteEntry_refused {α : Type} {m : Option (BpfMap A α)} {fault : Option String} (what : String)
    (key : A) (hm : m.isSome = true) (hfault : fault.isSome = true) :
    ∃ err, deleteEntry what fault key m = (.error err, m) := by
  obtain ⟨m, rfl⟩ := Option.isSome_iff_exists.mp hm
  obtain ⟨message, rfl⟩ := Option.isSome_iff_exists.mp hfault
  exact ⟨_, rfl⟩

theorem deleteEntry_done {α : Type} {m : Option (BpfMap A α)} {fault : Option String} (what : String)
    (key : A) (h : ¬ (m.isSome = true ∧ fault.isSome = true)) :
    ∃ m', deleteEntry what fault key m = (.ok (), m') ∧ m'.isSome = m.isSome ∧
      ∀ k, m'.bind (· k) = if k = key then none else m.bind (· k) := by
  cases m with
  | none => exact ⟨none, rfl, rfl, fun k => by simp⟩
  | some m =>
    obtain rfl : fault = none := by simpa using h
    refine ⟨some (Function.update m key none), ?_, rfl, fun k => ?_⟩
    · simp only [deleteEntry, BpfMap.delete]
      by_cases hkey : (m key).isNone = true <;> simp [hkey, ignoreMissing]
    · simp [Function.update_apply]

theorem updateEntry_refused {α : Type} {m : Option (BpfMap A α)} {fault : Option String}
    (what unavailable : String) (key : A) (value : α) (h : m.isSome = false ∨ fault.isSome = true) :
    ∃ err, updateEntry what unavailable fault key value m = (.error err, m) := by
  cases m with
  | none => exact ⟨_, rfl⟩
  | some m =>
    obtain ⟨message, rfl⟩ := Option.isSome_iff_exists.mp (h.resolve_left (by simp))
    exact ⟨_, rfl⟩

theorem updateEntry_done {α : Type} {m : Option (BpfMap A α)} {fault : Option String}
    (what unavailable : String) (key : A) (value : α) (h : ¬ (m.isSome = false ∨ fault.isSome = true)) :
    ∃ m', updateEntry what unavailable fault key value m = (.ok (), m') ∧ m'.isSome = m.isSome ∧
      ∀ k, m'.bind (· k) = if k = key then some value else m.bind (· k) := by
  obtain ⟨hm, hfault⟩ := not_or.mp h
  obtain ⟨m, rfl⟩ := Option.isSome_iff_exists.mp (Bool.eq_true_of_not_eq_false hm)
  obtain rfl : fault = none := by simpa using hfault
  exact ⟨some (Function.update m key (some value)), rfl, rfl, fun k => by simp [Function.update_apply]⟩

/-- A function on the maps is an operation on the entries of a source. -/
structure Performs (answers : KernelAnswers) (key : A) (val : RlCfg) (call : MapCall)
    (f : SourceMaps A → Fallible Unit × SourceMaps A) : Prop where
  refused : ∀ maps, Fails answers maps call → ∃ err, f maps = (.error err, maps)
  done : ∀ maps, ¬ Fails answers maps call → ∃ maps', f maps = (.ok (), maps') ∧
    maps'.entries key = written val call (maps.entries key) ∧ Frame key maps maps'

variable {answers : KernelAnswers} {key : A} {val : RlCfg} (family ip : String)

theorem performs_deleteRL : Performs answers key val .deleteRL (deleteRL family ip answers key) where
  refused maps h := by
    obtain ⟨err, herr⟩ := deleteEntry_refused (family ++ " rate-limit " ++ ip) key h.1 h.2
    exact ⟨err, by simp only [deleteRL, herr]⟩
  done maps h := by
    obtain ⟨rl, hrl, hloaded, hentry⟩ := deleteEntry_done (family ++ " rate-limit " ++ ip) key h
    refine ⟨{ maps with rl }, by simp only [deleteRL, hrl], ?_, ⟨hloaded, rfl, fun other hne => ?_⟩⟩
    · simp [entries, written, hentry]
    · simp [entries, hentry, hne]

theorem performs_deleteDeny : Performs answers key val .deleteDeny (deleteDeny family ip answers key) where
  refused maps h := by
    obtain ⟨err, herr⟩ := deleteEntry_refused (family ++ " deny " ++ ip) key h.1 h.2
    exact ⟨err, by simp only [deleteDeny, herr]⟩
  done maps h := by
    obtain ⟨deny, hdeny, hloaded, hentry⟩ := deleteEntry_done (family ++ " deny " ++ ip) key h
    refine ⟨{ maps with deny }, by simp only [deleteDeny, hdeny], ?_, ⟨rfl, hloaded, fun other hne => ?_⟩⟩
    · simp [entries, written, hentry]
    · simp [entries, hentry, hne]

theorem performs_updateRL : Performs answers key val .updateRL (updateRL family ip answers key val) where
  refused maps h := by
    obtain ⟨err, herr⟩ := updateEntry_refused (family ++ " rate-limit " ++ ip ++ " rate=" ++
      itoa val.ratePPS.toNat ++ " burst=" ++ itoa val.burst.toNat)
      (family ++ " rate-limit map unavailable") key val h
    exact ⟨err, by simp only [updateRL, herr]⟩
  done maps h := by
    obtain ⟨rl, hrl, hloaded, hentry⟩ := updateEntry_done (family ++ " rate-limit " ++ ip ++ " rate=" ++
      itoa val.ratePPS.toNat ++ " burst=" ++ itoa val.burst.toNat)
      (family ++ " rate-limit map unavailable") key val h
    refine ⟨{ maps with rl }, by simp only [updateRL, hrl], ?_, ⟨hloaded, rfl, fun other hne => ?_⟩⟩
    · simp [entries, written, hentry]
    · simp [entries, hentry, hne]

theorem performs_updateDeny : Performs answers key val .updateDeny (updateDeny family ip answers key) where
  refused maps h := by
    obtain ⟨err, herr⟩ := updateEntry_refused (family ++ " deny " ++ ip) (family ++ " deny map unavailable")
      key (1 : UInt8) h
    exact ⟨err, by simp only [updateDeny, herr]⟩
  done maps h := by
    obtain ⟨deny, hdeny, hloaded, hentry⟩ := updateEntry_done (family ++ " deny " ++ ip)
      (family ++ " deny map unavailable") key (1 : UInt8) h
    refine ⟨{ maps with deny }, by simp only [updateDeny, hdeny], ?_, ⟨rfl, hloaded, fun other hne => ?_⟩⟩
    · simp [entries, written, hentry]
    · simp [entries, hentry, hne]

/-- The two operations of a level, in their order. -/
def calls : Level → MapCall × MapCall
  | .observe => (.deleteRL, .deleteDeny)
  | .soft | .hard => (.deleteDeny, .updateRL)
  | .block => (.deleteRL, .updateDeny)

/-- The rate limit of a level. -/
def levelLimit (p : EnforcementParams) : Level → RlCfg
  | .hard => ⟨p.hardRate, p.hardBurst⟩
  | _ => ⟨p.softRate, p.softBurst⟩

theorem applyLevel_eq (answers : KernelAnswers) (key : A) (p : EnforcementParams) (level : Level) : ∃ first second,
    Performs answers key (levelLimit p level) (calls level).1 first ∧
    Performs answers key (levelLimit p level) (calls level).2 second ∧
    applyLevel family ip answers key p level = inOrder first second := by
  cases level with
  | observe => exact ⟨_, _, performs_deleteRL family ip, performs_deleteDeny family ip, rfl⟩
  | soft => exact ⟨_, _, performs_deleteDeny family ip, performs_updateRL family ip, rfl⟩
  | hard => exact ⟨_, _, performs_deleteDeny family ip, performs_updateRL family ip, rfl⟩
  | block => exact ⟨_, _, performs_deleteRL family ip, performs_updateDeny family ip, rfl⟩

/-- The entries a level calls for. -/
def levelEntries (p : EnforcementParams) (level : Level) : Option RlCfg × Option UInt8 :=
  match level with
  | .observe => (none, none)
  | .soft | .hard => (some (levelLimit p level), none)
  | .block => (none, some 1)

theorem written_written (p : EnforcementParams) (level : Level) (e : Option RlCfg × Option UInt8) :
    written (levelLimit p level) (calls level).2 (written (levelLimit p level) (calls level).1 e) =
      levelEntries p level := by
  cases level <;> rfl

/-- A failed level keeps the entries unless its first operation removed one. -/
theorem applyLevel_cases (answers : KernelAnswers) (key : A) (p : EnforcementParams) (level : Level)
    (maps : SourceMaps A) : ∃ r maps', applyLevel family ip answers key p level maps = (r, maps') ∧
      Frame key maps maps' ∧
      ((Fails answers maps (calls level).1 ∧ (∃ err, r = .error err) ∧ maps' = maps) ∨
       (¬ Fails answers maps (calls level).1 ∧ Fails answers maps (calls level).2 ∧ (∃ err, r = .error err) ∧
          maps'.entries key = written (levelLimit p level) (calls level).1 (maps.entries key)) ∨
       (¬ Fails answers maps (calls level).1 ∧ ¬ Fails answers maps (calls level).2 ∧ r = .ok () ∧
          maps'.entries key = levelEntries p level)) := by
  obtain ⟨first, second, hfirst, hsecond, heq⟩ := applyLevel_eq family ip answers key p level
  rw [heq]
  by_cases hf : Fails answers maps (calls level).1
  · obtain ⟨err, herr⟩ := hfirst.refused maps hf
    exact ⟨.error err, maps, by simp only [inOrder, herr], ⟨rfl, rfl, fun _ _ => rfl⟩,
      .inl ⟨hf, ⟨err, rfl⟩, rfl⟩⟩
  obtain ⟨maps₁, hdone, hentries, hframe⟩ := hfirst.done maps hf
  by_cases hs : Fails answers maps (calls level).2
  · obtain ⟨err, herr⟩ := hsecond.refused maps₁ ((hframe.fails answers _).mpr hs)
    exact ⟨.error err, maps₁, by simp only [inOrder, hdone, herr], hframe,
      .inr (.inl ⟨hf, hs, ⟨err, rfl⟩, hentries⟩)⟩
  · obtain ⟨maps₂, hdone₂, hentries₂, hframe₂⟩ := hsecond.done maps₁ (mt (hframe.fails answers _).mp hs)
    refine ⟨.ok (), maps₂, by simp only [inOrder, hdone, hdone₂], hframe.trans hframe₂,
      .inr (.inr ⟨hf, hs, rfl, ?_⟩)⟩
    rw [hentries₂, hentries, written_written]

end SourceMaps

namespace ShieldPEP

/-- The entries of a source in the maps of its family. -/
def familyEntries {A : Type} (a : ShieldPEP) (family : ShieldMaps → SourceMaps A) (key : A) :
    Option RlCfg × Option UInt8 :=
  a.maps.elim (none, none) fun maps => (family maps).entries key

/-- The entries of a source; what is no address has none. -/
def entries (a : ShieldPEP) (target : SourceTarget) : Option RlCfg × Option UInt8 :=
  match parseIP target.id with
  | none => (none, none)
  | some ip =>
    match to4 ip with
    | some v4 => a.familyEntries (·.v4) v4
    | none => a.familyEntries (·.v6) ip

/-- A call of `TransitionSource`, with how the kernel answers it. -/
structure Call where
  target : SourceTarget
  state : FsmState
  level : Level
  now : Time
  params : EnforcementParams
  answers : KernelAnswers

def answer (a : ShieldPEP) (c : Call) : Fallible FsmState :=
  (a.transitionSource c.answers c.target c.state c.level c.now c.params).1

def after (a : ShieldPEP) (c : Call) : ShieldPEP :=
  (a.transitionSource c.answers c.target c.state c.level c.now c.params).2

/-- A call leaves the entries its level calls for, or fails and leaves those there were. -/
def Exclusive (a : ShieldPEP) (c : Call) : Prop :=
  match a.answer c with
  | .ok _ => (a.after c).entries c.target = SourceMaps.levelEntries c.params c.level
  | .error _ => (a.after c).entries c.target = a.entries c.target

/-- The first operation of a call removes an entry, and the second fails. -/
def Loses {A : Type} (maps : SourceMaps A) (key : A) (c : Call) : Prop :=
  ¬ SourceMaps.Fails c.answers maps (SourceMaps.calls c.level).1 ∧
    SourceMaps.Fails c.answers maps (SourceMaps.calls c.level).2 ∧
    (match c.level with
      | .observe | .block => (maps.entries key).1.isSome = true
      | .soft | .hard => (maps.entries key).2.isSome = true)

instance {A : Type} (maps : SourceMaps A) (key : A) (c : Call) : Decidable (Loses maps key c) := by
  unfold Loses
  cases c.level <;> infer_instance

def FamilyIntact {A : Type} (a : ShieldPEP) (family : ShieldMaps → SourceMaps A) (key : A) (c : Call) :
    Prop :=
  if a.dryRun then a.familyEntries family key = SourceMaps.levelEntries c.params c.level
  else ∀ maps, a.maps = some maps → ¬ Loses (family maps) key c

/-- The call removes nothing before it fails. In a dry run: the entries are those its level calls for. -/
def Intact (a : ShieldPEP) (c : Call) : Prop :=
  match parseIP c.target.id with
  | none => True
  | some ip =>
    match to4 ip with
    | some v4 => a.FamilyIntact (·.v4) v4 c
    | none => a.FamilyIntact (·.v6) ip c

theorem written_eq_iff (val : RlCfg) (level : Level) (e : Option RlCfg × Option UInt8) :
    SourceMaps.written val (SourceMaps.calls level).1 e = e ↔
      ¬ (match level with
        | .observe | .block => e.1.isSome = true
        | .soft | .hard => e.2.isSome = true) := by
  obtain ⟨rl, deny⟩ := e
  cases level <;> cases rl <;> cases deny <;> simp [SourceMaps.written, SourceMaps.calls]

/-- A call is exclusive in one family exactly when it loses nothing there. -/
theorem transition_exclusive_iff {A : Type} [DecidableEq A] (a : ShieldPEP)
    (get : ShieldMaps → SourceMaps A) (set : ShieldMaps → SourceMaps A → ShieldMaps)
    (hget : ∀ maps m, get (set maps m) = m) (family ip : String) (key : A) (c : Call) :
    (match a.transition (fun maps =>
          let (r, m) := SourceMaps.applyLevel family ip c.answers key c.params c.level (get maps)
          (r, set maps m)) c.state c.level c.now c.params with
      | (.ok _, a') => a'.familyEntries get key = SourceMaps.levelEntries c.params c.level
      | (.error _, a') => a'.familyEntries get key = a.familyEntries get key) ↔
    a.FamilyIntact get key c := by
  obtain ⟨maps, dryRun⟩ := a
  unfold transition FamilyIntact
  cases dryRun with
  | true => exact Iff.rfl
  | false =>
    cases maps with
    | none => simp
    | some maps =>
      obtain ⟨r, m, heq, -, hcases⟩ :=
        SourceMaps.applyLevel_cases family ip c.answers key c.params c.level (get maps)
      simp only [heq, familyEntries, Bool.false_eq_true, if_false, Option.elim_some]
      rcases hcases with ⟨hf, ⟨err, rfl⟩, rfl⟩ | ⟨hf, hs, ⟨err, rfl⟩, hentries⟩ | ⟨hf, hs, rfl, hentries⟩
      · simp [Loses, hf, hget]
      · simp only [Option.elim_some, hget, hentries, written_eq_iff, Loses, Option.some.injEq, forall_eq']
        tauto
      · simp only [Option.elim_some, hget, hentries, Loses, Option.some.injEq, forall_eq']
        tauto

theorem exclusive_iff (a : ShieldPEP) (c : Call) : a.Exclusive c ↔ a.Intact c := by
  unfold Exclusive Intact answer after transitionSource entries
  cases parseIP c.target.id with
  | none => simp
  | some ip =>
    simp only
    cases to4 ip with
    | some v4 =>
      refine Iff.trans ?_ (transition_exclusive_iff a (·.v4) (fun maps v4 => { maps with v4 })
        (fun _ _ => rfl) "v4" (ipString4 v4) v4 c)
      dsimp only [transitionV4]
      generalize a.transition _ c.state c.level c.now c.params = out
      obtain ⟨r, a'⟩ := out
      cases r <;> rfl
    | none =>
      refine Iff.trans ?_ (transition_exclusive_iff a (·.v6) (fun maps v6 => { maps with v6 })
        (fun _ _ => rfl) "v6" (ipString ip) ip c)
      dsimp only [transitionV6]
      generalize a.transition _ c.state c.level c.now c.params = out
      obtain ⟨r, a'⟩ := out
      cases r <;> rfl

/-- In a run of transitions each is exclusive exactly when none loses an entry. -/
theorem transitions_exclusive_iff (a : ShieldPEP) (cs : List Call) :
    Along after Exclusive a cs ↔ Along after Intact a cs :=
  Along.congr (I := fun _ => True) trivial (fun _ => exclusive_iff _ _) fun _ _ => trivial

/-- A source whose packets are dropped. -/
def denied : ShieldPEP where
  maps := some
    { v4 := { rl := some fun _ => none, deny := some fun ip => if ip = 0x0a000001 then some 1 else none } }

/-- The call that relaxes it to a rate limit. -/
def relax : Call where
  target := { sourceID := "10.0.0.1" }
  state := { level := .block }
  level := .soft
  now := 0
  params := { softRate := 100, softBurst := 200 }
  answers
    | .updateRL => some "no space left on device"
    | _ => none

/-- The rate limit is refused after the denial is gone: the source, still blocked for the caller,
passes. -/
theorem relaxed_unenforced : denied.answer relax =
      .error "update v4 rate-limit 10.0.0.1 rate=100 burst=200: no space left on device" ∧
    denied.entries relax.target = (none, some 1) ∧
    (denied.after relax).entries relax.target = (none, none) := by
  decide +kernel

theorem failed_transition_loses : ¬ ∀ (a : ShieldPEP) (cs : List Call), Along after Exclusive a cs := by
  intro h
  have hkept := (h denied [relax]).1
  obtain ⟨herr, hbefore, hafter⟩ := relaxed_unenforced
  simp only [Exclusive, herr, hbefore, hafter] at hkept
  exact absurd hkept (by decide)

end ShieldPEP

end Kernloom
