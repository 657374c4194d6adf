import Kernloom.StateFile

/-! Writing the state file one file operation at a time, and what a start finds there when the writer
stopped on the way. -/

namespace Kernloom

open JsonText

/-- The hex digits of a digest. -/
abbrev HexDigest := { cs : List Char // cs.length = 64 }

inductive FileOp
  | mkdirAll | openTmp | write | sync | close | backup | replace
  deriving DecidableEq

/-- What becomes of a file operation: the process may stop before it. -/
inductive Fate
  | done | failed | crashed
  deriving DecidableEq

/-- The state file, its next version and its last one. -/
structure StateDir where
  path : Option (List Char) := none
  tmpPath : Option (List Char) := none
  bakPath : Option (List Char) := none

inductive WriteResult
  | returnedNil | returnedError | crashed
  deriving DecidableEq

inductive LoadError
  | notFound | malformed | integrityMismatch | tooOld
  deriving DecidableEq

section Operations

def FileOp.effect (raw : List Char) : FileOp → StateDir → StateDir
  | .mkdirAll, dir => dir
  | .openTmp, dir => { dir with tmpPath := some [] }
  | .write, dir => { dir with tmpPath := some raw }
  | .sync, dir => dir
  | .close, dir => dir
  | .backup, dir => if dir.path.isSome then { dir with path := none, bakPath := dir.path } else dir
  | .replace, dir => { dir with path := dir.tmpPath, tmpPath := none }

/-- A write that does not end leaves what it has written so far. -/
def FileOp.interrupted (torn : List Char) : FileOp → StateDir → StateDir
  | .write, dir => { dir with tmpPath := some torn }
  | _, dir => dir

/-- An error ends the sequence, except that of the rename to the backup. -/
def runOps (raw torn : List Char) (fate : FileOp → Fate) : List FileOp → StateDir → WriteResult × StateDir
  | [], dir => (.returnedNil, dir)
  | op :: ops, dir =>
    match fate op with
    | .done => runOps raw torn fate ops (op.effect raw dir)
    | .crashed => (.crashed, op.interrupted torn dir)
    | .failed =>
      if op = .backup then runOps raw torn fate ops dir else (.returnedError, op.interrupted torn dir)

def writeOps : List FileOp := [.mkdirAll, .openTmp, .write, .sync, .close, .backup, .replace]

variable {F : Type} [Floats F] (sha256 : List Char → HexDigest)

def computeSHA256NoIntegrity (raw : List Char) : Text := (sha256 raw).1.map .char

def StateFile.noIntegrity (st : StateFile F) : StateFile F := { st with integrity := {} }

/-- The state with the time of the write and its digest, and its text. -/
def sealState (now : ZonedTime) (st : StateFile F) : Option (StateFile F × List Char) := do
  let st := { st with generated := now }
  let rawNoInt ← st.noIntegrity.marshal
  let st := { st with integrity := ⟨computeSHA256NoIntegrity sha256 rawNoInt⟩ }
  let raw ← st.marshal
  some (st, raw)

def writeStateAtomic (now : ZonedTime) (st : StateFile F) (fate : FileOp → Fate) (torn : List Char)
    (dir : StateDir) : WriteResult × StateDir :=
  match sealState sha256 now st with
  | none => (.returnedError, dir)
  | some (_, raw) => runOps raw torn fate writeOps dir

def loadState (maxAge : Duration) (now : Time) (dir : StateDir) : Except LoadError (StateFile F) :=
  match dir.path with
  | none => .error .notFound
  | some raw =>
    match StateFile.unmarshal raw with
    | none => .error .malformed
    | some st =>
      let rawNoInt := st.noIntegrity.marshal.getD []
      if st.integrity.sha256 ≠ [] ∧ st.integrity.sha256 ≠ computeSHA256NoIntegrity sha256 rawNoInt then
        .error .integrityMismatch
      else if 0 < maxAge ∧ st.active.updatedAt.instant ≠ 0 ∧ maxAge < now - st.active.updatedAt.instant then
        .error .tooOld
      else .ok st

end Operations

section Stops

/-- Which version a writer leaves at the path. -/
inductive AtPath
  | old | missing | new
  deriving DecidableEq

def atPath (fate : FileOp → Fate) : AtPath :=
  if ∀ op ∈ [FileOp.mkdirAll, .openTmp, .write, .sync, .close], fate op = .done then
    match fate .backup, fate .replace with
    | .crashed, _ => .old
    | _, .done => .new
    | .done, _ => .missing
    | .failed, _ => .old
  else .old

variable {raw torn : List Char} {fate : FileOp → Fate} {ops : List FileOp}

/-- Operations before the renames that are all done leave the rest to be done. -/
theorem runOps_of_done (hdone : ∀ op ∈ ops, fate op = .done) (rest : List FileOp) (dir : StateDir) :
    runOps raw torn fate (ops ++ rest) dir =
      runOps raw torn fate rest (ops.foldl (fun dir op => op.effect raw dir) dir) := by
  induction ops generalizing dir with
  | nil => rfl
  | cons op ops ih =>
    obtain ⟨hop, hops⟩ := List.forall_mem_cons.mp hdone
    rw [List.cons_append, runOps, hop, List.foldl_cons]
    exact ih hops _

theorem FileOp.effect_path {op : FileOp} (hbackup : op ≠ .backup) (hreplace : op ≠ .replace)
    (dir : StateDir) : (op.effect raw dir).path = dir.path := by
  cases op with
  | backup => exact absurd rfl hbackup
  | replace => exact absurd rfl hreplace
  | mkdirAll | openTmp | write | sync | close => rfl

theorem FileOp.interrupted_path (op : FileOp) (dir : StateDir) :
    (op.interrupted torn dir).path = dir.path := by
  cases op <;> rfl

/-- Otherwise the writer stops with the path as it was. -/
theorem runOps_of_stop (hkeep : ∀ op ∈ ops, op ≠ .backup ∧ op ≠ .replace)
    (hstop : ¬ ∀ op ∈ ops, fate op = .done) (rest : List FileOp) (dir : StateDir) :
    (runOps raw torn fate (ops ++ rest) dir).1 ≠ .returnedNil ∧
      (runOps raw torn fate (ops ++ rest) dir).2.path = dir.path := by
  induction ops generalizing dir with
  | nil => exact absurd (List.forall_mem_nil _) hstop
  | cons op ops ih =>
    obtain ⟨⟨hbackup, hreplace⟩, hkeep⟩ := List.forall_mem_cons.mp hkeep
    rw [List.forall_mem_cons, not_and] at hstop
    rw [List.cons_append, runOps]
    cases hop : fate op with
    | done =>
      obtain ⟨hresult, hpath⟩ := ih hkeep (hstop hop) (op.effect raw dir)
      exact ⟨hresult, hpath.trans (FileOp.effect_path hbackup hreplace dir)⟩
    | failed =>
      simp only [if_neg hbackup]
      exact ⟨nofun, op.interrupted_path dir⟩
    | crashed => exact ⟨nofun, op.interrupted_path dir⟩

/-- The operations before the renames. -/
abbrev prepareOps : List FileOp := [.mkdirAll, .openTmp, .write, .sync, .close]

theorem prepareOps_keep : ∀ op ∈ prepareOps, op ≠ .backup ∧ op ≠ .replace := by
  decide

theorem runOps_prepared (hdone : ∀ op ∈ prepareOps, fate op = .done) (dir : StateDir) :
    runOps raw torn fate writeOps dir =
      runOps raw torn fate [.backup, .replace] { dir with tmpPath := some raw } :=
  runOps_of_done hdone [.backup, .replace] dir

theorem runOps_stopped (hstop : ¬ ∀ op ∈ prepareOps, fate op = .done) (dir : StateDir) :
    (runOps raw torn fate writeOps dir).1 ≠ .returnedNil ∧
      (runOps raw torn fate writeOps dir).2.path = dir.path :=
  runOps_of_stop prepareOps_keep hstop [.backup, .replace] dir

theorem runOps_writeOps (raw torn : List Char) (fate : FileOp → Fate) {old : List Char} {dir : StateDir}
    (hpath : dir.path = some old) : ∃ result dir', runOps raw torn fate writeOps dir = (result, dir') ∧
      dir'.path = (match atPath fate with | .old => some old | .missing => none | .new => some raw) ∧
      (result = .returnedNil ↔ atPath fate = .new) := by
  refine ⟨(runOps raw torn fate writeOps dir).1, (runOps raw torn fate writeOps dir).2, rfl, ?_⟩
  by_cases hdone : ∀ op ∈ prepareOps, fate op = .done
  · rw [runOps_prepared hdone, atPath, if_pos hdone]
    cases hbackup : fate .backup <;> cases hreplace : fate .replace <;>
      simp [runOps, FileOp.effect, FileOp.interrupted, hpath, hbackup, hreplace]
  · obtain ⟨hresult, hkept⟩ := runOps_stopped hdone dir
    rw [atPath, if_neg hdone]
    exact ⟨hkept.trans hpath, iff_of_false hresult (by decide)⟩

end Stops

section Loading

variable {F : Type} [Floats F] {sha256 : List Char → HexDigest}

/-- What is read back of a state that was written. -/
def StateFile.read (st : StateFile F) : StateFile F := StateFile.codec.read st

/-- Every string is Unicode, and no time has an offset of less than a minute. -/
def StateFile.Clean (st : StateFile F) : Prop := StateFile.codec.Clean st

/-- Every time has an offset of whole minutes. -/
def StateFile.Exact (st : StateFile F) : Prop := StateFile.codec.Exact st

theorem readText_chars (cs : List Char) : readText (cs.map .char) = cs.map .char := by
  simp [readText, Rune.read]

theorem unmarshal_marshal {st : StateFile F} {raw : List Char} (h : st.marshal = some raw) :
    StateFile.unmarshal raw = some st.read := by
  obtain ⟨v, hv, rfl⟩ := Option.map_eq_some_iff.mp h
  rw [StateFile.unmarshal, parse_write, Option.bind_some]
  exact StateFile.codec.decode_encode hv

/-- What is read back is written with the same text, or a shorter one. -/
theorem marshal_read {st : StateFile F} {raw : List Char} (h : st.marshal = some raw) :
    ∃ raw', st.read.marshal = some raw' ∧ (raw' = raw ↔ st.Clean) := by
  obtain ⟨v, hv, rfl⟩ := Option.map_eq_some_iff.mp h
  obtain ⟨v', hv', hrewritten⟩ := StateFile.codec.encode_read hv
  refine ⟨v'.write 0, Option.map_eq_some_iff.mpr ⟨v', hv', rfl⟩, fun heq => ?_, fun hclean => ?_⟩
  · by_contra hclean
    have hlt := hrewritten.shorter hclean 0
    rw [heq] at hlt
    exact Nat.lt_irrefl _ hlt
  · rw [hrewritten.same hclean]

theorem clean_noIntegrity {st : StateFile F} (h : readText st.integrity.sha256 = st.integrity.sha256) :
    st.noIntegrity.Clean ↔ st.Clean := by
  constructor
  · rintro ⟨hversion, hgenerated, hactive, hhistory, -, -⟩
    exact ⟨hversion, hgenerated, hactive, hhistory, ⟨h, trivial⟩, trivial⟩
  · rintro ⟨hversion, hgenerated, hactive, hhistory, -, -⟩
    exact ⟨hversion, hgenerated, hactive, hhistory, ⟨rfl, trivial⟩, trivial⟩

/-- A sealed state carries the digest of its text without it. -/
theorem sealState_eq_some {now : ZonedTime} {st sealed : StateFile F} {raw : List Char}
    (h : sealState sha256 now st = some (sealed, raw)) : ∃ rawNoInt, sealed.noIntegrity.marshal = some rawNoInt ∧
      sealed.integrity.sha256 = computeSHA256NoIntegrity sha256 rawNoInt ∧ sealed.marshal = some raw ∧
      sealed.noIntegrity = { st with generated := now }.noIntegrity := by
  obtain ⟨rawNoInt, hno, hrest⟩ := Option.bind_eq_some_iff.mp h
  obtain ⟨raw', hraw, hpair⟩ := Option.bind_eq_some_iff.mp hrest
  obtain ⟨rfl, rfl⟩ := Prod.mk.inj (Option.some.inj hpair)
  exact ⟨rawNoInt, hno, rfl, hraw, rfl⟩

theorem sealed_clean_iff {now : ZonedTime} {st sealed : StateFile F} {raw : List Char}
    (h : sealState sha256 now st = some (sealed, raw)) :
    sealed.Clean ↔ ({ st with generated := now } : StateFile F).noIntegrity.Clean := by
  obtain ⟨rawNoInt, -, hdigest, -, heq⟩ := sealState_eq_some h
  rw [← heq, clean_noIntegrity]
  rw [hdigest]
  exact readText_chars _

/-- The digest tells the text of a state from that of what is read back of it. -/
def Distinguishes (sha256 : List Char → HexDigest) (st : StateFile F) : Prop :=
  ∀ raw raw', st.noIntegrity.marshal = some raw → st.noIntegrity.read.marshal = some raw' →
    sha256 raw' = sha256 raw → raw' = raw

theorem Distinguishes.of_clean {st : StateFile F} (h : st.noIntegrity.Clean) : Distinguishes sha256 st := by
  intro raw raw' hraw hraw' _
  obtain ⟨raw'', hread, hsame⟩ := marshal_read hraw
  rw [← Option.some.inj (hread.symm.trans hraw')]
  exact hsame.mpr h

/-- The reader, without an age limit, on a file the writer has completed. -/
theorem loadState_sealed {now : ZonedTime} {st sealed : StateFile F} {raw : List Char}
    (h : sealState sha256 now st = some (sealed, raw)) {dir : StateDir} (hpath : dir.path = some raw) (start : Time) :
    (sealed.Clean → loadState sha256 0 start dir = .ok sealed.read) ∧
      (Distinguishes sha256 sealed → ¬ sealed.Clean →
        loadState (F := F) sha256 0 start dir = .error .integrityMismatch) := by
  obtain ⟨rawNoInt, hno, hdigest, hraw, -⟩ := sealState_eq_some h
  have hchars : readText sealed.integrity.sha256 = sealed.integrity.sha256 := by
    rw [hdigest]
    exact readText_chars _
  obtain ⟨rawNoInt', hno', hsame⟩ := marshal_read hno
  rw [clean_noIntegrity hchars] at hsame
  have hread : sealed.read.noIntegrity.marshal = some rawNoInt' := hno'
  have hstored : sealed.read.integrity.sha256 = computeSHA256NoIntegrity sha256 rawNoInt :=
    hchars.trans hdigest
  have hne : computeSHA256NoIntegrity sha256 rawNoInt ≠ [] := by
    intro hnil
    have hlength := (sha256 rawNoInt).2
    rw [computeSHA256NoIntegrity, List.map_eq_nil_iff] at hnil
    rw [hnil] at hlength
    exact absurd hlength (by decide)
  have hmatch : computeSHA256NoIntegrity sha256 rawNoInt = computeSHA256NoIntegrity sha256 rawNoInt' ↔
      sha256 rawNoInt' = sha256 rawNoInt := by
    unfold computeSHA256NoIntegrity
    rw [(List.map_injective_iff.mpr fun c c' h => Rune.char.inj h).eq_iff, Subtype.ext_iff, eq_comm]
  unfold loadState
  rw [hpath]
  dsimp only
  rw [unmarshal_marshal hraw]
  dsimp only
  rw [hread, Option.getD_some, hstored, if_neg (c := 0 < (0 : Duration) ∧ _) fun hage => absurd hage.1 (by decide)]
  refine ⟨fun hclean => ?_, fun hdistinguishes hclean => ?_⟩
  · rw [if_neg fun hmismatch => hmismatch.2 (by rw [hsame.mpr hclean])]
  · exact if_pos ⟨hne, fun heq => hclean (hsame.mp (hdistinguishes _ _ hno hno' (hmatch.mp heq)))⟩

end Loading

section Recovery

variable {F : Type} [Floats F] (sha256 : List Char → HexDigest)

/-- A start after the writer has stopped finds one of the two states, and the new one if the writer was
done. -/
def Recovers (stored : StateFile F) (now : ZonedTime) (st : StateFile F) (fate : FileOp → Fate)
    (torn : List Char) (dir : StateDir) (start : Time) : Prop :=
  let stopped := writeStateAtomic sha256 now st fate torn dir
  ∃ found, loadState sha256 0 start stopped.2 = .ok found ∧
    (found.Same stored ∨ ∃ new ∈ (sealState sha256 now st).map Prod.fst, found.Same new) ∧
    (stopped.1 = .returnedNil → ∃ new ∈ (sealState sha256 now st).map Prod.fst, found.Same new)

/-- The writer does not stop between the two renames, and the state at the path is read back as it was,
or as the other one. -/
def Recoverable (stored : StateFile F) (new : Option (StateFile F)) (stop : AtPath) : Prop :=
  match new, stop with
  | none, _ => stored.Clean ∧ stored.Exact
  | some new, .old => stored.Clean ∧ (stored.Exact ∨ stored.read.Same new)
  | some _, .missing => False
  | some new, .new => new.Clean ∧ new.Exact

variable {sha256}

theorem read_same_iff {st : StateFile F} (h : st.Clean) : st.read.Same st ↔ st.Exact :=
  StateFile.codec.same_read h

/-- The state that is found is what is read back of the state at the path. -/
theorem found_iff {now : ZonedTime} {st sealed : StateFile F} {raw : List Char}
    (h : sealState sha256 now st = some (sealed, raw)) (hdigest : Distinguishes sha256 sealed) {dir : StateDir}
    (hpath : dir.path = some raw) (start : Time) {found : StateFile F} :
    loadState sha256 0 start dir = .ok found ↔ sealed.Clean ∧ found = sealed.read := by
  obtain ⟨hclean, hunclean⟩ := loadState_sealed h hpath start
  by_cases hc : sealed.Clean
  · rw [hclean hc, Except.ok.injEq, eq_comm]
    exact ⟨fun heq => ⟨hc, heq⟩, And.right⟩
  · rw [hunclean hdigest hc]
    exact ⟨fun heq => (nomatch heq), fun h => absurd h.1 hc⟩

theorem recovers_iff {old stored st : StateFile F} {before now : ZonedTime} {raw : List Char} {dir : StateDir}
    (hold : sealState sha256 before old = some (stored, raw)) (hpath : dir.path = some raw)
    (hdigest : Distinguishes sha256 stored)
    (hdigest' : ∀ new ∈ (sealState sha256 now st).map Prod.fst, Distinguishes sha256 new)
    (fate : FileOp → Fate) (torn : List Char) (start : Time) :
    Recovers sha256 stored now st fate torn dir start ↔
      Recoverable stored ((sealState sha256 now st).map Prod.fst) (atPath fate) := by
  unfold Recovers Recoverable
  cases hnew : sealState sha256 now st with
  | none =>
    have hstop : writeStateAtomic sha256 now st fate torn dir = (.returnedError, dir) := by
      rw [writeStateAtomic, hnew]
    rw [hstop]
    simp only [Option.map_none, Option.mem_def, reduceCtorEq, false_and, exists_false, or_false, false_imp_iff,
      and_true]
    constructor
    · rintro ⟨found, hload, hsame⟩
      obtain ⟨hclean, rfl⟩ := (found_iff hold hdigest hpath start).mp hload
      exact ⟨hclean, (read_same_iff hclean).mp hsame⟩
    · rintro ⟨hclean, hexact⟩
      exact ⟨stored.read, (found_iff hold hdigest hpath start).mpr ⟨hclean, rfl⟩, (read_same_iff hclean).mpr hexact⟩
  | some sealed =>
    obtain ⟨new, rawNew⟩ := sealed
    rw [hnew] at hdigest'
    have hdistinguishes : Distinguishes sha256 new := hdigest' new rfl
    obtain ⟨result, dir', hrun, hleft, hresult⟩ :=
      runOps_writeOps rawNew torn fate hpath
    have hstop : writeStateAtomic sha256 now st fate torn dir = (result, dir') := by
      rw [writeStateAtomic, hnew]
      exact hrun
    rw [hstop]
    simp only [Option.map_some, Option.mem_def, Option.some.injEq, exists_eq_left']
    cases hat : atPath fate with
    | old =>
      rw [hat] at hleft hresult
      have herror : result ≠ .returnedNil := fun h => nomatch hresult.mp h
      constructor
      · rintro ⟨found, hload, hsame, -⟩
        obtain ⟨hclean, rfl⟩ := (found_iff hold hdigest hleft start).mp hload
        exact ⟨hclean, hsame.imp_left (read_same_iff hclean).mp⟩
      · rintro ⟨hclean, hsame⟩
        exact ⟨stored.read, (found_iff hold hdigest hleft start).mpr ⟨hclean, rfl⟩,
          hsame.imp_left (read_same_iff hclean).mpr, fun h => absurd h herror⟩
    | missing =>
      rw [hat] at hleft
      refine iff_of_false ?_ id
      rintro ⟨found, hload, -⟩
      rw [loadState, hleft] at hload
      nomatch hload
    | new =>
      rw [hat] at hleft hresult
      constructor
      · rintro ⟨found, hload, -, hdone⟩
        obtain ⟨hclean, rfl⟩ := (found_iff hnew hdistinguishes hleft start).mp hload
        exact ⟨hclean, (read_same_iff hclean).mp (hdone (hresult.mpr rfl))⟩
      · rintro ⟨hclean, hexact⟩
        have hsame := (read_same_iff hclean).mpr hexact
        exact ⟨new.read, (found_iff hnew hdistinguishes hleft start).mpr ⟨hclean, rfl⟩, .inr hsame, fun _ => hsame⟩

end Recovery

section Fixture

/-- Whole numbers, as far as floating point has them exactly. -/
instance : Floats Int where
  zero := 0
  isZero n := n = 0
  isPositive n := 0 < n
  format n := some (writeInt n)
  parse n := readInt n.1
  parse_format {n text} h := by
    rw [← Option.some.inj h]
    exact readInt_writeInt n
  isZero_zero := rfl

def checksum (raw : List Char) : HexDigest :=
  ⟨digits 64 (raw.foldl (fun n c => n * 31 + c.toNat) 7), length_digits 64 _⟩

/-- A state after a pack of the control plane. -/
def gatewayState (pack : String) (issuedAt : ZonedTime) : StateFile Int where
  version := 1
  active :=
    { profile := textOf "gateway", tune := { k := 6, sigmaFactor := 1 }, cleanRatio := 1
      forgePackName := textOf pack, forgePackIssuedAt := issuedAt }

def firstState : StateFile Int := gatewayState "" {}

def packState : StateFile Int := gatewayState "edge" ⟨63864979200000000000, 3600⟩

def firstWrite : ZonedTime := ⟨63864979200000000000, 0⟩

def secondWrite : ZonedTime := ⟨63864979260000000000, 0⟩

/-- The process stops before an operation. -/
def stopBefore (op op' : FileOp) : Fate := if op' = op then .crashed else .done

theorem sealed_facts : (sealState checksum firstWrite firstState).isSome = true ∧
    (sealState checksum secondWrite packState).isSome = true := by
  decide +kernel

/-- A stop between the two renames leaves no state at the path. -/
theorem lost_between_renames : ∃ stored raw, sealState checksum firstWrite firstState = some (stored, raw) ∧
    ¬ Recovers checksum stored secondWrite packState (stopBefore .replace) [] { path := some raw } 0 := by
  obtain ⟨⟨stored, raw⟩, hstored⟩ := Option.isSome_iff_exists.mp sealed_facts.1
  obtain ⟨⟨new, rawNew⟩, hnew⟩ := Option.isSome_iff_exists.mp sealed_facts.2
  refine ⟨stored, raw, hstored, ?_⟩
  rintro ⟨found, hload, -⟩
  have hpath : StateDir.path { path := some raw } = some raw := rfl
  obtain ⟨result, dir', hrun, hleft, -⟩ := runOps_writeOps rawNew [] (stopBefore .replace) hpath
  have hmissing : atPath (stopBefore .replace) = .missing := by decide
  rw [hmissing] at hleft
  rw [writeStateAtomic, hnew] at hload
  simp only [hrun, loadState, hleft] at hload
  nomatch hload

theorem gatewayState_clean {pack : String} {now issuedAt : ZonedTime} (hnow : now.Clean) (h : issuedAt.Clean) :
    ({ gatewayState pack issuedAt with generated := now }.noIntegrity).Clean := by
  have hzero : ZonedTime.Clean {} := fun _ => rfl
  refine ⟨trivial, hnow, ?_, List.forall_mem_nil _, ⟨rfl, trivial⟩, trivial⟩
  exact ⟨readText_textOf _, trivial, hzero, fun _ hx => absurd hx (Option.not_mem_none _),
    ⟨rfl, rfl, trivial, trivial, trivial⟩, List.forall_mem_nil _, ⟨trivial, hzero, rfl, rfl, trivial, trivial⟩,
    trivial, trivial, rfl, rfl, rfl, readText_textOf _, h, rfl, trivial, rfl, rfl, hzero, trivial⟩

theorem gatewayState_exact {pack : String} {now issuedAt : ZonedTime} (hnow : now.offset % 60 = 0)
    (h : issuedAt.offset % 60 = 0) : ({ gatewayState pack issuedAt with generated := now }.noIntegrity).Exact := by
  refine ⟨trivial, hnow, ?_, List.forall_mem_nil _, ⟨trivial, trivial⟩, trivial⟩
  exact ⟨trivial, trivial, rfl, fun _ hx => absurd hx (Option.not_mem_none _),
    ⟨trivial, trivial, trivial, trivial, trivial⟩, List.forall_mem_nil _,
    ⟨trivial, rfl, trivial, trivial, trivial, trivial⟩, trivial, trivial, trivial, trivial, trivial, trivial, h,
    trivial, trivial, trivial, trivial, rfl, trivial⟩

theorem packState_recovered : ∃ stored raw, sealState checksum firstWrite firstState = some (stored, raw) ∧
    Recovers checksum stored secondWrite packState (fun _ => .done) [] { path := some raw } 0 := by
  obtain ⟨⟨stored, raw⟩, hstored⟩ := Option.isSome_iff_exists.mp sealed_facts.1
  obtain ⟨⟨new, rawNew⟩, hnew⟩ := Option.isSome_iff_exists.mp sealed_facts.2
  obtain ⟨-, -, -, -, hfirst⟩ := sealState_eq_some hstored
  obtain ⟨-, -, -, -, hsecond⟩ := sealState_eq_some hnew
  have hzero : ZonedTime.Clean {} := fun _ => rfl
  have hclean : stored.noIntegrity.Clean := by
    rw [hfirst]
    exact gatewayState_clean (fun _ => rfl) hzero
  have hclean' : new.noIntegrity.Clean := by
    rw [hsecond]
    exact gatewayState_clean (fun _ => rfl) fun h => absurd h (by decide)
  have hexact : new.noIntegrity.Exact := by
    rw [hsecond]
    exact gatewayState_exact rfl rfl
  refine ⟨stored, raw, hstored, (recovers_iff hstored rfl (.of_clean hclean) ?_ _ _ _).mpr ?_⟩
  · rw [hnew]
    rintro _ ⟨rfl⟩
    exact .of_clean hclean'
  · rw [hnew]
    exact ⟨(sealed_clean_iff hnew).mpr (hsecond ▸ hclean'), hexact⟩

end Fixture

end Kernloom
