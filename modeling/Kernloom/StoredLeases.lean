import Kernloom.JsonCompact
import Kernloom.TimeReading
import Kernloom.Transition

/-! The rows of the lease table: how a lease is written into the columns of its row, and how the rows of a
status are listed. The list is that of no row if one of them cannot be read. -/

namespace Kernloom

open JsonText Keyed Transition

section Rows

/-- The columns that are the strings of a lease. -/
structure LeaseTexts where
  leaseID : Text
  decisionID : Text := []
  proposalID : Text := []
  nodeID : Text := []
  adapterID : Text := []
  target : Text := []
  action : Text := []
  level : Text := []
  status : Text
  fencingToken : Text := []
  policyID : Text := []
  bundleID : Text := []
  reason : Text := []
  lastError : Text := []
  deriving DecidableEq

/-- A lease with any strings and times at any location. -/
structure LeaseValue extends LeaseTexts where
  appliedAt : ZonedTime
  expiresAt : ZonedTime
  revertedAt : Option ZonedTime := none
  metadata : Option (TextMap Text) := none

structure LeaseRow extends LeaseTexts where
  appliedAt : String
  expiresAt : String
  revertedAt : String
  metadata : List Char

def formatOptionalTime : Option ZonedTime → String
  | none => ""
  | some t => formatTime t.instant

/-- A map is written in the order of its keys. -/
def marshalMetadata : Option (TextMap Text) → List Char
  | none => ['n', 'u', 'l', 'l']
  | some m => JsonText.compactStrings m.sorted

def LeaseValue.row (l : LeaseValue) : LeaseRow where
  toLeaseTexts := l.toLeaseTexts
  appliedAt := formatTime l.appliedAt.instant
  expiresAt := formatTime l.expiresAt.instant
  revertedAt := formatOptionalTime l.revertedAt
  metadata := marshalMetadata l.metadata

variable (timeError : String → String) (jsonError : List Char → String)

def parseTime (column text : String) : Except String ZonedTime :=
  match readTime text.toList with
  | some t => .ok t
  | none => .error ("parse " ++ column ++ ": " ++ timeError text)

def unmarshalMetadata (text : List Char) : Except String (Option (TextMap Text)) :=
  match parse text with
  | none => .error ("unmarshal action lease metadata: " ++ jsonError text)
  | some .null => .ok none
  | some v =>
    match (Codec.map Codec.text).decode v with
    | none => .error ("unmarshal action lease metadata: " ++ jsonError text)
    | some m => .ok (some m)

/-- A column that is empty without a time. -/
def parseOptionalTime (column text : String) : Except String (Option ZonedTime) :=
  if text ≠ "" then (parseTime timeError column text).map some else .ok none

def scanMetadata (text : List Char) : Except String (Option (TextMap Text)) :=
  if text ≠ [] then unmarshalMetadata jsonError text else .ok none

def scanActionLease (row : LeaseRow) : Except String LeaseValue := do
  let appliedAt ← parseTime timeError "applied_at" row.appliedAt
  let expiresAt ← parseTime timeError "expires_at" row.expiresAt
  let revertedAt ← parseOptionalTime timeError "reverted_at" row.revertedAt
  let metadata ← scanMetadata jsonError row.metadata
  return { toLeaseTexts := row.toLeaseTexts, appliedAt, expiresAt, revertedAt,
           metadata := some (metadata.getD .empty) }

end Rows

section Store

def LeaseRow.key (row : LeaseRow) : Text := row.leaseID

/-- The stored rows. -/
abbrev RowTable := Table LeaseRow.key

/-- The order of the listings. -/
def rowBefore (row row' : LeaseRow) : Prop :=
  toLex (row.expiresAt, textBytes row.leaseID) ≤ toLex (row'.expiresAt, textBytes row'.leaseID)

instance : DecidableRel rowBefore := fun row row' =>
  inferInstanceAs (Decidable (toLex (row.expiresAt, textBytes row.leaseID) ≤
    toLex (row'.expiresAt, textBytes row'.leaseID)))

/-- The rows of a status in the order of the listings, up to the first that cannot be read. -/
def RowTable.list (timeError : String → String) (jsonError : List Char → String) (t : RowTable)
    (status : Text) :
    Except String (List LeaseValue) :=
  ((t.rows.filter fun row => row.status = status).insertionSort rowBefore).mapM
    (scanActionLease timeError jsonError)

/-- A write of the store. -/
inductive LeaseWrite where
  | upsert (l : LeaseValue)
  | updateStatus (l : LeaseValue)

/-- The columns that a status update writes. -/
def LeaseRow.withStatus (l : LeaseValue) (row : LeaseRow) : LeaseRow :=
  { row with status := l.status, revertedAt := formatOptionalTime l.revertedAt, lastError := l.lastError }

theorem LeaseRow.key_withStatus (l : LeaseValue) (row : LeaseRow) : (row.withStatus l).key = row.key := rfl

def LeaseWrite.apply (t : RowTable) : LeaseWrite → RowTable
  | .upsert l => t.upsert l.row
  | .updateStatus l => t.modify l.leaseID (LeaseRow.withStatus l) (LeaseRow.key_withStatus l)

end Store

section Scans

variable {timeError : String → String} {jsonError : List Char → String}

/-- A time that is written with a text and read back from it. -/
def ZonedTime.Timed (t : ZonedTime) : Prop := t.instant ≠ 0 ∧ FourDigits t.instant

theorem parseTime_formatTime {column : String} {t : ZonedTime} (h : t.Timed) :
    parseTime timeError column (formatTime t.instant) = .ok ⟨t.instant, 0⟩ := by
  unfold parseTime formatTime
  rw [if_neg h.1, readTime_rfc3339Nano h.2]

theorem parseTime_error {column : String} {t : ZonedTime} (h : ¬ t.Timed) :
    ∃ err, parseTime timeError column (formatTime t.instant) = .error err := by
  have hread : readTime (formatTime t.instant).toList = none := by
    unfold formatTime
    by_cases hzero : t.instant = 0
    · rw [if_pos hzero]
      rfl
    · rw [if_neg hzero]
      exact readTime_eq_none fun hyear => h ⟨hzero, hyear⟩
  refine ⟨"parse " ++ column ++ ": " ++ timeError (formatTime t.instant), ?_⟩
  unfold parseTime
  rw [hread]

theorem formatTime_eq_empty {t : Int} : formatTime t = "" ↔ t = 0 := by
  unfold formatTime
  by_cases hzero : t = 0
  · exact iff_of_true (if_pos hzero) hzero
  · rw [if_neg hzero]
    exact iff_of_false (fun heq => rfc3339Nano_ne_nil t (congrArg String.toList heq)) hzero

theorem encode_strings (es : List (Text × Text)) :
    es.mapM (encodeEntry Codec.text) = some (es.map fun e => (e.1, .str e.2)) := by
  induction es with
  | nil => rfl
  | cons e es ih => exact mapM_cons_eq_some.mpr ⟨_, _, rfl, ih, rfl⟩

theorem toList_ofList (fs : List (Text × Value)) : (Fields.ofList fs).toList = fs := by
  induction fs with
  | nil => rfl
  | cons f fs ih => simp only [Fields.ofList, Fields.toList, ih]

theorem marshalMetadata_ne_nil (metadata : Option (TextMap Text)) : marshalMetadata metadata ≠ [] := by
  cases metadata with
  | none => exact List.cons_ne_nil _ _
  | some m =>
    show JsonText.compactStrings m.sorted ≠ []
    cases m.sorted <;> exact List.cons_ne_nil _ _

/-- The strings of the metadata come back with their stray bytes replaced. -/
theorem unmarshal_marshalMetadata (metadata : Option (TextMap Text)) :
    unmarshalMetadata jsonError (marshalMetadata metadata) = .ok (metadata.map (readMap Codec.text)) := by
  cases metadata with
  | none => rfl
  | some m =>
    have hdecode : (Codec.map Codec.text).decode (.obj (stringFields m.sorted)) = some
        (readMap Codec.text m) := by
      have hentries := decode_entries Codec.text (encode_strings m.sorted)
      rw [List.map_map] at hentries
      show ((stringFields m.sorted).toList.mapM (decodeEntry Codec.text)).map TextMap.ofEntries = _
      rw [stringFields, toList_ofList]
      exact congrArg (Option.map TextMap.ofEntries) hentries
    unfold unmarshalMetadata marshalMetadata
    dsimp only
    rw [parse_compactStrings]
    simp only [hdecode, Option.map_some]

/-- A lease whose row can be read. -/
structure LeaseValue.Listable (l : LeaseValue) : Prop where
  applied : l.appliedAt.Timed
  expires : l.expiresAt.Timed
  reverted : ∀ t ∈ l.revertedAt, t.instant = 0 ∨ t.Timed

/-- What a listing gives for a lease. -/
def LeaseValue.read (l : LeaseValue) : LeaseValue where
  toLeaseTexts := l.toLeaseTexts
  appliedAt := ⟨l.appliedAt.instant, 0⟩
  expiresAt := ⟨l.expiresAt.instant, 0⟩
  revertedAt := l.revertedAt.bind fun t => if t.instant = 0 then none else some ⟨t.instant, 0⟩
  metadata := some ((l.metadata.map (readMap Codec.text)).getD .empty)

theorem scanMetadata_row (l : LeaseValue) :
    scanMetadata jsonError l.row.metadata = .ok (l.metadata.map (readMap Codec.text)) :=
  (if_pos (marshalMetadata_ne_nil l.metadata)).trans (unmarshal_marshalMetadata l.metadata)

theorem parseOptionalTime_row {l : LeaseValue} (h : ∀ t ∈ l.revertedAt, t.instant = 0 ∨ t.Timed) :
    parseOptionalTime timeError "reverted_at" l.row.revertedAt = .ok l.read.revertedAt := by
  show parseOptionalTime timeError "reverted_at" (formatOptionalTime l.revertedAt) =
    .ok (l.revertedAt.bind fun t => if t.instant = 0 then none else some ⟨t.instant, 0⟩)
  cases hreverted : l.revertedAt with
  | none => exact if_neg (not_not.mpr rfl)
  | some t =>
    unfold parseOptionalTime formatOptionalTime
    rw [Option.bind_some]
    dsimp only
    by_cases hzero : t.instant = 0
    · rw [if_pos hzero, if_neg (not_not.mpr (formatTime_eq_empty.mpr hzero))]
    · have htimed : t.Timed := (h t hreverted).resolve_left hzero
      rw [if_neg hzero, if_pos (mt formatTime_eq_empty.mp hzero), parseTime_formatTime htimed]
      rfl

theorem scan_row {l : LeaseValue} (h : l.Listable) :
    scanActionLease timeError jsonError l.row = .ok l.read := by
  have happlied : parseTime timeError "applied_at" l.row.appliedAt = .ok ⟨l.appliedAt.instant, 0⟩ :=
    parseTime_formatTime h.applied
  have hexpires : parseTime timeError "expires_at" l.row.expiresAt = .ok ⟨l.expiresAt.instant, 0⟩ :=
    parseTime_formatTime h.expires
  have hreverted : parseOptionalTime timeError "reverted_at" l.row.revertedAt = .ok l.read.revertedAt :=
    parseOptionalTime_row h.reverted
  have hmetadata : scanMetadata jsonError l.row.metadata = .ok (l.metadata.map (readMap Codec.text)) :=
    scanMetadata_row l
  unfold scanActionLease
  rw [happlied, hexpires, hreverted, hmetadata]
  rfl

theorem scan_row_error {l : LeaseValue} (h : ¬ l.Listable) :
    ∃ err, scanActionLease timeError jsonError l.row = .error err := by
  unfold scanActionLease
  by_cases happlied : l.appliedAt.Timed
  · have hparsed : parseTime timeError "applied_at" l.row.appliedAt = .ok ⟨l.appliedAt.instant, 0⟩ :=
      parseTime_formatTime happlied
    rw [hparsed]
    by_cases hexpires : l.expiresAt.Timed
    · have hparsed : parseTime timeError "expires_at" l.row.expiresAt = .ok ⟨l.expiresAt.instant, 0⟩ :=
        parseTime_formatTime hexpires
      rw [hparsed]
      obtain ⟨t, ht, hzero, htimed⟩ : ∃ t, l.revertedAt = some t ∧ t.instant ≠ 0 ∧ ¬ t.Timed := by
        by_contra hnone
        refine h ⟨happlied, hexpires, fun t ht => ?_⟩
        by_contra hnot
        exact hnone ⟨t, ht, fun hzero => hnot (.inl hzero), fun htimed => hnot (.inr htimed)⟩
      obtain ⟨err, herr⟩ : ∃ err, parseTime timeError "reverted_at" (formatTime t.instant) = .error err :=
        parseTime_error htimed
      have hreverted : parseOptionalTime timeError "reverted_at" l.row.revertedAt = .error err := by
        show parseOptionalTime timeError "reverted_at" (formatOptionalTime l.revertedAt) = .error err
        rw [ht]
        unfold parseOptionalTime formatOptionalTime
        rw [if_pos (mt formatTime_eq_empty.mp hzero), herr]
        rfl
      rw [hreverted]
      exact ⟨err, rfl⟩
    · obtain ⟨err, herr⟩ : ∃ err, parseTime timeError "expires_at" l.row.expiresAt = .error err :=
        parseTime_error hexpires
      rw [herr]
      exact ⟨err, rfl⟩
  · obtain ⟨err, herr⟩ : ∃ err, parseTime timeError "applied_at" l.row.appliedAt = .error err :=
      parseTime_error happlied
    rw [herr]
    exact ⟨err, rfl⟩

theorem scan_row_iff {l : LeaseValue} : (∃ l', scanActionLease timeError jsonError l.row = .ok l') ↔
    l.Listable := by
  constructor
  · rintro ⟨l', hl'⟩
    by_contra hnot
    obtain ⟨err, herr⟩ : ∃ err, scanActionLease timeError jsonError l.row = .error err := scan_row_error hnot
    rw [herr] at hl'
    cases hl'
  · intro h
    exact ⟨l.read, scan_row h⟩

end Scans

end Kernloom
