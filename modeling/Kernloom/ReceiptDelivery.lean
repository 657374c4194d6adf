import Kernloom.JsonCodec
import Kernloom.KeyedTable
import Kernloom.Lease
import Kernloom.Transition

/-! The delivery of enforcement receipts: the table they wait in, their upload to the server, and
what is made of its answers. -/

namespace Kernloom

open Keyed Transition JsonText

inductive UploadStatus
  | pending
  | uploaded
  | failed
  deriving DecidableEq

structure ReceiptRow where
  id : String
  receipt : EnforcementReceipt
  uploadStatus : UploadStatus := .pending
  uploadedAt : Time := 0
  deriving DecidableEq

abbrev ReceiptTable := Table ReceiptRow.id

namespace ReceiptTable

/-- A receipt with an ID that is there already is ignored. How it was reverted is not stored. -/
def persistReceipt (id : String) (r : EnforcementReceipt) (t : ReceiptTable) : ReceiptTable :=
  match t.find id with
  | some _ => t
  | none => t.upsert { id := id, receipt := { r with revertStatus := none, revertedAt := none } }

def appliedBefore (r r' : ReceiptRow) : Prop := formatTime r.receipt.appliedAt ≤ formatTime
    r'.receipt.appliedAt

instance : DecidableRel appliedBefore := fun r r' =>
  inferInstanceAs (Decidable (formatTime r.receipt.appliedAt ≤ formatTime r'.receipt.appliedAt))

/-- The receipts not yet uploaded, the one applied first first. -/
def listPendingReceipts (limit : Nat) (t : ReceiptTable) : List ReceiptRow :=
  ((t.rows.filter fun row => row.uploadStatus = .pending ∨ row.uploadStatus = .failed).insertionSort
    appliedBefore).take limit

/-- The loop that marks the rows of the IDs. -/
def markReceipts (mark : ReceiptRow → ReceiptRow) (hmark : ∀ row, (mark row).id = row.id) (ids : List String)
    (t : ReceiptTable) : ReceiptTable :=
  ids.foldl (fun t id => t.modify id mark hmark) t

def markReceiptsUploaded (now : Time) : List String → ReceiptTable → ReceiptTable :=
  markReceipts (fun row => { row with uploadStatus := .uploaded, uploadedAt := now }) fun _ => rfl

def markReceiptsFailed : List String → ReceiptTable → ReceiptTable :=
  markReceipts (fun row => { row with uploadStatus := .failed }) fun _ => rfl

def pruneUploadedReceipts (cutoff : Time) (t : ReceiptTable) : ReceiptTable :=
  t.filter fun row => ¬ (row.uploadStatus = .uploaded ∧ formatTime row.receipt.appliedAt < formatTime cutoff)

end ReceiptTable

section Client

/-- A string value as Go holds it. -/
def goString (s : Text) : String := String.ofList (s.map Rune.read)

/-- The accepted IDs once a value is read into the field: an item that is no string leaves what
stands in its place, and a value that is no list leaves them all. -/
def decodeAccepted (cur : List String) : Value → List String
  | .null => []
  | .arr items => items.toList.mapIdx fun i item =>
      match item with
      | .str s => goString s
      | _ => cur.getD i ""
  | _ => cur

/-- Whether a field is read into `accepted`; the case of its name is not looked at. -/
def isAcceptedField (key : Text) : Bool := (key.map fun r => r.read.toLower) = "accepted".toList

/-- The accepted IDs that a body lists; the error of reading it is not looked at. -/
def acceptedOf (body : List Char) : List String :=
  match readValue (body.length + 1) body with
  | some (.obj fields, _) =>
    fields.toList.foldl (fun cur f => if isAcceptedField f.1 then decodeAccepted cur f.2 else cur) []
  | _ => []

inductive ServerAnswer
  | unreachable
  | response (status : Nat) (body : List Char)

/-- The IDs that the server accepted of a batch; `none` is an error. -/
def uploadReceipts (ids : List String) : ServerAnswer → Option (List String)
  | .unreachable => none
  | .response status body =>
    if status ≠ 200 ∧ status ≠ 201 then none
    -- the server listed no accepted IDs: all are taken as accepted
    else if acceptedOf body = [] then some ids
    else some (acceptedOf body)

end Client

section Uploader

def receiptUploadBatchSize : Nat := 50

def receiptRetentionPeriod : Duration := 7 * 24 * 3600 * Duration.second

variable (encodes : ReceiptRow → Bool)

/-- The receipts that a round uploads: the batch without what cannot be encoded. -/
def uploadBatch (t : ReceiptTable) : List String :=
  ((t.listPendingReceipts receiptUploadBatchSize).filter encodes).map ReceiptRow.id

/-- One round; `marks` is how many rows it can mark before the store fails. -/
def uploadPendingReceipts (now : Time) (listFails : Bool) (answer : ServerAnswer) (marks : Nat)
    (t : ReceiptTable) :
    ReceiptTable :=
  if listFails then t
  else if t.listPendingReceipts receiptUploadBatchSize = [] then t
  else match uploadReceipts (uploadBatch encodes t) answer with
    | none => t.markReceiptsFailed ((uploadBatch encodes t).take marks)
    | some accepted => t.markReceiptsUploaded now (accepted.take marks)

def pruneOldReceipts (now : Time) (fails : Bool) (t : ReceiptTable) : ReceiptTable :=
  if fails then t else t.pruneUploadedReceipts (now - receiptRetentionPeriod)

end Uploader

structure ReceiptQueue where
  rows : ReceiptTable
  persisted : List String
  /-- The IDs listed as accepted in answers so far, and those uploaded to an answer that listed none. -/
  listed : List String
  unlisted : List String
  /-- The receipts ever marked uploaded. -/
  marked : List String

inductive ReceiptEvent
  | persist (id : String) (r : EnforcementReceipt) (fails : Bool)
  | upload (now : Time) (listFails : Bool) (answer : ServerAnswer) (marks : Nat)
  | prune (now : Time) (fails : Bool)

namespace ReceiptQueue

def start : ReceiptQueue := ⟨.empty, [], [], [], []⟩

variable (encodes : ReceiptRow → Bool)

/-- Whether a round asked the server and it answered with success. -/
def Heard (w : ReceiptQueue) (listFails : Bool) (status : Nat) : Prop :=
  listFails = false ∧ w.rows.listPendingReceipts receiptUploadBatchSize ≠ [] ∧ (status = 200 ∨ status = 201)

instance (w : ReceiptQueue) (listFails : Bool) (status : Nat) : Decidable (w.Heard listFails status) :=
  inferInstanceAs (Decidable (_ ∧ _ ∧ _))

/-- The IDs that an answer of success lists as accepted. -/
def listedBy (w : ReceiptQueue) (listFails : Bool) : ServerAnswer → List String
  | .unreachable => []
  | .response status body => if w.Heard listFails status then acceptedOf body else []

/-- The receipts uploaded to an answer of success that lists none. -/
def unlistedBy (w : ReceiptQueue) (listFails : Bool) : ServerAnswer → List String
  | .unreachable => []
  | .response status body =>
    if w.Heard listFails status ∧ acceptedOf body = [] then uploadBatch encodes w.rows else []

/-- Every receipt has an ID of its own, so that one that was pruned is not persisted again. -/
def step (w : ReceiptQueue) : ReceiptEvent → Option ReceiptQueue
  | .persist id r fails =>
    if id ∈ w.persisted ∧ w.rows.find id = none then none
    else if fails then some w
    else some { w with rows := w.rows.persistReceipt id r, persisted := id :: w.persisted }
  | .upload now listFails answer marks =>
    let rows := uploadPendingReceipts encodes now listFails answer marks w.rows
    some { w with
      rows := rows
      listed := w.listedBy listFails answer ++ w.listed
      unlisted := w.unlistedBy encodes listFails answer ++ w.unlisted
      marked := ((rows.rows.filter fun row => row.uploadStatus = .uploaded).map ReceiptRow.id) ++ w.marked }
  | .prune now fails => some { w with rows := pruneOldReceipts now fails w.rows }

abbrev Step (w : ReceiptQueue) (e : ReceiptEvent) (w' : ReceiptQueue) : Prop := w.step encodes e = some w'

/-- What has been marked was listed or assumed as accepted, and what has not is still waiting. -/
structure Inv (w : ReceiptQueue) : Prop where
  known : ∀ row ∈ w.rows, row.id ∈ w.persisted
  kept : ∀ id ∈ w.persisted, id ∈ w.marked ∨ ∃ row ∈ w.rows, row.id = id
  answered : ∀ id ∈ w.marked, id ∈ w.listed ∨ id ∈ w.unlisted
  persisted : ∀ id ∈ w.marked, id ∈ w.persisted
  uploaded : ∀ row ∈ w.rows, row.uploadStatus = .uploaded ↔ row.id ∈ w.marked

end ReceiptQueue

namespace ReceiptTable

theorem mem_markReceipts {mark : ReceiptRow → ReceiptRow} {hmark : ∀ row, (mark row).id = row.id}
    (hidem : ∀ row, mark (mark row) = mark row) {ids : List String} {t : ReceiptTable} {row : ReceiptRow} :
    row ∈ t.markReceipts mark hmark ids ↔ ∃ row₀ ∈ t, row = if row₀.id ∈ ids then mark row₀ else row₀ := by
  induction ids generalizing t with
  | nil => simp [markReceipts]
  | cons id ids ih =>
    have hstep := ih (t := t.modify id mark hmark)
    rw [markReceipts, List.foldl_cons]
    rw [markReceipts] at hstep
    rw [hstep]
    constructor
    · rintro ⟨row₁, hrow₁, rfl⟩
      obtain ⟨row₀, hrow₀, rfl⟩ := Table.mem_modify.mp hrow₁
      refine ⟨row₀, hrow₀, ?_⟩
      by_cases hid : row₀.id = id
      · simp [hid, hmark, hidem]
      · simp [hid]
    · rintro ⟨row₀, hrow₀, rfl⟩
      refine ⟨_, Table.mem_modify.mpr ⟨row₀, hrow₀, rfl⟩, ?_⟩
      by_cases hid : row₀.id = id
      · simp [hid, hmark, hidem]
      · simp [hid]

theorem mem_markReceiptsUploaded {now : Time} {ids : List String} {t : ReceiptTable} {row : ReceiptRow} :
    row ∈ t.markReceiptsUploaded now ids ↔ ∃ row₀ ∈ t,
      row = if row₀.id ∈ ids then { row₀ with uploadStatus := .uploaded, uploadedAt := now } else row₀ := by
  rw [markReceiptsUploaded, mem_markReceipts]
  exact fun _ => rfl

theorem mem_markReceiptsFailed {ids : List String} {t : ReceiptTable} {row : ReceiptRow} :
    row ∈ t.markReceiptsFailed ids ↔ ∃ row₀ ∈ t,
      row = if row₀.id ∈ ids then { row₀ with uploadStatus := .failed } else row₀ := by
  rw [markReceiptsFailed, mem_markReceipts]
  exact fun _ => rfl

theorem mem_listPendingReceipts {limit : Nat} {t : ReceiptTable} {row : ReceiptRow}
    (h : row ∈ t.listPendingReceipts limit) : row ∈ t ∧ row.uploadStatus ≠ .uploaded := by
  have hrow := (List.mem_insertionSort _).mp (List.mem_of_mem_take h)
  obtain ⟨hmem, hstatus⟩ := List.mem_filter.mp hrow
  refine ⟨hmem, fun heq => ?_⟩
  simp [heq] at hstatus

/-- A receipt not uploaded is listed, unless the limit is reached by receipts applied no later. -/
theorem listed_of_waiting {t : ReceiptTable} {row : ReceiptRow} (hrow : row ∈ t)
    (hwait : row.uploadStatus ≠ .uploaded)
    (limit : Nat) : row ∈ t.listPendingReceipts limit ∨
      ((t.listPendingReceipts limit).length = limit ∧ ∀ r ∈ t.listPendingReceipts limit,
      appliedBefore r row) := by
  have : Std.Total appliedBefore := ⟨fun r r' => le_total _ _⟩
  have : IsTrans ReceiptRow appliedBefore := ⟨fun _ _ _ h h' => le_trans h h'⟩
  have hsorted := List.pairwise_insertionSort appliedBefore
    (t.rows.filter fun row => row.uploadStatus = .pending ∨ row.uploadStatus = .failed)
  have hmem : row ∈ (t.rows.filter fun row => row.uploadStatus = .pending ∨
      row.uploadStatus = .failed).insertionSort
      appliedBefore := by
    refine (List.mem_insertionSort _).mpr (List.mem_filter.mpr ⟨hrow, ?_⟩)
    cases hstatus : row.uploadStatus with
    | pending => simp
    | uploaded => exact absurd hstatus hwait
    | failed => simp
  unfold listPendingReceipts
  generalize (t.rows.filter fun row => row.uploadStatus = .pending ∨ row.uploadStatus = .failed).insertionSort
    appliedBefore = sorted at hsorted hmem ⊢
  rw [← List.take_append_drop limit sorted] at hsorted hmem
  rcases List.mem_append.mp hmem with htake | hdrop
  · exact .inl htake
  · refine .inr ⟨?_, fun r hr => (List.pairwise_append.mp hsorted).2.2 r hr row hdrop⟩
    have hlength := List.length_pos_of_mem hdrop
    rw [List.length_drop] at hlength
    rw [List.length_take]
    omega

end ReceiptTable

namespace ReceiptQueue

variable {encodes : ReceiptRow → Bool} {w w' : ReceiptQueue}

theorem start_inv : start.Inv where
  known _ hrow := absurd hrow Table.not_mem_empty
  kept _ hid := absurd hid List.not_mem_nil
  answered _ hid := absurd hid List.not_mem_nil
  persisted _ hid := absurd hid List.not_mem_nil
  uploaded _ hrow := absurd hrow Table.not_mem_empty

theorem mem_uploadBatch {t : ReceiptTable} {id : String} (h : id ∈ uploadBatch encodes t) :
    ∃ row ∈ t, row.id = id ∧ row.uploadStatus ≠ .uploaded := by
  obtain ⟨row, hrow, rfl⟩ := List.mem_map.mp h
  obtain ⟨hmem, hwait⟩ := ReceiptTable.mem_listPendingReceipts (List.mem_of_mem_filter hrow)
  exact ⟨row, hmem, rfl, hwait⟩

theorem Inv.persist {id : String} {r : EnforcementReceipt} {fails : Bool} (h : w.Inv)
    (hstep : w.Step encodes (.persist id r fails) w') : w'.Inv := by
  obtain ⟨hfresh, hstep⟩ := Option.ite_none_left_eq_some.mp hstep
  cases fails with
  | true =>
    obtain rfl := Option.some.inj hstep
    exact h
  | false =>
    obtain rfl := Option.some.inj hstep
    unfold ReceiptTable.persistReceipt
    cases hfind : w.rows.find id with
    | some row₀ =>
      obtain ⟨hrow₀, hkey⟩ := Table.find_eq_some.mp hfind
      refine ⟨fun row hrow => List.mem_cons_of_mem _ (h.known row hrow), fun id' hid' => ?_, h.answered,
        fun id' hid' => List.mem_cons_of_mem _ (h.persisted id' hid'), h.uploaded⟩
      rcases List.mem_cons.mp hid' with rfl | hid'
      · exact .inr ⟨row₀, hrow₀, hkey⟩
      · exact h.kept id' hid'
    | none =>
      have hnew : id ∉ w.persisted := fun hold => hfresh ⟨hold, hfind⟩
      have hmem (row : ReceiptRow) := Table.mem_upsert (t := w.rows) (r := row)
        (a := { id := id, receipt := { r with revertStatus := none, revertedAt := none } })
      refine ⟨fun row hrow => ?_, fun id' hid' => ?_, h.answered,
        fun id' hid' => List.mem_cons_of_mem _ (h.persisted id' hid'), fun row hrow => ?_⟩
      · rcases (hmem row).mp hrow with rfl | ⟨hrow, -⟩
        · exact List.mem_cons_self
        · exact List.mem_cons_of_mem _ (h.known row hrow)
      · rcases List.mem_cons.mp hid' with rfl | hid'
        · exact .inr ⟨_, Table.mem_upsert_self _ _, rfl⟩
        · rcases h.kept id' hid' with hmarked | ⟨row, hrow, rfl⟩
          · exact .inl hmarked
          · refine .inr ⟨row, Table.mem_upsert_of_mem hrow fun heq => hnew ?_, rfl⟩
            have heq : row.id = id := heq
            exact heq ▸ h.known row hrow
      · rcases (hmem row).mp hrow with rfl | ⟨hrow, -⟩
        · exact ⟨(fun hstatus => nomatch hstatus), fun hmarked => absurd (h.persisted id hmarked) hnew⟩
        · exact h.uploaded row hrow

/-- What a round may do to the rows: it leaves their IDs, and what was uploaded, and marks as
uploaded only what `accepted` names. -/
structure Marks (t t' : ReceiptTable) (accepted : List String) : Prop where
  rows : ∀ row' ∈ t', ∃ row ∈ t, row'.id = row.id ∧
    (row'.uploadStatus = .uploaded → row.uploadStatus = .uploaded ∨ row.id ∈ accepted) ∧
    (row.uploadStatus = .uploaded → row'.uploadStatus = .uploaded)
  kept : ∀ row ∈ t, ∃ row' ∈ t', row'.id = row.id

theorem Marks.refl (t : ReceiptTable) : Marks t t [] :=
  ⟨fun row hrow => ⟨row, hrow, rfl, .inl, id⟩, fun row hrow => ⟨row, hrow, rfl⟩⟩

theorem marks_uploaded (now : Time) (ids : List String) (t : ReceiptTable) :
    Marks t (t.markReceiptsUploaded now ids) ids := by
  refine ⟨fun row' hrow' => ?_, fun row hrow => ?_⟩
  · obtain ⟨row, hrow, rfl⟩ := ReceiptTable.mem_markReceiptsUploaded.mp hrow'
    refine ⟨row, hrow, ?_⟩
    by_cases hid : row.id ∈ ids
    · simp [hid]
    · simp [hid]
  · refine ⟨_, ReceiptTable.mem_markReceiptsUploaded.mpr ⟨row, hrow, rfl⟩, ?_⟩
    split <;> rfl

theorem marks_failed {ids : List String} {t : ReceiptTable}
    (hwait : ∀ row ∈ t, row.id ∈ ids → row.uploadStatus ≠ .uploaded) :
    Marks t (t.markReceiptsFailed ids) [] := by
  refine ⟨fun row' hrow' => ?_, fun row hrow => ?_⟩
  · obtain ⟨row, hrow, rfl⟩ := ReceiptTable.mem_markReceiptsFailed.mp hrow'
    refine ⟨row, hrow, ?_⟩
    by_cases hid : row.id ∈ ids
    · simp [hid, hwait row hrow hid]
    · simp [hid]
  · refine ⟨_, ReceiptTable.mem_markReceiptsFailed.mpr ⟨row, hrow, rfl⟩, ?_⟩
    split <;> rfl

/-- A round marks what the answer lists, or what was sent when it lists none. -/
theorem round_marks (now : Time) (listFails : Bool) (answer : ServerAnswer) (marks : Nat) :
    Marks w.rows (uploadPendingReceipts encodes now listFails answer marks w.rows)
      (w.listedBy listFails answer ++ w.unlistedBy encodes listFails answer) := by
  have hnone {accepted : List String} : Marks w.rows w.rows accepted := by
    refine ⟨fun row hrow => ⟨row, hrow, rfl, .inl, id⟩, (Marks.refl w.rows).kept⟩
  have hfailed {accepted : List String} :
      Marks w.rows (w.rows.markReceiptsFailed ((uploadBatch encodes w.rows).take marks)) accepted := by
    have hmarks : Marks w.rows (w.rows.markReceiptsFailed ((uploadBatch encodes w.rows).take marks)) [] := by
      refine marks_failed fun row hrow hid => ?_
      obtain ⟨row', hrow', heq, hwait⟩ := mem_uploadBatch (List.mem_of_mem_take hid)
      exact Table.eq_of_key_eq hrow' hrow heq ▸ hwait
    refine ⟨fun row' hrow' => ?_, hmarks.kept⟩
    obtain ⟨row, hrow, heq, hmarked, hkept⟩ := hmarks.rows row' hrow'
    exact ⟨row, hrow, heq, fun hstatus => .inl ((hmarked hstatus).resolve_right List.not_mem_nil), hkept⟩
  have huploaded {ids accepted : List String} (hsub : ids ⊆ accepted) :
      Marks w.rows (w.rows.markReceiptsUploaded now (ids.take marks)) accepted := by
    have hmarks := marks_uploaded now (ids.take marks) w.rows
    refine ⟨fun row' hrow' => ?_, hmarks.kept⟩
    obtain ⟨row, hrow, heq, hmarked, hkept⟩ := hmarks.rows row' hrow'
    exact ⟨row, hrow, heq, fun hstatus => (hmarked hstatus).imp_right fun hid =>
      hsub (List.mem_of_mem_take hid), hkept⟩
  unfold uploadPendingReceipts
  split
  · exact hnone
  · next hlist =>
    split
    · exact hnone
    · next hpending =>
      cases answer with
      | unreachable => exact hfailed
      | response status body =>
        by_cases hstatus : status ≠ 200 ∧ status ≠ 201
        · rw [uploadReceipts, if_pos hstatus]
          exact hfailed
        · have hheard : w.Heard listFails status :=
            ⟨Bool.eq_false_iff.mpr hlist, hpending, by omega⟩
          rw [uploadReceipts, if_neg hstatus, listedBy, unlistedBy, if_pos hheard]
          by_cases hempty : acceptedOf body = []
          · rw [if_pos hempty, if_pos ⟨hheard, hempty⟩]
            exact huploaded (List.subset_append_right _ _)
          · rw [if_neg hempty]
            exact huploaded (List.subset_append_left _ _)

theorem Inv.upload {now : Time} {listFails : Bool} {answer : ServerAnswer} {marks : Nat} (h : w.Inv)
    (hstep : w.Step encodes (.upload now listFails answer marks) w') : w'.Inv := by
  obtain rfl := Option.some.inj hstep
  have hround : Marks w.rows (uploadPendingReceipts encodes now listFails answer marks w.rows) _ :=
    round_marks now listFails answer marks
  generalize uploadPendingReceipts encodes now listFails answer marks w.rows = rows at hround ⊢
  have hmarked {id : String} :
      id ∈ ((rows.rows.filter fun row => row.uploadStatus = .uploaded).map ReceiptRow.id) ↔
      ∃ row ∈ rows, row.uploadStatus = .uploaded ∧ row.id = id := by
    simp [Table.mem_rows, and_assoc]
  refine ⟨fun row' hrow' => ?_, fun id hid => ?_, fun id hid => ?_, fun id hid => ?_, fun row' hrow' => ?_⟩
  · obtain ⟨row, hrow, heq, -⟩ := hround.rows row' hrow'
    exact heq ▸ h.known row hrow
  · rcases h.kept id hid with hold | ⟨row, hrow, rfl⟩
    · exact .inl (List.mem_append_right _ hold)
    · exact .inr (hround.kept row hrow)
  · have hold (hid : id ∈ w.marked) : id ∈ w.listedBy listFails answer ++ w.listed ∨
        id ∈ w.unlistedBy encodes listFails answer ++ w.unlisted :=
      (h.answered id hid).imp (List.mem_append_right _) (List.mem_append_right _)
    rcases List.mem_append.mp hid with hnew | hid
    · obtain ⟨row', hrow', hstatus, rfl⟩ := hmarked.mp hnew
      obtain ⟨row, hrow, heq, hfrom, -⟩ := hround.rows row' hrow'
      rw [heq] at hold ⊢
      rcases hfrom hstatus with huploaded | hanswer
      · exact hold ((h.uploaded row hrow).mp huploaded)
      · exact (List.mem_append.mp hanswer).imp (List.mem_append_left _) (List.mem_append_left _)
    · exact hold hid
  · rcases List.mem_append.mp hid with hnew | hid
    · obtain ⟨row', hrow', -, rfl⟩ := hmarked.mp hnew
      obtain ⟨row, hrow, heq, -⟩ := hround.rows row' hrow'
      exact heq ▸ h.known row hrow
    · exact h.persisted id hid
  · constructor
    · exact fun hstatus => List.mem_append_left _ (hmarked.mpr ⟨row', hrow', hstatus, rfl⟩)
    · intro hid
      rcases List.mem_append.mp hid with hnew | hid
      · obtain ⟨row'', hrow'', hstatus, heq⟩ := hmarked.mp hnew
        exact Table.eq_of_key_eq hrow'' hrow' heq ▸ hstatus
      · obtain ⟨row, hrow, heq, -, hkept⟩ := hround.rows row' hrow'
        exact hkept ((h.uploaded row hrow).mpr (heq ▸ hid))

theorem Inv.prune {now : Time} {fails : Bool} (h : w.Inv) (hstep : w.Step encodes (.prune now fails) w') :
    w'.Inv := by
  obtain rfl := Option.some.inj hstep
  cases fails with
  | true => exact h
  | false =>
    have hmem (row : ReceiptRow) : row ∈ pruneOldReceipts now false w.rows ↔ row ∈ w.rows ∧
        ¬ (row.uploadStatus = .uploaded ∧
          formatTime row.receipt.appliedAt < formatTime (now - receiptRetentionPeriod)) := by
      rw [pruneOldReceipts, if_neg Bool.false_ne_true, ReceiptTable.pruneUploadedReceipts, Table.mem_filter,
        decide_eq_true_eq]
    refine ⟨fun row hrow => h.known row ((hmem row).mp hrow).1, fun id hid => ?_, h.answered, h.persisted,
      fun row hrow => h.uploaded row ((hmem row).mp hrow).1⟩
    rcases h.kept id hid with hmarked | ⟨row, hrow, rfl⟩
    · exact .inl hmarked
    · by_cases hstatus : row.uploadStatus = .uploaded
      · exact .inl ((h.uploaded row hrow).mp hstatus)
      · exact .inr ⟨row, (hmem row).mpr ⟨hrow, fun hold => hstatus hold.1⟩, rfl⟩

theorem Inv.step {e : ReceiptEvent} (h : w.Inv) (hstep : w.Step encodes e w') : w'.Inv := by
  cases e with
  | persist id r fails => exact h.persist hstep
  | upload now listFails answer marks => exact h.upload hstep
  | prune now fails => exact h.prune hstep

/-- A receipt is marked uploaded only if an answer lists it or lists none; until it is, it is
listed within the limit; and once it is, no round uploads it. -/
theorem receipts_delivered {encodes : ReceiptRow → Bool} {es : List ReceiptEvent} {w : ReceiptQueue}
    (h : Run (Step encodes) start es w) :
    (∀ row ∈ w.rows, row.uploadStatus = .uploaded → row.id ∈ w.listed ∨ row.id ∈ w.unlisted) ∧
    (∀ id ∈ w.persisted, id ∈ w.marked ∨ ∃ row ∈ w.rows, row.id = id ∧
      ∀ limit, row ∈ w.rows.listPendingReceipts limit ∨
        ((w.rows.listPendingReceipts limit).length = limit ∧
          ∀ r ∈ w.rows.listPendingReceipts limit, ReceiptTable.appliedBefore r row)) ∧
    ∀ id ∈ uploadBatch encodes w.rows, id ∉ w.marked := by
  have hinv : w.Inv := h.invariant start_inv fun hinv hstep => hinv.step hstep
  refine ⟨fun row hrow hstatus => hinv.answered _ ((hinv.uploaded row hrow).mp hstatus), fun id hid => ?_,
    fun id hid hmarked => ?_⟩
  · rcases hinv.kept id hid with hmarked | ⟨row, hrow, rfl⟩
    · exact .inl hmarked
    · by_cases hstatus : row.uploadStatus = .uploaded
      · exact .inl ((hinv.uploaded row hrow).mp hstatus)
      · exact .inr ⟨row, hrow, rfl, ReceiptTable.listed_of_waiting hrow hstatus⟩
  · obtain ⟨row, hrow, rfl, hwait⟩ := mem_uploadBatch hid
    exact hwait ((hinv.uploaded row hrow).mpr hmarked)

section Fixtures

def fixtureReceipt : EnforcementReceipt where
  decisionID := "d-1"
  nodeID := "node-1"
  adapterID := "shield-pep"
  status := .applied
  appliedAt := Duration.second

/-- Two receipts uploaded to a server that lists the first. -/
def partlyAccepted : ReceiptQueue :=
  ([.persist "r-1" fixtureReceipt false, .persist "r-2" fixtureReceipt false,
    .upload (2 * Duration.second) false (.response 200 "\x7b\"accepted\":[\"r-1\"]\x7d".toList) 1].foldlM
    (ReceiptQueue.step fun _ => true) start).get (by decide +kernel)

/-- One receipt uploaded to a server that lists none. -/
def noneAccepted : ReceiptQueue :=
  ([.persist "r-1" fixtureReceipt false,
    .upload (2 * Duration.second) false (.response 200 "\x7b\"accepted\":[]\x7d".toList) 1].foldlM
    (ReceiptQueue.step fun _ => true) start).get (by decide +kernel)

theorem answer_facts :
    ((∃ row ∈ partlyAccepted.rows.rows, row.id = "r-1" ∧ row.uploadStatus = .uploaded) ∧
      "r-2" ∈ partlyAccepted.persisted ∧ "r-2" ∈ uploadBatch (fun _ => true) partlyAccepted.rows) ∧
    ∃ row ∈ noneAccepted.rows.rows, row.uploadStatus = .uploaded ∧ row.id ∉ noneAccepted.listed := by
  decide +kernel

end Fixtures

theorem partly_accepted_delivered :
    ("r-1" ∈ partlyAccepted.listed ∨ "r-1" ∈ partlyAccepted.unlisted) ∧ "r-2" ∉ partlyAccepted.marked := by
  obtain ⟨⟨⟨row, hrow, hid, hstatus⟩, -, hbatch⟩, -⟩ := answer_facts
  obtain ⟨hanswered, -, hnever⟩ := receipts_delivered (run_of_foldlM (Option.some_get _).symm :
    Run (Step fun _ => true) start _ partlyAccepted)
  exact ⟨hid ▸ hanswered row hrow hstatus, hnever "r-2" hbatch⟩

/-- An answer that lists no receipt as accepted marks the whole batch. -/
theorem unlisted_receipt_marked : ¬ ∀ es w, Run (Step fun _ => true) start es w →
    ∀ row ∈ w.rows, row.uploadStatus = .uploaded → row.id ∈ w.listed := by
  intro h
  obtain ⟨-, row, hrow, hstatus, hlisted⟩ := answer_facts
  exact hlisted (h _ noneAccepted (run_of_foldlM (Option.some_get _).symm) row hrow hstatus)

end ReceiptQueue

end Kernloom
