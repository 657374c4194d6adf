import Kernloom.ReceiptDelivery
import Kernloom.StoredLeases

/-! The columns of the receipt table: when a receipt is listed for the upload as it was recorded. -/

namespace Kernloom

open JsonText Keyed

section Columns

structure ReceiptTexts where
  id : Text
  decisionID : Text := []
  leaseID : Text := []
  nodeID : Text := []
  adapterID : Text := []
  status : Text
  action : Text := []
  target : Text := []
  message : Text := []
  fencingToken : Text := []
  deriving DecidableEq

structure ReceiptValue extends ReceiptTexts where
  revertStatus : Text := []
  appliedAt : ZonedTime
  expiresAt : Option ZonedTime := none
  revertedAt : Option ZonedTime := none

structure ReceiptColumns extends ReceiptTexts where
  appliedAt : String
  expiresAt : String
  uploadStatus : UploadStatus
  uploadedAt : String

/-- The values that are inserted; how the action was reverted is not among them. -/
def ReceiptValue.columns (r : ReceiptValue) : ReceiptColumns where
  toReceiptTexts := r.toReceiptTexts
  appliedAt := formatTime r.appliedAt.instant
  expiresAt := formatOptionalTime r.expiresAt
  uploadStatus := .pending
  uploadedAt := ""

/-- A time that cannot be parsed is left out. -/
def scanReceipt (row : ReceiptColumns) : ReceiptValue where
  toReceiptTexts := row.toReceiptTexts
  appliedAt := (readTime row.appliedAt.toList).getD ⟨0, 0⟩
  expiresAt := if row.expiresAt ≠ "" then readTime row.expiresAt.toList else none

def ReceiptColumns.key (row : ReceiptColumns) : Text := row.id

abbrev ReceiptStore := Table ReceiptColumns.key

namespace ReceiptStore

/-- `INSERT OR IGNORE`. -/
def persistReceipt (r : ReceiptValue) (t : ReceiptStore) : ReceiptStore :=
  match t.find r.id with
  | some _ => t
  | none => t.upsert r.columns

/-- The rows that wait for an upload, in the order they are selected. -/
def pendingRows (t : ReceiptStore) : List ReceiptColumns :=
  (t.rows.filter fun row => row.uploadStatus = .pending ∨ row.uploadStatus = .failed).insertionSort
    fun row row' => row.appliedAt ≤ row'.appliedAt

def listPendingReceipts (limit : Nat) (t : ReceiptStore) : List ReceiptValue :=
  (t.pendingRows.take limit).map scanReceipt

end ReceiptStore

end Columns

section Equality

variable {r : ReceiptValue}

/-- Two receipts that are equal up to the location of their times. -/
structure SameReceipt (r r' : ReceiptValue) : Prop where
  texts : r.toReceiptTexts = r'.toReceiptTexts
  revertStatus : r.revertStatus = r'.revertStatus
  applied : r.appliedAt.instant = r'.appliedAt.instant
  expires : r.expiresAt.map (·.instant) = r'.expiresAt.map (·.instant)
  reverted : r.revertedAt.map (·.instant) = r'.revertedAt.map (·.instant)

/-- A receipt without revert information, whose times can be written and read. -/
structure ReceiptValue.Storable (r : ReceiptValue) : Prop where
  revertStatus : r.revertStatus = []
  reverted : r.revertedAt = none
  applied : FourDigits r.appliedAt.instant
  expires : ∀ t ∈ r.expiresAt, t.Timed

theorem scan_applied_iff : (scanReceipt r.columns).appliedAt.instant = r.appliedAt.instant ↔
    FourDigits r.appliedAt.instant := by
  have hzero : FourDigits 0 := by
    unfold FourDigits
    decide
  show ((readTime (formatTime r.appliedAt.instant).toList).getD ⟨0, 0⟩).instant = _ ↔ _
  by_cases hset : r.appliedAt.instant = 0
  · rw [hset, formatTime_eq_empty.mpr rfl]
    exact iff_of_true rfl hzero
  · rw [formatTime, if_neg hset]
    by_cases hyear : FourDigits r.appliedAt.instant
    · rw [readTime_rfc3339Nano hyear]
      exact iff_of_true rfl hyear
    · rw [readTime_eq_none hyear]
      exact iff_of_false (fun h => hset h.symm) hyear

theorem scan_expires_iff : (scanReceipt r.columns).expiresAt.map (·.instant) = r.expiresAt.map (·.instant) ↔
    ∀ t ∈ r.expiresAt, t.Timed := by
  show (if formatOptionalTime r.expiresAt ≠ "" then readTime (formatOptionalTime r.expiresAt).toList
    else none).map ZonedTime.instant = _ ↔ _
  cases r.expiresAt with
  | none => simp [formatOptionalTime]
  | some t =>
    have hforall : (∀ t' ∈ some t, t'.Timed) ↔ t.Timed := by simp
    rw [hforall, formatOptionalTime]
    by_cases hset : t.instant = 0
    · rw [if_neg (not_not.mpr (formatTime_eq_empty.mpr hset))]
      exact iff_of_false (fun h => nomatch h) fun h => h.1 hset
    · rw [if_pos (mt formatTime_eq_empty.mp hset), formatTime, if_neg hset]
      by_cases hyear : FourDigits t.instant
      · rw [readTime_rfc3339Nano hyear]
        exact iff_of_true rfl ⟨hset, hyear⟩
      · rw [readTime_eq_none hyear]
        exact iff_of_false (fun h => nomatch h) fun h => hyear h.2

/-- What is read of the columns is the receipt exactly if it can be stored. -/
theorem same_scan_iff : SameReceipt r (scanReceipt r.columns) ↔ r.Storable := by
  constructor
  · intro h
    exact ⟨h.revertStatus, Option.map_eq_none_iff.mp h.reverted, scan_applied_iff.mp h.applied.symm,
      scan_expires_iff.mp h.expires.symm⟩
  · intro h
    refine ⟨rfl, h.revertStatus, (scan_applied_iff.mpr h.applied).symm,
      (scan_expires_iff.mpr h.expires).symm, ?_⟩
    rw [h.reverted]
    rfl

end Equality

section Store

open ReceiptStore

variable {r : ReceiptValue} {t : ReceiptStore}

theorem persistReceipt_of_find_eq_none (h : t.find r.id = none) :
    persistReceipt r t = t.upsert r.columns := by
  unfold persistReceipt
  rw [h]

theorem persistReceipt_of_find_eq_some {row : ReceiptColumns} (h : t.find r.id = some row) :
    persistReceipt r t = t := by
  unfold persistReceipt
  rw [h]

theorem find_persistReceipt (r : ReceiptValue) (t : ReceiptStore) : ∃ row,
    (persistReceipt r t).find r.id = some row := by
  cases h : t.find r.id with
  | none =>
    rw [persistReceipt_of_find_eq_none h]
    exact ⟨r.columns, Table.find_eq_some.mpr ⟨Table.mem_upsert_self t r.columns, rfl⟩⟩
  | some row =>
    rw [persistReceipt_of_find_eq_some h]
    exact ⟨row, h⟩

theorem mem_pendingRows {row : ReceiptColumns} : row ∈ t.pendingRows ↔
    row ∈ t ∧ (row.uploadStatus = .pending ∨ row.uploadStatus = .failed) := by
  unfold pendingRows
  simp [Table.mem_rows]

theorem mem_listPendingReceipts {limit : Nat} (hlimit : t.pendingRows.length ≤ limit) {r' : ReceiptValue} :
    r' ∈ t.listPendingReceipts limit ↔ ∃ row ∈ t.pendingRows, scanReceipt row = r' := by
  unfold listPendingReceipts
  rw [List.take_of_length_le hlimit, List.mem_map]

/-- A receipt that is recorded is listed as it was, one of an ID that is there is ignored, and the others stay. -/
structure ReceiptRoundTrips (t : ReceiptStore) (r : ReceiptValue) : Prop where
  listed : t.find r.id = none → ∀ limit, (persistReceipt r t).pendingRows.length ≤ limit →
    ∃ r' ∈ (persistReceipt r t).listPendingReceipts limit, SameReceipt r r'
  second : ∀ r₂ : ReceiptValue, r₂.id = r.id → persistReceipt r₂ (persistReceipt r t) = persistReceipt r t
  others : ∀ row : ReceiptColumns, row.id ≠ r.id → (row ∈ persistReceipt r t ↔ row ∈ t)

/-- A new receipt is listed as it was recorded exactly if it can be stored. -/
theorem receipt_round_trips_iff (t : ReceiptStore) (r : ReceiptValue) :
    ReceiptRoundTrips t r ↔ (t.find r.id = none → r.Storable) := by
  constructor
  · intro h hnew
    obtain ⟨r', hr', hsame⟩ := h.listed hnew _ le_rfl
    obtain ⟨row, hrow, rfl⟩ := (mem_listPendingReceipts le_rfl).mp hr'
    have hmem := (mem_pendingRows.mp hrow).1
    rw [persistReceipt_of_find_eq_none hnew] at hmem
    have hid : row.key = r.columns.key := congrArg ReceiptTexts.id hsame.texts.symm
    obtain rfl : row = r.columns := Table.eq_of_key_eq hmem (Table.mem_upsert_self t r.columns) hid
    exact same_scan_iff.mp hsame
  · intro h
    refine ⟨fun hnew limit hlimit => ?_, fun r₂ hid => ?_, fun row hid => ?_⟩
    · refine ⟨_, (mem_listPendingReceipts hlimit).mpr ⟨r.columns, mem_pendingRows.mpr ⟨?_, .inl rfl⟩, rfl⟩,
        same_scan_iff.mpr (h hnew)⟩
      rw [persistReceipt_of_find_eq_none hnew]
      exact Table.mem_upsert_self t r.columns
    · obtain ⟨row, hrow⟩ := find_persistReceipt r t
      rw [← hid] at hrow
      exact persistReceipt_of_find_eq_some hrow
    · cases hnew : t.find r.id with
      | none =>
        rw [persistReceipt_of_find_eq_none hnew, Table.mem_upsert]
        refine ⟨fun hrow => ?_, fun hrow => .inr ⟨hrow, hid⟩⟩
        rcases hrow with rfl | ⟨hrow, -⟩
        · exact absurd rfl hid
        · exact hrow
      | some _ => rw [persistReceipt_of_find_eq_some hnew]

def revertReceipt : ReceiptValue where
  id := textOf "receipt-1"
  leaseID := textOf "lease-1"
  nodeID := textOf "node-1"
  adapterID := textOf "kliq-source-pep"
  status := textOf "reverted"
  revertStatus := textOf "reverted"
  appliedAt := ⟨63864979140000000000, 0⟩
  expiresAt := some ⟨63864979200000000000, 0⟩
  revertedAt := some ⟨63864979201000000000, 0⟩

/-- How and when the lease was reverted is lost. -/
theorem revert_information_lost : ¬ ∀ (t : ReceiptStore) (r : ReceiptValue), ReceiptRoundTrips t r := by
  intro hall
  obtain ⟨r', hr', hsame⟩ := (hall .empty revertReceipt).listed rfl 1 (by decide +kernel)
  obtain ⟨row, -, rfl⟩ := List.mem_map.mp hr'
  have hlost : revertReceipt.revertStatus = [] := hsame.revertStatus
  have hgiven : revertReceipt.revertStatus ≠ [] := by decide
  exact hgiven hlost

end Store

end Kernloom
