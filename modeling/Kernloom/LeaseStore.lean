import Kernloom.Lease
import Kernloom.KeyedTable

/-! The lease table of the state store and its queries. -/

namespace Kernloom

open Keyed

/-- The lease table; the lease ID is the primary key. -/
abbrev LeaseTable := Table ActionLease.leaseID

namespace LeaseTable

def upsertActionLease (t : LeaseTable) (lease : ActionLease) : LeaseTable := t.upsert lease

def isActiveFor (adapterID target action level : String) (l : ActionLease) : Bool :=
  l.adapterID = adapterID ∧ l.target = target ∧ l.action = action ∧ l.level = level ∧
    l.status = .active

/-- The newest active lease of one adapter, target, action and level. -/
def findActiveActionLease (t : LeaseTable) (adapterID target action level : String) :
    Option ActionLease :=
  t.best (isActiveFor adapterID target action level) fun l =>
    toLex (formatTime l.expiresAt, toLex (formatTime l.appliedAt, l.leaseID))

/-- The order of the listings: by the text of the expiry, then by ID. -/
def listedBefore (l l' : ActionLease) : Prop :=
  toLex (formatTime l.expiresAt, l.leaseID) ≤ toLex (formatTime l'.expiresAt, l'.leaseID)

instance : DecidableRel listedBefore := fun l l' =>
  inferInstanceAs (Decidable (toLex (formatTime l.expiresAt, l.leaseID) ≤
    toLex (formatTime l'.expiresAt, l'.leaseID)))

def listActionLeasesByStatus (t : LeaseTable) (status : LeaseStatus) : List ActionLease :=
  (t.rows.filter fun l => l.status = status).insertionSort listedBefore

/-- The active leases whose stored expiry is at or before `now`, both read as texts. -/
def listExpiredActionLeases (t : LeaseTable) (now : Time) : List ActionLease :=
  (t.rows.filter fun l => l.status = .active ∧ formatTime l.expiresAt ≤ formatTime now).insertionSort
    listedBefore

/-- The columns that a status update writes. -/
def setStatus (lease row : ActionLease) : ActionLease :=
  { row with status := lease.status, revertedAt := lease.revertedAt, lastError := lease.lastError }

def updateActionLeaseStatus (t : LeaseTable) (lease : ActionLease) : LeaseTable :=
  t.modify lease.leaseID (setStatus lease) fun _ => rfl

theorem findActiveActionLease_spec {t : LeaseTable} {adapterID target action level : String}
    {l : ActionLease} (h : t.findActiveActionLease adapterID target action level = some l) :
    l ∈ t ∧ l.adapterID = adapterID ∧ l.target = target ∧ l.action = action ∧ l.level = level ∧
      l.status = .active := by
  have hh := Table.best_mem h
  simpa [isActiveFor] using hh

theorem findActiveActionLease_none {t : LeaseTable} {l : ActionLease}
    (h : t.findActiveActionLease l.adapterID l.target l.action l.level = none) (hl : l ∈ t) :
    l.status ≠ .active := by
  intro hs
  exact Table.best_eq_none.mp h l hl (by simp [isActiveFor, hs])

@[simp] theorem mem_listActionLeasesByStatus {t : LeaseTable} {status : LeaseStatus} {l : ActionLease} :
    l ∈ t.listActionLeasesByStatus status ↔ l ∈ t ∧ l.status = status := by
  simp [listActionLeasesByStatus, Table.mem_rows]

@[simp] theorem mem_listExpiredActionLeases {t : LeaseTable} {now : Time} {l : ActionLease} :
    l ∈ t.listExpiredActionLeases now ↔
      l ∈ t ∧ l.status = .active ∧ formatTime l.expiresAt ≤ formatTime now := by
  simp [listExpiredActionLeases, Table.mem_rows]

@[simp] theorem mem_upsertActionLease {t : LeaseTable} {lease l : ActionLease} :
    l ∈ t.upsertActionLease lease ↔ l = lease ∨ (l ∈ t ∧ l.leaseID ≠ lease.leaseID) :=
  Table.mem_upsert

theorem mem_updateActionLeaseStatus {t : LeaseTable} {lease l : ActionLease} :
    l ∈ t.updateActionLeaseStatus lease ↔
      ∃ row ∈ t, l = if row.leaseID = lease.leaseID then setStatus lease row else row :=
  Table.mem_modify

theorem nodup_listExpiredActionLeases (t : LeaseTable) (now : Time) :
    ((t.listExpiredActionLeases now).map ActionLease.leaseID).Nodup :=
  ((List.perm_insertionSort _ _).map _).nodup_iff.mpr (t.nodup.sublist (List.filter_sublist.map _))

/-- `t'` is `t` with the row of `new` written. -/
def Writes (t : LeaseTable) (new : ActionLease) (t' : LeaseTable) : Prop :=
  ∀ l, l ∈ t' ↔ l = new ∨ (l ∈ t ∧ l.leaseID ≠ new.leaseID)

theorem writes_upsert (t : LeaseTable) (lease : ActionLease) : Writes t lease (t.upsertActionLease lease) :=
  fun _ => mem_upsertActionLease

theorem writes_update {t : LeaseTable} {lease row : ActionLease} (hrow : row ∈ t)
    (hid : row.leaseID = lease.leaseID) :
    Writes t (setStatus lease row) (t.updateActionLeaseStatus lease) := by
  intro l
  rw [mem_updateActionLeaseStatus]
  constructor
  · rintro ⟨row', hrow', rfl⟩
    by_cases h : row'.leaseID = lease.leaseID
    · left
      rw [if_pos h, Table.eq_of_key_eq hrow' hrow (h.trans hid.symm)]
    · right
      rw [if_neg h]
      exact ⟨hrow', fun hh => h (hh.trans hid)⟩
  · rintro (rfl | ⟨hl, hne⟩)
    · exact ⟨row, hrow, by rw [if_pos hid]⟩
    · exact ⟨l, hl, by rw [if_neg fun h => hne (h.trans hid.symm)]⟩

end LeaseTable

end Kernloom
