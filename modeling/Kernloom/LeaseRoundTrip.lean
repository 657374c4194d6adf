import Kernloom.StoredLeases

/-! A lease that is written into the table and listed by its status: when it is listed as it was, and when
it keeps the others from being listed. -/

namespace Kernloom

open JsonText Keyed Transition

section Equality

/-- Two leases that are equal up to the location of their times; no metadata is an empty map. -/
structure SameLease (l l' : LeaseValue) : Prop where
  texts : l.toLeaseTexts = l'.toLeaseTexts
  applied : l.appliedAt.instant = l'.appliedAt.instant
  expires : l.expiresAt.instant = l'.expiresAt.instant
  reverted : l.revertedAt.map (·.instant) = l'.revertedAt.map (·.instant)
  metadata : ∀ key, (l.metadata.getD .empty).find key = (l'.metadata.getD .empty).find key

/-- Metadata without stray bytes. -/
def CleanMetadata (m : TextMap Text) : Prop := ∀ e ∈ m.rows, readText e.1 = e.1 ∧ readText e.2 = e.2

theorem readText_readText (s : Text) : readText (readText s) = readText s := by
  unfold readText
  rw [List.map_map]
  rfl

theorem find_readMap_iff (m : TextMap Text) :
    (∀ key, (readMap Codec.text m).find key = m.find key) ↔ CleanMetadata m := by
  constructor
  · intro h e he
    have hfind : (readMap Codec.text m).find e.1 = some e :=
      (h e.1).trans (Table.find_eq_some.mpr ⟨he, rfl⟩)
    have hmem := (TextMap.ofEntries_sublist _).subset (Table.find_eq_some.mp hfind).1
    obtain ⟨e₀, -, rfl⟩ := List.mem_map.mp hmem
    exact ⟨readText_readText _, readText_readText _⟩
  · intro h key
    rw [find_readMap Codec.text h]
    cases hfind : m.find key with
    | none => rfl
    | some e =>
      obtain ⟨hkey, hvalue⟩ := h e (Table.find_eq_some.mp hfind).1
      exact congrArg some (Prod.ext hkey hvalue)

/-- What a listing gives is the lease exactly if it was not reverted at the zero time and its metadata are
clean. -/
theorem same_read_iff (l : LeaseValue) : SameLease l.read l ↔
    (∀ t ∈ l.revertedAt, t.instant ≠ 0) ∧ ∀ m ∈ l.metadata, CleanMetadata m := by
  have hreverted : (l.read.revertedAt.map (·.instant) = l.revertedAt.map (·.instant)) ↔
      ∀ t ∈ l.revertedAt, t.instant ≠ 0 := by
    show ((l.revertedAt.bind fun t => if t.instant = 0 then none else some ⟨t.instant, 0⟩).map
      ZonedTime.instant = _) ↔ _
    cases l.revertedAt with
    | none => simp
    | some t =>
      by_cases hzero : t.instant = 0
      · simp [hzero]
      · simp [hzero]
  have hmetadata : (∀ key, (l.read.metadata.getD .empty).find key = (l.metadata.getD .empty).find key) ↔
      ∀ m ∈ l.metadata, CleanMetadata m := by
    show (∀ key, ((l.metadata.map (readMap Codec.text)).getD .empty).find key = _) ↔ _
    cases l.metadata with
    | none => simp
    | some m => simpa using find_readMap_iff m
  rw [← hreverted, ← hmetadata]
  exact ⟨fun h => ⟨h.reverted, h.metadata⟩, fun h => ⟨rfl, rfl, rfl, h.1, h.2⟩⟩

end Equality

section Listings

variable {timeError : String → String} {jsonError : List Char → String} {t : RowTable}

theorem mapM_ok_iff {α β : Type} {f : α → Except String β} {xs : List α} :
    (∃ ys, xs.mapM f = .ok ys) ↔ ∀ x ∈ xs, ∃ y, f x = .ok y := by
  induction xs with
  | nil => exact iff_of_true ⟨[], rfl⟩ (by simp)
  | cons x xs ih =>
    rw [List.forall_mem_cons, ← ih, List.mapM_cons]
    cases hx : f x with
    | error err => simp [bind, Except.bind]
    | ok y =>
      cases hxs : xs.mapM f with
      | error err => simp [bind, Except.bind]
      | ok ys => simp [bind, Except.bind, pure, Except.pure]

theorem mem_of_mapM_ok {α β : Type} {f : α → Except String β} {xs : List α} {ys : List β}
    (h : xs.mapM f = .ok ys)
    {y : β} : y ∈ ys ↔ ∃ x ∈ xs, f x = .ok y := by
  induction xs generalizing ys with
  | nil =>
    obtain rfl : [] = ys := Except.ok.inj h
    simp
  | cons x xs ih =>
    rw [List.mapM_cons] at h
    cases hx : f x with
    | error err => simp [hx, bind, Except.bind] at h
    | ok y' =>
      cases hxs : xs.mapM f with
      | error err => simp [hx, hxs, bind, Except.bind] at h
      | ok ys' =>
        obtain rfl : y' :: ys' = ys := by simpa [hx, hxs, bind, Except.bind, pure, Except.pure] using h
        simp [hx, ih hxs, eq_comm]

/-- A listing succeeds if every row of the status can be read. -/
theorem list_ok_iff {status : Text} : (∃ leases, t.list timeError jsonError status = .ok leases) ↔
    ∀ row ∈ t, row.status = status → ∃ l, scanActionLease timeError jsonError row = .ok l := by
  unfold RowTable.list
  rw [mapM_ok_iff]
  simp [Table.mem_rows]

theorem mem_list {status : Text} {leases : List LeaseValue}
    (h : t.list timeError jsonError status = .ok leases)
    {l : LeaseValue} :
    l ∈ leases ↔ ∃ row ∈ t, row.status = status ∧ scanActionLease timeError jsonError row = .ok l := by
  rw [mem_of_mapM_ok h]
  simp [Table.mem_rows, and_assoc]

end Listings

section Runs

variable {timeError : String → String} {jsonError : List Char → String} {t : RowTable}
    {writes : List LeaseWrite}

def LeaseWrite.lease : LeaseWrite → LeaseValue
  | .upsert l | .updateStatus l => l

/-- A run of the store. -/
abbrev StoreRun (t : RowTable) (writes : List LeaseWrite) (t' : RowTable) : Prop :=
  Run (fun t write t' => t' = LeaseWrite.apply t write) t writes t'

/-- The lease of a row whose status was updated. -/
def LeaseValue.withStatus (l l₀ : LeaseValue) : LeaseValue :=
  { l₀ with status := l.status, revertedAt := l.revertedAt, lastError := l.lastError }

theorem withStatus_row (l l₀ : LeaseValue) : l₀.row.withStatus l = (l.withStatus l₀).row := rfl

/-- What holds of every lease that is written, and stays so under the status of another one, holds of the
leases of all rows. -/
theorem rows_of_run {P : LeaseValue → Prop} (h : Run (Guarded (fun _ write => P write.lease)
      fun t write t' => t' = LeaseWrite.apply t write) .empty writes t)
    (hstatus : ∀ l l₀, P l → P l₀ → P (l.withStatus l₀)) : ∀ row ∈ t, ∃ l, row = l.row ∧ P l := by
  refine h.invariant (I := fun t => ∀ row ∈ t, ∃ l, row = l.row ∧ P l) ?_ fun {t write t'} hrows hstep => ?_
  · intro row hrow
    exact absurd hrow Table.not_mem_empty
  · obtain ⟨hwrite, rfl⟩ := hstep
    intro row hrow
    cases write with
    | upsert l =>
      rcases Table.mem_upsert.mp hrow with rfl | ⟨hrow, -⟩
      · exact ⟨l, rfl, hwrite⟩
      · exact hrows row hrow
    | updateStatus l =>
      have hmodified : row ∈ t.modify l.leaseID (LeaseRow.withStatus l) (LeaseRow.key_withStatus l) := hrow
      obtain ⟨row₀, hrow₀, rfl⟩ := Table.mem_modify.mp hmodified
      obtain ⟨l₀, rfl, hl₀⟩ := hrows row₀ hrow₀
      by_cases hid : LeaseRow.key l₀.row = l.leaseID
      · rw [if_pos hid, withStatus_row]
        exact ⟨l.withStatus l₀, rfl, hstatus l l₀ hwrite hl₀⟩
      · rw [if_neg hid]
        exact ⟨l₀, rfl, hl₀⟩

theorem written_of_run (h : StoreRun .empty writes t) : ∀ row ∈ t, ∃ l : LeaseValue, row = l.row := by
  have hguarded : Run (Guarded (fun _ _ => True) fun t write t' => t' = LeaseWrite.apply t write) .empty
      writes t :=
    h.mono fun hstep => ⟨trivial, hstep⟩
  intro row hrow
  obtain ⟨l, hl, -⟩ := rows_of_run (P := fun _ => True) hguarded (fun _ _ _ _ => trivial) row hrow
  exact ⟨l, hl⟩

/-- After writes of leases that can be read every listing succeeds. -/
theorem lists_of_run (h : Run (Guarded (fun _ write => write.lease.Listable)
      fun t write t' => t' = LeaseWrite.apply t write) .empty writes t) (status : Text) :
    ∃ leases, t.list timeError jsonError status = .ok leases := by
  refine list_ok_iff.mpr fun row hrow _ => ?_
  obtain ⟨l, rfl, hl⟩ := rows_of_run h (fun l l₀ hl hl₀ => ⟨hl₀.applied, hl₀.expires, hl.reverted⟩) row hrow
  exact scan_row_iff.mpr hl

/-- A lease that is listed as it was. -/
structure LeaseValue.Storable (l : LeaseValue) : Prop extends l.Listable where
  reverted_ne : ∀ t ∈ l.revertedAt, t.instant ≠ 0
  clean : ∀ m ∈ l.metadata, CleanMetadata m

/-- A lease that is written is listed by its status, and every other row is listed by its own. -/
structure RoundTrips (timeError : String → String) (jsonError : List Char → String) (t : RowTable)
    (l : LeaseValue) : Prop where
  found : ∃ leases, RowTable.list timeError jsonError (t.upsert l.row) l.status = .ok leases ∧
    ∃ l' ∈ leases, SameLease l' l
  others : ∀ status, ∃ leases, RowTable.list timeError jsonError (t.upsert l.row) status = .ok leases ∧
    ∀ row ∈ t, row.leaseID ≠ l.leaseID → row.status = status →
      ∃ l' ∈ leases, scanActionLease timeError jsonError row = .ok l'

theorem leaseID_of_scan {row : LeaseRow} {l : LeaseValue}
    (h : scanActionLease timeError jsonError row = .ok l)
    (hrow : ∃ l₀ : LeaseValue, row = l₀.row) : l.leaseID = row.leaseID := by
  obtain ⟨l₀, rfl⟩ := hrow
  have hread : scanActionLease timeError jsonError l₀.row = .ok l₀.read := scan_row (scan_row_iff.mp ⟨l, h⟩)
  obtain rfl : l₀.read = l := Except.ok.inj (hread.symm.trans h)
  rfl

/-- In every state of the store a lease is listed as it was, and the others are listed, exactly if it can be
stored and the others can be read. -/
theorem lease_round_trip_iff (h : StoreRun .empty writes t) (l : LeaseValue) :
    RoundTrips timeError jsonError t l ↔
      l.Storable ∧ ∀ l' : LeaseValue, l'.row ∈ t → l'.leaseID ≠ l.leaseID → l'.Listable := by
  have hself : l.row ∈ t.upsert l.row := Table.mem_upsert_self t l.row
  constructor
  · intro hround
    obtain ⟨leases, hlist, l', hl', hsame⟩ := hround.found
    obtain ⟨row, hrow, hstatus, hscan⟩ := (mem_list hlist).mp hl'
    have hlistable : l.Listable := scan_row_iff.mp (list_ok_iff.mp ⟨leases, hlist⟩ l.row hself rfl)
    have hwritten : ∃ l₀ : LeaseValue, row = l₀.row := by
      rcases Table.mem_upsert.mp hrow with rfl | ⟨hrow, -⟩
      · exact ⟨l, rfl⟩
      · exact written_of_run h row hrow
    have hid : row.leaseID = l.leaseID :=
      (leaseID_of_scan hscan hwritten).symm.trans (congrArg LeaseTexts.leaseID hsame.texts)
    obtain rfl : row = l.row := Table.eq_of_key_eq hrow hself hid
    obtain rfl : l.read = l' := Except.ok.inj ((scan_row hlistable).symm.trans hscan)
    obtain ⟨hreverted, hclean⟩ := (same_read_iff l).mp hsame
    refine ⟨⟨hlistable, hreverted, hclean⟩, fun l' hl' hne => ?_⟩
    obtain ⟨others, hothers, -⟩ := hround.others l'.status
    exact scan_row_iff.mp (list_ok_iff.mp ⟨others, hothers⟩ l'.row (Table.mem_upsert_of_mem hl' hne) rfl)
  · rintro ⟨hstorable, hothers⟩
    have hread : ∀ row ∈ t.upsert l.row, ∃ l', scanActionLease timeError jsonError row = .ok l' := by
      intro row hrow
      rcases Table.mem_upsert.mp hrow with rfl | ⟨hrow, hne⟩
      · exact ⟨l.read, scan_row hstorable.toListable⟩
      · obtain ⟨l', rfl⟩ := written_of_run h row hrow
        exact scan_row_iff.mpr (hothers l' hrow hne)
    constructor
    · obtain ⟨leases, hlist⟩ := list_ok_iff.mpr fun row hrow (_ : row.status = l.status) => hread row hrow
      refine ⟨leases, hlist, l.read, (mem_list hlist).mpr
        ⟨l.row, hself, rfl, scan_row hstorable.toListable⟩, ?_⟩
      exact (same_read_iff l).mpr ⟨hstorable.reverted_ne, hstorable.clean⟩
    · intro status
      obtain ⟨leases, hlist⟩ := list_ok_iff.mpr fun row hrow (_ : row.status = status) => hread row hrow
      refine ⟨leases, hlist, fun row hrow hne hstatus => ?_⟩
      have hkept : row ∈ t.upsert l.row := Table.mem_upsert_of_mem hrow hne
      obtain ⟨l', hl'⟩ := hread row hkept
      exact ⟨l', (mem_list hlist).mpr ⟨row, hkept, hstatus, hl'⟩, hl'⟩

/-- An active lease of a block. -/
def activeLease (leaseID : String) (appliedAt : Int) : LeaseValue where
  leaseID := textOf leaseID
  adapterID := textOf "kliq-source-pep"
  target := textOf "source:10.0.0.1"
  action := textOf "enforce.traffic.drop"
  level := textOf "block"
  status := textOf "active"
  fencingToken := textOf "1"
  appliedAt := ⟨appliedAt, 0⟩
  expiresAt := ⟨63864979200000000000, 0⟩

theorem storable_activeLease : (activeLease "lease-1" 63864979140000000000).Storable := by
  have htimed : ∀ t ∈ ([63864979140000000000, 63864979200000000000] : List Int), t ≠ 0 ∧ 0 ≤ yearOf t ∧
      yearOf t < 10000 := by
    decide +kernel
  have hnever : ∀ t : ZonedTime, t ∉ (none : Option ZonedTime) := fun t ht => nomatch ht
  have hlistable : (activeLease "lease-1" 63864979140000000000).Listable :=
    ⟨htimed _ (by decide), htimed _ (by decide), fun t ht => absurd ht (hnever t)⟩
  exact { toListable := hlistable, reverted_ne := fun t ht => absurd ht (hnever t), clean := fun m hm =>
    nomatch hm }

/-- An ordinary lease is listed as it was. -/
theorem activeLease_round_trips : RoundTrips (fun _ => "") (fun _ => "") .empty
    (activeLease "lease-1" 63864979140000000000) := by
  have hrun : StoreRun .empty [] .empty := .nil
  exact (lease_round_trip_iff hrun _).mpr
    ⟨storable_activeLease, fun _ hl => absurd hl Table.not_mem_empty⟩

/-- Of two active leases one has no time of application: none is listed. -/
theorem zero_applied_hides_all : ¬ ∀ (timeError : String → String) (jsonError : List Char → String)
    (writes : List LeaseWrite) (t : RowTable) (l : LeaseValue),
    StoreRun .empty writes t → RoundTrips timeError jsonError t l := by
  intro hall
  have hrun : StoreRun .empty [.upsert (activeLease "lease-1" 63864979140000000000)]
      (Table.empty.upsert (activeLease "lease-1" 63864979140000000000).row) := .singleton rfl
  obtain ⟨leases, hlist, -⟩ := (hall (fun _ => "") (fun _ => "") _ _ (activeLease "lease-2" 0) hrun).found
  have hfails : (RowTable.list (fun _ => "") (fun _ => "") ((Table.empty.upsert
      (activeLease "lease-1" 63864979140000000000).row).upsert (activeLease "lease-2" 0).row)
        (textOf "active")).toOption.isNone = true := by decide +kernel
  have hstatus : (activeLease "lease-2" 0).status = textOf "active" := rfl
  rw [← hstatus, hlist] at hfails
  cases hfails

end Runs

end Kernloom
