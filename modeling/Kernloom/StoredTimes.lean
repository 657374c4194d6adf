import Kernloom.LeaseStore
import Kernloom.LearningGuard
import Kernloom.PolicyFile
import Kernloom.TimeOrder

/-! The queries of the store that compare times as texts: expired leases, the newest lease, exclusions in
force, and the collection of expired rows. Each follows the clock exactly if the times that it compares
have texts in the order of the times. -/

namespace Kernloom

open Keyed LeaseTable TextOrder

section Encodings

theorem rfc3339Nano_orderedBy : OrderedBy (fun t : Int => rfc3339Nano t) SortsBefore := fun _ _ h =>
  (rfc3339Nano_order h).imp (fun hlt hs => String.lt_iff_toList_lt.mpr (hlt hs))
    fun hgt hs => String.lt_iff_toList_lt.mpr (hgt hs)

/-- The zero time has the empty text. -/
def StoredBefore (a b : Int) : Prop := a = 0 ∨ (b ≠ 0 ∧ SortsBefore a b)

theorem empty_lt_rfc3339Nano (t : Int) : "" < rfc3339Nano t := by
  obtain ⟨c, cs, hcons⟩ := List.exists_cons_of_ne_nil (rfc3339Nano_ne_nil t)
  rw [String.lt_iff_toList_lt, hcons]
  exact List.nil_lt_cons _ _

theorem formatTime_orderedBy : OrderedBy (fun t : Int => formatTime t) StoredBefore := by
  intro a b h
  unfold formatTime StoredBefore
  dsimp only
  by_cases ha : a = 0
  · have hb : b ≠ 0 := by omega
    rw [if_pos ha, if_neg hb]
    exact ⟨fun _ => empty_lt_rfc3339Nano b, fun hnot => absurd (.inl ha) hnot⟩
  · rw [if_neg ha]
    by_cases hb : b = 0
    · rw [if_pos hb]
      refine ⟨fun hs => ?_, fun _ => empty_lt_rfc3339Nano a⟩
      exact absurd hb (hs.resolve_left ha).1
    · rw [if_neg hb]
      obtain ⟨hlt, hgt⟩ := rfc3339Nano_orderedBy h
      exact ⟨fun hs => hlt (hs.resolve_left ha).2, fun hnot => hgt fun hs => hnot (.inr ⟨hb, hs⟩)⟩

end Encodings

section Leases

variable {t : LeaseTable} {now : Time} {adapterID target action level : String}

theorem listExpired_exact_iff :
    (∀ l, l ∈ t.listExpiredActionLeases now ↔ l ∈ t ∧ l.status = .active ∧ l.expiresAt ≤ now) ↔
      ∀ l ∈ t, l.status = .active → TextOrder.InOrder StoredBefore l.expiresAt now := by
  have hexact (l : ActionLease) := formatTime_orderedBy.le_exact_iff (a := l.expiresAt) (b := now)
  simp only [mem_listExpiredActionLeases]
  constructor
  · intro h l hl hactive
    refine (hexact l).mp ?_
    simpa [hl, hactive] using h l
  · intro h l
    refine and_congr_right fun hl => and_congr_right fun hactive => ?_
    exact (hexact l).mpr (h l hl hactive)

/-- The active leases that a search is for. -/
def Matches (t : LeaseTable) (adapterID target action level : String) (l : ActionLease) : Prop :=
  l ∈ t ∧ isActiveFor adapterID target action level l

/-- No lease of those that match was applied later. -/
def Newest (t : LeaseTable) (adapterID target action level : String) (l : ActionLease) : Prop :=
  Matches t adapterID target action level l ∧
    ∀ l', Matches t adapterID target action level l' → l'.appliedAt ≤ l.appliedAt

/-- The first lease expires before the second one or, at the same time, was applied before it; both in the
order of the texts. -/
def RankedBefore (l l' : ActionLease) : Prop :=
  Before StoredBefore l.expiresAt l'.expiresAt ∨
    (l.expiresAt = l'.expiresAt ∧ Before StoredBefore l.appliedAt l'.appliedAt)

def leaseRank (l : ActionLease) : String ×ₗ String ×ₗ String :=
  toLex (formatTime l.expiresAt, toLex (formatTime l.appliedAt, l.leaseID))

theorem leaseRank_lt_iff {l l' : ActionLease} (hne : l.appliedAt ≠ l'.appliedAt) :
    leaseRank l < leaseRank l' ↔ RankedBefore l l' := by
  have hexpires := formatTime_orderedBy.lt_iff (a := l.expiresAt) (b := l'.expiresAt)
  have happlied := formatTime_orderedBy.lt_iff (a := l.appliedAt) (b := l'.appliedAt)
  have hsame : formatTime l.expiresAt = formatTime l'.expiresAt ↔ l.expiresAt = l'.expiresAt :=
    formatTime_orderedBy.injective.eq_iff
  have hother : formatTime l.appliedAt ≠ formatTime l'.appliedAt := fun heq =>
    hne (formatTime_orderedBy.injective heq)
  unfold leaseRank RankedBefore
  rw [Prod.Lex.toLex_lt_toLex, Prod.Lex.toLex_lt_toLex]
  simp only [hexpires, happlied, hsame, hother, false_and, or_false]

/-- The search finds a most recently applied lease exactly if every lease applied earlier is ranked before
one of those. -/
theorem findActive_newest_iff :
    (∀ l, t.findActiveActionLease adapterID target action level = some l →
      Newest t adapterID target action level l) ↔
      ∀ l l', Matches t adapterID target action level l → Matches t adapterID target action level l' →
        l.appliedAt < l'.appliedAt →
          ∃ newest, Newest t adapterID target action level newest ∧ RankedBefore l newest := by
  constructor
  · intro h l l' hl hl' hlt
    obtain ⟨found, hfound⟩ : ∃ found, t.findActiveActionLease adapterID target action level = some found :=
      Table.exists_best hl.1 hl.2
    have hnewest := h found hfound
    have happlied : l.appliedAt < found.appliedAt := hlt.trans_le (hnewest.2 l' hl')
    have hrank : leaseRank l ≤ leaseRank found := Table.le_best hfound hl.1 hl.2
    refine ⟨found, hnewest, (leaseRank_lt_iff happlied.ne).mp (lt_of_le_of_ne hrank fun heq => ?_)⟩
    have htext := congrArg (fun rank => (ofLex (ofLex rank).2).1) heq
    exact happlied.ne (formatTime_orderedBy.injective htext)
  · intro h found hfound
    have hmatches : Matches t adapterID target action level found := Table.best_mem hfound
    refine ⟨hmatches, fun l' hl' => ?_⟩
    by_contra hnot
    obtain ⟨newest, hnewest, hranked⟩ := h found l' hmatches hl' (not_le.mp hnot)
    have happlied : found.appliedAt < newest.appliedAt := (not_le.mp hnot).trans_le (hnewest.2 l' hl')
    have hrank : leaseRank newest ≤ leaseRank found := Table.le_best hfound hnewest.1.1 hnewest.1.2
    exact hrank.not_gt ((leaseRank_lt_iff happlied.ne).mpr hranked)

end Leases

section Exclusions

variable {t : ExclusionTable} {entityID : String} {now : Time}

theorem activeExclusions_exact_iff (order : RowOrder) :
    (∀ e, e ∈ t.activeExclusionsFor order entityID now ↔
      e ∈ t ∧ e.entityID = entityID ∧ e.status = .active ∧ now < e.expiresAt) ↔
      ∀ e ∈ t, e.entityID = entityID → e.status = .active → TextOrder.InOrder SortsBefore now e.expiresAt := by
  have hexact (e : Exclusion) := rfc3339Nano_orderedBy.lt_exact_iff (a := now) (b := e.expiresAt)
  simp only [ExclusionTable.mem_activeExclusionsFor]
  constructor
  · intro h e he hentity hactive
    refine (hexact e).mp ?_
    simpa [he, hentity, hactive] using h e
  · intro h e
    refine and_congr_right fun he => and_congr_right fun hentity => and_congr_right fun hactive => ?_
    exact (hexact e).mpr (h e he hentity hactive)

end Exclusions

section Collection

/-- A row of the evidence, the signals or the decisions. -/
structure ExpiringRow where
  id : String
  expiresAt : Time

/-- The tables that are collected. -/
structure CollectedTables where
  evidence : List ExpiringRow
  signals : List ExpiringRow
  decisions : List ExpiringRow
  exclusions : ExclusionTable

def deleteExpired (now : Time) (rows : List ExpiringRow) : List ExpiringRow :=
  rows.filter fun row => ¬ rfc3339Nano row.expiresAt < rfc3339 now

/-- An active exclusion that has expired is marked. -/
def expireRow (now : Time) (e : Exclusion) : Exclusion :=
  if e.status = .active ∧ rfc3339Nano e.expiresAt < rfc3339 now then { e with status := .expired } else e

theorem expireRow_id (now : Time) (e : Exclusion) : (expireRow now e).id = e.id := by
  unfold expireRow
  split_ifs <;> rfl

/-- One collection. -/
def CollectedTables.gc (s : CollectedTables) (now : Time) : CollectedTables where
  evidence := deleteExpired now s.evidence
  signals := deleteExpired now s.signals
  decisions := deleteExpired now s.decisions
  exclusions := s.exclusions.map (expireRow now) (expireRow_id now)

/-- The time of a collection is cut off to seconds. -/
def cutoff (now : Time) : Time := now - now % Duration.second

variable {now : Time}

theorem deleteExpired_exact_iff {rows : List ExpiringRow} :
    (∀ row, row ∈ deleteExpired now rows ↔ row ∈ rows ∧ ¬ row.expiresAt < cutoff now) ↔
      ∀ row ∈ rows, TextOrder.InOrder SortsBefore row.expiresAt (cutoff now) := by
  have hexact (row : ExpiringRow) := rfc3339Nano_orderedBy.lt_exact_iff (a := row.expiresAt) (b := cutoff now)
  have hmem (row : ExpiringRow) : row ∈ deleteExpired now rows ↔
      row ∈ rows ∧ ¬ rfc3339Nano row.expiresAt < rfc3339Nano (cutoff now) := by
    unfold deleteExpired
    rw [List.mem_filter, decide_eq_true_eq]
    rfl
  simp only [hmem]
  constructor
  · intro h row hrow
    refine (hexact row).mp (not_iff_not.mp ?_)
    simpa only [hrow, true_and] using h row
  · intro h row
    exact and_congr_right fun hrow => not_congr ((hexact row).mpr (h row hrow))

/-- What the clock says of an exclusion at a cutoff. -/
def markOlder (cutoff : Time) (e : Exclusion) : Exclusion :=
  if e.status = .active ∧ e.expiresAt < cutoff then { e with status := .expired } else e

theorem markOlder_id (cutoff : Time) (e : Exclusion) : (markOlder cutoff e).id = e.id := by
  unfold markOlder
  split_ifs <;> rfl

theorem expireRow_eq_iff {e : Exclusion} : expireRow now e = markOlder (cutoff now) e ↔
    (e.status = .active → TextOrder.InOrder SortsBefore e.expiresAt (cutoff now)) := by
  have hexact := rfc3339Nano_orderedBy.lt_exact_iff (a := e.expiresAt) (b := cutoff now)
  have hrow : expireRow now e = if e.status = .active ∧
      rfc3339Nano e.expiresAt < rfc3339Nano (cutoff now) then
      { e with status := .expired } else e := rfl
  rw [hrow, markOlder]
  by_cases hactive : e.status = .active
  · have hmarked : ({ e with status := .expired } : Exclusion) ≠ e := fun heq => by
      have hstatus := congrArg Exclusion.status heq
      rw [hactive] at hstatus
      cases hstatus
    rw [← hexact]
    by_cases htext : rfc3339Nano e.expiresAt < rfc3339Nano (cutoff now) <;> by_cases htime :
      e.expiresAt < cutoff now
    · simp [hactive, htext, htime]
    · simp [hactive, htext, htime, hmarked]
    · simp [hactive, htext, htime, hmarked.symm]
    · simp [hactive, htext, htime]
  · simp [hactive]

/-- The rewritten rows are those of the clock exactly if each of them is. -/
theorem map_expireRow_exact_iff {t : ExclusionTable} :
    (∀ e, e ∈ t.map (expireRow now) (expireRow_id now) ↔
    e ∈ t.map (markOlder (cutoff now)) (markOlder_id _)) ↔
      ∀ e ∈ t, e.status = .active → TextOrder.InOrder SortsBefore e.expiresAt (cutoff now) := by
  simp only [Table.mem_map]
  constructor
  · intro h e he
    obtain ⟨e', he', hsame⟩ := (h (expireRow now e)).mp ⟨e, he, rfl⟩
    have hid : e'.id = e.id := by
      rw [← markOlder_id (cutoff now) e', hsame, expireRow_id]
    obtain rfl := Table.eq_of_key_eq he' he hid
    exact expireRow_eq_iff.mp hsame.symm
  · intro h e
    exact exists_congr fun e' => and_congr_right fun he' => by rw [expireRow_eq_iff.mpr (h e' he')]

/-- A collection that removes exactly the rows older than its cutoff, and marks exactly the active
exclusions that are. -/
structure CollectedTables.Exact (s s' : CollectedTables) (cutoff : Time) : Prop where
  evidence : ∀ row, row ∈ s'.evidence ↔ row ∈ s.evidence ∧ ¬ row.expiresAt < cutoff
  signals : ∀ row, row ∈ s'.signals ↔ row ∈ s.signals ∧ ¬ row.expiresAt < cutoff
  decisions : ∀ row, row ∈ s'.decisions ↔ row ∈ s.decisions ∧ ¬ row.expiresAt < cutoff
  exclusions : ∀ e, e ∈ s'.exclusions ↔ e ∈ s.exclusions.map (markOlder cutoff) (markOlder_id cutoff)

/-- The expiries are in the order of the cutoff. -/
structure CollectedTables.InOrderOf (s : CollectedTables) (cutoff : Time) : Prop where
  evidence : ∀ row ∈ s.evidence, TextOrder.InOrder SortsBefore row.expiresAt cutoff
  signals : ∀ row ∈ s.signals, TextOrder.InOrder SortsBefore row.expiresAt cutoff
  decisions : ∀ row ∈ s.decisions, TextOrder.InOrder SortsBefore row.expiresAt cutoff
  exclusions : ∀ e ∈ s.exclusions, e.status = .active → TextOrder.InOrder SortsBefore e.expiresAt cutoff

theorem gc_exact_iff (s : CollectedTables) : s.Exact (s.gc now) (cutoff now) ↔ s.InOrderOf (cutoff now) := by
  constructor
  · intro h
    exact ⟨deleteExpired_exact_iff.mp h.evidence, deleteExpired_exact_iff.mp h.signals,
      deleteExpired_exact_iff.mp h.decisions, map_expireRow_exact_iff.mp h.exclusions⟩
  · intro h
    exact ⟨deleteExpired_exact_iff.mpr h.evidence, deleteExpired_exact_iff.mpr h.signals,
      deleteExpired_exact_iff.mpr h.decisions, map_expireRow_exact_iff.mpr h.exclusions⟩

end Collection

/-- A lease that expires on a full second. -/
def fullSecondLease : ActionLease :=
  { leaseID := "lease-1"
    adapterID := "kliq-source-pep"
    target := "source:10.0.0.1"
    action := "enforce.traffic.drop"
    level := "block"
    status := .active
    fencingToken := "1"
    appliedAt := 63864979140000000000
    expiresAt := 63864979200000000000 }

def fullSecondTable : LeaseTable := Table.empty.upsert fullSecondLease

end Kernloom
