import Kernloom.GoText
import Kernloom.GoValue
import Kernloom.KeyedTable
import Kernloom.WriteBehind

/-! The table of metric baselines in the state store. -/

namespace Kernloom

open Keyed WriteBehind

structure BaselineKey where
  metricID : String := ""
  scopeType : String := ""
  scopeID : String := ""
  subjectEntityID : String := ""
  objectEntityID : String := ""
  dimensionsHash : String := ""
  sourceClass : String := ""
  visibilityPoint : String := ""
  measurementType : String := ""
  truthClass : String := ""
  windowSeconds : Int := 0
  deriving DecidableEq

@[irreducible] def BaselineKey.text (k : BaselineKey) : String :=
  k.metricID ++ "|" ++ k.scopeType ++ "|" ++ k.scopeID ++ "|" ++ k.subjectEntityID ++ "|" ++
    k.objectEntityID ++
    "|" ++ k.dimensionsHash ++ "|" ++ k.sourceClass ++ "|" ++ k.visibilityPoint ++ "|" ++ k.measurementType ++
    "|" ++ k.truthClass ++ "|" ++ itoa k.windowSeconds

structure BaselineRow where
  id : String := ""
  key : BaselineKey
  state : String
  ewmaState : List (String × Rat)
  observations : Nat
  lastUpdated : Time
  createdAt : Time := 0
  deriving DecidableEq

/-- The baseline table; its unique index is the baseline's key. -/
abbrev BaselineTable := Table BaselineRow.key

variable (sha256 : String → String)

def baselineID (k : BaselineKey) : String := sha256 k.text

namespace BaselineTable

/-- What the columns hold of a row: a zero time is stored as `now`. -/
def stored (now : Time) (row : BaselineRow) : BaselineRow :=
  { row with
    id := baselineID sha256 row.key
    lastUpdated := if row.lastUpdated = 0 then now else row.lastUpdated
    createdAt := if row.createdAt = 0 then now else row.createdAt }

/-- The columns that the conflict clause writes. -/
def merge (now : Time) (row old : BaselineRow) : BaselineRow :=
  { old with
    state := row.state
    ewmaState := row.ewmaState
    observations := row.observations
    lastUpdated := (stored sha256 now row).lastUpdated }

/-- `none` is the error: a new row may not have the ID of another one. -/
def upsertBaseline (now : Time) (t : BaselineTable) (row : BaselineRow) : Option BaselineTable :=
  match t.find row.key with
  | some old => some (t.upsert (merge sha256 now row old))
  | none =>
    if ∃ old ∈ t.rows, old.id = baselineID sha256 row.key then none else some
      (t.upsert (stored sha256 now row))

/-- The table holds the value of a row. -/
def Holds (t : BaselineTable) (row : BaselineRow) : Prop :=
  ∃ r ∈ t, r.key = row.key ∧ r.state = row.state ∧ r.ewmaState = row.ewmaState ∧
    r.observations = row.observations ∧ r.lastUpdated = row.lastUpdated

instance (t : BaselineTable) (row : BaselineRow) : Decidable (t.Holds row) :=
  inferInstanceAs
    (Decidable (∃ r ∈ t.rows, r.key = row.key ∧ r.state = row.state ∧ r.ewmaState = row.ewmaState ∧
    r.observations = row.observations ∧ r.lastUpdated = row.lastUpdated))

variable {sha256}

theorem upsertBaseline_cases {now : Time} {t t' : BaselineTable} {row : BaselineRow}
    (h : upsertBaseline sha256 now t row = some t') : ∃ r, t' = t.upsert r ∧ r.key = row.key ∧
      r.state = row.state ∧ r.ewmaState = row.ewmaState ∧ r.observations = row.observations ∧
      r.lastUpdated = if row.lastUpdated = 0 then now else row.lastUpdated := by
  unfold upsertBaseline at h
  cases hfind : t.find row.key with
  | some old =>
    simp only [hfind, Option.some.injEq] at h
    exact ⟨_, h.symm, (Table.find_eq_some.mp hfind).2, rfl, rfl, rfl, rfl⟩
  | none =>
    simp only [hfind, Option.ite_none_left_eq_some, Option.some.injEq] at h
    exact ⟨_, h.2.symm, rfl, rfl, rfl, rfl, rfl⟩

theorem upsertBaseline_createdAt {now : Time} {t t' : BaselineTable} {row r : BaselineRow}
    (h : upsertBaseline sha256 now t row = some t') (hr : r ∈ t') : r ∈ t ∨ (r.key = row.key ∧
      ((∃ old ∈ t, old.key = row.key ∧ r.createdAt = old.createdAt) ∨
        r.createdAt = if row.createdAt = 0 then now else row.createdAt)) := by
  unfold upsertBaseline at h
  cases hfind : t.find row.key with
  | some old =>
    obtain ⟨hold, hkey⟩ := Table.find_eq_some.mp hfind
    simp only [hfind, Option.some.injEq] at h
    rw [← h] at hr
    rcases Table.mem_upsert.mp hr with rfl | ⟨hr, -⟩
    · exact .inr ⟨hkey, .inl ⟨old, hold, hkey, rfl⟩⟩
    · exact .inl hr
  | none =>
    simp only [hfind, Option.ite_none_left_eq_some, Option.some.injEq] at h
    rw [← h.2] at hr
    rcases Table.mem_upsert.mp hr with rfl | ⟨hr, -⟩
    · exact .inr ⟨rfl, .inr rfl⟩
    · exact .inl hr

theorem writes (now : Time) :
    Writes (upsertBaseline sha256 now) BaselineRow.key (fun _ row => row.lastUpdated ≠ 0) Holds where
  store := by
    intro t t' row hready h
    obtain ⟨r, rfl, hkey, hstate, hewma, hobs, hlast⟩ := upsertBaseline_cases h
    exact ⟨r, Table.mem_upsert_self t r, hkey, hstate, hewma, hobs, hlast.trans (if_neg hready)⟩
  keep := by
    intro t t' row row' h hne hholds
    obtain ⟨r, rfl, hkey, -⟩ := upsertBaseline_cases h
    obtain ⟨r', hr', hkey', hrest⟩ := hholds
    exact ⟨r', Table.mem_upsert_of_mem hr' (hkey'.trans_ne (hne.trans_eq hkey.symm)), hkey', hrest⟩
  ready _ _ hready := hready

end BaselineTable

end Kernloom
