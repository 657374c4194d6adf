import Mathlib

/-! Tables whose rows are told apart by a key: insert-or-replace, updates that keep the key, and
selection of the best row under an order. -/

namespace Keyed

variable {α κ ι : Type} {key : α → κ}

structure Table (key : α → κ) where
  rows : List α
  nodup : (rows.map key).Nodup

namespace Table

instance : Membership α (Table key) := ⟨fun t r => r ∈ t.rows⟩

theorem mem_rows {t : Table key} {r : α} : r ∈ t.rows ↔ r ∈ t := Iff.rfl

def empty : Table key := ⟨[], List.nodup_nil⟩

@[simp] theorem not_mem_empty {r : α} : r ∉ (empty : Table key) := List.not_mem_nil

theorem eq_of_key_eq {t : Table key} {r r' : α} (h : r ∈ t) (h' : r' ∈ t) (hk : key r = key r') :
    r = r' :=
  List.inj_on_of_nodup_map t.nodup h h' hk

/-- Rewrites every row without changing its key. -/
def map (t : Table key) (f : α → α) (hf : ∀ r, key (f r) = key r) : Table key where
  rows := t.rows.map f
  nodup := by
    have hk : key ∘ f = key := funext hf
    rw [List.map_map, hk]
    exact t.nodup

theorem mem_map {t : Table key} {f : α → α} (hf : ∀ r, key (f r) = key r) {r : α} :
    r ∈ t.map f hf ↔ ∃ r₀ ∈ t, f r₀ = r := List.mem_map

/-- Keeps the rows that are selected. -/
def filter (t : Table key) (p : α → Bool) : Table key where
  rows := t.rows.filter p
  nodup := t.nodup.sublist (List.filter_sublist.map key)

theorem mem_filter {t : Table key} {p : α → Bool} {r : α} : r ∈ t.filter p ↔ r ∈ t ∧ p r :=
  List.mem_filter

section Writes

variable [DecidableEq κ]

/-- The row with key `k`. -/
def find (t : Table key) (k : κ) : Option α := t.rows.find? fun r => key r = k

theorem find_eq_some {t : Table key} {k : κ} {r : α} : t.find k = some r ↔ r ∈ t ∧ key r = k := by
  constructor
  · intro h
    have hkey := List.find?_some h
    exact ⟨List.mem_of_find?_eq_some h, of_decide_eq_true hkey⟩
  · rintro ⟨hr, rfl⟩
    cases h : t.find (key r) with
    | none =>
      have hnot := List.find?_eq_none.mp h r hr
      simp at hnot
    | some r' =>
      have hkey := List.find?_some h
      rw [eq_of_key_eq (List.mem_of_find?_eq_some h) hr (of_decide_eq_true hkey)]

theorem find_eq_none {t : Table key} {k : κ} : t.find k = none ↔ ∀ r ∈ t, key r ≠ k := by
  simp [find, mem_rows]

/-- Replaces the row with the key of `a`, or adds `a`. -/
def upsert (t : Table key) (a : α) : Table key where
  rows := a :: t.rows.filter fun r => key r ≠ key a
  nodup := by
    have hrest : ((t.rows.filter fun r => key r ≠ key a).map key).Nodup :=
      t.nodup.sublist (List.filter_sublist.map key)
    refine List.nodup_cons.mpr ⟨fun h => ?_, hrest⟩
    obtain ⟨r, hr, hk⟩ := List.mem_map.mp h
    simp [hk] at hr

@[simp] theorem mem_upsert {t : Table key} {a r : α} :
    r ∈ t.upsert a ↔ r = a ∨ (r ∈ t ∧ key r ≠ key a) := by
  simp [upsert, ← mem_rows]

theorem mem_upsert_self (t : Table key) (a : α) : a ∈ t.upsert a := mem_upsert.mpr (.inl rfl)

theorem mem_upsert_of_mem {t : Table key} {a r : α} (h : r ∈ t) (hne : key r ≠ key a) :
    r ∈ t.upsert a := mem_upsert.mpr (.inr ⟨h, hne⟩)

/-- Rewrites the row with key `k`, if there is one, without changing its key. -/
def modify (t : Table key) (k : κ) (f : α → α) (hf : ∀ r, key (f r) = key r) : Table key where
  rows := t.rows.map fun r => if key r = k then f r else r
  nodup := by
    have hk : key ∘ (fun r => if key r = k then f r else r) = key := by
      funext r
      by_cases h : key r = k <;> simp [h, hf]
    rw [List.map_map, hk]
    exact t.nodup

theorem mem_modify {t : Table key} {k : κ} {f : α → α} {hf : ∀ r, key (f r) = key r} {r : α} :
    r ∈ t.modify k f hf ↔ ∃ r₀ ∈ t, r = if key r₀ = k then f r₀ else r₀ := by
  simp only [modify, ← mem_rows, List.mem_map, eq_comm]

end Writes

section Best

variable [LinearOrder ι]

/-- The row of the highest rank among those selected. -/
def best (t : Table key) (p : α → Bool) (rank : α → ι) : Option α := (t.rows.filter p).argmax rank

theorem best_mem {t : Table key} {p : α → Bool} {rank : α → ι} {r : α} (h : t.best p rank = some r) :
    r ∈ t ∧ p r := List.mem_filter.mp (List.argmax_mem h)

theorem le_best {t : Table key} {p : α → Bool} {rank : α → ι} {b r : α} (h : t.best p rank = some b)
    (hr : r ∈ t)
    (hp : p r) : rank r ≤ rank b :=
  List.le_of_mem_argmax (List.mem_filter.mpr ⟨hr, hp⟩) h

theorem best_eq_none {t : Table key} {p : α → Bool} {rank : α → ι} :
    t.best p rank = none ↔ ∀ r ∈ t, ¬ p r := by
  simp [best, List.argmax_eq_none, List.filter_eq_nil_iff, mem_rows]

theorem exists_best {t : Table key} {p : α → Bool} {rank : α → ι} {r : α} (hr : r ∈ t) (hp : p r) :
    ∃ b, t.best p rank = some b := by
  cases h : t.best p rank with
  | none => exact absurd hp (best_eq_none.mp h r hr)
  | some b => exact ⟨b, rfl⟩

end Best

end Table

end Keyed
