import Kernloom.WriteBehind

/-! What the flushes of the write-behind caches return. -/

namespace Kernloom

structure FlushResult where
  flushed : Nat := 0
  /-- Whether there is a first error. -/
  firstErr : Bool := false
  deriving DecidableEq

namespace FlushResult

/-- How the flushes of the learner and of the metric baselines count a write. -/
def countDirty (r : FlushResult) (fails : Bool) : FlushResult :=
  if fails ∧ ¬ r.firstErr then { r with firstErr := true } else { r with flushed := r.flushed + 1 }

/-- How the flush of the source baselines counts one. -/
def countRow (r : FlushResult) (fails : Bool) : FlushResult :=
  if fails then { r with firstErr := true } else { r with flushed := r.flushed + 1 }

theorem foldl_countRow (outcomes : List Bool) (r : FlushResult) :
    (outcomes.foldl countRow r).flushed = r.flushed + outcomes.count false := by
  induction outcomes generalizing r with
  | nil => rfl
  | cons fails rest ih =>
    rw [List.foldl_cons, ih]
    cases fails with
    | true => rw [countRow, if_pos rfl, List.count_cons_of_ne (by decide)]
    | false =>
      rw [countRow, if_neg Bool.false_ne_true, List.count_cons_self]
      show r.flushed + 1 + _ = _
      omega

theorem foldl_countDirty_of_firstErr (outcomes : List Bool) {r : FlushResult} (h : r.firstErr = true) :
    (outcomes.foldl countDirty r).flushed = r.flushed + outcomes.length := by
  induction outcomes generalizing r with
  | nil => rfl
  | cons fails rest ih =>
    have hcount : r.countDirty fails = { r with flushed := r.flushed + 1 } := if_neg fun hc => hc.2 h
    rw [List.foldl_cons, hcount, ih (r := { r with flushed := r.flushed + 1 }) h, List.length_cons]
    show r.flushed + 1 + _ = _
    omega

theorem foldl_countDirty (outcomes : List Bool) {r : FlushResult} (h : r.firstErr = false) :
    (outcomes.foldl countDirty r).flushed =
      r.flushed + outcomes.count false + (outcomes.count true - 1) := by
  induction outcomes generalizing r with
  | nil => rfl
  | cons fails rest ih =>
    rw [List.foldl_cons]
    cases fails with
    | true =>
      have hcount : r.countDirty true = { r with firstErr := true } := if_pos ⟨rfl, by simp [h]⟩
      have hlength := List.count_add_count_not rest true
      rw [hcount, foldl_countDirty_of_firstErr rest rfl, List.count_cons_self,
        List.count_cons_of_ne (by decide)]
      rw [Bool.not_true] at hlength
      show r.flushed + rest.length = _
      omega
    | false =>
      have hcount : r.countDirty false = { r with flushed := r.flushed + 1 } := if_neg fun hc => by simp at hc
      rw [hcount, ih (r := { r with flushed := r.flushed + 1 }) h, List.count_cons_self,
        List.count_cons_of_ne (by decide)]
      show r.flushed + 1 + _ + _ = _
      omega

/-- The count is that of the writes that succeeded exactly when at most one failed. -/
theorem countDirty_eq_iff (outcomes : List Bool) :
    (outcomes.foldl countDirty {}).flushed = outcomes.count false ↔ outcomes.count true ≤ 1 := by
  rw [foldl_countDirty outcomes rfl]
  show 0 + _ + _ = _ ↔ _
  omega

end FlushResult

end Kernloom
