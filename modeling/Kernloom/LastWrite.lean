import Mathlib

/-! Registers that events write: what a register holds after a sequence of events is what the last
event wrote that wrote it at all. -/

namespace LastWrite

variable {σ ε β : Type}

/-- What is left of a value after the events that write it. -/
def final (writes : ε → Option β) (initial : β) (es : List ε) : β :=
  ((es.filterMap writes).getLast?).getD initial

variable {writes : ε → Option β} {initial : β} {e : ε} {es es' : List ε}

@[simp] theorem final_nil : final writes initial [] = initial := rfl

theorem final_concat : final writes initial (es ++ [e]) = (writes e).getD (final writes initial es) := by
  cases h : writes e with
  | none => simp [final, List.filterMap_append, h]
  | some b => simp [final, List.filterMap_append, h]

/-- A register that every step writes as its event says holds what the events left of it. -/
theorem register_foldl {step : σ → ε → σ} (register : σ → β)
    (hstep : ∀ s e, register (step s e) = (writes e).getD (register s)) (s : σ) (es : List ε) :
    register (es.foldl step s) = final writes (register s) es := by
  induction es using List.reverseRecOn with
  | nil => rfl
  | append_singleton es e ih => rw [List.foldl_concat, hstep, ih, final_concat]

theorem final_of_unwritten (h : ∀ e ∈ es, writes e = none) : final writes initial es = initial := by
  rw [final, List.filterMap_eq_nil_iff.mpr h]
  rfl

/-- A write is what is left unless it is written over. -/
theorem final_of_write {b : β} (h : writes e = some b) (hlater : ∀ e ∈ es', writes e = none) :
    final writes initial (es ++ e :: es') = b := by
  simp [final, List.filterMap_append, h, List.filterMap_eq_nil_iff.mpr hlater]

/-- Of a collection that only grows: what it has is there from the start or was put in by an event. -/
theorem grows_foldl {step : σ → ε → σ} (has : σ → Prop) {puts : ε → Prop}
    (hstep : ∀ s e, has (step s e) ↔ has s ∨ puts e) (s : σ) (es : List ε) :
    has (es.foldl step s) ↔ has s ∨ ∃ e ∈ es, puts e := by
  induction es generalizing s with
  | nil => simp
  | cons e es ih => rw [List.foldl_cons, ih, hstep, or_assoc]; simp

end LastWrite
