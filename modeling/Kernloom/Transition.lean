import Mathlib

/-! Labelled runs of a transition relation: invariants over whole runs, and runs whose every step
meets a condition on the state before it. -/

namespace Transition

variable {σ ε : Type}

/-- A run from one state to another, with its labels in order. -/
inductive Run (step : σ → ε → σ → Prop) : σ → List ε → σ → Prop
  | nil {s : σ} : Run step s [] s
  | cons {s t u : σ} {e : ε} {es : List ε} :
      step s e t → Run step t es u → Run step s (e :: es) u

/-- The steps of a relation that meet a condition on the state before them and their label. -/
def Guarded (guard : σ → ε → Prop) (step : σ → ε → σ → Prop) (s : σ) (e : ε) (t : σ) : Prop :=
  guard s e ∧ step s e t

variable {step : σ → ε → σ → Prop} {s t u : σ} {es es' : List ε}

theorem Run.invariant {I : σ → Prop} (h : Run step s es t) (hs : I s)
    (hstep : ∀ {s e t}, I s → step s e t → I t) : I t := by
  induction h with
  | nil => exact hs
  | cons hst _ ih => exact ih (hstep hs hst)

/-- What an invariant makes every step's label meet, every label of a run meets. -/
theorem Run.labels {I : σ → Prop} {P : ε → Prop} (h : Run step s es t) (hs : I s)
    (hstep : ∀ {s e t}, I s → step s e t → P e ∧ I t) : ∀ e ∈ es, P e := by
  induction h with
  | nil => exact fun _ he => absurd he List.not_mem_nil
  | cons hst _ ih => exact List.forall_mem_cons.mpr ⟨(hstep hs hst).1, ih (hstep hs hst).2⟩

theorem Run.mono {step' : σ → ε → σ → Prop} (h : Run step s es t)
    (hstep : ∀ {s e t}, step s e t → step' s e t) : Run step' s es t := by
  induction h with
  | nil => exact .nil
  | cons hst _ ih => exact .cons (hstep hst) ih

theorem Run.append (h : Run step s es t) (h' : Run step t es' u) : Run step s (es ++ es') u := by
  induction h with
  | nil => exact h'
  | cons hst _ ih => exact .cons hst (ih h')

theorem Run.split (h : Run step s (es ++ es') u) : ∃ t, Run step s es t ∧ Run step t es' u := by
  induction es generalizing s with
  | nil => exact ⟨s, .nil, h⟩
  | cons e es ih =>
    cases h with
    | cons hst hrest =>
      obtain ⟨t, ht, hu⟩ := ih hrest
      exact ⟨t, .cons hst ht, hu⟩

theorem run_of_foldlM {f : σ → ε → Option σ} (h : es.foldlM f s = some t) :
    Run (fun s e t => f s e = some t) s es t := by
  induction es generalizing s with
  | nil =>
    obtain rfl : s = t := Option.some.inj h
    exact .nil
  | cons e es ih =>
    obtain ⟨u, hu, ht⟩ := Option.bind_eq_some_iff.mp h
    exact .cons hu (ih ht)

/-- The same for a run whose steps meet a condition that can be decided. -/
theorem guarded_of_foldlM {f : σ → ε → Option σ} {guard : σ → ε → Prop}
    [∀ s e, Decidable (guard s e)]
    (h : es.foldlM (fun s e => if guard s e then f s e else none) s = some t) :
    Run (Guarded guard fun s e t => f s e = some t) s es t := by
  refine (run_of_foldlM h).mono fun {s e t} hstep => ?_
  by_cases hg : guard s e
  · exact ⟨hg, (if_pos hg).symm.trans hstep⟩
  · rw [if_neg hg] at hstep
    cases hstep

/-- A condition holds at the state before each turn of a loop. -/
def Along (turn : σ → ε → σ) (guard : σ → ε → Prop) : σ → List ε → Prop
  | _, [] => True
  | s, e :: es => guard s e ∧ Along turn guard (turn s e) es

theorem Along.invariant {turn : σ → ε → σ} {guard : σ → ε → Prop} {I : σ → Prop} (h : Along turn guard s es)
    (hs : I s) (hturn : ∀ {s e}, I s → guard s e → I (turn s e)) : I (es.foldl turn s) := by
  induction es generalizing s with
  | nil => exact hs
  | cons e es ih => exact ih h.2 (hturn hs h.1)

/-- What each turn keeps under the condition alone, a loop keeps when the condition holds all along. -/
theorem iff_along {turn : σ → ε → σ} {guard : σ → ε → Prop} {I P : σ → Prop}
    (hs : I s) (hturn : ∀ {s e}, I s → I (turn s e))
    (hstep : ∀ {s e}, I s → (P (turn s e) ↔ P s ∧ guard s e)) :
    P (es.foldl turn s) ↔ P s ∧ Along turn guard s es := by
  induction es generalizing s with
  | nil => exact ⟨fun hp => ⟨hp, trivial⟩, And.left⟩
  | cons e es ih =>
    refine (ih (hturn hs)).trans ?_
    rw [hstep hs, and_assoc]
    exact Iff.rfl

instance decidableAlong {turn : σ → ε → σ} {guard : σ → ε → Prop} [∀ s e, Decidable (guard s e)] :
    (s : σ) → (es : List ε) → Decidable (Along turn guard s es)
  | _, [] => isTrue trivial
  | s, e :: es =>
    have : Decidable (Along turn guard (turn s e) es) := decidableAlong (turn s e) es
    inferInstanceAs (Decidable (guard s e ∧ Along turn guard (turn s e) es))

/-- Two conditions that an invariant makes the same are met by the same loops. -/
theorem Along.congr {turn : σ → ε → σ} {guard guard' : σ → ε → Prop} {I : σ → Prop} (hs : I s)
    (hguard : ∀ {s e}, I s → (guard s e ↔ guard' s e)) (hturn : ∀ {s e}, I s → guard s e → I (turn s e)) :
    Along turn guard s es ↔ Along turn guard' s es := by
  induction es generalizing s with
  | nil => exact Iff.rfl
  | cons e es ih => exact and_congr_right_iff.mpr (fun h => ih (hturn hs h)) |>.trans (and_congr_left' (hguard hs))

theorem Run.singleton {e : ε} (h : step s e t) : Run step s [e] t := .cons h .nil

end Transition
