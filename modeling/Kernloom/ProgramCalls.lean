import Kernloom.Program

/-! The calls that a run of a program makes, each in the state in which it is made. -/

namespace Effects

open Program

variable {Op : Type} {Res : Op → Type} {α β σ : Type}

section Calls

variable (step : Environment Op Res σ)

/-- A run of a program from one state comes to a call, which it makes in another. -/
inductive Reaches : Program Op Res α → σ → Op → σ → Prop
  | here {op : Op} {next : Res op → Program Op Res α} {s : σ} : Reaches (call op next) s op s
  | call {op op' : Op} {next : Res op → Program Op Res α} {s s' t : σ} {r : Res op} :
      step op s r s' → Reaches (next r) s' op' t → Reaches (call op next) s op' t

/-- Every call is made in a state that meets its precondition, and every run reaches `post`. -/
def wpCalls (pre : Op → σ → Prop) (post : α → σ → Prop) : Program Op Res α → σ → Prop
  | ret a, s => post a s
  | call op next, s => pre op s ∧ ∀ r s', step op s r s' → wpCalls pre post (next r) s'

end Calls

variable {step : Environment Op Res σ} {pre : Op → σ → Prop} {post : α → σ → Prop}

theorem wpCalls_call {op : Op} {next : Res op → Program Op Res α} {s : σ} :
    wpCalls step pre post (call op next) s ↔
      pre op s ∧ ∀ r s', step op s r s' → wpCalls step pre post (next r) s' := Iff.rfl

theorem wpCalls.reaches {p : Program Op Res α} {s t : σ} {op : Op} (h : wpCalls step pre post p s)
    (hr : Reaches step p s op t) : pre op t := by
  induction hr with
  | here => exact h.1
  | call hs _ ih => exact ih (h.2 _ _ hs)

theorem wpCalls_bind {p : Program Op Res α} {f : α → Program Op Res β} {post : β → σ → Prop} {s : σ} :
    wpCalls step pre post (p >>= f) s ↔ wpCalls step pre (fun a => wpCalls step pre post (f a)) p s := by
  induction p generalizing s with
  | ret a => rfl
  | call op next ih =>
    simp only [call_bind, wpCalls_call]
    exact and_congr_right fun _ => forall_congr' fun r => forall_congr' fun s' =>
      imp_congr_right fun _ => ih r

theorem wpCalls_mono {post' : α → σ → Prop} {p : Program Op Res α} {s : σ} (h : wpCalls step pre post p s)
    (hpost : ∀ a t, post a t → post' a t) : wpCalls step pre post' p s := by
  induction p generalizing s with
  | ret a => exact hpost a s h
  | call op next ih => exact ⟨h.1, fun r s' hs => ih r (h.2 r s' hs)⟩

/-- What a program establishes, it establishes whatever its calls meet. -/
theorem wpCalls.and_wp {crash : σ → Prop} {post' : α → σ → Prop} {p : Program Op Res α} {s : σ}
    (h : wpCalls step pre post p s) (h' : wp step crash post' p s) :
    wpCalls step pre (fun a t => post a t ∧ post' a t) p s := by
  induction p generalizing s with
  | ret a => exact ⟨h, h'⟩
  | call op next ih => exact ⟨h.1, fun r s' hs => ih r (h.2 r s' hs) (h' r s' hs).2⟩

/-- What every allowed call preserves, and what suffices for every allowed call. -/
theorem wpCalls_of_uses {allowed : Op → Prop} {expected : (op : Op) → Res op → Prop} {I : σ → Prop}
    {p : Program Op Res α} {s : σ} (hp : Uses allowed expected p) (hs : I s)
    (hpre : ∀ op s, allowed op → I s → pre op s)
    (hstep : ∀ op s r s', allowed op → I s → step op s r s' → expected op r ∧ I s') :
    wpCalls step pre (fun _ => I) p s := by
  induction p generalizing s with
  | ret a => exact hs
  | call op next ih =>
    refine ⟨hpre op s hp.1 hs, fun r s' h => ?_⟩
    obtain ⟨hr, hs'⟩ := hstep op s r s' hp.1 hs h
    exact ih r (hp.2 r hr) hs'

/-- The calls that a program makes when a function answers them, each with the state before it. -/
def calls (handle : (op : Op) → σ → Res op × σ) : Program Op Res α → σ → List (Op × σ)
  | ret _, _ => []
  | call op next, s => (op, s) :: calls handle (next (handle op s).1) (handle op s).2

theorem reaches_of_mem_calls {handle : (op : Op) → σ → Res op × σ} {p : Program Op Res α} {s t : σ} {op : Op}
    (hstep : ∀ op s, step op s (handle op s).1 (handle op s).2) (h : (op, t) ∈ calls handle p s) :
    Reaches step p s op t := by
  induction p generalizing s with
  | ret a => cases h
  | call op' next ih =>
    rcases List.mem_cons.mp h with heq | hrest
    · obtain ⟨rfl, rfl⟩ := Prod.mk.inj heq
      exact .here
    · exact .call (hstep op' s) (ih _ hrest)

end Effects
