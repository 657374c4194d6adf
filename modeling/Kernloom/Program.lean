import Mathlib

/-! Programs that call an environment and continue with its answers. The environment is a
relation between states, so a call may be answered in several ways and may fail, and a run may
stop between any two calls. -/

namespace Effects

/-- A program over operations `Op`; the operation `op` is answered in `Res op`. -/
inductive Program (Op : Type) (Res : Op → Type) (α : Type) where
  | ret (a : α)
  | call (op : Op) (next : Res op → Program Op Res α)

variable {Op : Type} {Res : Op → Type} {α β σ χ : Type}

namespace Program

def bind (p : Program Op Res α) (f : α → Program Op Res β) : Program Op Res β :=
  match p with
  | ret a => f a
  | call op next => call op fun r => (next r).bind f

instance : Monad (Program Op Res) where
  pure := ret
  bind := bind

/-- The program that makes one call and returns its answer. -/
def perform (op : Op) : Program Op Res (Res op) := call op ret

@[simp] theorem pure_eq (a : α) : (pure a : Program Op Res α) = ret a := rfl

@[simp] theorem ret_bind (a : α) (f : α → Program Op Res β) : (ret a >>= f) = f a := rfl

@[simp] theorem call_bind (op : Op) (next : Res op → Program Op Res α) (f : α → Program Op Res β) :
    (call op next >>= f) = call op fun r => next r >>= f := rfl

@[simp] theorem perform_bind (op : Op) (f : Res op → Program Op Res β) :
    (perform op >>= f) = call op f := rfl

end Program

open Program

/-- How an environment with states `σ` answers the operations. -/
abbrev Environment (Op : Type) (Res : Op → Type) (σ : Type) := (op : Op) → σ → Res op → σ → Prop

section Runs

variable (step : Environment Op Res σ)

/-- A complete run of a program: from one state to a value and a state. -/
inductive Runs : Program Op Res α → σ → α → σ → Prop
  | ret {a : α} {s : σ} : Runs (ret a) s a s
  | call {op : Op} {next : Res op → Program Op Res α} {s s' t : σ} {r : Res op} {a : α} :
      step op s r s' → Runs (next r) s' a t → Runs (call op next) s a t

/-- A run that stopped before or after some call, as a crash does. -/
inductive Stops : Program Op Res α → σ → σ → Prop
  | here {p : Program Op Res α} {s : σ} : Stops p s s
  | call {op : Op} {next : Res op → Program Op Res α} {s s' t : σ} {r : Res op} :
      step op s r s' → Stops (next r) s' t → Stops (call op next) s t

/-- Every run reaches `post`, and `crash` holds after every call on the way. -/
def wp (crash : σ → Prop) (post : α → σ → Prop) : Program Op Res α → σ → Prop
  | ret a, s => post a s
  | call op next, s => ∀ r s', step op s r s' → crash s' ∧ wp crash post (next r) s'

end Runs

variable {step : Environment Op Res σ} {crash : σ → Prop} {post : α → σ → Prop}

@[simp] theorem wp_ret {a : α} {s : σ} : wp step crash post (ret a) s ↔ post a s := Iff.rfl

theorem wp_call {op : Op} {next : Res op → Program Op Res α} {s : σ} :
    wp step crash post (call op next) s ↔
      ∀ r s', step op s r s' → crash s' ∧ wp step crash post (next r) s' := Iff.rfl

theorem wp_bind {p : Program Op Res α} {f : α → Program Op Res β} {post : β → σ → Prop} {s : σ} :
    wp step crash post (p >>= f) s ↔ wp step crash (fun a => wp step crash post (f a)) p s := by
  induction p generalizing s with
  | ret a => rfl
  | call op next ih =>
    simp only [call_bind, wp_call]
    exact forall_congr' fun r => forall_congr' fun s' => imp_congr_right fun _ =>
      and_congr_right fun _ => ih r

theorem wp_mono {post' : α → σ → Prop} {p : Program Op Res α} {s : σ}
    (h : wp step crash post p s) (hpost : ∀ a t, post a t → post' a t) :
    wp step crash post' p s := by
  induction p generalizing s with
  | ret a => exact hpost a s h
  | call op next ih => exact fun r s' hs => ⟨(h r s' hs).1, ih r (h r s' hs).2⟩

theorem wp_step {step' : Environment Op Res σ} {p : Program Op Res α} {s : σ} (h : wp step crash post p s)
    (hstep : ∀ op s r s', step' op s r s' → step op s r s') : wp step' crash post p s := by
  induction p generalizing s with
  | ret a => exact h
  | call op next ih =>
    intro r s' hs
    obtain ⟨hc, hnext⟩ := h r s' (hstep _ _ _ _ hs)
    exact ⟨hc, ih r hnext⟩

theorem wp_crash {crash' : σ → Prop} {p : Program Op Res α} {s : σ}
    (h : wp step crash post p s) (hcrash : ∀ t, crash t → crash' t) : wp step crash' post p s := by
  induction p generalizing s with
  | ret a => exact h
  | call op next ih => exact fun r s' hs => ⟨hcrash _ (h r s' hs).1, ih r (h r s' hs).2⟩

theorem wp_and {crash' : σ → Prop} {post' : α → σ → Prop} {p : Program Op Res α} {s : σ}
    (h : wp step crash post p s) (h' : wp step crash' post' p s) :
    wp step (fun t => crash t ∧ crash' t) (fun a t => post a t ∧ post' a t) p s := by
  induction p generalizing s with
  | ret a => exact ⟨h, h'⟩
  | call op next ih =>
    exact fun r s' hs => ⟨⟨(h r s' hs).1, (h' r s' hs).1⟩, ih r (h r s' hs).2 (h' r s' hs).2⟩

theorem wp.runs {p : Program Op Res α} {s t : σ} {a : α}
    (h : wp step crash post p s) (hr : Runs step p s a t) : post a t := by
  induction hr with
  | ret => exact h
  | call hs _ ih => exact ih (h _ _ hs).2

theorem wp.stops {p : Program Op Res α} {s t : σ}
    (h : wp step crash post p s) (hs : crash s) (hr : Stops step p s t) : crash t := by
  induction hr with
  | here => exact hs
  | call hc _ ih => exact ih (h _ _ hc).2 (h _ _ hc).1

theorem Runs.stops {p : Program Op Res α} {s t : σ} {a : α} (h : Runs step p s a t) :
    Stops step p s t := by
  induction h with
  | ret => exact .here
  | call hs _ ih => exact .call hs ih

theorem Runs.mono {step' : Environment Op Res σ} {p : Program Op Res α} {s t : σ} {a : α}
    (h : Runs step p s a t) (hstep : ∀ op s r s', step op s r s' → step' op s r s') :
    Runs step' p s a t := by
  induction h with
  | ret => exact .ret
  | call hs _ ih => exact .call (hstep _ _ _ _ hs) ih

section Uses

/-- Every call the program can reach is allowed, when the answers are among the expected ones. -/
def Uses (allowed : Op → Prop) (expected : (op : Op) → Res op → Prop) : Program Op Res α → Prop
  | ret _ => True
  | call op next => allowed op ∧ ∀ r, expected op r → Uses allowed expected (next r)

variable {allowed : Op → Prop} {expected : (op : Op) → Res op → Prop}

theorem Uses.bind {p : Program Op Res α} {f : α → Program Op Res β}
    (hp : Uses allowed expected p) (hf : ∀ a, Uses allowed expected (f a)) :
    Uses allowed expected (p >>= f) := by
  induction p with
  | ret a => exact hf a
  | call op next ih => exact ⟨hp.1, fun r hr => ih r (hp.2 r hr)⟩

theorem Uses.mono {allowed' : Op → Prop} {expected' : (op : Op) → Res op → Prop}
    {p : Program Op Res α} (h : Uses allowed expected p) (ha : ∀ op, allowed op → allowed' op)
    (he : ∀ op r, expected' op r → expected op r) : Uses allowed' expected' p := by
  induction p with
  | ret a => trivial
  | call op next ih => exact ⟨ha op h.1, fun r hr => ih r (h.2 r (he op r hr))⟩

/-- One call of a program, answered: the program that is left. -/
inductive Advances (step : Environment Op Res σ) : Program Op Res α → σ → Program Op Res α → σ → Prop
  | call {op : Op} {next : Res op → Program Op Res α} {s s' : σ} {r : Res op} :
      step op s r s' → Advances step (call op next) s (next r) s'

/-- What is left of a program uses no more than the program. -/
theorem Uses.advances {p p' : Program Op Res α} {s s' : σ} (h : Uses allowed expected p)
    (hr : ∀ op r, allowed op → step op s r s' → expected op r) (ha : Advances step p s p' s') :
    Uses allowed expected p' := by
  cases ha with
  | call hs => exact h.2 _ (hr _ _ h.1 hs)

/-- What every allowed call preserves, the whole program preserves. -/
theorem wp_of_uses {I : σ → Prop} {p : Program Op Res α} {s : σ}
    (hp : Uses allowed expected p) (hs : I s)
    (hstep : ∀ op s r s', allowed op → I s → step op s r s' → expected op r ∧ I s') :
    wp step I (fun _ => I) p s := by
  induction p generalizing s with
  | ret a => exact hs
  | call op next ih =>
    intro r s' h
    obtain ⟨hr, hs'⟩ := hstep op s r s' hp.1 hs h
    exact ⟨hs', ih r (hp.2 r hr) hs'⟩

end Uses

section Exec

/-- Runs a program against an environment that answers by a function. -/
def exec (handle : (op : Op) → σ → Res op × σ) : Program Op Res α → σ → α × σ
  | ret a, s => (a, s)
  | call op next, s => exec handle (next (handle op s).1) (handle op s).2

/-- Makes one call of a program. -/
def advance (handle : (op : Op) → σ → Res op × σ) : Program Op Res α → σ → Program Op Res α × σ
  | ret a, s => (ret a, s)
  | call op next, s => (next (handle op s).1, (handle op s).2)

/-- The call a program is about to make. -/
def nextOp : Program Op Res α → Option Op
  | ret _ => none
  | call op _ => some op

/-- Runs a program against an environment whose every answer is picked by a script. -/
def execWith (handle : χ → (op : Op) → σ → Res op × σ) :
    Program Op Res α → List χ → σ → Option (α × σ)
  | ret a, _, s => some (a, s)
  | call _ _, [], _ => none
  | call op next, c :: cs, s => execWith handle (next (handle c op s).1) cs (handle c op s).2

/-- The environment of a function. -/
def answers (handle : (op : Op) → σ → Res op × σ) : Environment Op Res σ :=
  fun op s r s' => handle op s = (r, s')

theorem runs_exec (handle : (op : Op) → σ → Res op × σ) (p : Program Op Res α) (s : σ) :
    Runs (answers handle) p s (exec handle p s).1 (exec handle p s).2 := by
  induction p generalizing s with
  | ret a => exact .ret
  | call op next ih => exact .call rfl (ih _ _)

theorem advances_advance {handle : (op : Op) → σ → Res op × σ} {p : Program Op Res α} {s : σ}
    (hp : (nextOp p).isSome) (hstep : ∀ op, step op s (handle op s).1 (handle op s).2) :
    Advances step p s (advance handle p s).1 (advance handle p s).2 := by
  cases p with
  | ret a => simp [nextOp] at hp
  | call op next => exact .call (hstep op)

theorem exec_bind (handle : (op : Op) → σ → Res op × σ) (p : Program Op Res α)
    (f : α → Program Op Res β) (s : σ) :
    exec handle (p >>= f) s = exec handle (f (exec handle p s).1) (exec handle p s).2 := by
  induction p generalizing s with
  | ret a => rfl
  | call op next ih => exact ih _ _

theorem runs_of_execWith {handle : χ → (op : Op) → σ → Res op × σ}
    (hstep : ∀ c op s, step op s (handle c op s).1 (handle c op s).2)
    {p : Program Op Res α} {script : List χ} {s t : σ} {a : α}
    (h : execWith handle p script s = some (a, t)) : Runs step p s a t := by
  induction p generalizing script s with
  | ret b =>
    obtain ⟨rfl, rfl⟩ : b = a ∧ s = t := by simpa [execWith] using h
    exact .ret
  | call op next ih =>
    cases script with
    | nil => simp [execWith] at h
    | cons c cs => exact .call (hstep c op s) (ih _ h)

end Exec

end Effects
