import Mathlib

/-! A state whose every change takes a snapshot under a lock, and snapshots that are stored later,
each by the writer that took it. -/

namespace SnapshotWrites

variable {ω σ : Type}

structure Pending (ω σ : Type) where
  writer : ω
  number : Nat
  snapshot : σ

/-- The state in memory, the snapshots still to be stored, numbered as they were taken, and what is
stored. -/
structure Store (ω σ : Type) where
  memory : σ
  taken : Nat := 0
  pending : List (Pending ω σ) := []
  stored : σ
  storedNumber : Nat := 0

namespace Store

def start (s : σ) : Store ω σ := { memory := s, stored := s }

def change (writer : ω) (m : σ) (s : Store ω σ) : Store ω σ :=
  { s with
    memory := m
    taken := s.taken + 1
    pending := s.pending ++ [⟨writer, s.taken + 1, m⟩] }

def write (i : Nat) (s : Store ω σ) : Option (Store ω σ) :=
  s.pending[i]?.map fun p =>
    { s with stored := p.snapshot, storedNumber := p.number, pending := s.pending.eraseIdx i }

/-- The memory is read from the store again. -/
def reload (s : Store ω σ) : Store ω σ := { s with memory := s.stored }

/-- The write does not put a snapshot over a newer one. -/
def InOrder (s : Store ω σ) (i : Nat) : Prop := ∀ p ∈ s.pending[i]?, s.storedNumber ≤ p.number

/-- The newest snapshot is the memory, and it is stored or still to be stored. -/
structure Inv (s : Store ω σ) : Prop where
  bounded : ∀ p ∈ s.pending, p.number ≤ s.taken
  newest : ∀ p ∈ s.pending, p.number = s.taken → p.snapshot = s.memory
  storedNumber_le : s.storedNumber ≤ s.taken
  stored : s.storedNumber = s.taken → s.stored = s.memory
  kept : s.storedNumber = s.taken ∨ ∃ p ∈ s.pending, p.number = s.taken

variable {s s' : Store ω σ}

theorem write_memory {i : Nat} (h : s.write i = some s') : s'.memory = s.memory := by
  obtain ⟨p, -, rfl⟩ := Option.map_eq_some_iff.mp h
  rfl

theorem start_inv (m : σ) : (start m : Store ω σ).Inv where
  bounded _ hp := absurd hp List.not_mem_nil
  newest _ hp := absurd hp List.not_mem_nil
  storedNumber_le := le_rfl
  stored _ := rfl
  kept := .inl rfl

theorem Inv.change (h : s.Inv) (writer : ω) (m : σ) : (s.change writer m).Inv where
  bounded p hp := by
    rcases List.mem_append.mp hp with hp | hp
    · exact Nat.le_succ_of_le (h.bounded p hp)
    · rw [List.mem_singleton.mp hp]
      exact le_rfl
  newest p hp hnumber := by
    rcases List.mem_append.mp hp with hp | hp
    · have hle := h.bounded p hp
      have hnumber : p.number = s.taken + 1 := hnumber
      omega
    · rw [List.mem_singleton.mp hp]
      rfl
  storedNumber_le := Nat.le_succ_of_le h.storedNumber_le
  stored hnumber := by
    have hle := h.storedNumber_le
    have hnumber : s.storedNumber = s.taken + 1 := hnumber
    omega
  kept := .inr ⟨_, List.mem_append_right _ List.mem_cons_self, rfl⟩

/-- A write in order stores the newest snapshot or leaves it to be stored. -/
theorem Inv.write {i : Nat} (h : s.Inv) (horder : s.InOrder i) (hwrite : s.write i = some s') : s'.Inv := by
  obtain ⟨p, hp, rfl⟩ := Option.map_eq_some_iff.mp hwrite
  have hmem : p ∈ s.pending := List.mem_of_getElem? hp
  have hsub : s.pending.eraseIdx i ⊆ s.pending := (List.eraseIdx_sublist _ _).subset
  refine ⟨fun q hq => h.bounded q (hsub hq), fun q hq => h.newest q (hsub hq), h.bounded p hmem,
    h.newest p hmem, ?_⟩
  by_cases hnumber : p.number = s.taken
  · exact .inl hnumber
  · have hlt : p.number < s.taken := lt_of_le_of_ne (h.bounded p hmem) hnumber
    have hold : s.storedNumber ≤ p.number := horder p hp
    rcases h.kept with hstored | ⟨q, hq, hqnumber⟩
    · omega
    · -- the newest snapshot is not the one written, so it is still there
      obtain ⟨j, hj⟩ := List.mem_iff_getElem?.mp hq
      refine .inr ⟨q, List.mem_eraseIdx_iff_getElem?.mpr ⟨j, fun hij => ?_, hj⟩, hqnumber⟩
      rw [hij, hp] at hj
      exact hnumber (Option.some.inj hj ▸ hqnumber)

/-- Once every snapshot is stored, what is stored is the memory. -/
theorem Inv.stored_eq (h : s.Inv) (hquiet : s.pending = []) : s.stored = s.memory := by
  rcases h.kept with hstored | ⟨p, hp, -⟩
  · exact h.stored hstored
  · rw [hquiet] at hp
    cases hp

theorem Inv.reload (h : s.Inv) (hquiet : s.pending = []) : s.reload = s := by
  have hstored := h.stored_eq hquiet
  cases s
  simpa [Store.reload] using hstored

end Store

end SnapshotWrites
