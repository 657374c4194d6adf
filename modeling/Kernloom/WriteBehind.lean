import Mathlib

/-! Write-behind caches. What memory holds is marked when it changes, and a flush takes the marks
off and writes the marked rows into a store that may fail any of the writes. -/

namespace WriteBehind

variable {κ ρ τ : Type}

/-- The writes one after another, each with whether the store fails it: the table they leave, and
each with whether it failed. A write also fails when `put` has no result. -/
def writeAll (put : τ → ρ → Option τ) : τ → List (ρ × Bool) → τ × List (ρ × Bool)
  | t, [] => (t, [])
  | t, (r, fails) :: rest =>
    match if fails then none else put t r with
    | none => ((writeAll put t rest).1, (r, true) :: (writeAll put t rest).2)
    | some t' => ((writeAll put t' rest).1, (r, false) :: (writeAll put t' rest).2)

theorem writeAll_rows (put : τ → ρ → Option τ) (attempts : List (ρ × Bool)) (t : τ) :
    (writeAll put t attempts).2.map Prod.fst = attempts.map Prod.fst := by
  induction attempts generalizing t with
  | nil => rfl
  | cons a rest ih =>
    obtain ⟨r, fails⟩ := a
    rw [writeAll]
    split
    · simp [ih t]
    · next t' _ => simp [ih t']

theorem writeAll_invariant {put : τ → ρ → Option τ} {P : τ → Prop} (attempts : List (ρ × Bool)) {t : τ}
    (hP : P t) (hput : ∀ {t t' : τ}, ∀ r ∈ attempts.map Prod.fst, P t → put t r = some t' → P t') :
    P (writeAll put t attempts).1 := by
  induction attempts generalizing t with
  | nil => exact hP
  | cons a rest ih =>
    obtain ⟨r, fails⟩ := a
    have hrest : ∀ {t t' : τ}, ∀ r ∈ rest.map Prod.fst, P t → put t r = some t' → P t' :=
      fun r hr => hput r (List.mem_cons_of_mem _ hr)
    rw [writeAll]
    split
    · exact ih hP hrest
    · next t' hwrite =>
      have hput' : put t r = some t' := by
        cases fails with
        | true => cases hwrite
        | false => exact hwrite
      exact ih (hput r List.mem_cons_self hP hput') hrest

/-- What one write of a row does: it stores the row when the table is ready for it, and leaves the
rows of other keys as they are. -/
structure Writes (put : τ → ρ → Option τ) (key : ρ → κ) (ready stored : τ → ρ → Prop) : Prop where
  store : ∀ {t t' r}, ready t r → put t r = some t' → stored t' r
  keep : ∀ {t t' r r'}, put t r = some t' → key r' ≠ key r → stored t r' → stored t' r'
  ready : ∀ {t t' r r'}, put t r = some t' → key r' ≠ key r → ready t r' → ready t' r'

section Store

variable {put : τ → ρ → Option τ} {key : ρ → κ} {ready stored : τ → ρ → Prop}

theorem Writes.writeAll_keep (h : Writes put key ready stored) {r : ρ} (attempts : List (ρ × Bool)) {t : τ}
    (hr : ∀ a ∈ attempts, key a.1 ≠ key r) (hstored : stored t r) :
    stored (writeAll put t attempts).1 r := by
  induction attempts generalizing t with
  | nil => exact hstored
  | cons a rest ih =>
    obtain ⟨r₀, fails⟩ := a
    have hrest : ∀ a ∈ rest, key a.1 ≠ key r := fun a ha => hr a (List.mem_cons_of_mem _ ha)
    rw [writeAll]
    split
    · exact ih hrest hstored
    · next t' hput =>
      have hwrite : put t r₀ = some t' := by
        cases fails with
        | true => cases hput
        | false => exact hput
      exact ih hrest (h.keep hwrite (hr _ List.mem_cons_self).symm hstored)

/-- Every write that does not fail is in the table at the end, as no two are of one key. -/
theorem Writes.writeAll_stored (h : Writes put key ready stored) (attempts : List (ρ × Bool)) {t : τ}
    (hkeys : (attempts.map fun a => key a.1).Nodup) (hready : ∀ a ∈ (writeAll put t attempts).2, a.2 = false →
      ready t a.1) {r : ρ} (hr : (r, false) ∈ (writeAll put t attempts).2) :
    stored (writeAll put t attempts).1 r := by
  induction attempts generalizing t with
  | nil => cases hr
  | cons a rest ih =>
    obtain ⟨r₀, fails⟩ := a
    rw [List.map_cons, List.nodup_cons] at hkeys
    have hothers : ∀ a ∈ rest, key a.1 ≠ key r₀ := fun a ha heq =>
      hkeys.1 (List.mem_map.mpr ⟨a, ha, heq⟩)
    rw [writeAll] at hr hready ⊢
    split at hr
    · next hput =>
      simp only [hput] at hready ⊢
      rcases List.mem_cons.mp hr with heq | hr
      · cases heq
      · exact ih hkeys.2 (fun a ha => hready a (List.mem_cons_of_mem _ ha)) hr
    · next t' hput =>
      simp only [hput] at hready ⊢
      have hwrite : put t r₀ = some t' := by
        cases fails with
        | true => cases hput
        | false => exact hput
      rcases List.mem_cons.mp hr with heq | hr
      · obtain rfl : r = r₀ := congrArg Prod.fst heq
        exact h.writeAll_keep rest hothers (h.store (hready _ List.mem_cons_self rfl) hwrite)
      · refine ih hkeys.2 (fun a ha hok => h.ready hwrite ?_ (hready a (List.mem_cons_of_mem _ ha) hok)) hr
        have hmem : a.1 ∈ rest.map Prod.fst := writeAll_rows put rest t' ▸ List.mem_map_of_mem ha
        obtain ⟨b, hb, heq⟩ := List.mem_map.mp hmem
        exact heq ▸ hothers b hb

end Store

/-- The rows that memory holds and those that the store holds, with the marks and with the keys
whose last write failed. -/
structure View (κ ρ : Type) where
  memory : Set ρ
  marked : Set κ
  failed : Set κ
  stored : Set ρ

/-- The keys whose last write failed, after a flush. -/
def failedAfter [DecidableEq κ] (key : ρ → κ) (failed : List κ) (outcomes : List (ρ × Bool)) : List κ :=
  (failed.filter fun k => k ∉ outcomes.map fun o => key o.1) ++
    (outcomes.filter fun o => o.2).map fun o => key o.1

theorem mem_failedAfter [DecidableEq κ] {key : ρ → κ} {failed : List κ} {outcomes : List (ρ × Bool)} {k : κ} :
    k ∈ failedAfter key failed outcomes ↔
      (∃ o ∈ outcomes, o.2 = true ∧ key o.1 = k) ∨ (k ∈ failed ∧ ∀ o ∈ outcomes, key o.1 ≠ k) := by
  simp only [failedAfter, List.mem_append, List.mem_filter, List.mem_map, decide_eq_true_eq, not_exists,
    not_and,
    and_assoc]
  exact or_comm

namespace View

variable {key : ρ → κ} {v v' v'' : View κ ρ}

/-- What memory holds is stored, unless it is marked or its last write failed. -/
def Kept (key : ρ → κ) (v : View κ ρ) : Prop :=
  ∀ r ∈ v.memory, key r ∈ v.marked ∨ key r ∈ v.failed ∨ r ∈ v.stored

/-- A step in memory: whatever it leaves without a mark, it leaves as it was. -/
structure Touches (key : ρ → κ) (v v' : View κ ρ) : Prop where
  memory : ∀ r ∈ v'.memory, key r ∉ v'.marked → r ∈ v.memory ∧ key r ∉ v.marked
  failed : v.failed ⊆ v'.failed
  stored : ∀ r ∈ v'.memory, key r ∉ v'.marked → r ∈ v.stored → r ∈ v'.stored

/-- A flush with what it wrote: at least the marked rows, each as memory holds it. -/
structure Flushes (key : ρ → κ) (v v' : View κ ρ) (outcomes : List (ρ × Bool)) : Prop where
  memory : v'.memory ⊆ v.memory
  marked : ∀ r ∈ v.memory, key r ∈ v.marked → ∃ o ∈ outcomes, key o.1 = key r
  current : ∀ o ∈ outcomes, ∀ r ∈ v.memory, key o.1 = key r → o.1 = r
  failed : ∀ k, k ∈ v'.failed ↔
    (∃ o ∈ outcomes, o.2 = true ∧ key o.1 = k) ∨ (k ∈ v.failed ∧ ∀ o ∈ outcomes, key o.1 ≠ k)
  stored : ∀ o ∈ outcomes, o.2 = false → o.1 ∈ v'.stored
  kept : ∀ r ∈ v.memory, (∀ o ∈ outcomes, key o.1 ≠ key r) → r ∈ v.stored → r ∈ v'.stored

theorem Kept.touches (h : v.Kept key) (htouch : v.Touches key v') : v'.Kept key := by
  intro r hr
  by_cases hmarked : key r ∈ v'.marked
  · exact .inl hmarked
  · obtain ⟨hold, hclean⟩ := htouch.memory r hr hmarked
    rcases h r hold with hmark | hfailed | hstored
    · exact absurd hmark hclean
    · exact .inr (.inl (htouch.failed hfailed))
    · exact .inr (.inr (htouch.stored r hr hmarked hstored))

variable {outcomes : List (ρ × Bool)}

theorem Flushes.written (h : v.Flushes key v' outcomes) {r : ρ} (hr : r ∈ v'.memory)
    (hwritten : ∃ o ∈ outcomes, key o.1 = key r) : key r ∈ v'.failed ∨ r ∈ v'.stored := by
  obtain ⟨o, ho, hkey⟩ := hwritten
  obtain rfl := h.current o ho r (h.memory hr) hkey
  cases hfails : o.2 with
  | true => exact .inl ((h.failed _).mpr (.inl ⟨o, ho, hfails, rfl⟩))
  | false => exact .inr (h.stored o ho hfails)

/-- A flush leaves nothing but what failed and what is stored. -/
theorem Kept.settled (h : v.Kept key) (hflush : v.Flushes key v' outcomes) {r : ρ} (hr : r ∈ v'.memory) :
    key r ∈ v'.failed ∨ r ∈ v'.stored := by
  by_cases hwritten : ∃ o ∈ outcomes, key o.1 = key r
  · exact hflush.written hr hwritten
  · have hrest : ∀ o ∈ outcomes, key o.1 ≠ key r := fun o ho heq => hwritten ⟨o, ho, heq⟩
    rcases h r (hflush.memory hr) with hmark | hfailed | hstored
    · exact absurd (hflush.marked r (hflush.memory hr) hmark) hwritten
    · exact .inl ((hflush.failed _).mpr (.inr ⟨hfailed, hrest⟩))
    · exact .inr (hflush.kept r (hflush.memory hr) hrest hstored)

theorem Kept.flushes (h : v.Kept key) (hflush : v.Flushes key v' outcomes) : v'.Kept key :=
  fun _ hr => .inr (h.settled hflush hr)

/-- A flush without a failure stores everything, if it writes again whatever had failed. -/
theorem Kept.saved (h : v.Kept key) (hflush : v.Flushes key v' outcomes) (hok : ∀ o ∈ outcomes, o.2 = false)
    (hfailed : ∀ r ∈ v.memory, key r ∈ v.failed → ∃ o ∈ outcomes, key o.1 = key r) :
    v'.memory ⊆ v'.stored := by
  intro r hr
  rcases h.settled hflush hr with hfail | hstored
  · rcases (hflush.failed _).mp hfail with ⟨o, ho, htrue, -⟩ | ⟨hold, hrest⟩
    · exact absurd ((hok o ho).symm.trans htrue) Bool.false_ne_true
    · obtain ⟨o, ho, heq⟩ := hfailed r (hflush.memory hr) hold
      exact absurd heq (hrest o ho)
  · exact hstored

end View

end WriteBehind
