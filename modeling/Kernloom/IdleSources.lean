import Kernloom.TrackedLevels

/-! Sources at observe that are not observed any more. The maintenance of the table, which sweeps the inactive
sources and evicts the idle ones, leaves their strikes as they are. -/

namespace Kernloom

open Transition

namespace LoopState

variable {σ ρ : Type}

/-- A maintenance pass: the sweep of the sources that were not processed, and the eviction. -/
structure Maintenance where
  now : Time
  processed : List String := []
  answer : String → PdpAnswer := fun _ => {}
  sweepOrder : RangeOrder
  evictOrder : RangeOrder

section Passes

variable (e : BrokeredActionExecutor σ ρ) (c : LoopConfig) (s : LoopState σ ρ)

def maintain (m : Maintenance) : LoopState σ ρ :=
  evictIdle c (sweepInactive e c s m.processed m.now m.answer m.sweepOrder) m.now m.evictOrder

def maintainAll (ms : List Maintenance) : LoopState σ ρ := ms.foldl (maintain e c) s

/-- What is to hold of a source at observe from a table on. -/
structure Forgettable (id : String) (entry : SourceEntry) : Prop where
  /-- Its strikes never increase. -/
  strikes : ∀ ms more before after, (maintainAll e c s ms).entries.lookup id = some before →
    (maintainAll e c s (ms ++ more)).entries.lookup id = some after →
      after.state.strikes ≤ before.state.strikes
  /-- It is gone after some number of passes, once the state of the source has outlived its TTL. -/
  forgotten : ∃ n, ∀ (ms : List Maintenance) (last : Maintenance), (ms.map (·.now)).Pairwise (· < ·) →
    n ≤ ms.length → ms.getLast? = some last → c.stateTTL < last.now - entry.state.lastSeenWallTime →
      (maintainAll e c s ms).entries.lookup id = none
  enforced : ∀ ms now order source kept, (maintainAll e c s ms).entries.lookup source = some kept →
    kept.state.level ≠ .observe →
      (evictIdle c (maintainAll e c s ms) now order).entries.lookup source = some kept

end Passes

section Lookup

variable {e : BrokeredActionExecutor σ ρ} {c : LoopConfig} {s : LoopState σ ρ} {id : String}
  {entry : SourceEntry}

theorem lookup_sweepEntry (hquiet : ∀ entry, s.entries.lookup id = some entry → entry.state.level = .observe)
    (processed : List String) (now : Time) (answer : String → PdpAnswer) (swept : String) :
    (sweepEntry e c s processed now answer swept).entries.lookup id = s.entries.lookup id := by
  unfold sweepEntry
  cases hswept : s.entries.lookup swept with
  | none => rfl
  | some found =>
    dsimp only
    split_ifs with hskip
    · rfl
    · have hne : id ≠ swept := by
        rintro rfl
        exact hskip (.inl (hquiet found hswept))
      exact AList.lookup_insert_ne hne

theorem lookup_sweepInactive
    (hquiet : ∀ entry, s.entries.lookup id = some entry → entry.state.level = .observe)
    (processed : List String) (now : Time) (answer : String → PdpAnswer) (order : RangeOrder) :
    (sweepInactive e c s processed now answer order).entries.lookup id = s.entries.lookup id := by
  unfold sweepInactive
  generalize order.visit s.entries.keys = swept
  induction swept generalizing s with
  | nil => rfl
  | cons first swept ih =>
    have hfirst := lookup_sweepEntry (e := e) (c := c) hquiet processed now answer first
    rw [List.foldl_cons, ih (fun entry h => hquiet entry (hfirst ▸ h)), hfirst]

theorem lookup_evictEntry (now : Time) (evicted : String) : (evictEntry c s now evicted).entries.lookup id =
    if evicted = id then (s.entries.lookup id).filter (!isIdle c now ·) else s.entries.lookup id := by
  unfold evictEntry
  by_cases hid : evicted = id
  · subst hid
    cases hentry : s.entries.lookup evicted with
    | none => simp [hentry]
    | some entry =>
      cases hidle : isIdle c now entry <;> simp [hidle, hentry, Option.filter]
  · rw [if_neg hid]
    cases s.entries.lookup evicted with
    | none => rfl
    | some entry =>
      dsimp only
      split_ifs
      · exact AList.lookup_erase_ne (Ne.symm hid)
      · rfl

/-- The eviction takes an entry out if and only if it is idle. -/
theorem lookup_evictIdle (now : Time) (order : RangeOrder) :
    (evictIdle c s now order).entries.lookup id = (s.entries.lookup id).filter (!isIdle c now ·) := by
  have hfold (ids : List String) (s : LoopState σ ρ) :
      (ids.foldl (fun s id => evictEntry c s now id) s).entries.lookup id =
        if id ∈ ids then (s.entries.lookup id).filter (!isIdle c now ·) else s.entries.lookup id := by
    induction ids generalizing s with
    | nil => rfl
    | cons first ids ih =>
      rw [List.foldl_cons, ih, lookup_evictEntry]
      by_cases hfirst : first = id
      · subst hfirst
        simp only [if_true, List.mem_cons_self]
        split_ifs
        · cases s.entries.lookup first with
          | none => rfl
          | some entry => cases hidle : isIdle c now entry <;> simp [hidle, Option.filter]
        · rfl
      · have hmem : id ∈ first :: ids ↔ id ∈ ids := by simp [Ne.symm hfirst]
        simp only [if_neg hfirst, hmem]
  unfold evictIdle
  rw [hfold]
  split_ifs with hmem
  · rfl
  · have hkeys : id ∉ s.entries.keys := fun h => hmem ((order.perm _).mem_iff.mpr h)
    have hnone : s.entries.lookup id = none := AList.lookup_eq_none.mpr fun h => hkeys (AList.mem_keys.mp h)
    rw [hnone]
    rfl

theorem lookup_maintain (hquiet : ∀ entry, s.entries.lookup id = some entry → entry.state.level = .observe)
    (m : Maintenance) : (maintain e c s m).entries.lookup id =
      (s.entries.lookup id).filter (!isIdle c m.now ·) := by
  unfold maintain
  rw [lookup_evictIdle, lookup_sweepInactive hquiet]

theorem lookup_maintainAll (hquiet : ∀ entry, s.entries.lookup id = some entry → entry.state.level = .observe)
    (ms : List Maintenance) : (maintainAll e c s ms).entries.lookup id =
      (s.entries.lookup id).filter fun entry => ms.all fun m => !isIdle c m.now entry := by
  unfold maintainAll
  induction ms generalizing s with
  | nil =>
    rw [List.foldl_nil]
    cases s.entries.lookup id <;> rfl
  | cons m ms ih =>
    have hpass := lookup_maintain (e := e) (c := c) hquiet m
    have hquiet' : ∀ entry, (maintain e c s m).entries.lookup id = some entry →
        entry.state.level = .observe := by
      intro entry h
      rw [hpass] at h
      exact hquiet entry (Option.filter_eq_some_iff.mp h).1
    rw [List.foldl_cons, ih hquiet', hpass, Option.filter_filter]
    congr 1

end Lookup

section Forgetting

/-- A pass after the state of a source has outlived its TTL. -/
def latePass (c : LoopConfig) (seen : Time) (i : Nat) : Maintenance where
  now := seen + c.stateTTL + (1 + i)
  sweepOrder := ⟨fun keys => keys, fun _ => .refl _⟩
  evictOrder := ⟨fun keys => keys, fun _ => .refl _⟩

theorem latePasses_increasing (c : LoopConfig) (seen : Time) (n : Nat) :
    (((List.range n).map (latePass c seen)).map (·.now)).Pairwise (· < ·) := by
  rw [List.map_map, List.pairwise_map]
  refine List.pairwise_lt_range.imp fun {i j} h => ?_
  have hlt : (i : ℤ) < j := by exact_mod_cast h
  simp only [Function.comp_apply, latePass]
  linarith

variable {e : BrokeredActionExecutor σ ρ} {c : LoopConfig} {s : LoopState σ ρ} {id : String}
  {entry : SourceEntry}

theorem isIdle_iff (hobserve : entry.state.level = .observe) (now : Time) : isIdle c now entry = true ↔
    (entry.state.strikes = 0 ∧ entry.state.lastSeenWallTime ≠ 0) ∧
      c.stateTTL < now - entry.state.lastSeenWallTime := by
  simp only [isIdle, decide_eq_true_eq, hobserve, true_and, and_assoc]

theorem lookup_kept (hentry : s.entries.lookup id = some entry) (hobserve : entry.state.level = .observe)
    (hkept : ¬ (entry.state.strikes = 0 ∧ entry.state.lastSeenWallTime ≠ 0)) (ms : List Maintenance) :
    (maintainAll e c s ms).entries.lookup id = some entry := by
  have hstays (now : Time) : isIdle c now entry = false :=
    Bool.eq_false_iff.mpr fun hidle => hkept ((isIdle_iff hobserve now).mp hidle).1
  rw [lookup_maintainAll fun found h => Option.some.inj (hentry.symm.trans h) ▸ hobserve, hentry]
  simp [Option.filter, hstays]

/-- A source that is not idle at any time is not forgotten. -/
theorem not_forgettable (hentry : s.entries.lookup id = some entry) (hobserve : entry.state.level = .observe)
    (hkept : ¬ (entry.state.strikes = 0 ∧ entry.state.lastSeenWallTime ≠ 0)) :
    ¬ Forgettable e c s id entry := by
  rintro ⟨-, ⟨n, hforgotten⟩, -⟩
  have hlast : ((List.range (n + 1)).map (latePass c entry.state.lastSeenWallTime)).getLast? =
      some (latePass c entry.state.lastSeenWallTime n) := by
    rw [List.range_succ, List.map_append, List.map_singleton, List.getLast?_concat]
  have hlate : c.stateTTL <
      (latePass c entry.state.lastSeenWallTime n).now - entry.state.lastSeenWallTime := by
    have hpos : (0 : ℤ) ≤ n := Int.natCast_nonneg n
    simp only [latePass]
    linarith
  have hgone := hforgotten _ _ (latePasses_increasing c _ (n + 1)) (by simp) hlast hlate
  rw [lookup_kept hentry hobserve hkept] at hgone
  cases hgone

/-- A source at observe that is not observed any more decays and is forgotten if and only if it has no strikes
and was seen. -/
theorem forgettable_iff (hentry : s.entries.lookup id = some entry)
    (hobserve : entry.state.level = .observe) :
    Forgettable e c s id entry ↔ entry.state.strikes = 0 ∧ entry.state.lastSeenWallTime ≠ 0 := by
  have hquiet : ∀ found, s.entries.lookup id = some found → found.state.level = .observe := fun found h =>
    Option.some.inj (hentry.symm.trans h) ▸ hobserve
  have hlookup := lookup_maintainAll (e := e) (c := c) hquiet
  rw [hentry] at hlookup
  constructor
  · intro hforgettable
    by_contra hkept
    exact not_forgettable hentry hobserve hkept hforgettable
  · intro hforgettable
    refine ⟨fun ms more before after hbefore hafter => ?_, ⟨1, fun ms last _ _ hlast hlate => ?_⟩,
      fun ms now order source kept hkept hlevel => ?_⟩
    · rw [hlookup] at hbefore hafter
      obtain rfl := Option.some.inj (Option.filter_eq_some_iff.mp hbefore).1
      obtain rfl := Option.some.inj (Option.filter_eq_some_iff.mp hafter).1
      exact le_refl _
    · have hidle : isIdle c last.now entry = true := (isIdle_iff hobserve _).mpr ⟨hforgettable, hlate⟩
      have hall : (ms.all fun m => !isIdle c m.now entry) = false :=
        List.all_eq_false.mpr ⟨last, List.mem_of_getLast? hlast, by simp [hidle]⟩
      rw [hlookup, Option.filter, hall]
      rfl
    · rw [lookup_evictIdle, hkept]
      have hstays : isIdle c now kept = false := by simp [isIdle, hlevel]
      simp [Option.filter, hstays]

def quietPeer : SourceEntry := { target := peer, state := { lastSeenWallTime := 63864979200000000000 } }

theorem quietPeer_forgettable : Forgettable blockingNode.toBrokeredActionExecutor blockingConfig
    { blockingStart with entries := AList.singleton "10.0.0.1" quietPeer } "10.0.0.1" quietPeer :=
  (forgettable_iff rfl rfl).mpr ⟨rfl, by decide⟩

def strikeConfig : LoopConfig :=
  { blockingConfig with
    fsm := { sevStep1 := 1, sevStep2 := 2, sevStep3 := 3, sevDelta1 := 1, sevDelta2 := 2, sevDelta3 := 3
             softAt := 3, hardAt := 6, blockAt := 9 }
    stateTTL := 3600 * Duration.second }

/-- The peer is observed once, with a severity that is worth a strike. -/
def strikePass : Tick where
  now := 63864979200000000000
  clock := 63864979200000000000
  order := ⟨fun keys => keys, fun _ => .refl _⟩
  cands := [{ target := peer, metrics := { severity := 1 } }]

theorem strikePass_state :
    ((tick blockingNode.toBrokeredActionExecutor strikeConfig blockingStart strikePass).entries.lookup
      "10.0.0.1").map (fun entry => (entry.state.level, entry.state.strikes)) = some (.observe, 1) := by
  decide +kernel

/-- A source with a strike that is not seen again is never forgotten. -/
theorem struck_source_kept : ¬ ∀ (σ ρ : Type) (e : LevelledExecutor σ ρ) (c : LoopConfig)
    (s₀ s : LoopState σ ρ) (ticks : List Tick) (id : String) (entry : SourceEntry), Started e s₀ →
    Run (TickStep e c) s₀ ticks s →
    s.entries.lookup id = some entry → entry.state.level = .observe →
      Forgettable e.toBrokeredActionExecutor c s id entry := by
  intro hall
  obtain ⟨entry, hentry, hstate⟩ := Option.map_eq_some_iff.mp strikePass_state
  obtain ⟨hobserve, hstrikes⟩ := Prod.mk.inj hstate
  have hkept : ¬ (entry.state.strikes = 0 ∧ entry.state.lastSeenWallTime ≠ 0) := fun h =>
    absurd (hstrikes.symm.trans h.1) (by decide)
  exact not_forgettable hentry hobserve hkept (hall _ _ blockingNode strikeConfig blockingStart _ [strikePass]
    "10.0.0.1" entry ⟨rfl, fun _ => rfl⟩ (.cons rfl .nil) hentry hobserve)

end Forgetting

end LoopState

end Kernloom
