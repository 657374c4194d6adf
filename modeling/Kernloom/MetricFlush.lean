import Kernloom.BaselineTable
import Kernloom.FlushResult
import Kernloom.MetricBaseline
import Kernloom.Transition

/-! The metric baseline engine over the state store: what its flushes keep. -/

namespace Kernloom

open Keyed Transition WriteBehind

variable (sha256 : String → String)

@[irreducible] def baselineKeyString (k : BaselineKey) : String := "bk:" ++ sha256 k.text

/-- The engine with the keys to be written. -/
structure PersistedEngine where
  engine : MetricEngine
  dirty : GoMap BaselineKey

namespace PersistedEngine

def new (cfg : MetricConfig) : PersistedEngine := ⟨⟨cfg, ∅⟩, ∅⟩

def updateWithBaselineKey (order : ProfileOrder) (k : BaselineKey) (value : Rat) (suspicious : Bool)
    (now : Time)
    (e : PersistedEngine) : PersistedEngine :=
  { engine := e.engine.update order (baselineKeyString sha256 k) value suspicious now
    dirty := e.dirty.insert (baselineKeyString sha256 k) k }

def baselineRow (k : BaselineKey) (p : MetricProfile) : BaselineRow where
  key := k
  state := if p.promoted then "learned" else "candidate"
  ewmaState := [("ewma", p.ewma), ("ewma_variance", p.ewmaVariance), ("peak", p.peak),
    ("confidence", p.confidence)]
  observations := p.count
  lastUpdated := p.lastSeen

/-- The rows of the dirty profiles; a profile evicted since has none. -/
def dirtyRows (e : PersistedEngine) : List BaselineRow :=
  e.dirty.entries.filterMap fun d => (e.engine.profiles.lookup d.1).map (baselineRow d.2)

/-- A flush that makes the writes `attempts`, each with whether the store fails it. -/
def flushDirty (now : Time) (attempts : List (BaselineRow × Bool)) (t : BaselineTable) (e : PersistedEngine) :
    PersistedEngine × BaselineTable × FlushResult :=
  let out := writeAll (BaselineTable.upsertBaseline sha256 now) t attempts
  ({ e with dirty := ∅ }, out.1, (out.2.map Prod.snd).foldl FlushResult.countDirty {})

end PersistedEngine

structure MetricStore where
  cache : PersistedEngine
  rows : BaselineTable
  /-- The keys updated so far, and those whose last write failed. -/
  updated : List BaselineKey
  failed : List BaselineKey

inductive MetricStoreEvent
  | update (order : ProfileOrder) (k : BaselineKey) (value : Rat) (suspicious : Bool) (now : Time)
  | flush (now : Time) (attempts : List (BaselineRow × Bool))

namespace MetricStore

def start (cfg : MetricConfig) : MetricStore := ⟨.new cfg, .empty, [], []⟩

/-- What became of the writes of a flush. -/
def outcomes (w : MetricStore) (now : Time) (attempts : List (BaselineRow × Bool)) :
    List (BaselineRow × Bool) :=
  (writeAll (BaselineTable.upsertBaseline sha256 now) w.rows attempts).2

/-- A flush writes the dirty rows in any order. -/
def step (w : MetricStore) : MetricStoreEvent → Option MetricStore
  | .update order k value suspicious now => some { w with
      cache := w.cache.updateWithBaselineKey sha256 order k value suspicious now
      updated := k :: w.updated }
  | .flush now attempts =>
    if (attempts.map Prod.fst).Perm w.cache.dirtyRows then some { w with
      cache := (w.cache.flushDirty sha256 now attempts w.rows).1
      rows := (w.cache.flushDirty sha256 now attempts w.rows).2.1
      failed := failedAfter BaselineRow.key w.failed (w.outcomes sha256 now attempts) }
    else none

abbrev Step (w : MetricStore) (e : MetricStoreEvent) (w' : MetricStore) : Prop := w.step sha256 e = some w'

/-- The profile that the engine holds for a key. -/
def profile (w : MetricStore) (k : BaselineKey) : Option MetricProfile :=
  w.cache.engine.profiles.lookup (baselineKeyString sha256 k)

/-- Every profile ever updated, and not evicted, is stored as it is. -/
def Saved (w : MetricStore) : Prop :=
  ∀ k ∈ w.updated, ∀ p ∈ w.profile sha256 k, w.rows.Holds (PersistedEngine.baselineRow k p)

/-- Different keys have different texts; at most one write of a flush fails; and a flush without a
failure writes whatever had failed. -/
def Fits (w : MetricStore) : MetricStoreEvent → Prop
  | .update _ k _ _ now =>
    (∀ k' ∈ w.updated, baselineKeyString sha256 k' = baselineKeyString sha256 k → k' = k) ∧ now ≠ 0
  | .flush now attempts => ((w.outcomes sha256 now attempts).map Prod.snd).count true ≤ 1 ∧
      ((∀ o ∈ w.outcomes sha256 now attempts, o.2 = false) → ∀ k ∈ w.failed, w.profile sha256 k ≠ none →
        w.cache.dirty.lookup (baselineKeyString sha256 k) = some k)

def view (w : MetricStore) : View BaselineKey BaselineRow where
  memory := { row | ∃ k ∈ w.updated, ∃ p ∈ w.profile sha256 k, PersistedEngine.baselineRow k p = row }
  marked := { k | w.cache.dirty.lookup (baselineKeyString sha256 k) = some k }
  failed := { k | k ∈ w.failed }
  stored := { row | w.rows.Holds row }

/-- The profiles carry the time of their last update, the marks name their own keys, and what is
neither marked nor failed is stored. -/
structure Inv (w : MetricStore) : Prop where
  texts : ∀ k ∈ w.updated, ∀ k' ∈ w.updated,
    baselineKeyString sha256 k = baselineKeyString sha256 k' → k = k'
  marks : ∀ text k, w.cache.dirty.lookup text = some k → k ∈ w.updated ∧ text = baselineKeyString sha256 k
  times : ∀ k, ∀ p ∈ w.profile sha256 k, p.lastSeen ≠ 0
  kept : (w.view sha256).Kept BaselineRow.key

end MetricStore

namespace MetricStore

variable {sha256} {w w' : MetricStore}

theorem start_inv (cfg : MetricConfig) : (start cfg).Inv sha256 where
  texts _ hk := absurd hk List.not_mem_nil
  marks _ _ h := by cases h
  times _ _ hp := by cases hp
  kept := by
    rintro _ ⟨k, hk, -⟩
    exact absurd hk List.not_mem_nil

theorem Inv.update {order : ProfileOrder} {k : BaselineKey} {value : Rat} {suspicious : Bool} {now : Time}
    (h : w.Inv sha256) (hfit : w.Fits sha256 (.update order k value suspicious now))
    (hstep : w.Step sha256 (.update order k value suspicious now) w') : w'.Inv sha256 := by
  obtain rfl := Option.some.inj hstep
  obtain ⟨hown, hnow⟩ := hfit
  obtain ⟨⟨p₀, hp₀, hlast⟩, hothers⟩ := MetricEngine.lookup_update order (baselineKeyString sha256 k) value
    suspicious
    now w.cache.engine
  have hne {k' : BaselineKey} (hk' : k' ∈ k :: w.updated) (hneq : k' ≠ k) :
      k' ∈ w.updated ∧ baselineKeyString sha256 k' ≠ baselineKeyString sha256 k := by
    have hold := (List.mem_cons.mp hk').resolve_left hneq
    exact ⟨hold, fun heq => hneq (hown k' hold heq)⟩
  have htexts : ∀ k₁ ∈ k :: w.updated, ∀ k₂ ∈ k :: w.updated,
      baselineKeyString sha256 k₁ = baselineKeyString sha256 k₂ → k₁ = k₂ := by
    intro k₁ hk₁ k₂ hk₂ heq
    by_cases h₁ : k₁ = k
    · by_cases h₂ : k₂ = k
      · rw [h₁, h₂]
      · exact absurd (heq.symm.trans (by rw [h₁])) (hne hk₂ h₂).2
    · by_cases h₂ : k₂ = k
      · exact absurd (heq.trans (by rw [h₂])) (hne hk₁ h₁).2
      · exact h.texts k₁ (hne hk₁ h₁).1 k₂ (hne hk₂ h₂).1 heq
  refine ⟨htexts, fun text k' hk' => ?_, fun k' p hp => ?_, h.kept.touches ⟨?_, ?_, ?_⟩⟩
  · by_cases htext : text = baselineKeyString sha256 k
    · rw [htext, PersistedEngine.updateWithBaselineKey, AList.lookup_insert] at hk'
      obtain rfl := Option.some.inj hk'
      exact ⟨List.mem_cons_self, htext⟩
    · rw [PersistedEngine.updateWithBaselineKey, AList.lookup_insert_ne htext] at hk'
      obtain ⟨hold, heq⟩ := h.marks text k' hk'
      exact ⟨List.mem_cons_of_mem _ hold, heq⟩
  · by_cases htext : baselineKeyString sha256 k' = baselineKeyString sha256 k
    · rw [profile, htext] at hp
      obtain rfl : p₀ = p := Option.some.inj (hp₀.symm.trans hp)
      rw [hlast]
      exact hnow
    · exact h.times k' p (hothers _ htext p hp)
  · rintro _ ⟨k', hk', p, hp, rfl⟩ hclean
    have hneq : k' ≠ k := by
      rintro rfl
      exact hclean (AList.lookup_insert _)
    obtain ⟨hold, htext⟩ := hne hk' hneq
    refine ⟨⟨k', hold, p, hothers _ htext p hp, rfl⟩, fun hmark => hclean ?_⟩
    exact (AList.lookup_insert_ne htext).trans hmark
  · exact subset_rfl
  · exact fun _ _ _ hstored => hstored

theorem mem_dirtyRows {row : BaselineRow} (h : w.Inv sha256) : row ∈ w.cache.dirtyRows ↔
    ∃ k, w.cache.dirty.lookup (baselineKeyString sha256 k) = some k ∧
      ∃ p ∈ w.profile sha256 k, PersistedEngine.baselineRow k p = row := by
  constructor
  · intro hrow
    obtain ⟨⟨text, k⟩, hd, hrow⟩ := List.mem_filterMap.mp hrow
    obtain ⟨p, hp, hrow⟩ := Option.map_eq_some_iff.mp hrow
    have hlookup : w.cache.dirty.lookup text = some k := AList.mem_lookup_iff.mpr hd
    obtain ⟨-, rfl⟩ := h.marks text k hlookup
    exact ⟨k, hlookup, p, hp, hrow⟩
  · rintro ⟨k, hlookup, p, hp, rfl⟩
    refine List.mem_filterMap.mpr ⟨⟨_, k⟩, AList.mem_lookup_iff.mp hlookup, ?_⟩
    exact Option.map_eq_some_iff.mpr ⟨p, hp, rfl⟩

theorem dirtyRows_nodup (h : w.Inv sha256) : (w.cache.dirtyRows.map BaselineRow.key).Nodup := by
  have hentries := w.cache.dirty.nodupKeys.nodup
  rw [PersistedEngine.dirtyRows, List.map_filterMap, List.Nodup, List.pairwise_filterMap]
  refine hentries.imp_of_mem fun {d d'} hd hd' hne k hk k' hk' heq => hne ?_
  simp only [Option.map_map, Option.map_eq_some_iff] at hk hk'
  obtain ⟨_, -, rfl⟩ := hk
  obtain ⟨_, -, rfl⟩ := hk'
  have hmark := (h.marks _ _ (AList.mem_lookup_iff.mpr hd)).2
  have hmark' := (h.marks _ _ (AList.mem_lookup_iff.mpr hd')).2
  have heq : d.2 = d'.2 := heq
  exact Sigma.ext (hmark.trans (heq ▸ hmark'.symm)) (heq_of_eq heq)

/-- What a flush does to the rows in memory and in the table. -/
theorem Inv.flushes {now : Time} {attempts : List (BaselineRow × Bool)} (h : w.Inv sha256)
    (hstep : w.Step sha256 (.flush now attempts) w') :
    (w.view sha256).Flushes BaselineRow.key (w'.view sha256) (w.outcomes sha256 now attempts) := by
  obtain ⟨hperm, hw'⟩ := Option.ite_none_right_eq_some.mp hstep
  obtain rfl := Option.some.inj hw'
  have hmem (row : BaselineRow) : (∃ o ∈ w.outcomes sha256 now attempts, o.1 = row) ↔
      row ∈ w.cache.dirtyRows := by
    rw [← hperm.mem_iff, ← writeAll_rows (BaselineTable.upsertBaseline sha256 now) attempts w.rows]
    exact List.mem_map.symm
  have hcurrent : ∀ o ∈ w.outcomes sha256 now attempts, ∃ k,
      w.cache.dirty.lookup (baselineKeyString sha256 k) = some k ∧
      ∃ p ∈ w.profile sha256 k, PersistedEngine.baselineRow k p = o.1 := fun o ho =>
    (mem_dirtyRows h).mp ((hmem o.1).mp ⟨o, ho, rfl⟩)
  have hkeys : (attempts.map fun a => a.1.key).Nodup := by
    have hnodup := (hperm.map BaselineRow.key).nodup_iff.mpr (dirtyRows_nodup h)
    rwa [List.map_map] at hnodup
  have htimes : ∀ o ∈ w.outcomes sha256 now attempts, o.1.lastUpdated ≠ 0 := by
    intro o ho
    obtain ⟨k, -, p, hp, heq⟩ := hcurrent o ho
    rw [← heq]
    exact h.times k p hp
  refine ⟨subset_rfl, ?_, ?_, fun k => mem_failedAfter, ?_, ?_⟩
  · rintro _ ⟨k, -, p, hp, rfl⟩ hmark
    obtain ⟨o, ho, heq⟩ := (hmem _).mpr ((mem_dirtyRows h).mpr ⟨k, hmark, p, hp, rfl⟩)
    exact ⟨o, ho, congrArg BaselineRow.key heq⟩
  · rintro o ho _ ⟨k, -, p, hp, rfl⟩ hkey
    obtain ⟨k', -, p', hp', heq⟩ := hcurrent o ho
    rw [← heq] at hkey ⊢
    obtain rfl : k' = k := hkey
    rw [Option.some.inj (hp'.symm.trans hp)]
  · rintro ⟨row, _⟩ ho rfl
    exact (BaselineTable.writes now).writeAll_stored attempts hkeys (fun o ho _ => htimes o ho) ho
  · intro row _ hrest hstored
    refine (BaselineTable.writes now).writeAll_keep attempts (fun a ha => ?_) hstored
    have hrow : a.1 ∈ w.cache.dirtyRows := hperm.subset (List.mem_map_of_mem ha)
    obtain ⟨o, ho, heq⟩ := (hmem a.1).mpr hrow
    exact heq ▸ hrest o ho

theorem Inv.step {e : MetricStoreEvent} (h : w.Inv sha256) (hfit : w.Fits sha256 e)
    (hstep : w.Step sha256 e w') :
    w'.Inv sha256 := by
  cases e with
  | update order k value suspicious now => exact h.update hfit hstep
  | flush now attempts =>
    have hkept := h.kept.flushes (h.flushes hstep)
    obtain ⟨-, hw'⟩ := Option.ite_none_right_eq_some.mp hstep
    obtain rfl := Option.some.inj hw'
    exact ⟨h.texts, (fun _ _ hk => nomatch hk), h.times, hkept⟩

/-- A flush counts the writes that succeeded; without a failure it leaves everything stored. -/
theorem Inv.flush_saved {now : Time} {attempts : List (BaselineRow × Bool)} (h : w.Inv sha256)
    (hfit : w.Fits sha256 (.flush now attempts)) (hstep : w.Step sha256 (.flush now attempts) w') :
    (w.cache.flushDirty sha256 now attempts w.rows).2.2.flushed =
        ((w.outcomes sha256 now attempts).map Prod.snd).count false ∧
      ((∀ o ∈ w.outcomes sha256 now attempts, o.2 = false) → w'.Saved sha256) := by
  refine ⟨(FlushResult.countDirty_eq_iff _).mpr hfit.1, fun hok k hk p hp => ?_⟩
  have hflush := h.flushes hstep
  have hupdated : w'.updated = w.updated := by
    obtain ⟨-, hw'⟩ := Option.ite_none_right_eq_some.mp hstep
    obtain rfl := Option.some.inj hw'
    rfl
  refine h.kept.saved hflush hok ?_ ⟨k, hk, p, hp, rfl⟩
  rintro _ ⟨k', hk', p', hp', rfl⟩ hfailed
  refine hflush.marked _ ⟨k', hk', p', hp', rfl⟩ (hfit.2 hok k' hfailed ?_)
  rw [hp']
  exact Option.some_ne_none p'

end MetricStore

end Kernloom
