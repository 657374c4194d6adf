import Kernloom.FsmMonotone

/-! Runs of the state machine from a fresh state: when it blocks, and how long it stays there. -/

namespace Kernloom

/-- The metrics of a source and the time they are read. -/
abbrev FsmTick := FsmMetrics × Time

namespace Fsm

def tick (cfg : FsmConfig) (st : FsmState) (e : FsmTick) : FsmState :=
  (loggedAdvance e.1 st e.2 cfg (syntheticTransition cfg e.2)).1.1

/-- The state after some ticks of a source that was not known. -/
def stateAfter (cfg : FsmConfig) (ticks : List FsmTick) : FsmState := ticks.foldl (tick cfg) {}

/-- The last ticks, from one at or before a time on, all have the severity of a block. -/
def SustainedSince (cfg : FsmConfig) (ticks : List FsmTick) (since : Time) : Prop :=
  ∃ front first rest, ticks = front ++ first :: rest ∧ first.2 ≤ since ∧
    ∀ e ∈ first :: rest, cfg.blockMinSev ≤ e.1.severity

/-- A tick enters the block. -/
def EntersBlock (cfg : FsmConfig) (ticks : List FsmTick) (e : FsmTick) : Prop :=
  (stateAfter cfg ticks).level ≠ .block ∧ (stateAfter cfg (ticks ++ [e])).level = .block

structure CountersNonneg (st : FsmState) : Prop where
  strikes : 0 ≤ st.strikes
  upStreak : 0 ≤ st.upStreak
  downStreak : 0 ≤ st.downStreak
  nonCompTicks : 0 ≤ st.nonCompTicks

variable {cfg : FsmConfig} {st : FsmState} {e : FsmTick} {ticks : List FsmTick} {now : Time}

theorem stateAfter_append (later : List FsmTick) :
    stateAfter cfg (ticks ++ later) = later.foldl (tick cfg) (stateAfter cfg ticks) := List.foldl_append

theorem stateAfter_concat : stateAfter cfg (ticks ++ [e]) = tick cfg (stateAfter cfg ticks) e := by
  rw [stateAfter_append, List.foldl_cons, List.foldl_nil]

section Step

/-- What a change of level leaves alone. -/
def counters (st : FsmState) : Int × Int × Int × Int × Time :=
  (st.strikes, st.upStreak, st.downStreak, st.nonCompTicks, st.highSevSince)

theorem counters_settle {calls : List Level} :
    counters (settle st now cfg (syntheticTransition cfg now) calls).1.1 = counters st := by
  unfold settle
  split_ifs <;> rfl

theorem tick_of_none (h : stepDownTo (count e.1 st e.2 cfg) e.2 cfg = none) :
    tick cfg st e = (settle (count e.1 st e.2 cfg) e.2 cfg (syntheticTransition cfg e.2) []).1.1 := by
  rw [tick, loggedAdvance_eq syntheticTransition_fresh, h]

theorem tick_of_some {lower : Level} (h : stepDownTo (count e.1 st e.2 cfg) e.2 cfg = some lower) :
    tick cfg st e = (settle (syntheticTransition cfg e.2 (count e.1 st e.2 cfg) lower) e.2 cfg
      (syntheticTransition cfg e.2) [lower]).1.1 := by
  rw [tick, loggedAdvance_eq syntheticTransition_fresh, h]

theorem counters_tick : counters (tick cfg st e) = counters (count e.1 st e.2 cfg) := by
  cases hdown : stepDownTo (count e.1 st e.2 cfg) e.2 cfg with
  | none =>
    rw [tick_of_none hdown]
    exact counters_settle
  | some lower =>
    rw [tick_of_some hdown]
    exact counters_settle

theorem settle_forceBlock {calls : List Level} (h : st.forceBlock = false) :
    (settle st now cfg (syntheticTransition cfg now) calls).1.1.forceBlock = false := by
  unfold settle
  split_ifs
  · rfl
  · exact h

theorem tick_forceBlock (hforce : st.forceBlock = false) : (tick cfg st e).forceBlock = false := by
  have hcount : (count e.1 st e.2 cfg).forceBlock = false := (count_forceBlock _ _ _ _).trans hforce
  cases hdown : stepDownTo (count e.1 st e.2 cfg) e.2 cfg with
  | none =>
    rw [tick_of_none hdown]
    exact settle_forceBlock hcount
  | some lower =>
    rw [tick_of_some hdown]
    exact settle_forceBlock hcount

theorem tick_counted (cfg : FsmConfig) (st : FsmState) (e : FsmTick) :
    (tick cfg st e).strikes = (strike e.1 (streaks e.1 st cfg) e.2 cfg).strikes ∧
    (tick cfg st e).upStreak = (streaks e.1 st cfg).upStreak ∧
    (tick cfg st e).downStreak = (streaks e.1 st cfg).downStreak ∧
    (tick cfg st e).nonCompTicks =
      (nonCompliance e.1 (strike e.1 (streaks e.1 st cfg) e.2 cfg) cfg).nonCompTicks ∧
    (tick cfg st e).highSevSince = (sustain e.1 st e.2 cfg).highSevSince := by
  have hcounters : counters (tick cfg st e) = counters (count e.1 st e.2 cfg) := counters_tick
  simp only [counters, Prod.mk.injEq, count_strikes, count_upStreak, count_downStreak, count_nonCompTicks,
    count_highSevSince] at hcounters
  exact hcounters

theorem CountersNonneg.tick (h : CountersNonneg st) : CountersNonneg (tick cfg st e) := by
  obtain ⟨hstrikes, hup, hdown, hticks, -⟩ := tick_counted cfg st e
  have hsame : (streaks e.1 st cfg).strikes = st.strikes := by rw [streaks_eq]
  obtain ⟨-, hsameTicks⟩ := strike_streaks_nonComp e.1 st e.2 cfg
  refine ⟨?_, ?_, ?_, ?_⟩
  · rw [hstrikes]
    have hbefore := h.strikes
    unfold strike
    split_ifs <;> simp only [hsame] at * <;> omega
  · rw [hup]
    have hbefore := h.upStreak
    unfold streaks
    split_ifs <;> simp only <;> omega
  · rw [hdown]
    have hbefore := h.downStreak
    unfold streaks
    split_ifs <;> simp only <;> omega
  · rw [hticks, nonCompliance_ticks, hsameTicks]
    have hbefore := h.nonCompTicks
    split_ifs <;> omega

/-- The gate lets a state that is not forced through to a block only after the minimum of sustained
severity. -/
theorem sustained_of_target_block (hmin : 0 < cfg.blockMinSev) (hforce : st.forceBlock = false)
    (hlevel : st.level ≠ .block) (h : target st now cfg = .block) :
    st.highSevSince ≠ 0 ∧ (0 < cfg.blockMinDur → cfg.blockMinDur ≤ now - st.highSevSince) := by
  have hbelow : st.level < .block := by
    revert hlevel
    cases st.level <;> decide
  unfold target gateBlock at h
  split_ifs at h with hgate
  rw [h] at hgate
  refine ⟨fun hzero => hgate ⟨rfl, hbelow, hmin, by simp [hforce], .inl hzero⟩, fun hdur => ?_⟩
  exact not_lt.mp fun hshort => hgate ⟨rfl, hbelow, hmin, by simp [hforce], .inr ⟨hdur, hshort⟩⟩

theorem settle_block {calls : List Level} (hlevel : st.level ≠ .block)
    (h : (settle st now cfg (syntheticTransition cfg now) calls).1.1.level = .block) :
    target st now cfg = .block := by
  rw [settle_level] at h
  split_ifs at h
  · exact h
  · exact absurd h hlevel

/-- A tick enters the block only after the minimum of sustained severity. -/
theorem sustained_of_tick (hmin : 0 < cfg.blockMinSev) (hforce : st.forceBlock = false)
    (hlevel : st.level ≠ .block)
    (h : (tick cfg st e).level = .block) :
    (tick cfg st e).highSevSince ≠ 0 ∧
      (0 < cfg.blockMinDur → cfg.blockMinDur ≤ e.2 - (tick cfg st e).highSevSince) := by
  have hhigh : (tick cfg st e).highSevSince = (count e.1 st e.2 cfg).highSevSince := by
    rw [(tick_counted _ _ _).2.2.2.2, count_highSevSince]
  have hcount : (count e.1 st e.2 cfg).forceBlock = false := (count_forceBlock _ _ _ _).trans hforce
  rw [hhigh]
  cases hdown : stepDownTo (count e.1 st e.2 cfg) e.2 cfg with
  | none =>
    rw [tick_of_none hdown] at h
    have hnot : (count e.1 st e.2 cfg).level ≠ .block := by rwa [count_level]
    exact sustained_of_target_block hmin hcount hnot (settle_block hnot h)
  | some lower =>
    rw [tick_of_some hdown] at h
    have hlower : lower ≠ .block := by
      rcases stepDownTo_eq_some.mp hdown with ⟨-, rfl⟩ | ⟨-, rfl⟩ | ⟨-, rfl⟩ <;> decide
    generalize count e.1 st e.2 cfg = s at h hcount
    have hnot : (syntheticTransition cfg e.2 s lower).level ≠ .block := hlower
    show (syntheticTransition cfg e.2 s lower).highSevSince ≠ 0 ∧ _
    exact sustained_of_target_block hmin hcount hnot (settle_block hnot h)

theorem tick_of_held (cfg : FsmConfig) (hlevel : st.level = .block) (hset : st.expiresAt ≠ 0)
    (hheld : e.2 < st.expiresAt) :
    (tick cfg st e).level = .block ∧ (tick cfg st e).expiresAt = st.expiresAt := by
  have hcount : (count e.1 st e.2 cfg).level = .block := by rwa [count_level]
  have hnone : stepDownTo (count e.1 st e.2 cfg) e.2 cfg = none := by
    have hnot : ∀ level minHold, ¬ lapsed (count e.1 st e.2 cfg) e.2 cfg level minHold := by
      rintro level minHold ⟨-, -, hexpired, -⟩
      rw [count_expiresAt] at hexpired
      exact lt_asymm hheld hexpired
    unfold stepDownTo
    rw [if_neg (hnot _ _), if_neg (hnot _ _), if_neg (hnot _ _)]
  have htarget : target (count e.1 st e.2 cfg) e.2 cfg = .block := by
    have hhold : holdBlock (count e.1 st e.2 cfg) e.2 (desired (count e.1 st e.2 cfg) cfg) = .block := by
      unfold holdBlock
      split_ifs with hweaker
      · exact hcount
      · refine not_not.mp fun hne => hweaker ⟨hcount, ?_, ?_, ?_⟩
        · rwa [count_expiresAt]
        · rwa [count_expiresAt]
        · rw [hcount]
          revert hne
          cases desired (count e.1 st e.2 cfg) cfg <;> decide
    unfold target
    rw [hhold]
    refine if_neg fun hgate => ?_
    rw [hcount] at hgate
    exact Nat.lt_irrefl _ hgate.2.1
  have hsettled : tick cfg st e = count e.1 st e.2 cfg := by
    rw [tick_of_none hnone]
    simp only [settle, htarget, hcount, ne_eq, not_true, false_and, if_false]
  rw [hsettled, hcount, count_expiresAt]
  exact ⟨rfl, rfl⟩

end Step

section Runs

theorem stateAfter_forceBlock : (stateAfter cfg ticks).forceBlock = false := by
  induction ticks using List.reverseRecOn with
  | nil => rfl
  | append_singleton ticks e ih =>
    rw [stateAfter_concat]
    exact tick_forceBlock ih

theorem stateAfter_nonneg : CountersNonneg (stateAfter cfg ticks) := by
  induction ticks using List.reverseRecOn with
  | nil => exact ⟨le_rfl, le_rfl, le_rfl, le_rfl⟩
  | append_singleton ticks e ih =>
    rw [stateAfter_concat]
    exact ih.tick

/-- The time of sustained severity is that of a tick since which every severity was high. -/
theorem sustained_stateAfter (h : (stateAfter cfg ticks).highSevSince ≠ 0) :
    SustainedSince cfg ticks (stateAfter cfg ticks).highSevSince := by
  induction ticks using List.reverseRecOn with
  | nil => exact absurd rfl h
  | append_singleton ticks e ih =>
    rw [stateAfter_concat, (tick_counted _ _ _).2.2.2.2] at h ⊢
    unfold sustain at h ⊢
    by_cases hhigh : 0 < cfg.blockMinSev ∧ cfg.blockMinSev ≤ e.1.severity
    · rw [if_pos hhigh]
      by_cases hsince : (stateAfter cfg ticks).highSevSince = 0
      · -- the stretch starts with this tick
        simp only [if_pos hsince]
        refine ⟨ticks, e, [], rfl, le_rfl, fun e' he' => ?_⟩
        rw [List.mem_singleton.mp he']
        exact hhigh.2
      · simp only [if_neg hsince]
        obtain ⟨front, first, rest, rfl, hfirst, hall⟩ := ih hsince
        refine ⟨front, first, rest ++ [e], by simp, hfirst, fun e' he' => ?_⟩
        rw [← List.cons_append] at he'
        rcases List.mem_append.mp he' with he' | he'
        · exact hall e' he'
        · rw [List.mem_singleton.mp he']
          exact hhigh.2
    · rw [if_neg hhigh] at h
      exact absurd rfl h

theorem sustained_of_enters (hmin : 0 < cfg.blockMinSev) (hordered : (ticks ++ [e]).Pairwise (·.2 ≤ ·.2))
    (h : EntersBlock cfg ticks e) : SustainedSince cfg (ticks ++ [e]) (e.2 - cfg.blockMinDur) := by
  obtain ⟨hbefore, hafter⟩ := h
  have hsustained := hafter
  rw [stateAfter_concat] at hsustained
  obtain ⟨hne, hdur⟩ := sustained_of_tick hmin stateAfter_forceBlock hbefore hsustained
  rw [← stateAfter_concat] at hne hdur
  obtain ⟨front, first, rest, heq, hfirst, hall⟩ := sustained_stateAfter hne
  refine ⟨front, first, rest, heq, ?_, hall⟩
  by_cases hpos : 0 < cfg.blockMinDur
  · have hlong := hdur hpos
    linarith
  · have hle : first.2 ≤ e.2 := by
      have hmem : first ∈ ticks ++ [e] := heq ▸ List.mem_append_right _ List.mem_cons_self
      rcases List.mem_append.mp hmem with hmem | hmem
      · exact (List.pairwise_append.mp hordered).2.2 _ hmem _ List.mem_cons_self
      · rw [List.mem_singleton.mp hmem]
    linarith

theorem foldl_tick_of_held (hlevel : st.level = .block) (hset : st.expiresAt ≠ 0)
    (hheld : ∀ e ∈ ticks, e.2 < st.expiresAt) : (ticks.foldl (tick cfg) st).level = .block := by
  induction ticks generalizing st with
  | nil => exact hlevel
  | cons e ticks ih =>
    obtain ⟨hlevel', hexpires⟩ := tick_of_held cfg hlevel hset (hheld e List.mem_cons_self)
    rw [List.foldl_cons]
    refine ih hlevel' (hexpires.trans_ne hset) fun e' he' => ?_
    exact (hheld e' (List.mem_cons_of_mem _ he')).trans_eq hexpires.symm

end Runs

end Fsm

open Fsm

/-- A block needs two seconds of severity. -/
def blockConfig : FsmConfig := { tickConfig with blockMinSev := 2, blockMinDur := 2 }

def blockTicks : List FsmTick := [(⟨0, 3⟩, 10), (⟨0, 3⟩, 12), (⟨0, 3⟩, 14), (⟨0, 0⟩, 16), (⟨0, 0⟩, 18)]

end Kernloom
