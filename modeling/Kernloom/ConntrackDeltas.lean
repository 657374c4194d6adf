import Kernloom.Conntrack

/-! What the published rates of a connection add up to over a sequence of snapshots. -/

namespace Kernloom

namespace Conntrack

section Growth

/-- The growth of a counter over the snapshots that have it: over each stretch in which it does not fall, the
last value less the first. The stretch so far is given by both. -/
def growth : Option (Nat × Nat) → List (Option Nat) → Nat
  | none, [] => 0
  | some (first, last), [] => last - first
  | none, none :: rest => growth none rest
  | some (first, last), none :: rest => last - first + growth none rest
  | none, some c :: rest => growth (some (c, c)) rest
  | some (first, last), some c :: rest =>
    if last ≤ c then growth (some (first, c)) rest else last - first + growth (some (c, c)) rest

def step (last : Option Nat) (c : Option Nat) : Nat :=
  match last, c with
  | some last, some c => c - last
  | _, _ => 0

def stepSum : Option Nat → List (Option Nat) → Nat
  | _, [] => 0
  | last, c :: rest => step last c + stepSum c rest

theorem growth_eq_stepSum_of_stretch {first last : Nat} (h : first ≤ last) (counts : List (Option Nat)) :
    growth (some (first, last)) counts = last - first + stepSum (some last) counts ∧
      growth none counts = stepSum none counts := by
  induction counts generalizing first last with
  | nil => exact ⟨rfl, rfl⟩
  | cons c rest ih =>
    cases c with
    | none =>
      have hrest := (ih h).2
      simp only [growth, stepSum, step, hrest]
      omega
    | some c =>
      have hfresh := (ih (le_refl c)).1
      refine ⟨?_, ?_⟩
      · by_cases hc : last ≤ c
        · have hrest := (ih (h.trans hc)).1
          simp only [growth, stepSum, step, if_pos hc, hrest]
          omega
        · simp only [growth, stepSum, step, if_neg hc, hfresh]
          omega
      · simp only [growth, stepSum, step, hfresh]
        omega

/-- The steps of a stretch telescope. -/
theorem growth_eq_stepSum (counts : List (Option Nat)) : growth none counts = stepSum none counts :=
  (growth_eq_stepSum_of_stretch (le_refl 0) counts).2

end Growth

section Polls

def snapshots (polls : List Poll) : List (List Flow) := polls.filterMap (·.flows)

def flowsOf (key : ConnKey) (flows : List Flow) : List Flow := flows.filter (·.key = key)

/-- A counter of a key: that of all its flows. -/
def keyCount (key : ConnKey) (c : FlowCounter) (flows : List Flow) : Option Nat :=
  if flowsOf key flows = [] then none
  else some ((flowsOf key flows).map fun f => (f.counters c).toNat).sum

/-- What the observations of a key say that it transferred in their intervals. -/
def transferred (cfg : Config) (key : ConnKey) (c : FlowCounter) (published : List FlowObservation) : ℚ :=
  ((published.filter (·.flow.key = key)).map fun o => o.rate c * cfg.intervalSec).sum

/-- The observations of every key add up to its growth, and no rate is negative. -/
structure AddsUp (cfg : Config) (polls : List Poll) : Prop where
  sum : ∀ key c, transferred cfg key c (pollAll cfg (fun _ => none) polls) =
    growth none ((snapshots polls).map (keyCount key c))
  nonneg : ∀ o ∈ pollAll cfg (fun _ => none) polls, ∀ c, 0 ≤ o.rate c

/-- A snapshot with one flow for each key, all of which are published. -/
def Poll.Separate (cfg : Config) (p : Poll) : Prop :=
  ∀ flows, p.flows = some flows → (flows.map Flow.key).Nodup ∧ (flows.length : ℤ) ≤ cfg.maxFlows ∧
    ∀ i < flows.length, p.accepts i = true

variable {cfg : Config} {prev newPrev : Prev} {flows : List Flow} {key : ConnKey} {c : FlowCounter}

theorem intervalSec_pos (cfg : Config) : 0 < cfg.intervalSec := by
  unfold Config.intervalSec
  split_ifs with h
  · norm_num
  · exact not_le.mp h

theorem observe_nonneg (f : Flow) (c : FlowCounter) : 0 ≤ (observe cfg prev f).rate c :=
  div_nonneg (Nat.cast_nonneg _) (intervalSec_pos cfg).le

theorem mem_pollFlows {accepts : Nat → Bool} {emitted : Nat} {o : FlowObservation}
    (h : o ∈ (pollFlows cfg prev accepts flows emitted newPrev).1) : ∃ f ∈ flows, o = observe cfg prev f := by
  induction flows generalizing emitted newPrev with
  | nil => cases h
  | cons f flows ih =>
    simp only [pollFlows] at h
    split_ifs at h
    · cases h
    · rcases List.mem_cons.mp h with rfl | h
      · exact ⟨f, List.mem_cons_self, rfl⟩
      · obtain ⟨g, hg, ho⟩ := ih h
        exact ⟨g, List.mem_cons_of_mem _ hg, ho⟩
    · cases h

theorem pollAll_nonneg {polls : List Poll} {o : FlowObservation} (h : o ∈ pollAll cfg prev polls)
    (c : FlowCounter) : 0 ≤ o.rate c := by
  induction polls generalizing prev with
  | nil => cases h
  | cons p polls ih =>
    rcases List.mem_append.mp h with h | h
    · unfold poll at h
      cases hflows : p.flows with
      | none => rw [hflows] at h; cases h
      | some flows =>
        rw [hflows] at h
        obtain ⟨f, -, rfl⟩ := mem_pollFlows h
        exact observe_nonneg f c
    · exact ih h

theorem pollFlows_all {accepts : Nat → Bool} {emitted : Nat}
    (hmax : (emitted + flows.length : ℤ) ≤ cfg.maxFlows)
    (haccepts : ∀ i < flows.length, accepts (emitted + i) = true) :
    pollFlows cfg prev accepts flows emitted newPrev =
      (flows.map (observe cfg prev), some (flows.foldl keep newPrev)) := by
  induction flows generalizing emitted newPrev with
  | nil => rfl
  | cons f flows ih =>
    have hroom : ¬ cfg.maxFlows ≤ emitted := by
      simp only [List.length_cons] at hmax
      omega
    have hfirst : accepts emitted = true := haccepts 0 (by simp)
    have hmax' : ((emitted + 1 : ℕ) + flows.length : ℤ) ≤ cfg.maxFlows := by
      simp only [List.length_cons] at hmax
      push_cast at hmax ⊢
      omega
    have haccepts' : ∀ i < flows.length, accepts (emitted + 1 + i) = true := by
      intro i hi
      rw [Nat.add_assoc, Nat.add_comm 1]
      exact haccepts (i + 1) (Nat.succ_lt_succ hi)
    simp only [pollFlows, if_neg hroom, hfirst, if_true, ih hmax' haccepts']
    rfl

/-- The table of a snapshot that has one flow for each key. -/
def tableOf (flows : List Flow) : Prev := fun key => (flows.find? (·.key = key)).map Flow.counters

theorem foldl_tableOf (hnodup : (flows.map Flow.key).Nodup) :
    flows.foldl keep newPrev = fun key => (tableOf flows key).or (newPrev key) := by
  induction flows generalizing newPrev with
  | nil => rfl
  | cons f flows ih =>
    obtain ⟨hnotin, hnodup⟩ := List.nodup_cons.mp hnodup
    rw [List.foldl_cons, ih hnodup]
    funext key
    unfold tableOf keep
    by_cases hkey : f.key = key
    · have hnone : flows.find? (·.key = key) = none := by
        rw [List.find?_eq_none]
        intro g hg
        rw [decide_eq_true_eq]
        exact fun heq => hnotin (hkey ▸ heq ▸ List.mem_map_of_mem hg)
      rw [hnone, List.find?_cons_of_pos (by simpa using hkey), ← hkey, Function.update_self]
      rfl
    · rw [List.find?_cons_of_neg (by simpa using hkey), Function.update_of_ne (Ne.symm hkey)]

theorem flowsOf_eq_find (hnodup : (flows.map Flow.key).Nodup) (key : ConnKey) :
    flowsOf key flows = (flows.find? (·.key = key)).toList := by
  unfold flowsOf
  induction flows with
  | nil => rfl
  | cons f flows ih =>
    obtain ⟨hnotin, hnodup⟩ := List.nodup_cons.mp hnodup
    by_cases hkey : f.key = key
    · have hnone : flows.filter (·.key = key) = [] := by
        rw [List.filter_eq_nil_iff]
        intro g hg
        rw [decide_eq_true_eq]
        exact fun heq => hnotin (hkey ▸ heq ▸ List.mem_map_of_mem hg)
      rw [List.filter_cons_of_pos (by simpa using hkey), List.find?_cons_of_pos (by simpa using hkey), hnone]
      rfl
    · rw [List.filter_cons_of_neg (by simpa using hkey), List.find?_cons_of_neg (by simpa using hkey)]
      exact ih hnodup

def tableCount (table : Prev) (key : ConnKey) (c : FlowCounter) : Option Nat :=
  (table key).map fun counters => (counters c).toNat

theorem keyCount_eq (hnodup : (flows.map Flow.key).Nodup) (key : ConnKey) (c : FlowCounter) :
    keyCount key c flows = tableCount (tableOf flows) key c := by
  unfold keyCount tableCount tableOf
  rw [flowsOf_eq_find hnodup]
  cases flows.find? (·.key = key) with
  | none => rfl
  | some f => simp

theorem delta_toNat (prev : Option ConnPrev) (curr : ConnPrev) (c : FlowCounter) :
    (delta prev curr c).toNat = step (prev.map fun counters => (counters c).toNat) (some (curr c).toNat) := by
  cases prev with
  | none => rfl
  | some prev =>
    simp only [delta, step, Option.map_some]
    split_ifs with h
    · exact UInt64.toNat_sub_of_le _ _ h
    · have hlt := UInt64.lt_iff_toNat_lt.mp (UInt64.not_le.mp h)
      exact (Nat.sub_eq_zero_of_le hlt.le).symm

theorem transferred_append (published more : List FlowObservation) :
    transferred cfg key c (published ++ more) =
      transferred cfg key c published + transferred cfg key c more := by
  unfold transferred
  rw [List.filter_append, List.map_append, List.sum_append]

/-- A poll publishes the step of every key from the table to the snapshot. -/
theorem transferred_observe (hnodup : (flows.map Flow.key).Nodup) :
    transferred cfg key c (flows.map (observe cfg prev)) =
      step (tableCount prev key c) (keyCount key c flows) := by
  have hfilter : (flows.map (observe cfg prev)).filter (·.flow.key = key) =
      (flowsOf key flows).map (observe cfg prev) := by
    unfold flowsOf
    rw [List.filter_map]
    rfl
  unfold transferred
  rw [hfilter, keyCount_eq hnodup, flowsOf_eq_find hnodup]
  unfold tableCount tableOf
  cases hfind : flows.find? (·.key = key) with
  | none => cases prev key <;> simp [step]
  | some f =>
    have hkey : f.key = key := by simpa using List.find?_some hfind
    have hrate : (observe cfg prev f).rate c * cfg.intervalSec = (delta (prev key) f.counters c).toNat := by
      unfold observe
      rw [hkey]
      exact div_mul_cancel₀ _ (intervalSec_pos cfg).ne'
    simp only [Option.toList_some, List.map_cons, List.map_nil, List.sum_cons, List.sum_nil, add_zero, hrate,
      Option.map_some]
    rw [delta_toNat]

theorem transferred_pollAll {polls : List Poll} (hseparate : ∀ p ∈ polls, p.Separate cfg) :
    transferred cfg key c (pollAll cfg prev polls) =
      stepSum (tableCount prev key c) ((snapshots polls).map (keyCount key c)) := by
  induction polls generalizing prev with
  | nil => rfl
  | cons p polls ih =>
    obtain ⟨hp, hpolls⟩ := List.forall_mem_cons.mp hseparate
    cases hflows : p.flows with
    | none =>
      -- a snapshot that failed changes nothing
      have hpoll : poll cfg prev p = ([], prev) := by
        unfold poll
        rw [hflows]
      have hsnapshots : snapshots (p :: polls) = snapshots polls := List.filterMap_cons_none hflows
      rw [pollAll, hpoll, hsnapshots]
      exact ih hpolls
    | some flows =>
      obtain ⟨hnodup, hmax, haccepts⟩ := hp flows hflows
      have hpoll : poll cfg prev p = (flows.map (observe cfg prev), tableOf flows) := by
        unfold poll
        simp only [hflows]
        rw [pollFlows_all (by simpa using hmax) (by simpa using haccepts), foldl_tableOf hnodup]
        simp
      have hsnapshots : snapshots (p :: polls) = flows :: snapshots polls := List.filterMap_cons_some hflows
      rw [pollAll, hpoll, hsnapshots, transferred_append, transferred_observe hnodup, ih hpolls,
        List.map_cons, stepSum, ← keyCount_eq hnodup]
      push_cast
      rfl

/-- The published rates add up to the growth of every key, in every sequence of snapshots with one flow for
each key that are all published. -/
theorem deltas_add_up (cfg : Config) (polls : List Poll) (hseparate : ∀ p ∈ polls, p.Separate cfg) :
    AddsUp cfg polls where
  sum key c := by
    rw [transferred_pollAll hseparate, growth_eq_stepSum]
    rfl
  nonneg _ ho c := pollAll_nonneg ho c

def webFlow (srcPort : UInt16) (packets bytes : UInt64) : Flow :=
  ⟨"tcp", "10.0.0.2", "10.0.0.1", srcPort, 8080, "ESTABLISHED", packets, bytes⟩

/-- A connection that grows, a snapshot that fails, and the connection reset. -/
def webPolls : List Poll :=
  [⟨some [webFlow 54321 3 100], fun _ => true⟩, ⟨some [webFlow 54321 10 900], fun _ => true⟩,
    ⟨none, fun _ => false⟩, ⟨some [webFlow 54321 4 950], fun _ => true⟩]

theorem webPolls_add_up : AddsUp {} webPolls ∧
    growth none ((snapshots webPolls).map (keyCount (webFlow 54321 0 0).key .packets)) = 7 := by
  refine ⟨deltas_add_up {} webPolls fun p hp flows hflows => ?_, by decide +kernel⟩
  have hsingle : ∃ packets bytes, flows = [webFlow 54321 packets bytes] ∧ p.accepts 0 = true := by
    simp only [webPolls, List.mem_cons, List.not_mem_nil, or_false] at hp
    rcases hp with rfl | rfl | rfl | rfl
    · exact ⟨3, 100, (Option.some.inj hflows).symm, rfl⟩
    · exact ⟨10, 900, (Option.some.inj hflows).symm, rfl⟩
    · cases hflows
    · exact ⟨4, 950, (Option.some.inj hflows).symm, rfl⟩
  obtain ⟨packets, bytes, rfl, haccepts⟩ := hsingle
  refine ⟨List.nodup_singleton _, (by norm_num : (1 : ℤ) ≤ 10000), fun i hi => ?_⟩
  obtain rfl : i = 0 := by simpa using hi
  exact haccepts

/-- Two connections to a port, neither of which transfers anything. -/
def pairedPolls : List Poll :=
  List.replicate 2 ⟨some [webFlow 54321 100 0, webFlow 54322 10 0], fun _ => true⟩

theorem pairedPolls_facts :
    transferred {} (webFlow 0 0 0).key .packets (pollAll {} (fun _ => none) pairedPolls) = 90 ∧
    growth none ((snapshots pairedPolls).map (keyCount (webFlow 0 0 0).key .packets)) = 0 := by decide +kernel

/-- Flows that differ in their source ports only are compared with one another. -/
theorem source_ports_mixed : ¬ ∀ (cfg : Config) (polls : List Poll), AddsUp cfg polls := by
  intro hall
  obtain ⟨htransferred, hgrowth⟩ := pairedPolls_facts
  have hsum := (hall {} pairedPolls).sum (webFlow 0 0 0).key .packets
  rw [htransferred, hgrowth] at hsum
  norm_num at hsum

end Polls

end Conntrack

end Kernloom
