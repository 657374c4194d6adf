import Kernloom.GraphStrikes
import Kernloom.TuningBounds

/-! What the main loop has the autotuner learn. A pass counts as clean unless an adapter failed, too many of
its sources are severe or some are blocked, and only the calm sources of a clean pass are samples. -/

namespace Kernloom

open Transition

section Recording

structure LearnConfig where
  autoTune : Bool := true
  learnSevGT : ℚ := 1
  learnFracGT : ℚ := 1 / 200
  learnMaxSev : ℚ := 4 / 5
  learnSkipIfBlocks : Bool := true
  learnMaxDropRatio : ℚ := 1 / 50
  whitelistLearn : Bool := false
  feedbackLearn : Bool := false

namespace Metrics

variable (m : Metrics)

def hasLearningSignal : Prop :=
  0 < m.signalValue "network.packets_per_second" ∨ 0 < m.signalValue "network.syn_rate" ∨
    0 < m.signalValue "network.destination_port_change_rate"

instance : Decidable m.hasLearningSignal := inferInstanceAs (Decidable (_ ∨ _ ∨ _))

/-- The sample of a candidate, as the tuner names its signals. -/
def tuningSample : Autotune.Signal → ℚ
  | .pps => m.signalValue "network.packets_per_second"
  | .syn => m.signalValue "network.syn_rate"
  | .scan => m.signalValue "network.destination_port_change_rate"
  | .bps => m.signalValue "network.bytes_per_second"

end Metrics

/-- What the loop knows beside a pass when it records the samples: the sources on the lists, the policy of
the autotuner, and the random numbers of the reservoirs for each candidate. -/
structure LearnPass where
  wlHit : String → Bool := fun _ => false
  fbHit : String → Bool := fun _ => false
  policy : Autotune.Policy := {}
  picks : Nat → Autotune.Signal → Nat := fun _ _ => 0

variable (lc : LearnConfig)

/-- The drop ratio is never computed. -/
def cleanPass (p : Pass) (blocksActive : Nat) : Bool :=
  let seen := (p.observed.filterMap metricsFromObservation).filter fun m => m.hasLearningSignal
  let highSev := seen.filter fun m => lc.learnSevGT ≤ m.score
  let dropRatio : ℚ := 0
  ¬ p.observeFailed ∧ ¬ (lc.learnSkipIfBlocks ∧ 0 < blocksActive) ∧
    ¬ (0 < seen.length ∧ lc.learnFracGT < highSev.length / seen.length) ∧
    ¬ (0 < lc.learnMaxDropRatio ∧ lc.learnMaxDropRatio < dropRatio)

/-- A candidate is calm at a level. -/
def calm (clean : Bool) (level : Level) (m : Metrics) : Bool :=
  lc.autoTune ∧ clean ∧ level = .observe ∧ m.score ≤ lc.learnMaxSev ∧ m.enforcementFeedbackRate = 0

/-- A listed source may be learned by its state; any source is learned by the state its intent leads to. -/
def accepted (l : LearnPass) (clean : Bool) (m : Metrics) (st : FsmState) (intent : FsmIntent) : Bool :=
  let overrideLearned := calm lc clean st.level m ∧
    (l.wlHit m.target.id ∧ lc.whitelistLearn ∨ l.fbHit m.target.id ∧ lc.feedbackLearn)
  overrideLearned ∨ calm lc clean intent.signalState.level m

variable {σ ρ : Type} (e : BrokeredActionExecutor σ ρ) (c : LoopConfig) (topN : Nat)

/-- The samples that the evaluation of the candidates records, and whether each is accepted. -/
def recorded (l : LearnPass) (clean : Bool) (now : Time) :
    LoopState σ ρ → List (Metrics × Candidate) → List (Metrics × Bool)
  | _, [] => []
  | s, cand :: cands =>
    let entry := LoopState.ensure s cand.1.target.id cand.1.target
    let st := LoopState.projected s cand.1.target entry.state now
    let intent := evaluateFSMIntent cand.1.toFSMMetrics st now c.fsm
    let rest := recorded l clean now (LoopState.processCandidate e c s now cand.2) cands
    if cand.1.target.id = "" then rest else (cand.1, accepted lc l clean cand.1 st intent) :: rest

/-- The samples of a pass, and whether it was clean. -/
def PassRecord.samples (l : LearnPass) (r : PassRecord σ ρ) : Bool × List (Metrics × Bool) :=
  let drained := r.pass.drain e c topN r.loop r.taken
  let clean := cleanPass lc r.pass (LoopState.activeBlocks drained.1)
  (clean, recorded lc e c l clean r.pass.now drained.1 (drained.2.zip (r.pass.candidates drained.2)))

end Recording

section Machine

variable {σ ρ : Type}

/-- The loop with its strikes, the autotuner, and the count of the passes and of the clean ones. -/
structure TuningWorld (σ ρ : Type) where
  strikes : StrikeWorld σ ρ
  tuner : Autotune.Tuner
  totalLearnTicks : Nat := 0
  cleanLearnTicks : Nat := 0

inductive TuningEvent
  | signal (sig : Signal)
  | observe (p : Pass)
  | take
  | drained (l : LearnPass)

def TuningEvent.strike : TuningEvent → StrikeEvent
  | .signal sig => .signal sig
  | .observe p => .observe p
  | .take => .take
  | .drained _ => .drained

variable (lc : LearnConfig) (e : BrokeredActionExecutor σ ρ) (c : LoopConfig) (topN : Nat)

namespace TuningWorld

def start (w : NodeWorld σ ρ) (initial : Autotune.Thresholds) (cfg : Autotune.Config) (reservoirCap : Int) :
    TuningWorld σ ρ :=
  ⟨.start w, .new initial cfg reservoirCap, 0, 0⟩

def recordSamples (l : LearnPass) (samples : List (Metrics × Bool)) (a : Autotune.Tuner) : Autotune.Tuner :=
  samples.zipIdx.foldl
    (fun a r => a.recordSample r.1.1.tuningSample r.1.1.target.id r.1.2 (l.picks r.2)) a

/-- The end of a pass: its samples are recorded, and the autotuner ticks. -/
def learn (l : LearnPass) (r : PassRecord σ ρ) (w : TuningWorld σ ρ) : TuningWorld σ ρ :=
  let samples := r.samples lc e c topN l
  let total := w.totalLearnTicks + 1
  let clean := if samples.1 then w.cleanLearnTicks + 1 else w.cleanLearnTicks
  let tuner := recordSamples l samples.2 w.tuner
  { w with
    tuner := if lc.autoTune then (tuner.tick l.policy r.pass.now (clean / total)).2 else tuner
    totalLearnTicks := total
    cleanLearnTicks := clean }

/-- The pass that is made by an event. -/
def madeBy (w : TuningWorld σ ρ) : TuningEvent → Option (LearnPass × PassRecord σ ρ)
  | .drained l => w.strikes.draining.map fun d => (l, ⟨w.strikes.loop, d.1, d.2⟩)
  | _ => none

def step (w : TuningWorld σ ρ) (ev : TuningEvent) : Option (TuningWorld σ ρ) :=
  (w.strikes.step e c topN ev.strike).map fun strikes =>
    let w' : TuningWorld σ ρ := { w with strikes }
    (w.madeBy ev).elim w' fun made => w'.learn lc e c topN made.1 made.2

def Step (w : TuningWorld σ ρ) (ev : TuningEvent) (w' : TuningWorld σ ρ) : Prop := w.step lc e c topN ev = some w'

end TuningWorld

end Machine

namespace Autotune

open Set

section Bounds

variable {M K hi : ℚ} {xs : List ℚ} {pol : Policy}

theorem median_mem (hM : 0 ≤ M) (h : ∀ x ∈ xs, x ∈ Icc 0 M) : median xs ∈ Icc 0 M := by
  have hget (i : Nat) : (xs.insertionSort (· ≤ ·)).getD i 0 ∈ Icc 0 M := by
    rw [List.getD_eq_getElem?_getD]
    cases hi : (xs.insertionSort (· ≤ ·))[i]? with
    | none => exact ⟨le_rfl, hM⟩
    | some x => exact h x ((List.perm_insertionSort _ xs).mem_iff.mp (List.mem_of_getElem? hi))
  unfold median
  dsimp only
  split_ifs
  · exact ⟨le_rfl, hM⟩
  · exact hget _
  · have hlow := hget ((xs.insertionSort (· ≤ ·)).length / 2 - 1)
    have hhigh := hget ((xs.insertionSort (· ≤ ·)).length / 2)
    constructor
    · linarith [hlow.1, hhigh.1]
    · linarith [hlow.2, hhigh.2]

theorem mad_mem (hM : 0 ≤ M) (h : ∀ x ∈ xs, x ∈ Icc 0 M) : mad xs (median xs) ∈ Icc 0 M := by
  have hmedian := median_mem hM h
  unfold mad
  split_ifs
  · exact ⟨le_rfl, hM⟩
  · refine median_mem hM fun d hd => ?_
    obtain ⟨x, hx, rfl⟩ := List.mem_map.mp hd
    exact ⟨abs_nonneg _, abs_le.mpr ⟨by linarith [(h x hx).1, hmedian.2], by linarith [(h x hx).2, hmedian.1]⟩⟩

theorem estimate_le (hM : 0 ≤ M) (h : ∀ x ∈ xs, x ∈ Icc 0 M) (hk : pol.k ≤ K) (hK : 0 ≤ K) {floor : ℚ}
    (hfloor : floor ≤ hi) (hhi : (1 + K) * M ≤ hi) : estimate pol floor xs ≤ hi := by
  have hmedian := median_mem hM h
  have hmad := mad_mem hM h
  refine max_le hfloor ?_
  calc median xs + pol.k * mad xs (median xs) ≤ M + K * M := by
        have hleft := mul_le_mul_of_nonneg_right hk hmad.1
        have hright := mul_le_mul_of_nonneg_left hmad.2 hK
        linarith [hmedian.2]
    _ = (1 + K) * M := by ring
    _ ≤ hi := hhi

theorem capChangeDir_le_of_le {current target : ℚ} (maxUp maxDown : ℚ) (hcurrent : current ≤ hi)
    (htarget : target ≤ hi) : capChangeDir current target maxUp maxDown ≤ hi := by
  unfold capChangeDir
  by_cases hpos : current ≤ 0
  · rwa [if_pos hpos]
  · have hdown : 0 < maxDown → current * (1 - maxDown) ≤ hi := by
      intro hdown
      nlinarith
    rw [if_neg hpos]
    dsimp only
    split_ifs <;> grind

theorem tuned_le {canDownscale : Bool} {floor old : ℚ} (hold : old ≤ hi) (hestimate : estimate pol floor xs ≤ hi) :
    tuned pol canDownscale floor old xs ≤ hi := by
  unfold tuned
  refine smooth_le hold (capChangeDir_le_of_le _ _ hold ?_)
  split_ifs
  · exact hold
  · exact hestimate

theorem tunedBPS_le {cfg : Config} {old : ℚ} (hold : old ≤ hi) (hestimate : estimate pol cfg.floorBPS xs ≤ hi) :
    tunedBPS pol cfg old xs ≤ hi := by
  unfold tunedBPS
  split_ifs
  · exact smooth_le hold (capChangeDir_le_of_le _ _ hold hestimate)
  · exact hold

theorem forall_add {r : Reservoir} {P : ℚ → Prop} (h : ∀ x ∈ r.data, P x) (pick : Nat) {x : ℚ}
    (hx : 0 ≤ x → P x) : ∀ y ∈ (r.add pick x).data, P y := by
  unfold Reservoir.add
  dsimp only
  split_ifs with hneg
  · exact h
  · exact fun y hy => (List.mem_append.mp hy).elim (h y) fun hy => List.mem_singleton.mp hy ▸ hx (not_lt.mp hneg)
  · exact fun y hy => (List.mem_or_eq_of_mem_set hy).elim (h y) fun hy => hy ▸ hx (not_lt.mp hneg)
  · exact h

/-- The samples of a signal are within a bound, and its threshold below one that they cannot exceed. -/
structure Tuner.Bounded (s : Signal) (M hi : ℚ) (a : Tuner) : Prop where
  data : ∀ x ∈ (a.reservoir s).data, x ∈ Icc 0 M
  threshold : a.thresholds.get s ≤ hi
  floor : a.cfg.floor s ≤ hi

variable {a : Tuner} {s : Signal}

theorem Tuner.Bounded.record (h : a.Bounded s M hi) {sample : Signal → ℚ} {source : String} {add : Bool}
    (hsample : add = true → sample s ≤ M) (picks : Signal → Nat) :
    (a.recordSample sample source add picks).Bounded s M hi := by
  unfold Tuner.recordSample
  cases add with
  | false => exact h
  | true =>
    have hadded : ∀ x ∈ ((a.reservoir s).add (picks s) (sample s)).data, x ∈ Icc 0 M :=
      forall_add h.data _ fun hpos => ⟨hpos, hsample rfl⟩
    refine ⟨?_, h.threshold, h.floor⟩
    cases s <;> exact hadded

theorem Tuner.Bounded.tick (h : a.Bounded s M hi) (hM : 0 ≤ M) (hk : pol.k ≤ K) (hK : 0 ≤ K)
    (hhi : (1 + K) * M ≤ hi) (now : Time) (cleanRatio : ℚ) : (a.tick pol now cleanRatio).2.Bounded s M hi := by
  have hestimate : estimate pol (a.cfg.floor s) (a.reservoir s).data ≤ hi :=
    estimate_le hM h.data hk hK h.floor hhi
  have hthreshold : (a.tick pol now cleanRatio).2.thresholds.get s ≤ hi := by
    have hold := h.threshold
    rw [a.tick_thresholds]
    split_ifs
    · cases s with
      | bps => exact tunedBPS_le hold hestimate
      | pps => exact tuned_le hold hestimate
      | syn => exact tuned_le hold hestimate
      | scan => exact tuned_le hold hestimate
    · exact hold
  have hframe : (a.tick pol now cleanRatio).2.reservoir s = a.reservoir s ∧
      (a.tick pol now cleanRatio).2.cfg = a.cfg := by
    unfold Tuner.tick
    dsimp only
    split_ifs <;> cases s <;> exact ⟨rfl, rfl⟩
  exact ⟨hframe.1 ▸ h.data, hthreshold, hframe.2 ▸ h.floor⟩

end Bounds

end Autotune

section Runs

variable {σ ρ : Type} {lc : LearnConfig} {e : BrokeredActionExecutor σ ρ} {c : LoopConfig} {topN : Nat}
variable {w w' : TuningWorld σ ρ} {s : Autotune.Signal} {M K hi : ℚ}

/-- The policy of an event multiplies the deviation by no more than `K`. -/
def TuningEvent.Limited (K : ℚ) (_ : TuningWorld σ ρ) : TuningEvent → Prop
  | .drained l => l.policy.k ≤ K
  | _ => True

instance : (ev : TuningEvent) → Decidable (ev.Limited K w)
  | .drained l => inferInstanceAs (Decidable (l.policy.k ≤ K))
  | .signal _ => isTrue trivial
  | .observe _ => isTrue trivial
  | .take => isTrue trivial

theorem accepted_calm {l : LearnPass} {clean : Bool} {m : Metrics} {st : FsmState} {intent : FsmIntent}
    (h : accepted lc l clean m st intent = true) :
    clean = true ∧ m.score ≤ lc.learnMaxSev ∧ m.enforcementFeedbackRate = 0 := by
  have hcalm : ∃ level, calm lc clean level m = true := by
    rcases of_decide_eq_true h with hlisted | hobserved
    · exact ⟨_, hlisted.1⟩
    · exact ⟨_, hobserved⟩
  obtain ⟨level, hlevel⟩ := hcalm
  obtain ⟨-, hclean, -, hcalm⟩ := of_decide_eq_true hlevel
  exact ⟨hclean, hcalm⟩

theorem recorded_calm {l : LearnPass} {clean : Bool} {now : Time} {loop : LoopState σ ρ}
    {cands : List (Metrics × Candidate)} {m : Metrics} (h : (m, true) ∈ recorded lc e c l clean now loop cands) :
    clean = true ∧ m ∈ cands.map Prod.fst ∧ m.score ≤ lc.learnMaxSev ∧ m.enforcementFeedbackRate = 0 := by
  induction cands generalizing loop with
  | nil => cases h
  | cons cand cands ih =>
    have hrest (h : (m, true) ∈ recorded lc e c l clean now
        (LoopState.processCandidate e c loop now cand.2) cands) := ih h
    unfold recorded at h
    dsimp only at h
    split_ifs at h with hid
    · obtain ⟨hclean, hmem, hcalm⟩ := hrest h
      exact ⟨hclean, List.mem_cons_of_mem _ hmem, hcalm⟩
    · rcases List.mem_cons.mp h with hhead | htail
      · obtain ⟨rfl, haccepted⟩ := Prod.mk.inj hhead
        obtain ⟨hclean, hcalm⟩ := accepted_calm haccepted.symm
        exact ⟨hclean, List.mem_cons_self, hcalm⟩
      · obtain ⟨hclean, hmem, hcalm⟩ := hrest htail
        exact ⟨hclean, List.mem_cons_of_mem _ hmem, hcalm⟩

/-- Every calm source of the pass, if it is clean, has at most `M` of the signal. -/
def PassRecord.CalmBelow (lc : LearnConfig) (e : BrokeredActionExecutor σ ρ) (c : LoopConfig) (topN : Nat)
    (s : Autotune.Signal) (M : ℚ) (r : PassRecord σ ρ) : Prop :=
  let drained := r.pass.drain e c topN r.loop r.taken
  cleanPass lc r.pass (LoopState.activeBlocks drained.1) = true → ∀ m ∈ drained.2,
    m.score ≤ lc.learnMaxSev → m.enforcementFeedbackRate = 0 → m.tuningSample s ≤ M

instance (r : PassRecord σ ρ) : Decidable (r.CalmBelow lc e c topN s M) := inferInstanceAs (Decidable (_ → _))

theorem PassRecord.CalmBelow.sample_le {r : PassRecord σ ρ} (h : r.CalmBelow lc e c topN s M) {l : LearnPass}
    {m : Metrics} (hm : (m, true) ∈ (r.samples lc e c topN l).2) : m.tuningSample s ≤ M := by
  obtain ⟨hclean, hmem, hscore, hrate⟩ := recorded_calm hm
  obtain ⟨⟨m', cand⟩, hzip, rfl⟩ := List.mem_map.mp hmem
  exact h hclean m' (List.of_mem_zip hzip).1 hscore hrate

theorem recordSamples_bounded {a : Autotune.Tuner} (ha : a.Bounded s M hi) (l : LearnPass)
    {samples : List (Metrics × Bool)} (h : ∀ m, (m, true) ∈ samples → m.tuningSample s ≤ M) :
    (TuningWorld.recordSamples l samples a).Bounded s M hi := by
  unfold TuningWorld.recordSamples
  refine List.foldlRecOn _ _ ha fun a ha r hr => ha.record (fun haccepted => h r.1.1 ?_) _
  rw [← haccepted]
  exact List.fst_mem_of_mem_zipIdx hr

namespace TuningWorld

theorem passes_step {ev : TuningEvent} {strikes : StrikeWorld σ ρ}
    (h : w.strikes.step e c topN ev.strike = some strikes) :
    strikes.passes = w.strikes.passes ++ ((w.madeBy ev).map Prod.snd).toList := by
  cases ev with
  | signal sig =>
    obtain rfl := Option.some.inj h
    exact (List.append_nil _).symm
  | observe p =>
    unfold TuningEvent.strike StrikeWorld.step at h
    dsimp only at h
    split_ifs at h
    all_goals
      obtain rfl := Option.some.inj h
      exact (List.append_nil _).symm
  | take =>
    obtain ⟨d, -, hr⟩ := Option.bind_eq_some_iff.mp h
    obtain ⟨r, -, rfl⟩ := Option.map_eq_some_iff.mp hr
    exact (List.append_nil _).symm
  | drained l =>
    obtain ⟨d, hd, hdrained⟩ := Option.bind_eq_some_iff.mp h
    split_ifs at hdrained
    obtain rfl := Option.some.inj hdrained
    rw [madeBy, hd]
    rfl

theorem madeBy_limited {ev : TuningEvent} (hev : ev.Limited K w) {made : LearnPass × PassRecord σ ρ}
    (h : w.madeBy ev = some made) : made.1.policy.k ≤ K := by
  cases ev with
  | drained l =>
    obtain ⟨d, -, rfl⟩ := Option.map_eq_some_iff.mp h
    exact hev
  | _ => cases h

/-- However the passes so far are bounded, so are the samples and the threshold. -/
def Learned (lc : LearnConfig) (e : BrokeredActionExecutor σ ρ) (c : LoopConfig) (topN : Nat)
    (s : Autotune.Signal) (K low : ℚ) (w : TuningWorld σ ρ) : Prop :=
  ∀ M hi, 0 ≤ M → low ≤ hi → (1 + K) * M ≤ hi → (∀ r ∈ w.strikes.passes, r.CalmBelow lc e c topN s M) →
    w.tuner.Bounded s M hi

theorem Learned.step {low : ℚ} (hw : w.Learned lc e c topN s K low) (hK : 0 ≤ K) {ev : TuningEvent}
    (h : Guarded (fun w ev => TuningEvent.Limited K w ev) (Step lc e c topN) w ev w') :
    w'.Learned lc e c topN s K low := by
  intro M hi hM hlow hhi hpasses
  obtain ⟨hev, hstep⟩ := h
  obtain ⟨strikes, hstrikes, rfl⟩ := Option.map_eq_some_iff.mp hstep
  have happend := passes_step hstrikes
  cases hmade : w.madeBy ev with
  | none =>
    simp only [hmade, Option.elim_none] at hpasses ⊢
    rw [hmade, Option.map_none, Option.toList_none, List.append_nil] at happend
    rw [happend] at hpasses
    exact hw M hi hM hlow hhi hpasses
  | some made =>
    simp only [hmade, Option.elim_some] at hpasses ⊢
    rw [hmade, Option.map_some, Option.toList_some] at happend
    have hpasses : ∀ r ∈ strikes.passes, r.CalmBelow lc e c topN s M := hpasses
    rw [happend] at hpasses
    have hbefore := hw M hi hM hlow hhi fun r hr => hpasses r (List.mem_append_left _ hr)
    have hpass := hpasses made.2 (List.mem_append_right _ (List.mem_singleton_self _))
    have hrecorded : (recordSamples made.1 (made.2.samples lc e c topN made.1).2 w.tuner).Bounded s M hi :=
      recordSamples_bounded hbefore made.1 fun m hm => hpass.sample_le hm
    unfold learn
    dsimp only
    split_ifs
    · exact hrecorded.tick hM (madeBy_limited hev hmade) hK hhi _ _
    · exact hrecorded.tick hM (madeBy_limited hev hmade) hK hhi _ _
    · exact hrecorded

/-- In every run of the loop no threshold of the autotuner exceeds what it started with, its floor, and what
the calm sources of the clean passes show, times one more than the factor of the deviation: however much is
sent in other passes or by other sources. -/
theorem tuned_from_clean {w₀ : NodeWorld σ ρ} {initial : Autotune.Thresholds} {cfg : Autotune.Config}
    {reservoirCap : Int} {es : List TuningEvent} (hK : 0 ≤ K) (hM : 0 ≤ M)
    (h : Run (Guarded (fun w ev => TuningEvent.Limited K w ev) (Step lc e c topN))
      (start w₀ initial cfg reservoirCap) es w)
    (hcalm : ∀ r ∈ w.strikes.passes, r.CalmBelow lc e c topN s M) :
    w.tuner.thresholds.get s ≤ max (max (initial.get s) (cfg.floor s)) ((1 + K) * M) := by
  have hstart : (start w₀ initial cfg reservoirCap : TuningWorld σ ρ).Learned lc e c topN s K
      (max (initial.get s) (cfg.floor s)) := by
    intro M hi hM hlow hhi _
    refine ⟨fun x hx => ?_, (le_max_left _ _).trans hlow, (le_max_right _ _).trans hlow⟩
    cases s <;> cases hx
  have hlearned : w.Learned lc e c topN s K (max (initial.get s) (cfg.floor s)) :=
    h.invariant hstart fun hw hstep => hw.step hK hstep
  exact (hlearned M _ hM (le_max_left _ _) (le_max_right _ _) hcalm).threshold

open LoopState

/-- A calm source, and then a flood beside it. -/
def observedPass (minute : Nat) (observed : List SourceObservation) : Pass :=
  { quietPass with now := quietPass.now + minute * (60 * Duration.second)
                   observed }

def calmObservation : SourceObservation :=
  { sourceID := "10.0.0.7", metrics := (∅ : GoMap ℚ).insert "network.packets_per_second" 500 }

def floodObservation : SourceObservation :=
  { sourceID := "10.0.0.8", score := 3, metrics := (∅ : GoMap ℚ).insert "network.packets_per_second" 90000 }

def learnConfig : LoopConfig :=
  { graphConfig with fsm := { graphConfig.fsm with softAt := 3, hardAt := 6 } }

def learnPass : LearnPass := { policy := { every := 60 * Duration.second, k := 4, maxUp := 1 / 5, alpha := 1 / 2 } }

def learningPasses : List TuningEvent :=
  [.observe (observedPass 1 [calmObservation]), .drained learnPass,
    .observe (observedPass 2 [calmObservation, floodObservation]), .drained learnPass]

def learnedWorld : Option (TuningWorld (GoMap Enforcement) Unit) :=
  learningPasses.foldlM
    (fun w ev => if ev.Limited 4 w then step {} blockingNode.toBrokeredActionExecutor learnConfig 10 w ev else none)
    (start blockingStart.world { trigPPS := 1000 } { minSamples := 1 } 100)

theorem learnedWorld_facts : learnedWorld.any fun w =>
    w.tuner.resPPS.data = [500] ∧ w.cleanLearnTicks = 1 ∧ w.strikes.passes.all fun r =>
      r.CalmBelow {} blockingNode.toBrokeredActionExecutor learnConfig 10 .pps 500 := by decide +kernel

/-- The flood is not learned, nor is the pass it is in. -/
theorem flood_unlearned : ∃ w, learnedWorld = some w ∧ w.tuner.resPPS.data = [500] ∧ w.cleanLearnTicks = 1 ∧
    w.tuner.thresholds.get .pps ≤ max (max 1000 0) ((1 + 4) * 500) := by
  have hfacts := learnedWorld_facts
  rcases hw : learnedWorld with _ | w
  · simp [hw] at hfacts
  have hrun : Run (Guarded (fun w ev => TuningEvent.Limited 4 w ev)
      (Step {} blockingNode.toBrokeredActionExecutor learnConfig 10))
      (start blockingStart.world { trigPPS := 1000 } { minSamples := 1 } 100) learningPasses w := guarded_of_foldlM hw
  rw [hw, Option.any_some] at hfacts
  obtain ⟨hdata, hclean, hcalm⟩ := of_decide_eq_true hfacts
  have hbound := tuned_from_clean (s := .pps) (M := 500) (by norm_num) (by norm_num) hrun fun r hr =>
    of_decide_eq_true (List.all_eq_true.mp hcalm r hr)
  exact ⟨w, rfl, hdata, hclean, hbound⟩

end TuningWorld

end Runs

end Kernloom
