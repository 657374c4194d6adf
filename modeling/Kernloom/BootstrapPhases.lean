import Kernloom.Lifecycle
import Kernloom.Transition

/-! The two accounts of the bootstrap. The main loop counts the observed seconds and reads its phase with
`bootstrapEffective`; the lifecycle controller counts them again and reads its own with `Effective`. -/

namespace Kernloom

namespace Bootstrap

open Transition

inductive Phase where
  | bootstrap1 | bootstrap2 | bootstrap3 | steady
  deriving DecidableEq

def Phase.rank : Phase → Nat
  | .bootstrap1 => 0
  | .bootstrap2 => 1
  | .bootstrap3 => 2
  | .steady => 3

/-- What the flags and the controller's configuration give for one phase. -/
structure Stage where
  every : Duration
  maxUp : ℚ
  maxDown : ℚ
  alpha : ℚ

structure Schedule where
  p1End : Duration
  p2End : Duration
  stage : Phase → Stage
  kStart : ℚ
  kFinal : ℚ
  steadyK : ℚ

/-- The schedule of `DefaultConfig`. -/
def defaultSchedule : Schedule where
  p1End := 48 * Graph.hour
  p2End := 120 * Graph.hour
  stage
    | .bootstrap1 => { every := Graph.hour, maxUp := 1 / 10, maxDown := 1 / 50, alpha := 1 / 10 }
    | .bootstrap2 => { every := 6 * Graph.hour, maxUp := 7 / 100, maxDown := 3 / 100, alpha := 3 / 20 }
    | .bootstrap3 => { every := 24 * Graph.hour, maxUp := 1 / 20, maxDown := 1 / 20, alpha := 1 / 5 }
    | .steady => { every := 84 * Graph.hour, maxUp := 1 / 20, maxDown := 1 / 20, alpha := 1 / 5 }
  kStart := 3
  kFinal := 3
  steadyK := 3

structure Policy where
  active : Bool
  phase : Phase
  every : Duration
  k : ℚ
  maxUp : ℚ
  maxDown : ℚ
  alpha : ℚ

/-- The loop's own account, as it is saved. -/
structure Info where
  enabled : Bool := false
  startedAt : Time := 0
  observedSeconds : Nat := 0
  deriving DecidableEq

/-- `time.Duration(seconds) * time.Second`, which wraps. -/
def secondsAge (seconds : Nat) : Duration := ((seconds : Int) * Duration.second).bmod (2 ^ 64)

section Effective

variable (sched : Schedule) (window : Duration)

def Schedule.policy (phase : Phase) (k : ℚ) : Policy where
  active := phase ≠ .steady
  phase := phase
  every := (sched.stage phase).every
  k := if phase = .steady then sched.steadyK else k
  maxUp := (sched.stage phase).maxUp
  maxDown := (sched.stage phase).maxDown
  alpha := (sched.stage phase).alpha

def progress (age : Duration) : ℚ := min 1 (max 0 ((age : ℚ) / (window : ℚ)))

def Schedule.kAt (age : Duration) : ℚ := sched.kStart + (sched.kFinal - sched.kStart) * progress window age

/-- The order in which `bootstrapEffective` compares the age. -/
def Schedule.ownPhase (age : Duration) : Phase :=
  if age < sched.p1End then .bootstrap1
  else if age < sched.p2End then .bootstrap2
  else if age < window then .bootstrap3
  else .steady

/-- The order of the controller: the window takes precedence over the phase ends. -/
def Schedule.lifecyclePhase (age : Duration) : Phase :=
  if window ≤ age then .steady
  else if age < sched.p1End then .bootstrap1
  else if age < sched.p2End then .bootstrap2
  else .bootstrap3

def bootstrapEffective (now : Time) (info : Info) : Policy :=
  if info.enabled = false ∨ info.startedAt = 0 ∨ window ≤ 0 then sched.policy .steady sched.steadyK
  else
    -- the clock stands in for a count that is zero
    let age := max 0
      (if 0 < info.observedSeconds then secondsAge info.observedSeconds else now - info.startedAt)
    sched.policy (sched.ownPhase window age) (sched.kAt window age)

def Controller.effective (ctl : Controller) : Policy :=
  if ctl.state.enabled = false ∨ ctl.state.startedAt = 0 ∨ ctl.cfg.window ≤ 0 then
    sched.policy .steady sched.steadyK
  else
    let age := secondsAge ctl.state.observedSeconds
    sched.policy (sched.lifecyclePhase ctl.cfg.window age) (sched.kAt ctl.cfg.window age)

end Effective

def Controller.recordTick (ctl : Controller) (cleanTick : Bool) (intervalSec : Nat) (sources : List String) :
    Controller :=
  let ctl := { ctl with totalTicks := ctl.totalTicks + 1 }
  if cleanTick then
    { ctl with
      cleanTicks := ctl.cleanTicks + 1
      state := { ctl.state with
        observedSeconds :=
          if ctl.state.enabled then (ctl.state.observedSeconds + intervalSec) % 2 ^ 64
          else ctl.state.observedSeconds
        distinctSources :=
          sources.foldl (fun known source => known.insert source) ctl.state.distinctSources } }
  else ctl

/-- The flags of the main loop that the bootstrap reads. -/
structure Setup where
  bootstrap : Bool
  /-- Whether there is a path for the state. -/
  statePath : Bool
  interval : Duration
  window : Duration
  sched : Schedule

/-- The seconds that a clean tick counts. -/
def Setup.tickSeconds (c : Setup) : Nat :=
  let sec := ((c.interval + Duration.second / 2) / Duration.second).toNat
  if sec = 0 then 1 else sec

/-- A reading of the clock, which is never the zero time. -/
abbrev Clock : Type := { time : Time // time ≠ 0 }

/-- The policies of a tick, with the count of the loop. -/
structure Reading where
  observedSeconds : Nat
  own : Policy
  lifecycle : Policy

structure Loop where
  bs : Info
  ctl : Controller
  file : Option Info
  tickN : Nat := 0
  /-- What the ticks read, over the restarts, newest first. -/
  seen : List Reading := []

structure Tick where
  now : Clock
  clean : Bool
  /-- The tuner has a result, which is saved with the bootstrap. -/
  tuned : Bool := false
  /-- The state that is due to be saved is written. -/
  written : Bool := true

inductive Event where
  | tick (t : Tick)
  | restart (now ctlNow : Clock)

/-- The accounting of a tick in the loop's own copy. -/
def Info.record (c : Setup) (bs : Info) (clean : Bool) : Info :=
  if clean && c.bootstrap && bs.enabled then
    { bs with observedSeconds := (bs.observedSeconds + c.tickSeconds) % 2 ^ 64 }
  else bs

namespace Loop

variable (c : Setup)

/-- The loop's own copy at the start of a process, from the saved one. -/
def resume (saved : Info) (now : Clock) : Info :=
  if c.bootstrap then
    { saved with
      enabled := true
      startedAt := if saved.startedAt = 0 then now.val else saved.startedAt }
  else {}

/-- What the controller restores of a file. -/
def restored : Option Info → Option State
  | some info =>
    if info.enabled then
      some { enabled := info.enabled, startedAt := info.startedAt, observedSeconds := info.observedSeconds }
    else none
  | none => none

def loaded (file : Option Info) : Option Info := if c.statePath then file else none

/-- A bootstrap that begins is saved, before the controller reads the file. -/
def opened (file : Option Info) (now : Clock) : Option Info :=
  if c.bootstrap ∧ ((loaded c file).getD {}).startedAt = 0 ∧ c.statePath then
    some (resume c ((loaded c file).getD {}) now)
  else loaded c file

/-- The start of a process. Both accounts are given one configuration; the process itself gives its controller
the default one until a bundle brings another. -/
def start (file : Option Info) (now ctlNow : Clock) (seen : List Reading := []) : Loop where
  bs := resume c ((loaded c file).getD {}) now
  ctl :=
    Controller.new { enabled := c.bootstrap, window := c.window } (restored (opened c file now)) ctlNow.val
  file := opened c file now
  seen := seen

def tick (s : Loop) (t : Tick) : Loop :=
  let bs := s.bs.record c t.clean
  let ctl := if t.clean then s.ctl.recordTick t.clean c.tickSeconds [] else s.ctl
  let tickN := s.tickN + 1
  let due := c.statePath && (c.bootstrap && bs.enabled && tickN % 30 == 0 || t.tuned)
  { bs := bs
    ctl := ctl
    file := if due && t.written then some bs else s.file
    tickN := tickN
    seen :=
      { observedSeconds := bs.observedSeconds
        own := bootstrapEffective c.sched c.window t.now.val bs
        lifecycle := ctl.effective c.sched } :: s.seen }

def step (s : Loop) : Event → Loop
  | .tick t => s.tick c t
  | .restart now ctlNow => start c s.file now ctlNow s.seen

def run (file : Option Info) (now ctlNow : Clock) (es : List Event) : Loop :=
  es.foldl (step c) (start c file now ctlNow)

end Loop

/-- The two accounts are one over a run: every tick reads one policy, and the phase never moves backwards. -/
structure AsOne (seen : List Reading) : Prop where
  same : ∀ r ∈ seen, r.own = r.lifecycle
  forward : (seen.map fun r => r.own.phase.rank).Pairwise (· ≥ ·)

section Conditions

variable (sched : Schedule) (window : Duration)

/-- The end of the phase that a bootstrap begins in. -/
def Schedule.firstEnd : Duration :=
  if 0 < sched.p1End then sched.p1End else if 0 < sched.p2End then sched.p2End else window

/-- What a count and the time on the clock are to be for both accounts to read one policy. -/
def Schedule.Alike (elapsed : Duration) (seconds : Nat) : Prop :=
  if seconds = 0 then elapsed ≤ 0 ∨ sched.kStart = sched.kFinal ∧ elapsed < sched.firstEnd window
  else if 0 ≤ secondsAge seconds then
    secondsAge seconds < window ∨ sched.p1End ≤ secondsAge seconds ∧ sched.p2End ≤ secondsAge seconds
  else
    -- a count that wraps is before the start for the controller, and at the start for the loop
    sched.p1End ≤ 0 → sched.p1End ≤ secondsAge seconds ∧ (sched.p2End ≤ 0 → sched.p2End ≤ secondsAge seconds)

/-- Whatever end an age is past, with all the ends before it, another age is past as well. -/
def Schedule.NotBefore (age age' : Duration) : Prop :=
  (sched.p1End ≤ age → sched.p1End ≤ age') ∧
  (sched.p1End ≤ age → sched.p2End ≤ age → sched.p2End ≤ age') ∧
  (sched.p1End ≤ age → sched.p2End ≤ age → window ≤ age → window ≤ age')

end Conditions

/-- The saved account is one that both copies restore, or neither does. -/
def Restorable (c : Setup) (info : Info) : Prop :=
  if c.bootstrap then info.enabled = true ∨ info.startedAt = 0 ∨ info.observedSeconds = 0
  else info.enabled = false

/-- The condition on the tick of a bootstrap: on the counts, and against the count of the tick before. -/
def Steady (c : Setup) (s : Loop) : Event → Prop
  | .tick t =>
    c.bootstrap = true → 0 < c.window →
      let count := (s.bs.record c t.clean).observedSeconds
      c.sched.Alike c.window (t.now.val - s.bs.startedAt) count ∧
        ∀ last ∈ s.seen.head?,
          c.sched.NotBefore c.window (max 0 (secondsAge last.observedSeconds)) (max 0 (secondsAge count))
  | .restart _ _ => True

instance (sched : Schedule) (window elapsed : Duration) (seconds : Nat) :
    Decidable (sched.Alike window elapsed seconds) :=
  inferInstanceAs (Decidable (ite _ _ _))

instance (sched : Schedule) (window age age' : Duration) : Decidable (sched.NotBefore window age age') :=
  inferInstanceAs (Decidable (_ ∧ _ ∧ _))

instance (c : Setup) (s : Loop) : (e : Event) → Decidable (Steady c s e)
  | .tick _ => inferInstanceAs (Decidable (_ → _ → _ ∧ _))
  | .restart _ _ => isTrue trivial

section Policies

variable {sched : Schedule} {window age age' : Duration}

theorem policy_eq_iff {p q : Phase} {k l : ℚ} :
    sched.policy p k = sched.policy q l ↔ p = q ∧ (p ≠ .steady → k = l) := by
  constructor
  · intro h
    obtain rfl : p = q := congrArg Policy.phase h
    refine ⟨rfl, fun hp => ?_⟩
    have hk := congrArg Policy.k h
    simpa only [Schedule.policy, if_neg hp] using hk
  · rintro ⟨rfl, hk⟩
    by_cases hp : p = .steady
    · simp only [Schedule.policy, if_pos hp]
    · rw [hk hp]

theorem ownPhase_ne_steady : sched.ownPhase window age ≠ .steady ↔
    age < sched.p1End ∨ age < sched.p2End ∨ age < window := by
  unfold Schedule.ownPhase
  grind

theorem ownPhase_eq_lifecyclePhase : sched.ownPhase window age = sched.lifecyclePhase window age ↔
    age < window ∨ sched.p1End ≤ age ∧ sched.p2End ≤ age := by
  unfold Schedule.ownPhase Schedule.lifecyclePhase
  grind

theorem rank_ownPhase_le : (sched.ownPhase window age).rank ≤ (sched.ownPhase window age').rank ↔
    sched.NotBefore window age age' := by
  unfold Schedule.ownPhase Schedule.NotBefore
  grind [Phase.rank]

theorem progress_of_nonpos (hwindow : 0 < window) (hage : age ≤ 0) : progress window age = 0 := by
  have hdiv : (age : ℚ) / (window : ℚ) ≤ 0 :=
    div_nonpos_of_nonpos_of_nonneg (by exact_mod_cast hage) (by exact_mod_cast hwindow.le)
  rw [progress, max_eq_left hdiv, min_eq_right zero_le_one]

theorem progress_pos (hwindow : 0 < window) (hage : 0 < age) : 0 < progress window age := by
  have hdiv : 0 < (age : ℚ) / (window : ℚ) :=
    div_pos (by exact_mod_cast hage) (by exact_mod_cast hwindow)
  exact lt_min zero_lt_one (lt_max_of_lt_right hdiv)

theorem kAt_of_nonpos (hwindow : 0 < window) (hage : age ≤ 0) : sched.kAt window age = sched.kStart := by
  rw [Schedule.kAt, progress_of_nonpos hwindow hage, mul_zero, add_zero]

theorem kAt_eq_kStart (hwindow : 0 < window) (hage : 0 < age) :
    sched.kAt window age = sched.kStart ↔ sched.kStart = sched.kFinal := by
  have hprogress := (progress_pos hwindow hage).ne'
  rw [Schedule.kAt, add_eq_left, mul_eq_zero, or_iff_left hprogress, sub_eq_zero, eq_comm]

theorem unobserved_eq_iff (hwindow : 0 < window) :
    sched.policy (sched.ownPhase window (max 0 age)) (sched.kAt window (max 0 age)) =
        sched.policy (sched.lifecyclePhase window 0) (sched.kAt window 0) ↔
      age ≤ 0 ∨ sched.kStart = sched.kFinal ∧ age < sched.firstEnd window := by
  rw [policy_eq_iff, kAt_of_nonpos hwindow le_rfl]
  rcases le_or_gt age 0 with hage | hage
  · rw [max_eq_left hage, kAt_of_nonpos hwindow le_rfl]
    exact iff_of_true ⟨ownPhase_eq_lifecyclePhase.mpr (.inl hwindow), fun _ => rfl⟩ (.inl hage)
  · rw [max_eq_right hage.le, kAt_eq_kStart hwindow hage, or_iff_right hage.not_ge]
    have hphase :
        sched.ownPhase window age = sched.lifecyclePhase window 0 ↔ age < sched.firstEnd window := by
      unfold Schedule.ownPhase Schedule.lifecyclePhase Schedule.firstEnd
      grind
    rw [hphase, and_comm]
    refine and_congr_left fun hfirst => ⟨fun h => h ?_, fun h _ => h⟩
    rw [ownPhase_ne_steady]
    unfold Schedule.firstEnd at hfirst
    grind

theorem wrapped_eq_iff (hwindow : 0 < window) (hage : age < 0) :
    sched.policy (sched.ownPhase window 0) (sched.kAt window 0) =
        sched.policy (sched.lifecyclePhase window age) (sched.kAt window age) ↔
      (sched.p1End ≤ 0 → sched.p1End ≤ age ∧ (sched.p2End ≤ 0 → sched.p2End ≤ age)) := by
  rw [policy_eq_iff, kAt_of_nonpos hwindow le_rfl, kAt_of_nonpos hwindow hage.le]
  unfold Schedule.ownPhase Schedule.lifecyclePhase
  grind

end Policies

section Effective

variable {c : Setup} {now : Time} {bs : Info} {ctl : Controller}

/-- Both copies of an account that runs, with one count. -/
structure Paired (c : Setup) (bs : Info) (ctl : Controller) : Prop where
  enabled : bs.enabled = c.bootstrap
  ctlEnabled : ctl.state.enabled = c.bootstrap
  window : ctl.cfg.window = c.window
  startedAt : c.bootstrap = true → bs.startedAt ≠ 0
  ctlStartedAt : c.bootstrap = true → ctl.state.startedAt ≠ 0
  observedSeconds : c.bootstrap = true → ctl.state.observedSeconds = bs.observedSeconds

theorem secondsAge_zero : secondsAge 0 = 0 := by decide

theorem Paired.idle (h : Paired c bs ctl) (hidle : ¬ (c.bootstrap = true ∧ 0 < c.window)) :
    bootstrapEffective c.sched c.window now bs = c.sched.policy .steady c.sched.steadyK ∧
      ctl.effective c.sched = c.sched.policy .steady c.sched.steadyK := by
  constructor
  · refine if_pos ?_
    rw [h.enabled]
    rcases not_and_or.mp hidle with hoff | hwindow
    · exact .inl (Bool.not_eq_true _ ▸ hoff)
    · exact .inr (.inr (not_lt.mp hwindow))
  · refine if_pos ?_
    rw [h.ctlEnabled, h.window]
    rcases not_and_or.mp hidle with hoff | hwindow
    · exact .inl (Bool.not_eq_true _ ▸ hoff)
    · exact .inr (.inr (not_lt.mp hwindow))

def Info.age (now : Time) (bs : Info) : Duration :=
  max 0 (if 0 < bs.observedSeconds then secondsAge bs.observedSeconds else now - bs.startedAt)

theorem Paired.own (h : Paired c bs ctl) (hon : c.bootstrap = true) (hwindow : 0 < c.window) :
    bootstrapEffective c.sched c.window now bs =
      c.sched.policy (c.sched.ownPhase c.window (bs.age now)) (c.sched.kAt c.window (bs.age now)) := by
  refine if_neg ?_
  rw [h.enabled, hon]
  simp [h.startedAt hon, not_le.mpr hwindow]

theorem Paired.lifecycle (h : Paired c bs ctl) (hon : c.bootstrap = true) (hwindow : 0 < c.window) :
    ctl.effective c.sched =
      c.sched.policy (c.sched.lifecyclePhase c.window (secondsAge bs.observedSeconds))
        (c.sched.kAt c.window (secondsAge bs.observedSeconds)) := by
  rw [← h.observedSeconds hon, ← h.window]
  refine if_neg ?_
  rw [h.ctlEnabled, h.window, hon]
  simp [h.ctlStartedAt hon, not_le.mpr hwindow]

theorem Paired.effective_eq_iff (h : Paired c bs ctl) (hon : c.bootstrap = true) (hwindow : 0 < c.window) :
    bootstrapEffective c.sched c.window now bs = ctl.effective c.sched ↔
      c.sched.Alike c.window (now - bs.startedAt) bs.observedSeconds := by
  rw [h.own hon hwindow, h.lifecycle hon hwindow]
  unfold Schedule.Alike Info.age
  split_ifs with hpos hzero hage hzero hage
  · omega
  · rw [max_eq_right hage, policy_eq_iff, ownPhase_eq_lifecyclePhase]
    exact and_iff_left fun _ => rfl
  · rw [max_eq_left (not_le.mp hage).le]
    exact wrapped_eq_iff hwindow (not_le.mp hage)
  · rw [hzero, secondsAge_zero]
    exact unobserved_eq_iff hwindow
  all_goals omega

theorem Paired.rank_own (h : Paired c bs ctl) (hon : c.bootstrap = true) (hwindow : 0 < c.window)
    (hsame : bootstrapEffective c.sched c.window now bs = ctl.effective c.sched) :
    (bootstrapEffective c.sched c.window now bs).phase =
      c.sched.ownPhase c.window (max 0 (secondsAge bs.observedSeconds)) := by
  by_cases hpos : 0 < bs.observedSeconds
  · rw [h.own hon hwindow, Info.age, if_pos hpos]
    rfl
  · have hzero : bs.observedSeconds = 0 := Nat.eq_zero_of_not_pos hpos
    rw [hsame, h.lifecycle hon hwindow, hzero, secondsAge_zero, max_self]
    exact (ownPhase_eq_lifecyclePhase.mpr (.inl hwindow)).symm

end Effective

theorem asOne_cons {r : Reading} {seen : List Reading} :
    AsOne (r :: seen) ↔ AsOne seen ∧ r.own = r.lifecycle ∧
      ∀ last ∈ seen.head?, last.own.phase.rank ≤ r.own.phase.rank := by
  constructor
  · intro h
    have hforward := List.pairwise_cons.mp h.forward
    refine ⟨⟨fun x hx => h.same x (List.mem_cons_of_mem r hx), hforward.2⟩, h.same r List.mem_cons_self, ?_⟩
    intro last hlast
    exact hforward.1 _ (List.mem_map_of_mem (List.mem_of_mem_head? hlast))
  · rintro ⟨hseen, hsame, hlast⟩
    refine ⟨List.forall_mem_cons.mpr ⟨hsame, hseen.same⟩, List.pairwise_cons.mpr ⟨?_, hseen.forward⟩⟩
    cases seen with
    | nil => exact fun _ hx => absurd hx List.not_mem_nil
    | cons last rest =>
      have hle := hlast last rfl
      have hrest := (List.pairwise_cons.mp hseen.forward).1
      exact List.forall_mem_cons.mpr ⟨hle, fun x hx => (hrest x hx).trans hle⟩

theorem rank_le_steady (p : Phase) : p.rank ≤ Phase.steady.rank := by
  cases p <;> decide

namespace Loop

variable {c : Setup} {s : Loop}

/-- Between the ticks: two copies of one account, and a file that gives both again. -/
structure Inv (c : Setup) (s : Loop) : Prop where
  paired : Paired c s.bs s.ctl
  file : ∀ info ∈ s.file, Restorable c info
  seen : c.bootstrap = true → 0 < c.window → ∀ r ∈ s.seen, r.own = r.lifecycle →
    r.own.phase = c.sched.ownPhase c.window (max 0 (secondsAge r.observedSeconds))

theorem restorable_bs (h : Paired c s.bs s.ctl) : Restorable c s.bs := by
  unfold Restorable
  split_ifs with hon
  · exact .inl (h.enabled.trans hon)
  · exact h.enabled.trans (Bool.not_eq_true _ ▸ hon)

section Start

variable {bs : Info} {file : Option Info}

theorem paired_fresh (hon : c.bootstrap = true) (henabled : bs.enabled = true) (hstarted : bs.startedAt ≠ 0)
    (hzero : bs.observedSeconds = 0) (now : Clock) :
    Paired c bs (Controller.new { enabled := c.bootstrap, window := c.window } none now.val) where
  enabled := henabled.trans hon.symm
  ctlEnabled := rfl
  window := rfl
  startedAt _ := hstarted
  ctlStartedAt _ := by simpa [Controller.new, hon] using now.property
  observedSeconds _ := hzero.symm

theorem paired_restored (hon : c.bootstrap = true) (henabled : bs.enabled = true)
    (hstarted : bs.startedAt ≠ 0) (now : Clock) :
    Paired c bs
      (Controller.new { enabled := c.bootstrap, window := c.window } (restored (some bs)) now.val) := by
  rw [restored, if_pos henabled]
  exact {
    enabled := henabled.trans hon.symm
    ctlEnabled := henabled.trans hon.symm
    window := rfl
    startedAt := fun _ => hstarted
    ctlStartedAt := fun _ => by simp [Controller.new, hstarted]
    observedSeconds := fun _ => rfl }

theorem resume_startedAt_ne (hon : c.bootstrap = true) (saved : Info) (now : Clock) :
    (resume c saved now).startedAt ≠ 0 := by
  rw [resume, if_pos hon]
  by_cases hzero : saved.startedAt = 0
  · simpa only [if_pos hzero] using now.property
  · simpa only [if_neg hzero] using hzero

theorem resume_enabled (hon : c.bootstrap = true) (saved : Info) (now : Clock) :
    (resume c saved now).enabled = true := by
  rw [resume, if_pos hon]

theorem resume_observedSeconds (hon : c.bootstrap = true) (saved : Info) (now : Clock) :
    (resume c saved now).observedSeconds = saved.observedSeconds := by
  rw [resume, if_pos hon]

theorem resume_of_enabled (hon : c.bootstrap = true) {saved : Info} (henabled : saved.enabled = true)
    (hstarted : saved.startedAt ≠ 0) (now : Clock) : resume c saved now = saved := by
  rw [resume, if_pos hon, if_neg hstarted, ← henabled]

theorem restored_of_disabled (hfile : ∀ info ∈ file, info.enabled = false) : restored file = none := by
  cases file with
  | none => rfl
  | some info => exact if_neg (ne_true_of_eq_false (hfile info rfl))

theorem mem_loaded {info : Info} (h : info ∈ loaded c file) : info ∈ file := by
  unfold loaded at h
  split_ifs at h
  · exact h
  · cases h

theorem paired_start (hfile : ∀ info ∈ file, Restorable c info) (now ctlNow : Clock) (seen : List Reading) :
    Paired c (start c file now ctlNow seen).bs (start c file now ctlNow seen).ctl := by
  cases hon : c.bootstrap with
  | false =>
    have hdisabled : ∀ info ∈ loaded c file, info.enabled = false := by
      intro info hinfo
      simpa [Restorable, hon] using hfile info (mem_loaded hinfo)
    have hopened : opened c file now = loaded c file := if_neg fun h => by simp [hon] at h
    simp only [start, hopened, restored_of_disabled hdisabled, resume, hon]
    have hoff : ¬ c.bootstrap = true := ne_true_of_eq_false hon
    exact ⟨hon.symm, hon.symm, rfl, (absurd · hoff), (absurd · hoff), (absurd · hoff)⟩
  | true =>
    by_cases hnew : c.bootstrap ∧ ((loaded c file).getD {}).startedAt = 0 ∧ c.statePath
    · simp only [start, opened, if_pos hnew]
      exact paired_restored hon (resume_enabled hon _ now) (resume_startedAt_ne hon _ now) ctlNow
    · simp only [start, opened, if_neg hnew]
      cases hloaded : loaded c file with
      | none =>
        exact paired_fresh hon (resume_enabled hon {} now) (resume_startedAt_ne hon {} now)
          (resume_observedSeconds hon {} now) ctlNow
      | some info =>
        have hpath : c.statePath = true := by
          by_contra hpath
          rw [loaded, if_neg hpath] at hloaded
          cases hloaded
        have hbegun : info.startedAt ≠ 0 := fun hzero => hnew ⟨hon, by rw [hloaded]; exact hzero, hpath⟩
        have hinfo := hfile info (mem_loaded hloaded)
        rw [Restorable, if_pos hon, or_iff_right (a := info.startedAt = 0) hbegun] at hinfo
        rw [Option.getD_some]
        cases henabled : info.enabled with
        | true =>
          rw [resume_of_enabled hon henabled hbegun]
          exact paired_restored hon henabled hbegun ctlNow
        | false =>
          have hzero := hinfo.resolve_left (ne_true_of_eq_false henabled)
          rw [restored, if_neg (ne_true_of_eq_false henabled)]
          exact paired_fresh hon (resume_enabled hon info now) (resume_startedAt_ne hon info now)
            ((resume_observedSeconds hon info now).trans hzero) ctlNow

theorem Inv.start (hfile : ∀ info ∈ file, Restorable c info) (now ctlNow : Clock) {seen : List Reading}
    (hseen : c.bootstrap = true → 0 < c.window → ∀ r ∈ seen, r.own = r.lifecycle →
      r.own.phase = c.sched.ownPhase c.window (max 0 (secondsAge r.observedSeconds))) :
    Inv c (start c file now ctlNow seen) where
  paired := paired_start hfile now ctlNow seen
  file := by
    have hbs := restorable_bs (paired_start hfile now ctlNow seen)
    intro info hinfo
    simp only [Loop.start, opened] at hinfo
    split_ifs at hinfo
    · exact Option.mem_some_iff.mp hinfo ▸ hbs
    · exact hfile info (mem_loaded hinfo)
  seen := hseen

end Start

section Record

variable {bs : Info} {ctl : Controller} {clean : Bool} {sec : Nat} {sources : List String}

@[simp] theorem record_enabled : (bs.record c clean).enabled = bs.enabled := by
  unfold Info.record
  split_ifs <;> rfl

@[simp] theorem record_startedAt : (bs.record c clean).startedAt = bs.startedAt := by
  unfold Info.record
  split_ifs <;> rfl

@[simp] theorem recordTick_cfg : (ctl.recordTick clean sec sources).cfg = ctl.cfg := by
  cases clean <;> rfl

@[simp] theorem recordTick_enabled :
    (ctl.recordTick clean sec sources).state.enabled = ctl.state.enabled := by
  cases clean <;> rfl

@[simp] theorem recordTick_startedAt :
    (ctl.recordTick clean sec sources).state.startedAt = ctl.state.startedAt := by
  cases clean <;> rfl

theorem paired_record (h : Paired c bs ctl) (clean : Bool) :
    Paired c (bs.record c clean) (if clean then ctl.recordTick clean c.tickSeconds [] else ctl) := by
  cases clean with
  | false => exact h
  | true =>
    rw [if_pos rfl]
    refine ⟨?_, ?_, ?_, ?_, ?_, fun hon => ?_⟩
    · exact record_enabled.trans h.enabled
    · exact recordTick_enabled.trans h.ctlEnabled
    · exact (congrArg (·.window) recordTick_cfg).trans h.window
    · exact fun hon => record_startedAt.trans_ne (h.startedAt hon)
    · exact fun hon => recordTick_startedAt.trans_ne (h.ctlStartedAt hon)
    · have hctl : ctl.state.enabled = true := h.ctlEnabled.trans hon
      have hbs : bs.enabled = true := h.enabled.trans hon
      simp only [Info.record, Controller.recordTick, hctl, hbs, hon, Bool.and_self, if_true,
        h.observedSeconds hon]

end Record

theorem Inv.tick (h : Inv c s) (t : Tick) : Inv c (s.tick c t) where
  paired := paired_record h.paired t.clean
  file := by
    have hbs := restorable_bs (s := s.tick c t) (paired_record h.paired t.clean)
    intro info hinfo
    simp only [Loop.tick] at hinfo
    split_ifs at hinfo
    · exact Option.mem_some_iff.mp hinfo ▸ hbs
    · exact h.file info hinfo
  seen := by
    intro hon hwindow
    refine List.forall_mem_cons.mpr ⟨fun hsame => ?_, h.seen hon hwindow⟩
    exact (paired_record h.paired t.clean).rank_own hon hwindow hsame

theorem Inv.step (h : Inv c s) (e : Event) : Inv c (s.step c e) := by
  cases e with
  | tick t => exact h.tick t
  | restart now ctlNow => exact Inv.start h.file now ctlNow h.seen

/-- One step keeps the accounts one exactly when it meets the condition. -/
theorem asOne_step_iff (h : Inv c s) (e : Event) :
    AsOne (s.step c e).seen ↔ AsOne s.seen ∧ Steady c s e := by
  cases e with
  | restart now ctlNow => exact (and_iff_left trivial).symm
  | tick t =>
    have hpaired := paired_record h.paired t.clean
    refine asOne_cons.trans (and_congr_right fun hseen => ?_)
    by_cases hidle : c.bootstrap = true ∧ 0 < c.window
    · obtain ⟨hon, hwindow⟩ := hidle
      have hiff := @Paired.effective_eq_iff _ t.now.val _ _ hpaired hon hwindow
      rw [record_startedAt] at hiff
      refine Iff.trans (and_congr hiff.symm.symm Iff.rfl) ?_
      simp only [Steady, hon, hwindow, forall_const]
      refine and_congr_right fun halike => forall₂_congr fun last hlast => ?_
      have hsame := hiff.mpr halike
      have hlastSame := hseen.same last (List.mem_of_mem_head? hlast)
      have hlastPhase := h.seen hon hwindow last (List.mem_of_mem_head? hlast) hlastSame
      rw [← rank_ownPhase_le, ← hpaired.rank_own hon hwindow hsame, ← hlastPhase]
    · obtain ⟨hown, hlifecycle⟩ := @Paired.idle _ t.now.val _ _ hpaired hidle
      refine iff_of_true ⟨hown.trans hlifecycle.symm, fun last _ => ?_⟩ ?_
      · exact (rank_le_steady last.own.phase).trans_eq (congrArg (fun p : Policy => p.phase.rank) hown).symm
      · exact fun hon hwindow => absurd ⟨hon, hwindow⟩ hidle

/-- The condition all along a run is what keeps the two accounts one. -/
theorem asOne_run_iff (c : Setup) (file : Option Info) (now ctlNow : Clock) (es : List Event)
    (hfile : ∀ info ∈ file, Restorable c info) :
    AsOne (run c file now ctlNow es).seen ↔
      Along (step c) (Steady c) (start c file now ctlNow) es := by
  have hstart : Inv c (start c file now ctlNow) :=
    Inv.start hfile now ctlNow fun _ _ _ hr => absurd hr List.not_mem_nil
  have hempty : AsOne (start c file now ctlNow).seen :=
    ⟨fun _ hr => absurd hr List.not_mem_nil, List.Pairwise.nil⟩
  have hrun : AsOne (es.foldl (step c) (start c file now ctlNow)).seen ↔
      AsOne (start c file now ctlNow).seen ∧ Along (step c) (Steady c) (start c file now ctlNow) es :=
    iff_along (P := fun s : Loop => AsOne s.seen) hstart (fun {_ e} hs => hs.step e)
      (fun {_ e} hs => asOne_step_iff hs e)
  exact hrun.trans (and_iff_right hempty)

section Runs

def defaultSetup (window : Duration) : Setup where
  bootstrap := true
  statePath := true
  interval := Duration.second
  window := window
  sched := defaultSchedule

def clock : Clock := ⟨1, by decide⟩

theorem default_asOne :
    AsOne (run (defaultSetup (336 * Graph.hour)) none clock clock
      [.tick { now := clock, clean := false }, .tick { now := clock, clean := true },
        .restart clock clock, .tick { now := clock, clean := true }]).seen :=
  (asOne_run_iff _ none clock clock _ fun _ h => by cases h).mpr (by decide +kernel)

/-- The hour of a short window is over, and the loop is in its first phase. -/
theorem short_window_apart : ¬ ∀ c file now ctlNow es, AsOne (run c file now ctlNow es).seen := by
  intro h
  have hone := h (defaultSetup Graph.hour)
    (some { enabled := true, startedAt := 1, observedSeconds := 3599 }) clock clock
    [.tick { now := clock, clean := true }]
  have hphase := congrArg Policy.phase (hone.same _ List.mem_cons_self)
  exact absurd hphase (by decide +kernel)

end Runs

end Loop

end Bootstrap

end Kernloom
