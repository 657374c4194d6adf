import Kernloom.ReactionState
import Kernloom.SnapshotWrites
import Kernloom.Transition

/-! Runs of the reaction engine's threads: each changes the state under the lock and stores the
snapshot it took there later. A snapshot that is stored over a newer one loses what came after it. -/

namespace Kernloom

open Transition SnapshotWrites

/-- The loops that change the state, and the writes left to the background. -/
inductive ReactionThread
  | mainLoop
  | signalConsumer
  | background
  deriving DecidableEq

/-- Something done for a key that is not to be done again within a period. -/
structure Spell where
  key : String
  period : Duration
  time : Time
  deriving DecidableEq

structure ReactionWorld where
  state : Store ReactionThread ReactionState
  /-- The detections fired, the alerts emitted with their IDs, and the alerts escalated, the last one first. -/
  fired : List Spell
  emitted : List Spell
  alerts : List String
  escalated : List String

inductive ReactionStep
  | observe (thread : ReactionThread) (rule : DetectionRule) (o : DetectionObservation) (now : Time)
  | emitAlert (thread : ReactionThread) (routes : List AlertRoute) (action : AlertAction)
    (event : DetectionEvent)
      (now : Time)
  | sweep (thread : ReactionThread) (now : Time)
  | facts (sourceID : String) (now : Time)
  | write (i : Nat)
  | restart

namespace ReactionState

/-- The spell of an alert action for an event. -/
def alertSpell (routes : List AlertRoute) (action : AlertAction) (event : DetectionEvent) (now : Time) :
    Spell :=
  ⟨alertKey action event, alertDedupe (alertRouteByID routes action.route) action, now⟩

def dueIDs (now : Time) (e : ReactionState) : List String := (e.dueAlerts now).map (·.1)

end ReactionState

namespace ReactionWorld

def start : ReactionWorld := ⟨.start {}, [], [], [], []⟩

/-- A loop stores its snapshot before it goes on. -/
def Busy (w : ReactionWorld) (thread : ReactionThread) : Prop := ∃ p ∈ w.state.pending, p.writer = thread

instance (w : ReactionWorld) (thread : ReactionThread) : Decidable (w.Busy thread) :=
  inferInstanceAs (Decidable (∃ p ∈ w.state.pending, p.writer = thread))

def observe (w : ReactionWorld) (thread : ReactionThread) (rule : DetectionRule) (o : DetectionObservation)
    (now : Time) : ReactionWorld :=
  let observed := w.state.memory.observeDetection rule o now
  { w with
    state := w.state.change thread observed.1
    fired := (observed.2.map fun event => Spell.mk event.key event.window now).toList ++ w.fired }

def emitAlert (w : ReactionWorld) (thread : ReactionThread) (routes : List AlertRoute) (action : AlertAction)
    (event : DetectionEvent) (now : Time) : ReactionWorld :=
  match w.state.memory.emitAlert routes action event now with
  | none => w
  | some e =>
    { w with
      state := w.state.change thread e
      emitted := ReactionState.alertSpell routes action event now :: w.emitted
      alerts := reactionAlertID (ReactionState.alertKey action event) now :: w.alerts }

def sweep (w : ReactionWorld) (thread : ReactionThread) (now : Time) : ReactionWorld :=
  if w.state.memory.dueAlerts now = [] then w
  else
    { w with
      state := w.state.change thread (w.state.memory.sweepAlertEscalations now)
      escalated := w.state.memory.dueIDs now ++ w.escalated }

def facts (w : ReactionWorld) (sourceID : String) (now : Time) : ReactionWorld :=
  let (_, e, changed) := w.state.memory.detectionFactsForSource sourceID now
  if changed then { w with state := w.state.change .background e } else w

/-- The clock never shows the zero time. -/
def step (w : ReactionWorld) : ReactionStep → Option ReactionWorld
  | .observe thread rule o now => if w.Busy thread ∨ now = 0 then none else some (w.observe thread rule o now)
  | .emitAlert thread routes action event now =>
    if w.Busy thread ∨ now = 0 then none else some (w.emitAlert thread routes action event now)
  | .sweep thread now => if w.Busy thread ∨ now = 0 then none else some (w.sweep thread now)
  | .facts sourceID now => if w.Busy .mainLoop ∨ now = 0 then none else some (w.facts sourceID now)
  | .write i => (w.state.write i).map fun s => { w with state := s }
  | .restart => if w.state.pending = [] then some { w with state := w.state.reload } else none

abbrev Step (w : ReactionWorld) (e : ReactionStep) (w' : ReactionWorld) : Prop := w.step e = some w'

/-- No snapshot is stored over a newer one. -/
def WritesInOrder (w : ReactionWorld) : ReactionStep → Prop
  | .write i => w.state.InOrder i
  | _ => True

end ReactionWorld

/-- A spell starts no sooner than its period after an earlier spell of its key. -/
def Spaced (log : List Spell) : Prop :=
  log.Pairwise fun later earlier => later.key = earlier.key → later.period ≤ later.time - earlier.time

instance (log : List Spell) : Decidable (Spaced log) :=
  inferInstanceAs (Decidable (log.Pairwise fun later earlier =>
    later.key = earlier.key → later.period ≤ later.time - earlier.time))

/-- The table of the last times spaces the log. -/
structure RateLimited (log : List Spell) (last : GoMap Time) : Prop where
  spaced : Spaced log
  recorded : ∀ s ∈ log, ∃ t, last.lookup s.key = some t ∧ t ≠ 0 ∧ s.time ≤ t

theorem RateLimited.add {log : List Spell} {last : GoMap Time} {s : Spell} (h : RateLimited log last)
    (hperiod : 0 ≤ s.period) (htime : s.time ≠ 0)
    (hlast : ∀ t, last.lookup s.key = some t → t ≠ 0 → s.period ≤ s.time - t) :
    RateLimited (s :: log) (last.insert s.key s.time) := by
  have hgap : ∀ q ∈ log, s.key = q.key → s.period ≤ s.time - q.time := by
    intro q hq hkey
    obtain ⟨t, ht, hne, hle⟩ := h.recorded q hq
    have hperiod := hlast t (hkey ▸ ht) hne
    linarith
  refine ⟨List.pairwise_cons.mpr ⟨hgap, h.spaced⟩, fun q hq => ?_⟩
  rcases List.mem_cons.mp hq with rfl | hq
  · exact ⟨q.time, AList.lookup_insert last, htime, le_rfl⟩
  · by_cases hkey : q.key = s.key
    · have hq' := hgap q hq hkey.symm
      exact ⟨s.time, hkey ▸ AList.lookup_insert last, htime, by linarith⟩
    · obtain ⟨t, ht⟩ := h.recorded q hq
      exact ⟨t, by rwa [AList.lookup_insert_ne hkey]⟩

theorem DetectionRule.windowOrDefault_pos (rule : DetectionRule) : 0 < rule.windowOrDefault := by
  unfold DetectionRule.windowOrDefault
  split_ifs with h
  · decide
  · exact not_le.mp h

namespace ReactionState

variable {e : ReactionState}

/-- An observation leaves the times as they are, or fires a detection that is due. -/
theorem observeDetection_cases (rule : DetectionRule) (o : DetectionObservation) (now : Time) :
    (e.observeDetection rule o now).1.lastResponse = e.lastResponse ∧
    (e.observeDetection rule o now).1.activeAlerts = e.activeAlerts ∧
    ((e.observeDetection rule o now).2 = none ∧ (e.observeDetection rule o now).1.lastFire = e.lastFire ∨
      ∃ event, (e.observeDetection rule o now).2 = some event ∧ event.key = o.key ∧
        event.window = rule.windowOrDefault ∧
        (e.observeDetection rule o now).1.lastFire = e.lastFire.insert o.key now ∧
        ∀ t, e.lastFire.lookup o.key = some t → t ≠ 0 → rule.windowOrDefault ≤ now - t) := by
  unfold observeDetection
  dsimp only
  split_ifs with htotal hfull hlast
  · exact ⟨rfl, rfl, .inl ⟨rfl, rfl⟩⟩
  · exact ⟨rfl, rfl, .inl ⟨rfl, rfl⟩⟩
  · refine ⟨rfl, rfl, .inr ⟨_, rfl, rfl, rfl, rfl, fun t ht hne => ?_⟩⟩
    rw [ht] at hlast
    exact not_lt.mp fun hlt => hlast ⟨hne, hlt⟩
  · exact ⟨rfl, rfl, .inl ⟨rfl, rfl⟩⟩

/-- An alert is emitted only where none was a short while ago. -/
theorem emitAlert_some {routes : List AlertRoute} {action : AlertAction} {event : DetectionEvent} {now : Time}
    {e' : ReactionState} (h : e.emitAlert routes action event now = some e') :
    e'.lastFire = e.lastFire ∧ e'.lastResponse = e.lastResponse.insert (alertKey action event) now ∧
    (e'.activeAlerts = e.activeAlerts ∨ ∃ a : ActiveAlert, a.escalated = false ∧
      e'.activeAlerts = e.activeAlerts.insert (reactionAlertID (alertKey action event) now) a) ∧
    ∀ t, e.lastResponse.lookup (alertKey action event) = some t → t ≠ 0 →
      alertDedupe (alertRouteByID routes action.route) action ≤ now - t := by
  unfold emitAlert at h
  dsimp only at h
  split_ifs at h with hlast
  have hdue : ∀ t, e.lastResponse.lookup (alertKey action event) = some t → t ≠ 0 →
      alertDedupe (alertRouteByID routes action.route) action ≤ now - t := by
    intro t ht hne
    rw [ht] at hlast
    exact not_lt.mp fun hlt => hlast ⟨hne, hlt⟩
  split at h
  · obtain rfl := Option.some.inj h
    exact ⟨rfl, rfl, .inl rfl, hdue⟩
  · obtain rfl := Option.some.inj h
    exact ⟨rfl, rfl, .inr ⟨_, rfl, rfl⟩, hdue⟩

theorem alertDedupe_pos (route : Option AlertRoute) (action : AlertAction) :
    0 < alertDedupe route action := by
  unfold alertDedupe
  dsimp only
  generalize (if action.dedupe ≤ 0 then (route.map AlertRoute.deduplicationWindow).getD action.dedupe
    else action.dedupe) = dedupe
  split_ifs with h
  · decide
  · exact not_le.mp h

theorem mem_dueIDs {now : Time} {id : String} (h : id ∈ e.dueIDs now) :
    ∃ a, e.activeAlerts.lookup id = some a ∧ a.escalated = false := by
  obtain ⟨d, hd, rfl⟩ := List.mem_map.mp h
  obtain ⟨hmem, hdue⟩ := List.mem_filter.mp hd
  refine ⟨d.2, AList.mem_lookup_iff.mpr hmem, ?_⟩
  simpa using (of_decide_eq_true hdue).1

theorem dueIDs_nodup (e : ReactionState) (now : Time) : (e.dueIDs now).Nodup :=
  List.Nodup.sublist (List.filter_sublist.map Sigma.fst) e.activeAlerts.nodupKeys

theorem lookup_sweep (now : Time) (id : String) :
    (id ∈ e.dueIDs now → ∃ a, (e.sweepAlertEscalations now).activeAlerts.lookup id = some a ∧
    a.escalated = true) ∧
    (id ∉ e.dueIDs now → (e.sweepAlertEscalations now).activeAlerts.lookup id = e.activeAlerts.lookup
    id) := by
  have hkeys : ((e.dueAlerts now).map fun a => (a.1, { a.2 with escalated := true })).map Prod.fst =
      e.dueIDs now :=
    List.map_map
  constructor
  · intro h
    obtain ⟨d, hd, rfl⟩ := List.mem_map.mp h
    have hentry := List.mem_map_of_mem (f := fun a : Sigma fun _ : String => ActiveAlert =>
      (a.1, { a.2 with escalated := true })) hd
    have hnodup := dueIDs_nodup e now
    rw [← hkeys] at hnodup
    exact ⟨_, GoMap.lookup_insertAll hentry hnodup, rfl⟩
  · intro h
    rw [← hkeys] at h
    exact GoMap.lookup_insertAll_of_notMem h

end ReactionState

/-- The alerts of an ID that are still to be escalated, at most one. -/
def awaiting (active : GoMap ActiveAlert) (id : String) : Nat :=
  if ∃ a ∈ active.lookup id, a.escalated = false then 1 else 0

theorem awaiting_le_one (active : GoMap ActiveAlert) (id : String) : awaiting active id ≤ 1 := by
  unfold awaiting
  split_ifs <;> simp

theorem awaiting_congr {active active' : GoMap ActiveAlert} {id : String}
    (h : active'.lookup id = active.lookup id) : awaiting active' id = awaiting active id := by
  rw [awaiting, awaiting, h]

/-- No ID is escalated more often than alerts of it were emitted. -/
def EscalatedOnce (alerts escalated : List String) (active : GoMap ActiveAlert) : Prop :=
  ∀ id, escalated.count id + awaiting active id ≤ alerts.count id

theorem EscalatedOnce.emit {alerts escalated : List String} {active : GoMap ActiveAlert} {id : String}
    (h : EscalatedOnce alerts escalated active) : EscalatedOnce (id :: alerts) escalated active := by
  intro id'
  have hle := h id'
  have hcount : alerts.count id' ≤ (id :: alerts).count id' := (List.sublist_cons_self id alerts).count_le id'
  omega

theorem EscalatedOnce.insert {alerts escalated : List String} {active : GoMap ActiveAlert} {id : String}
    (h : EscalatedOnce alerts escalated active) (a : ActiveAlert) :
    EscalatedOnce (id :: alerts) escalated (active.insert id a) := by
  intro id'
  have hle := h id'
  by_cases hid : id' = id
  · subst hid
    have hone := awaiting_le_one (active.insert id' a) id'
    rw [List.count_cons_self]
    omega
  · rw [awaiting_congr (AList.lookup_insert_ne hid), List.count_cons_of_ne (Ne.symm hid)]
    exact hle

theorem EscalatedOnce.sweep {alerts escalated : List String} {e : ReactionState} (now : Time)
    (h : EscalatedOnce alerts escalated e.activeAlerts) :
    EscalatedOnce alerts (e.dueIDs now ++ escalated) (e.sweepAlertEscalations now).activeAlerts := by
  intro id
  have hle := h id
  rw [List.count_append]
  by_cases hid : id ∈ e.dueIDs now
  · -- the alert was still to be escalated and is not any more
    obtain ⟨a, ha, hopen⟩ := ReactionState.mem_dueIDs hid
    obtain ⟨a', ha', hclosed⟩ := (ReactionState.lookup_sweep now id).1 hid
    have hbefore : awaiting e.activeAlerts id = 1 := if_pos ⟨a, ha, hopen⟩
    have hafter : awaiting (e.sweepAlertEscalations now).activeAlerts id = 0 := by
      refine if_neg fun ⟨b, hb, hopen⟩ => ?_
      obtain rfl := Option.some.inj (ha'.symm.trans hb)
      rw [hclosed] at hopen
      cases hopen
    have hcount := List.nodup_iff_count_le_one.mp (ReactionState.dueIDs_nodup e now) id
    omega
  · rw [awaiting_congr ((ReactionState.lookup_sweep now id).2 hid), List.count_eq_zero.mpr hid]
    omega

namespace ReactionWorld

variable {w w' : ReactionWorld}

/-- The snapshots are in order, and the state in memory knows of all that was done. -/
structure Inv (w : ReactionWorld) : Prop where
  state : w.state.Inv
  fired : RateLimited w.fired w.state.memory.lastFire
  emitted : RateLimited w.emitted w.state.memory.lastResponse
  escalated : EscalatedOnce w.alerts w.escalated w.state.memory.activeAlerts

theorem start_inv : start.Inv where
  state := Store.start_inv _
  fired := ⟨List.Pairwise.nil, fun _ h => absurd h List.not_mem_nil⟩
  emitted := ⟨List.Pairwise.nil, fun _ h => absurd h List.not_mem_nil⟩
  escalated _ := le_rfl

theorem Inv.observe {thread : ReactionThread} {rule : DetectionRule} {o : DetectionObservation} {now : Time}
    (h : w.Inv) (hnow : now ≠ 0) : (w.observe thread rule o now).Inv := by
  obtain ⟨hresponse, halerts, hfire⟩ := w.state.memory.observeDetection_cases rule o now
  refine ⟨h.state.change _ _, ?_, ?_, ?_⟩
  · show RateLimited _ (w.state.memory.observeDetection rule o now).1.lastFire
    rcases hfire with ⟨hnone, hsame⟩ | ⟨event, hsome, hkey, hwindow, hinsert, hdue⟩
    · simp only [ReactionWorld.observe, hsame, hnone]
      exact h.fired
    · have hadd : RateLimited (⟨o.key, rule.windowOrDefault, now⟩ :: w.fired)
          (w.state.memory.lastFire.insert o.key now) :=
        h.fired.add rule.windowOrDefault_pos.le hnow hdue
      simp only [ReactionWorld.observe, hinsert, hsome, Option.map_some, hkey, hwindow]
      exact hadd
  · show RateLimited _ (w.state.memory.observeDetection rule o now).1.lastResponse
    rw [hresponse]
    exact h.emitted
  · show EscalatedOnce _ _ (w.state.memory.observeDetection rule o now).1.activeAlerts
    rw [halerts]
    exact h.escalated

theorem Inv.emitAlert {thread : ReactionThread} {routes : List AlertRoute} {action : AlertAction}
    {event : DetectionEvent} {now : Time} (h : w.Inv) (hnow : now ≠ 0) :
    (w.emitAlert thread routes action event now).Inv := by
  unfold ReactionWorld.emitAlert
  split
  next => exact h
  next e' he' =>
    obtain ⟨hfire, hresponse, halerts, hdue⟩ := ReactionState.emitAlert_some he'
    refine ⟨h.state.change _ _, ?_, ?_, ?_⟩
    · show RateLimited w.fired e'.lastFire
      rw [hfire]
      exact h.fired
    · show RateLimited _ e'.lastResponse
      rw [hresponse]
      exact h.emitted.add (s := ReactionState.alertSpell routes action event now)
        (ReactionState.alertDedupe_pos _ _).le hnow hdue
    · show EscalatedOnce _ _ e'.activeAlerts
      rcases halerts with hsame | ⟨a, -, hinsert⟩
      · rw [hsame]
        exact h.escalated.emit
      · rw [hinsert]
        exact h.escalated.insert a

theorem Inv.sweep {thread : ReactionThread} {now : Time} (h : w.Inv) : (w.sweep thread now).Inv := by
  unfold ReactionWorld.sweep
  split_ifs
  · exact h
  · exact ⟨h.state.change _ _, h.fired, h.emitted, h.escalated.sweep now⟩

theorem Inv.facts {sourceID : String} {now : Time} (h : w.Inv) : (w.facts sourceID now).Inv := by
  unfold ReactionWorld.facts
  dsimp only
  split_ifs
  · exact ⟨h.state.change _ _, h.fired, h.emitted, h.escalated⟩
  · exact h

theorem Inv.step {e : ReactionStep} (h : w.Inv) (horder : w.WritesInOrder e) (hstep : w.Step e w') :
    w'.Inv := by
  cases e with
  | observe thread rule o now =>
    obtain ⟨hnot, hnext⟩ := Option.ite_none_left_eq_some.mp hstep
    obtain rfl := Option.some.inj hnext
    exact h.observe fun hnow => hnot (.inr hnow)
  | emitAlert thread routes action event now =>
    obtain ⟨hnot, hnext⟩ := Option.ite_none_left_eq_some.mp hstep
    obtain rfl := Option.some.inj hnext
    exact h.emitAlert fun hnow => hnot (.inr hnow)
  | sweep thread now =>
    obtain ⟨-, hnext⟩ := Option.ite_none_left_eq_some.mp hstep
    obtain rfl := Option.some.inj hnext
    exact h.sweep
  | facts sourceID now =>
    obtain ⟨-, hnext⟩ := Option.ite_none_left_eq_some.mp hstep
    obtain rfl := Option.some.inj hnext
    exact h.facts
  | write i =>
    obtain ⟨s, hwrite, rfl⟩ := Option.map_eq_some_iff.mp hstep
    have hmemory : s.memory = w.state.memory := Store.write_memory hwrite
    refine ⟨h.state.write horder hwrite, ?_, ?_, ?_⟩
    · show RateLimited w.fired s.memory.lastFire
      rw [hmemory]
      exact h.fired
    · show RateLimited w.emitted s.memory.lastResponse
      rw [hmemory]
      exact h.emitted
    · show EscalatedOnce w.alerts w.escalated s.memory.activeAlerts
      rw [hmemory]
      exact h.escalated
  | restart =>
    obtain ⟨hquiet, hnext⟩ := Option.ite_none_right_eq_some.mp hstep
    obtain rfl := Option.some.inj hnext
    have hreload := h.state.reload hquiet
    refine ⟨?_, ?_, ?_, ?_⟩
    · show w.state.reload.Inv
      rw [hreload]
      exact h.state
    · show RateLimited w.fired w.state.reload.memory.lastFire
      rw [hreload]
      exact h.fired
    · show RateLimited w.emitted w.state.reload.memory.lastResponse
      rw [hreload]
      exact h.emitted
    · show EscalatedOnce w.alerts w.escalated w.state.reload.memory.activeAlerts
      rw [hreload]
      exact h.escalated

theorem run_inv {es : List ReactionStep} (h : Run (Guarded WritesInOrder Step) start es w) : w.Inv :=
  h.invariant start_inv fun hinv ⟨horder, hstep⟩ => hinv.step horder hstep

def floodRule : DetectionRule :=
  { id := "flood", type := "source.count", window := 60 * Duration.second, threshold := 1 }

def floodOf (key : String) : DetectionObservation := ⟨key, key, 1⟩

/-- Both loops fire a detection, and the snapshot of the second is stored first. -/
def crossedWrites : List ReactionStep :=
  [.observe .mainLoop floodRule (floodOf "a") (100 * Duration.second),
    .observe .signalConsumer floodRule (floodOf "b") (101 * Duration.second), .write 1, .write 0]

/-- The detection that was fired second is fired again ten seconds later. -/
def firedAgain : List ReactionStep :=
  [.restart, .observe .signalConsumer floodRule (floodOf "b") (111 * Duration.second)]

def crossedWorld : ReactionWorld := (crossedWrites.foldlM step start).get (by decide +kernel)

def firedAgainWorld : ReactionWorld := (firedAgain.foldlM step crossedWorld).get (by decide +kernel)

/-- The same loops, each storing its snapshot in turn. -/
def writesInTurn : List ReactionStep :=
  [.observe .mainLoop floodRule (floodOf "a") (100 * Duration.second),
    .observe .signalConsumer floodRule (floodOf "b") (101 * Duration.second), .write 0, .write 0, .restart,
    .observe .signalConsumer floodRule (floodOf "b") (111 * Duration.second), .write 0]

instance (w : ReactionWorld) : ∀ e, Decidable (w.WritesInOrder e)
  | .write i => inferInstanceAs (Decidable (∀ p ∈ w.state.pending[i]?, w.state.storedNumber ≤ p.number))
  | .observe .. | .emitAlert .. | .sweep .. | .facts .. | .restart => isTrue trivial

def inTurnWorld : ReactionWorld :=
  (writesInTurn.foldlM (fun (w : ReactionWorld) e => if w.WritesInOrder e then w.step e else none) start).get
    (by decide +kernel)

end ReactionWorld

end Kernloom
