import Kernloom.GoText
import Kernloom.GoValue

/-! The runtime reactions: detections over windows of samples, alerts with their deduplication, and
the escalation of alerts that nobody acknowledges. -/

namespace Kernloom

structure ReactionSample where
  sampledAt : Time
  count : Int
  deriving DecidableEq

structure ActiveDetection where
  detectionRuleID : String
  key : String
  sourceID : String
  resourceRef : String
  count : Int
  windowSeconds : Int
  observedAt : Time
  expiresAt : Time
  deriving DecidableEq

structure ActiveAlert where
  alertID : String
  routeID : String
  responseRuleID : String
  detectionRuleID : String
  sourceID : String
  severity : String
  observedAt : Time
  ackDeadline : Time
  escalated : Bool := false
  deriving DecidableEq

/-- What the engine keeps under its lock. -/
structure ReactionState where
  windows : GoMap (List ReactionSample) := ∅
  lastFire : GoMap Time := ∅
  lastResponse : GoMap Time := ∅
  activeDetections : GoMap ActiveDetection := ∅
  activeAlerts : GoMap ActiveAlert := ∅
  deriving DecidableEq

structure DetectionRule where
  id : String
  type : String
  resourceRef : String := ""
  window : Duration
  threshold : Int

/-- What the metrics of a source say to a rule that matches them: the key of their group and a
positive count. -/
structure DetectionObservation where
  key : String
  sourceID : String
  count : Int

structure DetectionEvent where
  ruleID : String
  key : String
  sourceID : String
  count : Int
  window : Duration
  observedAt : Time

structure AlertRoute where
  id : String
  deduplicationWindow : Duration
  defaultSeverity : String
  acknowledgementRequired : Bool
  acknowledgementTimeout : Duration

/-- An alert action of a response rule. -/
structure AlertAction where
  responseRuleID : String
  route : String
  dedupe : Duration
  severity : String

namespace DetectionRule

def windowOrDefault (rule : DetectionRule) : Duration :=
    if rule.window ≤ 0 then 60 * Duration.second else rule.window

def thresholdOrDefault (rule : DetectionRule) : Int := if rule.threshold ≤ 0 then 1 else rule.threshold

def sustainedDetectionRequiresFullWindow (rule : DetectionRule) : Bool :=
  trimSpace rule.type = "source.rate_limit_drops_sustained" ∧ 0 < rule.window

end DetectionRule

def reactionSustainedWindowTolerance (window : Duration) : Duration :=
  if window / 4 < 2 * Duration.second then 2 * Duration.second
  else if 5 * Duration.second < window / 4 then 5 * Duration.second
  else window / 4

/-- A sample stands at the start of the window, give or take the tolerance. -/
def reactionSamplesCoverWindow (samples : List ReactionSample) (window : Duration) (now : Time) : Bool :=
  window ≤ 0 ∨ samples.any fun sample =>
    0 < sample.count ∧ sample.sampledAt ≤ now - window ∧
      now - window - reactionSustainedWindowTolerance window ≤ sample.sampledAt

/-- The time part of an alert ID. -/
@[irreducible] def compactStamp (t : Time) : String :=
  let seconds := t.toNat / 10 ^ 9
  let (year, month, day) := civil (seconds / 86400)
  String.ofList (digits 4 year ++ digits 2 month ++ digits 2 day ++ 'T' :: digits 2 (seconds / 3600 % 24) ++
    digits 2 (seconds / 60 % 60) ++ digits 2 (seconds % 60) ++ '.' :: digits 9 (t.toNat % 10 ^ 9) ++ ['Z'])

@[irreducible] def reactionAlertID (key : String) (now : Time) : String :=
  String.ofList (key.toList.map fun c => if c = '|' ∨ c = ' ' then '-' else c) ++ "-" ++ compactStamp now

namespace ReactionState

/-- One observation of a rule under the lock, and the detection it fires. -/
def observeDetection (rule : DetectionRule) (o : DetectionObservation) (now : Time) (e : ReactionState) :
    ReactionState × Option DetectionEvent :=
  let window := rule.windowOrDefault
  let samples := (e.windows.lookup o.key).getD [] ++ [⟨now, o.count⟩]
  let fullWindow := ¬ rule.sustainedDetectionRequiresFullWindow ∨
    reactionSamplesCoverWindow samples window now
  let kept := samples.filter fun sample => now - window ≤ sample.sampledAt
  let total := (kept.map ReactionSample.count).sum
  let e := { e with windows := e.windows.insert o.key kept }
  let last := (e.lastFire.lookup o.key).getD 0
  if total < rule.thresholdOrDefault then (e, none)
  else if ¬ fullWindow then (e, none)
  else if last ≠ 0 ∧ now - last < window then (e, none)
  else
    let detection : ActiveDetection :=
      { detectionRuleID := rule.id
        key := o.key
        sourceID := o.sourceID
        resourceRef := rule.resourceRef
        count := total
        windowSeconds := window / Duration.second
        observedAt := now
        expiresAt := now + window }
    ({ e with
        lastFire := e.lastFire.insert o.key now
        activeDetections := e.activeDetections.insert o.key detection },
      some ⟨rule.id, o.key, o.sourceID, total, window, now⟩)

/-- The detections that are facts of a source, with the state without those expired; the flag says
whether any was. -/
def detectionFactsForSource (sourceID : String) (now : Time) (e : ReactionState) :
    List ActiveDetection × ReactionState × Bool :=
  let expired := e.activeDetections.entries.filter fun d => d.2.expiresAt ≠ 0 ∧ d.2.expiresAt ≤ now
  let active := e.activeDetections.entries.filter fun d => ¬ (d.2.expiresAt ≠ 0 ∧ d.2.expiresAt ≤ now)
  (active.filterMap fun d => if sourceID ≠ "" ∧ d.2.sourceID ≠ sourceID then none else some d.2,
    { e with activeDetections := expired.foldl (fun m d => m.erase d.1) e.activeDetections },
    expired ≠ [])

def alertKey (action : AlertAction) (event : DetectionEvent) : String :=
  "alert|" ++ action.responseRuleID ++ "|" ++ action.route ++ "|" ++ event.key

def alertRouteByID (routes : List AlertRoute) (id : String) : Option AlertRoute := routes.find? fun r =>
    r.id = id

def alertDedupe (route : Option AlertRoute) (action : AlertAction) : Duration :=
  let dedupe := if action.dedupe ≤ 0 then (route.map AlertRoute.deduplicationWindow).getD action.dedupe
    else action.dedupe
  if dedupe ≤ 0 then 60 * Duration.second else dedupe

def alertSeverity (route : Option AlertRoute) (action : AlertAction) : String :=
  let severity := if action.severity = "" then (route.map AlertRoute.defaultSeverity).getD "" else
    action.severity
  if severity = "" then "medium" else severity

/-- The alert of an event under the lock; `none` is one that was emitted a short while ago. -/
def emitAlert (routes : List AlertRoute) (action : AlertAction) (event : DetectionEvent) (now : Time)
    (e : ReactionState) : Option ReactionState :=
  let route := alertRouteByID routes action.route
  let key := alertKey action event
  let alertID := reactionAlertID key now
  let last := (e.lastResponse.lookup key).getD 0
  if last ≠ 0 ∧ now - last < alertDedupe route action then none
  else
    let e := { e with lastResponse := e.lastResponse.insert key now }
    match route.filter AlertRoute.acknowledgementRequired with
    | none => some e
    | some route =>
      let timeout := if route.acknowledgementTimeout ≤ 0 then 900 * Duration.second else
        route.acknowledgementTimeout
      let alert : ActiveAlert :=
        { alertID := alertID
          routeID := action.route
          responseRuleID := action.responseRuleID
          detectionRuleID := event.ruleID
          sourceID := event.sourceID
          severity := alertSeverity route action
          observedAt := now
          ackDeadline := now + timeout }
      some { e with activeAlerts := e.activeAlerts.insert alertID alert }

/-- The alerts to be escalated. -/
def dueAlerts (now : Time) (e : ReactionState) : List (Sigma fun _ : String => ActiveAlert) :=
  e.activeAlerts.entries.filter fun a => ¬ a.2.escalated ∧ a.2.ackDeadline ≠ 0 ∧ a.2.ackDeadline ≤ now

/-- The sweep under the lock. -/
def sweepAlertEscalations (now : Time) (e : ReactionState) : ReactionState :=
  { e with activeAlerts :=
      e.activeAlerts.insertAll ((e.dueAlerts now).map fun a => (a.1, { a.2 with escalated := true })) }

end ReactionState

end Kernloom
