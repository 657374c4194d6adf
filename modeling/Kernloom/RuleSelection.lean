import Kernloom.RuntimeDecision

/-! The decision point. Of the rules whose conditions hold it takes the earliest one of the highest
precedence, and rules that do not match have no say. -/

namespace Kernloom

variable {φ α : Type}

section Conditions

/-- What a condition makes of the facts. -/
inductive CelOutcome
  | bool (b : Bool)
  | nonBool
  | error (text : String)
  deriving DecidableEq

/-- `strings.Contains`. -/
@[irreducible] def containsText (s sub : String) : Bool := decide (sub.toList <:+: s.toList)

def isMissingFactKeyError (text : String) : Bool := containsText text "no such key"

/-- The parameters of a rule's action. -/
structure RuleParams where
  params : GoMap ParamValue := ∅
  blastRadius : Option BlastRadius := none

structure CompiledRule (φ : Type) where
  rule : RuntimePolicyRule
  params : RuleParams := {}
  program : φ → CelOutcome

/-- The compiled rules, and the effect where none matches. -/
structure PDP (φ : Type) where
  defaultEffect : String
  rules : List (CompiledRule φ)

def compileRule (parse : String → Except String α) (program : α → Except String (φ → CelOutcome))
    (params : RuntimePolicyRule → RuleParams) (rule : RuntimePolicyRule) : Except String (CompiledRule φ) :=
    do
  if rule.when = "" then .error ("runtimepdp: rule " ++ quote rule.id ++ " has empty when expression")
  let ast ← (parse rule.when).mapError fun err => "runtimepdp: parse rule " ++ quote rule.id ++ ": " ++ err
  let program ← (program ast).mapError fun err => "runtimepdp: build rule " ++ quote rule.id ++ ": " ++ err
  return ⟨rule, params rule, program⟩

/-- The rules of a pack over a CEL environment. -/
def PDP.compile (parse : String → Except String α) (program : α → Except String (φ → CelOutcome))
    (params : RuntimePolicyRule → RuleParams) (pack : RuntimePolicyPack) (defaultEffect : String) :
    Except String (PDP φ) := do
  if pack.apiVersion ≠ runtimeAPIVersion then
    .error ("runtimepdp: unsupported policy apiVersion " ++ quote pack.apiVersion)
  if pack.kind ≠ kindRuntimePolicyPack then
    .error ("runtimepdp: unsupported policy kind " ++ quote pack.kind)
  let rules ← (effectiveRules pack).mapM (compileRule parse program params)
  return ⟨defaultEffect, rules⟩

end Conditions

section Decide

structure RiskAssessment where
  subjectID : String := ""
  validUntil : Time := 0
  deriving DecidableEq

/-- The facts are the variables of the conditions at a time. -/
structure PDPInput (φ : Type) where
  now : Time
  nodeID : String := ""
  subjectID : String := ""
  risk : RiskAssessment := {}
  facts : Time → φ

/-- A decision as it is issued. -/
structure IssuedDecision extends RuntimeDecision where
  nodeID : String
  issuedAt : Time
  risk : RiskAssessment
  reasonCodes : List String := []

structure RuleTrace where
  id : String
  action : String
  level : String
  matched : Bool := false
  skipped : Bool := false
  error : String := ""
  deriving DecidableEq

def runtimeLevelPrecedence (level : String) : Nat :=
  if trimSpace level = "block" then 300
  else if trimSpace level = "hard" then 200
  else if trimSpace level = "soft" then 100
  else 0

def runtimeActionPrecedence (action : RuntimeActionSpec) : Nat :=
  if 0 < runtimeLevelPrecedence action.level then runtimeLevelPrecedence action.level
  else if trimSpace action.capability ∈ ["enforce.access.deny", "enforce.traffic.drop",
    "enforce.network.quarantine",
      "enforce.identity.disable"] then 300
  else if trimSpace action.capability = "enforce.traffic.rate_limit" then 200
  else 0

def CompiledRule.precedence (r : CompiledRule φ) : Nat := runtimeActionPrecedence r.rule.action

/-- The rule that is better than the best so far takes its place; a tie leaves it. -/
def better (best : Option (CompiledRule φ × Nat)) (r : CompiledRule φ) : Option (CompiledRule φ × Nat) :=
  match best with
  | none => some (r, r.precedence)
  | some (b, rank) => if rank < r.precedence then some (r, r.precedence) else some (b, rank)

/-- The loop over the rules, with the best so far. -/
def evalRules (facts : φ) : List (CompiledRule φ) → Option (CompiledRule φ × Nat) → List RuleTrace →
    Except String (Option (CompiledRule φ × Nat)) × List RuleTrace
  | [], best, traces => (.ok best, traces)
  | r :: rs, best, traces =>
    let trace : RuleTrace := ⟨r.rule.id, r.rule.action.capability, r.rule.action.level, false, false, ""⟩
    match r.program facts with
    | .error text =>
      if isMissingFactKeyError text then
        evalRules facts rs best (traces ++ [{ trace with skipped := true, error := text }])
      else
        (.error ("runtimepdp: eval rule " ++ quote r.rule.id ++ ": " ++ text), traces ++
          [{ trace with error := text }])
    | .nonBool =>
      let err := "runtimepdp: rule " ++ quote r.rule.id ++ " returned non-bool"
      (.error err, traces ++ [{ trace with error := err }])
    | .bool matched =>
      evalRules facts rs (if matched then better best r else best)
        (traces ++ [{ trace with matched := matched }])

def decisionForRule (r : CompiledRule φ) (input : PDPInput φ) (now : Time) : IssuedDecision :=
  let actionUntil := now + r.rule.action.ttl
  let validUntil := if input.risk.validUntil = 0 then actionUntil else input.risk.validUntil
  let validUntil :=
    if 0 < r.rule.action.ttl ∧ (validUntil = 0 ∨ actionUntil < validUntil) then actionUntil else validUntil
  { effect := "apply"
    subjectID := if input.subjectID = "" then input.risk.subjectID else input.subjectID
    action := { r.rule.action with params := r.params.params, blastRadius := r.params.blastRadius }
    validUntil := validUntil
    nodeID := input.nodeID
    issuedAt := now
    risk := input.risk
    reasonCodes := r.rule.reasonCodes }

def PDP.defaultDecision (p : PDP φ) (input : PDPInput φ) (now : Time) : IssuedDecision :=
  { effect := if p.defaultEffect = "" then "deny" else p.defaultEffect
    subjectID := if input.subjectID = "" then input.risk.subjectID else input.subjectID
    action := {}
    validUntil := input.risk.validUntil
    nodeID := input.nodeID
    issuedAt := now
    risk := input.risk }

/-- A decision, whether a rule made it, and the traces of the rules. -/
def PDP.decide (p : PDP φ) (input : PDPInput φ) (clock : Time) (includeTrace : Bool) :
    Except String (IssuedDecision × Bool) × List RuleTrace :=
  let now := if input.now = 0 then clock else input.now
  let (best, traces) := evalRules (input.facts now) p.rules none []
  (best.map fun
      | some (r, _) => (decisionForRule r input now, true)
      | none => (p.defaultDecision input now, false),
    if includeTrace then traces else [])

end Decide

section Selection

variable {facts : φ} {p q : PDP φ} {input : PDPInput φ} {clock : Time} {trace : Bool}

/-- The condition is true of the facts. -/
def CompiledRule.Matches (facts : φ) (r : CompiledRule φ) : Prop := r.program facts = .bool true

instance (facts : φ) (r : CompiledRule φ) : Decidable (r.Matches facts) :=
  inferInstanceAs (Decidable (r.program facts = .bool true))

/-- The condition is true or false of the facts, or asks for a fact that is missing. -/
def CompiledRule.Settles (facts : φ) (r : CompiledRule φ) : Prop :=
  r.program facts ≠ .nonBool ∧ ∀ text, r.program facts = .error text → isMissingFactKeyError text = true

/-- The rules that match, in order. -/
def matching (facts : φ) (rules : List (CompiledRule φ)) : List (CompiledRule φ) :=
  rules.filter (·.Matches facts)

theorem matching_cons_of_matches {r : CompiledRule φ} {rules : List (CompiledRule φ)} (h : r.Matches facts) :
    matching facts (r :: rules) = r :: matching facts rules := by
  rw [matching, List.filter_cons, if_pos (decide_eq_true h)]
  rfl

theorem matching_cons_of_not {r : CompiledRule φ} {rules : List (CompiledRule φ)} (h : ¬ r.Matches facts) :
    matching facts (r :: rules) = matching facts rules := by
  rw [matching, List.filter_cons, if_neg fun hd => h (of_decide_eq_true hd)]
  rfl

/-- Without errors the loop is a fold over the rules that match. -/
theorem evalRules_settled {rules : List (CompiledRule φ)} (h : ∀ r ∈ rules, r.Settles facts)
    (best : Option (CompiledRule φ × Nat)) (traces : List RuleTrace) :
    (evalRules facts rules best traces).1 = .ok ((matching facts rules).foldl better best) := by
  induction rules generalizing best traces with
  | nil => rfl
  | cons r rules ih =>
    have hrest := ih fun r' hr' => h r' (List.mem_cons_of_mem _ hr')
    obtain ⟨hbool, herror⟩ := h r List.mem_cons_self
    have hnot : r.program facts ≠ .bool true → matching facts (r :: rules) = matching facts rules :=
      matching_cons_of_not
    unfold evalRules
    dsimp only
    cases hout : r.program facts with
    | bool matched =>
      dsimp only
      rw [hrest]
      cases matched with
      | true =>
        rw [if_pos rfl, matching_cons_of_matches hout]
        rfl
      | false =>
        rw [if_neg Bool.false_ne_true, hnot (hout.trans_ne (by decide))]
    | nonBool => exact absurd hout hbool
    | error text =>
      dsimp only
      rw [if_pos (herror text hout), hrest, hnot (hout.trans_ne (by simp))]

/-- The fold keeps the first rule of the highest precedence, with its precedence. -/
theorem foldl_better (rules : List (CompiledRule φ)) :
    rules.foldl better none = (rules.argmax CompiledRule.precedence).map fun r => (r, r.precedence) := by
  induction rules using List.reverseRecOn with
  | nil => rfl
  | append_singleton rules r ih =>
    rw [List.foldl_append, ih, List.argmax_concat]
    cases rules.argmax CompiledRule.precedence with
    | none => rfl
    | some b =>
      simp only [List.foldl_cons, List.foldl_nil, Option.map_some, better]
      split_ifs <;> rfl

/-- The time of a decision. -/
def PDPInput.time (input : PDPInput φ) (clock : Time) : Time := if input.now = 0 then clock else input.now

/-- The facts a decision reads. -/
def PDPInput.seen (input : PDPInput φ) (clock : Time) : φ := input.facts (input.time clock)

theorem decide_settled (h : ∀ r ∈ p.rules, r.Settles (input.seen clock)) :
    (p.decide input clock trace).1 =
      .ok (match (matching (input.seen clock) p.rules).argmax CompiledRule.precedence with
        | some r => (decisionForRule r input (input.time clock), true)
        | none => (p.defaultDecision input (input.time clock), false)) := by
  have heval := evalRules_settled h none []
  rw [foldl_better] at heval
  rw [PDP.decide]
  simp only [PDPInput.seen, PDPInput.time] at heval ⊢
  rw [heval]
  cases (matching (input.facts (if input.now = 0 then clock else input.now)) p.rules).argmax
    CompiledRule.precedence <;> rfl

/-- The earliest of the matching rules of the highest precedence. -/
def Selected (facts : φ) (rules : List (CompiledRule φ)) (r : CompiledRule φ) : Prop :=
  ∃ front back, rules = front ++ r :: back ∧ r.Matches facts ∧
    (∀ x ∈ front, x.Matches facts → x.precedence < r.precedence) ∧
    ∀ x ∈ back, x.Matches facts → x.precedence ≤ r.precedence

theorem mem_matching {rules : List (CompiledRule φ)} {r : CompiledRule φ} :
    r ∈ matching facts rules ↔ r ∈ rules ∧ r.Matches facts := by
  simp [matching]

theorem Selected.le {rules : List (CompiledRule φ)} {r x : CompiledRule φ} (h : Selected facts rules r)
    (hx : x ∈ rules)
    (hmatches : x.Matches facts) : x.precedence ≤ r.precedence := by
  obtain ⟨front, back, rfl, -, hfront, hback⟩ := h
  rcases List.mem_append.mp hx with hx | hx
  · exact (hfront x hx hmatches).le
  · rcases List.mem_cons.mp hx with rfl | hx
    · exact le_rfl
    · exact hback x hx hmatches

theorem Selected.concat {rules : List (CompiledRule φ)} {r x : CompiledRule φ} (h : Selected facts rules r)
    (hx : x.Matches facts → x.precedence ≤ r.precedence) : Selected facts (rules ++ [x]) r := by
  obtain ⟨front, back, rfl, hmatches, hfront, hback⟩ := h
  refine ⟨front, back ++ [x], by simp, hmatches, hfront, fun y hy hy' => ?_⟩
  rcases List.mem_append.mp hy with hy | hy
  · exact hback y hy hy'
  · obtain rfl := List.mem_singleton.mp hy
    exact hx hy'

theorem selected_of_argmax {rules : List (CompiledRule φ)} {r : CompiledRule φ}
    (h : (matching facts rules).argmax CompiledRule.precedence = some r) : Selected facts rules r := by
  induction rules using List.reverseRecOn generalizing r with
  | nil => cases h
  | append_singleton rules x ih =>
    have hsplit : matching facts (rules ++ [x]) = matching facts rules ++ matching facts [x] :=
      List.filter_append _ _
    by_cases hx : x.Matches facts
    · rw [hsplit, matching_cons_of_matches hx, show matching facts [] = [] from rfl, List.argmax_concat] at h
      cases hbest : (matching facts rules).argmax CompiledRule.precedence with
      | none =>
        -- no earlier rule matches
        rw [hbest] at h
        obtain rfl := Option.some.inj h
        refine ⟨rules, [], rfl, hx, fun y hy hy' => ?_, fun y hy => absurd hy List.not_mem_nil⟩
        have hmem : y ∈ matching facts rules := mem_matching.mpr ⟨hy, hy'⟩
        rw [List.argmax_eq_none.mp hbest] at hmem
        cases hmem
      | some c =>
        rw [hbest] at h
        have hc := ih hbest
        dsimp only at h
        split_ifs at h with hlt
        · obtain rfl := Option.some.inj h
          exact ⟨rules, [], rfl, hx, fun y hy hy' => (hc.le hy hy').trans_lt hlt,
            fun y hy => absurd hy List.not_mem_nil⟩
        · obtain rfl := Option.some.inj h
          exact hc.concat fun _ => not_lt.mp hlt
    · rw [hsplit, matching_cons_of_not hx, show matching facts [] = [] from rfl, List.append_nil] at h
      exact (ih h).concat fun hmatches => absurd hmatches hx

theorem Selected.unique {rules : List (CompiledRule φ)} {r : CompiledRule φ} (h : Selected facts rules r) :
    (matching facts rules).argmax CompiledRule.precedence = some r := by
  obtain ⟨front, back, rfl, hmatches, hfront, hback⟩ := h
  have hsplit : matching facts (front ++ r :: back) = matching facts front ++ [r] ++ matching facts back := by
    rw [matching, List.filter_append, List.filter_cons, if_pos (decide_eq_true hmatches)]
    simp [matching]
  have hbefore : (matching facts front ++ [r]).argmax CompiledRule.precedence = some r := by
    rw [List.argmax_concat]
    cases hbest : (matching facts front).argmax CompiledRule.precedence with
    | none => rfl
    | some c =>
      have hc := mem_matching.mp (List.argmax_mem hbest)
      exact if_pos (hfront c hc.1 hc.2)
  rw [hsplit]
  have hback' : ∀ x ∈ matching facts back, x.precedence ≤ r.precedence := fun x hx =>
    hback x (mem_matching.mp hx).1 (mem_matching.mp hx).2
  generalize matching facts back = later at hback'
  induction later using List.reverseRecOn with
  | nil => rwa [List.append_nil]
  | append_singleton later x ih =>
    rw [← List.append_assoc, List.argmax_concat, ih fun y hy => hback' y (List.mem_append_left _ hy)]
    exact if_neg (not_lt.mpr (hback' x (List.mem_append_right _ List.mem_cons_self)))

/-- Two soft rules match, a third asks for a missing fact. -/
def softPDP : PDP Unit where
  defaultEffect := "observe"
  rules :=
    [⟨{ id := "none", action := { level := "block" } }, {}, fun _ => .error "no such key: posture"⟩,
      ⟨{ id := "first", action := { level := "soft" } }, {}, fun _ => .bool true⟩,
      ⟨{ id := "second", action := { level := "soft" } }, {}, fun _ => .bool true⟩]

def unitInput : PDPInput Unit := { now := 5, facts := fun _ => () }

theorem softPDP_settles : ∀ r ∈ softPDP.rules, r.Settles (unitInput.seen 0) := by
  intro r hr
  simp only [softPDP, List.mem_cons, List.not_mem_nil, or_false] at hr
  rcases hr with rfl | rfl | rfl
  · refine ⟨by simp, fun text htext => ?_⟩
    obtain rfl := CelOutcome.error.inj htext
    decide +kernel
  · exact ⟨by simp, fun _ htext => nomatch htext⟩
  · exact ⟨by simp, fun _ htext => nomatch htext⟩

def firstSoft : CompiledRule Unit := ⟨{ id := "first", action := { level := "soft" } }, {}, fun _ =>
    .bool true⟩

end Selection

section Compiled

variable {parse : String → Except String α} {program : α → Except String (φ → CelOutcome)}
  {params : RuntimePolicyRule → RuleParams}

theorem compileRule_rule {rule : RuntimePolicyRule} {r : CompiledRule φ}
    (h : compileRule parse program params rule = .ok r) : r.rule = rule := by
  unfold compileRule at h
  by_cases hempty : rule.when = ""
  · rw [if_pos hempty] at h
    cases h
  · rw [if_neg hempty] at h
    cases hparse : parse rule.when with
    | error err =>
      rw [hparse] at h
      cases h
    | ok ast =>
      rw [hparse] at h
      cases hprogram : program ast with
      | error err =>
        simp only [Except.mapError, bind, Except.bind, hprogram] at h
        cases h
      | ok f =>
        simp only [Except.mapError, bind, Except.bind, hprogram] at h
        cases h
        rfl

theorem mapM_compileRule {rules : List RuntimePolicyRule} {compiled : List (CompiledRule φ)}
    (h : rules.mapM (compileRule parse program params) = .ok compiled) : compiled.map (·.rule) = rules := by
  induction rules generalizing compiled with
  | nil =>
    cases h
    rfl
  | cons rule rules ih =>
    rw [List.mapM_cons] at h
    cases hrule : compileRule parse program params rule with
    | error err =>
      rw [hrule] at h
      cases h
    | ok r =>
      rw [hrule] at h
      cases hrules : rules.mapM (compileRule parse program params) with
      | error err =>
        simp only [hrules] at h
        cases h
      | ok rest =>
        simp only [hrules] at h
        cases h
        rw [List.map_cons, ih hrules, compileRule_rule hrule]

/-- The holds of a pack's lifecycle come before its authored rules. -/
theorem compile_rules {pack : RuntimePolicyPack} {defaultEffect : String} {p : PDP φ}
    (h : PDP.compile parse program params pack defaultEffect = .ok p) :
    p.rules.map (·.rule) = autonomyLifecycleRules pack ++ pack.rules := by
  unfold PDP.compile at h
  by_cases hversion : pack.apiVersion ≠ runtimeAPIVersion
  · rw [if_pos hversion] at h
    cases h
  · rw [if_neg hversion] at h
    by_cases hkind : pack.kind ≠ kindRuntimePolicyPack
    · rw [if_pos hkind] at h
      cases h
    · rw [if_neg hkind] at h
      cases hrules : (effectiveRules pack).mapM (compileRule parse program params) with
      | error err =>
        simp only [hrules] at h
        cases h
      | ok rules =>
        simp only [hrules] at h
        cases h
        exact mapM_compileRule hrules

end Compiled

end Kernloom
