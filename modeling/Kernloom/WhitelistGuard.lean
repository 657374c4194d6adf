import Kernloom.AntiPoisoning
import Kernloom.SourceWhitelist

/-! The guard that exempts listed sources from what keeps them out of learning. It asks the whitelist about the
ID of an entity, which is a digest, where the list has addresses and names. -/

namespace Kernloom

section Digests

/-- The digits a digest is written in. -/
def digestDigits : List Char :=
  ['0', '1', '2', '3', '4', '5', '6', '7', '8', '9', 'a', 'b', 'c', 'd', 'e', 'f']

def IsDigest (s : String) : Prop := s ≠ "" ∧ s.toList.all digestDigits.contains

instance (s : String) : Decidable (IsDigest s) := inferInstanceAs (Decidable (_ ∧ _))

theorem IsDigest.digits {s : String} (h : IsDigest s) : ∀ c ∈ s.toList, c ∈ digestDigits := fun c hc =>
  List.contains_iff_mem.mp (List.all_eq_true.mp h.2 c hc)

theorem digestDigits_plain : ∀ c ∈ digestDigits, isSpace c = false ∧ c ≠ '/' ∧ c ≠ '.' ∧ c ≠ ':' ∧ c ≠ '%' := by
  simp [digestDigits, isSpace]

variable {s : String} (h : IsDigest s)

include h

theorem trimSpace_digest : trimSpace s = s := by
  have hkept (cs : List Char) (hcs : ∀ c ∈ cs, c ∈ digestDigits) : cs.dropWhile isSpace = cs := by
    cases cs with
    | nil => rfl
    | cons c cs => rw [List.dropWhile_cons, if_neg (by simp [(digestDigits_plain c (hcs c List.mem_cons_self)).1])]
  unfold trimSpace
  rw [hkept _ h.digits, hkept _ fun c hc => h.digits c (List.mem_reverse.mp hc), List.reverse_reverse,
    String.ofList_toList]

theorem parseIP_digest : parseIP s = none := by
  have hfind : (s.toList.find? fun c => c = '.' ∨ c = ':' ∨ c = '%') = none := by
    refine List.find?_eq_none.mpr fun c hc => ?_
    obtain ⟨-, -, hdot, hcolon, hzone⟩ := digestDigits_plain c (h.digits c hc)
    simp [hdot, hcolon, hzone]
  unfold parseIP
  rw [hfind]

/-- To the filters a digest is a name. -/
theorem parseSourceToken_digest : parseSourceToken s = none := by
  have hslash : '/' ∉ s.toList := fun hmem => (digestDigits_plain _ (h.digits _ hmem)).2.1 rfl
  unfold parseSourceToken
  rw [if_neg hslash, parseIP_digest h]

theorem sourceRule_digest (line : String) : sourceRule line = some (.subject s) ↔ sourceRuleSubject line = s := by
  unfold sourceRule
  dsimp only
  constructor
  · intro hrule
    split_ifs at hrule
    cases htoken : parseSourceToken (sourceRuleSubject line) with
    | none =>
      rw [htoken] at hrule
      exact FeedbackTarget.subject.inj (Option.some.inj hrule)
    | some source =>
      rw [htoken] at hrule
      cases hrule
  · rintro rfl
    rw [if_neg h.1, parseSourceToken_digest h]
    rfl

/-- A list has a digest on it exactly when one of its lines is that digest. -/
theorem matchSource_digest (content : String) :
    (Whitelist.load content).matchSource s = true ↔ ∃ line ∈ splitText content '\n', sourceRuleSubject line = s := by
  have hname : (Whitelist.load content).matchSource s = true ↔ s ∈ (Whitelist.load content).exactSubjects := by
    unfold Whitelist.matchSource
    dsimp only
    rw [trimSpace_digest h, parseIP_digest h, if_neg h.1]
    simp
  rw [hname, (Whitelist.load_holds content).subjects, List.mem_filterMap]
  exact exists_congr fun line => and_congr_right fun _ => sourceRule_digest h line

end Digests

namespace LearningGuard

/-- The check of the guard that knows the whitelist. -/
def listedCheck (wl : Whitelist) (order : RowOrder) (fails : Bool) (entityID : String) (dim : AppliesTo) (now : Time)
    (g : LearningGuard) : CheckResult × LearningGuard :=
  if wl.matchSource entityID then (⟨.allowLearning, none, ""⟩, g) else g.check order fails entityID dim now

end LearningGuard

/-- A call of the pipeline, with the list that was last read at each of its two checks. -/
structure ListedEvent where
  event : PipelineEvent
  relList : String := ""
  metricList : String := ""

/-- The source of an observation. -/
def ListedEvent.source (e : ListedEvent) : Option String :=
  match e.event with
  | .observe o _ _ _ _ => some o.subjectID
  | .signal .. => none

namespace GraphPipeline

variable (services : PipelineServices)

def listedChecks (relWl metricWl : Whitelist) (r : Relationship) (relFails metricFails : Bool) (now : Time)
    (g : LearningGuard) : CheckResult × CheckResult × LearningGuard :=
  let (rel, g) := g.listedCheck relWl services.rows relFails r.subjectEntityID .relationshipLearning now
  let (metric, g) := g.listedCheck metricWl services.rows metricFails r.subjectEntityID .metricBaseline now
  (rel, metric, g)

def handleListed (relWl metricWl : Whitelist) (o : Observation) (freshID : String) (relFails metricFails : Bool)
    (now : Time) (p : GraphPipeline) : GraphPipeline :=
  (p.cfg.extractor.extract services.sha256 o now).elim p fun c =>
    let (rel, metric, guard) := listedChecks services relWl metricWl c.rel relFails metricFails now p.guard
    { p with
      learner := p.learner.learn freshID rel.decision c.rel now
      guard := guard
      engine := (samples services o c metric p).foldl
        (fun e s => e.update services.profiles s.1 s.2.1 s.2.2 now) p.engine }

def stepListed (p : GraphPipeline) (e : ListedEvent) : GraphPipeline :=
  match e.event with
  | .signal sig id fails now => p.handleSignal sig id fails now
  | .observe o freshID relFails metricFails now =>
    p.handleListed services (.load e.relList) (.load e.metricList) o freshID relFails metricFails now

def afterListed (p : GraphPipeline) (es : List ListedEvent) : GraphPipeline := es.foldl (stepListed services) p

/-- A list that has the ID of the entity itself on a line. -/
def Names (content source : String) : Prop :=
  ∃ line ∈ splitText content '\n', sourceRuleSubject line = stableEntityID services.sha256 "ip" source ""

variable {services} {p : GraphPipeline}

theorem exempt_iff_named (hdigests : ∀ text, IsDigest (services.sha256 text)) {content source : String} :
    (Whitelist.load content).matchSource (stableEntityID services.sha256 "ip" source "") = true ↔
      Names services content source :=
  matchSource_digest (hdigests _) content

theorem listedCheck_of_unnamed (hdigests : ∀ text, IsDigest (services.sha256 text)) {content source : String}
    (hnames : ¬ Names services content source) (fails : Bool) (dim : AppliesTo) (now : Time) (g : LearningGuard) :
    g.listedCheck (.load content) services.rows fails (stableEntityID services.sha256 "ip" source "") dim now =
      g.check services.rows fails (stableEntityID services.sha256 "ip" source "") dim now :=
  if_neg fun hmatch => hnames ((exempt_iff_named hdigests).mp hmatch)

theorem stepListed_eq (hdigests : ∀ text, IsDigest (services.sha256 text)) {e : ListedEvent}
    (hnames : ∀ source, e.source = some source →
      ¬ Names services e.relList source ∧ ¬ Names services e.metricList source) :
    p.stepListed services e = p.step services e.event := by
  obtain ⟨event, relList, metricList⟩ := e
  cases event with
  | signal sig id fails now => rfl
  | observe o freshID relFails metricFails now =>
    obtain ⟨hrel, hmetric⟩ := hnames o.subjectID rfl
    show p.handleListed services (.load relList) (.load metricList) o freshID relFails metricFails now =
      p.handle services o freshID relFails metricFails now
    unfold handleListed handle
    cases hextract : p.cfg.extractor.extract services.sha256 o now with
    | none => rfl
    | some c =>
      have hchecks : listedChecks services (.load relList) (.load metricList) c.rel relFails metricFails now p.guard =
          checks services c.rel relFails metricFails now p.guard := by
        unfold listedChecks checks
        rw [extract_subject hextract, listedCheck_of_unnamed hdigests hrel]
        dsimp only
        rw [listedCheck_of_unnamed hdigests hmetric]
      rw [Option.elim_some, hchecks]

/-- In every run of the pipeline the whitelist changes nothing, however it is written to, unless it has the
digest of an observed source on a line: an address or a name on the list exempts no one. -/
theorem whitelist_inert (hdigests : ∀ text, IsDigest (services.sha256 text)) (es : List ListedEvent)
    (hnames : ∀ e ∈ es, ∀ source, e.source = some source →
      ¬ Names services e.relList source ∧ ¬ Names services e.metricList source) :
    p.afterListed services es = p.after services (es.map ListedEvent.event) := by
  induction es generalizing p with
  | nil => rfl
  | cons e es ih =>
    show (p.stepListed services e).afterListed services es = (p.step services e.event).after services _
    rw [stepListed_eq hdigests (hnames e List.mem_cons_self)]
    exact ih fun e' he' => hnames e' (List.mem_cons_of_mem _ he')

/-- `recordedDigest` where it is a digest. -/
def knownDigest (text : String) : String := if IsDigest (recordedDigest text) then recordedDigest text else "0"

def digestServices : PipelineServices := { quietServices with sha256 := knownDigest }

theorem isDigest_known (text : String) : IsDigest (digestServices.sha256 text) := by
  show IsDigest (knownDigest text)
  unfold knownDigest
  split_ifs with hdigest
  · exact hdigest
  · decide +kernel

/-- The flow of the flagged source, which is on the list. -/
def listedFlow : List ListedEvent :=
  [⟨floodReceived, "", ""⟩,
    ⟨.observe floodObservation "edge-1" false false Duration.second, "203.0.113.9\n", "203.0.113.9\n"⟩]

theorem listedFlow_unnamed : ∀ e ∈ listedFlow, ∀ source, e.source = some source →
    ¬ Names digestServices e.relList source ∧ ¬ Names digestServices e.metricList source := by
  intro e he source hsource
  obtain rfl | rfl := List.mem_pair.mp he
  · cases hsource
  · obtain rfl := Option.some.inj hsource
    have hunnamed : ¬ Names digestServices "203.0.113.9\n" "203.0.113.9" := by
      unfold Names
      decide +kernel
    exact ⟨hunnamed, hunnamed⟩

theorem listed_source_unexempted : (Whitelist.load "203.0.113.9\n").matchSource "203.0.113.9" = true ∧
    quietPipeline.afterListed digestServices listedFlow =
      quietPipeline.after digestServices (listedFlow.map ListedEvent.event) :=
  ⟨by decide +kernel, whitelist_inert isDigest_known listedFlow listedFlow_unnamed⟩

end GraphPipeline

end Kernloom
