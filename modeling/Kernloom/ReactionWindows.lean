import Kernloom.Action
import Kernloom.ReactionRuns

/-! The windows of the reaction engine: which detections share one, and what it counts. -/

namespace Kernloom

/-- `strings.Trim`. -/
@[irreducible] def trimRunes (cutset : List Char) (s : String) : String :=
  String.ofList ((s.toList.dropWhile (· ∈ cutset)).reverse.dropWhile (· ∈ cutset)).reverse

/-- The `group_by` parameter of a rule; of items that are no strings, the text `fmt.Sprint` gives. -/
inductive GroupByParam
  | strings (values : List String)
  | items (texts : List String)
  | text (s : String)
  | other (text : String)
  deriving DecidableEq

structure GroupedRule extends DetectionRule where
  scope : String
  groupBy : Option GroupByParam

def cleanStringList (values : List String) : List String :=
  (values.map (trimRunes [' ', '\t', '\n', '\r', '"', '\''])).filter (· ≠ "")

def paramStringList : GroupByParam → List String
  | .strings values => cleanStringList values
  | .items texts => cleanStringList texts
  | .text s => cleanStringList (splitText (trimRunes ['[', ']'] s) ',')
  | .other text => cleanStringList [text]

def firstStringAttr (attrs : GoMap String) (keys : List String) : String :=
  ((keys.map attrs.get).find? (· ≠ "")).getD ""

def reactionGroupByValue (key : String) (m : SourceTarget) : String :=
  if key = "source.identity_or_ip" ∨ key = "source.id" ∨ key = "source.ip" then m.id
  else if key = "subject.id" then
    if m.subjectID ≠ "" then m.subjectID else firstStringAttr m.attributes ["subject.id", "subject_id"]
  else if key = "resource.id" ∨ key = "resource.ref" then
    firstStringAttr m.attributes ["resource.id", "resource_id", "resource.ref", "resource_ref", "resource"]
  else firstStringAttr m.attributes [key, replaceRune key '.' '_']

def reactionGroupByValues (keys : List String) (m : SourceTarget) : List String :=
  keys.filterMap fun key =>
    let key := trimSpace key
    if key = "" then none
    else if reactionGroupByValue key m = "" then none
    else some (key ++ "=" ++ reactionGroupByValue key m)

namespace GroupedRule

def groupByValues (rule : GroupedRule) (m : SourceTarget) : List String :=
  match rule.groupBy with
  | some raw => reactionGroupByValues (paramStringList raw) m
  | none => []

def scopeOrDefault (rule : GroupedRule) : String :=
  if trimSpace rule.scope = "" then "source" else trimSpace rule.scope

end GroupedRule

def reactionDetectionKey (rule : GroupedRule) (m : SourceTarget) : String :=
  if rule.groupByValues m ≠ [] then rule.id ++ "|group_by|" ++ joinText (rule.groupByValues m) "|"
  else rule.id ++ "|" ++ rule.scopeOrDefault ++ "|" ++ m.id

namespace GroupedRule

variable {rule : GroupedRule} {m m' : SourceTarget}

def groupNames (rule : GroupedRule) : List String :=
  (rule.groupBy.map fun raw => ((paramStringList raw).map trimSpace).filter (· ≠ "")).getD []

/-- Two targets have the same values of the fields, missing ones included. -/
def Agree (rule : GroupedRule) (m m' : SourceTarget) : Prop :=
  ∀ name ∈ rule.groupNames, reactionGroupByValue name m = reactionGroupByValue name m'

def Valued (rule : GroupedRule) (m : SourceTarget) : Prop :=
  ∃ name ∈ rule.groupNames, reactionGroupByValue name m ≠ ""

/-- Neither the fields nor their values hold the characters that the key is put together with. -/
structure Legible (rule : GroupedRule) (m : SourceTarget) : Prop where
  names : ∀ name ∈ rule.groupNames, '|' ∉ name.toList ∧ '=' ∉ name.toList
  values : ∀ name ∈ rule.groupNames, '|' ∉ (reactionGroupByValue name m).toList

instance : Decidable (rule.Agree m m') :=
  inferInstanceAs
    (Decidable (∀ name ∈ rule.groupNames, reactionGroupByValue name m = reactionGroupByValue name m'))

theorem groupByValues_eq : rule.groupByValues m = rule.groupNames.filterMap fun name =>
    if reactionGroupByValue name m = "" then none else some (name ++ "=" ++ reactionGroupByValue name m) := by
  unfold groupByValues groupNames reactionGroupByValues
  cases rule.groupBy with
  | none => rfl
  | some raw =>
    simp only [Option.map_some, Option.getD_some, List.filterMap_filter, List.filterMap_map]
    refine List.filterMap_congr fun name _ => ?_
    by_cases hname : trimSpace name = "" <;> simp [hname]

theorem mem_groupByValues {entry : String} : entry ∈ rule.groupByValues m ↔ ∃ name ∈ rule.groupNames,
    reactionGroupByValue name m ≠ "" ∧ name ++ "=" ++ reactionGroupByValue name m = entry := by
  rw [groupByValues_eq, List.mem_filterMap]
  refine exists_congr fun name => and_congr_right fun _ => ?_
  split_ifs with hvalue <;> simp [hvalue]

theorem groupByValues_ne_nil : rule.groupByValues m ≠ [] ↔ rule.Valued m := by
  constructor
  · intro h
    obtain ⟨entry, hentry⟩ := List.exists_mem_of_ne_nil _ h
    obtain ⟨name, hname, hvalue, -⟩ := mem_groupByValues.mp hentry
    exact ⟨name, hname, hvalue⟩
  · rintro ⟨name, hname, hvalue⟩
    exact List.ne_nil_of_mem (mem_groupByValues.mpr ⟨name, hname, hvalue, rfl⟩)

theorem Agree.groupByValues_eq (h : rule.Agree m m') : rule.groupByValues m = rule.groupByValues m' := by
  rw [GroupedRule.groupByValues_eq, GroupedRule.groupByValues_eq]
  refine List.filterMap_congr fun name hname => ?_
  rw [h name hname]

/-- The key can be read back: it is of one field, or nothing in it holds a separator. -/
def Readable (rule : GroupedRule) (m m' : SourceTarget) : Prop :=
  rule.groupNames.length ≤ 1 ∨ rule.Legible m ∧ rule.Legible m'

theorem Readable.name_eq (h : rule.Readable m m') {name name' value value' : String}
    (hname : name ∈ rule.groupNames)
    (hname' : name' ∈ rule.groupNames) (hentry : name ++ "=" ++ value = name' ++ "=" ++ value') :
    name = name' := by
  rcases h with hone | ⟨hlegible, -⟩
  · obtain ⟨only, honly⟩ := List.length_eq_one_iff.mp (le_antisymm hone (List.length_pos_of_mem hname))
    rw [honly, List.mem_singleton] at hname hname'
    rw [hname, hname']
  · exact head_eq_of_append (hlegible.names name hname).2 (hlegible.names name' hname').2 hentry

theorem Readable.agree_of_groupByValues (h : rule.Readable m m')
    (heq : rule.groupByValues m = rule.groupByValues m') :
    rule.Agree m m' := by
  have hshared {m m' : SourceTarget} (h : rule.Readable m m')
      (heq : rule.groupByValues m = rule.groupByValues m')
      {name : String} (hname : name ∈ rule.groupNames) (hvalue : reactionGroupByValue name m ≠ "") :
      reactionGroupByValue name m' = reactionGroupByValue name m := by
    have hentry := mem_groupByValues.mpr ⟨name, hname, hvalue, rfl⟩
    rw [heq] at hentry
    obtain ⟨name', hname', -, hsame⟩ := mem_groupByValues.mp hentry
    obtain rfl := h.name_eq hname' hname hsame
    exact (String.append_right_inj _).mp hsame
  have hsymm : rule.Readable m' m := h.imp_right And.symm
  intro name hname
  by_cases hvalue : reactionGroupByValue name m = ""
  · by_cases hvalue' : reactionGroupByValue name m' = ""
    · rw [hvalue, hvalue']
    · exact hshared hsymm heq.symm hname hvalue'
  · exact (hshared h heq hname hvalue).symm

theorem Readable.groupByValues_of_join (h : rule.Readable m m') (hm : rule.Valued m) (hm' : rule.Valued m')
    (hjoin : joinText (rule.groupByValues m) "|" = joinText (rule.groupByValues m') "|") :
    rule.groupByValues m = rule.groupByValues m' := by
  have hne := groupByValues_ne_nil.mpr hm
  have hne' := groupByValues_ne_nil.mpr hm'
  rcases h with hone | ⟨hlegible, hlegible'⟩
  · have hsingle {m : SourceTarget} (hne : rule.groupByValues m ≠ []) :
        rule.groupByValues m = [joinText (rule.groupByValues m) "|"] := by
      have hlength : (rule.groupByValues m).length ≤ 1 := by
        rw [groupByValues_eq]
        exact (List.length_filterMap_le _ _).trans hone
      obtain ⟨entry, hentry⟩ :=
        List.length_eq_one_iff.mp (le_antisymm hlength (List.length_pos_of_ne_nil hne))
      rw [hentry]
      unfold joinText
      rw [String.intercalate_singleton]
    rw [hsingle hne, hjoin, ← hsingle hne']
  · have hclear {m : SourceTarget} (hlegible : rule.Legible m) : ∀ entry ∈ rule.groupByValues m,
        '|' ∉ entry.toList := by
      intro entry hentry
      obtain ⟨name, hname, -, rfl⟩ := mem_groupByValues.mp hentry
      simp [(hlegible.names name hname).1, hlegible.values name hname]
    exact joinText_injective hne hne' (hclear hlegible) (hclear hlegible') hjoin

/-- Detections with a value of some field share a window exactly when they agree on every field. -/
theorem Readable.key_eq_iff (h : rule.Readable m m') (hm : rule.Valued m) (hm' : rule.Valued m') :
    reactionDetectionKey rule m = reactionDetectionKey rule m' ↔ rule.Agree m m' := by
  unfold reactionDetectionKey
  rw [if_pos (groupByValues_ne_nil.mpr hm), if_pos (groupByValues_ne_nil.mpr hm'), String.append_right_inj]
  constructor
  · exact fun hjoin => h.agree_of_groupByValues (h.groupByValues_of_join hm hm' hjoin)
  · intro hagree
    rw [hagree.groupByValues_eq]

/-- Detections with no value at all share a window exactly when they are of one source. -/
theorem key_eq_iff_source (hm : ¬ rule.Valued m) (hm' : ¬ rule.Valued m') :
    reactionDetectionKey rule m = reactionDetectionKey rule m' ↔ m.id = m'.id := by
  unfold reactionDetectionKey
  rw [if_neg (fun hne => hm (groupByValues_ne_nil.mp hne)),
    if_neg (fun hne => hm' (groupByValues_ne_nil.mp hne)),
    String.append_right_inj]

theorem key_ne (hm : rule.Valued m) (hm' : ¬ rule.Valued m') (hscope : '|' ∉ rule.scopeOrDefault.toList)
    (hgroup : rule.scopeOrDefault ≠ "group_by") : reactionDetectionKey rule m ≠ reactionDetectionKey rule
    m' := by
  unfold reactionDetectionKey
  rw [if_pos (groupByValues_ne_nil.mpr hm), if_neg (fun hne => hm' (groupByValues_ne_nil.mp hne))]
  intro heq
  have htail : "group_by" ++ "|" ++ joinText (rule.groupByValues m) "|" = rule.scopeOrDefault ++ "|" ++
      m'.id := by
    have hlists := congrArg String.toList heq
    rw [← String.toList_inj]
    simpa using hlists
  exact hgroup (head_eq_of_append (d := '|') (by decide) hscope htail).symm

end GroupedRule

/-- What a rule is shown of a source: whether its subject and resource match, and the count. -/
structure Detection where
  rule : GroupedRule
  target : SourceTarget
  isMatch : Bool
  count : Int
  now : Time

namespace Detection

def key (d : Detection) : String := reactionDetectionKey d.rule d.target

def Recorded (d : Detection) : Prop := trimSpace d.rule.id ≠ "" ∧ d.isMatch = true ∧ 0 < d.count

instance (d : Detection) : Decidable d.Recorded :=
  inferInstanceAs (Decidable (trimSpace d.rule.id ≠ "" ∧ d.isMatch = true ∧ 0 < d.count))

def sample (d : Detection) : ReactionSample := ⟨d.now, d.count⟩

/-- `observeDetection` from its first check on. -/
def observe (d : Detection) (e : ReactionState) : ReactionState × Option DetectionEvent :=
  if d.Recorded then e.observeDetection d.rule.toDetectionRule ⟨d.key, d.target.id, d.count⟩ d.now else
    (e, none)

end Detection

/-- The state that detections leave, and what they fired, the last one first. -/
def detectionRun (ds : List Detection) : ReactionState × List Spell :=
  ds.foldl (fun w d =>
    ((d.observe w.1).1, ((d.observe w.1).2.map fun event => Spell.mk event.key event.window d.now).toList ++
      w.2))
    ({}, [])

theorem detectionRun_append (ds : List Detection) (d : Detection) : detectionRun (ds ++ [d]) =
    ((d.observe (detectionRun ds).1).1,
      ((d.observe (detectionRun ds).1).2.map fun event => Spell.mk event.key event.window d.now).toList ++
        (detectionRun ds).2) :=
  List.foldl_concat ..

def groupSamples (key : String) (ds : List Detection) : List ReactionSample :=
  (ds.filter fun d => d.Recorded ∧ d.key = key).map Detection.sample

/-- The samples of the group of a detection, itself included, that lie in the window it ends. -/
def windowOf (before : List Detection) (d : Detection) : List ReactionSample :=
  (groupSamples d.key (before ++ [d])).filter fun s => d.now - d.rule.windowOrDefault ≤ s.sampledAt ∧
    s.sampledAt ≤ d.now

def windowTotal (samples : List ReactionSample) : Int := (samples.map ReactionSample.count).sum

namespace ReactionState

variable {e : ReactionState}

/-- An observation keeps the samples of the window, and goes by their total. -/
theorem observeDetection_window (rule : DetectionRule) (o : DetectionObservation) (now : Time) :
    let kept := ((e.windows.lookup o.key).getD [] ++ [(⟨now, o.count⟩ : ReactionSample)]).filter fun s =>
      now - rule.windowOrDefault ≤ s.sampledAt
    (e.observeDetection rule o now).1.windows = e.windows.insert o.key kept ∧
    (∀ event ∈ (e.observeDetection rule o now).2, event.count = windowTotal kept) ∧
    (windowTotal kept < rule.thresholdOrDefault → (e.observeDetection rule o now).2 = none) := by
  intro kept
  unfold observeDetection
  dsimp only
  split_ifs with hbelow
  · exact ⟨rfl, fun _ h => (by cases h), fun _ => rfl⟩
  · exact ⟨rfl, fun _ h => (by cases h), fun _ => rfl⟩
  · refine ⟨rfl, fun event h => ?_, fun hlt => absurd hlt hbelow⟩
    obtain rfl := Option.some.inj h
    rfl
  · exact ⟨rfl, fun _ h => (by cases h), fun _ => rfl⟩

end ReactionState

section Runs

variable {before : List Detection} {d : Detection} {key : String} {window : Duration}

theorem groupSamples_append (key : String) (before : List Detection) (d : Detection) :
    groupSamples key (before ++ [d]) =
      groupSamples key before ++ if d.Recorded ∧ d.key = key then [d.sample] else [] := by
  unfold groupSamples
  rw [List.filter_append, List.map_append]
  by_cases h : d.Recorded ∧ d.key = key <;> simp [h]

/-- Of the samples no older than every window of a group began, the state holds each that was recorded. -/
theorem detectionRun_windows (ds : List Detection)
    (hwindow : ∀ d ∈ ds, d.key = key → d.rule.windowOrDefault = window)
    {cutoff : Time} (hcutoff : ∀ d ∈ ds, d.key = key → d.now - window ≤ cutoff) :
    (((detectionRun ds).1.windows.lookup key).getD []).filter (fun s => cutoff ≤ s.sampledAt) =
      (groupSamples key ds).filter fun s => cutoff ≤ s.sampledAt := by
  induction ds using List.reverseRecOn with
  | nil => rfl
  | append_singleton ds d ih =>
    have ih := ih (fun q hq => hwindow q (List.mem_append_left _ hq)) fun q hq =>
        hcutoff q (List.mem_append_left _ hq)
    have hd : d ∈ ds ++ [d] := by simp
    rw [detectionRun_append, groupSamples_append, List.filter_append, ← ih]
    dsimp only
    unfold Detection.observe
    by_cases hrecorded : d.Recorded
    · rw [if_pos hrecorded, (ReactionState.observeDetection_window _ _ _).1]
      by_cases hkey : d.key = key
      · have hlater := hcutoff d hd hkey
        rw [← hwindow d hd hkey] at hlater
        rw [if_pos ⟨hrecorded, hkey⟩, hkey, AList.lookup_insert, Option.getD_some, List.filter_filter,
          ← List.filter_append]
        refine List.filter_congr fun s _ => ?_
        simp only [Bool.and_eq_left_iff_imp, decide_eq_true_eq]
        exact hlater.trans
      · rw [if_neg (fun h => hkey h.2), AList.lookup_insert_ne (Ne.symm hkey)]
        simp
    · rw [if_neg hrecorded, if_neg (fun h => hrecorded h.1)]
      simp

/-- What an observation goes by: it leaves the samples as the window, and fires by their total. -/
structure CountsWindow (e : ReactionState) (d : Detection) (samples : List ReactionSample) : Prop where
  window : (d.observe e).1.windows.lookup d.key = some samples
  fired : ∀ event ∈ (d.observe e).2, event.count = windowTotal samples
  quiet : windowTotal samples < d.rule.thresholdOrDefault → (d.observe e).2 = none

theorem countsWindow (htimes : ∀ q ∈ before, q.now ≤ d.now)
    (hwindow : ∀ q ∈ before, q.key = d.key → q.rule.windowOrDefault = d.rule.windowOrDefault)
    (hd : d.Recorded) :
    CountsWindow (detectionRun before).1 d (windowOf before d) := by
  let old := ((detectionRun before).1.windows.lookup d.key).getD []
  have hold : old.filter (fun s => d.now - d.rule.windowOrDefault ≤ s.sampledAt) =
      (groupSamples d.key before).filter fun s => d.now - d.rule.windowOrDefault ≤ s.sampledAt :=
    detectionRun_windows before hwindow fun q hq _ => sub_le_sub_right (htimes q hq) _
  have hlate : ∀ s ∈ groupSamples d.key (before ++ [d]), s.sampledAt ≤ d.now := by
    intro s hs
    obtain ⟨q, hq, rfl⟩ := List.mem_map.mp hs
    rcases List.mem_append.mp (List.mem_of_mem_filter hq) with hq | hq
    · exact htimes q hq
    · rw [List.mem_singleton.mp hq]
      exact le_rfl
  have hkept : (old ++ [d.sample]).filter (fun s => d.now - d.rule.windowOrDefault ≤ s.sampledAt) =
      windowOf before d := by
    have hall : windowOf before d = (groupSamples d.key (before ++ [d])).filter fun s =>
        d.now - d.rule.windowOrDefault ≤ s.sampledAt :=
      List.filter_congr fun s hs => by simp [hlate s hs]
    rw [hall, groupSamples_append, if_pos ⟨hd, rfl⟩, List.filter_append, List.filter_append, hold]
  obtain ⟨hwindows, hfired, hquiet⟩ := (detectionRun before).1.observeDetection_window d.rule.toDetectionRule
    ⟨d.key, d.target.id, d.count⟩ d.now
  have hobserve : d.observe (detectionRun before).1 = (detectionRun before).1.observeDetection
      d.rule.toDetectionRule ⟨d.key, d.target.id, d.count⟩ d.now := if_pos hd
  rw [← hkept]
  constructor
  · rw [hobserve, hwindows, AList.lookup_insert]
    rfl
  · rw [hobserve]
    exact hfired
  · rw [hobserve]
    exact hquiet

theorem detectionRun_rateLimited (ds : List Detection) (hset : ∀ d ∈ ds, d.now ≠ 0) :
    RateLimited (detectionRun ds).2 (detectionRun ds).1.lastFire := by
  induction ds using List.reverseRecOn with
  | nil => exact ⟨List.Pairwise.nil, fun _ h => absurd h List.not_mem_nil⟩
  | append_singleton ds d ih =>
    have ih := ih fun q hq => hset q (List.mem_append_left _ hq)
    rw [detectionRun_append]
    unfold Detection.observe
    by_cases hrecorded : d.Recorded
    · rw [if_pos hrecorded]
      obtain ⟨-, -, hquiet | ⟨event, hevent, hkey, hwindow, hfire, hdue⟩⟩ :=
        (detectionRun ds).1.observeDetection_cases d.rule.toDetectionRule ⟨d.key, d.target.id, d.count⟩ d.now
      · rw [hquiet.1, hquiet.2]
        exact ih
      · rw [hevent, hfire]
        simp only [Option.map_some, Option.toList_some, List.singleton_append, hkey, hwindow]
        exact ih.add d.rule.windowOrDefault_pos.le (hset d (by simp)) hdue
    · rw [if_neg hrecorded]
      exact ih

theorem rule_id_eq {rule rule' : GroupedRule} {m m' : SourceTarget} (hid : '|' ∉ rule.id.toList)
    (hid' : '|' ∉ rule'.id.toList) (hkey : reactionDetectionKey rule m = reactionDetectionKey rule' m') :
    rule.id = rule'.id := by
  have hhead (rule : GroupedRule) (m : SourceTarget) :
      ∃ rest, reactionDetectionKey rule m = rule.id ++ "|" ++ rest := by
    unfold reactionDetectionKey
    have hbar : "|group_by|" = "|" ++ "group_by|" := by decide
    split_ifs
    · exact ⟨"group_by|" ++ joinText (rule.groupByValues m) "|", by simp only [hbar, String.append_assoc]⟩
    · exact ⟨rule.scopeOrDefault ++ "|" ++ m.id, by simp only [String.append_assoc]⟩
  obtain ⟨rest, hrest⟩ := hhead rule m
  obtain ⟨rest', hrest'⟩ := hhead rule' m'
  rw [hrest, hrest'] at hkey
  exact head_eq_of_append (d := '|') hid hid' hkey

end Runs

section Examples

def groupingRule (fields : List String) : GroupedRule where
  id := "denied"
  type := "access.denied_threshold"
  window := 900 * Duration.second
  threshold := 2
  scope := "source"
  groupBy := some (.strings fields)

def taggedTarget (sourceID : String) (attributes : List (String × String)) : SourceTarget where
  sourceID := sourceID
  attributes := GoMap.ofList attributes

def deniedAt (now : Time) : Detection :=
  ⟨groupingRule ["resource.id"], taggedTarget "10.0.0.1" [("resource.id", "shop")], true, 1, now⟩

end Examples

end Kernloom
