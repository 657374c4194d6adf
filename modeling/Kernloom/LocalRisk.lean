import Kernloom.GoValue
import Kernloom.Grouping

/-! Local risk. The signals of a window are grouped by their subjects, and each group is one assessment:
its score is the highest of the group, and it holds until the first of the signals expires. -/

namespace Kernloom

open Grouping

section Signals

structure SignalSubject where
  kind : String := ""
  id : String := ""
  ns : String := ""
  deriving DecidableEq

structure Signal where
  id : String := ""
  time : Time := 0
  type : String := ""
  subject : SignalSubject := {}
  score : Int := 50
  confidence : Int := 50
  ttl : Duration := 15 * 60 * Duration.second
  reasonCodes : List String := []
  attributes : GoMap String := ∅

/-- The zero time where a signal does not expire. -/
def Signal.expiresAt (s : Signal) : Time := if s.ttl ≤ 0 then 0 else s.time + s.ttl

abbrev ofSubject (id : String) (signals : List Signal) : List Signal := signals.filter fun s => s.subject.id = id

theorem ofSubject_append (id : String) (signals signals' : List Signal) :
    ofSubject id (signals ++ signals') = ofSubject id signals ++ ofSubject id signals' := List.filter_append ..

end Signals

section Aggregation

/-- The aggregate of one subject. -/
structure RiskResult where
  subjectID : String
  topSignal : Signal
  allSignals : List Signal
  shadowRisk : Int

def higherSignal (top s : Signal) : Signal := if top.score < s.score then s else top

/-- The loop over the groups; a group has a first signal. -/
def aggregateMaxScore (order : Listing (Σ _ : String, List Signal)) (signals : List Signal) : List RiskResult :=
  (order.arrange (groupBy (fun s : Signal => s.subject.id) signals).entries).filterMap fun
    | ⟨_, []⟩ => none
    | ⟨subjectID, first :: rest⟩ =>
      let top := rest.foldl higherSignal first
      some ⟨subjectID, top, first :: rest, top.score⟩

end Aggregation

section Assessments

inductive RiskLevel
  | low | medium | high | critical
  deriving DecidableEq

def RiskLevel.rank : RiskLevel → Nat
  | .low => 0
  | .medium => 1
  | .high => 2
  | .critical => 3

structure RiskContribution where
  signalID : String
  signalType : String
  domain : String
  score : Int
  confidence : ℚ
  weight : ℚ

structure RiskConfig where
  model : String := "kliq.localrisk.v1"
  defaultTTL : Duration := 2 * 60 * Duration.second
  completeness : ℚ := 1

/-- The configuration with the defaults in place of what is not set. -/
def RiskConfig.withDefaults (cfg : RiskConfig) : RiskConfig where
  model := if cfg.model = "" then ({} : RiskConfig).model else cfg.model
  defaultTTL := if cfg.defaultTTL ≤ 0 then ({} : RiskConfig).defaultTTL else cfg.defaultTTL
  completeness := if cfg.completeness ≤ 0 then ({} : RiskConfig).completeness else cfg.completeness

structure Assessment where
  subjectID : String
  level : RiskLevel
  score : Int
  confidence : ℚ
  completeness : ℚ
  domains : List String
  contributions : List RiskContribution
  validUntil : Time
  model : String

def levelForScore (score : Int) : RiskLevel :=
  if 81 ≤ score then .critical else if 61 ≤ score then .high else if 31 ≤ score then .medium else .low

def clampScore (score : Int) : Int := if score < 0 then 0 else if 100 < score then 100 else score

def domainFor (sigType : String) : String :=
  let idx := sigType.toList.idxOf '.'
  if '.' ∈ sigType.toList ∧ 0 < idx then String.ofList (sigType.toList.take idx)
  else if sigType = "" then "unknown" else sigType

def contributionWeight (index total : Nat) : ℚ := if total = 0 then 0 else if index = 0 then 1 else 1 / total

def firstExpiry (validUntil : Time) (s : Signal) : Time :=
  if s.expiresAt ≠ 0 ∧ s.expiresAt < validUntil then s.expiresAt else validUntil

def fromAggregatorResult (result : RiskResult) (now : Time) (config : RiskConfig) : Assessment :=
  let cfg := config.withDefaults
  let total := result.allSignals.length
  { subjectID := result.subjectID
    level := levelForScore result.shadowRisk
    score := clampScore result.shadowRisk
    confidence := if total = 0 then 0 else (result.allSignals.map Signal.confidence).sum / total / 100
    completeness := cfg.completeness
    domains := ((result.allSignals.map fun s => domainFor s.type).dedup).insertionSort (· ≤ ·)
    contributions := result.allSignals.mapIdx fun i s =>
      ⟨s.id, s.type, domainFor s.type, s.score, s.confidence / 100, contributionWeight i total⟩
    validUntil := result.allSignals.foldl firstExpiry (now + cfg.defaultTTL)
    model := cfg.model }

def fromSignals (order : Listing (Σ _ : String, List Signal)) (signals : List Signal) (now : Time)
    (cfg : RiskConfig) : List Assessment :=
  (aggregateMaxScore order signals).map fun result => fromAggregatorResult result now cfg

end Assessments

section Scores

variable {sigs : List Signal}

theorem foldl_higherSignal (top : Signal) (sigs : List Signal) : sigs.foldl higherSignal top ∈ top :: sigs ∧
    ∀ s ∈ top :: sigs, s.score ≤ (sigs.foldl higherSignal top).score := by
  induction sigs generalizing top with
  | nil => simp
  | cons s sigs ih =>
    obtain ⟨hmem, hle⟩ := ih (higherSignal top s)
    have hor : higherSignal top s = s ∨ higherSignal top s = top := by
      unfold higherSignal
      split_ifs
      · exact .inl rfl
      · exact .inr rfl
    have hboth : top.score ≤ (higherSignal top s).score ∧ s.score ≤ (higherSignal top s).score := by
      unfold higherSignal
      split_ifs with h <;> omega
    have htop := hle _ List.mem_cons_self
    constructor
    · rw [List.foldl_cons]
      rcases List.mem_cons.mp hmem with h | h
      · rw [h]
        rcases hor with heq | heq <;> rw [heq] <;> simp
      · exact List.mem_cons_of_mem _ (List.mem_cons_of_mem _ h)
    · intro s' hs'
      rw [List.foldl_cons]
      rcases List.mem_cons.mp hs' with rfl | hs'
      · exact hboth.1.trans htop
      rcases List.mem_cons.mp hs' with rfl | hs'
      · exact hboth.2.trans htop
      · exact hle s' (List.mem_cons_of_mem _ hs')

theorem clampScore_mono : Monotone clampScore := by
  intro a b h
  unfold clampScore
  split_ifs <;> omega

theorem levelForScore_clamp (score : Int) : levelForScore (clampScore score) = levelForScore score := by
  unfold levelForScore clampScore
  split_ifs <;> first | rfl | omega

theorem levelForScore_mono {a b : Int} (h : a ≤ b) : (levelForScore a).rank ≤ (levelForScore b).rank := by
  unfold levelForScore
  split_ifs <;> first | decide | omega

/-- The times at which the signals expire. -/
def expiries (sigs : List Signal) : Set Time := {t | ∃ s ∈ sigs, s.expiresAt ≠ 0 ∧ s.expiresAt = t}

theorem foldl_firstExpiry (limit : Time) : IsLeast (insert limit (expiries sigs)) (sigs.foldl firstExpiry limit) := by
  induction sigs generalizing limit with
  | nil => exact ⟨Set.mem_insert _ _, fun t ht => by
      rcases ht with rfl | ⟨s, hs, -⟩
      · exact le_rfl
      · exact absurd hs List.not_mem_nil⟩
  | cons s sigs ih =>
    obtain ⟨hmem, hle⟩ := ih (firstExpiry limit s)
    have hsplit : insert limit (expiries (s :: sigs)) ⊇ insert (firstExpiry limit s) (expiries sigs) := by
      rintro t (rfl | ⟨s', hs', hne, rfl⟩)
      · unfold firstExpiry
        split_ifs with h
        · exact .inr ⟨s, List.mem_cons_self, h.1, rfl⟩
        · exact .inl rfl
      · exact .inr ⟨s', List.mem_cons_of_mem _ hs', hne, rfl⟩
    refine ⟨hsplit hmem, fun t ht => ?_⟩
    have hfirst := hle (Set.mem_insert _ _)
    rw [List.foldl_cons]
    rcases ht with rfl | ⟨s', hs', hne, rfl⟩
    · refine hfirst.trans ?_
      unfold firstExpiry
      split_ifs with h
      · exact h.2.le
      · exact le_rfl
    · rcases List.mem_cons.mp hs' with rfl | hs'
      · refine hfirst.trans ?_
        unfold firstExpiry
        split_ifs with h
        · exact le_rfl
        · exact not_lt.mp fun hlt => h ⟨hne, hlt⟩
      · exact hle (.inr ⟨s', hs', hne, rfl⟩)

end Scores

section Subjects

variable {order order' : Listing (Σ _ : String, List Signal)} {sigs sigs' signals signals' : List Signal}
  {now : Time} {cfg : RiskConfig} {a a' : Assessment}

def RiskResult.of (subjectID : String) (first : Signal) (rest : List Signal) : RiskResult :=
  ⟨subjectID, rest.foldl higherSignal first, first :: rest, (rest.foldl higherSignal first).score⟩

theorem mem_aggregateMaxScore {r : RiskResult} : r ∈ aggregateMaxScore order signals ↔
    ∃ first rest, ofSubject r.subjectID signals = first :: rest ∧ r = .of r.subjectID first rest := by
  unfold aggregateMaxScore
  rw [List.mem_filterMap]
  constructor
  · rintro ⟨⟨k, g⟩, hg, hr⟩
    obtain ⟨hgroup, hne⟩ := mem_groupBy.mp (order.mem.mp hg)
    cases g with
    | nil => exact absurd rfl hne
    | cons first rest =>
      obtain rfl := Option.some.inj hr
      exact ⟨first, rest, hgroup.symm, rfl⟩
  · rintro ⟨first, rest, hgroup, hr⟩
    refine ⟨⟨r.subjectID, first :: rest⟩, order.mem.mpr (mem_groupBy.mpr ⟨hgroup.symm, List.cons_ne_nil _ _⟩), ?_⟩
    rw [hr]
    rfl

theorem subjectID_filterMap_sublist {f : (Σ _ : String, List Signal) → Option RiskResult}
    (hf : ∀ g r, f g = some r → r.subjectID = g.1) (groups : List (Σ _ : String, List Signal)) :
    ((groups.filterMap f).map RiskResult.subjectID).Sublist (groups.map Sigma.fst) := by
  induction groups with
  | nil => exact .slnil
  | cons g groups ih =>
    rw [List.filterMap_cons]
    cases hr : f g with
    | none => exact ih.cons _
    | some r =>
      rw [List.map_cons, List.map_cons, hf g r hr]
      exact ih.cons_cons _

theorem aggregate_subjects_nodup : ((aggregateMaxScore order signals).map RiskResult.subjectID).Nodup := by
  have hkeys : ((groupBy (fun s : Signal => s.subject.id) signals).entries.map Sigma.fst).Nodup :=
    (groupBy _ signals).nodupKeys
  refine (subjectID_filterMap_sublist ?_ _).nodup (((order.perm _).map _).nodup_iff.mpr hkeys)
  rintro ⟨k, g⟩ r hr
  cases g with
  | nil => cases hr
  | cons first rest =>
    obtain rfl := Option.some.inj hr
    rfl

/-- What an assessment says of the signals it was made of. -/
structure Assessment.RiskOf (a : Assessment) (sigs : List Signal) (now : Time) (cfg : RiskConfig) : Prop where
  score : IsGreatest ((fun s : Signal => clampScore s.score) '' {s | s ∈ sigs}) a.score
  level : a.level = levelForScore a.score
  validUntil : IsLeast (insert (now + cfg.withDefaults.defaultTTL) (expiries sigs)) a.validUntil
  domains : a.domains.Pairwise (· < ·) ∧ ∀ d, d ∈ a.domains ↔ ∃ s ∈ sigs, domainFor s.type = d
  confidence : a.confidence * sigs.length * 100 = (sigs.map Signal.confidence).sum
  contributions : a.contributions.map RiskContribution.signalID = sigs.map Signal.id

theorem riskOf_result {subjectID : String} {first : Signal} {rest : List Signal} :
    (fromAggregatorResult (.of subjectID first rest) now cfg).RiskOf (first :: rest) now cfg := by
  obtain ⟨hmem, hle⟩ := foldl_higherSignal first rest
  refine ⟨⟨⟨_, hmem, rfl⟩, ?_⟩, (levelForScore_clamp _).symm, foldl_firstExpiry _, ⟨?_, fun d => ?_⟩, ?_, ?_⟩
  · rintro _ ⟨s, hs, rfl⟩
    exact clampScore_mono (hle s hs)
  · have hsorted : (((first :: rest).map fun s => domainFor s.type).dedup.insertionSort (· ≤ ·)).Pairwise (· ≤ ·) :=
      List.pairwise_insertionSort _ _
    have hnodup := ((List.perm_insertionSort (· ≤ ·) ((first :: rest).map fun s => domainFor s.type).dedup).nodup_iff).mpr
      (List.nodup_dedup _)
    exact hsorted.imp₂ (fun _ _ hle hne => lt_of_le_of_ne hle hne) hnodup
  · simp only [fromAggregatorResult, RiskResult.of, List.mem_insertionSort, List.mem_dedup, List.mem_map]
  · have hlength : ((first :: rest).length : ℚ) ≠ 0 := Nat.cast_ne_zero.mpr (Nat.succ_ne_zero _)
    have hconfidence : (fromAggregatorResult (.of subjectID first rest) now cfg).confidence =
        ((first :: rest).map Signal.confidence).sum / ((first :: rest).length : ℚ) / 100 := rfl
    rw [hconfidence, div_right_comm, div_mul_cancel₀ _ hlength, div_mul_cancel₀ _ (by norm_num)]
  · refine List.ext_getElem? fun i => ?_
    simp only [fromAggregatorResult, RiskResult.of, List.getElem?_map, List.getElem?_mapIdx, Option.map_map]
    rfl

theorem Assessment.RiskOf.mono (h : a.RiskOf sigs now cfg) (h' : a'.RiskOf sigs' now cfg) (hsub : sigs ⊆ sigs') :
    a.score ≤ a'.score ∧ a.level.rank ≤ a'.level.rank ∧ a'.validUntil ≤ a.validUntil ∧ a.domains ⊆ a'.domains := by
  have hscore : a.score ≤ a'.score := by
    obtain ⟨s, hs, hscore⟩ := h.score.1
    exact h'.score.2 ⟨s, hsub hs, hscore⟩
  have hvalid : a'.validUntil ≤ a.validUntil := by
    refine h'.validUntil.2 ?_
    rcases h.validUntil.1 with hnow | ⟨s, hs, hne, hexpires⟩
    · exact .inl hnow
    · exact .inr ⟨s, hsub hs, hne, hexpires⟩
  refine ⟨hscore, ?_, hvalid, fun d hd => ?_⟩
  · rw [h.level, h'.level]
    exact levelForScore_mono hscore
  · obtain ⟨s, hs, hdomain⟩ := (h.domains.2 d).mp hd
    exact (h'.domains.2 d).mpr ⟨s, hsub hs, hdomain⟩

theorem map_subjectID : (fromSignals order signals now cfg).map Assessment.subjectID =
    (aggregateMaxScore order signals).map RiskResult.subjectID := by
  rw [fromSignals, List.map_map]
  rfl

theorem fromSignals_nodup : ((fromSignals order signals now cfg).map Assessment.subjectID).Nodup :=
  map_subjectID ▸ aggregate_subjects_nodup

theorem mem_assessed {id : String} : id ∈ (fromSignals order signals now cfg).map Assessment.subjectID ↔
    ∃ s ∈ signals, s.subject.id = id := by
  rw [map_subjectID, List.mem_map]
  constructor
  · rintro ⟨r, hr, rfl⟩
    obtain ⟨first, rest, hgroup, -⟩ := mem_aggregateMaxScore.mp hr
    have hfirst : first ∈ ofSubject r.subjectID signals := hgroup ▸ List.mem_cons_self
    exact ⟨first, (List.mem_filter.mp hfirst).1, of_decide_eq_true (List.mem_filter.mp hfirst).2⟩
  · rintro ⟨s, hs, rfl⟩
    have hmem : s ∈ ofSubject s.subject.id signals := List.mem_filter.mpr ⟨hs, decide_eq_true rfl⟩
    obtain ⟨first, rest, hgroup⟩ := List.exists_cons_of_ne_nil (List.ne_nil_of_mem hmem)
    exact ⟨.of s.subject.id first rest, mem_aggregateMaxScore.mpr ⟨first, rest, hgroup, rfl⟩, rfl⟩

theorem riskOf_of_mem (h : a ∈ fromSignals order signals now cfg) :
    a.RiskOf (ofSubject a.subjectID signals) now cfg := by
  obtain ⟨r, hr, rfl⟩ := List.mem_map.mp h
  obtain ⟨first, rest, hgroup, heq⟩ := mem_aggregateMaxScore.mp hr
  have hid : (fromAggregatorResult r now cfg).subjectID = r.subjectID := rfl
  rw [hid, hgroup, heq]
  exact riskOf_result

/-- A group of one subject is one assessment. -/
theorem fromSignals_of_group (order : Listing (Σ _ : String, List Signal)) (now : Time) (cfg : RiskConfig)
    {id : String} (hne : sigs ≠ []) (hid : ∀ s ∈ sigs, s.subject.id = id) :
    ∃ a, fromSignals order sigs now cfg = [a] ∧ a.subjectID = id ∧ a.RiskOf sigs now cfg := by
  have hsubjects : ∀ id', id' ∈ (fromSignals order sigs now cfg).map Assessment.subjectID ↔ id' ∈ [id] := by
    intro id'
    rw [mem_assessed, List.mem_singleton]
    constructor
    · rintro ⟨s, hs, rfl⟩
      exact hid s hs
    · rintro rfl
      obtain ⟨s, hs⟩ := List.exists_mem_of_ne_nil sigs hne
      exact ⟨s, hs, hid s hs⟩
  have hone := List.perm_singleton.mp
    ((List.perm_ext_iff_of_nodup fromSignals_nodup (List.nodup_singleton id)).mpr hsubjects)
  obtain ⟨a, ha, hida⟩ := List.map_eq_singleton_iff.mp hone
  have hgroup : ofSubject a.subjectID sigs = sigs := List.filter_eq_self.mpr fun s hs =>
    decide_eq_true ((hid s hs).trans hida.symm)
  have hrisk := riskOf_of_mem (ha ▸ List.mem_singleton_self a : a ∈ fromSignals order sigs now cfg)
  rw [hgroup] at hrisk
  exact ⟨a, ha, hida, hrisk⟩

/-- Every subject of the signals has one assessment, made of its own signals alone and in whatever order
the groups are gone through. More signals on it only raise its score and shorten its time. -/
theorem local_risk : ((fromSignals order signals now cfg).map Assessment.subjectID).Nodup ∧
    (∀ id, id ∈ (fromSignals order signals now cfg).map Assessment.subjectID ↔ ∃ s ∈ signals, s.subject.id = id) ∧
    ∀ a ∈ fromSignals order signals now cfg, a.RiskOf (ofSubject a.subjectID signals) now cfg ∧
      ∀ signals', ofSubject a.subjectID signals ⊆ signals' → ∀ a' ∈ fromSignals order' signals' now cfg,
        a'.subjectID = a.subjectID → a.score ≤ a'.score ∧ a.level.rank ≤ a'.level.rank ∧
          a'.validUntil ≤ a.validUntil ∧ a.domains ⊆ a'.domains := by
  refine ⟨fromSignals_nodup, fun id => mem_assessed, fun a ha => ⟨riskOf_of_mem ha, ?_⟩⟩
  intro signals' hsub a' ha' hid
  have hrisk' := riskOf_of_mem ha'
  rw [hid] at hrisk'
  exact (riskOf_of_mem ha).mono hrisk' fun s hs => List.mem_filter.mpr ⟨hsub hs, (List.mem_filter.mp hs).2⟩

end Subjects

end Kernloom
