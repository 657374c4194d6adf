import Kernloom.BaselineTable
import Kernloom.FlushResult
import Kernloom.SourceBaseline
import Kernloom.Transition

/-! The per-source baselines over the state store: what their flushes keep. -/

namespace Kernloom

open Keyed Transition WriteBehind

def sourceBaselineWindowSeconds (interval : Duration) : Int :=
  if interval ≤ 0 then 1
  else if interval / Duration.second < 1 then 1
  else interval / Duration.second

/-- The rates of a profile under their metric IDs. -/
def sourceBaselineMetrics (p : SourceProfile) : List (String × RateBaseline) :=
  [("network.packets_per_second", p.pps), ("network.bytes_per_second", p.bps), ("network.syn_rate", p.syn),
    ("network.scan_rate", p.scan)]

def sourceBaselineRow (snapshot : SourceSnapshot) (windowSeconds : Int) (metric : String × RateBaseline) :
    BaselineRow where
  key :=
    { metricID := metric.1
      scopeType := "source"
      scopeID := "klshield-source"
      subjectEntityID := snapshot.sourceID
      sourceClass := "xdp"
      visibilityPoint := "pre_stack_ingress"
      measurementType := "counter_delta"
      truthClass := "primary_packet_observation"
      windowSeconds := windowSeconds }
  state := if snapshot.profile.promoted then "learned" else "candidate"
  ewmaState := [("ewma", metric.2.ewma), ("baseline", metric.2.ewma), ("peak", metric.2.peak),
    ("global_trigger", metric.2.globalTrigger), ("effective_trigger", metric.2.effectiveTrigger),
    ("confidence", snapshot.profile.confidence), ("windows", snapshot.profile.windows)]
  observations := snapshot.profile.obsCount
  lastUpdated := snapshot.profile.lastSeen
  createdAt := snapshot.profile.firstSeen

def sourceBaselineRows (snapshot : SourceSnapshot) (windowSeconds : Int) : List BaselineRow :=
  if snapshot.sourceID = "" ∨ snapshot.profile.obsCount = 0 then []
  else (sourceBaselineMetrics snapshot.profile).map (sourceBaselineRow snapshot windowSeconds)

variable (sha256 : String → String) (interval : Duration)

namespace SourceBaselines

/-- The rows that a flush writes, and the cache without its marks. -/
def flushRows (all : Bool) (c : SourceBaselines) : List BaselineRow × SourceBaselines :=
  let dirty := c.snapshotDirty
  let snapshots := if all then dirty.2.snapshot else dirty.1
  (snapshots.flatMap fun s => sourceBaselineRows s (sourceBaselineWindowSeconds interval), dirty.2)

/-- A flush that makes the writes `attempts`, each with whether the store fails it. -/
def flushRuntimeSourceBaselines (all : Bool) (now : Time) (attempts : List (BaselineRow × Bool))
    (t : BaselineTable)
    (c : SourceBaselines) : SourceBaselines × BaselineTable × FlushResult :=
  let out := writeAll (BaselineTable.upsertBaseline sha256 now) t attempts
  ((c.flushRows interval all).2, out.1, (out.2.map Prod.snd).foldl FlushResult.countRow {})

end SourceBaselines

structure SourceStore where
  cache : SourceBaselines
  rows : BaselineTable
  /-- The keys of the rows whose last write failed. -/
  failed : List BaselineKey

inductive SourceStoreEvent
  | update (srcIP : String) (pps bps syn scan : Rat) (isSuspicious : Bool) (now clock : Time)
  | trigger (rate : SourceBaselines.Rate) (srcIP : String) (globalTrig : Rat)
  | flush (all : Bool) (now : Time) (attempts : List (BaselineRow × Bool))

namespace SourceStore

def start (cfg : SourceBaselineConfig) : SourceStore := ⟨.new cfg, .empty, []⟩

/-- What became of the writes of a flush. -/
def outcomes (w : SourceStore) (now : Time) (attempts : List (BaselineRow × Bool)) :
    List (BaselineRow × Bool) :=
  (writeAll (BaselineTable.upsertBaseline sha256 now) w.rows attempts).2

/-- A flush writes its rows in any order. -/
def step (w : SourceStore) : SourceStoreEvent → Option SourceStore
  | .update srcIP pps bps syn scan isSuspicious now clock =>
    some { w with cache := w.cache.update srcIP pps bps syn scan isSuspicious now clock }
  | .trigger rate srcIP globalTrig => some { w with cache := (w.cache.effectiveTrig rate srcIP globalTrig).2 }
  | .flush all now attempts =>
    if (attempts.map Prod.fst).Perm (w.cache.flushRows interval all).1 then some { w with
      cache := (w.cache.flushRuntimeSourceBaselines sha256 interval all now attempts w.rows).1
      rows := (w.cache.flushRuntimeSourceBaselines sha256 interval all now attempts w.rows).2.1
      failed := failedAfter BaselineRow.key w.failed (w.outcomes sha256 now attempts) }
    else none

abbrev Step (w : SourceStore) (e : SourceStoreEvent) (w' : SourceStore) : Prop :=
    w.step sha256 interval e = some w'

/-- Every profile is stored as it is, in the rows of its four rates, with the time it was made. -/
def Saved (w : SourceStore) : Prop :=
  ∀ id, ∀ p ∈ w.cache.profiles.lookup id,
    (∀ metric ∈ sourceBaselineMetrics p,
      w.rows.Holds (sourceBaselineRow ⟨id, p⟩ (sourceBaselineWindowSeconds interval) metric)) ∧
    ∀ row ∈ w.rows, row.key.subjectEntityID = id → row.createdAt = p.firstSeen

/-- Sources have names, and a flush without a failure writes whatever had failed. -/
def Fits (w : SourceStore) : SourceStoreEvent → Prop
  | .update srcIP _ _ _ _ _ now _ => srcIP ≠ "" ∧ now ≠ 0
  | .trigger _ _ _ => True
  | .flush all now attempts => (∀ o ∈ w.outcomes sha256 now attempts, o.2 = false) →
      all = true ∨ ∀ k ∈ w.failed, k.subjectEntityID ∈ w.cache.dirty

def view (w : SourceStore) : View BaselineKey BaselineRow where
  memory := { row | ∃ id, ∃ p ∈ w.cache.profiles.lookup id, ∃ metric ∈ sourceBaselineMetrics p,
    sourceBaselineRow ⟨id, p⟩ (sourceBaselineWindowSeconds interval) metric = row }
  marked := { k | k.subjectEntityID ∈ w.cache.dirty }
  failed := { k | k ∈ w.failed }
  stored := { row | w.rows.Holds row }

/-- What holds of the profile of every source. -/
structure ValidProfile (id : String) (p : SourceProfile) : Prop where
  name : id ≠ ""
  obsCount : p.obsCount ≠ 0
  lastSeen : p.lastSeen ≠ 0
  firstSeen : p.firstSeen ≠ 0

/-- Each profile is marked at most once, the rows were made when their profiles were, and what is
neither marked nor failed is stored. -/
structure Inv (w : SourceStore) : Prop where
  profiles : ∀ id, ∀ p ∈ w.cache.profiles.lookup id, ValidProfile id p
  marks : w.cache.dirty.Nodup
  created : ∀ row ∈ w.rows, ∃ p ∈ w.cache.profiles.lookup row.key.subjectEntityID, row.createdAt = p.firstSeen
  kept : (w.view interval).Kept BaselineRow.key

variable {sha256 interval} {w w' : SourceStore}

theorem start_inv (cfg : SourceBaselineConfig) : (start cfg).Inv interval where
  profiles _ _ hp := by cases hp
  marks := List.nodup_nil
  created _ hrow := absurd hrow Table.not_mem_empty
  kept := by
    rintro _ ⟨id, p, hp, -⟩
    cases hp

theorem metrics_nodup (p : SourceProfile) : ((sourceBaselineMetrics p).map Prod.fst).Nodup := by
  simp [sourceBaselineMetrics]

theorem row_inj {id id' : String} {p p' : SourceProfile} {windowSeconds : Int}
    {metric metric' : String × RateBaseline}
    (hp : w.cache.profiles.lookup id = some p) (hp' : w.cache.profiles.lookup id' = some p')
    (hm : metric ∈ sourceBaselineMetrics p) (hm' : metric' ∈ sourceBaselineMetrics p')
    (hkey : (sourceBaselineRow ⟨id, p⟩ windowSeconds metric).key =
    (sourceBaselineRow ⟨id', p'⟩ windowSeconds metric').key) :
    sourceBaselineRow ⟨id, p⟩ windowSeconds metric = sourceBaselineRow ⟨id', p'⟩ windowSeconds metric' := by
  obtain rfl : id = id' := congrArg BaselineKey.subjectEntityID hkey
  obtain rfl : p = p' := Option.some.inj (hp.symm.trans hp')
  rw [List.inj_on_of_nodup_map (metrics_nodup p) hm hm' (congrArg BaselineKey.metricID hkey)]

/-- What a change of one profile does: it puts a profile with a name, and marks it unless it is the
one that was there. -/
theorem Inv.change {srcIP : String} {p : SourceProfile} {cache : SourceBaselines} (h : w.Inv interval)
    (hp : ValidProfile srcIP p) (hfirst : ∀ p₀ ∈ w.cache.profiles.lookup srcIP, p.firstSeen = p₀.firstSeen)
    (hprofiles : cache.profiles = w.cache.profiles.insert srcIP p)
    (hdirty : cache.dirty = w.cache.dirty.insert srcIP ∨
      (cache.dirty = w.cache.dirty ∧ w.cache.profiles.lookup srcIP = some p)) :
    Inv interval { w with cache := cache } := by
  have hmarks : cache.dirty.Nodup ∧ w.cache.dirty ⊆ cache.dirty := by
    rcases hdirty with hdirty | ⟨hdirty, -⟩
    · rw [hdirty]
      exact ⟨h.marks.insert, fun _ hid => List.mem_insert_of_mem hid⟩
    · rw [hdirty]
      exact ⟨h.marks, fun _ hid => hid⟩
  refine ⟨fun id p' hp' => ?_, hmarks.1, fun row hrow => ?_, h.kept.touches ⟨?_, ?_, ?_⟩⟩
  · rw [hprofiles] at hp'
    by_cases hid : id = srcIP
    · rw [hid, AList.lookup_insert] at hp'
      obtain rfl := Option.some.inj hp'
      exact hid ▸ hp
    · rw [AList.lookup_insert_ne hid] at hp'
      exact h.profiles id p' hp'
  · obtain ⟨p₀, hp₀, hcreated⟩ := h.created row hrow
    rw [hprofiles]
    by_cases hid : row.key.subjectEntityID = srcIP
    · rw [hid] at hp₀ ⊢
      exact ⟨p, AList.lookup_insert _, hcreated.trans (hfirst p₀ hp₀).symm⟩
    · exact ⟨p₀, (AList.lookup_insert_ne hid).trans hp₀, hcreated⟩
  · rintro _ ⟨id, p', hp', metric, hm, rfl⟩ hclean
    refine ⟨⟨id, p', ?_, metric, hm, rfl⟩, fun hmark => hclean (hmarks.2 hmark)⟩
    rw [hprofiles] at hp'
    by_cases hid : id = srcIP
    · rw [hid, AList.lookup_insert] at hp'
      rcases hdirty with hdirty | ⟨-, hold⟩
      · refine absurd ?_ hclean
        show id ∈ cache.dirty
        rw [hdirty, hid]
        exact List.mem_insert_self
      · rw [hid]
        exact hold.trans hp'
    · rwa [AList.lookup_insert_ne hid] at hp'
  · exact subset_rfl
  · exact fun _ _ _ hstored => hstored

theorem Inv.update {srcIP : String} {pps bps syn scan : Rat} {isSuspicious : Bool} {now clock : Time}
    (h : w.Inv interval) (hfit : w.Fits sha256 (.update srcIP pps bps syn scan isSuspicious now clock))
    (hstep : w.Step sha256 interval (.update srcIP pps bps syn scan isSuspicious now clock) w') :
    w'.Inv interval := by
  obtain rfl := Option.some.inj hstep
  obtain ⟨hname, hnow⟩ := hfit
  have hobserved (p : SourceProfile) (hfirst : p.firstSeen ≠ 0) :
      ValidProfile srcIP (p.observe w.cache.cfg pps bps syn scan now clock) := by
    obtain ⟨hobs, hlast, hsame⟩ := SourceProfile.observe_frame w.cache.cfg pps bps syn scan now clock p
    exact ⟨hname, hobs.trans_ne (Nat.succ_ne_zero _), hlast.trans_ne hnow, hsame.trans_ne hfirst⟩
  unfold SourceBaselines.update
  split
  · exact h
  · split
    · exact h
    · split
      · next p hp =>
        refine h.change (hobserved p (h.profiles _ p hp).firstSeen) (fun p₀ hp₀ => ?_) rfl (.inl rfl)
        rw [(SourceProfile.observe_frame _ _ _ _ _ _ _ p).2.2, Option.some.inj (hp.symm.trans hp₀)]
      · next hnone =>
        split
        · exact h
        · refine h.change (hobserved _ hnow) (fun p₀ hp₀ => ?_) rfl (.inl rfl)
          cases hnone.symm.trans hp₀

theorem Inv.record {srcIP : String} {p : SourceProfile} {globalTrig effectiveTrig : Rat}
    {rate : SourceBaselines.Rate}
    (h : w.Inv interval) (hp : w.cache.profiles.lookup srcIP = some p) :
    Inv interval { w with cache := w.cache.recordTriggerLocked srcIP p globalTrig effectiveTrig rate } := by
  obtain ⟨hobs, hlast, hsame⟩ := rate.record_frame globalTrig effectiveTrig p
  have hold := h.profiles srcIP p hp
  have hvalid : ValidProfile srcIP (rate.record globalTrig effectiveTrig p) :=
    ⟨hold.name, hobs.trans_ne hold.obsCount, hlast.trans_ne hold.lastSeen, hsame.trans_ne hold.firstSeen⟩
  have hfirst : ∀ p₀ ∈ w.cache.profiles.lookup srcIP,
      (rate.record globalTrig effectiveTrig p).firstSeen = p₀.firstSeen := by
    intro p₀ hp₀
    rw [hsame, Option.some.inj (hp.symm.trans hp₀)]
  unfold SourceBaselines.recordTriggerLocked
  dsimp only
  split
  · exact h.change hvalid hfirst rfl (.inl rfl)
  · next hunchanged =>
    have heq := SourceBaselines.Rate.record_eq (not_ne_iff.mp hunchanged)
    exact h.change hvalid hfirst rfl (.inr ⟨rfl, hp.trans (congrArg some heq.symm)⟩)

theorem Inv.trigger {rate : SourceBaselines.Rate} {srcIP : String} {globalTrig : Rat} (h : w.Inv interval)
    (hstep : w.Step sha256 interval (.trigger rate srcIP globalTrig) w') : w'.Inv interval := by
  obtain rfl := Option.some.inj hstep
  unfold SourceBaselines.effectiveTrig SourceBaselines.recordDisabledTrigger SourceBaselines.effectiveTrigger
  cases hp : w.cache.profiles.lookup srcIP with
  | none =>
    dsimp only
    split <;> exact h
  | some p =>
    dsimp only
    split_ifs <;> exact h.record hp

theorem snapshotDirty_eq (c : SourceBaselines) : c.snapshotDirty =
    (c.dirty.filterMap fun id => (c.profiles.lookup id).map (SourceSnapshot.mk id),
    { c with dirty := [] }) := by
  unfold SourceBaselines.snapshotDirty
  split
  · next hclean =>
    refine Prod.ext ?_ ?_
    · rw [hclean]
      rfl
    · show c = ⟨c.cfg, c.profiles, []⟩
      rw [← hclean]
  · rfl

/-- The snapshots that a flush writes the rows of. -/
def snapshots (all : Bool) (w : SourceStore) : List SourceSnapshot :=
  if all then w.cache.snapshot
  else w.cache.dirty.filterMap fun id => (w.cache.profiles.lookup id).map (SourceSnapshot.mk id)

theorem flushRows_eq (all : Bool) : w.cache.flushRows interval all =
    ((w.snapshots all).flatMap fun s => sourceBaselineRows s (sourceBaselineWindowSeconds interval),
      { w.cache with dirty := [] }) := by
  unfold SourceBaselines.flushRows snapshots
  rw [snapshotDirty_eq]
  rfl

theorem mem_snapshots {all : Bool} {s : SourceSnapshot} : s ∈ w.snapshots all ↔
    w.cache.profiles.lookup s.sourceID = some s.profile ∧ (all = true ∨ s.sourceID ∈ w.cache.dirty) := by
  unfold snapshots
  cases all with
  | true =>
    simp only [if_true, SourceBaselines.snapshot, List.mem_map, true_or, and_true]
    constructor
    · rintro ⟨e, he, rfl⟩
      exact AList.mem_lookup_iff.mpr he
    · exact fun hp => ⟨⟨s.sourceID, s.profile⟩, AList.mem_lookup_iff.mp hp, rfl⟩
  | false =>
    simp only [Bool.false_eq_true, if_false, List.mem_filterMap, Option.map_eq_some_iff, false_or]
    constructor
    · rintro ⟨id, hid, p, hp, rfl⟩
      exact ⟨hp, hid⟩
    · exact fun ⟨hp, hid⟩ => ⟨s.sourceID, hid, s.profile, hp, rfl⟩

theorem snapshots_nodup (all : Bool) (h : w.Inv interval) :
    ((w.snapshots all).map SourceSnapshot.sourceID).Nodup := by
  unfold snapshots
  cases all with
  | true =>
    rw [if_pos rfl, SourceBaselines.snapshot, List.map_map]
    exact w.cache.profiles.nodupKeys
  | false =>
    rw [if_neg Bool.false_ne_true, List.map_filterMap]
    refine h.marks.filterMap fun id id' b hb hb' => ?_
    simp only [Option.map_map, Option.mem_def, Option.map_eq_some_iff] at hb hb'
    obtain ⟨_, -, hb⟩ := hb
    obtain ⟨_, -, hb'⟩ := hb'
    exact hb.trans hb'.symm

theorem mem_flushRows {all : Bool} {row : BaselineRow} (h : w.Inv interval) :
    row ∈ (w.cache.flushRows interval all).1 ↔ ∃ id, ∃ p ∈ w.cache.profiles.lookup id,
      (all = true ∨ id ∈ w.cache.dirty) ∧ ∃ metric ∈ sourceBaselineMetrics p,
        sourceBaselineRow ⟨id, p⟩ (sourceBaselineWindowSeconds interval) metric = row := by
  rw [flushRows_eq, List.mem_flatMap]
  constructor
  · rintro ⟨⟨id, p⟩, hs, hrow⟩
    obtain ⟨hp, hmark⟩ := mem_snapshots.mp hs
    obtain ⟨hid, hobs, -⟩ := h.profiles id p hp
    rw [sourceBaselineRows, if_neg (not_or.mpr ⟨hid, hobs⟩)] at hrow
    exact ⟨id, p, hp, hmark, List.mem_map.mp hrow⟩
  · rintro ⟨id, p, hp, hmark, hrow⟩
    obtain ⟨hid, hobs, -⟩ := h.profiles id p hp
    refine ⟨⟨id, p⟩, mem_snapshots.mpr ⟨hp, hmark⟩, ?_⟩
    rw [sourceBaselineRows, if_neg (not_or.mpr ⟨hid, hobs⟩)]
    exact List.mem_map.mpr hrow

theorem flushRows_nodup (all : Bool) (h : w.Inv interval) :
    ((w.cache.flushRows interval all).1.map BaselineRow.key).Nodup := by
  rw [flushRows_eq, List.map_flatMap, List.nodup_flatMap]
  have hkeys (s : SourceSnapshot) : ∀ k ∈ (sourceBaselineRows s (sourceBaselineWindowSeconds interval)).map
      BaselineRow.key,
      k.subjectEntityID = s.sourceID := by
    intro k hk
    obtain ⟨row, hrow, rfl⟩ := List.mem_map.mp hk
    unfold sourceBaselineRows at hrow
    split at hrow
    · cases hrow
    · obtain ⟨metric, -, rfl⟩ := List.mem_map.mp hrow
      rfl
  constructor
  · intro s _
    unfold sourceBaselineRows
    split
    · exact List.nodup_nil
    · rw [List.map_map]
      refine List.Nodup.map_on (fun metric hm metric' hm' heq => ?_)
        (List.Nodup.of_map _ (metrics_nodup s.profile))
      exact List.inj_on_of_nodup_map (metrics_nodup s.profile) hm hm' (congrArg BaselineKey.metricID heq)
  · refine (List.Nodup.pairwise_of_forall_ne (List.Nodup.of_map _ (snapshots_nodup all h)) ?_)
    intro s hs s' hs' hne k hk hk'
    refine hne (List.inj_on_of_nodup_map (snapshots_nodup all h) hs hs' ?_)
    exact (hkeys s k hk).symm.trans (hkeys s' k hk')

/-- What a flush does to the rows in memory and in the table. -/
theorem Inv.flushes {all : Bool} {now : Time} {attempts : List (BaselineRow × Bool)} (h : w.Inv interval)
    (hstep : w.Step sha256 interval (.flush all now attempts) w') :
    (w.view interval).Flushes BaselineRow.key (w'.view interval) (w.outcomes sha256 now attempts) := by
  obtain ⟨hperm, hw'⟩ := Option.ite_none_right_eq_some.mp hstep
  obtain rfl := Option.some.inj hw'
  have hprofiles : (w.cache.flushRows interval all).2.profiles = w.cache.profiles := by rw [flushRows_eq]
  have hmem (row : BaselineRow) : (∃ o ∈ w.outcomes sha256 now attempts, o.1 = row) ↔
      row ∈ (w.cache.flushRows interval all).1 := by
    rw [← hperm.mem_iff, ← writeAll_rows (BaselineTable.upsertBaseline sha256 now) attempts w.rows]
    exact List.mem_map.symm
  have hcurrent : ∀ o ∈ w.outcomes sha256 now attempts, ∃ id, ∃ p ∈ w.cache.profiles.lookup id,
      (all = true ∨ id ∈ w.cache.dirty) ∧ ∃ metric ∈ sourceBaselineMetrics p,
        sourceBaselineRow ⟨id, p⟩ (sourceBaselineWindowSeconds interval) metric = o.1 :=
    fun o ho => (mem_flushRows h).mp ((hmem o.1).mp ⟨o, ho, rfl⟩)
  have hkeys : (attempts.map fun a => a.1.key).Nodup := by
    have hnodup := (hperm.map BaselineRow.key).nodup_iff.mpr (flushRows_nodup all h)
    rwa [List.map_map] at hnodup
  refine ⟨?_, ?_, ?_, fun k => mem_failedAfter, ?_, ?_⟩
  · rintro _ ⟨id, p, hp, hrow⟩
    exact ⟨id, p, hprofiles ▸ hp, hrow⟩
  · rintro _ ⟨id, p, hp, metric, hm, rfl⟩ hmark
    obtain ⟨o, ho, heq⟩ := (hmem _).mpr ((mem_flushRows h).mpr ⟨id, p, hp, .inr hmark, metric, hm, rfl⟩)
    exact ⟨o, ho, congrArg BaselineRow.key heq⟩
  · rintro o ho _ ⟨id, p, hp, metric, hm, rfl⟩ hkey
    obtain ⟨id', p', hp', -, metric', hm', heq⟩ := hcurrent o ho
    rw [← heq] at hkey ⊢
    exact row_inj hp' hp hm' hm hkey
  · rintro ⟨row, _⟩ ho rfl
    refine (BaselineTable.writes now).writeAll_stored attempts hkeys (fun o ho _ => ?_) ho
    obtain ⟨id, p, hp, -, metric, -, heq⟩ := hcurrent o ho
    rw [← heq]
    exact (h.profiles id p hp).lastSeen
  · intro row _ hrest hstored
    refine (BaselineTable.writes now).writeAll_keep attempts (fun a ha => ?_) hstored
    obtain ⟨o, ho, heq⟩ := (hmem a.1).mpr (hperm.subset (List.mem_map_of_mem ha))
    exact heq ▸ hrest o ho

theorem Inv.flush {all : Bool} {now : Time} {attempts : List (BaselineRow × Bool)} (h : w.Inv interval)
    (hstep : w.Step sha256 interval (.flush all now attempts) w') : w'.Inv interval := by
  have hkept := h.kept.flushes (h.flushes hstep)
  obtain ⟨hperm, hw'⟩ := Option.ite_none_right_eq_some.mp hstep
  obtain rfl := Option.some.inj hw'
  have hcache : (w.cache.flushRuntimeSourceBaselines sha256 interval all now attempts w.rows).1 =
      { w.cache with dirty := [] } := by
    rw [SourceBaselines.flushRuntimeSourceBaselines, flushRows_eq]
  rw [hcache] at hkept ⊢
  refine ⟨h.profiles, List.nodup_nil, ?_, hkept⟩
  refine writeAll_invariant (P := fun t : BaselineTable => ∀ row ∈ t,
    ∃ p ∈ w.cache.profiles.lookup row.key.subjectEntityID, row.createdAt = p.firstSeen) attempts h.created ?_
  intro t t' row hrow ht hput r hr
  obtain ⟨id, p, hp, -, metric, -, rfl⟩ := (mem_flushRows h).mp (hperm.subset hrow)
  rcases BaselineTable.upsertBaseline_createdAt hput hr with hold |
    ⟨hkey, ⟨old, hold, holdkey, hcreated⟩ | hcreated⟩
  · exact ht r hold
  · obtain ⟨p₀, hp₀, hfirst⟩ := ht old hold
    exact ⟨p₀, by rwa [hkey, ← holdkey], hcreated.trans hfirst⟩
  · exact ⟨p, by rwa [hkey], hcreated.trans (if_neg (h.profiles id p hp).firstSeen)⟩

theorem Inv.step {e : SourceStoreEvent} (h : w.Inv interval) (hfit : w.Fits sha256 e)
    (hstep : w.Step sha256 interval e w') : w'.Inv interval := by
  cases e with
  | update srcIP pps bps syn scan isSuspicious now clock => exact h.update hfit hstep
  | trigger rate srcIP globalTrig => exact h.trigger hstep
  | flush all now attempts => exact h.flush hstep

/-- A flush counts the writes that succeeded; without a failure it leaves everything stored. -/
theorem Inv.flush_saved {all : Bool} {now : Time} {attempts : List (BaselineRow × Bool)} (h : w.Inv interval)
    (hfit : w.Fits sha256 (.flush all now attempts))
    (hstep : w.Step sha256 interval (.flush all now attempts) w') :
    (w.cache.flushRuntimeSourceBaselines sha256 interval all now attempts w.rows).2.2.flushed =
        ((w.outcomes sha256 now attempts).map Prod.snd).count false ∧
      ((∀ o ∈ w.outcomes sha256 now attempts, o.2 = false) → w'.Saved interval) := by
  refine ⟨(FlushResult.foldl_countRow _ {}).trans (Nat.zero_add _), fun hok id p hp =>
    ⟨fun metric hm => ?_, ?_⟩⟩
  · have hflush := h.flushes hstep
    refine h.kept.saved hflush hok ?_ ⟨id, p, hp, metric, hm, rfl⟩
    rintro _ ⟨id', p', hp', metric', hm', rfl⟩ hfailed
    rcases hfit hok with rfl | hmarked
    · obtain ⟨hperm, -⟩ := Option.ite_none_right_eq_some.mp hstep
      have hrow : _ ∈ (w.cache.flushRows interval true).1 :=
        (mem_flushRows h).mpr ⟨id', p', hp', .inl rfl, metric', hm', rfl⟩
      rw [← hperm.mem_iff,
        ← writeAll_rows (BaselineTable.upsertBaseline sha256 now) attempts w.rows] at hrow
      obtain ⟨o, ho, heq⟩ := List.mem_map.mp hrow
      exact ⟨o, ho, congrArg BaselineRow.key heq⟩
    · exact hflush.marked _ ⟨id', p', hp', metric', hm', rfl⟩ (hmarked _ hfailed)
  · rintro row hrow rfl
    obtain ⟨p₀, hp₀, hcreated⟩ := (h.flush hstep).created row hrow
    rw [hcreated, Option.some.inj (hp₀.symm.trans hp)]

end SourceStore

end Kernloom
