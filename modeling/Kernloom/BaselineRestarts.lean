import Kernloom.BaselineRestore
import Kernloom.MetricFlush

/-! Restarts of the metric baseline engine: a flush that stores every dirty profile, then the stored rows
loaded into a new engine. A run with restarts goes side by side with the same updates without them. -/

namespace Kernloom

open Keyed Transition WriteBehind

variable (sha256 : String → String) (sqrt : Rat → Rat)

section Loading

/-- The profile made of a row; a value that is missing is zero. -/
def restoreRow (now : Time) (row : BaselineRow) : MetricProfile where
  ewma := (row.ewmaState.lookup "ewma").getD 0
  ewmaVariance := (row.ewmaState.lookup "ewma_variance").getD 0
  peak := (row.ewmaState.lookup "peak").getD 0
  count := row.observations
  learnedCount := row.observations
  firstSeen := if row.createdAt = 0 then now else row.createdAt
  lastSeen := if row.lastUpdated = 0 then now else row.lastUpdated
  promoted := row.state = "learned" ∨ row.state = "approved"
  confidence := (row.ewmaState.lookup "confidence").getD 0

/-- `LoadFromStore`, over the rows of the subject. -/
def MetricEngine.loadFromStore (now : Time) : List BaselineRow → MetricEngine → MetricEngine
  | [], e => e
  | row :: rows, e =>
    match e.profiles.lookup (baselineKeyString sha256 row.key) with
    | some _ => loadFromStore now rows e
    | none =>
      if e.cfg.maxProfiles ≤ e.profiles.entries.length then e
      else loadFromStore now rows
        { e with profiles := e.profiles.insert (baselineKeyString sha256 row.key) (restoreRow now row) }

/-- `LoadFromStore` of each subject, with the rows listed for it. -/
def MetricEngine.loadListings (now : Time) (listings : List (String × List BaselineRow)) (e : MetricEngine) :
    MetricEngine :=
  listings.foldl (fun e l => e.loadFromStore sha256 now l.2) e

def MetricEngine.updateResult (cfg : ScoreConfig) (order : ProfileOrder) (key : String) (value : Rat)
    (suspicious : Bool) (now : Time) (e : MetricEngine) : MetricResult :=
  ((e.profile order key now).1.update e.cfg value suspicious now).result sqrt cfg value suspicious
    (!suspicious)

theorem restoreRow_baselineRow {k : BaselineKey} {p : MetricProfile} {row : BaselineRow}
    (hlast : p.lastSeen ≠ 0)
    (hstate : row.state = (PersistedEngine.baselineRow k p).state)
    (hewma : row.ewmaState = (PersistedEngine.baselineRow k p).ewmaState)
    (hobs : row.observations = (PersistedEngine.baselineRow k p).observations)
    (hupdated : row.lastUpdated = (PersistedEngine.baselineRow k p).lastUpdated) (now : Time) :
    ∃ createdAt, restoreRow now row = p.restored createdAt := by
  refine ⟨if row.createdAt = 0 then now else row.createdAt, ?_⟩
  have hpromoted : (decide (row.state = "learned" ∨ row.state = "approved")) = p.promoted := by
    rw [hstate, PersistedEngine.baselineRow]
    cases p.promoted <;> simp
  have hseen : (if row.lastUpdated = 0 then now else row.lastUpdated) = p.lastSeen := by
    rw [hupdated]
    exact if_neg hlast
  unfold restoreRow
  rw [hpromoted, hseen, hewma, hobs]
  simp [MetricProfile.restored, PersistedEngine.baselineRow, List.lookup]

variable {sha256} {now : Time} {keys : Finset BaselineKey} {rows : List BaselineRow} {e : MetricEngine}

def MetricEngine.Of (sha256 : String → String) (keys : Finset BaselineKey) (e : MetricEngine) : Prop :=
  ∀ text p, e.profiles.lookup text = some p → ∃ k ∈ keys, text = baselineKeyString sha256 k

theorem MetricEngine.Of.room (h : e.Of sha256 keys) {k : BaselineKey} (hk : k ∈ keys)
    (hnone : e.profiles.lookup (baselineKeyString sha256 k) = none) :
    e.profiles.entries.length < keys.card := by
  have hkeys : e.profiles.keys.toFinset ⊆ (keys.erase k).image (baselineKeyString sha256) := by
    intro text htext
    obtain ⟨p, hp⟩ := Option.isSome_iff_exists.mp (AList.lookup_isSome.mpr (List.mem_toFinset.mp htext))
    obtain ⟨k', hk', rfl⟩ := h text p hp
    refine Finset.mem_image_of_mem _ (Finset.mem_erase.mpr ⟨?_, hk'⟩)
    rintro rfl
    rw [hnone] at hp
    cases hp
  have hlength : e.profiles.keys.toFinset.card = e.profiles.entries.length := by
    rw [List.toFinset_card_of_nodup e.profiles.keys_nodup]
    exact List.length_map _
  calc e.profiles.entries.length = e.profiles.keys.toFinset.card := hlength.symm
    _ ≤ ((keys.erase k).image (baselineKeyString sha256)).card := Finset.card_le_card hkeys
    _ ≤ (keys.erase k).card := Finset.card_image_le
    _ < keys.card := Finset.card_erase_lt_of_mem hk

/-- An engine whose profiles are made of rows of a table. -/
def MetricEngine.From (sha256 : String → String) (now : Time) (t : BaselineTable) (e : MetricEngine) : Prop :=
  ∀ text p, e.profiles.lookup text = some p →
    ∃ row ∈ t, text = baselineKeyString sha256 row.key ∧ p = restoreRow now row

/-- The rows of a table that has no more keys than the engine has room are loaded, each as it is. -/
theorem MetricEngine.From.loadFromStore {t : BaselineTable} (h : e.From sha256 now t)
    (hkeys : ∀ row ∈ t, row.key ∈ keys) (hcard : keys.card ≤ e.cfg.maxProfiles)
    (hrows : ∀ row ∈ rows, row ∈ t) :
    (e.loadFromStore sha256 now rows).From sha256 now t ∧ (e.loadFromStore sha256 now rows).cfg = e.cfg ∧
      (∀ text, e.profiles.lookup text ≠ none →
        (e.loadFromStore sha256 now rows).profiles.lookup text ≠ none) ∧
      ∀ row ∈ rows,
        (e.loadFromStore sha256 now rows).profiles.lookup (baselineKeyString sha256 row.key) ≠ none := by
  induction rows generalizing e with
  | nil => exact ⟨h, rfl, fun _ hne => hne, fun _ hrow => absurd hrow List.not_mem_nil⟩
  | cons row rows ih =>
    obtain ⟨hrow, hrest⟩ := List.forall_mem_cons.mp hrows
    unfold MetricEngine.loadFromStore
    cases hfind : e.profiles.lookup (baselineKeyString sha256 row.key) with
    | some p =>
      obtain ⟨hfrom, hcfg, hkept, hloaded⟩ := ih h hcard hrest
      exact ⟨hfrom, hcfg, hkept, List.forall_mem_cons.mpr ⟨hkept _ (hfind ▸ Option.some_ne_none p), hloaded⟩⟩
    | none =>
      have hof : e.Of sha256 keys := by
        intro text p hp
        obtain ⟨row', hrow', htext, -⟩ := h text p hp
        exact ⟨row'.key, hkeys row' hrow', htext⟩
      have hroom := (hof.room (hkeys row hrow) hfind).trans_le hcard
      dsimp only
      rw [if_neg (not_le.mpr hroom)]
      let e' : MetricEngine :=
        { e with profiles := e.profiles.insert (baselineKeyString sha256 row.key) (restoreRow now row) }
      have hfrom' : e'.From sha256 now t := by
        intro text p hp
        by_cases htext : text = baselineKeyString sha256 row.key
        · rw [htext, AList.lookup_insert] at hp
          exact ⟨row, hrow, htext, (Option.some.inj hp).symm⟩
        · rw [AList.lookup_insert_ne htext] at hp
          exact h text p hp
      obtain ⟨hfrom, hcfg, hkept, hloaded⟩ := ih hfrom' hcard hrest
      have hself : e'.profiles.lookup (baselineKeyString sha256 row.key) ≠ none := by
        rw [AList.lookup_insert]
        exact Option.some_ne_none _
      refine ⟨hfrom, hcfg, fun text hne => hkept text ?_, List.forall_mem_cons.mpr ⟨hkept _ hself, hloaded⟩⟩
      by_cases htext : text = baselineKeyString sha256 row.key
      · rw [htext]
        exact hself
      · rwa [AList.lookup_insert_ne htext]

theorem MetricEngine.From.loadListings {t : BaselineTable} {listings : List (String × List BaselineRow)}
    (h : e.From sha256 now t) (hkeys : ∀ row ∈ t, row.key ∈ keys) (hcard : keys.card ≤ e.cfg.maxProfiles)
    (hrows : ∀ l ∈ listings, ∀ row ∈ l.2, row ∈ t) :
    (e.loadListings sha256 now listings).From sha256 now t ∧
    (e.loadListings sha256 now listings).cfg = e.cfg ∧
      (∀ text, e.profiles.lookup text ≠ none →
        (e.loadListings sha256 now listings).profiles.lookup text ≠ none) ∧
      ∀ l ∈ listings, ∀ row ∈ l.2,
        (e.loadListings sha256 now listings).profiles.lookup (baselineKeyString sha256 row.key) ≠ none := by
  induction listings generalizing e with
  | nil => exact ⟨h, rfl, fun _ hne => hne, fun _ hl => absurd hl List.not_mem_nil⟩
  | cons l listings ih =>
    obtain ⟨hl, hrest⟩ := List.forall_mem_cons.mp hrows
    obtain ⟨hfrom, hcfg, hkept, hloaded⟩ := h.loadFromStore hkeys hcard hl
    obtain ⟨hfrom', hcfg', hkept', hloaded'⟩ := ih hfrom (hcfg ▸ hcard) hrest
    refine ⟨hfrom', hcfg'.trans hcfg, fun text hne => hkept' text (hkept text hne), ?_⟩
    exact List.forall_mem_cons.mpr ⟨fun row hrow => hkept' _ (hloaded row hrow), hloaded'⟩

theorem MetricEngine.Of.mono {keys' : Finset BaselineKey} (h : e.Of sha256 keys) (hkeys : keys ⊆ keys') :
    e.Of sha256 keys' := by
  intro text p hp
  obtain ⟨k, hk, htext⟩ := h text p hp
  exact ⟨k, hkeys hk, htext⟩

/-- Where there is room nothing is evicted: an update leaves all other profiles as they are. -/
theorem MetricEngine.update_of_room {key : String} (order : ProfileOrder) (value : Rat)
    (suspicious : Bool) (now : Time)
    (hroom : e.profiles.lookup key = none → e.profiles.entries.length < e.cfg.maxProfiles) :
    e.update order key value suspicious now = { e with
      profiles := e.profiles.insert key
        (((e.profiles.lookup key).getD { firstSeen := now }).update e.cfg value suspicious now) } := by
  unfold MetricEngine.update MetricEngine.profile
  cases hfind : e.profiles.lookup key with
  | some p => rfl
  | none =>
    dsimp only
    rw [if_neg (not_le.mpr (hroom hfind))]
    rfl

end Loading

section Runs

/-- A restart flushes with the given writes, and loads the rows listed for each subject. -/
inductive RestartEvent
  | update (order : ProfileOrder) (k : BaselineKey) (value : Rat) (suspicious : Bool) (now : Time)
  | restart (flushedAt : Time) (attempts : List (BaselineRow × Bool)) (loadedAt : Time)
    (listings : List (String × List BaselineRow))

/-- A run with restarts, the engine of the same updates without them, and how many clean ones each key had. -/
structure TwinRun where
  restarted : MetricStore
  unbroken : MetricEngine
  clean : BaselineKey → Nat

/-- A successful flush, then an engine made of the rows it left. -/
def MetricStore.restart (w : MetricStore) (flushedAt : Time) (attempts : List (BaselineRow × Bool))
    (loadedAt : Time)
    (listings : List (String × List BaselineRow)) : Option MetricStore :=
  (w.step sha256 (.flush flushedAt attempts)).bind fun w' =>
    if (∀ o ∈ w.outcomes sha256 flushedAt attempts, o.2 = false) ∧
        ∀ l ∈ listings, l.2.Perm (w'.rows.rows.filter fun row => row.key.subjectEntityID = l.1) then
      some { w' with
        cache := ⟨MetricEngine.loadListings sha256 loadedAt listings ⟨w.cache.engine.cfg, ∅⟩, ∅⟩ }
    else none

section Store

variable {sha256} {w w' : MetricStore}

/-- A successful flush stores every profile, and no rows but those of keys that were updated. -/
theorem MetricStore.Inv.flush_ok {now : Time} {attempts : List (BaselineRow × Bool)} (h : w.Inv sha256)
    (hfailed : w.failed = []) (hrows : ∀ row ∈ w.rows, row.key ∈ w.updated)
    (hok : ∀ o ∈ w.outcomes sha256 now attempts, o.2 = false)
    (hstep : w.Step sha256 (.flush now attempts) w') :
    w'.Inv sha256 ∧ w'.Saved sha256 ∧ w'.failed = [] ∧ w'.updated = w.updated ∧
      w'.cache.engine = w.cache.engine ∧ ∀ row ∈ w'.rows, row.key ∈ w.updated := by
  have hfit : w.Fits sha256 (.flush now attempts) := by
    refine ⟨?_, fun _ k hk => absurd (hfailed ▸ hk) List.not_mem_nil⟩
    have hnone : true ∉ (w.outcomes sha256 now attempts).map Prod.snd := by
      intro hmem
      obtain ⟨o, ho, htrue⟩ := List.mem_map.mp hmem
      exact Bool.false_ne_true ((hok o ho).symm.trans htrue)
    rw [List.count_eq_zero.mpr hnone]
    exact Nat.zero_le 1
  have hinv := h.step hfit hstep
  have hsaved := (h.flush_saved hfit hstep).2 hok
  obtain ⟨hperm, hw'⟩ := Option.ite_none_right_eq_some.mp hstep
  obtain rfl := Option.some.inj hw'
  refine ⟨hinv, hsaved, ?_, rfl, rfl, ?_⟩
  · rw [List.eq_nil_iff_forall_not_mem]
    intro k hk
    rcases mem_failedAfter.mp hk with ⟨o, ho, htrue, -⟩ | ⟨hold, -⟩
    · exact Bool.false_ne_true ((hok o ho).symm.trans htrue)
    · exact absurd (hfailed ▸ hold) List.not_mem_nil
  · refine writeAll_invariant (P := fun t : BaselineTable => ∀ row ∈ t, row.key ∈ w.updated) attempts hrows ?_
    intro t t' r hr ht hput row hrow
    obtain ⟨stored, rfl, hkey, -⟩ := BaselineTable.upsertBaseline_cases hput
    rcases Table.mem_upsert.mp hrow with rfl | ⟨hrow, -⟩
    · obtain ⟨k, hmark, p, -, rfl⟩ := (MetricStore.mem_dirtyRows h).mp (hperm.subset hr)
      rw [hkey]
      exact (h.marks _ k hmark).1
    · exact ht row hrow

/-- A new engine with the profiles of another one, each as a restart makes it. -/
structure MetricStore.Loads (sha256 : String → String) (w : MetricStore) (cfg : MetricConfig)
    (e : MetricEngine) :
    Prop where
  config : e.cfg = cfg
  only : ∀ text p, e.profiles.lookup text = some p → ∃ k ∈ w.updated, ∃ q createdAt,
    text = baselineKeyString sha256 k ∧ w.profile sha256 k = some q ∧ p = q.restored createdAt
  all : ∀ k ∈ w.updated, ∀ q, w.profile sha256 k = some q →
    ∃ createdAt, e.profiles.lookup (baselineKeyString sha256 k) = some (q.restored createdAt)

/-- Loading the rows of every subject restores every stored profile. -/
theorem MetricStore.Inv.loads {cfg : MetricConfig} {listings : List (String × List BaselineRow)}
    (h : w.Inv sha256)
    (hsaved : w.Saved sha256) (hrows : ∀ row ∈ w.rows, row.key ∈ w.updated)
    (hheld : ∀ k ∈ w.updated, w.profile sha256 k ≠ none) (hcard : w.updated.toFinset.card ≤ cfg.maxProfiles)
    (hlisted : ∀ l ∈ listings, l.2.Perm (w.rows.rows.filter fun row => row.key.subjectEntityID = l.1))
    (hsubjects : ∀ k ∈ w.updated, k.subjectEntityID ∈ listings.map Prod.fst) (now : Time) :
    w.Loads sha256 cfg (MetricEngine.loadListings sha256 now listings ⟨cfg, ∅⟩) := by
  have hempty : MetricEngine.From sha256 now w.rows ⟨cfg, ∅⟩ := fun _ _ hp => nomatch hp
  obtain ⟨hfrom, hcfg, -, hloaded⟩ := hempty.loadListings
    (fun row hrow => List.mem_toFinset.mpr (hrows row hrow)) hcard
    fun l hl row hrow => (List.mem_filter.mp ((hlisted l hl).subset hrow)).1
  have hrestored : ∀ k ∈ w.updated, ∀ q, w.profile sha256 k = some q → ∀ row ∈ w.rows, row.key = k →
      ∃ createdAt, restoreRow now row = q.restored createdAt := by
    intro k hk q hq row hrow hkey
    obtain ⟨r, hr, hkey', hstate, hewma, hobs, hlast⟩ := hsaved k hk q hq
    obtain rfl : row = r := Table.eq_of_key_eq hrow hr (hkey.trans hkey'.symm)
    exact restoreRow_baselineRow (h.times k q hq) hstate hewma hobs hlast now
  refine ⟨hcfg, fun text p hp => ?_, fun k hk q hq => ?_⟩
  · obtain ⟨row, hrow, htext, rfl⟩ := hfrom text p hp
    obtain ⟨q, hq⟩ := Option.ne_none_iff_exists'.mp (hheld row.key (hrows row hrow))
    obtain ⟨createdAt, heq⟩ := hrestored row.key (hrows row hrow) q hq row hrow rfl
    exact ⟨row.key, hrows row hrow, q, createdAt, htext, hq, heq⟩
  · obtain ⟨r, hr, hkey, -⟩ := hsaved k hk q hq
    have hkey : r.key = k := hkey
    obtain ⟨l, hl, hsubject⟩ := List.mem_map.mp (hsubjects k hk)
    have hlist : r ∈ l.2 := by
      refine (hlisted l hl).mem_iff.mpr (List.mem_filter.mpr ⟨hr, ?_⟩)
      rw [decide_eq_true_eq, hkey, hsubject]
    obtain ⟨p, hp⟩ := Option.ne_none_iff_exists'.mp (hloaded l hl r hlist)
    rw [hkey] at hp
    obtain ⟨row, hrow, htext, rfl⟩ := hfrom _ p hp
    obtain ⟨createdAt, heq⟩ := hrestored k hk q hq row hrow (h.texts _ (hrows row hrow) k hk htext.symm)
    exact ⟨createdAt, heq ▸ hp⟩

theorem MetricStore.Inv.reload {cfg : MetricConfig} {e : MetricEngine} (h : w.Inv sha256)
    (hsaved : w.Saved sha256)
    (hloads : w.Loads sha256 cfg e) : MetricStore.Inv sha256 { w with cache := ⟨e, ∅⟩ } := by
  have hsource {k : BaselineKey} {p : MetricProfile}
      (hp : e.profiles.lookup (baselineKeyString sha256 k) = some p) :
      ∃ k' ∈ w.updated, ∃ q createdAt, baselineKeyString sha256 k = baselineKeyString sha256 k' ∧
        w.profile sha256 k' = some q ∧ p = q.restored createdAt := hloads.only _ p hp
  refine ⟨h.texts, (fun _ _ hk => nomatch hk), fun k p hp => ?_, ?_⟩
  · obtain ⟨k', -, q, createdAt, -, hq, rfl⟩ := hsource hp
    exact h.times k' q hq
  · rintro _ ⟨k, hk, p, hp, rfl⟩
    obtain ⟨k', hk', q, createdAt, htext, hq, rfl⟩ := hsource hp
    obtain rfl := h.texts k hk k' hk' htext
    exact .inr (.inr (hsaved k hk q hq))

end Store

namespace TwinRun

def start (cfg : MetricConfig) : TwinRun := ⟨.start cfg, ⟨cfg, ∅⟩, fun _ => 0⟩

def step (w : TwinRun) : RestartEvent → Option TwinRun
  | .update order k value suspicious now =>
    (w.restarted.step sha256 (.update order k value suspicious now)).map fun s =>
      { restarted := s
        unbroken := w.unbroken.update order (baselineKeyString sha256 k) value suspicious now
        clean := if suspicious then w.clean else Function.update w.clean k (w.clean k + 1) }
  | .restart flushedAt attempts loadedAt listings =>
    (w.restarted.restart sha256 flushedAt attempts loadedAt listings).map fun s => { w with restarted := s }

abbrev Step (w : TwinRun) (e : RestartEvent) (w' : TwinRun) : Prop := w.step sha256 e = some w'

/-- The updates are of some keys, and a restart loads the subject of each and is made at a safe point of
its profile. -/
def Safe (keys : Finset BaselineKey) (w : TwinRun) : RestartEvent → Prop
  | .update _ k _ _ now => k ∈ keys ∧ now ≠ 0
  | .restart _ _ _ listings => ∀ k ∈ w.restarted.updated, k.subjectEntityID ∈ listings.map Prod.fst ∧
      ∀ p ∈ w.restarted.profile sha256 k, p.RestartSafe w.restarted.cache.engine.cfg.minCount

instance (keys : Finset BaselineKey) (w : TwinRun) : (e : RestartEvent) → Decidable (w.Safe sha256 keys e)
  | .update _ k _ _ now => inferInstanceAs (Decidable (k ∈ keys ∧ now ≠ 0))
  | .restart _ _ _ listings =>
    inferInstanceAs (Decidable (∀ k ∈ w.restarted.updated, k.subjectEntityID ∈ listings.map Prod.fst ∧
      ∀ p ∈ w.restarted.profile sha256 k, p.RestartSafe w.restarted.cache.engine.cfg.minCount))

structure Paired (w : TwinRun) (minCount : Nat) (k : BaselineKey) (p q : MetricProfile) : Prop where
  unbroken : w.unbroken.profiles.lookup (baselineKeyString sha256 k) = some p
  restarted : w.restarted.profile sha256 k = some q
  alike : p.Alike minCount q
  counts : p.Counts
  counts' : q.Counts
  clean : p.learnedCount = w.clean k
  promoted : p.promoted = true → minCount ≤ p.learnedCount

/-- The two runs have the same profiles, which are alike; the rows are of keys that were updated. -/
structure Inv (cfg : MetricConfig) (keys : Finset BaselineKey) (w : TwinRun) : Prop where
  store : w.restarted.Inv sha256
  failed : w.restarted.failed = []
  updated : ∀ k ∈ w.restarted.updated, k ∈ keys
  rows : ∀ row ∈ w.restarted.rows, row.key ∈ w.restarted.updated
  config : w.restarted.cache.engine.cfg = cfg
  config' : w.unbroken.cfg = cfg
  own : w.restarted.cache.engine.Of sha256 w.restarted.updated.toFinset
  own' : w.unbroken.Of sha256 w.restarted.updated.toFinset
  unseen : ∀ k ∉ w.restarted.updated, w.clean k = 0
  paired : ∀ k ∈ w.restarted.updated, ∃ p q, w.Paired sha256 cfg.minCount k p q

/-- What an update of a key tells in a run with restarts, it tells without them. -/
structure Transparent (cfg : ScoreConfig) (w : TwinRun) (k : BaselineKey) : Prop where
  results : ∀ order order' value suspicious now, SameResult
    (w.unbroken.updateResult sqrt cfg order (baselineKeyString sha256 k) value suspicious now)
    (w.restarted.cache.engine.updateResult sqrt cfg order' (baselineKeyString sha256 k) value suspicious now)
  baseline : (w.restarted.profile sha256 k).map (fun p => (p.ewma, p.ewmaVariance, p.peak, p.promoted)) =
    (w.unbroken.profiles.lookup (baselineKeyString sha256 k)).map fun p =>
      (p.ewma, p.ewmaVariance, p.peak, p.promoted)
  promoted : ∀ p ∈ w.restarted.profile sha256 k, p.promoted = true → cfg.minCount ≤ w.clean k

variable {sha256} {cfg : MetricConfig} {keys : Finset BaselineKey} {w w' : TwinRun}

theorem start_inv (cfg : MetricConfig) (keys : Finset BaselineKey) : (start cfg).Inv sha256 cfg keys where
  store := MetricStore.start_inv cfg
  failed := rfl
  updated _ hk := absurd hk List.not_mem_nil
  rows _ hrow := absurd hrow Table.not_mem_empty
  config := rfl
  config' := rfl
  own _ _ hp := nomatch hp
  own' _ _ hp := nomatch hp
  unseen _ _ := rfl
  paired _ hk := absurd hk List.not_mem_nil

theorem Inv.unheld {e : MetricEngine} (h : w.Inv sha256 cfg keys)
    (hown : e.Of sha256 w.restarted.updated.toFinset)
    {k : BaselineKey} (hk : k ∈ keys)
    (htexts : ∀ k ∈ keys, ∀ k' ∈ keys, baselineKeyString sha256 k = baselineKeyString sha256 k' → k = k')
    (hnew : k ∉ w.restarted.updated) : e.profiles.lookup (baselineKeyString sha256 k) = none := by
  rw [Option.eq_none_iff_forall_ne_some]
  intro p hp
  obtain ⟨k', hk', htext⟩ := hown _ p hp
  have hk' := List.mem_toFinset.mp hk'
  exact hnew (htexts k hk k' (h.updated k' hk') htext ▸ hk')

theorem Inv.before (h : w.Inv sha256 cfg keys) {k : BaselineKey} (hk : k ∈ keys)
    (htexts : ∀ k ∈ keys, ∀ k' ∈ keys, baselineKeyString sha256 k = baselineKeyString sha256 k' → k = k')
    (now : Time) :
    let p := (w.unbroken.profiles.lookup (baselineKeyString sha256 k)).getD { firstSeen := now }
    let q := (w.restarted.cache.engine.profiles.lookup (baselineKeyString sha256 k)).getD { firstSeen := now }
    p.Alike cfg.minCount q ∧ p.Counts ∧ q.Counts ∧ p.learnedCount = w.clean k ∧
      (p.promoted = true → cfg.minCount ≤ p.learnedCount) := by
  by_cases hupdated : k ∈ w.restarted.updated
  · obtain ⟨p, q, hpaired⟩ := h.paired k hupdated
    have hrestarted : w.restarted.cache.engine.profiles.lookup (baselineKeyString sha256 k) = some q :=
      hpaired.restarted
    rw [hpaired.unbroken, hrestarted]
    exact ⟨hpaired.alike, hpaired.counts, hpaired.counts', hpaired.clean, hpaired.promoted⟩
  · have hfresh : MetricProfile.Counts { firstSeen := now } :=
      ⟨le_rfl, Bool.false_ne_true.elim, fun _ => rfl, fun _ => rfl⟩
    rw [h.unheld h.own hk htexts hupdated, h.unheld h.own' hk htexts hupdated]
    exact ⟨.refl _ _, hfresh, hfresh, (h.unseen k hupdated).symm, Bool.false_ne_true.elim⟩

theorem cleanAfter_of_ne {clean : BaselineKey → Nat} {k k' : BaselineKey} (h : k' ≠ k) {suspicious : Bool} :
    (if suspicious then clean else Function.update clean k (clean k + 1)) k' = clean k' := by
  cases suspicious with
  | true => rfl
  | false => exact Function.update_of_ne h _ _

theorem Inv.update {order : ProfileOrder} {k : BaselineKey} {value : Rat} {suspicious : Bool} {now : Time}
    (h : w.Inv sha256 cfg keys) (hcard : keys.card ≤ cfg.maxProfiles)
    (htexts : ∀ k ∈ keys, ∀ k' ∈ keys, baselineKeyString sha256 k = baselineKeyString sha256 k' → k = k')
    (hk : k ∈ keys) (hnow : now ≠ 0) (hstep : w.Step sha256 (.update order k value suspicious now) w') :
    w'.Inv sha256 cfg keys := by
  obtain rfl := Option.some.inj hstep
  let text := baselineKeyString sha256 k
  have hsubset : w.restarted.updated.toFinset ⊆ keys := fun k' hk' => h.updated k' (List.mem_toFinset.mp hk')
  have hroom {e : MetricEngine} (hown : e.Of sha256 w.restarted.updated.toFinset) (hcfg : e.cfg = cfg) :
      e.profiles.lookup text = none → e.profiles.entries.length < e.cfg.maxProfiles :=
    fun hnone => ((hown.mono hsubset).room hk hnone).trans_le (hcfg ▸ hcard)
  have hrestarted := MetricEngine.update_of_room order value suspicious now (hroom h.own h.config)
  have hunbroken := MetricEngine.update_of_room order value suspicious now (hroom h.own' h.config')
  have hown {e : MetricEngine} (hown : e.Of sha256 w.restarted.updated.toFinset) (p : MetricProfile) :
      MetricEngine.Of sha256 (k :: w.restarted.updated).toFinset ⟨e.cfg, e.profiles.insert text p⟩ := by
    intro text' p' hp'
    by_cases htext : text' = text
    · exact ⟨k, by simp, htext⟩
    · rw [AList.lookup_insert_ne htext] at hp'
      obtain ⟨k', hk', heq⟩ := hown text' p' hp'
      exact ⟨k', by simpa using .inr (List.mem_toFinset.mp hk'), heq⟩
  obtain ⟨halike, hp, hq, hclean, hpromoted⟩ := h.before hk htexts now
  refine ⟨?_, h.failed, ?_, fun row hrow => List.mem_cons_of_mem _ (h.rows row hrow), ?_, ?_, ?_, ?_, ?_, ?_⟩
  · exact h.store.update ⟨fun k' hk' heq => htexts k' (h.updated k' hk') k hk heq, hnow⟩ rfl
  · exact List.forall_mem_cons.mpr ⟨hk, h.updated⟩
  · show (w.restarted.cache.engine.update order text value suspicious now).cfg = cfg
    rw [hrestarted]
    exact h.config
  · show (w.unbroken.update order text value suspicious now).cfg = cfg
    rw [hunbroken]
    exact h.config'
  · show (w.restarted.cache.engine.update order text value suspicious now).Of sha256 _
    rw [hrestarted]
    exact hown h.own _
  · show (w.unbroken.update order text value suspicious now).Of sha256 _
    rw [hunbroken]
    exact hown h.own' _
  · intro k' hk'
    obtain ⟨hne, hold⟩ : k' ≠ k ∧ k' ∉ w.restarted.updated := by simpa using hk'
    show (if suspicious then w.clean else Function.update w.clean k (w.clean k + 1)) k' = 0
    rw [cleanAfter_of_ne hne]
    exact h.unseen k' hold
  · intro k' hk'
    by_cases heq : k' = k
    · subst heq
      let p : MetricProfile := (w.unbroken.profiles.lookup text).getD { firstSeen := now }
      let q : MetricProfile := (w.restarted.profile sha256 k').getD { firstSeen := now }
      refine ⟨p.update cfg value suspicious now, q.update cfg value suspicious now, ⟨?_, ?_, halike.update hp,
        hp.update suspicious, hq.update suspicious, ?_,
          MetricProfile.minCount_le_update suspicious hp hpromoted⟩⟩
      · show (w.unbroken.update order text value suspicious now).profiles.lookup text = _
        rw [hunbroken, AList.lookup_insert, h.config']
      · show (w.restarted.cache.engine.update order text value suspicious now).profiles.lookup text = _
        rw [hrestarted, AList.lookup_insert, h.config]
        rfl
      · show _ = (if suspicious then w.clean else Function.update w.clean k' (w.clean k' + 1)) k'
        cases suspicious with
        | true => exact hclean
        | false =>
          rw [MetricProfile.update_clean, hclean]
          simp
    · have hold : k' ∈ w.restarted.updated := (List.mem_cons.mp hk').resolve_left heq
      have htext : baselineKeyString sha256 k' ≠ text := fun htext =>
        heq (htexts k' (h.updated k' hold) k hk htext)
      obtain ⟨p, q, hpaired⟩ := h.paired k' hold
      refine ⟨p, q, ⟨?_, ?_, hpaired.alike, hpaired.counts, hpaired.counts', ?_, hpaired.promoted⟩⟩
      · show (w.unbroken.update order text value suspicious now).profiles.lookup _ = _
        rw [hunbroken, AList.lookup_insert_ne htext]
        exact hpaired.unbroken
      · show (w.restarted.cache.engine.update order text value suspicious now).profiles.lookup _ = _
        rw [hrestarted, AList.lookup_insert_ne htext]
        exact hpaired.restarted
      · show _ = (if suspicious then w.clean else Function.update w.clean k (w.clean k + 1)) k'
        rw [cleanAfter_of_ne heq]
        exact hpaired.clean

/-- A restart at safe points makes profiles that are alike to those of the other run. -/
theorem Inv.restart {flushedAt : Time} {attempts : List (BaselineRow × Bool)} {loadedAt : Time}
    {listings : List (String × List BaselineRow)} (h : w.Inv sha256 cfg keys)
    (hcard : keys.card ≤ cfg.maxProfiles)
    (hsafe : w.Safe sha256 keys (.restart flushedAt attempts loadedAt listings))
    (hstep : w.Step sha256 (.restart flushedAt attempts loadedAt listings) w') : w'.Inv sha256 cfg keys := by
  obtain ⟨s, hs, rfl⟩ := Option.map_eq_some_iff.mp hstep
  obtain ⟨w₁, hflush, hload⟩ := Option.bind_eq_some_iff.mp hs
  obtain ⟨⟨hok, hlisted⟩, hs⟩ := Option.ite_none_right_eq_some.mp hload
  obtain rfl := Option.some.inj hs
  obtain ⟨hinv, hsaved, hfailed, hupdated, hengine, hrows⟩ := h.store.flush_ok h.failed h.rows hok hflush
  have hprofile (k : BaselineKey) : w₁.profile sha256 k = w.restarted.profile sha256 k := by
    rw [MetricStore.profile, hengine]
    rfl
  have hheld : ∀ k ∈ w₁.updated, w₁.profile sha256 k ≠ none := by
    intro k hk
    obtain ⟨p, q, hpaired⟩ := h.paired k (hupdated ▸ hk)
    rw [hprofile, hpaired.restarted]
    exact Option.some_ne_none q
  have hroom : w₁.updated.toFinset.card ≤ w.restarted.cache.engine.cfg.maxProfiles := by
    rw [h.config]
    refine (Finset.card_le_card fun k hk => ?_).trans hcard
    exact h.updated k (hupdated ▸ List.mem_toFinset.mp hk)
  have hloads := hinv.loads hsaved (hupdated ▸ hrows) hheld hroom hlisted
    (hupdated ▸ fun k hk => (hsafe k hk).1)
    loadedAt
  refine ⟨hinv.reload hsaved hloads, hfailed, hupdated ▸ h.updated, hupdated ▸ hrows, ?_, h.config', ?_,
    hupdated ▸ h.own',
    hupdated ▸ h.unseen, ?_⟩
  · exact hloads.config.trans h.config
  · intro text p hp
    obtain ⟨k, hk, -, -, htext, -⟩ := hloads.only text p hp
    exact ⟨k, List.mem_toFinset.mpr hk, htext⟩
  · intro k hk
    obtain ⟨p, q, hpaired⟩ := h.paired k (hupdated ▸ hk)
    obtain ⟨createdAt, hrestored⟩ := hloads.all k hk q ((hprofile k).trans hpaired.restarted)
    have hsafe : q.RestartSafe cfg.minCount := h.config ▸ (hsafe k (hupdated ▸ hk)).2 q hpaired.restarted
    exact ⟨p, q.restored createdAt, ⟨hpaired.unbroken, hrestored,
      hpaired.alike.restored hpaired.counts hpaired.counts' hsafe createdAt, hpaired.counts,
      hpaired.counts'.restored createdAt, hpaired.clean, hpaired.promoted⟩⟩

theorem Inv.step {e : RestartEvent} (h : w.Inv sha256 cfg keys) (hcard : keys.card ≤ cfg.maxProfiles)
    (htexts : ∀ k ∈ keys, ∀ k' ∈ keys, baselineKeyString sha256 k = baselineKeyString sha256 k' → k = k')
    (hstep : Guarded (Safe sha256 keys) (Step sha256) w e w') : w'.Inv sha256 cfg keys := by
  obtain ⟨hsafe, hstep⟩ := hstep
  cases e with
  | update order k value suspicious now => exact h.update hcard htexts hsafe.1 hsafe.2 hstep
  | restart flushedAt attempts loadedAt listings => exact h.restart hcard hsafe hstep

theorem Inv.transparent {cfg : ScoreConfig} (h : w.Inv sha256 cfg.toMetricConfig keys)
    (htexts : ∀ k ∈ keys, ∀ k' ∈ keys, baselineKeyString sha256 k = baselineKeyString sha256 k' → k = k')
    {k : BaselineKey} (hk : k ∈ keys) : w.Transparent sha256 sqrt cfg k := by
  have hprofile (e : MetricEngine) (order : ProfileOrder) (now : Time) :
      (e.profile order (baselineKeyString sha256 k) now).1 =
        (e.profiles.lookup (baselineKeyString sha256 k)).getD { firstSeen := now } := by
    unfold MetricEngine.profile
    split
    · next hfind => rw [hfind, Option.getD_some]
    · next hfind => rw [hfind, Option.getD_none]
  constructor
  · intro order order' value suspicious now
    obtain ⟨halike, hp, -⟩ := h.before hk htexts now
    unfold MetricEngine.updateResult
    rw [hprofile, hprofile, h.config, h.config']
    exact (halike.update hp).sameResult sqrt cfg value suspicious (!suspicious)
  · by_cases hupdated : k ∈ w.restarted.updated
    · obtain ⟨p, q, hpaired⟩ := h.paired k hupdated
      have halike := hpaired.alike
      rw [hpaired.unbroken, hpaired.restarted, Option.map_some, Option.map_some, halike.ewma,
        halike.ewmaVariance, halike.peak, halike.promoted]
    · rw [MetricStore.profile, h.unheld h.own hk htexts hupdated, h.unheld h.own' hk htexts hupdated]
  · intro q hq hpromoted
    by_cases hupdated : k ∈ w.restarted.updated
    · obtain ⟨p, q', hpaired⟩ := h.paired k hupdated
      obtain rfl : q' = q := Option.some.inj (hpaired.restarted.symm.trans hq)
      exact hpaired.clean ▸ hpaired.promoted (hpaired.alike.promoted.symm.trans hpromoted)
    · rw [MetricStore.profile, h.unheld h.own hk htexts hupdated] at hq
      cases hq

end TwinRun

/-- Restarts at safe points do not show, as long as no profile is evicted. -/
theorem restarts_transparent (cfg : ScoreConfig) (keys : Finset BaselineKey)
    (hcard : keys.card ≤ cfg.maxProfiles)
    (htexts : ∀ k ∈ keys, ∀ k' ∈ keys, baselineKeyString sha256 k = baselineKeyString sha256 k' → k = k')
    (es : List RestartEvent) (w : TwinRun)
    (hrun : Run (Guarded (TwinRun.Safe sha256 keys) (TwinRun.Step sha256)) (.start cfg.toMetricConfig) es w) :
    ∀ k ∈ keys, w.Transparent sha256 sqrt cfg k := by
  have hinv := hrun.invariant (TwinRun.start_inv cfg.toMetricConfig keys) fun h hstep =>
    h.step hcard htexts hstep
  exact fun k hk => hinv.transparent sqrt htexts hk

def warmKey : BaselineKey := { metricID := "conn_count", subjectEntityID := "peer" }

def warmUpdate (value : Rat) (suspicious : Bool) (now : Time) : RestartEvent :=
  .update ⟨id, fun _ => .refl _⟩ warmKey value suspicious now

/-- The row of the value 10, after as many updates. -/
def warmRow (observations : Nat) : BaselineRow where
  key := warmKey
  state := "candidate"
  ewmaState := [("ewma", 10), ("ewma_variance", 0), ("peak", 0), ("confidence", 0)]
  observations := observations
  lastUpdated := observations

def warmRestart (observations : Nat) : RestartEvent :=
  .restart 5 [(warmRow observations, false)] 6
    [("peer", [{ warmRow observations with id := warmKey.text, createdAt := 5 }])]

theorem clean_restart_transparent : ∃ w,
    Run (TwinRun.Step id) (.start {}) [warmUpdate 10 false 1, warmRestart 1, warmUpdate 20 false 7] w ∧
      w.Transparent id id {} warmKey := by
  let es := [warmUpdate 10 false 1, warmRestart 1, warmUpdate 20 false 7]
  have hruns : (es.foldlM (fun w e => if TwinRun.Safe id {warmKey} w e then TwinRun.step id w e else none)
      (TwinRun.start {})).isSome := by
    decide +kernel
  obtain ⟨w, hw⟩ := Option.isSome_iff_exists.mp hruns
  have hrun := guarded_of_foldlM hw
  refine ⟨w, hrun.mono And.right, ?_⟩
  exact restarts_transparent id id {} {warmKey} (by decide) (by simp) es w hrun warmKey
    (Finset.mem_singleton_self _)

/-- A suspicious update counts as learned after a restart: the next clean one, the second, promotes. -/
theorem restart_promotes_early : ∃ w,
    Run (TwinRun.Step id) (.start { minCount := 3 })
      [warmUpdate 10 false 1, warmUpdate 500 true 2, warmRestart 2, warmUpdate 10 false 7] w ∧
    (w.restarted.profile id warmKey).map MetricProfile.promoted = some true ∧
    (w.unbroken.profiles.lookup (baselineKeyString id warmKey)).map MetricProfile.promoted = some false ∧
    w.clean warmKey = 2 := by
  let es := [warmUpdate 10 false 1, warmUpdate 500 true 2, warmRestart 2, warmUpdate 10 false 7]
  have hfacts : ∃ w ∈ es.foldlM (TwinRun.step id) (TwinRun.start { minCount := 3 }),
      (w.restarted.profile id warmKey).map MetricProfile.promoted = some true ∧
      (w.unbroken.profiles.lookup (baselineKeyString id warmKey)).map MetricProfile.promoted = some false ∧
      w.clean warmKey = 2 := by
    decide +kernel
  obtain ⟨w, hw, hfacts⟩ := hfacts
  exact ⟨w, run_of_foldlM hw, hfacts⟩

end Runs

end Kernloom
