import Kernloom.LearnerRuns

/-! The stored counts of relationships: when they are the numbers of observations. -/

namespace Kernloom

open Keyed Transition

/-- The observations of a relationship that are still to be written. -/
def LearnerWorld.Waiting (w : LearnerWorld) (k : RelationshipKey) : Prop :=
  (∃ e ∈ w.learner.cache, e.rel.toRelationshipKey = k ∧ e.dirtyAt ≠ none) ∨
    ∃ r ∈ w.writes, r.toRelationshipKey = k

/-- Every observation is counted in the table, or its entry is dirty, or its write is under way. -/
def LearnerWorld.CountsKept (w : LearnerWorld) : Prop :=
  ∀ k ∈ w.observed, w.Waiting k ∨
    ∃ row ∈ w.rows, row.toRelationshipKey = k ∧ row.seenCount = w.observed.count k

instance (w : LearnerWorld) : Decidable w.CountsKept :=
  inferInstanceAs (Decidable (∀ k ∈ w.observed,
    ((∃ e ∈ w.learner.cache.rows, e.rel.toRelationshipKey = k ∧ e.dirtyAt ≠ none) ∨
      ∃ r ∈ w.writes, r.toRelationshipKey = k) ∨
    ∃ row ∈ w.rows.rows, row.toRelationshipKey = k ∧ row.seenCount = w.observed.count k))

/-- Every relationship is written once, before the learner stops, and never in vain. -/
def CountsOnce (w : LearnerWorld) : LearnerEvent → Prop
  | .learn _ _ c _ => c.nodeID = w.learner.cfg.nodeID ∧ c.seenCount = 1 ∧
      (∀ e ∈ w.learner.cache.find (stableKey c.toRelationshipKey),
        e.rel.toRelationshipKey = c.toRelationshipKey) ∧
      (w.learner.cache.find (stableKey c.toRelationshipKey) = none →
        w.learner.cache.rows.length < w.learner.cfg.maxCachedRelationships ∧
        ∀ row ∈ w.rows.rows, row.toRelationshipKey ≠ c.toRelationshipKey)
  | .write i _ fails => fails = false ∧ ∀ r ∈ w.writes[i]?, ∀ row ∈ w.rows.rows,
      row.toRelationshipKey ≠ r.toRelationshipKey ∧ row.id ≠ r.id
  | .restart _ _ _ => (∀ e ∈ w.learner.cache.rows, e.dirtyAt = none) ∧ w.writes = []
  | .operator (.reset _ _) => False
  | _ => True

instance (w : LearnerWorld) (e : LearnerEvent) : Decidable (CountsOnce w e) := by
  rcases e with _ | _ | _ | _ | _ | _ | (_ | _ | _) <;> unfold CountsOnce <;> infer_instance

/-- The entries, the writes under way and the rows all count observations, each for its own key. -/
structure Counted (w : LearnerWorld) : Prop where
  kept : w.CountsKept
  unstored : ∀ k ∈ w.observed, (∀ row ∈ w.rows, row.toRelationshipKey ≠ k) →
    (∃ e ∈ w.learner.cache, e.rel.toRelationshipKey = k ∧ e.dirtyAt ≠ none) ∨
    ∃ r ∈ w.writes, r.toRelationshipKey = k ∧ r.seenCount = w.observed.count k
  text : ∀ e ∈ w.learner.cache, e.key = stableKey e.rel.toRelationshipKey
  cached : ∀ e ∈ w.learner.cache, e.rel.toRelationshipKey ∈ w.observed ∧
    e.rel.seenCount = w.observed.count e.rel.toRelationshipKey
  known : ∀ k ∈ w.observed, (∃ e ∈ w.learner.cache, e.rel.toRelationshipKey = k) ∨
    ∃ row ∈ w.rows, row.toRelationshipKey = k
  rows : ∀ row ∈ w.rows, row.toRelationshipKey ∈ w.observed
  writes : ∀ r ∈ w.writes, ∃ e ∈ w.learner.cache, e.rel.toRelationshipKey = r.toRelationshipKey

theorem LearnerWorld.start_counted (cfg : LearnerConfig) (pub : Bool) :
    Counted (LearnerWorld.start cfg pub) where
  kept _ hk := absurd hk List.not_mem_nil
  unstored _ hk := absurd hk List.not_mem_nil
  text _ he := absurd he not_mem_new_cache
  cached _ he := absurd he not_mem_new_cache
  known _ hk := absurd hk List.not_mem_nil
  rows _ hrow := absurd hrow Table.not_mem_empty
  writes _ hr := absurd hr List.not_mem_nil

theorem count_snoc {k k' : RelationshipKey} (ks : List RelationshipKey) :
    (ks ++ [k']).count k = ks.count k + if k' = k then 1 else 0 := by
  rw [List.count_append, List.count_singleton]
  simp

theorem mem_eraseIdx_of_ne {α : Type} {l : List α} {i : Nat} {a b : α} (ha : l[i]? = some a)
    (hb : b ∈ l) (hne : b ≠ a) : b ∈ l.eraseIdx i := by
  obtain ⟨j, hj⟩ := List.mem_iff_getElem?.mp hb
  refine List.mem_eraseIdx_iff_getElem?.mpr ⟨j, fun hij => hne ?_, hj⟩
  rw [hij, ha] at hj
  exact (Option.some.inj hj).symm

section Steps

variable {w : LearnerWorld}

/-- One more observation of a relationship whose entry it leaves dirty. -/
theorem Counted.settle {c : Relationship} {e : CacheEntry} {now : Time} (h : Counted w)
    (hkey : e.key = stableKey c.toRelationshipKey) (hrel : e.rel.toRelationshipKey = c.toRelationshipKey)
    (hseen : e.rel.seenCount = w.observed.count c.toRelationshipKey + 1)
    (hown : ∀ e' ∈ w.learner.cache, e'.key = e.key →
      e'.rel.toRelationshipKey = c.toRelationshipKey) :
    Counted { w with
      learner := w.learner.settle now e
      observed := w.observed ++ [c.toRelationshipKey] } := by
  have hrel' : (e.settle w.learner.cfg now).rel.toRelationshipKey = c.toRelationshipKey := by
    rw [CacheEntry.settle_rel, CacheEntry.promote_relKey, hrel]
  have hmem (e' : CacheEntry) : e' ∈ (w.learner.settle now e).cache ↔
      e' = e.settle w.learner.cfg now ∨
        (e' ∈ w.learner.cache ∧ e'.rel.toRelationshipKey ≠ c.toRelationshipKey) := by
    rw [Learner.mem_settle]
    refine or_congr_right (and_congr_right fun he' => not_congr ⟨hown e' he', fun heq => ?_⟩)
    rw [h.text e' he', heq, hkey]
  have hself : e.settle w.learner.cfg now ∈ (w.learner.settle now e).cache := (hmem _).mpr (.inl rfl)
  have hmine (k : RelationshipKey) (hk : k ∈ w.observed ++ [c.toRelationshipKey]) :
      k = c.toRelationshipKey ∨ (k ≠ c.toRelationshipKey ∧ k ∈ w.observed ∧
        (w.observed ++ [c.toRelationshipKey]).count k = w.observed.count k) := by
    by_cases heq : k = c.toRelationshipKey
    · exact .inl heq
    · have hold : k ∈ w.observed := by simpa [heq] using hk
      exact .inr ⟨heq, hold, by rw [count_snoc, if_neg (Ne.symm heq), Nat.add_zero]⟩
  refine ⟨fun k hk => ?_, fun k hk hrow => ?_, fun e' he' => ?_, fun e' he' => ?_, fun k hk => ?_,
    fun row hrow => List.mem_append_left _ (h.rows row hrow), fun r hr => ?_⟩
  · rcases hmine k hk with rfl | ⟨hne, hold, hcount⟩
    · exact .inl (.inl ⟨_, hself, hrel', by simp⟩)
    · rw [hcount]
      rcases h.kept k hold with (⟨e', he', hk', hdirty⟩ | hwrite) | hrow
      · exact .inl (.inl ⟨e', (hmem e').mpr (.inr ⟨he', hk' ▸ hne⟩), hk', hdirty⟩)
      · exact .inl (.inr hwrite)
      · exact .inr hrow
  · rcases hmine k hk with rfl | ⟨hne, hold, hcount⟩
    · exact .inl ⟨_, hself, hrel', by simp⟩
    · rw [hcount]
      rcases h.unstored k hold hrow with ⟨e', he', hk', hdirty⟩ | hwrite
      · exact .inl ⟨e', (hmem e').mpr (.inr ⟨he', hk' ▸ hne⟩), hk', hdirty⟩
      · exact .inr hwrite
  · rcases (hmem e').mp he' with rfl | ⟨he', -⟩
    · rw [CacheEntry.settle_key, hkey, hrel']
    · exact h.text e' he'
  · rcases (hmem e').mp he' with rfl | ⟨he', hne⟩
    · refine ⟨by simp [hrel'], ?_⟩
      rw [hrel', CacheEntry.settle_rel, CacheEntry.promote_seenCount, hseen, count_snoc, if_pos rfl]
    · obtain ⟨hold, hcount⟩ := h.cached e' he'
      exact ⟨List.mem_append_left _ hold, by
        rw [hcount, count_snoc, if_neg (Ne.symm hne), Nat.add_zero]⟩
  · rcases hmine k hk with rfl | ⟨hne, hold, -⟩
    · exact .inl ⟨_, hself, hrel'⟩
    · rcases h.known k hold with ⟨e', he', hk'⟩ | hrow
      · exact .inl ⟨e', (hmem e').mpr (.inr ⟨he', hk' ▸ hne⟩), hk'⟩
      · exact .inr hrow
  · obtain ⟨e', he', hk'⟩ := h.writes r hr
    by_cases hne : e'.rel.toRelationshipKey = c.toRelationshipKey
    · exact ⟨_, hself, hrel'.trans (hne.symm.trans hk')⟩
    · exact ⟨e', (hmem e').mpr (.inr ⟨he', hne⟩), hk'⟩

theorem Counted.learn {freshID : String} {verdict : EligibilityDecision} {c : Relationship} {now : Time}
    (h : Counted w) (hfit : CountsOnce w (.learn freshID verdict c now)) :
    Counted { w with
      learner := w.learner.learn freshID verdict c now
      observed := if verdict = .denyLearning then w.observed
        else w.observed ++ [c.toRelationshipKey] } := by
  obtain ⟨hnode, hone, hown, hroom⟩ := hfit
  rw [Learner.learn_eq]
  cases hcounted : w.learner.counted freshID verdict c now with
  | none =>
    rcases Learner.counted_eq_none hcounted with hdeny | ⟨hfind, hfull⟩
    · rw [if_pos hdeny]
      exact h
    · have hlt := (hroom hfind).1
      omega
  | some e =>
    have hverdict : verdict ≠ .denyLearning := by
      rintro rfl
      rw [Learner.counted_of_deny] at hcounted
      cases hcounted
    rw [if_neg hverdict]
    rcases Learner.counted_cases hcounted with ⟨hfind, rfl⟩ | ⟨e₀, hfind, rfl⟩
    · have hrel : (CacheEntry.first w.learner.cfg freshID c now).rel.toRelationshipKey =
          c.toRelationshipKey := by
        simp only [CacheEntry.first, ← hnode]
      have hnew : c.toRelationshipKey ∉ w.observed := by
        intro hold
        rcases h.known _ hold with ⟨e, he, hk⟩ | ⟨row, hrow, hk⟩
        · exact Table.find_eq_none.mp hfind e he (by rw [h.text e he, hk])
        · exact (hroom hfind).2 row hrow hk
      refine h.settle rfl hrel ?_ fun e' he' heq => absurd heq (Table.find_eq_none.mp hfind e' he')
      rw [List.count_eq_zero.mpr hnew]
      exact hone
    · obtain ⟨he, hkey⟩ := Table.find_eq_some.mp hfind
      have hrel : e₀.rel.toRelationshipKey = c.toRelationshipKey := hown e₀ hfind
      refine h.settle hkey hrel ?_ fun e' he' heq => ?_
      · rw [CacheEntry.observe_seenCount, (h.cached e₀ he).2, hrel]
      · rw [Table.eq_of_key_eq he' he heq, hrel]

theorem Counted.beginFlush {now : Time} (h : Counted w) :
    Counted { w with
      learner := (w.learner.beginFlush now).1
      writes := w.writes ++ (w.learner.beginFlush now).2 } := by
  have hkept {e : CacheEntry} (he : e ∈ w.learner.cache) :
      ∃ e' ∈ (w.learner.beginFlush now).1.cache, e'.rel.toRelationshipKey = e.rel.toRelationshipKey := by
    refine ⟨_, Learner.mem_beginFlush.mpr ⟨e, he, rfl⟩, ?_⟩
    rw [CacheEntry.flushed_rel, CacheEntry.promote_relKey]
  have htaken {e : CacheEntry} (he : e ∈ w.learner.cache) (hdirty : e.dirtyAt ≠ none) :
      ∃ r ∈ (w.learner.beginFlush now).2, r.toRelationshipKey = e.rel.toRelationshipKey ∧
        r.seenCount = e.rel.seenCount := by
    refine ⟨_, Learner.mem_beginFlush_writes.mpr ⟨e, he, ?_, rfl⟩, CacheEntry.promote_relKey _ _ _,
      CacheEntry.promote_seenCount _ _ _⟩
    unfold CacheEntry.flushed
    split
    · simp
    · exact hdirty
  refine ⟨fun k hk => ?_, fun k hk hrow => ?_, fun e he => ?_, fun e he => ?_, fun k hk => ?_,
    h.rows, fun r hr => ?_⟩
  · rcases h.kept k hk with (⟨e, he, hk', hdirty⟩ | ⟨r, hr, hk'⟩) | hrow
    · obtain ⟨r, hr, hrk, -⟩ := htaken he hdirty
      exact .inl (.inr ⟨r, List.mem_append_right _ hr, hrk.trans hk'⟩)
    · exact .inl (.inr ⟨r, List.mem_append_left _ hr, hk'⟩)
    · exact .inr hrow
  · rcases h.unstored k hk hrow with ⟨e, he, hk', hdirty⟩ | ⟨r, hr, hk', hcount⟩
    · obtain ⟨r, hr, hrk, hcount⟩ := htaken he hdirty
      exact .inr ⟨r, List.mem_append_right _ hr, hrk.trans hk', by rw [hcount, (h.cached e he).2, hk']⟩
    · exact .inr ⟨r, List.mem_append_left _ hr, hk', hcount⟩
  · obtain ⟨e₀, he₀, rfl⟩ := Learner.mem_beginFlush.mp he
    simp only [CacheEntry.flushed_key, CacheEntry.flushed_rel, CacheEntry.promote_relKey]
    exact h.text e₀ he₀
  · obtain ⟨e₀, he₀, rfl⟩ := Learner.mem_beginFlush.mp he
    simp only [CacheEntry.flushed_rel, CacheEntry.promote_relKey, CacheEntry.promote_seenCount]
    exact h.cached e₀ he₀
  · rcases h.known k hk with ⟨e, he, rfl⟩ | hrow
    · exact .inl (hkept he)
    · exact .inr hrow
  · rcases List.mem_append.mp hr with hr | hr
    · obtain ⟨e, he, hk⟩ := h.writes r hr
      obtain ⟨e', he', hk'⟩ := hkept he
      exact ⟨e', he', hk'.trans hk⟩
    · obtain ⟨e, he, -, rfl⟩ := Learner.mem_beginFlush_writes.mp hr
      obtain ⟨e', he', hk'⟩ := hkept he
      exact ⟨e', he', hk'.trans (CacheEntry.promote_relKey _ _ _).symm⟩

theorem Counted.write {i : Nat} {now : Time} {fails : Bool} {r : Relationship} (h : Counted w)
    (hfit : CountsOnce w (.write i now fails)) (hr : w.writes[i]? = some r) :
    Counted { w with rows := w.written now fails r, writes := w.writes.eraseIdx i } := by
  obtain ⟨rfl, hfresh⟩ := hfit
  have hnew : ∀ row ∈ w.rows, row.toRelationshipKey ≠ r.toRelationshipKey :=
    fun row hrow => (hfresh r hr row hrow).1
  have hmem (row : Relationship) : row ∈ w.written now false r ↔
      row = RelationshipTable.stored now r ∨ row ∈ w.rows := by
    have hid : ¬ ∃ row ∈ w.rows.rows, row.id = r.id := by
      rintro ⟨row, hrow, hid⟩
      exact (hfresh r hr row hrow).2 hid
    have hwritten : w.written now false r = w.rows.upsert (RelationshipTable.stored now r) := by
      simp only [LearnerWorld.written, RelationshipTable.upsertRelationship,
        Table.find_eq_none.mpr hnew, if_neg hid]
      rfl
    rw [hwritten, Table.mem_upsert]
    exact or_congr_right (and_iff_left_of_imp (hnew row))
  have hwrite : r ∈ w.writes := List.mem_of_getElem? hr
  have hother {k : RelationshipKey} (hk : k ≠ r.toRelationshipKey)
      (hwait : ∃ r' ∈ w.writes, r'.toRelationshipKey = k) :
      ∃ r' ∈ w.writes.eraseIdx i, r'.toRelationshipKey = k := by
    obtain ⟨r', hr', rfl⟩ := hwait
    exact ⟨r', mem_eraseIdx_of_ne hr hr' fun heq => hk (by rw [heq]), rfl⟩
  refine ⟨fun k hk => ?_, fun k hk hrow => ?_, h.text, h.cached, fun k hk => ?_, fun row hrow => ?_,
    fun r' hr' => h.writes r' (List.mem_of_mem_eraseIdx hr')⟩
  · by_cases hne : k = r.toRelationshipKey
    · subst hne
      by_cases hcount : r.seenCount = w.observed.count r.toRelationshipKey
      · exact .inr ⟨_, (hmem _).mpr (.inl rfl), rfl, hcount⟩
      · rcases h.unstored _ hk hnew with hdirty | ⟨r', hr', hk', hcount'⟩
        · exact .inl (.inl hdirty)
        · have hne : r' ≠ r := by
            rintro rfl
            exact hcount hcount'
          exact .inl (.inr ⟨r', mem_eraseIdx_of_ne hr hr' hne, hk'⟩)
    · rcases h.kept k hk with (hdirty | hwait) | ⟨row, hrow, hk', hcount⟩
      · exact .inl (.inl hdirty)
      · exact .inl (.inr (hother hne hwait))
      · exact .inr ⟨row, (hmem row).mpr (.inr hrow), hk', hcount⟩
  · have hne : k ≠ r.toRelationshipKey := fun heq => hrow _ ((hmem _).mpr (.inl rfl)) heq.symm
    rcases h.unstored k hk fun row hrow' => hrow row ((hmem row).mpr (.inr hrow')) with
      hdirty | ⟨r', hr', hk', hcount⟩
    · exact .inl hdirty
    · refine .inr ⟨r', mem_eraseIdx_of_ne hr hr' ?_, hk', hcount⟩
      rintro rfl
      exact hne hk'.symm
  · rcases h.known k hk with he | ⟨row, hrow, hk'⟩
    · exact .inl he
    · exact .inr ⟨row, (hmem row).mpr (.inr hrow), hk'⟩
  · rcases (hmem row).mp hrow with rfl | hrow
    · obtain ⟨e, he, hk⟩ := h.writes r hwrite
      have hold := (h.cached e he).1
      rw [hk] at hold
      exact hold
    · exact h.rows row hrow

theorem Counted.freeze {now : Time} (h : Counted w) :
    Counted { w with learner := w.learner.freezeCache now } := by
  have hmem {e : CacheEntry} (he : e ∈ w.learner.cache) :
      e.frozen now ∈ (w.learner.freezeCache now).cache := Learner.mem_freezeCache.mpr ⟨e, he, rfl⟩
  have hdirty {e : CacheEntry} (hd : e.dirtyAt ≠ none) : (e.frozen now).dirtyAt ≠ none := by
    unfold CacheEntry.frozen
    split
    · simp
    · exact hd
  refine ⟨fun k hk => ?_, fun k hk hrow => ?_, fun e he => ?_, fun e he => ?_, fun k hk => ?_, h.rows,
    fun r hr => ?_⟩
  · rcases h.kept k hk with (⟨e, he, hk', hd⟩ | hwait) | hrow
    · exact .inl (.inl ⟨_, hmem he, (CacheEntry.frozen_relKey now e).trans hk', hdirty hd⟩)
    · exact .inl (.inr hwait)
    · exact .inr hrow
  · rcases h.unstored k hk hrow with ⟨e, he, hk', hd⟩ | hwait
    · exact .inl ⟨_, hmem he, (CacheEntry.frozen_relKey now e).trans hk', hdirty hd⟩
    · exact .inr hwait
  · obtain ⟨e₀, he₀, rfl⟩ := Learner.mem_freezeCache.mp he
    rw [CacheEntry.frozen_key, CacheEntry.frozen_relKey]
    exact h.text e₀ he₀
  · obtain ⟨e₀, he₀, rfl⟩ := Learner.mem_freezeCache.mp he
    rw [CacheEntry.frozen_relKey, CacheEntry.frozen_seenCount]
    exact h.cached e₀ he₀
  · rcases h.known k hk with ⟨e, he, rfl⟩ | hrow
    · exact .inl ⟨_, hmem he, CacheEntry.frozen_relKey now e⟩
    · exact .inr hrow
  · obtain ⟨e, he, hk⟩ := h.writes r hr
    exact ⟨_, hmem he, (CacheEntry.frozen_relKey now e).trans hk⟩

theorem Counted.reload {fails : Bool} (h : Counted w) :
    Counted { w with learner := w.learner.loadFromStore w.rows fails } := by
  have hmem {e : CacheEntry} (he : e ∈ w.learner.cache) :
      e ∈ (w.learner.loadFromStore w.rows fails).cache := Learner.mem_loadFromStore_of_mem he
  -- A stored relationship without an entry has no write under way, so its count is right.
  have hloaded {row : Relationship} (hrow : row ∈ w.rows)
      (hin : CacheEntry.loaded row ∈ (w.learner.loadFromStore w.rows fails).cache)
      (hout : CacheEntry.loaded row ∉ w.learner.cache) :
      row.seenCount = w.observed.count row.toRelationshipKey := by
    have hnone : ∀ e ∈ w.learner.cache, e.rel.toRelationshipKey ≠ row.toRelationshipKey := by
      intro e he hk
      have hkey : e.key = (CacheEntry.loaded row).key := by
        rw [h.text e he, hk]
        rfl
      exact hout (Table.eq_of_key_eq (hmem he) hin hkey ▸ he)
    rcases h.kept _ (h.rows row hrow) with (⟨e, he, hk, -⟩ | ⟨r, hr, hk⟩) | ⟨row', hrow', hk, hcount⟩
    · exact absurd hk (hnone e he)
    · obtain ⟨e, he, hk'⟩ := h.writes r hr
      exact absurd (hk'.trans hk) (hnone e he)
    · rwa [Table.eq_of_key_eq hrow' hrow hk] at hcount
  refine ⟨fun k hk => ?_, fun k hk hrow => ?_, fun e he => ?_, fun e he => ?_, fun k hk => ?_, h.rows,
    fun r hr => ?_⟩
  · rcases h.kept k hk with (⟨e, he, hd⟩ | hwait) | hrow
    · exact .inl (.inl ⟨e, hmem he, hd⟩)
    · exact .inl (.inr hwait)
    · exact .inr hrow
  · rcases h.unstored k hk hrow with ⟨e, he, hd⟩ | hwait
    · exact .inl ⟨e, hmem he, hd⟩
    · exact .inr hwait
  · rcases Learner.mem_loadFromStore he with he | ⟨row, -, rfl⟩
    · exact h.text e he
    · rfl
  · by_cases hold : e ∈ w.learner.cache
    · exact h.cached e hold
    · rcases Learner.mem_loadFromStore he with he | ⟨row, hrow, rfl⟩
      · exact absurd he hold
      · exact ⟨h.rows row hrow, hloaded hrow he hold⟩
  · rcases h.known k hk with ⟨e, he, hk'⟩ | hrow
    · exact .inl ⟨e, hmem he, hk'⟩
    · exact .inr hrow
  · obtain ⟨e, he, hk⟩ := h.writes r hr
    exact ⟨e, hmem he, hk⟩

theorem Counted.restart {cfg : LearnerConfig} {pub fails : Bool} (h : Counted w)
    (hfit : CountsOnce w (.restart cfg pub fails)) :
    Counted { w with learner := (Learner.new cfg pub).loadFromStore w.rows fails, writes := [] } := by
  obtain ⟨hclean, hwrites⟩ := hfit
  have hkept (k : RelationshipKey) (hk : k ∈ w.observed) :
      ∃ row ∈ w.rows, row.toRelationshipKey = k ∧ row.seenCount = w.observed.count k := by
    rcases h.kept k hk with (⟨e, he, -, hd⟩ | ⟨r, hr, -⟩) | hrow
    · exact absurd (hclean e he) hd
    · rw [hwrites] at hr
      exact absurd hr List.not_mem_nil
    · exact hrow
  have hloaded {e : CacheEntry} (he : e ∈ ((Learner.new cfg pub).loadFromStore w.rows fails).cache) :
      ∃ row ∈ w.rows, e = .loaded row :=
    (Learner.mem_loadFromStore he).resolve_left not_mem_new_cache
  refine ⟨fun k hk => .inr (hkept k hk), fun k hk hrow => ?_, fun e he => ?_, fun e he => ?_,
    fun k hk => ?_, h.rows, fun r hr => absurd hr List.not_mem_nil⟩
  · obtain ⟨row, hin, hk', -⟩ := hkept k hk
    exact absurd hk' (hrow row hin)
  · obtain ⟨row, -, rfl⟩ := hloaded he
    rfl
  · obtain ⟨row, hrow, rfl⟩ := hloaded he
    obtain ⟨row', hrow', hk, hcount⟩ := hkept _ (h.rows row hrow)
    rw [Table.eq_of_key_eq hrow' hrow hk] at hcount
    exact ⟨h.rows row hrow, hcount⟩
  · obtain ⟨row, hrow, hk', -⟩ := hkept k hk
    exact .inr ⟨row, hrow, hk'⟩

theorem Counted.operator {op : OperatorWrite} (h : Counted w) (hfit : CountsOnce w (.operator op)) :
    Counted { w with rows := op.apply w.rows, decided := w.decidedAfter op } := by
  have hop (nodeID : String) (keepStates : List RelationshipState) : op ≠ .reset nodeID keepStates := by
    rintro rfl
    exact hfit
  have hmem {row : Relationship} (hrow : row ∈ w.rows) := exists_mem_operatorWrite (.inl hop) hrow
  refine ⟨fun k hk => ?_, fun k hk hrow => h.unstored k hk fun row hin heq => ?_, h.text, h.cached,
    fun k hk => ?_, fun row hrow => ?_, h.writes⟩
  · rcases h.kept k hk with hwait | ⟨row, hrow, rfl, hcount⟩
    · exact .inl hwait
    · obtain ⟨row', hrow', hk', hcount'⟩ := hmem hrow
      exact .inr ⟨row', hrow', hk', hcount'.trans hcount⟩
  · obtain ⟨row', hrow', hk', -⟩ := hmem hin
    exact hrow row' hrow' (hk'.trans heq)
  · rcases h.known k hk with he | ⟨row, hrow, rfl⟩
    · exact .inl he
    · obtain ⟨row', hrow', hk', -⟩ := hmem hrow
      exact .inr ⟨row', hrow', hk'⟩
  · obtain ⟨row₀, hrow₀, hk, -⟩ := mem_operatorWrite hrow
    rw [hk]
    exact h.rows row₀ hrow₀

theorem Counted.step {w' : LearnerWorld} {e : LearnerEvent} (h : Counted w) (hfit : CountsOnce w e)
    (hstep : LearnerStep w e w') : Counted w' := by
  cases e with
  | learn freshID verdict c now =>
    obtain rfl := Option.some.inj hstep
    exact h.learn hfit
  | beginFlush now =>
    obtain rfl := Option.some.inj hstep
    exact h.beginFlush
  | write i now fails =>
    obtain ⟨r, hr, rfl⟩ := Option.map_eq_some_iff.mp hstep
    exact h.write hfit hr
  | freeze now =>
    obtain rfl := Option.some.inj hstep
    exact h.freeze
  | reload fails =>
    obtain rfl := Option.some.inj hstep
    exact h.reload
  | restart cfg pub fails =>
    obtain rfl := Option.some.inj hstep
    exact h.restart hfit
  | operator op =>
    obtain rfl := Option.some.inj hstep
    exact h.operator hfit

end Steps

/-- In every run that writes each relationship once, no observation is lost or counted twice. -/
theorem counts_kept {cfg : LearnerConfig} {pub : Bool} {w : LearnerWorld} {es : List LearnerEvent}
    (h : Run (Guarded CountsOnce LearnerStep) (.start cfg pub) es w) : w.CountsKept := by
  have hcounted : Counted w := h.invariant (LearnerWorld.start_counted cfg pub) fun hs hstep =>
    hs.step hstep.1 hstep.2
  exact hcounted.kept

def runTwoSeenOneFlush : Option LearnerWorld :=
  ([seenAt 1 .allowLearning, seenAt 2 .allowLearning] ++ flushAt 3 false).foldlM
    (fun w e => if CountsOnce w e then learnerStep w e else none) fixtureLearner

theorem two_seen_facts :
    (runTwoSeenOneFlush.any fun w => w.rows.rows.map Relationship.seenCount = [2]) = true := by
  decide +kernel

theorem two_seen_counted : ∃ es w, Run (Guarded CountsOnce LearnerStep) fixtureLearner es w ∧
    w.rows.rows.map Relationship.seenCount = [2] ∧ w.CountsKept := by
  have hfacts := two_seen_facts
  rcases hw : runTwoSeenOneFlush with _ | w
  · simp [hw] at hfacts
  · rw [hw, Option.any_some] at hfacts
    have hrun := guarded_of_foldlM hw
    exact ⟨_, w, hrun, of_decide_eq_true hfacts, counts_kept hrun⟩

def runSeenBetweenFlushes : Option LearnerWorld :=
  ([seenAt 1 .allowLearning] ++ flushAt 2 false ++ [seenAt 3 .allowLearning] ++
    flushAt 4 false).foldlM learnerStep fixtureLearner

def runFailedFlush : Option LearnerWorld :=
  ([seenAt 1 .allowLearning] ++ flushAt 2 true).foldlM learnerStep fixtureLearner

theorem recount_facts :
    (runSeenBetweenFlushes.any fun w => w.observed.length = 2 ∧ w.writes = [] ∧
      w.rows.rows.map Relationship.seenCount = [3] ∧ ¬ w.CountsKept) = true ∧
    (runFailedFlush.any fun w => w.observed.length = 1 ∧ w.writes = [] ∧ w.rows.rows = [] ∧
      w.learner.cache.rows.map CacheEntry.dirtyAt = [none] ∧ ¬ w.CountsKept) = true := by
  decide +kernel

/-- Two observations with a flush after each are stored as three; a write that fails leaves the
entry clean. -/
theorem flushed_twice_counts_three :
    (∃ es w, Run LearnerStep fixtureLearner es w ∧ w.observed.length = 2 ∧ w.writes = [] ∧
      w.rows.rows.map Relationship.seenCount = [3] ∧ ¬ w.CountsKept) ∧
    ∃ es w, Run LearnerStep fixtureLearner es w ∧ w.observed.length = 1 ∧ w.writes = [] ∧
      w.rows.rows = [] ∧ w.learner.cache.rows.map CacheEntry.dirtyAt = [none] ∧ ¬ w.CountsKept := by
  obtain ⟨htwice, hfailed⟩ := recount_facts
  constructor
  · rcases hw : runSeenBetweenFlushes with _ | w
    · simp [hw] at htwice
    · rw [hw, Option.any_some] at htwice
      exact ⟨_, w, run_of_foldlM hw, of_decide_eq_true htwice⟩
  · rcases hw : runFailedFlush with _ | w
    · simp [hw] at hfailed
    · rw [hw, Option.any_some] at hfailed
      exact ⟨_, w, run_of_foldlM hw, of_decide_eq_true hfailed⟩

end Kernloom
