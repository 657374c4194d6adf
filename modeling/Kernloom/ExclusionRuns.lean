import Kernloom.LearningGuard
import Kernloom.Transition

/-! Runs of the learning guard against the exclusions in force. -/

namespace Kernloom

open Keyed Transition

/-- An exclusion that covers an entity and a dimension and has not expired. -/
def InForce (entityID : String) (dim : AppliesTo) (now : Time) (e : Exclusion) : Prop :=
  e.entityID = entityID ∧ appliesToDimension e.appliesTo dim ∧ now < e.expiresAt

instance (entityID : String) (dim : AppliesTo) (now : Time) (e : Exclusion) :
    Decidable (InForce entityID dim now e) :=
  inferInstanceAs (Decidable (_ ∧ _ ∧ _))

/-- The strictest verdict of the exclusions in force. -/
def strictestVerdict (added : List Exclusion) (entityID : String) (dim : AppliesTo) (now : Time) :
    EligibilityDecision :=
  if ∃ e ∈ added, InForce entityID dim now e ∧ decisionFromReason e.reason = .denyLearning
  then .denyLearning
  else if ∃ e ∈ added, InForce entityID dim now e then .evidenceOnly
  else .allowLearning

structure GuardWorld where
  guard : LearningGuard
  /-- The exclusions added and not revoked. -/
  added : List Exclusion
  clock : Time

inductive GuardEvent
  | add (e : Exclusion) (now : Time) (fails : Bool)
  | revoke (id : String) (now : Time) (fails : Bool)
  | check (entityID : String) (dim : AppliesTo) (now : Time) (fails : Bool)

/-- A guard over an empty table, or without a store. -/
def GuardWorld.start (cacheTTL : Duration) (backed : Bool) : GuardWorld where
  guard := .new cacheTTL (if backed then some .empty else none) none
  added := []
  clock := 0

def GuardEvent.now : GuardEvent → Time
  | .add _ now _ => now
  | .revoke _ now _ => now
  | .check _ _ now _ => now

/-- One call of the guard; times do not decrease. -/
def guardStep (order : RowOrder) (w : GuardWorld) (event : GuardEvent) : Option GuardWorld :=
  if event.now < w.clock then none
  else match event with
    | .add e now fails =>
      let (guard, ok) := w.guard.addExclusion fails e now
      some { guard, clock := now
             added := if ok then w.added.filter (fun o => o.id ≠ e.id) ++ [e] else w.added }
    | .revoke id now fails =>
      let (guard, ok) := w.guard.revokeExclusion fails id
      some { guard, clock := now
             added := if ok then w.added.filter (fun o => o.id ≠ id) else w.added }
    | .check entityID dim now fails =>
      some { w with guard := (w.guard.check order fails entityID dim now).2, clock := now }

/-- Whatever the other exclusion forbids, the new one forbids as strictly and for as long. -/
def Dominates (e o : Exclusion) : Prop :=
  (e.appliesTo = [] ∨ o.appliesTo ≠ [] ∧ ∀ dim ∈ o.appliesTo, dim ∈ e.appliesTo) ∧
    o.expiresAt ≤ e.expiresAt ∧ decisionFromReason o.reason = decisionFromReason e.reason

instance (e o : Exclusion) : Decidable (Dominates e o) := inferInstanceAs (Decidable (_ ∧ _ ∧ _))

/-- A new exclusion is active, keeps the entity and the reason of its ID, and dominates the others
of its entity. A check reads from a fresh cache at no expiry, or from a store that answers and
whose texts order the expiries; where there is nothing to read, nothing is in force. -/
def ExclusionsFit (w : GuardWorld) : GuardEvent → Prop
  | .add e now _ => e.status = .active ∧
      (∀ rows ∈ w.guard.store, ∀ row ∈ rows.rows, row.id = e.id →
        row.entityID = e.entityID ∧ row.reason = e.reason) ∧
      (∀ o ∈ w.added, o.id = e.id → o.entityID = e.entityID) ∧
      ∀ o ∈ w.added, o.id ≠ e.id → o.entityID = e.entityID → now < o.expiresAt → Dominates e o
  | .revoke _ _ _ => True
  | .check entityID dim now fails =>
      match w.guard.fresh entityID now with
      | some exclusions => ∀ e ∈ exclusions, e.expiresAt ≠ now
      | none =>
        match w.guard.store with
        | none => ∀ o ∈ w.added, ¬ InForce entityID dim now o
        | some rows => fails = false ∧ ∀ row ∈ rows.rows, row.entityID = entityID →
            now < row.expiresAt → rfc3339Nano now < rfc3339Nano row.expiresAt

instance (w : GuardWorld) (event : GuardEvent) : Decidable (ExclusionsFit w event) := by
  cases event with
  | add e now fails =>
    unfold ExclusionsFit
    infer_instance
  | revoke id now fails => exact instDecidableTrue
  | check entityID dim now fails =>
    unfold ExclusionsFit
    dsimp only
    split
    · infer_instance
    · split <;> infer_instance

section Verdicts

variable {entityID : String} {dim : AppliesTo} {now : Time} {added : List Exclusion} {e o : Exclusion}

theorem Dominates.refl (e : Exclusion) : Dominates e e := by
  refine ⟨?_, le_refl _, rfl⟩
  by_cases h : e.appliesTo = []
  · exact .inl h
  · exact .inr ⟨h, fun _ hdim => hdim⟩

theorem Dominates.applies (h : Dominates e o) (hdim : appliesToDimension o.appliesTo dim) :
    appliesToDimension e.appliesTo dim := by
  rcases h.1 with hall | ⟨hne, hsub⟩
  · exact .inl hall
  · exact .inr (hsub dim (hdim.resolve_left hne))

theorem decisionFromReason_cases (r : ExclusionReason) :
    decisionFromReason r = .denyLearning ∨ decisionFromReason r = .evidenceOnly := by
  cases r <;> simp [decisionFromReason]

theorem strictestVerdict_of_none (h : ∀ o ∈ added, ¬ InForce entityID dim now o) :
    strictestVerdict added entityID dim now = .allowLearning := by
  unfold strictestVerdict
  rw [if_neg fun ⟨o, ho, hforce, _⟩ => h o ho hforce, if_neg fun ⟨o, ho, hforce⟩ => h o ho hforce]

/-- When the exclusions in force agree, each gives the strictest verdict. -/
theorem strictestVerdict_of_agree (he : e ∈ added) (hforce : InForce entityID dim now e)
    (hagree : ∀ o ∈ added, InForce entityID dim now o →
      decisionFromReason o.reason = decisionFromReason e.reason) :
    strictestVerdict added entityID dim now = decisionFromReason e.reason := by
  unfold strictestVerdict
  rcases decisionFromReason_cases e.reason with hdeny | hevidence
  · rw [if_pos ⟨e, he, hforce, hdeny⟩, hdeny]
  · rw [if_neg, if_pos ⟨e, he, hforce⟩, hevidence]
    rintro ⟨o, ho, hforce', hdeny⟩
    rw [hagree o ho hforce', hevidence] at hdeny
    cases hdeny

theorem forbids_iff : strictestVerdict added entityID dim now ≠ .allowLearning ↔
    ∃ e ∈ added, InForce entityID dim now e := by
  constructor
  · intro h
    by_contra hnone
    exact h (strictestVerdict_of_none fun o ho hforce => hnone ⟨o, ho, hforce⟩)
  · intro hsome
    unfold strictestVerdict
    split
    · simp
    · simp

/-- A list of some of the exclusions of an entity gives the strictest verdict if it dominates the
others, nothing in it expires just now, and all those in force agree. -/
theorem verdict_eq_strictest {exclusions : List Exclusion}
    (hlisted : ∀ x ∈ exclusions, x ∈ added ∧ x.entityID = entityID ∧ x.status = .active)
    (hcovers : ∀ o ∈ added, o.entityID = entityID → now < o.expiresAt → ∃ x ∈ exclusions, Dominates x o)
    (hagree : ∀ o ∈ added, ∀ o' ∈ added, o.entityID = entityID → o'.entityID = entityID →
      now < o.expiresAt → now < o'.expiresAt → decisionFromReason o.reason = decisionFromReason o'.reason)
    (hexpiry : ∀ x ∈ exclusions, x.expiresAt ≠ now) :
    (LearningGuard.verdict dim now exclusions).decision = strictestVerdict added entityID dim now := by
  unfold LearningGuard.verdict
  split
  · next x hfind =>
    have hx := List.mem_of_find?_eq_some hfind
    have hpasses := List.find?_some hfind
    obtain ⟨-, hlast, happlies⟩ := of_decide_eq_true hpasses
    obtain ⟨hadded, hentity, -⟩ := hlisted x hx
    have hlt : now < x.expiresAt := lt_of_le_of_ne (not_lt.mp hlast) (hexpiry x hx).symm
    refine (strictestVerdict_of_agree hadded ⟨hentity, happlies, hlt⟩ fun o ho hforce => ?_).symm
    exact hagree o ho x hadded hforce.1 hentity hforce.2.2 hlt
  · next hfind =>
    refine (strictestVerdict_of_none fun o ho ⟨hentity, happlies, hlt⟩ => ?_).symm
    obtain ⟨x, hx, hdom⟩ := hcovers o ho hentity hlt
    have hnot := List.find?_eq_none.mp hfind x hx
    have hlater : ¬ x.expiresAt < now := not_lt.mpr (hlt.le.trans hdom.2.1)
    exact hnot (decide_eq_true ⟨(hlisted x hx).2.2, hlater, hdom.applies happlies⟩)

end Verdicts

/-- The cache and the table against the exclusions in force. -/
structure Reflects (w : GuardWorld) : Prop where
  registry : w.guard.suspicious = none
  active : ∀ e ∈ w.added, e.status = .active
  stored : ∀ rows, w.guard.store = some rows → ∀ e, e ∈ w.added ↔ e ∈ rows ∧ e.status = .active
  cached : ∀ entityID entry, w.guard.cache.lookup entityID = some entry →
    ∀ x ∈ entry.exclusions, x ∈ w.added ∧ x.entityID = entityID
  covers : ∀ entityID entry, w.guard.cache.lookup entityID = some entry →
    ∀ o ∈ w.added, o.entityID = entityID → w.clock < o.expiresAt → ∃ x ∈ entry.exclusions, Dominates x o
  agree : ∀ o ∈ w.added, ∀ o' ∈ w.added, o.entityID = o'.entityID → w.clock < o.expiresAt →
    w.clock < o'.expiresAt → decisionFromReason o.reason = decisionFromReason o'.reason

namespace Reflects

variable {w : GuardWorld} {order : RowOrder} {now : Time}

theorem start (cacheTTL : Duration) (backed : Bool) : Reflects (.start cacheTTL backed) where
  registry := rfl
  active _ he := absurd he List.not_mem_nil
  stored rows hrows e := by
    cases backed with
    | false => cases hrows
    | true =>
      obtain rfl := Option.some.inj hrows
      exact iff_of_false List.not_mem_nil fun h => absurd h.1 Table.not_mem_empty
  cached _ _ hentry := nomatch hentry
  covers _ _ hentry := nomatch hentry
  agree _ ho := absurd ho List.not_mem_nil

/-- What an entity's exclusions are loaded as gives the strictest verdict. -/
theorem verdict {entityID : String} {dim : AppliesTo} {fails : Bool} (h : Reflects w)
    (hnow : w.clock ≤ now) (hfit : ExclusionsFit w (.check entityID dim now fails)) :
    (LearningGuard.verdict dim now (w.guard.loadExclusions order fails entityID now).1).decision =
      strictestVerdict w.added entityID dim now := by
  have hagree : ∀ o ∈ w.added, ∀ o' ∈ w.added, o.entityID = entityID → o'.entityID = entityID →
      now < o.expiresAt → now < o'.expiresAt →
      decisionFromReason o.reason = decisionFromReason o'.reason :=
    fun o ho o' ho' he he' hlt hlt' => h.agree o ho o' ho' (he.trans he'.symm)
      (hnow.trans_lt hlt) (hnow.trans_lt hlt')
  unfold LearningGuard.loadExclusions
  simp only [ExclusionsFit] at hfit
  cases hfresh : w.guard.fresh entityID now with
  | some exclusions =>
    simp only [hfresh] at hfit ⊢
    obtain ⟨entry, hentry, rfl⟩ : ∃ entry, w.guard.cache.lookup entityID = some entry ∧
        exclusions = entry.exclusions := by
      unfold LearningGuard.fresh at hfresh
      split at hfresh
      · next entry hentry =>
        split at hfresh
        · exact ⟨entry, hentry, (Option.some.inj hfresh).symm⟩
        · cases hfresh
      · cases hfresh
    refine verdict_eq_strictest (fun x hx => ?_) (fun o ho he hlt => ?_) hagree hfit
    · obtain ⟨hadded, hentity⟩ := h.cached entityID entry hentry x hx
      exact ⟨hadded, hentity, h.active x hadded⟩
    · exact h.covers entityID entry hentry o ho he (hnow.trans_lt hlt)
  | none =>
    simp only [hfresh] at hfit ⊢
    cases hstore : w.guard.store with
    | none =>
      simp only [hstore] at hfit ⊢
      exact (strictestVerdict_of_none hfit).symm
    | some rows =>
      simp only [hstore] at hfit ⊢
      obtain ⟨rfl, htexts⟩ := hfit
      refine verdict_eq_strictest (fun x hx => ?_) (fun o ho he hlt => ⟨o, ?_, .refl o⟩) hagree
        fun x hx heq => ?_
      · obtain ⟨hrow, hentity, hactive, -⟩ := ExclusionTable.mem_activeExclusionsFor.mp hx
        exact ⟨(h.stored rows hstore x).mpr ⟨hrow, hactive⟩, hentity, hactive⟩
      · obtain ⟨hrow, hactive⟩ := (h.stored rows hstore o).mp ho
        exact ExclusionTable.mem_activeExclusionsFor.mpr ⟨hrow, he, hactive, htexts o hrow he hlt⟩
      · obtain ⟨-, -, -, hlt⟩ := ExclusionTable.mem_activeExclusionsFor.mp hx
        rw [heq] at hlt
        exact lt_irrefl _ hlt

/-- The cache after an exclusion is added: its own entity's entry holds it alone. -/
theorem addCached {e : Exclusion} {added : List Exclusion} (h : Reflects w) (hnow : w.clock ≤ now)
    (hadded : ∀ o, o ∈ added ↔ o = e ∨ (o ∈ w.added ∧ o.id ≠ e.id))
    (hentity : ∀ o ∈ w.added, o.id = e.id → o.entityID = e.entityID)
    (hdom : ∀ o ∈ w.added, o.id ≠ e.id → o.entityID = e.entityID → now < o.expiresAt → Dominates e o)
    (hactive : e.status = .active) {guard : LearningGuard} (hregistry : guard.suspicious = none)
    (hcache : guard.cache = (w.guard.cache.erase e.entityID).insert e.entityID ⟨[e], now⟩)
    (hstored : ∀ rows, guard.store = some rows → ∀ o, o ∈ added ↔ o ∈ rows ∧ o.status = .active) :
    Reflects { guard, added, clock := now } := by
  have hlookup (entityID : String) : guard.cache.lookup entityID =
      if entityID = e.entityID then some ⟨[e], now⟩ else w.guard.cache.lookup entityID := by
    rw [hcache]
    by_cases hsame : entityID = e.entityID
    · rw [if_pos hsame, hsame, AList.lookup_insert]
    · rw [if_neg hsame, AList.lookup_insert_ne hsame, AList.lookup_erase_ne hsame]
  refine ⟨hregistry, fun o ho => ?_, hstored, fun entityID entry hentry x hx => ?_,
    fun entityID entry hentry o ho he hlt => ?_, fun o ho o' ho' he hlt hlt' => ?_⟩
  · rcases (hadded o).mp ho with rfl | ⟨ho, -⟩
    · exact hactive
    · exact h.active o ho
  · change guard.cache.lookup entityID = some entry at hentry
    rw [hlookup] at hentry
    split at hentry
    · next hsame =>
      obtain rfl := Option.some.inj hentry
      obtain rfl := List.mem_singleton.mp hx
      exact ⟨(hadded x).mpr (.inl rfl), hsame.symm⟩
    · next hother =>
      obtain ⟨hx', hxe⟩ := h.cached entityID entry hentry x hx
      refine ⟨(hadded x).mpr (.inr ⟨hx', fun hid => hother ?_⟩), hxe⟩
      rw [← hxe, hentity x hx' hid]
  · change guard.cache.lookup entityID = some entry at hentry
    rw [hlookup] at hentry
    split at hentry
    · next hsame =>
      obtain rfl := Option.some.inj hentry
      refine ⟨e, List.mem_singleton_self e, ?_⟩
      rcases (hadded o).mp ho with rfl | ⟨ho, hid⟩
      · exact .refl o
      · exact hdom o ho hid (he.trans hsame) hlt
    · next hother =>
      rcases (hadded o).mp ho with rfl | ⟨ho, hid⟩
      · exact absurd he.symm hother
      · exact h.covers entityID entry hentry o ho he (hnow.trans_lt hlt)
  · rcases (hadded o).mp ho with rfl | ⟨ho, hid⟩ <;> rcases (hadded o').mp ho' with rfl | ⟨ho', hid'⟩
    · rfl
    · exact (hdom o' ho' hid' he.symm hlt').2.2.symm
    · exact (hdom o ho hid he hlt).2.2
    · exact h.agree o ho o' ho' he (hnow.trans_lt hlt) (hnow.trans_lt hlt')

/-- Forgetting cache entries and exclusions keeps what is left right. -/
theorem weaken {w' : GuardWorld} (h : Reflects w) (hnow : w.clock ≤ w'.clock)
    (hregistry : w'.guard.suspicious = none) (hadded : ∀ o ∈ w'.added, o ∈ w.added)
    (hstored : ∀ rows, w'.guard.store = some rows → ∀ o, o ∈ w'.added ↔ o ∈ rows ∧ o.status = .active)
    (hcache : ∀ entityID entry, w'.guard.cache.lookup entityID = some entry →
      w.guard.cache.lookup entityID = some entry ∧ w'.added = w.added) : Reflects w' where
  registry := hregistry
  active o ho := h.active o (hadded o ho)
  stored := hstored
  cached entityID entry hentry x hx := by
    obtain ⟨hold, heq⟩ := hcache entityID entry hentry
    rw [heq]
    exact h.cached entityID entry hold x hx
  covers entityID entry hentry o ho he hlt :=
    h.covers entityID entry (hcache entityID entry hentry).1 o (hadded o ho) he (hnow.trans_lt hlt)
  agree o ho o' ho' he hlt hlt' :=
    h.agree o (hadded o ho) o' (hadded o' ho') he (hnow.trans_lt hlt) (hnow.trans_lt hlt')

theorem add {e : Exclusion} {fails : Bool} (h : Reflects w) (hnow : w.clock ≤ now)
    (hfit : ExclusionsFit w (.add e now fails)) :
    Reflects { guard := (w.guard.addExclusion fails e now).1
               added := if (w.guard.addExclusion fails e now).2
                 then w.added.filter (fun o => o.id ≠ e.id) ++ [e] else w.added
               clock := now } := by
  obtain ⟨hactive, hrow, hentity, hdom⟩ := hfit
  have hadded (o : Exclusion) : o ∈ w.added.filter (fun o => o.id ≠ e.id) ++ [e] ↔
      o = e ∨ (o ∈ w.added ∧ o.id ≠ e.id) := by
    simp [or_comm]
  have herased : (w.guard.cache.erase e.entityID).lookup e.entityID = none := AList.lookup_erase _ _
  unfold LearningGuard.addExclusion LearningGuard.invalidateCache
  cases hstore : w.guard.store with
  | none =>
    refine h.addCached hnow hadded hentity hdom hactive h.registry ?_ fun rows hrows => ?_
    · simp [LearningGuard.cacheExclusion, herased]
    · cases hrows
  | some rows =>
    have hstored := h.stored rows hstore
    cases fails with
    | true =>
      simp only [if_true]
      refine h.weaken hnow h.registry (fun o ho => ho) (fun rows' hrows' => ?_)
        fun entityID entry hentry => ⟨?_, rfl⟩
      · exact h.stored rows' (hstore.trans hrows')
      · by_cases hsame : entityID = e.entityID
        · rw [hsame, herased] at hentry
          cases hentry
        · rwa [AList.lookup_erase_ne hsame] at hentry
    | false =>
      -- A row with the exclusion's ID has its entity and reason, so the write leaves just it.
      have hupsert : rows.upsertExclusion e = rows.upsert e := by
        unfold ExclusionTable.upsertExclusion
        cases hfind : rows.find e.id with
        | none => rfl
        | some row =>
          obtain ⟨hin, hid⟩ := Table.find_eq_some.mp hfind
          obtain ⟨hrowEntity, hreason⟩ := hrow rows hstore row hin hid
          have hsame : ExclusionTable.replaced e row = e := by
            obtain ⟨_, _, _, _, _, _⟩ := e
            simp_all [ExclusionTable.replaced]
          simp only [hsame]
      simp only [Bool.false_eq_true, if_false, if_true]
      refine h.addCached hnow hadded hentity hdom hactive h.registry ?_ fun rows' hrows' o => ?_
      · simp [LearningGuard.cacheExclusion, herased]
      · obtain rfl := Option.some.inj hrows'
        rw [hadded, hupsert, Table.mem_upsert, hstored]
        constructor
        · rintro (rfl | ⟨⟨hin, hstatus⟩, hid⟩)
          · exact ⟨.inl rfl, hactive⟩
          · exact ⟨.inr ⟨hin, hid⟩, hstatus⟩
        · rintro ⟨rfl | ⟨hin, hid⟩, hstatus⟩
          · exact .inl rfl
          · exact .inr ⟨⟨hin, hstatus⟩, hid⟩

theorem revoke {id : String} {fails : Bool} (h : Reflects w) (hnow : w.clock ≤ now) :
    Reflects { guard := (w.guard.revokeExclusion fails id).1
               added := if (w.guard.revokeExclusion fails id).2
                 then w.added.filter (fun o => o.id ≠ id) else w.added
               clock := now } := by
  unfold LearningGuard.revokeExclusion
  cases hstore : w.guard.store with
  | none =>
    simp only [if_true]
    refine h.weaken hnow h.registry (fun o ho => (List.mem_filter.mp ho).1) (fun rows hrows => ?_)
      fun _ _ hentry => nomatch hentry
    cases hrows
  | some rows =>
    have hstored := h.stored rows hstore
    cases fails with
    | true =>
      simp only [if_true, Bool.false_eq_true, if_false]
      exact h.weaken hnow h.registry (fun o ho => ho) h.stored fun _ _ hentry => ⟨hentry, rfl⟩
    | false =>
      simp only [Bool.false_eq_true, if_false, if_true]
      refine h.weaken hnow h.registry (fun o ho => (List.mem_filter.mp ho).1) (fun rows' hrows' o => ?_)
        fun _ _ hentry => nomatch hentry
      obtain rfl := Option.some.inj hrows'
      have hrevoked (row : Exclusion) : ExclusionTable.revokeRow id row = o ∧ o.status = .active ↔
          row = o ∧ o.status = .active ∧ o.id ≠ id := by
        unfold ExclusionTable.revokeRow
        by_cases hid : row.id = id
        · rw [if_pos hid]
          constructor
          · rintro ⟨rfl, hstatus⟩
            cases hstatus
          · rintro ⟨rfl, -, hne⟩
            exact absurd hid hne
        · rw [if_neg hid]
          constructor
          · rintro ⟨rfl, hstatus⟩
            exact ⟨rfl, hstatus, hid⟩
          · rintro ⟨rfl, hstatus, -⟩
            exact ⟨rfl, hstatus⟩
      rw [List.mem_filter, hstored, ExclusionTable.revokeExclusion,
        Table.mem_map (ExclusionTable.revokeRow_id id)]
      constructor
      · rintro ⟨⟨hin, hstatus⟩, hid⟩
        exact ⟨⟨o, hin, ((hrevoked o).mpr ⟨rfl, hstatus, of_decide_eq_true hid⟩).1⟩, hstatus⟩
      · rintro ⟨⟨row, hin, heq⟩, hstatus⟩
        obtain ⟨rfl, -, hid⟩ := (hrevoked row).mp ⟨heq, hstatus⟩
        exact ⟨⟨hin, hstatus⟩, decide_eq_true hid⟩

theorem check {entityID : String} {dim : AppliesTo} {fails : Bool} (h : Reflects w)
    (hnow : w.clock ≤ now) (hfit : ExclusionsFit w (.check entityID dim now fails)) :
    Reflects { w with guard := (w.guard.check order fails entityID dim now).2, clock := now } := by
  have hsame : Reflects { w with clock := now } :=
    h.weaken hnow h.registry (fun _ ho => ho) h.stored fun _ _ hentry => ⟨hentry, rfl⟩
  simp only [LearningGuard.check, h.registry, Option.any_none, Bool.false_eq_true, if_false]
  unfold LearningGuard.loadExclusions
  simp only [ExclusionsFit] at hfit
  cases hfresh : w.guard.fresh entityID now with
  | some exclusions => exact hsame
  | none =>
    simp only [hfresh] at hfit ⊢
    cases hstore : w.guard.store with
    | none => exact hsame
    | some rows =>
      simp only [hstore] at hfit ⊢
      obtain ⟨rfl, htexts⟩ := hfit
      have hstored := h.stored rows hstore
      have hlookup (entity : String) :
          (w.guard.cache.insert entityID ⟨rows.activeExclusionsFor order entityID now, now⟩).lookup entity =
            if entity = entityID then some ⟨rows.activeExclusionsFor order entityID now, now⟩
            else w.guard.cache.lookup entity := by
        by_cases heq : entity = entityID
        · rw [if_pos heq, heq, AList.lookup_insert]
        · rw [if_neg heq, AList.lookup_insert_ne heq]
      refine ⟨h.registry, h.active, fun rows' hrows' => ?_, fun entity entry hentry x hx => ?_,
        fun entity entry hentry o ho he hlt => ?_, hsame.agree⟩
      · exact h.stored rows' (hstore.trans hrows')
      · change AList.lookup entity (w.guard.cache.insert _ _) = some entry at hentry
        rw [hlookup] at hentry
        split at hentry
        · next heq =>
          obtain rfl := Option.some.inj hentry
          obtain ⟨hin, hxe, hactive, -⟩ := ExclusionTable.mem_activeExclusionsFor.mp hx
          exact ⟨(hstored x).mpr ⟨hin, hactive⟩, hxe.trans heq.symm⟩
        · exact h.cached entity entry hentry x hx
      · change AList.lookup entity (w.guard.cache.insert _ _) = some entry at hentry
        rw [hlookup] at hentry
        split at hentry
        · next heq =>
          obtain rfl := Option.some.inj hentry
          obtain ⟨hin, hactive⟩ := (hstored o).mp ho
          have hlisted : o ∈ rows.activeExclusionsFor order entityID now :=
            ExclusionTable.mem_activeExclusionsFor.mpr
              ⟨hin, he.trans heq, hactive, htexts o hin (he.trans heq) hlt⟩
          exact ⟨o, hlisted, .refl o⟩
        · exact hsame.covers entity entry hentry o ho he hlt

theorem step {w' : GuardWorld} {event : GuardEvent} (h : Reflects w) (hfit : ExclusionsFit w event)
    (hstep : guardStep order w event = some w') : Reflects w' := by
  unfold guardStep at hstep
  split at hstep
  · cases hstep
  · next hlate =>
    have hnow : w.clock ≤ event.now := not_lt.mp hlate
    cases event with
    | add e now fails =>
      obtain rfl := Option.some.inj hstep
      exact h.add hnow hfit
    | revoke id now fails =>
      obtain rfl := Option.some.inj hstep
      exact h.revoke hnow
    | check entityID dim now fails =>
      obtain rfl := Option.some.inj hstep
      exact h.check hnow hfit

end Reflects

abbrev GuardStep (order : RowOrder) (w : GuardWorld) (event : GuardEvent) (w' : GuardWorld) : Prop :=
  guardStep order w event = some w'

/-- In every run whose exclusions fit, a check gives the strictest verdict of the exclusions in
force, and forbids learning exactly when there is one. -/
theorem check_reflects {order : RowOrder} {cacheTTL : Duration} {backed : Bool} {w : GuardWorld}
    {es : List GuardEvent} (h : Run (Guarded ExclusionsFit (GuardStep order)) (.start cacheTTL backed) es w)
    {entityID : String} {dim : AppliesTo} {now : Time} {fails : Bool} (hnow : w.clock ≤ now)
    (hfit : ExclusionsFit w (.check entityID dim now fails)) :
    (w.guard.check order fails entityID dim now).1.decision = strictestVerdict w.added entityID dim now ∧
      ((w.guard.check order fails entityID dim now).1.decision ≠ .allowLearning ↔
        ∃ e ∈ w.added, InForce entityID dim now e) := by
  have hreflects : Reflects w := h.invariant (Reflects.start cacheTTL backed) fun hs hstep =>
    hs.step hstep.1 hstep.2
  have hcheck : (w.guard.check order fails entityID dim now).1.decision =
      strictestVerdict w.added entityID dim now := by
    simp only [LearningGuard.check, hreflects.registry, Option.any_none, Bool.false_eq_true, if_false]
    exact hreflects.verdict hnow hfit
  refine ⟨hcheck, ?_⟩
  rw [hcheck]
  exact forbids_iff

/-- The rows in the order of the table. -/
def tableOrder : RowOrder := ⟨fun rows => rows, .refl⟩

def blockedSource : Exclusion :=
  ⟨"ex-1", "10.0.0.5", .blocked, [], 300 * Duration.second, .active⟩

def limitedBaseline : Exclusion :=
  ⟨"ex-2", "10.0.0.5", .rateLimited, [.metricBaseline], 300 * Duration.second, .active⟩

def runBlocked : Option GuardWorld :=
  [GuardEvent.add blockedSource Duration.second false,
    .check "10.0.0.5" .relationshipLearning (2 * Duration.second) false,
    .revoke "ex-0" (3 * Duration.second) false].foldlM
      (fun w e => if ExclusionsFit w e then guardStep tableOrder w e else none) (.start 0 true)

theorem blocked_facts : (runBlocked.any fun w => w.clock ≤ 20 * Duration.second ∧
    w.added = [blockedSource] ∧
    ExclusionsFit w (.check "10.0.0.5" .relationshipLearning (20 * Duration.second) false)) = true := by
  decide +kernel

theorem blocked_reflected : ∃ w, runBlocked = some w ∧ w.added = [blockedSource] ∧
    (w.guard.check tableOrder false "10.0.0.5" .relationshipLearning (20 * Duration.second)).1.decision =
      strictestVerdict w.added "10.0.0.5" .relationshipLearning (20 * Duration.second) := by
  have hfacts := blocked_facts
  rcases hw : runBlocked with _ | w
  · simp [hw] at hfacts
  · rw [hw, Option.any_some] at hfacts
    obtain ⟨hclock, hadded, hfit⟩ := of_decide_eq_true hfacts
    exact ⟨w, rfl, hadded, (check_reflects (guarded_of_foldlM hw) hclock hfit).1⟩

def runBlockedThenLimited : Option GuardWorld :=
  [GuardEvent.add blockedSource Duration.second false,
    .add limitedBaseline (2 * Duration.second) false].foldlM (guardStep tableOrder) (.start 0 true)

theorem blocked_then_limited_facts : (runBlockedThenLimited.any fun w =>
    w.clock ≤ 3 * Duration.second ∧
    (w.guard.check tableOrder false "10.0.0.5" .relationshipLearning (3 * Duration.second)).1.decision =
      .allowLearning ∧
    strictestVerdict w.added "10.0.0.5" .relationshipLearning (3 * Duration.second) =
      .denyLearning) = true := by
  decide +kernel

/-- An exclusion from one dimension hides the exclusion from all of them. -/
theorem second_exclusion_allows :
    ¬ ∀ (cacheTTL : Duration) (backed : Bool) (w : GuardWorld) (es : List GuardEvent)
      (entityID : String) (dim : AppliesTo) (now : Time),
      Run (GuardStep tableOrder) (.start cacheTTL backed) es w → w.clock ≤ now →
      (w.guard.check tableOrder false entityID dim now).1.decision =
        strictestVerdict w.added entityID dim now := by
  intro h
  have hfacts := blocked_then_limited_facts
  rcases hw : runBlockedThenLimited with _ | w
  · simp [hw] at hfacts
  · rw [hw, Option.any_some] at hfacts
    obtain ⟨hclock, hallow, hdeny⟩ := of_decide_eq_true hfacts
    have heq := h _ _ w _ "10.0.0.5" .relationshipLearning _ (run_of_foldlM hw) hclock
    rw [hallow, hdeny] at heq
    cases heq

end Kernloom
