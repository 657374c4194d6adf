import Kernloom.Learner
import Kernloom.Transition

/-! What a promotion says of the observations behind it: how often a relationship was seen, in how many
windows, and over how long a time. -/

namespace Kernloom

open Keyed Transition

variable {ω : Type} [DecidableEq ω]

/-- An observation that is counted: on which entry, when, and in which observation window. -/
structure Sighting (ω : Type) where
  key : String
  seenAt : Time
  window : ω

/-- The number of distinct windows of some sightings. -/
def distinctWindows (seen : List (Sighting ω)) : Nat := (seen.map (·.window)).toFinset.card

/-- Some sightings are as many, in as many windows and as far apart as a promotion asks. -/
structure Suffices (p : PromotionConfig) (seen : List (Sighting ω)) : Prop where
  count : p.minSeenCount ≤ seen.length
  windows : p.minDistinctWindows ≤ distinctWindows seen
  age : ∃ first last, seen.head? = some first ∧ seen.getLast? = some last ∧
    p.minAge ≤ last.seenAt - first.seenAt

/-- The learner, the time, and what it has counted so far. -/
structure PromotionWorld (ω : Type) where
  learner : Learner
  clock : Time
  sightings : List (Sighting ω) := []

inductive PromotionEvent (ω : Type) where
  | wait (duration : Nat)
  | learn (freshID : String) (verdict : EligibilityDecision) (c : Relationship) (window : ω)
  | flush

namespace PromotionWorld

def start (ω : Type) (cfg : LearnerConfig) (pub : Bool) (clock : Time) : PromotionWorld ω :=
  { learner := .new cfg pub, clock }

def turn (w : PromotionWorld ω) : PromotionEvent ω → PromotionWorld ω
  | .wait duration => { w with clock := w.clock + duration }
  | .learn freshID verdict c window => { w with
      learner := w.learner.learn freshID verdict c w.clock
      sightings := w.sightings ++ (w.learner.counted freshID verdict c w.clock).toList.map fun e =>
        ⟨e.key, w.clock, window⟩ }
  | .flush => { w with learner := (w.learner.beginFlush w.clock).1 }

/-- The sightings of one relationship. -/
def seen (w : PromotionWorld ω) (key : String) : List (Sighting ω) := w.sightings.filter (·.key = key)

/-- The counts of the learner grow only with what they count: the first observation counts once, each
other one is in a new window while new ones are still asked for, and a flush promotes only what was
last seen long enough after it was first seen. -/
def CountsTruly (w : PromotionWorld ω) : PromotionEvent ω → Prop
  | .wait _ => True
  | .learn freshID verdict c window => w.learner.cfg.mode = .learn →
    ∀ e ∈ w.learner.counted freshID verdict c w.clock,
      match w.learner.cache.find e.key with
      | none => (c.seenCount ≤ 1 ∨ w.learner.cfg.promotion.minSeenCount ≤ 1) ∧
        (c.distinctWindows ≤ 1 ∨ w.learner.cfg.promotion.minDistinctWindows ≤ 1)
      | some known => known.rel.state ≠ .candidate ∨ window ∉ (w.seen known.key).map (·.window) ∨
        w.learner.cfg.promotion.minDistinctWindows ≤ distinctWindows (w.seen known.key)
  | .flush => ∀ e ∈ w.learner.cache.rows, e.Promotes w.learner.cfg w.clock →
    w.learner.cfg.promotion.minAge ≤ e.rel.lastSeenAt - e.firstSeen

section Counted

variable {w : PromotionWorld ω} {freshID : String} {verdict : EligibilityDecision} {c : Relationship} {window : ω}
  {e known : CacheEntry}

theorem countsTruly_of_new (h : w.learner.counted freshID verdict c w.clock = some e)
    (hf : w.learner.cache.find e.key = none) :
    w.CountsTruly (.learn freshID verdict c window) ↔ (w.learner.cfg.mode = .learn →
      (c.seenCount ≤ 1 ∨ w.learner.cfg.promotion.minSeenCount ≤ 1) ∧
      (c.distinctWindows ≤ 1 ∨ w.learner.cfg.promotion.minDistinctWindows ≤ 1)) := by
  simp only [CountsTruly, h, Option.mem_def, Option.some.injEq, forall_eq', hf]

theorem countsTruly_of_known (h : w.learner.counted freshID verdict c w.clock = some e)
    (hf : w.learner.cache.find e.key = some known) :
    w.CountsTruly (.learn freshID verdict c window) ↔ (w.learner.cfg.mode = .learn →
      known.rel.state ≠ .candidate ∨ window ∉ (w.seen known.key).map (·.window) ∨
      w.learner.cfg.promotion.minDistinctWindows ≤ distinctWindows (w.seen known.key)) := by
  simp only [CountsTruly, h, Option.mem_def, Option.some.injEq, forall_eq', hf]

end Counted

instance (w : PromotionWorld ω) (event : PromotionEvent ω) : Decidable (w.CountsTruly event) :=
  match event with
  | .wait _ => isTrue trivial
  | .flush => inferInstanceAs (Decidable (∀ e ∈ w.learner.cache.rows, _ → _))
  | .learn freshID verdict c window =>
    match h : w.learner.counted freshID verdict c w.clock with
    | none => isTrue fun _ e he => by rw [h] at he; cases he
    | some e =>
      match hf : w.learner.cache.find e.key with
      | none => decidable_of_iff (w.learner.cfg.mode = .learn →
          (c.seenCount ≤ 1 ∨ w.learner.cfg.promotion.minSeenCount ≤ 1) ∧
          (c.distinctWindows ≤ 1 ∨ w.learner.cfg.promotion.minDistinctWindows ≤ 1))
          (countsTruly_of_new h hf).symm
      | some known => decidable_of_iff (w.learner.cfg.mode = .learn → known.rel.state ≠ .candidate ∨
          window ∉ (w.seen known.key).map (·.window) ∨
          w.learner.cfg.promotion.minDistinctWindows ≤ distinctWindows (w.seen known.key))
          (countsTruly_of_known h hf).symm

end PromotionWorld

section Sightings

variable {p : PromotionConfig} {h : List (Sighting ω)} {s : Sighting ω}

theorem distinctWindows_append : distinctWindows h ≤ distinctWindows (h ++ [s]) :=
  Finset.card_le_card fun a ha => by simp_all

theorem distinctWindows_append_new (hs : s.window ∉ h.map (·.window)) :
    distinctWindows (h ++ [s]) = distinctWindows h + 1 := by
  unfold distinctWindows
  rw [← Finset.card_insert_of_notMem (a := s.window) (by simpa using hs)]
  congr 1
  ext a
  simp

/-- What suffices still does after one more sighting. -/
theorem Suffices.append (hsuffices : Suffices p h) (hlast : ∀ last ∈ h, last.seenAt ≤ s.seenAt) :
    Suffices p (h ++ [s]) := by
  obtain ⟨hcount, hwindows, first, last, hfirst, hmem, hage⟩ := hsuffices
  refine ⟨?_, ?_, first, s, ?_, List.getLast?_concat, ?_⟩
  · rw [List.length_append]
    omega
  · exact le_trans hwindows (by exact_mod_cast distinctWindows_append)
  · rw [List.head?_append, hfirst]
    rfl
  · have hle := hlast last (List.mem_of_getLast? hmem)
    exact le_trans hage (Int.sub_le_sub_right hle first.seenAt)

/-- What the learner keeps of a relationship, against its sightings. -/
structure Backed (cfg : LearnerConfig) (h : List (Sighting ω)) (e : CacheEntry) : Prop where
  span : ∃ first last, h.head? = some first ∧ h.getLast? = some last ∧ e.firstSeen = first.seenAt ∧
    e.rel.lastSeenAt = last.seenAt
  candidate : cfg.mode = .learn → e.rel.state = .candidate →
    (e.rel.seenCount ≤ h.length ∨ cfg.promotion.minSeenCount ≤ h.length) ∧
    (e.rel.distinctWindows ≤ distinctWindows h ∨ cfg.promotion.minDistinctWindows ≤ distinctWindows h)
  learned : e.rel.state = .learned → Suffices cfg.promotion h

/-- Only the relationship and the first observation of an entry count. -/
theorem Backed.congr {cfg : LearnerConfig} {e e' : CacheEntry} (hback : Backed cfg h e)
    (hrel : e'.rel = e.rel) (hfirst : e'.firstSeen = e.firstSeen) : Backed cfg h e' := by
  obtain ⟨hspan, hcandidate, hlearned⟩ := hback
  rw [← hfirst, ← hrel] at hspan
  rw [← hrel] at hcandidate hlearned
  exact ⟨hspan, hcandidate, hlearned⟩

/-- A promotion of a backed entry is backed by its sightings, if they span the age. -/
theorem Backed.promote {cfg : LearnerConfig} {e : CacheEntry} {now : Time} (hback : Backed cfg h e)
    (hage : e.Promotes cfg now → cfg.promotion.minAge ≤ e.rel.lastSeenAt - e.firstSeen) :
    Backed cfg h (e.promote cfg now) := by
  unfold CacheEntry.promote
  by_cases hp : e.Promotes cfg now
  · rw [if_pos hp]
    obtain ⟨hmode, hstate, hshould⟩ := id hp
    obtain ⟨hseen, hwindows⟩ := hback.candidate hmode hstate
    simp only [shouldPromote, decide_eq_true_eq, Bool.and_eq_true, Bool.decide_and] at hshould
    refine ⟨hback.span, fun _ hcandidate => (by cases hcandidate), fun _ => ⟨?_, ?_, ?_⟩⟩
    · omega
    · omega
    · obtain ⟨first, last, hfirst, hlast, hfirstSeen, hlastSeen⟩ := hback.span
      exact ⟨first, last, hfirst, hlast, hfirstSeen ▸ hlastSeen ▸ hage hp⟩
  · rw [if_neg hp]
    exact hback

end Sightings

namespace PromotionWorld

/-- Every entry is backed by its sightings, and what was sighted has an entry. -/
structure Truthful (w : PromotionWorld ω) : Prop where
  past : ∀ s ∈ w.sightings, s.seenAt ≤ w.clock
  known : ∀ s ∈ w.sightings, ∃ e ∈ w.learner.cache, e.key = s.key
  backed : ∀ e ∈ w.learner.cache, Backed w.learner.cfg (w.seen e.key) e

variable {w : PromotionWorld ω} {e : CacheEntry} {freshID : String} {verdict : EligibilityDecision}
  {c : Relationship} {window : ω}

theorem settle_firstSeen (cfg : LearnerConfig) (now : Time) (e : CacheEntry) :
    (e.settle cfg now).firstSeen = (e.promote cfg now).firstSeen := rfl

theorem flushed_firstSeen (cfg : LearnerConfig) (now : Time) (e : CacheEntry) :
    (e.flushed cfg now).firstSeen = (e.promote cfg now).firstSeen := by
  by_cases hp : e.Promotes cfg now
  · rw [CacheEntry.flushed, if_pos hp]
  · rw [CacheEntry.flushed, if_neg hp, CacheEntry.promote, if_neg hp]

theorem Truthful.start (cfg : LearnerConfig) (pub : Bool) (clock : Time) :
    Truthful (start ω cfg pub clock) where
  past _ hs := absurd hs List.not_mem_nil
  known _ hs := absurd hs List.not_mem_nil
  backed _ he := absurd he Table.not_mem_empty

theorem Truthful.wait (h : Truthful w) (duration : Nat) : Truthful (w.turn (.wait duration)) where
  past s hs := le_trans (h.past s hs) (by simp [turn])
  known := h.known
  backed := h.backed

theorem Truthful.flush (h : Truthful w) (htrue : w.CountsTruly .flush) : Truthful (w.turn .flush) where
  past := h.past
  known s hs := by
    obtain ⟨e, he, hkey⟩ := h.known s hs
    exact ⟨_, Learner.mem_beginFlush.mpr ⟨e, he, rfl⟩, by rw [← hkey, ← e.flushed_key w.learner.cfg w.clock]⟩
  backed e' he' := by
    obtain ⟨e, he, rfl⟩ := Learner.mem_beginFlush.mp he'
    have hpromoted := (h.backed e he).promote (htrue e he)
    have hkey : (e.flushed w.learner.cfg w.clock).key = e.key := e.flushed_key _ _
    have hrel : (e.flushed w.learner.cfg w.clock).rel = (e.promote w.learner.cfg w.clock).rel :=
      e.flushed_rel _ _
    have hseen : (w.turn .flush).seen (e.flushed w.learner.cfg w.clock).key = w.seen e.key := by rw [hkey]; rfl
    dsimp only
    rw [hseen]
    exact hpromoted.congr hrel (flushed_firstSeen ..)

omit [DecidableEq ω] in
theorem mem_seen {key : String} {s : Sighting ω} : s ∈ w.seen key ↔ s ∈ w.sightings ∧ s.key = key := by
  simp [seen]

omit [DecidableEq ω] in
theorem seen_append_self {l : Learner} {s : Sighting ω} :
    ({ w with learner := l, sightings := w.sightings ++ [s] } : PromotionWorld ω).seen s.key =
      w.seen s.key ++ [s] := by
  simp [seen]

omit [DecidableEq ω] in
theorem seen_append_other {l : Learner} {s : Sighting ω} {key : String} (hother : s.key ≠ key) :
    ({ w with learner := l, sightings := w.sightings ++ [s] } : PromotionWorld ω).seen key = w.seen key := by
  simp [seen, hother]

omit [DecidableEq ω] in
/-- What has no entry was not sighted. -/
theorem Truthful.seen_nil (hknown : ∀ s ∈ w.sightings, ∃ e ∈ w.learner.cache, e.key = s.key) {key : String}
    (hfind : w.learner.cache.find key = none) : w.seen key = [] := by
  refine List.eq_nil_iff_forall_not_mem.mpr fun s hs => ?_
  obtain ⟨hmem, hkey⟩ := mem_seen.mp hs
  obtain ⟨e, he, hes⟩ := hknown s hmem
  exact Table.find_eq_none.mp hfind e he (hes.trans hkey)

/-- The entry a counted observation settles is backed before it is promoted. -/
theorem Truthful.counted (h : Truthful w) (htrue : w.CountsTruly (.learn freshID verdict c window))
    (he : w.learner.counted freshID verdict c w.clock = some e) :
    Backed w.learner.cfg (w.seen e.key ++ [⟨e.key, w.clock, window⟩]) e := by
  rcases Learner.counted_cases he with ⟨hfind, rfl⟩ | ⟨known, hfind, rfl⟩
  · have hseen := Truthful.seen_nil h.known hfind
    have hkey : (CacheEntry.first w.learner.cfg freshID c w.clock).key = stableKey c.toRelationshipKey := rfl
    rw [hkey, hseen, List.nil_append]
    refine ⟨⟨_, _, rfl, rfl, rfl, rfl⟩, fun hmode _ => ?_, fun hlearned => by cases hlearned⟩
    have hcounts := htrue hmode _ he
    rw [hkey, hfind] at hcounts
    exact hcounts
  · obtain ⟨hmem, hkey⟩ := Table.find_eq_some.mp hfind
    have hback := h.backed known hmem
    obtain ⟨first, last, hfirst, hlast, hfirstSeen, hlastSeen⟩ := hback.span
    refine ⟨⟨first, _, ?_, List.getLast?_concat, hfirstSeen, rfl⟩, fun hmode hstate => ?_, fun hlearned => ?_⟩
    · rw [CacheEntry.observe_key, List.head?_append, hfirst]
      rfl
    · obtain ⟨hcount, hwindows⟩ := hback.candidate hmode hstate
      have hnew := htrue hmode _ he
      rw [CacheEntry.observe_key, hkey, hfind] at hnew
      rw [CacheEntry.observe_key]
      refine ⟨?_, ?_⟩
      · rw [CacheEntry.observe_seenCount, List.length_append, List.length_singleton]
        omega
      · have hgrow := distinctWindows_append (h := w.seen known.key) (s := ⟨known.key, w.clock, window⟩)
        have hone : ((known.observe c w.clock).rel.distinctWindows : Int) = known.rel.distinctWindows + 1 := rfl
        rcases hnew with hnot | hnew | hasked
        · exact absurd hstate hnot
        · have hstep := distinctWindows_append_new (h := w.seen known.key)
            (s := ⟨known.key, w.clock, window⟩) hnew
          omega
        · right
          omega
    · refine (hback.learned hlearned).append fun last hlast => ?_
      exact h.past last (mem_seen.mp hlast).1

/-- A promotion at an observation measures the age to that observation. -/
theorem Truthful.counted_age (h : Truthful w) (he : w.learner.counted freshID verdict c w.clock = some e)
    (hp : e.Promotes w.learner.cfg w.clock) :
    w.learner.cfg.promotion.minAge ≤ e.rel.lastSeenAt - e.firstSeen := by
  obtain ⟨-, -, hshould⟩ := hp
  simp only [shouldPromote, decide_eq_true_eq, Bool.and_eq_true, Bool.decide_and] at hshould
  have hlast : e.rel.lastSeenAt = w.clock := by
    rcases Learner.counted_cases he with ⟨-, rfl⟩ | ⟨known, -, rfl⟩ <;> rfl
  have hfirst : e.firstSeen ≤ w.clock := by
    rcases Learner.counted_cases he with ⟨-, rfl⟩ | ⟨known, hfind, rfl⟩
    · exact le_rfl
    · obtain ⟨hmem, -⟩ := Table.find_eq_some.mp hfind
      obtain ⟨first, -, hhead, -, hseen, -⟩ := (h.backed known hmem).span
      have hpast := h.past first (mem_seen.mp (List.mem_of_head? hhead)).1
      exact le_trans (le_of_eq hseen) hpast
  rw [hlast]
  have hspan : 0 ≤ w.clock - e.firstSeen := Int.sub_nonneg_of_le hfirst
  by_cases hpos : 0 < w.learner.cfg.promotion.minAge
  · exact not_lt.mp fun hlt => hshould.2.2 ⟨hpos, hlt⟩
  · exact le_trans (not_lt.mp hpos) hspan

/-- An observation that is counted adds to the sightings of its own entry only. -/
theorem Truthful.learn (h : Truthful w) (htrue : w.CountsTruly (.learn freshID verdict c window)) :
    Truthful (w.turn (.learn freshID verdict c window)) := by
  cases hcounted : w.learner.counted freshID verdict c w.clock with
  | none =>
    have hturn : w.turn (.learn freshID verdict c window) = w := by
      simp [turn, Learner.learn_eq, hcounted]
    rw [hturn]
    exact h
  | some e =>
    have hback := h.counted htrue hcounted
    have hturn : w.turn (.learn freshID verdict c window) =
        { w with
          learner := w.learner.settle w.clock e
          sightings := w.sightings ++ [⟨e.key, w.clock, window⟩] } := by
      simp [turn, Learner.learn_eq, hcounted]
    rw [hturn]
    refine ⟨?_, ?_, ?_⟩
    · intro s hs
      rcases List.mem_append.mp hs with hs | hs
      · exact h.past s hs
      · rw [List.mem_singleton.mp hs]
    · intro s hs
      by_cases hsame : s.key = e.key
      · exact ⟨_, Learner.mem_settle.mpr (.inl rfl), by rw [CacheEntry.settle_key, hsame]⟩
      · rcases List.mem_append.mp hs with hs | hs
        · obtain ⟨e', he', hkey⟩ := h.known s hs
          exact ⟨e', Learner.mem_settle.mpr (.inr ⟨he', hkey ▸ hsame⟩), hkey⟩
        · exact absurd (by rw [List.mem_singleton.mp hs]) hsame
    · intro e' he'
      rcases Learner.mem_settle.mp he' with rfl | ⟨hmem, hother⟩
      · rw [CacheEntry.settle_key, seen_append_self]
        refine (hback.promote fun hp => ?_).congr rfl (settle_firstSeen ..)
        exact h.counted_age hcounted hp
      · rw [seen_append_other (Ne.symm hother)]
        exact h.backed e' hmem

omit [DecidableEq ω] in
theorem turn_promotion (event : PromotionEvent ω) :
    (w.turn event).learner.cfg.promotion = w.learner.cfg.promotion := by
  cases event with
  | wait duration => rfl
  | flush => rfl
  | learn freshID verdict c window =>
    rw [turn, Learner.learn_eq]
    split <;> rfl

/-- What is learned was seen as often, in as many windows and over as long a time as is asked for, in every
run that counts truly. -/
theorem learned_suffices (cfg : LearnerConfig) (pub : Bool) (clock : Time) (events : List (PromotionEvent ω))
    (h : Along turn CountsTruly (start ω cfg pub clock) events) :
    ∀ e ∈ (events.foldl turn (start ω cfg pub clock)).learner.cache, e.rel.state = .learned →
      Suffices cfg.promotion ((events.foldl turn (start ω cfg pub clock)).seen e.key) := by
  have hrun := h.invariant (I := fun w => Truthful w ∧ w.learner.cfg.promotion = cfg.promotion)
    ⟨Truthful.start cfg pub clock, by simp only [start, Learner.new]; split <;> rfl⟩ (by
      rintro w event ⟨htruth, hcfg⟩ htrue
      refine ⟨?_, (turn_promotion event).trans hcfg⟩
      cases event with
      | wait duration => exact htruth.wait duration
      | learn freshID verdict c window => exact htruth.learn htrue
      | flush => exact htruth.flush htrue)
  intro e he hlearned
  have hsuffices := (hrun.1.backed e he).learned hlearned
  rwa [hrun.2] at hsuffices

/-- A request that the extractor counts once, in its first window. -/
def request : Relationship :=
  { nodeID := "n1", subjectEntityID := "api", predicate := "calls", objectEntityID := "db"
    id := "r1", seenCount := 1, distinctWindows := 1, firstSeenAt := 0, lastSeenAt := 0 }

/-- One request in each of these windows, a hundred seconds apart. -/
def requests (windows : List Nat) : List (PromotionEvent Nat) :=
  windows.flatMap fun window => [.wait (100 * Duration.second).toNat, .learn "" .allowLearning request window]

def requested (windows : List Nat) : PromotionWorld Nat :=
  (requests windows).foldl turn (start Nat { nodeID := "n1" } false 1)

theorem learned_suffices_requests : ∃ e ∈ (requested [0, 1, 2, 2, 3]).learner.cache,
    e.rel.state = .learned ∧ Suffices ⟨5, 3, 300 * Duration.second⟩ ((requested [0, 1, 2, 2, 3]).seen e.key) := by
  have htrue : Along turn CountsTruly (start Nat { nodeID := "n1" } false 1) (requests [0, 1, 2, 2, 3]) := by
    decide +kernel
  have hlearned : ∃ e ∈ (requested [0, 1, 2, 2, 3]).learner.cache.rows, e.rel.state = .learned := by
    decide +kernel
  obtain ⟨e, he, hstate⟩ := hlearned
  exact ⟨e, he, hstate, learned_suffices _ _ _ _ htrue e he hstate⟩

/-- Five requests of which four are in one window are taken for five windows. -/
theorem learned_in_two_windows : ¬ ∀ (cfg : LearnerConfig) (pub : Bool) (clock : Time)
    (events : List (PromotionEvent Nat)), ∀ e ∈ (events.foldl turn (start Nat cfg pub clock)).learner.cache,
      e.rel.state = .learned →
        Suffices cfg.promotion ((events.foldl turn (start Nat cfg pub clock)).seen e.key) := by
  intro h
  have hlearned : ∃ e ∈ (requested [0, 0, 0, 0, 1]).learner.cache.rows, e.rel.state = .learned ∧
      distinctWindows ((requested [0, 0, 0, 0, 1]).seen e.key) < 3 := by decide +kernel
  obtain ⟨e, he, hstate, hfew⟩ := hlearned
  have hwindows := (h { nodeID := "n1" } false 1 (requests [0, 0, 0, 0, 1]) e he hstate).windows
  have hfew' : (distinctWindows ((requested [0, 0, 0, 0, 1]).seen e.key) : Int) < 3 := by exact_mod_cast hfew
  exact absurd hwindows (not_le.mpr hfew')

end PromotionWorld

end Kernloom
