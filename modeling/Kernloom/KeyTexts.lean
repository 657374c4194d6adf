import Kernloom.BaselineTable
import Kernloom.CanonicalTarget
import Kernloom.Learner
import Kernloom.NetworkExtractor

/-! The texts under which relationships, baselines and dimensions are filed: when nothing else has
the same text. -/

namespace Kernloom

open Keyed

/-- Whatever has the text of `x` is `x`. -/
def Unshared {α : Type} (same : α → α → Prop) (text : α → String) (x : α) : Prop :=
  ∀ y, text y = text x → same y x

section Joins

variable {parts parts' : List String} {sep : Char}

theorem count_joinText (hne : parts ≠ []) : (joinText parts (String.singleton sep)).toList.count sep + 1 =
    (parts.map fun p => p.toList.count sep).sum + parts.length := by
  have hrest (parts : List String) : (parts.flatMap fun p => sep :: p.toList).count sep =
      (parts.map fun p => p.toList.count sep).sum + parts.length := by
    induction parts with
    | nil => rfl
    | cons p parts ih =>
      rw [List.flatMap_cons, List.count_append, List.count_cons_self, ih, List.map_cons, List.sum_cons,
        List.length_cons]
      omega
  obtain ⟨part, parts, rfl⟩ := List.exists_cons_of_ne_nil hne
  rw [toList_joinText_cons, String.toList_singleton, List.count_append]
  simp only [List.singleton_append, hrest, List.map_cons, List.sum_cons, List.length_cons]
  omega

/-- Parts without the separator are read back from their join when their number is known. -/
theorem eq_of_joinText_eq (hparts : ∀ p ∈ parts, sep ∉ p.toList) (hlength : parts'.length = parts.length)
    (hjoin : joinText parts' (String.singleton sep) = joinText parts (String.singleton sep)) :
    parts' = parts := by
  by_cases hne : parts = []
  · rw [hne] at hlength ⊢
    exact List.length_eq_zero_iff.mp hlength
  have hne' : parts' ≠ [] := by
    rintro rfl
    exact hne (List.length_eq_zero_iff.mp hlength.symm)
  have hclear : (parts.map fun p => p.toList.count sep).sum = 0 := by
    refine List.sum_eq_zero fun n hn => ?_
    obtain ⟨p, hp, rfl⟩ := List.mem_map.mp hn
    exact List.count_eq_zero.mpr (hparts p hp)
  -- The joins have as many separators, so those of `parts'` stand between its parts too.
  have hcount : (joinText parts' (String.singleton sep)).toList.count sep + 1 = _ := count_joinText hne'
  rw [hjoin, count_joinText hne, hclear, hlength] at hcount
  have hclear' : (parts'.map fun p => p.toList.count sep).sum = 0 := by omega
  refine joinText_injective hne' hne (fun p hp => List.count_eq_zero.mp ?_) hparts hjoin
  exact List.sum_eq_zero_iff.mp hclear' _ (List.mem_map_of_mem hp)

theorem joinText_cons_cons (part second sep : String) (parts : List String) :
    joinText (part :: second :: parts) sep = part ++ sep ++ joinText (second :: parts) sep := by
  unfold joinText
  exact String.intercalate_cons_cons

theorem joinText_concat (hne : parts ≠ []) (last sep : String) :
    joinText (parts ++ [last]) sep = joinText parts sep ++ sep ++ last := by
  obtain ⟨part, parts, rfl⟩ := List.exists_cons_of_ne_nil hne
  rw [← String.toList_inj, List.cons_append, toList_joinText_cons, String.toList_append, String.toList_append,
    toList_joinText_cons]
  simp

/-- A separator inside a part is as good as the one next to the part. -/
theorem exists_joinText_eq {part : String} (htwo : 2 ≤ parts.length) (hpart : part ∈ parts)
    (hsep : sep ∈ part.toList) : ∃ parts', parts' ≠ parts ∧ parts'.length = parts.length ∧
      joinText parts' (String.singleton sep) = joinText parts (String.singleton sep) := by
  have hshift {first second : String} (first' second' : String) (rest : List String) (hne : first' ≠ first)
      (h : first'.toList ++ sep :: second'.toList = first.toList ++ sep :: second.toList) :
      ∃ parts', parts' ≠ first :: second :: rest ∧ parts'.length = (first :: second :: rest).length ∧
        joinText parts' (String.singleton sep) =
          joinText (first :: second :: rest) (String.singleton sep) := by
    refine ⟨first' :: second' :: rest, fun heq => hne (List.cons.inj heq).1, rfl, ?_⟩
    rw [← String.toList_inj, toList_joinText_cons, toList_joinText_cons]
    simpa using congrArg (· ++ rest.flatMap fun p => sep :: p.toList) h
  induction parts with
  | nil => cases hpart
  | cons first parts ih =>
    cases parts with
    | nil => simp at htwo
    | cons second rest =>
      rcases List.mem_cons.mp hpart with rfl | hpart
      · obtain ⟨before, after, hcut⟩ := List.append_of_mem hsep
        refine hshift (String.ofList before) (String.ofList (after ++ sep :: second.toList)) rest ?_
          (by simp [hcut])
        intro heq
        simpa [hcut] using congrArg (List.length ∘ String.toList) heq
      rcases List.mem_cons.mp hpart with rfl | hpart
      · obtain ⟨before, after, hcut⟩ := List.append_of_mem hsep
        refine hshift (String.ofList (first.toList ++ sep :: before)) (String.ofList after) rest ?_
          (by simp [hcut])
        intro heq
        simpa using congrArg (List.length ∘ String.toList) heq
      · have htwo' : 2 ≤ (second :: rest).length := by
          have := List.length_pos_of_mem hpart
          rw [List.length_cons]
          omega
        obtain ⟨parts', hne, hlength, hjoin⟩ := ih htwo' (List.mem_cons_of_mem _ hpart)
        obtain ⟨second', rest', rfl⟩ := List.exists_cons_of_length_eq_add_one hlength
        refine ⟨first :: second' :: rest', fun heq => hne (List.cons.inj heq).2, congrArg (· + 1) hlength, ?_⟩
        rw [joinText_cons_cons, joinText_cons_cons, hjoin]

end Joins

section Rows

def RelationshipKey.parts (k : RelationshipKey) : List String :=
  [k.nodeID, k.subjectEntityID, k.predicate, k.objectEntityID, k.scopeType, k.scopeID, k.dimensionsHash]

theorem stableKey_eq (k : RelationshipKey) : stableKey k = joinText k.parts (String.singleton '|') := by
  have hbar : String.singleton '|' = "|" := rfl
  unfold stableKey joinText
  simp only [RelationshipKey.parts, String.intercalate_cons_cons, String.intercalate_singleton, hbar,
    String.append_assoc]

theorem RelationshipKey.parts_injective : Function.Injective RelationshipKey.parts := by
  rintro ⟨⟩ ⟨⟩ h
  simpa [RelationshipKey.parts] using h

theorem RelationshipKey.exists_parts {parts : List String} (h : parts.length = 7) :
    ∃ k : RelationshipKey, k.parts = parts := by
  match parts, h with
  | [node, subject, predicate, object, scopeType, scopeID, dimensions], _ =>
    exact ⟨⟨node, subject, predicate, object, scopeType, scopeID, dimensions⟩, rfl⟩

theorem stableKey_unshared_iff (k : RelationshipKey) :
    Unshared (· = ·) stableKey k ↔ ∀ part ∈ k.parts, '|' ∉ part.toList := by
  constructor
  · intro h part hpart hbar
    have htwo : 2 ≤ k.parts.length := by simp [RelationshipKey.parts]
    obtain ⟨parts', hne, hlength, hjoin⟩ := exists_joinText_eq htwo hpart hbar
    obtain ⟨k', rfl⟩ := RelationshipKey.exists_parts hlength
    rw [← stableKey_eq, ← stableKey_eq] at hjoin
    exact hne (congrArg _ (h k' hjoin))
  · intro h k' hk'
    rw [stableKey_eq, stableKey_eq] at hk'
    exact RelationshipKey.parts_injective (eq_of_joinText_eq h rfl hk')

/-- Whatever a learner finds under the text of a relationship is that relationship. -/
def FindsItself (k : RelationshipKey) : Prop :=
  ∀ l : Learner, (∀ e ∈ l.cache, e.key = stableKey e.rel.toRelationshipKey) →
    ∀ e ∈ l.cache.find (stableKey k), e.rel.toRelationshipKey = k

theorem findsItself_iff (k : RelationshipKey) : FindsItself k ↔ Unshared (· = ·) stableKey k := by
  constructor
  · intro h k' hk'
    let r : Relationship :=
      { k' with seenCount := 1, distinctWindows := 1, firstSeenAt := 0, lastSeenAt := 0 }
    let l : Learner :=
      { Learner.new { nodeID := k'.nodeID } false with cache := Table.empty.upsert (.loaded r) }
    have htexts : ∀ e ∈ l.cache, e.key = stableKey e.rel.toRelationshipKey := by
      intro e he
      rcases Table.mem_upsert.mp he with rfl | ⟨he, -⟩
      · rfl
      · exact absurd he Table.not_mem_empty
    exact h l htexts (.loaded r) (Table.find_eq_some.mpr ⟨Table.mem_upsert_self _ _, hk'⟩)
  · intro h l htexts e he
    obtain ⟨he, hkey⟩ := Table.find_eq_some.mp he
    exact h _ ((htexts e he).symm.trans hkey)

/-- A new relationship is cached under the text of its row when it was observed on the learner's node. -/
theorem first_key_iff (cfg : LearnerConfig) (freshID : String) (c : Relationship) (now : Time) :
    (CacheEntry.first cfg freshID c now).key =
      stableKey (CacheEntry.first cfg freshID c now).rel.toRelationshipKey ↔ c.nodeID = cfg.nodeID := by
  constructor
  · intro h
    simp only [CacheEntry.first, stableKey, String.append_assoc] at h
    exact (String.append_left_inj _).mp h
  · intro h
    simp [CacheEntry.first, ← h]

def BaselineKey.texts (b : BaselineKey) : List String :=
  [b.metricID, b.scopeType, b.scopeID, b.subjectEntityID, b.objectEntityID, b.dimensionsHash, b.sourceClass,
    b.visibilityPoint, b.measurementType, b.truthClass]

theorem BaselineKey.text_eq (b : BaselineKey) :
    b.text = joinText (b.texts ++ [itoa b.windowSeconds]) (String.singleton '|') := by
  have hbar : String.singleton '|' = "|" := rfl
  unfold BaselineKey.text joinText
  simp only [BaselineKey.texts, List.cons_append, List.nil_append, String.intercalate_cons_cons,
    String.intercalate_singleton, hbar, String.append_assoc]

theorem bar_notMem_itoa (n : Int) : '|' ∉ (itoa n).toList := by
  intro h
  cases n with
  | ofNat n => exact absurd (isDigit_of_mem_repr h) (by decide)
  | negSucc n =>
    rw [itoa, String.toList_append] at h
    rcases List.mem_append.mp h with h | h
    · exact absurd h (by decide)
    · exact absurd (isDigit_of_mem_repr h) (by decide)

theorem itoa_injective : Function.Injective itoa := by
  have hsign (m n : Nat) : itoa (.ofNat m) ≠ itoa (.negSucc n) := by
    intro h
    have hminus : '-' ∈ (Nat.repr m).toList := by
      rw [show Nat.repr m = itoa (.negSucc n) from h, itoa, String.toList_append]
      exact List.mem_append_left _ (by decide)
    exact absurd (isDigit_of_mem_repr hminus) (by decide)
  intro m n h
  cases m with
  | ofNat m =>
    cases n with
    | ofNat n => rw [itoa_ofNat_inj.mp h]
    | negSucc n => exact absurd h (hsign m n)
  | negSucc m =>
    cases n with
    | ofNat n => exact absurd h.symm (hsign n m)
    | negSucc n => rw [Nat.succ_injective (itoa_ofNat_inj.mp ((String.append_right_inj "-").mp h))]

theorem BaselineKey.ext_texts {b b' : BaselineKey} (h : b'.texts = b.texts)
    (hw : b'.windowSeconds = b.windowSeconds) : b' = b := by
  cases b
  cases b'
  subst hw
  simpa [BaselineKey.texts] using h

theorem BaselineKey.exists_texts {texts : List String} (h : texts.length = 10) (w : Int) :
    ∃ b : BaselineKey, b.texts = texts ∧ b.windowSeconds = w := by
  match texts, h with
  | [metric, scopeType, scopeID, subject, object, dimensions, source, point, type, truth], _ =>
    exact ⟨⟨metric, scopeType, scopeID, subject, object, dimensions, source, point, type, truth, w⟩, rfl, rfl⟩

theorem BaselineKey.text_unshared_iff (b : BaselineKey) :
    Unshared (· = ·) BaselineKey.text b ↔ ∀ part ∈ b.texts, '|' ∉ part.toList := by
  constructor
  · intro h part hpart hbar
    have htwo : 2 ≤ b.texts.length := by simp [BaselineKey.texts]
    obtain ⟨texts', hne, hlength, hjoin⟩ := exists_joinText_eq htwo hpart hbar
    obtain ⟨b', rfl, hw⟩ := BaselineKey.exists_texts hlength b.windowSeconds
    have htext : b'.text = b.text := by
      rw [BaselineKey.text_eq, BaselineKey.text_eq, hw, joinText_concat, joinText_concat, hjoin]
      all_goals exact List.cons_ne_nil _ _
    exact hne (congrArg _ (h b' htext))
  · intro h b' hb'
    rw [BaselineKey.text_eq b', BaselineKey.text_eq b] at hb'
    have hclear : ∀ p ∈ b.texts ++ [itoa b.windowSeconds], '|' ∉ p.toList := by
      intro p hp
      rcases List.mem_append.mp hp with hp | hp
      · exact h p hp
      · rw [List.mem_singleton.mp hp]
        exact bar_notMem_itoa _
    have hparts := eq_of_joinText_eq hclear (by simp [BaselineKey.texts]) hb'
    obtain ⟨htexts, hw⟩ := List.append_inj hparts rfl
    exact BaselineKey.ext_texts htexts (itoa_injective (List.cons.inj hw).1)

end Rows

section Dimensions

/-- The dimensions in the order of their keys. -/
def sortedDimensions (dims : GoMap String) : List (String × String) :=
  ((dims.entries.map (·.1)).insertionSort (· ≤ ·)).map fun k => (k, dims.get k)

def dimensionText (d : String × String) : String := d.1 ++ "=" ++ d.2 ++ ";"

/-- The text that `dimensionsHash` hashes. -/
def dimensionsText (dims : GoMap String) : String :=
  "".intercalate ((sortedDimensions dims).map dimensionText)

theorem dimensionsHash_eq (sha256 : String → String) (dims : GoMap String) : dimensionsHash sha256 dims =
    if dims.entries = [] then "" else sha256 (dimensionsText dims) := by
  rw [dimensionsText, sortedDimensions, List.map_map]
  rfl

theorem toList_dimensionsText (dims : GoMap String) : (dimensionsText dims).toList =
    (sortedDimensions dims).flatMap fun d => d.1.toList ++ '=' :: (d.2.toList ++ [';']) := by
  have hjoin : dimensionsText dims = joinText ((sortedDimensions dims).map dimensionText) "" := by
    unfold joinText
    rfl
  rw [hjoin]
  cases sortedDimensions dims with
  | nil => rw [List.map_nil, joinText_nil]; rfl
  | cons d ds =>
    rw [List.map_cons, toList_joinText_cons]
    simp [dimensionText, List.flatMap_map]

variable {dims dims' : GoMap String}

theorem mem_dimensions {k v : String} : (k, v) ∈ sortedDimensions dims ↔ dims.lookup k = some v :=
  mem_sortedDimensions (t := ⟨"", "", dims, ∅⟩)

theorem sameMap_of_sortedDimensions (h : sortedDimensions dims = sortedDimensions dims') :
    SameMap dims dims' := by
  intro k
  refine Option.ext fun v => ?_
  rw [← mem_dimensions, ← mem_dimensions, h]

theorem sortedDimensions_perm (dims : GoMap String) :
    (sortedDimensions dims).Perm (dims.entries.map fun e => (e.1, e.2)) := by
  have hkeys := (List.perm_insertionSort (· ≤ ·) (dims.entries.map (·.1))).map fun k => (k, dims.get k)
  refine hkeys.trans (List.Perm.of_eq ?_)
  rw [List.map_map]
  refine List.map_congr_left fun e he => ?_
  rw [Function.comp_apply, GoMap.get, AList.mem_lookup_iff.mpr he, Option.getD_some]

/-- The equality signs of a dimension, the one between its key and its value included. -/
def equalitySigns (d : String × String) : Nat := d.1.toList.count '=' + d.2.toList.count '=' + 1

theorem count_dimensionsText (dims : GoMap String) : (dimensionsText dims).toList.count '=' =
    (dims.entries.map fun e => equalitySigns (e.1, e.2)).sum := by
  have hsorted (ds : List (String × String)) :
      (ds.flatMap fun d => d.1.toList ++ '=' :: (d.2.toList ++ [';'])).count '=' =
        (ds.map equalitySigns).sum := by
    induction ds with
    | nil => rfl
    | cons d ds ih =>
      simp only [List.flatMap_cons, List.count_append, List.count_cons_self, List.map_cons, List.sum_cons, ih]
      simp [equalitySigns]
      omega
  rw [toList_dimensionsText, hsorted, ((sortedDimensions_perm dims).map equalitySigns).sum_eq, List.map_map]
  rfl

theorem length_le_count (dims : GoMap String) :
    (sortedDimensions dims).length ≤ (dimensionsText dims).toList.count '=' := by
  rw [count_dimensionsText, (sortedDimensions_perm dims).length_eq, List.length_map]
  have hone : ∀ n ∈ dims.entries.map fun e => equalitySigns (e.1, e.2), 1 ≤ n := by
    intro n hn
    obtain ⟨e, -, rfl⟩ := List.mem_map.mp hn
    exact Nat.le_add_left 1 _
  simpa using List.length_le_sum_of_one_le _ hone

theorem count_le_one_iff (dims : GoMap String) : (dimensionsText dims).toList.count '=' ≤ 1 ↔
    dims.entries.length ≤ 1 ∧ ∀ e ∈ dims.entries, '=' ∉ e.1.toList ∧ '=' ∉ e.2.toList := by
  rw [count_dimensionsText]
  match dims.entries with
  | [] => simp
  | [e] =>
    simp [equalitySigns, List.count_eq_zero]
  | e :: e' :: es =>
    simp [equalitySigns]
    omega

theorem dimensionsText_singleton (k v : String) :
    (dimensionsText (AList.singleton k v)).toList = k.toList ++ '=' :: (v.toList ++ [';']) := by
  have hsorted : sortedDimensions (AList.singleton k v) = [(k, v)] := by
    simp [sortedDimensions, GoMap.get, AList.singleton, AList.lookup]
  rw [toList_dimensionsText, hsorted, List.flatMap_singleton]

theorem exists_concat (h : sortedDimensions dims ≠ []) :
    ∃ body, (dimensionsText dims).toList = body ++ [';'] := by
  rcases List.eq_nil_or_concat' (sortedDimensions dims) with hnil | ⟨ds, d, hds⟩
  · exact absurd hnil h
  · rw [toList_dimensionsText, hds, List.flatMap_append, List.flatMap_singleton]
    exact ⟨(ds.flatMap fun d => d.1.toList ++ '=' :: (d.2.toList ++ [';'])) ++
      (d.1.toList ++ '=' :: d.2.toList), by simp⟩

/-- A text with two equality signs is that of two dimensions, each made of it alone. -/
theorem exists_two_readings (h : 2 ≤ (dimensionsText dims).toList.count '=') : ∃ a b c : List Char,
    (dimensionsText dims).toList = a ++ '=' :: (b ++ '=' :: (c ++ [';'])) := by
  have hne : sortedDimensions dims ≠ [] := by
    intro hnil
    rw [toList_dimensionsText, hnil] at h
    exact absurd h (by decide)
  obtain ⟨body, hbody⟩ := exists_concat hne
  obtain ⟨a, rest, hcut, ha⟩ := List.eq_append_cons_of_mem (List.count_pos_iff.mp (Nat.zero_lt_of_lt h))
  rw [hcut, List.count_append, List.count_eq_zero.mpr ha, List.count_cons_self] at h
  obtain ⟨b, c, rfl⟩ := List.append_of_mem (List.count_pos_iff.mp (by omega : 0 < rest.count '='))
  -- The text ends in a semicolon, so the second equality sign is not its last character.
  rcases List.eq_nil_or_concat' c with rfl | ⟨c, last, rfl⟩
  · have hends : (a ++ '=' :: b) ++ ['='] = body ++ [';'] := by simpa [hcut] using hbody
    exact absurd (List.append_inj_right' hends rfl) (by decide)
  · have hends : (a ++ '=' :: (b ++ '=' :: c)) ++ [last] = body ++ [';'] := by simpa [hcut] using hbody
    rw [(List.cons.inj (List.append_inj_right' hends rfl)).1] at hcut
    exact ⟨a, b, c, hcut⟩

theorem not_unshared_of_two (h : 2 ≤ (dimensionsText dims).toList.count '=') :
    ¬ Unshared SameMap dimensionsText dims := by
  intro hown
  obtain ⟨a, b, c, htext⟩ := exists_two_readings h
  let early : GoMap String := AList.singleton (String.ofList a) (String.ofList (b ++ '=' :: c))
  let late : GoMap String := AList.singleton (String.ofList (a ++ '=' :: b)) (String.ofList c)
  have hearly : dimensionsText early = dimensionsText dims := by
    rw [← String.toList_inj, dimensionsText_singleton, htext]
    simp
  have hlate : dimensionsText late = dimensionsText dims := by
    rw [← String.toList_inj, dimensionsText_singleton, htext]
    simp
  have hread : early.lookup (String.ofList a) = late.lookup (String.ofList a) :=
    (hown early hearly _).trans (hown late hlate _).symm
  have hkey : String.ofList a ≠ String.ofList (a ++ '=' :: b) := by
    intro heq
    simpa using congrArg List.length (String.ofList_inj.mp heq)
  have hsome : early.lookup (String.ofList a) = some (String.ofList (b ++ '=' :: c)) :=
    List.dlookup_cons_eq _ _ _
  have hnone : late.lookup (String.ofList a) = none := List.dlookup_cons_ne _ _ hkey
  rw [hsome, hnone] at hread
  cases hread

theorem unshared_of_le_one (h : (dimensionsText dims).toList.count '=' ≤ 1) :
    Unshared SameMap dimensionsText dims := by
  intro dims' htext
  refine sameMap_of_sortedDimensions ?_
  have hlength := (length_le_count dims).trans h
  have hlength' := (length_le_count dims').trans (htext ▸ h)
  have hlist := congrArg String.toList htext
  rw [toList_dimensionsText] at h
  rw [toList_dimensionsText, toList_dimensionsText] at hlist
  match hds : sortedDimensions dims, hds' : sortedDimensions dims' with
  | [], [] => rfl
  | [], d' :: _ => simp [hds, hds'] at hlist
  | d :: _, [] => simp [hds, hds'] at hlist
  | [d], [d'] =>
    simp only [hds, List.flatMap_singleton, List.count_append, List.count_cons_self] at h
    have hkey : '=' ∉ d.1.toList := List.count_eq_zero.mp (by omega)
    have hvalue : '=' ∉ d.2.toList ++ [';'] := List.count_eq_zero.mp (by rw [List.count_append]; omega)
    simp only [hds, hds', List.flatMap_singleton] at hlist
    obtain ⟨hk, -, hv⟩ := (List.append_cons_inj_of_notMem hkey hvalue).mp hlist.symm
    rw [Prod.ext (String.toList_inj.mp hk) (String.toList_inj.mp (List.append_cancel_right hv))]
  | _, _ :: _ :: _ => simp [hds'] at hlength'
  | _ :: _ :: _, _ => simp [hds] at hlength

theorem dimensions_unshared_iff (dims : GoMap String) : Unshared SameMap dimensionsText dims ↔
    dims.entries.length ≤ 1 ∧ ∀ e ∈ dims.entries, '=' ∉ e.1.toList ∧ '=' ∉ e.2.toList := by
  rw [← count_le_one_iff]
  constructor
  · intro h
    by_contra hcount
    exact not_unshared_of_two (by omega) h
  · exact unshared_of_le_one

def PlainDimension (d : String × String) : Prop := '=' ∉ d.1.toList ∧ ';' ∉ d.2.toList

theorem plainTexts_inj {ds ds' : List (String × String)} (h : ∀ d ∈ ds, PlainDimension d)
    (h' : ∀ d ∈ ds', PlainDimension d)
    (heq : (ds.flatMap fun d => d.1.toList ++ '=' :: (d.2.toList ++ [';'])) =
      ds'.flatMap fun d => d.1.toList ++ '=' :: (d.2.toList ++ [';'])) : ds = ds' := by
  induction ds generalizing ds' with
  | nil =>
    cases ds' with
    | nil => rfl
    | cons d' ds' => simp at heq
  | cons d ds ih =>
    cases ds' with
    | nil => simp at heq
    | cons d' ds' =>
      obtain ⟨hkey, hvalue⟩ := h d List.mem_cons_self
      obtain ⟨hkey', hvalue'⟩ := h' d' List.mem_cons_self
      simp only [List.flatMap_cons, List.append_assoc, List.cons_append, List.nil_append] at heq
      obtain ⟨hk, hrest⟩ := eq_of_append_cons_eq hkey hkey' heq
      obtain ⟨hv, hrest⟩ := eq_of_append_cons_eq hvalue hvalue' hrest
      rw [Prod.ext (String.toList_inj.mp hk) (String.toList_inj.mp hv),
        ih (fun d hd => h d (List.mem_cons_of_mem _ hd)) (fun d hd => h' d (List.mem_cons_of_mem _ hd)) hrest]

/-- Dimensions whose keys hold no equality sign and whose values hold no semicolon are told apart from
one another. -/
theorem sameMap_of_plain (h : ∀ e ∈ dims.entries, PlainDimension (e.1, e.2))
    (h' : ∀ e ∈ dims'.entries, PlainDimension (e.1, e.2))
    (htext : dimensionsText dims = dimensionsText dims') : SameMap dims dims' := by
  have hsorted {dims : GoMap String} (h : ∀ e ∈ dims.entries, PlainDimension (e.1, e.2)) :
      ∀ d ∈ sortedDimensions dims, PlainDimension d := by
    intro d hd
    obtain ⟨e, he, rfl⟩ := List.mem_map.mp ((sortedDimensions_perm dims).mem_iff.mp hd)
    exact h e he
  have hlist := congrArg String.toList htext
  rw [toList_dimensionsText, toList_dimensionsText] at hlist
  exact sameMap_of_sortedDimensions (plainTexts_inj (hsorted h) (hsorted h') hlist)

end Dimensions

/-- A text tells its relationship, its baseline or its dimensions from every other one exactly when none
of the parts could be cut in another place. -/
theorem named_iff (k : RelationshipKey) (cfg : LearnerConfig) (freshID : String) (c : Relationship)
    (now : Time) (b : BaselineKey) (dims : GoMap String) :
    (Unshared (· = ·) stableKey k ↔ ∀ part ∈ k.parts, '|' ∉ part.toList) ∧
    (FindsItself k ↔ ∀ part ∈ k.parts, '|' ∉ part.toList) ∧
    ((CacheEntry.first cfg freshID c now).key =
      stableKey (CacheEntry.first cfg freshID c now).rel.toRelationshipKey ↔ c.nodeID = cfg.nodeID) ∧
    (Unshared (· = ·) BaselineKey.text b ↔ ∀ part ∈ b.texts, '|' ∉ part.toList) ∧
    (Unshared SameMap dimensionsText dims ↔
      dims.entries.length ≤ 1 ∧ ∀ e ∈ dims.entries, '=' ∉ e.1.toList ∧ '=' ∉ e.2.toList) :=
  ⟨stableKey_unshared_iff k, (findsItself_iff k).trans (stableKey_unshared_iff k),
    first_key_iff cfg freshID c now, b.text_unshared_iff, dimensions_unshared_iff dims⟩

section Collisions

/-- A dial without a trust level. -/
def posture : GoMap String := GoMap.ofList [("posture", "ok;trust_level=high")]

/-- A dial with one. -/
def postureAndTrust : GoMap String := GoMap.ofList [("posture", "ok"), ("trust_level", "high")]

def webEdge : BaselineKey :=
  { metricID := "pps", scopeType := "role", scopeID := "web|edge", subjectEntityID := "10.0.0.1" }

def web : BaselineKey :=
  { metricID := "pps", scopeType := "role", scopeID := "web", subjectEntityID := "edge|10.0.0.1" }

def dials : RelationshipKey :=
  { nodeID := "node-1", subjectEntityID := "alice", predicate := "dials", objectEntityID := "api",
    scopeType := "role", scopeID := "web|edge" }

def dialsElsewhere : RelationshipKey := { dials with scopeType := "role|web", scopeID := "edge" }

theorem posture_shared :
    (dimensionsText posture = dimensionsText postureAndTrust ∧ ¬ SameMap posture postureAndTrust) ∧
    (webEdge.text = web.text ∧ webEdge ≠ web) ∧ (stableKey dials = stableKey dialsElsewhere ∧
      dials ≠ dialsElsewhere) := by
  refine ⟨⟨by decide, fun h => ?_⟩, ⟨?_, by decide⟩, ⟨?_, by decide⟩⟩
  · exact absurd (h "posture") (by decide)
  · unfold BaselineKey.text
    decide
  · unfold stableKey
    decide

end Collisions

end Kernloom
