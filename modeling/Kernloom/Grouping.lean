import Mathlib

/-! Values that are grouped by a key, each group in the order its values came, and maps that are gone
through in any order. -/

namespace Grouping

variable {κ α : Type} [DecidableEq κ]

abbrev Groups (κ α : Type) := AList fun _ : κ => List α

def Groups.at (m : Groups κ α) (k : κ) : List α := (m.lookup k).getD []

def Groups.add (m : Groups κ α) (k : κ) (a : α) : Groups κ α := m.insert k (m.at k ++ [a])

def groupBy (key : α → κ) (xs : List α) : Groups κ α := xs.foldl (fun m a => m.add (key a) a) ∅

/-- An order in which a loop goes through a map. -/
structure Listing (β : Type) where
  arrange : List β → List β
  perm : ∀ bs, (arrange bs).Perm bs

theorem perm_id {β : Type} (bs : List β) : (id bs).Perm bs := .refl _

/-- The order in which the entries are stored. -/
def Listing.stored {β : Type} : Listing β := ⟨id, perm_id⟩

variable {m : Groups κ α} {k k' : κ} {a : α} {g : List α} {key : α → κ} {xs ys : List α}

theorem Groups.at_add : (m.add k a).at k' = if k' = k then m.at k ++ [a] else m.at k' := by
  unfold Groups.add Groups.at
  split_ifs with h
  · subst h
    rw [AList.lookup_insert, Option.getD_some]
  · rw [AList.lookup_insert_ne h]

theorem Groups.lookup_add : (m.add k a).lookup k' = if k' = k then some (m.at k ++ [a]) else m.lookup k' := by
  unfold Groups.add
  split_ifs with h
  · subst h
    exact AList.lookup_insert m
  · exact AList.lookup_insert_ne h

/-- A group is never empty. -/
def Groups.Filled (m : Groups κ α) : Prop := ∀ k g, m.lookup k = some g → g ≠ []

theorem Groups.Filled.add (h : m.Filled) : (m.add k a).Filled := by
  intro k' g hg
  rw [Groups.lookup_add] at hg
  split_ifs at hg
  · obtain rfl := Option.some.inj hg
    exact List.append_ne_nil_of_right_ne_nil _ (List.cons_ne_nil _ _)
  · exact h k' g hg

theorem filled_empty : (∅ : Groups κ α).Filled := by
  intro k g hg
  rw [AList.lookup_empty] at hg
  cases hg

theorem Groups.Filled.lookup_eq (h : m.Filled) : m.lookup k = if m.at k = [] then none else some (m.at k) := by
  unfold Groups.at
  cases hk : m.lookup k with
  | none => simp
  | some g =>
    rw [Option.getD_some, if_neg (h k g hk)]

theorem at_groupBy : (groupBy key xs).at k = xs.filter fun a => key a = k := by
  unfold groupBy
  induction xs using List.reverseRecOn with
  | nil => rfl
  | append_singleton xs a ih =>
    rw [List.foldl_concat, Groups.at_add, List.filter_append]
    by_cases h : key a = k
    · subst h
      rw [if_pos rfl, ih]
      simp
    · rw [if_neg (Ne.symm h), ih]
      simp [h]

theorem filled_groupBy : (groupBy key xs).Filled := by
  unfold groupBy
  induction xs using List.reverseRecOn with
  | nil => exact filled_empty
  | append_singleton xs a ih =>
    rw [List.foldl_concat]
    exact ih.add

/-- The groups are the values of each key, in their order. -/
theorem mem_groupBy : ⟨k, g⟩ ∈ (groupBy key xs).entries ↔ g = xs.filter (fun a => key a = k) ∧ g ≠ [] := by
  rw [← AList.mem_lookup_iff, Option.mem_def, filled_groupBy.lookup_eq, at_groupBy]
  constructor
  · intro h
    split_ifs at h with hnil
    obtain rfl := Option.some.inj h
    exact ⟨rfl, hnil⟩
  · rintro ⟨rfl, hne⟩
    exact if_neg hne

theorem Listing.mem {β : Type} (order : Listing β) {bs : List β} {b : β} : b ∈ order.arrange bs ↔ b ∈ bs :=
  (order.perm bs).mem_iff

theorem filter_entries (m : Groups κ α) (k : κ) :
    m.entries.filter (fun g => g.1 = k) = (m.lookup k).toList.map fun g => ⟨k, g⟩ := by
  cases hk : m.lookup k with
  | none =>
    refine List.filter_eq_nil_iff.mpr fun g hg heq => ?_
    have hlookup : m.lookup g.1 = some g.2 := AList.mem_lookup_iff.mpr hg
    rw [of_decide_eq_true heq, hk] at hlookup
    cases hlookup
  | some g =>
    have hmem : ⟨k, g⟩ ∈ m.entries := AList.mem_lookup_iff.mp hk
    have hnodup : (m.entries.filter fun g => g.1 = k).Nodup := m.nodupKeys.nodup.filter _
    refine List.perm_singleton.mp ((List.perm_ext_iff_of_nodup hnodup (List.nodup_singleton _)).mpr fun g' => ?_)
    rw [List.mem_filter, List.mem_singleton]
    constructor
    · rintro ⟨hg', heq⟩
      have hlookup : m.lookup g'.1 = some g'.2 := AList.mem_lookup_iff.mpr hg'
      have hkey := of_decide_eq_true heq
      rw [hkey, hk] at hlookup
      obtain ⟨k', g''⟩ := g'
      cases hkey
      rw [Option.some.inj hlookup]
    · rintro rfl
      exact ⟨hmem, decide_eq_true rfl⟩

/-- What a list of groups holds of one key. -/
def ofKey (k : κ) (groups : List (Σ _ : κ, List α)) : List α :=
  (groups.filter fun g => g.1 = k).flatMap fun g => g.2

/-- A loop over a map comes by the values of each key in their order. -/
theorem ofKey_arrange (order : Listing (Σ _ : κ, List α)) (m : Groups κ α) (k : κ) :
    ofKey k (order.arrange m.entries) = m.at k := by
  have hperm := (order.perm m.entries).filter fun g => decide (g.1 = k)
  rw [filter_entries] at hperm
  unfold ofKey Groups.at
  cases hk : m.lookup k with
  | none =>
    rw [hk] at hperm
    rw [List.perm_nil.mp hperm]
    rfl
  | some g =>
    rw [hk] at hperm
    rw [List.perm_singleton.mp hperm]
    exact List.append_nil _

theorem ofKey_cons (k : κ) (g : Σ _ : κ, List α) (groups : List (Σ _ : κ, List α)) :
    ofKey k (g :: groups) = (if g.1 = k then g.2 else []) ++ ofKey k groups := by
  unfold ofKey
  by_cases h : g.1 = k <;> simp [h]

end Grouping
