import Mathlib

/-! Rules that are tried one after the other. A rule that holds decides what becomes of a packet, or
leaves it to the rules after it; what sorted rules come to depends on those that hold alone. -/

namespace FirstMatch

/-- What becomes of a packet: a limiter treats what exceeds its rate in one way and the rest in another. -/
inductive Fate (κ : Type) where
  | through
  | accepted
  | dropped
  | limited (limit : κ) (above within : Fate κ)
  deriving DecidableEq

variable {ρ ρ' φ : Type}

/-- The rules in order, and what is done when none is left. -/
def evaluate (holds : ρ → Bool) (act : ρ → φ → φ) (rules : List ρ) (rest : φ) : φ :=
  rules.foldr (fun rule rest => if holds rule then act rule rest else rest) rest

variable {holds : ρ → Bool} {act : ρ → φ → φ} {rules : List ρ} {rest v : φ}

theorem evaluate_map (f : ρ' → ρ) (rules : List ρ') : evaluate holds act (rules.map f) rest =
    evaluate (fun rule => holds (f rule)) (fun rule => act (f rule)) rules rest := by
  rw [evaluate, List.foldr_map]
  rfl

theorem evaluate_append (rules' : List ρ) :
    evaluate holds act (rules ++ rules') rest = evaluate holds act rules (evaluate holds act rules' rest) :=
  List.foldr_append ..

theorem evaluate_filter : evaluate holds act rules rest = evaluate holds act (rules.filter holds) rest := by
  induction rules with
  | nil => rfl
  | cons rule rules ih =>
    cases h : holds rule with
    | true =>
      rw [List.filter_cons_of_pos h]
      simp only [evaluate, List.foldr_cons, h, if_true] at ih ⊢
      rw [ih]
    | false =>
      rw [List.filter_cons_of_neg (by simp [h])]
      simpa only [evaluate, List.foldr_cons, h, Bool.false_eq_true, if_false] using ih

/-- Rules that say the same whatever comes after them say so if one of them holds. -/
theorem evaluate_final (hact : ∀ rule ∈ rules, holds rule = true → ∀ rest, act rule rest = v) :
    evaluate holds act rules rest = if rules.any holds then v else rest := by
  induction rules with
  | nil => rfl
  | cons rule rules ih =>
    have ih := ih fun r hr => hact r (List.mem_cons_of_mem _ hr)
    cases h : holds rule with
    | true => simpa [evaluate, h] using hact rule List.mem_cons_self h _
    | false => simpa [evaluate, h] using ih

/-- The order of the rules that hold does not matter where there is one at most. -/
theorem evaluate_of_perm {found : Option ρ} (h : (rules.filter holds).Perm found.toList) :
    evaluate holds act rules rest = found.elim rest fun rule => act rule rest := by
  rw [evaluate_filter]
  cases found with
  | none =>
    rw [List.perm_nil.mp h]
    rfl
  | some rule =>
    have hone : rules.filter holds = [rule] := List.perm_singleton.mp h
    have hrule : holds rule = true := List.of_mem_filter (hone ▸ List.mem_singleton_self rule)
    rw [hone]
    simp [evaluate, hrule]

/-- Rules sorted by some priority are those of a low priority and then the others. -/
theorem evaluate_sorted {low : ρ → Bool} (h : rules.Pairwise fun r s => low s = true → low r = true) :
    evaluate holds act rules rest =
      evaluate holds act (rules.filter low) (evaluate holds act (rules.filter fun r => !low r) rest) := by
  rw [← evaluate_append]
  congr 1
  induction rules with
  | nil => rfl
  | cons rule rules ih =>
    obtain ⟨hrule, hrules⟩ := List.pairwise_cons.mp h
    cases hlow : low rule with
    | true => simp [hlow, ← ih hrules]
    | false =>
      have hhigh : ∀ r ∈ rules, low r = false := fun r hr => by
        by_contra hr'
        rw [Bool.not_eq_false] at hr'
        exact absurd (hrule r hr hr') (by simp [hlow])
      have hnone : rules.filter low = [] := List.filter_eq_nil_iff.mpr fun r hr => by simp [hhigh r hr]
      have hall : rules.filter (fun r => !low r) = rules :=
        List.filter_eq_self.mpr fun r hr => by simp [hhigh r hr]
      simp [hlow, hnone, hall]

/-- The part of a collection that stems from one of its members. -/
theorem filter_flatMap {ι : Type} {members : List ι} {member : ι} {f : ι → List ρ} {keep : ρ → Bool}
    (hnodup : members.Nodup) (hmember : member ∈ members) (hkeep : ∀ m ∈ members, ∀ r ∈ f m,
      (keep r = true ↔ m = member)) : (members.flatMap f).filter keep = f member := by
  induction members with
  | nil => cases hmember
  | cons m members ih =>
    obtain ⟨hnotin, hnodup⟩ := List.nodup_cons.mp hnodup
    rw [List.flatMap_cons, List.filter_append]
    by_cases hm : m = member
    · subst hm
      have hself : (f m).filter keep = f m :=
        List.filter_eq_self.mpr fun r hr => (hkeep m List.mem_cons_self r hr).mpr rfl
      have hrest : (members.flatMap f).filter keep = [] := List.filter_eq_nil_iff.mpr fun r hr hr' => by
        obtain ⟨m', hm', hr⟩ := List.mem_flatMap.mp hr
        exact hnotin ((hkeep m' (List.mem_cons_of_mem _ hm') r hr).mp hr' ▸ hm')
      rw [hself, hrest, List.append_nil]
    · have hnone : (f m).filter keep = [] := List.filter_eq_nil_iff.mpr fun r hr hr' =>
        hm ((hkeep m List.mem_cons_self r hr).mp hr')
      have hmember' : member ∈ members := (List.mem_cons.mp hmember).resolve_left (Ne.symm hm)
      rw [hnone, List.nil_append]
      exact ih hnodup hmember' fun m' hm' => hkeep m' (List.mem_cons_of_mem _ hm')

end FirstMatch
