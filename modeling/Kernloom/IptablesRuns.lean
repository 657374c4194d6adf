import Kernloom.IptablesBackend

/-! The filter table over sequences of plans, as an initial table with the chains of the backend and
the jumps to them on top. -/

namespace Kernloom

namespace Netfilter

section Layout

/-- What the backend added to a table: the jumps on top of a hook, and the chains. -/
structure Layout where
  jumps : Hook → Nat := fun _ => 0
  chains : Hook → Option (List IptRule) := fun _ => none

/-- The table is an initial one with a layout on top. -/
structure LaidOut (chainPrefix : String) (initial : Ruleset) (ly : Layout) (r : Ruleset) : Prop where
  hook : ∀ h : Hook, r.lookup h.builtin = (initial.lookup h.builtin).map fun rules =>
    List.replicate (ly.jumps h) (jumpTo (h.chainName chainPrefix)) ++ rules
  chain : ∀ h : Hook, r.lookup (h.chainName chainPrefix) = ly.chains h
  other : ∀ c, (∀ h : Hook, c ≠ h.builtin ∧ c ≠ h.chainName chainPrefix) → r.lookup c = initial.lookup c

/-- A table with the hooks, without the chains of the backend and jumps to them. -/
structure Foreign (chainPrefix : String) (initial : Ruleset) : Prop where
  builtin : ∀ h : Hook, (initial.lookup h.builtin).isSome
  chain : ∀ h : Hook, initial.lookup (h.chainName chainPrefix) = none
  jump : ∀ entry ∈ initial.entries, ∀ rule ∈ entry.2, ∀ h : Hook, rule.target ≠ h.chainName chainPrefix

/-- The rules of the chains jump to none of them. -/
def Layout.Inward (chainPrefix : String) (ly : Layout) : Prop :=
  ∀ h rules, ly.chains h = some rules → ∀ rule ∈ rules, ∀ h' : Hook, rule.target ≠ h'.chainName chainPrefix

def Layout.setJumps (ly : Layout) (h : Hook) (n : Nat) : Layout :=
  { ly with jumps := Function.update ly.jumps h n }

def Layout.setChain (ly : Layout) (h : Hook) (rules : Option (List IptRule)) : Layout :=
  { ly with chains := Function.update ly.chains h rules }

variable {pre : String} {r₀ r r' : Ruleset} {ly : Layout} {h : Hook}

theorem LaidOut.start (hforeign : Foreign pre r₀) : LaidOut pre r₀ {} r₀ where
  hook h := by simp
  chain := hforeign.chain
  other _ _ := rfl

theorem LaidOut.insertChain (hr : LaidOut pre r₀ ly r) (rules : List IptRule) :
    LaidOut pre r₀ (ly.setChain h (some rules)) (r.insert (h.chainName pre) rules) where
  hook h' := by
    rw [AList.lookup_insert_ne Hook.chainName_ne_builtin.symm]
    exact hr.hook h'
  chain h' := by
    simp only [Layout.setChain, Function.update_apply]
    by_cases hh : h' = h
    · subst hh
      rw [if_pos rfl, AList.lookup_insert]
    · rw [if_neg hh, AList.lookup_insert_ne fun heq => hh (Hook.chainName_inj heq)]
      exact hr.chain h'
  other c hc := by
    rw [AList.lookup_insert_ne (hc h).2]
    exact hr.other c hc

theorem LaidOut.eraseChain (hr : LaidOut pre r₀ ly r) :
    LaidOut pre r₀ (ly.setChain h none) (r.erase (h.chainName pre)) where
  hook h' := by
    rw [AList.lookup_erase_ne Hook.chainName_ne_builtin.symm]
    exact hr.hook h'
  chain h' := by
    simp only [Layout.setChain, Function.update_apply]
    by_cases hh : h' = h
    · subst hh
      rw [if_pos rfl, AList.lookup_erase]
    · rw [if_neg hh, AList.lookup_erase_ne fun heq => hh (Hook.chainName_inj heq)]
      exact hr.chain h'
  other c hc := by
    rw [AList.lookup_erase_ne (hc h).2]
    exact hr.other c hc

theorem LaidOut.insertHook (hr : LaidOut pre r₀ ly r) {n : Nat} {rules : List IptRule}
    (hrules : r₀.lookup h.builtin = some rules) : LaidOut pre r₀ (ly.setJumps h n)
      (r.insert h.builtin (List.replicate n (jumpTo (h.chainName pre)) ++ rules)) where
  hook h' := by
    simp only [Layout.setJumps, Function.update_apply]
    by_cases hh : h' = h
    · subst hh
      rw [if_pos rfl, AList.lookup_insert, hrules]
      rfl
    · rw [if_neg hh, AList.lookup_insert_ne fun heq => hh (Hook.builtin_inj heq)]
      exact hr.hook h'
  chain h' := by
    rw [AList.lookup_insert_ne Hook.chainName_ne_builtin]
    exact hr.chain h'
  other c hc := by
    rw [AList.lookup_insert_ne (hc h).1]
    exact hr.other c hc

theorem Foreign.hook (hforeign : Foreign pre r₀) (h : Hook) : ∃ rules, r₀.lookup h.builtin = some rules ∧
    jumpTo (h.chainName pre) ∉ rules := by
  obtain ⟨rules, hrules⟩ := Option.isSome_iff_exists.mp (hforeign.builtin h)
  exact ⟨rules, hrules, fun hmem => hforeign.jump _ (AList.mem_lookup_iff.mp hrules) _ hmem h rfl⟩

section Steps

variable (hr : LaidOut pre r₀ ly r) (hforeign : Foreign pre r₀)

include hr hforeign

theorem LaidOut.insertHead : ∃ r', r.insertHead h.builtin (jumpTo (h.chainName pre)) = some r' ∧
    LaidOut pre r₀ (ly.setJumps h (ly.jumps h + 1)) r' := by
  obtain ⟨rules, hrules, -⟩ := hforeign.hook h
  have hlookup := hr.hook h
  rw [hrules, Option.map_some] at hlookup
  refine ⟨r.insert h.builtin (jumpTo (h.chainName pre) ::
    (List.replicate (ly.jumps h) (jumpTo (h.chainName pre)) ++ rules)), ?_, ?_⟩
  · rw [Ruleset.insertHead, hlookup]
    rfl
  rw [← List.cons_append, ← List.replicate_succ]
  exact hr.insertHook hrules

theorem LaidOut.check_iff : r.check h.builtin (jumpTo (h.chainName pre)) = true ↔ 0 < ly.jumps h := by
  obtain ⟨rules, hrules, hnotin⟩ := hforeign.hook h
  have hlookup := hr.hook h
  rw [hrules, Option.map_some] at hlookup
  simp only [Ruleset.check, hlookup, Option.any_some, decide_eq_true_eq, List.mem_append, List.mem_replicate,
    hnotin, or_false, and_true, Nat.pos_iff_ne_zero]

theorem LaidOut.deleteRule : LaidOut pre r₀ (ly.setJumps h (ly.jumps h - 1))
    ((r.deleteRule h.builtin (jumpTo (h.chainName pre))).getD r) := by
  obtain ⟨rules, hrules, hnotin⟩ := hforeign.hook h
  have hlookup := hr.hook h
  rw [hrules, Option.map_some] at hlookup
  cases hn : ly.jumps h with
  | zero =>
    rw [hn, List.replicate_zero, List.nil_append] at hlookup
    have hsame : ly.setJumps h (0 - 1) = ly := by
      rw [Layout.setJumps, Nat.zero_sub, ← hn, Function.update_eq_self]
    rw [hsame, Ruleset.deleteRule, hlookup]
    simpa only [hnotin, if_false, Option.getD_none] using hr
  | succ n =>
    rw [hn, List.replicate_succ, List.cons_append] at hlookup
    rw [Ruleset.deleteRule, hlookup]
    simp only [List.mem_cons, true_or, if_true, Option.getD_some, List.erase_cons_head, Nat.add_sub_cancel]
    exact hr.insertHook hrules

theorem LaidOut.deleteChain (hempty : ly.chains h = some []) (hjumps : ly.jumps h = 0)
    (hinward : ly.Inward pre) : LaidOut pre r₀ (ly.setChain h none)
      ((r.deleteChain (h.chainName pre)).getD r) := by
  have hlookup := (hr.chain h).trans hempty
  have hfree : r.isReferenced (h.chainName pre) = false := by
    rw [Ruleset.isReferenced, List.any_eq_false]
    intro entry hentry htarget
    simp only [List.any_eq_true, decide_eq_true_eq] at htarget
    obtain ⟨rule, hrule, htarget⟩ := htarget
    have hfound : r.lookup entry.1 = some entry.2 := AList.mem_lookup_iff.mpr hentry
    by_cases hother : ∀ h : Hook, entry.1 ≠ h.builtin ∧ entry.1 ≠ h.chainName pre
    · rw [hr.other _ hother] at hfound
      exact hforeign.jump _ (AList.mem_lookup_iff.mp hfound) rule hrule h htarget
    push Not at hother
    obtain ⟨h', hh'⟩ := hother
    by_cases hbuiltin : entry.1 = h'.builtin
    · obtain ⟨rules, hrules, -⟩ := hforeign.hook h'
      rw [hbuiltin, hr.hook, hrules, Option.map_some, Option.some.injEq] at hfound
      rw [← hfound, List.mem_append] at hrule
      rcases hrule with hrule | hrule
      · obtain ⟨hpos, rfl⟩ := List.mem_replicate.mp hrule
        obtain rfl : h' = h := Hook.chainName_inj htarget
        exact hpos hjumps
      · exact hforeign.jump _ (AList.mem_lookup_iff.mp hrules) rule hrule h htarget
    · rw [hh' hbuiltin, hr.chain] at hfound
      exact hinward h' entry.2 hfound rule hrule h htarget
  rw [Ruleset.deleteChain, hlookup]
  simp only [hfree, Bool.false_eq_true, if_false, Option.getD_some]
  exact hr.eraseChain

end Steps

theorem LaidOut.flush (hr : LaidOut pre r₀ ly r) (hchain : (ly.chains h).isSome) :
    r.flush (h.chainName pre) = some (r.insert (h.chainName pre) []) := by
  obtain ⟨rules, hrules⟩ := Option.isSome_iff_exists.mp hchain
  rw [Ruleset.flush, hr.chain, hrules]
  rfl

end Layout

section Operations

variable {cfg : Config} {r₀ r : Ruleset} {ly : Layout} {h : Hook}

/-- The chain of a hook is there, and at least one jump to it. -/
def Layout.ensured (ly : Layout) (h : Hook) : Layout :=
  (ly.setChain h (some ((ly.chains h).getD []))).setJumps h (max 1 (ly.jumps h))

theorem ensureChain_laidOut (hforeign : Foreign cfg.chainPrefix r₀) (hr : LaidOut cfg.chainPrefix r₀ ly r)
    (h : Hook) :
    ∃ r', ensureChain cfg r (h.chainName cfg.chainPrefix) = some r' ∧
      LaidOut cfg.chainPrefix r₀ (ly.ensured h) r' := by
  have hnew : LaidOut cfg.chainPrefix r₀ (ly.setChain h (some ((ly.chains h).getD [])))
      ((r.newChain (h.chainName cfg.chainPrefix)).getD r) := by
    have hlookup := hr.chain h
    unfold Ruleset.newChain
    cases hchain : ly.chains h with
    | none =>
      rw [hlookup, hchain]
      exact hr.insertChain []
    | some rules =>
      have hsame : ly.setChain h (some rules) = ly := by
        rw [Layout.setChain, ← hchain, Function.update_eq_self]
      rw [hlookup, hchain, Option.getD_some, hsame]
      exact hr
  unfold ensureChain
  rw [Hook.hookForChain_chainName]
  by_cases hpos : 0 < ly.jumps h
  · have hmax : max 1 (ly.jumps h) = ly.jumps h := max_eq_right hpos
    rw [if_pos ((hnew.check_iff hforeign).mpr hpos)]
    refine ⟨_, rfl, ?_⟩
    rw [Layout.ensured, hmax, Layout.setJumps, Layout.setChain, Function.update_eq_self]
    exact hnew
  · have hzero : ly.jumps h = 0 := Nat.eq_zero_of_not_pos hpos
    rw [if_neg fun hcheck => hpos ((hnew.check_iff hforeign).mp hcheck)]
    obtain ⟨r', hinsert, hr'⟩ := hnew.insertHead hforeign (h := h)
    refine ⟨r', hinsert, ?_⟩
    have hnext : max 1 (ly.jumps h) = ly.jumps h + 1 := by omega
    rw [Layout.ensured, hnext]
    exact hr'

theorem foldlM_laidOut {ι : Type} {pre : String} (line : ι → RestoreLine) (f : Layout → ι → Layout)
    (ok : Layout → Prop) (xs : List ι) (hstep : ∀ x ∈ xs, ∀ {ly r}, ok ly → LaidOut pre r₀ ly r →
      ∃ r', r.line (line x) = some r' ∧ LaidOut pre r₀ (f ly x) r' ∧ ok (f ly x))
    (hok : ok ly) (hr : LaidOut pre r₀ ly r) :
    ∃ r', (xs.map line).foldlM Ruleset.line r = some r' ∧
      LaidOut pre r₀ (xs.foldl f ly) r' ∧ ok (xs.foldl f ly) := by
  induction xs generalizing ly r with
  | nil => exact ⟨r, rfl, hr, hok⟩
  | cons x xs ih =>
    obtain ⟨r', hline, hr', hok'⟩ := hstep x List.mem_cons_self hok hr
    obtain ⟨r'', hlines, hr'', hok''⟩ := ih (fun y hy => hstep y (List.mem_cons_of_mem _ hy)) hok' hr'
    refine ⟨r'', ?_, hr'', hok''⟩
    rw [List.map_cons, List.foldlM_cons, hline]
    exact hlines

def Layout.cleared (ly : Layout) (h : Hook) : Layout := ly.setChain h (some [])

def Layout.jumped (ly : Layout) (h : Hook) : Layout := ly.setJumps h (ly.jumps h + 1)

/-- What a plan makes of a layout. -/
def Layout.restored (ly : Layout) (hooks : List Hook) (contents : Hook → List IptRule) : Layout where
  jumps h := ly.jumps h + if h ∈ hooks then 1 else 0
  chains h := if h ∈ hooks then some (contents h) else ly.chains h

theorem chains_cleared (hooks : List Hook) (ly : Layout) :
    (hooks.foldl Layout.cleared ly).chains = fun h => if h ∈ hooks then some [] else ly.chains h := by
  induction hooks generalizing ly with
  | nil => simp
  | cons h hooks ih =>
    rw [List.foldl_cons, ih]
    funext h'
    simp only [Layout.cleared, Layout.setChain, Function.update_apply, List.mem_cons]
    by_cases hmem : h' ∈ hooks <;> by_cases hh : h' = h <;> simp [hmem, hh]

theorem jumps_cleared (hooks : List Hook) (ly : Layout) :
    (hooks.foldl Layout.cleared ly).jumps = ly.jumps := by
  induction hooks generalizing ly with
  | nil => rfl
  | cons h hooks ih => exact ih _

theorem jumps_jumped {hooks : List Hook} (hnodup : hooks.Nodup) (ly : Layout) :
    (hooks.foldl Layout.jumped ly).jumps = fun h => ly.jumps h + if h ∈ hooks then 1 else 0 := by
  induction hooks generalizing ly with
  | nil => simp
  | cons h hooks ih =>
    obtain ⟨hnotin, hnodup⟩ := List.nodup_cons.mp hnodup
    rw [List.foldl_cons, ih hnodup]
    funext h'
    simp only [Layout.jumped, Layout.setJumps, Function.update_apply, List.mem_cons]
    by_cases hh : h' = h
    · subst hh
      simp [hnotin]
    · simp [hh]

theorem chains_jumped (hooks : List Hook) (ly : Layout) :
    (hooks.foldl Layout.jumped ly).chains = ly.chains := by
  induction hooks generalizing ly with
  | nil => rfl
  | cons h hooks ih => exact ih _

def Layout.appended (cfg : Config) (ly : Layout) (rule : RulePlan) : Layout :=
  { ly with chains := fun h =>
      if h.chainName cfg.chainPrefix = rule.chain then
        (ly.chains h).map (· ++ [renderIptRule cfg.commentPrefix rule])
      else ly.chains h }

theorem chains_appended (cfg : Config) (rules : List RulePlan) (ly : Layout) :
    (rules.foldl (Layout.appended cfg) ly).chains = fun h =>
      (ly.chains h).map (· ++ iptChain cfg.commentPrefix rules (h.chainName cfg.chainPrefix)) := by
  induction rules generalizing ly with
  | nil => simp [iptChain]
  | cons rule rules ih =>
    rw [List.foldl_cons, ih]
    funext h
    simp only [Layout.appended, iptChain, List.filter_cons]
    by_cases hchain : h.chainName cfg.chainPrefix = rule.chain
    · simp only [hchain, if_true, decide_true, List.map_cons, Option.map_map]
      exact congrArg (Option.map · (ly.chains h)) (funext fun content => by simp)
    · simp [hchain, Ne.symm hchain]

theorem jumps_appended (cfg : Config) (rules : List RulePlan) (ly : Layout) :
    (rules.foldl (Layout.appended cfg) ly).jumps = ly.jumps := by
  induction rules generalizing ly with
  | nil => rfl
  | cons rule rules ih => exact ih _

theorem LaidOut.appendRule {pre : String} (hr : LaidOut pre r₀ ly r) {rules : List IptRule}
    (hchain : ly.chains h = some rules) (rule : IptRule) :
    r.appendRule (h.chainName pre) rule = some (r.insert (h.chainName pre) (rules ++ [rule])) := by
  rw [Ruleset.appendRule, hr.chain, hchain]
  rfl

theorem restored_eq (plan : KernloomPlan cfg.chainPrefix) (s : SortedRules plan.toNetfilterPlan) (ly : Layout) :
    s.rules.foldl (Layout.appended cfg) (plan.hooks.foldl Layout.jumped
        (plan.hooks.foldl Layout.cleared (plan.hooks.foldl Layout.cleared ly))) = ly.restored plan.hooks
          fun h => iptChain cfg.commentPrefix s.rules (h.chainName cfg.chainPrefix) := by
  have hjumps := jumps_appended cfg s.rules (plan.hooks.foldl Layout.jumped
    (plan.hooks.foldl Layout.cleared (plan.hooks.foldl Layout.cleared ly)))
  have hchains := chains_appended cfg s.rules (plan.hooks.foldl Layout.jumped
    (plan.hooks.foldl Layout.cleared (plan.hooks.foldl Layout.cleared ly)))
  rw [jumps_jumped plan.nodup, jumps_cleared, jumps_cleared] at hjumps
  rw [chains_jumped, chains_cleared, chains_cleared] at hchains
  generalize s.rules.foldl (Layout.appended cfg) _ = out at hjumps hchains
  obtain ⟨jumps, chains⟩ := out
  simp only [Layout.restored, Layout.mk.injEq] at hjumps hchains ⊢
  refine ⟨hjumps, hchains.trans (funext fun h => ?_)⟩
  by_cases hh : h ∈ plan.hooks
  · simp [hh]
  · have hnone : iptChain cfg.commentPrefix s.rules (h.chainName cfg.chainPrefix) = [] := by
      rw [iptChain, List.filter_eq_nil_iff.mpr, List.map_nil]
      intro rule hrule hchain
      obtain ⟨h', hh', hchain'⟩ := plan.rules_in rule (s.perm.mem_iff.mp hrule)
      exact hh (Hook.chainName_inj (hchain'.symm.trans (of_decide_eq_true hchain)) ▸ hh')
    simp [hh, hnone]

/-- The script replaces the chains of the plan and puts a jump to each on top of its hook. -/
theorem restore_laidOut (hforeign : Foreign cfg.chainPrefix r₀) (hr : LaidOut cfg.chainPrefix r₀ ly r)
    (plan : KernloomPlan cfg.chainPrefix) (s : SortedRules plan.toNetfilterPlan) :
    ∃ r', r.restore (renderLines cfg plan.toNetfilterPlan s.rules) = some r' ∧
      LaidOut cfg.chainPrefix r₀ (ly.restored plan.hooks
        fun h => iptChain cfg.commentPrefix s.rules (h.chainName cfg.chainPrefix)) r' := by
  let ok (ly : Layout) : Prop := ∀ h ∈ plan.hooks, (ly.chains h).isSome
  have hlines : renderLines cfg plan.toNetfilterPlan s.rules =
      plan.hooks.map (fun h => .declare (h.chainName cfg.chainPrefix)) ++
      plan.hooks.map (fun h => .flush (h.chainName cfg.chainPrefix)) ++
      plan.hooks.map (fun h => .insertHead h.builtin (jumpTo (h.chainName cfg.chainPrefix))) ++
      s.rules.map fun rule => .appendRule rule.chain (renderIptRule cfg.commentPrefix rule) := by
    simp only [renderLines, plan.chains_eq, List.map_map, Function.comp_def, Hook.plan, Hook.hookChain_text]
  obtain ⟨r₁, hdeclare, hr₁, -⟩ := foldlM_laidOut
    (fun h : Hook => .declare (h.chainName cfg.chainPrefix)) Layout.cleared (fun _ => True) plan.hooks
    (fun h _ _ r _ hr => ⟨r.insert (h.chainName cfg.chainPrefix) [], rfl, hr.insertChain [], trivial⟩)
    trivial hr
  have hok : ok (plan.hooks.foldl Layout.cleared ly) := fun h hh => by
    rw [chains_cleared]
    simp [hh]
  obtain ⟨r₂, hflush, hr₂, hok⟩ := foldlM_laidOut
    (fun h : Hook => .flush (h.chainName cfg.chainPrefix)) Layout.cleared ok plan.hooks
    (fun h hh _ r hok hr => ⟨r.insert (h.chainName cfg.chainPrefix) [], hr.flush (hok h hh),
      hr.insertChain [], fun h' hh' => by
      simp only [Layout.cleared, Layout.setChain, Function.update_apply]
      split_ifs
      · rfl
      · exact hok h' hh'⟩) hok hr₁
  obtain ⟨r₃, hjump, hr₃, hok⟩ := foldlM_laidOut
    (fun h : Hook => .insertHead h.builtin (jumpTo (h.chainName cfg.chainPrefix))) Layout.jumped ok plan.hooks
    (fun h _ ly r hok hr => by
      obtain ⟨r', hinsert, hr'⟩ := hr.insertHead hforeign (h := h)
      exact ⟨r', hinsert, hr', hok⟩) hok hr₂
  obtain ⟨r₄, hrules, hr₄, -⟩ := foldlM_laidOut
    (fun rule : RulePlan => .appendRule rule.chain (renderIptRule cfg.commentPrefix rule))
    (Layout.appended cfg) ok s.rules
    (fun rule hrule ly r hok hr => by
      obtain ⟨h, hh, hchain⟩ := plan.rules_in rule (s.perm.mem_iff.mp hrule)
      obtain ⟨rules, hrules⟩ := Option.isSome_iff_exists.mp (hok h hh)
      have hsame : ly.appended cfg rule =
          ly.setChain h (some (rules ++ [renderIptRule cfg.commentPrefix rule])) := by
        simp only [Layout.appended, Layout.setChain, Layout.mk.injEq, true_and]
        funext h'
        rw [Function.update_apply]
        by_cases hh' : h' = h
        · subst hh'
          rw [if_pos hchain.symm, if_pos rfl, hrules]
          rfl
        · rw [if_neg fun heq => hh' (Hook.chainName_inj (heq.trans hchain)), if_neg hh']
      refine ⟨_, by rw [hchain]; exact hr.appendRule hrules _, hsame ▸ hr.insertChain _, fun h' hh' => ?_⟩
      simp only [Layout.appended]
      split_ifs
      · rw [Option.isSome_map]
        exact hok h' hh'
      · exact hok h' hh') hok hr₃
  refine ⟨r₄, ?_, ?_⟩
  · rw [Ruleset.restore, hlines, List.foldlM_append, List.foldlM_append, List.foldlM_append, hdeclare]
    simp only [Option.bind_eq_bind, Option.bind_some, hflush, hjump]
    exact hrules
  · exact restored_eq plan s ly ▸ hr₄

/-- The chains that the configuration has, with a jump to each at least. -/
def Layout.ensuredAll (ly : Layout) (hooks : List Hook) : Layout where
  jumps h := if h ∈ hooks then max 1 (ly.jumps h) else ly.jumps h
  chains h := if h ∈ hooks then some ((ly.chains h).getD []) else ly.chains h

theorem foldl_ensured (hooks : List Hook) (ly : Layout) :
    hooks.foldl Layout.ensured ly = ly.ensuredAll hooks := by
  induction hooks generalizing ly with
  | nil => simp [Layout.ensuredAll]
  | cons h hooks ih =>
    rw [List.foldl_cons, ih]
    simp only [Layout.ensuredAll, Layout.ensured, Layout.setJumps, Layout.setChain, Function.update_apply,
      List.mem_cons, Layout.mk.injEq]
    constructor <;> funext h'
    · by_cases hmem : h' ∈ hooks <;> by_cases hh : h' = h <;> simp [hmem, hh]
    · by_cases hmem : h' ∈ hooks <;> by_cases hh : h' = h <;> simp [hmem, hh]

theorem ensureChains_laidOut (hlive : cfg.dryRun = false) (hforeign : Foreign cfg.chainPrefix r₀)
    (hr : LaidOut cfg.chainPrefix r₀ ly r) :
    ∃ r', ensureChains cfg r = some r' ∧ LaidOut cfg.chainPrefix r₀ (ly.ensuredAll cfg.hooks) r' := by
  have hall : ∀ (hooks : List Hook) {ly r}, LaidOut cfg.chainPrefix r₀ ly r →
      ∃ r', (hooks.map (·.chainName cfg.chainPrefix)).foldlM (ensureChain cfg) r = some r' ∧
        LaidOut cfg.chainPrefix r₀ (hooks.foldl Layout.ensured ly) r' := by
    intro hooks
    induction hooks with
    | nil => exact fun hr => ⟨_, rfl, hr⟩
    | cons h hooks ih =>
      intro ly r hr
      obtain ⟨r', hensure, hr'⟩ := ensureChain_laidOut hforeign hr h
      obtain ⟨r'', hrest, hr''⟩ := ih hr'
      refine ⟨r'', ?_, hr''⟩
      rw [List.map_cons, List.foldlM_cons, hensure]
      exact hrest
  rw [ensureChains, hlive, if_neg (by decide), kernloomChains_eq, ← foldl_ensured]
  exact hall cfg.hooks hr

/-- A plan with the order in which its rules were sorted. -/
structure SortedPlan (chainPrefix : String) extends KernloomPlan chainPrefix where
  sorted : SortedRules toNetfilterPlan

def SortedPlan.apply (cfg : Config) (r : Ruleset) (plan : SortedPlan cfg.chainPrefix) : Option Ruleset :=
  applyPlan cfg plan.toNetfilterPlan plan.sorted.rules r

/-- The rules that a plan has for a hook. -/
def SortedPlan.contents (cfg : Config) (plan : SortedPlan cfg.chainPrefix) (h : Hook) : List IptRule :=
  iptChain cfg.commentPrefix plan.sorted.rules (h.chainName cfg.chainPrefix)

def Layout.applied (cfg : Config) (ly : Layout) (plan : SortedPlan cfg.chainPrefix) : Layout :=
  (ly.ensuredAll cfg.hooks).restored plan.hooks (plan.contents cfg)

theorem apply_laidOut (hlive : cfg.dryRun = false) (hforeign : Foreign cfg.chainPrefix r₀)
    (hr : LaidOut cfg.chainPrefix r₀ ly r) (plan : SortedPlan cfg.chainPrefix) :
    ∃ r', plan.apply cfg r = some r' ∧ LaidOut cfg.chainPrefix r₀ (ly.applied cfg plan) r' := by
  obtain ⟨r₁, hensure, hr₁⟩ := ensureChains_laidOut hlive hforeign hr
  obtain ⟨r₂, hrestore, hr₂⟩ := restore_laidOut hforeign hr₁ plan.toKernloomPlan plan.sorted
  refine ⟨r₂, ?_, hr₂⟩
  rw [SortedPlan.apply, applyPlan, hensure, Option.bind_some, hlive, if_neg (by decide)]
  exact hrestore

theorem applyAll_laidOut (hlive : cfg.dryRun = false) (hforeign : Foreign cfg.chainPrefix r₀)
    (plans : List (SortedPlan cfg.chainPrefix)) (hr : LaidOut cfg.chainPrefix r₀ ly r) :
    ∃ r', plans.foldlM (SortedPlan.apply cfg) r = some r' ∧
      LaidOut cfg.chainPrefix r₀ (plans.foldl (Layout.applied cfg) ly) r' := by
  induction plans generalizing ly r with
  | nil => exact ⟨r, rfl, hr⟩
  | cons plan plans ih =>
    obtain ⟨r', happly, hr'⟩ := apply_laidOut hlive hforeign hr plan
    obtain ⟨r'', hrest, hr''⟩ := ih hr'
    refine ⟨r'', ?_, hr''⟩
    rw [List.foldlM_cons, happly]
    exact hrest

theorem cleanupChain_laidOut (hforeign : Foreign cfg.chainPrefix r₀) (hr : LaidOut cfg.chainPrefix r₀ ly r)
    (h : Hook) :
    ∃ chains, LaidOut cfg.chainPrefix r₀ ⟨Function.update ly.jumps h (ly.jumps h - 1), chains⟩
      (cleanupChain cfg r (h.chainName cfg.chainPrefix)) := by
  have hdelete := hr.deleteRule hforeign (h := h)
  simp only [cleanupChain, Hook.hookForChain_chainName]
  generalize (r.deleteRule h.builtin (jumpTo (h.chainName cfg.chainPrefix))).getD r = r₁ at hdelete ⊢
  obtain ⟨ly₂, hjumps, hflush⟩ : ∃ ly₂ : Layout, ly₂.jumps = Function.update ly.jumps h (ly.jumps h - 1) ∧
      LaidOut cfg.chainPrefix r₀ ly₂ ((r₁.flush (h.chainName cfg.chainPrefix)).getD r₁) := by
    unfold Ruleset.flush
    cases r₁.lookup (h.chainName cfg.chainPrefix) with
    | none => exact ⟨_, rfl, hdelete⟩
    | some rules => exact ⟨_, rfl, hdelete.insertChain []⟩
  generalize (r₁.flush (h.chainName cfg.chainPrefix)).getD r₁ = r₂ at hflush ⊢
  rw [← hjumps]
  unfold Ruleset.deleteChain
  rcases r₂.lookup (h.chainName cfg.chainPrefix) with _ | _ | ⟨rule, rules⟩
  · exact ⟨_, hflush⟩
  · dsimp only
    split_ifs
    · exact ⟨_, hflush⟩
    · exact ⟨_, hflush.eraseChain⟩
  · exact ⟨_, hflush⟩

/-- A cleanup takes one jump off each hook of the configuration. -/
theorem cleanup_laidOut (hlive : cfg.dryRun = false) (hforeign : Foreign cfg.chainPrefix r₀)
    (hr : LaidOut cfg.chainPrefix r₀ ly r) : ∃ chains, LaidOut cfg.chainPrefix r₀
      ⟨fun h => if h ∈ cfg.hooks then ly.jumps h - 1 else ly.jumps h, chains⟩ (cleanup cfg r) := by
  have hall : ∀ (hooks : List Hook), hooks.Nodup → ∀ {ly r}, LaidOut cfg.chainPrefix r₀ ly r →
      ∃ chains, LaidOut cfg.chainPrefix r₀ ⟨fun h => if h ∈ hooks then ly.jumps h - 1 else ly.jumps h, chains⟩
        ((hooks.map (·.chainName cfg.chainPrefix)).foldl (cleanupChain cfg) r) := by
    intro hooks hnodup
    induction hooks with
    | nil => exact fun hr => ⟨_, by simpa using hr⟩
    | cons h hooks ih =>
      intro ly r hr
      obtain ⟨hnotin, hnodup⟩ := List.nodup_cons.mp hnodup
      obtain ⟨chains₁, hr₁⟩ := cleanupChain_laidOut hforeign hr h
      obtain ⟨chains₂, hr₂⟩ := ih hnodup hr₁
      refine ⟨chains₂, ?_⟩
      have hjumps : (fun h' => if h' ∈ h :: hooks then ly.jumps h' - 1 else ly.jumps h') = fun h' =>
          if h' ∈ hooks then Function.update ly.jumps h (ly.jumps h - 1) h' - 1
          else Function.update ly.jumps h (ly.jumps h - 1) h' := by
        funext h'
        rw [Function.update_apply]
        by_cases hh : h' = h
        · subst hh
          simp [hnotin]
        · simp [hh]
      rw [hjumps]
      exact hr₂
  rw [cleanup, hlive, if_neg (by decide), kernloomChains_eq]
  exact hall cfg.hooks (hooks_nodup cfg) hr

end Operations

section Runs

variable {cfg : Config} {r₀ r : Ruleset} {ly : Layout}

/-- Each hook of the plan jumps to its chain once, and the chains hold what the plan has for them. -/
structure AsPlanned (cfg : Config) (plan : SortedPlan cfg.chainPrefix) (r : Ruleset) : Prop where
  jump : ∀ h ∈ plan.hooks, ∃ rules, r.lookup h.builtin = some rules ∧
    rules.count (jumpTo (h.chainName cfg.chainPrefix)) = 1
  rules : ∀ h : Hook, (r.lookup (h.chainName cfg.chainPrefix)).getD [] = plan.contents cfg h

/-- The cleanup leaves the initial table. -/
def Undone (cfg : Config) (initial r : Ruleset) : Prop := ∀ c, (cleanup cfg r).lookup c = initial.lookup c

theorem LaidOut.count_jump {pre : String} (hforeign : Foreign pre r₀) (hr : LaidOut pre r₀ ly r) (h : Hook) :
    ∃ rules, r.lookup h.builtin = some rules ∧ rules.count (jumpTo (h.chainName pre)) = ly.jumps h := by
  obtain ⟨rules, hrules, hnotin⟩ := hforeign.hook h
  refine ⟨_, by rw [hr.hook, hrules, Option.map_some], ?_⟩
  rw [List.count_append, List.count_replicate_self, List.count_eq_zero.mpr hnotin, Nat.add_zero]

/-- A table that looks up like the initial one has no jumps. -/
theorem LaidOut.jumps_eq_zero {pre : String} (hforeign : Foreign pre r₀) (hr : LaidOut pre r₀ ly r)
    (hsame : ∀ c, r.lookup c = r₀.lookup c) (h : Hook) : ly.jumps h = 0 := by
  obtain ⟨rules, hrules, hcount⟩ := hr.count_jump hforeign h
  obtain ⟨rules', hrules', hnotin⟩ := hforeign.hook h
  rw [hsame, hrules', Option.some.injEq] at hrules
  rw [← hcount, ← hrules, List.count_eq_zero.mpr hnotin]

theorem LaidOut.lookup_eq {pre : String} (hforeign : Foreign pre r₀) (hr : LaidOut pre r₀ ly r)
    (hjumps : ∀ h, ly.jumps h = 0) (hchains : ∀ h, ly.chains h = none) (c : String) :
    r.lookup c = r₀.lookup c := by
  by_cases hother : ∀ h : Hook, c ≠ h.builtin ∧ c ≠ h.chainName pre
  · exact hr.other c hother
  push Not at hother
  obtain ⟨h, hh⟩ := hother
  by_cases hbuiltin : c = h.builtin
  · rw [hbuiltin, hr.hook, hjumps, List.replicate_zero]
    simp only [List.nil_append, Option.map_id']
  · rw [hh hbuiltin, hr.chain, hchains, hforeign.chain]

theorem jumps_applied (cfg : Config) (ly : Layout) (plan : SortedPlan cfg.chainPrefix) (h : Hook) :
    (ly.applied cfg plan).jumps h =
      (if h ∈ cfg.hooks then max 1 (ly.jumps h) else ly.jumps h) + if h ∈ plan.hooks then 1 else 0 := rfl

/-- After the first plan every plan adds a jump for each of its hooks. -/
theorem jumps_appliedMore (plans : List (SortedPlan cfg.chainPrefix)) (h : Hook)
    (hpos : h ∈ cfg.hooks → 1 ≤ ly.jumps h) :
    (plans.foldl (Layout.applied cfg) ly).jumps h = ly.jumps h + plans.countP fun plan => h ∈ plan.hooks := by
  induction plans generalizing ly with
  | nil => rfl
  | cons plan plans ih =>
    have hstep : (ly.applied cfg plan).jumps h = ly.jumps h + if h ∈ plan.hooks then 1 else 0 := by
      rw [jumps_applied]
      by_cases hh : h ∈ cfg.hooks
      · rw [if_pos hh, max_eq_right (hpos hh)]
      · rw [if_neg hh]
    rw [List.foldl_cons, ih fun hh => hstep ▸ Nat.le_add_right_of_le (hpos hh), hstep, List.countP_cons]
    simp only [decide_eq_true_eq]
    omega

/-- The jumps to a chain: one for the configuration, and one for each plan with the hook. -/
theorem jumps_appliedAll {plans : List (SortedPlan cfg.chainPrefix)} (hsome : plans ≠ []) (h : Hook) :
    (plans.foldl (Layout.applied cfg) {}).jumps h =
      (if h ∈ cfg.hooks then 1 else 0) + plans.countP fun plan => h ∈ plan.hooks := by
  obtain ⟨plan, plans, rfl⟩ := List.exists_cons_of_ne_nil hsome
  have hfirst : (Layout.applied cfg {} plan).jumps h =
      (if h ∈ cfg.hooks then 1 else 0) + if h ∈ plan.hooks then 1 else 0 := by
    rw [jumps_applied]
    rfl
  have hpos : h ∈ cfg.hooks → 1 ≤ (Layout.applied cfg {} plan).jumps h := fun hh => by
    rw [hfirst, if_pos hh]
    omega
  rw [List.foldl_cons, jumps_appliedMore plans h hpos, hfirst, List.countP_cons]
  simp only [decide_eq_true_eq]
  omega

/-- At most one jump to a chain, and no rules in it. -/
def Layout.Bare (ly : Layout) : Prop := ∀ h, ly.jumps h ≤ 1 ∧ ∀ rules, ly.chains h = some rules → rules = []

def Layout.removed (ly : Layout) (h : Hook) : Layout := (ly.setJumps h 0).setChain h none

theorem Layout.Bare.removed (hbare : ly.Bare) (h : Hook) : (ly.removed h).Bare := fun h' => by
  simp only [Layout.removed, Layout.setJumps, Layout.setChain, Function.update_apply]
  split_ifs
  · exact ⟨Nat.zero_le 1, fun _ hnone => nomatch hnone⟩
  · exact hbare h'

theorem removeChain_laidOut (hforeign : Foreign cfg.chainPrefix r₀) (hbare : ly.Bare)
    (hr : LaidOut cfg.chainPrefix r₀ ly r) (h : Hook) :
    LaidOut cfg.chainPrefix r₀ (ly.removed h) (cleanupChain cfg r (h.chainName cfg.chainPrefix)) := by
  have hdelete := hr.deleteRule hforeign (h := h)
  have hzero : ly.jumps h - 1 = 0 := Nat.sub_eq_zero_of_le (hbare h).1
  rw [hzero] at hdelete
  simp only [cleanupChain, Hook.hookForChain_chainName]
  generalize (r.deleteRule h.builtin (jumpTo (h.chainName cfg.chainPrefix))).getD r = r₁ at hdelete ⊢
  cases hchain : ly.chains h with
  | none =>
    have hlookup : r₁.lookup (h.chainName cfg.chainPrefix) = none := (hdelete.chain h).trans hchain
    have hsame : ly.removed h = ly.setJumps h 0 := by
      rw [Layout.removed, Layout.setChain, ← hchain]
      exact congrArg (Layout.mk _) (Function.update_eq_self h ly.chains)
    rw [Ruleset.flush, hlookup, Option.map_none, Option.getD_none, Ruleset.deleteChain, hlookup, hsame]
    exact hdelete
  | some rules =>
    have hflush := hdelete.insertChain (h := h) []
    rw [hdelete.flush (h := h) (by rw [Layout.setJumps, hchain]; rfl), Option.getD_some]
    have hempty : ((ly.setJumps h 0).setChain h (some [])).chains h = some [] := Function.update_self ..
    have hremove := hflush.deleteChain hforeign hempty (Function.update_self ..) fun h' rules hrules => by
      have hnil : rules = [] := by
        simp only [Layout.setJumps, Layout.setChain, Function.update_apply] at hrules
        split_ifs at hrules
        · exact (Option.some.inj hrules).symm
        · exact (hbare h').2 rules hrules
      simp [hnil]
    have hsame : ((ly.setJumps h 0).setChain h (some [])).setChain h none = ly.removed h := by
      simp only [Layout.removed, Layout.setChain, Function.update_idem]
    exact hsame ▸ hremove

theorem cleanup_removed (hlive : cfg.dryRun = false) (hforeign : Foreign cfg.chainPrefix r₀) (hbare : ly.Bare)
    (hr : LaidOut cfg.chainPrefix r₀ ly r) :
    LaidOut cfg.chainPrefix r₀ (cfg.hooks.foldl Layout.removed ly) (cleanup cfg r) := by
  rw [cleanup, hlive, if_neg (by decide), kernloomChains_eq]
  generalize cfg.hooks = hooks
  induction hooks generalizing ly r with
  | nil => exact hr
  | cons h hooks ih => exact ih (hbare.removed h) (removeChain_laidOut hforeign hbare hr h)

theorem foldl_removed (hooks : List Hook) (ly : Layout) : hooks.foldl Layout.removed ly =
    ⟨fun h => if h ∈ hooks then 0 else ly.jumps h, fun h => if h ∈ hooks then none else ly.chains h⟩ := by
  induction hooks generalizing ly with
  | nil => simp
  | cons h hooks ih =>
    rw [List.foldl_cons, ih]
    simp only [Layout.removed, Layout.setJumps, Layout.setChain, Function.update_apply, List.mem_cons,
      Layout.mk.injEq]
    constructor <;> funext h' <;> by_cases hmem : h' ∈ hooks <;> by_cases hh : h' = h <;> simp [hmem, hh]

/-- Plans without chains leave the chains of the configuration empty. -/
theorem chains_appliedAll {plans : List (SortedPlan cfg.chainPrefix)}
    (hnone : ∀ plan ∈ plans, plan.hooks = [])
    (hly : ∀ h, ly.chains h = none ∨ h ∈ cfg.hooks ∧ ly.chains h = some []) (h : Hook) :
    (plans.foldl (Layout.applied cfg) ly).chains h = none ∨
      h ∈ cfg.hooks ∧ (plans.foldl (Layout.applied cfg) ly).chains h = some [] := by
  refine List.foldlRecOn (motive := fun ly : Layout => ∀ h, ly.chains h = none ∨
    h ∈ cfg.hooks ∧ ly.chains h = some []) plans _ hly (fun ly hly plan hplan h => ?_) h
  have hstep : (ly.applied cfg plan).chains h =
      if h ∈ cfg.hooks then some ((ly.chains h).getD []) else ly.chains h := by
    simp only [Layout.applied, Layout.restored, hnone plan hplan, List.not_mem_nil, if_false,
      Layout.ensuredAll]
  rw [hstep]
  rcases hly h with hchain | ⟨hh, hchain⟩
  · by_cases hh : h ∈ cfg.hooks
    · exact .inr ⟨hh, by rw [if_pos hh, hchain]; rfl⟩
    · exact .inl (by rw [if_neg hh, hchain])
  · exact .inr ⟨hh, by rw [if_pos hh, hchain]; rfl⟩

theorem contents_nil {plan : SortedPlan cfg.chainPrefix} (hnone : plan.hooks = []) (h : Hook) :
    plan.contents cfg h = [] := by
  have hrules : plan.sorted.rules = [] := List.eq_nil_iff_forall_not_mem.mpr fun rule hrule => by
    obtain ⟨h, hh, -⟩ := plan.rules_in rule (plan.sorted.perm.mem_iff.mp hrule)
    simp [hnone] at hh
  rw [SortedPlan.contents, hrules]
  rfl

theorem apply_dryRun (hdry : cfg.dryRun = true) (plans : List (SortedPlan cfg.chainPrefix)) (r : Ruleset) :
    plans.foldlM (SortedPlan.apply cfg) r = some r := by
  induction plans with
  | nil => rfl
  | cons plan plans ih =>
    have hstep : plan.apply cfg r = some r := by
      rw [SortedPlan.apply, applyPlan, ensureChains, hdry]
      rfl
    rw [List.foldlM_cons, hstep]
    exact ih

variable (hforeign : Foreign cfg.chainPrefix r₀) (steps : List (SortedPlan cfg.chainPrefix))
  (last : SortedPlan cfg.chainPrefix)

include hforeign

theorem hooks_of_undone (hlive : cfg.dryRun = false) (plans : List (SortedPlan cfg.chainPrefix))
    (hsome : plans ≠ []) (happly : plans.foldlM (SortedPlan.apply cfg) r₀ = some r)
    (hundone : Undone cfg r₀ r) : ∀ plan ∈ plans, plan.hooks = [] := by
  obtain ⟨r', happly', hr⟩ := applyAll_laidOut hlive hforeign plans (.start hforeign)
  obtain rfl : r' = r := Option.some.inj (happly'.symm.trans happly)
  obtain ⟨chains, hcleanup⟩ := cleanup_laidOut hlive hforeign hr
  refine fun plan hplan => List.eq_nil_iff_forall_not_mem.mpr fun h hh => ?_
  have hzero := hcleanup.jumps_eq_zero hforeign hundone h
  simp only [jumps_appliedAll hsome] at hzero
  have hcount : 0 < plans.countP fun plan => decide (h ∈ plan.hooks) :=
    List.countP_pos_iff.mpr ⟨plan, hplan, decide_eq_true hh⟩
  by_cases hmem : h ∈ cfg.hooks
  · rw [if_pos hmem, if_pos hmem] at hzero
    omega
  · rw [if_neg hmem, if_neg hmem] at hzero
    omega

theorem undone_of_hooks (hlive : cfg.dryRun = false)
    (hnone : ∀ plan ∈ steps ++ [last], plan.hooks = []) :
    ∃ r, (steps ++ [last]).foldlM (SortedPlan.apply cfg) r₀ = some r ∧
      AsPlanned cfg last r ∧ Undone cfg r₀ r := by
  obtain ⟨r, happly, hr⟩ := applyAll_laidOut hlive hforeign (steps ++ [last]) (.start hforeign)
  have hlast : last.hooks = [] := hnone last (by simp)
  have hchains : ∀ h, ((steps ++ [last]).foldl (Layout.applied cfg) {}).chains h = none ∨
      h ∈ cfg.hooks ∧ ((steps ++ [last]).foldl (Layout.applied cfg) {}).chains h = some [] :=
    chains_appliedAll hnone fun _ => .inl rfl
  have hjumps : ∀ h, ((steps ++ [last]).foldl (Layout.applied cfg) {}).jumps h =
      if h ∈ cfg.hooks then 1 else 0 := by
    intro h
    have hcount : (steps ++ [last]).countP (fun plan => h ∈ plan.hooks) = 0 :=
      List.countP_eq_zero.mpr fun plan hplan => by simp [hnone plan hplan]
    rw [jumps_appliedAll (by simp), hcount, Nat.add_zero]
  generalize (steps ++ [last]).foldl (Layout.applied cfg) {} = ly at hr hchains hjumps
  refine ⟨r, happly, ⟨by simp [hlast], fun h => ?_⟩, ?_⟩
  · rw [contents_nil hlast, hr.chain]
    rcases hchains h with hchain | ⟨-, hchain⟩ <;> rw [hchain] <;> rfl
  · have hbare : ly.Bare := fun h => by
      refine ⟨by rw [hjumps]; split_ifs <;> omega, fun rules hrules => ?_⟩
      rcases hchains h with hchain | ⟨-, hchain⟩ <;> rw [hchain] at hrules
      · cases hrules
      · exact (Option.some.inj hrules).symm
    have hcleanup := cleanup_removed hlive hforeign hbare hr
    rw [foldl_removed] at hcleanup
    refine hcleanup.lookup_eq hforeign (fun h => ?_) fun h => ?_
    · by_cases hh : h ∈ cfg.hooks
      · exact if_pos hh
      · simp only [hjumps, if_neg hh]
    · rcases hchains h with hchain | ⟨hh, -⟩
      · simp only [hchain, ite_self]
      · exact if_pos hh

/-- Every plan puts one more jump on each of its hooks, and a cleanup takes one off. -/
theorem applied_and_undone_iff :
    (∃ r, (steps ++ [last]).foldlM (SortedPlan.apply cfg) r₀ = some r ∧
        AsPlanned cfg last r ∧ Undone cfg r₀ r) ↔
      last.hooks = [] ∧ (cfg.dryRun = false → ∀ plan ∈ steps, plan.hooks = []) := by
  cases hdry : cfg.dryRun with
  | true =>
    simp only [apply_dryRun hdry, Option.some.injEq, exists_eq_left', Bool.true_eq_false, false_implies,
      and_true]
    constructor
    · rintro ⟨hplanned, -⟩
      refine List.eq_nil_iff_forall_not_mem.mpr fun h hh => ?_
      obtain ⟨rules, hrules, hcount⟩ := hplanned.jump h hh
      obtain ⟨rules', hrules', hnotin⟩ := hforeign.hook h
      rw [hrules', Option.some.injEq] at hrules
      rw [← hrules, List.count_eq_zero.mpr hnotin] at hcount
      exact absurd hcount (by decide)
    · intro hlast
      have hcleanup : cleanup cfg r₀ = r₀ := by
        rw [cleanup, hdry]
        rfl
      refine ⟨⟨by simp [hlast], fun h => ?_⟩, fun c => congrArg (AList.lookup c) hcleanup⟩
      rw [hforeign.chain, contents_nil hlast]
      rfl
  | false =>
    simp only [true_implies]
    constructor
    · rintro ⟨r, happly, -, hundone⟩
      have hnone := hooks_of_undone hforeign hdry _ (by simp) happly hundone
      exact ⟨hnone last (by simp), fun plan hplan => hnone plan (List.mem_append_left _ hplan)⟩
    · rintro ⟨hlast, hsteps⟩
      refine undone_of_hooks hforeign steps last hdry fun plan hplan => ?_
      rcases List.mem_append.mp hplan with hplan | hplan
      · exact hsteps plan hplan
      · rwa [List.mem_singleton.mp hplan]

omit hforeign

/-- The built-in chains without rules. -/
def builtinTable : Ruleset := ((AList.singleton "INPUT" []).insert "FORWARD" []).insert "OUTPUT" []

theorem builtinTable_foreign : Foreign (Config.chainPrefix {}) builtinTable where
  builtin h := by cases h <;> decide +kernel
  chain h := by cases h <;> decide +kernel
  jump entry hentry rule hrule := by
    have hempty : ∀ entry ∈ builtinTable.entries, entry.2 = [] := by decide +kernel
    simp [hempty entry hentry] at hrule

/-- A plan without rules for the chains of some hooks. -/
def emptyPlan (hooks : List Hook) (hnodup : hooks.Nodup) : SortedPlan (Config.chainPrefix {}) where
  tableName := "kernloom"
  chains := hooks.map (·.plan "KERNLOOM")
  rules := []
  hooks := hooks
  nodup := hnodup
  chains_eq := rfl
  rules_in _ hrule := nomatch hrule
  sorted := ⟨[], .refl _, .nil⟩

theorem chainless_undone :
    ∃ r, ([] ++ [emptyPlan [] .nil]).foldlM (SortedPlan.apply {}) builtinTable = some r ∧
      AsPlanned {} (emptyPlan [] .nil) r ∧ Undone {} builtinTable r :=
  (applied_and_undone_iff builtinTable_foreign [] (emptyPlan [] .nil)).mpr
    ⟨rfl, fun _ _ hplan => nomatch hplan⟩

/-- The chain of a first plan is jumped to twice. -/
theorem first_plan_left : ¬ ∀ (cfg : Config) (r₀ : Ruleset) (steps : List (SortedPlan cfg.chainPrefix))
    (last : SortedPlan cfg.chainPrefix), Foreign cfg.chainPrefix r₀ →
      ∃ r, (steps ++ [last]).foldlM (SortedPlan.apply cfg) r₀ = some r ∧
        AsPlanned cfg last r ∧ Undone cfg r₀ r := by
  intro hall
  obtain ⟨r, happly, -, hundone⟩ :=
    hall {} builtinTable [] (emptyPlan [.input] (List.nodup_singleton _)) builtinTable_foreign
  have hnone := hooks_of_undone builtinTable_foreign rfl _ (by simp) happly hundone
  exact absurd (hnone _ (List.mem_singleton_self _)) (by decide)

end Runs

end Netfilter

end Kernloom
