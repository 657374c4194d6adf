import Kernloom.Netfilter
import Kernloom.Transition

/-! The netfilter adapter under threads: transitions, which hold the lock until the backend has answered,
and collections, which give their plan to the backend after they released it. -/

namespace Kernloom

namespace Netfilter

open Transition

section Threads

inductive Operation where
  | transition (ip : String) (next : Level) (ttl : Duration)
  | collect
  deriving DecidableEq

instance : DecidableEq RuleTable := fun rules rules' =>
  decidable_of_iff (rules.entries = rules'.entries) AList.ext_iff.symm

/-- The table before an operation. The sources that are de-enforced are not in the program. -/
structure Snapshot where
  rules : RuleTable := ∅
  out : List String := []
  deriving DecidableEq

/-- Where a thread is. -/
inductive Thread where
  | idle
  | waiting (op : Operation)
  | locked (op : Operation)
  /-- A collection has its plan and still the lock. -/
  | releasing (before : Snapshot) (plan : NetfilterPlan)
  | applying (op : Operation) (before : Snapshot) (plan : NetfilterPlan)
  | failed (op : Operation) (before : Snapshot)
  /-- A collection has the lock again. -/
  | relocked (before : Snapshot)
  | done
  deriving DecidableEq

/-- The adapter with `n` threads, and the plan that the backend installed last. -/
structure World (n : ℕ) where
  current : Snapshot := {}
  installed : Option NetfilterPlan := none
  holder : Option (Fin n) := none
  threads : Fin n → Thread := fun _ => .idle

/-- What a thread does next. The order of the rules is the one in which the table is ranged over. -/
inductive Act where
  | call (op : Operation)
  | lock
  | update (now : Time) (order : List ActiveRule)
  | apply (ok : Bool)
  | restore
  | unlock

/-- The entries of the snapshot that are not in the table. -/
def RuleTable.readd (rules before : RuleTable) : RuleTable :=
  before.entries.foldl (fun rules entry =>
    if entry.1 ∈ rules then rules else rules.insert entry.1 entry.2) rules

/-- The table after the update of a transition; another level than observe puts the source back. -/
def Snapshot.transition (s : Snapshot) (ip : String) (next : Level) (ttl : Duration) (now : Time) :
    Snapshot where
  rules := s.rules.transition ip next ttl now
  out := if next = .observe then s.out else s.out.filter (· ≠ ip)

/-- A transition to observe that succeeded takes its source out. -/
def Snapshot.applied (s : Snapshot) : Operation → Snapshot
  | .transition ip .observe _ => { s with out := ip :: s.out }
  | _ => s

variable {n : ℕ} (a : Adapter)

def World.setThread (s : World n) (t : Fin n) (thread : Thread) : World n :=
  { s with threads := Function.update s.threads t thread }

def World.act (s : World n) (t : Fin n) : Act → Option (World n)
  | .call op =>
    match s.threads t with
    | .idle => some (s.setThread t (.waiting op))
    | _ => none
  | .lock =>
    if s.holder.isSome then none
    else
      match s.threads t with
      | .waiting op => some { s.setThread t (.locked op) with holder := some t }
      | .failed .collect before => some { s.setThread t (.relocked before) with holder := some t }
      | _ => none
  | .update now order =>
    match s.threads t with
    | .locked (.transition ip next ttl) =>
      let current := s.current.transition ip next ttl now
      if order.Perm current.rules.values then
        some
          { s.setThread t (.applying (.transition ip next ttl) s.current (buildPlan a order)) with current }
      else none
    | .locked .collect =>
      if s.current.rules.removed now = 0 then some (s.setThread t .done)
      else
        let current := { s.current with rules := s.current.rules.expire now }
        if order.Perm current.rules.values then
          some { s.setThread t (.releasing s.current (buildPlan a order)) with current }
        else none
    | _ => none
  | .apply true =>
    match s.threads t with
    | .applying (.transition ip next ttl) _ plan =>
      let current := s.current.applied (.transition ip next ttl)
      some { s.setThread t .done with installed := some plan, current }
    | .applying .collect _ plan => some { s.setThread t .idle with installed := some plan }
    | _ => none
  | .apply false =>
    match s.threads t with
    | .applying op before _ => some (s.setThread t (.failed op before))
    | _ => none
  | .restore =>
    match s.threads t with
    | .failed (.transition ..) before => some { s.setThread t .done with current := before }
    | .relocked before =>
      let current := { s.current with rules := s.current.rules.readd before.rules }
      some { s.setThread t .done with current }
    | _ => none
  | .unlock =>
    match s.threads t with
    | .releasing before plan => some { s.setThread t (.applying .collect before plan) with holder := none }
    | .done => some { s.setThread t .idle with holder := none }
    | _ => none

/-- The steps of the threads, in any order. -/
def World.Step (s : World n) (e : Fin n × Act) (s' : World n) : Prop := s.act a e.1 e.2 = some s'

/-- A collection that has yet to give its plan to the backend, or to take it back. -/
def Thread.collecting : Thread → Bool
  | .applying .collect .. | .failed .collect _ | .relocked _ => true
  | _ => false

/-- The act updates the table: one of a transition, or of a collection that finds expired rules. -/
def World.updates (s : World n) (t : Fin n) : Act → Bool
  | .update now _ =>
    match s.threads t with
    | .locked (.transition ..) => true
    | .locked .collect => s.current.rules.removed now ≠ 0
    | _ => false
  | _ => false

/-- No thread updates the table under a collection. -/
def World.Undisturbed (s : World n) (e : Fin n × Act) : Prop :=
  s.updates e.1 e.2 = true → ∀ t, (s.threads t).collecting = false

end Threads

section Tables

variable {a : Adapter} {rules rules' : RuleTable}

theorem lookup_readd (before : RuleTable) (ip : String) :
    (rules.readd before).lookup ip = (rules.lookup ip).or (before.lookup ip) := by
  have hall : ∀ (entries : List (Sigma fun _ : String => ActiveRule)), entries.NodupKeys →
      ∀ rules : RuleTable, (entries.foldl (fun rules entry =>
          if entry.1 ∈ rules then rules else rules.insert entry.1 entry.2) rules).lookup ip =
        (rules.lookup ip).or (entries.dlookup ip) := by
    intro entries hnodup
    induction entries with
    | nil => exact fun rules => by simp
    | cons entry entries ih =>
      obtain ⟨k, rule⟩ := entry
      obtain ⟨hnotin, hnodup⟩ := List.nodupKeys_cons.mp hnodup
      intro rules
      rw [List.foldl_cons, ih hnodup]
      by_cases hk : k = ip
      · subst hk
        rw [List.dlookup_cons_eq, List.dlookup_eq_none.mpr hnotin, Option.or_none]
        by_cases hmem : k ∈ rules
        · obtain ⟨found, hfound⟩ := Option.isSome_iff_exists.mp (AList.lookup_isSome.mpr hmem)
          rw [if_pos hmem, hfound, Option.some_or]
        · rw [if_neg hmem, AList.lookup_insert, AList.lookup_eq_none.mpr hmem, Option.none_or]
      · have hskip := List.dlookup_cons_ne entries (⟨k, rule⟩ : Sigma fun _ : String => ActiveRule)
          (Ne.symm hk)
        rw [hskip]
        split_ifs
        · rfl
        · rw [AList.lookup_insert_ne (Ne.symm hk)]
  exact hall before.entries before.nodupKeys rules

theorem buildPlan_of_lookup (h : ∀ ip, rules.lookup ip = rules'.lookup ip) :
    SamePlan (buildPlan a rules.values) (buildPlan a rules'.values) := by
  refine buildPlan_perm (List.Perm.map _ ?_)
  exact List.lookup_ext rules.nodupKeys rules'.nodupKeys fun ip rule => by
    rw [show rules.entries.dlookup ip = rules'.entries.dlookup ip from h ip]

end Tables

section Invariant

/-- The backend installed the plan of a table last. -/
def InSync (a : Adapter) (installed : Option NetfilterPlan) (rules : RuleTable) : Prop :=
  ∀ plan, installed = some plan → SamePlan plan (buildPlan a rules.values)

/-- The sources that are out have no rule. -/
def Snapshot.Out (s : Snapshot) : Prop := ∀ ip ∈ s.out, s.rules.lookup ip = none

/-- The table is one from before a collection, less some rules. -/
structure Collected (before current : Snapshot) : Prop where
  out : current.out = before.out
  rules : ∀ ip rule, current.rules.lookup ip = some rule → before.rules.lookup ip = some rule

def Thread.holds : Thread → Bool
  | .locked _ | .releasing .. | .relocked _ | .done => true
  | .applying (.transition ..) .. | .failed (.transition ..) _ => true
  | _ => false

/-- The table that the backend has the plan of while an operation is between its update and its end. -/
def Thread.before : Thread → Option Snapshot
  | .releasing before _ | .applying _ before _ | .failed _ before | .relocked before => some before
  | _ => none

/-- An operation between its update and its end holds the lock or collects. -/
theorem Thread.before_eq_none {thread : Thread} (hholds : thread.holds = false)
    (hfree : thread.collecting = false) : thread.before = none := by
  cases thread with
  | idle | waiting | locked | done => rfl
  | releasing => cases hholds
  | relocked => cases hfree
  | applying op | failed op =>
    cases op with
    | transition => cases hholds
    | collect => cases hfree

/-- What such an operation knows of the table. -/
def Thread.Fits (a : Adapter) (current : Snapshot) : Thread → Prop
  | .releasing before plan | .applying .collect before plan =>
    SamePlan plan (buildPlan a current.rules.values) ∧ Collected before current
  | .applying (.transition ip next _) _ plan =>
    SamePlan plan (buildPlan a current.rules.values) ∧ (next = .observe → current.rules.lookup ip = none)
  | .failed .collect before | .relocked before => Collected before current
  | _ => True

/-- No operation is between its update and its end, or one is. -/
inductive Phase {n : ℕ} (a : Adapter) (threads : Fin n → Thread) (current : Snapshot)
    (installed : Option NetfilterPlan) : Prop
  | quiet (hnone : ∀ t, (threads t).before = none) (hsync : InSync a installed current.rules)
  | pending (t : Fin n) (before : Snapshot) (hbefore : (threads t).before = some before)
      (hothers : ∀ t' ≠ t, (threads t').before = none) (hsync : InSync a installed before.rules)
      (hout : before.Out) (hfits : (threads t).Fits a current)

variable {n : ℕ} {a : Adapter} {threads : Fin n → Thread} {current current' before : Snapshot}
  {installed installed' : Option NetfilterPlan} {t : Fin n} {thread : Thread}

/-- A step outside of the operations that are between their update and their end. -/
theorem Phase.keep (h : Phase a threads current installed) (hold : (threads t).before = none)
    (hnew : thread.before = none) : Phase a (Function.update threads t thread) current installed := by
  have hnone : ∀ {t'}, (threads t').before = none → (Function.update threads t thread t').before = none := by
    intro t' hnone
    by_cases ht : t' = t
    · rwa [ht, Function.update_self]
    · rwa [Function.update_of_ne ht]
  cases h with
  | quiet hall hsync => exact .quiet (fun t' => hnone (hall t')) hsync
  | pending t' before hbefore hothers hsync hout hfits =>
    have ht : t' ≠ t := fun ht => by
      rw [ht, hold] at hbefore
      cases hbefore
    refine .pending t' before ?_ (fun t'' ht' => hnone (hothers t'' ht')) hsync hout ?_
    · rwa [Function.update_of_ne ht]
    · rwa [Function.update_of_ne ht]

/-- What the phase says of an operation between its update and its end. -/
theorem Phase.of_pending (h : Phase a threads current installed) (hold : (threads t).before = some before) :
    (∀ t' ≠ t, (threads t').before = none) ∧ InSync a installed before.rules ∧ before.Out ∧
      (threads t).Fits a current := by
  cases h with
  | quiet hall _ =>
    rw [hall t] at hold
    cases hold
  | pending t' before' hbefore hothers hsync hout hfits =>
    by_cases ht : t = t'
    · subst ht
      obtain rfl : before' = before := Option.some.inj (hbefore.symm.trans hold)
      exact ⟨hothers, hsync, hout, hfits⟩
    · rw [hothers t ht] at hold
      cases hold

theorem Phase.within (h : Phase a threads current installed) (hold : (threads t).before = some before)
    (hnew : thread.before = some before) (hfits : (threads t).Fits a current → thread.Fits a current) :
    Phase a (Function.update threads t thread) current installed := by
  obtain ⟨hothers, hsync, hout, hfit⟩ := h.of_pending hold
  refine .pending t before ?_ (fun t' ht => ?_) hsync hout ?_
  · rwa [Function.update_self]
  · rw [Function.update_of_ne ht]
    exact hothers t' ht
  · rw [Function.update_self]
    exact hfits hfit

theorem Phase.begin (h : Phase a threads current installed) (hnone : ∀ t, (threads t).before = none)
    (hout : current.Out) (hnew : thread.before = some current) (hfits : thread.Fits a current') :
    Phase a (Function.update threads t thread) current' installed := by
  have hsync : InSync a installed current.rules := by
    cases h with
    | quiet _ hsync => exact hsync
    | pending t' before hbefore =>
      rw [hnone t'] at hbefore
      cases hbefore
  refine .pending t current ?_ (fun t' ht => ?_) hsync hout ?_
  · rwa [Function.update_self]
  · rw [Function.update_of_ne ht]
    exact hnone t'
  · rwa [Function.update_self]

theorem Phase.finish (h : Phase a threads current installed) (hold : (threads t).before = some before)
    (hnew : thread.before = none) (hsync : InSync a installed' current'.rules) :
    Phase a (Function.update threads t thread) current' installed' := by
  obtain ⟨hothers, -, -, -⟩ := h.of_pending hold
  refine .quiet (fun t' => ?_) hsync
  by_cases ht : t' = t
  · rwa [ht, Function.update_self]
  · rw [Function.update_of_ne ht]
    exact hothers t' ht

/-- The threads that hold the lock are its holder, and the table and the backend are in phase. -/
structure Settled (a : Adapter) (s : World n) : Prop where
  holder : ∀ t, (s.threads t).holds = true → s.holder = some t
  out : s.current.Out
  phase : Phase a s.threads s.current s.installed

variable {s s' : World n}

theorem Settled.holder_update (h : Settled a s) (hnew : thread.holds = true → (s.threads t).holds = true) :
    ∀ t', (Function.update s.threads t thread t').holds = true → s.holder = some t' := by
  intro t' hholds
  by_cases ht : t' = t
  · subst ht
    rw [Function.update_self] at hholds
    exact h.holder t' (hnew hholds)
  · rw [Function.update_of_ne ht] at hholds
    exact h.holder t' hholds

theorem Settled.holder_lock (h : Settled a s) (hfree : s.holder.isSome = false) :
    ∀ t', (Function.update s.threads t thread t').holds = true → some t = some t' := by
  intro t' hholds
  by_cases ht : t' = t
  · rw [ht]
  · rw [Function.update_of_ne ht] at hholds
    rw [h.holder t' hholds] at hfree
    cases hfree

theorem Settled.holder_unlock (h : Settled a s) (hold : (s.threads t).holds = true)
    (hnew : thread.holds = false) :
    ∀ t', (Function.update s.threads t thread t').holds = true → none = some t' := by
  intro t' hholds
  by_cases ht : t' = t
  · rw [ht, Function.update_self, hnew] at hholds
    cases hholds
  · rw [Function.update_of_ne ht] at hholds
    exact absurd (Option.some.inj ((h.holder t' hholds).symm.trans (h.holder t hold))) ht

theorem Settled.before_eq_none (h : Settled a s) (hlocked : (s.threads t).holds = true)
    (hself : (s.threads t).before = none) (hcollecting : ∀ t, (s.threads t).collecting = false) :
    ∀ t, (s.threads t).before = none := by
  intro t'
  by_cases ht : t' = t
  · rwa [ht]
  · have hholds : (s.threads t').holds = false := by
      by_contra hholds
      rw [Bool.not_eq_false] at hholds
      exact ht (Option.some.inj ((h.holder t' hholds).symm.trans (h.holder t hlocked)))
    exact Thread.before_eq_none hholds (hcollecting t')

theorem Snapshot.Out.transition (h : current.Out) (ip : String) (next : Level) (ttl : Duration) (now : Time) :
    (current.transition ip next ttl now).Out := by
  have hother : ∀ ip' ≠ ip, ip' ∈ current.out →
      (current.transition ip next ttl now).rules.lookup ip' = none := by
    intro ip' hne hip
    have hlookup := h ip' hip
    cases next with
    | observe => exact (AList.lookup_erase_ne hne).trans hlookup
    | soft | hard | block => exact (AList.lookup_insert_ne hne).trans hlookup
  intro ip' hip
  by_cases hnext : next = .observe
  · subst hnext
    by_cases hne : ip' = ip
    · subst hne
      exact AList.lookup_erase ..
    · exact hother ip' hne hip
  · simp only [Snapshot.transition, if_neg hnext, List.mem_filter, decide_eq_true_eq] at hip
    exact hother ip' hip.2 hip.1

theorem Collected.expire (current : Snapshot) (now : Time) :
    Collected current { current with rules := current.rules.expire now } where
  out := rfl
  rules ip rule hrule := by
    rw [lookup_expire] at hrule
    exact (Option.filter_eq_some_iff.mp hrule).1

theorem Collected.out_current (h : Collected before current) (hout : before.Out) : current.Out := by
  intro ip hip
  cases hrule : current.rules.lookup ip with
  | none => rfl
  | some rule =>
    have hbefore := h.rules ip rule hrule
    rw [hout ip (h.out ▸ hip)] at hbefore
    cases hbefore

theorem Collected.readd (h : Collected before current) (ip : String) :
    (current.rules.readd before.rules).lookup ip = before.rules.lookup ip := by
  rw [lookup_readd]
  cases hrule : current.rules.lookup ip with
  | none => rfl
  | some rule => rw [h.rules ip rule hrule, Option.some_or]

theorem InSync.trans_lookup {rules rules' : RuleTable} (h : InSync a installed rules)
    (hrules : ∀ ip, rules.lookup ip = rules'.lookup ip) : InSync a installed rules' :=
  fun plan hplan => (h plan hplan).trans (buildPlan_of_lookup hrules)

theorem inSync_of_same {plan : NetfilterPlan} {rules : RuleTable}
    (h : SamePlan plan (buildPlan a rules.values)) : InSync a (some plan) rules :=
  fun _ hplan => Option.some.inj hplan ▸ h

theorem Settled.step (h : Settled a s) {e : Fin n × Act} (hguard : s.Undisturbed e) (hstep : s.Step a e s') :
    Settled a s' := by
  obtain ⟨t, act⟩ := e
  unfold World.Step at hstep
  cases act with
  | call op =>
    simp only [World.act] at hstep
    split at hstep
    · next hidle =>
      cases hstep
      exact ⟨h.holder_update (fun hnew => nomatch hnew), h.out,
        h.phase.keep (congrArg Thread.before hidle) rfl⟩
    · cases hstep
  | lock =>
    simp only [World.act] at hstep
    split_ifs at hstep with hfree
    rw [Bool.not_eq_true] at hfree
    split at hstep
    · next op hwaiting =>
      cases hstep
      exact ⟨h.holder_lock hfree, h.out, h.phase.keep (congrArg Thread.before hwaiting) rfl⟩
    · next before hfailed =>
      cases hstep
      refine ⟨h.holder_lock hfree, h.out, h.phase.within (congrArg Thread.before hfailed) rfl fun hfits => ?_⟩
      rwa [hfailed] at hfits
    · cases hstep
  | update now order =>
    simp only [World.act] at hstep
    split at hstep
    · next ip next ttl hlocked =>
      split_ifs at hstep with horder
      cases hstep
      have hupdates : s.updates t (.update now order) = true := by simp only [World.updates, hlocked]
      have hnone := h.before_eq_none (congrArg Thread.holds hlocked) (congrArg Thread.before hlocked)
        (hguard hupdates)
      refine ⟨h.holder_update fun _ => congrArg Thread.holds hlocked, h.out.transition _ _ _ _,
        h.phase.begin hnone h.out rfl ?_⟩
      refine ⟨buildPlan_perm horder, fun hobserve => ?_⟩
      simp only [Snapshot.transition, RuleTable.transition, hobserve, AList.lookup_erase]
    · next hlocked =>
      split_ifs at hstep with hremoved horder
      · cases hstep
        exact ⟨h.holder_update fun _ => congrArg Thread.holds hlocked, h.out,
          h.phase.keep (congrArg Thread.before hlocked) rfl⟩
      · cases hstep
        have hupdates : s.updates t (.update now order) = true := by
          simp only [World.updates, hlocked, decide_eq_true_eq]
          exact hremoved
        have hnone := h.before_eq_none (congrArg Thread.holds hlocked) (congrArg Thread.before hlocked)
          (hguard hupdates)
        have hcollected := Collected.expire s.current now
        exact ⟨h.holder_update fun _ => congrArg Thread.holds hlocked, hcollected.out_current h.out,
          h.phase.begin hnone h.out rfl ⟨buildPlan_perm horder, hcollected⟩⟩
    · cases hstep
  | apply ok =>
    cases ok with
    | true =>
      simp only [World.act] at hstep
      split at hstep
      · next ip next ttl before plan happlying =>
        cases hstep
        obtain ⟨-, -, -, hfits⟩ := h.phase.of_pending (t := t) (congrArg Thread.before happlying)
        rw [happlying] at hfits
        refine ⟨h.holder_update fun _ => congrArg Thread.holds happlying, ?_,
          h.phase.finish (congrArg Thread.before happlying) rfl ?_⟩
        · intro ip' hip
          cases next with
          | observe =>
            rcases List.mem_cons.mp hip with rfl | hip
            · exact hfits.2 rfl
            · exact h.out ip' hip
          | soft | hard | block => exact h.out ip' hip
        · have hrules : (s.current.applied (.transition ip next ttl)).rules = s.current.rules := by
            cases next <;> rfl
          exact hrules ▸ inSync_of_same hfits.1
      · next before plan happlying =>
        cases hstep
        obtain ⟨-, -, -, hfits⟩ := h.phase.of_pending (t := t) (congrArg Thread.before happlying)
        rw [happlying] at hfits
        exact ⟨h.holder_update (fun hnew => nomatch hnew), h.out,
          h.phase.finish (congrArg Thread.before happlying) rfl (inSync_of_same hfits.1)⟩
      · cases hstep
    | false =>
      simp only [World.act] at hstep
      split at hstep
      · next op before plan happlying =>
        cases hstep
        refine ⟨h.holder_update fun hnew => ?_, h.out,
          h.phase.within (congrArg Thread.before happlying) rfl fun hfits => ?_⟩
        · rw [happlying]
          cases op <;> exact hnew
        · rw [happlying] at hfits
          cases op with
          | transition => trivial
          | collect => exact hfits.2
      · cases hstep
  | restore =>
    simp only [World.act] at hstep
    split at hstep
    · next ip next ttl before hfailed =>
      cases hstep
      obtain ⟨-, hsync, hout, -⟩ := h.phase.of_pending (t := t) (congrArg Thread.before hfailed)
      exact ⟨h.holder_update fun _ => congrArg Thread.holds hfailed, hout,
        h.phase.finish (congrArg Thread.before hfailed) rfl hsync⟩
    · next before hrelocked =>
      cases hstep
      obtain ⟨-, hsync, hout, hfits⟩ := h.phase.of_pending (t := t) (congrArg Thread.before hrelocked)
      rw [hrelocked] at hfits
      refine ⟨h.holder_update fun _ => congrArg Thread.holds hrelocked, fun ip hip => ?_,
        h.phase.finish (congrArg Thread.before hrelocked) rfl ?_⟩
      · exact (hfits.readd ip).trans (hout ip (hfits.out ▸ hip))
      · exact hsync.trans_lookup fun ip => (hfits.readd ip).symm
    · cases hstep
  | unlock =>
    simp only [World.act] at hstep
    split at hstep
    · next before plan hreleasing =>
      cases hstep
      exact ⟨h.holder_unlock (congrArg Thread.holds hreleasing) rfl, h.out,
        h.phase.within (congrArg Thread.before hreleasing) rfl fun hfits => by rwa [hreleasing] at hfits⟩
    · next hdone =>
      cases hstep
      exact ⟨h.holder_unlock (congrArg Thread.holds hdone) rfl, h.out,
        h.phase.keep (congrArg Thread.before hdone) rfl⟩
    · cases hstep

theorem Settled.start (n : ℕ) (a : Adapter) : Settled a ({} : World n) where
  holder _ hholds := nomatch hholds
  out _ hip := nomatch hip
  phase := .quiet (fun _ => rfl) fun _ hplan => nomatch hplan

theorem Settled.run {es : List (Fin n × Act)} (hrun : Run (Guarded World.Undisturbed (World.Step a)) s es s')
    (h : Settled a s) : Settled a s' :=
  hrun.invariant h fun hs hstep => hs.step hstep.1 hstep.2

end Invariant

section Runs

variable {n : ℕ} {a : Adapter} {s : World n} {es : List (Fin n × Act)}

/-- Under undisturbed collections the backend has the plan of the table whenever no operation is in progress,
and the sources that were de-enforced stay out. -/
theorem table_installed (hrun : Run (Guarded World.Undisturbed (World.Step a)) {} es s) :
    ((∀ t, s.threads t = .idle) → InSync a s.installed s.current.rules) ∧ s.current.Out := by
  have hsettled := (Settled.start n a).run hrun
  refine ⟨fun hidle => ?_, hsettled.out⟩
  cases hsettled.phase with
  | quiet _ hsync => exact hsync
  | pending t _ hbefore =>
    rw [hidle t] at hbefore
    cases hbefore

def inputAdapter : Adapter :=
  ⟨{}, { selected := .iptablesNFT, hasLimit := true }, fun _ => "0123456789abcdef"⟩

def World.runs (a : Adapter) (s : World n) (es : List (Fin n × Act)) : Option (World n) :=
  es.foldlM (fun s e => s.act a e.1 e.2) s

def softRule : ActiveRule := ⟨"192.0.2.7", .soft, 2⟩

def blockRule : ActiveRule := ⟨"192.0.2.8", .block, 0⟩

def softActs : List (Fin 2 × Act) :=
  [(0, .call (.transition "192.0.2.7" .soft 1)), (0, .lock), (0, .update 1 [softRule]), (0, .apply true),
    (0, .unlock)]

/-- A collection up to its plan. -/
def collectActs : List (Fin 2 × Act) := [(1, .call .collect), (1, .lock), (1, .update 5 []), (1, .unlock)]

def blockActs : List (Fin 2 × Act) :=
  [(0, .call (.transition "192.0.2.8" .block 0)), (0, .lock), (0, .update 6 [blockRule]), (0, .apply true),
    (0, .unlock)]

instance (s : World n) (e : Fin n × Act) : Decidable (s.Undisturbed e) :=
  inferInstanceAs (Decidable (s.updates e.1 e.2 = true → ∀ t, (s.threads t).collecting = false))

/-- The same acts when each meets the condition. -/
def World.undisturbedRuns (a : Adapter) (s : World n) (es : List (Fin n × Act)) : Option (World n) :=
  es.foldlM (fun s e => if s.Undisturbed e then s.act a e.1 e.2 else none) s

def collected : World 2 :=
  (World.undisturbedRuns inputAdapter {} (softActs ++ collectActs ++ [(1, .apply true)] ++ blockActs)).get
    (by decide +kernel)

theorem collected_installed : ((∀ t, collected.threads t = .idle) →
    InSync inputAdapter collected.installed collected.current.rules) ∧ collected.current.Out :=
  table_installed (guarded_of_foldlM (Option.some_get _).symm)

def overtaken : World 2 :=
  (World.runs inputAdapter {} (softActs ++ collectActs ++ blockActs ++ [(1, .apply true)])).get
    (by decide +kernel)

theorem overtaken_run : Run (World.Step inputAdapter) {}
    (softActs ++ collectActs ++ blockActs ++ [(1, .apply true)]) overtaken :=
  run_of_foldlM (Option.some_get _).symm

theorem overtaken_idle : ∀ t, overtaken.threads t = .idle := by decide +kernel

theorem overtaken_plan : overtaken.installed = some (buildPlan inputAdapter []) ∧
    overtaken.current.rules.values = [blockRule] := by decide +kernel

/-- A collection that a transition overtakes takes the transition's rule away from the backend. -/
theorem transition_lost : ¬ ∀ (n : ℕ) (a : Adapter) (s : World n) (es : List (Fin n × Act)),
    Run (World.Step a) {} es s →
      ((∀ t, s.threads t = .idle) → InSync a s.installed s.current.rules) ∧ s.current.Out := by
  intro hall
  obtain ⟨hplan, hvalues⟩ := overtaken_plan
  have hsame := (hall 2 inputAdapter overtaken _ overtaken_run).1 overtaken_idle _ hplan
  rw [hvalues] at hsame
  exact absurd hsame.rules.length_eq (by decide +kernel)

end Runs

end Netfilter

end Kernloom
