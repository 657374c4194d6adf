import Kernloom.NetfilterThreads
import Kernloom.NetfilterRender
import Kernloom.IptablesBackend

/-! The limiters of the rules that the adapter plans, over the transitions, the collections and the restarts
of a run. A limiter is named by the source and the hook, not by the rate it holds the source to. -/

namespace Kernloom

namespace Netfilter

open Transition

section Texts

theorem tail_eq_of_append {x y s t : String} {k : Nat} (hs : k < s.toList.length) (ht : k < t.toList.length)
    (heq : x ++ s = y ++ t) : s.toList.reverse[k]? = t.toList.reverse[k]? := by
  have hlists := congrArg (fun text : String => text.toList.reverse[k]?) heq
  simp only [String.toList_append, List.reverse_append] at hlists
  rwa [List.getElem?_append_left (by simpa using hs), List.getElem?_append_left (by simpa using ht)] at hlists

theorem chainName_eq_iff {p p' : String} {h h' : Hook} :
    h.chainName p = h'.chainName p' ↔ p = p' ∧ h = h' := by
  refine ⟨fun heq => ?_, fun ⟨hp, hh⟩ => by rw [hp, hh]⟩
  have hlen : ∀ h : Hook, 3 < h.suffix.toList.length := fun h => by cases h <;> decide
  have hmark := tail_eq_of_append (hlen h) (hlen h') heq
  have hh : h = h' := by
    cases h <;> cases h' <;> first | rfl | exact absurd hmark (by decide)
  subst hh
  exact ⟨(String.append_left_inj _).mp heq, rfl⟩

/-- What the name of a rule is the digest of. -/
def ruleText (capability : String) (sel : Selector) (verdict : Verdict) : String :=
  adapterID ++ "|" ++ capability ++ "|" ++ sel.text ++ "|" ++ verdict.text ++ "|map[]"

theorem ruleID_eq (a : Adapter) (capability : String) (sel : Selector) (verdict : Verdict) :
    ruleID a capability sel verdict =
      String.ofList ((a.sha256 (ruleText capability sel verdict)).toList.take 12) := rfl

/-- What a selector of a source prints after the address. -/
def hookText (h : Hook) : String :=
  " " ++ joinText ["", "", "", "", "<nil>", "<nil>", h.text, "", "", ""] " " ++ "\x7d"

theorem selector_text (ip : String) (h : Hook) :
    ({ srcIP := ip, direction := h.text } : Selector).text = "\x7b" ++ ip ++ hookText h := by
  unfold Selector.text hookText joinText
  simp only [String.intercalate_cons_cons, String.append_assoc]

theorem hookText_inj {ip ip' rest : String} {h h' : Hook}
    (heq : ip ++ (hookText h ++ rest) = ip' ++ (hookText h' ++ rest)) : ip = ip' ∧ h = h' := by
  simp only [← String.append_assoc] at heq
  have hbare := (String.append_left_inj _).mp heq
  have hlen : ∀ h : Hook, 7 < (hookText h).toList.length := fun h => by cases h <;> decide +kernel
  have hmark := tail_eq_of_append (hlen h) (hlen h') hbare
  have hh : h = h' := by
    cases h <;> cases h' <;> first | rfl | exact absurd hmark (by decide +kernel)
  subst hh
  exact ⟨(String.append_left_inj _).mp hbare, rfl⟩

end Texts

section Pairs

/-- A transition that an adapter made, by what its rules depend on. -/
structure Enforced where
  adapter : Adapter
  srcIP : String
  level : Level

namespace Enforced

variable (e f : Enforced) (h h' : Hook)

def verdict : Verdict := levelToVerdict e.level e.adapter.probe

def capability : String := levelToCapability e.level

def rate : UInt64 := e.adapter.cfg.ratePPSForLevel e.level

def chainPrefix : String := e.adapter.cfg.chainPrefix

def rule : RulePlan := sourceRule e.adapter ⟨e.srcIP, e.level, 0⟩ (h.plan e.chainPrefix)

def text : String := ruleText e.capability { srcIP := e.srcIP, direction := h.text } e.verdict

/-- The digits of the digest that the limiter is named by. -/
def digits (text : String) : List Char := (e.adapter.sha256 text).toList.take 8

/-- The rates of two transitions of one source are the same, and so are the chains; where the rules drop all
packets, the capabilities are. -/
def SameLimits : Prop :=
  e.srcIP = f.srcIP →
    (e.verdict = .rateLimit → f.verdict = .rateLimit → e.chainPrefix = f.chainPrefix ∧ e.rate = f.rate) ∧
    (e.verdict = .drop → f.verdict = .drop → e.chainPrefix = f.chainPrefix → e.capability = f.capability)

end Enforced

/-- A rule without its name and that of its limiter. -/
def RulePlan.contents (rule : RulePlan) : RulePlan :=
  { rule with id := "", rateLimit := rule.rateLimit.map fun rl => { rl with name := "" } }

/-- Two rules have one limiter if and only if they hold one source to one rate in one chain, and the same
name if they are the same rule. -/
structure Distinguished (r s : RulePlan) : Prop where
  limiter : ∀ l ∈ r.limiter, ∀ m ∈ s.limiter,
    l.name = m.name ↔ r.selector.srcIP = s.selector.srcIP ∧ r.chain = s.chain ∧ l.ratePPS = m.ratePPS
  id : r.contents = s.contents → r.id = s.id

namespace Enforced

variable {e f : Enforced} {h h' : Hook}

theorem text_eq : e.text h =
    adapterID ++ "|" ++ e.capability ++ "|\x7b" ++
      (e.srcIP ++ (hookText h ++ ("|" ++ e.verdict.text ++ "|map[]"))) := by
  unfold text ruleText
  rw [selector_text]
  simp only [String.append_assoc]
  rfl

theorem verdict_cases : (e.verdict = .rateLimit ∧ e.capability = "enforce.network.rate_limit") ∨
    e.verdict = .drop ∨ (e.verdict = .ret ∧ e.capability = "") := by
  unfold verdict capability
  cases e.level with
  | observe => exact .inr (.inr ⟨rfl, rfl⟩)
  | block => exact .inr (.inl rfl)
  | soft | hard =>
    by_cases hrl : e.adapter.probe.hasRL = true
    · exact .inl ⟨if_pos hrl, rfl⟩
    · exact .inr (.inl (if_neg hrl))

theorem capability_of_rateLimit (he : e.verdict = .rateLimit) :
    e.capability = "enforce.network.rate_limit" := by
  rcases verdict_cases (e := e) with h | h | h
  · exact h.2
  · exact absurd (he.symm.trans h) (by decide)
  · exact absurd (he.symm.trans h.1) (by decide)

theorem capability_of_ret (he : e.verdict = .ret) : e.capability = "" := by
  rcases verdict_cases (e := e) with h | h | h
  · exact absurd (he.symm.trans h.1) (by decide)
  · exact absurd (he.symm.trans h) (by decide)
  · exact h.2

theorem text_inj (he : e.verdict = .rateLimit) (hf : f.verdict = .rateLimit) (heq : e.text h = f.text h') :
    e.srcIP = f.srcIP ∧ h = h' := by
  rw [text_eq, text_eq, capability_of_rateLimit he, capability_of_rateLimit hf, he, hf] at heq
  exact hookText_inj ((String.append_right_inj _).mp heq)

theorem capability_eq_of_text (hip : e.srcIP = f.srcIP) (hverdict : e.verdict = f.verdict)
    (heq : e.text h = f.text h) : e.capability = f.capability := by
  rw [text_eq, text_eq, hip, hverdict] at heq
  have hhead := (String.append_left_inj _).mp ((String.append_left_inj _).mp heq)
  exact (String.append_right_inj _).mp hhead

theorem rule_eq : e.rule h =
    { id := String.ofList ((e.adapter.sha256 (e.text h)).toList.take 12)
      chain := h.chainName e.chainPrefix
      selector := { srcIP := e.srcIP, direction := h.text }
      verdict := e.verdict
      rateLimit :=
        if e.verdict = .rateLimit then some ⟨e.rate, 0, "kl_" ++ String.ofList (e.digits (e.text h))⟩
        else none } := by
  have htake : e.digits (e.text h) =
      (String.ofList ((e.adapter.sha256 (e.text h)).toList.take 12)).toList.take 8 := by
    rw [String.toList_ofList, List.take_take]
    rfl
  rw [htake]
  rfl

theorem limiter_eq : (e.rule h).limiter =
    if e.verdict = .rateLimit then some ⟨e.rate, 0, "kl_" ++ String.ofList (e.digits (e.text h))⟩
    else none := by
  have hname : "kl_" ++ String.ofList (e.digits (e.text h)) ≠ "" := fun heq => by
    have hlength := congrArg (fun text : String => text.toList.length) heq
    simp at hlength
  unfold RulePlan.limiter
  rw [rule_eq]
  split_ifs with he
  · rw [Option.map_some]
    simp only [if_neg hname]
  · rfl

theorem contents_eq_iff : (e.rule h).contents = (f.rule h').contents ↔
    e.srcIP = f.srcIP ∧ e.chainPrefix = f.chainPrefix ∧ h = h' ∧ e.verdict = f.verdict ∧
      (e.verdict = .rateLimit → e.rate = f.rate) := by
  unfold RulePlan.contents
  rw [rule_eq, rule_eq]
  simp only [RulePlan.mk.injEq, Selector.mk.injEq, true_and, and_true]
  rw [chainName_eq_iff]
  constructor
  · rintro ⟨⟨hpre, hhook⟩, ⟨hip, -⟩, hverdict, hrate⟩
    refine ⟨hip, hpre, hhook, hverdict, fun he => ?_⟩
    rw [if_pos he, if_pos (hverdict ▸ he)] at hrate
    simpa using hrate
  · rintro ⟨hip, hpre, hhook, hverdict, hrate⟩
    refine ⟨⟨hpre, hhook⟩, ⟨hip, by rw [hhook]⟩, hverdict, ?_⟩
    by_cases he : e.verdict = .rateLimit
    · rw [if_pos he, if_pos (hverdict ▸ he), hrate he]
      rfl
    · rw [if_neg he, if_neg (hverdict ▸ he)]

/-- Two rules in the chains of one hook are distinguished if and only if their transitions hold a source to
the same limits; in those of two hooks they always are. -/
theorem distinguished_iff (hsha : e.adapter.sha256 = f.adapter.sha256)
    (hinj : e.digits (e.text h) = f.digits (f.text h') → e.text h = f.text h') :
    Distinguished (e.rule h) (f.rule h') ↔ (h = h' → e.SameLimits f) := by
  have hid : (e.rule h).id = (f.rule h').id ↔ e.text h = f.text h' := by
    rw [rule_eq, rule_eq, String.ofList_inj]
    refine ⟨fun heq => hinj ?_, fun heq => by rw [hsha, heq]⟩
    have htake := congrArg (List.take 8) heq
    rwa [List.take_take, List.take_take] at htake
  constructor
  · rintro ⟨hlimiter, hcontents⟩ rfl hip
    refine ⟨fun he hf => ?_, fun he hf hpre => ?_⟩
    · have htext : e.text h = f.text h := by
        rw [text_eq, text_eq, capability_of_rateLimit he, capability_of_rateLimit hf, he, hf, hip]
      rw [limiter_eq, limiter_eq, if_pos he, if_pos hf] at hlimiter
      have hname := (hlimiter _ rfl _ rfl).mp (by simp only [digits, hsha, htext])
      rw [rule_eq, rule_eq] at hname
      exact ⟨(chainName_eq_iff.mp hname.2.1).1, hname.2.2⟩
    · have hlimited : e.verdict ≠ .rateLimit := by simp [he]
      have hsame := (contents_eq_iff (h := h)).mpr
        ⟨hip, hpre, rfl, he.trans hf.symm, fun h => absurd h hlimited⟩
      exact capability_eq_of_text hip (he.trans hf.symm) (hid.mp (hcontents hsame))
  · intro hlimits
    refine ⟨fun l hl m hm => ?_, fun hsame => hid.mpr ?_⟩
    · rw [limiter_eq] at hl hm
      obtain ⟨he, rfl⟩ : e.verdict = .rateLimit ∧ _ = l := by simpa using hl
      obtain ⟨hf, rfl⟩ : f.verdict = .rateLimit ∧ _ = m := by simpa using hm
      simp only [String.append_right_inj, String.ofList_inj]
      rw [rule_eq, rule_eq]
      constructor
      · intro hname
        obtain ⟨hip, rfl⟩ := text_inj he hf (hinj hname)
        obtain ⟨hpre, hrate⟩ := (hlimits rfl hip).1 he hf
        exact ⟨hip, by rw [hpre], hrate⟩
      · rintro ⟨hip, hchain, -⟩
        obtain ⟨-, rfl⟩ := chainName_eq_iff.mp hchain
        have htext : e.text h = f.text h := by
          rw [text_eq, text_eq, capability_of_rateLimit he, capability_of_rateLimit hf, he, hf]
          rw [show e.srcIP = f.srcIP from hip]
        simp only [digits, hsha, htext]
    · obtain ⟨hip, hpre, rfl, hverdict, -⟩ := contents_eq_iff.mp hsame
      have hcapability : e.capability = f.capability := by
        rcases verdict_cases (e := e) with ⟨he, hcap⟩ | he | ⟨he, hcap⟩
        · rw [hcap, capability_of_rateLimit (hverdict ▸ he)]
        · exact (hlimits rfl hip).2 he (hverdict ▸ he) hpre
        · rw [hcap, capability_of_ret (hverdict ▸ he)]
      rw [text_eq, text_eq, hip, hcapability, hverdict]

theorem verdict_ne_ret (hlevel : e.level ≠ .observe) : e.verdict ≠ .ret := by
  unfold verdict
  cases hl : e.level with
  | observe => exact absurd hl hlevel
  | block => exact fun h => nomatch h
  | soft | hard =>
    unfold levelToVerdict
    simp only
    split_ifs <;> exact fun h => nomatch h

theorem sameLimits_of_ret (hret : e.verdict = .ret ∨ f.verdict = .ret) : e.SameLimits f := fun _ => by
  rcases hret with hret | hret
  · exact ⟨fun he => absurd (he.symm.trans hret) (by decide),
      fun he => absurd (he.symm.trans hret) (by decide)⟩
  · exact ⟨fun _ hf => absurd (hf.symm.trans hret) (by decide),
      fun _ hf => absurd (hf.symm.trans hret) (by decide)⟩

end Enforced

end Pairs

section Tables

def RuleTable.All (P : ActiveRule → Prop) (rules : RuleTable) : Prop :=
  ∀ ip rule, rules.lookup ip = some rule → P rule

/-- The rules of the table, and of those that threads may still put back. -/
structure World.All {n : ℕ} (P : ActiveRule → Prop) (s : World n) : Prop where
  current : s.current.rules.All P
  before : ∀ t before, (s.threads t).before = some before → before.rules.All P

/-- The transition that an act makes. -/
def World.made {n : ℕ} (s : World n) (t : Fin n) : Act → Option (String × Level)
  | .update .. =>
    match s.threads t with
    | .locked (.transition ip next _) => some (ip, next)
    | _ => none
  | _ => none

variable {P : ActiveRule → Prop} {n : ℕ} {a : Adapter} {s s' : World n} {t : Fin n} {act : Act}
  {rules : RuleTable}

theorem RuleTable.mem_values {rule : ActiveRule} :
    rule ∈ rules.values ↔ ∃ ip, rules.lookup ip = some rule := by
  unfold RuleTable.values
  rw [List.mem_map]
  constructor
  · rintro ⟨⟨ip, _⟩, hmem, rfl⟩
    exact ⟨ip, AList.mem_lookup_iff.mpr hmem⟩
  · rintro ⟨ip, hlookup⟩
    exact ⟨⟨ip, rule⟩, AList.mem_lookup_iff.mp hlookup, rfl⟩

theorem RuleTable.All.transition (h : rules.All P) {ip : String} {next : Level} {ttl : Duration} {now : Time}
    (hnext : next ≠ .observe → ∀ expires, P ⟨ip, next, expires⟩) :
    (rules.transition ip next ttl now).All P := by
  have hinsert (rule : ActiveRule) (hrule : P rule) : RuleTable.All P (rules.insert ip rule) := by
    intro ip' found hfound
    by_cases hip : ip' = ip
    · rw [hip, AList.lookup_insert] at hfound
      exact Option.some.inj hfound ▸ hrule
    · rw [AList.lookup_insert_ne hip] at hfound
      exact h ip' found hfound
  cases next with
  | observe =>
    intro ip' found hfound
    by_cases hip : ip' = ip
    · rw [hip, RuleTable.transition, AList.lookup_erase] at hfound
      cases hfound
    · rw [RuleTable.transition, AList.lookup_erase_ne hip] at hfound
      exact h ip' found hfound
  | soft | hard | block => exact hinsert _ (hnext (by decide) _)

theorem RuleTable.All.expire (h : rules.All P) (now : Time) : (rules.expire now).All P := by
  intro ip rule hrule
  rw [lookup_expire] at hrule
  exact h ip rule (Option.filter_eq_some_iff.mp hrule).1

theorem RuleTable.All.readd {before : RuleTable} (h : rules.All P) (hbefore : before.All P) :
    (rules.readd before).All P := fun ip rule hrule => by
  rw [lookup_readd] at hrule
  rcases Option.or_eq_some_iff.mp hrule with hrule | ⟨-, hrule⟩
  · exact h ip rule hrule
  · exact hbefore ip rule hrule

theorem World.All.setThread {thread : Thread} (h : s.All P)
    (hthreads : s'.threads = Function.update s.threads t thread) (hcurrent : s'.current.rules.All P)
    (hbefore : ∀ before, thread.before = some before → before.rules.All P) :
    s'.All P where
  current := hcurrent
  before t' before hsome := by
    rw [hthreads, Function.update_apply] at hsome
    split_ifs at hsome with ht
    · exact hbefore before hsome
    · exact h.before t' before hsome

theorem World.All.mono {Q : ActiveRule → Prop} (h : s.All P) (hPQ : ∀ rule, P rule → Q rule) : s.All Q :=
  ⟨fun ip rule hrule => hPQ rule (h.current ip rule hrule),
    fun t before hbefore ip rule hrule => hPQ rule (h.before t before hbefore ip rule hrule)⟩

theorem World.All.step (h : s.All P) (hact : s.act a t act = some s')
    (hmade : ∀ ip next, s.made t act = some (ip, next) → next ≠ .observe → ∀ expires, P ⟨ip, next, expires⟩) :
    s'.All P := by
  have hold (before : Snapshot) (hbefore : (s.threads t).before = some before) : before.rules.All P :=
    h.before t before hbefore
  cases act with
  | call op =>
    simp only [World.act] at hact
    split at hact
    · cases hact
      exact h.setThread rfl h.current fun _ hnone => by cases hnone
    · cases hact
  | lock =>
    simp only [World.act] at hact
    split_ifs at hact
    split at hact
    · cases hact
      exact h.setThread rfl h.current fun _ hnone => by cases hnone
    · next before hfailed =>
      cases hact
      exact h.setThread rfl h.current fun _ hsome =>
        Option.some.inj hsome ▸ hold before (congrArg Thread.before hfailed)
    · cases hact
  | update now order =>
    simp only [World.act] at hact
    split at hact
    · next ip next ttl hlocked =>
      split_ifs at hact
      cases hact
      have hnext := hmade ip next (by simp only [World.made, hlocked])
      exact h.setThread rfl (h.current.transition hnext) fun _ hsome => Option.some.inj hsome ▸ h.current
    · split_ifs at hact
      · cases hact
        exact h.setThread rfl h.current fun _ hnone => by cases hnone
      · cases hact
        exact h.setThread rfl (h.current.expire now) fun _ hsome => Option.some.inj hsome ▸ h.current
    · cases hact
  | apply ok =>
    cases ok with
    | true =>
      simp only [World.act] at hact
      split at hact
      · next ip next ttl _ _ _ =>
        cases hact
        have hrules : (s.current.applied (.transition ip next ttl)).rules = s.current.rules := by
          cases next <;> rfl
        exact h.setThread rfl (hrules ▸ h.current) fun _ hnone => by cases hnone
      · cases hact
        exact h.setThread rfl h.current fun _ hnone => by cases hnone
      · cases hact
    | false =>
      simp only [World.act] at hact
      split at hact
      · next op before plan happlying =>
        cases hact
        exact h.setThread rfl h.current fun _ hsome =>
          Option.some.inj hsome ▸ hold before (congrArg Thread.before happlying)
      · cases hact
  | restore =>
    simp only [World.act] at hact
    split at hact
    · next before hfailed =>
      cases hact
      exact h.setThread rfl (hold before (congrArg Thread.before hfailed)) fun _ hnone => by cases hnone
    · next before hrelocked =>
      cases hact
      exact h.setThread rfl (h.current.readd (hold before (congrArg Thread.before hrelocked)))
        fun _ hnone => by cases hnone
    · cases hact
  | unlock =>
    simp only [World.act] at hact
    split at hact
    · next before plan hreleasing =>
      cases hact
      exact h.setThread rfl h.current fun _ hsome =>
        Option.some.inj hsome ▸ hold before (congrArg Thread.before hreleasing)
    · cases hact
      exact h.setThread rfl h.current fun _ hnone => by cases hnone
    · cases hact

def Thread.plan : Thread → Option NetfilterPlan
  | .releasing _ plan | .applying _ _ plan => some plan
  | _ => none

/-- The plan that an act builds, from the world after it. -/
def World.builtBy (s : World n) (t : Fin n) : Act → Option NetfilterPlan
  | .update .. => (s.threads t).plan
  | _ => none

theorem World.builtBy_eq {plan : NetfilterPlan} (hact : s.act a t act = some s')
    (hbuilt : s'.builtBy t act = some plan) :
    ∃ order, order.Perm s'.current.rules.values ∧ plan = buildPlan a order := by
  cases act with
  | update now order =>
    simp only [World.act] at hact
    split at hact
    · split_ifs at hact with horder
      cases hact
      simp only [World.builtBy, World.setThread, Function.update_self] at hbuilt
      exact ⟨order, horder, (Option.some.inj hbuilt).symm⟩
    · split_ifs at hact with hremoved horder
      · cases hact
        simp only [World.builtBy, World.setThread, Function.update_self] at hbuilt
        cases hbuilt
      · cases hact
        simp only [World.builtBy, World.setThread, Function.update_self] at hbuilt
        exact ⟨order, horder, (Option.some.inj hbuilt).symm⟩
    · cases hact
  | call | lock | apply | restore | unlock => cases hbuilt

theorem World.builtBy_of_made {ip : String} {next : Level} (hact : s.act a t act = some s')
    (hmade : s.made t act = some (ip, next)) (hnext : next ≠ .observe) : ∃ plan expires,
      s'.builtBy t act = some plan ∧ s'.current.rules.lookup ip = some ⟨ip, next, expires⟩ := by
  cases act with
  | update now order =>
    simp only [World.made] at hmade
    split at hmade
    · next ip' next' ttl hlocked =>
      obtain ⟨rfl, rfl⟩ : ip' = ip ∧ next' = next := by simpa using hmade
      simp only [World.act, hlocked] at hact
      split_ifs at hact
      cases hact
      refine ⟨buildPlan a order, if 0 < ttl then now + ttl else 0, ?_, ?_⟩
      · simp only [World.builtBy, World.setThread, Function.update_self]
        rfl
      · cases next' with
        | observe => exact absurd rfl hnext
        | soft | hard | block => exact AList.lookup_insert _
    · cases hmade
  | call | lock | apply | restore | unlock => cases hmade

end Tables

section History

/-- An adapter with `n` threads, with the transitions that it and those before it made, and the plans they
built. -/
structure Service (n : ℕ) where
  adapter : Adapter
  world : World n := {}
  enforced : List Enforced := []
  built : List NetfilterPlan := []

inductive ServiceEvent (n : ℕ) where
  | act (t : Fin n) (act : Act)
  /-- Another process with its own configuration, and with no rules yet. -/
  | restart (cfg : Config) (probe : ProbeResult)

variable {n : ℕ}

def Service.next (s : Service n) : ServiceEvent n → Option (Service n)
  | .act t act => (s.world.act s.adapter t act).map fun world =>
    { s with
      world
      enforced :=
        ((s.world.made t act).map fun made => (⟨s.adapter, made.1, made.2⟩ : Enforced)).toList ++ s.enforced
      built := (world.builtBy t act).toList ++ s.built }
  | .restart cfg probe => some { s with adapter := { s.adapter with cfg, probe }, world := {} }

def Service.Step (s : Service n) (e : ServiceEvent n) (s' : Service n) : Prop := s.next e = some s'

/-- The texts of the rules that the transitions of a run have. -/
def Service.texts (s : Service n) : Set String :=
  {text | ∃ e ∈ s.enforced, ∃ h ∈ e.adapter.cfg.hooks, text = e.text h}

/-- The rules of all plans that were built are distinguished. -/
def Service.Distinguishes (s : Service n) : Prop :=
  ∀ p ∈ s.built, ∀ q ∈ s.built, ∀ r ∈ p.rules, ∀ r' ∈ q.rules, Distinguished r r'

/-- No source was held to two limits in one hook. -/
def Service.Steady (s : Service n) : Prop :=
  ∀ e ∈ s.enforced, ∀ f ∈ s.enforced, ∀ h ∈ e.adapter.cfg.hooks, h ∈ f.adapter.cfg.hooks → e.SameLimits f

/-- Where the rules of the tables and of the plans come from. -/
structure Service.Traced (digest : String → String) (s : Service n) : Prop where
  adapter : s.adapter.sha256 = digest
  digests : ∀ e ∈ s.enforced, e.adapter.sha256 = digest
  tables : s.world.All fun rule => rule.level ≠ .observe ∧ ⟨s.adapter, rule.srcIP, rule.level⟩ ∈ s.enforced
  built : ∀ p ∈ s.built, ∀ r ∈ p.rules,
    (∃ e ∈ s.enforced, e.level ≠ .observe ∧ ∃ h ∈ e.adapter.cfg.hooks, r = e.rule h) ∨
    ∃ (a : Adapter) (chain : ChainPlan) (cidr : String), a.sha256 = digest ∧ r = managementRule a chain cidr
  planned : ∀ e ∈ s.enforced, e.level ≠ .observe →
    ∃ p ∈ s.built, ∀ h ∈ e.adapter.cfg.hooks, e.rule h ∈ p.rules

variable {digest : String → String} {s s' : Service n}

theorem chains_eq_hooks (cfg : Config) : cfg.chains = cfg.hooks.map (·.plan cfg.chainPrefix) := by
  unfold Config.chains Config.hooks
  cases cfg.input <;> cases cfg.forward <;> cases cfg.output <;> rfl

theorem mem_buildPlan {a : Adapter} {order : List ActiveRule} {r : RulePlan} : r ∈ (buildPlan a order).rules ↔
    (∃ chain ∈ a.cfg.chains, ∃ cidr ∈ a.cfg.managementAllowlist, r = managementRule a chain cidr) ∨
    ∃ rule ∈ order, ∃ h ∈ a.cfg.hooks, r = (⟨a, rule.srcIP, rule.level⟩ : Enforced).rule h := by
  unfold buildPlan
  rw [List.mem_append, List.mem_flatMap, List.mem_flatMap]
  refine or_congr ?_ ?_
  · simp only [List.mem_map, eq_comm]
  · simp only [chains_eq_hooks, List.map_map, List.mem_map, Function.comp_apply]
    refine exists_congr fun rule => and_congr_right fun _ => exists_congr fun h => and_congr_right fun _ => ?_
    exact eq_comm

theorem Service.Traced.act {t : Fin n} {act : Act} (hs : s.Traced digest) (hstep : s.Step (.act t act) s') :
    s'.Traced digest := by
  unfold Service.Step Service.next at hstep
  obtain ⟨world, hact, rfl⟩ := Option.map_eq_some_iff.mp hstep
  set made :=
    ((s.world.made t act).map fun made => (⟨s.adapter, made.1, made.2⟩ : Enforced)).toList with hmade
  have hnew (e : Enforced) (he : e ∈ made) :
      s.world.made t act = some (e.srcIP, e.level) ∧ e.adapter = s.adapter := by
    rw [hmade, Option.mem_toList, Option.map_eq_some_iff] at he
    obtain ⟨⟨ip, next⟩, hsome, rfl⟩ := he
    exact ⟨hsome, rfl⟩
  have htables : world.All fun rule =>
      rule.level ≠ .observe ∧ ⟨s.adapter, rule.srcIP, rule.level⟩ ∈ made ++ s.enforced := by
    refine (hs.tables.mono fun rule hrule => ⟨hrule.1, List.mem_append_right _ hrule.2⟩).step hact ?_
    intro ip next hsome hnext expires
    refine ⟨hnext, List.mem_append_left _ ?_⟩
    rw [hmade, hsome]
    exact List.mem_singleton_self _
  refine ⟨hs.adapter, ?_, htables, ?_, ?_⟩
  · intro e he
    rcases List.mem_append.mp he with he | he
    · rw [(hnew e he).2]
      exact hs.adapter
    · exact hs.digests e he
  · intro p hp r hr
    rcases List.mem_append.mp hp with hp | hp
    · obtain ⟨order, horder, rfl⟩ := World.builtBy_eq hact (Option.mem_toList.mp hp)
      rcases mem_buildPlan.mp hr with ⟨chain, -, cidr, -, rfl⟩ | ⟨rule, hrule, h, hh, rfl⟩
      · exact .inr ⟨s.adapter, chain, cidr, hs.adapter, rfl⟩
      · obtain ⟨ip, hlookup⟩ := RuleTable.mem_values.mp (horder.mem_iff.mp hrule)
        obtain ⟨hlevel, hmem⟩ := htables.current ip rule hlookup
        exact .inl ⟨_, hmem, hlevel, h, hh, rfl⟩
    · refine (hs.built p hp r hr).imp_left ?_
      rintro ⟨e, he, hrule⟩
      exact ⟨e, List.mem_append_right _ he, hrule⟩
  · intro e he hlevel
    rcases List.mem_append.mp he with he | he
    · obtain ⟨hsome, hadapter⟩ := hnew e he
      obtain ⟨plan, expires, hbuilt, hlookup⟩ := World.builtBy_of_made hact hsome hlevel
      obtain ⟨order, horder, rfl⟩ := World.builtBy_eq hact hbuilt
      have hrule : ⟨e.srcIP, e.level, expires⟩ ∈ order :=
        horder.mem_iff.mpr (RuleTable.mem_values.mpr ⟨e.srcIP, hlookup⟩)
      refine ⟨_, List.mem_append_left _ (Option.mem_toList.mpr hbuilt), fun h hh => ?_⟩
      refine mem_buildPlan.mpr (.inr ⟨_, hrule, h, hadapter ▸ hh, ?_⟩)
      rw [← hadapter]
    · obtain ⟨p, hp, hrules⟩ := hs.planned e he hlevel
      exact ⟨p, List.mem_append_right _ hp, hrules⟩

theorem Service.Traced.step {e : ServiceEvent n} (hs : s.Traced digest) (hstep : s.Step e s') :
    s'.Traced digest := by
  cases e with
  | act t act => exact hs.act hstep
  | restart cfg probe =>
    cases hstep
    exact ⟨hs.adapter, hs.digests, ⟨fun _ _ hrule => (nomatch hrule), fun _ _ hnone => (nomatch hnone)⟩,
      hs.built, hs.planned⟩

theorem Service.Traced.start (a : Adapter) : (⟨a, {}, [], []⟩ : Service n).Traced a.sha256 :=
  ⟨rfl, fun _ he => (nomatch he), ⟨fun _ _ hrule => (nomatch hrule), fun _ _ hnone => (nomatch hnone)⟩,
    fun _ hp => (nomatch hp), fun _ he => (nomatch he)⟩

theorem managementRule_distinguished {a b : Adapter} {chain chain' : ChainPlan} {cidr cidr' : String}
    (hsha : a.sha256 = b.sha256) :
    Distinguished (managementRule a chain cidr) (managementRule b chain' cidr') where
  limiter _ hl := nomatch hl
  id hsame := by
    have hsel : (managementRule a chain cidr).selector = (managementRule b chain' cidr').selector :=
      congrArg (·.selector) hsame
    change ruleID a "management" (managementRule a chain cidr).selector .ret =
      ruleID b "management" (managementRule b chain' cidr').selector .ret
    rw [hsel, ruleID_eq, ruleID_eq, hsha]

/-- The rules of all plans of a run are distinguished if and only if no source was held to two limits. -/
theorem distinguishes_iff_steady {a : Adapter} {es : List (ServiceEvent n)}
    (hrun : Run Service.Step ⟨a, {}, [], []⟩ es s)
    (hinj : Set.InjOn (fun text => (a.sha256 text).toList.take 8) s.texts) : s.Distinguishes ↔ s.Steady := by
  have hs : s.Traced a.sha256 := hrun.invariant (.start a) fun h hstep => h.step hstep
  have hpair {e f : Enforced} {h h' : Hook} (he : e ∈ s.enforced) (hf : f ∈ s.enforced)
      (hh : h ∈ e.adapter.cfg.hooks) (hh' : h' ∈ f.adapter.cfg.hooks) :
      Distinguished (e.rule h) (f.rule h') ↔ (h = h' → e.SameLimits f) := by
    have hsha := hs.digests e he
    have hsha' := hs.digests f hf
    refine Enforced.distinguished_iff (hsha.trans hsha'.symm) fun heq => ?_
    unfold Enforced.digits at heq
    rw [hsha, hsha'] at heq
    exact hinj ⟨e, he, h, hh, rfl⟩ ⟨f, hf, h', hh', rfl⟩ heq
  constructor
  · intro hall e he f hf h hh hh'
    by_cases hlevel : e.level = .observe
    · exact Enforced.sameLimits_of_ret (.inl (by rw [Enforced.verdict, hlevel]; rfl))
    by_cases hlevel' : f.level = .observe
    · exact Enforced.sameLimits_of_ret (.inr (by rw [Enforced.verdict, hlevel']; rfl))
    obtain ⟨p, hp, hrules⟩ := hs.planned e he hlevel
    obtain ⟨q, hq, hrules'⟩ := hs.planned f hf hlevel'
    exact (hpair he hf hh hh').mp (hall p hp q hq _ (hrules h hh) _ (hrules' h hh')) rfl
  · intro hsteady p hp q hq r hr r' hr'
    rcases hs.built p hp r hr with ⟨e, he, hlevel, h, hh, rfl⟩ | ⟨b, chain, cidr, hsha, rfl⟩
    · rcases hs.built q hq r' hr' with ⟨f, hf, -, h', hh', rfl⟩ | ⟨b, chain, cidr, -, rfl⟩
      · refine (hpair he hf hh hh').mpr fun heq => ?_
        subst heq
        exact hsteady e he f hf h hh hh'
      · exact ⟨fun _ _ _ hm => (nomatch hm), fun hsame =>
          absurd (congrArg (·.verdict) hsame) (Enforced.verdict_ne_ret hlevel)⟩
    · rcases hs.built q hq r' hr' with ⟨f, -, hlevel', h', -, rfl⟩ | ⟨b', chain', cidr', hsha', rfl⟩
      · exact ⟨fun _ hl => (nomatch hl), fun hsame =>
          absurd (congrArg (·.verdict) hsame).symm (Enforced.verdict_ne_ret hlevel')⟩
      · exact managementRule_distinguished (hsha.trans hsha'.symm)

/-- The digest of a text is what follows all but the last byte of the address in it. -/
def meterAdapter : Adapter :=
  ⟨{}, { selected := .nftables, meters := true }, fun text => String.ofList (text.toList.drop 55)⟩

def transitionEvents (ip : String) (next : Level) (order : List ActiveRule) : List (ServiceEvent 1) :=
  [.act 0 (.call (.transition ip next 0)), .act 0 .lock, .act 0 (.update 1 order), .act 0 (.apply true),
    .act 0 .unlock]

def sourceA : ActiveRule := ⟨"192.0.2.7", .soft, 0⟩

def sourceB : ActiveRule := ⟨"192.0.2.8", .soft, 0⟩

def softened : Service 1 :=
  ((transitionEvents "192.0.2.7" .soft [sourceA] ++
    transitionEvents "192.0.2.8" .soft [sourceA, sourceB]).foldlM Service.next ⟨meterAdapter, {}, [], []⟩).get
      (by decide +kernel)

theorem softened_facts : softened.enforced.length = 2 ∧ softened.built.length = 2 ∧
    (∀ e ∈ softened.enforced, e.verdict = .rateLimit ∧ e.rate = 100 ∧ e.chainPrefix = "KERNLOOM") ∧
    ∀ e ∈ softened.enforced, ∀ h ∈ e.adapter.cfg.hooks, ∀ f ∈ softened.enforced, ∀ h' ∈ f.adapter.cfg.hooks,
      (meterAdapter.sha256 (e.text h)).toList.take 8 = (meterAdapter.sha256 (f.text h')).toList.take 8 →
        e.text h = f.text h' := by decide +kernel

theorem softened_distinguishes : softened.Distinguishes := by
  obtain ⟨-, -, hlimits, hinj⟩ := softened_facts
  refine (distinguishes_iff_steady (run_of_foldlM (Option.some_get _).symm) ?_).mpr ?_
  · rintro _ ⟨e, he, h, hh, rfl⟩ _ ⟨f, hf, h', hh', rfl⟩ heq
    exact hinj e he h hh f hf h' hh' heq
  · intro e he f hf _ _ _ _
    obtain ⟨hverdict, hrate, hpre⟩ := hlimits e he
    obtain ⟨-, hrate', hpre'⟩ := hlimits f hf
    exact ⟨fun _ _ => ⟨hpre.trans hpre'.symm, hrate.trans hrate'.symm⟩,
      fun hdrop => absurd (hverdict.symm.trans hdrop) (by decide)⟩

def hardened : Service 1 :=
  ((transitionEvents "192.0.2.7" .soft [sourceA] ++
    transitionEvents "192.0.2.7" .hard [{ sourceA with level := .hard }]).foldlM Service.next
      ⟨meterAdapter, {}, [], []⟩).get (by decide +kernel)

theorem hardened_facts :
    (∃ p ∈ hardened.built, ∃ q ∈ hardened.built, ∃ r ∈ p.rules, ∃ r' ∈ q.rules,
      r.limiter = some ⟨100, 0, "kl_7     <n"⟩ ∧ r'.limiter = some ⟨20, 0, "kl_7     <n"⟩) ∧
    ∀ e ∈ hardened.enforced, ∀ h ∈ e.adapter.cfg.hooks, ∀ f ∈ hardened.enforced, ∀ h' ∈ f.adapter.cfg.hooks,
      (meterAdapter.sha256 (e.text h)).toList.take 8 = (meterAdapter.sha256 (f.text h')).toList.take 8 →
        e.text h = f.text h' := by decide +kernel

/-- A source that goes from soft to hard keeps its limiter. -/
theorem limiter_kept : ¬ ∀ (n : ℕ) (a : Adapter) (es : List (ServiceEvent n)) (s : Service n),
    Run Service.Step ⟨a, {}, [], []⟩ es s →
    Set.InjOn (fun text => (a.sha256 text).toList.take 8) s.texts → s.Distinguishes := by
  intro hall
  obtain ⟨⟨p, hp, q, hq, r, hr, r', hr', hsoft, hhard⟩, hinj⟩ := hardened_facts
  have hdistinguished := hall 1 meterAdapter _ hardened (run_of_foldlM (Option.some_get _).symm) (by
    rintro _ ⟨e, he, h, hh, rfl⟩ _ ⟨f, hf, h', hh', rfl⟩ heq
    exact hinj e he h hh f hf h' hh' heq) p hp q hq r hr r' hr'
  have hrate := ((hdistinguished.limiter _ hsoft _ hhard).mp rfl).2.2
  exact absurd hrate (by decide)

end History

end Netfilter

end Kernloom
