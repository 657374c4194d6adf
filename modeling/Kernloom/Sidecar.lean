import Kernloom.Netfilter
import Kernloom.SourceApply
import Kernloom.LeaseStrength

/-! The netfilter adapter as a sidecar of the executor: what a transition notifies it of, and the
relation between the leases of the sources and the rules that it keeps for them. -/

namespace Kernloom

open Effects Effects.Program LeaseTable
open Netfilter (RuleTable)

/-- `NotifySourceTransition`, with a backend that does not fail. -/
def notifySourceTransition (rules : RuleTable) (target : SourceTarget) (next : Level) (ttl : Duration)
    (now : Time) : RuleTable :=
  match parseIP target.id with
  | none => rules
  | some ip => rules.transition (ipString ip) next ttl now

/-- The source is named by an IP address as the adapter writes it. -/
def IsIPName (source : String) : Prop := (parseIP source).map ipString = some source

instance (source : String) : Decidable (IsIPName source) :=
  inferInstanceAs (Decidable ((parseIP source).map ipString = some source))

theorem notifySourceTransition_eq {target : SourceTarget} (h : IsIPName target.id) (rules : RuleTable)
    (next : Level) (ttl : Duration) (now : Time) :
    notifySourceTransition rules target next ttl now = rules.transition target.id next ttl now := by
  unfold IsIPName at h
  unfold notifySourceTransition
  cases hip : parseIP target.id with
  | none =>
    rw [hip] at h
    cases h
  | some ip =>
    rw [hip, Option.map_some, Option.some.injEq] at h
    dsimp only
    rw [h]

section Notifying

variable {σ : Type} (pep : SourcePEP σ)

namespace SourceActionExecutor

/-- `ApplySource` with the sidecar, which reads the clock itself. -/
def applySourceNotifying (target : SourceTarget) (st : FsmState) (r : ActionResolution)
    (params : EnforcementParams) (now clock : Time) (s : σ × RuleTable) :
    (FsmState × ActionResult) × (σ × RuleTable) :=
  let (out, adapter) := applySource pep target st r params now s.1
  (out, adapter,
    if out.2.status = .failed then s.2
    else
      notifySourceTransition s.2 target (if r.allowed then parseFSMLevel r.executableLevel else .observe) r.ttl
        clock)

/-- `ApplyDeEnforceSource` with the sidecar. -/
def applyDeEnforceSourceNotifying (target : SourceTarget) (st : FsmState) (params : EnforcementParams)
    (now clock : Time) (s : σ × RuleTable) : FsmState × (σ × RuleTable) :=
  match pep.transitionSource target st .observe now params s.1 with
  | (.ok st', adapter) => (st', adapter, notifySourceTransition s.2 target .observe 0 clock)
  | (.error _, adapter) => (st, adapter, s.2)

end SourceActionExecutor

/-- The TTL of a level. -/
def EnforcementParams.ttl (params : EnforcementParams) : Level → Duration
  | .observe => 0
  | .soft => params.softTTL
  | .hard => params.hardTTL
  | .block => params.blockTTL

/-- The source PEP and the sidecar as one PEP. The TTL that the sidecar is told is that of the parameters. -/
def withSidecar (clock : Time) : SourcePEP (σ × RuleTable) where
  transitionSource target st level now params s :=
    match pep.transitionSource target st level now params s.1 with
    | (.ok st', adapter) =>
      (.ok st', adapter, notifySourceTransition s.2 target level (params.ttl level) clock)
    | (.error err, adapter) => (.error err, adapter, s.2)

theorem notify_observe (rules : RuleTable) (target : SourceTarget) (ttl ttl' : Duration) (now : Time) :
    notifySourceTransition rules target .observe ttl now = notifySourceTransition rules target .observe ttl' now := by
  unfold notifySourceTransition
  cases parseIP target.id <;> rfl

theorem ttl_enforcementParams (params : EnforcementParams) {r : ActionResolution} (h : 0 < r.ttl)
    (hlevel : parseFSMLevel r.executableLevel ≠ .observe) :
    (enforcementParamsForResolution params r).ttl (parseFSMLevel r.executableLevel) = r.ttl := by
  unfold enforcementParamsForResolution
  cases hl : parseFSMLevel r.executableLevel with
  | observe => exact absurd hl hlevel
  | soft | hard | block =>
    simp only [h, if_true]
    split_ifs <;> rfl

theorem applySource_withSidecar (clock : Time) (target : SourceTarget) (st : FsmState) {r : ActionResolution}
    (params : EnforcementParams) (now : Time) (s : σ × RuleTable) (hb : shouldBrokerLease r) :
    SourceActionExecutor.applySource (withSidecar pep clock) target st r
        (enforcementParamsForResolution params r) now s =
      SourceActionExecutor.applySourceNotifying pep target st r (enforcementParamsForResolution params r) now
        clock s := by
  have httl : notifySourceTransition s.2 target (parseFSMLevel r.executableLevel)
      ((enforcementParamsForResolution params r).ttl (parseFSMLevel r.executableLevel)) clock =
        notifySourceTransition s.2 target (parseFSMLevel r.executableLevel) r.ttl clock := by
    by_cases hlevel : parseFSMLevel r.executableLevel = .observe
    · rw [hlevel]
      exact notify_observe ..
    · rw [ttl_enforcementParams params hb.2.1 hlevel]
  unfold SourceActionExecutor.applySource SourceActionExecutor.applySourceNotifying
    SourceActionExecutor.applySource withSidecar
  simp only [hb.1, not_true, if_false, if_true]
  rcases pep.transitionSource target st (parseFSMLevel r.executableLevel) now
    (enforcementParamsForResolution params r) s.1 with ⟨err | st', adapter⟩
  · simp
  · by_cases hreason : r.denyReason = "" <;> simp [hreason, httl]

theorem applyDeEnforceSource_withSidecar (clock : Time) (target : SourceTarget) (st : FsmState)
    (params : EnforcementParams) (now : Time) (s : σ × RuleTable) :
    SourceActionExecutor.applyDeEnforceSource (withSidecar pep clock) target st params now s =
      SourceActionExecutor.applyDeEnforceSourceNotifying pep target st params now clock s := by
  simp only [SourceActionExecutor.applyDeEnforceSource, SourceActionExecutor.applyDeEnforceSourceNotifying,
    withSidecar]
  rcases pep.transitionSource target st .observe now params s.1 with ⟨err | st', adapter⟩ <;> rfl

end Notifying

/-- A rule at the level of the lease that lasts as long. -/
def Covers (rules : RuleTable) (source : String) (l : ActionLease) : Prop :=
  ∃ rule, rules.lookup source = some rule ∧ rule.level = parseFSMLevel l.level ∧
    (rule.expires = 0 ∨ l.expiresAt ≤ rule.expires)

/-- The leases, the tokens in force and the rules of the sidecar, but for the targets that are between two
leases. -/
structure Mirrored (adapterID : String) (between : String → Prop) (clock : Time) (t : LeaseTable)
    (token : String → String) (rules : RuleTable) : Prop where
  row : ∀ l ∈ t, ∃ source, IsSourceLease adapterID l source ∧ IsIPName source
  token_inj : ∀ l ∈ t, ∀ l' ∈ t, l.fencingToken = l'.fencingToken → l = l'
  held : ∀ l ∈ t, l.status = .active → ¬ between l.target → token l.target = l.fencingToken
  covered : ∀ l ∈ t, l.status = .active → ¬ between l.target → clock < l.expiresAt →
    ∀ source, l.target = "source:" ++ source → Covers rules source l
  leased : ∀ source rule, rules.lookup source = some rule → ¬ between ("source:" ++ source) →
    ∃ l ∈ t, l.status = .active ∧ l.target = "source:" ++ source ∧ rule.level = parseFSMLevel l.level

namespace Mirrored

variable {adapterID : String} {between between' : String → Prop} {clock clock' : Time} {t t' : LeaseTable}
  {token token' : String → String} {rules rules' : RuleTable} {l new : ActionLease} {source : String}

theorem weaken (h : Mirrored adapterID between clock t token rules)
    (hb : ∀ target, between target → between' target) : Mirrored adapterID between' clock t token rules where
  row := h.row
  token_inj := h.token_inj
  held l hl hs hn := h.held l hl hs fun hh => hn (hb _ hh)
  covered l hl hs hn := h.covered l hl hs fun hh => hn (hb _ hh)
  leased source rule hrule hn := h.leased source rule hrule fun hh => hn (hb _ hh)

theorem write (h : Mirrored adapterID between clock t token rules) (hw : Writes t new t')
    (hrow : ∃ source, IsSourceLease adapterID new source ∧ IsIPName source) (hb : between new.target)
    (htoken : ∀ l ∈ t, l.fencingToken = new.fencingToken → l.leaseID = new.leaseID)
    (hold : ∀ l ∈ t, l.leaseID = new.leaseID → l.target = new.target) :
    Mirrored adapterID between clock t' token rules where
  row l hl := by
    rcases (hw l).mp hl with rfl | ⟨hl, -⟩
    · exact hrow
    · exact h.row l hl
  token_inj l hl l' hl' heq := by
    rcases (hw l).mp hl with rfl | ⟨hl, hne⟩ <;> rcases (hw l').mp hl' with rfl | ⟨hl', hne'⟩
    · rfl
    · exact absurd (htoken l' hl' heq.symm) hne'
    · exact absurd (htoken l hl heq) hne
    · exact h.token_inj l hl l' hl' heq
  held l hl hs hn := by
    rcases (hw l).mp hl with rfl | ⟨hl, -⟩
    · exact absurd hb hn
    · exact h.held l hl hs hn
  covered l hl hs hn := by
    rcases (hw l).mp hl with rfl | ⟨hl, -⟩
    · exact absurd hb hn
    · exact h.covered l hl hs hn
  leased source rule hrule hn := by
    obtain ⟨l, hl, hs, htarget, hlevel⟩ := h.leased source rule hrule hn
    have hne : l.leaseID ≠ new.leaseID := fun hid => hn (htarget ▸ hold l hl hid ▸ hb)
    exact ⟨l, (hw l).mpr (.inr ⟨hl, hne⟩), hs, htarget, hlevel⟩

/-- A target between two leases gets a token, and its source a rule or none. -/
theorem move (h : Mirrored adapterID between clock t token rules)
    (htoken : ∀ target, ¬ between target → token' target = token target)
    (hrules : ∀ source, ¬ between ("source:" ++ source) → rules'.lookup source = rules.lookup source) :
    Mirrored adapterID between clock t token' rules' where
  row := h.row
  token_inj := h.token_inj
  held l hl hs hn := (htoken _ hn).trans (h.held l hl hs hn)
  covered l hl hs hn hlive source htarget := by
    obtain ⟨rule, hrule, hcovers⟩ := h.covered l hl hs hn hlive source htarget
    exact ⟨rule, (hrules source (htarget ▸ hn)).trans hrule, hcovers⟩
  leased source rule hrule hn := h.leased source rule (hrules source hn ▸ hrule) hn

theorem settle (h : Mirrored adapterID (· = "source:" ++ source) clock t token rules)
    (hheld : ∀ l ∈ t, l.status = .active → l.target = "source:" ++ source →
      token l.target = l.fencingToken ∧ (clock < l.expiresAt → Covers rules source l))
    (hleased : ∀ rule, rules.lookup source = some rule →
      ∃ l ∈ t, l.status = .active ∧ l.target = "source:" ++ source ∧ rule.level = parseFSMLevel l.level) :
    Mirrored adapterID settled clock t token rules where
  row := h.row
  token_inj := h.token_inj
  held l hl hs _ := by
    by_cases htarget : l.target = "source:" ++ source
    · exact (hheld l hl hs htarget).1
    · exact h.held l hl hs htarget
  covered l hl hs _ hlive source' htarget' := by
    by_cases htarget : l.target = "source:" ++ source
    · obtain rfl := (String.append_right_inj "source:").mp (htarget'.symm.trans htarget)
      exact (hheld l hl hs htarget).2 hlive
    · exact h.covered l hl hs htarget hlive source' htarget'
  leased source' rule hrule _ := by
    by_cases hsource : source' = source
    · exact hsource ▸ hleased rule (hsource ▸ hrule)
    · exact h.leased source' rule hrule fun heq => hsource ((String.append_right_inj "source:").mp heq)

theorem eq_of_target (h : Mirrored adapterID between clock t token rules) {l' : ActionLease} (hl : l ∈ t)
    (hl' : l' ∈ t) (hs : l.status = .active) (hs' : l'.status = .active) (heq : l.target = l'.target)
    (hn : ¬ between l.target) : l = l' :=
  h.token_inj l hl l' hl' <| by rw [← h.held l hl hs hn, ← h.held l' hl' hs' (heq ▸ hn), heq]

theorem expire (h : Mirrored adapterID settled clock t token rules) :
    Mirrored adapterID settled clock t token (rules.expire clock) where
  row := h.row
  token_inj := h.token_inj
  held := h.held
  covered l hl hs hn hlive source htarget := by
    obtain ⟨rule, hrule, hlevel, hexpires⟩ := h.covered l hl hs hn hlive source htarget
    have hkept : rule.isExpired clock = false := by
      rw [Netfilter.ActiveRule.isExpired, decide_eq_false_iff_not]
      rcases hexpires with hzero | hle
      · exact fun hexpired => hexpired.1 hzero
      · exact fun hexpired => absurd (hlive.trans_le hle) (not_lt.mpr hexpired.2.le)
    refine ⟨rule, ?_, hlevel, hexpires⟩
    rw [Netfilter.lookup_expire, hrule]
    simp [Option.filter, hkept]
  leased source rule hrule hn := by
    rw [Netfilter.lookup_expire] at hrule
    exact h.leased source rule (Option.filter_eq_some_iff.mp hrule).1 hn

theorem later (h : Mirrored adapterID between clock t token rules) (hle : clock ≤ clock') :
    Mirrored adapterID between clock' t token rules where
  row := h.row
  token_inj := h.token_inj
  held := h.held
  covered l hl hs hn hlive := h.covered l hl hs hn (hle.trans_lt hlive)
  leased := h.leased

end Mirrored

end Kernloom
