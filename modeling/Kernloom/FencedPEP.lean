import Kernloom.BrokeredPEP
import Kernloom.BrokerRules

/-! What the two brokered PEPs have in common: a token for each target, set by an application,
cleared by a revert and lost by a restart. A log keeps what reached the adapter. -/

namespace Kernloom

open Effects

/-- A PEP behind a broker that remembers the token of the lease last applied to each target; `χ` is
what an application is made for and `ξ` what a call reads besides. -/
structure FencedPEP (κ χ ξ : Type) where
  tokens : κ → FencingTokens
  begin : χ → κ → κ
  finish : κ → κ
  restart : κ → κ
  handle : ξ → (op : PepOp) → κ → op.Answer × κ
  /-- The revert of this lease reaches the adapter. -/
  deEnforces : ActionLease → κ → Bool
  tokens_begin : ∀ x s, tokens (begin x s) = tokens s
  tokens_finish : ∀ s, tokens (finish s) = tokens s
  tokens_restart : ∀ s, tokens (restart s) = ∅
  current_eq : ∀ x l s, handle x (.currentFencingToken l) s = (.ok ((tokens s).current l), s)
  apply_ok : ∀ {x l s k}, (handle x (.apply l) s).1 = .ok k →
    tokens (handle x (.apply l) s).2 = (tokens s).setCurrent l
  apply_error : ∀ {x l s err}, (handle x (.apply l) s).1 = .error err →
    tokens (handle x (.apply l) s).2 = tokens s
  revert_tokens : ∀ x l s, tokens (handle x (.revert l) s).2 = (tokens s).clearCurrent l ∨
    tokens (handle x (.revert l) s).2 = tokens s

def BrokeredSourcePEP.fenced {σ : Type} (pep : SourcePEP σ) :
    FencedPEP (BrokeredSourcePEP σ) ApplyContext (EnforcementParams × Time) where
  tokens := BrokeredSourcePEP.currentTokens
  begin ctx s := s.begin ctx
  finish s := s.finish.2
  restart s := { adapter := s.adapter }
  handle x := BrokeredSourcePEP.handle pep x.1 x.2
  deEnforces l _ := (targetFromLease l).value ≠ ""
  tokens_begin _ _ := rfl
  tokens_finish _ := rfl
  tokens_restart _ := rfl
  current_eq _ _ _ := rfl
  apply_ok := by
    intro x l s k h
    simp only [BrokeredSourcePEP.handle] at h ⊢
    split at h
    · simp at h
    · split_ifs at h ⊢
      rfl
  apply_error := by
    intro x l s err h
    simp only [BrokeredSourcePEP.handle] at h ⊢
    split at h
    · rfl
    · split_ifs at h ⊢
      rfl
  revert_tokens := by
    intro x l s
    simp only [BrokeredSourcePEP.handle]
    split_ifs
    · exact .inr rfl
    · exact .inl rfl

def BrokeredRelationshipPEP.fenced {ρ : Type} (pep : RelationshipPEP ρ) :
    FencedPEP (BrokeredRelationshipPEP ρ) RelationshipTarget Time where
  tokens := BrokeredRelationshipPEP.tokens
  begin target s := s.begin target
  finish s := s.finish.2
  restart s := { adapter := s.adapter }
  handle := BrokeredRelationshipPEP.handle pep
  deEnforces l s := pep.available s.adapter ∧
    (relationshipTargetFromActionTarget (targetFromLease l)).isSome
  tokens_begin _ _ := rfl
  tokens_finish _ := rfl
  tokens_restart _ := rfl
  current_eq _ _ _ := rfl
  apply_ok := by
    intro x l s k h
    simp only [BrokeredRelationshipPEP.handle] at h ⊢
    split_ifs at h ⊢
    split at h
    · simp at h
    · split at h
      · simp at h
      · rfl
  apply_error := by
    intro x l s err h
    simp only [BrokeredRelationshipPEP.handle] at h ⊢
    split_ifs at h ⊢
    · split at h
      · rfl
      · split at h
        · rfl
        · simp at h
    · rfl
  revert_tokens := by
    intro x l s
    simp only [BrokeredRelationshipPEP.handle]
    split_ifs
    · split
      · exact .inr rfl
      · split
        · exact .inr rfl
        · exact .inl rfl
    · exact .inr rfl

section Log

inductive FencingEvent where
  | enforced (l : ActionLease)
  | deEnforced (l : ActionLease)

/-- A PEP and what reached its adapter, newest first. -/
structure Logged (κ : Type) where
  pep : κ
  log : List FencingEvent := []

/-- The lease last applied to the target of this key. -/
def lastApplied (key : String) : List FencingEvent → Option ActionLease
  | [] => none
  | .enforced l :: log => if leaseFencingKey l = key then some l else lastApplied key log
  | .deEnforced _ :: log => lastApplied key log

/-- The lease is the one last applied to its target. -/
def IsLastApplied (l : ActionLease) (log : List FencingEvent) : Prop :=
  (lastApplied (leaseFencingKey l) log).map ActionLease.leaseID = some l.leaseID

/-- Every lease that was de-enforced was the one last applied to its target. -/
def Fenced : List FencingEvent → Prop
  | [] => True
  | .enforced _ :: log => Fenced log
  | .deEnforced l :: log => IsLastApplied l log ∧ Fenced log

instance (l : ActionLease) (log : List FencingEvent) : Decidable (IsLastApplied l log) :=
  inferInstanceAs (Decidable (_ = _))

instance decidableFenced : (log : List FencingEvent) → Decidable (Fenced log)
  | [] => isTrue trivial
  | .enforced _ :: log => decidableFenced log
  | .deEnforced l :: log => @instDecidableAnd _ _ (inferInstanceAs (Decidable (IsLastApplied l log)))
      (decidableFenced log)

theorem mem_of_lastApplied {key : String} {log : List FencingEvent} {l : ActionLease}
    (h : lastApplied key log = some l) : .enforced l ∈ log ∧ leaseFencingKey l = key := by
  induction log with
  | nil => simp [lastApplied] at h
  | cons ev log ih =>
    cases ev with
    | enforced x =>
      rw [lastApplied] at h
      by_cases hkey : leaseFencingKey x = key
      · rw [if_pos hkey] at h
        obtain rfl := Option.some.inj h
        exact ⟨List.mem_cons_self, hkey⟩
      · rw [if_neg hkey] at h
        exact ⟨List.mem_cons_of_mem _ (ih h).1, (ih h).2⟩
    | deEnforced x => exact ⟨List.mem_cons_of_mem _ (ih h).1, (ih h).2⟩

namespace FencedPEP

variable {κ χ ξ : Type} (p : FencedPEP κ χ ξ)

def record (s : κ) (log : List FencingEvent) : (op : PepOp) → op.Answer → List FencingEvent
  | .apply l, .ok _ => .enforced l :: log
  | .apply _, .error _ => log
  | .currentFencingToken _, _ => log
  | .revert l, _ => if p.deEnforces l s then .deEnforced l :: log else log

def handleLogged (x : ξ) (op : PepOp) (s : Logged κ) : op.Answer × Logged κ :=
  ((p.handle x op s.pep).1,
    { pep := (p.handle x op s.pep).2, log := p.record s.pep s.log op (p.handle x op s.pep).1 })

end FencedPEP

end Log

end Kernloom
