import Kernloom.BrokeredPEP
import Kernloom.TargetCodec

/-! Several relationship PEPs behind one: a call goes to every member that is available. -/

namespace Kernloom

inductive RelationshipOp where
  | deny | allow
  deriving DecidableEq

def RelationshipPEP.perform {ρ : Type} (pep : RelationshipPEP ρ) :
    RelationshipOp → RelationshipTarget → ρ → Fallible Unit × ρ
  | .deny => pep.denyRelationship
  | .allow => pep.allowRelationship

/-- A member of the group; `log` has the operations that succeeded there, the last one first. -/
structure RelationshipPEPEntry (ρ : Type) where
  id : String
  pep : Option (RelationshipPEP ρ)
  state : ρ
  log : List (RelationshipOp × RelationshipTarget) := []

abbrev RelationshipPEPGroup (ρ : Type) := List (RelationshipPEPEntry ρ)

variable {ρ : Type}

namespace RelationshipPEPEntry

def available (e : RelationshipPEPEntry ρ) : Bool := e.pep.any (·.available e.state)

/-- The answer of a member, `none` when it is passed over. -/
def call (op : RelationshipOp) (target : RelationshipTarget) (e : RelationshipPEPEntry ρ) :
    Option (Fallible Unit) × RelationshipPEPEntry ρ :=
  match e.pep with
  | none => (none, e)
  | some pep =>
    if ¬ pep.available e.state then (none, e)
    else match pep.perform op target e.state with
      | (.ok (), state) => (some (.ok ()), { e with state, log := (op, target) :: e.log })
      | (.error err, state) => (some (.error err), { e with state })

/-- The last operation on a relationship that succeeded at a member. -/
def LastDone (e : RelationshipPEPEntry ρ) (op : RelationshipOp) (target : RelationshipTarget) : Prop :=
  ∃ pre post t, e.log = pre ++ (op, t) :: post ∧ SameRelationship t target ∧
    ∀ d ∈ pre, ¬ SameRelationship d.2 target

end RelationshipPEPEntry

namespace RelationshipPEPGroup

open RelationshipPEPEntry

structure Tally where
  attempts : Nat := 0
  successes : Nat := 0
  failures : List String := []

def Tally.add (tally : Tally) (id : String) : Option (Fallible Unit) → Tally
  | none => tally
  | some (.ok ()) => { tally with attempts := tally.attempts + 1, successes := tally.successes + 1 }
  | some (.error err) =>
    { tally with attempts := tally.attempts + 1, failures := tally.failures ++ [id ++ ": " ++ err] }

def applyEntries (op : RelationshipOp) (target : RelationshipTarget) (tally : Tally) :
    RelationshipPEPGroup ρ → Tally × RelationshipPEPGroup ρ
  | [] => (tally, [])
  | e :: rest =>
    let (answer, e) := e.call op target
    let (tally, rest) := applyEntries op target (tally.add e.id answer) rest
    (tally, e :: rest)

/-- One success is enough; failures beside it are only logged. -/
def applyRelationship (op : RelationshipOp) (target : RelationshipTarget) (g : RelationshipPEPGroup ρ) :
    Fallible Unit × RelationshipPEPGroup ρ :=
  let (tally, g) := applyEntries op target {} g
  if 0 < tally.successes then (.ok (), g)
  else if tally.attempts = 0 then (.error "relationship pep unavailable", g)
  else (.error (joinText tally.failures "; "), g)

/-- The group as a PEP. -/
def asPEP : RelationshipPEP (RelationshipPEPGroup ρ) where
  available g := g.any (·.available)
  denyRelationship := applyRelationship .deny
  allowRelationship := applyRelationship .allow

/-- What happens to a group: calls, and changes of its members' own between calls. -/
inductive GroupEvent (ρ : Type) where
  | deny (target : RelationshipTarget)
  | allow (target : RelationshipTarget)
  | change (next : Nat → ρ → ρ)

def next (g : RelationshipPEPGroup ρ) : GroupEvent ρ → RelationshipPEPGroup ρ
  | .deny target => (applyRelationship .deny target g).2
  | .allow target => (applyRelationship .allow target g).2
  | .change next => g.mapIdx fun i e => { e with state := next i e.state }

def run (g : RelationshipPEPGroup ρ) (events : List (GroupEvent ρ)) : RelationshipPEPGroup ρ :=
  events.foldl next g

section Calls

variable {op : RelationshipOp} {target : RelationshipTarget}

theorem applyEntries_snd (tally : Tally) (g : RelationshipPEPGroup ρ) :
    (applyEntries op target tally g).2 = g.map fun e => (e.call op target).2 := by
  induction g generalizing tally with
  | nil => rfl
  | cons e rest ih => simp [applyEntries, ih]

theorem applyRelationship_snd (g : RelationshipPEPGroup ρ) :
    (applyRelationship op target g).2 = g.map fun e => (e.call op target).2 := by
  rw [← applyEntries_snd {} g, applyRelationship]
  dsimp only
  split_ifs <;> rfl

theorem lt_successes_iff (tally : Tally) (g : RelationshipPEPGroup ρ) :
    0 < (applyEntries op target tally g).1.successes ↔
      0 < tally.successes ∨ ∃ e ∈ g, (e.call op target).1 = some (.ok ()) := by
  induction g generalizing tally with
  | nil => simp [applyEntries]
  | cons e rest ih =>
    simp only [applyEntries, ih, List.mem_cons, exists_eq_or_imp]
    rcases (e.call op target).1 with _ | (err | ⟨⟩)
    · simp [Tally.add]
    · simp [Tally.add]
    · simp [Tally.add]

theorem applyRelationship_ok_iff (g : RelationshipPEPGroup ρ) :
    (applyRelationship op target g).1 = .ok () ↔ ∃ e ∈ g, (e.call op target).1 = some (.ok ()) := by
  have hiff : 0 < (applyEntries op target {} g).1.successes ↔
      0 < ({} : Tally).successes ∨ ∃ e ∈ g, (e.call op target).1 = some (.ok ()) := lt_successes_iff {} g
  rw [applyRelationship]
  dsimp only
  by_cases hs : 0 < (applyEntries op target {} g).1.successes
  · rw [if_pos hs]
    exact iff_of_true rfl ((hiff.mp hs).resolve_left (by decide))
  · rw [if_neg hs]
    refine iff_of_false ?_ fun h => hs (hiff.mpr (.inr h))
    split_ifs <;> simp

/-- A member that answers with success did the operation last. -/
theorem lastDone_of_ok {e : RelationshipPEPEntry ρ} (h : (e.call op target).1 = some (.ok ())) :
    (e.call op target).2.LastDone op target := by
  unfold call at h ⊢
  cases hpep : e.pep with
  | none => simp [hpep] at h
  | some pep =>
    simp only [hpep] at h ⊢
    by_cases havailable : pep.available e.state = true
    · simp only [havailable, not_true, if_false] at h ⊢
      rcases hperformed : pep.perform op target e.state with ⟨err | ⟨⟩, state⟩
      · simp [hperformed] at h
      · exact ⟨[], e.log, target, rfl, .refl target, by simp⟩
    · simp [havailable] at h

theorem log_of_not_ok {e : RelationshipPEPEntry ρ} (h : (e.call op target).1 ≠ some (.ok ())) :
    (e.call op target).2.log = e.log := by
  unfold call at h ⊢
  cases hpep : e.pep with
  | none => rfl
  | some pep =>
    simp only [hpep] at h ⊢
    by_cases havailable : pep.available e.state = true
    · simp only [havailable, not_true, if_false] at h ⊢
      rcases hperformed : pep.perform op target e.state with ⟨err | ⟨⟩, state⟩
      · rfl
      · simp [hperformed] at h
    · rw [if_pos havailable]

theorem lastDone_unique {e : RelationshipPEPEntry ρ} {op' : RelationshipOp} (h : e.LastDone op target)
    (h' : e.LastDone op' target) : op = op' := by
  obtain ⟨pre, post, t, hlog, hsame, hnone⟩ := h
  obtain ⟨pre', post', t', hlog', hsame', hnone'⟩ := h'
  rw [hlog] at hlog'
  rcases List.append_eq_append_iff.mp hlog' with ⟨mid, hpre, hpost⟩ | ⟨mid, hpre, hpost⟩
  · cases mid with
    | nil => exact congrArg Prod.fst (List.cons.inj hpost).1
    | cons d mid =>
      obtain rfl := (List.cons.inj hpost).1
      exact absurd hsame (hnone' (op, t) (by simp [hpre]))
  · cases mid with
    | nil => exact (congrArg Prod.fst (List.cons.inj hpost).1).symm
    | cons d mid =>
      obtain rfl := (List.cons.inj hpost).1
      exact absurd hsame' (hnone (op', t') (by simp [hpre]))

end Calls

section Partial

/-- A PEP that denies, and cannot allow again. -/
def cannotAllow : RelationshipPEP Unit where
  available _ := true
  denyRelationship _ s := (.ok (), s)
  allowRelationship _ s := (.error "i/o timeout", s)

def obliging : RelationshipPEP Unit where
  available _ := true
  denyRelationship _ s := (.ok (), s)
  allowRelationship _ s := (.ok (), s)

def twoMembers : RelationshipPEPGroup Unit := [⟨"klshield", some obliging, (), []⟩, ⟨"openziti", some cannotAllow, (), []⟩]

def edgeToService : RelationshipTarget := ⟨"10.0.0.1", "svc-a", ∅, ∅⟩

def edgeLease : ActionLease :=
  { leaseID := "lease-1", nodeID := "node-1", adapterID := "kliq-relationship-pep", decisionID := "decision-1"
    proposalID := "", policyID := "", reason := "", action := "enforce.access.deny", level := "block"
    target := "relationship:" ++ edgeToService.canonical, status := .active, fencingToken := "token-1"
    appliedAt := 0, expiresAt := 60 * Duration.second
    metadata := GoMap.ofList [("target_granularity", "relationship"), ("target_value", edgeToService.canonical),
      ("target_attr.subject_id", "10.0.0.1"), ("target_attr.target_id", "svc-a")] }

end Partial

end RelationshipPEPGroup

end Kernloom
