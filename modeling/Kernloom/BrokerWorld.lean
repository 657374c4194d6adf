import Kernloom.Broker

/-! What a broker's calls do: the lease table, the clock and an adapter whose behaviour is a
parameter. A store call may fail with or without its effect. -/

namespace Kernloom

open Effects Effects.Program

/-- How one call fails, if it does. -/
inductive Fault where
  | none
  | before (err : String)
  | after (err : String)

namespace StoreOp

def handle : (op : StoreOp) → LeaseTable → op.Answer × LeaseTable
  | upsert lease, t => (.ok (), t.upsertActionLease lease)
  | findActive adapterID target action level, t =>
    (.ok (t.findActiveActionLease adapterID target action level), t)
  | listByStatus status, t => (.ok (t.listActionLeasesByStatus status), t)
  | listExpired now, t => (.ok (t.listExpiredActionLeases now), t)
  | updateStatus lease, t => (.ok (), t.updateActionLeaseStatus lease)

def fail (err : String) : (op : StoreOp) → op.Answer
  | upsert _ | findActive .. | listByStatus _ | listExpired _ | updateStatus _ => .error err

def handleWith (op : StoreOp) : Fault → LeaseTable → op.Answer × LeaseTable
  | .none, t => op.handle t
  | .before err, t => (op.fail err, t)
  | .after err, t => (op.fail err, (op.handle t).2)

/-- The operations that only read. -/
def isRead : StoreOp → Prop
  | findActive .. | listByStatus _ | listExpired _ => True
  | upsert _ | updateStatus _ => False

theorem handle_snd_of_isRead {op : StoreOp} (h : op.isRead) (t : LeaseTable) : (op.handle t).2 = t := by
  cases op <;> simp_all [isRead, handle]

theorem handleWith_snd_of_isRead {op : StoreOp} (h : op.isRead) (f : Fault) (t : LeaseTable) :
    (op.handleWith f t).2 = t := by
  cases f with
  | none | after => exact handle_snd_of_isRead h t
  | before => rfl

theorem findActive_ok {adapterID target action level : String} {f : Fault} {t : LeaseTable}
    {found : Option ActionLease}
    (h : (handleWith (.findActive adapterID target action level) f t).1 = .ok found) :
    t.findActiveActionLease adapterID target action level = found := by
  cases f with
  | none => exact Except.ok.inj h
  | before err => exact absurd h (by simp [handleWith, fail])
  | after err => exact absurd h (by simp [handleWith, fail])

end StoreOp

/-- The state that a broker's calls act on. -/
structure World (π : Type) where
  leases : LeaseTable
  clock : Time
  pep : π

variable {π : Type}

/-- The broker's environment: `faulty` says which faults the store may have, and `pepStep` how the
adapter answers. -/
def brokerStep (faulty : Fault → Prop) (pepStep : Environment PepOp PepOp.Answer π) :
    Environment BrokerOp BrokerOp.Answer (World π)
  | .now, w, r, w' => r = w.clock ∧ w' = w
  | .store op, w, r, w' =>
    ∃ f, faulty f ∧ r = (op.handleWith f w.leases).1 ∧
      w' = { w with leases := (op.handleWith f w.leases).2 }
  | .pep op, w, r, w' => ∃ pep, pepStep op w.pep r pep ∧ w' = { w with pep }

/-- The same environment as a function of a fault and of the adapter's answer. -/
def brokerHandle (pepHandle : (op : PepOp) → π → op.Answer × π) (f : Fault) :
    (op : BrokerOp) → World π → op.Answer × World π
  | .now, w => (w.clock, w)
  | .store op, w => ((op.handleWith f w.leases).1, { w with leases := (op.handleWith f w.leases).2 })
  | .pep op, w => ((pepHandle op w.pep).1, { w with pep := (pepHandle op w.pep).2 })

theorem brokerStep_brokerHandle {faulty : Fault → Prop} {pepStep : Environment PepOp PepOp.Answer π}
    {pepHandle : (op : PepOp) → π → op.Answer × π} {f : Fault} (hf : faulty f)
    (hpep : ∀ op s, pepStep op s (pepHandle op s).1 (pepHandle op s).2) (op : BrokerOp) (w : World π) :
    brokerStep faulty pepStep op w (brokerHandle pepHandle f op w).1 (brokerHandle pepHandle f op w).2 := by
  cases op with
  | now => exact ⟨rfl, rfl⟩
  | store op => exact ⟨f, hf, rfl, rfl⟩
  | pep op => exact ⟨_, hpep op w.pep, rfl⟩

/-- The run in which the store does not fail. -/
theorem runs_brokerHandle {α : Type} {faulty : Fault → Prop} {pepHandle : (op : PepOp) → π → op.Answer × π}
    (p : BrokerProgram α) (w : World π) (hf : faulty .none) :
    Runs (brokerStep faulty (answers pepHandle)) p w (exec (brokerHandle pepHandle .none) p w).1
      (exec (brokerHandle pepHandle .none) p w).2 := by
  refine (runs_exec (brokerHandle pepHandle .none) p w).mono fun op s r s' h => ?_
  obtain ⟨rfl, rfl⟩ := Prod.mk.inj h
  exact brokerStep_brokerHandle hf (fun _ _ => rfl) op s

/-- No fault. -/
def faultless (f : Fault) : Prop := f = .none

/-- Any failure. -/
def anyFault (_ : Fault) : Prop := True

section Rules

variable {faulty : Fault → Prop} {pepStep : Environment PepOp PepOp.Answer π} {α : Type}
  {crash : World π → Prop} {post : α → World π → Prop} {w : World π}

theorem wp_now {next : Time → BrokerProgram α} :
    wp (brokerStep faulty pepStep) crash post (call BrokerOp.now next) w ↔
      crash w ∧ wp (brokerStep faulty pepStep) crash post (next w.clock) w := by
  simp only [wp_call, brokerStep]
  exact ⟨fun h => h _ _ ⟨rfl, rfl⟩, by rintro h r s ⟨rfl, rfl⟩; exact h⟩

theorem wp_store {op : StoreOp} {next : op.Answer → BrokerProgram α} :
    wp (brokerStep faulty pepStep) crash post (call (BrokerOp.store op) next) w ↔
      ∀ f, faulty f → crash { w with leases := (op.handleWith f w.leases).2 } ∧
        wp (brokerStep faulty pepStep) crash post (next (op.handleWith f w.leases).1)
          { w with leases := (op.handleWith f w.leases).2 } := by
  simp only [wp_call, brokerStep]
  exact ⟨fun h f hf => h _ _ ⟨f, hf, rfl, rfl⟩, by rintro h r s ⟨f, hf, rfl, rfl⟩; exact h f hf⟩

theorem wp_pep {op : PepOp} {next : op.Answer → BrokerProgram α} :
    wp (brokerStep faulty pepStep) crash post (call (BrokerOp.pep op) next) w ↔
      ∀ r pep, pepStep op w.pep r pep → crash { w with pep } ∧
        wp (brokerStep faulty pepStep) crash post (next r) { w with pep } := by
  simp only [wp_call, brokerStep]
  exact ⟨fun h r pep hp => h _ _ ⟨pep, hp, rfl⟩, by rintro h r s ⟨pep, hp, rfl⟩; exact h r pep hp⟩

end Rules

/-- A program that only reads the table and the clock. -/
def ReadsOnly {α : Type} (p : BrokerProgram α) : Prop :=
  Uses (fun
    | .now => True
    | .store op => op.isRead
    | .pep _ => False) (fun _ _ => True) p

theorem ReadsOnly.bind {α β : Type} {p : BrokerProgram α} {f : α → BrokerProgram β} (hp : ReadsOnly p)
    (hf : ∀ a, ReadsOnly (f a)) : ReadsOnly (p >>= f) := Uses.bind hp hf

end Kernloom
