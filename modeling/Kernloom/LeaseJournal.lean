import Kernloom.BrokerRules

/-! What the broker's programs call, with the leases they call it for: a row keeps its ID, its
target and its token, and only what is journaled is applied. -/

namespace Kernloom

open Effects Effects.Program LeaseTable

section Rows

variable {t t' : LeaseTable} {l : ActionLease}

theorem KeepsRows.rowOf (h : KeepsRows t t') (hl : l ∈ t') : RowOf t l := by
  obtain ⟨row, hrow, hid⟩ := h.2 l hl
  obtain ⟨row', hrow', hid', ht, hk⟩ := h.1 row hrow
  obtain rfl := Keyed.Table.eq_of_key_eq hrow' hl (hid'.trans hid)
  exact ⟨row, hrow, hid, ht.symm, hk.symm⟩

theorem keepsRows_updateStatus (t : LeaseTable) (lease : ActionLease) (f : Fault) :
    KeepsRows t (StoreOp.handleWith (.updateStatus lease) f t).2 := by
  have hupdate : KeepsRows t (t.updateActionLeaseStatus lease) := by
    constructor
    · intro l hl
      refine ⟨_, mem_updateActionLeaseStatus.mpr ⟨l, hl, rfl⟩, ?_⟩
      split_ifs <;> exact ⟨rfl, rfl, rfl⟩
    · intro l hl
      obtain ⟨row, hrow, rfl⟩ := mem_updateActionLeaseStatus.mp hl
      refine ⟨row, hrow, ?_⟩
      split_ifs <;> rfl
  cases f with
  | none | after => exact hupdate
  | before => exact KeepsRows.refl t

theorem Fresh.keeps (h : Fresh t l) (hk : KeepsRows t t') : Fresh t' l := by
  refine ⟨h.nonempty, fun x hx => ?_, fun x hx => ?_⟩
  · obtain ⟨row, hrow, hid, _⟩ := hk.rowOf hx
    exact hid ▸ h.id row hrow
  · obtain ⟨row, hrow, _, _, htoken⟩ := hk.rowOf hx
    exact htoken ▸ h.token row hrow

end Rows

section Journal

/-- The calls that write and apply only leases whose ID, target and token are in a table. -/
def JournalOps (t : LeaseTable) : BrokerOp → Prop
  | .store (.upsert l) | .pep (.apply l) => RowOf t l
  | .pep (.revert _) => False
  | _ => True

/-- The calls of a renewal: it writes only leases that are in the table, and applies none. -/
def RenewalOps (t : LeaseTable) : BrokerOp → Prop
  | .store (.upsert l) => RowOf t l
  | .pep (.apply _) | .pep (.revert _) => False
  | _ => True

theorem RenewalOps.journalOps {t : LeaseTable} {op : BrokerOp} (h : RenewalOps t op) : JournalOps t op := by
  rcases op with _ | op | op
  · exact trivial
  · cases op <;> exact h
  · cases op with
    | apply l | revert l => exact h.elim
    | currentFencingToken l => exact trivial

def JournalAnswers (t : LeaseTable) : (op : BrokerOp) → op.Answer → Prop
  | .store (.findActive ..), .ok (some l) => RowOf t l
  | _, _ => True

variable {b : Broker} {t : LeaseTable}

theorem uses_renewActiveLease (r : ActionResolution) (decisionID target : String)
    (metadata : GoMap String) (now : Time) :
    Uses (RenewalOps t) (JournalAnswers t) (b.renewActiveLease r decisionID target metadata now) := by
  refine uses_renewal (fun op hop => ?_) (fun _ _ => trivial) (fun _ => trivial) fun _ hfound => hfound
  cases op <;> first | exact trivial | exact hop.elim

/-- A creation writes its lease, and then calls the PEP for what it has written. -/
theorem uses_createLease {l : ActionLease} {receipt : EnforcementReceipt} {now : Time}
    {next : Fallible Unit → BrokerProgram Broker.ApplyReturn}
    (h : b.createLease l receipt now = call (BrokerOp.store (.upsert l)) next) (hl : RowOf t l)
    (ans : Fallible Unit) : Uses (JournalOps t) (JournalAnswers t) (next ans) := by
  refine uses_creation h (fun op hop => ?_) (fun _ => trivial) hl ans
  cases op <;> first | exact trivial | exact hop.elim

end Journal

end Kernloom
