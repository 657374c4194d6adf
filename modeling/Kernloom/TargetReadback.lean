import Kernloom.EnforcedTargets

/-! The target that is read back from a lease: from its metadata, or from the joined text of the target
when one of its parts is empty. -/

namespace Kernloom

open Effects Effects.Program Keyed

section Readback

variable {b : Broker} {r : ActionResolution} {lease : ActionLease}

/-- A target with an empty part whose other part has no separator. -/
structure ActionTarget.Separable (t : ActionTarget) : Prop where
  value : t.granularity = "" → ':' ∉ t.value.toList
  granularity : t.value = "" → ':' ∉ t.granularity.toList

/-- A lease of the resolution and of its target. -/
structure BuiltFor (b : Broker) (r : ActionResolution) (lease : ActionLease) : Prop where
  metadata : WrittenFor b r lease
  target : lease.target = targetString r.target

theorem targetFromLease_of_empty (h : BuiltFor b r lease)
    (hempty : r.target.granularity = "" ∨ r.target.value = "") :
    targetFromLease lease = match cut (targetString r.target) ':' with
      | some (before, after) => ⟨before, after, metadataUnder lease.metadata "target_attr."⟩
      | none => ⟨r.target.granularity, targetString r.target,
      metadataUnder lease.metadata "target_attr."⟩ := by
  obtain ⟨hg, hv⟩ := written_get h.metadata
  unfold targetFromLease
  rw [hg, hv, h.target]
  exact if_pos hempty

/-- Without a granularity the text of the target is its value. -/
theorem value_eq_iff_of_granularity (h : BuiltFor b r lease) (hgran : r.target.granularity = "") :
    (targetFromLease lease).value = r.target.value ↔ ':' ∉ r.target.value.toList := by
  have htext : targetString r.target = r.target.value := if_pos hgran
  rw [targetFromLease_of_empty h (.inl hgran), htext]
  by_cases hsep : ':' ∈ r.target.value.toList
  · obtain ⟨before, after, hcut, hlist⟩ := exists_cut hsep
    rw [hcut]
    refine iff_of_false (fun heq => ?_) (not_not.mpr hsep)
    have hlength := congrArg List.length hlist
    rw [← (heq : after = r.target.value)] at hlength
    simp at hlength
    omega
  · rw [cut_of_notMem hsep]
    exact iff_of_true rfl hsep

/-- Without a value the text of the target ends in the separator. -/
theorem value_eq_iff_of_value (h : BuiltFor b r lease) (hgran : r.target.granularity ≠ "")
    (hvalue : r.target.value = "") :
    (targetFromLease lease).value = "" ↔ ':' ∉ r.target.granularity.toList := by
  have htext : (targetString r.target).toList = r.target.granularity.toList ++ [':'] := by
    rw [targetString, if_neg hgran, hvalue]
    simp
  rw [targetFromLease_of_empty h (.inr hvalue)]
  by_cases hsep : ':' ∈ r.target.granularity.toList
  · obtain ⟨pre, rest, hlist, hpre⟩ := List.eq_append_cons_of_mem hsep
    have hcut : cut (targetString r.target) ':' = some (String.ofList pre, String.ofList (rest ++ [':'])) :=
      cut_append (by simpa using hpre) (by rw [htext, hlist]; simp)
    rw [hcut]
    refine iff_of_false (fun heq => ?_) (not_not.mpr hsep)
    have hempty : (String.ofList (rest ++ [':'])).toList = "".toList := congrArg String.toList heq
    simp at hempty
  · have hcut : cut (targetString r.target) ':' = some (r.target.granularity, "") := cut_append hsep htext
    rw [hcut]
    exact iff_of_true rfl hsep

/-- The value that a revert acts on is that of the target exactly if the target can be told from its
text, and then the whole target is read back. -/
theorem readback_iff (h : BuiltFor b r lease) :
    ((targetFromLease lease).value = r.target.value ↔ r.target.Separable) ∧
      (SameTarget (targetFromLease lease) r.target ↔ r.target.Separable) := by
  have hvalue : (targetFromLease lease).value = r.target.value → r.target.Separable := by
    intro heq
    by_cases hgran : r.target.granularity = ""
    · have hsep := (value_eq_iff_of_granularity h hgran).mp heq
      exact ⟨fun _ => hsep, fun _ => by simp [hgran]⟩
    · refine ⟨fun hempty => absurd hempty hgran, fun hempty => ?_⟩
      exact (value_eq_iff_of_value h hgran hempty).mp (heq.trans hempty)
  have hsame : r.target.Separable → SameTarget (targetFromLease lease) r.target := by
    intro hsep
    by_cases hgran : r.target.granularity = ""
    · have htext : targetString r.target = r.target.value := if_pos hgran
      rw [targetFromLease_of_empty h (.inl hgran), htext, cut_of_notMem (hsep.value hgran)]
      exact ⟨rfl, rfl, written_attributes h.metadata⟩
    · by_cases hempty : r.target.value = ""
      · have htext : (targetString r.target).toList = r.target.granularity.toList ++ [':'] := by
          rw [targetString, if_neg hgran, hempty]
          simp
        have hcut : cut (targetString r.target) ':' = some (r.target.granularity, "") :=
          cut_append (hsep.granularity hempty) htext
        rw [targetFromLease_of_empty h (.inr hempty), hcut]
        exact ⟨rfl, hempty.symm, written_attributes h.metadata⟩
      · exact sameTarget_of_written h.metadata hgran hempty
  exact ⟨⟨hvalue, fun hsep => (hsame hsep).value⟩, ⟨fun hread => hvalue hread.value, hsame⟩⟩

end Readback

section Applications

variable {b : Broker} {r : ActionResolution}

/-- The lease that a call writes or has applied. -/
def BrokerOp.lease : BrokerOp → Option ActionLease
  | .store (.upsert lease) | .pep (.apply lease) => some lease
  | _ => none

/-- An answer that a store can give, in some state and with any fault; the PEP may answer anything. -/
def Answered : (op : BrokerOp) → op.Answer → Prop
  | .store op, ans => ∃ f t, ans = (op.handleWith f t).1
  | _, _ => True

theorem answered_brokerHandle {π : Type} (pepHandle : (op : PepOp) → π → op.Answer × π) (f : Fault)
    (op : BrokerOp)
    (w : World π) : Answered op (brokerHandle pepHandle f op w).1 := by
  cases op with
  | now => trivial
  | store op => exact ⟨f, w.leases, rfl⟩
  | pep op => trivial

theorem target_of_answered {adapterID target action level : String} {lease : ActionLease}
    (h : Answered (.store (.findActive adapterID target action level)) (.ok (some lease))) :
    lease.target = target := by
  obtain ⟨f, t, h⟩ := h
  exact (LeaseTable.findActiveActionLease_spec (StoreOp.findActive_ok h.symm)).2.2.1

/-- Every lease an application writes or has applied is built for its resolution. -/
theorem built_apply (ids : GeneratedIDs) : Uses (WritesOnly (BuiltFor b r)) Answered (b.apply ids r) := by
  refine writesOnly_apply (fun now _ => ⟨writtenFor_newLease ids _ _ now, rfl⟩) fun existing now _ hfound => ?_
  have htarget : existing.target = targetString r.target := target_of_answered hfound
  exact ⟨writtenFor_renewed existing _ now, htarget⟩

/-- Every lease that an application writes or has applied is read back as the target of its resolution
exactly if the target is separable. -/
theorem target_round_trip_iff (b : Broker) (ids : GeneratedIDs) (r : ActionResolution) :
    Uses (fun op => ∀ lease ∈ op.lease,
      ((targetFromLease lease).value = r.target.value ↔ r.target.Separable) ∧
        (SameTarget (targetFromLease lease) r.target ↔ r.target.Separable)) Answered (b.apply ids r) := by
  refine Uses.mono (built_apply ids) (fun op hop lease hlease => ?_) fun _ _ hans => hans
  cases op with
  | now => cases hlease
  | store op => cases op with
    | upsert lease' =>
      obtain rfl := Option.some.inj hlease
      exact readback_iff hop
    | _ => cases hlease
  | pep op => cases op with
    | apply lease' =>
      obtain rfl := Option.some.inj hlease
      exact readback_iff hop
    | _ => cases hlease

/-- An adapter that keeps every lease it applies. -/
def notingPEP : (op : PepOp) → List ActionLease → op.Answer × List ActionLease
  | .apply lease, applied => (.ok lease.fencingToken, applied ++ [lease])
  | .currentFencingToken lease, applied => (.ok lease.fencingToken, applied)
  | .revert _, applied => (.ok (), applied)

def ipv6Broker : Broker where
  nodeID := "node-1"
  adapterID := "kliq-source-pep"
  sha256 := digestsOf
    [("kliq-source-pep|2001:db8::1|enforce.traffic.drop|block|decision-1|" ++
        "lease-00000000-0000-4000-8000-000000000001",
      "23f8500a04d805e71d1bddf2cf3c5a708de40f8a09e57341f0e3c53143a7d47d")]

/-- A block of an IPv6 source whose target has no granularity. -/
def blockIPv6 : ActionResolution :=
  { decisionID := "decision-1"
    allowed := true
    requestedAction := "enforce.traffic.drop"
    requestedLevel := "block"
    executableAction := "enforce.traffic.drop"
    executableLevel := "block"
    target := { granularity := "", value := "2001:db8::1" }
    ttl := 60 * Duration.second }

def blockIDs : GeneratedIDs := ⟨"1", "00000000-0000-4000-8000-000000000001"⟩

def blockedIPv6 : List ActionLease :=
  (exec (brokerHandle notingPEP .none) (ipv6Broker.apply blockIDs blockIPv6) ⟨Table.empty, 0, []⟩).2.pep

/-- The lease of the block is reverted for another address. -/
theorem ipv6_target_cut : ¬ ∀ (b : Broker) (ids : GeneratedIDs) (r : ActionResolution),
    Uses (fun op => ∀ lease ∈ op.lease, SameTarget (targetFromLease lease) r.target) Answered
    (b.apply ids r) := by
  intro hall
  have hread : ∀ lease ∈ blockedIPv6, SameTarget (targetFromLease lease) blockIPv6.target := by
    have hwp : wp (answers (brokerHandle notingPEP .none))
        (fun w => ∀ lease ∈ w.pep, SameTarget (targetFromLease lease) blockIPv6.target)
        (fun _ w => ∀ lease ∈ w.pep, SameTarget (targetFromLease lease) blockIPv6.target)
        (ipv6Broker.apply blockIDs blockIPv6) ⟨Table.empty, 0, []⟩ := by
      refine wp_of_uses (hall ipv6Broker blockIDs blockIPv6) (by simp) ?_
      intro op w ans w' hop hkept hstep
      obtain ⟨rfl, rfl⟩ := Prod.mk.inj hstep
      refine ⟨answered_brokerHandle _ _ op w, ?_⟩
      cases op with
      | now => exact hkept
      | store op => exact hkept
      | pep op => cases op with
        | apply lease =>
          intro l hl
          rcases List.mem_append.mp hl with hl | hl
          · exact hkept l hl
          · obtain rfl := List.mem_singleton.mp hl
            exact hop _ rfl
        | _ => exact hkept
    exact hwp.runs (runs_exec _ _ _)
  have hvalues : blockedIPv6.map (fun lease => (targetFromLease lease).value) = ["db8::1"] := by
    decide +kernel
  obtain ⟨lease, hlease, hvalue⟩ : ∃ lease ∈ blockedIPv6, (targetFromLease lease).value = "db8::1" := by
    rw [← List.mem_map, hvalues]
    exact List.mem_singleton.mpr rfl
  have hsame := (hread lease hlease).value
  rw [hvalue] at hsame
  exact absurd hsame (by decide)

end Applications

end Kernloom
