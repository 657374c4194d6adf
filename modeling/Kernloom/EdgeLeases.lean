import Kernloom.CanonicalTarget
import Kernloom.EnforcedTargets
import Kernloom.RelationshipDeny
import Kernloom.Transition

/-! Relationship leases and the edge lists of the shield: every active lease has the flow of its
relationship denied, whichever relationships share the flow, as long as no sweep lifts a flow that
another lease still needs. -/

namespace Kernloom

open Effects Effects.Program LeaseTable KlshieldAdapter

section Flows

theorem relationshipEdgeKey_congr {t t' : RelationshipTarget} (h : SameRelationship t t') :
    relationshipEdgeKey t = relationshipEdgeKey t' := by
  have hdim : ∀ short long, relationshipDimension t short long = relationshipDimension t' short long := by
    intro short long
    unfold relationshipDimension
    rw [h.2.2.get, h.2.2.get]
  simp only [relationshipEdgeKey, klshieldRelationshipDimension, hdim, h.1]

/-- The flow that a lease is for. -/
def ActionLease.edge (l : ActionLease) : Option EdgeKey :=
  (relationshipTargetFromActionTarget (targetFromLease l)).bind relationshipEdgeKey

/-- A lease of a relationship with a flow. -/
def EdgeLease (l : ActionLease) : Prop :=
  ∃ t key, l.target = targetString t.proposal ∧ relationshipEdgeKey t = some key ∧ l.edge = some key

theorem edge_of_written {b : Broker} {r : ActionResolution} {l : ActionLease} {t : RelationshipTarget}
    (hw : WrittenFor b r l) (ht : r.target = t.proposal) (hwf : t.WellFormed) :
    l.edge = relationshipEdgeKey t := by
  have haimed : Aimed r.target := ht ▸ .relationship hwf
  have hsame := sameTarget_of_written hw haimed.lease.1 haimed.lease.2
  obtain ⟨t', hdecode, hrel⟩ := decode_proposal hwf
  rw [← ht] at hdecode
  obtain ⟨t'', hlease, hrel'⟩ := relationshipTargetFromActionTarget_congr hsame.granularity.symm
    (fun k => (hsame.attributes k).symm) hdecode
  rw [ActionLease.edge, hlease]
  exact relationshipEdgeKey_congr (hrel'.trans hrel)

theorem targetString_proposal_inj {t t' : RelationshipTarget}
    (h : targetString t.proposal = targetString t'.proposal) : SameRelationship t t' := by
  have hne : targetGranularityRelationship ≠ "" := by decide
  simp only [targetString, RelationshipTarget.proposal, hne, if_false] at h
  exact canonical_inj ((String.append_right_inj _).mp h)

theorem EdgeLease.edge_eq {l l' : ActionLease} (h : EdgeLease l) (h' : EdgeLease l') (ht : l.target = l'.target) :
    l.edge = l'.edge := by
  obtain ⟨t, key, htarget, hkey, hedge⟩ := h
  obtain ⟨t', key', htarget', hkey', hedge'⟩ := h'
  have hsame := targetString_proposal_inj (htarget.symm.trans (ht.trans htarget'))
  rw [relationshipEdgeKey_congr hsame, hkey'] at hkey
  rw [hedge, hedge', hkey]

theorem EdgeLease.target_ne {l : ActionLease} (h : EdgeLease l) : l.target ≠ "" := by
  obtain ⟨t, -, htarget, -⟩ := h
  have hne : targetGranularityRelationship ≠ "" := by decide
  intro hempty
  rw [htarget, targetString, RelationshipTarget.proposal, if_neg hne] at hempty
  have hlength := congrArg (fun s => s.toList.length) hempty
  simp [targetGranularityRelationship] at hlength

end Flows

section Maps

variable {kernel : EdgeKernel} {mode : Nat} {a a' : KlshieldAdapter} {key other : EdgeKey}

/-- The adapter works: the lists are there and take inserts. -/
structure Working (kernel : EdgeKernel) (a : KlshieldAdapter) : Prop where
  deny : a.hasEdgeDeny = true
  allow : a.hasEdgeAllow = true
  rl : a.hasEdgeRL = true
  insert : ∀ m key, ∃ evicts, kernel.insert m key = .ok evicts

/-- A deny of a flow takes effect, and the flows of `others` stay denied. -/
def DenyTakes (kernel : EdgeKernel) (mode : Nat) (a : KlshieldAdapter) (key : EdgeKey)
    (others : EdgeKey → Prop) : Prop :=
  if a.dryRun then a.maps.edgeDenies mode key = true
  else if mode = 2 then a.maps.edgeAllow key = none
  else ∀ other, others other → other ≠ key → ¬ Evicts kernel a.maps.edgeDeny key other

theorem denyEdge4_denies {others : EdgeKey → Prop} (h : denyEdge4 kernel key a = (.ok (), a'))
    (htakes : DenyTakes kernel mode a key others) : a'.maps.edgeDenies mode key = true ∧
      ∀ other, others other → a.maps.edgeDenies mode other = true → a'.maps.edgeDenies mode other = true := by
  obtain ⟨m, hwrite, rfl⟩ := denyEdge4_ok h
  unfold DenyTakes at htakes
  rcases writeEdge4_ok hwrite with ⟨hdry, rfl⟩ | ⟨hdry, hkey, hothers⟩
  · rw [if_pos hdry] at htakes
    exact ⟨htakes, fun other _ hdenied => hdenied⟩
  · rw [if_neg (by simp [hdry])] at htakes
    by_cases hmode : mode = 2
    · rw [if_pos hmode] at htakes
      simp only [ShieldConfig.edgeDenies, hmode, if_true]
      exact ⟨by rw [htakes]; rfl, fun other _ hdenied => hdenied⟩
    · rw [if_neg hmode] at htakes
      simp only [ShieldConfig.edgeDenies, hmode, if_false]
      refine ⟨hkey, fun other hother hdenied => ?_⟩
      by_cases hsame : other = key
      · rw [hsame]
        exact hkey
      · rw [(hothers other hsame).mpr (htakes other hother hsame)]
        exact hdenied

/-- An allow of another flow, or in the deny mode of any, lifts nothing. -/
theorem allowEdge4_keeps (h : allowEdge4 kernel key a = (.ok (), a'))
    (hother : mode = 2 → a.dryRun = false → other ≠ key) (hdenied : a.maps.edgeDenies mode other = true) :
    a'.maps.edgeDenies mode other = true := by
  obtain ⟨m, hwrite, rfl⟩ := allowEdge4_ok h
  by_cases hmode : mode = 2
  · unfold writeEdge4 at hwrite
    cases hdry : a.dryRun with
    | true =>
      rw [if_pos hdry] at hwrite
      obtain rfl := Except.ok.inj hwrite
      exact hdenied
    | false =>
      rw [if_neg (by simp [hdry])] at hwrite
      split_ifs at hwrite
      cases hinsert : kernel.insert a.maps.edgeAllow key with
      | error err => simp [hinsert] at hwrite
      | ok evicts =>
        rw [hinsert] at hwrite
        obtain rfl := Except.ok.inj hwrite
        simp only [ShieldConfig.edgeDenies, hmode, if_true] at hdenied ⊢
        rw [Function.update_of_ne (hother hmode hdry)]
        split_ifs
        · rfl
        · exact hdenied
  · simp only [ShieldConfig.edgeDenies, hmode, if_false] at hdenied ⊢
    exact hdenied

theorem allowEdge4_works (h : Working kernel a) : ∃ a', allowEdge4 kernel key a = (.ok (), a') := by
  obtain ⟨evicts, hinsert⟩ := h.insert a.maps.edgeAllow key
  unfold allowEdge4 writeEdge4
  by_cases hdry : a.dryRun = true
  · simp [hdry]
  · simp [hdry, h.allow, hinsert]

theorem Working.congr (h : Working kernel a) (hdeny : a'.hasEdgeDeny = a.hasEdgeDeny)
    (hallow : a'.hasEdgeAllow = a.hasEdgeAllow) (hrl : a'.hasEdgeRL = a.hasEdgeRL) : Working kernel a' :=
  ⟨hdeny.trans h.deny, hallow.trans h.allow, hrl.trans h.rl, h.insert⟩

end Maps

section Held

variable {kernel : EdgeKernel} {mode : Nat} {a a' : KlshieldAdapter} {t t' : LeaseTable}
  {due due' : List ActionLease} {l new row lease : ActionLease}

/-- Every active lease has a flow, and but for those that are due its flow is denied. -/
def EdgesHeld (mode : Nat) (due : List ActionLease) (a : KlshieldAdapter) (t : LeaseTable) : Prop :=
  ∀ l ∈ t, l.status = .active → EdgeLease l ∧
    (l ∉ due → ∀ key, l.edge = some key → a.maps.edgeDenies mode key = true)

theorem edge_setStatus : (setStatus lease row).edge = row.edge := rfl

theorem EdgesHeld.write (h : EdgesHeld mode due a t) (hw : Writes t new t')
    (hdue : ∀ l ∈ due, l.leaseID ≠ new.leaseID → l ∈ due')
    (hnew : new.status = .active → EdgeLease new ∧
      (new ∉ due' → ∀ key, new.edge = some key → a.maps.edgeDenies mode key = true)) :
    EdgesHeld mode due' a t' := by
  intro l hl hs
  rcases (hw l).mp hl with rfl | ⟨hl, hne⟩
  · exact hnew hs
  · obtain ⟨hedge, hdenied⟩ := h l hl hs
    exact ⟨hedge, fun hnot => hdenied fun hmem => hnot (hdue l hmem hne)⟩

theorem EdgesHeld.inactive (h : EdgesHeld mode due a t) (hw : Writes t new t')
    (hdue : ∀ l ∈ due, l.leaseID ≠ new.leaseID → l ∈ due') (hs : new.status ≠ .active) :
    EdgesHeld mode due' a t' := h.write hw hdue fun hactive => absurd hactive hs

theorem EdgesHeld.keep (h : EdgesHeld mode due a t)
    (hkeep : ∀ l ∈ t, l.status = .active → l ∉ due' → ∀ key, l.edge = some key →
      (l ∉ due → a.maps.edgeDenies mode key = true) → a'.maps.edgeDenies mode key = true) :
    EdgesHeld mode due' a' t := by
  intro l hl hs
  obtain ⟨hedge, hdenied⟩ := h l hl hs
  exact ⟨hedge, fun hnot key hkey => hkeep l hl hs hnot key hkey fun hd => hdenied hd key hkey⟩

/-- The flows that some active lease is for. -/
def LeasedFlow (t : LeaseTable) (key : EdgeKey) : Prop := ∃ l ∈ t, l.status = .active ∧ l.edge = some key

theorem DenyTakes.mono {key : EdgeKey} {others others' : EdgeKey → Prop} (h : DenyTakes kernel mode a key others)
    (hsub : ∀ other, others' other → others other) : DenyTakes kernel mode a key others' := by
  unfold DenyTakes at h ⊢
  split_ifs at h ⊢
  · exact h
  · exact h
  · exact fun other hother => h other (hsub other hother)

end Held

section Calls

variable {kernel : EdgeKernel} {a a' : KlshieldAdapter} {target : RelationshipTarget} {key : EdgeKey}
  {s : BrokeredRelationshipPEP KlshieldAdapter} {l : ActionLease} {now : Time}

theorem denyEdge4_error {err : String} (h : denyEdge4 kernel key a = (.error err, a')) : a' = a := by
  unfold denyEdge4 at h
  split at h
  · exact (Prod.mk.inj h).2.symm
  · cases h

theorem Working.denyEdge4 (h : Working kernel a) (hok : denyEdge4 kernel key a = (.ok (), a')) :
    Working kernel a' := by
  obtain ⟨m, -, rfl⟩ := denyEdge4_ok hok
  exact h.congr rfl rfl rfl

theorem Working.allowEdge4 (h : Working kernel a) (hok : allowEdge4 kernel key a = (.ok (), a')) :
    Working kernel a' := by
  obtain ⟨m, -, rfl⟩ := allowEdge4_ok hok
  exact h.congr rfl rfl rfl

/-- An application at the PEP denies the flow of the target it was begun for, or fails and changes
nothing. -/
theorem handle_apply (h : Working kernel s.adapter) (hactive : s.active = some target) {ans : Fallible String}
    {s' : BrokeredRelationshipPEP KlshieldAdapter}
    (hs : BrokeredRelationshipPEP.handle (relationshipPEP kernel) now (.apply l) s = (ans, s')) :
    ((∃ err, ans = .error err) ∧ s'.adapter = s.adapter) ∨ (ans = .ok l.fencingToken ∧
      ∃ key, relationshipEdgeKey target = some key ∧
        KlshieldAdapter.denyEdge4 kernel key s.adapter = (.ok (), s'.adapter)) := by
  have havailable : (relationshipPEP kernel).available s.adapter = true := by
    simp [relationshipPEP, h.deny, h.rl]
  simp only [BrokeredRelationshipPEP.handle, havailable, not_true, if_false, hactive] at hs
  cases hkey : relationshipEdgeKey target with
  | none =>
    simp only [relationshipPEP, denyRelationship, onEdge, hkey] at hs
    obtain ⟨rfl, rfl⟩ := Prod.mk.inj hs
    exact .inl ⟨⟨_, rfl⟩, rfl⟩
  | some key =>
    simp only [relationshipPEP, denyRelationship, onEdge, hkey] at hs
    rcases hdeny : KlshieldAdapter.denyEdge4 kernel key s.adapter with ⟨err | ⟨⟩, a⟩
    · rw [hdeny] at hs
      obtain ⟨rfl, rfl⟩ := Prod.mk.inj hs
      exact .inl ⟨⟨_, rfl⟩, denyEdge4_error hdeny⟩
    · rw [hdeny] at hs
      obtain ⟨rfl, rfl⟩ := Prod.mk.inj hs
      exact .inr ⟨rfl, key, rfl, hdeny⟩

/-- The revert of a lease with a flow writes that flow to the allowlist. -/
theorem handle_revert (h : Working kernel s.adapter) (hedge : EdgeLease l) {ans : Fallible Unit}
    {s' : BrokeredRelationshipPEP KlshieldAdapter}
    (hs : BrokeredRelationshipPEP.handle (relationshipPEP kernel) now (.revert l) s = (ans, s')) :
    ans = .ok () ∧ s'.tokens = s.tokens.clearCurrent l ∧ ∃ key, l.edge = some key ∧
      KlshieldAdapter.allowEdge4 kernel key s.adapter = (.ok (), s'.adapter) := by
  have havailable : (relationshipPEP kernel).available s.adapter = true := by
    simp [relationshipPEP, h.deny, h.rl]
  obtain ⟨-, key, -, -, hkey⟩ := hedge
  obtain ⟨t, ht, hkey'⟩ := Option.bind_eq_some_iff.mp hkey
  obtain ⟨a, hallow⟩ : ∃ a, allowEdge4 kernel key s.adapter = (.ok (), a) := allowEdge4_works h
  simp only [BrokeredRelationshipPEP.handle, havailable, not_true, if_false, ht] at hs
  simp only [relationshipPEP, allowRelationship, onEdge, hkey', hallow] at hs
  obtain ⟨rfl, rfl⟩ := Prod.mk.inj hs
  exact ⟨rfl, rfl, key, hkey, hallow⟩

end Calls

section Apply

variable {σ : Type} {kernel : EdgeKernel} {mode : Nat} {e : BrokeredActionExecutor σ KlshieldAdapter}
  {clock now : Time} {b : Broker} {r : ActionResolution} {t target : RelationshipTarget}
  {w : NodeWorld σ KlshieldAdapter}

/-- The environment of a relationship broker whose store does not fail. -/
abbrev edgeEnv (e : BrokeredActionExecutor σ KlshieldAdapter) (clock : Time) :
    Environment BrokerOp BrokerOp.Answer (NodeWorld σ KlshieldAdapter) :=
  brokerStep faultless (answers (e.relationshipHandle clock))

/-- The flow of every active lease is denied, by an adapter that works. -/
structure EdgesGuarded (kernel : EdgeKernel) (mode : Nat) (w : NodeWorld σ KlshieldAdapter) : Prop where
  held : EdgesHeld mode [] w.pep.relationship.adapter w.leases
  working : Working kernel w.pep.relationship.adapter

/-- The state of an application before it reaches the PEP. -/
structure Applying (kernel : EdgeKernel) (mode : Nat) (target : RelationshipTarget)
    (w : NodeWorld σ KlshieldAdapter) : Prop extends EdgesGuarded kernel mode w where
  active : w.pep.relationship.active = some target
  takes : ∀ key, relationshipEdgeKey target = some key →
    DenyTakes kernel mode w.pep.relationship.adapter key (LeasedFlow w.leases)

theorem Applying.write {leases : LeaseTable} {new : ActionLease} {ans : Fallible Unit}
    (h : Applying kernel mode target w) (hw : WriteOutcome w.leases new ans leases)
    (hnew : new.status = .active → EdgeLease new ∧ ∃ l ∈ w.leases, l.status = .active ∧ l.edge = new.edge) :
    Applying kernel mode target { w with leases := leases } := by
  rcases hw with ⟨rfl, -⟩ | hw
  · exact h
  refine ⟨⟨h.held.write hw (fun _ hl => absurd hl List.not_mem_nil) fun hs => ?_, h.working⟩, h.active,
    fun key hkey => (h.takes key hkey).mono fun other hother => ?_⟩
  · obtain ⟨hedge, l, hl, hactive, hsame⟩ := hnew hs
    refine ⟨hedge, fun _ key hkey => (h.held l hl hactive).2 List.not_mem_nil key ?_⟩
    rw [hsame, hkey]
  · obtain ⟨x, hx, hactive, hedge⟩ := hother
    rcases (hw x).mp hx with rfl | ⟨hx, -⟩
    · obtain ⟨-, l, hl, hs, hsame⟩ := hnew hactive
      exact ⟨l, hl, hs, hsame.trans hedge⟩
    · exact ⟨x, hx, hactive, hedge⟩

theorem wp_renew_edges (h : Applying kernel mode target w) (ht : r.target = t.proposal) (hwf : t.WellFormed)
    (decisionID : String) : wp (edgeEnv e clock) (Applying kernel mode target) (fun _ => Applying kernel mode target)
      (b.renewActiveLease r decisionID (targetString r.target) (b.leaseMetadata r) now) w := by
  have hreads : ∀ existing ans pep,
      answers (e.relationshipHandle clock) (.currentFencingToken existing) w.pep ans pep → pep = w.pep :=
    fun _ _ _ hpep => (Prod.mk.inj hpep).2.symm
  refine wp_renewActiveLease h (fun existing ans pep hpep => ?_) fun renewal w' hstep => ?_
  · obtain rfl := hreads existing ans pep hpep
    exact h
  rw [and_self]
  cases hstep with
  | unread => exact h
  | absent => exact h
  | ended hfind hends hid hf =>
    obtain ⟨hmem, -⟩ := findActiveActionLease_spec hfind
    obtain rfl := hends.pep_eq (hreads _)
    exact h.write (updateStatus_outcome hmem hid.symm _) fun hactive => absurd hactive hends.not_active
  | unasked hfind hpep =>
    obtain rfl := hreads _ _ _ hpep
    exact h
  | spent hfind hstays =>
    obtain rfl := hreads _ _ _ hstays.token
    exact h
  | @renewed existing pep f hfind hstays =>
    obtain ⟨hmem, -, htarget, -, -, hs⟩ := findActiveActionLease_spec hfind
    obtain rfl := hreads _ _ _ hstays.token
    obtain ⟨t', key, htarget', hkey, hold⟩ := (h.held existing hmem hs).1
    have hrenewed := edge_of_written (writtenFor_renewed (b := b) existing decisionID now) ht hwf
    rw [htarget, ht] at htarget'
    have hkey' : relationshipEdgeKey t = some key := by
      rw [relationshipEdgeKey_congr (targetString_proposal_inj htarget'), hkey]
    have hlease : EdgeLease (Broker.renewed existing r decisionID (b.leaseMetadata r) now) :=
      ⟨t, key, by rw [Broker.renewed, htarget, ht], hkey', hrenewed.trans hkey'⟩
    exact h.write (upsert_outcome _ _ f) fun _ => ⟨hlease, existing, hmem, hs, by rw [hold, hrenewed, hkey']⟩

theorem EdgesGuarded.write {leases : LeaseTable} {new : ActionLease} {ans : Fallible Unit}
    (h : EdgesGuarded kernel mode w) (hw : WriteOutcome w.leases new ans leases)
    (hnew : new.status = .active → EdgeLease new ∧
      ∀ key, new.edge = some key → w.pep.relationship.adapter.maps.edgeDenies mode key = true) :
    EdgesGuarded kernel mode { w with leases := leases } := by
  rcases hw with ⟨rfl, -⟩ | hw
  · exact h
  · exact ⟨h.held.write hw (fun _ hl => absurd hl List.not_mem_nil) fun hs =>
      ⟨(hnew hs).1, fun _ => (hnew hs).2⟩, h.working⟩

theorem wp_supersede_edges (h : EdgesGuarded kernel mode w) (applied : ActionLease) :
    wp (edgeEnv e clock) (EdgesGuarded kernel mode) (fun _ => EdgesGuarded kernel mode)
      (b.supersedeWeakerActiveLeases applied now) w := by
  refine wp_supersedeWeakerActiveLeases h fun w lease f err h hf hl _ _ _ _ _ => ?_
  refine h.write (@updateStatus_outcome w.leases { lease with
    status := .superseded, lastError := err, revertedAt := some now } lease hl rfl f) fun hs => ?_
  exact absurd hs (by simp [setStatus])

theorem wp_createLease_edges {lease : ActionLease} {receipt : EnforcementReceipt}
    (h : Applying kernel mode target w) (he : e.relationshipPEP = relationshipPEP kernel)
    (hpending : lease.status = .pending) (htarget : lease.target = targetString t.proposal)
    (hedge : lease.edge = relationshipEdgeKey t) (hsame : SameRelationship t target) :
    wp (edgeEnv e clock) (EdgesGuarded kernel mode) (fun _ => EdgesGuarded kernel mode) (b.createLease lease receipt now) w := by
  have hkey : relationshipEdgeKey t = relationshipEdgeKey target := relationshipEdgeKey_congr hsame
  simp only [Broker.createLease, perform_bind]
  refine wp_upsert fun ans leases hw => ?_
  have hpend := h.write hw fun hs => absurd hs (by simp [hpending])
  refine ⟨hpend.toEdgesGuarded, ?_⟩
  rcases ans with err | ⟨⟩
  · exact hpend.toEdgesGuarded
  have hmem : lease ∈ leases := by
    rcases hw with ⟨-, hne⟩ | hw
    · exact absurd rfl hne
    · exact (hw lease).mpr (.inl rfl)
  refine wp_pep.mpr fun ans pep hpep => ?_
  have hhandle : BrokeredRelationshipPEP.handle (relationshipPEP kernel) clock (.apply lease) w.pep.relationship =
      (ans, pep.relationship) := by
    obtain ⟨rfl, rfl⟩ := Prod.mk.inj hpep
    rw [← he]
    rfl
  rcases handle_apply h.working h.active hhandle with ⟨⟨err, rfl⟩, hadapter⟩ | ⟨rfl, key, htargetKey, hdeny⟩
  · have hsame : EdgesGuarded kernel mode ⟨leases, w.clock, pep⟩ := by
      refine ⟨?_, ?_⟩
      · show EdgesHeld mode [] pep.relationship.adapter leases
        rw [hadapter]
        exact hpend.held
      · show Working kernel pep.relationship.adapter
        rw [hadapter]
        exact h.working
    refine ⟨hsame, ?_⟩
    refine wp_updateStatus hmem rfl fun ans leases' hw' => ?_
    have hfailed := hsame.write hw' fun hs => absurd hs (by simp [setStatus])
    exact ⟨hfailed, hfailed⟩
  · obtain ⟨hdenied, hothers⟩ := denyEdge4_denies hdeny (hpend.takes key htargetKey)
    have hguarded : EdgesGuarded kernel mode ⟨leases, w.clock, pep⟩ := by
      refine ⟨hpend.held.keep fun l hl hs _ key' hkey' hold => ?_, h.working.denyEdge4 hdeny⟩
      exact hothers key' ⟨l, hl, hs, hkey'⟩ (hold List.not_mem_nil)
    refine ⟨hguarded, ?_⟩
    dsimp only
    rw [if_neg fun hne => hne.2 rfl]
    refine wp_updateStatus hmem rfl fun ans leases' hw' => ?_
    have hactive := hguarded.write hw' fun _ => by
      rw [edge_setStatus, hedge, hkey, htargetKey]
      refine ⟨⟨t, key, htarget, hkey.trans htargetKey, ?_⟩, fun key' hkey' => ?_⟩
      · rw [edge_setStatus, hedge, hkey, htargetKey]
      · rw [← Option.some.inj hkey']
        exact hdenied
    refine ⟨hactive, ?_⟩
    rcases ans with err | ⟨⟩
    · exact hactive
    rw [wp_bind]
    refine wp_mono (wp_supersede_edges hactive _) fun ans w' hw' => ?_
    cases ans <;> exact hw'

/-- An application whose deny takes effect keeps every leased flow denied, at every moment. -/
theorem wp_apply_edges (h : Applying kernel mode target w) (he : e.relationshipPEP = relationshipPEP kernel)
    (ht : r.target = t.proposal) (hwf : t.WellFormed) (hsame : SameRelationship t target) (ids : GeneratedIDs) :
    wp (edgeEnv e clock) (EdgesGuarded kernel mode) (fun _ => EdgesGuarded kernel mode) (b.apply ids r) w := by
  refine wp_apply h.toEdgesGuarded (fun _ _ => h.toEdgesGuarded) fun _ _ _ _ receipt => ?_
  refine wp_mono (wp_crash (wp_renew_edges h ht hwf _) fun _ hw => hw.toEdgesGuarded) fun renewal w' hw' => ?_
  rcases renewal with ⟨lease, renewed, skipReason, _ | err⟩
  · simp only [Broker.afterRenewal]
    split_ifs
    · exact hw'.toEdgesGuarded
    · exact hw'.toEdgesGuarded
    · refine wp_createLease_edges hw' he rfl ?_ ?_ hsame
      · rw [← ht]
        rfl
      · exact edge_of_written (writtenFor_newLease ids _ _ w.clock) ht hwf
  · exact hw'.toEdgesGuarded

end Apply

section Sweep

variable {σ : Type} {kernel : EdgeKernel} {mode : Nat} {e : BrokeredActionExecutor σ KlshieldAdapter}
  {clock now : Time} {b : Broker} {w : NodeWorld σ KlshieldAdapter} {rest due : List ActionLease}
  {l : ActionLease}

/-- In the allow mode, no lease that is due and in force shares its flow with an active lease that is not. -/
def Clear (mode : Nat) (due : List ActionLease) (w : NodeWorld σ KlshieldAdapter) : Prop :=
  mode = 2 → w.pep.relationship.adapter.dryRun = false → ∀ x ∈ due, ∀ y ∈ w.leases, y.status = .active →
    y ∉ due → y.edge = x.edge → w.pep.relationship.tokens.current x ≠ x.fencingToken

/-- The state of a sweep with the leases of `rest` still to be reverted. -/
structure Sweeping (kernel : EdgeKernel) (mode : Nat) (rest : List ActionLease)
    (w : NodeWorld σ KlshieldAdapter) : Prop where
  held : EdgesHeld mode rest w.pep.relationship.adapter w.leases
  working : Working kernel w.pep.relationship.adapter
  rows : ∀ x ∈ rest, x ∈ w.leases ∧ x.status = .active
  clear : Clear mode rest w

theorem wp_endLease {α : Type} {crash : NodeWorld σ KlshieldAdapter → Prop} {post : α → NodeWorld σ KlshieldAdapter → Prop}
    {lease row : ActionLease} {next : Fallible Unit → BrokerProgram α} (hrow : row ∈ w.leases)
    (hid : row.leaseID = lease.leaseID)
    (h : ∀ leases, Writes w.leases (setStatus lease row) leases → crash { w with leases := leases } ∧
      wp (edgeEnv e clock) crash post (next (.ok ())) { w with leases := leases }) :
    wp (edgeEnv e clock) crash post (call (BrokerOp.store (.updateStatus lease)) next) w := by
  refine wp_store.mpr fun f hf => ?_
  obtain rfl : f = .none := hf
  exact h _ (writes_update hrow hid)

theorem EdgesHeld.mono {a : KlshieldAdapter} {t : LeaseTable} {due' : List ActionLease} (h : EdgesHeld mode due a t)
    (hsub : due ⊆ due') : EdgesHeld mode due' a t := h.keep fun _ _ _ hnot _ _ hold => hold fun hl => hnot (hsub hl)

/-- A lease that is due ends, its token being in force or not. -/
theorem Sweeping.ended {leases : LeaseTable} {lease : ActionLease} {s : BrokeredRelationshipPEP KlshieldAdapter}
    (h : Sweeping kernel mode (l :: rest) w) (hl : l.leaseID ∉ rest.map ActionLease.leaseID)
    (hw : Writes w.leases (setStatus lease l) leases) (hs : lease.status ≠ .active)
    (hheld : EdgesHeld mode (l :: rest) s.adapter w.leases) (hworking : Working kernel s.adapter)
    (hdry : s.adapter.dryRun = w.pep.relationship.adapter.dryRun)
    (htokens : s.tokens = w.pep.relationship.tokens ∨
      (w.pep.relationship.tokens.current l = l.fencingToken ∧ s.tokens = w.pep.relationship.tokens.clearCurrent l)) :
    Sweeping kernel mode rest { w with leases := leases, pep := { w.pep with relationship := s } } := by
  have hkept : ∀ x ∈ rest, x.leaseID ≠ l.leaseID := fun x hx hid => hl (hid ▸ List.mem_map_of_mem hx)
  refine ⟨hheld.inactive hw ?_ hs, hworking, fun x hx => ?_, ?_⟩
  · intro x hx hne
    rcases List.mem_cons.mp hx with rfl | hx
    · exact absurd rfl hne
    · exact hx
  · obtain ⟨hmem, hactive⟩ := h.rows x (List.mem_cons_of_mem l hx)
    exact ⟨(hw x).mpr (.inr ⟨hmem, hkept x hx⟩), hactive⟩
  · intro hmode hdry' x hx y hy hactive hnot hedge
    have hclear := h.clear hmode (hdry.symm.trans hdry')
    have hy' : y ∈ w.leases ∧ y ∉ l :: rest := by
      rcases (hw y).mp hy with rfl | ⟨hy, hne⟩
      · exact absurd hactive hs
      · exact ⟨hy, fun hmem => (List.mem_cons.mp hmem).elim (fun heq => hne (heq ▸ rfl)) hnot⟩
    have hx' := hclear x (List.mem_cons_of_mem l hx) y hy'.1 hactive hy'.2 hedge
    rcases htokens with htokens | ⟨hcurrent, htokens⟩
    · rw [htokens]
      exact hx'
    · -- a lease of the same target has the flow of the one that was in force
      have hxlease := (h.held x (h.rows x (List.mem_cons_of_mem l hx)).1 (h.rows x (List.mem_cons_of_mem l hx)).2).1
      have hllease := (h.held l (h.rows l List.mem_cons_self).1 (h.rows l List.mem_cons_self).2).1
      have hother : x.target ≠ l.target := fun ht => hclear l List.mem_cons_self y hy'.1 hactive hy'.2
        (hedge.trans (hxlease.edge_eq hllease ht)) hcurrent
      have hkey : leaseFencingKey x ≠ leaseFencingKey l := by
        rw [leaseFencingKey, leaseFencingKey, if_pos hxlease.target_ne, if_pos hllease.target_ne]
        exact hother
      have hget : GoMap.get s.tokens (leaseFencingKey x) = w.pep.relationship.tokens.get (leaseFencingKey x) := by
        rw [htokens, FencingTokens.get_clearCurrent, if_neg fun hh => hkey hh.1]
      rw [FencingTokens.current, hget]
      exact hx'

theorem wp_revert_edges (h : Sweeping kernel mode (l :: rest) w) (he : e.relationshipPEP = relationshipPEP kernel)
    (hl : l.leaseID ∉ rest.map ActionLease.leaseID) :
    wp (edgeEnv e clock) (fun w => EdgesHeld mode (l :: rest) w.pep.relationship.adapter w.leases)
      (fun ret w => ret.err = none ∧ Sweeping kernel mode rest w) (b.revert l) w := by
  obtain ⟨hrow, hactive⟩ := h.rows l List.mem_cons_self
  have hedge := (h.held l hrow hactive).1
  simp only [Broker.revert, perform_bind]
  refine wp_now.mpr ⟨h.held, wp_pep.mpr fun ans pep hpep => ?_⟩
  obtain ⟨rfl, rfl⟩ := Prod.mk.inj hpep
  refine ⟨h.held, ?_⟩
  by_cases hcurrent : w.pep.relationship.tokens.current l ≠ l.fencingToken
  · dsimp only [BrokeredRelationshipPEP.handle]
    rw [if_pos hcurrent]
    refine wp_endLease hrow rfl fun leases hw => ?_
    have hended := h.ended hl hw (by simp) h.held h.working rfl (.inl rfl)
    exact ⟨hended.held.mono (List.subset_cons_self l rest), rfl, hended⟩
  · dsimp only [BrokeredRelationshipPEP.handle]
    rw [if_neg hcurrent]
    refine wp_pep.mpr fun ans pep hpep => ?_
    have hhandle : BrokeredRelationshipPEP.handle (relationshipPEP kernel) clock (.revert l) w.pep.relationship =
        (ans, pep.relationship) := by
      obtain ⟨rfl, rfl⟩ := Prod.mk.inj hpep
      rw [← he]
      rfl
    have hsource : pep = { w.pep with relationship := pep.relationship } := by
      obtain ⟨rfl, rfl⟩ := Prod.mk.inj hpep
      rfl
    obtain ⟨rfl, htokens, key, hkey, hallow⟩ := handle_revert h.working hedge hhandle
    have hheld : EdgesHeld mode (l :: rest) pep.relationship.adapter w.leases := by
      refine h.held.keep fun y hy hs hnot key' hkey' hold => ?_
      refine allowEdge4_keeps hallow (fun hmode hdry hsame => ?_) (hold hnot)
      exact h.clear hmode hdry l List.mem_cons_self y hy hs hnot (by rw [hkey', hkey, hsame]) (not_not.mp hcurrent)
    have hdry : pep.relationship.adapter.dryRun = w.pep.relationship.adapter.dryRun := by
      obtain ⟨m, -, hadapter⟩ := allowEdge4_ok hallow
      rw [hadapter]
    refine ⟨hheld, ?_⟩
    refine wp_endLease hrow rfl fun leases hw => ?_
    have hended := h.ended hl hw (by simp) hheld (h.working.allowEdge4 hallow) hdry
      (.inr ⟨not_not.mp hcurrent, htokens⟩)
    rw [← hsource] at hended
    exact ⟨hended.held.mono (List.subset_cons_self l rest), rfl, hended⟩

theorem wp_revertAll_edges (he : e.relationshipPEP = relationshipPEP kernel) (hsub : rest ⊆ due)
    (hnodup : (rest.map ActionLease.leaseID).Nodup) (h : Sweeping kernel mode rest w)
    (receipts : List EnforcementReceipt) :
    wp (edgeEnv e clock) (fun w => EdgesHeld mode due w.pep.relationship.adapter w.leases)
      (fun _ w => EdgesGuarded kernel mode w) (b.revertAll receipts rest) w := by
  induction rest generalizing w receipts with
  | nil => exact ⟨h.held, h.working⟩
  | cons l rest ih =>
    rw [List.map_cons, List.nodup_cons] at hnodup
    rw [Broker.revertAll, wp_bind]
    refine wp_mono (wp_crash (wp_revert_edges h he hnodup.1) fun _ hw => hw.mono hsub) ?_
    rintro ⟨receipt, err⟩ w' ⟨rfl, hw'⟩
    exact ih (fun x hx => hsub (List.mem_cons_of_mem l hx)) hnodup.2 hw' _

/-- A sweep that no due lease disturbs keeps the flows of all leases that are not due denied. -/
theorem wp_sweep_edges (h : EdgesGuarded kernel mode w) (he : e.relationshipPEP = relationshipPEP kernel)
    (hclear : Clear mode (w.leases.listExpiredActionLeases now) w) :
    wp (edgeEnv e clock) (fun w' => EdgesHeld mode (w.leases.listExpiredActionLeases now)
        w'.pep.relationship.adapter w'.leases)
      (fun _ w' => EdgesGuarded kernel mode w') (b.revertExpired now) w := by
  have hheld : EdgesHeld mode (w.leases.listExpiredActionLeases now) w.pep.relationship.adapter w.leases :=
    h.held.mono (List.nil_subset _)
  rw [Broker.revertExpired]
  refine wp_store.mpr fun f hf => ?_
  obtain rfl : f = .none := hf
  refine ⟨hheld, ?_⟩
  refine wp_revertAll_edges he (fun _ hx => hx) (nodup_listExpiredActionLeases w.leases now)
    ⟨hheld, h.working, fun x hx => ?_, hclear⟩ []
  exact ⟨(mem_listExpiredActionLeases.mp hx).1, (mem_listExpiredActionLeases.mp hx).2.1⟩

end Sweep

section Runs

open Transition

variable {σ : Type}

/-- A node whose relationship PEP is the shield adapter. -/
structure ShieldNode (σ : Type) where
  sourcePEP : SourcePEP σ
  params : EnforcementParams := {}
  sourceBroker : Broker
  kernel : EdgeKernel
  relationshipBroker : Broker

def ShieldNode.executor (n : ShieldNode σ) : BrokeredActionExecutor σ KlshieldAdapter :=
  { sourcePEP := n.sourcePEP, params := n.params, sourceBroker := n.sourceBroker
    relationshipPEP := relationshipPEP n.kernel, relationshipBroker := some n.relationshipBroker }

/-- Applications of relationships, the two halves of the sweep of expired leases, and time. -/
inductive EdgeEvent where
  | apply (ids : GeneratedIDs) (target : RelationshipTarget) (r : ActionResolution) (now : Time)
  | sweep (now : Time)
  | sourceSweep (now : Time)
  | clock (now : Time)

variable (n : ShieldNode σ)

def edgeStep (w : NodeWorld σ KlshieldAdapter) : EdgeEvent → NodeWorld σ KlshieldAdapter
  | .apply ids target r now =>
    (n.executor.applyRelationship ids target r now w).2
  | .sweep now => (exec (brokerHandle (n.executor.relationshipHandle w.clock) .none)
      (n.relationshipBroker.revertExpired now) w).2
  | .sourceSweep now => (n.executor.revertExpiredSources now w).2
  | .clock now => { w with clock := now }

/-- The states between two calls of an event. -/
inductive EdgeMoment (w : NodeWorld σ KlshieldAdapter) : EdgeEvent → NodeWorld σ KlshieldAdapter → Prop
  | apply {ids : GeneratedIDs} {target : RelationshipTarget} {r : ActionResolution} {now : Time}
      {t : NodeWorld σ KlshieldAdapter} : r.allowed = true → r.executableLevel = "block" → 0 < r.ttl →
      Stops (answers (brokerHandle (n.executor.relationshipHandle w.clock) .none)) (n.relationshipBroker.apply ids r)
        (w.withRelationship (w.pep.relationship.begin target)) t → EdgeMoment w (.apply ids target r now) t
  | sweep {now : Time} {t : NodeWorld σ KlshieldAdapter} :
      Stops (answers (brokerHandle (n.executor.relationshipHandle w.clock) .none)) (n.relationshipBroker.revertExpired now) w t →
      EdgeMoment w (.sweep now) t
  | sourceSweep {now : Time} {t : NodeWorld σ KlshieldAdapter} :
      Stops (answers (brokerHandle (n.executor.sourceHandle w.clock) .none)) (n.sourceBroker.revertExpired now) w t →
      EdgeMoment w (.sourceSweep now) t

/-- The leases an event is about to end. -/
def EdgeEvent.due (w : NodeWorld σ KlshieldAdapter) : EdgeEvent → List ActionLease
  | .sweep now => w.leases.listExpiredActionLeases now
  | _ => []

/-- A resolution that is applied names the relationship, whose deny takes effect; and no due lease that
is in force shares its flow with another active lease. -/
def EdgeFits (kernel : EdgeKernel) (mode : Nat) (w : NodeWorld σ KlshieldAdapter) : EdgeEvent → Prop
  | .apply _ target r _ => r.allowed = true → r.executableLevel = "block" → 0 < r.ttl →
    (∃ t, t.WellFormed ∧ r.target = t.proposal ∧ SameRelationship t target) ∧
      ∀ key, relationshipEdgeKey target = some key →
        DenyTakes kernel mode w.pep.relationship.adapter key (LeasedFlow w.leases)
  | .sweep now => Clear mode (w.leases.listExpiredActionLeases now) w
  | _ => True

/-- The flow of a lease is denied by the maps. -/
def LeaseDenied (mode : Nat) (w : NodeWorld σ KlshieldAdapter) (l : ActionLease) : Prop :=
  ∃ key, l.edge = some key ∧ w.pep.relationship.adapter.maps.edgeDenies mode key = true

variable {n : ShieldNode σ} {kernel : EdgeKernel} {mode : Nat} {w : NodeWorld σ KlshieldAdapter}

theorem EdgesHeld.leaseDenied {due : List ActionLease}
    (h : EdgesHeld mode due w.pep.relationship.adapter w.leases) {l : ActionLease} (hl : l ∈ w.leases)
    (hs : l.status = .active) (hdue : l ∉ due) : LeaseDenied mode w l := by
  obtain ⟨⟨_, key, _, _, hkey⟩, hdenied⟩ := h l hl hs
  exact ⟨key, hkey, hdenied hdue key hkey⟩

theorem wp_of_faultless {α : Type} {p : BrokerProgram α} {crash : NodeWorld σ KlshieldAdapter → Prop}
    {post : α → NodeWorld σ KlshieldAdapter → Prop}
    {handle : (op : PepOp) → BrokeredPEPs σ KlshieldAdapter → op.Answer × BrokeredPEPs σ KlshieldAdapter}
    (h : wp (brokerStep faultless (answers handle)) crash post p w) :
    wp (answers (brokerHandle handle .none)) crash post p w := by
  refine wp_step h fun op s r s' hstep => ?_
  obtain ⟨rfl, rfl⟩ := Prod.mk.inj hstep
  have hnone : faultless .none := rfl
  exact brokerStep_brokerHandle hnone (fun _ _ => rfl) op s

theorem EdgesGuarded.update (h : EdgesGuarded kernel mode w) {lease : ActionLease} (hs : lease.status ≠ .active) :
    EdgesGuarded kernel mode { w with leases := w.leases.updateActionLeaseStatus lease } := by
  refine ⟨fun l hl hactive => ?_, h.working⟩
  obtain ⟨row, hrow, rfl⟩ := mem_updateActionLeaseStatus.mp hl
  by_cases hid : row.leaseID = lease.leaseID
  · rw [if_pos hid] at hactive
    exact absurd hactive hs
  · rw [if_neg hid] at hactive ⊢
    exact h.held row hrow hactive

/-- What a sweep asks for: it ends leases and grants none. -/
def BrokerOp.EndsLeases : BrokerOp → Prop
  | .store (.updateStatus l) => l.status ≠ .active
  | .store (.upsert _) => False
  | _ => True

/-- The source half of a sweep ends leases and touches no edge list. -/
theorem wp_sourceSweep (h : EdgesGuarded kernel mode w) {e : BrokeredActionExecutor σ KlshieldAdapter}
    (clock now : Time) {b : Broker} : wp (answers (brokerHandle (e.sourceHandle clock) .none))
      (EdgesGuarded kernel mode) (fun _ => EdgesGuarded kernel mode) (b.revertExpired now) w := by
  have huses : Uses BrokerOp.EndsLeases (fun _ _ => True) (b.revertExpired now) :=
    uses_revertExpired trivial (uses_revert trivial (fun _ => trivial) (fun _ => trivial) fun _ hs => hs)
  refine wp_of_uses huses h fun op s r s' hop hs hstep => ⟨trivial, ?_⟩
  obtain ⟨rfl, rfl⟩ := Prod.mk.inj hstep
  cases op with
  | now => exact hs
  | store op =>
    cases op with
    | upsert l => exact hop.elim
    | updateStatus l => exact hs.update hop
    | findActive | listByStatus | listExpired => exact hs
  | pep op => exact ⟨hs.held, hs.working⟩

theorem edge_event {ev : EdgeEvent} (h : EdgesGuarded n.kernel mode w) (hfits : EdgeFits n.kernel mode w ev) :
    EdgesGuarded n.kernel mode (edgeStep n w ev) ∧
      ∀ t, EdgeMoment n w ev t →
        EdgesHeld mode (ev.due w) t.pep.relationship.adapter t.leases := by
  cases ev with
  | apply ids target r now =>
    have hwp : r.allowed = true → r.executableLevel = "block" → 0 < r.ttl →
        wp (answers (brokerHandle (n.executor.relationshipHandle w.clock) .none)) (EdgesGuarded n.kernel mode)
          (fun _ => EdgesGuarded n.kernel mode) (n.relationshipBroker.apply ids r)
          (w.withRelationship (w.pep.relationship.begin target)) := by
      intro hallowed hlevel httl
      obtain ⟨⟨t, hwf, ht, hsame⟩, htakes⟩ := hfits hallowed hlevel httl
      have hstart : Applying n.kernel mode target (w.withRelationship (w.pep.relationship.begin target)) :=
        ⟨⟨h.held, h.working⟩, rfl, htakes⟩
      exact wp_of_faultless (wp_apply_edges hstart rfl ht hwf hsame ids)
    constructor
    · show EdgesGuarded n.kernel mode (BrokeredActionExecutor.applyRelationship _ ids target r now w).2
      unfold BrokeredActionExecutor.applyRelationship
      by_cases hallowed : ¬ r.allowed
      · rw [if_pos hallowed]
        exact h
      rw [if_neg hallowed]
      by_cases hlevel : r.executableLevel ≠ "block"
      · rw [if_pos hlevel]
        exact h
      rw [if_neg hlevel]
      by_cases httl : r.ttl ≤ 0
      · rw [if_pos httl]
        exact h
      rw [if_neg httl]
      have hdone := (hwp (not_not.mp hallowed) (not_not.mp hlevel) (not_le.mp httl)).runs (runs_exec _ _ _)
      exact ⟨hdone.held, hdone.working⟩
    · rintro t (⟨hallowed, hlevel, httl, hstops⟩ | - | -)
      exact ((hwp hallowed hlevel httl).stops ⟨h.held, h.working⟩ hstops).held
  | sweep now =>
    have hsweep : wp (edgeEnv n.executor w.clock) _ _ (n.relationshipBroker.revertExpired now) w :=
      wp_sweep_edges h rfl hfits
    have hwp := wp_of_faultless hsweep
    constructor
    · exact hwp.runs (runs_exec _ _ _)
    · rintro t (- | hstops | -)
      exact hwp.stops (h.held.mono (List.nil_subset _)) hstops
  | sourceSweep now =>
    have hwp := wp_sourceSweep (e := n.executor) h
      w.clock now (b := n.sourceBroker)
    constructor
    · exact hwp.runs (runs_exec _ _ _)
    · rintro t (- | - | hstops)
      exact (hwp.stops h hstops).held
  | clock now => exact ⟨⟨h.held, h.working⟩, by rintro t (- | - | -)⟩

/-- Over a run whose events fit, the flow of every active lease is denied, and while an event is under
way that of every active lease that the event is not about to end. -/
theorem leased_flows_denied {w₀ : NodeWorld σ KlshieldAdapter} {events : List EdgeEvent}
    (h₀ : w₀.leases = Keyed.Table.empty) (hworks : Working n.kernel w₀.pep.relationship.adapter)
    (hrun : Run (Transition.Guarded (EdgeFits n.kernel mode) fun w ev w' =>
      w' = edgeStep n w ev) w₀ events w) :
    (∀ l ∈ w.leases, l.status = .active → LeaseDenied mode w l) ∧
      ∀ ev, EdgeFits n.kernel mode w ev → ∀ t,
        EdgeMoment n w ev t →
        ∀ l ∈ t.leases, l.status = .active → l ∉ ev.due w → LeaseDenied mode t l := by
  have h : EdgesGuarded n.kernel mode w := by
    refine hrun.invariant ⟨fun l hl => ?_, hworks⟩ fun h hstep => ?_
    · rw [h₀] at hl
      exact absurd hl Keyed.Table.not_mem_empty
    · obtain ⟨hfits, rfl⟩ := hstep
      exact (edge_event h hfits).1
  refine ⟨fun l hl hs => h.held.leaseDenied hl hs List.not_mem_nil, fun ev hfits t ht l hl hs hdue => ?_⟩
  exact ((edge_event h hfits).2 t ht).leaseDenied hl hs hdue

end Runs

section SharedFlow

open Transition

def edgeLeaseBroker : Broker where
  nodeID := "node-1"
  adapterID := "kliq-relationship-pep"
  sha256 := digestsOf
    [("kliq-relationship-pep|relationship:subject=\"10.0.0.1\"|target=\"svc-a\"|dimension.\"port\"=\"443\"|dimension.\"proto\"=\"tcp\"" ++
        "|enforce.access.deny|block|decision-1|lease-00000000-0000-4000-8000-000000000001",
      "7da3dd5805dd2b5deb43e9f1c05a9166eaafaa267687080ae640b4e93d3b9180"),
    ("kliq-relationship-pep|relationship:subject=\"10.0.0.1\"|target=\"svc-b\"|dimension.\"port\"=\"443\"|dimension.\"proto\"=\"tcp\"" ++
        "|enforce.access.deny|block|decision-2|lease-00000000-0000-4000-8000-000000000002",
      "4d690f89775cd38bbdb608367a68b09344d09901574c5eca6041a49ac7d75cd3")]

def edgeNode : ShieldNode Unit :=
  { sourcePEP := ⟨fun _ st _ _ _ s => (.ok st, s)⟩, sourceBroker := edgeLeaseBroker, kernel := roomyKernel
    relationshipBroker := edgeLeaseBroker }

/-- Two services of one host on one port: their relationships share a flow. -/
def httpsEdge (service : String) : RelationshipTarget :=
  ⟨"10.0.0.1", service, GoMap.ofList [("port", "443"), ("proto", "tcp")], ∅⟩

def denyService (service n : String) (ttl : Duration) : EdgeEvent :=
  .apply ⟨n, "00000000-0000-4000-8000-00000000000" ++ n⟩ (httpsEdge service)
    { allowed := true, requestedAction := "enforce.access.deny", requestedLevel := "block"
      executableAction := "enforce.access.deny", executableLevel := "block"
      target := (httpsEdge service).proposal, ttl := ttl } 63864979200000000000

def freshEdges : NodeWorld Unit KlshieldAdapter :=
  ⟨Keyed.Table.empty, 63864979200000000000, { adapter := () }, { adapter := emptyAdapter }⟩

def onceDenied : NodeWorld Unit KlshieldAdapter :=
  edgeStep edgeNode freshEdges (denyService "svc-a" "1" (60 * Duration.second))

theorem wellFormed_httpsEdge : (httpsEdge "svc-a").WellFormed := by
  have hentries : ∀ e ∈ (httpsEdge "svc-a").dimension.entries, e.1 ≠ "" ∧ trimSpace e.2 = e.2 ∧ e.2 ≠ "" := by
    decide +kernel
  refine ⟨by decide +kernel, by decide, by decide +kernel, fun k v hv => ?_, fun h => absurd h.1 (by decide)⟩
  exact hentries ⟨k, v⟩ (AList.mem_lookup_iff.mp hv)

theorem onceDenied_active : ∃ l ∈ onceDenied.leases.rows, l.status = .active := by decide +kernel

/-- The deny of one service, with an empty allowlist. -/
theorem onceDenied_denied : ∃ l ∈ onceDenied.leases, l.status = .active ∧ LeaseDenied 2 onceDenied l := by
  obtain ⟨l, hl, hs⟩ := onceDenied_active
  have hworks : Working edgeNode.kernel freshEdges.pep.relationship.adapter := ⟨rfl, rfl, rfl, fun _ _ => ⟨_, rfl⟩⟩
  have hfits : EdgeFits edgeNode.kernel 2 freshEdges (denyService "svc-a" "1" (60 * Duration.second)) :=
    fun _ _ _ => ⟨⟨httpsEdge "svc-a", wellFormed_httpsEdge, rfl, .refl _⟩, fun _ _ => rfl⟩
  exact ⟨l, hl, hs, (leased_flows_denied rfl hworks (.cons ⟨hfits, rfl⟩ .nil)).1 l hl hs⟩

def bothDenied : NodeWorld Unit KlshieldAdapter :=
  edgeStep edgeNode onceDenied (denyService "svc-b" "2" (600 * Duration.second))

def firstReverted : NodeWorld Unit KlshieldAdapter :=
  edgeStep edgeNode (edgeStep edgeNode bothDenied (.clock 63864979260000000000)) (.sweep 63864979260000000000)

theorem firstReverted_facts : ∃ l ∈ firstReverted.leases.rows, l.status = .active ∧
    firstReverted.clock < l.expiresAt ∧ ∃ key ∈ l.edge,
      firstReverted.pep.relationship.adapter.maps.edgeDenies 2 key = false := by
  decide +kernel

/-- The revert of one deny lifts the flow that the lease of another relationship still needs. -/
theorem shared_flow_lifted : ¬ ∀ (events : List EdgeEvent) (w : NodeWorld Unit KlshieldAdapter),
    Run (fun w ev w' => w' = edgeStep edgeNode w ev) freshEdges events w →
    ∀ l ∈ w.leases, l.status = .active → w.clock < l.expiresAt → LeaseDenied 2 w l := by
  intro h
  obtain ⟨l, hl, hs, hexpires, key, hkey, hlifted⟩ := firstReverted_facts
  obtain ⟨key', hkey', hdenied⟩ := h _ firstReverted
    (.cons rfl (.cons rfl (.cons rfl (.cons rfl .nil)))) l hl hs hexpires
  obtain rfl := Option.some.inj (hkey.symm.trans hkey')
  exact absurd (hdenied.symm.trans hlifted) (by decide)

end SharedFlow

end Kernloom
