import Kernloom.EdgeEnforcement
import Kernloom.ShieldLimits
import Kernloom.BrokeredPEP
import Kernloom.NetIP

/-! Relationship denies of the shield adapter: what a deny and its revert write to the edge lists,
and when the packets of a flow see a deny that takes effect and is undone. -/

namespace Kernloom

section Adapter

/-- The kernel's answer to an insert into an edge list: an error, or the entries it evicts. -/
structure EdgeKernel where
  insert : BpfMap EdgeKey UInt8 → EdgeKey → Fallible (EdgeKey → Bool)

/-- The adapter, the edge maps it found, and the maps themselves. -/
structure KlshieldAdapter where
  dryRun : Bool
  hasEdgeDeny : Bool
  hasEdgeAllow : Bool
  hasEdgeRL : Bool
  maps : ShieldConfig

/-- A dimension under its short or its long name. -/
def relationshipDimension (target : RelationshipTarget) (short long : String) : String :=
  if target.dimension.get short = "" then target.dimension.get long else target.dimension.get short

def klshieldRelationshipDimension (target : RelationshipTarget) : Option (Nat × String) :=
  let rawPort := relationshipDimension target "port" "destination_port"
  let proto := relationshipDimension target "proto" "protocol"
  if rawPort = "" ∨ proto = "" then none
  else
    match parseUint16 rawPort with
    | none => none
    | some port => if port = 0 then none else some (port, proto)

def protoNumber (proto : String) : Option Nat :=
  if proto = "tcp" then some IPPROTO_TCP
  else if proto = "udp" then some IPPROTO_UDP
  else if proto = "icmp" then some IPPROTO_ICMP
  else none

def newEdge4Key (srcIP : String) (dstPort : Nat) (proto : String) : Option EdgeKey :=
  match parseIPv4 srcIP with
  | none => none
  | some ip => (protoNumber proto).map fun p => ⟨ip, dstPort, p⟩

/-- The flow a relationship stands for. -/
def relationshipEdgeKey (target : RelationshipTarget) : Option EdgeKey :=
  (klshieldRelationshipDimension target).bind fun d => newEdge4Key target.subjectID d.1 d.2

def errTupleUnavailable : String :=
  "XDP tuple maps not available — reload klshield: klshield attach-xdp --force"

namespace KlshieldAdapter

variable (kernel : EdgeKernel)

/-- An insert into an edge list, if there is one. -/
def writeEdge4 (dryRun has : Bool) (m : BpfMap EdgeKey UInt8) (key : EdgeKey) : Fallible (BpfMap EdgeKey UInt8) :=
  if dryRun then .ok m
  else if ¬ has then .error errTupleUnavailable
  else
    match kernel.insert m key with
    | .error err => .error err
    | .ok evicts => .ok (Function.update (fun k => if evicts k then none else m k) key (some 1))

def denyEdge4 (key : EdgeKey) (a : KlshieldAdapter) : Fallible Unit × KlshieldAdapter :=
  match writeEdge4 kernel a.dryRun a.hasEdgeDeny a.maps.edgeDeny key with
  | .error err => (.error err, a)
  | .ok m => (.ok (), { a with maps := { a.maps with edgeDeny := m } })

def allowEdge4 (key : EdgeKey) (a : KlshieldAdapter) : Fallible Unit × KlshieldAdapter :=
  match writeEdge4 kernel a.dryRun a.hasEdgeAllow a.maps.edgeAllow key with
  | .error err => (.error err, a)
  | .ok m => (.ok (), { a with maps := { a.maps with edgeAllow := m } })

/-- A relationship operation on the flow of its target. -/
def onEdge (write : EdgeKey → KlshieldAdapter → Fallible Unit × KlshieldAdapter) (target : RelationshipTarget)
    (a : KlshieldAdapter) : Fallible Unit × KlshieldAdapter :=
  match relationshipEdgeKey target with
  | none => (.error ("invalid klshield relationship target " ++ target.canonical), a)
  | some key => write key a

def denyRelationship : RelationshipTarget → KlshieldAdapter → Fallible Unit × KlshieldAdapter :=
  onEdge (denyEdge4 kernel)

/-- The revert of a deny: it writes the allowlist. -/
def allowRelationship : RelationshipTarget → KlshieldAdapter → Fallible Unit × KlshieldAdapter :=
  onEdge (allowEdge4 kernel)

def relationshipPEP : RelationshipPEP KlshieldAdapter where
  available a := a.hasEdgeDeny && a.hasEdgeRL
  denyRelationship := denyRelationship kernel
  allowRelationship := allowRelationship kernel

variable {kernel} {a a' : KlshieldAdapter} {target : RelationshipTarget} {key : EdgeKey}

/-- Entries of other flows that an insert evicts. -/
def Evicts (kernel : EdgeKernel) (m : BpfMap EdgeKey UInt8) (key other : EdgeKey) : Prop :=
  ∃ evicts, kernel.insert m key = .ok evicts ∧ evicts other ∧ (m other).isSome

/-- An insert adds its entry, and takes out what the kernel evicts; a dry run writes nothing. -/
theorem writeEdge4_ok {dryRun has : Bool} {m m' : BpfMap EdgeKey UInt8}
    (h : writeEdge4 kernel dryRun has m key = .ok m') :
    (dryRun = true ∧ m' = m) ∨ (dryRun = false ∧ (m' key).isSome ∧
      ∀ other, other ≠ key → ((m' other).isSome = (m other).isSome ↔ ¬ Evicts kernel m key other)) := by
  unfold writeEdge4 at h
  cases dryRun with
  | true => exact .inl ⟨rfl, (Except.ok.inj h).symm⟩
  | false =>
    rw [if_neg Bool.false_ne_true] at h
    right
    cases has with
    | false => cases h
    | true =>
      simp only [not_true, if_false] at h
      cases hinsert : kernel.insert m key with
      | error err =>
        rw [hinsert] at h
        cases h
      | ok evicts =>
        rw [hinsert] at h
        obtain rfl := Except.ok.inj h
        refine ⟨rfl, by simp, fun other hother => ?_⟩
        rw [Function.update_of_ne hother]
        constructor
        · rintro hsame ⟨evicts', hevicts', hev, hsome⟩
          obtain rfl := Except.ok.inj (hinsert.symm.trans hevicts')
          rw [if_pos hev, hsome] at hsame
          cases hsame
        · intro hkept
          by_cases hev : evicts other = true
          · rw [if_pos hev]
            cases hm : m other with
            | none => rfl
            | some v => exact absurd ⟨evicts, hinsert, hev, by simp [hm]⟩ hkept
          · rw [if_neg hev]

theorem denyEdge4_ok (h : denyEdge4 kernel key a = (.ok (), a')) :
    ∃ m, writeEdge4 kernel a.dryRun a.hasEdgeDeny a.maps.edgeDeny key = .ok m ∧
      a' = { a with maps := { a.maps with edgeDeny := m } } := by
  unfold denyEdge4 at h
  split at h
  · cases h
  · exact ⟨_, by assumption, (Prod.mk.inj h).2.symm⟩

theorem allowEdge4_ok (h : allowEdge4 kernel key a = (.ok (), a')) :
    ∃ m, writeEdge4 kernel a.dryRun a.hasEdgeAllow a.maps.edgeAllow key = .ok m ∧
      a' = { a with maps := { a.maps with edgeAllow := m } } := by
  unfold allowEdge4 at h
  split at h
  · cases h
  · exact ⟨_, by assumption, (Prod.mk.inj h).2.symm⟩

end KlshieldAdapter

theorem relationshipEdgeKey_port {target : RelationshipTarget} {key : EdgeKey}
    (h : relationshipEdgeKey target = some key) : key.dstPort ≠ 0 := by
  obtain ⟨⟨port, proto⟩, hdim, hkey⟩ := Option.bind_eq_some_iff.mp h
  have hport : port ≠ 0 := by
    unfold klshieldRelationshipDimension at hdim
    simp only at hdim
    split at hdim
    · cases hdim
    · cases hparse : parseUint16 (relationshipDimension target "port" "destination_port") with
      | none =>
        rw [hparse] at hdim
        cases hdim
      | some n =>
        rw [hparse] at hdim
        simp only at hdim
        split at hdim
        · cases hdim
        · obtain ⟨rfl, -⟩ := Prod.mk.inj (Option.some.inj hdim)
          assumption
  unfold newEdge4Key at hkey
  split at hkey
  · cases hkey
  · obtain ⟨p, -, rfl⟩ := Option.map_eq_some_iff.mp hkey
    exact hport

end Adapter

section Flows

def ShieldConfig.withEdges (c : ShieldConfig) (deny allow : BpfMap EdgeKey UInt8) : ShieldConfig :=
  { c with edgeDeny := deny, edgeAllow := allow }

/-- The verdict of a packet under an edge mode. -/
def edgeVerdict (c : ShieldConfig) (mode : Nat) (ctx : XdpContext) (data : PacketBytes) (s : ShieldState) :
    XdpAction := (xdpKlshield { c with edgeMode := some mode } ctx data s).1

/-- An IPv4 packet of a flow. -/
def OfFlow (key : EdgeKey) (data : PacketBytes) : Prop := ∃ p, parsePacket data = .v4 p ∧ p.edgeKey = key

/-- Every packet of the flow is dropped, whatever the buckets. -/
def Dropped (c : ShieldConfig) (mode : Nat) (key : EdgeKey) : Prop :=
  ∀ ctx data s, OfFlow key data → edgeVerdict c mode ctx data s = .drop

def SameVerdicts (c c' : ShieldConfig) (key : EdgeKey) : Prop :=
  ∀ mode ctx data s, OfFlow key data → edgeVerdict c' mode ctx data s = edgeVerdict c mode ctx data s

/-- Packets of the flow meet the edge lists: it has a port, and its source is let through. -/
structure Reachable (c : ShieldConfig) (key : EdgeKey) : Prop where
  port : key.dstPort ≠ 0
  port_lt : key.dstPort < 2 ^ 16
  proto : key.proto = IPPROTO_TCP ∨ key.proto = IPPROTO_UDP
  admits : c.admits (.v4 key.srcIP)

variable {c : ShieldConfig} {mode : Nat} {key : EdgeKey} {ctx : XdpContext} {data : PacketBytes} {s : ShieldState}
  {p : IPPacket Addr4}

theorem exists_packet (hport : key.dstPort < 2 ^ 16)
    (hproto : key.proto = IPPROTO_TCP ∨ key.proto = IPPROTO_UDP) :
    ∃ data p, parsePacket data = .v4 p ∧ p.edgeKey = key := by
  have hbyte : ∀ n : Nat, (UInt8.ofNat n).toNat = n % 256 := fun n => by simp
  have hproto8 : UInt8.ofNat key.proto = 6 ∨ UInt8.ofNat key.proto = 17 := by
    rcases hproto with h | h <;> rw [h]
    · exact .inl rfl
    · exact .inr rfl
  obtain ⟨p, hparse, hsaddr, hdport, hprotoNat⟩ := parse_flowPacket hproto8
    (.ofNat (key.srcIP.toNat / 2 ^ 24)) (.ofNat (key.srcIP.toNat / 2 ^ 16)) (.ofNat (key.srcIP.toNat / 2 ^ 8))
    (.ofNat key.srcIP.toNat) (.ofNat (key.dstPort / 256)) (.ofNat key.dstPort)
  refine ⟨_, p, hparse, ?_⟩
  have hsrc := key.srcIP.isLt
  have haddr : p.saddr = key.srcIP := by
    rw [hsaddr]
    apply BitVec.eq_of_toNat_eq
    simp only [hbyte, BitVec.toNat_ofNat]
    omega
  have hdst : p.l4.dport = key.dstPort := by
    rw [hdport]
    simp only [hbyte]
    omega
  have hnum : p.proto = key.proto := by
    rw [hprotoNat, hbyte]
    rcases hproto with h | h <;> rw [h] <;> rfl
  rw [IPPacket.edgeKey, haddr, hdst, hnum]

/-- Whatever meets the edge lists is a packet of a reachable flow. -/
theorem reachable_of_packet (hparse : parsePacket data = .v4 p) (hport : p.l4.dport ≠ 0)
    (hadmits : c.admits (.v4 p.saddr)) : Reachable c p.edgeKey := by
  obtain ⟨l4off, hl4⟩ := parsePacket_l4 hparse
  refine ⟨hport, ?_, parseL4_dport (hl4 ▸ hport), hadmits⟩
  simp only [IPPacket.edgeKey, hl4]
  exact parseL4_dport_lt ..

theorem edgeVerdict_pass_iff (hparse : parsePacket data = .v4 p) :
    edgeVerdict c mode ctx data s = .pass ↔ (checkSource4 c ctx p s).1.drops.action = .pass ∧
      (p.l4.dport ≠ 0 → mode ≠ 0 → c.edgeDenies mode p.edgeKey = false ∧
        c.edgeRLPasses p.edgeKey (s.edgeRLState p.edgeKey) ctx.now ctx.room.edgeRL = true) := by
  refine (xdpKlshield_pass_iff hparse).trans (and_congr_right fun _ => ?_)
  constructor
  · intro h hport hmode
    exact h hport mode rfl hmode
  · intro h hport mode' hmode' hne
    obtain rfl := Option.some.inj hmode'
    exact h hport hne

theorem XdpAction.eq_drop {a : XdpAction} (h : a ≠ .pass) : a = .drop := by
  cases a with
  | pass => exact absurd rfl h
  | drop => rfl

/-- With empty buckets the lists alone decide about a flow whose source is let through. -/
theorem edgeVerdict_first (hparse : parsePacket data = .v4 p) (hadmits : c.admits (.v4 p.saddr))
    (hport : p.l4.dport ≠ 0) (hmode : mode ≠ 0) :
    edgeVerdict c mode ⟨0, 0, {}⟩ data {} = .pass ↔ c.edgeDenies mode p.edgeKey = false := by
  have hsource : (checkSource4 c ⟨0, 0, {}⟩ p {}).1.drops.action = .pass := checkSource_first hadmits
  have hlimit : c.edgeRLPasses p.edgeKey none 0 true = true := by
    unfold ShieldConfig.edgeRLPasses
    split
    · rfl
    · split <;> rfl
  rw [edgeVerdict_pass_iff hparse]
  constructor
  · rintro ⟨-, h⟩
    exact (h hport hmode).1
  · intro h
    exact ⟨hsource, fun _ _ => ⟨h, hlimit⟩⟩

theorem edgeVerdict_refused (hparse : parsePacket data = .v4 p) (hrefused : ¬ c.admits (.v4 p.saddr) = true) :
    edgeVerdict c mode ctx data s = .drop := by
  refine XdpAction.eq_drop fun hpass => ?_
  have hsource : (checkSource4 c ctx p s).1.drops.action = .drop := checkSource_refused hrefused
  have hadmitted := ((edgeVerdict_pass_iff hparse).mp hpass).1
  exact absurd (hadmitted.symm.trans hsource) (by decide)

theorem reachable_withEdges {d a : BpfMap EdgeKey UInt8} : Reachable (c.withEdges d a) key ↔ Reachable c key :=
  ⟨fun h => ⟨h.port, h.port_lt, h.proto, h.admits⟩, fun h => ⟨h.port, h.port_lt, h.proto, h.admits⟩⟩

theorem dropped_iff {m : Nat} (hport : key.dstPort ≠ 0) (hmode : m ≠ 0) :
    Dropped c m key ↔ c.edgeDenies m key = true ∨ ¬ Reachable c key := by
  constructor
  · intro h
    by_cases hreach : Reachable c key
    · left
      obtain ⟨data, p, hparse, rfl⟩ := exists_packet hreach.port_lt hreach.proto
      have hadmits := hreach.admits
      have hdrop := h ⟨0, 0, {}⟩ data {} ⟨p, hparse, rfl⟩
      by_contra hdenies
      have hpass := (edgeVerdict_first hparse hadmits hport hmode).mpr (Bool.eq_false_iff.mpr hdenies)
      exact absurd (hpass.symm.trans hdrop) (by decide)
    · exact .inr hreach
  · rintro h ctx data s ⟨p, hparse, rfl⟩
    rcases h with hdenies | hreach
    · refine XdpAction.eq_drop fun hpass => ?_
      have hlisted := (((edgeVerdict_pass_iff hparse).mp hpass).2 hport hmode).1
      exact absurd (hdenies.symm.trans hlisted) (by decide)
    · exact edgeVerdict_refused hparse fun hadmits => hreach (reachable_of_packet hparse hport hadmits)

theorem XdpAction.eq_of_pass_iff {a b : XdpAction} (h : a = .pass ↔ b = .pass) : a = b := by
  by_cases ha : a = .pass
  · rw [ha, h.mp ha]
  · rw [XdpAction.eq_drop ha, XdpAction.eq_drop fun hb => ha (h.mpr hb)]

/-- Two contents of the edge lists agree on a flow exactly when they agree on its entries, or no
packet of it meets them. -/
theorem sameVerdicts_iff {deny allow : BpfMap EdgeKey UInt8} :
    SameVerdicts c (c.withEdges deny allow) key ↔ (Reachable c key →
      (deny key).isSome = (c.edgeDeny key).isSome ∧ (allow key).isSome = (c.edgeAllow key).isSome) := by
  constructor
  · intro h hreach
    obtain ⟨data, p, hparse, rfl⟩ := exists_packet hreach.port_lt hreach.proto
    have hport := hreach.port
    have hadmits := hreach.admits
    have hsame : ∀ mode, mode ≠ 0 → ((c.withEdges deny allow).edgeDenies mode p.edgeKey = false ↔
        c.edgeDenies mode p.edgeKey = false) := by
      intro mode hmode
      have hnew := edgeVerdict_first (c := c.withEdges deny allow) hparse hadmits hport hmode
      rw [h mode _ data {} ⟨p, hparse, rfl⟩] at hnew
      exact hnew.symm.trans (edgeVerdict_first hparse hadmits hport hmode)
    have hdeny : (deny p.edgeKey).isSome = false ↔ (c.edgeDeny p.edgeKey).isSome = false :=
      hsame 1 (by decide)
    have hallow : (allow p.edgeKey).isNone = false ↔ (c.edgeAllow p.edgeKey).isNone = false :=
      hsame 2 (by decide)
    constructor
    · rw [Bool.eq_iff_iff, ← not_iff_not, Bool.not_eq_true, Bool.not_eq_true]
      exact hdeny
    · rwa [Option.isNone_eq_false_iff, Option.isNone_eq_false_iff, ← Bool.eq_iff_iff] at hallow
  · rintro h mode ctx data s ⟨p, hparse, rfl⟩
    have hnew : edgeVerdict (c.withEdges deny allow) mode ctx data s = .pass ↔ _ := edgeVerdict_pass_iff hparse
    have hold : edgeVerdict c mode ctx data s = .pass ↔ _ := edgeVerdict_pass_iff hparse
    by_cases hadmits : c.admits (.v4 p.saddr) = true
    · by_cases hport : p.l4.dport = 0
      · refine XdpAction.eq_of_pass_iff (hnew.trans (.trans ?_ hold.symm))
        exact and_congr_right fun _ => by simp [hport]
      · obtain ⟨hdeny, hallow⟩ := h (reachable_of_packet hparse hport hadmits)
        have hdenies : (c.withEdges deny allow).edgeDenies mode p.edgeKey = c.edgeDenies mode p.edgeKey := by
          have hnone : (allow p.edgeKey).isNone = (c.edgeAllow p.edgeKey).isNone := by
            rw [← Option.not_isSome, ← Option.not_isSome, hallow]
          simp only [ShieldConfig.edgeDenies, ShieldConfig.withEdges, hdeny, hnone]
        refine XdpAction.eq_of_pass_iff (hnew.trans (.trans ?_ hold.symm))
        rw [hdenies]
        exact Iff.rfl
    · have hrefused : ¬ (c.withEdges deny allow).admits (.v4 p.saddr) = true := hadmits
      rw [edgeVerdict_refused hparse hadmits, edgeVerdict_refused hparse hrefused]

/-- A deny takes effect in both enforcing modes and its revert restores every verdict: `c`, `c₁` and
`c₂` are the maps before the deny, after it and after its revert. -/
structure DenyUndone (c c₁ c₂ : ShieldConfig) (key : EdgeKey) : Prop where
  effect : ∀ mode, mode = 1 ∨ mode = 2 → Dropped c₁ mode key
  restores : SameVerdicts c c₂ key
  others : ∀ other, other ≠ key → SameVerdicts c c₁ other ∧ SameVerdicts c c₂ other

/-- No packet of the flow meets the edge lists, and the inserts evict no entry of a flow that does. In
a dry run, which writes nothing, the flow may also be denied already and not allowed. -/
def DenyFits (kernel : EdgeKernel) (a : KlshieldAdapter) (key : EdgeKey) : Prop :=
  if a.dryRun then ¬ Reachable a.maps key ∨ ((a.maps.edgeDeny key).isSome ∧ a.maps.edgeAllow key = none)
  else ¬ Reachable a.maps key ∧ ∀ other, other ≠ key → Reachable a.maps other →
    ¬ KlshieldAdapter.Evicts kernel a.maps.edgeDeny key other ∧
      ¬ KlshieldAdapter.Evicts kernel a.maps.edgeAllow key other

variable {kernel : EdgeKernel} {a a₁ : KlshieldAdapter} {target : RelationshipTarget}

theorem dropped_in_both_iff (hport : key.dstPort ≠ 0) : (∀ mode, mode = 1 ∨ mode = 2 → Dropped c mode key) ↔
    ¬ Reachable c key ∨ ((c.edgeDeny key).isSome ∧ c.edgeAllow key = none) := by
  have hone := dropped_iff (c := c) (m := 1) hport (by decide)
  have htwo := dropped_iff (c := c) (m := 2) hport (by decide)
  have hdeny : c.edgeDenies 1 key = (c.edgeDeny key).isSome := rfl
  have hallow : c.edgeDenies 2 key = true ↔ c.edgeAllow key = none := Option.isNone_iff_eq_none
  rw [hdeny] at hone
  rw [hallow] at htwo
  constructor
  · intro h
    rcases hone.mp (h 1 (.inl rfl)) with hd | hreach
    · exact (htwo.mp (h 2 (.inr rfl))).elim (fun ha => .inr ⟨hd, ha⟩) .inl
    · exact .inl hreach
  · rintro h mode (rfl | rfl)
    · exact hone.mpr (h.elim .inr fun hlists => .inl hlists.1)
    · exact htwo.mpr (h.elim .inr fun hlists => .inl hlists.2)

theorem denyUndone_iff {deny allow : BpfMap EdgeKey UInt8} (hport : key.dstPort ≠ 0) :
    DenyUndone c (c.withEdges deny c.edgeAllow) (c.withEdges deny allow) key ↔
      (¬ Reachable c key ∨ ((deny key).isSome ∧ c.edgeAllow key = none ∧
        (deny key).isSome = (c.edgeDeny key).isSome ∧ (allow key).isSome = (c.edgeAllow key).isSome)) ∧
      ∀ other, other ≠ key → Reachable c other →
        (deny other).isSome = (c.edgeDeny other).isSome ∧ (allow other).isSome = (c.edgeAllow other).isSome := by
  have heffect : (∀ mode, mode = 1 ∨ mode = 2 → Dropped (c.withEdges deny c.edgeAllow) mode key) ↔
      ¬ Reachable c key ∨ ((deny key).isSome ∧ c.edgeAllow key = none) := by
    rw [← reachable_withEdges (c := c) (d := deny) (a := c.edgeAllow)]
    exact dropped_in_both_iff hport
  constructor
  · rintro ⟨hdropped, hrestores, hothers⟩
    refine ⟨?_, fun other hne => sameVerdicts_iff.mp (hothers other hne).2⟩
    have hrestores := sameVerdicts_iff.mp hrestores
    rcases heffect.mp hdropped with hreach | ⟨hd, ha⟩
    · exact .inl hreach
    · by_cases hreach : Reachable c key
      · exact .inr ⟨hd, ha, hrestores hreach⟩
      · exact .inl hreach
  · rintro ⟨hkey, hothers⟩
    refine ⟨heffect.mpr ?_, sameVerdicts_iff.mpr fun hreach => ?_, fun other hne => ⟨?_, ?_⟩⟩
    · exact hkey.imp id fun h => ⟨h.1, h.2.1⟩
    · exact (hkey.resolve_left (not_not.mpr hreach)).2.2
    · exact sameVerdicts_iff.mpr fun hreach => ⟨(hothers other hne hreach).1, rfl⟩
    · exact sameVerdicts_iff.mpr (hothers other hne)

/-- A revert that succeeds has allowed the flow of its lease. -/
theorem revert_ok {now : Time} {lease : ActionLease} {s s' : BrokeredRelationshipPEP KlshieldAdapter}
    (hkey : relationshipEdgeKey target = some key)
    (htarget : relationshipTargetFromActionTarget (targetFromLease lease) = some target)
    (hrevert : BrokeredRelationshipPEP.handle (KlshieldAdapter.relationshipPEP kernel) now (.revert lease) s =
      (.ok (), s')) : KlshieldAdapter.allowEdge4 kernel key s.adapter = (.ok (), s'.adapter) := by
  have hcall : (KlshieldAdapter.relationshipPEP kernel).allowRelationship target s.adapter =
      KlshieldAdapter.allowEdge4 kernel key s.adapter := by
    simp only [KlshieldAdapter.relationshipPEP, KlshieldAdapter.allowRelationship, KlshieldAdapter.onEdge, hkey]
  simp only [BrokeredRelationshipPEP.handle, htarget, hcall] at hrevert
  split at hrevert
  · cases hrevert
  · rcases hallow : KlshieldAdapter.allowEdge4 kernel key s.adapter with ⟨_ | _, adapter⟩
    · rw [hallow] at hrevert
      cases hrevert
    · rw [hallow] at hrevert
      obtain ⟨-, rfl⟩ := Prod.mk.inj hrevert
      rfl

/-- A deny whose revert succeeds takes effect and is undone exactly where it fits. -/
theorem deny_undone_iff {now : Time} {lease : ActionLease} {s s' : BrokeredRelationshipPEP KlshieldAdapter}
    (hkey : relationshipEdgeKey target = some key)
    (hdeny : KlshieldAdapter.denyRelationship kernel target a = (.ok (), a₁)) (hs : s.adapter = a₁)
    (htarget : relationshipTargetFromActionTarget (targetFromLease lease) = some target)
    (hrevert : BrokeredRelationshipPEP.handle (KlshieldAdapter.relationshipPEP kernel) now (.revert lease) s =
      (.ok (), s')) :
    DenyUndone a.maps a₁.maps s'.adapter.maps key ↔ DenyFits kernel a key := by
  have hport := relationshipEdgeKey_port hkey
  have hdeny : KlshieldAdapter.denyEdge4 kernel key a = (.ok (), a₁) := by
    simpa only [KlshieldAdapter.denyRelationship, KlshieldAdapter.onEdge, hkey] using hdeny
  obtain ⟨deny, hwrite, rfl⟩ := KlshieldAdapter.denyEdge4_ok hdeny
  have hallow := revert_ok hkey htarget hrevert
  obtain ⟨allow, hwrite', hafter⟩ := KlshieldAdapter.allowEdge4_ok hallow
  rw [hafter, hs]
  rw [hs] at hwrite'
  refine (denyUndone_iff hport).trans ?_
  unfold DenyFits
  rcases KlshieldAdapter.writeEdge4_ok hwrite with ⟨hdry, rfl⟩ | ⟨hdry, hin, hkept⟩
  · rcases KlshieldAdapter.writeEdge4_ok hwrite' with ⟨_, rfl⟩ | ⟨hdry', -⟩
    · rw [if_pos hdry]
      constructor
      · rintro ⟨hkey, -⟩
        exact hkey.imp id fun h => ⟨h.1, h.2.1⟩
      · intro h
        exact ⟨h.imp id fun h => ⟨h.1, h.2, rfl, rfl⟩, fun _ _ _ => ⟨rfl, rfl⟩⟩
    · exact absurd (hdry.symm.trans hdry') (by decide)
  · rcases KlshieldAdapter.writeEdge4_ok hwrite' with ⟨hdry', _⟩ | ⟨_, hin', hkept'⟩
    · exact absurd (hdry'.symm.trans hdry) (by decide)
    · rw [if_neg (by simp [hdry])]
      refine and_congr ⟨fun h => h.resolve_right ?_, .inl⟩ ?_
      · -- the revert lists the flow, which the deny found unlisted
        rintro ⟨-, hnone, -, hsame⟩
        rw [hnone, hin'] at hsame
        cases hsame
      · exact forall_congr' fun other => forall_congr' fun hne => forall_congr' fun _ =>
          and_congr (hkept other hne) (hkept' other hne)

def roomyKernel : EdgeKernel where
  insert _ _ := .ok fun _ => false

def emptyAdapter : KlshieldAdapter := ⟨false, true, true, true, {}⟩

/-- A lease on the relationship of 192.0.2.7 with port 53 of the node. -/
def port53Lease (proto : String) : ActionLease where
  leaseID := "lease-1"
  adapterID := BrokeredRelationshipPEP.adapterID
  target := "relationship:edge-1"
  action := "network.block_relationship"
  level := "block"
  status := .active
  fencingToken := "fence-1"
  appliedAt := 0
  expiresAt := 600 * 10 ^ 9
  metadata := GoMap.ofList [("target_granularity", "relationship"), ("target_value", "edge-1"),
    ("target_attr.subject_id", "192.0.2.7"), ("target_attr.dimension.port", "53"),
    ("target_attr.dimension.proto", proto)]

theorem port53_icmp_key : ((relationshipTargetFromActionTarget (targetFromLease (port53Lease "icmp"))).bind
    relationshipEdgeKey) = some ⟨fixtureSource, 53, IPPROTO_ICMP⟩ := by
  decide +kernel

theorem port53_udp_key : ((relationshipTargetFromActionTarget (targetFromLease (port53Lease "udp"))).bind
    relationshipEdgeKey) = some ⟨fixtureSource, 53, IPPROTO_UDP⟩ := by
  decide +kernel

/-- The maps after a deny and its revert where nothing is evicted. -/
def bothListed (key : EdgeKey) : ShieldConfig where
  edgeDeny := Function.update (fun _ => none) key (some 1)
  edgeAllow := Function.update (fun _ => none) key (some 1)

theorem roomy_deny (hkey : relationshipEdgeKey target = some key) :
    KlshieldAdapter.denyRelationship roomyKernel target emptyAdapter =
      (.ok (), { emptyAdapter with maps := { edgeDeny := (bothListed key).edgeDeny } }) := by
  simp [KlshieldAdapter.denyRelationship, KlshieldAdapter.onEdge, hkey, KlshieldAdapter.denyEdge4,
    KlshieldAdapter.writeEdge4, emptyAdapter, roomyKernel, bothListed]

theorem roomy_revert {proto : String} {t : FencingTokens}
    (htarget : relationshipTargetFromActionTarget (targetFromLease (port53Lease proto)) = some target)
    (hkey : relationshipEdgeKey target = some key) :
    BrokeredRelationshipPEP.handle (KlshieldAdapter.relationshipPEP roomyKernel) 0 (.revert (port53Lease proto))
        ⟨{ emptyAdapter with maps := { edgeDeny := (bothListed key).edgeDeny } }, t, none, {}⟩ =
      (.ok (), ⟨{ emptyAdapter with maps := bothListed key }, t.clearCurrent (port53Lease proto), none, {}⟩) := by
  simp [BrokeredRelationshipPEP.handle, htarget, KlshieldAdapter.relationshipPEP,
    KlshieldAdapter.allowRelationship, KlshieldAdapter.onEdge, hkey, KlshieldAdapter.allowEdge4,
    KlshieldAdapter.writeEdge4, emptyAdapter, roomyKernel, bothListed]

/-- A relationship of ICMP has no packets that could tell. -/
theorem icmp_deny_undone : DenyUndone {} { edgeDeny := (bothListed ⟨fixtureSource, 53, IPPROTO_ICMP⟩).edgeDeny }
    (bothListed ⟨fixtureSource, 53, IPPROTO_ICMP⟩) ⟨fixtureSource, 53, IPPROTO_ICMP⟩ := by
  obtain ⟨target, htarget, hkey⟩ := Option.bind_eq_some_iff.mp port53_icmp_key
  refine (deny_undone_iff hkey (roomy_deny hkey) rfl htarget (roomy_revert (t := ∅) htarget hkey)).mpr ?_
  have hunreachable : ¬ Reachable {} ⟨fixtureSource, 53, IPPROTO_ICMP⟩ := fun h => absurd h.proto (by decide)
  have hevicts : ∀ m k other, ¬ KlshieldAdapter.Evicts roomyKernel m k other := by
    rintro m k other ⟨evicts, hinsert, hev, -⟩
    obtain rfl := Except.ok.inj hinsert
    cases hev
  exact ⟨hunreachable, fun _ _ _ => ⟨hevicts _ _ _, hevicts _ _ _⟩⟩

/-- The flow stays denied in the deny mode: the revert only lists it as allowed. -/
theorem udp_deny_stays : ¬ ∀ (kernel : EdgeKernel) (a a₁ : KlshieldAdapter) (target : RelationshipTarget)
    (key : EdgeKey) (now : Time) (lease : ActionLease) (s s' : BrokeredRelationshipPEP KlshieldAdapter),
    relationshipEdgeKey target = some key → KlshieldAdapter.denyRelationship kernel target a = (.ok (), a₁) →
      s.adapter = a₁ → relationshipTargetFromActionTarget (targetFromLease lease) = some target →
      BrokeredRelationshipPEP.handle (KlshieldAdapter.relationshipPEP kernel) now (.revert lease) s =
        (.ok (), s') → DenyUndone a.maps a₁.maps s'.adapter.maps key := by
  intro h
  obtain ⟨target, htarget, hkey⟩ := Option.bind_eq_some_iff.mp port53_udp_key
  have hundone := h _ _ _ target _ 0 _ _ _ hkey (roomy_deny hkey) rfl htarget (roomy_revert (t := ∅) htarget hkey)
  have hsame := hundone.restores 1 ⟨0, 1, {}⟩ (udpPacket 0 53) {} ⟨_, parse_udpPacket 0 53, by decide⟩
  revert hsame
  decide +kernel

end Flows

end Kernloom
