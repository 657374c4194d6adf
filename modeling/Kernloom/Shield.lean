import Kernloom.ShieldPacket
import Kernloom.ShieldRateLimit

/-! The shield's XDP program: the maps it reads and writes, the checks of a packet and its
accounting. -/

namespace Kernloom

section Maps

abbrev BpfMap (κ α : Type) := κ → Option α

structure LpmKey (w : Nat) where
  prefixlen : Nat
  data : BitVec w
  deriving DecidableEq

abbrev LpmTrie (w : Nat) := List (LpmKey w)

def LpmKey.covers {w : Nat} (k : LpmKey w) (addr : BitVec w) : Bool :=
  k.prefixlen ≤ w ∧ addr >>> (w - k.prefixlen) = k.data >>> (w - k.prefixlen)

def LpmTrie.has {w : Nat} (t : LpmTrie w) (addr : BitVec w) : Bool := t.any (·.covers addr)

structure XdpCfg where
  enforceAllow : Nat
  deriving DecidableEq

/-- A flow to the node; the port is in host order. -/
structure EdgeKey where
  srcIP : Addr4
  dstPort : Nat
  proto : Nat
  deriving DecidableEq

/-- The maps user space writes. -/
structure ShieldConfig where
  cfg : Option XdpCfg := none
  allowLpm : LpmTrie 32 := []
  allow6Lpm : LpmTrie 128 := []
  denyHash : BpfMap Addr4 UInt8 := fun _ => none
  deny6Hash : BpfMap Addr6 UInt8 := fun _ => none
  edgeMode : Option Nat := none
  edgeDeny : BpfMap EdgeKey UInt8 := fun _ => none
  edgeAllow : BpfMap EdgeKey UInt8 := fun _ => none
  edgeRLPolicy : BpfMap EdgeKey RlCfg := fun _ => none
  rlCfg : Option RlCfg := none
  rlPolicy4 : BpfMap Addr4 RlCfg := fun _ => none
  rlPolicy6 : BpfMap Addr6 RlCfg := fun _ => none

/-- The counters of one CPU. -/
structure Totals where
  pkts : Nat := 0
  bytes : Nat := 0
  pass : Nat := 0
  dropAllow : Nat := 0
  dropDeny : Nat := 0
  dropRL : Nat := 0
  v4 : Nat := 0
  v6 : Nat := 0
  tcp : Nat := 0
  udp : Nat := 0
  icmp : Nat := 0
  syn : Nat := 0
  synack : Nat := 0
  rst : Nat := 0
  ack : Nat := 0
  ipv4Frags : Nat := 0
  dportChanges : Nat := 0
  newSources : Nat := 0
  allowHits : Nat := 0
  denyHits : Nat := 0
  rlHits : Nat := 0
  deriving DecidableEq

/-- The record of a source of either family. -/
structure SrcStats where
  pkts : Nat
  bytes : Nat
  tcp : Nat
  udp : Nat
  icmp : Nat
  syn : Nat
  synack : Nat
  rst : Nat
  ack : Nat
  pass : Nat
  dropAllow : Nat
  dropDeny : Nat
  dropRL : Nat
  firstSeenNs : UInt64
  lastSeenNs : UInt64
  lastSport : Nat
  lastDport : Nat
  dportChanges : Nat
  lastTTL : Nat
  lastTCPFlags : Nat
  deriving DecidableEq

structure FlowStats where
  pkts : Nat
  bytes : Nat
  syn : Nat
  deriving DecidableEq

/-- The maps the program writes. -/
structure ShieldState where
  rlState4 : BpfMap Addr4 RlState := fun _ => none
  rlState6 : BpfMap Addr6 RlState := fun _ => none
  edgeRLState : BpfMap EdgeKey RlState := fun _ => none
  totals : Nat → Totals := fun _ => {}
  src4Stats : BpfMap Addr4 SrcStats := fun _ => none
  src6Stats : BpfMap Addr6 SrcStats := fun _ => none
  flow4Stats : BpfMap EdgeKey FlowStats := fun _ => none

end Maps

section Checks

inductive XdpAction where
  | pass | drop
  deriving DecidableEq

structure Drops where
  allow : Bool := false
  deny : Bool := false
  rl : Bool := false
  deriving DecidableEq

def Drops.action (d : Drops) : XdpAction := if d.allow || d.deny || d.rl then .drop else .pass

/-- The flags the checks of a packet set and the hits they count. -/
structure Checks where
  drops : Drops := {}
  allowHits : Nat := 0
  denyHits : Nat := 0
  rlHits : Nat := 0

/-- A policy of the source itself overrides the default one. -/
def selectRL (default override : Option RlCfg) : Option RlCfg :=
  let use := default.filter RlCfg.active
  match override with
  | some ovr => if ovr.active then some ovr else use
  | none => use

def ShieldConfig.selectRL4 (c : ShieldConfig) (saddr : Addr4) : Option RlCfg :=
  selectRL c.rlCfg (c.rlPolicy4 saddr)

def ShieldConfig.selectRL6 (c : ShieldConfig) (saddr : Addr6) : Option RlCfg :=
  selectRL c.rlCfg (c.rlPolicy6 saddr)

def ShieldConfig.enforce (c : ShieldConfig) : Bool :=
  match c.cfg with
  | some cfg => cfg.enforceAllow ≠ 0
  | none => false

/-- The allowlist, the denylist and the rate limit of a source, with its bucket after them. -/
def checkSource (enforce inAllow inDeny : Bool) (use : Option RlCfg) (bucket : Option RlState)
    (now : UInt64) (room : Bool) : Checks × Option RlState :=
  let dropAllow := enforce && !inAllow
  let dropDeny := !dropAllow && inDeny
  let checks : Checks :=
    { drops := { allow := dropAllow, deny := dropDeny }
      allowHits := (enforce && inAllow).toNat
      denyHits := dropDeny.toNat }
  if dropAllow || dropDeny then (checks, bucket)
  else
    match use with
    | none => (checks, bucket)
    | some cfg =>
      let (passed, bucket) := rateLimit cfg bucket now room
      ({ checks with drops := { checks.drops with rl := !passed }, rlHits := 1 }, bucket)

/-- Whether the edge lists deny a flow under an enforcing mode. -/
def ShieldConfig.edgeDenies (c : ShieldConfig) (mode : Nat) (key : EdgeKey) : Bool :=
  if mode = 2 then (c.edgeAllow key).isNone else (c.edgeDeny key).isSome

/-- The check of the flow of a packet with a port that no check dropped yet. -/
def checkEdge (c : ShieldConfig) (key : EdgeKey) (checks : Checks) (bucket : Option RlState)
    (now : UInt64) (room : Bool) : Checks × Option RlState :=
  if checks.drops.action = .drop ∨ key.dstPort = 0 then (checks, bucket)
  else
    match c.edgeMode with
    | none | some 0 => (checks, bucket)
    | some mode =>
      if c.edgeDenies mode key then
        ({ checks with drops := { checks.drops with deny := true }, denyHits := checks.denyHits + 1 }, bucket)
      else
        match c.edgeRLPolicy key with
        | none => (checks, bucket)
        | some erl =>
          if erl.active then
            let (passed, bucket) := rateLimit erl bucket now room
            ({ checks with drops := { checks.drops with rl := !passed }, rlHits := checks.rlHits + 1 }, bucket)
          else (checks, bucket)

end Checks

section Accounting

/-- The flags of a packet's verdict counted once, in the order of their precedence. -/
def Totals.count (t : Totals) (checks : Checks) : Totals :=
  let t := { t with
    allowHits := t.allowHits + checks.allowHits
    denyHits := t.denyHits + checks.denyHits
    rlHits := t.rlHits + checks.rlHits }
  if checks.drops.action = .pass then { t with pass := t.pass + 1 }
  else if checks.drops.allow then { t with dropAllow := t.dropAllow + 1 }
  else if checks.drops.deny then { t with dropDeny := t.dropDeny + 1 }
  else { t with dropRL := t.dropRL + 1 }

def Totals.addBasic (t : Totals) (len : Nat) : Totals := { t with pkts := t.pkts + 1, bytes := t.bytes + len }

def Totals.addL4 (t : Totals) (l4 : L4) : Totals :=
  { t with
    tcp := t.tcp + l4.isTCP.toNat
    udp := t.udp + l4.isUDP.toNat
    icmp := t.icmp + l4.isICMP.toNat
    syn := t.syn + l4.syn.toNat
    synack := t.synack + l4.synack.toNat
    rst := t.rst + l4.rst.toNat
    ack := t.ack + l4.ack.toNat }

/-- What an update of a source's record reports. -/
structure SrcUpdate where
  dportChanged : Bool
  newSource : Bool
  stats : SrcStats

def Totals.addSource (t : Totals) (upd : SrcUpdate) : Totals :=
  { t with
    newSources := t.newSources + upd.newSource.toNat
    dportChanges := t.dportChanges + upd.dportChanged.toNat }

def SrcStats.init (len : Nat) (now : UInt64) (l4 : L4) (ttl : Nat) (drops : Drops) : SrcStats where
  pkts := 1
  bytes := len
  tcp := l4.isTCP.toNat
  udp := l4.isUDP.toNat
  icmp := l4.isICMP.toNat
  syn := l4.syn.toNat
  synack := l4.synack.toNat
  rst := l4.rst.toNat
  ack := l4.ack.toNat
  pass := if drops.action = .pass then 1 else 0
  dropAllow := drops.allow.toNat
  dropDeny := drops.deny.toNat
  dropRL := drops.rl.toNat
  firstSeenNs := now
  lastSeenNs := now
  lastSport := l4.sport
  lastDport := l4.dport
  dportChanges := 0
  lastTTL := ttl
  lastTCPFlags := l4.tcpFlags

/-- Each flag is counted by itself. -/
def SrcStats.add (st : SrcStats) (len : Nat) (now : UInt64) (l4 : L4) (ttl : Nat) (drops : Drops) : SrcStats :=
  let changed := l4.dport ≠ 0 ∧ st.lastDport ≠ l4.dport
  { st with
    pkts := st.pkts + 1
    bytes := st.bytes + len
    tcp := st.tcp + l4.isTCP.toNat
    udp := st.udp + l4.isUDP.toNat
    icmp := st.icmp + l4.isICMP.toNat
    syn := st.syn + l4.syn.toNat
    synack := st.synack + l4.synack.toNat
    rst := st.rst + l4.rst.toNat
    ack := st.ack + l4.ack.toNat
    pass := st.pass + if drops.action = .pass then 1 else 0
    dropAllow := st.dropAllow + drops.allow.toNat
    dropDeny := st.dropDeny + drops.deny.toNat
    dropRL := st.dropRL + drops.rl.toNat
    lastSeenNs := now
    lastSport := if l4.sport ≠ 0 then l4.sport else st.lastSport
    lastDport := if changed then l4.dport else st.lastDport
    dportChanges := st.dportChanges + if changed then 1 else 0
    lastTTL := if ttl ≠ 0 then ttl else st.lastTTL
    lastTCPFlags := if l4.tcpFlags ≠ 0 then l4.tcpFlags else st.lastTCPFlags }

def srcUpdate (st : Option SrcStats) (len : Nat) (now : UInt64) (l4 : L4) (ttl : Nat) (drops : Drops) : SrcUpdate :=
  match st with
  | none => ⟨false, true, .init len now l4 ttl drops⟩
  | some st => ⟨l4.dport ≠ 0 ∧ st.lastDport ≠ l4.dport, false, st.add len now l4 ttl drops⟩

def flow4Update (st : Option FlowStats) (len : Nat) (syn : Bool) (room : Bool) : Option FlowStats :=
  match st with
  | some fv => some ⟨fv.pkts + 1, fv.bytes + len, fv.syn + syn.toNat⟩
  | none => if room then some ⟨1, len, syn.toNat⟩ else none

end Accounting

section Program

/-- Which of the maps take a new entry. -/
structure Room where
  rl : Bool := true
  edgeRL : Bool := true
  src : Bool := true
  flow : Bool := true
  deriving DecidableEq

/-- Where and when the program runs. -/
structure XdpContext where
  cpu : Nat
  now : UInt64
  room : Room := {}
  deriving DecidableEq

def IPPacket.edgeKey (p : IPPacket Addr4) : EdgeKey := ⟨p.saddr, p.l4.dport, p.proto⟩

variable (c : ShieldConfig) (ctx : XdpContext)

def checkSource4 (p : IPPacket Addr4) (s : ShieldState) : Checks × Option RlState :=
  checkSource c.enforce (c.allowLpm.has p.saddr) (c.denyHash p.saddr).isSome (c.selectRL4 p.saddr)
    (s.rlState4 p.saddr) ctx.now ctx.room.rl

def checkSource6 (p : IPPacket Addr6) (s : ShieldState) : Checks × Option RlState :=
  checkSource c.enforce (c.allow6Lpm.has p.saddr) (c.deny6Hash p.saddr).isSome (c.selectRL6 p.saddr)
    (s.rlState6 p.saddr) ctx.now ctx.room.rl

def checkEdge4 (p : IPPacket Addr4) (s : ShieldState) : Checks × Option RlState :=
  checkEdge c p.edgeKey (checkSource4 c ctx p s).1 (s.edgeRLState p.edgeKey) ctx.now ctx.room.edgeRL

/-- A new record is stored if there is room. -/
def SrcUpdate.store (upd : SrcUpdate) (room : Bool) : Option SrcStats :=
  if upd.newSource ∧ ¬ room then none else some upd.stats

def xdpIPv4 (len : Nat) (p : IPPacket Addr4) (s : ShieldState) : XdpAction × ShieldState :=
  let checks := (checkEdge4 c ctx p s).1
  let upd := srcUpdate (s.src4Stats p.saddr) len ctx.now p.l4 p.ttl checks.drops
  let t := (s.totals ctx.cpu).addBasic len
  let t := { t with v4 := t.v4 + 1, ipv4Frags := t.ipv4Frags + p.isFrag.toNat }
  let t := (((t.addL4 p.l4).count checks).addSource upd)
  (checks.drops.action,
    { s with
      rlState4 := Function.update s.rlState4 p.saddr (checkSource4 c ctx p s).2
      edgeRLState := Function.update s.edgeRLState p.edgeKey (checkEdge4 c ctx p s).2
      totals := Function.update s.totals ctx.cpu t
      src4Stats := Function.update s.src4Stats p.saddr (upd.store ctx.room.src)
      flow4Stats := Function.update s.flow4Stats p.edgeKey
        (flow4Update (s.flow4Stats p.edgeKey) len p.l4.syn ctx.room.flow) })

def xdpIPv6 (len : Nat) (p : IPPacket Addr6) (s : ShieldState) : XdpAction × ShieldState :=
  let checks := (checkSource6 c ctx p s).1
  let upd := srcUpdate (s.src6Stats p.saddr) len ctx.now p.l4 p.ttl checks.drops
  let t := (s.totals ctx.cpu).addBasic len
  let t := { t with v6 := t.v6 + 1 }
  let t := (((t.addL4 p.l4).count checks).addSource upd)
  (checks.drops.action,
    { s with
      rlState6 := Function.update s.rlState6 p.saddr (checkSource6 c ctx p s).2
      totals := Function.update s.totals ctx.cpu t
      src6Stats := Function.update s.src6Stats p.saddr (upd.store ctx.room.src) })

/-- A frame that is not accounted to a family passes. -/
def xdpKlshield (data : PacketBytes) (s : ShieldState) : XdpAction × ShieldState :=
  match parsePacket data with
  | .v4 p => xdpIPv4 c ctx data.length p s
  | .v6 p => xdpIPv6 c ctx data.length p s
  | .other =>
    let t := (s.totals ctx.cpu).addBasic data.length
    (.pass, { s with totals := Function.update s.totals ctx.cpu { t with pass := t.pass + 1 } })

end Program

section Runs

structure ShieldWorld where
  config : ShieldConfig
  state : ShieldState := {}
  clock : UInt64 := 0

/-- The program processes a frame, user space rewrites its maps, or the kernel evicts the record of
a source or a flow. -/
inductive ShieldEvent where
  | packet (ctx : XdpContext) (data : PacketBytes)
  | configure (config : ShieldConfig)
  | evictSrc4 (saddr : Addr4)
  | evictSrc6 (saddr : Addr6)
  | evictFlow (key : EdgeKey)

def shieldStep (w : ShieldWorld) : ShieldEvent → Option ShieldWorld
  | .packet ctx data =>
    if w.clock ≤ ctx.now then
      some { w with state := (xdpKlshield w.config ctx data w.state).2, clock := ctx.now }
    else none
  | .configure config => some { w with config := config }
  | .evictSrc4 saddr =>
    some { w with state := { w.state with src4Stats := Function.update w.state.src4Stats saddr none } }
  | .evictSrc6 saddr =>
    some { w with state := { w.state with src6Stats := Function.update w.state.src6Stats saddr none } }
  | .evictFlow key =>
    some { w with state := { w.state with flow4Stats := Function.update w.state.flow4Stats key none } }

abbrev ShieldStep (w : ShieldWorld) (e : ShieldEvent) (w' : ShieldWorld) : Prop := shieldStep w e = some w'

end Runs

section Fixtures

/-- A UDP packet from 192.0.2.7 to port 256 * `hi` + `lo`. -/
def udpPacket (hi lo : UInt8) : PacketBytes :=
  List.replicate 12 0 ++ [8, 0] ++ [0x45, 0, 0, 28, 0, 0, 0, 0, 64, 17, 0, 0, 192, 0, 2, 7, 192, 0, 2, 1] ++
    [16, 0, hi, lo, 0, 8, 0, 0]

def fixtureSource : Addr4 := 0xc0000207

def udpHeader (hi lo : UInt8) : IPPacket Addr4 where
  saddr := fixtureSource
  proto := 17
  ttl := 64
  isFrag := false
  l4 := { isUDP := true, sport := 4096, dport := hi.toNat * 256 + lo.toNat }

theorem parse_udpPacket (hi lo : UInt8) : parsePacket (udpPacket hi lo) = .v4 (udpHeader hi lo) := by
  simp [parsePacket, parseEth, skipVlan, parseIPv4Header, parseL4, udpPacket, udpHeader, fixtureSource,
    PacketBytes.field, IPPROTO_TCP, IPPROTO_UDP]

end Fixtures

end Kernloom
