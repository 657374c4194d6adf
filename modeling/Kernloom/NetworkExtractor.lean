import Kernloom.NetIP
import Kernloom.Relationship

/-! The extractor of network relationships: what a flow observation says about who connects to whom. -/

namespace Kernloom

section Addresses

/-- The byte of an address that `n` bytes follow. -/
def addrByte {w : Nat} (ip : BitVec w) (n : Nat) : Nat := ip.toNat / 256 ^ n % 256

def isLoopbackIP (ip : Addr6) : Bool :=
  match to4 ip with
  | some ip4 => addrByte ip4 3 = 127
  | none => ip.toNat = 1

def isPrivateIP (ip : Addr6) : Bool :=
  match to4 ip with
  | some ip4 => addrByte ip4 3 = 10 ∨ (addrByte ip4 3 = 172 ∧ addrByte ip4 2 / 16 = 1) ∨
      (addrByte ip4 3 = 192 ∧ addrByte ip4 2 = 168)
  | none => addrByte ip 15 / 2 = 0xfc / 2

def isMulticastIP (ip : Addr6) : Bool :=
  match to4 ip with
  | some ip4 => addrByte ip4 3 / 16 = 0xe
  | none => addrByte ip 15 = 0xff

/-- `net.IPNet`: a network number and its mask. -/
inductive IPNet
  | v4 (ip mask : Addr4)
  | v6 (ip mask : Addr6)

/-- `IPNet.Contains`. -/
def IPNet.contains (n : IPNet) (ip : Addr6) : Bool :=
  match n, to4 ip with
  | .v4 net mask, some ip4 => net &&& mask = ip4 &&& mask
  | .v6 net mask, none => net &&& mask = ip &&& mask
  | _, _ => false

def isLoopback (addr : String) : Bool := (parseIP addr).any isLoopbackIP

def isBroadcastOrMulticast (addr : String) : Bool :=
  (parseIP addr).any fun ip => isMulticastIP ip || to4 ip = some 0xffffffff

def isInCIDRs (addr : String) (cidrs : List IPNet) : Bool :=
  (parseIP addr).any fun ip => cidrs.any fun n => n.contains ip

end Addresses

section Hashes

variable (sha256 : String → String)

/-- The ID of an entity in the state store. -/
def stableEntityID (kind id ns : String) : String := sha256 (kind ++ ":" ++ id ++ ":" ++ ns)

def dimensionsHash (dims : GoMap String) : String :=
  if dims.entries = [] then ""
  else
    let keys := (dims.entries.map (·.1)).insertionSort (· ≤ ·)
    sha256 ("".intercalate (keys.map fun k => k ++ "=" ++ dims.get k ++ ";"))

end Hashes

inductive ObservationType
  | flow
  | other (text : String)
  deriving DecidableEq

/-- An observation; metrics are floating point numbers. -/
structure Observation where
  nodeID : String
  type : ObservationType
  subjectID : String
  objectID : String
  metrics : GoMap Rat
  attributes : GoMap String

/-- The unsigned integer of a metric. -/
def uint64Of (x : Rat) : Nat := ⌊x⌋.toNat

structure ExtractorConfig where
  nodeID : String
  excludeLoopback : Bool := true
  excludeBroadcast : Bool := true
  excludeSourceCIDRs : List IPNet := []
  minPackets : Nat := 0
  minBytes : Nat := 0
  collapseEphemeralPorts : Bool := true

/-- The predicate of the extractor's relationships. -/
def networkPredicate : String := "network.connects_to"

/-- A relationship together with its dimensions. -/
structure CandidateRelationship where
  rel : Relationship
  dimensions : GoMap String

namespace ExtractorConfig

/-- The other end; a missing one is the local node. -/
def objectID (cfg : ExtractorConfig) (o : Observation) : String :=
  if o.objectID = "" then (if o.nodeID = "" then cfg.nodeID else o.nodeID) else o.objectID

/-- Whether an observation yields a relationship. -/
def relevant (cfg : ExtractorConfig) (o : Observation) : Bool :=
  o.type = .flow ∧ o.subjectID ≠ "" ∧ o.attributes.get "destination_port" ≠ "" ∧
    ¬ (cfg.excludeLoopback ∧ (isLoopback o.subjectID ∨ isLoopback (cfg.objectID o))) ∧
    ¬ (cfg.excludeBroadcast ∧ isBroadcastOrMulticast (cfg.objectID o)) ∧
    ¬ isInCIDRs o.subjectID cfg.excludeSourceCIDRs ∧
    ¬ (0 < cfg.minPackets ∧ uint64Of (o.metrics.get "packets") < cfg.minPackets) ∧
    ¬ (0 < cfg.minBytes ∧ uint64Of (o.metrics.get "bytes") < cfg.minBytes)

/-- The destination port of a relationship; ephemeral ports are one port. -/
def destinationPort (cfg : ExtractorConfig) (o : Observation) : Nat :=
  let port := (parseUint16 (o.attributes.get "destination_port")).getD 0
  if cfg.collapseEphemeralPorts ∧ 32768 ≤ port then 0 else port

def dimensions (cfg : ExtractorConfig) (o : Observation) : GoMap String :=
  let proto := o.attributes.get "protocol"
  let egress := (parseIP o.subjectID).any fun ip => isPrivateIP ip || isLoopbackIP ip
  GoMap.ofList [("protocol", if proto = "" then "unknown" else proto),
    ("destination_port", itoa (cfg.destinationPort o)),
    ("direction", if egress then "egress" else "ingress")]

variable (sha256 : String → String)

/-- The relationship of one observation, as `Extract` makes it. -/
def extract (cfg : ExtractorConfig) (o : Observation) (now : Time) : Option CandidateRelationship :=
  if ¬ cfg.relevant o then none
  else some
    { rel :=
        { nodeID := cfg.nodeID
          subjectEntityID := stableEntityID sha256 "ip" o.subjectID ""
          predicate := networkPredicate
          objectEntityID := stableEntityID sha256 "ip" (cfg.objectID o) ""
          dimensionsHash := dimensionsHash sha256 (cfg.dimensions o)
          state := .candidate
          seenCount := 1
          distinctWindows := 1
          firstSeenAt := now
          lastSeenAt := now
          learnedBy := .localObservation
          subjectLabel := o.subjectID
          subjectKind := "ip"
          objectLabel := cfg.objectID o
          objectKind := "ip" }
      dimensions := cfg.dimensions o }

end ExtractorConfig

end Kernloom
