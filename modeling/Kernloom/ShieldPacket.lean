import Mathlib

/-! The packets the shield's XDP program parses, and what it reads of them. -/

namespace Kernloom

abbrev PacketBytes := List UInt8

/-- The `n` bytes from an offset, in network byte order. -/
def PacketBytes.field (data : PacketBytes) (off n : Nat) : Nat :=
  ((data.drop off).take n).foldl (fun acc b => acc * 256 + b.toNat) 0

/-- An IPv4 address. -/
abbrev Addr4 := BitVec 32

/-- An IPv6 address. -/
abbrev Addr6 := BitVec 128

section Ethernet

/-- One VLAN header, if the frame type announces one. -/
def skipVlan (data : PacketBytes) (proto off : Nat) : Option (Nat × Nat) :=
  if proto = 0x8100 ∨ proto = 0x88a8 then
    if data.length < off + 4 then none else some (data.field (off + 2) 2, off + 4)
  else some (proto, off)

/-- The type of the payload and its offset, behind up to two VLAN headers. -/
def parseEth (data : PacketBytes) : Option (Nat × Nat) :=
  if data.length < 14 then none
  else
    match skipVlan data (data.field 12 2) 14 with
    | none => none
    | some (proto, off) => skipVlan data proto off

end Ethernet

section Transport

def IPPROTO_ICMP : Nat := 1
def IPPROTO_TCP : Nat := 6
def IPPROTO_UDP : Nat := 17
def IPPROTO_ICMPV6 : Nat := 58

/-- What is read of the transport header. Ports are zero where there is none. -/
structure L4 where
  isTCP : Bool := false
  isUDP : Bool := false
  isICMP : Bool := false
  syn : Bool := false
  synack : Bool := false
  rst : Bool := false
  ack : Bool := false
  sport : Nat := 0
  dport : Nat := 0
  tcpFlags : Nat := 0
  deriving DecidableEq

/-- The transport header of protocol `proto`; the ICMP protocol differs between the families.
The flag bits of the header are those of the bitmask. -/
def parseL4 (data : PacketBytes) (l4off proto icmp : Nat) : L4 :=
  if proto = IPPROTO_TCP then
    if l4off + 20 ≤ data.length then
      let flags := data.field (l4off + 13) 1
      { isTCP := true
        syn := flags.testBit 1
        synack := flags.testBit 1 && flags.testBit 4
        rst := flags.testBit 2
        ack := flags.testBit 4
        sport := data.field l4off 2
        dport := data.field (l4off + 2) 2
        tcpFlags := flags }
    else { isTCP := true }
  else if proto = IPPROTO_UDP then
    if l4off + 8 ≤ data.length then
      { isUDP := true, sport := data.field l4off 2, dport := data.field (l4off + 2) 2 }
    else { isUDP := true }
  else if proto = icmp then { isICMP := true }
  else {}

end Transport

section Network

/-- A packet accounted to a family of addresses. -/
structure IPPacket (α : Type) where
  saddr : α
  proto : Nat
  ttl : Nat
  isFrag : Bool
  l4 : L4

def parseIPv4Header (data : PacketBytes) (off : Nat) : Option (IPPacket Addr4) :=
  if data.length < off + 20 then none
  else
    let version := data.field off 1 / 16
    let ihlBytes := data.field off 1 % 16 * 4
    if version ≠ 4 ∨ ihlBytes < 20 ∨ data.length < off + ihlBytes then none
    else
      let fo := data.field (off + 6) 2
      let proto := data.field (off + 9) 1
      some {
        saddr := BitVec.ofNat 32 (data.field (off + 12) 4)
        proto := proto
        ttl := data.field (off + 8) 1
        isFrag := fo % 0x2000 ≠ 0 ∨ fo.testBit 13
        l4 := parseL4 data (off + ihlBytes) proto IPPROTO_ICMP }

/-- Extension headers are not followed. -/
def parseIPv6Header (data : PacketBytes) (off : Nat) : Option (IPPacket Addr6) :=
  if data.length < off + 40 then none
  else if data.field off 1 / 16 ≠ 6 then none
  else
    let nh := data.field (off + 6) 1
    some {
      saddr := BitVec.ofNat 128 (data.field (off + 8) 16)
      proto := nh
      ttl := data.field (off + 7) 1
      isFrag := false
      l4 := parseL4 data (off + 40) nh IPPROTO_ICMPV6 }

/-- What the program accounts a frame as. -/
inductive Parsed where
  | other
  | v4 (p : IPPacket Addr4)
  | v6 (p : IPPacket Addr6)

def parsePacket (data : PacketBytes) : Parsed :=
  match parseEth data with
  | none => .other
  | some (proto, off) =>
    if proto = 0x0800 then
      match parseIPv4Header data off with
      | some p => .v4 p
      | none => .other
    else if proto = 0x86DD then
      match parseIPv6Header data off with
      | some p => .v6 p
      | none => .other
    else .other

theorem parseL4_dport {data : PacketBytes} {l4off proto icmp : Nat}
    (h : (parseL4 data l4off proto icmp).dport ≠ 0) : proto = IPPROTO_TCP ∨ proto = IPPROTO_UDP := by
  unfold parseL4 at h
  by_cases htcp : proto = IPPROTO_TCP
  · exact .inl htcp
  · by_cases hudp : proto = IPPROTO_UDP
    · exact .inr hudp
    · rw [if_neg htcp, if_neg hudp] at h
      by_cases hicmp : proto = icmp
      · rw [if_pos hicmp] at h
        exact absurd rfl h
      · rw [if_neg hicmp] at h
        exact absurd rfl h

theorem PacketBytes.field_lt (data : PacketBytes) (off n : Nat) : data.field off n < 256 ^ n := by
  have hfold : ∀ (bytes : List UInt8) (acc : Nat),
      bytes.foldl (fun acc b => acc * 256 + b.toNat) acc < (acc + 1) * 256 ^ bytes.length := by
    intro bytes
    induction bytes with
    | nil => intro acc; simp
    | cons b bytes ih =>
      intro acc
      have hb := UInt8.toNat_lt b
      refine (ih _).trans_le ?_
      rw [List.length_cons, pow_succ', ← Nat.mul_assoc]
      refine Nat.mul_le_mul_right _ ?_
      simp only
      omega
  have hlen : ((data.drop off).take n).length ≤ n := List.length_take_le ..
  refine (hfold _ 0).trans_le ?_
  rw [Nat.zero_add, Nat.one_mul]
  exact Nat.pow_le_pow_right (by decide) hlen

theorem parseL4_dport_lt (data : PacketBytes) (l4off proto icmp : Nat) :
    (parseL4 data l4off proto icmp).dport < 2 ^ 16 := by
  have hfield : ∀ off, data.field off 2 < 2 ^ 16 := fun off => data.field_lt off 2
  unfold parseL4
  split
  · split
    · exact hfield _
    · decide
  · split
    · split
      · exact hfield _
      · decide
    · split <;> decide

theorem parseIPv4Header_l4 {data : PacketBytes} {off : Nat} {p : IPPacket Addr4}
    (h : parseIPv4Header data off = some p) : ∃ l4off, p.l4 = parseL4 data l4off p.proto IPPROTO_ICMP := by
  unfold parseIPv4Header at h
  split at h
  · cases h
  · simp only at h
    split at h
    · cases h
    · obtain rfl := Option.some.inj h
      exact ⟨_, rfl⟩

theorem parsePacket_l4 {data : PacketBytes} {p : IPPacket Addr4} (h : parsePacket data = .v4 p) :
    ∃ l4off, p.l4 = parseL4 data l4off p.proto IPPROTO_ICMP := by
  unfold parsePacket at h
  split at h
  · cases h
  · split at h
    · split at h
      · obtain rfl := Parsed.v4.inj h
        exact parseIPv4Header_l4 (by assumption)
      · cases h
    · split at h
      · split at h <;> cases h
      · cases h

/-- A frame with a TCP or UDP packet of a flow. -/
def flowPacket (proto a b c d hi lo : UInt8) : PacketBytes :=
  List.replicate 12 0 ++ [8, 0] ++ [0x45, 0, 0, 40, 0, 0, 0, 0, 64, proto, 0, 0, a, b, c, d, 192, 0, 2, 1] ++
    [16, 0, hi, lo, 0, 20, 0, 0, 0, 0, 0, 0, 0x50, 0, 0, 0, 0, 0, 0, 0]

theorem parse_flowPacket {proto : UInt8} (h : proto = 6 ∨ proto = 17) (a b c d hi lo : UInt8) :
    ∃ p, parsePacket (flowPacket proto a b c d hi lo) = .v4 p ∧
      p.saddr = BitVec.ofNat 32 (((a.toNat * 256 + b.toNat) * 256 + c.toNat) * 256 + d.toNat) ∧
      p.l4.dport = hi.toNat * 256 + lo.toNat ∧ p.proto = proto.toNat := by
  rcases h with rfl | rfl <;>
  simp [parsePacket, parseEth, skipVlan, parseIPv4Header, parseL4, flowPacket,
    PacketBytes.field, IPPROTO_TCP, IPPROTO_UDP]

end Network

end Kernloom
