import Kernloom.RelationshipDeny

/-! The eight bytes of an edge key, as the command line, the agent and the XDP program make them of a source, a
port and a protocol. -/

namespace Kernloom

section Bytes

/-- The value of bytes in network order. -/
def beValue (bytes : List UInt8) : Nat := bytes.foldl (fun acc b => acc * 256 + b.toNat) 0

/-- A number as bytes in network order. -/
def beBytes : (width n : Nat) → List UInt8
  | 0, _ => []
  | width + 1, n => beBytes width (n / 256) ++ [UInt8.ofNat n]

theorem beValue_append (bytes : List UInt8) (b : UInt8) :
    beValue (bytes ++ [b]) = beValue bytes * 256 + b.toNat := by
  simp only [beValue, List.foldl_append, List.foldl_cons, List.foldl_nil]

theorem beBytes_beValue (bytes : List UInt8) : beBytes bytes.length (beValue bytes) = bytes := by
  induction bytes using List.reverseRecOn with
  | nil => rfl
  | append_singleton bytes b ih =>
    have hb := b.toNat_lt
    have hdiv : (beValue bytes * 256 + b.toNat) / 256 = beValue bytes := by omega
    have hlast : UInt8.ofNat (beValue bytes * 256 + b.toNat) = b := by
      apply UInt8.toNat_inj.mp
      rw [UInt8.toNat_ofNat']
      omega
    rw [List.length_append, List.length_singleton, beValue_append, beBytes, hdiv, hlast, ih]

theorem beValue_beBytes {width n : Nat} (h : n < 256 ^ width) : beValue (beBytes width n) = n := by
  induction width generalizing n with
  | zero =>
    obtain rfl : n = 0 := by simpa using h
    rfl
  | succ width ih =>
    have hdiv : n / 256 < 256 ^ width := by
      rw [Nat.div_lt_iff_lt_mul (by decide), ← pow_succ]
      exact h
    rw [beBytes, beValue_append, ih hdiv, UInt8.toNat_ofNat']
    omega

theorem beBytes_length (width n : Nat) : (beBytes width n).length = width := by
  induction width generalizing n with
  | zero => rfl
  | succ width ih => rw [beBytes, List.length_append, ih, List.length_singleton]

theorem beBytes_injective {width n n' : Nat} (hn : n < 256 ^ width) (hn' : n' < 256 ^ width)
    (h : beBytes width n = beBytes width n') : n = n' := by
  rw [← beValue_beBytes hn, ← beValue_beBytes hn', h]

theorem beBytes_field {data : PacketBytes} {off n : Nat} (h : off + n ≤ data.length) :
    beBytes n (data.field off n) = (data.drop off).take n := by
  have hlength : ((data.drop off).take n).length = n := by
    rw [List.length_take, List.length_drop]
    omega
  have hbytes := beBytes_beValue ((data.drop off).take n)
  rwa [hlength] at hbytes

/-- The order of the bytes of a number in the memory of the host. -/
inductive ByteOrder where
  | big | little

def ByteOrder.bytes (order : ByteOrder) (width n : Nat) : List UInt8 :=
  match order with
  | big => beBytes width n
  | little => (beBytes width n).reverse

theorem ByteOrder.bytes_injective {order : ByteOrder} {width n n' : Nat} (hn : n < 256 ^ width)
    (hn' : n' < 256 ^ width) (h : order.bytes width n = order.bytes width n') : n = n' := by
  cases order with
  | big => exact beBytes_injective hn hn' h
  | little => exact beBytes_injective hn hn' (List.reverse_injective h)

end Bytes

section Keys

variable (order : ByteOrder)

/-- The memory of `Edge4Key`, of `edge4Key` and of `struct edge4_key`: the address in network order, the port in
host order, the protocol and the padding. -/
def edge4Bytes (k : EdgeKey) : List UInt8 :=
  beBytes 4 k.srcIP.toNat ++ order.bytes 2 k.dstPort ++ [UInt8.ofNat k.proto, 0]

/-- The packet of a frame with its IPv4 header at an offset. -/
def IPv4At (data : PacketBytes) (off : Nat) (p : IPPacket Addr4) : Prop :=
  parseEth data = some (0x0800, off) ∧ parseIPv4Header data off = some p

/-- The key that the program looks up for a packet; there is none for a packet without a port. -/
def xdpEdgeKey (data : PacketBytes) (off : Nat) (p : IPPacket Addr4) : Option (List UInt8) :=
  if p.l4.dport ≠ 0 then
    some ((data.drop (off + 12)).take 4 ++ order.bytes 2 p.l4.dport ++ [UInt8.ofNat p.proto, 0])
  else none

variable {order} {k k' : EdgeKey} {data : PacketBytes} {off : Nat} {p : IPPacket Addr4}

def EdgeKey.Fits (k : EdgeKey) : Prop := k.dstPort < 2 ^ 16 ∧ k.proto < 2 ^ 8

theorem edge4Bytes_injective (hk : k.Fits) (hk' : k'.Fits) (h : edge4Bytes order k = edge4Bytes order k') :
    k = k' := by
  unfold edge4Bytes at h
  have hlast := List.append_inj' h rfl
  have hfirst := List.append_inj hlast.1 (by rw [beBytes_length, beBytes_length])
  have hsrc := @beBytes_injective 4 _ _ k.srcIP.isLt k'.srcIP.isLt hfirst.1
  have hport := @ByteOrder.bytes_injective _ 2 _ _ hk.1 hk'.1 hfirst.2
  have hproto : UInt8.ofNat k.proto = UInt8.ofNat k'.proto := (List.cons.inj hlast.2).1
  have hproto' := congrArg UInt8.toNat hproto
  rw [UInt8.toNat_ofNat', UInt8.toNat_ofNat', Nat.mod_eq_of_lt hk.2, Nat.mod_eq_of_lt hk'.2] at hproto'
  cases k
  cases k'
  simp only [EdgeKey.mk.injEq]
  exact ⟨BitVec.eq_of_toNat_eq hsrc, hport, hproto'⟩

theorem parseIPv4Header_fields (h : parseIPv4Header data off = some p) :
    off + 20 ≤ data.length ∧ p.saddr = BitVec.ofNat 32 (data.field (off + 12) 4) ∧ p.proto < 2 ^ 8 := by
  unfold parseIPv4Header at h
  split_ifs at h with hlength
  dsimp only at h
  split_ifs at h
  obtain rfl := Option.some.inj h
  exact ⟨not_lt.mp hlength, rfl, data.field_lt (off + 9) 1⟩

theorem fits_edgeKey (h : parseIPv4Header data off = some p) : p.edgeKey.Fits := by
  obtain ⟨l4off, hl4⟩ := parseIPv4Header_l4 h
  refine ⟨?_, (parseIPv4Header_fields h).2.2⟩
  rw [IPPacket.edgeKey, hl4]
  exact parseL4_dport_lt data l4off p.proto IPPROTO_ICMP

theorem xdpEdgeKey_eq (h : parseIPv4Header data off = some p) (hport : p.l4.dport ≠ 0) :
    xdpEdgeKey order data off p = some (edge4Bytes order p.edgeKey) := by
  obtain ⟨hlength, hsaddr, -⟩ := parseIPv4Header_fields h
  have hfield : beBytes 4 p.edgeKey.srcIP.toNat = (data.drop (off + 12)).take 4 := by
    have hlt : data.field (off + 12) 4 < 2 ^ 32 := data.field_lt (off + 12) 4
    rw [IPPacket.edgeKey, hsaddr, BitVec.toNat_ofNat, Nat.mod_eq_of_lt hlt]
    exact beBytes_field (by omega)
  rw [xdpEdgeKey, if_pos hport, edge4Bytes, hfield]
  rfl

theorem xdpEdgeKey_eq_iff (h : parseIPv4Header data off = some p) (hk : k.Fits) (hport : k.dstPort ≠ 0) :
    xdpEdgeKey order data off p = some (edge4Bytes order k) ↔
      p.saddr = k.srcIP ∧ p.l4.dport = k.dstPort ∧ p.proto = k.proto := by
  by_cases hzero : p.l4.dport = 0
  · refine iff_of_false ?_ fun hp => hport (hp.2.1.symm.trans hzero)
    rw [xdpEdgeKey, if_neg (not_not.mpr hzero)]
    exact Option.some_ne_none _ ∘ Eq.symm
  · rw [xdpEdgeKey_eq h hzero, Option.some_inj]
    constructor
    · intro hbytes
      obtain rfl := edge4Bytes_injective (fits_edgeKey h) hk hbytes
      exact ⟨rfl, rfl, rfl⟩
    · rintro ⟨hsrc, hdport, hproto⟩
      rw [IPPacket.edgeKey, hsrc, hdport, hproto]

end Keys

section Descriptions

structure EdgeDescription where
  src : String
  port : String
  proto : String

/-- `fmt.Sscanf(s, "%d", &port)` into an unsigned number: leading blanks other than newlines are skipped, and
what follows the digits is left alone. -/
def sscanUint (s : String) : Option Nat :=
  if '\n' ∈ s.toList.takeWhile isSpace then none
  else
    match digitsValue ((s.toList.dropWhile isSpace).takeWhile Char.isDigit) with
    | none => none
    | some n => if n < 2 ^ 64 then some n else none

/-- The command line; `none` ends the process. -/
def parseEdge4Key (d : EdgeDescription) : Option EdgeKey :=
  (parseIPv4 d.src).bind fun ip =>
    (sscanUint d.port).bind fun port =>
      (protoNumber (toLower d.proto)).map fun proto => ⟨ip, port % 2 ^ 16, proto⟩

/-- The texts of a relationship that its key is made of. -/
def RelationshipTarget.description (t : RelationshipTarget) : EdgeDescription where
  src := t.subjectID
  port := relationshipDimension t "port" "destination_port"
  proto := relationshipDimension t "proto" "protocol"

/-- The flows that a description stands for. -/
structure FlowTuple where
  src : Addr4
  port : Nat
  proto : Nat
  deriving DecidableEq

def EdgeDescription.flow (d : EdgeDescription) : Option FlowTuple :=
  (parseIPv4 d.src).bind fun ip =>
    (sscanUint d.port).bind fun port => (protoNumber (toLower d.proto)).map fun proto => ⟨ip, port, proto⟩

def WritesKey (t : RelationshipTarget) (key : EdgeKey) : Prop :=
  parseEdge4Key t.description = some key ∨ relationshipEdgeKey t = some key

/-- The edge key of a description means the same to the command line, the agent and the program. -/
structure OneMeaning (order : ByteOrder) (t : RelationshipTarget) : Prop where
  packets : ∀ flow key, t.description.flow = some flow → WritesKey t key →
    ∀ data off p, IPv4At data off p → (xdpEdgeKey order data off p = some (edge4Bytes order key) ↔
      p.saddr = flow.src ∧ p.l4.dport = flow.port ∧ p.proto = flow.proto)
  same : ∀ key key', WritesKey t key → WritesKey t key' → edge4Bytes order key = edge4Bytes order key'
  accepted : (parseEdge4Key t.description).isSome = (relationshipEdgeKey t).isSome
  port : ∀ key n, WritesKey t key → digitsValue t.description.port.toList = some n → key.dstPort = n

/-- Two descriptions mean one flow each, and different flows have different keys. -/
structure MeanTheSame (order : ByteOrder) (t t' : RelationshipTarget) : Prop where
  left : OneMeaning order t
  right : OneMeaning order t'
  distinct : ∀ key key', WritesKey t key → WritesKey t' key' → t.description.flow ≠ t'.description.flow →
    edge4Bytes order key ≠ edge4Bytes order key'

/-- A description that the command line can read has a port of digits only, from 1 to 65535, and a protocol in
lower case. -/
def EdgeDescription.Written (d : EdgeDescription) : Prop :=
  (parseIPv4 d.src).isSome = true → (sscanUint d.port).isSome = true →
    (protoNumber (toLower d.proto)).isSome = true →
      (∃ n, digitsValue d.port.toList = some n ∧ 0 < n ∧ n < 2 ^ 16) ∧ (protoNumber d.proto).isSome = true

variable {t t' : RelationshipTarget} {key key' : EdgeKey} {order : ByteOrder} {d : EdgeDescription} {n : Nat}

theorem toLower_of_protoNumber {proto : String} (h : (protoNumber proto).isSome = true) :
    toLower proto = proto := by
  have hnames : toLower "tcp" = "tcp" ∧ toLower "udp" = "udp" ∧ toLower "icmp" = "icmp" := by decide +kernel
  unfold protoNumber at h
  split_ifs at h with htcp hudp hicmp
  · rw [htcp, hnames.1]
  · rw [hudp, hnames.2.1]
  · rw [hicmp, hnames.2.2]
  · cases h

theorem protoNumber_lt {proto : String} {number : Nat} (h : protoNumber proto = some number) :
    number < 2 ^ 8 := by
  unfold protoNumber at h
  split_ifs at h <;> cases h <;> decide

theorem digits_of_digitsValue {cs : List Char} (h : digitsValue cs = some n) :
    cs ≠ [] ∧ ∀ c ∈ cs, c.isDigit = true := by
  unfold digitsValue at h
  split_ifs at h with hcs
  exact ⟨hcs.1, List.all_eq_true.mp hcs.2⟩

theorem sscanUint_of_digits {s : String} (h : digitsValue s.toList = some n) (hn : n < 2 ^ 64) :
    sscanUint s = some n := by
  obtain ⟨hne, hdigits⟩ := digits_of_digitsValue h
  obtain ⟨c, cs, hcs⟩ := List.exists_cons_of_ne_nil hne
  have hspace : isSpace c = false := isSpace_of_isDigit (hdigits c (by rw [hcs]; exact List.mem_cons_self))
  have hblank : s.toList.takeWhile isSpace = [] := by
    rw [hcs, List.takeWhile_cons_of_neg (by simp [hspace])]
  have hrest : s.toList.dropWhile isSpace = s.toList := by
    rw [hcs, List.dropWhile_cons_of_neg (by simp [hspace])]
  have htoken : s.toList.takeWhile Char.isDigit = s.toList := List.takeWhile_eq_self_iff.mpr hdigits
  rw [sscanUint, hblank, if_neg List.not_mem_nil, hrest, htoken, h]
  exact if_pos hn

theorem flow_eq_some {flow : FlowTuple} : d.flow = some flow ↔
    parseIPv4 d.src = some flow.src ∧ sscanUint d.port = some flow.port ∧
      protoNumber (toLower d.proto) = some flow.proto := by
  simp only [EdgeDescription.flow, Option.bind_eq_some_iff, Option.map_eq_some_iff]
  constructor
  · rintro ⟨ip, hip, port, hport, proto, hproto, rfl⟩
    exact ⟨hip, hport, hproto⟩
  · rintro ⟨hip, hport, hproto⟩
    exact ⟨flow.src, hip, flow.port, hport, flow.proto, hproto, rfl⟩

theorem parseEdge4Key_eq_some : parseEdge4Key d = some key ↔
    ∃ flow, d.flow = some flow ∧ key = ⟨flow.src, flow.port % 2 ^ 16, flow.proto⟩ := by
  simp only [parseEdge4Key, Option.bind_eq_some_iff, Option.map_eq_some_iff, flow_eq_some]
  constructor
  · rintro ⟨ip, hip, port, hport, proto, hproto, rfl⟩
    exact ⟨⟨ip, port, proto⟩, ⟨hip, hport, hproto⟩, rfl⟩
  · rintro ⟨flow, ⟨hip, hport, hproto⟩, rfl⟩
    exact ⟨flow.src, hip, flow.port, hport, flow.proto, hproto, rfl⟩

theorem parseUint16_eq_some {s : String} :
    parseUint16 s = some n ↔ digitsValue s.toList = some n ∧ n < 2 ^ 16 := by
  unfold parseUint16
  cases digitsValue s.toList with
  | none => simp
  | some m =>
    simp only [Option.ite_none_right_eq_some, Option.some_inj]
    constructor
    · rintro ⟨hm, rfl⟩
      exact ⟨rfl, hm⟩
    · rintro ⟨rfl, hm⟩
      exact ⟨hm, rfl⟩

theorem klshieldRelationshipDimension_eq_some {proto : String} :
    klshieldRelationshipDimension t = some (n, proto) ↔ proto ≠ "" ∧ proto = t.description.proto ∧
      digitsValue t.description.port.toList = some n ∧ 0 < n ∧ n < 2 ^ 16 := by
  change (if t.description.port = "" ∨ t.description.proto = "" then none
    else match parseUint16 t.description.port with
      | none => none
      | some port => if port = 0 then none else some (port, t.description.proto)) = some (n, proto) ↔ _
  by_cases hblank : t.description.port = "" ∨ t.description.proto = ""
  · rw [if_pos hblank]
    refine iff_of_false (Option.some_ne_none _ ∘ Eq.symm) ?_
    rintro ⟨hne, heq, hdigits, -⟩
    rcases hblank with hport | hproto
    · rw [hport] at hdigits
      exact (digits_of_digitsValue hdigits).1 rfl
    · exact hne (heq.trans hproto)
  rw [if_neg hblank]
  rw [not_or] at hblank
  cases hport : parseUint16 t.description.port with
  | none =>
    refine iff_of_false (Option.some_ne_none _ ∘ Eq.symm) ?_
    rintro ⟨-, -, hdigits, -, hlt⟩
    rw [parseUint16_eq_some.mpr ⟨hdigits, hlt⟩] at hport
    cases hport
  | some m =>
    obtain ⟨hdigits, hlt⟩ := parseUint16_eq_some.mp hport
    simp only [Option.ite_none_left_eq_some, Option.some_inj, Prod.mk.injEq]
    constructor
    · rintro ⟨hzero, rfl, rfl⟩
      exact ⟨hblank.2, rfl, hdigits, Nat.pos_of_ne_zero hzero, hlt⟩
    · rintro ⟨-, rfl, hdigits', hpos, -⟩
      obtain rfl := Option.some.inj (hdigits.symm.trans hdigits')
      exact ⟨hpos.ne', rfl, rfl⟩

theorem relationshipEdgeKey_eq_some : relationshipEdgeKey t = some key ↔
    ∃ ip n proto, parseIPv4 t.description.src = some ip ∧ digitsValue t.description.port.toList = some n ∧
      0 < n ∧ n < 2 ^ 16 ∧ protoNumber t.description.proto = some proto ∧ key = ⟨ip, n, proto⟩ := by
  rw [relationshipEdgeKey, Option.bind_eq_some_iff]
  constructor
  · rintro ⟨⟨n, proto⟩, hdim, hkey⟩
    obtain ⟨-, rfl, hdigits, hpos, hlt⟩ := klshieldRelationshipDimension_eq_some.mp hdim
    unfold newEdge4Key at hkey
    cases hip : parseIPv4 t.subjectID with
    | none =>
      rw [hip] at hkey
      cases hkey
    | some ip =>
      rw [hip] at hkey
      obtain ⟨number, hnumber, rfl⟩ := Option.map_eq_some_iff.mp hkey
      exact ⟨ip, n, number, hip, hdigits, hpos, hlt, hnumber, rfl⟩
  · rintro ⟨ip, n, number, hip, hdigits, hpos, hlt, hnumber, rfl⟩
    have hproto : t.description.proto ≠ "" := by
      intro hempty
      have hnone : protoNumber "" = none := by decide
      rw [hempty, hnone] at hnumber
      cases hnumber
    have hdim := klshieldRelationshipDimension_eq_some.mpr ⟨hproto, rfl, hdigits, hpos, hlt⟩
    refine ⟨(n, t.description.proto), hdim, ?_⟩
    have hip' : parseIPv4 t.subjectID = some ip := hip
    rw [newEdge4Key, hip']
    exact Option.map_eq_some_iff.mpr ⟨number, hnumber, rfl⟩

theorem parseEdge4Key_of_relationshipEdgeKey (h : relationshipEdgeKey t = some key) :
    parseEdge4Key t.description = some key ∧ t.description.flow = some ⟨key.srcIP, key.dstPort, key.proto⟩ ∧
      digitsValue t.description.port.toList = some key.dstPort ∧ 0 < key.dstPort ∧ key.Fits := by
  obtain ⟨ip, n, proto, hip, hdigits, hpos, hlt, hproto, rfl⟩ := relationshipEdgeKey_eq_some.mp h
  have hlower : protoNumber (toLower t.description.proto) = some proto := by
    rw [toLower_of_protoNumber (by rw [hproto]; rfl), hproto]
  have hflow : t.description.flow = some ⟨ip, n, proto⟩ :=
    flow_eq_some.mpr ⟨hip, sscanUint_of_digits hdigits (hlt.trans (by decide)), hlower⟩
  refine ⟨parseEdge4Key_eq_some.mpr ⟨_, hflow, ?_⟩, hflow, hdigits, hpos, hlt, protoNumber_lt hproto⟩
  rw [Nat.mod_eq_of_lt hlt]

theorem written_iff : t.description.Written ↔
    ∀ key, parseEdge4Key t.description = some key → relationshipEdgeKey t = some key := by
  constructor
  · intro h key hkey
    obtain ⟨flow, hflow, rfl⟩ := parseEdge4Key_eq_some.mp hkey
    obtain ⟨hip, hport, hproto⟩ := flow_eq_some.mp hflow
    obtain ⟨⟨n, hdigits, hpos, hlt⟩, hnumber⟩ := h (by rw [hip]; rfl) (by rw [hport]; rfl) (by rw [hproto]; rfl)
    rw [toLower_of_protoNumber hnumber] at hproto
    rw [sscanUint_of_digits hdigits (hlt.trans (by decide))] at hport
    obtain rfl := Option.some.inj hport
    exact relationshipEdgeKey_eq_some.mpr
      ⟨flow.src, flow.port, flow.proto, hip, hdigits, hpos, hlt, hproto, by rw [Nat.mod_eq_of_lt hlt]⟩
  · intro h hip hport hproto
    obtain ⟨ip, hip⟩ := Option.isSome_iff_exists.mp hip
    obtain ⟨port, hport⟩ := Option.isSome_iff_exists.mp hport
    obtain ⟨proto, hproto⟩ := Option.isSome_iff_exists.mp hproto
    have hkey := parseEdge4Key_eq_some.mpr ⟨⟨ip, port, proto⟩, flow_eq_some.mpr ⟨hip, hport, hproto⟩, rfl⟩
    obtain ⟨-, n, number, -, hdigits, hpos, hlt, hnumber, -⟩ := relationshipEdgeKey_eq_some.mp (h _ hkey)
    exact ⟨⟨n, hdigits, hpos, hlt⟩, by rw [hnumber]; rfl⟩

theorem oneMeaning_of_written (h : t.description.Written) : OneMeaning order t := by
  have hagent : ∀ {key}, WritesKey t key → relationshipEdgeKey t = some key :=
    fun hkey => hkey.elim (written_iff.mp h _) id
  refine ⟨?_, ?_, ?_, ?_⟩
  · intro flow key hflow hkey data off p hp
    obtain ⟨-, hflow', -, hpos, hfits⟩ := parseEdge4Key_of_relationshipEdgeKey (hagent hkey)
    obtain rfl := Option.some.inj (hflow'.symm.trans hflow)
    exact xdpEdgeKey_eq_iff hp.2 hfits hpos.ne'
  · intro key key' hkey hkey'
    rw [Option.some.inj ((hagent hkey).symm.trans (hagent hkey'))]
  · cases hkey : relationshipEdgeKey t with
    | none =>
      cases hcli : parseEdge4Key t.description with
      | none => rfl
      | some key =>
        rw [written_iff.mp h key hcli] at hkey
        cases hkey
    | some key => rw [(parseEdge4Key_of_relationshipEdgeKey hkey).1]
  · intro key n hkey hdigits
    obtain ⟨-, -, hdigits', -⟩ := parseEdge4Key_of_relationshipEdgeKey (hagent hkey)
    exact Option.some.inj (hdigits'.symm.trans hdigits)

/-- Two descriptions mean the same everywhere exactly when what the command line reads of them is written as the
agent reads it. -/
theorem meanTheSame_iff (order : ByteOrder) (t t' : RelationshipTarget) :
    MeanTheSame order t t' ↔ t.description.Written ∧ t'.description.Written := by
  have hwritten : ∀ {t}, OneMeaning order t → t.description.Written := by
    intro t h
    refine written_iff.mpr fun key hkey => ?_
    have haccepted := h.accepted
    rw [hkey, Option.isSome_some] at haccepted
    obtain ⟨key', hkey'⟩ := Option.isSome_iff_exists.mp haccepted.symm
    have hcli := (parseEdge4Key_of_relationshipEdgeKey hkey').1
    rw [hkey', Option.some.inj (hcli.symm.trans hkey)]
  constructor
  · exact fun h => ⟨hwritten h.left, hwritten h.right⟩
  · rintro ⟨h, h'⟩
    refine ⟨oneMeaning_of_written h, oneMeaning_of_written h', fun key key' hkey hkey' hne hbytes => hne ?_⟩
    have hagent := hkey.elim (written_iff.mp h key) id
    have hagent' := hkey'.elim (written_iff.mp h' key') id
    obtain ⟨-, hflow, -, -, hfits⟩ := parseEdge4Key_of_relationshipEdgeKey hagent
    obtain ⟨-, hflow', -, -, hfits'⟩ := parseEdge4Key_of_relationshipEdgeKey hagent'
    rw [hflow, hflow', edge4Bytes_injective hfits hfits' hbytes]

/-- The relationship of a source to a port of the node. -/
def webTarget (port : String) : RelationshipTarget :=
  { subjectID := "192.0.2.7", targetID := "node", attributes := ∅
    dimension := GoMap.ofList [("port", port), ("proto", "tcp")] }

/-- A port above 65535 is taken for another one. -/
theorem port_truncated : ¬ ∀ order t t', MeanTheSame order t t' := by
  intro h
  have hport := (h .little (webTarget "65616") (webTarget "65616")).left.port ⟨0xc0000207, 80, 6⟩ 65616
    (.inl (by decide +kernel)) (by decide +kernel)
  exact absurd hport (by decide)

end Descriptions

end Kernloom
