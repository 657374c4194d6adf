import Kernloom.Conntrack

/-! The lines that the kernel prints of the connection table, and what the observer reads back from them. -/

namespace Kernloom

namespace Conntrack

section Fields

/-- A text that is one field of a line. -/
def Solid (s : String) : Prop := s ≠ "" ∧ ∀ c ∈ s.toList, isSpace c = false

/-- Fields in columns: each is followed by at least one blank. -/
def lineText (gap : Nat → Nat) : List String → String
  | [] => ""
  | f :: fields => f ++ String.ofList (List.replicate (gap fields.length + 1) ' ') ++ lineText gap fields

theorem Solid.append {s t : String} (hs : Solid s) (ht : ∀ c ∈ t.toList, isSpace c = false) :
    Solid (s ++ t) := by
  refine ⟨fun heq => hs.1 ?_, fun c hc => ?_⟩
  · exact (String.append_eq_empty_iff.mp heq).1
  · rw [String.toList_append] at hc
    exact (List.mem_append.mp hc).elim (hs.2 c) (ht c)

theorem solid_repr (n : Nat) : Solid (Nat.repr n) := by
  refine ⟨fun heq => ?_, fun c hc => isSpace_of_isDigit (isDigit_of_mem_repr hc)⟩
  have hlist := toList_repr n
  rw [heq] at hlist
  exact Nat.toDigits_ne_nil hlist.symm

theorem fieldsFunc_blanks (n : Nat) (s : String) :
    fieldsFunc (String.ofList (List.replicate n ' ') ++ s) isSpace = fieldsFunc s isSpace := by
  induction n with
  | zero => simp
  | succ n ih =>
    have hcons : String.ofList (List.replicate (n + 1) ' ') ++ s =
        "" ++ String.singleton ' ' ++ (String.ofList (List.replicate n ' ') ++ s) := by
      rw [← String.toList_inj]
      simp [List.replicate_succ]
    rw [hcons, fieldsFunc_append (by decide), fieldsFunc_empty, ih]
    rfl

theorem fieldsFunc_lineText (gap : Nat → Nat) {fields : List String} (h : ∀ f ∈ fields, Solid f) :
    fieldsFunc (lineText gap fields) isSpace = fields := by
  induction fields with
  | nil => exact fieldsFunc_empty
  | cons f fields ih =>
    obtain ⟨⟨hne, hsolid⟩, hfields⟩ := List.forall_mem_cons.mp h
    have hcons : lineText gap (f :: fields) = f ++ String.singleton ' ' ++
        (String.ofList (List.replicate (gap fields.length) ' ') ++ lineText gap fields) := by
      rw [lineText, ← String.toList_inj]
      simp [List.replicate_succ]
    rw [hcons, fieldsFunc_append (by decide), fieldsFunc_token hne hsolid, fieldsFunc_blanks, ih hfields]
    rfl

theorem parseFields_comment {line : String} (h : hasPrefix line "#" = true) :
    parseFields (fieldsFunc line isSpace) = none := by
  unfold hasPrefix at h
  obtain ⟨rest, hrest⟩ := List.isPrefixOf_iff_prefix.mp h
  obtain ⟨piece, pieces, hsplit⟩ : ∃ piece pieces,
      splitRunes isSpace line.toList = ('#' :: piece) :: pieces := by
    rw [← hrest]
    change ∃ piece pieces, splitRunes isSpace ('#' :: rest) = ('#' :: piece) :: pieces
    rw [splitRunes, if_neg (by decide)]
    cases splitRunes isSpace rest with
    | nil => exact ⟨[], [], rfl⟩
    | cons piece pieces => exact ⟨piece, pieces, rfl⟩
  have hfields : ∃ more, fieldsFunc line isSpace = String.ofList ('#' :: piece) :: more := by
    unfold fieldsFunc
    rw [hsplit, List.filter_cons_of_pos (by simp)]
    exact ⟨_, rfl⟩
  obtain ⟨more, hmore⟩ := hfields
  have hproto : toLower (String.ofList ('#' :: piece)) ∉ protocols := by
    have hhead : (toLower (String.ofList ('#' :: piece))).toList.head? = some '#' := by
      unfold toLower
      simp [toLowerRune]
    intro hmem
    have hnone : ∀ p ∈ protocols, p.toList.head? ≠ some '#' := by decide
    exact hnone _ hmem hhead
  rw [hmore, parseFields]
  exact if_pos (.inr hproto)

theorem parseLine_eq (line : String) : parseLine line = parseFields (fieldsFunc line isSpace) := by
  rw [← fieldsFunc_trimSpace]
  unfold parseLine
  simp only
  split_ifs with h
  · rcases h with hempty | hcomment
    · rw [hempty, fieldsFunc_empty]
      rfl
    · exact (parseFields_comment hcomment).symm
  · rfl

end Fields

section Entries

inductive Protocol
  | tcp | udp | icmp
  deriving DecidableEq

def Protocol.text : Protocol → String
  | .tcp => "tcp"
  | .udp => "udp"
  | .icmp => "icmp"

def Protocol.number : Protocol → Nat
  | .tcp => 6
  | .udp => 17
  | .icmp => 1

/-- A text of an entry: an address, a state or a label. -/
abbrev Word := { s : String // Solid s }

/-- What a direction has beside its addresses. -/
inductive Endpoints
  | ports (sport dport : UInt16)
  | icmp (type code : UInt8) (id : UInt16)

/-- A direction of a connection; the kernel need not count its packets. -/
structure Direction where
  src : Word
  dst : Word
  endpoints : Endpoints
  counters : Option (UInt64 × UInt64)

/-- The fields that an entry may have beside its directions. -/
inductive Flag
  | unreplied
  | assured
  | mark (n : UInt32)
  | secctx (label : Word)
  | zone (n : UInt16)
  | use (n : UInt32)
  | id (n : UInt32)

/-- An entry of the connection table. The state is one that has no key. -/
structure Entry where
  protocol : Protocol
  timeout : Nat
  state : Option { w : Word // '=' ∉ w.1.toList }
  original : Direction
  between : List Flag
  reply : Direction
  flags : List Flag

def field (key val : String) : String := key ++ "=" ++ val

def Endpoints.fields : Endpoints → List String
  | .ports sport dport => [field "sport" (Nat.repr sport.toNat), field "dport" (Nat.repr dport.toNat)]
  | .icmp type code id =>
    [field "type" (Nat.repr type.toNat), field "code" (Nat.repr code.toNat), field "id" (Nat.repr id.toNat)]

def counterFields : Option (UInt64 × UInt64) → List String
  | some (packets, bytes) =>
    [field "packets" (Nat.repr packets.toNat), field "bytes" (Nat.repr bytes.toNat)]
  | none => []

def Direction.fields (d : Direction) : List String :=
  [field "src" d.src.1, field "dst" d.dst.1] ++ d.endpoints.fields ++ counterFields d.counters

def Flag.text : Flag → String
  | .unreplied => "[UNREPLIED]"
  | .assured => "[ASSURED]"
  | .mark n => field "mark" (Nat.repr n.toNat)
  | .secctx label => field "secctx" label.1
  | .zone n => field "zone" (Nat.repr n.toNat)
  | .use n => field "use" (Nat.repr n.toNat)
  | .id n => field "id" (Nat.repr n.toNat)

/-- The fields of an entry after the timeout. -/
def Entry.details (e : Entry) : List String :=
  (e.state.map (·.1.1)).toList ++ e.original.fields ++ e.between.map Flag.text ++ e.reply.fields ++
    e.flags.map Flag.text

def Entry.fields (e : Entry) : List String :=
  e.protocol.text :: Nat.repr e.protocol.number :: Nat.repr e.timeout :: e.details

/-- The line of an entry, its columns any number of blanks apart. -/
def Entry.line (e : Entry) (gap : Nat → Nat) : String := lineText gap e.fields

/-- The ports of a direction; ICMP has none. -/
def Endpoints.srcPort : Endpoints → UInt16
  | .ports sport _ => sport
  | .icmp .. => 0

def Endpoints.dstPort : Endpoints → UInt16
  | .ports _ dport => dport
  | .icmp .. => 0

def Direction.packets (d : Direction) : UInt64 := (d.counters.map Prod.fst).getD 0

def Direction.bytes (d : Direction) : UInt64 := (d.counters.map Prod.snd).getD 0

/-- The state, where it is one of those that the observer knows. -/
def Entry.knownState (e : Entry) : String :=
  match e.state with
  | some state => if isConnState state.1.1 then state.1.1 else ""
  | none => ""

def Entry.flow (e : Entry) : Flow where
  proto := e.protocol.text
  srcIP := e.original.src.1
  dstIP := e.original.dst.1
  srcPort := e.original.endpoints.srcPort
  dstPort := e.original.endpoints.dstPort
  state := e.knownState
  packets := e.original.packets
  bytes := e.original.bytes

end Entries

section Reading

variable {s : LineState} {key val : String}

theorem solid_field (hkey : Solid key) (hval : ∀ c ∈ val.toList, isSpace c = false) :
    Solid (field key val) := by
  refine (hkey.append fun c hc => ?_).append hval
  obtain rfl : c = '=' := by simpa using hc
  decide

theorem cut_field (hkey : '=' ∉ key.toList) (val : String) : cut (field key val) '=' = some (key, val) :=
  cut_append hkey (by simp [field])

theorem addField_field (hkey : '=' ∉ key.toList) (val : String) :
    s.addField (field key val) = s.setField key val := by
  unfold LineState.addField
  rw [cut_field hkey]

theorem setField_other (h : key ∉ ["src", "dst", "sport", "dport", "packets", "bytes"]) (val : String) :
    s.setField key val = s := by
  simp only [List.mem_cons, List.not_mem_nil, or_false, not_or] at h
  obtain ⟨hsrc, hdst, hsport, hdport, hpackets, hbytes⟩ := h
  unfold LineState.setField
  rw [if_neg hsrc, if_neg hdst, if_neg hsport, if_neg hdport, if_neg hpackets, if_neg hbytes]

theorem addField_flag (f : Flag) : s.addField f.text = s := by
  have hword : ∀ word ∈ ["[UNREPLIED]", "[ASSURED]"], '=' ∉ word.toList ∧ isConnState word = false := by
    decide
  have hbracket (word : String) (hmem : word ∈ ["[UNREPLIED]", "[ASSURED]"]) : s.addField word = s := by
    obtain ⟨hcut, hstate⟩ := hword word hmem
    unfold LineState.addField
    rw [cut_of_notMem hcut]
    simp only [hstate, Bool.false_eq_true, and_false, if_false]
  cases f with
  | unreplied => exact hbracket _ (by decide)
  | assured => exact hbracket _ (by decide)
  | mark n | secctx n | zone n | use n | id n =>
    exact (addField_field (by decide) _).trans (setField_other (by decide) _)

theorem foldl_flags (flags : List Flag) : (flags.map Flag.text).foldl LineState.addField s = s := by
  induction flags with
  | nil => rfl
  | cons f flags ih => rw [List.map_cons, List.foldl_cons, addField_flag, ih]

/-- The state after the fields of a direction: each value that is still zero is that of the direction. -/
def LineState.withDirection (s : LineState) (d : Direction) : LineState where
  flow :=
    { s.flow with
      srcIP := if s.srcSeen then s.flow.srcIP else d.src.1
      dstIP := if s.dstSeen then s.flow.dstIP else d.dst.1
      srcPort := if s.flow.srcPort = 0 then d.endpoints.srcPort else s.flow.srcPort
      dstPort := if s.flow.dstPort = 0 then d.endpoints.dstPort else s.flow.dstPort
      packets := if s.flow.packets = 0 then d.packets else s.flow.packets
      bytes := if s.flow.bytes = 0 then d.bytes else s.flow.bytes }
  srcSeen := true
  dstSeen := true

theorem foldl_endpoints (ep : Endpoints) : ep.fields.foldl LineState.addField s =
    { s with flow := { s.flow with
        srcPort := if s.flow.srcPort = 0 then ep.srcPort else s.flow.srcPort
        dstPort := if s.flow.dstPort = 0 then ep.dstPort else s.flow.dstPort } } := by
  cases ep with
  | ports sport dport =>
    have hsport : s.setField "sport" (Nat.repr sport.toNat) = { s with flow := { s.flow with
        srcPort := if s.flow.srcPort = 0 then sport else s.flow.srcPort } } := by
      simp only [LineState.setField, String.reduceEq, if_false, if_true, parseUint16_repr sport.toNat_lt,
        UInt16.ofNat_toNat]
      split_ifs <;> rfl
    have hdport (s : LineState) : s.setField "dport" (Nat.repr dport.toNat) = { s with flow := { s.flow with
        dstPort := if s.flow.dstPort = 0 then dport else s.flow.dstPort } } := by
      simp only [LineState.setField, String.reduceEq, if_false, if_true, parseUint16_repr dport.toNat_lt,
        UInt16.ofNat_toNat]
      split_ifs <;> rfl
    simp only [Endpoints.fields, List.foldl_cons, List.foldl_nil]
    rw [addField_field (by decide), addField_field (by decide), hsport, hdport]
    rfl
  | icmp type code id =>
    have hzero {p : UInt16} : (if p = 0 then 0 else p) = p := by
      split_ifs with h
      · exact h.symm
      · rfl
    simp only [Endpoints.fields, List.foldl_cons, List.foldl_nil, Endpoints.srcPort, Endpoints.dstPort, hzero]
    rw [addField_field (by decide), addField_field (by decide), addField_field (by decide),
      setField_other (by decide), setField_other (by decide), setField_other (by decide)]

theorem foldl_counters (counters : Option (UInt64 × UInt64)) :
    (counterFields counters).foldl LineState.addField s =
      { s with flow := { s.flow with
          packets := if s.flow.packets = 0 then (counters.map Prod.fst).getD 0 else s.flow.packets
          bytes := if s.flow.bytes = 0 then (counters.map Prod.snd).getD 0 else s.flow.bytes } } := by
  cases counters with
  | none =>
    have hzero {n : UInt64} : (if n = 0 then 0 else n) = n := by
      split_ifs with h
      · exact h.symm
      · rfl
    simp only [counterFields, List.foldl_nil, Option.map_none, Option.getD_none, hzero]
  | some counters =>
    obtain ⟨packets, bytes⟩ := counters
    have hpackets : s.setField "packets" (Nat.repr packets.toNat) = { s with flow := { s.flow with
        packets := if s.flow.packets = 0 then packets else s.flow.packets } } := by
      simp only [LineState.setField, String.reduceEq, if_false, if_true, parseUint64_repr]
      split_ifs <;> rfl
    have hbytes (s : LineState) : s.setField "bytes" (Nat.repr bytes.toNat) = { s with flow := { s.flow with
        bytes := if s.flow.bytes = 0 then bytes else s.flow.bytes } } := by
      simp only [LineState.setField, String.reduceEq, if_false, if_true, parseUint64_repr]
      split_ifs <;> rfl
    simp only [counterFields, List.foldl_cons, List.foldl_nil]
    rw [addField_field (by decide), addField_field (by decide), hpackets, hbytes]
    rfl

theorem foldl_direction (d : Direction) : d.fields.foldl LineState.addField s = s.withDirection d := by
  have hsrc : s.setField "src" d.src.1 = { s with
      flow := { s.flow with srcIP := if s.srcSeen then s.flow.srcIP else d.src.1 }, srcSeen := true } := by
    simp only [LineState.setField, if_true]
    split_ifs with hseen
    · rw [← hseen]
    · rfl
  have hdst (s : LineState) : s.setField "dst" d.dst.1 = { s with
      flow := { s.flow with dstIP := if s.dstSeen then s.flow.dstIP else d.dst.1 }, dstSeen := true } := by
    simp only [LineState.setField, String.reduceEq, if_false, if_true]
    split_ifs with hseen
    · rw [← hseen]
    · rfl
  unfold Direction.fields
  rw [List.foldl_append, List.foldl_append, List.foldl_cons, List.foldl_cons, List.foldl_nil,
    addField_field (by decide), addField_field (by decide), hsrc, hdst, foldl_endpoints, foldl_counters]
  rfl

theorem foldl_state (e : Entry) (proto : String) :
    (e.state.map (·.1.1)).toList.foldl LineState.addField ⟨{ proto }, false, false⟩ =
      ⟨{ proto, state := e.knownState }, false, false⟩ := by
  unfold Entry.knownState
  cases e.state with
  | none => rfl
  | some state =>
    simp only [Option.map_some, Option.toList_some, List.foldl_cons, List.foldl_nil]
    unfold LineState.addField
    rw [cut_of_notMem state.2]
    simp only [true_and]
    split_ifs <;> rfl

end Reading

section Accepted

theorem literals_solid : ∀ w ∈ ["tcp", "udp", "icmp", "src", "dst", "sport", "dport", "packets", "bytes",
    "type", "code", "id", "mark", "secctx", "zone", "use", "[UNREPLIED]", "[ASSURED]"], Solid w := by
  have hall : ∀ w ∈ ["tcp", "udp", "icmp", "src", "dst", "sport", "dport", "packets", "bytes", "type", "code",
      "id", "mark", "secctx", "zone", "use", "[UNREPLIED]", "[ASSURED]"],
      w ≠ "" ∧ w.toList.all (fun c => !isSpace c) = true := by decide +kernel
  intro w hw
  obtain ⟨hne, hchars⟩ := hall w hw
  exact ⟨hne, fun c hc => by simpa using List.all_eq_true.mp hchars c hc⟩

theorem Flag.solid_text (f : Flag) : Solid f.text := by
  cases f with
  | unreplied | assured => exact literals_solid _ (by simp [Flag.text])
  | secctx label => exact solid_field (literals_solid _ (by simp)) label.2.2
  | mark n | zone n | use n | id n => exact solid_field (literals_solid _ (by simp)) (solid_repr _).2

theorem Direction.solid_fields (d : Direction) : ∀ f ∈ d.fields, Solid f := by
  intro f hf
  unfold Direction.fields at hf
  rcases List.mem_append.mp hf with hf | hf
  · rcases List.mem_append.mp hf with hf | hf
    · simp only [List.mem_cons, List.not_mem_nil, or_false] at hf
      rcases hf with rfl | rfl
      · exact solid_field (literals_solid _ (by simp)) d.src.2.2
      · exact solid_field (literals_solid _ (by simp)) d.dst.2.2
    · unfold Endpoints.fields at hf
      split at hf
      · simp only [List.mem_cons, List.not_mem_nil, or_false] at hf
        rcases hf with rfl | rfl <;> exact solid_field (literals_solid _ (by simp)) (solid_repr _).2
      · simp only [List.mem_cons, List.not_mem_nil, or_false] at hf
        rcases hf with rfl | rfl | rfl <;> exact solid_field (literals_solid _ (by simp)) (solid_repr _).2
  · unfold counterFields at hf
    split at hf
    · simp only [List.mem_cons, List.not_mem_nil, or_false] at hf
      rcases hf with rfl | rfl <;> exact solid_field (literals_solid _ (by simp)) (solid_repr _).2
    · cases hf

theorem Entry.solid_fields (e : Entry) : ∀ f ∈ e.fields, Solid f := by
  have hproto : Solid e.protocol.text := by
    cases e.protocol <;> exact literals_solid _ (by simp [Protocol.text])
  have hdetails : ∀ f ∈ e.details, Solid f := by
    intro f hf
    simp only [Entry.details, List.mem_append, List.mem_map, Option.mem_toList, Option.map_eq_some_iff] at hf
    rcases hf with (((⟨state, -, rfl⟩ | hf) | ⟨flag, -, rfl⟩) | hf) | ⟨flag, -, rfl⟩
    · exact state.1.2
    · exact e.original.solid_fields f hf
    · exact flag.solid_text
    · exact e.reply.solid_fields f hf
    · exact flag.solid_text
  unfold Entry.fields
  simp only [List.forall_mem_cons]
  exact ⟨hproto, solid_repr _, solid_repr _, hdetails⟩

/-- What is read of an entry: the values of the reply where those of the original direction are zero. -/
def Entry.parsed (e : Entry) : Flow :=
  { e.flow with
    srcPort :=
      if e.original.endpoints.srcPort = 0 then e.reply.endpoints.srcPort else e.original.endpoints.srcPort
    dstPort :=
      if e.original.endpoints.dstPort = 0 then e.reply.endpoints.dstPort else e.original.endpoints.dstPort
    packets := if e.original.packets = 0 then e.reply.packets else e.original.packets
    bytes := if e.original.bytes = 0 then e.reply.bytes else e.original.bytes }

theorem foldl_details (e : Entry) :
    (e.details.foldl LineState.addField ⟨{ proto := e.protocol.text }, false, false⟩).flow = e.parsed := by
  unfold Entry.details
  rw [List.foldl_append, List.foldl_append, List.foldl_append, List.foldl_append, foldl_state,
    foldl_direction, foldl_flags, foldl_direction, foldl_flags]
  rfl

theorem parseLine_line (e : Entry) (gap : Nat → Nat) : parseLine (e.line gap) = some e.parsed := by
  have hproto : toLower e.protocol.text = e.protocol.text ∧ e.protocol.text ∈ protocols := by
    have hall : ∀ p : Protocol, toLower p.text = p.text ∧ p.text ∈ protocols := fun p => by
      cases p <;> decide +kernel
    exact hall e.protocol
  have hlength : 4 ≤ e.fields.length := by
    simp only [Entry.fields, Entry.details, Direction.fields, List.length_cons, List.length_append]
    omega
  have hhead : toLower (e.fields.headD "") = e.protocol.text := hproto.1
  have hdrop : e.fields.drop 3 = e.details := rfl
  have hsrc : e.parsed.srcIP ≠ "" := e.original.src.2.1
  have hdst : e.parsed.dstIP ≠ "" := e.original.dst.2.1
  rw [parseLine_eq, Entry.line, fieldsFunc_lineText gap e.solid_fields]
  unfold parseFields
  simp only [hhead, hdrop, foldl_details]
  rw [if_neg (not_or.mpr ⟨not_lt.mpr hlength, not_not.mpr hproto.2⟩), if_neg (not_or.mpr ⟨hsrc, hdst⟩)]

/-- No value of the reply takes the place of a zero. -/
@[mk_iff]
structure Entry.Unmasked (e : Entry) : Prop where
  srcPort : e.original.endpoints.srcPort = 0 → e.reply.endpoints.srcPort = 0
  dstPort : e.original.endpoints.dstPort = 0 → e.reply.endpoints.dstPort = 0
  packets : e.original.packets = 0 → e.reply.packets = 0
  bytes : e.original.bytes = 0 → e.reply.bytes = 0

theorem parsed_eq_flow_iff (e : Entry) : e.parsed = e.flow ↔ e.Unmasked := by
  have hport {p q : UInt16} : (if p = 0 then q else p) = p ↔ (p = 0 → q = 0) := by
    split_ifs with h <;> simp [h]
  have hcount {p q : UInt64} : (if p = 0 then q else p) = p ↔ (p = 0 → q = 0) := by
    split_ifs with h <;> simp [h]
  rw [Entry.unmasked_iff, ← hport, ← hport, ← hcount, ← hcount]
  simp only [Entry.parsed, Entry.flow, Flow.mk.injEq, true_and]

def firstValue (key : String) (fields : List String) : Option String :=
  fields.findSome? fun f => (cut f '=').bind fun kv => if kv.1 = key then some kv.2 else none

/-- A line with a known protocol and the two addresses of a direction. -/
@[mk_iff]
structure HasOriginal (line : String) : Prop where
  fields : 4 ≤ (fieldsFunc line isSpace).length
  protocol : toLower ((fieldsFunc line isSpace).headD "") ∈ protocols
  src : (firstValue "src" ((fieldsFunc line isSpace).drop 3)).getD "" ≠ ""
  dst : (firstValue "dst" ((fieldsFunc line isSpace).drop 3)).getD "" ≠ ""

theorem firstValue_cons (key field : String) (fields : List String) : firstValue key (field :: fields) =
    ((cut field '=').bind fun kv => if kv.1 = key then some kv.2 else none).or (firstValue key fields) := by
  unfold firstValue
  rw [List.findSome?_cons]
  cases (cut field '=').bind fun kv => if kv.1 = key then some kv.2 else none <;> rfl

theorem setField_keeps_src {s : LineState} {key : String} (h : key ≠ "src") (val : String) :
    (s.setField key val).flow.srcIP = s.flow.srcIP ∧ (s.setField key val).srcSeen = s.srcSeen := by
  unfold LineState.setField
  rw [if_neg h]
  split_ifs <;> (try split) <;> exact ⟨rfl, rfl⟩

theorem setField_keeps_dst {s : LineState} {key : String} (h : key ≠ "dst") (val : String) :
    (s.setField key val).flow.dstIP = s.flow.dstIP ∧ (s.setField key val).dstSeen = s.dstSeen := by
  unfold LineState.setField
  rw [if_neg h]
  split_ifs <;> (try split) <;> exact ⟨rfl, rfl⟩

theorem foldl_srcIP (s : LineState) (fields : List String) : (fields.foldl LineState.addField s).flow.srcIP =
    if s.srcSeen then s.flow.srcIP else (firstValue "src" fields).getD s.flow.srcIP := by
  induction fields generalizing s with
  | nil => simp [firstValue]
  | cons f fields ih =>
    rw [List.foldl_cons, ih, firstValue_cons]
    unfold LineState.addField
    cases hcut : cut f '=' with
    | none =>
      simp only [Option.bind_none, Option.none_or]
      split_ifs <;> rfl
    | some kv =>
      by_cases hkey : kv.1 = "src"
      · simp only [hkey, LineState.setField, if_true, Option.bind_some, Option.some_or, Option.getD_some]
        split_ifs <;> simp_all
      · obtain ⟨hip, hseen⟩ := setField_keeps_src (s := s) hkey kv.2
        simp only [hip, hseen, Option.bind_some, if_neg hkey, Option.none_or]

theorem foldl_dstIP (s : LineState) (fields : List String) : (fields.foldl LineState.addField s).flow.dstIP =
    if s.dstSeen then s.flow.dstIP else (firstValue "dst" fields).getD s.flow.dstIP := by
  induction fields generalizing s with
  | nil => simp [firstValue]
  | cons f fields ih =>
    rw [List.foldl_cons, ih, firstValue_cons]
    unfold LineState.addField
    cases hcut : cut f '=' with
    | none =>
      simp only [Option.bind_none, Option.none_or]
      split_ifs <;> rfl
    | some kv =>
      by_cases hkey : kv.1 = "dst"
      · simp only [hkey, LineState.setField, String.reduceEq, if_true, if_false, Option.bind_some,
          Option.some_or, Option.getD_some]
        split_ifs <;> simp_all
      · obtain ⟨hip, hseen⟩ := setField_keeps_dst (s := s) hkey kv.2
        simp only [hip, hseen, Option.bind_some, if_neg hkey, Option.none_or]

theorem parseLine_eq_none_iff (line : String) : parseLine line = none ↔ ¬ HasOriginal line := by
  rw [parseLine_eq, hasOriginal_iff]
  unfold parseFields
  simp only [foldl_srcIP, foldl_dstIP, Bool.false_eq_true, if_false]
  split_ifs with hshort hempty
  · simp only [true_iff]
    rintro ⟨hlength, hproto, -⟩
    exact hshort.elim (fun h => absurd hlength (not_le.mpr h)) fun h => h hproto
  · simp only [true_iff]
    rintro ⟨-, -, hsrc, hdst⟩
    exact hempty.elim hsrc hdst
  · obtain ⟨hlength, hproto⟩ := not_or.mp hshort
    obtain ⟨hsrc, hdst⟩ := not_or.mp hempty
    simp only [false_iff, not_not]
    exact ⟨not_lt.mp hlength, not_not.mp hproto, hsrc, hdst⟩

/-- An entry is read back from its line if and only if its reply has no value where the original direction has
a zero; the lines that are rejected are those without an original direction. -/
theorem line_read_back_iff (e : Entry) (gap : Nat → Nat) (line : String) :
    (parseLine (e.line gap) = some e.flow ↔ e.Unmasked) ∧ (parseLine line = none ↔ ¬ HasOriginal line) := by
  refine ⟨?_, parseLine_eq_none_iff line⟩
  rw [parseLine_line, Option.some_inj]
  exact parsed_eq_flow_iff e

def word (s : String) (h : s ≠ "" ∧ s.toList.all (fun c => !isSpace c) = true) : Word :=
  ⟨s, h.1, fun c hc => by simpa using List.all_eq_true.mp h.2 c hc⟩

def clientWord : Word := word "10.0.0.2" (by decide +kernel)

def serverWord : Word := word "8.8.8.8" (by decide +kernel)

/-- A datagram that was sent from port zero and answered. -/
def zeroPortEntry : Entry where
  protocol := .udp
  timeout := 30
  state := none
  original := ⟨clientWord, serverWord, .ports 0 53, some (1, 60)⟩
  between := []
  reply := ⟨serverWord, clientWord, .ports 53 0, some (1, 120)⟩
  flags := [.mark 0, .use 1]

example : zeroPortEntry.line (fun _ => 0) = "udp 17 30 src=10.0.0.2 dst=8.8.8.8 sport=0 dport=53 " ++
    "packets=1 bytes=60 src=8.8.8.8 dst=10.0.0.2 sport=53 dport=0 packets=1 bytes=120 mark=0 use=1 " := by
  decide +kernel

/-- The port of the reply takes the place of the zero. -/
theorem reply_port_read : ¬ ∀ (e : Entry) (gap : Nat → Nat) (line : String),
    parseLine (e.line gap) = some e.flow ∧ (¬ HasOriginal line → parseLine line = none) := by
  intro hall
  have hread := (hall zeroPortEntry (fun _ => 0) "").1
  rw [parseLine_line, Option.some_inj] at hread
  exact absurd (congrArg Flow.srcPort hread) (by decide)

end Accepted

end Conntrack

end Kernloom
