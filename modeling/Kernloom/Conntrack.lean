import Kernloom.CounterRates

/-! The conntrack observer: the lines of the connection table that it parses, and the rates it publishes of
the flows from one snapshot to the next. -/

namespace Kernloom

namespace Conntrack

/-- A parsed entry of the connection table. -/
structure Flow where
  proto : String
  srcIP : String := ""
  dstIP : String := ""
  srcPort : UInt16 := 0
  dstPort : UInt16 := 0
  state : String := ""
  packets : UInt64 := 0
  bytes : UInt64 := 0
  deriving DecidableEq

section Parsing

def connStates : List String :=
  ["ESTABLISHED", "SYN_SENT", "SYN_RECV", "FIN_WAIT", "CLOSE_WAIT", "LAST_ACK", "TIME_WAIT", "CLOSE",
    "LISTEN", "NEW", "RELATED", "UNREPLIED"]

def isConnState (s : String) : Bool := s ∈ connStates

/-- The flow of a line so far, and the addresses that were seen. -/
structure LineState where
  flow : Flow
  srcSeen : Bool := false
  dstSeen : Bool := false
  deriving DecidableEq

/-- A field that has a key: the first address counts, and the first number that is not zero. -/
def LineState.setField (s : LineState) (key val : String) : LineState :=
  if key = "src" then
    if s.srcSeen then s else { s with flow := { s.flow with srcIP := val }, srcSeen := true }
  else if key = "dst" then
    if s.dstSeen then s else { s with flow := { s.flow with dstIP := val }, dstSeen := true }
  else if key = "sport" then
    if s.flow.srcPort = 0 then
      match parseUint16 val with
      | some p => { s with flow := { s.flow with srcPort := UInt16.ofNat p } }
      | none => s
    else s
  else if key = "dport" then
    if s.flow.dstPort = 0 then
      match parseUint16 val with
      | some p => { s with flow := { s.flow with dstPort := UInt16.ofNat p } }
      | none => s
    else s
  else if key = "packets" then
    if s.flow.packets = 0 then
      match parseUint64 val with
      | some n => { s with flow := { s.flow with packets := n } }
      | none => s
    else s
  else if key = "bytes" then
    if s.flow.bytes = 0 then
      match parseUint64 val with
      | some n => { s with flow := { s.flow with bytes := n } }
      | none => s
    else s
  else s

def LineState.addField (s : LineState) (field : String) : LineState :=
  match cut field '=' with
  | some (key, val) => s.setField key val
  | none =>
    if s.flow.state = "" ∧ isConnState field then { s with flow := { s.flow with state := field } } else s

def protocols : List String := ["tcp", "udp", "icmp"]

def parseFields (fields : List String) : Option Flow :=
  let proto := toLower (fields.headD "")
  if fields.length < 4 ∨ proto ∉ protocols then none
  else
    let f := ((fields.drop 3).foldl LineState.addField ⟨{ proto }, false, false⟩).flow
    if f.srcIP = "" ∨ f.dstIP = "" then none else some f

def parseLine (line : String) : Option Flow :=
  let line := trimSpace line
  if line = "" ∨ hasPrefix line "#" then none else parseFields (fieldsFunc line isSpace)

/-- A line of the proc file, with the family and its number in front. -/
def parseNFConntrackLine (line : String) : Option Flow :=
  let line := trimSpace line
  if line = "" ∨ hasPrefix line "#" then none
  else
    let fields := fieldsFunc line isSpace
    if fields.length < 6 then none else parseLine (joinText (fields.drop 2) " ")

end Parsing

section Polling

/-- What the observer knows a flow by: not by its source port. -/
structure ConnKey where
  srcIP : String
  dstIP : String
  dstPort : UInt16
  proto : String
  deriving DecidableEq

inductive FlowCounter
  | packets | bytes
  deriving DecidableEq

abbrev ConnPrev := FlowCounter → UInt64

def Flow.key (f : Flow) : ConnKey := ⟨f.srcIP, f.dstIP, f.dstPort, f.proto⟩

def Flow.counters (f : Flow) : ConnPrev
  | .packets => f.packets
  | .bytes => f.bytes

structure Config where
  pollInterval : Duration := 5000000000
  maxFlows : Int := 10000

def Config.intervalSec (cfg : Config) : ℚ :=
  if Duration.seconds cfg.pollInterval ≤ 0 then 5 else Duration.seconds cfg.pollInterval

/-- The counters of the last snapshot. -/
abbrev Prev := ConnKey → Option ConnPrev

def keep (table : Prev) (f : Flow) : Prev := Function.update table f.key (some f.counters)

/-- An observation of a flow with its rates, `pps` and `bps`. -/
structure FlowObservation where
  flow : Flow
  rate : FlowCounter → ℚ

def delta (prev : Option ConnPrev) (curr : ConnPrev) (c : FlowCounter) : UInt64 :=
  match prev with
  | some prev => if prev c ≤ curr c then curr c - prev c else 0
  | none => 0

def observe (cfg : Config) (prev : Prev) (f : Flow) : FlowObservation where
  flow := f
  rate c := ((delta (prev f.key) f.counters c).toNat : ℚ) / cfg.intervalSec

/-- The flows of a snapshot from one on: what is published of them, and the counters to keep, which are
none when the bus rejects an observation. -/
def pollFlows (cfg : Config) (prev : Prev) (accepts : Nat → Bool) :
    List Flow → Nat → Prev → List FlowObservation × Option Prev
  | [], _, newPrev => ([], some newPrev)
  | f :: flows, emitted, newPrev =>
    if cfg.maxFlows ≤ emitted then ([], some newPrev)
    else if accepts emitted then
      let rest := pollFlows cfg prev accepts flows (emitted + 1) (keep newPrev f)
      (observe cfg prev f :: rest.1, rest.2)
    else ([], none)

/-- A poll: the snapshot, or none when it failed, and which observations the bus accepts. -/
structure Poll where
  flows : Option (List Flow)
  accepts : Nat → Bool := fun _ => true

def poll (cfg : Config) (prev : Prev) (p : Poll) : List FlowObservation × Prev :=
  match p.flows with
  | none => ([], prev)
  | some flows =>
    let result := pollFlows cfg prev p.accepts flows 0 fun _ => none
    (result.1, result.2.getD prev)

/-- What a sequence of polls publishes. -/
def pollAll (cfg : Config) (prev : Prev) : List Poll → List FlowObservation
  | [] => []
  | p :: polls => (poll cfg prev p).1 ++ pollAll cfg (poll cfg prev p).2 polls

end Polling

end Conntrack

end Kernloom
