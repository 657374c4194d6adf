import Kernloom.Netfilter
import Kernloom.Shield
import Kernloom.Transition

/-! Rates of the counters that the shield keeps for each source: as the telemetry adapter publishes them
from its last snapshot, and as the runtime adapter calculates them from the same two snapshots. -/

namespace Kernloom

open Transition

inductive Counter
  | pkts | bytes | syn | dportChanges | pass | dropAllow | dropDeny | dropRL
  deriving DecidableEq

abbrev SourceCounters := Counter → UInt64

/-- The counters of a source at a time; both adapters keep the same record. -/
structure CounterSnapshot where
  counters : SourceCounters
  lastWall : Time

structure RateSample where
  pps : ℚ
  bps : ℚ
  synRate : ℚ
  scanRate : ℚ
  passRate : ℚ
  dropAllowRate : ℚ
  dropDenyRate : ℚ
  dropRLRate : ℚ
  dropTotalRate : ℚ

def RateSample.rate (s : RateSample) : Counter → ℚ
  | .pkts => s.pps
  | .bytes => s.bps
  | .syn => s.synRate
  | .dportChanges => s.scanRate
  | .pass => s.passRate
  | .dropAllow => s.dropAllowRate
  | .dropDeny => s.dropDenyRate
  | .dropRL => s.dropRLRate

section Rates

def Duration.seconds (d : Duration) : ℚ := d / 1000000000

/-- The seconds between two reads, by default those of the interval. -/
def elapsedSeconds (prev now : Time) (interval : Duration) : ℚ :=
  let sec := Duration.seconds (now - prev)
  if sec ≤ 0 then
    let sec := Duration.seconds interval
    if sec ≤ 0 then 1 else sec
  else sec

/-- The rates from differences of unsigned integers. -/
def differenceRates (prev curr : CounterSnapshot) (sec : ℚ) : RateSample :=
  let rate (c : Counter) : ℚ := ((curr.counters c - prev.counters c).toNat : ℚ) / sec
  { pps := rate .pkts
    bps := rate .bytes
    synRate := rate .syn
    scanRate := rate .dportChanges
    passRate := rate .pass
    dropAllowRate := rate .dropAllow
    dropDenyRate := rate .dropDeny
    dropRLRate := rate .dropRL
    dropTotalRate := rate .dropAllow + rate .dropDeny + rate .dropRL }

def Grew (prev curr : SourceCounters) : Prop := ∀ c, prev c ≤ curr c

def counterOrder : List Counter := [.pkts, .bytes, .syn, .dportChanges, .pass, .dropAllow, .dropDeny, .dropRL]

/-- The rates of the runtime adapter: a counter that went down makes the sample invalid. -/
def calculateRates (prev curr : CounterSnapshot) (fallbackInterval : Duration) : Option RateSample :=
  if counterOrder.any fun c => curr.counters c < prev.counters c then none
  else some (differenceRates prev curr (elapsedSeconds prev.lastWall curr.lastWall fallbackInterval))

/-- The growth of a counter over the seconds; one that went down has none. -/
def growthRate (prev curr : UInt64) (sec : ℚ) : ℚ :=
  if curr < prev then 0 else ((curr.toNat : ℚ) - prev.toNat) / sec

/-- Every rate is the growth of its counter, and the sample is what the runtime adapter calculates. -/
structure TrueSample (prev curr : CounterSnapshot) (interval : Duration) (s : RateSample) : Prop where
  rate : ∀ c, s.rate c =
    growthRate (prev.counters c) (curr.counters c) (elapsedSeconds prev.lastWall curr.lastWall interval)
  nonneg : ∀ c, 0 ≤ s.rate c
  total : s.dropTotalRate = s.dropAllowRate + s.dropDenyRate + s.dropRLRate
  calculated : calculateRates prev curr interval = some s

variable {prev curr : CounterSnapshot} {interval : Duration} {sec : ℚ}

theorem elapsedSeconds_pos (prev now : Time) (interval : Duration) :
    0 < elapsedSeconds prev now interval := by
  unfold elapsedSeconds
  dsimp only
  split_ifs with h h'
  · exact one_pos
  · exact not_le.mp h'
  · exact not_le.mp h

theorem rate_differenceRates (c : Counter) : (differenceRates prev curr sec).rate c =
    ((curr.counters c - prev.counters c).toNat : ℚ) / sec := by
  cases c <;> rfl

theorem difference_of_le {a b : UInt64} (h : a ≤ b) : ((b - a).toNat : ℚ) = (b.toNat : ℚ) - a.toNat := by
  rw [UInt64.toNat_sub_of_le _ _ h, Nat.cast_sub (UInt64.le_iff_toNat_le.mp h)]

theorem difference_pos_of_lt {a b : UInt64} (h : b < a) : 0 < (b - a).toNat := by
  have hlt := UInt64.lt_iff_toNat_lt.mp h
  have ha := a.toNat_lt
  rw [UInt64.toNat_sub]
  omega

theorem rate_eq_growth_iff (hsec : 0 < sec) (c : Counter) : (differenceRates prev curr sec).rate c =
    growthRate (prev.counters c) (curr.counters c) sec ↔ prev.counters c ≤ curr.counters c := by
  rw [rate_differenceRates, growthRate]
  by_cases hfell : curr.counters c < prev.counters c
  · have hwrapped : 0 < ((curr.counters c - prev.counters c).toNat : ℚ) / sec :=
      div_pos (Nat.cast_pos.mpr (difference_pos_of_lt hfell)) hsec
    rw [if_pos hfell]
    exact iff_of_false hwrapped.ne' (UInt64.not_le.mpr hfell)
  · have hle := UInt64.not_lt.mp hfell
    rw [if_neg hfell, difference_of_le hle]
    exact iff_of_true rfl hle

theorem calculateRates_of_grew (h : Grew prev.counters curr.counters) : calculateRates prev curr interval =
    some (differenceRates prev curr (elapsedSeconds prev.lastWall curr.lastWall interval)) := by
  refine if_neg fun hany => ?_
  obtain ⟨c, -, hfell⟩ := List.any_eq_true.mp hany
  exact UInt64.not_le.mpr (of_decide_eq_true hfell) (h c)

variable (prev curr interval) in
/-- The differences are true rates exactly when no counter went down. -/
theorem trueSample_iff : TrueSample prev curr interval
    (differenceRates prev curr (elapsedSeconds prev.lastWall curr.lastWall interval)) ↔
      Grew prev.counters curr.counters := by
  have hsec := elapsedSeconds_pos prev.lastWall curr.lastWall interval
  refine ⟨fun h c => (rate_eq_growth_iff hsec c).mp (h.rate c), fun h => ?_⟩
  refine ⟨fun c => (rate_eq_growth_iff hsec c).mpr (h c), fun c => ?_, rfl, calculateRates_of_grew h⟩
  rw [rate_differenceRates]
  exact div_nonneg (Nat.cast_nonneg _) hsec.le

end Rates

section Adapters

abbrev PrevSnapshots (κ : Type) := BpfMap κ CounterSnapshot

variable {κ : Type} [DecidableEq κ]

/-- One source of the telemetry adapter's poll: the rates to publish, if it was seen before. -/
def pollSource (interval : Duration) (now : Time) (key : κ) (counters : SourceCounters)
    (prev : PrevSnapshots κ) :
    Option RateSample × PrevSnapshots κ :=
  let curr : CounterSnapshot := ⟨counters, now⟩
  match prev key with
  | none => (none, Function.update prev key (some curr))
  | some pv =>
    (some (differenceRates pv curr (elapsedSeconds pv.lastWall now interval)),
      Function.update prev key (some curr))

def observeSource (interval : Duration) (now : Time) (key : κ) (counters : SourceCounters)
    (prev : PrevSnapshots κ) : Option RateSample × PrevSnapshots κ :=
  let curr : CounterSnapshot := ⟨counters, now⟩
  match prev key with
  | none => (none, Function.update prev key (some curr))
  | some pv => (calculateRates pv curr interval, Function.update prev key (some curr))

/-- The snapshots of sources not seen for longer than the TTL are dropped. -/
def evictPrev (prevTTL : Duration) (now : Time) (prev : PrevSnapshots κ) : PrevSnapshots κ :=
  fun key => (prev key).filter fun pv => ¬ prevTTL < now - pv.lastWall

theorem snapshots_eq (interval : Duration) (now : Time) (key : κ) (counters : SourceCounters)
    (prev : PrevSnapshots κ) :
    (pollSource interval now key counters prev).2 = (observeSource interval now key counters prev).2 := by
  unfold pollSource observeSource
  cases prev key <;> rfl

/-- What a poll publishes of a source is true exactly when no counter is below the last snapshot. -/
theorem pollSource_truly_iff (interval : Duration) (now : Time) (key : κ) (counters : SourceCounters)
    (prev : PrevSnapshots κ) :
    (∀ s ∈ (pollSource interval now key counters prev).1, ∃ pv ∈ prev key,
    TrueSample pv ⟨counters, now⟩ interval s) ↔
      ∀ pv ∈ prev key, Grew pv.counters counters := by
  unfold pollSource
  cases prev key with
  | none => exact iff_of_true (fun _ h => nomatch h) fun _ h => nomatch h
  | some pv =>
    have hiff := trueSample_iff pv ⟨counters, now⟩ interval
    simpa only [Option.mem_def, Option.some.injEq, forall_eq', exists_eq_left'] using hiff

end Adapters

section Polls

structure TelemetryAdapter where
  interval : Duration
  prevTTL : Duration
  prev4 : PrevSnapshots Addr4 := fun _ => none
  prev6 : PrevSnapshots Addr6 := fun _ => none

def TelemetryAdapter.new (interval prevTTL : Duration) : TelemetryAdapter where
  interval := if interval ≤ 0 then Duration.second else interval
  prevTTL := if prevTTL ≤ 0 then 600 * Duration.second else prevTTL

/-- The sources that the iterators of a poll come by; there may be no map of IPv6 sources. -/
structure SourcePoll where
  now : Time
  src4 : List (Addr4 × SourceCounters)
  src6 : Option (List (Addr6 × SourceCounters))

inductive PollEvent
  | source4 (now : Time) (key : Addr4) (counters : SourceCounters)
  | source6 (now : Time) (key : Addr6) (counters : SourceCounters)
  | housekeeping (now : Time)

structure RateObservation where
  subjectID : String
  ipVersion : String
  sample : RateSample

def PollEvent.subjectID : PollEvent → String
  | .source4 _ key _ => ipString4 key
  | .source6 _ key _ => ipString key
  | .housekeeping _ => ""

def PollEvent.ipVersion : PollEvent → String
  | .source4 _ _ _ => "4"
  | .source6 _ _ _ => "6"
  | .housekeeping _ => ""

/-- A poll, source by source, and the housekeeping at its end. -/
def SourcePoll.events (p : SourcePoll) : List PollEvent :=
  p.src4.map (fun s => .source4 p.now s.1 s.2) ++ (p.src6.getD []).map (fun s => .source6 p.now s.1 s.2) ++
    [.housekeeping p.now]

namespace TelemetryAdapter

def sample (a : TelemetryAdapter) : PollEvent → Option RateSample
  | .source4 now key counters => (pollSource a.interval now key counters a.prev4).1
  | .source6 now key counters => (pollSource a.interval now key counters a.prev6).1
  | .housekeeping _ => none

def published (a : TelemetryAdapter) (e : PollEvent) : Option RateObservation :=
  (a.sample e).map fun s => ⟨e.subjectID, e.ipVersion, s⟩

def turn (a : TelemetryAdapter) : PollEvent → TelemetryAdapter
  | .source4 now key counters => { a with prev4 := (pollSource a.interval now key counters a.prev4).2 }
  | .source6 now key counters => { a with prev6 := (pollSource a.interval now key counters a.prev6).2 }
  | .housekeeping now =>
    { a with prev4 := evictPrev a.prevTTL now a.prev4, prev6 := evictPrev a.prevTTL now a.prev6 }

def compared (a : TelemetryAdapter) : PollEvent → Option (CounterSnapshot × CounterSnapshot)
  | .source4 now key counters => (a.prev4 key).map fun pv => (pv, ⟨counters, now⟩)
  | .source6 now key counters => (a.prev6 key).map fun pv => (pv, ⟨counters, now⟩)
  | .housekeeping _ => none

/-- Whatever is published is a true sample of the last snapshot of its source and this one. -/
def PublishesTruly (a : TelemetryAdapter) (e : PollEvent) : Prop :=
  ∀ obs ∈ a.published e, ∃ snapshots ∈ a.compared e, TrueSample snapshots.1 snapshots.2 a.interval obs.sample

/-- No counter of the source is below the last snapshot of it. -/
def CountersGrow (a : TelemetryAdapter) (e : PollEvent) : Prop :=
  ∀ snapshots ∈ a.compared e, Grew snapshots.1.counters snapshots.2.counters

theorem publishesTruly_iff (a : TelemetryAdapter) (e : PollEvent) : a.PublishesTruly e ↔
    a.CountersGrow e := by
  have hsamples : a.PublishesTruly e ↔ ∀ s ∈ a.sample e, ∃ snapshots ∈ a.compared e,
      TrueSample snapshots.1 snapshots.2 a.interval s := by
    simp [PublishesTruly, published]
  rw [hsamples]
  cases e with
  | housekeeping now => exact iff_of_true (fun _ h => nomatch h) fun _ h => nomatch h
  | source4 now key counters =>
    simpa [sample, compared, CountersGrow] using pollSource_truly_iff a.interval now key counters a.prev4
  | source6 now key counters =>
    simpa [sample, compared, CountersGrow] using pollSource_truly_iff a.interval now key counters a.prev6

/-- Over any polls, all published rates are true exactly when no counter is ever below the last snapshot
that is kept of its source. -/
theorem polls_publish_truly_iff (a : TelemetryAdapter) (polls : List SourcePoll) :
    Along turn PublishesTruly a (polls.flatMap SourcePoll.events) ↔
      Along turn CountersGrow a (polls.flatMap SourcePoll.events) :=
  Along.congr (I := fun _ => True) trivial (fun _ => publishesTruly_iff _ _) fun _ _ => trivial

def packets (n : UInt64) : SourceCounters := fun c => if c = .pkts then n else 0

/-- The same source read twice, with fewer packets the second time. -/
def reloadedPolls : List SourcePoll :=
  [⟨1000000000, [(0xc0000207, packets 100)], none⟩, ⟨2000000000, [(0xc0000207, packets 40)], none⟩]

/-- A source that was evicted and came back is published with a wrapped rate. -/
theorem wrapped_rate_published :
    ¬ Along turn PublishesTruly (.new Duration.second 0) (reloadedPolls.flatMap SourcePoll.events) := by
  rintro ⟨-, -, htruly, -⟩
  have hgrew := (publishesTruly_iff _ _).mp htruly _ rfl .pkts
  exact absurd hgrew (by decide)

end TelemetryAdapter

end Polls

end Kernloom
