import Kernloom.NetfilterVerdicts
import Kernloom.NetworkExtractor
import Kernloom.Transition

/-! The feedback file of an operator: sources that are forgiven until a time. Single addresses and
names are kept by key, ranges in a list, and what has expired is dropped when it is looked up. -/

namespace Kernloom

open Transition

section Tokens

deriving instance DecidableEq for IPNet

/-- `net.CIDRMask`. -/
def cidrMask (n w : Nat) : BitVec w := BitVec.allOnes w <<< (w - n)

/-- An address with dots before any colon, as an IPv4 address is written. -/
def isDotted (s : String) : Bool := s.toList.find? (fun c => c = '.' ∨ c = ':' ∨ c = '%') = some '.'

/-- The network of `net.ParseCIDR`. One of IPv4-mapped addresses only counts as an IPv4 network. -/
@[irreducible] def parseCIDR (s : String) : Option IPNet :=
  match cut s '/' with
  | none => none
  | some (addr, mask) =>
    match parseIP addr, digitsValue mask.toList with
    | some ip, some n =>
      if isDotted addr then
        if n ≤ 32 then (to4 ip).map fun v4 => .v4 (v4 &&& cidrMask n 32) (cidrMask n 32) else none
      else if n ≤ 128 then
        match to4 (ip &&& cidrMask n 128) with
        | some v4 => some (.v4 v4 ((cidrMask n 128).setWidth 32))
        | none => some (.v6 (ip &&& cidrMask n 128) (cidrMask n 128))
      else none
    | _, _ => none

theorem parseGroups_slash (room : Nat) (cs : List Char) (out : List Nat) (ellipsis : Option Nat)
    {r : List Nat × Option Nat} (h : parseGroups room cs out ellipsis = some r) : '/' ∉ cs := by
  induction room generalizing cs out ellipsis with
  | zero =>
    by_cases hcs : cs = []
    · simp [hcs]
    · simp [parseGroups, hcs] at h
  | succ room ih =>
    have hsplit := List.takeWhile_append_dropWhile (p := isHex) (l := cs)
    have hhead : '/' ∉ cs.takeWhile isHex := fun hmem => by
      have := List.mem_takeWhile_imp hmem
      exact absurd this (by decide)
    suffices htail : '/' ∉ cs.dropWhile isHex by
      rw [← hsplit]
      exact fun hmem => (List.mem_append.mp hmem).elim hhead htail
    by_cases hdigits : cs.takeWhile isHex = [] ∨ 4 < (cs.takeWhile isHex).length
    · rw [parseGroups, if_pos hdigits] at h
      cases h
    simp only [parseGroups, hdigits, if_false] at h
    split at h
    next hrest => simp [hrest]
    next rest hrest =>
      split_ifs at h
      obtain ⟨n, hn, -⟩ := Option.map_eq_some_iff.mp h
      intro hmem
      rcases Netfilter.parseIPv4Fields_isDigit hn '/' (List.dropWhile_subset _ hmem) with hdot | hdigit
      · exact absurd hdot (by decide)
      · exact absurd hdigit (by decide)
    next => cases h
    next hrest => simp [hrest]
    next rest hne hrest =>
      split_ifs at h
      rw [hrest]
      have := ih _ _ _ h
      simp [this]
    next rest hne hne' hne'' hrest =>
      rw [hrest]
      have := ih _ _ _ h
      simp [this]
    next => cases h

/-- An address has no slash. -/
theorem parseIP_slash {s : String} {ip : Addr6} (h : parseIP s = some ip) : '/' ∉ s.toList := by
  unfold parseIP at h
  split at h
  · obtain ⟨n, hn, -⟩ := Option.map_eq_some_iff.mp h
    intro hmem
    rcases Netfilter.parseIPv4Fields_isDigit hn '/' hmem with hdot | hdigit
    · exact absurd hdot (by decide)
    · exact absurd hdigit (by decide)
  · split_ifs at h
    obtain ⟨groups, hgroups, -⟩ := Option.map_eq_some_iff.mp h
    unfold parseIPv6Groups at hgroups
    split at hgroups
    next heq => simp [heq]
    next rest _ heq =>
      obtain ⟨r, hr, -⟩ := Option.bind_eq_some_iff.mp hgroups
      have := parseGroups_slash _ _ _ _ hr
      simp [heq, this]
    next =>
      obtain ⟨r, hr, -⟩ := Option.bind_eq_some_iff.mp hgroups
      exact parseGroups_slash _ _ _ _ hr
  · cases h

/-- The addresses that a text of a filter names. -/
inductive SourceToken where
  | exact4 (ip : Addr4)
  | exact6 (ip : Addr6)
  | range4 (net : IPNet)
  | range6 (net : IPNet)
  deriving DecidableEq

def parseSourceToken (s : String) : Option SourceToken :=
  if '/' ∈ s.toList then
    match parseCIDR s with
    | none => none
    | some (.v4 ip mask) => some (.range4 (.v4 ip mask))
    | some (.v6 ip mask) => some (.range6 (.v6 ip mask))
  else
    match parseIP s with
    | none => none
    | some ip =>
      match to4 ip with
      | some v4 => some (.exact4 v4)
      | none => some (.exact6 ip)

example : parseSourceToken "10.1.2.3/8" = some (.range4 (.v4 0x0a000000 0xff000000)) ∧
    parseSourceToken "::ffff:10.0.0.0/104" = some (.range4 (.v4 0x0a000000 0xff000000)) ∧
    parseSourceToken "2001:db8::/32" =
      some (.range6 (.v6 0x20010db8000000000000000000000000 0xffffffff000000000000000000000000)) ∧
    parseSourceToken "10.0.0.0/33" = none ∧ parseSourceToken "::ffff:10.0.0.1" = some (.exact4 0x0a000001) ∧
    parseSourceToken "ziti.identity:alice" = none := by decide +kernel

/-- `net.IPv4`: the address as an IPv4-mapped one. -/
def ipv4 (ip : Addr4) : Addr6 := BitVec.ofNat 128 (0xffff * 2 ^ 32 + ip.toNat)

theorem ipv4_of_to4 {ip : Addr6} {v4 : Addr4} (h : to4 ip = some v4) : ipv4 v4 = ip := by
  unfold to4 at h
  split_ifs at h with hmapped
  obtain rfl := Option.some.inj h
  apply BitVec.eq_of_toNat_eq
  have hlt := ip.isLt
  simp only [ipv4, BitVec.toNat_ofNat]
  omega

end Tokens

/-- What an entry forgives: a source by its name, or addresses. -/
inductive FeedbackTarget where
  | subject (name : String)
  | source (token : SourceToken)
  deriving DecidableEq

structure ExpiringRange (N : Type) where
  net : N
  expiry : Time

structure Feedback where
  path : String
  exactSubjects : String → Option Time := fun _ => none
  exact4 : Addr4 → Option Time := fun _ => none
  exact6 : Addr6 → Option Time := fun _ => none
  cidrs4 : List (ExpiringRange IPNet) := []
  cidrs6 : List (ExpiringRange IPNet) := []

structure FeedbackEntry where
  target : String
  action : String := ""
  ttl : String := ""
  untilText : String := ""

section Load

/-- `parseTime` is `time.Parse` with the layout RFC3339. -/
def feedbackExpiry (parseTime : String → Option Time) (now : Time) (e : FeedbackEntry) : Time :=
  let ttl : Duration :=
    if e.ttl = "" then 86400 * Duration.second
    else
      match parseDuration e.ttl with
      | .ok d => if 0 < d then d else 86400 * Duration.second
      | .error _ => 86400 * Duration.second
  if e.untilText = "" then now + ttl else (parseTime e.untilText).getD (now + ttl)

/-- What an entry of the file forgives and until when; nothing if its action is another. -/
def loadedEntry (parseTime : String → Option Time) (now : Time) (e : FeedbackEntry) :
    Option (FeedbackTarget × Time) :=
  let target := trimSpace e.target
  let action := if toLower (trimSpace e.action) = "" then "forgive" else toLower (trimSpace e.action)
  if target = "" ∨ (action ≠ "forgive" ∧ action ≠ "whitelist") then none
  else
    some (match parseSourceToken target with
      | none => .subject target
      | some token => .source token, feedbackExpiry parseTime now e)

namespace Feedback

/-- Stores an entry; an address or a name that is there already gets the new expiry. -/
def store (f : Feedback) : FeedbackTarget × Time → Feedback
  | (.subject name, expiry) => { f with exactSubjects := Function.update f.exactSubjects name (some expiry) }
  | (.source (.exact4 ip), expiry) => { f with exact4 := Function.update f.exact4 ip (some expiry) }
  | (.source (.exact6 ip), expiry) => { f with exact6 := Function.update f.exact6 ip (some expiry) }
  | (.source (.range4 net), expiry) => { f with cidrs4 := f.cidrs4 ++ [⟨net, expiry⟩] }
  | (.source (.range6 net), expiry) => { f with cidrs6 := f.cidrs6 ++ [⟨net, expiry⟩] }

/-- Reads the file again; `raw` is its entries, or the error of reading them. -/
def load (parseTime : String → Option Time) (now : Time) (raw : Except String (List FeedbackEntry))
    (f : Feedback) :
    Except String Unit × Feedback :=
  if f.path = "" then (.ok (), f)
  else
    match raw with
    | .error err => (.error err, f)
    | .ok entries => (.ok (), (entries.filterMap (loadedEntry parseTime now)).foldl store { path := f.path })

end Feedback

end Load

section Match

variable {κ N : Type} [DecidableEq κ] (contains : N → κ → Bool)

/-- A look-up by key: found and unexpired, found and expired (and dropped), or not found. -/
def matchExact (exact : κ → Option Time) (key : κ) (now : Time) : Option Bool × (κ → Option Time) :=
  match exact key with
  | some expiry => if now < expiry then (some true, exact) else (some false, Function.update exact key none)
  | none => (none, exact)

/-- The look-up of an address: by key, then in the ranges, of which the expired ones are dropped. -/
def matchFamily (exact : κ → Option Time) (ranges : List (ExpiringRange N)) (key : κ) (now : Time) :
    Bool × (κ → Option Time) × List (ExpiringRange N) :=
  match matchExact exact key now with
  | (some matched, exact) => (matched, exact, ranges)
  | (none, exact) =>
    let keep := ranges.filter fun r => ¬ r.expiry < now
    (keep.any fun r => contains r.net key, exact, keep)

/-- `Contains` at an IPv4 address. -/
def contains4 (net : IPNet) (ip : Addr4) : Bool := net.contains (ipv4 ip)

namespace Feedback

def matchV4 (f : Feedback) (ip : Addr4) (now : Time) : Bool × Feedback :=
  let (matched, exact4, cidrs4) := matchFamily contains4 f.exact4 f.cidrs4 ip now
  (matched, { f with exact4, cidrs4 })

def matchV6 (f : Feedback) (ip : Addr6) (now : Time) : Bool × Feedback :=
  let (matched, exact6, cidrs6) := matchFamily IPNet.contains f.exact6 f.cidrs6 ip now
  (matched, { f with exact6, cidrs6 })

/-- Whether a source is forgiven. The clock is read once here and once more for an address. -/
def matchSource (f : Feedback) (sourceID : String) (now later : Time) : Bool × Feedback :=
  if f.path = "" then (false, f)
  else
    let sourceID := trimSpace sourceID
    if sourceID = "" then (false, f)
    else
      match matchExact f.exactSubjects sourceID now with
      | (some matched, exactSubjects) => (matched, { f with exactSubjects })
      | (none, _) =>
        match parseIP sourceID with
        | none => (false, f)
        | some ip =>
          match to4 ip with
          | some v4 => f.matchV4 v4 later
          | none => f.matchV6 ip later

end Feedback

end Match

section Specification

/-- When an entry is taken as expired: at its expiry, or only after it. -/
inductive Boundary where
  | exclusive | inclusive

def Unexpired : Boundary → Time → Time → Prop
  | .exclusive, now, expiry => now < expiry
  | .inclusive, now, expiry => now ≤ expiry

instance (b : Boundary) (now expiry : Time) : Decidable (Unexpired b now expiry) :=
  match b with
  | .exclusive => inferInstanceAs (Decidable (now < expiry))
  | .inclusive => inferInstanceAs (Decidable (now ≤ expiry))

/-- An entry is for a source. -/
def FeedbackTarget.Covers (sourceID : String) : FeedbackTarget → Prop
  | .subject name => sourceID = name
  | .source (.exact4 ip) => (parseIP sourceID).bind to4 = some ip
  | .source (.exact6 ip) => parseIP sourceID = some ip ∧ to4 ip = none
  | .source (.range4 net) => ∃ ip, parseIP sourceID = some ip ∧ to4 ip ≠ none ∧ net.contains ip = true
  | .source (.range6 net) => ∃ ip, parseIP sourceID = some ip ∧ to4 ip = none ∧ net.contains ip = true

end Specification

section Family

variable {κ N : Type} {contains : N → κ → Bool} {exact : κ → Option Time}
  {kept all : List (ExpiringRange N)} {key : κ} {exacts : List Time} {now : Time}

/-- What is stored by key is the last of the loaded expiries, dropped at its expiry at the earliest. -/
def Keeps (stored : Option Time) (expiries : List Time) (now : Time) : Prop :=
  match stored with
  | some expiry => expiries.getLast? = some expiry
  | none => ∀ expiry, expiries.getLast? = some expiry → expiry ≤ now

/-- The ranges that are kept are loaded ones, and all that have not expired. -/
def KeepsRanges (kept all : List (ExpiringRange N)) (now : Time) : Prop :=
  kept ⊆ all ∧ ∀ r ∈ all, now ≤ r.expiry → r ∈ kept

/-- The expiries of the ranges that contain a key. -/
def coveringExpiries (contains : N → κ → Bool) (all : List (ExpiringRange N)) (key : κ) : List Time :=
  (all.filter fun r => contains r.net key).map (·.expiry)

/-- Where the look-up is right: the last entry by key is unexpired; or a range is, and no expired
entry by key hides it; or no earlier entry by key is. -/
def FeedbackSettled (b : Boundary) (now : Time) (exacts ranges : List Time) (stored : Option Time) : Prop :=
  (∃ expiry, exacts.getLast? = some expiry ∧ now < expiry) ∨
    if ∃ expiry ∈ ranges, now ≤ expiry then
      stored = none ∧ ∃ expiry ∈ exacts ++ ranges, Unexpired b now expiry
    else ∀ expiry ∈ exacts, ¬ Unexpired b now expiry

theorem unexpired_le {b : Boundary} {expiry : Time} (h : Unexpired b now expiry) : now ≤ expiry := by
  cases b with
  | exclusive => exact le_of_lt h
  | inclusive => exact h

theorem unexpired_of_lt (b : Boundary) {expiry : Time} (h : now < expiry) : Unexpired b now expiry := by
  cases b with
  | exclusive => exact h
  | inclusive => exact le_of_lt h

/-- A range among the kept ones still covers the address. -/
theorem any_kept (h : KeepsRanges kept all now) :
    ((kept.filter fun r => ¬ r.expiry < now).any fun r => contains r.net key) = true ↔
      ∃ expiry ∈ coveringExpiries contains all key, now ≤ expiry := by
  simp only [List.any_eq_true, List.mem_filter, coveringExpiries, List.mem_map]
  constructor
  · rintro ⟨r, ⟨hr, hlive⟩, hcovers⟩
    exact ⟨r.expiry, ⟨r, ⟨h.1 hr, hcovers⟩, rfl⟩, by simpa using hlive⟩
  · rintro ⟨-, ⟨r, ⟨hr, hcovers⟩, rfl⟩, hlive⟩
    exact ⟨r, ⟨h.2 r hr hlive, by simpa using hlive⟩, hcovers⟩

variable [DecidableEq κ]

theorem matchFamily_live {expiry : Time} (h : exact key = some expiry) (hlive : now < expiry) :
    matchFamily contains exact kept key now = (true, exact, kept) := by
  simp only [matchFamily, matchExact, h, hlive, if_true]

theorem matchFamily_expired {expiry : Time} (h : exact key = some expiry) (hexpired : ¬ now < expiry) :
    matchFamily contains exact kept key now = (false, Function.update exact key none, kept) := by
  simp only [matchFamily, matchExact, h, hexpired, if_false]

theorem matchFamily_none (h : exact key = none) : matchFamily contains exact kept key now =
    ((kept.filter fun r => ¬ r.expiry < now).any fun r => contains r.net key, exact,
      kept.filter fun r => ¬ r.expiry < now) := by
  simp only [matchFamily, matchExact, h]

theorem matchFamily_right_iff (contains : N → κ → Bool) (b : Boundary)
    (hexact : Keeps (exact key) exacts now)
    (hranges : KeepsRanges kept all now) :
    (((matchFamily contains exact kept key now).1 = true ↔
        ∃ expiry ∈ exacts ++ coveringExpiries contains all key, Unexpired b now expiry) ∧
      (matchFamily contains (matchFamily contains exact kept key now).2.1
      (matchFamily contains exact kept key now).2.2 key now).1 =
        (matchFamily contains exact kept key now).1) ↔
    FeedbackSettled b now exacts (coveringExpiries contains all key) (exact key) := by
  have hsplit : (¬ ∃ expiry ∈ coveringExpiries contains all key, now ≤ expiry) →
      ((∃ expiry ∈ exacts ++ coveringExpiries contains all key, Unexpired b now expiry) ↔
        ∃ expiry ∈ exacts, Unexpired b now expiry) := by
    intro hnone
    constructor
    · rintro ⟨expiry, hmem, hlive⟩
      rcases List.mem_append.mp hmem with hmem | hmem
      · exact ⟨expiry, hmem, hlive⟩
      · exact absurd ⟨expiry, hmem, unexpired_le hlive⟩ hnone
    · rintro ⟨expiry, hmem, hlive⟩
      exact ⟨expiry, List.mem_append_left _ hmem, hlive⟩
  cases hstored : exact key with
  | some expiry =>
    rw [hstored] at hexact
    have hlast : exacts.getLast? = some expiry := hexact
    by_cases hlive : now < expiry
    · simp only [matchFamily_live hstored hlive, true_iff, and_true]
      exact ⟨fun _ => .inl ⟨expiry, hlast, hlive⟩, fun _ => ⟨expiry,
        List.mem_append_left _ (List.mem_of_getLast? hlast), unexpired_of_lt b hlive⟩⟩
    · have hfirst : ¬ ∃ e, exacts.getLast? = some e ∧ now < e := by
        rintro ⟨e, he, hlt⟩
        rw [hlast] at he
        exact hlive (Option.some.inj he ▸ hlt)
      simp only [matchFamily_expired hstored hlive, matchFamily_none (Function.update_self ..), FeedbackSettled,
        hfirst,
        false_or, Bool.false_eq_true, false_iff]
      by_cases hrange : ∃ e ∈ coveringExpiries contains all key, now ≤ e
      · rw [(any_kept hranges).mpr hrange, if_pos hrange]
        simp
      · rw [Bool.eq_false_iff.mpr (mt (any_kept hranges).mp hrange), if_neg hrange, hsplit hrange]
        simp
  | none =>
    rw [hstored] at hexact
    have hfirst : ¬ ∃ e, exacts.getLast? = some e ∧ now < e := by
      rintro ⟨e, he, hlt⟩
      exact absurd (hexact e he) (not_le.mpr hlt)
    simp only [matchFamily_none hstored, List.filter_filter, Bool.and_self, and_true, FeedbackSettled, hfirst,
      false_or]
    rw [any_kept hranges]
    by_cases hrange : ∃ e ∈ coveringExpiries contains all key, now ≤ e
    · rw [if_pos hrange]
      simp only [hrange, true_iff, true_and]
    · rw [if_neg hrange, hsplit hrange]
      simp only [hrange, false_iff, not_exists, not_and]

theorem matchExact_keeps {expiries : κ → List Time}
    (h : ∀ key, Keeps (exact key) (expiries key) now) (key other : κ) :
    Keeps ((matchExact exact key now).2 other) (expiries other) now := by
  unfold matchExact
  cases hstored : exact key with
  | none => exact h other
  | some expiry =>
    by_cases hlive : now < expiry
    · simp only [hlive, if_true]
      exact h other
    · simp only [hlive, if_false]
      by_cases hother : other = key
      · subst hother
        rw [Function.update_self]
        have hlast : Keeps (some expiry) (expiries other) now := hstored ▸ h other
        intro e he
        obtain rfl : expiry = e := Option.some.inj (hlast.symm.trans he)
        exact not_lt.mp hlive
      · rw [Function.update_of_ne hother]
        exact h other

theorem matchFamily_exact (contains : N → κ → Bool) (kept : List (ExpiringRange N)) :
    (matchFamily contains exact kept key now).2.1 = (matchExact exact key now).2 := by
  unfold matchFamily
  obtain ⟨_ | matched, exact'⟩ := matchExact exact key now <;> rfl

theorem matchFamily_ranges (contains : N → κ → Bool) (exact : κ → Option Time) (key : κ)
    (h : KeepsRanges kept all now) :
    KeepsRanges (matchFamily contains exact kept key now).2.2 all now := by
  unfold matchFamily
  obtain ⟨_ | matched, exact'⟩ := matchExact exact key now
  · exact ⟨fun r hr => h.1 (List.mem_of_mem_filter hr), fun r hr hlive =>
      List.mem_filter.mpr ⟨h.2 r hr hlive, by simpa using hlive⟩⟩
  · exact h

end Family

section World

/-- The expiries of the entries for one target, in the order in which they are loaded. -/
def expiriesOf (loaded : List (FeedbackTarget × Time)) (target : FeedbackTarget) : List Time :=
  loaded.filterMap fun e => if e.1 = target then some e.2 else none

def rangeOf4 : FeedbackTarget × Time → Option (ExpiringRange IPNet)
  | (.source (.range4 net), expiry) => some ⟨net, expiry⟩
  | _ => none

def rangeOf6 : FeedbackTarget × Time → Option (ExpiringRange IPNet)
  | (.source (.range6 net), expiry) => some ⟨net, expiry⟩
  | _ => none

def ranges4 (loaded : List (FeedbackTarget × Time)) : List (ExpiringRange IPNet) :=
  loaded.filterMap rangeOf4

def ranges6 (loaded : List (FeedbackTarget × Time)) : List (ExpiringRange IPNet) :=
  loaded.filterMap rangeOf6

/-- A feedback file in use: what is loaded from it, in order, and the time. -/
structure FeedbackWorld where
  feedback : Feedback
  loaded : List (FeedbackTarget × Time) := []
  clock : Time

inductive FeedbackEvent where
  | wait (duration : Nat)
  | load (raw : Except String (List FeedbackEntry))
  | query (sourceID : String)

variable (parseTime : String → Option Time)

namespace FeedbackWorld

/-- The entries in force after the file is read. -/
def loadedAfter (w : FeedbackWorld) : Except String (List FeedbackEntry) → List (FeedbackTarget × Time)
  | .error _ => w.loaded
  | .ok entries => if w.feedback.path = "" then w.loaded else entries.filterMap
    (loadedEntry parseTime w.clock)

def turn (w : FeedbackWorld) : FeedbackEvent → FeedbackWorld
  | .wait duration => { w with clock := w.clock + duration }
  | .load raw => { w with
      feedback := (w.feedback.load parseTime w.clock raw).2, loaded := w.loadedAfter parseTime raw }
  | .query sourceID => { w with feedback := (w.feedback.matchSource sourceID w.clock w.clock).2 }

def start (path : String) (clock : Time) : FeedbackWorld := { feedback := { path }, clock }

/-- Some entry in force is for the source and unexpired. -/
def Forgiven (b : Boundary) (w : FeedbackWorld) (sourceID : String) : Prop :=
  ∃ e ∈ w.loaded, e.1.Covers (trimSpace sourceID) ∧ Unexpired b w.clock e.2

/-- A query answers whether the source is forgiven, and answers the same when asked again. -/
def Answers (b : Boundary) (w : FeedbackWorld) : FeedbackEvent → Prop
  | .query sourceID =>
    ((w.feedback.matchSource sourceID w.clock w.clock).1 = true ↔ w.Forgiven b sourceID) ∧
      ((w.turn parseTime (.query sourceID)).feedback.matchSource sourceID w.clock w.clock).1 =
        (w.feedback.matchSource sourceID w.clock w.clock).1
  | _ => True

/-- Where a query is answered right. -/
def Agrees (b : Boundary) (w : FeedbackWorld) : FeedbackEvent → Prop
  | .query sourceID =>
    match parseIP (trimSpace sourceID) with
    | none => FeedbackSettled b w.clock (expiriesOf w.loaded (.subject (trimSpace sourceID))) []
        (w.feedback.exactSubjects (trimSpace sourceID))
    | some ip =>
      match to4 ip with
      | some v4 =>
        FeedbackSettled b w.clock (expiriesOf w.loaded (.source (.exact4 v4)))
          (coveringExpiries contains4 (ranges4 w.loaded) v4) (w.feedback.exact4 v4)
      | none =>
        FeedbackSettled b w.clock (expiriesOf w.loaded (.source (.exact6 ip)))
          (coveringExpiries IPNet.contains (ranges6 w.loaded) ip) (w.feedback.exact6 ip)
  | _ => True

/-- What is stored follows from what is loaded. -/
structure Reflects (w : FeedbackWorld) : Prop where
  inactive : w.feedback.path = "" → w.loaded = []
  named : ∀ name expiry, (FeedbackTarget.subject name, expiry) ∈ w.loaded →
    name ≠ "" ∧ parseSourceToken name = none
  subjects : ∀ name, Keeps (w.feedback.exactSubjects name) (expiriesOf w.loaded (.subject name)) w.clock
  addresses4 : ∀ ip, Keeps (w.feedback.exact4 ip) (expiriesOf w.loaded (.source (.exact4 ip))) w.clock
  addresses6 : ∀ ip, Keeps (w.feedback.exact6 ip) (expiriesOf w.loaded (.source (.exact6 ip))) w.clock
  nets4 : KeepsRanges w.feedback.cidrs4 (ranges4 w.loaded) w.clock
  nets6 : KeepsRanges w.feedback.cidrs6 (ranges6 w.loaded) w.clock

variable {w : FeedbackWorld} {b : Boundary} {sourceID : String}

theorem mem_expiries {target : FeedbackTarget} {expiry : Time} :
    expiry ∈ expiriesOf w.loaded target ↔ (target, expiry) ∈ w.loaded := by
  simp only [expiriesOf, List.mem_filterMap, Option.ite_none_right_eq_some, Option.some.injEq]
  constructor
  · rintro ⟨⟨target', expiry'⟩, hmem, rfl, rfl⟩
    exact hmem
  · exact fun hmem => ⟨_, hmem, rfl, rfl⟩

theorem mem_covering4 {ip : Addr4} {expiry : Time} :
    expiry ∈ coveringExpiries contains4 (ranges4 w.loaded) ip ↔
      ∃ net, (FeedbackTarget.source (.range4 net), expiry) ∈ w.loaded ∧ contains4 net ip = true := by
  simp only [coveringExpiries, List.mem_map, List.mem_filter, ranges4, List.mem_filterMap]
  constructor
  · rintro ⟨r, ⟨⟨⟨target, expiry⟩, hmem, heq⟩, hcovers⟩, rfl⟩
    rcases target with name | (ip | ip | net | net) <;>
      simp only [rangeOf4, Option.some.injEq, reduceCtorEq] at heq
    subst heq
    exact ⟨net, hmem, hcovers⟩
  · rintro ⟨net, hmem, hcovers⟩
    exact ⟨⟨net, expiry⟩, ⟨⟨_, hmem, rfl⟩, hcovers⟩, rfl⟩

theorem mem_covering6 {ip : Addr6} {expiry : Time} :
    expiry ∈ coveringExpiries IPNet.contains (ranges6 w.loaded) ip ↔
      ∃ net, (FeedbackTarget.source (.range6 net), expiry) ∈ w.loaded ∧ net.contains ip = true := by
  simp only [coveringExpiries, List.mem_map, List.mem_filter, ranges6, List.mem_filterMap]
  constructor
  · rintro ⟨r, ⟨⟨⟨target, expiry⟩, hmem, heq⟩, hcovers⟩, rfl⟩
    rcases target with name | (ip | ip | net | net) <;>
      simp only [rangeOf6, Option.some.injEq, reduceCtorEq] at heq
    subst heq
    exact ⟨net, hmem, hcovers⟩
  · rintro ⟨net, hmem, hcovers⟩
    exact ⟨⟨net, expiry⟩, ⟨⟨_, hmem, rfl⟩, hcovers⟩, rfl⟩

/-- A source that is an address is no name in the file. -/
theorem Reflects.unnamed (h : Reflects w) {name : String} {ip : Addr6} (hip : parseIP name = some ip)
    (expiry : Time) : (FeedbackTarget.subject name, expiry) ∉ w.loaded := by
  intro hmem
  have htoken := (h.named name expiry hmem).2
  unfold parseSourceToken at htoken
  rw [if_neg (parseIP_slash hip), hip] at htoken
  dsimp only at htoken
  cases hv4 : to4 ip <;> rw [hv4] at htoken <;> cases htoken

theorem forgiven_subject (h : parseIP (trimSpace sourceID) = none) :
    w.Forgiven b sourceID ↔ ∃ expiry ∈ expiriesOf w.loaded (.subject (trimSpace sourceID)) ++ [],
      Unexpired b w.clock expiry := by
  simp only [List.append_nil, mem_expiries, Forgiven]
  constructor
  · rintro ⟨⟨target, expiry⟩, hmem, hcovers, hlive⟩
    rcases target with name | (ip | ip | net | net) <;> simp only [FeedbackTarget.Covers, h] at hcovers
    · exact ⟨expiry, hcovers ▸ hmem, hlive⟩
    · cases hcovers
    · cases hcovers.1
    · obtain ⟨_, h, -⟩ := hcovers
      cases h
    · obtain ⟨_, h, -⟩ := hcovers
      cases h
  · rintro ⟨expiry, hmem, hlive⟩
    exact ⟨_, hmem, rfl, hlive⟩

theorem Reflects.forgiven4 (hw : Reflects w) {ip : Addr6} {v4 : Addr4}
    (hip : parseIP (trimSpace sourceID) = some ip) (hv4 : to4 ip = some v4) :
    w.Forgiven b sourceID ↔ ∃ expiry ∈ expiriesOf w.loaded (.source (.exact4 v4)) ++
      coveringExpiries contains4 (ranges4 w.loaded) v4, Unexpired b w.clock expiry := by
  simp only [List.mem_append, mem_expiries, mem_covering4, Forgiven]
  constructor
  · rintro ⟨⟨target, expiry⟩, hmem, hcovers, hlive⟩
    rcases target with name | (ip | ip | net | net) <;>
      simp only [FeedbackTarget.Covers, hip, Option.bind_some, hv4] at hcovers
    · exact absurd (hcovers ▸ hmem) (hw.unnamed hip expiry)
    · obtain rfl := Option.some.inj hcovers
      exact ⟨expiry, .inl hmem, hlive⟩
    · obtain ⟨h, hnone⟩ := hcovers
      obtain rfl := Option.some.inj h
      rw [hv4] at hnone
      cases hnone
    · obtain ⟨a, h, -, hcovers⟩ := hcovers
      obtain rfl := Option.some.inj h
      exact ⟨expiry, .inr ⟨net, hmem, by rwa [contains4, ipv4_of_to4 hv4]⟩, hlive⟩
    · obtain ⟨a, h, hnone, -⟩ := hcovers
      obtain rfl := Option.some.inj h
      rw [hv4] at hnone
      cases hnone
  · rintro ⟨expiry, hmem | ⟨net, hmem, hcovers⟩, hlive⟩
    · exact ⟨_, hmem, by simp [FeedbackTarget.Covers, hip, hv4], hlive⟩
    · rw [contains4, ipv4_of_to4 hv4] at hcovers
      exact ⟨_, hmem, ⟨ip, hip, by simp [hv4], hcovers⟩, hlive⟩

theorem Reflects.forgiven6 (hw : Reflects w) {ip : Addr6} (hip : parseIP (trimSpace sourceID) = some ip)
    (hv4 : to4 ip = none) :
    w.Forgiven b sourceID ↔ ∃ expiry ∈ expiriesOf w.loaded (.source (.exact6 ip)) ++
      coveringExpiries IPNet.contains (ranges6 w.loaded) ip, Unexpired b w.clock expiry := by
  simp only [List.mem_append, mem_expiries, mem_covering6, Forgiven]
  constructor
  · rintro ⟨⟨target, expiry⟩, hmem, hcovers, hlive⟩
    rcases target with name | (ip | ip | net | net) <;>
      simp only [FeedbackTarget.Covers, hip, Option.bind_some, hv4] at hcovers
    · exact absurd (hcovers ▸ hmem) (hw.unnamed hip expiry)
    · cases hcovers
    · obtain rfl := Option.some.inj hcovers.1
      exact ⟨expiry, .inl hmem, hlive⟩
    · obtain ⟨a, h, hne, -⟩ := hcovers
      obtain rfl := Option.some.inj h
      exact absurd hv4 hne
    · obtain ⟨a, h, -, hcovers⟩ := hcovers
      obtain rfl := Option.some.inj h
      exact ⟨expiry, .inr ⟨net, hmem, hcovers⟩, hlive⟩
  · rintro ⟨expiry, hmem | ⟨net, hmem, hcovers⟩, hlive⟩
    · exact ⟨_, hmem, ⟨hip, hv4⟩, hlive⟩
    · exact ⟨_, hmem, ⟨ip, hip, hv4, hcovers⟩, hlive⟩

theorem matchSource_idle {f : Feedback} {now : Time} (h : f.path = "" ∨ trimSpace sourceID = "") :
    f.matchSource sourceID now now = (false, f) := by
  unfold Feedback.matchSource
  by_cases hpath : f.path = ""
  · rw [if_pos hpath]
  · rw [if_neg hpath]
    exact if_pos (h.resolve_left hpath)

/-- The look-up of what is no address is one by key. -/
theorem matchSource_subject {f : Feedback} {now : Time} (hpath : f.path ≠ "")
    (hname : trimSpace sourceID ≠ "")
    (hip : parseIP (trimSpace sourceID) = none) :
    f.matchSource sourceID now now =
      ((matchFamily (fun (_ : Unit) _ => false) f.exactSubjects [] (trimSpace sourceID) now).1,
        { f with exactSubjects := (matchExact f.exactSubjects (trimSpace sourceID) now).2 }) := by
  simp only [Feedback.matchSource, hpath, hname, if_false, matchFamily, matchExact, hip]
  cases f.exactSubjects (trimSpace sourceID) with
  | none => rfl
  | some expiry => by_cases hlive : now < expiry <;> simp [hlive]

theorem matchSource_address {f : Feedback} {now : Time} (hpath : f.path ≠ "")
    (hname : trimSpace sourceID ≠ "")
    (hnone : f.exactSubjects (trimSpace sourceID) = none) {ip : Addr6}
    (hip : parseIP (trimSpace sourceID) = some ip) :
    f.matchSource sourceID now now =
      match to4 ip with
      | some v4 => f.matchV4 v4 now
      | none => f.matchV6 ip now := by
  simp only [Feedback.matchSource, hpath, hname, if_false, matchExact, hnone, hip]

theorem Reflects.not_subject (h : Reflects w) {name : String} {ip : Addr6} (hip : parseIP name = some ip) :
    w.feedback.exactSubjects name = none := by
  cases hstored : w.feedback.exactSubjects name with
  | none => rfl
  | some expiry =>
    have hlast : Keeps (some expiry) (expiriesOf w.loaded (.subject name)) w.clock :=
        hstored ▸ h.subjects name
    exact absurd (mem_expiries.mp (List.mem_of_getLast? hlast)) (h.unnamed hip expiry)

theorem settled_nil (b : Boundary) (now : Time) (stored : Option Time) : FeedbackSettled b now [] [] stored := by
  simp [FeedbackSettled]

theorem Reflects.idle (h : Reflects w) (hidle : w.feedback.path = "" ∨ trimSpace sourceID = "") :
    ¬ w.Forgiven b sourceID ∧ w.Agrees b (.query sourceID) := by
  by_cases hpath : w.feedback.path = ""
  · have hloaded := h.inactive hpath
    refine ⟨fun hforgiven => ?_, ?_⟩
    · obtain ⟨e, he, -⟩ := hforgiven
      rw [hloaded] at he
      cases he
    simp only [Agrees, expiriesOf, ranges4, ranges6, hloaded, List.filterMap_nil, coveringExpiries,
      List.filter_nil,
      List.map_nil]
    split
    · exact settled_nil ..
    · split <;> exact settled_nil ..
  · have hname := hidle.resolve_left hpath
    have hempty : expiriesOf w.loaded (.subject "") = [] := by
      refine List.eq_nil_iff_forall_not_mem.mpr fun expiry hmem => ?_
      exact (h.named "" expiry (mem_expiries.mp hmem)).1 rfl
    have hip : parseIP (trimSpace sourceID) = none := by
      rw [hname]
      decide +kernel
    refine ⟨?_, ?_⟩
    · rw [forgiven_subject hip, hname, hempty]
      simp
    · simp only [Agrees, hip]
      rw [hname, hempty]
      exact settled_nil ..

theorem keepsRanges_nil {N : Type} (now : Time) : KeepsRanges ([] : List (ExpiringRange N)) [] now :=
  ⟨List.Subset.refl _, fun _ hr => absurd hr List.not_mem_nil⟩

/-- A query is answered right exactly in the states that agree with the file. -/
theorem Reflects.answers_iff (hw : Reflects w) (b : Boundary) (e : FeedbackEvent) :
    w.Answers parseTime b e ↔ w.Agrees b e := by
  cases e with
  | wait | load => exact Iff.rfl
  | query sourceID =>
    by_cases hidle : w.feedback.path = "" ∨ trimSpace sourceID = ""
    · obtain ⟨hnot, hagrees⟩ := hw.idle (b := b) hidle
      have hsame := @matchSource_idle sourceID w.feedback w.clock hidle
      simp only [Answers, turn, hsame, hnot, hagrees, Bool.false_eq_true, and_self]
    obtain ⟨hpath, hname⟩ := not_or.mp hidle
    cases hip : parseIP (trimSpace sourceID) with
    | none =>
      have h := matchFamily_right_iff (fun (_ : Unit) _ => false) b
        (hw.subjects (trimSpace sourceID)) (keepsRanges_nil w.clock)
      have hnone := List.subset_nil.mp (matchFamily_ranges (fun (_ : Unit) _ => false)
        w.feedback.exactSubjects (trimSpace sourceID) (keepsRanges_nil w.clock)).1
      rw [matchFamily_exact, hnone] at h
      have hagain := @matchSource_subject sourceID { w.feedback with
        exactSubjects := (matchExact w.feedback.exactSubjects (trimSpace sourceID) w.clock).2 } w.clock
          hpath hname hip
      simp only [Answers, turn, Agrees, hip, forgiven_subject hip, matchSource_subject hpath hname hip,
        hagain]
      exact h
    | some ip =>
      have hsubject := hw.not_subject hip
      cases hv4 : to4 ip with
      | some v4 =>
        have h := matchFamily_right_iff contains4 b (hw.addresses4 v4) hw.nets4
        have hagain := @matchSource_address sourceID (w.feedback.matchV4 v4 w.clock).2 w.clock hpath hname
          hsubject ip hip
        simp only [Answers, turn, Agrees, hip, hv4, hw.forgiven4 hip hv4,
          matchSource_address hpath hname hsubject hip, hagain]
        exact h
      | none =>
        have h := matchFamily_right_iff IPNet.contains b (hw.addresses6 ip) hw.nets6
        have hagain := @matchSource_address sourceID (w.feedback.matchV6 ip w.clock).2 w.clock hpath hname
          hsubject ip hip
        simp only [Answers, turn, Agrees, hip, hv4, hw.forgiven6 hip hv4,
          matchSource_address hpath hname hsubject hip, hagain]
        exact h

/-- The structures hold exactly what is loaded. -/
structure Holds (f : Feedback) (loaded : List (FeedbackTarget × Time)) : Prop where
  subjects : ∀ name, f.exactSubjects name = (expiriesOf loaded (.subject name)).getLast?
  addresses4 : ∀ ip, f.exact4 ip = (expiriesOf loaded (.source (.exact4 ip))).getLast?
  addresses6 : ∀ ip, f.exact6 ip = (expiriesOf loaded (.source (.exact6 ip))).getLast?
  nets4 : f.cidrs4 = ranges4 loaded
  nets6 : f.cidrs6 = ranges6 loaded

theorem expiriesOf_append (loaded : List (FeedbackTarget × Time)) (e : FeedbackTarget × Time)
    (target : FeedbackTarget) : (expiriesOf (loaded ++ [e]) target).getLast? =
      if e.1 = target then some e.2 else (expiriesOf loaded target).getLast? := by
  by_cases h : e.1 = target <;> simp [expiriesOf, h]

theorem ranges4_append (loaded : List (FeedbackTarget × Time)) (e : FeedbackTarget × Time) :
    ranges4 (loaded ++ [e]) = ranges4 loaded ++ (rangeOf4 e).toList := by
  unfold ranges4
  rw [List.filterMap_append]
  cases h : rangeOf4 e <;> simp [h]

theorem ranges6_append (loaded : List (FeedbackTarget × Time)) (e : FeedbackTarget × Time) :
    ranges6 (loaded ++ [e]) = ranges6 loaded ++ (rangeOf6 e).toList := by
  unfold ranges6
  rw [List.filterMap_append]
  cases h : rangeOf6 e <;> simp [h]

theorem Holds.store {f : Feedback} {loaded : List (FeedbackTarget × Time)} (h : Holds f loaded)
    (e : FeedbackTarget × Time) : Holds (f.store e) (loaded ++ [e]) := by
  obtain ⟨name | (ip | ip | net | net), expiry⟩ := e <;> constructor <;> intros <;>
    simp [Feedback.store, expiriesOf_append, ranges4_append, ranges6_append, rangeOf4, rangeOf6,
      Function.update_apply, h.subjects, h.addresses4, h.addresses6, h.nets4, h.nets6, eq_comm]

theorem Holds.stores {f : Feedback} {loaded : List (FeedbackTarget × Time)} (h : Holds f loaded)
    (entries : List (FeedbackTarget × Time)) : Holds (entries.foldl Feedback.store f)
    (loaded ++ entries) := by
  induction entries generalizing f loaded with
  | nil => simpa using h
  | cons e entries ih => simpa using ih (h.store e)

theorem path_stores (entries : List (FeedbackTarget × Time)) (f : Feedback) :
    (entries.foldl Feedback.store f).path = f.path := by
  induction entries generalizing f with
  | nil => rfl
  | cons e entries ih =>
    rw [List.foldl_cons, ih]
    obtain ⟨name | (ip | ip | net | net), expiry⟩ := e <;> rfl

theorem loadedEntry_subject {now : Time} {e : FeedbackEntry} {name : String} {expiry : Time}
    (h : loadedEntry parseTime now e = some (.subject name, expiry)) :
    name ≠ "" ∧ parseSourceToken name = none := by
  unfold loadedEntry at h
  generalize (if toLower (trimSpace e.action) = "" then "forgive" else toLower (trimSpace e.action)) =
    action at h
  dsimp only at h
  split_ifs at h with hskip
  cases htoken : parseSourceToken (trimSpace e.target) with
  | none =>
    rw [htoken] at h
    obtain ⟨hname, -⟩ := Prod.mk.inj (Option.some.inj h)
    obtain rfl := FeedbackTarget.subject.inj hname
    exact ⟨fun hempty => hskip (.inl hempty), htoken⟩
  | some token =>
    rw [htoken] at h
    cases h

theorem keeps_getLast (expiries : List Time) (now : Time) : Keeps expiries.getLast? expiries now := by
  unfold Keeps
  cases h : expiries.getLast? with
  | none => simp
  | some expiry => rfl

theorem keeps_mono {stored : Option Time} {expiries : List Time} {now later : Time}
    (h : Keeps stored expiries now) (hle : now ≤ later) : Keeps stored expiries later := by
  cases stored with
  | none => exact fun expiry hlast => le_trans (h expiry hlast) hle
  | some expiry => exact h

theorem Reflects.start (path : String) (clock : Time) : Reflects (start path clock) where
  inactive _ := rfl
  named _ _ h := absurd h List.not_mem_nil
  subjects _ _ h := absurd h (by simp [expiriesOf, FeedbackWorld.start])
  addresses4 _ _ h := absurd h (by simp [expiriesOf, FeedbackWorld.start])
  addresses6 _ _ h := absurd h (by simp [expiriesOf, FeedbackWorld.start])
  nets4 := keepsRanges_nil clock
  nets6 := keepsRanges_nil clock

theorem Reflects.wait (h : Reflects w) (duration : Nat) : Reflects (w.turn parseTime (.wait duration)) where
  inactive := h.inactive
  named := h.named
  subjects name := keeps_mono (h.subjects name) (by simp [turn])
  addresses4 ip := keeps_mono (h.addresses4 ip) (by simp [turn])
  addresses6 ip := keeps_mono (h.addresses6 ip) (by simp [turn])
  nets4 := ⟨h.nets4.1, fun r hr hlive => h.nets4.2 r hr (le_trans (by simp [turn]) hlive)⟩
  nets6 := ⟨h.nets6.1, fun r hr hlive => h.nets6.2 r hr (le_trans (by simp [turn]) hlive)⟩

theorem Reflects.load (h : Reflects w) (raw : Except String (List FeedbackEntry)) :
    Reflects (w.turn parseTime (.load raw)) := by
  by_cases hpath : w.feedback.path = ""
  · have hsame : w.turn parseTime (.load raw) = w := by
      cases raw <;> simp [turn, Feedback.load, loadedAfter, hpath]
    rw [hsame]
    exact h
  cases raw with
  | error err =>
    have hsame : w.turn parseTime (.load (.error err)) = w := by
      simp [turn, Feedback.load, loadedAfter, hpath]
    rw [hsame]
    exact h
  | ok entries =>
    simp only [turn, Feedback.load, loadedAfter, hpath, if_false]
    generalize hloaded : entries.filterMap (loadedEntry parseTime w.clock) = loaded
    have hempty : Holds { path := w.feedback.path } [] :=
      ⟨fun _ => rfl, fun _ => rfl, fun _ => rfl, rfl, rfl⟩
    have hholds : Holds (loaded.foldl Feedback.store { path := w.feedback.path }) loaded :=
      hempty.stores loaded
    refine ⟨fun hempty => absurd ((path_stores ..).symm.trans hempty) hpath, fun name expiry hmem => ?_,
      fun name => ?_, fun ip => ?_, fun ip => ?_, ?_, ?_⟩
    · rw [← hloaded] at hmem
      obtain ⟨e, -, he⟩ := List.mem_filterMap.mp hmem
      exact loadedEntry_subject parseTime he
    · dsimp only
      rw [hholds.subjects]
      exact keeps_getLast ..
    · dsimp only
      rw [hholds.addresses4]
      exact keeps_getLast ..
    · dsimp only
      rw [hholds.addresses6]
      exact keeps_getLast ..
    · dsimp only
      rw [hholds.nets4]
      exact ⟨List.Subset.refl _, fun _ hr _ => hr⟩
    · dsimp only
      rw [hholds.nets6]
      exact ⟨List.Subset.refl _, fun _ hr _ => hr⟩

/-- A query looks up by key, and drops ranges of one family. -/
theorem Reflects.query (h : Reflects w) (sourceID : String) :
    Reflects (w.turn parseTime (.query sourceID)) := by
  by_cases hidle : w.feedback.path = "" ∨ trimSpace sourceID = ""
  · have hsame : w.turn parseTime (.query sourceID) = w := by
      simp only [turn, matchSource_idle hidle]
    rw [hsame]
    exact h
  obtain ⟨hpath, hname⟩ := not_or.mp hidle
  cases hip : parseIP (trimSpace sourceID) with
  | none =>
    simp only [turn, matchSource_subject hpath hname hip]
    exact { h with
      subjects := fun name => matchExact_keeps h.subjects (trimSpace sourceID) name }
  | some ip =>
    simp only [turn, matchSource_address hpath hname (h.not_subject hip) hip]
    cases hv4 : to4 ip with
    | some v4 =>
      exact { h with
        addresses4 := fun other => by
          have hkeeps := matchExact_keeps h.addresses4 v4 other
          rw [← matchFamily_exact contains4 w.feedback.cidrs4] at hkeeps
          exact hkeeps
        nets4 := matchFamily_ranges contains4 w.feedback.exact4 v4 h.nets4 }
    | none =>
      exact { h with
        addresses6 := fun other => by
          have hkeeps := matchExact_keeps h.addresses6 ip other
          rw [← matchFamily_exact IPNet.contains w.feedback.cidrs6] at hkeeps
          exact hkeeps
        nets6 := matchFamily_ranges IPNet.contains w.feedback.exact6 ip h.nets6 }

theorem Reflects.turn (h : Reflects w) (e : FeedbackEvent) : Reflects (w.turn parseTime e) := by
  cases e with
  | wait duration => exact h.wait parseTime duration
  | load raw => exact h.load parseTime raw
  | query sourceID => exact h.query parseTime sourceID

theorem Reflects.along_iff (h : Reflects w) (b : Boundary) (es : List FeedbackEvent) :
    Along (FeedbackWorld.turn parseTime) (Answers parseTime b) w es ↔
      Along (FeedbackWorld.turn parseTime) (Agrees b) w es :=
  Along.congr (I := Reflects) h (fun h => h.answers_iff parseTime b _) fun h _ => h.turn parseTime _

end FeedbackWorld

/-- In a run of loads and queries, every query is answered right under one of the two boundaries exactly
when every query agrees with the file under it. -/
theorem feedback_matching_iff (path : String) (clock : Time) (es : List FeedbackEvent) :
    (∃ b, Along (FeedbackWorld.turn parseTime) (FeedbackWorld.Answers parseTime b) (.start path clock) es) ↔
      ∃ b, Along (FeedbackWorld.turn parseTime) (FeedbackWorld.Agrees b) (.start path clock) es :=
  exists_congr fun b => (FeedbackWorld.Reflects.start path clock).along_iff parseTime b es

/-- An address that is forgiven for a second, inside a range that is forgiven for an hour, two seconds on. -/
def shadowed : FeedbackWorld :=
  [.load (.ok [{ target := "10.0.0.1", ttl := "1s" }, { target := "10.0.0.0/8", ttl := "1h" }]),
    .wait 2000000000].foldl (FeedbackWorld.turn fun _ => none) (.start "feedback.json" 0)

/-- The first look-up drops the expired address, and only the second reaches the range. -/
theorem shadowed_answers : (shadowed.feedback.matchSource "10.0.0.1" shadowed.clock shadowed.clock).1 =
    false ∧
    ((shadowed.feedback.matchSource "10.0.0.1" shadowed.clock shadowed.clock).2.matchSource "10.0.0.1"
      shadowed.clock shadowed.clock).1 = true := by
  decide +kernel

theorem expired_address_shadows_range : ¬ ∀ (parseTime : String → Option Time) (path : String) (clock : Time)
    (es : List FeedbackEvent), ∃ b,
      Along (FeedbackWorld.turn parseTime) (FeedbackWorld.Answers parseTime b) (.start path clock) es := by
  intro h
  obtain ⟨b, -, -, ⟨-, hagain⟩, -⟩ := h (fun _ => none) "feedback.json" 0
    [.load (.ok [{ target := "10.0.0.1", ttl := "1s" }, { target := "10.0.0.0/8", ttl := "1h" }]),
      .wait 2000000000, .query "10.0.0.1"]
  obtain ⟨hfirst, hsecond⟩ := shadowed_answers
  exact absurd (hsecond.symm.trans (hagain.trans hfirst)) (by decide)

end World

end Kernloom
