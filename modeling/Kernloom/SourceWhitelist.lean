import Kernloom.PolledFile
import Kernloom.SourceFeedback

/-! The whitelist of sources. Its rules are those of the file as it was last read; the loop polls the file at
intervals while it is written to. -/

namespace Kernloom

open Transition PolledFile

structure Whitelist where
  exactSubjects : Finset String := ∅
  exact4 : Finset Addr4 := ∅
  exact6 : Finset Addr6 := ∅
  cidrs4 : List IPNet := []
  cidrs6 : List IPNet := []

section Load

/-- A line without its comment. -/
def sourceRuleSubject (line : String) : String :=
  let s := trimSpace line
  if s = "" ∨ hasPrefix s "#" then ""
  else
    match cut s '#' with
    | some (before, _) => trimSpace before
    | none => s

/-- What a line lists; a text that is no address is the name of a source. -/
def sourceRule (line : String) : Option FeedbackTarget :=
  let subject := sourceRuleSubject line
  if subject = "" then none
  else some ((parseSourceToken subject).elim (.subject subject) .source)

namespace Whitelist

def store (w : Whitelist) : FeedbackTarget → Whitelist
  | .subject name => { w with exactSubjects := insert name w.exactSubjects }
  | .source (.exact4 ip) => { w with exact4 := insert ip w.exact4 }
  | .source (.exact6 ip) => { w with exact6 := insert ip w.exact6 }
  | .source (.range4 net) => { w with cidrs4 := w.cidrs4 ++ [net] }
  | .source (.range6 net) => { w with cidrs6 := w.cidrs6 ++ [net] }

def load (raw : String) : Whitelist := ((splitText raw '\n').filterMap sourceRule).foldl store {}

end Whitelist

end Load

section Match

namespace Whitelist

variable (w : Whitelist)

def matchV4 (ip : Addr4) : Bool := ip ∈ w.exact4 || w.cidrs4.any fun net => contains4 net ip

def matchV6 (ip : Addr6) : Bool := ip ∈ w.exact6 || w.cidrs6.any fun net => net.contains ip

def matchSource (sourceID : String) : Bool :=
  let sourceID := trimSpace sourceID
  if sourceID = "" then false
  else if sourceID ∈ w.exactSubjects then true
  else
    match parseIP sourceID with
    | none => false
    | some ip =>
      match to4 ip with
      | some v4 => w.matchV4 v4
      | none => w.matchV6 ip

/-- The rules are stored by their kinds. -/
structure Holds (rules : List FeedbackTarget) : Prop where
  subjects : ∀ name, name ∈ w.exactSubjects ↔ .subject name ∈ rules
  addresses4 : ∀ ip, ip ∈ w.exact4 ↔ .source (.exact4 ip) ∈ rules
  addresses6 : ∀ ip, ip ∈ w.exact6 ↔ .source (.exact6 ip) ∈ rules
  nets4 : ∀ net, net ∈ w.cidrs4 ↔ .source (.range4 net) ∈ rules
  nets6 : ∀ net, net ∈ w.cidrs6 ↔ .source (.range6 net) ∈ rules

variable {w} {rules : List FeedbackTarget}

theorem Holds.store (h : w.Holds rules) (rule : FeedbackTarget) : (w.store rule).Holds (rules ++ [rule]) := by
  rcases rule with name | (ip | ip | net | net) <;> constructor <;> intro x <;>
    simp [Whitelist.store, h.subjects, h.addresses4, h.addresses6, h.nets4, h.nets6, or_comm]

theorem Holds.foldl (h : w.Holds rules) (more : List FeedbackTarget) :
    (more.foldl Whitelist.store w).Holds (rules ++ more) := by
  induction more generalizing w rules with
  | nil => simpa using h
  | cons rule more ih => simpa using ih (h.store rule)

theorem load_holds (raw : String) : (load raw).Holds ((splitText raw '\n').filterMap sourceRule) := by
  have hempty : Holds {} [] := by constructor <;> intro x <;> simp
  exact hempty.foldl _

/-- An address is matched by the address of a rule or by a range. -/
theorem Holds.matchSource_iff (h : w.Holds rules) {sourceID : String} (hid : trimSpace sourceID ≠ "") :
    w.matchSource sourceID = true ↔ ∃ rule ∈ rules, rule.Covers (trimSpace sourceID) := by
  unfold matchSource
  dsimp only
  rw [if_neg hid]
  constructor
  · intro hmatch
    split_ifs at hmatch with hname
    · exact ⟨_, (h.subjects _).mp hname, rfl⟩
    · split at hmatch
      · cases hmatch
      · next ip hip =>
        split at hmatch
        · next v4 hv4 =>
          rcases Bool.or_eq_true_iff.mp hmatch with hexact | hrange
          · exact ⟨_, (h.addresses4 v4).mp (of_decide_eq_true hexact), by rw [FeedbackTarget.Covers, hip]; exact hv4⟩
          · obtain ⟨net, hnet, hcontains⟩ := List.any_eq_true.mp hrange
            refine ⟨_, (h.nets4 net).mp hnet, ip, hip, by rw [hv4]; exact Option.some_ne_none v4, ?_⟩
            rwa [contains4, ipv4_of_to4 hv4] at hcontains
        · next hv6 =>
          rcases Bool.or_eq_true_iff.mp hmatch with hexact | hrange
          · exact ⟨_, (h.addresses6 ip).mp (of_decide_eq_true hexact), hip, hv6⟩
          · obtain ⟨net, hnet, hcontains⟩ := List.any_eq_true.mp hrange
            exact ⟨_, (h.nets6 net).mp hnet, ip, hip, hv6, hcontains⟩
  · rintro ⟨rule, hrule, hcovers⟩
    split_ifs with hname
    · rfl
    · rcases rule with name | (ip | ip | net | net)
      · obtain rfl : trimSpace sourceID = name := hcovers
        exact absurd ((h.subjects _).mpr hrule) hname
      · obtain ⟨full, hip, hv4⟩ := Option.bind_eq_some_iff.mp hcovers
        have hmem : ip ∈ w.exact4 := (h.addresses4 ip).mpr hrule
        simp [hip, hv4, matchV4, hmem]
      · obtain ⟨hip, hv6⟩ := hcovers
        have hmem : ip ∈ w.exact6 := (h.addresses6 ip).mpr hrule
        simp [hip, hv6, matchV6, hmem]
      · obtain ⟨ip, hip, hmapped, hcontains⟩ := hcovers
        obtain ⟨v4, hv4⟩ := Option.ne_none_iff_exists'.mp hmapped
        have hmem : ∃ net ∈ w.cidrs4, contains4 net v4 = true :=
          ⟨net, (h.nets4 net).mpr hrule, by rwa [contains4, ipv4_of_to4 hv4]⟩
        simp [hip, hv4, matchV4, hmem]
      · obtain ⟨ip, hip, hv6, hcontains⟩ := hcovers
        have hmem : ∃ net ∈ w.cidrs6, net.contains ip = true := ⟨net, (h.nets6 net).mpr hrule, hcontains⟩
        simp [hip, hv6, matchV6, hmem]

end Whitelist

end Match

section Polling

/-- The whitelist in the loop, with the file and its writers. -/
structure WhitelistWorld where
  path : String
  every : Duration
  clock : Time
  lastCheck : Time := 0
  rules : Whitelist := {}
  polled : PolledFile.World String

inductive WhitelistEvent
  | write (v : Version String)
  | remove
  | wait (d : Nat)
  | load
  | markLoaded
  | maybeReload
  | reload

namespace WhitelistWorld

def start (path : String) (every : Duration) (clock : Time) (file : Option (Version String)) : WhitelistWorld :=
  { path, every, clock, polled := .start file 0 }

/-- What a read of the file leaves in force. -/
def read (w : WhitelistWorld) : Whitelist := w.polled.file.elim w.rules fun v => .load v.content

def onFile (w : WhitelistWorld) (e : PolledFile.Event String) : Option WhitelistWorld :=
  (w.polled.step e).map fun polled => { w with polled }

/-- A check is due. -/
def Due (w : WhitelistWorld) : Prop :=
  w.path ≠ "" ∧ 0 < w.every ∧ (w.lastCheck = 0 ∨ w.every ≤ w.clock - w.lastCheck)

instance (w : WhitelistWorld) : Decidable w.Due := inferInstanceAs (Decidable (_ ∧ _))

/-- One event; a check that finds another modification time goes on to read the file. -/
def step (w : WhitelistWorld) : WhitelistEvent → Option WhitelistWorld
  | .write v => w.onFile (.write v)
  | .remove => w.onFile .remove
  | .wait d => some { w with clock := w.clock + d }
  | .load => if w.path = "" then some w else { w with rules := w.read }.onFile .read
  | .markLoaded => if w.path = "" then some w else w.onFile .mark
  | .maybeReload => if w.Due then { w with lastCheck := w.clock }.onFile .poll else some w
  | .reload => { w with rules := w.read }.onFile .reload

def Step (w : WhitelistWorld) (e : WhitelistEvent) (w' : WhitelistWorld) : Prop := w.step e = some w'

/-- Versions have modification times of their own, and nothing is written between the load at the start and
the stat that follows it. -/
def Unraced (w : WhitelistWorld) : WhitelistEvent → Prop
  | .write v => PolledFile.Unraced 0 w.polled (.write v)
  | .markLoaded => w.polled.file = w.polled.source
  | _ => True

/-- The rules are those of the version that was read. -/
structure Follows (w : WhitelistWorld) : Prop where
  coherent : PolledFile.Coherent 0 w.polled
  rules : w.rules = w.polled.source.elim {} fun v => .load v.content

variable {w w' : WhitelistWorld} {e : WhitelistEvent} {es : List WhitelistEvent}

theorem onFile_eq_some {ev : PolledFile.Event String} (h : w.onFile ev = some w') :
    ∃ polled, PolledFile.Step w.polled ev polled ∧ w' = { w with polled } := by
  obtain ⟨polled, hpolled, rfl⟩ := Option.map_eq_some_iff.mp h
  exact ⟨polled, hpolled, rfl⟩

theorem Follows.read (hw : w.Follows) :
    w.read = (w.polled.file.or w.polled.source).elim {} fun v => .load v.content := by
  unfold WhitelistWorld.read
  cases w.polled.file with
  | none => exact hw.rules
  | some v => rfl

theorem Follows.next (hw : w.Follows) {ev : PolledFile.Event String} {polled : PolledFile.World String}
    (hstep : PolledFile.Step w.polled ev polled) (hguard : PolledFile.Unraced 0 w.polled ev) {rules : Whitelist}
    {lastCheck : Time} (hrules : rules = polled.source.elim {} fun v => .load v.content) :
    Follows { w with polled, rules, lastCheck } := ⟨hw.coherent.step ⟨hguard, hstep⟩, hrules⟩

theorem Follows.step (hw : w.Follows) (h : Guarded Unraced Step w e w') : w'.Follows := by
  obtain ⟨hguard, hstep⟩ := h
  cases e with
  | write v =>
    obtain ⟨polled, hpolled, rfl⟩ := onFile_eq_some hstep
    exact hw.next hpolled hguard (hw.rules.trans (by rw [source_eq hpolled]))
  | remove =>
    obtain ⟨polled, hpolled, rfl⟩ := onFile_eq_some hstep
    exact hw.next hpolled trivial (hw.rules.trans (by rw [source_eq hpolled]))
  | wait d =>
    obtain rfl := Option.some.inj hstep
    exact ⟨hw.coherent, hw.rules⟩
  | load =>
    unfold Step WhitelistWorld.step at hstep
    dsimp only at hstep
    split_ifs at hstep
    · obtain rfl := Option.some.inj hstep
      exact hw
    · obtain ⟨polled, hpolled, rfl⟩ := onFile_eq_some hstep
      exact hw.next hpolled trivial (hw.read.trans (by rw [source_eq hpolled]))
  | markLoaded =>
    unfold Step WhitelistWorld.step at hstep
    dsimp only at hstep
    split_ifs at hstep
    · obtain rfl := Option.some.inj hstep
      exact hw
    · obtain ⟨polled, hpolled, rfl⟩ := onFile_eq_some hstep
      exact hw.next hpolled hguard (hw.rules.trans (by rw [source_eq hpolled]))
  | maybeReload =>
    unfold Step WhitelistWorld.step at hstep
    dsimp only at hstep
    split_ifs at hstep
    · obtain ⟨polled, hpolled, rfl⟩ := onFile_eq_some hstep
      exact hw.next hpolled trivial (hw.rules.trans (by rw [source_eq hpolled]))
    · obtain rfl := Option.some.inj hstep
      exact hw
  | reload =>
    obtain ⟨polled, hpolled, rfl⟩ := onFile_eq_some hstep
    exact hw.next hpolled trivial (hw.read.trans (by rw [source_eq hpolled]))

theorem Follows.start {path : String} {every : Duration} {clock : Time} {file : Option (Version String)}
    (h : ∀ v ∈ file, v.modTime ≠ 0) : (start path every clock file).Follows := ⟨.start h, rfl⟩

/-- A line of the version that was read lists a source. -/
def Lists (w : WhitelistWorld) (sourceID : String) : Prop :=
  ∃ v, w.polled.source = some v ∧
    ∃ line ∈ splitText v.content '\n', ∃ rule, sourceRule line = some rule ∧ rule.Covers (trimSpace sourceID)

theorem Follows.matchSource_iff (hw : w.Follows) {sourceID : String} (hid : trimSpace sourceID ≠ "") :
    w.rules.matchSource sourceID = true ↔ w.Lists sourceID := by
  rw [hw.rules]
  cases hsource : w.polled.source with
  | none =>
    have hempty : Whitelist.Holds {} [] := by constructor <;> intro x <;> simp
    have hmatch := hempty.matchSource_iff hid
    simpa [Lists, hsource] using hmatch
  | some v =>
    have hmatch := (Whitelist.load_holds v.content).matchSource_iff hid
    rw [Option.elim_some, hmatch]
    constructor
    · rintro ⟨rule, hrule, hcovers⟩
      obtain ⟨line, hline, hparsed⟩ := List.mem_filterMap.mp hrule
      exact ⟨v, hsource, line, hline, rule, hparsed, hcovers⟩
    · rintro ⟨v', hv', line, hline, rule, hparsed, hcovers⟩
      obtain rfl := Option.some.inj (hsource.symm.trans hv')
      exact ⟨rule, List.mem_filterMap.mpr ⟨line, hline, hparsed⟩, hcovers⟩

def labFile : Version String := ⟨"# the lab\n10.0.0.0/8\nziti.identity:alice # until May", 100⟩

def emptiedFile : Version String := ⟨"", 200⟩

def loadedWorld : Option WhitelistWorld :=
  [.load, .markLoaded, .write emptiedFile].foldlM step (start "whitelist.txt" Duration.second 300 (some labFile))

theorem loadedWorld_facts : loadedWorld.any fun w =>
    w.Due ∧ w.rules.matchSource "10.1.2.3" ∧ w.polled.file = some emptiedFile := by decide +kernel

/-- The checks read nothing while the recorded time is that of the file. -/
theorem checks_read_nothing {v : Version String} (h : Run Step w es w')
    (hes : ∀ e ∈ es, e = .maybeReload ∨ ∃ d, e = .wait d) (hfile : w.polled.file = some v)
    (hsame : w.polled.modTime = v.modTime) (hidle : w.polled.found = none) :
    w'.rules = w.rules ∧ w'.polled = w.polled := by
  induction h with
  | nil => exact ⟨rfl, rfl⟩
  | cons hstep _ ih =>
    rw [List.forall_mem_cons] at hes
    obtain ⟨rfl | ⟨d, rfl⟩, hes⟩ := hes
    · unfold Step WhitelistWorld.step at hstep
      dsimp only at hstep
      split_ifs at hstep
      · obtain ⟨polled, hpolled, rfl⟩ := onFile_eq_some hstep
        obtain rfl := poll_same hfile hsame hidle hpolled
        exact ih hes hfile hsame hidle
      · obtain rfl := Option.some.inj hstep
        exact ih hes hfile hsame hidle
    · obtain rfl := Option.some.inj hstep
      exact ih hes hfile hsame hidle

/-- A version that is written between the load at the start and its stat is read by no check. -/
theorem startup_write_unread : ∃ w, Run Step (start "whitelist.txt" Duration.second 300 (some labFile))
    [.load, .write emptiedFile, .markLoaded] w ∧ ∀ es w', Run Step w es w' →
      (∀ e ∈ es, e = .maybeReload ∨ ∃ d, e = .wait d) →
        w'.polled.file = some emptiedFile ∧ w'.rules.matchSource "10.1.2.3" = true := by
  refine ⟨_, .cons rfl (.cons rfl (.cons rfl .nil)), fun es w' h hes => ?_⟩
  obtain ⟨hrules, hpolled⟩ := checks_read_nothing h hes rfl rfl rfl
  rw [hrules, hpolled]
  exact ⟨rfl, by decide +kernel⟩

end WhitelistWorld

end Polling

end Kernloom
