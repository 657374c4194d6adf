import Kernloom.Shield
import Kernloom.Transition

/-! The flow counters between the XDP program, which adds to them, and the agent's poll, which reads
every entry, deletes what it read and publishes it. What is published and what is stored add up to
what was counted, as long as no entry changes between its read and its deletion. -/

namespace Kernloom

open Transition

abbrev FlowEntry := EdgeKey × FlowStats

/-- How far a poll has come: what it has read, what it has deleted of it and has yet to delete, and
what it has yet to publish. -/
inductive PollPhase where
  | idle
  | iterating (batch : List FlowEntry)
  | deleting (gone rest : List FlowEntry)
  | publishing (rest : List FlowEntry)

structure FlowWorld where
  flow4Stats : BpfMap EdgeKey FlowStats := fun _ => none
  poll : PollPhase := .idle
  published : List FlowEntry := []
  /-- The packets that the program saw of each flow. -/
  counted : EdgeKey → Nat := fun _ => 0

inductive FlowEvent where
  | packet (key : EdgeKey) (len : Nat) (syn : Bool)
  | beginPoll
  | next (key : EdgeKey)
  | endIteration (err : Bool)
  | delete (ok : Bool)
  | cleared
  | publish
  | endPoll

/-- One step of the program or of `pollFlow4`. The iterator comes by any entry there is and stops
anywhere; the answer of a deletion is ignored. -/
def pollStep (w : FlowWorld) : FlowEvent → Option FlowWorld
  | .packet key len syn =>
    some { w with
      flow4Stats := Function.update w.flow4Stats key (flow4Update (w.flow4Stats key) len syn true)
      counted := Function.update w.counted key (w.counted key + 1) }
  | .beginPoll =>
    match w.poll with
    | .idle => some { w with poll := .iterating [] }
    | _ => none
  | .next key =>
    match w.poll, w.flow4Stats key with
    | .iterating batch, some v => some { w with poll := .iterating (batch ++ [(key, v)]) }
    | _, _ => none
  | .endIteration err =>
    match w.poll with
    | .iterating batch => some { w with poll := if err then .idle else .deleting [] batch }
    | _ => none
  | .delete ok =>
    match w.poll with
    | .deleting gone (e :: rest) =>
      some { w with
        flow4Stats := if ok then Function.update w.flow4Stats e.1 none else w.flow4Stats
        poll := .deleting (gone ++ [e]) rest }
    | _ => none
  | .cleared =>
    match w.poll with
    | .deleting gone [] => some { w with poll := .publishing gone }
    | _ => none
  | .publish =>
    match w.poll with
    | .publishing (e :: rest) => some { w with poll := .publishing rest, published := w.published ++ [e] }
    | _ => none
  | .endPoll =>
    match w.poll with
    | .publishing [] => some { w with poll := .idle }
    | _ => none

def PollStep (w : FlowWorld) (e : FlowEvent) (w' : FlowWorld) : Prop := pollStep w e = some w'

/-- The packets of a flow in some entries. -/
def packetsOf (key : EdgeKey) (entries : List FlowEntry) : Nat :=
  ((entries.filter fun e => e.1 = key).map (·.2.pkts)).sum

def storedPackets (w : FlowWorld) (key : EdgeKey) : Nat := (w.flow4Stats key).elim 0 (·.pkts)

namespace PollPhase

/-- The entries that were read and are still stored. -/
def listed : PollPhase → List FlowEntry
  | iterating batch => batch
  | deleting _ rest => rest
  | idle | publishing _ => []

/-- The entries that were deleted and are not published yet. -/
def taken : PollPhase → List FlowEntry
  | deleting gone _ => gone
  | publishing rest => rest
  | idle | iterating _ => []

end PollPhase

/-- No packet of a flow comes between the read of its entry and the deletion, no entry is read twice
in a poll, and no deletion fails. -/
def ReadOnce (w : FlowWorld) : FlowEvent → Prop
  | .packet key _ _ | .next key => key ∉ w.poll.listed.map (·.1)
  | .delete ok => ok = true
  | _ => True

instance (w : FlowWorld) : (e : FlowEvent) → Decidable (ReadOnce w e)
  | .packet .. | .next _ => inferInstanceAs (Decidable (_ ∉ _))
  | .delete ok => inferInstanceAs (Decidable (ok = true))
  | .beginPoll | .endIteration _ | .cleared | .publish | .endPoll => .isTrue trivial

/-- What is published, on its way and stored is what was counted, and what was read is stored as it
was read. -/
structure FlowsKept (w : FlowWorld) : Prop where
  total : ∀ key, packetsOf key w.published + packetsOf key w.poll.taken + storedPackets w key = w.counted key
  listed : ∀ e ∈ w.poll.listed, w.flow4Stats e.1 = some e.2
  nodup : (w.poll.listed.map (·.1)).Nodup

section Packets

variable {key : EdgeKey} {entries entries' : List FlowEntry}

@[simp] theorem packetsOf_nil : packetsOf key [] = 0 := rfl

theorem packetsOf_append : packetsOf key (entries ++ entries') = packetsOf key entries + packetsOf key entries' := by
  simp [packetsOf]

theorem packetsOf_cons (e : FlowEntry) :
    packetsOf key (e :: entries) = (if e.1 = key then e.2.pkts else 0) + packetsOf key entries := by
  by_cases h : e.1 = key <;> simp [packetsOf, h]

theorem flow4Update_pkts (st : Option FlowStats) (len : Nat) (syn : Bool) :
    (flow4Update st len syn true).elim 0 (·.pkts) = st.elim 0 (·.pkts) + 1 := by
  cases st <;> rfl

end Packets

variable {w w' : FlowWorld} {e : FlowEvent}

theorem FlowsKept.packet (h : FlowsKept w) {key : EdgeKey} (hkey : key ∉ w.poll.listed.map (·.1)) (len : Nat)
    (syn : Bool) : FlowsKept { w with
      flow4Stats := Function.update w.flow4Stats key (flow4Update (w.flow4Stats key) len syn true)
      counted := Function.update w.counted key (w.counted key + 1) } where
  total k := by
    have htotal := h.total k
    simp only [storedPackets, Function.update_apply] at htotal ⊢
    by_cases hk : k = key
    · subst hk
      rw [if_pos rfl, if_pos rfl, flow4Update_pkts]
      omega
    · rw [if_neg hk, if_neg hk]
      exact htotal
  listed entry hentry := by
    have hne : entry.1 ≠ key := fun heq =>
      hkey (List.mem_map.mpr ⟨entry, hentry, heq⟩)
    exact (Function.update_of_ne hne ..).trans (h.listed entry hentry)
  nodup := h.nodup

/-- A deletion moves the packets of an entry from the map to those on their way. -/
theorem FlowsKept.delete (h : FlowsKept w) {gone rest : List FlowEntry} {entry : FlowEntry}
    (hpoll : w.poll = .deleting gone (entry :: rest)) : FlowsKept { w with
      flow4Stats := Function.update w.flow4Stats entry.1 none, poll := .deleting (gone ++ [entry]) rest } := by
  obtain ⟨htotal, hlisted, hnodup⟩ := h
  rw [hpoll] at htotal hlisted hnodup
  have hstored : w.flow4Stats entry.1 = some entry.2 := hlisted entry List.mem_cons_self
  obtain ⟨hnotin, hnodup⟩ := List.nodup_cons.mp hnodup
  refine ⟨fun k => ?_, fun entry' hentry' => ?_, hnodup⟩
  · have hk := htotal k
    simp only [storedPackets, PollPhase.taken, packetsOf_append, packetsOf_cons, packetsOf_nil,
      Function.update_apply] at hk ⊢
    by_cases hsame : entry.1 = k
    · subst hsame
      rw [hstored] at hk
      simp only [if_true, Option.elim_some, Option.elim_none] at hk ⊢
      omega
    · rw [if_neg hsame, if_neg (Ne.symm hsame)]
      omega
  · have hne : entry'.1 ≠ entry.1 := fun heq =>
      hnotin (List.mem_map.mpr ⟨entry', hentry', heq⟩)
    exact (Function.update_of_ne hne ..).trans (hlisted entry' (List.mem_cons_of_mem _ hentry'))

theorem FlowsKept.step (h : FlowsKept w) (hread : ReadOnce w e) (hstep : PollStep w e w') : FlowsKept w' := by
  obtain ⟨stats, poll, published, counted⟩ := w
  obtain ⟨htotal, hlisted, hnodup⟩ := id h
  simp only [PollStep] at hstep
  cases e with
  | packet key len syn =>
    obtain rfl := Option.some.inj hstep
    exact h.packet hread len syn
  | beginPoll =>
    cases poll with
    | idle =>
      obtain rfl := Option.some.inj hstep
      exact ⟨htotal, hlisted, hnodup⟩
    | iterating | deleting | publishing => cases hstep
  | next key =>
    cases poll with
    | iterating batch =>
      cases hv : stats key with
      | none => simp [pollStep, hv] at hstep
      | some v =>
        simp only [pollStep, hv] at hstep
        obtain rfl := Option.some.inj hstep
        refine ⟨htotal, fun entry hentry => ?_, ?_⟩
        · rcases List.mem_append.mp hentry with hentry | hentry
          · exact hlisted entry hentry
          · obtain rfl := List.mem_singleton.mp hentry
            exact hv
        · simp only [PollPhase.listed, List.map_append, List.map_cons, List.map_nil]
          exact List.nodup_append_comm.mp (List.nodup_cons.mpr ⟨hread, hnodup⟩)
    | idle | deleting | publishing => simp [pollStep] at hstep
  | endIteration err =>
    cases poll with
    | iterating batch =>
      obtain rfl := Option.some.inj hstep
      cases err with
      | true => exact ⟨htotal, fun _ hentry => absurd hentry List.not_mem_nil, .nil⟩
      | false => exact ⟨htotal, hlisted, hnodup⟩
    | idle | deleting | publishing => cases hstep
  | delete ok =>
    obtain rfl : ok = true := hread
    rcases poll with _ | _ | ⟨gone, _ | ⟨entry, rest⟩⟩ | _
    case deleting.cons =>
      obtain rfl := Option.some.inj hstep
      exact h.delete rfl
    all_goals cases hstep
  | cleared =>
    rcases poll with _ | _ | ⟨gone, _ | ⟨entry, rest⟩⟩ | _
    case deleting.nil =>
      obtain rfl := Option.some.inj hstep
      exact ⟨htotal, hlisted, hnodup⟩
    all_goals cases hstep
  | publish =>
    rcases poll with _ | _ | _ | (_ | ⟨entry, rest⟩)
    case publishing.cons =>
      obtain rfl := Option.some.inj hstep
      refine ⟨fun k => ?_, hlisted, hnodup⟩
      have hk := htotal k
      simp only [PollPhase.taken, storedPackets, packetsOf_append, packetsOf_cons, packetsOf_nil] at hk ⊢
      omega
    all_goals cases hstep
  | endPoll =>
    rcases poll with _ | _ | _ | (_ | ⟨entry, rest⟩)
    case publishing.nil =>
      obtain rfl := Option.some.inj hstep
      exact ⟨htotal, hlisted, hnodup⟩
    all_goals cases hstep

/-- In every run in which entries are read once and stay as they were read until they are deleted, the
packets published and those still stored are the packets counted, whenever no poll is in progress. -/
theorem flows_conserved {es : List FlowEvent} (hrun : Run (Guarded ReadOnce PollStep) {} es w)
    (hidle : w.poll = .idle) (key : EdgeKey) :
    packetsOf key w.published + storedPackets w key = w.counted key := by
  have hstart : FlowsKept {} :=
    ⟨fun _ => rfl, fun _ hentry => absurd hentry List.not_mem_nil, .nil⟩
  have htotal := (hrun.invariant hstart fun hs hstep => hs.step hstep.1 hstep.2).total key
  rw [hidle] at htotal
  exact htotal

section OneFlow

def webFlow : EdgeKey := ⟨0xc0000207, 443, 6⟩

/-- A poll of one flow, with what happens between the read of its entry and the deletion. -/
def pollOnce (meanwhile : List FlowEvent) : List FlowEvent :=
  [.packet webFlow 60 true, .beginPoll, .next webFlow] ++ meanwhile ++
    [.endIteration false, .delete true, .cleared, .publish, .endPoll]

def undisturbedPoll : Option FlowWorld :=
  (pollOnce []).foldlM (fun w e => if ReadOnce w e then pollStep w e else none) {}

def disturbedPoll : Option FlowWorld := (pollOnce [.packet webFlow 60 false]).foldlM pollStep {}

theorem polled_facts :
    (undisturbedPoll.any fun w => (w.poll matches .idle) ∧ w.published = [(webFlow, ⟨1, 60, 1⟩)]) = true ∧
    (disturbedPoll.any fun w => (w.poll matches .idle) ∧ packetsOf webFlow w.published = 1 ∧
      storedPackets w webFlow = 0 ∧ w.counted webFlow = 2) = true := by
  decide +kernel

theorem one_poll_conserved : ∃ w ∈ undisturbedPoll, packetsOf webFlow w.published + storedPackets w webFlow =
    w.counted webFlow := by
  obtain ⟨hfacts, -⟩ := polled_facts
  rcases hw : undisturbedPoll with _ | w
  · simp [hw] at hfacts
  · rw [hw, Option.any_some] at hfacts
    have hidle : w.poll = .idle := by
      cases hpoll : w.poll <;> simp [hpoll] at hfacts ⊢
    exact ⟨w, rfl, flows_conserved (guarded_of_foldlM hw) hidle webFlow⟩

/-- A packet counted after the read of its entry is deleted with it. -/
theorem packet_lost_in_poll : ¬ ∀ es w, Run PollStep {} es w → w.poll = .idle →
    ∀ key, packetsOf key w.published + storedPackets w key = w.counted key := by
  intro h
  obtain ⟨-, hfacts⟩ := polled_facts
  rcases hw : disturbedPoll with _ | w
  · simp [hw] at hfacts
  · rw [hw, Option.any_some] at hfacts
    obtain ⟨hpoll, hpublished, hstored, hcounted⟩ := of_decide_eq_true hfacts
    have hidle : w.poll = .idle := by
      cases hphase : w.poll <;> simp [hphase] at hpoll ⊢
    have htotal := h _ w (run_of_foldlM hw) hidle webFlow
    rw [hpublished, hstored, hcounted] at htotal
    exact absurd htotal (by decide)

end OneFlow

end Kernloom
