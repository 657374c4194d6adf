import Kernloom.Channels
import Kernloom.Transition

/-! The event bus. A signal goes to every subscriber on the list that its publisher copied, one channel
after the other and without waiting; publishers and subscribers interleave at every channel operation. -/

namespace Kernloom

open Channels Transition

variable {π ο ς : Type}

/-- The channels of the bus, and for each publisher the signal it is fanning out with the channels it
has yet to send it to. -/
structure Bus (π ο ς : Type) where
  observations : Channel (π × ο)
  signalSubs : List (Channel (π × ς))
  fanOut : π → Option (ς × List Nat)

inductive BusEvent (π ο ς : Type)
  | subscribeSignals (buffer : Int)
  | publishObservation (p : π) (obs : ο)
  | publishSignal (p : π) (sig : ς)
  | send (p : π)
  | published (p : π)
  | receiveObservation
  | receiveSignal (i : Nat)
  deriving DecidableEq

def Bus.new (buffer : Nat) : Bus π ο ς := ⟨.make buffer, [], fun _ => none⟩

def subscriberBuffer (buffer : Int) : Nat := if buffer ≤ 0 then 64 else buffer.toNat

theorem subscriberBuffer_pos (buffer : Int) : 0 < subscriberBuffer buffer := by
  unfold subscriberBuffer
  split_ifs with h <;> omega

section Steps

variable [DecidableEq π]

def Bus.setFanOut (b : Bus π ο ς) (p : π) (call : Option (ς × List Nat)) : Bus π ο ς :=
  { b with fanOut := Function.update b.fanOut p call }

/-- One event; a publisher is in one call at a time. -/
def Bus.step (b : Bus π ο ς) : BusEvent π ο ς → Option (Bus π ο ς)
  | .subscribeSignals buffer =>
    some { b with signalSubs := b.signalSubs ++ [.make (subscriberBuffer buffer)] }
  | .publishObservation p obs =>
    if (b.fanOut p).isSome then none else some { b with observations := b.observations.offer (p, obs) }
  | .publishSignal p sig =>
    if (b.fanOut p).isSome then none
    else some (b.setFanOut p (some (sig, List.range b.signalSubs.length)))
  | .send p =>
    match b.fanOut p with
    | some (sig, i :: rest) =>
      some ({ b with signalSubs := b.signalSubs.modify i (·.offer (p, sig)) }.setFanOut p (some (sig, rest)))
    | _ => none
  | .published p =>
    match b.fanOut p with
    | some (_, []) => some (b.setFanOut p none)
    | _ => none
  | .receiveObservation => b.observations.receive.map fun r => { b with observations := r.2 }
  | .receiveSignal i =>
    (b.signalSubs[i]?.bind Channel.receive).map fun r => { b with signalSubs := b.signalSubs.set i r.2 }

def BusStep (b : Bus π ο ς) (e : BusEvent π ο ς) (b' : Bus π ο ς) : Prop := b.step e = some b'

/-- The signals of one publisher, in the order of its calls. -/
def begun (p : π) (es : List (BusEvent π ο ς)) : List ς :=
  es.filterMap fun
    | .publishSignal q sig => if q = p then some sig else none
    | _ => none

/-- The observations of one publisher. -/
def observed (p : π) (es : List (BusEvent π ο ς)) : List ο :=
  es.filterMap fun
    | .publishObservation q obs => if q = p then some obs else none
    | _ => none

def subscriptions (es : List (BusEvent π ο ς)) : Nat :=
  es.countP fun
    | .subscribeSignals _ => true
    | _ => false

/-- What one publisher sent of what is listed. -/
def ofPublisher {α : Type} (p : π) (sent : List (π × α)) : List α :=
  sent.filterMap fun s => if s.1 = p then some s.2 else none

/-- What a call in flight has yet to send to a subscriber. -/
def owed : Option (ς × List Nat) → Nat → List ς
  | some (sig, subs), i => if i ∈ subs then [sig] else []
  | none, _ => []

abbrev Bus.pending (b : Bus π ο ς) (p : π) (i : Nat) : List ς := owed (b.fanOut p) i

/-- What a channel was offered, in order. -/
abbrev offered {α : Type} (c : Channel α) : List α := c.offers.map Offer.item

section Calls

variable (b : Bus π ο ς) (p : π) (call : Option (ς × List Nat))

@[simp] theorem Bus.setFanOut_signalSubs : (b.setFanOut p call).signalSubs = b.signalSubs := rfl

@[simp] theorem Bus.setFanOut_observations : (b.setFanOut p call).observations = b.observations := rfl

@[simp] theorem Bus.setFanOut_self : (b.setFanOut p call).fanOut p = call := Function.update_self ..

theorem Bus.setFanOut_of_ne {q : π} (h : q ≠ p) : (b.setFanOut p call).fanOut q = b.fanOut q :=
  Function.update_of_ne h ..

end Calls

@[simp] theorem ofPublisher_append {α : Type} (p : π) (sent sent' : List (π × α)) :
    ofPublisher p (sent ++ sent') = ofPublisher p sent ++ ofPublisher p sent' := List.filterMap_append

theorem ofPublisher_singleton {α : Type} (p q : π) (a : α) :
    ofPublisher p [(q, a)] = if q = p then [a] else [] := by
  by_cases h : q = p <;> simp [ofPublisher, h]

theorem begun_append (p : π) (es es' : List (BusEvent π ο ς)) :
    begun p (es ++ es') = begun p es ++ begun p es' := List.filterMap_append

end Steps

section Lists

variable [DecidableEq π] {b b' : Bus π ο ς} {e : BusEvent π ο ς} {es es' : List (BusEvent π ο ς)}

/-- A copied list names each channel once, and only channels that there are. -/
def Bus.Copied (b : Bus π ο ς) : Prop :=
  ∀ p sig subs, b.fanOut p = some (sig, subs) → subs.Nodup ∧ ∀ i ∈ subs, i < b.signalSubs.length

/-- What a step can do. -/
inductive BusMove : Bus π ο ς → BusEvent π ο ς → Bus π ο ς → Prop
  | subscribed {b : Bus π ο ς} {buffer : Int} : BusMove b (.subscribeSignals buffer)
      { b with signalSubs := b.signalSubs ++ [.make (subscriberBuffer buffer)] }
  | observation {b : Bus π ο ς} {p : π} {obs : ο} : BusMove b (.publishObservation p obs)
      { b with observations := b.observations.offer (p, obs) }
  | signal {b : Bus π ο ς} {p : π} {sig : ς} : b.fanOut p = none → BusMove b (.publishSignal p sig)
      (b.setFanOut p (some (sig, List.range b.signalSubs.length)))
  | sent {b : Bus π ο ς} {p : π} {sig : ς} {i : Nat} {rest : List Nat} :
      b.fanOut p = some (sig, i :: rest) → BusMove b (.send p)
        ({ b with signalSubs := b.signalSubs.modify i (·.offer (p, sig)) }.setFanOut p (some (sig, rest)))
  | returned {b : Bus π ο ς} {p : π} {sig : ς} : b.fanOut p = some (sig, []) → BusMove b (.published p)
      (b.setFanOut p none)
  | observationReceived {b : Bus π ο ς} {a : π × ο} {c : Channel (π × ο)} :
      b.observations.receive = some (a, c) → BusMove b .receiveObservation { b with observations := c }
  | signalReceived {b : Bus π ο ς} {i : Nat} {a : π × ς} {c c' : Channel (π × ς)} :
      b.signalSubs[i]? = some c → c.receive = some (a, c') →
      BusMove b (.receiveSignal i) { b with signalSubs := b.signalSubs.set i c' }

theorem BusStep.move (h : BusStep b e b') : BusMove b e b' := by
  unfold BusStep Bus.step at h
  cases e with
  | subscribeSignals buffer =>
    cases h
    exact .subscribed
  | publishObservation p obs =>
    dsimp only at h
    split_ifs at h
    cases h
    exact .observation
  | publishSignal p sig =>
    dsimp only at h
    split_ifs at h with hidle
    cases h
    exact .signal (Option.not_isSome_iff_eq_none.mp hidle)
  | send p =>
    dsimp only at h
    split at h
    · next hp =>
      cases h
      exact .sent hp
    · cases h
  | published p =>
    dsimp only at h
    split at h
    · next hp =>
      cases h
      exact .returned hp
    · cases h
  | receiveObservation =>
    obtain ⟨⟨a, c⟩, hr, rfl⟩ := Option.map_eq_some_iff.mp h
    exact .observationReceived hr
  | receiveSignal i =>
    obtain ⟨⟨a, c'⟩, hr, rfl⟩ := Option.map_eq_some_iff.mp h
    obtain ⟨c, hc, hr⟩ := Option.bind_eq_some_iff.mp hr
    exact .signalReceived hc hr

theorem BusMove.length (h : BusMove b e b') :
    b'.signalSubs.length = b.signalSubs.length + subscriptions [e] := by
  cases h with
  | subscribed => exact List.length_append
  | sent => exact List.length_modify ..
  | signalReceived => exact List.length_set
  | _ => rfl

theorem BusMove.copied (h : BusMove b e b') (hb : b.Copied) : b'.Copied := by
  have hkept : ∀ p sig subs, b.fanOut p = some (sig, subs) →
      subs.Nodup ∧ ∀ i ∈ subs, i < b'.signalSubs.length := by
    intro p sig subs hp
    refine ⟨(hb p sig subs hp).1, fun i hi => ?_⟩
    have hlt := (hb p sig subs hp).2 i hi
    rw [h.length]
    omega
  intro q sig' subs' hq
  cases h with
  | @signal p sig _ =>
    by_cases hpq : q = p
    · subst hpq
      rw [Bus.setFanOut_self] at hq
      cases hq
      exact ⟨List.nodup_range, fun i hi => List.mem_range.mp hi⟩
    · rw [Bus.setFanOut_of_ne _ _ _ hpq] at hq
      exact hkept q sig' subs' hq
  | @sent p sig i rest hp =>
    by_cases hpq : q = p
    · subst hpq
      rw [Bus.setFanOut_self] at hq
      cases hq
      have hcopy := hkept q _ _ hp
      exact ⟨hcopy.1.of_cons, fun j hj => hcopy.2 j (List.mem_cons_of_mem _ hj)⟩
    · rw [Bus.setFanOut_of_ne _ _ _ hpq] at hq
      exact hkept q sig' subs' hq
  | @returned p sig hp =>
    by_cases hpq : q = p
    · subst hpq
      rw [Bus.setFanOut_self] at hq
      cases hq
    · rw [Bus.setFanOut_of_ne _ _ _ hpq] at hq
      exact hkept q sig' subs' hq
  | _ => exact hkept q sig' subs' hq

end Lists

section Deliveries

variable [DecidableEq π] {b b' : Bus π ο ς} {e : BusEvent π ο ς} {es es' : List (BusEvent π ο ς)} {i : Nat}

theorem begun_singleton_of_ne {p q : π} {sig : ς} (h : q ≠ p) :
    begun p [(.publishSignal q sig : BusEvent π ο ς)] = [] := by
  simp [begun, h]

theorem begun_singleton (p : π) (sig : ς) : begun p [(.publishSignal p sig : BusEvent π ο ς)] = [sig] := by
  simp [begun]

/-- A step leaves a subscriber its channel, and adds what is published to what the subscriber is sent or
will be. -/
theorem BusMove.subscriber (h : BusMove b e b') (hb : b.Copied) {c : Channel (π × ς)}
    (hc : b.signalSubs[i]? = some c) :
    ∃ c', b'.signalSubs[i]? = some c' ∧ c'.cap = c.cap ∧ (e ≠ .receiveSignal i → c'.received = c.received) ∧
      ∀ p, ofPublisher p (offered c') ++ b'.pending p i =
        ofPublisher p (offered c) ++ b.pending p i ++ begun p [e] := by
  have hlt : i < b.signalSubs.length := (List.getElem?_eq_some_iff.mp hc).1
  cases h with
  | subscribed => exact ⟨c, (List.getElem?_append_left hlt).trans hc, rfl, fun _ => rfl, fun p => (List.append_nil _).symm⟩
  | observation | observationReceived => exact ⟨c, hc, rfl, fun _ => rfl, fun p => (List.append_nil _).symm⟩
  | @signal q sig hidle =>
    refine ⟨c, hc, rfl, fun _ => rfl, fun p => ?_⟩
    by_cases hpq : p = q
    · subst hpq
      have hmem : i ∈ List.range b.signalSubs.length := List.mem_range.mpr hlt
      rw [Bus.pending, Bus.pending, hidle, Bus.setFanOut_self, owed, if_pos hmem, owed, List.append_nil,
        begun_singleton]
    · rw [Bus.pending, Bus.setFanOut_of_ne _ _ _ hpq, begun_singleton_of_ne (Ne.symm hpq), List.append_nil]
  | @sent q sig j rest hq =>
    have hcopy := hb q sig (j :: rest) hq
    by_cases hji : j = i
    · subst hji
      refine ⟨c.offer (q, sig), by simp [hc], c.offer_cap _, fun _ => c.offer_received _, fun p => ?_⟩
      have hoffered : offered (c.offer (q, sig)) = offered c ++ [(q, sig)] := by simp [offered]
      have hnil : begun p [(.send q : BusEvent π ο ς)] = [] := rfl
      rw [hoffered, ofPublisher_append, ofPublisher_singleton, hnil, List.append_nil, List.append_assoc]
      congr 1
      by_cases hpq : q = p
      · subst hpq
        have hnot : j ∉ rest := (List.nodup_cons.mp hcopy.1).1
        rw [if_pos rfl, Bus.pending, Bus.pending, Bus.setFanOut_self, hq, owed, owed, if_neg hnot,
          if_pos List.mem_cons_self, List.append_nil]
      · rw [if_neg hpq, Bus.pending, Bus.setFanOut_of_ne _ _ _ (Ne.symm hpq), List.nil_append]
    · refine ⟨c, by simp [hc, hji], rfl, fun _ => rfl, fun p => ?_⟩
      have hnil : begun p [(.send q : BusEvent π ο ς)] = [] := rfl
      rw [hnil, List.append_nil]
      by_cases hpq : p = q
      · subst hpq
        have hmem : i ∈ j :: rest ↔ i ∈ rest := by
          rw [List.mem_cons, or_iff_right (Ne.symm hji)]
        rw [Bus.pending, Bus.pending, Bus.setFanOut_self, hq, owed, owed]
        simp only [hmem]
      · rw [Bus.pending, Bus.setFanOut_of_ne _ _ _ hpq]
  | @returned q sig hq =>
    refine ⟨c, hc, rfl, fun _ => rfl, fun p => ?_⟩
    have hnil : begun p [(.published q : BusEvent π ο ς)] = [] := rfl
    rw [hnil, List.append_nil]
    by_cases hpq : p = q
    · subst hpq
      rw [Bus.pending, Bus.pending, Bus.setFanOut_self, hq, owed, owed, if_neg List.not_mem_nil]
    · rw [Bus.pending, Bus.setFanOut_of_ne _ _ _ hpq]
  | @signalReceived j a d d' hd hr =>
    obtain ⟨-, -, hoffers, hcap⟩ := Channel.receive_eq_some hr
    by_cases hji : j = i
    · subst hji
      obtain rfl : d = c := Option.some.inj (hd.symm.trans hc)
      refine ⟨d', List.getElem?_set_self hlt, hcap, fun hne => absurd rfl hne, fun p => ?_⟩
      rw [offered, hoffers]
      exact (List.append_nil _).symm
    · exact ⟨c, by rw [List.getElem?_set_ne hji, hc], rfl, fun _ => rfl, fun p => (List.append_nil _).symm⟩

/-- What each publisher has sent to a subscriber, and is still to send, is `sent`. -/
def Bus.Accounted (b : Bus π ο ς) (i cap : Nat) (sent : π → List ς) : Prop :=
  ∃ c, b.signalSubs[i]? = some c ∧ c.cap = cap ∧ ∀ p, ofPublisher p (offered c) ++ b.pending p i = sent p

/-- A list that was copied earlier does not name a new channel. -/
theorem Bus.Copied.subscribed (hb : b.Copied) (cap : Nat) :
    ({ b with signalSubs := b.signalSubs ++ [.make cap] } : Bus π ο ς).Accounted b.signalSubs.length cap
      fun _ => [] := by
  refine ⟨.make cap, List.getElem?_concat_length, rfl, fun p => ?_⟩
  have hpending : b.pending p b.signalSubs.length = [] := by
    cases hp : b.fanOut p with
    | none => rw [Bus.pending, hp, owed]
    | some call =>
      have hnot : b.signalSubs.length ∉ call.2 := fun hmem =>
        lt_irrefl _ ((hb p call.1 call.2 hp).2 _ hmem)
      rw [Bus.pending, hp, owed, if_neg hnot]
  exact hpending

theorem Bus.Accounted.run {cap : Nat} {sent : π → List ς} (h : b.Accounted i cap sent) (hb : b.Copied)
    (hrun : Run BusStep b es b') : b'.Accounted i cap fun p => sent p ++ begun p es := by
  induction hrun generalizing sent with
  | nil =>
    obtain ⟨c, hc, hcap, hsent⟩ := h
    exact ⟨c, hc, hcap, fun p => (hsent p).trans (List.append_nil _).symm⟩
  | @cons _ t _ e es hstep _ ih =>
    obtain ⟨c, hc, hcap, hsent⟩ := h
    obtain ⟨c', hc', hcap', -, hstep'⟩ := hstep.move.subscriber hb hc
    have hnext : t.Accounted i cap fun p => sent p ++ begun p [e] :=
      ⟨c', hc', hcap'.trans hcap, fun p => by rw [hstep', hsent]⟩
    obtain ⟨d, hd, hdcap, hdsent⟩ := ih hnext (hstep.move.copied hb)
    refine ⟨d, hd, hdcap, fun p => (hdsent p).trans ?_⟩
    change sent p ++ begun p [e] ++ begun p es = sent p ++ begun p ([e] ++ es)
    rw [List.append_assoc, begun_append]

theorem Bus.Copied.run (hb : b.Copied) (hrun : Run BusStep b es b') : b'.Copied :=
  hrun.invariant hb fun hb hstep => hstep.move.copied hb

theorem run_length (hrun : Run BusStep b es b') :
    b'.signalSubs.length = b.signalSubs.length + subscriptions es := by
  induction hrun with
  | nil => rfl
  | @cons _ _ _ e es hstep _ ih =>
    have hcount : subscriptions ([e] ++ es) = subscriptions [e] + subscriptions es := List.countP_append
    rw [ih, hstep.move.length, Nat.add_assoc, ← hcount]
    rfl

omit [DecidableEq π] in
theorem new_copied (buffer : Nat) : (Bus.new buffer : Bus π ο ς).Copied := nofun

/-- Every subscriber gets every signal that is published after its subscription, once and in the order of
its publisher, whatever the other subscribers do; only what finds its own buffer full is dropped. -/
theorem signals_fan_out {n : Nat} {buffer : Int}
    (hrun : Run BusStep (Bus.new n) (es ++ .subscribeSignals buffer :: es') b) :
    ∃ c, b.signalSubs[subscriptions es]? = some c ∧ c.cap = subscriberBuffer buffer ∧
      ∀ p, ofPublisher p (offered c) ++ b.pending p (subscriptions es) = begun p es' ∧
        (ofPublisher p (c.received ++ c.queue)).Sublist (begun p es') ∧
        ((∀ o ∈ c.offers, o.waiting < c.cap) →
          ofPublisher p (c.received ++ c.queue) ++ b.pending p (subscriptions es) = begun p es') := by
  obtain ⟨t, hbefore, hafter⟩ := hrun.split
  cases hafter with
  | @cons _ u _ _ _ hsub hrest =>
  have ht : t.Copied := (new_copied n).run hbefore
  have hlength : t.signalSubs.length = subscriptions es := (run_length hbefore).trans (Nat.zero_add _)
  have hstart : u.Accounted (subscriptions es) (subscriberBuffer buffer) fun _ => [] := by
    cases hsub
    rw [← hlength]
    exact ht.subscribed _
  obtain ⟨c, hc, hcap, hsent⟩ := hstart.run (hsub.move.copied ht) hrest
  refine ⟨c, hc, hcap, fun p => ?_⟩
  have hall : ofPublisher p (offered c) ++ b.pending p (subscriptions es) = begun p es' := hsent p
  refine ⟨hall, ?_, fun hroom => ?_⟩
  · rw [← hall]
    exact (c.delivered_sublist.filterMap _).trans (List.sublist_append_left _ _)
  · rw [c.delivered_all hroom, ← hall]

/-- Two publishers and a subscriber with room for one signal, which receives it late. -/
def twoPublishers : List (BusEvent Bool Unit Nat) :=
  [.publishSignal true 1, .publishSignal false 2, .send false, .send true, .receiveSignal 0, .published true,
    .publishSignal true 3, .send true]

def busyBus : Option (Bus Bool Unit Nat) :=
  (.subscribeSignals 1 :: twoPublishers).foldlM Bus.step (Bus.new 4)

theorem busyBus_facts : busyBus.any fun b => b.signalSubs[0]?.any fun c =>
    decide (offered c = [(false, 2), (true, 1), (true, 3)] ∧ c.dropped = [(true, 1)]) := by decide +kernel

/-- The first signal of one of them is dropped. -/
theorem late_subscriber : ∃ b c, busyBus = some b ∧ b.signalSubs[0]? = some c ∧ c.dropped = [(true, 1)] ∧
    ofPublisher true (offered c) ++ b.pending true 0 = [1, 3] ∧
    (ofPublisher true (c.received ++ c.queue)).Sublist [1, 3] := by
  have hfacts := busyBus_facts
  rcases hb : busyBus with _ | b
  · simp [hb] at hfacts
  have hrun : Run BusStep (Bus.new 4) ([] ++ .subscribeSignals 1 :: twoPublishers) b := run_of_foldlM hb
  obtain ⟨c, hc, -, haccounts⟩ := signals_fan_out hrun
  have hc : b.signalSubs[0]? = some c := hc
  rw [hb, Option.any_some, hc, Option.any_some] at hfacts
  obtain ⟨-, hdropped⟩ := of_decide_eq_true hfacts
  obtain ⟨hsent, hsub, -⟩ := haccounts true
  exact ⟨b, c, rfl, hc, hdropped, hsent, hsub⟩

/-- A call of a publisher never waits for a subscriber. -/
theorem fanOut_enabled {p : π} {call : ς × List Nat} (h : b.fanOut p = some call) :
    ∃ b', BusStep b (if call.2 = [] then .published p else .send p) b' := by
  obtain ⟨sig, subs⟩ := call
  cases subs with
  | nil => exact ⟨_, by rw [if_pos rfl, BusStep, Bus.step, h]⟩
  | cons i rest => exact ⟨_, by rw [if_neg (List.cons_ne_nil _ _), BusStep, Bus.step, h]⟩

end Deliveries

end Kernloom
