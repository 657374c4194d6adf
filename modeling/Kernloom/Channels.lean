import Mathlib

/-! Channels of a bounded capacity. What is offered to a full one without waiting is dropped. A channel
carries the record of its use, and with it that nothing in it is lost, doubled or out of order. -/

namespace Channels

variable {α β : Type}

/-- An item that was offered while others were waiting in the buffer. -/
structure Offer (α : Type) where
  item : α
  waiting : Nat
  deriving DecidableEq

def Offer.Taken (cap : Nat) (o : Offer α) : Prop := o.waiting < cap

instance (cap : Nat) : DecidablePred (Offer.Taken (α := α) cap) := fun o => Nat.decLt o.waiting cap

/-- A channel, with what it was offered and what was received of it. -/
structure Channel (α : Type) where
  cap : Nat
  queue : List α
  offers : List (Offer α)
  received : List α
  fits : queue.length ≤ cap
  conserved : received ++ queue = (offers.filter fun o => o.Taken cap).map Offer.item

namespace Channel

def make (cap : Nat) : Channel α := ⟨cap, [], [], [], Nat.zero_le _, rfl⟩

/-- A send that does not wait. -/
def offer (c : Channel α) (a : α) : Channel α :=
  if h : c.queue.length < c.cap then
    { c with
      queue := c.queue ++ [a]
      offers := c.offers ++ [⟨a, c.queue.length⟩]
      fits := by
        rw [List.length_append, List.length_singleton]
        exact h
      conserved := by
        have hnew : [Offer.mk a c.queue.length].filter (fun o => o.Taken c.cap) = [⟨a, c.queue.length⟩] :=
          List.filter_cons_of_pos (decide_eq_true h)
        rw [← List.append_assoc, c.conserved, List.filter_append, hnew, List.map_append]
        rfl }
  else
    { c with
      offers := c.offers ++ [⟨a, c.queue.length⟩]
      conserved := by
        have hnone : [Offer.mk a c.queue.length].filter (fun o => o.Taken c.cap) = [] :=
          List.filter_cons_of_neg (by simpa using (show ¬ Offer.Taken c.cap ⟨a, c.queue.length⟩ from h))
        rw [c.conserved, List.filter_append, hnone, List.append_nil] }

/-- The first item in the buffer, and the channel without it. -/
def receive (c : Channel α) : Option (α × Channel α) :=
  match h : c.queue with
  | [] => none
  | a :: rest => some (a, { c with
      queue := rest
      received := c.received ++ [a]
      fits := by
        have hfits := c.fits
        rw [h, List.length_cons] at hfits
        exact Nat.le_of_succ_le hfits
      conserved := by
        rw [List.append_assoc, List.singleton_append, ← h]
        exact c.conserved })

/-- What was offered while the buffer was full. -/
def dropped (c : Channel α) : List α := (c.offers.filter fun o => ¬ o.Taken c.cap).map Offer.item

section Operations

variable {c c' : Channel α} {a : α}

@[simp] theorem make_cap (cap : Nat) : (make cap : Channel α).cap = cap := rfl

@[simp] theorem make_offers (cap : Nat) : (make cap : Channel α).offers = [] := rfl

@[simp] theorem make_queue (cap : Nat) : (make cap : Channel α).queue = [] := rfl

@[simp] theorem make_received (cap : Nat) : (make cap : Channel α).received = [] := rfl

@[simp] theorem offer_cap (c : Channel α) (a : α) : (c.offer a).cap = c.cap := by
  unfold offer
  split_ifs <;> rfl

@[simp] theorem offer_received (c : Channel α) (a : α) : (c.offer a).received = c.received := by
  unfold offer
  split_ifs <;> rfl

@[simp] theorem offer_offers (c : Channel α) (a : α) :
    (c.offer a).offers = c.offers ++ [⟨a, c.queue.length⟩] := by
  unfold offer
  split_ifs <;> rfl

theorem offer_queue (c : Channel α) (a : α) :
    (c.offer a).queue = if c.queue.length < c.cap then c.queue ++ [a] else c.queue := by
  unfold offer
  split_ifs <;> rfl

theorem receive_eq_some (h : c.receive = some (a, c')) :
    c.queue = a :: c'.queue ∧ c'.received = c.received ++ [a] ∧ c'.offers = c.offers ∧ c'.cap = c.cap := by
  unfold receive at h
  split at h
  · cases h
  · next a' rest hqueue =>
    obtain ⟨rfl, rfl⟩ := Prod.mk.inj (Option.some.inj h)
    exact ⟨hqueue, rfl, rfl, rfl⟩

theorem receive_isSome : c.receive.isSome ↔ c.queue ≠ [] := by
  unfold receive
  split
  · next h => simp [h]
  · next a rest h => simp [h]

end Operations

section Accounts

variable {c : Channel α}

/-- Nothing is lost but what was offered while the buffer was full. -/
theorem received_queue_dropped_perm (c : Channel α) :
    (c.received ++ c.queue ++ c.dropped).Perm (c.offers.map Offer.item) := by
  rw [c.conserved, dropped, ← List.map_append]
  refine List.Perm.map _ ?_
  have hperm := List.filter_append_perm (fun o => decide (o.Taken c.cap)) c.offers
  simpa only [decide_not] using hperm

theorem delivered_sublist (c : Channel α) : (c.received ++ c.queue).Sublist (c.offers.map Offer.item) := by
  rw [c.conserved]
  exact List.filter_sublist.map _

theorem received_sublist (c : Channel α) : c.received.Sublist (c.offers.map Offer.item) :=
  (List.sublist_append_left _ _).trans c.delivered_sublist

/-- A channel that was never full when something was offered has all of it. -/
theorem delivered_all (h : ∀ o ∈ c.offers, o.Taken c.cap) :
    c.received ++ c.queue = c.offers.map Offer.item := by
  rw [c.conserved, List.filter_eq_self.mpr fun o ho => decide_eq_true (h o ho)]

/-- The same accounts for the items of one kind. -/
theorem filterMap_delivered (c : Channel α) (f : α → Option β) :
    (c.received ++ c.queue).filterMap f =
      (c.offers.filter fun o => o.Taken c.cap).filterMap fun o => f o.item := by
  rw [c.conserved, List.filterMap_map]
  rfl

theorem filterMap_sublist (c : Channel α) (f : α → Option β) :
    ((c.received ++ c.queue).filterMap f).Sublist (c.offers.filterMap fun o => f o.item) := by
  rw [c.filterMap_delivered]
  exact List.filter_sublist.filterMap _

end Accounts

end Channel

end Channels
