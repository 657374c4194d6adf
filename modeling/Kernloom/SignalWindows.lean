import Kernloom.EventBus
import Kernloom.LocalRisk
import Kernloom.RuleSelection

/-! The windows of signals before the decision point. One goroutine collects the signals of its subscription
by their subjects, and at every tick it has each group assessed and decided on. -/

namespace Kernloom

open Channels Transition Grouping

variable {π ο φ : Type}

section Groups

/-- The facts of a group of signals. -/
structure SignalFacts where
  count : Nat
  types : GoMap Nat
  maxScore : Int
  reasonCodes : List String
  dropRate : ℚ

/-- What a decision on a group rests on beside its signals: the node, the rest of the facts, the numbers
that texts stand for, and how a rate is a parameter of a proposal. -/
structure WindowEnv (φ : Type) where
  nodeID : String
  severities : Severities
  facts : SignalSubject → SignalFacts → Assessment → Time → Time → φ
  parseFloat : String → Option ℚ
  rateParam : ℚ → ParamValue

variable (env : WindowEnv φ)

def firstSignalAttrFloat (sig : Signal) (keys : List String) : ℚ :=
  (keys.findSome? fun key =>
    let raw := trimSpace (GoMap.get sig.attributes key)
    if raw = "" then none else env.parseFloat raw).getD 0

def runtimeSignalGroupFacts (sigs : List Signal) : SignalFacts where
  count := sigs.length
  types := sigs.foldl (fun types s => types.insert s.type (GoMap.get types s.type + 1)) ∅
  maxScore := sigs.foldl (fun score s => max score s.score) 0
  reasonCodes := (sigs.flatMap Signal.reasonCodes).dedup.insertionSort (· ≤ ·)
  dropRate := sigs.foldl (fun rate s =>
    if s.type = "source.rate_limit_drops_sustained" then
      max rate (firstSignalAttrFloat env s ["drop_rate", "drop_rl_rate"])
    else rate) 0

def runtimeEntityRefForSignalGroup (subjectID : String) (sigs : List Signal) : SignalSubject :=
  match sigs.find? fun s => s.subject.id ≠ "" with
  | none => { kind := "source", id := subjectID }
  | some s => { s.subject with kind := if s.subject.kind ≠ "" then s.subject.kind else "source" }

inductive PDPMode
  | shadow | active
  deriving DecidableEq

/-- The decision point in force, and whether there is a queue for its proposals. -/
structure PDPRunner (φ : Type) where
  pdp : Option (PDP φ) := none
  mode : PDPMode := .shadow
  queue : Bool := false

/-- What becomes of the assessment of a group. -/
inductive GroupOutcome
  | noPack
  | failed (err : String)
  | unmatched
  | logged (dec : IssuedDecision)
  | skipped (reason : String)
  | unqueued (prop : ActionProposal)
  | proposed (prop : ActionProposal)

def GroupOutcome.proposal : GroupOutcome → Option ActionProposal
  | .proposed prop => some prop
  | _ => none

def windowInput (subjectID : String) (sigs : List Signal) (a : Assessment) (now : Time) : PDPInput φ :=
  let ref := runtimeEntityRefForSignalGroup subjectID sigs
  { now := now
    nodeID := env.nodeID
    subjectID := ref.id
    risk := ⟨ref.id, a.validUntil⟩
    facts := env.facts ref (runtimeSignalGroupFacts env sigs) a now }

/-- The highest drop rate of the signals, where there is one. -/
def dropRateEvidence (sigs : List Signal) : Option ParamValue :=
  let rate := (runtimeSignalGroupFacts env sigs).dropRate
  if 0 < rate then some (env.rateParam rate) else none

def decideGroup (runner : PDPRunner φ) (subjectID : String) (sigs : List Signal) (a : Assessment) (now : Time) :
    GroupOutcome :=
  match runner.pdp with
  | none => .noPack
  | some pdp =>
    match (pdp.decide (windowInput env subjectID sigs a now) now true).1 with
    | .error err => .failed err
    | .ok (_, false) => .unmatched
    | .ok (dec, true) =>
      match runner.mode with
      | .shadow => .logged dec
      | .active =>
        match runtimeDecisionToActionProposal env.severities dec.toRuntimeDecision subjectID now with
        | .error reason => .skipped reason
        | .ok prop =>
          let prop := runtimePDPActionProposalWithEvidence prop (dropRateEvidence env sigs)
          if runner.queue then .proposed prop else .unqueued prop

/-- The loop over the assessments of one group. -/
def evaluateGroup (order : Listing (Σ _ : String, List Signal)) (runner : PDPRunner φ) (subjectID : String)
    (sigs : List Signal) (now : Time) : List GroupOutcome :=
  (fromSignals order sigs now {}).filterMap fun a =>
    if a.subjectID ≠ subjectID then none else some (decideGroup env runner subjectID sigs a now)

end Groups

section Windows

/-- One turn of the loop of a flush, with what was decided in it. -/
structure Evaluation (φ : Type) where
  runner : PDPRunner φ
  now : Time
  subjectID : String
  signals : List Signal
  outcomes : List GroupOutcome

/-- A flush with the groups it has yet to come by. -/
structure Flush (φ : Type) where
  runner : PDPRunner φ
  now : Time
  groups : List (Σ _ : String, List Signal)

/-- The bus with the windows of one of its subscribers; `evaluated` is the record of the flushes. -/
structure WindowWorld (π ο φ : Type) where
  bus : Bus π ο Signal
  sub : Nat
  runner : PDPRunner φ := {}
  buf : Groups String Signal := ∅
  flush : Option (Flush φ) := none
  stopped : Bool := false
  proposals : Channel ActionProposal
  evaluated : List (Evaluation φ) := []

inductive WindowEvent (π ο φ : Type)
  | bus (e : BusEvent π ο Signal)
  | configure (runner : PDPRunner φ)
  | receive
  | flush (now : Time) (order : Listing (Σ _ : String, List Signal)) (done : Bool)
  | group (order : Listing (Σ _ : String, List Signal))
  | flushed
  | takeProposal

/-- A subscription to a bus, and its goroutine before the first turn of its loop. -/
def startShadowPDP (b : Bus π ο Signal) (runner : PDPRunner φ) (depth : Nat) : WindowWorld π ο φ where
  bus := { b with signalSubs := b.signalSubs ++ [.make (subscriberBuffer 256)] }
  sub := b.signalSubs.length
  runner := runner
  proposals := .make depth

variable [DecidableEq π] (env : WindowEnv φ)

def WindowWorld.step (w : WindowWorld π ο φ) : WindowEvent π ο φ → Option (WindowWorld π ο φ)
  | .bus (.receiveSignal i) =>
    if i = w.sub then none else (w.bus.step (.receiveSignal i)).map fun b => { w with bus := b }
  | .bus e => (w.bus.step e).map fun b => { w with bus := b }
  | .configure runner => some { w with runner := runner }
  | .receive =>
    if w.flush.isSome ∨ w.stopped then none
    else (w.bus.signalSubs[w.sub]?.bind Channel.receive).map fun r => { w with
      bus := { w.bus with signalSubs := w.bus.signalSubs.set w.sub r.2 }
      buf := if r.1.2.subject.id ≠ "" then w.buf.add r.1.2.subject.id r.1.2 else w.buf }
  | .flush now order done =>
    if w.flush.isSome ∨ w.stopped then none
    else if w.buf.entries = [] then some { w with stopped := done }
    -- the goroutine does not look at the buffer again before it is a new one
    else some { w with
      stopped := done
      buf := ∅
      flush := some ⟨w.runner, now, order.arrange w.buf.entries⟩ }
  | .group order =>
    match w.flush with
    | some ⟨runner, now, ⟨subjectID, sigs⟩ :: rest⟩ =>
      let outcomes := evaluateGroup env order runner subjectID sigs now
      some { w with
        flush := some ⟨runner, now, rest⟩
        proposals := (outcomes.filterMap GroupOutcome.proposal).foldl Channel.offer w.proposals
        evaluated := w.evaluated ++ [⟨runner, now, subjectID, sigs, outcomes⟩] }
    | _ => none
  | .flushed =>
    match w.flush with
    | some ⟨_, _, []⟩ => some { w with flush := none }
    | _ => none
  | .takeProposal => w.proposals.receive.map fun r => { w with proposals := r.2 }

def WindowStep (w : WindowWorld π ο φ) (e : WindowEvent π ο φ) (w' : WindowWorld π ο φ) : Prop :=
  w.step env e = some w'

/-- What an event does on the bus. -/
def WindowEvent.onBus (sub : Nat) : WindowEvent π ο φ → List (BusEvent π ο Signal)
  | .bus e => [e]
  | .receive => [.receiveSignal sub]
  | _ => []

end Windows

section Accounts

variable {env : WindowEnv φ} {w w' : WindowWorld π ο φ} {c : Channel (π × Signal)}

/-- A group as the buffer holds it. -/
def OneSubject (g : Σ _ : String, List Signal) : Prop := g.2 ≠ [] ∧ g.1 ≠ "" ∧ ∀ s ∈ g.2, s.subject.id = g.1

/-- The group of an evaluation has one assessment, and one decision on it. -/
structure Evaluation.Sound (env : WindowEnv φ) (e : Evaluation φ) : Prop where
  group : OneSubject ⟨e.subjectID, e.signals⟩
  decided : ∃ a : Assessment, a.RiskOf e.signals e.now {} ∧
    e.outcomes = [decideGroup env e.runner e.subjectID e.signals a e.now]

def evaluatedOf (id : String) (evaluated : List (Evaluation φ)) : List Signal :=
  (evaluated.filter fun e => e.subjectID = id).flatMap Evaluation.signals

def flushingOf (id : String) (flush : Option (Flush φ)) : List Signal := flush.elim [] fun f => ofKey id f.groups

/-- Every signal with a subject that was received is in one place. -/
structure WindowWorld.Accounted (env : WindowEnv φ) (w : WindowWorld π ο φ) (c : Channel (π × Signal)) : Prop where
  channel : w.bus.signalSubs[w.sub]? = some c
  counted : ∀ id, id ≠ "" → ofSubject id (c.received.map Prod.snd) =
    evaluatedOf id w.evaluated ++ flushingOf id w.flush ++ w.buf.at id
  buffered : ∀ g ∈ w.buf.entries, OneSubject g
  flushing : ∀ f ∈ w.flush, ∀ g ∈ f.groups, OneSubject g
  sound : ∀ e ∈ w.evaluated, e.Sound env
  offers : offered w.proposals = w.evaluated.flatMap fun e => e.outcomes.filterMap GroupOutcome.proposal

theorem evaluateGroup_of_group {order : Listing (Σ _ : String, List Signal)} {runner : PDPRunner φ} {now : Time}
    {g : Σ _ : String, List Signal} (h : OneSubject g) : ∃ a : Assessment, a.RiskOf g.2 now {} ∧
      evaluateGroup env order runner g.1 g.2 now = [decideGroup env runner g.1 g.2 a now] := by
  obtain ⟨a, ha, hid, hrisk⟩ := fromSignals_of_group order now {} h.1 h.2.2
  refine ⟨a, hrisk, ?_⟩
  rw [evaluateGroup, ha, List.filterMap_cons, if_neg (not_not.mpr hid), List.filterMap_nil]

theorem evaluatedOf_append (id : String) (es es' : List (Evaluation φ)) :
    evaluatedOf id (es ++ es') = evaluatedOf id es ++ evaluatedOf id es' := by
  simp [evaluatedOf]

theorem evaluatedOf_singleton (id : String) (e : Evaluation φ) :
    evaluatedOf id [e] = if e.subjectID = id then e.signals else [] := by
  unfold evaluatedOf
  by_cases h : e.subjectID = id <;> simp [h]

theorem offered_foldl (ps : List ActionProposal) (q : Channel ActionProposal) :
    offered (ps.foldl Channel.offer q) = offered q ++ ps := by
  induction ps generalizing q with
  | nil => simp
  | cons p ps ih => rw [List.foldl_cons, ih]; simp [offered]

theorem mem_entries_add {m : Groups String Signal} {k : String} {s : Signal} {g : Σ _ : String, List Signal}
    (h : g ∈ (m.add k s).entries) : g = ⟨k, m.at k ++ [s]⟩ ∨ g ∈ m.entries := by
  have hlookup : (m.add k s).lookup g.1 = some g.2 := AList.mem_lookup_iff.mpr h
  rw [Groups.lookup_add] at hlookup
  split_ifs at hlookup with hk
  · obtain ⟨k', g⟩ := g
    dsimp only at hk hlookup
    subst hk
    exact .inl (by rw [Option.some.inj hlookup])
  · exact .inr (AList.mem_lookup_iff.mp hlookup)

/-- The values of a key in a map of one-subject groups. -/
theorem subject_of_mem_at {m : Groups String Signal} (h : ∀ g ∈ m.entries, OneSubject g) {k : String} {s : Signal}
    (hs : s ∈ m.at k) : s.subject.id = k := by
  unfold Groups.at at hs
  cases hk : m.lookup k with
  | none =>
    rw [hk] at hs
    exact absurd hs List.not_mem_nil
  | some g =>
    rw [hk] at hs
    exact (h ⟨k, g⟩ (AList.mem_lookup_iff.mp hk)).2.2 s hs

namespace WindowWorld.Accounted

/-- A signal that is received goes to the group of its subject, or nowhere if it has none. -/
theorem receive {p : π} {sig : Signal} {c' : Channel (π × Signal)} (h : w.Accounted env c)
    (hr : c.receive = some ((p, sig), c')) : Accounted env { w with
      bus := { w.bus with signalSubs := w.bus.signalSubs.set w.sub c' }
      buf := if sig.subject.id ≠ "" then w.buf.add sig.subject.id sig else w.buf } c' := by
  have hlt := (List.getElem?_eq_some_iff.mp h.channel).1
  have hreceived := (Channel.receive_eq_some hr).2.1
  refine ⟨List.getElem?_set_self hlt, fun id hid => ?_, fun g hg => ?_, h.flushing, h.sound, h.offers⟩
  · have hcounted := h.counted id hid
    rw [hreceived, List.map_append, ofSubject_append, hcounted]
    dsimp only
    by_cases hsig : sig.subject.id ≠ ""
    · rw [if_pos hsig, Groups.at_add]
      by_cases heq : id = sig.subject.id
      · subst heq
        simp [List.append_assoc]
      · simp [heq, Ne.symm heq]
    · rw [if_neg hsig]
      have hne : sig.subject.id ≠ id := fun heq => hsig (heq ▸ hid)
      simp [hne]
  · dsimp only at hg
    split_ifs at hg with hsig
    · rcases mem_entries_add hg with rfl | hg
      · refine ⟨List.append_ne_nil_of_right_ne_nil _ (List.cons_ne_nil _ _), hsig, fun s hs => ?_⟩
        rcases List.mem_append.mp hs with hs | hs
        · exact subject_of_mem_at h.buffered hs
        · rw [List.mem_singleton.mp hs]
      · exact h.buffered g hg
    · exact h.buffered g hg

theorem flush {now : Time} {order : Listing (Σ _ : String, List Signal)} {done : Bool} (h : w.Accounted env c)
    (hnone : w.flush = none) : Accounted env { w with
      stopped := done
      buf := ∅
      flush := some ⟨w.runner, now, order.arrange w.buf.entries⟩ } c := by
  refine ⟨h.channel, fun id hid => ?_, fun g hg => absurd hg List.not_mem_nil, ?_, h.sound, h.offers⟩
  · have hcounted := h.counted id hid
    rw [hnone, flushingOf, Option.elim_none, List.append_nil] at hcounted
    rw [hcounted, flushingOf, Option.elim_some, ofKey_arrange]
    exact (List.append_nil _).symm
  · rintro f hf g hg
    obtain rfl := Option.some.inj hf
    exact h.buffered g (order.mem.mp hg)

theorem group {runner : PDPRunner φ} {now : Time} {g : Σ _ : String, List Signal}
    {rest : List (Σ _ : String, List Signal)} {order : Listing (Σ _ : String, List Signal)} (h : w.Accounted env c)
    (hflush : w.flush = some ⟨runner, now, g :: rest⟩) : Accounted env { w with
      flush := some ⟨runner, now, rest⟩
      proposals := ((evaluateGroup env order runner g.1 g.2 now).filterMap GroupOutcome.proposal).foldl
        Channel.offer w.proposals
      evaluated := w.evaluated ++ [⟨runner, now, g.1, g.2, evaluateGroup env order runner g.1 g.2 now⟩] } c := by
  have hg : OneSubject g := h.flushing _ hflush g List.mem_cons_self
  refine ⟨h.channel, fun id hid => ?_, h.buffered, ?_, fun e he => ?_, ?_⟩
  · have hcounted := h.counted id hid
    rw [hflush, flushingOf, Option.elim_some, ofKey_cons] at hcounted
    rw [hcounted, evaluatedOf_append, evaluatedOf_singleton, flushingOf, Option.elim_some]
    simp only [List.append_assoc]
  · rintro f hf g' hg'
    obtain rfl := Option.some.inj hf
    exact h.flushing _ hflush g' (List.mem_cons_of_mem _ hg')
  · rcases List.mem_append.mp he with he | he
    · exact h.sound e he
    · rw [List.mem_singleton.mp he]
      exact ⟨hg, evaluateGroup_of_group hg⟩
  · rw [offered_foldl, h.offers, List.flatMap_append, List.flatMap_singleton]

end WindowWorld.Accounted

end Accounts

section Runs

variable {env : WindowEnv φ} {w w' : WindowWorld π ο φ} {c : Channel (π × Signal)} {e : WindowEvent π ο φ}
  {es : List (WindowEvent π ο φ)} [DecidableEq π]

theorem step_bus {e : BusEvent π ο Signal} (h : WindowStep env w (.bus e) w') :
    e ≠ .receiveSignal w.sub ∧ ∃ b, BusStep w.bus e b ∧ w' = { w with bus := b } := by
  unfold WindowStep WindowWorld.step at h
  cases e with
  | receiveSignal i =>
    dsimp only at h
    split_ifs at h with hi
    obtain ⟨b, hb, rfl⟩ := Option.map_eq_some_iff.mp h
    exact ⟨fun heq => hi (BusEvent.receiveSignal.inj heq), b, hb, rfl⟩
  | _ =>
    obtain ⟨b, hb, rfl⟩ := Option.map_eq_some_iff.mp h
    exact ⟨nofun, b, hb, rfl⟩

theorem step_receive (h : WindowStep env w .receive w') : ∃ c a c', w.bus.signalSubs[w.sub]? = some c ∧
    c.receive = some (a, c') ∧ w' = { w with
      bus := { w.bus with signalSubs := w.bus.signalSubs.set w.sub c' }
      buf := if a.2.subject.id ≠ "" then w.buf.add a.2.subject.id a.2 else w.buf } := by
  unfold WindowStep WindowWorld.step at h
  dsimp only at h
  split_ifs at h
  obtain ⟨⟨a, c'⟩, hr, rfl⟩ := Option.map_eq_some_iff.mp h
  obtain ⟨c, hc, hr⟩ := Option.bind_eq_some_iff.mp hr
  exact ⟨c, a, c', hc, hr, rfl⟩

/-- The run of the bus in a step of the windows. -/
theorem WindowStep.onBus (h : WindowStep env w e w') : w'.sub = w.sub ∧ Run BusStep w.bus (e.onBus w.sub) w'.bus := by
  cases e with
  | bus e =>
    obtain ⟨-, b, hb, rfl⟩ := step_bus h
    exact ⟨rfl, .singleton hb⟩
  | receive =>
    obtain ⟨c, a, c', hc, hr, rfl⟩ := step_receive h
    refine ⟨rfl, .singleton ?_⟩
    simp only [BusStep, Bus.step, hc, hr, Option.bind_some, Option.map_some]
  | configure runner =>
    cases h
    exact ⟨rfl, .nil⟩
  | flush now order done =>
    unfold WindowStep WindowWorld.step at h
    dsimp only at h
    split_ifs at h <;> cases h <;> exact ⟨rfl, .nil⟩
  | group order =>
    unfold WindowStep WindowWorld.step at h
    dsimp only at h
    split at h
    · cases h
      exact ⟨rfl, .nil⟩
    · cases h
  | flushed =>
    unfold WindowStep WindowWorld.step at h
    dsimp only at h
    split at h
    · cases h
      exact ⟨rfl, .nil⟩
    · cases h
  | takeProposal =>
    obtain ⟨r, -, rfl⟩ := Option.map_eq_some_iff.mp h
    exact ⟨rfl, .nil⟩

theorem run_onBus (h : Run (WindowStep env) w es w') :
    w'.sub = w.sub ∧ Run BusStep w.bus (es.flatMap fun e => e.onBus w.sub) w'.bus := by
  induction h with
  | nil => exact ⟨rfl, .nil⟩
  | cons hstep _ ih =>
    obtain ⟨hsub, hbus⟩ := hstep.onBus
    rw [hsub] at ih
    rw [List.flatMap_cons]
    exact ⟨ih.1, hbus.append ih.2⟩

theorem WindowWorld.Accounted.step (h : w.Accounted env c) (hb : w.bus.Copied) (hstep : WindowStep env w e w') :
    ∃ c', w'.Accounted env c' := by
  cases e with
  | bus e =>
    obtain ⟨hne, b, hbus, rfl⟩ := step_bus hstep
    obtain ⟨c', hc', -, hreceived, -⟩ := hbus.move.subscriber hb h.channel
    refine ⟨c', hc', fun id hid => ?_, h.buffered, h.flushing, h.sound, h.offers⟩
    rw [hreceived hne]
    exact h.counted id hid
  | receive =>
    obtain ⟨d, a, c', hd, hr, rfl⟩ := step_receive hstep
    obtain rfl : d = c := Option.some.inj (hd.symm.trans h.channel)
    exact ⟨c', h.receive hr⟩
  | configure runner =>
    cases hstep
    exact ⟨c, h.channel, h.counted, h.buffered, h.flushing, h.sound, h.offers⟩
  | flush now order done =>
    unfold WindowStep WindowWorld.step at hstep
    dsimp only at hstep
    split_ifs at hstep with hbusy hempty
    · cases hstep
      exact ⟨c, h.channel, h.counted, h.buffered, h.flushing, h.sound, h.offers⟩
    · cases hstep
      have hnone : w.flush = none := Option.not_isSome_iff_eq_none.mp fun hsome => hbusy (.inl hsome)
      exact ⟨c, h.flush hnone⟩
  | group order =>
    unfold WindowStep WindowWorld.step at hstep
    dsimp only at hstep
    split at hstep
    · next hflush =>
      cases hstep
      exact ⟨c, h.group hflush⟩
    · cases hstep
  | flushed =>
    unfold WindowStep WindowWorld.step at hstep
    dsimp only at hstep
    split at hstep
    · next hflush =>
      cases hstep
      refine ⟨c, h.channel, fun id hid => ?_, h.buffered, nofun, h.sound, h.offers⟩
      have hcounted := h.counted id hid
      rw [hflush] at hcounted
      exact hcounted
    · cases hstep
  | takeProposal =>
    obtain ⟨r, hr, rfl⟩ := Option.map_eq_some_iff.mp hstep
    refine ⟨c, h.channel, h.counted, h.buffered, h.flushing, h.sound, ?_⟩
    dsimp only
    rw [offered, (Channel.receive_eq_some hr).2.2.1]
    exact h.offers

theorem WindowWorld.Accounted.run (h : w.Accounted env c) (hb : w.bus.Copied) (hrun : Run (WindowStep env) w es w') :
    ∃ c', w'.Accounted env c' :=
  (hrun.invariant (I := fun w => w.bus.Copied ∧ ∃ c, w.Accounted env c) ⟨hb, c, h⟩
    fun ⟨hb, _, h⟩ hstep => ⟨hb.run hstep.onBus.2, h.step hb hstep⟩).2

omit [DecidableEq π] in
theorem start_accounted (b : Bus π ο Signal) (runner : PDPRunner φ) (depth : Nat) :
    (startShadowPDP b runner depth).Accounted env (.make (subscriberBuffer 256)) :=
  ⟨List.getElem?_concat_length, fun _ _ => rfl, fun _ hg => absurd hg List.not_mem_nil, nofun,
    fun _ he => absurd he List.not_mem_nil, rfl⟩

/-- Every signal with a subject that is published after the subscription is sent to it in the order of its
publisher, and what the windows receive is, subject by subject and in that order, what has been decided on
and what the windows still hold; each group is decided on once, by its own assessment. -/
theorem signals_decided_once {n depth : Nat} {es₀ : List (BusEvent π ο Signal)} {b : Bus π ο Signal}
    {runner : PDPRunner φ} (hbus : Run BusStep (Bus.new n) es₀ b)
    (hrun : Run (WindowStep env) (startShadowPDP b runner depth) es w) :
    ∃ c, w.bus.signalSubs[b.signalSubs.length]? = some c ∧
      (∀ p, ofPublisher p (offered c) ++ w.bus.pending p b.signalSubs.length =
        begun p (es.flatMap fun e => e.onBus b.signalSubs.length)) ∧
      (∀ id, id ≠ "" → ofSubject id (c.received.map Prod.snd) =
        evaluatedOf id w.evaluated ++ flushingOf id w.flush ++ w.buf.at id) ∧
      (∀ e ∈ w.evaluated, e.Sound env) ∧
      offered w.proposals = w.evaluated.flatMap fun e => e.outcomes.filterMap GroupOutcome.proposal := by
  have hsubscribed : Run BusStep (Bus.new n) (es₀ ++ [.subscribeSignals 256]) (startShadowPDP b runner depth).bus :=
    hbus.append (.singleton rfl)
  have hcopied := (new_copied n).run hsubscribed
  obtain ⟨hsub, honBus⟩ := run_onBus hrun
  obtain ⟨c, h⟩ := (start_accounted b runner depth).run hcopied hrun
  obtain ⟨d, hd, -, hsent⟩ := (((new_copied n).run hbus).subscribed _).run hcopied honBus
  have hc := h.channel
  rw [hsub] at hc
  obtain rfl : d = c := Option.some.inj (hd.symm.trans hc)
  exact ⟨d, hc, hsent, h.counted, h.sound, h.offers⟩

/-- The rule of the tests blocks a subject of critical risk. -/
def criticalPDP : PDP Assessment where
  defaultEffect := "observe"
  rules := [⟨{ id := "critical", action := { capability := "enforce.traffic.drop", level := "block", ttl := 60 } },
    {}, fun a => .bool (a.level = .critical)⟩]

def fixtureEnv : WindowEnv Assessment where
  nodeID := "node-test"
  severities _ := none
  facts _ _ a _ _ := a
  parseFloat _ := none
  rateParam _ := .nil

def flood (score : Int) : Signal := { id := "flood", time := 1, type := "source.pps_high", score := score
                                      subject := { kind := "ip", id := "198.51.100.7" } }

/-- Two signals of one window, and a third that is published during its flush. -/
def twoFloods : List (WindowEvent Bool Unit Assessment) :=
  [.bus (.publishSignal true (flood 40)), .bus (.send true), .bus (.published true), .receive,
    .bus (.publishSignal false (flood 90)), .bus (.send false), .receive, .flush 100 .stored false,
    .bus (.publishSignal true (flood 50)), .group .stored, .bus (.send true), .flushed]

def floodWindows : Option (WindowWorld Bool Unit Assessment) :=
  twoFloods.foldlM (WindowWorld.step fixtureEnv) (startShadowPDP (Bus.new 4) ⟨some criticalPDP, .active, true⟩ 8)

theorem floodWindows_facts : floodWindows.any fun w =>
    decide (w.evaluated.map Evaluation.subjectID = ["198.51.100.7"] ∧
      (offered w.proposals).map ActionProposal.desiredLevel = ["block"]) := by decide +kernel

/-- The flood is decided on once, by its highest score; the third signal is still on the way. -/
theorem flood_decided_once : ∃ w c, floodWindows = some w ∧ w.bus.signalSubs[0]? = some c ∧
    (offered w.proposals).map ActionProposal.desiredLevel = ["block"] ∧ (∀ e ∈ w.evaluated, e.Sound fixtureEnv) ∧
    ofPublisher true (offered c) ++ w.bus.pending true 0 = [flood 40, flood 50] ∧
    ofSubject "198.51.100.7" (c.received.map Prod.snd) =
      evaluatedOf "198.51.100.7" w.evaluated ++ flushingOf "198.51.100.7" w.flush ++ w.buf.at "198.51.100.7" := by
  have hfacts := floodWindows_facts
  rcases hw : floodWindows with _ | w
  · simp [hw] at hfacts
  rw [hw, Option.any_some] at hfacts
  obtain ⟨-, hlevels⟩ := of_decide_eq_true hfacts
  obtain ⟨c, hc, hsent, hcounted, hsound, -⟩ :=
    signals_decided_once (n := 4) (b := Bus.new 4) (.nil) (run_of_foldlM hw)
  exact ⟨w, c, rfl, hc, hlevels, hsound, hsent true, hcounted _ (by decide)⟩

end Runs

end Kernloom
