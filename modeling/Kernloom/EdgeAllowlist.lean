import Kernloom.LearnerRuns
import Kernloom.NetworkExtractor
import Kernloom.RelationshipDeny
import Kernloom.TargetCodec

/-! The allowlist of the shield and the approved relationships of the trust graph: what a sync writes
for them, and when the list is the approved set after every sync. -/

namespace Kernloom

open KlshieldAdapter

/-- Dimensions that the extractor gives a relationship. -/
abbrev NetworkDimensions := { dims : GoMap String // ∃ (cfg : ExtractorConfig) (o : Observation), cfg.dimensions o = dims }

/-- The part of the state store that the sync reads. -/
structure GraphStore where
  relationships : RelationshipTable
  /-- The dimensions column of a row; a conflict does not write it. -/
  dimensions : RelationshipKey → NetworkDimensions
  /-- The IDs of the entities, by stable ID. -/
  entities : GoMap String

namespace GraphStore

/-- The entity a relationship leaves when there is none; an entity without its ID gets it. -/
def stubEntity (stableID label : String) (entities : GoMap String) : GoMap String :=
  let id := if label = "" then stableID else label
  if stableID = "" then entities
  else match entities.lookup stableID with
    | none => entities.insert stableID id
    | some old => if old = stableID then entities.insert stableID id else entities

def upsertRelationship (now : Time) (r : Relationship) (dims : NetworkDimensions) (g : GraphStore) : GraphStore :=
  let entities := stubEntity r.objectEntityID r.objectLabel (stubEntity r.subjectEntityID r.subjectLabel g.entities)
  match g.relationships.upsertRelationship now r with
  | none => { g with entities }
  | some rows =>
    { relationships := rows
      dimensions := if (g.relationships.find r.toRelationshipKey).isSome then g.dimensions
        else Function.update g.dimensions r.toRelationshipKey dims
      entities }

def operator (op : OperatorWrite) (g : GraphStore) : GraphStore :=
  { g with relationships := op.apply g.relationships }

/-- The network relationships of a node. -/
def listRelationships (nodeID : String) (g : GraphStore) : List Relationship :=
  (g.relationships.listRelationships nodeID).filter fun r => r.predicate = networkPredicate

end GraphStore

/-- A read of the relationships, and of the entities, that may fail. -/
structure StoreReads where
  listFails : Bool := false
  entityFails : String → Bool := fun _ => false

section Sync

variable (kernel : EdgeKernel)

/-- Lists one relationship; a target the adapter refuses is logged. -/
def syncRelationship (reads : StoreReads) (g : GraphStore) (a : KlshieldAdapter) (r : Relationship) :
    KlshieldAdapter :=
  if r.state ≠ .frozen ∧ r.state ≠ .approved then a
  else if reads.entityFails r.subjectEntityID then a
  else match g.entities.lookup r.subjectEntityID with
    | none => a
    | some srcID =>
      match relationshipTargetFromAttributes srcID (g.dimensions r.toRelationshipKey).1 with
      | none => a
      | some target => (allowRelationship kernel target a).2

def syncRelationshipAllowlist (nodeID : String) (reads : StoreReads) (g : GraphStore) (a : KlshieldAdapter) :
    KlshieldAdapter :=
  if ¬ (relationshipPEP kernel).available a then a
  else if reads.listFails then a
  else (g.listRelationships nodeID).foldl (syncRelationship kernel reads g) a

end Sync

structure AllowlistWorld where
  store : GraphStore
  adapter : KlshieldAdapter

inductive AllowlistEvent
  | upsert (now : Time) (r : Relationship) (dims : NetworkDimensions)
  | operator (op : OperatorWrite)
  | deny (target : RelationshipTarget)
  | revert (target : RelationshipTarget)
  | sync (reads : StoreReads)

/-- Whether the event is a relationship action. -/
def AllowlistEvent.isAction : AllowlistEvent → Bool
  | .deny _ | .revert _ => true
  | _ => false

section Runs

variable (kernel : EdgeKernel) (nodeID : String)

def allowlistStep (w : AllowlistWorld) : AllowlistEvent → AllowlistWorld
  | .upsert now r dims => { w with store := w.store.upsertRelationship now r dims }
  | .operator op => { w with store := w.store.operator op }
  | .deny target => { w with adapter := (denyRelationship kernel target w.adapter).2 }
  | .revert target => { w with adapter := (allowRelationship kernel target w.adapter).2 }
  | .sync reads => { w with adapter := syncRelationshipAllowlist kernel nodeID reads w.store w.adapter }

def AllowlistWorld.after (w : AllowlistWorld) (events : List AllowlistEvent) : AllowlistWorld :=
  events.foldl (allowlistStep kernel nodeID) w

end Runs

/-- The flow of a stored relationship: its source, destination port and protocol. -/
def GraphStore.edge (g : GraphStore) (r : Relationship) : Option EdgeKey :=
  (g.entities.lookup r.subjectEntityID).bind fun srcID =>
    relationshipEdgeKey ⟨trimSpace srcID, "", (g.dimensions r.toRelationshipKey).1, ∅⟩

/-- The flows of the relationships in an allowed state. -/
def GraphStore.Allowed (g : GraphStore) (nodeID : String) (key : EdgeKey) : Prop :=
  ∃ r ∈ g.relationships, r.nodeID = nodeID ∧ r.predicate = networkPredicate ∧
    (r.state = .frozen ∨ r.state = .approved) ∧ g.edge r = some key

/-- The allowlist is the set of allowed flows. -/
def ListsAllowed (nodeID : String) (g : GraphStore) (a : KlshieldAdapter) : Prop :=
  ∀ key, (a.maps.edgeAllow key).isSome ↔ g.Allowed nodeID key

/-- The edge maps are there and every read succeeds. -/
def StoreReads.Succeed (reads : StoreReads) (a : KlshieldAdapter) : Prop :=
  (a.hasEdgeDeny ∧ a.hasEdgeRL) ∧ reads.listFails = false ∧ ∀ id, reads.entityFails id = false

section Extracted

theorem NetworkDimensions.lookup (dims : NetworkDimensions) {k : String}
    (h : k ∉ ["protocol", "destination_port", "direction"]) : dims.1.lookup k = none := by
  obtain ⟨_, cfg, o, rfl⟩ := dims
  simp only [ExtractorConfig.dimensions, GoMap.ofList, AList.lookup_to_alist]
  rw [List.dlookup_eq_none]
  exact h

/-- The attributes the decoder reads have other names than the dimensions of the extractor. -/
theorem NetworkDimensions.target_none (dims : NetworkDimensions) (srcID : String) :
    relationshipTargetFromAttributes srcID dims.1 = none := by
  have hblank : trimSpace "" = "" := by decide +kernel
  have hget : ∀ k, k ∉ ["protocol", "destination_port", "direction"] → dims.1.get k = "" := by
    intro k hk
    rw [GoMap.get, dims.lookup hk]
    rfl
  have hid : relationshipTargetID dims.1 = "" := by
    have htarget := hget "target_id" (by decide)
    have hobject := hget "object_id" (by decide)
    have hentity := hget "object_entity_id" (by decide)
    simp only [relationshipTargetID, List.map_cons, List.map_nil, htarget, hobject, hentity, hblank]
    rfl
  have hdims : (relationshipDimensions dims.1).entries = [] := by
    have hsame : SameMap (relationshipDimensions dims.1) ∅ := by
      intro k
      have hk : "dimension." ++ k ∉ ["protocol", "destination_port", "direction"] := by
        intro hmem
        have hpre := hasPrefix_append "dimension." k
        have hnot : ∀ name ∈ ["protocol", "destination_port", "direction"],
            hasPrefix name "dimension." = false := by decide +kernel
        exact absurd (hpre.symm.trans (hnot _ hmem)) (by decide)
      rw [lookup_relationshipDimensions, dims.lookup hk, AList.lookup_empty]
      rfl
    exact hsame.entries_eq_nil.mpr rfl
  rw [relationshipTargetFromAttributes]
  exact if_pos (.inr ⟨hid, hdims⟩)

variable {kernel : EdgeKernel} {nodeID : String} {reads : StoreReads} {g : GraphStore} {a : KlshieldAdapter}

theorem syncRelationship_eq (r : Relationship) : syncRelationship kernel reads g a r = a := by
  unfold syncRelationship
  split_ifs
  · rfl
  · rfl
  · cases g.entities.lookup r.subjectEntityID with
    | none => rfl
    | some srcID => simp only [(g.dimensions r.toRelationshipKey).target_none]

theorem syncRelationshipAllowlist_eq : syncRelationshipAllowlist kernel nodeID reads g a = a := by
  have hrows : ∀ rows : List Relationship, rows.foldl (syncRelationship kernel reads g) a = a := by
    intro rows
    induction rows with
    | nil => rfl
    | cons r rows ih => rw [List.foldl_cons, syncRelationship_eq, ih]
  unfold syncRelationshipAllowlist
  rw [hrows]
  split_ifs <;> rfl

end Extracted

section Histories

variable {kernel : EdgeKernel} {nodeID : String} {w : AllowlistWorld}

theorem AllowlistWorld.after_append (w : AllowlistWorld) (es es' : List AllowlistEvent) :
    w.after kernel nodeID (es ++ es') = (w.after kernel nodeID es).after kernel nodeID es' :=
  List.foldl_append

theorem AllowlistWorld.after_sync (w : AllowlistWorld) (reads : StoreReads) :
    w.after kernel nodeID [.sync reads] = w := by
  rw [after, List.foldl_cons, List.foldl_nil, allowlistStep, syncRelationshipAllowlist_eq]

theorem AllowlistWorld.after_adapter (w w' : AllowlistWorld) (events : List AllowlistEvent)
    (h : w.adapter = w'.adapter) : (w.after kernel nodeID events).adapter =
      (w'.after kernel nodeID (events.filter AllowlistEvent.isAction)).adapter := by
  induction events generalizing w w' with
  | nil => exact h
  | cons e events ih =>
    cases e with
    | upsert now r dims => exact ih _ _ h
    | operator op => exact ih _ _ h
    | deny target => exact ih _ _ (by simp only [allowlistStep, h])
    | revert target => exact ih _ _ (by simp only [allowlistStep, h])
    | sync reads => exact ih _ _ (syncRelationshipAllowlist_eq.trans h)

/-- After every sync the list is the allowed set exactly when the starting list and the relationship
actions alone make it so. -/
theorem synced_allowlist_iff (events : List AllowlistEvent) :
    (∀ pre reads post, events = pre ++ .sync reads :: post → reads.Succeed (w.after kernel nodeID pre).adapter →
      ListsAllowed nodeID (w.after kernel nodeID (pre ++ [.sync reads])).store
        (w.after kernel nodeID (pre ++ [.sync reads])).adapter) ↔
    ∀ pre reads post, events = pre ++ .sync reads :: post → reads.Succeed (w.after kernel nodeID pre).adapter →
      ListsAllowed nodeID (w.after kernel nodeID pre).store
        (w.after kernel nodeID (pre.filter AllowlistEvent.isAction)).adapter := by
  refine forall_congr' fun pre => forall_congr' fun reads => forall_congr' fun post => ?_
  refine imp_congr_right fun _ => imp_congr_right fun _ => ?_
  rw [AllowlistWorld.after_append, AllowlistWorld.after_sync, ← AllowlistWorld.after_adapter w w pre rfl]

/-- A query of 192.0.2.7 to the name server of the node. -/
def dnsObservation : Observation where
  nodeID := "node-1"
  type := .flow
  subjectID := "192.0.2.7"
  objectID := "192.0.2.1"
  metrics := ∅
  attributes := GoMap.ofList [("protocol", "udp"), ("destination_port", "53")]

def dnsDimensions : NetworkDimensions := ⟨_, ⟨{ nodeID := "node-1" }, dnsObservation, rfl⟩⟩

/-- The relationship of the query, approved by an operator. -/
def dnsRelationship : Relationship where
  nodeID := "node-1"
  subjectEntityID := "f3b3349cb00692b389bafe446f7e52ec33dee306f1239838b32ac1e84a232234"
  predicate := "network.connects_to"
  objectEntityID := "c35f51a0457486db1134f86ed57030b9e4865b5f8677c37191faa261a370e5f9"
  dimensionsHash := "17e1b31f7cf2e7ccdd81745060020ac9f99bc52ac9e26b13d45478caca19eb87"
  id := "edge-1"
  state := .approved
  seenCount := 1
  distinctWindows := 1
  firstSeenAt := 0
  lastSeenAt := 0

def dnsGraph : GraphStore where
  relationships := Keyed.Table.empty.upsert dnsRelationship
  dimensions _ := dnsDimensions
  entities := GoMap.ofList [(dnsRelationship.subjectEntityID, "192.0.2.7")]

theorem dnsGraph_edge : dnsGraph.edge dnsRelationship = some ⟨fixtureSource, 53, IPPROTO_UDP⟩ := by
  decide +kernel

/-- The approved relationship stays out of an empty allowlist. -/
theorem approved_not_listed : ¬ ∀ (kernel : EdgeKernel) (nodeID : String) (w : AllowlistWorld)
    (events pre : List AllowlistEvent) (reads : StoreReads) (post : List AllowlistEvent),
    events = pre ++ .sync reads :: post → reads.Succeed (w.after kernel nodeID pre).adapter →
      ListsAllowed nodeID (w.after kernel nodeID (pre ++ [.sync reads])).store
        (w.after kernel nodeID (pre ++ [.sync reads])).adapter := by
  intro h
  have hlists := h roomyKernel "node-1" ⟨dnsGraph, emptyAdapter⟩ [.sync {}] [] {} [] rfl
    ⟨⟨rfl, rfl⟩, rfl, fun _ => rfl⟩
  rw [List.nil_append, AllowlistWorld.after_sync] at hlists
  have hallowed : dnsGraph.Allowed "node-1" ⟨fixtureSource, 53, IPPROTO_UDP⟩ :=
    ⟨dnsRelationship, Keyed.Table.mem_upsert_self _ _, rfl, rfl, .inr rfl, dnsGraph_edge⟩
  exact absurd ((hlists _).mpr hallowed) (by simp [emptyAdapter])

end Histories

end Kernloom
