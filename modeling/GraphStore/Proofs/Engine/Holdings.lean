import GraphStore.Proofs.Collection.Shelving
import GraphStore.Proofs.Engine.Dangling
import GraphStore.Proofs.Engine.Relationships

/-!
# What nodes and relationships own

Main statements: unless a file is full, a node or a relationship that is stored owns exactly the
records that were added for it, and one that is refused adds none.
-/

set_option autoImplicit false

namespace GraphStore

/-!
## Checked plans
-/

theorem PropertyPlan.lt_of_plans {keys : List String} {entries : List (Nat × PropertyValue)}
    {listed : List Property} (plans : List.Forall₂ (Plans keys) entries listed) :
    ∀ entry ∈ entries, entry.1 < keys.length := by
  induction plans with
  | nil => exact nofun
  | cons here _ ih =>
      exact List.forall_mem_cons.mpr ⟨(List.getElem?_eq_some_iff.mp here.key).1, ih⟩

namespace Site

variable {site : Site} {before : Stores} {labels properties : List Nat}

/-- What is known of a plan that was made for the keys of a collection. -/
structure Ready (before : Stores) (plan : PropertyPlan) (listed : List Property) : Prop where
  checked : plan.Checked before.keys
  distinct : (before.keys ++ plan.newKeys).Nodup
  plans : List.Forall₂ (PropertyPlan.Plans (before.keys ++ plan.newKeys)) plan.entries listed
  near : 1 < plan.recordCount →
    (before .property).length + plan.recordCount ≤ Collection.shortIdLimit

theorem Ready.of_addAll (shelved : Shelved before labels properties []) {plan : PropertyPlan}
    {listed : List Property}
    (plans : List.Forall₂ (PropertyPlan.Plans (before.keys ++ plan.newKeys)) plan.entries listed)
    (added : PropertyPlan.addAll before.keys [] ⟨[], []⟩ listed = .ok plan)
    (near : 1 < plan.recordCount →
      (before .property).length + plan.recordCount ≤ Collection.shortIdLimit) :
    Ready before plan listed where
  checked := (PropertyPlan.checked_empty before.keys).addAll added
  distinct := by
    have new : PropertyPlan.KeysNew before.keys [] ⟨[], []⟩ :=
      ⟨by rw [List.append_nil]; exact shelved.keys.distinct, nofun⟩
    exact new.addAll added
  plans
  near

variable {plan : PropertyPlan} {listed : List Property}

theorem Ready.known (ready : Ready before plan listed) :
    ∀ entry ∈ plan.entries, entry.1 < before.keys.length + plan.newKeys.length := by
  rw [← List.length_append]
  exact PropertyPlan.lt_of_plans ready.plans

theorem Ready.length (ready : Ready before plan listed) :
    plan.recordCount = sliceCount blocksPerRecord listed.length := by
  rw [PropertyPlan.recordCount, ready.plans.length_eq]

theorem Ready.texts (ready : Ready before plan listed) :
    (plan.entries.map fun entry => entry.2.textCount).sum =
      (listed.map fun property => property.value.textCount).sum := by
  have values := congrArg (List.map PropertyValue.textCount)
    (PropertyPlan.map_snd_of_plans ready.plans)
  rw [List.map_map, List.map_map] at values
  exact congrArg List.sum values

/-- Keys and properties that are the same as before are as ready. -/
theorem Ready.congr {stores : Stores} (ready : Ready before plan listed)
    (index : stores .index = before .index) (records : stores .property = before .property) :
    Ready stores plan listed := by
  have keys : stores.keys = before.keys := congrArg (List.map KeyRecord.name) index
  obtain ⟨checked, distinct, plans, near⟩ := ready
  rw [← keys] at checked distinct plans
  rw [← records] at near
  exact ⟨checked, distinct, plans, near⟩

theorem Ready.storing (ready : Ready before plan listed)
    (shelved : Shelved before labels properties []) :
    site.Storing (site.collection.writeProperties plan) before fun head stores =>
      Written labels properties plan head before stores :=
  storing_writeProperties shelved ready.checked ready.distinct ready.known ready.near

/-!
## Nodes
-/

/-- What is known of the records when a node is stored. -/
structure NodeStored (labels properties : List Nat) (node : Node) (record : NodeRecord)
    (before stores : Stores) : Prop where
  shelved : Shelved stores ((record.labels.map UInt32.toNat).toList ++ labels)
    ((record.properties.map UInt32.toNat).toList ++ properties) []
  nodes : stores .node = before .node ++ [record]
  ids : stores .nodeId = before .nodeId ++ [⟨true, UInt32.ofNat (before .node).length⟩]
  relationships : stores .relationship = before .relationship
  keys : before .index <+: stores .index
  counts : ∀ kind : StoreKind, kind ≠ .index →
    (stores kind).length = (before kind).length + node.recordCount kind

/-- How an attempt to add records ends where every failure is that of a full file or leaves no
trace. -/
def EndsWhole {α : Type} (before : Stores) (stored : α → Stores → Prop)
    (outcome : Except Error α) (stores : Stores) : Prop :=
  (∃ error, outcome = .error error ∧ (error.isFull = true ∨ stores = before)) ∨
    ∃ value, outcome = .ok value ∧ stored value stores

theorem EndsWhole.refused {α : Type} {stored : α → Stores → Prop} (error : Error) :
    EndsWhole before stored (.error error) before :=
  .inl ⟨error, rfl, .inr rfl⟩

theorem Fills.whole {α : Type} {action : Action α} {stored : α → Stores → Prop}
    (filled : site.Fills action before stored) :
    site.Ensures action before (fun _ => True) (EndsWhole before stored) := by
  refine Ensures.imp filled (fun _ _ => trivial) fun outcome stores ended => ?_
  cases outcome with
  | error error => exact .inl ⟨error, rfl, .inl (ended.2 error rfl)⟩
  | ok value => exact .inr ⟨value, rfl, ended.1 value rfl⟩

theorem fills_addNode {first second : Option RecordId} (labelled : first ≠ some absentId)
    (propertied : second ≠ some absentId) :
    site.Fills (site.collection.addNode first second) before fun _ stores =>
      stores = (before.set .node (before .node ++ [.fresh first second])).set .nodeId
        (before .nodeId ++ [⟨true, UInt32.ofNat (before .node).length⟩]) := by
  have appended : site.Fills ((site.file .node).append (.fresh first second)) before
      fun id stores => id = UInt32.ofNat (before .node).length ∧
        stores = before.set .node (before .node ++ [.fresh first second]) := by
    refine fills_appendAll ?_ fun _ => ⟨rfl, rfl⟩
    intro _ record member
    exact List.mem_singleton.mp member ▸ NodeRecord.faithful labelled nofun propertied
  refine (yields_openAs .node).bind_fills (appended.bind fun id middle added => ?_)
  obtain ⟨rfl, rfl⟩ := added
  have listed : site.Fills ((site.file .nodeId).append ⟨true, UInt32.ofNat (before .node).length⟩)
      (before.set .node (before .node ++ [.fresh first second])) fun _ stores =>
        stores = (before.set .node (before .node ++ [.fresh first second])).set .nodeId
          (before .nodeId ++ [⟨true, UInt32.ofNat (before .node).length⟩]) := by
    refine fills_appendAll ?_ fun _ => ?_
    · exact fun _ record _ => NodeIdRecord.faithful record
    · rw [Stores.set_of_ne before (by decide)]
  refine (yields_openAs .nodeId).bind_fills (listed.bind fun _ stores same => ?_)
  exact (Yields.pure _).fills same

theorem fills_storeNode (shelved : Shelved before labels properties []) (node : Node)
    {record : Option LabelRecord} (made : Collection.labelRecord? node.labels = .ok record)
    (ready : Ready before plan (Engine.storedProperties node)) :
    site.Fills (do
      let labels ← record.mapM fun record => do (← site.collection.labels).append record
      let properties ← site.collection.writeProperties plan
      let id ← site.collection.addNode labels properties
      return ({ node with id := some id, relationships := [] }, NodeRecord.fresh labels properties))
      before fun (stored : Node × NodeRecord) stores =>
        NodeStored labels properties node stored.2 before stores := by
  refine Fills.bind (storing_labelRecord shelved made) fun first middle ended => ?_
  obtain ⟨toMiddle, labelled, middleShelved, labelCount, others⟩ := ended
  have middleReady := ready.congr (others .index (by decide)) (others .property (by decide))
  refine Fills.bind (middleReady.storing middleShelved) fun second last ended => ?_
  obtain ⟨toLast, written⟩ := ended
  have enriched := toMiddle.trans toLast
  refine (fills_addNode labelled written.present).bind fun id stores same => ?_
  refine (Yields.pure _).fills ?_
  have apart : ∀ kind : StoreKind, kind ≠ .node → kind ≠ .nodeId → stores kind = last kind := by
    intro kind noNode noId
    rw [same, Stores.set_of_ne _ noId, Stores.set_of_ne last noNode]
  have nodes : stores .node = last .node ++ [.fresh first second] := by
    rw [same, Stores.set_of_ne _ (by decide), Stores.set_self]
  have ids : stores .nodeId = last .nodeId ++ [⟨true, UInt32.ofNat (last .node).length⟩] := by
    rw [same, Stores.set_self]
  refine ⟨written.shelved.congr fun kind aside => apart kind aside.1 aside.2.1, ?_, ?_, ?_, ?_, ?_⟩
  · rw [nodes, enriched.node]
  · rw [ids, enriched.nodeId, enriched.node]
  · rw [apart .relationship (by decide) (by decide), enriched.relationship]
  · rw [apart .index (by decide) (by decide)]
    exact enriched.grows .index (by decide)
  · intro kind noKey
    cases kind with
    | node => rw [nodes, enriched.node, List.length_append]; rfl
    | nodeId => rw [ids, enriched.nodeId, List.length_append]; rfl
    | relationship => rw [apart .relationship (by decide) (by decide), enriched.relationship]; rfl
    | label =>
        rw [apart .label (by decide) (by decide), written.label, labelCount]
        rfl
    | property =>
        rw [apart .property (by decide) (by decide), written.records, others .property (by decide),
          ready.length]
        rfl
    | string =>
        rw [apart .string (by decide) (by decide), written.texts, others .string (by decide),
          ready.texts]
        rfl
    | array => rw [apart .array (by decide) (by decide), written.shelved.arrays, shelved.arrays]; rfl
    | index => exact absurd rfl noKey

theorem ensures_createNode_whole (shelved : Shelved before labels properties []) (node : Node) :
    site.Ensures (site.collection.createNode node) before (fun _ => True)
      (EndsWhole before fun (stored : Node × NodeRecord) stores =>
        NodeStored labels properties node stored.2 before stores) := by
  refine Ensures.of_bind (fun _ _ => ?_) fun error _ => .refused error
  refine Ensures.of_bind (fun labelRecord made => ?_) fun error _ => .refused error
  rcases yields_planProperties (Engine.storedProperties node) with
    ⟨error, denied⟩ | ⟨plan, planned, plans, added, near⟩
  · exact (denied.bind_error _).ensures (.refused error)
  refine planned.bind_ensures (yields_verify.bind_ensures ?_)
  exact (fills_storeNode shelved node made (.of_addAll shelved plans added near)).whole

/-!
## Relationships
-/

/-- What is known of the records when a relationship is stored. -/
structure RelationshipStored (labels properties : List Nat) (relationship : Relationship)
    (record : RelationshipRecord) (before stores : Stores) : Prop where
  shelved : Shelved stores (record.kind.toNat :: labels)
    ((record.properties.map UInt32.toNat).toList ++ properties) []
  joins : Joins before stores record
  ids : stores .nodeId = before .nodeId
  keys : before .index <+: stores .index
  counts : ∀ kind : StoreKind, kind ≠ .index →
    (stores kind).length = (before kind).length + relationship.recordCount kind

variable {graph : StoredGraph}

/-- What is known of the values of an action that only adds is known beside what it fills. -/
theorem Fills.and {α : Type} {action : Action α} {gives given : α → Stores → Prop}
    (filled : site.Fills action before gives) (enriching : site.Enriching action before given) :
    site.Fills action before fun value stores => gives value stores ∧ given value stores := by
  refine (Ensures.and filled enriching).imp (fun _ _ => trivial) fun outcome stores ended => ?_
  obtain ⟨⟨fits, full⟩, -, holds⟩ := ended
  exact ⟨fun value same => ⟨fits value same, holds value same⟩, full⟩

/-- What was written for a relationship is owned by its record, once this is there. -/
theorem RelationshipStored.of_joins {middle last stores : Stores} {relationship : Relationship}
    {kindRecord : LabelRecord} {record : RelationshipRecord}
    (ready : Ready before plan relationship.properties)
    (shelved : Shelved before labels properties [])
    (toMiddle : Enriches before middle)
    (middleIs : middle = before.set .label (before .label ++ [kindRecord]))
    (toLast : Enriches middle last)
    (written : Written (record.kind.toNat :: labels) properties plan record.properties middle last)
    (joins : Joins last stores record) (others : SameOthers last stores) :
    RelationshipStored labels properties relationship record before stores := by
  have enriched := toMiddle.trans toLast
  refine ⟨?_, joins.of_enriches enriched, ?_, ?_, ?_⟩
  · exact written.shelved.congr fun kind aside => others kind aside.1 aside.2.2
  · rw [others .nodeId (by decide) (by decide), enriched.nodeId]
  · rw [others .index (by decide) (by decide)]
    exact enriched.grows .index (by decide)
  · intro kind noKey
    cases kind with
    | node =>
        rw [joins.nodes, headed, headed, List.length_modify, List.length_modify, enriched.node]
        rfl
    | nodeId =>
        rw [others .nodeId (by decide) (by decide), enriched.nodeId]
        rfl
    | relationship =>
        rw [joins.relationships, length_linkedBack, length_linkedBack, List.length_append,
          enriched.relationship]
        rfl
    | label =>
        rw [others .label (by decide) (by decide), written.label, middleIs, Stores.set_self,
          List.length_append]
        rfl
    | property =>
        rw [others .property (by decide) (by decide), written.records, middleIs,
          Stores.set_of_ne before (by decide), ready.length]
        rfl
    | string =>
        rw [others .string (by decide) (by decide), written.texts, middleIs,
          Stores.set_of_ne before (by decide), ready.texts]
        rfl
    | array =>
        rw [others .array (by decide) (by decide), written.shelved.arrays, shelved.arrays]
        rfl
    | index => exact absurd rfl noKey

/-- Unless a file is full, a relationship is stored with all that it owns or leaves no trace. -/
theorem ensures_createRelationship_whole (represents : Represents before graph)
    (shelved : Shelved before labels properties []) (relationship : Relationship) :
    site.Ensures (site.collection.createRelationship relationship) before (fun _ => True)
      (EndsWhole before fun _ stores =>
        ∃ record, RelationshipStored labels properties relationship record before stores) := by
  refine (yields_openAs .node).bind_ensures ?_
  rcases yields_endpoint represents relationship.source with
    ⟨error, missing⟩ | ⟨sourceRecord, _, source, -, sourceRead⟩
  · exact (missing.bind_error _).ensures (.refused error)
  refine sourceRead.bind_ensures ?_
  rcases yields_endpoint represents relationship.target with
    ⟨error, missing⟩ | ⟨targetRecord, _, target, -, targetRead⟩
  · exact (missing.bind_error _).ensures (.refused error)
  refine targetRead.bind_ensures (Ensures.of_bind (fun _ _ => ?_) fun error _ => .refused error)
  by_cases unnamed : relationship.kind.isEmpty = true
  · simp only [unnamed, ↓reduceIte]
    exact ((Yields.throw _).bind_error _).ensures (.refused _)
  simp only [unnamed]
  refine Ensures.of_bind (fun kindRecord made => ?_) fun error _ => .refused error
  rcases yields_planProperties relationship.properties with
    ⟨error, denied⟩ | ⟨plan, planned, plans, added, near⟩
  · exact (denied.bind_error _).ensures (.refused error)
  have ready := Ready.of_addAll shelved plans added near
  refine planned.bind_ensures (yields_verify.bind_ensures ((yields_openAs .label).bind_ensures ?_))
  refine Fills.whole (Fills.bind (Fills.and (storing_appendLabels shelved made)
    (enriching_appendLabels made)) fun kind middle ended => ?_)
  obtain ⟨⟨toMiddle, -, middleShelved, middleIs⟩, ⟨-, labelsHeld⟩, index⟩ := ended
  have middleReady : Ready middle plan relationship.properties :=
    ready.congr index (by rw [middleIs, Stores.set_of_ne before (by decide)])
  refine Fills.bind (Fills.and (middleReady.storing middleShelved)
    (enriching_writeProperties middleReady.plans)) fun head last ended => ?_
  obtain ⟨⟨toLast, written⟩, propertiesPresent, propertiesHeld⟩ := ended
  have enriched := toMiddle.trans toLast
  have held : RelationshipAt last {
      inUse := true, first := relationship.source, second := relationship.target, kind
      firstPrevious := none, firstNext := sourceRecord.relationships
      secondPrevious := none, secondNext := targetRecord.relationships, properties := head }
      relationship := {
    present := ⟨nofun, (represents.presentNode source).2.1, nofun,
      (represents.presentNode target).2.1, propertiesPresent⟩
    inUse := rfl
    source := rfl
    target := rfl
    labels := labelsHeld.grown toLast.grows
    properties := propertiesHeld }
  refine (yields_openAs .relationship).bind_fills ?_
  refine Ensures.imp (ensures_join (represents.enriched enriched) held ⟨rfl, rfl⟩
    (enriched.node ▸ source) (enriched.node ▸ target) rfl rfl) (fun _ _ => trivial) ?_
  intro outcome stores ended
  rcases ended with ⟨error, rfl, full, -⟩ | ⟨rfl, -, joins, others⟩
  · exact ⟨nofun, fun other same => Except.error.inj same ▸ full⟩
  · exact ⟨fun _ _ => ⟨_, .of_joins ready shelved toMiddle middleIs toLast written joins others⟩,
      nofun⟩

end Site

end GraphStore
