import GraphStore.Proofs.Collection.Walks
import GraphStore.Proofs.Store.Files
import GraphStore.Proofs.Text.Utf8

/-!
# Chains that are read

What reading a text, a list of properties or a node makes of the chains in the files, whatever these
hold. Main statement: where all files are whole, a chain is read if and only if the way along it
reaches the end, and then each of its records is read once and in order.
-/

set_option autoImplicit false

namespace GraphStore.Collection

open Text

variable {collection : Collection} {system last : FileSystem} {header : StoreHeader}
  {content : Content} {count : Nat} {head : RecordId}

/-!
## Texts
-/

namespace IsWhole

section

variable (whole : collection.IsWhole system .string header content count)
include whole

/-- Behind the opening, a text is read by a walk. -/
private theorem runOn_readText (head : RecordId) :
    (collection.readText head).runOn system =
      (do
        let chunks ← walk (fun id => do
            let record ← (collection.fileWith .string header).readInUse id
            return (record.data, record.next))
          (.invalidReference s!"string chain from {head} does not terminate") count (some head)
        match Utf8.decode chunks.flatten with
        | .ok text => return text
        | .error fault =>
            throw (.valueOutOfRange s!"string {head} is not UTF-8: {fault.message}") :
        Action String).runOn system := by
  have opened : collection.texts.runOn system = _ := whole.runOn_file
  unfold readText
  rw [Action.runOn_bind_of_ok _ system opened]
  exact Action.runOn_bind_of_ok _ system whole.runOn_count _

theorem readText_eq_ok_iff (head : RecordId) (text : String) :
    (collection.readText head).runOn system = (.ok text, system) ↔
      ∃ visited, collection.TextRoute system (some head) visited none ∧
        (visited.map fun entry => entry.2.data).flatten = Utf8.encode text := by
  rw [whole.runOn_readText]
  constructor
  · intro succeeded
    obtain ⟨chunks, walked, decoded⟩ := Action.Asks.exists_of_runOn_bind (asks_walk (fun id =>
      (asks_readInUse _ id).bind fun _ => Action.asks_pure _) _ _ _) succeeded
    obtain ⟨visited, route, rfl⟩ :=
      (whole.runOn_walk_eq_ok_iff (fun _ record => record.data) _ chunks).mp walked
    refine ⟨visited, route, ?_⟩
    split at decoded
    next found =>
      cases decoded
      exact (Utf8.decode_eq_ok_iff.mp found).symm
    next => cases decoded
  · intro given
    obtain ⟨visited, route, spelled⟩ := given
    have walked := fun endless =>
      (whole.runOn_walk_eq_ok_iff (fun _ record => record.data) endless _).mpr
        ⟨visited, route, rfl⟩
    rw [Action.runOn_bind_of_ok _ system (walked _), Utf8.decode_eq_ok_iff.mpr spelled.symm]
    rfl

theorem readText_of_revisit {visited : List (RecordId × TextRecord)} {id : RecordId}
    (route : collection.TextRoute system (some head) visited (some id))
    (again : id ∈ visited.map Prod.fst) :
    (collection.readText head).runOn system =
      (.error (.invalidReference s!"string chain from {head} does not terminate"), system) := by
  rw [whole.runOn_readText]
  exact Action.runOn_bind_of_error
    (whole.runOn_walk_of_revisit (fun _ record => record.data) _ route again) _

end

/-!
## Lists of properties
-/

section

variable (whole : collection.IsWhole system .property header content count)
include whole

/-- Behind the opening, a list of properties is read by a walk. -/
private theorem runOn_readProperties (head : RecordId) :
    (collection.readProperties (some head)).runOn system =
      (do
        let keys ← collection.keyNames
        let found ← walk (fun id => do
            let record ← (collection.fileWith .property header).readInUse id
            let properties ← record.used.mapM (collection.readBlock keys id)
            return (properties, record.next.map UInt16.toUInt32))
          (.invalidReference s!"property chain from {head} does not terminate") count (some head)
        return found.flatten : Action (List Property)).runOn system := by
  have opened : collection.properties.runOn system = _ := whole.runOn_file
  unfold readProperties
  dsimp only
  rw [Action.runOn_bind_of_ok _ system opened, Action.runOn_bind_of_ok _ system whole.runOn_count]

private theorem visits_properties (keys : List String) :
    Visits system count (collection.Finds system .property)
      (fun record => record.next.map UInt16.toUInt32)
      (fun id record => record.used.mapM (collection.readBlock keys id)) fun id => do
        let record ← (collection.fileWith .property header).readInUse id
        let properties ← record.used.mapM (collection.readBlock keys id)
        return (properties, record.next.map UInt16.toUInt32) :=
  whole.visits fun id _ => Action.asks_mapM (asks_readBlock keys id)

/-- On a way to the end, the blocks of each record are read once and in order. -/
theorem readProperties_of_route {visited : List (RecordId × PropertyRecord)}
    (route : collection.PropertyRoute system (some head) visited none) :
    (collection.readProperties (some head)).runOn system =
      (do
        let keys ← collection.keyNames
        let found ← visited.mapM fun entry =>
          entry.2.used.mapM (collection.readBlock keys entry.1)
        return found.flatten : Action (List Property)).runOn system := by
  rw [whole.runOn_readProperties]
  cases named : collection.keyNames.runOn system with
  | mk outcome middle =>
      obtain rfl := asks_keyNames.same named
      cases outcome with
      | error error => rw [Action.runOn_bind_of_error named, Action.runOn_bind_of_error named]
      | ok keys =>
          rw [Action.runOn_bind_of_ok keys _ named, Action.runOn_bind_of_ok keys _ named]
          exact Action.runOn_bind_congr ((whole.visits_properties keys).runOn_walk route) _

theorem exists_route_of_readProperties {listed : List Property}
    (succeeded : (collection.readProperties (some head)).runOn system = (.ok listed, last)) :
    ∃ visited, collection.PropertyRoute system (some head) visited none := by
  rw [whole.runOn_readProperties] at succeeded
  obtain ⟨keys, -, read⟩ := asks_keyNames.exists_of_runOn_bind succeeded
  obtain ⟨found, middle, walked, -⟩ := Action.exists_of_runOn_bind read
  exact (whole.visits_properties keys).exists_route walked

end

/-!
## Relationships
-/

section

variable (whole : collection.IsWhole system .relationship header content count) {node : RecordId}
include whole

private theorem runOn_relationshipsOf (head : Option RecordId) :
    (collection.relationshipsOf node head).runOn system =
      (walk (fun id => do
          let record ← (collection.fileWith .relationship header).readInUse id
          return (id, record.next node))
        (.invalidReference s!"relationship chain of node {node} does not terminate") count
        head).runOn system := by
  have opened : collection.relationships.runOn system = _ := whole.runOn_file
  unfold relationshipsOf
  rw [Action.runOn_bind_of_ok _ system opened, Action.runOn_bind_of_ok _ system whole.runOn_count]

theorem relationshipsOf_eq_ok_iff (head : Option RecordId) (ids : List RecordId) :
    (collection.relationshipsOf node head).runOn system = (.ok ids, system) ↔
      ∃ visited, collection.RelationshipRoute system node head visited none ∧
        ids = visited.map Prod.fst := by
  rw [whole.runOn_relationshipsOf]
  exact whole.runOn_walk_eq_ok_iff (fun id _ => id) _ ids

theorem relationshipsOf_of_revisit {head : Option RecordId}
    {visited : List (RecordId × RelationshipRecord)} {id : RecordId}
    (route : collection.RelationshipRoute system node head visited (some id))
    (again : id ∈ visited.map Prod.fst) :
    (collection.relationshipsOf node head).runOn system =
      (.error (.invalidReference s!"relationship chain of node {node} does not terminate"),
        system) := by
  rw [whole.runOn_relationshipsOf]
  exact whole.runOn_walk_of_revisit (fun id _ => id) _ route again

end

end IsWhole

/-!
## Nodes
-/

/-- The labels to which the record of a node points. -/
def labelsOf (collection : Collection) (record : NodeRecord) : Action (List String) :=
  match record.labels with
  | some labels => collection.readLabels labels
  | none => pure []

theorem asks_labelsOf (record : NodeRecord) : (collection.labelsOf record).Asks := by
  unfold labelsOf
  split
  · exact (asks_file .label).bind fun file =>
      (asks_readInUse file _).bind fun _ => Action.asks_pure _
  · exact Action.asks_pure []

private theorem getNode_eq (id : RecordId) : collection.getNode id = (do
    let record ← (← collection.nodes).readInUse id
    let labels ← collection.labelsOf record
    let stored ← collection.readProperties record.properties
    let relationships ← collection.relationshipsOf id record.relationships
    return {
      id := some id, name := Engine.nameOf? stored, labels
      properties := stored.filter (!Engine.isName ·), relationships }) := by
  refine bind_congr fun file => bind_congr fun record => ?_
  unfold labelsOf
  cases record.labels <;> rfl

theorem asks_getNode (id : RecordId) : (collection.getNode id).Asks := by
  rw [getNode_eq]
  exact (asks_file .node).bind fun file => (asks_readInUse file id).bind fun record =>
    (asks_labelsOf record).bind fun _ => (asks_readProperties _).bind fun _ =>
      (asks_relationshipsOf id _).bind fun _ => Action.asks_pure _

theorem IsWhole.getNode_eq_ok_iff {nodeHeader : StoreHeader} {nodeContent : Content}
    {nodeCount : Nat}
    (nodes : collection.IsWhole system .node nodeHeader nodeContent nodeCount)
    (relationships : collection.IsWhole system .relationship header content count)
    (id : RecordId) (node : Node) :
    (collection.getNode id).runOn system = (.ok node, system) ↔
      ∃ record labels stored visited,
        collection.Finds system .node id record ∧
        (collection.labelsOf record).runOn system = (.ok labels, system) ∧
        (collection.readProperties record.properties).runOn system = (.ok stored, system) ∧
        collection.RelationshipRoute system id record.relationships visited none ∧
        node = {
          id := some id, name := Engine.nameOf? stored, labels
          properties := stored.filter (!Engine.isName ·)
          relationships := visited.map Prod.fst } := by
  have opened : collection.nodes.runOn system = _ := nodes.runOn_file
  rw [getNode_eq, Action.runOn_bind_of_ok _ system opened]
  constructor
  · intro succeeded
    obtain ⟨record, read, succeeded⟩ := (asks_readInUse _ id).exists_of_runOn_bind succeeded
    obtain ⟨labels, labelled, succeeded⟩ := (asks_labelsOf record).exists_of_runOn_bind succeeded
    obtain ⟨stored, listed, succeeded⟩ := (asks_readProperties _).exists_of_runOn_bind succeeded
    obtain ⟨ids, chained, succeeded⟩ := (asks_relationshipsOf id _).exists_of_runOn_bind succeeded
    cases succeeded
    obtain ⟨visited, route, rfl⟩ := (relationships.relationshipsOf_eq_ok_iff _ ids).mp chained
    exact ⟨record, labels, stored, visited, nodes.finds_iff.mpr read, labelled, listed, route, rfl⟩
  · intro given
    obtain ⟨record, labels, stored, visited, found, labelled, listed, route, rfl⟩ := given
    have chained := (relationships.relationshipsOf_eq_ok_iff _ _).mpr ⟨visited, route, rfl⟩
    rw [Action.runOn_bind_of_ok _ system (nodes.finds_iff.mp found),
      Action.runOn_bind_of_ok _ system labelled, Action.runOn_bind_of_ok _ system listed,
      Action.runOn_bind_of_ok _ system chained]
    rfl

/-!
## All chains
-/

/-- What reading makes of the chains in the files of a collection. A chain that ends passes no record
twice and is read whole; one that comes back to a record is an error. -/
structure ReadsChains (collection : Collection) (system : FileSystem) : Prop where
  text : ∀ head text,
    (collection.readText head).runOn system = (.ok text, system) ↔
      ∃ visited, collection.TextRoute system (some head) visited none ∧
        (visited.map Prod.fst).Nodup ∧
        (visited.map fun entry => entry.2.data).flatten = Utf8.encode text
  endlessText : ∀ head visited id,
    collection.TextRoute system (some head) visited (some id) → id ∈ visited.map Prod.fst →
      (collection.readText head).runOn system =
        (.error (.invalidReference s!"string chain from {head} does not terminate"), system)
  properties : ∀ head visited, collection.PropertyRoute system (some head) visited none →
    (visited.map Prod.fst).Nodup ∧
      (collection.readProperties (some head)).runOn system =
        (do
          let keys ← collection.keyNames
          let found ← visited.mapM fun entry =>
            entry.2.used.mapM (collection.readBlock keys entry.1)
          return found.flatten : Action (List Property)).runOn system
  endedProperties : ∀ head listed last,
    (collection.readProperties (some head)).runOn system = (.ok listed, last) →
      ∃ visited, collection.PropertyRoute system (some head) visited none
  endlessProperties : ∀ head visited id,
    collection.PropertyRoute system (some head) visited (some id) → id ∈ visited.map Prod.fst →
      ∃ error, (collection.readProperties (some head)).runOn system = (.error error, system)
  relationships : ∀ node head ids,
    (collection.relationshipsOf node head).runOn system = (.ok ids, system) ↔
      ∃ visited, collection.RelationshipRoute system node head visited none ∧
        ids.Nodup ∧ ids = visited.map Prod.fst
  endlessRelationships : ∀ node head visited id,
    collection.RelationshipRoute system node head visited (some id) → id ∈ visited.map Prod.fst →
      (collection.relationshipsOf node head).runOn system =
        (.error (.invalidReference s!"relationship chain of node {node} does not terminate"),
          system)
  node : ∀ id node,
    (collection.getNode id).runOn system = (.ok node, system) ↔
      ∃ record labels stored visited,
        collection.Finds system .node id record ∧
        (collection.labelsOf record).runOn system = (.ok labels, system) ∧
        (collection.readProperties record.properties).runOn system = (.ok stored, system) ∧
        collection.RelationshipRoute system id record.relationships visited none ∧
        node = {
          id := some id, name := Engine.nameOf? stored, labels
          properties := stored.filter (!Engine.isName ·)
          relationships := visited.map Prod.fst }
  endlessNode : ∀ id record visited again, collection.Finds system .node id record →
    collection.RelationshipRoute system id record.relationships visited (some again) →
    again ∈ visited.map Prod.fst →
      ∃ error, (collection.getNode id).runOn system = (.error error, system)

/-- Where all files have a header of their kind and a whole number of records, exactly the unbroken
chains are read. -/
theorem reads_unbroken_chains (whole : collection.verify.runOn system = (.ok (), system)) :
    collection.ReadsChains system := by
  have each := verify_eq_ok_iff.mp whole
  obtain ⟨_, _, _, texts⟩ := each .string
  obtain ⟨_, _, _, properties⟩ := each .property
  obtain ⟨_, _, _, relationships⟩ := each .relationship
  obtain ⟨_, _, _, nodes⟩ := each .node
  have endedProperties : ∀ head listed last,
      (collection.readProperties (some head)).runOn system = (.ok listed, last) →
        ∃ visited, collection.PropertyRoute system (some head) visited none :=
    fun _ _ _ => properties.exists_route_of_readProperties
  refine ⟨?_, ?_, ?_, endedProperties, ?_, ?_, ?_, ?_, ?_⟩
  · intro head text
    rw [texts.readText_eq_ok_iff]
    constructor
    · intro given
      obtain ⟨visited, route, spelled⟩ := given
      exact ⟨visited, route, route.nodup finds_unique, spelled⟩
    · intro given
      obtain ⟨visited, route, -, spelled⟩ := given
      exact ⟨visited, route, spelled⟩
  · exact fun head visited id => texts.readText_of_revisit
  · intro head visited route
    exact ⟨route.nodup finds_unique, properties.readProperties_of_route route⟩
  · intro head visited id route again
    refine (asks_readProperties _).exists_error_of_ne_ok fun listed succeeded => ?_
    exact route.not_ended_of_revisit finds_unique again
      (endedProperties head listed system succeeded)
  · intro node head ids
    rw [relationships.relationshipsOf_eq_ok_iff]
    constructor
    · intro given
      obtain ⟨visited, route, rfl⟩ := given
      exact ⟨visited, route, route.nodup finds_unique, rfl⟩
    · intro given
      obtain ⟨visited, route, -, same⟩ := given
      exact ⟨visited, route, same⟩
  · exact fun node head visited id => relationships.relationshipsOf_of_revisit
  · exact nodes.getNode_eq_ok_iff relationships
  · intro id record visited again found route back
    refine (asks_getNode id).exists_error_of_ne_ok fun node succeeded => ?_
    obtain ⟨other, _, _, whole, there, -, -, ended, -⟩ :=
      (nodes.getNode_eq_ok_iff relationships id node).mp succeeded
    obtain rfl := finds_unique id _ _ found there
    exact route.not_ended_of_revisit finds_unique back ⟨whole, ended⟩

/-- A text of two pieces, and a piece that is linked to itself. -/
private def loopedTexts : List TextRecord :=
  [{ inUse := true, next := some 1, data := [97] }, { inUse := true, next := none, data := [98] },
    { inUse := true, next := some 2, data := [99] }]

private def loopedStores : Stores := Stores.empty.set .string loopedTexts

private theorem holds_loopedStores :
    (loneSite .little).Holds loopedStores (systemOf .little loopedStores) := by
  refine holds_systemOf (fun kind record member => ?_) fun kind => by cases kind <;> decide
  by_cases texts : kind = .string
  · subst texts
    have linked : ∀ record ∈ loopedTexts, record.next ≠ some absentId := by decide
    rw [loopedStores, Stores.set_self] at member
    exact TextRecord.faithful (linked record member)
  · rw [loopedStores, Stores.set_of_ne _ texts] at member
    cases member

theorem reads_unbroken_chains_loopedTexts :
    let collection := (loneSite .little).collection
    let system := systemOf .little loopedStores
    collection.verify.runOn system = (.ok (), system) ∧
      (collection.readText 0).runOn system = (.ok "ab", system) ∧
      (collection.readText 2).runOn system =
        (.error (.invalidReference "string chain from 2 does not terminate"), system) := by
  intro collection system
  have verifies : (loneSite .little).Yields collection.verify loopedStores (.ok ()) :=
    Site.yields_verify
  have verified := verifies.runOn_eq holds_loopedStores
  have reads := reads_unbroken_chains verified
  have found (id : RecordId) {record : TextRecord} (stored : loopedTexts[id.toNat]? = some record)
      (taken : record.inUse = true) : collection.Finds system .string id record :=
    holds_loopedStores.finds_iff.mpr ⟨stored, taken⟩
  have whole : collection.TextRoute system (some 0) _ none :=
    .cons (found 0 rfl rfl) (.cons (found 1 rfl rfl) (.nil none))
  have loop : collection.TextRoute system (some 2) _ (some 2) :=
    .cons (found 2 rfl rfl) (.nil (some 2))
  refine ⟨verified, (reads.text 0 "ab").mpr ⟨_, whole, by decide, by decide +kernel⟩, ?_⟩
  exact reads.endlessText 2 _ 2 loop List.mem_cons_self

end GraphStore.Collection
