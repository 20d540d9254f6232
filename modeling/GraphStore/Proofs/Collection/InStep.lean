import GraphStore.Engine.Relationships
import GraphStore.Proofs.Store.InStep

/-!
# Collections in step

What is read from a collection and written to it on two file systems, on which its files may have
other byte orders. Main statements: nodes and relationships are stored and found alike on both.
-/

set_option autoImplicit false

namespace GraphStore

open StoredRecord

variable {α β : Type}

/-- Whether an action has the same outcome on file systems on which files hold the same records, and
leaves such file systems. -/
def Action.InStep (first second : Heading) (action : Action α) : Prop :=
  Action.Parallel (FileSystem.Aligned first second) Eq action action

variable {first second : Heading}

namespace Action.InStep

theorem pure (value : α) : InStep first second (pure value) := Action.Parallel.pure rfl

protected theorem throw (error : Error) : InStep first second (throw error : Action α) :=
  Action.Parallel.throw error

theorem of (result : Except Error α) : InStep first second (.of result) :=
  Action.Parallel.of (.same result)

theorem bind {action : Action α} {next : α → Action β} (begun : action.InStep first second)
    (rest : ∀ value, (next value).InStep first second) : (action >>= next).InStep first second :=
  begun.bind_same rest

theorem ite {condition : Prop} [Decidable condition] {action other : Action α}
    (holds : action.InStep first second) (fails : other.InStep first second) :
    InStep first second (if condition then action else other) := by
  split
  next => exact holds
  next => exact fails

end Action.InStep

namespace Collection

variable (collection : Collection)

/-!
## Files
-/

/-- Work on a file of the collection that is opened first. -/
theorem parallel_file (kind : StoreKind) {work others : RecordFile kind.Record → Action α}
    (each : ∀ here there, Abreast first second here there →
      Action.Parallel (FileSystem.Aligned first second) Eq (work here) (others there)) :
    Action.Parallel (FileSystem.Aligned first second) Eq (collection.file kind.Record kind >>= work)
      (collection.file kind.Record kind >>= others) :=
  (RecordFile.parallel_openAs kind collection.directory).bind each

theorem inStep_walk {visit visits : RecordId → Action (α × Option RecordId)}
    (each : ∀ id, Action.Parallel (FileSystem.Aligned first second) Eq (visit id) (visits id))
    (endless : Error) (limit : Nat) (start : Option RecordId) :
    Action.Parallel (FileSystem.Aligned first second) Eq (walk visit endless limit start)
      (walk visits endless limit start) := by
  induction limit generalizing start with
  | zero =>
      cases start with
      | none => exact .pure rfl
      | some => exact .throw endless
  | succ limit ih =>
      cases start with
      | none => exact .pure rfl
      | some id =>
          refine (each id).bind_same fun (held, next) => ?_
          exact (ih next).bind_same fun rest => .pure rfl

theorem inStep_verify : collection.verify.InStep first second := by
  have opens (kind : StoreKind) {rest : Action Unit} (onward : rest.InStep first second) :
      (collection.file kind.Record kind >>= fun _ => rest).InStep first second :=
    collection.parallel_file kind fun _ _ _ => onward
  unfold verify
  refine opens .node (opens .nodeId (opens .relationship (opens .label ?_)))
  exact opens .property (opens .string (opens .array (opens .index (.pure ()))))

/-!
## Single records
-/

theorem inStep_addLabel {record : LabelRecord} (writable : Writable record) :
    (collection.labels >>= fun file => file.append record).InStep first second :=
  collection.parallel_file .label fun _ _ abreast => abreast.append writable

theorem inStep_addNode (labels properties : Option RecordId) :
    (collection.addNode labels properties).InStep first second := by
  refine collection.parallel_file .node fun _ _ abreast => ?_
  refine (abreast.append (NodeRecord.writable _)).bind_same fun id => ?_
  refine collection.parallel_file .nodeId fun _ _ abreast => ?_
  exact (abreast.append (NodeIdRecord.faithful _).writable).bind_same fun _ => .pure rfl

theorem inStep_readLabels (id : RecordId) : (collection.readLabels id).InStep first second :=
  collection.parallel_file .label fun _ _ abreast =>
    (abreast.readInUse id).bind_same fun _ => .pure rfl

/-!
## Texts
-/

theorem inStep_writeText (text : String) : (collection.writeText text).InStep first second := by
  refine collection.parallel_file .string fun _ _ abreast => ?_
  refine abreast.count.bind_same fun number => ?_
  refine .of_bind _ fun records _ => ?_
  exact abreast.appendAll fun record _ => TextRecord.writable record

theorem inStep_readText (head : RecordId) : (collection.readText head).InStep first second := by
  refine collection.parallel_file .string fun _ _ abreast => ?_
  refine abreast.count.bind_same fun limit => ?_
  refine (inStep_walk (fun id => ?_) _ limit (some head)).bind_same fun chunks => ?_
  · exact (abreast.readInUse id).bind_same fun record => .pure rfl
  · split
    next => exact .pure rfl
    next => exact .throw _

/-!
## Properties
-/

theorem inStep_keyNames : collection.keyNames.InStep first second :=
  collection.parallel_file .index fun _ _ abreast => abreast.readAll.bind_same fun _ => .pure rfl

theorem inStep_planProperties (properties : List Property) :
    (collection.planProperties properties).InStep first second := by
  refine collection.inStep_keyNames.bind fun known => ?_
  refine (Action.InStep.of _).bind fun plan => ?_
  refine .ite ?_ (.pure plan)
  refine collection.parallel_file .property fun _ _ abreast => ?_
  refine abreast.count.bind_same fun number => ?_
  dsimp only
  split
  next => exact .throw _
  next => exact .pure rfl

theorem inStep_writeValue (key : Nat) (value : PropertyValue) :
    (collection.writeValue key value).InStep first second := by
  cases value with
  | bool => exact .of _
  | int => exact .of _
  | text text => exact (collection.inStep_writeText text).bind fun head => .of _

theorem inStep_writeProperties (plan : PropertyPlan) :
    (collection.writeProperties plan).InStep first second := by
  have rest : (do
      let blocks ← plan.entries.mapM fun entry => collection.writeValue entry.1 entry.2
      let file ← collection.properties
      let number ← file.count
      let records ← Action.of
        (propertyRecords number 0 (slices blocksPerRecord plan.recordCount blocks))
      return some (← file.appendAll records) : Action (Option RecordId)).InStep first second := by
    refine (Action.Parallel.mapM fun entry _ => ?_).bind_same fun blocks => ?_
    · exact collection.inStep_writeValue entry.1 entry.2
    · refine collection.parallel_file .property fun _ _ abreast => ?_
      refine abreast.count.bind_same fun number => ?_
      refine .of_bind _ fun records _ => ?_
      refine (abreast.appendAll fun record _ => PropertyRecord.writable record).bind_same fun _ => ?_
      exact .pure rfl
  unfold writeProperties
  refine .ite (.pure none) (.ite ?_ rest)
  refine .of_bind _ fun records made => ?_
  refine collection.parallel_file .index fun _ _ abreast => ?_
  refine (abreast.appendAll fun record member => ?_).bind_same fun _ => rest
  obtain ⟨name, named⟩ := exists_of_mem_mapM made member
  exact (KeyRecord.faithful_of_ofName named).writable

theorem inStep_readBlock (keys : List String) (id : RecordId) (block : PropertyBlock) :
    (collection.readBlock keys id block).InStep first second := by
  unfold readBlock
  split
  next => exact .throw _
  next key _ =>
    split
    next => exact .pure _
    next => exact .pure _
    next => exact (collection.inStep_readText _).bind fun text => .pure _
    next => exact .throw _

theorem inStep_readProperties (head : Option RecordId) :
    (collection.readProperties head).InStep first second := by
  cases head with
  | none => exact .pure []
  | some head =>
      refine collection.parallel_file .property fun _ _ abreast => ?_
      refine abreast.count.bind_same fun limit => ?_
      refine collection.inStep_keyNames.bind_same fun keys => ?_
      refine (inStep_walk (fun id => ?_) _ limit (some head)).bind_same fun found => .pure rfl
      refine (abreast.readInUse id).bind_same fun record => ?_
      refine (Action.Parallel.mapM fun block _ => ?_).bind_same fun properties => .pure rfl
      exact collection.inStep_readBlock keys id block

/-!
## Nodes
-/

theorem inStep_createNode (node : Node) : (collection.createNode node).InStep first second := by
  refine (Action.InStep.of _).bind fun _ => .of_bind _ fun labelRecord made => ?_
  refine (collection.inStep_planProperties _).bind fun plan => ?_
  refine collection.inStep_verify.bind fun _ => .bind ?_ fun labels => ?_
  · cases labelRecord with
    | none => exact .pure none
    | some record =>
        have writable : Writable record := by
          unfold labelRecord? at made
          split at made
          next => cases made
          next =>
            obtain ⟨record, listed, same⟩ := exists_of_map_eq_ok made
            cases same
            exact (LabelRecord.faithful_of_ofLabels listed).writable
        exact (collection.inStep_addLabel writable).bind fun id => .pure (some id)
  · refine (collection.inStep_writeProperties plan).bind fun properties => ?_
    exact (collection.inStep_addNode labels properties).bind fun id => .pure _

theorem inStep_relationshipsOf (id : RecordId) (head : Option RecordId) :
    (collection.relationshipsOf id head).InStep first second := by
  refine collection.parallel_file .relationship fun _ _ abreast => ?_
  refine abreast.count.bind_same fun limit => ?_
  refine inStep_walk (fun relationship => ?_) _ limit head
  exact (abreast.readInUse relationship).bind_same fun record => .pure rfl

theorem inStep_getNode (id : RecordId) : (collection.getNode id).InStep first second := by
  refine collection.parallel_file .node fun _ _ abreast => ?_
  refine (abreast.readInUse id).bind_same fun record => ?_
  have rest (labels : List String) : (do
      let stored ← collection.readProperties record.properties
      let relationships ← collection.relationshipsOf id record.relationships
      return {
        id := some id, name := Engine.nameOf? stored, labels
        properties := stored.filter (!Engine.isName ·), relationships } : Action Node).InStep
      first second := by
    refine (collection.inStep_readProperties record.properties).bind fun stored => ?_
    exact (collection.inStep_relationshipsOf id record.relationships).bind fun _ => .pure _
  dsimp only
  split
  next labels _ => exact (collection.inStep_readLabels labels).bind rest
  next => exact rest []

/-!
## Relationships
-/

section

variable {nodes others : RecordFile (StoreKind.Record .node)}
  {file other : RecordFile (StoreKind.Record .relationship)}

theorem parallel_endpoint (abreast : Abreast first second nodes others) (id : RecordId) :
    Action.Parallel (FileSystem.Aligned first second) Eq (endpoint nodes id)
      (endpoint others id) := by
  refine (abreast.readInUse id).tryCatch fun error => ?_
  split
  next => exact .throw _
  next => exact .throw _

theorem parallel_linkBack (abreast : Abreast first second file other) (node : RecordId)
    (former : Option RecordId) (id : RecordId) :
    Action.Parallel (FileSystem.Aligned first second) Eq (linkBack file node former id)
      (linkBack other node former id) := by
  cases former with
  | none => exact .pure rfl
  | some head =>
      refine (abreast.read head).bind_same fun record => ?_
      exact abreast.writeAt head (RelationshipRecord.writable _)

theorem parallel_writeEnds (abreast : Abreast first second nodes others) (source target : RecordId)
    (sourceRecord targetRecord : NodeRecord) (result : Relationship) :
    Action.Parallel (FileSystem.Aligned first second) Eq
      (do
        nodes.writeAt source sourceRecord
        if source ≠ target then nodes.writeAt target targetRecord
        return result)
      (do
        others.writeAt source sourceRecord
        if source ≠ target then others.writeAt target targetRecord
        return result) := by
  refine (abreast.writeAt source (NodeRecord.writable _)).bind_same fun _ => ?_
  refine .ite (fun _ => ?_) fun _ => .pure rfl
  exact (abreast.writeAt target (NodeRecord.writable _)).bind_same fun _ => .pure rfl

end

theorem inStep_createRelationship (relationship : Relationship) :
    (collection.createRelationship relationship).InStep first second := by
  refine collection.parallel_file .node fun nodes others abreastNodes => ?_
  refine (parallel_endpoint abreastNodes _).bind_same fun sourceRecord => ?_
  refine (parallel_endpoint abreastNodes _).bind_same fun targetRecord => ?_
  refine (Action.Parallel.of (.same _)).bind_same fun _ => ?_
  refine .ite (fun _ => .throw _) fun _ => ?_
  refine .of_bind _ fun kindRecord made => ?_
  have writable := (LabelRecord.faithful_of_ofLabels made).writable
  refine (collection.inStep_planProperties _).bind_same fun plan => ?_
  refine collection.inStep_verify.bind_same fun _ => ?_
  refine collection.parallel_file .label fun _ _ abreastLabels => ?_
  refine (abreastLabels.append writable).bind_same fun kind => ?_
  refine (collection.inStep_writeProperties plan).bind_same fun properties => ?_
  refine collection.parallel_file .relationship fun file other abreast => ?_
  refine (abreast.append (RelationshipRecord.writable _)).bind_same fun id => ?_
  refine (parallel_linkBack abreast _ _ _).bind_same fun _ => ?_
  have ends := parallel_writeEnds abreastNodes relationship.source relationship.target
    { sourceRecord with relationships := some id } { targetRecord with relationships := some id }
    { relationship with id := some id }
  exact .ite (fun _ => (parallel_linkBack abreast _ _ _).bind_same fun _ => ends) fun _ => ends

theorem inStep_getRelationship (id : RecordId) :
    (collection.getRelationship id).InStep first second := by
  refine collection.parallel_file .relationship fun _ _ abreast => ?_
  refine (abreast.readInUse id).bind_same fun record => ?_
  refine (collection.inStep_readLabels record.kind).bind fun labels => ?_
  split
  next => exact .throw _
  next => exact (collection.inStep_readProperties record.properties).bind fun _ => .pure _

end Collection

end GraphStore
