import GraphStore.Engine.Relationships
import GraphStore.Proofs.Collection.Leftover

/-!
# What the work on a collection keeps to

Nodes and relationships are stored in the files of their collection and read from them. Main
statements: this work asks for nothing but what these files hold and changes nothing else; so it
stays below the directory of the collection, and it goes the same way wherever the files hold the
same.
-/

set_option autoImplicit false

namespace GraphStore

variable {α β γ : Type} {collection : Collection} {mayChange mayRefuse : Prop}

/-- Whether a path is that of a file of a collection. -/
def Collection.IsFile (collection : Collection) (path : Path) : Prop :=
  ∃ kind, path = collection.pathOf kind

/-- Whether a question is what a file of a collection holds. -/
def Question.KeepsTo (collection : Collection) : Question → Prop
  | size path | content path | slice path _ _ => collection.IsFile path
  | _ => False

/-- Whether a change is one of what a file of a collection holds. -/
def Change.KeepsTo (collection : Collection) : Change → Prop
  | append path _ | overwrite path _ _ => collection.IsFile path
  | _ => False

namespace Disk

/-- Whether work asks for nothing but what the files of a collection hold and changes nothing else,
or nothing at all if it may not. -/
def KeepsTo (collection : Collection) (mayChange : Prop) : Disk α → Prop
  | done _ => True
  | ask question next =>
      question.KeepsTo collection ∧ ∀ answer, KeepsTo collection mayChange (next answer)
  | attempt change next =>
      (mayChange ∧ change.KeepsTo collection) ∧
        ∀ outcome, KeepsTo collection mayChange (next outcome)

theorem KeepsTo.imp {other : Prop} {work : Disk α} (keeps : work.KeepsTo collection mayChange)
    (also : mayChange → other) : work.KeepsTo collection other := by
  induction work with
  | done value => trivial
  | ask question next ih => exact ⟨keeps.1, fun answer => ih answer (keeps.2 answer)⟩
  | attempt change next ih =>
      exact ⟨⟨also keeps.1.1, keeps.1.2⟩, fun outcome => ih outcome (keeps.2 outcome)⟩

theorem KeepsTo.bind {work : Disk α} {next : α → Disk β} (keeps : work.KeepsTo collection mayChange)
    (rest : ∀ value, (next value).KeepsTo collection mayChange) :
    (work >>= next).KeepsTo collection mayChange := by
  induction work with
  | done value => exact rest value
  | ask question onward ih => exact ⟨keeps.1, fun answer => ih answer (keeps.2 answer)⟩
  | attempt change onward ih => exact ⟨keeps.1, fun outcome => ih outcome (keeps.2 outcome)⟩

end Disk

/-!
## Where it leads
-/

section

variable {work : Disk α} {start system later : FileSystem} {place : Path}

/-- Behind a change of what a file holds, its place holds another file. -/
theorem Change.KeepsTo.exists_put {change : Change} (keeps : change.KeepsTo collection)
    (changed : system.change change = .ok later) :
    ∃ kind place content, system.locate (collection.pathOf kind) = .ok place ∧
      later = system.put place (.file content) := by
  cases change with
  | append path bytes =>
      obtain ⟨kind, rfl⟩ := keeps
      obtain ⟨place, content, file, rfl⟩ := FileSystem.put_of_change_append changed
      exact ⟨kind, place, _, file.located, rfl⟩
  | overwrite path offset bytes =>
      obtain ⟨kind, rfl⟩ := keeps
      obtain ⟨⟨place, content⟩, opened, same⟩ := exists_of_bind_eq_ok changed
      cases same
      exact ⟨kind, place, _, (FileSystem.hasFile_of_openFile opened).located, rfl⟩
  | _ => exact keeps.elim

/-- Work that keeps to the files of a collection changes nothing but what is below its directory. -/
theorem Disk.KeepsTo.stays (keeps : work.KeepsTo collection mayChange)
    (leads : collection.directory.LeadsTo place) (confined : Confined place start system) :
    work.Stays mayRefuse (Confined place start) system := by
  induction work generalizing system with
  | done value => exact confined
  | ask question next ih => exact ih _ (keeps.2 _) confined
  | attempt change next ih =>
      refine ⟨fun reason _ => ih _ (keeps.2 _) confined, fun changed succeeded => ?_⟩
      obtain ⟨kind, target, content, located, rfl⟩ := keeps.1.2.exists_put succeeded
      obtain rfl := (Collection.leadsTo_pathOf leads kind).eq_of_locate located
      have onward := confined.trans (.put_file (confined.tree.change succeeded))
      exact ⟨onward, ih _ (keeps.2 _) onward⟩

/-- Nothing is changed by work that may not, or where no path of a file leads anywhere. -/
theorem Disk.KeepsTo.stays_same (keeps : work.KeepsTo collection mayChange)
    (missing : mayChange → ∀ kind place, system.locate (collection.pathOf kind) ≠ .ok place) :
    work.Stays mayRefuse (fun later => later = system) system := by
  induction work with
  | done value => exact rfl
  | ask question next ih => exact ih _ (keeps.2 _)
  | attempt change next ih =>
      refine ⟨fun reason _ => ih _ (keeps.2 _), fun changed succeeded => ?_⟩
      obtain ⟨kind, place, content, located, -⟩ := keeps.1.2.exists_put succeeded
      exact absurd located (missing keeps.1.1 kind place)

/-- Work that changes nothing depends on the answers to its questions alone. -/
theorem Disk.KeepsTo.run_congr (keeps : work.KeepsTo collection False)
    (same : ∀ question : Question, question.KeepsTo collection →
      question.answer later = question.answer system) :
    (work.run later).1 = (work.run system).1 := by
  induction work with
  | done value => rfl
  | ask question next ih =>
      rw [Disk.run, Disk.run, same question keeps.1]
      exact ih _ (keeps.2 _)
  | attempt change next ih => exact keeps.1.1.elim

end

/-!
## Answers
-/

namespace FileSystem

variable {system later : FileSystem} {path place : Path}

/-- A directory has as many names wherever the same stands below it. -/
theorem length_names_congr (tree : system.IsTree) (laterTree : later.IsTree)
    (same : ∀ other, place <+: other → later.entry? other = system.entry? other) :
    (later.names place).length = (system.names place).length := by
  have nodup {any : FileSystem} (isTree : any.IsTree) : (any.below place).Nodup :=
    (List.Nodup.of_map _ isTree.nodup).filter _
  have perm : (later.below place).Perm (system.below place) := by
    refine (List.perm_ext_iff_of_nodup (nodup laterTree) (nodup tree)).mpr ?_
    rintro ⟨other, entry⟩
    rw [laterTree.mem_below_iff, tree.mem_below_iff]
    refine and_congr_right fun isBelow => ?_
    rw [same other isBelow]
  have listed (any : FileSystem) : any.names place = ((any.below place).filterMap fun entry =>
      if entry.1.length == place.length + 1 then entry.1.getLast? else none).mergeSort := by
    rw [names, below, List.filterMap_filter]
    congr 2
    funext entry
    cases isBelow place entry.1 <;> rfl
  rw [listed, listed, List.length_mergeSort, List.length_mergeSort]
  exact (perm.filterMap _).length_eq

theorem locate_of_resolve {entry : Entry} (found : system.resolve path = .ok (place, entry)) :
    system.locate path = .ok place := by
  obtain ⟨reached, located, rest⟩ := exists_of_bind_eq_ok found
  split at rest
  · cases rest
    exact located
  · cases rest

theorem resolve_congr (located : later.locate path = system.locate path)
    (same : ∀ place, system.locate path = .ok place → later.entry? place = system.entry? place) :
    later.resolve path = system.resolve path := by
  rw [resolve, resolve, located]
  cases found : system.locate path with
  | error reason => rfl
  | ok place =>
      have stands := same place found
      simp only [bind, Except.bind, stands]

end FileSystem

/-- What the files of a collection hold is answered alike where they are found at the same places
and the same stands there. -/
theorem Question.KeepsTo.answer_congr {question : Question} {system later : FileSystem}
    (keeps : question.KeepsTo collection) (tree : system.IsTree) (laterTree : later.IsTree)
    (located : ∀ kind, later.locate (collection.pathOf kind) = system.locate (collection.pathOf kind))
    (same : ∀ kind place, system.locate (collection.pathOf kind) = .ok place →
      ∀ other, place <+: other → later.entry? other = system.entry? other) :
    question.answer later = question.answer system := by
  have resolved (kind : StoreKind) :
      later.resolve (collection.pathOf kind) = system.resolve (collection.pathOf kind) :=
    FileSystem.resolve_congr (located kind) fun place found =>
      same kind place found place (List.prefix_refl place)
  have opened (kind : StoreKind) :
      later.openFile (collection.pathOf kind) = system.openFile (collection.pathOf kind) := by
    rw [FileSystem.openFile, FileSystem.openFile, resolved]
  cases question with
  | content path =>
      obtain ⟨kind, rfl⟩ := keeps
      rw [answer, answer, FileSystem.content, FileSystem.content, opened]
  | slice path offset count =>
      obtain ⟨kind, rfl⟩ := keeps
      rw [answer, answer, opened]
  | size path =>
      obtain ⟨kind, rfl⟩ := keeps
      rw [answer, answer, resolved]
      cases found : system.resolve (collection.pathOf kind) with
      | error reason => rfl
      | ok reached =>
          obtain ⟨place, entry⟩ := reached
          refine congrArg Except.ok ?_
          cases entry with
          | file content => rfl
          | directory =>
              have isLocated := FileSystem.locate_of_resolve found
              change 20 * (2 + (later.names place).length) = 20 * (2 + (system.names place).length)
              rw [FileSystem.length_names_congr tree laterTree (same kind place isLocated)]
  | _ => exact keeps.elim

/-!
## Actions
-/

namespace Action

/-- Whether the work of an action keeps to the files of a collection. -/
def KeepsTo (collection : Collection) (mayChange : Prop) (action : Action α) : Prop :=
  action.outcome.KeepsTo collection mayChange

variable {action : Action α} {next : α → Action β}

namespace KeepsTo

theorem pure (value : α) : Action.KeepsTo collection mayChange (pure value) := trivial

theorem throw (error : Error) : Action.KeepsTo collection mayChange (throw error : Action α) :=
  trivial

theorem of (result : Except Error α) : Action.KeepsTo collection mayChange (.of result) := trivial

theorem bind (keeps : action.KeepsTo collection mayChange)
    (rest : ∀ value, (next value).KeepsTo collection mayChange) :
    (action >>= next).KeepsTo collection mayChange := by
  refine Disk.KeepsTo.bind keeps fun outcome => ?_
  cases outcome with
  | ok value => exact rest value
  | error error => trivial

theorem bind_bind {last : β → Action γ} (keeps : action.KeepsTo collection mayChange)
    (rest : ∀ value, (next value >>= last).KeepsTo collection mayChange) :
    (action >>= next >>= last).KeepsTo collection mayChange := by
  rw [bind_assoc]
  exact keeps.bind rest

theorem on {path : Path} {work : Disk (Except OsError α)}
    (keeps : work.KeepsTo collection mayChange) :
    (Action.on path work).KeepsTo collection mayChange := by
  refine Disk.KeepsTo.bind keeps fun outcome => ?_
  cases outcome <;> trivial

theorem tryCatch {handler : Error → Action α} (keeps : action.KeepsTo collection mayChange)
    (handled : ∀ error, (handler error).KeepsTo collection mayChange) :
    (tryCatch action handler).KeepsTo collection mayChange := by
  refine Disk.KeepsTo.bind keeps fun outcome => ?_
  cases outcome with
  | ok value => trivial
  | error error => exact handled error

theorem ite {condition : Prop} [Decidable condition] {other : Action α}
    (keeps : action.KeepsTo collection mayChange) (others : other.KeepsTo collection mayChange) :
    (if condition then action else other).KeepsTo collection mayChange := by
  split
  · exact keeps
  · exact others

theorem mapM {items : List α} {work : α → Action β}
    (each : ∀ item, (work item).KeepsTo collection mayChange) :
    (items.mapM work).KeepsTo collection mayChange := by
  induction items with
  | nil => exact .pure []
  | cons item items ih =>
      rw [List.mapM_cons]
      exact (each item).bind fun value => ih.bind fun values => .pure _

end KeepsTo

end Action

namespace RecordFile

variable {ρ : Type} [StoredRecord ρ] {file : RecordFile ρ} (isFile : collection.IsFile file.path)
include isFile

theorem keepsTo_count : file.count.KeepsTo collection mayChange := by
  have asked : (Disk.size file.path).KeepsTo collection mayChange := ⟨isFile, fun _ => trivial⟩
  exact (Action.KeepsTo.on asked).bind fun _ => .of _

theorem keepsTo_checkId (id : RecordId) : (file.checkId id).KeepsTo collection mayChange := by
  refine (keepsTo_count isFile).bind fun held => ?_
  exact .ite (.throw _) (.pure ())

theorem keepsTo_read (id : RecordId) : (file.read id).KeepsTo collection mayChange := by
  have asked (count : Nat) :
      (Disk.slice file.path (offset ρ id) count).KeepsTo collection mayChange :=
    ⟨isFile, fun _ => trivial⟩
  exact (keepsTo_checkId isFile id).bind fun _ => (Action.KeepsTo.on (asked _)).bind fun _ => .of _

theorem keepsTo_readInUse (id : RecordId) : (file.readInUse id).KeepsTo collection mayChange :=
  (keepsTo_read isFile id).bind fun _ => .ite (.pure _) (.throw _)

theorem keepsTo_readAll : file.readAll.KeepsTo collection mayChange := by
  have asked : (Disk.content file.path).KeepsTo collection mayChange := ⟨isFile, fun _ => trivial⟩
  exact (Action.KeepsTo.on asked).bind fun _ => (Action.KeepsTo.of _).bind fun _ => .of _

theorem keepsTo_appendAll (records : List ρ) : (file.appendAll records).KeepsTo collection True := by
  have changed (bytes : List UInt8) :
      (Disk.change (.append file.path bytes)).KeepsTo collection True :=
    ⟨⟨trivial, isFile⟩, fun _ => trivial⟩
  refine (keepsTo_count isFile).bind fun first => ?_
  exact .ite (.throw _) ((Action.KeepsTo.on (changed _)).bind fun _ => .pure _)

theorem keepsTo_append (record : ρ) : (file.append record).KeepsTo collection True :=
  keepsTo_appendAll isFile [record]

theorem keepsTo_writeAt (id : RecordId) (record : ρ) :
    (file.writeAt id record).KeepsTo collection True := by
  have changed (bytes : List UInt8) :
      (Disk.change (.overwrite file.path (offset ρ id) bytes)).KeepsTo collection True :=
    ⟨⟨trivial, isFile⟩, fun _ => trivial⟩
  exact (keepsTo_checkId isFile id).bind fun _ => .on (changed _)

end RecordFile

namespace Collection

/-- Work on a file of the collection that is opened first. -/
theorem keepsTo_file (kind : StoreKind) {work : RecordFile kind.Record → Action α}
    (each : ∀ file : RecordFile kind.Record, collection.IsFile file.path →
      (work file).KeepsTo collection mayChange) :
    (collection.file kind.Record kind >>= work).KeepsTo collection mayChange := by
  have isFile : collection.IsFile (collection.pathOf kind) := ⟨kind, rfl⟩
  have asked : (Disk.slice (collection.pathOf kind) 0 headerSize).KeepsTo collection mayChange :=
    ⟨isFile, fun _ => trivial⟩
  unfold Collection.file RecordFile.openAs
  dsimp only
  split
  · exact .throw _
  · refine .bind_bind (.on asked) fun bytes => ?_
    split
    · exact .throw _
    · refine .bind_bind (.of _) fun header => ?_
      exact .bind_bind (RecordFile.keepsTo_count isFile) fun _ => each _ isFile

theorem keepsTo_walk {visit : RecordId → Action (α × Option RecordId)}
    (each : ∀ id, (visit id).KeepsTo collection mayChange) (endless : Error) (limit : Nat)
    (start : Option RecordId) : (walk visit endless limit start).KeepsTo collection mayChange := by
  induction limit generalizing start with
  | zero =>
      cases start with
      | none => exact .pure []
      | some => exact .throw endless
  | succ limit ih =>
      cases start with
      | none => exact .pure []
      | some id => exact (each id).bind fun (_, next) => (ih next).bind fun _ => .pure _

theorem keepsTo_verify : collection.verify.KeepsTo collection mayChange := by
  have opens (kind : StoreKind) {rest : Action Unit} (onward : rest.KeepsTo collection mayChange) :
      (collection.file kind.Record kind >>= fun _ => rest).KeepsTo collection mayChange :=
    keepsTo_file kind fun _ _ => onward
  unfold verify
  refine opens .node (opens .nodeId (opens .relationship (opens .label ?_)))
  exact opens .property (opens .string (opens .array (opens .index (.pure ()))))

theorem keepsTo_readLabels (id : RecordId) :
    (collection.readLabels id).KeepsTo collection mayChange :=
  keepsTo_file .label fun _ isFile => (RecordFile.keepsTo_readInUse isFile id).bind fun _ => .pure _

theorem keepsTo_addLabel (record : LabelRecord) :
    (collection.labels >>= fun file => file.append record).KeepsTo collection True :=
  keepsTo_file .label fun _ isFile => RecordFile.keepsTo_append isFile record

theorem keepsTo_addNode (labels properties : Option RecordId) :
    (collection.addNode labels properties).KeepsTo collection True := by
  refine keepsTo_file .node fun _ isFile => (RecordFile.keepsTo_append isFile _).bind fun id => ?_
  exact keepsTo_file .nodeId fun _ isFile =>
    (RecordFile.keepsTo_append isFile _).bind fun _ => .pure _

/-!
## Texts and properties
-/

theorem keepsTo_writeText (text : String) :
    (collection.writeText text).KeepsTo collection True := by
  refine keepsTo_file .string fun _ isFile => (RecordFile.keepsTo_count isFile).bind fun first => ?_
  exact (Action.KeepsTo.of _).bind fun records => RecordFile.keepsTo_appendAll isFile records

theorem keepsTo_readText (head : RecordId) :
    (collection.readText head).KeepsTo collection mayChange := by
  refine keepsTo_file .string fun _ isFile => (RecordFile.keepsTo_count isFile).bind fun limit => ?_
  refine (keepsTo_walk (fun id => ?_) _ limit (some head)).bind fun chunks => ?_
  · exact (RecordFile.keepsTo_readInUse isFile id).bind fun _ => .pure _
  · split
    · exact .pure _
    · exact .throw _

theorem keepsTo_keyNames : collection.keyNames.KeepsTo collection mayChange :=
  keepsTo_file .index fun _ isFile => (RecordFile.keepsTo_readAll isFile).bind fun _ => .pure _

theorem keepsTo_planProperties (properties : List Property) :
    (collection.planProperties properties).KeepsTo collection mayChange := by
  refine keepsTo_keyNames.bind fun known => (Action.KeepsTo.of _).bind fun plan => ?_
  refine .ite ?_ (.pure plan)
  refine keepsTo_file .property fun _ isFile => (RecordFile.keepsTo_count isFile).bind fun first => ?_
  exact .ite (.throw _) (.pure plan)

theorem keepsTo_writeValue (key : Nat) (value : PropertyValue) :
    (collection.writeValue key value).KeepsTo collection True := by
  cases value with
  | bool => exact .of _
  | int => exact .of _
  | text text => exact (keepsTo_writeText text).bind fun _ => .of _

theorem keepsTo_writeProperties (plan : PropertyPlan) :
    (collection.writeProperties plan).KeepsTo collection True := by
  have rest : (do
      let blocks ← plan.entries.mapM fun entry => collection.writeValue entry.1 entry.2
      let file ← collection.properties
      let first ← file.count
      let records ← Action.of
        (propertyRecords first 0 (slices blocksPerRecord plan.recordCount blocks))
      return some (← file.appendAll records) : Action (Option RecordId)).KeepsTo collection True := by
    refine (Action.KeepsTo.mapM fun _ => keepsTo_writeValue _ _).bind fun blocks => ?_
    refine keepsTo_file .property fun _ isFile => ?_
    refine (RecordFile.keepsTo_count isFile).bind fun first => ?_
    refine (Action.KeepsTo.of _).bind fun records => ?_
    exact (RecordFile.keepsTo_appendAll isFile records).bind fun _ => .pure _
  unfold writeProperties
  refine .ite (.pure none) (.ite ?_ rest)
  refine (Action.KeepsTo.of _).bind fun records => ?_
  exact keepsTo_file .index fun _ isFile =>
    (RecordFile.keepsTo_appendAll isFile records).bind fun _ => rest

theorem keepsTo_readBlock (keys : List String) (id : RecordId) (block : PropertyBlock) :
    (collection.readBlock keys id block).KeepsTo collection mayChange := by
  unfold readBlock
  split
  · exact .throw _
  · split
    · exact .pure _
    · exact .pure _
    · exact (keepsTo_readText _).bind fun _ => .pure _
    · exact .throw _

theorem keepsTo_readProperties (head : Option RecordId) :
    (collection.readProperties head).KeepsTo collection mayChange := by
  cases head with
  | none => exact .pure []
  | some head =>
      refine keepsTo_file .property fun _ isFile => ?_
      refine (RecordFile.keepsTo_count isFile).bind fun limit => keepsTo_keyNames.bind fun keys => ?_
      refine (keepsTo_walk (fun id => ?_) _ limit (some head)).bind fun _ => .pure _
      refine (RecordFile.keepsTo_readInUse isFile id).bind fun record => ?_
      exact (Action.KeepsTo.mapM fun block => keepsTo_readBlock keys id block).bind fun _ => .pure _

/-!
## Nodes and relationships
-/

theorem keepsTo_createNode (node : Node) :
    (collection.createNode node).KeepsTo collection True := by
  refine (Action.KeepsTo.of _).bind fun _ => (Action.KeepsTo.of _).bind fun record => ?_
  refine (keepsTo_planProperties _).bind fun plan => ?_
  refine keepsTo_verify.bind fun _ => .bind ?_ fun _ => ?_
  · cases record with
    | none => exact .pure none
    | some record => exact (keepsTo_addLabel record).bind fun _ => .pure _
  · exact (keepsTo_writeProperties plan).bind fun _ => (keepsTo_addNode _ _).bind fun _ => .pure _

theorem keepsTo_relationshipsOf (id : RecordId) (head : Option RecordId) :
    (collection.relationshipsOf id head).KeepsTo collection mayChange := by
  refine keepsTo_file .relationship fun _ isFile => ?_
  refine (RecordFile.keepsTo_count isFile).bind fun limit => ?_
  refine keepsTo_walk (fun each => ?_) _ limit head
  exact (RecordFile.keepsTo_readInUse isFile each).bind fun _ => .pure _

theorem keepsTo_getNode (id : RecordId) : (collection.getNode id).KeepsTo collection mayChange := by
  refine keepsTo_file .node fun _ isFile => ?_
  refine (RecordFile.keepsTo_readInUse isFile id).bind fun record => ?_
  have rest (labels : List String) : (do
      let stored ← collection.readProperties record.properties
      let relationships ← collection.relationshipsOf id record.relationships
      return {
        id := some id, name := Engine.nameOf? stored, labels
        properties := stored.filter (!Engine.isName ·), relationships } :
          Action Node).KeepsTo collection mayChange :=
    (keepsTo_readProperties record.properties).bind fun _ =>
      (keepsTo_relationshipsOf id record.relationships).bind fun _ => .pure _
  dsimp only
  split
  · exact (keepsTo_readLabels _).bind rest
  · exact rest []

section

variable {nodes : RecordFile NodeRecord} {file : RecordFile RelationshipRecord}

theorem keepsTo_endpoint (isFile : collection.IsFile nodes.path) (id : RecordId) :
    (endpoint nodes id).KeepsTo collection mayChange := by
  refine (RecordFile.keepsTo_readInUse isFile id).tryCatch fun error => ?_
  split
  · exact .throw _
  · exact .throw _

theorem keepsTo_linkBack (isFile : collection.IsFile file.path) (node : RecordId)
    (former : Option RecordId) (id : RecordId) :
    (linkBack file node former id).KeepsTo collection True := by
  cases former with
  | none => exact .pure ()
  | some head =>
      exact (RecordFile.keepsTo_read isFile head).bind fun _ => RecordFile.keepsTo_writeAt isFile _ _

end

theorem keepsTo_createRelationship (relationship : Relationship) :
    (collection.createRelationship relationship).KeepsTo collection True := by
  refine keepsTo_file .node fun nodes isNodes => ?_
  refine (keepsTo_endpoint isNodes _).bind fun source => ?_
  refine (keepsTo_endpoint isNodes _).bind fun target => ?_
  refine (Action.KeepsTo.of _).bind fun _ => .ite (.throw _) ?_
  refine (Action.KeepsTo.of _).bind fun kind => (keepsTo_planProperties _).bind fun plan => ?_
  refine keepsTo_verify.bind fun _ => keepsTo_file .label fun _ isLabels => ?_
  refine (RecordFile.keepsTo_append isLabels kind).bind fun _ => ?_
  refine (keepsTo_writeProperties plan).bind fun properties => ?_
  refine keepsTo_file .relationship fun file isFile => ?_
  refine (RecordFile.keepsTo_append isFile _).bind fun id => ?_
  refine (keepsTo_linkBack isFile _ _ id).bind fun _ => ?_
  have ends : (do
      nodes.writeAt relationship.source { source with relationships := some id }
      if relationship.source ≠ relationship.target then
        nodes.writeAt relationship.target { target with relationships := some id }
      return { relationship with id := some id } : Action Relationship).KeepsTo collection True := by
    refine (RecordFile.keepsTo_writeAt isNodes _ _).bind fun _ => .ite ?_ (.pure _)
    exact (RecordFile.keepsTo_writeAt isNodes _ _).bind fun _ => .pure _
  exact .ite ((keepsTo_linkBack isFile _ _ id).bind fun _ => ends) ends

theorem keepsTo_getRelationship (id : RecordId) :
    (collection.getRelationship id).KeepsTo collection mayChange := by
  refine keepsTo_file .relationship fun _ isFile => ?_
  refine (RecordFile.keepsTo_readInUse isFile id).bind fun record => ?_
  refine (keepsTo_readLabels record.kind).bind fun labels => ?_
  split
  · exact .throw _
  · exact (keepsTo_readProperties record.properties).bind fun _ => .pure _

end Collection

end GraphStore
