import GraphStore.Engine.Nodes
import GraphStore.Proofs.Collection.Writing

/-!
# Nodes that are refused

A node is checked against all files of its collection before the first of them is changed. Main
statement: whatever the files hold, a node that is refused while there are numbers for its records
leaves the file system as it was.
-/

set_option autoImplicit false

namespace GraphStore

open StoredRecord

/-- How many records of a kind a node takes. The keys of its properties have a limit of their
own. -/
def Node.recordCount (node : Node) : StoreKind → Nat
  | .node => 1
  | .nodeId => 1
  | .label => if node.labels.isEmpty then 0 else 1
  | .property => sliceCount blocksPerRecord (Engine.storedProperties node).length
  | .string => ((Engine.storedProperties node).map fun property => property.value.textCount).sum
  | .relationship => 0
  | .array => 0
  | .index => 0

/-- Whether all files that can be read have numbers left for the records of a node. -/
def Collection.HasRoom (collection : Collection) (node : Node) (system : FileSystem) : Prop :=
  ∀ kind bytes, system.content (collection.pathOf kind) = .ok bytes →
    (bytes.length - headerSize) / kind.recordSize + node.recordCount kind < RecordFile.idLimit

/-- Whether all files that can be read have numbers left for so many more records. -/
def Collection.HasRoomFor (collection : Collection) (more : StoreKind → Nat) (system : FileSystem) :
    Prop :=
  ∀ kind bytes, system.content (collection.pathOf kind) = .ok bytes →
    (bytes.length - headerSize) / kind.recordSize + more kind < RecordFile.idLimit

namespace Collection

variable {collection : Collection}

theorem asks_planProperties (properties : List Property) :
    (collection.planProperties properties).Asks := by
  unfold planProperties
  refine asks_keyNames.bind fun known => (Action.asks_of _).bind fun plan => ?_
  dsimp only
  split
  · refine (asks_file .property).bind fun file => (RecordFile.asks_count _).bind fun first => ?_
    split
    · exact Action.asks_throw _
    · exact Action.asks_pure _
  · exact Action.asks_pure _

end Collection

namespace Opened

variable {opened : Opened} {counts : Counts} {system last : FileSystem}

theorem Sized.roomFor {more : StoreKind → Nat} (sized : opened.Sized counts system)
    (room : opened.collection.HasRoomFor more system) (kind : StoreKind) :
    counts kind + more kind < RecordFile.idLimit := by
  obtain ⟨content, file, length, _⟩ := (sized kind).file
  have read : system.content (opened.collection.pathOf kind) = .ok content.toList := by
    rw [FileSystem.content, file.openFile_eq]
    rfl
  have room := room kind content.toList read
  rwa [length, Nat.add_sub_cancel_left, kind.recordSize_eq, Nat.mul_div_cancel _ kind.size_pos]
    at room

theorem Sized.room {node : Node} (sized : opened.Sized counts system)
    (room : opened.collection.HasRoom node system) (kind : StoreKind) :
    counts kind + node.recordCount kind < RecordFile.idLimit := sized.roomFor room kind

theorem length_of_runOn_readAll {kind : StoreKind} {records : List kind.Record}
    (sized : opened.Sized counts system)
    (read : (opened.file kind).readAll.runOn system = (.ok records, last)) :
    records.length = counts kind := by
  obtain ⟨⟨content, file, length, _⟩, few⟩ := sized kind
  obtain ⟨bytes, asked, rest⟩ := Action.Asks.exists_of_runOn_bind
    (Action.asks_on (opened.file kind).path fun _ => rfl) read
  have given := Action.run_of_runOn_on asked
  rw [Disk.run_eq_trace] at given
  have same : bytes = content.toList := by
    have traced := file.trace_content
    change (Disk.content (opened.file kind).path).trace system = _ at traced
    rw [traced] at given
    exact (Except.ok.inj (congrArg Prod.fst given)).symm
  subst same
  obtain ⟨held, counted, rest⟩ := Action.exists_of_runOn_of rest
  have known := (RecordFile.countOf_eq_ok_iff (opened.file kind).path kind.size_pos (by omega)).mpr
    ⟨length, few⟩
  obtain rfl : held = counts kind := Except.ok.inj (counted.symm.trans known)
  have decoded := forall₂_of_mapM_eq_ok (congrArg Prod.fst rest)
  rw [← decoded.length_eq, length_slices]

theorem Sized.file_of_runOn {kind : StoreKind} {file : RecordFile kind.Record}
    (sized : opened.Sized counts system)
    (found : (opened.collection.file kind.Record kind).runOn system = (.ok file, system)) :
    file = opened.file kind := by
  rw [gives_file kind system sized] at found
  exact (Except.ok.inj (congrArg Prod.fst found)).symm

/-- The plan of some properties is checked against what the files hold. -/
theorem Sized.exists_checked {properties : List Property} {plan : PropertyPlan}
    (sized : opened.Sized counts system)
    (planned : (opened.collection.planProperties properties).runOn system = (.ok plan, last)) :
    ∃ known, plan.Checked known ∧ known.length = counts .index ∧
      plan.entries.map Prod.snd = properties.map Property.value ∧
      (1 < plan.recordCount →
        counts .property + plan.recordCount ≤ Collection.shortIdLimit) := by
  unfold Collection.planProperties at planned
  dsimp only at planned
  obtain ⟨known, named, added⟩ := Collection.asks_keyNames.exists_of_runOn_bind planned
  obtain ⟨middle, all, ended⟩ := Action.exists_of_runOn_of added
  have length : known.length = counts .index := by
    obtain ⟨file, found, read⟩ := (Collection.asks_file .index).exists_of_runOn_bind named
    obtain rfl := sized.file_of_runOn found
    obtain ⟨records, held, returned⟩ := (RecordFile.asks_readAll _).exists_of_runOn_bind read
    cases returned
    rw [List.length_map]
    exact length_of_runOn_readAll sized held
  obtain ⟨_, more, entries, plans⟩ := PropertyPlan.addAll_eq_ok all
  rw [List.nil_append] at entries
  have values : middle.entries.map Prod.snd = properties.map Property.value := by
    rw [entries, PropertyPlan.map_snd_of_plans plans]
  have checked := (PropertyPlan.checked_empty known).addAll all
  split at ended
  next many =>
    obtain ⟨file, found, numbered⟩ := (Collection.asks_file .property).exists_of_runOn_bind ended
    obtain rfl := sized.file_of_runOn found
    obtain ⟨first, counted, ended⟩ := (RecordFile.asks_count _).exists_of_runOn_bind numbered
    obtain rfl : first = counts .property := by
      have known := gives_count .property system sized
      rw [known] at counted
      exact (Except.ok.inj (congrArg Prod.fst counted)).symm
    split at ended
    · cases ended
    next near =>
      cases ended
      exact ⟨known, checked, length, values, fun _ => by omega⟩
  next few =>
    cases ended
    exact ⟨known, checked, length, values, fun many => absurd many few⟩

theorem completes_appendLabels {labels : List String} {record : Option LabelRecord}
    {before : Counts} (made : Collection.labelRecord? labels = .ok record)
    (room : before .label + (if labels.isEmpty then 0 else 1) < RecordFile.idLimit) :
    opened.Completes (record.mapM fun record => do (← opened.collection.labels).append record)
      before fun _ counts => ∀ kind, kind ≠ .label → counts kind = before kind := by
  unfold Collection.labelRecord? at made
  split at made
  next empty =>
    cases made
    rw [Option.mapM_none]
    exact (Gives.pure none).completes fun _ _ => rfl
  next filled =>
    obtain ⟨record, given, rfl⟩ := exists_of_map_eq_ok made
    have appended : opened.Completes (do (← opened.collection.labels).append record) before
        fun _ counts => counts = before.grow .label 1 := by
      refine (gives_file .label).bind_completes (completes_appendAll ?_ ?_ rfl)
      · simpa [filled] using room
      · intro other member endian
        obtain rfl := List.mem_singleton.mp member
        exact (LabelRecord.faithful_of_ofLabels given).length_encode endian
    refine appended.bind fun head counts grown => ?_
    refine (Gives.pure _).completes fun kind different => ?_
    rw [grown, Counts.grow_of_ne different]

theorem completes_addNode {labels properties : Option RecordId} {before : Counts}
    (nodeRoom : before .node + 1 < RecordFile.idLimit)
    (idRoom : before .nodeId + 1 < RecordFile.idLimit) :
    opened.Completes (opened.collection.addNode labels properties) before fun _ _ => True := by
  have appended : opened.Completes ((opened.file .node).append (.fresh labels properties)) before
      fun _ counts => counts .nodeId = before .nodeId := by
    refine completes_appendAll nodeRoom ?_ (Counts.grow_of_ne (by decide) _)
    exact fun record _ endian => NodeRecord.length_encode record endian
  refine (gives_file .node).bind_completes (appended.bind fun id counts same => ?_)
  refine (gives_file .nodeId).bind_completes ?_
  have numbered : opened.Completes
      ((opened.file .nodeId).append { inUse := true, node := id }) counts fun _ _ => True := by
    refine completes_appendAll ?_ ?_ trivial
    · rwa [same]
    · exact fun record _ endian => (NodeIdRecord.faithful record).length_encode endian
  exact numbered.bind fun _ _ _ => (Gives.pure id).completes trivial

/-- A node that has passed all checks is stored while there are numbers for its records. -/
theorem completes_storeNode {node : Node} {record : Option LabelRecord} {plan : PropertyPlan}
    {known : List String} (made : Collection.labelRecord? node.labels = .ok record)
    (checked : plan.Checked known) (counted : known.length = counts .index)
    (values : plan.entries.map Prod.snd = (Engine.storedProperties node).map Property.value)
    (near : 1 < plan.recordCount → counts .property + plan.recordCount ≤ Collection.shortIdLimit)
    (enough : ∀ kind, counts kind + node.recordCount kind < RecordFile.idLimit) :
    opened.Completes (do
      let labels ← record.mapM fun record => do (← opened.collection.labels).append record
      let properties ← opened.collection.writeProperties plan
      let id ← opened.collection.addNode labels properties
      return ({ node with id := some id, relationships := [] }, .fresh labels properties)) counts
      fun (_ : Node × NodeRecord) _ => True := by
  have entryCount : plan.recordCount = node.recordCount .property := by
    have length := congrArg List.length values
    rw [List.length_map, List.length_map] at length
    rw [PropertyPlan.recordCount, length]
    rfl
  have textCount : (plan.entries.map fun entry => entry.2.textCount).sum =
      node.recordCount .string := by
    have counts := congrArg (fun values => (values.map PropertyValue.textCount).sum) values
    rwa [List.map_map, List.map_map] at counts
  refine (completes_appendLabels made (enough .label)).bind fun labels middle same => ?_
  have sameIndex := same .index (by decide)
  have sameProperty := same .property (by decide)
  have sameString := same .string (by decide)
  have properties : opened.Completes (opened.collection.writeProperties plan) middle
      fun _ later => later .node = middle .node ∧ later .nodeId = middle .nodeId := by
    refine Opened.completes_writeProperties checked (counted.trans sameIndex.symm) ?_ ?_ ?_
    · rwa [sameProperty]
    · rw [sameString, textCount]
      exact enough .string
    · rw [sameProperty, entryCount]
      exact enough .property
  refine properties.bind fun head later kept => ?_
  obtain ⟨keptNode, keptId⟩ := kept
  have nodeRoom : later .node + 1 < RecordFile.idLimit := by
    rw [keptNode, same .node (by decide)]
    exact enough .node
  have idRoom : later .nodeId + 1 < RecordFile.idLimit := by
    rw [keptId, same .nodeId (by decide)]
    exact enough .nodeId
  refine (Opened.completes_addNode nodeRoom idRoom).bind fun id _ _ => ?_
  exact (Opened.Gives.pure _).completes trivial

end Opened

/-- A node that is refused leaves no trace, whatever the files of its collection hold. -/
theorem Engine.createNode_error_changes_nothing {engine : Engine} {name : String} {node : Node}
    {system last : FileSystem} {error : Error}
    (failed : (engine.createNode name node).runOn system = (.error error, last))
    (room : (Collection.mk (engine.directory name)).HasRoom node system) : last = system := by
  unfold Engine.createNode at failed
  rcases (Action.asks_of _).same_or_of_runOn_bind failed with same | ⟨collection, found, created⟩
  · exact same
  obtain rfl : collection = ⟨engine.directory name⟩ := by
    have listed : engine.collection name = .ok collection := congrArg Prod.fst found
    unfold Engine.collection at listed
    split at listed
    · exact (Except.ok.inj listed).symm
    · cases listed
  -- Each check either ends the work or passes, and all of them only ask.
  unfold Collection.createNode at created
  rcases (Action.asks_of _).same_or_of_runOn_bind created with same | ⟨_, _, labelled⟩
  · exact same
  rcases (Action.asks_of _).same_or_of_runOn_bind labelled with same | ⟨record, labels, keyed⟩
  · exact same
  rcases (Collection.asks_planProperties _).same_or_of_runOn_bind keyed with
    same | ⟨plan, planned, verified⟩
  · exact same
  rcases Collection.asks_verify.same_or_of_runOn_bind verified with same | ⟨_, passed, written⟩
  · exact same
  -- What is left to do cannot fail.
  obtain ⟨opened, counts, here, sized⟩ := Collection.exists_sized_of_verify passed
  rw [← here] at planned written room
  obtain ⟨known, checked, counted, values, near⟩ := sized.exists_checked planned
  have enough := sized.room room
  have made : Collection.labelRecord? node.labels = .ok record := congrArg Prod.fst labels
  exact absurd written
    ((Opened.completes_storeNode made checked counted values near enough).ne_error sized)

/-- A database with one collection. -/
def films : Engine :=
  ⟨["data"], ⟨.little, false⟩, ⟨["data", "strand.catalog"], 0, 0, ["films"]⟩⟩

/-- The files of the collection, of which only that of the keys is left, with a torn record. -/
def tornKeys : FileSystem :=
  ⟨[(["data"], .directory), (["data", "films"], .directory),
    (["data", "films", "props.index"],
      .file (Content.empty.append ((StoreHeader.fresh .index .little).encode ++ [1])))]⟩

theorem createNode_torn_keys_changes_nothing :
    ((films.createNode "films" (.named "Alien")).runOn tornKeys).1 =
        .error (.malformedRecord "property key" 32 1) ∧
      (Collection.mk (films.directory "films")).HasRoom (.named "Alien") tornKeys ∧
      ((films.createNode "films" (.named "Alien")).runOn tornKeys).2 = tornKeys := by
  have failed : ((films.createNode "films" (.named "Alien")).runOn tornKeys).1 =
      .error (.malformedRecord "property key" 32 1) := by decide +kernel
  have each : ∀ kind ∈ StoreKind.all,
      (tornKeys.content ((Collection.mk (films.directory "films")).pathOf kind)).toOption.all
        (fun bytes => (bytes.length - headerSize) / kind.recordSize +
          (Node.named "Alien").recordCount kind < RecordFile.idLimit) = true := by decide +kernel
  have room : (Collection.mk (films.directory "films")).HasRoom (.named "Alien") tornKeys := by
    intro kind bytes read
    have here := each kind kind.mem_all
    rw [read] at here
    exact of_decide_eq_true here
  cases ran : (films.createNode "films" (.named "Alien")).runOn tornKeys with
  | mk outcome last =>
      rw [ran] at failed
      obtain rfl : outcome = .error (.malformedRecord "property key" 32 1) := failed
      exact ⟨rfl, room, Engine.createNode_error_changes_nothing ran room⟩

end GraphStore
