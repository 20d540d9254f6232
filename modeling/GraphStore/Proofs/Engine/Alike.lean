import GraphStore.Proofs.Collection.InStep
import GraphStore.Proofs.Engine.Creation

/-!
# Engines in step

An engine at work on two file systems that hold the same, on each of which it may have other options
and another clock. Main statements: collections are made and deleted alike on both, and catalogs are
written and read alike.
-/

set_option autoImplicit false

namespace GraphStore

/-- Whether two file systems hold the same, whatever the byte orders of store files and the times in
catalogs. -/
abbrev FileSystem.Alike : FileSystem → FileSystem → Prop := FileSystem.Matches Twins

theorem FileSystem.Alike.refl (system : FileSystem) : system.Alike system :=
  FileSystem.matches_refl (fun _ bytes => .same bytes) system

theorem Action.InStep.parallel {α : Type} {action : Action α}
    (inStep : ∀ first second, action.InStep first second) :
    Action.Parallel FileSystem.Alike Eq action action := by
  intro system other alike
  obtain ⟨agree, aligned⟩ := inStep _ _ system other ⟨alike, rfl, rfl⟩
  exact ⟨agree, aligned.matching⟩

theorem Disk.IsPlain.inStep {α : Type} {work : Disk α} (plain : work.IsPlain) :
    Disk.Parallel FileSystem.Alike Eq work work := plain.parallel Twins.isEven

/-!
## Catalogs
-/

/-- Whether two catalogs of one directory list the same names. -/
structure Catalog.Alike (directory : Path) (catalog other : Catalog) : Prop where
  path : catalog.path = directory.child Catalog.fileName
  same : other.path = catalog.path
  names : other.names = catalog.names

namespace Catalog

variable {directory : Path} {catalog other : Catalog} {now later : Int64}

/-- Of the bytes of a catalog, all but those of its times depend on its names alone. -/
theorem twins_encode {place : Path}
    (noStore : ∀ kind : StoreKind, place.getLast? ≠ some kind.fileName)
    (names : other.names = catalog.names) : Twins place catalog.encode other.encode := by
  have shape (listed : Catalog) (same : listed.names = catalog.names) : listed.encode =
      magic ++ Endian.little.write 2 version ++ Endian.little.write 4 catalog.names.length ++
        (encodeTime listed.createdAt ++ encodeTime listed.updatedAt) ++
        (List.replicate 66 0 ++
          catalog.names.flatMap fun name => Text.Utf8.encode name ++ [lineBreak]) := by
    rw [encode_eq, same]
    simp only [List.append_assoc]
  have front : (magic ++ Endian.little.write 2 version ++
      Endian.little.write 4 catalog.names.length).length = 10 := by simp [magic]
  have times (listed : Catalog) :
      (encodeTime listed.createdAt ++ encodeTime listed.updatedAt).length = 16 := by
    simp [encodeTime]
  rw [shape catalog rfl, shape other names]
  exact .dated_append noStore front (times catalog) (times other) _

theorem decode_congr {left right : List UInt8} (length : left.length = right.length)
    (front : left.take 10 = right.take 10) (back : left.drop 26 = right.drop 26) (path : Path) :
    Agree (fun here there => here.path = path ∧ there.path = path ∧ there.names = here.names)
      (decode path left) (decode path right) := by
  have mark : left.take 4 = right.take 4 := by
    simpa only [List.take_take, Nat.reduceLeDiff, min_eq_left] using congrArg (List.take 4) front
  have version : (left.drop 4).take 2 = (right.drop 4).take 2 := by
    have cut := congrArg (fun bytes => (bytes.drop 4).take 2) front
    simpa only [List.drop_take, List.take_take, Nat.reduceSub, Nat.reduceLeDiff, min_eq_left] using cut
  have names : left.drop metadataSize = right.drop metadataSize := by
    have cut := congrArg (List.drop 66) back
    rwa [List.drop_drop, List.drop_drop] at cut
  rw [decode, decode, length, mark, version, names]
  dsimp only
  split
  next => exact .error _
  next =>
    split
    next => exact .error _
    next =>
      split
      next => exact .error _
      next => exact (Agree.same _).bind fun listed _ same => same ▸ .ok ⟨rfl, rfl, rfl⟩

namespace Alike

theorem contains (alike : Alike directory catalog other) (name : String) :
    other.contains name = catalog.contains name := by
  rw [Catalog.contains, Catalog.contains, alike.names]

theorem add (alike : Alike directory catalog other) (now later : Int64) (name : String) :
    Agree (Alike directory) (catalog.add now name) (other.add later name) := by
  rw [Catalog.add, Catalog.add, alike.contains, alike.names]
  refine (Agree.same _).bind fun _ _ _ => ?_
  split
  next => exact .error _
  next => exact .ok ⟨alike.path, alike.same, rfl⟩

theorem remove (alike : Alike directory catalog other) (now later : Int64) (name : String) :
    Agree (Alike directory) (catalog.remove now name) (other.remove later name) := by
  rw [Catalog.remove, Catalog.remove, alike.contains, alike.names]
  split
  next => exact .ok ⟨alike.path, alike.same, rfl⟩
  next => exact .error _

end Alike

/-!
## Catalogs on disk
-/

private theorem noStore_of_fileName {system : FileSystem} {place : Path}
    (located : system.locate (directory.child fileName) = .ok place) (kind : StoreKind) :
    place.getLast? ≠ some kind.fileName := by
  rw [FileSystem.getLast?_of_child located (by decide)]
  cases kind <;> decide

private theorem noStore_of_temporaryName {system : FileSystem} {place : Path}
    (located : system.locate (directory.child Engine.temporaryName) = .ok place)
    (kind : StoreKind) : place.getLast? ≠ some kind.fileName := by
  rw [FileSystem.getLast?_of_child located (by decide)]
  cases kind <;> decide

theorem Alike.flush (alike : Alike directory catalog other) :
    Action.Parallel FileSystem.Alike Eq catalog.flush other.flush := by
  have written : Disk.Parallel FileSystem.Alike Eq
      (Disk.write (directory.child Engine.temporaryName) catalog.encode)
      (Disk.write (directory.child Engine.temporaryName) other.encode) :=
    Disk.parallel_write Twins.isEven fun system place located =>
      twins_encode (noStore_of_temporaryName located) alike.names
  have moved : Disk.Parallel FileSystem.Alike Eq
      (Disk.change (.rename (directory.child Engine.temporaryName) (directory.child fileName)))
      (Disk.change (.rename (directory.child Engine.temporaryName) (directory.child fileName))) :=
    .change fun system other alike => alike.change_rename fun origin goal located target rest _ _ =>
      Twins.move (noStore_of_temporaryName located) (noStore_of_fileName target) rest
  rw [Catalog.flush, Catalog.flush, alike.same, alike.path, Engine.temporaryPath_child]
  exact (Action.Parallel.on_same written).bind_same fun _ => .on_same moved

/-- Whether two files are read as catalogs that list the same names, or with the same fault. -/
def ReadAlike (directory : Path) (left right : List UInt8) : Prop :=
  Agree (Alike directory) (decode (directory.child fileName) left)
    (decode (directory.child fileName) right)

theorem ReadAlike.of_twins {place : Path} {left right : List UInt8}
    (noStore : ∀ kind : StoreKind, place.getLast? ≠ some kind.fileName)
    (twins : Twins place left right) : ReadAlike directory left right := by
  have read (length : left.length = right.length) (front : left.take 10 = right.take 10)
      (back : left.drop 26 = right.drop 26) : ReadAlike directory left right :=
    (decode_congr length front back _).imp fun _ _ same =>
      ⟨same.1, same.2.1.trans same.1.symm, same.2.2⟩
  cases twins with
  | same => exact read rfl rfl rfl
  | store isStore => exact absurd isStore (noStore _)
  | dated _ length front back => exact read length front back

theorem parallel_load (directory : Path) :
    Action.Parallel FileSystem.Alike (Alike directory) (load (directory.child fileName))
      (load (directory.child fileName)) := by
  have asked : Disk.Parallel FileSystem.Alike (Agree (ReadAlike directory))
      (Disk.content (directory.child fileName)) (Disk.content (directory.child fileName)) := by
    refine .ask fun system other alike => (alike.openFile _).map ?_
    rintro ⟨place, content⟩ ⟨_, changed⟩ ⟨rfl, file, -, twins⟩
    exact .of_twins (noStore_of_fileName file.located) twins
  refine Action.Parallel.bind (?_ : Action.Parallel _ (ReadAlike directory) _ _) ?_
  · refine Disk.Parallel.bind asked fun left right agree => ?_
    cases agree with
    | ok fit => exact .pure (.ok fit)
    | error cause => exact .pure (.error _)
  · intro left right read
    unfold ReadAlike at read
    generalize decode (directory.child fileName) left = here,
      decode (directory.child fileName) right = there at read
    cases read with
    | ok fit => exact .pure fit
    | error reason => exact .throw _

theorem parallel_loadOrCreate (directory : Path) (now later : Int64) :
    Action.Parallel FileSystem.Alike (Alike directory) (loadOrCreate directory now)
      (loadOrCreate directory later) := by
  have present := (Disk.isPlain_present (directory.child fileName)).inStep
  refine Action.Parallel.bind_same ?_ fun present => ?_
  · refine Disk.Parallel.bind present fun answer _ same => same ▸ ?_
    cases answer with
    | ok => exact .pure (.same _)
    | error => exact .pure (.same _)
  · cases present with
    | true => exact parallel_load directory
    | false =>
        have made : Alike directory (fresh (directory.child fileName) now)
            (fresh (directory.child fileName) later) := ⟨rfl, rfl, rfl⟩
        refine Disk.Parallel.bind made.flush fun answer reply agree => ?_
        cases agree with
        | ok => exact .pure (.ok made)
        | error => exact .pure (.error _)

end Catalog

/-!
## Engines
-/

/-- Whether two engines serve one directory and list the same collections. -/
structure Engine.Alike (engine other : Engine) : Prop where
  root : other.root = engine.root
  catalog : engine.catalog.Alike engine.root other.catalog

namespace Engine

theorem parallel_openAt (root : Path) (options others : EngineOptions) (now later : Int64) :
    Action.Parallel FileSystem.Alike Engine.Alike (openAt root options now)
      (openAt root others later) := by
  have made := (Disk.isPlain_makeDirectories root.length root).inStep
  refine (Action.Parallel.lift made).bind_same fun made => ?_
  cases made with
  | error => exact .throw _
  | ok =>
      refine (Catalog.parallel_loadOrCreate root now later).bind fun catalog other alike => ?_
      exact .pure ⟨rfl, alike⟩

/-!
## Making collections
-/

theorem parallel_clearLeftover (directory : Path) :
    Action.Parallel FileSystem.Alike Eq (clearLeftover directory) (clearLeftover directory) := by
  refine (Action.Parallel.lift (Disk.isPlain_names directory).inStep).bind_same fun listed => ?_
  cases listed with
  | error => exact .pure rfl
  | ok names =>
      refine .ite (fun _ => ?_) fun _ => .pure rfl
      exact .on_same (Disk.isPlain_removeTree directory).inStep

section

open Collection (Making)

variable {collection : Collection} {done rest : List Making} {system other : FileSystem}

/-- In an order in which files can be made, a header is written once, behind the making of its
file. -/
private theorem ready_of_steps {order : Collection.MakingOrder} {kind : StoreKind}
    (cut : order.steps = done ++ .header kind :: rest) :
    .file kind ∈ done ∧ .header kind ∉ done := by
  obtain ⟨same, ordered⟩ := order.isOrder
  have nodup : order.steps.Nodup := same.nodup_iff.mpr (by decide)
  rw [cut] at nodup
  have bare : .header kind ∉ done := fun member =>
    (List.nodup_append.mp nodup).2.2 _ member _ List.mem_cons_self rfl
  refine ⟨?_, bare⟩
  by_contra missing
  have later := ordered kind
  rw [cut, List.idxOf_append_of_notMem bare, List.idxOf_cons_self,
    List.idxOf_append_of_notMem missing] at later
  omega

/-- What is known while the files of a collection are made: one that has no header yet is empty on
both file systems. -/
structure Begun (collection : Collection) (done : List Making) (system other : FileSystem) :
    Prop where
  alike : system.Alike other
  empty (kind : StoreKind) (made : .file kind ∈ done) (bare : .header kind ∉ done) :
    ∃ place, system.HasFile (collection.pathOf kind) place .empty ∧
      other.HasFile (collection.pathOf kind) place .empty

theorem Begun.put (begun : Begun collection done system other) {step : Making} {place : Path}
    {left right : Content} (located : system.locate (collection.pathOf step.kind) = .ok place)
    (noDirectory : system.entry? place ≠ some .directory)
    (noDirectoryThere : other.entry? place ≠ some .directory)
    (twins : Twins place left.toList right.toList)
    (fills : step = .header step.kind ∨ left = .empty ∧ right = .empty) :
    Begun collection (done ++ [step]) (system.put place (.file left))
      (other.put place (.file right)) where
  alike := begun.alike.put (.file twins)
  empty kind made bare := by
    have locatedThere := (begun.alike.locate_eq _).trans located
    by_cases same : kind = step.kind
    · subst same
      rcases fills with written | ⟨rfl, rfl⟩
      · exact absurd (List.mem_append_right done (List.mem_singleton.mpr written.symm)) bare
      · exact ⟨place, FileSystem.hasFile_put located noDirectory .empty,
          FileSystem.hasFile_put locatedThere noDirectoryThere .empty⟩
    · have former : .file kind ∈ done := by
        rcases List.mem_append.mp made with former | new
        · exact former
        · exact absurd (congrArg Making.kind (List.mem_singleton.mp new)) same
      obtain ⟨stands, file, fileThere⟩ :=
        begun.empty kind former fun member => bare (List.mem_append_left _ member)
      have different : stands ≠ place := by
        intro equal
        have name := FileSystem.getLast?_of_child located step.kind.isStep_fileName
        rw [← equal, FileSystem.getLast?_of_child file.located kind.isStep_fileName] at name
        exact same (StoreKind.fileName_injective (Option.some.inj name))
      exact ⟨stands, file.put_apart different noDirectory _,
        fileThere.put_apart different noDirectoryThere _⟩

/-- The change that a step attempts. -/
private def attempted (collection : Collection) (endian : Endian) : Making → Change
  | .file kind => .makeFile (collection.pathOf kind)
  | .header kind => .append (collection.pathOf kind) (StoreHeader.fresh kind endian).encode

private theorem runOn_make {endian : Endian} {step : Making} {later : FileSystem}
    (changed : system.change (attempted collection endian step) = .ok later) :
    (collection.make endian step).runOn system = (.ok (), later) := by
  cases step <;> exact Action.runOn_on (Disk.run_change changed)

private theorem runOn_make_of_error {endian : Endian} {step : Making} {reason : OsError}
    (refused : system.change (attempted collection endian step) = .error reason) :
    (collection.make endian step).runOn system =
      (.error (.storeAccess (collection.pathOf step.kind).text reason), system) := by
  cases step <;> exact Action.runOn_on_of_error (Disk.run_change_of_error refused)

/-- A step that comes in its turn is refused on both file systems or done on both. -/
private theorem Begun.change (begun : Begun collection done system other) {step : Making}
    (ready : ∀ kind, step = .header kind → .file kind ∈ done ∧ .header kind ∉ done)
    (first second : Endian) :
    Agree (Begun collection (done ++ [step])) (system.change (attempted collection first step))
      (other.change (attempted collection second step)) := by
  cases step with
  | file kind =>
      have plain : (Change.makeFile (collection.pathOf kind)).IsPlain := trivial
      have agree := begun.alike.change Twins.isEven.empty plain
      rw [attempted, attempted]
      generalize here : system.change (.makeFile (collection.pathOf kind)) = outcome,
        there : other.change (.makeFile (collection.pathOf kind)) = result at agree
      cases agree with
      | error reason => exact .error reason
      | ok =>
          obtain ⟨place, located, vacant, rfl⟩ := FileSystem.put_of_change_makeFile here
          obtain ⟨again, locatedThere, vacantThere, rfl⟩ := FileSystem.put_of_change_makeFile there
          rw [begun.alike.locate_eq, located] at locatedThere
          obtain rfl := Except.ok.inj locatedThere
          exact .ok (begun.put located (by simp [vacant]) (by simp [vacantThere]) (.same [])
            (.inr ⟨rfl, rfl⟩))
  | header kind =>
      obtain ⟨made, bare⟩ := ready kind rfl
      obtain ⟨place, file, fileThere⟩ := begun.empty kind made bare
      rw [attempted, attempted, file.change_append, fileThere.change_append]
      refine .ok (begun.put file.located (by simp [file.stands]) (by simp [fileThere.stands]) ?_
        (.inl rfl))
      have isStore := FileSystem.getLast?_of_child file.located kind.isStep_fileName
      have bytes (endian : Endian) :
          (Content.empty.append (StoreHeader.fresh kind endian).encode).toList =
            fileBytes endian kind [] := by
        rw [Content.toList_append, fileBytes, List.flatMap_nil, List.append_nil]
        rfl
      rw [bytes, bytes]
      exact .store isStore first second (by simp)

/-- What is left of an order is done alike where the files are begun. -/
theorem Begun.makes {order : Collection.MakingOrder} (cut : order.steps = done ++ rest)
    (begun : Begun collection done system other) (first second : Endian) :
    Agree Eq ((rest.forM (collection.make first)).runOn system).1
        ((rest.forM (collection.make second)).runOn other).1 ∧
      FileSystem.Alike ((rest.forM (collection.make first)).runOn system).2
        ((rest.forM (collection.make second)).runOn other).2 := by
  induction rest generalizing done system other with
  | nil => exact ⟨.ok rfl, begun.alike⟩
  | cons step rest ih =>
      have ready : ∀ kind, step = .header kind → .file kind ∈ done ∧ .header kind ∉ done := by
        rintro kind rfl
        exact ready_of_steps cut
      have agree := begun.change ready first second
      rw [List.forM_eq_forM, List.forM_cons, List.forM_cons]
      generalize here : system.change _ = outcome, there : other.change _ = result at agree
      cases agree with
      | error reason =>
          rw [Action.runOn_bind_of_error (runOn_make_of_error here),
            Action.runOn_bind_of_error (runOn_make_of_error there)]
          exact ⟨.error _, begun.alike⟩
      | ok onward =>
          rw [Action.runOn_bind_of_ok _ _ (runOn_make here),
            Action.runOn_bind_of_ok _ _ (runOn_make there)]
          refine ih ?_ onward
          rw [cut, List.append_assoc, List.singleton_append]

end

theorem parallel_makeFiles (collection : Collection) (order : Collection.MakingOrder)
    (first second : Endian) :
    Action.Parallel FileSystem.Alike Eq (collection.makeFilesIn order.steps first)
      (collection.makeFilesIn order.steps second) := by
  intro system other alike
  have begun : Begun collection [] system other := ⟨alike, by simp⟩
  exact begun.makes rfl first second

theorem parallel_makeStore (engine other : Engine) (order : Collection.MakingOrder)
    (directory : Path) :
    Action.Parallel FileSystem.Alike Eq (engine.makeStore order.steps directory)
      (other.makeStore order.steps directory) := by
  have made : Disk.Parallel FileSystem.Alike Eq (Disk.change (.makeDirectory directory))
      (Disk.change (.makeDirectory directory)) :=
    .change fun _ _ alike => alike.change Twins.isEven.empty trivial
  refine (Action.Parallel.on_same made).bind_same fun _ => ?_
  refine (parallel_makeFiles ⟨directory⟩ order _ _).tryCatch fun error => ?_
  have removed := (Disk.isPlain_removeTree directory).inStep
  exact (Action.Parallel.lift removed).bind_same fun _ => .throw error

section

variable {engine other : Engine}

namespace Alike

theorem directory (alike : engine.Alike other) (name : String) :
    other.directory name = engine.directory name := by
  rw [Engine.directory, Engine.directory, alike.root]

theorem hasCollection (alike : engine.Alike other) (name : String) :
    other.hasCollection name = engine.hasCollection name := alike.catalog.contains name

theorem collection (alike : engine.Alike other) (name : String) :
    other.collection name = engine.collection name := by
  rw [Engine.collection, Engine.collection, alike.hasCollection, alike.directory]

theorem relist (alike : engine.Alike other) {catalog listed : Catalog}
    (same : catalog.Alike engine.root listed) :
    Engine.Alike { engine with catalog := catalog } { other with catalog := listed } where
  root := alike.root
  catalog := same

theorem prepareCollection (alike : engine.Alike other) (order : Collection.MakingOrder)
    (name : String) :
    Action.Parallel FileSystem.Alike Eq (engine.prepareCollection order.steps name)
      (other.prepareCollection order.steps name) := by
  unfold Engine.prepareCollection
  rw [alike.root, alike.hasCollection, alike.directory]
  refine (Action.Parallel.of (.same _)).bind_same fun _ => ?_
  have present := (Disk.isPlain_present engine.root).inStep
  have rest : Action.Parallel FileSystem.Alike Eq
      (do clearLeftover (engine.directory name)
          engine.makeStore order.steps (engine.directory name))
      (do clearLeftover (engine.directory name)
          other.makeStore order.steps (engine.directory name)) :=
    (parallel_clearLeftover _).bind_same fun _ => parallel_makeStore engine other order _
  refine (Action.Parallel.lift present).bind_same fun present => ?_
  dsimp only
  split
  next => exact .ite (fun _ => .throw _) fun _ => rest
  next => exact .throw _

theorem createCollectionIn (alike : engine.Alike other) (order : Collection.MakingOrder)
    (now later : Int64) (name : String) :
    Disk.Parallel FileSystem.Alike (fun here there => here.1 = there.1 ∧ here.2.Alike there.2)
      (engine.createCollectionIn order.steps now name)
      (other.createCollectionIn order.steps later name) := by
  refine Disk.Parallel.bind (alike.prepareCollection order name) fun prepared result agree => ?_
  cases agree with
  | error error => exact .pure ⟨rfl, alike⟩
  | ok =>
      have added := alike.catalog.add now later name
      dsimp only
      generalize engine.catalog.add now name = here, other.catalog.add later name = there at added
      cases added with
      | error error => exact .pure ⟨rfl, alike⟩
      | @ok listed others same =>
          refine Disk.Parallel.bind same.flush fun flushed result agree => ?_
          cases agree with
          | ok => exact .pure ⟨rfl, alike.relist same⟩
          | error error =>
              dsimp only
              rw [alike.directory]
              have removed := (Disk.isPlain_removeTree (engine.directory name)).inStep
              refine removed.bind fun _ _ _ => .pure ⟨rfl, alike.relist ?_⟩
              have removed := same.remove now later name
              generalize listed.remove now name = here, others.remove later name = there at removed
              cases removed with
              | ok unlisted => exact unlisted
              | error => exact same

theorem parallel_removeStore (directory : Path) :
    Action.Parallel FileSystem.Alike Eq (removeStore directory) (removeStore directory) := by
  refine Disk.Parallel.bind (Disk.isPlain_removeTree directory).inStep fun removed _ same => ?_
  subst same
  cases removed with
  | ok => exact .pure (.same _)
  | error => exact .pure (.same _)

theorem deleteCollection (alike : engine.Alike other) (now later : Int64) (name : String) :
    Disk.Parallel FileSystem.Alike (fun here there => here.1 = there.1 ∧ here.2.Alike there.2)
      (engine.deleteCollection now name) (other.deleteCollection later name) := by
  unfold Engine.deleteCollection
  rw [alike.directory]
  have removed := alike.catalog.remove now later name
  generalize engine.catalog.remove now name = here, other.catalog.remove later name = there at removed
  cases removed with
  | error error => exact .pure ⟨rfl, alike⟩
  | @ok unlisted others same =>
      refine Disk.Parallel.bind same.flush fun flushed result agree => ?_
      cases agree with
      | ok =>
          have removed := parallel_removeStore (engine.directory name)
          exact Disk.Parallel.bind removed fun _ _ agree => .pure ⟨agree.eq, alike.relist same⟩
      | error error =>
          have added := same.add now later name
          dsimp only
          generalize unlisted.add now name = here, others.add later name = there at added
          cases added with
          | ok listed => exact .pure ⟨rfl, alike.relist listed⟩
          | error => exact .pure ⟨rfl, alike.relist same⟩

/-!
## Nodes and relationships
-/

variable (alike : engine.Alike other) (name : String)
include alike

theorem withCollection {α : Type} {work : Collection → Action α}
    (inStep : ∀ collection first second, (work collection).InStep first second) :
    Action.Parallel FileSystem.Alike Eq (Action.of (engine.collection name) >>= work)
      (Action.of (other.collection name) >>= work) := by
  rw [alike.collection]
  exact .of_bind _ fun collection _ => Action.InStep.parallel (inStep collection)

theorem createNode (node : Node) :
    Action.Parallel FileSystem.Alike Eq (engine.createNode name node) (other.createNode name node) :=
  alike.withCollection name fun collection _ _ => collection.inStep_createNode node

theorem getNode (id : RecordId) :
    Action.Parallel FileSystem.Alike Eq (engine.getNode name id) (other.getNode name id) :=
  alike.withCollection name fun collection _ _ => collection.inStep_getNode id

theorem createRelationship (relationship : Relationship) :
    Action.Parallel FileSystem.Alike Eq (engine.createRelationship name relationship)
      (other.createRelationship name relationship) :=
  alike.withCollection name fun collection _ _ => collection.inStep_createRelationship relationship

theorem getRelationship (id : RecordId) :
    Action.Parallel FileSystem.Alike Eq (engine.getRelationship name id)
      (other.getRelationship name id) :=
  alike.withCollection name fun collection _ _ => collection.inStep_getRelationship id

end Alike

end

end Engine

end GraphStore
