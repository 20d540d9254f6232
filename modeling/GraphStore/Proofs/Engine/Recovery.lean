import GraphStore.Proofs.Engine.Consistency
import GraphStore.Proofs.Store.Files

/-!
# Databases that are opened after a crash

Collections that are made and deleted in a database until one of the calls is cut short. Main
statement: wherever it stops, the database opens again, lists the collections before the call or
those behind it, all of which are complete, and the collection of the call can be made again.
-/

set_option autoImplicit false

namespace GraphStore

open Engine

variable {start system later : FileSystem} {root base : Path} {name : String} {names : List String}
  {engine : Engine}

/-!
## Opening
-/

/-- Whether there is an empty directory at the end of a path. -/
def FileSystem.IsEmptyDirectory (system : FileSystem) (path : Path) : Prop :=
  ∃ place, system.openDirectory path = .ok place ∧ system.below place = []

theorem IsConsistent.openAt (consistent : IsConsistent root base start names system)
    (empty : EmptyRoot root base start) (options : EngineOptions) (now : Int64) :
    ∃ again, (Engine.openAt root options now).runOn system = (.ok again, system) ∧
      again.collections = names ∧ again.Serves root base start system := by
  obtain ⟨catalog, rfl, content, stands, bytes⟩ := consistent.catalog
  have located := consistent.located empty
  have directory := consistent.directory empty
  have there : system.locate (root.child Catalog.fileName) = .ok (catalogPlace base) :=
    locate_child located directory empty.catalogAccepted (by decide)
  have holds : HoldsCatalog root base { catalog with path := root.child Catalog.fileName } system :=
    ⟨located, consistent.tree.solid directory, rfl, consistent.listable, content, bytes, there,
      stands⟩
  exact ⟨_, runOn_openAt holds options now, rfl, rfl, ⟨rfl, consistent.listable⟩, consistent⟩

/-- A database that is made in an empty directory is consistent. -/
theorem exists_serves_of_openAt {options : EngineOptions} {now : Int64} (tree : start.IsTree)
    (isEmpty : start.IsEmptyDirectory root)
    (opened : (Engine.openAt root options now).runOn start = (.ok engine, system)) :
    ∃ base, EmptyRoot root base start ∧ engine.Serves root base start system := by
  obtain ⟨base, openedRoot, nothing⟩ := isEmpty
  obtain ⟨located, directory⟩ := FileSystem.entry?_of_openDirectory openedRoot
  have none := tree.below_eq_nil_iff.mp nothing
  have knows := knowsCatalog_of_openAt (congrArg Prod.fst opened)
  have leads := leadsTo_of_locate located
  obtain ⟨made, middle, making, rest⟩ := Action.exists_of_runOn_bind opened
  have same : middle = start := by
    have ran := Action.runOn_lift (run_makeDirectoryAndAbove located directory)
    exact (congrArg Prod.snd making).symm.trans (congrArg Prod.snd ran)
  subst same
  cases made with
  | error cause => cases rest
  | ok =>
  obtain ⟨catalog, last, created, same⟩ := Action.exists_of_runOn_bind rest
  cases same
  rcases loaded_or_flushed created with loaded | ⟨isFresh, flushed⟩
  · obtain ⟨-, place, content, file, -⟩ := hasFile_of_load loaded
    obtain rfl := (leads.child (by decide)).eq_of_locate file.located
    have vacant := none _ (List.prefix_append base [Catalog.fileName]) (by simp)
    rw [file.stands] at vacant
    cases vacant
  obtain ⟨draftAccepted, _, catalogLocated⟩ := exists_located_of_flush knows.path flushed
  have empty : EmptyRoot root base middle :=
    ⟨located, directory, none, isAccepted_of_locate catalogLocated, draftAccepted⟩
  have passes : Action.Passes False _ _ catalog.flush middle :=
    Catalog.passes_flush knows.path leads tree
  have relisted : Relisted base catalog middle system := passes.ends_of_run flushed
  have noNames : catalog.names = [] := by rw [isFresh, Catalog.fresh]
  refine ⟨base, empty, rfl, knows, relisted.tree, ?_, knows.listable,
    ⟨catalog, rfl, relisted.written⟩, by rw [relisted.noDraft]; nofun, ?_, ?_⟩
  · exact fun other away => relisted.outside other (ne_of_away away _) (ne_of_away away _)
  · intro name isName
    refine leftover_of_none fun other below => ?_
    rw [relisted.outside other (ne_of_below isName (by decide) below)
      (ne_of_below isName (by decide) below)]
    refine none other ((List.prefix_append base [name]).trans below) fun same => ?_
    exact not_concat_isPrefix_self base name (same ▸ below)
  · intro name listed
    rw [collections, noNames] at listed
    cases listed

/-!
## Files that are written in part
-/

/-- An entry of which only the first bytes were written. -/
def Entry.take (count : Nat) : Entry → Entry
  | .directory => .directory
  | .file content => .file (content.take count)

/-- The file system with only the first bytes of each file below a directory. -/
def FileSystem.cutBelow (directory : Path) (sizes : Path → Nat) (system : FileSystem) :
    FileSystem :=
  ⟨system.entries.map fun entry =>
    (entry.1, if isBelow directory entry.1 then entry.2.take (sizes entry.1) else entry.2)⟩

namespace FileSystem

variable {directory : Path} {sizes : Path → Nat}

theorem entry?_cutBelow (directory : Path) (sizes : Path → Nat) (system : FileSystem)
    (place : Path) :
    FileSystem.entry? (system.cutBelow directory sizes) place = (system.entry? place).map fun entry =>
      if isBelow directory place then entry.take (sizes place) else entry := by
  by_cases deep : place = []
  · subst deep
    have top : isBelow directory [] = false :=
      isBelow_eq_false_iff.mpr fun below => below.2 (List.prefix_nil.mp below.1).symm
    rw [entry?_nil, entry?_nil, Option.map_some, top]
    rfl
  · rw [entry?_of_ne_nil _ deep, entry?_of_ne_nil _ deep, cutBelow, List.find?_map, Option.map_map,
      Option.map_map]
    change Option.map _ (system.entries.find? (·.1 == place)) = _
    cases found : system.entries.find? (·.1 == place) with
    | none => rfl
    | some entry =>
        have same : entry.1 = place := by simpa using List.find?_some found
        simp [same]

theorem entry?_cutBelow_of_not_below {place : Path}
    (away : ¬(directory <+: place ∧ place ≠ directory)) :
    FileSystem.entry? (system.cutBelow directory sizes) place = system.entry? place := by
  rw [entry?_cutBelow, isBelow_eq_false_iff.mpr away]
  exact Option.map_id'

theorem IsTree.cutBelow (tree : system.IsTree) : (system.cutBelow directory sizes).IsTree where
  nodup := by
    rw [FileSystem.cutBelow, List.map_map]
    exact tree.nodup
  steps := by
    intro entry member
    obtain ⟨former, inside, rfl⟩ := List.mem_map.mp member
    exact tree.steps former inside
  parents := by
    intro entry member
    obtain ⟨former, inside, rfl⟩ := List.mem_map.mp member
    simp only [entry?_cutBelow, tree.parents former inside, Option.map_some, Entry.take, ite_self]

end FileSystem

theorem touches_cutBelow (tree : system.IsTree) (isName : isCollectionName name = true)
    (sizes : Path → Nat) :
    Touches base name system (system.cutBelow (base ++ [name]) sizes) := by
  have outside : ∀ other, ¬base ++ [name] <+: other →
      FileSystem.entry? (system.cutBelow (base ++ [name]) sizes) other = system.entry? other :=
    fun other away => FileSystem.entry?_cutBelow_of_not_below fun below => away below.1
  refine ⟨tree.cutBelow, fun other away _ => outside other away, fun former => ?_, fun left => ?_⟩
  · rwa [outside (draftPlace base) (not_below_of_isCollectionName isName (by decide))] at former
  · constructor
    · intro content
      rw [FileSystem.entry?_cutBelow_of_not_below fun below => below.2 rfl]
      exact left.noFile content
    · intro other below different stands
      rw [FileSystem.entry?_cutBelow] at stands ⊢
      have isBelow := FileSystem.isBelow_iff.mpr ⟨below, different⟩
      obtain ⟨kind, content, same, file⟩ := left.files other below different fun none =>
        stands (by rw [none, Option.map_none])
      exact ⟨kind, content.take (sizes other), same, by rw [file, isBelow]; rfl⟩

/-!
## Collections that are complete and such that can be made
-/

theorem EmptyRoot.isAccepted_pathOf (empty : EmptyRoot root base start)
    (isName : isCollectionName name = true) {kind : StoreKind}
    (short : ((Collection.mk (root.child name)).pathOf kind).text.utf8ByteSize <
      FileSystem.pathLimit) : ((Collection.mk (root.child name)).pathOf kind).IsAccepted := by
  have noSlash := getLast?_child_ne_of_isCollectionName isName root
  have clean := empty.catalogAccepted.clean
  refine ⟨fun other member => ?_, short⟩
  rw [Path.child] at clean
  rw [Collection.pathOf, Path.child_eq_append _ noSlash, Path.child] at member
  rcases List.mem_append.mp member with front | last
  · rcases List.mem_append.mp front with inRoot | isLast
    · exact clean other (List.mem_append_left _ inRoot)
    · obtain rfl := List.mem_singleton.mp isLast
      intro zero
      exact absurd (isNameCharacter_of_mem isName zero) (by decide)
  · obtain rfl := List.mem_singleton.mp last
    cases kind <;> decide

theorem IsEmptyCollection.verified (isEmpty : IsEmptyCollection root base name system) :
    (∀ kind, ∃ bytes, system.content ((Collection.mk (root.child name)).pathOf kind) = .ok bytes) ∧
      (Collection.mk (root.child name)).verify.runOn system = (.ok (), system) := by
  obtain ⟨endian, held⟩ := isEmpty
  have verifies : Site.Yields ⟨⟨root.child name⟩, base ++ [name], endian⟩
      (Collection.mk (root.child name)).verify .empty (.ok ()) := Site.yields_verify
  refine ⟨fun kind => ?_, verifies.runOn_eq held⟩
  obtain ⟨content, file, -⟩ := (held kind).file
  exact ⟨content.toList, by rw [FileSystem.content, file.openFile_eq]; rfl⟩

/-- In a consistent file system a collection that is not listed can be made. -/
theorem Engine.Serves.exists_run_create (serves : engine.Serves root base start system)
    (empty : EmptyRoot root base start) (isName : isCollectionName name = true)
    (unlisted : name ∉ engine.collections)
    (accepted : ∀ kind, ((Collection.mk (engine.directory name)).pathOf kind).IsAccepted)
    (order : Collection.MakingOrder) (now : Int64) :
    ∃ later made, (engine.perform (.create order now name)).run system =
      ((.ok (), later), made) := by
  have leads := serves.leads empty
  obtain ⟨rfl, knows, consistent⟩ := serves
  have located : ∀ later, Confined (base ++ [name]) system later →
      later.locate engine.root = .ok base := fun later confined =>
    (consistent.touches empty isName unlisted ((Touches.refl consistent.tree).confined isName
      confined)).located empty
  obtain ⟨prepared, prepares⟩ := exists_runOn_prepareCollection order.isOrder isName unlisted
    consistent.tree (consistent.directory empty) located (consistent.leftover name isName) accepted
  have passes : Action.Passes False _ _ (engine.prepareCollection order.steps name) system :=
    passes_prepareCollection leads consistent.tree
  have between : IsConsistent engine.root base start engine.collections prepared := by
    rcases passes.ends_of_run prepares with ended | ⟨_, _, impossible⟩
    · exact consistent.touches empty isName unlisted ended.touches
    · cases impossible
  obtain ⟨listed, added⟩ : ∃ listed, engine.catalog.add now name = .ok listed :=
    ⟨_, Catalog.add_of_new isName unlisted now⟩
  obtain ⟨_, -, content, stands, -⟩ := between.catalog
  obtain ⟨made, flushed⟩ := exists_runOn_flush (knows.add added).path (between.located empty)
    (between.directory empty) empty.draftAccepted empty.catalogAccepted between.noDraft
    (by rw [stands]; nofun)
  refine ⟨{ engine with catalog := listed }, made, ?_⟩
  change (engine.createCollectionIn order.steps now name).run system = _
  rw [createCollectionIn, Disk.run_bind]
  change (engine.prepareCollection order.steps name).outcome.run system = _ at prepares
  rw [prepares]
  simp only [added]
  change listed.flush.outcome.run prepared = _ at flushed
  rw [Disk.run_bind, flushed]
  rfl

/-!
## Crashes
-/

namespace Engine

/-- The databases to which calls lead while the system refuses none of their steps. -/
inductive Completes (first : Engine) (start : FileSystem) : Engine → FileSystem → Prop where
  | refl : Completes first start first start
  | step {engine later : Engine} {system made : FileSystem} {outcome : Except Error Unit}
      (former : Completes first start engine system) (call : CollectionCall)
      (ran : (engine.perform call).run system = ((outcome, later), made))
      (unrefused : ∀ error, outcome = .error error → error.osError? = none) :
      Completes first start later made

/-- The file systems in which a call can stop: between two of its steps, or while the files of a new
collection are written, so that each of them holds no more than its first bytes. -/
inductive StopsAt (engine : Engine) (system : FileSystem) : CollectionCall → FileSystem → Prop where
  | between (call : CollectionCall) (count : Nat) :
      StopsAt engine system call ((engine.perform call).interrupted count system)
  | within {order : Collection.MakingOrder} {now : Int64} {name : String} {base : Path}
      (isName : isCollectionName name = true) (unlisted : name ∉ engine.collections)
      (located : system.locate engine.root = .ok base) (count : Nat) (sizes : Path → Nat) :
      StopsAt engine system (.create order now name)
        (((engine.prepareCollection order.steps name).outcome.interrupted count system).cutBelow
          (base ++ [name]) sizes)

theorem Serves.completes {first : Engine} {firstSystem : FileSystem}
    (serves : first.Serves root base start firstSystem) (empty : EmptyRoot root base start)
    (completed : Completes first firstSystem engine system) :
    engine.Serves root base start system := by
  induction completed with
  | refl => exact serves
  | step _ call ran unrefused ih =>
      exact ((ih.passes_perform empty call).ends_of_run ran unrefused).1

theorem Serves.stopsAt {call : CollectionCall} (serves : engine.Serves root base start system)
    (empty : EmptyRoot root base start) (stops : engine.StopsAt system call later) :
    IsConsistent root base start engine.collections later ∨
      IsConsistent root base start (call.listing engine.collections) later := by
  cases stops with
  | between call count =>
      exact (serves.passes_perform empty call).interrupted (.inl serves.consistent) count
  | @within order now name place isName unlisted located count sizes =>
      have leads := serves.leads empty
      obtain ⟨rfl, knows, consistent⟩ := serves
      obtain rfl := leads.eq_of_locate located
      have passes : (engine.prepareCollection order.steps name).Passes False _ _ system :=
        passes_prepareCollection leads consistent.tree
      have prepares := Disk.Passes.interrupted passes
        ⟨isName, unlisted, .refl consistent.tree⟩ count
      -- Cutting the files is one more change at the place of the collection, which is not listed.
      have stopped := consistent.touches empty isName unlisted prepares.touches
      exact .inl (stopped.touches empty isName unlisted
        (touches_cutBelow stopped.tree isName sizes))

/-- A collection that is not listed can be made if and only if its name can name one and the system
takes the paths of its files. -/
theorem Serves.exists_run_create_iff (serves : engine.Serves root base start system)
    (empty : EmptyRoot root base start) (unlisted : name ∉ engine.collections)
    (order : Collection.MakingOrder) (now : Int64) :
    (∃ later made, (engine.perform (.create order now name)).run system =
        ((.ok (), later), made)) ↔
      isCollectionName name = true ∧
        ∀ kind, ((Collection.mk (engine.directory name)).pathOf kind).text.utf8ByteSize <
          FileSystem.pathLimit := by
  constructor
  · intro given
    obtain ⟨later, made, ran⟩ := given
    have servesLater := (((serves.passes_perform empty _).ends_of_run ran) nofun).1
    obtain ⟨site, lists, held⟩ := lists_of_createCollectionIn serves.knows order.isOrder ran
    refine ⟨servesLater.knows.listable.valid name lists.listed, fun kind => ?_⟩
    obtain ⟨content, file, -⟩ := (held kind).file
    rw [lists.collection, directory, servesLater.root_eq, ← serves.root_eq] at file
    exact (isAccepted_of_locate file.located).short
  · intro given
    obtain ⟨isName, short⟩ := given
    refine serves.exists_run_create empty isName unlisted (fun kind => ?_) order now
    rw [directory, serves.root_eq] at short ⊢
    exact empty.isAccepted_pathOf isName (short kind)

/-- A database in which a call was cut short opens again. It lists the collections before the call or
those behind it, and their files are complete. If it does not list the collection of the call, this
can be made, as long as its name can name one and the system takes the paths of its files. -/
theorem recovers_where_call_stops {root : Path} {options newOptions : EngineOptions}
    {now newNow : Int64} {start firstSystem system stopped : FileSystem} {first engine : Engine}
    {call : CollectionCall} (tree : start.IsTree) (isEmpty : start.IsEmptyDirectory root)
    (opened : (openAt root options now).runOn start = (.ok first, firstSystem))
    (completed : first.Completes firstSystem engine system)
    (stops : engine.StopsAt system call stopped) :
    (∀ later made, (engine.perform call).run system = ((.ok (), later), made) →
      later.collections = call.listing engine.collections) ∧
    ∃ again, (openAt root newOptions newNow).runOn stopped = (.ok again, stopped) ∧
      (again.collections = engine.collections ∨
        again.collections = call.listing engine.collections) ∧
      (∀ name ∈ again.collections, ∃ collection, again.collection name = .ok collection ∧
        (∀ kind, ∃ bytes, stopped.content (collection.pathOf kind) = .ok bytes) ∧
        collection.verify.runOn stopped = (.ok (), stopped)) ∧
      (call.name ∉ again.collections → ∀ order now,
        ((∃ later made, (again.perform (.create order now call.name)).run stopped =
            ((.ok (), later), made)) ↔
          isCollectionName call.name = true ∧
            ∀ kind, ((Collection.mk (again.directory call.name)).pathOf kind).text.utf8ByteSize <
              FileSystem.pathLimit) ∧
        ∀ later made, (again.perform (.create order now call.name)).run stopped =
            ((.ok (), later), made) →
          later.collections = again.collections ++ [call.name] ∧
          ∃ site, later.Lists call.name site made ∧ site.Holds .empty made) := by
  obtain ⟨base, empty, servesFirst⟩ := exists_serves_of_openAt tree isEmpty opened
  have serves := servesFirst.completes empty completed
  refine ⟨fun later made ran => ?_, ?_⟩
  · exact ((serves.passes_perform empty call).ends_of_run ran nofun).2 rfl
  -- Whichever list is on disk, the file system is consistent with it, and that is all that counts.
  obtain ⟨names, isSide, consistent⟩ : ∃ names,
      (names = engine.collections ∨ names = call.listing engine.collections) ∧
        IsConsistent root base start names stopped := by
    rcases serves.stopsAt empty stops with before | behind
    · exact ⟨_, .inl rfl, before⟩
    · exact ⟨_, .inr rfl, behind⟩
  obtain ⟨again, reopened, rfl, servesAgain⟩ := consistent.openAt empty newOptions newNow
  refine ⟨again, reopened, isSide, fun name listed => ?_, fun unlisted order now => ?_⟩
  · refine ⟨⟨again.directory name⟩, ?_, ?_⟩
    · have contained : again.hasCollection name = true := by
        rwa [hasCollection, Catalog.contains, List.contains_iff_mem]
      rw [Engine.collection, if_pos contained]
    · have complete := (consistent.complete name listed).verified
      rwa [← servesAgain.root_eq] at complete
  · refine ⟨servesAgain.exists_run_create_iff empty unlisted order now, fun later made ran => ?_⟩
    obtain ⟨site, lists, held⟩ := lists_of_createCollectionIn servesAgain.knows order.isOrder ran
    have ended := ((servesAgain.passes_perform empty _).ends_of_run ran) nofun
    have isName := ended.1.knows.listable.valid call.name lists.listed
    refine ⟨?_, site, lists, held⟩
    rw [ended.2 rfl, CollectionCall.listing_create isName unlisted]

/-- A database in a directory that was empty. -/
def newDatabase : Session where
  engine := ⟨["db"], ⟨.little, true⟩, .fresh ["db", Catalog.fileName] 0⟩
  system := ((openAt ["db"] ⟨.little, true⟩ 0).runOn (.ofDirectory ["db"])).2

theorem runOn_newDatabase : (openAt ["db"] ⟨.little, true⟩ 0).runOn (.ofDirectory ["db"]) =
    (.ok newDatabase.engine, newDatabase.system) :=
  Prod.ext (eq_ok_of_toOption (by decide +kernel)) rfl

/-- Making a collection without a name can be cut short before its first step, and fails again. -/
theorem newDatabase_refuses_empty_name :
    let stopped := (newDatabase.engine.perform (.create .oneByOne 0 "")).interrupted 0
      newDatabase.system
    newDatabase.engine.StopsAt newDatabase.system (.create .oneByOne 0 "") stopped ∧
      ((openAt ["db"] ⟨.little, true⟩ 0).runOn stopped).1 = .ok newDatabase.engine ∧
      "" ∉ newDatabase.engine.collections ∧
      ((newDatabase.engine.createCollection 0 "").run stopped).1.1 =
        .error (.invalidCollectionName "") :=
  ⟨.between _ 0, eq_ok_of_toOption (by decide +kernel), by decide, rfl⟩

theorem newDatabase_recovers :
    ∃ stopped again, newDatabase.engine.StopsAt newDatabase.system (.create .oneByOne 0 "a") stopped ∧
      (openAt ["db"] ⟨.big, false⟩ 1).runOn stopped = (.ok again, stopped) ∧
      (again.collections = [] ∨ again.collections = ["a"]) := by
  have tree : (FileSystem.ofDirectory ["db"]).IsTree := ⟨by decide, by decide, by decide⟩
  have stops : newDatabase.engine.StopsAt newDatabase.system (.create .oneByOne 0 "a") _ :=
    .between _ 7
  obtain ⟨-, again, reopened, isSide, -⟩ := recovers_where_call_stops tree
    ⟨["db"], rfl, rfl⟩ runOn_newDatabase .refl stops
  exact ⟨_, again, stops, reopened, isSide⟩

end Engine

end GraphStore
