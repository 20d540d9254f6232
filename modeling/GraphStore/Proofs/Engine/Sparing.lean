import GraphStore.Proofs.Engine.Completion
import GraphStore.Proofs.Engine.Session

/-!
# What making a collection spares

The directory of a new collection may be there already, with anything in it. Main statement: making
a collection leaves whatever stands in the database as it is, but for the catalog, the directory of
the collection and store files in it, and but for directories with the names of store files where
there are no other names.
-/

set_option autoImplicit false

namespace GraphStore

open FileSystem

variable {system : FileSystem} {base place directory path : Path} {name : String}

/-- The names in a directory are those under which something stands in it. -/
theorem FileSystem.mem_names_iff (tree : system.IsTree) :
    name ∈ system.names place ↔ system.entry? (place ++ [name]) ≠ none := by
  rw [names, List.mem_mergeSort, List.mem_filterMap]
  constructor
  · intro given
    obtain ⟨⟨other, entry⟩, inside, shown⟩ := given
    dsimp only at shown
    split at shown
    next isChild =>
      simp only [Bool.and_eq_true, isBelow_iff, beq_iff_eq] at isChild
      obtain ⟨⟨⟨rest, rfl⟩, -⟩, length⟩ := isChild
      have single : rest.length = 1 := by
        rw [List.length_append] at length
        omega
      obtain ⟨last, rfl⟩ := List.length_eq_one_iff.mp single
      rw [List.getLast?_concat] at shown
      obtain rfl := Option.some.inj shown
      rw [(mem_entries_iff tree.nodup (List.concat_ne_nil _ _)).mp inside]
      nofun
    · cases shown
  · intro stands
    obtain ⟨entry, found⟩ := Option.ne_none_iff_exists'.mp stands
    refine ⟨(place ++ [name], entry),
      (mem_entries_iff tree.nodup (List.concat_ne_nil _ _)).mpr found, ?_⟩
    have isChild : isBelow place (place ++ [name]) = true :=
      isBelow_iff.mpr ⟨List.prefix_append _ _, by simp⟩
    simp [isChild]

namespace Engine

variable {engine : Engine} {order : List Collection.Making} {other : Path} {entry : Entry}

/-- The places that belong to the making of a collection: those of the catalog, that of its directory,
and those of files in it under the names of store files. -/
inductive IsOwn (root : Path) (name : String) (system : FileSystem) : Path → Prop where
  | catalog {base : Path} (located : system.locate root = .ok base) :
      IsOwn root name system (catalogPlace base)
  | draft {base : Path} (located : system.locate root = .ok base) :
      IsOwn root name system (draftPlace base)
  | directory {base : Path} (located : system.locate root = .ok base) :
      IsOwn root name system (base ++ [name])
  | storeFile {base : Path} (kind : StoreKind) {content : Content}
      (located : system.locate root = .ok base)
      (file : system.entry? (base ++ [name] ++ [kind.fileName]) = some (.file content)) :
      IsOwn root name system (base ++ [name] ++ [kind.fileName])

theorem isOwn_iff {root : Path} (located : system.locate root = .ok base) :
    IsOwn root name system other ↔
      other ∈ [catalogPlace base, draftPlace base, base ++ [name]] ∨
        ∃ kind : StoreKind, (∃ content, system.entry? other = some (.file content)) ∧
          other = base ++ [name] ++ [kind.fileName] := by
  have same : ∀ {place}, system.locate root = .ok place → place = base := fun again =>
    Except.ok.inj (again.symm.trans located)
  constructor
  · intro own
    cases own with
    | catalog again => exact .inl (by simp [same again])
    | draft again => exact .inl (by simp [same again])
    | directory again => exact .inl (by simp [same again])
    | storeFile kind again file => exact .inr ⟨kind, ⟨_, file⟩, by rw [same again]⟩
  · intro given
    rcases given with listed | ⟨kind, ⟨content, file⟩, rfl⟩
    · simp only [List.mem_cons, List.not_mem_nil, or_false] at listed
      rcases listed with rfl | rfl | rfl
      exacts [.catalog located, .draft located, .directory located]
    · exact .storeFile kind located file

/-- Whether a place is at or below a directory that has the name of a store file, in a directory of
the collection's name in which there are no other names than those of store files. -/
def IsMistaken (root : Path) (name : String) (system : FileSystem) (other : Path) : Prop :=
  ∃ base kind, system.locate root = .ok base ∧
    system.entry? (base ++ [name] ++ [StoreKind.fileName kind]) = some .directory ∧
    base ++ [name] ++ [StoreKind.fileName kind] <+: other ∧
    ∀ child, system.entry? (base ++ [name] ++ [child]) ≠ none →
      ∃ kind, child = StoreKind.fileName kind

/-- Whether something stands at the place of a new collection that is not taken for what is left of
one. -/
def IsObstructed (engine : Engine) (name : String) (system : FileSystem) (base : Path) : Prop :=
  system.entry? (base ++ [name]) ≠ none ∧
    ∀ names, (Question.names (engine.directory name)).answer system = .ok names →
      (names.all fun name => StoreKind.all.any (·.fileName == name)) = false

theorem passes_present_located (path : Path) (passing : FileSystem → Prop) :
    (Disk.present path).Passes True passing (fun answer later => later = system ∧
      (answer = .ok true → ∃ place, system.locate path = .ok place)) system := by
  have asked : (Disk.isDirectory path).Passes True passing (fun answer later =>
      answer = (Question.entry path).answer system ∧ later = system) system :=
    Disk.Passes.ask ⟨rfl, rfl⟩
  refine asked.bind fun answer later given => ?_
  obtain ⟨answered, rfl⟩ := given
  cases answer with
  | ok _ =>
      obtain ⟨found, resolved, -⟩ := exists_of_map_eq_ok answered.symm
      obtain ⟨place, located, -⟩ := exists_of_bind_eq_ok resolved
      exact Disk.Passes.pure ⟨rfl, fun _ => ⟨place, located⟩⟩
  | error reason =>
      refine Disk.Passes.pure ⟨rfl, fun impossible => ?_⟩
      split at impossible <;> cases impossible

theorem passes_clearLeftover_of_isObstructed (obstructed : engine.IsObstructed name system base) :
    (clearLeftover (engine.directory name)).Passes True (fun _ => False)
      (fun _ later => later = system) system := by
  have asked : (Disk.names (engine.directory name)).Passes True (fun _ => False)
      (fun answer later =>
        answer = (Question.names (engine.directory name)).answer system ∧ later = system) system :=
    Disk.Passes.ask ⟨rfl, rfl⟩
  have lifted : Action.Passes True (fun _ => False) (fun outcome later =>
      outcome = .ok ((Question.names (engine.directory name)).answer system) ∧ later = system)
      (ExceptT.lift (Disk.names (engine.directory name))) system :=
    Action.Passes.lift (asked.imp (fun _ => id) fun _ _ given => ⟨by rw [given.1], given.2⟩)
  refine lifted.bind (fun answer later given => ?_) fun _ _ given => given.2
  obtain ⟨answered, rfl⟩ := given
  replace answered := Except.ok.inj answered
  cases answer with
  | error reason => exact Action.Passes.pure rfl
  | ok names =>
      dsimp only
      rw [obstructed.2 names answered.symm]
      exact Action.Passes.pure rfl

/-- A directory cannot be made where something stands. -/
theorem passes_makeStore_of_stands (located : system.locate engine.root = .ok base)
    (isName : isCollectionName name = true) (stands : system.entry? (base ++ [name]) ≠ none) :
    (engine.makeStore order (engine.directory name)).Passes True (fun _ => False)
      (fun outcome later => later = system ∧ ∃ error, outcome = .error error) system := by
  have noSlash : (engine.directory name).getLast? ≠ some "" :=
    getLast?_child_ne_of_isCollectionName isName engine.root
  have refused : (Disk.change (.makeDirectory (engine.directory name))).Passes True
      (fun _ => False) (fun outcome later => later = system ∧ ∃ error, outcome = .error error)
      system := by
    refine Disk.Passes.change (fun reason => ⟨rfl, reason, rfl⟩) fun changed succeeded => ?_
    obtain ⟨place, locatedChild, vacant, -⟩ := put_of_change_makeDirectory succeeded
    rw [Path.trimmed_eq_self noSlash] at locatedChild
    obtain rfl := eq_append_of_child located locatedChild (isStep_of_isCollectionName isName)
    exact absurd vacant stands
  have failed : (Action.on (engine.directory name)
      (Disk.change (.makeDirectory (engine.directory name)))).Passes True (fun _ => False)
      (fun outcome later => later = system ∧ ∃ error, outcome = .error error) system := by
    refine Action.Passes.on (refused.imp (fun _ => id) fun outcome later given => ?_)
    obtain ⟨same, reason, rfl⟩ := given
    exact ⟨same, _, rfl⟩
  refine failed.bind (fun _ later given => ?_) fun error later given => ⟨given.1, error, rfl⟩
  obtain ⟨-, error, impossible⟩ := given
  cases impossible

/-- Where the root is missing or something stands in the way, nothing is changed. -/
theorem passes_prepareCollection_of_isObstructed
    (obstructed : ∀ base, system.locate engine.root = .ok base →
      engine.IsObstructed name system base) :
    (engine.prepareCollection order name).Passes True (fun _ => False)
      (fun outcome later => later = system ∧ ∃ error, outcome = .error error) system := by
  have checked : (Action.of (checkCollectionName name)).Passes True (fun _ => False)
      (fun outcome later => later = system ∧ outcome = checkCollectionName name) system :=
    Action.Passes.of ⟨rfl, rfl⟩
  refine checked.bind (fun _ later given => ?_) fun error _ given => ⟨given.1, error, rfl⟩
  obtain ⟨rfl, isChecked⟩ := given
  have isName := checkCollectionName_eq_ok_iff.mp isChecked.symm
  have asked : Action.Passes True (fun _ => False) (fun outcome last => last = later ∧
      (outcome = .ok (.ok true) → ∃ place, later.locate engine.root = .ok place))
      (ExceptT.lift (Disk.present engine.root)) later :=
    Action.Passes.lift ((passes_present_located engine.root _).imp (fun _ => id) fun _ _ given =>
      ⟨given.1, fun same => given.2 (Except.ok.inj same)⟩)
  refine asked.bind (fun present last given => ?_) fun error _ given => ⟨given.1, error, rfl⟩
  obtain ⟨rfl, isLocated⟩ := given
  dsimp only
  split
  · split
    · exact Action.Passes.throw ⟨rfl, _, rfl⟩
    · obtain ⟨base, located⟩ := isLocated rfl
      have inTheWay := obstructed base located
      refine (passes_clearLeftover_of_isObstructed inTheWay).bind (fun _ later same => ?_)
        fun error _ same => ⟨same, error, rfl⟩
      subst same
      exact passes_makeStore_of_stands located isName inTheWay.1
  · exact Action.Passes.throw ⟨rfl, _, rfl⟩

theorem passes_createCollectionIn_of_isObstructed {now : Int64}
    (obstructed : ∀ base, system.locate engine.root = .ok base →
      engine.IsObstructed name system base) :
    (engine.createCollectionIn order now name).Passes True (fun _ => False)
      (fun _ later => later = system) system := by
  have prepared : Disk.Passes True (fun _ => False) _
      (engine.prepareCollection order name).outcome system :=
    passes_prepareCollection_of_isObstructed obstructed
  refine prepared.bind fun outcome later given => ?_
  obtain ⟨rfl, error, rfl⟩ := given
  exact Disk.Passes.pure rfl

/-- Where nothing is in the way, what stands at the place of the collection or below it is left from
one, or is taken for it. -/
theorem isOwn_or_isMistaken_of_below (tree : system.IsTree)
    (isName : isCollectionName name = true) (located : system.locate engine.root = .ok base)
    (clear : ¬engine.IsObstructed name system base) (below : base ++ [name] <+: other)
    (stands : system.entry? other = some entry) :
    IsOwn engine.root name system other ∨ IsMistaken engine.root name system other := by
  obtain ⟨inside, rfl⟩ := below
  cases inside with
  | nil => exact .inl (by simpa using IsOwn.directory located)
  | cons child rest =>
  have there : system.entry? (base ++ [name] ++ child :: rest) ≠ none := by rw [stands]; nofun
  have directory : system.entry? (base ++ [name]) = some .directory :=
    tree.isDirectory_of_above there (List.prefix_append _ _) (by simp)
  obtain ⟨names, answered, areStoreNames⟩ : ∃ names,
      (Question.names (engine.directory name)).answer system = .ok names ∧
        (names.all fun name => StoreKind.all.any (·.fileName == name)) = true := by
    simpa [IsObstructed, directory] using clear
  obtain ⟨place, opened, rfl⟩ := exists_of_map_eq_ok answered
  obtain ⟨locatedPlace, -⟩ := entry?_of_openDirectory opened
  obtain rfl := eq_append_of_child located locatedPlace (isStep_of_isCollectionName isName)
  have isStoreName : ∀ other, system.entry? (base ++ [name] ++ [other]) ≠ none →
      ∃ kind, other = StoreKind.fileName kind := by
    intro other present
    have found := List.all_eq_true.mp areStoreNames other ((mem_names_iff tree).mpr present)
    obtain ⟨kind, -, same⟩ := List.any_eq_true.mp found
    exact ⟨kind, (beq_iff_eq.mp same).symm⟩
  have above : base ++ [name] ++ [child] <+: base ++ [name] ++ child :: rest :=
    ⟨rest, by simp⟩
  by_cases last : rest = []
  · subst last
    obtain ⟨kind, rfl⟩ := isStoreName child there
    cases entry with
    | file content => exact .inl (.storeFile kind located stands)
    | directory => exact .inr ⟨base, kind, located, stands, above, isStoreName⟩
  · have inner : system.entry? (base ++ [name] ++ [child]) = some .directory :=
      tree.isDirectory_of_above there above (by simpa using Ne.symm last)
    obtain ⟨kind, rfl⟩ := isStoreName child (by rw [inner]; nofun)
    exact .inr ⟨base, kind, located, inner, above, isStoreName⟩

/-- Making a collection changes nothing, or nothing but the catalog and what is below its place. -/
theorem EndsCreating.outside {now : Int64} {ready : FileSystem → Prop} {later : FileSystem}
    {result : Except Error Unit × Engine}
    (ended : engine.EndsCreating base now name ready system result later) :
    later = system ∨ isCollectionName name = true ∧ ∀ other, ¬base ++ [name] <+: other →
      other ≠ draftPlace base → other ≠ catalogPlace base →
        later.entry? other = system.entry? other := by
  cases ended with
  | refused => exact .inl rfl
  | undone _ _ prepares =>
      exact .inr ⟨prepares.isName, fun other away notDraft _ =>
        prepares.touches.outside other away notDraft⟩
  | created creates =>
      obtain ⟨prepared, -, touches, relisted⟩ := creates.relisted
      refine .inr ⟨(Catalog.add_eq_ok creates.added).1, fun other away notDraft notCatalog => ?_⟩
      rw [relisted.outside other notDraft notCatalog, touches.outside other away notDraft]

/-- Whatever the system refuses, making a collection spares what stands in the database: all but the
files and the directory that belong to the collection and the catalog, and but what lies in
directories that are mistaken for store files. -/
theorem createCollectionIn_spares (knows : engine.KnowsCatalog) (tree : system.IsTree)
    (order : List Collection.Making) (now : Int64) (name : String)
    (refusal : Nat → Change → Option OsError) {other : Path} {entry : Entry}
    (stands : system.entry? other = some entry) :
    FileSystem.entry? ((engine.createCollectionIn order now name).runRefusing refusal 0 system).2
        other = some entry ∨
      IsOwn engine.root name system other ∨ IsMistaken engine.root name system other := by
  by_cases obstructed : ∀ base, system.locate engine.root = .ok base →
      engine.IsObstructed name system base
  · rw [(passes_createCollectionIn_of_isObstructed obstructed).runRefusing refusal 0]
    exact .inl stands
  · simp only [not_forall] at obstructed
    obtain ⟨base, located, clear⟩ := obstructed
    have leads := leadsTo_of_locate located
    have anything : Disk.Stays True (fun _ => True) (engine.prepareCollection order name).outcome
        system := Disk.stays_anywhere _ system
    have passes : (engine.createCollectionIn order now name).Passes True _
        (engine.EndsCreating base now name (fun _ => True) system) system :=
      passes_createCollectionIn knows leads tree (anything.imp (fun _ => id) fun _ _ _ _ => trivial)
    have ended := passes.runRefusing refusal 0
    rcases ended.outside with same | ⟨isName, outside⟩
    · exact .inl (by rw [same, stands])
    by_cases below : base ++ [name] <+: other
    · exact .inr (isOwn_or_isMistaken_of_below tree isName located clear below stands)
    by_cases isDraft : other = draftPlace base
    · exact .inr (.inl (isDraft ▸ .draft located))
    by_cases isCatalog : other = catalogPlace base
    · exact .inr (.inl (isCatalog ▸ .catalog located))
    exact .inl (by rw [outside other below isDraft isCatalog, stands])

/-- The first database, with more entries. -/
def databaseWith (entries : List (Path × Entry)) : FileSystem :=
  ⟨Session.firstDatabase.system.entries ++ entries⟩

/-- A file in a directory that has the name of a store file. -/
def mistakenDirectory : FileSystem :=
  databaseWith [(["db", "c"], .directory),
    (["db", "c", "nodes.store", "keep.txt"], .file .empty), (["db", "c", "nodes.store"], .directory)]

/-- What the directory of the collection holds is removed with it. -/
theorem runOn_clearLeftover_mistakenDirectory :
    (clearLeftover ["db", "c"]).runOn mistakenDirectory = (.ok (), databaseWith []) := by
  have opened : mistakenDirectory.openDirectory ["db", "c"] = .ok ["db", "c"] :=
    eq_ok_of_toOption (by decide +kernel)
  have named : mistakenDirectory.names ["db", "c"] = ["nodes.store"] := List.mergeSort_singleton _
  have asked : (Disk.names ["db", "c"]).run mistakenDirectory =
      (.ok ["nodes.store"], mistakenDirectory) := by
    change ((mistakenDirectory.openDirectory ["db", "c"]).map mistakenDirectory.names, _) = _
    rw [opened, Except.map, named]
  have found : (Disk.descendants ["db", "c"]).run mistakenDirectory =
      (.ok [(["db", "c", "nodes.store", "keep.txt"], false), (["db", "c", "nodes.store"], true)],
        mistakenDirectory) := by
    refine Prod.ext ?_ rfl
    change (mistakenDirectory.openDirectory ["db", "c"]).map (fun place =>
      ((mistakenDirectory.below place).map fun entry =>
        (entry.1, entry.2.isDirectory)).mergeSort _) = _
    rw [opened]
    exact congrArg Except.ok (List.mergeSort_of_pairwise (by decide +kernel))
  have removed : (Disk.removeTree ["db", "c"]).run mistakenDirectory =
      (.ok (), databaseWith []) := by
    rw [Disk.removeTree, Disk.run_bind, found]
    exact Prod.ext (eq_ok_of_toOption (by decide +kernel)) rfl
  refine (Action.runOn_bind_of_ok _ _ (Action.runOn_lift asked) _).trans ?_
  exact Action.runOn_on removed

/-- The file is gone, though it does not belong to the collection. -/
theorem mistakenDirectory_is_removed :
    let ended := (Session.firstDatabase.engine.createCollection 0 "c").run mistakenDirectory
    let place := ["db", "c", "nodes.store", "keep.txt"]
    mistakenDirectory.entry? place = some (.file .empty) ∧
      ¬IsOwn ["db"] "c" mistakenDirectory place ∧
      ended.1.1 = .ok () ∧ FileSystem.entry? ended.2 place = none := by
  have located : mistakenDirectory.locate ["db"] = .ok ["db"] := eq_ok_of_toOption (by decide +kernel)
  have prepared : (Session.firstDatabase.engine.prepareCollection Collection.makingOrder
      "c").outcome.run mistakenDirectory = _ :=
    runOn_prepareCollection rfl (by decide) located (by decide +kernel)
      runOn_clearLeftover_mistakenDirectory
  dsimp only
  rw [createCollection, createCollectionIn, Disk.run_bind, prepared]
  refine ⟨by decide +kernel, fun own => ?_, ?_, ?_⟩
  · obtain ⟨kind, -, same⟩ := (isOwn_iff located).mp own |>.resolve_left (by decide)
    revert same
    cases kind <;> decide
  · exact eq_ok_of_toOption (by decide +kernel)
  · decide +kernel

/-- A file beside those of a collection that is to be made. -/
def foreignFile : FileSystem :=
  databaseWith [(["db", "c"], .directory), (["db", "c", "keep.txt"], .file .empty)]

theorem createCollectionIn_spares_foreignFile :
    FileSystem.entry? ((Session.firstDatabase.engine.createCollectionIn Collection.makingOrder 0
      "c").runRefusing (fun _ _ => none) 0 foreignFile).2 ["db", "c", "keep.txt"] =
        some (.file .empty) := by
  have opened : ((openAt ["db"] ⟨.little, true⟩ 0).runOn ⟨[]⟩).1 =
      .ok Session.firstDatabase.engine := eq_ok_of_toOption (by decide +kernel)
  have tree : foreignFile.IsTree := ⟨by decide +kernel, by decide +kernel, by decide +kernel⟩
  have stands : foreignFile.entry? ["db", "c", "keep.txt"] = some (.file .empty) := by
    decide +kernel
  have located : foreignFile.locate ["db"] = .ok ["db"] := eq_ok_of_toOption (by decide +kernel)
  rcases createCollectionIn_spares (knowsCatalog_of_openAt opened) tree Collection.makingOrder 0 "c"
    (fun _ _ => none) stands with kept | own | ⟨base, kind, located', -, below, -⟩
  · exact kept
  · obtain ⟨kind, -, same⟩ := (isOwn_iff located).mp own |>.resolve_left (by decide)
    revert same
    cases kind <;> decide
  · obtain rfl := Except.ok.inj (located.symm.trans located')
    revert below
    cases kind <;> decide

end Engine

end GraphStore
