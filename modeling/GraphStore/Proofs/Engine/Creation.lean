import GraphStore.Engine.Basic
import GraphStore.Proofs.Catalog
import GraphStore.Proofs.Collection.Making
import GraphStore.Proofs.Disk.Passing

/-!
# Collections that are made and opened again

Main statements: a collection that was made has files without records, and a database that lists a
collection on disk lists it again when it is opened anew, as long as only the files of the
collection were changed.
-/

set_option autoImplicit false

namespace GraphStore

namespace Engine

variable {engine later : Engine} {order : List Collection.Making} {now : Int64} {name : String}
  {system made : FileSystem}

/-!
## Engines
-/

/-- Whether an engine came from opening a database and from making and deleting collections in it,
whatever the file system was each time. -/
inductive IsOpen : Engine → Prop where
  | opened {engine : Engine} (root : Path) (options : EngineOptions) (now : Int64)
      (system : FileSystem) (succeeded : ((openAt root options now).runOn system).1 = .ok engine) :
      IsOpen engine
  | created {engine : Engine} (former : IsOpen engine) (order : List Collection.Making)
      (now : Int64) (name : String) (system : FileSystem) :
      IsOpen ((engine.createCollectionIn order now name).run system).1.2
  | deleted {engine : Engine} (former : IsOpen engine) (now : Int64) (name : String)
      (system : FileSystem) : IsOpen ((engine.deleteCollection now name).run system).1.2

/-- What an engine knows about its catalog. -/
structure KnowsCatalog (engine : Engine) : Prop where
  path : engine.catalog.path = engine.root.child Catalog.fileName
  listable : AreListable engine.catalog.names

theorem KnowsCatalog.add {listed : Catalog} (knows : engine.KnowsCatalog)
    (added : engine.catalog.add now name = .ok listed) :
    KnowsCatalog { engine with catalog := listed } where
  path := by
    obtain ⟨-, -, rfl⟩ := Catalog.add_eq_ok added
    exact knows.path
  listable := Catalog.listable_add knows.listable added

theorem KnowsCatalog.remove {unlisted : Catalog} (knows : engine.KnowsCatalog)
    (removed : engine.catalog.remove now name = .ok unlisted) :
    KnowsCatalog { engine with catalog := unlisted } where
  path := by
    obtain rfl := Catalog.remove_eq_ok removed
    exact knows.path
  listable := Catalog.listable_remove knows.listable removed

/-- Whether an engine came from another one that knows its catalog by a call on a collection, so
that it serves the same directory and lists the same other collections. -/
structure Follows (name : String) (engine later : Engine) : Prop where
  root : later.root = engine.root
  knows : later.KnowsCatalog
  others : ∀ other, other ≠ name → (other ∈ later.collections ↔ other ∈ engine.collections)

theorem Follows.refl (knows : engine.KnowsCatalog) : engine.Follows name engine :=
  ⟨rfl, knows, fun _ _ => Iff.rfl⟩

theorem Follows.trans {last : Engine} (first : engine.Follows name later)
    (second : later.Follows name last) : engine.Follows name last :=
  ⟨second.root.trans first.root, second.knows, fun other different =>
    (second.others other different).trans (first.others other different)⟩

theorem KnowsCatalog.follows_add {listed : Catalog} (knows : engine.KnowsCatalog)
    (added : engine.catalog.add now name = .ok listed) :
    engine.Follows name { engine with catalog := listed } where
  root := rfl
  knows := knows.add added
  others other different := by
    obtain ⟨-, -, rfl⟩ := Catalog.add_eq_ok added
    simp [collections, different]

theorem KnowsCatalog.follows_remove {unlisted : Catalog} (knows : engine.KnowsCatalog)
    (removed : engine.catalog.remove now name = .ok unlisted) :
    engine.Follows name { engine with catalog := unlisted } where
  root := rfl
  knows := knows.remove removed
  others other different := by
    obtain rfl := Catalog.remove_eq_ok removed
    exact List.mem_erase_of_ne different

section

variable {mayRefuse : Prop}

theorem KnowsCatalog.follows_createCollectionIn (knows : engine.KnowsCatalog) :
    (engine.createCollectionIn order now name).Passes mayRefuse (fun _ => True)
      (fun result _ => engine.Follows name result.2) system := by
  refine (Disk.stays_anywhere _ _).bind fun outcome _ _ => ?_
  cases outcome with
  | error error => exact Disk.Passes.pure (.refl knows)
  | ok =>
  dsimp only
  split
  · exact Disk.Passes.pure (.refl knows)
  next listed added =>
  have follows := knows.follows_add added
  refine (Disk.stays_anywhere _ _).bind fun outcome _ _ => ?_
  cases outcome with
  | ok => exact Disk.Passes.pure follows
  | error error =>
      refine (Disk.stays_anywhere _ _).bind fun _ _ _ => Disk.Passes.pure ?_
      cases removed : listed.remove now name with
      | ok unlisted => exact follows.trans (follows.knows.follows_remove removed)
      | error refusal => exact follows

theorem KnowsCatalog.follows_deleteCollection (knows : engine.KnowsCatalog) :
    (engine.deleteCollection now name).Passes mayRefuse (fun _ => True)
      (fun result _ => engine.Follows name result.2) system := by
  unfold deleteCollection
  split
  · exact Disk.Passes.pure (.refl knows)
  next unlisted removed =>
  have follows := knows.follows_remove removed
  refine (Disk.stays_anywhere _ _).bind fun outcome _ _ => ?_
  cases outcome with
  | ok => exact (Disk.stays_anywhere _ _).bind fun _ _ _ => Disk.Passes.pure follows
  | error error =>
      dsimp only
      split
      next listed added =>
        exact Disk.Passes.pure (follows.trans (follows.knows.follows_add added))
      · exact Disk.Passes.pure follows

end

theorem KnowsCatalog.createCollectionIn (knows : engine.KnowsCatalog) :
    KnowsCatalog ((engine.createCollectionIn order now name).run system).1.2 :=
  (knows.follows_createCollectionIn : Disk.Passes False _ _ _ system).run.knows

theorem KnowsCatalog.deleteCollection (knows : engine.KnowsCatalog) :
    KnowsCatalog ((engine.deleteCollection now name).run system).1.2 :=
  (knows.follows_deleteCollection : Disk.Passes False _ _ _ system).run.knows

theorem knowsCatalog_of_loadOrCreate {root : Path} {catalog : Catalog}
    (loaded : (Catalog.loadOrCreate root now).runOn system = (.ok catalog, made))
    (options : EngineOptions) : KnowsCatalog ⟨root, options, catalog⟩ := by
  rcases Catalog.decode_or_fresh_of_loadOrCreate loaded with ⟨bytes, decoded⟩ | rfl
  · obtain ⟨path, listable⟩ := Catalog.decode_eq_ok decoded
    exact ⟨path, listable⟩
  · exact ⟨rfl, areListable_nil⟩

theorem knowsCatalog_of_openAt {root : Path} {options : EngineOptions}
    (opened : ((openAt root options now).runOn system).1 = .ok engine) : engine.KnowsCatalog := by
  obtain ⟨last, whole⟩ : ∃ last, (openAt root options now).runOn system = (.ok engine, last) :=
    ⟨_, Prod.ext opened rfl⟩
  obtain ⟨directory, middle, -, rest⟩ := Action.exists_of_runOn_bind whole
  cases directory with
  | error cause => cases rest
  | ok =>
      obtain ⟨catalog, behind, loaded, same⟩ := Action.exists_of_runOn_bind rest
      cases same
      exact knowsCatalog_of_loadOrCreate loaded options

theorem IsOpen.knowsCatalog (isOpen : engine.IsOpen) : engine.KnowsCatalog := by
  induction isOpen with
  | opened _ _ _ _ succeeded => exact knowsCatalog_of_openAt succeeded
  | created _ _ _ _ _ ih => exact ih.createCollectionIn
  | deleted _ _ _ _ ih => exact ih.deleteCollection

/-!
## Catalogs on disk
-/

/-- The name of the file in which a new catalog is written first. -/
def temporaryName : String := "strand.catalog.tmp"

theorem temporaryPath_child (root : Path) :
    Catalog.temporaryPath (root.child Catalog.fileName) = root.child temporaryName := by
  have ending : Catalog.withEnding Catalog.fileName "catalog.tmp" = temporaryName := by decide
  rw [Catalog.temporaryPath, Path.getLast?_child, Option.getD_some, ending]
  simp only [Path.child, List.dropLast_concat]

/-- A catalog that is written takes its place, and changes nothing but this and the place at which
it was written first. -/
private theorem hasFile_of_flush {catalog : Catalog} {root base : Path} {later : FileSystem}
    (path : catalog.path = root.child Catalog.fileName) (located : system.locate root = .ok base)
    (flushed : catalog.flush.runOn system = (.ok (), later)) :
    ∃ content, content.toList = catalog.encode ∧
      later.HasFile (root.child Catalog.fileName) (base ++ [Catalog.fileName]) content ∧
      system.Keeps later ∧
      ∀ place, ¬base ++ [temporaryName] <+: place → ¬base ++ [Catalog.fileName] <+: place →
        later.entry? place = system.entry? place := by
  obtain ⟨_, middle, wrote, renamed⟩ := Action.exists_of_runOn_bind flushed
  rw [path, temporaryPath_child] at wrote renamed
  obtain ⟨temporary, content, bytes, file, keeps, same⟩ :=
    FileSystem.hasFile_of_write (Action.run_of_runOn_on wrote)
  obtain ⟨place, moved, movedKeeps, movedSame⟩ := FileSystem.hasFile_of_change_rename
    (Disk.change_of_run (Action.run_of_runOn_on renamed)) file
  have locatedMiddle := FileSystem.locate_of_keeps keeps located
  obtain rfl := FileSystem.eq_append_of_child locatedMiddle file.located (by decide)
  obtain rfl := FileSystem.eq_append_of_child
    (FileSystem.locate_of_keeps movedKeeps locatedMiddle) moved.located (by decide)
  refine ⟨content, bytes, moved, keeps.trans movedKeeps, fun other outside apart => ?_⟩
  rw [movedSame other outside apart, same other]
  intro same
  subst same
  exact outside (List.prefix_refl _)

/-!
## Making a collection
-/

/-- The directory of a collection in a database whose root is at a place. -/
def siteAt (engine : Engine) (base : Path) (name : String) : Site where
  collection := ⟨engine.directory name⟩
  place := base ++ [name]
  endian := engine.options.endian

/-- A collection whose files are made stands in the root of its database. -/
theorem holds_empty_of_makeStore {other : FileSystem} {elsewhere : Path}
    (known : other.locate engine.root = .ok elsewhere) (isOrder : Collection.IsMakingOrder order)
    (isName : isCollectionName name = true)
    (succeeded : (engine.makeStore order (engine.directory name)).runOn system = (.ok (), made)) :
    ∃ base, made.locate engine.root = .ok base ∧ made.Solid base ∧
      (engine.siteAt base name).Holds .empty made := by
  obtain ⟨_, middle, makes, rest⟩ := Action.exists_of_runOn_bind succeeded
  obtain ⟨place, located, vacant, rfl⟩ := FileSystem.put_of_change_makeDirectory
    (Disk.change_of_run (Action.run_of_runOn_on makes))
  rw [directory, Path.trimmed_eq_self (getLast?_child_ne_of_isCollectionName isName _)] at located
  obtain ⟨base, rootLocated, solid, rfl⟩ := FileSystem.exists_directory_of_child known located
    (isStep_of_isCollectionName isName)
  have keeps : system.Keeps (system.put (base ++ [name]) .directory) :=
    FileSystem.keeps_put _ (by rw [vacant]; nofun)
  have stands : (engine.siteAt base name).Stands (system.put (base ++ [name]) .directory) := by
    refine ⟨FileSystem.locate_of_keeps keeps located, ?_⟩
    intro above isAbove
    rcases List.prefix_concat_iff.mp isAbove with rfl | higher
    · exact FileSystem.entry?_put_self system _ (FileSystem.ne_nil_of_entry?_eq_none vacant)
    · exact keeps base solid above higher
  have filesMade : ((engine.siteAt base name).collection.makeFilesIn order
      (engine.siteAt base name).endian).runOn (system.put (base ++ [name]) .directory) =
        (.ok (), made) := by
    rcases Action.runOn_or_of_runOn_tryCatch rest with alone | ⟨_, _, -, handled⟩
    · exact alone
    · obtain ⟨_, _, -, thrown⟩ := Action.exists_of_runOn_bind handled
      cases thrown
  obtain ⟨held, filesKeep⟩ := Site.holds_empty_of_makeFilesIn isOrder stands filesMade
  have allKept := keeps.trans filesKeep
  exact ⟨base, FileSystem.locate_of_keeps allKept rootLocated, allKept base solid, held⟩

/-- The root of a database in which a collection could be made was there. -/
theorem makeStore_of_prepareCollection
    (prepared : (engine.prepareCollection order name).runOn system = (.ok (), made)) :
    isCollectionName name = true ∧ (∃ place, system.locate engine.root = .ok place) ∧
      ∃ middle, (engine.makeStore order (engine.directory name)).runOn middle = (.ok (), made) := by
  obtain ⟨_, checked, rest⟩ := Action.exists_of_runOn_of prepared
  obtain ⟨present, middle, asked, rest⟩ := Action.exists_of_runOn_bind rest
  change Disk.run (_ >>= _) _ = _ at asked
  rw [Disk.run_bind] at asked
  dsimp only at rest
  split at rest
  · split at rest
    · cases rest
    · obtain ⟨_, cleared, -, rest⟩ := Action.exists_of_runOn_bind rest
      refine ⟨checkCollectionName_eq_ok_iff.mp checked, FileSystem.locate_of_present ?_, cleared,
        rest⟩
      exact Except.ok.inj (congrArg Prod.fst asked)
  · cases rest

/-- Whether a catalog is the one on disk of the database whose root leads to a place. -/
structure HoldsCatalog (root base : Path) (catalog : Catalog) (system : FileSystem) : Prop where
  located : system.locate root = .ok base
  solid : system.Solid base
  path : catalog.path = root.child Catalog.fileName
  listable : AreListable catalog.names
  file : ∃ content, content.toList = catalog.encode ∧
    system.HasFile (root.child Catalog.fileName) (base ++ [Catalog.fileName]) content

/-- Whether a database lists a collection in memory and on disk. -/
structure Lists (engine : Engine) (name : String) (site : Site) (system : FileSystem) : Prop where
  collection : site.collection = ⟨engine.directory name⟩
  listed : name ∈ engine.catalog.names
  onDisk : ∃ base catalog, site.place = base ++ [name] ∧ name ∈ catalog.names ∧
    HoldsCatalog engine.root base catalog system

theorem Lists.collection_eq {site : Site} (lists : engine.Lists name site system) :
    engine.collection name = .ok site.collection := by
  have contained : engine.hasCollection name = true := by
    rw [hasCollection, Catalog.contains, List.contains_iff_mem]
    exact lists.listed
  rw [Engine.collection, if_pos contained, lists.collection]

theorem Lists.beside {site : Site} {stores : Stores} {last : FileSystem}
    (lists : engine.Lists name site system) (held : site.Holds stores system)
    (beside : site.Beside system last) : engine.Lists name site last where
  collection := lists.collection
  listed := lists.listed
  onDisk := by
    obtain ⟨base, catalog, place, listed, holds⟩ := lists.onDisk
    obtain ⟨content, bytes, file⟩ := holds.file
    have keeps := beside.keeps held
    refine ⟨base, catalog, place, listed, FileSystem.locate_of_keeps keeps holds.located,
      keeps base holds.solid, holds.path, holds.listable, content, bytes,
      FileSystem.locate_of_keeps keeps file.located, ?_⟩
    rw [beside, file.stands]
    intro kind same
    have width := congrArg List.length same
    simp [Site.placeOf, place] at width

/-- The files of a collection are none of those in which a catalog is written. -/
private theorem placeOf_not_below {site : Site} {base : Path} {other : String}
    (place : site.place = base ++ [name]) (different : other ≠ name) (kind : StoreKind) :
    ¬base ++ [other] <+: site.placeOf kind := by
  rw [Site.placeOf, place, List.append_assoc, List.prefix_append_right_inj]
  intro below
  exact different (List.cons_prefix_cons.mp below).1

private theorem exists_of_createCollectionIn
    (succeeded : (engine.createCollectionIn order now name).run system = ((.ok (), later), made)) :
    ∃ prepared listed, (engine.prepareCollection order name).runOn system = (.ok (), prepared) ∧
      engine.catalog.add now name = .ok listed ∧
      listed.flush.runOn prepared = (.ok (), made) ∧ later = { engine with catalog := listed } := by
  rw [createCollectionIn, Disk.run_bind] at succeeded
  split at succeeded
  · cases succeeded
  next prepared =>
  split at succeeded
  · cases succeeded
  next listed added =>
  rw [Disk.run_bind] at succeeded
  split at succeeded
  next flushed =>
    cases succeeded
    exact ⟨_, listed, Prod.ext prepared rfl, added, Prod.ext flushed rfl, rfl⟩
  · rw [Disk.run_bind] at succeeded
    cases succeeded

/-- A collection that is made is listed, and its files hold no records. -/
theorem lists_of_createCollectionIn (knows : engine.KnowsCatalog)
    (isOrder : Collection.IsMakingOrder order)
    (succeeded : (engine.createCollectionIn order now name).run system = ((.ok (), later), made)) :
    ∃ site : Site, later.Lists name site made ∧ site.Holds .empty made := by
  obtain ⟨middle, listed, prepared, added, flushed, rfl⟩ := exists_of_createCollectionIn succeeded
  obtain ⟨isName, ⟨_, known⟩, _, stored⟩ := makeStore_of_prepareCollection prepared
  obtain ⟨base, located, solid, held⟩ := holds_empty_of_makeStore known isOrder isName stored
  have knowsListed := knows.add added
  obtain ⟨content, bytes, file, keeps, same⟩ := hasFile_of_flush knowsListed.path located flushed
  have isListed : name ∈ listed.names := by
    obtain ⟨-, -, rfl⟩ := Catalog.add_eq_ok added
    exact List.mem_append_right _ (List.mem_singleton_self name)
  refine ⟨engine.siteAt base name, ⟨rfl, isListed, base, listed, rfl, isListed,
    FileSystem.locate_of_keeps keeps located, keeps base solid, knowsListed.path,
    knowsListed.listable, content, bytes, file⟩, held.kept keeps fun kind => ?_⟩
  apply same
  · exact placeOf_not_below rfl (ne_of_isCollectionName isName (by decide)).symm kind
  · exact placeOf_not_below rfl (ne_of_isCollectionName isName (by decide)).symm kind

/-!
## Opening a database again
-/

theorem run_isDirectory {path base : Path} (located : system.locate path = .ok base)
    (directory : system.entry? base = some .directory) :
    (Disk.isDirectory path).run system = (.ok true, system) := by
  refine congrArg (·, system) ?_
  rw [Question.answer, FileSystem.resolve_eq located directory]
  rfl

private theorem run_acceptDirectory {path base : Path} (located : system.locate path = .ok base)
    (directory : system.entry? base = some .directory) (refusal : OsError) :
    (Disk.acceptDirectory path (.error refusal)).run system = (.ok (), system) := by
  rw [Disk.acceptDirectory, Disk.run_bind, run_isDirectory located directory]
  rfl

theorem run_makeDirectoryAndAbove {path base : Path} (located : system.locate path = .ok base)
    (directory : system.entry? base = some .directory) :
    (Disk.makeDirectoryAndAbove path).run system = (.ok (), system) := by
  obtain ⟨refusal, refused, isThere⟩ := FileSystem.change_makeDirectory_of_solid located directory
  have attempted : (Disk.change (.makeDirectory path)).run system = (.error refusal, system) := by
    rw [Disk.change]
    simp only [Disk.run, refused]
  rw [Disk.makeDirectoryAndAbove]
  cases path.length with
  | zero =>
      rw [Disk.makeDirectories, Disk.run_bind, attempted]
      exact run_acceptDirectory located directory refusal
  | succ depth =>
      rw [Disk.makeDirectories, Disk.run_bind, attempted]
      simp only [isThere, ↓reduceIte]
      exact run_acceptDirectory located directory refusal

private theorem runOn_loadOrCreate {root base : Path} {catalog : Catalog}
    (holds : HoldsCatalog root base catalog system) (now : Int64) :
    (Catalog.loadOrCreate root now).runOn system = (.ok catalog, system) := by
  obtain ⟨content, bytes, file⟩ := holds.file
  have answer : (Question.entry (root.child Catalog.fileName)).answer system = .ok false := by
    rw [Question.answer, file.resolve_eq]
    rfl
  have asked : (Disk.isDirectory (root.child Catalog.fileName)).run system = (.ok false, system) :=
    congrArg (·, system) answer
  have present : (Disk.present (root.child Catalog.fileName)).run system = (.ok true, system) := by
    rw [Disk.present, Disk.run_bind, asked]
    rfl
  have given : (Disk.content (root.child Catalog.fileName)).run system =
      (.ok catalog.encode, system) := by
    rw [Disk.run_eq_trace, file.trace_content, bytes]
    rfl
  have decoded : Catalog.decode (root.child Catalog.fileName) catalog.encode = .ok catalog := by
    rw [← holds.path, Catalog.decode_encode holds.listable]
  have loaded : (Catalog.load (root.child Catalog.fileName)).runOn system = (.ok catalog, system) := by
    refine (Action.runOn_bind_of_ok catalog.encode system ?_ _).trans ?_
    · change Disk.run (_ >>= _) system = _
      rw [Disk.run_bind, given]
      rfl
    · simp only [decoded]
      rfl
  refine (Action.runOn_bind_of_ok true system ?_ _).trans loaded
  change Disk.run (_ >>= _) system = _
  rw [Disk.run_bind, present]
  rfl

/-- A catalog that is on disk is the one of the database that is opened. -/
theorem runOn_openAt {root base : Path} {catalog : Catalog}
    (holds : HoldsCatalog root base catalog system) (options : EngineOptions) (now : Int64) :
    (openAt root options now).runOn system = (.ok ⟨root, options, catalog⟩, system) := by
  have directories := run_makeDirectoryAndAbove holds.located holds.solid.isDirectory
  have loaded := runOn_loadOrCreate holds now
  refine (Action.runOn_bind_of_ok (.ok ()) system ?_ _).trans ?_
  · change Disk.run (_ >>= _) system = _
    rw [Disk.run_bind, directories]
    rfl
  · exact (Action.runOn_bind_of_ok catalog system loaded _).trans rfl

/-- A database that is opened again lists what it listed. -/
theorem openAt_of_lists {site : Site} (lists : engine.Lists name site system)
    (options : EngineOptions) (now : Int64) :
    ∃ again, (openAt engine.root options now).runOn system = (.ok again, system) ∧
      again.Lists name site system := by
  obtain ⟨base, catalog, place, listed, holds⟩ := lists.onDisk
  exact ⟨⟨engine.root, options, catalog⟩, runOn_openAt holds options now, lists.collection, listed,
    base, catalog, place, listed, holds⟩

end Engine

end GraphStore
