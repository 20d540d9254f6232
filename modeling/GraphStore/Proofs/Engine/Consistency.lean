import GraphStore.Proofs.Engine.Completion
import GraphStore.Proofs.Engine.Listing

/-!
# Databases on disk that are consistent

A file system with a database in which every listed collection is complete, and with no more than
leftovers of others. Main statement: making and deleting collections passes only through such file
systems, each of which lists the names before the call or those behind it.
-/

set_option autoImplicit false

namespace GraphStore

open Engine

variable {start system later : FileSystem} {root base : Path} {name : String} {names : List String}

/-- Whether the path of a database leads to a place at which an empty directory stands, and the paths
of its catalog are taken by the system. -/
structure EmptyRoot (root base : Path) (start : FileSystem) : Prop where
  located : start.locate root = .ok base
  directory : start.entry? base = some .directory
  empty : ∀ other, base <+: other → other ≠ base → start.entry? other = none
  catalogAccepted : (root.child Catalog.fileName).IsAccepted
  draftAccepted : (root.child temporaryName).IsAccepted

/-- Whether all files of a collection are there and hold no records. -/
def IsEmptyCollection (root base : Path) (name : String) (system : FileSystem) : Prop :=
  ∃ endian, (Site.mk ⟨root.child name⟩ (base ++ [name]) endian).Holds .empty system

/-- Whether a file system differs from another one only below a place, where it holds a database
that lists some names. Every collection that is listed is complete, and of those that are not listed
there is nothing but store files. -/
structure IsConsistent (root base : Path) (start : FileSystem) (names : List String)
    (system : FileSystem) : Prop where
  tree : system.IsTree
  around : ∀ other, (base <+: other → other = base) → system.entry? other = start.entry? other
  listable : AreListable names
  catalog : ∃ catalog : Catalog, catalog.names = names ∧
    system.HasBytes (catalogPlace base) catalog.encode
  noDraft : system.entry? (draftPlace base) ≠ some .directory
  leftover : ∀ name, isCollectionName name = true → Leftover (base ++ [name]) system
  complete : ∀ name ∈ names, IsEmptyCollection root base name system

/-!
## Places in a database
-/

theorem EmptyRoot.keeps (empty : EmptyRoot root base start)
    (around : ∀ other, (base <+: other → other = base) →
      system.entry? other = start.entry? other) : start.Keeps system := by
  refine FileSystem.keeps_of_entry? fun other directory => ?_
  rw [around other fun below => ?_, directory]
  by_contra different
  rw [empty.empty other below different] at directory
  cases directory

theorem IsConsistent.located (consistent : IsConsistent root base start names system)
    (empty : EmptyRoot root base start) : system.locate root = .ok base :=
  FileSystem.locate_of_keeps (empty.keeps consistent.around) empty.located

theorem IsConsistent.directory (consistent : IsConsistent root base start names system)
    (empty : EmptyRoot root base start) : system.entry? base = some .directory := by
  rw [consistent.around base fun _ => rfl, empty.directory]

/-- A collection whose directory is as it was is still complete. -/
theorem IsEmptyCollection.same (isEmpty : IsEmptyCollection root base name system)
    (isName : isCollectionName name = true) (located : later.locate root = .ok base)
    (directory : later.entry? base = some .directory)
    (same : ∀ other, base ++ [name] <+: other → later.entry? other = system.entry? other) :
    IsEmptyCollection root base name later := by
  obtain ⟨endian, held⟩ := isEmpty
  refine ⟨endian, fun kind => ?_⟩
  obtain ⟨⟨content, file, bytes⟩, faithful, short⟩ := held kind
  refine ⟨⟨content, ⟨?_, ?_⟩, bytes⟩, faithful, short⟩
  · obtain ⟨parent, -, solid, split⟩ := FileSystem.exists_follow_of_child
      (FileSystem.follow_of_locate file.located) kind.isStep_fileName
    obtain rfl : base ++ [name] = parent := (List.append_inj' split rfl).1
    have here : later.entry? (base ++ [name]) = some .directory := by
      rw [same _ (List.prefix_refl _), solid.isDirectory]
    rw [locate_eq_follow (isAccepted_of_locate file.located)]
    refine follow_child ?_ here kind.isStep_fileName
    exact follow_child (FileSystem.follow_of_locate located) directory
      (isStep_of_isCollectionName isName)
  · exact (same _ (List.prefix_append (base ++ [name]) [kind.fileName])).trans file.stands

/-- What is not below a place is not below one of its names either. -/
private theorem not_below_of_away {other : Path} (away : base <+: other → other = base)
    (last : String) : ¬base ++ [last] <+: other := by
  intro below
  obtain rfl := away ((List.prefix_append base [last]).trans below)
  exact not_concat_isPrefix_self other last below

theorem ne_of_away {other : Path} (away : base <+: other → other = base) (last : String) :
    other ≠ base ++ [last] :=
  fun same => not_below_of_away away last (same ▸ List.prefix_refl _)

/-- The places of collections are not those in which a catalog is written. -/
theorem ne_of_below {place : Path} (isName : isCollectionName name = true)
    {other : String} (dotted : '.' ∈ other.toList) (below : base ++ [name] <+: place) :
    place ≠ base ++ [other] := by
  intro same
  exact not_below_of_isCollectionName isName dotted (same ▸ below)

namespace IsConsistent

theorem touches (consistent : IsConsistent root base start names system)
    (empty : EmptyRoot root base start) (isName : isCollectionName name = true)
    (unlisted : name ∉ names) (touches : Touches base name system later) :
    IsConsistent root base start names later := by
  have around : ∀ other, (base <+: other → other = base) →
      later.entry? other = start.entry? other := by
    intro other away
    rw [touches.outside other (not_below_of_away away name) (ne_of_away away _),
      consistent.around other away]
  -- What lies below one collection lies below no other one, and is not the draft.
  have beside : ∀ {different}, isCollectionName different = true → different ≠ name →
      ∀ other, base ++ [different] <+: other → later.entry? other = system.entry? other := by
    intro different isDifferent ne other below
    refine touches.outside other (fun both => ?_) (ne_of_below isDifferent (by decide) below)
    have same := List.prefix_of_prefix_length_le below both (by simp)
    exact ne (concat_prefix_concat_iff.mp same)
  have located := FileSystem.locate_of_keeps (empty.keeps around) empty.located
  have directory : later.entry? base = some .directory := by
    rw [around base fun _ => rfl, empty.directory]
  refine ⟨touches.tree, around, consistent.listable, ?_, ?_, ?_, ?_⟩
  · obtain ⟨catalog, same, content, stands, bytes⟩ := consistent.catalog
    refine ⟨catalog, same, content, ?_, bytes⟩
    rw [touches.outside (catalogPlace base) (not_below_of_isCollectionName isName (by decide))
      draftPlace_ne_catalogPlace.symm, stands]
  · exact fun draft => consistent.noDraft (touches.former draft)
  · intro other isOther
    by_cases same : other = name
    · exact same ▸ touches.leftover (consistent.leftover name isName)
    · exact (consistent.leftover other isOther).same (beside isOther same)
  · intro other listed
    have isOther := consistent.listable.valid other listed
    have different : other ≠ name := fun same => unlisted (same ▸ listed)
    exact (consistent.complete other listed).same isOther located directory
      (beside isOther different)

/-- A catalog lists complete collections as soon as it is written. -/
theorem rewritten {listed : List String} (consistent : IsConsistent root base start names system)
    (empty : EmptyRoot root base start) (tree : later.IsTree)
    (outside : ∀ other, other ≠ draftPlace base → other ≠ catalogPlace base →
      later.entry? other = system.entry? other)
    (noDraft : later.entry? (draftPlace base) ≠ some .directory)
    (catalog : ∃ catalog : Catalog, catalog.names = listed ∧
      later.HasBytes (catalogPlace base) catalog.encode)
    (listable : AreListable listed)
    (complete : ∀ name ∈ listed, IsEmptyCollection root base name system) :
    IsConsistent root base start listed later := by
  have around : ∀ other, (base <+: other → other = base) →
      later.entry? other = start.entry? other := by
    intro other away
    rw [outside other (ne_of_away away _) (ne_of_away away _), consistent.around other away]
  have beside : ∀ {name}, isCollectionName name = true → ∀ other, base ++ [name] <+: other →
      later.entry? other = system.entry? other := fun isName other below =>
    outside other (ne_of_below isName (by decide) below) (ne_of_below isName (by decide) below)
  have located := FileSystem.locate_of_keeps (empty.keeps around) empty.located
  have directory : later.entry? base = some .directory := by
    rw [around base fun _ => rfl, empty.directory]
  refine ⟨tree, around, listable, catalog, noDraft, ?_, ?_⟩
  · exact fun name isName => (consistent.leftover name isName).same (beside isName)
  · intro name member
    have isName := listable.valid name member
    exact (complete name member).same isName located directory (beside isName)

theorem altered (consistent : IsConsistent root base start names system)
    (empty : EmptyRoot root base start) (altered : Altered (draftPlace base) system later) :
    IsConsistent root base start names later := by
  refine consistent.rewritten empty altered.tree (fun other notDraft _ => altered.outside other
    notDraft) (fun draft => consistent.noDraft (altered.former draft)) ?_ consistent.listable
    consistent.complete
  obtain ⟨catalog, same, content, stands, bytes⟩ := consistent.catalog
  refine ⟨catalog, same, content, ?_, bytes⟩
  rw [altered.outside _ draftPlace_ne_catalogPlace.symm, stands]

theorem relisted {catalog : Catalog} (consistent : IsConsistent root base start names system)
    (empty : EmptyRoot root base start) (relisted : Relisted base catalog system later)
    (listable : AreListable catalog.names)
    (complete : ∀ name ∈ catalog.names, IsEmptyCollection root base name system) :
    IsConsistent root base start catalog.names later :=
  consistent.rewritten empty relisted.tree relisted.outside (by rw [relisted.noDraft]; nofun)
    ⟨catalog, rfl, relisted.written⟩ listable complete

end IsConsistent

/-!
## Calls
-/

theorem CollectionCall.listing_create {order : Collection.MakingOrder} {now : Int64}
    (isName : isCollectionName name = true) (new : name ∉ names) :
    (CollectionCall.create order now name).listing names = names ++ [name] := by
  rw [listing, if_pos]
  simpa [isName] using new

variable {engine : Engine}

/-- Whether a database is the one in a consistent file system. -/
structure Engine.Serves (engine : Engine) (root base : Path) (start system : FileSystem) : Prop where
  root_eq : engine.root = root
  knows : engine.KnowsCatalog
  consistent : IsConsistent root base start engine.collections system

theorem Engine.Serves.leads (serves : engine.Serves root base start system)
    (empty : EmptyRoot root base start) : engine.root.LeadsTo base :=
  leadsTo_of_locate (serves.root_eq ▸ serves.consistent.located empty)

theorem IsConsistent.creates {now : Int64} {listed : Catalog}
    (consistent : IsConsistent root base start engine.collections system)
    (empty : EmptyRoot root base start)
    (creates : engine.Creates base now name (IsEmptyCollection root base name) system listed
      later) : IsConsistent root base start listed.names later := by
  obtain ⟨added, prepared, ready, touches, relisted⟩ := creates
  have listable := Catalog.listable_add consistent.listable added
  obtain ⟨isName, new, rfl⟩ := Catalog.add_eq_ok added
  have before := consistent.touches empty isName new touches
  refine before.relisted empty relisted listable fun other member => ?_
  rcases List.mem_append.mp member with former | isNew
  · exact before.complete other former
  · exact List.mem_singleton.mp isNew ▸ ready

theorem IsConsistent.deletes {now : Int64} {unlisted : Catalog}
    (consistent : IsConsistent root base start engine.collections system)
    (empty : EmptyRoot root base start)
    (deletes : engine.Deletes base now name system unlisted later) :
    IsConsistent root base start unlisted.names later := by
  obtain ⟨removed, middle, relisted, touches⟩ := deletes
  have listable := Catalog.listable_remove consistent.listable removed
  have isName := consistent.listable.valid name (Catalog.mem_of_remove_eq_ok removed)
  obtain rfl := Catalog.remove_eq_ok removed
  have between := consistent.relisted empty relisted listable fun other member =>
    consistent.complete other (List.mem_of_mem_erase member)
  exact between.touches empty isName consistent.listable.nodup.not_mem_erase touches

namespace Engine.Serves

/-- A collection that is made holds no records before it is listed. -/
private theorem isReady {order : Collection.MakingOrder} (leads : engine.root.LeadsTo base) :
    (engine.prepareCollection order.steps name).Passes False (fun _ => True)
      (fun outcome later => outcome = .ok () → IsEmptyCollection engine.root base name later)
      system := by
  refine (Disk.passes_run (engine.prepareCollection order.steps name).outcome system).imp
    (fun _ => id) fun outcome later ran => ?_
  intro succeeded
  subst succeeded
  obtain ⟨isName, ⟨_, known⟩, middle, stored⟩ := makeStore_of_prepareCollection ran
  obtain ⟨place, located, -, held⟩ := holds_empty_of_makeStore known order.isOrder isName stored
  obtain rfl := leads.eq_of_locate located
  exact ⟨engine.options.endian, held⟩

theorem passes_create (serves : engine.Serves root base start system)
    (empty : EmptyRoot root base start) (order : Collection.MakingOrder) (now : Int64)
    (name : String) :
    (engine.perform (.create order now name)).Passes False
      (fun later => IsConsistent root base start engine.collections later ∨ IsConsistent root base
        start ((CollectionCall.create order now name).listing engine.collections) later)
      (fun result later => result.2.Serves root base start later ∧ (result.1 = .ok () →
        result.2.collections = (CollectionCall.create order now name).listing engine.collections))
      system := by
  have leads := serves.leads empty
  obtain ⟨rfl, knows, consistent⟩ := serves
  have creates : ∀ {listed later}, engine.Creates base now name
      (IsEmptyCollection engine.root base name) system listed later →
      listed.names = (CollectionCall.create order now name).listing engine.collections := by
    intro listed later creates
    obtain ⟨isName, new, rfl⟩ := Catalog.add_eq_ok creates.added
    exact (CollectionCall.listing_create isName new).symm
  refine (passes_createCollectionIn knows leads consistent.tree (isReady leads)).imp ?_ ?_
  · intro later passing
    rcases passing with prepares | ⟨listed, created⟩
    · exact .inl (consistent.touches empty prepares.isName prepares.unlisted prepares.touches)
    · exact .inr (creates created ▸ consistent.creates empty created)
  · intro result later ends
    cases ends with
    | refused => exact ⟨⟨rfl, knows, consistent⟩, nofun⟩
    | undone path names prepares =>
        have kept := consistent.touches empty prepares.isName prepares.unlisted prepares.touches
        refine ⟨⟨rfl, ⟨path.trans knows.path, ?_⟩, ?_⟩, nofun⟩
        · exact names ▸ knows.listable
        · rw [collections, names]
          exact kept
    | created created =>
        exact ⟨⟨rfl, knows.add created.added, consistent.creates empty created⟩,
          fun _ => creates created⟩

theorem passes_delete (serves : engine.Serves root base start system)
    (empty : EmptyRoot root base start) (now : Int64) (name : String) :
    (engine.perform (.delete now name)).Passes False
      (fun later => IsConsistent root base start engine.collections later ∨ IsConsistent root base
        start ((CollectionCall.delete now name).listing engine.collections) later)
      (fun result later => (∀ error, result.1 = .error error → error.osError? = none) →
        result.2.Serves root base start later ∧ (result.1 = .ok () →
          result.2.collections = (CollectionCall.delete now name).listing engine.collections))
      system := by
  have leads := serves.leads empty
  obtain ⟨rfl, knows, consistent⟩ := serves
  have deletes : ∀ {unlisted later}, engine.Deletes base now name system unlisted later →
      unlisted.names = (CollectionCall.delete now name).listing engine.collections := by
    intro unlisted later deletes
    obtain rfl := Catalog.remove_eq_ok deletes.removed
    rfl
  refine (passes_deleteCollection knows leads consistent.tree).imp ?_ ?_
  · intro later passing
    rcases passing with altered | ⟨unlisted, deleted⟩
    · exact .inl (consistent.altered empty altered)
    · exact .inr (deletes deleted ▸ consistent.deletes empty deleted)
  · intro result later ends unrefused
    cases ends with
    | refused => exact ⟨⟨rfl, knows, consistent⟩, nofun⟩
    | deleted deleted =>
        exact ⟨⟨rfl, knows.remove deleted.removed, consistent.deletes empty deleted⟩,
          fun _ => deletes deleted⟩
    | restored refusedBySystem =>
        rw [unrefused _ rfl] at refusedBySystem
        cases refusedBySystem

/-- A call passes only through consistent file systems, each of which lists the names before the call
or those behind it. -/
theorem passes_perform (serves : engine.Serves root base start system)
    (empty : EmptyRoot root base start) (call : CollectionCall) :
    (engine.perform call).Passes False
      (fun later => IsConsistent root base start engine.collections later ∨
        IsConsistent root base start (call.listing engine.collections) later)
      (fun result later => (∀ error, result.1 = .error error → error.osError? = none) →
        result.2.Serves root base start later ∧
          (result.1 = .ok () → result.2.collections = call.listing engine.collections))
      system := by
  cases call with
  | create order now name =>
      exact (serves.passes_create empty order now name).imp (fun _ => id) fun _ _ ended _ => ended
  | delete now name => exact serves.passes_delete empty now name

end Engine.Serves

end GraphStore
