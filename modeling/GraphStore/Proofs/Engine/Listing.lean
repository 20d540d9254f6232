import GraphStore.Proofs.Engine.Confinement
import GraphStore.Proofs.Engine.Session

/-!
# Lists of collections in memory and on disk

The names that an open database holds and those in its catalog file, while collections are made and
deleted and the system refuses whatever it likes. Main statement: both lists always hold the same
names, and in the same order unless a collection could not be taken from the catalog file, which
moves its name to the end of the list in memory.
-/

set_option autoImplicit false

namespace GraphStore

/-!
## Names in a catalog file
-/

namespace Catalog

variable {system later : FileSystem} {place path other : Path} {catalog : Catalog}

/-- The names in the catalog file at a place. -/
def namesAt (place : Path) (system : FileSystem) : Option (List String) :=
  match system.entry? place with
  | some (.file content) => (decode place content.toList).toOption.map Catalog.names
  | _ => none

theorem namesAt_congr (same : later.entry? place = system.entry? place) :
    namesAt place later = namesAt place system := by
  rw [namesAt, namesAt, same]

/-- The path of a catalog file is no part of what it says. -/
theorem decode_at_path {bytes : List UInt8} (decoded : decode path bytes = .ok catalog) :
    decode other bytes = .ok { catalog with path := other } := by
  rw [decode] at decoded ⊢
  split at decoded
  · cases decoded
  next long =>
  rw [if_neg long]
  split at decoded
  · cases decoded
  next marked =>
  rw [if_neg marked]
  dsimp only at decoded ⊢
  split at decoded
  · cases decoded
  next numbered =>
  rw [if_neg numbered]
  obtain ⟨names, read, rest⟩ := exists_of_bind_eq_ok decoded
  cases rest
  rw [read]
  rfl

theorem namesAt_of_decode {content : Content} (stands : system.entry? place = some (.file content))
    (decoded : decode path content.toList = .ok catalog) :
    namesAt place system = some catalog.names := by
  rw [namesAt, stands]
  simp only [decode_at_path decoded]
  rfl

theorem namesAt_of_hasBytes (listable : AreListable catalog.names)
    (written : system.HasBytes place catalog.encode) : namesAt place system = some catalog.names := by
  obtain ⟨content, stands, bytes⟩ := written
  exact namesAt_of_decode stands (bytes ▸ decode_encode listable)

end Catalog

/-!
## Calls
-/

/-- A call that makes or deletes a collection. -/
inductive CollectionCall where
  | create (order : Collection.MakingOrder) (now : Int64) (name : String)
  | delete (now : Int64) (name : String)

namespace CollectionCall

def name : CollectionCall → String
  | create _ _ name => name
  | delete _ name => name

/-- The names behind a call. A name that cannot name a collection is not put to the others. -/
def listing : CollectionCall → List String → List String
  | create _ _ name, names =>
      if isCollectionName name && !names.contains name then names ++ [name] else names
  | delete _ name, names => names.erase name

end CollectionCall

/-- How a call changes the names in memory and those on disk. -/
inductive Relists (names onDisk : List String) :
    CollectionCall → Except Error Unit → List String → List String → Prop where
  | refused {call : CollectionCall} {error : Error} :
      Relists names onDisk call (.error error) names onDisk
  | created {order : Collection.MakingOrder} {now : Int64} {name : String}
      (isName : isCollectionName name = true) (new : name ∉ names) :
      Relists names onDisk (.create order now name) (.ok ()) (names ++ [name]) (names ++ [name])
  /-- The name is taken out, whether the directory of the collection can be removed or not. -/
  | deleted {now : Int64} {name : String} {outcome : Except Error Unit} (listed : name ∈ names) :
      Relists names onDisk (.delete now name) outcome (names.erase name) (names.erase name)
  /-- The catalog could not be written without the name, which is listed again. -/
  | restored {now : Int64} {name : String} {error : Error} (listed : name ∈ names) :
      Relists names onDisk (.delete now name) (.error error) (names.erase name ++ [name]) onDisk

/-- The same names stay in both lists. -/
theorem Relists.perm {names onDisk later laterOnDisk : List String} {call : CollectionCall}
    {outcome : Except Error Unit} (relists : Relists names onDisk call outcome later laterOnDisk)
    (perm : onDisk.Perm names) : laterOnDisk.Perm later := by
  cases relists with
  | refused => exact perm
  | created isName new => exact .refl _
  | deleted listed => exact .refl _
  | restored listed =>
      have moved := (List.perm_cons_erase listed).trans (List.perm_append_singleton _ _).symm
      exact perm.trans moved

theorem erase_append_of_getLast? {names : List String} {name : String} (nodup : names.Nodup)
    (last : names.getLast? = some name) : names.erase name ++ [name] = names := by
  obtain ⟨front, rfl⟩ := List.getLast?_eq_some_iff.mp last
  rw [← List.concat_eq_append, List.nodup_concat] at nodup
  rw [List.erase_append_right _ nodup.1, List.erase_cons_head, List.append_nil]

/-- Lists that agree still do unless a collection other than the last one stays listed in spite of
its deletion. -/
theorem Relists.eq {names onDisk later laterOnDisk : List String} {call : CollectionCall}
    {outcome : Except Error Unit} (relists : Relists names onDisk call outcome later laterOnDisk)
    (nodup : names.Nodup) (same : onDisk = names)
    (inOrder : ∀ now name, call = .delete now name → name ∈ names → name ∈ later →
      names.getLast? = some name) : laterOnDisk = later := by
  cases relists with
  | refused => exact same
  | created isName new => rfl
  | deleted listed => rfl
  | @restored now name error listed =>
      have last := inOrder now name rfl listed (by simp)
      rw [erase_append_of_getLast? nodup last, same]

theorem Relists.eq_of_ok {names onDisk later laterOnDisk : List String} {call : CollectionCall}
    (relists : Relists names onDisk call (.ok ()) later laterOnDisk) : laterOnDisk = later := by
  cases relists with
  | created isName new => rfl
  | deleted listed => rfl

namespace Engine

variable {engine : Engine} {call : CollectionCall} {system : FileSystem} {base : Path}
  {mayRefuse : Prop} {onDisk : List String}

def perform (engine : Engine) : CollectionCall → Disk (Except Error Unit × Engine)
  | .create order now name => engine.createCollectionIn order.steps now name
  | .delete now name => engine.deleteCollection now name

/-- What is known of a database and of its catalog file, at the place to which its root leads. -/
structure ListsOn (engine : Engine) (base : Path) (onDisk : List String) (system : FileSystem) :
    Prop where
  knows : engine.KnowsCatalog
  leads : engine.root.LeadsTo base
  tree : system.IsTree
  names : Catalog.namesAt (catalogPlace base) system = some onDisk

/-- Whether a call ends with lists that come from the former ones. -/
def EndsListing (engine : Engine) (base : Path) (onDisk : List String) (call : CollectionCall)
    (result : Except Error Unit × Engine) (later : FileSystem) : Prop :=
  ∃ laterOnDisk, result.2.ListsOn base laterOnDisk later ∧ result.2.root = engine.root ∧
    Relists engine.collections onDisk call result.1 result.2.collections laterOnDisk

section

variable {later : FileSystem} {name : String} {catalog : Catalog} {now : Int64}

theorem Touches.namesAt_eq (touches : Touches base name system later)
    (isName : isCollectionName name = true) :
    Catalog.namesAt (catalogPlace base) later = Catalog.namesAt (catalogPlace base) system :=
  Catalog.namesAt_congr (touches.outside _ (not_below_of_isCollectionName isName (by decide))
    draftPlace_ne_catalogPlace.symm)

theorem ListsOn.altered (lists : engine.ListsOn base onDisk system)
    (altered : Altered (draftPlace base) system later) : engine.ListsOn base onDisk later where
  knows := lists.knows
  leads := lists.leads
  tree := altered.tree
  names := by
    rw [Catalog.namesAt_congr (altered.outside _ draftPlace_ne_catalogPlace.symm), lists.names]

theorem ListsOn.touches (lists : engine.ListsOn base onDisk system)
    (touches : Touches base name system later) (isName : isCollectionName name = true) :
    engine.ListsOn base onDisk later where
  knows := lists.knows
  leads := lists.leads
  tree := touches.tree
  names := by rw [touches.namesAt_eq isName, lists.names]

theorem listsOn_of_relisted (knows : engine.KnowsCatalog) (leads : engine.root.LeadsTo base)
    (relisted : Relisted base engine.catalog system later) :
    engine.ListsOn base engine.collections later where
  knows := knows
  leads := leads
  tree := relisted.tree
  names := Catalog.namesAt_of_hasBytes knows.listable relisted.written

theorem ListsOn.ends_create {ready : FileSystem → Prop} {order : Collection.MakingOrder}
    {result : Except Error Unit × Engine} (lists : engine.ListsOn base onDisk system)
    (ends : engine.EndsCreating base now name ready system result later) :
    engine.EndsListing base onDisk (.create order now name) result later := by
  cases ends with
  | refused => exact ⟨onDisk, lists, rfl, .refused⟩
  | undone path names prepares =>
      have kept := lists.touches prepares.touches prepares.isName
      have knows := lists.knows
      refine ⟨onDisk, ⟨⟨path.trans knows.path, ?_⟩, kept.leads, kept.tree, kept.names⟩, rfl, ?_⟩
      · exact names ▸ knows.listable
      · rw [collections, collections, names]
        exact .refused
  | @created listed _ creates =>
      obtain ⟨added, prepared, -, touches, relisted⟩ := creates
      refine ⟨listed.names, listsOn_of_relisted (lists.knows.add added) lists.leads relisted, rfl, ?_⟩
      obtain ⟨isName, new, rfl⟩ := Catalog.add_eq_ok added
      exact .created isName new

theorem ListsOn.ends_delete {result : Except Error Unit × Engine}
    (lists : engine.ListsOn base onDisk system)
    (ends : engine.EndsDeleting base now name system result later) :
    engine.EndsListing base onDisk (.delete now name) result later := by
  cases ends with
  | refused => exact ⟨onDisk, lists, rfl, .refused⟩
  | @deleted outcome unlisted _ deletes =>
      obtain ⟨removed, middle, relisted, touches⟩ := deletes
      have listed := Catalog.mem_of_remove_eq_ok removed
      have isName := lists.knows.listable.valid name listed
      have onMiddle := listsOn_of_relisted (lists.knows.remove removed) lists.leads relisted
      refine ⟨unlisted.names, onMiddle.touches touches isName, rfl, ?_⟩
      obtain rfl := Catalog.remove_eq_ok removed
      exact .deleted listed
  | restored _ removed added altered =>
      have kept := lists.altered altered
      have knows := (lists.knows.remove removed).add added
      refine ⟨onDisk, ⟨knows, kept.leads, kept.tree, kept.names⟩, rfl, ?_⟩
      have listed := Catalog.mem_of_remove_eq_ok removed
      obtain ⟨-, -, rfl⟩ := Catalog.add_eq_ok added
      obtain rfl := Catalog.remove_eq_ok removed
      exact .restored listed

end

/-- Each call changes both lists in one of the few ways, whatever the system refuses. -/
theorem ListsOn.passes_perform (lists : engine.ListsOn base onDisk system) (call : CollectionCall) :
    (engine.perform call).Passes True (fun _ => True) (engine.EndsListing base onDisk call)
      system := by
  cases call with
  | create order now name =>
      have isReady : (engine.prepareCollection order.steps name).Passes True (fun _ => True)
          (fun outcome _ => outcome = .ok () → True) system :=
        (Disk.stays_anywhere _ _).imp (fun _ => id) fun _ _ _ _ => trivial
      exact (passes_createCollectionIn lists.knows lists.leads lists.tree isReady).imp
        (fun _ _ => trivial) fun _ _ => lists.ends_create
  | delete now name =>
      exact (passes_deleteCollection lists.knows lists.leads lists.tree).imp
        (fun _ _ => trivial) fun _ _ => lists.ends_delete

/-!
## Databases that are opened
-/

/-- The system took the paths of a catalog that was written. -/
theorem exists_located_of_flush {catalog : Catalog} {root : Path} {later : FileSystem}
    (path : catalog.path = root.child Catalog.fileName)
    (flushed : catalog.flush.runOn system = (.ok (), later)) :
    (root.child temporaryName).IsAccepted ∧
      ∃ place, later.locate (root.child Catalog.fileName) = .ok place := by
  obtain ⟨_, middle, wrote, renamed⟩ := Action.exists_of_runOn_bind flushed
  rw [path, temporaryPath_child] at wrote renamed
  obtain ⟨_, _, -, file, -⟩ := FileSystem.hasFile_of_write (Action.run_of_runOn_on wrote)
  obtain ⟨place, moved, -⟩ := FileSystem.hasFile_of_change_rename
    (Disk.change_of_run (Action.run_of_runOn_on renamed)) file
  exact ⟨isAccepted_of_locate file.located, place, moved.located⟩

theorem hasFile_of_load {path : Path} {catalog : Catalog} {later : FileSystem}
    (loaded : (Catalog.load path).runOn system = (.ok catalog, later)) :
    later = system ∧ ∃ place content, system.HasFile path place content ∧
      Catalog.decode path content.toList = .ok catalog := by
  obtain ⟨bytes, middle, asked, rest⟩ := Action.exists_of_runOn_bind loaded
  have content : middle = system ∧ system.content path = .ok bytes := by
    have answered : (Disk.content path).run system = (system.content path, system) := rfl
    change Disk.run (_ >>= _) system = _ at asked
    rw [Disk.run_bind, answered] at asked
    cases found : system.content path with
    | error cause =>
        rw [found] at asked
        cases asked
    | ok given =>
        rw [found] at asked
        cases asked
        exact ⟨rfl, rfl⟩
  obtain ⟨rfl, found⟩ := content
  obtain ⟨⟨place, content⟩, opened, rfl⟩ := exists_of_map_eq_ok found
  split at rest
  next catalog decoded =>
    cases rest
    exact ⟨rfl, place, content, FileSystem.hasFile_of_openFile opened, decoded⟩
  · cases rest

/-- A catalog was read from its file, or a new one was written. -/
theorem loaded_or_flushed {root : Path} {catalog : Catalog} {now : Int64} {later : FileSystem}
    (succeeded : (Catalog.loadOrCreate root now).runOn system = (.ok catalog, later)) :
    (Catalog.load (root.child Catalog.fileName)).runOn system = (.ok catalog, later) ∨
      catalog = .fresh (root.child Catalog.fileName) now ∧
        catalog.flush.runOn system = (.ok (), later) := by
  obtain ⟨present, middle, asked, rest⟩ := Action.exists_of_runOn_bind succeeded
  have same : middle = system := by
    have unchanged := (passes_present (root.child Catalog.fileName) (fun _ => True) :
      Disk.Passes False _ _ _ system).run
    change Disk.run (_ >>= _) system = _ at asked
    rw [Disk.run_bind] at asked
    split at asked
    · exact (congrArg Prod.snd asked).symm.trans unchanged
    · cases asked
  subst same
  cases present with
  | true => exact .inl rest
  | false =>
      refine .inr ?_
      change Disk.run (_ >>= _) _ = _ at rest
      rw [Disk.run_bind] at rest
      split at rest
      next flushed =>
        cases rest
        exact ⟨rfl, Prod.ext flushed rfl⟩
      · cases rest

theorem listsOn_of_openAt {root : Path} {options : EngineOptions} {now : Int64}
    {start : FileSystem} (tree : start.IsTree)
    (opened : (openAt root options now).runOn start = (.ok engine, system)) :
    engine.root = root ∧ ∃ base,
      system.locate (root.child Catalog.fileName) = .ok (catalogPlace base) ∧
        engine.ListsOn base engine.collections system := by
  have knows := knowsCatalog_of_openAt (congrArg Prod.fst opened)
  obtain ⟨made, middle, making, rest⟩ := Action.exists_of_runOn_bind opened
  have middleTree : middle.IsTree := Disk.isTree_of_run tree making
  cases made with
  | error cause => cases rest
  | ok =>
  obtain ⟨catalog, last, created, same⟩ := Action.exists_of_runOn_bind rest
  cases same
  refine ⟨rfl, ?_⟩
  have exists_base : ∀ {place}, system.locate (root.child Catalog.fileName) = .ok place →
      ∃ base, place = catalogPlace base ∧ root.LeadsTo base := by
    intro place located
    obtain ⟨base, followed, -, same⟩ :=
      FileSystem.exists_follow_of_child (FileSystem.follow_of_locate located) (by decide)
    exact ⟨base, same, leadsTo_of_follow followed⟩
  rcases loaded_or_flushed created with loaded | ⟨_, flushed⟩
  · obtain ⟨rfl, place, content, file, decoded⟩ := hasFile_of_load loaded
    obtain ⟨base, rfl, leads⟩ := exists_base file.located
    exact ⟨base, file.located, knows, leads, middleTree,
      Catalog.namesAt_of_decode file.stands decoded⟩
  · obtain ⟨-, place, located⟩ := exists_located_of_flush knows.path flushed
    obtain ⟨base, rfl, leads⟩ := exists_base located
    have passes : Action.Passes False _ _ catalog.flush middle :=
      Catalog.passes_flush knows.path leads middleTree
    exact ⟨base, located, listsOn_of_relisted knows leads (passes.ends_of_run flushed)⟩

/-!
## Sequences of calls
-/

/-- A call during which the system refuses some changes, by their number in the call. -/
structure Attempt where
  call : CollectionCall
  refusal : Nat → Change → Option OsError

def attempt (engine : Engine) (system : FileSystem) (attempt : Attempt) :
    (Except Error Unit × Engine) × FileSystem :=
  (engine.perform attempt.call).runRefusing attempt.refusal 0 system

/-- The database and its file system behind a sequence of calls. -/
def attemptAll (engine : Engine) (system : FileSystem) : List Attempt → Engine × FileSystem
  | [] => (engine, system)
  | first :: rest =>
      let ended := engine.attempt system first
      ended.1.2.attemptAll ended.2 rest

/-- Whether each deletion that leaves its collection listed is one of the last collection. -/
def KeepsOrder (engine : Engine) (system : FileSystem) : List Attempt → Prop
  | [] => True
  | first :: rest =>
      let ended := engine.attempt system first
      (∀ now name, first.call = .delete now name → name ∈ engine.collections →
        name ∈ ended.1.2.collections → engine.collections.getLast? = some name) ∧
      ended.1.2.KeepsOrder ended.2 rest

theorem ListsOn.attempt (lists : engine.ListsOn base onDisk system) (attempt : Attempt) :
    engine.EndsListing base onDisk attempt.call (engine.attempt system attempt).1
      (engine.attempt system attempt).2 :=
  (lists.passes_perform attempt.call).runRefusing attempt.refusal 0

theorem ListsOn.attemptAll (lists : engine.ListsOn base onDisk system)
    (perm : onDisk.Perm engine.collections) (attempts : List Attempt) :
    ∃ later, (engine.attemptAll system attempts).1.ListsOn base later
        (engine.attemptAll system attempts).2 ∧
      later.Perm (engine.attemptAll system attempts).1.collections ∧
      (onDisk = engine.collections → engine.KeepsOrder system attempts →
        later = (engine.attemptAll system attempts).1.collections) := by
  induction attempts generalizing engine system onDisk with
  | nil => exact ⟨onDisk, lists, perm, fun same _ => same⟩
  | cons first rest ih =>
      obtain ⟨between, listsBetween, -, relists⟩ := lists.attempt first
      obtain ⟨later, listsLater, permLater, onward⟩ := ih listsBetween (relists.perm perm)
      -- Which names there are never depends on the order, so the order is followed on its own.
      refine ⟨later, listsLater, permLater, fun same keeps => ?_⟩
      obtain ⟨inOrder, keepsRest⟩ := keeps
      exact onward (relists.eq lists.knows.listable.nodup same inOrder) keepsRest

/-- Behind any sequence of calls the catalog file lists the collections of the database: in any case
the same ones, in the same order if no deletion of another than the last one failed to write the
catalog, and in the same order behind every call that succeeds. -/
theorem listings_agree {root : Path} {options : EngineOptions} {now : Int64} {start : FileSystem}
    (tree : start.IsTree) (opened : (openAt root options now).runOn start = (.ok engine, system)) :
    ∃ place, system.locate (root.child Catalog.fileName) = .ok place ∧ ∀ attempts,
      (∃ onDisk, Catalog.namesAt place (engine.attemptAll system attempts).2 = some onDisk ∧
        onDisk.Perm (engine.attemptAll system attempts).1.collections ∧
        (engine.KeepsOrder system attempts →
          onDisk = (engine.attemptAll system attempts).1.collections)) ∧
      ∀ last ended, (engine.attemptAll system attempts).1.attempt
          (engine.attemptAll system attempts).2 last = ended →
        ended.1.1 = .ok () → Catalog.namesAt place ended.2 = some ended.1.2.collections := by
  obtain ⟨rfl, base, located, lists⟩ := listsOn_of_openAt tree opened
  refine ⟨catalogPlace base, located, fun attempts => ?_⟩
  obtain ⟨onDisk, listsLater, perm, same⟩ := lists.attemptAll (.refl _) attempts
  refine ⟨⟨onDisk, listsLater.names, perm, same rfl⟩, ?_⟩
  intro last ended isEnded succeeded
  subst isEnded
  obtain ⟨later, listsLast, -, relists⟩ := listsLater.attempt last
  rw [succeeded] at relists
  rw [listsLast.names, relists.eq_of_ok]

/-- Two collections are made, and the first one is deleted while no file can be renamed. -/
def deletionWithoutRename : List Attempt :=
  [⟨.create .oneByOne 0 "a", fun _ _ => none⟩,
   ⟨.create .oneByOne 0 "b", fun _ _ => none⟩,
   ⟨.delete 0 "a", fun _ change => match change with
     | .rename .. => some (.reported 5)
     | _ => none⟩]

/-- The first collection comes last in memory while the catalog file lists it first. -/
theorem deletionWithoutRename_reorders :
    let ended := Session.firstDatabase.engine.attemptAll Session.firstDatabase.system
      deletionWithoutRename
    Catalog.namesAt ["db", Catalog.fileName] ended.2 = some ["a", "b"] ∧
      ended.1.collections = ["b", "a"] := by
  decide +kernel

theorem deletionWithoutRename_listings :
    ∃ place onDisk, Catalog.namesAt place (Session.firstDatabase.engine.attemptAll
      Session.firstDatabase.system deletionWithoutRename).2 = some onDisk ∧
        onDisk.Perm ["b", "a"] := by
  have opened : (openAt ["db"] ⟨.little, true⟩ 0).runOn ⟨[]⟩ =
      (.ok Session.firstDatabase.engine, Session.firstDatabase.system) :=
    Prod.ext (eq_ok_of_toOption (by decide +kernel)) rfl
  obtain ⟨place, -, agree⟩ := listings_agree FileSystem.isTree_nil opened
  obtain ⟨⟨onDisk, names, perm, -⟩, -⟩ := agree deletionWithoutRename
  have inMemory : (Session.firstDatabase.engine.attemptAll Session.firstDatabase.system
      deletionWithoutRename).1.collections = ["b", "a"] := by decide +kernel
  exact ⟨place, onDisk, names, inMemory ▸ perm⟩

end Engine

end GraphStore
