import GraphStore.Proofs.Collection.Leftover
import GraphStore.Proofs.Engine.Creation

/-!
# Where the work on collections is done

The places that change while a collection is made or removed and while the catalog is written. Main
statements: a collection is made and removed at its own place only, and a catalog that could not be
written is the one that was there.
-/

set_option autoImplicit false

namespace GraphStore

namespace Engine

variable {engine : Engine} {order : List Collection.Making} {name : String} {mayRefuse : Prop}
  {start system : FileSystem} {base place directory : Path}

/-!
## The directories of collections
-/

theorem stays_clearLeftover (deep : place ≠ []) (leads : directory.LeadsTo place)
    (confined : Confined place start system) :
    (clearLeftover directory).Stays mayRefuse (Confined place start) system := by
  have asked : (Disk.names directory).Stays mayRefuse (Confined place start) system := confined
  refine (Action.Stays.lift asked).bind fun answer later confinedLater => ?_
  cases answer with
  | error reason => exact Action.Passes.pure confinedLater
  | ok names =>
      dsimp only
      split
      · exact Action.Stays.on (Disk.stays_removeTree deep leads confinedLater)
      · exact Action.Passes.pure confinedLater

theorem stays_removeStore (deep : place ≠ []) (leads : directory.LeadsTo place)
    (confined : Confined place start system) :
    (removeStore directory).Stays mayRefuse (Confined place start) system := by
  refine Disk.Passes.bind (Disk.stays_removeTree deep leads confined) ?_
  intro outcome later confinedLater
  cases outcome with
  | ok => exact Disk.Passes.pure confinedLater
  | error cause => exact Disk.Passes.pure confinedLater

theorem stays_makeStore (deep : place ≠ []) (leads : directory.LeadsTo place)
    (noSlash : directory.getLast? ≠ some "") (confined : Confined place start system) :
    (engine.makeStore order directory).Stays mayRefuse (Confined place start) system := by
  have made : (Disk.change (.makeDirectory directory)).Stays mayRefuse
      (Confined place start) system := by
    refine Disk.Stays.change confined fun changed succeeded => ?_
    obtain ⟨target, located, _, rfl⟩ := FileSystem.put_of_change_makeDirectory succeeded
    rw [Path.trimmed_eq_self noSlash] at located
    obtain rfl := leads.eq_of_locate located
    exact confined.trans (.put_directory (confined.tree.change succeeded) deep)
  refine (Action.Stays.on made).bind fun _ later confinedLater => ?_
  have files : ((Collection.mk directory).makeFilesIn order engine.options.endian).Stays mayRefuse
      (Confined place start) later := Collection.stays_makeFilesIn leads confinedLater
  refine files.tryCatch fun error last confinedLast => ?_
  exact (Action.Stays.lift (Disk.stays_removeTree deep leads confinedLast)).bind
    fun _ _ held => Action.Passes.throw held

end Engine

/-!
## The catalog
-/

section

variable {mayRefuse : Prop} {system later : FileSystem} {path place root base : Path}
  {bytes : List UInt8} {catalog : Catalog}

/-- Whether a file with some bytes stands at a place. -/
def FileSystem.HasBytes (system : FileSystem) (place : Path) (bytes : List UInt8) : Prop :=
  ∃ content : Content, system.entry? place = some (.file content) ∧ content.toList = bytes

/-- Whether a tree came from a file system by writing a file at a place. -/
structure Altered (place : Path) (system later : FileSystem) : Prop where
  tree : later.IsTree
  outside : ∀ other, other ≠ place → later.entry? other = system.entry? other
  former : later.entry? place = some .directory → system.entry? place = some .directory

theorem Altered.refl (tree : system.IsTree) : Altered place system system :=
  ⟨tree, fun _ _ => rfl, id⟩

theorem Altered.put {content : Content} (altered : Altered place system later)
    (tree : (later.put place (.file content)).IsTree) (deep : place ≠ []) :
    Altered place system (later.put place (.file content)) where
  tree := tree
  outside other different := by
    rw [FileSystem.entry?_put_of_ne _ _ different, altered.outside other different]
  former directory := by
    rw [FileSystem.entry?_put_self _ _ deep] at directory
    cases directory

theorem Disk.passes_write (deep : place ≠ []) (leads : path.LeadsTo place)
    (tree : system.IsTree) :
    (Disk.write path bytes).Passes mayRefuse (Altered place system)
      (fun outcome later => Altered place system later ∧
        (outcome = .ok () → later.HasBytes place bytes)) system := by
  have emptied : (Disk.change (.empty path)).Passes mayRefuse (Altered place system)
      (fun outcome later => Altered place system later ∧
        (outcome = .ok () → later.entry? place = some (.file .empty))) system := by
    refine Passes.change (fun _ => ⟨.refl tree, nofun⟩) fun changed succeeded => ?_
    obtain ⟨target, located, _, rfl⟩ := FileSystem.put_of_change_empty succeeded
    obtain rfl := leads.eq_of_locate located
    have altered := (Altered.refl tree).put (tree.change succeeded) deep
    exact ⟨altered, altered, fun _ => FileSystem.entry?_put_self _ _ deep⟩
  refine emptied.bind fun outcome middle given => ?_
  obtain ⟨altered, stands⟩ := given
  cases outcome with
  | error reason => exact Passes.pure ⟨altered, nofun⟩
  | ok =>
      refine Passes.change (fun _ => ⟨altered, nofun⟩) fun changed succeeded => ?_
      obtain ⟨target, content, file, rfl⟩ := FileSystem.put_of_change_append succeeded
      obtain rfl := leads.eq_of_locate file.located
      obtain rfl := Entry.file.inj (Option.some.inj (file.stands.symm.trans (stands rfl)))
      have onward := altered.put (altered.tree.change succeeded) deep
      refine ⟨onward, onward, fun _ => ⟨_, FileSystem.entry?_put_self _ _ deep, ?_⟩⟩
      rw [Content.toList_append, Content.toList_empty, List.nil_append]

/-- The place at which a catalog is written first. -/
def draftPlace (base : Path) : Path := base ++ [Engine.temporaryName]

def catalogPlace (base : Path) : Path := base ++ [Catalog.fileName]

theorem draftPlace_ne_catalogPlace : draftPlace base ≠ catalogPlace base := by
  intro same
  have names := List.append_cancel_left same
  revert names
  decide

/-- Whether a tree came from a file system by writing a catalog in its place. -/
structure Relisted (base : Path) (catalog : Catalog) (system later : FileSystem) : Prop where
  tree : later.IsTree
  outside : ∀ other, other ≠ draftPlace base → other ≠ catalogPlace base →
    later.entry? other = system.entry? other
  noDraft : later.entry? (draftPlace base) = none
  written : later.HasBytes (catalogPlace base) catalog.encode

theorem relisted_of_change_rename {draft : Path} (altered : Altered (draftPlace base) system later)
    (draftLeads : draft.LeadsTo (draftPlace base)) (leads : path.LeadsTo (catalogPlace base))
    (drafted : later.HasBytes (draftPlace base) catalog.encode) {last : FileSystem}
    (changed : later.change (.rename draft path) = .ok last) :
    Relisted base catalog system last := by
  obtain ⟨content, stands, bytes⟩ := drafted
  have apart : ¬draftPlace base <+: catalogPlace base := by
    rw [draftPlace, catalogPlace, concat_prefix_concat_iff]
    decide
  obtain ⟨there, gone, others⟩ := FileSystem.entry?_of_change_rename altered.tree draftLeads leads
    stands apart changed
  refine ⟨altered.tree.change changed, fun other notDraft notCatalog => ?_, gone,
    content, there, bytes⟩
  rw [others other notDraft notCatalog, altered.outside other notDraft]

/-- A catalog takes its place as a whole, or the one that was there stays. -/
theorem Catalog.passes_flush (named : catalog.path = root.child Catalog.fileName)
    (leads : root.LeadsTo base) (tree : system.IsTree) :
    catalog.flush.Passes mayRefuse
      (fun later => Altered (draftPlace base) system later ∨ Relisted base catalog system later)
      (fun outcome later => match outcome with
        | .ok () => Relisted base catalog system later
        | .error error => Altered (draftPlace base) system later ∧ error.osError?.isSome) system := by
  have draftLeads : (root.child Engine.temporaryName).LeadsTo (draftPlace base) :=
    leads.child (by decide)
  have catalogLeads : (root.child Catalog.fileName).LeadsTo (catalogPlace base) :=
    leads.child (by decide)
  have deep : draftPlace base ≠ [] := List.concat_ne_nil _ base
  unfold Catalog.flush
  rw [named, Engine.temporaryPath_child]
  have drafted : (Action.on (root.child Engine.temporaryName)
      (Disk.write (root.child Engine.temporaryName) catalog.encode)).Passes mayRefuse
      (fun later => Altered (draftPlace base) system later ∨ Relisted base catalog system later)
      (fun outcome later => Altered (draftPlace base) system later ∧ match outcome with
        | .ok () => later.HasBytes (draftPlace base) catalog.encode
        | .error error => error.osError?.isSome) system := by
    refine Action.Passes.on ((Disk.passes_write deep draftLeads tree).imp (fun _ => .inl) ?_)
    intro outcome later given
    cases outcome with
    | ok => exact ⟨given.1, given.2 rfl⟩
    | error cause => exact ⟨given.1, rfl⟩
  refine drafted.bind (fun _ later given => ?_) fun error later given => given
  obtain ⟨altered, written⟩ := given
  refine Action.Passes.on (Disk.Passes.change (fun _ => ⟨altered, rfl⟩) fun last succeeded => ?_)
  have relisted := relisted_of_change_rename altered draftLeads catalogLeads written succeeded
  exact ⟨.inr relisted, relisted⟩

end

namespace Engine

variable {engine : Engine} {order : List Collection.Making} {now : Int64} {name : String}
  {mayRefuse : Prop} {system later last : FileSystem} {base : Path}

/-!
## Making collections
-/

/-- Whether a tree came from a file system by changes at the place of one collection, and maybe by a
catalog that did not take its place. -/
structure Touches (base : Path) (name : String) (system later : FileSystem) : Prop where
  tree : later.IsTree
  outside : ∀ other, ¬base ++ [name] <+: other → other ≠ draftPlace base →
    later.entry? other = system.entry? other
  former : later.entry? (draftPlace base) = some .directory →
    system.entry? (draftPlace base) = some .directory
  leftover : Leftover (base ++ [name]) system → Leftover (base ++ [name]) later

/-- The files of a database lie beside those of its collections. -/
theorem not_below_of_isCollectionName (isName : isCollectionName name = true) {other : String}
    (dotted : '.' ∈ other.toList) : ¬base ++ [name] <+: base ++ [other] := by
  rw [concat_prefix_concat_iff]
  exact ne_of_isCollectionName isName dotted

theorem Touches.refl (tree : system.IsTree) : Touches base name system system :=
  ⟨tree, fun _ _ _ => rfl, id, id⟩

theorem Touches.confined (touches : Touches base name system later)
    (isName : isCollectionName name = true) (confined : Confined (base ++ [name]) later last) :
    Touches base name system last where
  tree := confined.tree
  outside other away notDraft :=
    (confined.outside other away).trans (touches.outside other away notDraft)
  former directory := by
    rw [confined.outside (draftPlace base) (not_below_of_isCollectionName isName (by decide))]
      at directory
    exact touches.former directory
  leftover left := confined.leftover (touches.leftover left)

theorem Touches.altered (touches : Touches base name system later)
    (isName : isCollectionName name = true) (altered : Altered (draftPlace base) later last) :
    Touches base name system last where
  tree := altered.tree
  outside other away notDraft :=
    (altered.outside other notDraft).trans (touches.outside other away notDraft)
  former directory := touches.former (altered.former directory)
  leftover left := by
    have apart : ∀ other, base ++ [name] <+: other → other ≠ draftPlace base := by
      intro other below same
      exact not_below_of_isCollectionName isName (by decide) (same ▸ below)
    have leftLater := touches.leftover left
    constructor
    · intro content
      rw [altered.outside _ (apart _ (List.prefix_refl _))]
      exact leftLater.noFile content
    · intro other below different stands
      rw [altered.outside other (apart other below)] at stands ⊢
      exact leftLater.files other below different stands

theorem passes_present (path : Path) (passing : FileSystem → Prop) :
    (Disk.present path).Passes mayRefuse passing (fun _ later => later = system) system := by
  have asked : (Disk.isDirectory path).Passes mayRefuse passing (fun _ later => later = system)
      system := rfl
  refine asked.bind fun answer later same => ?_
  cases answer with
  | ok _ => exact Disk.Passes.pure same
  | error reason => exact Disk.Passes.pure same

/-- Whether a collection that is not listed yet was made or removed, as a whole or in part. -/
structure Prepares (engine : Engine) (base : Path) (name : String) (system later : FileSystem) :
    Prop where
  isName : isCollectionName name = true
  unlisted : name ∉ engine.catalog.names
  touches : Touches base name system later

theorem Prepares.confined (prepares : engine.Prepares base name system later)
    (confined : Confined (base ++ [name]) later last) : engine.Prepares base name system last :=
  ⟨prepares.isName, prepares.unlisted, prepares.touches.confined prepares.isName confined⟩

theorem Prepares.altered (prepares : engine.Prepares base name system later)
    (altered : Altered (draftPlace base) later last) : engine.Prepares base name system last :=
  ⟨prepares.isName, prepares.unlisted, prepares.touches.altered prepares.isName altered⟩

theorem Prepares.stays_removeTree (prepares : engine.Prepares base name system later)
    (leads : engine.root.LeadsTo base) :
    (Disk.removeTree (engine.directory name)).Stays mayRefuse (engine.Prepares base name system)
      later := by
  have removed : (Disk.removeTree (engine.directory name)).Stays mayRefuse
      (Confined (base ++ [name]) later) later :=
    Disk.stays_removeTree (List.concat_ne_nil name base)
      (leads.child (isStep_of_isCollectionName prepares.isName)) (.refl prepares.touches.tree)
  exact removed.imp (fun _ => prepares.confined) fun _ _ => prepares.confined

theorem passes_prepareCollection (leads : engine.root.LeadsTo base) (tree : system.IsTree) :
    (engine.prepareCollection order name).Passes mayRefuse (engine.Prepares base name system)
      (fun outcome later => engine.Prepares base name system later ∨
        later = system ∧ ∃ error, outcome = .error error) system := by
  have checked : (Action.of (checkCollectionName name)).Passes mayRefuse
      (engine.Prepares base name system)
      (fun outcome later => later = system ∧ outcome = checkCollectionName name) system :=
    Action.Passes.of ⟨rfl, rfl⟩
  refine checked.bind (fun _ later given => ?_) fun error _ given => .inr ⟨given.1, error, rfl⟩
  obtain ⟨rfl, isChecked⟩ := given
  have isName := checkCollectionName_eq_ok_iff.mp isChecked.symm
  have asked : Action.Passes mayRefuse (engine.Prepares base name later)
      (fun _ last => last = later) (ExceptT.lift (Disk.present engine.root)) later :=
    Action.Passes.lift (passes_present engine.root _)
  refine asked.bind (fun present last same => ?_) fun error _ same => .inr ⟨same, error, rfl⟩
  obtain rfl := same
  dsimp only
  split
  · split
    · exact Action.Passes.throw (.inr ⟨rfl, _, rfl⟩)
    next new =>
      have unlisted : name ∉ engine.catalog.names := by
        simpa [hasCollection, Catalog.contains] using new
      have prepares : engine.Prepares base name last last := ⟨isName, unlisted, .refl tree⟩
      have leadsThere : (engine.directory name).LeadsTo (base ++ [name]) :=
        leads.child (isStep_of_isCollectionName isName)
      have deep : base ++ [name] ≠ [] := List.concat_ne_nil name base
      have noSlash : (engine.directory name).getLast? ≠ some "" :=
        getLast?_child_ne_of_isCollectionName isName engine.root
      have stays : Action.Stays mayRefuse (Confined (base ++ [name]) last) (do
          clearLeftover (engine.directory name)
          engine.makeStore order (engine.directory name)) last :=
        (stays_clearLeftover deep leadsThere (.refl tree)).bind fun _ _ held =>
          stays_makeStore deep leadsThere noSlash held
      exact Disk.Passes.imp stays (fun _ => prepares.confined)
        fun _ _ held => .inl (prepares.confined held)
  · exact Action.Passes.throw (.inr ⟨rfl, _, rfl⟩)

/-- Whether a tree came from a file system by making a collection and listing it. What holds when the
collection is made, before it is listed, is known of the tree in between. -/
structure Creates (engine : Engine) (base : Path) (now : Int64) (name : String)
    (ready : FileSystem → Prop) (system : FileSystem) (listed : Catalog) (later : FileSystem) :
    Prop where
  added : engine.catalog.add now name = .ok listed
  relisted : ∃ prepared, ready prepared ∧ Touches base name system prepared ∧
    Relisted base listed prepared later

/-- How making a collection ends. -/
inductive EndsCreating (engine : Engine) (base : Path) (now : Int64) (name : String)
    (ready : FileSystem → Prop) (system : FileSystem) :
    Except Error Unit × Engine → FileSystem → Prop where
  | refused {error : Error} :
      EndsCreating engine base now name ready system (.error error, engine) system
  /-- What was made is removed again, as far as that is possible. -/
  | undone {error : Error} {catalog : Catalog} {later : FileSystem}
      (path : catalog.path = engine.catalog.path) (names : catalog.names = engine.catalog.names)
      (prepares : engine.Prepares base name system later) :
      EndsCreating engine base now name ready system
        (.error error, { engine with catalog := catalog }) later
  | created {listed : Catalog} {later : FileSystem}
      (creates : engine.Creates base now name ready system listed later) :
      EndsCreating engine base now name ready system
        (.ok (), { engine with catalog := listed }) later

/-- A name that was put behind others is taken from there. -/
private theorem names_remove_add {catalog listed : Catalog}
    (added : catalog.add now name = .ok listed) :
    ((listed.remove now name).toOption.getD listed).names = catalog.names ∧
      ((listed.remove now name).toOption.getD listed).path = catalog.path := by
  obtain ⟨-, new, rfl⟩ := Catalog.add_eq_ok added
  have there : Catalog.contains
      { catalog with names := catalog.names ++ [name], updatedAt := now } name = true := by
    simp [Catalog.contains]
  rw [Catalog.remove, if_pos there]
  refine ⟨?_, rfl⟩
  change (catalog.names ++ [name]).erase name = catalog.names
  rw [List.erase_append_right _ new, List.erase_cons_head, List.append_nil]

theorem passes_createCollectionIn {ready : FileSystem → Prop} (knows : engine.KnowsCatalog)
    (leads : engine.root.LeadsTo base) (tree : system.IsTree)
    (isReady : (engine.prepareCollection order name).Passes mayRefuse (fun _ => True)
      (fun outcome later => outcome = .ok () → ready later) system) :
    (engine.createCollectionIn order now name).Passes mayRefuse
      (fun later => engine.Prepares base name system later ∨
        ∃ listed, engine.Creates base now name ready system listed later)
      (engine.EndsCreating base now name ready system) system := by
  have prepared : Action.Passes mayRefuse
      (fun later => engine.Prepares base name system later ∧ True)
      (fun outcome later => (engine.Prepares base name system later ∨
        later = system ∧ ∃ error, outcome = .error error) ∧ (outcome = .ok () → ready later))
      (engine.prepareCollection order name) system :=
    (passes_prepareCollection leads tree).and isReady
  refine Disk.Passes.bind (prepared.imp (fun _ given => .inl given.1) fun _ _ given => given) ?_
  intro outcome later given
  obtain ⟨ended, isReadyLater⟩ := given
  cases outcome with
  | error error =>
      rcases ended with prepares | ⟨rfl, _⟩
      · exact Disk.Passes.pure (.undone rfl rfl prepares)
      · exact Disk.Passes.pure .refused
  | ok =>
  have prepares : engine.Prepares base name system later := by
    rcases ended with prepares | ⟨_, _, impossible⟩
    · exact prepares
    · cases impossible
  dsimp only
  split
  · exact Disk.Passes.pure (.undone rfl rfl prepares)
  next listed added =>
  have created : ∀ {last}, Relisted base listed later last →
      engine.Creates base now name ready system listed last := fun relisted =>
    ⟨added, later, isReadyLater rfl, prepares.touches, relisted⟩
  refine Disk.Passes.bind (Disk.Passes.imp
    (Catalog.passes_flush (knows.add added).path leads prepares.touches.tree) ?_
    fun _ _ given => given) ?_
  · intro last given
    rcases given with drafted | relisted
    · exact .inl (prepares.altered drafted)
    · exact .inr ⟨listed, created relisted⟩
  intro outcome last given
  cases outcome with
  | ok => exact Disk.Passes.pure (.created (created given))
  | error error =>
      -- The name is still unlisted on disk, so what was made of its collection may go.
      refine Disk.Passes.bind (((prepares.altered given.1).stays_removeTree leads).imp
        (fun _ => .inl) fun _ _ held => held) fun _ behind removed => ?_
      obtain ⟨names, path⟩ := names_remove_add added
      exact Disk.Passes.pure (.undone path names removed)

/-!
## Deleting collections
-/

/-- Whether a tree came from a file system by taking a collection from the catalog, and maybe by
removing it as a whole or in part. -/
structure Deletes (engine : Engine) (base : Path) (now : Int64) (name : String)
    (system : FileSystem) (unlisted : Catalog) (later : FileSystem) : Prop where
  removed : engine.catalog.remove now name = .ok unlisted
  relisted : ∃ middle, Relisted base unlisted system middle ∧ Touches base name middle later

/-- How deleting a collection ends. -/
inductive EndsDeleting (engine : Engine) (base : Path) (now : Int64) (name : String)
    (system : FileSystem) : Except Error Unit × Engine → FileSystem → Prop where
  | refused {error : Error} (unlisted : name ∉ engine.catalog.names) :
      EndsDeleting engine base now name system (.error error, engine) system
  | deleted {outcome : Except Error Unit} {unlisted : Catalog} {later : FileSystem}
      (deletes : engine.Deletes base now name system unlisted later) :
      EndsDeleting engine base now name system
        (outcome, { engine with catalog := unlisted }) later
  /-- The catalog could not be written, so that the name is listed again. -/
  | restored {error : Error} {unlisted listed : Catalog} {later : FileSystem}
      (refusedBySystem : error.osError?.isSome)
      (removed : engine.catalog.remove now name = .ok unlisted)
      (added : unlisted.add now name = .ok listed)
      (altered : Altered (draftPlace base) system later) :
      EndsDeleting engine base now name system
        (.error error, { engine with catalog := listed }) later

theorem passes_deleteCollection (knows : engine.KnowsCatalog) (leads : engine.root.LeadsTo base)
    (tree : system.IsTree) :
    (engine.deleteCollection now name).Passes mayRefuse
      (fun later => Altered (draftPlace base) system later ∨
        ∃ unlisted, engine.Deletes base now name system unlisted later)
      (engine.EndsDeleting base now name system) system := by
  unfold deleteCollection
  split
  next error removed =>
    exact Disk.Passes.pure (.refused (Catalog.not_mem_of_remove_eq_error removed))
  next unlisted removed =>
  have isName := knows.listable.valid name (Catalog.mem_of_remove_eq_ok removed)
  refine Disk.Passes.bind (Disk.Passes.imp
    (Catalog.passes_flush (knows.remove removed).path leads tree) ?_ fun _ _ given => given) ?_
  · intro later given
    rcases given with drafted | relisted
    · exact .inl drafted
    · exact .inr ⟨unlisted, removed, later, relisted, .refl relisted.tree⟩
  intro outcome later given
  cases outcome with
  | ok =>
      have stays : Disk.Stays mayRefuse (Confined (base ++ [name]) later)
          (removeStore (engine.directory name)).outcome later :=
        stays_removeStore (List.concat_ne_nil name base)
          (leads.child (isStep_of_isCollectionName isName)) (.refl given.tree)
      have deletes : ∀ {last}, Confined (base ++ [name]) later last →
          engine.Deletes base now name system unlisted last := fun confined =>
        ⟨removed, later, given, (Touches.refl given.tree).confined isName confined⟩
      refine Disk.Passes.bind (stays.imp (fun _ held => .inr ⟨unlisted, deletes held⟩)
        fun _ _ held => deletes held) ?_
      exact fun outcome last held => Disk.Passes.pure (.deleted held)
  | error error =>
      -- The name was just taken out, so that it is put back without an error, but to the end.
      have new : name ∉ unlisted.names := by
        obtain rfl := Catalog.remove_eq_ok removed
        exact knows.listable.nodup.not_mem_erase
      have added := Catalog.add_of_new isName new now
      simp only [added]
      exact Disk.Passes.pure (.restored given.2 removed added given.1)

end Engine

end GraphStore
