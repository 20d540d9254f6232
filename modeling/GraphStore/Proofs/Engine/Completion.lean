import GraphStore.Proofs.Collection.Completion
import GraphStore.Proofs.Engine.Confinement

/-!
# Collections that can be made

Work of a database that nothing stands in the way of. Main statements: a collection can be made where
store files of a former one are left, and a catalog can be written.
-/

set_option autoImplicit false

namespace GraphStore

open FileSystem

namespace Action

variable {α : Type} {system later : FileSystem}

theorem runOn_lift {work : Disk α} {value : α} (ran : work.run system = (value, later)) :
    Action.runOn (ExceptT.lift work) system = (.ok value, later) := by
  change Disk.run (Except.ok <$> work) system = _
  rw [map_eq_pure_bind, Disk.run_bind, ran]
  rfl

theorem runOn_tryCatch_of_ok {action : Action α} {handler : Error → Action α} {value : α}
    (ran : action.runOn system = (.ok value, later)) :
    Action.runOn (tryCatch action handler) system = (.ok value, later) := by
  change (action.outcome >>= _).run system = _
  change action.outcome.run system = _ at ran
  rw [Disk.run_bind, ran]
  rfl

end Action

namespace Engine

variable {engine : Engine} {order : List Collection.Making} {name : String}
  {system later : FileSystem} {base place directory root : Path} {catalog : Catalog}

/-- The names in what is left of a collection are those of store files. -/
theorem all_names_of_leftover (tree : system.IsTree) (leftover : Leftover place system) :
    ((system.names place).all fun name => StoreKind.all.any (·.fileName == name)) = true := by
  rw [List.all_eq_true]
  intro name member
  obtain ⟨⟨other, entry⟩, inside, given⟩ := List.mem_filterMap.mp (List.mem_mergeSort.mp member)
  dsimp only at given
  split at given
  next isChild =>
    rw [Bool.and_eq_true, isBelow_iff] at isChild
    obtain ⟨⟨below, different⟩, -⟩ := isChild
    have stands := (mem_entries_iff tree.nodup (tree.steps _ inside).1).mp inside
    obtain ⟨kind, content, rfl, -⟩ := leftover.files other below different (by rw [stands]; nofun)
    rw [List.getLast?_concat] at given
    rw [List.any_eq_true]
    exact ⟨kind, kind.mem_all, by simpa using given⟩
  · cases given

theorem exists_runOn_clearLeftover (tree : system.IsTree)
    (located : system.locate directory = .ok place) (deep : place ≠ [])
    (leftover : Leftover place system)
    (accepted : ∀ kind : StoreKind, (place ++ [kind.fileName]).IsAccepted) :
    ∃ later, (clearLeftover directory).runOn system = (.ok (), later) ∧
      later.entry? place = none := by
  have asked : (Disk.names directory).run system =
      ((system.openDirectory directory).map system.names, system) := rfl
  cases stands : system.entry? place with
  | none =>
      have missing : system.openDirectory directory = .error .noEntry := by
        simp only [openDirectory, resolve, located, bind, Except.bind, stands]
        rfl
      rw [missing] at asked
      exact ⟨system, Action.runOn_bind_of_ok _ _ (Action.runOn_lift asked) _, stands⟩
  | some entry =>
      cases entry with
      | file content => exact absurd stands (leftover.noFile content)
      | directory =>
          rw [openDirectory_eq located stands] at asked
          obtain ⟨later, removed, gone⟩ :=
            Disk.exists_run_removeTree tree located stands deep leftover accepted
          refine ⟨later, (Action.runOn_bind_of_ok _ _ (Action.runOn_lift asked) _).trans ?_, gone⟩
          dsimp only [Except.map]
          rw [if_pos (all_names_of_leftover tree leftover)]
          exact Action.runOn_on removed

theorem exists_runOn_makeStore (isOrder : Collection.IsMakingOrder order) (tree : system.IsTree)
    (located : system.locate directory = .ok place) (noSlash : directory.getLast? ≠ some "")
    (vacant : system.entry? place = none)
    (accepted : ∀ kind, ((Collection.mk directory).pathOf kind).IsAccepted) :
    ∃ later, (engine.makeStore order directory).runOn system = (.ok (), later) := by
  have changed : system.change (.makeDirectory directory) = .ok (system.put place .directory) := by
    simp only [change, locateVacant, Path.trimmed_eq_self noSlash, located, bind, Except.bind,
      vacant]
    rfl
  have keeps : system.Keeps (system.put place .directory) :=
    keeps_put _ (by simp [vacant])
  have stands : (Site.mk ⟨directory⟩ place engine.options.endian).Stands
      (system.put place .directory) :=
    ⟨locate_of_keeps keeps located, (tree.change changed).solid
      (entry?_put_self system _ (ne_nil_of_entry?_eq_none vacant))⟩
  obtain ⟨later, made⟩ := stands.exists_runOn_makeFilesIn isOrder accepted fun kind => by
    rw [Site.placeOf, entry?_put_of_ne system _ (by simp)]
    exact tree.none_below (by simp [vacant]) (List.prefix_append _ _) (by simp)
  refine ⟨later, (Action.runOn_bind_of_ok () _ (Action.runOn_on (Disk.run_change changed)) _).trans
    ?_⟩
  exact Action.runOn_tryCatch_of_ok made

theorem runOn_present (located : system.locate root = .ok base)
    (directory : system.entry? base = some .directory) :
    (Disk.present root).run system = (.ok true, system) := by
  rw [Disk.present, Disk.run_bind, run_isDirectory located directory]
  rfl

/-- Behind the checks, the place of the collection is cleared and its files are made. -/
theorem runOn_prepareCollection (isName : isCollectionName name = true)
    (unlisted : name ∉ engine.catalog.names) (located : system.locate engine.root = .ok base)
    (directory : system.entry? base = some .directory)
    (cleared : (clearLeftover (engine.directory name)).runOn system = (.ok (), later)) :
    (engine.prepareCollection order name).runOn system =
      (engine.makeStore order (engine.directory name)).runOn later := by
  refine (Action.runOn_bind_of_ok () system ?_ _).trans ?_
  · change ((pure (checkCollectionName name) : Disk _)).run system = _
    rw [Disk.run_pure, checkCollectionName_eq_ok_iff.mpr isName]
  refine (Action.runOn_bind_of_ok _ _ (Action.runOn_lift (runOn_present located directory))
    _).trans ?_
  have new : engine.hasCollection name = false := by
    simpa [hasCollection, Catalog.contains] using unlisted
  dsimp only
  rw [if_neg (by simp [new])]
  exact Action.runOn_bind_of_ok () _ cleared _

/-- The root must be found at its place whatever happens to the directory of the collection, since
its path may lead through it. -/
theorem exists_runOn_prepareCollection (isOrder : Collection.IsMakingOrder order)
    (isName : isCollectionName name = true) (unlisted : name ∉ engine.catalog.names)
    (tree : system.IsTree) (directory : system.entry? base = some .directory)
    (located : ∀ later, Confined (base ++ [name]) system later →
      later.locate engine.root = .ok base)
    (leftover : Leftover (base ++ [name]) system)
    (accepted : ∀ kind, ((Collection.mk (engine.directory name)).pathOf kind).IsAccepted) :
    ∃ later, (engine.prepareCollection order name).runOn system = (.ok (), later) := by
  have step := isStep_of_isCollectionName isName
  have deep : base ++ [name] ≠ [] := List.concat_ne_nil name base
  have noSlash : (engine.directory name).getLast? ≠ some "" :=
    getLast?_child_ne_of_isCollectionName isName engine.root
  have pathOf : ∀ kind, (Collection.mk (engine.directory name)).pathOf kind =
      engine.directory name ++ [kind.fileName] := fun kind =>
    Path.child_eq_append _ noSlash
  have directoryAccepted : (engine.directory name).IsAccepted :=
    (pathOf .node ▸ accepted .node).sublist (List.sublist_append_left ..)
  have locatedThere : ∀ later, Confined (base ++ [name]) system later →
      later.locate (engine.directory name) = .ok (base ++ [name]) := by
    intro later confined
    refine locate_child (located later confined) ?_ directoryAccepted step
    rw [confined.outside base (not_concat_isPrefix_self base name), directory]
  have here := locatedThere system (.refl tree)
  have placesAccepted : ∀ kind : StoreKind, (base ++ [name] ++ [kind.fileName]).IsAccepted := by
    intro kind
    have spelled := sublist_of_follow (follow_of_locate here)
    exact (pathOf kind ▸ accepted kind).sublist (spelled.append_right [kind.fileName])
  obtain ⟨cleared, clears, vacant⟩ :=
    exists_runOn_clearLeftover tree here deep leftover placesAccepted
  have confined : Confined (base ++ [name]) system cleared :=
    (stays_clearLeftover deep (leadsTo_of_locate here) (.refl tree) :
      Action.Stays False _ _ system).ends_of_run clears
  obtain ⟨later, makes⟩ : ∃ later, (engine.makeStore order (engine.directory name)).runOn cleared =
      (.ok (), later) :=
    exists_runOn_makeStore isOrder confined.tree (locatedThere cleared confined) noSlash vacant
      accepted
  exact ⟨later, (runOn_prepareCollection isName unlisted (located system (.refl tree)) directory
    clears).trans makes⟩

theorem run_write {path : Path} {bytes : List UInt8} (located : system.locate path = .ok place)
    (noDirectory : system.entry? place ≠ some .directory) :
    ∃ later content, (Disk.write path bytes).run system = (.ok (), later) ∧
      later.HasFile path place content ∧ system.Keeps later ∧
      ∀ other, other ≠ place → later.entry? other = system.entry? other := by
  have emptied : system.change (.empty path) = .ok (system.put place (.file .empty)) := by
    simp only [change, located, bind, Except.bind]
    rfl
  have file := hasFile_put located noDirectory .empty
  refine ⟨_, Content.append .empty bytes, ?_, file.put_self _,
    (keeps_put _ noDirectory).trans (file.keeps_put _), ?_⟩
  · rw [Disk.write, Disk.run_bind, Disk.run_change emptied]
    exact Disk.run_change (file.change_append bytes)
  · intro other different
    rw [entry?_put_of_ne _ _ different, entry?_put_of_ne _ _ different]

theorem exists_change_rename {source target : Path} {targetPlace : Path} {content : Content}
    (file : system.HasFile source place content) (located : system.locate target = .ok targetPlace)
    (noDirectory : system.entry? targetPlace ≠ some .directory)
    (apart : ¬place <+: targetPlace) (above : ¬targetPlace <+: place) :
    ∃ later, system.change (.rename source target) = .ok later := by
  have notBelow : isBelow place targetPlace = false :=
    isBelow_eq_false_iff.mpr fun below => apart below.1
  have notAbove : isBelow targetPlace place = false :=
    isBelow_eq_false_iff.mpr fun below => above below.1
  have different : place ≠ targetPlace := fun same => apart (same ▸ List.prefix_refl place)
  have replaceable : system.checkReplaceable (.file content) targetPlace = .ok () := by
    cases stands : system.entry? targetPlace with
    | none => simp only [checkReplaceable, stands]
    | some entry =>
        cases entry with
        | directory => exact absurd stands noDirectory
        | file former => simp only [checkReplaceable, stands]
  refine ⟨system.move place targetPlace, ?_⟩
  simp only [change, file.located, located, bind, Except.bind, FileSystem.rename, file.stands,
    notBelow, notAbove, different, replaceable]
  rfl

theorem exists_runOn_flush (path : catalog.path = root.child Catalog.fileName)
    (located : system.locate root = .ok base) (directory : system.entry? base = some .directory)
    (draftAccepted : (root.child temporaryName).IsAccepted)
    (accepted : (root.child Catalog.fileName).IsAccepted)
    (noDraft : system.entry? (draftPlace base) ≠ some .directory)
    (noDirectory : system.entry? (catalogPlace base) ≠ some .directory) :
    ∃ later, catalog.flush.runOn system = (.ok (), later) := by
  have draftLocated : system.locate (root.child temporaryName) = .ok (draftPlace base) :=
    locate_child located directory draftAccepted (by decide)
  have catalogLocated : system.locate (root.child Catalog.fileName) = .ok (catalogPlace base) :=
    locate_child located directory accepted (by decide)
  obtain ⟨written, content, writes, file, keeps, same⟩ := run_write draftLocated noDraft
  have noDirectoryLater : written.entry? (catalogPlace base) ≠ some .directory := by
    rwa [same _ draftPlace_ne_catalogPlace.symm]
  obtain ⟨later, renamed⟩ := exists_change_rename file (locate_of_keeps keeps catalogLocated)
    noDirectoryLater (mt concat_prefix_concat_iff.mp (by decide))
    (mt concat_prefix_concat_iff.mp (by decide))
  refine ⟨later, ?_⟩
  unfold Catalog.flush
  rw [path, temporaryPath_child]
  exact (Action.runOn_bind_of_ok () written (Action.runOn_on writes) _).trans
    (Action.runOn_on (Disk.run_change renamed))

end Engine

end GraphStore
