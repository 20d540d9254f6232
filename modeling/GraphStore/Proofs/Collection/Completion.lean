import GraphStore.Proofs.Collection.Leftover

/-!
# Making and removing to the end

Work on the directory of a collection that nothing stands in the way of. Main statements: what is
left of a collection can be removed, and its files can be made where none are.
-/

set_option autoImplicit false

namespace GraphStore

open FileSystem

variable {system later : FileSystem} {place path : Path}

/-!
## Removing
-/

namespace FileSystem

theorem change_removeFile {content : Content} (tree : system.IsTree) (accepted : place.IsAccepted)
    (stands : system.entry? place = some (.file content)) :
    system.change (.removeFile place) = .ok (system.drop place) := by
  have file : system.HasFile place place content :=
    ⟨tree.locate_place accepted (by rw [stands]; nofun), stands⟩
  rw [change, file.openFile_eq]
  rfl

theorem openDirectory_eq (located : system.locate path = .ok place)
    (directory : system.entry? place = some .directory) :
    system.openDirectory path = .ok place := by
  rw [openDirectory, resolve_eq located directory]
  rfl

theorem change_removeDirectory (located : system.locate path = .ok place)
    (directory : system.entry? place = some .directory) (empty : system.below place = []) :
    system.change (.removeDirectory path) = .ok (system.drop place) := by
  simp only [change, openDirectory_eq located directory, bind, Except.bind, empty]
  rfl

end FileSystem

namespace Disk

theorem run_removeEach_cons {directory : Bool} {rest : List (Path × Bool)}
    (removed : system.change (if directory then .removeDirectory path else .removeFile path) =
      .ok later) :
    (removeEach ((path, directory) :: rest)).run system = (removeEach rest).run later := by
  rw [removeEach, run_bind, run_change removed]

/-- Files at places of their own are removed one after the other. -/
theorem exists_run_removeEach {items : List (Path × Bool)} (tree : system.IsTree)
    (files : ∀ item ∈ items, item.2 = false ∧ item.1.IsAccepted ∧
      ∃ content, system.entry? item.1 = some (.file content))
    (nodup : (items.map Prod.fst).Nodup) :
    ∃ later, (∀ rest, (removeEach (items ++ rest)).run system = (removeEach rest).run later) ∧
      later.IsTree ∧ (∀ item ∈ items, later.entry? item.1 = none) ∧
      ∀ other, (∀ item ∈ items, other ≠ item.1) → later.entry? other = system.entry? other := by
  induction items generalizing system with
  | nil => exact ⟨system, fun _ => rfl, tree, nofun, fun _ _ => rfl⟩
  | cons item others ih =>
      obtain ⟨path, directory⟩ := item
      obtain ⟨⟨isFile, accepted, content, stands⟩, otherFiles⟩ := List.forall_mem_cons.mp files
      obtain ⟨new, otherNodup⟩ := List.nodup_cons.mp nodup
      obtain rfl : directory = false := isFile
      have removed := change_removeFile tree accepted stands
      have apart : ∀ item ∈ others, item.1 ≠ path := fun item member same =>
        new (List.mem_map.mpr ⟨item, member, same⟩)
      have deep := ne_nil_of_entry?_eq_file stands
      obtain ⟨later, ran, laterTree, gone, kept⟩ := ih (tree.change removed)
        (fun item member => by
          rw [entry?_drop_of_ne (apart item member)]
          exact otherFiles item member) otherNodup
      refine ⟨later, ?_, laterTree, ?_, ?_⟩
      · intro rest
        rw [← ran]
        exact run_removeEach_cons removed
      · refine List.forall_mem_cons.mpr ⟨?_, gone⟩
        rw [kept path fun item member same => apart item member same.symm]
        exact entry?_drop_self deep
      · intro other outside
        obtain ⟨here, there⟩ := List.forall_mem_cons.mp outside
        rw [kept other there, entry?_drop_of_ne here]

/-- What is left of a collection can be removed. -/
theorem exists_run_removeTree (tree : system.IsTree) (located : system.locate path = .ok place)
    (directory : system.entry? place = some .directory) (deep : place ≠ [])
    (leftover : Leftover place system)
    (accepted : ∀ kind : StoreKind, (place ++ [kind.fileName]).IsAccepted) :
    ∃ later, (removeTree path).run system = (.ok (), later) ∧ later.entry? place = none := by
  let items := ((system.below place).map fun entry => (entry.1, entry.2.isDirectory)).mergeSort
    fun left right => right.1.length ≤ left.1.length
  have members : ∀ item, item ∈ items ↔ ∃ entry ∈ system.below place,
      (entry.1, entry.2.isDirectory) = item := fun item =>
    List.mem_mergeSort.trans List.mem_map
  have files : ∀ item ∈ items, item.2 = false ∧ item.1.IsAccepted ∧
      ∃ content, system.entry? item.1 = some (.file content) := by
    intro item member
    obtain ⟨⟨other, entry⟩, below, rfl⟩ := (members item).mp member
    obtain ⟨isBelow, different, stands⟩ := tree.mem_below_iff.mp below
    obtain ⟨kind, content, rfl, file⟩ :=
      leftover.files other isBelow different (by rw [stands]; nofun)
    obtain rfl := Option.some.inj (stands.symm.trans file)
    exact ⟨rfl, accepted kind, content, file⟩
  have nodup : (items.map Prod.fst).Nodup := by
    have sorted := (List.mergeSort_perm ((system.below place).map
      fun entry => (entry.1, entry.2.isDirectory))
        fun left right => right.1.length ≤ left.1.length).map Prod.fst
    rw [sorted.nodup_iff, List.map_map]
    exact tree.nodup.sublist (List.filter_sublist.map _)
  -- The files go first. The directory is last in the list, and is empty by then.
  obtain ⟨middle, ran, middleTree, gone, kept⟩ := exists_run_removeEach tree files nodup
  have outside : ∀ {other}, ¬isBelow place other = true → ∀ item ∈ items, other ≠ item.1 := by
    intro other notBelow item member same
    obtain ⟨entry, below, rfl⟩ := (members item).mp member
    have inside := tree.mem_below_iff.mp below
    exact notBelow (isBelow_iff.mpr ⟨same ▸ inside.1, same ▸ inside.2.1⟩)
  have keeps : system.Keeps middle := by
    refine keeps_of_entry? fun other otherDirectory => ?_
    rw [kept other, otherDirectory]
    intro item member same
    obtain ⟨-, -, content, stands⟩ := files item member
    rw [← same, otherDirectory] at stands
    cases stands
  have stays : middle.entry? place = some .directory := by
    rw [kept place (outside fun below => (isBelow_iff.mp below).2 rfl), directory]
  have empty : middle.below place = [] := by
    refine middleTree.below_eq_nil_iff.mpr fun other isAbove different => ?_
    cases stands : system.entry? other with
    | none =>
        rw [kept other, stands]
        intro item member same
        obtain ⟨-, -, content, file⟩ := files item member
        rw [← same, stands] at file
        cases file
    | some entry =>
        exact gone (other, entry.isDirectory) ((members _).mpr
          ⟨(other, entry), tree.mem_below_iff.mpr ⟨isAbove, different, stands⟩, rfl⟩)
  have removed := change_removeDirectory (locate_of_keeps keeps located) stays empty
  refine ⟨middle.drop place, ?_, entry?_drop_self deep⟩
  have asked : (descendants path).run system = (.ok items, system) := by
    have answer : (Question.below path).answer system = .ok items := by
      rw [Question.answer, openDirectory_eq located directory]
      rfl
    exact congrArg (·, system) answer
  rw [removeTree, run_bind, asked]
  change (removeEach (items ++ [(path, true)])).run system = _
  rw [ran]
  exact run_removeEach_cons removed

end Disk

/-!
## Making
-/

open Collection (Making)

/-- Whether steps can be made one after the other where some files are made already. -/
def Collection.CanMake : List StoreKind → List Making → Prop
  | _, [] => True
  | made, .file kind :: rest => kind ∉ made ∧ CanMake (kind :: made) rest
  | made, .header kind :: rest => kind ∈ made ∧ CanMake made rest

private theorem canMake_of_front {front rest : List Making} {made : List StoreKind}
    (isOrder : Collection.IsMakingOrder (front ++ rest))
    (behind : ∀ kind, kind ∈ made ↔ Making.file kind ∈ front) : Collection.CanMake made rest := by
  induction rest generalizing front made with
  | nil => trivial
  | cons step rest ih =>
      have nodup : (front ++ step :: rest).Nodup := isOrder.1.nodup_iff.mpr (by decide)
      have new : step ∉ front := fun member =>
        (List.nodup_append.mp nodup).2.2 step member step List.mem_cons_self rfl
      rw [List.append_cons] at isOrder
      cases step with
      | file kind =>
          refine ⟨fun member => new ((behind kind).mp member), ih isOrder fun other => ?_⟩
          simp only [List.mem_cons, List.mem_append, behind other, Making.file.injEq,
            List.not_mem_nil, or_false]
          exact or_comm
      | header kind =>
          refine ⟨(behind kind).mpr ?_, ih isOrder fun other => ?_⟩
          · have earlier := isOrder.2 kind
            by_contra missing
            -- Otherwise the file would come behind its header, which is next.
            rw [List.append_assoc, List.singleton_append, List.idxOf_append_of_notMem missing,
              List.idxOf_append_of_notMem new, List.idxOf_cons_self] at earlier
            omega
          · simp [behind other]

theorem Collection.canMake_of_isMakingOrder {order : List Making}
    (isOrder : Collection.IsMakingOrder order) : Collection.CanMake [] order :=
  canMake_of_front (List.nil_append order ▸ isOrder) (by simp)

namespace Site

variable {site : Site}

theorem Stands.locate_pathOf (stands : site.Stands system) {kind : StoreKind}
    (accepted : (site.collection.pathOf kind).IsAccepted) :
    system.locate (site.collection.pathOf kind) = .ok (site.placeOf kind) :=
  locate_child stands.located stands.solid.isDirectory accepted kind.isStep_fileName

/-- Whether the files of some kinds are there and those of the others are not. -/
structure HasFiles (site : Site) (made : List StoreKind) (system : FileSystem) : Prop where
  stands : site.Stands system
  there : ∀ kind ∈ made, ∃ content,
    system.HasFile (site.collection.pathOf kind) (site.placeOf kind) content
  vacant : ∀ kind, kind ∉ made → system.entry? (site.placeOf kind) = none

theorem HasFiles.make {made more : List StoreKind} {step : Making}
    (has : site.HasFiles made system)
    (makes : (site.collection.make site.endian step).runOn system = (.ok (), later))
    (file : ∃ content, later.HasFile (site.collection.pathOf step.kind) (site.placeOf step.kind)
      content)
    (grows : ∀ kind, kind ∈ more ↔ kind = step.kind ∨ kind ∈ made) : site.HasFiles more later := by
  obtain ⟨keeps, same⟩ := keeps_of_make has.stands makes
  refine ⟨has.stands.keeps keeps, fun kind member => ?_, fun kind missing => ?_⟩
  · by_cases equal : kind = step.kind
    · exact equal ▸ file
    · obtain ⟨content, former⟩ := has.there kind (((grows kind).mp member).resolve_left equal)
      refine ⟨content, locate_of_keeps keeps former.located, ?_⟩
      rw [same _ fun placed => equal (placeOf_injective placed), former.stands]
  · obtain ⟨different, unmade⟩ := not_or.mp (mt (grows kind).mpr missing)
    rw [same _ fun placed => different (placeOf_injective placed), has.vacant kind unmade]

/-- Files can be made where none are, in each order that is allowed. -/
theorem HasFiles.exists_runOn_forM {steps : List Making} {made : List StoreKind}
    (has : site.HasFiles made system) (can : Collection.CanMake made steps)
    (accepted : ∀ kind, (site.collection.pathOf kind).IsAccepted) :
    ∃ later, (steps.forM (site.collection.make site.endian)).runOn system = (.ok (), later) := by
  induction steps generalizing system made with
  | nil => exact ⟨system, rfl⟩
  | cons step rest ih =>
      cases step with
      | file kind =>
          obtain ⟨new, canRest⟩ := can
          have changed : system.change (.makeFile (site.collection.pathOf kind)) =
              .ok (system.put (site.placeOf kind) (.file .empty)) := by
            simp only [change, locateVacant, has.stands.locate_pathOf (accepted kind), bind,
              Except.bind, has.vacant kind new]
            rfl
          have makes : (site.collection.make site.endian (.file kind)).runOn system =
              (.ok (), system.put (site.placeOf kind) (.file .empty)) :=
            Action.runOn_on (Disk.run_change changed)
          have file := hasFile_of_make_file has.stands makes
          obtain ⟨last, ran⟩ := ih (has.make makes ⟨_, file⟩ fun _ => List.mem_cons) canRest
          exact ⟨last, (Action.runOn_bind_of_ok () _ makes _).trans ran⟩
      | header kind =>
          obtain ⟨present, canRest⟩ := can
          obtain ⟨content, file⟩ := has.there kind present
          have makes : (site.collection.make site.endian (.header kind)).runOn system =
              (.ok (), system.put (site.placeOf kind)
                (.file (content.append (StoreHeader.fresh kind site.endian).encode))) :=
            Action.runOn_on (Disk.run_change (file.change_append _))
          have headed := hasFile_of_make_header file makes
          have grows : ∀ other, other ∈ made ↔ other = kind ∨ other ∈ made := fun other =>
            (or_iff_right_of_imp fun same => same ▸ present).symm
          obtain ⟨last, ran⟩ := ih (has.make makes ⟨_, headed⟩ grows) canRest
          exact ⟨last, (Action.runOn_bind_of_ok () _ makes _).trans ran⟩

theorem Stands.exists_runOn_makeFilesIn {order : List Making} (stands : site.Stands system)
    (isOrder : Collection.IsMakingOrder order)
    (accepted : ∀ kind, (site.collection.pathOf kind).IsAccepted)
    (vacant : ∀ kind, system.entry? (site.placeOf kind) = none) :
    ∃ later, (site.collection.makeFilesIn order site.endian).runOn system = (.ok (), later) :=
  HasFiles.exists_runOn_forM ⟨stands, List.forall_mem_nil _, fun kind _ => vacant kind⟩
    (Collection.canMake_of_isMakingOrder isOrder) accepted

end Site

end GraphStore
