import GraphStore.Proofs.Disk.Runs
import GraphStore.Proofs.Store.Site
import Mathlib.Data.List.Nodup

/-!
# Making the files of a collection

Main statement: whatever the order in which the files of a collection are made and get their
headers, they hold no records when all steps have succeeded.
-/

set_option autoImplicit false

namespace GraphStore

/-- The kind of file that a step is about. -/
def Collection.Making.kind : Collection.Making → StoreKind
  | file kind => kind
  | header kind => kind

/-- An order in which the files of a collection can be made. -/
structure Collection.MakingOrder where
  steps : List Collection.Making
  isOrder : Collection.IsMakingOrder steps

/-- One file after the other. -/
def Collection.MakingOrder.oneByOne : Collection.MakingOrder where
  steps := Collection.makingOrder
  isOrder := ⟨.refl _, fun kind => by cases kind <;> decide⟩

namespace Site

open Collection (Making)

variable {site : Site} {system later : FileSystem} {kind : StoreKind} {content : Content}

/-- Whether the path of the collection leads to its directory. -/
structure Stands (site : Site) (system : FileSystem) : Prop where
  located : system.locate site.collection.directory = .ok site.place
  solid : system.Solid site.place

theorem Stands.keeps (stands : site.Stands system) (keeps : system.Keeps later) :
    site.Stands later :=
  ⟨FileSystem.locate_of_keeps keeps stands.located, keeps site.place stands.solid⟩

theorem Stands.eq_placeOf {place : Path} (stands : site.Stands system)
    (located : system.locate (site.collection.pathOf kind) = .ok place) :
    place = site.placeOf kind :=
  FileSystem.eq_append_of_child stands.located located kind.isStep_fileName

/-- A step keeps the directories and the files of the other kinds. -/
theorem keeps_of_make {step : Making} (stands : site.Stands system)
    (made : (site.collection.make site.endian step).runOn system = (.ok (), later)) :
    system.Keeps later ∧
      ∀ place, place ≠ site.placeOf step.kind → later.entry? place = system.entry? place := by
  cases step with
  | file kind =>
      obtain ⟨place, located, vacant, rfl⟩ := FileSystem.put_of_change_makeFile
        (Disk.change_of_run (Action.run_of_runOn_on made))
      obtain rfl := stands.eq_placeOf located
      refine ⟨FileSystem.keeps_put _ (by rw [vacant]; nofun), ?_⟩
      exact fun other different => FileSystem.entry?_put_of_ne system _ different
  | header kind =>
      obtain ⟨place, former, file, rfl⟩ := FileSystem.put_of_change_append
        (Disk.change_of_run (Action.run_of_runOn_on made))
      obtain rfl := stands.eq_placeOf file.located
      refine ⟨file.keeps_put _, ?_⟩
      exact fun other different => FileSystem.entry?_put_of_ne system _ different

theorem hasFile_of_make_file (stands : site.Stands system)
    (made : (site.collection.make site.endian (.file kind)).runOn system = (.ok (), later)) :
    later.HasFile (site.collection.pathOf kind) (site.placeOf kind) .empty := by
  obtain ⟨place, located, vacant, rfl⟩ := FileSystem.put_of_change_makeFile
    (Disk.change_of_run (Action.run_of_runOn_on made))
  obtain rfl := stands.eq_placeOf located
  exact FileSystem.hasFile_put located (by rw [vacant]; nofun) .empty

theorem hasFile_of_make_header
    (file : system.HasFile (site.collection.pathOf kind) (site.placeOf kind) content)
    (made : (site.collection.make site.endian (.header kind)).runOn system = (.ok (), later)) :
    later.HasFile (site.collection.pathOf kind) (site.placeOf kind)
      (content.append (StoreHeader.fresh kind site.endian).encode) := by
  have changed := Disk.change_of_run (Action.run_of_runOn_on made)
  rw [file.change_append] at changed
  cases changed
  exact file.put_self _

private theorem exists_of_runOn_forM_append {steps others : List Making} {last : FileSystem}
    (made : ((steps ++ others).forM (site.collection.make site.endian)).runOn system =
      (.ok (), last)) :
    ∃ middle, (steps.forM (site.collection.make site.endian)).runOn system = (.ok (), middle) ∧
      (others.forM (site.collection.make site.endian)).runOn middle = (.ok (), last) := by
  change (forM (steps ++ others) _ : Action Unit).runOn system = _ at made
  rw [List.forM_append] at made
  obtain ⟨_, middle, first, rest⟩ := Action.exists_of_runOn_bind made
  exact ⟨middle, first, rest⟩

private theorem exists_of_runOn_forM_cons {step : Making} {others : List Making}
    {last : FileSystem}
    (made : ((step :: others).forM (site.collection.make site.endian)).runOn system =
      (.ok (), last)) :
    ∃ middle, (site.collection.make site.endian step).runOn system = (.ok (), middle) ∧
      (others.forM (site.collection.make site.endian)).runOn middle = (.ok (), last) := by
  obtain ⟨_, middle, first, rest⟩ := Action.exists_of_runOn_bind made
  exact ⟨middle, first, rest⟩

private theorem keeps_of_forM {steps : List Making} (stands : site.Stands system)
    (made : (steps.forM (site.collection.make site.endian)).runOn system = (.ok (), later)) :
    system.Keeps later ∧ ∀ place, (∀ step ∈ steps, place ≠ site.placeOf step.kind) →
      later.entry? place = system.entry? place := by
  induction steps generalizing system with
  | nil =>
      cases made
      exact ⟨.refl _, fun _ _ => rfl⟩
  | cons step rest ih =>
      obtain ⟨middle, first, onward⟩ := exists_of_runOn_forM_cons made
      obtain ⟨keeps, same⟩ := keeps_of_make stands first
      obtain ⟨restKeeps, restSame⟩ := ih (stands.keeps keeps) onward
      refine ⟨keeps.trans restKeeps, fun place outside => ?_⟩
      obtain ⟨here, others⟩ := List.forall_mem_cons.mp outside
      rw [restSame place others, same place here]

private theorem hasFile_of_forM {steps : List Making} (stands : site.Stands system)
    (apart : ∀ step ∈ steps, step.kind ≠ kind)
    (file : system.HasFile (site.collection.pathOf kind) (site.placeOf kind) content)
    (made : (steps.forM (site.collection.make site.endian)).runOn system = (.ok (), later)) :
    later.HasFile (site.collection.pathOf kind) (site.placeOf kind) content := by
  obtain ⟨keeps, same⟩ := keeps_of_forM stands made
  refine ⟨FileSystem.locate_of_keeps keeps file.located, ?_⟩
  rw [same, file.stands]
  exact fun step member equal => apart step member (placeOf_injective equal).symm

/-- The steps about one kind in an order in which files can be made. -/
private theorem exists_steps_of_kind {order : List Making}
    (isOrder : Collection.IsMakingOrder order) (kind : StoreKind) :
    ∃ front middle back, order = front ++ .file kind :: middle ++ .header kind :: back ∧
      ∀ step ∈ middle ++ back, step.kind ≠ kind := by
  obtain ⟨same, ordered⟩ := isOrder
  have nodup : order.Nodup := same.nodup_iff.mpr (by decide)
  have present : ∀ step : Making, step ∈ Collection.makingOrder → step ∈ order :=
    fun _ member => same.mem_iff.mpr member
  obtain ⟨front, rest, rfl⟩ := List.append_of_mem (present (.file kind) (by cases kind <;> decide))
  have notFront : Making.file kind ∉ front := fun member =>
    (List.nodup_append.mp nodup).2.2 _ member _ List.mem_cons_self rfl
  have later := ordered kind
  rw [List.idxOf_append_of_notMem notFront, List.idxOf_cons_self] at later
  have afterFront : Making.header kind ∉ front := by
    intro member
    rw [List.idxOf_append_of_mem member] at later
    exact absurd (List.idxOf_lt_length_of_mem member) (by omega)
  have inRest : Making.header kind ∈ rest := by
    rcases List.mem_append.mp (present (.header kind) (by cases kind <;> decide)) with early | late
    · exact absurd early afterFront
    · rcases List.mem_cons.mp late with impossible | inRest
      · cases impossible
      · exact inRest
  obtain ⟨middle, back, rfl⟩ := List.append_of_mem inRest
  refine ⟨front, middle, back, by rw [List.append_assoc, List.cons_append], ?_⟩
  have unique := (List.nodup_append.mp nodup).2.1
  rw [List.nodup_cons, List.mem_append, List.mem_cons, List.nodup_middle, List.nodup_cons] at unique
  intro step member same
  subst same
  cases step with
  | file kind =>
      refine unique.1 ?_
      rcases List.mem_append.mp member with inMiddle | inBack
      · exact .inl inMiddle
      · exact .inr (.inr inBack)
  | header kind => exact unique.2.1 member

/-- The files of a collection hold no records when they are made. -/
theorem holds_empty_of_makeFilesIn {order : List Making} (isOrder : Collection.IsMakingOrder order)
    (stands : site.Stands system)
    (made : (site.collection.makeFilesIn order site.endian).runOn system = (.ok (), later)) :
    site.Holds .empty later ∧ system.Keeps later := by
  refine ⟨fun kind => ⟨?_, nofun, Nat.zero_lt_of_lt (by decide : 0 < RecordFile.idLimit)⟩,
    (keeps_of_forM stands made).1⟩
  obtain ⟨front, middle, back, rfl, apart⟩ := exists_steps_of_kind isOrder kind
  obtain ⟨apartMiddle, apartBack⟩ := List.forall_mem_append.mp apart
  obtain ⟨beforeHeader, toHeader, fromHeader⟩ := exists_of_runOn_forM_append made
  obtain ⟨beforeFile, toFile, fromFile⟩ := exists_of_runOn_forM_append toHeader
  obtain ⟨withFile, fileMade, middleMade⟩ := exists_of_runOn_forM_cons fromFile
  obtain ⟨withHeader, headerMade, backMade⟩ := exists_of_runOn_forM_cons fromHeader
  -- the file is made and gets its header, and all other steps leave it as it is
  have standsBeforeFile := stands.keeps (keeps_of_forM stands toFile).1
  have standsWithFile := standsBeforeFile.keeps (keeps_of_make standsBeforeFile fileMade).1
  have standsBeforeHeader := standsWithFile.keeps (keeps_of_forM standsWithFile middleMade).1
  have standsWithHeader := standsBeforeHeader.keeps (keeps_of_make standsBeforeHeader headerMade).1
  have file := hasFile_of_make_file standsBeforeFile fileMade
  have fileKept := hasFile_of_forM standsWithFile apartMiddle file middleMade
  have headed := hasFile_of_make_header fileKept headerMade
  have headedKept := hasFile_of_forM standsWithHeader apartBack headed backMade
  refine ⟨_, headedKept, ?_⟩
  rw [Content.toList_append, Content.toList_empty, List.nil_append, fileBytes]
  exact (List.append_nil _).symm

end Site

end GraphStore
