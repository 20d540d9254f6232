import GraphStore.Proofs.Collection.Making
import GraphStore.Proofs.Disk.Passing
import GraphStore.Proofs.Disk.Paths

/-!
# What is left of a collection

The place of a collection while its files are made or removed. Main statements: all that is done
there changes nothing elsewhere, and never leaves anything but store files in a directory.
-/

set_option autoImplicit false

namespace GraphStore

variable {start system later : FileSystem} {place path : Path} {mayRefuse : Prop}

/-- Whether there is nothing at a place but a directory with store files. -/
structure Leftover (place : Path) (system : FileSystem) : Prop where
  noFile : ∀ content, system.entry? place ≠ some (.file content)
  files : ∀ other, place <+: other → other ≠ place → system.entry? other ≠ none →
    ∃ (kind : StoreKind) (content : Content), other = place ++ [kind.fileName] ∧
      system.entry? other = some (.file content)

theorem Leftover.same (leftover : Leftover place system)
    (same : ∀ other, place <+: other → later.entry? other = system.entry? other) :
    Leftover place later where
  noFile content := same place (List.prefix_refl place) ▸ leftover.noFile content
  files other isBelow different stands := by
    rw [same other isBelow] at stands ⊢
    exact leftover.files other isBelow different stands

theorem leftover_of_none (none : ∀ other, place <+: other → system.entry? other = none) :
    Leftover place system where
  noFile content := by
    rw [none place (List.prefix_refl place)]
    nofun
  files other isBelow _ stands := absurd (none other isBelow) stands

/-- Whether a tree came from a file system by changes at and below a place, which leave nothing
there but store files if there was nothing else. -/
structure Confined (place : Path) (system later : FileSystem) : Prop where
  tree : later.IsTree
  outside : ∀ other, ¬place <+: other → later.entry? other = system.entry? other
  leftover : Leftover place system → Leftover place later

namespace Confined

theorem refl (tree : system.IsTree) : Confined place system system :=
  ⟨tree, fun _ _ => rfl, id⟩

theorem trans (first : Confined place start system) (second : Confined place system later) :
    Confined place start later where
  tree := second.tree
  outside other away := (second.outside other away).trans (first.outside other away)
  leftover left := second.leftover (first.leftover left)

/-- Anything at a place makes way for a directory. -/
theorem put_directory (tree : (system.put place .directory).IsTree) (deep : place ≠ []) :
    Confined place system (system.put place .directory) where
  tree := tree
  outside other away := by
    refine FileSystem.entry?_put_of_ne system _ fun same => away ?_
    exact same ▸ List.prefix_refl other
  leftover left := by
    constructor
    · intro content
      rw [FileSystem.entry?_put_self system _ deep]
      nofun
    · intro other isBelow different stands
      rw [FileSystem.entry?_put_of_ne system _ different] at stands ⊢
      exact left.files other isBelow different stands

theorem put_file {kind : StoreKind} {content : Content}
    (tree : (system.put (place ++ [kind.fileName]) (.file content)).IsTree) :
    Confined place system (system.put (place ++ [kind.fileName]) (.file content)) where
  tree := tree
  outside other away := by
    refine FileSystem.entry?_put_of_ne system _ fun same => away ?_
    exact same ▸ List.prefix_append place _
  leftover left := by
    constructor
    · intro former
      rw [FileSystem.entry?_put_of_ne system _ (by simp)]
      exact left.noFile former
    · intro other isBelow different stands
      by_cases same : other = place ++ [kind.fileName]
      · subst same
        exact ⟨kind, content, rfl, FileSystem.entry?_put_self system _ (by simp)⟩
      · rw [FileSystem.entry?_put_of_ne system _ same] at stands ⊢
        exact left.files other isBelow different stands

theorem drop {target : Path} (tree : (system.drop target).IsTree) (deep : place ≠ [])
    (inside : place <+: target) : Confined place system (system.drop target) where
  tree := tree
  outside other away :=
    FileSystem.entry?_drop_of_ne fun same => away (same ▸ inside)
  leftover left := by
    have targetDeep : target ≠ [] := by
      intro top
      subst top
      exact deep (List.prefix_nil.mp inside)
    constructor
    · intro content
      by_cases same : place = target
      · rw [same, FileSystem.entry?_drop_self targetDeep]
        nofun
      · rw [FileSystem.entry?_drop_of_ne same]
        exact left.noFile content
    · intro other isBelow different stands
      by_cases same : other = target
      · subst same
        exact absurd (FileSystem.entry?_drop_self targetDeep) stands
      · rw [FileSystem.entry?_drop_of_ne same] at stands ⊢
        exact left.files other isBelow different stands

end Confined

/-!
## Removing
-/

theorem FileSystem.entry?_of_openDirectory (opened : system.openDirectory path = .ok place) :
    system.locate path = .ok place ∧ system.entry? place = some .directory := by
  obtain ⟨⟨reached, entry⟩, resolved, given⟩ := exists_of_bind_eq_ok opened
  cases entry with
  | file content => cases given
  | directory =>
      cases given
      obtain ⟨again, located, found⟩ := exists_of_bind_eq_ok resolved
      cases stands : system.entry? again with
      | none =>
          rw [stands] at found
          cases found
      | some entry =>
          rw [stands] at found
          cases found
          exact ⟨located, stands⟩

theorem FileSystem.drop_of_change_remove {directory : Bool}
    (changed : system.change (if directory then .removeDirectory path else .removeFile path) =
      .ok later) : ∃ target, system.locate path = .ok target ∧ later = system.drop target := by
  cases directory with
  | false =>
      obtain ⟨⟨target, content⟩, opened, same⟩ := exists_of_bind_eq_ok changed
      cases same
      exact ⟨target, (hasFile_of_openFile opened).located, rfl⟩
  | true =>
      obtain ⟨target, opened, removed⟩ := exists_of_bind_eq_ok changed
      split at removed
      · cases removed
        exact ⟨target, (entry?_of_openDirectory opened).1, rfl⟩
      · cases removed

namespace Disk

theorem stays_removeEach {items : List (Path × Bool)} (deep : place ≠ [])
    (inside : ∀ item ∈ items, ∃ target, item.1.LeadsTo target ∧ place <+: target)
    (confined : Confined place start system) :
    (removeEach items).Stays mayRefuse (Confined place start) system := by
  induction items generalizing system with
  | nil => exact Passes.pure confined
  | cons item rest ih =>
      obtain ⟨⟨target, leads, below⟩, others⟩ := List.forall_mem_cons.mp inside
      obtain ⟨path, directory⟩ := item
      have removed : (Disk.change (if directory then Change.removeDirectory path
          else .removeFile path)).Stays mayRefuse (Confined place start) system := by
        refine Stays.change confined fun changed succeeded => ?_
        obtain ⟨elsewhere, located, rfl⟩ := FileSystem.drop_of_change_remove succeeded
        obtain rfl := leads.eq_of_locate located
        exact confined.trans (.drop (confined.tree.change succeeded) deep below)
      refine removed.bind fun outcome later confinedLater => ?_
      cases outcome with
      | ok => exact ih others confinedLater
      | error reason => exact Passes.pure confinedLater

theorem stays_removeTree (deep : place ≠ []) (leads : path.LeadsTo place)
    (confined : Confined place start system) :
    (removeTree path).Stays mayRefuse (Confined place start) system := by
  have asked : (descendants path).Passes mayRefuse (Confined place start)
      (fun answer later => answer = (Question.below path).answer system ∧ later = system) system :=
    Passes.ask ⟨rfl, rfl⟩
  refine asked.bind fun answer later given => ?_
  obtain ⟨answered, rfl⟩ := given
  cases answer with
  | error reason => exact Passes.pure confined
  | ok entries =>
      refine stays_removeEach deep ?_ confined
      obtain ⟨reached, opened, rfl⟩ := exists_of_map_eq_ok answered.symm
      obtain rfl := leads.eq_of_locate (FileSystem.entry?_of_openDirectory opened).1
      intro item member
      -- What lies below is named by its place, and only the directory itself by the path.
      rcases List.mem_append.mp member with below | last
      · obtain ⟨entry, inside, rfl⟩ := List.mem_map.mp (List.mem_mergeSort.mp below)
        obtain ⟨isAbove, _, stands⟩ := confined.tree.mem_below_iff.mp inside
        refine ⟨entry.1, leadsTo_self (confined.tree.isStep ?_), isAbove⟩
        rw [stands]
        nofun
      · obtain rfl := List.mem_singleton.mp last
        exact ⟨reached, leads, List.prefix_refl reached⟩

end Disk

/-!
## Making
-/

namespace Collection

variable {collection : Collection} {endian : Endian}

theorem leadsTo_pathOf (leads : collection.directory.LeadsTo place) (kind : StoreKind) :
    (collection.pathOf kind).LeadsTo (place ++ [kind.fileName]) :=
  leads.child kind.isStep_fileName

theorem stays_make (step : Making) (leads : collection.directory.LeadsTo place)
    (confined : Confined place start system) :
    (collection.make endian step).Stays mayRefuse (Confined place start) system := by
  cases step with
  | file kind =>
      refine Action.Stays.on (Disk.Stays.change confined fun changed succeeded => ?_)
      obtain ⟨target, located, _, rfl⟩ := FileSystem.put_of_change_makeFile succeeded
      obtain rfl := (leadsTo_pathOf leads kind).eq_of_locate located
      exact confined.trans (.put_file (confined.tree.change succeeded))
  | header kind =>
      refine Action.Stays.on (Disk.Stays.change confined fun changed succeeded => ?_)
      obtain ⟨target, _, file, rfl⟩ := FileSystem.put_of_change_append succeeded
      obtain rfl := (leadsTo_pathOf leads kind).eq_of_locate file.located
      exact confined.trans (.put_file (confined.tree.change succeeded))

theorem stays_makeFilesIn {order : List Making} (leads : collection.directory.LeadsTo place)
    (confined : Confined place start system) :
    (collection.makeFilesIn order endian).Stays mayRefuse (Confined place start) system := by
  unfold makeFilesIn
  induction order generalizing system with
  | nil => exact Action.Passes.pure confined
  | cons step rest ih =>
      exact (stays_make step leads confined).bind fun _ _ held => ih held

end Collection

end GraphStore
