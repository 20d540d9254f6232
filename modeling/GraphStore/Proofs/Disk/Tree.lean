import GraphStore.Proofs.Disk.Runs
import Mathlib.Data.List.Induction
import Mathlib.Data.List.Nodup

/-!
# Trees of directories

The entries of a file system form a tree: each stands in a directory, and no two at one place. Main
statement: every change of a tree gives a tree.
-/

set_option autoImplicit false

namespace GraphStore

namespace FileSystem

variable {system later : FileSystem} {place other above : Path} {entry : Entry}

/-!
## Entries by their places
-/

theorem mem_entries_iff (nodup : (system.entries.map Prod.fst).Nodup) (deep : place ≠ []) :
    (place, entry) ∈ system.entries ↔ system.entry? place = some entry := by
  rw [entry?_of_ne_nil system deep]
  constructor
  · intro member
    cases found : system.entries.find? (·.1 == place) with
    | none =>
        have missing := List.find?_eq_none.mp found (place, entry) member
        simp at missing
    | some first =>
        have inside := List.mem_of_find?_eq_some found
        have same : first.1 = place := by simpa using List.find?_some found
        have equal : first = (place, entry) :=
          List.inj_on_of_nodup_map nodup inside member same
        rw [equal]
        rfl
  · intro stands
    obtain ⟨first, found, same⟩ := Option.map_eq_some_iff.mp stands
    have equal : first.1 = place := by simpa using List.find?_some found
    have inside := List.mem_of_find?_eq_some found
    rwa [show first = (place, entry) from Prod.ext equal same] at inside

theorem entry?_drop_self (deep : place ≠ []) :
    FileSystem.entry? (system.drop place) place = none := by
  rw [entry?_of_ne_nil _ deep, drop, Option.map_eq_none_iff, List.find?_eq_none]
  intro entry member
  simpa using (List.mem_filter.mp member).2

theorem entry?_drop_of_ne (different : other ≠ place) :
    FileSystem.entry? (system.drop place) other = system.entry? other := by
  by_cases deep : other = []
  · rw [deep, entry?_nil, entry?_nil]
  · rw [entry?_of_ne_nil _ deep, entry?_of_ne_nil _ deep, drop, List.find?_filter]
    congr 2
    funext entry
    by_cases same : entry.1 = other
    · simp [same, different]
    · simp [same]

theorem isBelow_iff {directory : Path} :
    isBelow directory place = true ↔ directory <+: place ∧ place ≠ directory := by
  simp [isBelow, List.isPrefixOf_iff_prefix]

theorem isBelow_eq_false_iff {directory : Path} :
    isBelow directory place = false ↔ ¬(directory <+: place ∧ place ≠ directory) := by
  rw [Bool.eq_false_iff, ne_eq, isBelow_iff]

private theorem dropLast_ne (deep : place ≠ []) : place.dropLast ≠ place := by
  intro same
  have length := congrArg List.length same
  rw [List.length_dropLast] at length
  exact absurd (List.length_pos_iff.mpr deep) (by omega)

/-!
## Trees
-/

/-- Whether each entry has a place of its own in a directory, with names that lead down to it. -/
structure IsTree (system : FileSystem) : Prop where
  nodup : (system.entries.map Prod.fst).Nodup
  steps : ∀ entry ∈ system.entries, entry.1 ≠ [] ∧ ∀ name ∈ entry.1, isStep name = true
  parents : ∀ entry ∈ system.entries, system.entry? entry.1.dropLast = some .directory

theorem isTree_nil : IsTree ⟨[]⟩ := ⟨.nil, nofun, nofun⟩

namespace IsTree

theorem parent (tree : system.IsTree) (stands : system.entry? place ≠ none) (deep : place ≠ []) :
    system.entry? place.dropLast = some .directory := by
  obtain ⟨entry, found⟩ := Option.ne_none_iff_exists'.mp stands
  exact tree.parents _ ((mem_entries_iff tree.nodup deep).mpr found)

theorem isStep (tree : system.IsTree) (stands : system.entry? place ≠ none) :
    ∀ name ∈ place, FileSystem.isStep name = true := by
  by_cases deep : place = []
  · subst deep
    exact nofun
  · obtain ⟨entry, found⟩ := Option.ne_none_iff_exists'.mp stands
    exact (tree.steps _ ((mem_entries_iff tree.nodup deep).mpr found)).2

theorem isDirectory_of_above (tree : system.IsTree) (stands : system.entry? place ≠ none)
    (isAbove : above <+: place) (different : above ≠ place) :
    system.entry? above = some .directory := by
  induction place using List.reverseRecOn with
  | nil => exact absurd (List.prefix_nil.mp isAbove) different
  | append_singleton front name ih =>
      have directory := tree.parent stands (List.concat_ne_nil name front)
      rw [List.dropLast_concat] at directory
      rcases List.prefix_concat_iff.mp isAbove with same | higher
      · exact absurd same different
      · by_cases same : above = front
        · rw [same, directory]
        · exact ih (by rw [directory]; nofun) higher same

theorem solid (tree : system.IsTree) (directory : system.entry? place = some .directory) :
    system.Solid place := by
  intro above isAbove
  by_cases same : above = place
  · rw [same, directory]
  · exact tree.isDirectory_of_above (by rw [directory]; nofun) isAbove same

/-- Below what is no directory there is nothing. -/
theorem none_below (tree : system.IsTree) (noDirectory : system.entry? above ≠ some .directory)
    (isAbove : above <+: place) (different : above ≠ place) : system.entry? place = none := by
  by_contra stands
  exact noDirectory (tree.isDirectory_of_above stands isAbove different)

theorem mem_below_iff (tree : system.IsTree) {directory : Path} :
    (place, entry) ∈ system.below directory ↔
      directory <+: place ∧ place ≠ directory ∧ system.entry? place = some entry := by
  rw [below, List.mem_filter, isBelow_iff]
  constructor
  · intro given
    obtain ⟨member, isAbove, different⟩ := given
    exact ⟨isAbove, different,
      (mem_entries_iff tree.nodup (tree.steps _ member).1).mp member⟩
  · intro given
    obtain ⟨isAbove, different, stands⟩ := given
    have deep : place ≠ [] := by
      intro none
      subst none
      exact different (List.prefix_nil.mp isAbove).symm
    exact ⟨(mem_entries_iff tree.nodup deep).mpr stands, isAbove, different⟩

theorem below_eq_nil_iff (tree : system.IsTree) {directory : Path} :
    system.below directory = [] ↔
      ∀ place, directory <+: place → place ≠ directory → system.entry? place = none := by
  constructor
  · intro empty place isAbove different
    by_contra stands
    obtain ⟨entry, found⟩ := Option.ne_none_iff_exists'.mp stands
    have member := tree.mem_below_iff.mpr ⟨isAbove, different, found⟩
    rw [empty] at member
    cases member
  · intro none
    rw [List.eq_nil_iff_forall_not_mem]
    intro entry member
    obtain ⟨isAbove, different, found⟩ := tree.mem_below_iff.mp member
    rw [none entry.1 isAbove different] at found
    cases found

/-- Nothing stands below what is no directory. -/
theorem below_eq_nil (tree : system.IsTree) (noDirectory : system.entry? place ≠ some .directory) :
    system.below place = [] :=
  tree.below_eq_nil_iff.mpr fun _ isAbove different =>
    tree.none_below noDirectory isAbove different.symm

/-!
## Changes
-/

theorem put (tree : system.IsTree) (deep : place ≠ [])
    (steps : ∀ name ∈ place, FileSystem.isStep name = true)
    (parent : system.entry? place.dropLast = some .directory)
    (noDirectory : system.entry? place ≠ some .directory) : (system.put place entry).IsTree where
  nodup := by
    rw [FileSystem.put, List.map_cons, List.nodup_cons]
    constructor
    · intro member
      obtain ⟨former, kept, same⟩ := List.mem_map.mp member
      simpa [same] using (List.mem_filter.mp kept).2
    · exact tree.nodup.sublist (List.filter_sublist.map _)
  steps := by
    intro former member
    rcases List.mem_cons.mp member with rfl | kept
    · exact ⟨deep, steps⟩
    · exact tree.steps former (List.mem_filter.mp kept).1
  parents := by
    intro former member
    have up : ∀ other, system.entry? other = some .directory →
        FileSystem.entry? (system.put place entry) other = some .directory := by
      intro other directory
      have different : other ≠ place := by
        intro same
        subst same
        exact noDirectory directory
      rw [entry?_put_of_ne _ _ different, directory]
    rcases List.mem_cons.mp member with rfl | kept
    · exact up _ parent
    · exact up _ (tree.parents former (List.mem_filter.mp kept).1)

theorem put_of_locate (tree : system.IsTree) {path : Path}
    (located : system.locate path = .ok place)
    (noDirectory : system.entry? place ≠ some .directory) : (system.put place entry).IsTree := by
  have followed := follow_of_locate located
  have deep : place ≠ [] := by
    intro none
    subst none
    exact noDirectory (entry?_nil system)
  refine tree.put deep (isStep_of_follow (List.forall_mem_nil _) followed) ?_ noDirectory
  exact isDirectory_of_follow followed (List.dropLast_prefix place) (dropLast_ne deep)

theorem drop (tree : system.IsTree) (empty : system.below place = []) :
    (system.drop place).IsTree where
  nodup := tree.nodup.sublist (List.filter_sublist.map _)
  steps := fun former member => tree.steps former (List.mem_filter.mp member).1
  parents := by
    intro former member
    obtain ⟨inside, _⟩ := List.mem_filter.mp member
    have deep := (tree.steps former inside).1
    have stands := (mem_entries_iff tree.nodup deep).mp inside
    have different : former.1.dropLast ≠ place := by
      intro same
      have none := tree.below_eq_nil_iff.mp empty former.1 (same ▸ List.dropLast_prefix former.1)
        fun equal => dropLast_ne deep (same.trans equal.symm)
      rw [none] at stands
      cases stands
    rw [entry?_drop_of_ne different]
    exact tree.parents former inside

/-- Where an entry stands behind a move. -/
private def moved (source target place : Path) : Path :=
  if source <+: place then target ++ place.drop source.length else place

private theorem mem_move_iff {source target : Path} {entry : Path × Entry} :
    entry ∈ (system.move source target).entries ↔
      ∃ former ∈ system.entries, (source <+: former.1 ∨ former.1 ≠ target) ∧
        entry = (moved source target former.1, former.2) := by
  simp only [FileSystem.move, List.mem_append, List.mem_map, List.mem_filter, Bool.and_eq_true,
    bne_iff_ne, ne_eq, Bool.not_eq_true', ← Bool.not_eq_true, List.isPrefixOf_iff_prefix]
  constructor
  · intro given
    rcases given with ⟨member, different, outside⟩ | ⟨former, ⟨member, inside⟩, rfl⟩
    · exact ⟨entry, member, .inr different, by rw [moved, if_neg outside]⟩
    · exact ⟨former, member, .inl inside, by rw [moved, if_pos inside]⟩
  · intro given
    obtain ⟨former, member, kept, rfl⟩ := given
    by_cases inside : source <+: former.1
    · exact .inr ⟨former, ⟨member, inside⟩, by rw [moved, if_pos inside]⟩
    · rw [moved, if_neg inside]
      exact .inl ⟨member, kept.resolve_left inside, inside⟩

/-- A part of a tree that is moved to a place where nothing stands, or no more than one entry that
it replaces, leaves a tree. -/
theorem move (tree : system.IsTree) {source target : Path} (deep : target ≠ [])
    (sourceDeep : source ≠ []) (steps : ∀ name ∈ target, FileSystem.isStep name = true)
    (parent : system.entry? target.dropLast = some .directory)
    (empty : system.below target = []) (apart : ¬source <+: target) :
    (system.move source target).IsTree := by
  have free : ∀ entry ∈ system.entries, entry.1 ≠ target → ¬target <+: entry.1 := by
    intro entry member different isAbove
    have stands := (mem_entries_iff tree.nodup (tree.steps entry member).1).mp member
    rw [tree.below_eq_nil_iff.mp empty entry.1 isAbove different] at stands
    cases stands
  have nodup : ((system.move source target).entries.map Prod.fst).Nodup := by
    rw [FileSystem.move, List.map_append, List.map_map]
    refine List.Nodup.append (tree.nodup.sublist (List.filter_sublist.map _)) ?_ ?_
    · refine List.Nodup.map_on ?_ (List.Nodup.of_map _ tree.nodup |>.filter _)
      intro left leftMoves right rightMoves same
      obtain ⟨leftMember, leftInside⟩ := List.mem_filter.mp leftMoves
      obtain ⟨rightMember, rightInside⟩ := List.mem_filter.mp rightMoves
      obtain ⟨leftRest, leftSplit⟩ := List.isPrefixOf_iff_prefix.mp leftInside
      obtain ⟨rightRest, rightSplit⟩ := List.isPrefixOf_iff_prefix.mp rightInside
      have rests : leftRest = rightRest := by
        simpa [← leftSplit, ← rightSplit] using same
      refine List.inj_on_of_nodup_map tree.nodup leftMember rightMember ?_
      rw [← leftSplit, ← rightSplit, rests]
    · intro stays staying moving
      obtain ⟨former, kept, rfl⟩ := List.mem_map.mp staying
      obtain ⟨mover, _, same⟩ := List.mem_map.mp moving
      obtain ⟨member, stays⟩ := List.mem_filter.mp kept
      simp only [Bool.and_eq_true, bne_iff_ne, ne_eq] at stays
      exact free former member stays.1 (same ▸ List.prefix_append _ _)
  have up : ∀ place, system.entry? place = some .directory → (source <+: place ∨ place ≠ target) →
      FileSystem.entry? (system.move source target) (moved source target place) =
        some .directory := by
    intro place directory kept
    by_cases top : place = []
    · subst top
      rw [moved, if_neg (fun inside => sourceDeep (List.prefix_nil.mp inside)), entry?_nil]
    · have member := mem_move_iff.mpr
        ⟨(place, .directory), (mem_entries_iff tree.nodup top).mpr directory, kept, rfl⟩
      refine (mem_entries_iff nodup ?_).mp member
      rw [moved]
      split
      · exact List.append_ne_nil_of_left_ne_nil deep _
      · exact top
  refine ⟨nodup, ?_, ?_⟩
  · intro entry member
    obtain ⟨former, inside, _, rfl⟩ := mem_move_iff.mp member
    obtain ⟨formerDeep, formerSteps⟩ := tree.steps former inside
    simp only [moved]
    split
    · refine ⟨List.append_ne_nil_of_left_ne_nil deep _, fun name named => ?_⟩
      rcases List.mem_append.mp named with front | back
      · exact steps name front
      · exact formerSteps name (List.mem_of_mem_drop back)
    · exact ⟨formerDeep, formerSteps⟩
  · intro entry member
    obtain ⟨former, inside, kept, rfl⟩ := mem_move_iff.mp member
    have formerDeep := (tree.steps former inside).1
    have directory := tree.parents former inside
    by_cases within : source <+: former.1
    · obtain ⟨rest, split⟩ := within
      cases rest using List.reverseRecOn with
      | nil =>
          have here := up target.dropLast parent (.inr (dropLast_ne deep))
          rw [moved, if_neg fun above => apart (above.trans (List.dropLast_prefix _))] at here
          rw [List.append_nil] at split
          simpa [moved, ← split] using here
      | append_singleton front name =>
          rw [← split, ← List.append_assoc, List.dropLast_concat] at directory
          have here := up (source ++ front) directory (.inl (List.prefix_append _ _))
          rw [moved, if_pos (List.prefix_append _ _), List.drop_left] at here
          rw [moved, if_pos (split ▸ List.prefix_append _ _), ← split, List.drop_left,
            ← List.append_assoc, List.dropLast_concat, here]
    · have different : former.1.dropLast ≠ target := by
        intro same
        have above : target <+: former.1 := same ▸ List.dropLast_prefix _
        refine free former inside ?_ above
        exact kept.resolve_left within
      have here := up former.1.dropLast directory (.inr different)
      rw [moved, if_neg fun above => within (above.trans (List.dropLast_prefix _))] at here
      rw [moved, if_neg within, here]

theorem below_eq_nil_of_replaceable (tree : system.IsTree) {target : Path}
    (replaceable : system.checkReplaceable entry target = .ok ()) : system.below target = [] := by
  by_cases directory : system.entry? target = some .directory
  · cases entry with
    | file content =>
        simp only [checkReplaceable, directory] at replaceable
        cases replaceable
    | directory =>
        simp only [checkReplaceable, directory] at replaceable
        split at replaceable
        next empty => exact List.isEmpty_iff.mp empty
        next => cases replaceable
  · exact tree.below_eq_nil directory

theorem rename (tree : system.IsTree) {source target : Path} {path : Path}
    (located : system.locate path = .ok target)
    (renamed : system.rename source target = .ok later) : later.IsTree := by
  cases stands : system.entry? source with
  | none =>
      simp only [FileSystem.rename, stands] at renamed
      cases renamed
  | some entry =>
      simp only [FileSystem.rename, stands] at renamed
      split at renamed
      · cases renamed
      next notInside =>
      split at renamed
      · cases renamed
      next notAbove =>
      split at renamed
      · cases renamed
        exact tree
      next different =>
      obtain ⟨_, replaceable, same⟩ := exists_of_bind_eq_ok renamed
      cases same
      rw [isBelow_iff] at notInside notAbove
      have apart : ¬source <+: target := fun above =>
        notInside ⟨above, fun same => different same.symm⟩
      have sourceDeep : source ≠ [] := fun top => apart (top ▸ List.nil_prefix)
      have deep : target ≠ [] := fun top => notAbove ⟨top ▸ List.nil_prefix, different⟩
      have followed := follow_of_locate located
      exact tree.move deep sourceDeep (isStep_of_follow (List.forall_mem_nil _) followed)
        (isDirectory_of_follow followed (List.dropLast_prefix _) (dropLast_ne deep))
        (tree.below_eq_nil_of_replaceable replaceable) apart

/-- Every change of a tree leaves a tree. -/
theorem change (tree : system.IsTree) {change : Change}
    (changed : system.change change = .ok later) : later.IsTree := by
  have overwritten : ∀ {path : Path} {place : Path} {content former : Content},
      system.openFile path = .ok (place, former) →
      (system.put place (.file content)).IsTree := by
    intro path place content former opened
    have file := hasFile_of_openFile opened
    exact tree.put_of_locate file.located (by rw [file.stands]; nofun)
  cases change with
  | makeDirectory path =>
      obtain ⟨place, located, vacant, rfl⟩ := put_of_change_makeDirectory changed
      exact tree.put_of_locate located (by rw [vacant]; nofun)
  | makeFile path =>
      obtain ⟨place, located, vacant, rfl⟩ := put_of_change_makeFile changed
      exact tree.put_of_locate located (by rw [vacant]; nofun)
  | empty path =>
      obtain ⟨place, located, noDirectory, rfl⟩ := put_of_change_empty changed
      exact tree.put_of_locate located noDirectory
  | append path bytes =>
      obtain ⟨_, opened, same⟩ := exists_of_bind_eq_ok changed
      cases same
      exact overwritten opened
  | overwrite path offset bytes =>
      obtain ⟨_, opened, same⟩ := exists_of_bind_eq_ok changed
      cases same
      exact overwritten opened
  | resize path size =>
      obtain ⟨_, opened, same⟩ := exists_of_bind_eq_ok changed
      cases same
      exact overwritten opened
  | rename source target =>
      obtain ⟨_, _, onward⟩ := exists_of_bind_eq_ok changed
      obtain ⟨_, located, renamed⟩ := exists_of_bind_eq_ok onward
      exact tree.rename located renamed
  | removeFile path =>
      obtain ⟨_, opened, same⟩ := exists_of_bind_eq_ok changed
      cases same
      have file := hasFile_of_openFile opened
      exact tree.drop (tree.below_eq_nil (by rw [file.stands]; nofun))
  | removeDirectory path =>
      obtain ⟨place, opened, removed⟩ := exists_of_bind_eq_ok changed
      split at removed
      next empty =>
        cases removed
        exact tree.drop (List.isEmpty_iff.mp empty)
      next => cases removed

end IsTree

end FileSystem

end GraphStore
