import GraphStore.Disk.FileSystem

/-!
# Changes of a file system

What a single change leaves as it was. A path is followed through directories that stand in
directories, so that it still leads to the same place after every change that keeps these.
-/

set_option autoImplicit false

namespace GraphStore

namespace FileSystem

variable {system later : FileSystem} {place other : Path}

/-!
## Entries
-/

@[simp] theorem entry?_nil (system : FileSystem) : system.entry? [] = some .directory := rfl

theorem entry?_of_ne_nil (system : FileSystem) (deep : place ≠ []) :
    system.entry? place = (system.entries.find? (·.1 == place)).map Prod.snd := by
  have : place.isEmpty = false := by simpa using deep
  unfold entry?
  rw [if_neg (by simp [this])]

theorem entry?_put_self (system : FileSystem) (entry : Entry) (deep : place ≠ []) :
    FileSystem.entry? (system.put place entry) place = some entry := by
  rw [entry?_of_ne_nil _ deep, put]
  simp

private theorem find?_filter_ne (entries : List (Path × Entry)) (different : other ≠ place) :
    (entries.filter (·.1 != place)).find? (·.1 == other) = entries.find? (·.1 == other) := by
  rw [List.find?_filter]
  congr 1
  funext entry
  by_cases same : entry.1 = other
  · simp [same, different]
  · simp [same]

theorem entry?_put_of_ne (system : FileSystem) (entry : Entry) (different : other ≠ place) :
    FileSystem.entry? (system.put place entry) other = system.entry? other := by
  by_cases deep : other = []
  · rw [deep, entry?_nil, entry?_nil]
  · have passed : (place == other) = false := by simpa using different.symm
    rw [entry?_of_ne_nil _ deep, entry?_of_ne_nil _ deep, put, List.find?_cons, passed]
    simp only [find?_filter_ne system.entries different]

/-- What stands neither below the former place nor below the new one is not moved. -/
theorem entry?_move_of_outside (system : FileSystem) {source target : Path}
    (outside : ¬source <+: place) (apart : ¬target <+: place) :
    FileSystem.entry? (system.move source target) place = system.entry? place := by
  by_cases deep : place = []
  · rw [deep, entry?_nil, entry?_nil]
  rw [entry?_of_ne_nil _ deep, entry?_of_ne_nil _ deep, move]
  simp only
  have unmoved : ((system.entries.filter fun entry => source.isPrefixOf entry.1).map
      fun entry => (target ++ entry.1.drop source.length, entry.2)).find? (·.1 == place) = none := by
    rw [List.find?_eq_none]
    intro moved member same
    obtain ⟨entry, -, rfl⟩ := List.mem_map.mp member
    have equal : target ++ entry.1.drop source.length = place := by simpa using same
    exact apart (equal ▸ List.prefix_append _ _)
  rw [List.find?_append, unmoved, Option.or_none, List.find?_filter]
  congr 2
  funext entry
  by_cases same : entry.1 = place
  · have notTarget : place ≠ target := fun equal => apart (equal ▸ List.prefix_refl _)
    have noPrefix : source.isPrefixOf place = false := by
      rwa [Bool.eq_false_iff, ne_eq, List.isPrefixOf_iff_prefix]
    simp [same, notTarget, noPrefix]
  · simp [same]

theorem entry?_move_target {source target : Path} {entry : Entry} (deep : source ≠ [])
    (targetDeep : target ≠ []) (stands : system.entry? source = some entry) :
    FileSystem.entry? (system.move source target) target = some entry := by
  rw [entry?_of_ne_nil _ deep] at stands
  rw [entry?_of_ne_nil _ targetDeep, move]
  simp only
  have cleared : (system.entries.filter fun entry => entry.1 != target && !source.isPrefixOf entry.1
      ).find? (·.1 == target) = none := by
    rw [List.find?_eq_none]
    intro kept member same
    have different := (List.mem_filter.mp member).2
    simp only [Bool.and_eq_true, bne_iff_ne, ne_eq] at different
    exact different.1 (by simpa using same)
  rw [List.find?_append, cleared, Option.none_or, List.find?_map, List.find?_filter, Option.map_map]
  change Option.map Prod.snd _ = _
  rw [← stands]
  congr 2
  funext entry
  simp only [List.isPrefixOf_iff_prefix]
  by_cases under : source <+: entry.1
  · obtain ⟨rest, same⟩ := under
    rw [Bool.eq_iff_iff]
    simp [← same]
  · have different : entry.1 ≠ source := fun same => under (same ▸ List.prefix_refl _)
    simp [under, different]

theorem ne_nil_of_entry?_eq_file {content : Content}
    (stands : system.entry? place = some (.file content)) : place ≠ [] := by
  intro same
  subst same
  rw [entry?_nil] at stands
  cases stands

theorem ne_nil_of_entry?_eq_none (vacant : system.entry? place = none) : place ≠ [] := by
  intro same
  subst same
  rw [entry?_nil] at vacant
  cases vacant

/-!
## Directories in directories
-/

/-- Whether there are directories at a place and at all places above it. -/
def Solid (system : FileSystem) (place : Path) : Prop :=
  ∀ above, above <+: place → system.entry? above = some .directory

theorem Solid.isDirectory (solid : system.Solid place) : system.entry? place = some .directory :=
  solid place (List.prefix_refl place)

/-- Whether all directories in directories are still there later. -/
def Keeps (system later : FileSystem) : Prop := ∀ place, system.Solid place → later.Solid place

theorem Keeps.refl (system : FileSystem) : system.Keeps system := fun _ solid => solid

theorem Keeps.trans {last : FileSystem} (first : system.Keeps later) (second : later.Keeps last) :
    system.Keeps last :=
  fun place solid => second place (first place solid)

theorem keeps_of_entry? (same : ∀ place, system.entry? place = some .directory →
    later.entry? place = some .directory) : system.Keeps later :=
  fun _ solid above isAbove => same above (solid above isAbove)

theorem keeps_put (entry : Entry) (noDirectory : system.entry? place ≠ some .directory) :
    system.Keeps (system.put place entry) := by
  apply keeps_of_entry?
  intro other directory
  have different : other ≠ place := by
    intro same
    subst same
    exact noDirectory directory
  rw [entry?_put_of_ne system entry different, directory]

/-!
## Following paths
-/

/-- The directories above a place that has been reached. -/
private def Reached (system : FileSystem) (reached : Path) : Prop :=
  ∀ above, above <+: reached → above ≠ reached → system.entry? above = some .directory

private theorem Reached.solid {reached : Path} (isReached : Reached system reached)
    (directory : system.entry? reached = some .directory) : system.Solid reached := by
  intro above isAbove
  by_cases same : above = reached
  · rw [same, directory]
  · exact isReached above isAbove same

private theorem reached_child {reached : Path} (solid : system.Solid reached) (name : String) :
    Reached system (reached ++ [name]) := by
  intro above isAbove different
  rcases List.prefix_concat_iff.mp isAbove with same | isAbove
  · exact absurd same different
  · exact solid above isAbove

private theorem reached_dropLast {reached : Path} (solid : system.Solid reached) :
    Reached system reached.dropLast :=
  fun above isAbove _ => solid above (isAbove.trans (List.dropLast_prefix reached))

private theorem follow_cons {reached : Path} {name : String} {rest : List String}
    (directory : system.entry? reached = some .directory) :
    system.follow reached (name :: rest) =
      if name = "" || name = "." then system.follow reached rest
      else if name = ".." then system.follow reached.dropLast rest
      else if nameLimit < name.utf8ByteSize then .error .nameTooLong
      else system.follow (reached ++ [name]) rest := by
  rw [follow, directory]

private theorem directory_of_follow_cons {reached : Path} {name : String} {rest : List String}
    (found : system.follow reached (name :: rest) = .ok place) :
    system.entry? reached = some .directory := by
  rw [follow] at found
  split at found
  · cases found
  · cases found
  next directory => exact directory

private theorem follow_of_keeps (kept : system.Keeps later) {reached : Path} {names : List String}
    (isReached : Reached system reached) (found : system.follow reached names = .ok place) :
    later.follow reached names = .ok place := by
  induction names generalizing reached with
  | nil => exact found
  | cons name rest ih =>
      have directory := directory_of_follow_cons found
      have solid := isReached.solid directory
      rw [follow_cons directory] at found
      rw [follow_cons (kept reached solid).isDirectory]
      split
      next stays =>
        rw [if_pos stays] at found
        exact ih isReached found
      next moves =>
        rw [if_neg moves] at found
        split
        next back =>
          rw [if_pos back] at found
          exact ih (reached_dropLast solid) found
        next down =>
          rw [if_neg down] at found
          split
          next long => rw [if_pos long] at found; cases found
          next short =>
            rw [if_neg short] at found
            exact ih (reached_child solid name) found

private theorem reached_nil (system : FileSystem) : Reached system [] :=
  fun _ isAbove different => absurd (List.prefix_nil.mp isAbove) different

theorem locate_of_keeps {path : Path} (kept : system.Keeps later)
    (found : system.locate path = .ok place) : later.locate path = .ok place := by
  rw [locate] at found ⊢
  split
  next zero => rw [if_pos zero] at found; cases found
  next clean =>
    rw [if_neg clean] at found
    split
    next long => rw [if_pos long] at found; cases found
    next short =>
      rw [if_neg short] at found
      exact follow_of_keeps kept (reached_nil system) found

theorem follow_append (reached : Path) (front back : List String) :
    system.follow reached (front ++ back) =
      (system.follow reached front).bind (system.follow · back) := by
  induction front generalizing reached with
  | nil => rfl
  | cons name front ih =>
      rw [List.cons_append, follow, follow]
      cases stands : system.entry? reached with
      | none => rfl
      | some entry =>
          cases entry with
          | file content => rfl
          | directory =>
              simp only
              split
              · exact ih reached
              · split
                · exact ih reached.dropLast
                · split
                  · rfl
                  · exact ih (reached ++ [name])

private theorem reached_of_follow {reached : Path} {names : List String}
    (isReached : Reached system reached) (found : system.follow reached names = .ok place) :
    Reached system place := by
  induction names generalizing reached with
  | nil => exact Except.ok.inj found ▸ isReached
  | cons name rest ih =>
      have directory := directory_of_follow_cons found
      have solid := isReached.solid directory
      rw [follow_cons directory] at found
      split at found
      · exact ih isReached found
      · split at found
        · exact ih (reached_dropLast solid) found
        · split at found
          · cases found
          · exact ih (reached_child solid name) found

theorem solid_of_follow {names : List String} (found : system.follow [] names = .ok place)
    (directory : system.entry? place = some .directory) : system.Solid place :=
  (reached_of_follow (reached_nil system) found).solid directory

theorem isDirectory_of_follow {names : List String} {above : Path}
    (found : system.follow [] names = .ok place) (isAbove : above <+: place)
    (different : above ≠ place) : system.entry? above = some .directory :=
  reached_of_follow (reached_nil system) found above isAbove different

/-- Where a path leads does not depend on the file system, as long as it leads somewhere. -/
theorem eq_of_follow {elsewhere reached : Path} {names : List String}
    (found : system.follow reached names = .ok place)
    (again : later.follow reached names = .ok elsewhere) : place = elsewhere := by
  induction names generalizing reached with
  | nil => exact Except.ok.inj (found.symm.trans again)
  | cons name rest ih =>
      rw [follow_cons (directory_of_follow_cons found)] at found
      rw [follow_cons (directory_of_follow_cons again)] at again
      split at found
      next stays =>
        rw [if_pos stays] at again
        exact ih found again
      next moves =>
        rw [if_neg moves] at again
        split at found
        next back =>
          rw [if_pos back] at again
          exact ih found again
        next down =>
          rw [if_neg down] at again
          split at found
          · cases found
          next short =>
            rw [if_neg short] at again
            exact ih found again

theorem isStep_of_follow {reached : Path} {names : List String}
    (steps : ∀ name ∈ reached, isStep name = true)
    (found : system.follow reached names = .ok place) : ∀ name ∈ place, isStep name = true := by
  induction names generalizing reached with
  | nil => exact Except.ok.inj found ▸ steps
  | cons name rest ih =>
      rw [follow_cons (directory_of_follow_cons found)] at found
      split at found
      · exact ih steps found
      next moves =>
        split at found
        · exact ih (fun other member => steps other (List.dropLast_subset _ member)) found
        next down =>
          split at found
          · cases found
          next short =>
            refine ih ?_ found
            intro other member
            rcases List.mem_append.mp member with former | new
            · exact steps other former
            · obtain rfl := List.mem_singleton.mp new
              simp only [Bool.or_eq_true, decide_eq_true_eq, not_or] at moves
              simp [isStep, moves, down, Nat.le_of_not_lt short]

/-- A place is spelled with names of the path that leads to it. -/
theorem sublist_of_follow {reached : Path} {names : List String}
    (found : system.follow reached names = .ok place) : place.Sublist (reached ++ names) := by
  induction names generalizing reached with
  | nil =>
      rw [List.append_nil]
      exact Except.ok.inj found ▸ List.Sublist.refl _
  | cons name rest ih =>
      rw [follow_cons (directory_of_follow_cons found)] at found
      have shorter : (reached ++ rest).Sublist (reached ++ name :: rest) :=
        (List.sublist_cons_self name rest).append_left reached
      split at found
      · exact (ih found).trans shorter
      · split at found
        · have back := (List.dropLast_sublist reached).append_right rest
          exact (ih found).trans (back.trans shorter)
        · split at found
          · cases found
          · have onward := ih found
            rwa [List.append_assoc, List.singleton_append] at onward

/-!
## Files at the end of a path
-/

theorem resolve_eq {path : Path} {entry : Entry} (located : system.locate path = .ok place)
    (stands : system.entry? place = some entry) : system.resolve path = .ok (place, entry) := by
  simp only [resolve, located, bind, Except.bind, stands]
  rfl

/-- Whether a path leads to a place at which a file stands. -/
structure HasFile (system : FileSystem) (path place : Path) (content : Content) : Prop where
  located : system.locate path = .ok place
  stands : system.entry? place = some (.file content)

namespace HasFile

variable {path : Path} {content : Content}

theorem resolve_eq (file : system.HasFile path place content) :
    system.resolve path = .ok (place, .file content) :=
  FileSystem.resolve_eq file.located file.stands

theorem openFile_eq (file : system.HasFile path place content) :
    system.openFile path = .ok (place, content) := by
  rw [openFile, file.resolve_eq]
  rfl

theorem change_append (file : system.HasFile path place content) (bytes : List UInt8) :
    system.change (.append path bytes) =
      .ok (system.put place (.file (content.append bytes))) := by
  rw [change, file.openFile_eq]
  rfl

theorem change_overwrite (file : system.HasFile path place content) (offset : Nat)
    (bytes : List UInt8) :
    system.change (.overwrite path offset bytes) =
      .ok (system.put place (.file (content.overwrite offset bytes))) := by
  rw [change, file.openFile_eq]
  rfl

theorem keeps_put (file : system.HasFile path place content) (entry : Entry) :
    system.Keeps (system.put place entry) := by
  apply FileSystem.keeps_put
  rw [file.stands]
  intro same
  cases same

theorem put_self (file : system.HasFile path place content) (changed : Content) :
    (system.put place (.file changed)).HasFile path place changed where
  located := locate_of_keeps (file.keeps_put _) file.located
  stands := entry?_put_self system _ (ne_nil_of_entry?_eq_file file.stands)

theorem put_of_ne {otherPath : Path} {otherContent : Content}
    (file : system.HasFile path place content)
    (otherFile : system.HasFile otherPath other otherContent) (different : place ≠ other)
    (changed : Content) :
    (system.put other (.file changed)).HasFile path place content where
  located := locate_of_keeps (otherFile.keeps_put _) file.located
  stands := by rw [entry?_put_of_ne system _ different, file.stands]

end HasFile

end FileSystem

end GraphStore
