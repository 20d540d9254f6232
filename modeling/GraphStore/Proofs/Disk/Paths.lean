import GraphStore.Proofs.Disk.Tree
import Mathlib

/-!
# Where paths lead

A path that leads to a place leads to no other one in any file system, so that the place is known
before it is reached. Names that lead down are their own way.
-/

set_option autoImplicit false

namespace GraphStore

open FileSystem

/-- Whether a path leads to a place wherever it leads anywhere. -/
def Path.LeadsTo (path place : Path) : Prop :=
  ∀ (system : FileSystem) (elsewhere : Path), system.follow [] path = .ok elsewhere →
    elsewhere = place

variable {system later : FileSystem} {path place base : Path} {name : String}

theorem leadsTo_of_follow (found : system.follow [] path = .ok place) : path.LeadsTo place :=
  fun _ _ again => eq_of_follow again found

theorem leadsTo_of_locate (located : system.locate path = .ok place) : path.LeadsTo place :=
  leadsTo_of_follow (follow_of_locate located)

theorem Path.LeadsTo.eq_of_locate (leads : path.LeadsTo place)
    (located : system.locate path = .ok base) : base = place :=
  leads system base (follow_of_locate located)

theorem Path.LeadsTo.child (leads : path.LeadsTo base) (step : isStep name = true) :
    (path.child name).LeadsTo (base ++ [name]) := by
  intro other elsewhere found
  obtain ⟨reached, followed, _, rfl⟩ := exists_follow_of_child found step
  rw [leads other reached followed]

theorem eq_append_of_follow {reached names : Path} (steps : ∀ name ∈ names, isStep name = true)
    (found : system.follow reached names = .ok place) : place = reached ++ names := by
  induction names generalizing reached with
  | nil =>
      rw [List.append_nil]
      exact (Except.ok.inj found).symm
  | cons name rest ih =>
      obtain ⟨step, others⟩ := List.forall_mem_cons.mp steps
      have split : system.follow reached ([name] ++ rest) =
          (system.follow reached [name]).bind (system.follow · rest) :=
        follow_append reached [name] rest
      rw [List.singleton_append, found] at split
      obtain ⟨middle, first, onward⟩ := exists_of_bind_eq_ok split.symm
      obtain ⟨_, rfl⟩ := follow_step first step
      rw [ih others onward, List.append_assoc, List.singleton_append]

theorem leadsTo_self (steps : ∀ name ∈ place, isStep name = true) : place.LeadsTo place := by
  intro other elsewhere found
  rw [eq_append_of_follow steps found, List.nil_append]

/-!
## Paths that are found
-/

/-- A name in a directory is looked up where the path of the directory leads. -/
theorem follow_child_eq (found : system.follow [] path = .ok base) :
    system.follow [] (path.child name) = system.follow base [name] := by
  rw [Path.child, follow_append]
  by_cases slash : path.getLast? = some ""
  · obtain ⟨names, rfl⟩ := List.getLast?_eq_some_iff.mp slash
    obtain ⟨reached, front, last⟩ := exists_of_followed_append found
    rw [follow] at last
    split at last
    · cases last
    · cases last
    · obtain rfl : reached = base := Except.ok.inj last
      rw [if_pos slash, List.dropLast_concat, front]
      rfl
  · rw [if_neg slash, found]
    rfl

theorem follow_child (found : system.follow [] path = .ok base)
    (directory : system.entry? base = some .directory) (step : isStep name = true) :
    system.follow [] (path.child name) = .ok (base ++ [name]) := by
  rw [follow_child_eq found]
  refine system.follow_eq_append base [name] (by simpa using step) fun depth inside => ?_
  obtain rfl : depth = 0 := by simpa using inside
  simpa using directory

/-- Whether the system takes a path, wherever it leads. -/
structure Path.IsAccepted (path : Path) : Prop where
  clean : ∀ name ∈ path, '\x00' ∉ name.toList
  short : path.text.utf8ByteSize < pathLimit

theorem locate_eq_follow (accepted : path.IsAccepted) :
    system.locate path = system.follow [] path := by
  have clean : ¬path.any (·.toList.contains '\x00') = true := by
    rw [List.any_eq_true]
    intro given
    obtain ⟨name, member, zero⟩ := given
    exact accepted.clean name member (by simpa using zero)
  rw [locate, if_neg clean, if_neg (Nat.not_le.mpr accepted.short)]

theorem isAccepted_of_locate (located : system.locate path = .ok place) : path.IsAccepted := by
  rw [locate] at located
  split at located
  · cases located
  next clean =>
    split at located
    · cases located
    next short =>
      refine ⟨fun name member zero => clean ?_, Nat.lt_of_not_le short⟩
      exact List.any_eq_true.mpr ⟨name, member, by simpa using zero⟩

private theorem size_text (path : Path) :
    path.text.utf8ByteSize = (path.map fun name => name.utf8ByteSize + 1).sum - 1 := by
  rw [Path.text]
  induction path with
  | nil => rfl
  | cons name rest ih =>
      cases rest with
      | nil => simp [String.intercalate_singleton]
      | cons next others =>
          rw [String.intercalate_cons_cons, String.utf8ByteSize_append, String.utf8ByteSize_append,
            ih]
          have slash : "/".utf8ByteSize = 1 := rfl
          simp only [List.map_cons, List.sum_cons, slash]
          omega

theorem Path.IsAccepted.sublist {other : Path} (accepted : path.IsAccepted)
    (sublist : other.Sublist path) : other.IsAccepted where
  clean name member := accepted.clean name (sublist.subset member)
  short := by
    have narrower : (other.map fun name => name.utf8ByteSize + 1).sum ≤
        (path.map fun name => name.utf8ByteSize + 1).sum :=
      (sublist.map _).sum_le_sum fun _ _ => Nat.zero_le _
    have short := accepted.short
    rw [size_text] at short ⊢
    omega

/-- A path is taken wherever one of a name behind it is. -/
theorem Path.IsAccepted.of_child (accepted : (path.child name).IsAccepted) : path.IsAccepted := by
  by_cases slash : path.getLast? = some ""
  · rw [Path.child, if_pos slash] at accepted
    obtain ⟨names, rfl⟩ := List.getLast?_eq_some_iff.mp slash
    rw [List.dropLast_concat] at accepted
    constructor
    · intro other member
      rcases List.mem_append.mp member with inside | last
      · exact accepted.clean other (List.mem_append_left _ inside)
      · rw [List.mem_singleton.mp last]
        decide
    · have short := accepted.short
      have blank : "".utf8ByteSize = 0 := rfl
      rw [size_text, List.map_append, List.sum_append, List.map_singleton, List.sum_singleton]
        at short ⊢
      omega
  · rw [Path.child, if_neg slash] at accepted
    exact accepted.sublist (List.sublist_append_left path [name])

/-- What is found behind a path is found in what the path leads to. -/
theorem exists_locate_of_child (child : system.locate (path.child name) = .ok place)
    (step : isStep name = true) : ∃ base, system.locate path = .ok base := by
  obtain ⟨base, followed, -, -⟩ := exists_follow_of_child (follow_of_locate child) step
  exact ⟨base, (locate_eq_follow (isAccepted_of_locate child).of_child).trans followed⟩

/-- What stands in a tree is found at the names of its place. -/
theorem FileSystem.IsTree.locate_place (tree : system.IsTree) (accepted : place.IsAccepted)
    (stands : system.entry? place ≠ none) : system.locate place = .ok place := by
  rw [locate_eq_follow accepted]
  refine system.follow_eq_append [] place (tree.isStep stands) fun depth inside => ?_
  rw [List.nil_append]
  refine tree.isDirectory_of_above stands (List.take_prefix depth place) fun same => ?_
  have length := congrArg List.length same
  rw [List.length_take] at length
  omega

theorem locate_child (located : system.locate path = .ok base)
    (directory : system.entry? base = some .directory) (accepted : (path.child name).IsAccepted)
    (step : isStep name = true) : system.locate (path.child name) = .ok (base ++ [name]) := by
  rw [locate_eq_follow accepted]
  exact follow_child (follow_of_locate located) directory step

/-!
## Paths in two file systems
-/

theorem follow_single_congr (same : later.entry? base = system.entry? base) :
    later.follow base [name] = system.follow base [name] := by
  rw [follow, follow, same]
  rfl

/-- Names without a way back are followed alike where the same stands above their place. -/
theorem follow_of_descending {reached names : Path} (down : ".." ∉ names)
    (found : system.follow reached names = .ok place)
    (same : ∀ above, above <+: place → later.entry? above = system.entry? above) :
    reached <+: place ∧ later.follow reached names = .ok place := by
  induction names generalizing reached with
  | nil =>
      obtain rfl := Except.ok.inj found
      exact ⟨List.prefix_refl _, rfl⟩
  | cons name rest ih =>
      rw [List.mem_cons, not_or] at down
      rw [follow] at found
      split at found
      · cases found
      · cases found
      next directory =>
      split at found
      next stays =>
        obtain ⟨isAbove, onward⟩ := ih down.2 found
        refine ⟨isAbove, ?_⟩
        rw [follow, same reached isAbove, directory]
        simp only [stays, ↓reduceIte]
        exact onward
      next moves =>
      rw [if_neg (Ne.symm down.1)] at found
      split at found
      · cases found
      next short =>
        obtain ⟨isAbove, onward⟩ := ih down.2 found
        have higher := (List.prefix_append reached [name]).trans isAbove
        refine ⟨higher, ?_⟩
        rw [follow, same reached higher, directory]
        simp only [moves, Ne.symm down.1, short, ↓reduceIte]
        exact onward

/-- A file in a directory in a directory is looked up alike where the same stands at both. -/
theorem locate_child_child_congr {file : String} (found : system.locate path = .ok base)
    (again : later.locate path = .ok base) (step : isStep name = true)
    (top : later.entry? base = system.entry? base)
    (inner : later.entry? (base ++ [name]) = system.entry? (base ++ [name])) :
    later.locate ((path.child name).child file) = system.locate ((path.child name).child file) := by
  have middle : later.follow [] (path.child name) = system.follow [] (path.child name) := by
    rw [follow_child_eq (follow_of_locate found), follow_child_eq (follow_of_locate again),
      follow_single_congr top]
  suffices same : later.follow [] ((path.child name).child file) =
      system.follow [] ((path.child name).child file) by
    rw [locate, locate, same]
  have noSlash : (path.child name).getLast? ≠ some "" := by
    rw [Path.getLast?_child]
    intro blank
    rw [Option.some.inj blank] at step
    revert step
    decide
  rw [Path.child_eq_append file noSlash, follow_append, follow_append, middle]
  cases reached : system.follow [] (path.child name) with
  | error reason => rfl
  | ok stop =>
      rw [follow_child_eq (follow_of_locate found)] at reached
      obtain ⟨-, rfl⟩ := follow_step reached step
      exact follow_single_congr inner

/-!
## Places in one directory
-/

theorem not_concat_isPrefix_self (place : Path) (name : String) : ¬place ++ [name] <+: place := by
  intro below
  have length := below.length_le
  simp at length

theorem concat_prefix_concat_iff {other : String} :
    place ++ [name] <+: place ++ [other] ↔ name = other := by
  rw [List.prefix_append_right_inj, List.cons_prefix_cons]
  exact and_iff_left (List.prefix_refl [])

/-!
## Files that are moved
-/

private theorem entry?_move_source {target : Path} (deep : place ≠ []) (apart : ¬target <+: place) :
    FileSystem.entry? (system.move place target) place = none := by
  rw [entry?_of_ne_nil _ deep, move, Option.map_eq_none_iff, List.find?_eq_none]
  intro entry member same
  have equal : entry.1 = place := by simpa using same
  rcases List.mem_append.mp member with stays | moves
  · have outside := (List.mem_filter.mp stays).2
    have here : place.isPrefixOf place = true :=
      List.isPrefixOf_iff_prefix.mpr (List.prefix_refl place)
    simp [equal, here] at outside
  · obtain ⟨former, _, rfl⟩ := List.mem_map.mp moves
    exact apart (equal ▸ List.prefix_append _ _)

/-- A file that is moved leaves its place and is found at the new one. -/
theorem FileSystem.entry?_of_change_rename {source target targetPlace : Path} {content : Content}
    (tree : system.IsTree) (sourceLeads : source.LeadsTo place)
    (targetLeads : target.LeadsTo targetPlace)
    (stands : system.entry? place = some (.file content)) (apart : ¬place <+: targetPlace)
    (changed : system.change (.rename source target) = .ok later) :
    later.entry? targetPlace = some (.file content) ∧ later.entry? place = none ∧
      ∀ other, other ≠ place → other ≠ targetPlace → later.entry? other = system.entry? other := by
  have laterTree := tree.change changed
  obtain ⟨origin, sourceLocated, rest⟩ := exists_of_bind_eq_ok changed
  obtain ⟨goal, targetLocated, renamed⟩ := exists_of_bind_eq_ok rest
  obtain rfl := sourceLeads.eq_of_locate sourceLocated
  obtain rfl := targetLeads.eq_of_locate targetLocated
  simp only [rename, stands] at renamed
  split at renamed
  · cases renamed
  split at renamed
  · cases renamed
  next notAbove =>
  split at renamed
  next same => exact absurd (same ▸ List.prefix_refl _) apart
  next different =>
  obtain ⟨_, replaceable, moved⟩ := exists_of_bind_eq_ok renamed
  cases moved
  have noDirectory : system.entry? goal ≠ some .directory := by
    intro directory
    simp only [checkReplaceable, directory] at replaceable
    cases replaceable
  have deep : goal ≠ [] := by
    intro top
    subst top
    exact noDirectory (entry?_nil system)
  have above : ¬goal <+: origin := fun isAbove => notAbove (isBelow_iff.mpr ⟨isAbove, different⟩)
  have there := entry?_move_target (ne_nil_of_entry?_eq_file stands) deep stands
  have gone : FileSystem.entry? (system.move origin goal) origin = none :=
    entry?_move_source (ne_nil_of_entry?_eq_file stands) above
  refine ⟨there, gone, fun other notSource notTarget => ?_⟩
  -- Nothing stands below a file, nor below a place that is free, so nothing moves along with it.
  by_cases belowSource : origin <+: other
  · rw [laterTree.none_below (by simp [gone]) belowSource (Ne.symm notSource),
      tree.none_below (by simp [stands]) belowSource (Ne.symm notSource)]
  by_cases belowTarget : goal <+: other
  · rw [laterTree.none_below (by simp [there]) belowTarget (Ne.symm notTarget),
      tree.none_below noDirectory belowTarget (Ne.symm notTarget)]
  exact entry?_move_of_outside system belowSource belowTarget

end GraphStore
