import GraphStore.Proofs.Disk.Trace
import GraphStore.Proofs.Success
import Mathlib.Data.List.TakeWhile

/-!
# Runs that succeed

What the success of work on a disk says about the file system before and behind it, for changes that
make directories and files and put one file in the place of another.
-/

set_option autoImplicit false

namespace GraphStore

/-!
## Parts of a run
-/

namespace Action

variable {α β : Type} {system last : FileSystem}

theorem exists_of_runOn_bind {action : Action α} {next : α → Action β} {result : β}
    (succeeded : (action >>= next).runOn system = (.ok result, last)) :
    ∃ value middle, action.runOn system = (.ok value, middle) ∧
      (next value).runOn middle = (.ok result, last) := by
  change (action.outcome >>= ExceptT.bindCont next).run system = _ at succeeded
  rw [Disk.run_bind] at succeeded
  cases given : action.outcome.run system with
  | mk outcome middle =>
      rw [given] at succeeded
      cases outcome with
      | error error => cases succeeded
      | ok value => exact ⟨value, middle, given, succeeded⟩

theorem runOn_bind_of_ok {action : Action α} (value : α) (middle : FileSystem)
    (succeeded : action.runOn system = (.ok value, middle)) (next : α → Action β) :
    (action >>= next).runOn system = (next value).runOn middle := by
  change (action.outcome >>= ExceptT.bindCont next).run system = _
  change action.outcome.run system = _ at succeeded
  rw [Disk.run_bind, succeeded]
  rfl

theorem runOn_bind_of_error {action : Action α} {error : Error}
    (failed : action.runOn system = (.error error, last)) (next : α → Action β) :
    (action >>= next).runOn system = (.error error, last) := by
  change (action.outcome >>= ExceptT.bindCont next).run system = _
  change action.outcome.run system = _ at failed
  rw [Disk.run_bind, failed]
  rfl

theorem runOn_map (action : Action α) (give : α → β) (system : FileSystem) :
    (do return give (← action) : Action β).runOn system =
      ((action.runOn system).1.map give, (action.runOn system).2) := by
  cases ran : action.runOn system with
  | mk outcome last =>
      cases outcome with
      | ok value =>
          rw [runOn_bind_of_ok value last ran]
          rfl
      | error error =>
          rw [runOn_bind_of_error ran]
          rfl

theorem runOn_bind_congr {action other : Action α}
    (same : action.runOn system = other.runOn system) (next : α → Action β) :
    (action >>= next).runOn system = (other >>= next).runOn system := by
  cases ran : action.runOn system with
  | mk outcome middle =>
      have ranOther := same.symm.trans ran
      cases outcome with
      | ok value => rw [runOn_bind_of_ok value middle ran, runOn_bind_of_ok value middle ranOther]
      | error error => rw [runOn_bind_of_error ran, runOn_bind_of_error ranOther]

theorem exists_of_runOn_of {result : Except Error α} {next : α → Action β} {value : β}
    (succeeded : (Action.of result >>= next).runOn system = (.ok value, last)) :
    ∃ given, result = .ok given ∧ (next given).runOn system = (.ok value, last) := by
  obtain ⟨given, middle, first, rest⟩ := exists_of_runOn_bind succeeded
  cases first
  exact ⟨given, rfl, rest⟩

/-- An action that succeeds with a handler succeeds by itself or is handled. -/
theorem runOn_or_of_runOn_tryCatch {action : Action α} {handler : Error → Action α} {value : α}
    (succeeded : (tryCatch action handler).runOn system = (.ok value, last)) :
    action.runOn system = (.ok value, last) ∨
      ∃ error middle, action.runOn system = (.error error, middle) ∧
        (handler error).runOn middle = (.ok value, last) := by
  change (action.outcome >>= _).run system = _ at succeeded
  rw [Disk.run_bind] at succeeded
  cases given : action.outcome.run system with
  | mk outcome middle =>
      rw [given] at succeeded
      cases outcome with
      | error error => exact .inr ⟨error, middle, given, succeeded⟩
      | ok same =>
          cases succeeded
          exact .inl given

theorem runOn_on {path : Path} {work : Disk (Except OsError α)} {value : α}
    (ran : work.run system = (.ok value, last)) :
    (Action.on path work).runOn system = (.ok value, last) := by
  change (work >>= _).run system = _
  rw [Disk.run_bind, ran]
  rfl

theorem runOn_on_of_error {path : Path} {work : Disk (Except OsError α)} {reason : OsError}
    (ran : work.run system = (.error reason, last)) :
    (Action.on path work).runOn system = (.error (.storeAccess path.text reason), last) := by
  change (work >>= _).run system = _
  rw [Disk.run_bind, ran]
  rfl

theorem run_of_runOn_on {path : Path} {work : Disk (Except OsError α)} {value : α}
    (succeeded : (Action.on path work).runOn system = (.ok value, last)) :
    work.run system = (.ok value, last) := by
  change (work >>= _).run system = _ at succeeded
  rw [Disk.run_bind] at succeeded
  cases given : work.run system with
  | mk outcome later =>
      rw [given] at succeeded
      cases outcome with
      | error cause => cases succeeded
      | ok same =>
          cases succeeded
          rfl

end Action

namespace Disk

theorem run_change {change : Change} {system later : FileSystem}
    (changed : system.change change = .ok later) :
    (Disk.change change).run system = (.ok (), later) := by
  rw [Disk.change, run, changed]
  rfl

theorem run_change_of_error {change : Change} {system : FileSystem} {reason : OsError}
    (refused : system.change change = .error reason) :
    (Disk.change change).run system = (.error reason, system) := by
  rw [Disk.change, run, refused]
  rfl

theorem change_of_run {change : Change} {system later : FileSystem}
    (succeeded : (Disk.change change).run system = (.ok (), later)) :
    system.change change = .ok later := by
  rw [Disk.change, run] at succeeded
  cases given : system.change change with
  | error refusal =>
      rw [given] at succeeded
      cases succeeded
  | ok changed =>
      rw [given] at succeeded
      cases succeeded
      rfl

end Disk

namespace FileSystem

variable {system later : FileSystem} {path place base : Path} {name : String}

/-!
## Paths of names in directories
-/

theorem follow_of_locate (located : system.locate path = .ok place) :
    system.follow [] path = .ok place := by
  unfold locate at located
  split at located
  · cases located
  · split at located
    · cases located
    · exact located

theorem locate_of_locateVacant (vacant : system.locateVacant path = .ok place) :
    system.locate path = .ok place ∧ system.entry? place = none := by
  obtain ⟨other, located, rest⟩ := exists_of_bind_eq_ok vacant
  cases stands : system.entry? other with
  | some entry =>
      rw [stands] at rest
      cases rest
  | none =>
      rw [stands] at rest
      cases rest
      exact ⟨located, stands⟩

theorem follow_step {reached : Path} (found : system.follow reached [name] = .ok place)
    (step : isStep name = true) :
    system.entry? reached = some .directory ∧ place = reached ++ [name] := by
  simp only [isStep, Bool.and_eq_true, bne_iff_ne, ne_eq, decide_eq_true_eq] at step
  obtain ⟨⟨⟨filled, oneDot⟩, twoDots⟩, short⟩ := step
  rw [follow] at found
  split at found
  · cases found
  · cases found
  next directory =>
    simp only [filled, oneDot, twoDots, decide_false, Bool.or_self, Bool.false_eq_true,
      ↓reduceIte, Nat.not_lt.mpr short] at found
    exact ⟨directory, (Except.ok.inj found).symm⟩

private theorem follow_blank {reached : Path} (count : Nat)
    (directory : system.entry? reached = some .directory) :
    system.follow reached (List.replicate count "") = .ok reached := by
  induction count with
  | zero => rfl
  | succ count ih =>
      rw [List.replicate_succ, follow, directory]
      exact ih

private theorem exists_blanks (path : Path) :
    ∃ count, path = path.trimmed ++ List.replicate count "" := by
  refine ⟨(path.reverse.takeWhile (· == "")).length, ?_⟩
  have blanks : path.reverse.takeWhile (· == "") =
      List.replicate (path.reverse.takeWhile (· == "")).length "" := by
    apply List.eq_replicate_of_mem
    intro name member
    simpa using List.mem_takeWhile_imp member
  have whole := congrArg List.reverse
    (List.takeWhile_append_dropWhile (p := (· == "")) (l := path.reverse))
  rw [List.reverse_append, List.reverse_reverse, blanks, List.reverse_replicate] at whole
  exact whole.symm

theorem exists_of_followed_append {front back : List String}
    (found : system.follow [] (front ++ back) = .ok place) :
    ∃ reached, system.follow [] front = .ok reached ∧ system.follow reached back = .ok place := by
  rw [follow_append] at found
  exact exists_of_bind_eq_ok found

/-- Whether a path is too long or holds a zero does not depend on the file system. -/
theorem locate_of_follow {other : FileSystem} {elsewhere : Path}
    (known : other.locate path = .ok elsewhere) (found : system.follow [] path = .ok place) :
    system.locate path = .ok place := by
  rw [locate] at known ⊢
  split at known
  · cases known
  next clean =>
    split at known
    · cases known
    next short => rw [if_neg clean, if_neg short, found]

theorem exists_follow_of_child (child : system.follow [] (path.child name) = .ok place)
    (step : isStep name = true) :
    ∃ base, system.follow [] path = .ok base ∧ system.Solid base ∧ place = base ++ [name] := by
  rw [Path.child] at child
  obtain ⟨base, front, last⟩ := exists_of_followed_append child
  obtain ⟨directory, same⟩ := follow_step last step
  refine ⟨base, ?_, solid_of_follow front directory, same⟩
  by_cases slash : path.getLast? = some ""
  · rw [if_pos slash] at front
    obtain ⟨names, rfl⟩ := List.getLast?_eq_some_iff.mp slash
    rw [List.dropLast_concat] at front
    rw [follow_append, front]
    exact follow_blank 1 directory
  · rw [if_neg slash] at front
    exact front

theorem exists_directory_of_child {other : FileSystem} {elsewhere : Path}
    (known : other.locate path = .ok elsewhere)
    (child : system.locate (path.child name) = .ok place) (step : isStep name = true) :
    ∃ base, system.locate path = .ok base ∧ system.Solid base ∧ place = base ++ [name] := by
  obtain ⟨base, followed, solid, same⟩ := exists_follow_of_child (follow_of_locate child) step
  exact ⟨base, locate_of_follow known followed, solid, same⟩

theorem eq_append_of_child (located : system.locate path = .ok base)
    (child : system.locate (path.child name) = .ok place) (step : isStep name = true) :
    place = base ++ [name] := by
  obtain ⟨again, locatedAgain, -, same⟩ := exists_directory_of_child located child step
  rw [same, Except.ok.inj (located.symm.trans locatedAgain)]

/-- What a path to a name leads to has this name. -/
theorem getLast?_of_child (child : system.locate (path.child name) = .ok place)
    (step : isStep name = true) : place.getLast? = some name := by
  obtain ⟨base, -, -, rfl⟩ := exists_follow_of_child (follow_of_locate child) step
  exact List.getLast?_concat

theorem locate_of_present (stands : ((Disk.present path).run system).1 = .ok true) :
    ∃ place, system.locate path = .ok place := by
  cases resolved : system.resolve path with
  | ok found =>
      obtain ⟨place, located, -⟩ := exists_of_bind_eq_ok resolved
      exact ⟨place, located⟩
  | error reason =>
      have answer : (Question.entry path).answer system = .error reason := by
        rw [Question.answer, resolved]
        rfl
      have asked : (Disk.isDirectory path).run system = (.error reason, system) :=
        congrArg (·, system) answer
      rw [Disk.present, Disk.run_bind, asked] at stands
      by_cases missing : reason = .noEntry
      · simp only [missing, ↓reduceIte] at stands
        cases stands
      · simp only [missing, ↓reduceIte] at stands
        cases stands

theorem change_makeDirectory_of_solid (located : system.locate path = .ok base)
    (directory : system.entry? base = some .directory) :
    ∃ refusal, system.change (.makeDirectory path) = .error refusal ∧ refusal ≠ .noEntry := by
  obtain ⟨count, blanks⟩ := exists_blanks path
  have found := follow_of_locate located
  rw [blanks] at found
  obtain ⟨reached, front, last⟩ := exists_of_followed_append found
  have isBase : reached = base := by
    cases count with
    | zero => exact Except.ok.inj last
    | succ count =>
        have stands : system.entry? reached = some .directory := by
          rw [List.replicate_succ, follow] at last
          split at last
          · cases last
          · cases last
          next stands => exact stands
        exact Except.ok.inj ((follow_blank _ stands).symm.trans last)
  subst isBase
  simp only [change, locateVacant, locate]
  split
  · exact ⟨_, rfl, by decide⟩
  · split
    · exact ⟨_, rfl, by decide⟩
    · rw [front]
      simp only [bind, Except.bind, directory]
      exact ⟨_, rfl, by decide⟩

/-!
## Changes that succeed
-/

theorem put_of_change_makeDirectory
    (succeeded : system.change (.makeDirectory path) = .ok later) :
    ∃ place, system.locate path.trimmed = .ok place ∧ system.entry? place = none ∧
      later = system.put place .directory := by
  obtain ⟨place, vacant, same⟩ := exists_of_bind_eq_ok succeeded
  obtain ⟨located, none⟩ := locate_of_locateVacant vacant
  exact ⟨place, located, none, (Except.ok.inj same).symm⟩

theorem put_of_change_makeFile (succeeded : system.change (.makeFile path) = .ok later) :
    ∃ place, system.locate path = .ok place ∧ system.entry? place = none ∧
      later = system.put place (.file .empty) := by
  obtain ⟨place, vacant, same⟩ := exists_of_bind_eq_ok succeeded
  obtain ⟨located, none⟩ := locate_of_locateVacant vacant
  exact ⟨place, located, none, (Except.ok.inj same).symm⟩

theorem hasFile_of_openFile {content : Content}
    (found : system.openFile path = .ok (place, content)) : system.HasFile path place content := by
  obtain ⟨⟨reached, entry⟩, resolved, rest⟩ := exists_of_bind_eq_ok found
  obtain ⟨other, located, stands⟩ := exists_of_bind_eq_ok resolved
  cases entry with
  | directory => cases rest
  | file otherContent =>
      cases rest
      cases there : system.entry? other with
      | none =>
          rw [there] at stands
          cases stands
      | some entry =>
          rw [there] at stands
          cases stands
          exact ⟨located, there⟩

theorem put_of_change_append {bytes : List UInt8}
    (succeeded : system.change (.append path bytes) = .ok later) :
    ∃ place content, system.HasFile path place content ∧
      later = system.put place (.file (content.append bytes)) := by
  obtain ⟨⟨place, content⟩, opened, same⟩ := exists_of_bind_eq_ok succeeded
  exact ⟨place, content, hasFile_of_openFile opened, (Except.ok.inj same).symm⟩

theorem put_of_change_empty (succeeded : system.change (.empty path) = .ok later) :
    ∃ place, system.locate path = .ok place ∧ system.entry? place ≠ some .directory ∧
      later = system.put place (.file .empty) := by
  obtain ⟨place, located, rest⟩ := exists_of_bind_eq_ok succeeded
  refine ⟨place, located, ?_⟩
  split at rest
  · cases rest
  next noDirectory => exact ⟨noDirectory, (Except.ok.inj rest).symm⟩

/-- A new file at a place without a directory is found by its path. -/
theorem hasFile_put (located : system.locate path = .ok place)
    (noDirectory : system.entry? place ≠ some .directory) (content : Content) :
    (system.put place (.file content)).HasFile path place content where
  located := locate_of_keeps (keeps_put _ noDirectory) located
  stands := by
    apply entry?_put_self
    intro same
    subst same
    exact noDirectory (entry?_nil system)

theorem HasFile.put_apart {other : Path} {content : Content}
    (file : system.HasFile path place content) (different : place ≠ other)
    (noDirectory : system.entry? other ≠ some .directory) (changed : Content) :
    (system.put other (.file changed)).HasFile path place content where
  located := locate_of_keeps (FileSystem.keeps_put _ noDirectory) file.located
  stands := by rw [entry?_put_of_ne system _ different, file.stands]

/-- A file that is written as a whole, which changes nothing else. -/
theorem hasFile_of_write {bytes : List UInt8}
    (succeeded : (Disk.write path bytes).run system = (.ok (), later)) :
    ∃ place content, content.toList = bytes ∧ later.HasFile path place content ∧
      system.Keeps later ∧ ∀ other, other ≠ place → later.entry? other = system.entry? other := by
  rw [Disk.write, Disk.run_bind] at succeeded
  cases emptied : (Disk.change (.empty path)).run system with
  | mk outcome middle =>
      rw [emptied] at succeeded
      cases outcome with
      | error refusal => cases succeeded
      | ok =>
          obtain ⟨place, located, noDirectory, rfl⟩ :=
            put_of_change_empty (Disk.change_of_run emptied)
          obtain ⟨again, content, file, rfl⟩ :=
            put_of_change_append (Disk.change_of_run succeeded)
          have new := hasFile_put located noDirectory .empty
          obtain rfl := Except.ok.inj (file.located.symm.trans new.located)
          obtain rfl := Entry.file.inj (Option.some.inj (file.stands.symm.trans new.stands))
          refine ⟨again, _, ?_, file.put_self _, ?_, ?_⟩
          · rw [Content.toList_append, Content.toList_empty, List.nil_append]
          · exact (keeps_put _ noDirectory).trans (file.keeps_put _)
          · intro other different
            rw [entry?_put_of_ne _ _ different, entry?_put_of_ne _ _ different]

/-- A file that is moved, which keeps all directories. -/
theorem hasFile_of_change_rename {target : Path} {content : Content}
    (succeeded : system.change (.rename path target) = .ok later)
    (file : system.HasFile path place content) :
    ∃ targetPlace, later.HasFile target targetPlace content ∧ system.Keeps later ∧
      ∀ other, ¬place <+: other → ¬targetPlace <+: other →
        later.entry? other = system.entry? other := by
  obtain ⟨again, located, rest⟩ := exists_of_bind_eq_ok succeeded
  obtain rfl := Except.ok.inj (file.located.symm.trans located)
  obtain ⟨targetPlace, targetLocated, renamed⟩ := exists_of_bind_eq_ok rest
  refine ⟨targetPlace, ?_⟩
  simp only [rename, file.stands] at renamed
  split at renamed
  · cases renamed
  split at renamed
  · cases renamed
  split at renamed
  next same =>
    cases renamed
    subst same
    exact ⟨⟨targetLocated, file.stands⟩, .refl system, fun _ _ _ => rfl⟩
  next different =>
    obtain ⟨_, replaceable, moved⟩ := exists_of_bind_eq_ok renamed
    cases moved
    have noDirectory : system.entry? targetPlace ≠ some .directory := by
      intro directory
      simp only [checkReplaceable, directory] at replaceable
      cases replaceable
    have unmoved : ∀ other, ¬place <+: other → ¬targetPlace <+: other →
        FileSystem.entry? (system.move place targetPlace) other = system.entry? other :=
      fun _ outside apart => system.entry?_move_of_outside outside apart
    have keeps : system.Keeps (system.move place targetPlace) := by
      intro directory solid above isAbove
      have clear : ∀ {other}, system.entry? other ≠ some .directory → ¬other <+: above :=
        fun no under => no (solid _ (under.trans isAbove))
      rw [unmoved above (clear (by rw [file.stands]; nofun)) (clear noDirectory)]
      exact solid above isAbove
    have deep : targetPlace ≠ [] := by
      intro same
      subst same
      exact noDirectory (entry?_nil system)
    refine ⟨⟨locate_of_keeps keeps targetLocated, ?_⟩, keeps, unmoved⟩
    exact entry?_move_target (ne_nil_of_entry?_eq_file file.stands) deep file.stands

end FileSystem

end GraphStore
